import Caspian.Netcfg.Roles

/-!
# The order of preference among radios

What a radio carries decides how good it is for an access point: nothing at all
is best, then a link that is not the uplink beside which it can run, then such a
link that has to end, and last the uplink itself.  A radio that carries the
uplink and cannot run beside it is no choice.  The cascade of the search picks
the best of these and a USB radio among equals, and refuses for want of a radio
only when there is none.
-/

namespace Caspian.Netcfg

open Verified Netip

/-! ## What a combination allows

The search of `Allows` takes a place in a group, looks further, and gives the
place back.  Here the groups with one place fewer are passed on instead.
-/

/-- A group for every interface: one that has its type, and none with more
interfaces in it than the places it has left. -/
structure Grouped (types : List String) (groups : List (ComboLimit × Int)) (seats : List Nat) :
    Prop where
  has : List.Forall₂ (fun t g => ∃ e, groups[g]? = some e ∧ e.1.has t = true) types seats
  fits : ∀ g e, groups[g]? = some e → seats.count g ≤ e.2.toNat

variable {groups : List (ComboLimit × Int)}

/-- A seating takes one place of a group that has the type and a place left. -/
theorem mem_groupings {t : String} {groups' : List (ComboLimit × Int)} :
    groups' ∈ seatings t groups ↔ ∃ g e, groups[g]? = some e ∧ 0 < e.2 ∧ e.1.has t = true ∧
      groups' = groups.set g (e.1, e.2 - 1) := by
  induction groups generalizing groups' with
  | nil => simp [seatings]
  | cons e rest ih =>
    obtain ⟨l, left⟩ := e
    simp only [seatings, List.mem_append, List.mem_map, ih]
    constructor
    · rintro (hfirst | ⟨rest', ⟨g, e, he, hleft, hhas, rfl⟩, rfl⟩)
      · split at hfirst
        · cases hfirst
        next hopen =>
          rw [not_or, not_le, Bool.not_eq_false] at hopen
          exact ⟨0, (l, left), rfl, hopen.1, hopen.2, List.mem_singleton.mp hfirst⟩
      · exact ⟨g + 1, e, he, hleft, hhas, rfl⟩
    · rintro ⟨g, e, he, hleft, hhas, rfl⟩
      cases g with
      | zero =>
        obtain rfl : (l, left) = e := Option.some.inj he
        have hopen : ¬(left ≤ 0 ∨ l.has t = false) := by
          rw [not_or, not_le, Bool.not_eq_false]
          exact ⟨hleft, hhas⟩
        exact .inl (by rw [if_neg hopen]; exact List.mem_singleton_self _)
      | succ g => exact .inr ⟨_, ⟨g, e, he, hleft, hhas, rfl⟩, rfl⟩

/-- Seating one more interface in a group is seating the others with a place
less in it. -/
theorem grouped_cons {t : String} {ts : List String} {g : Nat} {e : ComboLimit × Int}
    {seats : List Nat} (he : groups[g]? = some e) (hleft : 0 < e.2) (hhas : e.1.has t = true) :
    Grouped (t :: ts) groups (g :: seats) ↔
      Grouped ts (groups.set g (e.1, e.2 - 1)) seats := by
  have hset : ∀ g', (groups.set g (e.1, e.2 - 1))[g']? =
      if g = g' then some (e.1, e.2 - 1) else groups[g']? := by
    intro g'
    rw [List.getElem?_set]
    split
    next heq =>
      subst heq
      have hlt : g < groups.length := (List.getElem?_eq_some_iff.mp he).1
      simp [hlt]
    next => rfl
  have hsame : ∀ t' (g' : Nat), (∃ e' : ComboLimit × Int,
      (groups.set g (e.1, e.2 - 1))[g']? = some e' ∧ e'.1.has t' = true) ↔
        ∃ e' : ComboLimit × Int, groups[g']? = some e' ∧ e'.1.has t' = true := by
    intro t' g'
    rw [hset]
    by_cases heq : g = g'
    · subst heq
      simp [he]
    · simp [heq]
  constructor
  · rintro ⟨hall, hfits⟩
    constructor
    · exact (List.forall₂_cons.mp hall).2.imp fun t' g' => (hsame t' g').mpr
    · intro g' e' he'
      rw [hset] at he'
      by_cases heq : g = g'
      · subst heq
        have hcount := hfits g e he
        rw [if_pos rfl] at he'
        rw [List.count_cons_self] at hcount
        rw [← Option.some.inj he']
        show seats.count g ≤ (e.2 - 1).toNat
        omega
      · have hcount := hfits g' e' (by rwa [if_neg heq] at he')
        rwa [List.count_cons_of_ne heq] at hcount
  · rintro ⟨hall, hfits⟩
    constructor
    · exact .cons ⟨e, he, hhas⟩ (hall.imp fun t' g' => (hsame t' g').mp)
    · intro g' e' he'
      by_cases heq : g = g'
      · subst heq
        obtain rfl : e = e' := Option.some.inj (he.symm.trans he')
        have hcount : seats.count g ≤ (e.2 - 1).toNat :=
          hfits g (e.1, e.2 - 1) (by rw [hset, if_pos rfl])
        rw [List.count_cons_self]
        omega
      · rw [List.count_cons_of_ne heq]
        exact hfits g' e' (by rw [hset, if_neg heq, he'])

/-- The search finds a seating when there is one. -/
theorem assign_iff {types : List String} :
    assign types groups = true ↔ ∃ seats, Grouped types groups seats := by
  induction types generalizing groups with
  | nil => exact iff_of_true rfl ⟨[], .nil, by simp⟩
  | cons t ts ih =>
    rw [assign, List.any_eq_true]
    constructor
    · rintro ⟨groups', hmem, hrest⟩
      obtain ⟨g, e, he, hleft, hhas, rfl⟩ := mem_groupings.mp hmem
      obtain ⟨seats, hseats⟩ := ih.mp hrest
      exact ⟨g :: seats, (grouped_cons he hleft hhas).mpr hseats⟩
    · rintro ⟨seats, hseats⟩
      obtain ⟨g, rest, ⟨e, he, hhas⟩, -, rfl⟩ := List.forall₂_cons_left_iff.mp hseats.has
      have hcount := hseats.fits g e he
      rw [List.count_cons_self] at hcount
      have hleft : 0 < e.2 := by omega
      exact ⟨_, mem_groupings.mpr ⟨g, e, he, hleft, hhas, rfl⟩,
        ih.mpr ⟨rest, (grouped_cons he hleft hhas).mp hseats⟩⟩

/-- **`Allows` decides the assignment problem**: there are no more interfaces than
the total, and each can be put in a group that has its type so that no group
gets more of them than it may. -/
theorem allows_iff (c : Combination) (types : List String) :
    c.allows types = true ↔
      (0 < c.total → (types.length : Int) ≤ c.total) ∧
      ∃ seats : List Nat,
        List.Forall₂ (fun t g => ∃ l, c.limits[g]? = some l ∧ l.has t = true) types seats ∧
          ∀ g l, c.limits[g]? = some l → seats.count g ≤ l.max.toNat := by
  have hseated : (∃ seats, Grouped types (c.limits.map fun l => (l, l.max)) seats) ↔
      ∃ seats : List Nat,
        List.Forall₂ (fun t g => ∃ l, c.limits[g]? = some l ∧ l.has t = true) types seats ∧
          ∀ g l, c.limits[g]? = some l → seats.count g ≤ l.max.toNat := by
    refine exists_congr fun seats => ⟨fun ⟨h, h'⟩ => ⟨?_, ?_⟩, fun ⟨h, h'⟩ => ⟨?_, ?_⟩⟩
    all_goals simp_all
  rw [← hseated, ← assign_iff]
  unfold Combination.allows
  cases types with
  | nil => exact iff_of_true rfl ⟨le_of_lt, rfl⟩
  | cons t ts =>
    simp only [List.isEmpty_cons, Bool.false_eq_true, if_false]
    split
    next hmany =>
      refine iff_of_false Bool.false_ne_true fun h => ?_
      have := h.1 hmany.1
      omega
    next hfew =>
      rw [not_and, not_lt] at hfew
      exact (and_iff_right hfew).symm

/-! ## The ranks -/

/-- How an access point gets onto a radio, best first. -/
inductive Rank where
  | free
  | besideLink
  | endsLink
  | besideUplink
  deriving DecidableEq, Repr

def Rank.order : Rank → Nat
  | free => 0
  | besideLink => 1
  | endsLink => 2
  | besideUplink => 3

/-- The links a radio carries: the uplink, and interfaces joined to a network. -/
def Facts.linksOn (f : Facts) (uplink : String) (phy : Phy) : List WirelessIface :=
  f.wireless.filter fun w =>
    w.phy = phy.name && w.name ≠ "" && (w.name = uplink || w.stationLink)

/-- The rank of a radio that carries or does not carry a link, and the uplink. -/
def rankOf (linked uplinked shares : Bool) : Option Rank :=
  match linked, uplinked, shares with
  | false, _, _ => some .free
  | true, false, true => some .besideLink
  | true, false, false => some .endsLink
  | true, true, true => some .besideUplink
  | true, true, false => none

/-- The rank of a radio. -/
def Facts.rank (f : Facts) (uplink : String) (phy : Phy) : Option Rank :=
  rankOf (!(f.linksOn uplink phy).isEmpty) ((f.linksOn uplink phy).any (·.name = uplink))
    phy.declaresAPWithStation

/-- The rank of a radio by the station the scan recorded for it. -/
def ApCandidate.rank (c : ApCandidate) (uplink : String) : Option Rank :=
  rankOf (c.station.name ≠ "") (c.station.name = uplink) c.phy.declaresAPWithStation

/-- The radio as the scan over the interfaces records it. -/
def Facts.radio (f : Facts) (uplink : String) (phy : Phy) : ApCandidate :=
  f.wireless.foldl (ApCandidate.see f uplink) { phy }

/-- The interface on the radio is on a USB bus. -/
def Facts.onUSB (f : Facts) (uplink : String) (phy : Phy) : Bool := (f.radio uplink phy).bus = "usb"

theorem mem_apCandidates {f : Facts} {uplink : String} {c : ApCandidate} :
    c ∈ apCandidates f uplink ↔ ∃ phy ∈ f.phys, phy.supportsAP = true ∧ f.radio uplink phy = c := by
  simp [apCandidates, Facts.radio, and_assoc]

/-- What the scan knows of the station after the interfaces seen. -/
structure Scanned (uplink : String) (phy : Phy) (links : List WirelessIface) (c : ApCandidate) :
    Prop where
  phy : c.phy = phy
  linked : c.station.name = "" ↔ links = []
  uplinked : c.station.name = uplink ↔ ∃ w ∈ links, w.name = uplink

section Scan

variable {f : Facts} {uplink : String} {phy : Phy} {links : List WirelessIface} {c : ApCandidate}
  {w : WirelessIface}

/-- The station recorded after one more interface of the radio. -/
theorem ApCandidate.see_station (hphy : w.phy = c.phy.name) :
    (c.see f uplink w).station =
      if w.name = uplink then w
      else if w.stationLink ∧ c.station.name = "" then w else c.station := by
  unfold ApCandidate.see
  rw [if_neg (not_not.mpr hphy)]
  by_cases hidle : c.iface.name = ""
  · simp only [hidle, if_true]
    split
    · rfl
    · split <;> rfl
  · simp only [hidle, if_false]
    split
    · rfl
    · split <;> rfl

/-- The scan over one more interface: the uplink is recorded whatever was there,
another link only where there was none. -/
theorem Scanned.see (h : Scanned uplink phy links c) (hu : uplink ≠ "") (w : WirelessIface) :
    Scanned uplink phy (links ++ [w].filter fun w =>
      w.phy = phy.name && w.name ≠ "" && (w.name = uplink || w.stationLink))
      (c.see f uplink w) := by
  by_cases hphy : w.phy = phy.name
  · have hstation := @ApCandidate.see_station f uplink c w (by rw [hphy, h.phy])
    refine ⟨(c.see_phy f uplink w).trans h.phy, ?linked, ?uplinked⟩
    case linked =>
      rw [hstation]
      split_ifs with hw hnew
      · simp [hphy, hw, hu]
      · rw [h.linked] at hnew
        by_cases hname : w.name = "" <;> simp [hphy, hnew, hname]
      · rw [List.append_eq_nil_iff, ← h.linked, iff_self_and]
        intro hnone
        have hidle : w.stationLink = false := by simpa [hnone] using hnew
        simp [hw, hidle]
    case uplinked =>
      rw [hstation]
      split_ifs with hw hnew
      · simp [hphy, hw, hu]
      · rw [h.linked] at hnew
        simp [hnew, hw]
      · rw [h.uplinked]
        simp [or_and_right, exists_or, hw]
  · rw [ApCandidate.see, if_pos (by rwa [h.phy])]
    simpa [hphy] using h

end Scan

/-- The scan records a station exactly when the radio carries a link, and the
uplink whenever the radio carries it. -/
theorem scanned_radio {f : Facts} {uplink : String} (hu : uplink ≠ "") (phy : Phy) :
    Scanned uplink phy (f.linksOn uplink phy) (f.radio uplink phy) := by
  unfold Facts.linksOn Facts.radio
  -- The scan goes from the front, so the interfaces are taken off the back.
  induction f.wireless using List.reverseRecOn with
  | nil => exact ⟨rfl, by simp, by simpa using hu.symm⟩
  | append_singleton seen w ih =>
    rw [List.filter_append, List.foldl_append, List.foldl_cons, List.foldl_nil]
    exact ih.see hu w

/-- The scan ranks a radio as the facts do. -/
theorem rank_radio {f : Facts} {uplink : String} (hu : uplink ≠ "") (phy : Phy) :
    (f.radio uplink phy).rank uplink = f.rank uplink phy := by
  have hscan : Scanned uplink phy (f.linksOn uplink phy) (f.radio uplink phy) :=
    scanned_radio hu phy
  have hlinked : decide ((f.radio uplink phy).station.name ≠ "") =
      !(f.linksOn uplink phy).isEmpty := by
    rw [Bool.eq_iff_iff, decide_eq_true_iff, Bool.not_eq_true', List.isEmpty_eq_false_iff, ne_eq,
      hscan.linked]
  have huplinked : decide ((f.radio uplink phy).station.name = uplink) =
      (f.linksOn uplink phy).any (·.name = uplink) := by
    rw [Bool.eq_iff_iff, decide_eq_true_iff, hscan.uplinked]
    simp
  rw [ApCandidate.rank, Facts.rank, hlinked, huplinked, hscan.phy]

/-! ## The search -/

theorem preferUSB_usb (first : ApCandidate) (rest : List ApCandidate) :
    (preferUSB first rest).bus = "usb" ∨ ∀ c ∈ first :: rest, c.bus ≠ "usb" := by
  induction rest generalizing first with
  | nil =>
    by_cases husb : first.bus = "usb"
    · exact .inl husb
    · exact .inr (by simpa using husb)
  | cons d rest ih =>
    show (preferUSB (if d.bus = "usb" ∧ first.bus ≠ "usb" then d else first) rest).bus = "usb" ∨ _
    split_ifs with hswap
    · exact .inl ((ih d).resolve_right fun hnone => hnone d List.mem_cons_self hswap.1)
    · refine (ih first).imp_right fun hnone => ?_
      rw [List.forall_mem_cons] at hnone ⊢
      exact ⟨hnone.1, List.forall_mem_cons.mpr ⟨fun hd => hswap ⟨hd, hnone.1⟩, hnone.2⟩⟩

/-- Among radios that all carry the uplink only the bus is left to compare. -/
theorem bestShared_uplink {uplink : String} {shared : List ApCandidate}
    (h : ∀ c ∈ shared, c.station.name = uplink) (first : ApCandidate)
    (hfirst : first.station.name = uplink) :
    bestShared uplink first shared = preferUSB first shared := by
  induction shared generalizing first with
  | nil => rfl
  | cons c rest ih =>
    have hc := h c (List.mem_cons_self ..)
    have hrest := fun d hd => h d (List.mem_cons_of_mem _ hd)
    unfold bestShared preferUSB at ih ⊢
    simp only [List.foldl_cons, hfirst, hc, decide_true, Bool.not_true, Bool.and_false,
      Bool.false_eq_true, if_false]
    refine ih hrest _ ?_
    split
    · exact hc
    · exact hfirst

/-- The radios of a rank, in the order they were reported. -/
def ofRank (uplink : String) (cands : List ApCandidate) (r : Rank) : List ApCandidate :=
  cands.filter fun c => c.rank uplink = some r

/-- A USB radio if there is one, and the first otherwise. -/
def pickUSB : List ApCandidate → Option ApCandidate
  | [] => none
  | first :: rest => some (preferUSB first rest)

/-- The ranks, best first. -/
def Rank.all : List Rank := [.free, .besideLink, .endsLink, .besideUplink]

/-- The conditions of the cascade, as ranks. -/
theorem rankOf_table : ∀ linked uplinked shares : Bool,
    decide (rankOf linked uplinked shares = some .free) = !linked ∧
    decide (rankOf linked uplinked shares = some .besideLink) =
      (!uplinked && shares && linked) ∧
    decide (rankOf linked uplinked shares = some .endsLink) =
      (!uplinked && !shares && linked) ∧
    decide (rankOf linked uplinked shares = some .besideUplink) =
      (uplinked && (shares && linked)) := by
  decide

section Search

variable {uplink : String} {cands : List ApCandidate}

theorem bestShared_ofRank {first : ApCandidate} {rest : List ApCandidate}
    (h : ofRank uplink cands .besideUplink = first :: rest) :
    bestShared uplink first (first :: rest) = preferUSB first rest := by
  have hup : ∀ c ∈ first :: rest, c.station.name = uplink := by
    intro c hc
    rw [← h] at hc
    have hrank := (List.mem_filter.mp hc).2
    rw [ApCandidate.rank, (rankOf_table _ _ _).2.2.2] at hrank
    simp only [Bool.and_eq_true, decide_eq_true_eq] at hrank
    exact hrank.1
  rw [bestShared_uplink hup first (hup first (List.mem_cons_self ..))]
  show preferUSB (if first.bus = "usb" ∧ first.bus ≠ "usb" then first else first) rest = _
  rw [ite_self]

/-- The search takes the first rank that has a radio, and in it a USB radio. -/
theorem searchRadio_eq :
    searchRadio uplink cands = Rank.all.findSome? fun r => pickUSB (ofRank uplink cands r) := by
  have hfree : (cands.filter fun c => c.station.name = "") = ofRank uplink cands .free := by
    refine List.filter_congr fun c _ => ?_
    rw [ApCandidate.rank, (rankOf_table _ _ _).1]
    simp
  have hbeside : (((cands.filter fun c => c.station.name ≠ "").filter fun c =>
      c.phy.declaresAPWithStation).filter fun c => c.station.name ≠ uplink) =
        ofRank uplink cands .besideLink := by
    rw [List.filter_filter, List.filter_filter]
    refine List.filter_congr fun c _ => ?_
    rw [ApCandidate.rank, (rankOf_table _ _ _).2.1]
    simp
  have hends : (((cands.filter fun c => c.station.name ≠ "").filter fun c =>
      !c.phy.declaresAPWithStation).filter fun c => c.station.name ≠ uplink) =
        ofRank uplink cands .endsLink := by
    rw [List.filter_filter, List.filter_filter]
    refine List.filter_congr fun c _ => ?_
    rw [ApCandidate.rank, (rankOf_table _ _ _).2.2.1]
    simp
  have hlast : ofRank uplink cands .besideLink = [] →
      ((cands.filter fun c => c.station.name ≠ "").filter fun c =>
        c.phy.declaresAPWithStation) = ofRank uplink cands .besideUplink := by
    intro hnone
    rw [← hbeside, List.filter_eq_nil_iff] at hnone
    unfold ofRank
    rw [List.filter_filter] at hnone ⊢
    refine List.filter_congr fun c hc => ?_
    rw [ApCandidate.rank, (rankOf_table _ _ _).2.2.2]
    by_cases hshares : (c.phy.declaresAPWithStation && decide (c.station.name ≠ "")) = true
    · have hup := hnone c (List.mem_filter.mpr ⟨hc, hshares⟩)
      simp only [ne_eq, decide_not, Bool.not_eq_true', decide_eq_false_iff_not, not_not] at hup
      simp [hup]
    · rw [Bool.not_eq_true] at hshares
      rw [hshares, Bool.and_false]
  unfold searchRadio
  simp only [hfree, hbeside, hends, Rank.all, List.findSome?_cons, List.findSome?_nil]
  cases ofRank uplink cands .free with
  | cons first rest => rfl
  | nil =>
    cases hb : ofRank uplink cands .besideLink with
    | cons first rest => rfl
    | nil =>
      cases ofRank uplink cands .endsLink with
      | cons first rest => rfl
      | nil =>
        rw [hlast hb]
        cases hup : ofRank uplink cands .besideUplink with
        | nil => rfl
        | cons first rest => exact congrArg some (bestShared_ofRank hup)

theorem pickUSB_ok {l : List ApCandidate} {c : ApCandidate} (h : pickUSB l = some c) :
    c ∈ l ∧ (c.bus = "usb" ∨ ∀ d ∈ l, d.bus ≠ "usb") := by
  cases l with
  | nil => cases h
  | cons first rest =>
    rw [← Option.some.inj h]
    exact ⟨preferUSB_mem first rest, preferUSB_usb first rest⟩

theorem pickUSB_none {l : List ApCandidate} (h : pickUSB l = none) : l = [] := by
  cases l with
  | nil => rfl
  | cons first rest => cases h

theorem Rank.mem_all (r : Rank) : r ∈ Rank.all := by cases r <;> decide

/-- The ranks before one are the better ones. -/
theorem Rank.order_of_all {before after : List Rank} {r r' : Rank}
    (h : Rank.all = before ++ r :: after) (hr' : r' ∉ before) : r.order ≤ r'.order := by
  have hpair : Rank.all.Pairwise fun a b => a.order < b.order := by decide
  have hmem := r'.mem_all
  rw [h, List.mem_append, List.mem_cons] at hmem
  rcases hmem with hb | rfl | ha
  · exact absurd hb hr'
  · exact le_refl _
  · rw [h, List.pairwise_append, List.pairwise_cons] at hpair
    exact Nat.le_of_lt (hpair.2.1.1 r' ha)

/-- What the search settles on has the best rank there is, and is a USB radio if
its rank has one. -/
theorem searchRadio_best {c : ApCandidate} (h : searchRadio uplink cands = some c) :
    c ∈ cands ∧ ∃ r, c.rank uplink = some r ∧
      (∀ d ∈ cands, ∀ r', d.rank uplink = some r' → r.order ≤ r'.order) ∧
      (c.bus = "usb" ∨ ∀ d ∈ cands, d.rank uplink = some r → d.bus ≠ "usb") := by
  rw [searchRadio_eq, List.findSome?_eq_some_iff] at h
  obtain ⟨before, r, after, hall, hpick, hbefore⟩ := h
  obtain ⟨hmem, husb⟩ := pickUSB_ok hpick
  obtain ⟨hc, hrank⟩ := List.mem_filter.mp hmem
  refine ⟨hc, r, of_decide_eq_true hrank, fun d hd r' hr' => ?_, ?_⟩
  · refine Rank.order_of_all hall fun hin => ?_
    have hnone := pickUSB_none (hbefore r' hin)
    have hd' : d ∈ ofRank uplink cands r' := List.mem_filter.mpr ⟨hd, decide_eq_true hr'⟩
    rw [hnone] at hd'
    cases hd'
  · rcases husb with husb | hnone
    · exact .inl husb
    · exact .inr fun d hd hr => hnone d (List.mem_filter.mpr ⟨hd, decide_eq_true hr⟩)

/-- It settles on nothing only when no radio has a rank. -/
theorem searchRadio_none (h : searchRadio uplink cands = none) :
    ∀ c ∈ cands, c.rank uplink = none := by
  rw [searchRadio_eq, List.findSome?_eq_none_iff] at h
  intro c hc
  cases hrank : c.rank uplink with
  | none => rfl
  | some r =>
    have hnone := pickUSB_none (h r r.mem_all)
    have hc' : c ∈ ofRank uplink cands r := List.mem_filter.mpr ⟨hc, decide_eq_true hrank⟩
    rw [hnone] at hc'
    cases hc'

end Search

/-! ## Refusals -/

/-- The errors that say no radio can be used. -/
def PlanSentinel.wantsRadio : PlanSentinel → Bool
  | noAPCapableInterface | apConflictsWithUplink | hotspotNotReleased => true
  | _ => false

/-- The plan was refused for want of a radio. -/
def PlanError.WantsRadio (e : PlanError) : Prop := e.sentinel.any (·.wantsRadio) = true

section Refusals

open Outcome

/-- A refusal, if any, that is not for want of a radio. -/
abbrev Elsewhere {α : Type} (x : Except PlanError α) : Prop := Errs (fun e => ¬e.WantsRadio) x

theorem elsewhere_wrap {α : Type} {s : PlanSentinel} {detail user : String}
    (h : s.wantsRadio = false) : Elsewhere (.error (.wrap s detail user) : Except PlanError α) :=
  errs_error (by simp [PlanError.WantsRadio, PlanError.wrap, h])

theorem elsewhere_plain {α : Type} (text : String) :
    Elsewhere (.error (.plain text) : Except PlanError α) :=
  errs_error (by simp [PlanError.WantsRadio, PlanError.plain])

theorem chooseChannel_elsewhere (p : Plan) (phy : Phy) (band : RadioBand) :
    Elsewhere (chooseChannel p phy band) := by
  unfold chooseChannel
  split
  · split
    · exact errs_ok _
    · split <;> exact errs_ok _
  · split
    · exact errs_ok _
    · exact elsewhere_wrap rfl

theorem apName_elsewhere (o : Options) : Elsewhere (apName o) :=
  (errs_ok _).ite (elsewhere_plain _)

theorem besideStation_elsewhere (p : Plan) (c : ApCandidate) (o : Options) :
    Elsewhere (besideStation p c o) :=
  .ite (.ite (errs_ok _) (elsewhere_plain _)) ((apName_elsewhere o).bind fun _ _ => errs_ok _)

theorem refuseBandAgainstPin_elsewhere {p : Plan} {phy : Phy} {station : WirelessIface}
    {band : RadioBand} {e : PlanError} (h : refuseBandAgainstPin p phy station band = some e) :
    ¬e.WantsRadio := by
  unfold refuseBandAgainstPin at h
  dsimp only at h
  rw [Option.ite_none_left_eq_some] at h
  rw [← Option.some.inj h.2]
  simp [PlanError.WantsRadio, PlanError.wrap, PlanSentinel.wantsRadio]

theorem shareChannel_elsewhere (p : Plan) (c : ApCandidate) (combo : Combination) (o : Options) :
    Elsewhere (shareChannel p c combo o) := by
  refine .ite ?_ (chooseChannel_elsewhere _ _ _)
  dsimp only
  split
  next e he => exact errs_error (refuseBandAgainstPin_elsewhere he)
  · exact errs_ok _

theorem takeOver_elsewhere (p : Plan) (c : ApCandidate) (o : Options) :
    Elsewhere (takeOver p c o) :=
  .ite (elsewhere_plain _) ((chooseChannel_elsewhere _ _ _).bind fun _ _ => errs_ok _)

/-- A radio is refused for being a radio only when it has no rank. -/
theorem acceptHotspot_refusal (p : Plan) (c : ApCandidate) (o : Options) :
    Errs (fun e => e.WantsRadio →
      e.sentinel = some .apConflictsWithUplink ∧ c.rank p.uplink = none) (acceptHotspot p c o) := by
  have hlift : ∀ {α : Type} {x : Except PlanError α} {C : PlanError → Prop}, Elsewhere x →
      Errs (fun e => e.WantsRadio → C e) x := fun hx => hx.mono fun e hne he => absurd he hne
  refine Errs.bind ?_ fun _ _ => errs_ok _
  unfold seatHotspot
  split
  · exact hlift (takeOver_elsewhere _ c o)
  next hkeep =>
    split
    next hstation =>
      refine (hlift (besideStation_elsewhere _ c o)).bind fun q _ => ?_
      split
      next hnone =>
        -- Without a combination the radio carries the uplink, and has no rank.
        have hshares : c.phy.declaresAPWithStation = false := by
          simp [Phy.declaresAPWithStation, hnone]
        have hup : c.station.name = p.uplink := by
          by_contra hne
          exact hkeep ⟨hstation, hshares, hne⟩
        refine errs_error fun _ => ⟨rfl, ?_⟩
        simp [ApCandidate.rank, rankOf, hshares, hup, hup ▸ hstation]
      · exact hlift (shareChannel_elsewhere _ _ _ _)
    · split
      · exact hlift (.ite (chooseChannel_elsewhere _ _ _) (elsewhere_plain _))
      · exact hlift ((apName_elsewhere o).bind fun _ _ => chooseChannel_elsewhere _ _ _)

theorem systemSOCKSForPlan_elsewhere (f : Facts) (o : Options) :
    Elsewhere (systemSOCKSForPlan f o) := by
  have hcheck : ∀ state, Elsewhere (checkSystemSOCKS state) := fun state =>
    .ite (elsewhere_wrap rfl) (.ite (elsewhere_wrap rfl) (.ite (elsewhere_wrap rfl) (errs_ok _)))
  exact .ite (elsewhere_plain _) (.ite (elsewhere_plain _) (.ite (elsewhere_plain _)
    (.ite (elsewhere_wrap rfl) (.ite (elsewhere_wrap rfl) (errs_mapM hcheck _)))))

theorem chooseSubnet_elsewhere (pool taken : List Prefix) :
    Elsewhere (chooseSubnet pool taken) := by
  unfold chooseSubnet
  split
  · exact errs_ok _
  · exact elsewhere_wrap rfl

theorem gatewayAddr_elsewhere (p : Prefix) : Elsewhere (gatewayAddr p) :=
  .ite (elsewhere_plain _) (.ite (elsewhere_plain _) (.ite (elsewhere_plain _) (errs_ok _)))

theorem peerAddr_elsewhere (p : Prefix) : Elsewhere (peerAddr p) := by
  unfold peerAddr
  split
  next e he => exact errs_error (gatewayAddr_elsewhere p e he)
  · exact .ite (elsewhere_plain _) (errs_ok _)

theorem placeSubnets_elsewhere (p : Plan) (f : Facts) (o : Options) :
    Elsewhere (placeSubnets p f o) := by
  have hhotspot : Elsewhere (placeHotspotSubnet p o f.occupiedPrefixes) :=
    .ite (errs_ok _) ((chooseSubnet_elsewhere _ _).bind fun _ _ => errs_ok _)
  exact hhotspot.bind fun q _ => (gatewayAddr_elsewhere _).bind fun _ _ =>
    (chooseSubnet_elsewhere _ _).bind fun _ _ => (gatewayAddr_elsewhere _).bind fun _ _ =>
      (peerAddr_elsewhere _).bind fun _ _ => errs_ok _

theorem placeServers_elsewhere (p : Plan) (servers : List Addr) :
    Elsewhere (placeServers p servers) :=
  .ite (elsewhere_wrap rfl) (.ite (elsewhere_wrap rfl) (errs_ok _))

theorem chooseUplink_elsewhere (f : Facts) (o : Options) : Elsewhere (chooseUplink f o) := by
  unfold chooseUplink
  split
  · split
    · exact errs_ok _
    · exact elsewhere_wrap rfl
  · split
    · exact errs_ok _
    · exact elsewhere_wrap rfl

variable {o : Options}

/-- Without an override, a radio is wanting only when the search finds none. -/
theorem chooseHotspot_wants {p : Plan} {f : Facts} {e : PlanError} (ho : o.hotspotOverride = "")
    (h : chooseHotspot p f o = .error e) (he : e.WantsRadio) :
    ∀ c ∈ apCandidates f p.uplink, c.rank p.uplink = none := by
  unfold chooseHotspot at h
  simp only [ho, ne_eq, not_true_eq_false, if_false] at h
  split at h
  next hnone =>
    intro c hc
    rw [List.isEmpty_iff.mp hnone] at hc
    cases hc
  · rw [searchHotspot_eq] at h
    split at h
    next c hc =>
      obtain ⟨-, r, hrank, -⟩ := searchRadio_best hc
      obtain ⟨-, hnone⟩ := acceptHotspot_refusal _ c o e h he
      rw [show c.rank p.uplink = some r from hrank] at hnone
      cases hnone
    next hnone => exact searchRadio_none hnone

/-- Everything `PlanNetwork` does before it looks for a radio succeeds. -/
def ReachesRadio (f : Facts) (o : Options) : Prop :=
  validInterfaceNameOn o.platform o.tunName = true ∧
    (∃ socks, (if o.systemSOCKS.enabled then systemSOCKSForPlan f o else pure []) = .ok socks) ∧
    ∃ route, chooseUplink f o = .ok route

/-- Of everything a plan can be refused for, only the choice of the radio is for
want of one. -/
theorem planNetwork_refusal {f : Facts} {C : PlanError → Prop}
    (h : ReachesRadio f (withDefaults o) → ∀ (p : Plan) (route : DefaultRoute),
      chooseUplink f (withDefaults o) = .ok route → p.uplink = route.dev →
        Errs (fun e => e.WantsRadio → C e) (chooseHotspot p f (withDefaults o)))
    (servers : List Addr) :
    Errs (fun e => e.WantsRadio → C e) (planNetwork f servers o) := by
  have hlift : ∀ {α : Type} {x : Except PlanError α}, Elsewhere x →
      Errs (fun e => e.WantsRadio → C e) x := fun hx => hx.mono fun e hne he => absurd he hne
  unfold planNetwork planWith
  split
  · exact hlift (elsewhere_plain _)
  next hvalid =>
    refine Errs.bind (hlift (.ite (systemSOCKSForPlan_elsewhere f _) (errs_ok _)))
      fun socks hsocks => ?_
    refine Errs.bind (hlift (chooseUplink_elsewhere f _)) fun route hroute => ?_
    have hreach : ReachesRadio f (withDefaults o) :=
      ⟨by simpa using hvalid, ⟨socks, hsocks⟩, route, hroute⟩
    refine Errs.bind (h hreach _ route hroute ?_) fun q _ =>
      Errs.bind (hlift (placeSubnets_elsewhere q f _)) fun r _ =>
        hlift (placeServers_elsewhere r servers)
    unfold placeUplink
    split <;> rfl

theorem planNetwork_wants {f : Facts} {servers : List Addr}
    (ho : (withDefaults o).hotspotOverride = "") :
    Errs (fun e => e.WantsRadio → ∃ route, chooseUplink f (withDefaults o) = .ok route ∧
      ∀ phy ∈ f.phys, phy.supportsAP = true → f.rank route.dev phy = none)
      (planNetwork f servers o) := by
  refine planNetwork_refusal (fun _ p route hroute huplink e h he => ?_) servers
  have hu := (chooseUplink_ok hroute).2
  have hnone := chooseHotspot_wants ho h he
  rw [huplink] at hnone
  refine ⟨route, hroute, fun phy hin hap => ?_⟩
  rw [← rank_radio hu]
  exact hnone _ (mem_apCandidates.mpr ⟨phy, hin, hap, rfl⟩)

end Refusals

/-! ## The plan -/

/-- **The radio a plan is on is the best there is.**  Without an override, no
radio that can be an access point has a better rank, and if one of its rank is on
a USB bus it is too; and a plan is refused for want of a radio only when no such
radio has a rank. -/
theorem best_radio (f : Facts) (servers : List Addr) (o : Options)
    (ho : (withDefaults o).hotspotOverride = "") :
    (∀ p, planNetwork f servers o = .ok p →
      ∃ route phy r, chooseUplink f (withDefaults o) = .ok route ∧
        phy ∈ f.phys ∧ phy.supportsAP = true ∧ p.hotspotPhy = phy.name ∧
        f.rank route.dev phy = some r ∧
        (∀ phy' ∈ f.phys, phy'.supportsAP = true → ∀ r', f.rank route.dev phy' = some r' →
          r.order ≤ r'.order) ∧
        (f.onUSB route.dev phy = true ∨ ∀ phy' ∈ f.phys, phy'.supportsAP = true →
          f.rank route.dev phy' = some r → f.onUSB route.dev phy' = false)) ∧
    ∀ e, planNetwork f servers o = .error e → e.WantsRadio →
      ∃ route, chooseUplink f (withDefaults o) = .ok route ∧
        ∀ phy ∈ f.phys, phy.supportsAP = true → f.rank route.dev phy = none := by
  refine ⟨fun p h => ?_, planNetwork_wants ho⟩
  obtain ⟨route, c, hroute, hc, -, -, -, hphy, -⟩ := planNetwork_roles h
  have hu := (chooseUplink_ok hroute).2
  rw [pickRadio, if_neg (not_not.mpr ho)] at hc
  obtain ⟨hmem, r, hrank, hbest, husb⟩ := searchRadio_best hc
  obtain ⟨phy, hin, hap, rfl⟩ := mem_apCandidates.mp hmem
  have hradio : ∀ phy' ∈ f.phys, phy'.supportsAP = true →
      f.radio route.dev phy' ∈ apCandidates f route.dev := fun phy' hin' hap' =>
    mem_apCandidates.mpr ⟨phy', hin', hap', rfl⟩
  refine ⟨route, phy, r, hroute, hin, hap, ?_, ?_, fun phy' hin' hap' r' hr' => ?_, ?_⟩
  · rw [hphy, (scanned_radio hu phy).phy]
  · rw [← rank_radio hu, hrank]
  · exact hbest _ (hradio phy' hin' hap') r' ((rank_radio hu phy').trans hr')
  · rcases husb with husb | hnone
    · exact .inl (decide_eq_true husb)
    · exact .inr fun phy' hin' hap' hr' =>
        decide_eq_false (hnone _ (hradio phy' hin' hap') ((rank_radio hu phy').trans hr'))

/-- A cabled machine with a built-in radio and a USB one, both idle. -/
def twoRadioFacts : Facts :=
  { cabledFacts with
    links := cabledFacts.links ++ [{ name := "wlan1", bus := "usb" }]
    wireless :=
      [ { name := "wlan0", phy := "phy0", type := "managed", linkKnown := true },
        { name := "wlan1", phy := "phy1", type := "managed", linkKnown := true } ]
    phys :=
      [ { name := "phy0", modes := ["managed", "AP"],
          frequencies := [{ mhz := 2412, channel := 1 }] },
        { name := "phy1", modes := ["managed", "AP"]
          frequencies := [{ mhz := 2412, channel := 1 }] } ] }

/-- The plan is on the USB radio, and no radio is better. -/
theorem twoRadio_best :
    ∃ p, planNetwork twoRadioFacts [.v4 0xCB007107#32] defaultOptions = .ok p ∧
      p.hotspotPhy = "phy1" ∧
      ∃ route phy r, chooseUplink twoRadioFacts (withDefaults defaultOptions) = .ok route ∧
        p.hotspotPhy = phy.name ∧ twoRadioFacts.rank route.dev phy = some r ∧
        ∀ phy' ∈ twoRadioFacts.phys, phy'.supportsAP = true →
          ∀ r', twoRadioFacts.rank route.dev phy' = some r' → r.order ≤ r'.order := by
  obtain ⟨p, hp, hphy⟩ := Outcome.ok_of_any
    (by decide :
      (planNetwork twoRadioFacts [.v4 0xCB007107#32] defaultOptions).toOption.any
        (fun p => p.hotspotPhy = "phy1") = true)
  obtain ⟨route, phy, r, hroute, -, -, hname, hrank, hbest, -⟩ :=
    (best_radio twoRadioFacts [.v4 0xCB007107#32] defaultOptions rfl).1 p hp
  exact ⟨p, hp, of_decide_eq_true hphy, route, phy, r, hroute, hname, hrank, hbest⟩

end Caspian.Netcfg
