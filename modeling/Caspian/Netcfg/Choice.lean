import Caspian.Netcfg.Backend

/-!
# Which device gets which role

A plan gives three devices a role: the uplink, the tunnel and the hotspot.
The uplink is read off a default route, the tunnel is named by the options,
and the hotspot is seated on the radio that the order of preference picks.
This module says what that radio is and where the access point ends up on it
(`pickRadio`, `ApCandidate.seat`), and reads three questions off it: whether
the hotspot can be the uplink, whether it can be an interface somebody else is
using, and whether the tunnel can be one of the other two.
-/

namespace Caspian.Netcfg

open Verified Netip

/-! ## The radio picked -/

/-- The radio the search settles on, before it is asked for anything. -/
def searchRadio (uplink : String) (cands : List ApCandidate) : Option ApCandidate :=
  let free := cands.filter fun c => c.station.name = ""
  let joined := cands.filter fun c => c.station.name ≠ ""
  let shared := joined.filter fun c => c.phy.declaresAPWithStation
  let alone := joined.filter fun c => !c.phy.declaresAPWithStation
  let takeoverable := alone.filter fun c => c.station.name ≠ uplink
  match free, shared.filter (fun c => c.station.name ≠ uplink), takeoverable, shared with
  | first :: rest, _, _, _ => some (preferUSB first rest)
  | [], first :: rest, _, _ => some (preferUSB first rest)
  | [], [], first :: rest, _ => some (preferUSB first rest)
  | [], [], [], first :: rest => some (bestShared uplink first (first :: rest))
  | [], [], [], [] => none

/-- The radio chosen by hand, or the one the search settles on. -/
def pickRadio (f : Facts) (uplink : String) (o : Options) : Option ApCandidate :=
  if o.hotspotOverride ≠ "" then
    (apCandidates f uplink).find? fun c =>
      c.iface.name = o.hotspotOverride || c.phy.name = o.hotspotOverride
  else searchRadio uplink (apCandidates f uplink)

/-- The search accepts the radio it settles on.  What it calls blocked carries the
uplink, so the refusals over a blocked radio are never taken. -/
theorem searchHotspot_eq (p : Plan) (cands : List ApCandidate) (o : Options) :
    searchHotspot p cands o =
      match searchRadio p.uplink cands with
      | some c => acceptHotspot p c o
      | none => .error (noRadioLeft p.uplink cands) := by
  have hblocked : ∀ l : List ApCandidate,
      ((l.filter fun c => c.station.name = p.uplink).find? fun c => c.station.name ≠ p.uplink) =
        none := by
    intro l
    rw [List.find?_eq_none]
    intro c hc
    simpa using (List.mem_filter.mp hc).2
  unfold searchHotspot searchRadio
  simp only [hblocked]
  cases cands.filter fun c => c.station.name = "" with
  | cons first rest => rfl
  | nil =>
    generalize (cands.filter fun c => c.station.name ≠ "").filter
      (fun c => c.phy.declaresAPWithStation) = shared
    cases shared.filter fun c => c.station.name ≠ p.uplink with
    | cons first rest => rfl
    | nil =>
      generalize List.filter (fun c : ApCandidate => decide (c.station.name ≠ p.uplink)) _ =
        takeoverable
      cases takeoverable with
      | cons first rest => rfl
      | nil =>
        cases shared with
        | nil | cons first rest => rfl

variable {p q : Plan} {f : Facts} {o : Options}

/-- A hotspot that was chosen is on the radio that was picked. -/
theorem chooseHotspot_picks (h : chooseHotspot p f o = .ok q) :
    ∃ c mode, pickRadio f p.uplink o = some c ∧
      acceptHotspot { p with mode := mode } c o = .ok q := by
  unfold chooseHotspot at h
  obtain ⟨_, h⟩ := Outcome.guard_ok h
  unfold pickRadio
  split at h
  · rename_i hover
    rw [if_pos hover]
    split at h
    · rename_i c hc
      exact ⟨c, _, hc, h⟩
    · cases h
  · rename_i hover
    rw [if_neg hover]
    rw [searchHotspot_eq] at h
    split at h
    · rename_i c hc
      exact ⟨c, _, hc, h⟩
    · cases h

theorem preferUSB_mem (first : ApCandidate) (rest : List ApCandidate) :
    preferUSB first rest ∈ first :: rest := by
  refine List.foldlRecOn rest _ (motive := fun c => c ∈ first :: rest)
    (List.mem_cons_self ..) ?_
  intro best hbest c hc
  split
  · exact List.mem_cons_of_mem _ hc
  · exact hbest

variable {uplink : String}

theorem bestShared_mem {first : ApCandidate} {shared : List ApCandidate} (hfirst : first ∈ shared) :
    bestShared uplink first shared ∈ shared := by
  refine List.foldlRecOn shared _ (motive := fun c => c ∈ shared) hfirst ?_
  intro best hbest c hc
  simp only
  split
  · exact hc
  · split
    · exact hbest
    · split
      · exact hc
      · exact hbest

variable {c : ApCandidate}

/-- What the search settles on is one of the radios it was given. -/
theorem searchRadio_mem {cands : List ApCandidate} (h : searchRadio uplink cands = some c) :
    c ∈ cands := by
  unfold searchRadio at h
  simp only at h
  split at h
  · rename_i first rest hl
    have hmem := preferUSB_mem first rest
    rw [Option.some.inj h, ← hl] at hmem
    exact (List.mem_filter.mp hmem).1
  · rename_i first rest _ hl
    have hmem := preferUSB_mem first rest
    rw [Option.some.inj h, ← hl] at hmem
    simp only [List.mem_filter] at hmem
    exact hmem.1.1.1
  · rename_i first rest _ _ hl
    have hmem := preferUSB_mem first rest
    rw [Option.some.inj h, ← hl] at hmem
    simp only [List.mem_filter] at hmem
    exact hmem.1.1.1
  · rename_i first rest _ _ _ hl
    have hfirst : first ∈ first :: rest := List.mem_cons_self ..
    have hmem : bestShared uplink first (first :: rest) ∈ first :: rest := bestShared_mem hfirst
    rw [Option.some.inj h, ← hl] at hmem
    simp only [List.mem_filter] at hmem
    exact hmem.1.1
  · cases h

theorem pickRadio_mem (h : pickRadio f uplink o = some c) : c ∈ apCandidates f uplink := by
  unfold pickRadio at h
  split at h
  · exact List.mem_of_find?_eq_some h
  · exact searchRadio_mem h

/-- An interface that is the uplink is counted as the radio's station. -/
theorem ApCandidate.see_uplink (hu : uplink ≠ "") (hc : c.iface.name = uplink → c.station.name ≠ "")
    (w : WirelessIface) :
    (c.see f uplink w).iface.name = uplink → (c.see f uplink w).station.name ≠ "" := by
  by_cases hphy : w.phy = c.phy.name
  · by_cases hw : w.name = uplink
    · intro _
      simpa [ApCandidate.see, hphy, hw] using hu
    · intro hi
      -- Another interface: the one recorded as idle was recorded before it.
      have hold : c.iface.name = uplink := by
        simp only [ApCandidate.see, hphy, hw] at hi
        grind
      have hst := hc hold
      have hkeep : (c.see f uplink w).station = c.station := by
        simp only [ApCandidate.see, hphy, hw]
        grind
      rw [hkeep]
      exact hst
  · simpa [ApCandidate.see, hphy] using hc

/-- A radio with nothing joined on it does not carry the uplink: the uplink
counts as a station whatever type it reports. -/
theorem iface_ne_uplink (hu : uplink ≠ "") (hc : c ∈ apCandidates f uplink)
    (hs : c.station.name = "") : c.iface.name ≠ uplink := by
  unfold apCandidates at hc
  obtain ⟨phy, _, rfl⟩ := List.mem_map.mp hc
  have hfold := List.foldlRecOn f.wireless (ApCandidate.see f uplink)
    (motive := fun c : ApCandidate => c.iface.name = uplink → c.station.name ≠ "")
    (b := { phy }) (fun h => absurd h.symm hu) (fun c hc w _ => c.see_uplink hu hc w)
  intro heq
  exact hfold heq hs

/-- Looking at the interfaces of a radio keeps the radio. -/
theorem ApCandidate.see_phy (f : Facts) (uplink : String) (c : ApCandidate)
    (w : WirelessIface) : (c.see f uplink w).phy = c.phy := by
  simp only [ApCandidate.see]
  grind

/-- A candidate is a radio of the machine that can be an access point. -/
theorem phy_of_apCandidates (hc : c ∈ apCandidates f uplink) :
    c.phy ∈ f.phys ∧ c.phy.supportsAP = true := by
  obtain ⟨phy, hphy, rfl⟩ := List.mem_map.mp hc
  have hkeep : (f.wireless.foldl (ApCandidate.see f uplink) { phy }).phy = phy :=
    List.foldlRecOn f.wireless (ApCandidate.see f uplink)
      (motive := fun c : ApCandidate => c.phy = phy) rfl
      fun c hc w _ => (c.see_phy f uplink w).trans hc
  rw [hkeep]
  exact List.mem_filter.mp hphy

/-! ## The seat on it -/

/-- The name an interface created for the access point gets. -/
def accessPointName (o : Options) : String :=
  if o.apIfaceName = "" then defaultAPIfaceName else o.apIfaceName

/-- Where the access point lives. -/
structure Seat where
  hotspot : String
  isVirtual : Bool := false
  takenOver : Bool := false
  fallback : String := ""
  pinned : Bool := false
  deriving DecidableEq

/-- The seat a plan records. -/
def Plan.seat (p : Plan) : Seat :=
  ⟨p.hotspot, p.hotspotIsVirtual, p.hotspotTakenOver, p.hotspotFallback, p.channelPinned⟩

/-- The station on this radio has to go before the radio can be an access
point. -/
def ApCandidate.takesOver (c : ApCandidate) (uplink : String) : Bool :=
  c.station.name ≠ "" && !c.phy.declaresAPWithStation && c.station.name ≠ uplink

/-- The access point has to stay on its neighbour's channel. -/
def ApCandidate.pins (c : ApCandidate) : Bool :=
  (c.phy.apWithStation.any fun combo => combo.channels = 1) && c.station.stationLink

/-- Where the access point goes on a radio: over its station, beside it, on an
idle interface or on one that is created. -/
def ApCandidate.seat (c : ApCandidate) (uplink : String) (o : Options) : Seat :=
  if c.takesOver uplink then { hotspot := c.station.name, takenOver := true }
  else if c.station.name ≠ "" then
    if o.platform = .windows then { hotspot := c.station.name, pinned := c.pins }
    else
      { hotspot := accessPointName o, isVirtual := true, pinned := c.pins
        fallback := if c.station.name ≠ uplink then c.station.name else "" }
  else if c.iface.name ≠ "" then { hotspot := c.iface.name }
  else { hotspot := accessPointName o, isVirtual := true }

/-- The roles and what the radio reported: what the rest of planning leaves
alone. -/
structure Roles where
  uplink : String
  uplinkV6Dev : String
  seat : Seat
  phy : String
  channel : Int
  usable : List Int

def Plan.roles (p : Plan) : Roles :=
  ⟨p.uplink, p.uplinkV6Dev, p.seat, p.hotspotPhy, p.channel, p.usableChannel⟩

/-- Nothing is seated yet. -/
def Plan.Unseated (p : Plan) : Prop := ∃ name, p.seat = { hotspot := name }

theorem apName_ok {name : String} (h : apName o = .ok name) : name = accessPointName o := by
  change (if validInterfaceName (accessPointName o) then Except.ok (accessPointName o)
    else _) = _ at h
  split at h
  · exact (Except.ok.inj h).symm
  · cases h

/-- The channel of a hotspot beside a station is the station's when the radio
pins it. -/
theorem shareChannel_pins {combo : Combination} (h : shareChannel p c combo o = .ok q)
    (hcombo : c.phy.apWithStation = some combo) (hp : p.channelPinned = false) :
    q.channelPinned = c.pins := by
  unfold ApCandidate.pins
  rw [hcombo]
  unfold shareChannel at h
  split at h
  · rename_i hpin
    simp only at h
    split at h
    · cases h
    · rw [← Except.ok.inj h]
      simp [Plan.note, hpin.1, hpin.2]
  · rename_i hpin
    obtain ⟨ch, rfl⟩ := chooseChannel_ok h
    rw [hp]
    simpa using hpin

/-- Accepting a radio seats the hotspot on it and touches no other role. -/
theorem seatHotspot_seat (h : seatHotspot p c o = .ok q) (hp : p.Unseated) :
    q.seat = c.seat p.uplink o ∧ q.uplink = p.uplink ∧ q.uplinkV6Dev = p.uplinkV6Dev ∧
      q.hotspotPhy = p.hotspotPhy ∧ q.usableChannel = p.usableChannel := by
  obtain ⟨name, hp⟩ := hp
  simp only [Plan.seat, Seat.mk.injEq] at hp
  obtain ⟨-, hvirtual, htaken, hfallback, hpinned⟩ := hp
  unfold seatHotspot at h
  unfold ApCandidate.seat ApCandidate.takesOver
  split at h
  · rename_i htake
    rw [if_pos (by simpa [and_assoc] using htake)]
    unfold takeOver at h
    obtain ⟨_, h⟩ := Outcome.guard_ok h
    obtain ⟨r, hr, h⟩ := Outcome.bind_ok h
    obtain ⟨_, rfl⟩ := chooseChannel_ok hr
    rw [← Except.ok.inj h]
    exact ⟨rfl, rfl, rfl, rfl, rfl⟩
  · rename_i htake
    rw [if_neg (by simpa [and_assoc] using htake)]
    split at h
    · rename_i hstation
      rw [if_pos hstation]
      obtain ⟨r, hr, h⟩ := Outcome.bind_ok h
      unfold besideStation at hr
      split at h
      · cases h
      · rename_i combo hcombo
        split at hr
        · rename_i hwin
          rw [if_pos hwin]
          split at hr
          · rw [← Except.ok.inj hr] at h
            have hpin := shareChannel_pins h hcombo hpinned
            obtain ⟨_, _, _, rfl⟩ := shareChannel_ok h
            simp only at hpin
            simp [Plan.seat, hvirtual, htaken, hfallback, hpin]
          · cases hr
        · rename_i hwin
          rw [if_neg hwin]
          obtain ⟨ap, hap, hr⟩ := Outcome.bind_ok hr
          rw [← Except.ok.inj hr] at h
          have hpin := shareChannel_pins h hcombo hpinned
          obtain ⟨_, _, _, rfl⟩ := shareChannel_ok h
          simp only at hpin
          simp [Plan.seat, htaken, hfallback, hpin, apName_ok hap]
    · rename_i hstation
      rw [if_neg hstation]
      split at h
      · rename_i hiface
        rw [if_pos hiface]
        split at h
        · obtain ⟨_, rfl⟩ := chooseChannel_ok h
          simp [Plan.seat, hvirtual, htaken, hfallback, hpinned]
        · cases h
      · rename_i hiface
        rw [if_neg hiface]
        obtain ⟨ap, hap, h⟩ := Outcome.bind_ok h
        obtain ⟨_, rfl⟩ := chooseChannel_ok h
        simp [Plan.seat, htaken, hfallback, hpinned, apName_ok hap]

theorem noteNoChannel_roles (p : Plan) (c : ApCandidate) : (noteNoChannel p c).roles = p.roles := by
  unfold noteNoChannel
  split <;> rfl

theorem acceptHotspot_seat (h : acceptHotspot p c o = .ok q) (hp : p.Unseated) :
    q.seat = c.seat p.uplink o ∧ q.uplink = p.uplink ∧ q.uplinkV6Dev = p.uplinkV6Dev ∧
      q.hotspotPhy = c.phy.name ∧ q.usableChannel = c.phy.usableChannels := by
  obtain ⟨r, hr, h⟩ := Outcome.bind_ok h
  have hroles : q.roles = r.roles := by
    rw [← Except.ok.inj h]
    exact noteNoChannel_roles r c
  simp only [Plan.roles, Roles.mk.injEq] at hroles
  obtain ⟨huplink, hv6, hseat, hphy, -, husable⟩ := hroles
  rw [hseat, huplink, hv6, hphy, husable]
  exact seatHotspot_seat hr hp

/-! ## The uplink -/

/-- The default route the kernel uses is a live one it reported. -/
theorem Facts.bestDefault_ok {family : Nat} {r : DefaultRoute} (h : f.bestDefault family = some r) :
    r ∈ f.routes ∧ r.family = family ∧ r.linkDown = false ∧ r.dev ≠ "" := by
  suffices hall : ∀ r, f.bestDefault family = some r →
      r ∈ f.routes ∧ r.family = family ∧ r.linkDown = false ∧ r.dev ≠ "" from hall r h
  unfold Facts.bestDefault
  refine List.foldlRecOn f.routes _
    (motive := fun best => ∀ r, best = some r →
      r ∈ f.routes ∧ r.family = family ∧ r.linkDown = false ∧ r.dev ≠ "")
    (fun r h => by cases h) ?_
  intro best hbest r hr r' h
  split at h
  · exact hbest r' h
  · rename_i hlive
    simp only [not_or, Decidable.not_not, Bool.not_eq_true] at hlive
    have hself : r ∈ f.routes ∧ r.family = family ∧ r.linkDown = false ∧ r.dev ≠ "" :=
      ⟨hr, hlive.1, hlive.2.1, hlive.2.2⟩
    split at h
    · rw [← Option.some.inj h]
      exact hself
    · split at h
      · rw [← Option.some.inj h]
        exact hself
      · exact hbest r' h

theorem chooseUplink_ok {r : DefaultRoute} (h : chooseUplink f o = .ok r) :
    r ∈ f.routes ∧ r.dev ≠ "" := by
  unfold chooseUplink at h
  split at h
  · rename_i hover
    split at h
    · rename_i r' hfind
      rw [← Except.ok.inj h]
      have hdev := List.find?_some hfind
      simp only [Bool.and_eq_true, decide_eq_true_eq] at hdev
      exact ⟨List.mem_of_find?_eq_some hfind, by rw [hdev.1]; exact hover⟩
    · cases h
  · split at h
    · rename_i r' hbest
      rw [← Except.ok.inj h]
      obtain ⟨hmem, _, _, hdev⟩ := Facts.bestDefault_ok hbest
      exact ⟨hmem, hdev⟩
    · cases h

variable {servers : List Addr}

/-- Every role of a plan, read off the facts and the options it was made from. -/
theorem planNetwork_roles (h : planNetwork f servers o = .ok p) :
    ∃ route c, chooseUplink f (withDefaults o) = .ok route ∧
      pickRadio f route.dev (withDefaults o) = some c ∧
      p.seat = c.seat route.dev (withDefaults o) ∧ p.uplink = route.dev ∧
      p.uplinkV6Dev = (f.defaultV6.map (·.dev)).getD "" ∧
      p.hotspotPhy = c.phy.name ∧ p.usableChannel = c.phy.usableChannels := by
  obtain ⟨_, socks, route, q, hroute, hq, _, _, _, _, _, _, _, rfl, _⟩ := planNetwork_ok h
  obtain ⟨c, mode, hc, hq⟩ := chooseHotspot_picks hq
  have hplaced : (placeUplink (freshPlan f (withDefaults o) socks) f route).uplink = route.dev ∧
      (placeUplink (freshPlan f (withDefaults o) socks) f route).uplinkV6Dev =
        (f.defaultV6.map (·.dev)).getD "" ∧
      (placeUplink (freshPlan f (withDefaults o) socks) f route).seat = { hotspot := "" } := by
    unfold placeUplink
    split
    · rename_i v6 hv6
      simp [hv6, Plan.seat, freshPlan]
    · rename_i hv6
      simp [hv6, Plan.seat, freshPlan]
  obtain ⟨huplink, hv6, hunseated⟩ := hplaced
  have hseat := acceptHotspot_seat hq ⟨"", hunseated⟩
  simp only [huplink, hv6] at hseat hc
  exact ⟨route, c, hroute, hc, hseat⟩

/-! ## The channel -/

/-- The channel of an access point in a band that was asked for: its
neighbour's where the radio pins it, the lowest usable one of the band
otherwise. -/
def ApCandidate.bandChannel (c : ApCandidate) (uplink : String) (o : Options) : Int :=
  if (c.seat uplink o).pinned then c.station.channel
  else (c.phy.usableChannelsIn o.hotspotBand).headD 0

/-- The channel `chooseChannel` settles on: the lowest usable one of the band, or
with no band asked for the lowest of 2.4 GHz, or of all. -/
def Phy.pickChannel (phy : Phy) (band : RadioBand) : Int :=
  if band = .auto then
    (phy.usableChannelsIn .band2GHz).headD (phy.usableChannels.headD 0)
  else (phy.usableChannelsIn band).headD 0

/-- A radio that offers a channel in the band, if one was asked for. -/
def Phy.Offers (phy : Phy) (band : RadioBand) : Prop :=
  band ≠ .auto → phy.usableChannelsIn band ≠ []

/-- Where the channel of a hotspot on this radio comes from. -/
def ApCandidate.Tuned (c : ApCandidate) (o : Options) (q : Plan) : Prop :=
  if q.channelPinned then q.channel = c.station.channel
  else q.channel = c.phy.pickChannel o.hotspotBand ∧ c.phy.Offers o.hotspotBand

/-- A plan that knows the radio's channels and has picked none. -/
def Plan.Untuned (p : Plan) (phy : Phy) : Prop :=
  p.channelPinned = false ∧ p.channel = 0 ∧ p.usableChannel = phy.usableChannels

theorem chooseChannel_tuned (h : chooseChannel p c.phy o.hotspotBand = .ok q)
    (hp : p.Untuned c.phy) :
    c.Tuned o q := by
  obtain ⟨hpin, hch, husable⟩ := hp
  have hfree : ∀ ch, q = { p with channel := ch } → ch = c.phy.pickChannel o.hotspotBand →
      c.phy.Offers o.hotspotBand → c.Tuned o q := by
    rintro ch rfl hpick hoffers
    rw [ApCandidate.Tuned, if_neg (by simp [hpin])]
    exact ⟨hpick, hoffers⟩
  unfold chooseChannel at h
  split at h
  · rename_i hauto
    have hoffers : c.phy.Offers o.hotspotBand := fun hne => absurd hauto hne
    have hpick : c.phy.pickChannel o.hotspotBand =
        (c.phy.usableChannelsIn .band2GHz).headD (c.phy.usableChannels.headD 0) := by
      rw [Phy.pickChannel, if_pos hauto]
    split at h
    · rename_i hin
      refine hfree _ (Except.ok.inj h).symm ?_ hoffers
      rw [hpick, hin]
      rfl
    · rename_i hin
      rw [hin, List.headD_nil, ← husable] at hpick
      split at h
      · rename_i hall
        refine hfree _ (Except.ok.inj h).symm ?_ hoffers
        rw [hpick, hall]
        rfl
      · rename_i hall
        refine hfree 0 ?_ ?_ hoffers
        · rw [← Except.ok.inj h, ← hch]
        · rw [hpick, hall]
          rfl
  · rename_i hauto
    split at h
    · rename_i hin
      refine hfree _ (Except.ok.inj h).symm ?_ fun _ => by simp [hin]
      rw [Phy.pickChannel, if_neg hauto, hin]
      rfl
    · cases h

theorem shareChannel_tuned {combo : Combination} (h : shareChannel p c combo o = .ok q)
    (hp : p.Untuned c.phy) : c.Tuned o q := by
  unfold shareChannel at h
  split at h
  · simp only at h
    split at h
    · cases h
    · rw [← Except.ok.inj h]
      rfl
  · exact chooseChannel_tuned h hp

theorem besideStation_untuned (h : besideStation p c o = .ok q) (hp : p.Untuned c.phy) :
    q.Untuned c.phy := by
  unfold besideStation at h
  split at h
  · split at h
    · rw [← Except.ok.inj h]
      exact hp
    · cases h
  · obtain ⟨ap, _, h⟩ := Outcome.bind_ok h
    rw [← Except.ok.inj h]
    exact hp

theorem seatHotspot_tuned (h : seatHotspot p c o = .ok q) (hp : p.Untuned c.phy) : c.Tuned o q := by
  unfold seatHotspot at h
  split at h
  · unfold takeOver at h
    obtain ⟨_, h⟩ := Outcome.guard_ok h
    obtain ⟨r, hr, h⟩ := Outcome.bind_ok h
    have htuned := chooseChannel_tuned hr ⟨rfl, hp.2.1, hp.2.2⟩
    rw [← Except.ok.inj h]
    exact htuned
  · split at h
    · obtain ⟨r, hr, h⟩ := Outcome.bind_ok h
      split at h
      · cases h
      · exact shareChannel_tuned h (besideStation_untuned hr hp)
    · split at h
      · split at h
        · exact chooseChannel_tuned h hp
        · cases h
      · obtain ⟨ap, _, h⟩ := Outcome.bind_ok h
        exact chooseChannel_tuned h hp

/-- The channel of a plan, read off the radio that was picked. -/
theorem planNetwork_tuned (h : planNetwork f servers o = .ok p) {route : DefaultRoute}
    (hroute : chooseUplink f (withDefaults o) = .ok route)
    (hc : pickRadio f route.dev (withDefaults o) = some c) : c.Tuned (withDefaults o) p := by
  obtain ⟨_, socks, route', q, hr, hq, _, _, _, _, _, _, _, rfl, _⟩ := planNetwork_ok h
  obtain rfl : route' = route := Except.ok.inj (hr.symm.trans hroute)
  obtain ⟨c', mode, hc', hq⟩ := chooseHotspot_picks hq
  have hplaced : (placeUplink (freshPlan f (withDefaults o) socks) f route').uplink =
        route'.dev ∧
      (placeUplink (freshPlan f (withDefaults o) socks) f route').channelPinned = false ∧
      (placeUplink (freshPlan f (withDefaults o) socks) f route').channel = 0 := by
    unfold placeUplink
    split <;> exact ⟨rfl, rfl, rfl⟩
  obtain ⟨huplink, hpin, hch⟩ := hplaced
  rw [huplink] at hc'
  obtain rfl : c' = c := Option.some.inj (hc'.symm.trans hc)
  obtain ⟨r, hr, hq⟩ := Outcome.bind_ok hq
  have htuned := seatHotspot_tuned hr ⟨hpin, hch, rfl⟩
  have hroles : q.roles = r.roles := by
    rw [← Except.ok.inj hq]
    exact noteNoChannel_roles r c'
  have hchannel : q.channel = r.channel := congrArg Roles.channel hroles
  have hpinned : q.channelPinned = r.channelPinned := congrArg (fun x => x.seat.pinned) hroles
  show if q.channelPinned then q.channel = _ else q.channel = _ ∧ _
  rw [hchannel, hpinned]
  exact htuned

/-- The channel of a plan made for a band, read off the radio that was picked. -/
theorem planNetwork_bandChannel (h : planNetwork f servers o = .ok p)
    (hband : (withDefaults o).hotspotBand ≠ .auto) {route : DefaultRoute}
    (hroute : chooseUplink f (withDefaults o) = .ok route)
    (hc : pickRadio f route.dev (withDefaults o) = some c) :
    p.channel = c.bandChannel route.dev (withDefaults o) := by
  obtain ⟨route', c', hroute', hc', hseat, _⟩ := planNetwork_roles h
  obtain rfl : route' = route := Except.ok.inj (hroute'.symm.trans hroute)
  obtain rfl : c' = c := Option.some.inj (hc'.symm.trans hc)
  have hpinned : p.channelPinned = (c'.seat route'.dev (withDefaults o)).pinned :=
    congrArg Seat.pinned hseat
  have htuned := planNetwork_tuned h hroute hc
  rw [ApCandidate.bandChannel, ← hpinned]
  rw [ApCandidate.Tuned, Phy.pickChannel, if_neg hband] at htuned
  cases hpin : p.channelPinned with
  | true =>
    rw [hpin] at htuned
    exact htuned
  | false =>
    rw [hpin] at htuned
    exact htuned.1

end Caspian.Netcfg
