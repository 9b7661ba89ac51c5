import Caspian.Netcfg.Provenance

/-!
# Recovery of a killed run

A process killed while it applies a Linux plan leaves a machine and a journal;
`Recover` against that machine leaves an empty journal and the machine there
was before, unless the process was killed at a bad time (`Moment.Clear`) or the
machine refuses an inverse (`Plan.Yields`).
-/

namespace Caspian.Netcfg

open Verified Verified.UndoLog Netip

/-- The journal of a fresh start. -/
def Journal.empty : Journal := { records := [], seq := 0 }

/-- A machine with nothing applied yet. -/
def World.fresh (k : SimulatedKernel) : World SimulatedKernel where
  machine := k
  journal := Journal.empty

/-! ## Links -/

/-- A pair that leaves one link's way alone, in both directions. -/
def Pair.Calm (π : Pair) (name : String) : Prop :=
  π.run.Calm name ∧ ∀ u, π.undo = some u → u.Calm name

theorem Effect.calm_reject {c : Command} (h : validateCommand c ≠ none) (name : String) :
    (effect c).Calm name := by
  obtain ⟨msg, hmsg⟩ := Option.ne_none_iff_exists'.mp h
  unfold effect
  rw [hmsg]
  trivial

variable {s : Step} {π : Pair}

theorem Step.Is.calm {name : String} (hs : s.Is π) (h : π.Calm name) :
    (effect s.run).Calm name ∧ (s.undo.isZero = false → (effect s.undo).Calm name) := by
  refine ⟨?_, fun hz => ?_⟩
  · by_cases hv : validateCommand s.run = none
    · rw [hs.run_eq hv]
      exact h.1
    · exact Effect.calm_reject hv name
  · obtain ⟨u, hu⟩ := hs.undo_some hz
    by_cases hv : validateCommand s.undo = none
    · rw [hs.undo_eq u hu hv]
      exact h.2 u hu
    · exact Effect.calm_reject hv name

namespace Plan

variable {p : Plan} {current : Readings} {k : SimulatedKernel}

/-- Nothing a plan does while it takes over an interface gets in the way of
that interface's link. -/
theorem calm_of_takenOver (hshape : HotspotShape p) (ht : p.hotspotTakenOver = true) :
    ∀ π ∈ p.pairs current, π.Calm p.hotspot := by
  intro π hπ
  have horigin := p.pairs_origin current π hπ
  cases π with
  | create name type =>
    have hno := (hshape horigin.1).1
    rw [ht] at hno
    cases hno
  | up name => exact ⟨horigin, fun u hu => by cases hu⟩
  | down name =>
    refine ⟨trivial, fun u hu => ?_⟩
    obtain rfl := Option.some.inj hu
    exact horigin.2.2
  | releaseCreated name | knobOnly name value => exact ⟨trivial, fun u hu => by cases hu⟩
  | _ =>
    refine ⟨trivial, fun u hu => ?_⟩
    obtain rfl := Option.some.inj hu
    trivial

/-- A link is brought up only in taking back a take-over. -/
theorem takenOver_of_linkUp {name : String} (hs : s.Is π) (hπ : π ∈ p.pairs current)
    (hz : s.undo.isZero = false) (hlink : effect s.undo = .linkUp name) :
    p.hotspotTakenOver = true ∧ name = p.hotspot := by
  have horigin := p.pairs_origin current π hπ
  obtain ⟨u, hu⟩ := hs.undo_some hz
  have hv : validateCommand s.undo = none := by
    by_contra hv
    obtain ⟨msg, hmsg⟩ := Option.ne_none_iff_exists'.mp hv
    unfold effect at hlink
    rw [hmsg] at hlink
    cases hlink
  rw [hs.undo_eq u hu hv] at hlink
  subst hlink
  cases π with
  | down other =>
    obtain rfl := Effect.linkUp.inj (Option.some.inj hu)
    exact ⟨horigin.1, horigin.2.2⟩
  | _ => cases hu

/-! ## What the machine has to allow -/

/-- Nothing refuses an inverse of the plan: each is a valid command, no route is
over an interface named like a keyword of the route syntax, an interface to be
created is not named like a verb, and the driver of an interface to be taken
over lets it be retyped and brought up. -/
structure Yields (p : Plan) (current : Readings) (k : SimulatedKernel) : Prop where
  valid : ∀ s ∈ p.linuxSteps current, s.undo.isZero = false → validateCommand s.undo = none
  keyword : "table" ∉ p.routeDevices
  verb : p.hotspotIsVirtual = true → p.hotspot ∉ Pair.verbNames
  driver : p.hotspotTakenOver = true → k.refuseSetType = "" ∧ k.linkWall p.hotspot = none

theorem Yields.allowed (h : p.Yields current k) (hπ : π ∈ p.pairs current) :
    π.Allowed k.driver := by
  have horigin := p.pairs_origin current π hπ
  cases π with
  | create name type =>
    obtain ⟨hv, rfl⟩ := horigin
    exact h.verb hv
  | retype name type => exact (h.driver horigin.1).1
  | _ => trivial

theorem Yields.safe (h : p.Yields current k) (hk : p.Consistent current k)
    (hs : s ∈ p.linuxSteps current) (hπ : π ∈ p.pairs current) : s.Safe k.driver k.toCore π := by
  have horigin := p.pairs_origin current π hπ
  refine ⟨h.valid s hs, p.matched_of_origin current h.keyword hπ, h.allowed hπ, ?_⟩
  · cases π with
    | release name =>
      obtain ⟨hm, hh, rfl⟩ := horigin
      obtain ⟨i, hi, _⟩ := hk.managed hh hm
      exact mem_of_lookup hi
    | down name | retype name type =>
      obtain ⟨ht, hh, rfl⟩ := horigin
      obtain ⟨i, hi, _⟩ := hk.station hh ht
      exact mem_of_lookup hi
    | _ => trivial

end Plan

/-! ## The start of a run -/

theorem Tracks.fresh (k : SimulatedKernel) : Tracks k.driver k.toCore (World.fresh k) where
  driver := rfl
  ordered := Journal.ordered_empty
  undoable := ⟨nofun, nofun⟩
  faithful := Faithful.nil _
  created := fun _ hn hmem => absurd hmem hn

theorem Reversible.fresh (k : SimulatedKernel) :
    Reversible k.driver k.toCore (World.fresh k) where
  returns := rfl
  names := fun _ h => h

/-! ## The end of a run -/

theorem undo_isZero_of_passOne {es : List Entry} {e : Entry} (h : e ∈ passOne es) :
    e ∈ es ∧ e.undo.isZero = false := by
  rw [passOne, List.mem_filter, List.mem_reverse, Bool.and_eq_true] at h
  refine ⟨h.1, ?_⟩
  have hneeds := h.2.1
  unfold Entry.needsUndo at hneeds
  cases hphase : e.phase <;> simp_all

section Linux

variable {p : Plan} {current : Readings} {k : SimulatedKernel} (digest : String → String)

/-- Wherever a run of the plan is, the links its inverses bring up may come
up. -/
theorem openLinks_of_visits (hshape : HotspotShape p) (ht : p.tun ≠ "")
    (hwall : p.hotspotTakenOver = true → k.linkWall p.hotspot = none) :
    ∀ m ∈ applyVisits digest SimulatedKernel.run (p.linuxSteps current) (World.fresh k),
      OpenLinks (passOne m.world.journal.entries) m.world.machine := by
  intro m hm e he name hlink
  have hsource : ∀ s ∈ p.linuxSteps current, ∀ seq phase,
      ∃ q ∈ p.paired current, (s.entry seq phase).undo = q.1.undo := by
    intro s hs seq phase
    rw [← p.paired_fst current ht] at hs
    obtain ⟨q, hq, rfl⟩ := List.mem_map.mp hs
    exact ⟨q, hq, rfl⟩
  have hentries : ∀ e ∈ m.world.journal.entries, ∃ q ∈ p.paired current, e.undo = q.1.undo :=
    (loopVisits_entries digest SimulatedKernel.run
      (Q := fun e => ∃ q ∈ p.paired current, e.undo = q.1.undo) hsource
      (w := World.fresh k) Journal.ordered_empty nofun m hm).2
  obtain ⟨hmem, hz⟩ := undo_isZero_of_passOne he
  obtain ⟨q, hq, hundo⟩ := hentries e hmem
  obtain ⟨hs, hstep, hpair⟩ := p.mem_paired current ht hq
  rw [hundo] at hz hlink
  obtain ⟨htaken, rfl⟩ := Plan.takenOver_of_linkUp hs hpair hz hlink
  have hcalm : ∀ π ∈ p.pairs current, π.Calm p.hotspot :=
    Plan.calm_of_takenOver hshape htaken
  refine ⟨?_, ?_⟩
  · refine loopVisits_machine digest SimulatedKernel.run
      (P := fun k => k.linkWall p.hotspot = none) ?_ ?_ (w := World.fresh k) (hwall htaken) m hm
    · intro s hs' k' hk'
      rw [← p.paired_fst current ht] at hs'
      obtain ⟨q', hq', rfl⟩ := List.mem_map.mp hs'
      obtain ⟨his, _, hpair'⟩ := p.mem_paired current ht hq'
      rw [(k'.run_follows q'.1.run).wall _ (his.calm (hcalm _ hpair')).1]
      exact hk'
    · intro s hs' pre hpre k' hk'
      rw [← p.paired_fst current ht] at hs'
      obtain ⟨q', hq', rfl⟩ := List.mem_map.mp hs'
      obtain ⟨his, _, _⟩ := p.mem_paired current ht hq'
      have hdriver := (his.ask k').2
      have hsame : (k'.run pre.query).1.linkWall = k'.linkWall := by
        unfold queryPre at hdriver
        rw [hpre] at hdriver
        exact congrArg Driver.linkWall hdriver
      rw [hsame]
      exact hk'
  · intro e' he'
    obtain ⟨hmem', hz'⟩ := undo_isZero_of_passOne he'
    obtain ⟨q', hq', hundo'⟩ := hentries e' hmem'
    obtain ⟨his, _, hpair'⟩ := p.mem_paired current ht hq'
    rw [hundo'] at hz' ⊢
    exact (his.calm (hcalm _ hpair')).2 hz'

/-- **What `Recover` does when no inverse is refused**: the journal is empty and
the machine is where the inverses lead. -/
theorem recover_ok {m : SimulatedKernel} {rs : List Record} {c : Core}
    (hundo : Undoable (entriesOf rs)) (hopen : OpenLinks (passOne (entriesOf rs)) m)
    (hc : unwind (undoCore m.driver) (undosOf (entriesOf rs)) m.toCore = some c) :
    entriesOf (recover SimulatedKernel.run m rs).2.1 = [] ∧
      (recover SimulatedKernel.run m rs).1.toCore = c := by
  unfold recover
  cases hes : (entriesOf rs).isEmpty with
  | true =>
    have hnil : entriesOf rs = [] := List.isEmpty_iff.mp hes
    simp only [hes, if_true]
    refine ⟨hnil, ?_⟩
    rw [hnil] at hc
    exact Option.some.inj hc
  | false =>
    obtain ⟨hcore, hrem, _⟩ := replay_ok none hundo hopen hc
    simp only [hes, Bool.false_eq_true, if_false]
    refine ⟨?_, hcore⟩
    show entriesOf (rewriteJournal (replay SimulatedKernel.run (entriesOf rs) m none).remaining) = []
    rw [hrem]
    rfl

/-- What `Recover` does to a faithful journal whose inverses can be replayed. -/
theorem recover_of_tracks {c₀ : Core} {w : World SimulatedKernel}
    (ht : Tracks k.driver c₀ w) (hr : Reversible k.driver c₀ w)
    (hopen : OpenLinks (passOne w.journal.entries) w.machine) :
    entriesOf (recover SimulatedKernel.run w.machine w.journal.records).2.1 = [] ∧
      (recover SimulatedKernel.run w.machine w.journal.records).1.toCore = c₀ := by
  have hc := ht.faithful.returns hr.returns
  rw [← undoCore_congr ht.driver] at hc
  exact recover_ok ht.undoable hopen hc

/-- The steps of a plan on the machine it was made for. -/
theorem Plan.Consistent.pending (hshape : HotspotShape p) (ht : p.tun ≠ "")
    (hk : p.Consistent current k) (hy : p.Yields current k)
    (state : List (String × String)) :
    Pending digest state (fun s π => Fit k.toCore s π ∧ s.Safe k.driver k.toCore π)
      (p.paired current) k.toCore where
  fit q hq := by
    obtain ⟨his, hs, hπ⟩ := p.mem_paired current ht hq
    exact ⟨hk.fit hy.keyword his hπ, hy.safe hk hs hπ⟩
  apart := Plan.paired_apart hshape current ht
  ready q hq _ := hk.ready q.2 (p.mem_paired current ht hq).2.2

/-- **Recovery converges** from wherever the process is killed at a good time:
the journal is empty and the machine is what it was. -/
theorem recover_converges (hp : Planned p) (hlinux : p.OnLinux)
    (hk : p.Consistent current k) (hy : p.Yields current k) :
    ∀ m ∈ applyVisits digest SimulatedKernel.run (p.steps current) (World.fresh k), m.Clear →
      entriesOf (recover SimulatedKernel.run m.world.machine m.world.journal.records).2.1 = [] ∧
        (recover SimulatedKernel.run m.world.machine m.world.journal.records).1.snapshot =
          k.snapshot := by
  rw [Plan.steps_of_onLinux current hlinux]
  intro m hm hclear
  have hopen := openLinks_of_visits digest hp.shape hp.tun_ne (fun ht => (hy.driver ht).2) m hm
  have hall := Reversible.loop
    (hk.pending digest hp.shape hp.tun_ne hy (currentState digest []))
    (Tracks.fresh k) (Reversible.fresh k) m
  rw [p.paired_fst current hp.tun_ne] at hall
  obtain ⟨ht, hr⟩ := hall hm hclear
  obtain ⟨hentries, hcore⟩ := recover_of_tracks ht hr hopen
  refine ⟨hentries, ?_⟩
  show Core.snapshot _ = Core.snapshot _
  rw [hcore]

end Linux

/-! ## A machine with one radio -/

/-- A cable to the network at home, and the only radio joined to the same
network, which it has to leave for the hotspot. -/
def stationFacts : Facts where
  links :=
    [ { name := "eth0", prefixes := [.ofAddr (.v4 0xC0A8010A#32) 24] },
      { name := "wlan0", prefixes := [.ofAddr (.v4 0xC0A80132#32) 24] } ]
  routes := [{ family := 4, gateway := .v4 0xC0A80101#32, dev := "eth0", metric := 100 }]
  wireless :=
    [ { name := "wlan0", phy := "phy0", type := "managed", ssid := "home", channel := 6
        freqMHz := 2437, manager := .networkManager, associated := true
        linkKnown := true } ]
  phys :=
    [ { name := "phy0", modes := ["managed", "AP"]
        frequencies := [{ mhz := 2437, channel := 6 }] } ]
  networkManagerPresent := true

def stationServer : Addr := .v4 0xCB007107#32

/-- The plan for that machine, with the default options. -/
def stationPlan : Plan :=
  match planNetwork stationFacts [stationServer] {} with
  | .ok p => p
  | .error _ => {}

theorem stationPlan_planned : Planned stationPlan :=
  .network (rfl : planNetwork stationFacts [stationServer] {} = .ok stationPlan)

/-- That machine before anything is applied. -/
def stationKernel : SimulatedKernel where
  addrs := {("eth0", "192.168.1.10/24"), ("wlan0", "192.168.1.50/24")}
  sysctl := [⟨knobIPForward, "0"⟩, ⟨knobRPFilterAll, "1"⟩, ⟨knobRPFilterDefault, "1"⟩,
    ⟨knobIPv6Forwarding, "0"⟩].toFinmap
  ifaces := [⟨"eth0", { type := "" }⟩, ⟨"wlan0", { type := "managed" }⟩].toFinmap

/-- The values of all knobs, read now. -/
def SimulatedKernel.readings (k : SimulatedKernel) : Readings := fun knob => k.sysctl.lookup knob

theorem stationKernel_consistent :
    stationPlan.Consistent stationKernel.readings stationKernel where
  measured := by
    intro knob hknob
    simp only [baseSysctlKnobs, List.mem_cons, List.not_mem_nil, or_false] at hknob
    rcases hknob with rfl | rfl | rfl | rfl
    · exact ⟨"0", by decide, by decide⟩
    · exact ⟨"1", by decide, by decide⟩
    · exact ⟨"1", by decide, by decide⟩
    · exact ⟨"0", by decide, by decide⟩
  absent := by decide
  managed _ _ := ⟨{ type := "managed" }, by decide, rfl⟩
  station _ _ := ⟨{ type := "managed" }, by decide, rfl⟩

theorem stationKernel_yields : stationPlan.Yields stationKernel.readings stationKernel where
  valid := by decide
  keyword := by decide
  verb := by decide
  driver := by decide

/-- The points at which applying that plan to that machine can be killed. -/
def stationVisits : List (Moment SimulatedKernel) :=
  applyVisits id SimulatedKernel.run (stationPlan.steps stationKernel.readings)
    (World.fresh stationKernel)

/-- The phase and the command of the last record in the journal. -/
def World.lastRecord (w : World SimulatedKernel) : Option (Phase × String) :=
  w.journal.records.getLast?.map fun r => (r.phase, commandLine r.run)

/-- Killed before the station address was recorded as taken off, but after it
was taken off: recovery converges. -/
theorem recover_converges_after_strip :
    ∃ m ∈ stationVisits,
      (m.Clear ∧ m.world.lastRecord = some (.begin, "ip address del 192.168.1.50/24 dev wlan0")) ∧
        entriesOf (recover SimulatedKernel.run m.world.machine m.world.journal.records).2.1 =
          [] ∧
        (recover SimulatedKernel.run m.world.machine m.world.journal.records).1.snapshot =
          stationKernel.snapshot := by
  have hex : ∃ m ∈ stationVisits, m.Clear ∧ m.world.lastRecord =
      some (.begin, "ip address del 192.168.1.50/24 dev wlan0") := by
    decide
  obtain ⟨m, hm, hclear, hlast⟩ := hex
  exact ⟨m, hm, ⟨hclear, hlast⟩,
    recover_converges id stationPlan_planned (Or.inl rfl) stationKernel_consistent
      stationKernel_yields m hm hclear⟩

/-- Killed before the station address was taken off: its inverse is refused
because the address is there, and the entry stays with the firewall's. -/
theorem recover_stuck_before_strip :
    (Planned stationPlan ∧ stationPlan.OnLinux ∧
        stationPlan.Consistent stationKernel.readings stationKernel ∧
        ∀ pfx, ("wlan0", pfx) ∈ stationKernel.addrs ↔
          pfx ∈ stationPlan.hotspotStationPrefixes.map Prefix.text) ∧
      ∃ m ∈ stationVisits,
        m.world.lastRecord = some (.begin, "ip address del 192.168.1.50/24 dev wlan0") ∧
          (entriesOf (recover SimulatedKernel.run m.world.machine
            m.world.journal.records).2.1).map Entry.op = [opNft, opAddr] := by
  refine ⟨⟨stationPlan_planned, Or.inl rfl, stationKernel_consistent, ?_⟩, by decide⟩
  intro pfx
  have hprefixes : stationPlan.hotspotStationPrefixes.map Prefix.text = ["192.168.1.50/24"] := by
    decide
  rw [hprefixes]
  simp [stationKernel]

end Caspian.Netcfg
