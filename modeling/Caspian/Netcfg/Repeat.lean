import Caspian.Netcfg.Recovery

/-!
# Applying again and tearing down

The same plan may be applied any number of times before it is torn down.  Each
time the knobs are read again, so the inverses of the knobs are derived from a
machine the plan has already changed; a change the journal has as in force is
skipped.  What makes this come out right is `Held`: a value that is no longer
what it was belongs to a command the journal has in force.
-/

namespace Caspian.Netcfg

open Verified

/-! ## Commands in force -/

section InForce

variable {digest : String → String} {es : List Entry} {e : Entry} {c : Command}

/-- One entry's part in the state. -/
def stateAfter (digest : String → String) (state : List (String × String)) (e : Entry) :
    List (String × String) :=
  if e.run.isZero then state
  else
    match e.phase with
    | .done =>
      (commandLine e.run, runnerKey digest e.run) ::
        state.filter fun kv => kv.1 ≠ commandLine e.run
    | .undone => state.filter fun kv => kv.1 ≠ commandLine e.run
    | _ => state

theorem currentState_append :
    currentState digest (es ++ [e]) = stateAfter digest (currentState digest es) e := by
  unfold currentState
  rw [List.foldl_append]
  rfl

theorem lookup_filter_ne {state : List (String × String)} {key other : String}
    (h : key ≠ other) :
    (state.filter fun kv => kv.1 ≠ other).lookup key = state.lookup key := by
  induction state with
  | nil => rfl
  | cons kv state ih =>
    obtain ⟨k, v⟩ := kv
    by_cases hk : k = other
    · have hne : (key == k) = false := beq_eq_false_iff_ne.mpr fun he => h (he.trans hk)
      rw [List.filter_cons_of_neg (by simpa using hk), ih, List.lookup_cons, hne]
    · rw [List.filter_cons_of_pos (by simpa using hk), List.lookup_cons, List.lookup_cons, ih]

/-- A command stays in force when an entry is added that is not about it, or is
about it and in the same form. -/
theorem inForce_append (h : inForce digest (currentState digest es) c = true)
    (hphase : e.phase ≠ .undone)
    (hsame : commandLine e.run = commandLine c → runnerKey digest e.run = runnerKey digest c) :
    inForce digest (currentState digest (es ++ [e])) c = true := by
  rw [currentState_append]
  unfold stateAfter
  split
  · exact h
  · split
    · unfold inForce at h ⊢
      rw [decide_eq_true_eq] at h ⊢
      rw [List.lookup_cons]
      by_cases hl : commandLine c = commandLine e.run
      · simp [hl, hsame hl.symm]
      · simp only [beq_eq_false_iff_ne.mpr hl]
        rw [lookup_filter_ne hl]
        exact h
    next hundone => exact absurd hundone hphase
    · exact h

/-- A command that was done is in force. -/
theorem inForce_done (hz : e.run.isZero = false) (hdone : e.phase = .done) :
    inForce digest (currentState digest (es ++ [e])) e.run = true := by
  rw [currentState_append]
  simp [stateAfter, hz, hdone, inForce]

end InForce

/-! ## What is held by the journal -/

/-- Every step either finds the value it puts back, or is in force. -/
def Held (digest : String → String) (qs : List (Step × Pair)) (w : World SimulatedKernel) :
    Prop :=
  ∀ q ∈ qs, inForce digest (currentState digest w.journal.entries) q.1.run = true ∨
    q.2.Ready w.machine.toCore

section Held

variable {digest : String → String} {qs : List (Step × Pair)} {w : World SimulatedKernel}

theorem Held.ask {s : Step} {π : Pair} (h : Held digest qs w) (hs : s.Is π) :
    Held digest qs { w with machine := (queryPre SimulatedKernel.run s w.machine).1 } := by
  intro q hq
  rw [(hs.ask w.machine).1]
  exact h q hq

/-- Two steps with one command line are the same command, unless one of them is
the firewall. -/
theorem Step.Is.key_of_line {s s' : Step} {π π' : Pair} (hs : s.Is π) (hs' : s'.Is π')
    (hπ' : π' ≠ .firewall) (hline : commandLine s.run = commandLine s'.run) :
    runnerKey digest s.run = runnerKey digest s'.run := by
  obtain ⟨hin', hne'⟩ := hs'.line.resolve_left fun h => hπ' h.1
  rcases hs.line with ⟨_, hnft⟩ | ⟨hin, _⟩
  · exact absurd (hline.symm.trans hnft) hne'
  · unfold runnerKey
    rw [if_pos hin, if_pos hin', hline]

/-- **A step keeps what the journal holds.** -/
theorem Held.runStep {s : Step} {π : Pair} (h : Held digest qs w) (hj : w.journal.Ordered)
    (hs : s.Is π) (hqs : ∀ q ∈ qs, q.1.Is q.2)
    (hapart : ∀ q ∈ qs, q = (s, π) ∨ π.Apart q.2) :
    Held digest qs (runStep SimulatedKernel.run s w).world := by
  intro q hq
  by_cases hnone : q.2.restores = none
  · exact Or.inr (Pair.ready_of_restores hnone _)
  have hfire : q.2 ≠ .firewall := fun h => hnone (by rw [h]; rfl)
  rw [entries_runStep SimulatedKernel.run hs.run_isZero hj]
  have hcore : (Netcfg.runStep SimulatedKernel.run s w).world.machine.toCore =
      ((effect s.run).on w.machine.driver w.machine.toCore).1 :=
    (w.machine.run_follows s.run).core
  rw [hcore]
  rcases h q hq with hforce | hready
  · left
    refine inForce_append hforce ?_ fun hline => hs.key_of_line (hqs q hq) hfire hline
    cases verdict s.run (w.machine.run s.run).2 <;> simp [Step.entry, Verdict.phase]
  · rcases hapart q hq with rfl | hapart
    · cases hv : verdict s.run (w.machine.run s.run).2 with
      | done => exact Or.inl (inForce_done hs.run_isZero rfl)
      | _ =>
        right
        have hsome : (w.machine.run s.run).2.2.isSome = true := by
          cases herr : (w.machine.run s.run).2.2 with
          | some msg => rfl
          | none => simp [verdict, herr] at hv
        rw [hs.reply_run] at hsome
        rw [Effect.on_failed _ _ _ hsome]
        exact hready
    · exact Or.inr (hs.ready_kept hready hapart.1)

end Held

/-! ## The plan applied again -/

theorem Effect.sysctl_isSome (d : Driver) (e : Effect) (c : Core) {knob : String}
    (h : (c.sysctl.lookup knob).isSome = true) :
    ((e.on d c).1.sysctl.lookup knob).isSome = true := by
  cases e with
  | setKnob other value =>
    simp only [Effect.on]
    by_cases hk : knob = other
    · subst hk
      simp
    · rw [Finmap.lookup_insert_of_ne _ hk]
      exact h
  | _ =>
    simp only [Effect.on]
    try (repeat' split) <;> exact h

namespace Plan

variable (p : Plan)

/-- The steps that are the same whatever was read, after the firewall. -/
def fixedSteps : List Step :=
  p.virtualIfaceSteps ++ p.hotspotReleaseSteps ++ p.hotspotAddrSteps ++ p.serverRouteSteps ++
    (p.tunnelAddrSteps ++ p.tunnelRouteSteps)

/-- With their pairs. -/
def fixed : List (Step × Pair) := p.fixedSteps.zip p.fixedPairs

theorem paired_eq (current : Readings) :
    p.paired current =
      (p.firewallStep :: p.sysctlSteps current).zip (.firewall :: p.knobPairs current) ++
        p.fixed := by
  have hsteps : p.linuxSteps current =
      (p.firewallStep :: p.sysctlSteps current) ++ p.fixedSteps := by
    simp only [linuxSteps, linuxPreEngineSteps, linuxPostEngineSteps, fixedSteps,
      List.append_assoc, List.cons_append, List.nil_append]
  rw [paired, hsteps, pairs_eq, List.zip_append (by rfl), fixed]

theorem mem_paired_of_fixed (current : Readings) {q : Step × Pair} (hq : q ∈ p.fixed) :
    q ∈ p.paired current := by
  rw [paired_eq]
  exact List.mem_append_right _ hq

/-- The pair of a knob, on the machine the knobs were read from. -/
theorem knobPairs_ready (k : SimulatedKernel) :
    ∀ π ∈ .firewall :: p.knobPairs k.readings, π.Ready k.toCore := by
  intro π hπ
  rcases List.mem_cons.mp hπ with rfl | hπ
  · trivial
  · obtain ⟨knob, value, rfl⟩ := knobPairs_form p k.readings π hπ
    unfold knobPair
    split
    next prev hprev => exact hprev
    · trivial

/-- Apply the plan so many times, the knobs read again each time. -/
def applyTimes (digest : String → String) : Nat → World SimulatedKernel → World SimulatedKernel
  | 0, w => w
  | n + 1, w =>
    applyTimes digest n
      (apply digest SimulatedKernel.run (p.steps w.machine.readings) w).1

/-- What holds between two applications. -/
structure Standing (digest : String → String) (k : SimulatedKernel)
    (w : World SimulatedKernel) : Prop where
  tracks : Tracks k.driver k.toCore w
  held : Held digest p.fixed w
  measured : ∀ knob ∈ baseSysctlKnobs, (w.machine.sysctl.lookup knob).isSome = true

variable {p} {digest : String → String} {k : SimulatedKernel} {w : World SimulatedKernel}

theorem Standing.fresh (hk : p.Consistent k.readings k) (ht : p.tun ≠ "") :
    p.Standing digest k (World.fresh k) where
  tracks := Tracks.fresh k
  held q hq :=
    Or.inr (hk.ready q.2 (p.mem_paired _ ht (p.mem_paired_of_fixed _ hq)).2.2)
  measured knob hknob := by
    obtain ⟨v, _, hv⟩ := hk.measured knob hknob
    rw [show (World.fresh k).machine = k from rfl, hv]
    rfl

/-- Every step is ready when the plan is applied again. -/
theorem Standing.pending (h : p.Standing digest k w) (hk : p.Consistent k.readings k)
    (hshape : HotspotShape p) (ht : p.tun ≠ "") (htable : "table" ∉ p.routeDevices) :
    Pending digest (currentState digest w.journal.entries)
      (fun s π => Fit k.toCore s π ∧ (s, π) ∈ p.paired w.machine.readings)
      (p.paired w.machine.readings) w.machine.toCore where
  fit q hq := by
    obtain ⟨his, _, hπ⟩ := p.mem_paired _ ht hq
    have horigin := p.pairs_origin _ q.2 hπ
    refine ⟨⟨his, ?_, ?_, ?_⟩, hq⟩
    · revert horigin
      cases q.2 with
      | route table pfx table' => exact fun horigin => horigin htable
      | _ => exact fun _ => trivial
    · intro name value heq
      rw [heq] at horigin
      have hsome := h.measured name horigin.1
      rw [show w.machine.sysctl.lookup name = none from horigin.2] at hsome
      cases hsome
    · intro name heq
      rw [heq] at horigin
      obtain ⟨hv, rfl⟩ := horigin
      exact hk.absent hv
  apart := paired_apart hshape _ ht
  ready q hq hforce := by
    rw [paired_eq] at hq
    rcases List.mem_append.mp hq with hq | hq
    · exact p.knobPairs_ready w.machine q.2 (List.of_mem_zip hq).2
    · refine (h.held q hq).resolve_left ?_
      rw [hforce]
      simp

/-- **Applying the plan again keeps it standing.** -/
theorem Standing.apply (h : p.Standing digest k w) (hk : p.Consistent k.readings k)
    (hshape : HotspotShape p) (ht : p.tun ≠ "") (htable : "table" ∉ p.routeDevices)
    (hlinux : p.OnLinux) :
    p.Standing digest k
      (apply digest SimulatedKernel.run (p.steps w.machine.readings) w).1 := by
  have hpending := h.pending hk hshape ht htable
  rw [steps_of_onLinux _ hlinux]
  have hall := loop_forall
    (P := fun w => Tracks k.driver k.toCore w ∧ Held digest p.fixed w)
    (J := fun m => m.stage = .quiet → Tracks k.driver k.toCore m.world ∧ Held digest p.fixed m.world)
    (fun s π hF => (hF.1 : Fit k.toCore s π)) (fun _ hP _ => hP) ?_ ?_ ?_ hpending
    ⟨h.tracks, h.held⟩
  · rw [p.paired_fst _ ht] at hall
    have hend := apply_of_visits digest SimulatedKernel.run
      (J := fun m => m.stage = .quiet →
        Tracks k.driver k.toCore m.world ∧ Held digest p.fixed m.world) hall rfl
    refine ⟨hend.1, hend.2, ?_⟩
    refine apply_of_visits digest SimulatedKernel.run
      (J := fun m => ∀ knob ∈ baseSysctlKnobs,
        (m.world.machine.sysctl.lookup knob).isSome = true)
      (loopVisits_machine digest SimulatedKernel.run
        (P := fun k' => ∀ knob ∈ baseSysctlKnobs, (k'.sysctl.lookup knob).isSome = true)
        ?_ ?_ h.measured)
    · intro s _ k' hk' knob hknob
      show ((k'.run s.run).1.toCore.sysctl.lookup knob).isSome = true
      rw [(k'.run_follows s.run).core]
      exact Effect.sysctl_isSome _ _ _ (hk' knob hknob)
    · intro s _ q _ k' hk' knob hknob
      show ((k'.run q.query).1.toCore.sysctl.lookup knob).isSome = true
      rw [(k'.run_follows q.query).core]
      exact Effect.sysctl_isSome _ _ _ (hk' knob hknob)
  · rintro s π w' ⟨hfit, _⟩ ⟨htracks, hheld⟩
    exact ⟨htracks.ask hfit.is, hheld.ask hfit.is⟩
  · intro s π w' _ _ _ m hm hquiet
    simp only [runStepVisits, List.mem_cons, List.not_mem_nil, or_false] at hm
    rcases hm with rfl | rfl <;> cases hquiet
  · rintro s π w' ⟨hfit, hmem⟩ hprep _ ⟨htracks, hheld⟩
    refine ⟨htracks.runStep hfit.is hprep, hheld.runStep htracks.ordered hfit.is ?_ ?_⟩
    · intro q hq
      exact (p.mem_paired _ ht (p.mem_paired_of_fixed w.machine.readings hq)).1
    · intro q hq
      by_cases heq : q = (s, π)
      · exact Or.inl heq
      · have hsymm : Std.Symm fun q q' : Step × Pair => q.2.Apart q'.2 :=
          ⟨fun _ _ hap => hap.symm⟩
        exact Or.inr ((paired_apart hshape w.machine.readings ht).forall hmem
          (p.mem_paired_of_fixed _ hq) (Ne.symm heq))

theorem Standing.times (hk : p.Consistent k.readings k) (hshape : HotspotShape p)
    (ht : p.tun ≠ "") (htable : "table" ∉ p.routeDevices) (hlinux : p.OnLinux) (n : Nat)
    (h : p.Standing digest k w) : p.Standing digest k (p.applyTimes digest n w) := by
  induction n generalizing w with
  | zero => exact h
  | succ n ih => exact ih (h.apply hk hshape ht htable hlinux)

end Plan

/-- **Applying any number of times and tearing down is the identity**, when no
inverse is refused and no route is over an interface named like a keyword. -/
theorem teardown_restores {p : Plan} {k : SimulatedKernel} (digest : String → String)
    (hp : Planned p) (hlinux : p.OnLinux) (hk : p.Consistent k.readings k)
    (htable : "table" ∉ p.routeDevices) (n : Nat)
    (hrefused : (teardown SimulatedKernel.run
      (p.applyTimes digest n (World.fresh k))).2.2.failed = 0) :
    (teardown SimulatedKernel.run (p.applyTimes digest n (World.fresh k))).1.snapshot =
      k.snapshot := by
  have hstanding : p.Standing digest k (p.applyTimes digest n (World.fresh k)) :=
    .times hk hp.shape hp.tun_ne htable hlinux n (.fresh hk hp.tun_ne)
  have htracks := hstanding.tracks
  have hunwind := unwind_of_replay htracks.undoable hrefused
  rw [undoCore_congr htracks.driver] at hunwind
  show Core.snapshot _ = Core.snapshot _
  rw [← htracks.faithful _ hunwind]
  rfl

/-- The machine with one radio, applied to twice. -/
theorem teardown_restores_station :
    (teardown SimulatedKernel.run
        (stationPlan.applyTimes (fun _ => "") 2 (World.fresh stationKernel))).2.2.failed = 0 ∧
      (teardown SimulatedKernel.run
        (stationPlan.applyTimes (fun _ => "") 2 (World.fresh stationKernel))).1.snapshot =
          stationKernel.snapshot := by
  have hrefused : (teardown SimulatedKernel.run
      (stationPlan.applyTimes (fun _ => "") 2 (World.fresh stationKernel))).2.2.failed = 0 := by
    decide +kernel
  exact ⟨hrefused, teardown_restores (fun _ => "") stationPlan_planned (Or.inl rfl)
    stationKernel_consistent stationKernel_yields.keyword 2 hrefused⟩

/-! ## An interface named like a keyword -/

/-- A cable, and an idle radio whose interface is named `table`. -/
def keywordFacts : Facts where
  links := [{ name := "eth0", prefixes := [.ofAddr (.v4 0xC0A8010A#32) 24] }]
  routes := [{ family := 4, gateway := .v4 0xC0A80101#32, dev := "eth0", metric := 100 }]
  wireless := [{ name := "table", phy := "phy0", type := "managed", manager := .nothing
                 linkKnown := true }]
  phys :=
    [ { name := "phy0", modes := ["managed", "AP"]
        frequencies := [{ mhz := 2437, channel := 6 }] } ]

def keywordPlan : Plan :=
  match planNetwork keywordFacts [stationServer] {} with
  | .ok p => p
  | .error _ => {}

def keywordKernel : SimulatedKernel where
  addrs := {("eth0", "192.168.1.10/24")}
  sysctl := [⟨knobIPForward, "0"⟩, ⟨knobRPFilterAll, "1"⟩, ⟨knobRPFilterDefault, "1"⟩,
    ⟨knobIPv6Forwarding, "0"⟩].toFinmap
  ifaces := [⟨"eth0", { type := "" }⟩, ⟨"table", { type := "managed" }⟩,
    ⟨"xray0", { type := "" }⟩].toFinmap

/-- The route of the hotspot's subnet is added to one table and deleted from
another, which counts as nothing to delete. -/
theorem teardown_leaves_route :
    (Planned keywordPlan ∧ keywordPlan.OnLinux ∧
        keywordPlan.Consistent keywordKernel.readings keywordKernel) ∧
      (teardown SimulatedKernel.run
        (keywordPlan.applyTimes (fun _ => "") 1 (World.fresh keywordKernel))).2.2.failed = 0 ∧
      (teardown SimulatedKernel.run
        (keywordPlan.applyTimes (fun _ => "") 1 (World.fresh keywordKernel))).1.snapshot ≠
          keywordKernel.snapshot := by
  refine ⟨⟨.network (rfl : planNetwork keywordFacts [stationServer] {} = .ok keywordPlan), Or.inl rfl,
    ?_, by decide +kernel, by decide +kernel, by decide +kernel⟩, by decide +kernel, ?_⟩
  · intro knob hknob
    simp only [baseSysctlKnobs, List.mem_cons, List.not_mem_nil, or_false] at hknob
    rcases hknob with rfl | rfl | rfl | rfl
    · exact ⟨"0", by decide, by decide⟩
    · exact ⟨"1", by decide, by decide⟩
    · exact ⟨"1", by decide, by decide⟩
    · exact ⟨"0", by decide, by decide⟩
  · intro heq
    have hline : "route scope 10.83.51.0/24" ∈ (teardown SimulatedKernel.run
        (keywordPlan.applyTimes (fun _ => "") 1 (World.fresh keywordKernel))).1.snapshot :=
      (Multiset.mem_sort _).mpr (by decide +kernel)
    rw [heq] at hline
    exact absurd ((Multiset.mem_sort _).mp hline) (by decide)

end Caspian.Netcfg
