import Caspian.Netcfg.Unwind

/-!
# Replay on the simulated kernel

`replay` against the kernel unwinds the inverses of the journal: the core ends
where `unwind` ends, and nothing remains exactly when nothing was refused.  The
firewall is undone in a second pass, which no snapshot shows.
-/

namespace Caspian.Netcfg

open Verified Verified.UndoLog

/-! ## One inverse -/

/-- An inverse that is not refused is crossed off; one that is refused leaves
the core alone, is counted, and remains. -/
theorem undoOne_spec (e : Entry) (r : Replay SimulatedKernel) (hq : effect e.undo ≠ .query) :
    (undoOne SimulatedKernel.run e r).machine = (r.machine.run e.undo).1 ∧
      match undoAt r.machine.driver e.undo r.machine.toCore with
      | some c =>
        (undoOne SimulatedKernel.run e r).machine.toCore = c ∧
          (undoOne SimulatedKernel.run e r).remaining = r.remaining ∧
          (undoOne SimulatedKernel.run e r).report.failed = r.report.failed
      | none =>
        (undoOne SimulatedKernel.run e r).machine.toCore = r.machine.toCore ∧
          (undoOne SimulatedKernel.run e r).remaining = r.remaining ++ [e] ∧
          (undoOne SimulatedKernel.run e r).report.failed = r.report.failed + 1 := by
  have hfollows := r.machine.run_follows e.undo
  have hreply := hfollows.reply hq
  have hcore := hfollows.core
  unfold undoOne undoAt
  simp only [← hreply]
  cases hgone : alreadyGone e.undo (r.machine.run e.undo).2 with
  | true => simpa [Report.add] using hcore
  | false =>
    cases herr : (r.machine.run e.undo).2.2 with
    | none => simpa [Report.add] using hcore
    | some msg =>
      have hfail : ((effect e.undo).on r.machine.driver r.machine.toCore).2.2.isSome
          = true := by
        rw [← hreply, herr]
        rfl
      have hstill := Effect.on_failed _ _ _ hfail
      simp only [Bool.false_eq_true, if_false, Option.isSome_some, if_true, Report.add,
        true_and, and_true]
      rw [hcore, hstill]

/-- What an inverse leaves of the driver. -/
theorem undoOne_driver (e : Entry) (r : Replay SimulatedKernel) (hq : effect e.undo ≠ .query) :
    (undoOne SimulatedKernel.run e r).machine.driver.unwalled =
      r.machine.driver.unwalled := by
  rw [(undoOne_spec e r hq).1]
  exact (r.machine.run_follows e.undo).driver

/-! ## A pass -/

/-- The replay after a pass over entries, newest first. -/
def undoAll (es : List Entry) (r : Replay SimulatedKernel) : Replay SimulatedKernel :=
  es.foldl (fun r e => undoOne SimulatedKernel.run e r) r

/-- No inverse is a question. -/
def NoQuery (es : List Entry) : Prop := ∀ e ∈ es, effect e.undo ≠ .query

/-- Every link an inverse brings up may come up, and no inverse gets in its
way. -/
def OpenLinks (es : List Entry) (k : SimulatedKernel) : Prop :=
  ∀ e ∈ es, ∀ name, effect e.undo = .linkUp name →
    k.linkWall name = none ∧ ∀ e' ∈ es, (effect e'.undo).Calm name

variable {es : List Entry} {r : Replay SimulatedKernel}

/-- **A pass in which nothing is refused unwinds the entries.** -/
theorem undoAll_ok {c : Core} (hq : NoQuery es) (hopen : OpenLinks es r.machine)
    (h : unwind (fun e : Entry => undoCore r.machine.driver e.undo) es r.machine.toCore = some c) :
    (undoAll es r).machine.toCore = c ∧ (undoAll es r).remaining = r.remaining ∧
      (undoAll es r).report.failed = r.report.failed ∧
      (undoAll es r).machine.driver.unwalled = r.machine.driver.unwalled := by
  induction es generalizing r with
  | nil => exact ⟨Option.some.inj h, rfl, rfl, rfl⟩
  | cons e es ih =>
    have hqe := hq e (by simp)
    have hwall : ∀ name, effect e.undo = .linkUp name →
        r.machine.driver.linkWall name = none := fun name hn => (hopen e (by simp) name hn).1
    rw [unwind_cons] at h
    cases hu : undoCore r.machine.driver e.undo r.machine.toCore with
    | none => rw [hu] at h; cases h
    | some c₁ =>
      rw [hu] at h
      obtain ⟨hmachine, hspec⟩ := undoOne_spec e r hqe
      rw [undoAt_eq hwall, hu] at hspec
      obtain ⟨hcore, hrem, hfail⟩ := hspec
      have hdriver := undoOne_driver e r hqe
      have hopen' : OpenLinks es (undoOne SimulatedKernel.run e r).machine := by
        intro e' he' name hn
        obtain ⟨hw, hcalm⟩ := hopen e' (by simp [he']) name hn
        refine ⟨?_, fun e'' he'' => hcalm e'' (by simp [he''])⟩
        rw [hmachine, (r.machine.run_follows e.undo).wall name (hcalm e (by simp)), hw]
      have hrest := ih (r := undoOne SimulatedKernel.run e r)
        (fun e' he' => hq e' (by simp [he'])) hopen'
        (by rw [undoCore_congr hdriver, hcore]; exact h)
      obtain ⟨h1, h2, h3, h4⟩ := hrest
      exact ⟨h1, h2.trans hrem, h3.trans hfail, h4.trans hdriver⟩

theorem failed_le_undoAll (es : List Entry) (r : Replay SimulatedKernel) (hq : NoQuery es) :
    r.report.failed ≤ (undoAll es r).report.failed := by
  induction es generalizing r with
  | nil => exact le_refl _
  | cons e es ih =>
    have hrest := ih (undoOne SimulatedKernel.run e r) fun e' he' => hq e' (by simp [he'])
    obtain ⟨_, hspec⟩ := undoOne_spec e r (hq e (by simp))
    refine le_trans ?_ hrest
    split at hspec
    · exact hspec.2.2.ge
    · rw [hspec.2.2]
      omega

/-- **A pass in which nothing failed unwound the entries.** -/
theorem unwind_of_undoAll (hq : NoQuery es) (h : (undoAll es r).report.failed = r.report.failed) :
    unwind (fun e : Entry => undoCore r.machine.driver e.undo) es r.machine.toCore =
      some (undoAll es r).machine.toCore := by
  induction es generalizing r with
  | nil => rfl
  | cons e es ih =>
    have hqe := hq e (by simp)
    have hqs : NoQuery es := fun e' he' => hq e' (by simp [he'])
    have hle := failed_le_undoAll es (undoOne SimulatedKernel.run e r) hqs
    have hall : (undoAll es (undoOne SimulatedKernel.run e r)).report.failed =
      r.report.failed := h
    obtain ⟨_, hspec⟩ := undoOne_spec e r hqe
    rw [unwind_cons]
    split at hspec
    next c₁ hu =>
      obtain ⟨hcore, _, hfail⟩ := hspec
      rw [undoCore_of_undoAt hu, ← hcore, ← undoCore_congr (undoOne_driver e r hqe)]
      exact ih hqs (hall.trans hfail.symm)
    next hu =>
      have := hspec.2.2
      omega

/-! ## Both passes -/

/-- The inverses of the firewall load rules, and none of the others is a
question. -/
structure Undoable (es : List Entry) : Prop where
  noQuery : NoQuery (liveOf es)
  firewall : ∀ e ∈ liveOf es, e.op = opNft → effect e.undo = .loadRules

theorem passOne_eq (es : List Entry) :
    passOne es = (liveOf es).filter fun e => e.op ≠ opNft := by
  simp [passOne, liveOf, List.filter_filter, Bool.and_comm]

theorem passTwo_eq (es : List Entry) :
    passTwo es = (liveOf es).filter fun e => e.op = opNft := by
  simp [passTwo, liveOf, List.filter_filter, Bool.and_comm]

theorem undoCore_loadRules {d : Driver} {u : Command} (h : effect u = .loadRules) (c : Core) :
    undoCore d u c = some c := by
  simp [undoCore, undoAt, h, Effect.on, alreadyGone, simOK]

/-- Leaving the firewall to the second pass makes no difference to the core. -/
theorem unwind_passOne (h : Undoable es) (d : Driver) (c : Core) :
    unwind (fun e : Entry => undoCore d e.undo) (passOne es) c =
      unwind (undoCore d) (undosOf es) c := by
  rw [undosOf, unwind_map, passOne_eq]
  refine unwind_filter _ (fun e he hop s => undoCore_loadRules (h.firewall e he ?_) s) c
  simpa using hop

/-- The second pass, when nothing failed in the first. -/
theorem passTwo_ok (h : ∀ e ∈ es, effect e.undo = .loadRules) (hfail : r.report.failed = 0) :
    (es.foldl (fun r e => undoFirewall SimulatedKernel.run e r) r).machine.toCore =
        r.machine.toCore ∧
      (es.foldl (fun r e => undoFirewall SimulatedKernel.run e r) r).remaining =
        r.remaining ∧
      (es.foldl (fun r e => undoFirewall SimulatedKernel.run e r) r).report.failed = 0 := by
  induction es generalizing r with
  | nil => exact ⟨rfl, rfl, hfail⟩
  | cons e es ih =>
    have he := h e (by simp)
    have hq : effect e.undo ≠ .query := by rw [he]; simp
    have hone : undoFirewall SimulatedKernel.run e r = undoOne SimulatedKernel.run e r := by
      simp [undoFirewall, hfail]
    obtain ⟨_, hspec⟩ := undoOne_spec e r hq
    have hwall : ∀ name, effect e.undo = .linkUp name →
        r.machine.driver.linkWall name = none := by
      intro name hn
      rw [he] at hn
      cases hn
    rw [undoAt_eq hwall, undoCore_loadRules he] at hspec
    obtain ⟨hcore, hrem, hf⟩ := hspec
    obtain ⟨h1, h2, h3⟩ := ih (fun e' he' => h e' (by simp [he']))
      (r := undoOne SimulatedKernel.run e r) (hf.trans hfail)
    rw [List.foldl_cons, hone]
    exact ⟨h1.trans hcore, h2.trans hrem, h3⟩

/-- The second pass leaves the core alone, whether the firewall is held or
undone. -/
theorem passTwo_core (h : ∀ e ∈ es, effect e.undo = .loadRules) (r : Replay SimulatedKernel) :
    (es.foldl (fun r e => undoFirewall SimulatedKernel.run e r) r).machine.toCore =
        r.machine.toCore ∧
      r.report.failed ≤
        (es.foldl (fun r e => undoFirewall SimulatedKernel.run e r) r).report.failed := by
  induction es generalizing r with
  | nil => exact ⟨rfl, le_refl _⟩
  | cons e es ih =>
    have he := h e (by simp)
    have hq : effect e.undo ≠ .query := by rw [he]; simp
    obtain ⟨h1, h2⟩ := ih (fun e' he' => h e' (by simp [he']))
      (undoFirewall SimulatedKernel.run e r)
    have hstep : (undoFirewall SimulatedKernel.run e r).machine.toCore = r.machine.toCore ∧
        r.report.failed ≤ (undoFirewall SimulatedKernel.run e r).report.failed := by
      unfold undoFirewall
      split
      · exact ⟨rfl, le_refl _⟩
      · have hcore : ((effect e.undo).on r.machine.driver r.machine.toCore).1 =
            r.machine.toCore := by rw [he]; rfl
        refine ⟨?_, failed_le_undoAll [e] r fun e' he' => ?_⟩
        · rw [(undoOne_spec e r hq).1, (r.machine.run_follows e.undo).core, hcore]
        · rw [List.mem_singleton.mp he']
          exact hq
    rw [List.foldl_cons]
    exact ⟨h1.trans hstep.1, hstep.2.trans h2⟩

theorem passTwo_loads (h : Undoable es) : ∀ e ∈ passTwo es, effect e.undo = .loadRules := by
  intro e he
  rw [passTwo_eq, List.mem_filter] at he
  exact h.firewall e he.1 (by simpa using he.2)

theorem passOne_noQuery (h : Undoable es) : NoQuery (passOne es) := by
  intro e he
  rw [passOne_eq, List.mem_filter] at he
  exact h.noQuery e he.1

/-- **A replay in which nothing is refused returns**: the core ends where the
inverses lead, and nothing remains. -/
theorem replay_ok {k : SimulatedKernel} {c : Core} (j : Option Journal) (h : Undoable es)
    (hopen : OpenLinks (passOne es) k)
    (hun : unwind (undoCore k.driver) (undosOf es) k.toCore = some c) :
    (replay SimulatedKernel.run es k j).machine.toCore = c ∧
      (replay SimulatedKernel.run es k j).remaining = [] ∧
      (replay SimulatedKernel.run es k j).report.failed = 0 := by
  rw [← unwind_passOne h] at hun
  obtain ⟨hcore, hrem, hfail, _⟩ :=
    undoAll_ok (r := { machine := k, journal := j }) (passOne_noQuery h) hopen hun
  obtain ⟨hcore', hrem', hfail'⟩ := passTwo_ok (passTwo_loads h) hfail
  refine ⟨hcore'.trans hcore, ?_, hfail'⟩
  show List.reverse _ = []
  rw [List.reverse_eq_nil_iff]
  exact hrem'.trans hrem

/-- **A replay in which nothing failed followed the inverses.** -/
theorem unwind_of_replay {k : SimulatedKernel} {j : Option Journal} (h : Undoable es)
    (hfail : (replay SimulatedKernel.run es k j).report.failed = 0) :
    unwind (undoCore k.driver) (undosOf es) k.toCore =
      some (replay SimulatedKernel.run es k j).machine.toCore := by
  have htwo := passTwo_core (passTwo_loads h) (undoAll (passOne es) { machine := k, journal := j })
  have hzero : (undoAll (passOne es) { machine := k, journal := j }).report.failed = 0 := by
    have hle := htwo.2
    have hend : ((passTwo es).foldl (fun r e => undoFirewall SimulatedKernel.run e r)
      (undoAll (passOne es) { machine := k, journal := j })).report.failed = 0 := hfail
    omega
  have hone := unwind_of_undoAll (r := { machine := k, journal := j }) (passOne_noQuery h) hzero
  rw [← unwind_passOne h, hone]
  exact congrArg some htwo.1.symm

end Caspian.Netcfg
