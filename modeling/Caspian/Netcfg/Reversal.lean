import Caspian.Netcfg.Run

/-!
# No inverse is refused

The second half of a recovery: while `Apply` works, the inverses in the journal
can all be replayed (`Reversible`).  The values they write do not matter here,
only whether the objects they name are there, so nothing is assumed about the
values the machine held.
-/

namespace Caspian.Netcfg

open Verified Verified.UndoLog

/-- Every inverse in the journal can be replayed, and no interface of `c₀` has
gone. -/
structure Reversible (d : Driver) (c₀ : Core) (w : World SimulatedKernel) : Prop where
  returns : (unwind (undoCore d) (undosOf w.journal.entries) w.machine.toCore).isSome = true
  names : ∀ name ∈ c₀.ifaces, name ∈ w.machine.ifaces

/-- The inverse of a step may run: it is a valid command, it names the table
the route is in, and nothing refuses it where it has nothing to do. -/
structure Step.Safe (d : Driver) (c₀ : Core) (s : Step) (π : Pair) : Prop where
  valid : s.undo.isZero = false → validateCommand s.undo = none
  matched : π.Matched
  allowed : π.Allowed d
  standing : π.Standing c₀

theorem Pair.Standing.mono {π : Pair} {c c' : Core} (h : π.Standing c)
    (hnames : ∀ name ∈ c.ifaces, name ∈ c'.ifaces) : π.Standing c' := by
  cases π with
  | release name | down name | retype name type => exact hnames name h
  | _ => trivial

theorem Step.Safe.mono {d : Driver} {c c' : Core} {s : Step} {π : Pair} (h : s.Safe d c π)
    (hnames : ∀ name ∈ c.ifaces, name ∈ c'.ifaces) : s.Safe d c' π :=
  ⟨h.valid, h.matched, h.allowed, h.standing.mono hnames⟩

/-- A change without an inverse makes and removes no object. -/
theorem Pair.agree_of_noInverse {d : Driver} {π : Pair} {c : Core} (h : π.undo = none) :
    (π.run.on d c).1.Agree c := by
  cases π with
  | knobOnly name value => exact ⟨rfl, rfl, rfl, fun _ => Iff.rfl⟩
  | releaseCreated name =>
    rw [Pair.run, Effect.setManaged_core]
    exact Core.release_agree name c
  | up name =>
    rw [Pair.run, Effect.linkUp_core]
    exact .refl c
  | _ => cases h

section Reversible

variable {d : Driver} {c₀ : Core} {w w' : World SimulatedKernel} {s : Step} {π : Pair}
  {phase : Phase}

theorem Reversible.settled (h : Reversible d c₀ w) (hlog : s.Logged w w' phase)
    (hclosed : phase.isOpen = false) (hcore : w'.machine.toCore = w.machine.toCore) :
    Reversible d c₀ w' := by
  refine ⟨?_, ?_⟩
  · rw [hlog.settled (Or.inl hclosed), hcore]
    exact h.returns
  · rw [hcore]
    exact h.names

/-- An open entry whose inverse is not refused, and leads back to the objects
there were, can be replayed with the others. -/
theorem Reversible.push (h : Reversible d c₀ w) (hlog : s.Logged w w' phase) (hopen : phase.isOpen = true)
    (hback : s.undo.isZero = false →
      ∃ c, undoCore d s.undo w'.machine.toCore = some c ∧ c.Agree w.machine.toCore)
    (hkeep : s.undo.isZero = true → w'.machine.toCore.Agree w.machine.toCore)
    (hnames : ∀ name ∈ w.machine.ifaces, name ∈ w'.machine.ifaces) :
    Reversible d c₀ w' := by
  refine ⟨?_, fun name hn => hnames name (h.names name hn)⟩
  cases hz : s.undo.isZero with
  | true =>
    rw [hlog.settled (Or.inr hz)]
    exact unwind_agree (hkeep hz).symm h.returns
  | false =>
    obtain ⟨c, hc, hagree⟩ := hback hz
    rw [hlog.live hopen hz, unwind_cons]
    simp only [hc]
    exact unwind_agree hagree.symm h.returns

/-- The entry of a step that was run can be replayed, if the command succeeded
or its inverse has nothing to do. -/
theorem Reversible.pushRun (h : Reversible d c₀ w)
    (hdriver : w.machine.driver.unwalled = d.unwalled) (hs : s.Is π)
    (hsafe : s.Safe d w.machine.toCore π) (hmachine : w'.machine = (w.machine.run s.run).1)
    (hlog : s.Logged w w' phase) (hopen : phase.isOpen = true)
    (hran : (w.machine.run s.run).2.2 = none ∨
      (s.undo.isZero = false → π.Idle w.machine.toCore)) :
    Reversible d c₀ w' := by
  have hcore : w'.machine.toCore =
      ((effect s.run).on w.machine.driver w.machine.toCore).1 := by
    rw [hmachine, (w.machine.run_follows s.run).core]
  have hreply := hs.reply_run w.machine
  refine h.push hlog hopen ?_ ?_ ?_
  · intro hz
    have hv := hsafe.valid hz
    rw [hcore, ← undoCore_congr hdriver]
    cases herr : (w.machine.run s.run).2.2 with
    | none =>
      rw [hreply] at herr
      exact hs.undo_runs hz hv herr hsafe.matched hsafe.standing
    | some msg =>
      have hfail : ((effect s.run).on w.machine.driver w.machine.toCore).2.2.isSome = true := by
        rw [← hreply, herr]
        rfl
      have hidle := hran.resolve_left (by simp [herr]) hz
      have hallowed : π.Allowed w.machine.driver := by
        have hset : w.machine.driver.unwalled.setType = d.unwalled.setType := by
          rw [hdriver]
        cases π with
        | retype name type => exact hset.trans hsafe.allowed
        | create name type => exact hsafe.allowed
        | _ => trivial
      rw [Effect.on_failed _ _ _ hfail]
      exact ⟨_, hs.undo_still_runs hz hv hidle hallowed hsafe.standing, .refl _⟩
  · intro hz
    rw [hcore]
    cases herr : ((effect s.run).on w.machine.driver w.machine.toCore).2.2 with
    | some msg =>
      rw [Effect.on_failed _ _ _ (by simp [herr])]
      exact .refl _
    | none =>
      rw [hs.undo_isZero, Option.isNone_iff_eq_none] at hz
      rw [hs.run_eq (valid_of_ok herr)]
      exact Pair.agree_of_noInverse hz
  · intro name hn
    show name ∈ w'.machine.toCore.ifaces
    rw [hcore]
    exact hs.mem_run_ifaces.mpr (Or.inl hn)

/-- **A step keeps every inverse replayable**, unless it failed with its inverse
something to do. -/
theorem Reversible.runStep (h : Reversible d c₀ w) (hj : w.journal.Ordered)
    (hdriver : w.machine.driver.unwalled = d.unwalled) (hs : s.Is π)
    (hsafe : s.Safe d w.machine.toCore π)
    (hfailed : ∀ msg, verdict s.run (w.machine.run s.run).2 = .failed msg →
      s.undo.isZero = false → π.Idle w.machine.toCore) :
    Reversible d c₀ (runStep SimulatedKernel.run s w).world := by
  rcases hs.runStep_cases hj with ⟨phase, hlog, hopen, hran⟩ | ⟨phase, hlog, hclosed, hcore⟩
  · exact h.pushRun hdriver hs hsafe rfl hlog hopen (hran.imp_right fun ⟨msg, hv⟩ => hfailed msg hv)
  · exact h.settled hlog hclosed hcore

/-- A process killed at a good time leaves inverses that can be replayed. -/
theorem Reversible.window (h : Reversible d c₀ w) (hj : w.journal.Ordered)
    (hdriver : w.machine.driver.unwalled = d.unwalled) (hs : s.Is π)
    (hsafe : s.Safe d w.machine.toCore π) (hp : Prepared c₀ s π w.machine.toCore) :
    ∀ m ∈ runStepVisits SimulatedKernel.run s w, m.Clear → Reversible d c₀ m.world := by
  intro m hm hclear
  simp only [runStepVisits, List.mem_cons, List.not_mem_nil, or_false] at hm
  rcases hm with rfl | rfl
  · refine h.push (hs.logs_begin hj rfl) rfl ?_ (fun _ => .refl _) fun _ hn => hn
    intro hz
    have hv := hsafe.valid hz
    have hidle := hs.idle_of_unmade hp hclear hz hv
    exact ⟨_, hs.undo_still_runs hz hv hidle hsafe.allowed hsafe.standing, .refl _⟩
  · refine h.pushRun hdriver hs hsafe rfl
      (hs.logs_begin hj (w.machine.run_follows s.run).driver) rfl ?_
    rw [hs.reply_run]
    exact (hs.ok_or_idle_of_due hp hclear).imp_right fun hidle hz =>
      hidle hz (hsafe.valid hz)

end Reversible

end Caspian.Netcfg
