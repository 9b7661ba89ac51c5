import Caspian.Netcfg.Reversal

/-!
# What a step finds when its turn comes

An inverse that puts a value back is right only if the value it carries is the
one the step found.  The values are held in `Cell`s; a step that has not run
yet stays `Ready` as long as no step before it writes the cell its inverse puts
back.  With that, the step lemmas become lemmas about whole runs of `Apply`
(`loop_forall`).
-/

namespace Caspian.Netcfg

open Verified

/-! ## Cells -/

/-- A value an inverse can put back. -/
inductive Cell where
  | knob (name : String)
  | released (name : String)
  | type (name : String)
  deriving DecidableEq

variable {name : String} {c : Core}

variable {π' : Pair}

variable {π : Pair}

namespace Pair

/-- The cells the change of a pair writes. -/
def writes : Pair → List Cell
  | knob name _ _ => [.knob name]
  | knobOnly name _ => [.knob name]
  | create name _ => [.type name]
  | releaseCreated name => [.released name]
  | release name => [.released name]
  | retype name _ => [.type name]
  | _ => []

/-- The cell its inverse puts back. -/
def restores : Pair → Option Cell
  | knob name _ _ => some (.knob name)
  | release name => some (.released name)
  | retype name _ => some (.type name)
  | _ => none

/-- A pair whose inverse puts no value back is always ready. -/
theorem ready_of_restores (h : π.restores = none) (c : Core) : π.Ready c := by
  cases π with
  | knob name value prev | release name | retype name type => cases h
  | _ => trivial

/-- The first pair writes what the inverse of the second puts back. -/
def Spoils (π π' : Pair) : Prop := ∃ cell ∈ π.writes, π'.restores = some cell

/-- Neither writes what the inverse of the other puts back. -/
def Apart (π π' : Pair) : Prop := ¬π.Spoils π' ∧ ¬π'.Spoils π

theorem Apart.symm (h : π.Apart π') : π'.Apart π := ⟨h.2, h.1⟩

theorem sysctl_kept {d : Driver} (h : Cell.knob name ∉ π.writes) :
    (π.run.on d c).1.sysctl.lookup name = c.sysctl.lookup name := by
  cases π with
  | knob other value prev | knobOnly other value =>
    have hne : name ≠ other := by simpa [writes] using h
    simp only [Pair.run, Effect.on]
    exact Finmap.lookup_insert_of_ne _ hne
  | _ =>
    simp only [Pair.run, Effect.on]
    try (repeat' split) <;> rfl

/-- An interface after a change: it was there and the change wrote none of its
cells but those named, or it was created. -/
theorem iface_kept {d : Driver} {i : Iface} (h : (π.run.on d c).1.ifaces.lookup name = some i) :
    (∃ j, c.ifaces.lookup name = some j ∧
        (Cell.released name ∉ π.writes → i.released = j.released) ∧
        (Cell.type name ∉ π.writes → i.type = j.type)) ∨
      (i.released = false ∧ Cell.type name ∈ π.writes) := by
  cases π with
  | create other type =>
    simp only [Pair.run, Effect.on] at h
    split at h
    · exact Or.inl ⟨i, h, fun _ => rfl, fun _ => rfl⟩
    · split at h
      · exact Or.inl ⟨i, h, fun _ => rfl, fun _ => rfl⟩
      · by_cases hn : name = other
        · subst hn
          simp only [Finmap.lookup_insert, Option.some.injEq] at h
          exact Or.inr ⟨by rw [← h], by simp [writes]⟩
        · rw [Finmap.lookup_insert_of_ne _ hn] at h
          exact Or.inl ⟨i, h, fun _ => rfl, fun _ => rfl⟩
  | releaseCreated other | release other =>
    rw [Pair.run, Effect.setManaged_core] at h
    by_cases hn : name = other
    · subst hn
      rw [Core.release, lookup_releaseIn_self] at h
      obtain ⟨j, hj, rfl⟩ := Option.map_eq_some_iff.mp h
      exact Or.inl ⟨j, hj, fun hw => absurd (by simp [writes]) hw, fun _ => rfl⟩
    · rw [Core.release, lookup_releaseIn_ne hn] at h
      exact Or.inl ⟨i, h, fun _ => rfl, fun _ => rfl⟩
  | retype other type =>
    simp only [Pair.run, Effect.on] at h
    split at h
    · exact Or.inl ⟨i, h, fun _ => rfl, fun _ => rfl⟩
    · split at h
      · exact Or.inl ⟨i, h, fun _ => rfl, fun _ => rfl⟩
      next j hj =>
        by_cases hn : name = other
        · subst hn
          simp only [Finmap.lookup_insert, Option.some.injEq] at h
          subst h
          exact Or.inl ⟨j, hj, fun _ => rfl, fun hw => absurd (by simp [writes]) hw⟩
        · rw [Finmap.lookup_insert_of_ne _ hn] at h
          exact Or.inl ⟨i, h, fun _ => rfl, fun _ => rfl⟩
  | _ =>
    refine Or.inl ⟨i, ?_, fun _ => rfl, fun _ => rfl⟩
    simp only [Pair.run, Effect.on] at h
    try (repeat' split at h)
    all_goals exact h

/-- **A pair stays ready when another is run that does not spoil it.** -/
theorem Ready.kept {d : Driver} (h : π'.Ready c) (hno : ¬π.Spoils π') :
    π'.Ready (π.run.on d c).1 := by
  have hcell : ∀ cell, π'.restores = some cell → cell ∉ π.writes :=
    fun cell hr hw => hno ⟨cell, hw, hr⟩
  cases π' with
  | knob name value prev => exact (sysctl_kept (hcell _ rfl)).trans h
  | release name =>
    intro i hi
    rcases iface_kept hi with ⟨j, hj, hrel, _⟩ | ⟨hfresh, _⟩
    · rw [hrel (hcell _ rfl)]
      exact h j hj
    · exact hfresh
  | retype name type =>
    intro i hi
    rcases iface_kept hi with ⟨j, hj, _, htype⟩ | ⟨_, hw⟩
    · rw [htype (hcell _ rfl)]
      exact h j hj
    · exact absurd hw (hcell _ rfl)
  | _ => trivial

end Pair

/-! ## Steps -/

/-- What is known of a step before the run. -/
structure Fit (c₀ : Core) (s : Step) (π : Pair) : Prop where
  is : s.Is π
  matched : π.Matched
  measured : ∀ name value, π ≠ .knobOnly name value
  ours : ∀ name, π = .releaseCreated name → name ∉ c₀.ifaces

variable {s : Step}

theorem Step.Is.ready_kept {d : Driver} (hs : s.Is π) (h : π'.Ready c) (hno : ¬π.Spoils π') :
    π'.Ready ((effect s.run).on d c).1 := by
  cases herr : ((effect s.run).on d c).2.2 with
  | some msg =>
    rw [Effect.on_failed d _ c (by simp [herr])]
    exact h
  | none =>
    rw [hs.run_eq (valid_of_ok herr)]
    exact h.kept hno

/-! ## The precondition -/

theorem effect_ifacePresent (name : String) :
    effect (ifacePresent name).query = .query ∨
      ∃ reply, effect (ifacePresent name).query = .reject reply := by
  cases hv : validateCommand (ifacePresent name).query with
  | none =>
    left
    unfold effect
    rw [hv]
    rfl
  | some msg =>
    right
    unfold effect
    rw [hv]
    exact ⟨_, rfl⟩

/-- The query leaves the machine as it is. -/
theorem Step.Is.ask (hs : s.Is π) (k : SimulatedKernel) :
    (queryPre SimulatedKernel.run s k).1.toCore = k.toCore ∧
      (queryPre SimulatedKernel.run s k).1.driver = k.driver := by
  unfold queryPre
  rw [hs.pre_eq]
  cases π with
  | create name type =>
    have hfollows := k.run_follows (ifacePresent name).query
    have hquiet : ((effect (ifacePresent name).query).on k.driver k.toCore).1 = k.toCore ∧
        ∀ other, (effect (ifacePresent name).query).Calm other := by
      rcases effect_ifacePresent name with h | ⟨reply, h⟩
      · rw [h]
        exact ⟨rfl, fun _ => trivial⟩
      · rw [h]
        exact ⟨rfl, fun _ => trivial⟩
    refine ⟨hfollows.core.trans hquiet.1, ?_⟩
    have hun := hfollows.driver
    have hwall : (k.run (ifacePresent name).query).1.linkWall = k.linkWall :=
      funext fun other => hfollows.wall other (hquiet.2 other)
    simp only [Driver.unwalled, SimulatedKernel.driver, Driver.mk.injEq, and_true] at hun
    simp only [Pair.pre, SimulatedKernel.driver, Driver.mk.injEq]
    exact ⟨hun.1, hun.2, hwall⟩
  | _ => exact ⟨rfl, rfl⟩

/-- An interface that is there is found. -/
theorem satisfied_of_mem {k : SimulatedKernel} (hn : name ∈ k.ifaces)
    (hv : validateCommand (ifacePresent name).query = none) :
    (ifacePresent name).satisfied (k.run (ifacePresent name).query).2.1
      (k.run (ifacePresent name).query).2.2 = true := by
  have hreply : (k.run (ifacePresent name).query).2 =
      ({ stdout := name ++ "  DOWN  <BROADCAST,MULTICAST>\n" }, none) := by
    unfold SimulatedKernel.run
    rw [hv]
    simp [ifacePresent, SimulatedKernel.runIP, SimulatedKernel.ipFlags, Text.hasPrefix,
      SimulatedKernel.runIPLink, SimulatedKernel.isRead, SimulatedKernel.runLinkShowDev, hn,
      binIP, binNft, binSysctl, binNmcli, binIw]
  rw [hreply]
  have hD : 'D' ∈ (name ++ "  DOWN  <BROADCAST,MULTICAST>\n").toList := by
    rw [String.toList_append]
    exact List.mem_append_right _ (by decide)
  have hne : Text.trimSpace (name ++ "  DOWN  <BROADCAST,MULTICAST>\n") ≠ "" :=
    Text.trimSpace_ne_empty hD (by decide)
  simpa [ifacePresent] using hne

/-- An interface is created only where the query found none of its name. -/
theorem Step.Is.fresh_of_query (hs : s.Is π) {k k' : SimulatedKernel}
    (hq : queryPre SimulatedKernel.run s k = (k', false)) {type : String}
    (hπ : π = .create name type) (hundo : validateCommand s.undo = none) : name ∉ k'.ifaces := by
  have hcore : k'.toCore = k.toCore := by
    have := (hs.ask k).1
    rw [hq] at this
    exact this
  show name ∉ k'.toCore.ifaces
  rw [hcore]
  intro hn
  have hpre : s.pre = some (ifacePresent name) := by
    rw [hs.pre_eq, hπ]
    rfl
  have hsat := satisfied_of_mem hn (hs.valid_query _ hpre hundo)
  have hfound : (queryPre SimulatedKernel.run s k).2 = true := by
    unfold queryPre
    rw [hpre]
    exact hsat
  rw [hq] at hfound
  cases hfound

/-! ## Whole runs -/

section Loop

variable {c₀ : Core} {digest : String → String} {state : List (String × String)}
  {F : Step → Pair → Prop} {P : World SimulatedKernel → Prop}
  {J : Moment SimulatedKernel → Prop}

/-- The steps still to come, with their pairs: none spoils another, and each
that will be run is ready. -/
structure Pending (digest : String → String) (state : List (String × String))
    (F : Step → Pair → Prop) (qs : List (Step × Pair)) (c : Core) : Prop where
  fit : ∀ q ∈ qs, F q.1 q.2
  apart : qs.Pairwise fun q q' => q.2.Apart q'.2
  ready : ∀ q ∈ qs, inForce digest state q.1.run = false → q.2.Ready c

theorem Pending.tail {q : Step × Pair} {qs : List (Step × Pair)}
    (h : Pending digest state F (q :: qs) c) : Pending digest state F qs c where
  fit q' hq' := h.fit q' (List.mem_cons_of_mem _ hq')
  apart := (List.pairwise_cons.mp h.apart).2
  ready q' hq' := h.ready q' (List.mem_cons_of_mem _ hq')

/-- Running the first step leaves the others ready. -/
theorem Pending.run {d : Driver} {q : Step × Pair} {qs : List (Step × Pair)}
    (h : Pending digest state F (q :: qs) c) (hq : q.1.Is q.2) :
    Pending digest state F qs ((effect q.1.run).on d c).1 where
  fit := h.tail.fit
  apart := h.tail.apart
  ready q' hq' hforce :=
    hq.ready_kept (h.tail.ready q' hq' hforce) ((List.pairwise_cons.mp h.apart).1 q' hq').1

/-- **The rule for runs of pairs**: what asking and running a step keep, holds
at the quiet points of `Apply`, and what it implies inside a step holds at the
others. -/
theorem loop_forall (hF : ∀ s π, F s π → Fit c₀ s π) (hquiet : ∀ w, P w → J ⟨w, .quiet⟩)
    (hask : ∀ s π w, F s π → P w →
      P { w with machine := (queryPre SimulatedKernel.run s w.machine).1 })
    (hwindow : ∀ s π w, F s π → Prepared c₀ s π w.machine.toCore → P w →
      ∀ m ∈ runStepVisits SimulatedKernel.run s w, J m)
    (hstep : ∀ s π w, F s π → Prepared c₀ s π w.machine.toCore →
      inForce digest state s.run = false → P w →
      P (runStep SimulatedKernel.run s w).world)
    {qs : List (Step × Pair)} {w : World SimulatedKernel}
    (hqs : Pending digest state F qs w.machine.toCore) (hw : P w) :
    ∀ m ∈ loopVisits digest SimulatedKernel.run state (qs.map Prod.fst) w, J m := by
  refine loopVisits_forall digest SimulatedKernel.run
    (I := fun l w => ∃ qs : List (Step × Pair), qs.map Prod.fst = l ∧
      Pending digest state F qs w.machine.toCore ∧ P w)
    ?_ ?_ ?_ ?_ ⟨qs, rfl, hqs, hw⟩
  · rintro l w ⟨qs, _, _, hP⟩
    exact hquiet w hP
  · rintro s l w ⟨qs, hl, hqs, hP⟩
    obtain ⟨q, qs, rfl, rfl, rfl⟩ := List.map_eq_cons_iff.mp hl
    exact ⟨qs, rfl, hqs.tail, hP⟩
  · rintro s l w ⟨qs, hl, hqs, hP⟩
    obtain ⟨q, qs, rfl, rfl, rfl⟩ := List.map_eq_cons_iff.mp hl
    have hq := hqs.fit q List.mem_cons_self
    refine ⟨q :: qs, rfl, ?_, hask _ _ _ hq hP⟩
    rw [((hF _ _ hq).is.ask w.machine).1]
    exact hqs
  · rintro s l w k ⟨qs, hl, hqs, hP⟩ _ hforce hasked
    obtain ⟨q, qs, rfl, rfl, rfl⟩ := List.map_eq_cons_iff.mp hl
    have hq := hqs.fit q List.mem_cons_self
    have hfit := hF _ _ hq
    have hprep : Prepared c₀ q.1 q.2 w.machine.toCore :=
      { ready := hqs.ready q List.mem_cons_self hforce
        matched := hfit.matched
        measured := hfit.measured
        fresh := fun _ _ hπ hundo => hfit.is.fresh_of_query hasked hπ hundo
        ours := hfit.ours }
    have hran := hstep _ _ _ hq hprep hforce hP
    refine ⟨hwindow _ _ _ hq hprep hP, hquiet _ hran, fun _ => ⟨qs, rfl, ?_, hran⟩⟩
    show Pending digest state F qs (w.machine.run q.1.run).1.toCore
    rw [(w.machine.run_follows q.1.run).core]
    exact hqs.run hfit.is

end Loop

theorem Tracks.ask {d : Driver} {c₀ : Core} {w : World SimulatedKernel} (h : Tracks d c₀ w)
    (hs : s.Is π) :
    Tracks d c₀ { w with machine := (queryPre SimulatedKernel.run s w.machine).1 } := by
  obtain ⟨hcore, hdriver⟩ := hs.ask w.machine
  refine ⟨?_, h.ordered, h.undoable, ?_, ?_⟩
  · rw [hdriver]
    exact h.driver
  · rw [hcore]
    exact h.faithful
  · rw [hcore]
    exact h.created

theorem Reversible.ask {d : Driver} {c₀ : Core} {w : World SimulatedKernel} (h : Reversible d c₀ w)
    (hs : s.Is π) :
    Reversible d c₀ { w with machine := (queryPre SimulatedKernel.run s w.machine).1 } := by
  obtain ⟨hcore, _⟩ := hs.ask w.machine
  refine ⟨?_, ?_⟩
  · rw [hcore]
    exact h.returns
  · rw [hcore]
    exact h.names

section Runs

variable {d : Driver} {c₀ : Core} {digest : String → String}
  {state : List (String × String)} {qs : List (Step × Pair)} {w : World SimulatedKernel}

/-- **Wherever `Apply` is killed at a good time** the journal is faithful and
every inverse in it can be replayed. -/
theorem Reversible.loop
    (hqs : Pending digest state (fun s π => Fit c₀ s π ∧ s.Safe d c₀ π) qs w.machine.toCore)
    (htracks : Tracks d c₀ w) (h : Reversible d c₀ w) :
    ∀ m ∈ loopVisits digest SimulatedKernel.run state (qs.map Prod.fst) w,
      m.Clear → Tracks d c₀ m.world ∧ Reversible d c₀ m.world := by
  refine loop_forall (P := fun w => Tracks d c₀ w ∧ Reversible d c₀ w)
    (fun _ _ hF => hF.1) (fun _ hP _ => hP) ?_ ?_ ?_ hqs ⟨htracks, h⟩
  · rintro s π w ⟨hfit, _⟩ ⟨ht, hr⟩
    exact ⟨ht.ask hfit.is, hr.ask hfit.is⟩
  · rintro s π w ⟨hfit, hsafe⟩ hprep ⟨ht, hr⟩ m hm hclear
    exact ⟨ht.window hfit.is hprep m hm hclear,
      hr.window ht.ordered ht.driver hfit.is (hsafe.mono hr.names) hprep m hm hclear⟩
  · rintro s π w ⟨hfit, hsafe⟩ hprep _ ⟨ht, hr⟩
    refine ⟨ht.runStep hfit.is hprep,
      hr.runStep ht.ordered ht.driver hfit.is (hsafe.mono hr.names) fun msg hv hz => ?_⟩
    rw [hfit.is.reply_run] at hv
    exact hfit.is.idle_of_failed hprep hv hz (hsafe.valid hz)

end Runs

end Caspian.Netcfg
