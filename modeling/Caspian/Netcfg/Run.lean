import Caspian.Netcfg.Replay

/-!
# The journal stays faithful

While `Apply` works through steps that are pairs, the inverses in the journal
lead back to where the run began (`Tracks`).  The module has the step lemmas:
what `Begin`, the command and the closing record each do to this invariant, and
under which condition a process killed between them still leaves it intact.
-/

namespace Caspian.Netcfg

open Verified Verified.UndoLog

/-! ## One step on the kernel -/

theorem verdict_done {c : Command} {reply : Reply} (h : verdict c reply = .done) :
    reply.2 = none := by
  unfold verdict at h
  split at h
  · assumption
  · split at h
    · cases h
    · split at h <;> cases h

theorem verdict_gone {c : Command} {reply : Reply}
    (h : verdict c reply = .gone ∨ verdict c reply = .existed) : reply.2.isSome = true := by
  cases herr : reply.2 with
  | none => simp [verdict, herr] at h
  | some msg => rfl

variable {c : Core}

/-- The names after a change are the old ones, and the one it created. -/
theorem Pair.mem_run_ifaces {d : Driver} {π : Pair} {name : String}
    (hok : (π.run.on d c).2.2 = none) :
    name ∈ (π.run.on d c).1.ifaces ↔ name ∈ c.ifaces ∨ ∃ type, π = .create name type := by
  cases π with
  | create other type =>
    simp only [Pair.run, Effect.on] at hok ⊢
    by_cases hd : d.ifaceAdd = ""
    · by_cases hn : other ∈ c.ifaces
      · simp [hd, hn, simFail] at hok
      · simp only [hd, hn, ne_eq, not_true, if_false, Finmap.mem_insert, Pair.create.injEq,
          exists_eq_right']
        exact or_comm.trans (or_congr_right eq_comm)
    · simp [hd, simFail] at hok
  | releaseCreated other | release other =>
    simpa [Pair.run, Effect.setManaged_core] using (Core.release_agree other c).ifaces name
  | retype other type =>
    simp only [Pair.run, Effect.on] at hok ⊢
    by_cases hd : d.setType = ""
    · cases hi : c.ifaces.lookup other with
      | none => simp [hd, hi, simFail] at hok
      | some i =>
        simpa [hd] using (Core.agree_insert (j := { i with type := type }) hi).ifaces name
    · simp [hd, simFail] at hok
  | up other => simp [Pair.run]
  | strip dev pfx | addr dev pfx =>
    simp only [Pair.run, Effect.on]
    split
    · simp
    · split <;> simp
  | route table pfx table' | rule r =>
    simp only [Pair.run, Effect.on]
    split <;> simp
  | _ => simp [Pair.run, Effect.on]

section Step

variable {s : Step} {π : Pair} (hs : s.Is π)
include hs

/-- A step of a plan is not a question. -/
theorem Step.Is.run_ne_query : effect s.run ≠ .query := by
  cases hv : validateCommand s.run with
  | none =>
    rw [hs.run_eq hv]
    cases π <;> simp [Pair.run]
  | some msg =>
    unfold effect
    rw [hv]
    simp

theorem Step.Is.undo_ne_query (hz : s.undo.isZero = false) : effect s.undo ≠ .query := by
  obtain ⟨u, hu⟩ := hs.undo_some hz
  cases hv : validateCommand s.undo with
  | none =>
    rw [hs.undo_eq u hu hv]
    cases π <;> simp [Pair.undo] at hu <;> simp [← hu]
  | some msg =>
    unfold effect
    rw [hv]
    simp

theorem Step.Is.reply_run (k : SimulatedKernel) :
    (k.run s.run).2 = ((effect s.run).on k.driver k.toCore).2 :=
  (k.run_follows s.run).reply hs.run_ne_query

/-- The names after the step are the old ones, and the one it created. -/
theorem Step.Is.mem_run_ifaces {d : Driver} {name : String} :
    name ∈ ((effect s.run).on d c).1.ifaces ↔
      name ∈ c.ifaces ∨
        ((effect s.run).on d c).2.2 = none ∧ ∃ type, π = .create name type := by
  cases herr : ((effect s.run).on d c).2.2 with
  | some msg =>
    rw [Effect.on_failed d _ c (by simp [herr])]
    simp
  | none =>
    have hpair := hs.run_eq (valid_of_ok herr)
    rw [hpair] at herr ⊢
    simpa using Pair.mem_run_ifaces herr

end Step

/-! ## The invariant -/

/-- The inverses in the journal lead back to `c₀`, and an interface that was
not there then has an inverse that deletes it. -/
structure Tracks (d : Driver) (c₀ : Core) (w : World SimulatedKernel) : Prop where
  driver : w.machine.driver.unwalled = d.unwalled
  ordered : w.journal.Ordered
  undoable : Undoable w.journal.entries
  faithful : Faithful (undoCore d) (undosOf w.journal.entries) w.machine.toCore c₀
  created : ∀ name, name ∉ c₀.ifaces → name ∈ w.machine.ifaces →
    ∃ u ∈ undosOf w.journal.entries, effect u = .delIface name

/-- What a step needs to find when its turn comes. -/
structure Prepared (c₀ : Core) (s : Step) (π : Pair) (c : Core) : Prop where
  ready : π.Ready c
  matched : π.Matched
  measured : ∀ name value, π ≠ .knobOnly name value
  fresh : ∀ name type, π = .create name type → validateCommand s.undo = none →
    name ∉ c.ifaces
  ours : ∀ name, π = .releaseCreated name → name ∉ c₀.ifaces

theorem Step.Is.undoable {s : Step} {π : Pair} (hs : s.Is π) {es : List Entry}
    (h : Undoable es) (seq : Int) (phase : Phase) : Undoable (es ++ [s.entry seq phase]) := by
  cases hneeds : (s.entry seq phase).needsUndo with
  | false =>
    refine ⟨?_, ?_⟩
    · rw [liveOf_append_settled hneeds]
      exact h.noQuery
    · rw [liveOf_append_settled hneeds]
      exact h.firewall
  | true =>
    have hz : s.undo.isZero = false := by
      rw [needsUndo_entry, Bool.and_eq_true, Bool.not_eq_true'] at hneeds
      exact hneeds.2
    refine ⟨?_, ?_⟩
    · rw [liveOf_append_live hneeds]
      intro e he
      rcases List.mem_cons.mp he with rfl | he
      · exact hs.undo_ne_query hz
      · exact h.noQuery e he
    · rw [liveOf_append_live hneeds]
      intro e he hop
      rcases List.mem_cons.mp he with rfl | he
      · have hfire : π = .firewall := hs.op_nft.mp hop
        exact hs.undo_eq _ (by rw [hfire]; rfl) (hs.valid_firewall hfire)
      · exact h.firewall e he hop

/-- From `w` to `w'` a step was written to the journal as an entry of a phase. -/
structure Step.Logged (s : Step) (w w' : World SimulatedKernel) (phase : Phase) : Prop where
  driver : w'.machine.driver.unwalled = w.machine.driver.unwalled
  ordered : w'.journal.Ordered
  entries : ∃ seq, w'.journal.entries = w.journal.entries ++ [s.entry seq phase]

section Logged

variable {w w' : World SimulatedKernel} {s : Step} {π : Pair} {phase : Phase}

theorem Step.Logged.live (h : s.Logged w w' phase) (hopen : phase.isOpen = true)
    (hz : s.undo.isZero = false) :
    undosOf w'.journal.entries = s.undo :: undosOf w.journal.entries := by
  obtain ⟨seq, hes⟩ := h.entries
  rw [hes]
  exact undosOf_append_live (by rw [needsUndo_entry, hopen, hz]; rfl)

theorem Step.Logged.settled (h : s.Logged w w' phase)
    (hclosed : phase.isOpen = false ∨ s.undo.isZero = true) :
    undosOf w'.journal.entries = undosOf w.journal.entries := by
  obtain ⟨seq, hes⟩ := h.entries
  rw [hes]
  refine undosOf_append_settled ?_
  rw [needsUndo_entry]
  rcases hclosed with hclosed | hz
  · rw [hclosed, Bool.false_and]
  · rw [hz, Bool.not_true, Bool.and_false]

theorem Step.Logged.undoable (h : s.Logged w w' phase) (hs : s.Is π)
    (hu : Undoable w.journal.entries) : Undoable w'.journal.entries := by
  obtain ⟨seq, hes⟩ := h.entries
  rw [hes]
  exact hs.undoable hu seq phase

variable (hs : s.Is π) (hord : w.journal.Ordered)
include hs hord

theorem Step.Is.logs_begin {k : SimulatedKernel}
    (hk : k.driver.unwalled = w.machine.driver.unwalled) :
    s.Logged w { machine := k, journal := w.journal.begin s } .begin :=
  ⟨hk, Journal.ordered_begin hord s, _, Journal.entries_begin hord hs.run_isZero⟩

theorem Step.Is.logs_runStep :
    s.Logged w (runStep SimulatedKernel.run s w).world
      (verdict s.run (w.machine.run s.run).2).phase :=
  ⟨(w.machine.run_follows s.run).driver, ordered_runStep SimulatedKernel.run s hord, _,
    entries_runStep SimulatedKernel.run hs.run_isZero hord⟩

/-- A step leaves an open entry, its command having succeeded or failed for
good, or a closed one on the core there was. -/
theorem Step.Is.runStep_cases :
    (∃ phase, s.Logged w (runStep SimulatedKernel.run s w).world phase ∧ phase.isOpen = true ∧
        ((w.machine.run s.run).2.2 = none ∨
          ∃ msg, verdict s.run (w.machine.run s.run).2 = .failed msg)) ∨
      ∃ phase, s.Logged w (runStep SimulatedKernel.run s w).world phase ∧
        phase.isOpen = false ∧ (w.machine.run s.run).1.toCore = w.machine.toCore := by
  have hlog := hs.logs_runStep hord
  have hsame : (w.machine.run s.run).2.2.isSome = true →
      (w.machine.run s.run).1.toCore = w.machine.toCore := by
    intro hfail
    rw [hs.reply_run] at hfail
    rw [(w.machine.run_follows s.run).core]
    exact Effect.on_failed _ _ _ hfail
  cases hv : verdict s.run (w.machine.run s.run).2 with
  | done => exact Or.inl ⟨_, hlog, by rw [hv]; rfl, Or.inl (verdict_done hv)⟩
  | failed msg => exact Or.inl ⟨_, hlog, by rw [hv]; rfl, Or.inr ⟨msg, rfl⟩⟩
  | gone => exact Or.inr ⟨_, hlog, by rw [hv]; rfl, hsame (verdict_gone (Or.inl hv))⟩
  | existed => exact Or.inr ⟨_, hlog, by rw [hv]; rfl, hsame (verdict_gone (Or.inr hv))⟩

end Logged

section Tracks

variable {d : Driver} {c₀ : Core} {w w' : World SimulatedKernel} {s : Step} {π : Pair}
  {phase : Phase}

/-- A closed entry on an unchanged core changes nothing. -/
theorem Tracks.settled (h : Tracks d c₀ w) (hs : s.Is π) (hlog : s.Logged w w' phase)
    (hclosed : phase.isOpen = false) (hcore : w'.machine.toCore = w.machine.toCore) :
    Tracks d c₀ w' := by
  have hundos := hlog.settled (Or.inl hclosed)
  refine ⟨hlog.driver.trans h.driver, hlog.ordered, hlog.undoable hs h.undoable, ?_, ?_⟩
  · rw [hundos, hcore]
    exact h.faithful
  · rw [hundos, hcore]
    exact h.created

/-- An open entry whose inverse leads back to where the log was faithful keeps
it faithful. -/
theorem Tracks.push (h : Tracks d c₀ w) (hs : s.Is π) (hlog : s.Logged w w' phase)
    (hopen : phase.isOpen = true)
    (hback : s.undo.isZero = false → ∀ c, undoCore d s.undo w'.machine.toCore = some c →
      c = w.machine.toCore)
    (hkeep : s.undo.isZero = true →
      Faithful (undoCore d) (undosOf w.journal.entries) w'.machine.toCore c₀)
    (hnames : ∀ name ∈ w'.machine.ifaces, name ∈ w.machine.ifaces ∨
      s.undo.isZero = false ∧ effect s.undo = .delIface name) :
    Tracks d c₀ w' := by
  refine ⟨hlog.driver.trans h.driver, hlog.ordered, hlog.undoable hs h.undoable, ?_, ?_⟩
  · cases hz : s.undo.isZero with
    | true =>
      rw [hlog.settled (Or.inr hz)]
      exact hkeep hz
    | false =>
      rw [hlog.live hopen hz]
      exact h.faithful.push (hback hz)
  · intro name hn hmem
    rcases hnames name hmem with hmem' | ⟨hz, heff⟩
    · obtain ⟨u, hu, heff⟩ := h.created name hn hmem'
      refine ⟨u, ?_, heff⟩
      cases hz : s.undo.isZero with
      | true => rwa [hlog.settled (Or.inr hz)]
      | false =>
        rw [hlog.live hopen hz]
        exact List.mem_cons_of_mem _ hu
    · refine ⟨s.undo, ?_, heff⟩
      rw [hlog.live hopen hz]
      exact List.mem_cons_self

/-- A change that has no inverse of its own is undone by an older one. -/
theorem Tracks.noInverse (h : Tracks d c₀ w) (hs : s.Is π)
    (hp : Prepared c₀ s π w.machine.toCore) (hz : s.undo.isZero = true) :
    Faithful (undoCore d) (undosOf w.journal.entries)
      ((effect s.run).on w.machine.driver w.machine.toCore).1 c₀ := by
  cases herr : ((effect s.run).on w.machine.driver w.machine.toCore).2.2 with
  | some msg =>
    rw [Effect.on_failed _ _ _ (by simp [herr])]
    exact h.faithful
  | none =>
    rw [hs.undo_isZero, Option.isNone_iff_eq_none] at hz
    have hpair := hs.run_eq (valid_of_ok herr)
    rw [hpair] at herr ⊢
    cases π with
    | knobOnly name value => exact absurd rfl (hp.measured name value)
    | up name =>
      rw [Pair.run, Effect.linkUp_core]
      exact h.faithful
    | releaseCreated name =>
      have hmem : name ∈ w.machine.ifaces := by
        by_contra hn
        simp [Pair.run, Effect.on, Finmap.lookup_eq_none.mpr hn, simFail] at herr
      rw [Pair.run, Effect.setManaged_core]
      intro c hc
      rw [unwind_release (h.created name (hp.ours name rfl) hmem)] at hc
      exact h.faithful c hc
    | _ => cases hz

/-- **The entry of a step that was run keeps the journal faithful**, if the
command succeeded or its inverse has nothing to do. -/
theorem Tracks.pushRun (h : Tracks d c₀ w) (hs : s.Is π)
    (hp : Prepared c₀ s π w.machine.toCore)
    (hmachine : w'.machine = (w.machine.run s.run).1) (hlog : s.Logged w w' phase)
    (hopen : phase.isOpen = true)
    (hran : (w.machine.run s.run).2.2 = none ∨
      (s.undo.isZero = false → validateCommand s.undo = none → π.Idle w.machine.toCore)) :
    Tracks d c₀ w' := by
  have hcore : w'.machine.toCore =
      ((effect s.run).on w.machine.driver w.machine.toCore).1 := by
    rw [hmachine, (w.machine.run_follows s.run).core]
  have hreply := hs.reply_run w.machine
  refine h.push hs hlog hopen ?_ ?_ ?_
  · intro hz c hc
    rw [hcore, ← undoCore_congr h.driver] at hc
    cases herr : (w.machine.run s.run).2.2 with
    | none =>
      rw [hreply] at herr
      exact hs.undo_back hz herr hp.ready hp.matched hc
    | some msg =>
      have hfail : ((effect s.run).on w.machine.driver w.machine.toCore).2.2.isSome = true := by
        rw [← hreply, herr]
        rfl
      rw [Effect.on_failed _ _ _ hfail] at hc
      have hidle := hran.resolve_left (by simp [herr])
      exact hs.undo_still hz (hidle hz) hc
  · intro hz
    rw [hcore]
    exact h.noInverse hs hp hz
  · intro name hname
    have hname' : name ∈ ((effect s.run).on w.machine.driver w.machine.toCore).1.ifaces := by
      rw [← hcore]
      exact hname
    rcases hs.mem_run_ifaces.mp hname' with hold | ⟨hok, type, rfl⟩
    · exact Or.inl hold
    · have hv := hs.valid_undo nofun (valid_of_ok hok) hs.undo_isZero
      exact Or.inr ⟨hs.undo_isZero, hs.undo_eq _ rfl hv⟩

/-- A step that failed left its inverse nothing to do. -/
theorem Step.Is.idle_of_failed (hs : s.Is π) (hp : Prepared c₀ s π c) {msg : String}
    (hv : verdict s.run ((effect s.run).on d c).2 = .failed msg) (hz : s.undo.isZero = false)
    (hundo : validateCommand s.undo = none) : π.Idle c := by
  have hsome : π.undo.isSome = true := by
    rw [hs.undo_isZero, Option.isNone_eq_false_iff] at hz
    exact hz
  cases htied : π.tied with
  | true =>
    rw [hs.run_eq (hs.valid htied hsome hundo)] at hv
    exact Pair.idle_of_failed hv hp.ready hs.removal fun name type h =>
      hp.fresh name type h hundo
  | false =>
    cases π with
    | create name type => exact hp.fresh name type rfl hundo
    | knob name value prev => exact hp.ready
    | _ => cases htied

/-- **A step keeps the journal faithful.** -/
theorem Tracks.runStep (h : Tracks d c₀ w) (hs : s.Is π)
    (hp : Prepared c₀ s π w.machine.toCore) :
    Tracks d c₀ (runStep SimulatedKernel.run s w).world := by
  rcases hs.runStep_cases h.ordered with ⟨phase, hlog, hopen, hran⟩ | ⟨phase, hlog, hclosed, hcore⟩
  · refine h.pushRun hs hp rfl hlog hopen (hran.imp_right ?_)
    rintro ⟨msg, hv⟩ hz hundo
    rw [hs.reply_run] at hv
    exact hs.idle_of_failed hp hv hz hundo
  · exact h.settled hs hlog hclosed hcore

end Tracks

/-! ## Killed in the middle of a step -/

/-- What the effect would make is not there. -/
def Effect.Absent (e : Effect) (c : Core) : Prop :=
  match e with
  | addAddr dev pfx => dev ∈ c.ifaces → (dev, pfx) ∉ c.addrs
  | addRoute table pfx => (table, pfx) ∉ c.routes
  | addRule r => r ∉ c.rules
  | _ => True

/-- What the effect would make is not there, and it takes nothing away. -/
def Effect.Unmade (e : Effect) (c : Core) : Prop :=
  match e with
  | delAddr _ _ => False
  | e => e.Absent c

/-- What the effect would make is not there, and what it takes away is. -/
def Effect.Due (e : Effect) (c : Core) : Prop :=
  match e with
  | delAddr dev pfx => dev ∈ c.ifaces ∧ (dev, pfx) ∈ c.addrs
  | e => e.Absent c

/-- The process was not killed at a bad time: a step in the journal that was
not run makes something that is not there and takes nothing away, and one that
was run had something to do. -/
def Moment.Clear (m : Moment SimulatedKernel) : Prop :=
  match m.stage with
  | .quiet => True
  | .begun s => (effect s.run).Unmade m.world.machine.toCore
  | .ran s before => (effect s.run).Due before.toCore

instance (e : Effect) (c : Core) : Decidable (e.Absent c) := by
  cases e <;> unfold Effect.Absent <;> infer_instance

instance (e : Effect) (c : Core) : Decidable (e.Unmade c) := by
  cases e <;> unfold Effect.Unmade <;> infer_instance

instance (e : Effect) (c : Core) : Decidable (e.Due c) := by
  cases e <;> unfold Effect.Due <;> infer_instance

instance : DecidablePred Moment.Clear := by
  rintro ⟨w, stage⟩
  cases stage <;> unfold Moment.Clear <;> infer_instance

section Window

variable {d : Driver} {c₀ : Core} {w : World SimulatedKernel} {s : Step} {π : Pair}

/-- The inverse of a step that makes something new has nothing to do yet. -/
theorem Step.Is.idle_of_unmade (hs : s.Is π) (hp : Prepared c₀ s π c)
    (hun : (effect s.run).Unmade c) (hz : s.undo.isZero = false)
    (hundo : validateCommand s.undo = none) : π.Idle c := by
  have hsome : π.undo.isSome = true := by
    rw [hs.undo_isZero, Option.isNone_eq_false_iff] at hz
    exact hz
  have hrun : π.tied = true → effect s.run = π.run := fun htied =>
    hs.run_eq (hs.valid htied hsome hundo)
  cases π with
  | create name type => exact hp.fresh name type rfl hundo
  | strip dev pfx | addr dev pfx | rule r =>
    rw [hrun rfl] at hun
    exact hun
  | route table pfx table' =>
    rw [hrun rfl] at hun
    obtain rfl : table' = table := hp.matched
    exact hun
  | _ => exact hp.ready

/-- A step that had something to do did it, or its inverse has nothing to do. -/
theorem Step.Is.ok_or_idle_of_due (hs : s.Is π) (hp : Prepared c₀ s π c)
    (hdue : (effect s.run).Due c) :
    ((effect s.run).on d c).2.2 = none ∨
      (s.undo.isZero = false → validateCommand s.undo = none → π.Idle c) := by
  by_cases hstrip : ∃ dev pfx, effect s.run = .delAddr dev pfx
  · obtain ⟨dev, pfx, heff⟩ := hstrip
    left
    rw [heff] at hdue ⊢
    obtain ⟨hd, ha⟩ := hdue
    simp [Effect.on, hd, ha, simOK]
  · right
    refine hs.idle_of_unmade hp ?_
    revert hdue hstrip
    cases effect s.run with
    | delAddr dev pfx => exact fun _ h => absurd ⟨dev, pfx, rfl⟩ h
    | _ => exact fun hdue _ => hdue

/-- **A process killed at a good time leaves a faithful journal.** -/
theorem Tracks.window (h : Tracks d c₀ w) (hs : s.Is π)
    (hp : Prepared c₀ s π w.machine.toCore) :
    ∀ m ∈ runStepVisits SimulatedKernel.run s w, m.Clear → Tracks d c₀ m.world := by
  intro m hm hclear
  simp only [runStepVisits, List.mem_cons, List.not_mem_nil, or_false] at hm
  rcases hm with rfl | rfl
  · refine h.push hs (hs.logs_begin h.ordered rfl) rfl ?_ ?_ ?_
    · intro hz c hc
      exact hs.undo_still hz (hs.idle_of_unmade hp hclear hz) hc
    · intro _
      exact h.faithful
    · intro name hname
      exact Or.inl hname
  · refine h.pushRun hs hp rfl
      (hs.logs_begin h.ordered (w.machine.run_follows s.run).driver) rfl ?_
    rw [hs.reply_run]
    exact hs.ok_or_idle_of_due hp hclear

end Window

end Caspian.Netcfg
