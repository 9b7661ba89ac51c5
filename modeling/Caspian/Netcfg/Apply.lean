import Caspian.Netcfg.Journal

/-!
# Apply, Teardown and Recover

The applier over an arbitrary runner.  `apply` writes the inverse of a step
before it runs the step; `replay` runs the inverses newest first, the
firewall's only after everything else came back; `recover` is `replay` over a
journal left behind.

Besides the three functions there is the list of worlds a run passes through,
`applyVisits`, `recoverVisits` and `teardownVisits`: a process killed at any
point leaves one of them behind.
-/

namespace Caspian.Netcfg

/-- Something commands can be handed to. -/
abbrev Runner (σ : Type) := σ → Command → σ × Reply

/-- What happened to one step. -/
structure StepResult where
  step : Step
  err : Option String := none
  stderr : String := ""
  skipped : Bool := false
  reason : String := ""

/-- The outcome of an apply or a teardown. -/
structure Report where
  results : List StepResult := []
  failed : Nat := 0
  skipped : Nat := 0

/-- `Report.add`. -/
def Report.add (rep : Report) (res : StepResult) : Report where
  results := rep.results ++ [res]
  failed := if res.err.isSome then rep.failed + 1 else rep.failed
  skipped := if res.skipped then rep.skipped + 1 else rep.skipped

/-- The machine and the journal in use. -/
structure World (σ : Type) where
  machine : σ
  journal : Journal

section Apply

variable {σ : Type} (digest : String → String) (run : Runner σ)

/-! ## Apply -/

/-- What a run of a step's command means for the journal. -/
inductive Verdict where
  | done
  | gone
  | existed
  | failed (msg : String)
  deriving DecidableEq

/-- A removal whose object is gone, and a creation whose object exists, changed
nothing; any other error is a failure. -/
def verdict (c : Command) (reply : Reply) : Verdict :=
  match reply.2 with
  | none => .done
  | some msg =>
    if commandRemoves c && isNotFound reply.1 reply.2 then .gone
    else if isAlreadyExists reply.1 reply.2 then .existed
    else .failed msg

/-- `currentState`: for each command line, the command that is in force. -/
def currentState (es : List Entry) : List (String × String) :=
  es.foldl
    (fun state e =>
      if e.run.isZero then state
      else
        match e.phase with
        | .done =>
          (commandLine e.run, runnerKey digest e.run) ::
            state.filter fun kv => kv.1 ≠ commandLine e.run
        | .undone => state.filter fun kv => kv.1 ≠ commandLine e.run
        | _ => state)
    []

/-- This exact change is the one in force. -/
def inForce (state : List (String × String)) (c : Command) : Bool :=
  state.lookup (commandLine c) = some (runnerKey digest c)

/-- The precondition's query: the machine after it, and whether it found the
change in place. -/
def queryPre (s : Step) (m : σ) : σ × Bool :=
  match s.pre with
  | none => (m, false)
  | some pre =>
    let (m', reply) := run m pre.query
    (m', pre.satisfied reply.1 reply.2)

/-- The record that closes a step. -/
def settle (j : Journal) (v : Verdict) (cause : Option String) : Journal :=
  match v with
  | .done => j.done j.seq
  | .gone => j.preexisting j.seq (cause.getD "")
  | .existed => j.preexisting j.seq (cause.getD "")
  | .failed msg => j.failed j.seq msg

/-- The line of the report for a step that was run. -/
def ranResult (s : Step) (v : Verdict) (res : Result) : StepResult :=
  match v with
  | .done => { step := s, stderr := res.stderr }
  | .gone =>
    { step := s, stderr := res.stderr, skipped := true
      reason := "already gone, so nothing was changed and the inverse was retracted" }
  | .existed =>
    { step := s, stderr := res.stderr, skipped := true
      reason := "already existed, so nothing was changed and the inverse was retracted" }
  | .failed msg => { step := s, err := some msg, stderr := res.stderr }

/-- The error `Apply` stops with at a step. -/
def stopError (s : Step) (v : Verdict) : Option String :=
  match v with
  | .failed msg =>
    some ("netcfg: step " ++ Caspian.Verified.Text.quote s.op ++ " failed (" ++
      s.run.text ++ "): " ++ msg)
  | _ => none

/-- Where a step left the world: the report's line, and the error if `Apply`
stops here. -/
structure StepOutcome (σ : Type) where
  world : World σ
  result : Option StepResult := none
  stop : Option String := none

/-- Begin, run, and settle one step on a machine whose precondition was asked. -/
def runStep (s : Step) (w : World σ) : StepOutcome σ :=
  let j := w.journal.begin s
  let (m, reply) := run w.machine s.run
  let v := verdict s.run reply
  { world := { machine := m, journal := settle j v reply.2 }
    result := some (ranResult s v reply.1)
    stop := stopError s v }

/-- One turn of the loop of `Apply`. -/
def applyStep (state : List (String × String)) (s : Step) (w : World σ) :
    StepOutcome σ :=
  if s.run.isZero then { world := w }
  else if inForce digest state s.run then
    { world := w
      result := some
        { step := s, skipped := true
          reason := "this exact change is the one already in force, recorded in the journal" } }
  else
    let asked := queryPre run s w.machine
    let w' : World σ := { w with machine := asked.1 }
    if asked.2 then
      { world := w'
        result := some
          { step := s, skipped := true
            reason := "already present on this machine and not recorded as ours, so it is left alone and no inverse is journalled" } }
    else runStep run s w'

/-- The loop of `Apply`, which stops at the first failure. -/
def applyLoop (state : List (String × String)) :
    List Step → World σ → Report → World σ × Report × Option String
  | [], w, rep => (w, rep, none)
  | s :: rest, w, rep =>
    let out := applyStep digest run state s w
    let rep' := (out.result.map rep.add).getD rep
    match out.stop with
    | some e => (out.world, rep', some e)
    | none => applyLoop state rest out.world rep'

/-- `Applier.Apply`. -/
def apply (steps : List Step) (w : World σ) : World σ × Report × Option String :=
  applyLoop digest run (currentState digest w.journal.entries) steps w {}

/-! ## Where the process can be killed -/

/-- How far the step under way had come. -/
inductive Stage (σ : Type) where
  | quiet
  /-- The step is in the journal and has not been run. -/
  | begun (s : Step)
  /-- The step was run on `before`, and the journal does not say how it went. -/
  | ran (s : Step) (before : σ)

/-- A point at which the process can be killed: the world it leaves behind, and
the step under way. -/
structure Moment (σ : Type) where
  world : World σ
  stage : Stage σ

/-- The points inside `runStep`. -/
def runStepVisits (s : Step) (w : World σ) : List (Moment σ) :=
  [ ⟨{ w with journal := w.journal.begin s }, .begun s⟩,
    ⟨{ machine := (run w.machine s.run).1, journal := w.journal.begin s },
      .ran s w.machine⟩ ]

/-- The points from the start of a turn of the loop to its end. -/
def stepVisits (state : List (String × String)) (s : Step) (w : World σ) :
    List (Moment σ) :=
  ⟨w, .quiet⟩ ::
    (if s.run.isZero || inForce digest state s.run then []
    else
      let asked := queryPre run s w.machine
      let w' : World σ := { w with machine := asked.1 }
      ⟨w', .quiet⟩ :: (if asked.2 then [] else runStepVisits run s w'))

/-- The points of the loop of `Apply`. -/
def loopVisits (state : List (String × String)) :
    List Step → World σ → List (Moment σ)
  | [], w => [⟨w, .quiet⟩]
  | s :: rest, w =>
    let out := applyStep digest run state s w
    stepVisits digest run state s w ++
      match out.stop with
      | some _ => [⟨out.world, .quiet⟩]
      | none => loopVisits state rest out.world

/-- Every point at which a process can be killed during `Apply`. -/
def applyVisits (steps : List Step) (w : World σ) : List (Moment σ) :=
  loopVisits digest run (currentState digest w.journal.entries) steps w

/-! ## Replay -/

/-- The state of a replay: the machine, the journal if progress is recorded in
one, the report so far, and what could not be undone, newest first. -/
structure Replay (σ : Type) where
  machine : σ
  journal : Option Journal
  report : Report := {}
  remaining : List Entry := []

/-- The step a replayed entry is reported as. -/
def Entry.undoStep (e : Entry) : Step :=
  { op := e.op, why := e.why, run := e.undo, undo := e.run }

/-- `undoOne`: replay a single inverse. -/
def undoOne (e : Entry) (st : Replay σ) : Replay σ :=
  let (m, reply) := run st.machine e.undo
  let recorded := st.journal.map fun j => j.undone e.seq
  if alreadyGone e.undo reply then
    { st with
      machine := m, journal := recorded
      report := st.report.add
        { step := e.undoStep, stderr := reply.1.stderr, skipped := true
          reason := "nothing to undo: the object was already gone" } }
  else
    let report := st.report.add
      { step := e.undoStep, err := reply.2, stderr := reply.1.stderr }
    if reply.2.isSome then
      { st with machine := m, report := report, remaining := st.remaining ++ [e] }
    else { st with machine := m, journal := recorded, report := report }

/-- Hold the firewall: it is not attempted, and stays in the journal. -/
def holdEntry (e : Entry) (st : Replay σ) : Replay σ :=
  { st with
    report := st.report.add
      { step := e.undoStep, skipped := true
        reason := "held: an earlier inverse failed, so the fail-closed ruleset stays " ++
          "loaded rather than being taken away from a machine that is still " ++
          "carrying routes, addresses or forwarding. It stays in the journal and " ++
          "the next start retries it" }
    remaining := st.remaining ++ [e] }

/-- The entries of pass one, newest first: everything that is not the firewall. -/
def passOne (es : List Entry) : List Entry :=
  es.reverse.filter fun e => e.needsUndo && e.op ≠ opNft

/-- The entries of pass two, newest first. -/
def passTwo (es : List Entry) : List Entry :=
  es.reverse.filter fun e => e.needsUndo && e.op = opNft

/-- One entry of pass two: held if anything failed. -/
def undoFirewall (e : Entry) (st : Replay σ) : Replay σ :=
  if 0 < st.report.failed then holdEntry e st else undoOne run e st

/-- `replay`, with the remainder still newest first. -/
def replayPasses (es : List Entry) (st : Replay σ) : Replay σ :=
  (passTwo es).foldl (fun st e => undoFirewall run e st)
    ((passOne es).foldl (fun st e => undoOne run e st) st)

/-- `replay`: the end state and what could not be undone, in apply order. -/
def replay (es : List Entry) (m : σ) (j : Option Journal) : Replay σ :=
  let st := replayPasses run es { machine := m, journal := j }
  { st with remaining := st.remaining.reverse }

/-- `Teardown`: replay with progress recorded, then rewrite the journal. -/
def teardown (w : World σ) : σ × List Record × Report :=
  let st := replay run w.journal.entries w.machine (some w.journal)
  (st.machine, rewriteJournal st.remaining, st.report)

/-- `Recover`: replay a journal left behind.  A journal with no entries is left
as it is. -/
def recover (m : σ) (rs : List Record) : σ × List Record × Report :=
  let es := entriesOf rs
  if es.isEmpty then (m, rs, {})
  else
    let st := replay run es m none
    (st.machine, rewriteJournal st.remaining, st.report)

/-! ## Where a replay can be killed -/

/-- A point at which a replay can be killed: the machine and the records it
leaves behind, and the inverses it has run that no record shows as undone. -/
structure Halt (σ : Type) where
  machine : σ
  records : List Record
  ran : List Entry

/-- The entries in the order `replay` takes them, and whether an entry is held
when anything failed. -/
def turns (es : List Entry) : List (Bool × Entry) :=
  (passOne es).map (fun e => (false, e)) ++ (passTwo es).map fun e => (true, e)

/-- One turn of either pass. -/
def replayTurn (t : Bool × Entry) (st : Replay σ) : Replay σ :=
  if t.1 then undoFirewall run t.2 st else undoOne run t.2 st

/-- The records in the file: progress is written to the journal in use, and
otherwise not at all. -/
def onDisk (rs : List Record) : Option Journal → List Record
  | none => rs
  | some j => j.records

/-- The points of a replay: before each turn, and between an inverse and the
record that it was run. -/
def turnVisits (rs : List Record) :
    List Entry → List (Bool × Entry) → Replay σ → List (Halt σ)
  | ran, [], st => [⟨st.machine, onDisk rs st.journal, ran⟩]
  | ran, t :: ts, st =>
    let st' := replayTurn run t st
    ⟨st.machine, onDisk rs st.journal, ran⟩ ::
      (if t.1 && 0 < st.report.failed then turnVisits rs ran ts st'
      else
        ⟨(run st.machine t.2.undo).1, onDisk rs st.journal, ran ++ [t.2]⟩ ::
          turnVisits rs (if st'.journal = st.journal then ran ++ [t.2] else ran) ts st')

/-- Every point at which `Recover` can be killed before the journal is
rewritten. -/
def recoverVisits (m : σ) (rs : List Record) : List (Halt σ) :=
  turnVisits run rs [] (turns (entriesOf rs)) { machine := m, journal := none }

/-- Every point at which `Teardown` can be killed before the journal is
rewritten. -/
def teardownVisits (w : World σ) : List (Halt σ) :=
  turnVisits run [] [] (turns w.journal.entries)
    { machine := w.machine, journal := some w.journal }

theorem replayPasses_turns (es : List Entry) (st : Replay σ) :
    replayPasses run es st = (turns es).foldl (fun st t => replayTurn run t st) st := by
  simp only [replayPasses, turns, List.foldl_append, List.foldl_map]
  rfl

/-! ## The journal along a run -/

/-- The phase a verdict leaves the entry in. -/
def Verdict.phase : Verdict → Phase
  | .done => .done
  | .gone => .preexisting
  | .existed => .preexisting
  | .failed _ => .failed

/-- A step that was run closes with a record of its verdict. -/
theorem settle_begin (j : Journal) (s : Step) (v : Verdict) (cause : Option String) :
    ∃ err, settle (j.begin s) v cause = (j.begin s).mark (j.seq + 1) v.phase err := by
  cases v with
  | _ => exact ⟨_, rfl⟩

theorem Verdict.phase_ne_begin (v : Verdict) : v.phase ≠ .begin := by
  cases v <;> simp [Verdict.phase]

variable {w : World σ}

theorem ordered_runStep (s : Step) (hj : w.journal.Ordered) :
    (runStep run s w).world.journal.Ordered := by
  obtain ⟨err, hsettle⟩ :=
    settle_begin w.journal s (verdict s.run (run w.machine s.run).2) (run w.machine s.run).2.2
  show (settle (w.journal.begin s) _ _).Ordered
  rw [hsettle]
  exact Journal.ordered_mark hj s (Verdict.phase_ne_begin _) err

/-- The journal after a step has one more entry. -/
theorem entries_runStep {s : Step} (hs : s.run.isZero = false) (hj : w.journal.Ordered) :
    (runStep run s w).world.journal.entries =
      w.journal.entries ++ [s.entry (w.journal.seq + 1)
        (verdict s.run (run w.machine s.run).2).phase] := by
  obtain ⟨err, hsettle⟩ :=
    settle_begin w.journal s (verdict s.run (run w.machine s.run).2) (run w.machine s.run).2.2
  show (settle (w.journal.begin s) _ _).entries = _
  rw [hsettle]
  exact Journal.entries_mark hj hs (Verdict.phase_ne_begin _) err

/-! ## Rules for runs -/

/-- The loop ends where its last point is. -/
theorem loopVisits_last (state : List (String × String)) (steps : List Step) (w : World σ)
    (rep : Report) :
    (loopVisits digest run state steps w).getLast? =
      some ⟨(applyLoop digest run state steps w rep).1, .quiet⟩ := by
  induction steps generalizing w rep with
  | nil => rfl
  | cons s rest ih =>
    simp only [loopVisits, applyLoop]
    cases (applyStep digest run state s w).stop with
    | some e => simp
    | none =>
      simp only
      rw [List.getLast?_append, ih]
      rfl

/-- **The last point of `Apply` is the world it returns.** -/
theorem applyVisits_last (steps : List Step) (w : World σ) :
    (applyVisits digest run steps w).getLast? =
      some ⟨(apply digest run steps w).1, .quiet⟩ :=
  loopVisits_last digest run _ steps w {}

variable {state : List (String × String)} {steps : List Step}

/-- The rule for `Apply`: an invariant of the steps still to come and the world,
kept by skipping a step, by asking and by running one, gives a property of
every point. -/
theorem loopVisits_forall {I : List Step → World σ → Prop} {J : Moment σ → Prop}
    (hquiet : ∀ l w, I l w → J ⟨w, .quiet⟩) (hskip : ∀ s l w, I (s :: l) w → I l w)
    (hask : ∀ s l w, I (s :: l) w → I (s :: l) { w with machine := (queryPre run s w.machine).1 })
    (hrun : ∀ s l w m, I (s :: l) w → s.run.isZero = false → inForce digest state s.run = false →
      queryPre run s m = (w.machine, false) → (∀ v ∈ runStepVisits run s w, J v) ∧
        J ⟨(runStep run s w).world, .quiet⟩ ∧
          ((runStep run s w).stop = none → I l (runStep run s w).world))
    (hI : I steps w) :
    ∀ v ∈ loopVisits digest run state steps w, J v := by
  induction steps generalizing w with
  | nil =>
    intro v hv
    rw [List.mem_singleton.mp hv]
    exact hquiet _ _ hI
  | cons s rest ih =>
    -- A skipped step leaves the world of the first two points.
    have hnext : ∀ w' : World σ, I (s :: rest) w' →
        ∀ v ∈ loopVisits digest run state rest w', J v :=
      fun w' hw' => ih (hskip _ _ _ hw')
    have hasked := hask _ _ _ hI
    intro v hv
    simp only [loopVisits, stepVisits, applyStep] at hv
    cases hz : s.run.isZero with
    | true =>
      simp only [hz, Bool.true_or, if_true, List.cons_append, List.nil_append,
        List.mem_cons] at hv
      rcases hv with rfl | hv
      · exact hquiet _ _ hI
      · exact hnext w hI v hv
    | false =>
      cases hf : inForce digest state s.run with
      | true =>
        simp only [hz, hf, Bool.or_true, if_true, Bool.false_eq_true, if_false,
          List.cons_append, List.nil_append, List.mem_cons] at hv
        rcases hv with rfl | hv
        · exact hquiet _ _ hI
        · exact hnext w hI v hv
      | false =>
        simp only [hz, hf, Bool.or_self, Bool.false_eq_true, if_false,
          List.cons_append, List.mem_cons] at hv
        rcases hv with rfl | rfl | hv
        · exact hquiet _ _ hI
        · exact hquiet _ _ hasked
        · cases ha : (queryPre run s w.machine).2 with
          | true =>
            simp only [ha, if_true, List.nil_append] at hv
            exact hnext _ hasked v hv
          | false =>
            have hq : queryPre run s w.machine =
                ((queryPre run s w.machine).1, false) := by rw [← ha]
            obtain ⟨hin, hend, hgo⟩ := hrun _ _ _ w.machine hasked hz hf hq
            simp only [ha, Bool.false_eq_true, if_false, List.mem_append] at hv
            rcases hv with hv | hv
            · exact hin v hv
            · split at hv
              · rw [List.mem_singleton.mp hv]
                exact hend
              next hstop => exact ih (hgo hstop) v hv

/-- The rule for machines: what every command of the steps keeps, `Apply`
keeps. -/
theorem loopVisits_machine {P : σ → Prop} (hstep : ∀ s ∈ steps, ∀ m, P m → P (run m s.run).1)
    (hpre : ∀ s ∈ steps, ∀ q, s.pre = some q → ∀ m, P m → P (run m q.query).1) (hw : P w.machine) :
    ∀ v ∈ loopVisits digest run state steps w, P v.world.machine := by
  refine loopVisits_forall digest run
    (I := fun l w => (∀ s ∈ l, s ∈ steps) ∧ P w.machine)
    (fun l w h => h.2) (fun s l w h => ⟨fun s' hs' => h.1 s' (by simp [hs']), h.2⟩)
    ?_ ?_ ⟨fun _ h => h, hw⟩
  · rintro s l w ⟨hl, hP⟩
    refine ⟨hl, ?_⟩
    unfold queryPre
    split
    · exact hP
    next q hq => exact hpre s (hl s (by simp)) q hq _ hP
  · rintro s l w m ⟨hl, hP⟩ _ _ _
    have hran := hstep s (hl s (by simp)) _ hP
    refine ⟨?_, hran, fun _ => ⟨fun s' hs' => hl s' (by simp [hs']), hran⟩⟩
    intro v hv
    simp only [runStepVisits, List.mem_cons, List.not_mem_nil, or_false] at hv
    rcases hv with rfl | rfl
    · exact hP
    · exact hran

/-- The rule for journals: what is true of the entries there were and of every
entry of a step, is true of every entry. -/
theorem loopVisits_entries {Q : Entry → Prop}
    (hstep : ∀ s ∈ steps, ∀ seq phase, Q (s.entry seq phase)) (hord : w.journal.Ordered)
    (hw : ∀ e ∈ w.journal.entries, Q e) :
    ∀ v ∈ loopVisits digest run state steps w,
      v.world.journal.Ordered ∧ ∀ e ∈ v.world.journal.entries, Q e := by
  refine loopVisits_forall digest run
    (I := fun l w => (∀ s ∈ l, s ∈ steps) ∧ w.journal.Ordered ∧ ∀ e ∈ w.journal.entries, Q e)
    (fun l w h => h.2) (fun s l w h => ⟨fun s' hs' => h.1 s' (by simp [hs']), h.2⟩)
    (fun s l w h => h) ?_ ⟨fun _ h => h, hord, hw⟩
  rintro s l w m ⟨hl, hj, hQ⟩ hz _ _
  have hs : s ∈ steps := hl s (by simp)
  have hnew : ∀ seq phase, ∀ e ∈ w.journal.entries ++ [s.entry seq phase], Q e := by
    intro seq phase e he
    rcases List.mem_append.mp he with he | he
    · exact hQ e he
    · rw [List.mem_singleton.mp he]
      exact hstep s hs seq phase
  have hbegin : (w.journal.begin s).Ordered ∧ ∀ e ∈ (w.journal.begin s).entries, Q e := by
    refine ⟨Journal.ordered_begin hj s, ?_⟩
    rw [Journal.entries_begin hj hz]
    exact hnew _ _
  have hran : (runStep run s w).world.journal.Ordered ∧
      ∀ e ∈ (runStep run s w).world.journal.entries, Q e := by
    refine ⟨ordered_runStep run s hj, ?_⟩
    rw [entries_runStep run hz hj]
    exact hnew _ _
  refine ⟨?_, hran, fun _ => ⟨fun s' hs' => hl s' (by simp [hs']), hran⟩⟩
  intro v hv
  simp only [runStepVisits, List.mem_cons, List.not_mem_nil, or_false] at hv
  rcases hv with rfl | rfl <;> exact hbegin

/-- The rule for an `Apply` that went through: only steps that did not fail
have to keep the invariant. -/
theorem applyLoop_complete {I : List Step → World σ → Prop}
    (hskip : ∀ s l w, I (s :: l) w → I l w)
    (hask : ∀ s l w, I (s :: l) w → I (s :: l) { w with machine := (queryPre run s w.machine).1 })
    (hrun : ∀ s l w, I (s :: l) w → s.run.isZero = false → (runStep run s w).stop = none →
      I l (runStep run s w).world)
    {rep : Report} (hI : I steps w) (h : (applyLoop digest run state steps w rep).2.2 = none) :
    I [] (applyLoop digest run state steps w rep).1 := by
  induction steps generalizing w rep with
  | nil => exact hI
  | cons s rest ih =>
    simp only [applyLoop] at h ⊢
    split at h
    · cases h
    next hstop =>
      refine ih ?_ h
      unfold applyStep at hstop ⊢
      split
      · exact hskip _ _ _ hI
      next hz =>
        rw [if_neg hz] at hstop
        split
        · exact hskip _ _ _ hI
        next hf =>
          rw [if_neg hf] at hstop
          simp only at hstop ⊢
          split
          · exact hskip _ _ _ (hask _ _ _ hI)
          next ha =>
            rw [if_neg ha] at hstop
            exact hrun _ _ _ (hask _ _ _ hI) (by simpa using hz) hstop

/-- The rule for the world `Apply` returns. -/
theorem apply_of_visits {J : Moment σ → Prop} (h : ∀ v ∈ applyVisits digest run steps w, J v) :
    J ⟨(apply digest run steps w).1, .quiet⟩ :=
  h _ (List.mem_of_getLast? (applyVisits_last digest run steps w))

end Apply

end Caspian.Netcfg
