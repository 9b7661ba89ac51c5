import Caspian.Netcfg.Apply

/-!
# What is left after replays

`Teardown` and `Recover` run inverses in two passes, keep what could not be
undone, and write it back under the old numbers; the next call reads it again.
`runCalls` is a sequence of such calls on any machine, and `callsAttempts` the
inverses it ran with what became of each.  The two are tied by one equation: the
journal holds the entries there were, in their order, without those an attempt
settled.
-/

namespace Caspian.Netcfg

open List (Perm)

/-! ## Attempts -/

/-- An inverse that was run, and the answer. -/
structure Attempt where
  entry : Entry
  reply : Reply

/-- The inverse went through, or its object was gone. -/
def Attempt.settled (a : Attempt) : Bool :=
  a.reply.2.isNone || alreadyGone a.entry.undo a.reply

/-- Some attempt settled the entry of this number. -/
def settledBy (as : List Attempt) (seq : Int) : Bool :=
  as.any fun a => a.settled && a.entry.seq = seq

/-- After an attempt that was settled its entry is not attempted again. -/
def NeverAgain (as : List Attempt) : Prop :=
  as.Pairwise fun a b => a.settled = true → b.entry.seq ≠ a.entry.seq

theorem settledBy_append (as bs : List Attempt) (seq : Int) :
    settledBy (as ++ bs) seq = (settledBy as seq || settledBy bs seq) := by
  simp [settledBy]

theorem settledBy_eq_false {as : List Attempt} {seq : Int}
    (h : ∀ a ∈ as, a.entry.seq ≠ seq) : settledBy as seq = false := by
  rw [settledBy, List.any_eq_false]
  intro a ha
  simp [h a ha]

variable {a : Attempt}

section Turns

variable {σ : Type} (run : Runner σ)

/-- The attempt a turn makes, if it does not hold its entry. -/
def turnAttempts (t : Bool × Entry) (st : Replay σ) : List Attempt :=
  if t.1 && decide (0 < st.report.failed) then []
  else [{ entry := t.2, reply := (run st.machine t.2.undo).2 }]

/-- The attempts of the turns of a replay. -/
def attempts : List (Bool × Entry) → Replay σ → List Attempt
  | [], _ => []
  | t :: ts, st => turnAttempts run t st ++ attempts ts (replayTurn run t st)

variable {ts : List (Bool × Entry)}

theorem entry_of_mem_attempts {st : Replay σ} (h : a ∈ attempts run ts st) :
    a.entry ∈ ts.map Prod.snd := by
  induction ts generalizing st with
  | nil => cases h
  | cons t ts ih =>
    rw [attempts, List.mem_append] at h
    rcases h with h | h
    · unfold turnAttempts at h
      split at h
      · cases h
      · rw [List.mem_singleton.mp h]
        exact List.mem_cons_self
    · exact List.mem_cons_of_mem _ (ih h)

/-! ## One turn -/

/-- An inverse that is run is kept, and counted as failed, unless it is
settled. -/
theorem undoOne_accounts (e : Entry) (st : Replay σ) :
    let a : Attempt := { entry := e, reply := (run st.machine e.undo).2 }
    (undoOne run e st).remaining = st.remaining ++ (if a.settled then [] else [e]) ∧
      (undoOne run e st).report.failed =
        st.report.failed + (if a.settled then 0 else 1) := by
  intro a
  cases hgone : alreadyGone e.undo (run st.machine e.undo).2 with
  | true =>
    have hs : a.settled = true := by simp only [Attempt.settled, a, hgone, Bool.or_true]
    simp [undoOne, hgone, hs, Report.add]
  | false =>
    cases hreply : (run st.machine e.undo).2.2 with
    | none =>
      have hs : a.settled = true := by simp [Attempt.settled, a, hreply]
      simp [undoOne, hgone, hreply, hs, Report.add]
    | some msg =>
      have hs : a.settled = false := by simp [Attempt.settled, a, hreply, hgone]
      simp [undoOne, hgone, hreply, hs, Report.add]

/-- A turn keeps its entry unless it settles it, and the failures it counts are
the attempts it did not settle. -/
theorem replayTurn_accounts (t : Bool × Entry) (st : Replay σ) :
    (replayTurn run t st).remaining =
        st.remaining ++ (if settledBy (turnAttempts run t st) t.2.seq then [] else [t.2]) ∧
      (replayTurn run t st).report.failed =
        st.report.failed + (turnAttempts run t st).countP fun a => !a.settled := by
  by_cases hheld : (t.1 && decide (0 < st.report.failed)) = true
  · obtain ⟨hfire, hfailed⟩ := Bool.and_eq_true_iff.mp hheld
    rw [decide_eq_true_eq] at hfailed
    simp only [replayTurn, turnAttempts, hfire, undoFirewall, if_pos hfailed, holdEntry]
    simp [settledBy, Report.add, hfailed]
  · have hrun : replayTurn run t st = undoOne run t.2 st := by
      unfold replayTurn undoFirewall
      rw [Bool.and_eq_true, decide_eq_true_eq, not_and] at hheld
      by_cases hfire : t.1 = true
      · rw [if_pos hfire, if_neg (hheld hfire)]
      · rw [if_neg hfire]
    obtain ⟨hrem, hfail⟩ := undoOne_accounts run t.2 st
    rw [hrun, turnAttempts, if_neg hheld, hrem, hfail]
    constructor
    · simp [settledBy]
    · rw [List.countP_singleton]
      cases Attempt.settled _ <;> rfl

/-! ## The passes -/

/-- The passes keep the entries no attempt settled. -/
theorem remaining_turns (hts : (ts.map fun t => t.2.seq).Nodup) (st : Replay σ) :
    (ts.foldl (fun st t => replayTurn run t st) st).remaining =
      st.remaining ++
        (ts.map Prod.snd).filter fun e => !settledBy (attempts run ts st) e.seq := by
  induction ts generalizing st with
  | nil => simp
  | cons t ts ih =>
    rw [List.map_cons, List.nodup_cons] at hts
    obtain ⟨hnew, hts⟩ := hts
    have hlater : settledBy (attempts run ts (replayTurn run t st)) t.2.seq = false := by
      refine settledBy_eq_false fun a ha heq => hnew ?_
      obtain ⟨u, hu, hue⟩ := List.mem_map.mp (entry_of_mem_attempts run ha)
      exact List.mem_map.mpr ⟨u, hu, by rw [hue, heq]⟩
    have hother : ∀ e ∈ ts.map Prod.snd, settledBy (turnAttempts run t st) e.seq = false := by
      intro e he
      refine settledBy_eq_false fun a ha heq => hnew ?_
      have hae : a.entry = t.2 := by
        unfold turnAttempts at ha
        split at ha
        · cases ha
        · rw [List.mem_singleton.mp ha]
      obtain ⟨u, hu, rfl⟩ := List.mem_map.mp he
      exact List.mem_map.mpr ⟨u, hu, by rw [← heq, hae]⟩
    rw [List.foldl_cons, ih hts, (replayTurn_accounts run t st).1, attempts, List.map_cons,
      List.filter_cons, settledBy_append, hlater, Bool.or_false, List.append_assoc]
    congr 1
    have hrest : (ts.map Prod.snd).filter
          (fun e => !settledBy (turnAttempts run t st ++ attempts run ts (replayTurn run t st))
            e.seq) =
        (ts.map Prod.snd).filter
          fun e => !settledBy (attempts run ts (replayTurn run t st)) e.seq := by
      refine List.filter_congr fun e he => ?_
      rw [settledBy_append, hother e he, Bool.false_or]
    rw [hrest]
    cases settledBy (turnAttempts run t st) t.2.seq <;> rfl

/-- While nothing has failed nothing is held, so passes all of whose attempts
are settled keep nothing. -/
theorem remaining_of_settled {st : Replay σ} (hst : st.report.failed = 0)
    (h : ∀ a ∈ attempts run ts st, a.settled = true) :
    (ts.foldl (fun st t => replayTurn run t st) st).remaining = st.remaining := by
  induction ts generalizing st with
  | nil => rfl
  | cons t ts ih =>
    have hown : ∀ a ∈ turnAttempts run t st, a.settled = true := fun a ha =>
      h a (List.mem_append_left _ ha)
    obtain ⟨hrem, hfail⟩ := replayTurn_accounts run t st
    have hnone : (replayTurn run t st).report.failed = 0 := by
      rw [hfail, hst, List.countP_eq_zero.mpr fun a ha => by simp [hown a ha]]
    have hmade : turnAttempts run t st =
        [{ entry := t.2, reply := (run st.machine t.2.undo).2 }] := by
      simp [turnAttempts, hst]
    rw [List.foldl_cons, ih hnone fun a ha => h a (List.mem_append_right _ ha), hrem, hmade]
    rw [hmade] at hown
    simp [settledBy, hown _ (List.mem_singleton.mpr rfl)]

/-- In one replay no entry is attempted twice. -/
theorem pairwise_attempts (hts : (ts.map fun t => t.2.seq).Nodup) (st : Replay σ) :
    (attempts run ts st).Pairwise fun a b => b.entry.seq ≠ a.entry.seq := by
  induction ts generalizing st with
  | nil => exact List.Pairwise.nil
  | cons t ts ih =>
    rw [List.map_cons, List.nodup_cons] at hts
    obtain ⟨hnew, hts⟩ := hts
    rw [attempts, turnAttempts]
    split
    · exact ih hts _
    · refine List.pairwise_cons.mpr ⟨fun b hb heq => hnew ?_, ih hts _⟩
      obtain ⟨u, hu, hue⟩ := List.mem_map.mp (entry_of_mem_attempts run hb)
      exact List.mem_map.mpr ⟨u, hu, by rw [hue, heq]⟩

end Turns

/-! ## The journal a replay writes -/

/-- The entry as a rewritten journal has it. -/
def Entry.retried (e : Entry) : Entry := { e with phase := .begin }

variable {es : List Entry}

theorem Numbered.nodup_seq (h : Numbered es) : (es.map Entry.seq).Nodup :=
  List.pairwise_map.mpr (h.imp fun {_ _} hlt => hlt.ne)

/-- A record of a number not yet in use adds an entry. -/
theorem upsert_fresh {r : Record} (h : ∀ e ∈ es, e.seq ≠ r.seq) :
    Perm (upsert r es) (Entry.absorb { seq := r.seq } r :: es) := by
  induction es with
  | nil => exact Perm.refl _
  | cons e es ih =>
    have he : ¬r.seq = e.seq := Ne.symm (h e List.mem_cons_self)
    simp only [upsert, if_neg he]
    split
    · exact Perm.refl _
    · have hrest := ih fun e' he' => h e' (List.mem_cons_of_mem _ he')
      exact (hrest.cons e).trans (Perm.swap _ _ _)

/-- A rewritten journal holds its entries, whatever order they are written in. -/
theorem rawEntries_rewriteJournal (h : (es.map Entry.seq).Nodup) :
    Perm (rawEntries (rewriteJournal es)) (es.map Entry.retried) := by
  have hfold : ∀ (es acc : List Entry), (es.map Entry.seq).Nodup →
      (∀ e ∈ es, ∀ e' ∈ acc, e'.seq ≠ e.seq) →
      Perm ((rewriteJournal es).foldl (fun es r => upsert r es) acc)
        (acc ++ es.map Entry.retried) := by
    intro es
    induction es with
    | nil => exact fun acc _ _ => by simp [rewriteJournal]
    | cons e es ih =>
      intro acc hnodup hacc
      rw [List.map_cons, List.nodup_cons] at hnodup
      obtain ⟨hnew, hnodup⟩ := hnodup
      -- The record of `e` adds `e.retried`, whose number no later record has.
      have hone : Perm (upsert _ acc) (e.retried :: acc) :=
        upsert_fresh
          (r :=
            { seq := e.seq, phase := .begin, op := e.op, why := e.why
              run := e.run, undo := e.undo })
          (hacc e List.mem_cons_self)
      refine (ih (upsert _ acc) hnodup ?_).trans ((hone.append_right _).trans ?_)
      · intro b hb e' he'
        rcases List.mem_cons.mp (hone.mem_iff.mp he') with rfl | he'
        · intro heq
          exact hnew (List.mem_map.mpr ⟨b, hb, heq.symm⟩)
        · exact hacc b (List.mem_cons_of_mem _ hb) e' he'
      · exact List.perm_middle.symm
  simpa [rawEntries] using hfold es [] h (by simp)

/-- Numbered lists with the same entries are the same. -/
theorem Numbered.eq_of_perm {es' : List Entry} (h : Numbered es) (h' : Numbered es')
    (hperm : Perm es es') : es = es' :=
  hperm.eq_of_pairwise (fun _ _ _ _ hab hba => absurd hab (not_lt.mpr hba.le)) h h'

theorem numbered_retried (h : Numbered es) : Numbered (es.map Entry.retried) :=
  List.pairwise_map.mpr h

/-- **What is read back from a rewritten journal**: what was to be written, in
order of number. -/
theorem entriesOf_rewriteJournal {left : List Entry} (h : Numbered es) (hperm : Perm left es)
    (hkept : ∀ e ∈ es, e.kept = true) : entriesOf (rewriteJournal left) = es.map Entry.retried := by
  have hnodup : (left.map Entry.seq).Nodup := (hperm.map _).nodup_iff.mpr h.nodup_seq
  have hraw : rawEntries (rewriteJournal left) = es.map Entry.retried :=
    (numbered_rawEntries _).eq_of_perm (numbered_retried h)
      ((rawEntries_rewriteJournal hnodup).trans (hperm.map _))
  rw [entriesOf, hraw, List.filter_eq_self]
  intro e he
  obtain ⟨e', he', rfl⟩ := List.mem_map.mp he
  exact hkept e' he'

/-- The turns of a replay take the entries that need undoing, each once. -/
theorem turns_perm (es : List Entry) :
    Perm ((turns es).map Prod.snd) (es.filter Entry.needsUndo) := by
  have hsplit : (turns es).map Prod.snd =
      ((es.filter Entry.needsUndo).filter fun e => e.op ≠ opNft).reverse ++
        ((es.filter Entry.needsUndo).filter fun e => !decide (e.op ≠ opNft)).reverse := by
    simp [turns, passOne, passTwo, Function.comp_def, List.filter_filter, List.filter_reverse,
      Bool.and_comm]
  rw [hsplit]
  exact ((List.reverse_perm _).append (List.reverse_perm _)).trans
    (List.filter_append_perm _ _)

/-! ## Calls -/

/-- The calls that replay a journal. -/
inductive Call where
  | teardown
  | recover
  deriving DecidableEq

section Calls

variable {σ : Type} (run : Runner σ)

/-- The journal a call records its progress in. -/
def Call.journal (c : Call) (rs : List Record) : Option Journal :=
  match c with
  | .teardown => some (Journal.openOn rs)
  | .recover => none

/-- A call that completed: the machine and the records it leaves. -/
def runCall (c : Call) (st : σ × List Record) : σ × List Record :=
  match c with
  | .teardown =>
    let out := teardown run { machine := st.1, journal := Journal.openOn st.2 }
    (out.1, out.2.1)
  | .recover =>
    let out := recover run st.1 st.2
    (out.1, out.2.1)

/-- The inverses a call runs. -/
def callAttempts (c : Call) (st : σ × List Record) : List Attempt :=
  attempts run (turns (entriesOf st.2)) { machine := st.1, journal := c.journal st.2 }

/-- A sequence of completed calls. -/
def runCalls (cs : List Call) (st : σ × List Record) : σ × List Record :=
  cs.foldl (fun st c => runCall run c st) st

/-- The inverses a sequence of calls runs. -/
def callsAttempts : List Call → σ × List Record → List Attempt
  | [], _ => []
  | c :: cs, st => callAttempts run c st ++ callsAttempts cs (runCall run c st)

/-- The entries that needed undoing and that no attempt settled. -/
def unsettled (as : List Attempt) (es : List Entry) : List Entry :=
  es.filter fun e => !settledBy as e.seq && e.needsUndo

theorem numbered_unsettled (as : List Attempt) (h : Numbered es) : Numbered (unsettled as es) :=
  h.filter _

/-! ## One call -/

theorem nodup_turns (hes : Numbered es) : ((turns es).map fun t => t.2.seq).Nodup := by
  have hperm := (turns_perm es).map Entry.seq
  rw [List.map_map] at hperm
  exact hperm.nodup_iff.mpr (Numbered.nodup_seq (hes.filter _))

/-- What a replay keeps, up to order: what needed undoing and was not
settled. -/
theorem replay_remaining_perm (hes : Numbered es) (m : σ) (j : Option Journal) :
    Perm (replay run es m j).remaining
      (unsettled (attempts run (turns es) { machine := m, journal := j }) es) := by
  rw [replay, replayPasses_turns, remaining_turns run (nodup_turns hes)]
  refine (List.reverse_perm _).trans ?_
  rw [List.nil_append, unsettled, ← List.filter_filter]
  exact (turns_perm es).filter _

/-- A call leaves what needed undoing and was not settled. -/
theorem entries_runCall (c : Call) (st : σ × List Record) :
    entriesOf (runCall run c st).2 =
      (unsettled (callAttempts run c st) (entriesOf st.2)).map Entry.retried := by
  have hnum := numbered_entriesOf st.2
  have hwrite : ∀ j : Option Journal,
      entriesOf (rewriteJournal (replay run (entriesOf st.2) st.1 j).remaining) =
        (unsettled (attempts run (turns (entriesOf st.2)) { machine := st.1, journal := j })
          (entriesOf st.2)).map Entry.retried := fun j =>
    entriesOf_rewriteJournal (numbered_unsettled _ hnum) (replay_remaining_perm run hnum st.1 j)
      fun e he => (List.mem_filter.mp (List.mem_filter.mp he).1).2
  cases c with
  | teardown => exact hwrite _
  | recover =>
    by_cases hempty : (entriesOf st.2).isEmpty = true
    · have hnil := List.isEmpty_iff.mp hempty
      have hsame : (runCall run .recover st).2 = st.2 := by
        simp only [runCall, recover, if_pos hempty]
      rw [hsame, hnil]
      rfl
    · simp only [runCall, recover, if_neg hempty]
      exact hwrite none

variable {st : σ × List Record}

/-- A call attempts entries that need undoing. -/
theorem mem_callAttempts {c : Call} (h : a ∈ callAttempts run c st) :
    a.entry ∈ (entriesOf st.2).filter Entry.needsUndo :=
  (turns_perm _).mem_iff.mp (entry_of_mem_attempts run h)

/-- **A call in which nothing fails** leaves nothing. -/
theorem entries_runCall_of_settled {c : Call} (h : ∀ a ∈ callAttempts run c st, a.settled = true) :
    entriesOf (runCall run c st).2 = [] := by
  have hleft : (replay run (entriesOf st.2) st.1 (c.journal st.2)).remaining = [] := by
    rw [replay, replayPasses_turns, remaining_of_settled run rfl h]
    rfl
  have hperm := replay_remaining_perm run (numbered_entriesOf st.2) st.1 (c.journal st.2)
  rw [hleft] at hperm
  rw [entries_runCall, callAttempts, hperm.symm.eq_nil]
  rfl

/-! ## Sequences of calls -/

theorem needsUndo_retried {e : Entry} (h : e.needsUndo = true) :
    e.retried.needsUndo = true := by
  have hundo : (!e.undo.isZero) = true := by
    unfold Entry.needsUndo at h
    split at h
    · cases h
    · cases h
    · exact h
  exact hundo

/-- Attempts on top of attempts: what the first leave is what the second start
from. -/
theorem unsettled_retried (as bs : List Attempt) (es : List Entry) :
    (unsettled bs ((unsettled as es).map Entry.retried)).map Entry.retried =
      (unsettled (as ++ bs) es).map Entry.retried := by
  simp only [unsettled, List.filter_map, List.map_map, List.filter_filter]
  congr 1
  refine List.filter_congr fun e _ => ?_
  simp only [Function.comp, settledBy_append, Bool.not_or]
  show (!settledBy bs e.seq && e.retried.needsUndo && (!settledBy as e.seq && e.needsUndo)) = _
  cases hneeds : e.needsUndo with
  | false => simp
  | true => rw [needsUndo_retried hneeds, Bool.and_true, Bool.and_true, Bool.and_true,
      Bool.and_comm]

/-- What a sequence of calls leaves. -/
theorem entries_runCalls (c : Call) (cs : List Call) (st : σ × List Record) :
    entriesOf (runCalls run (c :: cs) st).2 =
      (unsettled (callsAttempts run (c :: cs) st) (entriesOf st.2)).map Entry.retried := by
  induction cs generalizing c st with
  | nil =>
    rw [callsAttempts, callsAttempts, List.append_nil]
    exact entries_runCall run c st
  | cons d cs ih =>
    show entriesOf (runCalls run (d :: cs) (runCall run c st)).2 = _
    rw [ih, entries_runCall, unsettled_retried]
    rfl

/-- What calls attempt was to be undone when they began, and has its inverse. -/
theorem mem_callsAttempts {cs : List Call} (h : a ∈ callsAttempts run cs st) :
    ∃ e ∈ entriesOf st.2, e.needsUndo = true ∧ a.entry.retried = e.retried := by
  induction cs generalizing st with
  | nil => cases h
  | cons c cs ih =>
    rw [callsAttempts, List.mem_append] at h
    rcases h with h | h
    · obtain ⟨hmem, hneeds⟩ := List.mem_filter.mp (mem_callAttempts run h)
      exact ⟨a.entry, hmem, hneeds, rfl⟩
    · obtain ⟨e, he, -, heq⟩ := ih h
      rw [entries_runCall] at he
      obtain ⟨e', he', rfl⟩ := List.mem_map.mp he
      obtain ⟨hmem, hopen⟩ := List.mem_filter.mp he'
      exact ⟨e', hmem, (Bool.and_eq_true_iff.mp hopen).2, heq⟩

/-- **An inverse that was settled is not run again.** -/
theorem neverAgain_callsAttempts (cs : List Call) (st : σ × List Record) :
    NeverAgain (callsAttempts run cs st) := by
  induction cs generalizing st with
  | nil => exact List.Pairwise.nil
  | cons c cs ih =>
    refine List.pairwise_append.mpr ⟨?_, ih _, ?_⟩
    · have honce := pairwise_attempts run (nodup_turns (numbered_entriesOf st.2))
        { machine := st.1, journal := c.journal st.2 }
      refine List.Pairwise.imp ?_ honce
      intro a b hne _
      exact hne
    -- A later call attempts what this one left, and it left nothing it settled.
    · intro a ha b hb hsettled heq
      obtain ⟨e, he, -, hbe⟩ := mem_callsAttempts run hb
      rw [entries_runCall] at he
      obtain ⟨e', he', rfl⟩ := List.mem_map.mp he
      have hleft := (Bool.and_eq_true_iff.mp (List.mem_filter.mp he').2).1
      have hseq : e'.seq = a.entry.seq := by
        rw [← heq]
        exact (congrArg Entry.seq hbe).symm
      have hthis : settledBy (callAttempts run c st) e'.seq = true := by
        rw [settledBy, List.any_eq_true]
        exact ⟨a, ha, by simp [hsettled, hseq]⟩
      rw [hthis] at hleft
      cases hleft

/-! ## What the runner is handed -/

/-- The runner with a list of the commands it was handed and its answers. -/
def Runner.logged : Runner (σ × List (Command × Reply)) := fun m c =>
  (((run m.1 c).1, m.2 ++ [(c, (run m.1 c).2)]), (run m.1 c).2)

/-- A replay without the list. -/
def Replay.forget (st : Replay (σ × List (Command × Reply))) : Replay σ where
  machine := st.machine.1
  journal := st.journal
  report := st.report
  remaining := st.remaining

/-- An attempt as the runner sees it. -/
def Attempt.handed (a : Attempt) : Command × Reply := (a.entry.undo, a.reply)

theorem undoOne_logged (e : Entry) (st : Replay (σ × List (Command × Reply))) :
    (undoOne (Runner.logged run) e st).forget = undoOne run e st.forget ∧
      (undoOne (Runner.logged run) e st).machine.2 =
        st.machine.2 ++ [(e.undo, (run st.machine.1 e.undo).2)] := by
  cases hgone : alreadyGone e.undo (run st.machine.1 e.undo).2 with
  | true => simp [undoOne, Runner.logged, Replay.forget, hgone]
  | false =>
    cases hreply : (run st.machine.1 e.undo).2.2 with
    | none | some msg => simp [undoOne, Runner.logged, Replay.forget, hgone, hreply]

theorem replayTurn_logged (t : Bool × Entry) (st : Replay (σ × List (Command × Reply))) :
    (replayTurn (Runner.logged run) t st).forget = replayTurn run t st.forget ∧
      (replayTurn (Runner.logged run) t st).machine.2 =
        st.machine.2 ++ (turnAttempts run t st.forget).map Attempt.handed := by
  have hone := undoOne_logged run t.2 st
  by_cases hfire : t.1 = true
  · by_cases hfailed : 0 < st.report.failed
    · simp only [replayTurn, undoFirewall, turnAttempts, Replay.forget, hfire, hfailed, if_true,
        decide_true, Bool.and_true, List.map_nil, List.append_nil]
      exact ⟨rfl, rfl⟩
    · simp only [replayTurn, undoFirewall, turnAttempts, hfire, hfailed, Replay.forget,
        if_true, if_false, decide_false, Bool.and_false]
      exact hone
  · simp only [replayTurn, turnAttempts, hfire, Bool.false_and]
    exact hone

theorem turns_logged (ts : List (Bool × Entry)) (st : Replay (σ × List (Command × Reply))) :
    (ts.foldl (fun st t => replayTurn (Runner.logged run) t st) st).forget =
        ts.foldl (fun st t => replayTurn run t st) st.forget ∧
      (ts.foldl (fun st t => replayTurn (Runner.logged run) t st) st).machine.2 =
        st.machine.2 ++ (attempts run ts st.forget).map Attempt.handed := by
  induction ts generalizing st with
  | nil => simp [attempts]
  | cons t ts ih =>
    obtain ⟨hforget, hlog⟩ := replayTurn_logged run t st
    obtain ⟨ihforget, ihlog⟩ := ih (replayTurn (Runner.logged run) t st)
    rw [hforget] at ihforget ihlog
    refine ⟨ihforget, ?_⟩
    rw [List.foldl_cons, ihlog, hlog, attempts, List.map_append, List.append_assoc]

/-- The state of the calls without the list. -/
def forgetLog (st : (σ × List (Command × Reply)) × List Record) : σ × List Record :=
  (st.1.1, st.2)

theorem replay_logged (es : List Entry) (m : σ × List (Command × Reply)) (j : Option Journal) :
    (replay (Runner.logged run) es m j).forget = replay run es m.1 j ∧
      (replay (Runner.logged run) es m j).machine.2 =
        m.2 ++ (attempts run (turns es) { machine := m.1, journal := j }).map Attempt.handed := by
  obtain ⟨hforget, hlog⟩ := turns_logged run (turns es) { machine := m, journal := j }
  simp only [replay, replayPasses_turns]
  refine ⟨?_, hlog⟩
  rw [show ({ machine := m.1, journal := j } : Replay σ) =
      Replay.forget { machine := m, journal := j } from rfl, ← hforget]
  rfl

theorem runCall_logged (c : Call) (st : (σ × List (Command × Reply)) × List Record) :
    forgetLog (runCall (Runner.logged run) c st) = runCall run c (forgetLog st) ∧
      (runCall (Runner.logged run) c st).1.2 =
        st.1.2 ++ (callAttempts run c (forgetLog st)).map Attempt.handed := by
  obtain ⟨hforget, hlog⟩ := replay_logged run (entriesOf st.2) st.1 (c.journal st.2)
  have hmachine := congrArg Replay.machine hforget
  have hremaining := congrArg (fun r => rewriteJournal (Replay.remaining r)) hforget
  cases c with
  | teardown => exact ⟨Prod.ext hmachine hremaining, hlog⟩
  | recover =>
    by_cases hempty : (entriesOf st.2).isEmpty = true
    · have hsame : ∀ {τ : Type} (r : Runner τ) (m : τ),
          runCall r .recover (m, st.2) = (m, st.2) := by
        intro τ r m
        simp only [runCall, recover, if_pos hempty]
      have hnone : callAttempts run .recover (forgetLog st) = [] := by
        show attempts run (turns (entriesOf st.2)) _ = []
        rw [List.isEmpty_iff.mp hempty]
        rfl
      rw [hnone, List.map_nil, List.append_nil]
      rw [show runCall (Runner.logged run) .recover st = st from hsame _ st.1]
      exact ⟨(hsame run st.1.1).symm, rfl⟩
    · rw [Bool.not_eq_true] at hempty
      simp only [runCall, recover, forgetLog, hempty, Bool.false_eq_true, if_false]
      exact ⟨Prod.ext hmachine hremaining, hlog⟩

theorem runCalls_logged (cs : List Call) (st : (σ × List (Command × Reply)) × List Record) :
    (runCalls (Runner.logged run) cs st).1.2 =
      st.1.2 ++ (callsAttempts run cs (forgetLog st)).map Attempt.handed := by
  induction cs generalizing st with
  | nil => simp [callsAttempts, runCalls]
  | cons c cs ih =>
    obtain ⟨hforget, hlog⟩ := runCall_logged run c st
    show (runCalls (Runner.logged run) cs (runCall (Runner.logged run) c st)).1.2 = _
    rw [ih, hforget, hlog, callsAttempts, List.map_append, List.append_assoc]

end Calls

/-! ## The account -/

/-- **Replay accounting.**  After any sequence of completed calls the journal
holds, in their order and as they were but begun again, the entries that needed
undoing and that no attempt has settled.  The commands the machine was handed
are the inverses of entries that needed undoing, none of them after it was
settled, and a call whose attempts are all settled leaves an empty journal. -/
theorem calls_account {σ : Type} (run : Runner σ) (c : Call) (cs : List Call) (m : σ)
    (rs : List Record) :
    let st := runCalls run (c :: cs) (m, rs)
    let as := callsAttempts run (c :: cs) (m, rs)
    entriesOf st.2 = (unsettled as (entriesOf rs)).map Entry.retried ∧
      (∀ e ∈ entriesOf st.2, e.needsUndo = true) ∧
      (runCalls (Runner.logged run) (c :: cs) ((m, []), rs)).1.2 = as.map Attempt.handed ∧
      (∀ a ∈ as, ∃ e ∈ entriesOf rs, e.needsUndo = true ∧ a.entry.retried = e.retried) ∧
      NeverAgain as ∧
      ∀ last : Call, (∀ a ∈ callAttempts run last st, a.settled = true) →
        entriesOf (runCall run last st).2 = [] := by
  intro st as
  have hleft : entriesOf st.2 = (unsettled as (entriesOf rs)).map Entry.retried :=
    entries_runCalls run c cs (m, rs)
  refine ⟨hleft, ?_, ?_, ?_, ?_, ?_⟩
  · intro e he
    rw [hleft] at he
    obtain ⟨e', he', rfl⟩ := List.mem_map.mp he
    exact needsUndo_retried (Bool.and_eq_true_iff.mp (List.mem_filter.mp he').2).2
  · exact runCalls_logged run (c :: cs) ((m, []), rs)
  · intro a ha
    exact mem_callsAttempts run ha
  · exact neverAgain_callsAttempts run (c :: cs) (m, rs)
  · intro last hlast
    exact entries_runCall_of_settled run hlast

/-- A machine that takes every command. -/
def obliging : Runner Unit := fun _ _ => ((), ({}, none))

/-- A machine that refuses so many commands and then takes every one. -/
def reluctant : Runner Nat := fun refusals _ =>
  match refusals with
  | 0 => (0, ({}, none))
  | n + 1 => (n, ({}, some "refused"))

/-- A firewall and a route over it, both applied. -/
def demoRecords : List Record :=
  [ { seq := 1, phase := .begin, op := opNft, run := { path := "nft", args := ["-f"] }
      undo := { path := "nft", args := ["delete"] } },
    { seq := 1, phase := .done },
    { seq := 2, phase := .begin, op := "route", run := { path := "ip", args := ["add"] }
      undo := { path := "ip", args := ["del"] } },
    { seq := 2, phase := .done } ]

/-- One refusal: the first call leaves both entries, the second neither. -/
theorem demoRecords_account :
    entriesOf (runCalls reluctant [.teardown] (1, demoRecords)).2 =
        (entriesOf demoRecords).map Entry.retried ∧
      entriesOf (runCall reluctant .recover (runCalls reluctant [.teardown] (1, demoRecords))).2 =
        [] := by
  obtain ⟨hleft, -, -, -, -, hlast⟩ := calls_account reluctant .teardown [] 1 demoRecords
  refine ⟨hleft.trans ?_, hlast .recover ?_⟩ <;> decide

end Caspian.Netcfg
