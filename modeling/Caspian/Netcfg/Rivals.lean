import Caspian.Netcfg.Accounting
import Caspian.Netcfg.Loads
import Caspian.Netcfg.Repeat

/-!
# When a skip is right

`Apply` skips a step whose command the journal has as the one in force.  The
commands that matter are its *rivals*: those with the same command line and
another key, as a cut is a rival of the ordinary ruleset.  A skip is right when
no rival was started after the command went through.

The journal sees a rival only when it is closed by `Done`.  One that failed, or
was under way when the process died, is overlooked (`unfinished_cut_skips`), and
so is one that a replay ran before it was cut short.  `skip_right` says that
nothing else can go wrong.
-/

namespace Caspian.Netcfg

/-! ## Rivals -/

section Rivals

variable (digest : String → String)

/-- The same command line in another form. -/
def Rival (c d : Command) : Prop :=
  commandLine d = commandLine c ∧ runnerKey digest d ≠ runnerKey digest c

/-- The same command line in the same form. -/
def SameRun (c d : Command) : Prop :=
  commandLine d = commandLine c ∧ runnerKey digest d = runnerKey digest c

/-- The command went through and no rival was started afterwards. -/
def NoRivalSince (c : Command) (log : List (Command × Reply)) : Prop :=
  ∃ before ran after, log = before ++ ran :: after ∧ SameRun digest c ran.1 ∧
    ran.2.2 = none ∧ ∀ x ∈ after, ¬Rival digest c x.1

/-- A step whose precondition does not ask with a rival. -/
def AsksNoRival (c : Command) (s : Step) : Prop :=
  ∀ q, s.pre = some q → ¬Rival digest c q.query

/-- Every rival in the journal is older than an entry of the same command line
that is done. -/
def RivalsClosed (c : Command) (es : List Entry) : Prop :=
  ∀ older e newer, es = older ++ e :: newer → Rival digest c e.run →
    ∃ d ∈ newer, d.run.isZero = false ∧ commandLine d.run = commandLine c ∧ d.phase = .done

instance (c d : Command) : Decidable (Rival digest c d) := by
  unfold Rival
  infer_instance

theorem NoRivalSince.snoc {c : Command} {log : List (Command × Reply)}
    (h : NoRivalSince digest c log) {x : Command × Reply} (hx : ¬Rival digest c x.1) :
    NoRivalSince digest c (log ++ [x]) := by
  obtain ⟨before, ran, after, rfl, hsame, hok, hafter⟩ := h
  refine ⟨before, ran, after ++ [x], by simp, hsame, hok, ?_⟩
  intro y hy
  rcases List.mem_append.mp hy with hy | hy
  · exact hafter y hy
  · rw [List.mem_singleton.mp hy]
    exact hx

end Rivals

/-! ## Runs of calls, kills and failed writes -/

section Reach

variable {σ : Type} (digest : String → String) (run : Runner σ) (allowed : Step → Prop)

/-- The log of commands handed to a machine. -/
abbrev Logged (σ : Type) := σ × List (Command × Reply)

/-- A replay after so many turns, before the journal is rewritten. -/
def replayHalfway (c : Call) (n : Nat) (w : World (Logged σ)) : Replay (Logged σ) :=
  ((turns (entriesOf w.journal.records)).take n).foldl
    (fun st t => replayTurn (Runner.logged run) t st)
    { machine := w.machine, journal := c.journal w.journal.records }

/-- The worlds a sequence of calls can leave.  An `Apply` may be stopped at any
of its points, by a kill or by a record that could not be written.  A replay may
be stopped before the journal is rewritten, and any of its `Undone` records may
be missing.  The flag says that this happened after the journal was last
rewritten. -/
inductive Reach : World (Logged σ) → Bool → Prop
  | fresh (m : σ) : Reach { machine := (m, []), journal := Journal.openOn [] } false
  | applied {w : World (Logged σ)} {short : Bool} (steps : List Step)
      (v : Moment (Logged σ)) (h : Reach w short) (hsteps : ∀ s ∈ steps, allowed s)
      (hv : v ∈ applyVisits digest (Runner.logged run) steps w) : Reach v.world short
  | opened {w : World (Logged σ)} {short : Bool} (h : Reach w short) :
      Reach { w with journal := Journal.openOn w.journal.records } short
  | replayed {w : World (Logged σ)} {short : Bool} (c : Call) (h : Reach w short) :
      Reach
        { machine := (runCall (Runner.logged run) c (w.machine, w.journal.records)).1
          journal := Journal.openOn
            (runCall (Runner.logged run) c (w.machine, w.journal.records)).2 }
        false
  | cutShort {w : World (Logged σ)} {short : Bool} (c : Call) (n : Nat)
      (all written : List Record) (h : Reach w short)
      (hall : onDisk w.journal.records (replayHalfway run c n w).journal =
        w.journal.records ++ all)
      (hwritten : List.Sublist written all) :
      Reach
        { machine := (replayHalfway run c n w).machine
          journal := Journal.openOn (w.journal.records ++ written) }
        true

end Reach

/-! ## The invariant -/

section Invariant

variable {σ : Type} (digest : String → String) (c : Command)

/-- The entry's command went through, and every rival started since has a newer
entry in the journal. -/
def Vouched (es : List Entry) (log : List (Command × Reply)) (e : Entry) : Prop :=
  ∃ before ran after, log = before ++ ran :: after ∧ ran.1 = e.run ∧ ran.2.2 = none ∧
    ∀ x ∈ after, Rival digest c x.1 → ∃ e' ∈ es, e.seq < e'.seq ∧ e'.run = x.1

/-- What every reachable world keeps: the numbers go on after the highest in
use, every record belongs to a command, and unless a replay was cut short what
is done is vouched for. -/
structure Vouching (w : World (Logged σ)) (short : Bool) : Prop where
  ordered : w.journal.Ordered
  tidy : Tidy w.journal.records
  vouched : short = false → ∀ e ∈ w.journal.entries, e.phase = .done →
    SameRun digest c e.run → Vouched digest c w.journal.entries w.machine.2 e

variable {digest c} {es es' : List Entry} {log : List (Command × Reply)} {e : Entry}

/-- Entries may be added and may change their phase. -/
theorem Vouched.mono (h : Vouched digest c es log e)
    (hes : ∀ x ∈ es, ∃ y ∈ es', y.seq = x.seq ∧ y.run = x.run) :
    Vouched digest c es' log e := by
  obtain ⟨before, ran, after, hlog, hrun, hok, hafter⟩ := h
  refine ⟨before, ran, after, hlog, hrun, hok, fun x hx hrival => ?_⟩
  obtain ⟨y, hy, hseq, hyrun⟩ := hafter x hx hrival
  obtain ⟨z, hz, hzseq, hzrun⟩ := hes y hy
  exact ⟨z, hz, by omega, hzrun.trans hyrun⟩

/-- Another command may be started if it is no rival, or has a newer entry. -/
theorem Vouched.snoc (h : Vouched digest c es log e) {x : Command × Reply}
    (hx : Rival digest c x.1 → ∃ e' ∈ es, e.seq < e'.seq ∧ e'.run = x.1) :
    Vouched digest c es (log ++ [x]) e := by
  obtain ⟨before, ran, after, rfl, hrun, hok, hafter⟩ := h
  refine ⟨before, ran, after ++ [x], by simp, hrun, hok, fun y hy => ?_⟩
  rcases List.mem_append.mp hy with hy | hy
  · exact hafter y hy
  · rw [List.mem_singleton.mp hy]
    exact hx

/-! ## Apply -/

variable {w : World (Logged σ)} {short : Bool} {s : Step} (run : Runner σ)

theorem tidy_snoc {rs rs' : List Record} {x : Entry} (h : Tidy rs)
    (hraw : rawEntries rs' = rawEntries rs ++ [x]) (hx : x.kept = true) : Tidy rs' := by
  intro y hy
  rw [hraw] at hy
  rcases List.mem_append.mp hy with hy | hy
  · exact h y hy
  · rw [List.mem_singleton.mp hy]
    exact hx

theorem seq_of_mem_entries (h : w.journal.Ordered) (he : e ∈ w.journal.entries) :
    e.seq ≤ w.journal.seq :=
  h e (List.mem_filter.mp he).1

/-- Asking keeps what is vouched for. -/
theorem Vouching.ask (h : Vouching digest c w short) (hs : AsksNoRival digest c s) :
    Vouching digest c { w with machine := (queryPre (Runner.logged run) s w.machine).1 }
      short where
  ordered := h.ordered
  tidy := h.tidy
  vouched hshort e he hdone hsame := by
    have hold := h.vouched hshort e he hdone hsame
    unfold queryPre
    split
    · exact hold
    next q hq => exact hold.snoc fun hrival => absurd hrival (hs q hq)

/-- `Begin` keeps what is vouched for. -/
theorem Vouching.begin (h : Vouching digest c w short) (hz : s.run.isZero = false) :
    Vouching digest c { w with journal := w.journal.begin s } short where
  ordered := Journal.ordered_begin h.ordered s
  tidy := tidy_snoc h.tidy (Journal.rawEntries_begin h.ordered s) (Journal.kept_entry hz _ _)
  vouched hshort e he hdone hsame := by
    have hentries := Journal.entries_begin h.ordered hz
    rw [hentries] at he ⊢
    rcases List.mem_append.mp he with he | he
    · refine (h.vouched hshort e he hdone hsame).mono fun x hx => ?_
      exact ⟨x, List.mem_append_left _ hx, rfl, rfl⟩
    · rw [List.mem_singleton.mp he] at hdone
      cases hdone

/-- A command that was begun has the newest entry. -/
theorem Vouching.ran (h : Vouching digest c w short) (hz : s.run.isZero = false) :
    Vouching digest c
      { machine := (Runner.logged run w.machine s.run).1, journal := w.journal.begin s }
      short where
  ordered := Journal.ordered_begin h.ordered s
  tidy := (h.begin hz).tidy
  vouched hshort e he hdone hsame := by
    refine ((h.begin hz).vouched hshort e he hdone hsame).snoc fun _ => ?_
    have hentries := Journal.entries_begin h.ordered hz
    refine ⟨s.entry (w.journal.seq + 1) .begin, ?_, ?_, rfl⟩
    · rw [hentries]
      exact List.mem_append_right _ (List.mem_singleton.mpr rfl)
    · rw [hentries] at he
      rcases List.mem_append.mp he with he | he
      · have := seq_of_mem_entries h.ordered he
        show e.seq < w.journal.seq + 1
        omega
      · rw [List.mem_singleton.mp he] at hdone
        cases hdone

/-- A step that was run is vouched for by its own run. -/
theorem Vouching.runStep (h : Vouching digest c w short) (hz : s.run.isZero = false) :
    Vouching digest c (runStep (Runner.logged run) s w).world short where
  ordered := ordered_runStep _ s h.ordered
  tidy := by
    obtain ⟨err, hsettle⟩ := settle_begin w.journal s
      (verdict s.run (run w.machine.1 s.run).2) (run w.machine.1 s.run).2.2
    show Tidy (settle (w.journal.begin s) _ _).records
    rw [hsettle]
    exact tidy_snoc h.tidy (Journal.rawEntries_mark h.ordered s (Verdict.phase_ne_begin _) err)
      (Journal.kept_entry hz _ _)
  vouched hshort e he hdone hsame := by
    have hentries := entries_runStep (Runner.logged run) hz h.ordered
    rw [hentries] at he ⊢
    rcases List.mem_append.mp he with he | he
    · have hbegun := (h.ran run hz).vouched hshort e
      rw [Journal.entries_begin h.ordered hz] at hbegun
      refine (hbegun (List.mem_append_left _ he) hdone hsame).mono fun x hx => ?_
      rcases List.mem_append.mp hx with hx | hx
      · exact ⟨x, List.mem_append_left _ hx, rfl, rfl⟩
      · rw [List.mem_singleton.mp hx]
        exact ⟨_, List.mem_append_right _ (List.mem_singleton.mpr rfl), rfl, rfl⟩
    · rw [List.mem_singleton.mp he] at hdone ⊢
      have hverdict : verdict s.run (run w.machine.1 s.run).2 = .done := by
        cases hv : verdict s.run (run w.machine.1 s.run).2 with
        | done => rfl
        | _ =>
          have hphase : (verdict s.run (run w.machine.1 s.run).2).phase = .done := hdone
          rw [hv] at hphase
          cases hphase
      exact ⟨w.machine.2, (s.run, (run w.machine.1 s.run).2), [], rfl, rfl,
        verdict_done hverdict, by simp⟩

/-- Every point of an `Apply`. -/
theorem Vouching.applyVisits {steps : List Step} (h : Vouching digest c w short)
    (hsteps : ∀ s ∈ steps, AsksNoRival digest c s) :
    ∀ v ∈ applyVisits digest (Runner.logged run) steps w, Vouching digest c v.world short := by
  refine loopVisits_forall digest (Runner.logged run)
    (I := fun l w => (∀ s ∈ l, AsksNoRival digest c s) ∧ Vouching digest c w short)
    (fun l w h => h.2) (fun s l w h => ⟨fun s' hs' => h.1 s' (by simp [hs']), h.2⟩)
    ?_ ?_ ⟨hsteps, h⟩
  · rintro s l w ⟨hl, hw⟩
    exact ⟨hl, hw.ask run (hl s List.mem_cons_self)⟩
  · rintro s l w m ⟨hl, hw⟩ hz - -
    refine ⟨?_, hw.runStep run hz, fun _ => ⟨fun s' hs' => hl s' (by simp [hs']),
      hw.runStep run hz⟩⟩
    intro v hv
    simp only [runStepVisits, List.mem_cons, List.not_mem_nil, or_false] at hv
    rcases hv with rfl | rfl
    · exact hw.begin hz
    · exact hw.ran run hz

/-! ## Replays -/

/-- A journal none of whose entries is done vouches for everything. -/
theorem Vouching.of_untried {m : Logged σ} {rs : List Record} (h : Untried rs) :
    Vouching digest c { machine := m, journal := Journal.openOn rs } short where
  ordered := ordered_openOn h.1
  tidy := h.1
  vouched _ e he hdone _ := by
    rw [h.2 e he] at hdone
    cases hdone

/-- A record that is not a `begin` adds no entry, if its number is in use. -/
theorem rawEntries_snoc {rs : List Record} {r : Record} (hr : r.phase ≠ .begin)
    (hmem : ∃ x ∈ rawEntries rs, x.seq = r.seq) :
    rawEntries (rs ++ [r]) = (rawEntries rs).map (Entry.reached r.seq r.phase) := by
  rw [rawEntries_append]
  exact upsert_phase hr (numbered_rawEntries rs) hmem

theorem tidy_marks {rs marks : List Record} (h : Tidy rs)
    (hmarks : ∀ r ∈ marks, r.phase ≠ .begin ∧ ∃ x ∈ rawEntries rs, x.seq = r.seq) :
    Tidy (rs ++ marks) := by
  induction marks generalizing rs with
  | nil => simpa using h
  | cons r marks ih =>
    obtain ⟨hr, hmem⟩ := hmarks r List.mem_cons_self
    have hraw := rawEntries_snoc hr hmem
    rw [List.append_cons]
    apply ih
    · intro x hx
      rw [hraw] at hx
      obtain ⟨y, hy, rfl⟩ := List.mem_map.mp hx
      rw [kept_reached]
      exact h y hy
    · intro r' hr'
      obtain ⟨hphase, x, hx, hseq⟩ := hmarks r' (List.mem_cons_of_mem _ hr')
      refine ⟨hphase, x.reached r.seq r.phase, ?_, ?_⟩
      · rw [hraw]
        exact List.mem_map_of_mem hx
      · rw [← hseq]
        unfold Entry.reached
        split <;> rfl

/-- A turn writes at most one record, about the entry it took. -/
theorem journal_replayTurn {τ : Type} (r : Runner τ) (t : Bool × Entry) {st : Replay τ}
    {j : Journal} (hj : st.journal = some j) :
    (replayTurn r t st).journal = some j ∨
      (replayTurn r t st).journal = some (j.undone t.2.seq) := by
  have hone : (undoOne r t.2 st).journal = some j ∨
      (undoOne r t.2 st).journal = some (j.undone t.2.seq) := by
    simp only [undoOne, hj, Option.map_some]
    split
    · exact .inr rfl
    · split
      · exact .inl rfl
      · exact .inr rfl
  unfold replayTurn undoFirewall
  split
  · split
    · exact .inl hj
    · exact hone
  · exact hone

/-- The records of a replay are about entries it took. -/
theorem marks_of_turns {τ : Type} (r : Runner τ) (ts : List (Bool × Entry)) (st : Replay τ)
    {j : Journal} (hj : st.journal = some j) :
    ∃ j' marks, (ts.foldl (fun st t => replayTurn r t st) st).journal = some j' ∧
      j'.records = j.records ++ marks ∧
      ∀ x ∈ marks, x.phase ≠ .begin ∧ ∃ t ∈ ts, t.2.seq = x.seq := by
  induction ts generalizing st j with
  | nil => exact ⟨j, [], hj, by simp, by simp⟩
  | cons t ts ih =>
    rcases journal_replayTurn r t hj with hkeep | hmark
    · obtain ⟨j', marks, hend, hrecords, hmarks⟩ := ih _ hkeep
      refine ⟨j', marks, hend, hrecords, fun x hx => ?_⟩
      obtain ⟨hphase, u, hu, hseq⟩ := hmarks x hx
      exact ⟨hphase, u, List.mem_cons_of_mem _ hu, hseq⟩
    · obtain ⟨j', marks, hend, hrecords, hmarks⟩ := ih _ hmark
      refine ⟨j', { seq := t.2.seq, phase := .undone, err := "" } :: marks, hend, ?_, ?_⟩
      · rw [hrecords]
        exact List.append_assoc _ _ _
      · intro x hx
        rcases List.mem_cons.mp hx with rfl | hx
        · exact ⟨nofun, t, List.mem_cons_self, rfl⟩
        · obtain ⟨hphase, u, hu, hseq⟩ := hmarks x hx
          exact ⟨hphase, u, List.mem_cons_of_mem _ hu, hseq⟩

/-- `Recover` writes nothing until it rewrites the journal. -/
theorem journal_turns_none {τ : Type} (r : Runner τ) {ts : List (Bool × Entry)}
    {st : Replay τ} (hj : st.journal = none) :
    (ts.foldl (fun st t => replayTurn r t st) st).journal = none := by
  induction ts generalizing st with
  | nil => exact hj
  | cons t ts ih =>
    apply ih
    have hone : (undoOne r t.2 st).journal = none := by
      simp only [undoOne, hj, Option.map_none]
      split
      · rfl
      · split <;> rfl
    show (replayTurn r t st).journal = none
    unfold replayTurn undoFirewall
    split
    · split
      · exact hj
      · exact hone
    · exact hone

/-- What a replay that was cut short wrote is about entries of the journal. -/
theorem marks_of_replayHalfway (call : Call) (n : Nat) (w : World (Logged σ))
    {all : List Record}
    (hall : onDisk w.journal.records (replayHalfway run call n w).journal =
      w.journal.records ++ all) :
    ∀ r ∈ all, r.phase ≠ .begin ∧ ∃ x ∈ rawEntries w.journal.records, x.seq = r.seq := by
  cases call with
  | recover =>
    have hnone : (replayHalfway run .recover n w).journal = none :=
      journal_turns_none (Runner.logged run) rfl
    rw [hnone] at hall
    have hnil : all = [] := List.self_eq_append_right.mp hall
    simp [hnil]
  | teardown =>
    obtain ⟨j', marks, hend, hrecords, hmarks⟩ := marks_of_turns (Runner.logged run)
      ((turns (entriesOf w.journal.records)).take n)
      { machine := w.machine, journal := some (Journal.openOn w.journal.records) } rfl
    have hsame : all = marks := by
      rw [show (replayHalfway run .teardown n w).journal = some j' from hend] at hall
      exact List.append_cancel_left (hall.symm.trans hrecords)
    subst hsame
    intro r hr
    obtain ⟨hphase, t, ht, hseq⟩ := hmarks r hr
    have htaken : t.2 ∈ (turns (entriesOf w.journal.records)).map Prod.snd :=
      List.mem_map_of_mem (List.mem_of_mem_take ht)
    have hmem := (List.mem_filter.mp ((turns_perm _).mem_iff.mp htaken)).1
    exact ⟨hphase, t.2, (List.mem_filter.mp hmem).1, hseq⟩

/-! ## Reachable worlds -/

theorem Reach.vouching (h : Reach digest run (AsksNoRival digest c) w short) :
    Vouching digest c w short := by
  induction h with
  | fresh m =>
    have hnone : Untried (rewriteJournal []) := untried_rewriteJournal (by simp)
    exact Vouching.of_untried hnone
  | applied steps v _ hsteps hv ih => exact ih.applyVisits run hsteps v hv
  | opened _ ih =>
    exact ⟨ordered_openOn ih.tidy, ih.tidy, ih.vouched⟩
  | replayed call _ ih =>
    refine Vouching.of_untried ?_
    cases call with
    | teardown => exact untried_teardown _ _
    | recover => exact untried_recover _ _ ih.tidy
  | cutShort call n all written _ hall hwritten ih =>
    have hmarks := marks_of_replayHalfway run call n _ hall
    have htidy := tidy_marks ih.tidy fun r hr => hmarks r (hwritten.subset hr)
    exact ⟨ordered_openOn htidy, htidy, by simp⟩

/-! ## Skips -/

theorem lookup_filter_self (state : List (String × String)) (key : String) :
    (state.filter fun kv => kv.1 ≠ key).lookup key = none := by
  rw [List.lookup_eq_none_iff]
  intro kv hkv
  have hne : kv.1 ≠ key := of_decide_eq_true (List.mem_filter.mp hkv).2
  simpa using Ne.symm hne

/-- The command in force belongs to the last entry of its command line that is
done or undone. -/
theorem inForce_last (h : inForce digest (currentState digest es) c = true) :
    ∃ older e newer, es = older ++ e :: newer ∧ e.phase = .done ∧ SameRun digest c e.run ∧
      ∀ x ∈ newer, x.run.isZero = false → commandLine x.run = commandLine c →
        x.phase ≠ .done := by
  induction es using List.reverseRecOn with
  | nil => cases h
  | append_singleton es x ih =>
    -- An entry that leaves the state alone is passed over.
    have hpass : inForce digest (currentState digest es) c = true →
        (x.run.isZero = false → commandLine x.run = commandLine c → x.phase ≠ .done) →
        ∃ older e newer, es ++ [x] = older ++ e :: newer ∧ e.phase = .done ∧
          SameRun digest c e.run ∧ ∀ y ∈ newer, y.run.isZero = false →
            commandLine y.run = commandLine c → y.phase ≠ .done := by
      intro hold hx
      obtain ⟨older, e, newer, hes, hdone, hsame, hnewer⟩ := ih hold
      refine ⟨older, e, newer ++ [x], by simp [hes], hdone, hsame, fun y hy => ?_⟩
      rcases List.mem_append.mp hy with hy | hy
      · exact hnewer y hy
      · rw [List.mem_singleton.mp hy]
        exact hx
    rw [currentState_append] at h
    unfold stateAfter at h
    split at h
    next hz => exact hpass h fun hnz => absurd hz (by simp [hnz])
    next hz =>
      by_cases hline : commandLine x.run = commandLine c
      · split at h
        next hdone =>
          refine ⟨es, x, [], rfl, hdone, ⟨hline, ?_⟩, by simp⟩
          simpa [inForce, hline] using h
        next hundone =>
          rw [inForce, hline, lookup_filter_self] at h
          cases h
        next hother _ => exact hpass h fun _ _ hdone => hother hdone
      · have hsame : ∀ state : List (String × String),
            (state.filter fun kv => kv.1 ≠ commandLine x.run).lookup (commandLine c) =
              state.lookup (commandLine c) := fun state => lookup_filter_ne (Ne.symm hline)
        have hold : inForce digest (currentState digest es) c = true := by
          unfold inForce at h ⊢
          split at h
          · rw [List.lookup_cons, beq_eq_false_iff_ne.mpr (Ne.symm hline), hsame] at h
            exact h
          · rw [hsame] at h
            exact h
          · exact h
        exact hpass hold fun _ heq => absurd heq hline

/-- A closed rival is older than the entry in force. -/
theorem noRivalSince_of_vouched {older newer : List Entry}
    (hnum : Numbered (older ++ e :: newer)) (hsame : SameRun digest c e.run)
    (hnewer : ∀ x ∈ newer, x.run.isZero = false → commandLine x.run = commandLine c →
      x.phase ≠ .done)
    (hclosed : RivalsClosed digest c (older ++ e :: newer))
    (h : Vouched digest c (older ++ e :: newer) log e) : NoRivalSince digest c log := by
  obtain ⟨before, ran, after, hlog, hran, hok, hafter⟩ := h
  refine ⟨before, ran, after, hlog, by rw [hran]; exact hsame, hok, fun x hx hrival => ?_⟩
  obtain ⟨e', he', hseq, hrun⟩ := hafter x hx hrival
  -- The rival's entry is newer than `e`, so an entry that is done follows it.
  have hnew : e' ∈ newer := by
    obtain ⟨-, -, hcross⟩ := List.pairwise_append.mp hnum
    rcases List.mem_append.mp he' with hold | hrest
    · have := hcross e' hold e List.mem_cons_self
      omega
    · rcases List.mem_cons.mp hrest with rfl | hrest
      · omega
      · exact hrest
  obtain ⟨between, later, rfl⟩ := List.append_of_mem hnew
  obtain ⟨d, hd, hdz, hdline, hddone⟩ :=
    hclosed (older ++ e :: between) e' later (by simp) (by rw [hrun]; exact hrival)
  exact hnewer d (List.mem_append_right _ (List.mem_cons_of_mem _ hd)) hdz hdline hddone

/-- **A skip is right** unless a rival was left unfinished.  In every reachable
world no replay of which was cut short, if every rival in the journal is older
than an entry that is done, then at the point where `Apply` skips a step as the
one in force the step's command has gone through and no rival was started since:
provided the steps before it in the same `Apply` are no rivals either, and no
precondition asks with one. -/
theorem skip_right {digest : String → String} {run : Runner σ} {w : World (Logged σ)}
    (before : List Step) (s : Step)
    (h : Reach digest run (AsksNoRival digest s.run) w false)
    (hclosed : RivalsClosed digest s.run w.journal.entries)
    (hbefore : ∀ t ∈ before, ¬Rival digest s.run t.run ∧ AsksNoRival digest s.run t)
    (hgo : (applyLoop digest (Runner.logged run) (currentState digest w.journal.entries)
      before w {}).2.2 = none)
    (hskip : inForce digest (currentState digest w.journal.entries) s.run = true) :
    NoRivalSince digest s.run
      (applyLoop digest (Runner.logged run) (currentState digest w.journal.entries)
        before w {}).1.machine.2 := by
  have hstart : NoRivalSince digest s.run w.machine.2 := by
    obtain ⟨older, e, newer, hes, hdone, hsame, hnewer⟩ := inForce_last hskip
    have hvouched := h.vouching.vouched rfl e (by simp [hes]) hdone hsame
    have hnum := numbered_entriesOf w.journal.records
    rw [show entriesOf w.journal.records = older ++ e :: newer from hes] at hnum
    rw [hes] at hvouched hclosed
    exact noRivalSince_of_vouched hnum hsame hnewer hclosed hvouched
  have hend := applyLoop_complete digest (Runner.logged run)
    (I := fun l w => (∀ t ∈ l, ¬Rival digest s.run t.run ∧ AsksNoRival digest s.run t) ∧
      NoRivalSince digest s.run w.machine.2)
    (fun t l w h => ⟨fun t' ht' => h.1 t' (by simp [ht']), h.2⟩) ?_ ?_ ⟨hbefore, hstart⟩ hgo
  · exact hend.2
  · rintro t l w ⟨hl, hw⟩
    refine ⟨hl, ?_⟩
    unfold queryPre
    split
    · exact hw
    next q hq => exact hw.snoc digest ((hl t List.mem_cons_self).2 q hq)
  · rintro t l w ⟨hl, hw⟩ - -
    exact ⟨fun t' ht' => hl t' (by simp [ht']), hw.snoc digest (hl t List.mem_cons_self).1⟩

end Invariant

/-! ## An unfinished cut -/

/-- A step that loads a ruleset, as the firewall, the cut and the restore do. -/
def loadStep (text : String) : Step :=
  { op := opNft, why := text
    run := { path := binNft, args := ["-f", "-"], stdin := text }
    undo := { path := binNft, args := ["-f", "-"], stdin := "delete" } }

/-- The ordinary ruleset was loaded. -/
def ordinaryLoaded : World (Logged Unit) :=
  (apply id (Runner.logged obliging) [loadStep "normal"]
    { machine := ((), []), journal := Journal.openOn [] }).1

theorem ordinaryLoaded_reach (allowed : Step → Prop) (h : allowed (loadStep "normal")) :
    Reach id obliging allowed ordinaryLoaded false :=
  Reach.applied [loadStep "normal"] ⟨ordinaryLoaded, .quiet⟩ (Reach.fresh ()) (by simpa using h)
    (List.mem_of_getLast? (applyVisits_last id _ _ _))

/-- Loading it again is skipped, rightly. -/
theorem ordinaryLoaded_skip_right :
    inForce id (currentState id ordinaryLoaded.journal.entries) (loadStep "normal").run = true ∧
      NoRivalSince id (loadStep "normal").run ordinaryLoaded.machine.2 := by
  have hskip : inForce id (currentState id ordinaryLoaded.journal.entries)
      (loadStep "normal").run = true := by decide
  have hreach := ordinaryLoaded_reach (AsksNoRival id (loadStep "normal").run) nofun
  have hnone : ∀ e ∈ ordinaryLoaded.journal.entries,
      ¬Rival id (loadStep "normal").run e.run := by decide
  have hclosed : RivalsClosed id (loadStep "normal").run ordinaryLoaded.journal.entries := by
    intro older e newer hes hrival
    exact absurd hrival (hnone e (by simp [hes]))
  exact ⟨hskip, skip_right [] (loadStep "normal") hreach hclosed (by simp) rfl hskip⟩

/-- A step that is run can be killed before its result is recorded. -/
theorem ran_mem_applyVisits {σ : Type} (digest : String → String) (run : Runner σ) {s : Step}
    {w : World σ} (hz : s.run.isZero = false) (hpre : s.pre = none)
    (hforce : inForce digest (currentState digest w.journal.entries) s.run = false)
    (rest : List Step) :
    ⟨{ machine := (run w.machine s.run).1, journal := w.journal.begin s }, .ran s w.machine⟩ ∈
      applyVisits digest run (s :: rest) w := by
  simp only [applyVisits, loopVisits, stepVisits, hz, hforce, queryPre, hpre, runStepVisits,
    Bool.or_self, Bool.false_eq_true, if_false]
  simp

/-- The cut was loaded after it, and no record says so. -/
def cutUnrecorded : Moment (Logged Unit) where
  world :=
    { machine := (Runner.logged obliging ordinaryLoaded.machine (loadStep "cut").run).1
      journal := ordinaryLoaded.journal.begin (loadStep "cut") }
  stage := .ran (loadStep "cut") ordinaryLoaded.machine

/-- **The restore that is skipped.**  The ordinary ruleset is loaded, the cut is
loaded and the process dies before it can write so.  The next `Apply` of the
ordinary ruleset runs nothing and reports success, while the cut is loaded. -/
theorem unfinished_cut_skips :
    cutUnrecorded ∈ applyVisits id (Runner.logged obliging) [loadStep "cut"] ordinaryLoaded ∧
      Reach id obliging (fun _ => True) cutUnrecorded.world false ∧
      (apply id (Runner.logged obliging) [loadStep "normal"] cutUnrecorded.world).1.machine.2 =
        cutUnrecorded.world.machine.2 ∧
      (apply id (Runner.logged obliging) [loadStep "normal"] cutUnrecorded.world).2.2 = none ∧
      (apply id (Runner.logged obliging) [loadStep "normal"] cutUnrecorded.world).2.1.skipped =
        1 ∧
      ¬NoRivalSince id (loadStep "normal").run cutUnrecorded.world.machine.2 := by
  have hvisit : cutUnrecorded ∈
      applyVisits id (Runner.logged obliging) [loadStep "cut"] ordinaryLoaded := by
    exact ran_mem_applyVisits id _ (by decide) rfl (by decide) _
  refine ⟨hvisit, ?_, ?_, ?_, ?_, ?_⟩
  · exact Reach.applied [loadStep "cut"] _ (ordinaryLoaded_reach _ trivial) (by simp) hvisit
  · decide
  · decide
  · decide
  · rintro ⟨before, ran, after, hlog, hsame, -, hafter⟩
    have hall : cutUnrecorded.world.machine.2 =
        [((loadStep "normal").run, ({}, none)), ((loadStep "cut").run, ({}, none))] := by
      rfl
    rw [hall] at hlog
    match before, hlog with
    | [], hlog =>
      obtain ⟨-, rfl⟩ := List.cons.inj hlog
      exact hafter _ List.mem_cons_self (by decide)
    | [_], hlog =>
      obtain ⟨-, hlog⟩ := List.cons.inj hlog
      obtain ⟨rfl, -⟩ := List.cons.inj hlog
      have hkey : runnerKey id (loadStep "cut").run ≠ runnerKey id (loadStep "normal").run := by
        decide
      exact hkey hsame.2
    | _ :: _ :: _, hlog => simp at hlog

end Caspian.Netcfg
