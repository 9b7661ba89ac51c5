import Caspian.Netcfg.Route

/-!
# The journal

The record of what has been applied, as the list of its records.  A `begin`
record carries the step and its inverse and is written before the change; a
later record of the same number says what became of it.  `entriesOf` is the
reconstruction `LoadJournal` makes from the records it could read.
-/

namespace Caspian.Netcfg

/-- Which half of a step a record is about. -/
inductive Phase where
  | begin
  | done
  | failed
  | undone
  | preexisting
  | other (text : String)
  deriving DecidableEq, Repr

/-- One record of the journal. -/
structure Record where
  seq : Int
  phase : Phase
  op : String := ""
  why : String := ""
  run : Command := Command.zero
  undo : Command := Command.zero
  err : String := ""
  deriving DecidableEq

/-- A step as reconstructed from the journal. -/
structure Entry where
  seq : Int
  op : String := ""
  why : String := ""
  run : Command := Command.zero
  undo : Command := Command.zero
  phase : Phase := .other ""
  deriving DecidableEq

/-- `NeedsUndo`: the entry's inverse should still be replayed. -/
def Entry.needsUndo (e : Entry) : Bool :=
  match e.phase with
  | .undone => false
  | .preexisting => false
  | _ => !e.undo.isZero

/-- The entry with the text of a `begin` record in it, and that record's
phase. -/
def Entry.absorb (e : Entry) (r : Record) : Entry :=
  if r.phase = .begin then
    { e with op := r.op, why := r.why, run := r.run, undo := r.undo, phase := r.phase }
  else { e with phase := r.phase }

/-- Fold one record into the entries, which are kept in order of number. -/
def upsert (r : Record) : List Entry → List Entry
  | [] => [Entry.absorb { seq := r.seq } r]
  | e :: es =>
    if r.seq < e.seq then Entry.absorb { seq := r.seq } r :: e :: es
    else if r.seq = e.seq then e.absorb r :: es
    else e :: upsert r es

/-- An entry with nothing to run in either direction is dropped. -/
def Entry.kept (e : Entry) : Bool := !(e.run.isZero && e.undo.isZero)

/-- The entries before the empty ones are dropped. -/
def rawEntries (rs : List Record) : List Entry :=
  rs.foldl (fun es r => upsert r es) []

/-- What `LoadJournal` makes of the records it could read. -/
def entriesOf (rs : List Record) : List Entry := (rawEntries rs).filter Entry.kept

/-- The journal in use: its records and the last number given out. -/
structure Journal where
  records : List Record
  seq : Int
  deriving DecidableEq

namespace Journal

/-- `OpenJournal`: go on after the highest number in use. -/
def openOn (rs : List Record) : Journal :=
  { records := rs
    seq := (entriesOf rs).foldl (fun next e => if next < e.seq then e.seq else next) 0 }

def write (j : Journal) (r : Record) : Journal := { j with records := j.records ++ [r] }

/-- `Begin`: record a step and its inverse before the step is run. -/
def begin (j : Journal) (s : Step) : Journal :=
  { j with seq := j.seq + 1 }.write
    { seq := j.seq + 1, phase := .begin, op := s.op, why := s.why
      run := s.run, undo := s.undo }

/-- `Done`, `Failed`, `Preexisting` and `Undone`: what became of a step. -/
def mark (j : Journal) (seq : Int) (phase : Phase) (err : String) : Journal :=
  j.write { seq := seq, phase := phase, err := err }

def done (j : Journal) (seq : Int) : Journal := j.mark seq .done ""
def failed (j : Journal) (seq : Int) (cause : String) : Journal := j.mark seq .failed cause
def preexisting (j : Journal) (seq : Int) (cause : String) : Journal :=
  j.mark seq .preexisting cause
def undone (j : Journal) (seq : Int) : Journal := j.mark seq .undone ""

def entries (j : Journal) : List Entry := entriesOf j.records

end Journal

/-- `RewriteJournal`: the entries as fresh `begin` records. -/
def rewriteJournal (es : List Entry) : List Record :=
  es.map fun e =>
    { seq := e.seq, phase := .begin, op := e.op, why := e.why, run := e.run, undo := e.undo }

/-! ## Reconstruction -/

/-- Every number in the entries is at most `n`. -/
def SeqsBelow (n : Int) (es : List Entry) : Prop := ∀ e ∈ es, e.seq ≤ n

variable {r : Record} {es : List Entry}

/-- A record numbered above every entry makes a new last entry. -/
theorem upsert_above (h : ∀ e ∈ es, e.seq < r.seq) :
    upsert r es = es ++ [Entry.absorb { seq := r.seq } r] := by
  induction es with
  | nil => rfl
  | cons e es ih =>
    have he : e.seq < r.seq := h e (by simp)
    have hlt : ¬r.seq < e.seq := by omega
    have hne : ¬r.seq = e.seq := by omega
    simp only [upsert, if_neg hlt, if_neg hne, List.cons_append]
    rw [ih fun e' he' => h e' (by simp [he'])]

variable {e : Entry}

/-- A record with the number of the last entry changes that entry. -/
theorem upsert_last (h : ∀ e' ∈ es, e'.seq < r.seq) (he : e.seq = r.seq) :
    upsert r (es ++ [e]) = es ++ [e.absorb r] := by
  induction es with
  | nil =>
    have hlt : ¬r.seq < e.seq := by omega
    simp only [List.nil_append, upsert, if_neg hlt, if_pos he.symm]
  | cons e' es ih =>
    have he' : e'.seq < r.seq := h e' (by simp)
    have hlt : ¬r.seq < e'.seq := by omega
    have hne : ¬r.seq = e'.seq := by omega
    simp only [List.cons_append, upsert, if_neg hlt, if_neg hne]
    rw [ih fun e'' he'' => h e'' (by simp [he''])]

theorem rawEntries_append (rs rs' : List Record) :
    rawEntries (rs ++ rs') = rs'.foldl (fun es r => upsert r es) (rawEntries rs) := by
  simp [rawEntries, List.foldl_append]

/-- The entry of a step that has come to a phase. -/
def Step.entry (s : Step) (seq : Int) (phase : Phase) : Entry where
  seq := seq
  op := s.op
  why := s.why
  run := s.run
  undo := s.undo
  phase := phase

variable {j : Journal}

namespace Journal

/-- The number given out last is the highest in use. -/
def Ordered (j : Journal) : Prop := SeqsBelow j.seq (rawEntries j.records)

theorem ordered_empty : Ordered { records := [], seq := 0 } := by
  intro e he
  cases he

/-- `Begin` adds an entry. -/
theorem rawEntries_begin (hj : j.Ordered) (s : Step) :
    rawEntries (j.begin s).records = rawEntries j.records ++ [s.entry (j.seq + 1) .begin] := by
  have habove : ∀ e ∈ rawEntries j.records, e.seq < j.seq + 1 := by
    intro e he
    have := hj e he
    omega
  show rawEntries (j.records ++ [_]) = _
  rw [rawEntries_append]
  exact upsert_above habove

variable {phase : Phase}

/-- The record that closes a step changes the entry `Begin` added. -/
theorem rawEntries_mark (hj : j.Ordered) (s : Step) (hp : phase ≠ .begin) (err : String) :
    rawEntries ((j.begin s).mark (j.seq + 1) phase err).records =
      rawEntries j.records ++ [s.entry (j.seq + 1) phase] := by
  have habove : ∀ e ∈ rawEntries j.records, e.seq < j.seq + 1 := by
    intro e he
    have := hj e he
    omega
  show rawEntries ((j.begin s).records ++ [_]) = _
  rw [rawEntries_append, rawEntries_begin hj]
  simp only [List.foldl_cons, List.foldl_nil]
  rw [upsert_last habove rfl, Entry.absorb, if_neg hp]
  rfl

theorem ordered_begin (hj : j.Ordered) (s : Step) : (j.begin s).Ordered := by
  intro e he
  rw [rawEntries_begin hj] at he
  show e.seq ≤ j.seq + 1
  rcases List.mem_append.mp he with hold | hnew
  · have := hj e hold
    omega
  · rw [List.mem_singleton.mp hnew]
    exact le_refl _

theorem ordered_mark (hj : j.Ordered) (s : Step) (hp : phase ≠ .begin) (err : String) :
    ((j.begin s).mark (j.seq + 1) phase err).Ordered := by
  intro e he
  rw [rawEntries_mark hj s hp] at he
  show e.seq ≤ j.seq + 1
  rcases List.mem_append.mp he with hold | hnew
  · have := hj e hold
    omega
  · rw [List.mem_singleton.mp hnew]
    exact le_refl _

variable {s : Step}

/-- A step with a command is kept. -/
theorem kept_entry (hs : s.run.isZero = false) (seq : Int) (phase : Phase) :
    (s.entry seq phase).kept = true := by
  simp [Entry.kept, Step.entry, hs]

theorem entries_begin (hj : j.Ordered) (hs : s.run.isZero = false) :
    (j.begin s).entries = j.entries ++ [s.entry (j.seq + 1) .begin] := by
  unfold entries entriesOf
  rw [rawEntries_begin hj, List.filter_append]
  simp [kept_entry hs]

theorem entries_mark (hj : j.Ordered) (hs : s.run.isZero = false) (hp : phase ≠ .begin)
    (err : String) :
    ((j.begin s).mark (j.seq + 1) phase err).entries =
      j.entries ++ [s.entry (j.seq + 1) phase] := by
  unfold entries entriesOf
  rw [rawEntries_mark hj s hp, List.filter_append]
  simp [kept_entry hs]

end Journal

/-! ## What is still to be undone -/

/-- The entries whose inverse is still to be replayed, newest first. -/
def liveOf (es : List Entry) : List Entry := es.reverse.filter Entry.needsUndo

/-- Their inverses. -/
def undosOf (es : List Entry) : List Command := (liveOf es).map Entry.undo

theorem liveOf_append_live (h : e.needsUndo = true) : liveOf (es ++ [e]) = e :: liveOf es := by
  simp [liveOf, h]

theorem liveOf_append_settled (h : e.needsUndo = false) : liveOf (es ++ [e]) = liveOf es := by
  simp [liveOf, h]

theorem undosOf_append_live (h : e.needsUndo = true) :
    undosOf (es ++ [e]) = e.undo :: undosOf es := by
  simp [undosOf, liveOf_append_live h]

theorem undosOf_append_settled (h : e.needsUndo = false) : undosOf (es ++ [e]) = undosOf es := by
  simp [undosOf, liveOf_append_settled h]

/-- A phase that leaves the inverse to be replayed. -/
def Phase.isOpen : Phase → Bool
  | .undone => false
  | .preexisting => false
  | _ => true

theorem needsUndo_entry (s : Step) (seq : Int) (phase : Phase) :
    (s.entry seq phase).needsUndo = (phase.isOpen && !s.undo.isZero) := by
  cases phase <;> rfl

/-! ## Records of what was undone -/

/-- The entries are in order of number, and no number is used twice. -/
def Numbered (es : List Entry) : Prop := es.Pairwise fun a b => a.seq < b.seq

theorem absorb_seq (e : Entry) (r : Record) : (e.absorb r).seq = e.seq := by
  unfold Entry.absorb
  split <;> rfl

/-- An entry after a record is one there was, or has the record's number. -/
theorem seq_of_mem_upsert (h : e ∈ upsert r es) : e.seq = r.seq ∨ e ∈ es := by
  induction es with
  | nil =>
    rw [List.mem_singleton.mp h]
    exact Or.inl (absorb_seq _ r)
  | cons a es ih =>
    simp only [upsert] at h
    split at h
    · rcases List.mem_cons.mp h with rfl | h
      · exact Or.inl (absorb_seq _ r)
      · exact Or.inr h
    · split at h
      next heq =>
        rcases List.mem_cons.mp h with rfl | h
        · exact Or.inl ((absorb_seq a r).trans heq.symm)
        · exact Or.inr (List.mem_cons_of_mem _ h)
      · rcases List.mem_cons.mp h with rfl | h
        · exact Or.inr List.mem_cons_self
        · exact (ih h).imp_right (List.mem_cons_of_mem _)

theorem numbered_upsert (r : Record) (h : Numbered es) : Numbered (upsert r es) := by
  induction es with
  | nil => exact List.pairwise_singleton _ _
  | cons a es ih =>
    obtain ⟨ha, hes⟩ := List.pairwise_cons.mp h
    simp only [upsert]
    split
    next hlt =>
      refine List.pairwise_cons.mpr ⟨fun b hb => ?_, h⟩
      rw [absorb_seq]
      rcases List.mem_cons.mp hb with rfl | hb
      · exact hlt
      · exact hlt.trans (ha b hb)
    next hlt =>
      split
      · refine List.pairwise_cons.mpr ⟨fun b hb => ?_, hes⟩
        rw [absorb_seq]
        exact ha b hb
      next hne =>
        refine List.pairwise_cons.mpr ⟨fun b hb => ?_, ih hes⟩
        rcases seq_of_mem_upsert hb with hseq | hb
        · omega
        · exact ha b hb

theorem numbered_rawEntries (rs : List Record) : Numbered (rawEntries rs) := by
  have hfold : ∀ (rs : List Record) (es : List Entry), Numbered es →
      Numbered (rs.foldl (fun es r => upsert r es) es) := by
    intro rs
    induction rs with
    | nil => exact fun _ h => h
    | cons r rs ih => exact fun es h => ih _ (numbered_upsert r h)
  exact hfold rs [] List.Pairwise.nil

theorem numbered_entriesOf (rs : List Record) : Numbered (entriesOf rs) :=
  (numbered_rawEntries rs).filter _

/-- The entry with a new phase, if it is the one of that number. -/
def Entry.reached (seq : Int) (phase : Phase) (e : Entry) : Entry :=
  if e.seq = seq then { e with phase := phase } else e

/-- A record that is not a `begin` changes the phase of the entry it is about. -/
theorem upsert_phase (hp : r.phase ≠ .begin) (h : Numbered es) (hmem : ∃ e ∈ es, e.seq = r.seq) :
    upsert r es = es.map (Entry.reached r.seq r.phase) := by
  induction es with
  | nil =>
    obtain ⟨e, he, _⟩ := hmem
    cases he
  | cons a es ih =>
    obtain ⟨ha, hes⟩ := List.pairwise_cons.mp h
    obtain ⟨e, he, hseq⟩ := hmem
    have hle : a.seq ≤ r.seq := by
      rcases List.mem_cons.mp he with rfl | he
      · exact hseq.le
      · have := ha e he
        omega
    have hlt : ¬r.seq < a.seq := by omega
    simp only [upsert, if_neg hlt, List.map_cons]
    by_cases heq : r.seq = a.seq
    · have hrest : es.map (Entry.reached r.seq r.phase) = es := by
        refine (List.map_congr_left fun b hb => ?_).trans (List.map_id es)
        have := ha b hb
        exact if_neg (by omega)
      rw [if_pos heq, hrest, Entry.reached, if_pos heq.symm, Entry.absorb, if_neg hp]
    · rw [if_neg heq, Entry.reached, if_neg (Ne.symm heq), ih hes]
      refine ⟨e, ?_, hseq⟩
      rcases List.mem_cons.mp he with rfl | he
      · exact absurd hseq.symm heq
      · exact he

theorem kept_reached (seq : Int) (phase : Phase) (e : Entry) :
    (e.reached seq phase).kept = e.kept := by
  unfold Entry.reached
  split <;> rfl

/-- `Undone` closes the entry it is about. -/
theorem Journal.entries_undone {seq : Int} (h : ∃ e ∈ j.entries, e.seq = seq) :
    (j.undone seq).entries = j.entries.map (Entry.reached seq .undone) := by
  obtain ⟨e, he, hseq⟩ := h
  have hraw : rawEntries (j.undone seq).records =
      (rawEntries j.records).map (Entry.reached seq .undone) := by
    show rawEntries (j.records ++ [_]) = _
    rw [rawEntries_append]
    exact upsert_phase (r := { seq := seq, phase := .undone, err := "" }) nofun
      (numbered_rawEntries _) ⟨e, (List.mem_filter.mp he).1, hseq⟩
  unfold Journal.entries entriesOf
  rw [hraw, List.filter_map]
  congr 1
  refine List.filter_congr fun b _ => ?_
  exact kept_reached seq .undone b

/-- An entry that was undone is not live any more, and the others are. -/
theorem liveOf_reached (seq : Int) (es : List Entry) :
    liveOf (es.map (Entry.reached seq .undone)) =
      (liveOf es).filter fun e => e.seq ≠ seq := by
  unfold liveOf
  rw [← List.map_reverse, List.filter_map, List.filter_filter]
  have hkeep : ∀ e : Entry, (Entry.needsUndo ∘ Entry.reached seq .undone) e =
      (decide (e.seq ≠ seq) && e.needsUndo) := by
    intro e
    simp only [Function.comp, Entry.reached]
    split
    next hseq => simp [Entry.needsUndo, hseq]
    next hseq => simp [hseq]
  rw [List.filter_congr fun e _ => hkeep e]
  refine (List.map_congr_left fun e he => ?_).trans (List.map_id _)
  rw [List.mem_filter, Bool.and_eq_true, decide_eq_true_eq] at he
  exact if_neg he.2.1

/-- The journal after `Undone` was written for some entries. -/
def Journal.recordUndone (j : Journal) (es : List Entry) : Journal :=
  es.foldl (fun j e => j.undone e.seq) j

/-- **What is live after some entries were undone**: the others. -/
theorem Journal.liveOf_recordUndone (h : ∀ e ∈ es, ∃ e' ∈ j.entries, e'.seq = e.seq) :
    liveOf (j.recordUndone es).entries =
      (liveOf j.entries).filter fun e => e.seq ∉ es.map Entry.seq := by
  induction es generalizing j with
  | nil => simp [recordUndone]
  | cons e es ih =>
    have hone := entries_undone (h e List.mem_cons_self)
    have hrest : ∀ b ∈ es, ∃ e' ∈ (j.undone e.seq).entries, e'.seq = b.seq := by
      intro b hb
      obtain ⟨e', he', hseq⟩ := h b (List.mem_cons_of_mem _ hb)
      refine ⟨e'.reached e.seq .undone, ?_, ?_⟩
      · rw [hone]
        exact List.mem_map_of_mem he'
      · rw [← hseq]
        unfold Entry.reached
        split <;> rfl
    show liveOf ((j.undone e.seq).recordUndone es).entries = _
    rw [ih hrest, hone, liveOf_reached, List.filter_filter]
    refine List.filter_congr fun b _ => ?_
    simp only [List.map_cons, List.mem_cons, not_or, Bool.decide_and, ne_eq]
    exact Bool.and_comm _ _

end Caspian.Netcfg
