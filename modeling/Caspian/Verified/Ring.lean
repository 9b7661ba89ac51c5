import Mathlib

/-!
# A ring of cells

An array that is written round and round, with the place of the next write and
a mark that it was written through.  `Ring.Holds` relates it to the list of
everything that was added, of which `kept` is the end.

The arrays are in a heap, so that it can be said of a copy that what the ring
does later does not reach it.
-/

namespace Caspian.Verified

/-- The arrays that were allocated, by their address. -/
abbrev Heap (α : Type) := List (List α)

structure Ring where
  buf : Nat
  next : Nat := 0
  filled : Bool := false
  dropped : UInt64 := 0

namespace Ring

variable {α : Type}

def cells (r : Ring) (m : Heap α) : List α := m.getD r.buf []

/-- Write the next cell. -/
def add (x : α) (r : Ring) (m : Heap α) : Ring × Heap α :=
  let next := (r.next + 1) % (r.cells m).length
  ({ r with
      next := next
      filled := r.filled || next = 0
      dropped := if r.filled then r.dropped + 1 else r.dropped },
    m.set r.buf ((r.cells m).set r.next x))

/-- The retained values, oldest first. -/
def kept (r : Ring) (m : Heap α) : List α :=
  (if r.filled then (r.cells m).drop r.next else []) ++ (r.cells m).take r.next

/-- The retained values in an array of their own, and its address. -/
def entries (r : Ring) (m : Heap α) : Nat × Heap α := (m.length, m ++ [r.kept m])

def reset (zero : α) (r : Ring) (m : Heap α) : Ring × Heap α :=
  ({ buf := r.buf }, m.set r.buf ((r.cells m).map fun _ => zero))

/-- The ring has `c` cells and was given these values. -/
structure Holds (c : Nat) (xs : List α) (r : Ring) (m : Heap α) : Prop where
  here : r.buf < m.length
  size : (r.cells m).length = c
  next_lt : r.next < c
  filled : r.filled = decide (c ≤ xs.length)
  dropped : r.dropped = UInt64.ofNat (xs.length - c)
  kept : r.kept m = xs.rtake c

variable {c : Nat} {x : α} {xs : List α} {r : Ring} {m : Heap α}

theorem cells_set (h : r.buf < m.length) (bs : List α) {r' : Ring} (hr : r'.buf = r.buf) :
    r'.cells (m.set r.buf bs) = bs := by
  simp [cells, hr, h]

/-- A value that is added comes last, and the first one goes if all cells were
in use. -/
theorem kept_add (hhere : r.buf < m.length) (hnext : r.next < (r.cells m).length) :
    (r.add x m).1.kept (r.add x m).2 =
      (if r.filled then (r.kept m).tail else r.kept m) ++ [x] := by
  obtain ⟨pre, b, post, hcells, hpre⟩ :
      ∃ pre b post, r.cells m = pre ++ b :: post ∧ r.next = pre.length := by
    refine ⟨(r.cells m).take r.next, (r.cells m)[r.next], (r.cells m).drop (r.next + 1), ?_, ?_⟩
    · rw [List.getElem_cons_drop, List.take_append_drop]
    · rw [List.length_take, Nat.min_eq_left hnext.le]
  have hset : (r.cells m).set r.next x = pre ++ x :: post := by
    rw [hcells, hpre, List.set_append_right _ _ le_rfl, Nat.sub_self, List.set_cons_zero]
  have hlast : (r.add x m).1.cells (r.add x m).2 = pre ++ x :: post :=
    (cells_set hhere _ rfl).trans hset
  unfold kept
  rw [hlast, hcells, hpre]
  simp only [add, hcells, hpre, List.length_append, List.length_cons]
  -- the write was in the last cell, or it was not
  cases post with
  | nil => cases r.filled <;> simp
  | cons d post =>
    have hmod : (pre.length + 1) % (pre.length + (post.length + 1 + 1)) = pre.length + 1 :=
      Nat.mod_eq_of_lt (by omega)
    have htake : (pre ++ x :: d :: post).take (pre.length + 1) = pre ++ [x] := by
      rw [List.take_length_add_append]
      rfl
    have hdrop : (pre ++ x :: d :: post).drop (pre.length + 1) = d :: post := by simp
    rw [List.length_cons, hmod, htake, hdrop]
    cases r.filled <;> simp

theorem Holds.add (h : Holds c xs r m) (x : α) :
    Holds c (xs ++ [x]) (r.add x m).1 (r.add x m).2 := by
  have hnext : r.next < (r.cells m).length := h.size.symm ▸ h.next_lt
  have hcells : (r.add x m).1.cells (r.add x m).2 = (r.cells m).set r.next x :=
    cells_set h.here _ rfl
  have hlen : xs.length < c → r.next = xs.length := by
    intro hlt
    have hkept := congrArg List.length h.kept
    have hfree : r.filled = false := by rw [h.filled, decide_eq_false (by omega)]
    simp only [Ring.kept, hfree, Bool.false_eq_true, if_false, List.nil_append, List.length_take,
      List.rtake, List.length_drop] at hkept
    omega
  constructor
  case here => simpa [Ring.add] using h.here
  case size => rw [hcells, List.length_set, h.size]
  case next_lt => exact h.size ▸ Nat.mod_lt _ (by omega)
  case filled =>
    simp only [Ring.add, h.filled, h.size, List.length_append, List.length_singleton]
    by_cases hfull : c ≤ xs.length
    · simp only [hfull, decide_true, Bool.true_or, Nat.le_succ_of_le hfull]
    · rw [hlen (by omega), decide_eq_false hfull, Bool.false_or, decide_eq_decide]
      have hlt := h.next_lt
      by_cases hlast : xs.length + 1 = c
      · simp [hlast]
      · rw [Nat.mod_eq_of_lt (by omega)]
        omega
  case dropped =>
    simp only [Ring.add, h.filled, h.dropped, decide_eq_true_eq, List.length_append,
      List.length_singleton]
    split
    · rw [Nat.sub_add_comm (by assumption), UInt64.ofNat_add]
      rfl
    · rw [Nat.sub_eq_zero_of_le (by omega), Nat.sub_eq_zero_of_le (by omega)]
  case kept =>
    rw [kept_add h.here hnext, h.kept, h.filled]
    simp only [List.rtake, decide_eq_true_eq, List.length_append, List.length_singleton]
    split
    · rw [List.tail_drop, List.drop_append_of_le_length (by have := h.next_lt; omega),
        Nat.sub_add_comm (by assumption)]
    · rw [Nat.sub_eq_zero_of_le (by omega), Nat.sub_eq_zero_of_le (by omega)]
      rfl

theorem holds_new (hc : 0 < c) (h : r.buf < m.length) (hsize : (r.cells m).length = c) :
    Holds c [] { buf := r.buf } m where
  here := h
  size := hsize
  next_lt := hc
  filled := (decide_eq_false (by simpa using hc.ne')).symm
  dropped := by simp
  kept := by simp [Ring.kept, List.rtake]

theorem Holds.reset (h : Holds c xs r m) (zero : α) :
    Holds c [] (r.reset zero m).1 (r.reset zero m).2 := by
  refine holds_new (Nat.zero_lt_of_lt h.next_lt) (r := r) (by simpa [Ring.reset] using h.here) ?_
  rw [Ring.reset, cells_set h.here _ rfl, List.length_map, h.size]

/-- Copying does not touch the ring. -/
theorem Holds.entries (h : Holds c xs r m) : Holds c xs r (r.entries m).2 := by
  have hcells : r.cells (r.entries m).2 = r.cells m := List.getD_append _ _ _ _ h.here
  refine ⟨?_, by rw [hcells, h.size], h.next_lt, h.filled, h.dropped, ?_⟩
  · have := h.here
    simp only [Ring.entries, List.length_append]
    omega
  · rw [Ring.kept, hcells]
    exact h.kept

end Ring

end Caspian.Verified
