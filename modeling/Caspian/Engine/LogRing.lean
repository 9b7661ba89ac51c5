import Caspian.Privsvc.Redaction
import Caspian.Verified.Ring

/-!
# The log rings

The engine and the privileged service keep their last log lines in rings of the
same code.  A line is redacted before it is stored.  What a ring returns is the
end of the list of everything that was added since the last reset, and an array
it returned is its caller's (`logRings_refine`).
-/

namespace Caspian.Engine

open Verified

structure LogEntry (T : Type) where
  time : T
  text : List Char

/-- A ring and the memory it is in. -/
structure LogRing (T : Type) where
  ring : Ring
  heap : Heap (LogEntry T)

variable {T : Type} [Inhabited T]

/-- The entry `LogEntry` literals without fields stand for. -/
def zeroEntry : LogEntry T := ⟨default, []⟩

/-- The capacity, or the one for none. -/
def capacityOr (usual : Nat) (capacity : Int) : Nat :=
  if capacity ≤ 0 then usual else capacity.toNat

def newRing (usual : Nat) (capacity : Int) (heap : Heap (LogEntry T)) : LogRing T where
  ring := { buf := heap.length }
  heap := heap ++ [List.replicate (capacityOr usual capacity) zeroEntry]

/-- `NewLogRing`. -/
def newLogRing (capacity : Int) (heap : Heap (LogEntry T)) : LogRing T := newRing 256 capacity heap

/-- `newDiagRing`. -/
def newDiagRing (capacity : Int) (heap : Heap (LogEntry T)) : LogRing T := newRing 64 capacity heap

/-- What is done with a ring. -/
inductive LogOp (T : Type) where
  | add (now : T) (text : List Char)
  | entries
  | reset

def LogRing.step (s : LogRing T) : LogOp T → LogRing T
  | .add now text =>
    let after := s.ring.add ⟨now, redact text⟩ s.heap
    ⟨after.1, after.2⟩
  | .entries => ⟨s.ring, (s.ring.entries s.heap).2⟩
  | .reset =>
    let after := s.ring.reset zeroEntry s.heap
    ⟨after.1, after.2⟩

def LogRing.run (s : LogRing T) (ops : List (LogOp T)) : LogRing T := ops.foldl LogRing.step s

/-- The entries that were added since the last reset. -/
def added : List (LogEntry T) → List (LogOp T) → List (LogEntry T)
  | xs, [] => xs
  | xs, .add now text :: ops => added (xs ++ [⟨now, redact text⟩]) ops
  | xs, .entries :: ops => added xs ops
  | _, .reset :: ops => added [] ops

/-- A ring of `c` cells shows the last `c` of the entries and counts the others,
and an array it returns is left alone by all that is done later. -/
def LogRing.Refines (s : LogRing T) (c : Nat) (xs : List (LogEntry T)) : Prop :=
  s.ring.kept s.heap = xs.rtake c ∧ s.ring.dropped = UInt64.ofNat (xs.length - c) ∧
    ∀ later, ((s.step .entries).run later).heap[(s.ring.entries s.heap).1]? = some (xs.rtake c)

theorem holds_run {s : LogRing T} {c : Nat} {xs : List (LogEntry T)} (ops : List (LogOp T))
    (h : s.ring.Holds c xs s.heap) :
    (s.run ops).ring.Holds c (added xs ops) (s.run ops).heap := by
  induction ops generalizing s xs with
  | nil => exact h
  | cons op ops ih =>
    cases op with
    | add now text => exact ih (h.add _)
    | entries => exact ih h.entries
    | reset => exact ih (h.reset _)

/-- An array that is not the ring's stays as it is. -/
theorem run_apart {s : LogRing T} {a : Nat} (ops : List (LogOp T)) (ha : a ≠ s.ring.buf)
    (hlt : a < s.heap.length) : (s.run ops).heap[a]? = s.heap[a]? := by
  induction ops generalizing s with
  | nil => rfl
  | cons op ops ih =>
    have hstep : (s.step op).heap[a]? = s.heap[a]? ∧ (s.step op).ring.buf = s.ring.buf ∧
        s.heap.length ≤ (s.step op).heap.length := by
      cases op with
      | add now text =>
        exact ⟨List.getElem?_set_ne ha.symm, rfl, (List.length_set ..).ge⟩
      | entries => exact ⟨List.getElem?_append_left hlt, rfl, by simp [LogRing.step, Ring.entries]⟩
      | reset => exact ⟨List.getElem?_set_ne ha.symm, rfl, (List.length_set ..).ge⟩
    obtain ⟨hsame, hbuf, hle⟩ := hstep
    exact (ih (hbuf ▸ ha) (hlt.trans_le hle)).trans hsame

theorem refines_of_holds {s : LogRing T} {c : Nat} {xs : List (LogEntry T)}
    (h : s.ring.Holds c xs s.heap) : s.Refines c xs := by
  refine ⟨h.kept, h.dropped, fun later => ?_⟩
  have hlt : s.heap.length < (s.step .entries).heap.length := by
    simp [LogRing.step, Ring.entries]
  show ((s.step .entries).run later).heap[s.heap.length]? = _
  rw [run_apart (s := s.step .entries) later h.here.ne' hlt, ← h.kept]
  exact List.getElem?_concat_length ..

theorem newRing_refines {usual : Nat} (husual : 0 < usual) (capacity : Int)
    (heap : Heap (LogEntry T)) (ops : List (LogOp T)) :
    ((newRing usual capacity heap).run ops).Refines (capacityOr usual capacity) (added [] ops) := by
  have hpos : 0 < capacityOr usual capacity := by
    unfold capacityOr
    split <;> omega
  refine refines_of_holds (holds_run ops (Ring.holds_new hpos (r := ⟨heap.length, 0, false, 0⟩) ?_ ?_))
  · simp [newRing]
  · simp [newRing, Ring.cells]

/-- **Both log rings refine a bounded queue.** -/
theorem logRings_refine (capacity : Int) (heap : Heap (LogEntry T)) (ops : List (LogOp T)) :
    ((newLogRing capacity heap).run ops).Refines (capacityOr 256 capacity) (added [] ops) ∧
      ((newDiagRing capacity heap).run ops).Refines (capacityOr 64 capacity) (added [] ops) :=
  ⟨newRing_refines (by decide) capacity heap ops, newRing_refines (by decide) capacity heap ops⟩

end Caspian.Engine
