import Mathlib

/-!
# A stream that arrives in chunks

A reader hands out its bytes in chunks of its own choosing, some of them
perhaps empty.  `readFull` asks for a number of bytes and goes on asking until
it has them, and what it returns depends on the bytes alone: `readFull_ok` is
all that a caller needs to know about the chunks.
-/

namespace Caspian.Verified

/-- The chunks that are still to come. -/
abbrev Reader (α : Type) := List (List α)

namespace Reader

variable {α : Type}

/-- Why a read stopped: at the end of the stream, or in the middle of what was
asked for. -/
inductive ReadError where
  | eof
  | unexpectedEOF
  deriving DecidableEq, Repr

/-- `io.ReadFull`. -/
def readFull (n : Nat) : Reader α → Except ReadError (List α × Reader α)
  | [] => if n = 0 then .ok ([], []) else .error .eof
  | chunk :: r =>
    if n ≤ chunk.length then .ok (chunk.take n, chunk.drop n :: r)
    else
      match readFull (n - chunk.length) r with
      | .ok (bs, r') => .ok (chunk ++ bs, r')
      | .error .eof => .error (if chunk = [] then .eof else .unexpectedEOF)
      | .error .unexpectedEOF => .error .unexpectedEOF

/-- What was read is what the stream begins with, and the rest is what is left. -/
theorem readFull_ok {n : Nat} {r r' : Reader α} {bs : List α} (h : readFull n r = .ok (bs, r')) :
    bs.length = n ∧ r.flatten = bs ++ r'.flatten := by
  induction r generalizing n bs r' with
  | nil =>
    unfold readFull at h
    split at h
    · rename_i hn
      cases h
      exact ⟨hn.symm, rfl⟩
    · cases h
  | cons chunk r ih =>
    unfold readFull at h
    split at h
    · rename_i hle
      cases h
      constructor
      · rw [List.length_take, Nat.min_eq_left hle]
      · rw [List.flatten_cons, List.flatten_cons, ← List.append_assoc, List.take_append_drop]
    · rename_i hlt
      split at h
      · rename_i bs' r'' hrest
        cases h
        obtain ⟨hlen, hflat⟩ := ih hrest
        constructor
        · rw [List.length_append, hlen]
          omega
        · rw [List.flatten_cons, hflat, List.append_assoc]
      · cases h
      · cases h

end Reader

end Caspian.Verified
