import Mathlib

/-!
# Token buckets kept as a time

A bucket of `burst` tokens that come back one every `refill` units of time can
be kept as a single number: the time at which it will be full.  What is missing
from it at a time is its `debt`, the time left until then.  Taking a token adds
one `refill` to the debt, giving one back takes one off, and waiting takes off
the time that has passed.  In all three the debt never falls by more than that,
which is what bounds the tokens taken in a stretch of time: a debt is at most
`burst` refills.
-/

namespace Caspian.Verified

/-- A token bucket: when it is full. -/
structure Bucket where
  fullAt : Nat := 0
  deriving DecidableEq, Repr

namespace Bucket

/-- Whole tokens available. -/
def tokens (b : Bucket) (now burst refill : Nat) : Nat :=
  if b.fullAt ≤ now then burst
  else burst - min burst ((b.fullAt - now + refill - 1) / refill)

/-- A bucket that was full before `now` counts as full at `now`. -/
def settle (b : Bucket) (now : Nat) : Bucket := if b.fullAt < now then ⟨now⟩ else b

/-- The bucket after one token was asked for, and whether there was one. -/
def take (b : Bucket) (now burst refill : Nat) : Bucket × Bool :=
  let b := b.settle now
  if b.tokens now burst refill = 0 then (b, false) else (⟨b.fullAt + refill⟩, true)

/-- How long until the next token, for a bucket that has none. -/
def retryAfter (b : Bucket) (now burst refill : Nat) : Int :=
  (b.fullAt : Int) - now - ((burst : Int) - 1) * refill

/-- The bucket after one token was given back. -/
def giveBack (b : Bucket) (now refill : Nat) : Bucket := settle ⟨b.fullAt - refill⟩ now

variable {b : Bucket} {now burst refill : Nat}

/-- A missing token is a refill begun. -/
theorem tokens_eq (hrefill : 0 < refill) :
    b.tokens now burst refill = burst - (b.fullAt - now + refill - 1) / refill := by
  unfold tokens
  split
  next hfull =>
    have hnone : (b.fullAt - now + refill - 1) / refill = 0 := Nat.div_eq_of_lt (by omega)
    rw [hnone, Nat.sub_zero]
  next => omega

theorem tokens_settle : (b.settle now).tokens now burst refill = b.tokens now burst refill := by
  unfold settle tokens
  split
  next hpast => rw [if_pos le_rfl, if_pos (Nat.le_of_lt hpast)]
  next => rfl

theorem take_eq : b.take now burst refill =
    if b.tokens now burst refill = 0 then (b.settle now, false)
    else (⟨(b.settle now).fullAt + refill⟩, true) := by
  rw [← tokens_settle (b := b)]
  rfl

theorem take_refused_iff : (b.take now burst refill).2 = false ↔ b.tokens now burst refill = 0 := by
  rw [take_eq]
  split <;> simp_all

/-- A bucket that refuses is not full, and stays as it was. -/
theorem take_refused (hburst : 0 < burst) (h : (b.take now burst refill).2 = false) :
    (b.take now burst refill).1 = b := by
  have hnone := take_refused_iff.mp h
  have hlate : ¬ b.fullAt < now := by
    intro hpast
    rw [tokens, if_pos (Nat.le_of_lt hpast)] at hnone
    omega
  rw [take_eq, if_pos hnone]
  exact if_neg hlate

/-- A token taken is one less. -/
theorem tokens_take (hrefill : 0 < refill) (hsome : b.tokens now burst refill ≠ 0) :
    (b.take now burst refill).1.tokens now burst refill + 1 = b.tokens now burst refill := by
  rw [take_eq, if_neg hsome]
  rw [← tokens_settle (b := b)] at hsome ⊢
  have hlate : now ≤ (b.settle now).fullAt := by
    unfold settle
    split
    next => exact le_rfl
    next hpast => exact Nat.le_of_not_lt hpast
  generalize b.settle now = s at hsome hlate ⊢
  have hone : (s.fullAt + refill - now + refill - 1) / refill
      = (s.fullAt - now + refill - 1) / refill + 1 := by
    rw [← Nat.add_div_right _ hrefill]
    congr 1
    omega
  rw [tokens_eq hrefill] at hsome
  rw [tokens_eq hrefill, tokens_eq hrefill, hone]
  omega

end Bucket

end Caspian.Verified
