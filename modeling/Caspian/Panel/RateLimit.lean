import Caspian.Verified.Table
import Caspian.Verified.TokenBucket

/-!
# The limit on password attempts

`attemptLimiter` holds one bucket for every client address and one for all of
them.  `allow` takes a token from both before a password is verified, and
`succeed` gives both back when it was right.  The clients' buckets are kept in a
map, and `pruneLocked` keeps the map small: it drops the full buckets, and if
that is not enough the fullest ones.

A refusal by the client's own bucket comes after the bucket of all clients has
given a token, and nothing gives that token back.
-/

namespace Caspian.Panel

open Verified

/-! ## The limiter -/

/-- A second; times are in nanoseconds. -/
def second : Nat := 1000000000

def attemptBurst : Nat := 5
def attemptRefill : Nat := 60 * second
def globalBurst : Nat := 20
def globalRefill : Nat := 15 * second
def maxLimiterKeys : Nat := 4096

/-- `attemptLimiter`. -/
structure AttemptLimiter where
  byAddr : Table String Bucket := .empty
  global : Bucket := {}

/-- The entry the inner loop of `pruneLocked` settles on. -/
def fullest (m : Table String Bucket) : String × Nat := least Bucket.fullAt m.entries

/-- The outer loop of `pruneLocked`; an iteration drops an entry, so as many
iterations as there are entries are enough. -/
def dropFullest : Nat → Table String Bucket → Table String Bucket
  | 0, m => m
  | n + 1, m =>
    if m.size < maxLimiterKeys then m
    else if (fullest m).1 = "" then m
    else dropFullest n (m.erase (fullest m).1)

/-- `pruneLocked`. -/
def pruneLocked (m : Table String Bucket) (now : Nat) : Table String Bucket :=
  if m.size < maxLimiterKeys then m
  else
    let m := m.keep fun _ b => now < b.fullAt
    dropFullest m.size m

/-- The map with an entry for the address. -/
def withEntry (m : Table String Bucket) (key : String) (now : Nat) : Table String Bucket :=
  match m.get key with
  | some _ => m
  | none => (pruneLocked m now).put key ⟨now⟩

/-- What `allow` answers: whether to go on, and how long to wait if not. -/
structure Answer where
  ok : Bool
  retryAfter : Int := 0
  deriving DecidableEq

/-- The bucket of the address in the map that has an entry for it. -/
def bucketFor (m : Table String Bucket) (key : String) (now : Nat) : Bucket :=
  ((withEntry m key now).get key).getD ⟨now⟩

/-- `allow`. -/
def allow (l : AttemptLimiter) (key : String) (now : Nat) : AttemptLimiter × Answer :=
  let taken := l.global.take now globalBurst globalRefill
  if taken.2 = false then
    ({ l with global := taken.1 }, ⟨false, taken.1.retryAfter now globalBurst globalRefill⟩)
  else
    let own := (bucketFor l.byAddr key now).take now attemptBurst attemptRefill
    ({ byAddr := (withEntry l.byAddr key now).put key own.1, global := taken.1 },
      if own.2 then ⟨true, 0⟩ else ⟨false, own.1.retryAfter now attemptBurst attemptRefill⟩)

/-- `succeed`. -/
def succeed (l : AttemptLimiter) (key : String) (now : Nat) : AttemptLimiter where
  byAddr :=
    match l.byAddr.get key with
    | some b => l.byAddr.put key (b.giveBack now attemptRefill)
    | none => l.byAddr
  global := l.global.giveBack now globalRefill

/-! ## Sequences of calls -/

inductive Call where
  | allow (key : String)
  | succeed (key : String)
  deriving DecidableEq

/-- A call and when it was made. -/
structure Event where
  time : Nat
  call : Call
  deriving DecidableEq

/-- The limiter after some calls, the newest first. -/
def limiterAfter : List Event → AttemptLimiter
  | [] => {}
  | ⟨now, .allow key⟩ :: past => (allow (limiterAfter past) key now).1
  | ⟨now, .succeed key⟩ :: past => succeed (limiterAfter past) key now

/-! ## What a refusal costs

The bucket of all clients is asked first, and what was taken from it is not put
back when the client's own bucket then refuses. -/

/-- Attempts all clients together have left. -/
def panelLeft (l : AttemptLimiter) (now : Nat) : Nat := l.global.tokens now globalBurst globalRefill

/-- Attempts an address has left in its own bucket, which is full until its first. -/
def addressLeft (l : AttemptLimiter) (key : String) (now : Nat) : Nat :=
  match l.byAddr.get key with
  | some b => b.tokens now attemptBurst attemptRefill
  | none => attemptBurst

section Refusal

variable {l : AttemptLimiter} {key : String} {now : Nat}

theorem allow_of_none (hnone : panelLeft l now = 0) : (allow l key now).1 = l := by
  have htake : (l.global.take now globalBurst globalRefill).2 = false :=
    Bucket.take_refused_iff.mpr hnone
  unfold allow
  simp only [htake, if_true]
  rw [Bucket.take_refused (by decide) htake]

theorem allow_of_some (hsome : panelLeft l now ≠ 0) :
    let own := (bucketFor l.byAddr key now).take now attemptBurst attemptRefill
    (allow l key now).1.global = (l.global.take now globalBurst globalRefill).1 ∧
      (allow l key now).1.byAddr = (withEntry l.byAddr key now).put key own.1 ∧
      (allow l key now).2.ok = own.2 := by
  have htake : ¬ (l.global.take now globalBurst globalRefill).2 = false :=
    fun h => hsome (Bucket.take_refused_iff.mp h)
  unfold allow
  dsimp only
  rw [if_neg htake]
  refine ⟨rfl, rfl, ?_⟩
  cases ((bucketFor l.byAddr key now).take now attemptBurst attemptRefill).2 <;> rfl

/-- An address that its own bucket refuses has an entry. -/
theorem bucketFor_refused
    (h : ((bucketFor l.byAddr key now).take now attemptBurst attemptRefill).2 = false) :
    ∃ b, l.byAddr.get key = some b ∧ withEntry l.byAddr key now = l.byAddr ∧
      ((bucketFor l.byAddr key now).take now attemptBurst attemptRefill).1 = b := by
  rw [Bucket.take_refused (by decide) h]
  unfold bucketFor withEntry at *
  cases hget : l.byAddr.get key with
  | some b => exact ⟨b, rfl, rfl, by simp [hget]⟩
  | none =>
    rw [hget] at h
    simp only [Table.get_put, if_true, Option.getD_some] at h
    rw [Bucket.take_refused_iff, Bucket.tokens, if_pos le_rfl] at h
    cases h

/-- A refused attempt leaves the own allowance of every address as it was.  It
leaves that of all of them together as it was exactly if there was none. -/
theorem refusal_free_iff (h : (allow l key now).2.ok = false) :
    (∀ later ≥ now, ∀ k, addressLeft (allow l key now).1 k later = addressLeft l k later) ∧
      ((∀ later ≥ now, panelLeft (allow l key now).1 later = panelLeft l later) ↔
        panelLeft l now = 0) := by
  by_cases hnone : panelLeft l now = 0
  · rw [allow_of_none hnone]
    exact ⟨fun _ _ _ => rfl, fun _ => hnone, fun _ _ _ => rfl⟩
  · obtain ⟨hglobal, hbyAddr, hok⟩ := @allow_of_some l key now hnone
    obtain ⟨b, hget, hentry, hown⟩ := bucketFor_refused (hok.symm.trans h)
    constructor
    · intro later _ k
      unfold addressLeft
      rw [hbyAddr, hentry, hown, Table.get_put]
      by_cases hk : k = key
      · rw [if_pos hk, hk, hget]
      · rw [if_neg hk]
    · refine iff_of_false (fun hsame => ?_) hnone
      -- the attempt was taken from the bucket of all clients and not put back
      have hcost := Bucket.tokens_take (by decide) hnone
      have hsame := hsame now le_rfl
      unfold panelLeft at hsame
      rw [hglobal] at hsame
      omega

end Refusal

/-- Some attempts of one address at one time. -/
def attempts (n : Nat) : List Event := List.replicate n ⟨0, .allow "10.42.0.2"⟩

theorem refusal_free_spent :
    (allow (limiterAfter (attempts 20)) "10.42.0.3" 0).2.ok = false ∧
      (∀ later ≥ 0, panelLeft (allow (limiterAfter (attempts 20)) "10.42.0.3" 0).1 later
        = panelLeft (limiterAfter (attempts 20)) later) := by
  have h : (allow (limiterAfter (attempts 20)) "10.42.0.3" 0).2.ok = false := by decide +kernel
  exact ⟨h, (refusal_free_iff h).2.mpr (by decide +kernel)⟩

/-- Fifteen refused attempts of one address use up what all have, and the next
address is refused its first. -/
theorem refusals_lock_out :
    (allow (limiterAfter (attempts 5)) "10.42.0.2" 0).2.ok = false ∧
      panelLeft (limiterAfter (attempts 5)) 0 = 15 ∧ panelLeft (limiterAfter (attempts 6)) 0 = 14 ∧
      (allow (limiterAfter (attempts 5)) "10.42.0.3" 0).2.ok = true ∧
      (allow (limiterAfter (attempts 20)) "10.42.0.3" 0).2.ok = false := by
  decide +kernel

end Caspian.Panel
