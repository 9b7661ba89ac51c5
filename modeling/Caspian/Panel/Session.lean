import Caspian.Panel.RateLimit

/-!
# The panel's sessions

`sessionStore` keeps the sessions of signed-in browsers in a map from the digest
of a session's token to the session.  Every use of the store first drops the
sessions that have expired.  Every critical section reads the clock twice, once
for that and once for the session it creates or finds; the two readings are
arguments here.  A session's message for the next page is left out.
-/

namespace Caspian.Panel

open Verified

def hour : Nat := 3600 * second

def sessionLifetime : Nat := 12 * hour
def sessionIdle : Nat := 2 * hour
def maxSessions : Nat := 64

/-- `session`. -/
structure Session where
  csrf : String
  created : Nat
  lastSeen : Nat
  deriving DecidableEq, Repr

/-- `touch`. -/
def Session.touch (s : Session) (now : Nat) : Session := { s with lastSeen := now }

/-- `checkCSRF`. -/
def Session.checkCSRF (s : Session) (got : String) : Bool :=
  s.csrf ≠ "" && got ≠ "" && s.csrf = got

/-- The test of `pruneLocked`. -/
def Session.expired (s : Session) (now : Nat) : Bool :=
  s.created + sessionLifetime < now || s.lastSeen + sessionIdle < now

/-- A digest of tokens, `sessionKey`: what is assumed of SHA-256 is that no two
tokens that occur have the same one. -/
structure Digest where
  sessionKey : String → String
  injective : ∀ {a b : String}, sessionKey a = sessionKey b → a = b
  ne_empty : ∀ token, sessionKey token ≠ ""

/-- The map of `sessionStore`. -/
abbrev SessionStore := Table String Session

/-- `pruneLocked` of the sessions. -/
def pruneSessions (t : SessionStore) (now : Nat) : SessionStore := t.keep fun _ v => !v.expired now

/-- `evictOldestLocked`. -/
def evictOldest (t : SessionStore) : SessionStore :=
  let oldestKey := (least Session.lastSeen t.entries).1
  if oldestKey ≠ "" then t.erase oldestKey else t

variable (d : Digest)

/-- `create`, with the tokens it drew. -/
def createSession (t : SessionStore) (token csrf : String) (first later : Nat) : SessionStore :=
  let t := pruneSessions t first
  let t := if maxSessions ≤ t.size then evictOldest t else t
  t.put (d.sessionKey token) ⟨csrf, later, later⟩

/-- `lookup`. -/
def lookupSession (t : SessionStore) (token : String) (first later : Nat) :
    SessionStore × Option Session :=
  if token = "" then (t, none)
  else
    let t := pruneSessions t first
    match t.get (d.sessionKey token) with
    | none => (t, none)
    | some s => (t.put (d.sessionKey token) (s.touch later), some (s.touch later))

/-- `destroy`. -/
def destroySession (t : SessionStore) (token : String) : SessionStore :=
  if token = "" then t else t.erase (d.sessionKey token)

/-- `destroyAll`. -/
def destroyAll : SessionStore := .empty

/-! ## What the operations leave -/

variable {d} {t : SessionStore} {token csrf k : String} {first later : Nat} {s : Session}

theorem get_pruneSessions :
    (pruneSessions t first).get k = some s ↔ t.get k = some s ∧ s.expired first = false := by
  unfold pruneSessions
  rw [Table.get_keep, Option.filter_eq_some_iff]
  simp

theorem not_expired (h : s.expired first = false) :
    first ≤ s.created + sessionLifetime ∧ first ≤ s.lastSeen + sessionIdle := by
  unfold Session.expired at h
  simp only [Bool.or_eq_false_iff, decide_eq_false_iff_not] at h
  omega

theorem size_pruneSessions_le : (pruneSessions t first).size ≤ t.size := Table.size_keep_le _

/-- A session that is found was there and has not expired. -/
theorem lookup_some (h : (lookupSession d t token first later).2 = some s) :
    token ≠ "" ∧ ∃ old, t.get (d.sessionKey token) = some old ∧ old.expired first = false ∧
      s = old.touch later ∧
      (lookupSession d t token first later).1 =
        (pruneSessions t first).put (d.sessionKey token) (old.touch later) := by
  unfold lookupSession at h ⊢
  by_cases hempty : token = ""
  · simp [hempty] at h
  · simp only [hempty, if_false] at h ⊢
    cases hget : (pruneSessions t first).get (d.sessionKey token) with
    | none => simp [hget] at h
    | some old =>
      simp only [hget, Option.some.injEq] at h ⊢
      obtain ⟨hold, hlive⟩ := get_pruneSessions.mp hget
      exact ⟨hempty, old, hold, hlive, h.symm, rfl⟩

/-- A token that is not found leaves what has not expired, or everything. -/
theorem lookup_none (h : (lookupSession d t token first later).2 = none) :
    (lookupSession d t token first later).1 = t ∨
      (lookupSession d t token first later).1 = pruneSessions t first := by
  unfold lookupSession at h ⊢
  by_cases hempty : token = ""
  · simp [hempty]
  · simp only [hempty, if_false] at h ⊢
    cases hget : (pruneSessions t first).get (d.sessionKey token) with
    | none => simp
    | some old => simp [hget] at h

theorem size_lookup_le : (lookupSession d t token first later).1.size ≤ t.size := by
  cases h : (lookupSession d t token first later).2 with
  | none =>
    rcases lookup_none h with heq | heq
    · exact Nat.le_of_eq (congrArg Table.size heq)
    · rw [heq]
      exact size_pruneSessions_le
  | some s =>
    obtain ⟨_, old, hold, hlive, _, heq⟩ := lookup_some h
    have hget := get_pruneSessions.mpr ⟨hold, hlive⟩
    rw [heq, Table.size_put_old (by simp [hget])]
    exact size_pruneSessions_le

/-- What is evicted, if anything, was used least recently. -/
theorem evictOldest_spec (hkeys : ∀ k, t.get k ≠ none → k ≠ "") (hne : t.size ≠ 0) :
    ∃ k s, t.get k = some s ∧ evictOldest t = t.erase k ∧
      ∀ k' s', t.get k' = some s' → s.lastSeen ≤ s'.lastSeen := by
  have hentries : ∀ e ∈ t.entries, e.1 ≠ "" := by
    intro e he
    exact hkeys e.1 (by simp [Table.get_eq_some.mpr he])
  obtain ⟨e, he, hleast, hall⟩ := @least_spec _ Session.lastSeen _ hentries (by
    intro hnil
    exact hne (by simp [Table.size, hnil]))
  refine ⟨e.1, e.2, Table.get_eq_some.mpr he, ?_, ?_⟩
  · unfold evictOldest
    simp only [hleast, hentries e he, ne_eq, not_false_eq_true, if_true]
  · intro k' s' hget
    exact hall _ (Table.get_eq_some.mp hget)

theorem size_erase_lt (h : t.get k = some s) : (t.erase k).size < t.size :=
  Table.size_keep_lt (Table.get_eq_some.mp h) (by simp)

/-- The sessions that make room for a new one: none, or the least recently used. -/
theorem create_spec (hkeys : ∀ k, t.get k ≠ none → k ≠ "") (d : Digest) (token csrf : String)
    (first later : Nat) :
    ∃ kept : SessionStore, createSession d t token csrf first later =
        kept.put (d.sessionKey token) ⟨csrf, later, later⟩ ∧
      (∀ k s, kept.get k = some s → (pruneSessions t first).get k = some s) ∧
      (t.size ≤ maxSessions → kept.size < maxSessions) ∧
      (kept = pruneSessions t first ∨
        maxSessions ≤ (pruneSessions t first).size ∧
          ∃ k s, (pruneSessions t first).get k = some s ∧ kept = (pruneSessions t first).erase k ∧
            ∀ k' s', (pruneSessions t first).get k' = some s' → s.lastSeen ≤ s'.lastSeen) := by
  by_cases hfull : maxSessions ≤ (pruneSessions t first).size
  · have hlive : ∀ k, (pruneSessions t first).get k ≠ none → k ≠ "" := by
      intro k hk
      obtain ⟨s, hs⟩ := Option.ne_none_iff_exists'.mp hk
      exact hkeys k (by simp [(get_pruneSessions.mp hs).1])
    have hpos : (pruneSessions t first).size ≠ 0 := by
      have : 0 < maxSessions := by decide
      omega
    obtain ⟨k, s, hget, hevict, hleast⟩ := evictOldest_spec hlive hpos
    refine ⟨(pruneSessions t first).erase k, ?_, ?_, ?_, .inr ⟨hfull, k, s, hget, rfl, hleast⟩⟩
    · unfold createSession
      simp only [hfull, if_true, hevict]
    · intro k' s' hk'
      rw [Table.get_erase] at hk'
      split_ifs at hk'
      exact hk'
    · intro hsize
      have hlt := size_erase_lt hget
      have hle : (pruneSessions t first).size ≤ t.size := size_pruneSessions_le
      omega
  · refine ⟨pruneSessions t first, ?_, fun _ _ h => h, fun _ => by omega, .inl rfl⟩
    unfold createSession
    simp only [hfull, if_false]

end Caspian.Panel
