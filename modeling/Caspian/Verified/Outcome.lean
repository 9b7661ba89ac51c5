import Mathlib

/-!
# Taking a successful computation apart

A function that returns `Except` is proved about by peeling its binds: a
computation that succeeded had every part of it succeed.
-/

namespace Caspian.Verified.Outcome

variable {ε α β : Type}

/-- Both halves of a successful bind succeeded. -/
theorem bind_ok {x : Except ε α} {f : α → Except ε β} {b : β}
    (h : x >>= f = .ok b) : ∃ a, x = .ok a ∧ f a = .ok b := by
  cases x with
  | error e => cases h
  | ok a => exact ⟨a, rfl, h⟩

/-- A guarded computation that succeeded was not stopped by its guard. -/
theorem guard_ok {c : Prop} [Decidable c] {e : ε} {x : Except ε α} {a : α}
    (h : (if c then .error e else x) = .ok a) : ¬c ∧ x = .ok a := by
  split at h
  · cases h
  · exact ⟨‹_›, h⟩

/-- Wrapping the error of a computation keeps its success. -/
theorem mapError_ok {δ : Type} {x : Except ε α} {f : ε → δ} {a : α}
    (h : x.mapError f = .ok a) : x = .ok a := by
  cases x with
  | error e => cases h
  | ok b => exact congrArg Except.ok (Except.ok.inj h)

theorem ok_of_isOk {x : Except ε α} (h : x.isOk = true) : ∃ a, x = .ok a := by
  cases x with
  | error e => cases h
  | ok a => exact ⟨a, rfl⟩

/-- A computation whose value passes a test succeeded with such a value. -/
theorem ok_of_any {x : Except ε α} {test : α → Bool} (h : x.toOption.any test = true) :
    ∃ a, x = .ok a ∧ test a = true := by
  cases x with
  | error e => cases h
  | ok a => exact ⟨a, rfl, h⟩

/-! ## What a computation fails with -/

/-- Every error of the computation has the property. -/
def Errs (P : ε → Prop) (x : Except ε α) : Prop := ∀ e, x = .error e → P e

section Errs

variable {P : ε → Prop} {x : Except ε α} {f : α → Except ε β}

theorem errs_ok (a : α) : Errs P (.ok a : Except ε α) := by
  intro e h
  cases h

theorem errs_error {e : ε} (h : P e) : Errs P (.error e : Except ε α) := by
  intro e' he
  rwa [← Except.error.inj he]

theorem Errs.mono {Q : ε → Prop} (hx : Errs P x) (h : ∀ e, P e → Q e) : Errs Q x :=
  fun e he => h e (hx e he)

/-- A bind fails as its first half does, or as the rest does after it succeeded. -/
theorem Errs.bind (hx : Errs P x) (hf : ∀ a, x = .ok a → Errs P (f a)) : Errs P (x >>= f) := by
  intro e h
  cases hxa : x with
  | error e' =>
    rw [hxa] at h
    obtain rfl : e' = e := Except.error.inj h
    exact hx e' hxa
  | ok a =>
    rw [hxa] at h
    exact hf a hxa e h

theorem Errs.ite {c : Prop} [Decidable c] {y : Except ε α} (hx : Errs P x) (hy : Errs P y) :
    Errs P (if c then x else y) := by
  split
  · exact hx
  · exact hy

/-- A traversal fails as one of its elements does. -/
theorem errs_mapM {g : α → Except ε β} (h : ∀ a, Errs P (g a)) (l : List α) :
    Errs P (l.mapM g) := by
  induction l with
  | nil => exact errs_ok []
  | cons a rest ih =>
    rw [List.mapM_cons]
    refine (h a).bind fun b _ => ih.bind fun bs _ => errs_ok _

end Errs

end Caspian.Verified.Outcome
