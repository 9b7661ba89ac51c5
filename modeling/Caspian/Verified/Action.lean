import Mathlib

/-!
# Stateful computations that may stop

A program that changes a state and may stop part way keeps the changes it made
before it stopped.  An `Action` is such a program: it returns a value or an
error, and in both cases the state it leaves behind.  `Triple P x Q E` says
what is true of that state when `P` was true before: `Q` with the value when
the program went through, `E` with the error when it stopped.  The rules are
the usual ones, one for each way of putting programs together; a program that
keeps a property whatever happens is `Keeps`.
-/

namespace Caspian.Verified

/-- A computation over a state that returns a value or stops with an error. -/
def Action (ε S α : Type) : Type := S → Except ε α × S

namespace Action

variable {ε δ S α β : Type}

instance : Monad (Action ε S) where
  pure a := fun s => (.ok a, s)
  bind x f := fun s =>
    match x s with
    | (.ok a, s') => f a s'
    | (.error e, s') => (.error e, s')

/-- Stop. -/
def stop (e : ε) : Action ε S α := fun s => (.error e, s)

/-- The outcome of a pure check. -/
def ofExcept (x : Except ε α) : Action ε S α := fun s => (x, s)

/-- Look at the state. -/
def read (f : S → α) : Action ε S α := fun s => (.ok (f s), s)

/-- Change the state. -/
def update (f : S → S) : Action ε S Unit := fun s => (.ok (), f s)

/-- Stop if the condition holds. -/
def refuse (c : Bool) (e : ε) : Action ε S Unit := if c then stop e else pure ()

/-- Wrap the error. -/
def wrap (f : ε → δ) (x : Action ε S α) : Action δ S α := fun s =>
  match x s with
  | (.ok a, s') => (.ok a, s')
  | (.error e, s') => (.error (f e), s')

/-- Run `y` if `x` stopped, and stop with the error of `x` all the same. -/
def onError (x : Action ε S α) (y : Action δ S Unit) : Action ε S α := fun s =>
  match x s with
  | (.ok a, s') => (.ok a, s')
  | (.error e, s') => (.error e, (y s').2)

/-- Run it for its effect and go on whatever it says. -/
def attempt (x : Action ε S α) : Action δ S (Except ε α) := fun s => (.ok (x s).1, (x s).2)

theorem bind_run (x : Action ε S α) (f : α → Action ε S β) (s : S) :
    (x >>= f) s = match x s with
      | (.ok a, s') => f a s'
      | (.error e, s') => (.error e, s') := rfl

theorem pure_run (a : α) (s : S) : (pure a : Action ε S α) s = (.ok a, s) := rfl

variable {x : Action ε S α} {f : α → Action ε S β} {s s' : S} {a : α}

theorem bind_ok (h : x s = (.ok a, s')) : (x >>= f) s = f a s' := by
  rw [bind_run, h]

variable {e : ε}

theorem bind_error (h : x s = (.error e, s')) : (x >>= f) s = (.error e, s') := by
  rw [bind_run, h]

theorem wrap_ok (h : x s = (.ok a, s')) (f : ε → δ) : wrap f x s = (.ok a, s') := by
  rw [wrap, h]

theorem wrap_error (h : x s = (.error e, s')) (f : ε → δ) : wrap f x s = (.error (f e), s') := by
  rw [wrap, h]

theorem attempt_run {r : Except ε α} (h : x s = (r, s')) :
    (attempt x : Action δ S (Except ε α)) s = (.ok r, s') := by
  rw [attempt, h]

/-- A run of two programs that went through, taken apart. -/
theorem of_bind_ok {b : β} (h : (x >>= f) s = (.ok b, s')) :
    ∃ a t, x s = (.ok a, t) ∧ f a t = (.ok b, s') := by
  cases hrun : x s with
  | mk r t =>
    cases r with
    | ok a => exact ⟨a, t, rfl, (bind_ok hrun).symm.trans h⟩
    | error e =>
      rw [bind_error hrun] at h
      cases h

theorem of_wrap_ok {f : ε → δ} (h : wrap f x s = (.ok a, s')) : x s = (.ok a, s') := by
  cases hrun : x s with
  | mk r t =>
    cases r with
    | ok b =>
      rw [wrap_ok hrun] at h
      cases h
      rfl
    | error e =>
      rw [wrap_error hrun] at h
      cases h

/-- What is true after the program, whether it went through or stopped. -/
def Triple (P : S → Prop) (x : Action ε S α) (Q : α → S → Prop) (E : ε → S → Prop) : Prop :=
  ∀ s, P s →
    match x s with
    | (.ok a, s') => Q a s'
    | (.error e, s') => E e s'

/-- The program keeps a property, whether it goes through or stops. -/
def Keeps (I : S → Prop) (x : Action ε S α) : Prop := Triple I x (fun _ => I) (fun _ => I)

variable {P P' I : S → Prop} {Q Q' : α → S → Prop} {R : β → S → Prop} {E E' : ε → S → Prop}

/-- What the rules conclude, in terms of a run. -/
theorem Triple.ok (h : Triple P x Q E) (hs : P s) (hx : x s = (.ok a, s')) : Q a s' := by
  have := h s hs
  rw [hx] at this
  exact this

theorem Triple.error (h : Triple P x Q E) (hs : P s) (hx : x s = (.error e, s')) : E e s' := by
  have := h s hs
  rw [hx] at this
  exact this

theorem Triple.of_runs (hok : ∀ s a s', P s → x s = (.ok a, s') → Q a s')
    (herr : ∀ s e s', P s → x s = (.error e, s') → E e s') : Triple P x Q E := by
  intro s hs
  split
  next a s' hx => exact hok s a s' hs hx
  next e s' hx => exact herr s e s' hs hx

theorem Triple.weaken (h : Triple P x Q E) (hP : ∀ s, P' s → P s) (hQ : ∀ a s, Q a s → Q' a s)
    (hE : ∀ e s, E e s → E' e s) : Triple P' x Q' E' :=
  .of_runs (fun _ _ _ hs hx => hQ _ _ (h.ok (hP _ hs) hx))
    (fun _ _ _ hs hx => hE _ _ (h.error (hP _ hs) hx))

theorem Triple.pre (h : Triple P x Q E) (hP : ∀ s, P' s → P s) : Triple P' x Q E :=
  fun s hs => h s (hP s hs)

theorem Triple.post (h : Triple P x Q E) (hQ : ∀ a s, Q a s → Q' a s)
    (hE : ∀ e s, E e s → E' e s) : Triple P x Q' E' :=
  h.weaken (fun _ hs => hs) hQ hE

theorem Triple.bind (hx : Triple P x Q E) (hf : ∀ a, Triple (Q a) (f a) R E) :
    Triple P (x >>= f) R E := by
  intro s hs
  show match (match x s with
    | (.ok a, s') => f a s'
    | (.error e, s') => (.error e, s')) with
    | (.ok b, s') => R b s'
    | (.error e, s') => E e s'
  cases hrun : x s with
  | mk r s' =>
    cases r with
    | ok a => exact hf a s' (hx.ok hs hrun)
    | error e => exact hx.error hs hrun

/-- A fact of the precondition that does not look at the state. -/
theorem Triple.of_forall {p : Prop} (h : p → Triple P x Q E) : Triple (fun s => P s ∧ p) x Q E :=
  fun s hs => h hs.2 s hs.1

theorem Triple.pure (h : ∀ s, P s → Q a s) : Triple P (pure a : Action ε S α) Q E :=
  fun s hs => h s hs

theorem Triple.stop (h : ∀ s, P s → E e s) : Triple P (stop e : Action ε S α) Q E :=
  fun s hs => h s hs

theorem Triple.update {f : S → S} {Q : Unit → S → Prop} (h : ∀ s, P s → Q () (f s)) :
    Triple P (update f : Action ε S Unit) Q E :=
  fun s hs => h s hs

/-- A change that keeps a property. -/
theorem Triple.update_keep {f : S → S} (h : ∀ s, P s → P (f s)) :
    Triple P (Action.update f : Action ε S Unit) (fun _ => P) E :=
  fun s hs => h s hs

theorem Triple.read {f : S → α} :
    Triple P (read f : Action ε S α) (fun a s => P s ∧ a = f s) E :=
  fun _ hs => ⟨hs, rfl⟩

/-- A look at the state whose answer does not matter. -/
theorem Triple.look {f : S → α} : Triple P (Action.read f : Action ε S α) (fun _ => P) E :=
  fun _ hs => hs

theorem Triple.ofExcept {x : Except ε α} (hok : ∀ a s, x = .ok a → P s → Q a s)
    (herr : ∀ e s, P s → E e s) : Triple P (ofExcept x) Q E := by
  cases x with
  | ok a => exact fun s hs => hok a s rfl hs
  | error e => exact fun s hs => herr e s hs

theorem Triple.ite {c : Prop} [Decidable c] {y : Action ε S α} (hx : c → Triple P x Q E)
    (hy : ¬c → Triple P y Q E) : Triple P (if c then x else y) Q E := by
  split
  next hc => exact hx hc
  next hc => exact hy hc

theorem Triple.refuse {c : Bool} {Q : Unit → S → Prop} (hstop : ∀ s, P s → E e s)
    (hgo : ∀ s, c = false → P s → Q () s) : Triple P (refuse c e : Action ε S Unit) Q E := by
  cases c with
  | true => exact fun s hs => hstop s hs
  | false => exact fun s hs => hgo s rfl hs

theorem Triple.wrap {x : Action δ S α} {f : δ → ε} (h : Triple P x Q fun e => E (f e)) :
    Triple P (wrap f x) Q E := by
  intro s hs
  show match (match x s with
    | (.ok a, s') => ((.ok a : Except ε α), s')
    | (.error e, s') => (.error (f e), s')) with
    | (.ok b, s') => Q b s'
    | (.error e, s') => E e s'
  cases hrun : x s with
  | mk r s' =>
    cases r with
    | ok a => exact h.ok hs hrun
    | error e => exact h.error hs hrun

theorem Triple.onError {y : Action δ S Unit} {M : ε → S → Prop} (hx : Triple P x Q M)
    (hy : ∀ e, Triple (M e) y (fun _ => E e) (fun _ => E e)) : Triple P (onError x y) Q E := by
  intro s hs
  show match (match x s with
    | (.ok a, s') => ((.ok a : Except ε α), s')
    | (.error e, s') => (.error e, (y s').2)) with
    | (.ok b, s') => Q b s'
    | (.error e, s') => E e s'
  cases hrun : x s with
  | mk r s' =>
    cases r with
    | ok a => exact hx.ok hs hrun
    | error e =>
      have hafter := hy e s' (hx.error hs hrun)
      show E e (y s').2
      cases hyrun : y s' with
      | mk r' s'' =>
        rw [hyrun] at hafter
        cases r' with
        | ok u | error d => exact hafter

theorem Triple.attempt {x : Action δ S α} {M : S → Prop}
    (h : Triple P x (fun _ => M) (fun _ => M)) :
    Triple P (attempt x : Action ε S (Except δ α)) (fun _ => M) E := by
  intro s hs
  have hafter := h s hs
  show M (x s).2
  cases hrun : x s with
  | mk r s' =>
    rw [hrun] at hafter
    cases r with
    | ok a | error e => exact hafter

/-! ## Keeping a property -/

theorem Keeps.bind (hx : Keeps I x) (hf : ∀ a, Keeps I (f a)) : Keeps I (x >>= f) :=
  Triple.bind hx hf

/-- A program that keeps a property, where errors need only say less. -/
theorem Keeps.triple (h : Keeps I x) (hE : ∀ e s, I s → E e s) : Triple I x (fun _ => I) E :=
  h.weaken (fun _ hs => hs) (fun _ _ hs => hs) hE

theorem Keeps.pure (a : α) : Keeps I (pure a : Action ε S α) := Triple.pure fun _ hs => hs

/-- What a kept property says about the state that is left, whatever was
returned. -/
theorem Triple.after (h : Triple P x (fun _ => I) (fun _ => I)) (hs : P s) : I (x s).2 := by
  have hrun := h s hs
  cases hx : x s with
  | mk r s' =>
    rw [hx] at hrun
    cases r with
    | ok a | error e => exact hrun

theorem Keeps.ofExcept (x : Except ε α) : Keeps I (ofExcept x : Action ε S α) :=
  Triple.ofExcept (fun _ _ _ hs => hs) (fun _ _ hs => hs)

theorem Keeps.refuse (c : Bool) (e : ε) : Keeps I (refuse c e : Action ε S Unit) :=
  Triple.refuse (fun _ hs => hs) (fun _ _ hs => hs)

theorem Keeps.ite {c : Prop} [Decidable c] {y : Action ε S α} (hx : Keeps I x) (hy : Keeps I y) :
    Keeps I (if c then x else y) :=
  Triple.ite (fun _ => hx) (fun _ => hy)

end Action

end Caspian.Verified
