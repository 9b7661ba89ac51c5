import Mathlib

/-!
# Undo logs

A log of entries, newest first, and a partial `undo` of one entry: `none`
means that the entry's inverse was refused.  `unwind` undoes the whole log and
needs every inverse.

A log is *faithful* to a state when unwinding can only end there, and
*returns* to it when unwinding does end there.  Both are kept by pushing an
entry whose inverse leads back to where the log was good (`Faithful.push`).  The
remaining rules compare the unwinding of two states that differ in a way the
log's entries respect.
-/

namespace Caspian.Verified.UndoLog

variable {σ ε : Type} (undo : ε → σ → Option σ)

/-- Undo every entry, newest first. -/
def unwind : List ε → σ → Option σ
  | [], s => some s
  | e :: es, s => (undo e s).bind (unwind es)

/-- Unwinding the log from `s` can end in `s₀` only. -/
def Faithful (log : List ε) (s s₀ : σ) : Prop :=
  ∀ s', unwind undo log s = some s' → s' = s₀

theorem unwind_cons (e : ε) (es : List ε) (s : σ) :
    unwind undo (e :: es) s = (undo e s).bind (unwind undo es) := rfl

theorem unwind_append (l₁ l₂ : List ε) (s : σ) :
    unwind undo (l₁ ++ l₂) s = (unwind undo l₁ s).bind (unwind undo l₂) := by
  induction l₁ generalizing s with
  | nil => rfl
  | cons e es ih =>
    rw [List.cons_append, unwind_cons, unwind_cons]
    cases undo e s with
    | none => rfl
    | some t => exact ih t

/-- A log of images is unwound through the images. -/
theorem unwind_map {δ : Type} (f : δ → ε) (log : List δ) (s : σ) :
    unwind undo (log.map f) s = unwind (fun e => undo (f e)) log s := by
  induction log generalizing s with
  | nil => rfl
  | cons e es ih =>
    rw [List.map_cons, unwind_cons, unwind_cons]
    cases undo (f e) s with
    | none => rfl
    | some t => exact ih t

variable {undo}

/-! ## Pushing an entry -/

/-- An entry whose inverse, if it is not refused, leads back to `s` keeps the
log faithful. -/
theorem Faithful.push {log : List ε} {e : ε} {s t s₀ : σ}
    (h : Faithful undo log s s₀) (he : ∀ s', undo e t = some s' → s' = s) :
    Faithful undo (e :: log) t s₀ := by
  intro s' hs'
  rw [unwind_cons] at hs'
  cases hu : undo e t with
  | none => rw [hu] at hs'; cases hs'
  | some u =>
    rw [hu, he u hu] at hs'
    exact h s' hs'

theorem Faithful.nil (s : σ) : Faithful undo [] s s :=
  fun _ h => (Option.some.inj h).symm

/-- A log that can be unwound and is faithful returns. -/
theorem Faithful.returns {log : List ε} {s s₀ : σ} (h : Faithful undo log s s₀)
    (hs : (unwind undo log s).isSome = true) : unwind undo log s = some s₀ := by
  obtain ⟨s', hs'⟩ := Option.isSome_iff_exists.mp hs
  rw [hs', h s' hs']

/-! ## Entries that do nothing -/

/-- Entries that are undone without effect can be left out of the log. -/
theorem unwind_filter (keep : ε → Bool) {log : List ε}
    (h : ∀ e ∈ log, keep e = false → ∀ s, undo e s = some s) (s : σ) :
    unwind undo (log.filter keep) s = unwind undo log s := by
  induction log generalizing s with
  | nil => rfl
  | cons e es ih =>
    have hes := ih fun e' he' => h e' (by simp [he'])
    cases hk : keep e with
    | true =>
      rw [List.filter_cons_of_pos (by simpa using hk), unwind_cons, unwind_cons]
      cases undo e s with
      | none => rfl
      | some t => exact hes t
    | false =>
      rw [List.filter_cons_of_neg (by simp [hk]), unwind_cons, h e (by simp) hk s]
      exact hes s

/-! ## Comparing two states -/

/-- A relation every entry preserves is preserved by unwinding. -/
theorem unwind_rel (R : σ → σ → Prop) {log : List ε}
    (h : ∀ e ∈ log, ∀ a b a', R a b → undo e a = some a' →
      ∃ b', undo e b = some b' ∧ R a' b')
    {a b a' : σ} (hab : R a b) (ha : unwind undo log a = some a') :
    ∃ b', unwind undo log b = some b' ∧ R a' b' := by
  induction log generalizing a b with
  | nil =>
    obtain rfl := Option.some.inj ha
    exact ⟨b, rfl, hab⟩
  | cons e es ih =>
    rw [unwind_cons] at ha
    cases hu : undo e a with
    | none => rw [hu] at ha; cases ha
    | some a₁ =>
      rw [hu] at ha
      obtain ⟨b₁, hb₁, hab₁⟩ := h e (by simp) a b a₁ hab hu
      obtain ⟨b', hb', hR⟩ := ih (fun e' he' => h e' (by simp [he'])) hab₁ ha
      exact ⟨b', by rw [unwind_cons, hb₁]; exact hb', hR⟩

/-- A change every entry commutes with or absorbs is invisible once one entry
of the log absorbs it. -/
theorem unwind_absorb (f : σ → σ) {log : List ε}
    (h : ∀ e ∈ log, ∀ a, undo e (f a) = undo e a ∨ undo e (f a) = (undo e a).map f)
    {e : ε} (he : e ∈ log) (hf : ∀ a, undo e (f a) = undo e a) (s : σ) :
    unwind undo log (f s) = unwind undo log s := by
  induction log generalizing s with
  | nil => cases he
  | cons e' es ih =>
    rw [unwind_cons, unwind_cons]
    rcases List.mem_cons.mp he with rfl | hmem
    · rw [hf s]
    · rcases h e' (by simp) s with heq | hmap
      · rw [heq]
      · rw [hmap]
        cases undo e' s with
        | none => rfl
        | some t =>
          exact ih (fun e'' he'' => h e'' (by simp [he''])) hmem t

/-! ## Unwinding again -/

section Again

variable {P R : ε → σ → Prop} {log : List ε}

/-- What every inverse keeps where its entry is fit to be undone, unwinding
keeps. -/
theorem keeps_of_unwind {Q : σ → Prop}
    (hpre : ∀ e ∈ log, ∀ e' s s', P e s → P e' s → undo e s = some s' → P e' s')
    (hQ : ∀ e ∈ log, ∀ s s', P e s → Q s → undo e s = some s' → Q s')
    {s s' : σ} (h : unwind undo log s = some s') (hs : ∀ e ∈ log, P e s) (hq : Q s) :
    Q s' := by
  induction log generalizing s with
  | nil =>
    obtain rfl := Option.some.inj h
    exact hq
  | cons a log ih =>
    have ha := hs a List.mem_cons_self
    rw [unwind_cons] at h
    cases hu : undo a s with
    | none => rw [hu] at h; cases h
    | some t =>
      rw [hu] at h
      refine ih (fun e he => hpre e (List.mem_cons_of_mem _ he))
        (fun e he => hQ e (List.mem_cons_of_mem _ he)) h ?_
        (hQ a List.mem_cons_self s t ha hq hu)
      intro e he
      exact hpre a List.mem_cons_self e s t ha (hs e (List.mem_cons_of_mem _ he)) hu

/-- Entries that come to rest when they are undone, and leave each other at
rest, are all at rest at the end. -/
theorem rest_of_unwind
    (hpre : ∀ e ∈ log, ∀ e' s s', P e s → P e' s → undo e s = some s' → P e' s')
    (hrest : ∀ e ∈ log, ∀ s s', P e s → undo e s = some s' → R e s')
    (hkept : ∀ e ∈ log, ∀ e' s s', P e s → R e' s → undo e s = some s' → R e' s')
    {s s' : σ} (h : unwind undo log s = some s') (hs : ∀ e ∈ log, P e s) :
    ∀ e ∈ log, R e s' := by
  induction log generalizing s with
  | nil => exact nofun
  | cons a log ih =>
    have ha := hs a List.mem_cons_self
    rw [unwind_cons] at h
    cases hu : undo a s with
    | none => rw [hu] at h; cases h
    | some t =>
      rw [hu] at h
      have hpre' : ∀ e ∈ log, ∀ e' s s', P e s → P e' s → undo e s = some s' →
          P e' s' := fun e he => hpre e (List.mem_cons_of_mem _ he)
      have hkept' : ∀ e ∈ log, ∀ e' s s', P e s → R e' s → undo e s = some s' →
          R e' s' := fun e he => hkept e (List.mem_cons_of_mem _ he)
      have hnext : ∀ e ∈ log, P e t := fun e he =>
        hpre a List.mem_cons_self e s t ha (hs e (List.mem_cons_of_mem _ he)) hu
      intro e he
      rcases List.mem_cons.mp he with rfl | he
      · exact keeps_of_unwind hpre' (fun b hb => hkept' b hb e) h hnext
          (hrest e List.mem_cons_self s t ha hu)
      · exact ih hpre' (fun b hb => hrest b (List.mem_cons_of_mem _ hb)) hkept' h hnext e he

/-- Entries at rest are undone without effect. -/
theorem unwind_rest {s : σ} (h : ∀ e ∈ log, undo e s = some s) :
    unwind undo log s = some s := by
  induction log with
  | nil => rfl
  | cons e es ih =>
    rw [unwind_cons, h e List.mem_cons_self]
    exact ih fun e' he' => h e' (List.mem_cons_of_mem _ he')

end Again

end Caspian.Verified.UndoLog
