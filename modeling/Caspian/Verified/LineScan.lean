import Mathlib

/-!
# Reading lines into a buffer

A scanner hands out the lines of a text one after the other, from a buffer that
holds `max` symbols.  A line has to end within the buffer: when the buffer is
full and no newline is in it the scan stops there, whatever follows.
-/

namespace Caspian.Verified

variable {α : Type} [DecidableEq α]

/-- `bufio.Scanner` over lines: those read, and whether it stopped at one that
was too long.  The line being read stands in the buffer, its end first. -/
def scanLines (newline : α) (max : Nat) : List α → List α → List (List α) × Bool
  | line, [] => (if line = [] then [] else [line.reverse], false)
  | line, c :: rest =>
    if c = newline then
      let scanned := scanLines newline max [] rest
      (line.reverse :: scanned.1, scanned.2)
    else if line.length + 1 < max then scanLines newline max (c :: line) rest
    else ([], true)

/-- The lines with something before the first. -/
def prepend (line : List α) (lines : List (List α)) : List (List α) :=
  lines.modifyHead (line ++ ·)

omit [DecidableEq α] in
theorem prepend_nil (lines : List (List α)) : prepend [] lines = lines := by
  cases lines <;> rfl

variable {newline : α} {max : Nat} {line : List α}

theorem prepend_splitOn_newline (line rest : List α) :
    prepend line ((newline :: rest).splitOn newline) = line :: rest.splitOn newline := by
  simp [prepend, List.splitOn, List.splitOnP_cons_eq_if_modifyHead]

theorem prepend_splitOn_cons {c : α} (hc : c ≠ newline) (line rest : List α) :
    prepend line.reverse ((c :: rest).splitOn newline)
      = prepend (c :: line).reverse (rest.splitOn newline) := by
  simp [prepend, List.splitOn, List.splitOnP_cons_eq_if_modifyHead, hc, Function.comp_def]

/-- The scan reaches the end exactly if every line is shorter than the buffer. -/
theorem scanLines_short_iff (hline : line.length < max) (rest : List α) :
    (scanLines newline max line rest).2 = false ↔
      ∀ l ∈ prepend line.reverse (rest.splitOn newline), l.length < max := by
  induction rest generalizing line with
  | nil => simp [scanLines, prepend, hline]
  | cons c rest ih =>
    unfold scanLines
    by_cases hc : c = newline
    · subst hc
      rw [if_pos rfl, prepend_splitOn_newline, List.forall_mem_cons, List.length_reverse]
      rw [@ih [] (by simpa using Nat.zero_lt_of_lt hline), List.reverse_nil, prepend_nil]
      simp [hline]
    · rw [if_neg hc, prepend_splitOn_cons hc]
      split
      next hfits => exact ih hfits
      next hfull =>
        refine iff_of_false (by simp) fun hall => hfull ?_
        obtain ⟨first, others, hsplit⟩ :=
          List.exists_cons_of_ne_nil (List.splitOn_ne_nil newline rest)
        have hfirst := hall ((c :: line).reverse ++ first) (by simp [prepend, hsplit])
        simp only [List.length_append, List.length_reverse, List.length_cons] at hfirst
        omega

/-- A scan that reaches the end has handed out every line, an empty last one
apart. -/
theorem scanLines_lines {rest : List α} (h : (scanLines newline max line rest).2 = false) :
    (scanLines newline max line rest).1.filter (fun l => !l.isEmpty)
      = (prepend line.reverse (rest.splitOn newline)).filter (fun l => !l.isEmpty) := by
  induction rest generalizing line with
  | nil =>
    cases line with
    | nil | cons c line => simp [scanLines, prepend]
  | cons c rest ih =>
    unfold scanLines at h ⊢
    by_cases hc : c = newline
    · subst hc
      rw [if_pos rfl] at h ⊢
      rw [prepend_splitOn_newline, List.filter_cons, List.filter_cons, ih h, List.reverse_nil,
        prepend_nil]
    · rw [if_neg hc] at h ⊢
      rw [prepend_splitOn_cons hc]
      split at h
      next hfits =>
        rw [if_pos hfits]
        exact ih h
      next => cases h

end Caspian.Verified
