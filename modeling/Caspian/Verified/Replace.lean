import Mathlib

/-!
# Replacing inside a text

`replaceAll` replaces the occurrences of a text from left to right, each one
passed over before the next is looked for.  A text that only has certain
characters in it is replaced inside the runs of those characters, one run at a
time (`replaceAll_mapWords`): `mapWords` rewrites every run and leaves what
stands between them.
-/

namespace Caspian.Verified.Replace

variable {α : Type}

/-! ## Runs of characters -/

/-- Every run rewritten, the one under way being `w`. -/
def mapWordsFrom (inWord : α → Bool) (f : List α → List α) (w : List α) : List α → List α
  | [] => f w
  | c :: cs =>
    if inWord c then mapWordsFrom inWord f (w ++ [c]) cs
    else f w ++ c :: mapWordsFrom inWord f [] cs

/-- Every run of the characters rewritten; between two other characters stands
the empty run. -/
def mapWords (inWord : α → Bool) (f : List α → List α) (cs : List α) : List α :=
  mapWordsFrom inWord f [] cs

def wordsFrom (inWord : α → Bool) (w : List α) : List α → List (List α)
  | [] => [w]
  | c :: cs =>
    if inWord c then wordsFrom inWord (w ++ [c]) cs else w :: wordsFrom inWord [] cs

/-- The runs themselves. -/
def words (inWord : α → Bool) (cs : List α) : List (List α) := wordsFrom inWord [] cs

variable {inWord : α → Bool}

variable {cs : List α}

theorem mapWordsFrom_congr {f g : List α → List α} :
    ∀ {w}, (∀ v ∈ wordsFrom inWord w cs, f v = g v) →
      mapWordsFrom inWord f w cs = mapWordsFrom inWord g w cs := by
  induction cs with
  | nil =>
    intro w h
    exact h w (List.mem_singleton_self w)
  | cons c cs ih =>
    intro w h
    unfold wordsFrom at h
    unfold mapWordsFrom
    by_cases hc : inWord c = true
    · rw [if_pos hc] at h
      rw [if_pos hc, if_pos hc, ih h]
    · rw [if_neg hc] at h
      rw [if_neg hc, if_neg hc, h w List.mem_cons_self,
        ih fun v hv => h v (List.mem_cons_of_mem _ hv)]

theorem mapWordsFrom_id (cs : List α) : ∀ w, mapWordsFrom inWord id w cs = w ++ cs := by
  induction cs with
  | nil => exact fun w => (List.append_nil w).symm
  | cons c cs ih =>
    intro w
    simp only [mapWordsFrom, ih, List.append_assoc, List.nil_append, List.singleton_append,
      id_eq, ite_self]

/-- A text of one run is rewritten as a whole. -/
theorem mapWordsFrom_word {f : List α → List α} (h : ∀ c ∈ cs, inWord c = true) :
    ∀ w, mapWordsFrom inWord f w cs = f (w ++ cs) := by
  induction cs with
  | nil => exact fun w => congrArg f (List.append_nil w).symm
  | cons c cs ih =>
    intro w
    rw [mapWordsFrom, if_pos (h c List.mem_cons_self),
      ih (fun d hd => h d (List.mem_cons_of_mem _ hd)), List.append_assoc, List.singleton_append]

theorem wordsFrom_word (h : ∀ c ∈ cs, inWord c = true) :
    ∀ w, wordsFrom inWord w cs = [w ++ cs] := by
  induction cs with
  | nil => exact fun w => congrArg (fun v => [v]) (List.append_nil w).symm
  | cons c cs ih =>
    intro w
    rw [wordsFrom, if_pos (h c List.mem_cons_self),
      ih (fun d hd => h d (List.mem_cons_of_mem _ hd)), List.append_assoc, List.singleton_append]

/-! ## Replacing -/

variable [DecidableEq α] {old new : List α}

/-- The occurrences replaced, after the next `k` characters were dropped. -/
def replaceFrom (old new : List α) : Nat → List α → List α
  | _, [] => []
  | k + 1, _ :: cs => replaceFrom old new k cs
  | 0, c :: cs =>
    if old <+: c :: cs then new ++ replaceFrom old new (old.length - 1) cs
    else c :: replaceFrom old new 0 cs

/-- `strings.ReplaceAll` for a text that is not empty. -/
def replaceAll (old new : List α) (cs : List α) : List α := replaceFrom old new 0 cs

/-- The text cut at every occurrence of the separator. -/
def splitFrom (sep : List α) : Nat → List α → List (List α)
  | _, [] => [[]]
  | k + 1, _ :: cs => splitFrom sep k cs
  | 0, c :: cs =>
    if sep <+: c :: cs then [] :: splitFrom sep (sep.length - 1) cs
    else (splitFrom sep 0 cs).modifyHead (c :: ·)

/-! ## Where it is replaced -/

variable {d : α}

omit [DecidableEq α] in
/-- An occurrence does not reach over a character that it cannot have. -/
theorem isPrefix_delimited (hold : ∀ c ∈ old, inWord c = true) (hd : inWord d = false)
    (xs rest : List α) : old <+: xs ++ d :: rest ↔ old <+: xs := by
  constructor
  · intro h
    rcases Nat.lt_or_ge xs.length old.length with hlt | hle
    · have hcut : xs ++ [d] <+: old :=
        List.prefix_of_prefix_length_le ⟨rest, by simp⟩ h
          (by rw [List.length_append]; exact hlt)
      have hin := hold d (hcut.subset (by simp))
      rw [hd] at hin
      cases hin
    · exact List.prefix_of_prefix_length_le h (List.prefix_append _ _) hle
  · exact fun h => h.trans (List.prefix_append _ _)

theorem replaceFrom_delimited (hne : old ≠ []) (hold : ∀ c ∈ old, inWord c = true)
    (hd : inWord d = false) (rest : List α) (xs : List α) :
    ∀ k ≤ xs.length, replaceFrom old new k (xs ++ d :: rest) =
      replaceFrom old new k xs ++ d :: replaceFrom old new 0 rest := by
  induction xs with
  | nil =>
    intro k hk
    have hno : ¬old <+: d :: rest := fun h =>
      hne (List.prefix_nil.mp ((isPrefix_delimited hold hd [] rest).mp h))
    rw [Nat.le_zero.mp hk]
    simp only [List.nil_append, replaceFrom, if_neg hno]
  | cons c cs ih =>
    intro k hk
    cases k with
    | succ k => exact ih k (Nat.le_of_succ_le_succ hk)
    | zero =>
      have hiff := isPrefix_delimited hold hd (c :: cs) rest
      simp only [List.cons_append, replaceFrom] at hiff ⊢
      by_cases hpre : old <+: c :: cs
      · have hlen := hpre.length_le
        rw [if_pos hpre, if_pos (hiff.mpr hpre), ih _ (by simp at hlen; omega),
          List.append_assoc]
      · rw [if_neg hpre, if_neg (mt hiff.mp hpre), ih 0 (Nat.zero_le _), List.cons_append]

theorem replaceAll_delimited (hne : old ≠ []) (hold : ∀ c ∈ old, inWord c = true)
    (hd : inWord d = false) (xs rest : List α) :
    replaceAll old new (xs ++ d :: rest) = replaceAll old new xs ++ d :: replaceAll old new rest :=
  replaceFrom_delimited hne hold hd rest xs 0 (Nat.zero_le _)

/-- What is replaced is replaced inside the runs. -/
theorem replaceAll_mapWords (hne : old ≠ []) (hold : ∀ c ∈ old, inWord c = true)
    (f : List α → List α) (cs : List α) : ∀ w, replaceAll old new (mapWordsFrom inWord f w cs) =
      mapWordsFrom inWord (fun v => replaceAll old new (f v)) w cs := by
  induction cs with
  | nil => exact fun w => rfl
  | cons c cs ih =>
    intro w
    simp only [mapWordsFrom]
    split
    · exact ih _
    next hc => rw [replaceAll_delimited hne hold (by simpa using hc), ih]

/-! ## What is left -/

theorem replaceAll_of_not_isInfix (h : ¬old <:+: cs) : replaceAll old new cs = cs := by
  unfold replaceAll
  induction cs with
  | nil => rfl
  | cons c cs ih =>
    rw [replaceFrom, if_neg fun hpre => h hpre.isInfix,
      ih fun hin => h (hin.trans (List.suffix_cons c cs).isInfix)]

theorem replaceFrom_drop (cs : List α) :
    ∀ k, replaceFrom old new k cs = replaceFrom old new 0 (cs.drop k) := by
  induction cs with
  | nil => intro k; simp [replaceFrom]
  | cons c cs ih =>
    intro k
    cases k with
    | zero => rfl
    | succ k => exact ih k

theorem replaceAll_ne_nil (hnew : new ≠ []) (h : cs ≠ []) : replaceAll old new cs ≠ [] := by
  cases cs with
  | nil => exact absurd rfl h
  | cons c cs =>
    rw [replaceAll, replaceFrom]
    split
    · exact fun heq => hnew (List.append_eq_nil_iff.mp heq).1
    · exact List.cons_ne_nil _ _

/-- Where it occurs the new text stands, alone only if nothing else was there. -/
theorem replaceAll_of_isInfix (hne : old ≠ []) (hnew : new ≠ []) (h : old <:+: cs) :
    ∃ x y, replaceAll old new cs = x ++ new ++ y ∧ (cs ≠ old → x ++ y ≠ []) := by
  induction cs with
  | nil => exact absurd (List.eq_nil_of_infix_nil h) hne
  | cons c cs ih =>
    rw [replaceAll, replaceFrom]
    split
    next hpre =>
      obtain ⟨post, hpost⟩ := hpre
      have hdrop : cs.drop (old.length - 1) = post := by
        obtain ⟨a, as, rfl⟩ := List.exists_cons_of_ne_nil hne
        rw [List.cons_append, List.cons.injEq] at hpost
        rw [← hpost.2, List.length_cons, Nat.add_sub_cancel, List.drop_left]
      refine ⟨[], replaceAll old new post, ?_, ?_⟩
      · rw [replaceFrom_drop, hdrop]
        rfl
      · intro hmore
        refine replaceAll_ne_nil hnew fun hnil => hmore ?_
        rw [← hpost, hnil, List.append_nil]
    next hpre =>
      obtain ⟨x, y, heq, -⟩ := ih ((List.infix_cons_iff.mp h).resolve_left hpre)
      refine ⟨c :: x, y, ?_, fun _ => List.cons_ne_nil _ _⟩
      rw [← replaceAll, heq]
      rfl

end Caspian.Verified.Replace
