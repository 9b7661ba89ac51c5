import Mathlib

/-!
# Finite maps

A map with finitely many keys, as the list of its entries; a key has one entry.
The order of the entries is the order the keys were first put in.  A program
that walks over a map in no particular order is a function of some such list.
-/

namespace Caspian.Verified

/-- A finite map. -/
@[ext]
structure Table (κ α : Type) where
  entries : List (κ × α)
  nodup : (entries.map Prod.fst).Nodup

namespace Table

variable {κ α : Type} [DecidableEq κ]

def empty : Table κ α := ⟨[], List.nodup_nil⟩

instance : Inhabited (Table κ α) := ⟨empty⟩

def keys (t : Table κ α) : List κ := t.entries.map Prod.fst

def size (t : Table κ α) : Nat := t.entries.length

/-- The value of a key. -/
def get (t : Table κ α) (k : κ) : Option α := t.entries.lookup k

/-- The entries with the value of one key replaced. -/
def replaceEntry (k : κ) (v : α) (entries : List (κ × α)) : List (κ × α) :=
  entries.map fun e => if e.1 = k then (k, v) else e

theorem map_fst_replaceEntry (k : κ) (v : α) (entries : List (κ × α)) :
    (replaceEntry k v entries).map Prod.fst = entries.map Prod.fst := by
  unfold replaceEntry
  rw [List.map_map]
  refine List.map_congr_left ?_
  rintro ⟨k', v'⟩ _
  by_cases h : k' = k <;> simp [h]

/-- Give a key a value. -/
def put (t : Table κ α) (k : κ) (v : α) : Table κ α :=
  if h : k ∈ t.keys then
    ⟨replaceEntry k v t.entries, by
      rw [map_fst_replaceEntry]
      exact t.nodup⟩
  else
    ⟨t.entries ++ [(k, v)], by
      rw [List.map_append, List.nodup_append]
      refine ⟨t.nodup, List.nodup_singleton _, ?_⟩
      intro a ha b hb
      rw [List.mem_singleton.mp hb]
      rintro rfl
      exact h ha⟩

/-- The entries that pass a test. -/
def keep (t : Table κ α) (test : κ → α → Bool) : Table κ α :=
  ⟨t.entries.filter fun e => test e.1 e.2, (t.nodup).sublist (List.filter_sublist.map _)⟩

/-- Without a key. -/
def erase (t : Table κ α) (k : κ) : Table κ α := t.keep fun k' _ => k' ≠ k

variable {t : Table κ α} {k k' : κ} {v : α}

theorem get_eq_some : t.get k = some v ↔ (k, v) ∈ t.entries := by
  obtain ⟨entries, hnodup⟩ := t
  unfold get
  simp only
  induction entries with
  | nil => simp
  | cons e rest ih =>
    obtain ⟨k₀, v₀⟩ := e
    simp only [List.map_cons, List.nodup_cons] at hnodup
    by_cases h : k = k₀
    · subst h
      have hnot : (k, v) ∉ rest := fun hmem => hnodup.1 (List.mem_map.mpr ⟨_, hmem, rfl⟩)
      simp only [List.lookup_cons_self, Option.some.injEq, List.mem_cons, Prod.mk.injEq, true_and,
        hnot, or_false]
      exact eq_comm
    · have hbeq : (k == k₀) = false := by simpa using h
      simp only [List.lookup_cons, hbeq, List.mem_cons, Prod.mk.injEq, h, false_and, false_or]
      exact ih hnodup.2

theorem get_eq_none : t.get k = none ↔ k ∉ t.keys := by
  rw [Option.eq_none_iff_forall_ne_some]
  constructor
  · intro h hk
    obtain ⟨⟨k', v⟩, hmem, rfl⟩ := List.mem_map.mp hk
    exact h v (get_eq_some.mpr hmem)
  · intro h v hv
    exact h (List.mem_map.mpr ⟨_, get_eq_some.mp hv, rfl⟩)

variable {e : κ × α}

theorem mem_put : e ∈ (t.put k v).entries ↔ (e ∈ t.entries ∧ e.1 ≠ k) ∨ e = (k, v) := by
  unfold put
  split
  next h =>
    obtain ⟨⟨k₀, v₀⟩, hmem, rfl⟩ := List.mem_map.mp h
    simp only [replaceEntry, List.mem_map]
    constructor
    · rintro ⟨e', he', rfl⟩
      by_cases hk : e'.1 = k₀
      · exact .inr (if_pos hk)
      · rw [if_neg hk]
        exact .inl ⟨he', hk⟩
    · rintro (⟨he, hne⟩ | rfl)
      · exact ⟨e, he, if_neg hne⟩
      · exact ⟨_, hmem, if_pos rfl⟩
  next h =>
    simp only [List.mem_append, List.mem_singleton]
    constructor
    · rintro (he | rfl)
      · exact .inl ⟨he, fun heq => h (List.mem_map.mpr ⟨e, he, heq⟩)⟩
      · exact .inr rfl
    · rintro (⟨he, _⟩ | rfl)
      · exact .inl he
      · exact .inr rfl

theorem get_put : (t.put k v).get k' = if k' = k then some v else t.get k' := by
  refine Option.ext fun w => ?_
  rw [get_eq_some, mem_put]
  split_ifs with h
  · subst h
    simp [eq_comm]
  · simp only [h, ne_eq, not_false_eq_true, and_true, Prod.mk.injEq, false_and, or_false]
    exact get_eq_some.symm

omit [DecidableEq κ] in
theorem mem_keep {test : κ → α → Bool} :
    e ∈ (t.keep test).entries ↔ e ∈ t.entries ∧ test e.1 e.2 = true := List.mem_filter

theorem get_keep (test : κ → α → Bool) :
    (t.keep test).get k = (t.get k).filter fun v => test k v := by
  refine Option.ext fun w => ?_
  rw [get_eq_some, mem_keep, Option.filter_eq_some_iff, get_eq_some]

theorem get_erase : (t.erase k).get k' = if k' = k then none else t.get k' := by
  unfold erase
  rw [get_keep]
  split_ifs with h
  · subst h
    cases t.get k' <;> simp [Option.filter]
  · cases t.get k' <;> simp [Option.filter, h]

omit [DecidableEq κ] in
theorem size_keep_le (test : κ → α → Bool) : (t.keep test).size ≤ t.size :=
  List.length_filter_le _ _

theorem size_put_le : (t.put k v).size ≤ t.size + 1 := by
  unfold put size
  split
  · simp [replaceEntry]
  · simp

theorem size_put_old (h : t.get k ≠ none) : (t.put k v).size = t.size := by
  unfold put size
  rw [dif_pos (by_contra fun hnot => h (get_eq_none.mpr hnot))]
  simp [replaceEntry]

omit [DecidableEq κ] in
omit [DecidableEq κ] in
theorem size_keep_lt {test : κ → α → Bool} (hmem : e ∈ t.entries) (h : test e.1 e.2 = false) :
    (t.keep test).size < t.size := by
  refine List.length_filter_lt_length_iff_exists.mpr ⟨e, hmem, ?_⟩
  simp [h]

end Table

/-! ## The least entry

A loop over a map with text keys that remembers the key with the least measure
so far; no key is remembered as the empty text. -/

section Least

variable {α : Type} (measure : α → Nat)

/-- One turn of the loop. -/
def leastStep (found : String × Nat) (e : String × α) : String × Nat :=
  if found.1 = "" ∨ measure e.2 < found.2 then (e.1, measure e.2) else found

/-- What the loop has found in the end. -/
def least (entries : List (String × α)) : String × Nat := entries.foldl (leastStep measure) ("", 0)

variable {measure}

theorem foldl_leastStep :
    ∀ (entries : List (String × α)) (found : String × Nat), (∀ e ∈ entries, e.1 ≠ "") →
      found.1 ≠ "" →
      (entries.foldl (leastStep measure) found = found ∨
        ∃ e ∈ entries, entries.foldl (leastStep measure) found = (e.1, measure e.2)) ∧
      (entries.foldl (leastStep measure) found).2 ≤ found.2 ∧
      ∀ e ∈ entries, (entries.foldl (leastStep measure) found).2 ≤ measure e.2 := by
  intro entries
  induction entries with
  | nil =>
    intro found _ _
    exact ⟨.inl rfl, Nat.le_refl _, by simp⟩
  | cons e rest ih =>
    intro found hkeys hfound
    have hrest : ∀ e ∈ rest, e.1 ≠ "" := fun e he => hkeys e (List.mem_cons_of_mem _ he)
    rw [List.foldl_cons]
    by_cases hless : measure e.2 < found.2
    · have hstep : leastStep measure found e = (e.1, measure e.2) := if_pos (.inr hless)
      rw [hstep]
      obtain ⟨hfrom, hle, hall⟩ := ih (e.1, measure e.2) hrest (hkeys e List.mem_cons_self)
      refine ⟨.inr ?_, by simp only at hle; omega, ?_⟩
      · rcases hfrom with heq | ⟨e', he', heq⟩
        · exact ⟨e, List.mem_cons_self, heq⟩
        · exact ⟨e', List.mem_cons_of_mem _ he', heq⟩
      · intro e' he'
        rcases List.mem_cons.mp he' with rfl | he'
        · exact hle
        · exact hall e' he'
    · have hstep : leastStep measure found e = found := if_neg (by simp [hfound, hless])
      rw [hstep]
      obtain ⟨hfrom, hle, hall⟩ := ih found hrest hfound
      refine ⟨?_, hle, ?_⟩
      · rcases hfrom with heq | ⟨e', he', heq⟩
        · exact .inl heq
        · exact .inr ⟨e', List.mem_cons_of_mem _ he', heq⟩
      · intro e' he'
        rcases List.mem_cons.mp he' with rfl | he'
        · omega
        · exact hall e' he'

/-- In a map that is not empty the loop finds an entry, and no other has a smaller
measure. -/
theorem least_spec {entries : List (String × α)} (hkeys : ∀ e ∈ entries, e.1 ≠ "")
    (hne : entries ≠ []) :
    ∃ e ∈ entries, least measure entries = (e.1, measure e.2) ∧
      ∀ e' ∈ entries, measure e.2 ≤ measure e'.2 := by
  cases entries with
  | nil => exact absurd rfl hne
  | cons e rest =>
    have hstep : leastStep measure ("", 0) e = (e.1, measure e.2) := if_pos (.inl rfl)
    unfold least
    rw [List.foldl_cons, hstep]
    obtain ⟨hfrom, hle, hall⟩ := foldl_leastStep rest (e.1, measure e.2)
      (fun e he => hkeys e (List.mem_cons_of_mem _ he)) (hkeys e List.mem_cons_self)
    rcases hfrom with heq | ⟨found, hfound, heq⟩
    · rw [heq] at hall
      refine ⟨e, List.mem_cons_self, heq, ?_⟩
      intro e' he'
      rcases List.mem_cons.mp he' with rfl | he'
      · exact Nat.le_refl _
      · exact hall e' he'
    · rw [heq] at hle hall
      refine ⟨found, List.mem_cons_of_mem _ hfound, heq, ?_⟩
      intro e' he'
      rcases List.mem_cons.mp he' with rfl | he'
      · exact hle
      · exact hall e' he'

end Least

end Caspian.Verified
