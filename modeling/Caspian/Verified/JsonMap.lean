import Caspian.Verified.JsonText

/-!
# JSON objects as maps

A program that decodes a document into a generic map and writes it again
changes it: the members of every object come out sorted by name, of two members
of one name the last is kept, and what the program deletes is gone.  The same
text read into a record is read differently: every member whose name matches a
field up to letter case is stored into that field, in the order of the text.

This module has both readings.  `asMap` is the document after the map,
`stripNulls` removes the members that are null, and their composition
`dropNulls` is a fixed point of itself.  `matching` lists what a field is given,
and `stringField`, `uintField` and `pointerField` are what is left in it.
-/

namespace Caspian.Verified

/-! ## Sorted members -/

namespace Members

variable {κ α β : Type} [LinearOrder κ]

/-- Put a member in its place. -/
def insert (k : κ) (x : α) : List (κ × α) → List (κ × α)
  | [] => [(k, x)]
  | (l, y) :: rest =>
    if k < l then (k, x) :: (l, y) :: rest else (l, y) :: insert k x rest

/-- The members sorted by name, of equal names the last. -/
def mapOf : List (κ × α) → List (κ × α)
  | [] => []
  | (k, x) :: rest =>
    if k ∈ (mapOf rest).map Prod.fst then mapOf rest else insert k x (mapOf rest)

/-- The members after an assignment to one name. -/
def assign (k : κ) (x : α) : List (κ × α) → List (κ × α)
  | [] => [(k, x)]
  | (l, y) :: rest =>
    if k < l then (k, x) :: (l, y) :: rest
    else if k = l then (k, x) :: rest
    else (l, y) :: assign k x rest

/-- The names go up. -/
def Ascending (ms : List (κ × α)) : Prop := ms.Pairwise fun m n => m.1 < n.1

variable {k : κ} {x : α} {ms : List (κ × α)} {m : κ × α}

theorem mem_insert : m ∈ insert k x ms ↔ m = (k, x) ∨ m ∈ ms := by
  induction ms with
  | nil => simp [insert]
  | cons n rest ih =>
    obtain ⟨l, y⟩ := n
    unfold insert
    split
    · simp
    · simp only [List.mem_cons, ih]
      tauto

theorem mem_of_mem_mapOf (h : m ∈ mapOf ms) : m ∈ ms := by
  induction ms with
  | nil => exact h
  | cons n rest ih =>
    obtain ⟨k, x⟩ := n
    unfold mapOf at h
    split at h
    · exact List.mem_cons_of_mem _ (ih h)
    · rcases mem_insert.mp h with rfl | h
      · exact List.mem_cons_self
      · exact List.mem_cons_of_mem _ (ih h)

/-- No name is lost. -/
theorem mem_names_mapOf : k ∈ (mapOf ms).map Prod.fst ↔ k ∈ ms.map Prod.fst := by
  constructor
  · intro h
    obtain ⟨m, hm, rfl⟩ := List.mem_map.mp h
    exact List.mem_map_of_mem (mem_of_mem_mapOf hm)
  · intro h
    induction ms with
    | nil => cases h
    | cons n rest ih =>
      obtain ⟨l, x⟩ := n
      unfold mapOf
      rcases List.mem_cons.mp h with rfl | h
      · split
        · assumption
        · exact List.mem_map_of_mem (f := Prod.fst) (mem_insert.mpr (.inl rfl))
      · obtain ⟨m, hm, rfl⟩ := List.mem_map.mp (ih h)
        split
        · exact ih h
        · exact List.mem_map_of_mem (mem_insert.mpr (.inr hm))

theorem ascending_insert (hms : Ascending ms) (hk : k ∉ ms.map Prod.fst) :
    Ascending (insert k x ms) := by
  induction ms with
  | nil => exact List.pairwise_singleton _ _
  | cons n rest ih =>
    obtain ⟨l, y⟩ := n
    obtain ⟨hl, hrest⟩ := List.pairwise_cons.mp hms
    rw [List.map_cons, List.mem_cons, not_or] at hk
    unfold insert
    split
    · next hlt =>
        refine List.pairwise_cons.mpr ⟨?_, hms⟩
        intro m hm
        rcases List.mem_cons.mp hm with rfl | hm
        · exact hlt
        · exact hlt.trans (hl m hm)
    · next hle =>
        refine List.pairwise_cons.mpr ⟨?_, ih hrest hk.2⟩
        intro m hm
        rcases mem_insert.mp hm with rfl | hm
        · exact lt_of_le_of_ne (not_lt.mp hle) (Ne.symm hk.1)
        · exact hl m hm

theorem ascending_mapOf (ms : List (κ × α)) : Ascending (mapOf ms) := by
  induction ms with
  | nil => exact List.Pairwise.nil
  | cons n rest ih =>
    obtain ⟨k, x⟩ := n
    unfold mapOf
    split
    · exact ih
    · exact ascending_insert ih (by assumption)

theorem insert_of_lt (h : ∀ m ∈ ms, k < m.1) : insert k x ms = (k, x) :: ms := by
  cases ms with
  | nil => rfl
  | cons n rest =>
    unfold insert
    rw [if_pos (h n List.mem_cons_self)]

/-- Sorted members without a repeated name stay as they are. -/
theorem mapOf_of_ascending (h : Ascending ms) : mapOf ms = ms := by
  induction ms with
  | nil => rfl
  | cons n rest ih =>
    obtain ⟨k, x⟩ := n
    obtain ⟨hk, hrest⟩ := List.pairwise_cons.mp h
    unfold mapOf
    rw [ih hrest, if_neg, insert_of_lt hk]
    intro hmem
    obtain ⟨m, hm, hm'⟩ := List.mem_map.mp hmem
    exact absurd (hk m hm) (by rw [hm']; exact lt_irrefl k)

/-- A member whose name no other has is kept. -/
theorem mem_mapOf (hmem : (k, x) ∈ ms) (huniq : ∀ y, (k, y) ∈ ms → y = x) : (k, x) ∈ mapOf ms := by
  have hname : k ∈ (mapOf ms).map Prod.fst :=
    mem_names_mapOf.mpr (List.mem_map_of_mem (f := Prod.fst) hmem)
  obtain ⟨⟨l, y⟩, hm, rfl⟩ := List.mem_map.mp hname
  rw [← huniq y (mem_of_mem_mapOf hm)]
  exact hm

theorem mem_of_mem_assign (h : m ∈ assign k x ms) : m = (k, x) ∨ m ∈ ms := by
  induction ms with
  | nil => exact .inl (List.mem_singleton.mp h)
  | cons n rest ih =>
    obtain ⟨l, y⟩ := n
    unfold assign at h
    split_ifs at h with hlt heq
    · exact List.mem_cons.mp h
    · exact (List.mem_cons.mp h).imp_right (List.mem_cons_of_mem _)
    · rcases List.mem_cons.mp h with rfl | h
      · exact .inr List.mem_cons_self
      · exact (ih h).imp_right (List.mem_cons_of_mem _)

theorem lookup_assign [BEq κ] [LawfulBEq κ] (k l : κ) (x : α) (ms : List (κ × α)) :
    (assign k x ms).lookup l = if l = k then some x else ms.lookup l := by
  have hcons : ∀ j (y : α) rest,
      ((j, y) :: rest).lookup l = if l = j then some y else rest.lookup l := by
    intro j y rest
    by_cases hj : l = j
    · rw [hj, List.lookup_cons_self, if_pos rfl]
    · rw [List.lookup_cons, beq_false_of_ne hj, if_neg hj]
  induction ms with
  | nil => exact hcons k x []
  | cons n rest ih =>
    obtain ⟨j, y⟩ := n
    unfold assign
    split_ifs with hlt hl heq hl hl
    · rw [hcons, if_pos hl]
    · rw [hcons, if_neg hl]
    · rw [hcons, if_pos hl]
    · rw [hcons, if_neg hl, hcons, if_neg (heq ▸ hl)]
    · rw [hcons, if_neg (hl.trans_ne heq), ih, if_pos hl]
    · rw [hcons, ih, if_neg hl, hcons]

theorem insert_map (g : α → β) (k : κ) (x : α) (ms : List (κ × α)) :
    insert k (g x) (ms.map fun m => (m.1, g m.2)) =
      (insert k x ms).map fun m => (m.1, g m.2) := by
  induction ms with
  | nil => rfl
  | cons n rest ih =>
    obtain ⟨l, y⟩ := n
    simp only [insert, List.map_cons]
    split
    · rfl
    · rw [ih, List.map_cons]

/-- Changing the values and sorting commute. -/
theorem mapOf_map (g : α → β) (ms : List (κ × α)) :
    mapOf (ms.map fun m => (m.1, g m.2)) = (mapOf ms).map fun m => (m.1, g m.2) := by
  induction ms with
  | nil => rfl
  | cons n rest ih =>
    obtain ⟨k, x⟩ := n
    have hnames : ((mapOf rest).map fun m => (m.1, g m.2)).map Prod.fst =
        (mapOf rest).map Prod.fst := by
      rw [List.map_map]
      rfl
    simp only [mapOf, List.map_cons, ih, hnames]
    split
    · rfl
    · exact insert_map g k x (mapOf rest)

end Members

namespace Json

/-! ## Writing a generic map -/

mutual

/-- The value once it was decoded into a generic map. -/
def asMap : Json → Json
  | arr xs => arr (asMapElements xs)
  | obj fields => obj (Members.mapOf (asMapFields fields))
  | null => null
  | bool b => bool b
  | num text => num text
  | str s => str s

def asMapElements : List Json → List Json
  | [] => []
  | x :: xs => asMap x :: asMapElements xs

def asMapFields : List (List Char × Json) → List (List Char × Json)
  | [] => []
  | (k, x) :: fields => (k, asMap x) :: asMapFields fields

end

def isNull : Json → Bool
  | null => true
  | _ => false

mutual

/-- The value without the members that are null; the elements of an array are
kept. -/
def stripNulls : Json → Json
  | arr xs => arr (stripNullsElements xs)
  | obj fields => obj (stripNullsFields fields)
  | null => null
  | bool b => bool b
  | num text => num text
  | str s => str s

def stripNullsElements : List Json → List Json
  | [] => []
  | x :: xs => stripNulls x :: stripNullsElements xs

def stripNullsFields : List (List Char × Json) → List (List Char × Json)
  | [] => []
  | (k, x) :: fields =>
    if x.isNull then stripNullsFields fields
    else (k, stripNulls x) :: stripNullsFields fields

end

/-- Decode into a generic map, delete the nulls, write again. -/
def dropNulls (x : Json) : Json := x.asMap.stripNulls

/-- The members of an object after `dropNulls`. -/
def dropNullsFields (fields : List (List Char × Json)) : List (List Char × Json) :=
  stripNullsFields (Members.mapOf (asMapFields fields))

@[simp] theorem dropNulls_obj (fields : List (List Char × Json)) :
    dropNulls (obj fields) = obj (dropNullsFields fields) := by
  simp only [dropNulls, asMap, stripNulls, dropNullsFields]

@[simp] theorem dropNulls_str (s : List Char) : dropNulls (str s) = str s := by
  simp only [dropNulls, asMap, stripNulls]

@[simp] theorem dropNulls_num (text : List Char) : dropNulls (num text) = num text := by
  simp only [dropNulls, asMap, stripNulls]

@[simp] theorem dropNulls_null : dropNulls null = null := by
  simp only [dropNulls, asMap, stripNulls]

theorem isNull_asMap (x : Json) : x.asMap.isNull = x.isNull := by
  cases x <;> simp only [asMap, isNull]

theorem isNull_stripNulls (x : Json) : x.stripNulls.isNull = x.isNull := by
  cases x <;> simp only [stripNulls, isNull]

theorem asMapElements_eq (xs : List Json) : asMapElements xs = xs.map asMap := by
  induction xs with
  | nil => simp only [asMapElements, List.map_nil]
  | cons x xs ih => simp only [asMapElements, ih, List.map_cons]

theorem stripNullsElements_eq (xs : List Json) :
    stripNullsElements xs = xs.map stripNulls := by
  induction xs with
  | nil => simp only [stripNullsElements, List.map_nil]
  | cons x xs ih => simp only [stripNullsElements, ih, List.map_cons]

@[simp] theorem dropNulls_arr (xs : List Json) : dropNulls (arr xs) = arr (xs.map dropNulls) := by
  simp only [dropNulls, asMap, stripNulls, asMapElements_eq, stripNullsElements_eq, List.map_map]
  rfl

theorem asMapFields_eq (fields : List (List Char × Json)) :
    asMapFields fields = fields.map fun f => (f.1, f.2.asMap) := by
  induction fields with
  | nil => simp only [asMapFields, List.map_nil]
  | cons f fields ih => simp only [asMapFields, ih, List.map_cons]

theorem stripNullsFields_eq (fields : List (List Char × Json)) :
    stripNullsFields fields =
      (fields.filter fun f => !f.2.isNull).map fun f => (f.1, f.2.stripNulls) := by
  induction fields with
  | nil => simp only [stripNullsFields, List.filter_nil, List.map_nil]
  | cons f fields ih =>
    obtain ⟨k, x⟩ := f
    simp only [stripNullsFields, List.filter_cons, ih]
    cases x.isNull <;> simp

theorem isNull_dropNulls (x : Json) : x.dropNulls.isNull = x.isNull := by
  rw [dropNulls, isNull_stripNulls, isNull_asMap]

theorem dropNullsFields_eq (fields : List (List Char × Json)) :
    dropNullsFields fields =
      ((Members.mapOf fields).filter fun f => !f.2.isNull).map fun f => (f.1, f.2.dropNulls) := by
  unfold dropNullsFields
  rw [stripNullsFields_eq, asMapFields_eq, Members.mapOf_map, List.filter_map, List.map_map]
  congr 1
  refine List.filter_congr ?_
  intro f _
  simp only [Function.comp, isNull_asMap]

variable {fields : List (List Char × Json)}

/-- A member that is left was a member that is not null, and its value was
treated the same way. -/
theorem mem_dropNullsFields {k : List Char} {y : Json} (h : (k, y) ∈ dropNullsFields fields) :
    ∃ x, (k, x) ∈ fields ∧ x.isNull = false ∧ y = x.dropNulls := by
  unfold dropNullsFields at h
  rw [stripNullsFields_eq] at h
  obtain ⟨⟨l, z⟩, hz, heq⟩ := List.mem_map.mp h
  obtain ⟨rfl, rfl⟩ := Prod.mk.inj heq
  obtain ⟨hz, hnull⟩ := List.mem_filter.mp hz
  have hz' := Members.mem_of_mem_mapOf hz
  rw [asMapFields_eq] at hz'
  obtain ⟨⟨m, x⟩, hx, heq⟩ := List.mem_map.mp hz'
  obtain ⟨rfl, rfl⟩ := Prod.mk.inj heq
  refine ⟨x, hx, ?_, rfl⟩
  simpa only [isNull_asMap, Bool.not_eq_true'] using hnull

/-! ## `dropNulls` is a fixed point of itself -/

mutual

/-- Every object has its members sorted and none of them null. -/
def Tidy : Json → Prop
  | arr xs => TidyElements xs
  | obj fields => Members.Ascending fields ∧ TidyFields fields
  | _ => True

def TidyElements : List Json → Prop
  | [] => True
  | x :: xs => Tidy x ∧ TidyElements xs

def TidyFields : List (List Char × Json) → Prop
  | [] => True
  | (_, x) :: fields => x.isNull = false ∧ Tidy x ∧ TidyFields fields

end

theorem tidyElements_iff (xs : List Json) : TidyElements xs ↔ ∀ x ∈ xs, Tidy x := by
  induction xs with
  | nil => simp [TidyElements]
  | cons x xs ih => simp [TidyElements, ih]

theorem tidyFields_iff (fields : List (List Char × Json)) :
    TidyFields fields ↔ ∀ f ∈ fields, f.2.isNull = false ∧ Tidy f.2 := by
  induction fields with
  | nil => simp [TidyFields]
  | cons f fields ih =>
    obtain ⟨k, x⟩ := f
    simp [TidyFields, ih, and_assoc]

theorem ascending_stripNullsFields (h : Members.Ascending fields) :
    Members.Ascending (stripNullsFields fields) := by
  rw [stripNullsFields_eq]
  exact List.pairwise_map.mpr (h.filter _)

theorem tidy_dropNulls (x : Json) : Tidy x.dropNulls := by
  induction x using Json.induction with
  | null | bool b | num t | str s => simp only [dropNulls, asMap, stripNulls, Tidy]
  | arr xs ih =>
    rw [dropNulls_arr, Tidy, tidyElements_iff]
    exact List.forall_mem_map.mpr ih
  | obj fields ih =>
    rw [dropNulls_obj]
    refine ⟨ascending_stripNullsFields (Members.ascending_mapOf _), ?_⟩
    rw [tidyFields_iff]
    rintro ⟨k, y⟩ hy
    obtain ⟨x, hx, hnull, rfl⟩ := mem_dropNullsFields hy
    exact ⟨by rw [isNull_dropNulls, hnull], ih (k, x) hx⟩

theorem dropNulls_of_tidy {x : Json} (h : Tidy x) : x.dropNulls = x := by
  induction x using Json.induction with
  | null | bool b | num t | str s => simp only [dropNulls, asMap, stripNulls]
  | arr xs ih =>
    rw [Tidy, tidyElements_iff] at h
    rw [dropNulls_arr, List.map_congr_left fun x hx => ih x hx (h x hx), List.map_id']
  | obj fields ih =>
    obtain ⟨hasc, htidy⟩ := h
    rw [tidyFields_iff] at htidy
    have hkept : fields.filter (fun f => !f.2.isNull) = fields :=
      List.filter_eq_self.mpr fun f hf => by rw [(htidy f hf).1]; rfl
    have hsame : ∀ f ∈ fields, (f.1, f.2.dropNulls) = f := fun f hf =>
      Prod.ext rfl (ih f hf (htidy f hf).2)
    rw [dropNulls_obj, dropNullsFields_eq, Members.mapOf_of_ascending hasc, hkept,
      List.map_congr_left hsame, List.map_id']

/-- Dropping the nulls twice is dropping them once. -/
theorem dropNulls_dropNulls (x : Json) : x.dropNulls.dropNulls = x.dropNulls :=
  dropNulls_of_tidy (tidy_dropNulls x)

theorem mem_dropNullsFields_iff {m : List Char × Json} :
    m ∈ dropNullsFields fields ↔
      ∃ f ∈ Members.mapOf fields, f.2.isNull = false ∧ m = (f.1, f.2.dropNulls) := by
  rw [dropNullsFields_eq, List.mem_map]
  constructor
  · rintro ⟨f, hf, rfl⟩
    obtain ⟨hf, hnull⟩ := List.mem_filter.mp hf
    exact ⟨f, hf, by simpa using hnull, rfl⟩
  · rintro ⟨f, hf, hnull, rfl⟩
    exact ⟨f, List.mem_filter.mpr ⟨hf, by simp [hnull]⟩, rfl⟩

/-- What is left of an object depends on what is left of its members. -/
theorem dropNullsFields_congr {a b : List (List Char × Json)}
    (h : (a.map fun f => (f.1, f.2.dropNulls)) = b.map fun f => (f.1, f.2.dropNulls)) :
    dropNullsFields a = dropNullsFields b := by
  have hdrop : ∀ fields : List (List Char × Json),
      dropNullsFields (fields.map fun f => (f.1, f.2.dropNulls)) = dropNullsFields fields := by
    intro fields
    rw [dropNullsFields_eq, dropNullsFields_eq, Members.mapOf_map, List.filter_map, List.map_map]
    have hfilter : (Members.mapOf fields).filter
        ((fun f => !f.2.isNull) ∘ fun f : List Char × Json => (f.1, f.2.dropNulls)) =
          (Members.mapOf fields).filter fun f => !f.2.isNull := by
      refine List.filter_congr ?_
      intro f _
      simp only [Function.comp, isNull_dropNulls]
    rw [hfilter]
    refine List.map_congr_left ?_
    intro f _
    simp only [Function.comp, dropNulls_dropNulls]
  rw [← hdrop a, ← hdrop b, h]

/-! ## Numbers stay numbers -/

theorem wellFormedElements_iff (xs : List Json) :
    wellFormedElements xs = true ↔ ∀ x ∈ xs, x.wellFormed = true := by
  induction xs with
  | nil => simp [wellFormedElements]
  | cons x xs ih => simp [wellFormedElements, ih]

theorem wellFormedFields_iff (fields : List (List Char × Json)) :
    wellFormedFields fields = true ↔ ∀ f ∈ fields, f.2.wellFormed = true := by
  induction fields with
  | nil => simp [wellFormedFields]
  | cons f fields ih =>
    obtain ⟨k, x⟩ := f
    simp [wellFormedFields, ih]

theorem wellFormed_dropNulls {x : Json} (h : x.wellFormed = true) :
    x.dropNulls.wellFormed = true := by
  induction x using Json.induction with
  | null | bool b | num t | str s => exact h
  | arr xs ih =>
    rw [wellFormed, wellFormedElements_iff] at h
    rw [dropNulls_arr, wellFormed, wellFormedElements_iff]
    exact List.forall_mem_map.mpr fun x hx => ih x hx (h x hx)
  | obj fields ih =>
    rw [wellFormed, wellFormedFields_iff] at h
    rw [dropNulls_obj, wellFormed, wellFormedFields_iff]
    rintro ⟨k, y⟩ hy
    obtain ⟨x, hx, _, rfl⟩ := mem_dropNullsFields hy
    exact ih (k, x) hx (h (k, x) hx)

theorem wellFormed_asMap {x : Json} (h : x.wellFormed = true) : x.asMap.wellFormed = true := by
  induction x using Json.induction with
  | null | bool b | num t | str s => simpa only [asMap] using h
  | arr xs ih =>
    rw [wellFormed, wellFormedElements_iff] at h
    rw [asMap, asMapElements_eq, wellFormed, wellFormedElements_iff]
    exact List.forall_mem_map.mpr fun x hx => ih x hx (h x hx)
  | obj fields ih =>
    rw [wellFormed, wellFormedFields_iff] at h
    rw [asMap, asMapFields_eq, wellFormed, wellFormedFields_iff]
    intro f hf
    obtain ⟨g, hg, rfl⟩ := List.mem_map.mp (Members.mem_of_mem_mapOf hf)
    exact ih g hg (h g hg)

end Json

end Caspian.Verified
