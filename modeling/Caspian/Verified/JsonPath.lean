import Caspian.Verified.JsonMap

/-!
# Places in a JSON value

A place is given by the way to it: the number of an element or the name of a
member at every step.  `down_dropNulls` says what stands at each place once the
nulls were dropped, which is all a frame condition on `dropNulls` can ask for.
-/

namespace Caspian.Verified.Json

/-- One step of the way to a place. -/
inductive Part where
  | element (i : Nat)
  | member (name : List Char)
  deriving DecidableEq

def child : Part → Json → Option Json
  | .element i, arr xs => xs[i]?
  | .member name, obj fields => fields.lookup name
  | _, _ => none

/-- What stands at a place. -/
def down : List Part → Json → Option Json
  | [], x => some x
  | q :: path, x => (child q x).bind (down path)

/-- No object in the value has two members of one name. -/
def Distinct (x : Json) : Prop :=
  ∀ path fields, x.down path = some (obj fields) → (fields.map Prod.fst).Nodup

/-- At the end of the way stands a null that is the value of a member. -/
def removed : List Part → Json → Bool
  | [], _ => false
  | [.member _], x => x.isNull
  | [.element _], _ => false
  | _ :: path, x => removed path x

/-- A value that is neither null nor made of others. -/
def isScalar : Json → Bool
  | bool _ | num _ | str _ => true
  | _ => false

/-- Arrays and objects are nested at most so deep. -/
def within : Nat → Json → Bool
  | 0, arr _ => false
  | 0, obj _ => false
  | n + 1, arr xs => xs.all (within n)
  | n + 1, obj fields => fields.all fun f => within n f.2
  | _, _ => true

variable {x y : Json} {fields : List (List Char × Json)} {name : List Char}

theorem lookup_eq_some (h : (fields.map Prod.fst).Nodup) :
    fields.lookup name = some x ↔ (name, x) ∈ fields := by
  induction fields with
  | nil => simp
  | cons f fields ih =>
    obtain ⟨k, y⟩ := f
    obtain ⟨hk, hrest⟩ := List.nodup_cons.mp h
    by_cases hname : name = k
    · subst hname
      have hout : (name, x) ∉ fields := fun hmem => hk (List.mem_map.mpr ⟨_, hmem, rfl⟩)
      simp [hout, eq_comm]
    · rw [List.lookup_cons, beq_false_of_ne hname, ih hrest]
      simp [hname]

theorem nodup_names (h : Members.Ascending fields) : (fields.map Prod.fst).Nodup :=
  List.pairwise_map.mpr (h.imp fun hlt => hlt.ne)

theorem lookup_dropNulls (h : (fields.map Prod.fst).Nodup) :
    (dropNullsFields fields).lookup name =
      ((fields.lookup name).filter fun x => !x.isNull).map dropNulls := by
  have hasc : Members.Ascending (dropNullsFields fields) :=
    ascending_stripNullsFields (Members.ascending_mapOf _)
  refine Option.ext fun y => ?_
  rw [lookup_eq_some (nodup_names hasc), mem_dropNullsFields_iff, Option.map_eq_some_iff]
  simp only [Option.filter_eq_some_iff, Bool.not_eq_true']
  constructor
  · rintro ⟨f, hf, hnull, heq⟩
    obtain ⟨rfl, rfl⟩ := Prod.mk.inj heq
    exact ⟨f.2, ⟨(lookup_eq_some h).mpr (Members.mem_of_mem_mapOf hf), hnull⟩, rfl⟩
  · rintro ⟨x, ⟨hx, hnull⟩, rfl⟩
    have hmem := (lookup_eq_some h).mp hx
    refine ⟨(name, x), Members.mem_mapOf hmem fun y hy => ?_, hnull, rfl⟩
    exact Option.some.inj (((lookup_eq_some h).mpr hy).symm.trans hx)

theorem child_dropNulls (hx : x.Distinct) (q : Part) :
    x.dropNulls.child q = ((x.child q).filter fun y => !removed [q] y).map dropNulls := by
  cases x with
  | null | bool b | num t | str s => cases q <;> simp [dropNulls, asMap, stripNulls, child]
  | arr xs =>
    cases q with
    | element i => cases h : xs[i]? <;> simp [child, removed, h]
    | member name => simp [child]
  | obj fields =>
    cases q with
    | element i => simp [child]
    | member name =>
      rw [dropNulls_obj]
      exact lookup_dropNulls (hx [] fields rfl)

theorem Distinct.child (hx : x.Distinct) {q : Part} (h : x.child q = some y) : y.Distinct := by
  intro path fields hdown
  refine hx (q :: path) fields ?_
  rw [down, h]
  exact hdown

theorem distinct_of_children (h : ∀ fields, x = obj fields → (fields.map Prod.fst).Nodup)
    (hchild : ∀ q y, x.child q = some y → y.Distinct) : x.Distinct := by
  intro path fields hdown
  cases path with
  | nil => exact h fields (Option.some.inj hdown)
  | cons q path =>
    obtain ⟨y, hy, hdown⟩ := Option.bind_eq_some_iff.mp hdown
    exact hchild q y hy path fields hdown

/-- **What is left at a place**: what stood there, freed of its own nulls, unless
that was a null member. -/
theorem down_dropNulls (hx : x.Distinct) (path : List Part) :
    x.dropNulls.down path = ((x.down path).filter fun y => !removed path y).map dropNulls := by
  induction path generalizing x with
  | nil => rfl
  | cons q path ih =>
    rw [down, down, child_dropNulls hx]
    cases hq : x.child q with
    | none => rfl
    | some y =>
      cases path with
      | nil =>
        simp only [Option.bind_some, down]
        cases hr : removed [q] y <;> simp
      | cons r path =>
        have hsame : ∀ z, removed (q :: r :: path) z = removed (r :: path) z := by
          intro z
          cases q <;> rfl
        simp only [Option.bind_some, hsame, ← ih (hx.child hq)]
        cases hr : removed [q] y with
        | false =>
          rw [Option.filter_some_pos (by rw [hr]; rfl), Option.map_some, Option.bind_some]
        | true =>
          -- nothing stands below a null
          have hnull : y = null := by
            cases q with
            | element i => cases hr
            | member name =>
              cases y with
              | null => rfl
              | _ => cases hr
          rw [Option.filter_some_neg (by simp [hr]), hnull]
          simp [down, Json.child]

theorem isNull_of_removed {path : List Part} (h : removed path x = true) : x.isNull = true := by
  induction path with
  | nil => cases h
  | cons q path ih =>
    cases path with
    | nil =>
      cases q with
      | element i => cases h
      | member name => exact h
    | cons r path => exact ih (by cases q <;> exact h)

/-- What is not null is still at its place. -/
theorem down_kept {path : List Part} (hx : x.Distinct) (h : x.down path = some y)
    (hy : y.isNull = false) : x.dropNulls.down path = some y.dropNulls := by
  have hkept : removed path y = false := by
    refine Bool.eq_false_iff.mpr fun hr => ?_
    rw [isNull_of_removed hr] at hy
    cases hy
  rw [down_dropNulls hx, h, Option.filter_some_pos (by rw [hkept]; rfl), Option.map_some]

theorem tidy_down {path : List Part} (hx : x.Tidy) (h : x.down path = some y) : y.Tidy := by
  induction path generalizing x with
  | nil => exact Option.some.inj h ▸ hx
  | cons q path ih =>
    obtain ⟨z, hz, h⟩ := Option.bind_eq_some_iff.mp h
    refine ih ?_ h
    cases x with
    | arr xs =>
      cases q with
      | member name => cases hz
      | element i => exact (tidyElements_iff xs).mp hx z (List.mem_of_getElem? hz)
    | obj fields =>
      cases q with
      | element i => cases hz
      | member name =>
        have hmem := (lookup_eq_some (nodup_names hx.1)).mp hz
        exact ((tidyFields_iff fields).mp hx.2 _ hmem).2
    | _ => cases q <;> cases hz

theorem within_dropNulls {n : Nat} (h : x.within n = true) : x.dropNulls.within n = true := by
  induction n generalizing x with
  | zero =>
    cases x with
    | arr xs | obj fields => cases h
    | _ => exact h
  | succ n ih =>
    cases x with
    | arr xs =>
      rw [within, List.all_eq_true] at h
      rw [dropNulls_arr, within, List.all_eq_true]
      exact List.forall_mem_map.mpr fun x hx => ih (h x hx)
    | obj fields =>
      rw [within, List.all_eq_true] at h
      rw [dropNulls_obj, within, List.all_eq_true]
      rintro ⟨k, y⟩ hy
      obtain ⟨x, hx, _, rfl⟩ := mem_dropNullsFields hy
      exact ih (h (k, x) hx)
    | _ => exact h

end Caspian.Verified.Json
