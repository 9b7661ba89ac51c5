import Caspian.Link.Outbound
import Caspian.Verified.JsonPath

/-!
# Dropping the nulls of a document

`dropNulls` decodes a document into generic maps, deletes the members that are
null and writes the rest.  Go's decoder refuses what is nested more than ten
thousand deep, so a document of that depth is not returned at all
(`deep_document_refused`).  Every other document comes back with what it had
(`dropNullsRaw_frame`).
-/

namespace Caspian.Link

open Verified Verified.Json

/-- The depth `encoding/json` decodes at most. -/
def maxNestingDepth : Nat := 10000

/-- `dropNulls`. -/
def dropNullsRaw (raw : List Char) : Except LinkError (List Char) :=
  match parse raw with
  | none => .error .serialise
  | some doc =>
    if doc.within maxNestingDepth then .ok (render doc.dropNulls) else .error .serialise

variable {raw : List Char} {x : Json}

theorem dropNullsRaw_ok (h : parse raw = some x) (hdepth : x.within maxNestingDepth = true) :
    dropNullsRaw raw = .ok (render x.dropNulls) := by
  simp only [dropNullsRaw, h, hdepth, if_true]

theorem dropNullsRaw_deep (h : parse raw = some x) (hdepth : x.within maxNestingDepth = false) :
    dropNullsRaw raw = .error .serialise := by
  simp only [dropNullsRaw, h, hdepth, Bool.false_eq_true, if_false]

/-- **Dropping the nulls loses nothing else.**  For a document without repeated
names that Go's decoder takes: no object of the result has a null member, an
array is where it was and holds what its elements became, one by one, what was
neither null nor a container is where it was and as it was written, nothing
stands where nothing stood, and the result is not changed a second time. -/
theorem dropNullsRaw_frame {raw : List Char} {x : Json} (hparse : parse raw = some x)
    (hdepth : x.within maxNestingDepth = true) (hx : x.Distinct) :
    ∃ out y, dropNullsRaw raw = .ok out ∧ parse out = some y ∧
      (∀ path fields, y.down path = some (obj fields) → ∀ f ∈ fields, f.2.isNull = false) ∧
      (∀ path xs, x.down path = some (arr xs) →
        y.down path = some (arr (xs.map Json.dropNulls))) ∧
      (∀ path v, x.down path = some v → v.isScalar = true → y.down path = some v) ∧
      (∀ path, (y.down path).isSome = true → (x.down path).isSome = true) ∧
      dropNullsRaw out = .ok out := by
  have hback : parse (render x.dropNulls) = some x.dropNulls :=
    parse_render (wellFormed_dropNulls (wellFormed_of_parse hparse))
  refine ⟨_, x.dropNulls, dropNullsRaw_ok hparse hdepth, hback, ?_, ?_, ?_, ?_, ?_⟩
  · intro path fields hdown f hf
    have htidy := tidy_down (tidy_dropNulls x) hdown
    exact ((tidyFields_iff fields).mp htidy.2 f hf).1
  · intro path xs hdown
    rw [down_kept hx hdown rfl, dropNulls_arr]
  · intro path v hdown hv
    rw [down_kept hx hdown (by cases v <;> trivial)]
    cases v with
    | bool b | num t | str s => simp only [Json.dropNulls, asMap, stripNulls]
    | _ => cases hv
  · intro path hsome
    rw [down_dropNulls hx] at hsome
    cases hdown : x.down path with
    | none =>
      rw [hdown] at hsome
      cases hsome
    | some v => rfl
  · rw [dropNullsRaw_ok hback (within_dropNulls hdepth), dropNulls_dropNulls]

/-- One null to drop, and a number. -/
def smallDocument : Json := obj [(['a'], null), (['b'], num ['1', '.', '0'])]

theorem small_document_kept :
    ∃ out y, dropNullsRaw (render smallDocument) = .ok out ∧ parse out = some y ∧
      y.down [.member ['b']] = some (num ['1', '.', '0']) := by
  have hdistinct : smallDocument.Distinct := by
    refine distinct_of_children (fun fields h => ?_) fun q y hy => ?_
    · cases h
      decide
    · have hy : y = null ∨ y = num ['1', '.', '0'] := by
        cases q with
        | element i => cases hy
        | member name =>
          have hmem := (lookup_eq_some (by decide)).mp hy
          simp only [List.mem_cons, Prod.mk.injEq, List.not_mem_nil, or_false] at hmem
          exact hmem.imp And.right And.right
      rcases hy with rfl | rfl <;>
        exact distinct_of_children (fun _ h => nomatch h) fun q y hy => by cases q <;> cases hy
  obtain ⟨out, y, hout, hback, -, -, hscalar, -⟩ :=
    dropNullsRaw_frame (parse_render (x := smallDocument) (by decide)) (by decide) hdistinct
  exact ⟨out, y, hout, hback, hscalar _ _ rfl rfl⟩

/-- Empty arrays in one another. -/
def nested : Nat → Json
  | 0 => arr []
  | n + 1 => arr [nested n]

theorem nested_wellFormed (n : Nat) : (nested n).wellFormed = true := by
  induction n with
  | zero => rfl
  | succ n ih => simp [nested, wellFormed, wellFormedElements, ih]

theorem nested_distinct (n : Nat) : (nested n).Distinct := by
  induction n with
  | zero => exact distinct_of_children (fun _ h => nomatch h) fun q y hy => by cases q <;> cases hy
  | succ n ih =>
    refine distinct_of_children (fun _ h => nomatch h) fun q y hy => ?_
    cases q with
    | member name => cases hy
    | element i => exact List.mem_singleton.mp (List.mem_of_getElem? hy) ▸ ih

theorem nested_not_within (n : Nat) : (nested n).within n = false := by
  induction n with
  | zero => rfl
  | succ n ih => simp [nested, within, ih]

/-- A valid document without objects that is nested too deep is refused. -/
theorem deep_document_refused :
    ∃ raw x, parse raw = some x ∧ x.Distinct ∧ dropNullsRaw raw = .error .serialise := by
  have hparse := parse_render (nested_wellFormed maxNestingDepth)
  exact ⟨_, _, hparse, nested_distinct _, dropNullsRaw_deep hparse (nested_not_within _)⟩

end Caspian.Link
