import Caspian.Verified.JsonStruct

/-!
# Records written as JSON objects and read back

A record is written with its fields in order, some of them left out when they
have their zero value.  If no two of the names are the same up to letter case,
every field is given exactly the value that was written for it
(`matching_written`), and what was left out keeps the value it had.
-/

namespace Caspian.Verified.Json

/-- The members of a record: a field that is left out has no value. -/
def written (entries : List (List Char × Option Json)) : List (List Char × Json) :=
  entries.filterMap fun e => e.2.map fun x => (e.1, x)

/-- No two names are the same up to letter case. -/
def Apart (names : List (List Char)) : Prop := names.Pairwise fun a b => folds a b = false

instance (names : List (List Char)) : Decidable (Apart names) :=
  inferInstanceAs (Decidable (List.Pairwise _ _))

theorem folds_self (name : List Char) : folds name name = true := decide_eq_true rfl

theorem folds_comm (a b : List Char) : folds a b = folds b a := by
  unfold folds
  rw [decide_eq_decide]
  exact eq_comm

/-- The values for a name that no field has. -/
theorem matching_written_nil {field : List Char} :
    ∀ {entries : List (List Char × Option Json)},
      (∀ e ∈ entries, folds field e.1 = false) → matching field (written entries) = [] := by
  intro entries
  induction entries with
  | nil =>
    intro _
    rfl
  | cons e rest ih =>
    intro h
    obtain ⟨name, value⟩ := e
    have hrest := ih fun e he => h e (List.mem_cons_of_mem _ he)
    have hname : folds field name = false := h (name, value) List.mem_cons_self
    cases value with
    | none =>
      show matching field (written rest) = []
      exact hrest
    | some x =>
      show matching field ((name, x) :: written rest) = []
      simp only [matching, List.filter_cons, hname, Bool.false_eq_true, if_false]
      exact hrest

/-- Every field is given the value that was written for it. -/
theorem matching_written {field : List Char} {value : Option Json} :
    ∀ {entries : List (List Char × Option Json)}, Apart (entries.map Prod.fst) →
      (field, value) ∈ entries → matching field (written entries) = value.toList := by
  intro entries
  induction entries with
  | nil =>
    intro _ hmem
    cases hmem
  | cons e rest ih =>
    intro hapart hmem
    obtain ⟨name, x⟩ := e
    obtain ⟨hfirst, hrest⟩ := List.pairwise_cons.mp hapart
    rcases List.mem_cons.mp hmem with heq | hin
    · cases heq
      have hnone : matching field (written rest) = [] := by
        apply matching_written_nil
        intro e he
        exact hfirst e.1 (List.mem_map.mpr ⟨e, he, rfl⟩)
      cases value with
      | none =>
        show matching field (written rest) = []
        exact hnone
      | some x =>
        show matching field ((field, x) :: written rest) = [x]
        unfold matching at hnone ⊢
        simp only [List.filter_cons, folds_self, if_true, List.map_cons, hnone]
    · have hname : folds field name = false := by
        rw [folds_comm]
        exact hfirst field (List.mem_map.mpr ⟨(field, value), hin, rfl⟩)
      have hlater := ih hrest hin
      cases x with
      | none =>
        show matching field (written rest) = value.toList
        exact hlater
      | some y =>
        show matching field ((name, y) :: written rest) = value.toList
        unfold matching at hlater ⊢
        simp only [List.filter_cons, hname, Bool.false_eq_true, if_false]
        exact hlater

/-! ## Fields of other kinds -/

/-- A field that is a record itself: each object given fills it further. -/
def recordField {α : Type} (fill : α → List (List Char × Json) → Option α) : α → List Json → Option α
  | a, [] => some a
  | a, x :: xs => (objectMembers x).bind fun fields => (fill a fields).bind fun b =>
    recordField fill b xs

def asBool : Json → Option Bool
  | .bool b => some b
  | _ => none

/-- A number of a text without fraction or exponent that fits a signed type. -/
def asInt64 : Json → Option Int64
  | num ('-' :: ds) =>
    if ds.all Char.isDigit ∧ Nat.ofDigitChars 10 ds 0 ≤ 2 ^ 63 then
      some (Int64.ofInt (-(Nat.ofDigitChars 10 ds 0 : Int)))
    else none
  | num ds =>
    if ds.all Char.isDigit ∧ Nat.ofDigitChars 10 ds 0 < 2 ^ 63 then
      some (Int64.ofInt (Nat.ofDigitChars 10 ds 0 : Int))
    else none
  | _ => none

theorem toDigits_head_ne_minus (n : Nat) (ds : List Char) : Nat.toDigits 10 n ≠ '-' :: ds := by
  intro h
  have hmem : '-' ∈ Nat.toDigits 10 n := by
    rw [h]
    exact List.mem_cons_self
  have hdigit := Nat.isDigit_of_mem_toDigits (by decide) (by decide) hmem
  exact absurd hdigit (by decide)

/-- A signed number is read as it was written. -/
theorem asInt64_ofInt (x : Int64) : asInt64 (ofInt x.toInt) = some x := by
  have hlt := Int64.toInt_lt x
  have hle := Int64.le_toInt x
  have hread : ∀ n : Nat, Nat.ofDigitChars 10 (Nat.toDigits 10 n) 0 = n :=
    fun n => Nat.ofDigitChars_ten_toDigits
  unfold ofInt
  by_cases hneg : x.toInt < 0
  · have hbound : x.toInt.natAbs ≤ 2 ^ 63 := by omega
    have hback : -(x.toInt.natAbs : Int) = x.toInt := by omega
    rw [if_pos hneg]
    simp only [asInt64, hread, all_isDigit_toDigits, hbound, and_self, if_true, hback,
      Int64.ofInt_toInt]
  · have hbound : x.toInt.toNat < 2 ^ 63 := by omega
    have hback : (x.toInt.toNat : Int) = x.toInt := by omega
    rw [if_neg hneg, ofNat, asInt64]
    · simp only [hread, all_isDigit_toDigits, hbound, and_self, if_true, hback, Int64.ofInt_toInt]
    · exact toDigits_head_ne_minus _

theorem isNull_ofInt (n : Int) : (ofInt n).isNull = false := by
  unfold ofInt
  split <;> rfl

end Caspian.Verified.Json
