import Caspian.Verified.JsonMap

/-!
# JSON objects read into records

A record is filled member by member, in the order of the text.  A member goes
to the field its name matches up to letter case; a null leaves a plain field
alone and clears a pointer; a value of another kind makes the whole read fail.
So a field is a function of the values it is given in turn, which `matching`
lists.

A member that is the only one for its field is read the same after the object
went through a generic map (`matching_dropNulls`).  Two members for one field
need not be: the map puts them in another order.
-/

namespace Caspian.Verified.Json

/-! ## Fields -/

/-- The name is the field's up to letter case. -/
def folds (field name : List Char) : Bool :=
  name.map Text.foldRune = field.map Text.foldRune

/-- The values a field is given, in order. -/
def matching (field : List Char) (fields : List (List Char × Json)) : List Json :=
  (fields.filter fun f => folds field f.1).map Prod.snd

/-- The members a record is filled from; null fills nothing. -/
def objectMembers : Json → Option (List (List Char × Json))
  | obj fields => some fields
  | null => some []
  | _ => none

/-- A field of a plain type: nulls are skipped, the last value stays. -/
def plainField {α : Type} (read : Json → Option α) : α → List Json → Option α
  | a, [] => some a
  | a, x :: xs =>
    if x.isNull then plainField read a xs
    else
      match read x with
      | some b => plainField read b xs
      | none => none

def asString : Json → Option (List Char)
  | str s => some s
  | _ => none

/-- A number of a text that is digits only and fits the width. -/
def asUint (width : Nat) : Json → Option Nat
  | num text =>
    if text.all Char.isDigit ∧ Nat.ofDigitChars 10 text 0 < 2 ^ width then
      some (Nat.ofDigitChars 10 text 0)
    else none
  | _ => none

/-- A field of type string, empty at first. -/
def stringField (field : List Char) (fields : List (List Char × Json)) : Option (List Char) :=
  plainField asString [] (matching field fields)

/-- A field of an unsigned type, zero at first. -/
def uintField (width : Nat) (field : List Char) (fields : List (List Char × Json)) :
    Option Nat :=
  plainField (asUint width) 0 (matching field fields)

/-- A pointer to a string: every value is a string or null, and the last one
stays. -/
def stringPointer (field : List Char) (fields : List (List Char × Json)) :
    Option (Option (List Char)) :=
  if (matching field fields).all fun x => x.isNull || (asString x).isSome then
    some ((matching field fields).getLast?.bind asString)
  else none

def asArray : Json → Option (List Json)
  | arr xs => some xs
  | _ => none

/-- A list of raw values: every value is an array or null, and the last one
stays. -/
def rawList (field : List Char) (fields : List (List Char × Json)) : Option (List Json) :=
  if (matching field fields).all fun x => x.isNull || (asArray x).isSome then
    some (((matching field fields).getLast?.bind asArray).getD [])
  else none

/-- What a pointer to a raw value is left with: the last value, unless it is
null. -/
def pointerField (field : List Char) (fields : List (List Char × Json)) : Option Json :=
  (matching field fields).getLast?.filter fun x => !x.isNull

/-- A number as it is written. -/
def ofNat (n : Nat) : Json := num (Nat.toDigits 10 n)

/-- A signed number as it is written. -/
def ofInt (n : Int) : Json :=
  if n < 0 then num ('-' :: Nat.toDigits 10 n.natAbs) else ofNat n.toNat

/-- A pointer to a string as it is written. -/
def ofPointer : Option (List Char) → Json
  | some s => str s
  | none => null

theorem all_isDigit_toDigits (n : Nat) : (Nat.toDigits 10 n).all Char.isDigit = true :=
  List.all_eq_true.mpr fun _ hc => Nat.isDigit_of_mem_toDigits (by decide) (by decide) hc

theorem isNumberChar_of_isDigit {c : Char} (h : c.isDigit = true) : isNumberChar c = true := by
  have hmem := Text.mem_decimalDigits h
  revert hmem
  clear h
  revert c
  decide

theorem isDigit_of_isDigit {c : Char} (h : c.isDigit = true) : isDigit c = true := by
  have hmem := Text.mem_decimalDigits h
  revert hmem
  clear h
  revert c
  decide

/-- A list of digits without a leading zero is a number. -/
theorem unsignedNumber_of_digits {text : List Char} (hne : text ≠ [])
    (hall : ∀ c ∈ text, isDigit c = true) (hzero : text.head? = some '0' → text = ['0']) :
    unsignedNumber text = true := by
  cases text with
  | nil => exact absurd rfl hne
  | cons c rest =>
    by_cases hc : c = '0'
    · subst hc
      rw [hzero rfl]
      decide
    · have hdigits : someDigits (c :: rest) = some [] := by
        unfold someDigits
        rw [List.takeWhile_eq_self_iff.mpr hall, List.dropWhile_eq_nil_iff.mpr hall]
        simp
      unfold unsignedNumber
      split
      · next heq => exact absurd (List.cons.inj heq).1 hc
      · rw [hdigits]
        rfl

/-- A printed number has no leading zero but its own. -/
theorem head_toDigits_zero (n : Nat) :
    (Nat.toDigits 10 n).head? = some '0' → Nat.toDigits 10 n = ['0'] := by
  induction n using Nat.strongRecOn with
  | ind n ih =>
    intro h
    by_cases hn : n < 10
    · rw [Nat.toDigits_of_lt_base hn] at h ⊢
      simpa using h
    · rw [Nat.toDigits_of_base_le (by decide) (by omega),
        List.head?_append_of_ne_nil _ Nat.toDigits_ne_nil] at h
      have hdiv := ih (n / 10) (by omega) h
      have hval : n / 10 = 0 := by
        have hread := Nat.ofDigitChars_ten_toDigits (n := n / 10)
        rw [hdiv] at hread
        exact hread.symm
      omega

theorem unsignedNumber_toDigits (n : Nat) : unsignedNumber (Nat.toDigits 10 n) = true :=
  unsignedNumber_of_digits Nat.toDigits_ne_nil
    (fun _ hc => isDigit_of_isDigit (Nat.isDigit_of_mem_toDigits (by decide) (by decide) hc))
    (head_toDigits_zero n)

theorem all_isNumberChar_toDigits (n : Nat) :
    (Nat.toDigits 10 n).all isNumberChar = true :=
  List.all_eq_true.mpr fun _ hc =>
    isNumberChar_of_isDigit (Nat.isDigit_of_mem_toDigits (by decide) (by decide) hc)

theorem wellFormed_ofNat (n : Nat) : (ofNat n).wellFormed = true := by
  simp only [ofNat, wellFormed, isNumber, Bool.and_eq_true]
  refine ⟨?_, all_isNumberChar_toDigits n⟩
  unfold validNumber
  split
  · next cs heq =>
      have hmem : '-' ∈ Nat.toDigits 10 n := by
        rw [heq]
        exact List.mem_cons_self
      have hminus := Nat.isDigit_of_mem_toDigits (by decide) (by decide) hmem
      exact absurd hminus (by decide)
  · exact unsignedNumber_toDigits n

theorem wellFormed_ofInt (n : Int) : (ofInt n).wellFormed = true := by
  unfold ofInt
  split
  · simp only [wellFormed, isNumber, validNumber, List.all_cons, Bool.and_eq_true]
    exact ⟨unsignedNumber_toDigits _, by decide, all_isNumberChar_toDigits _⟩
  · exact wellFormed_ofNat _

/-! ## After a generic map -/

theorem singleton_of_ascending {κ α : Type} [LinearOrder κ] {ms : List (κ × α)} {m : κ × α}
    (hasc : Members.Ascending ms) (hmem : m ∈ ms) (hall : ∀ n ∈ ms, n = m) : ms = [m] := by
  cases ms with
  | nil => cases hmem
  | cons n rest =>
    obtain rfl := hall n List.mem_cons_self
    cases rest with
    | nil => rfl
    | cons p rest =>
      obtain rfl := hall p (by simp)
      exact absurd ((List.pairwise_cons.mp hasc).1 p List.mem_cons_self) (lt_irrefl _)

variable {field k : List Char} {x : Json} {fields : List (List Char × Json)}

/-- The only member for a field is still the only one, with its own nulls
dropped. -/
theorem matching_dropNulls (hone : fields.filter (fun f => folds field f.1) = [(k, x)])
    (hx : x.isNull = false) : matching field (dropNullsFields fields) = [x.dropNulls] := by
  have hmem : (k, x) ∈ fields.filter (fun f => folds field f.1) := by
    rw [hone]
    exact List.mem_cons_self
  obtain ⟨hin, hfold⟩ := List.mem_filter.mp hmem
  have honly : ∀ l y, (l, y) ∈ fields → folds field l = true → (l, y) = (k, x) := by
    intro l y hl hf
    have : (l, y) ∈ fields.filter (fun f => folds field f.1) := List.mem_filter.mpr ⟨hl, hf⟩
    rwa [hone, List.mem_singleton] at this
  have hkept : (k, x.dropNulls) ∈ dropNullsFields fields := by
    unfold dropNullsFields
    rw [stripNullsFields_eq, asMapFields_eq]
    refine List.mem_map.mpr ⟨(k, x.asMap), List.mem_filter.mpr ⟨Members.mem_mapOf ?_ ?_, ?_⟩, rfl⟩
    · exact List.mem_map.mpr ⟨(k, x), hin, rfl⟩
    · intro y hy
      obtain ⟨⟨l, z⟩, hz, heq⟩ := List.mem_map.mp hy
      obtain ⟨rfl, rfl⟩ := Prod.mk.inj heq
      rw [(Prod.mk.inj (honly l z hz hfold)).2]
    · simp only [isNull_asMap, hx, Bool.not_false]
  have hasc : Members.Ascending (dropNullsFields fields) :=
    ascending_stripNullsFields (Members.ascending_mapOf _)
  have hfilter : (dropNullsFields fields).filter (fun f => folds field f.1) =
      [(k, x.dropNulls)] := by
    refine singleton_of_ascending (hasc.filter _) (List.mem_filter.mpr ⟨hkept, hfold⟩) ?_
    rintro ⟨l, y⟩ hl
    obtain ⟨hl, hf⟩ := List.mem_filter.mp hl
    obtain ⟨z, hz, _, rfl⟩ := mem_dropNullsFields hl
    obtain ⟨rfl, rfl⟩ := Prod.mk.inj (honly l z hz hf)
    rfl
  rw [matching, hfilter]
  rfl

/-- A field nothing is given is still given nothing. -/
theorem matching_dropNulls_nil (hnone : ∀ f ∈ fields, folds field f.1 = true → f.2.isNull = true) :
    matching field (dropNullsFields fields) = [] := by
  have hfilter : (dropNullsFields fields).filter (fun f => folds field f.1) = [] := by
    rw [List.filter_eq_nil_iff]
    rintro ⟨l, y⟩ hl hf
    obtain ⟨z, hz, hnull, _⟩ := mem_dropNullsFields hl
    rw [hnone (l, z) hz hf] at hnull
    cases hnull
  rw [matching, hfilter]
  rfl

/-- The values for a field with one member. -/
theorem matching_dropNulls_one (hone : fields.filter (fun f => folds field f.1) = [(k, x)]) :
    matching field (dropNullsFields fields) = if x.isNull then [] else [x.dropNulls] := by
  cases hx : x.isNull with
  | false =>
    rw [matching_dropNulls hone hx]
    rfl
  | true =>
    refine matching_dropNulls_nil ?_
    intro f hf hfold
    have hmem : f ∈ fields.filter (fun f => folds field f.1) := List.mem_filter.mpr ⟨hf, hfold⟩
    rw [hone, List.mem_singleton] at hmem
    rw [hmem]
    exact hx

/-- The field has at most one member, and that one is no object or list. -/
def Single (field : List Char) (fields : List (List Char × Json)) : Prop :=
  fields.filter (fun f => folds field f.1) = [] ∨
    ∃ k x, fields.filter (fun f => folds field f.1) = [(k, x)] ∧ x.dropNulls = x

/-- Such a field is read the same after the map. -/
theorem Single.plainField {α : Type} (h : Single field fields) (read : Json → Option α) (a : α) :
    plainField read a (matching field (dropNullsFields fields)) =
      plainField read a (matching field fields) := by
  rcases h with hnone | ⟨k, x, hone, hx⟩
  · have hnil : matching field (dropNullsFields fields) = [] := by
      refine matching_dropNulls_nil ?_
      intro f hf hfold
      exact absurd hfold (List.filter_eq_nil_iff.mp hnone f hf)
    rw [hnil, matching, hnone]
    rfl
  · rw [matching_dropNulls_one hone, matching, hone, hx]
    cases hnull : x.isNull with
    | false => rfl
    | true => simp [Json.plainField, hnull]

/-! ## Members at any depth -/

mutual

/-- A member somewhere in the value passes the test. -/
def anyMember (test : List Char → Json → Bool) : Json → Bool
  | arr xs => anyMemberElements test xs
  | obj fields => anyMemberFields test fields
  | _ => false

def anyMemberElements (test : List Char → Json → Bool) : List Json → Bool
  | [] => false
  | x :: xs => anyMember test x || anyMemberElements test xs

def anyMemberFields (test : List Char → Json → Bool) : List (List Char × Json) → Bool
  | [] => false
  | (k, x) :: fields => test k x || anyMember test x || anyMemberFields test fields

end

/-- A member somewhere in the value has one of the names. -/
def mentions (names : List (List Char)) : Json → Bool :=
  anyMember fun k _ => names.any fun name => folds name k

/-- What a test finds in one member that a map is left with. -/
def found (test : List Char → Json → Bool) (k : List Char) (x : Json) : Bool :=
  !x.isNull && (test k x.dropNulls || anyMember test x.dropNulls)

variable {test : List Char → Json → Bool}

end Caspian.Verified.Json
