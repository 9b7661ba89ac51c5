import Caspian.Verified.Text

/-!
# JSON texts

Values, the compact text the encoder writes for them, and a reader for
arbitrary text.  Numbers are kept as they are written.  The encoder escapes
what the Go encoder escapes, which is more than JSON asks for: the characters
that are special in HTML and the two line separators.

The reader works on the characters left and carries fuel for its recursion;
`parse` gives it enough for any text.  It accepts nesting of any depth.

More fuel reads the same value (`value_mono`).
-/

namespace Caspian.Verified

/-- A JSON value. -/
inductive Json where
  | null
  | bool (b : Bool)
  /-- A number, as it is written. -/
  | num (text : List Char)
  | str (s : List Char)
  | arr (xs : List Json)
  | obj (fields : List (List Char × Json))

namespace Json

/-- What holds of a value whenever it holds of its elements, or of the values of
its members, holds of every value. -/
@[elab_as_elim] theorem induction {P : Json → Prop} (null : P null) (bool : ∀ b, P (bool b))
    (num : ∀ t, P (num t)) (str : ∀ s, P (str s)) (arr : ∀ xs, (∀ x ∈ xs, P x) → P (arr xs))
    (obj : ∀ fields, (∀ f ∈ fields, P f.2) → P (obj fields)) : ∀ x, P x
  | .null => null
  | .bool b => bool b
  | .num t => num t
  | .str s => str s
  | .arr xs => arr xs fun x hx =>
    have := List.sizeOf_lt_of_mem hx
    induction null bool num str arr obj x
  | .obj fields => obj fields fun f hf =>
    have := List.sizeOf_lt_of_mem hf
    have : sizeOf f = 1 + sizeOf f.1 + sizeOf f.2 := rfl
    induction null bool num str arr obj f.2
termination_by x => sizeOf x

/-! ## Writing -/

def hexDigits : List Char :=
  ['0', '1', '2', '3', '4', '5', '6', '7', '8', '9', 'a', 'b', 'c', 'd', 'e', 'f']

def hexDigit (n : Nat) : Char := hexDigits.getD n '0'

/-- A character of the first plane written as four hexadecimal digits. -/
def unicodeEscape (c : Char) : List Char :=
  ['\\', 'u', hexDigit (c.toNat / 4096 % 16), hexDigit (c.toNat / 256 % 16),
    hexDigit (c.toNat / 16 % 16), hexDigit (c.toNat % 16)]

/-- The escapes that are a single letter. -/
def letterEscapes : List (Char × Char) :=
  [('"', '"'), ('\\', '\\'), ('\u0008', 'b'), ('\u000c', 'f'), ('\n', 'n'), ('\r', 'r'),
    ('\t', 't')]

/-- A character the encoder writes as four digits. -/
def needsUnicode (c : Char) : Bool :=
  c.toNat < 32 || c = '<' || c = '>' || c = '&' || c = '\u2028' || c = '\u2029'

/-- A character inside a string. -/
def escapeChar (c : Char) : List Char :=
  match letterEscapes.lookup c with
  | some letter => ['\\', letter]
  | none => if needsUnicode c then unicodeEscape c else [c]

/-- A string with its quotes. -/
def quoteChars (s : List Char) : List Char := '"' :: (s.flatMap escapeChar ++ ['"'])

mutual

/-- The compact text of a value. -/
def render : Json → List Char
  | null => ['n', 'u', 'l', 'l']
  | bool true => ['t', 'r', 'u', 'e']
  | bool false => ['f', 'a', 'l', 's', 'e']
  | num text => text
  | str s => quoteChars s
  | arr [] => ['[', ']']
  | arr (x :: xs) => '[' :: (render x ++ renderElements xs)
  | obj [] => ['\x7b', '\x7d']
  | obj ((key, x) :: fields) =>
    '\x7b' :: (quoteChars key ++ ':' :: (render x ++ renderFields fields))

/-- The elements after the first, and the bracket. -/
def renderElements : List Json → List Char
  | [] => [']']
  | x :: xs => ',' :: (render x ++ renderElements xs)

/-- The members after the first, and the brace. -/
def renderFields : List (List Char × Json) → List Char
  | [] => ['\x7d']
  | (key, x) :: fields =>
    ',' :: (quoteChars key ++ ':' :: (render x ++ renderFields fields))

end

/-! ## Reading -/

def isSpace (c : Char) : Bool := c = ' ' || c = '\t' || c = '\n' || c = '\r'

def skip (cs : List Char) : List Char := cs.dropWhile isSpace

def hexValue (c : Char) : Option Nat :=
  let d := c.toNat
  if 48 ≤ d && d ≤ 57 then some (d - 48)
  else if 97 ≤ d && d ≤ 102 then some (d - 87)
  else if 65 ≤ d && d ≤ 70 then some (d - 55)
  else none

def hexQuad (a b c d : Char) : Option Nat := do
  let a ← hexValue a
  let b ← hexValue b
  let c ← hexValue c
  let d ← hexValue d
  return a * 4096 + b * 256 + c * 16 + d

def isHigh (n : Nat) : Bool := 0xD800 ≤ n && n < 0xDC00
def isLow (n : Nat) : Bool := 0xDC00 ≤ n && n < 0xE000

def replacement : Char := '\ufffd'

/-- The character of a code that is no half of a pair. -/
def charOf (n : Nat) : Char := if isHigh n || isLow n then replacement else Char.ofNat n

/-- What a one-letter escape stands for. -/
def unescape (c : Char) : Option Char :=
  if c = '"' then some '"'
  else if c = '\\' then some '\\'
  else if c = '/' then some '/'
  else if c = 'b' then some '\u0008'
  else if c = 'f' then some '\u000c'
  else if c = 'n' then some '\n'
  else if c = 'r' then some '\r'
  else if c = 't' then some '\t'
  else none

/-- A result changed, the rest of the text kept. -/
def mapFst {α β : Type} (f : α → β) (x : Option (α × List Char)) : Option (β × List Char) :=
  x.map fun p => (f p.1, p.2)

/-- What stands in a string: a character, or a code written in digits. -/
inductive Piece where
  | char (c : Char)
  | code (n : Nat)
  deriving DecidableEq

/-- The pieces of a string up to its closing quote, and what follows it. -/
def pieces : List Char → Option (List Piece × List Char)
  | [] => none
  | c :: rest =>
    if c = '"' then some ([], rest)
    else if c = '\\' then
      match rest with
      | [] => none
      | e :: rest =>
        if e = 'u' then
          match rest with
          | h₁ :: h₂ :: h₃ :: h₄ :: rest =>
            match hexQuad h₁ h₂ h₃ h₄ with
            | none => none
            | some n => mapFst (.code n :: ·) (pieces rest)
          | _ => none
        else
          match unescape e with
          | none => none
          | some c' => mapFst (.char c' :: ·) (pieces rest)
    else if c.toNat < 32 then none
    else mapFst (.char c :: ·) (pieces rest)

/-- The characters of the pieces: two codes that are the halves of a pair are
one character. -/
def join : List Piece → List Char
  | [] => []
  | .char c :: rest => c :: join rest
  | .code n :: .code m :: rest =>
    if isHigh n && isLow m then
      Char.ofNat (0x10000 + (n - 0xD800) * 1024 + (m - 0xDC00)) :: join rest
    else charOf n :: join (.code m :: rest)
  | .code n :: rest => charOf n :: join rest

/-- The rest of a string after its opening quote. -/
def stringBody (cs : List Char) : Option (List Char × List Char) :=
  mapFst join (pieces cs)

def isDigit (c : Char) : Bool := '0' ≤ c && c ≤ '9'

/-- A character that can stand in a number. -/
def isNumberChar (c : Char) : Bool :=
  isDigit c || c = '-' || c = '+' || c = '.' || c = 'e' || c = 'E'

/-- A run of at least one digit, and what follows it. -/
def someDigits (cs : List Char) : Option (List Char) :=
  if (cs.takeWhile isDigit).isEmpty then none else some (cs.dropWhile isDigit)

/-- The rest is an exponent or nothing. -/
def exponentEnds : List Char → Bool
  | [] => true
  | c :: rest =>
    (c = 'e' || c = 'E') &&
      (match rest with
        | '+' :: ds => someDigits ds = some []
        | '-' :: ds => someDigits ds = some []
        | ds => someDigits ds = some [])

/-- The rest is a fraction and an exponent, or less. -/
def fractionEnds : List Char → Bool
  | '.' :: rest =>
    match someDigits rest with
    | some rest' => exponentEnds rest'
    | none => false
  | cs => exponentEnds cs

/-- The text is a number without its sign. -/
def unsignedNumber : List Char → Bool
  | '0' :: rest => fractionEnds rest
  | cs =>
    match someDigits cs with
    | some rest => fractionEnds rest
    | none => false

/-- The text is a number. -/
def validNumber : List Char → Bool
  | '-' :: cs => unsignedNumber cs
  | cs => unsignedNumber cs

/-- A number at the head of the text. -/
def number (cs : List Char) : Option (Json × List Char) :=
  let text := cs.takeWhile isNumberChar
  if validNumber text then some (.num text, cs.dropWhile isNumberChar) else none

/-- A key and its colon. -/
def key (cs : List Char) : Option (List Char × List Char) :=
  match skip cs with
  | [] => none
  | c :: rest =>
    if c = '"' then
      (stringBody rest).bind fun p =>
        if (skip p.2).head? = some ':' then some (p.1, (skip p.2).tail) else none
    else none

/-- A value written as a word, after the word's first letter. -/
def literal (x : Json) (w cs : List Char) : Option (Json × List Char) :=
  if w.isPrefixOf cs then some (x, cs.drop w.length) else none

/-- One of the three words, or a number. -/
def word (c : Char) (rest : List Char) : Option (Json × List Char) :=
  if c = 't' then literal (bool true) ['r', 'u', 'e'] rest
  else if c = 'f' then literal (bool false) ['a', 'l', 's', 'e'] rest
  else if c = 'n' then literal null ['u', 'l', 'l'] rest
  else number (c :: rest)

mutual

/-- A value at the head of the text, and what follows it. -/
def value : Nat → List Char → Option (Json × List Char)
  | 0, _ => none
  | n + 1, cs =>
    match skip cs with
    | [] => none
    | c :: rest =>
      if c = '"' then mapFst str (stringBody rest)
      else if c = '[' then
        if (skip rest).head? = some ']' then some (.arr [], (skip rest).tail)
        else mapFst arr (elements n rest)
      else if c = '\x7b' then
        if (skip rest).head? = some '\x7d' then some (.obj [], (skip rest).tail)
        else mapFst obj (members n rest)
      else word c rest

/-- The elements of an array up to its bracket. -/
def elements : Nat → List Char → Option (List Json × List Char)
  | 0, _ => none
  | n + 1, cs =>
    (value n cs).bind fun v =>
      match skip v.2 with
      | [] => none
      | c :: rest =>
        if c = ',' then mapFst (v.1 :: ·) (elements n rest)
        else if c = ']' then some ([v.1], rest)
        else none

/-- The members of an object up to its brace. -/
def members : Nat → List Char → Option (List (List Char × Json) × List Char)
  | 0, _ => none
  | n + 1, cs =>
    (key cs).bind fun k =>
      (value n k.2).bind fun v =>
        match skip v.2 with
        | [] => none
        | c :: rest =>
          if c = ',' then mapFst ((k.1, v.1) :: ·) (members n rest)
          else if c = '\x7d' then some ([(k.1, v.1)], rest)
          else none

end

/-- The value a text is, if it is one. -/
def parse (cs : List Char) : Option Json :=
  match value (2 * cs.length + 2) cs with
  | some (x, rest) => if (skip rest).isEmpty then some x else none
  | none => none

/-! ## More fuel reads the same -/

/-- A changed result is kept where the results are. -/
theorem mapFst_kept {α β : Type} {f : α → β} {x y : Option (α × List Char)}
    {b : β × List Char} (h : ∀ a, x = some a → y = some a) (hx : mapFst f x = some b) :
    mapFst f y = some b := by
  obtain ⟨a, ha, rfl⟩ := Option.map_eq_some_iff.mp hx
  rw [h a ha]
  rfl

theorem value_succ_of (n : Nat) :
    (∀ cs r, value n cs = some r → value (n + 1) cs = some r) ∧
      (∀ cs r, elements n cs = some r → elements (n + 1) cs = some r) ∧
      ∀ cs r, members n cs = some r → members (n + 1) cs = some r := by
  induction n with
  | zero =>
    refine ⟨?_, ?_, ?_⟩
    · intro cs r h
      cases h
    · intro cs r h
      cases h
    · intro cs r h
      cases h
  | succ n ih =>
    obtain ⟨ihv, ihe, ihm⟩ := ih
    refine ⟨?_, ?_, ?_⟩
    · intro cs r h
      rw [value] at h ⊢
      cases hs : skip cs with
      | nil =>
        rw [hs] at h
        cases h
      | cons c rest =>
        rw [hs] at h
        simp only at h ⊢
        split_ifs at h ⊢
        · exact h
        · exact h
        · exact mapFst_kept (ihe _) h
        · exact h
        · exact mapFst_kept (ihm _) h
        · exact h
    · intro cs r h
      rw [elements] at h ⊢
      obtain ⟨v, hv, h⟩ := Option.bind_eq_some_iff.mp h
      rw [ihv _ _ hv, Option.bind_some]
      cases hs : skip v.2 with
      | nil =>
        rw [hs] at h
        cases h
      | cons c rest =>
        rw [hs] at h
        simp only at h ⊢
        split_ifs at h ⊢
        · exact mapFst_kept (ihe _) h
        · exact h
    · intro cs r h
      rw [members] at h ⊢
      obtain ⟨k, hk, h⟩ := Option.bind_eq_some_iff.mp h
      obtain ⟨v, hv, h⟩ := Option.bind_eq_some_iff.mp h
      rw [hk, Option.bind_some, ihv _ _ hv, Option.bind_some]
      cases hs : skip v.2 with
      | nil =>
        rw [hs] at h
        cases h
      | cons c rest =>
        rw [hs] at h
        simp only at h ⊢
        split_ifs at h ⊢
        · exact mapFst_kept (ihm _) h
        · exact h

/-- More fuel reads the same value. -/
theorem value_mono {n m : Nat} (h : n ≤ m) {cs : List Char} {r : Json × List Char}
    (hv : value n cs = some r) : value m cs = some r := by
  induction h with
  | refl => exact hv
  | step _ ih => exact (value_succ_of _).1 cs r ih

/-! ## The pieces of a string -/

theorem pieces_quote (rest : List Char) : pieces ('"' :: rest) = some ([], rest) := by
  rw [pieces.eq_def]
  rfl

theorem pieces_unicode {h₁ h₂ h₃ h₄ : Char} {n : Nat} (h : hexQuad h₁ h₂ h₃ h₄ = some n)
    (rest : List Char) :
    pieces ('\\' :: 'u' :: h₁ :: h₂ :: h₃ :: h₄ :: rest) =
      mapFst (.code n :: ·) (pieces rest) := by
  rw [pieces.eq_def]
  simp [h]

theorem pieces_letter {e c : Char} (h : unescape e = some c) (rest : List Char) :
    pieces ('\\' :: e :: rest) = mapFst (.char c :: ·) (pieces rest) := by
  have hu : e ≠ 'u' := by
    rintro rfl
    have hnone : unescape 'u' = none := by decide
    rw [hnone] at h
    cases h
  rw [pieces.eq_def]
  simp [h, hu]

theorem pieces_plain {c : Char} (hq : c ≠ '"') (hb : c ≠ '\\') (hc : ¬c.toNat < 32)
    (rest : List Char) :
    pieces (c :: rest) = mapFst (.char c :: ·) (pieces rest) := by
  rw [pieces.eq_def]
  simp [hq, hb, hc]

/-- A value whose end does not depend on what follows. -/
def closed : Json → Bool
  | num _ => false
  | _ => true

end Json

end Caspian.Verified
