import Mathlib

/-!
# Bytes read as text

A program that keeps its texts as bytes loses some of them when they pass
through a format of characters: every byte that does not begin a well-formed
sequence is read as the replacement character.  `lossy` is that reading, and
`scrub` is what comes back as bytes.  The encoding of a text comes back as it
was (`scrub_encode`).
-/

namespace Caspian.Verified.Utf8

/-- The bytes of a text. -/
def encode (cs : List Char) : List UInt8 := cs.flatMap String.utf8EncodeChar

/-- The character that the bytes begin with. -/
def first? (bs : List UInt8) : Option Char := bs.toByteArray.utf8DecodeChar? 0

/-- What stands for a byte that begins no character. -/
def replacement : Char := '�'

/-- Characters read one after the other, at most this many. -/
def read : Nat → List UInt8 → List Char
  | 0, _ => []
  | _ + 1, [] => []
  | n + 1, b :: bs =>
    match first? (b :: bs) with
    | some c => c :: read n ((b :: bs).drop c.utf8Size)
    | none => replacement :: read n bs

/-- The bytes as a text. -/
def lossy (bs : List UInt8) : List Char := read bs.length bs

/-- What is left of the bytes after they were a text. -/
def scrub (bs : List UInt8) : List UInt8 := encode (lossy bs)

/-- The bytes are the encoding of a text. -/
def Valid (bs : List UInt8) : Prop := scrub bs = bs

instance (bs : List UInt8) : Decidable (Valid bs) := inferInstanceAs (Decidable (_ = _))

theorem encode_cons (c : Char) (cs : List Char) :
    encode (c :: cs) = String.utf8EncodeChar c ++ encode cs := List.flatMap_cons

theorem first?_encode_cons (c : Char) (cs : List Char) : first? (encode (c :: cs)) = some c := by
  have h : (encode (c :: cs)).toByteArray = (c :: cs).utf8Encode := rfl
  rw [first?, h]
  exact List.utf8DecodeChar?_utf8Encode_cons

theorem read_encode (cs : List Char) : ∀ n, (encode cs).length ≤ n → read n (encode cs) = cs := by
  induction cs with
  | nil =>
    intro n _
    cases n <;> rfl
  | cons c cs ih =>
    intro n hn
    have hsize : (String.utf8EncodeChar c).length = c.utf8Size := String.length_utf8EncodeChar c
    have hdrop : (encode (c :: cs)).drop c.utf8Size = encode cs := by
      rw [encode_cons, ← hsize, List.drop_left]
    have hlength : (encode (c :: cs)).length = c.utf8Size + (encode cs).length := by
      rw [encode_cons, List.length_append, hsize]
    have hpos : 0 < c.utf8Size := Char.utf8Size_pos c
    cases n with
    | zero => omega
    | succ n =>
      cases hbytes : encode (c :: cs) with
      | nil =>
        rw [hbytes] at hlength
        simp only [List.length_nil] at hlength
        omega
      | cons b bs =>
        rw [read, ← hbytes, first?_encode_cons]
        simp only [hdrop]
        rw [ih n (by omega)]

/-- A text comes back from its encoding. -/
theorem lossy_encode (cs : List Char) : lossy (encode cs) = cs :=
  read_encode cs _ (Nat.le_refl _)

@[simp] theorem scrub_encode (cs : List Char) : scrub (encode cs) = encode cs := by
  rw [scrub, lossy_encode]

theorem valid_encode (cs : List Char) : Valid (encode cs) := scrub_encode cs

theorem valid_nil : Valid [] := rfl

end Caspian.Verified.Utf8
