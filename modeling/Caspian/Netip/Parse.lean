import Caspian.Netip.Addr

/-!
# Reading addresses

`netip.ParseAddr` and `netip.ParsePrefix`.  Dotted decimal is four octets
without leading zeros; the sixteen-byte form is read group by group, with at
most one `::` and an optional dotted tail.
-/

namespace Caspian.Netip

open Verified

/-! ## Numbers -/

/-- Value of a hexadecimal digit. -/
def hexDigit (c : Char) : Option Nat :=
  if '0' ≤ c ∧ c ≤ '9' then some (c.toNat - '0'.toNat)
  else if 'a' ≤ c ∧ c ≤ 'f' then some (c.toNat - 'a'.toNat + 10)
  else if 'A' ≤ c ∧ c ≤ 'F' then some (c.toNat - 'A'.toNat + 10)
  else none

def isHex (c : Char) : Bool := (hexDigit c).isSome

def isDec (c : Char) : Bool := '0' ≤ c ∧ c ≤ '9'

/-- Value of a list of digits in a base. -/
def readDigits (base : Nat) (cs : List Char) : Nat :=
  cs.foldl (fun acc c => acc * base + (hexDigit c).getD 0) 0

/-! ## Four bytes -/

/-- One octet: digits only, no leading zero, at most 255. -/
def parseOctet (cs : List Char) : Option Nat :=
  if cs ≠ [] ∧ cs.all isDec ∧ (cs.length = 1 ∨ cs.head? ≠ some '0') ∧
      readDigits 10 cs ≤ 255 then some (readDigits 10 cs)
  else none

/-- `parseIPv4Fields`: the value of a dotted quad. -/
def parseIPv4Fields (cs : List Char) : Option Nat :=
  match (Text.splitChars '.' cs).map parseOctet with
  | [some a, some b, some c, some d] => some (((a * 256 + b) * 256 + c) * 256 + d)
  | _ => none

/-! ## Sixteen bytes -/

/-- The loop of `parseIPv6`: `left` groups may still be read, `done` were, and
`ell` is where the `::` stood. -/
def v6Loop : (left : Nat) → (done : List Nat) → (ell : Option Nat) →
    List Char → Option (List Nat × Option Nat)
  | 0, done, ell, s => if s.isEmpty then some (done, ell) else none
  | left + 1, done, ell, s =>
    let digits := s.takeWhile isHex
    let done' := done ++ [readDigits 16 digits]
    if digits.isEmpty ∨ 4 < digits.length then none
    else
      match s.drop digits.length with
      | [] => some (done', ell)
      | '.' :: _ =>
        if (ell = none ∧ done.length ≠ 6) ∨ 6 < done.length then none
        else
          (parseIPv4Fields s).map fun v =>
            (done ++ [v / 65536, v % 65536], ell)
      | ':' :: [] => none
      | ':' :: ':' :: rest =>
        if ell.isSome then none
        else if rest.isEmpty then some (done', some done'.length)
        else v6Loop left done' (some done'.length) rest
      | ':' :: rest => v6Loop left done' ell rest
      | _ => none

/-- Fill the place of `::` with zero groups. -/
def expandGroups : List Nat × Option Nat → Option (List Nat)
  | (done, none) => if done.length = 8 then some done else none
  | (done, some e) =>
    if done.length < 8 then
      some (done.take e ++ List.replicate (8 - done.length) 0 ++ done.drop e)
    else none

/-- The eight groups of a text without zone. -/
def parseGroups : List Char → Option (List Nat)
  | ':' :: ':' :: rest =>
    if rest.isEmpty then some (List.replicate 8 0)
    else (v6Loop 8 [] (some 0) rest).bind expandGroups
  | s => (v6Loop 8 [] none s).bind expandGroups

/-- The number eight groups stand for. -/
def groupsValue (gs : List Nat) : Nat := gs.foldl (fun acc g => acc * 65536 + g) 0

/-- `parseIPv6`. -/
def parseIPv6 (s : List Char) : Option Addr :=
  match Text.cutChars '%' s with
  | some (_, []) => none
  | some (body, zone) =>
    (parseGroups body).map fun gs =>
      .v6 (BitVec.ofNat 128 (groupsValue gs)) (String.ofList zone)
  | none =>
    (parseGroups s).map fun gs => .v6 (BitVec.ofNat 128 (groupsValue gs)) ""

/-- `netip.ParseAddr`: the first of `.`, `:` and `%` decides the family. -/
def parseAddrChars (s : List Char) : Option Addr :=
  match s.find? (· ∈ ['.', ':', '%']) with
  | some '.' => (parseIPv4Fields s).map fun v => .v4 (BitVec.ofNat 32 v)
  | some ':' => parseIPv6 s
  | _ => none

def parseAddr (s : String) : Option Addr := parseAddrChars s.toList

/-! ## Prefixes -/

/-- The mask length after the slash: digits, no sign, no leading zero. -/
def parseBits (cs : List Char) : Option Nat :=
  if cs ≠ [] ∧ cs.all isDec ∧ (cs.length = 1 ∨ cs.head? ≠ some '0') then
    some (readDigits 10 cs)
  else none

/-- Split at the last slash. -/
def cutLast (cs : List Char) : Option (List Char × List Char) :=
  (Text.cutChars '/' cs.reverse).map fun p => (p.2.reverse, p.1.reverse)

/-- `netip.ParsePrefix`. -/
def parsePrefix (s : String) : Option Prefix :=
  match cutLast s.toList with
  | none => none
  | some (ip, bits) =>
    match parseAddrChars ip, parseBits bits with
    | some a, some n =>
      if a.zone = "" ∧ n ≤ a.bitLen then some (Prefix.ofAddr a n) else none
    | _, _ => none

end Caspian.Netip
