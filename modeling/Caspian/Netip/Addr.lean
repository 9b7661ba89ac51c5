import Caspian.Verified.Text

/-!
# Addresses and prefixes

The part of Go's `net/netip` the planner computes with.  An address is a
32-bit or a 128-bit value (the latter with a zone) or the invalid zero value;
a prefix is an address with a mask length that fits it, or an address whose
mask length was refused.  The text form is the one `Addr.String` prints:
dotted decimal for four bytes, the longest run of zero groups folded into
`::` for sixteen.
-/

namespace Caspian.Netip

open Verified

/-- `netip.Addr`. -/
inductive Addr where
  | invalid
  | v4 (bits : BitVec 32)
  | v6 (bits : BitVec 128) (zone : String)
  deriving DecidableEq, Repr

namespace Addr

def isValid : Addr → Bool
  | invalid => false
  | _ => true

def is4 : Addr → Bool
  | v4 _ => true
  | _ => false

def is6 : Addr → Bool
  | v6 _ _ => true
  | _ => false

/-- `BitLen`: the width of the address, zero for the invalid one. -/
def bitLen : Addr → Nat
  | invalid => 0
  | v4 _ => 32
  | v6 _ _ => 128

def zone : Addr → String
  | v6 _ z => z
  | _ => ""

def withoutZone : Addr → Addr
  | v6 b _ => v6 b ""
  | a => a

/-- The address as a number. -/
def toNat : Addr → Nat
  | invalid => 0
  | v4 b => b.toNat
  | v6 b _ => b.toNat

/-- `Unmap`: the IPv4 address inside an IPv4-mapped one. -/
def unmap : Addr → Addr
  | v6 b z => if b.toNat / 2 ^ 32 = 0xffff then v4 (b.setWidth 32) else v6 b z
  | a => a

/-- `Next`: the following address, invalid after the last one. -/
def next : Addr → Addr
  | invalid => invalid
  | v4 b => if b = BitVec.allOnes 32 then invalid else v4 (b + 1)
  | v6 b z => if b = BitVec.allOnes 128 then invalid else v6 (b + 1) z

def isLoopback : Addr → Bool
  | invalid => false
  | v4 b => b.toNat / 2 ^ 24 = 127
  | v6 b _ =>
    if b.toNat / 2 ^ 32 = 0xffff then b.toNat % 2 ^ 32 / 2 ^ 24 = 127
    else b.toNat = 1

/-- `169.254.0.0/16` and `fe80::/10`. -/
def isLinkLocalUnicast : Addr → Bool
  | invalid => false
  | v4 b => b.toNat / 2 ^ 16 = 0xa9fe
  | v6 b _ =>
    if b.toNat / 2 ^ 32 = 0xffff then b.toNat % 2 ^ 32 / 2 ^ 16 = 0xa9fe
    else b.toNat / 2 ^ 118 = 0x3fa

/-- `10.0.0.0/8`, `172.16.0.0/12`, `192.168.0.0/16` and `fc00::/7`. -/
def isPrivate : Addr → Bool
  | invalid => false
  | v4 b => private4 b.toNat
  | v6 b _ =>
    if b.toNat / 2 ^ 32 = 0xffff then private4 (b.toNat % 2 ^ 32)
    else b.toNat / 2 ^ 121 = 0x7e
where
  private4 (n : Nat) : Bool :=
    n / 2 ^ 24 = 10 || n / 2 ^ 20 = 0xac1 || n / 2 ^ 16 = 0xc0a8

/-- Keep the first `n` bits of the address, as `Addr.Prefix` does. -/
def mask (n : Nat) : Addr → Addr
  | invalid => invalid
  | v4 b => v4 (b >>> (32 - n) <<< (32 - n))
  | v6 b _ => v6 (b >>> (128 - n) <<< (128 - n)) ""

/-- The first `n` bits of two addresses of one width agree. -/
def sameBits (n : Nat) (a b : Addr) : Bool :=
  a.toNat / 2 ^ (a.bitLen - n) = b.toNat / 2 ^ (b.bitLen - n)

@[simp] theorem zone_withoutZone (a : Addr) : a.withoutZone.zone = "" := by
  cases a <;> rfl

@[simp] theorem isValid_withoutZone (a : Addr) :
    a.withoutZone.isValid = a.isValid := by
  cases a <;> rfl

theorem withoutZone_eq {a : Addr} (h : a.zone = "") : a.withoutZone = a := by
  cases a with
  | invalid | v4 b => rfl
  | v6 b z => rw [show z = "" from h]; rfl

@[simp] theorem bitLen_withoutZone (a : Addr) :
    a.withoutZone.bitLen = a.bitLen := by
  cases a <;> rfl

@[simp] theorem isValid_unmap (a : Addr) : a.unmap.isValid = a.isValid := by
  cases a with
  | invalid | v4 b => rfl
  | v6 b z =>
    simp only [unmap]
    split <;> rfl

end Addr

/-! ## Text of an address -/

/-- Decimal text of a number. -/
def itoa (n : Nat) : String := String.ofList (Nat.toDigits 10 n)

/-- Decimal text of an integer. -/
def itoaInt (n : Int) : String :=
  if n < 0 then "-" ++ itoa n.natAbs else itoa n.natAbs

/-- Lower-case hexadecimal text of a number. -/
def hexText (n : Nat) : String := String.ofList (Nat.toDigits 16 n)

/-- The four octets of an IPv4 value, most significant first. -/
def octets (n : Nat) : List Nat :=
  [n / 2 ^ 24 % 256, n / 2 ^ 16 % 256, n / 2 ^ 8 % 256, n % 256]

/-- Dotted decimal. -/
def dotted (n : Nat) : String :=
  String.intercalate "." ((octets n).map itoa)

/-- The eight 16-bit groups of an IPv6 value. -/
def groups (n : Nat) : List Nat :=
  (List.range 8).map fun i => n / 2 ^ (16 * (7 - i)) % 65536

/-- Length of the run of zero groups that starts the list. -/
def zeroLen (gs : List Nat) : Nat := (gs.takeWhile (· = 0)).length

/-- The longest run of at least two zero groups, the leftmost of equals: its
start and its length. -/
def zeroRun (gs : List Nat) : Option (Nat × Nat) :=
  (List.range gs.length).foldl
    (fun best i =>
      let l := zeroLen (gs.drop i)
      let longest := (best.map Prod.snd).getD 0
      if 2 ≤ l ∧ longest < l then some (i, l) else best)
    none

/-- Groups joined by colons. -/
def colons (gs : List Nat) : String :=
  String.intercalate ":" (gs.map hexText)

/-- Text of the sixteen-byte form without its zone. -/
def v6Text (n : Nat) : String :=
  if n / 2 ^ 32 = 0xffff then "::ffff:" ++ dotted (n % 2 ^ 32)
  else
    match zeroRun (groups n) with
    | none => colons (groups n)
    | some (i, l) =>
      colons ((groups n).take i) ++ "::" ++ colons ((groups n).drop (i + l))

/-- `Addr.String`. -/
def Addr.text : Addr → String
  | .invalid => "invalid IP"
  | .v4 b => dotted b.toNat
  | .v6 b z => v6Text b.toNat ++ (if z = "" then "" else "%" ++ z)

/-! ## Prefixes -/

/-- `netip.Prefix`: an address without zone and, when the mask length was
accepted, that length. -/
structure Prefix where
  addr : Addr
  bits : Option Nat
  wf : ∀ n ∈ bits, addr.isValid = true ∧ addr.zone = "" ∧ n ≤ addr.bitLen
  deriving DecidableEq

namespace Prefix

/-- The zero `Prefix`. -/
def zero : Prefix := ⟨.invalid, none, by simp⟩

instance : Inhabited Prefix := ⟨zero⟩

/-- `netip.PrefixFrom`: a mask length that does not fit is refused, and the
prefix then keeps the address only. -/
def ofAddr (ip : Addr) (n : Int) : Prefix :=
  if h : ip.isValid = true ∧ 0 ≤ n ∧ n ≤ ip.bitLen then
    ⟨ip.withoutZone, some n.toNat, by
      intro m hm
      obtain rfl : n.toNat = m := by simpa using hm
      refine ⟨?_, Addr.zone_withoutZone ip, ?_⟩
      · rw [Addr.isValid_withoutZone]; exact h.1
      · rw [Addr.bitLen_withoutZone]; omega⟩
  else ⟨ip.withoutZone, none, by simp⟩

def isValid (p : Prefix) : Bool := p.bits.isSome

/-- `Bits`: the mask length, `-1` for an invalid prefix. -/
def bitCount (p : Prefix) : Int :=
  match p.bits with
  | some n => n
  | none => -1

/-- `Masked`: the network the prefix belongs to. -/
def masked (p : Prefix) : Prefix :=
  match p.bits with
  | some n => .ofAddr (p.addr.mask n) n
  | none => zero

/-- `Contains`: same family, no zone, and the mask bits agree. -/
def contains (p : Prefix) (ip : Addr) : Bool :=
  match p.bits with
  | some n => ip.zone = "" && p.addr.bitLen = ip.bitLen && p.addr.sameBits n ip
  | none => false

/-- `Overlaps`: one prefix holds the other's network. -/
def overlaps (p q : Prefix) : Bool :=
  match p.bits, q.bits with
  | some n, some m =>
    p.addr.bitLen = q.addr.bitLen && p.addr.sameBits (min n m) q.addr
  | _, _ => false

/-- `Prefix.String`. -/
def text (p : Prefix) : String :=
  match p.bits with
  | some n => p.addr.text ++ "/" ++ itoa n
  | none => "invalid Prefix"

end Prefix

/-! ## Words no address or number is printed as -/

theorem itoa_ne_empty (n : Nat) : itoa n ≠ "" := by
  intro h
  have hl := congrArg String.toList h
  simp [itoa] at hl

theorem mem_itoa {n : Nat} {c : Char} (h : c ∈ (itoa n).toList) :
    c ∈ Text.decimalDigits := by
  have hd : c ∈ Nat.toDigits 10 n := by simpa [itoa] using h
  exact Text.mem_decimalDigits (Nat.isDigit_of_mem_toDigits (by decide) (by decide) hd)

theorem itoaInt_ne_empty (n : Int) : itoaInt n ≠ "" := by
  unfold itoaInt
  split
  · intro h
    have hl := congrArg String.toList h
    simp at hl
  · exact itoa_ne_empty _

/-- A prefix prints no word without a slash. -/
theorem Prefix.text_ne (p : Prefix) {w : String} (hw : '/' ∉ w.toList)
    (hi : w ≠ "invalid Prefix") : p.text ≠ w := by
  unfold Prefix.text
  cases p.bits with
  | none => exact Ne.symm hi
  | some n =>
    intro h
    apply hw
    rw [← h]
    simp

theorem dot_mem_dotted (n : Nat) : '.' ∈ (dotted n).toList := by
  simp [dotted, octets]

theorem colon_mem_v6Text (n : Nat) : ':' ∈ (v6Text n).toList := by
  unfold v6Text
  split
  · simp
  · split
    · simp [colons, groups, List.range, List.range.loop]
    · simp

/-- An address prints no word without a dot or a colon. -/
theorem Addr.text_ne (a : Addr) {w : String} (hd : '.' ∉ w.toList) (hc : ':' ∉ w.toList)
    (hi : w ≠ "invalid IP") : a.text ≠ w := by
  cases a with
  | invalid => exact Ne.symm hi
  | v4 b =>
    intro h
    apply hd
    rw [← h]
    exact dot_mem_dotted _
  | v6 b z =>
    intro h
    apply hc
    rw [← h]
    simp only [Addr.text, String.toList_append, List.mem_append]
    exact Or.inl (colon_mem_v6Text _)
end Caspian.Netip
