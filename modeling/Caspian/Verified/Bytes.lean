import Mathlib

/-!
# Numbers in byte strings

Reading a byte or a big-endian number of two bytes at an offset, and writing
one.  A number that was written is read back at the offset where it stands,
whatever stands around it.
-/

namespace Caspian.Verified.Bytes

/-- The byte at an offset, as a number. -/
def byteAt (b : List UInt8) (p : Nat) : Nat := (b.getD p 0).toNat

/-- `binary.BigEndian.Uint16` at an offset. -/
def u16At (b : List UInt8) (p : Nat) : Nat := byteAt b p * 256 + byteAt b (p + 1)

/-- `binary.BigEndian.PutUint16`, of the low sixteen bits. -/
def be16 (n : Nat) : List UInt8 := [UInt8.ofNat (n / 256), UInt8.ofNat n]

@[simp] theorem length_be16 (n : Nat) : (be16 n).length = 2 := rfl

theorem byteAt_append (pre : List UInt8) (x : UInt8) (post : List UInt8) :
    byteAt (pre ++ x :: post) pre.length = x.toNat := by
  simp [byteAt]

/-- A number that was written is read back. -/
theorem u16At_append {n : Nat} (h : n < 65536) (pre post : List UInt8) :
    u16At (pre ++ (be16 n ++ post)) pre.length = n := by
  have hhigh : byteAt (pre ++ (be16 n ++ post)) pre.length = n / 256 := by
    rw [be16, List.cons_append, byteAt_append, UInt8.toNat_ofNat']
    omega
  have hlow : byteAt (pre ++ (be16 n ++ post)) (pre.length + 1) = n % 256 := by
    have hsplit : pre ++ (be16 n ++ post) =
        (pre ++ [UInt8.ofNat (n / 256)]) ++ UInt8.ofNat n :: post := by
      simp [be16]
    rw [hsplit, show pre.length + 1 = (pre ++ [UInt8.ofNat (n / 256)]).length by simp,
      byteAt_append, UInt8.toNat_ofNat']
  rw [u16At, hhigh, hlow]
  omega

end Caspian.Verified.Bytes
