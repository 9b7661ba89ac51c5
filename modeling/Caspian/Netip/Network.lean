import Caspian.Netip.Addr
import Caspian.Verified.Block

/-!
# A prefix as a set of addresses

A prefix holds the addresses of its family that agree with it in the mask bits,
which as numbers are an aligned block.  Two prefixes overlap exactly when they
share an address, and masking a prefix changes the address it is written with
but none it holds.
-/

namespace Caspian.Netip

open Verified

namespace Addr

variable {a b : Addr} {n : Nat}

theorem toNat_lt (a : Addr) : a.toNat < 2 ^ a.bitLen := by
  cases a with
  | invalid => exact Nat.one_pos
  | v4 b | v6 b z => exact b.isLt

/-- An address is its family, its number and its zone. -/
theorem ext_toNat (hlen : a.bitLen = b.bitLen) (hzone : a.zone = b.zone)
    (hnat : a.toNat = b.toNat) : a = b := by
  cases a with
  | invalid =>
    cases b with
    | invalid => rfl
    | v4 _ | v6 _ _ => cases hlen
  | v4 x =>
    cases b with
    | invalid | v6 _ _ => cases hlen
    | v4 y => rw [BitVec.eq_of_toNat_eq hnat]
  | v6 x z =>
    cases b with
    | invalid | v4 _ => cases hlen
    | v6 y w =>
      obtain rfl : z = w := hzone
      rw [BitVec.eq_of_toNat_eq hnat]

theorem isValid_of_bitLen (h : a.bitLen ≠ 0) : a.isValid = true := by
  cases a with
  | invalid => exact absurd rfl h
  | v4 _ | v6 _ _ => rfl

/-- Addresses of one length are of one family. -/
theorem family_of_bitLen (h : a.bitLen = b.bitLen) :
    a.isValid = b.isValid ∧ a.is4 = b.is4 ∧ a.is6 = b.is6 := by
  cases a with
  | invalid =>
    cases b with
    | invalid => exact ⟨rfl, rfl, rfl⟩
    | v4 _ | v6 _ _ => cases h
  | v4 x =>
    cases b with
    | invalid | v6 _ _ => cases h
    | v4 _ => exact ⟨rfl, rfl, rfl⟩
  | v6 x z =>
    cases b with
    | invalid | v4 _ => cases h
    | v6 _ _ => exact ⟨rfl, rfl, rfl⟩

@[simp] theorem bitLen_mask (n : Nat) (a : Addr) : (a.mask n).bitLen = a.bitLen := by
  cases a <;> rfl

@[simp] theorem zone_mask (n : Nat) (a : Addr) : (a.mask n).zone = "" := by
  cases a <;> rfl

@[simp] theorem isValid_mask (n : Nat) (a : Addr) : (a.mask n).isValid = a.isValid := by
  cases a <;> rfl

@[simp] theorem is4_mask (n : Nat) (a : Addr) : (a.mask n).is4 = a.is4 := by
  cases a <;> rfl

private theorem toNat_clearLow {w : Nat} (b : BitVec w) (s : Nat) :
    (b >>> s <<< s).toNat = Block.start s b.toNat := by
  have hle := Block.start_le s b.toNat
  rw [BitVec.toNat_shiftLeft, BitVec.toNat_ushiftRight, Nat.shiftLeft_eq,
    Nat.shiftRight_eq_div_pow]
  exact Nat.mod_eq_of_lt (lt_of_le_of_lt hle b.isLt)

/-- Masking goes to the first address of the block. -/
theorem toNat_mask (n : Nat) (a : Addr) :
    (a.mask n).toNat = Block.start (a.bitLen - n) a.toNat := by
  cases a with
  | invalid => simp [mask, toNat, Block.start]
  | v4 b => exact toNat_clearLow b (32 - n)
  | v6 b z => exact toNat_clearLow b (128 - n)

private theorem toNat_succ {w : Nat} {b : BitVec w} (h : b ≠ BitVec.allOnes w) :
    (b + 1#w).toNat = b.toNat + 1 := by
  have hne : b.toNat ≠ 2 ^ w - 1 := by
    intro heq
    refine h (BitVec.eq_of_toNat_eq ?_)
    rw [BitVec.toNat_allOnes]
    exact heq
  have hlt := b.isLt
  rw [BitVec.toNat_add, BitVec.toNat_ofNat, Nat.add_mod_mod]
  exact Nat.mod_eq_of_lt (by omega)

/-- There is a next address unless this one is the last of its family. -/
theorem next_ok (h : a.toNat + 1 < 2 ^ a.bitLen) :
    a.next.toNat = a.toNat + 1 ∧ a.next.bitLen = a.bitLen ∧ a.next.zone = a.zone := by
  cases a with
  | invalid => simp [toNat, bitLen] at h
  | v4 b =>
    have hne : b ≠ BitVec.allOnes 32 := by
      rintro rfl
      simp [toNat, bitLen] at h
    rw [next, if_neg hne]
    exact ⟨toNat_succ hne, rfl, rfl⟩
  | v6 b z =>
    have hne : b ≠ BitVec.allOnes 128 := by
      rintro rfl
      simp [toNat, bitLen] at h
    rw [next, if_neg hne]
    exact ⟨toNat_succ hne, rfl, rfl⟩

theorem next_last (h : ¬a.toNat + 1 < 2 ^ a.bitLen) : a.next = invalid := by
  have hlt := a.toNat_lt
  cases a with
  | invalid => rfl
  | v4 b | v6 b z =>
    rw [next, if_pos]
    refine BitVec.eq_of_toNat_eq ?_
    rw [BitVec.toNat_allOnes]
    simp only [toNat, bitLen] at h hlt
    omega

end Addr

namespace Prefix

variable {p q : Prefix} {a : Addr}

/-- The bits of an address the mask leaves free. -/
def hostBits (p : Prefix) : Nat := p.addr.bitLen - p.bits.getD 0

theorem contains_iff :
    p.contains a = true ↔ p.isValid = true ∧ a.zone = "" ∧ p.addr.bitLen = a.bitLen ∧
      Block.Same p.hostBits p.addr.toNat a.toNat := by
  unfold contains isValid hostBits
  cases hbits : p.bits with
  | none => simp
  | some n =>
    simp only [Bool.and_eq_true, decide_eq_true_eq, Option.isSome_some, true_and,
      Option.getD_some, and_assoc, Addr.sameBits, Block.Same]
    refine and_congr_right fun _ => and_congr_right fun hlen => ?_
    rw [hlen]

/-- A network's addresses are of its family. -/
theorem contains_family (h : p.contains a = true) :
    a.isValid = true ∧ a.is4 = p.addr.is4 ∧ a.is6 = p.addr.is6 := by
  obtain ⟨hvalid, -, hlen, -⟩ := contains_iff.mp h
  obtain ⟨n, hn⟩ := Option.isSome_iff_exists.mp hvalid
  obtain ⟨hfam, h4, h6⟩ := Addr.family_of_bitLen hlen.symm
  exact ⟨hfam.trans (p.wf n hn).1, h4, h6⟩

/-- An address as a network of its own. -/
theorem host_ok (hv : a.isValid = true) (hz : a.zone = "") :
    (ofAddr a a.bitLen).addr = a ∧ (ofAddr a a.bitLen).bits = some a.bitLen := by
  rw [ofAddr, dif_pos ⟨hv, by omega, by omega⟩]
  exact ⟨Addr.withoutZone_eq hz, congrArg some (Int.toNat_natCast _)⟩

theorem contains_host {b : Addr} (hv : a.isValid = true) (hz : a.zone = "") :
    (ofAddr a a.bitLen).contains b = true ↔ b = a := by
  obtain ⟨haddr, hbits⟩ := host_ok hv hz
  have hhost : (ofAddr a a.bitLen).hostBits = 0 := by
    rw [hostBits, haddr, hbits]
    exact Nat.sub_self _
  rw [contains_iff, hhost, haddr]
  constructor
  · rintro ⟨-, hzone, hlen, hsame⟩
    refine Addr.ext_toNat hlen.symm (hzone.trans hz.symm) ?_
    simpa [Block.Same] using hsame.symm
  · rintro rfl
    exact ⟨by rw [isValid, hbits]; rfl, hz, rfl, rfl⟩

theorem contains_addr (h : p.isValid = true) : p.contains p.addr = true := by
  obtain ⟨n, hn⟩ := Option.isSome_iff_exists.mp h
  exact contains_iff.mpr ⟨h, (p.wf n hn).2.1, rfl, rfl⟩

/-- Overlapping is sharing an address. -/
theorem overlaps_iff : p.overlaps q = true ↔ ∃ a, p.contains a = true ∧ q.contains a = true := by
  unfold overlaps
  cases hp : p.bits with
  | none => simp [contains, hp]
  | some n =>
    cases hq : q.bits with
    | none => simp [contains, hq]
    | some m =>
      have hpv : p.isValid = true := by simp [isValid, hp]
      have hqv : q.isValid = true := by simp [isValid, hq]
      have hkp : p.hostBits = p.addr.bitLen - n := by simp [hostBits, hp]
      have hkq : q.hostBits = q.addr.bitLen - m := by simp [hostBits, hq]
      simp only [Bool.and_eq_true, decide_eq_true_eq, Addr.sameBits]
      constructor
      · rintro ⟨hlen, hsame⟩
        have hmax : p.addr.bitLen - min n m = max p.hostBits q.hostBits := by omega
        have hsame' : Block.Same (max p.hostBits q.hostBits) p.addr.toNat q.addr.toNat := by
          rw [← hmax]
          exact hsame.trans (by rw [hlen])
        obtain ⟨-, hin⟩ | ⟨hin, -⟩ := Block.meet_of_same hsame'
        · exact ⟨p.addr, contains_addr hpv,
            contains_iff.mpr ⟨hqv, (p.wf n hp).2.1, hlen.symm, hin⟩⟩
        · exact ⟨q.addr, contains_iff.mpr ⟨hpv, (q.wf m hq).2.1, hlen, hin⟩,
            contains_addr hqv⟩
      · rintro ⟨a, hpa, hqa⟩
        obtain ⟨-, -, hplen, hpin⟩ := contains_iff.mp hpa
        obtain ⟨-, -, hqlen, hqin⟩ := contains_iff.mp hqa
        have hlen : p.addr.bitLen = q.addr.bitLen := hplen.trans hqlen.symm
        have hmax : max p.hostBits q.hostBits = p.addr.bitLen - min n m := by omega
        have hsame := Block.same_of_meet hpin hqin
        rw [hmax, Block.Same] at hsame
        exact ⟨hlen, hsame.trans (by rw [hlen])⟩

theorem masked_ok {n : Nat} (h : p.bits = some n) :
    p.masked.addr = p.addr.mask n ∧ p.masked.bits = some n := by
  obtain ⟨hvalid, -, hle⟩ := p.wf n h
  unfold masked
  rw [h]
  have hfits : (p.addr.mask n).isValid = true ∧ (0 : Int) ≤ n ∧
      (n : Int) ≤ (p.addr.mask n).bitLen := by
    refine ⟨by simp [hvalid], by omega, ?_⟩
    rw [Addr.bitLen_mask]
    omega
  simp only [ofAddr, dif_pos hfits, Int.toNat_natCast, and_true]
  cases p.addr <;> rfl

@[simp] theorem isValid_masked (p : Prefix) : p.masked.isValid = p.isValid := by
  cases hp : p.bits with
  | none => simp [masked, hp, isValid, zero]
  | some n => simp [isValid, (masked_ok hp).2, hp]

@[simp] theorem hostBits_masked (hp : p.isValid = true) : p.masked.hostBits = p.hostBits := by
  obtain ⟨n, hn⟩ := Option.isSome_iff_exists.mp hp
  simp [hostBits, masked_ok hn, hn]

theorem is4_masked (hp : p.isValid = true) : p.masked.addr.is4 = p.addr.is4 := by
  obtain ⟨n, hn⟩ := Option.isSome_iff_exists.mp hp
  simp [masked_ok hn]

/-- The first address of the network. -/
theorem toNat_masked (hp : p.isValid = true) :
    p.masked.addr.toNat = Block.start p.hostBits p.addr.toNat := by
  obtain ⟨n, hn⟩ := Option.isSome_iff_exists.mp hp
  rw [(masked_ok hn).1, Addr.toNat_mask, hostBits, hn, Option.getD_some]

/-- Masking keeps the addresses. -/
@[simp] theorem contains_masked (p : Prefix) (a : Addr) :
    p.masked.contains a = p.contains a := by
  cases hp : p.bits with
  | none => simp [masked, hp, contains, zero]
  | some n =>
    have hvalid : p.isValid = true := by simp [isValid, hp]
    rw [Bool.eq_iff_iff, contains_iff, contains_iff, isValid_masked, hostBits_masked hvalid,
      toNat_masked hvalid, (masked_ok hp).1, Addr.bitLen_mask]
    have hstart := Block.start_same p.hostBits p.addr.toNat
    refine and_congr_right fun _ => and_congr_right fun _ => and_congr_right fun _ => ?_
    exact ⟨hstart.trans, hstart.symm.trans⟩

/-! ## Counting through a network -/

/-- The address `i` places after the first of the network. -/
structure Nth (p : Prefix) (i : Nat) (a : Addr) : Prop where
  family : a.bitLen = p.addr.bitLen
  zone : a.zone = ""
  number : a.toNat = Block.start p.hostBits p.addr.toNat + i

theorem hostBits_le (p : Prefix) : p.hostBits ≤ p.addr.bitLen := Nat.sub_le _ _

theorem Nth.contains_iff {i : Nat} (h : Nth p i a) (hp : p.isValid = true) :
    p.contains a = true ↔ i < 2 ^ p.hostBits := by
  rw [Prefix.contains_iff, Block.same_iff, h.number]
  refine ⟨fun hin => by omega, fun hi => ⟨hp, h.zone, h.family.symm, by omega⟩⟩

theorem nth_masked (hp : p.isValid = true) : Nth p 0 p.masked.addr := by
  obtain ⟨n, hn⟩ := Option.isSome_iff_exists.mp hp
  refine ⟨?_, ?_, by simpa using toNat_masked hp⟩
  · rw [(masked_ok hn).1, Addr.bitLen_mask]
  · rw [(masked_ok hn).1, Addr.zone_mask]

/-- Counting on stays in the network until its block ends. -/
theorem Nth.next {i : Nat} (h : Nth p i a) (hp : p.isValid = true) :
    (a.next.isValid = true ∧ p.contains a.next = true ↔ i + 1 < 2 ^ p.hostBits) ∧
      (i + 1 < 2 ^ p.hostBits → Nth p (i + 1) a.next) := by
  have hend := Block.start_add_le p.hostBits_le p.addr.toNat_lt
  have hnum := h.number
  have hfam := h.family
  by_cases hlast : a.toNat + 1 < 2 ^ a.bitLen
  · obtain ⟨hnat, hlen, hzone⟩ := Addr.next_ok hlast
    have hnext : Nth p (i + 1) a.next :=
      ⟨hlen.trans h.family, hzone.trans h.zone, by rw [hnat, hnum, Nat.add_assoc]⟩
    refine ⟨?_, fun _ => hnext⟩
    rw [hnext.contains_iff hp]
    refine and_iff_right (Addr.isValid_of_bitLen ?_)
    rw [hlen]
    intro hzero
    rw [hzero] at hlast
    omega
  · rw [Addr.next_last hlast]
    rw [hfam] at hlast
    refine ⟨iff_of_false (fun hv => Bool.false_ne_true hv.1) (by omega), fun hi => ?_⟩
    omega

end Prefix

end Caspian.Netip
