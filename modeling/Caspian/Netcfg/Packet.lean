import Caspian.Netcfg.Command
import Caspian.Netip.Network
import Caspian.Netip.RoundTrip
import Caspian.Verified.Lexer

/-!
# Packets, as a filter sees them

The header of an IP packet, and the words for it that the two filter languages
of this package share.  A packet's addresses are of one family and carry no
zone; ports and message types are of their width on the wire.
-/

namespace Caspian.Netcfg

open Verified Netip

inductive Protocol where
  | tcp
  | udp
  | icmp
  deriving DecidableEq, Repr

/-- What the packet carries. -/
inductive Transport where
  | tcp (sport dport : UInt16)
  | udp (sport dport : UInt16)
  | icmp (type : UInt8)
  | icmpv6 (type : UInt8)
  | other (protocol : UInt8)
  deriving DecidableEq, Repr

namespace Transport

/-- The transport is of the protocol. -/
def isOf : Transport → Protocol → Bool
  | tcp _ _, .tcp => true
  | udp _ _, .udp => true
  | icmp _, .icmp => true
  | _, _ => false

def sport : Transport → Option UInt16
  | tcp s _ => some s
  | udp s _ => some s
  | _ => none

def dport : Transport → Option UInt16
  | tcp _ d => some d
  | udp _ d => some d
  | _ => none

theorem udp_iff {t : Transport} {s d : UInt16} :
    t.isOf .udp = true ∧ t.sport = some s ∧ t.dport = some d ↔ t = .udp s d := by
  cases t <;> simp [isOf, Transport.sport, Transport.dport]

end Transport

structure Packet where
  src : Addr
  dst : Addr
  transport : Transport
  wf : src.isValid = true ∧ src.is4 = dst.is4 ∧ src.is6 = dst.is6 ∧
    src.zone = "" ∧ dst.zone = ""

/-- A web request to a machine outside. -/
def webRequest (src : BitVec 32) : Packet where
  src := .v4 src
  dst := .v4 0xC6336401#32
  transport := .tcp 40000 443
  wf := ⟨rfl, rfl, rfl, rfl, rfl⟩

/-! ## Numbers and addresses in rules -/

/-- A port in a rule. -/
def parsePort (s : String) : Option UInt16 :=
  (parseBits s.toList).bind fun n => if n < 65536 then some (UInt16.ofNat n) else none

/-- A network, or an address as a network of its own. -/
def parseNet (s : String) : Option Prefix :=
  match parsePrefix s with
  | some p => some p
  | none => (parseAddr s).bind fun a => if a.zone = "" then some (.ofAddr a a.bitLen) else none

/-- A port number the rules can hold. -/
def IsPort (n : Int) : Prop := 0 ≤ n ∧ n < 65536

instance (n : Int) : Decidable (IsPort n) := by unfold IsPort; infer_instance

theorem parsePort_itoaInt (n : Int) :
    parsePort (itoaInt n) = if IsPort n then some (UInt16.ofNat n.toNat) else none := by
  unfold parsePort itoaInt
  by_cases hneg : n < 0
  · have hbad : parseBits ("-" ++ itoa n.natAbs).toList = none := by
      rw [parseBits, if_neg]
      rintro ⟨-, hall, -⟩
      have hsign := List.all_eq_true.mp hall '-' (by simp)
      exact absurd hsign (by decide)
    rw [if_pos hneg, hbad, if_neg (fun h : IsPort n => by have := h.1; omega)]
    rfl
  · have hbits : parseBits (itoa n.natAbs).toList = some n.toNat := by
      rw [itoa_toList, parseBits_toDigits]
      congr 1
      omega
    rw [if_neg hneg, hbits, Option.bind_some]
    have hiff : n.toNat < 65536 ↔ IsPort n := by
      unfold IsPort
      omega
    by_cases hport : IsPort n
    · rw [if_pos hport, if_pos (hiff.mpr hport)]
    · rw [if_neg hport, if_neg (mt hiff.mp hport)]

theorem parseNet_prefix {p : Prefix} (h : p.isValid = true) : parseNet p.text = some p := by
  rw [parseNet, parsePrefix_text h]

variable {a : Addr} {c : Char}

/-- The characters of an address without zone. -/
theorem mem_addr_text (h : a.isValid = true) (hz : a.zone = "") (hc : c ∈ a.text.toList) :
    isHex c = true ∨ c = ':' ∨ c = '.' := by
  cases a with
  | invalid => cases h
  | v4 b => exact (mem_dotted hc).imp_right Or.inr
  | v6 b z =>
    have hplain : (Addr.v6 b z).text = v6Text b.toNat := by
      have hempty : z = "" := hz
      simp [Addr.text, hempty]
    rw [hplain] at hc
    exact mem_v6Text hc

theorem parseNet_addr (h : a.isValid = true) (hz : a.zone = "") :
    parseNet a.text = some (.ofAddr a a.bitLen) := by
  have hslash : '/' ∉ a.text.toList := by
    intro hmem
    rcases mem_addr_text h hz hmem with hbad | hbad | hbad <;> exact absurd hbad (by decide)
  have hnone : parsePrefix a.text = none := by
    unfold parsePrefix
    rw [cutLast, Text.cutChars_of_notMem (by simpa using hslash)]
    rfl
  rw [parseNet, hnone, parseAddr_text h]
  simp [hz]

/-! ## Printed values as words -/

theorem plain_of_isHex (h : isHex c = true) : Lexer.plain c = true :=
  Lexer.plain_of_spared (by decide) h

theorem plain_addr (h : a.isValid = true) (hz : a.zone = "") :
    ∀ c ∈ a.text.toList, Lexer.plain c = true := by
  intro c hc
  rcases mem_addr_text h hz hc with hhex | rfl | rfl
  · exact plain_of_isHex hhex
  · decide
  · decide

theorem plain_itoa (n : Nat) : ∀ c ∈ (itoa n).toList, Lexer.plain c = true := by
  intro c hc
  rw [itoa_toList] at hc
  exact plain_of_isHex (isHex_toDigits (by decide) (by decide) n c hc)

theorem plain_itoaInt (n : Int) : ∀ c ∈ (itoaInt n).toList, Lexer.plain c = true := by
  intro c hc
  unfold itoaInt at hc
  split at hc
  · rw [String.toList_append, List.mem_append] at hc
    rcases hc with hc | hc
    · rw [List.mem_singleton.mp (hc : c ∈ ['-'])]
      decide
    · exact plain_itoa _ c hc
  · exact plain_itoa _ c hc

theorem plain_prefixText {p : Prefix} (h : p.isValid = true) :
    ∀ c ∈ p.text.toList, Lexer.plain c = true := by
  intro c hc
  obtain ⟨n, hn⟩ := Option.isSome_iff_exists.mp h
  obtain ⟨hvalid, hzone, -⟩ := p.wf n hn
  simp only [Prefix.text, hn, String.toList_append, List.mem_append] at hc
  rcases hc with (hc | hc) | hc
  · exact plain_addr hvalid hzone c hc
  · rw [List.mem_singleton.mp (hc : c ∈ ['/'])]
    decide
  · exact plain_itoa n c hc

theorem plain_of_ifaceRune (h : ifaceRune c = true) : Lexer.plain c = true :=
  Lexer.plain_of_spared (by decide) h

/-- An interface name is a word. -/
theorem plain_iface {name : String} (h : validInterfaceName name = true) :
    name ≠ "" ∧ ∀ c ∈ name.toList, Lexer.plain c = true := by
  simp only [validInterfaceName, Bool.and_eq_true, List.all_eq_true, decide_eq_true_eq] at h
  refine ⟨?_, fun c hc => plain_of_ifaceRune (h.2 c hc)⟩
  rintro rfl
  exact absurd h.1.1 (by decide)

end Caspian.Netcfg
