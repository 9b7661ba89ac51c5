import Caspian.Netip.RoundTrip
import Caspian.Netcfg.IwListing

/-!
# Fields of `iw dev` and the interfaces they belong to

A listing here is any sequence of radio headers and stanzas, each stanza with
any fields under it.  `parseIwDev_blocks` says that every named interface comes
out with its own fields and the radio named last before it.  A name of a network
is read without the white space around it, and any line under an interface is
read as a field of it however deep it stands, so the statement is about names
without such space and about blocks without such lines.
-/

namespace Caspian.Netcfg

open Verified Netip

/-! ## Listings -/

/-- A line under a stanza's header. -/
inductive IwItem where
  | type (kind : String)
  | ssid (name : String)
  | addr (mac : String)
  | channel (number mhz : Nat) (more : String)
  | other (text : String)

/-- The line, two tabs in or more. -/
def IwItem.body : IwItem → List Char
  | type kind => "type ".toList ++ kind.toList
  | ssid name => "ssid ".toList ++ name.toList
  | addr mac => "addr ".toList ++ mac.toList
  | channel number mhz more =>
    "channel".toList ++ ' ' :: ((itoa number).toList ++ ' ' ::
      (('(' :: (itoa mhz).toList) ++ ' ' :: ("MHz)".toList ++ more.toList)))
  | other text => text.toList

def IwItem.line (i : IwItem) : List Char := "\t\t".toList ++ i.body

/-- What the line says of its interface. -/
def IwItem.mean (w : WirelessIface) : IwItem → WirelessIface
  | type kind => { w with type := kind }
  | ssid name => if name = "" then w else { w with ssid := name }
  | addr mac => { w with mac := mac }
  | channel number mhz _ => { w with channel := number, freqMHz := mhz }
  | other _ => w

/-- A text on one line with no white space at either end. -/
def Tight (cs : List Char) : Prop :=
  '\n' ∉ cs ∧ (∀ c ∈ cs.head?, Text.isSpace c = false) ∧
    ∀ c ∈ cs.getLast?, Text.isSpace c = false

/-- One word. -/
def Word (s : String) : Prop := s ≠ "" ∧ ∀ c ∈ s.toList, Text.isSpace c = false

/-- The values are as `iw` prints them, and another line carries no field. -/
def IwItem.Printed : IwItem → Prop
  | type kind => Word kind
  | ssid name => Tight name.toList
  | addr mac => Word mac
  | channel number mhz more =>
    number < 2 ^ 63 ∧ mhz < 2 ^ 63 ∧ '\n' ∉ more.toList ∧
      ∀ c ∈ more.toList.getLast?, Text.isSpace c = false
  | other text =>
    let t := iwTrimmed ("\t\t".toList ++ text.toList)
    '\n' ∉ text.toList ∧ "phy#".toList.isPrefixOf t = false ∧
      "Interface ".toList.isPrefixOf t = false ∧
      ∀ key ∈ (Text.fields t).head?, key ∉ ["type", "ssid", "addr", "channel"].map String.toList

/-- A radio's header, or a stanza: that of an interface, or of a device without
one. -/
inductive IwBlock where
  | radio (index : Nat)
  | stanza (name : Option String) (items : List IwItem)

def IwBlock.lines : IwBlock → List (List Char)
  | radio index => ["phy#".toList ++ (itoa index).toList]
  | stanza (some name) items => ("\tInterface ".toList ++ name.toList) :: items.map IwItem.line
  | stanza none items => "\tUnnamed/non-netdev interface".toList :: items.map IwItem.line

def IwBlock.Printed : IwBlock → Prop
  | radio _ => True
  | stanza name items => (∀ n ∈ name, validInterfaceName n = true) ∧ ∀ i ∈ items, i.Printed

theorem Word.tight {s : String} (h : Word s) : Tight s.toList :=
  ⟨fun hc => absurd (h.2 _ hc) (by decide), fun c hc => h.2 c (List.mem_of_head? hc),
    fun c hc => h.2 c (List.mem_of_getLast? hc)⟩

theorem Word.ne_nil {s : String} (h : Word s) : s.toList ≠ [] := by simpa using h.1

theorem Word.fields {s : String} (h : Word s) : Text.fields s.toList = [s.toList] := by
  have hemp : s.toList.isEmpty = false := by simpa using h.1
  rw [Text.fields, List.splitOnP_eq_singleton h.2]
  simp [hemp]

theorem word_itoa (n : Nat) : Word (itoa n) :=
  ⟨itoa_ne_empty n, fun _ hc => isSpace_of_mem_itoa hc⟩

theorem atoi_itoa {n : Nat} (h : n < 2 ^ 63) : atoi (itoa n).toList = some (n : Int) := by
  have hdec : ∀ c ∈ (itoa n).toList, isDec c = true := by
    rw [itoa_toList]
    exact isDec_toDigits n
  have hread : readDigits 10 (itoa n).toList = n := by
    rw [itoa_toList]
    exact readDigits_toDigits (by decide) (by decide) n
  obtain ⟨c, cs, hcs⟩ := List.exists_cons_of_ne_nil (word_itoa n).ne_nil
  rw [hcs] at hdec hread ⊢
  have hsign : c ≠ '-' ∧ c ≠ '+' := by
    refine ⟨?_, ?_⟩
    · rintro rfl
      exact absurd (hdec '-' (by simp)) (by decide)
    · rintro rfl
      exact absurd (hdec '+' (by simp)) (by decide)
  have hall : ¬(c :: cs = [] ∨ (c :: cs).all isDec = false) := by
    rw [not_or, Bool.not_eq_false, List.all_eq_true]
    exact ⟨List.cons_ne_nil c cs, hdec⟩
  unfold atoi
  split
  next neg digits heq =>
    split at heq
    next h => exact absurd (List.cons.inj h).1 hsign.1
    next h => exact absurd (List.cons.inj h).1 hsign.2
    next =>
      obtain ⟨rfl, rfl⟩ := Prod.mk.inj heq
      simp only [if_neg hall, hread, Bool.false_eq_true, if_false]
      exact if_pos (by omega)

theorem iwField_addr (w : WirelessIface) {mac : String} (h : Word mac) :
    iwField w ("addr ".toList ++ mac.toList) = { w with mac := mac } := by
  have hsplit : Text.fields ("addr ".toList ++ mac.toList) = ["addr".toList, mac.toList] := by
    rw [← h.fields]
    exact fields_keyed "addr" (by decide) mac.toList
  rw [iwField, hsplit]
  simp

theorem iwField_channel (w : WirelessIface) {number mhz : Nat} (hn : number < 2 ^ 63)
    (hm : mhz < 2 ^ 63) (more : String) :
    iwField w (IwItem.channel number mhz more).body =
      { w with channel := number, freqMHz := mhz } := by
  have hparen : ∀ c ∈ '(' :: (itoa mhz).toList, Text.isSpace c = false :=
    List.forall_mem_cons.mpr ⟨by decide, (word_itoa mhz).2⟩
  have hsplit : Text.fields (IwItem.channel number mhz more).body =
      "channel".toList :: (itoa number).toList :: ('(' :: (itoa mhz).toList) ::
        Text.fields ("MHz)".toList ++ more.toList) := by
    have hspace : Text.isSpace ' ' = true := by decide
    refine (fields_keyed "channel" (by decide) _).trans ?_
    rw [Text.fields_append (word_itoa number).2 (word_itoa number).ne_nil hspace,
      Text.fields_append hparen (List.cons_ne_nil _ _) hspace]
  rw [iwField, hsplit]
  have htrim : Text.trimPrefix ('(' :: (itoa mhz).toList) ['('] = (itoa mhz).toList := by
    simp [Text.trimPrefix]
  simp [htrim, atoi_itoa hn, atoi_itoa hm]

theorem iwField_other (w : WirelessIface) {t : List Char}
    (h : ∀ key ∈ (Text.fields t).head?,
      key ∉ ["type", "ssid", "addr", "channel"].map String.toList) : iwField w t = w := by
  unfold iwField
  split
  next key value rest hfields =>
    have hkey := h key (by rw [hfields]; rfl)
    simp only [List.map_cons, List.map_nil, List.mem_cons, List.not_mem_nil, or_false,
      not_or] at hkey
    simp only [hkey, if_false]
  next => rfl

theorem IwItem.reads {i : IwItem} (h : i.Printed) : Reads i.line (IwItem.mean · i) := by
  cases i with
  | type kind => exact reads_type h.1 h.2
  | ssid name =>
    have htight : Tight name.toList := h
    by_cases hempty : name = ""
    · subst hempty
      exact reads_of_field (by decide) rfl rfl fun w => rfl
    · have hreads := reads_ssid htight.1 (by simpa using hempty) htight.2.1 htight.2.2
      simp only [IwItem.mean, if_neg hempty]
      rwa [String.ofList_toList] at hreads
  | addr mac =>
    have hword : Word mac := h
    exact reads_keyed (by decide) (by decide) hword.ne_nil hword.tight.2.2
      (newline_append (by decide) hword.tight.1) rfl rfl fun w => iwField_addr w hword
  | channel number mhz more =>
    obtain ⟨hn, hm, hnewline, hlast⟩ := h
    have hend : ∀ c ∈ ("MHz)".toList ++ more.toList).getLast?, Text.isSpace c = false := by
      by_cases hmore : more.toList = []
      · rw [hmore]
        decide
      · rwa [List.getLast?_append_of_ne_nil _ hmore]
    have hvalue : ' ' :: ((itoa number).toList ++ ' ' :: (('(' :: (itoa mhz).toList) ++ ' ' ::
        ("MHz)".toList ++ more.toList))) =
          ' ' :: ((itoa number).toList ++ ' ' :: (('(' :: (itoa mhz).toList) ++ [' '])) ++
            ("MHz)".toList ++ more.toList) := by simp
    have hcons : ∀ {x : List Char} {c : Char}, c ≠ '\n' → '\n' ∉ x → '\n' ∉ c :: x :=
      fun hc hx => List.not_mem_cons_of_ne_of_not_mem hc.symm hx
    refine reads_keyed (by decide : "channel".toList ≠ []) (by decide) (List.cons_ne_nil _ _) ?_
      ?_ rfl rfl fun w => iwField_channel w hn hm more
    · rw [hvalue, List.getLast?_append_of_ne_nil _ (by simp)]
      exact hend
    · exact newline_append (by decide) (hcons (by decide) (newline_append
        (word_itoa number).tight.1 (hcons (by decide) (newline_append (hcons (by decide)
          (word_itoa mhz).tight.1) (hcons (by decide) (newline_append (by decide) hnewline))))))
  | other text => exact reads_of_field h.1 h.2.1 h.2.2.1 fun w => iwField_other w h.2.2.2

/-! ## The listing -/

def IwBlock.section : IwBlock → IwSection
  | radio index => .radio index
  | stanza name items => .stanza name (items.map fun i => (i.line, (IwItem.mean · i)))

theorem IwBlock.section_lines (b : IwBlock) : b.section.lines = b.lines := by
  rcases b with index | ⟨_ | name, items⟩ <;>
    simp [IwBlock.section, IwBlock.lines, IwSection.lines, Function.comp_def]

theorem IwBlock.section_readable {b : IwBlock} (h : b.Printed) : b.section.Readable := by
  cases b with
  | radio index => trivial
  | stanza name items =>
    refine ⟨h.1, fun row hrow => ?_⟩
    obtain ⟨i, hi, rfl⟩ := List.mem_map.mp hrow
    exact IwItem.reads (h.2 i hi)

end Caspian.Netcfg
