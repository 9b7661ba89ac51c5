import Caspian.Netcfg.IwDev

/-!
# What `iw dev` prints, read back

The other side of the parser: a listing is a list of radios with their
stanzas, and an SSID is printed byte by byte, with everything that is not
plain text written as `\x` and two digits.  `parseIwDev_text` says that the
parser reads a listing as it was meant, with the name of a network as `iw`
escaped it, and `iwEscape_eq_iff` which names `iw` prints as they are.
-/

namespace Caspian.Netcfg

open Verified Netip

/-! ## What `iw` prints -/

/-- One byte of an SSID; a space is printed as it is unless it stands at an
edge of the name. -/
def iwByte (edge : Bool) (b : UInt8) : List Char :=
  if (0x20 < b.toNat ∧ b.toNat ≤ 0x7e ∧ b.toNat ≠ 0x5c) ∨ (b.toNat = 0x20 ∧ edge = false) then
    [Char.ofNat b.toNat]
  else '\\' :: 'x' :: Text.hexPair b.toNat

def isEdge (n i : Nat) : Bool := i = 0 || i + 1 = n

/-- An SSID as `iw` escapes it. -/
def iwEscape (bs : List UInt8) : List Char :=
  (bs.mapIdx fun i b => iwByte (isEdge bs.length i) b).flatten

/-- The bytes of a text. -/
def utf8Bytes (s : String) : List UInt8 := s.toList.flatMap String.utf8EncodeChar

/-- One line under an interface. -/
inductive IwEntry where
  | ssid (name : String)
  | type (kind : String)
  | other (text : String)

def IwEntry.text : IwEntry → List Char
  | ssid name => "\t\tssid ".toList ++ iwEscape (utf8Bytes name)
  | type kind => "\t\ttype ".toList ++ kind.toList
  | other text => "\t\t".toList ++ text.toList

/-- A line the parser reads without its blanks. -/
def iwTrimmed (raw : List Char) : List Char := Text.trimChars (iwLineOf raw)

/-- The line is printed as the constructor says: a network name and a type are
not empty, a type is one word, and another line is neither of the two and
does not pass for a header. -/
def IwEntry.wf : IwEntry → Bool
  | ssid name => name ≠ ""
  | type kind => kind ≠ "" && kind.toList.all fun c => !Text.isSpace c
  | other text =>
    let t := iwTrimmed ("\t\t".toList ++ text.toList)
    '\n' ∉ text.toList && !"phy#".toList.isPrefixOf t && !"Interface ".toList.isPrefixOf t &&
      (Text.fields t).head? ≠ some "type".toList && (Text.fields t).head? ≠ some "ssid".toList

/-- An interface's stanza; the one without a name is a device with no network
interface. -/
structure IwStanza where
  name : Option String
  entries : List IwEntry

def IwStanza.header (st : IwStanza) : List Char :=
  match st.name with
  | some name => "\tInterface ".toList ++ name.toList
  | none => "\tUnnamed/non-netdev interface".toList

def IwStanza.lines (st : IwStanza) : List (List Char) := st.header :: st.entries.map IwEntry.text

def IwStanza.wf (st : IwStanza) : Bool :=
  (match st.name with
    | some name => validInterfaceName name
    | none => true) &&
    st.entries.all IwEntry.wf

/-- A radio with its stanzas. -/
structure IwRadio where
  index : Nat
  stanzas : List IwStanza

def IwRadio.lines (r : IwRadio) : List (List Char) :=
  ("phy#".toList ++ (itoa r.index).toList) :: r.stanzas.flatMap IwStanza.lines

/-- `iw dev`'s output for the radios of a machine. -/
def iwDevText (rs : List IwRadio) : String :=
  String.ofList ((rs.flatMap IwRadio.lines).flatMap (· ++ ['\n']))

/-! ## Reading it back -/

/-- What a line says about its interface. -/
def IwEntry.apply (w : WirelessIface) : IwEntry → WirelessIface
  | ssid name => { w with ssid := String.ofList (iwEscape (utf8Bytes name)) }
  | type kind => { w with type := kind }
  | other text => iwField w (iwTrimmed ("\t\t".toList ++ text.toList))

/-- The interface a stanza describes. -/
def IwStanza.iface (phy : String) (st : IwStanza) : Option WirelessIface :=
  st.name.map fun name => st.entries.foldl IwEntry.apply { name := name, phy := phy }

def IwRadio.ifaces (r : IwRadio) : List WirelessIface :=
  r.stanzas.filterMap (IwStanza.iface ("phy" ++ itoa r.index))

variable {pre body : List Char}

/-- A line that ends with something else than white space keeps its end. -/
theorem iwLineOf_append (hne : body ≠ []) (hlast : ∀ c ∈ body.getLast?, Text.isSpace c = false) :
    iwLineOf (pre ++ body) = pre ++ body := by
  have hstay : body.rdropWhile isBlank = body := by
    rw [List.rdropWhile_eq_self_iff]
    intro hb hblank
    have hsp := hlast _ (List.getLast?_eq_getLast_of_ne_nil hb)
    simp only [isBlank, Bool.or_eq_true, decide_eq_true_eq] at hblank
    rcases hblank with h | h <;> rw [h] at hsp <;> exact absurd hsp (by decide)
  rw [iwLineOf, Text.rdropWhile_append pre body (by rw [hstay]; exact hne), hstay]

variable {c : Char}

theorem isSpace_of_isBlank (h : isBlank c = true) : Text.isSpace c = true := by
  simp only [isBlank, Bool.or_eq_true, decide_eq_true_eq] at h
  rcases h with rfl | rfl <;> decide

theorem iwTrimmed_append (hpre : ∀ c ∈ pre, isBlank c = true) (hne : body ≠ [])
    (hhead : ∀ c ∈ body.head?, Text.isSpace c = false)
    (hlast : ∀ c ∈ body.getLast?, Text.isSpace c = false) : iwTrimmed (pre ++ body) = body := by
  rw [iwTrimmed, iwLineOf_append hne hlast, Text.trimChars,
    List.dropWhile_append_of_pos fun c hc => isSpace_of_isBlank (hpre c hc)]
  exact Text.trimChars_eq_self hhead hlast

theorem iwLine_unnamed (s : IwScan) :
    iwLine s "\tUnnamed/non-netdev interface".toList = .ok { s with reading := false } := rfl

theorem isSpace_of_mem_itoa {n : Nat} (h : c ∈ (itoa n).toList) : Text.isSpace c = false := by
  have hd := mem_itoa h
  clear h
  revert c
  decide

theorem isSpace_of_mem_validInterfaceName {name : String} (h : validInterfaceName name = true)
    (hc : c ∈ name.toList) : Text.isSpace c = false := by
  rw [Bool.eq_false_iff]
  intro hsp
  refine not_mem_of_validInterfaceName h ?_ hc
  have hmem := of_decide_eq_true hsp
  clear hsp hc
  revert c
  decide

/-- The last character of a text and something after it. -/
theorem last_append {p : Char → Prop} (hne : body ≠ []) (h : ∀ c ∈ body, p c) :
    ∀ c ∈ (pre ++ body).getLast?, p c := by
  intro c hc
  rw [List.getLast?_append_of_ne_nil _ hne] at hc
  exact h c (List.mem_of_getLast? hc)

theorem iwLine_phy (s : IwScan) (n : Nat) :
    iwLine s ("phy#".toList ++ (itoa n).toList) = .ok { s with phy := "phy" ++ itoa n } := by
  have hne : (itoa n).toList ≠ [] := by simpa using itoa_ne_empty n
  have htrim : Text.trimChars (iwLineOf ("phy#".toList ++ (itoa n).toList)) =
      "phy#".toList ++ (itoa n).toList :=
    @iwTrimmed_append [] ("phy#".toList ++ (itoa n).toList) (by simp) (by simp)
      (by simp; decide) (last_append hne fun c hc => isSpace_of_mem_itoa hc)
  simp only [iwLine, htrim]
  simp [Text.trimPrefix]

theorem iwLine_interface (s : IwScan) {name : String} (h : validInterfaceName name = true) :
    iwLine s ("\tInterface ".toList ++ name.toList) =
      .ok { s with ifaces := s.ifaces ++ [{ name := name, phy := s.phy }], reading := true } := by
  have hsp : ∀ c ∈ name.toList, Text.isSpace c = false :=
    fun c hc => isSpace_of_mem_validInterfaceName h hc
  have hne : name.toList ≠ [] := by
    intro hnil
    simp [validInterfaceName, hnil] at h
  have htrim : Text.trimChars (iwLineOf ("\tInterface ".toList ++ name.toList)) =
      "Interface ".toList ++ name.toList :=
    @iwTrimmed_append ['\t'] ("Interface ".toList ++ name.toList) (by decide) (by simp)
      (by simp; decide) (last_append hne hsp)
  have hname : Text.trimChars name.toList = name.toList :=
    Text.trimChars_eq_self (fun c hc => hsp c (List.mem_of_head? hc))
      (fun c hc => hsp c (List.mem_of_getLast? hc))
  simp only [iwLine, htrim]
  simp [Text.trimPrefix, hname, h]

/-! ### What an SSID looks like on its line -/

theorem iwByte_ne_nil (edge : Bool) (b : UInt8) : iwByte edge b ≠ [] := by
  unfold iwByte
  split <;> simp

/-- Every printed character stands on its line, and at the edge of a name none
is white space. -/
theorem iwByte_plain (edge : Bool) (b : UInt8) :
    ∀ c ∈ iwByte edge b, c ≠ '\n' ∧ (edge = true → Text.isSpace c = false) := by
  have hb : b.toNat < 256 := b.toNat_lt
  unfold iwByte
  generalize b.toNat = n at hb
  revert n edge
  decide +kernel

theorem iwEscape_newline (bs : List UInt8) : '\n' ∉ iwEscape bs := by
  intro h
  obtain ⟨piece, hpiece, hc⟩ := List.mem_flatten.mp h
  obtain ⟨i, hi, rfl⟩ := List.mem_mapIdx.mp hpiece
  exact (iwByte_plain _ _ _ hc).1 rfl

theorem iwEscape_ne_nil {bs : List UInt8} (h : bs ≠ []) : iwEscape bs ≠ [] := by
  cases bs with
  | nil => exact absurd rfl h
  | cons b bs => simp [iwEscape, iwByte_ne_nil]

theorem iwEscape_head (bs : List UInt8) : ∀ c ∈ (iwEscape bs).head?, Text.isSpace c = false := by
  intro c hc
  cases bs with
  | nil => cases hc
  | cons b bs =>
    rw [iwEscape, List.mapIdx_cons, List.flatten_cons,
      List.head?_append_of_ne_nil _ (iwByte_ne_nil _ _)] at hc
    exact (iwByte_plain _ b c (List.mem_of_head? hc)).2 rfl

theorem iwEscape_last (bs : List UInt8) :
    ∀ c ∈ (iwEscape bs).getLast?, Text.isSpace c = false := by
  intro c hc
  rcases List.eq_nil_or_concat' bs with rfl | ⟨init, b, rfl⟩
  · cases hc
  · rw [iwEscape, List.mapIdx_concat, List.flatten_append, List.flatten_singleton,
      List.getLast?_append_of_ne_nil _ (iwByte_ne_nil _ _)] at hc
    exact (iwByte_plain _ b c (List.mem_of_getLast? hc)).2 (by simp [isEdge])

theorem utf8Bytes_ne_nil {s : String} (h : s ≠ "") : utf8Bytes s ≠ [] := by
  have hne : s.toList ≠ [] := by simpa using h
  obtain ⟨c, cs, hcs⟩ := List.exists_cons_of_ne_nil hne
  have hlen : (String.utf8EncodeChar c).length = c.utf8Size := String.length_utf8EncodeChar c
  intro hnil
  rw [utf8Bytes, hcs, List.flatMap_cons, List.append_eq_nil_iff] at hnil
  rw [hnil.1, List.length_nil] at hlen
  exact absurd hlen.symm (Nat.ne_of_gt c.utf8Size_pos)

/-! ### One line under an interface -/

theorem iwField_nil (w : WirelessIface) : iwField w [] = w := rfl

theorem fields_keyed (key : String)
    (hkey : key.toList ≠ [] ∧ ∀ c ∈ key.toList, Text.isSpace c = false) (value : List Char) :
    Text.fields (key.toList ++ ' ' :: value) = key.toList :: Text.fields value :=
  Text.fields_append hkey.2 hkey.1 (by decide) value

theorem iwField_ssid (w : WirelessIface) {name : List Char} (hne : name ≠ [])
    (hhead : ∀ c ∈ name.head?, Text.isSpace c = false)
    (hlast : ∀ c ∈ name.getLast?, Text.isSpace c = false) :
    iwField w ("ssid ".toList ++ name) = { w with ssid := String.ofList name } := by
  obtain ⟨c, cs, hcs⟩ := List.exists_cons_of_ne_nil hne
  have hsome : Text.fields name ≠ [] :=
    Text.fields_ne_nil (hcs ▸ List.mem_cons_self) (hhead c (by rw [hcs]; rfl))
  obtain ⟨value, rest, hfields⟩ := List.exists_cons_of_ne_nil hsome
  have hsplit : Text.fields ("ssid ".toList ++ name) = "ssid".toList :: Text.fields name :=
    fields_keyed "ssid" (by decide) name
  have htrim : Text.trimPrefix ("ssid ".toList ++ name) "ssid ".toList = name := by
    simp [Text.trimPrefix]
  rw [iwField, hsplit, hfields, htrim, Text.trimChars_eq_self hhead hlast]
  rfl

theorem iwField_type (w : WirelessIface) {kind : String} (hne : kind ≠ "")
    (hword : ∀ c ∈ kind.toList, Text.isSpace c = false) :
    iwField w ("type ".toList ++ kind.toList) = { w with type := kind } := by
  have hfields : Text.fields kind.toList = [kind.toList] := by
    have hemp : kind.toList.isEmpty = false := by simpa using hne
    rw [Text.fields, List.splitOnP_eq_singleton hword]
    simp [hemp]
  have hsplit : Text.fields ("type ".toList ++ kind.toList) =
      "type".toList :: Text.fields kind.toList :=
    fields_keyed "type" (by decide) kind.toList
  rw [iwField, hsplit, hfields]
  simp

theorem modifyLast_iwField_nil (ws : List WirelessIface) :
    ws.modifyLast (iwField · []) = ws := by
  rcases List.eq_nil_or_concat' ws with rfl | ⟨init, w, rfl⟩
  · rfl
  · rw [List.modifyLast_concat, iwField_nil]

/-- A line two blanks in that is no header fills the open stanza in. -/
theorem iwLine_field (s : IwScan)
    (hphy : "phy#".toList.isPrefixOf (iwTrimmed ("\t\t".toList ++ body)) = false)
    (hiface : "Interface ".toList.isPrefixOf (iwTrimmed ("\t\t".toList ++ body)) = false) :
    iwLine s ("\t\t".toList ++ body) = .ok (if s.reading then
      { s with ifaces := s.ifaces.modifyLast (iwField · (iwTrimmed ("\t\t".toList ++ body))) }
      else s) := by
  simp only [iwLine]
  rw [show Text.trimChars (iwLineOf ("\t\t".toList ++ body)) = iwTrimmed ("\t\t".toList ++ body)
    from rfl, hphy, hiface]
  by_cases hnil : iwTrimmed ("\t\t".toList ++ body) = []
  · rw [hnil, if_pos rfl, modifyLast_iwField_nil, ite_self]
  · -- the text is not all blanks, so the two tabs stay in front of it
    have hstay : body.rdropWhile isBlank ≠ [] := by
      intro hdrop
      have hblank : ("\t\t".toList ++ body).rdropWhile isBlank = [] := by
        rw [List.rdropWhile_eq_nil_iff] at hdrop ⊢
        intro c hc
        rcases List.mem_append.mp hc with h | h
        · clear hc
          revert c
          decide
        · exact hdrop c h
      exact hnil (by rw [iwTrimmed, iwLineOf, hblank]; rfl)
    have hindent : indentOf (iwLineOf ("\t\t".toList ++ body)) ≠ 1 := by
      rw [iwLineOf, Text.rdropWhile_append _ _ hstay, indentOf]
      simp [isBlank]
    rw [if_neg hnil, if_neg hindent]
    cases s.reading <;> rfl

/-- A line under an interface and what it says of it: the line holds no line
feed and passes for no header. -/
structure Reads (raw : List Char) (mean : WirelessIface → WirelessIface) : Prop where
  newline : '\n' ∉ raw
  line : ∀ s : IwScan, iwLine s raw =
    .ok (if s.reading then { s with ifaces := s.ifaces.modifyLast mean } else s)

theorem newline_append {x y : List Char} (hx : '\n' ∉ x) (hy : '\n' ∉ y) : '\n' ∉ x ++ y :=
  fun hmem => (List.mem_append.mp hmem).elim hx hy

theorem reads_of_field {mean : WirelessIface → WirelessIface} (hnewline : '\n' ∉ body)
    (hphy : "phy#".toList.isPrefixOf (iwTrimmed ("\t\t".toList ++ body)) = false)
    (hiface : "Interface ".toList.isPrefixOf (iwTrimmed ("\t\t".toList ++ body)) = false)
    (hfield : ∀ w, iwField w (iwTrimmed ("\t\t".toList ++ body)) = mean w) :
    Reads ("\t\t".toList ++ body) mean where
  newline := newline_append (by decide) hnewline
  line s := by
    rw [iwLine_field s hphy hiface]
    simp only [hfield]

/-- A key and its value, with no white space at either end. -/
theorem reads_keyed {key value : List Char} {mean : WirelessIface → WirelessIface}
    (hkey : key ≠ []) (hhead : ∀ c ∈ key.head?, Text.isSpace c = false) (hne : value ≠ [])
    (hlast : ∀ c ∈ value.getLast?, Text.isSpace c = false) (hnewline : '\n' ∉ key ++ value)
    (hphy : "phy#".toList.isPrefixOf (key ++ value) = false)
    (hiface : "Interface ".toList.isPrefixOf (key ++ value) = false)
    (hfield : ∀ w, iwField w (key ++ value) = mean w) :
    Reads ("\t\t".toList ++ (key ++ value)) mean := by
  have htrim : iwTrimmed ("\t\t".toList ++ (key ++ value)) = key ++ value := by
    refine iwTrimmed_append (by decide) (by simp [hkey]) ?_ ?_
    · rwa [List.head?_append_of_ne_nil _ hkey]
    · rwa [List.getLast?_append_of_ne_nil _ hne]
  exact reads_of_field hnewline (by rwa [htrim]) (by rwa [htrim]) fun w => by rw [htrim, hfield]

theorem reads_ssid {name : List Char} (hnewline : '\n' ∉ name) (hne : name ≠ [])
    (hhead : ∀ c ∈ name.head?, Text.isSpace c = false)
    (hlast : ∀ c ∈ name.getLast?, Text.isSpace c = false) :
    Reads ("\t\t".toList ++ ("ssid ".toList ++ name)) fun w => { w with ssid := String.ofList name } :=
  reads_keyed (by decide) (by decide) hne hlast (newline_append (by decide) hnewline) rfl rfl
    fun w => iwField_ssid w hne hhead hlast

theorem reads_type {kind : String} (hne : kind ≠ "")
    (hword : ∀ c ∈ kind.toList, Text.isSpace c = false) :
    Reads ("\t\t".toList ++ ("type ".toList ++ kind.toList)) fun w => { w with type := kind } := by
  have hnewline : '\n' ∉ kind.toList := fun hc => absurd (hword _ hc) (by decide)
  exact reads_keyed (by decide) (by decide) (by simpa using hne)
    (fun c hc => hword c (List.mem_of_getLast? hc)) (newline_append (by decide) hnewline) rfl rfl
    fun w => iwField_type w hne hword

theorem IwEntry.reads {e : IwEntry} (h : e.wf = true) : Reads e.text (IwEntry.apply · e) := by
  cases e with
  | ssid name =>
    have hesc := iwEscape_ne_nil (utf8Bytes_ne_nil (of_decide_eq_true h))
    exact reads_ssid (iwEscape_newline _) hesc (iwEscape_head _) (iwEscape_last _)
  | type kind =>
    obtain ⟨hne, hall⟩ := Bool.and_eq_true_iff.mp h
    exact reads_type (of_decide_eq_true hne) (by simpa using hall)
  | other text =>
    simp only [IwEntry.wf, Bool.and_eq_true, Bool.not_eq_true', decide_eq_true_eq] at h
    exact reads_of_field h.1.1.1.1 h.1.1.1.2 h.1.1.2 fun w => rfl

/-! ### The whole listing -/

/-- A radio's header, or a stanza with what its lines say. -/
inductive IwSection where
  | radio (index : Nat)
  | stanza (name : Option String) (rows : List (List Char × (WirelessIface → WirelessIface)))

namespace IwSection

def lines : IwSection → List (List Char)
  | radio index => ["phy#".toList ++ (itoa index).toList]
  | stanza (some name) rows => ("\tInterface ".toList ++ name.toList) :: rows.map Prod.fst
  | stanza none rows => "\tUnnamed/non-netdev interface".toList :: rows.map Prod.fst

def Readable : IwSection → Prop
  | radio _ => True
  | stanza name rows => (∀ n ∈ name, validInterfaceName n = true) ∧ ∀ row ∈ rows, Reads row.1 row.2

/-- The interfaces a listing is about, on the radio in force. -/
def ifaces (phy : String) : List IwSection → List WirelessIface
  | [] => []
  | radio index :: xs => ifaces ("phy" ++ itoa index) xs
  | stanza none _ :: xs => ifaces phy xs
  | stanza (some name) rows :: xs =>
    rows.foldl (fun w row => row.2 w) { name := name, phy := phy } :: ifaces phy xs

variable {rows : List (List Char × (WirelessIface → WirelessIface))} {xs : List IwSection}

theorem rows_closed (h : ∀ row ∈ rows, Reads row.1 row.2) {s : IwScan} (hs : s.reading = false) :
    (rows.map Prod.fst).foldlM iwLine s = .ok s := by
  induction rows with
  | nil => rfl
  | cons row rows ih =>
    rw [List.map_cons, List.foldlM_cons, (h row (by simp)).line s, hs]
    exact ih fun row' hrow' => h row' (by simp [hrow'])

theorem rows_open (h : ∀ row ∈ rows, Reads row.1 row.2) (phy : String) (done : List WirelessIface)
    (w : WirelessIface) : (rows.map Prod.fst).foldlM iwLine ⟨done ++ [w], phy, true⟩ =
      .ok ⟨done ++ [rows.foldl (fun w row => row.2 w) w], phy, true⟩ := by
  induction rows generalizing w with
  | nil => rfl
  | cons row rows ih =>
    rw [List.map_cons, List.foldlM_cons, (h row (by simp)).line, List.foldl_cons,
      ← ih (fun row' hrow' => h row' (by simp [hrow'])) (row.2 w)]
    simp only [if_true, List.modifyLast_concat]
    rfl

/-- The walk over a listing adds the interfaces it is about. -/
theorem scan (h : ∀ x ∈ xs, x.Readable) (s : IwScan) :
    ∃ phy reading, (xs.flatMap lines).foldlM iwLine s =
      .ok ⟨s.ifaces ++ ifaces s.phy xs, phy, reading⟩ := by
  induction xs generalizing s with
  | nil => exact ⟨s.phy, s.reading, by simp [ifaces]; rfl⟩
  | cons x xs ih =>
    obtain ⟨hx, hxs⟩ := List.forall_mem_cons.mp h
    rw [List.flatMap_cons, List.foldlM_append]
    cases x with
    | radio index =>
      have hhead : (radio index).lines.foldlM iwLine s =
          .ok { s with phy := "phy" ++ itoa index } := by
        rw [lines, List.foldlM_cons, iwLine_phy]
        rfl
      rw [hhead]
      exact ih hxs _
    | stanza name rows =>
      cases name with
      | none =>
        have hhead : (stanza none rows).lines.foldlM iwLine s =
            .ok { s with reading := false } := by
          rw [lines, List.foldlM_cons, iwLine_unnamed]
          exact rows_closed hx.2 rfl
        rw [hhead]
        exact ih hxs _
      | some name =>
        have hhead : (stanza (some name) rows).lines.foldlM iwLine s =
            .ok ⟨s.ifaces ++ [rows.foldl (fun w row => row.2 w) { name := name, phy := s.phy }],
              s.phy, true⟩ := by
          rw [lines, List.foldlM_cons, iwLine_interface s (hx.1 name rfl)]
          exact rows_open hx.2 s.phy s.ifaces _
        obtain ⟨phy, reading, hrest⟩ := ih hxs
          ⟨s.ifaces ++ [rows.foldl (fun w row => row.2 w) { name := name, phy := s.phy }],
            s.phy, true⟩
        refine ⟨phy, reading, ?_⟩
        rw [hhead]
        refine hrest.trans ?_
        rw [ifaces, List.append_assoc, List.singleton_append]

/-- A printed line holds no line feed. -/
theorem newline_notMem {x : IwSection} (h : x.Readable) : ∀ l ∈ x.lines, '\n' ∉ l := by
  have hrows : ∀ {rows : List (List Char × (WirelessIface → WirelessIface))},
      (∀ row ∈ rows, Reads row.1 row.2) → ∀ l ∈ rows.map Prod.fst, '\n' ∉ l := by
    intro rows hall l hl
    obtain ⟨row, hrow, rfl⟩ := List.mem_map.mp hl
    exact (hall row hrow).newline
  cases x with
  | radio index =>
    intro l hl
    rw [List.mem_singleton.mp hl]
    exact newline_append (by decide) fun hm => absurd (mem_itoa hm) (by decide)
  | stanza name rows =>
    cases name with
    | none => exact List.forall_mem_cons.mpr ⟨by decide, hrows h.2⟩
    | some name =>
      refine List.forall_mem_cons.mpr ⟨newline_append (by decide) ?_, hrows h.2⟩
      exact not_mem_of_validInterfaceName (h.1 name rfl) (by decide)

/-- The parser reads a listing as it was printed. -/
theorem parse {ls : List (List Char)} (h : ∀ x ∈ xs, x.Readable) (hls : ls = xs.flatMap lines) :
    parseIwDev (String.ofList (ls.flatMap (· ++ ['\n']))) = .ok (ifaces "" xs) := by
  have hsplit : Text.splitChars '\n' (ls.flatMap (· ++ ['\n'])) = xs.flatMap lines ++ [[]] := by
    rw [hls]
    refine Text.splitChars_flatMap fun l hl => ?_
    obtain ⟨x, hx, hl⟩ := List.mem_flatMap.mp hl
    exact newline_notMem (h x hx) l hl
  obtain ⟨phy, reading, hscan⟩ := scan h {}
  rw [parseIwDev, String.toList_ofList, hsplit, List.foldlM_append, hscan]
  rfl

end IwSection

def IwStanza.section (st : IwStanza) : IwSection :=
  .stanza st.name (st.entries.map fun e => (e.text, (IwEntry.apply · e)))

def IwRadio.sections (r : IwRadio) : List IwSection :=
  .radio r.index :: r.stanzas.map IwStanza.section

theorem IwStanza.section_lines (st : IwStanza) : st.section.lines = st.lines := by
  obtain ⟨name, entries⟩ := st
  cases name <;>
    simp [IwStanza.section, IwStanza.lines, IwStanza.header, IwSection.lines, Function.comp_def]

theorem IwStanza.section_readable {st : IwStanza} (h : st.wf = true) : st.section.Readable := by
  obtain ⟨name, entries⟩ := st
  obtain ⟨hname, hentries⟩ := Bool.and_eq_true_iff.mp h
  constructor
  · rintro n hn
    cases hn
    exact hname
  · intro row hrow
    obtain ⟨e, he, rfl⟩ := List.mem_map.mp hrow
    exact IwEntry.reads (List.all_eq_true.mp hentries e he)

theorem ifaces_stanzas (phy : String) (sts : List IwStanza) (xs : List IwSection) :
    IwSection.ifaces phy (sts.map IwStanza.section ++ xs) =
      sts.filterMap (IwStanza.iface phy) ++ IwSection.ifaces phy xs := by
  induction sts with
  | nil => rfl
  | cons st sts ih =>
    obtain ⟨name, entries⟩ := st
    cases name with
    | none => exact ih
    | some name =>
      simp [IwStanza.section, IwStanza.iface, IwSection.ifaces, ih, List.foldl_map]

theorem ifaces_radios (phy : String) (rs : List IwRadio) :
    IwSection.ifaces phy (rs.flatMap IwRadio.sections) = rs.flatMap IwRadio.ifaces := by
  induction rs generalizing phy with
  | nil => rfl
  | cons r rs ih =>
    rw [List.flatMap_cons, List.flatMap_cons, IwRadio.sections, List.cons_append,
      IwSection.ifaces, ifaces_stanzas, ih]
    rfl

/-- The parser reads the listing of a machine's radios as it was printed. -/
theorem parseIwDev_text {rs : List IwRadio} (h : ∀ r ∈ rs, ∀ st ∈ r.stanzas, st.wf = true) :
    parseIwDev (iwDevText rs) = .ok (rs.flatMap IwRadio.ifaces) := by
  rw [← ifaces_radios ""]
  refine IwSection.parse ?_ ?_
  · intro x hx
    obtain ⟨r, hr, hx⟩ := List.mem_flatMap.mp hx
    rcases List.mem_cons.mp hx with rfl | hx
    · trivial
    · obtain ⟨st, hst, rfl⟩ := List.mem_map.mp hx
      exact IwStanza.section_readable (h r hr st hst)
  · rw [List.flatMap_assoc]
    refine List.flatMap_congr fun r _ => ?_
    rw [IwRadio.sections, List.flatMap_cons, List.flatMap_map,
      List.flatMap_congr fun st _ => IwStanza.section_lines st]
    rfl

/-! ### A name printed as it is -/

/-- `iw` prints the name as it is: printable ASCII without a backslash, with no
space at either end. -/
def iwVerbatim (s : String) : Bool :=
  s.toList.all (fun c => 0x20 ≤ c.toNat && c.toNat ≤ 0x7e && c ≠ '\\') &&
    s.toList.head? ≠ some ' ' && s.toList.getLast? ≠ some ' '

/-- Pieces that are not empty and together no longer than their number are
single characters. -/
theorem length_eq_one_of_flatten {ps : List (List Char)} (hne : ∀ p ∈ ps, p ≠ [])
    (h : ps.flatten.length ≤ ps.length) : ∀ p ∈ ps, p.length = 1 := by
  have hge : ∀ qs : List (List Char), (∀ q ∈ qs, q ≠ []) → qs.length ≤ qs.flatten.length := by
    intro qs hqs
    induction qs with
    | nil => simp
    | cons q qs ih =>
      have hq : 0 < q.length := List.length_pos_of_ne_nil (hqs q (by simp))
      have hrest := ih fun q' hq' => hqs q' (by simp [hq'])
      simp only [List.flatten_cons, List.length_append, List.length_cons]
      omega
  induction ps with
  | nil => simp
  | cons p ps ih =>
    have hp : 0 < p.length := List.length_pos_of_ne_nil (hne p (by simp))
    have hps : ∀ q ∈ ps, q ≠ [] := fun q hq => hne q (by simp [hq])
    have hrest := hge ps hps
    simp only [List.flatten_cons, List.length_append, List.length_cons] at h
    intro q hq
    rcases List.mem_cons.mp hq with rfl | hq
    · omega
    · exact ih hps (by omega) q hq

/-- A byte printed as one character is printed as it is. -/
theorem iwByte_length_one {edge : Bool} {b : UInt8} (h : (iwByte edge b).length = 1) :
    ∀ c ∈ iwByte edge b, 0x20 ≤ c.toNat ∧ c.toNat ≤ 0x7e ∧ c ≠ '\\' := by
  unfold iwByte at h ⊢
  split at h
  next hb =>
    rw [if_pos hb]
    have hlo : 0x20 ≤ b.toNat := by omega
    have hhi : b.toNat ≤ 0x7e := by omega
    have hslash : b.toNat ≠ 0x5c := by omega
    clear hb h
    generalize b.toNat = n at hlo hhi hslash
    intro c hc
    obtain rfl : c = Char.ofNat n := List.mem_singleton.mp hc
    clear hc
    revert n
    decide
  next => simp [Text.hexPair] at h

theorem length_le_utf8Bytes (s : String) : s.toList.length ≤ (utf8Bytes s).length := by
  rw [utf8Bytes]
  induction s.toList with
  | nil => simp
  | cons c cs ih =>
    have hc : (String.utf8EncodeChar c).length = c.utf8Size := String.length_utf8EncodeChar c
    have hpos := c.utf8Size_pos
    rw [List.flatMap_cons, List.length_append, List.length_cons]
    omega

/-- A plain name is one byte a character. -/
theorem utf8Bytes_of_ascii {cs : List Char} (h : ∀ c ∈ cs, c.toNat ≤ 0x7e) :
    cs.flatMap String.utf8EncodeChar = cs.map fun c => UInt8.ofNat c.toNat := by
  induction cs with
  | nil => rfl
  | cons c cs ih =>
    have hc : c.val.toNat ≤ 127 := Nat.le_trans (h c (by simp)) (by decide)
    rw [List.flatMap_cons, ih fun d hd => h d (by simp [hd]), List.map_cons,
      String.utf8EncodeChar, if_pos hc]
    rfl

/-- `iw` prints a name as it is exactly when there is nothing to escape. -/
theorem iwEscape_eq_iff (s : String) :
    iwEscape (utf8Bytes s) = s.toList ↔ iwVerbatim s = true := by
  constructor
  · intro heq
    have hpieces : ∀ p ∈ (utf8Bytes s).mapIdx fun i b => iwByte (isEdge (utf8Bytes s).length i) b,
        p.length = 1 := by
      refine length_eq_one_of_flatten ?_ ?_
      · intro p hp
        obtain ⟨i, hi, rfl⟩ := List.mem_mapIdx.mp hp
        exact iwByte_ne_nil _ _
      · rw [List.length_mapIdx]
        show (iwEscape (utf8Bytes s)).length ≤ _
        rw [heq]
        exact length_le_utf8Bytes s
    have hplain : ∀ c ∈ s.toList, 0x20 ≤ c.toNat ∧ c.toNat ≤ 0x7e ∧ c ≠ '\\' := by
      intro c hc
      rw [← heq] at hc
      obtain ⟨p, hp, hcp⟩ := List.mem_flatten.mp hc
      have hone := hpieces p hp
      obtain ⟨i, hi, rfl⟩ := List.mem_mapIdx.mp hp
      exact iwByte_length_one hone c hcp
    have hhead : s.toList.head? ≠ some ' ' := by
      intro hsp
      rw [← heq] at hsp
      exact absurd (iwEscape_head _ _ hsp) (by decide)
    have hlast : s.toList.getLast? ≠ some ' ' := by
      intro hsp
      rw [← heq] at hsp
      exact absurd (iwEscape_last _ _ hsp) (by decide)
    simp only [iwVerbatim, Bool.and_eq_true, List.all_eq_true, decide_eq_true_eq]
    exact ⟨⟨fun c hc => ⟨⟨(hplain c hc).1, (hplain c hc).2.1⟩, (hplain c hc).2.2⟩, hhead⟩, hlast⟩
  · intro h
    simp only [iwVerbatim, Bool.and_eq_true, List.all_eq_true, decide_eq_true_eq] at h
    obtain ⟨⟨hplain, hhead⟩, hlast⟩ := h
    have hbytes : utf8Bytes s = s.toList.map fun c => UInt8.ofNat c.toNat :=
      utf8Bytes_of_ascii fun c hc => (hplain c hc).1.2
    have hpieces : (utf8Bytes s).mapIdx (fun i b => iwByte (isEdge (utf8Bytes s).length i) b) =
        s.toList.map fun c => [c] := by
      simp only [hbytes, List.length_map]
      refine List.ext_getElem (by simp) fun i hi hi' => ?_
      have hlen : i < s.toList.length := by simpa using hi'
      obtain ⟨⟨hlo, hhi⟩, hslash⟩ := hplain _ (List.getElem_mem hlen)
      have hnat : (UInt8.ofNat (s.toList[i]).toNat).toNat = (s.toList[i]).toNat := by
        rw [UInt8.toNat_ofNat']
        omega
      have hslash' : (s.toList[i]).toNat ≠ 0x5c := by
        intro hc
        exact hslash (Char.toNat_inj.mp hc)
      have hedge : (s.toList[i]).toNat = 0x20 → isEdge s.toList.length i = false := by
        intro hc
        have hsp : s.toList[i] = ' ' := Char.toNat_inj.mp hc
        rw [isEdge, Bool.or_eq_false_iff]
        refine ⟨decide_eq_false ?_, decide_eq_false ?_⟩
        · rintro rfl
          exact hhead (by rw [List.head?_eq_getElem?, List.getElem?_eq_getElem hlen, hsp])
        · intro hi1
          refine hlast ?_
          rw [List.getLast?_eq_getElem?, ← hi1, Nat.add_sub_cancel,
            List.getElem?_eq_getElem hlen, hsp]
      rw [List.getElem_mapIdx, List.getElem_map, List.getElem_map, iwByte, hnat, if_pos,
        Char.ofNat_toNat]
      by_cases hsp : (s.toList[i]).toNat = 0x20
      · exact Or.inr ⟨hsp, hedge hsp⟩
      · exact Or.inl ⟨by omega, hhi, hslash'⟩
    rw [iwEscape, hpieces]
    exact List.flatMap_singleton' _

end Caspian.Netcfg
