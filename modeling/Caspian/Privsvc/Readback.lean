import Caspian.Netcfg.IwListing
import Caspian.Hotspot.ApConfig

/-!
# Reading the access point back

After `hostapd` is started the service asks the kernel whether the hotspot
interface is an access point and broadcasts the name it was given, and tears
everything down when the answer is no.  The status page asks the same of the
last detection.  Both compare the name the user chose with the name as
`iw dev` prints it, so both recognise the access point exactly when `iw`
prints that name as it is.
-/

namespace Caspian.Privsvc

open Verified Netcfg Hotspot

/-- `hotspotOnTheAir`: whether the interface is an access point with that
name, and whether the detection says anything about it. -/
def hotspotOnTheAir (f : Facts) (iface ssid : String) : Bool × Bool :=
  if iface = "" then (false, false)
  else
    match f.wirelessByName iface with
    | none => (false, false)
    | some w => (w.isAccessPoint && (ssid = "" || w.ssid = ssid), true)

/-! ## What the listing says about one interface -/

/-- The names a stanza prints. -/
def ssids (st : IwStanza) : List String :=
  st.entries.filterMap fun e =>
    match e with
    | .ssid name => some name
    | _ => none

/-- The types a stanza prints. -/
def types (st : IwStanza) : List String :=
  st.entries.filterMap fun e =>
    match e with
    | .type kind => some kind
    | _ => none

/-- The stanza is that of an access point with this name. -/
def Serves (st : IwStanza) (ssid : String) : Prop := types st = ["AP"] ∧ ssids st = [ssid]

instance (st : IwStanza) (ssid : String) : Decidable (Serves st ssid) :=
  inferInstanceAs (Decidable (_ ∧ _))

variable {w : WirelessIface}

/-- A field that is neither a type nor a name leaves both alone. -/
theorem iwField_other {t : List Char} (htype : (Text.fields t).head? ≠ some "type".toList)
    (hssid : (Text.fields t).head? ≠ some "ssid".toList) :
    (iwField w t).name = w.name ∧ (iwField w t).type = w.type ∧ (iwField w t).ssid = w.ssid := by
  unfold iwField
  split
  next key value rest hfields =>
    rw [hfields, List.head?_cons] at htype hssid
    rw [if_neg fun h => htype (congrArg some h), if_neg fun h => hssid (congrArg some h)]
    split_ifs <;> exact ⟨rfl, rfl, rfl⟩
  next => exact ⟨rfl, rfl, rfl⟩

/-- The interface a stanza describes carries the last type and the last name
the stanza prints. -/
theorem foldl_apply {es : List IwEntry} (h : ∀ e ∈ es, e.wf = true) (w : WirelessIface) :
    (es.foldl IwEntry.apply w).name = w.name ∧
      (es.foldl IwEntry.apply w).type = (types ⟨none, es⟩).getLast?.getD w.type ∧
      (es.foldl IwEntry.apply w).ssid =
        ((ssids ⟨none, es⟩).getLast?.map fun s =>
          String.ofList (iwEscape (utf8Bytes s))).getD w.ssid := by
  induction es using List.reverseRecOn with
  | nil => exact ⟨rfl, rfl, rfl⟩
  | append_singleton es e ih =>
    obtain ⟨hname, htype, hssid⟩ := ih fun e' he' => h e' (by simp [he'])
    have he := h e (by simp)
    rw [List.foldl_append, List.foldl_cons, List.foldl_nil]
    simp only [types, ssids, List.filterMap_append] at htype hssid ⊢
    cases e with
    | ssid s => exact ⟨hname, by simpa [IwEntry.apply] using htype, by simp [IwEntry.apply]⟩
    | type kind => exact ⟨hname, by simp [IwEntry.apply], by simpa [IwEntry.apply] using hssid⟩
    | other text =>
      simp only [IwEntry.wf, Bool.and_eq_true, decide_eq_true_eq] at he
      obtain ⟨hn, ht, hs⟩ := @iwField_other (es.foldl IwEntry.apply w)
        (iwTrimmed ("\t\t".toList ++ text.toList)) he.1.2 he.2
      exact ⟨hn.trans hname, by simpa [IwEntry.apply] using ht.trans htype,
        by simpa [IwEntry.apply] using hs.trans hssid⟩

/-- The first interface of a name is that of the first stanza of the name. -/
theorem find_filterMap_iface {sts : List IwStanza} (hwf : ∀ st ∈ sts, st.wf = true)
    {phy name : String} :
    (sts.filterMap (IwStanza.iface phy)).find? (·.name = name) =
      (sts.find? (·.name = some name)).bind (IwStanza.iface phy) := by
  induction sts with
  | nil => rfl
  | cons st sts ih =>
    have hrest := ih fun st' hst' => hwf st' (by simp [hst'])
    obtain ⟨label, entries⟩ := st
    cases label with
    | none => simpa [IwStanza.iface] using hrest
    | some label =>
      have hst := hwf ⟨some label, entries⟩ (by simp)
      simp only [IwStanza.wf, Bool.and_eq_true, List.all_eq_true] at hst
      have hname := (foldl_apply hst.2 { name := label, phy := phy }).1
      by_cases hl : label = name
      · subst hl
        simp [IwStanza.iface, hname]
      · simpa [IwStanza.iface, hname, hl] using hrest

variable {rs : List IwRadio}

theorem find_listed (hwf : ∀ r ∈ rs, ∀ st ∈ r.stanzas, st.wf = true) {name : String} {st : IwStanza}
    (hst : (rs.flatMap IwRadio.stanzas).find? (·.name = some name) = some st) :
    ∃ phy, (rs.flatMap IwRadio.ifaces).find? (·.name = name) = st.iface phy := by
  induction rs with
  | nil => cases hst
  | cons r rs ih =>
    have hradio := @find_filterMap_iface r.stanzas (hwf r (by simp)) ("phy" ++ Netip.itoa r.index) name
    rw [List.flatMap_cons, List.find?_append] at hst ⊢
    rw [show r.ifaces = r.stanzas.filterMap (IwStanza.iface ("phy" ++ Netip.itoa r.index)) from rfl,
      hradio]
    cases hfind : r.stanzas.find? (·.name = some name) with
    | none =>
      rw [hfind, Option.none_or] at hst
      simpa using ih (fun r' hr' => hwf r' (by simp [hr'])) hst
    | some st' =>
      rw [hfind, Option.some_or] at hst
      obtain rfl : st' = st := Option.some.inj hst
      have hname : st'.name = some name := by simpa using List.find?_some hfind
      refine ⟨"phy" ++ Netip.itoa r.index, ?_⟩
      simp [IwStanza.iface, hname]

/-- What the parser says about an access point that is on the air. -/
structure OnAir (w : WirelessIface) (name ssid : String) : Prop where
  name_eq : w.name = name
  type_eq : w.type = "AP"
  ssid_eq : w.ssid = String.ofList (iwEscape (utf8Bytes ssid))

variable {ssid : String}

theorem find_onAir (hwf : ∀ r ∈ rs, ∀ st ∈ r.stanzas, st.wf = true) {name : String} {st : IwStanza}
    (hst : (rs.flatMap IwRadio.stanzas).find? (·.name = some name) = some st)
    (hserves : Serves st ssid) :
    ∃ w, (rs.flatMap IwRadio.ifaces).find? (·.name = name) = some w ∧ OnAir w name ssid := by
  obtain ⟨phy, hfind⟩ := find_listed hwf hst
  have hname : st.name = some name := by simpa using List.find?_some hst
  obtain ⟨r, hr, hmem⟩ := List.mem_flatMap.mp (List.mem_of_find?_eq_some hst)
  have hentries := (Bool.and_eq_true_iff.mp (hwf r hr st hmem)).2
  obtain ⟨hn, ht, hs⟩ := foldl_apply (List.all_eq_true.mp hentries) { name := name, phy := phy }
  have htypes : types ⟨none, st.entries⟩ = ["AP"] := hserves.1
  have hssids : ssids ⟨none, st.entries⟩ = [ssid] := hserves.2
  rw [htypes] at ht
  rw [hssids] at hs
  rw [IwStanza.iface, hname] at hfind
  exact ⟨_, hfind, hn, ht, hs⟩

theorem OnAir.isAccessPoint {name : String} (h : OnAir w name ssid) : w.isAccessPoint = true := by
  rw [WirelessIface.isAccessPoint, h.type_eq]
  decide

/-- The name read back is the name given exactly when nothing in it is
escaped. -/
theorem OnAir.ssid_eq_iff {name : String} (h : OnAir w name ssid) :
    w.ssid = ssid ↔ iwVerbatim ssid = true := by
  rw [h.ssid_eq, ← iwEscape_eq_iff]
  constructor
  · intro heq
    rw [← heq, String.toList_ofList, heq]
  · intro heq
    rw [heq, String.ofList_toList]

/-! ## The two readbacks -/

/-- `iw dev` answers with this listing. -/
def Lists (run : Command → Reply) (rs : List IwRadio) : Prop :=
  ∀ why, run { path := binIw, args := ["dev"], why := why } = ({ stdout := iwDevText rs }, none)

theorem assert_ok_iff {run : Command → Reply} (hrun : Lists run rs)
    (hwf : ∀ r ∈ rs, ∀ st ∈ r.stanzas, st.wf = true) {p : Netcfg.Plan} (hp : p.hotspot ≠ "")
    (hne : ssid ≠ "") (hfind : (rs.flatMap IwRadio.ifaces).find? (·.name = p.hotspot) = some w)
    (hair : OnAir w p.hotspot ssid) :
    linuxAssertHotspotIsAccessPoint run p ssid = .ok () ↔ iwVerbatim ssid = true := by
  have hread : readWireless run p.hotspot = .ok w := by
    simp only [readWireless, iwDevReadback, hrun _, parseIwDev_text hwf, hfind]
  rw [linuxAssertHotspotIsAccessPoint, if_neg hp, hread, ← hair.ssid_eq_iff]
  show (if w.isAccessPoint = false then _ else _) = Except.ok () ↔ _
  rw [hair.isAccessPoint, if_neg Bool.noConfusion]
  by_cases hs : w.ssid = ssid
  · simp [hs]
  · simp [hs, hne]

/-- Detection keeps what `iw dev` said about an access point. -/
theorem detect_onAir {run : Command → Reply} (hrun : Lists run rs)
    (hwf : ∀ r ∈ rs, ∀ st ∈ r.stanzas, st.wf = true) (probe : String → Option LinkState)
    (owner : String → InterfaceManager) {name : String}
    (hfind : (rs.flatMap IwRadio.ifaces).find? (·.name = name) = some w)
    (hair : OnAir w name ssid) :
    ∃ w', (detectWireless run probe owner).find? (·.name = name) = some w' ∧
      OnAir w' name ssid := by
  have hsame : ∀ v : WirelessIface, (v.withLink probe).name = v.name := by
    intro v
    unfold WirelessIface.withLink
    split
    · rfl
    · split <;> rfl
  have hmap : detectWireless run probe owner =
      (rs.flatMap IwRadio.ifaces).map fun v =>
        { v.withLink probe with manager := owner v.name } := by
    simp only [detectWireless, iwDevDetect, hrun _, parseIwDev_text hwf]
  refine ⟨{ w.withLink probe with manager := owner w.name }, ?_, ?_⟩
  · rw [hmap, List.find?_map]
    simp only [Function.comp_def, hsame]
    rw [hfind]
    rfl
  · rw [WirelessIface.withLink, if_pos hair.isAccessPoint]
    exact ⟨hair.name_eq, hair.type_eq, hair.ssid_eq⟩

theorem onTheAir_iff {f : Facts} {name : String} (hname : name ≠ "") (hne : ssid ≠ "")
    (hfind : f.wirelessByName name = some w) (hair : OnAir w name ssid) :
    hotspotOnTheAir f name ssid = (true, true) ↔ iwVerbatim ssid = true := by
  rw [hotspotOnTheAir, if_neg hname, hfind, ← hair.ssid_eq_iff]
  simp [hair.isAccessPoint, hne]

/-- Both readbacks recognise an access point that is on the air exactly when
its name is one `iw` prints as it is. -/
theorem hotspot_recognised_iff {run : Command → Reply} {rs : List IwRadio} {st : IwStanza}
    {p : Netcfg.Plan} {ap : APConfig} {f : Facts} {probe : String → Option LinkState}
    {owner : String → InterfaceManager} (hap : ap.validate false = .ok ())
    (hwf : ∀ r ∈ rs, ∀ st ∈ r.stanzas, st.wf = true) (hrun : Lists run rs)
    (hst : (rs.flatMap IwRadio.stanzas).find? (·.name = some p.hotspot) = some st)
    (hserves : Serves st ap.ssid) (hf : f.wireless = detectWireless run probe owner) :
    (linuxAssertHotspotIsAccessPoint run p ap.ssid = .ok () ∧
      hotspotOnTheAir f p.hotspot ap.ssid = (true, true)) ↔ iwVerbatim ap.ssid = true := by
  have hssid : ap.ssid ≠ "" := validSSID_ne_empty (APConfig.validate_ok hap).1
  have hname : st.name = some p.hotspot := by simpa using List.find?_some hst
  have hvalid : validInterfaceName p.hotspot = true := by
    obtain ⟨r, hr, hmem⟩ := List.mem_flatMap.mp (List.mem_of_find?_eq_some hst)
    have hlabel := (Bool.and_eq_true_iff.mp (hwf r hr st hmem)).1
    rw [hname] at hlabel
    exact hlabel
  have hhotspot : p.hotspot ≠ "" := by
    intro hempty
    rw [hempty] at hvalid
    exact absurd hvalid (by decide)
  obtain ⟨w, hfind, hair⟩ := find_onAir hwf hst hserves
  obtain ⟨w', hfind', hair'⟩ := detect_onAir hrun hwf probe owner hfind hair
  have hfacts : f.wirelessByName p.hotspot = some w' := by
    rw [Facts.wirelessByName, hf]
    exact hfind'
  rw [assert_ok_iff hrun hwf hhotspot hssid hfind hair,
    onTheAir_iff hhotspot hssid hfacts hair', and_self]

/-! ### A name with an accent -/

/-- An interface that runs an access point of this name. -/
def servingStanza (ssid : String) : IwStanza where
  name := some "wlan0"
  entries :=
    [.other "ifindex 3", .other "wdev 0x1", .other "addr 02:00:5e:01:00:11", .ssid ssid, .type "AP",
      .other "channel 6 (2437 MHz), width: 20 MHz, center1: 2437 MHz"]

def servingListing (ssid : String) : List IwRadio :=
  [{ index := 0, stanzas := [servingStanza ssid] }]

theorem servingListing_wf (h : ssid ≠ "") :
    ∀ r ∈ servingListing ssid, ∀ st ∈ r.stanzas, st.wf = true := by
  intro r hr st hst
  obtain rfl := List.mem_singleton.mp hr
  obtain rfl := List.mem_singleton.mp hst
  have hssid : (IwEntry.ssid ssid).wf = true := decide_eq_true h
  have hother : ∀ t ∈ ["ifindex 3", "wdev 0x1", "addr 02:00:5e:01:00:11",
      "channel 6 (2437 MHz), width: 20 MHz, center1: 2437 MHz"], (IwEntry.other t).wf = true := by
    decide +kernel
  have htype : (IwEntry.type "AP").wf = true := by decide
  have hname : validInterfaceName "wlan0" = true := by decide
  simp [servingStanza, IwStanza.wf, hname, hssid, htype, hother]

def servingRun (ssid : String) (c : Command) : Reply :=
  if c.path = binIw ∧ c.args = ["dev"] then ({ stdout := iwDevText (servingListing ssid) }, none)
  else ({}, some "no such command")

def servingConfig (ssid : String) : APConfig where
  interface := "wlan0"
  ssid := ssid
  passphrase := "correct horse"
  countryCode := "GB"
  channel := 6
  band := .band2GHz

def servingPlan : Netcfg.Plan := { hotspot := "wlan0" }

/-- The detection of that machine. -/
def servingFacts (ssid : String) : Facts where
  wireless := detectWireless (servingRun ssid) (fun _ => none) fun _ => .nothing

theorem servingFacts_wireless (ssid : String) :
    (servingFacts ssid).wireless =
      detectWireless (servingRun ssid) (fun _ => none) fun _ => .nothing := by
  rw [servingFacts]

theorem hotspot_recognised_ascii :
    linuxAssertHotspotIsAccessPoint (servingRun "Caspian Hotspot") servingPlan "Caspian Hotspot" =
        .ok () ∧
      hotspotOnTheAir (servingFacts "Caspian Hotspot") "wlan0" "Caspian Hotspot" =
        (true, true) := by
  have hiff := @hotspot_recognised_iff (servingRun "Caspian Hotspot")
    (servingListing "Caspian Hotspot") (servingStanza "Caspian Hotspot") servingPlan
    (servingConfig "Caspian Hotspot") (servingFacts "Caspian Hotspot") (fun _ => none)
    (fun _ => .nothing) (by decide +kernel) (servingListing_wf (by decide)) (fun _ => rfl) rfl
    (by decide +kernel) (servingFacts_wireless _)
  exact hiff.mpr (by decide +kernel)

theorem hotspot_unrecognised_accent :
    (servingConfig "Café").validate false = .ok () ∧
      (∀ r ∈ servingListing "Café", ∀ st ∈ r.stanzas, st.wf = true) ∧
      Serves (servingStanza "Café") "Café" ∧
      Lists (servingRun "Café") (servingListing "Café") ∧
      linuxAssertHotspotIsAccessPoint (servingRun "Café") servingPlan "Café" =
        .error (.notAccessPoint
          "wlan0 is an access point but broadcasts \"Caf\\\\xc3\\\\xa9\", not \"Café\"") ∧
      hotspotOnTheAir (servingFacts "Café") "wlan0" "Café" = (false, true) := by
  exact ⟨by decide +kernel, servingListing_wf (by decide), by decide +kernel, fun _ => rfl,
    by decide +kernel, by decide +kernel⟩

end Caspian.Privsvc
