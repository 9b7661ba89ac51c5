import Caspian.Verified.JsonRecord
import Caspian.Verified.Utf8

/-!
# The state file

`State` is everything the appliance keeps over a reboot.  Its texts are byte
strings, whatever somebody pasted or typed; the file holds them as JSON strings,
which are texts.  `encodeState` and `fillState` are what `encoding/json` does
with the struct tags: which fields are left out when they are empty, and how an
object fills a struct that already has values.  How a JSON value is laid out as
text is left to that library, and so is the text of a time, which `TimeFormat`
stands for.
-/

namespace Caspian.Persist

open Verified

abbrev Bytes := List UInt8

/-- The bytes of a constant of the source. -/
def ascii (s : String) : Bytes := Utf8.encode s.toList

/-! ## The structs -/

/-- `Quota`. -/
structure Quota where
  upload : Int64 := 0
  download : Int64 := 0
  total : Int64 := 0
  expire : Int64 := 0
  deriving DecidableEq

/-- `ProxyConfig`, with times of some type. -/
structure ProxyConfig (T : Type) where
  spoofSNI : Bytes := []
  tcpSplit : Bool := false
  tlsRecordSplit : Bool := false
  raw : Bytes := []
  scheme : Bytes := []
  label : Bytes := []
  selected : Int64 := 0
  addedAt : T
  subscriptionURL : Bytes := []
  refreshedAt : T
  quota : Quota := {}
  deriving DecidableEq

/-- `HotspotConfig`. -/
structure HotspotConfig where
  ssid : Bytes := []
  passphrase : Bytes := []
  deriving DecidableEq

/-- `PanelAuth`. -/
structure PanelAuth where
  passwordHash : Bytes := []
  deriving DecidableEq

/-- `Advanced`. -/
structure Advanced where
  internetInterface : Bytes := []
  hotspotInterface : Bytes := []
  channel : Int64 := 0
  band : Bytes := []
  country : Bytes := []
  subnet : Bytes := []
  dnsMode : Bytes := []
  onTunnelDown : Bytes := []
  clientIPv6 : Bytes := []
  engineLogLevel : Bytes := []
  panelOnLAN : Bool := false
  deriving DecidableEq

/-- `State`. -/
structure State (T : Type) where
  version : Int64 := 0
  proxy : ProxyConfig T
  hotspot : HotspotConfig := {}
  panel : PanelAuth := {}
  advanced : Advanced := {}
  updatedAt : T
  deriving DecidableEq

def currentVersion : Int64 := 5

def dnsModeTunnel : Bytes := ascii "tunnel"
def onTunnelDownBlock : Bytes := ascii "block"
def clientIPv6Block : Bytes := ascii "block"

/-- `IsConfigured`. -/
def ProxyConfig.isConfigured {T : Type} (p : ProxyConfig T) : Bool := p.raw ≠ []

/-- `HasSubscription`. -/
def ProxyConfig.hasSubscription {T : Type} (p : ProxyConfig T) : Bool := p.subscriptionURL ≠ []

/-- Times as they stand in the file.  What is assumed of the format is that a time
that can be written is read back as it was. -/
structure TimeFormat (T : Type) where
  zero : T
  format : T → Option (List Char)
  parse : List Char → Option T
  parse_format : ∀ {t text}, format t = some text → parse text = some t

section Codec

variable {T : Type} [DecidableEq T] (c : TimeFormat T)

/-- The state without any value. -/
def zeroState : State T := { proxy := { addedAt := c.zero, refreshedAt := c.zero }, updatedAt := c.zero }

/-- `defaultState`. -/
def defaultState : State T :=
  { zeroState c with
    version := currentVersion
    advanced :=
      { dnsMode := dnsModeTunnel, onTunnelDown := onTunnelDownBlock, clientIPv6 := clientIPv6Block } }

/-! ## Writing -/

def textEntry (name : String) (bs : Bytes) : List Char × Option Json :=
  (name.toList, some (.str (Utf8.lossy bs)))

/-- With `omitempty`. -/
def omitText (name : String) (bs : Bytes) : List Char × Option Json :=
  (name.toList, if bs = [] then none else some (.str (Utf8.lossy bs)))

def intEntry (name : String) (x : Int64) : List Char × Option Json :=
  (name.toList, some (.ofInt x.toInt))

def omitInt (name : String) (x : Int64) : List Char × Option Json :=
  (name.toList, if x = 0 then none else some (.ofInt x.toInt))

def omitFlag (name : String) (b : Bool) : List Char × Option Json :=
  (name.toList, if b then some (.bool true) else none)

def entry (name : String) (x : Option Json) : List Char × Option Json := (name.toList, x)

/-- A time, unless it has no text. -/
def encodeTime (t : T) : Option Json := (c.format t).map .str

/-- With `omitzero`. -/
def encodeOmitTime (t : T) : Option (Option Json) :=
  if t = c.zero then some none else (encodeTime c t).map some

def quotaEntries (q : Quota) : List (List Char × Option Json) :=
  [intEntry "upload" q.upload, intEntry "download" q.download, intEntry "total" q.total,
    intEntry "expire" q.expire]

def proxyEntries (p : ProxyConfig T) (addedAt refreshedAt : Option Json) :
    List (List Char × Option Json) :=
  [omitText "spoof_sni" p.spoofSNI, omitFlag "tcp_split" p.tcpSplit,
    omitFlag "tls_record_split" p.tlsRecordSplit, textEntry "raw" p.raw,
    omitText "scheme" p.scheme, omitText "label" p.label, intEntry "selected" p.selected,
    entry "added_at" addedAt, textEntry "subscriptionUrl" p.subscriptionURL,
    entry "refreshed_at" refreshedAt,
    entry "quota" (some (.obj (Json.written (quotaEntries p.quota))))]

def hotspotEntries (h : HotspotConfig) : List (List Char × Option Json) :=
  [omitText "ssid" h.ssid, textEntry "passphrase" h.passphrase]

def panelEntries (p : PanelAuth) : List (List Char × Option Json) :=
  [omitText "password_hash" p.passwordHash]

def advancedEntries (a : Advanced) : List (List Char × Option Json) :=
  [omitText "internet_interface" a.internetInterface,
    omitText "hotspot_interface" a.hotspotInterface, omitInt "channel" a.channel,
    omitText "band" a.band, omitText "country" a.country, omitText "subnet" a.subnet,
    textEntry "dns_mode" a.dnsMode, textEntry "on_tunnel_down" a.onTunnelDown,
    textEntry "client_ipv6" a.clientIPv6, omitText "engine_log_level" a.engineLogLevel,
    omitFlag "panel_on_lan" a.panelOnLAN]

def stateEntries (st : State T) (addedAt refreshedAt : Option Json) (updatedAt : Json) :
    List (List Char × Option Json) :=
  [intEntry "version" st.version,
    entry "proxy" (some (.obj (Json.written (proxyEntries st.proxy addedAt refreshedAt)))),
    entry "hotspot" (some (.obj (Json.written (hotspotEntries st.hotspot)))),
    entry "panel" (some (.obj (Json.written (panelEntries st.panel)))),
    entry "advanced" (some (.obj (Json.written (advancedEntries st.advanced)))),
    entry "updated_at" (some updatedAt)]

/-- What is written for a state; it fails on a time that has no text. -/
def encodeState (st : State T) : Option Json := do
  let addedAt ← encodeOmitTime c st.proxy.addedAt
  let refreshedAt ← encodeOmitTime c st.proxy.refreshedAt
  let updatedAt ← encodeTime c st.updatedAt
  return .obj (Json.written (stateEntries st addedAt refreshedAt updatedAt))

/-! ## Reading -/

def asBytes : Json → Option Bytes
  | .str s => some (Utf8.encode s)
  | _ => none

def asTime : Json → Option T
  | .str s => c.parse s
  | _ => none

abbrev Fields := List (List Char × Json)

def textField (name : String) (old : Bytes) (fields : Fields) : Option Bytes :=
  Json.plainField asBytes old (Json.matching name.toList fields)

def intField (name : String) (old : Int64) (fields : Fields) : Option Int64 :=
  Json.plainField Json.asInt64 old (Json.matching name.toList fields)

def flagField (name : String) (old : Bool) (fields : Fields) : Option Bool :=
  Json.plainField Json.asBool old (Json.matching name.toList fields)

def timeField (name : String) (old : T) (fields : Fields) : Option T :=
  Json.plainField (asTime c) old (Json.matching name.toList fields)

def structField {α : Type} (fill : α → Fields → Option α) (name : String) (old : α)
    (fields : Fields) : Option α :=
  Json.recordField fill old (Json.matching name.toList fields)

def fillQuota (q : Quota) (fields : Fields) : Option Quota := do
  let upload ← intField "upload" q.upload fields
  let download ← intField "download" q.download fields
  let total ← intField "total" q.total fields
  let expire ← intField "expire" q.expire fields
  return ⟨upload, download, total, expire⟩

def fillProxy (p : ProxyConfig T) (fields : Fields) : Option (ProxyConfig T) := do
  let spoofSNI ← textField "spoof_sni" p.spoofSNI fields
  let tcpSplit ← flagField "tcp_split" p.tcpSplit fields
  let tlsRecordSplit ← flagField "tls_record_split" p.tlsRecordSplit fields
  let raw ← textField "raw" p.raw fields
  let scheme ← textField "scheme" p.scheme fields
  let label ← textField "label" p.label fields
  let selected ← intField "selected" p.selected fields
  let addedAt ← timeField c "added_at" p.addedAt fields
  let subscriptionURL ← textField "subscriptionUrl" p.subscriptionURL fields
  let refreshedAt ← timeField c "refreshed_at" p.refreshedAt fields
  let quota ← structField fillQuota "quota" p.quota fields
  return ⟨spoofSNI, tcpSplit, tlsRecordSplit, raw, scheme, label, selected, addedAt,
    subscriptionURL, refreshedAt, quota⟩

def fillHotspot (h : HotspotConfig) (fields : Fields) : Option HotspotConfig := do
  let ssid ← textField "ssid" h.ssid fields
  let passphrase ← textField "passphrase" h.passphrase fields
  return ⟨ssid, passphrase⟩

def fillPanel (p : PanelAuth) (fields : Fields) : Option PanelAuth := do
  let passwordHash ← textField "password_hash" p.passwordHash fields
  return ⟨passwordHash⟩

def fillAdvanced (a : Advanced) (fields : Fields) : Option Advanced := do
  let internetInterface ← textField "internet_interface" a.internetInterface fields
  let hotspotInterface ← textField "hotspot_interface" a.hotspotInterface fields
  let channel ← intField "channel" a.channel fields
  let band ← textField "band" a.band fields
  let country ← textField "country" a.country fields
  let subnet ← textField "subnet" a.subnet fields
  let dnsMode ← textField "dns_mode" a.dnsMode fields
  let onTunnelDown ← textField "on_tunnel_down" a.onTunnelDown fields
  let clientIPv6 ← textField "client_ipv6" a.clientIPv6 fields
  let engineLogLevel ← textField "engine_log_level" a.engineLogLevel fields
  let panelOnLAN ← flagField "panel_on_lan" a.panelOnLAN fields
  return ⟨internetInterface, hotspotInterface, channel, band, country, subnet, dnsMode,
    onTunnelDown, clientIPv6, engineLogLevel, panelOnLAN⟩

/-- A state filled from the members of the file. -/
def fillState (st : State T) (fields : Fields) : Option (State T) := do
  let version ← intField "version" st.version fields
  let proxy ← structField (fillProxy c) "proxy" st.proxy fields
  let hotspot ← structField fillHotspot "hotspot" st.hotspot fields
  let panel ← structField fillPanel "panel" st.panel fields
  let advanced ← structField fillAdvanced "advanced" st.advanced fields
  let updatedAt ← timeField c "updated_at" st.updatedAt fields
  return ⟨version, proxy, hotspot, panel, advanced, updatedAt⟩

/-- What `Load` starts from: the defaults without the version and the policies,
which have to come from the file. -/
def blankState : State T :=
  { defaultState c with
    version := 0
    advanced :=
      { (defaultState c).advanced with dnsMode := [], onTunnelDown := [], clientIPv6 := [] } }

/-- `json.Unmarshal` of the file into that. -/
def decodeState (x : Json) : Option (State T) :=
  (Json.objectMembers x).bind fun fields => fillState c (blankState c) fields

end Codec

/-! ## What comes back -/

/-- The texts of a state after they were JSON strings. -/
def ProxyConfig.scrub {T : Type} (p : ProxyConfig T) : ProxyConfig T :=
  { p with
    spoofSNI := Utf8.scrub p.spoofSNI
    raw := Utf8.scrub p.raw
    scheme := Utf8.scrub p.scheme
    label := Utf8.scrub p.label
    subscriptionURL := Utf8.scrub p.subscriptionURL }

def HotspotConfig.scrub (h : HotspotConfig) : HotspotConfig :=
  ⟨Utf8.scrub h.ssid, Utf8.scrub h.passphrase⟩

def PanelAuth.scrub (p : PanelAuth) : PanelAuth := ⟨Utf8.scrub p.passwordHash⟩

def Advanced.scrub (a : Advanced) : Advanced :=
  { a with
    internetInterface := Utf8.scrub a.internetInterface
    hotspotInterface := Utf8.scrub a.hotspotInterface
    band := Utf8.scrub a.band
    country := Utf8.scrub a.country
    subnet := Utf8.scrub a.subnet
    dnsMode := Utf8.scrub a.dnsMode
    onTunnelDown := Utf8.scrub a.onTunnelDown
    clientIPv6 := Utf8.scrub a.clientIPv6
    engineLogLevel := Utf8.scrub a.engineLogLevel }

def State.scrub {T : Type} (st : State T) : State T :=
  { st with
    proxy := st.proxy.scrub
    hotspot := st.hotspot.scrub
    panel := st.panel.scrub
    advanced := st.advanced.scrub }

section Back

variable {T : Type} [DecidableEq T] {c : TimeFormat T} {fields : Fields} {name : String}

theorem textField_back {bs : Bytes}
    (h : Json.matching name.toList fields = (textEntry name bs).2.toList) (old : Bytes) :
    textField name old fields = some (Utf8.scrub bs) := by
  rw [textField, h]
  rfl

theorem omitText_back {bs : Bytes}
    (h : Json.matching name.toList fields = (omitText name bs).2.toList) :
    textField name [] fields = some (Utf8.scrub bs) := by
  rw [textField, h, omitText]
  split_ifs with hempty
  · rw [hempty]
    rfl
  · rfl

theorem intField_back {x : Int64}
    (h : Json.matching name.toList fields = (intEntry name x).2.toList) (old : Int64) :
    intField name old fields = some x := by
  rw [intField, h]
  simp [intEntry, Json.plainField, Json.isNull_ofInt, Json.asInt64_ofInt]

theorem omitInt_back {x : Int64}
    (h : Json.matching name.toList fields = (omitInt name x).2.toList) :
    intField name 0 fields = some x := by
  by_cases hzero : x = 0
  · rw [intField, h, omitInt, if_pos hzero, hzero]
    rfl
  · exact intField_back (h.trans (by rw [omitInt, if_neg hzero]; rfl)) 0

theorem omitFlag_back {b : Bool}
    (h : Json.matching name.toList fields = (omitFlag name b).2.toList) :
    flagField name false fields = some b := by
  rw [flagField, h]
  cases b <;> rfl

omit [DecidableEq T] in
theorem timeField_back {t : T} {x : Json} (htime : encodeTime c t = some x)
    (h : Json.matching name.toList fields = (entry name (some x)).2.toList) (old : T) :
    timeField c name old fields = some t := by
  rw [timeField, h]
  obtain ⟨text, htext, rfl⟩ := Option.map_eq_some_iff.mp htime
  simp [entry, Json.plainField, Json.isNull, asTime, c.parse_format htext]

theorem omitTime_back {t : T} {x : Option Json} (htime : encodeOmitTime c t = some x)
    (h : Json.matching name.toList fields = (entry name x).2.toList) :
    timeField c name c.zero fields = some t := by
  unfold encodeOmitTime at htime
  split_ifs at htime with hzero
  · cases htime
    rw [timeField, h, hzero]
    rfl
  · obtain ⟨y, hy, rfl⟩ := Option.map_eq_some_iff.mp htime
    exact timeField_back hy h c.zero

theorem structField_back {α : Type} {fill : α → Fields → Option α} {inner : Fields} {old b : α}
    (h : Json.matching name.toList fields = (entry name (some (.obj inner))).2.toList)
    (hfill : fill old inner = some b) :
    structField fill name old fields = some b := by
  rw [structField, h]
  simp [entry, Json.recordField, Json.objectMembers, hfill]

/-- A record whose names are apart fills as its entries say. -/
theorem filled_of_reads {α : Type} {fill : Fields → Option α} {b : α}
    {entries : List (List Char × Option Json)} (names : List String)
    (hnames : entries.map Prod.fst = names.map String.toList)
    (hapart : Json.Apart (names.map String.toList))
    (hfill : ∀ fields, (∀ e ∈ entries, Json.matching e.1 fields = e.2.toList) →
      fill fields = some b) :
    fill (Json.written entries) = some b :=
  hfill _ fun _ he => Json.matching_written (hnames ▸ hapart) he

theorem fillQuota_back (q old : Quota) :
    fillQuota old (Json.written (quotaEntries q)) = some q := by
  refine filled_of_reads ["upload", "download", "total", "expire"] rfl (by decide) ?_
  intro fields hreads
  simp only [quotaEntries, List.forall_mem_cons] at hreads
  obtain ⟨hupload, hdownload, htotal, hexpire, _⟩ := hreads
  simp [fillQuota, intField_back hupload, intField_back hdownload, intField_back htotal,
    intField_back hexpire]

theorem fillProxy_back {p : ProxyConfig T} {addedAt refreshedAt : Option Json}
    (hadded : encodeOmitTime c p.addedAt = some addedAt)
    (hrefreshed : encodeOmitTime c p.refreshedAt = some refreshedAt) :
    fillProxy c { addedAt := c.zero, refreshedAt := c.zero }
      (Json.written (proxyEntries p addedAt refreshedAt)) = some p.scrub := by
  refine filled_of_reads ["spoof_sni", "tcp_split", "tls_record_split", "raw", "scheme", "label",
    "selected", "added_at", "subscriptionUrl", "refreshed_at", "quota"] rfl (by decide) ?_
  intro fields hreads
  simp only [proxyEntries, List.forall_mem_cons] at hreads
  obtain ⟨hspoof, htcp, htls, hraw, hscheme, hlabel, hselected, haddedAt, hurl, hrefreshedAt,
    hquota, _⟩ := hreads
  simp [fillProxy, omitText_back hspoof, omitFlag_back htcp, omitFlag_back htls,
    textField_back hraw, omitText_back hscheme, omitText_back hlabel, intField_back hselected,
    omitTime_back hadded haddedAt, textField_back hurl, omitTime_back hrefreshed hrefreshedAt,
    structField_back hquota (fillQuota_back p.quota {}), ProxyConfig.scrub]

theorem fillHotspot_back (h : HotspotConfig) :
    fillHotspot {} (Json.written (hotspotEntries h)) = some h.scrub := by
  refine filled_of_reads ["ssid", "passphrase"] rfl (by decide) ?_
  intro fields hreads
  simp only [hotspotEntries, List.forall_mem_cons] at hreads
  simp [fillHotspot, omitText_back hreads.1, textField_back hreads.2.1, HotspotConfig.scrub]

theorem fillPanel_back (p : PanelAuth) :
    fillPanel {} (Json.written (panelEntries p)) = some p.scrub := by
  refine filled_of_reads ["password_hash"] rfl (by decide) ?_
  intro fields hreads
  simp only [panelEntries, List.forall_mem_cons] at hreads
  simp [fillPanel, omitText_back hreads.1, PanelAuth.scrub]

theorem fillAdvanced_back (a : Advanced) :
    fillAdvanced {} (Json.written (advancedEntries a)) = some a.scrub := by
  refine filled_of_reads ["internet_interface", "hotspot_interface", "channel", "band", "country",
    "subnet", "dns_mode", "on_tunnel_down", "client_ipv6", "engine_log_level", "panel_on_lan"] rfl
    (by decide) ?_
  intro fields hreads
  simp only [advancedEntries, List.forall_mem_cons] at hreads
  obtain ⟨hinternet, hhotspot, hchannel, hband, hcountry, hsubnet, hdns, hdown, hipv6, hlevel,
    hlan, _⟩ := hreads
  simp [fillAdvanced, omitText_back hinternet, omitText_back hhotspot, omitInt_back hchannel,
    omitText_back hband, omitText_back hcountry, omitText_back hsubnet, textField_back hdns,
    textField_back hdown, textField_back hipv6, omitText_back hlevel, omitFlag_back hlan,
    Advanced.scrub]

/-- A state is read back with its texts scrubbed, and is otherwise the same. -/
theorem decodeState_encodeState {st : State T} {x : Json} (h : encodeState c st = some x) :
    decodeState c x = some st.scrub := by
  obtain ⟨addedAt, hadded, h⟩ := Option.bind_eq_some_iff.mp h
  obtain ⟨refreshedAt, hrefreshed, h⟩ := Option.bind_eq_some_iff.mp h
  obtain ⟨updatedAt, hupdated, h⟩ := Option.bind_eq_some_iff.mp h
  cases h
  show fillState c (blankState c) (Json.written _) = some st.scrub
  refine filled_of_reads ["version", "proxy", "hotspot", "panel", "advanced", "updated_at"] rfl
    (by decide) ?_
  intro fields hreads
  simp only [stateEntries, List.forall_mem_cons] at hreads
  obtain ⟨hversion, hproxy, hhotspot, hpanel, hadvanced, hupdatedAt, _⟩ := hreads
  simp [fillState, blankState, defaultState, zeroState, intField_back hversion,
    structField_back hproxy (fillProxy_back hadded hrefreshed),
    structField_back hhotspot (fillHotspot_back st.hotspot),
    structField_back hpanel (fillPanel_back st.panel),
    structField_back hadvanced (fillAdvanced_back st.advanced),
    timeField_back hupdated hupdatedAt, State.scrub]

end Back

end Caspian.Persist
