import Caspian.Verified.JsonRecord
import Caspian.Verified.Utf8
import Caspian.Privsvc.Request

/-!
# One request on the socket

What `decodeRequest` makes of the bytes of a frame.  The decoder reads the
first value of the text into the request, refusing names it does not know, and
`More` is then asked whether anything follows.  `More` is made for the inside of
arrays and objects, so it also says no in front of a closing bracket or brace,
and what stands behind one is never looked at.

A document member that is an array of numbers is read as its bytes, a null among
them as zero; the decoder would leave there what an earlier document member of
the same request had.
-/

namespace Caspian.Privsvc

open Verified Verified.Outcome

/-! ## The request -/

/-- `panel.Action`, the ones `panel.Actions` names. -/
inductive PanelAction where
  | detect
  | status
  | start
  | stop
  | recover
  | engineLog
  | cut
  | restore
  | refresh
  deriving DecidableEq

def PanelAction.text : PanelAction → String
  | detect => "detect"
  | status => "status"
  | start => "start"
  | stop => "stop"
  | recover => "recover"
  | engineLog => "engine-log"
  | cut => "cut"
  | restore => "restore"
  | refresh => "refresh"

def actions : List PanelAction :=
  [.detect, .status, .start, .stop, .recover, .engineLog, .cut, .restore, .refresh]

/-- `panel.RefreshRequest`. -/
structure RefreshRequest where
  url : String := ""
  deriving DecidableEq

/-- `wireRequest`.  The action is whatever text was sent. -/
structure WireRequest where
  version : Int64 := 0
  action : String := ""
  start : Option StartRequest := none
  refresh : Option RefreshRequest := none
  deadlineUnixNano : Int64 := 0
  deriving DecidableEq

/-- The refusals `decodeRequest` sends. -/
inductive Refusal where
  | badJSON
  | badVersion
  | unknownAction
  | missingArg
  | unexpectedArg
  deriving DecidableEq

def protocolVersion : Int64 := 1

/-! ## Reading it -/

abbrev WireFields := List (List Char × Json)

/-- `DisallowUnknownFields`. -/
def onlyKnown (names : List String) (fields : WireFields) : Option Unit :=
  if fields.all fun f => names.any fun name => Json.folds name.toList f.1 then some () else none

def asText (x : Json) : Option String := (Json.asString x).map String.ofList

def textMember (name : String) (old : String) (fields : WireFields) : Option String :=
  Json.plainField asText old (Json.matching name.toList fields)

def flagMember (name : String) (old : Bool) (fields : WireFields) : Option Bool :=
  Json.plainField Json.asBool old (Json.matching name.toList fields)

def intMember (name : String) (old : Int64) (fields : WireFields) : Option Int64 :=
  Json.plainField Json.asInt64 old (Json.matching name.toList fields)

/-- A pointer to a record: a null clears it, an object fills what is there. -/
def pointerMember {α : Type} (blank : α) (fill : α → WireFields → Option α) :
    Option α → List Json → Option (Option α)
  | a, [] => some a
  | a, x :: xs =>
    if x.isNull then pointerMember blank fill none xs
    else (Json.objectMembers x).bind fun fields => (fill (a.getD blank) fields).bind fun b =>
      pointerMember blank fill (some b) xs

def base64Value (c : Char) : Option Nat :=
  if 'A' ≤ c ∧ c ≤ 'Z' then some (c.toNat - 65)
  else if 'a' ≤ c ∧ c ≤ 'z' then some (c.toNat - 71)
  else if '0' ≤ c ∧ c ≤ '9' then some (c.toNat + 4)
  else if c = '+' then some 62
  else if c = '/' then some 63
  else none

/-- `base64.StdEncoding`, line ends taken out. -/
def base64Bytes : List Char → Option (List UInt8)
  | [] => some []
  | [a, b, '=', '='] => do
      let a ← base64Value a
      let b ← base64Value b
      return [UInt8.ofNat (a * 4 + b / 16)]
  | [a, b, c, '='] => do
      let a ← base64Value a
      let b ← base64Value b
      let c ← base64Value c
      return [UInt8.ofNat (a * 4 + b / 16), UInt8.ofNat (b % 16 * 16 + c / 4)]
  | a :: b :: c :: d :: rest => do
      let a ← base64Value a
      let b ← base64Value b
      let c ← base64Value c
      let d ← base64Value d
      let bytes ← base64Bytes rest
      return UInt8.ofNat (a * 4 + b / 16) :: UInt8.ofNat (b % 16 * 16 + c / 4) ::
        UInt8.ofNat (c % 4 * 64 + d) :: bytes
  | _ => none

/-- A value of type `[]byte`. -/
def asDocument : Json → Option (List UInt8)
  | .null => some []
  | .str s => base64Bytes (s.filter fun c => c != '\r' && c != '\n')
  | .arr xs => xs.mapM fun x =>
    if x.isNull then some 0 else (Json.asUint 8 x).map UInt8.ofNat
  | _ => none

/-- The document: the last member stays, and all of them have to be readable. -/
def documentMember (name : String) (old : List UInt8) (fields : WireFields) :
    Option (List UInt8) :=
  (Json.matching name.toList fields).foldlM (fun _ x => asDocument x) old

def fillHotspotSpec (h : HotspotSpec) (fields : WireFields) : Option HotspotSpec := do
  onlyKnown ["SSID", "Passphrase", "Interface", "Channel", "Band", "Country", "Subnet"] fields
  let ssid ← textMember "SSID" h.ssid fields
  let passphrase ← textMember "Passphrase" h.passphrase fields
  let interface ← textMember "Interface" h.interface fields
  let channel ← intMember "Channel" (Int64.ofInt h.channel) fields
  let band ← textMember "Band" h.band fields
  let country ← textMember "Country" h.country fields
  let subnet ← textMember "Subnet" h.subnet fields
  return ⟨ssid, passphrase, interface, channel.toInt, band, country, subnet⟩

def fillNetworkSpec (n : NetworkSpec) (fields : WireFields) : Option NetworkSpec := do
  onlyKnown ["InternetInterface", "DNSMode", "OnTunnelDown", "ClientIPv6"] fields
  let internetInterface ← textMember "InternetInterface" n.internetInterface fields
  let dnsMode ← textMember "DNSMode" n.dnsMode fields
  let onTunnelDown ← textMember "OnTunnelDown" n.onTunnelDown fields
  let clientIPv6 ← textMember "ClientIPv6" n.clientIPv6 fields
  return ⟨internetInterface, dnsMode, onTunnelDown, clientIPv6⟩

def fillStartRequest (r : StartRequest) (fields : WireFields) : Option StartRequest := do
  onlyKnown ["SpoofSNI", "TCPSplit", "TLSRecordSplit", "ConfigJSON", "Hotspot", "Network",
    "EngineLogLevel"] fields
  let spoofSNI ← textMember "SpoofSNI" r.spoofSNI fields
  let tcpSplit ← flagMember "TCPSplit" r.tcpSplit fields
  let tlsRecordSplit ← flagMember "TLSRecordSplit" r.tlsRecordSplit fields
  let configJSON ← documentMember "ConfigJSON" r.configJSON fields
  let hotspot ← Json.recordField fillHotspotSpec r.hotspot
    (Json.matching "Hotspot".toList fields)
  let network ← Json.recordField fillNetworkSpec r.network
    (Json.matching "Network".toList fields)
  let engineLogLevel ← textMember "EngineLogLevel" r.engineLogLevel fields
  return ⟨spoofSNI, tcpSplit, tlsRecordSplit, configJSON, hotspot, network, engineLogLevel⟩

def fillRefreshRequest (r : RefreshRequest) (fields : WireFields) : Option RefreshRequest := do
  onlyKnown ["URL"] fields
  let url ← textMember "URL" r.url fields
  return ⟨url⟩

def fillWireRequest (r : WireRequest) (fields : WireFields) : Option WireRequest := do
  onlyKnown ["v", "action", "start", "refresh", "deadline_unix_nano"] fields
  let version ← intMember "v" r.version fields
  let action ← textMember "action" r.action fields
  let start ← pointerMember {} fillStartRequest r.start (Json.matching "start".toList fields)
  let refresh ← pointerMember {} fillRefreshRequest r.refresh
    (Json.matching "refresh".toList fields)
  let deadlineUnixNano ← intMember "deadline_unix_nano" r.deadlineUnixNano fields
  return ⟨version, action, start, refresh, deadlineUnixNano⟩

namespace Decoder

/-- `Decode`: the first value of the text, stored, and the text behind it. -/
def decode (text : List Char) : Option (WireRequest × List Char) :=
  (Json.value (2 * text.length + 2) text).bind fun v =>
    (Json.objectMembers v.1).bind fun fields =>
      (fillWireRequest {} fields).map fun req => (req, v.2)

def closing (c : Char) : Bool := c = ']' || c = '\x7d'

/-- `More`. -/
def more (rest : List Char) : Bool := (Json.skip rest).head?.any fun c => !closing c

end Decoder

def knownAction (a : String) : Bool := actions.any fun k => a = k.text

def wantStart (a : String) : Bool := a = PanelAction.start.text || a = PanelAction.recover.text
def wantRefresh (a : String) : Bool := a = PanelAction.refresh.text

def decodeRequest (payload : List UInt8) : Except Refusal WireRequest :=
  match Decoder.decode (Utf8.lossy payload) with
  | none => .error .badJSON
  | some (req, rest) =>
    if Decoder.more rest then .error .badJSON
    else if req.version ≠ protocolVersion then .error .badVersion
    else if !knownAction req.action then .error .unknownAction
    else if (wantStart req.action && req.start.isNone) ||
        (wantRefresh req.action && req.refresh.isNone) then .error .missingArg
    else if (!wantStart req.action && req.start.isSome) ||
        (!wantRefresh req.action && req.refresh.isSome) then .error .unexpectedArg
    else .ok req

/-! ## What is accepted -/

/-- The current version, a known action, and the argument it takes alone. -/
structure WireRequest.Proper (req : WireRequest) : Prop where
  version : req.version = protocolVersion
  action : knownAction req.action = true
  start : req.start.isSome = wantStart req.action
  refresh : req.refresh.isSome = wantRefresh req.action

/-- The value that the text begins with is followed by a closing bracket. -/
def ClosesAgain (text : List Char) : Prop :=
  ∃ n x rest, Json.value n text = some (x, rest) ∧
    ∃ c, (Json.skip rest).head? = some c ∧ Decoder.closing c = true

theorem decodeRequest_ok {payload : List UInt8} {req : WireRequest}
    (h : decodeRequest payload = .ok req) :
    ∃ rest, Decoder.decode (Utf8.lossy payload) = some (req, rest) ∧
      Decoder.more rest = false ∧ req.Proper := by
  unfold decodeRequest at h
  split at h
  next => cases h
  next req' rest hdecode =>
    obtain ⟨hmore, h⟩ := guard_ok h
    obtain ⟨hversion, h⟩ := guard_ok h
    obtain ⟨haction, h⟩ := guard_ok h
    obtain ⟨hmissing, h⟩ := guard_ok h
    obtain ⟨hunexpected, h⟩ := guard_ok h
    cases h
    refine ⟨rest, hdecode, by simpa using hmore, not_not.mp hversion, by simpa using haction,
      ?_, ?_⟩
    · cases hs : req.start <;> cases hw : wantStart req.action <;> simp_all
    · cases hs : req.refresh <;> cases hw : wantRefresh req.action <;> simp_all

/-- A null fills nothing, so what is accepted was read from an object. -/
theorem Decoder.decode_object {text rest : List Char} {req : WireRequest}
    (h : decode text = some (req, rest)) (hversion : req.version = protocolVersion) :
    ∃ fields, Json.value (2 * text.length + 2) text = some (.obj fields, rest) := by
  obtain ⟨⟨x, rest'⟩, hvalue, h⟩ := Option.bind_eq_some_iff.mp h
  obtain ⟨fields, hfields, h⟩ := Option.bind_eq_some_iff.mp h
  obtain ⟨req', hfill, heq⟩ := Option.map_eq_some_iff.mp h
  cases heq
  cases x with
  | obj members => exact ⟨members, hvalue⟩
  | null =>
    cases hfields
    cases hfill
    exact absurd hversion (by decide)
  | _ => cases hfields

/-- **What an accepted payload is.**  Its request has the current version, a
known action and exactly that action's argument; and it is one object and
nothing else exactly if no closing bracket follows the value it begins with. -/
theorem decodeRequest_one_object_iff {payload : List UInt8} {req : WireRequest}
    (h : decodeRequest payload = .ok req) :
    req.Proper ∧
      ((∃ fields, Json.parse (Utf8.lossy payload) = some (.obj fields)) ↔
        ¬ClosesAgain (Utf8.lossy payload)) := by
  obtain ⟨rest, hdecode, hmore, hproper⟩ := decodeRequest_ok h
  obtain ⟨members, hvalue⟩ := Decoder.decode_object hdecode hproper.version
  refine ⟨hproper, ?_, ?_⟩
  · rintro ⟨fields, hparse⟩ ⟨n, x, rest', hv, c, hc, -⟩
    obtain ⟨m, blank, hv', hblank⟩ := Json.value_of_parse hparse
    -- Both readings are the one with more fuel.
    have heq := (Json.value_mono (Nat.le_max_left n m) hv).symm.trans
      (Json.value_mono (Nat.le_max_right n m) hv')
    cases heq
    rw [hblank] at hc
    cases hc
  · intro hcloses
    refine ⟨members, ?_⟩
    have hend : Json.skip rest = [] := by
      cases hs : Json.skip rest with
      | nil => rfl
      | cons c cs =>
        have hclosing : Decoder.closing c = true := by simpa [Decoder.more, hs] using hmore
        exact absurd ⟨_, _, _, hvalue, c, by rw [hs]; rfl, hclosing⟩ hcloses
    rw [Json.parse, hvalue]
    simp [hend]

/-- A request to stop, and what follows it on the line. -/
def stopPayload (tail : String) : List UInt8 :=
  Utf8.encode ("\x7b\"v\":1,\"action\":\"stop\"\x7d" ++ tail).toList

def stopRequest : WireRequest := { version := 1, action := "stop" }

theorem stop_one_object :
    decodeRequest (stopPayload "\n") = .ok stopRequest ∧
      ((∃ fields, Json.parse (Utf8.lossy (stopPayload "\n")) = some (.obj fields)) ↔
        ¬ClosesAgain (Utf8.lossy (stopPayload "\n"))) := by
  have h : decodeRequest (stopPayload "\n") = .ok stopRequest := by
    rw [decodeRequest, stopPayload, Utf8.lossy_encode]
    decide +kernel
  exact ⟨h, (decodeRequest_one_object_iff h).2⟩

/-- The first request with a second one behind a stray bracket. -/
def hiddenPayload : List UInt8 := stopPayload "]\x7b\"v\":1,\"action\":\"cut\"\x7d"

theorem second_request_hidden :
    decodeRequest hiddenPayload = .ok stopRequest ∧
      (Json.parse (Utf8.lossy hiddenPayload)).isNone = true := by
  rw [decodeRequest, hiddenPayload, stopPayload, Utf8.lossy_encode]
  decide +kernel

end Caspian.Privsvc
