import Caspian.Link.Conf

set_option linter.dupNamespace false

/-!
# One outbound, checked and described

`Link.fill` runs every check the engine would not run, or run too late, and
reads the description off the outbound: the chain check, the flat form of the
settings, address, port and id, the corrections for TLS, the transport and the
security layer.  `XrayConfig` writes the document the engine is given.
-/

namespace Caspian.Link

open Verified Verified.Json

/-! ## Errors -/

inductive LinkError where
  | empty
  | unsupportedScheme (scheme : List Char)
  | noLink
  | badUUID (protocol : Protocol)
  | badAddress
  | badPort
  | badReality (detail : String)
  | unsupportedTransport
  | removedTransport (name : List Char) (replacement : String)
  | noProxyOutbound
  | chainedOutbound
  | manyServers
  | serialise
  /-- A nil pointer in a list of servers was followed. -/
  | nilServer
  deriving DecidableEq

/-! ## Values the engine would misread -/

/-- The length of a text in bytes. -/
def byteLen (s : List Char) : Nat := (s.map Char.utf8Size).sum

/-- A hexadecimal digit, as a byte. -/
def isHexDigit (c : Nat) : Bool :=
  (48 ≤ c && c ≤ 57) || (97 ≤ c && c ≤ 102) || (65 ≤ c && c ≤ 70)

/-- The loop over a dashed id: `i` is the byte a character starts at, and a
character is judged by its low byte. -/
def dashedUUID : Nat → List Char → Bool
  | _, [] => true
  | i, c :: cs =>
    (if i = 8 ∨ i = 13 ∨ i = 18 ∨ i = 23 then c = '-'
      else isHexDigit (c.toNat % 256)) &&
      dashedUUID (i + c.utf8Size) cs

/-- `validUUID`. -/
def validUUID (s : List Char) : Bool :=
  if byteLen s = 32 then s.all fun c => isHexDigit c.toNat
  else if byteLen s = 36 then dashedUUID 0 s
  else false

/-- `needsUUID`. -/
def needsUUID (p : Protocol) : Bool := p = .vless || p = .vmess

def isURLChar (c : Char) : Bool := c.isAlphanum || c = '-' || c = '_'

/-- The number of bytes unpadded URL-safe base64 decodes to; line ends are
skipped. -/
def rawURLLength (s : List Char) : Option Nat :=
  let cs := s.filter fun c => !(c = '\r' || c = '\n')
  if cs.all isURLChar && cs.length % 4 ≠ 1 then some (cs.length * 6 / 8) else none

/-- `checkShortID`. -/
def checkShortID (id : List Char) : Except LinkError Unit :=
  if id = [] then .ok ()
  else if 16 < byteLen id then
    .error (.badReality "the REALITY short id is longer than 16 characters")
  else if byteLen id % 2 ≠ 0 then
    .error (.badReality "the REALITY short id has an odd number of characters")
  else if id.all fun c => isHexDigit c.toNat then .ok ()
  else .error (.badReality "the REALITY short id is not hexadecimal")

/-- `checkReality`. -/
def checkReality (r : REALITYConfig) : Except LinkError Unit :=
  let key := if r.password ≠ [] then r.password else r.publicKey
  if key = [] then .error (.badReality "the REALITY public key is missing")
  else if rawURLLength key ≠ some 32 then
    .error (.badReality "the REALITY public key is not 32 bytes of base64url")
  else do
    checkShortID r.shortId
    if r.mldsa65Verify ≠ [] ∧ rawURLLength r.mldsa65Verify ≠ some 1952 then
      .error (.badReality "the REALITY post-quantum verify key is not 1952 bytes of base64url")
    else .ok ()

/-! ## The outbound -/

/-- `conf.OutboundDetourConfig`. -/
structure Outbound (E : Engine) where
  protocol : Protocol
  sendThrough : Option (List Char) := none
  tag : List Char := []
  settings : Option Json := none
  streamSetting : Option (StreamConfig E.Rest) := none
  proxySettings : Option ProxyConfig := none
  muxSettings : Option E.Mux := none
  targetStrategy : List Char := []

def outboundTag : List Char := "proxy".toList

section

variable {E : Engine}

/-- `checkChain`. -/
def checkChain (ob : Outbound E) : Except LinkError Unit :=
  if ob.proxySettings.any fun p => p.tag ≠ [] then .error .chainedOutbound
  else if ob.streamSetting.any fun s => s.socketSettings.any fun o => o.dialerProxy ≠ [] then
    .error .chainedOutbound
  else .ok ()

/-! ### The flat form of the settings -/

/-- The one server of a list. -/
def oneServer : List (Option Server) → Except LinkError Server
  | [some s] => .ok s
  | [none] => .error .nilServer
  | _ => .error .manyServers

def uint32Field (field : List Char) (fields : List Field) : Option UInt32 :=
  (uintField 32 field fields).map UInt32.ofNat

/-- The user object of a VLESS server. -/
def vlessUser (E : Engine) (x : Json) : Option VLessUser := do
  let fields ← objectMembers x
  let level ← uint32Field "level".toList fields
  let email ← stringField "email".toList fields
  let id ← stringField "id".toList fields
  let flow ← stringField "flow".toList fields
  let encryption ← stringField "encryption".toList fields
  let testpre ← uint32Field "testpre".toList fields
  let testseed ← E.seeds (matching "testseed".toList fields)
  return { level, email, id, flow, encryption, testpre, testseed }

/-- The user object of a VMess server. -/
def vmessUser (x : Json) : Option VMessUser := do
  let fields ← objectMembers x
  let level ← uint32Field "level".toList fields
  let email ← stringField "email".toList fields
  let id ← stringField "id".toList fields
  let security ← stringField "security".toList fields
  let experiments ← stringField "experiments".toList fields
  return { level, email, id, security, experiments }

/-- The user object of a SOCKS server. -/
def socksUser (x : Json) : Option SocksUser := do
  let fields ← objectMembers x
  let level ← uint32Field "level".toList fields
  let email ← stringField "email".toList fields
  let username ← stringField "user".toList fields
  let password ← stringField "pass".toList fields
  return { level, email, username, password }

/-- The one user of a server, decoded. -/
def oneUser {α : Type} (decode : Json → Option α) : List Json → Except LinkError α
  | [x] =>
    match decode x with
    | some u => .ok u
    | none => .error .noLink
  | _ => .error .manyServers

/-- The flat record for a list of servers; `none` for a protocol without such a
list. -/
def flatClient (E : Engine) (p : Protocol) (servers : List (Option Server)) :
    Option (Except LinkError Client) :=
  match p with
  | .vless => some do
      let s ← oneServer servers
      let u ← oneUser (vlessUser E) s.users
      return .vless s u
  | .vmess => some do
      let s ← oneServer servers
      let u ← oneUser vmessUser s.users
      return .vmess s u
  | .trojan => some do
      let s ← oneServer servers
      return .trojan s
  | .shadowsocks => some do
      let s ← oneServer servers
      return .shadowsocks s
  | .socks => some do
      let s ← oneServer servers
      if s.users = [] then return .socks s {}
      else
        let u ← oneUser socksUser s.users
        return .socks s u
  | .hysteria => none

/-- The settings are in the flat form already, or name no server at all. -/
def isFlat (E : Engine) (p : Protocol) (fields : List Field) : Bool :=
  (pointerField "address".toList fields).isSome || (E.servers p fields).isEmpty

/-- `flattenSettings`. -/
def flattenSettings (ob : Outbound E) : Except LinkError (Outbound E) :=
  match ob.settings with
  | none => .ok ob
  | some raw =>
    if ob.protocol = .hysteria then .ok ob
    else
      match objectMembers raw with
      | none => .error .noLink
      | some fields =>
        if E.accepts ob.protocol fields = false then .error .noLink
        else if isFlat E ob.protocol fields then .ok ob
        else
          match flatClient E ob.protocol (E.servers ob.protocol fields) with
          | none => .ok ob
          | some (.error e) => .error e
          | some (.ok c) => .ok { ob with settings := some (obj (E.encodeClient c)) }

/-! ### Reading the settings back -/

structure OutboundSettings where
  address : List Char := []
  port : UInt16 := 0
  id : List Char := []
  deriving DecidableEq

/-- The settings read into `outboundSettings`. -/
def outboundSettings (raw : Json) : Option OutboundSettings := do
  let fields ← objectMembers raw
  let address ← stringField "address".toList fields
  let port ← uintField 16 "port".toList fields
  let id ← stringField "id".toList fields
  return { address, port := UInt16.ofNat port, id }

/-- The flow read out of the settings, empty when they cannot be read. -/
def settingsFlow (raw : Json) : List Char :=
  ((objectMembers raw).bind (stringField "flow".toList)).getD []

/-- `flowOf`. -/
def flowOf (ob : Outbound E) : List Char :=
  if ob.protocol = .vless then (ob.settings.map settingsFlow).getD [] else []

/-! ### Corrections -/

/-- `requireTLSForTrojan`. -/
def requireTLSForTrojan (ob : Outbound E) : Outbound E :=
  if ob.protocol = .trojan then
    let ss := ob.streamSetting.getD { rest := E.zeroRest }
    { ob with
      streamSetting := some
        (if ss.security = [] ∨ ss.security = "none".toList then
          { ss with security := "tls".toList }
        else ss) }
  else ob

/-- The server name of a TLS stream, the address when the link carried none. -/
def nameServer (address : List Char) (ss : StreamConfig E.Rest) : StreamConfig E.Rest :=
  if ss.security = "tls".toList then
    let tls := ss.tlsSettings.getD {}
    { ss with
      tlsSettings := some
        (if tls.serverName = [] then { tls with serverName := address } else tls) }
  else ss

/-- `fillMissingServerName`. -/
def fillMissingServerName (address : List Char) (ob : Outbound E) : Outbound E :=
  { ob with streamSetting := ob.streamSetting.map (nameServer address) }

/-! ## The link -/

inductive Security where
  | none
  | tls
  | reality
  deriving DecidableEq, Repr

structure Reality where
  hasPublicKey : Bool := false
  hasShortID : Bool := false
  hasMldsa65Verify : Bool := false
  deriving DecidableEq, Repr

/-- What a link says about its server. -/
structure Description where
  protocol : Protocol
  address : List Char
  port : UInt16
  network : List Char
  security : Security
  serverName : List Char
  fingerprint : List Char
  flow : List Char
  reality : Reality
  deriving DecidableEq

structure Link (E : Engine) where
  description : Description
  tag : List Char
  count : Nat
  index : Nat
  outbound : Outbound E

/-- The transport the stream settings name, `tcp` when they name none. -/
def networkOf (E : Engine) : Option (List Char) → Except LinkError (List Char)
  | none => .ok "tcp".toList
  | some name =>
    match E.transport name with
    | some network => .ok network
    | none => .error .unsupportedTransport

/-- The security layer of the stream settings, with its server name,
fingerprint and REALITY parameters. -/
def securityOf (ss : StreamConfig E.Rest) :
    Except LinkError (Security × List Char × List Char × Reality) :=
  if ss.security = "tls".toList then
    let tls := ss.tlsSettings.getD {}
    .ok (.tls, tls.serverName, tls.fingerprint, {})
  else if ss.security = "reality".toList then
    match ss.realitySettings with
    | none => .ok (.reality, [], [], {})
    | some r => do
        checkReality r
        return (.reality, r.serverName, r.fingerprint,
          { hasPublicKey := r.publicKey ≠ [] || r.password ≠ []
            hasShortID := r.shortId ≠ []
            hasMldsa65Verify := r.mldsa65Verify ≠ [] })
  else .ok (.none, [], [], {})

/-- `fillStream`. -/
def fillStream (s : OutboundSettings) (ob : Outbound E) : Except LinkError Description :=
  match ob.streamSetting with
  | none =>
    .ok { protocol := ob.protocol, address := s.address, port := s.port
          network := "tcp".toList, security := .none, serverName := [], fingerprint := []
          flow := flowOf ob, reality := {} }
  | some ss => do
      let network ← networkOf E ss.network
      let (security, serverName, fingerprint, reality) ← securityOf ss
      return { protocol := ob.protocol, address := s.address, port := s.port, network, security
               serverName, fingerprint, flow := flowOf ob, reality }

/-- The settings of an outbound read back, all empty when there are none. -/
def readSettings (ob : Outbound E) : Except LinkError OutboundSettings :=
  match ob.settings with
  | none => .ok {}
  | some raw =>
    match outboundSettings raw with
    | some s => .ok s
    | none => .error .noLink

/-- The checks on what was read. -/
def checkSettings (p : Protocol) (s : OutboundSettings) : Except LinkError Unit :=
  if s.address = [] then .error .badAddress
  else if s.port = 0 then .error .badPort
  else if needsUUID p && !validUUID s.id then .error (.badUUID p)
  else .ok ()

/-- `fill`: the outbound as it is kept, and its description. -/
def fill (ob : Outbound E) : Except LinkError (Outbound E × Description) := do
  checkChain ob
  let ob ← flattenSettings ob
  let s ← readSettings ob
  checkSettings ob.protocol s
  let ob := fillMissingServerName s.address (requireTLSForTrojan ob)
  let d ← fillStream s ob
  return (ob, d)

/-! ## The document -/

/-- The outbound as it is written: the tag is the fixed one and no address to
send from is given. -/
def Outbound.members (ob : Outbound E) : List Field :=
  [("protocol".toList, str ob.protocol.name), ("sendThrough".toList, null),
    ("tag".toList, str outboundTag), ("settings".toList, ob.settings.getD null),
    ("streamSettings".toList, ofRecord E.encodeStream ob.streamSetting),
    ("proxySettings".toList, ofRecord encodeProxy ob.proxySettings),
    ("mux".toList, ofRecord E.muxMembers ob.muxSettings),
    ("targetStrategy".toList, str ob.targetStrategy)]

/-- `xrayConfig`, the document before its nulls are dropped. -/
def Outbound.document (ob : Outbound E) : Json :=
  obj [("outbounds".toList, arr [obj ob.members])]

/-- `XrayConfig`. -/
def Link.xrayConfig (l : Link E) : Except LinkError (List Char) :=
  match parse (render l.outbound.document) with
  | some doc => .ok (render doc.dropNulls)
  | none => .error .serialise

end

end Caspian.Link
