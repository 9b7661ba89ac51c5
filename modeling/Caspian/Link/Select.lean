import Caspian.Link.Outbound

set_option linter.dupNamespace false

/-!
# From a pasted text to a link

`Select` reads a pasted text and returns one of its entries.  A text that
starts with a brace or a bracket is a full configuration document, or a list of
them, and each gives one entry: its proxy outbound.  Every other text goes to
the vendored parser of share links and Clash documents, which is a parameter
here together with the URL query it is preceded by.
-/

namespace Caspian.Link

open Verified Verified.Json

/-- The parsers this package calls: the `type` parameter of a link `url.Parse`
accepts, and the outbounds of a text of share links. -/
structure Sources (E : Engine) where
  queryType : List Char → Option (List Char)
  convert : List Char → Option (List (Outbound E))
  convert_wellFormed : ∀ text obs, convert text = some obs → ∀ ob ∈ obs, ∀ s,
    ob.settings = some s → s.wellFormed = true

/-! ## The first line -/

/-- `&amp;` written as the character it stands for. -/
def unescapeAmp : List Char → List Char
  | '&' :: 'a' :: 'm' :: 'p' :: ';' :: rest => '&' :: unescapeAmp rest
  | c :: rest => c :: unescapeAmp rest
  | [] => []

/-- The first line of several, trimmed. -/
def firstLine (text : List Char) : List Char :=
  match Text.cutChars '\n' text with
  | some (line, _) => Text.trimChars line
  | none => text

def isSchemeChar (c : Char) : Bool := c.isAlphanum || c = '+' || c = '.' || c = '-'

/-- The scheme of a line shaped like a URI. -/
def schemeOf (line : List Char) : Option (List Char) :=
  let scheme := line.takeWhile isSchemeChar
  if scheme.head?.any Char.isAlpha ∧ "://".toList.isPrefixOf (line.drop scheme.length) then
    some scheme
  else none

def supportedSchemes : List (List Char) :=
  ["vless".toList, "vmess".toList, "ss".toList, "socks".toList, "trojan".toList,
    "hysteria2".toList, "hy2".toList]

/-- `checkScheme`. -/
def checkScheme (text : List Char) : Except LinkError Unit :=
  match schemeOf (firstLine text) with
  | none => .ok ()
  | some scheme =>
    let scheme := scheme.map Char.toLower
    if scheme ∈ supportedSchemes then .ok () else .error (.unsupportedScheme scheme)

def removedTransports : List (List Char × String) :=
  [("quic".toList, "xhttp with security=tls and alpn=h3"),
    ("h3".toList, "xhttp with security=tls and alpn=h3"),
    ("h2".toList, "xhttp with security=tls"), ("http".toList, "xhttp with security=tls"),
    ("gun".toList, "grpc")]

section

variable {E : Engine} (V : Sources E)

/-- `checkTransport`. -/
def checkTransport (text : List Char) : Except LinkError Unit :=
  if (schemeOf (firstLine text)).isNone then .ok ()
  else
    match V.queryType (firstLine text) with
    | none => .ok ()
    | some type =>
      let name := (Text.trimChars type).map Text.lowerRune
      match removedTransports.lookup name with
      | none => .ok ()
      | some replacement => .error (.removedTransport name replacement)

/-! ## Configuration documents -/

/-- `isXrayJSON`. -/
def isXrayJSON (text : List Char) : Bool :=
  text.head? = some '\x7b' || text.head? = some '['

/-- The tag of an outbound whose protocol is a proxy's, and that protocol. -/
def proxyHead (x : Json) : Option (List Char × Protocol) := do
  let fields ← objectMembers x
  let tag ← stringField "tag".toList fields
  let name ← stringField "protocol".toList fields
  let p ← proxyProtocols name
  return (tag, p)

/-- The loop of `proxyOutboundOf`: the first proxy tagged as one, or else the
first proxy. -/
def chooseProxy : List Json → Option (Protocol × Json) → Option (Protocol × Json)
  | [], chosen => chosen
  | x :: xs, chosen =>
    match proxyHead x with
    | none => chooseProxy xs chosen
    | some (tag, p) =>
      if tag = outboundTag then some (p, x)
      else chooseProxy xs (chosen.or (some (p, x)))

/-- An outbound read into the engine's record, its protocol known. -/
def decodeOutbound (E : Engine) (p : Protocol) (x : Json) : Option (Outbound E) := do
  let fields ← objectMembers x
  let sendThrough ← stringPointer "sendThrough".toList fields
  let tag ← stringField "tag".toList fields
  let streamSetting ← E.decodeStream (matching "streamSettings".toList fields)
  let proxySettings ← E.decodeProxy (matching "proxySettings".toList fields)
  let muxSettings ← E.decodeMux (matching "mux".toList fields)
  let targetStrategy ← stringField "targetStrategy".toList fields
  return { protocol := p, sendThrough, tag, settings := pointerField "settings".toList fields
           streamSetting, proxySettings, muxSettings, targetStrategy }

/-- `proxyOutboundOf`. -/
def proxyOutboundOf (E : Engine) (outbounds : List Json) : Except LinkError (Outbound E) :=
  match chooseProxy outbounds none with
  | none => .error .noProxyOutbound
  | some (p, x) =>
    match decodeOutbound E p x with
    | some ob => .ok ob
    | none => .error .noLink

/-- One entry of a pasted text: the display name a document gives it, and its
outbound or why there is none. -/
structure Entry (E : Engine) where
  name : Option (List Char)
  outbound : Except LinkError (Outbound E)

/-- The display name and the outbounds of a document. -/
def xrayDocument (raw : Json) : Option (List Char × List Json) := do
  let fields ← objectMembers raw
  let remarks ← stringField "remarks".toList fields
  let outbounds ← rawList "outbounds".toList fields
  return (remarks, outbounds)

/-- The entry of one document. -/
def documentEntry (E : Engine) (raw : Json) : Entry E :=
  match xrayDocument raw with
  | none => ⟨some [], .error .noLink⟩
  | some (remarks, outbounds) => ⟨some remarks, proxyOutboundOf E outbounds⟩

/-- `parseXrayJSON`. -/
def parseXrayJSON (E : Engine) (text : List Char) : Except LinkError (List (Entry E)) :=
  match parse text with
  | none => .error .noLink
  | some (arr objects) =>
    if objects = [] then .error .noLink else .ok (objects.map (documentEntry E))
  | some doc => .ok [documentEntry E doc]

/-! ## One entry -/

/-- `parseOutbounds`. -/
def parseOutbounds (raw : List Char) : Except LinkError (List (Entry E)) :=
  let text := Text.trimChars raw
  if text = [] then .error .empty
  else
    let text := unescapeAmp text
    match checkScheme text with
    | .error e => .error e
    | .ok () =>
      match checkTransport V text with
      | .error e => .error e
      | .ok () =>
        if isXrayJSON text then parseXrayJSON E text
        else
          match V.convert text with
          | none => .error .noLink
          | some [] => .error .noLink
          | some obs => .ok (obs.map fun ob => ⟨none, .ok ob⟩)

/-- `linkAt`. -/
def linkAt (entries : List (Entry E)) (i : Nat) : Except LinkError (Link E) :=
  match entries[i]? with
  | none => .error .noLink
  | some e =>
    match e.outbound with
    | .error err => .error err
    | .ok ob => do
        let name := e.name.getD (ob.sendThrough.getD [])
        let (kept, description) ← fill { ob with sendThrough := none, tag := outboundTag }
        return { description, tag := name, count := entries.length, index := i, outbound := kept }

/-- The entry an index stands for: the first one when it is out of range. -/
def clamp (length : Nat) (i : Int) : Nat := if i < 0 ∨ (length : Int) ≤ i then 0 else i.toNat

/-- `Select`. -/
def select (raw : List Char) (i : Int) : Except LinkError (Link E × Bool) := do
  let entries ← parseOutbounds V raw
  let l ← linkAt entries (clamp entries.length i)
  return (l, decide (i < 0 ∨ (entries.length : Int) ≤ i))

/-- `Parse`. -/
def parseLink (raw : List Char) : Except LinkError (Link E) :=
  (select V raw 0).map Prod.fst

end

end Caspian.Link
