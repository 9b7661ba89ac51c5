import Caspian.Verified.JsonStruct

/-!
# The engine's configuration records

`internal/link` decodes an outbound into the engine's own records and writes it
again from them.  The engine is not part of this repository, so the records are
given as far as the package reads and writes them, and the rest is a parameter:
`Layout` says which further members the records have, and `Engine` how texts
are read into them.

The assumptions about the engine are the fields of `Engine` that are proofs.
A record that was written, sorted and freed of its nulls is read back as it
was; what a decoder accepts, it accepts sorted and without nulls; the client
record this package builds is accepted.  `Client` is that record: the flat form
of the settings of a protocol.
-/

namespace Caspian.Link

open Verified Verified.Json

abbrev Field := List Char × Json

/-! ## Protocols -/

/-- The protocols this box can use as its proxy. -/
inductive Protocol where
  | vless
  | vmess
  | trojan
  | shadowsocks
  | socks
  | hysteria
  deriving DecidableEq, Repr

namespace Protocol

/-- The engine's name for the protocol. -/
def name : Protocol → List Char
  | vless => "vless".toList
  | vmess => "vmess".toList
  | trojan => "trojan".toList
  | shadowsocks => "shadowsocks".toList
  | socks => "socks".toList
  | hysteria => "hysteria".toList

def all : List Protocol := [vless, vmess, trojan, shadowsocks, socks, hysteria]

end Protocol

/-- `proxyProtocols`. -/
def proxyProtocols (name : List Char) : Option Protocol :=
  Protocol.all.find? fun p => p.name = name

theorem proxyProtocols_name (p : Protocol) : proxyProtocols p.name = some p := by
  cases p <;> decide

/-! ## Stream settings -/

structure TLSConfig where
  serverName : List Char := []
  fingerprint : List Char := []
  deriving DecidableEq

structure REALITYConfig where
  serverName : List Char := []
  fingerprint : List Char := []
  publicKey : List Char := []
  password : List Char := []
  shortId : List Char := []
  mldsa65Verify : List Char := []
  deriving DecidableEq

structure SocketConfig where
  dialerProxy : List Char := []
  deriving DecidableEq

structure ProxyConfig where
  tag : List Char := []
  transportLayer : Bool := false
  deriving DecidableEq

/-- `conf.StreamConfig`: what this package reads, and the rest. -/
structure StreamConfig (R : Type) where
  network : Option (List Char) := none
  security : List Char := []
  tlsSettings : Option TLSConfig := none
  realitySettings : Option REALITYConfig := none
  socketSettings : Option SocketConfig := none
  rest : R

/-- The members of the stream settings that this package reads. -/
def streamNames : List (List Char) :=
  ["network".toList, "security".toList, "tlsSettings".toList, "realitySettings".toList,
    "sockopt".toList]

/-- The members that name another outbound or another server. -/
def chainNames : List (List Char) :=
  ["sockopt".toList, "proxySettings".toList, "downloadSettings".toList]

/-- The members the engine's records have besides the ones this package reads,
as they are written.  Only the stream settings nest another server or another
outbound. -/
structure Layout where
  Rest : Type
  Mux : Type
  /-- The rest of `&conf.StreamConfig{}`. -/
  zeroRest : Rest
  streamMembers : Rest → List Field
  tlsMembers : Rest → List Field
  realityMembers : Rest → List Field
  socketMembers : Rest → List Field
  muxMembers : Mux → List Field
  stream_wellFormed : ∀ r, wellFormedFields (streamMembers r) = true
  tls_wellFormed : ∀ r, wellFormedFields (tlsMembers r) = true
  reality_wellFormed : ∀ r, wellFormedFields (realityMembers r) = true
  socket_wellFormed : ∀ r, wellFormedFields (socketMembers r) = true
  mux_wellFormed : ∀ m, wellFormedFields (muxMembers m) = true
  stream_apart : ∀ r, ∀ f ∈ streamMembers r, f.1 ∉ streamNames
  socket_apart : ∀ r, ∀ f ∈ socketMembers r, folds "dialerProxy".toList f.1 = false
  zeroRest_plain : mentions chainNames (obj (streamMembers zeroRest)) = false
  tls_plain : ∀ r, mentions chainNames (obj (tlsMembers r)) = false
  reality_plain : ∀ r, mentions chainNames (obj (realityMembers r)) = false
  socket_plain : ∀ r, mentions chainNames (obj (socketMembers r)) = false
  mux_plain : ∀ m, mentions chainNames (obj (muxMembers m)) = false

/-- A pointer to a record as it is written. -/
def ofRecord {α : Type} (members : α → List Field) : Option α → Json
  | some a => obj (members a)
  | none => null

namespace Layout

variable (L : Layout)

def encodeTLS (r : L.Rest) (c : TLSConfig) : List Field :=
  [("serverName".toList, str c.serverName), ("fingerprint".toList, str c.fingerprint)] ++
    L.tlsMembers r

def encodeREALITY (r : L.Rest) (c : REALITYConfig) : List Field :=
  [("serverName".toList, str c.serverName), ("fingerprint".toList, str c.fingerprint),
    ("publicKey".toList, str c.publicKey), ("password".toList, str c.password),
    ("shortId".toList, str c.shortId), ("mldsa65Verify".toList, str c.mldsa65Verify)] ++
    L.realityMembers r

def encodeSocket (r : L.Rest) (c : SocketConfig) : List Field :=
  ("dialerProxy".toList, str c.dialerProxy) :: L.socketMembers r

/-- The stream settings as they are written. -/
def encodeStream (s : StreamConfig L.Rest) : List Field :=
  [("network".toList, ofPointer s.network), ("security".toList, str s.security),
    ("tlsSettings".toList, ofRecord (L.encodeTLS s.rest) s.tlsSettings),
    ("realitySettings".toList, ofRecord (L.encodeREALITY s.rest) s.realitySettings),
    ("sockopt".toList, ofRecord (L.encodeSocket s.rest) s.socketSettings)] ++
    L.streamMembers s.rest

end Layout

def encodeProxy (c : ProxyConfig) : List Field :=
  [("tag".toList, str c.tag), ("transportLayer".toList, bool c.transportLayer)]

/-! ## Client settings -/

/-- An entry of a `vnext` or `servers` list; a protocol uses the fields its own
entries have. -/
structure Server where
  address : Option (List Char) := none
  port : UInt16 := 0
  users : List Json := []
  level : UInt32 := 0
  email : List Char := []
  password : List Char := []
  flow : List Char := []
  cipher : List Char := []
  uot : Bool := false
  uotVersion : Int := 0

structure VLessUser where
  level : UInt32 := 0
  email : List Char := []
  id : List Char := []
  flow : List Char := []
  encryption : List Char := []
  testpre : UInt32 := 0
  testseed : Option (List UInt32) := none

structure VMessUser where
  level : UInt32 := 0
  email : List Char := []
  id : List Char := []
  security : List Char := []
  experiments : List Char := []

structure SocksUser where
  level : UInt32 := 0
  email : List Char := []
  username : List Char := []
  password : List Char := []

/-- The flat client record of a protocol, as `flattenSettings` builds it. -/
inductive Client where
  | vless (server : Server) (user : VLessUser)
  | vmess (server : Server) (user : VMessUser)
  | trojan (server : Server)
  | shadowsocks (server : Server)
  | socks (server : Server) (user : SocksUser)

namespace Client

def protocol : Client → Protocol
  | vless _ _ => .vless
  | vmess _ _ => .vmess
  | trojan _ => .trojan
  | shadowsocks _ => .shadowsocks
  | socks _ _ => .socks

def server : Client → Server
  | vless s _ => s
  | vmess s _ => s
  | trojan s => s
  | shadowsocks s => s
  | socks s _ => s

/-- The members every flat record starts with. -/
def serverMembers (s : Server) : List Field :=
  [("address".toList, ofPointer s.address), ("port".toList, ofNat s.port.toNat)]

def accountMembers (level : UInt32) (email : List Char) : List Field :=
  [("level".toList, ofNat level.toNat), ("email".toList, str email)]

/-- A list of numbers as it is written; the nil list is null. -/
def seedJson : Option (List UInt32) → Json
  | some seeds => arr (seeds.map fun n => ofNat n.toNat)
  | none => null

/-- The members this package sets. -/
def members : Client → List Field
  | vless s u =>
    serverMembers s ++ accountMembers u.level u.email ++
      [("id".toList, str u.id), ("flow".toList, str u.flow),
        ("encryption".toList, str u.encryption), ("testpre".toList, ofNat u.testpre.toNat),
        ("testseed".toList, seedJson u.testseed)]
  | vmess s u =>
    serverMembers s ++ accountMembers u.level u.email ++
      [("id".toList, str u.id), ("security".toList, str u.security),
        ("experiments".toList, str u.experiments)]
  | trojan s =>
    serverMembers s ++ accountMembers s.level s.email ++
      [("password".toList, str s.password), ("flow".toList, str s.flow)]
  | shadowsocks s =>
    serverMembers s ++ accountMembers s.level s.email ++
      [("method".toList, str s.cipher), ("password".toList, str s.password),
        ("uot".toList, bool s.uot), ("uotVersion".toList, ofInt s.uotVersion)]
  | socks s u =>
    serverMembers s ++ accountMembers u.level u.email ++
      [("user".toList, str u.username), ("pass".toList, str u.password)]

end Client

/-- The names of the settings this package reads back. -/
def readNames : List (List Char) :=
  ["address".toList, "port".toList, "id".toList, "flow".toList]

/-! ## The engine -/

/-- The engine's records and decoders.  A decoder of a pointer is given the
values of its field in turn. -/
structure Engine extends Layout where
  decodeStream : List Json → Option (Option (StreamConfig Rest))
  decodeProxy : List Json → Option (Option ProxyConfig)
  decodeMux : List Json → Option (Option Mux)
  /-- `TransportProtocol.Build`. -/
  transport : List Char → Option (List Char)
  /-- An object is read into the client record of a protocol. -/
  accepts : Protocol → List Field → Bool
  /-- The `vnext` or `servers` list that record then holds; an entry can be the
  nil pointer. -/
  servers : Protocol → List Field → List (Option Server)
  /-- A `[]uint32` after these values. -/
  seeds : List Json → Option (Option (List UInt32))
  /-- The members of the client record `flattenSettings` leaves at zero. -/
  zeroMembers : Protocol → List Field
  stream_absent : decodeStream [] = some none
  proxy_absent : decodeProxy [] = some none
  mux_absent : decodeMux [] = some none
  stream_back : ∀ s : StreamConfig Rest, ∃ r,
    decodeStream [dropNulls (obj (toLayout.encodeStream s))] = some (some { s with rest := r }) ∧
      dropNulls (obj (toLayout.encodeStream { s with rest := r })) =
        dropNulls (obj (toLayout.encodeStream s))
  proxy_back : ∀ c, decodeProxy [dropNulls (obj (encodeProxy c))] = some (some c)
  mux_back : ∀ m, ∃ m', decodeMux [dropNulls (obj (muxMembers m))] = some (some m') ∧
    dropNulls (obj (muxMembers m')) = dropNulls (obj (muxMembers m))
  accepts_dropNulls : ∀ p fields, accepts p fields = true →
    accepts p (dropNullsFields fields) = true
  accepts_client : ∀ c : Client,
    accepts c.protocol (dropNullsFields (c.members ++ zeroMembers c.protocol)) = true
  zero_apart : ∀ p, ∀ f ∈ zeroMembers p, ∀ name ∈ readNames, folds name f.1 = false
  zero_wellFormed : ∀ p, wellFormedFields (zeroMembers p) = true
  zero_plain : ∀ p, mentions chainNames (obj (zeroMembers p)) = false

/-- The client record as it is written. -/
def Engine.encodeClient (E : Engine) (c : Client) : List Field :=
  c.members ++ E.zeroMembers c.protocol

/-! ## Well-formed members -/

theorem wellFormedFields_append (a b : List Field) :
    wellFormedFields (a ++ b) = (wellFormedFields a && wellFormedFields b) := by
  induction a with
  | nil => simp [wellFormedFields]
  | cons f a ih =>
    obtain ⟨k, x⟩ := f
    simp [wellFormedFields, ih, Bool.and_assoc]

@[simp] theorem wellFormed_str (s : List Char) : (str s).wellFormed = true := by
  simp only [wellFormed]

@[simp] theorem wellFormed_ofPointer (s : Option (List Char)) :
    (ofPointer s).wellFormed = true := by
  cases s <;> simp only [ofPointer, wellFormed]

theorem wellFormed_ofRecord {α : Type} {members : α → List Field}
    (h : ∀ a, wellFormedFields (members a) = true) (a : Option α) :
    (ofRecord members a).wellFormed = true := by
  cases a with
  | none => simp only [ofRecord, wellFormed]
  | some a => simpa only [ofRecord, wellFormed] using h a

theorem Layout.wellFormed_encodeStream (L : Layout) (s : StreamConfig L.Rest) :
    wellFormedFields (L.encodeStream s) = true := by
  have htls : ∀ c, wellFormedFields (L.encodeTLS s.rest c) = true := by
    intro c
    simp [encodeTLS, wellFormedFields, L.tls_wellFormed]
  have hreality : ∀ c, wellFormedFields (L.encodeREALITY s.rest c) = true := by
    intro c
    simp [encodeREALITY, wellFormedFields, L.reality_wellFormed]
  have hsocket : ∀ c, wellFormedFields (L.encodeSocket s.rest c) = true := by
    intro c
    simp [encodeSocket, wellFormedFields, L.socket_wellFormed]
  simp [encodeStream, wellFormedFields, wellFormed_ofRecord htls, wellFormed_ofRecord hreality,
    wellFormed_ofRecord hsocket, L.stream_wellFormed]

theorem Client.wellFormed_members (c : Client) : wellFormedFields c.members = true := by
  have hseed : ∀ o, (seedJson o).wellFormed = true := by
    intro o
    cases o with
    | none => simp only [seedJson, wellFormed]
    | some seeds =>
      simp only [seedJson, wellFormed, wellFormedElements_iff, List.mem_map]
      rintro x ⟨n, _, rfl⟩
      exact wellFormed_ofNat _
  cases c <;>
    simp [members, serverMembers, accountMembers, wellFormedFields, wellFormed_ofNat,
      wellFormed_ofInt, hseed, wellFormed]

theorem Engine.wellFormed_encodeClient (E : Engine) (c : Client) :
    wellFormedFields (E.encodeClient c) = true := by
  rw [encodeClient, wellFormedFields_append, c.wellFormed_members, E.zero_wellFormed]
  rfl

end Caspian.Link
