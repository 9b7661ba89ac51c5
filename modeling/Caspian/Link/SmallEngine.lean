import Caspian.Link.Select

set_option linter.dupNamespace false

/-!
# A small engine

The assumptions of `Engine` can be met: here is an engine that meets them.  Its
stream settings hold what this package reads, and the one nested server the
transport `xhttp` can have, the server its downloads come from.  A pointer is
read from the last value of its field.

Runs on fixed texts are stated over this engine.
-/

namespace Caspian.Link

open Verified Verified.Json

namespace SmallEngine

/-! ## Writing -/

def downloadMembers (address : List Char) : List Field :=
  [("downloadSettings".toList, obj [("address".toList, str address)])]

/-- The records with the nested server of `xhttp` as the rest. -/
def layout : Layout where
  Rest := Option (List Char)
  Mux := Unit
  zeroRest := none
  streamMembers := fun download => [("xhttpSettings".toList, ofRecord downloadMembers download)]
  tlsMembers := fun _ => []
  realityMembers := fun _ => []
  socketMembers := fun _ => []
  muxMembers := fun _ => []
  stream_wellFormed := fun download => by
    cases download <;> simp [ofRecord, downloadMembers, wellFormedFields, wellFormed]
  tls_wellFormed := fun _ => rfl
  reality_wellFormed := fun _ => rfl
  socket_wellFormed := fun _ => rfl
  mux_wellFormed := fun _ => rfl
  stream_apart := fun download f hf => by
    rw [List.mem_singleton.mp hf]
    exact (by decide : "xhttpSettings".toList ∉ streamNames)
  socket_apart := fun _ f hf => absurd hf List.not_mem_nil
  zeroRest_plain := by decide
  tls_plain := fun _ => rfl
  reality_plain := fun _ => rfl
  socket_plain := fun _ => rfl
  mux_plain := fun _ => rfl

/-! ## Reading -/

/-- A pointer to a record, from the last of its values. -/
def pointer {α : Type} (read : List Field → Option α) (values : List Json) :
    Option (Option α) :=
  match values.getLast? with
  | none => some none
  | some null => some none
  | some (obj fields) => (read fields).map some
  | some _ => none

def readTLS (fields : List Field) : Option TLSConfig := do
  let serverName ← stringField "serverName".toList fields
  let fingerprint ← stringField "fingerprint".toList fields
  return { serverName, fingerprint }

def readREALITY (fields : List Field) : Option REALITYConfig := do
  let serverName ← stringField "serverName".toList fields
  let fingerprint ← stringField "fingerprint".toList fields
  let publicKey ← stringField "publicKey".toList fields
  let password ← stringField "password".toList fields
  let shortId ← stringField "shortId".toList fields
  let mldsa65Verify ← stringField "mldsa65Verify".toList fields
  return { serverName, fingerprint, publicKey, password, shortId, mldsa65Verify }

def readSocket (fields : List Field) : Option SocketConfig := do
  let dialerProxy ← stringField "dialerProxy".toList fields
  return { dialerProxy }

def readDownload (fields : List Field) : Option (List Char) := do
  let nested ← pointer (stringField "address".toList) (matching "downloadSettings".toList fields)
  return nested.getD []

def readStream (fields : List Field) : Option (StreamConfig (Option (List Char))) := do
  let network ← stringPointer "network".toList fields
  let security ← stringField "security".toList fields
  let tlsSettings ← pointer readTLS (matching "tlsSettings".toList fields)
  let realitySettings ← pointer readREALITY (matching "realitySettings".toList fields)
  let socketSettings ← pointer readSocket (matching "sockopt".toList fields)
  let rest ← pointer readDownload (matching "xhttpSettings".toList fields)
  return { network, security, tlsSettings, realitySettings, socketSettings, rest }

def asBool : Json → Option Bool
  | Json.bool b => some b
  | _ => none

def readProxy (fields : List Field) : Option ProxyConfig := do
  let tag ← stringField "tag".toList fields
  let transportLayer ← plainField asBool false (matching "transportLayer".toList fields)
  return { tag, transportLayer }

/-- An entry of a list of servers. -/
def readServer (x : Json) : Option Server := do
  let fields ← objectMembers x
  let address ← stringPointer "address".toList fields
  let port ← uintField 16 "port".toList fields
  let users ← rawList "users".toList fields
  return { address, port := UInt16.ofNat port, users }

/-- The client record's address is a string, or absent. -/
def addressReads (fields : List Field) : Bool :=
  (matching "address".toList fields).all fun x => x.isNull || (asString x).isSome

/-! ## Reading what was written -/

theorem pointer_obj {α : Type} (read : List Field → Option α) (fields : List Field) :
    pointer read [obj fields] = (read fields).map some := rfl

theorem pointer_ofRecord {α : Type} {read : List Field → Option α} {members : α → List Field}
    (hread : ∀ a, read (dropNullsFields (members a)) = some a) (a : Option α) :
    pointer read (if (ofRecord members a).isNull then [] else [(ofRecord members a).dropNulls]) =
      some a := by
  cases a with
  | none => rfl
  | some a =>
    simp only [ofRecord, isNull, Bool.false_eq_true, if_false, dropNulls_obj, pointer_obj, hread,
      Option.map_some]

variable {fields : List Field}

theorem stringField_one {field k s : List Char}
    (hone : fields.filter (fun f => folds field f.1) = [(k, str s)]) :
    stringField field (dropNullsFields fields) = some s := by
  rw [stringField, matching_dropNulls_one hone]
  simp [plainField, asString, isNull]

theorem stringPointer_one {field k : List Char} {s : Option (List Char)}
    (hone : fields.filter (fun f => folds field f.1) = [(k, ofPointer s)]) :
    stringPointer field (dropNullsFields fields) = some s := by
  rw [stringPointer, matching_dropNulls_one hone]
  cases s <;> simp [ofPointer, isNull, asString]

theorem readTLS_back (r : Option (List Char)) (c : TLSConfig) :
    readTLS (dropNullsFields (layout.encodeTLS r c)) = some c := by
  unfold readTLS
  rw [stringField_one (s := c.serverName) rfl, stringField_one (s := c.fingerprint) rfl]
  rfl

theorem readREALITY_back (r : Option (List Char)) (c : REALITYConfig) :
    readREALITY (dropNullsFields (layout.encodeREALITY r c)) = some c := by
  unfold readREALITY
  rw [stringField_one (s := c.serverName) rfl, stringField_one (s := c.fingerprint) rfl,
    stringField_one (s := c.publicKey) rfl, stringField_one (s := c.password) rfl,
    stringField_one (s := c.shortId) rfl, stringField_one (s := c.mldsa65Verify) rfl]
  rfl

theorem readSocket_back (r : Option (List Char)) (c : SocketConfig) :
    readSocket (dropNullsFields (layout.encodeSocket r c)) = some c := by
  unfold readSocket
  rw [stringField_one (s := c.dialerProxy) rfl]
  rfl

theorem readDownload_back (address : List Char) :
    readDownload (dropNullsFields (downloadMembers address)) = some address := by
  unfold readDownload
  have hone : matching "downloadSettings".toList (dropNullsFields (downloadMembers address)) =
      [dropNulls (obj [("address".toList, str address)])] := matching_dropNulls rfl rfl
  have haddress : stringField "address".toList
      (dropNullsFields [("address".toList, str address)]) = some address := stringField_one rfl
  rw [hone, dropNulls_obj, pointer_obj, haddress]
  rfl

theorem readStream_back (s : StreamConfig (Option (List Char))) :
    readStream (dropNullsFields (layout.encodeStream s)) = some s := by
  unfold readStream
  have htls : pointer readTLS (matching "tlsSettings".toList
      (dropNullsFields (layout.encodeStream s))) = some s.tlsSettings := by
    rw [matching_dropNulls_one rfl]
    exact pointer_ofRecord (readTLS_back s.rest) _
  have hreality : pointer readREALITY (matching "realitySettings".toList
      (dropNullsFields (layout.encodeStream s))) = some s.realitySettings := by
    rw [matching_dropNulls_one rfl]
    exact pointer_ofRecord (readREALITY_back s.rest) _
  have hsocket : pointer readSocket (matching "sockopt".toList
      (dropNullsFields (layout.encodeStream s))) = some s.socketSettings := by
    rw [matching_dropNulls_one rfl]
    exact pointer_ofRecord (readSocket_back s.rest) _
  have hdownload : pointer readDownload (matching "xhttpSettings".toList
      (dropNullsFields (layout.encodeStream s))) = some s.rest := by
    rw [matching_dropNulls_one rfl]
    exact pointer_ofRecord readDownload_back _
  rw [stringPointer_one (s := s.network) rfl, stringField_one (s := s.security) rfl, htls,
    hreality, hsocket, hdownload]
  rfl

theorem decodeStream_back (s : StreamConfig (Option (List Char))) :
    pointer readStream [dropNulls (obj (layout.encodeStream s))] = some (some s) := by
  rw [dropNulls_obj, pointer_obj, readStream_back]
  rfl

theorem readProxy_back (c : ProxyConfig) :
    readProxy (dropNullsFields (encodeProxy c)) = some c := by
  unfold readProxy
  have hlayer : matching "transportLayer".toList (dropNullsFields (encodeProxy c)) =
      [dropNulls (bool c.transportLayer)] := matching_dropNulls rfl rfl
  rw [stringField_one (s := c.tag) rfl, hlayer]
  simp [plainField, dropNulls, asMap, stripNulls, isNull, asBool]

theorem addressReads_dropNulls (h : addressReads fields = true) :
    addressReads (dropNullsFields fields) = true := by
  unfold addressReads matching at h ⊢
  rw [List.all_eq_true] at h ⊢
  intro y hy
  obtain ⟨⟨k, y⟩, hmem, rfl⟩ := List.mem_map.mp hy
  obtain ⟨hmem, hfold⟩ := List.mem_filter.mp hmem
  obtain ⟨x, hx, _, rfl⟩ := mem_dropNullsFields hmem
  have hread := h x (List.mem_map.mpr ⟨(k, x), List.mem_filter.mpr ⟨hx, hfold⟩, rfl⟩)
  cases x <;> simp [isNull, asString, dropNulls, asMap, stripNulls] at hread ⊢

theorem addressReads_client (c : Client) : addressReads c.members = true := by
  have hone : matching "address".toList c.members = [ofPointer c.server.address] := by
    cases c <;> rfl
  rw [addressReads, hone]
  cases c.server.address <;> rfl

end SmallEngine

open SmallEngine in
/-- The engine over these records. -/
def smallEngine : Engine where
  toLayout := layout
  decodeStream := pointer readStream
  decodeProxy := pointer readProxy
  decodeMux := pointer fun _ => some ()
  transport := some
  accepts := fun _ fields => addressReads fields
  servers := fun _ fields => ((rawList "servers".toList fields).getD []).map readServer
  seeds := fun _ => some none
  zeroMembers := fun _ => []
  stream_absent := rfl
  proxy_absent := rfl
  mux_absent := rfl
  stream_back := fun s => ⟨s.rest, decodeStream_back s, rfl⟩
  proxy_back := fun c => by
    rw [dropNulls_obj, pointer_obj, readProxy_back]
    rfl
  mux_back := fun m => ⟨m, rfl, rfl⟩
  accepts_dropNulls := fun _ _ h => addressReads_dropNulls h
  accepts_client := fun c => by
    rw [List.append_nil]
    exact addressReads_dropNulls (addressReads_client c)
  zero_apart := fun _ f hf => absurd hf List.not_mem_nil
  zero_wellFormed := fun _ => rfl
  zero_plain := fun _ => rfl

/-- A text that is no document has no links. -/
def noLinks : Sources smallEngine where
  queryType := fun _ => none
  convert := fun _ => none
  convert_wellFormed := fun _ _ h => nomatch h

end Caspian.Link
