import Caspian.Link.SmallEngine
import Caspian.Verified.Outcome

set_option linter.dupNamespace false

/-!
# The document of a link read again

The panel sends the privileged service the document `XrayConfig` writes, and
the service parses it again.  The second parse sees the settings after a
generic map: sorted, one member of each name, no nulls.  Everything else is
read back as it was, because the corrections `fill` makes are already in the
document and the engine's records are read back faithfully.

So the round trip stands or falls with the settings.  Settings that were
rewritten into the flat form have one member for each field.  Settings that
were carried as they came must be read the same after the map.
-/

namespace Caspian.Link

open Verified Verified.Json

variable {E : Engine}

/-! ## The text of the document -/

/-- The settings are a value that can be written. -/
def Outbound.WellFormed (ob : Outbound E) : Prop :=
  ∀ s, ob.settings = some s → s.wellFormed = true

theorem Outbound.WellFormed.document {ob : Outbound E} (h : ob.WellFormed) :
    ob.document.wellFormed = true := by
  have hsettings : (ob.settings.getD null).wellFormed = true := by
    cases hs : ob.settings with
    | none => simp only [Option.getD_none, wellFormed]
    | some s => exact h s hs
  have hstream := wellFormed_ofRecord E.wellFormed_encodeStream ob.streamSetting
  have hencode : ∀ c, wellFormedFields (encodeProxy c) = true := by
    intro c
    simp [encodeProxy, wellFormedFields, wellFormed]
  have hproxy := wellFormed_ofRecord hencode ob.proxySettings
  have hmux := wellFormed_ofRecord E.mux_wellFormed ob.muxSettings
  simp [Outbound.document, members, wellFormed, wellFormedElements, wellFormedFields, hsettings,
    hstream, hproxy, hmux]

/-- The members of the one outbound in the document. -/
def Outbound.written (ob : Outbound E) : List Field := dropNullsFields ob.members

/-- The document, its nulls dropped. -/
def Outbound.final (ob : Outbound E) : Json := obj [("outbounds".toList, arr [obj ob.written])]

theorem Outbound.document_dropNulls (ob : Outbound E) : ob.document.dropNulls = ob.final := by
  have harr : (arr [obj ob.members]).dropNulls = arr [obj ob.written] := by
    have hone : (obj ob.members).dropNulls = obj ob.written := dropNulls_obj _
    simp only [dropNulls, asMap, asMapElements, stripNulls, stripNullsElements] at hone ⊢
    rw [hone]
  rw [document, dropNulls_obj, dropNullsFields_eq]
  show obj [("outbounds".toList, (arr [obj ob.members]).dropNulls)] = _
  rw [harr]
  rfl

variable {l : Link E}

theorem Link.xrayConfig_eq (h : l.outbound.WellFormed) :
    l.xrayConfig = .ok (render l.outbound.final) := by
  unfold xrayConfig
  rw [parse_render h.document]
  show Except.ok (render l.outbound.document.dropNulls) = _
  rw [Outbound.document_dropNulls]

theorem Outbound.WellFormed.final {ob : Outbound E} (h : ob.WellFormed) :
    ob.final.wellFormed = true := by
  rw [← ob.document_dropNulls]
  exact wellFormed_dropNulls h.document

/-! ## The text read again -/

theorem unescapeAmp_of_notMem {cs : List Char} (h : '&' ∉ cs) : unescapeAmp cs = cs := by
  induction cs with
  | nil => rfl
  | cons c cs ih =>
    rw [List.mem_cons, not_or] at h
    unfold unescapeAmp
    split
    · next heq => exact absurd (List.cons.inj heq).1.symm h.1
    · next heq =>
        obtain ⟨rfl, rfl⟩ := List.cons.inj heq
        rw [ih h.2]
    · next heq => cases heq

variable {fields : List Field}

/-- An object's text is one entry: the document it is. -/
theorem parseOutbounds_render (V : Sources E) (h : (obj fields).wellFormed = true) :
    parseOutbounds V (render (obj fields)) = .ok [documentEntry E (obj fields)] := by
  obtain ⟨cs, hcs⟩ := render_obj_head fields
  have hforeign := foreign_render _ h
  have hamp : '&' ∉ render (obj fields) := fun hmem => absurd (hforeign _ hmem) (by decide)
  have hline : '\n' ∉ render (obj fields) := fun hmem => absurd (hforeign _ hmem) (by decide)
  have htrim : Text.trimChars (render (obj fields)) = render (obj fields) := by
    refine Text.trimChars_eq_self ?_ ?_
    · rw [hcs]
      simp only [List.head?_cons, Option.mem_def, Option.some.injEq, forall_eq']
      decide
    · rw [getLast_render_obj]
      simp only [Option.mem_def, Option.some.injEq, forall_eq']
      decide
  have hfirst : firstLine (render (obj fields)) = render (obj fields) := by
    unfold firstLine
    rw [Text.cutChars_of_notMem hline]
  have hscheme : schemeOf (firstLine (render (obj fields))) = none := by
    rw [hfirst, hcs]
    rfl
  have hjson : isXrayJSON (render (obj fields)) = true := by
    rw [hcs]
    rfl
  have hne : render (obj fields) ≠ [] := by
    rw [hcs]
    exact List.cons_ne_nil _ _
  unfold parseOutbounds
  simp only [htrim, hne, if_false, unescapeAmp_of_notMem hamp]
  unfold checkScheme checkTransport
  simp only [hscheme, Option.isNone_none, if_true, hjson]
  unfold parseXrayJSON
  rw [parse_render h]

/-! ## The outbound read again -/

/-- The stream settings, or their absence, after the document was read. -/
def StreamAgain (E : Engine) (a b : Option (StreamConfig E.Rest)) : Prop :=
  match a with
  | none => b = none
  | some s => ∃ r, b = some { s with rest := r } ∧
      dropNulls (obj (E.encodeStream { s with rest := r })) = dropNulls (obj (E.encodeStream s))

/-- The outbound `b` is what the document of `a` is read as. -/
structure Outbound.Again (a b : Outbound E) : Prop where
  protocol : b.protocol = a.protocol
  sendThrough : b.sendThrough = none
  tag : b.tag = outboundTag
  settings : b.settings = a.settings.map dropNulls
  stream : StreamAgain E a.streamSetting b.streamSetting
  proxySettings : b.proxySettings = a.proxySettings
  mux : (ofRecord E.muxMembers b.muxSettings).dropNulls =
    (ofRecord E.muxMembers a.muxSettings).dropNulls
  targetStrategy : b.targetStrategy = a.targetStrategy

variable {field : List Char}

variable {x : Json}

section Decode

variable (ob : Outbound E)

theorem Outbound.matching_written (field : List Char) {k : List Char}
    (hone : ob.members.filter (fun f => folds field f.1) = [(k, x)]) :
    matching field ob.written = if x.isNull then [] else [x.dropNulls] :=
  matching_dropNulls_one hone

theorem matching_ofRecord {α : Type} (members : α → List Field) (a : Option α) :
    (if (ofRecord members a).isNull then [] else [(ofRecord members a).dropNulls]) =
      a.toList.map fun a => dropNulls (obj (members a)) := by
  cases a <;> rfl

theorem Outbound.stringField_written {k s : List Char}
    (hone : ob.members.filter (fun f => folds field f.1) = [(k, str s)]) :
    stringField field ob.written = some s := by
  rw [stringField, ob.matching_written _ hone]
  simp [plainField, asString, isNull]

theorem stream_decoded (s : Option (StreamConfig E.Rest)) :
    ∃ t, E.decodeStream (s.toList.map fun s => dropNulls (obj (E.encodeStream s))) = some t ∧
      StreamAgain E s t := by
  cases s with
  | none => exact ⟨none, E.stream_absent, rfl⟩
  | some s =>
    obtain ⟨r, hdecode, hsame⟩ := E.stream_back s
    exact ⟨some { s with rest := r }, hdecode, r, rfl, hsame⟩

theorem proxy_decoded (c : Option ProxyConfig) :
    E.decodeProxy (c.toList.map fun c => dropNulls (obj (encodeProxy c))) = some c := by
  cases c with
  | none => exact E.proxy_absent
  | some c => exact E.proxy_back c

theorem mux_decoded (m : Option E.Mux) :
    ∃ t, E.decodeMux (m.toList.map fun m => dropNulls (obj (E.muxMembers m))) = some t ∧
      (ofRecord E.muxMembers t).dropNulls = (ofRecord E.muxMembers m).dropNulls := by
  cases m with
  | none => exact ⟨none, E.mux_absent, rfl⟩
  | some m =>
    obtain ⟨m', hdecode, hsame⟩ := E.mux_back m
    exact ⟨some m', hdecode, hsame⟩

/-- What is written is read back. -/
theorem decodeOutbound_written (hset : ∀ s, ob.settings = some s → s.isNull = false) :
    ∃ ob', decodeOutbound E ob.protocol (obj ob.written) = some ob' ∧ ob.Again ob' := by
  obtain ⟨stream, hstream, hstream'⟩ := stream_decoded ob.streamSetting
  obtain ⟨mux, hmux, hmux'⟩ := mux_decoded ob.muxSettings
  have hm : matching "streamSettings".toList ob.written = _ :=
    (ob.matching_written _ rfl).trans (matching_ofRecord E.encodeStream ob.streamSetting)
  have hp : matching "proxySettings".toList ob.written = _ :=
    (ob.matching_written _ rfl).trans (matching_ofRecord encodeProxy ob.proxySettings)
  have hx : matching "mux".toList ob.written = _ :=
    (ob.matching_written _ rfl).trans (matching_ofRecord E.muxMembers ob.muxSettings)
  have hsend : stringPointer "sendThrough".toList ob.written = some none := by
    rw [stringPointer, ob.matching_written "sendThrough".toList rfl]
    rfl
  have hsettings : pointerField "settings".toList ob.written = ob.settings.map dropNulls := by
    rw [pointerField, ob.matching_written "settings".toList rfl]
    cases hs : ob.settings with
    | none => rfl
    | some s =>
      have hnull := hset s hs
      simp [hnull, isNull_dropNulls]
  have htag : stringField "tag".toList ob.written = some outboundTag :=
    ob.stringField_written rfl
  have htarget : stringField "targetStrategy".toList ob.written = some ob.targetStrategy :=
    ob.stringField_written rfl
  refine ⟨⟨ob.protocol, none, outboundTag, ob.settings.map dropNulls, stream, ob.proxySettings,
    mux, ob.targetStrategy⟩, ?_, ?_⟩
  · unfold decodeOutbound
    simp only [objectMembers, Option.bind_eq_bind, Option.bind_some, hsend, htag, hm, hstream,
      hp, proxy_decoded, hx, hmux, htarget, hsettings]
    rfl
  · exact ⟨rfl, rfl, rfl, rfl, hstream', rfl, hmux', rfl⟩

end Decode

/-! ## Taking `fill` apart -/

variable {kept : Outbound E} {d : Description}

/-- Everything `fill` does, in order. -/
theorem fill_ok {ob : Outbound E} :
    fill ob = .ok (kept, d) ↔ ∃ flat s, checkChain ob = .ok () ∧ flattenSettings ob = .ok flat ∧
      readSettings flat = .ok s ∧ checkSettings flat.protocol s = .ok () ∧
      kept = fillMissingServerName s.address (requireTLSForTrojan flat) ∧
      fillStream s kept = .ok d := by
  constructor
  · intro h
    obtain ⟨_, hchain, h⟩ := Outcome.bind_ok h
    obtain ⟨flat, hflat, h⟩ := Outcome.bind_ok h
    obtain ⟨s, hs, h⟩ := Outcome.bind_ok h
    obtain ⟨_, hcheck, h⟩ := Outcome.bind_ok h
    obtain ⟨d', hd, h⟩ := Outcome.bind_ok h
    obtain ⟨rfl, rfl⟩ := Prod.mk.inj (Except.ok.inj h)
    exact ⟨flat, s, hchain, hflat, hs, hcheck, rfl, hd⟩
  · rintro ⟨flat, s, hchain, hflat, hs, hcheck, rfl, hd⟩
    unfold fill
    rw [hchain, hflat]
    show (readSettings flat >>= _) = _
    rw [hs]
    show (checkSettings flat.protocol s >>= _) = _
    rw [hcheck]
    show (fillStream s _ >>= _) = _
    rw [hd]
    rfl

variable {p : Protocol} {s : OutboundSettings}

theorem checkSettings_ok :
    checkSettings p s = .ok () ↔
      s.address ≠ [] ∧ s.port ≠ 0 ∧ (needsUUID p = true → validUUID s.id = true) := by
  unfold checkSettings
  split_ifs with haddr hport huuid
  · simp [haddr]
  · simp [hport]
  · simp only [Bool.and_eq_true, Bool.not_eq_true'] at huuid
    simp [huuid.1, huuid.2]
  · refine ⟨fun _ => ⟨haddr, hport, ?_⟩, fun _ => rfl⟩
    intro hneeds
    simpa [hneeds] using huuid

/-- The settings are put into the flat form. -/
def Rewritten (E : Engine) (p : Protocol) (raw : Json) : Prop :=
  p ≠ .hysteria ∧ ∃ fields, objectMembers raw = some fields ∧ isFlat E p fields = false

variable {c : Client}

theorem flatClient_protocol {servers : List (Option Server)}
    (h : flatClient E p servers = some (.ok c)) : c.protocol = p := by
  cases p with
  | hysteria => cases h
  | vless | vmess =>
    obtain ⟨s, _, h⟩ := Outcome.bind_ok (Option.some.inj h)
    obtain ⟨u, _, h⟩ := Outcome.bind_ok h
    cases h
    rfl
  | trojan | shadowsocks =>
    obtain ⟨s, _, h⟩ := Outcome.bind_ok (Option.some.inj h)
    cases h
    rfl
  | socks =>
    obtain ⟨s, _, h⟩ := Outcome.bind_ok (Option.some.inj h)
    split_ifs at h
    · cases h
      rfl
    · obtain ⟨u, _, h⟩ := Outcome.bind_ok h
      cases h
      rfl

variable {flat : Outbound E}

theorem flattenSettings_none {ob : Outbound E} (hnone : ob.settings = none)
    (h : flattenSettings ob = .ok flat) : flat.settings = none := by
  unfold flattenSettings at h
  rw [hnone] at h
  cases h
  exact hnone

variable {raw : Json}

/-- The settings are carried, or replaced by a flat client record. -/
theorem flattenSettings_ok {ob : Outbound E} (hraw : ob.settings = some raw)
    (h : flattenSettings ob = .ok flat) :
    (flat = ob ∧ ¬Rewritten E ob.protocol raw ∧ (ob.protocol ≠ .hysteria →
        ∃ fields, objectMembers raw = some fields ∧ E.accepts ob.protocol fields = true)) ∨
      ∃ c : Client, c.protocol = ob.protocol ∧ Rewritten E ob.protocol raw ∧
        flat = { ob with settings := some (obj (E.encodeClient c)) } := by
  unfold flattenSettings at h
  rw [hraw] at h
  simp only at h
  split_ifs at h with hhy
  · cases h
    exact .inl ⟨rfl, fun hr => hr.1 hhy, fun hne => absurd hhy hne⟩
  · cases hm : objectMembers raw with
    | none =>
      rw [hm] at h
      cases h
    | some fields =>
      rw [hm] at h
      simp only at h
      split_ifs at h with hacc hflat
      · cases h
        refine .inl ⟨rfl, ?_, fun _ => ⟨fields, rfl, Bool.not_eq_false _ ▸ hacc⟩⟩
        rintro ⟨_, fields', hm', hflat'⟩
        rw [hm] at hm'
        cases hm'
        rw [hflat] at hflat'
        cases hflat'
      · have hr : Rewritten E ob.protocol raw :=
          ⟨hhy, fields, hm, Bool.eq_false_iff.mpr hflat⟩
        split at h
        · next hnone =>
            exfalso
            cases hp : ob.protocol <;> rw [hp] at hnone hhy <;>
              first | exact absurd rfl hhy | cases hnone
        · cases h
        · next c hc =>
            cases h
            exact .inr ⟨c, flatClient_protocol hc, hr, rfl⟩

/-- Settings that are accepted and flat are carried. -/
theorem flattenSettings_carried {ob : Outbound E} (hraw : ob.settings = some (obj fields))
    (h : ob.protocol ≠ .hysteria →
      E.accepts ob.protocol fields = true ∧ isFlat E ob.protocol fields = true) :
    flattenSettings ob = .ok ob := by
  unfold flattenSettings
  rw [hraw]
  by_cases hhy : ob.protocol = .hysteria
  · simp only [hhy, if_true]
  · obtain ⟨hacc, hflat⟩ := h hhy
    simp [hhy, objectMembers, hacc, hflat]

/-! ## The flat record read back -/

theorem dropNulls_ofPointer (a : Option (List Char)) : (ofPointer a).dropNulls = ofPointer a := by
  cases a <;> simp only [ofPointer, dropNulls_null, dropNulls_str]

theorem filter_encodeClient (c : Client) {name : List Char} (hname : name ∈ readNames) :
    (E.encodeClient c).filter (fun f => folds name f.1) =
      c.members.filter fun f => folds name f.1 := by
  have hzero : (E.zeroMembers c.protocol).filter (fun f => folds name f.1) = [] := by
    rw [List.filter_eq_nil_iff]
    intro f hf
    rw [E.zero_apart c.protocol f hf name hname]
    exact Bool.false_ne_true
  rw [Engine.encodeClient, List.filter_append, hzero, List.append_nil]

/-- The names this package reads have one member each in the flat record, or
none. -/
theorem single_encodeClient (c : Client) {name : List Char} (hname : name ∈ readNames) :
    Single name (E.encodeClient c) := by
  unfold Single
  rw [filter_encodeClient c hname]
  simp only [readNames, List.mem_cons, List.not_mem_nil, or_false] at hname
  rcases hname with rfl | rfl | rfl | rfl
  · cases c <;> exact .inr ⟨_, _, rfl, dropNulls_ofPointer _⟩
  · cases c <;> exact .inr ⟨_, _, rfl, dropNulls_num _⟩
  · cases c with
    | vless s u | vmess s u => exact .inr ⟨_, _, rfl, dropNulls_str _⟩
    | _ => exact .inl rfl
  · cases c with
    | vless s u | trojan s => exact .inr ⟨_, _, rfl, dropNulls_str _⟩
    | _ => exact .inl rfl

/-- Settings with one member for each field are read the same after the map. -/
theorem outboundSettings_dropNulls (h : ∀ name ∈ readNames, Single name fields) :
    outboundSettings (obj fields).dropNulls = outboundSettings (obj fields) := by
  have haddr : stringField "address".toList (dropNullsFields fields) =
      stringField "address".toList fields :=
    (h _ (by simp [readNames])).plainField _ _
  have hport : uintField 16 "port".toList (dropNullsFields fields) =
      uintField 16 "port".toList fields :=
    (h _ (by simp [readNames])).plainField _ _
  have hid : stringField "id".toList (dropNullsFields fields) = stringField "id".toList fields :=
    (h _ (by simp [readNames])).plainField _ _
  simp only [dropNulls_obj, outboundSettings, objectMembers, Option.bind_eq_bind,
    Option.bind_some, haddr, hport, hid]

theorem settingsFlow_dropNulls (h : ∀ name ∈ readNames, Single name fields) :
    settingsFlow (obj fields).dropNulls = settingsFlow (obj fields) := by
  have hflow : stringField "flow".toList (dropNullsFields fields) =
      stringField "flow".toList fields :=
    (h _ (by simp [readNames])).plainField _ _
  simp only [dropNulls_obj, settingsFlow, objectMembers, Option.bind_some, hflow]

theorem address_encodeClient (c : Client) :
    stringField "address".toList (E.encodeClient c) = some (c.server.address.getD []) := by
  have hmatch : matching "address".toList (E.encodeClient c) = [ofPointer c.server.address] := by
    rw [matching, filter_encodeClient c (by simp [readNames])]
    cases c <;> rfl
  rw [stringField, hmatch]
  cases c.server.address <;> rfl

/-- A flat record that names an address is flat. -/
theorem isFlat_encodeClient (h : c.server.address ≠ none) :
    isFlat E p (dropNullsFields (E.encodeClient c)) = true := by
  obtain ⟨a, ha⟩ := Option.ne_none_iff_exists'.mp h
  have hfilter : (E.encodeClient c).filter (fun f => folds "address".toList f.1) =
      [("address".toList, str a)] := by
    rw [filter_encodeClient c (by simp [readNames])]
    have hptr : ofPointer c.server.address = str a := by
      rw [ha]
      rfl
    rw [← hptr]
    cases c <;> rfl
  have hmatch := matching_dropNulls_one hfilter
  rw [isFlat, pointerField, hmatch]
  rfl

/-! ## The corrections are made once -/

/-- A trojan outbound has TLS, and a TLS stream a server name. -/
structure Settled (ob : Outbound E) : Prop where
  trojan : ob.protocol = .trojan → ∃ ss, ob.streamSetting = some ss ∧ ss.security ≠ [] ∧
    ss.security ≠ "none".toList
  named : ∀ ss, ob.streamSetting = some ss → ss.security = "tls".toList →
    ∃ tls, ss.tlsSettings = some tls ∧ tls.serverName ≠ []

/-- The corrected outbound. -/
def corrected (address : List Char) (ob : Outbound E) : Outbound E :=
  fillMissingServerName address (requireTLSForTrojan ob)

section Corrected

variable (address : List Char) (ob : Outbound E)

@[simp] theorem corrected_protocol : (corrected address ob).protocol = ob.protocol := by
  unfold corrected fillMissingServerName requireTLSForTrojan
  split <;> rfl

@[simp] theorem corrected_settings : (corrected address ob).settings = ob.settings := by
  unfold corrected fillMissingServerName requireTLSForTrojan
  split <;> rfl

@[simp] theorem corrected_proxySettings :
    (corrected address ob).proxySettings = ob.proxySettings := by
  unfold corrected fillMissingServerName requireTLSForTrojan
  split <;> rfl

theorem nameServer_socketSettings (ss : StreamConfig E.Rest) :
    (nameServer address ss).socketSettings = ss.socketSettings := by
  unfold nameServer
  split <;> rfl

theorem nameServer_security (ss : StreamConfig E.Rest) :
    (nameServer address ss).security = ss.security := by
  unfold nameServer
  split <;> rfl

/-- The corrections do not touch the socket options. -/
theorem corrected_socketSettings :
    (corrected address ob).streamSetting.bind (·.socketSettings) =
      ob.streamSetting.bind (·.socketSettings) := by
  have hname : ∀ o : Option (StreamConfig E.Rest),
      (o.map (nameServer address)).bind (·.socketSettings) = o.bind (·.socketSettings) := by
    intro o
    cases o with
    | none => rfl
    | some ss => exact nameServer_socketSettings address ss
  unfold corrected fillMissingServerName
  rw [hname]
  unfold requireTLSForTrojan
  split
  · cases ob.streamSetting with
    | none =>
      simp only [Option.getD_none, Option.bind_some, Option.bind_none]
      split <;> rfl
    | some ss =>
      simp only [Option.getD_some, Option.bind_some]
      split <;> rfl
  · rfl

theorem settled_corrected (h : address ≠ []) : Settled (corrected address ob) := by
  constructor
  · intro htrojan
    rw [corrected_protocol] at htrojan
    unfold corrected fillMissingServerName requireTLSForTrojan
    simp only [htrojan, if_true, Option.map_some]
    refine ⟨_, rfl, ?_⟩
    rw [nameServer_security]
    split_ifs with hsec
    · show "tls".toList ≠ [] ∧ "tls".toList ≠ "none".toList
      decide
    · exact not_or.mp hsec
  · intro ss hss htls
    unfold corrected fillMissingServerName at hss
    obtain ⟨t, _, rfl⟩ := Option.map_eq_some_iff.mp hss
    rw [nameServer_security] at htls
    unfold nameServer
    simp only [htls, if_true]
    refine ⟨_, rfl, ?_⟩
    split_ifs with hname
    · exact h
    · exact hname

end Corrected

/-- A settled outbound is left as it is. -/
theorem corrected_of_settled {ob : Outbound E} (h : Settled ob) (address : List Char) :
    corrected address ob = ob := by
  have htrojan : requireTLSForTrojan ob = ob := by
    unfold requireTLSForTrojan
    split_ifs with hp
    · obtain ⟨ss, hss, hne, hnone⟩ := h.trojan hp
      simp only [hss, Option.getD_some, hne, hnone, or_self, if_false]
      rw [← hss]
    · rfl
  have hname : ob.streamSetting.map (nameServer address) = ob.streamSetting := by
    cases hss : ob.streamSetting with
    | none => rfl
    | some ss =>
      rw [Option.map_some]
      congr 1
      unfold nameServer
      split_ifs with htls
      · obtain ⟨tls, htls', hne⟩ := h.named ss hss htls
        simp only [htls', Option.getD_some, hne, if_false]
        rw [← htls']
      · rfl
  unfold corrected fillMissingServerName
  rw [htrojan, hname]

theorem checkChain_ok {ob : Outbound E} :
    checkChain ob = .ok () ↔ (∀ p, ob.proxySettings = some p → p.tag = []) ∧
      ∀ o, ob.streamSetting.bind (·.socketSettings) = some o → o.dialerProxy = [] := by
  have hstream : (ob.streamSetting.any fun s => s.socketSettings.any fun o => o.dialerProxy ≠ []) =
      (ob.streamSetting.bind (·.socketSettings)).any fun o => o.dialerProxy ≠ [] := by
    cases ob.streamSetting <;> rfl
  unfold checkChain
  rw [hstream]
  cases hp : ob.proxySettings with
  | none =>
    cases hs : ob.streamSetting.bind (·.socketSettings) with
    | none => simp
    | some o => by_cases ho : o.dialerProxy = [] <;> simp [ho]
  | some p =>
    cases hs : ob.streamSetting.bind (·.socketSettings) with
    | none => by_cases hp' : p.tag = [] <;> simp [hp']
    | some o => by_cases hp' : p.tag = [] <;> by_cases ho : o.dialerProxy = [] <;> simp [hp', ho]

/-! ## What the second parse reads -/

section Again

variable {a b : Outbound E} (h : a.Again b)

include h

/-- There are stream settings in both, alike but for the rest, or in neither. -/
theorem Outbound.Again.streams : a.streamSetting = none ∧ b.streamSetting = none ∨
    ∃ s r, a.streamSetting = some s ∧ b.streamSetting = some { s with rest := r } ∧
      dropNulls (obj (E.encodeStream { s with rest := r })) =
        dropNulls (obj (E.encodeStream s)) := by
  have hs := h.stream
  unfold StreamAgain at hs
  cases ha : a.streamSetting with
  | none =>
    rw [ha] at hs
    exact .inl ⟨rfl, hs⟩
  | some s =>
    rw [ha] at hs
    obtain ⟨r, hb, hsame⟩ := hs
    exact .inr ⟨s, r, rfl, hb, hsame⟩

theorem Outbound.Again.socketSettings :
    b.streamSetting.bind (·.socketSettings) = a.streamSetting.bind (·.socketSettings) := by
  rcases h.streams with ⟨ha, hb⟩ | ⟨s, r, ha, hb, -⟩
  · rw [ha, hb]
  · rw [ha, hb]
    rfl

theorem Outbound.Again.settled (ha : Settled a) : Settled b := by
  rcases h.streams with ⟨hsa, hb⟩ | ⟨s, r, hsa, hb, -⟩
  · refine ⟨fun hp => ?_, fun ss hss => by rw [hb] at hss; cases hss⟩
    obtain ⟨ss, hss, -⟩ := ha.trojan (h.protocol ▸ hp)
    rw [hsa] at hss
    cases hss
  · constructor
    · intro hp
      obtain ⟨ss, hss, hsec⟩ := ha.trojan (h.protocol ▸ hp)
      rw [hsa] at hss
      cases hss
      exact ⟨_, hb, hsec⟩
    · intro ss hss htls
      rw [hb] at hss
      cases hss
      exact ha.named s hsa htls

/-- The description depends on what the stream settings show. -/
theorem Outbound.Again.fillStream {t : OutboundSettings} (haddr : t.address = s.address)
    (hport : t.port = s.port) (hflow : flowOf b = flowOf a) : fillStream t b = fillStream s a := by
  unfold Link.fillStream
  rcases h.streams with ⟨ha, hb⟩ | ⟨ss, r, ha, hb, -⟩
  · rw [ha, hb, haddr, hport, hflow, h.protocol]
  · rw [ha, hb, haddr, hport, hflow, h.protocol]
    rfl

/-- It is written as the first one was. -/
theorem Outbound.Again.written : b.written = a.written := by
  have hstream : (ofRecord E.encodeStream b.streamSetting).dropNulls =
      (ofRecord E.encodeStream a.streamSetting).dropNulls := by
    rcases h.streams with ⟨ha, hb⟩ | ⟨ss, r, ha, hb, hsame⟩
    · rw [ha, hb]
    · rw [ha, hb]
      exact hsame
  have hset : (b.settings.getD null).dropNulls = (a.settings.getD null).dropNulls := by
    rw [h.settings]
    cases a.settings with
    | none => rfl
    | some s => exact dropNulls_dropNulls s
  refine dropNullsFields_congr ?_
  simp only [Outbound.members, List.map_cons, List.map_nil, h.protocol, hset, hstream,
    h.proxySettings, h.mux, h.targetStrategy]

end Again

/-! ## The entry that was chosen -/

/-- The outbound an index of a text stands for. -/
def chosen (V : Sources E) (raw : List Char) (i : Int) : Option (Outbound E) :=
  match parseOutbounds V raw with
  | .error _ => none
  | .ok entries => (entries[clamp entries.length i]?).bind fun e => e.outbound.toOption

variable {V : Sources E}

/-- A link is the chosen outbound after `fill`. -/
theorem select_ok {raw : List Char} {i : Int} {c : Bool} (h : select V raw i = .ok (l, c)) :
    ∃ ob, chosen V raw i = some ob ∧
      fill { ob with sendThrough := none, tag := outboundTag } =
        .ok (l.outbound, l.description) := by
  obtain ⟨entries, hentries, h⟩ := Outcome.bind_ok h
  obtain ⟨l', hl, h⟩ := Outcome.bind_ok h
  obtain ⟨rfl, rfl⟩ := Prod.mk.inj (Except.ok.inj h)
  unfold linkAt at hl
  split at hl
  · cases hl
  next e he =>
    split at hl
    · cases hl
    next ob ho =>
      obtain ⟨⟨kept, d⟩, hfill, hl⟩ := Outcome.bind_ok hl
      refine ⟨ob, ?_, ?_⟩
      · simp only [chosen, hentries, he, Option.bind_some, ho]
        rfl
      · rw [hfill]
        cases hl
        rfl

theorem wellFormed_objectMembers (hx : x.wellFormed = true) (h : objectMembers x = some fields) :
    ∀ f ∈ fields, f.2.wellFormed = true := by
  cases x with
  | obj fs =>
    cases h
    rw [wellFormed] at hx
    exact (wellFormedFields_iff fields).mp hx
  | null =>
    cases h
    exact fun f hf => absurd hf List.not_mem_nil
  | _ => cases h

theorem wellFormed_matching (hf : ∀ f ∈ fields, f.2.wellFormed = true) :
    ∀ x ∈ matching field fields,
      x.wellFormed = true := by
  intro x hx
  obtain ⟨f, hmem, rfl⟩ := List.mem_map.mp hx
  exact hf f (List.mem_filter.mp hmem).1

theorem wellFormed_rawList {xs : List Json} (hf : ∀ f ∈ fields, f.2.wellFormed = true)
    (h : rawList field fields = some xs) : ∀ x ∈ xs, x.wellFormed = true := by
  unfold rawList at h
  split_ifs at h
  cases h
  cases hlast : (matching field fields).getLast? with
  | none => exact fun x hx => absurd hx List.not_mem_nil
  | some y =>
    have hy := wellFormed_matching hf y (List.mem_of_getLast? hlast)
    cases y with
    | arr ys =>
      rw [wellFormed] at hy
      exact (wellFormedElements_iff ys).mp hy
    | _ => exact fun x hx => absurd hx List.not_mem_nil

/-- The loop picks one of the outbounds. -/
theorem chooseProxy_mem {xs : List Json} {chosen : Option (Protocol × Json)}
    (h : chooseProxy xs chosen = some (p, x)) : x ∈ xs ∨ chosen = some (p, x) := by
  induction xs generalizing chosen with
  | nil => exact .inr h
  | cons y ys ih =>
    unfold chooseProxy at h
    cases hhead : proxyHead y with
    | none =>
      rw [hhead] at h
      exact (ih h).imp_left (List.mem_cons_of_mem _)
    | some head =>
      obtain ⟨tag, q⟩ := head
      rw [hhead] at h
      simp only at h
      split_ifs at h
      · cases h
        exact .inl List.mem_cons_self
      · rcases ih h with hmem | hor
        · exact .inl (List.mem_cons_of_mem _ hmem)
        · cases chosen with
          | none =>
            cases hor
            exact .inl List.mem_cons_self
          | some c => exact .inr hor

theorem decodeOutbound_wellFormed {ob : Outbound E} (hx : x.wellFormed = true)
    (h : decodeOutbound E p x = some ob) : ob.WellFormed := by
  obtain ⟨fields, hm, h⟩ := Option.bind_eq_some_iff.mp h
  obtain ⟨_, _, h⟩ := Option.bind_eq_some_iff.mp h
  obtain ⟨_, _, h⟩ := Option.bind_eq_some_iff.mp h
  obtain ⟨_, _, h⟩ := Option.bind_eq_some_iff.mp h
  obtain ⟨_, _, h⟩ := Option.bind_eq_some_iff.mp h
  obtain ⟨_, _, h⟩ := Option.bind_eq_some_iff.mp h
  obtain ⟨_, _, h⟩ := Option.bind_eq_some_iff.mp h
  cases h
  intro s hs
  have hlast := (Option.filter_eq_some_iff.mp hs).1
  exact wellFormed_matching (wellFormed_objectMembers hx hm) s (List.mem_of_getLast? hlast)

theorem documentEntry_wellFormed (hx : x.wellFormed = true) {ob : Outbound E}
    (h : (documentEntry E x).outbound = .ok ob) : ob.WellFormed := by
  unfold documentEntry at h
  split at h
  · cases h
  next remarks outbounds hdoc =>
    obtain ⟨fields, hm, hdoc⟩ := Option.bind_eq_some_iff.mp hdoc
    obtain ⟨_, _, hdoc⟩ := Option.bind_eq_some_iff.mp hdoc
    obtain ⟨_, hraw, hdoc⟩ := Option.bind_eq_some_iff.mp hdoc
    cases hdoc
    have hall := wellFormed_rawList (wellFormed_objectMembers hx hm) hraw
    simp only [proxyOutboundOf] at h
    split at h
    · cases h
    · next p y hy =>
        split at h
        · next ob' hdecode =>
            cases h
            exact decodeOutbound_wellFormed
              (hall y ((chooseProxy_mem hy).resolve_right (by simp))) hdecode
        · cases h

/-- The entries come from the documents of the text or from the vendored
parser. -/
theorem parseOutbounds_ok {raw : List Char} {entries : List (Entry E)}
    (h : parseOutbounds V raw = .ok entries) :
    (∃ text, parseXrayJSON E text = .ok entries) ∨
      ∃ text obs, V.convert text = some obs ∧ entries = obs.map fun ob => ⟨none, .ok ob⟩ := by
  unfold parseOutbounds at h
  simp only at h
  obtain ⟨_, h⟩ := Outcome.guard_ok h
  split at h
  · cases h
  split at h
  · cases h
  split at h
  · exact .inl ⟨_, h⟩
  split at h
  · cases h
  · cases h
  · next obs _ hconvert =>
      cases h
      exact .inr ⟨_, obs, hconvert, rfl⟩

theorem parseXrayJSON_ok {text : List Char} {entries : List (Entry E)}
    (h : parseXrayJSON E text = .ok entries) :
    (∃ objects, parse text = some (arr objects) ∧ entries = objects.map (documentEntry E)) ∨
      ∃ doc, parse text = some doc ∧ entries = [documentEntry E doc] := by
  unfold parseXrayJSON at h
  split at h
  · cases h
  · next objects hparse =>
      obtain ⟨_, h⟩ := Outcome.guard_ok h
      cases h
      exact .inl ⟨objects, hparse, rfl⟩
  · next doc _ hparse =>
      cases h
      exact .inr ⟨_, hparse, rfl⟩

/-- The settings of a chosen outbound can be written. -/
theorem chosen_wellFormed {raw : List Char} {i : Int} {ob : Outbound E}
    (h : chosen V raw i = some ob) : ob.WellFormed := by
  unfold chosen at h
  split at h
  · cases h
  · next entries hentries =>
      obtain ⟨e, he, ho⟩ := Option.bind_eq_some_iff.mp h
      have hmem : e ∈ entries := List.mem_of_getElem? he
      have hob : e.outbound = .ok ob := by
        cases hout : e.outbound <;> rw [hout] at ho <;> cases ho
        rfl
      rcases parseOutbounds_ok hentries with ⟨text, hjson⟩ | ⟨text, obs, hconvert, rfl⟩
      · rcases parseXrayJSON_ok hjson with ⟨objects, hparse, rfl⟩ | ⟨doc, hparse, rfl⟩
        · obtain ⟨x, hx, rfl⟩ := List.mem_map.mp hmem
          have hwf := wellFormed_of_parse hparse
          rw [wellFormed] at hwf
          exact documentEntry_wellFormed ((wellFormedElements_iff objects).mp hwf x hx) hob
        · obtain rfl := List.mem_singleton.mp hmem
          exact documentEntry_wellFormed (wellFormed_of_parse hparse) hob
      · obtain ⟨ob', hob', rfl⟩ := List.mem_map.mp hmem
        cases hob
        exact fun s hs => V.convert_wellFormed _ _ hconvert _ hob' s hs

/-! ## The round trip -/

/-- The document of a link parses to a link with the same description and the
same document. -/
def Link.RoundTrips (V : Sources E) (l : Link E) : Prop :=
  ∃ text l', l.xrayConfig = .ok text ∧ parseLink V text = .ok l' ∧
    l'.description = l.description ∧ l'.xrayConfig = .ok text

/-- The settings, sorted and freed of nulls, are read with the same address,
port and flow and with a valid id. -/
def ReadsBack (p : Protocol) (raw : Json) : Prop :=
  ∃ s t, outboundSettings raw = some s ∧ outboundSettings raw.dropNulls = some t ∧
    t.address = s.address ∧ t.port = s.port ∧ (needsUUID p = true → validUUID t.id = true) ∧
    (p = .vless → settingsFlow raw.dropNulls = settingsFlow raw)

instance (p : Protocol) (raw : Json) : Decidable (ReadsBack p raw) :=
  match hs : outboundSettings raw, ht : outboundSettings raw.dropNulls with
  | some s, some t =>
    decidable_of_iff (t.address = s.address ∧ t.port = s.port ∧
      (needsUUID p = true → validUUID t.id = true) ∧
      (p = .vless → settingsFlow raw.dropNulls = settingsFlow raw)) <| by
        simp [ReadsBack, hs, ht]
  | none, _ => isFalse (by simp [ReadsBack, hs])
  | some _, none => isFalse (by simp [ReadsBack, ht])

/-- The link of a document with one outbound. -/
def onlyLink (r : Outbound E × Description) : Link E :=
  { description := r.2, tag := [], count := 1, index := 0, outbound := r.1 }

/-- The document of an outbound is parsed by filling what it is read as. -/
theorem parseLink_written (V : Sources E) {ob : Outbound E} (hwf : ob.WellFormed)
    (hset : ∀ s, ob.settings = some s → s.isNull = false) :
    ∃ ob', ob.Again ob' ∧ parseLink V (render ob.final) = (fill ob').map onlyLink := by
  obtain ⟨ob', hdecode, hagain⟩ := decodeOutbound_written ob hset
  refine ⟨ob', hagain, ?_⟩
  have hname : stringField "protocol".toList ob.written = some ob.protocol.name :=
    ob.stringField_written rfl
  have htag : stringField "tag".toList ob.written = some outboundTag :=
    ob.stringField_written rfl
  have hhead : proxyHead (obj ob.written) = some (outboundTag, ob.protocol) := by
    simp only [proxyHead, objectMembers, Option.bind_eq_bind, Option.bind_some, htag, hname,
      proxyProtocols_name]
    rfl
  have hentry : documentEntry E ob.final = ⟨some [], .ok ob'⟩ := by
    have hdoc : xrayDocument ob.final = some ([], [obj ob.written]) := rfl
    unfold documentEntry
    rw [hdoc]
    simp only [proxyOutboundOf, chooseProxy, hhead, if_true, hdecode]
  have hclear : { ob' with sendThrough := none, tag := outboundTag } = ob' := by
    rw [← hagain.sendThrough, ← hagain.tag]
  have hentries : parseOutbounds V (render ob.final) = .ok [⟨some [], .ok ob'⟩] :=
    hentry ▸ parseOutbounds_render V hwf.final
  unfold parseLink select
  rw [hentries]
  show ((fill { ob' with sendThrough := none, tag := outboundTag } >>= _) >>= _).map Prod.fst = _
  rw [hclear]
  cases fill ob' <;> rfl

/-- After the map a field that is read as a text is a pointer that is set. -/
theorem pointerField_of_stringField {a : List Char}
    (h : stringField field (dropNullsFields fields) = some a) (ha : a ≠ []) :
    (pointerField field (dropNullsFields fields)).isSome = true := by
  cases hlast : (matching field (dropNullsFields fields)).getLast? with
  | none =>
    rw [List.getLast?_eq_none_iff] at hlast
    rw [stringField, hlast] at h
    exact absurd (Option.some.inj h).symm ha
  | some x =>
    obtain ⟨⟨k, y⟩, hmem, rfl⟩ := List.mem_map.mp (List.mem_of_getLast? hlast)
    obtain ⟨z, _, hnull, rfl⟩ := mem_dropNullsFields (List.mem_filter.mp hmem).1
    have hkeep : z.dropNulls.isNull = false := by rw [isNull_dropNulls, hnull]
    simp [pointerField, hlast, hkeep]

/-- Settings with an address are an object. -/
theorem outboundSettings_obj (h : outboundSettings raw = some s) (ha : s.address ≠ []) :
    ∃ fields, raw = obj fields := by
  cases raw with
  | obj fields => exact ⟨fields, rfl⟩
  | null =>
    have : s = {} := (Option.some.inj h).symm
    rw [this] at ha
    exact absurd rfl ha
  | _ => cases h

/-- The address, port and id of settings that were read. -/
theorem outboundSettings_fields (h : outboundSettings (obj fields) = some s) :
    stringField "address".toList fields = some s.address := by
  obtain ⟨address, haddr, h⟩ := Option.bind_eq_some_iff.mp h
  obtain ⟨port, _, h⟩ := Option.bind_eq_some_iff.mp h
  obtain ⟨id, _, h⟩ := Option.bind_eq_some_iff.mp h
  cases h
  exact haddr

theorem readSettings_some {ob : Outbound E} (hraw : ob.settings = some raw) :
    readSettings ob = .ok s ↔ outboundSettings raw = some s := by
  unfold readSettings
  rw [hraw]
  cases hout : outboundSettings raw <;> simp [hout]

theorem flowOf_eq {ob : Outbound E} (h : ob.settings = some raw) :
    flowOf ob = if ob.protocol = .vless then settingsFlow raw else [] := by
  unfold flowOf
  rw [h]
  rfl

/-- A description carries what was read from the settings. -/
theorem fillStream_fields {ob : Outbound E} (h : fillStream s ob = .ok d) :
    d.address = s.address ∧ d.port = s.port ∧ d.flow = flowOf ob := by
  unfold fillStream at h
  split at h
  · cases h
    exact ⟨rfl, rfl, rfl⟩
  · obtain ⟨network, _, h⟩ := Outcome.bind_ok h
    obtain ⟨⟨security, name, print, reality⟩, _, h⟩ := Outcome.bind_ok h
    cases h
    exact ⟨rfl, rfl, rfl⟩

/-- What `fill` keeps: the corrected outbound, whose settings are an object. -/
structure Filled (flat : Outbound E) (s : OutboundSettings) (kept : Outbound E)
    (d : Description) : Prop where
  chain : checkChain flat = .ok ()
  read : readSettings flat = .ok s
  check : checkSettings flat.protocol s = .ok ()
  kept_eq : kept = corrected s.address flat
  stream : fillStream s kept = .ok d

theorem Filled.settings (h : Filled flat s kept d) :
    ∃ fields, flat.settings = some (obj fields) ∧ outboundSettings (obj fields) = some s := by
  have haddr := (checkSettings_ok.mp h.check).1
  have hread := h.read
  cases hset : flat.settings with
  | none =>
    unfold readSettings at hread
    rw [hset] at hread
    cases hread
    exact absurd rfl haddr
  | some raw =>
    have hout := (readSettings_some hset).mp hread
    obtain ⟨fields, rfl⟩ := outboundSettings_obj hout haddr
    exact ⟨fields, rfl, hout⟩

/-- The document of a kept outbound is parsed by filling an outbound whose
settings went through the map. -/
theorem Filled.again (V : Sources E) (h : Filled flat s kept d) (hwf : kept.WellFormed)
    (hset : flat.settings = some (obj fields)) :
    kept.settings = some (obj fields) ∧ kept.protocol = flat.protocol ∧
      ∃ ob', kept.Again ob' ∧ ob'.settings = some (obj (dropNullsFields fields)) ∧
        ob'.protocol = flat.protocol ∧
        parseLink V (render kept.final) = (fill ob').map onlyLink := by
  have hkset : kept.settings = some (obj fields) := by
    rw [h.kept_eq, corrected_settings, hset]
  have hkp : kept.protocol = flat.protocol := by
    rw [h.kept_eq, corrected_protocol]
  obtain ⟨ob', hagain, hparse⟩ := parseLink_written V hwf (fun r hr => by
    rw [hkset] at hr
    cases hr
    rfl)
  refine ⟨hkset, hkp, ob', hagain, ?_, hagain.protocol.trans hkp, hparse⟩
  rw [hagain.settings, hkset, Option.map_some, dropNulls_obj]

/-- The second parse goes through when the settings are still accepted, flat and
read as before. -/
theorem Filled.roundTrips {t : OutboundSettings} (h : Filled flat s kept d)
    (hwf : kept.WellFormed) (hset : flat.settings = some (obj fields))
    (haccepts : flat.protocol ≠ .hysteria → E.accepts flat.protocol (dropNullsFields fields) = true)
    (hread : outboundSettings (obj fields).dropNulls = some t) (haddr : t.address = s.address)
    (hport : t.port = s.port) (hid : needsUUID flat.protocol = true → validUUID t.id = true)
    (hflow : flat.protocol = .vless → settingsFlow (obj fields).dropNulls = settingsFlow (obj fields))
    (hob : l.outbound = kept) (hdesc : l.description = d) :
    l.RoundTrips V := by
  obtain ⟨hne, hport', _⟩ := checkSettings_ok.mp h.check
  obtain ⟨hkset, hkp, ob', hagain, hset', hp', hparse⟩ := h.again V hwf hset
  have hchain : checkChain ob' = .ok () := by
    rw [checkChain_ok, hagain.proxySettings, hagain.socketSettings, h.kept_eq,
      corrected_proxySettings, corrected_socketSettings]
    exact checkChain_ok.mp h.chain
  have hflat : flattenSettings ob' = .ok ob' := by
    refine flattenSettings_carried hset' fun hhy => ?_
    rw [hp'] at hhy ⊢
    refine ⟨haccepts hhy, ?_⟩
    rw [dropNulls_obj] at hread
    have hsome := pointerField_of_stringField (outboundSettings_fields hread)
      (by rw [haddr]; exact hne)
    rw [isFlat, hsome]
    rfl
  have hs' : readSettings ob' = .ok t := by
    rw [dropNulls_obj] at hread
    exact (readSettings_some hset').mpr hread
  have hcheck : checkSettings ob'.protocol t = .ok () := by
    rw [checkSettings_ok, haddr, hport, hp']
    exact ⟨hne, hport', hid⟩
  have hsettled : Settled ob' := by
    refine hagain.settled ?_
    rw [h.kept_eq]
    exact settled_corrected _ _ hne
  have hflow' : flowOf ob' = flowOf kept := by
    rw [flowOf_eq hset', flowOf_eq hkset, hp', hkp, ← dropNulls_obj]
    split_ifs with hv
    · exact hflow hv
    · rfl
  have hfill : fill ob' = .ok (ob', d) :=
    fill_ok.mpr ⟨ob', t, hchain, hflat, hs', hcheck, (corrected_of_settled hsettled _).symm,
      (hagain.fillStream haddr hport hflow').trans h.stream⟩
  have hwf' : ob'.WellFormed := by
    intro r hr
    rw [hset', ← dropNulls_obj] at hr
    cases hr
    exact wellFormed_dropNulls (hwf _ hkset)
  refine ⟨_, onlyLink (ob', d), Link.xrayConfig_eq (by rw [hob]; exact hwf), ?_, hdesc.symm, ?_⟩
  · rw [hob, hparse, hfill]
    rfl
  · have hfinal : ob'.final = kept.final := by rw [Outbound.final, hagain.written, Outbound.final]
    exact (Link.xrayConfig_eq hwf').trans (by rw [hob, ← hfinal]; rfl)

/-- An entry the second parse would put into the flat form again does not have
the document it came from. -/
theorem written_ne_of_rewritten {a b : Outbound E} (ha : a.settings = some (obj fields))
    (hb : b.settings = some (obj (E.encodeClient c))) (haddr : c.server.address ≠ none)
    (hflat : isFlat E p (dropNullsFields fields) = false) : b.written ≠ a.written := by
  intro hsame
  have hread : ∀ {ob : Outbound E} {fs : List Field}, ob.settings = some (obj fs) →
      matching "settings".toList ob.written = [obj (dropNullsFields fs)] := by
    intro ob fs hs
    rw [ob.matching_written "settings".toList rfl, hs]
    simp [isNull]
  have hfields : dropNullsFields (E.encodeClient c) = dropNullsFields fields := by
    have := (hread hb).symm.trans ((congrArg (matching "settings".toList) hsame).trans (hread ha))
    simpa using this
  rw [← hfields, isFlat_encodeClient haddr] at hflat
  cases hflat

/-- A second parse that went through read the carried settings as the first one
did. -/
theorem Filled.readsBack (h : Filled flat s kept d) (hwf : kept.WellFormed)
    (hob : l.outbound = kept) (hdesc : l.description = d) (hround : l.RoundTrips V)
    (hraw : flat.settings = some raw) : ReadsBack flat.protocol raw := by
  obtain ⟨text, l', htext, hparse, hd, htext'⟩ := hround
  obtain ⟨fields, hset, hout⟩ := h.settings
  rw [hset] at hraw
  cases hraw
  obtain ⟨hkset, hkp, ob', hagain, hset', hp', hparse'⟩ := h.again V hwf hset
  rw [Link.xrayConfig_eq (by rw [hob]; exact hwf), hob] at htext
  cases htext
  rw [hparse'] at hparse
  cases hfill : fill ob' with
  | error e =>
    rw [hfill] at hparse
    cases hparse
  | ok r =>
    obtain ⟨kept₂, d₂⟩ := r
    rw [hfill] at hparse
    cases hparse
    obtain ⟨flat₂, t, _, hflat₂, hread₂, hcheck₂, hkept₂, hstream₂⟩ := fill_ok.mp hfill
    have hkset₂ : kept₂.settings = flat₂.settings := by
      rw [hkept₂]
      exact corrected_settings _ _
    have hkp₂ : kept₂.protocol = flat₂.protocol := by
      rw [hkept₂]
      exact corrected_protocol _ _
    obtain ⟨hne₂, _, hid₂⟩ := checkSettings_ok.mp hcheck₂
    rcases flattenSettings_ok hset' hflat₂ with ⟨rfl, _, _⟩ | ⟨c, hcp, ⟨_, fs, hfs, hnot⟩, rfl⟩
    · -- the settings were carried again, so they are what was read
      have ht : outboundSettings (obj fields).dropNulls = some t := by
        rw [dropNulls_obj]
        exact (readSettings_some hset').mp hread₂
      obtain ⟨ha₁, hp₁, hf₁⟩ := fillStream_fields h.stream
      obtain ⟨ha₂, hp₂, hf₂⟩ := fillStream_fields hstream₂
      have hdd : d₂ = d := hd.trans hdesc
      refine ⟨s, t, hout, ht, ?_, ?_, ?_, ?_⟩
      · rw [← ha₂, ← ha₁, hdd]
      · rw [← hp₂, ← hp₁, hdd]
      · intro hneeds
        rw [← hp'] at hneeds
        exact hid₂ hneeds
      · intro hv
        have hflow : flowOf kept₂ = flowOf kept := by rw [← hf₂, ← hf₁, hdd]
        rw [flowOf_eq (hkset₂.trans hset'), flowOf_eq hkset, hkp₂, hp', hkp, if_pos hv,
          if_pos hv] at hflow
        rw [dropNulls_obj]
        exact hflow
    · -- rewriting them again changes the document
      exfalso
      have haddr : c.server.address ≠ none := by
        intro hnone
        have hcl := address_encodeClient (E := E) c
        rw [hnone] at hcl
        obtain ⟨fs', hfs', hout'⟩ : ∃ fs', some (obj (E.encodeClient c)) = some (obj fs') ∧
            outboundSettings (obj fs') = some t := by
          have hfilled : Filled _ t kept₂ d₂ := ⟨by assumption, hread₂, hcheck₂, hkept₂, hstream₂⟩
          exact hfilled.settings
        cases hfs'
        rw [outboundSettings_fields hout'] at hcl
        exact hne₂ (Option.some.inj hcl)
      have hwf₂ : kept₂.WellFormed := by
        intro r hr
        rw [hkset₂] at hr
        cases hr
        exact E.wellFormed_encodeClient c
      have hsame : kept₂.written = kept.written := by
        rw [Link.xrayConfig_eq (l := onlyLink (kept₂, d₂)) hwf₂] at htext'
        have hparsed : parse (render kept₂.final) = parse (render kept.final) :=
          congrArg parse (Except.ok.inj htext')
        rw [parse_render hwf₂.final, parse_render hwf.final] at hparsed
        simpa [Outbound.final] using hparsed
      cases hfs
      exact written_ne_of_rewritten hkset hkset₂ haddr hnot hsame

/-- An outbound without settings names no server and is refused. -/
theorem fill_settings {ob : Outbound E} (hfill : fill ob = .ok (kept, d)) : ob.settings ≠ none := by
  intro hset
  obtain ⟨flat, s, _, hflat, hread, hcheck, _, _⟩ := fill_ok.mp hfill
  unfold readSettings at hread
  rw [flattenSettings_none hset hflat] at hread
  cases hread
  exact (checkSettings_ok.mp hcheck).1 rfl

/-- What an outbound is filled as: itself, or the flat record its settings were
put into. -/
theorem fill_cases {ob : Outbound E} (hfill : fill ob = .ok (kept, d)) (hwf : ob.WellFormed)
    (hset : ob.settings = some raw) :
    ∃ s fields, flattenSettings ob = .ok { ob with settings := some (obj fields) } ∧
      Filled { ob with settings := some (obj fields) } s kept d ∧ kept.WellFormed ∧
      (raw = obj fields ∧ ¬Rewritten E ob.protocol raw ∧
          (ob.protocol ≠ .hysteria → E.accepts ob.protocol fields = true) ∨
        ∃ c : Client, c.protocol = ob.protocol ∧ Rewritten E ob.protocol raw ∧
          fields = E.encodeClient c) := by
  obtain ⟨flat, s, hchain, hflat, hread, hcheck, hkept, hstream⟩ := fill_ok.mp hfill
  rcases flattenSettings_ok hset hflat with ⟨rfl, hnot, haccepts⟩ | ⟨c, hcp, hrew, rfl⟩
  · have hfilled : Filled _ s kept d := ⟨hchain, hread, hcheck, hkept, hstream⟩
    obtain ⟨fields, hfields, _⟩ := hfilled.settings
    obtain rfl : raw = obj fields := Option.some.inj (hset.symm.trans hfields)
    have hsame : { flat with settings := some (obj fields) } = flat := by rw [← hset]
    refine ⟨s, fields, by rwa [hsame], by rwa [hsame], ?_, .inl ⟨rfl, hnot, fun hhy => ?_⟩⟩
    · intro r hr
      rw [hfilled.kept_eq, corrected_settings] at hr
      exact hwf r hr
    · obtain ⟨fs, hfs, hacc⟩ := haccepts hhy
      cases hfs
      exact hacc
  · refine ⟨s, _, hflat, ⟨hchain, hread, hcheck, hkept, hstream⟩, ?_, .inr ⟨c, hcp, hrew, rfl⟩⟩
    intro r hr
    rw [hkept] at hr
    cases (corrected_settings _ _).symm.trans hr
    exact E.wellFormed_encodeClient c

/-- The round trip of a link, from the outbound it was filled with. -/
theorem fill_round_trips (V : Sources E) {ob : Outbound E}
    (hfill : fill ob = .ok (l.outbound, l.description)) (hwf : ob.WellFormed)
    (hset : ob.settings = some raw) :
    l.RoundTrips V ↔ Rewritten E ob.protocol raw ∨ ReadsBack ob.protocol raw := by
  obtain ⟨s, fields, _, hfilled, hwf', hcase⟩ := fill_cases hfill hwf hset
  have hout : outboundSettings (obj fields) = some s := (readSettings_some rfl).mp hfilled.read
  rcases hcase with ⟨rfl, hnot, haccepts⟩ | ⟨cl, hcp, hrew, rfl⟩
  · constructor
    · intro hround
      exact .inr (hfilled.readsBack hwf' rfl rfl hround rfl)
    · rintro (hrew | ⟨s', t, hs', ht, haddr, hport, hid, hflow⟩)
      · exact absurd hrew hnot
      · rw [hout] at hs'
        cases hs'
        exact hfilled.roundTrips hwf' rfl (fun hhy => E.accepts_dropNulls _ _ (haccepts hhy)) ht
          haddr hport hid hflow rfl rfl
  · refine ⟨fun _ => .inl hrew, fun _ => ?_⟩
    have hsingle : ∀ name ∈ readNames, Single name (E.encodeClient cl) :=
      fun _ hname => single_encodeClient cl hname
    refine hfilled.roundTrips hwf' rfl ?_ ((outboundSettings_dropNulls hsingle).trans hout)
      rfl rfl (checkSettings_ok.mp hfilled.check).2.2 (fun _ => settingsFlow_dropNulls hsingle)
      rfl rfl
    intro _
    show E.accepts ob.protocol _ = true
    rw [← hcp]
    exact E.accepts_client cl

/-- **The document of a link is read back** exactly when the settings of the
chosen outbound were put into the flat form, or are read the same once their
members were sorted, reduced to one of each name and freed of nulls. -/
theorem select_round_trips_iff {V : Sources E} {raw : List Char} {i : Int} {l : Link E} {c : Bool}
    (h : select V raw i = .ok (l, c)) :
    l.RoundTrips V ↔ ∀ ob s, chosen V raw i = some ob → ob.settings = some s →
      Rewritten E ob.protocol s ∨ ReadsBack ob.protocol s := by
  obtain ⟨ob, hchosen, hfill⟩ := select_ok h
  have hwf := chosen_wellFormed hchosen
  obtain ⟨s, hset⟩ := Option.ne_none_iff_exists'.mp (fill_settings hfill)
  have htagged := fill_round_trips V hfill (fun r hr => hwf r hr) hset
  constructor
  · intro hround ob' s' hob' hs'
    rw [hchosen] at hob'
    cases hob'
    have hsame : s = s' := Option.some.inj (hset.symm.trans hs')
    subst hsame
    exact htagged.mp hround
  · intro hall
    exact htagged.mpr (hall ob s hchosen hset)

/-- A document whose settings name their server once. -/
def oneAddress : List Char :=
  ("\x7b\"outbounds\":[\x7b\"protocol\":\"socks\",\"settings\":" ++
    "\x7b\"address\":\"a.example\",\"port\":443\x7d\x7d]\x7d").toList

/-- Its link is read back. -/
theorem oneAddress_round_trips :
    ∃ l c, select noLinks oneAddress 0 = .ok (l, c) ∧ l.RoundTrips noLinks := by
  have hok : (select noLinks oneAddress 0).isOk = true := by decide +kernel
  obtain ⟨⟨l, c⟩, h⟩ := Outcome.ok_of_isOk hok
  refine ⟨l, c, h, (select_round_trips_iff h).mpr ?_⟩
  have hreads : ((chosen noLinks oneAddress 0).all fun ob =>
      ob.settings.all fun s => decide (ReadsBack ob.protocol s)) = true := by decide +kernel
  intro ob s hob hs
  rw [hob] at hreads
  simp only [Option.all_some, hs, decide_eq_true_eq] at hreads
  exact .inr hreads

/-- A document whose settings name two servers, in two spellings. -/
def twoAddresses : List Char :=
  ("\x7b\"outbounds\":[\x7b\"protocol\":\"socks\",\"settings\":" ++
    "\x7b\"address\":\"a.example\",\"Address\":\"b.example\",\"port\":443\x7d\x7d]\x7d").toList

/-- The document written for it, its members sorted. -/
def twoAddressesDocument : List Char :=
  ("\x7b\"outbounds\":[\x7b\"protocol\":\"socks\",\"settings\":" ++
    "\x7b\"Address\":\"b.example\",\"address\":\"a.example\",\"port\":443\x7d," ++
    "\"tag\":\"proxy\",\"targetStrategy\":\"\"\x7d]\x7d").toList

/-- The link reports the second server, and its document is read as naming the
first. -/
theorem twoAddresses_not_round_trips :
    ∃ l c, select noLinks twoAddresses 0 = .ok (l, c) ∧
      l.description.address = "b.example".toList ∧ l.xrayConfig = .ok twoAddressesDocument ∧
      ((parseLink noLinks twoAddressesDocument).toOption.map fun l' => l'.description.address) =
        some "a.example".toList ∧ ¬l.RoundTrips noLinks := by
  have hselect : ((select noLinks twoAddresses 0).toOption.any fun r =>
      r.1.description.address = "b.example".toList ∧
        r.1.xrayConfig = .ok twoAddressesDocument) = true := by decide +kernel
  have hback : ((parseLink noLinks twoAddressesDocument).toOption.map fun l' =>
      l'.description.address) = some "a.example".toList := by decide +kernel
  obtain ⟨⟨l, c⟩, h, hlink⟩ := Outcome.ok_of_any hselect
  obtain ⟨hb, htext⟩ := of_decide_eq_true hlink
  refine ⟨l, c, h, hb, htext, hback, ?_⟩
  rintro ⟨text, l', htext', hparse, hd, _⟩
  rw [htext] at htext'
  rw [Except.ok.inj htext', hparse] at hback
  have haddr : l'.description.address = "a.example".toList := Option.some.inj hback
  rw [hd, hb] at haddr
  exact absurd haddr (by decide)

end Caspian.Link
