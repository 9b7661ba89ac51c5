import Caspian.State.Valid

/-!
# Loading what was saved

A state whose texts are all UTF-8 is loaded as it was saved.  A loaded state has
such texts only, since its texts were JSON strings.  A setter stores the bytes it
is given, so the store and its file agree after every setter of a run exactly if
each was given such texts.
-/

namespace Caspian.Persist

open Verified

variable {T : Type}

/-! ## Texts of a state -/

def ProxyConfig.Utf8 (p : ProxyConfig T) : Prop :=
  Utf8.Valid p.spoofSNI ∧ Utf8.Valid p.raw ∧ Utf8.Valid p.scheme ∧ Utf8.Valid p.label ∧
    Utf8.Valid p.subscriptionURL

def HotspotConfig.Utf8 (h : HotspotConfig) : Prop := Utf8.Valid h.ssid ∧ Utf8.Valid h.passphrase

def PanelAuth.Utf8 (p : PanelAuth) : Prop := Utf8.Valid p.passwordHash

def Advanced.Utf8 (a : Advanced) : Prop :=
  Utf8.Valid a.internetInterface ∧ Utf8.Valid a.hotspotInterface ∧ Utf8.Valid a.band ∧
    Utf8.Valid a.country ∧ Utf8.Valid a.subnet ∧ Utf8.Valid a.dnsMode ∧
      Utf8.Valid a.onTunnelDown ∧ Utf8.Valid a.clientIPv6 ∧ Utf8.Valid a.engineLogLevel

theorem state_utf8_iff (st : State T) : st.Utf8 ↔
    st.proxy.Utf8 ∧ st.hotspot.Utf8 ∧ st.panel.Utf8 ∧ st.advanced.Utf8 := by
  obtain ⟨version, ⟨⟩, ⟨⟩, ⟨⟩, ⟨⟩, updatedAt⟩ := st
  simp only [State.Utf8, State.scrub, ProxyConfig.scrub, HotspotConfig.scrub, PanelAuth.scrub,
    Advanced.scrub, State.mk.injEq, ProxyConfig.mk.injEq, HotspotConfig.mk.injEq,
    PanelAuth.mk.injEq, Advanced.mk.injEq, true_and, and_true, ProxyConfig.Utf8,
    HotspotConfig.Utf8, PanelAuth.Utf8, Advanced.Utf8, Utf8.Valid]

/-! ## Texts that were loaded -/

theorem plainField_keeps {α : Type} {read : Json → Option α} {P : α → Prop}
    (hread : ∀ x b, read x = some b → P b) :
    ∀ (xs : List Json) (a b : α), P a → Json.plainField read a xs = some b → P b
  | [], _, _, ha, h => by
      cases h
      exact ha
  | x :: xs, a, b, ha, h => by
      rw [Json.plainField] at h
      split_ifs at h with hnull
      · exact plainField_keeps hread xs a b ha h
      · split at h
        next c hc => exact plainField_keeps hread xs c b (hread x c hc) h
        next => cases h

theorem recordField_keeps {α : Type} {fill : α → Fields → Option α} {P : α → Prop}
    (hfill : ∀ a fields b, P a → fill a fields = some b → P b) :
    ∀ (xs : List Json) (a b : α), P a → Json.recordField fill a xs = some b → P b
  | [], _, _, ha, h => by
      cases h
      exact ha
  | x :: xs, a, b, ha, h => by
      obtain ⟨fields, _, h⟩ := Option.bind_eq_some_iff.mp h
      obtain ⟨a', ha', h⟩ := Option.bind_eq_some_iff.mp h
      exact recordField_keeps hfill xs a' b (hfill a fields a' ha ha') h

theorem textField_valid {name : String} {old bs : Bytes} {fields : Fields}
    (hold : Utf8.Valid old) (h : textField name old fields = some bs) : Utf8.Valid bs := by
  refine plainField_keeps ?_ _ old bs hold h
  intro x b hx
  cases x with
  | str s =>
    cases hx
    exact Utf8.valid_encode s
  | _ => cases hx

variable {c : TimeFormat T}

theorem fillProxy_utf8 (p : ProxyConfig T) (fields : Fields) (q : ProxyConfig T) (hp : p.Utf8)
    (h : fillProxy c p fields = some q) : q.Utf8 := by
  obtain ⟨hspoof, hraw, hscheme, hlabel, hurl⟩ := hp
  simp only [fillProxy, Option.bind_eq_bind, Option.bind_eq_some_iff] at h
  obtain ⟨spoofSNI, h₁, tcpSplit, _, tlsRecordSplit, _, raw, h₂, scheme, h₃, label, h₄, selected, _,
    addedAt, _, subscriptionURL, h₅, refreshedAt, _, quota, _, h⟩ := h
  cases h
  exact ⟨textField_valid hspoof h₁, textField_valid hraw h₂, textField_valid hscheme h₃,
    textField_valid hlabel h₄, textField_valid hurl h₅⟩

theorem fillHotspot_utf8 (a : HotspotConfig) (fields : Fields) (b : HotspotConfig) (ha : a.Utf8)
    (h : fillHotspot a fields = some b) : b.Utf8 := by
  obtain ⟨ssid, h₁, h⟩ := Option.bind_eq_some_iff.mp h
  obtain ⟨passphrase, h₂, h⟩ := Option.bind_eq_some_iff.mp h
  cases h
  exact ⟨textField_valid ha.1 h₁, textField_valid ha.2 h₂⟩

theorem fillPanel_utf8 (a : PanelAuth) (fields : Fields) (b : PanelAuth) (ha : a.Utf8)
    (h : fillPanel a fields = some b) : b.Utf8 := by
  obtain ⟨hash, h₁, h⟩ := Option.bind_eq_some_iff.mp h
  cases h
  exact textField_valid ha h₁

theorem fillAdvanced_utf8 (a : Advanced) (fields : Fields) (b : Advanced) (ha : a.Utf8)
    (h : fillAdvanced a fields = some b) : b.Utf8 := by
  obtain ⟨hinternet, hhotspot, hband, hcountry, hsubnet, hdns, hdown, hipv6, hlevel⟩ := ha
  simp only [fillAdvanced, Option.bind_eq_bind, Option.bind_eq_some_iff] at h
  obtain ⟨internetInterface, h₁, hotspotInterface, h₂, channel, _, band, h₃, country, h₄,
    subnet, h₅, dnsMode, h₆, onTunnelDown, h₇, clientIPv6, h₈, engineLogLevel, h₉, panelOnLAN, _,
    h⟩ := h
  cases h
  exact ⟨textField_valid hinternet h₁, textField_valid hhotspot h₂, textField_valid hband h₃,
    textField_valid hcountry h₄, textField_valid hsubnet h₅, textField_valid hdns h₆,
    textField_valid hdown h₇, textField_valid hipv6 h₈, textField_valid hlevel h₉⟩

variable {st st' : State T}

theorem fillState_utf8 {fields : Fields} (hst : st.Utf8) (h : fillState c st fields = some st') :
    st'.Utf8 := by
  rw [state_utf8_iff] at hst ⊢
  obtain ⟨hproxy, hhotspot, hpanel, hadvanced⟩ := hst
  simp only [fillState, Option.bind_eq_bind, Option.bind_eq_some_iff] at h
  obtain ⟨version, _, proxy, h₁, hotspot, h₂, panel, h₃, advanced, h₄, updatedAt, _, h⟩ := h
  cases h
  exact ⟨recordField_keeps fillProxy_utf8 _ _ _ hproxy h₁,
    recordField_keeps fillHotspot_utf8 _ _ _ hhotspot h₂,
    recordField_keeps fillPanel_utf8 _ _ _ hpanel h₃,
    recordField_keeps fillAdvanced_utf8 _ _ _ hadvanced h₄⟩

theorem valid_ascii (text : String) : Utf8.Valid (ascii text) := Utf8.valid_encode _

theorem blankState_utf8 : (blankState c).Utf8 := rfl

theorem defaultState_utf8 : (defaultState c).Utf8 := by
  rw [state_utf8_iff]
  refine ⟨⟨rfl, rfl, rfl, rfl, rfl⟩, ⟨rfl, rfl⟩, rfl, rfl, rfl, rfl, rfl, rfl, ?_, ?_, ?_, rfl⟩
  · exact valid_ascii "tunnel"
  · exact valid_ascii "block"
  · exact valid_ascii "block"

theorem valid_filled {bs filler : Bytes} (hbs : Utf8.Valid bs) (hfiller : Utf8.Valid filler) :
    Utf8.Valid (if bs = [] then filler else bs) := by
  split_ifs
  · exact hfiller
  · exact hbs

/-- A migration fills in constants and clears fields. -/
theorem migration_utf8 {v : Int64} {up : State T → State T} (hup : (v, up) ∈ migrations)
    (hst : st.Utf8) : (up st).Utf8 := by
  rw [state_utf8_iff] at hst ⊢
  simp only [migrations, List.mem_cons, Prod.mk.injEq, List.not_mem_nil, or_false] at hup
  rcases hup with ⟨_, rfl⟩ | ⟨_, rfl⟩ | ⟨_, rfl⟩ | ⟨_, rfl⟩ | ⟨_, rfl⟩
  · obtain ⟨hproxy, hhotspot, hpanel, h₁, h₂, h₃, h₄, h₅, hdns, hdown, hrest⟩ := hst
    exact ⟨hproxy, hhotspot, hpanel, h₁, h₂, h₃, h₄, h₅, valid_filled hdns (valid_ascii "tunnel"),
      valid_filled hdown (valid_ascii "block"), hrest⟩
  · obtain ⟨hproxy, hhotspot, hpanel, h₁, h₂, h₃, h₄, h₅, hdns, hdown, hipv6, hlevel⟩ := hst
    exact ⟨hproxy, hhotspot, hpanel, h₁, h₂, h₃, h₄, h₅, hdns, hdown,
      valid_filled hipv6 (valid_ascii "block"), hlevel⟩
  · exact hst
  · exact ⟨⟨Utf8.valid_nil, hst.1.2⟩, hst.2⟩
  · exact hst

/-- What is loaded consists of texts. -/
theorem load_utf8 {disk : Disk} {first : Bool} (h : load c disk = .ok (st, first)) : st.Utf8 := by
  rcases load_ok h with ⟨rfl, _⟩ | ⟨file, decoded, _, hdecode, hmigrate⟩
  · exact defaultState_utf8
  · obtain ⟨x, _, hx⟩ := Option.bind_eq_some_iff.mp hdecode
    obtain ⟨fields, _, hfill⟩ := Option.bind_eq_some_iff.mp hx
    unfold migrate at hmigrate
    split_ifs at hmigrate
    exact migrateFrom_keeps (fun _ _ => migration_utf8) 6 (fillState_utf8 blankState_utf8 hfill)
      hmigrate

/-! ## Setters -/

/-- The texts a setter stores are texts. -/
def Setter.Utf8 : Setter T → Prop
  | .setProxyConfig raw scheme label => Utf8.Valid raw ∧ Utf8.Valid scheme ∧ Utf8.Valid label
  | .setHotspot ssid passphrase => Utf8.Valid ssid ∧ Utf8.Valid passphrase
  | .setSubscriptionURL u => Utf8.Valid u
  | .recordRefresh raw scheme label _ _ => Utf8.Valid raw ∧ Utf8.Valid scheme ∧ Utf8.Valid label
  | .saveAdvanced connectionsOnly internet hotspotIf _ band country subnet logLevel _ =>
    Utf8.Valid internet ∧ Utf8.Valid hotspotIf ∧ Utf8.Valid band ∧
      (connectionsOnly = false →
        Utf8.Valid country ∧ Utf8.Valid subnet ∧ Utf8.Valid logLevel)
  | _ => True

variable {lib : Library}

theorem stamp_utf8_iff (st : State T) (now : T) : (stamp st now).Utf8 ↔ st.Utf8 := by
  rw [state_utf8_iff, state_utf8_iff]
  rfl

theorem setSpoof_utf8 {name : Bytes} {change : Bytes → ProxyConfig T → ProxyConfig T}
    (h : setSpoof lib name change st = .ok st') :
    ∃ normalized, Utf8.Valid normalized ∧
      st' = { st with proxy := change normalized st.proxy } := by
  unfold setSpoof at h
  cases hname : lib.normalizeName name with
  | none =>
    rw [hname] at h
    cases h
  | some normalized =>
    rw [hname] at h
    simp only at h
    split_ifs at h
    cases h
    exact ⟨normalized, lib.normalize_valid hname, rfl⟩

/-- A state of texts stays one exactly if the setter is given texts. -/
theorem change_utf8_iff {s : Setter T} {now : T} (hst : st.Utf8)
    (h : s.change lib c now st = .ok st') : st'.Utf8 ↔ s.Utf8 := by
  rw [state_utf8_iff] at hst ⊢
  obtain ⟨hproxy, hhotspot, hpanel, hadvanced⟩ := hst
  cases s with
  | save =>
    cases h
    simp [Setter.Utf8, hproxy, hhotspot, hpanel, hadvanced]
  | setProxyConfig raw scheme label =>
    simp only [Setter.change] at h
    split_ifs at h
    cases h
    simp [Setter.Utf8, ProxyConfig.Utf8, hproxy.2.2.2.2, hhotspot, hpanel, hadvanced,
      Utf8.valid_nil]
  | selectProxyEntry i =>
    simp only [Setter.change] at h
    split_ifs at h
    cases h
    have hkept : ProxyConfig.Utf8 { st.proxy with selected := i } := hproxy
    simp [Setter.Utf8, hkept, hhotspot, hpanel, hadvanced]
  | setHotspot ssid passphrase =>
    cases h
    simp [Setter.Utf8, HotspotConfig.Utf8, hproxy, hpanel, hadvanced]
  | setPanelPassword plaintext salt key =>
    simp only [Setter.change] at h
    unfold hashPassword at h
    split_ifs at h with hempty
    · cases h
    · cases salt with
      | none => cases h
      | some salt =>
        cases h
        have hhash : PanelAuth.Utf8 ⟨encodeHash salt key⟩ := Utf8.valid_encode _
        simp [Setter.Utf8, hhash, hproxy, hhotspot, hadvanced]
  | setSpoofSNI name =>
    simp only [Setter.change] at h
    obtain ⟨normalized, hvalid, rfl⟩ := setSpoof_utf8 h
    have hkept : ProxyConfig.Utf8 { st.proxy with spoofSNI := normalized } := ⟨hvalid, hproxy.2⟩
    simp [Setter.Utf8, hkept, hhotspot, hpanel, hadvanced]
  | setDPISettings name tcpSplit tlsRecordSplit =>
    simp only [Setter.change] at h
    obtain ⟨normalized, hvalid, rfl⟩ := setSpoof_utf8 h
    have hkept : ProxyConfig.Utf8 { st.proxy with
        spoofSNI := normalized, tcpSplit := tcpSplit, tlsRecordSplit := tlsRecordSplit } :=
      ⟨hvalid, hproxy.2⟩
    simp [Setter.Utf8, hkept, hhotspot, hpanel, hadvanced]
  | setSubscriptionURL u =>
    simp only [Setter.change] at h
    cases hurl : validateSubscriptionURL lib u with
    | error e =>
      rw [hurl] at h
      cases h
    | ok v =>
      rw [hurl] at h
      cases h
      simp [Setter.Utf8, ProxyConfig.Utf8, hproxy.1, hproxy.2.1, hproxy.2.2.1,
        hproxy.2.2.2.1, hhotspot, hpanel, hadvanced]
  | recordRefresh raw scheme label q time =>
    simp only [Setter.change] at h
    split_ifs at h
    cases h
    simp [Setter.Utf8, ProxyConfig.Utf8, hproxy.1, hproxy.2.2.2.2, hhotspot, hpanel, hadvanced]
  | saveAdvanced connectionsOnly internet hotspotIf channel band country subnet logLevel onLAN =>
    obtain ⟨_, _, _, hcountry, hsubnet, hdns, hdown, hipv6, hlevel⟩ := hadvanced
    cases connectionsOnly with
    | true =>
      cases h
      simp [Setter.Utf8, Advanced.Utf8, hproxy, hhotspot, hpanel, hcountry, hsubnet, hdns,
        hdown, hipv6, hlevel]
    | false =>
      cases h
      simp [Setter.Utf8, Advanced.Utf8, hproxy, hhotspot, hpanel, hdns, hdown, hipv6]

/-! ## Runs of setters -/

variable [DecidableEq T]

/-- A successful update leaves the new state, and a file that is read as it with its
texts scrubbed. -/
theorem update_load {fn : State T → Except UpdateError (State T)} {now : T} {f : Faults}
    {w w' : World T} (h : update lib c fn now f w = (.ok (), w')) :
    ∃ st, fn w.cur = .ok st ∧ w'.cur = stamp st now ∧
      load c w'.disk = .ok ((stamp st now).scrub, false) := by
  unfold update at h
  cases hfn : fn w.cur with
  | error e =>
    rw [hfn] at h
    cases h
  | ok st =>
    rw [hfn] at h
    simp only at h
    cases hvalid : validate lib (stamp st now) with
    | error text =>
      rw [hvalid] at h
      cases h
    | ok u =>
      rw [hvalid] at h
      simp only at h
      by_cases hreplaces : Replaces c (stamp st now) f w.disk
      · obtain ⟨x, hx, hwrite⟩ := writeAtomic_replaces hreplaces
        rw [hwrite] at h
        cases hflush : syncDir f with
        | error e =>
          rw [hflush] at h
          cases h
        | ok v =>
          rw [hflush] at h
          cases h
          exact ⟨st, rfl, rfl, load_written hx⟩
      · obtain ⟨e, disk', hwrite, _⟩ := writeAtomic_fails hreplaces
        rw [hwrite] at h
        cases h

/-- A run of setters that are given texts leaves a state of texts. -/
theorem after_utf8 {w₀ : World T} (hstart : w₀.cur.Utf8) :
    ∀ {steps : List (Step T)} {w : World T}, after lib c w₀ steps = some w →
      (∀ s ∈ steps, s.setter.Utf8) → w.cur.Utf8 := by
  intro steps
  induction steps with
  | nil =>
    intro w h _
    cases h
    exact hstart
  | cons s earlier ih =>
    intro w h htexts
    obtain ⟨w₁, hearlier, hstep⟩ := after_cons h
    obtain ⟨st, hchange, hcur, _⟩ := update_load hstep
    have hbefore := ih hearlier fun s hs => htexts s (List.mem_cons_of_mem _ hs)
    rw [hcur, stamp_utf8_iff]
    exact (change_utf8_iff hbefore hchange).mpr (htexts s List.mem_cons_self)

/-- **Loading what was saved.**  After every setter of a run the file is loaded as the
state the store holds, exactly if every setter of the run was given texts in
UTF-8. -/
theorem reload_iff {disk : Disk} {st : State T} {first : Bool}
    (hload : load c disk = .ok (st, first)) {steps : List (Step T)} {last : World T}
    (hsteps : after lib c ⟨st, first, disk⟩ steps = some last) :
    (∀ earlier w, earlier <:+ steps → after lib c ⟨st, first, disk⟩ earlier = some w →
        (load c w.disk).map Prod.fst = .ok w.cur) ↔
      ∀ s ∈ steps, s.setter.Utf8 := by
  have hstart : st.Utf8 := load_utf8 hload
  constructor
  · intro hagree
    induction steps generalizing last with
    | nil =>
      intro s hs
      cases hs
    | cons s earlier ih =>
      obtain ⟨w₁, hearlier, hstep⟩ := after_cons hsteps
      have htexts := ih hearlier fun earlier' w hsuffix =>
        hagree earlier' w (hsuffix.trans (List.suffix_cons _ _))
      obtain ⟨st', hchange, hcur, hdisk⟩ := update_load hstep
      have hbefore : w₁.cur.Utf8 := after_utf8 hstart hearlier htexts
      have hsame := hagree (s :: earlier) last (List.suffix_refl _) hsteps
      rw [hdisk, hcur] at hsame
      have hutf8 : (stamp st' s.now).Utf8 := Except.ok.inj hsame
      intro s' hs'
      rcases List.mem_cons.mp hs' with rfl | hs'
      · exact (change_utf8_iff hbefore hchange).mp ((stamp_utf8_iff st' _).mp hutf8)
      · exact htexts s' hs'
  · intro htexts earlier w hsuffix hw
    cases earlier with
    | nil =>
      cases hw
      rw [hload]
      rfl
    | cons s before =>
      obtain ⟨w₁, _, hstep⟩ := after_cons hw
      obtain ⟨st', _, hcur, hdisk⟩ := update_load hstep
      have hutf8 : w.cur.Utf8 :=
        after_utf8 hstart hw fun s' hs' => htexts s' (hsuffix.subset hs')
      rw [hdisk]
      rw [hcur] at hutf8 ⊢
      exact congrArg Except.ok hutf8

/-- A first run that names the hotspot. -/
theorem nameHotspot_reloads : ∃ w,
    after noNames strokes firstStore [⟨nameHotspot, 6, 7, {}⟩] = some w ∧
      (load strokes w.disk).map Prod.fst = .ok w.cur := by
  have hsome : (after noNames strokes firstStore [⟨nameHotspot, 6, 7, {}⟩]).isSome = true := by
    decide
  obtain ⟨w, hw⟩ := Option.isSome_iff_exists.mp hsome
  refine ⟨w, hw, (reload_iff rfl hw).mpr ?_ _ w (List.suffix_refl _) hw⟩
  intro s hs
  rw [List.mem_singleton.mp hs]
  exact ⟨valid_ascii _, valid_ascii _⟩

/-- A label cut in the middle of a character. -/
def cutLabel : Setter Nat := .setProxyConfig (ascii "vless://") (ascii "vless") [0xC3]

theorem cutLabel_replaced : ∃ w,
    after noNames strokes firstStore [⟨cutLabel, 6, 7, {}⟩] = some w ∧
      w.cur.proxy.label = [0xC3] ∧
      ((load strokes w.disk).toOption.map fun p => p.1.proxy.label) = some [0xEF, 0xBF, 0xBD] := by
  have htest : (after noNames strokes firstStore [⟨cutLabel, 6, 7, {}⟩]).any (fun w =>
      decide (w.cur.proxy.label = [0xC3]) &&
        decide (((load strokes w.disk).toOption.map fun p => p.1.proxy.label) =
          some [0xEF, 0xBF, 0xBD])) = true := by
    decide
  obtain ⟨w, hw, hboth⟩ := (Option.any_eq_true _ _).mp htest
  simp only [Bool.and_eq_true, decide_eq_true_eq] at hboth
  exact ⟨w, hw, hboth.1, hboth.2⟩

end Caspian.Persist
