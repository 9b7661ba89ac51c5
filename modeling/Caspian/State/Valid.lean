import Caspian.State.Reload

/-!
# Which states are valid

Every state an update publishes has passed `validate`.  A state that was loaded
has not: `Load` blanks the policies before it reads the file, and a migration
fills one in only on the way from the version that lacked it.  So a loaded state
is valid exactly if the file says enough for its version (`Proper`).
-/

namespace Caspian.Persist

open Verified

variable {T : Type} {lib : Library} {c : TimeFormat T}

variable {st : State T}

theorem validate_ok : validate lib st = .ok () ↔
    spoofAccepted lib st.proxy = true ∧ st.version = currentVersion ∧
      st.advanced.dnsMode ≠ [] ∧ st.advanced.onTunnelDown ≠ [] ∧ st.advanced.clientIPv6 ≠ [] := by
  unfold validate
  cases hspoof : spoofAccepted lib st.proxy with
  | false => simp
  | true =>
    simp only [Bool.true_eq_false, if_false, true_and]
    by_cases hversion : st.version = currentVersion
    · by_cases hdns : st.advanced.dnsMode = []
      · simp [hversion, hdns]
      · by_cases hdown : st.advanced.onTunnelDown = []
        · simp [hversion, hdns, hdown]
        · by_cases hipv6 : st.advanced.clientIPv6 = [] <;> simp [hversion, hdns, hdown, hipv6]
    · simp [hversion]

/-- The state an update would write is as valid as the one it came from. -/
theorem validate_stamp (h : st.version = currentVersion) (now : T) :
    validate lib (stamp st now) = .ok () ↔ validate lib st = .ok () := by
  rw [validate_ok, validate_ok]
  simp [stamp, h]

/-! ## Migrations -/

/-- What every migration keeps, the loop keeps. -/
theorem migrateFrom_keeps {P : State T → Prop}
    (hup : ∀ st up, (st.version, up) ∈ migrations → P st → P (up st)) (n : Nat) {st st' : State T}
    (hst : P st) (h : migrateFrom n st = .ok st') : P st' := by
  induction n generalizing st with
  | zero =>
    cases h
    exact hst
  | succ n ih =>
    rw [migrateFrom] at h
    split_ifs at h with hlt
    · split at h
      next => cases h
      next up hlookup =>
        split_ifs at h with hstuck
        obtain ⟨before, later, hsplit, _⟩ := List.lookup_eq_some_iff.mp hlookup
        have hmem : (st.version, up) ∈ migrations := by
          rw [hsplit]
          simp
        exact ih (hup st up hmem hst) h
    · cases h
      exact hst

/-- A turn raises the version by one, so enough turns reach the current one. -/
theorem migrateFrom_version (n : Nat) {st st' : State T} (hle : st.version.toInt ≤ 5)
    (hn : 5 < st.version.toInt + n) (h : migrateFrom n st = .ok st') :
    st'.version = currentVersion := by
  have hfive : currentVersion.toInt = 5 := by decide
  induction n generalizing st with
  | zero => omega
  | succ n ih =>
    rw [migrateFrom] at h
    split_ifs at h with hlt <;> rw [Int64.lt_iff_toInt_lt, hfive] at hlt
    · split at h
      next => cases h
      next up hlookup =>
        split_ifs at h with hstuck
        have hnext : (up st).version.toInt = st.version.toInt + 1 := by
          have hlow := st.version.le_toInt
          rw [not_not.mp hstuck, Int64.toInt_add]
          exact Int.bmod_eq_of_le (by simp; omega) (by simp; omega)
        exact ih (by omega) (by omega) h
    · cases h
      exact Int64.toInt_inj.mp (by omega)

/-! ## What a file has to say -/

/-- What `Load` keeps of the spoof settings of a file. -/
def keptSpoof (st : State T) : ProxyConfig T :=
  { st.proxy with
    spoofSNI := if st.version < 4 then [] else st.proxy.spoofSNI
    tcpSplit := if st.version < 5 then false else st.proxy.tcpSplit
    tlsRecordSplit := if st.version < 5 then false else st.proxy.tlsRecordSplit }

/-- The file, as it is read, names every policy its version has, and spoof settings
that pass the check. -/
def Proper (lib : Library) (st : State T) : Prop :=
  (st.version = 0 ∨ st.advanced.dnsMode ≠ [] ∧ st.advanced.onTunnelDown ≠ []) ∧
    (st.version < 2 ∨ st.advanced.clientIPv6 ≠ []) ∧ spoofAccepted lib (keptSpoof st) = true

theorem filled_ne_nil (bs : Bytes) {filler : Bytes} (h : filler ≠ []) :
    (if bs = [] then filler else bs) ≠ [] := by
  split_ifs with hempty
  · exact h
  · exact hempty

/-- A migration fills in a policy its version lacked, or clears what `Load` does not
keep. -/
theorem migration_proper {up : State T → State T} (hup : (st.version, up) ∈ migrations) :
    Proper lib (up st) ↔ Proper lib st := by
  have htunnel  := fun bs => filled_ne_nil bs (by decide : dnsModeTunnel ≠ [])
  have hblock  := fun bs => filled_ne_nil bs (by decide : onTunnelDownBlock ≠ [])
  have hipv6  := fun bs => filled_ne_nil bs (by decide : clientIPv6Block ≠ [])
  simp only [migrations, List.mem_cons, Prod.mk.injEq, List.not_mem_nil, or_false] at hup
  rcases hup with ⟨hv, rfl⟩ | ⟨hv, rfl⟩ | ⟨hv, rfl⟩ | ⟨hv, rfl⟩ | ⟨hv, rfl⟩
  · simp [Proper, keptSpoof, migrateV0ToV1, hv, htunnel, hblock]
  · simp [Proper, keptSpoof, migrateV1ToV2, hv, hipv6]
  · simp [Proper, keptSpoof, migrateV2ToV3, hv]
  · simp [Proper, keptSpoof, migrateV3ToV4, hv]
  · simp [Proper, keptSpoof, migrateV4ToV5, hv]

/-- A state of the current version is valid if it is proper. -/
theorem valid_iff_proper (h : st.version = currentVersion) :
    validate lib st = .ok () ↔ Proper lib st := by
  rw [validate_ok, Proper, keptSpoof]
  simp [h]
  tauto

/-- A migrated state is valid exactly if the file was proper. -/
theorem migrate_valid {st' : State T} (h : migrate st = .ok st') :
    st'.version = currentVersion ∧ (validate lib st' = .ok () ↔ Proper lib st) := by
  have hfive : currentVersion.toInt = 5 := by decide
  have hzero : (0 : Int64).toInt = 0 := by decide
  unfold migrate at h
  split_ifs at h with hfuture hnegative
  rw [Int64.lt_iff_toInt_lt] at hfuture hnegative
  have hversion := migrateFrom_version 6 (by omega) (by omega) h
  have hproper := migrateFrom_keeps (P := fun s => Proper lib s ↔ Proper lib st)
    (fun s up hup hs => (migration_proper hup).trans hs) 6 Iff.rfl h
  exact ⟨hversion, (valid_iff_proper hversion).trans hproper⟩

/-- The file of the directory, if there is one that is read, is proper. -/
def ProperDisk (lib : Library) (c : TimeFormat T) : Disk → Prop
  | .ready (some file) => ∀ st, file.contents.bind (decodeState c) = some st → Proper lib st
  | _ => True

theorem default_valid : validate lib (defaultState c) = .ok () := by
  rw [validate_ok]
  refine ⟨?_, rfl, ?_, ?_, ?_⟩
  · simp [spoofAccepted, defaultState, zeroState, lib.normalize_nil]
  · show dnsModeTunnel ≠ []
    decide
  · show onTunnelDownBlock ≠ []
    decide
  · show clientIPv6Block ≠ []
    decide

/-- What is loaded is the default, or the file brought to the current version. -/
theorem load_ok {disk : Disk} {first : Bool} (h : load c disk = .ok (st, first)) :
    st = defaultState c ∧ (disk = .absent ∨ disk = .ready none) ∨
      ∃ file decoded, disk = .ready (some file) ∧
        file.contents.bind (decodeState c) = some decoded ∧ migrate decoded = .ok st := by
  cases disk with
  | absent =>
    cases h
    exact .inl ⟨rfl, .inl rfl⟩
  | ready file =>
    cases file with
    | none =>
      cases h
      exact .inl ⟨rfl, .inr rfl⟩
    | some file =>
      simp only [load] at h
      split_ifs at h with hdir htight
      unfold loadContents at h
      split at h
      next => cases h
      next decoded hdecode =>
        cases hmigrate : migrate decoded with
        | error e =>
          rw [hmigrate] at h
          cases h
        | ok st' =>
          rw [hmigrate] at h
          cases h
          exact .inr ⟨file, decoded, rfl, hdecode, hmigrate⟩
  | _ => cases h

/-- A loaded state is valid exactly if its file is proper. -/
theorem load_valid {disk : Disk} {first : Bool} (h : load c disk = .ok (st, first)) :
    st.version = currentVersion ∧ (validate lib st = .ok () ↔ ProperDisk lib c disk) := by
  rcases load_ok h with ⟨rfl, rfl | rfl⟩ | ⟨file, decoded, rfl, hdecode, hmigrate⟩
  · exact ⟨rfl, by simp [default_valid, ProperDisk]⟩
  · exact ⟨rfl, by simp [default_valid, ProperDisk]⟩
  · simpa [ProperDisk, hdecode] using migrate_valid hmigrate

variable [DecidableEq T]

variable {w : World T}

/-- What a successful update publishes has been checked. -/
theorem update_valid {fn : State T → Except UpdateError (State T)} {now : T} {f : Faults}
    {w' : World T} (h : update lib c fn now f w = (.ok (), w')) :
    w'.cur.version = currentVersion ∧ validate lib w'.cur = .ok () := by
  unfold update at h
  split at h
  · cases h
  · split at h
    · cases h
    next hvalid =>
      split at h
      · cases h
      · cases h
        exact ⟨rfl, hvalid⟩

theorem after_cons {w' : World T} {s : Step T} {earlier : List (Step T)}
    (h : after lib c w (s :: earlier) = some w') :
    ∃ w₁, after lib c w earlier = some w₁ ∧ s.apply lib c w₁ = (.ok (), w') := by
  obtain ⟨w₁, hearlier, hstep⟩ := Option.bind_eq_some_iff.mp h
  refine ⟨w₁, hearlier, ?_⟩
  split at hstep
  next w₂ heq =>
    cases hstep
    exact heq
  next => cases hstep

/-- A save goes through the check of the state it saves. -/
theorem save_ok_iff {now : T} {f : Faults} (hversion : w.cur.version = currentVersion)
    (hreplaces : Replaces c (stamp w.cur now) f w.disk) (hflushes : Flushes f) :
    (save lib c now f w).1 = .ok () ↔ validate lib w.cur = .ok () := by
  obtain ⟨x, _, hwrite⟩ := writeAtomic_replaces hreplaces
  rw [syncDir_ok.mpr hflushes] at hwrite
  rw [← validate_stamp hversion now]
  unfold save update
  cases hvalid : validate lib (stamp w.cur now) with
  | error text => simp [hvalid]
  | ok u => simp [hvalid, hwrite]

/-- **Which reachable states are valid.**  A state that was loaded and then changed
by setters is valid, has its policies, and can be saved, exactly if some setter
succeeded or the file was proper. -/
theorem reachable_valid_iff {disk : Disk} {st : State T} {first : Bool}
    (hload : load c disk = .ok (st, first)) {steps : List (Step T)} {w : World T}
    (hsteps : after lib c ⟨st, first, disk⟩ steps = some w) :
    (validate lib w.cur = .ok () ↔ steps ≠ [] ∨ ProperDisk lib c disk) ∧
      (steps ≠ [] ∨ ProperDisk lib c disk → w.cur.advanced.dnsMode ≠ [] ∧
        w.cur.advanced.onTunnelDown ≠ [] ∧ w.cur.advanced.clientIPv6 ≠ []) ∧
      ∀ now f, Replaces c (stamp w.cur now) f w.disk → Flushes f →
        ((save lib c now f w).1 = .ok () ↔ steps ≠ [] ∨ ProperDisk lib c disk) := by
  have hvalid : w.cur.version = currentVersion ∧
      (validate lib w.cur = .ok () ↔ steps ≠ [] ∨ ProperDisk lib c disk) := by
    cases steps with
    | nil =>
      cases hsteps
      simpa using load_valid hload
    | cons s earlier =>
      obtain ⟨w₁, _, hstep⟩ := after_cons hsteps
      obtain ⟨hversion, hok⟩ := update_valid hstep
      exact ⟨hversion, by simp [hok]⟩
  refine ⟨hvalid.2, ?_, ?_⟩
  · intro h
    exact (validate_ok.mp (hvalid.2.mpr h)).2.2
  · intro now f hreplaces hflushes
    rw [save_ok_iff hvalid.1 hreplaces hflushes, hvalid.2]

/-- A first run that names the hotspot. -/
theorem nameHotspot_valid : ∃ w,
    after noNames strokes firstStore [⟨nameHotspot, 6, 7, {}⟩] = some w ∧
      validate noNames w.cur = .ok () := by
  have hsome : (after noNames strokes firstStore [⟨nameHotspot, 6, 7, {}⟩]).isSome = true := by
    decide
  obtain ⟨w, hw⟩ := Option.isSome_iff_exists.mp hsome
  exact ⟨w, hw, (reachable_valid_iff rfl hw).1.mpr (.inl (by simp))⟩

/-- A file of the current version that names no policy. -/
def policyless : Disk := .ready (some { contents := some (.obj [("version".toList, .num ['5'])]) })

/-- It is loaded, with an empty policy, and cannot be saved. -/
theorem policyless_loaded : ∃ st, load strokes policyless = .ok (st, false) ∧
    st.advanced.dnsMode = [] ∧ validate noNames st ≠ .ok () ∧
      (save noNames strokes 7 {} ⟨st, false, policyless⟩).1 =
        .error (.invalid "state: refusing to write an empty DNS mode; empty must never be readable as 'let client traffic out'") := by
  have hload : load strokes policyless =
      .ok ({ defaultState strokes with advanced := {} }, false) := by
    decide
  refine ⟨_, hload, rfl, ?_, ?_⟩ <;> decide

end Caspian.Persist
