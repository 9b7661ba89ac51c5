import Caspian.State.Format

/-!
# The store

`Store` keeps the current state in memory and in one file.  `Load` reads the
file and brings it up to the current version; `Update` applies a change to a
copy, checks the result, writes it to a temporary file that it renames over the
old one, and only then publishes it.  Every file-system call may fail, and
`Faults` says which do.  The temporary file is gone or ignored after a failure,
so the disk is the state directory and the file in it.
-/

namespace Caspian.Persist

open Verified

/-! ## What other packages decide -/

/-- What `url.Parse` found. -/
structure Url where
  scheme : Bytes
  hasUser : Bool
  hostname : Bytes

/-- `snispoof.NormalizeName`, `url.Parse` and `net.ParseIP`.  No name stays no name,
and a name that is accepted is made of letters, digits, hyphens and dots. -/
structure Library where
  normalizeName : Bytes → Option Bytes
  normalize_nil : normalizeName [] = some []
  normalize_valid : ∀ {name normalized}, normalizeName name = some normalized →
    Utf8.Valid normalized
  parseURL : Bytes → Option Url
  isIP : Bytes → Bool

variable {T : Type} [DecidableEq T] (lib : Library) (c : TimeFormat T)

/-! ## Checking -/

/-- The check of the spoof name and the splits. -/
def spoofAccepted (p : ProxyConfig T) : Bool :=
  lib.normalizeName p.spoofSNI = some p.spoofSNI &&
    (!(p.spoofSNI ≠ [] || p.tcpSplit || p.tlsRecordSplit) || p.isConfigured)

/-- `validate`. -/
def validate (st : State T) : Except String Unit :=
  if spoofAccepted lib st.proxy = false then .error "state: invalid SNI spoofing setting"
  else if st.version ≠ currentVersion then
    .error ("state: refusing to write schema version " ++ toString st.version.toInt ++
      ", this build writes " ++ toString currentVersion.toInt)
  else if st.advanced.dnsMode = [] then
    .error "state: refusing to write an empty DNS mode; empty must never be readable as 'let client traffic out'"
  else if st.advanced.onTunnelDown = [] then
    .error "state: refusing to write an empty tunnel-down policy; empty must never be readable as 'let client traffic out'"
  else if st.advanced.clientIPv6 = [] then
    .error "state: refusing to write an empty client IPv6 policy; empty must never be readable as 'let client IPv6 out', which bypasses the tunnel entirely"
  else .ok ()

/-! ## Migrations -/

def migrateV0ToV1 (st : State T) : State T :=
  { st with
    version := 1
    advanced :=
      { st.advanced with
        dnsMode := if st.advanced.dnsMode = [] then dnsModeTunnel else st.advanced.dnsMode
        onTunnelDown :=
          if st.advanced.onTunnelDown = [] then onTunnelDownBlock else st.advanced.onTunnelDown } }

def migrateV1ToV2 (st : State T) : State T :=
  { st with
    version := 2
    advanced :=
      { st.advanced with
        clientIPv6 :=
          if st.advanced.clientIPv6 = [] then clientIPv6Block else st.advanced.clientIPv6 } }

def migrateV2ToV3 (st : State T) : State T := { st with version := 3 }

def migrateV3ToV4 (st : State T) : State T :=
  { st with version := 4, proxy := { st.proxy with spoofSNI := [] } }

def migrateV4ToV5 (st : State T) : State T :=
  { st with version := 5, proxy := { st.proxy with tcpSplit := false, tlsRecordSplit := false } }

/-- `migrations`. -/
def migrations : List (Int64 × (State T → State T)) :=
  [(0, migrateV0ToV1), (1, migrateV1ToV2), (2, migrateV2ToV3), (3, migrateV3ToV4),
    (4, migrateV4ToV5)]

/-- Why a file is not loaded. -/
inductive LoadError where
  | parentNotDirectory
  | notDirectory
  | loose (what : String)
  | isDirectory
  | notJSON
  | futureVersion (found supports : Int64)
  | notAVersion (found : Int64)
  | noMigration (version : Int64)
  | stuck (version left : Int64)
  deriving DecidableEq

/-- The loop of `migrate`; a turn raises the version, so that as many turns as
there are versions are enough. -/
def migrateFrom : Nat → State T → Except LoadError (State T)
  | 0, st => .ok st
  | n + 1, st =>
    if st.version < currentVersion then
      match migrations.lookup st.version with
      | none => .error (.noMigration st.version)
      | some up =>
        if (up st).version ≠ st.version + 1 then .error (.stuck st.version (up st).version)
        else migrateFrom n (up st)
    else .ok st

/-- `migrate`. -/
def migrate (st : State T) : Except LoadError (State T) :=
  if currentVersion < st.version then .error (.futureVersion st.version currentVersion)
  else if st.version < 0 then .error (.notAVersion st.version)
  else migrateFrom 6 st

/-! ## Loading -/

/-- What stands at the path of the state file. -/
structure FileEntry where
  /-- The JSON value of its text, if the text is one. -/
  contents : Option Json
  /-- The mode is no looser than required. -/
  tight : Bool := true
  isDir : Bool := false

/-- The state directory. -/
inductive Disk where
  | absent
  /-- One of its parents is not a directory. -/
  | blocked
  | notDirectory
  /-- Its mode is too loose. -/
  | loose (file : Option FileEntry)
  | ready (file : Option FileEntry)

/-- The part of `Load` after the file was read. -/
def loadContents (contents : Option Json) : Except LoadError (State T) :=
  match contents.bind (decodeState c) with
  | none => .error .notJSON
  | some st => migrate st

/-- `Load`: the state, and whether this is the first run. -/
def load : Disk → Except LoadError (State T × Bool)
  | .absent => .ok (defaultState c, true)
  | .blocked => .error .parentNotDirectory
  | .notDirectory => .error .notDirectory
  | .loose _ => .error (.loose "directory")
  | .ready none => .ok (defaultState c, true)
  | .ready (some file) =>
    if file.isDir then .error .isDirectory
    else if file.tight = false then .error (.loose "file")
    else (loadContents c file.contents).map fun st => (st, false)

/-! ## Writing -/

/-- The calls that fail. -/
structure Faults where
  stat : Bool := false
  mkdir : Bool := false
  createTemp : Bool := false
  chmod : Bool := false
  write : Bool := false
  sync : Bool := false
  close : Bool := false
  rename : Bool := false
  openDir : Bool := false
  syncDir : Bool := false
  deriving DecidableEq

/-- Why the file was not written. -/
inductive WriteError where
  | examining
  | creatingDirectory
  | notDirectory
  | loose
  | encoding
  | creating
  | permissions
  | writing
  | flushing
  | closing
  | replacing
  | openingDirectory
  | flushingDirectory
  deriving DecidableEq

/-- `ensureDir`, with the file of the directory. -/
def ensureDir (f : Faults) : Disk → Except WriteError (Option FileEntry)
  | .absent =>
    if f.stat then .error .examining
    else if f.mkdir then .error .creatingDirectory
    else .ok none
  | .blocked => .error .examining
  | .notDirectory => if f.stat then .error .examining else .error .notDirectory
  | .loose _ => if f.stat then .error .examining else .error .loose
  | .ready file => if f.stat then .error .examining else .ok file

/-- The temporary file, written and closed. -/
def writeTemp (f : Faults) (x : Json) : Except WriteError FileEntry :=
  if f.createTemp then .error .creating
  else if f.chmod then .error .permissions
  else if f.write then .error .writing
  else if f.sync then .error .flushing
  else if f.close then .error .closing
  else .ok { contents := some x }

/-- `syncDir`. -/
def syncDir (f : Faults) : Except WriteError Unit :=
  if f.openDir then .error .openingDirectory
  else if f.syncDir then .error .flushingDirectory
  else .ok ()

/-- A rename does not replace a directory. -/
def occupied (file : Option FileEntry) : Bool := file.any fun entry => entry.isDir

/-- `writeAtomic`. -/
def writeAtomic (st : State T) (f : Faults) (disk : Disk) : Except WriteError Unit × Disk :=
  match ensureDir f disk with
  | .error e => (.error e, disk)
  | .ok file =>
    match encodeState c st with
    | none => (.error .encoding, .ready file)
    | some x =>
      match writeTemp f x with
      | .error e => (.error e, .ready file)
      | .ok temp =>
        if f.rename || occupied file then (.error .replacing, .ready file)
        else (syncDir f, .ready (some temp))

/-! ## Updating -/

/-- Why an update was refused. -/
inductive UpdateError where
  | refused (text : String)
  | subscription (rule : String)
  | spoofName
  | invalid (text : String)
  | write (e : WriteError)
  deriving DecidableEq

/-- A store and the disk it writes to. -/
structure World (T : Type) where
  cur : State T
  firstRun : Bool
  disk : Disk

/-- The version and the time of an update. -/
def stamp (st : State T) (now : T) : State T :=
  { st with version := currentVersion, updatedAt := now }

/-- `Update`. -/
def update (fn : State T → Except UpdateError (State T)) (now : T) (f : Faults) (w : World T) :
    Except UpdateError Unit × World T :=
  match fn w.cur with
  | .error e => (.error e, w)
  | .ok st =>
    match validate lib (stamp st now) with
    | .error text => (.error (.invalid text), w)
    | .ok () =>
      match writeAtomic c (stamp st now) f w.disk with
      | (.error e, disk) => (.error (.write e), { w with disk := disk })
      | (.ok (), disk) => (.ok (), { cur := stamp st now, firstRun := false, disk := disk })

/-- `Save`. -/
def save (now : T) (f : Faults) (w : World T) : Except UpdateError Unit × World T :=
  update lib c .ok now f w

/-! ## Setters -/

def maxSubscriptionURL : Nat := 2048

/-- `validateSubscriptionURL`: the rule that is broken. -/
def validateSubscriptionURL (raw : Bytes) : Except UpdateError Unit :=
  if maxSubscriptionURL < raw.length then
    .error (.subscription "state: the subscription address is longer than this box stores")
  else if (Utf8.lossy raw).any fun r => r.toNat < 0x20 || r.toNat = 0x7f then
    .error (.subscription "state: the subscription address could not be read as an address")
  else
    match lib.parseURL raw with
    | none => .error (.subscription "state: the subscription address could not be read as an address")
    | some u =>
      if Text.equalFold (String.ofList (Utf8.lossy u.scheme)) "https" = false then
        .error (.subscription "state: the subscription address must start with https")
      else if u.hasUser then
        .error (.subscription
          "state: the subscription address must not carry a user name or password before the host")
      else if u.hostname = [] then
        .error (.subscription "state: the subscription address has no host name")
      else if lib.isIP (u.hostname.takeWhile fun b => b ≠ '%'.toUInt8) then
        .error (.subscription "state: the subscription address must use a name, not an IP address")
      else .ok ()

/-- `base64.RawStdEncoding`. -/
def base64Char (n : Nat) : Char :=
  "ABCDEFGHIJKLMNOPQRSTUVWXYZabcdefghijklmnopqrstuvwxyz0123456789+/".toList.getD n 'A'

def base64 : Bytes → List Char
  | a :: b :: c :: rest =>
    base64Char (a.toNat / 4) :: base64Char (a.toNat % 4 * 16 + b.toNat / 16) ::
      base64Char (b.toNat % 16 * 4 + c.toNat / 64) :: base64Char (c.toNat % 64) :: base64 rest
  | [a, b] =>
    [base64Char (a.toNat / 4), base64Char (a.toNat % 4 * 16 + b.toNat / 16),
      base64Char (b.toNat % 16 * 4)]
  | [a] => [base64Char (a.toNat / 4), base64Char (a.toNat % 4 * 16)]
  | [] => []

/-- `encodeHash` with the parameters of this build. -/
def encodeHash (salt key : Bytes) : Bytes :=
  Utf8.encode ("$argon2id$v=19$m=65536,t=3,p=4$".toList ++ base64 salt ++ '$' :: base64 key)

/-- `hashPassword`, with the salt if one could be drawn and the key derived from it. -/
def hashPassword (plaintext : Bytes) (salt : Option Bytes) (key : Bytes) :
    Except UpdateError Bytes :=
  if plaintext = [] then .error (.refused "state: panel password must not be empty")
  else
    match salt with
    | none => .error (.refused "state: generating password salt")
    | some salt => .ok (encodeHash salt key)

/-- The calls that change the store; `saveAdvanced` is the panel's own update. -/
inductive Setter (T : Type) where
  | save
  | setProxyConfig (raw scheme label : Bytes)
  | selectProxyEntry (i : Int64)
  | setHotspot (ssid passphrase : Bytes)
  | setPanelPassword (plaintext : Bytes) (salt : Option Bytes) (key : Bytes)
  | setSpoofSNI (name : Bytes)
  | setDPISettings (name : Bytes) (tcpSplit tlsRecordSplit : Bool)
  | setSubscriptionURL (u : Bytes)
  | recordRefresh (raw scheme label : Bytes) (q : Quota) (time : T)
  | saveAdvanced (connectionsOnly : Bool) (internet hotspotIf : Bytes) (channel : Int64)
      (band country subnet logLevel : Bytes) (onLAN : Bool)

/-- The common part of the two setters of the spoof name. -/
def setSpoof (name : Bytes) (change : Bytes → ProxyConfig T → ProxyConfig T) (st : State T) :
    Except UpdateError (State T) :=
  match lib.normalizeName name with
  | none => .error .spoofName
  | some name =>
    if st.proxy.isConfigured = false then
      .error (.refused "state: no proxy configuration is stored")
    else .ok { st with proxy := change name st.proxy }

/-- What a setter makes of the state; the checks it makes before `Update` are made
here, they do not look at the state.  `now` is its own reading of the clock. -/
def Setter.change (now : T) (st : State T) : Setter T → Except UpdateError (State T)
  | .save => .ok st
  | .setProxyConfig raw scheme label =>
    if raw = [] then .error (.refused "state: proxy config must not be empty")
    else
      .ok { st with
        proxy := { st.proxy with
          raw := raw, scheme := scheme, label := label, selected := 0, spoofSNI := [],
          tcpSplit := false, tlsRecordSplit := false, addedAt := now,
          refreshedAt := c.zero, quota := {} } }
  | .selectProxyEntry i =>
    if i < 0 then .error (.refused "state: the proxy entry to use cannot be negative")
    else if st.proxy.isConfigured = false then
      .error (.refused "state: no proxy config is stored, so there is no entry to select")
    else .ok { st with proxy := { st.proxy with selected := i } }
  | .setHotspot ssid passphrase => .ok { st with hotspot := ⟨ssid, passphrase⟩ }
  | .setPanelPassword plaintext salt key =>
    (hashPassword plaintext salt key).map fun hash => { st with panel := ⟨hash⟩ }
  | .setSpoofSNI name => setSpoof lib name (fun name p => { p with spoofSNI := name }) st
  | .setDPISettings name tcpSplit tlsRecordSplit =>
    setSpoof lib name (fun name p =>
      { p with spoofSNI := name, tcpSplit := tcpSplit, tlsRecordSplit := tlsRecordSplit }) st
  | .setSubscriptionURL u =>
    (validateSubscriptionURL lib u).map fun _ =>
      { st with proxy := { st.proxy with subscriptionURL := u } }
  | .recordRefresh raw scheme label q time =>
    if raw = [] then .error (.refused "state: proxy config must not be empty")
    else if st.proxy.hasSubscription = false then
      .error (.refused
        "state: no subscription address is stored, so there is nothing to refresh from")
    else if q.upload < 0 || q.download < 0 || q.total < 0 || q.expire < 0 then
      .error (.refused "state: the usage figures from a refresh cannot be negative")
    else
      .ok { st with
        proxy := { st.proxy with
          raw := raw, scheme := scheme, label := label, selected := 0, addedAt := time,
          refreshedAt := time, quota := q } }
  | .saveAdvanced connectionsOnly internet hotspotIf channel band country subnet logLevel onLAN =>
    let adv := { st.advanced with
      internetInterface := internet, hotspotInterface := hotspotIf, band := band }
    if connectionsOnly then .ok { st with advanced := adv }
    else
      .ok { st with
        advanced := { adv with
          channel := channel, country := country, subnet := subnet,
          engineLogLevel := logLevel, panelOnLAN := onLAN } }

/-- A call of a setter: its own reading of the clock, that of `Update`, and the
calls that fail. -/
structure Step (T : Type) where
  setter : Setter T
  before : T
  now : T
  faults : Faults := {}

def Step.apply (w : World T) (s : Step T) : Except UpdateError Unit × World T :=
  update lib c (fun st => s.setter.change lib c s.before st) s.now s.faults w

/-- The store after some setters, all of which succeeded; the last one first. -/
def after (w : World T) : List (Step T) → Option (World T)
  | [] => some w
  | s :: earlier => (after w earlier).bind fun w =>
    match s.apply lib c w with
    | (.ok (), w') => some w'
    | (.error _, _) => none

/-! ## What a write leaves -/

section Writes

variable {lib c}

/-- The calls up to the rename succeed. -/
def Replaces (c : TimeFormat T) (st : State T) (f : Faults) (disk : Disk) : Prop :=
  ∃ file, ensureDir f disk = .ok file ∧ (encodeState c st).isSome = true ∧
    f.createTemp = false ∧ f.chmod = false ∧ f.write = false ∧ f.sync = false ∧
      f.close = false ∧ f.rename = false ∧ occupied file = false

/-- The directory can be flushed. -/
def Flushes (f : Faults) : Prop := f.openDir = false ∧ f.syncDir = false

variable {f : Faults}

theorem syncDir_ok : syncDir f = .ok () ↔ Flushes f := by
  unfold syncDir Flushes
  cases f.openDir <;> cases f.syncDir <;> simp

theorem writeTemp_ok {x : Json} {temp : FileEntry} :
    writeTemp f x = .ok temp ↔ (f.createTemp = false ∧ f.chmod = false ∧ f.write = false ∧
      f.sync = false ∧ f.close = false) ∧ temp = { contents := some x } := by
  unfold writeTemp
  cases f.createTemp <;> cases f.chmod <;> cases f.write <;> cases f.sync <;> cases f.close <;>
    simp [eq_comm]

variable {disk : Disk}

omit [DecidableEq T] in
/-- Making sure of the directory changes nothing that `Load` would see. -/
theorem load_ready {file : Option FileEntry} (h : ensureDir f disk = .ok file) :
    load c (.ready file) = load c disk := by
  cases disk with
  | absent | ready file' =>
    simp only [ensureDir] at h
    split_ifs at h
    cases h
    rfl
  | blocked => cases h
  | notDirectory | loose file =>
    simp only [ensureDir] at h
    split_ifs at h

/-- A write that replaces the file leaves the new one, and fails only if the
directory cannot be flushed. -/
theorem writeAtomic_replaces {st : State T} (h : Replaces c st f disk) :
    ∃ x, encodeState c st = some x ∧
      writeAtomic c st f disk = (syncDir f, .ready (some { contents := some x })) := by
  obtain ⟨file, hdir, hencode, hcreate, hchmod, hwrite, hsync, hclose, hrename, hfree⟩ := h
  obtain ⟨x, hx⟩ := Option.isSome_iff_exists.mp hencode
  have htemp : writeTemp f x = .ok { contents := some x } :=
    writeTemp_ok.mpr ⟨⟨hcreate, hchmod, hwrite, hsync, hclose⟩, rfl⟩
  refine ⟨x, hx, ?_⟩
  simp [writeAtomic, hdir, hx, htemp, hrename, hfree]

/-- A write that does not fails, and leaves what `Load` reads. -/
theorem writeAtomic_fails {st : State T} (h : ¬Replaces c st f disk) :
    ∃ e disk', writeAtomic c st f disk = (.error e, disk') ∧ load c disk' = load c disk := by
  unfold writeAtomic
  cases hdir : ensureDir f disk with
  | error e => exact ⟨e, disk, rfl, rfl⟩
  | ok file =>
    have hload := load_ready (c := c) hdir
    cases hx : encodeState c st with
    | none => exact ⟨.encoding, _, rfl, hload⟩
    | some x =>
      cases htemp : writeTemp f x with
      | error e => exact ⟨e, _, by simp [htemp], hload⟩
      | ok temp =>
        obtain ⟨⟨hcreate, hchmod, hwrite, hsync, hclose⟩, _⟩ := writeTemp_ok.mp htemp
        have hblocked : (f.rename || occupied file) = true := by
          by_contra hfree
          rw [Bool.not_eq_true, Bool.or_eq_false_iff] at hfree
          exact h ⟨file, hdir, by simp [hx], hcreate, hchmod, hwrite, hsync, hclose,
            hfree.1, hfree.2⟩
        exact ⟨.replacing, _, by simp [htemp, hblocked], hload⟩

end Writes

end Caspian.Persist
