import Caspian.Netip.Addr
import Caspian.Verified.Outcome

/-!
# The access point and what it may be asked for

`hotspot.APConfig` is everything the access point is rendered from, and
`validate` turns what `hostapd` would refuse at startup into a sentence.
`RadioConstraint` is what the radio reported: `NewPlan` refuses a
configuration the radio cannot run before anything is started.  The two
configuration files the plan also holds are functions of the rest and are
rendered in `Hotspot.Render`.

Go strings are bytes and a length is a number of bytes; a Lean string is
always valid UTF-8, so the two checks of `utf8.ValidString` have no branch.
-/

namespace Caspian.Hotspot

open Verified Netip

/-! ## Text checks -/

/-- A list of numbers as `%v` prints it. -/
def intList (ns : List Int) : String :=
  "[" ++ String.intercalate " " (ns.map itoaInt) ++ "]"

def tokenRune (c : Char) : Bool :=
  c.isAlphanum || c ∈ ['.', '_', '-']

/-- `validConfigToken`. -/
def validConfigToken (what v : String) : Except String Unit :=
  if v = "" then .error ("hotspot: no " ++ what ++ " was given")
  else if 64 < v.utf8ByteSize then
    .error ("hotspot: " ++ what ++ " " ++ Text.quote v ++ " is too long")
  else if v.toList.all tokenRune = false then
    .error ("hotspot: " ++ what ++ " " ++ Text.quote v ++
      " contains a character that is not allowed")
  else .ok ()

def isControl (c : Char) : Bool := c.toNat < 0x20 || c.toNat = 0x7f

/-- `noControlChars`. -/
def noControlChars (what v : String) : Except String Unit :=
  if v.toList.any isControl then
    .error ("hotspot: " ++ what ++
      " contains a control character and cannot be written to a configuration file")
  else .ok ()

/-- `validServiceAccount`. -/
def validServiceAccount (what v : String) : Except String Unit := do
  validConfigToken what v
  if 32 < v.utf8ByteSize then
    .error ("hotspot: " ++ what ++ " " ++ Text.quote v ++ " is longer than a user name can be")
  else if Text.hasPrefix v "-" then
    .error ("hotspot: " ++ what ++ " " ++ Text.quote v ++ " cannot begin with a hyphen")
  else .ok ()

/-- `validAbsPath`. -/
def validAbsPath (what p : String) : Except String Unit :=
  if p = "" then .error ("hotspot: no " ++ what ++ " was given")
  else if Text.hasPrefix p "/" = false then
    .error ("hotspot: " ++ what ++ " " ++ Text.quote p ++ " must be an absolute path")
  else noControlChars what p

/-! ## Bands and channels -/

/-- `Band`. -/
inductive Band where
  | band2GHz
  | band5GHz
  | other (name : String)
  deriving DecidableEq, Repr

def Band.text : Band → String
  | band2GHz => "2.4GHz"
  | band5GHz => "5GHz"
  | other name => name

def channels5GHz : List Int := [36, 40, 44, 48, 149, 153, 157, 161, 165]

/-- `validChannel`. -/
def validChannel (band : Band) (ch : Int) : Except String Unit :=
  match band with
  | .band2GHz =>
    if ch < 1 ∨ 13 < ch then
      .error ("hotspot: channel " ++ itoaInt ch ++ " is not a 2.4 GHz channel (1 to 13)")
    else .ok ()
  | .band5GHz =>
    if ch ∈ channels5GHz then .ok ()
    else
      .error ("hotspot: channel " ++ itoaInt ch ++ " is not one this program will use on 5 GHz " ++
        intList channels5GHz ++
        " (radar-detection channels are excluded because they delay or interrupt the hotspot)")
  | .other name => .error ("hotspot: unknown radio band " ++ Text.quote name)

/-- `validCountryCode`. -/
def validCountryCode (cc : String) : Except String Unit :=
  if cc = "" then
    .error "hotspot: no country was set, and the hotspot cannot legally pick a channel without one"
  else if cc.utf8ByteSize ≠ 2 then
    .error ("hotspot: country " ++ Text.quote cc ++ " is not a two-letter country code")
  else if cc.toList.all Char.isUpper = false then
    .error ("hotspot: country " ++ Text.quote cc ++ " must be two capital letters, for example GB")
  else .ok ()

/-! ## The password -/

def minPassphraseLen : Nat := 8
def maxPassphraseLen : Nat := 63

/-- `bannedPassphrases`: well-known defaults. -/
def bannedPassphrases : List String :=
  ["securepass123", "password", "password123", "12345678", "123456789", "changeme", "caspian",
    "hotspot", "raspberry", "admin"]

/-- `ValidatePassphrase`. -/
def validatePassphrase (p : String) : Except String Unit :=
  if p = "" then .error "hotspot: no hotspot password was set"
  else if p.utf8ByteSize < minPassphraseLen then
    .error ("hotspot: the hotspot password is " ++ itoa p.utf8ByteSize ++
      " characters and WPA2 needs at least " ++ itoa minPassphraseLen)
  else if maxPassphraseLen < p.utf8ByteSize then
    .error ("hotspot: the hotspot password is " ++ itoa p.utf8ByteSize ++
      " characters and the maximum is " ++ itoa maxPassphraseLen)
  else if p.toList.any (fun c => c.toNat < 0x20 || 0x7e < c.toNat) then
    .error "hotspot: the hotspot password may only contain ordinary keyboard characters"
  else if Text.toLower p ∈ bannedPassphrases then
    .error ("hotspot: that hotspot password is a well-known default and cannot be used; " ++
      "leave it blank and a strong one will be made for you")
  else .ok ()

/-! ## The access point -/

/-- `APConfig`. -/
structure APConfig where
  interface : String
  uplink : String := ""
  ssid : String
  passphrase : String
  countryCode : String
  channel : Int
  band : Band
  controlDir : String := ""
  deriving DecidableEq

def maxSSIDLen : Nat := 32

/-- The network name's share of `APConfig.validate`. -/
def validSSID (ssid : String) : Except String Unit :=
  if ssid = "" then .error "hotspot: the network name is empty"
  else if maxSSIDLen < ssid.utf8ByteSize then
    .error ("hotspot: the network name is " ++ itoa ssid.utf8ByteSize ++ " bytes and the maximum is " ++
      itoa maxSSIDLen ++ " (non-Latin names use two or more bytes per character)")
  else noControlChars "network name" ssid

/-- The interface's share of `APConfig.validate`: a Windows adapter alias, or
a name `hostapd` takes. -/
def APConfig.validInterface (c : APConfig) (mobileHotspot : Bool) : Except String Unit :=
  if mobileHotspot then
    if c.interface = "" ∨ 255 < c.interface.utf8ByteSize then
      .error "hotspot: invalid Windows adapter alias"
    else noControlChars "interface" c.interface
  else validConfigToken "interface" c.interface

/-- `APConfig.validate`. -/
def APConfig.validate (c : APConfig) (mobileHotspot : Bool) : Except String Unit := do
  c.validInterface mobileHotspot
  validSSID c.ssid
  validatePassphrase c.passphrase
  validCountryCode c.countryCode
  validChannel c.band c.channel
  if mobileHotspot = false ∧ c.controlDir ≠ "" then
    validAbsPath "hostapd control directory" c.controlDir
  else .ok ()

/-- An accepted configuration has an accepted name and an accepted channel. -/
theorem APConfig.validate_ok {c : APConfig} {mobile : Bool} (h : c.validate mobile = .ok ()) :
    validSSID c.ssid = .ok () ∧ validChannel c.band c.channel = .ok () := by
  obtain ⟨_, _, h⟩ := Outcome.bind_ok h
  obtain ⟨_, hssid, h⟩ := Outcome.bind_ok h
  obtain ⟨_, _, h⟩ := Outcome.bind_ok h
  obtain ⟨_, _, h⟩ := Outcome.bind_ok h
  obtain ⟨_, hchannel, _⟩ := Outcome.bind_ok h
  exact ⟨hssid, hchannel⟩

theorem validSSID_ne_empty {ssid : String} (h : validSSID ssid = .ok ()) : ssid ≠ "" :=
  (Outcome.guard_ok h).1

/-! ## The radio -/

/-- `RadioConstraint`. -/
structure RadioConstraint where
  supportsAP : Bool := false
  maxAPs : Int := 0
  maxChannels : Int := 0
  clientChannel : Int := 0
  allowedChannels : List Int := []
  deriving DecidableEq

/-- `PinnedChannel`: the channel the access point has no choice about. -/
def RadioConstraint.pinnedChannel (rc : RadioConstraint) : Option Int :=
  if rc.maxChannels ≤ 1 ∧ rc.clientChannel ≠ 0 then some rc.clientChannel else none

/-- `RadioConstraint.Check`. -/
def RadioConstraint.check (rc : RadioConstraint) (cfg : APConfig) : Except String Unit := do
  if rc.supportsAP = false then
    .error ("hotspot: this wireless adapter cannot create a hotspot; " ++
      "plug in a USB WiFi adapter that supports one")
  if rc.maxAPs < 1 then
    .error ("hotspot: this wireless adapter reports it can host no access point; " ++
      "plug in a USB WiFi adapter that supports one")
  match rc.pinnedChannel with
  | some pinned =>
    if cfg.channel ≠ pinned then
      .error ("hotspot: this radio can only be on one channel at a time and its " ++
        "internet connection is on channel " ++ itoaInt pinned ++
        ", so the hotspot must use channel " ++ itoaInt pinned ++ ", not " ++ itoaInt cfg.channel)
  | none => pure ()
  if rc.allowedChannels ≠ [] ∧ cfg.channel ∉ rc.allowedChannels then
    .error ("hotspot: channel " ++ itoaInt cfg.channel ++
      " is not one this adapter is allowed to use in " ++ cfg.countryCode ++ " (allowed: " ++
      intList rc.allowedChannels ++ ")")

/-! ## DHCP and DNS for the clients -/

instance nanosPerSecond : NeZero 1000000000 := ⟨by decide⟩

/-- `DNSConfig`; the lease time is in seconds with the nanoseconds beyond them
beside it, the upstream an address and a port. -/
structure DNSConfig where
  interface : String
  subnet : Prefix
  gateway : Addr
  rangeStart : Addr
  rangeEnd : Addr
  leaseTime : Nat
  leaseFile : String
  upstream : Addr × UInt16
  cacheSize : Int
  serviceUser : String := ""
  serviceGroup : String := ""
  filterAAAA : Bool := false
  leaseNanos : Fin 1000000000 := 0
  deriving DecidableEq

def minLeaseTime : Nat := 120

def bannedResolvers : List String :=
  ["8.8.8.8", "8.8.4.4", "2001:4860:4860::8888", "2001:4860:4860::8844"]

/-- The decimals of `v / 10 ^ prec` as `time.Duration` prints them, without
trailing zeros and without a point when none is left. -/
def fracText (v prec : Nat) : String :=
  let digits := ((Nat.toDigits 10 (10 ^ prec + v % 10 ^ prec)).drop 1).rdropWhile (· = '0')
  if digits = [] then "" else "." ++ String.ofList digits

/-- A length of time of `s` seconds and `ns` nanoseconds as `time.Duration`
prints it. -/
def durationText (s ns : Nat) : String :=
  if s = 0 then
    if ns = 0 then "0s"
    else if ns < 1000 then itoa ns ++ "ns"
    else if ns < 1000000 then itoa (ns / 1000) ++ fracText ns 3 ++ "µs"
    else itoa (ns / 1000000) ++ fracText ns 6 ++ "ms"
  else if s < 60 then itoa s ++ fracText ns 9 ++ "s"
  else if s < 3600 then itoa (s / 60) ++ "m" ++ itoa (s % 60) ++ fracText ns 9 ++ "s"
  else
    itoa (s / 3600) ++ "h" ++ itoa (s % 3600 / 60) ++ "m" ++ itoa (s % 60) ++ fracText ns 9 ++ "s"

/-- One of the three addresses `DNSConfig.Validate` places in the subnet. -/
def insideSubnet (subnet : Prefix) (name : String) (a : Addr) : Except String Unit :=
  if a.isValid = false ∨ a.is4 = false then
    .error ("hotspot: the " ++ name ++ " is not an IPv4 address")
  else if subnet.contains a = false then
    .error ("hotspot: the " ++ name ++ " " ++ a.text ++ " is not inside the hotspot subnet " ++
      subnet.text)
  else .ok ()

/-- `DNSConfig.Validate`.  Both ends of the range are IPv4 when they are
compared, so `Compare` is the order of the addresses as numbers. -/
def DNSConfig.validate (c : DNSConfig) : Except String Unit := do
  validConfigToken "interface" c.interface
  if c.subnet.isValid = false then .error "hotspot: no hotspot subnet was set"
  if c.subnet.addr.is4 = false then
    .error "hotspot: the hotspot subnet must be an IPv4 network in this version"
  if c.subnet.bitCount < 8 ∨ 30 < c.subnet.bitCount then
    .error ("hotspot: a /" ++ itoaInt c.subnet.bitCount ++
      " hotspot subnet has no usable range of addresses")
  if c.subnet.addr ≠ c.subnet.masked.addr then
    .error ("hotspot: " ++ c.subnet.text ++ " is a host address, not a network (did you mean " ++
      c.subnet.masked.text ++ "?)")
  insideSubnet c.subnet "gateway address" c.gateway
  insideSubnet c.subnet "first DHCP address" c.rangeStart
  insideSubnet c.subnet "last DHCP address" c.rangeEnd
  if c.rangeEnd.toNat < c.rangeStart.toNat then
    .error ("hotspot: the DHCP range " ++ c.rangeStart.text ++ " to " ++ c.rangeEnd.text ++
      " runs backwards")
  if c.rangeStart.toNat ≤ c.gateway.toNat ∧ c.gateway.toNat ≤ c.rangeEnd.toNat then
    .error ("hotspot: the gateway address " ++ c.gateway.text ++ " is inside the DHCP range " ++
      c.rangeStart.text ++ " to " ++ c.rangeEnd.text ++ " and would be given away")
  if c.leaseTime < minLeaseTime then
    .error ("hotspot: a DHCP lease of " ++ durationText c.leaseTime c.leaseNanos ++
      " is shorter than the " ++ durationText minLeaseTime 0 ++ " minimum")
  validAbsPath "lease file" c.leaseFile
  if c.upstream.1.isValid = false ∨ c.upstream.2 = 0 then
    .error "hotspot: no local resolver address was set for client DNS"
  if c.upstream.1.text ∈ bannedResolvers then
    .error ("hotspot: " ++ c.upstream.1.text ++ " must never be used as a resolver by this program")
  if c.upstream.1.isLoopback = false then
    .error ("hotspot: client DNS must forward to a resolver on this machine, and " ++
      c.upstream.1.text ++ " is not one")
  validServiceAccount "service user" c.serviceUser
  validServiceAccount "service group" c.serviceGroup
  if c.cacheSize < 0 then
    .error ("hotspot: a DNS cache size of " ++ itoaInt c.cacheSize ++ " makes no sense")

/-! ## The plan of the access point -/

/-- `hotspot.Plan` without the rendered files. -/
structure Plan where
  ap : APConfig
  dns : DNSConfig
  radio : RadioConstraint
  passphraseGenerated : Bool
  deriving DecidableEq

/-- `EnsurePassphrase`: keep the password, or take a generated one. -/
def ensurePassphrase (generated : String) (cfg : APConfig) : Except String (APConfig × Bool) :=
  if cfg.passphrase ≠ "" then do
    validatePassphrase cfg.passphrase
    return (cfg, false)
  else .ok ({ cfg with passphrase := generated }, true)

def defaultServiceUser : String := "caspian"
def defaultServiceGroup : String := "caspian"

/-- The defaults `NewPlan` fills in. -/
def DNSConfig.withDefaults (dns : DNSConfig) (ap : APConfig) : DNSConfig :=
  { dns with
    interface := if dns.interface = "" then ap.interface else dns.interface
    serviceUser := if dns.serviceUser = "" then defaultServiceUser else dns.serviceUser
    serviceGroup := if dns.serviceGroup = "" then defaultServiceGroup else dns.serviceGroup }

/-- `NewPlan`.  Rendering validates both configurations a second time and has
no refusal of its own: the band was settled by `validChannel`. -/
def newPlan (generated : String) (ap : APConfig) (dns : DNSConfig) (radio : RadioConstraint) :
    Except String Plan := do
  let (ap, fresh) ← ensurePassphrase generated ap
  ap.validate false
  radio.check ap
  let dns := dns.withDefaults ap
  dns.validate
  return { ap := ap, dns := dns, radio := radio, passphraseGenerated := fresh }

/-- `NewMobileHotspotPlan`: Windows serves DHCP and DNS itself, so only the
access point is checked. -/
def newMobileHotspotPlan (generated : String) (ap : APConfig) (dns : DNSConfig)
    (radio : RadioConstraint) : Except String Plan := do
  let (ap, fresh) ← ensurePassphrase generated ap
  ap.validate true
  radio.check ap
  return { ap := ap, dns := dns, radio := radio, passphraseGenerated := fresh }

end Caspian.Hotspot
