import Caspian.Netcfg.Planner
import Caspian.Hotspot.ApConfig

/-!
# What a start is asked for, and what is refused

The request the panel sends, the configuration of the service, and the checks
a request passes before anything is planned: the fields that need no
knowledge of the machine (`validateStatic`), the fields that name something on
it (`validateAgainstFacts`), and the channel, once the radio is known
(`validateAgainstPlan`).  `netOptionsFor` hands the request's overrides to the
planner.
-/

namespace Caspian.Privsvc

open Verified Netip Netcfg

/-! ## Faults -/

/-- The faults the functions modelled here report. -/
inductive Fault where
  | none
  | noAPAdapter
  | hotspotInterfaceBusy
  | notRunning
  | radioBlocked
  | noInternetInterface
  | channelRefused
  | hotspotFailed
  | softwareMissing
  | permissionDenied
  | engineRejectedConfig
  | serverNoAnswer
  | implausibleClock
  | unavailable
  | ipv6Unsupported
  | countryMissing
  | sniSpoofInvalid
  | sniSpoofUnsupported
  | sniSpoofUnavailable
  | unknown
  deriving DecidableEq, Repr

def Fault.text : Fault → String
  | none => ""
  | noAPAdapter => "no-ap-adapter"
  | hotspotInterfaceBusy => "hotspot-interface-busy"
  | notRunning => "not-running"
  | radioBlocked => "radio-blocked"
  | noInternetInterface => "no-internet-interface"
  | channelRefused => "channel-refused"
  | hotspotFailed => "hotspot-failed"
  | softwareMissing => "software-missing"
  | permissionDenied => "permission-denied"
  | engineRejectedConfig => "engine-rejected-config"
  | serverNoAnswer => "server-no-answer"
  | implausibleClock => "clock-implausible"
  | unavailable => "privileged-service-unavailable"
  | ipv6Unsupported => "ipv6-unsupported"
  | countryMissing => "country-missing"
  | sniSpoofInvalid => "sni-spoof-invalid"
  | sniSpoofUnsupported => "sni-spoof-unsupported"
  | sniSpoofUnavailable => "sni-spoof-unavailable"
  | unknown => "unknown"

/-- `faultError`: the step that failed, the fault, and the cause's text. -/
structure Failure where
  place : String
  fault : Fault
  cause : String
  deriving DecidableEq

def Failure.text (e : Failure) : String :=
  "privsvc: " ++ e.place ++ ": " ++ e.fault.text ++ ": " ++ e.cause

/-- `fail`. -/
def fail {α : Type} (place : String) (fault : Fault) (cause : String) : Except Failure α :=
  .error ⟨place, fault, cause⟩

/-- `faultOf` on the planner's refusals. -/
def planFault (e : PlanError) : Fault :=
  match e.sentinel with
  | some .noUplink => .noInternetInterface
  | some .noAPCapableInterface | some .apConflictsWithUplink | some .noTakeoverCandidate =>
    .noAPAdapter
  | some .hotspotNotReleased => .hotspotInterfaceBusy
  | _ => .unknown

/-- `hotspotFault` on a refusal of the access point's configuration, whose own
fault is unknown. -/
def hotspotFault (reason : String) : Fault :=
  let text := Text.toLower reason
  if Text.contains text "switched off by a switch on the machine itself" ||
      Text.contains text "switched off in software" ||
      Text.contains text "wireless adapter is switched off" then .radioBlocked
  else if Text.contains text "would not accept the channel" then .channelRefused
  else if Text.contains text "cannot create a hotspot" ||
      Text.contains text "reports no wireless adapter" then .noAPAdapter
  else if Text.contains text "is not installed on this machine" then .softwareMissing
  else if Text.contains text "needs to run with" || Text.contains text "not allowed to start" then
    .permissionDenied
  else .hotspotFailed

/-! ## The request -/

/-- `panel.HotspotSpec`. -/
structure HotspotSpec where
  ssid : String := ""
  passphrase : String := ""
  interface : String := ""
  channel : Int := 0
  band : String := ""
  country : String := ""
  subnet : String := ""
  deriving DecidableEq

/-- `panel.NetworkSpec`. -/
structure NetworkSpec where
  internetInterface : String := ""
  dnsMode : String := ""
  onTunnelDown : String := ""
  clientIPv6 : String := ""
  deriving DecidableEq

/-- `panel.StartRequest`. -/
structure StartRequest where
  spoofSNI : String := ""
  tcpSplit : Bool := false
  tlsRecordSplit : Bool := false
  configJSON : List UInt8 := []
  hotspot : HotspotSpec := {}
  network : NetworkSpec := {}
  engineLogLevel : String := ""
  deriving DecidableEq

def dnsModeTunnel : String := "tunnel"
def onTunnelDownBlock : String := "block"
def clientIPv6Block : String := "block"

def engineLogLevels : List String := ["error", "warning", "info", "debug"]

/-- `ValidEngineLogLevel`. -/
def validEngineLogLevel (level : String) : Bool := level = "" || level ∈ engineLogLevels

/-- `IsUpperAlpha2`. -/
def isUpperAlpha2 (s : String) : Bool := s.utf8ByteSize = 2 && s.toList.all Char.isUpper

/-! ## The service's configuration -/

/-- The fields of `Config` the modelled functions read. -/
structure Config where
  platform : Platform := .linux
  /-- `FixedHotspotSubnet`, for a backend whose access point decides it. -/
  fixedHotspotSubnet : Option Prefix := none
  tunName : String := defaultOptions.tunName
  tunDisabled : Bool := false
  socksPort : UInt16 := 10808
  localDNSPort : UInt16 := 5354
  dnsPort : Int := 53
  panelPort : Int := 8088
  hostapdControlDir : String := "/run/caspian/hostapd"
  leaseFile : String := "/run/caspian/dnsmasq.leases"
  /-- The country taken when the radio reports none. -/
  country : String := ""

def defaultSocksListen : String := "127.0.0.1"

/-- `netOptions`. -/
def Config.netOptions (c : Config) : Options :=
  let o := { defaultOptions with
    platform := c.platform
    hotspotSubnet := c.fixedHotspotSubnet.getD defaultOptions.hotspotSubnet
    tunName := if c.tunName ≠ "" then c.tunName else defaultOptions.tunName
    dnsPort := c.dnsPort
    panelPort := c.panelPort }
  if c.platform = .darwin then
    { o with
      dnsPort := c.localDNSPort.toNat
      systemSOCKS := { enabled := true, listen := defaultSocksListen, port := c.socksPort } }
  else o

/-- `isVirtualAPName`. -/
def Config.isVirtualAPName (c : Config) (name : String) : Bool :=
  name ≠ "" && name = c.netOptions.apIfaceName

/-- The band override as the planner reads it. -/
def radioBand (band : String) : RadioBand :=
  if band = "" then .auto
  else if band = RadioBand.band2GHz.text then .band2GHz
  else if band = RadioBand.band5GHz.text then .band5GHz
  else .other band

/-- `netOptionsFor`. -/
def Config.netOptionsFor (c : Config) (req : StartRequest) (socksPort : UInt16) :
    Except Failure Options :=
  let o := c.netOptions
  let o := { o with
    systemSOCKS :=
      if o.systemSOCKS.enabled ∧ socksPort ≠ 0 then { o.systemSOCKS with port := socksPort }
      else o.systemSOCKS
    uplinkOverride := req.network.internetInterface
    hotspotOverride :=
      if req.hotspot.interface ≠ "" ∧ c.isVirtualAPName req.hotspot.interface = false then
        req.hotspot.interface
      else o.hotspotOverride
    hotspotBand := radioBand req.hotspot.band }
  if req.hotspot.subnet = "" then .ok o
  else
    match parsePrefix req.hotspot.subnet with
    | none => fail "hotspot subnet" .unknown ("netip.ParsePrefix(" ++ Text.quote req.hotspot.subnet ++ ")")
    | some p => .ok { o with hotspotSubnet := p }

/-! ## Refusals -/

/-- The hotspot's name as `validateStatic` checks it. -/
def validateName (ssid : String) : Except Failure Unit :=
  if ssid = "" then fail "hotspot name" .unknown "the hotspot has no name"
  else if Hotspot.maxSSIDLen < ssid.utf8ByteSize then
    fail "hotspot name" .unknown ("the hotspot name is " ++ itoa ssid.utf8ByteSize ++
      " bytes and the 802.11 limit is " ++ itoa Hotspot.maxSSIDLen)
  else .ok ()

/-- The hotspot's subnet as `validateStatic` checks it. -/
def validateSubnet (subnet : String) : Except Failure Unit :=
  if subnet = "" then .ok ()
  else
    match parsePrefix subnet with
    | none =>
      fail "hotspot subnet" .unknown "the hotspot subnet override is not a network in CIDR form"
    | some p =>
      if p.addr.is4 = false then
        fail "hotspot subnet" .unknown "the hotspot subnet must be an IPv4 network"
      else if p.addr.isPrivate = false then
        fail "hotspot subnet" .unknown "the hotspot subnet must be a private network"
      else if p.bitCount < 8 ∨ 30 < p.bitCount then
        fail "hotspot subnet" .unknown
          "the hotspot subnet has no usable range of addresses in it"
      else .ok ()

/-- The band override as `validateStatic` checks it. -/
def validateBand (band : String) : Except Failure Unit :=
  if band = "" ∨ band = Hotspot.Band.band2GHz.text ∨ band = Hotspot.Band.band5GHz.text then .ok ()
  else fail "band" .unknown "the band override is not a band this appliance uses"

/-- `validateStatic`. -/
def validateStatic (req : StartRequest) : Except Failure Unit := do
  if validEngineLogLevel req.engineLogLevel = false then
    fail "engine log level" .unknown
      "the engine log level is not one of the levels this appliance sends"
  if req.network.dnsMode ≠ dnsModeTunnel then
    fail "dns mode" .unknown
      "client DNS is answered on the box and resolved through the tunnel, and this build supports nothing else"
  if req.network.onTunnelDown ≠ onTunnelDownBlock then
    fail "tunnel-down policy" .unknown
      "forwarded client traffic is blocked when the tunnel drops, and this build supports nothing else"
  if req.network.clientIPv6 ≠ clientIPv6Block then
    fail "client IPv6 policy" .ipv6Unsupported
      "hotspot clients get no IPv6, and this build supports nothing else"
  match Hotspot.validatePassphrase req.hotspot.passphrase with
  | .error e => fail "hotspot password" .unknown e
  | .ok () => pure ()
  validateName req.hotspot.ssid
  if req.hotspot.country ≠ "" ∧ isUpperAlpha2 req.hotspot.country = false then
    fail "country" .unknown "the country override is not a two-letter code"
  validateBand req.hotspot.band
  validateSubnet req.hotspot.subnet

/-- `apCapable`: the name of a radio that reported AP support, or of an
interface on one. -/
def apCapable (f : Facts) (name : String) : Bool :=
  (f.phys.filter (·.supportsAP)).any fun phy =>
    phy.name = name || f.wireless.any fun w => w.phy = phy.name && w.name = name

/-- The internet interface's share of `validateAgainstFacts`. -/
def Config.validateInternetInterface (c : Config) (f : Facts) (name : String) :
    Except Failure Unit :=
  if name = "" then .ok ()
  else if validInterfaceNameOn c.netOptions.platform name = false then
    fail "internet interface" .noInternetInterface
      "the chosen internet interface is not a usable interface name"
  else if (f.linkByName name).isNone then
    fail "internet interface" .noInternetInterface
      "the chosen internet interface is not on this machine"
  else if (f.routes.any fun r => r.family = 4 && r.dev = name && !r.linkDown) = false then
    fail "internet interface" .noInternetInterface
      "the chosen internet interface has no default route on it"
  else .ok ()

/-- The hotspot interface's share of `validateAgainstFacts`. -/
def Config.validateHotspotInterface (c : Config) (f : Facts) (name : String) :
    Except Failure Unit :=
  if name = "" ∨ c.isVirtualAPName name = true then .ok ()
  else if validInterfaceNameOn c.netOptions.platform name = false then
    fail "hotspot interface" .noAPAdapter
      "the chosen hotspot interface is not a usable interface name"
  else if apCapable f name = false then
    fail "hotspot interface" .noAPAdapter
      "the chosen adapter did not report that it can create a hotspot"
  else .ok ()

/-- `validateAgainstFacts`. -/
def Config.validateAgainstFacts (c : Config) (req : StartRequest) (f : Facts) :
    Except Failure Unit := do
  c.validateInternetInterface f req.network.internetInterface
  c.validateHotspotInterface f req.hotspot.interface

/-- `validateAgainstPlan`. -/
def validateAgainstPlan (req : StartRequest) (p : Plan) : Except Failure Unit :=
  let ch := req.hotspot.channel
  if ch = 0 then .ok ()
  else if p.channelPinned = true ∧ ch ≠ p.channel then
    fail "channel" .channelRefused
      ("the radio can only be on one channel at a time and is on " ++ itoaInt p.channel)
  else if p.usableChannel ≠ [] ∧ ch ∉ p.usableChannel then
    fail "channel" .channelRefused
      "the chosen channel is not one this adapter reported it can start an access point on"
  else .ok ()

end Caspian.Privsvc
