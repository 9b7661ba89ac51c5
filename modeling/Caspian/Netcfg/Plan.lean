import Caspian.Netcfg.Facts
import Caspian.Netip.Parse

/-!
# Planning

`PlanNetwork` turns the facts, the server addresses and the options into a
`Plan`: which interface is the uplink, where the access point lives (an
interface of its own, an idle one, or one taken over from the network it is
joined to), which subnets are used, and which servers can be pinned.
`HotspotTakeover` is the second plan, used after the radio refused to create
an interface.

Every refusal carries the text of the error and, where the source has one,
the sentence shown to the user.
-/

namespace Caspian.Netcfg

open Netip

/-! ## Refusals -/

/-- The named errors a plan is refused with. -/
inductive PlanSentinel where
  | noUplink
  | noAPCapableInterface
  | apConflictsWithUplink
  | noServerAddress
  | bandUnavailable
  | serverFamilyUnreachable
  | systemSOCKSStateUnknown
  | authenticatedSystemSOCKS
  | noFreeSubnet
  | noTakeoverCandidate
  | interfaceOwnerUnknown
  | hotspotNotReleased
  deriving DecidableEq, Repr

def PlanSentinel.text : PlanSentinel → String
  | noUplink => "netcfg: no usable default route, so no uplink"
  | noAPCapableInterface => "netcfg: no wireless interface reports AP support"
  | apConflictsWithUplink =>
    "netcfg: the only AP-capable radio is carrying the uplink and cannot do both"
  | noServerAddress => "netcfg: no server address to pin a host route to"
  | bandUnavailable =>
    "netcfg: the radio has no usable channel in the band that was asked for"
  | serverFamilyUnreachable =>
    "netcfg: every server address is in a family with no default route on this machine"
  | systemSOCKSStateUnknown =>
    "netcfg: the previous macOS SOCKS proxy settings could not be read"
  | authenticatedSystemSOCKS =>
    "netcfg: an authenticated macOS SOCKS proxy cannot be preserved"
  | noFreeSubnet =>
    "netcfg: no candidate subnet is free of the networks this machine is already on"
  | noTakeoverCandidate =>
    "netcfg: the only interface that could host the access point is carrying the uplink"
  | interfaceOwnerUnknown =>
    "netcfg: cannot determine what owns the interface the hotspot would take over"
  | hotspotNotReleased => "netcfg: the hotspot interface is not free"

/-- An error of the planner: the sentinel it wraps, its text, and the words
for the panel. -/
structure PlanError where
  sentinel : Option PlanSentinel
  text : String
  user : Option String
  deriving DecidableEq, Repr

/-- A wrapped sentinel with words for the panel. -/
def PlanError.wrap (s : PlanSentinel) (detail user : String) : PlanError :=
  ⟨some s, s.text ++ detail, some user⟩

/-- A plain error. -/
def PlanError.plain (text : String) : PlanError := ⟨none, text, none⟩

/-! ## Subnets -/

/-- `Overlaps`: the two networks share an address. -/
def subnetsOverlap (a b : Prefix) : Bool :=
  if !a.isValid || !b.isValid then false
  else if a.addr.is4 ≠ b.addr.is4 then false
  else a.masked.overlaps b.masked

private def net (bits : BitVec 32) (n : Nat) : Prefix := .ofAddr (.v4 bits) n

def defaultHotspotPool : List Prefix :=
  [net 0x0a533300 24, net 0x0aae1d00 24, net 0xac1c7100 24, net 0xac13cf00 24,
    net 0xc0a8ad00 24, net 0xc0a8dd00 24, net 0x0a293e00 24, net 0x0ad80700 24]

def defaultTunnelPool : List Prefix :=
  [net 0xc6123300 30, net 0xc6125300 30, net 0xc6131d00 30]

/-- `ChooseSubnet`: the first candidate clear of every network in use. -/
def chooseSubnet (pool taken : List Prefix) : Except PlanError Prefix :=
  match pool.find? fun cand => !taken.any fun t => subnetsOverlap cand t with
  | some cand => .ok cand.masked
  | none =>
    .error (.wrap .noFreeSubnet
      (" (" ++ itoa pool.length ++ " candidates, " ++ itoa taken.length ++
        " networks in use)")
      ("This machine is already connected to too many networks for the hotspot to pick " ++
        "an address range of its own. Choose one by hand in advanced settings."))

/-- `GatewayAddr`: the first address after the network address. -/
def gatewayAddr (p : Prefix) : Except PlanError Addr :=
  if !p.isValid then .error (.plain "netcfg: invalid prefix")
  else if p.addr.is4 ∧ 30 < p.bitCount then
    .error (.plain ("netcfg: " ++ p.text ++ " is too small for a gateway address"))
  else
    let a := p.masked.addr.next
    if !a.isValid || !p.contains a then
      .error (.plain ("netcfg: " ++ p.text ++ " has no usable host address"))
    else .ok a

/-- `PeerAddr`: the second host address. -/
def peerAddr (p : Prefix) : Except PlanError Addr :=
  match gatewayAddr p with
  | .error e => .error e
  | .ok gw =>
    let a := gw.next
    if !a.isValid || !p.contains a then
      .error (.plain ("netcfg: " ++ p.text ++ " has no second host address"))
    else .ok a

/-! ## Options and plans -/

inductive Mode where
  | unset
  | wiredUplink
  | wirelessUplink
  deriving DecidableEq, Repr

inductive RouteStrategy where
  | policy
  | splitDefault
  deriving DecidableEq, Repr

inductive EgressPolicy where
  | restricted
  | open
  deriving DecidableEq, Repr

inductive ForwardState where
  | normal
  | cut
  deriving DecidableEq, Repr

inductive IPv6Policy where
  | block
  | forward
  deriving DecidableEq, Repr

structure SystemSOCKSOptions where
  enabled : Bool := false
  listen : String := ""
  port : UInt16 := 0
  deriving DecidableEq

structure Options where
  platform : Platform := .unset
  tunName : String := ""
  hotspotPool : List Prefix := []
  tunnelPool : List Prefix := []
  hotspotSubnet : Prefix := .zero
  uplinkOverride : String := ""
  hotspotOverride : String := ""
  hotspotBand : RadioBand := .auto
  apIfaceName : String := ""
  table : Int := 0
  rulePrio : Int := 0
  fwMark : UInt32 := 0
  dnsPort : Int := 0
  panelPort : Int := 0
  systemSOCKS : SystemSOCKSOptions := {}
  strategy : RouteStrategy := .policy
  ipv6 : IPv6Policy := .block
  egress : EgressPolicy := .restricted
  clientIsolation : Bool := false
  masqueradeToTunnel : Bool := false
  rpFilter : Int := 0
  deriving DecidableEq

def defaultAPIfaceName : String := "ap0"

def defaultOptions : Options where
  tunName := "xray0"
  apIfaceName := defaultAPIfaceName
  hotspotPool := defaultHotspotPool
  tunnelPool := defaultTunnelPool
  table := 8410
  rulePrio := 8410
  fwMark := 0x20da
  dnsPort := 53
  panelPort := 8088
  clientIsolation := true
  rpFilter := 2

structure Plan where
  platform : Platform := .unset
  mode : Mode := .unset
  uplink : String := ""
  uplinkGateway : Addr := .invalid
  uplinkOnLink : Bool := false
  uplinkV6Gw : Addr := .invalid
  uplinkV6Dev : String := ""
  hotspot : String := ""
  hotspotPhy : String := ""
  hotspotSubnet : Prefix := .zero
  hotspotGateway : Addr := .invalid
  hotspotIsVirtual : Bool := false
  hotspotParent : String := ""
  hotspotFallback : String := ""
  hotspotTakenOver : Bool := false
  hotspotManager : InterfaceManager := .unknown
  networkManagerPresent : Bool := false
  hotspotStationPrefixes : List Prefix := []
  channel : Int := 0
  channelPinned : Bool := false
  usableChannel : List Int := []
  tun : String := ""
  tunSubnet : Prefix := .zero
  tunAddr : Addr := .invalid
  tunPeer : Addr := .invalid
  serverAddr : List Addr := []
  unpinnableServers : List Addr := []
  systemSOCKS : List SystemSOCKSState := []
  opts : Options := {}
  notes : List String := []
  deriving DecidableEq

namespace Plan

/-- Add a sentence to the notes. -/
def note (p : Plan) (n : String) : Plan := { p with notes := p.notes ++ [n] }

/-- `canPin`: a host route to this server can be pinned on the uplink. -/
def canPin (p : Plan) (s : Addr) : Bool :=
  if s.is6 then p.uplinkV6Gw.isValid || p.uplinkV6Dev ≠ "" else p.uplink ≠ ""

/-- `PinnedServers`. -/
def pinnedServers (p : Plan) : List Addr :=
  p.serverAddr.filter fun s =>
    p.canPin s && !(p.platform = .windows && s.is6)

end Plan

end Caspian.Netcfg
