import Caspian.Netcfg.Ruleset

/-!
# Steps, and the Linux ones

A `Step` is a command and the command that takes it back.  The Linux plan is
the firewall first, then the knobs, the access point's interface (created, or
released and stripped), its address, the pinned host routes, and after the
engine has started the tunnel's address and routing policy.
-/

namespace Caspian.Netcfg

open Verified Netip

/-- A read-only query that answers whether a step's change is in place. -/
structure AlreadyApplied where
  query : Command
  satisfied : Result → Option String → Bool

/-- One change, its inverse (`Command.zero` when it has none), and the query
that can make it unnecessary. -/
structure Step where
  op : String
  why : String
  run : Command
  undo : Command := Command.zero
  pre : Option AlreadyApplied := none

def opSysctl : String := "sysctl"
def opAddr : String := "addr"
def opLink : String := "link"
def opRoute : String := "route"
def opRule : String := "rule"
def opNft : String := "nft"
def opProxy : String := "proxy"
def opCreateIface : String := "iface"

def ipCmd (why : String) (args : List String) : Command :=
  { path := binIP, args := args, why := why }

/-- `ifacePresent`: the query made before an interface is created. -/
def ifacePresent (name : String) : AlreadyApplied where
  query :=
    { path := binIP, args := ["-br", "link", "show", "dev", name]
      why := "iw's refusal when the interface name is taken is not a wording this package has measured, so it asks instead of relying on the error" }
  satisfied res err := err = none && Text.trimSpace res.stdout ≠ ""

/-! ## Knobs -/

/-- `sysctlStep`: the inverse restores the value read before the change, and
there is none when no value was read. -/
def sysctlStep (knob value : String) (current : Readings) (why : String) : Step :=
  let run : Command :=
    { path := binSysctl, args := ["-w", knob ++ "=" ++ value], why := why }
  match current knob with
  | some prev =>
    { op := opSysctl, why := why, run := run
      undo := { path := binSysctl, args := ["-w", knob ++ "=" ++ prev]
                why := "restore the value read before the change" } }
  | none =>
    { op := opSysctl, run := run
      why := why ++ " (no previous value was read for " ++ knob ++
        ", so this change has no recorded inverse)" }

def knobIPForward : String := "net.ipv4.ip_forward"
def knobRPFilterAll : String := "net.ipv4.conf.all.rp_filter"
def knobRPFilterDefault : String := "net.ipv4.conf.default.rp_filter"
def knobIPv6Forwarding : String := "net.ipv6.conf.all.forwarding"

/-- `BaseSysctlKnobs`: every knob a Linux plan changes. -/
def baseSysctlKnobs : List String :=
  [knobIPForward, knobRPFilterAll, knobRPFilterDefault, knobIPv6Forwarding]

namespace Plan

/-- `SysctlSteps`. -/
def sysctlSteps (p : Plan) (current : Readings) : List Step :=
  let rp := itoaInt p.opts.rpFilter
  let rpWhy := "loosen reverse-path filtering; with two routing tables the return path is asymmetric " ++
    "and the strict filter drops replies as martians, which presents as a tunnel that connects and carries nothing"
  [ sysctlStep knobIPForward "1" current
      "a box that shares its connection is a router, and a router forwards",
    sysctlStep knobRPFilterAll rp current
      (rpWhy ++ " (the kernel uses the maximum of conf.all and the per-interface value, and loose is the " ++
        "larger value, so setting conf.all pins every interface to loose on its own)"),
    sysctlStep knobRPFilterDefault rp current
      (rpWhy ++ " (conf.default is what a newly created interface starts with, kept as redundancy in case conf.all is lowered later)"),
    match p.opts.ipv6 with
    | .block =>
      sysctlStep knobIPv6Forwarding "0" current
        "there is no IPv6 tunnel, so forwarded IPv6 would leave outside the tunnel"
    | .forward =>
      sysctlStep knobIPv6Forwarding "1" current
        "IPv6 is carried, so the box must forward it" ]

/-! ## The access point's interface -/

/-- `VirtualIfaceSteps`: create the interface, and keep NetworkManager's hands
off it. -/
def virtualIfaceSteps (p : Plan) : List Step :=
  if p.hotspotIsVirtual = false ∨ p.hotspot = "" ∨ p.hotspotPhy = "" then []
  else
    let why := "create an interface for the access point on " ++ p.hotspotPhy ++ " rather than reconfiguring the " ++
      "one already there, which would drop the network that interface is connected to"
    let relWhy := "release " ++ p.hotspot ++ " from NetworkManager, which claims a wifi device the moment it appears " ++
      "and flushes the address off it"
    { op := opCreateIface, why := why
      run := { path := binIw, why := why
               args := ["phy", p.hotspotPhy, "interface", "add", p.hotspot, "type", "__ap"] }
      undo := { path := binIw, args := ["dev", p.hotspot, "del"]
                why := "remove the interface created for the access point" }
      pre := some (ifacePresent p.hotspot) } ::
    (if p.networkManagerPresent then
      [{ op := opLink, why := relWhy
         run := { path := binNmcli, why := relWhy
                  args := ["device", "set", p.hotspot, "managed", "no"] } }]
    else [])

/-- Strip one station address off the hotspot interface. -/
def stripStep (p : Plan) (pfx : Prefix) : Step :=
  let why := "take " ++ pfx.text ++ " off " ++ p.hotspot ++ ": it belongs to the network this interface was joined " ++
    "to, and leaving it gives anything bound here a path onto that network"
  { op := opAddr, why := why
    run := ipCmd why ["address", "del", pfx.text, "dev", p.hotspot]
    undo := ipCmd "put the station address back"
      ["address", "add", pfx.text, "dev", p.hotspot] }

/-- Release the interface from NetworkManager. -/
def releaseStep (p : Plan) : Step :=
  let why := "release " ++ p.hotspot ++ " from NetworkManager, which otherwise reconnects it to the network it was " ++
    "joined to while the access point is meant to be running on it"
  { op := opLink, why := why
    run := { path := binNmcli, why := why
             args := ["device", "set", p.hotspot, "managed", "no"] }
    undo := { path := binNmcli, args := ["device", "set", p.hotspot, "managed", "yes"]
              why := "give the interface back, or this box never rejoins the user's WiFi again" } }

/-- Bring a taken-over interface down and retype it. -/
def retypeSteps (p : Plan) : List Step :=
  let downWhy := "the interface type cannot be changed while the interface is up"
  let typeWhy := "put " ++ p.hotspot ++ " into access point mode before anything is asked to serve on it, so the state " ++
    "can be read back rather than assumed from a process being alive"
  [ { op := opLink, why := downWhy
      run := ipCmd downWhy ["link", "set", "dev", p.hotspot, "down"]
      undo := ipCmd "bring the interface back up" ["link", "set", "dev", p.hotspot, "up"] },
    { op := opCreateIface, why := typeWhy
      run := { path := binIw, args := ["dev", p.hotspot, "set", "type", "__ap"]
               why := typeWhy }
      undo := { path := binIw, args := ["dev", p.hotspot, "set", "type", "managed"]
                why := "put the interface back to a station" } } ]

/-- `HotspotReleaseSteps`. -/
def hotspotReleaseSteps (p : Plan) : List Step :=
  if p.hotspot = "" then []
  else
    (if p.hotspotManager = .networkManager then [p.releaseStep] else []) ++
      p.hotspotStationPrefixes.map p.stripStep ++
      (if p.hotspotTakenOver then p.retypeSteps else [])

/-- `HotspotAddrSteps`. -/
def hotspotAddrSteps (p : Plan) : List Step :=
  if p.hotspot = "" ∨ p.hotspotSubnet.isValid = false then []
  else
    let addr := (Prefix.ofAddr p.hotspotGateway p.hotspotSubnet.bitCount).text
    let addWhy := "the box is the default gateway for its clients, so it holds the first address on the hotspot subnet"
    [ { op := opLink, why := "the access point cannot start on a down interface"
        run := ipCmd "bring the hotspot interface up" ["link", "set", "dev", p.hotspot, "up"] },
      { op := opAddr, why := addWhy
        run := ipCmd addWhy ["address", "add", addr, "dev", p.hotspot]
        undo := ipCmd "take the hotspot address back off"
          ["address", "del", addr, "dev", p.hotspot] } ]

/-! ## Routes -/

def pinnedRouteMetric : Nat := 5

/-- `hostRouteArgs`. -/
def hostRouteArgs (p : Plan) (verb : String) (s : Addr) : List String :=
  let bits : Int := if s.is6 then 128 else 32
  let head := if s.is6 then ["-6", "route", verb] else ["route", verb]
  let gw := if s.is6 then p.uplinkV6Gw else p.uplinkGateway
  let onlink := if s.is6 then !gw.isValid else p.uplinkOnLink
  let dev :=
    if s.is6 then (if p.uplinkV6Dev = "" then p.uplink else p.uplinkV6Dev)
    else p.uplink
  head ++ [(Prefix.ofAddr s bits).text] ++
    (if onlink = false ∧ gw.isValid = true then ["via", gw.text] else []) ++
    ["dev", dev] ++
    (if verb = "add" then ["proto", "static"] else []) ++
    ["metric", itoa pinnedRouteMetric]

/-- The pinned route to one server. -/
def serverRouteStep (p : Plan) (s : Addr) : Step :=
  let why := "pin the route to the proxy server through the real gateway, so the engine's own connection " ++
    "to it does not match the default route through the tunnel and loop through itself"
  { op := opRoute, why := why
    run := ipCmd why (p.hostRouteArgs "add" s)
    undo := ipCmd "remove the pinned host route" (p.hostRouteArgs "del" s) }

/-- `ServerRouteSteps`. -/
def serverRouteSteps (p : Plan) : List Step :=
  (p.serverAddr.filter fun s => p.canPin s).map p.serverRouteStep

/-- `TunnelAddrSteps`. -/
def tunnelAddrSteps (p : Plan) : List Step :=
  if p.tunSubnet.isValid = false then []
  else
    let addr := (Prefix.ofAddr p.tunAddr p.tunSubnet.bitCount).text
    let why := "the tunnel device is created with no address at all, and an interface with no address " ++
      "cannot be the target of a route"
    [ { op := opAddr, why := why
        run := ipCmd why ["address", "add", addr, "dev", p.tun]
        undo := ipCmd "take the tunnel address back off"
          ["address", "del", addr, "dev", p.tun] } ]

/-- One half of the default route, through the tunnel. -/
def halfDefaultStep (p : Plan) (half : String) : Step :=
  let why := "send everything through the tunnel using two half defaults, which are more specific " ++
    "than the uplink's default route and so do not have to replace it"
  { op := opRoute, why := why
    run := ipCmd why ["route", "add", half, "dev", p.tun, "proto", "static"]
    undo := ipCmd "remove the half default" ["route", "del", half, "dev", p.tun] }

/-- The routing policy of the tunnel table. -/
def policySteps (p : Plan) : List Step :=
  let table := itoaInt p.opts.table
  let prio := itoaInt p.opts.rulePrio
  let markPrio := itoaInt (p.opts.rulePrio - 1)
  let mark := "0x" ++ hexText p.opts.fwMark.toNat
  let subnetWhy := "keep traffic between two hotspot clients on the hotspot: without this route the rule " ++
    "below sends it to the tunnel table, whose only route is the default, and client-to-client " ++
    "traffic disappears into the tunnel"
  let defWhy := "the tunnel is the default route for everything that selects the tunnel table"
  let ruleWhy := "send traffic from hotspot clients to the tunnel table, leaving the box's own traffic " ++
    "on the main table, which is what lets the engine reach the server at all"
  let markWhy := "select the tunnel table for traffic carrying this mark. NOTHING IN THIS PROGRAM SETS " ++
    "THE MARK as of 2026-08-30, so this rule currently matches nothing; the box's own traffic, " ++
    "including the engine's socket to the server, stays on the main table"
  [ { op := opRoute, why := subnetWhy
      run := ipCmd subnetWhy ["route", "add", p.hotspotSubnet.text, "dev", p.hotspot,
        "scope", "link", "table", table]
      undo := ipCmd "remove the hotspot subnet route from the tunnel table"
        ["route", "del", p.hotspotSubnet.text, "dev", p.hotspot, "table", table] },
    { op := opRoute, why := defWhy
      run := ipCmd defWhy ["route", "add", "default", "dev", p.tun, "proto", "static",
        "table", table]
      undo := ipCmd "remove the tunnel default route"
        ["route", "del", "default", "dev", p.tun, "table", table] },
    { op := opRule, why := ruleWhy
      run := ipCmd ruleWhy ["rule", "add", "from", p.hotspotSubnet.text, "lookup", table,
        "priority", prio]
      undo := ipCmd "remove the hotspot policy rule"
        ["rule", "del", "from", p.hotspotSubnet.text, "lookup", table, "priority", prio] },
    { op := opRule, why := markWhy
      run := ipCmd markWhy ["rule", "add", "fwmark", mark, "lookup", table,
        "priority", markPrio]
      undo := ipCmd "remove the fwmark policy rule"
        ["rule", "del", "fwmark", mark, "lookup", table, "priority", markPrio] } ]

/-- `TunnelRouteSteps`. -/
def tunnelRouteSteps (p : Plan) : List Step :=
  if p.opts.strategy = .splitDefault then
    ["0.0.0.0/1", "128.0.0.0/1"].map p.halfDefaultStep
  else p.policySteps

/-! ## The Linux plan -/

/-- `FirewallStep`. -/
def firewallStep (p : Plan) : Step :=
  let why := "install the fail-closed ruleset, which must be in force before anything can be forwarded"
  { op := opNft, why := why
    run := { path := binNft, args := ["-f", "-"], stdin := p.ruleset, why := why }
    undo := { path := binNft, args := ["-f", "-"], stdin := p.rulesetTeardown
              why := "remove the generated tables" } }

def linuxPreEngineSteps (p : Plan) (current : Readings) : List Step :=
  [p.firewallStep] ++ p.sysctlSteps current ++ p.virtualIfaceSteps ++
    p.hotspotReleaseSteps ++ p.hotspotAddrSteps ++ p.serverRouteSteps

def linuxPostEngineSteps (p : Plan) (_ : Readings) : List Step :=
  p.tunnelAddrSteps ++ p.tunnelRouteSteps

end Plan

end Caspian.Netcfg
