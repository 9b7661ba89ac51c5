import Caspian.Netcfg.Route
import Caspian.Verified.Json

/-!
# The Windows steps

Mobile Hotspot makes the access point, so the plan is the filter set in the
cut state, the pinned host routes, and after the engine has opened its adapter
the filter set in the normal state and the adapter's forwarding, address,
metric, route and name servers.  The filter set is handed over as JSON.
-/

namespace Caspian.Netcfg

open Verified Netip

def opWFP : String := "wfp"

def binIPHelper : String := "iphlpapi"
def binWFP : String := "wfp"

/-- `windowsForwardingKnob`. -/
def windowsForwardingKnob (adapter : String) : String := "forwarding." ++ adapter

/-- A request to the IP Helper. -/
def ipHelper (args : List String) (why : String) : Command :=
  { path := binIPHelper, args := args, why := why }

namespace Plan

/-! ## The filter set -/

/-- The fields of `WindowsFilterSet`. -/
def windowsFilterFields (p : Plan) (state : ForwardState) : List (List Char × Json) :=
  [ ("hotspot".toList, .str p.hotspotSubnet.text.toList),
    ("tun".toList, .str p.tun.toList),
    ("forward".toList,
      .str (match state with | .normal => "normal".toList | .cut => "cut".toList)),
    ("panelPort".toList, .num (itoaInt p.opts.panelPort).toList) ]

/-- `windowsFilterSet`. -/
def windowsFilterSet (p : Plan) (state : ForwardState) : String :=
  String.ofList (Json.render (.obj (p.windowsFilterFields state))) ++ "\n"

/-- A step that loads the filter set and takes every filter away again. -/
def wfpLoadStep (p : Plan) (state : ForwardState) (why : String) : Step :=
  { op := opWFP, why := why
    run := { path := binWFP, args := ["load"], stdin := p.windowsFilterSet state, why := why }
    undo := { path := binWFP, args := ["flush"], why := "remove the generated filters" } }

def windowsFirewallStep (p : Plan) : Step :=
  p.wfpLoadStep .normal
    "install the fail-closed filters, which must be in force before anything can be forwarded"

def windowsCutStep (p : Plan) : Step :=
  p.wfpLoadStep .cut
    ("cut forwarded client traffic without taking the hotspot down, so a joined device stays " ++
      "joined and can still reach the panel to turn it back on")

def windowsRestoreStep (p : Plan) : Step :=
  p.wfpLoadStep .normal "resume forwarding client traffic through the tunnel"

/-! ## Forwarding and routes -/

def windowsForwardingStep (_ : Plan) (adapter : String) (current : Readings) : Step :=
  let why := "a machine that shares its connection is a router, and on Windows forwarding is switched per interface"
  let run := ipHelper ["iface", "set", adapter, "forwarding", "on"] why
  match current (windowsForwardingKnob adapter) with
  | some prev =>
    { op := opSysctl, why := why, run := run
      undo := ipHelper ["iface", "set", adapter, "forwarding", if prev = "1" then "on" else "off"]
        "restore the value read before the change" }
  | none =>
    { op := opSysctl, run := run
      why := why ++ " (no previous value was read for " ++ adapter ++
        ", so this change has no recorded inverse)" }

/-- The words of a pinned host route after the verb. -/
def windowsHostRouteTail (p : Plan) (s : Addr) : List String :=
  [(Prefix.ofAddr s 32).text, "dev", p.uplink] ++
    (if p.uplinkGateway.isValid = true ∧ p.uplinkOnLink = false then
      ["via", p.uplinkGateway.text]
    else []) ++
    ["metric", "1"]

def windowsServerRouteStep (p : Plan) (s : Addr) : Step :=
  let why := "the engine's own connection to the server must leave by the uplink, or the tunnel would try to reach itself"
  { op := opRoute, why := why
    run := ipHelper (["route", "add"] ++ p.windowsHostRouteTail s) why
    undo := ipHelper (["route", "delete"] ++ p.windowsHostRouteTail s)
      "remove the pinned server route" }

def windowsServerRouteSteps (p : Plan) : List Step :=
  (p.serverAddr.filter fun s => p.canPin s && !s.is6).map p.windowsServerRouteStep

/-! ## The plan -/

def windowsPreEngineSteps (p : Plan) (_ : Readings) : List Step :=
  [p.windowsCutStep] ++ p.windowsServerRouteSteps

/-- The filter set in the normal state; its inverse puts the cut one back. -/
def windowsPermitStep (p : Plan) : Step :=
  { p.windowsFirewallStep with undo := p.windowsCutStep.run }

def windowsPostEngineSteps (p : Plan) (current : Readings) : List Step :=
  let addr := (Prefix.ofAddr p.tunAddr p.tunSubnet.bitCount).text
  let addrWhy := "the tunnel adapter needs an address to be routable; the engine on Windows assigns none"
  let metricWhy := "the tunnel's routes must beat the uplink's: interface metric 0"
  let routeWhy := "the default route through the tunnel; the whole host is tunnelled because Windows has no per-source routing"
  [ p.windowsPermitStep,
    p.windowsForwardingStep p.tun current,
    { op := opAddr, why := addrWhy
      run := ipHelper ["addr", "add", addr, "dev", p.tun] addrWhy
      undo := ipHelper ["addr", "delete", addr, "dev", p.tun] "remove the tunnel address" },
    { op := opLink, why := metricWhy
      run := ipHelper ["iface", "set", p.tun, "metric", "0"] metricWhy
      undo := ipHelper ["iface", "set", p.tun, "metric", "auto"] "back to an automatic metric" },
    { op := opRoute, why := routeWhy
      run := ipHelper ["route", "add", "0.0.0.0/0", "dev", p.tun, "metric", "0"] routeWhy
      undo := ipHelper ["route", "delete", "0.0.0.0/0", "dev", p.tun, "metric", "0"]
        "remove the tunnel default route" },
    { op := opLink, why := "Windows and Mobile Hotspot resolve DNS through the tunnel adapter"
      run := ipHelper ["dns", "set", p.tun] ""
      undo := ipHelper ["dns", "clear", p.tun] "" },
    { op := opWFP, why := "prevent DNS fallback to physical interfaces while connected"
      run := { path := binWFP, args := ["dns-protect"], stdin := p.tun }
      undo := { path := binWFP, args := ["dns-clear"] } } ]

end Plan

end Caspian.Netcfg
