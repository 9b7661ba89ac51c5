import Caspian.Netcfg.Route

/-!
# The macOS steps

Internet Sharing makes the access point, so the plan is the pf anchor, two
knobs, the pinned host routes, and after the engine has started the half
defaults and the system SOCKS proxy.  Unlike the nftables table, the anchor is
journalled under an op of its own, `pf`.
-/

namespace Caspian.Netcfg

open Verified Netip

def darwinAnchor : String := "com.apple/250.CaspianBYOC"
def darwinSharingBridge : String := "bridge100"
def darwinTunPeer : String := "169.254.10.1"
def darwinPfStatusKnob : String := "pf.status"

def opPf : String := "pf"

def binRoute : String := "route"
def binPfctl : String := "pfctl"
def binNetworksetup : String := "networksetup"

/-! ## The system SOCKS proxy -/

def caspianSystemSOCKSBypass : List String :=
  ["localhost", "127.0.0.1", "::1", "*.local", "169.254/16"]

/-- `mergedSystemSOCKSBypass`: the domains there were, and those that are
missing. -/
def mergedSystemSOCKSBypass (existing : List String) : List String :=
  caspianSystemSOCKSBypass.foldl
    (fun out required =>
      if out.any fun present => Text.equalFold present required then out else out ++ [required])
    existing

def systemSOCKSStateCommand (service : String) (enabled : Bool) (why : String) : Command :=
  { path := binNetworksetup, why := why
    args := ["-setsocksfirewallproxystate", service, if enabled then "on" else "off"] }

def systemSOCKSEndpointCommand (service server : String) (port : UInt16) (why : String) :
    Command :=
  { path := binNetworksetup, why := why
    args := ["-setsocksfirewallproxy", service, server, itoa port.toNat, "off"] }

def systemSOCKSBypassCommand (service : String) (domains : List String) (why : String) :
    Command :=
  { path := binNetworksetup, why := why
    args := ["-setproxybypassdomains", service] ++
      (if domains = [] then ["Empty"] else domains) }

namespace Plan

/-- The four steps that point one network service at the engine. -/
def socksServiceSteps (p : Plan) (previous : SystemSOCKSState) : List Step :=
  let service := previous.service
  let disableWhy := "pause the previous SOCKS proxy before replacing its endpoint with Caspian's listener"
  let bypassWhy := "keep loopback and link-local destinations local while macOS applications use Caspian's SOCKS proxy"
  let endpointWhy := "point this macOS network service at the SOCKS listener created by Caspian's running engine"
  let enableWhy := "let proxy-aware macOS applications use the configured Caspian tunnel"
  [ { op := opProxy, why := disableWhy
      run := systemSOCKSStateCommand service false disableWhy
      undo := systemSOCKSStateCommand service previous.enabled
        "restore the SOCKS proxy state read before Caspian started" },
    { op := opProxy, why := bypassWhy
      run := systemSOCKSBypassCommand service (mergedSystemSOCKSBypass previous.bypassDomains)
        bypassWhy
      undo := systemSOCKSBypassCommand service previous.bypassDomains
        "restore the proxy bypass domains read before Caspian started" },
    { op := opProxy, why := endpointWhy
      run := systemSOCKSEndpointCommand service p.opts.systemSOCKS.listen
        p.opts.systemSOCKS.port endpointWhy
      undo :=
        if previous.server ≠ "" ∧ previous.port ≠ 0 then
          systemSOCKSEndpointCommand service previous.server previous.port
            "restore the SOCKS endpoint read before Caspian started"
        else
          systemSOCKSStateCommand service false
            "the service previously had no SOCKS endpoint; leave it disabled" },
    { op := opProxy, why := enableWhy
      run := systemSOCKSStateCommand service true enableWhy
      undo := systemSOCKSStateCommand service false
        "disable Caspian's system SOCKS proxy before restoring the previous endpoint" } ]

def darwinSystemSOCKSSteps (p : Plan) : List Step :=
  if p.opts.systemSOCKS.enabled then p.systemSOCKS.flatMap p.socksServiceSteps else []

/-! ## The anchor -/

/-- `darwinRulesetFor`, line by line. -/
def darwinRulesetLines (p : Plan) (state : ForwardState) : List String :=
  let hot := p.hotspotSubnet.text
  let gw := p.hotspotGateway.text
  let on := " on " ++ darwinSharingBridge
  [
    "# Caspian-BYOC, generated. Anchor " ++ darwinAnchor ++ ". Loaded as one transaction.",
    "# clients arrive on " ++ darwinSharingBridge ++ "; the uplink is " ++ p.uplink ++
      "; the tunnel is " ++ p.tun ++ ".",
    "rdr pass" ++ on ++ " inet proto \x7b tcp, udp \x7d from " ++ hot ++
      " to any port 53 -> 127.0.0.1 port " ++ itoaInt p.opts.dnsPort,
    "block drop in quick" ++ on ++ " inet6 all",
    "pass in quick" ++ on ++ " inet proto udp from any port 68 to any port 67",
    "pass in quick" ++ on ++ " inet proto tcp from " ++ hot ++ " to " ++ gw ++ " port " ++
      itoaInt p.opts.panelPort,
    "pass in quick" ++ on ++ " inet proto icmp from " ++ hot ++ " to " ++ gw,
    "block drop in quick" ++ on ++ " inet from " ++ hot ++ " to " ++ gw,
    "block drop in quick" ++ on ++ " inet proto \x7b tcp, udp \x7d from " ++ hot ++
      " to any port 853",
    (match state with
      | .normal =>
        "pass in quick" ++ on ++ " route-to (" ++ p.tun ++ " " ++ darwinTunPeer ++
          ") inet from " ++ hot ++ " to any keep state"
      | .cut =>
        "# forwarding is cut: the steering rule is withheld and the block below applies"),
    "block drop in quick" ++ on ++ " inet from " ++ hot ++ " to any"]

/-- `darwinRulesetFor`. -/
def darwinRulesetFor (p : Plan) (state : ForwardState) : String :=
  Text.unlines (p.darwinRulesetLines state)

/-- A step that loads the anchor and takes it away again. -/
def pfLoadStep (p : Plan) (state : ForwardState) (why : String) : Step :=
  { op := opPf, why := why
    run := { path := binPfctl, args := ["-a", darwinAnchor, "-f", "-"]
             stdin := p.darwinRulesetFor state, why := why }
    undo := { path := binPfctl, args := ["-a", darwinAnchor, "-F", "all"]
              why := "remove the generated anchor" } }

def darwinFirewallStep (p : Plan) : Step :=
  p.pfLoadStep .normal
    "install the fail-closed ruleset, which must be in force before anything can be forwarded"

def darwinCutStep (p : Plan) : Step :=
  p.pfLoadStep .cut
    ("cut forwarded client traffic without taking the hotspot down, so a joined device stays " ++
      "joined and can still reach the panel to turn it back on")

def darwinRestoreStep (p : Plan) : Step :=
  p.pfLoadStep .normal "resume forwarding client traffic through the tunnel"

/-- `darwinPfEnableSteps`: pf is switched on when it was read as off, and that
has no inverse. -/
def darwinPfEnableSteps (_ : Plan) (current : Readings) : List Step :=
  if current darwinPfStatusKnob = some "0" then
    let why := "pf was disabled; the fail-closed anchor is enforced only while pf is enabled " ++
      "(left enabled on teardown: pf is reference counted by system services and pfctl -d would disable it under them)"
    [{ op := opPf, why := why, run := { path := binPfctl, args := ["-e"], why := why } }]
  else []

/-! ## Knobs and routes -/

def darwinSysctlSteps (_ : Plan) (current : Readings) : List Step :=
  [ sysctlStep "net.inet.ip.forwarding" "1" current
      "a machine that shares its connection is a router, and a router forwards",
    sysctlStep "net.inet6.ip6.forwarding" "0" current
      "hotspot clients get no IPv6 (design 4.5), so nothing may forward it" ]

def darwinHostRouteArgs (p : Plan) (verb : String) (s : Addr) : List String :=
  let gw := if s.is6 then p.uplinkV6Gw else p.uplinkGateway
  let onLink := if s.is6 then !gw.isValid else p.uplinkOnLink
  ["-n", verb] ++ (if s.is6 then ["-inet6"] else []) ++ ["-host", s.text] ++
    (if verb = "delete" then []
    else if onLink || !gw.isValid then ["-interface", p.uplink]
    else [gw.text])

def darwinServerRouteStep (p : Plan) (s : Addr) : Step :=
  let why := "the engine's own connection to the server must leave by the uplink, or the tunnel would try to reach itself"
  { op := opRoute, why := why
    run := { path := binRoute, args := p.darwinHostRouteArgs "add" s, why := why }
    undo := { path := binRoute, args := p.darwinHostRouteArgs "delete" s
              why := "remove the pinned server route" } }

def darwinServerRouteSteps (p : Plan) : List Step :=
  (p.serverAddr.filter fun s => p.canPin s).map p.darwinServerRouteStep

/-- One half of the default route. -/
def darwinHalfStep (p : Plan) (half : String) : Step :=
  let why := "send the machine's own traffic through the tunnel as well as the clients'; " ++
    "two halves rather than a default so the uplink's default route stays for the pinned server route"
  { op := opRoute, why := why
    run := { path := binRoute, args := ["-n", "add", "-net", half, "-interface", p.tun]
             why := why }
    undo := { path := binRoute, args := ["-n", "delete", "-net", half, "-interface", p.tun]
              why := "remove the half-default route" } }

/-! ## The plan -/

def darwinPreEngineSteps (p : Plan) (current : Readings) : List Step :=
  p.darwinPfEnableSteps current ++ [p.darwinFirewallStep] ++ p.darwinSysctlSteps current ++
    p.darwinServerRouteSteps

def darwinPostEngineSteps (p : Plan) (_ : Readings) : List Step :=
  (if p.opts.strategy = .splitDefault then
    ["0.0.0.0/1", "128.0.0.0/1"].map p.darwinHalfStep
  else []) ++ p.darwinSystemSOCKSSteps

end Plan

end Caspian.Netcfg
