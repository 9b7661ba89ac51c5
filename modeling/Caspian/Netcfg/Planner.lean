import Caspian.Netcfg.Plan
import Caspian.Verified.Outcome

/-!
# The planner

`planNetwork` and `hotspotTakeover`, with the choice of radio, interface and
channel behind them.  What later modules need of a plan is collected at the
end: a created access-point interface is never one that was taken over, is
released from no manager, and has no station address to strip.
-/

namespace Caspian.Netcfg

open Verified Netip

/-! ## The macOS proxy settings -/

/-- One service's settings, accepted or refused. -/
def checkSystemSOCKS (state : SystemSOCKSState) : Except PlanError SystemSOCKSState :=
  let hasServer : Bool := state.server ≠ ""
  let hasPort : Bool := state.port ≠ 0
  if state.service = "" then
    .error (.wrap .systemSOCKSStateUnknown ": an enabled network service has no name"
      "Caspian could not identify one of this Mac's network services, so it left the proxy settings unchanged.")
  else if state.authenticated then
    .error (.wrap .authenticatedSystemSOCKS
      (" on service " ++ Text.quote state.service)
      "An existing authenticated SOCKS proxy is configured on this Mac. Caspian left it unchanged because macOS does not reveal the password needed to restore it.")
  else if hasServer ≠ hasPort ∨ (state.enabled = true ∧ hasServer = false) then
    .error (.wrap .systemSOCKSStateUnknown
      (": inconsistent endpoint on service " ++ Text.quote state.service)
      "One of this Mac's existing SOCKS proxy settings is incomplete, so Caspian left it unchanged instead of guessing how to restore it.")
  else .ok state

/-- `systemSOCKSForPlan`. -/
def systemSOCKSForPlan (f : Facts) (o : Options) :
    Except PlanError (List SystemSOCKSState) :=
  if o.platform ≠ .darwin then
    .error (.plain ("netcfg: the macOS system SOCKS proxy was requested for " ++
      o.platform.text))
  else if !((parseAddr o.systemSOCKS.listen).any Addr.isLoopback) then
    .error (.plain ("netcfg: system SOCKS listener " ++
      Text.quote o.systemSOCKS.listen ++ " must be a loopback IP literal"))
  else if o.systemSOCKS.port = 0 then
    .error (.plain "netcfg: the system SOCKS port is zero")
  else if !f.systemSOCKSKnown then
    .error (.wrap .systemSOCKSStateUnknown ""
      "Caspian could not read this Mac's current proxy settings, so it left them unchanged instead of making a change it could not undo.")
  else if f.systemSOCKS.isEmpty then
    .error (.wrap .systemSOCKSStateUnknown ": no enabled network services"
      "This Mac has no enabled network service whose proxy setting Caspian can use.")
  else f.systemSOCKS.mapM checkSystemSOCKS

/-! ## Channels -/

/-- `chooseChannel`. -/
def chooseChannel (p : Plan) (phy : Phy) (band : RadioBand) : Except PlanError Plan :=
  if band = .auto then
    match phy.usableChannelsIn .band2GHz with
    | ch :: _ => .ok { p with channel := ch }
    | [] =>
      match p.usableChannel with
      | ch :: _ => .ok { p with channel := ch }
      | [] => .ok p
  else
    match phy.usableChannelsIn band with
    | ch :: _ => .ok { p with channel := ch }
    | [] =>
      .error (.wrap .bandUnavailable
        (": " ++ phy.name ++ " reports no usable channel in " ++ band.text)
        ("This WiFi adapter cannot run a hotspot on " ++ band.text ++
          ". Choose the other band, or plug in an adapter that supports this one."))

/-- The network a station is on, as the panel names it. -/
def networkName (w : WirelessIface) : String :=
  if w.ssid ≠ "" then Text.quote w.ssid ++ " on " ++ w.name else w.name

/-- `refuseBandAgainstPin`: the refusal of a band the pinned channel is not in. -/
def refuseBandAgainstPin (p : Plan) (phy : Phy) (station : WirelessIface)
    (band : RadioBand) : Option PlanError :=
  let reported := phy.bandOfChannel p.channel
  let pinned :=
    if reported = .auto ∧ 0 < station.freqMHz then bandOf station.freqMHz else reported
  if band = .auto ∨ pinned = band then none
  else
    some (.wrap .bandUnavailable
      (": " ++ phy.name ++ " is pinned to channel " ++ itoaInt p.channel ++
        ", which is " ++ pinned.text ++ ", because " ++ station.name ++
        " is joined to a network there")
      ("This WiFi adapter can only be on one channel at a time, and it is already on " ++
        pinned.text ++ " for the connection to " ++ networkName station ++
        ", so the hotspot cannot run on " ++ band.text ++
        ". Choose that band instead, disconnect that network, or plug in a USB WiFi adapter."))

/-! ## Candidates -/

/-- A radio that can host the access point, an interface on it, and the
interface already operating on a channel. -/
structure ApCandidate where
  phy : Phy
  iface : WirelessIface := {}
  station : WirelessIface := {}
  bus : String := ""

/-- One interface of the radio looked at. -/
def ApCandidate.see (f : Facts) (uplink : String) (c : ApCandidate)
    (w : WirelessIface) : ApCandidate :=
  if w.phy ≠ c.phy.name then c
  else
    let c :=
      if c.iface.name = "" then
        { c with iface := w, bus := ((f.linkByName w.name).map (·.bus)).getD c.bus }
      else c
    if w.name = uplink then { c with station := w }
    else if w.stationLink ∧ c.station.name = "" then { c with station := w }
    else c

/-- `apCandidates`. -/
def apCandidates (f : Facts) (uplink : String) : List ApCandidate :=
  (f.phys.filter (·.supportsAP)).map fun phy =>
    f.wireless.foldl (ApCandidate.see f uplink) { phy }

/-- `preferUSB`: the first candidate, or the first one on a USB bus. -/
def preferUSB (first : ApCandidate) (rest : List ApCandidate) : ApCandidate :=
  rest.foldl (fun best c => if c.bus = "usb" ∧ best.bus ≠ "usb" then c else best) first

/-- `blockedRefusal`. -/
def blockedRefusal (c : ApCandidate) : PlanError :=
  .wrap .hotspotNotReleased
    (": " ++ c.phy.name ++ " declares no combination of managed and AP, and " ++
      c.station.name ++ " is joined to a network that this package cannot yet end first")
    ("This WiFi adapter cannot run a hotspot while it is connected to a WiFi network, and Caspian " ++
      "cannot disconnect it for you yet. Use the other WiFi adapter for the hotspot, or disconnect " ++
      "this one from its network first.")

/-! ## Accepting a radio -/

/-- `takeOver`: the hotspot goes on the station's own interface. -/
def takeOver (p : Plan) (c : ApCandidate) (o : Options) : Except PlanError Plan :=
  let w := c.station
  if !validInterfaceName w.name then
    .error (.plain ("netcfg: hotspot interface name " ++ Text.quote w.name ++
      " is not usable"))
  else do
    let q ← chooseChannel
      { p with hotspot := w.name, hotspotIsVirtual := false, hotspotTakenOver := true,
               hotspotParent := "", hotspotFallback := "",
               hotspotManager := w.manager, channelPinned := false }
      c.phy o.hotspotBand
    return q.note
      ("this WiFi adapter (" ++ c.phy.name ++ ") cannot run a hotspot and stay connected to a network at the same time, " ++
        "so the connection to " ++ networkName w ++ " ends while the hotspot is on; it is restored when the hotspot is switched off")

/-- The name of the interface to create. -/
def apName (o : Options) : Except PlanError String :=
  let name := if o.apIfaceName = "" then defaultAPIfaceName else o.apIfaceName
  if validInterfaceName name then .ok name
  else
    .error (.plain ("netcfg: access point interface name " ++ Text.quote name ++
      " is not a valid interface name"))

/-- The hotspot beside a station on the same radio. -/
def besideStation (p : Plan) (c : ApCandidate) (o : Options) : Except PlanError Plan :=
  if o.platform = .windows then
    if validInterfaceNameOn o.platform c.station.name then
      .ok { p with hotspot := c.station.name, hotspotManager := c.station.manager }
    else
      .error (.plain ("netcfg: hotspot interface name " ++ Text.quote c.station.name ++
        " is not usable"))
  else do
    let name ← apName o
    return { p with
      hotspot := name, hotspotIsVirtual := true, hotspotParent := c.station.name,
      hotspotManager := .unknown,
      hotspotFallback :=
        if c.station.name ≠ p.uplink then c.station.name else p.hotspotFallback }

/-- The channel of a hotspot beside a station. -/
def shareChannel (p : Plan) (c : ApCandidate) (combo : Combination) (o : Options) :
    Except PlanError Plan :=
  if combo.channels = 1 ∧ c.station.stationLink then
    let q := { p with channel := c.station.channel, channelPinned := true }
    match refuseBandAgainstPin q c.phy c.station o.hotspotBand with
    | some e => .error e
    | none =>
      let what :=
        (if c.station.name = p.uplink then "the internet connection"
          else "the WiFi connection") ++
          (if c.station.ssid ≠ "" then " to " ++ Text.quote c.station.ssid else "")
      .ok (q.note
        (c.phy.name ++ " reports #channels <= 1, so the hotspot is pinned to channel " ++
          itoaInt c.station.channel ++ ", the channel " ++ what ++ " on " ++
          c.station.name ++ " is using; if that connection roams to another channel " ++
          "the hotspot follows it and every joined device is dropped while it does"))
  else chooseChannel p c.phy o.hotspotBand

/-- The note for a radio that reported no channel at all. -/
def noteNoChannel (p : Plan) (c : ApCandidate) : Plan :=
  if p.channel = 0 ∧ p.usableChannel = [] then
    p.note (c.phy.name ++
      " reported no usable channel, so the access point will have to be given one by hand")
  else p

/-- The switch of `acceptHotspot`: take the station over, sit beside it, use an
idle interface, or create one. -/
def seatHotspot (p : Plan) (c : ApCandidate) (o : Options) : Except PlanError Plan :=
  if c.station.name ≠ "" ∧ c.phy.declaresAPWithStation = false ∧
      c.station.name ≠ p.uplink then
    takeOver p c o
  else if c.station.name ≠ "" then do
    let q ← besideStation p c o
    match c.phy.apWithStation with
    | none =>
      throw (.wrap .apConflictsWithUplink
        (": " ++ c.phy.name ++ " permits no combination of managed and AP")
        ("The WiFi adapter that could create a hotspot is the one being used for the internet connection, " ++
          "and it cannot do both. Connect the internet with a cable, or plug in a USB WiFi adapter."))
    | some combo => shareChannel q c combo o
  else if c.iface.name ≠ "" then
    if validInterfaceNameOn o.platform c.iface.name then
      chooseChannel { p with hotspot := c.iface.name, hotspotManager := c.iface.manager }
        c.phy o.hotspotBand
    else
      .error (.plain ("netcfg: hotspot interface name " ++ Text.quote c.iface.name ++
        " is not usable"))
  else do
    let name ← apName o
    chooseChannel { p with hotspot := name, hotspotIsVirtual := true,
                           hotspotManager := .unknown }
      c.phy o.hotspotBand

/-- `acceptHotspot`. -/
def acceptHotspot (p : Plan) (c : ApCandidate) (o : Options) : Except PlanError Plan := do
  let q ← seatHotspot
    { p with hotspotPhy := c.phy.name, usableChannel := c.phy.usableChannels } c o
  return noteNoChannel q c

/-! ## Choosing a radio -/

/-- The best of the radios whose station shares a combination with an access
point: one that does not carry the uplink first, then a USB one. -/
def bestShared (uplink : String) (first : ApCandidate) (shared : List ApCandidate) :
    ApCandidate :=
  shared.foldl
    (fun best c =>
      let bestIsUplink : Bool := best.station.name = uplink
      let cIsUplink : Bool := c.station.name = uplink
      if bestIsUplink && !cIsUplink then c
      else if cIsUplink && !bestIsUplink then best
      else if c.bus = "usb" ∧ best.bus ≠ "usb" then c
      else best)
    first

/-- The refusal when no radio is left to try. -/
def noRadioLeft (uplink : String) (cands : List ApCandidate) : PlanError :=
  if cands.any fun c => c.station.name = uplink then
    .wrap .apConflictsWithUplink
      ": no combination on any AP-capable radio allows managed and AP together"
      ("The only WiFi adapter on this machine is being used for the internet connection, " ++
        "and it cannot run a hotspot at the same time. Plug in a USB WiFi adapter, or connect the internet with a cable.")
  else
    .wrap .apConflictsWithUplink
      ": every AP-capable radio is already connected to a network and cannot do both"
      ("The WiFi adapter that could create a hotspot is already connected to a network and cannot do both. " ++
        "Disconnect it in advanced settings, or plug in a USB WiFi adapter.")

/-- The search over the candidates when none was named by hand: an idle radio,
then one shared with a station that is not the uplink, then one that can be
taken over, then one shared with the uplink. -/
def searchHotspot (p : Plan) (cands : List ApCandidate) (o : Options) :
    Except PlanError Plan :=
  let free := cands.filter fun c => c.station.name = ""
  let joined := cands.filter fun c => c.station.name ≠ ""
  let shared := joined.filter fun c => c.phy.declaresAPWithStation
  let alone := joined.filter fun c => !c.phy.declaresAPWithStation
  let takeoverable := alone.filter fun c => c.station.name ≠ p.uplink
  let blocked := alone.filter fun c => c.station.name = p.uplink
  match free, shared.filter (fun c => c.station.name ≠ p.uplink), takeoverable, shared with
  | first :: rest, _, _, _ => acceptHotspot p (preferUSB first rest) o
  | [], first :: rest, _, _ => acceptHotspot p (preferUSB first rest) o
  | [], [], first :: rest, _ => acceptHotspot p (preferUSB first rest) o
  | [], [], [], first :: rest =>
    let best := bestShared p.uplink first (first :: rest)
    match blocked.find? fun c => c.station.name ≠ p.uplink with
    | some c =>
      if best.station.name = p.uplink then .error (blockedRefusal c)
      else acceptHotspot p best o
    | none => acceptHotspot p best o
  | [], [], [], [] =>
    match blocked.find? fun c => c.station.name ≠ p.uplink with
    | some c => .error (blockedRefusal c)
    | none => .error (noRadioLeft p.uplink cands)

/-- `chooseHotspot`. -/
def chooseHotspot (p : Plan) (f : Facts) (o : Options) : Except PlanError Plan :=
  let p := { p with
    mode := if (f.wirelessByName p.uplink).isSome then .wirelessUplink else .wiredUplink }
  let cands := apCandidates f p.uplink
  if cands.isEmpty then
    .error (.wrap .noAPCapableInterface ""
      "No adapter on this machine can create a hotspot. Plug in a USB WiFi adapter.")
  else if o.hotspotOverride ≠ "" then
    match cands.find? fun c =>
        c.iface.name = o.hotspotOverride || c.phy.name = o.hotspotOverride with
    | some c => acceptHotspot p c o
    | none =>
      .error (.wrap .noAPCapableInterface
        (": " ++ Text.quote o.hotspotOverride ++ " was chosen by hand")
        "The WiFi adapter chosen for the hotspot cannot create one. Choose another, or plug in a USB WiFi adapter.")
  else searchHotspot p cands o

/-! ## The plan -/

/-- `foreignPrefixes`: the addresses an existing interface carries that are
neither link-local, loopback nor inside the hotspot's own subnet. -/
def foreignPrefixes (f : Facts) (name : String) (hotspot : Prefix) : List Prefix :=
  match f.linkByName name with
  | none => []
  | some l =>
    l.prefixes.filter fun pfx =>
      !(pfx.addr.isLinkLocalUnicast || pfx.addr.isLoopback) &&
        !(hotspot.isValid && hotspot.contains pfx.addr)

/-- The options with the defaults `PlanNetwork` fills in. -/
def withDefaults (o : Options) : Options :=
  let o := if o.tunName = "" then defaultOptions else o
  { o with
    hotspotPool := if o.hotspotPool = [] then defaultHotspotPool else o.hotspotPool
    tunnelPool := if o.tunnelPool = [] then defaultTunnelPool else o.tunnelPool }

/-- The default route the uplink is read from. -/
def chooseUplink (f : Facts) (o : Options) : Except PlanError DefaultRoute :=
  if o.uplinkOverride ≠ "" then
    match f.routes.find? fun r => r.dev = o.uplinkOverride && r.family = 4 with
    | some r => .ok r
    | none =>
      .error (.wrap .noUplink
        (": override " ++ Text.quote o.uplinkOverride ++ " carries no default route")
        "The interface chosen for the internet connection has no internet connection on it.")
  else
    match f.primaryDefault with
    | some r => .ok r
    | none =>
      .error (.wrap .noUplink ""
        "This machine has no internet connection yet. Plug in a network cable, or join a WiFi network, then try again.")

/-- The hotspot's subnet: the one set by hand, with a note for every network
it overlaps, or the first free one of the pool. -/
def placeHotspotSubnet (p : Plan) (o : Options) (taken : List Prefix) :
    Except PlanError Plan :=
  if o.hotspotSubnet.isValid then
    let sub := o.hotspotSubnet.masked
    .ok ((taken.filter fun t => subnetsOverlap sub t).foldl
      (fun p t => p.note
        ("the hotspot subnet " ++ sub.text ++ " was set by hand and overlaps " ++
          t.text ++ ", which this machine is already on"))
      { p with hotspotSubnet := sub })
  else do
    let sub ← chooseSubnet o.hotspotPool taken
    return { p with hotspotSubnet := sub }

/-- The servers, and the note for each one no host route can be pinned to. -/
def placeServers (p : Plan) (servers : List Addr) : Except PlanError Plan :=
  let addrs := (servers.filter (·.isValid)).map (·.unmap)
  let q := { p with serverAddr := addrs }
  let stuck := addrs.filter fun s => !q.canPin s
  let q := stuck.foldl
    (fun q s => q.note
      ("the server address " ++ s.text ++ " is IPv6 and this machine has no IPv6 default route, so no host route can be " ++
        "pinned for it; if a default route through the tunnel is ever installed for IPv6 the engine will loop"))
    { q with unpinnableServers := stuck }
  if addrs ≠ [] ∧ stuck.length = addrs.length then
    .error (.wrap .serverFamilyUnreachable
      (" (" ++ itoa addrs.length ++ " address(es), all IPv6)")
      ("The proxy server can only be reached over IPv6, and this machine has no IPv6 internet " ++
        "connection. Ask whoever gave you the configuration for an address that works over IPv4."))
  else if addrs = [] then
    .error (.wrap .noServerAddress ""
      ("The proxy server's address could not be worked out from the configuration, " ++
        "so the connection cannot be set up safely."))
  else .ok q

/-- The uplink as the default routes give it. -/
def placeUplink (p : Plan) (f : Facts) (r : DefaultRoute) : Plan :=
  let p := { p with uplink := r.dev, uplinkGateway := r.gateway, uplinkOnLink := r.onLink }
  match f.defaultV6 with
  | some v6 => { p with uplinkV6Gw := v6.gateway, uplinkV6Dev := v6.dev }
  | none => p

/-- The subnets and the station addresses to strip, once the hotspot's
interface is chosen. -/
def placeSubnets (p : Plan) (f : Facts) (o : Options) : Except PlanError Plan := do
  let taken := f.occupiedPrefixes
  let p ← placeHotspotSubnet p o taken
  let gw ← gatewayAddr p.hotspotSubnet
  let tunSub ← chooseSubnet o.tunnelPool (taken ++ [p.hotspotSubnet])
  let tunAddr ← gatewayAddr tunSub
  let tunPeer ← peerAddr tunSub
  return { p with
    hotspotGateway := gw
    hotspotStationPrefixes :=
      if p.hotspot ≠ "" ∧ p.hotspotIsVirtual = false then
        foreignPrefixes f p.hotspot p.hotspotSubnet
      else p.hotspotStationPrefixes
    tunSubnet := tunSub, tunAddr := tunAddr, tunPeer := tunPeer }

/-- The plan before an interface is chosen for anything. -/
def freshPlan (f : Facts) (o : Options) (socks : List SystemSOCKSState) : Plan :=
  { platform := o.platform, tun := o.tunName, opts := o,
    networkManagerPresent := f.networkManagerPresent, systemSOCKS := socks }

/-- `PlanNetwork`, once the defaults are filled in. -/
def planWith (f : Facts) (servers : List Addr) (o : Options) : Except PlanError Plan :=
  if !validInterfaceNameOn o.platform o.tunName then
    .error (.plain ("netcfg: tunnel device name " ++ Text.quote o.tunName ++
      " is not a valid interface name"))
  else do
    let socks ← (if o.systemSOCKS.enabled then systemSOCKSForPlan f o else pure [])
    let route ← chooseUplink f o
    let p ← chooseHotspot (placeUplink (freshPlan f o socks) f route) f o
    let p ← placeSubnets p f o
    placeServers p servers

/-- `PlanNetwork`. -/
def planNetwork (f : Facts) (servers : List Addr) (o : Options) :
    Except PlanError Plan :=
  planWith f servers (withDefaults o)

/-! ## The fallback plan -/

/-- Who has to let go of the interface a takeover would use: `none` when it
may be taken. -/
def takeoverRefusal (f : Facts) (w : WirelessIface) : Option PlanError :=
  let down := (f.linkByName w.name).any fun l => Text.equalFold l.state "DOWN"
  let inUse := w.inUse && !down
  match w.manager with
  | .networkManager => none
  | .nothing =>
    if inUse then
      some (.wrap .interfaceOwnerUnknown
        (": " ++ w.name ++ " is joined to " ++ Text.quote w.ssid ++
          " but no manager reports owning it")
        ("The WiFi adapter needed for the hotspot is connected to a network and this box cannot work out " ++
          "what is keeping it there, so it will not take it over. Disconnect that WiFi network first."))
    else none
  | m =>
    some (.wrap .interfaceOwnerUnknown
      (": " ++ w.name ++ " reports manager " ++ Text.quote m.text)
      ("This box cannot work out what is managing the WiFi adapter needed for the hotspot, so it will not " ++
        "take it over. Setting up a hotspot on an adapter still joined to another network can disrupt that network."))

/-- The plan on the fallback interface. -/
def takeoverPlan (p : Plan) (f : Facts) (w : WirelessIface) : Plan :=
  let q := { p with
    hotspot := p.hotspotFallback
    hotspotIsVirtual := false
    hotspotParent := ""
    hotspotTakenOver := true
    hotspotManager := w.manager
    hotspotStationPrefixes :=
      match f.linkByName w.name with
      | some l =>
        l.prefixes.filter fun pfx =>
          !(pfx.addr.isLinkLocalUnicast || pfx.addr.isLoopback)
      | none => []
    channelPinned := false
    channel := p.usableChannel.headD 0
    notes := p.notes.filter fun n => !Text.contains n "#channels <= 1" }
  q.note
    ("the radio refused to create a second interface, so the hotspot is planned on " ++
      q.hotspot ++ "; " ++ q.hotspot ++
      " must first be released by whatever manages it and stripped of its own addresses, " ++
      "and nothing may bind to it until that has been read back from the kernel; " ++
      "the internet connection on " ++ q.uplink ++ " is not touched")

/-- `HotspotTakeover`. -/
def hotspotTakeover (p : Plan) (f : Facts) : Except PlanError Plan :=
  if !p.hotspotIsVirtual then
    .error (.plain ("netcfg: the hotspot on " ++ p.hotspot ++
      " already uses an existing interface, so there is no fallback to take"))
  else if p.hotspotFallback = "" then
    .error (.wrap .noTakeoverCandidate (": " ++ p.uplink)
      ("This machine's WiFi adapter cannot run a hotspot alongside the connection it is using for the internet, " ++
        "and taking it over would cut off the internet this box is sharing. Connect the internet with a cable, " ++
        "or plug in a USB WiFi adapter."))
  else
    match f.wirelessByName p.hotspotFallback with
    | none =>
      .error (.wrap .interfaceOwnerUnknown
        (": " ++ p.hotspotFallback ++ " is not in the wireless interface list")
        "The WiFi adapter that would run the hotspot could not be found. Try switching off and on again.")
    | some w =>
      match takeoverRefusal f w with
      | some e => .error e
      | none => .ok (takeoverPlan p f w)

/-! ## What every plan satisfies -/

/-- The hotspot's shape: an interface to be created is not taken over, has no
manager to be released from and carries no address to strip. -/
def HotspotShape (p : Plan) : Prop :=
  p.hotspotIsVirtual = true →
    p.hotspotTakenOver = false ∧ p.hotspotManager ≠ .networkManager ∧
      p.hotspotStationPrefixes = []

variable {p q : Plan}

/-- Choosing a channel changes the channel only. -/
theorem chooseChannel_ok {phy : Phy} {band : RadioBand} (h : chooseChannel p phy band = .ok q) :
    ∃ ch, q = { p with channel := ch } := by
  unfold chooseChannel at h
  split at h
  · split at h
    · exact ⟨_, (Except.ok.inj h).symm⟩
    · split at h
      · exact ⟨_, (Except.ok.inj h).symm⟩
      · exact ⟨p.channel, (Except.ok.inj h).symm⟩
  · split at h
    · exact ⟨_, (Except.ok.inj h).symm⟩
    · cases h

variable {c : ApCandidate} {o : Options}

/-- Sharing the station's channel changes the channel and the notes only. -/
theorem shareChannel_ok {combo : Combination} (h : shareChannel p c combo o = .ok q) :
    ∃ ch pinned notes,
      q = { p with channel := ch, channelPinned := pinned, notes := notes } := by
  unfold shareChannel at h
  split at h
  · simp only at h
    split at h
    · cases h
    · exact ⟨_, _, _, (Except.ok.inj h).symm⟩
  · obtain ⟨ch, rfl⟩ := chooseChannel_ok h
    exact ⟨ch, p.channelPinned, p.notes, rfl⟩

/-- A plan no radio was accepted for yet. -/
def NoHotspotYet (p : Plan) : Prop :=
  p.hotspotIsVirtual = false ∧ p.hotspotTakenOver = false ∧
    p.hotspotStationPrefixes = []

/-- Taking over leaves a plan that is not virtual. -/
theorem takeOver_ok (h : takeOver p c o = .ok q) : q.hotspotIsVirtual = false := by
  unfold takeOver at h
  obtain ⟨_, h⟩ := Outcome.guard_ok h
  obtain ⟨q', hq', h⟩ := Outcome.bind_ok h
  obtain ⟨ch, rfl⟩ := chooseChannel_ok hq'
  rw [← Except.ok.inj h]
  rfl

/-- A hotspot beside a station is the station's own interface on Windows and a
fresh, unmanaged one elsewhere. -/
theorem besideStation_ok (h : besideStation p c o = .ok q) (hp : NoHotspotYet p) :
    HotspotShape q := by
  unfold besideStation at h
  split at h
  · split at h
    · rw [← Except.ok.inj h]
      intro hv
      rw [hp.1] at hv
      cases hv
    · cases h
  · obtain ⟨name, _, h⟩ := Outcome.bind_ok h
    rw [← Except.ok.inj h]
    intro _
    exact ⟨hp.2.1, by simp, hp.2.2⟩

theorem noteNoChannel_shape (c : ApCandidate) (h : HotspotShape p) :
    HotspotShape (noteNoChannel p c) := by
  unfold noteNoChannel
  split <;> exact h

/-- Whichever way the hotspot is seated, it has the shape. -/
theorem seatHotspot_shape (h : seatHotspot p c o = .ok q) (hp : NoHotspotYet p) :
    HotspotShape q := by
  unfold seatHotspot at h
  split at h
  · intro hv
    rw [takeOver_ok h] at hv
    cases hv
  · split at h
    · obtain ⟨r, hr, h⟩ := Outcome.bind_ok h
      have hshape := besideStation_ok hr hp
      split at h
      · cases h
      · obtain ⟨_, _, _, rfl⟩ := shareChannel_ok h
        exact hshape
    · split at h
      · split at h
        · obtain ⟨_, rfl⟩ := chooseChannel_ok h
          intro hv
          exact absurd hv (by simp [hp.1])
        · cases h
      · obtain ⟨name, _, h⟩ := Outcome.bind_ok h
        obtain ⟨_, rfl⟩ := chooseChannel_ok h
        intro _
        exact ⟨hp.2.1, by simp, hp.2.2⟩

theorem acceptHotspot_shape (h : acceptHotspot p c o = .ok q) (hp : NoHotspotYet p) :
    HotspotShape q := by
  obtain ⟨q', hq', h⟩ := Outcome.bind_ok h
  rw [← Except.ok.inj h]
  exact noteNoChannel_shape c (seatHotspot_shape hq' hp)

theorem searchHotspot_shape {cands : List ApCandidate} (h : searchHotspot p cands o = .ok q)
    (hp : NoHotspotYet p) : HotspotShape q := by
  unfold searchHotspot at h
  simp only at h
  split at h
  · exact acceptHotspot_shape h hp
  · exact acceptHotspot_shape h hp
  · exact acceptHotspot_shape h hp
  · split at h
    · split at h
      · cases h
      · exact acceptHotspot_shape h hp
    · exact acceptHotspot_shape h hp
  · split at h <;> cases h

variable {f : Facts}

theorem chooseHotspot_shape (h : chooseHotspot p f o = .ok q) (hp : NoHotspotYet p) :
    HotspotShape q := by
  unfold chooseHotspot at h
  obtain ⟨_, h⟩ := Outcome.guard_ok h
  split at h
  · split at h
    · exact acceptHotspot_shape h hp
    · cases h
  · exact searchHotspot_shape h hp

theorem placeUplink_noHotspot (f : Facts) (r : DefaultRoute) (hp : NoHotspotYet p) :
    NoHotspotYet (placeUplink p f r) := by
  unfold placeUplink
  split <;> exact hp

/-! ## What the placing of addresses changes -/

/-- Adding notes changes the notes. -/
theorem noted_ok {α : Type} (text : α → String) (xs : List α) (p : Plan) :
    ∃ notes, xs.foldl (fun p x => p.note (text x)) p = { p with notes := notes } := by
  refine List.foldlRecOn xs _ (motive := fun q : Plan => ∃ notes, q = { p with notes := notes })
    ⟨p.notes, rfl⟩ ?_
  rintro q ⟨notes, rfl⟩ x _
  exact ⟨notes ++ [text x], rfl⟩

theorem placeHotspotSubnet_ok {taken : List Prefix} (h : placeHotspotSubnet p o taken = .ok q) :
    ∃ sub notes, q = { p with hotspotSubnet := sub, notes := notes } := by
  unfold placeHotspotSubnet at h
  split at h
  · rw [← Except.ok.inj h]
    obtain ⟨notes, hnotes⟩ := noted_ok _ _ { p with hotspotSubnet := o.hotspotSubnet.masked }
    exact ⟨_, notes, hnotes⟩
  · obtain ⟨sub, _, h⟩ := Outcome.bind_ok h
    rw [← Except.ok.inj h]
    exact ⟨sub, p.notes, rfl⟩

/-- The addresses the hotspot's own interface has to lose. -/
def stationPrefixes (p : Plan) (f : Facts) (sub : Prefix) : List Prefix :=
  if p.hotspot ≠ "" ∧ p.hotspotIsVirtual = false then foreignPrefixes f p.hotspot sub
  else p.hotspotStationPrefixes

theorem placeSubnets_ok (h : placeSubnets p f o = .ok q) :
    ∃ sub notes gw tunSub tunAddr tunPeer,
      q = { p with
        hotspotSubnet := sub, notes := notes, hotspotGateway := gw
        hotspotStationPrefixes := stationPrefixes p f sub
        tunSubnet := tunSub, tunAddr := tunAddr, tunPeer := tunPeer } := by
  unfold placeSubnets at h
  obtain ⟨r, hr, h⟩ := Outcome.bind_ok h
  obtain ⟨sub, notes, rfl⟩ := placeHotspotSubnet_ok hr
  obtain ⟨gw, _, h⟩ := Outcome.bind_ok h
  obtain ⟨tunSub, _, h⟩ := Outcome.bind_ok h
  obtain ⟨tunAddr, _, h⟩ := Outcome.bind_ok h
  obtain ⟨tunPeer, _, h⟩ := Outcome.bind_ok h
  exact ⟨sub, notes, gw, tunSub, tunAddr, tunPeer, (Except.ok.inj h).symm⟩

/-- The server addresses a plan keeps: the valid ones, IPv4 in its short form. -/
def keptServers (servers : List Addr) : List Addr :=
  (servers.filter (·.isValid)).map (·.unmap)

variable {servers : List Addr}

/-- The servers are kept as they are given, and at least one can be pinned. -/
theorem placeServers_ok (h : placeServers p servers = .ok q) :
    ∃ stuck notes, q = { p with
        serverAddr := keptServers servers, unpinnableServers := stuck, notes := notes } ∧
      ∃ s ∈ keptServers servers, p.canPin s = true := by
  unfold placeServers at h
  obtain ⟨hstuck, h⟩ := Outcome.guard_ok h
  obtain ⟨hsome, h⟩ := Outcome.guard_ok h
  rw [← Except.ok.inj h]
  obtain ⟨notes, hnotes⟩ := noted_ok _ _ { p with
    serverAddr := keptServers servers
    unpinnableServers := (keptServers servers).filter fun s => !p.canPin s }
  refine ⟨_, notes, hnotes, ?_⟩
  by_contra hnone
  -- With no server that can be pinned, every one of them was stuck.
  have hall : (keptServers servers).filter (fun s => !p.canPin s) = keptServers servers := by
    refine List.filter_eq_self.mpr ?_
    intro s hs
    rw [Bool.not_eq_true']
    exact Bool.eq_false_iff.mpr fun hpin => hnone ⟨s, hs, hpin⟩
  exact hstuck ⟨hsome, congrArg List.length hall⟩

/-- A plan is made in three parts: the uplink, the hotspot's interface, and
then addresses, which change nothing decided before. -/
theorem planNetwork_ok (h : planNetwork f servers o = .ok p) :
    validInterfaceNameOn (withDefaults o).platform (withDefaults o).tunName = true ∧
      ∃ socks route q, chooseUplink f (withDefaults o) = .ok route ∧
        chooseHotspot (placeUplink (freshPlan f (withDefaults o) socks) f route) f
          (withDefaults o) = .ok q ∧
        ∃ sub gw tunSub tunAddr tunPeer stuck notes, p = { q with
          hotspotSubnet := sub, hotspotGateway := gw
          hotspotStationPrefixes := stationPrefixes q f sub
          tunSubnet := tunSub, tunAddr := tunAddr, tunPeer := tunPeer
          serverAddr := keptServers servers, unpinnableServers := stuck, notes := notes } ∧
        ∃ s ∈ keptServers servers, p.canPin s = true := by
  unfold planNetwork planWith at h
  obtain ⟨hname, h⟩ := Outcome.guard_ok h
  obtain ⟨socks, _, h⟩ := Outcome.bind_ok h
  obtain ⟨route, hroute, h⟩ := Outcome.bind_ok h
  obtain ⟨q, hq, h⟩ := Outcome.bind_ok h
  obtain ⟨r, hr, h⟩ := Outcome.bind_ok h
  obtain ⟨sub, _, gw, tunSub, tunAddr, tunPeer, rfl⟩ := placeSubnets_ok hr
  obtain ⟨stuck, notes, rfl, hpin⟩ := placeServers_ok h
  exact ⟨by simpa using hname, socks, route, q, hroute, hq,
    sub, gw, tunSub, tunAddr, tunPeer, stuck, notes, rfl, hpin⟩

/-- Every plan of `PlanNetwork` has the shape. -/
theorem planNetwork_shape (h : planNetwork f servers o = .ok p) : HotspotShape p := by
  obtain ⟨_, socks, route, q, _, hq, sub, _, _, _, _, _, _, rfl, _⟩ := planNetwork_ok h
  have hfresh : NoHotspotYet (freshPlan f (withDefaults o) socks) := ⟨rfl, rfl, rfl⟩
  have hshape := chooseHotspot_shape hq (placeUplink_noHotspot f route hfresh)
  intro hv
  have hv' : q.hotspotIsVirtual = true := hv
  obtain ⟨ht, hm, hs⟩ := hshape hv'
  refine ⟨ht, hm, ?_⟩
  show stationPrefixes q f sub = []
  rw [stationPrefixes, if_neg (by simp [hv'])]
  exact hs

/-- The fallback plan: the interface recorded for it, found among the wireless
ones, and let go of by whoever had it. -/
theorem hotspotTakeover_from (h : hotspotTakeover p f = .ok q) :
    p.hotspotFallback ≠ "" ∧ ∃ w, f.wirelessByName p.hotspotFallback = some w ∧
      takeoverRefusal f w = none ∧ q = takeoverPlan p f w := by
  unfold hotspotTakeover at h
  obtain ⟨_, h⟩ := Outcome.guard_ok h
  obtain ⟨hf, h⟩ := Outcome.guard_ok h
  split at h
  · cases h
  · rename_i w hw
    split at h
    · cases h
    · rename_i hrefusal
      exact ⟨hf, w, hw, hrefusal, (Except.ok.inj h).symm⟩

/-- The fallback plan uses an interface the machine has. -/
theorem hotspotTakeover_ok (h : hotspotTakeover p f = .ok q) : q.hotspotIsVirtual = false := by
  obtain ⟨_, w, _, _, rfl⟩ := hotspotTakeover_from h
  rfl

/-- A plan the program can be asked to apply: one `PlanNetwork` returned, or
the fallback made from such a plan, possibly on newer facts. -/
inductive Planned : Plan → Prop where
  | network {f : Facts} {servers : List Addr} {o : Options} {p : Plan}
      (h : planNetwork f servers o = .ok p) : Planned p
  | takeover {p q : Plan} {f : Facts} (hp : Planned p)
      (h : hotspotTakeover p f = .ok q) : Planned q

/-- Every plan the program can be asked to apply has the shape. -/
theorem Planned.shape (h : Planned p) : HotspotShape p := by
  cases h with
  | network h => exact planNetwork_shape h
  | takeover _ h =>
    intro hv
    rw [hotspotTakeover_ok h] at hv
    cases hv

/-! ## What planning leaves alone -/

/-- What the options fix from the start: the tunnel's name, the options
themselves and the platform. -/
def Plan.basis (p : Plan) : String × Options × Platform := (p.tun, p.opts, p.platform)

/-- What choosing the hotspot's interface leaves alone: that and the uplink. -/
structure Ground where
  tun : String
  opts : Options
  platform : Platform
  uplink : String
  uplinkGateway : Addr
  uplinkOnLink : Bool
  uplinkV6Gw : Addr
  uplinkV6Dev : String

def Plan.ground (p : Plan) : Ground :=
  ⟨p.tun, p.opts, p.platform, p.uplink, p.uplinkGateway, p.uplinkOnLink, p.uplinkV6Gw,
    p.uplinkV6Dev⟩

theorem Plan.basis_of_ground (h : q.ground = p.ground) : q.basis = p.basis :=
  congrArg (fun g : Ground => (g.tun, g.opts, g.platform)) h

theorem besideStation_ground (h : besideStation p c o = .ok q) : q.ground = p.ground := by
  unfold besideStation at h
  split at h
  · split at h
    · rw [← Except.ok.inj h]
      rfl
    · cases h
  · obtain ⟨name, _, h⟩ := Outcome.bind_ok h
    rw [← Except.ok.inj h]
    rfl

theorem seatHotspot_ground (h : seatHotspot p c o = .ok q) : q.ground = p.ground := by
  unfold seatHotspot at h
  split at h
  · unfold takeOver at h
    obtain ⟨_, h⟩ := Outcome.guard_ok h
    obtain ⟨r, hr, h⟩ := Outcome.bind_ok h
    obtain ⟨_, rfl⟩ := chooseChannel_ok hr
    rw [← Except.ok.inj h]
    rfl
  · split at h
    · obtain ⟨r, hr, h⟩ := Outcome.bind_ok h
      have hground := besideStation_ground hr
      split at h
      · cases h
      · obtain ⟨_, _, _, rfl⟩ := shareChannel_ok h
        exact hground
    · split at h
      · split at h
        · obtain ⟨_, rfl⟩ := chooseChannel_ok h
          rfl
        · cases h
      · obtain ⟨name, _, h⟩ := Outcome.bind_ok h
        obtain ⟨_, rfl⟩ := chooseChannel_ok h
        rfl

theorem acceptHotspot_ground (h : acceptHotspot p c o = .ok q) : q.ground = p.ground := by
  obtain ⟨r, hr, h⟩ := Outcome.bind_ok h
  rw [← Except.ok.inj h]
  have hground := seatHotspot_ground hr
  unfold noteNoChannel
  split <;> exact hground

theorem searchHotspot_ground {cands : List ApCandidate} (h : searchHotspot p cands o = .ok q) :
    q.ground = p.ground := by
  unfold searchHotspot at h
  simp only at h
  split at h
  · exact acceptHotspot_ground h
  · exact acceptHotspot_ground h
  · exact acceptHotspot_ground h
  · split at h
    · split at h
      · cases h
      · exact acceptHotspot_ground h
    · exact acceptHotspot_ground h
  · split at h <;> cases h

theorem chooseHotspot_ground (h : chooseHotspot p f o = .ok q) : q.ground = p.ground := by
  unfold chooseHotspot at h
  obtain ⟨_, h⟩ := Outcome.guard_ok h
  split at h
  · split at h
    · exact (acceptHotspot_ground h).trans rfl
    · cases h
  · exact (searchHotspot_ground h).trans rfl

theorem placeUplink_basis (p : Plan) (f : Facts) (r : DefaultRoute) :
    (placeUplink p f r).basis = p.basis := by
  unfold placeUplink
  split <;> rfl

/-- A plan is for the platform and the options it was asked for. -/
theorem planNetwork_basis (h : planNetwork f servers o = .ok p) :
    p.basis = ((withDefaults o).tunName, withDefaults o, (withDefaults o).platform) ∧
      validInterfaceNameOn (withDefaults o).platform (withDefaults o).tunName = true := by
  obtain ⟨hname, socks, route, q, _, hq, _, _, _, _, _, _, _, rfl, _⟩ := planNetwork_ok h
  refine ⟨?_, hname⟩
  calc q.basis = (placeUplink (freshPlan f (withDefaults o) socks) f route).basis :=
        Plan.basis_of_ground (chooseHotspot_ground hq)
    _ = (freshPlan f (withDefaults o) socks).basis := placeUplink_basis _ f route

theorem hotspotTakeover_basis (h : hotspotTakeover p f = .ok q) : q.basis = p.basis := by
  obtain ⟨_, w, _, _, rfl⟩ := hotspotTakeover_from h
  rfl

/-- The tunnel's name was accepted as an interface name. -/
theorem Planned.tun (h : Planned p) : validInterfaceNameOn p.platform p.tun = true := by
  induction h with
  | @network f servers o p h =>
    obtain ⟨hbasis, hname⟩ := planNetwork_basis h
    simp only [Plan.basis, Prod.mk.injEq] at hbasis
    rw [hbasis.1, hbasis.2.2]
    exact hname
  | takeover _ h ih =>
    have hbasis := hotspotTakeover_basis h
    simp only [Plan.basis, Prod.mk.injEq] at hbasis
    rw [hbasis.1, hbasis.2.2]
    exact ih

theorem Planned.tun_ne (h : Planned p) : p.tun ≠ "" := by
  intro hempty
  have htun := h.tun
  rw [hempty, validInterfaceNameOn] at htun
  split at htun <;> exact absurd htun (by decide)

end Caspian.Netcfg
