import Caspian.Netcfg.Roles
import Caspian.Privsvc.Request

/-!
# From the network plan to the access point

`hotspotPlanFor` renders the access point of a plan: the channel is the
plan's, or the request's where the radio leaves a choice, and the band is read
off the channel's number.  It is called twice on one start, for the plan the
planner made and, when the radio refuses to create an interface, for the
takeover that replaces it.

The user may ask for a band.  The planner picks a channel in it for the first
plan, but the override and the takeover are not held to it, and
`band_honoured_iff` says what has to be true of the channel that is decided.
-/

namespace Caspian.Privsvc

open Verified Netip Netcfg
open Hotspot (APConfig Band DNSConfig RadioConstraint newPlan newMobileHotspotPlan
  validChannel channels5GHz)

/-! ## Rendering -/

def dhcpFirstOffset : Nat := 50
def dhcpLastOffset : Nat := 200

/-- `dhcpLeaseTime`, in seconds. -/
def dhcpLeaseTime : Nat := 12 * 3600
def dnsCacheSize : Int := 150

/-- `bandForChannel`. -/
def bandForChannel (ch : Int) : Band := if 14 < ch then .band5GHz else .band2GHz

/-- The loop of `nthAddress`. -/
def nextAddresses (p : Prefix) : Nat → Addr → Except String Addr
  | 0, a => .ok a
  | n + 1, a =>
    if a.next.isValid = false ∨ p.contains a.next = false then
      .error "privsvc: the hotspot subnet is too small for a DHCP pool"
    else nextAddresses p n a.next

/-- `nthAddress`. -/
def nthAddress (p : Prefix) (n : Nat) : Except String Addr :=
  if p.isValid = false then .error "privsvc: the hotspot subnet is not a network"
  else nextAddresses p n p.masked.addr

/-- The largest number of access points a combination allows. -/
def maxAPs (combo : Combination) : Int :=
  combo.limits.foldl (fun m lim => if lim.has "AP" ∧ m < lim.max then lim.max else m) 0

/-- `radioConstraintFor`. -/
def radioConstraintFor (f : Facts) (p : Plan) (channel : Int) : RadioConstraint :=
  match f.phyByName p.hotspotPhy with
  | none => {}
  | some phy =>
    let combo := phy.apWithStation.getD {}
    { supportsAP := phy.supportsAP
      maxAPs := if maxAPs combo = 0 ∧ phy.supportsAP then 1 else maxAPs combo
      maxChannels := combo.channels
      allowedChannels := phy.usableChannels
      clientChannel := if p.channelPinned then channel else 0 }

/-- The channel `hotspotPlanFor` renders. -/
def renderedChannel (p : Plan) (req : StartRequest) : Int :=
  if req.hotspot.channel ≠ 0 ∧ p.channelPinned = false then req.hotspot.channel else p.channel

/-- The access point of a plan. -/
def Config.accessPoint (c : Config) (p : Plan) (req : StartRequest) (country : String) :
    APConfig where
  interface := p.hotspot
  uplink := if c.platform = .windows then p.tun else p.uplink
  ssid := req.hotspot.ssid
  passphrase := req.hotspot.passphrase
  countryCode := country
  channel := renderedChannel p req
  band := bandForChannel (renderedChannel p req)
  controlDir := c.hostapdControlDir

/-- `hotspotPlanFor`; `generated` is the password made when none was given. -/
def Config.hotspotPlanFor (c : Config) (generated : String) (p : Plan) (f : Facts)
    (req : StartRequest) (country : String) : Except Failure Hotspot.Plan :=
  if country = "" then
    fail "country" .countryMissing
      "no country is set and the radio did not report one, so the hotspot cannot legally pick a channel"
  else do
    let rc := radioConstraintFor f p (renderedChannel p req)
    let first ← (nthAddress p.hotspotSubnet dhcpFirstOffset).mapError fun e =>
      (⟨"dhcp range", .unknown, e⟩ : Failure)
    let last ← (nthAddress p.hotspotSubnet dhcpLastOffset).mapError fun e =>
      (⟨"dhcp range", .unknown, e⟩ : Failure)
    let dns : DNSConfig :=
      { interface := p.hotspot
        subnet := p.hotspotSubnet
        gateway := p.hotspotGateway
        rangeStart := first
        rangeEnd := last
        leaseTime := dhcpLeaseTime
        leaseFile := c.leaseFile
        upstream := (.v4 0x7f000001, c.localDNSPort)
        cacheSize := dnsCacheSize }
    let make := if c.platform = .windows then newMobileHotspotPlan else newPlan
    (make generated (c.accessPoint p req country) dns rc).mapError fun e =>
      (⟨"hotspot configuration", hotspotFault e, e⟩ : Failure)

variable {c : Config} {req : StartRequest}

/-- A rendered access point is the one the plan and the request name, on a
radio the facts know. -/
theorem Config.hotspotPlanFor_ok {generated : String} {p : Plan} {f : Facts} {country : String}
    {hp : Hotspot.Plan} (h : c.hotspotPlanFor generated p f req country = .ok hp) :
    hp.ap.channel = renderedChannel p req ∧
      hp.ap.band = bandForChannel (renderedChannel p req) := by
  have hensure : ∀ {ap ap' : APConfig} {fresh : Bool},
      Hotspot.ensurePassphrase generated ap = .ok (ap', fresh) →
      ap'.channel = ap.channel ∧ ap'.band = ap.band := by
    intro ap ap' fresh he
    unfold Hotspot.ensurePassphrase at he
    split at he
    · obtain ⟨_, _, he⟩ := Outcome.bind_ok he
      obtain ⟨rfl, _⟩ := Prod.mk.inj (Except.ok.inj he)
      exact ⟨rfl, rfl⟩
    · obtain ⟨rfl, _⟩ := Prod.mk.inj (Except.ok.inj he)
      exact ⟨rfl, rfl⟩
  have hmake : ∀ {ap : APConfig} {dns : DNSConfig} {rc : RadioConstraint},
      (if c.platform = .windows then newMobileHotspotPlan else newPlan) generated ap dns rc =
        .ok hp → hp.ap.channel = ap.channel ∧ hp.ap.band = ap.band := by
    intro ap dns rc hm
    split at hm
    · obtain ⟨⟨ap', fresh⟩, he, hm⟩ := Outcome.bind_ok hm
      obtain ⟨_, _, hm⟩ := Outcome.bind_ok hm
      obtain ⟨_, _, hm⟩ := Outcome.bind_ok hm
      rw [← Except.ok.inj hm]
      exact hensure he
    · obtain ⟨⟨ap', fresh⟩, he, hm⟩ := Outcome.bind_ok hm
      obtain ⟨_, _, hm⟩ := Outcome.bind_ok hm
      obtain ⟨_, _, hm⟩ := Outcome.bind_ok hm
      obtain ⟨_, _, hm⟩ := Outcome.bind_ok hm
      rw [← Except.ok.inj hm]
      exact hensure he
  obtain ⟨_, h⟩ := Outcome.guard_ok h
  obtain ⟨first, _, h⟩ := Outcome.bind_ok h
  obtain ⟨last, _, h⟩ := Outcome.bind_ok h
  exact hmake (Outcome.mapError_ok h)

/-! ## The band that was asked for -/

/-- The service settled on a plan for the request. -/
structure Decided (c : Config) (f : Facts) (servers : List Addr) (req : StartRequest)
    (socksPort : UInt16) (o : Options) (p : Plan) : Prop where
  static : validateStatic req = .ok ()
  facts : c.validateAgainstFacts req f = .ok ()
  options : c.netOptionsFor req socksPort = .ok o
  plan : planNetwork f servers o = .ok p
  channel : validateAgainstPlan req p = .ok ()

/-- An access point the service renders: for the plan made first, or for the
takeover made from a later detection.  The Boolean tells the two apart; the
facts are those the access point is rendered from, the text names the radio. -/
inductive Rendered (c : Config) (f : Facts) (servers : List Addr) (req : StartRequest)
    (socksPort : UInt16) (o : Options) (generated country : String) :
    Bool → Facts → String → Hotspot.Plan → Prop where
  | first {p : Plan} {hp : Hotspot.Plan} (decided : Decided c f servers req socksPort o p)
      (render : c.hotspotPlanFor generated p f req country = .ok hp) :
      Rendered c f servers req socksPort o generated country false f p.hotspotPhy hp
  | takeover {p q : Plan} {fresh : Facts} {hp : Hotspot.Plan}
      (decided : Decided c f servers req socksPort o p)
      (take : hotspotTakeover p fresh = .ok q) (channel : validateAgainstPlan req q = .ok ())
      (render : c.hotspotPlanFor generated q fresh req country = .ok hp) :
      Rendered c f servers req socksPort o generated country true fresh q.hotspotPhy hp

/-- The rendered access point is in the band asked for, on a channel the radio
reports usable there. -/
def Honoured (f : Facts) (radio : String) (req : StartRequest) (hp : Hotspot.Plan) : Prop :=
  hp.ap.band.text = req.hotspot.band ∧
    ∃ phy, f.phyByName radio = some phy ∧
      hp.ap.channel ∈ phy.usableChannelsIn (radioBand req.hotspot.band)

/-- The channel the access point ends up on: its neighbour's when the radio
pins it, the override, or the lowest usable one.  The first plan takes the
lowest of the band, the takeover the lowest of all. -/
def decidedChannel (req : StartRequest) (cand : ApCandidate) (uplink : String) (o : Options)
    (takeover : Bool) : Int :=
  if takeover = false ∧ (cand.seat uplink o).pinned = true then cand.station.channel
  else if req.hotspot.channel ≠ 0 then req.hotspot.channel
  else if takeover then cand.phy.usableChannels.headD 0
  else (cand.phy.usableChannelsIn (radioBand req.hotspot.band)).headD 0

/-- A channel the radio reports usable in a band, with a number of that band. -/
def Fits (f : Facts) (radio band : String) (ch : Int) : Prop :=
  (bandForChannel ch).text = band ∧
    ∃ phy, f.phyByName radio = some phy ∧ ch ∈ phy.usableChannelsIn (radioBand band)

theorem radioBand_ne_auto {band : String} (h : band ≠ "") : radioBand band ≠ .auto := by
  rw [radioBand, if_neg h]
  split
  · exact RadioBand.noConfusion
  · split <;> exact RadioBand.noConfusion

theorem Config.netOptions_tunName (c : Config) : c.netOptions.tunName ≠ "" := by
  have hname : (if c.tunName ≠ "" then c.tunName else defaultOptions.tunName) ≠ "" := by
    split
    · assumption
    · decide
  simp only [Config.netOptions]
  by_cases hdarwin : c.platform = .darwin
  · rw [if_pos hdarwin]
    exact hname
  · rw [if_neg hdarwin]
    exact hname

/-- What the planner is asked for is what the request says. -/
structure Asks (c : Config) (req : StartRequest) (o : Options) : Prop where
  tunName : o.tunName ≠ ""
  uplink : o.uplinkOverride = req.network.internetInterface
  band : o.hotspotBand = radioBand req.hotspot.band
  hotspot : req.hotspot.interface ≠ "" → c.isVirtualAPName req.hotspot.interface = false →
    o.hotspotOverride = req.hotspot.interface
  subnet : req.hotspot.subnet ≠ "" → parsePrefix req.hotspot.subnet = some o.hotspotSubnet

variable {o : Options}

theorem Config.netOptionsFor_asks {socksPort : UInt16} (h : c.netOptionsFor req socksPort = .ok o) :
    Asks c req o := by
  simp only [Config.netOptionsFor] at h
  split at h
  next hsubnet =>
    rw [← Except.ok.inj h]
    exact ⟨c.netOptions_tunName, rfl, rfl, fun hne hv => if_pos ⟨hne, hv⟩,
      fun hne => absurd hsubnet hne⟩
  · split at h
    · cases h
    next p hp =>
      rw [← Except.ok.inj h]
      exact ⟨c.netOptions_tunName, rfl, rfl, fun hne hv => if_pos ⟨hne, hv⟩, fun _ => hp⟩

theorem Asks.defaults (h : Asks c req o) : Asks c req (withDefaults o) := by
  simp only [withDefaults, if_neg h.tunName]
  exact ⟨h.tunName, h.uplink, h.band, h.hotspot, h.subnet⟩

/-- The channel that is rendered, read off the request, the facts and the
radio that was picked. -/
theorem Rendered.channel {f g : Facts} {servers : List Addr} {socksPort : UInt16}
    {generated country radio : String} {takeover : Bool} {hp : Hotspot.Plan}
    (h : Rendered c f servers req socksPort o generated country takeover g radio hp)
    (hband : req.hotspot.band ≠ "") :
    ∃ route cand, chooseUplink f (withDefaults o) = .ok route ∧
      pickRadio f route.dev (withDefaults o) = some cand ∧ radio = cand.phy.name ∧
      hp.ap.channel = decidedChannel req cand route.dev (withDefaults o) takeover ∧
      hp.ap.band = bandForChannel hp.ap.channel := by
  cases h with
  | @first p _ decided render =>
    obtain ⟨route, cand, hroute, hcand, hseat, _, _, hphy, _⟩ := planNetwork_roles decided.plan
    obtain ⟨hch, hb⟩ := Config.hotspotPlanFor_ok render
    have hob := (Config.netOptionsFor_asks decided.options).defaults.band
    have hauto : (withDefaults o).hotspotBand ≠ .auto := by
      rw [hob]
      exact radioBand_ne_auto hband
    have hpch := planNetwork_bandChannel decided.plan hauto hroute hcand
    have hpin : p.channelPinned = (cand.seat route.dev (withDefaults o)).pinned :=
      congrArg Seat.pinned hseat
    refine ⟨route, cand, hroute, hcand, hphy, ?_, by rw [hb, hch]⟩
    rw [hch, renderedChannel, decidedChannel, hpch, ApCandidate.bandChannel, hob, hpin]
    cases (cand.seat route.dev (withDefaults o)).pinned with
    | true | false => simp
  | @takeover p q fresh _ decided take channel render =>
    obtain ⟨route, cand, hroute, hcand, hseat, _, _, hphy, husable⟩ :=
      planNetwork_roles decided.plan
    obtain ⟨hch, hb⟩ := Config.hotspotPlanFor_ok render
    obtain ⟨_, w, _, _, rfl⟩ := hotspotTakeover_from take
    refine ⟨route, cand, hroute, hcand, hphy, ?_, by rw [hb, hch]⟩
    have hq : (takeoverPlan p g w).channelPinned = false ∧
        (takeoverPlan p g w).channel = cand.phy.usableChannels.headD 0 := by
      rw [← husable]
      exact ⟨rfl, rfl⟩
    rw [hch, renderedChannel, decidedChannel, hq.1, hq.2]
    simp

/-- The band asked for is honoured exactly when the channel that is decided is
one of the band the radio reports usable. -/
theorem band_honoured_iff {c : Config} {f g : Facts} {servers : List Addr} {req : StartRequest}
    {socksPort : UInt16} {o : Options} {generated country radio : String} {takeover : Bool}
    {hp : Hotspot.Plan}
    (h : Rendered c f servers req socksPort o generated country takeover g radio hp)
    (hband : req.hotspot.band ≠ "") :
    ∃ route cand, chooseUplink f (withDefaults o) = .ok route ∧
      pickRadio f route.dev (withDefaults o) = some cand ∧
      (Honoured g radio req hp ↔
        Fits g cand.phy.name req.hotspot.band
          (decidedChannel req cand route.dev (withDefaults o) takeover)) := by
  obtain ⟨route, cand, hroute, hcand, hradio, hch, hb⟩ := h.channel hband
  refine ⟨route, cand, hroute, hcand, ?_⟩
  rw [Honoured, Fits, hb, hch, hradio]

/-! ### A radio with two bands -/

/-- A station on the upper band. -/
def upperBandStation : WirelessIface where
  name := "wlan0"
  phy := "phy0"
  type := "managed"
  ssid := "home"
  channel := 36
  freqMHz := 5180
  manager := .networkManager
  associated := true
  linkKnown := true

/-- A cable, and a radio with a channel in each band that holds the station. -/
def twoBandFacts : Facts :=
  { cabledFacts with
    wireless := [upperBandStation]
    phys :=
      [ { name := "phy0", modes := ["managed", "AP"]
          combinations :=
            [{ limits := [⟨1, ["managed"]⟩, ⟨1, ["AP"]⟩], total := 2, channels := 1 }]
          frequencies := [{ mhz := 2412, channel := 1 }, { mhz := 5180, channel := 36 }] } ] }

def upperBandRequest : StartRequest where
  hotspot := { ssid := "Caspian", passphrase := "correct horse", band := "5GHz", country := "GB" }
  network := { dnsMode := "tunnel", onTunnelDown := "block", clientIPv6 := "block" }

def upperBandOptions : Options := { defaultOptions with platform := .linux, hotspotBand := .band5GHz }

def upperBandPlan : Plan :=
  match planNetwork twoBandFacts [.v4 0xCB007107#32] upperBandOptions with
  | .ok p => p
  | .error _ => {}

theorem upperBand_decided :
    Decided {} twoBandFacts [.v4 0xCB007107#32] upperBandRequest 10808 upperBandOptions
      upperBandPlan where
  static := by decide
  facts := by decide
  options := by decide
  plan := by decide +kernel
  channel := by decide

/-- The first plan shares the station's channel, in the band asked for. -/
theorem band_honoured_pinned :
    ∃ hp, Rendered {} twoBandFacts [.v4 0xCB007107#32] upperBandRequest 10808 upperBandOptions ""
        "GB" false twoBandFacts "phy0" hp ∧ Honoured twoBandFacts "phy0" upperBandRequest hp := by
  obtain ⟨hp, hrender⟩ := Outcome.ok_of_isOk
    (by decide : (({} : Config).hotspotPlanFor "" upperBandPlan twoBandFacts
      upperBandRequest "GB").isOk = true)
  have hphy : upperBandPlan.hotspotPhy = "phy0" := by decide
  have hr := hphy ▸ Rendered.first upperBand_decided hrender
  refine ⟨hp, hr, ?_⟩
  obtain ⟨route, cand, hroute, hcand, hiff⟩ := band_honoured_iff hr (by decide)
  obtain rfl : cable = route :=
    Except.ok.inj ((rfl : chooseUplink twoBandFacts (withDefaults upperBandOptions) =
      .ok cable).symm.trans hroute)
  obtain ⟨hname, hch⟩ := (by decide :
    ∀ cand ∈ pickRadio twoBandFacts cable.dev (withDefaults upperBandOptions),
      cand.phy.name = "phy0" ∧
        decidedChannel upperBandRequest cand cable.dev (withDefaults upperBandOptions) false = 36)
    cand hcand
  rw [hiff, hname, hch]
  exact ⟨by decide, _, rfl, by decide⟩

/-- The radio refuses to create an interface, and the takeover puts the access
point on the lower band. -/
theorem band_lost_takeover :
    ∃ q hp, hotspotTakeover upperBandPlan twoBandFacts = .ok q ∧
      Rendered {} twoBandFacts [.v4 0xCB007107#32] upperBandRequest 10808 upperBandOptions ""
        "GB" true twoBandFacts "phy0" hp ∧
      hp.ap.channel = 1 ∧ hp.ap.band = .band2GHz ∧
      ¬Honoured twoBandFacts "phy0" upperBandRequest hp := by
  obtain ⟨q, htake⟩ := Outcome.ok_of_isOk
    (by decide : (hotspotTakeover upperBandPlan twoBandFacts).isOk = true)
  obtain ⟨_, w, hw, _, rfl⟩ := hotspotTakeover_from htake
  obtain rfl : upperBandStation = w :=
    Option.some.inj ((by decide : twoBandFacts.wirelessByName upperBandPlan.hotspotFallback =
      some upperBandStation).symm.trans hw)
  obtain ⟨hp, hrender⟩ := Outcome.ok_of_isOk
    (by decide : (({} : Config).hotspotPlanFor ""
      (takeoverPlan upperBandPlan twoBandFacts upperBandStation) twoBandFacts upperBandRequest
      "GB").isOk = true)
  obtain ⟨hch, hb⟩ := Config.hotspotPlanFor_ok hrender
  have hone : renderedChannel (takeoverPlan upperBandPlan twoBandFacts upperBandStation)
      upperBandRequest = 1 := by
    decide
  have hphy : (takeoverPlan upperBandPlan twoBandFacts upperBandStation).hotspotPhy = "phy0" := by
    decide
  have hr := hphy ▸ Rendered.takeover upperBand_decided htake (by decide) hrender
  have hband : hp.ap.band = .band2GHz := by
    rw [hb, hone]
    decide
  refine ⟨_, hp, htake, hr, hch.trans hone, hband, ?_⟩
  intro honoured
  have htext := honoured.1
  rw [hband] at htext
  exact absurd htext (by decide)

end Caspian.Privsvc
