import Caspian.Netcfg.Pinned

/-!
# Where a pinned server's route goes

A server with an IPv6 address is reached over the machine's IPv6 default route,
which need not be on the interface the IPv4 one is on.  The next hop is read back
out of the command: `ip route` names a gateway with `via` and a device with
`dev`, `route` a gateway by itself and a device with `-interface`.
-/

namespace Caspian.Netcfg

open Netip

/-! ## Reading the next hop -/

/-- Where a route sends a packet: to a gateway, or out of a device. -/
inductive Hop where
  | via (gateway : String)
  | out (device : String)
  deriving DecidableEq, Repr

/-- The next hop of `ip route add <dst> …`. -/
def ipRouteHop : List String → Option Hop
  | "-6" :: rest => ipRouteHop rest
  | "route" :: "add" :: _ :: "via" :: gateway :: _ => some (.via gateway)
  | "route" :: "add" :: _ :: "dev" :: device :: _ => some (.out device)
  | _ => none

/-- The next hop of `route -n add -host <dst> …`. -/
def routeHop : List String → Option Hop
  | "-n" :: "add" :: "-inet6" :: "-host" :: _ :: rest => hop rest
  | "-n" :: "add" :: "-host" :: _ :: rest => hop rest
  | _ => none
where
  hop : List String → Option Hop
    | [gateway] => some (.via gateway)
    | "-interface" :: device :: _ => some (.out device)
    | _ => none

/-- The next hop of the route a command adds. -/
def Command.nextHop (c : Command) : Option Hop :=
  if c.path = binIP then ipRouteHop c.args
  else if c.path = binRoute then routeHop c.args
  else none

/-- The next hop of a default route. -/
def DefaultRoute.hop (r : DefaultRoute) : Hop :=
  if r.gateway.isValid then .via r.gateway.text else .out r.dev

/-! ## The default route of a family -/

/-- A default route packets of the family can take. -/
def DefaultRoute.Live (r : DefaultRoute) (family : Nat) : Prop :=
  r.family = family ∧ r.linkDown = false ∧ r.dev ≠ ""

/-- A live route of the lowest metric. -/
def Facts.Preferred (f : Facts) (family : Nat) (r : DefaultRoute) : Prop :=
  r ∈ f.routes ∧ r.Live family ∧ ∀ r' ∈ f.routes, r'.Live family → r.metric ≤ r'.metric

/-- What the scan over the routes has found so far. -/
private def Found (family : Nat) (seen : List DefaultRoute) : Option DefaultRoute → Prop
  | none => ∀ r ∈ seen, ¬r.Live family
  | some r => r ∈ seen ∧ r.Live family ∧ ∀ r' ∈ seen, r'.Live family → r.metric ≤ r'.metric

section Found

variable {family : Nat} {seen : List DefaultRoute} {best : Option DefaultRoute} {r b : DefaultRoute}

private theorem Found.snoc_dead (h : Found family seen best) (hr : ¬r.Live family) :
    Found family (seen ++ [r]) best := by
  cases best with
  | none =>
    intro r' hr'
    rcases List.mem_append.mp hr' with hold | hnew
    · exact h r' hold
    · rwa [List.mem_singleton.mp hnew]
  | some b =>
    refine ⟨List.mem_append_left _ h.1, h.2.1, fun r' hr' hlive => ?_⟩
    rcases List.mem_append.mp hr' with hold | hnew
    · exact h.2.2 r' hold hlive
    · rw [List.mem_singleton.mp hnew] at hlive
      exact absurd hlive hr

private theorem Found.snoc_first (h : Found family seen none) (hr : r.Live family) :
    Found family (seen ++ [r]) (some r) := by
  refine ⟨by simp, hr, fun r' hr' hlive => ?_⟩
  rcases List.mem_append.mp hr' with hold | hnew
  · exact absurd hlive (h r' hold)
  · rw [List.mem_singleton.mp hnew]

private theorem Found.snoc_live (h : Found family seen (some b)) (hr : r.Live family) :
    Found family (seen ++ [r]) (if r.metric < b.metric then some r else some b) := by
  by_cases hlt : r.metric < b.metric
  · rw [if_pos hlt]
    refine ⟨by simp, hr, fun r' hr' hlive => ?_⟩
    rcases List.mem_append.mp hr' with hold | hnew
    · have hle := h.2.2 r' hold hlive
      omega
    · rw [List.mem_singleton.mp hnew]
  · rw [if_neg hlt]
    refine ⟨List.mem_append_left _ h.1, h.2.1, fun r' hr' hlive => ?_⟩
    rcases List.mem_append.mp hr' with hold | hnew
    · exact h.2.2 r' hold hlive
    · rw [List.mem_singleton.mp hnew]
      omega

end Found

variable {f : Facts}

/-- The scan keeps a live route of the lowest metric. -/
theorem Facts.bestDefault_preferred {family : Nat} {r : DefaultRoute}
    (h : f.bestDefault family = some r) : f.Preferred family r := by
  suffices hfound : Found family f.routes (f.bestDefault family) by
    rw [h] at hfound
    exact hfound
  clear h
  unfold Facts.bestDefault
  -- The scan goes from the front, so the routes are taken off the back.
  induction f.routes using List.reverseRecOn with
  | nil => simp [Found]
  | append_singleton seen r ih =>
    rw [List.foldl_append, List.foldl_cons, List.foldl_nil]
    generalize seen.foldl _ none = best at ih ⊢
    split
    next hdead =>
      have hnot : ¬r.Live family := by
        rintro ⟨hfam, hdown, hdev⟩
        simp [hfam, hdown, hdev] at hdead
      exact ih.snoc_dead hnot
    next hlive =>
      simp only [not_or, Decidable.not_not, Bool.not_eq_true] at hlive
      have hself : r.Live family := ⟨hlive.1, hlive.2.1, hlive.2.2⟩
      cases best with
      | none => exact ih.snoc_first hself
      | some b => exact ih.snoc_live hself

/-! ## The plan's IPv6 uplink -/

/-- The plans made from one reading of the machine: the first one, and any
fallback made from it later. -/
inductive PlannedFrom (f : Facts) (o : Options) : Plan → Prop where
  | network {servers : List Addr} {p : Plan} (h : planNetwork f servers o = .ok p) :
      PlannedFrom f o p
  | takeover {p q : Plan} {fresh : Facts} (hp : PlannedFrom f o p)
      (h : hotspotTakeover p fresh = .ok q) : PlannedFrom f o q

variable {o : Options}

/-- The uplink of a plan is what the facts gave for each family. -/
theorem PlannedFrom.uplink {p : Plan} (h : PlannedFrom f o p) :
    ∃ route, chooseUplink f (withDefaults o) = .ok route ∧ p.uplink = route.dev ∧
      p.uplinkV6Gw = (f.defaultV6.map (·.gateway)).getD .invalid ∧
      p.uplinkV6Dev = (f.defaultV6.map (·.dev)).getD "" := by
  induction h with
  | @network servers p h =>
    obtain ⟨_, socks, route, q, hroute, hq, _, _, _, _, _, _, _, rfl, _⟩ := planNetwork_ok h
    have hground := chooseHotspot_ground hq
    simp only [Plan.ground, Ground.mk.injEq] at hground
    obtain ⟨-, -, -, huplink, -, -, hgw, hdev⟩ := hground
    refine ⟨route, hroute, ?_⟩
    show q.uplink = _ ∧ q.uplinkV6Gw = _ ∧ q.uplinkV6Dev = _
    rw [huplink, hgw, hdev]
    unfold placeUplink
    cases hv6 : f.defaultV6 with
    | none | some v6 => exact ⟨rfl, rfl, rfl⟩
  | takeover _ h ih =>
    obtain ⟨_, w, _, _, rfl⟩ := hotspotTakeover_from h
    exact ih

/-- A pinned IPv6 server means the facts had an IPv6 default route. -/
theorem PlannedFrom.defaultV6 {p : Plan} (h : PlannedFrom f o p) {s : Addr}
    (hs : s ∈ p.pinnedServers) (h6 : s.is6 = true) :
    ∃ v6, f.defaultV6 = some v6 ∧ f.Preferred 6 v6 ∧ p.uplinkV6Gw = v6.gateway ∧
      p.uplinkV6Dev = v6.dev := by
  obtain ⟨route, -, -, hgw, hdev⟩ := h.uplink
  cases hv6 : f.defaultV6 with
  | none =>
    rw [hv6] at hgw hdev
    have hpin := (List.mem_filter.mp hs).2
    simp [Plan.canPin, h6, hgw, hdev, Addr.isValid] at hpin
  | some v6 =>
    rw [hv6] at hgw hdev
    exact ⟨v6, rfl, Facts.bestDefault_preferred hv6, hgw, hdev⟩

/-! ## The commands -/

namespace Plan

variable {p : Plan} {s : Addr}

theorem linux_nextHop (h6 : s.is6 = true) (hdev : p.uplinkV6Dev ≠ "") :
    (p.serverRouteStep s).run.nextHop =
      some (if p.uplinkV6Gw.isValid then .via p.uplinkV6Gw.text else .out p.uplinkV6Dev) := by
  cases hgw : p.uplinkV6Gw.isValid <;>
    simp [Command.nextHop, serverRouteStep, ipCmd, hostRouteArgs, ipRouteHop, h6, hdev, hgw]

theorem darwin_nextHop (h6 : s.is6 = true) :
    (p.darwinServerRouteStep s).run.nextHop =
      some (if p.uplinkV6Gw.isValid then .via p.uplinkV6Gw.text else .out p.uplink) := by
  have hpath : binRoute ≠ binIP := by decide
  cases hgw : p.uplinkV6Gw.isValid <;>
    simp [Command.nextHop, darwinServerRouteStep, darwinHostRouteArgs, routeHop, routeHop.hop, h6,
      hpath, hgw]

end Plan

theorem PlannedFrom.platform {p : Plan} (h : PlannedFrom f o p) :
    p.platform = (withDefaults o).platform := by
  induction h with
  | network h => exact congrArg (fun b => b.2.2) (planNetwork_basis h).1
  | takeover _ h ih => exact (congrArg (fun b => b.2.2) (hotspotTakeover_basis h)).trans ih

/-- **A pinned IPv6 server is reached over the machine's IPv6 default route: always
on Linux, and on macOS exactly when that route has a gateway or is on the IPv4
uplink.**  Where the two generators differ it is there as well. -/
theorem next_hop_iff {f : Facts} {o : Options} {p : Plan} (h : PlannedFrom f o p)
    (hpl : p.OnLinux ∨ p.platform = .darwin) {s : Addr} (hs : s ∈ p.pinnedServers)
    (h6 : s.is6 = true) (current : Readings) :
    ∃ route v6, chooseUplink f (withDefaults o) = .ok route ∧
      f.defaultV6 = some v6 ∧ f.Preferred 6 v6 ∧ p.pinStep s ∈ p.preEngineSteps current ∧
      ((p.pinStep s).run.nextHop = some v6.hop ↔
        ((withDefaults o).platform = .darwin → v6.gateway.isValid = true ∨ v6.dev = route.dev)) ∧
      ((p.serverRouteStep s).run.nextHop = (p.darwinServerRouteStep s).run.nextHop ↔
        v6.gateway.isValid = true ∨ v6.dev = route.dev) := by
  obtain ⟨route, hroute, huplink, -, -⟩ := h.uplink
  obtain ⟨v6, hv6, hpref, hgw, hdev⟩ := h.defaultV6 hs h6
  have hlinux : (p.serverRouteStep s).run.nextHop = some v6.hop := by
    rw [Plan.linux_nextHop h6 (by rw [hdev]; exact hpref.2.1.2.2), hgw, hdev, DefaultRoute.hop]
  have hdarwin : (p.darwinServerRouteStep s).run.nextHop = some v6.hop ↔
      v6.gateway.isValid = true ∨ v6.dev = route.dev := by
    rw [Plan.darwin_nextHop h6, hgw, huplink, DefaultRoute.hop]
    cases hvalid : v6.gateway.isValid with
    | true => simp
    | false => simp [eq_comm]
  have hother : ∀ name, p.platform ≠ .other name := by
    intro name heq
    rcases hpl with (hunset | hlin) | hdar
    · rw [hunset] at heq
      cases heq
    · rw [hlin] at heq
      cases heq
    · rw [hdar] at heq
      cases heq
  have hmem : p.pinStep s ∈ p.preEngineSteps current := by
    obtain ⟨quiet, -, hsteps⟩ := p.preEngineSteps_eq hother current
    rw [hsteps]
    exact List.mem_append_right _ (List.mem_map_of_mem hs)
  refine ⟨route, v6, hroute, hv6, hpref, hmem, ?_, ?_⟩
  · rw [← h.platform, Plan.pinStep]
    rcases hpl with (hunset | hlin) | hdar
    · simp [hunset, hlinux]
    · simp [hlin, hlinux]
    · simp [hdar, hdarwin]
  · rw [hlinux, eq_comm, hdarwin]

/-- A Mac on a cable whose IPv6 comes over this route. -/
def macFacts (v6 : DefaultRoute) : Facts where
  links := [{ name := "en0" }, { name := "en5", prefixes := [.ofAddr (.v4 0xC0A8010A#32) 24] }]
  routes := [{ family := 4, gateway := .v4 0xC0A80101#32, dev := "en5" }, v6]
  wireless := [{ name := "en0", phy := "radio-en0", type := "managed", linkKnown := true }]
  phys :=
    [ { name := "radio-en0", modes := ["managed", "AP"]
        frequencies := [{ mhz := 2412, channel := 1 }] } ]

/-- The options of a platform. -/
def platformOptions (pl : Platform) : Options := { defaultOptions with platform := pl }

/-- A server reached over IPv6 alone. -/
def v6Server : Addr := .v6 0x20010db8000000000000000000000010#128 ""

/-- The plan for that server. -/
def v6Plan (pl : Platform) (v6 : DefaultRoute) : Plan :=
  match planNetwork (macFacts v6) [v6Server] (platformOptions pl) with
  | .ok p => p
  | .error _ => {}

/-- IPv6 from the router on the cable. -/
def routedV6 : DefaultRoute :=
  { family := 6, gateway := .v6 0xfe800000000000000000000000000001#128 "en5", dev := "en5" }

/-- IPv6 over a point-to-point link, which has no gateway. -/
def onLinkV6 : DefaultRoute := { family := 6, dev := "ppp0", onLink := true }

theorem next_hop_routed :
    (v6Plan .darwin routedV6).pinnedServers = [v6Server] ∧
      ((v6Plan .darwin routedV6).pinStep v6Server).run.nextHop = some routedV6.hop := by
  have hpinned : (v6Plan .darwin routedV6).pinnedServers = [v6Server] := by decide
  have hplan : planNetwork (macFacts routedV6) [v6Server] (platformOptions .darwin) =
      .ok (v6Plan .darwin routedV6) := rfl
  obtain ⟨route, v6, -, hv6, -, -, hiff, -⟩ := next_hop_iff (.network hplan)
    (.inr (by decide)) (by rw [hpinned]; exact List.mem_singleton_self _) rfl
    (fun _ => none)
  obtain rfl : routedV6 = v6 := Option.some.inj
    ((rfl : (macFacts routedV6).defaultV6 = some routedV6).symm.trans hv6)
  exact ⟨hpinned, hiff.mpr fun _ => .inl rfl⟩

/-- The Mac sends the server's packets out of the cable, where it has no IPv6;
Linux sends them out of the link the default route is on. -/
theorem next_hop_onLink :
    planNetwork (macFacts onLinkV6) [v6Server] (platformOptions .darwin) =
        .ok (v6Plan .darwin onLinkV6) ∧
      (v6Plan .darwin onLinkV6).pinnedServers = [v6Server] ∧
      (macFacts onLinkV6).defaultV6 = some onLinkV6 ∧ onLinkV6.hop = .out "ppp0" ∧
      ((v6Plan .darwin onLinkV6).pinStep v6Server).run.nextHop = some (.out "en5") ∧
      ((v6Plan .linux onLinkV6).pinStep v6Server).run.nextHop = some (.out "ppp0") :=
  ⟨rfl, by decide, by decide, by decide, by decide,
    by decide⟩

end Caspian.Netcfg
