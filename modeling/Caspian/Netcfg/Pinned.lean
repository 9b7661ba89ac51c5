import Caspian.Netcfg.Roles
import Caspian.Netip.RoundTrip

/-!
# The servers a plan pins

The engine is told to dial `PinnedServers`, and the machine is given a host
route to each of them.  The two lists are compared here by reading the
destination back out of the commands: `ip route` and the IP Helper name it as
a prefix of full length, `route` as an address.  The prefix form has no zone,
so on Linux the lists agree exactly when no pinned address carries one.
-/

namespace Caspian.Netcfg

open Verified Netip

/-! ## Reading a route command -/

/-- The host a prefix of full length names. -/
def hostOf (dst : String) : Option Addr :=
  match parsePrefix dst with
  | some p => if p.bits = some p.addr.bitLen then some p.addr else none
  | none => none

/-- The destination of `ip route <verb> …`, with or without `-6`. -/
def ipRouteHost (verb : String) : List String → Option Addr
  | "-6" :: "route" :: v :: dst :: _ => if v = verb then hostOf dst else none
  | "route" :: v :: dst :: _ => if v = verb then hostOf dst else none
  | _ => none

/-- The destination of `route -n <verb> -host …`, with or without `-inet6`. -/
def routeHost (verb : String) : List String → Option Addr
  | "-n" :: v :: "-inet6" :: "-host" :: dst :: _ => if v = verb then parseAddr dst else none
  | "-n" :: v :: "-host" :: dst :: _ => if v = verb then parseAddr dst else none
  | _ => none

/-- The host a command adds a route to. -/
def addsRouteTo (c : Command) : Option Addr :=
  if c.path = binIP ∨ c.path = binIPHelper then ipRouteHost "add" c.args
  else if c.path = binRoute then routeHost "add" c.args
  else none

/-- The host a command deletes a route to. -/
def deletesRouteTo (c : Command) : Option Addr :=
  if c.path = binIP then ipRouteHost "del" c.args
  else if c.path = binIPHelper then ipRouteHost "delete" c.args
  else if c.path = binRoute then routeHost "delete" c.args
  else none

/-- A prefix of full length names its address, without the zone. -/
theorem hostOf_text {a : Addr} (h : a.isValid = true) :
    hostOf (Prefix.ofAddr a a.bitLen).text = some a.withoutZone := by
  have hof : Prefix.ofAddr a a.bitLen =
      ⟨a.withoutZone, some a.bitLen, by
        intro m hm
        obtain rfl : a.bitLen = m := by simpa using hm
        exact ⟨by rw [Addr.isValid_withoutZone]; exact h, Addr.zone_withoutZone a,
          by rw [Addr.bitLen_withoutZone]⟩⟩ := by
    rw [Prefix.ofAddr, dif_pos ⟨h, by omega, le_refl _⟩]
    simp
  rw [hostOf, hof, parsePrefix_text rfl]
  simp

/-! ## The generated commands -/

namespace Plan

variable (p : Plan)

variable {s : Addr}

theorem bitLen_of_valid (h : s.isValid = true) : (if s.is6 then 128 else 32 : Int) = s.bitLen := by
  cases s with
  | invalid => cases h
  | v4 b | v6 b z => rfl

theorem linux_route_hosts (h : s.isValid = true) :
    addsRouteTo (p.serverRouteStep s).run = some s.withoutZone ∧
      deletesRouteTo (p.serverRouteStep s).undo = some s.withoutZone := by
  have hhost := hostOf_text h
  rw [← bitLen_of_valid h] at hhost
  cases hs : s.is6 <;>
    simp [addsRouteTo, deletesRouteTo, serverRouteStep, ipCmd, hostRouteArgs, ipRouteHost, hs] <;>
    simpa [hs] using hhost

theorem darwin_route_hosts (h : s.isValid = true) :
    addsRouteTo (p.darwinServerRouteStep s).run = some s ∧
      deletesRouteTo (p.darwinServerRouteStep s).undo = some s := by
  have hhost := parseAddr_text h
  have hpath : binRoute ≠ binIP ∧ binRoute ≠ binIPHelper := by decide
  cases hs : s.is6 <;>
    simp [addsRouteTo, deletesRouteTo, darwinServerRouteStep, darwinHostRouteArgs, routeHost, hs,
      hpath.1, hpath.2, hhost]

theorem windows_route_hosts (h : s.isValid = true) (h4 : s.is6 = false) :
    addsRouteTo (p.windowsServerRouteStep s).run = some s ∧
      deletesRouteTo (p.windowsServerRouteStep s).undo = some s := by
  have hhost := hostOf_text h
  rw [← bitLen_of_valid h] at hhost
  have hzone : s.withoutZone = s := by
    cases s with
    | v6 b z => cases h4
    | invalid | v4 b => rfl
  have hpath : binIPHelper ≠ binIP := by decide
  simp [addsRouteTo, deletesRouteTo, windowsServerRouteStep, windowsHostRouteTail, ipHelper,
    ipRouteHost, hpath]
  simpa [h4, hzone] using hhost

theorem addsRouteTo_sysctl (knob value : String) (current : Readings) (why : String) :
    addsRouteTo (sysctlStep knob value current why).run = none := by
  unfold sysctlStep
  split <;> rfl

/-- Before the pinned routes, no Linux step adds a route. -/
theorem linux_quiet (current : Readings) :
    ∀ st ∈ [p.firewallStep] ++ p.sysctlSteps current ++ p.virtualIfaceSteps ++
      p.hotspotReleaseSteps ++ p.hotspotAddrSteps, addsRouteTo st.run = none := by
  have hsysctl := p.forall_sysctlSteps (Q := fun st => addsRouteTo st.run = none)
    (addsRouteTo_sysctl · · current ·)
  simp only [List.forall_mem_append, virtualIfaceSteps, hotspotReleaseSteps, retypeSteps,
    hotspotAddrSteps, List.forall_mem_cons, List.forall_mem_map, forall_mem_ite,
    iff_true_intro hsysctl]
  simp +decide [addsRouteTo, ipRouteHost, firewallStep, releaseStep, stripStep, ipCmd]

/-- Before the pinned routes, no macOS step adds a route. -/
theorem darwin_quiet (current : Readings) :
    ∀ st ∈ p.darwinPfEnableSteps current ++ [p.darwinFirewallStep] ++
      p.darwinSysctlSteps current, addsRouteTo st.run = none := by
  simp only [List.forall_mem_append, darwinPfEnableSteps, darwinSysctlSteps, List.forall_mem_cons,
    forall_mem_ite, addsRouteTo_sysctl]
  simp +decide [addsRouteTo, darwinFirewallStep, pfLoadStep]

/-- The step that pins a server on the plan's platform. -/
def pinStep (s : Addr) : Step :=
  match p.platform with
  | .darwin => p.darwinServerRouteStep s
  | .windows => p.windowsServerRouteStep s
  | _ => p.serverRouteStep s

/-- The steps before the engine: those that add no route, and then one for each
pinned server. -/
theorem preEngineSteps_eq (hpl : ∀ name, p.platform ≠ .other name) (current : Readings) :
    ∃ quiet, (∀ st ∈ quiet, addsRouteTo st.run = none) ∧
      p.preEngineSteps current = quiet ++ p.pinnedServers.map p.pinStep := by
  have hlinux : p.platform ≠ .windows →
      (p.serverAddr.filter fun s => p.canPin s) = p.pinnedServers := by
    intro hne
    unfold pinnedServers
    simp [hne]
  unfold preEngineSteps pinStep
  cases hplat : p.platform with
  | other name => exact absurd hplat (hpl name)
  | unset | linux =>
    refine ⟨_, p.linux_quiet current, ?_⟩
    simp only [linuxPreEngineSteps, serverRouteSteps]
    rw [hlinux (by simp [hplat])]
  | darwin =>
    refine ⟨_, p.darwin_quiet current, ?_⟩
    simp only [darwinPreEngineSteps, darwinServerRouteSteps]
    rw [hlinux (by simp [hplat])]
  | windows =>
    refine ⟨[p.windowsCutStep], ?_, ?_⟩
    · intro st hst
      rw [List.mem_singleton.mp hst]
      rfl
    · simp only [windowsPreEngineSteps, windowsServerRouteSteps]
      unfold pinnedServers
      simp [hplat]

/-- The host the route to a pinned server names: without its zone on Linux. -/
def pinnedHost (s : Addr) : Addr :=
  match p.platform with
  | .darwin => s
  | .windows => s
  | _ => s.withoutZone

/-- A pinned server's step adds the route to one host, and its inverse deletes
the route to the same host. -/
theorem pinStep_hosts (hs : s ∈ p.pinnedServers) (hvalid : s.isValid = true) :
    addsRouteTo (p.pinStep s).run = some (p.pinnedHost s) ∧
      deletesRouteTo (p.pinStep s).undo = some (p.pinnedHost s) := by
  unfold pinStep pinnedHost
  cases hplat : p.platform with
  | darwin => exact p.darwin_route_hosts hvalid
  | windows =>
    have h4 : s.is6 = false := by
      simp only [pinnedServers, hplat, List.mem_filter, Bool.and_eq_true] at hs
      simpa using hs.2.2
    exact p.windows_route_hosts hvalid h4
  | _ => exact p.linux_route_hosts hvalid

theorem withoutZone_eq_iff (s : Addr) : s.withoutZone = s ↔ s.zone = "" := by
  constructor
  · intro h
    rw [← h]
    exact Addr.zone_withoutZone s
  · exact Addr.withoutZone_eq

/-- The hosts named are the servers pinned unless a zone was dropped. -/
theorem map_pinnedHost_iff (hpl : ∀ name, p.platform ≠ .other name) :
    p.pinnedServers.map p.pinnedHost = p.pinnedServers ↔
      (p.OnLinux → ∀ s ∈ p.pinnedServers, s.zone = "") := by
  have hself : p.pinnedServers.map p.pinnedHost = p.pinnedServers ↔
      ∀ s ∈ p.pinnedServers, p.pinnedHost s = s := by
    have hmap : p.pinnedServers.map p.pinnedHost = p.pinnedServers.map id ↔
        ∀ s ∈ p.pinnedServers, p.pinnedHost s = id s := List.map_inj_left
    rwa [List.map_id] at hmap
  rw [hself]
  unfold pinnedHost OnLinux
  cases hplat : p.platform with
  | unset | linux => simp [withoutZone_eq_iff]
  | darwin | windows => simp
  | other name => exact absurd hplat (hpl name)

end Plan

/-- Every server a plan keeps is a valid address. -/
theorem Planned.servers_valid {p : Plan} (h : Planned p) :
    ∀ s ∈ p.serverAddr, s.isValid = true := by
  induction h with
  | network h =>
    obtain ⟨_, _, _, q, _, _, _, _, _, _, _, _, _, rfl, _⟩ := planNetwork_ok h
    intro s hs
    obtain ⟨t, ht, rfl⟩ := List.mem_map.mp hs
    rw [Addr.isValid_unmap]
    exact (List.mem_filter.mp ht).2
  | takeover _ h ih =>
    obtain ⟨_, w, _, _, rfl⟩ := hotspotTakeover_from h
    exact ih

/-- **`PinnedServers` is what the routes pin**: read in order out of the
commands before the engine, the hosts routes are added to are the pinned
servers exactly when, on Linux, none of them carries a zone; and every such
step's inverse deletes the route to the same host. -/
theorem pinnedServers_iff {p : Plan} (hp : Planned p)
    (hpl : ∀ name, p.platform ≠ .other name) (current : Readings) :
    (∀ st ∈ p.preEngineSteps current, ∀ a, addsRouteTo st.run = some a →
        deletesRouteTo st.undo = some a) ∧
      ((p.preEngineSteps current).filterMap (fun st => addsRouteTo st.run) = p.pinnedServers ↔
        (p.OnLinux → ∀ s ∈ p.pinnedServers, s.zone = "")) := by
  obtain ⟨quiet, hquiet, hsteps⟩ := p.preEngineSteps_eq hpl current
  have hvalid : ∀ s ∈ p.pinnedServers, s.isValid = true :=
    fun s hs => hp.servers_valid s (List.mem_filter.mp hs).1
  have hread : (p.preEngineSteps current).filterMap (fun st => addsRouteTo st.run) =
      p.pinnedServers.map p.pinnedHost := by
    rw [hsteps, List.filterMap_append, List.filterMap_eq_nil_iff.mpr hquiet, List.nil_append,
      List.filterMap_map]
    rw [← List.filterMap_eq_map]
    exact List.filterMap_congr fun s hs => (p.pinStep_hosts hs (hvalid s hs)).1
  constructor
  · intro st hst a ha
    rw [hsteps, List.mem_append] at hst
    rcases hst with hst | hst
    · rw [hquiet st hst] at ha
      cases ha
    · obtain ⟨s, hs, rfl⟩ := List.mem_map.mp hst
      obtain ⟨hadd, hdel⟩ := p.pinStep_hosts hs (hvalid s hs)
      rw [hadd] at ha
      rw [hdel, ha]
  · rw [hread, p.map_pinnedHost_iff hpl]

/-- A machine with default routes of both families over one cable. -/
def dualStackFacts : Facts :=
  { cabledFacts with
    routes := cabledFacts.routes ++
      [{ family := 6, gateway := .v6 0xfe800000000000000000000000000001#128 "", dev := "eth0"
         metric := 100 }] }

/-- The plan for that machine and some servers. -/
def dualStackPlan (servers : List Addr) : Plan :=
  match planNetwork dualStackFacts servers {} with
  | .ok p => p
  | .error _ => {}

/-- Servers of both families, one of them twice. -/
def bothFamilies : List Addr :=
  [.v4 0xCB007107#32, .v6 0x20010db8000000000000000000000010#128 "", .v4 0xCB007107#32]

/-- A link-local server with its zone. -/
def zonedServer : Addr := .v6 0xfe800000000000000000000000000009#128 "eth0"

/-- Servers without a zone are read back as they are. -/
theorem pinnedServers_bothFamilies :
    (dualStackPlan bothFamilies).pinnedServers = bothFamilies ∧
      ((dualStackPlan bothFamilies).preEngineSteps fun _ => none).filterMap
          (fun st => addsRouteTo st.run) = (dualStackPlan bothFamilies).pinnedServers := by
  have hplat : (dualStackPlan bothFamilies).platform = .unset := by decide
  have hplanned : Planned (dualStackPlan bothFamilies) :=
    .network (rfl : planNetwork dualStackFacts bothFamilies {} = .ok (dualStackPlan bothFamilies))
  have hiff := pinnedServers_iff hplanned (fun name h => by rw [hplat] at h; cases h) fun _ => none
  exact ⟨by decide, hiff.2.mpr fun _ => by decide⟩

/-- The route to a server with a zone is to the address without it. -/
theorem pinnedServers_zone :
    planNetwork dualStackFacts [zonedServer] {} = .ok (dualStackPlan [zonedServer]) ∧
      (dualStackPlan [zonedServer]).pinnedServers = [zonedServer] ∧
      ((dualStackPlan [zonedServer]).preEngineSteps fun _ => none).filterMap
          (fun st => addsRouteTo st.run) = [zonedServer.withoutZone] ∧
      zonedServer.withoutZone ≠ zonedServer :=
  ⟨rfl, by decide, by decide, by decide⟩

end Caspian.Netcfg
