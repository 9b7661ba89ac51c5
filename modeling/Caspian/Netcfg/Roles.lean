import Caspian.Netcfg.Choice

/-!
# Three devices, three roles

The hotspot must not be the uplink, must not be an interface somebody else is
using, and the tunnel must be neither.  Each of the three is answered here from
the facts a plan was made from: where the planner looks, the answer is yes;
where it does not look (the default route of a second reading of the machine,
the owner of an interface taken over at plan time, the name of the tunnel
device), what the facts have to say for it to be yes.
-/

namespace Caspian.Netcfg

open Verified Netip

/-! ## The hotspot and the uplink -/

/-- Every interface the machine named. -/
def Facts.names (f : Facts) : List String :=
  f.links.map (·.name) ++ f.wireless.map (·.name) ++ f.routes.map (·.dev)

theorem Facts.dev_mem_names {f : Facts} {r : DefaultRoute} (h : r ∈ f.routes) :
    r.dev ∈ f.names :=
  List.mem_append_right _ (List.mem_map_of_mem h)

/-- On a radio of this machine, the access point is not seated on the uplink. -/
theorem ApCandidate.seat_ne_uplink {f : Facts} {uplink : String} {o : Options}
    {c : ApCandidate} (hpl : o.platform ≠ .windows) (hu : uplink ≠ "")
    (hname : accessPointName o ≠ uplink) (hc : c ∈ apCandidates f uplink) :
    (c.seat uplink o).hotspot ≠ uplink := by
  unfold ApCandidate.seat
  split
  · rename_i htake
    simp only [ApCandidate.takesOver, Bool.and_eq_true, decide_eq_true_eq] at htake
    exact htake.2
  · split
    · exact hname
    · rename_i hstation
      split
      · exact iface_ne_uplink hu hc (by simpa using hstation)
      · exact hname

/-- The interface to fall back to is never the uplink. -/
theorem ApCandidate.seat_fallback_ne {uplink : String} {o : Options} {c : ApCandidate}
    (hf : (c.seat uplink o).fallback ≠ "") : (c.seat uplink o).fallback ≠ uplink := by
  revert hf
  unfold ApCandidate.seat
  split
  · exact fun hf => absurd rfl hf
  · split
    · split
      · exact fun hf => absurd rfl hf
      · simp only
        split
        · rename_i hne
          exact fun _ => hne
        · exact fun hf => absurd rfl hf
    · split <;> exact fun hf => absurd rfl hf

/-- **The hotspot is never the uplink** of the plan it is in; the fallback made
from a second reading of the machine is clear of that reading's default route
exactly when the route is not on the interface kept to fall back to. -/
theorem hotspot_apart_iff {f : Facts} {servers : List Addr} {o : Options} {p : Plan}
    (hpl : (withDefaults o).platform ≠ .windows)
    (hname : accessPointName (withDefaults o) ∉ f.names)
    (h : planNetwork f servers o = .ok p) :
    p.hotspot ≠ p.uplink ∧ ∀ (fresh : Facts) (q : Plan), hotspotTakeover p fresh = .ok q →
      ((q.hotspot ≠ p.uplink ∧
          ∀ r, fresh.primaryDefault = some r → q.hotspot ≠ r.dev) ↔
        ∀ r, fresh.primaryDefault = some r → r.dev ≠ p.hotspotFallback) := by
  obtain ⟨route, c, hroute, hc, hseat, huplink, -⟩ := planNetwork_roles h
  obtain ⟨hmem, hdev⟩ := chooseUplink_ok hroute
  have hap : accessPointName (withDefaults o) ≠ route.dev := by
    intro heq
    rw [heq] at hname
    exact hname (Facts.dev_mem_names hmem)
  have hhotspot : p.hotspot = (c.seat route.dev (withDefaults o)).hotspot :=
    congrArg Seat.hotspot hseat
  have hfallback : p.hotspotFallback = (c.seat route.dev (withDefaults o)).fallback :=
    congrArg Seat.fallback hseat
  constructor
  · rw [hhotspot, huplink]
    exact ApCandidate.seat_ne_uplink hpl hdev hap (pickRadio_mem hc)
  · intro fresh q hq
    obtain ⟨hf, w, -, -, rfl⟩ := hotspotTakeover_from hq
    have hqh : (takeoverPlan p fresh w).hotspot = p.hotspotFallback := rfl
    have hne : p.hotspotFallback ≠ p.uplink := by
      rw [hfallback] at hf ⊢
      rw [huplink]
      exact ApCandidate.seat_fallback_ne hf
    rw [hqh]
    constructor
    · rintro ⟨_, hfresh⟩ r hr
      exact (hfresh r hr).symm
    · intro hfresh
      exact ⟨hne, fun r hr => (hfresh r hr).symm⟩

/-- The default route over the cable. -/
def cable : DefaultRoute :=
  { family := 4, gateway := .v4 0xC0A80101#32, dev := "eth0", metric := 100 }

/-- A cable to the network at home, and a radio joined to the same network that
says it can be an access point beside it. -/
def cabledFacts : Facts where
  links :=
    [ { name := "eth0", prefixes := [.ofAddr (.v4 0xC0A8010A#32) 24] },
      { name := "wlan0", prefixes := [.ofAddr (.v4 0xC0A80132#32) 24] } ]
  routes :=
    [ cable,
      { family := 4, gateway := .v4 0xC0A80101#32, dev := "wlan0", metric := 600 } ]
  wireless :=
    [ { name := "wlan0", phy := "phy0", type := "managed", ssid := "home", channel := 6
        freqMHz := 2437, manager := .networkManager, associated := true
        linkKnown := true } ]
  phys :=
    [ { name := "phy0", modes := ["managed", "AP"]
        combinations :=
          [{ limits := [⟨1, ["managed"]⟩, ⟨1, ["AP"]⟩], total := 2, channels := 1 }]
        frequencies := [{ mhz := 2437, channel := 6 }] } ]
  networkManagerPresent := true

/-- The same machine once the cable is out. -/
def unpluggedFacts : Facts :=
  { cabledFacts with
    routes := [{ family := 4, gateway := .v4 0xC0A80101#32, dev := "wlan0", metric := 600 }] }

/-- The plan a machine gets with the default options and one server. -/
def planFor (f : Facts) : Plan :=
  match planNetwork f [.v4 0xCB007107#32] {} with
  | .ok p => p
  | .error _ => {}

/-- The fallback made from a plan on a second reading, or the plan itself. -/
def fallbackFor (f fresh : Facts) : Plan :=
  match hotspotTakeover (planFor f) fresh with
  | .ok q => q
  | .error _ => planFor f

/-- With the cable still in, the fallback leaves both default routes alone. -/
theorem hotspot_apart_cabled :
    (planFor cabledFacts).hotspot ≠ (planFor cabledFacts).uplink ∧
      (fallbackFor cabledFacts cabledFacts).hotspot = "wlan0" ∧
      ∀ r, cabledFacts.primaryDefault = some r →
        (fallbackFor cabledFacts cabledFacts).hotspot ≠ r.dev := by
  have hall := hotspot_apart_iff (by decide) (by decide)
    (rfl : planNetwork cabledFacts [.v4 0xCB007107#32] {} = .ok (planFor cabledFacts))
  refine ⟨hall.1, by decide, ?_⟩
  exact ((hall.2 cabledFacts (fallbackFor cabledFacts cabledFacts) rfl).mpr (by decide)).2

/-- With the cable out between the two readings, the fallback is the interface
that carries the only default route left. -/
theorem hotspot_on_fresh_uplink :
    ((withDefaults {}).platform ≠ .windows ∧
        accessPointName (withDefaults {}) ∉ cabledFacts.names ∧
        planNetwork cabledFacts [.v4 0xCB007107#32] {} = .ok (planFor cabledFacts)) ∧
      hotspotTakeover (planFor cabledFacts) unpluggedFacts =
        .ok (fallbackFor cabledFacts unpluggedFacts) ∧
      unpluggedFacts.primaryDefault.map (·.dev) =
        some (fallbackFor cabledFacts unpluggedFacts).hotspot :=
  ⟨⟨by decide, by decide, rfl⟩, rfl, by decide⟩

/-! ## The hotspot and its owner -/

/-- Somebody is using the interface: it is joined to a network or broadcasting
one, and its link is not down. -/
def Facts.occupied (f : Facts) (name : String) : Bool :=
  (f.wirelessByName name).any fun w =>
    w.inUse && !(f.linkByName name).any fun l => Text.equalFold l.state "DOWN"

/-- The interface can be taken: NetworkManager will hand it back, or nothing
manages it and nobody is using it. -/
def Facts.Releasable (f : Facts) (name : String) : Prop :=
  ∃ w, f.wirelessByName name = some w ∧
    (w.manager = .networkManager ∨ w.manager = .nothing ∧ f.occupied name = false)

instance (f : Facts) (name : String) : Decidable (f.Releasable name) :=
  match h : f.wirelessByName name with
  | none => .isFalse fun ⟨_, hw, _⟩ => by rw [h] at hw; cases hw
  | some w =>
    decidable_of_iff
      (w.manager = .networkManager ∨ w.manager = .nothing ∧ f.occupied name = false)
      ⟨fun hw => ⟨w, h, hw⟩, fun ⟨_, hw', hown⟩ => by
        rw [h] at hw'
        rw [Option.some.inj hw']
        exact hown⟩

/-- A seat takes an interface only from an owner that is known to let go, and
says so whenever it takes one that is in use. -/
def Seat.Owned (s : Seat) (f : Facts) : Prop :=
  (s.takenOver = true → f.Releasable s.hotspot) ∧
    (f.occupied s.hotspot = true → s.takenOver = true)

/-- A radio on which the access point takes nothing from an unknown owner: a
station that has to go can be released, and the interface used or created
otherwise is not one that is in use. -/
def ApCandidate.Free (c : ApCandidate) (f : Facts) (uplink : String) (o : Options) : Prop :=
  if c.takesOver uplink then f.Releasable c.station.name
  else f.occupied (c.seat uplink o).hotspot = false

instance (c : ApCandidate) (f : Facts) (uplink : String) (o : Options) :
    Decidable (c.Free f uplink o) :=
  inferInstanceAs (Decidable (if c.takesOver uplink then f.Releasable c.station.name
    else f.occupied (c.seat uplink o).hotspot = false))

theorem ApCandidate.seat_takenOver (c : ApCandidate) (uplink : String) (o : Options) :
    (c.seat uplink o).takenOver = c.takesOver uplink := by
  unfold ApCandidate.seat
  split
  · rename_i htake
    exact htake.symm
  · rename_i htake
    rw [Bool.eq_false_iff.mpr htake]
    split
    · split <;> rfl
    · split <;> rfl

theorem ApCandidate.seat_owned_iff (c : ApCandidate) (f : Facts) (uplink : String)
    (o : Options) : (c.seat uplink o).Owned f ↔ c.Free f uplink o := by
  unfold Seat.Owned ApCandidate.Free
  rw [c.seat_takenOver]
  split
  · rename_i htake
    have hseat : (c.seat uplink o).hotspot = c.station.name := by
      rw [ApCandidate.seat, if_pos htake]
    simp [htake, hseat]
  · rename_i htake
    simp [htake]

/-- Who has to let go of an interface decides a takeover, and so nothing is
taken from an unknown owner. -/
theorem releasable_of_takeoverRefusal {f : Facts} {name : String} {w : WirelessIface}
    (hw : f.wirelessByName name = some w) (h : takeoverRefusal f w = none) :
    f.Releasable name := by
  have hwname : w.name = name := by simpa using List.find?_some hw
  refine ⟨w, hw, ?_⟩
  unfold takeoverRefusal at h
  simp only at h
  split at h
  · rename_i hm
    exact Or.inl hm
  · rename_i hm
    refine Or.inr ⟨hm, ?_⟩
    split at h
    · cases h
    · rename_i huse
      rw [hwname] at huse
      rw [Facts.occupied, hw]
      simpa using huse
  · cases h

/-- **No plan takes an interface from an unknown owner** exactly when the radio
picked is one on which that cannot happen; the fallback never does. -/
theorem planned_owner_iff {f : Facts} {servers : List Addr} {o : Options} {p : Plan}
    (h : planNetwork f servers o = .ok p) :
    (p.seat.Owned f ∧
        ∀ (fresh : Facts) (q : Plan), hotspotTakeover p fresh = .ok q → q.seat.Owned fresh) ↔
      ∀ route c, chooseUplink f (withDefaults o) = .ok route →
        pickRadio f route.dev (withDefaults o) = some c →
        c.Free f route.dev (withDefaults o) := by
  obtain ⟨route, c, hroute, hc, hseat, -⟩ := planNetwork_roles h
  have htakeover : ∀ (fresh : Facts) (q : Plan),
      hotspotTakeover p fresh = .ok q → q.seat.Owned fresh := by
    intro fresh q hq
    obtain ⟨-, w, hw, hrefusal, rfl⟩ := hotspotTakeover_from hq
    exact ⟨fun _ => releasable_of_takeoverRefusal hw hrefusal, fun _ => rfl⟩
  rw [hseat, ApCandidate.seat_owned_iff]
  constructor
  · rintro ⟨hfree, -⟩ route' c' hroute' hc'
    rw [hroute] at hroute'
    rw [← Except.ok.inj hroute', hc] at hc'
    rw [← Except.ok.inj hroute', ← Option.some.inj hc']
    exact hfree
  · intro hall
    exact ⟨hall route c hroute hc, htakeover⟩

/-- A cable, and a radio that cannot be a station and an access point at once,
joined to a network. -/
def joinedFacts (manager : InterfaceManager) : Facts :=
  { cabledFacts with
    wireless :=
      [ { name := "wlan0", phy := "phy0", type := "managed", ssid := "home", channel := 6
          freqMHz := 2437, manager := manager, associated := true, linkKnown := true } ]
    phys :=
      [ { name := "phy0", modes := ["managed", "AP"]
          frequencies := [{ mhz := 2437, channel := 6 }] } ] }

/-- The plan takes over an interface NetworkManager will hand back. -/
theorem planned_owner_networkManager :
    (planFor (joinedFacts .networkManager)).hotspotTakenOver = true ∧
      (planFor (joinedFacts .networkManager)).seat.Owned (joinedFacts .networkManager) := by
  have hiff := planned_owner_iff
    (rfl : planNetwork (joinedFacts .networkManager) [.v4 0xCB007107#32] {} =
      .ok (planFor (joinedFacts .networkManager)))
  refine ⟨by decide, (hiff.mpr ?_).1⟩
  intro route c hroute hc
  rw [← Except.ok.inj ((rfl : chooseUplink (joinedFacts .networkManager) (withDefaults {}) =
    .ok cable).symm.trans hroute)] at hc ⊢
  exact (by decide : ∀ c ∈ pickRadio (joinedFacts .networkManager) cable.dev
    (withDefaults {}), c.Free (joinedFacts .networkManager) cable.dev (withDefaults {})) c hc

/-- Nobody says who owns the interface, and the plan takes it over all the
same. -/
theorem planned_owner_unknown :
    planNetwork (joinedFacts .unknown) [.v4 0xCB007107#32] {} =
        .ok (planFor (joinedFacts .unknown)) ∧
      (planFor (joinedFacts .unknown)).hotspotTakenOver = true ∧
      (planFor (joinedFacts .unknown)).hotspot = "wlan0" ∧
      ((joinedFacts .unknown).wirelessByName "wlan0").map (·.manager) = some .unknown :=
  ⟨rfl, by decide, by decide, by decide⟩

/-! ## The tunnel -/

/-- **The tunnel is never another device** exactly when no default route the
planner reads is on a device of its name and the access point is not seated on
one. -/
theorem tunnel_apart_iff {f : Facts} {servers : List Addr} {o : Options} {p : Plan}
    (h : planNetwork f servers o = .ok p) :
    (p.tun ≠ p.uplink ∧ p.tun ≠ p.uplinkV6Dev ∧ p.tun ≠ p.hotspot) ↔
      (∀ route, chooseUplink f (withDefaults o) = .ok route →
          route.dev ≠ (withDefaults o).tunName ∧
            ∀ c, pickRadio f route.dev (withDefaults o) = some c →
              (c.seat route.dev (withDefaults o)).hotspot ≠ (withDefaults o).tunName) ∧
        ∀ r, f.defaultV6 = some r → r.dev ≠ (withDefaults o).tunName := by
  obtain ⟨route, c, hroute, hc, hseat, huplink, hv6, -⟩ := planNetwork_roles h
  have htun : p.tun = (withDefaults o).tunName := congrArg Prod.fst (planNetwork_basis h).1
  have hhotspot : p.hotspot = (c.seat route.dev (withDefaults o)).hotspot :=
    congrArg Seat.hotspot hseat
  have hne : (withDefaults o).tunName ≠ "" := htun ▸ (Planned.network h).tun_ne
  rw [htun, huplink, hhotspot, hv6]
  constructor
  · rintro ⟨hu, h6, hh⟩
    refine ⟨?_, ?_⟩
    · intro route' hroute'
      rw [hroute] at hroute'
      rw [← Except.ok.inj hroute']
      refine ⟨hu.symm, ?_⟩
      intro c' hc'
      rw [hc] at hc'
      rw [← Option.some.inj hc']
      exact hh.symm
    · intro r hr
      rw [hr] at h6
      exact h6.symm
  · rintro ⟨hroutes, h6⟩
    obtain ⟨hu, hh⟩ := hroutes route hroute
    refine ⟨hu.symm, ?_, (hh c hc).symm⟩
    cases hdef : f.defaultV6 with
    | none => exact hne
    | some r => exact (h6 r hdef).symm

/-- With nothing left behind, the tunnel is none of the other devices. -/
theorem tunnel_apart_cabled :
    (planFor cabledFacts).tun ≠ (planFor cabledFacts).uplink ∧
      (planFor cabledFacts).tun ≠ (planFor cabledFacts).uplinkV6Dev ∧
      (planFor cabledFacts).tun ≠ (planFor cabledFacts).hotspot := by
  refine (tunnel_apart_iff (rfl : planNetwork cabledFacts [.v4 0xCB007107#32] {} =
    .ok (planFor cabledFacts))).mpr ⟨?_, by decide⟩
  intro route hroute
  rw [← Except.ok.inj ((rfl : chooseUplink cabledFacts (withDefaults {}) = .ok cable).symm.trans
    hroute)]
  exact ⟨by decide, by decide⟩

/-- The machine with the cable, where an engine that was killed left its device
and the default route over it. -/
def leftoverFacts : Facts :=
  { cabledFacts with
    links := cabledFacts.links ++ [{ name := "xray0", state := "UNKNOWN" }]
    routes := { family := 4, dev := "xray0", onLink := true } :: cabledFacts.routes }

/-- The route left behind has the lowest metric: the tunnel is its own uplink,
and the route to the server is pinned into it. -/
theorem tunnel_own_uplink :
    planNetwork leftoverFacts [.v4 0xCB007107#32] {} = .ok (planFor leftoverFacts) ∧
      (planFor leftoverFacts).tun = (planFor leftoverFacts).uplink ∧
      (planFor leftoverFacts).serverRouteSteps.map (fun s => commandLine s.run) =
        ["ip route add 203.0.113.7/32 dev xray0 proto static metric 5"] :=
  ⟨rfl, by decide, by decide⟩

end Caspian.Netcfg
