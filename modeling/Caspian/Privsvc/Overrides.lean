import Caspian.Netcfg.Addresses
import Caspian.Netcfg.Ranking
import Caspian.Privsvc.HotspotPlan

/-!
# What an accepted override comes to

`validateStatic` and `validateAgainstFacts` look at an override on their own;
the planner and the access point read it again later, by rules of their own.
This file compares the two readings for the adapter, the internet interface and
the subnet of the hotspot.
-/

namespace Caspian.Privsvc

open Verified Netip Netcfg

/-! ## The adapter -/

/-- The first named interface of a radio, the one the planner knows it by. -/
def firstIface (f : Facts) (phy : Phy) : Option WirelessIface :=
  f.wireless.find? fun w => w.phy = phy.name && w.name ≠ ""

/-- The name is that of an access-point radio or of the first interface on it. -/
def Leads (f : Facts) (name : String) : Prop :=
  ∃ phy ∈ f.phys, phy.supportsAP = true ∧
    (phy.name = name ∨ (firstIface f phy).map (·.name) = some name)

/-- The radio is the one the name belongs to. -/
def BelongsTo (f : Facts) (name : String) (phy : Phy) : Prop :=
  phy.name = name ∨ ∃ w ∈ f.wireless, w.phy = phy.name ∧ w.name = name

/-- The refusal of an adapter that was chosen by hand. -/
def chosenByHand (name : String) : PlanError :=
  .wrap .noAPCapableInterface (": " ++ Text.quote name ++ " was chosen by hand")
    "The WiFi adapter chosen for the hotspot cannot create one. Choose another, or plug in a USB WiFi adapter."

section Adapter

variable {f : Facts} {uplink name : String} {phy : Phy} {o : Options}

/-- The scan over the interfaces keeps the first named one of the radio. -/
theorem foldl_see_iface (c : ApCandidate) (ws : List WirelessIface) :
    (ws.foldl (ApCandidate.see f uplink) c).iface.name =
      if c.iface.name ≠ "" then c.iface.name
      else ((ws.find? fun w => w.phy = c.phy.name && w.name ≠ "").map (·.name)).getD "" := by
  induction ws generalizing c with
  | nil =>
    by_cases hc : c.iface.name = "" <;> simp [hc]
  | cons w ws ih =>
    have hseen : (c.see f uplink w).iface.name =
        if w.phy = c.phy.name ∧ c.iface.name = "" then w.name else c.iface.name := by
      simp only [ApCandidate.see]
      grind
    rw [List.foldl_cons, ih, hseen, c.see_phy f uplink w]
    by_cases hc : c.iface.name = ""
    · by_cases hphy : w.phy = c.phy.name
      · by_cases hw : w.name = "" <;> simp [hc, hphy, hw]
      · simp [hc, hphy]
    · simp [hc]

theorem radio_iface (hname : name ≠ "") :
    (f.radio uplink phy).iface.name = name ↔ (firstIface f phy).map (·.name) = some name := by
  have hscan : (f.radio uplink phy).iface.name =
      ((firstIface f phy).map (·.name)).getD "" := foldl_see_iface { phy } f.wireless
  rw [hscan]
  cases (firstIface f phy).map (·.name) with
  | none => simp [hname.symm]
  | some n => simp

theorem radio_phy (f : Facts) (uplink : String) (phy : Phy) : (f.radio uplink phy).phy = phy :=
  List.foldlRecOn f.wireless (ApCandidate.see f uplink)
    (motive := fun c : ApCandidate => c.phy = phy) rfl
    fun c hc w _ => (c.see_phy f uplink w).trans hc

/-- The planner finds a radio by the name when the name leads to one. -/
theorem pickRadio_isSome (hname : o.hotspotOverride = name) (hne : name ≠ "") :
    (pickRadio f uplink o).isSome = true ↔ Leads f name := by
  rw [pickRadio, if_pos (hname ▸ hne), hname, List.find?_isSome]
  constructor
  · rintro ⟨c, hc, hmatch⟩
    obtain ⟨phy, hphy, hap, rfl⟩ := mem_apCandidates.mp hc
    rw [Bool.or_eq_true, decide_eq_true_eq, decide_eq_true_eq, radio_iface hne, radio_phy] at hmatch
    exact ⟨phy, hphy, hap, hmatch.symm⟩
  · rintro ⟨phy, hphy, hap, hmatch⟩
    refine ⟨f.radio uplink phy, mem_apCandidates.mpr ⟨phy, hphy, hap, rfl⟩, ?_⟩
    rw [Bool.or_eq_true, decide_eq_true_eq, decide_eq_true_eq, radio_iface hne, radio_phy]
    exact hmatch.symm

/-- The radio that was found is one the name belongs to. -/
theorem belongsTo_of_pickRadio {c : ApCandidate} (hname : o.hotspotOverride = name)
    (hne : name ≠ "") (h : pickRadio f uplink o = some c) :
    c.phy ∈ f.phys ∧ c.phy.supportsAP = true ∧ BelongsTo f name c.phy := by
  rw [pickRadio, if_pos (hname ▸ hne), hname] at h
  obtain ⟨phy, hphy, hap, rfl⟩ := mem_apCandidates.mp (List.mem_of_find?_eq_some h)
  have hmatch := List.find?_some h
  rw [Bool.or_eq_true, decide_eq_true_eq, decide_eq_true_eq, radio_iface hne, radio_phy] at hmatch
  rw [radio_phy]
  refine ⟨hphy, hap, hmatch.symm.imp_right fun hfirst => ?_⟩
  obtain ⟨w, hw, hwname⟩ := Option.map_eq_some_iff.mp hfirst
  have hon := List.find?_some hw
  rw [Bool.and_eq_true, decide_eq_true_eq] at hon
  exact ⟨w, List.mem_of_find?_eq_some hw, hon.1, hwname⟩

/-- The planner says that an adapter was chosen by hand when it finds none by
the name. -/
theorem chooseHotspot_byHand {p : Plan} (hname : o.hotspotOverride = name) (hne : name ≠ "")
    (hap : ∃ phy ∈ f.phys, phy.supportsAP = true) :
    (pickRadio f p.uplink o = none → chooseHotspot p f o = .error (chosenByHand name)) ∧
    ∀ c, pickRadio f p.uplink o = some c →
      ∃ mode, chooseHotspot p f o = acceptHotspot { p with mode := mode } c o := by
  obtain ⟨phy, hphy, hap⟩ := hap
  have hsome : ¬(apCandidates f p.uplink).isEmpty = true := by
    intro hnil
    have hin : f.radio p.uplink phy ∈ apCandidates f p.uplink :=
      mem_apCandidates.mpr ⟨phy, hphy, hap, rfl⟩
    rw [List.isEmpty_iff.mp hnil] at hin
    cases hin
  unfold chooseHotspot
  rw [pickRadio, if_pos (hname ▸ hne)]
  simp only [hsome, hname ▸ hne, ne_eq, not_false_eq_true, if_true]
  constructor
  · intro hnone
    rw [hnone, hname]
    rfl
  · intro c hc
    rw [hc]
    exact ⟨_, rfl⟩

end Adapter

/-- **An adapter the service accepts is refused by the planner exactly when it
is not the first interface of its radio.**  A plan that is made is on the radio
the name belongs to. -/
theorem adapter_taken_iff {c : Config} {req : StartRequest} {f : Facts} {port : UInt16}
    {o : Options} {servers : List Addr} (hfacts : c.validateAgainstFacts req f = .ok ())
    (hne : req.hotspot.interface ≠ "")
    (hreal : c.isVirtualAPName req.hotspot.interface = false)
    (ho : c.netOptionsFor req port = .ok o) :
    (planNetwork f servers o ≠ .error (chosenByHand req.hotspot.interface) ↔
      (ReachesRadio f (withDefaults o) → Leads f req.hotspot.interface)) ∧
    ∀ p, planNetwork f servers o = .ok p →
      ∃ phy ∈ f.phys, phy.supportsAP = true ∧ p.hotspotPhy = phy.name ∧
        BelongsTo f req.hotspot.interface phy := by
  have hname := (Config.netOptionsFor_asks ho).defaults.hotspot hne hreal
  have hap : ∃ phy ∈ f.phys, phy.supportsAP = true := by
    obtain ⟨_, -, h⟩ := Outcome.bind_ok hfacts
    simp only [Config.validateHotspotInterface, hne, hreal, Bool.false_eq_true, or_self,
      if_false] at h
    obtain ⟨-, h⟩ := Outcome.guard_ok h
    obtain ⟨hcap, -⟩ := Outcome.guard_ok h
    rw [Bool.not_eq_false, apCapable, List.any_eq_true] at hcap
    obtain ⟨phy, hphy, -⟩ := hcap
    exact ⟨phy, List.mem_filter.mp hphy⟩
  have hwants : (chosenByHand req.hotspot.interface).WantsRadio := rfl
  refine ⟨⟨fun hno hreach => ?_, fun hlead hby => ?_⟩, fun p hp => ?_⟩
  · obtain ⟨hvalid, ⟨socks, hsocks⟩, route, hroute⟩ := hreach
    by_contra hnot
    have hnone : ∀ uplink, pickRadio f uplink (withDefaults o) = none := fun uplink =>
      Option.not_isSome_iff_eq_none.mp (mt (pickRadio_isSome hname hne).mp hnot)
    refine hno ?_
    unfold planNetwork planWith
    rw [if_neg (by simp [hvalid]), hsocks]
    simp only [bind, Except.bind, hroute, (chooseHotspot_byHand hname hne hap).1 (hnone _)]
  · -- With a radio found, what is refused is the radio itself.
    have hrefused := planNetwork_refusal (C := fun e => e.sentinel = some .apConflictsWithUplink)
      (fun hreach p route _ _ => ?_) servers _ hby hwants
    · cases hrefused
    · have hfound : (pickRadio f p.uplink (withDefaults o)).isSome = true :=
        (pickRadio_isSome hname hne).mpr (hlead hreach)
      obtain ⟨c, hc⟩ := Option.isSome_iff_exists.mp hfound
      obtain ⟨mode, haccept⟩ := (chooseHotspot_byHand hname hne hap).2 c hc
      rw [haccept]
      exact (acceptHotspot_refusal _ c _).mono fun e he hw => (he hw).1
  · obtain ⟨route, cand, -, hcand, -, -, -, hphy, -⟩ := planNetwork_roles hp
    obtain ⟨hin, hsupports, hbelongs⟩ := belongsTo_of_pickRadio hname hne hcand
    exact ⟨cand.phy, hin, hsupports, hphy, hbelongs⟩

/-- A start that asks for an adapter by name. -/
def startOn (adapter : String) : StartRequest := { hotspot := { interface := adapter } }

/-- The options of that start, with the defaults of the service. -/
def optionsOn (adapter : String) : Options :=
  { ({} : Config).netOptions with hotspotOverride := adapter }

/-- The machine on the cable, its radio carrying a second interface. -/
def crowdedFacts : Facts :=
  { cabledFacts with
    wireless := cabledFacts.wireless ++ [{ name := "wlan1", phy := "phy0", type := "managed" }] }

/-- The first interface of the crowded radio is taken. -/
theorem adapter_wlan0_taken :
    planNetwork crowdedFacts [.v4 0xCB007107#32] (optionsOn "wlan0") ≠
      .error (chosenByHand "wlan0") := by
  have hfacts : ({} : Config).validateAgainstFacts (startOn "wlan0") crowdedFacts = .ok () := rfl
  have ho : ({} : Config).netOptionsFor (startOn "wlan0") 0 = .ok (optionsOn "wlan0") := rfl
  have hleads : Leads crowdedFacts "wlan0" := ⟨_, List.mem_singleton_self _, rfl, .inr rfl⟩
  exact (adapter_taken_iff hfacts (by decide) rfl ho).1.mpr fun _ => hleads

/-- The second one passes the check of the service and is refused. -/
theorem adapter_wlan1_refused :
    ({} : Config).validateAgainstFacts (startOn "wlan1") crowdedFacts = .ok () ∧
      ({} : Config).netOptionsFor (startOn "wlan1") 0 = .ok (optionsOn "wlan1") ∧
      planNetwork crowdedFacts [.v4 0xCB007107#32] (optionsOn "wlan1") =
        .error (chosenByHand "wlan1") :=
  ⟨rfl, rfl, rfl⟩

/-! ## The internet interface

The options are written into a plan and not read from it again, so planning
commutes with writing other options there.
-/

/-- The plan with other options recorded in it. -/
def recording (w : Options) (p : Plan) : Plan := { p with opts := w }

section Recording

variable (w : Options) (p : Plan) (c : ApCandidate) (o : Options)

variable {g : Plan → Plan}

/-- A computation repeated on a plan with other options in it branches the same
way. -/
theorem map_ite {q : Prop} [Decidable q] {x y x' y' : Except PlanError Plan} (hx : x.map g = x')
    (hy : y.map g = y') : (if q then x else y).map g = if q then x' else y' := by
  split
  · exact hx
  · exact hy

theorem map_bind {x y : Except PlanError Plan} {k : Plan → Except PlanError Plan} (hx : x.map g = y)
    (hk : ∀ a, (k a).map g = k (g a)) : (x >>= k).map g = y >>= k := by
  subst hx
  cases x with
  | error e => rfl
  | ok a => exact hk a

theorem map_after {α : Type} {x : Except PlanError α} {k k' : α → Except PlanError Plan}
    (hk : ∀ a, (k a).map g = k' a) : (x >>= k).map g = x >>= k' := by
  cases x with
  | error e => rfl
  | ok a => exact hk a

theorem chooseChannel_recording (phy : Phy) (band : RadioBand) :
    (chooseChannel p phy band).map (recording w) = chooseChannel (recording w p) phy band := by
  simp only [chooseChannel, recording]
  repeat' split
  all_goals rfl

theorem takeOver_recording :
    (takeOver p c o).map (recording w) = takeOver (recording w p) c o :=
  map_ite rfl (map_bind (chooseChannel_recording w _ _ _) fun _ => rfl)

theorem besideStation_recording :
    (besideStation p c o).map (recording w) = besideStation (recording w p) c o :=
  map_ite (map_ite rfl rfl) (map_after fun _ => rfl)

theorem shareChannel_recording (combo : Combination) :
    (shareChannel p c combo o).map (recording w) = shareChannel (recording w p) c combo o := by
  refine map_ite ?_ (chooseChannel_recording w _ _ _)
  simp only [recording, refuseBandAgainstPin]
  split <;> rfl

theorem seatHotspot_recording :
    (seatHotspot p c o).map (recording w) = seatHotspot (recording w p) c o := by
  refine map_ite (takeOver_recording w p c o) (map_ite ?_ (map_ite (map_ite ?_ rfl) ?_))
  · refine map_bind (besideStation_recording w p c o) fun q => ?_
    cases c.phy.apWithStation with
    | none => rfl
    | some combo => exact shareChannel_recording w q c o combo
  · exact chooseChannel_recording w _ _ _
  · exact map_after fun name => chooseChannel_recording w _ _ _

theorem acceptHotspot_recording :
    (acceptHotspot p c o).map (recording w) = acceptHotspot (recording w p) c o := by
  refine map_bind (seatHotspot_recording w _ c o) fun q => ?_
  exact congrArg Except.ok (apply_ite (recording w) _ _ _)

theorem searchHotspot_recording (cands : List ApCandidate) :
    (searchHotspot p cands o).map (recording w) = searchHotspot (recording w p) cands o := by
  have hup : (recording w p).uplink = p.uplink := rfl
  simp only [searchHotspot, hup, ← acceptHotspot_recording]
  repeat' split
  all_goals rfl

theorem chooseHotspot_recording (f : Facts) :
    (chooseHotspot p f o).map (recording w) = chooseHotspot (recording w p) f o := by
  refine map_ite rfl (map_ite ?_ (searchHotspot_recording w _ o _))
  simp only [show (recording w p).uplink = p.uplink from rfl]
  split
  · exact acceptHotspot_recording w _ _ o
  · rfl

theorem noted_recording {α : Type} (text : α → String) (xs : List α) :
    recording w (xs.foldl (fun p x => p.note (text x)) p) =
      xs.foldl (fun p x => p.note (text x)) (recording w p) := by
  induction xs generalizing p with
  | nil => rfl
  | cons x xs ih => exact ih (p.note (text x))

theorem placeSubnets_recording (f : Facts) :
    (placeSubnets p f o).map (recording w) = placeSubnets (recording w p) f o := by
  refine map_bind (map_ite ?_ (map_after fun _ => rfl)) fun q => ?_
  · exact congrArg Except.ok (noted_recording w _ _ _)
  · exact map_after fun gw => map_after fun tunSub => map_after fun _ => map_after fun _ => rfl

theorem placeServers_recording (servers : List Addr) :
    (placeServers p servers).map (recording w) = placeServers (recording w p) servers :=
  map_ite rfl (map_ite rfl (congrArg Except.ok (noted_recording w _ _ _)))

/-- What is planned once the default route is chosen. -/
theorem planned_recording (f : Facts) (servers : List Addr) :
    (do
        let q ← chooseHotspot p f o
        let q ← placeSubnets q f o
        placeServers q servers).map (recording w) =
      (do
        let q ← chooseHotspot (recording w p) f o
        let q ← placeSubnets q f o
        placeServers q servers) :=
  map_bind (chooseHotspot_recording w p o f) fun q =>
    map_bind (placeSubnets_recording w q o f) fun q => placeServers_recording w q servers

end Recording

/-- The first IPv4 default route listed on an interface. -/
def firstRoute (f : Facts) (dev : String) : Option DefaultRoute :=
  f.routes.find? fun r => r.dev = dev && r.family = 4

/-- An IPv4 default route on the interface whose link is up. -/
def LiveOn (f : Facts) (dev : String) (r : DefaultRoute) : Prop :=
  r ∈ f.routes ∧ r.family = 4 ∧ r.dev = dev ∧ r.linkDown = false

/-- Two routes that lead to the same gateway. -/
def SameGateway (r r' : DefaultRoute) : Prop := r.gateway = r'.gateway ∧ r.onLink = r'.onLink

/-- The gateway is that of a live route of the interface, of the lowest metric. -/
def LeadsThroughBest (f : Facts) (dev : String) (gateway : Addr) (onLink : Bool) : Prop :=
  ∃ r, LiveOn f dev r ∧ (∀ r', LiveOn f dev r' → r.metric ≤ r'.metric) ∧
    gateway = r.gateway ∧ onLink = r.onLink

section Uplink

variable {f : Facts} {servers : List Addr} {o : Options} {p : Plan}

/-- A plan has the gateway of the route that was chosen. -/
theorem planNetwork_gateway (h : planNetwork f servers o = .ok p) :
    ∃ route, chooseUplink f (withDefaults o) = .ok route ∧
      p.uplinkGateway = route.gateway ∧ p.uplinkOnLink = route.onLink := by
  obtain ⟨_, socks, route, q, hroute, hq, _, _, _, _, _, _, _, rfl, _⟩ := planNetwork_ok h
  have hground := chooseHotspot_ground hq
  have hplaced : (placeUplink (freshPlan f (withDefaults o) socks) f route).ground.uplinkGateway =
      route.gateway ∧
      (placeUplink (freshPlan f (withDefaults o) socks) f route).ground.uplinkOnLink =
        route.onLink := by
    unfold placeUplink
    split <;> exact ⟨rfl, rfl⟩
  rw [← hground] at hplaced
  exact ⟨route, hroute, hplaced⟩

/-- With an override the route is the first one listed on the interface. -/
theorem chooseUplink_override {dev : String} {route : DefaultRoute}
    (hname : o.uplinkOverride = dev) (hne : dev ≠ "") :
    chooseUplink f o = .ok route ↔ firstRoute f dev = some route := by
  unfold chooseUplink
  rw [if_pos (hname ▸ hne), hname]
  unfold firstRoute
  cases f.routes.find? fun r => r.dev = dev && r.family = 4 with
  | none | some r => simp

/-- Asking for another uplink changes nothing else in the options. -/
theorem withDefaults_uplink (h : o.tunName ≠ "") (dev : String) :
    withDefaults { o with uplinkOverride := dev } =
      { withDefaults o with uplinkOverride := dev } := by
  simp only [withDefaults, if_neg h]

/-- A route to the same gateway over the same interface makes the same plan. -/
theorem planWith_override {d first : DefaultRoute} (h : planWith f servers o = .ok p)
    (hd : chooseUplink f o = .ok d)
    (hfirst : chooseUplink f { o with uplinkOverride := d.dev } = .ok first)
    (hdev : first.dev = d.dev) (hsame : SameGateway first d) :
    planWith f servers { o with uplinkOverride := d.dev } =
      .ok (recording { o with uplinkOverride := d.dev } p) := by
  obtain ⟨hname, h⟩ := Outcome.guard_ok h
  obtain ⟨socks, hsocks, h⟩ := Outcome.bind_ok h
  rw [hd] at h
  have hplaced : placeUplink (freshPlan f { o with uplinkOverride := d.dev } socks) f first =
      recording { o with uplinkOverride := d.dev } (placeUplink (freshPlan f o socks) f d) := by
    unfold placeUplink
    rw [hdev, hsame.1, hsame.2]
    cases f.defaultV6 with
    | none | some v6 => rfl
  have hsocks' : (if o.systemSOCKS.enabled then
      systemSOCKSForPlan f { o with uplinkOverride := d.dev } else pure []) = .ok socks := hsocks
  unfold planWith
  rw [if_neg hname]
  simp only [hsocks', hfirst, hplaced, bind, Except.bind]
  exact (planned_recording { o with uplinkOverride := d.dev }
    (placeUplink (freshPlan f o socks) f d) o f servers).symm.trans
      (congrArg (Except.map (recording { o with uplinkOverride := d.dev })) h)

end Uplink

/-- The request with an internet interface set by hand. -/
def StartRequest.via (req : StartRequest) (dev : String) : StartRequest :=
  { req with network := { req.network with internetInterface := dev } }

theorem Config.netOptionsFor_via {c : Config} {req : StartRequest} {port : UInt16} {o : Options}
    (ho : c.netOptionsFor req port = .ok o) (dev : String) :
    c.netOptionsFor (req.via dev) port = .ok { o with uplinkOverride := dev } := by
  have hmap : c.netOptionsFor (req.via dev) port =
      (c.netOptionsFor req port).map ({ · with uplinkOverride := dev }) := by
    simp only [Config.netOptionsFor, StartRequest.via]
    split
    · rfl
    · split <;> rfl
  rw [hmap, ho]
  rfl

/-- **An override takes the gateway of the first route listed on its interface.**
That is the gateway of the best live route exactly when the first one leads
there; and naming the detected uplink changes nothing exactly when the first
route of that interface leads where the detected one does. -/
theorem uplink_override_iff {c : Config} {req : StartRequest} {f : Facts} {port : UInt16}
    {o : Options} {servers : List Addr} {p : Plan}
    (ho : c.netOptionsFor req port = .ok o) (hp : planNetwork f servers o = .ok p) :
    (∀ dev, req.network.internetInterface = dev → dev ≠ "" →
      (LeadsThroughBest f dev p.uplinkGateway p.uplinkOnLink ↔
        ∃ first, firstRoute f dev = some first ∧
          LeadsThroughBest f dev first.gateway first.onLink)) ∧
    (req.network.internetInterface = "" →
      ∀ d o', f.primaryDefault = some d → c.netOptionsFor (req.via d.dev) port = .ok o' →
        (planNetwork f servers o' = .ok (recording (withDefaults o') p) ↔
          ∃ first, firstRoute f d.dev = some first ∧ SameGateway first d)) := by
  have hasks := Config.netOptionsFor_asks ho
  obtain ⟨route, hroute, hgateway, honLink⟩ := planNetwork_gateway hp
  refine ⟨fun dev hdev hne => ?_, fun hnone d o' hd ho' => ?_⟩
  · have hfirst := (chooseUplink_override (hasks.defaults.uplink.trans hdev) hne).mp hroute
    rw [hfirst, hgateway, honLink]
    simp
  · obtain ⟨-, -, -, hne⟩ := Facts.bestDefault_ok hd
    rw [Config.netOptionsFor_via ho] at ho'
    obtain rfl := Except.ok.inj ho'
    have hd' : chooseUplink f (withDefaults o) = .ok d := by
      unfold chooseUplink
      rw [hasks.defaults.uplink, if_neg (not_not.mpr hnone), hd]
    obtain rfl : route = d := Except.ok.inj (hroute.symm.trans hd')
    rw [withDefaults_uplink hasks.tunName]
    constructor
    · intro hsame
      obtain ⟨first, hfirst, hgateway', honLink'⟩ := planNetwork_gateway hsame
      rw [withDefaults_uplink hasks.tunName] at hfirst
      exact ⟨first, (chooseUplink_override rfl hne).mp hfirst,
        hgateway'.symm.trans hgateway, honLink'.symm.trans honLink⟩
    · rintro ⟨first, hfirst, hsame⟩
      have hon := List.find?_some hfirst
      rw [Bool.and_eq_true, decide_eq_true_eq] at hon
      unfold planNetwork
      rw [withDefaults_uplink hasks.tunName]
      exact planWith_override hp hd' ((chooseUplink_override rfl hne).mpr hfirst) hon.1 hsame

/-- The machine on the cable with an older default route before it, whose link
is down. -/
def staleFacts : Facts :=
  { cabledFacts with
    routes :=
      { cable with gateway := .v4 0x0A000001#32, linkDown := true } :: cabledFacts.routes }

/-- The options of a start that names the interface. -/
def optionsVia (dev : String) : Options :=
  { ({} : Config).netOptions with uplinkOverride := dev }

def planVia (f : Facts) (dev : String) : Except PlanError Plan :=
  planNetwork f [.v4 0xCB007107#32] (optionsVia dev)

/-- On the machine on the cable naming the cable changes nothing. -/
theorem cable_named :
    ∃ p, planVia cabledFacts "" = .ok p ∧
      planVia cabledFacts "eth0" = .ok (recording (withDefaults (optionsVia "eth0")) p) := by
  obtain ⟨p, hp⟩ := Outcome.ok_of_isOk (x := planVia cabledFacts "") rfl
  have ho : ({} : Config).netOptionsFor {} 0 = .ok (optionsVia "") := rfl
  have hall := (uplink_override_iff ho hp).2 rfl cable _ rfl rfl
  exact ⟨p, hp, hall.mpr ⟨cable, rfl, rfl, rfl⟩⟩

/-- With the older route listed first, naming the cable's interface passes the
check of the service and plans over the dead gateway. -/
theorem stale_gateway_planned :
    ({} : Config).validateAgainstFacts (StartRequest.via {} "eth0") staleFacts = .ok () ∧
      staleFacts.primaryDefault = some cable ∧
      (planVia staleFacts "").map (·.uplinkGateway) = .ok cable.gateway ∧
      (planVia staleFacts "eth0").map (·.uplinkGateway) = .ok (.v4 0x0A000001#32) :=
  ⟨rfl, rfl, rfl, rfl⟩

end Caspian.Privsvc
