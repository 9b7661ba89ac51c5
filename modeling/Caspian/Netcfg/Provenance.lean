import Caspian.Netcfg.Backend
import Caspian.Netcfg.Readiness

/-!
# Where the steps of a Linux plan come from

What is known of the pairs of a plan: which interface they are about and under
which condition the plan has them (`pairs_origin`), and that none of them
spoils a later one (`pairs_apart`).  From a machine the plan's facts are true
of, every step is ready (`Consistent.pending`).
-/

namespace Caspian.Netcfg

open Verified Netip

namespace Plan

variable (p : Plan) (current : Readings)

theorem steps_of_onLinux {p : Plan} (h : p.OnLinux) : p.steps current = p.linuxSteps current := by
  unfold steps preEngineSteps postEngineSteps linuxSteps
  rcases h with h | h <;> rw [h]

/-! ## Provenance -/

/-- The interfaces the plan's routes name. -/
def routeDevices : List String := [p.hotspot, p.tun, p.uplink, p.uplinkV6Dev]

/-- Under which condition, and about which interface, a plan has a pair. -/
def Origin : Pair → Prop
  | .knob name _ prev => name ∈ baseSysctlKnobs ∧ current name = some prev
  | .knobOnly name _ => name ∈ baseSysctlKnobs ∧ current name = none
  | .create name _ => p.hotspotIsVirtual = true ∧ name = p.hotspot
  | .releaseCreated name => p.hotspotIsVirtual = true ∧ name = p.hotspot
  | .release name => p.hotspotManager = .networkManager ∧ p.hotspot ≠ "" ∧ name = p.hotspot
  | .strip dev _ => p.hotspotStationPrefixes ≠ [] ∧ dev = p.hotspot
  | .down name => p.hotspotTakenOver = true ∧ p.hotspot ≠ "" ∧ name = p.hotspot
  | .retype name _ => p.hotspotTakenOver = true ∧ p.hotspot ≠ "" ∧ name = p.hotspot
  | .up name => name = p.hotspot
  | .route table _ table' => "table" ∉ p.routeDevices → table' = table
  | _ => True

theorem knobPair_origin {knob : String} (value : String) (hk : knob ∈ baseSysctlKnobs) :
    p.Origin current (knobPair knob value current) := by
  unfold knobPair
  split
  next prev hprev => exact ⟨hk, hprev⟩
  next hnone => exact ⟨hk, hnone⟩

theorem routeTable_of_notMem {a : List String} (h : "table" ∉ a) :
    SimulatedKernel.routeTable a = "main" := by
  unfold SimulatedKernel.routeTable
  rw [argAfter_of_notMem h, if_pos rfl]

theorem table_notMem_hostRouteArgs (h : "table" ∉ p.routeDevices) {verb : String}
    (hverb : verb ≠ "table") (s : Addr) : "table" ∉ p.hostRouteArgs verb s := by
  simp only [routeDevices, List.mem_cons, List.not_mem_nil, or_false, not_or] at h
  obtain ⟨_, _, hup, hup6⟩ := h
  have hpfx : ∀ bits, (Prefix.ofAddr s bits).text ≠ "table" :=
    fun bits => Prefix.text_ne _ (by decide) (by decide)
  have hvia : ∀ (c : Prop) [Decidable c] (gw : Addr),
      "table" ∉ (if c then ["via", gw.text] else []) := by
    intro c _ gw
    have hgw : gw.text ≠ "table" := gw.text_ne (by decide) (by decide) (by decide)
    split
    · simp [Ne.symm hgw]
    · simp
  have hmetric : itoa pinnedRouteMetric ≠ "table" := by decide
  have hdev : (if s.is6 then (if p.uplinkV6Dev = "" then p.uplink else p.uplinkV6Dev)
      else p.uplink) ≠ "table" := by
    split
    · split
      · exact Ne.symm hup
      · exact Ne.symm hup6
    · exact Ne.symm hup
  unfold hostRouteArgs
  simp only [List.mem_append, not_or]
  refine ⟨⟨⟨⟨⟨?_, ?_⟩, ?_⟩, ?_⟩, ?_⟩, ?_⟩
  · split <;> simp [Ne.symm hverb]
  · simpa using Ne.symm (hpfx _)
  · exact hvia _ _
  · simpa using Ne.symm hdev
  · split <;> simp
  · simpa using Ne.symm hmetric

theorem hostRoutePair_origin (s : Addr) : p.Origin current (p.hostRoutePair s) := by
  intro htable
  have hmain : ∀ verb, verb ≠ "table" → SimulatedKernel.routeTable
      ("route" :: verb :: (Prefix.ofAddr s (if s.is6 then 128 else 32)).text ::
        p.hostRouteTail verb s) = "main" := by
    intro verb hverb
    refine routeTable_of_notMem ?_
    have hpfx : (Prefix.ofAddr s (if s.is6 then 128 else 32)).text ≠ "table" :=
      Prefix.text_ne _ (by decide) (by decide)
    have htail : "table" ∉ p.hostRouteTail verb s := fun hm =>
      table_notMem_hostRouteArgs p htable hverb s (List.mem_of_mem_drop hm)
    simp [Ne.symm hverb, Ne.symm hpfx, htail]
  exact (hmain "del" (by decide)).trans (hmain "add" (by decide)).symm

/-- **Where every pair of a plan comes from.** -/
theorem pairs_origin : ∀ π ∈ p.pairs current, p.Origin current π := by
  have htext : p.hotspotSubnet.text ≠ "table" := Prefix.text_ne _ (by decide) (by decide)
  have hdevices : "table" ∉ p.routeDevices → p.hotspot ≠ "table" ∧ p.tun ≠ "table" := by
    simp +contextual [routeDevices, eq_comm]
  simp +decide only [pairs, knobPairs, virtualPairs, releasePairs, hotspotAddrPairs, serverPairs,
    tunnelAddrPairs, tunnelRoutePairs, List.forall_mem_append, List.forall_mem_cons,
    List.forall_mem_map, forall_mem_ite, hostRoutePair_origin, knobPair_origin]
  simp +contextual [Origin, tailRoute, SimulatedKernel.routeTable, argAfter, htext, hdevices]
  exact fun _ _ hpfx => List.ne_nil_of_mem hpfx

/-! ## No pair spoils another -/

/-- Pairs that write and restore nothing do not matter. -/
def Inert (πs : List Pair) : Prop := ∀ π ∈ πs, π.writes = [] ∧ π.restores = none

variable {π π' : Pair}

theorem not_spoils_of (h : π.writes = [] ∨ π'.restores = none) : ¬π.Spoils π' := by
  rintro ⟨cell, hw, hr⟩
  rcases h with h | h
  · rw [h] at hw
    cases hw
  · rw [h] at hr
    cases hr

theorem apart_of_inert (h : π'.writes = [] ∧ π'.restores = none) : π.Apart π' :=
  ⟨not_spoils_of (Or.inr h.2), not_spoils_of (Or.inl h.1)⟩

theorem apart_append_inert {πs πs' : List Pair} (hinert : Inert πs')
    (h : πs.Pairwise Pair.Apart) : (πs ++ πs').Pairwise Pair.Apart := by
  refine List.pairwise_append.mpr ⟨h, ?_, fun π _ π' hπ' => apart_of_inert (hinert π' hπ')⟩
  exact List.pairwise_of_forall_mem_list fun π _ π' hπ' => apart_of_inert (hinert π' hπ')

/-- Pairs about one kind of cell each, of different kinds or names, are apart. -/
theorem apart_of_cells {cells cells' : List Cell} (hw : ∀ cell ∈ π.writes, cell ∈ cells)
    (hr : ∀ cell, π.restores = some cell → cell ∈ cells) (hw' : ∀ cell ∈ π'.writes, cell ∈ cells')
    (hr' : ∀ cell, π'.restores = some cell → cell ∈ cells')
    (hdisjoint : ∀ cell ∈ cells, cell ∉ cells') : π.Apart π' := by
  refine ⟨?_, ?_⟩
  · rintro ⟨cell, hcell, hrestores⟩
    exact hdisjoint cell (hw cell hcell) (hr' cell hrestores)
  · rintro ⟨cell, hcell, hrestores⟩
    exact hdisjoint cell (hr cell hrestores) (hw' cell hcell)

theorem knobPair_writes (knob value : String) :
    ∀ cell ∈ (knobPair knob value current).writes, cell ∈ [Cell.knob knob] := by
  unfold knobPair
  split <;> exact fun cell h => h

theorem knobPair_restores (knob value : String) :
    ∀ cell, (knobPair knob value current).restores = some cell → cell ∈ [Cell.knob knob] := by
  unfold knobPair
  split
  · intro cell h
    rw [← Option.some.inj h]
    exact List.mem_singleton_self _
  · intro cell h
    cases h

theorem knobPairs_form : ∀ π ∈ p.knobPairs current, ∃ knob value,
    π = knobPair knob value current := by
  simp only [knobPairs, List.forall_mem_cons]
  exact ⟨⟨_, _, rfl⟩, ⟨_, _, rfl⟩, ⟨_, _, rfl⟩, ⟨_, _, rfl⟩, by simp⟩

theorem knobPairs_apart : (p.knobPairs current).Pairwise Pair.Apart := by
  have hne : ∀ k k' v v', k ≠ k' →
      (knobPair k v current).Apart (knobPair k' v' current) := by
    intro k k' v v' hkk
    refine apart_of_cells (knobPair_writes current k v) (knobPair_restores current k v)
      (knobPair_writes current k' v') (knobPair_restores current k' v') ?_
    intro cell hcell hcell'
    rw [List.mem_singleton] at hcell hcell'
    exact hkk (Cell.knob.inj (hcell.symm.trans hcell'))
  simp only [knobPairs, List.pairwise_cons, List.forall_mem_cons]
  refine ⟨⟨?_, ?_, ?_, nofun⟩, ⟨?_, ?_, nofun⟩, ⟨?_, nofun⟩, nofun, .nil⟩ <;>
    exact hne _ _ _ _ (by decide)

theorem virtualPairs_apart : p.virtualPairs.Pairwise Pair.Apart := by
  unfold virtualPairs
  split
  · exact .nil
  · refine .cons ?_ ?_
    · intro π hπ
      split at hπ
      · rw [List.mem_singleton.mp hπ]
        exact ⟨not_spoils_of (Or.inr rfl), not_spoils_of (Or.inr rfl)⟩
      · cases hπ
    · split
      · exact List.pairwise_singleton _ _
      · exact .nil

theorem releasePairs_apart : p.releasePairs.Pairwise Pair.Apart := by
  have hstrip : Inert (p.hotspotStationPrefixes.map fun pfx => Pair.strip p.hotspot pfx.text) := by
    intro π hπ
    obtain ⟨pfx, _, rfl⟩ := List.mem_map.mp hπ
    exact ⟨rfl, rfl⟩
  unfold releasePairs
  split
  · exact .nil
  · refine List.pairwise_append.mpr ⟨apart_append_inert hstrip ?_, ?_, ?_⟩
    · split
      · exact List.pairwise_singleton _ _
      · exact .nil
    · split
      · refine .cons ?_ (List.pairwise_singleton _ _)
        intro π _
        exact (apart_of_inert ⟨rfl, rfl⟩ : π.Apart (.down p.hotspot)).symm
      · exact .nil
    · -- what is released is not what is retyped
      intro π hπ π' hπ'
      rcases List.mem_append.mp hπ with hπ | hπ
      · split at hπ
        · rw [List.mem_singleton.mp hπ]
          split at hπ'
          · simp only [List.mem_cons, List.not_mem_nil, or_false] at hπ'
            rcases hπ' with rfl | rfl
            · exact apart_of_inert ⟨rfl, rfl⟩
            · refine apart_of_cells
                (fun cell (h : cell ∈ [Cell.released p.hotspot]) => h) ?_
                (fun cell (h : cell ∈ [Cell.type p.hotspot]) => h) ?_ ?_
              · intro cell h
                exact List.mem_singleton.mpr (Option.some.inj h).symm
              · intro cell h
                exact List.mem_singleton.mpr (Option.some.inj h).symm
              · intro cell h h'
                cases (List.mem_singleton.mp h).symm.trans (List.mem_singleton.mp h')
          · cases hπ'
        · cases hπ
      · exact (apart_of_inert (hstrip π hπ)).symm

/-- The pairs about the access point's interface. -/
theorem ifacePairs_apart {p : Plan} (h : HotspotShape p) :
    (p.virtualPairs ++ p.releasePairs).Pairwise Pair.Apart := by
  cases hv : p.hotspotIsVirtual with
  | true =>
    obtain ⟨ht, hm, hs⟩ := h hv
    have hrelease : p.releasePairs = [] := by
      unfold releasePairs
      simp [ht, hm, hs]
    rw [hrelease, List.append_nil]
    exact virtualPairs_apart p
  | false =>
    have hvirtual : p.virtualPairs = [] := by
      unfold virtualPairs
      simp [hv]
    rw [hvirtual, List.nil_append]
    exact releasePairs_apart p

/-- The pairs that are the same whatever was read, after the firewall. -/
def fixedPairs : List Pair :=
  p.virtualPairs ++ p.releasePairs ++ p.hotspotAddrPairs ++ p.serverPairs ++
    (p.tunnelAddrPairs ++ p.tunnelRoutePairs)

theorem pairs_eq : p.pairs current = (.firewall :: p.knobPairs current) ++ p.fixedPairs := by
  simp only [pairs, fixedPairs, List.append_assoc, List.cons_append, List.nil_append]

theorem inert_routes :
    Inert (p.hotspotAddrPairs ++ p.serverPairs ++ (p.tunnelAddrPairs ++ p.tunnelRoutePairs)) := by
  simp only [Inert, hotspotAddrPairs, serverPairs, tunnelAddrPairs, tunnelRoutePairs,
    List.forall_mem_append, List.forall_mem_cons, List.forall_mem_map, forall_mem_ite]
  simp [Pair.writes, Pair.restores, hostRoutePair, tailRoute]

theorem ifacePairs_cells : ∀ π ∈ p.virtualPairs ++ p.releasePairs, ∀ knob,
    Cell.knob knob ∉ π.writes ∧ π.restores ≠ some (.knob knob) := by
  simp only [virtualPairs, releasePairs, List.forall_mem_append, List.forall_mem_cons,
    List.forall_mem_map, forall_mem_ite]
  simp [Pair.writes, Pair.restores]

theorem fixedPairs_eq : p.fixedPairs = (p.virtualPairs ++ p.releasePairs) ++
    (p.hotspotAddrPairs ++ p.serverPairs ++ (p.tunnelAddrPairs ++ p.tunnelRoutePairs)) := by
  simp only [fixedPairs, List.append_assoc]

/-- None of the fixed pairs is about a knob. -/
theorem fixedPairs_cells : ∀ π ∈ p.fixedPairs, ∀ knob,
    Cell.knob knob ∉ π.writes ∧ π.restores ≠ some (.knob knob) := by
  intro π hπ knob
  rw [fixedPairs_eq] at hπ
  rcases List.mem_append.mp hπ with hπ | hπ
  · exact ifacePairs_cells p π hπ knob
  · rw [(inert_routes p π hπ).1, (inert_routes p π hπ).2]
    simp

theorem fixedPairs_apart {p : Plan} (h : HotspotShape p) : p.fixedPairs.Pairwise Pair.Apart := by
  rw [fixedPairs_eq]
  exact apart_append_inert (inert_routes p) (ifacePairs_apart h)

/-- **No pair of a plan spoils another.** -/
theorem pairs_apart {p : Plan} (h : HotspotShape p) (current : Readings) :
    (p.pairs current).Pairwise Pair.Apart := by
  have hcross : ∀ π ∈ p.knobPairs current, ∀ π' ∈ p.fixedPairs, π.Apart π' := by
    intro π hπ π' hπ'
    obtain ⟨knob, value, rfl⟩ := knobPairs_form p current π hπ
    obtain ⟨hw, hr⟩ := fixedPairs_cells p π' hπ' knob
    refine ⟨?_, ?_⟩
    · rintro ⟨cell, hcell, hrestores⟩
      rw [List.mem_singleton.mp (knobPair_writes current knob value cell hcell)] at hrestores
      exact hr hrestores
    · rintro ⟨cell, hcell, hrestores⟩
      rw [List.mem_singleton.mp (knobPair_restores current knob value cell hrestores)] at hcell
      exact hw hcell
  rw [pairs_eq]
  refine List.pairwise_append.mpr ⟨.cons ?_ (knobPairs_apart p current), fixedPairs_apart h, ?_⟩
  · intro π _
    exact (apart_of_inert ⟨rfl, rfl⟩ : π.Apart .firewall).symm
  · intro π hπ π' hπ'
    rcases List.mem_cons.mp hπ with rfl | hπ
    · exact (apart_of_inert ⟨rfl, rfl⟩ : π'.Apart .firewall).symm
    · exact hcross π hπ π' hπ'

/-! ## The machine the plan was made for -/

/-- The facts the plan was made from are true of the machine: every knob was
read, the interface to be created is absent, one NetworkManager manages was not
released, and one to be taken over is a station. -/
structure Consistent (k : SimulatedKernel) : Prop where
  measured : ∀ knob ∈ baseSysctlKnobs, ∃ v, current knob = some v ∧ k.sysctl.lookup knob = some v
  absent : p.hotspotIsVirtual = true → p.hotspot ∉ k.ifaces
  managed : p.hotspot ≠ "" → p.hotspotManager = .networkManager →
    ∃ i, k.ifaces.lookup p.hotspot = some i ∧ i.released = false
  station : p.hotspot ≠ "" → p.hotspotTakenOver = true →
    ∃ i, k.ifaces.lookup p.hotspot = some i ∧ i.type = "managed"

/-- Every pair of the plan is ready on such a machine. -/
theorem Consistent.ready {p : Plan} {current : Readings} {k : SimulatedKernel}
    (h : p.Consistent current k) : ∀ π ∈ p.pairs current, π.Ready k.toCore := by
  intro π hπ
  have horigin := p.pairs_origin current π hπ
  cases π with
  | knob name value prev =>
    obtain ⟨v, hv, hk⟩ := h.measured name horigin.1
    rw [horigin.2] at hv
    rw [← Option.some.inj hv] at hk
    exact hk
  | release name =>
    obtain ⟨hm, hh, rfl⟩ := horigin
    obtain ⟨i, hi, hr⟩ := h.managed hh hm
    intro j hj
    rw [hi] at hj
    rw [← Option.some.inj hj]
    exact hr
  | retype name type =>
    obtain ⟨ht, hh, rfl⟩ := horigin
    obtain ⟨i, hi, hr⟩ := h.station hh ht
    intro j hj
    rw [hi] at hj
    rw [← Option.some.inj hj]
    exact hr
  | _ => trivial

/-- A route's inverse takes it out of the table it was put in. -/
theorem matched_of_origin (htable : "table" ∉ p.routeDevices) (hπ : π ∈ p.pairs current) :
    π.Matched := by
  have horigin := p.pairs_origin current π hπ
  cases π with
  | route table pfx table' => exact horigin htable
  | _ => trivial

/-- And fit, if no route is over an interface named like a keyword. -/
theorem Consistent.fit {p : Plan} {current : Readings} {k : SimulatedKernel}
    (h : p.Consistent current k) (htable : "table" ∉ p.routeDevices) {s : Step} (hs : s.Is π)
    (hπ : π ∈ p.pairs current) : Fit k.toCore s π := by
  have horigin := p.pairs_origin current π hπ
  refine ⟨hs, p.matched_of_origin current htable hπ, ?_, ?_⟩
  · rintro name value rfl
    obtain ⟨v, hv, _⟩ := h.measured name horigin.1
    rw [horigin.2] at hv
    cases hv
  · rintro name rfl
    obtain ⟨hv, rfl⟩ := horigin
    exact h.absent hv

/-- The steps of the plan with their pairs. -/
def paired : List (Step × Pair) := (p.linuxSteps current).zip (p.pairs current)

theorem paired_fst (ht : p.tun ≠ "") :
    (p.paired current).map Prod.fst = p.linuxSteps current :=
  List.map_fst_zip (p.linuxSteps_are current ht).length_eq.le

theorem mem_paired (ht : p.tun ≠ "") {q : Step × Pair} (hq : q ∈ p.paired current) :
    q.1.Is q.2 ∧ q.1 ∈ p.linuxSteps current ∧ q.2 ∈ p.pairs current := by
  have hzip := List.forall₂_iff_zip.mp (p.linuxSteps_are current ht)
  obtain ⟨hs, hπ⟩ := List.of_mem_zip hq
  exact ⟨hzip.2 hq, hs, hπ⟩

theorem paired_apart {p : Plan} (h : HotspotShape p) (current : Readings) (ht : p.tun ≠ "") :
    (p.paired current).Pairwise fun q q' => q.2.Apart q'.2 := by
  have hsnd : (p.paired current).map Prod.snd = p.pairs current :=
    List.map_snd_zip (p.linuxSteps_are current ht).length_eq.ge
  have hapart := pairs_apart h current
  rw [← hsnd, List.pairwise_map] at hapart
  exact hapart

end Plan

end Caspian.Netcfg
