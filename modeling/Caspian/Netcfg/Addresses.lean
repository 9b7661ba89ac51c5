import Caspian.Netip.Network
import Caspian.Netcfg.Roles

/-!
# The address plan

The hotspot's network and the tunnel's are each the first of a pool that shares
no address with what the machine is on, and the tunnel's keeps clear of the
hotspot's as well.  Both are chosen before their size is looked at:
`addresses_planned` says what an accepted plan guarantees, and that a plan is
refused exactly when the networks chosen so are missing or have no room for the
addresses they need.
-/

namespace Caspian.Netcfg

open Verified Netip

/-! ## Networks apart -/

/-- No address is in both. -/
def Apart (a b : Prefix) : Prop := ∀ x, ¬(a.contains x = true ∧ b.contains x = true)

/-- No address of the network is in use. -/
def Clear (taken : List Prefix) (p : Prefix) : Prop := ∀ t ∈ taken, Apart p t

/-- The first of the pool that is clear. -/
def FirstClear (pool taken : List Prefix) (cand : Prefix) : Prop :=
  ∃ before after, pool = before ++ cand :: after ∧ Clear taken cand ∧
    ∀ b ∈ before, ¬Clear taken b

variable {a : Addr}

theorem is4_iff_bitLen : a.is4 = true ↔ a.bitLen = 32 := by
  cases a with
  | _ => simp [Addr.is4, Addr.bitLen]

/-- `Overlaps` is sharing an address, for any two prefixes. -/
theorem subnetsOverlap_iff {a b : Prefix} : subnetsOverlap a b = true ↔ ¬Apart a b := by
  unfold Apart subnetsOverlap
  simp only [not_forall, not_not]
  by_cases hvalid : a.isValid = true ∧ b.isValid = true
  · by_cases hfam : a.addr.is4 = b.addr.is4
    · simp [hvalid, hfam, Prefix.overlaps_iff]
    · rw [if_neg (by simp [hvalid]), if_pos hfam]
      refine iff_of_false Bool.false_ne_true ?_
      rintro ⟨x, hax, hbx⟩
      have hlen := (Prefix.contains_iff.mp hax).2.2.1.trans (Prefix.contains_iff.mp hbx).2.2.1.symm
      refine hfam (Bool.eq_iff_iff.mpr ?_)
      rw [is4_iff_bitLen, is4_iff_bitLen, hlen]
  · rw [if_pos]
    · refine iff_of_false Bool.false_ne_true ?_
      rintro ⟨x, hax, hbx⟩
      exact hvalid ⟨(Prefix.contains_iff.mp hax).1, (Prefix.contains_iff.mp hbx).1⟩
    · rw [Bool.or_eq_true, Bool.not_eq_true', Bool.not_eq_true', ← Bool.not_eq_true,
        ← Bool.not_eq_true]
      exact not_and_or.mp hvalid

theorem apart_masked {a b : Prefix} : Apart a.masked b ↔ Apart a b := by
  simp [Apart]

variable {p : Prefix}

theorem clear_iff {taken : List Prefix} :
    Clear taken p ↔ (!taken.any fun t => subnetsOverlap p t) = true := by
  simp only [Clear, Bool.not_eq_true', List.any_eq_false, subnetsOverlap_iff, not_not]

/-- `ChooseSubnet` takes the first clear candidate, as a network. -/
theorem chooseSubnet_ok {pool taken : List Prefix} {sub : Prefix} :
    chooseSubnet pool taken = .ok sub ↔ ∃ cand, FirstClear pool taken cand ∧ sub = cand.masked := by
  have hfind : ∀ cand, pool.find? (fun c => !taken.any fun t => subnetsOverlap c t) = some cand ↔
      FirstClear pool taken cand := by
    intro cand
    rw [List.find?_eq_some_iff_append, ← clear_iff]
    constructor
    · rintro ⟨hclear, before, after, rfl, hbefore⟩
      refine ⟨before, after, rfl, hclear, fun b hb => ?_⟩
      rw [clear_iff]
      simpa using hbefore b hb
    · rintro ⟨before, after, rfl, hclear, hbefore⟩
      refine ⟨hclear, before, after, rfl, fun b hb => ?_⟩
      have hnot := hbefore b hb
      rw [clear_iff] at hnot
      simpa using hnot
  unfold chooseSubnet
  split
  next cand hcand =>
    constructor
    · intro h
      exact ⟨cand, (hfind cand).mp hcand, (Except.ok.inj h).symm⟩
    · rintro ⟨c, hc, rfl⟩
      obtain rfl : cand = c := Option.some.inj (hcand.symm.trans ((hfind c).mpr hc))
      rfl
  next hnone =>
    refine iff_of_false (by simp) ?_
    rintro ⟨c, hc, -⟩
    rw [(hfind c).mpr hc] at hnone
    cases hnone

/-! ## Addresses in a network -/

/-- The last address of an IPv4 network. -/
def IsBroadcast (p : Prefix) (a : Addr) : Prop :=
  p.addr.is4 = true ∧ ∀ x, p.contains x = true → x.toNat ≤ a.toNat

/-- An address a machine can have in the network. -/
def IsHost (p : Prefix) (a : Addr) : Prop :=
  p.contains a = true ∧ a ≠ p.masked.addr ∧ ¬IsBroadcast p a

/-- Room for the box: two free bits in IPv4, where the last address is taken,
and one in IPv6. -/
def HasGateway (p : Prefix) : Prop :=
  p.isValid = true ∧ (if p.addr.is4 then 2 else 1) ≤ p.hostBits

/-- Room for two machines. -/
def HasPeer (p : Prefix) : Prop := p.isValid = true ∧ 2 ≤ p.hostBits

instance (p : Prefix) : Decidable (HasGateway p) := by
  unfold HasGateway
  infer_instance

instance (p : Prefix) : Decidable (HasPeer p) := by
  unfold HasPeer
  infer_instance

theorem HasPeer.gateway (h : HasPeer p) : HasGateway p := by
  refine ⟨h.1, ?_⟩
  have htwo := h.2
  split <;> omega

/-- What the mask length says of the free bits. -/
theorem hasGateway_iff (hp : p.isValid = true) :
    HasGateway p ↔ ¬(p.addr.is4 = true ∧ 30 < p.bitCount) ∧ 1 < 2 ^ p.hostBits := by
  obtain ⟨n, hn⟩ := Option.isSome_iff_exists.mp hp
  have hcount : p.bitCount = n := by simp [Prefix.bitCount, hn]
  have hfree : p.hostBits = p.addr.bitLen - n := by simp [Prefix.hostBits, hn]
  have hone : 1 < 2 ^ p.hostBits ↔ 1 ≤ p.hostBits :=
    Nat.one_lt_two_pow_iff.trans Nat.one_le_iff_ne_zero.symm
  rw [HasGateway, hone, hcount, and_iff_right hp]
  by_cases hfour : p.addr.is4 = true
  · have hlen := is4_iff_bitLen.mp hfour
    rw [if_pos hfour]
    simp only [hfour, true_and]
    omega
  · rw [if_neg hfour]
    simp [hfour]

theorem Nth.unique {i : Nat} {b : Addr} (ha : p.Nth i a) (hb : p.Nth i b) : a = b :=
  Addr.ext_toNat (ha.family.trans hb.family.symm) (ha.zone.trans hb.zone.symm)
    (ha.number.trans hb.number.symm)

/-- `GatewayAddr` is the first address after the network's own, where there is
room for it. -/
theorem gatewayAddr_ok : gatewayAddr p = .ok a ↔ HasGateway p ∧ p.Nth 1 a := by
  by_cases hp : p.isValid = true
  · obtain ⟨hin, hnext⟩ := (Prefix.nth_masked hp).next hp
    rw [hasGateway_iff hp]
    unfold gatewayAddr
    constructor
    · intro h
      obtain ⟨-, h⟩ := Outcome.guard_ok h
      obtain ⟨hbig, h⟩ := Outcome.guard_ok h
      obtain ⟨hnot, h⟩ := Outcome.guard_ok h
      rw [Bool.or_eq_true, Bool.not_eq_true', Bool.not_eq_true', not_or, Bool.not_eq_false,
        Bool.not_eq_false, hin] at hnot
      exact ⟨⟨hbig, hnot⟩, Except.ok.inj h ▸ hnext hnot⟩
    · rintro ⟨⟨hbig, hroom⟩, ha⟩
      obtain ⟨hvalid, hcontains⟩ := hin.mpr hroom
      rw [if_neg (by simp [hp]), if_neg hbig]
      simp only [hvalid, hcontains, Bool.not_true, Bool.or_self, Bool.false_eq_true, if_false]
      rw [Nth.unique (hnext hroom) ha]
  · refine iff_of_false ?_ fun h => hp h.1.1
    unfold gatewayAddr
    rw [if_pos (by simp [hp])]
    simp

theorem HasGateway.exists_ok (h : HasGateway p) : ∃ gw, gatewayAddr p = .ok gw := by
  obtain ⟨-, hnext⟩ := (Prefix.nth_masked h.1).next h.1
  exact ⟨_, gatewayAddr_ok.mpr ⟨h, hnext ((hasGateway_iff h.1).mp h).2⟩⟩

/-- `PeerAddr` is the one after it. -/
theorem peerAddr_ok : peerAddr p = .ok a ↔ HasPeer p ∧ p.Nth 2 a := by
  have hroom : 1 + 1 < 2 ^ p.hostBits ↔ 2 ≤ p.hostBits := by
    have hpow : 2 ^ 1 < 2 ^ p.hostBits ↔ 1 < p.hostBits :=
      Nat.pow_lt_pow_iff_right (by decide)
    exact hpow
  unfold peerAddr
  split
  next e herr =>
    refine iff_of_false (by simp) fun h => ?_
    obtain ⟨gw, hgw⟩ := h.1.gateway.exists_ok
    rw [hgw] at herr
    cases herr
  next gw hgw =>
    obtain ⟨hgate, hfirst⟩ := gatewayAddr_ok.mp hgw
    obtain ⟨hin, hnext⟩ := hfirst.next hgate.1
    rw [hroom] at hin hnext
    constructor
    · intro h
      obtain ⟨hnot, h⟩ := Outcome.guard_ok h
      rw [Bool.or_eq_true, Bool.not_eq_true', Bool.not_eq_true', not_or, Bool.not_eq_false,
        Bool.not_eq_false, hin] at hnot
      exact ⟨⟨hgate.1, hnot⟩, Except.ok.inj h ▸ hnext hnot⟩
    · rintro ⟨hpeer, ha⟩
      obtain ⟨hvalid, hcontains⟩ := hin.mpr hpeer.2
      simp only [hvalid, hcontains, Bool.not_true, Bool.or_self, Bool.false_eq_true, if_false]
      rw [Nth.unique (hnext hpeer.2) ha]

theorem HasPeer.exists_ok (h : HasPeer p) : ∃ peer, peerAddr p = .ok peer := by
  obtain ⟨gw, hgw⟩ := h.gateway.exists_ok
  obtain ⟨-, hnext⟩ := (gatewayAddr_ok.mp hgw).2.next h.1
  have hroom : 2 ^ 1 < 2 ^ p.hostBits := (Nat.pow_lt_pow_iff_right (by decide)).mpr h.2
  exact ⟨_, peerAddr_ok.mpr ⟨h, hnext hroom⟩⟩

/-- An address counted from the network's own is neither that nor the last one. -/
theorem Nth.isHost {i : Nat} (ha : p.Nth i a) (hp : p.isValid = true) (hpos : 0 < i)
    (hin : i < 2 ^ p.hostBits) (hlast : p.addr.is4 = true → i + 1 < 2 ^ p.hostBits) :
    IsHost p a := by
  refine ⟨(ha.contains_iff hp).mpr hin, ?_, ?_⟩
  · rintro rfl
    have hfirst := (Prefix.nth_masked hp).number
    have hnum := ha.number
    omega
  · rintro ⟨hfour, hmax⟩
    obtain ⟨hmem, hnext⟩ := ha.next hp
    have hle := hmax a.next (hmem.mpr (hlast hfour)).2
    have hnum := (hnext (hlast hfour)).number
    have hnum' := ha.number
    omega

theorem two_pow_hostBits (h : 2 ≤ p.hostBits) : 4 ≤ 2 ^ p.hostBits := by
  calc 4 = 2 ^ 2 := rfl
    _ ≤ 2 ^ p.hostBits := Nat.pow_le_pow_right (by decide) h

theorem gatewayAddr_isHost (h : gatewayAddr p = .ok a) : IsHost p a := by
  obtain ⟨hgate, ha⟩ := gatewayAddr_ok.mp h
  refine Nth.isHost ha hgate.1 Nat.one_pos ((hasGateway_iff hgate.1).mp hgate).2 fun hfour => ?_
  have htwo := hgate.2
  rw [if_pos hfour] at htwo
  have hfree := two_pow_hostBits htwo
  omega

theorem peerAddr_isHost (h : peerAddr p = .ok a) : IsHost p a := by
  obtain ⟨hpeer, ha⟩ := peerAddr_ok.mp h
  have hfree := two_pow_hostBits hpeer.2
  exact Nth.isHost ha hpeer.1 (by decide) (by omega) fun _ => by omega

/-! ## The placing of the networks -/

/-- The hotspot's network: the one set by hand, or the first clear one. -/
def HotspotNetwork (f : Facts) (o : Options) (sub : Prefix) : Prop :=
  if o.hotspotSubnet.isValid then sub = o.hotspotSubnet.masked
  else ∃ cand, FirstClear o.hotspotPool f.occupiedPrefixes cand ∧ sub = cand.masked

/-- The tunnel's network beside it. -/
def TunnelNetwork (f : Facts) (o : Options) (sub tun : Prefix) : Prop :=
  ∃ cand, FirstClear o.tunnelPool (f.occupiedPrefixes ++ [sub]) cand ∧ tun = cand.masked

/-- Both networks are there and have room. -/
def Placeable (f : Facts) (o : Options) : Prop :=
  ∃ sub tun, HotspotNetwork f o sub ∧ HasGateway sub ∧ TunnelNetwork f o sub tun ∧ HasPeer tun

variable {q : Plan} {f : Facts} {o : Options}

theorem placeHotspotSubnet_network {p : Plan}
    (h : placeHotspotSubnet p o f.occupiedPrefixes = .ok q) :
    HotspotNetwork f o q.hotspotSubnet := by
  unfold placeHotspotSubnet at h
  unfold HotspotNetwork
  split at h
  next hset =>
    rw [if_pos hset, ← Except.ok.inj h]
    obtain ⟨notes, hnotes⟩ := noted_ok _ _ { p with hotspotSubnet := o.hotspotSubnet.masked }
    exact congrArg Plan.hotspotSubnet hnotes
  next hset =>
    rw [if_neg hset]
    obtain ⟨sub, hsub, h⟩ := Outcome.bind_ok h
    rw [← Except.ok.inj h]
    exact chooseSubnet_ok.mp hsub

theorem HotspotNetwork.exists_ok {sub : Prefix} (h : HotspotNetwork f o sub) (p : Plan) :
    ∃ q, placeHotspotSubnet p o f.occupiedPrefixes = .ok q ∧ q.hotspotSubnet = sub := by
  unfold HotspotNetwork at h
  unfold placeHotspotSubnet
  by_cases hset : o.hotspotSubnet.isValid = true
  · rw [if_pos hset] at h ⊢
    obtain ⟨notes, hnotes⟩ := noted_ok _ _ { p with hotspotSubnet := o.hotspotSubnet.masked }
    exact ⟨_, rfl, (congrArg Plan.hotspotSubnet hnotes).trans h.symm⟩
  · rw [if_neg hset] at h ⊢
    rw [chooseSubnet_ok.mpr h]
    exact ⟨_, rfl, rfl⟩

/-- The networks and addresses a plan was given. -/
structure Placed (f : Facts) (o : Options) (p : Plan) : Prop where
  hotspot : HotspotNetwork f o p.hotspotSubnet
  gateway : gatewayAddr p.hotspotSubnet = .ok p.hotspotGateway
  tunnel : TunnelNetwork f o p.hotspotSubnet p.tunSubnet
  tunAddr : gatewayAddr p.tunSubnet = .ok p.tunAddr
  tunPeer : peerAddr p.tunSubnet = .ok p.tunPeer

theorem placeSubnets_placed {p : Plan} (h : placeSubnets p f o = .ok q) : Placed f o q := by
  unfold placeSubnets at h
  obtain ⟨r, hr, h⟩ := Outcome.bind_ok h
  obtain ⟨gw, hgw, h⟩ := Outcome.bind_ok h
  obtain ⟨tunSub, htun, h⟩ := Outcome.bind_ok h
  obtain ⟨tunAddr, haddr, h⟩ := Outcome.bind_ok h
  obtain ⟨tunPeer, hpeer, h⟩ := Outcome.bind_ok h
  have hnet := placeHotspotSubnet_network hr
  rw [← Except.ok.inj h]
  exact ⟨hnet, hgw, chooseSubnet_ok.mp htun, haddr, hpeer⟩

/-- The placing succeeds exactly when both networks are there and have room. -/
theorem placeSubnets_isOk {p : Plan} : (∃ q, placeSubnets p f o = .ok q) ↔ Placeable f o := by
  constructor
  · rintro ⟨q, h⟩
    have hplaced := placeSubnets_placed h
    exact ⟨q.hotspotSubnet, q.tunSubnet, hplaced.hotspot, (gatewayAddr_ok.mp hplaced.gateway).1,
      hplaced.tunnel, (peerAddr_ok.mp hplaced.tunPeer).1⟩
  · rintro ⟨sub, tun, hsub, hgate, htun, hpeer⟩
    obtain ⟨q, hq, rfl⟩ := hsub.exists_ok p
    obtain ⟨gw, hgw⟩ := hgate.exists_ok
    obtain ⟨tunAddr, haddr⟩ := hpeer.gateway.exists_ok
    obtain ⟨tunPeer, hpeer'⟩ := hpeer.exists_ok
    have hchoose := chooseSubnet_ok.mpr htun
    unfold placeSubnets
    simp only [hq, hgw, hchoose, haddr, hpeer', bind, Except.bind, pure, Except.pure]
    exact ⟨_, rfl⟩

/-! ## The plan -/

/-- The interfaces are chosen: everything `PlanNetwork` does before it places
addresses succeeded with this plan. -/
def Seated (f : Facts) (o : Options) (q : Plan) : Prop :=
  validInterfaceNameOn o.platform o.tunName = true ∧
    ∃ socks route, (if o.systemSOCKS.enabled then systemSOCKSForPlan f o else pure []) = .ok socks ∧
      chooseUplink f o = .ok route ∧
      chooseHotspot (placeUplink (freshPlan f o socks) f route) f o = .ok q

variable {servers : List Addr}

theorem planNetwork_seated (h : Seated f (withDefaults o) q) :
    planNetwork f servers o =
      placeSubnets q f (withDefaults o) >>= fun p => placeServers p servers := by
  obtain ⟨hname, socks, route, hsocks, hroute, hq⟩ := h
  unfold planNetwork planWith
  rw [if_neg (by simp [hname]), hsocks]
  simp only [bind, Except.bind, hroute, hq]

theorem planNetwork_placed {p : Plan} (h : planNetwork f servers o = .ok p) :
    Placed f (withDefaults o) p := by
  unfold planNetwork planWith at h
  obtain ⟨-, h⟩ := Outcome.guard_ok h
  obtain ⟨socks, -, h⟩ := Outcome.bind_ok h
  obtain ⟨route, -, h⟩ := Outcome.bind_ok h
  obtain ⟨q, -, h⟩ := Outcome.bind_ok h
  obtain ⟨r, hr, h⟩ := Outcome.bind_ok h
  have hplaced := placeSubnets_placed hr
  obtain ⟨stuck, notes, rfl, -⟩ := placeServers_ok h
  exact ⟨hplaced.hotspot, hplaced.gateway, hplaced.tunnel, hplaced.tunAddr, hplaced.tunPeer⟩

/-- One server that can be pinned is enough. -/
theorem placeServers_isOk {p : Plan} (h : ∃ s ∈ keptServers servers, p.canPin s = true) :
    ∃ q, placeServers p servers = .ok q := by
  obtain ⟨s, hs, hpin⟩ := h
  have hsome : keptServers servers ≠ [] := List.ne_nil_of_mem hs
  have hfewer : ((keptServers servers).filter fun s => !p.canPin s).length ≠
      (keptServers servers).length := by
    refine Nat.ne_of_lt (List.length_filter_lt_length_iff_exists.mpr ⟨s, hs, ?_⟩)
    simp [hpin]
  exact ⟨_, (if_neg (fun hstuck => hfewer hstuck.2)).trans (if_neg hsome)⟩

/-- With the interfaces chosen and a server that can be pinned, only the
addresses are left to refuse. -/
theorem planNetwork_isOk (hq : Seated f (withDefaults o) q)
    (hpin : ∃ s ∈ keptServers servers, q.canPin s = true) :
    (∃ p, planNetwork f servers o = .ok p) ↔ Placeable f (withDefaults o) := by
  have hplace : (∃ r, placeSubnets q f (withDefaults o) = .ok r) ↔ Placeable f (withDefaults o) :=
    placeSubnets_isOk
  rw [planNetwork_seated hq, ← hplace]
  constructor
  · rintro ⟨p, h⟩
    obtain ⟨r, hr, -⟩ := Outcome.bind_ok h
    exact ⟨r, hr⟩
  · rintro ⟨r, hr⟩
    have hpin' : ∃ s ∈ keptServers servers, r.canPin s = true := by
      obtain ⟨sub, notes, gw, tunSub, tunAddr, tunPeer, rfl⟩ := placeSubnets_ok hr
      exact hpin
    rw [hr]
    exact placeServers_isOk hpin'

/-- **The address plan collides with nothing, and is refused only when a network
it settles on is missing or too small.**  The tunnel's network shares no address
with the hotspot's or with one the machine is on; the hotspot's, unless set by
hand, is the first of the pool that shares none with those; the addresses taken
in them are machines' addresses and the tunnel's two are distinct. -/
theorem addresses_planned (f : Facts) (servers : List Addr) (o : Options) :
    (∀ p, planNetwork f servers o = .ok p →
      Clear f.occupiedPrefixes p.tunSubnet ∧ Apart p.tunSubnet p.hotspotSubnet ∧
      ((withDefaults o).hotspotSubnet.isValid = false →
        Clear f.occupiedPrefixes p.hotspotSubnet ∧
        ∃ cand, FirstClear (withDefaults o).hotspotPool f.occupiedPrefixes cand ∧
          p.hotspotSubnet = cand.masked) ∧
      IsHost p.hotspotSubnet p.hotspotGateway ∧ IsHost p.tunSubnet p.tunAddr ∧
      IsHost p.tunSubnet p.tunPeer ∧ p.tunAddr ≠ p.tunPeer) ∧
    ∀ q, Seated f (withDefaults o) q → (∃ s ∈ keptServers servers, q.canPin s = true) →
      ((∃ p, planNetwork f servers o = .ok p) ↔ Placeable f (withDefaults o)) := by
  refine ⟨fun p h => ?_, fun q hq hpin => planNetwork_isOk hq hpin⟩
  have hplaced := planNetwork_placed h
  obtain ⟨cand, ⟨before, after, -, hclear, -⟩, htun⟩ := hplaced.tunnel
  have htunClear : Clear (f.occupiedPrefixes ++ [p.hotspotSubnet]) p.tunSubnet := by
    intro t ht
    rw [htun, apart_masked]
    exact hclear t ht
  refine ⟨fun t ht => htunClear t (List.mem_append_left _ ht), htunClear _ (by simp), ?_,
    gatewayAddr_isHost hplaced.gateway, gatewayAddr_isHost hplaced.tunAddr,
    peerAddr_isHost hplaced.tunPeer, ?_⟩
  · intro hset
    have hnet := hplaced.hotspot
    rw [HotspotNetwork, if_neg (by simp [hset])] at hnet
    obtain ⟨sub, hfirst, hsub⟩ := hnet
    refine ⟨fun t ht => ?_, sub, hfirst, hsub⟩
    obtain ⟨-, -, -, hsubClear, -⟩ := hfirst
    rw [hsub, apart_masked]
    exact hsubClear t ht
  · intro heq
    have hfirst := (gatewayAddr_ok.mp hplaced.tunAddr).2.number
    have hsecond := (peerAddr_ok.mp hplaced.tunPeer).2.number
    rw [heq] at hfirst
    omega

/-- The defaults on a machine at home. -/
theorem cabled_addresses :
    ∃ p, planNetwork cabledFacts [.v4 0xCB007107#32] defaultOptions = .ok p ∧
      p.hotspotSubnet = .ofAddr (.v4 0x0A533300#32) 24 ∧
      Clear cabledFacts.occupiedPrefixes p.tunSubnet ∧ IsHost p.tunSubnet p.tunPeer := by
  obtain ⟨p, hp, hsub⟩ := Outcome.ok_of_any
    (by decide : (planNetwork cabledFacts [.v4 0xCB007107#32] defaultOptions).toOption.any
      (fun p => p.hotspotSubnet = .ofAddr (.v4 0x0A533300#32) 24) = true)
  obtain ⟨hclear, -, -, -, -, hpeer, -⟩ :=
    (addresses_planned cabledFacts [.v4 0xCB007107#32] defaultOptions).1 p hp
  exact ⟨p, hp, of_decide_eq_true hsub, hclear, hpeer⟩

/-- A pool of a network with room for one address and one with room for all. -/
def tinyFirstOptions : Options :=
  { defaultOptions with
    hotspotPool := [.ofAddr (.v4 0x0A000000#32) 31, .ofAddr (.v4 0x0A533300#32) 24] }

/-- The first network of the pool is clear and too small, and the plan is refused
although the second is clear and has room. -/
theorem tinyFirst_refused :
    (planNetwork cabledFacts [.v4 0xCB007107#32] tinyFirstOptions).isOk = false ∧
      (∃ cand ∈ (withDefaults tinyFirstOptions).hotspotPool,
        (!cabledFacts.occupiedPrefixes.any fun t => subnetsOverlap cand t) = true ∧
          HasGateway cand) ∧
      (planNetwork cabledFacts [.v4 0xCB007107#32]
        { tinyFirstOptions with hotspotPool := tinyFirstOptions.hotspotPool.tail }).isOk = true :=
  ⟨by decide, by decide, by decide⟩

end Caspian.Netcfg
