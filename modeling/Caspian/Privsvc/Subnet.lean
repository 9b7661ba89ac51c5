import Caspian.Netcfg.Addresses
import Caspian.Privsvc.HotspotPlan

/-!
# A subnet set by hand

`validateStatic` takes a subnet by the one address it is written with and the
length of its mask.  The plan uses the network around that address, and the
DHCP range counts a fixed number of addresses into it.  This file says for which
masks the two agree.
-/

namespace Caspian.Privsvc

open Verified Netip Netcfg
open Hotspot (APConfig DNSConfig insideSubnet validConfigToken validAbsPath
  validServiceAccount newPlan newMobileHotspotPlan)

/-! ## The network -/

variable {c : Config} {req : StartRequest} {f : Facts} {port : UInt16} {o : Options}
  {servers : List Addr} {p : Plan}

/-- What the service takes for a subnet. -/
structure Handset (sub : Prefix) : Prop where
  is4 : sub.addr.is4 = true
  isPrivate : sub.addr.isPrivate = true
  bits : 8 ≤ sub.bitCount ∧ sub.bitCount ≤ 30

namespace Handset

variable {sub : Prefix}

theorem of_static {req : StartRequest} (h : validateStatic req = .ok ())
    (hne : req.hotspot.subnet ≠ "") :
    ∃ sub, parsePrefix req.hotspot.subnet = some sub ∧ Handset sub := by
  obtain ⟨-, h⟩ := Outcome.guard_ok h
  obtain ⟨-, h⟩ := Outcome.guard_ok h
  obtain ⟨-, h⟩ := Outcome.guard_ok h
  obtain ⟨-, h⟩ := Outcome.guard_ok h
  have hsubnet : validateSubnet req.hotspot.subnet = .ok () := by
    cases hpass : Hotspot.validatePassphrase req.hotspot.passphrase with
    | error e =>
      simp only [hpass] at h
      cases h
    | ok u =>
      simp only [hpass] at h
      obtain ⟨_, -, h⟩ := Outcome.bind_ok h
      obtain ⟨-, h⟩ := Outcome.guard_ok h
      obtain ⟨_, -, h⟩ := Outcome.bind_ok h
      exact h
  unfold validateSubnet at hsubnet
  rw [if_neg hne] at hsubnet
  split at hsubnet
  · cases hsubnet
  next sub hsub =>
    obtain ⟨hfour, hsubnet⟩ := Outcome.guard_ok hsubnet
    obtain ⟨hprivate, hsubnet⟩ := Outcome.guard_ok hsubnet
    obtain ⟨hbits, -⟩ := Outcome.guard_ok hsubnet
    exact ⟨sub, hsub, by simpa using hfour, by simpa using hprivate, by omega⟩

theorem exists_bits (h : Handset sub) :
    ∃ n, sub.bits = some n ∧ sub.bitCount = n ∧ sub.hostBits = 32 - n ∧ 8 ≤ n ∧ n ≤ 30 := by
  have hbits := h.bits
  cases hn : sub.bits with
  | none => simp [Prefix.bitCount, hn] at hbits
  | some n =>
    have hlen := is4_iff_bitLen.mp h.is4
    simp only [Prefix.bitCount, Prefix.hostBits, hn, hlen, Option.getD_some] at hbits ⊢
    exact ⟨n, rfl, rfl, rfl, by omega, by omega⟩

theorem valid (h : Handset sub) : sub.isValid = true := by
  obtain ⟨n, hn, -⟩ := h.exists_bits
  simp [Prefix.isValid, hn]

end Handset

/-- The plan is on the network that was set by hand. -/
theorem planNetwork_handset {c : Config} {req : StartRequest} {f : Facts} {port : UInt16}
    {o : Options} {servers : List Addr} {p : Plan} {sub : Prefix}
    (hne : req.hotspot.subnet ≠ "") (hsub : parsePrefix req.hotspot.subnet = some sub)
    (hvalid : sub.isValid = true) (ho : c.netOptionsFor req port = .ok o)
    (hp : planNetwork f servers o = .ok p) :
    p.hotspotSubnet = sub.masked ∧ gatewayAddr sub.masked = .ok p.hotspotGateway := by
  have hplaced := planNetwork_placed hp
  have hask := (Config.netOptionsFor_asks ho).defaults.subnet hne
  rw [hsub] at hask
  have hnet := hplaced.hotspot
  rw [HotspotNetwork, ← Option.some.inj hask, if_pos hvalid] at hnet
  exact ⟨hnet, hnet ▸ hplaced.gateway⟩

/-- The mask is no shorter than that of the RFC 1918 block the address is in. -/
def PrivateMask (sub : Prefix) : Prop :=
  sub.addr.toNat / 2 ^ 24 = 10 ∨ sub.addr.toNat / 2 ^ 20 = 0xac1 ∧ 12 ≤ sub.bitCount ∨
    sub.addr.toNat / 2 ^ 16 = 0xc0a8 ∧ 16 ≤ sub.bitCount

/-- A block of numbers around a private one is private when it is no larger than
the private block.  Otherwise it holds a neighbour of that block. -/
theorem private_block_iff {k n : Nat} (hk : k ≤ 24) (hn : Addr.isPrivate.private4 n = true) :
    (∀ m, Block.Same k n m → Addr.isPrivate.private4 m = true) ↔
      n / 2 ^ 24 = 10 ∨ n / 2 ^ 20 = 0xac1 ∧ k ≤ 20 ∨ n / 2 ^ 16 = 0xc0a8 ∧ k ≤ 16 := by
  simp only [Addr.isPrivate.private4, Bool.or_eq_true, decide_eq_true_eq, or_assoc] at hn ⊢
  constructor
  · intro hall
    obtain hten | hmid | hlast := hn
    · exact .inl hten
    · refine .inr (.inl ⟨hmid, ?_⟩)
      by_contra hlarge
      have hout : Block.Same 21 n 0xac000000 := by
        unfold Block.Same
        omega
      have hin := hall _ (hout.mono (by omega))
      omega
    · refine .inr (.inr ⟨hlast, ?_⟩)
      by_contra hlarge
      have hout : Block.Same 17 n 0xc0a90000 := by
        unfold Block.Same
        omega
      have hin := hall _ (hout.mono (by omega))
      omega
  · rintro (hten | ⟨hmid, hle⟩ | ⟨hlast, hle⟩) m hm
    · exact .inl (Eq.trans (hm.mono hk).symm hten)
    · exact .inr (.inl (Eq.trans (hm.mono hle).symm hmid))
    · exact .inr (.inr (Eq.trans (hm.mono hle).symm hlast))

theorem Handset.private_iff {sub : Prefix} (h : Handset sub) :
    (∀ a, sub.contains a = true → a.is4 = true ∧ a.isPrivate = true) ↔ PrivateMask sub := by
  obtain ⟨n, -, hcount, hhost, hn⟩ := h.exists_bits
  have hvalid := h.valid
  have hprivate := h.isPrivate
  have hfour := h.is4
  obtain ⟨b, hb⟩ : ∃ b, sub.addr = .v4 b := by
    cases haddr : sub.addr with
    | invalid | v6 b z => simp [haddr, Addr.is4] at hfour
    | v4 b => exact ⟨b, rfl⟩
  rw [hb] at hprivate
  have hcontains : ∀ a, sub.contains a = true ↔
      ∃ x : BitVec 32, a = .v4 x ∧ Block.Same sub.hostBits b.toNat x.toNat := by
    intro a
    rw [Prefix.contains_iff, hb]
    cases a with
    | invalid | v6 x z => simp [Addr.bitLen]
    | v4 x => simp [hvalid, Addr.zone, Addr.bitLen, Addr.toNat]
  have hblock := private_block_iff (k := sub.hostBits) (by omega) hprivate
  have hmask : PrivateMask sub ↔ ∀ m, Block.Same sub.hostBits b.toNat m →
      Addr.isPrivate.private4 m = true := by
    rw [hblock, PrivateMask, hb, hcount]
    simp only [Addr.toNat]
    omega
  rw [hmask]
  constructor
  · intro hall m hm
    have hlt : m < 2 ^ 32 := by
      have hend := Block.start_add_le (show sub.hostBits ≤ 32 by omega) b.isLt
      have hin := Block.same_iff.mp hm
      omega
    have hnat : (BitVec.ofNat 32 m).toNat = m := Nat.mod_eq_of_lt hlt
    have hin := (hall (.v4 (BitVec.ofNat 32 m)) ((hcontains _).mpr ⟨_, rfl, by rwa [hnat]⟩)).2
    rwa [Addr.isPrivate, hnat] at hin
  · intro hall a ha
    obtain ⟨x, rfl, hx⟩ := (hcontains a).mp ha
    exact ⟨rfl, hall x.toNat hx⟩

/-- **The network of a subnet the service accepts is private in full exactly
when its mask is no shorter than that of the private block it is in.** -/
theorem subnet_private_iff (hstatic : validateStatic req = .ok ())
    (hne : req.hotspot.subnet ≠ "") (ho : c.netOptionsFor req port = .ok o)
    (hp : planNetwork f servers o = .ok p) :
    ∃ sub, parsePrefix req.hotspot.subnet = some sub ∧ p.hotspotSubnet = sub.masked ∧
      ((∀ a, p.hotspotSubnet.contains a = true → a.is4 = true ∧ a.isPrivate = true) ↔
        PrivateMask sub) := by
  obtain ⟨sub, hsub, hhand⟩ := Handset.of_static hstatic hne
  have hnet := (planNetwork_handset hne hsub hhand.valid ho hp).1
  refine ⟨sub, hsub, hnet, ?_⟩
  rw [hnet]
  simp only [Prefix.contains_masked]
  exact hhand.private_iff

/-- A start with a subnet set by hand, in order otherwise. -/
def startIn (subnet : String) : StartRequest where
  hotspot := { ssid := "Caspian", passphrase := "correct horse", subnet := subnet }
  network := { dnsMode := dnsModeTunnel, onTunnelDown := onTunnelDownBlock
               clientIPv6 := clientIPv6Block }

/-- The plan of that start for the machine on the cable. -/
def planIn (subnet : Prefix) : Except PlanError Plan :=
  planNetwork cabledFacts [.v4 0xCB007107#32]
    { ({} : Config).netOptions with hotspotSubnet := subnet }

/-- A network of 256 private addresses. -/
def homeSubnet : Prefix := .ofAddr (.v4 0xC0A84D00#32) 24

theorem home_subnet_private :
    ∃ p, planIn homeSubnet = .ok p ∧
      ∀ a, p.hotspotSubnet.contains a = true → a.is4 = true ∧ a.isPrivate = true := by
  obtain ⟨p, hp⟩ := Outcome.ok_of_isOk (x := planIn homeSubnet) rfl
  have hstatic : validateStatic (startIn "192.168.77.0/24") = .ok () := by decide
  have ho : ({} : Config).netOptionsFor (startIn "192.168.77.0/24") 0 =
      .ok { ({} : Config).netOptions with hotspotSubnet := homeSubnet } := by decide
  obtain ⟨sub, hsub, -, hall⟩ := subnet_private_iff hstatic (by decide) ho hp
  have hhome : parsePrefix "192.168.77.0/24" = some homeSubnet := by decide
  obtain rfl : sub = homeSubnet := Option.some.inj (hsub.symm.trans hhome)
  exact ⟨p, hp, hall.mpr (.inr (.inr ⟨by decide, by decide⟩))⟩

/-- A private address with a mask of eight bits is taken, and the hotspot is
planned on the sixteen million addresses around it. -/
theorem wide_subnet_public :
    validateStatic (startIn "192.168.0.0/8") = .ok () ∧
      ({} : Config).netOptionsFor (startIn "192.168.0.0/8") 0 =
        .ok { ({} : Config).netOptions with hotspotSubnet := .ofAddr (.v4 0xC0A80000#32) 8 } ∧
      ∃ p, planIn (.ofAddr (.v4 0xC0A80000#32) 8) = .ok p ∧
        p.hotspotSubnet.contains (.v4 0xC0000201#32) = true ∧
        (Addr.v4 0xC0000201#32).isPrivate = false := by
  refine ⟨by decide, by decide, ?_⟩
  have hin : (planIn (.ofAddr (.v4 0xC0A80000#32) 8)).toOption.any
      (fun p => p.hotspotSubnet.contains (.v4 0xC0000201#32)) = true := by decide
  obtain ⟨p, hp, hin⟩ := Outcome.ok_of_any hin
  exact ⟨p, hp, hin, rfl⟩

/-! ## The pool of addresses -/

/-- The addresses given out: both ends in the network, in order, and with no
address between them that is taken. -/
structure ServesPool (d : DNSConfig) : Prop where
  first : d.subnet.contains d.rangeStart = true
  last : d.subnet.contains d.rangeEnd = true
  ordered : d.rangeStart.toNat ≤ d.rangeEnd.toNat
  apart : ∀ a, a = d.gateway ∨ a = d.subnet.masked.addr ∨ IsBroadcast d.subnet a →
    ¬(d.rangeStart.toNat ≤ a.toNat ∧ a.toNat ≤ d.rangeEnd.toNat)

/-- The DHCP and DNS configuration `hotspotPlanFor` makes. -/
def Config.dnsFor (c : Config) (p : Plan) : Except Failure DNSConfig := do
  let first ← (nthAddress p.hotspotSubnet dhcpFirstOffset).mapError fun e =>
    (⟨"dhcp range", .unknown, e⟩ : Failure)
  let last ← (nthAddress p.hotspotSubnet dhcpLastOffset).mapError fun e =>
    (⟨"dhcp range", .unknown, e⟩ : Failure)
  return {
    interface := p.hotspot
    subnet := p.hotspotSubnet
    gateway := p.hotspotGateway
    rangeStart := first
    rangeEnd := last
    leaseTime := dhcpLeaseTime
    leaseFile := c.leaseFile
    upstream := (.v4 0x7f000001, c.localDNSPort)
    cacheSize := dnsCacheSize }

/-- `hotspotPlanFor` makes that configuration and has it validated. -/
theorem Config.hotspotPlanFor_dns {c : Config} {generated country : String} {p : Plan} {f : Facts}
    {req : StartRequest} (hcountry : country ≠ "") :
    c.hotspotPlanFor generated p f req country = c.dnsFor p >>= fun dns =>
      ((if c.platform = .windows then newMobileHotspotPlan else newPlan) generated
        (c.accessPoint p req country) dns
        (radioConstraintFor f p (renderedChannel p req))).mapError fun e =>
          (⟨"hotspot configuration", hotspotFault e, e⟩ : Failure) := by
  rw [Config.hotspotPlanFor, if_neg hcountry, Config.dnsFor]
  cases (nthAddress p.hotspotSubnet dhcpFirstOffset) with
  | error e => rfl
  | ok first =>
    cases (nthAddress p.hotspotSubnet dhcpLastOffset) with
    | error e | ok last => rfl

/-- Counting `n` addresses on stays in the network as far as its block goes. -/
theorem nextAddresses_nth {p : Prefix} (hp : p.isValid = true) (n : Nat) {i : Nat} {a : Addr}
    (ha : p.Nth i a) (hi : i < 2 ^ p.hostBits) :
    (i + n < 2 ^ p.hostBits → ∃ b, nextAddresses p n a = .ok b ∧ p.Nth (i + n) b) ∧
      (∀ b, nextAddresses p n a = .ok b → i + n < 2 ^ p.hostBits) := by
  induction n generalizing i a with
  | zero => exact ⟨fun _ => ⟨a, rfl, ha⟩, fun _ _ => hi⟩
  | succ n ih =>
    obtain ⟨hin, hnext⟩ := ha.next hp
    rw [nextAddresses, ← Nat.add_assoc, Nat.add_right_comm]
    by_cases hroom : i + 1 < 2 ^ p.hostBits
    · obtain ⟨hvalid, hcontains⟩ := hin.mpr hroom
      rw [if_neg (by simp [hvalid, hcontains])]
      exact ih (hnext hroom) hroom
    · refine ⟨fun h => by omega, fun b hb => ?_⟩
      obtain ⟨hstay, -⟩ := Outcome.guard_ok hb
      rw [← Bool.not_eq_true, ← Bool.not_eq_true, ← not_and_or, not_not] at hstay
      exact absurd (hin.mp hstay) hroom

theorem nthAddress_nth {p : Prefix} (hp : p.isValid = true) (n : Nat) :
    (n < 2 ^ p.hostBits → ∃ b, nthAddress p n = .ok b ∧ p.Nth n b) ∧
      (∀ b, nthAddress p n = .ok b → n < 2 ^ p.hostBits) := by
  have hcount := nextAddresses_nth hp n (Prefix.nth_masked hp) (Nat.two_pow_pos _)
  rw [Nat.zero_add] at hcount
  rw [nthAddress, if_neg (by simp [hp])]
  exact hcount

/-- The configuration is made for a network with room for the whole range, and
refused for the range otherwise. -/
theorem dnsFor_room (hp : p.hotspotSubnet.isValid = true) {dns : DNSConfig}
    (h : c.dnsFor p = .ok dns) : dhcpLastOffset < 2 ^ p.hotspotSubnet.hostBits := by
  obtain ⟨first, -, h⟩ := Outcome.bind_ok h
  obtain ⟨last, hlast, -⟩ := Outcome.bind_ok h
  exact (nthAddress_nth hp _).2 _ (Outcome.mapError_ok hlast)

theorem dnsFor_errs (c : Config) (p : Plan) :
    Outcome.Errs (fun e => e.place = "dhcp range") (c.dnsFor p) := by
  have hcount : ∀ n, Outcome.Errs (fun e : Failure => e.place = "dhcp range")
      ((nthAddress p.hotspotSubnet n).mapError fun e => ⟨"dhcp range", .unknown, e⟩) := by
    intro n e h
    cases hn : nthAddress p.hotspotSubnet n with
    | ok a =>
      rw [hn] at h
      cases h
    | error cause =>
      rw [hn] at h
      rw [← Except.error.inj h]
  exact (hcount _).bind fun _ _ => (hcount _).bind fun _ _ => Outcome.errs_ok _

/-- The settings `DNSConfig.Validate` looks at beside the addresses. -/
def InOrder (c : Config) (p : Plan) : Prop :=
  validConfigToken "interface" p.hotspot = .ok () ∧
    validAbsPath "lease file" c.leaseFile = .ok () ∧ c.localDNSPort ≠ 0

/-- Masking a network again changes nothing. -/
theorem masked_masked_addr {p : Prefix} (hp : p.isValid = true) :
    p.masked.masked.addr = p.masked.addr := by
  have hq : p.masked.isValid = true := by rw [Prefix.isValid_masked, hp]
  refine Nth.unique (Prefix.nth_masked hq) ⟨rfl, (Prefix.nth_masked hp).zone, ?_⟩
  rw [Prefix.hostBits_masked hp, Nat.add_zero, Prefix.toNat_masked hp]
  exact congrArg (· * 2 ^ p.hostBits) (Block.start_same p.hostBits p.addr.toNat)

/-- A network with room for the pool. -/
theorem servesPool_of_nth {d : DNSConfig} (hvalid : d.subnet.isValid = true)
    (hroom : 8 ≤ d.subnet.hostBits) (hgw : d.subnet.Nth 1 d.gateway)
    (hfirst : d.subnet.Nth dhcpFirstOffset d.rangeStart)
    (hlast : d.subnet.Nth dhcpLastOffset d.rangeEnd) : ServesPool d := by
  have hsize : 256 ≤ 2 ^ d.subnet.hostBits :=
    (Nat.pow_le_pow_right (by decide) hroom : 2 ^ 8 ≤ 2 ^ d.subnet.hostBits)
  have hf := hfirst.number
  have hl := hlast.number
  have hzero := (Prefix.nth_masked hvalid).number
  have hg := hgw.number
  unfold dhcpFirstOffset at hfirst hf
  unfold dhcpLastOffset at hlast hl
  refine ⟨(hfirst.contains_iff hvalid).mpr (by omega), (hlast.contains_iff hvalid).mpr (by omega),
    by omega, ?_⟩
  rintro a (rfl | rfl | ⟨-, hmax⟩) ⟨hlow, hhigh⟩
  · omega
  · omega
  · -- The last address of the pool is followed by another one of the network.
    obtain ⟨hin, hnext⟩ := hlast.next hvalid
    have hle := hmax _ (hin.mpr (by omega)).2
    have hnum := (hnext (by omega)).number
    omega

theorem insideSubnet_ok {subnet : Prefix} {name : String} {a : Addr}
    (hfour : subnet.addr.is4 = true) (h : subnet.contains a = true) :
    insideSubnet subnet name a = .ok () := by
  obtain ⟨hvalid, his4, -⟩ := Prefix.contains_family h
  rw [insideSubnet, if_neg (by simp [hvalid, his4, hfour]), if_neg (by simp [h])]

/-- A pool in order is accepted with the rest of the settings in order. -/
theorem dnsFor_validate {c : Config} {p : Plan} {dns : DNSConfig} (h : c.dnsFor p = .ok dns)
    (hpool : ServesPool dns) (horder : InOrder c p) (hvalid : dns.subnet.isValid = true)
    (hfour : dns.subnet.addr.is4 = true)
    (hbits : ¬(dns.subnet.bitCount < 8 ∨ 30 < dns.subnet.bitCount))
    (hmasked : dns.subnet.addr = dns.subnet.masked.addr)
    (hgw : dns.subnet.contains dns.gateway = true) (ap : APConfig) :
    (dns.withDefaults ap).validate = .ok () := by
  obtain ⟨first, -, h⟩ := Outcome.bind_ok h
  obtain ⟨last, -, h⟩ := Outcome.bind_ok h
  obtain rfl := Except.ok.inj h
  obtain ⟨hname, hlease, hport⟩ := horder
  have hne : p.hotspot ≠ "" := by
    intro hempty
    rw [hempty] at hname
    cases hname
  have hapart := hpool.apart _ (.inl rfl)
  have hloop : (Addr.v4 0x7f000001).text ∉ Hotspot.bannedResolvers := by decide
  have haccount : validServiceAccount "service user" Hotspot.defaultServiceUser = .ok () ∧
      validServiceAccount "service group" Hotspot.defaultServiceGroup = .ok () := ⟨rfl, rfl⟩
  simp only [DNSConfig.validate, DNSConfig.withDefaults, if_neg hne, hname, hlease,
    insideSubnet_ok hfour hgw, insideSubnet_ok hfour hpool.first, insideSubnet_ok hfour hpool.last,
    hvalid, hfour, if_neg hbits, hmasked.symm, ne_eq, not_true_eq_false, if_false, hapart,
    not_lt.mpr hpool.ordered, Bool.true_eq_false, bind, Except.bind, pure,
    Except.pure, hloop, if_true, haccount]
  rw [if_neg (by decide), if_neg (by simp [hport, Addr.isValid]), if_neg (by decide),
    if_neg (by decide)]

/-- **A subnet the service accepts has a pool of addresses exactly when its mask
is no longer than 24 bits.**  The DHCP range counts fifty and two hundred
addresses into the network whatever its size. -/
theorem subnet_pool_iff (hstatic : validateStatic req = .ok ())
    (hne : req.hotspot.subnet ≠ "") (ho : c.netOptionsFor req port = .ok o)
    (hp : planNetwork f servers o = .ok p) :
    ∃ sub, parsePrefix req.hotspot.subnet = some sub ∧
      ((∃ dns, c.dnsFor p = .ok dns ∧ ServesPool dns ∧
          (InOrder c p → ∀ ap, (dns.withDefaults ap).validate = .ok ())) ↔
        sub.bitCount ≤ 24) ∧
      (24 < sub.bitCount → ∀ generated country, country ≠ "" →
        ∃ e, c.hotspotPlanFor generated p f req country = .error e ∧ e.place = "dhcp range") := by
  obtain ⟨sub, hsub, hhand⟩ := Handset.of_static hstatic hne
  obtain ⟨hnet, hgw⟩ := planNetwork_handset hne hsub hhand.valid ho hp
  obtain ⟨n, hn, hcount, hhost, hle⟩ := hhand.exists_bits
  have hvalid : p.hotspotSubnet.isValid = true := by rw [hnet, Prefix.isValid_masked, hhand.valid]
  have hfree : p.hotspotSubnet.hostBits = 32 - n := by
    rw [hnet, Prefix.hostBits_masked hhand.valid, hhost]
  have hlong : ∀ dns, c.dnsFor p = .ok dns → sub.bitCount ≤ 24 := by
    intro dns hdns
    have hin := dnsFor_room hvalid hdns
    rw [hfree] at hin
    rw [hcount]
    by_contra hgt
    have hsmall : 2 ^ (32 - n) ≤ 2 ^ 7 := Nat.pow_le_pow_right (by decide) (by omega)
    unfold dhcpLastOffset at hin
    omega
  refine ⟨sub, hsub, ⟨fun ⟨dns, hdns, _⟩ => hlong dns hdns, ?_⟩, ?_⟩
  · intro hshort
    have hroom : 8 ≤ p.hotspotSubnet.hostBits := by omega
    have hsize : 2 ^ 8 ≤ 2 ^ p.hotspotSubnet.hostBits := Nat.pow_le_pow_right (by decide) hroom
    obtain ⟨first, hfirst, hfirst'⟩ := (nthAddress_nth hvalid dhcpFirstOffset).1
      (lt_of_lt_of_le (by decide) hsize)
    obtain ⟨last, hlast, hlast'⟩ := (nthAddress_nth hvalid dhcpLastOffset).1
      (lt_of_lt_of_le (by decide) hsize)
    rw [← hnet, gatewayAddr_ok] at hgw
    have hdns : ∃ dns, c.dnsFor p = .ok dns ∧ dns.subnet = p.hotspotSubnet ∧
        dns.gateway = p.hotspotGateway ∧ dns.rangeStart = first ∧ dns.rangeEnd = last := by
      unfold Config.dnsFor
      rw [hfirst, hlast]
      exact ⟨_, rfl, rfl, rfl, rfl, rfl⟩
    obtain ⟨dns, hdns, hsubnet, hgateway, rfl, rfl⟩ := hdns
    rw [← hsubnet] at hvalid hroom hfirst' hlast' hgw
    rw [← hgateway] at hgw
    have hpool := servesPool_of_nth hvalid hroom hgw.2 hfirst' hlast'
    refine ⟨dns, hdns, hpool, fun horder ap => ?_⟩
    have hsub' := hsubnet.trans hnet
    refine dnsFor_validate hdns hpool horder hvalid ?_ ?_ ?_ ?_ ap
    · rw [hsub', Prefix.is4_masked hhand.valid, hhand.is4]
    · rw [hsub', Prefix.bitCount, (Prefix.masked_ok hn).2]
      show ¬((n : Int) < 8 ∨ 30 < (n : Int))
      omega
    · rw [hsub', masked_masked_addr hhand.valid]
    · exact (hgw.2.contains_iff hvalid).mpr (by rw [hsubnet]; omega)
  · intro hgt generated country hcountry
    rw [Config.hotspotPlanFor_dns hcountry]
    cases hdns : c.dnsFor p with
    | ok dns => exact absurd (hlong dns hdns) (by omega)
    | error e => exact ⟨e, rfl, dnsFor_errs c p e hdns⟩

/-- The network of 256 addresses has its pool. -/
theorem home_subnet_pool :
    ∃ p dns, planIn homeSubnet = .ok p ∧ ({} : Config).dnsFor p = .ok dns ∧ ServesPool dns := by
  obtain ⟨p, hp⟩ := Outcome.ok_of_isOk (x := planIn homeSubnet) rfl
  have hstatic : validateStatic (startIn "192.168.77.0/24") = .ok () := by decide
  have ho : ({} : Config).netOptionsFor (startIn "192.168.77.0/24") 0 =
      .ok { ({} : Config).netOptions with hotspotSubnet := homeSubnet } := by decide
  obtain ⟨sub, hsub, hall, -⟩ := subnet_pool_iff hstatic (by decide) ho hp
  have hhome : parsePrefix "192.168.77.0/24" = some homeSubnet := by decide
  obtain rfl : sub = homeSubnet := Option.some.inj (hsub.symm.trans hhome)
  obtain ⟨dns, hdns, hpool, -⟩ := hall.mpr (by decide)
  exact ⟨p, dns, hp, hdns, hpool⟩

/-- A network of sixteen addresses is taken, planned on, and refused when the
access point is rendered. -/
theorem small_subnet_refused :
    validateStatic (startIn "192.168.77.0/28") = .ok () ∧
      ({} : Config).netOptionsFor (startIn "192.168.77.0/28") 0 =
        .ok { ({} : Config).netOptions with hotspotSubnet := .ofAddr (.v4 0xC0A84D00#32) 28 } ∧
      ∃ p, planIn (.ofAddr (.v4 0xC0A84D00#32) 28) = .ok p ∧
        ({} : Config).hotspotPlanFor "" p cabledFacts (startIn "192.168.77.0/28") "DE" =
          .error ⟨"dhcp range", .unknown,
            "privsvc: the hotspot subnet is too small for a DHCP pool"⟩ := by
  refine ⟨by decide, by decide, ?_⟩
  have hrefused : (planIn (.ofAddr (.v4 0xC0A84D00#32) 28)).toOption.any (fun p =>
      ({} : Config).hotspotPlanFor "" p cabledFacts (startIn "192.168.77.0/28") "DE" =
        .error ⟨"dhcp range", .unknown,
          "privsvc: the hotspot subnet is too small for a DHCP pool"⟩) = true := by decide
  obtain ⟨p, hp, hrefused⟩ := Outcome.ok_of_any hrefused
  exact ⟨p, hp, of_decide_eq_true hrefused⟩

end Caspian.Privsvc
