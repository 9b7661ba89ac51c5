import Caspian.Netcfg.Pf
import Caspian.Netcfg.Addresses
import Caspian.Netcfg.NextHop

/-!
# What the macOS anchor lets through

The text `darwinRulesetFor` prints, loaded as pf loads it, and the fate of every
packet that arrives on the sharing bridge.  `anchorTokens` and `anchorLines` are
the two readings of the text on the way: its words, and its rules.  The text is
refused as a whole unless the hotspot's network is IPv4 and both ports are port
numbers (`load_darwinRulesetFor`).

The rules that stop or steer a client all say `from` the hotspot's network, and
no rule is for the rest.  So the anchor is closed for the packets it has a rule
for, and a client that sends from an address of its own choosing is left to the
rules of the machine.
-/

namespace Caspian.Netcfg

open Verified Verified.Lexer Netip

/-! ## The anchor as it is read -/

namespace Plan

/-- What each line of the anchor is meant as. -/
def anchorLines (p : Plan) (state : ForwardState) : List (Option Pf.Rule) :=
  let any : Pf.Criteria := { iface := darwinSharingBridge, family := .inet }
  let hot : Pf.Criteria := { any with src := { net := some p.hotspotSubnet } }
  let gateway : Pf.Endpoint :=
    { net := some (.ofAddr p.hotspotGateway p.hotspotGateway.bitLen) }
  [ none,
    none,
    some (.rdr { hot with protos := [.tcp, .udp], dst := { port := some 53 } }
      (.v4 0x7F000001#32) (UInt16.ofNat p.opts.dnsPort.toNat)),
    some (.block { any with family := .inet6 }),
    some (.pass { any with
      protos := [.udp], src := { port := some 68 }, dst := { port := some 67 } }),
    some (.pass { hot with
      protos := [.tcp]
      dst := { gateway with port := some (UInt16.ofNat p.opts.panelPort.toNat) } }),
    some (.pass { hot with protos := [.icmp], dst := gateway }),
    some (.block { hot with dst := gateway }),
    some (.block { hot with protos := [.tcp, .udp], dst := { port := some 853 } }),
    (match state with
      | .normal => some (.routeTo hot p.tun (.v4 0xA9FE0A01#32))
      | .cut => none),
    some (.block hot) ]

/-- What holds of every plan: the gateway is one of the hotspot's addresses and
the names are names. -/
structure Sited (p : Plan) : Prop where
  gateway : p.hotspotSubnet.contains p.hotspotGateway = true
  tun : validInterfaceName p.tun = true
  uplink : '\n' ∉ p.uplink.toList

/-- What pf needs of the plan to take its anchor. -/
structure Anchorable (p : Plan) : Prop where
  v4 : p.hotspotSubnet.addr.is4 = true
  dns : IsPort p.opts.dnsPort
  panel : IsPort p.opts.panelPort

end Plan

section Reading

variable {p : Plan} (hs : p.Sited)
include hs

theorem Plan.Sited.subnet : p.hotspotSubnet.isValid = true := (Prefix.contains_iff.mp hs.gateway).1

theorem Plan.Sited.zone : p.hotspotGateway.zone = "" := (Prefix.contains_iff.mp hs.gateway).2.1

theorem Plan.Sited.valid : p.hotspotGateway.isValid = true := (Prefix.contains_family hs.gateway).1

theorem Plan.Sited.is4 : p.hotspotGateway.is4 = p.hotspotSubnet.addr.is4 :=
  (Prefix.contains_family hs.gateway).2.1

/-- The tokens the anchor's lines are made of. -/
def Plan.anchorTokens (p : Plan) (state : ForwardState) : List (List Token) :=
  let on : List Token := [.word "on", .word darwinSharingBridge]
  let block : List Token := [.word "block", .word "drop", .word "in", .word "quick"] ++ on
  let pass : List Token := [.word "pass", .word "in", .word "quick"] ++ on
  let both : List Token :=
    [.word "proto", .mark '\x7b', .word "tcp", .mark ',', .word "udp", .mark '\x7d']
  let hot : List Token := [.word "from", .word p.hotspotSubnet.text, .word "to"]
  let gw : List Token := [.word p.hotspotGateway.text]
  [ [], [],
    [.word "rdr", .word "pass"] ++ on ++ .word "inet" :: both ++ hot ++
      [.word "any", .word "port", .word "53", .word "->", .word "127.0.0.1", .word "port",
        .word (itoaInt p.opts.dnsPort)],
    block ++ [.word "inet6", .word "all"],
    pass ++ [.word "inet", .word "proto", .word "udp", .word "from", .word "any", .word "port",
      .word "68", .word "to", .word "any", .word "port", .word "67"],
    pass ++ [.word "inet", .word "proto", .word "tcp"] ++ hot ++ gw ++
      [.word "port", .word (itoaInt p.opts.panelPort)],
    pass ++ [.word "inet", .word "proto", .word "icmp"] ++ hot ++ gw,
    block ++ [.word "inet"] ++ hot ++ gw,
    block ++ .word "inet" :: both ++ hot ++ [.word "any", .word "port", .word "853"],
    (match state with
      | .normal =>
        pass ++ [.word "route-to", .mark '(', .word p.tun, .word "169.254.10.1", .mark ')',
          .word "inet"] ++ hot ++ [.word "any", .word "keep", .word "state"]
      | .cut => []),
    block ++ [.word "inet"] ++ hot ++ [.word "any"] ]

theorem tokens_darwinRulesetLines (state : ForwardState) :
    (p.darwinRulesetLines state).map tokens = (p.anchorTokens state).map some := by
  have hsubne : p.hotspotSubnet.text ≠ "" := p.hotspotSubnet.text_ne (by decide) (by decide)
  have hgwne : p.hotspotGateway.text ≠ "" :=
    p.hotspotGateway.text_ne (by decide) (by decide) (by decide)
  obtain ⟨htunne, htunplain⟩ := plain_iface hs.tun
  have hhot := fun rest => scan_word hsubne (plain_prefixText hs.subnet) rest
  have hgateway := fun rest => scan_word hgwne (plain_addr hs.valid hs.zone) rest
  have hlast := scan_lastWord hgwne (plain_addr hs.valid hs.zone)
  have hport := fun n => scan_lastWord (itoaInt_ne_empty n) (plain_itoaInt n)
  simp only [Plan.darwinRulesetLines, tokens, darwinSharingBridge, darwinAnchor,
    List.map_cons, List.map_nil, String.toList_append]
  repeat rw [String.toList_ofList]
  simp [scan, Lexer.isBlank, isMark, collected, hhot, hgateway, hport, hlast, Plan.anchorTokens,
    darwinSharingBridge]
  -- What is left is the steering rule, or the comment in its place.
  cases state with
  | normal =>
    simp only [darwinTunPeer, String.toList_append]
    repeat rw [String.toList_ofList]
    simp [scan, Lexer.isBlank, isMark, collected, hhot, scan_word htunne htunplain]
  | cut =>
    simp only []
    rw [String.toList_ofList]
    rfl

theorem oneLine_darwinRulesetLines (state : ForwardState) :
    ∀ l ∈ p.darwinRulesetLines state, '\n' ∉ l.toList := by
  have hhot := lf_notMem (plain_prefixText hs.subnet)
  have hgateway := lf_notMem (plain_addr hs.valid hs.zone)
  have hname := lf_notMem (plain_iface hs.tun).2
  have hport := fun n => lf_notMem (plain_itoaInt n)
  have hup := hs.uplink
  simp only [Plan.darwinRulesetLines, darwinSharingBridge, darwinAnchor, List.forall_mem_cons,
    String.toList_append, List.mem_append]
  repeat rw [String.toList_ofList]
  cases state with
  | normal =>
    simp only [darwinTunPeer, String.toList_append, List.mem_append]
    repeat rw [String.toList_ofList]
    simp [hhot, hgateway, hname, hport, hup]
  | cut =>
    simp only []
    repeat rw [String.toList_ofList]
    simp [hhot, hgateway, hname, hport, hup]

/-- What each line of the anchor is read as. -/
theorem ruleOf_anchorTokens (h : p.Anchorable) (state : ForwardState) :
    (p.anchorTokens state).map Pf.ruleOf = (p.anchorLines state).map some := by
  have hany : Pf.network .inet "any" = some none := rfl
  have hhot : Pf.network .inet p.hotspotSubnet.text = some (some p.hotspotSubnet) :=
    (Pf.network_prefix hs.subnet).trans (if_pos h.v4)
  have hgateway : Pf.network .inet p.hotspotGateway.text =
      some (some (.ofAddr p.hotspotGateway p.hotspotGateway.bitLen)) :=
    (Pf.network_addr hs.valid hs.zone).trans (if_pos (hs.is4.trans h.v4))
  have hport : ∀ n, IsPort n → parsePort (itoaInt n) = some (UInt16.ofNat n.toNat) :=
    fun n hn => (parsePort_itoaInt n).trans (if_pos hn)
  have h53 : parsePort "53" = some 53 := by decide
  have h67 : parsePort "67" = some 67 := by decide
  have h68 : parsePort "68" = some 68 := by decide
  have h853 : parsePort "853" = some 853 := by decide
  have hloop : parseAddr "127.0.0.1" = some (.v4 0x7F000001#32) := by decide
  have hpeer : parseAddr "169.254.10.1" = some (.v4 0xA9FE0A01#32) := by decide
  have hv6 : Pf.criteria darwinSharingBridge [.word "inet6", .word "all"] =
      some ({ iface := darwinSharingBridge, family := .inet6 }, []) := rfl
  simp only [Plan.anchorTokens, List.map_cons, List.map_nil, List.cons_append, List.nil_append]
  rw [Pf.ruleOf_rdr hloop (Pf.criteria_ok rfl rfl (Pf.endpoint_net hhot rfl)
        ((Pf.endpoint_port hany).trans (by rw [h53]; rfl))), hport _ h.dns,
    Pf.ruleOf_block, hv6,
    Pf.ruleOf_pass rfl, Pf.criteria_ok rfl rfl ((Pf.endpoint_port hany).trans (by rw [h68]; rfl))
      ((Pf.endpoint_port hany).trans (by rw [h67]; rfl)),
    Pf.ruleOf_pass rfl, Pf.criteria_ok rfl rfl (Pf.endpoint_net hhot rfl)
      ((Pf.endpoint_port hgateway).trans (by rw [hport _ h.panel]; rfl)),
    Pf.ruleOf_pass rfl, Pf.criteria_ok rfl rfl (Pf.endpoint_net hhot rfl)
      (Pf.endpoint_net hgateway rfl),
    Pf.ruleOf_block, Pf.criteria_ok rfl rfl (Pf.endpoint_net hhot rfl)
      (Pf.endpoint_net hgateway rfl),
    Pf.ruleOf_block, Pf.criteria_ok rfl rfl (Pf.endpoint_net hhot rfl)
      ((Pf.endpoint_port hany).trans (by rw [h853]; rfl)),
    Pf.ruleOf_block, Pf.criteria_ok rfl rfl (Pf.endpoint_net hhot rfl)
      (Pf.endpoint_net hany rfl)]
  cases state with
  | normal =>
    simp only
    rw [Pf.ruleOf_routeTo hpeer (Pf.criteria_ok rfl rfl (Pf.endpoint_net hhot rfl)
      (Pf.endpoint_net hany rfl))]
    rfl
  | cut => rfl

/-- A line pf cannot read is in every other anchor. -/
theorem anchorable_of_ruleOf {state : ForwardState}
    (h : none ∉ (p.anchorTokens state).map Pf.ruleOf) : p.Anchorable := by
  have hany : Pf.network .inet "any" = some none := rfl
  have hread : ∀ ts ∈ p.anchorTokens state, Pf.ruleOf ts ≠ none :=
    fun ts hts hnone => h (List.mem_map.mpr ⟨ts, hts, hnone⟩)
  have h4 : p.hotspotSubnet.addr.is4 = true := by
    by_contra hnot
    have hhot : Pf.network .inet p.hotspotSubnet.text = none :=
      (Pf.network_prefix hs.subnet).trans (if_neg hnot)
    refine hread _ (List.mem_of_getElem? (i := 10) rfl) ?_
    simp only [List.cons_append, List.nil_append]
    rw [Pf.ruleOf_block, Pf.criteria_refused rfl rfl (.inl (Pf.endpoint_refused hhot))]
    rfl
  have hhot : Pf.network .inet p.hotspotSubnet.text = some (some p.hotspotSubnet) :=
    (Pf.network_prefix hs.subnet).trans (if_pos h4)
  have hgateway : Pf.network .inet p.hotspotGateway.text =
      some (some (.ofAddr p.hotspotGateway p.hotspotGateway.bitLen)) :=
    (Pf.network_addr hs.valid hs.zone).trans (if_pos (hs.is4.trans h4))
  refine ⟨h4, ?_, ?_⟩
  · by_contra hnot
    have hloop : parseAddr "127.0.0.1" = some (.v4 0x7F000001#32) := by decide
    have h53 : parsePort "53" = some 53 := by decide
    refine hread _ (List.mem_of_getElem? (i := 2) rfl) ?_
    simp only [List.cons_append, List.nil_append]
    rw [Pf.ruleOf_rdr hloop (Pf.criteria_ok rfl rfl (Pf.endpoint_net hhot rfl)
      ((Pf.endpoint_port hany).trans (by rw [h53]; rfl))), parsePort_itoaInt, if_neg hnot]
    rfl
  · by_contra hnot
    refine hread _ (List.mem_of_getElem? (i := 5) rfl) ?_
    simp only [List.cons_append, List.nil_append]
    rw [Pf.ruleOf_pass rfl, Pf.criteria_refused rfl rfl (.inr ⟨_, _, Pf.endpoint_net hhot rfl,
      (Pf.endpoint_port hgateway).trans (by rw [parsePort_itoaInt, if_neg hnot]; rfl)⟩)]
    rfl

/-- **The anchor pf loads** is the one the lines are meant as. -/
theorem load_darwinRulesetFor {state : ForwardState} {rules : List Pf.Rule} :
    Pf.load (p.darwinRulesetFor state) = some rules ↔
      p.Anchorable ∧ (p.anchorLines state).reduceOption = rules := by
  have hmap : (p.darwinRulesetLines state).map Pf.parseLine =
      (p.anchorTokens state).map Pf.ruleOf := by
    have hparse : Pf.parseLine = fun l => (tokens l).bind Pf.ruleOf := rfl
    rw [hparse, ← Function.comp_def (fun t => Option.bind t Pf.ruleOf), ← List.map_map,
      tokens_darwinRulesetLines hs, List.map_map]
    rfl
  have hjoin : (p.darwinRulesetLines state).filterMap (fun l => (Pf.parseLine l).join) =
      ((p.anchorTokens state).map Pf.ruleOf).filterMap Option.join := by
    rw [← hmap, List.filterMap_map]
    rfl
  have hmeant : ((p.anchorLines state).map some).filterMap Option.join =
      (p.anchorLines state).reduceOption := by
    rw [List.filterMap_map]
    rfl
  rw [Pf.load, Plan.darwinRulesetFor,
    readLines_unlines rfl (oneLine_darwinRulesetLines hs state), readAll_ok, hmap, hjoin]
  constructor
  · rintro ⟨hnone, hrules⟩
    have h := anchorable_of_ruleOf hs hnone
    rw [ruleOf_anchorTokens hs h, hmeant] at hrules
    exact ⟨h, hrules⟩
  · rintro ⟨h, hrules⟩
    rw [ruleOf_anchorTokens hs h, hmeant]
    exact ⟨by simp, hrules⟩

end Reading

/-! ## What becomes of a packet -/

/-- What a packet may come to: it is answered on this machine, steered into the
tunnel unless forwarding is cut, or dropped. -/
def Plan.Closed (p : Plan) (state : ForwardState) (pkt : Packet) : Pf.Fate → Prop
  | .redirected a q =>
    a = .v4 0x7F000001#32 ∧ q = UInt16.ofNat p.opts.dnsPort.toNat ∧
      pkt.transport.dport = some 53
  | .passed =>
    pkt.transport = .udp 68 67 ∨
      pkt.dst = p.hotspotGateway ∧
        (pkt.transport.isOf .icmp = true ∨
          pkt.transport.isOf .tcp = true ∧
            pkt.transport.dport = some (UInt16.ofNat p.opts.panelPort.toNat))
  | .steered out => state = .normal ∧ out = p.tun
  | .dropped => True
  | .unmatched => False

/-- The packets the anchor has a rule for. -/
def Plan.Covered (p : Plan) (pkt : Packet) : Prop :=
  pkt.src.is6 = true ∨ pkt.transport = .udp 68 67 ∨ p.hotspotSubnet.contains pkt.src = true

section Packets

variable {p : Plan} {state : ForwardState} {pkt : Packet}

/-- A rule of the anchor that decides a packet is for such a packet, and decides
it well. -/
theorem closed_of_rule (hs : p.Sited) {r : Pf.Rule}
    (hr : r ∈ (p.anchorLines state).reduceOption) (hmet : r.criteria.Met darwinSharingBridge pkt) :
    p.Covered pkt ∧ p.Closed state pkt r.outcome := by
  have hhost : ∀ {a}, (Prefix.ofAddr p.hotspotGateway p.hotspotGateway.bitLen).contains a = true →
      a = p.hotspotGateway := (Prefix.contains_host hs.valid hs.zone).mp
  have hcov : ∀ {k : Pf.Criteria}, k.Met darwinSharingBridge pkt →
      k.src.net = some p.hotspotSubnet → p.Covered pkt :=
    fun hk hnet => .inr (.inr (hk.src _ hnet))
  rw [List.reduceOption_mem_iff] at hr
  simp only [Plan.anchorLines, List.mem_cons, List.not_mem_nil, reduceCtorEq, Option.some.injEq,
    false_or, or_false] at hr
  rcases hr with rfl | rfl | rfl | rfl | rfl | rfl | rfl | hr | rfl
  · exact ⟨hcov hmet rfl, rfl, rfl, hmet.dport _ rfl⟩
  · exact ⟨.inl hmet.family, trivial⟩
  · have hudp : pkt.transport.isOf .udp = true := hmet.single rfl
    have hdhcp := Transport.udp_iff.mp ⟨hudp, hmet.sport _ rfl, hmet.dport _ rfl⟩
    exact ⟨.inr (.inl hdhcp), .inl hdhcp⟩
  · have htcp : pkt.transport.isOf .tcp = true := hmet.single rfl
    exact ⟨hcov hmet rfl, .inr ⟨hhost (hmet.dst _ rfl), .inr ⟨htcp, hmet.dport _ rfl⟩⟩⟩
  · have hicmp : pkt.transport.isOf .icmp = true := hmet.single rfl
    exact ⟨hcov hmet rfl, .inr ⟨hhost (hmet.dst _ rfl), .inl hicmp⟩⟩
  · exact ⟨hcov hmet rfl, trivial⟩
  · exact ⟨hcov hmet rfl, trivial⟩
  · -- The steering rule is there in the normal state only.
    cases state with
    | normal =>
      obtain rfl := Option.some.inj hr
      exact ⟨hcov hmet rfl, rfl, rfl⟩
    | cut => cases hr
  · exact ⟨hcov hmet rfl, trivial⟩

/-- Every such packet meets a rule: IPv6 is blocked whole, and the last rule is
for all the hotspot's addresses. -/
theorem met_of_covered (h : p.Covered pkt) :
    ∃ r ∈ (p.anchorLines state).reduceOption, r.criteria.Met darwinSharingBridge pkt := by
  have hin : ∀ {i : Nat} {r : Pf.Rule}, (p.anchorLines state)[i]? = some (some r) →
      r ∈ (p.anchorLines state).reduceOption :=
    fun hi => List.reduceOption_mem_iff.mpr (List.mem_of_getElem? hi)
  by_cases h6 : pkt.src.is6 = true
  · exact ⟨_, hin (i := 3) rfl, rfl, h6, by simp, by simp, by simp, by simp, by simp⟩
  have h4 : pkt.src.is4 = true := by
    have hvalid := pkt.wf.1
    cases hsrc : pkt.src with
    | invalid => rw [hsrc] at hvalid; cases hvalid
    | v4 _ => rfl
    | v6 _ _ => rw [hsrc] at h6; exact absurd rfl h6
  rcases h with h | h | h
  · exact absurd h h6
  · obtain ⟨hudp, hsport, hdport⟩ := Transport.udp_iff.mpr h
    exact ⟨_, hin (i := 4) rfl, rfl, h4, by simpa using hudp, by simp, by simpa using hsport,
      by simp, by simpa using hdport⟩
  · exact ⟨_, hin (i := 10) rfl, rfl, h4, by simp, by simpa using h, by simp, by simp, by simp⟩

end Packets

theorem Planned.gateway {p : Plan} (h : Planned p) :
    p.hotspotSubnet.contains p.hotspotGateway = true := by
  induction h with
  | network h => exact (gatewayAddr_isHost (planNetwork_placed h).gateway).1
  | takeover _ h ih =>
    obtain ⟨_, w, _, _, rfl⟩ := hotspotTakeover_from h
    exact ih

/-- Every plan for macOS is sited, if the uplink's name is one line. -/
theorem Planned.sited {p : Plan} (h : Planned p) (hdarwin : p.platform = .darwin)
    (hup : '\n' ∉ p.uplink.toList) : p.Sited := by
  refine ⟨h.gateway, ?_, hup⟩
  · have htun := h.tun
    rw [hdarwin] at htun
    exact htun

/-- **The anchor is closed for exactly the packets it has a rule for**: IPv6, a
request for an address, and what a client sends from an address of the hotspot's.
A packet from any other source is left to the rest of the machine's rules, in
the normal state and while forwarding is cut. -/
theorem anchor_closed_iff {p : Plan} (hp : Planned p) (hdarwin : p.platform = .darwin)
    (hup : '\n' ∉ p.uplink.toList) {state : ForwardState} {rules : List Pf.Rule}
    (hload : Pf.load (p.darwinRulesetFor state) = some rules) (pkt : Packet) :
    (p.Closed state pkt (Pf.fate rules darwinSharingBridge pkt) ↔ p.Covered pkt) ∧
      (¬p.Covered pkt → Pf.fate rules darwinSharingBridge pkt = .unmatched) := by
  have hs := hp.sited hdarwin hup
  obtain ⟨-, rfl⟩ := (load_darwinRulesetFor hs).mp hload
  rcases Pf.fate_cases (p.anchorLines state).reduceOption darwinSharingBridge pkt with
    ⟨r, hr, hmet, hfate⟩ | ⟨hfate, hnone⟩
  · obtain ⟨hcov, hclosed⟩ := closed_of_rule hs hr hmet
    rw [← hfate]
    exact ⟨iff_of_true hclosed hcov, fun hnot => absurd hcov hnot⟩
  · have hnot : ¬p.Covered pkt := by
      intro hcov
      obtain ⟨r, hr, hmet⟩ := met_of_covered hcov
      exact hnone r hr hmet
    rw [hfate]
    exact ⟨iff_of_false id hnot, fun _ => rfl⟩

/-- The plan of a Mac on a cable. -/
def macPlan : Plan := v6Plan .darwin routedV6

theorem macPlan_planned : Planned macPlan := by
  have hplan : planNetwork (macFacts routedV6) [v6Server] (platformOptions .darwin) =
      .ok macPlan := rfl
  exact .network hplan

theorem macPlan_load (state : ForwardState) :
    Pf.load (macPlan.darwinRulesetFor state) = some (macPlan.anchorLines state).reduceOption := by
  have hs : macPlan.Sited := macPlan_planned.sited (by decide) (by decide)
  exact (load_darwinRulesetFor hs).mpr
    ⟨⟨by decide, by decide, by decide⟩, rfl⟩

/-- A client that uses the address it was given goes through the tunnel. -/
theorem anchor_closed_client :
    macPlan.hotspotSubnet.contains (webRequest 0x0A533305#32).src = true ∧
      macPlan.Closed .normal (webRequest 0x0A533305#32)
        (Pf.fate (macPlan.anchorLines .normal).reduceOption darwinSharingBridge
          (webRequest 0x0A533305#32)) := by
  have hhot : macPlan.hotspotSubnet.contains (webRequest 0x0A533305#32).src = true := by
    decide
  exact ⟨hhot, (anchor_closed_iff macPlan_planned (by decide) (by decide)
    (macPlan_load .normal) (webRequest 0x0A533305#32)).1.mpr (.inr (.inr hhot))⟩

/-- A client that takes an address of its own choice is not stopped by any rule,
whether forwarding is cut or not. -/
theorem anchor_falls_through :
    planNetwork (macFacts routedV6) [v6Server] (platformOptions .darwin) = .ok macPlan ∧
      ∀ state, ∃ rules, Pf.load (macPlan.darwinRulesetFor state) = some rules ∧
        Pf.fate rules darwinSharingBridge (webRequest 0xC0000207#32) = .unmatched := by
  refine ⟨rfl, fun state => ⟨_, macPlan_load state, ?_⟩⟩
  cases state with
  | normal | cut => decide

end Caspian.Netcfg
