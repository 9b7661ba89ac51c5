import Caspian.Netcfg.Packet

/-!
# The rules of a pf anchor

As much of `pf.conf(5)` as the generated anchor is written in: `rdr pass`,
`block drop in quick` and `pass in quick` on one interface, with a family, a
set of protocols and the two endpoints, and `route-to`.  A text that holds a
line outside this grammar is refused as a whole, as `pfctl -f` does.

Translation comes first, and a packet an `rdr pass` takes is not filtered
further.  Every filter rule is `quick`, so the first that matches decides.  A
packet none matches is left to the rest of the machine's rules.
-/

namespace Caspian.Netcfg.Pf

open Verified Verified.Lexer Netip

inductive Family where
  | inet
  | inet6
  deriving DecidableEq, Repr

def Family.isOf (fam : Family) (a : Addr) : Bool :=
  match fam with
  | inet => a.is4
  | inet6 => a.is6

/-- One side of a rule: a network or any address, a port or any. -/
structure Endpoint where
  net : Option Prefix := none
  port : Option UInt16 := none
  deriving DecidableEq

def Endpoint.admits (e : Endpoint) (a : Addr) (port : Option UInt16) : Bool :=
  e.net.all (·.contains a) && e.port.all fun q => port = some q

/-- What a rule asks of a packet; no protocols are all of them. -/
structure Criteria where
  iface : String
  family : Family
  protos : List Protocol := []
  src : Endpoint := {}
  dst : Endpoint := {}
  deriving DecidableEq

def Criteria.matches (k : Criteria) (iface : String) (pkt : Packet) : Bool :=
  iface = k.iface && k.family.isOf pkt.src &&
    (k.protos = [] || k.protos.any fun q => pkt.transport.isOf q) &&
    k.src.admits pkt.src pkt.transport.sport && k.dst.admits pkt.dst pkt.transport.dport

inductive Rule where
  | rdr (when : Criteria) (addr : Addr) (port : UInt16)
  | block (when : Criteria)
  | pass (when : Criteria)
  | routeTo (when : Criteria) (iface : String) (hop : Addr)
  deriving DecidableEq

/-- What becomes of a packet. -/
inductive Fate where
  | redirected (addr : Addr) (port : UInt16)
  | passed
  | steered (iface : String)
  | dropped
  | unmatched
  deriving DecidableEq

/-- A translation that takes the packet. -/
def Rule.translates (iface : String) (pkt : Packet) : Rule → Option Fate
  | rdr k addr port => if k.matches iface pkt then some (.redirected addr port) else none
  | _ => none

/-- A filter rule that decides the packet. -/
def Rule.filters (iface : String) (pkt : Packet) : Rule → Option Fate
  | rdr _ _ _ => none
  | block k => if k.matches iface pkt then some .dropped else none
  | pass k => if k.matches iface pkt then some .passed else none
  | routeTo k out _ => if k.matches iface pkt then some (.steered out) else none

/-- The fate of a packet that arrives on the interface. -/
def fate (rules : List Rule) (iface : String) (pkt : Packet) : Fate :=
  ((rules.findSome? (Rule.translates iface pkt)).or
    (rules.findSome? (Rule.filters iface pkt))).getD .unmatched

/-! ## What a decision says -/

/-- A packet that meets the criteria, one by one. -/
structure Criteria.Met (k : Criteria) (iface : String) (pkt : Packet) : Prop where
  iface : iface = k.iface
  family : k.family.isOf pkt.src = true
  proto : k.protos ≠ [] → ∃ q ∈ k.protos, pkt.transport.isOf q = true
  src : ∀ net ∈ k.src.net, net.contains pkt.src = true
  sport : ∀ q ∈ k.src.port, pkt.transport.sport = some q
  dst : ∀ net ∈ k.dst.net, net.contains pkt.dst = true
  dport : ∀ q ∈ k.dst.port, pkt.transport.dport = some q

variable {a : Addr}

theorem Endpoint.admits_iff {e : Endpoint} {port : Option UInt16} :
    e.admits a port = true ↔
      (∀ net ∈ e.net, net.contains a = true) ∧ ∀ q ∈ e.port, port = some q := by
  simp [Endpoint.admits, Option.all_eq_true]

variable {pkt : Packet}

theorem Criteria.matches_iff {k : Criteria} {iface : String} :
    k.matches iface pkt = true ↔ k.Met iface pkt := by
  simp only [Criteria.matches, Bool.and_eq_true, Bool.or_eq_true, decide_eq_true_eq,
    List.any_eq_true, Endpoint.admits_iff]
  constructor
  · rintro ⟨⟨⟨⟨hiface, hfamily⟩, hproto⟩, hsrc, hsport⟩, hdst, hdport⟩
    exact ⟨hiface, hfamily, fun hne => hproto.resolve_left hne, hsrc, hsport, hdst, hdport⟩
  · rintro ⟨hiface, hfamily, hproto, hsrc, hsport, hdst, hdport⟩
    exact ⟨⟨⟨⟨hiface, hfamily⟩, or_iff_not_imp_left.mpr hproto⟩, hsrc, hsport⟩, hdst, hdport⟩

/-- The one protocol of the criteria. -/
theorem Criteria.Met.single {k : Criteria} {iface : String} (h : k.Met iface pkt) {q : Protocol}
    (hk : k.protos = [q]) : pkt.transport.isOf q = true := by
  obtain ⟨q', hq', hof⟩ := h.proto (by simp [hk])
  rw [hk, List.mem_singleton] at hq'
  exact hq' ▸ hof

@[simp] def Rule.criteria : Rule → Criteria
  | rdr k _ _ => k
  | block k => k
  | pass k => k
  | routeTo k _ _ => k

def Rule.outcome : Rule → Fate
  | rdr _ addr port => .redirected addr port
  | block _ => .dropped
  | pass _ => .passed
  | routeTo _ out _ => .steered out

theorem Rule.decides_iff {r : Rule} {iface : String} {x : Fate} :
    r.translates iface pkt = some x ∨ r.filters iface pkt = some x ↔
      r.criteria.Met iface pkt ∧ r.outcome = x := by
  cases r <;> simp [translates, filters, criteria, outcome, Criteria.matches_iff]

/-- A packet was decided by one of the rules, or met none. -/
theorem fate_cases (rules : List Rule) (iface : String) (pkt : Packet) :
    (∃ r ∈ rules, r.criteria.Met iface pkt ∧ r.outcome = fate rules iface pkt) ∨
      fate rules iface pkt = .unmatched ∧ ∀ r ∈ rules, ¬r.criteria.Met iface pkt := by
  cases htrans : rules.findSome? (Rule.translates iface pkt) with
  | some x =>
    obtain ⟨r, hr, hx⟩ := List.exists_of_findSome?_eq_some htrans
    have hfate : fate rules iface pkt = x := by
      rw [fate, htrans]
      rfl
    exact .inl ⟨r, hr, Rule.decides_iff.mp (.inl (hx.trans (congrArg some hfate.symm)))⟩
  | none =>
    cases hfilter : rules.findSome? (Rule.filters iface pkt) with
    | some x =>
      obtain ⟨r, hr, hx⟩ := List.exists_of_findSome?_eq_some hfilter
      have hfate : fate rules iface pkt = x := by
        rw [fate, htrans, hfilter]
        rfl
      exact .inl ⟨r, hr, Rule.decides_iff.mp (.inr (hx.trans (congrArg some hfate.symm)))⟩
    | none =>
      have hfate : fate rules iface pkt = .unmatched := by
        rw [fate, htrans, hfilter]
        rfl
      rw [List.findSome?_eq_none_iff] at htrans hfilter
      refine .inr ⟨hfate, fun r hr hmet => ?_⟩
      have hx := Rule.decides_iff.mpr ⟨hmet, rfl⟩
      rw [htrans r hr, hfilter r hr] at hx
      rcases hx with hx | hx <;> cases hx

/-! ## Reading -/

def protocol (w : String) : Option Protocol :=
  if w = "tcp" then some .tcp
  else if w = "udp" then some .udp
  else if w = "icmp" then some .icmp
  else none

/-- The protocols of a list up to its brace. -/
def protocolList : List Token → Option (List Protocol × List Token)
  | .word w :: .mark ',' :: ts => do
      let q ← protocol w
      let (qs, ts) ← protocolList ts
      return (q :: qs, ts)
  | .word w :: .mark '\x7d' :: ts => (protocol w).map fun q => ([q], ts)
  | _ => none

def protocols (ts : List Token) : Option (List Protocol × List Token) :=
  match expect ["proto"] ts with
  | some (.mark '\x7b' :: ts) => protocolList ts
  | some (.word w :: ts) => (protocol w).map fun q => ([q], ts)
  | some _ => none
  | none => some ([], ts)

/-- The addresses of an endpoint, which have to be of the rule's family. -/
def network (fam : Family) (w : String) : Option (Option Prefix) :=
  if w = "any" then some none
  else (parseNet w).bind fun net => if fam.isOf net.addr then some (some net) else none

def endpoint (fam : Family) : List Token → Option (Endpoint × List Token)
  | .word w :: ts => do
      let net ← network fam w
      match expect ["port"] ts with
      | some (.word n :: ts) => (parsePort n).map fun q => ({ net, port := some q }, ts)
      | some _ => none
      | none => some ({ net }, ts)
  | _ => none

def family (w : String) : Option Family :=
  if w = "inet" then some .inet else if w = "inet6" then some .inet6 else none

/-- The criteria, from the family on. -/
def criteria (iface : String) : List Token → Option (Criteria × List Token)
  | .word w :: ts => do
      let fam ← family w
      let (protos, ts) ← protocols ts
      match expect ["all"] ts with
      | some ts => some ({ iface, family := fam, protos }, ts)
      | none =>
        let ts ← expect ["from"] ts
        let (src, ts) ← endpoint fam ts
        let ts ← expect ["to"] ts
        let (dst, ts) ← endpoint fam ts
        return ({ iface, family := fam, protos, src, dst }, ts)
  | _ => none

def rdrRule (ts : List Token) : Option Rule := do
  match ← expect ["rdr", "pass", "on"] ts with
  | .word iface :: ts =>
    let (k, ts) ← criteria iface ts
    match ← expect ["->"] ts with
    | [.word a, .word kw, .word n] =>
      if kw = "port" then return .rdr k (← parseAddr a) (← parsePort n) else none
    | _ => none
  | _ => none

def blockRule (ts : List Token) : Option Rule := do
  match ← expect ["block", "drop", "in", "quick", "on"] ts with
  | .word iface :: ts =>
    match ← criteria iface ts with
    | (k, []) => return .block k
    | _ => none
  | _ => none

/-- A pass rule, with the hop it is routed to if it has one. -/
def passRule (ts : List Token) : Option Rule := do
  match ← expect ["pass", "in", "quick", "on"] ts with
  | .word iface :: ts =>
    match expect ["route-to"] ts with
    | some (.mark '(' :: .word out :: .word hop :: .mark ')' :: ts) =>
      let hop ← parseAddr hop
      let (k, ts) ← criteria iface ts
      if ts = [] ∨ expect ["keep", "state"] ts = some [] then return .routeTo k out hop
      else none
    | some _ => none
    | none =>
      match ← criteria iface ts with
      | (k, []) => return .pass k
      | _ => none
  | _ => none

/-- A line's tokens: a rule, or nothing. -/
def ruleOf (ts : List Token) : Option (Option Rule) :=
  if ts = [] then some none
  else ((rdrRule ts).or ((blockRule ts).or (passRule ts))).map some

def parseLine (line : String) : Option (Option Rule) := (tokens line).bind ruleOf

/-- `pfctl -f -`: the rules of a text, or a refusal. -/
def load (text : String) : Option (List Rule) :=
  readLines parseLine text

/-! ## What the parts of a line are read as -/

section Lines

variable {fam : Family} {w n iface : String} {net : Option Prefix} {q : UInt16}
  {ts ts₁ ts₂ ts₃ : List Token} {protos : List Protocol} {src dst : Endpoint} {k : Criteria}

theorem network_prefix {p : Prefix} (h : p.isValid = true) :
    network fam p.text = if fam.isOf p.addr then some (some p) else none := by
  have hany : p.text ≠ "any" := p.text_ne (by decide) (by decide)
  rw [network, if_neg hany, parseNet_prefix h]
  rfl

theorem network_addr (h : a.isValid = true) (hz : a.zone = "") :
    network fam a.text =
      if fam.isOf a then some (some (.ofAddr a a.bitLen)) else none := by
  have hany : a.text ≠ "any" := a.text_ne (by decide) (by decide) (by decide)
  rw [network, if_neg hany, parseNet_addr h hz, Option.bind_some, (Prefix.host_ok h hz).1]

theorem endpoint_net (hnet : network fam w = some net) (hport : expect ["port"] ts = none) :
    endpoint fam (.word w :: ts) = some ({ net }, ts) := by
  simp only [endpoint, hnet, hport]
  rfl

theorem endpoint_port (hnet : network fam w = some net) :
    endpoint fam (.word w :: .word "port" :: .word n :: ts) =
      (parsePort n).map fun q => ({ net, port := some q }, ts) := by
  simp only [endpoint, hnet]
  rfl

theorem endpoint_refused (hnet : network fam w = none) : endpoint fam (.word w :: ts) = none := by
  simp only [endpoint, hnet]
  rfl

theorem criteria_ok (hfam : family w = some fam)
    (hprotos : protocols ts = some (protos, .word "from" :: ts₁))
    (hsrc : endpoint fam ts₁ = some (src, .word "to" :: ts₂))
    (hdst : endpoint fam ts₂ = some (dst, ts₃)) :
    criteria iface (.word w :: ts) = some ({ iface, family := fam, protos, src, dst }, ts₃) := by
  simp only [criteria, hfam, hprotos, Option.bind_eq_bind, Option.bind_some]
  show (endpoint fam ts₁).bind _ = _
  simp only [hsrc, Option.bind_some]
  show (endpoint fam ts₂).bind _ = _
  simp only [hdst, Option.bind_some]
  rfl

theorem criteria_refused (hfam : family w = some fam)
    (hprotos : protocols ts = some (protos, .word "from" :: ts₁))
    (h : endpoint fam ts₁ = none ∨
      ∃ src ts₂, endpoint fam ts₁ = some (src, .word "to" :: ts₂) ∧ endpoint fam ts₂ = none) :
    criteria iface (.word w :: ts) = none := by
  simp only [criteria, hfam, hprotos, Option.bind_eq_bind, Option.bind_some]
  show (endpoint fam ts₁).bind _ = _
  rcases h with hsrc | ⟨src, ts₂, hsrc, hdst⟩
  · rw [hsrc]
    rfl
  · simp only [hsrc, Option.bind_some]
    show (endpoint fam ts₂).bind _ = _
    rw [hdst]
    rfl

/-- The whole of a line was criteria. -/
def only (x : Option (Criteria × List Token)) : Option Criteria :=
  x.bind fun r => if r.2 = [] then some r.1 else none

theorem blockRule_eq :
    blockRule (.word "block" :: .word "drop" :: .word "in" :: .word "quick" :: .word "on" ::
        .word iface :: ts) = (only (criteria iface ts)).map .block := by
  show (criteria iface ts).bind _ = _
  rcases criteria iface ts with _ | ⟨k, _ | ⟨t, ts⟩⟩ <;> rfl

theorem passRule_eq (hroute : expect ["route-to"] ts = none) :
    passRule (.word "pass" :: .word "in" :: .word "quick" :: .word "on" :: .word iface :: ts) =
      (only (criteria iface ts)).map .pass := by
  show (match expect ["route-to"] ts with
    | some (.mark '(' :: .word out :: .word hop :: .mark ')' :: ts) => _
    | some _ => none
    | none => _ : Option Rule) = _
  rw [hroute]
  show (criteria iface ts).bind _ = _
  rcases criteria iface ts with _ | ⟨k, _ | ⟨t, ts⟩⟩ <;> rfl

theorem ruleOf_block :
    ruleOf (.word "block" :: .word "drop" :: .word "in" :: .word "quick" :: .word "on" ::
        .word iface :: ts) = (only (criteria iface ts)).map fun k => some (.block k) := by
  show ((none : Option Rule).or ((blockRule _).or none)).map some = _
  rw [blockRule_eq, Option.none_or, Option.or_none, Option.map_map]
  rfl

theorem ruleOf_pass (hroute : expect ["route-to"] ts = none) :
    ruleOf (.word "pass" :: .word "in" :: .word "quick" :: .word "on" :: .word iface :: ts) =
      (only (criteria iface ts)).map fun k => some (.pass k) := by
  show ((none : Option Rule).or ((none : Option Rule).or (passRule _))).map some = _
  rw [passRule_eq hroute, Option.none_or, Option.none_or, Option.map_map]
  rfl

theorem ruleOf_routeTo {out hop : String} (hhop : parseAddr hop = some a)
    (hk : criteria iface ts = some (k, [.word "keep", .word "state"])) :
    ruleOf (.word "pass" :: .word "in" :: .word "quick" :: .word "on" :: .word iface ::
        .word "route-to" :: .mark '(' :: .word out :: .word hop :: .mark ')' :: ts) =
      some (some (.routeTo k out a)) := by
  show ((none : Option Rule).or ((none : Option Rule).or
    ((parseAddr hop).bind fun hop => (criteria iface ts).bind _))).map some = _
  rw [hhop, hk]
  rfl

theorem ruleOf_rdr {addr : String} (haddr : parseAddr addr = some a)
    (hk : criteria iface ts = some (k, [.word "->", .word addr, .word "port", .word n])) :
    ruleOf (.word "rdr" :: .word "pass" :: .word "on" :: .word iface :: ts) =
      (parsePort n).map fun q => some (.rdr k a q) := by
  show (((criteria iface ts).bind _ : Option Rule).or (none : Option Rule)).map some = _
  rw [hk, Option.or_none]
  show (((parseAddr addr).bind fun a => (parsePort n).bind _) : Option Rule).map some = _
  rw [haddr]
  cases parsePort n with
  | none | some q => rfl

end Lines

end Caspian.Netcfg.Pf
