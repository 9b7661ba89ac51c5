import Caspian.Netcfg.Planner

/-!
# The generated nftables ruleset

`RulesetFor` as the source prints it, line by line, comments included: the
text is what is fed to `nft -f -`.  Braces are written as character codes.
-/

namespace Caspian.Netcfg

open Verified Netip

/-- The single table the package owns. -/
def tableName : String := "caspian"

namespace Plan

/-! ## The parts of the text, one line each -/

/-- The comment block, and the create-then-delete pair that makes a load
idempotent. -/
def headerLines (p : Plan) (state : ForwardState) : List String :=
  let egress := if p.opts.egress = .open then "open" else "restricted"
  let forward := if state = .cut then "CUT by the user" else "normal"
  [
    "# Caspian-BYOC generated firewall ruleset. Do not edit by hand:",
    "# it is regenerated and replaced atomically on every start.",
    "#",
    "# uplink=" ++ p.uplink ++ " hotspot=" ++ p.hotspot ++ " tunnel=" ++ p.tun ++
      " hotspot-subnet=" ++ p.hotspotSubnet.text,
    "# egress=" ++ egress ++ " forward=" ++ forward] ++
  (if p.opts.egress = .restricted then [
      "#",
      "# egress=restricted means this box's OWN outbound traffic is dropped",
      "# unless the output chain names it. \"apt update\" from a shell here will",
      "# fail while the appliance is on. That is intended and was accepted."]
    else []) ++
  [
    "#",
    "# Every interface match below is by NAME and never by index. Index matching",
    "# is resolved when the ruleset loads, so a ruleset naming " ++ p.tun ++ " by index cannot",
    "# be loaded while the tunnel is down, and that is exactly when it has to be",
    "# in force. Name matching is resolved per packet and loads with no tunnel.",
    "",
    "table inet " ++ tableName,
    "delete table inet " ++ tableName,
    "",
    "table inet " ++ tableName ++ " \x7b"]

/-- The input chain: only what arrives on the hotspot is restricted. -/
def inputChain (p : Plan) : List String :=
  let dns := itoaInt p.opts.dnsPort
  [
    "\tchain input \x7b",
    "\t\ttype filter hook input priority filter; policy accept;",
    "",
    "\t\t# THE POLICY IS ACCEPT, DELIBERATELY, AND THIS IS THE PART TO READ",
    "\t\t# BEFORE CHANGING ANYTHING IN THIS CHAIN.",
    "\t\t#",
    "\t\t# This appliance controls FORWARDED client traffic. It does not decide",
    "\t\t# what the owner may run on their own machine, and it does not close",
    "\t\t# their administrative access to it.",
    "\t\t#",
    "\t\t# An earlier version had policy drop and accepted nothing arriving on",
    "\t\t# " ++ p.uplink ++ ". Measured on the target on 2026-08-30: the moment it loaded,",
    "\t\t# every NEW inbound connection to the box was dropped and SSH stopped",
    "\t\t# answering. Existing connections kept working, because of the",
    "\t\t# conntrack rule that used to sit here, so the box looked healthy from",
    "\t\t# the session that was already open while being unreachable to every",
    "\t\t# new one. On a headless machine in another room that is indistinguishable",
    "\t\t# from a crash, and the remaining recovery is a power cycle and a card",
    "\t\t# reader.",
    "\t\t#",
    "\t\t# Accepting here does NOT weaken a host firewall the owner installs.",
    "\t\t# Every base chain registered at this hook is traversed, so a drop in",
    "\t\t# their own table still drops. This policy only stops THIS program",
    "\t\t# from installing a host firewall nobody asked it for.",
    "\t\t#",
    "\t\t# What is still guarded is the hotspot, where the untrusted devices",
    "\t\t# are. A joined device reaches the services this box offers it and",
    "\t\t# nothing else.",
    "",
    "\t\t# Before the conntrack check, so loopback is never subject to a",
    "\t\t# conntrack edge case.",
    "\t\tiifname \"lo\" accept",
    "\t\tct state invalid drop comment \"malformed or out-of-state, not new inbound\"",
    "",
    "\t\t# The tunnel device. Redundant under an accept policy and kept",
    "\t\t# explicit: the design calls for an INPUT permit for it, and it is",
    "\t\t# what would carry the engine's own traffic if this policy were ever",
    "\t\t# tightened.",
    "\t\tiifname " ++ Text.quote p.tun ++
      " accept comment \"tunnel: a router's own traffic is INPUT, not FORWARD\"",
    "",
    "\t\t# The hotspot side, and the only place this chain restricts anything.",
    "\t\t# These are the services the box actually serves to joined devices.",
    "\t\tiifname " ++ Text.quote p.hotspot ++ " ct state established,related accept",
    "\t\tiifname " ++ Text.quote p.hotspot ++
      " udp dport 67 accept comment \"DHCP server for clients\"",
    "\t\tiifname " ++ Text.quote p.hotspot ++ " udp dport " ++ dns ++
      " accept comment \"client DNS, after the prerouting redirect\"",
    "\t\tiifname " ++ Text.quote p.hotspot ++ " tcp dport " ++ dns ++
      " accept comment \"client DNS over TCP\"",
    "\t\tiifname " ++ Text.quote p.hotspot ++ " tcp dport " ++ itoaInt p.opts.panelPort ++
      " accept comment \"panel\"",
    "\t\tmeta nfproto ipv4 iifname " ++ Text.quote p.hotspot ++ " icmp type echo-request accept",
    "\t\tiifname " ++ Text.quote p.hotspot ++
      " drop comment \"a joined device reaches nothing else on this box\"",
    "\t\x7d",
    ""]

/-- The end of the forward chain while client traffic is cut. -/
def forwardCutLines (p : Plan) : List String :=
  [
    "\t\t# CLIENT TRAFFIC IS CUT.",
    "\t\t#",
    "\t\t# The user asked for client traffic to stop without switching the",
    "\t\t# appliance off, which would take the hotspot down and disconnect",
    "\t\t# every joined device including the one they are holding.",
    "\t\t#",
    "\t\t# This rule is explicit rather than left to the policy above, so an",
    "\t\t# operator reading \"nft list ruleset\" sees a reason and not an",
    "\t\t# absence. The hotspot, DHCP, DNS and the panel keep working: all of",
    "\t\t# those are INPUT to this box and its OUTPUT replies, and none of",
    "\t\t# them is FORWARD.",
    "\t\t#",
    "\t\t# Nothing persists this. The ruleset is regenerated on every start,",
    "\t\t# so a restart returns to forwarding.",
    "\t\tiifname " ++ Text.quote p.hotspot ++ " drop comment \"client traffic cut by the user\"",
    "\t\x7d",
    ""]

/-- The end of the forward chain in the normal state: the only two accepts,
both of which name the tunnel. -/
def forwardNormalLines (p : Plan) : List String :=
  [
    "\t\t# The only way out for a client, and the only way back in. Both name",
    "\t\t# the tunnel, so both stop matching when it is gone, leaving the policy",
    "\t\t# above to drop everything.",
    "\t\tmeta nfproto ipv4 iifname " ++ Text.quote p.hotspot ++ " oifname " ++ Text.quote p.tun ++
      " ip saddr " ++ p.hotspotSubnet.text ++ " accept",
    "\t\tmeta nfproto ipv4 iifname " ++ Text.quote p.tun ++ " oifname " ++ Text.quote p.hotspot ++
      " ip daddr " ++ p.hotspotSubnet.text ++ " accept"] ++
  (if p.opts.ipv6 = .forward then [
      "\t\t# IPv6Forward emits no accept here: there is no v6 prefix to",
      "\t\t# constrain one to, so the drop policy above stands for IPv6."]
    else []) ++
  [
    "\t\x7d",
    ""]

/-- The forward chain. -/
def forwardChain (p : Plan) (state : ForwardState) : List String :=
  [
    "\tchain forward \x7b",
    "\t\ttype filter hook forward priority filter; policy drop;",
    "",
    "\t\t# THE LEAK BLOCK, and the reason this whole file exists.",
    "\t\t# When the tunnel device disappears the kernel withdraws every route",
    "\t\t# through it and client traffic falls back to the main table and out of",
    "\t\t# the uplink, so \"the engine stopped\" leaks by default instead of",
    "\t\t# stopping. This rule names only the hotspot and the uplink, so the",
    "\t\t# tunnel's absence cannot affect it, and it is first so that nothing",
    "\t\t# added below can precede it.",
    "\t\tiifname " ++ Text.quote p.hotspot ++ " oifname " ++ Text.quote p.uplink ++
      " drop comment \"fail-closed: client traffic never leaves by the uplink\"",
    ""] ++
  (if p.opts.ipv6 = .block then [
      "\t\t# There is no IPv6 tunnel. A client with a working IPv6 path prefers",
      "\t\t# it over IPv4 and would bypass the tunnel entirely.",
      "\t\tmeta nfproto ipv6 iifname " ++ Text.quote p.hotspot ++
        " drop comment \"no IPv6 tunnel: clients get no IPv6\"",
      "\t\tmeta nfproto ipv6 oifname " ++ Text.quote p.hotspot ++ " drop",
      ""]
    else []) ++
  [
    "\t\t# DNS over TLS and DNS over QUIC would carry a client's queries past the",
    "\t\t# resolver on this box. Rejecting 853 makes a client fall back to port",
    "\t\t# 53, which prerouting redirects. DNS over HTTPS on 443 is not",
    "\t\t# distinguishable from other HTTPS and is carried through the tunnel",
    "\t\t# like anything else, which is a limit of this design and not an",
    "\t\t# oversight.",
    "\t\tiifname " ++ Text.quote p.hotspot ++
      " tcp dport 853 reject with tcp reset comment \"DNS over TLS\"",
    "\t\tiifname " ++ Text.quote p.hotspot ++ " udp dport 853 drop comment \"DNS over QUIC\"",
    ""] ++
  (if p.opts.clientIsolation then [
      "\t\tiifname " ++ Text.quote p.hotspot ++ " oifname " ++ Text.quote p.hotspot ++
        " drop comment \"client isolation\"",
      ""]
    else []) ++
  [
    "\t\tct state invalid drop",
    ""] ++
  (if state = .cut then p.forwardCutLines else p.forwardNormalLines)

/-- The rest of the output chain under `EgressOpen`. -/
def openOutputLines (p : Plan) : List String :=
  [
    "\t\ttype filter hook output priority filter; policy accept;",
    "",
    "\t\t# Stated explicitly, and accept rather than drop. The box's own traffic",
    "\t\t# is outside the fail-closed guarantee, because the engine has to reach",
    "\t\t# the server through the uplink for the tunnel to exist at all. The",
    "\t\t# promise this ruleset makes covers forwarded client traffic only.",
    "\t\t#",
    "\t\t# This is EgressOpen, which is not the default. It exists as the way",
    "\t\t# back for a user on a network nobody thought about, without a rebuild.",
    "\t\toifname " ++ Text.quote p.tun ++
      " accept comment \"tunnel: a router's own traffic is OUTPUT, not FORWARD\"",
    "",
    "\t\t# Never advertise an IPv6 prefix to clients while there is no IPv6",
    "\t\t# tunnel: an autoconfigured client would prefer v6 and bypass it.",
    "\t\toifname " ++ Text.quote p.hotspot ++ " icmpv6 type nd-router-advert drop",
    "\t\x7d",
    ""]

/-- The permit for one server, by address. -/
def serverLine (sa : Addr) : String :=
  if sa.is6 then "\t\tip6 daddr " ++ sa.text ++ " accept comment \"the proxy server\""
  else "\t\tip daddr " ++ sa.text ++ " accept comment \"the proxy server\""

/-- `writeRestrictedOutput`: the output chain that covers the box itself. -/
def restrictedOutputLines (p : Plan) : List String :=
  [
    "\t\ttype filter hook output priority filter; policy drop;",
    "",
    "\t\t# THE KILL SWITCH COVERS THIS BOX TOO.",
    "\t\t#",
    "\t\t# Everything the Pi sends that is not named below is dropped while the",
    "\t\t# appliance is on. That includes apt: \"apt update\" from a shell on this",
    "\t\t# box will fail until the appliance is switched off. That cost is known",
    "\t\t# and was accepted; it is not a fault to be worked around by widening",
    "\t\t# this list.",
    "\t\t#",
    "\t\t# Residual worth knowing: DNS below is a hole. Anything on this box can",
    "\t\t# still reach the network on port 53, and the server's hostname is",
    "\t\t# resolved in the clear on the local network before any tunnel exists.",
    "\t\t# Neither is a leak of client traffic and neither is made worse here.",
    "",
    "\t\t# FIRST, and it has to be first. Every outbound reply to an inbound",
    "\t\t# connection is here, including the administrator's SSH session. A drop",
    "\t\t# policy without this line kills that session the moment it loads.",
    "\t\tct state established,related accept",
    "\t\toifname \"lo\" accept",
    "\t\toifname " ++ Text.quote p.tun ++
      " accept comment \"tunnel: a router's own traffic is OUTPUT, not FORWARD\"",
    "",
    "\t\t# Never advertise an IPv6 prefix to clients while there is no IPv6",
    "\t\t# tunnel. Redundant under the drop policy above and kept explicit",
    "\t\t# because it is load-bearing if that policy is ever loosened.",
    "\t\toifname " ++ Text.quote p.hotspot ++ " icmpv6 type nd-router-advert drop",
    "",
    "\t\t# DHCP, in BOTH directions, and the asymmetry with DNS below is the",
    "\t\t# point rather than an oversight.",
    "\t\t#",
    "\t\t# As a CLIENT: measured on the target, NetworkManager holds a DHCP",
    "\t\t# socket per interface. Blocking this costs the box its address at the",
    "\t\t# next renewal, hours after the rule loads, with nothing to connect the",
    "\t\t# two events.",
    "\t\t#",
    "\t\t# As a SERVER on the hotspot: these replies are NOT covered by the",
    "\t\t# established rule above, because a DHCP reply goes to a broadcast",
    "\t\t# address or to a client that has no address yet, so the request and the",
    "\t\t# reply share no tuple for conntrack to match. Without this line the",
    "\t\t# hotspot beacons, devices associate, and not one of them gets an",
    "\t\t# address, which looks like a broken radio rather than a firewall.",
    "\t\t#",
    "\t\t# DNS needs no such line: a client's query creates the conntrack entry",
    "\t\t# and the answer matches its reply direction. That is the difference.",
    "\t\tudp sport 68 udp dport 67 accept comment \"DHCP client: renew this box's own lease\"",
    "\t\tudp sport 67 udp dport 68 accept comment \"DHCP server: answer joined devices\"",
    "",
    "\t\t# systemd-timesyncd. Measured active on the target with NTP=yes. A",
    "\t\t# drifted clock fails REALITY and TLS in a way that reads as a rejected",
    "\t\t# configuration, so the symptom points at the user's config rather than",
    "\t\t# at this rule.",
    "\t\tudp dport 123 accept comment \"NTP\"",
    "",
    "\t\t# DNS. The box resolves the server's hostname, and timesyncd resolves",
    "\t\t# its pool names. See the residual in the header.",
    "\t\tudp dport 53 accept",
    "\t\ttcp dport 53 accept",
    "",
    "\t\t# The engine's own connection to the server, by ADDRESS and not by",
    "\t\t# port. Some transports are UDP on 443, so a TCP-only permit would",
    "\t\t# break them silently. This is the same address the plan pins a host",
    "\t\t# route to, for the same reason: it is the one connection that must",
    "\t\t# reach the uplink directly or there is no tunnel at all."] ++
  (if p.serverAddr = [] then [
      "\t\t# (no server address in this plan)"]
    else []) ++
  p.serverAddr.map serverLine ++
  [
    "",
    "\t\t# IPv6 does not work at all without neighbour discovery, and an inet",
    "\t\t# table's output chain filters IPv6. Blocking this breaks the box's",
    "\t\t# own IPv6 silently. It costs nothing: these are link-local and cannot",
    "\t\t# carry a client's traffic. Router advertisement is deliberately not in",
    "\t\t# the set; the rule above drops it on the hotspot.",
    "\t\tmeta nfproto ipv6 icmpv6 type \x7b nd-neighbor-solicit, nd-neighbor-advert, nd-router-solicit, destination-unreachable, packet-too-big, time-exceeded, parameter-problem \x7d accept",
    "",
    "\t\t# Deliberately absent: mDNS and the IGMP membership reports avahi sends",
    "\t\t# for 224.0.0.251. avahi will not reach the network. Nothing this",
    "\t\t# product does needs it, and that is a decision rather than an",
    "\t\t# oversight.",
    "\t\x7d",
    ""]

/-- The output chain. -/
def outputChain (p : Plan) : List String :=
  [
    "\tchain output \x7b"] ++
  (if p.opts.egress = .open then p.openOutputLines else p.restrictedOutputLines)

/-- The DNS redirect. -/
def preroutingChain (p : Plan) : List String :=
  let dns := itoaInt p.opts.dnsPort
  [
    "\tchain prerouting \x7b",
    "\t\ttype nat hook prerouting priority dstnat; policy accept;",
    "",
    "\t\t# Redirected, not merely permitted. A client with a resolver hardcoded",
    "\t\t# into it must be answered by this box rather than allowed out to reach",
    "\t\t# the one it was told to use: redirect rewrites the destination address",
    "\t\t# to this box, so the query is answered here whatever it was aimed at.",
    "\t\tiifname " ++ Text.quote p.hotspot ++ " udp dport 53 redirect to :" ++ dns,
    "\t\tiifname " ++ Text.quote p.hotspot ++ " tcp dport 53 redirect to :" ++ dns,
    "\t\x7d",
    ""]

/-- The source NAT chain, empty unless masquerading was asked for. -/
def postroutingChain (p : Plan) : List String :=
  [
    "\tchain postrouting \x7b",
    "\t\ttype nat hook postrouting priority srcnat; policy accept;",
    ""] ++
  (if p.opts.masqueradeToTunnel then [
      "\t\toifname " ++ Text.quote p.tun ++ " masquerade comment \"enabled by configuration\""]
    else [
      "\t\t# Deliberately empty.",
      "\t\t# No masquerade towards " ++ p.uplink ++ ": source NAT there is the leak this whole",
      "\t\t# ruleset exists to prevent, and it is the single line that would",
      "\t\t# quietly turn the appliance into an ordinary router.",
      "\t\t# No masquerade towards " ++ p.tun ++ " either: that device is a userspace netstack",
      "\t\t# which terminates TCP and UDP flows and dials out itself, so a",
      "\t\t# client's source address never reaches the wire and there is nothing",
      "\t\t# to translate. Options.MasqueradeToTunnel turns it on for the case",
      "\t\t# where the tunnel is a real layer 3 interface."]) ++
  [
    "\t\x7d"]

/-- Every line of the ruleset. -/
def rulesetLines (p : Plan) (state : ForwardState) : List String :=
  p.headerLines state ++ p.inputChain ++ p.forwardChain state ++ p.outputChain ++
    p.preroutingChain ++ p.postroutingChain ++ ["\x7d"]

/-- `RulesetFor`. -/
def rulesetFor (p : Plan) (state : ForwardState) : String :=
  Text.unlines (p.rulesetLines state)

/-- `Ruleset`. -/
def ruleset (p : Plan) : String := p.rulesetFor .normal

/-- `RulesetTeardown`. -/
def rulesetTeardown (_ : Plan) : String :=
  Text.unlines [
    "# Caspian-BYOC firewall teardown. The bare declaration makes the delete",
    "# idempotent: it creates the table if it is absent so that removing it",
    "# always succeeds, including on a machine where nothing was ever loaded.",
    "table inet " ++ tableName,
    "delete table inet " ++ tableName]

end Plan

end Caspian.Netcfg
