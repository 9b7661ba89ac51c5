import Caspian.Hotspot.ApConfig
import Caspian.Verified.Directives

/-!
# The two configuration files

`RenderHostapd` and `RenderDnsmasq` print the files the two daemons of the
hotspot read as root.  Both are a fixed sequence of lines with a field of the
configuration here and there; the comments are part of the text, since the
supervisor decides whether a daemon has to be restarted by comparing whole
files.
-/

namespace Caspian.Hotspot

open Verified Netip
open Verified.Directives (Line render)

/-! ## hostapd -/

/-- `DefaultPaths().HostapdControlDir`. -/
def hostapdControlDir : String := "/run/hostapd"

/-- `hwMode`. -/
def APConfig.hwMode (c : APConfig) : Except String String :=
  match c.band with
  | .band2GHz => .ok "g"
  | .band5GHz => .ok "a"
  | .other name => .error ("hotspot: unknown radio band " ++ Text.quote name)

/-- The lines of the file, for the mode and the control directory settled
before anything is printed. -/
def hostapdLines (cfg : APConfig) (mode ctrlDir : String) : List Line :=
  [.comment "# hostapd configuration generated by Caspian-BYOC.",
    .comment "# Rewritten from scratch on every start. Edits here are lost.",
    .comment "#",
    .comment "# Every setting below is here for a reason and the reason is written down.",
    .comment "# Where a setting exists because of a known failure, the failure is named.",
    .blank,
    .setting "interface" cfg.interface,
    .setting "driver" "nl80211",
    .blank,
    .comment "# The regulatory domain.",
    .comment "#",
    .comment "# WHY THIS LINE IS FIRST AMONG EQUALS: with no country_code the driver",
    .comment "# uses the world regulatory domain, in which most channels are",
    .comment "# passive-scan only and beaconing is not permitted, so hostapd starts,",
    .comment "# fails to bring the interface up and the network never appears. The",
    .comment "# user sees nothing at all, which is the least diagnosable failure this",
    .comment "# appliance can produce. The reference implementation omitted it",
    .comment "# entirely: 004-hotspot/install.sh:415-430 writes no country_code line.",
    .comment "#",
    .comment "# ieee80211d advertises the domain in the beacon so joining clients",
    .comment "# adopt the same channel and power rules.",
    .setting "country_code" cfg.countryCode,
    .setting "ieee80211d" "1",
    .blank,
    .comment "# The network name. utf8_ssid tells hostapd the bytes are UTF-8, which",
    .comment "# matters because this appliance's users name their networks in scripts",
    .comment "# other than Latin and a name advertised in the wrong encoding shows up",
    .comment "# on phones as replacement characters.",
    .setting "ssid" cfg.ssid,
    .setting "utf8_ssid" "1",
    .blank,
    .setting "hw_mode" mode,
    .setting "channel" (itoaInt cfg.channel),
    .blank,
    .comment "# 802.11n.",
    .comment "#",
    .comment "# Without ieee80211n the radio negotiates 802.11g rates only and the",
    .comment "# whole hotspot is capped at 54 Mbps shared between every joined device,",
    .comment "# below what the tunnel can carry. The reference implementation set",
    .comment "# neither ieee80211n nor wmm_enabled=1 (004-hotspot/install.sh:415-430,",
    .comment "# which has wmm_enabled=0), so every box it built ran at 54 Mbps and",
    .comment "# nothing said so.",
    .comment "#",
    .comment "# wmm_enabled=1 is not optional here: hostapd disables HT rates when WMM",
    .comment "# is off, so ieee80211n=1 with wmm_enabled=0 silently stays at 54 Mbps",
    .comment "# and looks configured.",
    .setting "ieee80211n" "1",
    .setting "wmm_enabled" "1",
    .blank,
    .comment "# 20 MHz channel width only.",
    .comment "#",
    .comment "# HT40 needs a secondary channel declared as [HT40+] or [HT40-], and the",
    .comment "# correct one depends on the primary channel and the regulatory domain.",
    .comment "# A wrong secondary makes hostapd refuse to start. This appliance is",
    .comment "# frequently pinned to whatever channel the uplink already uses (see",
    .comment "# RadioConstraint), so the primary is not ours to choose and the safe",
    .comment "# gain is the short guard interval at 20 MHz.",
    .setting "ht_capab" "[SHORT-GI-20]",
    .blank,
    .comment "# Security: WPA2-PSK with CCMP (AES) and nothing else.",
    .comment "#",
    .comment "# auth_algs=1 is Open System only. The value 2 enables WEP shared-key",
    .comment "# authentication, which is broken.",
    .comment "#",
    .comment "# There is deliberately NO wpa_pairwise line. wpa_pairwise sets the",
    .comment "# cipher for WPA1, and the reference implementation set",
    .comment "# wpa_pairwise=TKIP (004-hotspot/install.sh:428). That has two costs,",
    .comment "# not one: it advertises a cipher with known practical attacks, and",
    .comment "# because 802.11n forbids HT rates on a BSS that offers TKIP it also",
    .comment "# holds the whole network at 54 Mbps however much 802.11n is enabled",
    .comment "# above. Omitting the line leaves rsn_pairwise as the only cipher suite,",
    .comment "# which is WPA2 with AES.",
    .setting "auth_algs" "1",
    .setting "wpa" "2",
    .setting "wpa_key_mgmt" "WPA-PSK",
    .setting "rsn_pairwise" "CCMP",
    .setting "wpa_passphrase" cfg.passphrase,
    .blank,
    .comment "# Devices that join must not be able to reach each other.",
    .comment "#",
    .comment "# Everyone here is a guest of whoever holds the passphrase, and a phone",
    .comment "# joining a shared hotspot should not be exposed to the other phones on",
    .comment "# it. ap_isolate stops hostapd bridging frames from one associated",
    .comment "# station to another. It is not the whole of client isolation: traffic",
    .comment "# that leaves the interface and comes back is internal/netcfg's firewall",
    .comment "# to stop, and this line does not claim to do that job.",
    .setting "ap_isolate" "1",
    .blank,
    .comment "# No MAC filtering, and the name is broadcast. A hidden SSID is not",
    .comment "# security, it only stops the user finding their own network.",
    .setting "macaddr_acl" "0",
    .setting "ignore_broadcast_ssid" "0",
    .blank,
    .comment "# Logging: notification level and above.",
    .comment "#",
    .comment "# hostapd writes a line for every association and disassociation, each",
    .comment "# carrying a device's MAC address, at informational level. This box does",
    .comment "# not keep a record of which devices were here. Errors stay visible so",
    .comment "# the panel can explain a failure.",
    .setting "logger_syslog" "-1",
    .setting "logger_syslog_level" "3",
    .setting "logger_stdout" "-1",
    .setting "logger_stdout_level" "3",
    .blank,
    .comment "# Control socket. Used only by this program, to ask hostapd whether the",
    .comment "# access point is actually up rather than merely running: a hostapd",
    .comment "# process that is alive and beaconing nothing is the failure a process",
    .comment "# check cannot see.",
    .setting "ctrl_interface" ctrlDir,
    .setting "ctrl_interface_group" "0"]

/-- `RenderHostapd`. -/
def renderHostapd (cfg : APConfig) : Except String String := do
  cfg.validate false
  let mode ← cfg.hwMode
  let ctrlDir := if cfg.controlDir = "" then hostapdControlDir else cfg.controlDir
  return render (hostapdLines cfg mode ctrlDir)

/-! ## dnsmasq -/

/-- `ipv4Netmask`; the shift is of a 32-bit word. -/
def ipv4Netmask (bits : Int) : String :=
  dotted ((2 ^ 32 - 1) <<< (32 - bits).toNat % 2 ^ 32)

/-- `leaseTimeString`: whole hours and whole minutes with their suffix,
anything else as a number of seconds. -/
def leaseTimeString (s ns : Nat) : String :=
  if s % 3600 = 0 ∧ ns = 0 then itoa (s / 3600) ++ "h"
  else if s % 60 = 0 ∧ ns = 0 then itoa (s / 60) ++ "m"
  else itoa s

/-- What stands before the optional block. -/
def dnsmasqHead (c : DNSConfig) : List Line :=
  [.comment "# dnsmasq configuration generated by Caspian-BYOC.",
    .comment "# Rewritten from scratch on every start. Edits here are lost.",
    .comment "#",
    .comment "# This file serves DHCP and DNS to the hotspot only. Two things in it",
    .comment "# are not tuning and must not be relaxed: what it refuses to log, and",
    .comment "# where it is allowed to send a query.",
    .blank,
    .comment "# WHO THIS PROCESS RUNS AS.",
    .comment "#",
    .comment "# dnsmasq needs root only to bind port 53 and to open the DHCP socket.",
    .comment "# It then drops to an unprivileged account for the rest of its life,",
    .comment "# which is right, and which is exactly why this line has to be here.",
    .comment "#",
    .comment "# THE FAILURE THIS PREVENTS IS SILENCE, NOT AN ERROR. With no user=",
    .comment "# line dnsmasq drops to its own compiled-in default account, which on a",
    .comment "# Debian-derived system is neither root nor this appliance's service",
    .comment "# user. The lease file below lives in a directory that is mode 0700 and",
    .comment "# owned by the service user (docs/LAYOUT.md: /var/lib/caspian, 0700,",
    .comment "# caspian), and a process running as somebody else cannot traverse it.",
    .comment "# So dnsmasq keeps answering DNS, keeps handing out addresses, and",
    .comment "# keeps failing to record a single lease. The hotspot works. The panel",
    .comment "# reads an empty lease file and reports zero connected devices for",
    .comment "# ever, on a network people are actively using. Nothing logs an error,",
    .comment "# nothing crashes, and a non-technical user is left comparing a screen",
    .comment "# that says nobody is connected against a phone that is plainly online.",
    .comment "#",
    .comment "# group= is set for the same reason and is not implied by user=:",
    .comment "# dnsmasq's default group is a compiled-in value of its own, so leaving",
    .comment "# it out leaves half the identity unstated.",
    .setting "user" c.serviceUser,
    .setting "group" c.serviceGroup,
    .blank,
    .comment "# Listen on the hotspot interface only.",
    .comment "#",
    .comment "# bind-interfaces stops dnsmasq binding the wildcard address. Without",
    .comment "# it dnsmasq listens on 0.0.0.0 and filters by interface in userspace,",
    .comment "# which means the port is open on the uplink and on any interface that",
    .comment "# appears later, and this box would be an open resolver to whatever",
    .comment "# network it is plugged into.",
    .setting "interface" c.interface,
    .flag "bind-interfaces",
    .setting "listen-address" c.gateway.text,
    .setting "port" "53",
    .blank,
    .comment "# PRIVACY, NOT TUNING: no query logging.",
    .comment "#",
    .comment "# There is deliberately no log-queries line. With it, dnsmasq writes one",
    .comment "# syslog line per lookup, which on this box is a dated record of every",
    .comment "# site every person on the hotspot visited, kept on the appliance that",
    .comment "# exists to stop exactly that being collected elsewhere. The reference",
    .comment "# implementation set log-queries (004-hotspot/install.sh:352).",
    .comment "#",
    .comment "# The cache below is in memory only. It is lost when the process stops",
    .comment "# and is never written to disk.",
    .setting "cache-size" (if 0 < c.cacheSize then itoaInt c.cacheSize else "0"),
    .blank,
    .comment "# PRIVACY, NOT TUNING: no DHCP logging.",
    .comment "#",
    .comment "# Leaving out log-dhcp is not enough. dnsmasq logs every DHCPDISCOVER,",
    .comment "# DHCPOFFER, DHCPREQUEST and DHCPACK by default, each carrying a MAC",
    .comment "# address and a hostname, so the default configuration keeps a dated",
    .comment "# record of every device that joined and when. quiet-dhcp turns that",
    .comment "# off. The reference implementation went the other way and set log-dhcp",
    .comment "# (004-hotspot/install.sh:381).",
    .comment "#",
    .comment "# The lease file remains, because the panel has to show the user how",
    .comment "# many devices are connected. It holds current leases only and dnsmasq",
    .comment "# removes an entry when it expires; it is not a history.",
    .flag "quiet-dhcp",
    .flag "quiet-dhcp6",
    .flag "quiet-ra",
    .blank,
    .comment "# The only place a client query may go.",
    .comment "#",
    .comment "# no-resolv stops dnsmasq reading /etc/resolv.conf. Without it dnsmasq",
    .comment "# inherits whatever resolver the uplink's DHCP handed this box, and",
    .comment "# every client lookup would leave in plaintext beside the tunnel",
    .comment "# instead of through it. That is the leak the whole appliance exists to",
    .comment "# prevent, and it would be caused by a file this program never wrote.",
    .comment "#",
    .comment "# The server line points at a resolver on this machine, which the rest",
    .comment "# of this program routes through the tunnel. A public resolver must",
    .comment "# never appear here; the renderer refuses to emit one that is not a",
    .comment "# loopback address.",
    .flag "no-resolv",
    .setting "server" (c.upstream.1.text ++ "#" ++ itoa c.upstream.2.toNat),
    .blank,
    .comment "# Do not send a bare name with no dot upstream, and do not send reverse",
    .comment "# lookups for private address space upstream. Both would hand the names",
    .comment "# and addresses of devices on this hotspot to a stranger, and neither",
    .comment "# has a useful answer.",
    .flag "domain-needed",
    .flag "bogus-priv",
    .blank,
    .comment "# Do not answer clients from this box's /etc/hosts.",
    .flag "no-hosts"]

/-- The block `FilterAAAA` turns on. -/
def dnsmasqFilter : List Line :=
  [.blank,
    .comment "# Drop AAAA answers. The v1 tunnel carries IPv4, so an IPv6 address",
    .comment "# handed to a client is a destination it will try first and cannot",
    .comment "# reach, which shows up as every page taking seconds to load.",
    .comment "# Off unless the caller turned it on: this option needs dnsmasq",
    .comment "# 2.81 or newer and an older dnsmasq treats an unknown option as",
    .comment "# fatal, so guessing here would stop the hotspot from starting.",
    .flag "filter-AAAA"]

/-- What stands after the optional block. -/
def dnsmasqTail (c : DNSConfig) : List Line :=
  [.blank,
    .comment "# DHCP.",
    .comment "#",
    .comment "# dhcp-authoritative is correct because this box is the only DHCP",
    .comment "# server on its own hotspot: it lets dnsmasq answer a client that",
    .comment "# arrives asking to renew a lease from some other network immediately,",
    .comment "# instead of leaving it to time out.",
    .comment "#",
    .comment "# option:dns-server points at this box, not at a public resolver, so a",
    .comment "# client that honours DHCP asks us. A client with a hardcoded resolver",
    .comment "# ignores this line; catching that one is internal/netcfg's redirect,",
    .comment "# not this file's job.",
    .flag "dhcp-authoritative",
    .setting "dhcp-range" (c.rangeStart.text ++ "," ++ c.rangeEnd.text ++ "," ++
      ipv4Netmask c.subnet.bitCount ++ "," ++ leaseTimeString c.leaseTime c.leaseNanos),
    .setting "dhcp-option" ("option:router," ++ c.gateway.text),
    .setting "dhcp-option" ("option:dns-server," ++ c.gateway.text),
    .comment "# The lease file is the panel's only source for the connected-device",
    .comment "# count, and it is writable only because of the user= line at the top",
    .comment "# of this file. Change one without the other and the count silently",
    .comment "# stays at zero.",
    .setting "dhcp-leasefile" c.leaseFile]

def dnsmasqLines (c : DNSConfig) : List Line :=
  dnsmasqHead c ++ (if c.filterAAAA then dnsmasqFilter else []) ++ dnsmasqTail c

/-- `RenderDnsmasq`. -/
def renderDnsmasq (c : DNSConfig) : Except String String := do
  c.validate
  return render (dnsmasqLines c)

end Caspian.Hotspot
