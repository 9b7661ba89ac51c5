import Caspian.Hotspot.Render
import Caspian.Netip.RoundTrip

/-!
# What the daemons read is what was configured

Two files are printed from fields a user, a radio and a caller supply, and
two programs running as root read them a line at a time.  The fixed lists
`hostapdDirectives` and `dnsmasqDirectives` say what each of them is meant to
read, a field beside its name; a value that ends a line early puts a directive
of its own into the file.

Each validator is reduced to the one fact the reader depends on, that the text
it accepts holds no line feed.  For hostapd that covers every field.  For
dnsmasq it leaves the upstream: the address is checked for being a loopback
one and printed with its zone, and nothing looks at the zone.
-/

namespace Caspian.Hotspot

open Verified Netip
open Verified.Directives (Line Directive render directives readLine directives_render
  line_feed_notMem mem_directives_of_injected)

/-! ## The directives that are meant -/

/-- The directives of `hostapd.conf`. -/
def hostapdDirectives (cfg : APConfig) : List Directive :=
  [("interface", some cfg.interface),
    ("driver", some "nl80211"),
    ("country_code", some cfg.countryCode),
    ("ieee80211d", some "1"),
    ("ssid", some cfg.ssid),
    ("utf8_ssid", some "1"),
    ("hw_mode", some (if cfg.band = .band5GHz then "a" else "g")),
    ("channel", some (itoaInt cfg.channel)),
    ("ieee80211n", some "1"),
    ("wmm_enabled", some "1"),
    ("ht_capab", some "[SHORT-GI-20]"),
    ("auth_algs", some "1"),
    ("wpa", some "2"),
    ("wpa_key_mgmt", some "WPA-PSK"),
    ("rsn_pairwise", some "CCMP"),
    ("wpa_passphrase", some cfg.passphrase),
    ("ap_isolate", some "1"),
    ("macaddr_acl", some "0"),
    ("ignore_broadcast_ssid", some "0"),
    ("logger_syslog", some "-1"),
    ("logger_syslog_level", some "3"),
    ("logger_stdout", some "-1"),
    ("logger_stdout_level", some "3"),
    ("ctrl_interface", some (if cfg.controlDir = "" then "/run/hostapd" else cfg.controlDir)),
    ("ctrl_interface_group", some "0")]

/-- The resolver the clients' queries go to, as dnsmasq writes one. -/
def DNSConfig.resolver (c : DNSConfig) : String :=
  c.upstream.1.text ++ "#" ++ itoa c.upstream.2.toNat

/-- The mask of a subnet of `bits` bits. -/
def subnetMask (bits : Nat) : String := dotted (2 ^ 32 - 2 ^ (32 - bits))

/-- The directives of `dnsmasq.conf`; the lease time is settled apart, by
`leaseSeconds`. -/
def dnsmasqDirectives (c : DNSConfig) : List Directive :=
  [("user", some c.serviceUser),
    ("group", some c.serviceGroup),
    ("interface", some c.interface),
    ("bind-interfaces", none),
    ("listen-address", some c.gateway.text),
    ("port", some "53"),
    ("cache-size", some (itoaInt c.cacheSize)),
    ("quiet-dhcp", none),
    ("quiet-dhcp6", none),
    ("quiet-ra", none),
    ("no-resolv", none),
    ("server", some c.resolver),
    ("domain-needed", none),
    ("bogus-priv", none),
    ("no-hosts", none)] ++
  (if c.filterAAAA then [("filter-AAAA", none)] else []) ++
  [("dhcp-authoritative", none),
    ("dhcp-range", some (c.rangeStart.text ++ "," ++ c.rangeEnd.text ++ "," ++
      subnetMask c.subnet.bitCount.toNat ++ "," ++ leaseTimeString c.leaseTime c.leaseNanos)),
    ("dhcp-option", some ("option:router," ++ c.gateway.text)),
    ("dhcp-option", some ("option:dns-server," ++ c.gateway.text)),
    ("dhcp-leasefile", some c.leaseFile)]

/-- A lease time as dnsmasq reads it: hours, minutes or seconds. -/
def leaseSeconds (text : String) : Nat :=
  match text.toList.getLast? with
  | some 'h' => readDigits 10 text.toList.dropLast * 3600
  | some 'm' => readDigits 10 text.toList.dropLast * 60
  | _ => readDigits 10 text.toList

/-- The file says what the configuration says: the directives are the meant
ones, and the lease time stands for the given length of time. -/
def DNSConfig.Says (c : DNSConfig) (text : String) : Prop :=
  directives text = dnsmasqDirectives c ∧
  leaseSeconds (leaseTimeString c.leaseTime c.leaseNanos) * 1000000000 =
    c.leaseTime * 1000000000 + c.leaseNanos

/-! ## Texts without a line feed -/

/-- The text stays within its line. -/
def Inline (s : String) : Prop := '\n' ∉ s.toList

instance (s : String) : Decidable (Inline s) := by
  unfold Inline
  infer_instance

variable {s : String}

theorem Inline.append {t : String} (hs : Inline s) (ht : Inline t) : Inline (s ++ t) := by
  unfold Inline
  rw [String.toList_append, List.mem_append, not_or]
  exact ⟨hs, ht⟩

theorem inline_of_all {p : Char → Bool} (hp : p '\n' = false) (h : s.toList.all p = true) :
    Inline s := by
  intro hmem
  have hfeed : p '\n' = true := List.all_eq_true.mp h '\n' hmem
  rw [hp] at hfeed
  cases hfeed

theorem inline_of_not_any {p : Char → Bool} (hp : p '\n' = true) (h : ¬ s.toList.any p = true) :
    Inline s :=
  fun hmem => h (List.any_eq_true.mpr ⟨'\n', hmem, hp⟩)

variable {what v : String}

theorem inline_of_validConfigToken (h : validConfigToken what v = .ok ()) : Inline v := by
  obtain ⟨-, h⟩ := Outcome.guard_ok h
  obtain ⟨-, h⟩ := Outcome.guard_ok h
  obtain ⟨hall, -⟩ := Outcome.guard_ok h
  exact inline_of_all (by decide) (Bool.eq_true_of_not_eq_false hall)

theorem inline_of_noControlChars (h : noControlChars what v = .ok ()) : Inline v :=
  inline_of_not_any (by decide) (Outcome.guard_ok h).1

theorem inline_of_validServiceAccount (h : validServiceAccount what v = .ok ()) : Inline v := by
  obtain ⟨_, htoken, -⟩ := Outcome.bind_ok h
  exact inline_of_validConfigToken htoken

theorem inline_of_validAbsPath {p : String} (h : validAbsPath what p = .ok ()) : Inline p := by
  obtain ⟨-, h⟩ := Outcome.guard_ok h
  obtain ⟨-, h⟩ := Outcome.guard_ok h
  exact inline_of_noControlChars h

theorem inline_of_validSSID {ssid : String} (h : validSSID ssid = .ok ()) : Inline ssid := by
  obtain ⟨-, h⟩ := Outcome.guard_ok h
  obtain ⟨-, h⟩ := Outcome.guard_ok h
  exact inline_of_noControlChars h

theorem inline_of_validatePassphrase {p : String} (h : validatePassphrase p = .ok ()) :
    Inline p := by
  obtain ⟨-, h⟩ := Outcome.guard_ok h
  obtain ⟨-, h⟩ := Outcome.guard_ok h
  obtain ⟨-, h⟩ := Outcome.guard_ok h
  obtain ⟨hany, -⟩ := Outcome.guard_ok h
  exact inline_of_not_any (by decide) hany

theorem inline_of_validCountryCode {cc : String} (h : validCountryCode cc = .ok ()) :
    Inline cc := by
  obtain ⟨-, h⟩ := Outcome.guard_ok h
  obtain ⟨-, h⟩ := Outcome.guard_ok h
  obtain ⟨hall, -⟩ := Outcome.guard_ok h
  exact inline_of_all (by decide) (Bool.eq_true_of_not_eq_false hall)

theorem inline_itoa (n : Nat) : Inline (itoa n) :=
  fun hmem => absurd (mem_itoa hmem) (by decide)

theorem inline_itoaInt (n : Int) : Inline (itoaInt n) := by
  unfold itoaInt
  split
  · exact Inline.append (by decide) (inline_itoa _)
  · exact inline_itoa _

theorem inline_dotted (n : Nat) : Inline (dotted n) := by
  intro hmem
  rcases mem_dotted hmem with h | h <;> exact absurd h (by decide)

/-- An address stays within its line exactly when its zone does. -/
theorem inline_text_iff (a : Addr) : Inline a.text ↔ Inline a.zone := by
  cases a with
  | invalid => exact iff_of_true (by decide) (by decide)
  | v4 b => exact iff_of_true (inline_dotted _) List.not_mem_nil
  | v6 b z =>
    have hbits : '\n' ∉ (v6Text b.toNat).toList := by
      intro hmem
      rcases mem_v6Text hmem with h | h | h <;> exact absurd h (by decide)
    show '\n' ∉ (v6Text b.toNat ++ (if z = "" then "" else "%" ++ z)).toList ↔ '\n' ∉ z.toList
    rw [String.toList_append, List.mem_append, not_or, and_iff_right hbits]
    split
    · rename_i hz
      rw [hz]
    · simp

theorem inline_text_of_is4 {a : Addr} (h : a.is4 = true) : Inline a.text := by
  cases a with
  | v4 b => exact inline_dotted _
  | invalid | v6 b z => cases h

theorem inline_leaseTimeString (s ns : Nat) : Inline (leaseTimeString s ns) := by
  unfold leaseTimeString
  split
  · exact (inline_itoa _).append (by decide)
  · split
    · exact (inline_itoa _).append (by decide)
    · exact inline_itoa _

/-! ## hostapd -/

/-- What an accepted access point is known to hold. -/
structure APConfig.Accepted (cfg : APConfig) : Prop where
  interface : Inline cfg.interface
  ssid : Inline cfg.ssid
  passphrase : Inline cfg.passphrase
  countryCode : Inline cfg.countryCode
  band : cfg.hwMode = .ok (if cfg.band = .band5GHz then "a" else "g")
  controlDir : Inline (if cfg.controlDir = "" then hostapdControlDir else cfg.controlDir)

variable {cfg : APConfig}

theorem hwMode_of_validChannel (h : validChannel cfg.band cfg.channel = .ok ()) :
    cfg.hwMode = .ok (if cfg.band = .band5GHz then "a" else "g") := by
  unfold APConfig.hwMode
  cases hband : cfg.band with
  | band2GHz | band5GHz => rfl
  | other name =>
    rw [hband] at h
    cases h

theorem APConfig.accepted (h : cfg.validate false = .ok ()) : cfg.Accepted := by
  obtain ⟨_, hinterface, h⟩ := Outcome.bind_ok h
  obtain ⟨_, hssid, h⟩ := Outcome.bind_ok h
  obtain ⟨_, hpass, h⟩ := Outcome.bind_ok h
  obtain ⟨_, hcountry, h⟩ := Outcome.bind_ok h
  obtain ⟨_, hchannel, hdir⟩ := Outcome.bind_ok h
  constructor
  case interface => exact inline_of_validConfigToken hinterface
  case ssid => exact inline_of_validSSID hssid
  case passphrase => exact inline_of_validatePassphrase hpass
  case countryCode => exact inline_of_validCountryCode hcountry
  case band => exact hwMode_of_validChannel hchannel
  case controlDir =>
    by_cases hempty : cfg.controlDir = ""
    · rw [if_pos hempty]
      decide
    · rw [if_pos ⟨rfl, hempty⟩] at hdir
      rw [if_neg hempty]
      exact inline_of_validAbsPath hdir

theorem hostapd_inline (h : cfg.Accepted) : ∀ d ∈ hostapdDirectives cfg, ∀ v ∈ d.2, Inline v := by
  have hmode : Inline (if cfg.band = .band5GHz then "a" else "g") := by
    split <;> decide
  have hdir : Inline (if cfg.controlDir = "" then "/run/hostapd" else cfg.controlDir) :=
    h.controlDir
  have hchannel : Inline (itoaInt cfg.channel) := inline_itoaInt _
  have hfixed : Inline "nl80211" ∧ Inline "0" ∧ Inline "1" ∧ Inline "2" ∧ Inline "3" ∧
      Inline "-1" ∧ Inline "[SHORT-GI-20]" ∧ Inline "WPA-PSK" ∧ Inline "CCMP" := by
    decide
  simp [hostapdDirectives, h.interface, h.ssid, h.passphrase, h.countryCode, hmode, hdir,
    hchannel, hfixed]

/-- **hostapd reads what was configured**, for every accepted access point. -/
theorem renderHostapd_directives (h : cfg.validate false = .ok ()) :
    ∃ text, renderHostapd cfg = .ok text ∧ directives text = hostapdDirectives cfg := by
  have hacc : cfg.Accepted := APConfig.accepted h
  have hrender : renderHostapd cfg = .ok (render (hostapdLines cfg
      (if cfg.band = .band5GHz then "a" else "g")
      (if cfg.controlDir = "" then hostapdControlDir else cfg.controlDir))) := by
    rw [renderHostapd, h, hacc.band]
    rfl
  have hmeant : (hostapdLines cfg (if cfg.band = .band5GHz then "a" else "g")
      (if cfg.controlDir = "" then hostapdControlDir else cfg.controlDir)).filterMap
        Line.directive = hostapdDirectives cfg := rfl
  refine ⟨_, hrender, ?_⟩
  rw [directives_render (hmeant ▸ hostapd_inline hacc), hmeant]

/-! ## dnsmasq -/

/-- What an accepted DHCP and DNS service is known to hold. -/
structure DNSConfig.Accepted (c : DNSConfig) : Prop where
  interface : Inline c.interface
  gateway : Inline c.gateway.text
  rangeStart : Inline c.rangeStart.text
  rangeEnd : Inline c.rangeEnd.text
  leaseFile : Inline c.leaseFile
  serviceUser : Inline c.serviceUser
  serviceGroup : Inline c.serviceGroup
  mask : ipv4Netmask c.subnet.bitCount = subnetMask c.subnet.bitCount.toNat
  cacheSize : 0 ≤ c.cacheSize

/-- The shifted word is the mask. -/
theorem ipv4Netmask_eq {bits : Int} (hlo : 8 ≤ bits) (hhi : bits ≤ 30) :
    ipv4Netmask bits = subnetMask bits.toNat := by
  obtain ⟨n, rfl⟩ := Int.eq_ofNat_of_zero_le (by omega : 0 ≤ bits)
  have hword : ∀ n : Nat, 8 ≤ n → n ≤ 30 →
      (2 ^ 32 - 1) <<< (32 - (n : Int)).toNat % 2 ^ 32 = 2 ^ 32 - 2 ^ (32 - n) := by
    decide
  rw [ipv4Netmask, subnetMask, hword n (by omega) (by omega), Int.toNat_natCast]

theorem insideSubnet_ok {subnet : Prefix} {name : String} {a : Addr}
    (h : insideSubnet subnet name a = .ok ()) : a.is4 = true := by
  have hfamily := (Outcome.guard_ok h).1
  simp only [not_or, Bool.not_eq_false] at hfamily
  exact hfamily.2

variable {c : DNSConfig}

theorem DNSConfig.accepted (h : c.validate = .ok ()) : c.Accepted := by
  obtain ⟨_, hinterface, h⟩ := Outcome.bind_ok h
  obtain ⟨-, h⟩ := Outcome.guard_ok h
  obtain ⟨-, h⟩ := Outcome.guard_ok h
  obtain ⟨hbits, h⟩ := Outcome.guard_ok h
  obtain ⟨-, h⟩ := Outcome.guard_ok h
  obtain ⟨_, hgateway, h⟩ := Outcome.bind_ok h
  obtain ⟨_, hstart, h⟩ := Outcome.bind_ok h
  obtain ⟨_, hend, h⟩ := Outcome.bind_ok h
  obtain ⟨-, h⟩ := Outcome.guard_ok h
  obtain ⟨-, h⟩ := Outcome.guard_ok h
  obtain ⟨-, h⟩ := Outcome.guard_ok h
  obtain ⟨_, hfile, h⟩ := Outcome.bind_ok h
  obtain ⟨-, h⟩ := Outcome.guard_ok h
  obtain ⟨-, h⟩ := Outcome.guard_ok h
  obtain ⟨-, h⟩ := Outcome.guard_ok h
  obtain ⟨_, huser, h⟩ := Outcome.bind_ok h
  obtain ⟨_, hgroup, h⟩ := Outcome.bind_ok h
  have hrange : 8 ≤ c.subnet.bitCount ∧ c.subnet.bitCount ≤ 30 := by
    omega
  constructor
  case interface => exact inline_of_validConfigToken hinterface
  case gateway => exact inline_text_of_is4 (insideSubnet_ok hgateway)
  case rangeStart => exact inline_text_of_is4 (insideSubnet_ok hstart)
  case rangeEnd => exact inline_text_of_is4 (insideSubnet_ok hend)
  case leaseFile => exact inline_of_validAbsPath hfile
  case serviceUser => exact inline_of_validServiceAccount huser
  case serviceGroup => exact inline_of_validServiceAccount hgroup
  case mask => exact ipv4Netmask_eq hrange.1 hrange.2
  case cacheSize => exact not_lt.mp (Outcome.guard_ok h).1

/-- The cache size is printed as it is given. -/
theorem cacheSize_text {n : Int} (h : 0 ≤ n) :
    (if 0 < n then itoaInt n else "0") = itoaInt n := by
  by_cases hn : 0 < n
  · rw [if_pos hn]
  · have hzero : n = 0 := by omega
    rw [if_neg hn, hzero]
    decide

theorem dnsmasqLines_directive (h : c.Accepted) :
    (dnsmasqLines c).filterMap Line.directive = dnsmasqDirectives c := by
  have hfilter : (if c.filterAAAA then dnsmasqFilter else []).filterMap Line.directive =
      if c.filterAAAA then [("filter-AAAA", none)] else [] := by
    split <;> rfl
  rw [dnsmasqLines, List.filterMap_append, List.filterMap_append, hfilter, dnsmasqDirectives,
    ← cacheSize_text h.cacheSize, ← h.mask]
  rfl

theorem dnsmasq_inline (h : c.Accepted) (hzone : Inline c.upstream.1.zone) :
    ∀ d ∈ dnsmasqDirectives c, ∀ v ∈ d.2, Inline v := by
  have hport : Inline "53" := by decide
  have hcache : Inline (itoaInt c.cacheSize) := inline_itoaInt _
  have hserver : Inline c.resolver :=
    (((inline_text_iff _).mpr hzone).append (by decide)).append (inline_itoa _)
  have hcomma : Inline "," := by decide
  have hrange : Inline (c.rangeStart.text ++ "," ++ c.rangeEnd.text ++ "," ++
      subnetMask c.subnet.bitCount.toNat ++ "," ++ leaseTimeString c.leaseTime c.leaseNanos) :=
    (((((h.rangeStart.append hcomma).append h.rangeEnd).append hcomma).append
      (inline_dotted _)).append hcomma).append (inline_leaseTimeString _ _)
  have hrouter : Inline ("option:router," ++ c.gateway.text) :=
    Inline.append (by decide) h.gateway
  have hdns : Inline ("option:dns-server," ++ c.gateway.text) :=
    Inline.append (by decide) h.gateway
  cases hfilter : c.filterAAAA with
  | false | true =>
    simp [dnsmasqDirectives, hfilter, h.serviceUser, h.serviceGroup, h.interface, h.gateway,
      h.leaseFile, hport, hcache, hserver, hrange, hrouter, hdns]

/-! ### The lease time -/

theorem readDigits_itoa (n : Nat) : readDigits 10 (itoa n).toList = n := by
  rw [itoa_toList]
  exact readDigits_toDigits (by decide) (by decide) n

theorem leaseSeconds_itoa (n : Nat) : leaseSeconds (itoa n) = n := by
  have hlast : ∀ c ∈ (itoa n).toList.getLast?, c ∈ Text.decimalDigits :=
    fun c hc => mem_itoa (List.mem_of_getLast? hc)
  unfold leaseSeconds
  split
  · rename_i hh
    exact absurd (hlast 'h' hh) (by decide)
  · rename_i hm
    exact absurd (hlast 'm' hm) (by decide)
  · exact readDigits_itoa n

/-- The text of a lease time stands for its whole seconds. -/
theorem leaseSeconds_leaseTimeString (s ns : Nat) :
    leaseSeconds (leaseTimeString s ns) = s := by
  unfold leaseTimeString
  split
  · rename_i hhour
    have hread : leaseSeconds (itoa (s / 3600) ++ "h") = s / 3600 * 3600 := by
      simp [leaseSeconds, readDigits_itoa]
    rw [hread]
    omega
  · split
    · rename_i hminute
      have hread : leaseSeconds (itoa (s / 60) ++ "m") = s / 60 * 60 := by
        simp [leaseSeconds, readDigits_itoa]
      rw [hread]
      omega
    · exact leaseSeconds_itoa s

/-! ### The file -/

theorem server_mem (c : DNSConfig) : ("server", some c.resolver) ∈ dnsmasqDirectives c := by
  simp [dnsmasqDirectives]

theorem renderDnsmasq_ok (h : c.validate = .ok ()) :
    renderDnsmasq c = .ok (render (dnsmasqLines c)) := by
  rw [renderDnsmasq, h]
  rfl

/-- **dnsmasq reads what was configured** exactly when the zone of the upstream
stays within its line and the lease time is a whole number of seconds. -/
theorem says_render_iff (h : c.Accepted) :
    c.Says (render (dnsmasqLines c)) ↔ Inline c.upstream.1.zone ∧ c.leaseNanos = 0 := by
  have hlease : leaseSeconds (leaseTimeString c.leaseTime c.leaseNanos) * 1000000000 =
      c.leaseTime * 1000000000 + c.leaseNanos ↔ c.leaseNanos = 0 := by
    rw [leaseSeconds_leaseTimeString, Fin.ext_iff]
    show _ ↔ (c.leaseNanos : Nat) = 0
    omega
  rw [DNSConfig.Says, hlease, and_congr_left_iff]
  intro _
  constructor
  · -- a value that is read back is one line, and the upstream is one of them
    intro hread
    have hserver : ("server", some c.resolver) ∈ directives (render (dnsmasqLines c)) := by
      rw [hread]
      exact server_mem c
    have hresolver : Inline c.resolver := line_feed_notMem hserver
    rw [← inline_text_iff]
    intro hmem
    apply hresolver
    simp [DNSConfig.resolver, hmem]
  · intro hzone
    have hmeant := dnsmasqLines_directive h
    rw [directives_render (hmeant ▸ dnsmasq_inline h hzone), hmeant]

/-- What stands after a line feed in the zone is read as a directive of the
file, with the port at its end. -/
theorem zone_injects {bits : BitVec 128} {zone line : String} {d : Directive}
    (hup : c.upstream.1 = .v6 bits (zone ++ "\n" ++ line)) (hline : Inline line)
    (hd : readLine (line ++ "#" ++ itoa c.upstream.2.toNat) = some d) :
    d ∈ directives (render (dnsmasqLines c)) := by
  have hserver : Line.setting "server" c.resolver ∈ dnsmasqLines c := by
    simp [dnsmasqLines, dnsmasqHead, DNSConfig.resolver]
  have htext : c.upstream.1.text = v6Text bits.toNat ++ ("%" ++ (zone ++ "\n" ++ line)) := by
    have hzone : zone ++ "\n" ++ line ≠ "" := by simp
    rw [hup, Addr.text, if_neg hzone]
  have hresolver : c.resolver = v6Text bits.toNat ++ "%" ++ zone ++ "\n" ++
      (line ++ "#" ++ itoa c.upstream.2.toNat) := by
    simp only [DNSConfig.resolver, htext, String.append_assoc]
  obtain ⟨a, b, hsplit⟩ := List.append_of_mem hserver
  rw [hsplit]
  simp only [hresolver]
  exact mem_directives_of_injected ((hline.append (by decide)).append (inline_itoa _)) hd

/-- **The daemons read what was configured.**  For every access point and
every DHCP and DNS service the validators accept, both files are printed;
hostapd reads its fixed list of directives with the fields as given, and
dnsmasq does exactly when no line feed stands in the zone of the upstream and
the lease time has no fraction of a second. -/
theorem rendered_says_iff {ap : APConfig} {dns : DNSConfig}
    (hap : ap.validate false = .ok ()) (hdns : dns.validate = .ok ()) :
    (∃ text, renderHostapd ap = .ok text ∧ directives text = hostapdDirectives ap) ∧
    ∃ text, renderDnsmasq dns = .ok text ∧
      (dns.Says text ↔ Inline dns.upstream.1.zone ∧ dns.leaseNanos = 0) :=
  ⟨renderHostapd_directives hap, _, renderDnsmasq_ok hdns, says_render_iff (DNSConfig.accepted hdns)⟩

/-- An access point and a service as the appliance sets them up. -/
def demoAP : APConfig :=
  { interface := "wlan0", ssid := "Caspian", passphrase := "horse-battery", countryCode := "GB",
    channel := 6, band := .band2GHz }

def demoDNS (upstream : Addr) : DNSConfig :=
  { interface := "wlan0"
    subnet := Prefix.ofAddr (.v4 0xc0a84200#32) 24
    gateway := .v4 0xc0a84201#32
    rangeStart := .v4 0xc0a8420a#32
    rangeEnd := .v4 0xc0a842fa#32
    leaseTime := 43200
    leaseFile := "/var/lib/caspian/dnsmasq.leases"
    upstream := (upstream, 5353)
    cacheSize := 1000
    serviceUser := defaultServiceUser
    serviceGroup := defaultServiceGroup }

theorem demo_says :
    (∃ text, renderHostapd demoAP = .ok text ∧ directives text = hostapdDirectives demoAP) ∧
    ∃ text, renderDnsmasq (demoDNS (.v4 0x7f000001#32)) = .ok text ∧
      (demoDNS (.v4 0x7f000001#32)).Says text := by
  obtain ⟨hhostapd, text, htext, hsays⟩ :=
    rendered_says_iff (show demoAP.validate false = .ok () by decide)
      (show (demoDNS (.v4 0x7f000001#32)).validate = .ok () by decide)
  exact ⟨hhostapd, text, htext, hsays.mpr (by decide)⟩

/-- An upstream on the machine itself whose zone names a second resolver. -/
def zonedUpstream : Addr := .v6 1#128 "lo\nserver=9.9.9.9"

theorem zonedUpstream_injects :
    ∃ text, renderDnsmasq (demoDNS zonedUpstream) = .ok text ∧
      ("server", some "9.9.9.9#5353") ∈ directives text ∧
      ¬(demoDNS zonedUpstream).Says text := by
  have hvalid : (demoDNS zonedUpstream).validate = .ok () := by decide
  refine ⟨_, renderDnsmasq_ok hvalid, ?_, ?_⟩
  · exact @zone_injects _ 1#128 "lo" "server=9.9.9.9" _ rfl (by decide) (by decide)
  · rw [says_render_iff (DNSConfig.accepted hvalid)]
    decide

end Caspian.Hotspot
