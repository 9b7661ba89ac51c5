import Caspian.Netcfg.Command

/-!
# What the box reported about itself

`Facts` is everything a plan is derived from: links and their prefixes,
default routes, wireless interfaces and the radios behind them, the macOS
proxy settings, and the knob values read.  Only the fields some planning
function reads are kept.
-/

namespace Caspian.Netcfg

open Verified Netip

/-- `Platform`; the empty one stands for Linux. -/
inductive Platform where
  | unset
  | linux
  | darwin
  | windows
  | other (name : String)
  deriving DecidableEq, Repr

/-- The platform as it is printed. -/
def Platform.text : Platform → String
  | unset => ""
  | linux => "linux"
  | darwin => "darwin"
  | windows => "windows"
  | other name => name

/-- `ValidInterfaceNameOn`. -/
def validInterfaceNameOn (pl : Platform) (name : String) : Bool :=
  if pl = .windows then validWindowsInterfaceName name
  else validInterfaceName name

structure Link where
  name : String
  state : String := "UP"
  prefixes : List Prefix := []
  bus : String := ""
  deriving DecidableEq

structure DefaultRoute where
  family : Nat
  gateway : Addr := .invalid
  dev : String
  metric : Int := 0
  linkDown : Bool := false
  onLink : Bool := false
  deriving DecidableEq, Inhabited

/-- What owns a network interface. -/
inductive InterfaceManager where
  | unknown
  | networkManager
  | nothing
  | other (name : String)
  deriving DecidableEq, Repr

/-- The manager as it is printed. -/
def InterfaceManager.text : InterfaceManager → String
  | unknown => ""
  | networkManager => "NetworkManager"
  | nothing => "none"
  | other name => name

structure WirelessIface where
  name : String := ""
  phy : String := ""
  type : String := ""
  mac : String := ""
  ssid : String := ""
  channel : Int := 0
  freqMHz : Int := 0
  manager : InterfaceManager := .unknown
  associated : Bool := false
  linkKnown : Bool := false
  deriving DecidableEq

namespace WirelessIface

def isAccessPoint (w : WirelessIface) : Bool := Text.equalFold w.type "AP"

/-- The interface is joined to a network as a station. -/
def stationLink (w : WirelessIface) : Bool :=
  if w.isAccessPoint then false
  else if w.linkKnown then w.associated
  else w.ssid ≠ ""

def inUse (w : WirelessIface) : Bool :=
  if w.isAccessPoint then w.ssid ≠ "" else w.stationLink

end WirelessIface

/-! ## Radios -/

inductive RadioBand where
  | auto
  | band2GHz
  | band5GHz
  | other (name : String)
  deriving DecidableEq, Repr

def RadioBand.text : RadioBand → String
  | auto => ""
  | band2GHz => "2.4GHz"
  | band5GHz => "5GHz"
  | other name => name

structure Frequency where
  mhz : Int
  channel : Int
  noIR : Bool := false
  disabled : Bool := false
  radar : Bool := false
  deriving DecidableEq

def Frequency.usable (f : Frequency) : Bool :=
  !f.disabled && !f.noIR && !f.radar

structure ComboLimit where
  max : Int
  types : List String
  deriving DecidableEq

def ComboLimit.has (c : ComboLimit) (t : String) : Bool :=
  c.types.any fun have_ => Text.equalFold have_ t

structure Combination where
  limits : List ComboLimit := []
  total : Int := 0
  channels : Int := 0
  deriving DecidableEq

/-- One way of seating an interface type: the groups with one place fewer in
the group that took it. -/
def seatings (t : String) : List (ComboLimit × Int) → List (List (ComboLimit × Int))
  | [] => []
  | (l, left) :: rest =>
    (if left ≤ 0 ∨ l.has t = false then [] else [(l, left - 1) :: rest]) ++
      (seatings t rest).map fun rest' => (l, left) :: rest'

/-- The backtracking search of `Allows`. -/
def assign : List String → List (ComboLimit × Int) → Bool
  | [], _ => true
  | t :: ts, groups => (seatings t groups).any (assign ts)

/-- `Combination.Allows`. -/
def Combination.allows (c : Combination) (types : List String) : Bool :=
  if types.isEmpty then true
  else if 0 < c.total ∧ c.total < types.length then false
  else assign types (c.limits.map fun l => (l, l.max))

structure Phy where
  name : String
  modes : List String := []
  combinations : List Combination := []
  /-- The frequencies of every band, in order. -/
  frequencies : List Frequency := []
  deriving DecidableEq

def bandOf (mhz : Int) : RadioBand :=
  if 2400 ≤ mhz ∧ mhz ≤ 2500 then .band2GHz
  else if 4900 ≤ mhz ∧ mhz ≤ 5895 then .band5GHz
  else .auto

namespace Phy

def bandOfChannel (p : Phy) (ch : Int) : RadioBand :=
  match p.frequencies.find? (·.channel = ch) with
  | some f => bandOf f.mhz
  | none => .auto

def usableChannelsIn (p : Phy) (band : RadioBand) : List Int :=
  ((p.frequencies.filter fun f =>
      f.usable && decide (0 < f.channel) &&
        (band = .auto || bandOf f.mhz = band)).map (·.channel)).insertionSort (· ≤ ·)

def usableChannels (p : Phy) : List Int := p.usableChannelsIn .auto

def supportsAP (p : Phy) : Bool := p.modes.any fun m => Text.equalFold m "AP"

/-- `APWithStation`: the first combination that seats a station and an access
point together. -/
def apWithStation (p : Phy) : Option Combination :=
  p.combinations.find? fun c => c.allows ["managed", "AP"]

def declaresAPWithStation (p : Phy) : Bool := p.apWithStation.isSome

end Phy

/-! ## The whole report -/

/-- One macOS network service's SOCKS and bypass-domain settings. -/
structure SystemSOCKSState where
  service : String
  enabled : Bool := false
  server : String := ""
  port : UInt16 := 0
  authenticated : Bool := false
  bypassDomains : List String := []
  deriving DecidableEq

/-- The knob values that were read. -/
abbrev Readings := String → Option String

structure Facts where
  links : List Link := []
  routes : List DefaultRoute := []
  wireless : List WirelessIface := []
  phys : List Phy := []
  systemSOCKS : List SystemSOCKSState := []
  systemSOCKSKnown : Bool := false
  networkManagerPresent : Bool := false

namespace Facts

def linkByName (f : Facts) (name : String) : Option Link :=
  f.links.find? (·.name = name)

def wirelessByName (f : Facts) (name : String) : Option WirelessIface :=
  f.wireless.find? (·.name = name)

def phyByName (f : Facts) (name : String) : Option Phy :=
  f.phys.find? (·.name = name)

/-- The usable default route of a family with the lowest metric, the first of
equals. -/
def bestDefault (f : Facts) (family : Nat) : Option DefaultRoute :=
  f.routes.foldl
    (fun best r =>
      if r.family ≠ family ∨ r.linkDown = true ∨ r.dev = "" then best
      else
        match best with
        | none => some r
        | some b => if r.metric < b.metric then some r else some b)
    none

def primaryDefault (f : Facts) : Option DefaultRoute := f.bestDefault 4

def defaultV6 (f : Facts) : Option DefaultRoute := f.bestDefault 6

/-- Every network the machine is already on. -/
def occupiedPrefixes (f : Facts) : List Prefix :=
  (f.links.flatMap fun l => l.prefixes.map (·.masked)) ++
    (f.routes.filter (·.gateway.isValid)).map fun r =>
      Prefix.ofAddr r.gateway r.gateway.bitLen

end Facts

end Caspian.Netcfg
