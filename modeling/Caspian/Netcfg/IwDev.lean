import Caspian.Netcfg.Plan

/-!
# Reading `iw dev`

`ParseIwDev` walks the listing line by line: a `phy#` header names the radio
of the interfaces below it, an `Interface` line opens a stanza, any other line
one tab in closes it, and the lines under it fill the interface in.  The
readback of the access point and the status page both rest on what this
parser says about the hotspot interface.
-/

namespace Caspian.Netcfg

open Verified Netip

/-! ## The parser -/

/-- `strconv.Atoi`: a decimal number with an optional sign that fits 64 bits. -/
def atoi (cs : List Char) : Option Int :=
  let (neg, digits) :=
    match cs with
    | '-' :: ds => (true, ds)
    | '+' :: ds => (false, ds)
    | ds => (false, ds)
  if digits = [] ∨ digits.all isDec = false then none
  else
    let n : Int := readDigits 10 digits
    let v := if neg then -n else n
    if -2 ^ 63 ≤ v ∧ v < 2 ^ 63 then some v else none

def isBlank (c : Char) : Bool := c = ' ' || c = '\t'

/-- A line without its trailing blanks. -/
def iwLineOf (raw : List Char) : List Char := raw.rdropWhile isBlank

/-- `indentOf`. -/
def indentOf (line : List Char) : Nat := (line.takeWhile isBlank).length

/-- One field of a stanza. -/
def iwField (w : WirelessIface) (trimmed : List Char) : WirelessIface :=
  match Text.fields trimmed with
  | key :: value :: rest =>
    if key = "type".toList then { w with type := String.ofList value }
    else if key = "ssid".toList then
      { w with ssid :=
          String.ofList (Text.trimChars (Text.trimPrefix trimmed "ssid ".toList)) }
    else if key = "addr".toList then { w with mac := String.ofList value }
    else if key = "channel".toList then
      -- "channel 10 (2457 MHz), width: 20 MHz, center1: 2457 MHz"
      { w with
        channel := (atoi value).getD w.channel
        freqMHz := (rest.head?.bind fun mhz => atoi (Text.trimPrefix mhz ['('])).getD w.freqMHz }
    else w
  | _ => w

/-- The walk's state: the interfaces so far, the radio in force, and whether
the last interface's stanza is being read. -/
structure IwScan where
  ifaces : List WirelessIface := []
  phy : String := ""
  reading : Bool := false

/-- One line of the walk. -/
def iwLine (s : IwScan) (raw : List Char) : Except String IwScan :=
  let line := iwLineOf raw
  let trimmed := Text.trimChars line
  if trimmed = [] then .ok s
  else if "phy#".toList.isPrefixOf trimmed then
    .ok { s with phy := "phy" ++ String.ofList (Text.trimPrefix trimmed "phy#".toList) }
  else if "Interface ".toList.isPrefixOf trimmed then
    let name := String.ofList (Text.trimChars (Text.trimPrefix trimmed "Interface ".toList))
    if validInterfaceName name = false then
      .error ("netcfg: iw dev names an implausible interface " ++ Text.quote name)
    else .ok { s with ifaces := s.ifaces ++ [{ name := name, phy := s.phy }], reading := true }
  -- a stanza with no network device closes the one before it
  else if indentOf line = 1 then .ok { s with reading := false }
  else if s.reading = false then .ok s
  else .ok { s with ifaces := s.ifaces.modifyLast (iwField · trimmed) }

/-- `ParseIwDev`. -/
def parseIwDev (out : String) : Except String (List WirelessIface) := do
  let s ← (Text.splitChars '\n' out.toList).foldlM iwLine {}
  return s.ifaces

/-! ## The readback -/

/-- Why a readback failed. -/
inductive ReadbackError where
  | noInterface
  | unreadable (text : String)
  | notAccessPoint (detail : String)
  deriving DecidableEq

def ReadbackError.text : ReadbackError → String
  | noInterface => "netcfg: no hotspot interface to check"
  | unreadable text => text
  | notAccessPoint detail => "netcfg: the hotspot interface is not an access point: " ++ detail

def iwDevReadback : Command where
  path := binIw
  args := ["dev"]
  why := "read back what the interface actually is, rather than trusting that a command " ++
    "to change it succeeded"

/-- `readWireless`. -/
def readWireless (run : Command → Reply) (name : String) : Except ReadbackError WirelessIface :=
  match run iwDevReadback with
  | (_, some err) => .error (.unreadable ("netcfg: read wireless interfaces: " ++ err))
  | (res, none) =>
    match parseIwDev res.stdout with
    | .error e => .error (.unreadable e)
    | .ok ifaces =>
      match ifaces.find? (·.name = name) with
      | some w => .ok w
      | none =>
        .error (.notAccessPoint (name ++ " is not in the wireless interface list at all"))

/-- `linuxAssertHotspotIsAccessPoint`. -/
def linuxAssertHotspotIsAccessPoint (run : Command → Reply) (p : Plan) (ssid : String) :
    Except ReadbackError Unit :=
  if p.hotspot = "" then .error .noInterface
  else do
    let w ← readWireless run p.hotspot
    if w.isAccessPoint = false then
      .error (.notAccessPoint (p.hotspot ++ " reports type " ++ Text.quote w.type ++ ", not AP"))
    else if ssid ≠ "" ∧ w.ssid ≠ ssid then
      .error (.notAccessPoint (p.hotspot ++ " is an access point but broadcasts " ++
        Text.quote w.ssid ++ ", not " ++ Text.quote ssid))
    else .ok ()

/-! ## Detection -/

/-- What `iw dev <name> link` said. -/
structure LinkState where
  connected : Bool
  ssid : String

def iwDevDetect : Command where
  path := binIw
  args := ["dev"]
  why := "which interfaces are wireless, and which radio each one belongs to"

/-- The link's share of a detection: an access point is not asked, and an
answer without a name does not erase one. -/
def WirelessIface.withLink (probe : String → Option LinkState) (w : WirelessIface) :
    WirelessIface :=
  if w.isAccessPoint then w
  else
    match probe w.name with
    | none => w
    | some st =>
      { w with
        linkKnown := true
        associated := st.connected
        ssid := if st.ssid ≠ "" then st.ssid else w.ssid }

/-- The wireless interfaces of `Detect`: what `iw dev` lists, whether each
station is joined to a network, and what owns it. -/
def detectWireless (run : Command → Reply) (probe : String → Option LinkState)
    (owner : String → InterfaceManager) : List WirelessIface :=
  match run iwDevDetect with
  | (_, some _) => []
  | (res, none) =>
    match parseIwDev res.stdout with
    | .error _ => []
    | .ok ifaces =>
      ifaces.map fun w => { w.withLink probe with manager := owner w.name }

end Caspian.Netcfg
