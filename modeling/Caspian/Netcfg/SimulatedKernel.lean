import Caspian.Netcfg.Command

/-!
# The simulated kernel

The runner that answers the way a Linux kernel answers, including by
refusing.  What `Snapshot` shows is the `Core`: addresses by device, routes by
table, rules in order, knobs, and the interfaces with their type and whether
NetworkManager released them.  The other fields decide which requests are
refused.

The source keeps the interfaces, their types and their released flags in three
maps whose keys move together; here they are one map to a record.
-/

namespace Caspian.Netcfg

open Verified

structure SimRule where
  priority : String
  selector : String
  deriving DecidableEq, Repr

/-- An interface the kernel has. -/
structure Iface where
  type : String
  released : Bool := false
  deriving DecidableEq, Repr

/-- The part of the machine `Snapshot` renders. -/
structure Core where
  /-- Pairs of device and prefix. -/
  addrs : Finset (String × String) := ∅
  /-- Pairs of table and prefix. -/
  routes : Finset (String × String) := ∅
  rules : List SimRule := []
  sysctl : Finmap (fun _ : String => String) := ∅
  ifaces : Finmap (fun _ : String => Iface) := ∅
  deriving DecidableEq

/-- The lines of a snapshot, in no order. -/
def Core.lines (c : Core) : Multiset String :=
  c.addrs.val.map (fun a => "addr " ++ a.1 ++ " " ++ a.2) +
    c.routes.val.map (fun r => "route " ++ r.1 ++ " " ++ r.2) +
    (c.rules.map fun r => "rule " ++ r.priority ++ " " ++ r.selector) +
    c.sysctl.entries.map (fun e => "sysctl " ++ e.1 ++ "=" ++ e.2) +
    c.ifaces.entries.map (fun e => "iface " ++ e.1) +
    (c.ifaces.entries.filter (fun e => e.2.released = true)).map
      (fun e => "unmanaged " ++ e.1) +
    c.ifaces.entries.map (fun e => "iftype " ++ e.1 ++ "=" ++ e.2.type)

/-- `Snapshot`: the whole machine as sorted lines. -/
def Core.snapshot (c : Core) : List String := c.lines.sort

structure SimulatedKernel extends Core where
  macs : List (String × String) := []
  assoc : List (String × String) := []
  up : Finset String := ∅
  /-- Radios by interface, in the order a range over the map takes. -/
  ifacePhy : List (String × String) := []
  nft : Nat := 0
  ruleset : String := ""
  cmds : List Command := []
  reads : Option (Command → Reply) := none
  refuseSetType : String := ""
  inheritsParentMAC : Bool := false
  refuseLinkUp : String := ""
  refuseIfaceAdd : String := ""

/-! ## Answers -/

def simExists : String := "RTNETLINK answers: File exists"
def simNoEntry : String := "RTNETLINK answers: No such file or directory"
def simNoDev : String := "Cannot find device"
def simIwExists : String := "command failed: Invalid exchange (-52)"
def simIwNoDev : String := "command failed: No such device (-19)"

/-- `simFail`. -/
def simFail (msg : String) : Reply := ({ stderr := msg, exitCode := 2 }, some msg)

/-- A successful answer with nothing printed. -/
def simOK : Reply := ({}, none)

/-- `argAfter`: the argument following a keyword, or the empty text. -/
def argAfter (key : String) : List String → String
  | a :: b :: rest => if a = key then b else argAfter key (b :: rest)
  | _ => ""

namespace SimulatedKernel

/-- `m[key]`, the empty text when absent. -/
def textAt (m : List (String × String)) (key : String) : String := (m.lookup key).getD ""

/-- `m[key] = value`. -/
def setText (m : List (String × String)) (key value : String) : List (String × String) :=
  match m with
  | [] => [(key, value)]
  | e :: rest => if e.1 = key then (key, value) :: rest else e :: setText rest key value

/-- `delete(m, key)`. -/
def dropText (m : List (String × String)) (key : String) : List (String × String) :=
  m.filter fun e => e.1 ≠ key

/-- Commands the kernel does not model are answered by the fixtures. -/
def defer (k : SimulatedKernel) (c : Command) : SimulatedKernel × Reply :=
  (k, (k.reads.map fun read => read c).getD simOK)

/-! ## nft, sysctl and NetworkManager -/

def runNft (k : SimulatedKernel) (c : Command) : SimulatedKernel × Reply :=
  if 2 ≤ c.args.length ∧ c.args.head? = some "list" then
    if k.ruleset = "" then
      (k, { stderr := "Error: No such file or directory", exitCode := 1 },
        some "Error: No such file or directory")
    else (k, { stdout := k.ruleset }, none)
  else
    ({ k with
        nft := k.nft + 1
        ruleset := if Text.contains c.stdin "firewall teardown" then "" else c.stdin },
      simOK)

/-- The answer to a read of knobs. -/
def sysctlRead (k : SimulatedKernel) (args : List String) : String :=
  String.join (args.map fun a =>
    if Text.hasPrefix a "-" then ""
    else
      match k.sysctl.lookup a with
      | some v => a ++ " = " ++ v ++ "\n"
      | none => "")

def runSysctl (k : SimulatedKernel) (c : Command) : SimulatedKernel × Reply :=
  match c.args with
  | "-w" :: setting :: _ =>
    match Text.cut '=' setting with
    | none => (k, simFail "sysctl: malformed setting")
    | some (key, val) => ({ k with sysctl := k.sysctl.insert key val }, simOK)
  | args =>
    if k.sysctlRead args ≠ "" then (k, { stdout := k.sysctlRead args }, none)
    else k.defer c

/-- The device listing of NetworkManager. -/
def deviceStatus (k : SimulatedKernel) : String :=
  String.join ((k.ifaces.keys.sort).map fun n =>
    n ++ ":" ++
      (if ((k.ifaces.lookup n).map (·.released)).getD false then "unmanaged"
        else "connected") ++ "\n")

def runNmcli (k : SimulatedKernel) (c : Command) : SimulatedKernel × Reply :=
  match c.args with
  | "device" :: "set" :: name :: "managed" :: value :: _ =>
    match k.ifaces.lookup name with
    | none => (k, simFail ("Error: Device '" ++ name ++ "' not found."))
    | some i =>
      ({ k with ifaces := k.ifaces.insert name { i with released := value = "no" } },
        simOK)
  | args =>
    if ["device", "status"].isSuffixOf args then (k, { stdout := k.deviceStatus }, none)
    else (k, simOK)

/-! ## iw -/

/-- The MAC a created interface takes from one already on the radio. -/
def inheritMAC (k : SimulatedKernel) (name phy : String) : List (String × String) :=
  if k.inheritsParentMAC then
    match k.ifacePhy.find? fun e =>
        e.1 ≠ name && e.2 = phy && textAt k.macs e.1 ≠ "" with
    | some e => setText k.macs name (textAt k.macs e.1)
    | none => k.macs
  else k.macs

def runIfaceAdd (k : SimulatedKernel) (phy name type : String) :
    SimulatedKernel × Reply :=
  if k.refuseIfaceAdd ≠ "" then (k, simFail k.refuseIfaceAdd)
  else if name ∈ k.ifaces then (k, simFail simIwExists)
  else
    ({ k with
        ifaces := k.ifaces.insert name { type := type }
        ifacePhy := setText k.ifacePhy name phy
        macs := k.inheritMAC name phy },
      simOK)

def runIfaceDel (k : SimulatedKernel) (name : String) : SimulatedKernel × Reply :=
  if name ∈ k.ifaces then
    ({ k with
        ifaces := k.ifaces.erase name
        macs := dropText k.macs name
        assoc := dropText k.assoc name
        up := k.up.erase name
        ifacePhy := dropText k.ifacePhy name },
      simOK)
  else (k, simFail simIwNoDev)

def runSetType (k : SimulatedKernel) (name type : String) : SimulatedKernel × Reply :=
  if k.refuseSetType ≠ "" then (k, simFail k.refuseSetType)
  else
    match k.ifaces.lookup name with
    | none => (k, simFail simIwNoDev)
    | some i => ({ k with ifaces := k.ifaces.insert name { i with type := type } }, simOK)

def runIwLink (k : SimulatedKernel) (name : String) : SimulatedKernel × Reply :=
  if name ∈ k.ifaces then
    if textAt k.assoc name = "" then (k, { stdout := "Not connected.\n" }, none)
    else
      (k, { stdout := "Connected to 12:34:56:78:9a:bc (on " ++ name ++ ")\n\tSSID: " ++
              textAt k.assoc name ++ "\n\tfreq: 2457\n" }, none)
  else (k, simFail simIwNoDev)

/-- `runIw`.  The seventh argument of `interface add` is the type; the source
indexes it without a check, and every command the planner makes has it. -/
def runIw (k : SimulatedKernel) (c : Command) : SimulatedKernel × Reply :=
  match c.args with
  | ["dev", name, "link"] => k.runIwLink name
  | "dev" :: name :: "set" :: "type" :: type :: _ => k.runSetType name type
  | "phy" :: phy :: "interface" :: "add" :: name :: rest =>
    k.runIfaceAdd phy name ((rest.drop 1).headD "")
  | "dev" :: name :: "del" :: _ => k.runIfaceDel name
  | _ => k.defer c

/-! ## ip -/

/-- The refusal of `ip link set dev X up`, if there is one: a duplicate MAC on
an interface that is up, or a radio that already has one up. -/
def linkWall (k : SimulatedKernel) (name : String) : Option String :=
  let mac := textAt k.macs name
  let phy := textAt k.ifacePhy name
  if mac ≠ "" ∧ (k.macs.any fun e => e.1 ≠ name && e.2 = mac && e.1 ∈ k.up) = true then
    some "RTNETLINK answers: Name not unique on network"
  else if k.refuseLinkUp ≠ "" ∧ phy ≠ "" ∧
      (k.ifacePhy.any fun e => e.1 ≠ name && e.2 = phy && e.1 ∈ k.up) = true then
    some k.refuseLinkUp
  else none

def runLinkUp (k : SimulatedKernel) (name : String) : SimulatedKernel × Reply :=
  if name ∈ k.ifaces then
    match k.linkWall name with
    | some msg => (k, simFail msg)
    | none => ({ k with up := insert name k.up }, simOK)
  else (k, simFail simNoDev)

def runLinkShowDev (k : SimulatedKernel) (name : String) : SimulatedKernel × Reply :=
  if name ∈ k.ifaces then
    (k, { stdout := name ++ "  DOWN  <BROADCAST,MULTICAST>\n" }, none)
  else
    (k, { stderr := "Device \"" ++ name ++ "\" does not exist.", exitCode := 1 },
      some ("Device \"" ++ name ++ "\" does not exist."))

def runIPAddr (k : SimulatedKernel) (a : List String) : SimulatedKernel × Reply :=
  match a with
  | _ :: verb :: pfx :: _ :: _ =>
    let dev := argAfter "dev" a
    if dev = "" ∨ dev ∉ k.ifaces then (k, simFail simNoDev)
    else if verb = "add" then
      if (dev, pfx) ∈ k.addrs then (k, simFail simExists)
      else ({ k with addrs := insert (dev, pfx) k.addrs }, simOK)
    else if verb = "del" then
      if (dev, pfx) ∈ k.addrs then ({ k with addrs := k.addrs.erase (dev, pfx) }, simOK)
      else (k, simFail simNoEntry)
    else (k, simOK)
  | _ => (k, simOK)

/-- The table an `ip route` command names. -/
def routeTable (a : List String) : String :=
  if argAfter "table" a = "" then "main" else argAfter "table" a

def runIPRoute (k : SimulatedKernel) (family : String) (a : List String) :
    SimulatedKernel × Reply :=
  match a with
  | _ :: verb :: pfx :: _ =>
    let route := (routeTable a, family ++ pfx)
    if verb = "add" then
      if route ∈ k.routes then (k, simFail simExists)
      else ({ k with routes := insert route k.routes }, simOK)
    else if verb = "del" then
      if route ∈ k.routes then ({ k with routes := k.routes.erase route }, simOK)
      else (k, simFail simNoEntry)
    else (k, simOK)
  | _ => (k, simOK)

/-- The words of a rule without its priority pair. -/
def ruleSelector : List String → List String
  | "priority" :: _ :: rest => ruleSelector rest
  | ["priority"] => []
  | w :: rest => w :: ruleSelector rest
  | [] => []

/-- `nextFreePriority`: the highest value from 32765 down that no rule has. -/
def nextFreePriority (rules : List SimRule) : String :=
  ((List.range (rules.length + 1)).map fun i => Netip.itoaInt (32765 - i)).find?
    (fun p => !rules.any fun r => r.priority = p) |>.getD ""

def runIPRule (k : SimulatedKernel) (a : List String) : SimulatedKernel × Reply :=
  match a with
  | _ :: verb :: rest =>
    let prio := argAfter "priority" a
    let rule : SimRule :=
      { priority := prio, selector := String.intercalate " " (ruleSelector rest) }
    if verb = "add" then
      if prio = "" then
        ({ k with rules := k.rules ++ [{ rule with
            priority := nextFreePriority k.rules }] }, simOK)
      else if rule ∈ k.rules then (k, simFail simExists)
      else ({ k with rules := k.rules ++ [rule] }, simOK)
    else if verb = "del" then
      if rule ∈ k.rules then ({ k with rules := k.rules.erase rule }, simOK)
      else (k, simFail simNoEntry)
    else if verb = "show" ∨ verb = "list" then
      (k, { stdout := String.join (k.rules.map fun r =>
              r.priority ++ ":\t" ++ r.selector ++ "\n") }, none)
    else (k, simOK)
  | _ => (k, simOK)

/-- The flags before the object of an `ip` command: the family they choose, and
the rest. -/
def ipFlags : List String → String × List String
  | [] => ("", [])
  | a :: rest =>
    if Text.hasPrefix a "-" then
      let (family, words) := ipFlags rest
      (if family = "" ∧ a = "-6" then "v6:" else family, words)
    else ("", a :: rest)

/-- The second word asks for a listing, or is missing. -/
def isRead (a : List String) : Bool :=
  match a with
  | _ :: verb :: _ => verb = "show" || verb = "list"
  | _ => true

def runIPLink (k : SimulatedKernel) (c : Command) (a : List String) :
    SimulatedKernel × Reply :=
  if isRead a then
    match a with
    | _ :: _ :: "dev" :: name :: _ => k.runLinkShowDev name
    | _ => k.defer c
  else
    match a with
    | _ :: "set" :: "dev" :: name :: _ :: _ =>
      if a.getLast? = some "up" then k.runLinkUp name else (k, simOK)
    | _ => (k, simOK)

def runIP (k : SimulatedKernel) (c : Command) : SimulatedKernel × Reply :=
  let (family, a) := ipFlags c.args
  match a with
  | [] => (k, simOK)
  | object :: _ =>
    if object = "link" then k.runIPLink c a
    else if object = "address" ∨ object = "addr" then
      if isRead a then k.defer c else k.runIPAddr a
    else if object = "route" then
      if isRead a then k.defer c else k.runIPRoute family a
    else if object = "rule" then k.runIPRule a
    else k.defer c

/-! ## The runner -/

/-- `Run`. -/
def run (k : SimulatedKernel) (c : Command) : SimulatedKernel × Reply :=
  match validateCommand c with
  | some msg => (k, {}, some msg)
  | none =>
    let k := { k with cmds := k.cmds ++ [c] }
    if c.path = binNft then k.runNft c
    else if c.path = binSysctl then k.runSysctl c
    else if c.path = binNmcli then k.runNmcli c
    else if c.path = binIw then k.runIw c
    else k.runIP c

end SimulatedKernel

end Caspian.Netcfg
