import Caspian.Hotspot.Render
import Caspian.Hotspot.Rfkill
import Caspian.Verified.Action

/-!
# The supervisor of the two daemons

`Supervisor` keeps hostapd and dnsmasq running on the files `Render` prints.
Everything it does goes through `System`, and every call of `System` may fail;
what the machine does at the `n`-th call is the `n`-th `Turn`, so a statement
for all sequences of turns is one for every failure at every place, every
daemon that dies meanwhile and every radio that does not obey.

The machine holds the files, the processes and the radios.  A configuration
file carries the number of the call that changed it last and a process the
number of the call that spawned it, so that one can be compared with the
other; `cleared` keeps the radios whose block this program's `rfkill unblock`
took away.  Neither number nor `cleared` is seen by the program.

A write that fails may leave anything in the file.  A daemon reads its file
when it is spawned and writes its pid file when it gets to it.  A process that
was sent the second signal is gone.
-/

namespace Caspian.Hotspot

open Verified Verified.Action Netip
open Netcfg (atoi)

/-! ## The machine -/

/-- `procKind`. -/
inductive Daemon where
  | hostapd
  | dnsmasq
  deriving DecidableEq, Repr

/-- A process: one of the two daemons with the text it read, or another. -/
structure Proc where
  pid : Int
  daemon : Option Daemon := none
  loaded : String := ""
  spawnedAt : Nat := 0
  deriving DecidableEq

structure ConfFile where
  text : Option String := none
  changedAt : Nat := 0
  deriving DecidableEq

structure Machine where
  clock : Nat := 0
  conf : Daemon → ConfFile := fun _ => {}
  pidFile : Daemon → Option String := fun _ => none
  procs : List Proc := []
  radios : Radios
  cleared : List Int := []

/-- What the machine does at one call. -/
structure Turn where
  /-- the error, when the call fails -/
  fails : Option String := none
  exitCode : Int := 0
  stdout : String := ""
  stderr : String := ""
  /-- the processes that end meanwhile -/
  ends : List Int := []
  /-- the daemons that write their pid file meanwhile -/
  records : List Int := []
  /-- what a failed write leaves in the file -/
  leaves : Option String := none
  /-- whether a spawned daemon is running, and under which pid -/
  survives : Bool := true
  pid : Int := 1
  /-- the radios that do what `rfkill` tells them -/
  obeys : Int → Bool := fun _ => true

/-- `Result`. -/
structure CommandResult where
  exitCode : Int
  stdout : String
  stderr : String

/-- The pid file of a daemon once one of its processes has got to it. -/
def recorded (k : Daemon) (records : List Int) (procs : List Proc) (old : Option String) :
    Option String :=
  match procs.find? fun p => p.daemon = some k ∧ p.pid ∈ records with
  | some p => some (itoaInt p.pid ++ "\n")
  | none => old

namespace Machine

/-- What happens between two calls: processes end, and daemons get to their
pid files. -/
def meanwhile (m : Machine) (ends records : List Int) : Machine :=
  let procs := m.procs.filter fun p => p.pid ∉ ends
  { m with
    clock := m.clock + 1
    procs := procs
    pidFile := fun k => recorded k records procs (m.pidFile k) }

def setConf (m : Machine) (k : Daemon) (text : Option String) : Machine :=
  { m with conf := Function.update m.conf k { text := text, changedAt := m.clock } }

def removeConf (m : Machine) (k : Daemon) : Machine :=
  if (m.conf k).text = none then m else m.setConf k none

def removePid (m : Machine) (k : Daemon) : Machine :=
  { m with pidFile := Function.update m.pidFile k none }

def kill (m : Machine) (pid : Int) : Machine :=
  { m with procs := m.procs.filter fun p => p.pid ≠ pid }

/-- A daemon that finds its file and stays. -/
def spawn (m : Machine) (k : Daemon) (pid : Int) : Machine :=
  match (m.conf k).text with
  | some text =>
    { m with procs := { pid := pid, daemon := some k, loaded := text, spawnedAt := m.clock } ::
        m.procs }
  | none => m

/-- `rfkill unblock wifi`. -/
def unblock (m : Machine) (obeys : Int → Bool) : Machine :=
  { m with
    radios := m.radios.setSoft (fun d => d.wireless && obeys d.index) false
    cleared := m.cleared ++
      (m.radios.list.filter fun d =>
        d.wireless && obeys d.index && d.softBlocked).map RfkillDevice.index }

/-- `rfkill block`, for one radio. -/
def block (m : Machine) (obeys : Int → Bool) (i : Int) : Machine :=
  if obeys i then
    { m with
      radios := m.radios.setSoft (fun d => d.index = i) true
      cleared := m.cleared.filter fun j => j ≠ i }
  else m

end Machine

/-! ## The supervisor -/

/-- `Paths`, as far as the modelled functions read them. -/
structure Paths where
  hostapdBinary : String := "/usr/sbin/hostapd"
  hostapdCLIBinary : String := "/usr/sbin/hostapd_cli"
  dnsmasqBinary : String := "/usr/sbin/dnsmasq"
  pgrepBinary : String := "/usr/bin/pgrep"
  hostapdPID : String := "/run/caspian/hostapd.pid"
  dnsmasqPID : String := "/run/caspian/dnsmasq/dnsmasq.pid"

/-- What stays the same over a run: the paths, how often the two waits look
again, and the turns. -/
structure Env where
  paths : Paths := {}
  stopPolls : Nat := 30
  startTries : Nat := 20
  turns : Nat → Turn

structure Supervisor where
  machine : Machine
  unblocked : List RfkillDevice := []

/-- `ProcState`. -/
structure ProcState where
  running : Bool := false
  pid : Int := 0
  beaconing : Bool := false
  detail : String := ""
  deriving DecidableEq

/-- `Status`, without the devices the lease file names. -/
structure Status where
  running : Bool := false
  accessPoint : ProcState := {}
  dhcp : ProcState := {}
  radio : RadioState := {}
  reason : String := ""
  deriving DecidableEq

def Daemon.unit : Daemon → String
  | hostapd => "hotspot"
  | dnsmasq => "DHCP and DNS server"

def Paths.binary (p : Paths) : Daemon → String
  | .hostapd => p.hostapdBinary
  | .dnsmasq => p.dnsmasqBinary

def Paths.pidFile (p : Paths) : Daemon → String
  | .hostapd => p.hostapdPID
  | .dnsmasq => p.dnsmasqPID

/-- The first of the sentences whose marks stand in the text. -/
def explained (unit text : String) (exitCode : Int) : Option String :=
  let has := Text.contains text
  if has "rfkill" && has "block" then
    some "The wireless adapter is switched off. Caspian tried to switch it back on and could not."
  else if has "could not set channel" || has "failed to set channel" then
    some ("The wireless adapter would not accept the channel it was given. " ++
      "If this machine is also using WiFi for its internet connection, the hotspot has to " ++
      "use the same channel as that connection.")
  else if has "nl80211: could not configure driver mode" || has "does not support ap mode" ||
      has "driver does not support" then
    some ("This wireless adapter cannot create a hotspot. " ++
      "Plug in a USB WiFi adapter that supports one.")
  else if has "interface initialization failed" || has "could not read interface" ||
      has "no such device" then
    some ("The wireless adapter Caspian was told to use is not there any more. " ++
      "If it is a USB adapter, unplug it and plug it back in.")
  else if has "invalid configuration" || has "unknown configuration item" ||
      has "bad option" || has "unknown option" then
    some ("The " ++ unit ++ " software on this machine did not understand its settings. " ++
      "This is a fault in Caspian, not in anything you did.")
  else if has "cannot assign requested address" then
    some ("The address this machine keeps for the hotspot was not there when the " ++ unit ++
      " tried to use it. This is a fault in Caspian, not in anything you did. " ++
      "Restarting does not help. The line in the log naming the address is the one to send on.")
  else if has "address already in use" || has "failed to create listening socket" then
    some ("Another program on this machine is already answering on the address the " ++ unit ++
      " needs. Restart the machine, and if it happens again the other program has to be turned off.")
  else if has "permission denied" || has "operation not permitted" then
    some ("Caspian was not allowed to start the " ++ unit ++ ". It needs to run with " ++
      "administrator rights on this machine.")
  else if exitCode = 127 || has "no such file or directory" || has "command not found" then
    some ("The software Caspian needs for the " ++ unit ++ " is not installed on this machine.")
  else none

/-- `firstLine`. -/
def firstLine (s : String) : String :=
  match Text.cut '\n' s with
  | some (line, _) => Text.trimSpace line
  | none => s

/-- `explainFailure`. -/
def explainFailure (unit : String) (exitCode : Int) (stderr stdout : String) : String :=
  match explained unit (Text.toLower (stderr ++ "\n" ++ stdout)) exitCode with
  | some sentence => sentence
  | none =>
    let detail :=
      if Text.trimSpace stderr = "" then Text.trimSpace stdout else Text.trimSpace stderr
    if detail = "" then
      "The " ++ unit ++ " stopped with no explanation (code " ++ itoaInt exitCode ++ ")."
    else
      "The " ++ unit ++ " would not start and Caspian does not recognise the reason. " ++
        "It reported: " ++ firstLine detail

namespace Supervisor

variable (env : Env)

/-! ### Calls of `System` -/

/-- One call: the machine moves on, then does what was asked or fails. -/
def call {α : Type} (f : Turn → Machine → Except String α × Machine) :
    Action String Supervisor α := fun s =>
  let t := env.turns s.machine.clock
  let r := f t (s.machine.meanwhile t.ends t.records)
  (r.1, { s with machine := r.2 })

/-- The answer of a call that may fail. -/
def answer {α : Type} (t : Turn) (a : α) : Except String α :=
  match t.fails with
  | some e => .error e
  | none => .ok a

def commandResult (t : Turn) : CommandResult :=
  { exitCode := t.exitCode, stdout := t.stdout, stderr := t.stderr }

/-- A call that only looks. -/
def look {α : Type} (f : Turn → Machine → α) : Action String Supervisor α :=
  call env fun t m => (answer t (f t m), m)

/-- A call whose effect comes only with success. -/
def change (f : Turn → Machine → Machine) : Action String Supervisor Unit :=
  call env fun t m =>
    match t.fails with
    | some e => (.error e, m)
    | none => (.ok (), f t m)

def readConf (k : Daemon) : Action String Supervisor (Option String) :=
  look env fun _ m => (m.conf k).text

def writeConf (k : Daemon) (content : String) : Action String Supervisor Unit :=
  call env fun t m =>
    match t.fails, t.leaves with
    | some e, some rest => (.error e, m.setConf k (some rest))
    | some e, none => (.error e, m)
    | none, _ => (.ok (), m.setConf k (some content))

def removeConf (k : Daemon) : Action String Supervisor Unit :=
  change env fun _ m => m.removeConf k

def readPid (k : Daemon) : Action String Supervisor (Option String) :=
  look env fun _ m => m.pidFile k

def removePid (k : Daemon) : Action String Supervisor Unit :=
  change env fun _ m => m.removePid k

def processAlive (pid : Int) : Action String Supervisor Bool :=
  look env fun _ m => m.procs.any fun p => p.pid = pid

/-- `SignalProcess` with `SignalTerm`; a process that obeys ends later. -/
def signalTerm : Action String Supervisor Unit := look env fun _ _ => ()

def signalKill (pid : Int) : Action String Supervisor Unit :=
  change env fun _ m => m.kill pid

def sleep : Action String Supervisor Unit := look env fun _ _ => ()

/-- A daemon may be left running even when its command reports a failure. -/
def spawn (k : Daemon) : Action String Supervisor CommandResult :=
  call env fun t m => (answer t (commandResult t), if t.survives then m.spawn k t.pid else m)

/-- A run of `pgrep` or of `hostapd_cli`. -/
def runQuery : Action String Supervisor CommandResult := look env fun t _ => commandResult t

def runRfkillList : Action String Supervisor CommandResult :=
  look env fun t m => { commandResult t with stdout := m.radios.listing }

def runRfkillUnblock : Action String Supervisor Unit :=
  call env fun t m => (answer t (), m.unblock t.obeys)

def runRfkillBlock (i : Int) : Action String Supervisor Unit :=
  call env fun t m => (answer t (), m.block t.obeys i)

/-! ### Processes -/

/-- `livePID`. -/
def livePID (k : Daemon) : Action String Supervisor Int := do
  match ← readPid env k with
  | none => return 0
  | some b =>
    match atoi (Text.trimChars b.toList) with
    | none => return 0
    | some pid =>
      if pid ≤ 0 then return 0
      else do
        let alive ← processAlive env pid
        return if alive then pid else 0

/-- The wait of `terminate`: whether the process was seen gone. -/
def awaitEnd (pid : Int) : Nat → Action String Supervisor Bool
  | 0 => return false
  | n + 1 => do
      let alive ← processAlive env pid
      if alive then do
        sleep env
        awaitEnd pid n
      else return true

/-- `terminate`. -/
def terminate (pid : Int) : Action String Supervisor Unit := do
  signalTerm env
  let gone ← awaitEnd env pid env.stopPolls
  if gone then return ()
  else do
    let alive ← processAlive env pid
    if alive then signalKill env pid else return ()

def terminateAll : List Int → Action String Supervisor Unit
  | [] => return ()
  | pid :: pids => do
      terminate env pid
      terminateAll pids

/-- The pids `stopStrays` takes from the output of `pgrep`. -/
def strayPids (out : String) : List Int :=
  ((Text.fields out.toList).filterMap atoi).filter fun pid => 1 < pid

/-- `stopStrays`. -/
def stopStrays : Action String Supervisor Unit :=
  if env.paths.pgrepBinary = "" then return ()
  else do
    match ← attempt (runQuery env) with
    | .error _ => return ()
    | .ok res =>
      if res.exitCode ≠ 0 then return () else terminateAll env (strayPids res.stdout)

/-- `stopByPIDFile`. -/
def stopByPIDFile (k : Daemon) : Action String Supervisor Unit := do
  let pid ← livePID env k
  if 0 < pid then do
    terminate env pid
    removePid env k
  else removePid env k

/-- The wait of `awaitPID`. -/
def awaitPIDLoop (k : Daemon) : Nat → Action String Supervisor Int
  | 0 => stop ("hotspot: " ++ env.paths.pidFile k ++ " did not report a running process")
  | n + 1 => do
      let pid ← livePID env k
      if 0 < pid then return pid
      else do
        sleep env
        awaitPIDLoop k n

/-- `awaitPID`. -/
def awaitPID (k : Daemon) : Action String Supervisor Int := awaitPIDLoop env k env.startTries

/-- What makes room for the new process: the running one goes, or what may be
left of an earlier run does. -/
def clearTheWay (k : Daemon) (pid : Int) : Action String Supervisor Unit :=
  if 0 < pid then do
    terminate env pid
    removePid env k
  else do
    removePid env k
    stopStrays env

/-- The sentence for a daemon that did not record itself. -/
def notRecorded (k : Daemon) (res : CommandResult) : String :=
  if res.stderr = "" ∧ res.stdout = "" then
    "The " ++ k.unit ++ " started and then stopped without recording itself. " ++
      "The usual cause is that it is not allowed to write to " ++ env.paths.pidFile k ++ "."
  else explainFailure k.unit 0 res.stderr res.stdout

/-- `startProcess`. -/
def startProcess (k : Daemon) (confChanged : Bool) :
    Action (ProcState × String) Supervisor ProcState := do
  let pid ← wrap (fun e => ({}, e)) (livePID env k)
  if 0 < pid ∧ confChanged = false then
    return { running := true, pid := pid, detail := "already running" }
  else do
    wrap (fun e => ({}, e)) (clearTheWay env k pid)
    let res ← wrap (fun e => ({ detail := "The software Caspian needs for the " ++ k.unit ++
      " could not be started on this machine." }, e)) (spawn env k)
    if res.exitCode ≠ 0 then
      stop ({ detail := explainFailure k.unit res.exitCode res.stderr res.stdout },
        "hotspot: " ++ env.paths.binary k ++ " exited with code " ++ itoaInt res.exitCode)
    else do
      let newPID ← wrap (fun e => ({ detail := notRecorded env k res }, e)) (awaitPID env k)
      return { running := true, pid := newPID, detail := "started" }

/-- `writeIfChanged`. -/
def writeIfChanged (k : Daemon) (content : String) : Action String Supervisor Bool := do
  let old ← readConf env k
  if old = some content then return false
  else do
    writeConf env k content
    return true

/-! ### The radio -/

/-- `rfkillList`. -/
def rfkillList : Action String Supervisor (List RfkillDevice) := do
  let res ← runRfkillList env
  if res.exitCode ≠ 0 then
    stop ("hotspot: rfkill list exited with code " ++ itoaInt res.exitCode)
  else return parseRfkillList res.stdout

/-- The end of `ensureRadioUnblocked`: unblock, read back, and only then
record what is owed. -/
def unblockRadio (st : RadioState) (wereBlocked : List RfkillDevice) :
    Action (RadioState × String) Supervisor RadioState := do
  match ← attempt (runRfkillUnblock env) with
  | .error e =>
    stop ({ st with detail :=
      "The wireless adapter is switched off and Caspian could not switch it back on." }, e)
  | .ok _ =>
    match ← attempt (rfkillList env) with
    | .error _ =>
      return { st with detail :=
        "Caspian switched the wireless adapter on but could not confirm it." }
    | .ok devs =>
      let st := radioStateFrom (wirelessDevices devs) true
      if st.softBlocked ∨ st.hardBlocked then
        stop (st, "hotspot: the wireless adapter is still blocked after unblocking it")
      else do
        update fun s => { s with unblocked := wereBlocked }
        return st

/-- `ensureRadioUnblocked`. -/
def ensureRadioUnblocked : Action (RadioState × String) Supervisor RadioState := do
  match ← attempt (rfkillList env) with
  | .error _ =>
    return { detail := "Caspian could not check whether the wireless adapter is switched on." }
  | .ok devs =>
    let wireless := wirelessDevices devs
    let st := radioStateFrom wireless false
    if wireless = [] then return { detail := "This machine reports no wireless adapter." }
    else if st.hardBlocked then stop (st, "hotspot: the wireless adapter is hard blocked")
    else if st.softBlocked then
      unblockRadio env st (wireless.filter fun d => d.softBlocked && !d.hardBlocked)
    else return st

/-- The device of an index, the last one as in a map filled in order. -/
def deviceAt (devs : List RfkillDevice) (i : Int) : Option RfkillDevice :=
  devs.reverse.find? fun d => d.index = i

/-- A radio `reblockRadio` acts on: there, and not blocked in any way. -/
def isOn (devs : List RfkillDevice) (i : Int) : Bool :=
  (deviceAt devs i).any fun d => !d.softBlocked && !d.hardBlocked

/-- The loop of `reblockRadio`; the errors it meets. -/
def blockAll (now : List RfkillDevice) :
    List RfkillDevice → Action String Supervisor (List String)
  | [] => return []
  | d :: ours => do
      if isOn now d.index then do
        let r ← attempt (runRfkillBlock env d.index)
        let errs ← blockAll now ours
        match r with
        | .error e => return ("hotspot: switching the wireless adapter back off: " ++ e) :: errs
        | .ok _ => return errs
      else blockAll now ours

/-- The radios that were told to go off and report themselves on. -/
def stillOn (devs ours : List RfkillDevice) : List String :=
  (ours.filter fun d => isOn devs d.index).map fun d =>
    "hotspot: " ++ d.name ++ " was switched back off and still reports itself on, " ++
      "so this box has left the radio in a state it did not find it in"

/-- `reblockRadio`; the errors it joins. -/
def reblockRadio : Action String Supervisor (List String) := do
  let ours ← read Supervisor.unblocked
  update fun s => { s with unblocked := [] }
  if ours = [] then return []
  else do
    match ← attempt (rfkillList env) with
    | .error e =>
      return ["hotspot: reading the radio state before switching it back off: " ++ e]
    | .ok devs => do
        let errs ← blockAll env (wirelessDevices devs) ours
        if errs ≠ [] then return errs
        else do
          match ← attempt (rfkillList env) with
          | .error e => return ["hotspot: confirming the radio was switched back off: " ++ e]
          | .ok devs => return stillOn (wirelessDevices devs) ours

/-! ### Starting and stopping -/

/-- `parseHostapdStatus`, in the order of the lines. -/
def parseHostapdStatus (out : String) : List (String × String) :=
  (Text.lines out).filterMap fun line =>
    (Text.cut '=' (Text.trimSpace line)).map fun kv =>
      (Text.trimSpace kv.1, Text.trimSpace kv.2)

/-- `apBeaconing`. -/
def apBeaconing {ε : Type} : Action ε Supervisor Bool :=
  if env.paths.hostapdCLIBinary = "" then return true
  else do
    match ← attempt (runQuery env) with
    | .error _ => return false
    | .ok res =>
      return res.exitCode = 0 &&
        (parseHostapdStatus res.stdout).reverse.lookup "state" = some "ENABLED"

/-- `Start` from the files on, with what was found of the radio. -/
def startDaemons (files : Daemon → String) (radio : RadioState) :
    Action (Status × String) Supervisor Status := do
  let apChanged ← wrap (fun e => ({ radio := radio, reason :=
    "Caspian could not save the hotspot settings on this machine." }, e))
    (writeIfChanged env .hostapd (files .hostapd))
  let dnsChanged ← wrap (fun e => ({ radio := radio, reason :=
    "Caspian could not save the DHCP and DNS settings on this machine." }, e))
    (writeIfChanged env .dnsmasq (files .dnsmasq))
  let ap ← wrap (fun r => ({ radio := radio, accessPoint := r.1, reason := r.1.detail }, r.2))
    (startProcess env .hostapd apChanged)
  let dhcp ← wrap
    (fun r => ({ radio := radio, accessPoint := ap, dhcp := r.1, reason := r.1.detail }, r.2))
    (startProcess env .dnsmasq dnsChanged)
  let beaconing ← apBeaconing env
  if beaconing then
    return { running := ap.running && dhcp.running,
             accessPoint := { ap with beaconing := true }, dhcp := dhcp, radio := radio }
  else
    return { accessPoint := ap, dhcp := dhcp, radio := radio, reason :=
      "The hotspot software started but the network is not being broadcast yet." }

/-- `Start`, for the two files of a plan. -/
def startFiles (files : Daemon → String) : Action (Status × String) Supervisor Status := do
  let radio ← wrap (fun r => ({ radio := r.1, reason := r.1.detail }, r.2))
    (ensureRadioUnblocked env)
  startDaemons env files radio

/-- The errors of one daemon's share of `Stop`. -/
def stopDaemon (k : Daemon) : Action String Supervisor (List String) := do
  let a ← attempt (stopByPIDFile env k)
  let b ← attempt (stopStrays env)
  let c ← attempt (removeConf env k)
  return errorOf ("stopping the " ++ k.unit ++ ": ") a ++
    errorOf ("clearing a leftover " ++ k.unit ++ " process: ") b ++
    errorOf ("removing the generated " ++ k.unit ++ " configuration: ") c
where
  errorOf (what : String) : Except String Unit → List String
    | .ok _ => []
    | .error e => [what ++ e]

/-- `Stop`; the errors it joins, none when it succeeds. -/
def stop : Action String Supervisor (List String) := do
  let a ← stopDaemon env .hostapd
  let b ← stopDaemon env .dnsmasq
  let c ← reblockRadio env
  return a ++ b ++ c

end Supervisor

/-! ## Runs -/

/-- The two files `NewPlan` renders. -/
def Plan.files (p : Plan) : Daemon → String
  | .hostapd => (renderHostapd p.ap).toOption.getD ""
  | .dnsmasq => (renderDnsmasq p.dns).toOption.getD ""

/-- `Start`. -/
def Supervisor.start (env : Env) (plan : Plan) : Action (Status × String) Supervisor Status :=
  startFiles env plan.files

/-- What others do between two calls of the supervisor: processes end, daemons
record themselves, other programs run, and radios come, go and are switched. -/
structure Elsewhere where
  ends : List Int := []
  records : List Int := []
  others : List Int := []
  radios : Radios

inductive Event where
  | start (plan : Plan)
  | stop
  | elsewhere (e : Elsewhere)

/-- Forget the radios that are blocked again or gone. -/
def Machine.discharge (m : Machine) : Machine :=
  { m with
    cleared := m.cleared.filter fun i =>
      m.radios.list.any fun d => d.index = i && d.wireless && !d.softBlocked }

def Machine.elsewhere (m : Machine) (e : Elsewhere) : Machine :=
  let m := m.meanwhile e.ends e.records
  { m with
    procs := m.procs ++ e.others.map fun pid => { pid := pid }
    radios := e.radios }

namespace Supervisor

/-- A stop; one that succeeds settles what was owed. -/
def stopped (env : Env) (s : Supervisor) : Supervisor :=
  match stop env s with
  | (.ok [], s') => { s' with machine := s'.machine.discharge }
  | (_, s') => s'

def advance (env : Env) (s : Supervisor) : Event → Supervisor
  | .start plan => (start env plan s).2
  | .stop => stopped env s
  | .elsewhere e => { s with machine := s.machine.elsewhere e }

def run (env : Env) (s : Supervisor) (es : List Event) : Supervisor :=
  es.foldl (advance env) s

theorem run_nil (env : Env) (s : Supervisor) : run env s [] = s := rfl

theorem run_cons (env : Env) (s : Supervisor) (e : Event) (es : List Event) :
    run env s (e :: es) = run env (advance env s e) es := rfl

theorem advance_start (env : Env) (s : Supervisor) (plan : Plan) :
    advance env s (.start plan) = (startFiles env plan.files s).2 := rfl

/-- A machine after boot: no file, no process. -/
def boot (radios : Radios) : Supervisor where
  machine := { radios := radios }

end Supervisor

end Caspian.Hotspot
