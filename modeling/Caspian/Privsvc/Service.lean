import Caspian.Verified.Action
import Caspian.Netcfg.Apply
import Caspian.Privsvc.HotspotPlan

/-!
# The privileged service

The state of the service and its five operations: `Start`, `Stop`, `Cut`,
`Restore` and `Recover`.  What the service talks to, the runner, the backend,
the engine, the access point's supervisor, the resolver, the journal's files
and the packet forwarder, is a `Host`: a record of functions over the state of
the machine, each of which may fail.  The service's own decisions are the
functions of the packages modelled elsewhere: the checks of the request, the
planner and the rendering of the access point.

Beside the fields of the source the state keeps `calls`, the calls that open
or close something, newest first.  An applier or a forwarder is known by the
number of calls that were made before it was opened.
-/

namespace Caspian.Privsvc

open Verified Verified.Action Netip Netcfg

/-! ## What is around the service -/

/-- What a detection reports: the facts, and the knobs that were read. -/
structure Detection where
  facts : Facts
  current : Readings

/-- `tunnelFacts`. -/
structure TunnelFacts where
  subnet : Prefix := .zero
  directInterface : String := ""

/-- `tunnelFactsOf`. -/
def tunnelFactsOf (p : Plan) : TunnelFacts where
  subnet := p.tunSubnet
  directInterface :=
    if p.platform = .windows ∨ p.opts.strategy = .splitDefault then p.uplink else ""

/-- An open listener: the port it reports, and its address in words. -/
structure Listener where
  port : Int
  text : String

/-- What the supervisor says about the access point. -/
structure ApStatus where
  running : Bool
  reason : String

/-- `FailedStep`. -/
def failedStep (rep : Report) : Option Step :=
  (rep.results.find? (·.err.isSome)).map (·.step)

/-- Everything the service calls.  `σ` is the state of the machine, `Λ` a parsed
link, `Δ` an engine document and `E` an error. -/
structure Host (σ Λ Δ E : Type) where
  -- errors, and how they are classified
  text : E → String
  faultOf : E → Fault
  engineFault : E → Fault
  hotspotFault : ApStatus → Option E → Fault
  join : List E → E
  isSpoofUnsupported : E → Bool
  -- pure functions of other packages
  mac : List UInt8 → Fin 32 → UInt8
  configFromRequest : List UInt8 → Except Failure Λ
  validateSpoof : Λ → StartRequest → Except Failure Unit
  linkAddress : Λ → String
  linkPort : Λ → UInt16
  throughLoopback : Λ → Addr × UInt16 → Except E Λ
  engineDocument : Λ → StartRequest → Options → List Addr → TunnelFacts → UInt16 →
    Except Failure Δ
  validateDocument : Δ → Except E Unit
  baseSysctlKnobs : List String
  sysctlKnobs : Plan → List String
  -- the machine
  checkSupport : σ → Except E Unit × σ
  clockPlausible : σ → Bool × σ
  recover : σ → Except E Report × σ
  detect : List String → σ → Except E Detection × σ
  regulatoryDomain : σ → Option String × σ
  resolve : String → σ → Except E (List Addr) × σ
  listen : UInt16 → σ → Except E Listener × σ
  generatePassphrase : σ → String × σ
  newApplier : Nat → σ → Except E Unit × σ
  apply : Nat → List Step → σ → (Report × Option E) × σ
  teardown : Nat → σ → (Report × Option E) × σ
  assertHotspotInterfaceReleased : Plan → σ → Except E Unit × σ
  assertHotspotIsAccessPoint : Plan → String → σ → Except E Unit × σ
  startSNI : Nat → Addr × UInt16 → String → StartRequest → σ → Except E (Addr × UInt16) × σ
  closeSNI : Nat → σ → Except E Unit × σ
  engineStart : Option Δ → σ → Except E Unit × σ
  engineStop : σ → Except E Unit × σ
  supStart : Option Hotspot.Plan → σ → (ApStatus × Option E) × σ
  supStop : σ → Except E Unit × σ
  probe : Addr → UInt16 → σ → Except E Unit × σ
  run : Command → σ → Except E Unit × σ

/-! ## The state -/

/-- A call that opens or closes something. -/
inductive Call where
  | engineStart
  | engineStop
  | supStart
  | supStop
  | openApplier (i : Nat)
  | teardown (i : Nat)
  | openForwarder (i : Nat)
  | closeForwarder (i : Nat)
  deriving DecidableEq

def Call.onEngine : Call → Bool
  | .engineStart | .engineStop => true
  | _ => false

def Call.onSupervisor : Call → Bool
  | .supStart | .supStop => true
  | _ => false

/-- The fields of `Service`, the machine, and the calls made so far. -/
structure Service (σ Δ : Type) where
  world : σ
  running : Bool := false
  fingerprint : String := ""
  plan : Option Plan := none
  facts : Option Detection := none
  hotspotPlan : Option Hotspot.Plan := none
  engineDoc : Option Δ := none
  applier : Option Nat := none
  sniForwarder : Option Nat := none
  forward : ForwardState := .normal
  socksPort : UInt16 := 0
  serverPortValue : UInt16 := 0
  calls : List Call := []

/-- `New`. -/
def Service.new {σ Δ : Type} (w : σ) : Service σ Δ := { world := w }

/-- What `stopLocked` resets. -/
def Service.cleared {σ Δ : Type} (s : Service σ Δ) : Service σ Δ :=
  { s with
    applier := none, plan := none, running := false, fingerprint := "", forward := .normal
    engineDoc := none, socksPort := 0 }

section Steps

variable {σ Λ Δ E ε α : Type}

/-- Ask the machine. -/
def ask (f : σ → α × σ) : Action ε (Service σ Δ) α := fun s =>
  (.ok (f s.world).1, { s with world := (f s.world).2 })

/-- Remember a call. -/
def called (c : Call) : Action ε (Service σ Δ) Unit :=
  update fun s => { s with calls := c :: s.calls }

/-- The number of the next thing to be opened. -/
def freshId : Action ε (Service σ Δ) Nat := read fun s => s.calls.length

/-- The errors of an answer. -/
def errorsOf : Except E α → List E
  | .ok _ => []
  | .error e => [e]

end Steps

/-! ## The fingerprint of a request -/

/-- The eight bytes of a length, the highest first. -/
def lengthBytes (n : Nat) : List UInt8 :=
  [7, 6, 5, 4, 3, 2, 1, 0].map fun i => UInt8.ofNat (n / 256 ^ i)

/-- One field as it is written into the hash. -/
def fingerprintField (b : List UInt8) : List UInt8 := lengthBytes b.length ++ b

/-- The bytes of a text. -/
def utf8 (s : String) : List UInt8 := s.toUTF8.data.toList

/-- The fields that are written, in order. -/
def fingerprintFields (req : StartRequest) : List (List UInt8) :=
  req.configJSON ::
    [ req.spoofSNI,
      if req.tcpSplit then "tcp-split" else "",
      if req.tlsRecordSplit then "tls-record-split" else "",
      req.hotspot.ssid, req.hotspot.passphrase, req.hotspot.interface,
      itoaInt req.hotspot.channel, req.hotspot.band, req.hotspot.country, req.hotspot.subnet,
      req.network.internetInterface, req.network.dnsMode, req.network.onTunnelDown,
      req.network.clientIPv6, req.engineLogLevel ].map utf8

/-- The bytes that are hashed. -/
def fingerprintStream (req : StartRequest) : List UInt8 :=
  (fingerprintFields req).flatMap fingerprintField

/-- `hex.EncodeToString`. -/
def hexEncode (bytes : List UInt8) : String :=
  String.ofList <| bytes.flatMap fun b =>
    [Nat.digitChar (b.toNat / 16), Nat.digitChar (b.toNat % 16)]

namespace Host

variable {σ Λ Δ E ε α : Type} (H : Host σ Λ Δ E) (c : Config)

/-- `requestFingerprint`. -/
def requestFingerprint (req : StartRequest) : String :=
  hexEncode (List.ofFn (H.mac (fingerprintStream req)))

/-- Ask, and fail at `place` if the answer is an error. -/
def call (place : String) (fault : E → Fault) (f : σ → Except E α × σ) :
    Action Failure (Service σ Δ) α := do
  let answer ← ask f
  ofExcept (answer.mapError fun e => ⟨place, fault e, H.text e⟩)

/-! ## Stopping -/

/-- Close the packet forwarder, if one is open. -/
def closeForwarder : Action ε (Service σ Δ) (List E) := do
  match ← read fun s => s.sniForwarder with
  | none => pure []
  | some i =>
    called (.closeForwarder i)
    let answer ← ask (H.closeSNI i)
    update fun s => { s with sniForwarder := none }
    pure (errorsOf answer)

/-- Replay the journal of an applier, if there is one. -/
def teardownOf : Option Nat → Action ε (Service σ Δ) (List E)
  | none => pure []
  | some i => do
      called (.teardown i)
      let answer ← ask (H.teardown i)
      pure answer.2.toList

/-- `stopLocked`. -/
def stopLocked : Action Failure (Service σ Δ) Unit := do
  called .engineStop
  let engine ← ask H.engineStop
  let forwarder ← H.closeForwarder
  called .supStop
  let hotspot ← ask H.supStop
  let ap ← read fun s => s.applier
  update Service.cleared
  let journal ← H.teardownOf ap
  let errs := errorsOf engine ++ forwarder ++ errorsOf hotspot ++ journal
  refuse (!errs.isEmpty) ⟨"stop", H.faultOf (H.join errs), H.text (H.join errs)⟩

/-! ## Starting -/

/-- `recoverLocked`. -/
def recoverLocked : Action ε (Service σ Δ) (Except E Report) := ask H.recover

/-- Look at the machine. -/
def look (knobs : List String) : Action Failure (Service σ Δ) Detection :=
  H.call "detect" H.faultOf (H.detect knobs)

/-- `missingKnobs`. -/
def missingKnobs (d : Detection) (knobs : List String) : Bool :=
  knobs.any fun k => (d.current k).isNone

/-- The knobs are read again if the plan changes one that was not read. -/
def lookAgain (seen : Detection) (plan : Plan) : Action Failure (Service σ Δ) Detection :=
  if missingKnobs seen (H.sysctlKnobs plan) then H.look (H.sysctlKnobs plan) else pure seen

/-- The country of the request, of the radio, or of the configuration. -/
def countryFor (req : StartRequest) : Action ε (Service σ Δ) String :=
  if req.hotspot.country ≠ "" then pure req.hotspot.country
  else do
    let cc ← ask H.regulatoryDomain
    pure (cc.getD c.country)

/-- `chooseSocksPort`: the preferred port, or one the machine picks. -/
def chooseSocksPort (preferred : UInt16) : Action Failure (Service σ Δ) UInt16 := do
  match ← ask (H.listen preferred) with
  | .ok _ => pure preferred
  | .error _ =>
    match ← ask (H.listen 0) with
    | .error e =>
      stop ⟨"local proxy port", .unknown,
        "privsvc: no free loopback port for the local proxy: " ++ H.text e⟩
    | .ok ln =>
      if ln.port ≤ 0 ∨ 65535 < ln.port then
        stop ⟨"local proxy port", .unknown,
          "privsvc: the loopback listener reported no usable port (" ++ ln.text ++ ")"⟩
      else pure (UInt16.ofNat ln.port.toNat)

/-- `engineDocument`, on the port in force. -/
def document (l : Λ) (req : StartRequest) (o : Options) (pinned : List Addr)
    (tunnel : TunnelFacts) : Action Failure (Service σ Δ) Δ := do
  let port ← read fun s => if s.socksPort ≠ 0 then s.socksPort else c.socksPort
  ofExcept (H.engineDocument l req o pinned tunnel port)

/-- `engine.Validate`, failing at `place`. -/
def validate (place : String) (doc : Δ) : Action Failure (Service σ Δ) Unit :=
  ofExcept ((H.validateDocument doc).mapError fun e => ⟨place, .engineRejectedConfig, H.text e⟩)

/-- Open an applier and make it the one in force. -/
def openApplier : Action Failure (Service σ Δ) Nat := do
  let i ← freshId
  H.call "journal" H.faultOf (H.newApplier i)
  called (.openApplier i)
  update fun s => { s with applier := some i }
  pure i

/-- Render the access point of a plan, with a password made for it. -/
def renderHotspot (p : Plan) (facts : Facts) (req : StartRequest) (country : String) :
    Action Failure (Service σ Δ) Hotspot.Plan := do
  let generated ← ask H.generatePassphrase
  ofExcept (c.hotspotPlanFor generated p facts req country)

/-- The plan that was applied, its access point and what it was made from. -/
structure Applied where
  plan : Plan
  hotspot : Hotspot.Plan
  seen : Detection

/-- `faultOf` and the text of an error of `Apply`. -/
def applyFailure (e : E) : Failure := ⟨"apply", H.faultOf e, H.text e⟩

/-- The second half of `applyPreEngine`: the takeover, from a fresh reading. -/
def applyFallback (plan : Plan) (req : StartRequest) (country : String) :
    Action Failure (Service σ Δ) Applied := do
  let fresh ← H.look H.baseSysctlKnobs
  let fallback ← ofExcept ((hotspotTakeover plan fresh.facts).mapError fun e =>
    (⟨"hotspot takeover", planFault e, e.text⟩ : Failure))
  ofExcept (validateAgainstPlan req fallback)
  let hotspot ← H.renderHotspot c fallback fresh.facts req country
  let i ← H.openApplier
  let answer ← ask (H.apply i (fallback.preEngineSteps fresh.current))
  match answer.2 with
  | some e => stop (H.applyFailure e)
  | none => pure ⟨fallback, hotspot, fresh⟩

/-- `applyPreEngine`: apply, and fall back to a takeover if the radio refused to
create the interface and everything was undone. -/
def applyPreEngine (a : Applied) (req : StartRequest) (country : String) :
    Action Failure (Service σ Δ) Applied := do
  let i ← H.openApplier
  let answer ← ask (H.apply i (a.plan.preEngineSteps a.seen.current))
  match answer.2 with
  | none => pure a
  | some e =>
    refuse ((failedStep answer.1).all fun s => s.op ≠ opCreateIface) (H.applyFailure e)
    called (.teardown i)
    let undone ← ask (H.teardown i)
    refuse (undone.2.isSome || 0 < undone.1.failed) (H.applyFailure e)
    update fun s => { s with applier := none }
    H.applyFallback c a.plan req country

def spoofUnsupported : Failure :=
  ⟨"SNI spoofing", .sniSpoofUnsupported,
    "SNI spoofing needs an IPv4 TCP transport and a supported packet backend"⟩

def spoofUnavailable : Failure :=
  ⟨"SNI spoofing", .sniSpoofUnavailable, "the SNI spoofing packet backend is unavailable"⟩

/-- Open the packet forwarder to the first IPv4 server. -/
def openForwarder (l : Λ) (req : StartRequest) (plan : Plan) :
    Action Failure (Service σ Δ) (Addr × UInt16) :=
  match plan.serverAddr.find? (·.is4) with
  | none => stop spoofUnsupported
  | some remote => do
      let i ← freshId
      match ← ask (H.startSNI i (remote, H.linkPort l) plan.uplink req) with
      | .error e => stop (if H.isSpoofUnsupported e then spoofUnsupported else spoofUnavailable)
      | .ok addr =>
        called (.openForwarder i)
        update fun s => { s with sniForwarder := some i }
        pure addr

/-- `spoofDocument`. -/
def spoofDocument (l : Λ) (req : StartRequest) (plan : Plan) (o : Options) :
    Action Failure (Service σ Δ) Δ := do
  let addr ← H.openForwarder l req plan
  let forwarded ← ofExcept ((H.throughLoopback l addr).mapError fun _ => spoofUnavailable)
  let doc ← H.document c forwarded req o [] (tunnelFactsOf plan)
  H.validate "SNI spoofing" doc
  pure doc

/-- Start the engine on the published document. -/
def startEngine (doc : Option Δ) : Action Failure (Service σ Δ) Unit := do
  called .engineStart
  H.call "engine" H.engineFault (H.engineStart doc)

/-- Start the access point, which has to say that it runs. -/
def startHotspot (hp : Option Hotspot.Plan) : Action Failure (Service σ Δ) Unit := do
  called .supStart
  let answer ← ask (H.supStart hp)
  refuse (answer.2.isSome || !answer.1.running)
    ⟨"hotspot", H.hotspotFault answer.1 answer.2, (answer.2.map H.text).getD answer.1.reason⟩

/-- `assertHotspotInterfaceReleased`. -/
def assertReleased (plan : Plan) : Action Failure (Service σ Δ) Unit :=
  H.call "hotspot interface" H.faultOf (H.assertHotspotInterfaceReleased plan)

/-- `assertHotspotIsAccessPoint`. -/
def assertAccessPoint (plan : Plan) (ssid : String) : Action Failure (Service σ Δ) Unit :=
  H.call "hotspot readback" H.faultOf (H.assertHotspotIsAccessPoint plan ssid)

/-- The request is answered through the packet forwarder. -/
def spoofs (req : StartRequest) : Bool :=
  req.spoofSNI ≠ "" || req.tcpSplit || req.tlsRecordSplit

/-- What was read and checked before anything is decided: the link, the
machine, the country and the server's addresses. -/
structure Surveyed (Λ : Type) where
  link : Λ
  seen : Detection
  country : String
  servers : List Addr

/-- Steps 1 and 2 of `applyLocked`: the clock, and the request on its own. -/
def checkRequest (req : StartRequest) : Action Failure (Service σ Δ) Λ := do
  let clockRight ← ask H.clockPlausible
  refuse (!clockRight) ⟨"clock", .implausibleClock,
    "this machine's clock is earlier than the date this software was built"⟩
  let l ← ofExcept (H.configFromRequest req.configJSON)
  ofExcept (validateStatic req)
  ofExcept (H.validateSpoof l req)
  pure l

/-- Step 3 of `applyLocked`: undo what a previous run left behind. -/
def replayLeft : Action Failure (Service σ Δ) Unit := do
  let replayed ← H.recoverLocked
  let _ ← ofExcept (replayed.mapError fun e => (⟨"recover", H.faultOf e, H.text e⟩ : Failure))
  pure ()

/-- Steps 4 and 5 of `applyLocked`: the machine, and the server. -/
def inspect (l : Λ) (req : StartRequest) : Action Failure (Service σ Δ) (Surveyed Λ) := do
  let seen ← H.look H.baseSysctlKnobs
  ofExcept (c.validateAgainstFacts req seen.facts)
  let country ← H.countryFor c req
  let servers ← H.call "resolve" (fun _ => .serverNoAnswer) (H.resolve (H.linkAddress l))
  pure ⟨l, seen, country, servers⟩

/-- What was decided: the options, the plan and its access point, and the
document if the engine dials the server itself. -/
structure Settled (Δ : Type) where
  options : Options
  applied : Applied
  doc : Δ

/-- Steps 6 and 7 of `applyLocked`: the port, the plan, the document and the
access point. -/
def decide (v : Surveyed Λ) (req : StartRequest) : Action Failure (Service σ Δ) (Settled Δ) := do
  let port ← H.chooseSocksPort c.socksPort
  update fun s => { s with socksPort := port }
  let o ← ofExcept (c.netOptionsFor req port)
  let plan ← ofExcept ((planNetwork v.seen.facts v.servers o).mapError fun e =>
    (⟨"plan", planFault e, e.text⟩ : Failure))
  ofExcept (validateAgainstPlan req plan)
  let seen ← H.lookAgain v.seen plan
  let doc ← H.document c v.link req o plan.pinnedServers (tunnelFactsOf plan)
  H.validate "engine configuration" doc
  let hotspot ← H.renderHotspot c plan seen.facts req v.country
  pure ⟨o, ⟨plan, hotspot, seen⟩, doc⟩

/-- Steps 10 to 13 of `applyLocked`, on what was published: the engine, the
routes into the tunnel, the access point and its readback. -/
def bringUp (a : Applied) (doc : Δ) : Action Failure (Service σ Δ) Unit := do
  H.startEngine (some doc)
  let i ← read fun s => s.applier
  let answer ← ask (H.apply (i.getD 0) (a.plan.postEngineSteps a.seen.current))
  match answer.2 with
  | some e => stop (H.applyFailure e)
  | none =>
    H.startHotspot (some a.hotspot)
    H.assertAccessPoint a.plan a.hotspot.ap.ssid

/-- The document the engine is started on. -/
def finalDocument (l : Λ) (req : StartRequest) (plan : Plan) (d : Settled Δ) :
    Action Failure (Service σ Δ) Δ :=
  if spoofs req then H.spoofDocument c l req plan d.options else pure d.doc

/-- `applyLocked`. -/
def applyLocked (req : StartRequest) (fp : String) : Action Failure (Service σ Δ) Unit := do
  let l ← H.checkRequest req
  H.replayLeft
  let v ← H.inspect c l req
  let d ← H.decide c v req
  let a ← H.applyPreEngine c d.applied req v.country
  H.assertReleased a.plan
  let doc ← H.finalDocument c v.link req a.plan d
  update fun s =>
    { s with plan := some a.plan, facts := some a.seen, hotspotPlan := some a.hotspot
             engineDoc := some doc }
  H.bringUp a doc
  update fun s =>
    { s with running := true, fingerprint := fp, serverPortValue := H.linkPort v.link }

/-- The interface is still the access point, or free. -/
def assertOurs (plan : Option Plan) (ssid : String) : Action Failure (Service σ Δ) Unit :=
  match plan with
  | none => pure ()
  | some plan => do
      match ← ask (H.assertHotspotIsAccessPoint plan ssid) with
      | .ok () => pure ()
      | .error _ => H.assertReleased plan

/-- `reassertLocked`. -/
def reassertLocked : Action Failure (Service σ Δ) Unit := do
  let plan ← read fun s => s.plan
  let doc ← read fun s => s.engineDoc
  let hp ← read fun s => s.hotspotPlan
  let ssid := (hp.map (·.ap.ssid)).getD ""
  H.assertOurs plan ssid
  H.startEngine doc
  H.startHotspot hp
  match plan with
  | none => pure ()
  | some plan => H.assertAccessPoint plan ssid

/-- Dial the addresses until one answers. -/
def probeAll (port : UInt16) : List Addr → Option E → Action Failure (Service σ Δ) Unit
  | [], none => pure ()
  | [], some e => stop ⟨"server", .serverNoAnswer, H.text e⟩
  | a :: rest, _ => do
      match ← ask (H.probe a port) with
      | .ok () => pure ()
      | .error e => probeAll port rest (some e)

/-- `probeServer`. -/
def probeServer : Action Failure (Service σ Δ) Unit := do
  let plan ← read fun s => s.plan
  let port ← read fun s => s.serverPortValue
  match plan with
  | none => pure ()
  | some plan => if port = 0 then pure () else H.probeAll port plan.serverAddr none

/-! ## The operations -/

/-- Where in `Start` an error comes from. -/
inductive Place where
  | platform
  | reassert
  | stop
  | apply
  | probe
  deriving DecidableEq

/-- An error of `Start`, and where it comes from. -/
structure StartError where
  place : Place
  failure : Failure

/-- Apply from a machine at rest: undone if it fails, probed if it does not. -/
def startFresh (req : StartRequest) : Action StartError (Service σ Δ) Unit := do
  wrap (StartError.mk .apply)
    (onError (H.applyLocked c req (H.requestFingerprint req)) H.stopLocked)
  wrap (StartError.mk .probe) H.probeServer

/-- `Start`. -/
def start (req : StartRequest) : Action StartError (Service σ Δ) Unit := do
  wrap (StartError.mk .platform) (H.call "platform" H.faultOf H.checkSupport)
  let running ← read fun s => s.running
  let applied ← read fun s => s.fingerprint
  if running = false then H.startFresh c req
  else if applied = H.requestFingerprint req then wrap (StartError.mk .reassert) H.reassertLocked
  else do
    wrap (StartError.mk .stop) H.stopLocked
    H.startFresh c req

/-- The step `setForward` runs. -/
def forwardStep (plan : Plan) : ForwardState → Step
  | .normal => plan.restoreStep
  | .cut => plan.cutStep

def notRunning : Failure :=
  ⟨"cut", .notRunning,
    "privsvc: the appliance is not running, so there is no client traffic to cut"⟩

/-- `setForward` on the fields it read. -/
def setForwardOn (want : ForwardState) (plan : Option Plan) (running : Bool)
    (current : ForwardState) : Action Failure (Service σ Δ) Unit :=
  match plan with
  | none => stop notRunning
  | some plan =>
    if running = false then stop notRunning
    else if current = want then pure ()
    else do
      H.call "cut" H.faultOf (H.run (forwardStep plan want).run)
      update fun s => { s with forward := want }

/-- `setForward`. -/
def setForward (want : ForwardState) : Action Failure (Service σ Δ) Unit := do
  let plan ← read fun s => s.plan
  let running ← read fun s => s.running
  let current ← read fun s => s.forward
  H.setForwardOn want plan running current

/-- `Cut`. -/
def cut : Action Failure (Service σ Δ) Unit := H.setForward .cut

/-- `Restore`. -/
def restore : Action Failure (Service σ Δ) Unit := H.setForward .normal

/-- An error of `Recover`: the replay's, or that of the start after it. -/
inductive RecoverError where
  | replay (text : String)
  | start (e : StartError)

/-- `recoverToCleanMachine`. -/
def recoverToCleanMachine : Action RecoverError (Service σ Δ) Unit := do
  let stopped ← attempt H.stopLocked
  match ← H.recoverLocked with
  | .ok _ => pure ()
  | .error e =>
    match stopped with
    | .error stopErr =>
      stop (.replay ("recover: stopping failed (" ++ stopErr.text ++
        ") and replaying the journal failed: " ++ H.text e))
    | .ok () => stop (.replay ("recover: replaying the journal failed: " ++ H.text e))

/-- `Recover`. -/
def recoverService (req : StartRequest) : Action RecoverError (Service σ Δ) Unit := do
  H.recoverToCleanMachine
  wrap RecoverError.start (H.start c req)

/-- An operation of the service. -/
inductive Op where
  | start (req : StartRequest)
  | stop
  | cut
  | restore
  | recover (req : StartRequest)

/-- The state an operation leaves, whatever it returned. -/
def perform (op : Op) (s : Service σ Δ) : Service σ Δ :=
  match op with
  | .start req => (H.start c req s).2
  | .stop => (H.stopLocked s).2
  | .cut => (H.cut s).2
  | .restore => (H.restore s).2
  | .recover req => (H.recoverService c req s).2

/-- The state after a sequence of operations on a new service. -/
def performAll (ops : List Op) (w : σ) : Service σ Δ :=
  ops.foldl (fun s op => H.perform c op s) (Service.new w)

end Host

end Caspian.Privsvc
