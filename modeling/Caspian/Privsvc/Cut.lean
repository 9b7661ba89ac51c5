import Caspian.Netcfg.Loads
import Caspian.Privsvc.Lifecycle

/-!
# Cutting and restoring client traffic

`setForward` loads the ruleset of the state asked for, unless the flag says
that state is in force already.  The flag is set after a load that was
answered without an error, and only then.  So it is right as long as a load
that was answered with an error did nothing; a load whose answer was lost took
effect all the same, and the next request in the other direction is answered
from a flag that is wrong.

Here the service runs over a machine with the journal of the applier:
`Apply`, `Teardown` and `Recover` are the functions modelled before, and the
machine remembers the ruleset it was given last.
-/

namespace Caspian.Privsvc

open Verified Verified.Action Netcfg

variable {μ Λ Δ E ε α : Type}

/-! ## The service over a machine and its journal -/

/-- A function of the machine, beside the journal. -/
def besideJournal (f : μ → α × μ) (w : World μ) : α × World μ :=
  ((f w.machine).1, { w with machine := (f w.machine).2 })

/-- The host whose changes to the network go through the journal: `run` runs
commands, `err` makes an error of their message. -/
def Host.journalled (H : Host μ Λ Δ E) (digest : String → String) (run : Runner μ)
    (err : String → E) : Host (World μ) Λ Δ E where
  text := H.text
  faultOf := H.faultOf
  engineFault := H.engineFault
  hotspotFault := H.hotspotFault
  join := H.join
  isSpoofUnsupported := H.isSpoofUnsupported
  mac := H.mac
  configFromRequest := H.configFromRequest
  validateSpoof := H.validateSpoof
  linkAddress := H.linkAddress
  linkPort := H.linkPort
  throughLoopback := H.throughLoopback
  engineDocument := H.engineDocument
  validateDocument := H.validateDocument
  baseSysctlKnobs := H.baseSysctlKnobs
  sysctlKnobs := H.sysctlKnobs
  checkSupport := besideJournal H.checkSupport
  clockPlausible := besideJournal H.clockPlausible
  recover w :=
    let r := Netcfg.recover run w.machine w.journal.records
    (.ok r.2.2, { machine := r.1, journal := { w.journal with records := r.2.1 } })
  detect knobs := besideJournal (H.detect knobs)
  regulatoryDomain := besideJournal H.regulatoryDomain
  resolve name := besideJournal (H.resolve name)
  listen port := besideJournal (H.listen port)
  generatePassphrase := besideJournal H.generatePassphrase
  newApplier _ w := (.ok (), { w with journal := Journal.openOn w.journal.records })
  apply _ steps w :=
    let r := Netcfg.apply digest run steps w
    ((r.2.1, r.2.2.map err), r.1)
  teardown _ w :=
    let r := Netcfg.teardown run w
    ((r.2.2, none), { machine := r.1, journal := { w.journal with records := r.2.1 } })
  assertHotspotInterfaceReleased p := besideJournal (H.assertHotspotInterfaceReleased p)
  assertHotspotIsAccessPoint p ssid := besideJournal (H.assertHotspotIsAccessPoint p ssid)
  startSNI i remote uplink req := besideJournal (H.startSNI i remote uplink req)
  closeSNI i := besideJournal (H.closeSNI i)
  engineStart doc := besideJournal (H.engineStart doc)
  engineStop := besideJournal H.engineStop
  supStart hp := besideJournal (H.supStart hp)
  supStop := besideJournal H.supStop
  probe a port := besideJournal (H.probe a port)
  run c w :=
    let r := run w.machine c
    (match r.2.2 with
      | none => .ok ()
      | some msg => .error (err msg), { w with machine := r.1 })

/-- What is around the service when nothing but its own commands loads a
ruleset: the assumptions the results share. -/
structure Surroundings (H : Host μ Λ Δ E) (digest : String → String) (run : Runner μ)
    (loaded : μ → Option String) : Prop where
  loader : Loader run loaded
  never : NeverExists run
  digest : TellsApart digest
  leaves : ∀ text, H.Leaves fun s => loaded s.world = text

variable {p : Plan}

section Truth

variable {H : Host μ Λ Δ E} {digest : String → String} {run : Runner μ} {err : String → E}
  {loaded : μ → Option String} {c : Config}

/-- A call beside the journal leaves the ruleset that is loaded. -/
theorem unmoved_besideJournal {f : μ → α × μ}
    (hf : ∀ text, Unmoved (fun s : Service μ Δ => loaded s.world = text) f)
    {I : Service (World μ) Δ → Prop}
    (hI : ∀ s m, loaded m = loaded s.world.machine → I s →
      I { s with world := { s.world with machine := m } }) : Unmoved I (besideJournal f) :=
  fun s hs => hI s _ (hf _ (Service.new s.world.machine) rfl) hs

theorem Surroundings.journalled (h : Surroundings H digest run loaded)
    {I : Service (World μ) Δ → Prop}
    (hI : ∀ s m, loaded m = loaded s.world.machine → I s →
      I { s with world := { s.world with machine := m } }) :
    (H.journalled digest run err).Leaves I where
  checkSupport := unmoved_besideJournal (fun t => (h.leaves t).checkSupport) hI
  clockPlausible := unmoved_besideJournal (fun t => (h.leaves t).clockPlausible) hI
  detect k := unmoved_besideJournal (fun t => (h.leaves t).detect k) hI
  regulatoryDomain := unmoved_besideJournal (fun t => (h.leaves t).regulatoryDomain) hI
  resolve n := unmoved_besideJournal (fun t => (h.leaves t).resolve n) hI
  listen p := unmoved_besideJournal (fun t => (h.leaves t).listen p) hI
  generatePassphrase := unmoved_besideJournal (fun t => (h.leaves t).generatePassphrase) hI
  released p := unmoved_besideJournal (fun t => (h.leaves t).released p) hI
  accessPoint p n := unmoved_besideJournal (fun t => (h.leaves t).accessPoint p n) hI
  startSNI i a u r := unmoved_besideJournal (fun t => (h.leaves t).startSNI i a u r) hI
  closeSNI i := unmoved_besideJournal (fun t => (h.leaves t).closeSNI i) hI
  engineStart d := unmoved_besideJournal (fun t => (h.leaves t).engineStart d) hI
  engineStop := unmoved_besideJournal (fun t => (h.leaves t).engineStop) hI
  supStart p := unmoved_besideJournal (fun t => (h.leaves t).supStart p) hI
  supStop := unmoved_besideJournal (fun t => (h.leaves t).supStop) hI
  probe a p := unmoved_besideJournal (fun t => (h.leaves t).probe a p) hI

/-! ## What is known along a start -/

/-- A journal that is not in use is tidy. -/
def Shelved (s : Service (World μ) Δ) : Prop :=
  s.applier = none → Tidy s.world.journal.records

/-- Not running, and nothing in use. -/
def Quiet (s : Service (World μ) Δ) : Prop :=
  s.running = false ∧ s.forward = .normal ∧ s.applier = none ∧ Tidy s.world.journal.records

/-- Not running, and nothing in the journal is known to be done. -/
def Replayed (s : Service (World μ) Δ) : Prop :=
  s.running = false ∧ s.forward = .normal ∧ s.applier = none ∧ Untried s.world.journal.records

/-- An applier was opened on such a journal. -/
def Opened (s : Service (World μ) Δ) : Prop :=
  s.running = false ∧ s.forward = .normal ∧ s.applier ≠ none ∧ s.world.journal.Ordered ∧
    ∀ e ∈ s.world.journal.entries, e.phase = .begin

/-- A start on the way up, with an applier in use. -/
def Climbing (s : Service (World μ) Δ) : Prop :=
  s.running = false ∧ s.forward = .normal ∧ s.applier ≠ none

/-- The platform of the plan has a backend. -/
def Backed (p : Plan) : Prop := ∀ name, p.platform ≠ .other name

/-- The steps before the engine were applied. -/
def Staged (loaded : μ → Option String) (p : Plan) (s : Service (World μ) Δ) : Prop :=
  Climbing s ∧ Backed p ∧
    loaded s.world.machine =
      some (p.forwardText (if p.platform = .windows then .cut else .normal)) ∧
    (p.platform = .windows → ∀ e ∈ s.world.journal.entries, e.phase = .done →
      commandLine e.run = commandLine p.windowsPermitStep.run →
        e.run.stdin = p.windowsFilterSet .cut)

/-- The whole plan was applied and is published. -/
def Ready (loaded : μ → Option String) (p : Plan) (s : Service (World μ) Δ) : Prop :=
  Climbing s ∧ Backed p ∧ s.plan = some p ∧
    loaded s.world.machine = some (p.forwardText .normal)

/-- Running, with the ruleset of the flag loaded. -/
def Truthful (loaded : μ → Option String) (s : Service (World μ) Δ) : Prop :=
  s.running = true ∧ s.applier ≠ none ∧ ∃ p, s.plan = some p ∧ Backed p ∧
    loaded s.world.machine = some (p.forwardText s.forward)

variable {s : Service (World μ) Δ}

theorem Climbing.shelved (h : Climbing s) : Shelved s :=
  fun hnone => absurd hnone h.2.2

theorem Quiet.shelved (h : Quiet s) : Shelved s := fun _ => h.2.2.2

theorem Replayed.shelved (h : Replayed s) : Shelved s :=
  fun _ => h.2.2.2.1

/-- A stop shelves the journal. -/
theorem stopLocked_quiet :
    Triple (Shelved : Service (World μ) Δ → Prop) (H.journalled digest run err).stopLocked
      (fun _ => Quiet) (fun _ => Quiet) := by
  have hclose : ∀ X : Failure → Service (World μ) Δ → Prop, Triple Shelved
      ((H.journalled digest run err).closeForwarder : Action Failure _ (List E))
      (fun _ => Shelved) X := by
    intro X
    refine Triple.bind Triple.read fun fwd => ?_
    cases fwd with
    | none => exact Triple.pure fun s h => h.1
    | some i =>
      refine Triple.bind (Q := fun _ => Shelved) (Triple.update fun s h => h.1) fun _ => ?_
      refine Triple.bind (triple_ask fun _ h => h) fun answer => ?_
      refine Triple.bind (Triple.update_keep fun s h => h) fun _ => ?_
      exact Triple.pure fun _ h => h
  refine Triple.bind (Triple.update_keep fun s h => h) fun _ => ?_
  refine Triple.bind (triple_ask fun _ h => h) fun engine => ?_
  refine Triple.bind (hclose _) fun forwarder => ?_
  refine Triple.bind (Triple.update_keep fun s h => h) fun _ => ?_
  refine Triple.bind (triple_ask fun _ h => h) fun hotspot => ?_
  refine Triple.bind Triple.read fun ap => ?_
  refine Triple.bind (Q := fun _ s => s.running = false ∧ s.forward = .normal ∧
    s.applier = none ∧ (ap = none → Tidy s.world.journal.records)) ?_ fun _ => ?_
  · refine Triple.update fun s h => ⟨rfl, rfl, rfl, fun hap => h.1 (h.2.symm.trans hap)⟩
  refine Triple.bind (Q := fun _ => Quiet) ?_ fun journal =>
    Triple.refuse (fun _ h => h) (fun _ _ h => h)
  cases ap with
  | none => exact Triple.pure fun s h => ⟨h.1, h.2.1, h.2.2.1, h.2.2.2 rfl⟩
  | some i =>
    refine Triple.bind (Triple.update_keep fun s h => h) fun _ => ?_
    refine Triple.bind (Q := fun _ => Quiet) ?_ fun _ => Triple.pure fun _ h => h
    exact fun s h => ⟨h.1, h.2.1, h.2.2.1, (untried_teardown run s.world).1⟩

/-- Opening an applier on a replayed journal. -/
theorem openApplier_opened :
    Triple (Replayed : Service (World μ) Δ → Prop) (H.journalled digest run err).openApplier
      (fun _ => Opened) (fun _ => Shelved) := by
  refine Triple.bind Triple.look fun i => ?_
  refine Triple.bind (Q := fun _ s => s.running = false ∧ s.forward = .normal ∧
    s.world.journal.Ordered ∧ ∀ e ∈ s.world.journal.entries, e.phase = .begin) ?_ fun _ => ?_
  · intro s h
    exact ⟨h.1, h.2.1, ordered_openOn h.2.2.2.1, h.2.2.2.2⟩
  refine Triple.bind (Triple.update_keep fun s h => h) fun _ => ?_
  refine Triple.bind (Q := fun _ => Opened) ?_ fun _ => Triple.pure fun _ h => h
  exact Triple.update fun s h => ⟨h.1, h.2.1, by simp, h.2.2⟩

/-- Applying the steps before the engine. -/
theorem applyPre_staged (hsur : Surroundings H digest run loaded) (hp : Backed p)
    (current : Readings) (i : Nat) {X : Failure → Service (World μ) Δ → Prop} :
    Triple (Opened : Service (World μ) Δ → Prop)
      (ask ((H.journalled digest run err).apply i (p.preEngineSteps current)))
      (fun answer s => Climbing s ∧ (answer.2 = none → Staged loaded p s)) X := by
  intro s h
  refine ⟨⟨h.1, h.2.1, h.2.2.1⟩, fun hnone => ?_⟩
  have hok : (apply digest run (p.preEngineSteps current) s.world).2.2 = none :=
    Option.map_eq_none_iff.mp hnone
  refine ⟨⟨h.1, h.2.1, h.2.2.1⟩, hp, ?_, ?_⟩
  · exact loaded_apply_pre hsur.loader hsur.never hp
      (currentState_untried digest h.2.2.2.2) hok
  · exact fun hwin => entries_apply_pre h.2.2.2.1 h.2.2.2.2 hwin

/-- A climbing state is not disturbed by what happens beside the journal. -/
theorem Staged.besideJournal :
    ∀ (s : Service (World μ) Δ) m, loaded m = loaded s.world.machine → Staged loaded p s →
      Staged loaded p { s with world := { s.world with machine := m } } :=
  fun _ _ hm h => ⟨h.1, h.2.1, hm.trans h.2.2.1, h.2.2.2⟩

theorem applyFallback_staged (hsur : Surroundings H digest run loaded) (hp : Backed p)
    (req : StartRequest) (country : String) :
    Triple (Replayed : Service (World μ) Δ → Prop)
      ((H.journalled digest run err).applyFallback c p req country)
      (fun a => Staged loaded a.plan) (fun _ => Shelved) := by
  have hI : (H.journalled digest run err).Leaves Replayed :=
    hsur.journalled fun s m _ h => h
  have hE : ∀ (e : Failure) (s : Service (World μ) Δ), Replayed s → Shelved s :=
    fun _ _ h => h.shelved
  refine ((Host.keeps_call (hI.detect _) _ _).triple hE).bind fun fresh => ?_
  refine Triple.bind (Q := fun q s => Replayed s ∧ Backed q) ?_ fun fallback => ?_
  · refine Triple.ofExcept (fun q s hq h => ⟨h, ?_⟩) fun e s h => h.shelved
    have hbasis := hotspotTakeover_basis (Outcome.mapError_ok hq)
    simp only [Plan.basis, Prod.mk.injEq] at hbasis
    intro name
    rw [hbasis.2.2]
    exact hp name
  refine Triple.bind ((Keeps.ofExcept _).triple fun _ _ h => h.1.shelved) fun _ => ?_
  refine Triple.of_forall fun hq => ?_
  refine Triple.bind ((hI.renderHotspot c _ _ _ _).triple hE) fun hotspot => ?_
  refine Triple.bind openApplier_opened fun i => ?_
  refine Triple.bind (applyPre_staged hsur hq _ i) fun answer => ?_
  cases answer.2 with
  | some e => exact Triple.stop fun s h => h.1.shelved
  | none => exact Triple.pure fun s h => h.2 rfl

theorem applyPreEngine_staged (hsur : Surroundings H digest run loaded) (a : Host.Applied)
    (hp : Backed a.plan) (req : StartRequest) (country : String) :
    Triple (Replayed : Service (World μ) Δ → Prop)
      ((H.journalled digest run err).applyPreEngine c a req country)
      (fun a => Staged loaded a.plan) (fun _ => Shelved) := by
  refine Triple.bind openApplier_opened fun i => ?_
  refine Triple.bind (applyPre_staged hsur hp _ i) fun answer => ?_
  cases answer.2 with
  | none => exact Triple.pure fun s h => h.2 rfl
  | some e =>
    refine Triple.bind ((Keeps.refuse _ _).triple fun _ _ h => h.1.shelved) fun _ => ?_
    refine Triple.bind (Triple.update_keep fun s h => h) fun _ => ?_
    refine Triple.bind (Q := fun _ s => Climbing s ∧ Untried s.world.journal.records) ?_
      fun undone => ?_
    · exact fun s h => ⟨h.1, untried_teardown run s.world⟩
    refine Triple.bind ((Keeps.refuse _ _).triple fun _ _ h => h.1.shelved) fun _ => ?_
    refine Triple.bind (Q := fun _ => Replayed) ?_ fun _ =>
      applyFallback_staged hsur hp req country
    exact Triple.update fun s h => ⟨h.1.1, h.1.2.1, rfl, h.2⟩

/-- A plan is for the platform of the configuration. -/
theorem backed_of_plan (hc : ∀ name, c.platform ≠ .other name) {req : StartRequest} {port : UInt16}
    {o : Options} (ho : c.netOptionsFor req port = .ok o) {f : Facts} {servers : List Netip.Addr}
    (h : planNetwork f servers o = .ok p) : Backed p := by
  have hbasis := (planNetwork_basis h).1
  simp only [Plan.basis, Prod.mk.injEq] at hbasis
  have hkeep : o.tunName = c.netOptions.tunName ∧ o.platform = c.netOptions.platform := by
    simp only [Config.netOptionsFor] at ho
    split at ho
    · rw [← Except.ok.inj ho]
      exact ⟨rfl, rfl⟩
    · split at ho
      · cases ho
      · rw [← Except.ok.inj ho]
        exact ⟨rfl, rfl⟩
  have hplat : c.netOptions.platform = c.platform := by
    simp only [Config.netOptions]
    split <;> rfl
  have hne : o.tunName ≠ "" := hkeep.1 ▸ c.netOptions_tunName
  intro name
  rw [hbasis.2.2, withDefaults, if_neg hne, hkeep.2, hplat]
  exact hc name

theorem decide_backed (hsur : Surroundings H digest run loaded)
    (hc : ∀ name, c.platform ≠ .other name) (v : Host.Surveyed Λ) (req : StartRequest) :
    Triple (Replayed : Service (World μ) Δ → Prop) ((H.journalled digest run err).decide c v req)
      (fun d s => Replayed s ∧ Backed d.applied.plan) (fun _ => Shelved) := by
  have hI : (H.journalled digest run err).Leaves Replayed :=
    hsur.journalled fun s m _ h => h
  have hE : ∀ (e : Failure) (s : Service (World μ) Δ), Replayed s → Shelved s :=
    fun _ _ h => h.shelved
  have hport : Triple (Replayed : Service (World μ) Δ → Prop)
      ((H.journalled digest run err).chooseSocksPort c.socksPort) (fun _ => Replayed)
      (fun _ => Shelved) := by
    refine Triple.bind (triple_ask (hI.listen _)) fun first => ?_
    cases first with
    | ok ln => exact Triple.pure fun _ h => h
    | error e =>
      refine Triple.bind (triple_ask (hI.listen _)) fun second => ?_
      cases second with
      | error e => exact Triple.stop fun _ h => h.shelved
      | ok ln =>
        exact Triple.ite (fun _ => Triple.stop fun _ h => h.shelved) fun _ =>
          Triple.pure fun _ h => h
  refine Triple.bind hport fun port => ?_
  refine Triple.bind (Triple.update_keep fun s h => h) fun _ => ?_
  refine Triple.bind (Q := fun o s => Replayed s ∧ c.netOptionsFor req port = .ok o) ?_
    fun o => ?_
  · exact Triple.ofExcept (fun o s ho h => ⟨h, ho⟩) hE
  refine Triple.of_forall fun ho => ?_
  refine Triple.bind (Q := fun p s => Replayed s ∧ Backed p) ?_ fun plan => ?_
  · exact Triple.ofExcept
      (fun p s hp h => ⟨h, backed_of_plan hc ho (Outcome.mapError_ok hp)⟩) hE
  refine Triple.of_forall fun hp => ?_
  refine ((Keeps.ofExcept _).triple hE).bind fun _ => ?_
  refine ((hI.lookAgain _ _).triple hE).bind fun seen => ?_
  refine ((Host.keeps_document c _ _ _ _ _).triple hE).bind fun doc => ?_
  refine ((Host.keeps_validate _ _).triple hE).bind fun _ => ?_
  refine ((hI.renderHotspot c _ _ _ _).triple hE).bind fun hotspot => ?_
  exact Triple.pure fun _ h => ⟨h, hp⟩

/-- The document is made beside the journal. -/
theorem finalDocument_staged (hsur : Surroundings H digest run loaded) (l : Λ) (req : StartRequest)
    (d : Host.Settled Δ) :
    Triple (Staged loaded p : Service (World μ) Δ → Prop)
      ((H.journalled digest run err).finalDocument c l req p d) (fun _ => Staged loaded p)
      (fun _ => Shelved) := by
  have hI : (H.journalled digest run err).Leaves (Staged loaded p) :=
    hsur.journalled Staged.besideJournal
  have hE : ∀ (e : Failure) (s : Service (World μ) Δ), Staged loaded p s → Shelved s :=
    fun _ _ h => h.1.shelved
  refine Triple.ite (fun _ => ?_) fun _ => Triple.pure fun _ h => h
  refine Triple.bind (Q := fun _ => Staged loaded p) ?_ fun addr => ?_
  · unfold Host.openForwarder
    cases p.serverAddr.find? (·.is4) with
    | none => exact Triple.stop fun _ h => h.1.shelved
    | some remote =>
      refine Triple.bind Triple.look fun i => ?_
      refine Triple.bind (triple_ask (hI.startSNI _ _ _ _)) fun answer => ?_
      cases answer with
      | error e => exact Triple.stop fun _ h => h.1.shelved
      | ok addr =>
        refine Triple.bind (Triple.update_keep fun s h => h) fun _ => ?_
        refine Triple.bind (Triple.update_keep fun s h => h) fun _ => ?_
        exact Triple.pure fun _ h => h
  refine ((Keeps.ofExcept _).triple hE).bind fun forwarded => ?_
  refine ((Host.keeps_document c _ _ _ _ _).triple hE).bind fun doc => ?_
  refine ((Host.keeps_validate _ _).triple hE).bind fun _ => ?_
  exact Triple.pure fun _ h => h

/-- The steps after the engine put the normal ruleset in place. -/
theorem bringUp_ready (hsur : Surroundings H digest run loaded) (a : Host.Applied) (doc : Δ) :
    Triple (fun s : Service (World μ) Δ => Staged loaded a.plan s ∧ s.plan = some a.plan)
      ((H.journalled digest run err).bringUp a doc) (fun _ => Ready loaded a.plan)
      (fun _ => Shelved) := by
  have hstaged : (H.journalled digest run err).Leaves fun s : Service (World μ) Δ =>
      Staged loaded a.plan s ∧ s.plan = some a.plan :=
    hsur.journalled fun s m hm h => ⟨Staged.besideJournal s m hm h.1, h.2⟩
  have hready : (H.journalled digest run err).Leaves
      (Ready loaded a.plan : Service (World μ) Δ → Prop) :=
    hsur.journalled fun s m hm h => ⟨h.1, h.2.1, h.2.2.1, hm.trans h.2.2.2⟩
  refine ((hstaged.startEngine (fun s h => h) _).triple fun _ _ h => h.1.1.shelved).bind
    fun _ => ?_
  refine Triple.bind Triple.look fun i => ?_
  refine Triple.bind (Q := fun answer s => Climbing s ∧
    (answer.2 = none → Ready loaded a.plan s)) ?_ fun answer => ?_
  · rintro s ⟨⟨hclimb, hp, hload, hwin⟩, hplan⟩
    refine ⟨hclimb, fun hnone => ⟨hclimb, hp, hplan, ?_⟩⟩
    exact loaded_apply_post hsur.loader hsur.never hsur.digest hp hload hwin
      (Option.map_eq_none_iff.mp hnone)
  cases answer.2 with
  | some e => exact Triple.stop fun s h => h.1.shelved
  | none =>
    refine (((hready.startHotspot (fun s h => h) _).triple fun _ _ h => h.1.shelved).pre
      (fun s h => h.2 rfl)).bind fun _ => ?_
    exact (Host.keeps_call (hready.accessPoint _ _) _ _).triple fun _ _ h => h.1.shelved

/-- **An apply that goes through leaves the normal ruleset loaded.** -/
theorem applyLocked_truthful (hsur : Surroundings H digest run loaded)
    (hc : ∀ name, c.platform ≠ .other name) (req : StartRequest) (fp : String) :
    Triple (Quiet : Service (World μ) Δ → Prop)
      ((H.journalled digest run err).applyLocked c req fp) (fun _ => Truthful loaded)
      (fun _ => Shelved) := by
  have hquiet : (H.journalled digest run err).Leaves (Quiet : Service (World μ) Δ → Prop) :=
    hsur.journalled fun s m _ h => h
  have hreplayed : (H.journalled digest run err).Leaves (Replayed : Service (World μ) Δ → Prop) :=
    hsur.journalled fun s m _ h => h
  refine ((hquiet.checkRequest req).triple fun _ _ h => h.shelved).bind fun l => ?_
  refine Triple.bind (Q := fun _ => Replayed) ?_ fun _ => ?_
  · exact fun s h => ⟨h.1, h.2.1, h.2.2.1, untried_recover run s.world.machine h.2.2.2⟩
  refine ((hreplayed.inspect c l req).triple fun _ _ h => h.shelved).bind fun v => ?_
  refine (decide_backed hsur hc v req).bind fun d => ?_
  refine Triple.of_forall fun hp => ?_
  refine (applyPreEngine_staged hsur d.applied hp req v.country).bind fun a => ?_
  have hstaged : (H.journalled digest run err).Leaves
      (Staged loaded a.plan : Service (World μ) Δ → Prop) :=
    hsur.journalled Staged.besideJournal
  refine ((Host.keeps_call (hstaged.released _) _ _).triple fun _ _ h => h.1.shelved).bind
    fun _ => ?_
  refine (finalDocument_staged hsur v.link req d).bind fun doc => ?_
  refine Triple.bind (Q := fun _ s => Staged loaded a.plan s ∧ s.plan = some a.plan)
    (Triple.update fun s h => ⟨h, rfl⟩) fun _ => ?_
  refine (bringUp_ready hsur a doc).bind fun _ => ?_
  refine Triple.update fun s h => ⟨rfl, h.1.2.2, a.plan, h.2.2.1, h.2.1, ?_⟩
  rw [h.1.2.1]
  exact h.2.2.2

/-! ## The operations -/

/-- Between two operations: at rest, or telling the truth. -/
def Told (loaded : μ → Option String) (s : Service (World μ) Δ) : Prop :=
  Quiet s ∨ Truthful loaded s

theorem Told.shelved (h : Told loaded s) : Shelved s := by
  rcases h with h | h
  · exact h.shelved
  · exact fun hnone => absurd hnone h.2.1

theorem Truthful.besideJournal :
    ∀ (s : Service (World μ) Δ) m, loaded m = loaded s.world.machine → Truthful loaded s →
      Truthful loaded { s with world := { s.world with machine := m } } := by
  rintro s m hm ⟨hrun, hap, p, hplan, hp, hload⟩
  exact ⟨hrun, hap, p, hplan, hp, hm.trans hload⟩

theorem startFresh_told (hsur : Surroundings H digest run loaded)
    (hc : ∀ name, c.platform ≠ .other name) (req : StartRequest) :
    Triple (Quiet : Service (World μ) Δ → Prop) ((H.journalled digest run err).startFresh c req)
      (fun _ => Told loaded) (fun _ => Told loaded) := by
  refine Triple.bind (Q := fun _ => Truthful loaded) ?_ fun _ => ?_
  · refine Triple.wrap ((applyLocked_truthful hsur hc req _).onError fun e => ?_)
    exact stopLocked_quiet.post (fun _ _ h => .inl h) (fun _ _ h => .inl h)
  · have hI : (H.journalled digest run err).Leaves
        (Truthful loaded : Service (World μ) Δ → Prop) :=
      hsur.journalled Truthful.besideJournal
    exact Triple.wrap (hI.probeServer.post (fun _ _ h => .inr h)
      (fun _ _ h => .inr h))

theorem keeps_start_told (hsur : Surroundings H digest run loaded)
    (hc : ∀ name, c.platform ≠ .other name) (req : StartRequest) :
    Keeps (Told loaded : Service (World μ) Δ → Prop)
      ((H.journalled digest run err).start c req) := by
  have hfresh : Triple (Quiet : Service (World μ) Δ → Prop)
      ((H.journalled digest run err).startFresh c req) (fun _ => Told loaded)
      (fun _ => Told loaded) := startFresh_told hsur hc req
  refine Keeps.bind ?_ fun _ => ?_
  · have hI : (H.journalled digest run err).Leaves (Told loaded : Service (World μ) Δ → Prop) := by
      refine hsur.journalled fun s m hm h => ?_
      rcases h with h | h
      · exact .inl h
      · exact .inr (Truthful.besideJournal s m hm h)
    exact Triple.wrap (Host.keeps_call hI.checkSupport _ _)
  refine Triple.bind Triple.read fun running => ?_
  refine Triple.bind Triple.look fun applied => ?_
  refine Triple.ite (fun hoff => ?_) fun hon => Triple.ite (fun _ => ?_) fun _ => ?_
  · refine hfresh.pre ?_
    rintro s ⟨h | h, hr⟩
    · exact h
    · exact absurd ((hr.trans h.1).symm.trans hoff) (by simp)
  · have hI : (H.journalled digest run err).Leaves
        (Truthful loaded : Service (World μ) Δ → Prop) :=
      hsur.journalled Truthful.besideJournal
    refine Triple.wrap ((hI.reassertLocked fun k _ s h => h).weaken ?_ (fun _ _ h => .inr h)
      (fun _ _ h => .inr h))
    rintro s ⟨h | h, hr⟩
    · exact absurd (hr.trans h.1) hon
    · exact h
  · refine Triple.bind (Q := fun _ => Quiet) (Triple.wrap ?_) fun _ => hfresh
    exact stopLocked_quiet.weaken (fun s h => h.1.shelved) (fun _ _ h => h) (fun _ _ h => .inl h)

theorem keeps_recover_told (hsur : Surroundings H digest run loaded)
    (hc : ∀ name, c.platform ≠ .other name) (req : StartRequest) :
    Keeps (Told loaded : Service (World μ) Δ → Prop)
      ((H.journalled digest run err).recoverService c req) := by
  refine Keeps.bind ?_ fun _ => Triple.wrap (keeps_start_told hsur hc req)
  refine Triple.bind (Q := fun _ => Quiet) ?_ fun stopped => ?_
  · exact (stopLocked_quiet.pre (fun _ h => Told.shelved h)).attempt
  refine Triple.bind (Q := fun _ => Quiet) ?_ fun replayed => ?_
  · exact fun s h =>
      ⟨h.1, h.2.1, h.2.2.1, (untried_recover run s.world.machine h.2.2.2).1⟩
  cases replayed with
  | ok _ => exact Triple.pure fun _ h => .inl h
  | error e =>
    cases stopped with
    | ok _ | error stopErr => exact Triple.stop fun _ h => .inl h

/-! ## Requests to cut and restore -/

theorem forwardStep_text (p : Plan) (want : ForwardState) :
    (Host.forwardStep p want).run.stdin = p.forwardText want := by
  cases want <;> rfl

theorem forwardStep_isLoad (hp : Backed p) (want : ForwardState) :
    isLoad (Host.forwardStep p want).run = true := by
  have hsteps : isLoad p.restoreStep.run = true ∧ isLoad p.cutStep.run = true := by
    simp only [Plan.restoreStep, Plan.cutStep]
    cases hplat : p.platform with
    | other name => exact absurd hplat (hp name)
    | _ => exact ⟨rfl, rfl⟩
  cases want with
  | normal => exact hsteps.1
  | cut => exact hsteps.2

/-- The two rulesets differ already in the comment that names the state. -/
theorem rulesetFor_cut_ne (p : Plan) : p.rulesetFor .cut ≠ p.rulesetFor .normal := by
  have hlines : ∀ state, ∃ rest, p.rulesetLines state =
      [ "# Caspian-BYOC generated firewall ruleset. Do not edit by hand:",
        "# it is regenerated and replaced atomically on every start.", "#",
        "# uplink=" ++ p.uplink ++ " hotspot=" ++ p.hotspot ++ " tunnel=" ++ p.tun ++
          " hotspot-subnet=" ++ p.hotspotSubnet.text ] ++
      ("# egress=" ++ (if p.opts.egress = .open then "open" else "restricted") ++ " forward=" ++
        (if state = .cut then "CUT by the user" else "normal")) :: rest := by
    intro state
    simp only [Plan.rulesetLines, Plan.headerLines, List.cons_append, List.nil_append]
    exact ⟨_, rfl⟩
  obtain ⟨rest, hcut⟩ := hlines .cut
  obtain ⟨rest', hnormal⟩ := hlines .normal
  rw [Plan.rulesetFor, Plan.rulesetFor, hcut, hnormal]
  exact Text.unlines_ne (c := 'C') (d := 'n') rfl rfl (by decide)

theorem linux_cut_ne (h : p.OnLinux) : p.cutStep.run.stdin ≠ p.restoreStep.run.stdin := by
  have hcut : p.cutStep.run.stdin = p.rulesetFor .cut := by
    rcases h with h | h <;> simp only [Plan.cutStep, h, Plan.linuxCutStep, Plan.nftLoadStep]
  have hrestore : p.restoreStep.run.stdin = p.rulesetFor .normal := by
    rcases h with h | h <;>
      simp only [Plan.restoreStep, h, Plan.linuxRestoreStep, Plan.nftLoadStep]
  rw [hcut, hrestore]
  exact rulesetFor_cut_ne p

/-- The machine's answer to the load a request would make. -/
def loadAnswer (run : Runner μ) (p : Plan) (want : ForwardState) (s : Service (World μ) Δ) :
    μ × Reply :=
  run s.world.machine (Host.forwardStep p want).run

/-- A request that is made on a running service, needs a load, and gets an
error for a load that took effect. -/
def LateFailure (run : Runner μ) (loaded : μ → Option String) (want : ForwardState)
    (s : Service (World μ) Δ) : Prop :=
  s.running = true ∧ s.forward ≠ want ∧ ∃ p, s.plan = some p ∧
    (loadAnswer run p want s).2.2 ≠ none ∧
    loaded (loadAnswer run p want s).1 ≠ loaded s.world.machine

/-- Whenever `Cut` or `Restore`, called now, is answered without an error, the
ruleset it names is the one loaded last. -/
def TellsTruth (loaded : μ → Option String) (H : Host (World μ) Λ Δ E)
    (s : Service (World μ) Δ) : Prop :=
  ∀ want s', H.setForward want s = (.ok (), s') →
    ∃ p, s'.plan = some p ∧ loaded s'.world.machine = some (p.forwardText want)

variable {want : ForwardState}

/-- A request to a service that is not running is refused. -/
theorem setForward_resting {σ : Type} {H : Host σ Λ Δ E} {s : Service σ Δ} (h : s.running = false) :
    H.setForward want s = (.error Host.notRunning, s) := by
  have hon : H.setForward want s = H.setForwardOn want s.plan false s.forward s := by
    rw [← h]
    rfl
  rw [hon]
  unfold Host.setForwardOn
  cases s.plan with
  | none | some p => rfl

/-- The service after its machine has moved. -/
def Service.moved (s : Service (World μ) Δ) (m : μ) : Service (World μ) Δ :=
  { s with world := { s.world with machine := m } }

/-- What `setForward` does on a running service, by the machine's answer. -/
theorem setForward_running (hrun : s.running = true) (hplan : s.plan = some p) :
    (H.journalled digest run err).setForward want s =
      if s.forward = want then (.ok (), s)
      else
        match (loadAnswer run p want s).2.2 with
        | none =>
          (.ok (), { s.moved (loadAnswer run p want s).1 with forward := want })
        | some msg =>
          (.error ⟨"cut", H.faultOf (err msg), H.text (err msg)⟩,
            s.moved (loadAnswer run p want s).1) := by
  have hon : (H.journalled digest run err).setForward want s =
      (H.journalled digest run err).setForwardOn want (some p) true s.forward s := by
    rw [← hrun, ← hplan]
    rfl
  rw [hon, Host.setForwardOn, if_neg (by simp)]
  split
  · rfl
  · cases hans : (loadAnswer run p want s).2.2 with
    | none =>
      have hcmd : (run s.world.machine (Host.forwardStep p want).run).2.2 = none := hans
      simp [bind, Host.call, ask, Action.ofExcept, update, Host.journalled, hcmd, loadAnswer,
        Except.mapError, Service.moved]
    | some msg =>
      have hcmd : (run s.world.machine (Host.forwardStep p want).run).2.2 = some msg := hans
      simp [bind, Host.call, ask, Action.ofExcept, Host.journalled, hcmd, loadAnswer,
        Except.mapError, Service.moved]

/-- A request for the state of the flag is answered at once. -/
theorem setForward_same (hrun : s.running = true) (hplan : s.plan = some p)
    (hsame : s.forward = want) : (H.journalled digest run err).setForward want s = (.ok (), s) := by
  rw [setForward_running hrun hplan, if_pos hsame]

/-- **Answered without an error, a request tells the truth about what is
loaded.** -/
theorem Told.tellsTruth (hsur : Surroundings H digest run loaded) (h : Told loaded s) :
    TellsTruth loaded (H.journalled digest run err) s := by
  intro want s' hok
  rcases h with h | ⟨hrun, _, p, hplan, hp, hload⟩
  · rw [setForward_resting h.1] at hok
    exact absurd (Prod.mk.inj hok).1 (by simp)
  · rw [setForward_running hrun hplan] at hok
    split at hok
    next hforward =>
      obtain rfl := (Prod.mk.inj hok).2
      exact ⟨p, hplan, hforward ▸ hload⟩
    · split at hok
      next hnone =>
        rw [← (Prod.mk.inj hok).2]
        refine ⟨p, hplan, ?_⟩
        rw [← forwardStep_text]
        exact hsur.loader.done _ _ (forwardStep_isLoad hp want) hnone
      · exact absurd (Prod.mk.inj hok).1 (by simp)

/-- A request that is not a late failure keeps the service honest. -/
theorem told_setForward (hsur : Surroundings H digest run loaded) (h : Told loaded s)
    (hlate : ¬LateFailure run loaded want s) :
    Told loaded ((H.journalled digest run err).setForward want s).2 := by
  rcases h with h | ⟨hrun, hap, p, hplan, hp, hload⟩
  · rw [setForward_resting h.1]
    exact .inl h
  · rw [setForward_running hrun hplan]
    split
    · exact .inr ⟨hrun, hap, p, hplan, hp, hload⟩
    next hne =>
      cases hans : (loadAnswer run p want s).2.2 with
      | none =>
        refine .inr ⟨hrun, hap, p, hplan, hp, ?_⟩
        show loaded (loadAnswer run p want s).1 = some (p.forwardText want)
        rw [← forwardStep_text]
        exact hsur.loader.done _ _ (forwardStep_isLoad hp want) hans
      | some msg =>
        refine .inr ⟨hrun, hap, p, hplan, hp, ?_⟩
        have hsame : loaded (loadAnswer run p want s).1 = loaded s.world.machine := by
          by_contra hmoved
          exact hlate ⟨hrun, hne, p, hplan, by simp [hans], hmoved⟩
        exact hsame.trans hload

/-- After a late failure the request in the other direction is answered
without an error and without a load. -/
theorem lateFailure_untruthful (h : Told loaded s) (hlate : LateFailure run loaded want s) :
    ¬TellsTruth loaded (H.journalled digest run err)
      ((H.journalled digest run err).setForward want s).2 := by
  obtain ⟨hrun, hne, p, hplan, hfail, hmoved⟩ := hlate
  rcases h with h | ⟨_, _, q, hq, hp, hload⟩
  · exact absurd (h.1.symm.trans hrun) (by simp)
  obtain rfl : p = q := Option.some.inj (hplan.symm.trans hq)
  intro htruth
  obtain ⟨msg, hmsg⟩ := Option.ne_none_iff_exists'.mp hfail
  have hafter : ((H.journalled digest run err).setForward want s).2 =
      s.moved (loadAnswer run p want s).1 := by
    rw [setForward_running hrun hplan, if_neg hne, hmsg]
  rw [hafter] at htruth
  obtain ⟨q, hq, hsaid⟩ := htruth s.forward _ (setForward_same hrun hplan rfl)
  obtain rfl : p = q := Option.some.inj (hplan.symm.trans hq)
  exact hmoved (hsaid.trans hload.symm)

/-! ## Whole runs -/

/-- The operation is a request that fails late. -/
def FailsLate (run : Runner μ) (loaded : μ → Option String) (s : Service (World μ) Δ) :
    Host.Op → Prop
  | .cut => LateFailure run loaded .cut s
  | .restore => LateFailure run loaded .normal s
  | _ => False

theorem told_perform (hsur : Surroundings H digest run loaded)
    (hc : ∀ name, c.platform ≠ .other name) {op : Host.Op} (h : Told loaded s)
    (hlate : ¬FailsLate run loaded s op) :
    Told loaded ((H.journalled digest run err).perform c op s) := by
  cases op with
  | start req => exact (keeps_start_told hsur hc req).after h
  | stop =>
    exact (stopLocked_quiet.weaken (fun _ h => Told.shelved h) (fun _ _ h => .inl h)
      (fun _ _ h => .inl h)).after h
  | cut | restore => exact told_setForward hsur h hlate
  | recover req => exact (keeps_recover_told hsur hc req).after h

theorem late_perform_untruthful {op : Host.Op} (h : Told loaded s)
    (hlate : FailsLate run loaded s op) :
    ¬TellsTruth loaded (H.journalled digest run err)
      ((H.journalled digest run err).perform c op s) := by
  cases op with
  | cut | restore => exact lateFailure_untruthful h hlate
  | _ => exact hlate.elim

theorem performAll_concat {σ : Type} (H : Host σ Λ Δ E) (c : Config) (ops : List Host.Op)
    (op : Host.Op) (w : σ) :
    H.performAll c (ops ++ [op]) w = H.perform c op (H.performAll c ops w) := by
  simp [Host.performAll, List.foldl_append]

theorem told_new {w : World μ} (hw : Tidy w.journal.records) :
    Told loaded (Service.new w : Service (World μ) Δ) :=
  .inl ⟨rfl, rfl, rfl, hw⟩

/-- **`Cut` and `Restore` tell the truth all along a run exactly if none of
them fails late in it.** -/
theorem cut_truthful_iff (hsur : Surroundings H digest run loaded)
    (hc : ∀ name, c.platform ≠ .other name) (ops : List Host.Op) {w : World μ}
    (hw : Tidy w.journal.records) :
    (∀ before, before <+: ops → TellsTruth loaded (H.journalled digest run err)
        ((H.journalled digest run err).performAll c before w)) ↔
      ∀ before op, before ++ [op] <+: ops →
        ¬FailsLate run loaded ((H.journalled digest run err).performAll c before w) op := by
  refine ⟨fun htruth => ?_, fun hlate => ?_⟩
  · -- A late failure would leave a state whose next request lies.
    have htold : ∀ before, before <+: ops →
        Told loaded ((H.journalled digest run err).performAll c before w) := by
      intro before
      induction before using List.reverseRecOn with
      | nil => exact fun _ => told_new hw
      | append_singleton before op ih =>
        intro hpre
        have h := ih ((List.prefix_append before [op]).trans hpre)
        rw [performAll_concat]
        refine told_perform hsur hc h fun hlate => ?_
        exact late_perform_untruthful h hlate (performAll_concat _ c before op w ▸
          htruth _ hpre)
    intro before op hpre hlate
    have h := htold before ((List.prefix_append before [op]).trans hpre)
    exact late_perform_untruthful h hlate (performAll_concat _ c before op w ▸
      htruth _ hpre)
  · intro before
    refine fun hpre => Told.tellsTruth hsur ?_
    induction before using List.reverseRecOn with
    | nil => exact told_new hw
    | append_singleton before op ih =>
      rw [performAll_concat]
      exact told_perform hsur hc (ih ((List.prefix_append before [op]).trans hpre))
        (hlate before op hpre)

end Truth

/-! ## A load whose answer is lost -/

/-- A machine that loads what it is given, and whose answer to a cut ruleset is
lost. -/
def lossyRun (lost : String → Bool) : Runner (Option String) := fun m c =>
  if isLoad c then
    (some c.stdin, {}, if lost c.stdin then some "context deadline exceeded" else none)
  else (m, {}, none)

theorem lossyRun_surroundings (lost : String → Bool) :
    Surroundings (workingHost (Option String)) id (lossyRun lost) id where
  loader :=
    { done := fun m c hc _ => by simp [lossyRun, hc]
      failed := fun m c hc => by simp [lossyRun, hc]
      other := fun m c hc => by simp [lossyRun, hc] }
  never := by
    intro m c hc
    simp only [lossyRun, hc, if_true]
    split
    · decide
    · rfl
  digest := by
    intro p heq
    have hlen := congrArg String.length heq
    have hcut : (Json.quoteChars ['c', 'u', 't']).length = 5 := by decide
    have hnormal : (Json.quoteChars ['n', 'o', 'r', 'm', 'a', 'l']).length = 8 := by decide
    simp [Plan.windowsFilterSet, Plan.windowsFilterFields, Json.render, Json.renderFields, hcut,
      hnormal] at hlen
  leaves text :=
    { checkSupport := fun _ h => h
      clockPlausible := fun _ h => h
      detect := fun _ _ h => h
      regulatoryDomain := fun _ h => h
      resolve := fun _ _ h => h
      listen := fun _ _ h => h
      generatePassphrase := fun _ h => h
      released := fun _ _ h => h
      accessPoint := fun _ _ _ h => h
      startSNI := fun _ _ _ _ _ h => h
      closeSNI := fun _ _ h => h
      engineStart := fun _ _ h => h
      engineStop := fun _ h => h
      supStart := fun _ _ h => h
      supStop := fun _ h => h
      probe := fun _ _ _ h => h }

def emptyMachine : World (Option String) where
  machine := none
  journal := { records := [], seq := 0 }

/-- On a machine that loses no answer, a start, a cut and a restore tell the
truth. -/
theorem cut_truthful_lossless :
    Surroundings (workingHost (Option String)) id (lossyRun fun _ => false) id ∧
    ∀ before, before <+: [.start upperBandRequest, .cut, .restore] →
      TellsTruth id ((workingHost (Option String)).journalled id (lossyRun fun _ => false) fun _ => ())
        (((workingHost (Option String)).journalled id (lossyRun fun _ => false) fun _ =>
          ()).performAll {} before emptyMachine) := by
  refine ⟨lossyRun_surroundings _, ?_⟩
  refine (cut_truthful_iff (lossyRun_surroundings _) (fun _ h => by cases h) _
    (fun e he => by cases he)).mpr ?_
  have hanswer : ∀ m c, (lossyRun (fun _ => false) m c).2.2 = none := by
    intro m c
    unfold lossyRun
    split <;> rfl
  intro before op _ hlate
  cases op with
  | cut | restore =>
    obtain ⟨_, _, p, _, hfail, _⟩ := hlate
    exact hfail (hanswer _ _)
  | _ => exact hlate

/-- The service on that machine, when the answer to a plan's cut ruleset is
lost. -/
def lossyHost (p : Plan) : Host (World (Option String)) Unit Unit Unit :=
  (workingHost (Option String)).journalled id
    (lossyRun fun text => text = p.cutStep.run.stdin) fun _ => ()

/-- Running that plan, the service answers a restore after the cut and leaves
the cut ruleset loaded. -/
theorem lossyHost_restores_nothing (hp : Backed p) {s : Service (World (Option String)) Unit}
    (hrun : s.running = true) (hforward : s.forward = .normal) (hplan : s.plan = some p) :
    ∃ e s₁ s₂, (lossyHost p).cut s = (.error e, s₁) ∧ (lossyHost p).restore s₁ = (.ok (), s₂) ∧
      s₂.plan = some p ∧ s₂.world.machine = some p.cutStep.run.stdin := by
  have hload : isLoad p.cutStep.run = true := forwardStep_isLoad hp .cut
  have hanswer : loadAnswer (lossyRun fun text => text = p.cutStep.run.stdin) p .cut s =
      (some p.cutStep.run.stdin, {}, some "context deadline exceeded") := by
    simp only [loadAnswer, lossyRun, Host.forwardStep, hload, if_true, decide_true]
  have hcut : (lossyHost p).cut s = (.error ⟨"cut", .unknown, ""⟩,
      s.moved (some p.cutStep.run.stdin)) := by
    refine (setForward_running hrun hplan).trans ?_
    rw [hforward, if_neg (by simp), hanswer]
    rfl
  exact ⟨_, _, _, hcut, setForward_same hrun hplan hforward, hplan, rfl⟩

theorem lossyHost_started :
    ((lossyHost upperBandPlan).performAll {} [.start upperBandRequest] emptyMachine).running =
        true ∧
      ((lossyHost upperBandPlan).performAll {} [.start upperBandRequest] emptyMachine).forward =
        .normal ∧
      ((lossyHost upperBandPlan).performAll {} [.start upperBandRequest] emptyMachine).plan =
        some upperBandPlan := by
  decide +kernel

/-- **A cut whose answer is lost, and a restore that is answered without a
load: the cut ruleset stays.** -/
theorem restore_answered_while_cut :
    ∃ e s₁ s₂,
      (lossyHost upperBandPlan).cut
        ((lossyHost upperBandPlan).performAll {} [.start upperBandRequest] emptyMachine) =
          (.error e, s₁) ∧
      (lossyHost upperBandPlan).restore s₁ = (.ok (), s₂) ∧ s₂.plan = some upperBandPlan ∧
      s₂.world.machine = some upperBandPlan.cutStep.run.stdin ∧
      upperBandPlan.cutStep.run.stdin ≠ upperBandPlan.restoreStep.run.stdin := by
  obtain ⟨hrun, hforward, hplan⟩ := lossyHost_started
  have hp : Backed upperBandPlan :=
    backed_of_plan (fun _ h => by cases h) upperBand_decided.options upperBand_decided.plan
  obtain ⟨e, s₁, s₂, hcut, hrestore, hkept, hmachine⟩ :=
    lossyHost_restores_nothing hp hrun hforward hplan
  exact ⟨e, s₁, s₂, hcut, hrestore, hkept, hmachine, linux_cut_ne (.inr (by decide))⟩

end Caspian.Privsvc
