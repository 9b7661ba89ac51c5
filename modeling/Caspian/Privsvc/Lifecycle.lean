import Caspian.Privsvc.Service

/-!
# What is true between two operations

A service is either up or at rest.  Up, it has a plan, an applier, a
fingerprint and a port.  At rest it has none of them, the engine and the
supervisor were last told to stop, and whatever was opened was closed.

The second half is the one that has to be carried through every failure.  It
is carried by `Accounted`: an applier or forwarder that was opened was closed,
or is the one in force.  Opening keeps it as long as nothing is in force,
closing keeps it, and `stopLocked` closes what is in force.
-/

namespace Caspian.Privsvc

open Verified Verified.Action Netcfg

variable {σ Λ Δ E ε α : Type}

/-! ## Predicates -/

/-- What was opened was closed, or is in force. -/
def Accounted (s : Service σ Δ) : Prop :=
  (∀ i, Call.openApplier i ∈ s.calls → Call.teardown i ∈ s.calls ∨ s.applier = some i) ∧
    ∀ i, Call.openForwarder i ∈ s.calls →
      Call.closeForwarder i ∈ s.calls ∨ s.sniForwarder = some i

/-- The state of a service that is running. -/
structure Up (s : Service σ Δ) : Prop where
  plan : s.plan ≠ none
  applier : s.applier ≠ none
  fingerprint : s.fingerprint ≠ ""
  socksPort : s.socksPort ≠ 0

/-- The state of a service that is not running. -/
structure Resting (s : Service σ Δ) : Prop where
  plan : s.plan = none
  applier : s.applier = none
  engineDoc : s.engineDoc = none
  sniForwarder : s.sniForwarder = none
  fingerprint : s.fingerprint = ""
  forward : s.forward = .normal
  socksPort : s.socksPort = 0
  engine : s.calls.find? Call.onEngine ≠ some .engineStart
  supervisor : s.calls.find? Call.onSupervisor ≠ some .supStart
  forwarders : ∀ i, Call.openForwarder i ∈ s.calls → Call.closeForwarder i ∈ s.calls
  appliers : ∀ i, Call.openApplier i ∈ s.calls → Call.teardown i ∈ s.calls

/-- The service is not running and holds nothing. -/
def AtRest (s : Service σ Δ) : Prop := s.running = false ∧ Resting s

/-- The service is running and accounts for what it holds. -/
def Working (s : Service σ Δ) : Prop := s.running = true ∧ Accounted s ∧ Up s

/-- The state between two operations. -/
def Sound (s : Service σ Δ) : Prop :=
  AtRest s ∨ Working s

/-- The engine was told to stop. -/
def Stopping (s : Service σ Δ) : Prop :=
  Accounted s ∧ s.calls.find? Call.onEngine = some .engineStop

/-- The forwarder is closed, and the supervisor was told to stop. -/
def Halted (s : Service σ Δ) : Prop :=
  Stopping s ∧ s.sniForwarder = none ∧ s.calls.find? Call.onSupervisor = some .supStop

/-- Nothing is in force. -/
def Idle (s : Service σ Δ) : Prop :=
  Accounted s ∧ s.applier = none ∧ s.sniForwarder = none

/-- A port was chosen, and nothing is in force. -/
def Ported (s : Service σ Δ) : Prop := Idle s ∧ s.socksPort ≠ 0

/-- A port was chosen and an applier is in force, but no forwarder. -/
def Placed (s : Service σ Δ) : Prop :=
  Accounted s ∧ s.applier ≠ none ∧ s.sniForwarder = none ∧ s.socksPort ≠ 0

/-- A port was chosen and an applier is in force. -/
def Held (s : Service σ Δ) : Prop := Accounted s ∧ s.applier ≠ none ∧ s.socksPort ≠ 0

/-- The plan was published too. -/
def Published (s : Service σ Δ) : Prop := Held s ∧ s.plan ≠ none

variable {s : Service σ Δ}

theorem Resting.accounted (h : Resting s) : Accounted s :=
  ⟨fun i hi => .inl (h.appliers i hi), fun i hi => .inl (h.forwarders i hi)⟩

theorem Resting.idle (h : Resting s) : Idle s :=
  ⟨h.accounted, h.applier, h.sniForwarder⟩

theorem Placed.held (h : Placed s) : Held s := ⟨h.1, h.2.1, h.2.2.2⟩

theorem Sound.accounted (h : Sound s) : Accounted s := by
  rcases h with h | h
  · exact h.2.accounted
  · exact h.2.1

/-! ## Rules for the steps of the service -/

/-- Asking keeps the predicate. -/
def Unmoved (I : Service σ Δ → Prop) (f : σ → α × σ) : Prop :=
  ∀ s, I s → I { s with world := (f s.world).2 }

variable {X : ε → Service σ Δ → Prop}

/-- Asking the machine goes through, whatever the answer. -/
theorem triple_ask {I : Service σ Δ → Prop} {f : σ → α × σ} (hf : Unmoved I f) :
    Triple I (ask f : Action ε (Service σ Δ) α) (fun _ => I) X :=
  fun s hs => hf s hs

theorem keeps_ask {I : Service σ Δ → Prop} {f : σ → α × σ} (hf : Unmoved I f) :
    Keeps I (ask f : Action ε (Service σ Δ) α) :=
  triple_ask hf

/-- The predicate survives every call that does not go through the journal. -/
structure Host.Leaves (H : Host σ Λ Δ E) (I : Service σ Δ → Prop) : Prop where
  checkSupport : Unmoved I H.checkSupport
  clockPlausible : Unmoved I H.clockPlausible
  detect : ∀ knobs, Unmoved I (H.detect knobs)
  regulatoryDomain : Unmoved I H.regulatoryDomain
  resolve : ∀ name, Unmoved I (H.resolve name)
  listen : ∀ port, Unmoved I (H.listen port)
  generatePassphrase : Unmoved I H.generatePassphrase
  released : ∀ p, Unmoved I (H.assertHotspotInterfaceReleased p)
  accessPoint : ∀ p ssid, Unmoved I (H.assertHotspotIsAccessPoint p ssid)
  startSNI : ∀ i remote uplink req, Unmoved I (H.startSNI i remote uplink req)
  closeSNI : ∀ i, Unmoved I (H.closeSNI i)
  engineStart : ∀ doc, Unmoved I (H.engineStart doc)
  engineStop : Unmoved I H.engineStop
  supStart : ∀ hp, Unmoved I (H.supStart hp)
  supStop : Unmoved I H.supStop
  probe : ∀ a port, Unmoved I (H.probe a port)

/-- The predicate does not look at the machine. -/
def WorldFree (I : Service σ Δ → Prop) : Prop := ∀ s w, I s → I { s with world := w }

theorem WorldFree.unmoved {I : Service σ Δ → Prop} (hI : WorldFree I) (f : σ → α × σ) :
    Unmoved I f :=
  fun s hs => hI s _ hs

theorem WorldFree.leaves {I : Service σ Δ → Prop} (hI : WorldFree I) (H : Host σ Λ Δ E) :
    H.Leaves I where
  checkSupport := hI.unmoved _
  clockPlausible := hI.unmoved _
  detect _ := hI.unmoved _
  regulatoryDomain := hI.unmoved _
  resolve _ := hI.unmoved _
  listen _ := hI.unmoved _
  generatePassphrase := hI.unmoved _
  released _ := hI.unmoved _
  accessPoint _ _ := hI.unmoved _
  startSNI _ _ _ _ := hI.unmoved _
  closeSNI _ := hI.unmoved _
  engineStart _ := hI.unmoved _
  engineStop := hI.unmoved _
  supStart _ := hI.unmoved _
  supStop := hI.unmoved _
  probe _ _ := hI.unmoved _

/-- A call that opens nothing. -/
def Call.opensNothing : Call → Bool
  | .openApplier _ | .openForwarder _ => false
  | _ => true

/-- A call that opens nothing adds nothing to account for. -/
theorem Accounted.called {c : Call} (h : Accounted s) (hc : c.opensNothing = true) :
    Accounted { s with calls := c :: s.calls } := by
  have hopen : ∀ i, c ≠ .openApplier i ∧ c ≠ .openForwarder i := by
    intro i
    cases c <;> simp_all [Call.opensNothing]
  refine ⟨?_, ?_⟩
  · intro i hi
    have hi := (List.mem_cons.mp hi).resolve_left fun he => (hopen i).1 he.symm
    exact (h.1 i hi).imp_left (List.mem_cons_of_mem _)
  · intro i hi
    have hi := (List.mem_cons.mp hi).resolve_left fun he => (hopen i).2 he.symm
    exact (h.2 i hi).imp_left (List.mem_cons_of_mem _)

namespace Host

variable (H : Host σ Λ Δ E) (c : Config)

section Keeps

variable {H} {I : Service σ Δ → Prop}

theorem keeps_call {f : σ → Except E α × σ} (hf : Unmoved I f) (place : String)
    (fault : E → Fault) : Keeps I (H.call place fault f) :=
  (keeps_ask hf).bind fun _ => Keeps.ofExcept _

theorem Leaves.renderHotspot (hI : H.Leaves I) (p : Plan) (f : Facts) (req : StartRequest)
    (country : String) : Keeps I (H.renderHotspot c p f req country) :=
  (keeps_ask hI.generatePassphrase).bind fun _ => Keeps.ofExcept _

theorem keeps_document (l : Λ) (req : StartRequest) (o : Options) (pinned : List Netip.Addr)
    (tunnel : TunnelFacts) : Keeps I (H.document c l req o pinned tunnel) :=
  Keeps.bind (fun _ hs => hs) fun _ => Keeps.ofExcept _

theorem keeps_validate (place : String) (doc : Δ) : Keeps I (H.validate place doc) :=
  Keeps.ofExcept _

/-- Checking the request changes nothing but the machine. -/
theorem Leaves.checkRequest (hI : H.Leaves I) (req : StartRequest) :
    Keeps I (H.checkRequest req) := by
  refine (keeps_ask hI.clockPlausible).bind fun clockRight => ?_
  refine (Keeps.refuse _ _).bind fun _ => ?_
  refine (Keeps.ofExcept _).bind fun l => ?_
  refine (Keeps.ofExcept _).bind fun _ => ?_
  refine (Keeps.ofExcept _).bind fun _ => ?_
  exact Keeps.pure _

/-- So does looking at the machine and asking for the server. -/
theorem Leaves.inspect (hI : H.Leaves I) (l : Λ) (req : StartRequest) :
    Keeps I (H.inspect c l req) := by
  refine (keeps_call (hI.detect _) _ _).bind fun seen => ?_
  refine (Keeps.ofExcept _).bind fun _ => ?_
  have hcountry : Keeps I (H.countryFor c req : Action Failure (Service σ Δ) String) :=
    Keeps.ite (Keeps.pure _) ((keeps_ask hI.regulatoryDomain).bind fun _ => Keeps.pure _)
  refine hcountry.bind fun country => ?_
  refine (keeps_call (hI.resolve _) _ _).bind fun servers => ?_
  exact Keeps.pure _

theorem Leaves.lookAgain (hI : H.Leaves I) (seen : Detection) (plan : Plan) :
    Keeps I (H.lookAgain seen plan) :=
  Keeps.ite (keeps_call (hI.detect _) _ _) (Keeps.pure _)

/-- Starting the engine keeps what does not look at the calls made on it. -/
theorem Leaves.startEngine (hI : H.Leaves I)
    (hcall : ∀ s, I s → I { s with calls := .engineStart :: s.calls }) (doc : Option Δ) :
    Keeps I (H.startEngine doc) :=
  Keeps.bind (Triple.update hcall) fun _ => keeps_call (hI.engineStart _) _ _

theorem Leaves.startHotspot (hI : H.Leaves I)
    (hcall : ∀ s, I s → I { s with calls := .supStart :: s.calls }) (hp : Option Hotspot.Plan) :
    Keeps I (H.startHotspot hp) :=
  Keeps.bind (Triple.update hcall) fun _ =>
    (keeps_ask (hI.supStart _)).bind fun _ => Keeps.refuse _ _

/-- A repair keeps what does not look at the calls made. -/
theorem Leaves.reassertLocked (hI : H.Leaves I)
    (hcall : ∀ (k : Call), k.opensNothing = true → ∀ s, I s →
      I { s with calls := k :: s.calls }) : Keeps I H.reassertLocked := by
  have hread : ∀ {α : Type} (f : Service σ Δ → α),
      Keeps I (Action.read f : Action Failure (Service σ Δ) α) := fun f s hs => hs
  refine (hread _).bind fun plan => ?_
  refine (hread _).bind fun doc => ?_
  refine (hread _).bind fun hp => ?_
  refine Keeps.bind ?_ fun _ => ?_
  · cases plan with
    | none => exact Keeps.pure _
    | some plan =>
      refine (keeps_ask (hI.accessPoint _ _)).bind fun answer => ?_
      cases answer with
      | ok _ => exact Keeps.pure _
      | error e => exact keeps_call (hI.released _) _ _
  refine (hI.startEngine (hcall _ rfl) doc).bind fun _ => ?_
  refine (hI.startHotspot (hcall _ rfl) hp).bind fun _ => ?_
  cases plan with
  | none => exact Keeps.pure _
  | some plan => exact keeps_call (hI.accessPoint _ _) _ _

/-- The probe only asks. -/
theorem Leaves.probeServer (hI : H.Leaves I) : Keeps I H.probeServer := by
  have hall : ∀ (port : UInt16) (as : List Netip.Addr) (last : Option E),
      Keeps I (H.probeAll port as last) := by
    intro port as
    induction as with
    | nil =>
      intro last
      cases last with
      | none => exact Keeps.pure _
      | some e => exact Triple.stop fun _ h => h
    | cons a rest ih =>
      intro last
      refine (keeps_ask (hI.probe _ _)).bind fun answer => ?_
      cases answer with
      | ok _ => exact Keeps.pure _
      | error e => exact ih (some e)
  refine Keeps.bind (fun _ hs => hs) fun plan => ?_
  refine Keeps.bind (fun _ hs => hs) fun port => ?_
  cases plan with
  | none => exact Keeps.pure _
  | some plan => exact Keeps.ite (Keeps.pure _) (hall _ _ _)

end Keeps

/-! ## Stopping -/

/-- The forwarder is closed and forgotten. -/
theorem closeForwarder_spec :
    Triple Stopping (H.closeForwarder : Action ε (Service σ Δ) (List E))
      (fun _ s => Stopping s ∧ s.sniForwarder = none) X := by
  refine Triple.bind Triple.read fun fwd => ?_
  cases fwd with
  | none => exact Triple.pure fun s h => ⟨h.1, h.2.symm⟩
  | some i =>
    refine Triple.bind (Q := fun _ s => Stopping s ∧ s.sniForwarder = some i ∧
      Call.closeForwarder i ∈ s.calls) ?_ fun _ => ?_
    · exact Triple.update fun s h =>
        ⟨⟨h.1.1.called rfl, h.1.2⟩, h.2.symm, List.mem_cons_self⟩
    refine Triple.bind (triple_ask fun _ h => h) fun answer => ?_
    refine Triple.bind (Q := fun _ s => Stopping s ∧ s.sniForwarder = none) ?_ fun _ =>
      Triple.pure fun _ h => h
    refine Triple.update fun s h => ?_
    obtain ⟨⟨⟨hap, hfw⟩, hengine⟩, hfwd, hclosed⟩ := h
    refine ⟨⟨⟨hap, fun j hj => .inl ?_⟩, hengine⟩, rfl⟩
    rcases hfw j hj with hj | hj
    · exact hj
    · obtain rfl : i = j := Option.some.inj (hfwd.symm.trans hj)
      exact hclosed

/-- Torn down is the applier that was in force before the reset. -/
theorem teardownOf_spec (ap : Option Nat) :
    Triple (fun s : Service σ Δ => Halted { s with applier := ap } ∧ s.cleared = s)
      (H.teardownOf ap : Action ε (Service σ Δ) (List E)) (fun _ => AtRest) X := by
  -- The calls that have to be in the list, and the fields `cleared` resets.
  have hrest : ∀ s : Service σ Δ, s.cleared = s → Stopping s → s.sniForwarder = none →
      s.calls.find? Call.onSupervisor = some .supStop → AtRest s := by
    rintro s hclear ⟨⟨hap, hfw⟩, hengine⟩ hfwd hsup
    rw [← hclear]
    refine ⟨rfl, rfl, rfl, rfl, hfwd, rfl, rfl, rfl, ?_, ?_, ?_, ?_⟩
    · exact fun h => absurd (hengine.symm.trans h) (by decide)
    · exact fun h => absurd (hsup.symm.trans h) (by decide)
    · exact fun i hi => (hfw i hi).resolve_right (by simp [hfwd])
    · have hnone : s.applier = none := congrArg Service.applier hclear.symm
      exact fun i hi => (hap i hi).resolve_right (by simp [hnone])
  cases ap with
  | none =>
    refine Triple.pure fun s h => ?_
    obtain ⟨⟨hstop, hfwd, hsup⟩, hclear⟩ := h
    have hnone : { s with applier := none } = s := by rw [← hclear]; rfl
    rw [hnone] at hstop
    exact hrest s hclear hstop hfwd hsup
  | some k =>
    refine Triple.bind (Q := fun _ => AtRest) ?_ fun _ => ?_
    · refine Triple.update fun s h => ?_
      obtain ⟨⟨⟨⟨hap, hfw⟩, hengine⟩, hfwd, hsup⟩, hclear⟩ := h
      refine hrest _ ?_ ⟨⟨?_, ?_⟩, ?_⟩ hfwd ?_
      · show { s.cleared with calls := .teardown k :: s.calls } = _
        rw [hclear]
      · intro i hi
        left
        rcases hap i (by simpa using hi) with hi | hk
        · exact List.mem_cons_of_mem _ hi
        · obtain rfl : k = i := Option.some.inj hk
          exact List.mem_cons_self
      · intro i hi
        exact (hfw i (by simpa using hi)).imp_left (List.mem_cons_of_mem _)
      · exact (List.find?_cons_of_neg (by simp [Call.onEngine])).trans hengine
      · exact (List.find?_cons_of_neg (by simp [Call.onSupervisor])).trans hsup
    · refine Triple.bind (triple_ask (I := AtRest) ?_) fun _ => Triple.pure fun _ h => h
      exact fun s h => ⟨h.1, { h.2 with }⟩

/-- **A stop leaves the service at rest, whatever complained.** -/
theorem stopLocked_spec :
    Triple (Accounted : Service σ Δ → Prop) H.stopLocked (fun _ => AtRest) (fun _ => AtRest) := by
  refine Triple.bind (Q := fun _ => Stopping)
    (Triple.update fun s h => ⟨h.called rfl, rfl⟩) fun _ => ?_
  refine Triple.bind (triple_ask fun _ h => h) fun engine => ?_
  refine Triple.bind H.closeForwarder_spec fun forwarder => ?_
  refine Triple.bind (Q := fun _ => Halted)
    (Triple.update fun s h => ⟨⟨h.1.1.called rfl, h.1.2⟩, h.2, rfl⟩) fun _ => ?_
  refine Triple.bind (triple_ask fun _ h => h) fun hotspot => ?_
  refine Triple.bind Triple.read fun ap => ?_
  refine Triple.bind (Q := fun _ s => Halted { s with applier := ap } ∧ s.cleared = s) ?_
    fun _ => ?_
  · refine Triple.update fun s h => ⟨?_, rfl⟩
    obtain ⟨h, rfl⟩ := h
    exact h
  refine Triple.bind (H.teardownOf_spec ap) fun journal => ?_
  exact Triple.refuse (fun _ h => h) (fun _ _ h => h)

/-! ## Starting -/

/-- The port that is chosen is not zero. -/
theorem chooseSocksPort_spec {preferred : UInt16} (hport : preferred ≠ 0) :
    Triple (Idle : Service σ Δ → Prop) (H.chooseSocksPort preferred)
      (fun port s => Idle s ∧ port ≠ 0) (fun _ => Accounted) := by
  refine Triple.bind (triple_ask fun _ h => h) fun first => ?_
  cases first with
  | ok ln => exact Triple.pure fun s h => ⟨h, hport⟩
  | error e =>
    refine Triple.bind (triple_ask fun _ h => h) fun second => ?_
    cases second with
    | error e => exact Triple.stop fun s h => h.1
    | ok ln =>
      refine Triple.ite (fun _ => Triple.stop fun s h => h.1) fun hrange =>
        Triple.pure fun s h => ⟨h, ?_⟩
      intro hzero
      have hnat : (UInt16.ofNat ln.port.toNat).toNat = ln.port.toNat :=
        UInt16.toNat_ofNat_of_lt (by simp only [UInt16.size]; omega)
      rw [hzero] at hnat
      simp only [UInt16.toNat_zero] at hnat
      omega

/-- Deciding leaves a port, and opens nothing. -/
theorem decide_spec (hport : c.socksPort ≠ 0) (v : Surveyed Λ) (req : StartRequest) :
    Triple (Idle : Service σ Δ → Prop) (H.decide c v req) (fun _ => Ported)
      (fun _ => Accounted) := by
  have hfree : WorldFree (Ported : Service σ Δ → Prop) := fun _ _ h => h
  have hI := hfree.leaves H
  have hE : ∀ (e : Failure) (s : Service σ Δ), Ported s → Accounted s := fun _ _ h => h.1.1
  refine Triple.bind (H.chooseSocksPort_spec hport) fun port => ?_
  refine Triple.bind (Q := fun _ => Ported)
    (Triple.update fun s h => ⟨h.1, h.2⟩) fun _ => ?_
  refine ((Keeps.ofExcept _).triple hE).bind fun o => ?_
  refine ((Keeps.ofExcept _).triple hE).bind fun plan => ?_
  refine ((Keeps.ofExcept _).triple hE).bind fun _ => ?_
  refine ((hI.lookAgain _ _).triple hE).bind fun seen => ?_
  refine ((keeps_document c _ _ _ _ _).triple hE).bind fun doc => ?_
  refine ((keeps_validate _ _).triple hE).bind fun _ => ?_
  refine ((hI.renderHotspot c _ _ _ _).triple hE).bind fun hotspot => ?_
  exact Triple.pure fun _ h => h

/-- An applier is opened when none is in force. -/
theorem openApplier_spec :
    Triple (Ported : Service σ Δ → Prop) H.openApplier
      (fun i s => Placed s ∧ s.applier = some i) (fun _ => Accounted) := by
  refine Triple.bind Triple.look fun i => ?_
  refine ((keeps_call (fun _ h => h) _ _).triple fun _ _ h => h.1.1).bind fun _ => ?_
  -- Between the call and the assignment the new applier is not accounted for.
  refine Triple.bind (Q := fun _ s => ∃ s₀ : Service σ Δ, Ported s₀ ∧
      s = { s₀ with calls := .openApplier i :: s₀.calls })
    (Triple.update fun s h => ⟨s, h, rfl⟩) fun _ => ?_
  refine Triple.bind (Q := fun _ s => Placed s ∧ s.applier = some i) ?_ fun _ =>
    Triple.pure fun _ h => h
  refine Triple.update fun s h => ?_
  obtain ⟨s₀, ⟨⟨⟨hap, hfw⟩, hnone, hfwd⟩, hport⟩, rfl⟩ := h
  refine ⟨⟨⟨?_, ?_⟩, by simp, hfwd, hport⟩, rfl⟩
  · intro j hj
    rcases List.mem_cons.mp hj with hj | hj
    · exact .inr (by rw [(Call.openApplier.inj hj).symm])
    · refine .inl (List.mem_cons_of_mem _ ((hap j hj).resolve_right ?_))
      simp [hnone]
  · intro j hj
    exact (hfw j (by simpa using hj)).imp_left (List.mem_cons_of_mem _)

/-- The takeover opens a second applier, the first being gone. -/
theorem applyFallback_spec (plan : Plan) (req : StartRequest) (country : String) :
    Triple (Ported : Service σ Δ → Prop) (H.applyFallback c plan req country)
      (fun _ => Placed) (fun _ => Accounted) := by
  have hfree : WorldFree (Ported : Service σ Δ → Prop) := fun _ _ h => h
  have hI := hfree.leaves H
  have hE : ∀ (e : Failure) (s : Service σ Δ), Ported s → Accounted s := fun _ _ h => h.1.1
  refine ((keeps_call (hI.detect _) _ _).triple hE).bind fun fresh => ?_
  refine ((Keeps.ofExcept _).triple hE).bind fun fallback => ?_
  refine ((Keeps.ofExcept _).triple hE).bind fun _ => ?_
  refine ((hI.renderHotspot c _ _ _ _).triple hE).bind fun hotspot => ?_
  refine (H.openApplier_spec.post (fun _ _ h => h.1) (fun _ _ h => h)).bind
    fun i => ?_
  refine Triple.bind (triple_ask fun _ h => h) fun answer => ?_
  cases answer.2 with
  | some e => exact Triple.stop fun _ h => h.1
  | none => exact Triple.pure fun _ h => h

/-- Whichever plan is applied, its applier is in force; a failure leaves one
that is in force or was torn down. -/
theorem applyPreEngine_spec (a : Applied) (req : StartRequest) (country : String) :
    Triple (Ported : Service σ Δ → Prop) (H.applyPreEngine c a req country)
      (fun _ => Placed) (fun _ => Accounted) := by
  refine H.openApplier_spec.bind fun i => ?_
  refine Triple.bind (triple_ask fun _ h => h) fun answer => ?_
  cases answer.2 with
  | none => exact Triple.pure fun _ h => h.1
  | some e =>
    refine ((Keeps.refuse _ _).triple fun _ _ h => h.1.1).bind fun _ => ?_
    refine Triple.bind (Q := fun _ s => (Placed s ∧ s.applier = some i) ∧
      Call.teardown i ∈ s.calls) ?_ fun _ => ?_
    · exact Triple.update fun s h =>
        ⟨⟨⟨h.1.1.called rfl, h.1.2⟩, h.2⟩, List.mem_cons_self⟩
    refine Triple.bind (triple_ask fun _ h => h) fun undone => ?_
    refine ((Keeps.refuse _ _).triple fun _ _ h => h.1.1.1).bind fun _ => ?_
    refine Triple.bind (Q := fun _ => Ported) ?_ fun _ =>
      H.applyFallback_spec c a.plan req country
    refine Triple.update fun s h => ?_
    obtain ⟨⟨⟨⟨hap, hfw⟩, _, hfwd, hport⟩, hi⟩, hdown⟩ := h
    refine ⟨⟨⟨fun j hj => .inl ?_, hfw⟩, rfl, hfwd⟩, hport⟩
    rcases hap j hj with hj | hj
    · exact hj
    · obtain rfl : i = j := Option.some.inj (hi.symm.trans hj)
      exact hdown

/-- A forwarder is opened when none is in force. -/
theorem openForwarder_spec (l : Λ) (req : StartRequest) (plan : Plan) :
    Triple (Placed : Service σ Δ → Prop) (H.openForwarder l req plan) (fun _ => Held)
      (fun _ => Accounted) := by
  unfold openForwarder
  cases plan.serverAddr.find? (·.is4) with
  | none => exact Triple.stop fun _ h => h.1
  | some remote =>
    refine Triple.bind Triple.look fun i => ?_
    refine Triple.bind (triple_ask fun _ h => h) fun answer => ?_
    cases answer with
    | error e => exact Triple.stop fun _ h => h.1
    | ok addr =>
      refine Triple.bind (Q := fun _ s => ∃ s₀ : Service σ Δ, Placed s₀ ∧
          s = { s₀ with calls := .openForwarder i :: s₀.calls })
        (Triple.update fun s h => ⟨s, h, rfl⟩) fun _ => ?_
      refine Triple.bind (Q := fun _ => Held) ?_ fun _ => Triple.pure fun _ h => h
      refine Triple.update fun s h => ?_
      obtain ⟨s₀, ⟨⟨hap, hfw⟩, happlier, hnone, hport⟩, rfl⟩ := h
      refine ⟨⟨?_, ?_⟩, happlier, hport⟩
      · intro j hj
        exact (hap j (by simpa using hj)).imp_left (List.mem_cons_of_mem _)
      · intro j hj
        rcases List.mem_cons.mp hj with hj | hj
        · exact .inr (by rw [(Call.openForwarder.inj hj).symm])
        · refine .inl (List.mem_cons_of_mem _ ((hfw j hj).resolve_right ?_))
          simp [hnone]

theorem spoofDocument_spec (l : Λ) (req : StartRequest) (plan : Plan) (o : Options) :
    Triple (Placed : Service σ Δ → Prop) (H.spoofDocument c l req plan o) (fun _ => Held)
      (fun _ => Accounted) := by
  have hE : ∀ (e : Failure) (s : Service σ Δ), Held s → Accounted s := fun _ _ h => h.1
  refine (H.openForwarder_spec l req plan).bind fun addr => ?_
  refine ((Keeps.ofExcept _).triple hE).bind fun forwarded => ?_
  refine ((keeps_document c _ _ _ _ _).triple hE).bind fun doc => ?_
  refine ((keeps_validate _ _).triple hE).bind fun _ => ?_
  exact Triple.pure fun _ h => h

theorem bringUp_spec (a : Applied) (doc : Δ) :
    Triple (Published : Service σ Δ → Prop) (H.bringUp a doc) (fun _ => Published)
      (fun _ => Accounted) := by
  have hfree : WorldFree (Published : Service σ Δ → Prop) := fun _ _ h => h
  have hI := hfree.leaves H
  have hE : ∀ (e : Failure) (s : Service σ Δ), Published s → Accounted s := fun _ _ h => h.1.1
  refine ((hI.startEngine (fun s h => ⟨⟨h.1.1.called rfl, h.1.2⟩, h.2⟩) _).triple hE).bind
    fun _ => ?_
  refine Triple.bind Triple.look fun i => ?_
  refine Triple.bind (triple_ask (hfree.unmoved _)) fun answer => ?_
  cases answer.2 with
  | some e => exact Triple.stop fun _ h => h.1.1
  | none =>
    refine ((hI.startHotspot (fun s h => ⟨⟨h.1.1.called rfl, h.1.2⟩, h.2⟩) _).triple
      hE).bind fun _ => ?_
    exact (keeps_call (hI.accessPoint _ _) _ _).triple hE

/-- **An apply brings the service up, or leaves nothing unaccounted for.** -/
theorem applyLocked_spec (hport : c.socksPort ≠ 0) (req : StartRequest) {fp : String}
    (hfp : fp ≠ "") :
    Triple (Idle : Service σ Δ → Prop) (H.applyLocked c req fp) (fun _ => Working)
      (fun _ => Accounted) := by
  have hfree : WorldFree (Idle : Service σ Δ → Prop) := fun _ _ h => h
  have hI := hfree.leaves H
  have hE : ∀ (e : Failure) (s : Service σ Δ), Idle s → Accounted s := fun _ _ h => h.1
  refine ((hI.checkRequest req).triple hE).bind fun l => ?_
  have hreplay : Keeps Idle H.replayLeft :=
    (keeps_ask (hfree.unmoved _)).bind fun _ => (Keeps.ofExcept _).bind fun _ => Keeps.pure _
  refine (hreplay.triple hE).bind fun _ => ?_
  refine ((hI.inspect c l req).triple hE).bind fun v => ?_
  refine (H.decide_spec c hport v req).bind fun d => ?_
  refine (H.applyPreEngine_spec c d.applied req v.country).bind fun a => ?_
  refine ((keeps_call (fun _ h => h) _ _).triple fun _ _ h => h.1).bind fun _ => ?_
  refine Triple.bind (Q := fun _ => Held) ?_ fun doc => ?_
  · exact Triple.ite (fun _ => H.spoofDocument_spec c _ _ _ _) fun _ =>
      Triple.pure fun _ h => h.held
  refine Triple.bind (Q := fun _ => Published) ?_ fun _ => ?_
  · exact Triple.update fun s h => ⟨h, by simp⟩
  refine (H.bringUp_spec a doc).bind fun _ => ?_
  exact Triple.update fun s h => ⟨rfl, h.1.1, h.2, h.1.2.1, hfp, h.1.2.2⟩

/-- The hash has thirty-two bytes, so a fingerprint is never empty. -/
theorem requestFingerprint_ne_empty (req : StartRequest) : H.requestFingerprint req ≠ "" := by
  intro h
  have hlen := congrArg String.length h
  simp [requestFingerprint, hexEncode, List.ofFn_succ] at hlen

/-! ## The operations -/

theorem worldFree_working : WorldFree (Working : Service σ Δ → Prop) :=
  fun _ _ h => ⟨h.1, h.2.1, { h.2.2 with }⟩

/-- From rest, a start that fails is undone, and one whose server does not
answer is not. -/
theorem startFresh_spec (hport : c.socksPort ≠ 0) (req : StartRequest) :
    Triple (AtRest : Service σ Δ → Prop) (H.startFresh c req) (fun _ => Working)
      (fun e s => (e.place = .apply ∧ AtRest s) ∨ (e.place = .probe ∧ Working s)) := by
  refine Triple.bind (Q := fun _ => Working) ?_ fun _ => ?_
  · refine Triple.wrap ?_
    refine ((H.applyLocked_spec c hport req (H.requestFingerprint_ne_empty req)).pre
      (fun s h => h.2.idle)).onError fun e => ?_
    exact H.stopLocked_spec.post (fun _ _ h => .inl ⟨rfl, h⟩)
      (fun _ _ h => .inl ⟨rfl, h⟩)
  · exact Triple.wrap ((worldFree_working.leaves H).probeServer.triple fun _ _ h => .inr ⟨rfl, h⟩)

/-- The errors of `Start` that need not leave the service at rest. -/
def StartError.keepsState (e : StartError) : Prop :=
  e.place = .platform ∨ e.place = .probe ∨ e.place = .reassert

/-- **`Start` keeps the state sound, and an error of its own work leaves the
service at rest.** -/
theorem start_spec (hport : c.socksPort ≠ 0) (req : StartRequest) :
    Triple (Sound : Service σ Δ → Prop) (H.start c req) (fun _ => Sound)
      (fun e s => Sound s ∧ (e.keepsState ∨ AtRest s)) := by
  have hfresh : Triple (AtRest : Service σ Δ → Prop) (H.startFresh c req) (fun _ => Sound)
      (fun e s => Sound s ∧ (e.keepsState ∨ AtRest s)) := by
    refine (H.startFresh_spec c hport req).post (fun _ _ h => .inr h) ?_
    rintro e s (⟨hp, h⟩ | ⟨hp, h⟩)
    · exact ⟨.inl h, .inr h⟩
    · exact ⟨.inr h, .inl (.inr (.inl hp))⟩
  refine Triple.bind (Q := fun _ => Sound) ?_ fun _ => ?_
  · refine Triple.wrap ((keeps_call ?_ _ _).triple fun _ _ h => ⟨h, .inl (.inl rfl)⟩)
    rintro s (h | h)
    · exact .inl ⟨h.1, { h.2 with }⟩
    · exact .inr (worldFree_working s _ h)
  refine Triple.bind Triple.read fun running => ?_
  refine Triple.bind Triple.look fun applied => ?_
  refine Triple.ite (fun hoff => ?_) fun hon => Triple.ite (fun _ => ?_) fun _ => ?_
  · refine hfresh.pre ?_
    rintro s ⟨h | h, hr⟩
    · exact h
    · rw [hr] at hoff
      exact absurd (h.1.symm.trans hoff) (by simp)
  · refine Triple.wrap ?_
    have hcall : ∀ (k : Call), k.opensNothing = true → ∀ s : Service σ Δ, Working s →
        Working { s with calls := k :: s.calls } :=
      fun k hk s h => ⟨h.1, h.2.1.called hk, { h.2.2 with }⟩
    refine ((worldFree_working.leaves H).reassertLocked hcall).weaken ?_ (fun _ _ h => .inr h)
      (fun _ _ h => ⟨.inr h, .inl (.inr (.inr rfl))⟩)
    rintro s ⟨h | h, hr⟩
    · exact absurd (hr.trans h.1) hon
    · exact h
  · refine Triple.bind (Q := fun _ => AtRest) (Triple.wrap ?_) fun _ => hfresh
    exact H.stopLocked_spec.weaken (fun s h => h.1.accounted) (fun _ _ h => h)
      (fun _ _ h => ⟨.inl h, .inr h⟩)

/-- Cutting and restoring change only the flag, on a service that is up. -/
theorem keeps_setForward (want : ForwardState) :
    Keeps (Sound : Service σ Δ → Prop) (H.setForward want) := by
  refine Keeps.bind (fun _ hs => hs) fun plan => ?_
  refine Triple.bind Triple.read fun running => ?_
  refine Triple.bind Triple.look fun current => ?_
  cases plan with
  | none => exact Triple.stop fun _ h => h.1
  | some plan =>
    refine Triple.ite (fun _ => Triple.stop fun _ h => h.1) fun hon => ?_
    refine Triple.ite (fun _ => Triple.pure fun _ h => h.1) fun _ => ?_
    have hwork : ∀ s : Service σ Δ, Sound s ∧ running = s.running → Working s := by
      rintro s ⟨h | h, hr⟩
      · exact absurd (hr.trans h.1) hon
      · exact h
    refine Triple.bind (Q := fun _ => Working) ?_ fun _ => ?_
    · exact ((keeps_call (worldFree_working.unmoved _) _ _).triple fun _ _ h => .inr h).pre
        hwork
    · exact Triple.update fun s h => .inr ⟨h.1, h.2.1, { h.2.2 with }⟩

theorem keeps_recoverService (hport : c.socksPort ≠ 0) (req : StartRequest) :
    Keeps (Sound : Service σ Δ → Prop) (H.recoverService c req) := by
  refine Triple.bind (Q := fun _ => Sound) ?_ fun _ => ?_
  · refine Triple.bind (Q := fun _ => AtRest) ?_ fun stopped => ?_
    · exact (H.stopLocked_spec.pre (fun _ h => Sound.accounted h)).attempt
    refine Triple.bind (triple_ask fun s h => ⟨h.1, { h.2 with }⟩) fun replayed => ?_
    cases replayed with
    | ok _ => exact Triple.pure fun _ h => .inl h
    | error e =>
      cases stopped with
      | ok _ | error stopErr => exact Triple.stop fun _ h => .inl h
  · exact Triple.wrap ((H.start_spec c hport req).post (fun _ _ h => h)
      (fun _ _ h => h.1))

/-- One operation keeps the state sound. -/
theorem sound_perform (hport : c.socksPort ≠ 0) (op : Op) (h : Sound s) :
    Sound (H.perform c op s) := by
  cases op with
  | start req => exact ((H.start_spec c hport req).post (fun _ _ h => h)
      (fun _ _ h => h.1)).after h
  | stop =>
    exact (H.stopLocked_spec.weaken (fun _ h => Sound.accounted h) (fun _ _ h => .inl h)
      (fun _ _ h => .inl h)).after h
  | cut => exact (H.keeps_setForward .cut).after h
  | restore => exact (H.keeps_setForward .normal).after h
  | recover req => exact (H.keeps_recoverService c hport req).after h

/-- A new service is at rest. -/
theorem sound_new (w : σ) : Sound (Service.new w : Service σ Δ) := by
  refine .inl ⟨rfl, rfl, rfl, rfl, rfl, rfl, rfl, rfl, ?_, ?_, ?_, ?_⟩
  · exact fun h => by cases h
  · exact fun h => by cases h
  · exact fun i hi => by cases hi
  · exact fun i hi => by cases hi

/-- A sequence of operations keeps the state sound. -/
theorem sound_performAll (hport : c.socksPort ≠ 0) (ops : List Op) (w : σ) :
    Sound (H.performAll c ops w) := by
  have hfold : ∀ s : Service σ Δ, Sound s →
      Sound (ops.foldl (fun s op => H.perform c op s) s) := by
    induction ops with
    | nil => exact fun s h => h
    | cons op rest ih => exact fun s h => ih _ (H.sound_perform c hport op h)
  exact hfold _ (sound_new w)

/-- **Between any two operations the service is up or at rest, and a start
that fails by its own work leaves it at rest.** -/
theorem service_up_or_resting (hport : c.socksPort ≠ 0) (ops : List Op) (w : σ) :
    ((H.performAll c ops w).running = true → Up (H.performAll c ops w)) ∧
      ((H.performAll c ops w).running = false → Resting (H.performAll c ops w)) ∧
      ∀ (req : StartRequest) (e : StartError) (s : Service σ Δ),
        H.start c req (H.performAll c ops w) = (.error e, s) →
        e.place ≠ .platform → e.place ≠ .probe → e.place ≠ .reassert →
        s.running = false ∧ Resting s := by
  have hsound := H.sound_performAll c hport ops w
  refine ⟨fun hon => ?_, fun hoff => ?_, ?_⟩
  · rcases hsound with h | h
    · exact absurd (hon.symm.trans h.1) (by simp)
    · exact h.2.2
  · rcases hsound with h | h
    · exact h.2
    · exact absurd (h.1.symm.trans hoff) (by simp)
  · intro req e s hstart hplatform hprobe hreassert
    have herr := (H.start_spec c hport req).error hsound hstart
    refine herr.2.resolve_left ?_
    rintro (h | h | h)
    · exact hplatform h
    · exact hprobe h
    · exact hreassert h

/-- **Nothing that was opened is lost.**  After any sequence of operations every
applier and forwarder is closed or in force; a stop then closes the last of them
and rests, whichever of its own steps fail. -/
theorem performAll_stop (hport : c.socksPort ≠ 0) (ops : List Op) (w : σ) :
    Accounted (H.performAll c ops w) ∧ AtRest (H.performAll c (ops ++ [.stop]) w) := by
  have haccounted : Accounted (H.performAll c ops w) := (H.sound_performAll c hport ops w).accounted
  refine ⟨haccounted, ?_⟩
  rw [performAll, List.foldl_append]
  exact H.stopLocked_spec.after haccounted

end Host

/-- A machine on which everything works: a cable, a radio that can share its
channel, and a server with an address. -/
def workingHost (σ : Type) : Host σ Unit Unit Unit where
  text _ := ""
  faultOf _ := .unknown
  engineFault _ := .unknown
  hotspotFault _ _ := .unknown
  join _ := ()
  isSpoofUnsupported _ := false
  mac _ _ := 0
  configFromRequest _ := .ok ()
  validateSpoof _ _ := .ok ()
  linkAddress _ := "203.0.113.7"
  linkPort _ := 443
  throughLoopback _ _ := .ok ()
  engineDocument _ _ _ _ _ _ := .ok ()
  validateDocument _ := .ok ()
  baseSysctlKnobs := []
  sysctlKnobs _ := []
  checkSupport w := (.ok (), w)
  clockPlausible w := (true, w)
  recover w := (.ok {}, w)
  detect _ w := (.ok ⟨twoBandFacts, fun _ => none⟩, w)
  regulatoryDomain w := (none, w)
  resolve _ w := (.ok [.v4 0xCB007107#32], w)
  listen port w := (.ok ⟨port.toNat, ""⟩, w)
  generatePassphrase w := ("", w)
  newApplier _ w := (.ok (), w)
  apply _ _ w := (({}, none), w)
  teardown _ w := (({}, none), w)
  assertHotspotInterfaceReleased _ w := (.ok (), w)
  assertHotspotIsAccessPoint _ _ w := (.ok (), w)
  startSNI _ _ _ _ w := (.ok (.v4 0x7f000001, 4443), w)
  closeSNI _ w := (.ok (), w)
  engineStart _ w := (.ok (), w)
  engineStop w := (.ok (), w)
  supStart _ w := ((⟨true, ""⟩, none), w)
  supStop w := (.ok (), w)
  probe _ _ w := (.ok (), w)
  run _ w := (.ok (), w)

/-- Started on that machine, the service is up; stopped, it is at rest. -/
theorem workingHost_up_then_resting :
    ((workingHost Unit).performAll {} [.start upperBandRequest] ()).running = true ∧
      Up ((workingHost Unit).performAll {} [.start upperBandRequest] ()) ∧
      Resting ((workingHost Unit).performAll {} [.start upperBandRequest, .stop] ()) := by
  have hon : ((workingHost Unit).performAll {} [.start upperBandRequest] ()).running = true := by
    decide +kernel
  have hoff : ((workingHost Unit).performAll {} [.start upperBandRequest, .stop] ()).running = false := by
    decide +kernel
  exact ⟨hon, ((workingHost Unit).service_up_or_resting {} (by decide) _ ()).1 hon,
    ((workingHost Unit).service_up_or_resting {} (by decide) _ ()).2.1 hoff⟩

theorem workingHost_stop_rests :
    AtRest ((workingHost Unit).performAll {} ([.start upperBandRequest] ++ [.stop]) ()) :=
  ((workingHost Unit).performAll_stop {} (by decide) _ ()).2

end Caspian.Privsvc
