import Caspian.Hotspot.Supervisor

/-!
# What a function of the supervisor can do to the machine

Every function of the supervisor is made of calls, and a call does one of six
things to the machine, or nothing.  `Steps` is a sequence of those with the
machine moving on in between, restricted to the daemons and the radios it may
touch; `Does` says that a function, wherever it stops, has done no more than
that.  A property of the machine is then carried through a whole function by
what the six operations do to it (`Steps.keeps`), and none of the proofs about
daemons or radios looks at the program again for what it leaves alone.
-/

namespace Caspian.Hotspot

open Verified Verified.Action
open Netcfg (atoi)

/-! ## Operations -/

inductive Op where
  | kill (pid : Int)
  | setConf (k : Daemon) (text : Option String)
  | removePid (k : Daemon)
  | spawn (k : Daemon) (pid : Int)
  | unblock (obeys : Int → Bool)
  | block (obeys : Int → Bool) (i : Int)

variable {k : Daemon}

namespace Op

def apply : Op → Machine → Machine
  | kill pid, m => m.kill pid
  | setConf k text, m => m.setConf k text
  | removePid k, m => m.removePid k
  | spawn k pid, m => m.spawn k pid
  | unblock obeys, m => m.unblock obeys
  | block obeys i, m => m.block obeys i

/-- The daemon whose files or processes the operation adds to or changes. -/
def daemon : Op → Option Daemon
  | setConf k _ => some k
  | removePid k => some k
  | spawn k _ => some k
  | _ => none

def onRadio : Op → Bool
  | unblock _ => true
  | block _ _ => true
  | _ => false

/-- The operation stays within some daemons and, if it may, the radios. -/
structure Within (ds : List Daemon) (radio : Bool) (o : Op) : Prop where
  daemon : ∀ k ∈ o.daemon, k ∈ ds
  radio : o.onRadio = true → radio = true

theorem within_kill (pid : Int) (ds : List Daemon) (radio : Bool) : (kill pid).Within ds radio := by
  constructor
  · intro k hk
    cases hk
  · intro ho
    cases ho

theorem within_radio {o : Op} (h : o.daemon = none) (ds : List Daemon) : o.Within ds true := by
  constructor
  · intro k hk
    rw [h] at hk
    cases hk
  · intro _
    rfl

theorem within_daemon {o : Op} {ds : List Daemon} (h : o.daemon = some k) (hk : k ∈ ds)
    (hradio : o.onRadio = false) (radio : Bool) : o.Within ds radio := by
  constructor
  · intro j hj
    rw [h] at hj
    cases hj
    exact hk
  · intro ho
    rw [hradio] at ho
    cases ho

end Op

/-! ## Sequences of operations -/

/-- Operations within some daemons and radios, with the machine moving on in
between. -/
inductive Steps (ds : List Daemon) (radio : Bool) (m : Machine) : Machine → Prop where
  | refl : Steps ds radio m m
  | meanwhile {m' : Machine} (ends records : List Int) :
      Steps ds radio m m' → Steps ds radio m (m'.meanwhile ends records)
  | op {m' : Machine} {o : Op} : o.Within ds radio → Steps ds radio m m' →
      Steps ds radio m (o.apply m')

namespace Steps

variable {ds : List Daemon} {radio : Bool} {m m' m'' : Machine}

/-- The rule for runs: what the machine and every operation keep is kept. -/
theorem keeps {P : Machine → Prop} (h : Steps ds radio m m')
    (hmeanwhile : ∀ n ends records, P n → P (n.meanwhile ends records))
    (hop : ∀ n (o : Op), o.Within ds radio → P n → P (o.apply n)) (hm : P m) : P m' := by
  induction h with
  | refl => exact hm
  | meanwhile ends records _ ih => exact hmeanwhile _ ends records ih
  | op ho _ ih => exact hop _ _ ho ih

theorem trans (h : Steps ds radio m m') (h' : Steps ds radio m' m'') : Steps ds radio m m'' := by
  induction h' with
  | refl => exact h
  | meanwhile ends records _ ih => exact .meanwhile ends records ih
  | op ho _ ih => exact .op ho ih

end Steps

/-! ## Functions that do no more -/

/-- Wherever it stops, the function has done no more than operations within
these daemons and radios; one that is not about the radios leaves the record
of them alone. -/
structure Does {ε α : Type} (ds : List Daemon) (radio : Bool) (x : Action ε Supervisor α) :
    Prop where
  steps : ∀ s, Steps ds radio s.machine (x s).2.machine
  record : radio = false → ∀ s, (x s).2.unblocked = s.unblocked

namespace Does

variable {ε δ α β : Type} {ds : List Daemon} {radio : Bool}

theorem pure (a : α) : Does ds radio (pure a : Action ε Supervisor α) :=
  ⟨fun _ => .refl, fun _ _ => rfl⟩

theorem stop (e : ε) : Does ds radio (Action.stop e : Action ε Supervisor α) :=
  ⟨fun _ => .refl, fun _ _ => rfl⟩

theorem read (f : Supervisor → α) : Does ds radio (Action.read f : Action ε Supervisor α) :=
  ⟨fun _ => .refl, fun _ _ => rfl⟩

/-- A new record of the radios. -/
theorem setRecord (ours : List RfkillDevice) :
    Does ds true (Action.update (fun s => { s with unblocked := ours }) :
      Action ε Supervisor Unit) :=
  ⟨fun _ => .refl, fun h => (nomatch h)⟩

variable {x : Action ε Supervisor α}

theorem bind {f : α → Action ε Supervisor β} (hx : Does ds radio x)
    (hf : ∀ a, Does ds radio (f a)) :
    Does ds radio (x >>= f) := by
  constructor
  · intro s
    have hfirst := hx.steps s
    cases hrun : x s with
    | mk r s' =>
      rw [hrun] at hfirst
      cases r with
      | ok a =>
        rw [bind_ok hrun]
        exact hfirst.trans ((hf a).steps s')
      | error e =>
        rw [bind_error hrun]
        exact hfirst
  · intro hradio s
    have hfirst := hx.record hradio s
    cases hrun : x s with
    | mk r s' =>
      rw [hrun] at hfirst
      cases r with
      | ok a =>
        rw [bind_ok hrun]
        exact ((hf a).record hradio s').trans hfirst
      | error e =>
        rw [bind_error hrun]
        exact hfirst

theorem wrap (h : Does ds radio x) (f : ε → δ) : Does ds radio (Action.wrap f x) := by
  have hstate : ∀ s, (Action.wrap f x s).2 = (x s).2 := by
    intro s
    cases hrun : x s with
    | mk r s' =>
      cases r with
      | ok a => rw [wrap_ok hrun]
      | error e => rw [wrap_error hrun]
  constructor
  · intro s
    rw [hstate]
    exact h.steps s
  · intro hradio s
    rw [hstate]
    exact h.record hradio s

theorem attempt (h : Does ds radio x) :
    Does ds radio (Action.attempt x : Action δ Supervisor (Except ε α)) :=
  ⟨h.steps, h.record⟩

theorem ite {c : Prop} [Decidable c] {y : Action ε Supervisor α} (hx : Does ds radio x)
    (hy : Does ds radio y) : Does ds radio (if c then x else y) := by
  split
  · exact hx
  · exact hy

theorem call {env : Env} {f : Turn → Machine → Except String α × Machine}
    (h : ∀ t m, (f t m).2 = m ∨ ∃ o : Op, o.Within ds radio ∧ (f t m).2 = o.apply m) :
    Does ds radio (Supervisor.call env f) := by
  refine ⟨?_, fun _ _ => rfl⟩
  intro s
  have hmoved : Steps ds radio s.machine (s.machine.meanwhile (env.turns s.machine.clock).ends
    (env.turns s.machine.clock).records) := .meanwhile _ _ .refl
  show Steps ds radio s.machine (f _ _).2
  rcases h (env.turns s.machine.clock) (s.machine.meanwhile (env.turns s.machine.clock).ends
    (env.turns s.machine.clock).records) with hsame | ⟨o, ho, happly⟩
  · rw [hsame]
    exact hmoved
  · rw [happly]
    exact .op ho hmoved

theorem look {env : Env} (f : Turn → Machine → α) : Does ds radio (Supervisor.look env f) :=
  call fun _ _ => Or.inl rfl

theorem change {env : Env} {f : Turn → Machine → Machine}
    (h : ∀ t m, f t m = m ∨ ∃ o : Op, o.Within ds radio ∧ f t m = o.apply m) :
    Does ds radio (Supervisor.change env f) := by
  apply call
  intro t m
  cases hfails : t.fails with
  | some e => exact Or.inl rfl
  | none => exact h t m

end Does

namespace Supervisor

variable (env : Env) {ds : List Daemon} {radio : Bool}

/-! ## The calls -/

theorem does_writeConf (hk : k ∈ ds) (content : String) :
    Does ds radio (writeConf env k content) := by
  have hop : ∀ text, (Op.setConf k text).Within ds radio :=
    fun text => Op.within_daemon rfl hk rfl radio
  apply Does.call
  intro t m
  cases hfails : t.fails with
  | none => exact Or.inr ⟨.setConf k (some content), hop _, rfl⟩
  | some e =>
    cases hleaves : t.leaves with
    | none => exact Or.inl rfl
    | some rest => exact Or.inr ⟨.setConf k (some rest), hop _, rfl⟩

theorem does_removeConf (hk : k ∈ ds) : Does ds radio (removeConf env k) := by
  apply Does.change
  intro t m
  unfold Machine.removeConf
  split
  · exact Or.inl rfl
  · exact Or.inr ⟨.setConf k none, Op.within_daemon rfl hk rfl radio, rfl⟩

theorem does_removePid (hk : k ∈ ds) : Does ds radio (removePid env k) :=
  Does.change fun _ _ => Or.inr ⟨.removePid k, Op.within_daemon rfl hk rfl radio, rfl⟩

theorem does_signalKill (pid : Int) : Does ds radio (signalKill env pid) :=
  Does.change fun _ _ => Or.inr ⟨.kill pid, Op.within_kill pid ds radio, rfl⟩

theorem does_spawn (hk : k ∈ ds) : Does ds radio (spawn env k) := by
  apply Does.call
  intro t m
  cases hsurvives : t.survives with
  | false => exact Or.inl rfl
  | true => exact Or.inr ⟨.spawn k t.pid, Op.within_daemon rfl hk rfl radio, rfl⟩

theorem does_runRfkillUnblock : Does ds true (runRfkillUnblock env) :=
  Does.call fun t _ => Or.inr ⟨.unblock t.obeys, Op.within_radio rfl ds, rfl⟩

theorem does_runRfkillBlock (i : Int) : Does ds true (runRfkillBlock env i) :=
  Does.call fun t _ => Or.inr ⟨.block t.obeys i, Op.within_radio rfl ds, rfl⟩

/-! ## Processes -/

theorem does_livePID (k : Daemon) : Does ds radio (livePID env k) := by
  apply Does.bind (Does.look _)
  intro b
  cases b with
  | none => exact Does.pure 0
  | some b =>
    dsimp only
    split
    · exact Does.pure 0
    · exact Does.ite (Does.pure 0) (Does.bind (Does.look _) fun _ => Does.pure _)

theorem does_awaitEnd (pid : Int) (n : Nat) : Does ds radio (awaitEnd env pid n) := by
  induction n with
  | zero => exact Does.pure false
  | succ n ih =>
    apply Does.bind (Does.look _)
    intro alive
    exact Does.ite (Does.bind (Does.look _) fun _ => ih) (Does.pure true)

theorem does_terminate (pid : Int) : Does ds radio (terminate env pid) := by
  apply Does.bind (Does.look _)
  intro _
  apply Does.bind (does_awaitEnd env pid _)
  intro gone
  apply Does.ite (Does.pure ())
  apply Does.bind (Does.look _)
  intro alive
  exact Does.ite (does_signalKill env pid) (Does.pure ())

theorem does_terminateAll (pids : List Int) : Does ds radio (terminateAll env pids) := by
  induction pids with
  | nil => exact Does.pure ()
  | cons pid pids ih => exact Does.bind (does_terminate env pid) fun _ => ih

theorem does_stopStrays : Does ds radio (stopStrays env) := by
  apply Does.ite (Does.pure ())
  apply Does.bind (Does.attempt (Does.look _))
  intro r
  cases r with
  | error e => exact Does.pure ()
  | ok res => exact Does.ite (Does.pure ()) (does_terminateAll env _)

theorem does_stopByPIDFile (hk : k ∈ ds) : Does ds radio (stopByPIDFile env k) := by
  apply Does.bind (does_livePID env k)
  intro pid
  exact Does.ite (Does.bind (does_terminate env pid) fun _ => does_removePid env hk)
    (does_removePid env hk)

theorem does_awaitPID (k : Daemon) : Does ds radio (awaitPID env k) := by
  unfold awaitPID
  induction env.startTries with
  | zero => exact Does.stop _
  | succ n ih =>
    apply Does.bind (does_livePID env k)
    intro pid
    exact Does.ite (Does.pure pid) (Does.bind (Does.look _) fun _ => ih)

theorem does_clearTheWay (hk : k ∈ ds) (pid : Int) : Does ds radio (clearTheWay env k pid) :=
  Does.ite (Does.bind (does_terminate env pid) fun _ => does_removePid env hk)
    (Does.bind (does_removePid env hk) fun _ => does_stopStrays env)

theorem does_startProcess (hk : k ∈ ds) (confChanged : Bool) :
    Does ds radio (startProcess env k confChanged) := by
  apply Does.bind ((does_livePID env k).wrap _)
  intro pid
  apply Does.ite (Does.pure _)
  apply Does.bind ((does_clearTheWay env hk pid).wrap _)
  intro _
  apply Does.bind ((does_spawn env hk).wrap _)
  intro res
  exact Does.ite (Does.stop _)
    (Does.bind ((does_awaitPID env k).wrap _) fun _ => Does.pure _)

theorem does_writeIfChanged (hk : k ∈ ds) (content : String) :
    Does ds radio (writeIfChanged env k content) := by
  apply Does.bind (Does.look _)
  intro old
  exact Does.ite (Does.pure false) (Does.bind (does_writeConf env hk content) fun _ => Does.pure true)

/-! ## Radios -/

theorem does_rfkillList : Does ds radio (rfkillList env) := by
  apply Does.bind (Does.look _)
  intro res
  exact Does.ite (Does.stop _) (Does.pure _)

theorem does_ensureRadioUnblocked : Does ds true (ensureRadioUnblocked env) := by
  apply Does.bind (Does.attempt (does_rfkillList env))
  intro r
  cases r with
  | error e => exact Does.pure _
  | ok devs =>
    apply Does.ite (Does.pure _)
    apply Does.ite (Does.stop _)
    refine Does.ite ?_ (Does.pure _)
    apply Does.bind (Does.attempt (does_runRfkillUnblock env))
    intro r
    cases r with
    | error e => exact Does.stop _
    | ok _ =>
      apply Does.bind (Does.attempt (does_rfkillList env))
      intro r
      cases r with
      | error e => exact Does.pure _
      | ok devs =>
        exact Does.ite (Does.stop _) (Does.bind (Does.setRecord _) fun _ => Does.pure _)

theorem does_blockAll (now ours : List RfkillDevice) : Does ds true (blockAll env now ours) := by
  induction ours with
  | nil => exact Does.pure []
  | cons d ours ih =>
    refine Does.ite ?_ ih
    apply Does.bind (Does.attempt (does_runRfkillBlock env d.index))
    intro r
    apply Does.bind ih
    intro errs
    cases r with
    | error e | ok _ => exact Does.pure _

theorem does_reblockRadio : Does ds true (reblockRadio env) := by
  apply Does.bind (Does.read _)
  intro ours
  apply Does.bind (Does.setRecord [])
  intro _
  apply Does.ite (Does.pure [])
  apply Does.bind (Does.attempt (does_rfkillList env))
  intro r
  cases r with
  | error e => exact Does.pure _
  | ok devs =>
    apply Does.bind (does_blockAll env _ ours)
    intro errs
    apply Does.ite (Does.pure errs)
    apply Does.bind (Does.attempt (does_rfkillList env))
    intro r
    cases r with
    | error e | ok devs => exact Does.pure _

/-! ## Starting and stopping -/

theorem does_apBeaconing {ε : Type} :
    Does ds radio (apBeaconing env : Action ε Supervisor Bool) := by
  apply Does.ite (Does.pure true)
  apply Does.bind (Does.attempt (Does.look _))
  intro r
  cases r with
  | error e => exact Does.pure false
  | ok res => exact Does.pure _

theorem does_stopDaemon (hk : k ∈ ds) : Does ds radio (stopDaemon env k) := by
  apply Does.bind (does_stopByPIDFile env hk).attempt
  intro a
  apply Does.bind (does_stopStrays env).attempt
  intro b
  exact Does.bind (does_removeConf env hk).attempt fun c => Does.pure _

theorem does_startDaemons (files : Daemon → String) (st : RadioState) (hds : ∀ k, k ∈ ds) :
    Does ds radio (startDaemons env files st) := by
  apply Does.bind ((does_writeIfChanged env (hds _) _).wrap _)
  intro apChanged
  apply Does.bind ((does_writeIfChanged env (hds _) _).wrap _)
  intro dnsChanged
  apply Does.bind ((does_startProcess env (hds _) _).wrap _)
  intro ap
  apply Does.bind ((does_startProcess env (hds _) _).wrap _)
  intro dhcp
  apply Does.bind (does_apBeaconing env)
  intro beaconing
  exact Does.ite (Does.pure _) (Does.pure _)

theorem does_startFiles (files : Daemon → String) (hds : ∀ k, k ∈ ds) :
    Does ds true (startFiles env files) := by
  apply Does.bind ((does_ensureRadioUnblocked env).wrap _)
  intro st
  exact does_startDaemons env files st hds

theorem does_stop (hds : ∀ k, k ∈ ds) : Does ds true (stop env) := by
  apply Does.bind (does_stopDaemon env (hds _))
  intro a
  apply Does.bind (does_stopDaemon env (hds _))
  intro b
  exact Does.bind (does_reblockRadio env) fun c => Does.pure _

end Supervisor

end Caspian.Hotspot
