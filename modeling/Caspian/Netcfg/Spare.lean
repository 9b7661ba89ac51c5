import Caspian.Netcfg.Recovery

/-!
# What was there before stays

Recovery runs the inverse of a step whose outcome the journal does not know.
Whether that destroys something is a question about objects only: addresses,
routes, rules and interfaces.  The values an inverse writes back do not matter,
and neither does whether another inverse is refused, so nothing is assumed
here about the machine.
-/

namespace Caspian.Netcfg

open Verified

/-! ## One core within another -/

/-- The second core holds every object of the first, and beyond them at most
addresses. -/
structure Core.Within (a b : Core) : Prop where
  addrs : a.addrs ⊆ b.addrs
  routes : a.routes = b.routes
  rules : a.rules = b.rules
  ifaces : ∀ name, name ∈ a.ifaces ↔ name ∈ b.ifaces

theorem Core.Within.refl (c : Core) : c.Within c :=
  ⟨Finset.Subset.refl _, rfl, rfl, fun _ => Iff.rfl⟩

theorem Core.Within.trans {a b c : Core} (h : a.Within b) (h' : b.Within c) : a.Within c :=
  ⟨h.addrs.trans h'.addrs, h.routes.trans h'.routes, h.rules.trans h'.rules,
    fun name => (h.ifaces name).trans (h'.ifaces name)⟩

theorem Core.Agree.within {a b : Core} (h : a.Agree b) : a.Within b :=
  ⟨h.addrs.subset, h.routes, h.rules, h.ifaces⟩

/-- The effect leaves the addresses alone, and does not look at them. -/
theorem Effect.on_addrs (d : Driver) {e : Effect} (c : Core) (as : Finset (String × String))
    (hadd : ∀ dev pfx, e ≠ .addAddr dev pfx) (hdel : ∀ dev pfx, e ≠ .delAddr dev pfx) :
    (e.on d { c with addrs := as }).1 = { (e.on d c).1 with addrs := as } ∧
      (e.on d c).1.addrs = c.addrs := by
  cases e with
  | addAddr dev pfx => exact absurd rfl (hadd dev pfx)
  | delAddr dev pfx => exact absurd rfl (hdel dev pfx)
  | _ =>
    unfold Effect.on
    simp only
    try (repeat' split) <;> simp

/-- Effects keep one core within another. -/
theorem Effect.on_within (d : Driver) (e : Effect) {a b : Core} (h : a.Within b) :
    (e.on d a).1.Within (e.on d b).1 := by
  by_cases hadd : ∃ dev pfx, e = .addAddr dev pfx
  · obtain ⟨dev, pfx, rfl⟩ := hadd
    simp only [Effect.on, h.ifaces dev]
    split
    · exact h
    · split
      next ha =>
        rw [if_pos (h.addrs ha)]
        exact h
      · split
        next hb =>
          exact ⟨Finset.insert_subset hb h.addrs, h.routes, h.rules, h.ifaces⟩
        · exact ⟨Finset.insert_subset_insert _ h.addrs, h.routes, h.rules, h.ifaces⟩
  by_cases hdel : ∃ dev pfx, e = .delAddr dev pfx
  · obtain ⟨dev, pfx, rfl⟩ := hdel
    simp only [Effect.on, h.ifaces dev]
    split
    · exact h
    · split
      next ha =>
        rw [if_pos (h.addrs ha)]
        exact ⟨Finset.erase_subset_erase _ h.addrs, h.routes, h.rules, h.ifaces⟩
      next ha =>
        split
        · refine ⟨fun x hx => Finset.mem_erase.mpr ⟨?_, h.addrs hx⟩, h.routes, h.rules, h.ifaces⟩
          rintro rfl
          exact ha hx
        · exact h
  have hagree : ({ a with addrs := b.addrs } : Core).Agree b :=
    ⟨rfl, h.routes, h.rules, h.ifaces⟩
  have hon := (Effect.on_agree d e hagree).2
  obtain ⟨hmoved, ha⟩ := Effect.on_addrs d a b.addrs (fun dev pfx he => hadd ⟨dev, pfx, he⟩)
    (fun dev pfx he => hdel ⟨dev, pfx, he⟩)
  rw [hmoved] at hon
  refine ⟨?_, hon.routes, hon.rules, hon.ifaces⟩
  rw [ha, ← hon.addrs]
  exact h.addrs

/-! ## Replay, whatever is refused -/

/-- The core after the inverses, newest first: a refused one changes nothing. -/
def replayCore (d : Driver) (log : List Command) (c : Core) : Core :=
  log.foldl (fun c u => ((effect u).on d.unwalled c).1) c

theorem replayCore_within {d : Driver} {log : List Command} {a b : Core} (h : a.Within b) :
    (replayCore d log a).Within (replayCore d log b) := by
  induction log generalizing a b with
  | nil => exact h
  | cons u log ih => exact ih (Effect.on_within _ _ h)

/-- The core after one inverse, refused or not. -/
theorem undoOne_core (e : Entry) (r : Replay SimulatedKernel) :
    (undoOne SimulatedKernel.run e r).machine = (r.machine.run e.undo).1 := by
  unfold undoOne
  simp only
  split
  · rfl
  · split <;> rfl

theorem undoAll_core (es : List Entry) (r : Replay SimulatedKernel) :
    (undoAll es r).machine.toCore =
      replayCore r.machine.driver (es.map Entry.undo) r.machine.toCore := by
  induction es generalizing r with
  | nil => rfl
  | cons e es ih =>
    have hfollows := r.machine.run_follows e.undo
    have hmachine := undoOne_core e r
    have hrest := ih (undoOne SimulatedKernel.run e r)
    rw [hmachine] at hrest
    refine hrest.trans ?_
    have hdriver : replayCore (r.machine.run e.undo).1.driver = replayCore r.machine.driver := by
      unfold replayCore
      rw [hfollows.driver]
    rw [hdriver, hfollows.core, ← Effect.on_unwalled_core]
    rfl

/-- Leaving out inverses that load rules changes nothing. -/
theorem replayCore_filter {d : Driver} (keep : Entry → Bool) {es : List Entry}
    (h : ∀ e ∈ es, keep e = false → effect e.undo = .loadRules) (c : Core) :
    replayCore d ((es.filter keep).map Entry.undo) c = replayCore d (es.map Entry.undo) c := by
  induction es generalizing c with
  | nil => rfl
  | cons e es ih =>
    have hrest := ih fun e' he' => h e' (List.mem_cons_of_mem _ he')
    cases hk : keep e with
    | true =>
      rw [List.filter_cons_of_pos hk]
      exact hrest _
    | false =>
      have hload := h e List.mem_cons_self hk
      rw [List.filter_cons_of_neg (by simp [hk]), hrest]
      show _ = replayCore d (es.map Entry.undo) ((effect e.undo).on d.unwalled c).1
      rw [hload]
      rfl

/-- **Where a replay leaves the core.** -/
theorem replay_core {es : List Entry} {k : SimulatedKernel} (j : Option Journal)
    (h : Undoable es) :
    (replay SimulatedKernel.run es k j).machine.toCore =
      replayCore k.driver (undosOf es) k.toCore := by
  have htwo := passTwo_core (passTwo_loads h) (undoAll (passOne es) { machine := k, journal := j })
  have hone := undoAll_core (passOne es) { machine := k, journal := j }
  have hfilter : replayCore k.driver ((passOne es).map Entry.undo) k.toCore =
      replayCore k.driver (undosOf es) k.toCore := by
    rw [passOne_eq]
    refine replayCore_filter _ (fun e he hop => h.firewall e he ?_) _
    simpa using hop
  exact htwo.1.trans (hone.trans hfilter)

/-! ## One step and its inverse -/

/-- A pair that puts a value back changes no object in either direction. -/
theorem Pair.agree_of_restores {d : Driver} {π : Pair} (h : π.restores ≠ none) (c : Core) :
    (π.run.on d c).1.Agree c ∧ ∀ u, π.undo = some u → (u.on d c).1.Agree c := by
  have htype : ∀ name type, ((Effect.setType name type).on d c).1.Agree c := by
    intro name type
    simp only [Effect.on]
    split
    · exact .refl c
    · split
      · exact .refl c
      next i hi => exact Core.agree_insert hi
  have hmanaged : ∀ name released, ((Effect.setManaged name released).on d c).1.Agree c := by
    intro name released
    simp only [Effect.on]
    split
    · exact .refl c
    next i hi => exact Core.agree_insert hi
  cases π with
  | knob name value prev =>
    refine ⟨⟨rfl, rfl, rfl, fun _ => Iff.rfl⟩, fun u hu => ?_⟩
    cases hu
    exact ⟨rfl, rfl, rfl, fun _ => Iff.rfl⟩
  | release name =>
    refine ⟨hmanaged _ _, fun u hu => ?_⟩
    cases hu
    exact hmanaged _ _
  | retype name type =>
    refine ⟨htype _ _, fun u hu => ?_⟩
    cases hu
    exact htype _ _
  | _ => exact absurd rfl h

/-- What a change made is all its inverse takes away. -/
theorem Pair.undo_within {d : Driver} {π : Pair} {u : Effect} {c : Core}
    (hrun : (π.run.on d c).2.2 = none) (hmatch : π.Matched) (hu : π.undo = some u) :
    c.Within (u.on d.unwalled (π.run.on d c).1).1 := by
  by_cases hr : π.restores = none
  · rw [undo_done hrun (ready_of_restores hr c) hmatch hu]
    exact .refl c
  · have hran := (agree_of_restores (d := d) hr c).1
    have hback := (agree_of_restores (d := d.unwalled) hr (π.run.on d c).1).2 u hu
    exact (hback.trans hran).symm.within

/-- An inverse of something that was not made takes nothing away. -/
theorem Pair.idle_within {d : Driver} {π : Pair} {u : Effect} {c : Core}
    (habsent : π.run.Absent c) (hmatch : π.Matched)
    (hfresh : ∀ name type, π = .create name type → name ∉ c.ifaces) (hu : π.undo = some u) :
    c.Within (u.on d c).1 := by
  by_cases hr : π.restores = none
  · cases π with
    | strip dev pfx =>
      cases hu
      simp only [Effect.on]
      split
      · exact .refl c
      · split
        · exact .refl c
        · exact ⟨Finset.subset_insert _ _, rfl, rfl, fun _ => Iff.rfl⟩
    | create name type =>
      have hidle : (Pair.create name type).Idle c := hfresh name type rfl
      rw [undo_idle hidle hu]
      exact .refl c
    | addr dev pfx =>
      have hidle : (Pair.addr dev pfx).Idle c := habsent
      rw [undo_idle hidle hu]
      exact .refl c
    | route table pfx table' =>
      obtain rfl : table' = table := hmatch
      have hidle : (Pair.route table' pfx table').Idle c := habsent
      rw [undo_idle hidle hu]
      exact .refl c
    | rule r =>
      have hidle : (Pair.rule r).Idle c := habsent
      rw [undo_idle hidle hu]
      exact .refl c
    | firewall =>
      cases hu
      exact .refl c
    | down name =>
      cases hu
      rw [Effect.linkUp_core]
      exact .refl c
    | knob name value prev | release name | retype name type => cases hr
    | _ => cases hu
  · exact ((agree_of_restores hr c).2 u hu).symm.within

/-- A command that failed for another reason than that its object is there did
not find its object. -/
theorem Effect.absent_of_failed {d : Driver} {e : Effect} {c : Core} {cmd : Command}
    {msg : String} (h : verdict cmd (e.on d c).2 = .failed msg) : e.Absent c := by
  cases e with
  | addAddr dev pfx =>
    intro hd ha
    refine absurd h (verdict_of_exists ?_)
    simpa [Effect.on, hd, ha] using exists_exists
  | addRoute table pfx | addRule r =>
    intro hr
    refine absurd h (verdict_of_exists ?_)
    simpa [Effect.on, hr] using exists_exists
  | _ => trivial

/-- An interface to be created is not there. -/
def Step.Fresh (s : Step) (π : Pair) (c : Core) : Prop :=
  ∀ name type, π = .create name type → validateCommand s.undo = none → name ∉ c.ifaces

section Step

variable {d : Driver} {s : Step} {π : Pair} {c : Core}

theorem Step.Is.undo_within (hs : s.Is π) (hmatch : π.Matched)
    (hrun : ((effect s.run).on d c).2.2 = none) :
    (s.undo.isZero = true → c.Within ((effect s.run).on d c).1) ∧
      (s.undo.isZero = false →
        c.Within ((effect s.undo).on d.unwalled ((effect s.run).on d c).1).1) := by
  have hvalid := valid_of_ok hrun
  have hpair := hs.run_eq hvalid
  rw [hpair] at hrun ⊢
  refine ⟨fun hz => ?_, fun hz => ?_⟩
  · rw [hs.undo_isZero, Option.isNone_iff_eq_none] at hz
    exact (Pair.agree_of_noInverse hz).symm.within
  · obtain ⟨u, hu⟩ := hs.undo_some hz
    by_cases hv : validateCommand s.undo = none
    · rw [hs.undo_eq u hu hv]
      exact Pair.undo_within hrun hmatch hu
    · -- only a value that was read can make the inverse invalid
      have hknob : ∃ name value prev, π = .knob name value prev := by
        by_contra hno
        exact hv (hs.valid_undo (fun n v q hq => hno ⟨n, v, q, hq⟩) hvalid hz)
      obtain ⟨name, value, prev, rfl⟩ := hknob
      obtain ⟨msg, hmsg⟩ := Option.ne_none_iff_exists'.mp hv
      have heffect : effect s.undo = .reject ({}, some msg) := by
        unfold effect
        rw [hmsg]
      rw [heffect]
      exact (Pair.agree_of_restores (by simp [Pair.restores]) c).1.symm.within

theorem Step.Is.idle_within (hs : s.Is π) (hmatch : π.Matched)
    (habsent : (effect s.run).Absent c) (hfresh : s.Fresh π c) (hz : s.undo.isZero = false) :
    c.Within ((effect s.undo).on d c).1 := by
  obtain ⟨u, hu⟩ := hs.undo_some hz
  by_cases hv : validateCommand s.undo = none
  · rw [hs.undo_eq u hu hv]
    cases htied : π.tied with
    | true =>
      rw [hs.run_eq (hs.valid htied (by rw [hu]; rfl) hv)] at habsent
      exact Pair.idle_within habsent hmatch
        (fun name type hπ => hfresh name type hπ hv) hu
    | false =>
      refine Pair.idle_within ?_ hmatch (fun name type hπ => hfresh name type hπ hv) hu
      cases π with
      | create name type | knob name value prev => trivial
      | _ => cases htied
  · obtain ⟨msg, hmsg⟩ := Option.ne_none_iff_exists'.mp hv
    have heffect : effect s.undo = .reject ({}, some msg) := by
      unfold effect
      rw [hmsg]
    rw [heffect]
    exact .refl c

end Step

/-! ## The invariant -/

/-- The process was not killed between the record of a step and the command
that makes something which is there already. -/
def Moment.Spares (m : Moment SimulatedKernel) : Prop :=
  match m.stage with
  | .quiet => True
  | .begun s => (effect s.run).Absent m.world.machine.toCore
  | .ran s before => (effect s.run).Absent before.toCore

instance : DecidablePred Moment.Spares
  | ⟨_, .quiet⟩ => inferInstanceAs (Decidable True)
  | ⟨w, .begun s⟩ => inferInstanceAs (Decidable ((effect s.run).Absent w.machine.toCore))
  | ⟨_, .ran s before⟩ => inferInstanceAs (Decidable ((effect s.run).Absent before.toCore))

/-- Running the inverses in the journal, however many of them are refused,
leaves every object of `c₀`. -/
structure Shelters (d : Driver) (c₀ : Core) (w : World SimulatedKernel) : Prop where
  driver : w.machine.driver.unwalled = d.unwalled
  ordered : w.journal.Ordered
  undoable : Undoable w.journal.entries
  keeps : c₀.Within (replayCore d (undosOf w.journal.entries) w.machine.toCore)

theorem Shelters.fresh (k : SimulatedKernel) : Shelters k.driver k.toCore (World.fresh k) where
  driver := rfl
  ordered := Journal.ordered_empty
  undoable := ⟨nofun, nofun⟩
  keeps := .refl k.toCore

section Shelters

variable {d : Driver} {c₀ : Core} {w w' : World SimulatedKernel} {s : Step} {π : Pair}
  {phase : Phase}

theorem Shelters.ask (h : Shelters d c₀ w) (hs : s.Is π) :
    Shelters d c₀ { w with machine := (queryPre SimulatedKernel.run s w.machine).1 } := by
  obtain ⟨hcore, hdriver⟩ := hs.ask w.machine
  refine ⟨?_, h.ordered, h.undoable, ?_⟩
  · rw [hdriver]
    exact h.driver
  · rw [hcore]
    exact h.keeps

/-- A closed entry on an unchanged core changes nothing. -/
theorem Shelters.settled (h : Shelters d c₀ w) (hs : s.Is π) (hlog : s.Logged w w' phase)
    (hclosed : phase.isOpen = false) (hcore : w'.machine.toCore = w.machine.toCore) :
    Shelters d c₀ w' := by
  refine ⟨hlog.driver.trans h.driver, hlog.ordered, hlog.undoable hs h.undoable, ?_⟩
  rw [hlog.settled (Or.inl hclosed), hcore]
  exact h.keeps

/-- An open entry whose inverse leaves what was there before it keeps all that
was there before the run. -/
theorem Shelters.push (h : Shelters d c₀ w) (hs : s.Is π) (hlog : s.Logged w w' phase)
    (hopen : phase.isOpen = true)
    (hzero : s.undo.isZero = true → w.machine.toCore.Within w'.machine.toCore)
    (hback : s.undo.isZero = false →
      w.machine.toCore.Within ((effect s.undo).on d.unwalled w'.machine.toCore).1) :
    Shelters d c₀ w' := by
  refine ⟨hlog.driver.trans h.driver, hlog.ordered, hlog.undoable hs h.undoable, ?_⟩
  cases hz : s.undo.isZero with
  | true =>
    rw [hlog.settled (Or.inr hz)]
    exact h.keeps.trans (replayCore_within (hzero hz))
  | false =>
    rw [hlog.live hopen hz]
    exact h.keeps.trans (replayCore_within (hback hz))

/-- **The entry of a step that was run spares what was there**, if the command
succeeded or what it would make was not there. -/
theorem Shelters.pushRun (h : Shelters d c₀ w) (hs : s.Is π) (hmatch : π.Matched)
    (hfresh : s.Fresh π w.machine.toCore)
    (hmachine : w'.machine = (w.machine.run s.run).1) (hlog : s.Logged w w' phase)
    (hopen : phase.isOpen = true)
    (hran : (w.machine.run s.run).2.2 = none ∨ (effect s.run).Absent w.machine.toCore) :
    Shelters d c₀ w' := by
  have hreply := hs.reply_run w.machine
  have hcore : w'.machine.toCore =
      ((effect s.run).on w.machine.driver w.machine.toCore).1 := by
    rw [hmachine, (w.machine.run_follows s.run).core]
  cases herr : (w.machine.run s.run).2.2 with
  | none =>
    rw [hreply] at herr
    obtain ⟨hzero, hback⟩ := hs.undo_within hmatch herr
    rw [← hcore] at hzero hback
    rw [h.driver] at hback
    exact h.push hs hlog hopen hzero hback
  | some msg =>
    have hfail : ((effect s.run).on w.machine.driver w.machine.toCore).2.2.isSome = true := by
      rw [← hreply, herr]
      rfl
    rw [Effect.on_failed _ _ _ hfail] at hcore
    have habsent := hran.resolve_left (by simp [herr])
    refine h.push hs hlog hopen (fun _ => ?_) (fun hz => ?_)
    · rw [hcore]
      exact .refl _
    · rw [hcore]
      exact hs.idle_within hmatch habsent hfresh hz

/-- **A step spares what was there.** -/
theorem Shelters.runStep (h : Shelters d c₀ w) (hs : s.Is π) (hmatch : π.Matched)
    (hfresh : s.Fresh π w.machine.toCore) :
    Shelters d c₀ (runStep SimulatedKernel.run s w).world := by
  rcases hs.runStep_cases h.ordered with ⟨phase, hlog, hopen, hran⟩ | ⟨phase, hlog, hclosed, hcore⟩
  · refine h.pushRun hs hmatch hfresh rfl hlog hopen (hran.imp_right ?_)
    rintro ⟨msg, hv⟩
    rw [hs.reply_run] at hv
    exact Effect.absent_of_failed hv
  · exact h.settled hs hlog hclosed hcore

/-- A process killed inside a step that makes something new spares what was
there. -/
theorem Shelters.window (h : Shelters d c₀ w) (hs : s.Is π) (hmatch : π.Matched)
    (hfresh : s.Fresh π w.machine.toCore) :
    ∀ m ∈ runStepVisits SimulatedKernel.run s w, m.Spares → Shelters d c₀ m.world := by
  intro m hm hspares
  simp only [runStepVisits, List.mem_cons, List.not_mem_nil, or_false] at hm
  rcases hm with rfl | rfl
  · exact h.push hs (hs.logs_begin h.ordered rfl) rfl (fun _ => .refl _)
      fun hz => hs.idle_within hmatch hspares hfresh hz
  · exact h.pushRun hs hmatch hfresh rfl
      (hs.logs_begin h.ordered (w.machine.run_follows s.run).driver) rfl (Or.inr hspares)

end Shelters

/-! ## Whole runs -/

/-- **Every point of a run at which nothing is about to be made twice spares
what was there before.** -/
theorem Shelters.loop {digest : String → String} {state : List (String × String)} {d : Driver}
    {c₀ : Core} {steps : List Step} {w : World SimulatedKernel}
    (hsteps : ∀ s ∈ steps, ∃ π : Pair, s.Is π ∧ π.Matched) (h : Shelters d c₀ w) :
    ∀ m ∈ loopVisits digest SimulatedKernel.run state steps w, m.Spares →
      Shelters d c₀ m.world := by
  refine loopVisits_forall digest SimulatedKernel.run
    (I := fun l w => (∀ s ∈ l, ∃ π : Pair, s.Is π ∧ π.Matched) ∧ Shelters d c₀ w)
    (J := fun m => m.Spares → Shelters d c₀ m.world) ?_ ?_ ?_ ?_ ⟨hsteps, h⟩
  · intro l w hI _
    exact hI.2
  · intro s l w hI
    exact ⟨fun s' hs' => hI.1 s' (List.mem_cons_of_mem _ hs'), hI.2⟩
  · rintro s l w ⟨hl, hw⟩
    obtain ⟨π, hs, _⟩ := hl s List.mem_cons_self
    exact ⟨hl, hw.ask hs⟩
  · rintro s l w k ⟨hl, hw⟩ _ _ hasked
    obtain ⟨π, hs, hmatch⟩ := hl s List.mem_cons_self
    have hfresh : s.Fresh π w.machine.toCore := fun _ _ hπ hundo =>
      hs.fresh_of_query hasked hπ hundo
    have hran := hw.runStep hs hmatch hfresh
    exact ⟨hw.window hs hmatch hfresh, fun _ => hran,
      fun _ => ⟨fun s' hs' => hl s' (List.mem_cons_of_mem _ hs'), hran⟩⟩

/-- What `Recover` leaves behind. -/
theorem recover_of_shelters {c₀ : Core} {d : Driver} {w : World SimulatedKernel}
    (h : Shelters d c₀ w) :
    c₀.Within (recover SimulatedKernel.run w.machine w.journal.records).1.toCore := by
  have hkeeps := h.keeps
  unfold recover
  cases hes : (entriesOf w.journal.records).isEmpty with
  | true =>
    have hnil : w.journal.entries = [] := List.isEmpty_iff.mp hes
    simp only [hes, if_true]
    rw [hnil] at hkeeps
    exact hkeeps
  | false =>
    simp only [hes, Bool.false_eq_true, if_false]
    have hcore := replay_core (k := w.machine) none h.undoable
    have hdriver : replayCore w.machine.driver = replayCore d := by
      unfold replayCore
      rw [h.driver]
    rw [hdriver] at hcore
    show c₀.Within (replay SimulatedKernel.run w.journal.entries w.machine none).machine.toCore
    rw [hcore]
    exact hkeeps

/-- **Recovery spares what was there before the run**, on every machine and
from wherever the process is killed, unless the step under way would have made
something that was there already. -/
theorem recover_spares (digest : String → String) {p : Plan} (hp : Planned p)
    (hlinux : p.OnLinux) (hname : "table" ∉ p.routeDevices) (current : Readings)
    (k : SimulatedKernel) :
    ∀ m ∈ applyVisits digest SimulatedKernel.run (p.steps current) (World.fresh k), m.Spares →
      k.toCore.Within
        (recover SimulatedKernel.run m.world.machine m.world.journal.records).1.toCore := by
  rw [Plan.steps_of_onLinux current hlinux]
  intro m hm hspares
  refine recover_of_shelters (Shelters.loop ?_ (Shelters.fresh k) m hm hspares)
  intro s hs
  rw [← p.paired_fst current hp.tun_ne] at hs
  obtain ⟨q, hq, rfl⟩ := List.mem_map.mp hs
  obtain ⟨his, _, hπ⟩ := p.mem_paired current hp.tun_ne hq
  exact ⟨q.2, his, p.matched_of_origin current hname hπ⟩

/-- The machine with one radio, where somebody else put the route to the server
already. -/
def routedKernel : SimulatedKernel :=
  { stationKernel with routes := {("main", "203.0.113.7/32")} }

/-- The points at which applying the plan to that machine can be killed. -/
def routedVisits : List (Moment SimulatedKernel) :=
  applyVisits id SimulatedKernel.run (stationPlan.steps stationKernel.readings)
    (World.fresh routedKernel)

/-- Killed after the journal says that the route was there already: it stays. -/
theorem recover_spares_known_route :
    ∃ m ∈ routedVisits,
      (m.Spares ∧ m.world.lastRecord.map Prod.fst = some .preexisting) ∧
        routedKernel.toCore.Within
          (recover SimulatedKernel.run m.world.machine m.world.journal.records).1.toCore := by
  have hex : ∃ m ∈ routedVisits,
      m.Spares ∧ m.world.lastRecord.map Prod.fst = some .preexisting := by
    decide +kernel
  obtain ⟨m, hm, hspares, hlast⟩ := hex
  exact ⟨m, hm, ⟨hspares, hlast⟩,
    recover_spares id stationPlan_planned (Or.inl rfl) (by decide) _ _ m hm hspares⟩

/-- Killed before the journal says so: recovery deletes the route. -/
theorem recover_deletes_route :
    (Planned stationPlan ∧ stationPlan.OnLinux ∧
        stationPlan.Consistent stationKernel.readings routedKernel) ∧
      ∃ m ∈ routedVisits,
        m.world.lastRecord = some (.begin,
          "ip route add 203.0.113.7/32 via 192.168.1.1 dev eth0 proto static metric 5") ∧
        ("main", "203.0.113.7/32") ∈ routedKernel.routes ∧
        ("main", "203.0.113.7/32") ∉
          (recover SimulatedKernel.run m.world.machine m.world.journal.records).1.routes := by
  refine ⟨⟨stationPlan_planned, Or.inl rfl, ?_⟩, by decide +kernel⟩
  exact
    { measured := stationKernel_consistent.measured
      absent := stationKernel_consistent.absent
      managed := stationKernel_consistent.managed
      station := stationKernel_consistent.station }

end Caspian.Netcfg
