import Caspian.Netcfg.Accounting
import Caspian.Netcfg.Recovery

/-!
# Changing the type of an interface

A takeover brings the interface down, changes its type, and later brings it up
for the access point, a step without an inverse.  The module follows the
commands of a whole `Apply` and of the `Teardown` after it, and keeps those that
move a link or change a type: on a taken-over interface these are down, type,
up, and then type and up again.  So the type is changed back while the interface
is up.
-/

namespace Caspian.Netcfg

/-! ## The commands that matter -/

/-- The command changes the type of the interface. -/
def Retypes (x : String) (c : Command) : Prop :=
  c.path = binIw ∧ ∃ type, c.args = ["dev", x, "set", "type", type]

/-- The command moves the link of the interface. -/
def SetsLink (x verb : String) (c : Command) : Prop :=
  c.path = binIP ∧ c.args = ["link", "set", "dev", x, verb]

/-- Every change of a type comes after a command that brings the interface
down, with none between them that brings it up. -/
def TypedDown (cs : List Command) : Prop :=
  ∀ before c after, cs = before ++ c :: after → ∀ x, Retypes x c →
    ∃ a d b, before = a ++ d :: b ∧ SetsLink x "down" d ∧ ∀ e ∈ b, ¬SetsLink x "up" e

/-- The command changes a type or moves a link. -/
def touches (c : Command) : Bool :=
  match c.args with
  | [a, b, d, e, _] =>
    (c.path = binIw && a = "dev" && d = "set" && e = "type") ||
      (c.path = binIP && a = "link" && b = "set" && d = "dev")
  | _ => false

variable {x : String} {c : Command}

theorem Retypes.touches (h : Retypes x c) : touches c = true := by
  obtain ⟨hpath, type, hargs⟩ := h
  simp [Netcfg.touches, hpath, hargs]

theorem SetsLink.touches {verb : String} (h : SetsLink x verb c) : touches c = true := by
  obtain ⟨hpath, hargs⟩ := h
  simp [Netcfg.touches, hpath, hargs]

/-- Only the commands that matter matter. -/
theorem typedDown_filter (cs : List Command) :
    TypedDown (cs.filter touches) ↔ TypedDown cs := by
  constructor
  · intro h before c after hcs x hx
    have hfilter : cs.filter touches =
        before.filter touches ++ c :: after.filter touches := by
      rw [hcs, List.filter_append, List.filter_cons_of_pos hx.touches]
    obtain ⟨a, d, b, hbefore, hdown, hup⟩ := h _ c _ hfilter x hx
    obtain ⟨a', rest, rfl, -, hrest⟩ := List.filter_eq_append_iff.mp hbefore
    obtain ⟨m, b', rfl, -, hd, hb⟩ := List.filter_eq_cons_iff.mp hrest
    refine ⟨a' ++ m, d, b', by simp, hdown, fun e he hset => hup e ?_ hset⟩
    rw [← hb]
    exact List.mem_filter.mpr ⟨he, hset.touches⟩
  · intro h before c after hcs x hx
    obtain ⟨l, rest, rfl, hl, hrest⟩ := List.filter_eq_append_iff.mp hcs
    obtain ⟨m, n, rfl, hm, hc, hn⟩ := List.filter_eq_cons_iff.mp hrest
    obtain ⟨a, d, b, hbefore, hdown, hup⟩ := h (l ++ m) c n (by simp) x hx
    have hm' : m.filter touches = [] := List.filter_eq_nil_iff.mpr hm
    refine ⟨a.filter touches, d, b.filter touches, ?_, hdown,
      fun e he => hup e (List.mem_filter.mp he).1⟩
    rw [← hl, ← List.append_nil (l.filter touches), ← hm', ← List.filter_append, hbefore,
      List.filter_append, List.filter_cons_of_pos hdown.touches]

theorem Retypes.not_setsLink {y verb : String} (h : Retypes x c) : ¬SetsLink y verb c := by
  intro hset
  have hpaths : binIw = binIP := h.1.symm.trans hset.1
  exact absurd hpaths (by decide)

theorem Retypes.inj {y : String} (h : Retypes x c) (h' : Retypes y c) : x = y := by
  obtain ⟨-, _, hargs⟩ := h
  obtain ⟨-, _, hargs'⟩ := h'
  simp only [hargs, List.cons.injEq] at hargs'
  exact hargs'.2.1

/-- Down, type, type, up is in order. -/
theorem typedDown_kept {down type back up : Command} (hdown : SetsLink x "down" down)
    (htype : Retypes x type) (hback : Retypes x back) (hup : SetsLink x "up" up) :
    TypedDown [down, type, back, up] := by
  intro before c after hcs y hy
  match before, hcs with
  | [], hcs =>
    obtain ⟨rfl, -⟩ := List.cons.inj hcs
    exact absurd hdown hy.not_setsLink
  | [_], hcs =>
    simp only [List.cons_append, List.nil_append, List.cons.injEq] at hcs
    obtain ⟨rfl, rfl, -⟩ := hcs
    rw [hy.inj htype]
    exact ⟨[], _, [], rfl, hdown, by simp⟩
  | [_, _], hcs =>
    simp only [List.cons_append, List.nil_append, List.cons.injEq] at hcs
    obtain ⟨rfl, rfl, rfl, -⟩ := hcs
    rw [hy.inj hback]
    exact ⟨[], _, [_], rfl, hdown, by simpa using htype.not_setsLink⟩
  | [_, _, _], hcs =>
    simp only [List.cons_append, List.nil_append, List.cons.injEq] at hcs
    obtain ⟨-, -, -, rfl, -⟩ := hcs
    exact absurd hup hy.not_setsLink
  | _ :: _ :: _ :: _ :: _, hcs => simp at hcs

/-- Down, type, up, type is not. -/
theorem not_typedDown {down type up back : Command} {rest : List Command} (htype : Retypes x type)
    (hup : SetsLink x "up" up) (hback : Retypes x back) :
    ¬TypedDown (down :: type :: up :: back :: rest) := by
  intro h
  obtain ⟨a, d, b, hbefore, hd, hb⟩ := h [down, type, up] back rest rfl x hback
  match a, hbefore with
  | [], hbefore =>
    obtain ⟨-, rfl⟩ := List.cons.inj hbefore
    exact hb up (by simp) hup
  | [_], hbefore =>
    simp only [List.cons_append, List.nil_append, List.cons.injEq] at hbefore
    obtain ⟨-, rfl, -⟩ := hbefore
    exact htype.not_setsLink hd
  | [_, _], hbefore =>
    simp only [List.cons_append, List.nil_append, List.cons.injEq] at hbefore
    obtain ⟨-, -, rfl, -⟩ := hbefore
    have hargs := hup.2.symm.trans hd.2
    simp at hargs
  | _ :: _ :: _ :: _, hbefore => simp at hbefore

/-! ## A machine that takes every command -/

section Obliged

variable {σ : Type} (digest : String → String) (run : Runner σ)

/-- The commands that matter among those of a list. -/
def touching (cs : List Command) : List Command := cs.filter touches

/-- The commands that matter among the inverses still to be run. -/
def touchingUndos (es : List Entry) : List Command :=
  touching ((es.filter Entry.needsUndo).map Entry.undo)

/-- The commands that matter among those a machine was handed. -/
def World.touched (w : World (σ × List (Command × Reply))) : List Command :=
  touching (w.machine.2.map Prod.fst)

/-- Nothing about the step matters. -/
def Step.Apart (s : Step) : Prop :=
  touches s.run = false ∧ touches s.undo = false ∧ ∀ q, s.pre = some q → touches q.query = false

/-- The step is always run, or does not matter. -/
def Step.Regular (s : Step) : Prop := s.Apart ∨ s.pre = none ∧ s.run.isZero = false

/-- The world after some steps: their commands and inverses that matter were
added. -/
structure After (steps : List Step) (w w' : World (σ × List (Command × Reply))) : Prop where
  ordered : w'.journal.Ordered
  touched : w'.touched = w.touched ++ touching (steps.map Step.run)
  undos : touchingUndos w'.journal.entries =
    touchingUndos w.journal.entries ++ touching (steps.map Step.undo)

variable {w w' w'' : World (σ × List (Command × Reply))} {s : Step}

theorem touches_zero (h : c.isZero = true) : touches c = false := by
  obtain ⟨-, hargs⟩ := Bool.and_eq_true_iff.mp h
  simp [touches, List.isEmpty_iff.mp hargs]

theorem After.trans {a b : List Step} (h : After a w w') (h' : After b w' w'') :
    After (a ++ b) w w'' where
  ordered := h'.ordered
  touched := by
    rw [h'.touched, h.touched, List.map_append, touching, touching, touching,
      List.filter_append, List.append_assoc]
  undos := by
    rw [h'.undos, h.undos, List.map_append, touching, touching, touching,
      List.filter_append, List.append_assoc]

/-- A step that does not matter may be skipped. -/
theorem After.skip (hj : w.journal.Ordered) (hs : s.Apart) : After [s] w w where
  ordered := hj
  touched := by simp [touching, hs.1]
  undos := by simp [touching, hs.2.1]

/-- A step that was run. -/
theorem After.runStep (hok : ∀ m c, (run m c).2.2 = none) (hj : w.journal.Ordered)
    (hz : s.run.isZero = false) :
    After [s] w (runStep (Runner.logged run) s w).world ∧
      (Netcfg.runStep (Runner.logged run) s w).stop = none := by
  have hverdict : verdict s.run (Runner.logged run w.machine s.run).2 = .done := by
    unfold verdict
    rw [show (Runner.logged run w.machine s.run).2.2 = none from hok _ _]
  refine ⟨⟨ordered_runStep _ s hj, ?_, ?_⟩, ?_⟩
  · show touching ((w.machine.2 ++ [(s.run, _)]).map Prod.fst) = _
    simp [World.touched, touching]
  · rw [entries_runStep (Runner.logged run) hz hj, hverdict]
    have hneeds : (s.entry (w.journal.seq + 1) Verdict.done.phase).needsUndo = !s.undo.isZero :=
      rfl
    cases hundo : s.undo.isZero with
    | true => simp [touchingUndos, touching, hneeds, hundo, touches_zero hundo]
    | false =>
      have hentry : (s.entry (w.journal.seq + 1) Verdict.done.phase).undo = s.undo := rfl
      simp [touchingUndos, touching, hneeds, hundo, hentry]
  · show stopError s (verdict s.run (Runner.logged run w.machine s.run).2) = none
    rw [hverdict]
    rfl

/-- A query that does not matter. -/
theorem touched_queryPre (hs : ∀ q, s.pre = some q → touches q.query = false) :
    World.touched { w with machine := (queryPre (Runner.logged run) s w.machine).1 } =
      w.touched := by
  cases hpre : s.pre with
  | none => simp [World.touched, queryPre, hpre]
  | some q => simp [World.touched, touching, queryPre, hpre, Runner.logged, hs q hpre]

/-- One turn of `Apply` on a journal with nothing in force. -/
theorem After.applyStep (hok : ∀ m c, (run m c).2.2 = none) (hj : w.journal.Ordered)
    (hs : s.Regular) :
    After [s] w (applyStep digest (Runner.logged run) [] s w).world ∧
      (Netcfg.applyStep digest (Runner.logged run) [] s w).stop = none := by
  have hforce : inForce digest [] s.run = false := rfl
  have hquery : ∀ q, s.pre = some q → touches q.query = false := by
    intro q hq
    rcases hs with hs | ⟨hpre, -⟩
    · exact hs.2.2 q hq
    · rw [hpre] at hq
      cases hq
  have hasked : World.touched
      { w with machine := (queryPre (Runner.logged run) s w.machine).1 } = w.touched :=
    touched_queryPre run hquery
  unfold Netcfg.applyStep
  rw [hforce]
  cases hz : s.run.isZero with
  | true =>
    rcases hs with hs | ⟨-, hnz⟩
    · exact ⟨After.skip hj hs, rfl⟩
    · rw [hz] at hnz
      cases hnz
  | false =>
    simp only [Bool.false_eq_true, if_false]
    split
    next hfound =>
      rcases hs with hs | ⟨hpre, -⟩
      · have hskip := After.skip hj hs
        exact ⟨⟨hj, hasked.trans hskip.touched, hskip.undos⟩, rfl⟩
      · simp [queryPre, hpre] at hfound
    · obtain ⟨hran, hstop⟩ := After.runStep run hok
        (w := { w with machine := (queryPre (Runner.logged run) s w.machine).1 }) hj hz
      refine ⟨⟨hran.ordered, ?_, hran.undos⟩, hstop⟩
      rw [hran.touched, hasked]

/-- **`Apply` from an empty journal** hands over the commands of its steps. -/
theorem After.applyLoop (hok : ∀ m c, (run m c).2.2 = none) {steps : List Step}
    (hsteps : ∀ s ∈ steps, s.Regular) (hj : w.journal.Ordered) (rep : Report) :
    After steps w (applyLoop digest (Runner.logged run) [] steps w rep).1 := by
  induction steps generalizing w rep with
  | nil => exact ⟨hj, by simp [touching, Netcfg.applyLoop], by simp [touching, Netcfg.applyLoop]⟩
  | cons s rest ih =>
    obtain ⟨hone, hstop⟩ := After.applyStep digest run hok hj (hsteps s List.mem_cons_self)
    simp only [Netcfg.applyLoop, hstop]
    exact hone.trans (ih (fun t ht => hsteps t (List.mem_cons_of_mem _ ht)) hone.ordered _)

/-! ## Teardown -/

/-- On a machine that takes every command a replay attempts every entry. -/
theorem attempts_obliged (hok : ∀ m c, (run m c).2.2 = none) (ts : List (Bool × Entry))
    {st : Replay σ} (hst : st.report.failed = 0) :
    (attempts run ts st).map (fun a => a.handed.1) = ts.map fun t => t.2.undo := by
  induction ts generalizing st with
  | nil => rfl
  | cons t ts ih =>
    have hmade : turnAttempts run t st =
        [{ entry := t.2, reply := (run st.machine t.2.undo).2 }] := by
      simp [turnAttempts, hst]
    have hnone : (replayTurn run t st).report.failed = 0 := by
      rw [(replayTurn_accounts run t st).2, hst, hmade]
      simp [Attempt.settled, hok]
    rw [attempts, hmade, List.map_append, ih hnone]
    rfl

/-- The inverses that matter, in the order of a replay: newest first. -/
theorem touching_turns {es : List Entry}
    (hnft : ∀ e ∈ es, e.op = opNft → touches e.undo = false) :
    touching ((turns es).map fun t => t.2.undo) = (touchingUndos es).reverse := by
  have htwo : ((passTwo es).map Entry.undo).filter touches = [] := by
    rw [List.filter_eq_nil_iff]
    intro c hc
    obtain ⟨e, he, rfl⟩ := List.mem_map.mp hc
    obtain ⟨hmem, hop⟩ := List.mem_filter.mp he
    have hop' : e.op = opNft := of_decide_eq_true (Bool.and_eq_true_iff.mp hop).2
    simp [hnft e (List.mem_reverse.mp hmem) hop']
  have hone : ((passOne es).map Entry.undo).filter touches =
      ((es.reverse.filter Entry.needsUndo).map Entry.undo).filter touches := by
    rw [passOne, List.filter_map, List.filter_map, List.filter_filter, List.filter_filter]
    congr 1
    refine List.filter_congr fun e he => ?_
    by_cases hop : e.op = opNft
    · simp [hnft e (List.mem_reverse.mp he) hop]
    · simp [hop]
  have hsplit : (turns es).map (fun t => t.2.undo) =
      (passOne es).map Entry.undo ++ (passTwo es).map Entry.undo := by
    simp [turns, Function.comp_def]
  rw [touching, hsplit, List.filter_append, htwo, List.append_nil, hone, touchingUndos,
    touching, List.filter_reverse, List.map_reverse, List.filter_reverse]

/-- **Apply and Teardown**: the commands of the steps, then their inverses
backwards. -/
theorem touched_round (hok : ∀ m c, (run m c).2.2 = none) {steps : List Step}
    (hsteps : ∀ s ∈ steps, s.Regular)
    (hnft : ∀ s ∈ steps, s.op = opNft → touches s.undo = false) (m : σ) :
    let w : World (σ × List (Command × Reply)) :=
      { machine := (m, []), journal := Journal.openOn [] }
    touching ((teardown (Runner.logged run)
        (apply digest (Runner.logged run) steps w).1).1.2.map Prod.fst) =
      touching (steps.map Step.run) ++ (touching (steps.map Step.undo)).reverse := by
  intro w
  have hord : w.journal.Ordered := Journal.ordered_empty
  have happly : After steps w (apply digest (Runner.logged run) steps w).1 :=
    After.applyLoop digest run hok hsteps hord {}
  have hvisits : ∀ v ∈ applyVisits digest (Runner.logged run) steps w,
      v.world.journal.Ordered ∧
        ∀ e ∈ v.world.journal.entries, e.op = opNft → touches e.undo = false :=
    loopVisits_entries digest (Runner.logged run)
      (Q := fun e => e.op = opNft → touches e.undo = false)
      (fun s hs _ _ => hnft s hs) hord (by intro e he; cases he)
  have hentries := (apply_of_visits digest (Runner.logged run) hvisits).2
  generalize (apply digest (Runner.logged run) steps w).1 = w' at happly hentries ⊢
  obtain ⟨-, hlog⟩ :=
    replay_logged run w'.journal.entries w'.machine (some w'.journal)
  have hback := attempts_obliged run hok (turns w'.journal.entries)
    (show Report.failed (Replay.report
      ({ machine := w'.machine.1, journal := some w'.journal } : Replay σ)) = 0 from rfl)
  have hcommands : (teardown (Runner.logged run) w').1.2.map Prod.fst =
      w'.machine.2.map Prod.fst ++ (turns w'.journal.entries).map fun t => t.2.undo := by
    show List.map Prod.fst (replay (Runner.logged run) w'.journal.entries w'.machine
      (some w'.journal)).machine.2 = _
    rw [hlog, List.map_append, List.map_map, ← hback]
    rfl
  rw [hcommands, touching, List.filter_append]
  have hundos := happly.undos
  have htouched := happly.touched
  rw [show touchingUndos w.journal.entries = [] from rfl, List.nil_append] at hundos
  rw [show w.touched = [] from rfl, List.nil_append] at htouched
  have hturns := touching_turns hentries
  rw [hundos] at hturns
  exact congrArg₂ (· ++ ·) htouched hturns

end Obliged

/-! ## The steps of a Linux plan -/

theorem touches_path {path : String} (h : c.path = path) (hpath : path ≠ binIw ∧ path ≠ binIP) :
    touches c = false := by
  unfold touches
  split
  · simp [h, hpath]
  · rfl

theorem touches_ip (hip : c.path = binIP) (hlink : c.args.head? ≠ some "link") :
    touches c = false := by
  unfold touches
  split
  next hargs =>
    rw [hargs] at hlink
    have hiw : binIP ≠ binIw := by decide
    simp only [List.head?_cons, ne_eq, Option.some.injEq] at hlink
    simp [hip, hiw, hlink]
  · rfl

namespace Plan

variable (p : Plan) (current : Readings)

/-- The blocks of a plan that do not matter. -/
theorem apart_sysctl (knob value why : String) : (sysctlStep knob value current why).Apart := by
  have hsysctl : binSysctl ≠ binIw ∧ binSysctl ≠ binIP := by decide
  unfold sysctlStep
  split
  · exact ⟨touches_path rfl hsysctl, touches_path rfl hsysctl, nofun⟩
  · exact ⟨touches_path rfl hsysctl, rfl, nofun⟩

theorem apart_ip {s : Step} (hrun : s.run.path = binIP) (hundo : s.undo.path = binIP)
    (hr : s.run.args.head? ≠ some "link") (hu : s.undo.args.head? ≠ some "link")
    (hpre : s.pre = none) : s.Apart :=
  ⟨touches_ip hrun hr, touches_ip hundo hu, fun q hq => by rw [hpre] at hq; cases hq⟩

theorem head_hostRouteArgs (verb : String) (a : Netip.Addr) :
    (p.hostRouteArgs verb a).head? ≠ some "link" := by
  unfold hostRouteArgs
  cases a.is6 with
  | true | false => simp

theorem apart_around : ∀ s ∈ [p.firewallStep] ++ p.sysctlSteps current ++ p.virtualIfaceSteps,
    s.Apart := by
  have hsysctl := p.forall_sysctlSteps (apart_sysctl current)
  simp only [List.forall_mem_append, virtualIfaceSteps, List.forall_mem_cons, forall_mem_ite,
    iff_true_intro hsysctl]
  simp +decide [Step.Apart, touches, firewallStep, ifacePresent, Command.zero]

theorem apart_routes : ∀ s ∈ p.serverRouteSteps ++ p.linuxPostEngineSteps current, s.Apart := by
  simp only [serverRouteSteps, linuxPostEngineSteps, tunnelAddrSteps, tunnelRouteSteps,
    policySteps, List.forall_mem_append, List.forall_mem_cons, List.forall_mem_map, forall_mem_ite]
  refine ⟨fun a _ => apart_ip rfl rfl (p.head_hostRouteArgs _ a) (p.head_hostRouteArgs _ a) rfl, ?_⟩
  simp +decide [Step.Apart, touches, halfDefaultStep, ipCmd]

theorem touching_apart {l : List Step} (h : ∀ s ∈ l, s.Apart) :
    touching (l.map Step.run) = [] ∧ touching (l.map Step.undo) = [] := by
  constructor
  · refine List.filter_eq_nil_iff.mpr fun c hc => ?_
    obtain ⟨s, hs, rfl⟩ := List.mem_map.mp hc
    simp [(h s hs).1]
  · refine List.filter_eq_nil_iff.mpr fun c hc => ?_
    obtain ⟨s, hs, rfl⟩ := List.mem_map.mp hc
    simp [(h s hs).2.1]

/-- Handing the interface over, before it is brought down. -/
def handoverSteps : List Step :=
  (if p.hotspotManager = .networkManager then [p.releaseStep] else []) ++
    p.hotspotStationPrefixes.map p.stripStep

theorem apart_handover : ∀ s ∈ p.handoverSteps, s.Apart := by
  simp only [handoverSteps, List.forall_mem_append, List.forall_mem_cons, List.forall_mem_map,
    forall_mem_ite]
  simp +decide [Step.Apart, touches, releaseStep, stripStep, ipCmd]

/-- Bringing the interface up for the access point. -/
def upStep : Step :=
  { op := opLink, why := "the access point cannot start on a down interface"
    run := ipCmd "bring the hotspot interface up" ["link", "set", "dev", p.hotspot, "up"] }

/-- The steps of a takeover, around those that matter. -/
theorem steps_takeover (hlinux : p.OnLinux) (ht : p.hotspotTakenOver = true)
    (hname : p.hotspot ≠ "") :
    ∃ around after : List Step, (∀ s ∈ around, s.Apart) ∧ (∀ s ∈ after, s.Apart) ∧
      p.steps current = around ++ p.retypeSteps ++
        (if p.hotspotSubnet.isValid then [p.upStep] else []) ++ after := by
  have hsteps : p.steps current = [p.firewallStep] ++ p.sysctlSteps current ++
      p.virtualIfaceSteps ++ p.handoverSteps ++ p.retypeSteps ++ p.hotspotAddrSteps ++
      (p.serverRouteSteps ++ p.linuxPostEngineSteps current) := by
    rcases hlinux with hplat | hplat <;>
      simp [steps, preEngineSteps, postEngineSteps, hplat, linuxPreEngineSteps,
        hotspotReleaseSteps, hname, ht, handoverSteps]
  have haround : ∀ s ∈ [p.firewallStep] ++ p.sysctlSteps current ++ p.virtualIfaceSteps ++
      p.handoverSteps, s.Apart := by
    intro s hs
    rcases List.mem_append.mp hs with hs | hs
    · exact p.apart_around current s hs
    · exact p.apart_handover s hs
  cases hvalid : p.hotspotSubnet.isValid with
  | false =>
    refine ⟨_, _, haround, p.apart_routes current, ?_⟩
    simp [hsteps, hotspotAddrSteps, hvalid]
  | true =>
    -- The address goes on after the interface is up, and does not matter.
    have hafter : ∀ s ∈ p.hotspotAddrSteps.tail ++
        (p.serverRouteSteps ++ p.linuxPostEngineSteps current), s.Apart := by
      intro s hs
      rcases List.mem_append.mp hs with hs | hs
      · simp only [hotspotAddrSteps, hname, hvalid, or_self, Bool.true_eq_false, if_false,
          List.tail_cons, List.mem_singleton] at hs
        rw [hs]
        exact apart_ip rfl rfl (by simp [ipCmd]) (by simp [ipCmd]) rfl
      · exact p.apart_routes current s hs
    refine ⟨_, _, haround, hafter, ?_⟩
    simp [hsteps, hotspotAddrSteps, hvalid, hname, upStep]

end Plan

/-! ## The trace of a takeover -/

theorem Step.Apart.nft {s : Step} (h : s.Apart) : s.op = opNft → touches s.undo = false :=
  fun _ => h.2.1

section Takeover

variable {σ : Type} {p : Plan} (digest : String → String) (run : Runner σ)
  (current : Readings)

/-- The commands of a full `Apply` of the plan and of the `Teardown` after it. -/
def roundTrip (p : Plan) (m : σ) : List Command :=
  (teardown (Runner.logged run) (apply digest (Runner.logged run) (p.steps current)
    { machine := (m, []), journal := Journal.openOn [] }).1).1.2.map Prod.fst

/-- What matters of them. -/
theorem touching_roundTrip (hok : ∀ m c, (run m c).2.2 = none) (hlinux : p.OnLinux)
    (ht : p.hotspotTakenOver = true) (hname : p.hotspot ≠ "") (m : σ) :
    touching (roundTrip digest run current p m) =
      p.retypeSteps.map Step.run ++
        (if p.hotspotSubnet.isValid then [p.upStep.run] else []) ++
        (p.retypeSteps.map Step.undo).reverse := by
  obtain ⟨around, after, haround, hafter, hsteps⟩ := p.steps_takeover current hlinux ht hname
  have hretype : ∀ s ∈ p.retypeSteps, (s.pre = none ∧ s.run.isZero = false) ∧ s.op ≠ opNft := by
    intro s hs
    simp only [Plan.retypeSteps, List.mem_cons, List.not_mem_nil, or_false] at hs
    rcases hs with rfl | rfl
    · exact ⟨⟨rfl, rfl⟩, (by decide : opLink ≠ opNft)⟩
    · exact ⟨⟨rfl, rfl⟩, (by decide : opCreateIface ≠ opNft)⟩
  have hup : ∀ s ∈ (if p.hotspotSubnet.isValid then [p.upStep] else []), s = p.upStep := by
    intro s hs
    split at hs
    · exact List.mem_singleton.mp hs
    · cases hs
  have hregular : ∀ s ∈ p.steps current, s.Regular := by
    intro s hs
    rw [hsteps] at hs
    simp only [List.mem_append] at hs
    rcases hs with ((hs | hs) | hs) | hs
    · exact .inl (haround s hs)
    · exact .inr (hretype s hs).1
    · rw [hup s hs]
      exact .inr ⟨rfl, rfl⟩
    · exact .inl (hafter s hs)
  have hnft : ∀ s ∈ p.steps current, s.op = opNft → touches s.undo = false := by
    intro s hs
    rw [hsteps] at hs
    simp only [List.mem_append] at hs
    rcases hs with ((hs | hs) | hs) | hs
    · exact (haround s hs).nft
    · exact fun hop => absurd hop (hretype s hs).2
    · rw [hup s hs]
      exact fun _ => rfl
    · exact (hafter s hs).nft
  rw [roundTrip, touched_round digest run hok hregular hnft m, hsteps]
  obtain ⟨hrun, hundo⟩ := Plan.touching_apart haround
  obtain ⟨hrun', hundo'⟩ := Plan.touching_apart hafter
  simp only [touching, List.map_append, List.filter_append] at hrun hundo hrun' hundo' ⊢
  rw [hrun, hundo, hrun', hundo']
  cases p.hotspotSubnet.isValid with
  | true | false => rfl

end Takeover

/-- **The type of a taken-over interface is only changed while it is down**
exactly when the plan has no subnet for the hotspot, and so nothing brings the
interface up for the access point.  The planner always has one. -/
theorem retyped_down_iff {σ : Type} {p : Plan} (digest : String → String) (run : Runner σ)
    (current : Readings) (m : σ) (hok : ∀ m c, (run m c).2.2 = none) (hlinux : p.OnLinux)
    (ht : p.hotspotTakenOver = true) (hname : p.hotspot ≠ "") :
    TypedDown (roundTrip digest run current p m) ↔ p.hotspotSubnet.isValid = false := by
  have htouching := touching_roundTrip digest run current hok hlinux ht hname m
  rw [← typedDown_filter, ← touching, htouching]
  cases p.hotspotSubnet.isValid with
  | false =>
    refine iff_of_true ?_ rfl
    exact typedDown_kept ⟨rfl, rfl⟩ ⟨rfl, _, rfl⟩ ⟨rfl, _, rfl⟩ ⟨rfl, rfl⟩
  | true =>
    refine iff_of_false ?_ nofun
    exact not_typedDown ⟨rfl, _, rfl⟩ ⟨rfl, rfl⟩ ⟨rfl, _, rfl⟩

/-- The plan of the machine with one radio, without a subnet. -/
def subnetlessPlan : Plan := { stationPlan with hotspotSubnet := .zero }

theorem retyped_down_subnetless :
    TypedDown (roundTrip id obliging (fun _ => none) subnetlessPlan ()) :=
  (retyped_down_iff id obliging (fun _ => none) () (fun _ _ => rfl) (Or.inl rfl)
    (by decide) (by decide)).mpr (by decide)

/-- The type is changed back while the interface is up. -/
theorem retyped_up_station :
    stationPlan.hotspotTakenOver = true ∧
      ¬TypedDown (roundTrip id obliging (fun _ => none) stationPlan ()) := by
  have ht : stationPlan.hotspotTakenOver = true := by decide
  have hvalid : stationPlan.hotspotSubnet.isValid = true := by decide
  have htouching := touching_roundTrip id obliging (fun _ => none) (fun _ _ => rfl)
    (Or.inl rfl) ht (by decide) ()
  rw [if_pos hvalid] at htouching
  refine ⟨ht, ?_⟩
  rw [← typedDown_filter, ← touching, htouching]
  exact not_typedDown ⟨rfl, _, rfl⟩ ⟨rfl, rfl⟩ ⟨rfl, _, rfl⟩

end Caspian.Netcfg
