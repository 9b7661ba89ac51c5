import Caspian.Netcfg.Apply
import Caspian.Netcfg.Backend

/-!
# Which ruleset is loaded

Each platform's firewall is loaded by one command line that takes the ruleset
on standard input.  `Loader` says how such a command behaves on a machine that
remembers the text loaded last: an answer without an error means the text was
loaded, an error means it may have been.  An `Apply` that went through leaves
the text of the last loading step, provided none was skipped.
-/

namespace Caspian.Netcfg

/-! ## Loading commands -/

/-- The commands that load a ruleset given on standard input. -/
def isLoad (c : Command) : Bool :=
  (c.path = binNft && c.args = ["-f", "-"]) ||
    (c.path = binPfctl && c.args = ["-a", darwinAnchor, "-f", "-"]) ||
    (c.path = binWFP && c.args = ["load"])

/-- The runner loads what it is given, or fails; what it fails to load may be
loaded all the same. -/
structure Loader {σ : Type} (run : Runner σ) (loaded : σ → Option String) : Prop where
  done : ∀ m c, isLoad c = true → (run m c).2.2 = none → loaded (run m c).1 = some c.stdin
  failed : ∀ m c, isLoad c = true →
    loaded (run m c).1 = loaded m ∨ loaded (run m c).1 = some c.stdin
  other : ∀ m c, isLoad c = false → loaded (run m c).1 = loaded m

/-- No load is refused in words `Apply` takes for "already there". -/
def NeverExists {σ : Type} (run : Runner σ) : Prop :=
  ∀ m c, isLoad c = true → isAlreadyExists (run m c).2.1 (run m c).2.2 = false

/-- The text of the last loading step, or what was loaded before. -/
def lastLoad (steps : List Step) (before : Option String) : Option String :=
  steps.foldl (fun text s => if isLoad s.run then some s.run.stdin else text) before

/-- No loading step can be skipped: none is in force, none has a precondition,
and no precondition asks with a load. -/
structure Unskipped (digest : String → String) (state : List (String × String))
    (steps : List Step) : Prop where
  force : ∀ s ∈ steps, isLoad s.run = true → inForce digest state s.run = false
  pre : ∀ s ∈ steps, isLoad s.run = true → s.pre = none
  query : ∀ s ∈ steps, ∀ q, s.pre = some q → isLoad q.query = false

theorem isLoad_removes {c : Command} (h : isLoad c = true) : commandRemoves c = false := by
  simp only [isLoad, Bool.or_eq_true, Bool.and_eq_true, decide_eq_true_eq] at h
  rcases h with (⟨_, h⟩ | ⟨_, h⟩) | ⟨_, h⟩ <;> rw [commandRemoves, h] <;> decide

theorem isLoad_isZero {c : Command} (h : isLoad c = true) : c.isZero = false := by
  simp only [isLoad, Bool.or_eq_true, Bool.and_eq_true, decide_eq_true_eq] at h
  have hne : c.path ≠ "" := by
    rcases h with (⟨h, _⟩ | ⟨h, _⟩) | ⟨h, _⟩ <;> rw [h] <;> decide
  simp [Command.isZero, hne]

variable {state : List (String × String)}

variable {s : Step}

section Apply

variable {σ : Type} {digest : String → String} {run : Runner σ} {loaded : σ → Option String}

/-- A load that `Apply` does not stop at was loaded. -/
theorem loaded_runStep (hload : Loader run loaded) (hnever : NeverExists run)
    (hs : isLoad s.run = true) {w : World σ} (hstop : (runStep run s w).stop = none) :
    loaded (runStep run s w).world.machine = some s.run.stdin := by
  refine hload.done _ _ hs ?_
  cases herr : (run w.machine s.run).2.2 with
  | none => rfl
  | some msg =>
    have hexists := hnever w.machine s.run hs
    have hv : verdict s.run (run w.machine s.run).2 = .failed msg := by
      simp only [verdict, herr, isLoad_removes hs, Bool.false_and, Bool.false_eq_true, if_false]
      rw [herr] at hexists
      rw [if_neg (by simp [hexists])]
    simp [runStep, stopError, hv] at hstop

/-- A step that `Apply` does not stop at leaves its text if it loads one, and
what was there if it does not. -/
theorem loaded_applyStep (hload : Loader run loaded) (hnever : NeverExists run)
    (hun : Unskipped digest state [s]) {w : World σ}
    (hstop : (applyStep digest run state s w).stop = none) :
    loaded (applyStep digest run state s w).world.machine =
      if isLoad s.run then some s.run.stdin else loaded w.machine := by
  have hquery : loaded (queryPre run s w.machine).1 = loaded w.machine := by
    unfold queryPre
    split
    · rfl
    next q hq => exact hload.other _ _ (hun.query s (by simp) q hq)
  cases hs : isLoad s.run with
  | true =>
    have hrun : applyStep digest run state s w =
        runStep run s { w with machine := (queryPre run s w.machine).1 } := by
      simp [applyStep, isLoad_isZero hs, hun.force s (by simp) hs, queryPre,
        hun.pre s (by simp) hs]
    rw [hrun] at hstop ⊢
    exact loaded_runStep hload hnever hs hstop
  | false =>
    simp only [applyStep, Bool.false_eq_true, if_false]
    split
    · rfl
    · split
      · rfl
      · split
        · exact hquery
        · exact (hload.other _ _ hs).trans hquery

/-- **An `Apply` that went through leaves the text of the last loading step.** -/
theorem loaded_applyLoop (hload : Loader run loaded) (hnever : NeverExists run) {steps : List Step}
    (hun : Unskipped digest state steps) {w : World σ} {rep : Report}
    (h : (applyLoop digest run state steps w rep).2.2 = none) :
    loaded (applyLoop digest run state steps w rep).1.machine =
      lastLoad steps (loaded w.machine) := by
  induction steps generalizing w rep with
  | nil => rfl
  | cons s rest ih =>
    have hone : Unskipped digest state [s] :=
      ⟨fun t ht => hun.force t (by simp_all), fun t ht => hun.pre t (by simp_all),
        fun t ht => hun.query t (by simp_all)⟩
    have hrest : Unskipped digest state rest :=
      ⟨fun t ht => hun.force t (by simp [ht]), fun t ht => hun.pre t (by simp [ht]),
        fun t ht => hun.query t (by simp [ht])⟩
    simp only [applyLoop] at h ⊢
    cases hstop : (applyStep digest run state s w).stop with
    | some e =>
      rw [hstop] at h
      cases h
    | none =>
      rw [hstop] at h
      simp only at h ⊢
      rw [ih hrest h, loaded_applyStep hload hnever hone hstop]
      rfl

end Apply

/-! ## The steps of a plan -/

theorem lastLoad_append (a b : List Step) (before : Option String) :
    lastLoad (a ++ b) before = lastLoad b (lastLoad a before) := by
  simp [lastLoad, List.foldl_append]

/-- Steps none of which loads leave what was loaded. -/
theorem lastLoad_quiet {steps : List Step} (h : ∀ s ∈ steps, isLoad s.run = false)
    (before : Option String) : lastLoad steps before = before := by
  induction steps with
  | nil => rfl
  | cons s rest ih =>
    simp only [lastLoad, List.foldl_cons, h s (by simp), Bool.false_eq_true, if_false]
    exact ih fun t ht => h t (by simp [ht])

/-- A step whose program loads no ruleset. -/
def Step.quiet (s : Step) : Prop :=
  s.run.path ≠ binNft ∧ s.run.path ≠ binPfctl ∧ s.run.path ≠ binWFP ∧
    ∀ q, s.pre = some q → isLoad q.query = false

/-- A step that loads no ruleset, and does not ask with a load. -/
def Step.Silent (s : Step) : Prop :=
  isLoad s.run = false ∧ ∀ q, s.pre = some q → isLoad q.query = false

theorem Step.quiet.silent (h : s.quiet) : s.Silent :=
  ⟨by simp [Netcfg.isLoad, h.1, h.2.1, h.2.2.1], h.2.2.2⟩

/-- One loading step among silent ones. -/
theorem unskipped_one {digest : String → String} {a b : List Step} (ha : ∀ t ∈ a, t.Silent)
    (hb : ∀ t ∈ b, t.Silent) (hpre : s.pre = none) (hforce : inForce digest state s.run = false) :
    Unskipped digest state (a ++ s :: b) := by
  have hcase : ∀ t ∈ a ++ s :: b, t = s ∨ t.Silent := by
    intro t ht
    rcases List.mem_append.mp ht with ht | ht
    · exact .inr (ha t ht)
    · exact (List.mem_cons.mp ht).imp_right (hb t)
  refine ⟨?_, ?_, ?_⟩
  · intro t ht hload
    rcases hcase t ht with rfl | hsilent
    · exact hforce
    · exact absurd (hsilent.1.symm.trans hload) (by simp)
  · intro t ht hload
    rcases hcase t ht with rfl | hsilent
    · exact hpre
    · exact absurd (hsilent.1.symm.trans hload) (by simp)
  · intro t ht q hq
    rcases hcase t ht with rfl | hsilent
    · rw [hpre] at hq
      cases hq
    · exact hsilent.2 q hq

theorem lastLoad_one {a b : List Step} (hb : ∀ t ∈ b, t.Silent) (hs : isLoad s.run = true)
    (before : Option String) : lastLoad (a ++ s :: b) before = some s.run.stdin := by
  rw [lastLoad_append]
  show lastLoad b (if isLoad s.run then _ else _) = _
  rw [if_pos hs, lastLoad_quiet fun t ht => (hb t ht).1]

/-- The programs that load no ruleset. -/
def quietBinaries : List String :=
  [binIP, binIw, binSysctl, binNmcli, binRoute, binNetworksetup, binIPHelper]

theorem ne_of_quietBinaries {path : String} (h : path ∈ quietBinaries) :
    path ≠ binNft ∧ path ≠ binPfctl ∧ path ≠ binWFP := by
  revert path
  decide

/-- A step that has nothing to do with the firewall: neither its command nor its
inverse is one of the programs that load rulesets, and its op is not theirs. -/
@[mk_iff]
structure Step.Ordinary (s : Step) : Prop where
  run : s.run.path ∈ quietBinaries
  undo : s.undo.path ∈ "" :: quietBinaries
  op : s.op ≠ opNft
  query : ∀ q, s.pre = some q → isLoad q.query = false

theorem Step.Ordinary.quiet (h : s.Ordinary) : s.quiet := by
  obtain ⟨h1, h2, h3⟩ := ne_of_quietBinaries h.run
  exact ⟨h1, h2, h3, h.query⟩

theorem sysctlStep_ordinary (knob value : String) (current : Readings) (why : String) :
    (sysctlStep knob value current why).Ordinary := by
  unfold sysctlStep
  split <;> simp +decide only [Step.ordinary_iff, and_self]

namespace Plan

variable (p : Plan)

/-- The ruleset of a state, as the steps of `Cut` and `Restore` load it. -/
def forwardText (state : ForwardState) : String :=
  match state with
  | .normal => p.restoreStep.run.stdin
  | .cut => p.cutStep.run.stdin

theorem linuxPre_ordinary (current : Readings) :
    ∀ s ∈ p.sysctlSteps current ++ p.virtualIfaceSteps ++ p.hotspotReleaseSteps ++
      p.hotspotAddrSteps ++ p.serverRouteSteps, s.Ordinary := by
  have hsysctl := p.forall_sysctlSteps (sysctlStep_ordinary · · current ·)
  have hquery : isLoad (ifacePresent p.hotspot).query = false := rfl
  simp only [List.forall_mem_append, virtualIfaceSteps, hotspotReleaseSteps, retypeSteps,
    hotspotAddrSteps, serverRouteSteps, List.forall_mem_cons, List.forall_mem_map, forall_mem_ite,
    iff_true_intro hsysctl]
  simp +decide only [Step.ordinary_iff, releaseStep, stripStep, serverRouteStep, ipCmd,
    Option.some.injEq, forall_eq', hquery, imp_true_iff, and_self]

theorem linuxPost_ordinary (current : Readings) :
    ∀ s ∈ p.linuxPostEngineSteps current, s.Ordinary := by
  simp +decide only [linuxPostEngineSteps, tunnelAddrSteps, tunnelRouteSteps, policySteps,
    halfDefaultStep, ipCmd, List.forall_mem_append, List.forall_mem_cons, List.forall_mem_map,
    forall_mem_ite, Step.ordinary_iff, imp_true_iff, and_self]

theorem darwinPre_ordinary (current : Readings) :
    ∀ s ∈ p.darwinSysctlSteps current ++ p.darwinServerRouteSteps, s.Ordinary := by
  simp only [darwinSysctlSteps, darwinServerRouteSteps, List.forall_mem_append,
    List.forall_mem_cons, List.forall_mem_map, sysctlStep_ordinary]
  simp +decide only [darwinServerRouteStep, Step.ordinary_iff, imp_true_iff, and_self]

theorem darwinPost_ordinary (current : Readings) :
    ∀ s ∈ p.darwinPostEngineSteps current, s.Ordinary := by
  simp +decide only [darwinPostEngineSteps, darwinHalfStep, darwinSystemSOCKSSteps,
    socksServiceSteps, systemSOCKSBypassCommand, systemSOCKSStateCommand,
    systemSOCKSEndpointCommand, List.forall_mem_flatMap, List.forall_mem_append,
    List.forall_mem_cons, List.forall_mem_map, forall_mem_ite, Step.ordinary_iff,
    apply_ite Command.path, ite_self, imp_true_iff, and_self]

theorem windowsPost_ordinary (current : Readings) :
    ∃ rest last, p.windowsPostEngineSteps current = p.windowsPermitStep :: rest ++ [last] ∧
      (∀ s ∈ rest, s.Ordinary) ∧ last.op = opWFP ∧ last.run.args = ["dns-protect"] ∧
      last.undo = { path := binWFP, args := ["dns-clear"] } ∧ last.pre = none := by
  refine ⟨_ :: _ :: _ :: _ :: [_], _, rfl, ?_, rfl, rfl, rfl, rfl⟩
  unfold windowsForwardingStep
  split <;> simp +decide only [List.forall_mem_cons, ipHelper, Step.ordinary_iff, and_self]

theorem windowsPost_silent (current : Readings) :
    ∃ rest, p.windowsPostEngineSteps current = p.windowsPermitStep :: rest ∧
      ∀ s ∈ rest, s.Silent := by
  obtain ⟨rest, last, hsteps, hrest, -, hargs, -, hpre⟩ := p.windowsPost_ordinary current
  refine ⟨rest ++ [last], hsteps, fun s hs => ?_⟩
  rcases List.mem_append.mp hs with hs | hs
  · exact (hrest s hs).quiet.silent
  · rw [List.mem_singleton.mp hs]
    refine ⟨by simp [isLoad, hargs], fun q hq => ?_⟩
    rw [hpre] at hq
    cases hq

theorem windowsPre_ordinary : ∀ s ∈ p.windowsServerRouteSteps, s.Ordinary := by
  simp +decide only [windowsServerRouteSteps, windowsServerRouteStep, ipHelper,
    List.forall_mem_map, Step.ordinary_iff, imp_true_iff, and_self]

/-- The steps before the engine load one ruleset: the cut one on Windows, where
the tunnel does not exist yet, and the normal one elsewhere. -/
theorem preEngineSteps_shape (hpl : ∀ name, p.platform ≠ .other name) (current : Readings) :
    ∃ a s b, p.preEngineSteps current = a ++ s :: b ∧ (∀ t ∈ a, t.Silent) ∧
      (∀ t ∈ b, t.Silent) ∧ isLoad s.run = true ∧ s.pre = none ∧
      s.run.stdin = p.forwardText (if p.platform = .windows then .cut else .normal) := by
  have hlinux : p.OnLinux → ∃ a s b, p.linuxPreEngineSteps current = a ++ s :: b ∧
      (∀ t ∈ a, t.Silent) ∧ (∀ t ∈ b, t.Silent) ∧ isLoad s.run = true ∧ s.pre = none ∧
      s.run.stdin = p.forwardText (if p.platform = .windows then .cut else .normal) := by
    intro h
    refine ⟨[], p.firewallStep, _, by simp only [linuxPreEngineSteps, List.append_assoc]; rfl,
      by simp, fun t ht => (p.linuxPre_ordinary current t (by simpa using ht)).quiet.silent,
      rfl, rfl, ?_⟩
    have hnormal : p.forwardText .normal = p.ruleset := by
      rcases h with h | h <;>
        simp only [forwardText, restoreStep, h, linuxRestoreStep, nftLoadStep, ruleset]
    have hne : p.platform ≠ .windows := by
      rcases h with h | h <;> simp [h]
    rw [if_neg hne, hnormal]
    simp only [firewallStep]
  cases hplat : p.platform with
  | unset =>
    simp only [preEngineSteps, hplat] at hlinux ⊢
    exact hlinux (.inl hplat)
  | linux =>
    simp only [preEngineSteps, hplat] at hlinux ⊢
    exact hlinux (.inr hplat)
  | darwin =>
    simp only [preEngineSteps, hplat]
    refine ⟨p.darwinPfEnableSteps current, p.darwinFirewallStep, _,
      by simp only [darwinPreEngineSteps, List.append_assoc]; rfl, ?_,
      fun t ht => (p.darwinPre_ordinary current t (by simpa using ht)).quiet.silent, rfl, rfl, ?_⟩
    · intro t ht
      unfold darwinPfEnableSteps at ht
      split at ht
      · rw [List.mem_singleton.mp ht]
        exact ⟨rfl, fun q hq => by cases hq⟩
      · cases ht
    · simp only [forwardText, restoreStep, hplat]
      rfl
  | windows =>
    simp only [preEngineSteps, hplat]
    refine ⟨[], p.windowsCutStep, p.windowsServerRouteSteps, rfl, by simp,
      fun t ht => (p.windowsPre_ordinary t ht).quiet.silent, rfl, rfl, ?_⟩
    · simp only [forwardText, cutStep, hplat, if_true]
  | other name => exact absurd hplat (hpl name)

end Plan

/-! ## The journal a start finds -/

/-- Every record belongs to an entry that has a command, as in every journal
`Begin` has written. -/
def Tidy (rs : List Record) : Prop := ∀ e ∈ rawEntries rs, e.kept = true

/-- A tidy journal none of whose entries is known to be done. -/
def Untried (rs : List Record) : Prop := Tidy rs ∧ ∀ e ∈ entriesOf rs, e.phase = .begin

variable {rs : List Record}

theorem ordered_openOn (h : Tidy rs) : (Journal.openOn rs).Ordered := by
  have hmax : ∀ (es : List Entry) (n : Int),
      n ≤ es.foldl (fun next e => if next < e.seq then e.seq else next) n ∧
        ∀ e ∈ es, e.seq ≤ es.foldl (fun next e => if next < e.seq then e.seq else next) n := by
    intro es
    induction es with
    | nil => exact fun n => ⟨le_refl n, by simp⟩
    | cons e es ih =>
      intro n
      obtain ⟨hstart, hall⟩ := ih (if n < e.seq then e.seq else n)
      simp only [List.foldl_cons]
      have hn : n ≤ if n < e.seq then e.seq else n := by split <;> omega
      have he : e.seq ≤ if n < e.seq then e.seq else n := by split <;> omega
      refine ⟨hn.trans hstart, fun x hx => ?_⟩
      rcases List.mem_cons.mp hx with rfl | hx
      · exact he.trans hstart
      · exact hall x hx
  intro e he
  exact (hmax _ 0).2 e (List.mem_filter.mpr ⟨he, h e he⟩)

variable {es : List Entry} {e : Entry}

/-- A `begin` record overwrites the entry of its number. -/
theorem mem_upsert_begin {r : Record} (hr : r.phase = .begin) (h : e ∈ upsert r es) :
    e ∈ es ∨ (e.phase = .begin ∧ e.run = r.run ∧ e.undo = r.undo) := by
  have habsorb : ∀ e' : Entry, (e'.absorb r).phase = .begin ∧ (e'.absorb r).run = r.run ∧
      (e'.absorb r).undo = r.undo := by
    intro e'
    rw [Entry.absorb, if_pos hr]
    exact ⟨hr, rfl, rfl⟩
  induction es with
  | nil =>
    rw [List.mem_singleton.mp h]
    exact .inr (habsorb _)
  | cons e' es ih =>
    simp only [upsert] at h
    split at h
    · rcases List.mem_cons.mp h with rfl | h
      · exact .inr (habsorb _)
      · exact .inl h
    · split at h
      · rcases List.mem_cons.mp h with rfl | h
        · exact .inr (habsorb _)
        · exact .inl (List.mem_cons_of_mem _ h)
      · rcases List.mem_cons.mp h with rfl | h
        · exact .inl List.mem_cons_self
        · exact (ih h).imp_left (List.mem_cons_of_mem _)

/-- A rewritten journal holds its entries as begun. -/
theorem untried_rewriteJournal (h : ∀ e ∈ es, e.kept = true) : Untried (rewriteJournal es) := by
  have hfold : ∀ (rs : List Record) (acc : List Entry),
      (∀ r ∈ rs, r.phase = .begin ∧ (r.run.isZero && r.undo.isZero) = false) →
      (∀ e ∈ acc, e.phase = .begin ∧ e.kept = true) →
      ∀ e ∈ rs.foldl (fun es r => upsert r es) acc, e.phase = .begin ∧ e.kept = true := by
    intro rs
    induction rs with
    | nil => exact fun acc _ hacc => hacc
    | cons r rs ih =>
      intro acc hrs hacc
      refine ih _ (fun r' hr' => hrs r' (by simp [hr'])) ?_
      intro e he
      obtain ⟨hbegin, hkept⟩ := hrs r (by simp)
      rcases mem_upsert_begin hbegin he with he | ⟨hp, hrun, hundo⟩
      · exact hacc e he
      · exact ⟨hp, by simp only [Entry.kept, hrun, hundo, hkept, Bool.not_false]⟩
  have hall := hfold (rewriteJournal es) [] ?_ (by simp)
  · exact ⟨fun e he => (hall e he).2, fun e he => (hall e (List.mem_filter.mp he).1).1⟩
  · intro r hr
    obtain ⟨e, he, rfl⟩ := List.mem_map.mp hr
    have hkept := h e he
    simp only [Entry.kept, Bool.not_eq_true'] at hkept
    exact ⟨rfl, hkept⟩

section Replay

variable {σ : Type} (run : Runner σ)

/-- What could not be undone was in the journal. -/
theorem mem_of_mem_remaining {m : σ} {j : Option Journal} (h : e ∈ (replay run es m j).remaining) :
    e ∈ es := by
  have hturn : ∀ (t : Bool × Entry) (st : Replay σ),
      ∀ x ∈ (replayTurn run t st).remaining, x ∈ st.remaining ∨ x = t.2 := by
    intro t st x hx
    have hundo : ∀ y ∈ (undoOne run t.2 st).remaining, y ∈ st.remaining ∨ y = t.2 := by
      intro y hy
      simp only [undoOne] at hy
      split at hy
      · exact .inl hy
      · split at hy
        · simpa using hy
        · exact .inl hy
    unfold replayTurn at hx
    split at hx
    · unfold undoFirewall at hx
      split at hx
      · simpa [holdEntry] using hx
      · exact hundo x hx
    · exact hundo x hx
  have hfold : ∀ (ts : List (Bool × Entry)) (st : Replay σ),
      ∀ x ∈ (ts.foldl (fun st t => replayTurn run t st) st).remaining,
        x ∈ st.remaining ∨ ∃ t ∈ ts, x = t.2 := by
    intro ts
    induction ts with
    | nil => exact fun st x hx => .inl hx
    | cons t ts ih =>
      intro st x hx
      rcases ih _ x hx with hx | ⟨u, hu, hxu⟩
      · rcases hturn t st x hx with hx | hx
        · exact .inl hx
        · exact .inr ⟨t, by simp, hx⟩
      · exact .inr ⟨u, by simp [hu], hxu⟩
  rw [replay, List.mem_reverse, replayPasses_turns] at h
  rcases hfold _ _ e h with h | ⟨t, ht, rfl⟩
  · cases h
  · simp only [turns, passOne, passTwo, List.mem_append, List.mem_map, List.mem_filter,
      List.mem_reverse] at ht
    rcases ht with ⟨x, hx, rfl⟩ | ⟨x, hx, rfl⟩ <;> exact hx.1

theorem kept_of_mem_entriesOf (h : e ∈ entriesOf rs) : e.kept = true :=
  (List.mem_filter.mp h).2

/-- `Teardown` leaves a journal of begun entries. -/
theorem untried_teardown (w : World σ) : Untried (teardown run w).2.1 :=
  untried_rewriteJournal fun _ he => kept_of_mem_entriesOf (mem_of_mem_remaining run he)

/-- `Recover` leaves a journal of begun entries. -/
theorem untried_recover (m : σ) (h : Tidy rs) : Untried (recover run m rs).2.1 := by
  simp only [recover]
  split
  next hempty =>
    refine ⟨h, fun e he => ?_⟩
    rw [List.isEmpty_iff.mp hempty] at he
    cases he
  · exact untried_rewriteJournal fun _ he => kept_of_mem_entriesOf (mem_of_mem_remaining run he)

end Replay

section Force

variable (digest : String → String)

/-- What is in force was done. -/
theorem done_of_mem_currentState {kv : String × String} (h : kv ∈ currentState digest es) :
    ∃ e ∈ es, e.phase = .done ∧ kv = (commandLine e.run, runnerKey digest e.run) := by
  unfold currentState at h
  induction es using List.reverseRecOn with
  | nil => cases h
  | append_singleton es e ih =>
    replace ih := fun h => (ih h).imp fun _ => And.imp_left (List.mem_append_left [e])
    rw [List.foldl_append, List.foldl_cons, List.foldl_nil] at h
    split at h
    · exact ih h
    · split at h
      next hphase =>
        rcases List.mem_cons.mp h with h | h
        · exact ⟨e, by simp, hphase, h⟩
        · exact ih (List.mem_filter.mp h).1
      · exact ih (List.mem_filter.mp h).1
      · exact ih h

/-- In a journal of begun entries nothing is in force. -/
theorem currentState_untried (h : ∀ e ∈ es, e.phase = .begin) : currentState digest es = [] := by
  refine List.eq_nil_iff_forall_not_mem.mpr fun kv hkv => ?_
  obtain ⟨e, he, hdone, _⟩ := done_of_mem_currentState digest hkv
  exact absurd ((h e he).symm.trans hdone) (by simp)

/-- The digest tells the two filter sets of a plan apart. -/
def TellsApart : Prop := ∀ p : Plan, digest (p.windowsFilterSet .cut) ≠ digest (p.windowsFilterSet .normal)

/-- The normal filter set is not in force where only the cut one was loaded. -/
theorem permit_not_inForce (hdigest : TellsApart digest) {p : Plan}
    (h : ∀ e ∈ es, e.phase = .done → commandLine e.run = commandLine p.windowsPermitStep.run →
      e.run.stdin = p.windowsFilterSet .cut) :
    inForce digest (currentState digest es) p.windowsPermitStep.run = false := by
  have hne : ∀ state, p.windowsFilterSet state ≠ "" := by
    intro state hempty
    have hlen := congrArg String.length hempty
    simp [Plan.windowsFilterSet] at hlen
  have hkey : ∀ {c : Command} {state : ForwardState}, c.stdin = p.windowsFilterSet state →
      (runnerKey digest c).toList = (commandLine c).toList ++ " <stdin:".toList ++
        (digest (p.windowsFilterSet state)).toList ++ ">".toList := by
    intro c state hc
    rw [runnerKey, hc, if_neg (hne state)]
    simp only [String.toList_append]
  refine decide_eq_false fun hforce => ?_
  obtain ⟨before, after, hstate, _⟩ := List.lookup_eq_some_iff.mp hforce
  have hmem : (commandLine p.windowsPermitStep.run, runnerKey digest p.windowsPermitStep.run) ∈
      currentState digest es := by
    rw [hstate]
    simp
  obtain ⟨e, he, hdone, hpair⟩ := done_of_mem_currentState digest hmem
  obtain ⟨hline, hrun⟩ := Prod.mk.inj hpair
  have hcut := h e he hdone hline.symm
  have heq := congrArg String.toList hrun
  rw [hkey (rfl : p.windowsPermitStep.run.stdin = p.windowsFilterSet .normal), hkey hcut, hline]
    at heq
  simp only [List.append_assoc, List.append_cancel_left_eq, List.append_cancel_right_eq] at heq
  exact hdigest p (String.toList_inj.mp heq.symm)

end Force

/-! ## Applying a plan -/

section ApplyPlan

variable {σ : Type} {digest : String → String} {run : Runner σ} {loaded : σ → Option String}
  {p : Plan} {current : Readings}

/-- Applied to a journal in which nothing is in force, the steps before the
engine leave their ruleset loaded. -/
theorem loaded_apply_pre (hload : Loader run loaded) (hnever : NeverExists run)
    (hpl : ∀ name, p.platform ≠ .other name) {w : World σ}
    (hforce : currentState digest w.journal.entries = [])
    (h : (apply digest run (p.preEngineSteps current) w).2.2 = none) :
    loaded (apply digest run (p.preEngineSteps current) w).1.machine =
      some (p.forwardText (if p.platform = .windows then .cut else .normal)) := by
  obtain ⟨a, s, b, hsteps, ha, hb, hs, hpre, htext⟩ := p.preEngineSteps_shape hpl current
  rw [hsteps] at h ⊢
  unfold apply at h ⊢
  rw [hforce] at h ⊢
  rw [loaded_applyLoop hload hnever (unskipped_one ha hb hpre rfl) h, lastLoad_one hb hs, htext]

/-- On Windows the journal then knows of no load but the cut one. -/
theorem entries_apply_pre {w : World σ} (hord : w.journal.Ordered)
    (hold : ∀ e ∈ w.journal.entries, e.phase = .begin) (hwin : p.platform = .windows) :
    ∀ e ∈ (apply digest run (p.preEngineSteps current) w).1.journal.entries,
      e.phase = .done → commandLine e.run = commandLine p.windowsPermitStep.run →
        e.run.stdin = p.windowsFilterSet .cut := by
  have hroute : ∀ (args : List String) (why : String),
      commandLine (ipHelper args why) ≠ commandLine p.windowsPermitStep.run := by
    intro args why hline
    have hload : commandLine p.windowsPermitStep.run = "wfp load" := by
      show binWFP ++ " " ++ String.intercalate " " ["load"] = _
      decide
    have hhead : (commandLine (ipHelper args why)).toList.head? = some 'i' := by
      unfold commandLine
      split <;> simp [ipHelper, binIPHelper]
    rw [hline, hload] at hhead
    exact absurd hhead (by decide)
  have hsteps : ∀ s ∈ p.preEngineSteps current, ∀ seq phase,
      (s.entry seq phase).phase = .done →
      commandLine (s.entry seq phase).run = commandLine p.windowsPermitStep.run →
        (s.entry seq phase).run.stdin = p.windowsFilterSet .cut := by
    intro s hs seq phase _ hline
    simp only [Plan.preEngineSteps, hwin] at hs
    rcases List.mem_append.mp hs with hs | hs
    · rw [List.mem_singleton.mp hs]
      rfl
    · obtain ⟨a, _, rfl⟩ := List.mem_map.mp hs
      exact absurd hline (hroute _ _)
  refine (apply_of_visits (J := fun v => v.world.journal.Ordered ∧
    ∀ e ∈ v.world.journal.entries, e.phase = .done →
      commandLine e.run = commandLine p.windowsPermitStep.run →
        e.run.stdin = p.windowsFilterSet .cut) digest run ?_).2
  refine loopVisits_entries digest run hsteps hord fun e he hdone _ => ?_
  exact absurd ((hold e he).symm.trans hdone) (by simp)

/-- The steps after the engine leave the normal ruleset loaded. -/
theorem loaded_apply_post (hload : Loader run loaded) (hnever : NeverExists run)
    (hdigest : TellsApart digest) (hpl : ∀ name, p.platform ≠ .other name) {w : World σ}
    (hpre : loaded w.machine =
      some (p.forwardText (if p.platform = .windows then .cut else .normal)))
    (hwin : p.platform = .windows → ∀ e ∈ w.journal.entries, e.phase = .done →
      commandLine e.run = commandLine p.windowsPermitStep.run →
        e.run.stdin = p.windowsFilterSet .cut)
    (h : (apply digest run (p.postEngineSteps current) w).2.2 = none) :
    loaded (apply digest run (p.postEngineSteps current) w).1.machine =
      some (p.forwardText .normal) := by
  have hquiet : p.platform ≠ .windows → (∀ s ∈ p.postEngineSteps current, s.quiet) →
      loaded (apply digest run (p.postEngineSteps current) w).1.machine =
        some (p.forwardText .normal) := by
    intro hne hsteps
    have hun : Unskipped digest (currentState digest w.journal.entries)
        (p.postEngineSteps current) := by
      refine ⟨fun s hs hl => ?_, fun s hs hl => ?_, fun s hs => (hsteps s hs).silent.2⟩ <;>
        exact absurd ((hsteps s hs).silent.1.symm.trans hl) (by simp)
    rw [apply, loaded_applyLoop hload hnever hun h,
      lastLoad_quiet fun s hs => (hsteps s hs).silent.1, hpre, if_neg hne]
  cases hplat : p.platform with
  | unset | linux =>
    refine hquiet (by simp [hplat]) ?_
    simp only [Plan.postEngineSteps, hplat]
    exact fun s hs => (p.linuxPost_ordinary current s hs).quiet
  | darwin =>
    refine hquiet (by simp [hplat]) ?_
    simp only [Plan.postEngineSteps, hplat]
    exact fun s hs => (p.darwinPost_ordinary current s hs).quiet
  | windows =>
    obtain ⟨rest, hsteps, hrest⟩ := p.windowsPost_silent current
    have hpost : p.postEngineSteps current = [] ++ p.windowsPermitStep :: rest := by
      simp only [Plan.postEngineSteps, hplat, hsteps, List.nil_append]
    rw [hpost] at h ⊢
    have hun := unskipped_one (a := []) (b := rest) (s := p.windowsPermitStep) (by simp) hrest rfl
      (permit_not_inForce digest hdigest (hwin hplat))
    rw [apply, loaded_applyLoop hload hnever hun h, lastLoad_one hrest rfl]
    simp only [Plan.forwardText, Plan.restoreStep, hplat]
    rfl
  | other name => exact absurd hplat (hpl name)

end ApplyPlan

end Caspian.Netcfg
