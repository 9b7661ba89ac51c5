import Caspian.Netcfg.Accounting
import Caspian.Netcfg.Loads
import Caspian.Netcfg.NextHop

/-!
# The firewall comes out last

A replay holds back the entries of one op until everything else came back.  That
op is the one of nftables, so on Linux the generated ruleset is removed only
after a clean sweep.  The entries that flush the pf anchor and the WFP filters
have ops of their own and are undone with the rest: last, because they are the
oldest, but whatever happened before.
-/

namespace Caspian.Netcfg

/-! ## The generated filter -/

/-- The inverse that removes the generated filter. -/
def Plan.filterRemoval (p : Plan) : Command :=
  match p.platform with
  | .darwin => p.darwinFirewallStep.undo
  | .windows => p.windowsFirewallStep.undo
  | _ => p.firewallStep.undo

/-- The filter is removed only after every other inverse of the journal went
through in the same replay. -/
def FilterLast (removal : Command) (es : List Entry) (as : List Attempt) : Prop :=
  ∀ before a after, as = before ++ a :: after → a.entry.undo = removal →
    ∀ e ∈ es, e.needsUndo = true → e.undo ≠ removal → settledBy before e.seq = true

/-- A filter whose removal is not attempted stays in the journal. -/
def FilterKept (removal : Command) (es left : List Entry) (as : List Attempt) : Prop :=
  ∀ e ∈ es, e.needsUndo = true → e.undo = removal → (∀ a ∈ as, a.entry.seq ≠ e.seq) →
    e.retried ∈ left

/-! ## The steps of a plan -/

/-- One step installs the filter, before it nothing has an inverse, and after it
nothing has to do with it. -/
structure FilterFirst (removal : Command) (steps : List Step) (a : List Step) (s : Step)
    (b : List Step) : Prop where
  split : steps = a ++ s :: b
  before : ∀ t ∈ a, t.undo = Command.zero ∧ t.op ≠ opNft
  undo : s.undo = removal
  after : ∀ t ∈ b, t.undo ≠ removal ∧ t.op ≠ opNft

theorem Step.Ordinary.undo_ne {s : Step} (h : s.Ordinary) {c : Command}
    (hc : c.path ∉ "" :: quietBinaries) : s.undo ≠ c := by
  rintro rfl
  exact hc h.undo

namespace Plan

variable (p : Plan)

theorem linux_filterFirst (current : Readings) :
    ∃ b, FilterFirst p.firewallStep.undo
      (p.linuxPreEngineSteps current ++ p.linuxPostEngineSteps current) [] p.firewallStep b := by
  refine ⟨p.sysctlSteps current ++ p.virtualIfaceSteps ++ p.hotspotReleaseSteps ++
    p.hotspotAddrSteps ++ p.serverRouteSteps ++ p.linuxPostEngineSteps current,
    ⟨by simp [linuxPreEngineSteps], by simp, rfl, ?_⟩⟩
  intro t ht
  have hord : t.Ordinary := by
    rcases List.mem_append.mp ht with ht | ht
    · exact p.linuxPre_ordinary current t ht
    · exact p.linuxPost_ordinary current t ht
  exact ⟨hord.undo_ne (by show binNft ∉ _; decide), hord.op⟩

theorem darwin_filterFirst (current : Readings) :
    ∃ a b, FilterFirst p.darwinFirewallStep.undo
      (p.darwinPreEngineSteps current ++ p.darwinPostEngineSteps current) a
      p.darwinFirewallStep b := by
  refine ⟨p.darwinPfEnableSteps current,
    p.darwinSysctlSteps current ++ p.darwinServerRouteSteps ++ p.darwinPostEngineSteps current,
    ⟨by simp [darwinPreEngineSteps], ?_, rfl, ?_⟩⟩
  · intro t ht
    unfold darwinPfEnableSteps at ht
    split at ht
    · rw [List.mem_singleton.mp ht]
      exact ⟨rfl, (by decide : opPf ≠ opNft)⟩
    · cases ht
  · intro t ht
    have hord : t.Ordinary := by
      rcases List.mem_append.mp ht with ht | ht
      · exact p.darwinPre_ordinary current t ht
      · exact p.darwinPost_ordinary current t ht
    exact ⟨hord.undo_ne (by show binPfctl ∉ _; decide), hord.op⟩

theorem windows_filterFirst (current : Readings) :
    ∃ b, FilterFirst p.windowsFirewallStep.undo
      (p.windowsPreEngineSteps current ++ p.windowsPostEngineSteps current) []
      p.windowsCutStep b := by
  refine ⟨p.windowsServerRouteSteps ++ p.windowsPostEngineSteps current, ⟨rfl, by simp, rfl, ?_⟩⟩
  intro t ht
  obtain ⟨rest, last, hpost, hrest, hop, -, hundo, -⟩ := p.windowsPost_ordinary current
  have hwfp : p.windowsFirewallStep.undo.path ∉ "" :: quietBinaries := by
    show binWFP ∉ _
    decide
  have hargs : p.windowsFirewallStep.undo.args = ["flush"] := rfl
  rw [hpost] at ht
  simp only [List.mem_append, List.mem_cons, List.not_mem_nil, or_false] at ht
  rcases ht with ht | (rfl | ht) | rfl
  · have hord := p.windowsPre_ordinary t ht
    exact ⟨hord.undo_ne hwfp, hord.op⟩
  · refine ⟨fun heq => ?_, (by decide : opWFP ≠ opNft)⟩
    -- The inverse of the permit loads the cut filters again.
    have hcut : p.windowsPermitStep.undo.args = ["load"] := rfl
    rw [heq, hargs] at hcut
    exact absurd hcut (by decide)
  · exact ⟨(hrest t ht).undo_ne hwfp, (hrest t ht).op⟩
  · refine ⟨fun heq => ?_, by rw [hop]; decide⟩
    rw [hundo] at heq
    rw [← heq] at hargs
    exact absurd hargs (by decide)

theorem steps_filterFirst (hpl : ∀ name, p.platform ≠ .other name) (current : Readings) :
    ∃ a s b, FilterFirst p.filterRemoval (p.steps current) a s b ∧
      (s.op = opNft ↔ p.OnLinux) := by
  have hpf : opPf ≠ opNft := by decide
  have hwfp : opWFP ≠ opNft := by decide
  unfold steps preEngineSteps postEngineSteps filterRemoval OnLinux
  cases hplat : p.platform with
  | unset =>
    obtain ⟨b, hb⟩ := p.linux_filterFirst current
    exact ⟨_, _, b, hb, iff_of_true rfl (.inl rfl)⟩
  | linux =>
    obtain ⟨b, hb⟩ := p.linux_filterFirst current
    exact ⟨_, _, b, hb, iff_of_true rfl (.inr rfl)⟩
  | darwin =>
    obtain ⟨a, b, hb⟩ := p.darwin_filterFirst current
    exact ⟨_, _, b, hb, iff_of_false hpf (by simp)⟩
  | windows =>
    obtain ⟨b, hb⟩ := p.windows_filterFirst current
    exact ⟨_, _, b, hb, iff_of_false hwfp (by simp)⟩
  | other name => exact absurd hplat (hpl name)

end Plan

/-! ## The journal of a run -/

/-- What a replay reads of an entry, as the step has it. -/
def Entry.inverse (e : Entry) : String × Command := (e.op, e.undo)

def Step.inverse (s : Step) : String × Command := (s.op, s.undo)

/-- The entries were written for some of the steps, in their order. -/
def WrittenFor (steps : List Step) (es : List Entry) : Prop :=
  (es.map Entry.inverse).Sublist (steps.map Step.inverse)

theorem WrittenFor.mono {steps steps' : List Step} {es : List Entry} (h : WrittenFor steps es)
    (hsub : steps.Sublist steps') : WrittenFor steps' es :=
  h.trans (hsub.map Step.inverse)

section Run

variable {σ : Type} (digest : String → String) (run : Runner σ)

/-- Wherever `Apply` is cut short, the journal has been written for the steps it
was given, after those it was written for before. -/
theorem writtenFor_visits {done steps : List Step} {w : World σ} (hord : w.journal.Ordered)
    (hw : WrittenFor done w.journal.entries) :
    ∀ v ∈ applyVisits digest run steps w,
      v.world.journal.Ordered ∧ WrittenFor (done ++ steps) v.world.journal.entries := by
  refine loopVisits_forall digest run
    (I := fun l w => w.journal.Ordered ∧ ∃ before, steps = before ++ l ∧
      WrittenFor (done ++ before) w.journal.entries)
    ?_ ?_ (fun s l w h => h) ?_ ⟨hord, [], rfl, by simpa using hw⟩
  · rintro l w ⟨hj, before, rfl, hbefore⟩
    exact ⟨hj, hbefore.mono (by simp)⟩
  · rintro s l w ⟨hj, before, rfl, hbefore⟩
    exact ⟨hj, before ++ [s], by simp, hbefore.mono (by simp)⟩
  · rintro s l w m ⟨hj, before, hsteps, hbefore⟩ hz - -
    -- The entry of the step under way comes after those there were.
    have hnew : ∀ seq phase, WrittenFor (done ++ before ++ [s])
        (w.journal.entries ++ [s.entry seq phase]) := by
      intro seq phase
      unfold WrittenFor
      rw [List.map_append, List.map_append]
      exact hbefore.append (List.Sublist.refl _)
    have hall : ∀ {es : List Entry}, WrittenFor (done ++ before ++ [s]) es →
        WrittenFor (done ++ steps) es := fun hes => hes.mono (by simp [hsteps])
    have hbegin : (w.journal.begin s).Ordered ∧
        WrittenFor (done ++ steps) (w.journal.begin s).entries := by
      refine ⟨Journal.ordered_begin hj s, ?_⟩
      rw [Journal.entries_begin hj hz]
      exact hall (hnew _ _)
    have hran : (runStep run s w).world.journal.Ordered ∧
        WrittenFor (done ++ before ++ [s]) (runStep run s w).world.journal.entries := by
      refine ⟨ordered_runStep run s hj, ?_⟩
      rw [entries_runStep run hz hj]
      exact hnew _ _
    refine ⟨?_, ⟨hran.1, hall hran.2⟩, fun _ => ⟨hran.1, before ++ [s], by simp [hsteps], ?_⟩⟩
    · intro v hv
      simp only [runStepVisits, List.mem_cons, List.not_mem_nil, or_false] at hv
      rcases hv with rfl | rfl <;> exact hbegin
    · rw [← List.append_assoc]
      exact hran.2

end Run

/-- What is live of such a journal: nothing that has to do with the filter, but for
the filter's own entry, which is the oldest. -/
theorem live_of_writtenFor {removal : Command} {steps a b : List Step} {s : Step}
    (hsteps : FilterFirst removal steps a s b) {es : List Entry} (hes : WrittenFor steps es) :
    (∀ e ∈ es.filter Entry.needsUndo, e.undo ≠ removal ∧ e.op ≠ opNft) ∨
      ∃ e₀ rest, es.filter Entry.needsUndo = e₀ :: rest ∧ e₀.inverse = s.inverse ∧
        ∀ e ∈ rest, e.undo ≠ removal ∧ e.op ≠ opNft := by
  have hother : ∀ {l : List Entry}, (l.map Entry.inverse).Sublist (b.map Step.inverse) →
      ∀ e ∈ l.filter Entry.needsUndo, e.undo ≠ removal ∧ e.op ≠ opNft := by
    intro l hl e he
    have hmem : e.inverse ∈ b.map Step.inverse :=
      hl.subset (List.mem_map_of_mem (List.mem_filter.mp he).1)
    obtain ⟨t, ht, hte⟩ := List.mem_map.mp hmem
    have hop : t.op = e.op := congrArg Prod.fst hte
    have hundo : t.undo = e.undo := congrArg Prod.snd hte
    rw [← hop, ← hundo]
    exact hsteps.after t ht
  unfold WrittenFor at hes
  rw [hsteps.split, List.map_append, List.map_cons, List.sublist_append_iff] at hes
  obtain ⟨l₁, l₂, hl, h₁, h₂⟩ := hes
  obtain ⟨es₁, es₂, rfl, rfl, rfl⟩ := List.map_eq_append_iff.mp hl
  -- Before the filter nothing has an inverse.
  have hnone : es₁.filter Entry.needsUndo = [] := by
    rw [List.filter_eq_nil_iff]
    intro e he hneeds
    obtain ⟨t, ht, hte⟩ := List.mem_map.mp (h₁.subset (List.mem_map_of_mem he))
    have hzero : e.undo = Command.zero :=
      (congrArg Prod.snd hte).symm.trans (hsteps.before t ht).1
    unfold Entry.needsUndo at hneeds
    rw [hzero] at hneeds
    split at hneeds <;> cases hneeds
  rw [List.filter_append, hnone, List.nil_append]
  rcases List.sublist_cons_iff.mp h₂ with h₂ | ⟨l, hl, h₂⟩
  · exact .inl (hother h₂)
  · obtain ⟨e₀, es₃, rfl, he₀, rfl⟩ := List.map_eq_cons_iff.mp hl
    cases hneeds : e₀.needsUndo with
    | false =>
      rw [List.filter_cons, hneeds]
      exact .inl (hother h₂)
    | true =>
      rw [List.filter_cons, hneeds, if_pos rfl]
      exact .inr ⟨e₀, _, rfl, he₀, hother h₂⟩

/-! ## The replay of such a journal -/

section Back

variable {τ : Type} (back : Runner τ)

theorem attempts_append (ts us : List (Bool × Entry)) (st : Replay τ) :
    attempts back (ts ++ us) st =
      attempts back ts st ++
        attempts back us (ts.foldl (fun st t => replayTurn back t st) st) := by
  induction ts generalizing st with
  | nil => rfl
  | cons t ts ih =>
    rw [List.cons_append, attempts, attempts, List.foldl_cons, ih, List.append_assoc]

/-- Entries of the first pass are all attempted, and the failures counted are the
attempts that were not settled. -/
theorem attempts_passOne (es : List Entry) (st : Replay τ) :
    (attempts back (es.map fun e => (false, e)) st).map Attempt.entry = es ∧
      ((es.map fun e => (false, e)).foldl (fun st t => replayTurn back t st) st).report.failed =
        st.report.failed + (attempts back (es.map fun e => (false, e)) st).countP
          fun a => !a.settled := by
  induction es generalizing st with
  | nil => exact ⟨rfl, rfl⟩
  | cons e es ih =>
    obtain ⟨hentries, hfailed⟩ := ih (replayTurn back (false, e) st)
    have hturn := (replayTurn_accounts back (false, e) st).2
    rw [List.map_cons, attempts, List.foldl_cons, hfailed, hturn, List.map_append, hentries,
      List.countP_append]
    exact ⟨rfl, Nat.add_assoc _ _ _⟩

theorem turns_eq (es : List Entry) :
    turns es =
      (((es.filter Entry.needsUndo).filter fun e => e.op ≠ opNft).reverse.map fun e => (false, e)) ++
        ((es.filter Entry.needsUndo).filter fun e => e.op = opNft).reverse.map
          fun e => (true, e) := by
  simp [turns, passOne, passTwo, List.filter_filter, List.filter_reverse, Bool.and_comm]

/-- Attempts of numbered entries that are all settled settle each of them. -/
theorem settledBy_of_all {as : List Attempt} {es : List Entry}
    (hentries : as.map Attempt.entry = es.reverse) (h : ∀ a ∈ as, a.settled = true) {e : Entry}
    (he : e ∈ es) : settledBy as e.seq = true := by
  rw [← List.mem_reverse, ← hentries] at he
  obtain ⟨a, ha, rfl⟩ := List.mem_map.mp he
  rw [settledBy, List.any_eq_true]
  exact ⟨a, ha, by simp [h a ha]⟩

/-- Attempts of numbered entries that settle each of them are all settled. -/
theorem all_of_settledBy {as : List Attempt} {es : List Entry} (hnodup : (es.map Entry.seq).Nodup)
    (hentries : as.map Attempt.entry = es.reverse) (h : ∀ e ∈ es, settledBy as e.seq = true) :
    ∀ a ∈ as, a.settled = true := by
  intro a ha
  have hseq : (as.map fun a => a.entry.seq).Nodup := by
    have hcomp : (as.map fun a => a.entry.seq) = (es.map Entry.seq).reverse := by
      rw [← List.map_reverse, ← hentries, List.map_map]
      rfl
    rw [hcomp, List.nodup_reverse]
    exact hnodup
  have hmem : a.entry ∈ es := by
    rw [← List.mem_reverse, ← hentries]
    exact List.mem_map_of_mem ha
  have hsettled := h a.entry hmem
  rw [settledBy, List.any_eq_true] at hsettled
  obtain ⟨b, hb, hbs⟩ := hsettled
  rw [Bool.and_eq_true, decide_eq_true_eq] at hbs
  obtain rfl : b = a := List.inj_on_of_nodup_map hseq hb ha hbs.2
  exact hbs.1

/-- A last element that occurs nowhere before. -/
theorem split_last {α : Type} {l before after : List α} {x y : α}
    (h : l ++ [x] = before ++ y :: after) (hy : y ∉ l) : before = l ∧ y = x := by
  rcases List.eq_nil_or_concat after with rfl | ⟨rest, z, rfl⟩
  · obtain ⟨hl, hx⟩ := List.append_inj' h rfl
    exact ⟨hl.symm, (List.cons.inj hx).1.symm⟩
  · have hassoc : before ++ y :: (rest ++ [z]) = (before ++ y :: rest) ++ [z] := by simp
    rw [List.concat_eq_append, hassoc] at h
    obtain ⟨hl, -⟩ := List.append_inj' h rfl
    exact absurd (by simp [hl]) hy

variable {removal : Command} {es rest : List Entry} {e₀ : Entry}

/-- The filter held back: it is attempted only after a clean sweep. -/
theorem filterLast_held (hlive : es.filter Entry.needsUndo = e₀ :: rest) (hop : e₀.op = opNft)
    (hrest : ∀ e ∈ rest, e.undo ≠ removal ∧ e.op ≠ opNft) (hundo : e₀.undo = removal)
    {st : Replay τ} (hst : st.report.failed = 0) :
    FilterLast removal es (attempts back (turns es) st) := by
  have hone : (e₀ :: rest).filter (fun e => e.op ≠ opNft) = rest := by
    rw [List.filter_cons_of_neg (by simp [hop]), List.filter_eq_self]
    exact fun e he => by simp [(hrest e he).2]
  have htwo : (e₀ :: rest).filter (fun e => e.op = opNft) = [e₀] := by
    rw [List.filter_cons_of_pos (by simp [hop]), List.filter_eq_nil_iff.mpr]
    exact fun e he => by simp [(hrest e he).2]
  rw [turns_eq, hlive, hone, htwo, attempts_append]
  obtain ⟨hentries, hfailed⟩ := attempts_passOne back rest.reverse st
  generalize attempts back (rest.reverse.map fun e => (false, e)) st = as at hentries hfailed ⊢
  generalize List.foldl _ st _ = st' at hfailed ⊢
  rw [hst, Nat.zero_add] at hfailed
  intro before a after hsplit ha e he hneeds hne
  have hearlier : a ∉ as := by
    intro hin
    have hmem : a.entry ∈ rest := by
      rw [← List.mem_reverse, ← hentries]
      exact List.mem_map_of_mem hin
    exact (hrest _ hmem).1 ha
  have he' : e ∈ rest := by
    have hin : e ∈ e₀ :: rest := by
      rw [← hlive]
      exact List.mem_filter.mpr ⟨he, hneeds⟩
    rcases List.mem_cons.mp hin with rfl | hin
    · exact absurd hundo hne
    · exact hin
  show settledBy before e.seq = true
  rw [List.reverse_singleton, List.map_singleton, attempts, attempts, List.append_nil] at hsplit
  unfold turnAttempts at hsplit
  split at hsplit
  · -- The filter was held, so nothing that was attempted removes it.
    rw [List.append_nil] at hsplit
    exact absurd (by simp [hsplit]) hearlier
  next hclean =>
    obtain ⟨rfl, -⟩ := split_last hsplit hearlier
    have hzero : before.countP (fun a => !a.settled) = 0 := by
      simp only [Bool.true_and, decide_eq_true_eq] at hclean
      omega
    refine settledBy_of_all hentries (fun b hb => ?_) he'
    simpa using List.countP_eq_zero.mp hzero b hb

/-- The filter undone with the rest: its removal is the last attempt, whatever
became of the others. -/
theorem filterLast_swept (hnum : Numbered es) (hlive : es.filter Entry.needsUndo = e₀ :: rest)
    (hop : e₀.op ≠ opNft) (hrest : ∀ e ∈ rest, e.undo ≠ removal ∧ e.op ≠ opNft)
    (hundo : e₀.undo = removal) (st : Replay τ) :
    FilterLast removal es (attempts back (turns es) st) ↔
      ∀ a ∈ attempts back (turns es) st, a.entry.undo ≠ removal → a.settled = true := by
  have hone : (e₀ :: rest).filter (fun e => e.op ≠ opNft) = e₀ :: rest := by
    rw [List.filter_eq_self]
    intro e he
    rcases List.mem_cons.mp he with rfl | he
    · simp [hop]
    · simp [(hrest e he).2]
  have htwo : (e₀ :: rest).filter (fun e => e.op = opNft) = [] := by
    rw [List.filter_eq_nil_iff]
    intro e he
    rcases List.mem_cons.mp he with rfl | he
    · simp [hop]
    · simp [(hrest e he).2]
  have hnodup : (rest.map Entry.seq).Nodup := by
    have hall := Numbered.nodup_seq (hnum.filter Entry.needsUndo)
    rw [hlive, List.map_cons, List.nodup_cons] at hall
    exact hall.2
  have hmem : ∀ e ∈ es, e.needsUndo = true → e.undo ≠ removal → e ∈ rest := by
    intro e he hneeds hne
    have hin : e ∈ e₀ :: rest := by
      rw [← hlive]
      exact List.mem_filter.mpr ⟨he, hneeds⟩
    rcases List.mem_cons.mp hin with rfl | hin
    · exact absurd hundo hne
    · exact hin
  rw [turns_eq, hlive, hone, htwo, List.reverse_nil, List.map_nil, List.append_nil,
    List.reverse_cons, List.map_append, attempts_append]
  obtain ⟨hentries, -⟩ := attempts_passOne back rest.reverse st
  generalize attempts back (rest.reverse.map fun e => (false, e)) st = as at hentries ⊢
  generalize List.foldl _ st _ = st'
  have hlast : ∃ a₀, attempts back ([e₀].map fun e => (false, e)) st' = [a₀] ∧ a₀.entry = e₀ :=
    ⟨{ entry := e₀, reply := (back st'.machine e₀.undo).2 }, rfl, rfl⟩
  obtain ⟨a₀, hlast, ha₀⟩ := hlast
  rw [hlast]
  have hearlier : ∀ a ∈ as, a.entry ∈ rest := by
    intro a ha
    rw [← List.mem_reverse, ← hentries]
    exact List.mem_map_of_mem ha
  constructor
  · intro h a ha hne
    rcases List.mem_append.mp ha with ha | ha
    · refine all_of_settledBy hnodup hentries (fun e he => ?_) a ha
      have hin : e ∈ es.filter Entry.needsUndo := by
        rw [hlive]
        exact List.mem_cons_of_mem _ he
      obtain ⟨hes, hneeds⟩ := List.mem_filter.mp hin
      exact h as a₀ [] rfl (by rw [ha₀, hundo]) e hes hneeds (hrest e he).1
    · rw [List.mem_singleton.mp ha, ha₀] at hne
      exact absurd hundo hne
  · intro h before a after hsplit ha e he hneeds hne
    have hnot : a ∉ as := fun hin => (hrest _ (hearlier a hin)).1 ha
    obtain ⟨rfl, -⟩ := split_last hsplit hnot
    refine settledBy_of_all hentries (fun b hb => ?_) (hmem e he hneeds hne)
    exact h b (List.mem_append_left _ hb) (hrest _ (hearlier b hb)).1

end Back

/-! ## Every run -/

/-- A machine with an empty journal. -/
def World.initial {σ : Type} (m : σ) : World σ := { machine := m, journal := Journal.openOn [] }

/-- The world a process leaves that was killed, or finished, anywhere between the
first step before the engine and the last one after it. -/
def Plan.Left {σ : Type} (p : Plan) (digest : String → String) (run : Runner σ)
    (current : Readings) (m : σ) (w : World σ) : Prop :=
  (∃ v ∈ applyVisits digest run (p.preEngineSteps current) (.initial m), v.world = w) ∨
    ∃ v ∈ applyVisits digest run (p.postEngineSteps current)
      (apply digest run (p.preEngineSteps current) (.initial m)).1, v.world = w

theorem Plan.Left.writtenFor {σ : Type} {p : Plan} {digest : String → String} {run : Runner σ}
    {current : Readings} {m : σ} {w : World σ} (h : p.Left digest run current m w) :
    WrittenFor (p.steps current) w.journal.entries := by
  have hpre : ∀ v ∈ applyVisits digest run (p.preEngineSteps current) (World.initial m),
      v.world.journal.Ordered ∧
        WrittenFor ([] ++ p.preEngineSteps current) v.world.journal.entries :=
    writtenFor_visits digest run Journal.ordered_empty (List.Sublist.refl [])
  rcases h with ⟨v, hv, rfl⟩ | ⟨v, hv, rfl⟩
  · exact (hpre v hv).2.mono (List.sublist_append_left _ _)
  · obtain ⟨hord, hwritten⟩ := apply_of_visits digest run hpre
    exact (writtenFor_visits digest run hord hwritten v hv).2

/-- **The generated filter is removed last**: always on Linux, and on the other
platforms exactly when the journal holds no filter to remove, or every other
inverse of that replay goes through.  A filter whose removal is not attempted
stays in the journal on every platform. -/
theorem filter_last_iff {σ τ : Type} {p : Plan} (hpl : ∀ name, p.platform ≠ .other name)
    {digest : String → String} {run : Runner σ} {current : Readings} {m : σ} {w : World σ}
    (hw : p.Left digest run current m w) (back : Runner τ) (n : τ) (c : Call) :
    FilterKept p.filterRemoval w.journal.entries
        (entriesOf (runCall back c (n, w.journal.records)).2)
        (callAttempts back c (n, w.journal.records)) ∧
      (FilterLast p.filterRemoval w.journal.entries (callAttempts back c (n, w.journal.records)) ↔
        p.OnLinux ∨
          (∀ e ∈ w.journal.entries, e.needsUndo = true → e.undo ≠ p.filterRemoval) ∨
          ∀ a ∈ callAttempts back c (n, w.journal.records),
            a.entry.undo ≠ p.filterRemoval → a.settled = true) := by
  have hnum : Numbered w.journal.entries := numbered_entriesOf w.journal.records
  constructor
  · intro e he hneeds _ hnone
    rw [entries_runCall]
    refine List.mem_map_of_mem (List.mem_filter.mpr ⟨he, ?_⟩)
    rw [settledBy_eq_false hnone, hneeds]
    rfl
  · obtain ⟨a, s, b, hsteps, hop⟩ := p.steps_filterFirst hpl current
    have hlive := live_of_writtenFor hsteps hw.writtenFor
    unfold callAttempts
    show FilterLast p.filterRemoval w.journal.entries
      (attempts back (turns w.journal.entries) _) ↔ _
    rcases hlive with hnone | ⟨e₀, rest, hlive, he₀, hrest⟩
    · -- No entry removes the filter, so no attempt does.
      have habsent : ∀ e ∈ w.journal.entries, e.needsUndo = true → e.undo ≠ p.filterRemoval :=
        fun e he hneeds => (hnone e (List.mem_filter.mpr ⟨he, hneeds⟩)).1
      refine iff_of_true ?_ (.inr (.inl habsent))
      intro before x after hsplit hx
      have hin := (turns_perm _).mem_iff.mp
        (entry_of_mem_attempts back (hsplit ▸ List.mem_append_right before List.mem_cons_self))
      exact absurd hx (hnone _ hin).1
    · have hundo : e₀.undo = p.filterRemoval := (congrArg Prod.snd he₀).trans hsteps.undo
      have hop₀ : e₀.op = s.op := congrArg Prod.fst he₀
      have hpresent : ¬∀ e ∈ w.journal.entries, e.needsUndo = true →
          e.undo ≠ p.filterRemoval := by
        intro habsent
        have hin : e₀ ∈ w.journal.entries.filter Entry.needsUndo := by
          rw [hlive]
          exact List.mem_cons_self
        obtain ⟨hin, hneeds⟩ := List.mem_filter.mp hin
        exact habsent e₀ hin hneeds hundo
      by_cases hlinux : p.OnLinux
      · refine iff_of_true ?_ (.inl hlinux)
        exact filterLast_held back hlive (hop₀.trans (hop.mpr hlinux)) hrest hundo rfl
      · have hother : e₀.op ≠ opNft := fun heq => hlinux (hop.mp (hop₀.symm.trans heq))
        rw [filterLast_swept back hnum hlive hother hrest hundo]
        exact ⟨fun h => .inr (.inr h), fun h =>
          (h.resolve_left hlinux).resolve_left hpresent⟩

/-- The plan of a cabled machine for a server on IPv4. -/
def v4Plan (pl : Platform) : Plan :=
  match planNetwork (macFacts routedV6) [.v4 0xCB007107#32] (platformOptions pl) with
  | .ok p => p
  | .error _ => {}

/-- The world after the steps before the engine, on a machine that takes every
command. -/
def preparedWorld (pl : Platform) : World Unit :=
  (apply id obliging ((v4Plan pl).preEngineSteps fun _ => none) (.initial ())).1

/-- A machine that removes no route. -/
def routeKeeping : Runner Unit := fun _ c =>
  ((), ({}, if "route" ∈ c.args ∨ c.path = binRoute then some "Operation not permitted" else none))

theorem preparedWorld_left (pl : Platform) :
    (v4Plan pl).Left id obliging (fun _ => none) () (preparedWorld pl) :=
  .inl ⟨_, List.mem_of_getLast? (applyVisits_last id obliging _ _), rfl⟩

/-- On Linux the route that stays keeps the ruleset loaded. -/
theorem filter_last_linux :
    (callAttempts routeKeeping .teardown ((), (preparedWorld .linux).journal.records)).any
        (fun a => !a.settled) = true ∧
      FilterLast (v4Plan .linux).filterRemoval (preparedWorld .linux).journal.entries
        (callAttempts routeKeeping .teardown ((), (preparedWorld .linux).journal.records)) := by
  have hplat : (v4Plan .linux).platform = .linux := by decide
  have hiff := (filter_last_iff (fun name h => by rw [hplat] at h; cases h)
    (preparedWorld_left .linux) routeKeeping () .teardown).2
  exact ⟨by decide, hiff.mpr (.inl (.inr hplat))⟩

/-- The filter goes although the route stays: its removal went through, and the
journal that is left has the route and not the filter. -/
def FilterGoesFirst (pl : Platform) : Prop :=
  planNetwork (macFacts routedV6) [.v4 0xCB007107#32] (platformOptions pl) = .ok (v4Plan pl) ∧
    (callAttempts routeKeeping .teardown ((), (preparedWorld pl).journal.records)).any
      (fun a => a.entry.undo = (v4Plan pl).filterRemoval && a.settled) = true ∧
    (entriesOf (runCall routeKeeping .teardown
      ((), (preparedWorld pl).journal.records)).2).map Entry.op = [opRoute]

theorem filter_first_elsewhere : FilterGoesFirst .darwin ∧ FilterGoesFirst .windows := by
  refine ⟨⟨rfl, ?_, ?_⟩, rfl, ?_, ?_⟩
  all_goals decide

end Caspian.Netcfg
