import Caspian.Hotspot.Missed

/-!
# The radios are left as they were found

`Start` unblocks the wireless radios and remembers which ones it unblocked;
`Stop` blocks those again.  What the machine is owed is `cleared`, the radios
whose block `rfkill unblock` really took away; what the program remembers is
`unblocked`, written only after a reading that shows every radio on, replaced
by the next start that unblocks something, and forgotten as soon as a stop
begins.

The program never blocks a radio it is not owed for.  The other direction has
a condition, and `stop_restored_iff` gives it exactly: a stop that succeeds
has put every radio back if and only if each one that is owed and still on is
remembered and not held by its hardware switch.
-/

namespace Caspian.Hotspot

open Verified Verified.Action

/-! ## What is not about the radios -/

/-- The radios, what is owed and what is remembered have not changed. -/
structure Still (s s' : Supervisor) : Prop where
  radios : s'.machine.radios = s.machine.radios
  cleared : s'.machine.cleared = s.machine.cleared
  unblocked : s'.unblocked = s.unblocked

variable {s'' : Supervisor}

theorem Still.trans {s s' : Supervisor} (h : Still s s') (h' : Still s' s'') : Still s s'' :=
  ⟨h'.radios.trans h.radios, h'.cleared.trans h.cleared, h'.unblocked.trans h.unblocked⟩

theorem Op.apply_radios {o : Op} (h : o.onRadio = false) (m : Machine) :
    (o.apply m).radios = m.radios ∧ (o.apply m).cleared = m.cleared := by
  cases o with
  | spawn k pid =>
    show (m.spawn k pid).radios = m.radios ∧ (m.spawn k pid).cleared = m.cleared
    unfold Machine.spawn
    split <;> exact ⟨rfl, rfl⟩
  | unblock obeys | block obeys i => cases h
  | _ => exact ⟨rfl, rfl⟩

theorem Steps.radios_eq {ds : List Daemon} {m m' : Machine} (h : Steps ds false m m') :
    m'.radios = m.radios ∧ m'.cleared = m.cleared := by
  refine h.keeps (P := fun n => n.radios = m.radios ∧ n.cleared = m.cleared) ?_ ?_ ⟨rfl, rfl⟩
  · exact fun n ends records hn => hn
  · intro n o ho hn
    have hoff : o.onRadio = false := by
      cases hon : o.onRadio with
      | false => rfl
      | true => cases ho.radio hon
    obtain ⟨hradios, hcleared⟩ := Op.apply_radios hoff n
    rw [hradios, hcleared]
    exact hn

theorem Still.of_does {ε α : Type} {ds : List Daemon} {x : Action ε Supervisor α}
    (h : Does ds false x) (s : Supervisor) : Still s (x s).2 := by
  obtain ⟨hradios, hcleared⟩ := (h.steps s).radios_eq
  exact ⟨hradios, hcleared, h.record rfl s⟩

/-! ## Reading the radios -/

namespace Supervisor

variable {env : Env} {s s' : Supervisor}

theorem still_rfkillList (env : Env) (s : Supervisor) : Still s (rfkillList env s).2 :=
  Still.of_does (does_rfkillList env : Does [] false _) s

/-- A reading that goes through is the truth. -/
theorem rfkillList_ok {devs : List RfkillDevice} (h : rfkillList env s = (.ok devs, s')) :
    devs = s.machine.radios.list := by
  obtain ⟨res, t, hrun, h⟩ := of_bind_ok h
  have hstdout : res.stdout = s.machine.radios.listing := by
    have hvalue : answer (env.turns s.machine.clock)
        { commandResult (env.turns s.machine.clock) with
          stdout := s.machine.radios.listing } = .ok res := congrArg Prod.fst hrun
    unfold answer at hvalue
    split at hvalue
    · cases hvalue
    · rw [← Except.ok.inj hvalue]
  split at h
  · cases (Prod.mk.inj h).1
  · have hdevs := Except.ok.inj (Prod.mk.inj h).1
    rw [← hdevs, hstdout, parseRfkillList_listing]

end Supervisor

variable {d : RfkillDevice}

/-- Two radios of one index are one. -/
theorem Radios.eq_of_index (r : Radios) {e : RfkillDevice} (hd : d ∈ r.list) (he : e ∈ r.list)
    (h : d.index = e.index) : d = e :=
  List.inj_on_of_nodup_map r.distinct hd he h

theorem isOn_iff (r : Radios) (i : Int) :
    Supervisor.isOn (wirelessDevices r.list) i = true ↔
      ∃ d ∈ r.list, d.wireless = true ∧ d.index = i ∧ d.softBlocked = false ∧
        d.hardBlocked = false := by
  have hfind : ∀ d, Supervisor.deviceAt (wirelessDevices r.list) i = some d ↔
      d ∈ r.list ∧ d.wireless = true ∧ d.index = i := by
    intro d
    constructor
    · intro h
      have hmem := List.mem_of_find?_eq_some h
      have hindex : d.index = i := of_decide_eq_true (List.find?_some h :)
      rw [List.mem_reverse, wirelessDevices, List.mem_filter] at hmem
      exact ⟨hmem.1, hmem.2, hindex⟩
    · rintro ⟨hmem, hwireless, hindex⟩
      cases hfound : Supervisor.deviceAt (wirelessDevices r.list) i with
      | none =>
        have hnone := List.find?_eq_none.mp hfound d (by
          rw [List.mem_reverse, wirelessDevices, List.mem_filter]
          exact ⟨hmem, hwireless⟩)
        exact absurd (decide_eq_true hindex) hnone
      | some e =>
        have hemem := List.mem_of_find?_eq_some hfound
        have heindex : e.index = i := of_decide_eq_true (List.find?_some hfound :)
        rw [List.mem_reverse, wirelessDevices, List.mem_filter] at hemem
        rw [r.eq_of_index hmem hemem.1 (hindex.trans heindex.symm)]
  unfold Supervisor.isOn
  rw [Option.any_eq_true]
  constructor
  · rintro ⟨d, hd, hoff⟩
    obtain ⟨hmem, hwireless, hindex⟩ := (hfind d).mp hd
    simp only [Bool.and_eq_true, Bool.not_eq_true'] at hoff
    exact ⟨d, hmem, hwireless, hindex, hoff.1, hoff.2⟩
  · rintro ⟨d, hmem, hwireless, hindex, hsoft, hhard⟩
    exact ⟨d, (hfind d).mpr ⟨hmem, hwireless, hindex⟩, by simp [hsoft, hhard]⟩

/-! ## Unblocking -/

/-- What a start may do to the radios: some are unblocked, what is owed grows,
and what is remembered is either what it was or owed in full. -/
structure Unblocks (s s' : Supervisor) : Prop where
  radios : ∃ pick, s'.machine.radios.list = s.machine.radios.list.map (setSoft pick false)
  cleared : s.machine.cleared ⊆ s'.machine.cleared
  unblocked : s'.unblocked = s.unblocked ∨ ∀ d ∈ s'.unblocked, d.index ∈ s'.machine.cleared

theorem setSoft_none (ds : List RfkillDevice) (on : Bool) :
    ds.map (setSoft (fun _ => false) on) = ds := by
  have hid : setSoft (fun _ => false) on = id := funext fun d => rfl
  rw [hid, List.map_id]

theorem Unblocks.of_still {s s' : Supervisor} (h : Still s s') : Unblocks s s' := by
  constructor
  case radios => exact ⟨fun _ => false, by rw [h.radios, setSoft_none]⟩
  case cleared => rw [h.cleared]; exact List.Subset.refl _
  case unblocked => exact Or.inl h.unblocked

theorem Unblocks.still {s s' : Supervisor} (h : Unblocks s s') (h' : Still s' s'') :
    Unblocks s s'' := by
  constructor
  case radios =>
    rw [h'.radios]
    exact h.radios
  case cleared =>
    rw [h'.cleared]
    exact h.cleared
  case unblocked =>
    rw [h'.cleared, h'.unblocked]
    exact h.unblocked

theorem Still.unblocks {s s' : Supervisor} (h : Still s s') (h' : Unblocks s' s'') :
    Unblocks s s'' := by
  obtain ⟨hradios, hcleared, hunblocked⟩ := h'
  rw [h.radios] at hradios
  rw [h.cleared] at hcleared
  rw [h.unblocked] at hunblocked
  exact ⟨hradios, hcleared, hunblocked⟩

variable {t : Supervisor}

namespace Supervisor

variable {env : Env} {s s' : Supervisor}

/-- What `rfkill unblock` does. -/
theorem runRfkillUnblock_eq (env : Env) (s : Supervisor) :
    let obeys := (env.turns s.machine.clock).obeys
    let after := (runRfkillUnblock env s).2
    after.machine.radios = s.machine.radios.setSoft (fun d => d.wireless && obeys d.index) false ∧
    after.machine.cleared = s.machine.cleared ++ (s.machine.radios.list.filter fun d =>
      d.wireless && obeys d.index && d.softBlocked).map RfkillDevice.index ∧
    after.unblocked = s.unblocked :=
  ⟨rfl, rfl, rfl⟩

theorem unblocks_runRfkillUnblock (env : Env) (s : Supervisor) : Unblocks s (runRfkillUnblock env s).2 := by
  obtain ⟨hradios, hcleared, hunblocked⟩ := runRfkillUnblock_eq env s
  constructor
  case radios => exact ⟨_, by rw [hradios]; rfl⟩
  case cleared => rw [hcleared]; exact List.subset_append_left _ _
  case unblocked => exact Or.inl hunblocked

/-- A radio that was blocked and is read as on was unblocked by the command. -/
theorem cleared_of_on (hd : d ∈ s.machine.radios.list) (hwireless : d.wireless = true)
    (hsoft : d.softBlocked = true)
    (hon : ∀ e ∈ wirelessDevices (runRfkillUnblock env s).2.machine.radios.list, e.softBlocked = false) :
    d.index ∈ (runRfkillUnblock env s).2.machine.cleared := by
  obtain ⟨hradios, hcleared, -⟩ := runRfkillUnblock_eq env s
  rw [hcleared]
  have hafter : setSoft (fun d => d.wireless && (env.turns s.machine.clock).obeys d.index) false d ∈
      wirelessDevices (runRfkillUnblock env s).2.machine.radios.list := by
    rw [hradios, wirelessDevices, List.mem_filter]
    exact ⟨List.mem_map_of_mem hd, by rw [setSoft_wireless]; exact hwireless⟩
  have hobeys : (env.turns s.machine.clock).obeys d.index = true := by
    have hoff := hon _ hafter
    by_contra hno
    rw [Bool.not_eq_true] at hno
    rw [setSoft, if_neg (by simp [hno]), hsoft] at hoff
    cases hoff
  apply List.mem_append_right
  exact List.mem_map_of_mem (List.mem_filter.mpr ⟨hd, by simp [hwireless, hsoft, hobeys]⟩)

theorem unblocks_unblockRadio (st : RadioState) {wereBlocked : List RfkillDevice}
    (hwere : ∀ d ∈ wereBlocked, d ∈ s.machine.radios.list ∧ d.wireless = true ∧
      d.softBlocked = true) :
    Unblocks s (unblockRadio env st wereBlocked s).2 := by
  have hfirst := unblocks_runRfkillUnblock env s
  cases hrun : runRfkillUnblock env s with
  | mk r t =>
    rw [hrun] at hfirst
    rw [unblockRadio, bind_ok (attempt_run hrun)]
    cases r with
    | error e => exact hfirst
    | ok _ =>
      have hsecond := still_rfkillList env t
      cases hread : rfkillList env t with
      | mk r t' =>
        rw [hread] at hsecond
        have hboth : Unblocks s t' := hfirst.still hsecond
        dsimp only
        rw [bind_ok (attempt_run hread)]
        cases r with
        | error e => exact hboth
        | ok devs =>
          dsimp only
          split
          · exact hboth
          · -- every radio is on: what was blocked before is owed
            rename_i hon
            refine ⟨hboth.radios, hboth.cleared, Or.inr ?_⟩
            intro d hd
            obtain ⟨hmem, hwireless, hsoft⟩ := hwere d hd
            show d.index ∈ t'.machine.cleared
            rw [hsecond.cleared, ← show (runRfkillUnblock env s).2 = t by rw [hrun]]
            apply cleared_of_on hmem hwireless hsoft
            rw [show (runRfkillUnblock env s).2 = t by rw [hrun], ← rfkillList_ok hread]
            simp only [radioStateFrom, not_or, List.any_eq_true, not_exists, not_and,
              Bool.not_eq_true] at hon
            exact hon.1

/-- A start unblocks radios and blocks none, and remembers only what is owed. -/
theorem unblocks_ensureRadioUnblocked (env : Env) (s : Supervisor) :
    Unblocks s (ensureRadioUnblocked env s).2 := by
  have hstill := still_rfkillList env s
  cases hread : rfkillList env s with
  | mk r t =>
    rw [hread] at hstill
    rw [ensureRadioUnblocked, bind_ok (attempt_run hread)]
    have hsame : Unblocks s t := Unblocks.of_still hstill
    cases r with
    | error e => exact hsame
    | ok devs =>
      dsimp only
      split
      · exact hsame
      split
      · exact hsame
      split
      · apply hstill.unblocks
        apply unblocks_unblockRadio
        intro d hd
        rw [List.mem_filter, wirelessDevices, List.mem_filter, rfkillList_ok hread] at hd
        simp only [Bool.and_eq_true] at hd
        rw [hstill.radios]
        exact ⟨hd.1.1, hd.1.2, hd.2.1⟩
      · exact hsame

theorem unblocks_startFiles (env : Env) (files : Daemon → String) (s : Supervisor) :
    Unblocks s (startFiles env files s).2 := by
  have hfirst := unblocks_ensureRadioUnblocked env s
  cases hrun : ensureRadioUnblocked env s with
  | mk r t =>
    rw [hrun] at hfirst
    cases r with
    | error e =>
      rw [startFiles, bind_error (wrap_error hrun _)]
      exact hfirst
    | ok st =>
      rw [startFiles, bind_ok (wrap_ok hrun _)]
      have hrest : Does [.hostapd, .dnsmasq] false (startDaemons env files st) :=
        does_startDaemons env files st (by intro k; cases k <;> decide)
      exact hfirst.still (Still.of_does hrest t)

/-! ## Blocking again -/

/-- Setting the block of some radios and then of others. -/
theorem setSoft_setSoft (hit hit' : Int → Bool) (d : RfkillDevice) :
    setSoft (fun d => hit' d.index) true (setSoft (fun d => hit d.index) true d) =
      setSoft (fun d => hit d.index || hit' d.index) true d := by
  cases h : hit d.index with
  | false => simp [setSoft, h]
  | true =>
    cases h' : hit' d.index with
    | false | true => simp [setSoft, h, h']

theorem runRfkillBlock_eq (env : Env) (i : Int) (s : Supervisor) :
    (runRfkillBlock env i s).2.unblocked = s.unblocked ∧
    (runRfkillBlock env i s).2.machine.radios.list = s.machine.radios.list.map
      (setSoft (fun d => (env.turns s.machine.clock).obeys i && decide (d.index = i)) true) := by
  refine ⟨rfl, ?_⟩
  show (Machine.block _ _ i).radios.list = _
  unfold Machine.block
  cases hobeys : (env.turns s.machine.clock).obeys i with
  | false => simp only [Bool.false_eq_true, if_false, Bool.false_and, setSoft_none]; rfl
  | true => simp only [if_true, Bool.true_and]; rfl

/-- The loop blocks radios that were read as on and are remembered. -/
theorem blockAll_spec (env : Env) (now ours : List RfkillDevice) (s : Supervisor) :
    ∃ errs t, blockAll env now ours s = (.ok errs, t) ∧ t.unblocked = s.unblocked ∧
      ∃ hit : Int → Bool,
        t.machine.radios.list =
          s.machine.radios.list.map (setSoft (fun d => hit d.index) true) ∧
        ∀ i, hit i = true → isOn now i = true ∧ ∃ d ∈ ours, d.index = i := by
  induction ours generalizing s with
  | nil => exact ⟨[], s, rfl, rfl, fun _ => false, (setSoft_none _ _).symm, fun _ h => (nomatch h)⟩
  | cons d ours ih =>
    by_cases hon : isOn now d.index = true
    · obtain ⟨hrecord, hlist⟩ := runRfkillBlock_eq env d.index s
      obtain ⟨errs, t, hrun, hrecord', hit, hlist', hhit⟩ := ih (runRfkillBlock env d.index s).2
      have hblock : runRfkillBlock env d.index s =
          ((runRfkillBlock env d.index s).1, (runRfkillBlock env d.index s).2) := rfl
      have hloop : ∃ errs, blockAll env now (d :: ours) s = (.ok errs, t) := by
        rw [blockAll, if_pos hon, bind_ok (attempt_run hblock), bind_ok hrun]
        cases (runRfkillBlock env d.index s).1 with
        | error e | ok _ => exact ⟨_, rfl⟩
      obtain ⟨errs', hloop⟩ := hloop
      refine ⟨errs', t, hloop, hrecord'.trans hrecord,
        fun i => ((env.turns s.machine.clock).obeys d.index && decide (i = d.index)) || hit i,
        ?_, ?_⟩
      · rw [hlist', hlist, List.map_map]
        apply List.map_congr_left
        intro e _
        exact setSoft_setSoft
          (fun i => (env.turns s.machine.clock).obeys d.index && decide (i = d.index)) hit e
      · intro i hi
        rcases Bool.or_eq_true_iff.mp hi with hi | hi
        · have hindex : i = d.index := of_decide_eq_true (Bool.and_eq_true_iff.mp hi).2
          rw [hindex]
          exact ⟨hon, d, List.mem_cons_self, rfl⟩
        · obtain ⟨hon', e, he, hindex⟩ := hhit i hi
          exact ⟨hon', e, List.mem_cons_of_mem _ he, hindex⟩
    · obtain ⟨errs, t, hrun, hrecord, hit, hlist, hhit⟩ := ih s
      refine ⟨errs, t, ?_, hrecord, hit, hlist, ?_⟩
      · rw [blockAll, if_neg hon]
        exact hrun
      · intro i hi
        obtain ⟨hon', e, he, hindex⟩ := hhit i hi
        exact ⟨hon', e, List.mem_cons_of_mem _ he, hindex⟩

/-- What a stop does to the radios: it blocks some of those that are on and
remembered, and one without errors read them all as blocked afterwards. -/
structure Reblocked (s t : Supervisor) (errs : List String) : Prop where
  unblocked : t.unblocked = []
  radios : ∃ hit : Int → Bool,
    t.machine.radios.list = s.machine.radios.list.map (setSoft (fun d => hit d.index) true) ∧
    ∀ i, hit i = true →
      isOn (wirelessDevices s.machine.radios.list) i = true ∧ ∃ d ∈ s.unblocked, d.index = i
  confirmed : errs = [] →
    ∀ d ∈ s.unblocked, isOn (wirelessDevices t.machine.radios.list) d.index = false

theorem reblocked_of_still {errs : List String} (h : Still { s with unblocked := [] } t)
    (hconfirmed : errs = [] → s.unblocked = []) : Reblocked s t errs := by
  constructor
  case unblocked => exact h.unblocked
  case radios =>
    refine ⟨fun _ => false, ?_, fun _ hi => (nomatch hi)⟩
    rw [h.radios, setSoft_none]
  case confirmed =>
    intro herrs d hd
    rw [hconfirmed herrs] at hd
    cases hd

/-- The record is read and forgotten, and the rest does not look at it. -/
theorem reblockRadio_run (env : Env) (s : Supervisor) :
    reblockRadio env s = (if s.unblocked = [] then pure [] else do
      match ← attempt (rfkillList env) with
      | .error e =>
        return ["hotspot: reading the radio state before switching it back off: " ++ e]
      | .ok devs => do
          let errs ← blockAll env (wirelessDevices devs) s.unblocked
          if errs ≠ [] then return errs
          else do
            match ← attempt (rfkillList env) with
            | .error e => return ["hotspot: confirming the radio was switched back off: " ++ e]
            | .ok devs => return stillOn (wirelessDevices devs) s.unblocked :
      Action String Supervisor (List String)) { s with unblocked := [] } := rfl

theorem reblockRadio_spec (env : Env) (s : Supervisor) :
    ∃ errs t, reblockRadio env s = (.ok errs, t) ∧ Reblocked s t errs := by
  rw [reblockRadio_run]
  split
  · rename_i hempty
    exact ⟨[], _, rfl, reblocked_of_still ⟨rfl, rfl, rfl⟩ fun _ => hempty⟩
  · have hstill := still_rfkillList env { s with unblocked := [] }
    cases hread : rfkillList env { s with unblocked := [] } with
    | mk r t1 =>
      rw [hread] at hstill
      rw [bind_ok (attempt_run hread)]
      cases r with
      | error e => exact ⟨_, t1, rfl, reblocked_of_still hstill fun h => (nomatch h)⟩
      | ok devs =>
        have hdevs := rfkillList_ok hread
        have hdevs : devs = s.machine.radios.list := hdevs
        obtain ⟨errs, t2, hloop, hrecord, hit, hlist, hhit⟩ :=
          blockAll_spec env (wirelessDevices devs) s.unblocked t1
        have hlist2 : t2.machine.radios.list =
            s.machine.radios.list.map (setSoft (fun d => hit d.index) true) := by
          rw [hlist, hstill.radios]
        rw [hdevs] at hhit
        dsimp only
        rw [bind_ok hloop]
        split
        · rename_i herrs
          exact ⟨errs, t2, rfl, hrecord.trans hstill.unblocked, ⟨hit, hlist2, hhit⟩,
            fun h => absurd h herrs⟩
        · have hstill' := still_rfkillList env t2
          cases hread' : rfkillList env t2 with
          | mk r t3 =>
            rw [hread'] at hstill'
            rw [bind_ok (attempt_run hread')]
            have hlist3 : t3.machine.radios.list =
                s.machine.radios.list.map (setSoft (fun d => hit d.index) true) := by
              rw [hstill'.radios, hlist2]
            have hrecord3 : t3.unblocked = [] :=
              hstill'.unblocked.trans (hrecord.trans hstill.unblocked)
            cases r with
            | error e =>
              exact ⟨_, t3, rfl, hrecord3, ⟨hit, hlist3, hhit⟩, fun h => (nomatch h)⟩
            | ok devs' =>
              refine ⟨_, t3, rfl, hrecord3, ⟨hit, hlist3, hhit⟩, ?_⟩
              intro hnone d hd
              rw [hstill'.radios, ← rfkillList_ok hread']
              by_contra hon
              rw [Bool.not_eq_false] at hon
              have hmem : d ∈ s.unblocked.filter fun d =>
                  isOn (wirelessDevices devs') d.index := List.mem_filter.mpr ⟨hd, hon⟩
              rw [List.map_eq_nil_iff.mp hnone] at hmem
              cases hmem

theorem stopDaemon_spec (env : Env) (k : Daemon) (s : Supervisor) :
    ∃ errs t, stopDaemon env k s = (.ok errs, t) ∧ Still s t := by
  have hstill : Still s (stopDaemon env k s).2 :=
    Still.of_does (does_stopDaemon env (List.mem_singleton_self k) : Does [k] false _) s
  exact ⟨_, _, rfl, hstill⟩

theorem stop_spec (env : Env) (s : Supervisor) : ∃ errs t, stop env s = (.ok errs, t) ∧ Reblocked s t errs := by
  obtain ⟨a, t1, hap, hstill1⟩ := stopDaemon_spec env .hostapd s
  obtain ⟨b, t2, hdns, hstill2⟩ := stopDaemon_spec env .dnsmasq t1
  obtain ⟨c, t3, hradio, hre⟩ := reblockRadio_spec env t2
  have hstill : Still s t2 := hstill1.trans hstill2
  refine ⟨a ++ b ++ c, t3, ?_, ?_⟩
  · rw [stop, bind_ok hap, bind_ok hdns, bind_ok hradio]
    rfl
  · obtain ⟨hunblocked, hradios, hconfirmed⟩ := hre
    rw [hstill.radios, hstill.unblocked] at hradios
    rw [hstill.unblocked] at hconfirmed
    refine ⟨hunblocked, hradios, fun herrs => hconfirmed ?_⟩
    exact (List.append_eq_nil_iff.mp herrs).2

end Supervisor

/-! ## What is put back -/

/-- Every wireless radio that was owed when the stop began, and is there, is
blocked. -/
def Machine.Restored (before after : Machine) : Prop :=
  ∀ d ∈ after.radios.list, d.wireless = true → d.index ∈ before.cleared → d.softBlocked = true

/-- Every wireless radio that is owed is blocked already, or is remembered and
not held by its hardware switch. -/
def Supervisor.CanRestore (s : Supervisor) : Prop :=
  ∀ d ∈ s.machine.radios.list, d.wireless = true → d.index ∈ s.machine.cleared →
    d.softBlocked = true ∨ (d.hardBlocked = false ∧ ∃ o ∈ s.unblocked, o.index = d.index)

/-- A radio that was on and is blocked afterwards was owed. -/
def Machine.BlocksOwed (before after : Machine) : Prop :=
  ∀ d ∈ before.radios.list, ∀ d' ∈ after.radios.list, d'.index = d.index →
    d.softBlocked = false → d'.softBlocked = true → d.index ∈ before.cleared

namespace Supervisor

variable {env : Env} {s s' : Supervisor}

/-- What is remembered is owed. -/
def Owed (s : Supervisor) : Prop := ∀ d ∈ s.unblocked, d.index ∈ s.machine.cleared

theorem owed_advance (h : s.Owed) (e : Event) : (advance env s e).Owed := by
  cases e with
  | start plan =>
    have hstart := unblocks_startFiles env plan.files s
    intro d hd
    rcases hstart.unblocked with hsame | howed
    · exact hstart.cleared (h d (hsame ▸ hd))
    · exact howed d hd
  | stop =>
    obtain ⟨errs, t, hstop, hre⟩ := stop_spec env s
    have hnone : (stopped env s).unblocked = [] := by
      rw [stopped, hstop]
      split
      · rename_i hrun
        rw [← (Prod.mk.inj hrun).2]
        exact hre.unblocked
      · rename_i hrun
        rw [← (Prod.mk.inj hrun).2]
        exact hre.unblocked
    intro d hd
    have hd : d ∈ (stopped env s).unblocked := hd
    rw [hnone] at hd
    cases hd
  | elsewhere e => exact h

theorem owed_run (es : List Event) (h : s.Owed) : (run env s es).Owed := by
  induction es generalizing s with
  | nil => exact h
  | cons e es ih => exact ih (owed_advance h e)

theorem owed_boot (radios : Radios) : (boot radios).Owed := by
  intro d hd
  cases hd

/-- A start blocks nothing. -/
theorem startFiles_blocksOwed (files : Daemon → String) (s : Supervisor) :
    s.machine.BlocksOwed (startFiles env files s).2.machine := by
  obtain ⟨pick, hlist⟩ := (unblocks_startFiles env files s).radios
  intro d hd d' hd' hindex hoff hon
  rw [hlist] at hd'
  obtain ⟨e, he, rfl⟩ := List.mem_map.mp hd'
  rw [setSoft_index] at hindex
  rw [s.machine.radios.eq_of_index he hd hindex] at hon
  unfold setSoft at hon
  split at hon
  · cases hon
  · rw [hoff] at hon
    cases hon

/-- A stop blocks only what is remembered, and that is owed. -/
theorem Reblocked.blocksOwed {errs : List String} (h : Reblocked s t errs) (howed : s.Owed) :
    s.machine.BlocksOwed t.machine := by
  obtain ⟨hit, hlist, hhit⟩ := h.radios
  intro d hd d' hd' hindex hoff hon
  rw [hlist] at hd'
  obtain ⟨e, he, rfl⟩ := List.mem_map.mp hd'
  rw [setSoft_index] at hindex
  rw [s.machine.radios.eq_of_index he hd hindex] at hon
  unfold setSoft at hon
  split at hon
  · rename_i hpick
    obtain ⟨-, o, ho, hoindex⟩ := hhit d.index hpick
    rw [← hoindex]
    exact howed o ho
  · rw [hoff] at hon
    cases hon

/-- **What a stop without errors leaves of a radio**: it is blocked if it was,
or if it is a wireless one that is remembered and not held by its hardware
switch. -/
theorem Reblocked.softBlocked_iff (h : Reblocked s t []) (hd : d ∈ s.machine.radios.list)
    (hwireless : d.wireless = true) {d' : RfkillDevice} (hd' : d' ∈ t.machine.radios.list)
    (hindex : d'.index = d.index) :
    d'.softBlocked = true ↔ d.softBlocked = true ∨
      (d.hardBlocked = false ∧ ∃ o ∈ s.unblocked, o.index = d.index) := by
  obtain ⟨hit, hlist, hhit⟩ := h.radios
  have hmem := hd'
  rw [hlist] at hmem
  obtain ⟨e, he, rfl⟩ := List.mem_map.mp hmem
  rw [setSoft_index] at hindex
  obtain rfl := s.machine.radios.eq_of_index he hd hindex
  cases hpick : hit e.index with
  | true =>
    obtain ⟨hon, o, ho, hoindex⟩ := hhit e.index hpick
    obtain ⟨f, hf, -, hfindex, hfsoft, hfhard⟩ := (isOn_iff _ _).mp hon
    obtain rfl := s.machine.radios.eq_of_index hf hd hfindex
    refine iff_of_true ?_ (Or.inr ⟨hfhard, o, ho, hoindex⟩)
    rw [setSoft, if_pos hpick]
  | false =>
    have hsame : setSoft (fun d => hit d.index) true e = e := by
      rw [setSoft, if_neg (by rw [hpick]; decide)]
    rw [hsame]
    constructor
    · exact Or.inl
    · rintro (hsoft | ⟨hhard, o, ho, hoindex⟩)
      · exact hsoft
      · -- it was read back as not on, so it was blocked before
        have hoff := h.confirmed rfl o ho
        by_contra hsoft
        rw [Bool.not_eq_true] at hsoft
        have hon : isOn (wirelessDevices t.machine.radios.list) o.index = true := by
          rw [isOn_iff]
          exact ⟨e, hsame ▸ hd', hwireless, hoindex.symm, hsoft, hhard⟩
        rw [hon] at hoff
        cases hoff

theorem Reblocked.restored_iff (h : Reblocked s t []) :
    s.machine.Restored t.machine ↔ s.CanRestore := by
  obtain ⟨hit, hlist, -⟩ := h.radios
  constructor
  · intro hrestored d hd hwireless howed
    have hd' : setSoft (fun d => hit d.index) true d ∈ t.machine.radios.list := by
      rw [hlist]
      exact List.mem_map_of_mem hd
    apply (h.softBlocked_iff hd hwireless hd' (setSoft_index _ _ _)).mp
    apply hrestored _ hd'
    · rw [setSoft_wireless]
      exact hwireless
    · rw [setSoft_index]
      exact howed
  · intro hcan d' hd' hwireless howed
    have hmem := hd'
    rw [hlist] at hmem
    obtain ⟨d, hd, rfl⟩ := List.mem_map.mp hmem
    rw [setSoft_wireless] at hwireless
    rw [setSoft_index] at howed
    exact (h.softBlocked_iff hd hwireless hd' (setSoft_index _ _ _)).mpr (hcan d hd hwireless howed)

/-! ## Two runs -/

def phy (i : Int) (soft : Bool) : RfkillDevice where
  index := i
  name := "phy"
  type := "Wireless LAN"
  softBlocked := soft

/-- A radio, and perhaps a second one, each blocked or not. -/
def phys (a : Bool) (b : Option Bool) : Radios where
  list := phy 0 a :: (b.map (phy 1)).toList
  listed := by
    intro d hd
    rcases List.mem_cons.mp hd with rfl | hd
    · cases a <;> decide
    · cases b with
      | none => cases hd
      | some b =>
        rw [List.mem_singleton.mp hd]
        cases b <;> decide
  distinct := by cases b <;> simp [phy]

/-- Some calls fail. -/
def failingAt (calls : List Nat) : Env := { turns := demoTurns calls [] }

/-- **The radios are left as they were found**, exactly when every wireless
radio that is owed when a stop begins is blocked already, or is remembered and
not held by its hardware switch.  In every run a stop that succeeds has then,
and only then, put back every radio that is owed and present; and neither a
start nor a stop, whatever becomes of it, blocks a radio that is not owed. -/
theorem stop_restored_iff (env : Env) (radios : Radios) (es : List Event) :
    let s := run env (boot radios) es
    (∀ t, stop env s = (.ok [], t) → (s.machine.Restored t.machine ↔ s.CanRestore)) ∧
    s.machine.BlocksOwed (stop env s).2.machine ∧
    ∀ plan, s.machine.BlocksOwed (start env plan s).2.machine := by
  intro s
  have howed : s.Owed := owed_run es (owed_boot radios)
  obtain ⟨errs, t, hstop, hre⟩ := stop_spec env s
  refine ⟨?_, ?_, fun plan => startFiles_blocksOwed plan.files s⟩
  · intro t' hstop'
    rw [hstop] at hstop'
    obtain ⟨herrs, rfl⟩ := Prod.mk.inj hstop'
    rw [Except.ok.inj herrs] at hre
    exact hre.restored_iff
  · rw [hstop]
    exact hre.blocksOwed howed

instance (before after : Machine) : Decidable (before.Restored after) :=
  inferInstanceAs (Decidable (∀ d ∈ after.radios.list, _))

instance (s : Supervisor) : Decidable s.CanRestore :=
  inferInstanceAs (Decidable (∀ d ∈ s.machine.radios.list, _))

/-- A machine whose radio is blocked is started. -/
def startedOnce : Supervisor :=
  run (failingAt [3, 6, 10]) (boot (phys true none)) [.start (namedPlan "Caspian")]

theorem start_stop_restored :
    ∃ t, stop (failingAt [3, 6, 10]) (run (failingAt [3, 6, 10]) (boot (phys true none))
        [.start (namedPlan "Caspian")]) = (.ok [], t) ∧
      t.machine.radios = phys true none ∧
      (run (failingAt [3, 6, 10]) (boot (phys true none))
        [.start (namedPlan "Caspian")]).machine.Restored t.machine := by
  have hran : (stop (failingAt [3, 6, 10]) startedOnce).1 = .ok [] ∧
      (stop (failingAt [3, 6, 10]) startedOnce).2.machine.radios = phys true none ∧
      startedOnce.CanRestore := by decide +kernel
  have hstop : stop (failingAt [3, 6, 10]) startedOnce = (.ok [], _) := eq_of_fst hran.1
  exact ⟨_, hstop, hran.2.1, ((stop_restored_iff _ _ _).1 _ hstop).mpr hran.2.2⟩

/-- A second adapter is plugged in, blocked, between two starts. -/
def startedTwice : Supervisor :=
  run (failingAt [3, 8, 11, 15]) (boot (phys true none))
    [.start (namedPlan "Caspian"), .elsewhere { radios := phys false (some true) },
      .start (namedPlan "Caspian")]

/-- The second start remembers the second adapter alone, and the stop, which
succeeds, leaves the first one on. -/
theorem second_start_forgets :
    ∃ t, stop (failingAt [3, 8, 11, 15]) (run (failingAt [3, 8, 11, 15]) (boot (phys true none))
        [.start (namedPlan "Caspian"), .elsewhere { radios := phys false (some true) },
          .start (namedPlan "Caspian")]) = (.ok [], t) ∧
      t.machine.radios = phys false (some true) ∧
      ¬(run (failingAt [3, 8, 11, 15]) (boot (phys true none))
        [.start (namedPlan "Caspian"), .elsewhere { radios := phys false (some true) },
          .start (namedPlan "Caspian")]).machine.Restored t.machine := by
  have hran : (stop (failingAt [3, 8, 11, 15]) startedTwice).1 = .ok [] ∧
      (stop (failingAt [3, 8, 11, 15]) startedTwice).2.machine.radios = phys false (some true) ∧
      ¬startedTwice.machine.Restored (stop (failingAt [3, 8, 11, 15]) startedTwice).2.machine := by
    decide +kernel
  have hstop : stop (failingAt [3, 8, 11, 15]) startedTwice = (.ok [], _) := eq_of_fst hran.1
  exact ⟨_, hstop, hran.2⟩

end Supervisor

end Caspian.Hotspot
