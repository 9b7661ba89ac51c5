import Caspian.Hotspot.Calls

/-!
# The daemons run what they were asked to run

`Start` restarts a daemon when its file changes, and takes a file that already
holds the wanted text as the sign that the running daemon has read it.  That
sign is good as long as every live daemon was spawned after the last change of
its file.  A start that writes a file and stops before it reaches the daemon
breaks this, and the next start with the same plan finds the file unchanged.

From a machine on which every live daemon is the one its pid file names, and
was spawned after the last change of a file that already holds the wanted
text, a start that goes through leaves only daemons that read the plan's files
(`startFiles_runs`).  `Hotspot.Missed` has the run in which that is not so.
-/

namespace Caspian.Hotspot

open Verified Verified.Action Netip
open Netcfg (atoi)

/-! ## Pid files -/

/-- The pid a pid file names. -/
def pidNamed (text : Option String) : Option Int :=
  (text.bind fun b => atoi (Text.trimChars b.toList)).filter fun pid => 0 < pid

variable {n : Int}

theorem atoi_lt {cs : List Char} (h : atoi cs = some n) : n < 2 ^ 63 := by
  unfold atoi at h
  split at h
  obtain ⟨-, h⟩ := Option.ite_none_left_eq_some.mp h
  obtain ⟨hrange, hn⟩ := Option.ite_none_right_eq_some.mp h
  rw [← Option.some.inj hn]
  exact hrange.2

theorem pidNamed_some {text : Option String} (h : pidNamed text = some n) : 0 < n ∧ n < 2 ^ 63 := by
  obtain ⟨hbind, hpos⟩ := Option.filter_eq_some_iff.mp h
  obtain ⟨b, -, hb⟩ := Option.bind_eq_some_iff.mp hbind
  exact ⟨of_decide_eq_true hpos, atoi_lt hb⟩

/-- A daemon that records itself names itself. -/
theorem pidNamed_recorded (hpos : 0 < n) (hlt : n < 2 ^ 63) :
    pidNamed (some (itoaInt n ++ "\n")) = some n := by
  have hdigits : ∀ c ∈ Nat.toDigits 10 n.natAbs, Text.isSpace c = false :=
    fun c hc => isSpace_of_mem_toDigits hc
  have hchars : (itoaInt n ++ "\n").toList = Nat.toDigits 10 n.natAbs ++ ['\n'] := by
    rw [itoaInt, if_neg (by omega)]
    simp [itoa]
  have htrim : Text.trimChars (Nat.toDigits 10 n.natAbs ++ ['\n']) = Nat.toDigits 10 n.natAbs := by
    rw [trimChars_append_space (by decide)]
    exact Text.trimChars_eq_self (fun c hc => hdigits c (List.mem_of_head? hc))
      (fun c hc => hdigits c (List.mem_of_getLast? hc))
  have hread : atoi (Text.trimChars (itoaInt n ++ "\n").toList) = some n := by
    rw [hchars, htrim, atoi_toDigits (by omega)]
    exact congrArg some (by omega)
  rw [pidNamed, Option.bind_some, hread]
  exact Option.filter_some_pos (decide_eq_true hpos)

/-! ## What is known of one daemon -/

variable {ds : List Daemon} {radio : Bool}

namespace Machine

/-- Every process of the daemon was spawned after its file changed last. -/
def Fresh (m : Machine) (k : Daemon) : Prop :=
  ∀ p ∈ m.procs, p.daemon = some k → (m.conf k).changedAt < p.spawnedAt

/-- Every process of the daemon is the one its pid file names. -/
def Named (m : Machine) (k : Daemon) : Prop :=
  ∀ p ∈ m.procs, p.daemon = some k → pidNamed (m.pidFile k) = some p.pid

def Gone (m : Machine) (k : Daemon) : Prop := ∀ p ∈ m.procs, p.daemon ≠ some k

/-- The numbers are those of calls already made, and a process spawned after
the last change has read what the file holds. -/
structure Stamped (m : Machine) (k : Daemon) : Prop where
  changed : (m.conf k).changedAt ≤ m.clock
  spawned : ∀ p ∈ m.procs, p.daemon = some k → p.spawnedAt ≤ m.clock
  loaded : ∀ p ∈ m.procs, p.daemon = some k → (m.conf k).changedAt < p.spawnedAt →
    (m.conf k).text = some p.loaded

/-- The machine has moved on without touching the daemon: its file is the
same, no process of it was added, and its pid file is the same or was written
by one of its processes. -/
structure Quiet (k : Daemon) (m m' : Machine) : Prop where
  conf : m'.conf k = m.conf k
  procs : ∀ p ∈ m'.procs, p.daemon = some k → p ∈ m.procs
  pidFile : m'.pidFile k = m.pidFile k ∨
    ∃ p ∈ m.procs, p.daemon = some k ∧ m'.pidFile k = some (itoaInt p.pid ++ "\n")

namespace Quiet

variable {k : Daemon} {m m' m'' : Machine}

theorem refl : Quiet k m m := ⟨rfl, fun _ hp _ => hp, Or.inl rfl⟩

theorem trans (h : Quiet k m m') (h' : Quiet k m' m'') : Quiet k m m'' := by
  constructor
  case conf => rw [h'.conf, h.conf]
  case procs => exact fun p hp hk => h.procs p (h'.procs p hp hk) hk
  case pidFile =>
    rcases h'.pidFile with hsame | ⟨p, hp, hk, hfile⟩
    · rw [hsame]
      exact h.pidFile
    · exact Or.inr ⟨p, h.procs p hp hk, hk, hfile⟩

theorem fresh (h : Quiet k m m') (hfresh : m.Fresh k) : m'.Fresh k := by
  intro p hp hk
  rw [h.conf]
  exact hfresh p (h.procs p hp hk) hk

theorem gone (h : Quiet k m m') (hgone : m.Gone k) : m'.Gone k :=
  fun p hp hk => hgone p (h.procs p hp hk) hk

theorem named (h : Quiet k m m') (hnamed : m.Named k) : m'.Named k := by
  intro p hp hk
  have hold := hnamed p (h.procs p hp hk) hk
  rcases h.pidFile with hsame | ⟨q, hq, hqk, hfile⟩
  · rw [hsame]
    exact hold
  · -- the daemon that wrote the file is the one it named before
    have hother := hnamed q hq hqk
    rw [hold] at hother
    have hpid : p.pid = q.pid := Option.some.inj hother
    obtain ⟨hpos, hlt⟩ := pidNamed_some hold
    rw [hfile, ← hpid]
    exact pidNamed_recorded hpos hlt

end Quiet

theorem quiet_meanwhile (m : Machine) (k : Daemon) (ends records : List Int) :
    Quiet k m (m.meanwhile ends records) := by
  constructor
  case conf => rfl
  case procs => exact fun p hp _ => (List.mem_filter.mp hp).1
  case pidFile =>
    have hfile : (m.meanwhile ends records).pidFile k =
        recorded k records (m.procs.filter fun p => p.pid ∉ ends) (m.pidFile k) := rfl
    rw [hfile]
    unfold recorded
    split
    · rename_i p hfind
      have hmem := List.mem_of_find?_eq_some hfind
      have hprop : p.daemon = some k ∧ p.pid ∈ records := by
        simpa using List.find?_some hfind
      exact Or.inr ⟨p, (List.mem_filter.mp hmem).1, hprop.1, rfl⟩
    · exact Or.inl rfl

theorem quiet_apply (m : Machine) {k : Daemon} {o : Op} (h : o.daemon ≠ some k) :
    Quiet k m (o.apply m) := by
  cases o with
  | kill pid => exact ⟨rfl, fun p hp _ => (List.mem_filter.mp hp).1, Or.inl rfl⟩
  | setConf j text =>
    have hj : k ≠ j := fun hkj => h (by rw [hkj]; rfl)
    exact ⟨Function.update_of_ne hj _ _, fun p hp _ => hp, Or.inl rfl⟩
  | removePid j =>
    have hj : k ≠ j := fun hkj => h (by rw [hkj]; rfl)
    exact ⟨rfl, fun p hp _ => hp, Or.inl (Function.update_of_ne hj _ _)⟩
  | spawn j pid =>
    have hj : j ≠ k := fun hkj => h (by rw [hkj]; rfl)
    show Quiet k m (m.spawn j pid)
    unfold spawn
    split
    · refine ⟨rfl, ?_, Or.inl rfl⟩
      intro p hp hk
      rcases List.mem_cons.mp hp with rfl | hp
      · exact absurd (Option.some.inj hk) hj
      · exact hp
    · exact .refl
  | unblock obeys => exact ⟨rfl, fun p hp _ => hp, Or.inl rfl⟩
  | block obeys i =>
    show Quiet k m (m.block obeys i)
    unfold block
    split
    · exact ⟨rfl, fun p hp _ => hp, Or.inl rfl⟩
    · exact .refl

/-- A step that is not about the daemon leaves it alone. -/
theorem Quiet.of_steps {k : Daemon} {m m' : Machine} (h : Steps ds radio m m') (hk : k ∉ ds) :
    Quiet k m m' := by
  refine h.keeps (P := fun n => Quiet k m n) ?_ ?_ .refl
  · exact fun n ends records hn => hn.trans (quiet_meanwhile n k ends records)
  · exact fun n o ho hn => hn.trans (quiet_apply n fun hd => hk (ho.daemon k hd))

namespace Stamped

variable {k : Daemon} {m : Machine}

theorem meanwhile (h : m.Stamped k) (ends records : List Int) :
    (m.meanwhile ends records).Stamped k := by
  have hprocs : ∀ p ∈ (m.meanwhile ends records).procs, p ∈ m.procs :=
    fun p hp => (List.mem_filter.mp hp).1
  constructor
  case changed => exact Nat.le_succ_of_le h.changed
  case spawned => exact fun p hp hk => Nat.le_succ_of_le (h.spawned p (hprocs p hp) hk)
  case loaded => exact fun p hp hk => h.loaded p (hprocs p hp) hk

theorem setConf (h : m.Stamped k) (j : Daemon) (text : Option String) :
    (m.setConf j text).Stamped k := by
  by_cases hj : k = j
  · subst hj
    have hconf : (m.setConf k text).conf k = { text := text, changedAt := m.clock } :=
      Function.update_self _ _ _
    constructor
    case changed =>
      rw [hconf]
      exact Nat.le_refl _
    case spawned => exact h.spawned
    case loaded =>
      -- no process was spawned after a change made now
      intro p hp hk hlt
      rw [hconf] at hlt
      exact absurd (h.spawned p hp hk) (Nat.not_le.mpr hlt)
  · have hconf : (m.setConf j text).conf k = m.conf k := Function.update_of_ne hj _ _
    constructor
    case changed =>
      rw [hconf]
      exact h.changed
    case spawned => exact h.spawned
    case loaded =>
      rw [hconf]
      exact h.loaded

theorem spawn (h : m.Stamped k) (j : Daemon) (pid : Int) : (m.spawn j pid).Stamped k := by
  unfold Machine.spawn
  split
  · rename_i text htext
    refine ⟨h.changed, ?_, ?_⟩
    · intro p hp hk
      rcases List.mem_cons.mp hp with rfl | hp
      · exact Nat.le_refl _
      · exact h.spawned p hp hk
    · intro p hp hk hlt
      rcases List.mem_cons.mp hp with rfl | hp
      · cases hk
        exact htext
      · exact h.loaded p hp hk hlt
  · exact h

theorem apply (h : m.Stamped k) (o : Op) : (o.apply m).Stamped k := by
  cases o with
  | kill pid =>
    have hprocs : ∀ p ∈ (m.kill pid).procs, p ∈ m.procs :=
      fun p hp => (List.mem_filter.mp hp).1
    exact ⟨h.changed, fun p hp => h.spawned p (hprocs p hp),
      fun p hp => h.loaded p (hprocs p hp)⟩
  | setConf j text => exact h.setConf j text
  | removePid j | unblock obeys => exact ⟨h.changed, h.spawned, h.loaded⟩
  | spawn j pid => exact h.spawn j pid
  | block obeys i =>
    show (m.block obeys i).Stamped k
    unfold block
    split
    · exact ⟨h.changed, h.spawned, h.loaded⟩
    · exact h

theorem of_steps {m' : Machine} (h : m.Stamped k) (hsteps : Steps ds radio m m') : m'.Stamped k :=
  hsteps.keeps (P := fun n => n.Stamped k) (fun _ ends records hn => hn.meanwhile ends records)
    (fun _ o _ hn => hn.apply o) h

end Stamped

end Machine

/-! ## What the functions find and leave -/

namespace Supervisor

open Machine (Quiet)

variable {env : Env} {k : Daemon} {s s' : Supervisor}

/-- A function that is not about the daemon leaves it alone. -/
theorem quiet_of_does {ε α : Type} {x : Action ε Supervisor α} (h : Does ds true x) (hk : k ∉ ds)
    {r : Except ε α} (hrun : x s = (r, s')) : Quiet k s.machine s'.machine := by
  have hsteps := h.steps s
  rw [hrun] at hsteps
  exact Quiet.of_steps hsteps hk

theorem quiet_of_idle {ε α : Type} {x : Action ε Supervisor α} (h : Does [] true x)
    {r : Except ε α} (hrun : x s = (r, s')) : Quiet k s.machine s'.machine :=
  quiet_of_does h List.not_mem_nil hrun

theorem stamped_of_does {ε α : Type} {x : Action ε Supervisor α} (h : Does ds radio x)
    {r : Except ε α} (hrun : x s = (r, s')) (hstamped : s.machine.Stamped k) :
    s'.machine.Stamped k := by
  have hsteps := h.steps s
  rw [hrun] at hsteps
  exact hstamped.of_steps hsteps

/-- A call that went through: the machine moved on and did what was asked. -/
theorem call_ok {α : Type} {f : Turn → Machine → Except String α × Machine} {a : α}
    (h : call env f s = (.ok a, s')) : ∃ m, Quiet k s.machine m ∧ s.machine.clock < m.clock ∧
      f (env.turns s.machine.clock) m = (.ok a, s'.machine) := by
  refine ⟨_, Machine.quiet_meanwhile s.machine k (env.turns s.machine.clock).ends
    (env.turns s.machine.clock).records, Nat.lt_succ_self _, ?_⟩
  have hvalue : (f (env.turns s.machine.clock) (s.machine.meanwhile
      (env.turns s.machine.clock).ends (env.turns s.machine.clock).records)).1 = .ok a :=
    congrArg Prod.fst h
  have hstate : s' = (call env f s).2 := by rw [h]
  rw [hstate]
  exact Prod.ext hvalue rfl

theorem answer_ok {α : Type} {t : Turn} {a b : α} (h : answer t a = .ok b) : b = a := by
  unfold answer at h
  split at h
  · cases h
  · exact (Except.ok.inj h).symm

/-- A look that went through. -/
theorem look_ok {α : Type} {f : Turn → Machine → α} {a : α} (h : look env f s = (.ok a, s')) :
    Quiet k s.machine s'.machine ∧ a = f (env.turns s.machine.clock) s'.machine := by
  obtain ⟨m, hquiet, -, hf⟩ := call_ok (k := k) h
  obtain ⟨hanswer, rfl⟩ := Prod.mk.inj hf
  exact ⟨hquiet, answer_ok hanswer⟩

variable {u : Unit}

/-- A change that went through. -/
theorem change_ok {f : Turn → Machine → Machine} (h : change env f s = (.ok u, s')) :
    ∃ m, Quiet k s.machine m ∧ s.machine.clock < m.clock ∧
      s'.machine = f (env.turns s.machine.clock) m := by
  obtain ⟨m, hquiet, hclock, hf⟩ := call_ok (k := k) h
  refine ⟨m, hquiet, hclock, ?_⟩
  split at hf
  · cases (Prod.mk.inj hf).1
  · exact (Prod.mk.inj hf).2.symm

variable {pid : Int}

/-- **`livePID` finds the daemon** if there is one: every process of a daemon
whose pid file names it has the pid that is returned. -/
theorem livePID_ok (h : livePID env k s = (.ok pid, s')) (hnamed : s.machine.Named k) :
    ∀ p ∈ s'.machine.procs, p.daemon = some k → p.pid = pid ∧ 0 < pid := by
  obtain ⟨b, t, hread, hrest⟩ := of_bind_ok h
  obtain ⟨hquiet, hb⟩ := look_ok (k := k) hread
  have hfile : ∀ p ∈ t.machine.procs, p.daemon = some k → pidNamed b = some p.pid := by
    rw [hb]
    exact hquiet.named hnamed
  -- the answers without a pid are given only where the file names nobody
  have hnobody : pidNamed b = none → t = s' →
      ∀ p ∈ s'.machine.procs, p.daemon = some k → p.pid = pid ∧ 0 < pid := by
    intro hnone hsame p hp hk
    have hsome := hfile p (hsame ▸ hp) hk
    rw [hnone] at hsome
    cases hsome
  cases b with
  | none => exact hnobody rfl (Prod.mk.inj hrest).2
  | some b =>
    cases hatoi : atoi (Text.trimChars b.toList) with
    | none =>
      simp only [hatoi] at hrest
      exact hnobody (by simp [pidNamed, hatoi]) (Prod.mk.inj hrest).2
    | some n =>
      simp only [hatoi] at hrest
      by_cases hneg : n ≤ 0
      · rw [if_pos hneg] at hrest
        exact hnobody (by simp [pidNamed, hatoi, Option.filter, hneg]) (Prod.mk.inj hrest).2
      · rw [if_neg hneg] at hrest
        obtain ⟨alive, t', halive, hret⟩ := of_bind_ok hrest
        obtain ⟨hquiet', hval⟩ := look_ok (k := k) halive
        obtain ⟨hpid, rfl⟩ := Prod.mk.inj hret
        have hpid := Except.ok.inj hpid
        intro p hp hk
        have hname : p.pid = n := by
          have hold := hfile p (hquiet'.procs p hp hk) hk
          rw [pidNamed, Option.bind_some, hatoi] at hold
          exact (Option.some.inj (Option.filter_eq_some_iff.mp hold).1).symm
        have htrue : alive = true := by
          rw [hval, List.any_eq_true]
          exact ⟨p, hp, decide_eq_true hname⟩
        rw [htrue, if_pos rfl] at hpid
        exact ⟨hname.trans hpid, by omega⟩

/-- A wait that ended saw the process gone. -/
theorem awaitEnd_gone {n : Nat} (h : awaitEnd env pid n s = (.ok true, s')) :
    ∀ p ∈ s'.machine.procs, p.pid ≠ pid := by
  induction n generalizing s with
  | zero => cases (Prod.mk.inj h).1
  | succ n ih =>
    obtain ⟨alive, t, halive, hrest⟩ := of_bind_ok h
    obtain ⟨-, hval⟩ := look_ok (k := .hostapd) halive
    cases alive with
    | true =>
      obtain ⟨_, t', -, hrest⟩ := of_bind_ok hrest
      exact ih hrest
    | false =>
      obtain ⟨-, rfl⟩ := Prod.mk.inj hrest
      intro p hp hpid
      have := List.any_eq_false.mp hval.symm p hp
      exact this (decide_eq_true hpid)

/-- **A process that was terminated is gone.** -/
theorem terminate_gone (h : terminate env pid s = (.ok u, s')) :
    ∀ p ∈ s'.machine.procs, p.pid ≠ pid := by
  obtain ⟨_, t, -, h⟩ := of_bind_ok h
  obtain ⟨gone, t', hwait, h⟩ := of_bind_ok h
  cases gone with
  | true =>
    obtain ⟨-, rfl⟩ := Prod.mk.inj h
    exact awaitEnd_gone hwait
  | false =>
    obtain ⟨alive, t'', halive, h⟩ := of_bind_ok h
    obtain ⟨-, hval⟩ := look_ok (k := .hostapd) halive
    cases alive with
    | true =>
      have h : signalKill env pid t'' = (.ok u, s') := h
      obtain ⟨m, -, -, hkill⟩ := change_ok (k := .hostapd) h
      rw [hkill]
      intro p hp
      have hp : p ∈ m.procs.filter fun p => p.pid ≠ pid := hp
      simpa using (List.mem_filter.mp hp).2
    | false =>
      obtain ⟨-, rfl⟩ := Prod.mk.inj h
      intro p hp hpid
      have := List.any_eq_false.mp hval.symm p hp
      exact this (decide_eq_true hpid)

/-- **Clearing the way leaves no process of the daemon**, and its file alone. -/
theorem clearTheWay_ok (h : clearTheWay env k pid s = (.ok u, s'))
    (hpid : ∀ p ∈ s.machine.procs, p.daemon = some k → p.pid = pid ∧ 0 < pid) :
    s'.machine.Gone k ∧ s'.machine.conf k = s.machine.conf k := by
  unfold clearTheWay at h
  split at h
  · obtain ⟨_, t, hterm, hremove⟩ := of_bind_ok h
    have hquiet : Quiet k s.machine t.machine := quiet_of_idle (does_terminate env pid) hterm
    obtain ⟨m, hquiet', -, hm⟩ := change_ok (k := k) hremove
    have hgone : t.machine.Gone k := fun p hp hk =>
      terminate_gone hterm p hp (hpid p (hquiet.procs p hp hk) hk).1
    rw [hm]
    exact ⟨fun p hp => (hquiet'.gone hgone) p hp, hquiet'.conf.trans hquiet.conf⟩
  · rename_i hzero
    obtain ⟨_, t, hremove, hstrays⟩ := of_bind_ok h
    have hgone : s.machine.Gone k := fun p hp hk => hzero (hpid p hp hk).2
    obtain ⟨m, hquiet, -, hm⟩ := change_ok (k := k) hremove
    have hquiet' : Quiet k t.machine s'.machine := quiet_of_idle (does_stopStrays env) hstrays
    have hgone' : t.machine.Gone k := by
      rw [hm]
      exact fun p hp => (hquiet.gone hgone) p hp
    refine ⟨hquiet'.gone hgone', hquiet'.conf.trans ?_⟩
    rw [hm]
    exact hquiet.conf

/-- A daemon spawned where none was has been spawned after the last change. -/
theorem spawn_ok {res : CommandResult} (h : spawn env k s = (.ok res, s'))
    (hgone : s.machine.Gone k) (hstamped : s.machine.Stamped k) :
    s'.machine.Fresh k ∧ s'.machine.conf k = s.machine.conf k := by
  obtain ⟨m, hquiet, hclock, hf⟩ := call_ok (k := k) h
  have hm : s'.machine = _ := (Prod.mk.inj hf).2.symm
  have hgone' := hquiet.gone hgone
  have hold : m.Fresh k := fun p hp hk => absurd hk (hgone' p hp)
  rw [hm]
  split
  · unfold Machine.spawn
    split
    · refine ⟨?_, hquiet.conf⟩
      intro p hp hk
      rcases List.mem_cons.mp hp with rfl | hp
      · show (m.conf k).changedAt < m.clock
        rw [hquiet.conf]
        exact Nat.lt_of_le_of_lt hstamped.changed hclock
      · exact hold p hp hk
    · exact ⟨hold, hquiet.conf⟩
  · exact ⟨hold, hquiet.conf⟩

/-- **A daemon that was started runs its file.**  Its process, if it is the one
its pid file names, was left alone only where it had read the file already. -/
theorem startProcess_ok {confChanged : Bool} {st : ProcState}
    (h : startProcess env k confChanged s = (.ok st, s')) (hstamped : s.machine.Stamped k)
    (hnamed : s.machine.Named k) (hfresh : confChanged = false → s.machine.Fresh k) :
    s'.machine.Fresh k ∧ s'.machine.conf k = s.machine.conf k := by
  obtain ⟨pid, t, hlive, h⟩ := of_bind_ok h
  have hlive := of_wrap_ok hlive
  have hquiet : Quiet k s.machine t.machine := quiet_of_idle (does_livePID env k) hlive
  have hpid := livePID_ok hlive hnamed
  split at h
  · rename_i hrunning
    obtain ⟨-, rfl⟩ := Prod.mk.inj h
    exact ⟨hquiet.fresh (hfresh hrunning.2), hquiet.conf⟩
  · obtain ⟨_, t1, hclear, h⟩ := of_bind_ok h
    have hclear := of_wrap_ok hclear
    obtain ⟨hgone, hconf1⟩ := clearTheWay_ok hclear hpid
    obtain ⟨res, t2, hspawn, h⟩ := of_bind_ok h
    have hspawn := of_wrap_ok hspawn
    have hstamped1 : t1.machine.Stamped k :=
      stamped_of_does (does_clearTheWay env (List.mem_singleton_self k) pid :
          Does [k] false (clearTheWay env k pid)) hclear
        (stamped_of_does (does_livePID env k : Does [] false (livePID env k)) hlive hstamped)
    obtain ⟨hfresh2, hconf2⟩ := spawn_ok hspawn hgone hstamped1
    have hconf : t2.machine.conf k = s.machine.conf k :=
      hconf2.trans (hconf1.trans hquiet.conf)
    split at h
    · cases (Prod.mk.inj h).1
    · obtain ⟨newPID, t3, hawait, h⟩ := of_bind_ok h
      obtain ⟨-, rfl⟩ := Prod.mk.inj h
      have hquiet3 : Quiet k t2.machine t3.machine :=
        quiet_of_idle (does_awaitPID env k) (of_wrap_ok hawait)
      exact ⟨hquiet3.fresh hfresh2, hquiet3.conf.trans hconf⟩

/-- **A file that was written holds the text**, and where it held it already
nothing was written. -/
theorem writeIfChanged_ok {content : String} {changed : Bool}
    (h : writeIfChanged env k content s = (.ok changed, s')) (hnamed : s.machine.Named k)
    (hfresh : (s.machine.conf k).text = some content → s.machine.Fresh k) :
    (s'.machine.conf k).text = some content ∧ s'.machine.Named k ∧
      (changed = false → s'.machine.Fresh k) := by
  obtain ⟨old, t, hread, h⟩ := of_bind_ok h
  obtain ⟨hquiet, hold⟩ := look_ok (k := k) hread
  split at h
  · rename_i hsame
    obtain ⟨-, rfl⟩ := Prod.mk.inj h
    have htext : (t.machine.conf k).text = some content := by
      rw [← hsame, hold]
    refine ⟨htext, hquiet.named hnamed, fun _ => hquiet.fresh (hfresh ?_)⟩
    rw [← hquiet.conf]
    exact htext
  · obtain ⟨_, t1, hwrite, h⟩ := of_bind_ok h
    obtain ⟨hchanged, rfl⟩ := Prod.mk.inj h
    obtain ⟨m, hquiet', -, hf⟩ := call_ok (k := k) hwrite
    have hm : t1.machine = m.setConf k (some content) := by
      split at hf
      · cases (Prod.mk.inj hf).1
      · cases (Prod.mk.inj hf).1
      · exact (Prod.mk.inj hf).2.symm
    refine ⟨?_, ?_, ?_⟩
    · rw [hm]
      show (Function.update m.conf k _ k).text = some content
      rw [Function.update_self]
    · rw [hm]
      exact hquiet'.named (hquiet.named hnamed)
    · intro hfalse
      rw [← Except.ok.inj hchanged] at hfalse
      cases hfalse

end Supervisor

/-! ## Starting -/

/-- Every live daemon was spawned after the last change of the file it reads,
and has read the text it was meant to read. -/
def Machine.Runs (m : Machine) (files : Daemon → String) : Prop :=
  ∀ p ∈ m.procs, ∀ k, p.daemon = some k →
    (m.conf k).changedAt < p.spawnedAt ∧ p.loaded = files k

/-- A start can tell what has to be restarted: every live daemon is the one its
pid file names, and was spawned after the last change of its file where that
file already holds the text. -/
def Machine.Ready (m : Machine) (files : Daemon → String) : Prop :=
  ∀ k, m.Named k ∧ ((m.conf k).text = some (files k) → m.Fresh k)

namespace Supervisor

open Machine (Quiet)

variable {env : Env} {s s' : Supervisor}

theorem runs_of_fresh {m : Machine} {files : Daemon → String} (hstamped : ∀ k, m.Stamped k)
    (hfresh : ∀ k, m.Fresh k) (htext : ∀ k, (m.conf k).text = some (files k)) : m.Runs files := by
  intro p hp k hk
  have hlt := hfresh k p hp hk
  have hloaded := (hstamped k).loaded p hp hk hlt
  rw [htext k] at hloaded
  exact ⟨hlt, (Option.some.inj hloaded).symm⟩

/-- One daemon's share of a start: its file is written from `s1` to `s2`, it is
started from `s3` to `s4`, and what else happens is not about it. -/
theorem fresh_of_share {k : Daemon} {content : String} {changed : Bool} {st : ProcState}
    {s1 s2 s3 s4 : Supervisor} (q1 : Quiet k s.machine s1.machine)
    (hwrite : writeIfChanged env k content s1 = (.ok changed, s2))
    (q2 : Quiet k s2.machine s3.machine)
    (hstart : startProcess env k changed s3 = (.ok st, s4))
    (q3 : Quiet k s4.machine s'.machine) (hstamped : s3.machine.Stamped k)
    (hnamed : s.machine.Named k)
    (hfresh : (s.machine.conf k).text = some content → s.machine.Fresh k) :
    s'.machine.Fresh k ∧ (s'.machine.conf k).text = some content := by
  obtain ⟨htext, hnamed2, hfresh2⟩ := writeIfChanged_ok hwrite (q1.named hnamed)
    (fun hsame => q1.fresh (hfresh (q1.conf ▸ hsame)))
  obtain ⟨hfresh4, hconf4⟩ := startProcess_ok hstart hstamped (q2.named hnamed2)
    (fun hc => q2.fresh (hfresh2 hc))
  refine ⟨q3.fresh hfresh4, ?_⟩
  rw [q3.conf, hconf4, q2.conf]
  exact htext

/-- **A start that went through leaves only daemons that run its files**, from
a machine on which it can tell what has to be restarted. -/
theorem startFiles_runs {files : Daemon → String} {st : Status}
    (h : startFiles env files s = (.ok st, s')) (hstamped : ∀ k, s.machine.Stamped k)
    (hready : s.machine.Ready files) : s'.machine.Runs files := by
  have hboth : ∀ k, k ∈ [Daemon.hostapd, .dnsmasq] := by
    intro k
    cases k <;> decide
  have hstamped' : ∀ k, s'.machine.Stamped k :=
    fun k => stamped_of_does (does_startFiles env files hboth) h (hstamped k)
  obtain ⟨radio, s1, hradio, h⟩ := of_bind_ok h
  obtain ⟨apChanged, s2, hwriteAP, h⟩ := of_bind_ok h
  obtain ⟨dnsChanged, s3, hwriteDNS, h⟩ := of_bind_ok h
  obtain ⟨ap, s4, hstartAP, h⟩ := of_bind_ok h
  obtain ⟨dhcp, s5, hstartDNS, h⟩ := of_bind_ok h
  obtain ⟨beaconing, s6, hbeacon, h⟩ := of_bind_ok h
  have hend : s6 = s' := by
    split at h <;> exact (Prod.mk.inj h).2
  subst hend
  have hradio := of_wrap_ok hradio
  have hwriteAP := of_wrap_ok hwriteAP
  have hwriteDNS := of_wrap_ok hwriteDNS
  have hstartAP := of_wrap_ok hstartAP
  have hstartDNS := of_wrap_ok hstartDNS
  have q1 : ∀ k, Quiet k s.machine s1.machine :=
    fun k => quiet_of_idle (does_ensureRadioUnblocked env) hradio
  have q2 : Quiet .dnsmasq s1.machine s2.machine :=
    quiet_of_does (does_writeIfChanged env (List.mem_singleton_self .hostapd) _) (by decide) hwriteAP
  have q3 : Quiet .hostapd s2.machine s3.machine :=
    quiet_of_does (does_writeIfChanged env (List.mem_singleton_self .dnsmasq) _) (by decide) hwriteDNS
  have q4 : Quiet .dnsmasq s3.machine s4.machine :=
    quiet_of_does (does_startProcess env (List.mem_singleton_self .hostapd) _) (by decide) hstartAP
  have q5 : Quiet .hostapd s4.machine s5.machine :=
    quiet_of_does (does_startProcess env (List.mem_singleton_self .dnsmasq) _) (by decide) hstartDNS
  have q6 : ∀ k, Quiet k s5.machine s6.machine :=
    fun k => quiet_of_idle (does_apBeaconing env) hbeacon
  have hstamped3 : ∀ k, s3.machine.Stamped k := fun k =>
    stamped_of_does (does_writeIfChanged env (hboth _) _ : Does _ true _) hwriteDNS
      (stamped_of_does (does_writeIfChanged env (hboth _) _ : Does _ true _) hwriteAP
        (stamped_of_does (does_ensureRadioUnblocked env : Does [] true _) hradio (hstamped k)))
  have hstamped4 : s4.machine.Stamped .dnsmasq :=
    stamped_of_does (does_startProcess env (hboth _) _ : Does _ true _) hstartAP (hstamped3 _)
  have hap := fresh_of_share (q1 .hostapd) hwriteAP q3 hstartAP (q5.trans (q6 .hostapd))
    (hstamped3 .hostapd) (hready .hostapd).1 (hready .hostapd).2
  have hdns := fresh_of_share ((q1 .dnsmasq).trans q2) hwriteDNS q4 hstartDNS (q6 .dnsmasq)
    hstamped4 (hready .dnsmasq).1 (hready .dnsmasq).2
  apply runs_of_fresh hstamped'
  · intro k
    cases k with
    | hostapd => exact hap.1
    | dnsmasq => exact hdns.1
  · intro k
    cases k with
    | hostapd => exact hap.2
    | dnsmasq => exact hdns.2

/-! ## Runs -/

theorem stamped_advance {k : Daemon} (h : s.machine.Stamped k) (e : Event) :
    (advance env s e).machine.Stamped k := by
  have hboth : ∀ k, k ∈ [Daemon.hostapd, .dnsmasq] := by
    intro k
    cases k <;> decide
  cases e with
  | start plan => exact stamped_of_does (does_startFiles env plan.files hboth) rfl h
  | stop =>
    have hstop : (stop env s).2.machine.Stamped k := stamped_of_does (does_stop env hboth) rfl h
    show (stopped env s).machine.Stamped k
    unfold stopped
    split
    · rename_i s' hrun
      rw [hrun] at hstop
      exact ⟨hstop.changed, hstop.spawned, hstop.loaded⟩
    · rename_i s' _ hrun
      rw [hrun] at hstop
      exact hstop
  | elsewhere e =>
    have hmoved := h.meanwhile e.ends e.records
    have hprocs : ∀ p ∈ (s.machine.elsewhere e).procs, p.daemon = some k →
        p ∈ (s.machine.meanwhile e.ends e.records).procs := by
      intro p hp hk
      rcases List.mem_append.mp hp with hp | hp
      · exact hp
      · obtain ⟨pid, -, rfl⟩ := List.mem_map.mp hp
        cases hk
    constructor
    case changed => exact hmoved.changed
    case spawned => exact fun p hp hk => hmoved.spawned p (hprocs p hp hk) hk
    case loaded => exact fun p hp hk => hmoved.loaded p (hprocs p hp hk) hk

theorem stamped_run {k : Daemon} (es : List Event) (h : s.machine.Stamped k) :
    (run env s es).machine.Stamped k := by
  induction es generalizing s with
  | nil => exact h
  | cons e es ih => exact ih (stamped_advance h e)

theorem stamped_boot (radios : Radios) (k : Daemon) : (boot radios).machine.Stamped k := by
  constructor
  case changed => exact Nat.le_refl 0
  case spawned =>
    intro p hp
    cases hp
  case loaded =>
    intro p hp
    cases hp

end Supervisor

end Caspian.Hotspot
