import Caspian.Hotspot.Daemons
import Caspian.Hotspot.Injection

/-!
# A restart that is missed

A start that writes `hostapd.conf` and then stops, here because `dnsmasq.conf`
cannot be read, leaves a file that is newer than the daemon.  The next start
with the same plan finds the file as it wants it, takes the daemon for one
that has read it, and reports a running hotspot that still has the old name.

The run is followed call by call on a machine of which only the files, the pid
files and the processes matter; the two texts stay arbitrary until the end, so
that nothing has to be known of the rendered files but that they differ.
-/

namespace Caspian.Hotspot

open Verified Verified.Action Netip
open Netcfg (atoi)
open Supervisor

/-! ## Following a run -/

/-- A value for each daemon. -/
def both {α : Type} (x y : α) : Daemon → α
  | .hostapd => x
  | .dnsmasq => y

theorem eq_both {α : Type} (f : Daemon → α) : f = both (f .hostapd) (f .dnsmasq) := by
  funext k
  cases k <;> rfl

def noRadios : Radios := ⟨[], by simp, by simp⟩

/-- A machine without radios, by what it holds for each daemon. -/
def stateAt (c : Nat) (h d : ConfFile) (ph pd : Option String) (procs : List Proc) :
    Supervisor where
  machine :=
    { clock := c, conf := both h d, pidFile := both ph pd, procs := procs, radios := noRadios }

/-- The same machine one call later. -/
def laterAt (c : Nat) (h d : ConfFile) (ph pd : Option String) (procs : List Proc)
    (records : List Int) : Supervisor :=
  stateAt (c + 1) h d (recorded .hostapd records procs ph) (recorded .dnsmasq records procs pd) procs

section Calls

variable {α : Type} {env : Env} {c : Nat} {h d : ConfFile} {ph pd : Option String}
  {procs : List Proc}

@[simp] theorem stateAt_conf_hostapd : (stateAt c h d ph pd procs).machine.conf .hostapd = h := rfl

@[simp] theorem stateAt_conf_dnsmasq : (stateAt c h d ph pd procs).machine.conf .dnsmasq = d := rfl

@[simp] theorem stateAt_pid_hostapd :
    (stateAt c h d ph pd procs).machine.pidFile .hostapd = ph := rfl

@[simp] theorem stateAt_pid_dnsmasq :
    (stateAt c h d ph pd procs).machine.pidFile .dnsmasq = pd := rfl

@[simp] theorem stateAt_procs : (stateAt c h d ph pd procs).machine.procs = procs := rfl

theorem meanwhile_stateAt (records : List Int) :
    (stateAt c h d ph pd procs).machine.meanwhile [] records =
      (laterAt c h d ph pd procs records).machine := by
  simp only [stateAt, laterAt, Machine.meanwhile, List.not_mem_nil, not_false_eq_true, decide_true,
    List.filter_true]
  rw [eq_both fun k => recorded k records procs _]
  rfl

theorem call_stateAt {f : Turn → Machine → Except String α × Machine}
    (hends : (env.turns c).ends = []) :
    call env f (stateAt c h d ph pd procs) =
      ((f (env.turns c) (laterAt c h d ph pd procs (env.turns c).records).machine).1,
        { machine :=
            (f (env.turns c) (laterAt c h d ph pd procs (env.turns c).records).machine).2 }) := by
  unfold call
  simp only [show (stateAt c h d ph pd procs).machine.clock = c from rfl, hends, meanwhile_stateAt]
  rfl

theorem look_stateAt {f : Turn → Machine → α} (hends : (env.turns c).ends = [])
    (hok : (env.turns c).fails = none) :
    look env f (stateAt c h d ph pd procs) =
      (.ok (f (env.turns c) (laterAt c h d ph pd procs (env.turns c).records).machine),
        laterAt c h d ph pd procs (env.turns c).records) := by
  rw [look, call_stateAt hends, answer, hok]
  rfl

theorem look_stateAt_fails {f : Turn → Machine → α} {e : String} (hends : (env.turns c).ends = [])
    (hfails : (env.turns c).fails = some e) :
    look env f (stateAt c h d ph pd procs) =
      (.error e, laterAt c h d ph pd procs (env.turns c).records) := by
  rw [look, call_stateAt hends, answer, hfails]
  rfl

theorem writeConf_hostapd {content : String} (hends : (env.turns c).ends = [])
    (hok : (env.turns c).fails = none) :
    writeConf env .hostapd content (stateAt c h d ph pd procs) =
      (.ok (), laterAt c ⟨some content, c + 1⟩ d ph pd procs (env.turns c).records) := by
  rw [writeConf, call_stateAt hends, hok]
  simp only [laterAt, stateAt, Machine.setConf]
  rw [eq_both (Function.update _ _ _)]
  rfl

theorem writeConf_dnsmasq {content : String} (hends : (env.turns c).ends = [])
    (hok : (env.turns c).fails = none) :
    writeConf env .dnsmasq content (stateAt c h d ph pd procs) =
      (.ok (), laterAt c h ⟨some content, c + 1⟩ ph pd procs (env.turns c).records) := by
  rw [writeConf, call_stateAt hends, hok]
  simp only [laterAt, stateAt, Machine.setConf]
  rw [eq_both (Function.update _ _ _)]
  rfl

theorem removePid_hostapd (hends : (env.turns c).ends = []) (hok : (env.turns c).fails = none) :
    removePid env .hostapd (stateAt c h d ph pd procs) =
      (.ok (), stateAt (c + 1) h d none (recorded .dnsmasq (env.turns c).records procs pd) procs) := by
  rw [removePid, change, call_stateAt hends, hok]
  simp only [laterAt, stateAt, Machine.removePid]
  rw [eq_both (Function.update _ _ _)]
  rfl

theorem removePid_dnsmasq (hends : (env.turns c).ends = []) (hok : (env.turns c).fails = none) :
    removePid env .dnsmasq (stateAt c h d ph pd procs) =
      (.ok (), stateAt (c + 1) h d (recorded .hostapd (env.turns c).records procs ph) none procs) := by
  rw [removePid, change, call_stateAt hends, hok]
  simp only [laterAt, stateAt, Machine.removePid]
  rw [eq_both (Function.update _ _ _)]
  rfl

theorem spawn_hostapd {text : String} {n : Nat} (hends : (env.turns c).ends = [])
    (hok : (env.turns c).fails = none) (hstays : (env.turns c).survives = true) :
    spawn env .hostapd (stateAt c ⟨some text, n⟩ d ph pd procs) =
      (.ok (commandResult (env.turns c)),
        stateAt (c + 1) ⟨some text, n⟩ d (recorded .hostapd (env.turns c).records procs ph)
          (recorded .dnsmasq (env.turns c).records procs pd)
          (⟨(env.turns c).pid, some .hostapd, text, c + 1⟩ :: procs)) := by
  rw [spawn, call_stateAt hends, answer, hok, hstays]
  rfl

theorem spawn_dnsmasq {text : String} {n : Nat} (hends : (env.turns c).ends = [])
    (hok : (env.turns c).fails = none) (hstays : (env.turns c).survives = true) :
    spawn env .dnsmasq (stateAt c h ⟨some text, n⟩ ph pd procs) =
      (.ok (commandResult (env.turns c)),
        stateAt (c + 1) h ⟨some text, n⟩ (recorded .hostapd (env.turns c).records procs ph)
          (recorded .dnsmasq (env.turns c).records procs pd)
          (⟨(env.turns c).pid, some .dnsmasq, text, c + 1⟩ :: procs)) := by
  rw [spawn, call_stateAt hends, answer, hok, hstays]
  rfl

end Calls

/-! ## The runs -/

/-- Some calls fail, and the daemons of some pids record themselves. -/
def demoTurns (failing : List Nat) (records : List Int) (n : Nat) : Turn :=
  { pid := n, records := records, stdout := "state=ENABLED",
    fails := if n ∈ failing then some "input/output error" else none }

/-- No `rfkill` and no `pgrep`. -/
def calmEnv : Env := { turns := demoTurns [0, 7, 13] [8, 14] }

/-- Besides, the first start does not get at the pid file of dnsmasq and the
second not at its configuration. -/
def missEnv : Env := { turns := demoTurns [0, 7, 11, 12, 15, 16, 23] [8, 24] }

section Run

variable (a b : Daemon → String)

/-- hostapd runs the first text; dnsmasq was not reached. -/
def afterFirst : Supervisor :=
  stateAt 12 ⟨some (a .hostapd), 3⟩ ⟨some (a .dnsmasq), 5⟩ (some (itoaInt 8 ++ "\n")) none
    [⟨8, some .hostapd, a .hostapd, 9⟩]

/-- The file holds the second text, and hostapd still runs the first. -/
def afterSecond : Supervisor :=
  stateAt 16 ⟨some (b .hostapd), 15⟩ ⟨some (a .dnsmasq), 5⟩ (some (itoaInt 8 ++ "\n")) none
    [⟨8, some .hostapd, a .hostapd, 9⟩]

theorem atoi_pid_8 : atoi (Text.trimChars ((itoaInt 8).toList ++ ['\n'])) = some 8 := by
  decide +kernel

theorem atoi_pid_24 : atoi (Text.trimChars ((itoaInt 24).toList ++ ['\n'])) = some 24 := by
  decide +kernel

theorem first_start :
    (startFiles missEnv a (stateAt 0 {} {} none none [])).2 = afterFirst a := by
  simp [afterFirst, startFiles, startDaemons, ensureRadioUnblocked, bind_run, pure_run, attempt, wrap, rfkillList,
    runRfkillList, look_stateAt, look_stateAt_fails, missEnv, demoTurns, writeIfChanged, readConf,
    writeConf_hostapd, writeConf_dnsmasq, laterAt, recorded, startProcess, livePID, readPid,
    clearTheWay, removePid_hostapd, spawn_hostapd, awaitPID, awaitPIDLoop, processAlive, stopStrays,
    runQuery, commandResult, atoi_pid_8]

theorem second_start (hne : a .hostapd ≠ b .hostapd) :
    (startFiles missEnv b (afterFirst a)).2 = afterSecond a b := by
  simp [afterFirst, afterSecond, startFiles, startDaemons, ensureRadioUnblocked, bind_run, pure_run, attempt, wrap,
    rfkillList, runRfkillList, look_stateAt, look_stateAt_fails, missEnv, demoTurns, writeIfChanged,
    readConf, writeConf_hostapd, laterAt, recorded, hne]

/-- dnsmasq runs, and hostapd still runs the first text. -/
def afterThird : Supervisor :=
  stateAt 28 ⟨some (b .hostapd), 15⟩ ⟨some (a .dnsmasq), 5⟩ (some (itoaInt 8 ++ "\n"))
    (some (itoaInt 24 ++ "\n"))
    [⟨24, some .dnsmasq, a .dnsmasq, 25⟩, ⟨8, some .hostapd, a .hostapd, 9⟩]

def thirdStatus : Status where
  running := true
  accessPoint := { running := true, pid := 8, beaconing := true, detail := "already running" }
  dhcp := { running := true, pid := 24, detail := "started" }
  radio := { detail := "Caspian could not check whether the wireless adapter is switched on." }

theorem enabled_status :
    List.lookup "state" (parseHostapdStatus "state=ENABLED").reverse = some "ENABLED" := by
  decide +kernel

theorem third_start (hsame : a .dnsmasq = b .dnsmasq) :
    startFiles missEnv b (afterSecond a b) = (.ok thirdStatus, afterThird a b) := by
  simp [afterSecond, afterThird, thirdStatus, startFiles, startDaemons, ensureRadioUnblocked, bind_run, pure_run,
    attempt, wrap, rfkillList, runRfkillList, look_stateAt, look_stateAt_fails, missEnv, demoTurns,
    writeIfChanged, readConf, laterAt, recorded, hsame, startProcess, livePID, readPid, clearTheWay,
    removePid_dnsmasq, spawn_dnsmasq, awaitPID, awaitPIDLoop, processAlive, stopStrays, runQuery,
    commandResult, atoi_pid_8, atoi_pid_24, apBeaconing, enabled_status]

end Run

theorem boot_noRadios : boot noRadios = stateAt 0 {} {} none none [] := by
  rw [boot, stateAt, ← eq_both fun _ => ({} : ConfFile), ← eq_both fun _ => (none : Option String)]

/-- A plan for a network of the given name. -/
def namedPlan (ssid : String) : Plan where
  ap := { demoAP with ssid := ssid }
  dns := demoDNS (.v4 0x7f000001#32)
  radio := {}
  passphraseGenerated := false

/-- Two names make two files. -/
theorem namedPlan_files_ne {ssid ssid' : String}
    (h : (namedPlan ssid).ap.validate false = .ok ())
    (h' : (namedPlan ssid').ap.validate false = .ok ()) (hne : ssid ≠ ssid') :
    (namedPlan ssid).files .hostapd ≠ (namedPlan ssid').files .hostapd := by
  obtain ⟨text, hrender, hread⟩ := renderHostapd_directives h
  obtain ⟨text', hrender', hread'⟩ := renderHostapd_directives h'
  intro hfiles
  have htext : text = text' := by
    simpa [Plan.files, hrender, hrender', Except.toOption] using hfiles
  rw [htext, hread'] at hread
  apply hne
  simpa [hostapdDirectives, namedPlan, demoAP] using hread.symm

/-- **The daemons run what they were asked to run.**  In every run, whatever
fails in it, a start made on a machine on which every live daemon is the one
its pid file names, and was spawned after the last change of its file where
that file already holds the plan's text, leaves, if it goes through, only
daemons spawned after the last change of their file and running the plan's
text. -/
theorem start_runs_plan {env : Env} {radios : Radios} {es : List Event} {plan : Plan}
    {st : Status} {s' : Supervisor}
    (hready : (run env (boot radios) es).machine.Ready plan.files)
    (hstart : start env plan (run env (boot radios) es) = (.ok st, s')) :
    s'.machine.Runs plan.files :=
  startFiles_runs hstart (fun k => stamped_run es (stamped_boot radios k)) hready

theorem eq_of_fst {α β : Type} {x : α × β} {a : α} (h : x.1 = a) : x = (a, x.2) := by
  rw [← h]

def calmStatus : Status where
  running := true
  accessPoint := { running := true, pid := 8, beaconing := true, detail := "started" }
  dhcp := { running := true, pid := 14, detail := "started" }
  radio := { detail := "Caspian could not check whether the wireless adapter is switched on." }

theorem calm_start_runs :
    ∃ st s', start calmEnv (namedPlan "Caspian") (boot noRadios) = (.ok st, s') ∧
      st.running = true ∧ s'.machine.Runs (namedPlan "Caspian").files := by
  have hstart : start calmEnv (namedPlan "Caspian") (boot noRadios) = (.ok calmStatus, _) :=
    eq_of_fst (by decide +kernel)
  have hready : (run calmEnv (boot noRadios) []).machine.Ready (namedPlan "Caspian").files :=
    fun k => ⟨fun p hp => (nomatch hp), fun _ p hp => (nomatch hp)⟩
  exact ⟨_, _, hstart, rfl, start_runs_plan hready hstart⟩

/-- The network is renamed, the start that does so stops half way, and the next
one reports a running hotspot over a hostapd with the old name. -/
theorem renamed_not_restarted :
    ∃ st s', start missEnv (namedPlan "Anzali") (run missEnv (boot noRadios)
        [.start (namedPlan "Caspian"), .start (namedPlan "Anzali")]) = (.ok st, s') ∧
      st.running = true ∧
      (∃ p ∈ s'.machine.procs, p.daemon = some .hostapd ∧
        p.loaded = (namedPlan "Caspian").files .hostapd) ∧
      ¬s'.machine.Runs (namedPlan "Anzali").files := by
  have hne : (namedPlan "Caspian").files .hostapd ≠ (namedPlan "Anzali").files .hostapd :=
    namedPlan_files_ne (by decide +kernel) (by decide +kernel) (by decide)
  have hrun : run missEnv (boot noRadios)
      [.start (namedPlan "Caspian"), .start (namedPlan "Anzali")] =
        afterSecond (namedPlan "Caspian").files (namedPlan "Anzali").files := by
    rw [run_cons, run_cons, run_nil, advance_start, advance_start, boot_noRadios, first_start,
      second_start _ _ hne]
  have hmem : (⟨8, some .hostapd, (namedPlan "Caspian").files .hostapd, 9⟩ : Proc) ∈
      (afterThird (namedPlan "Caspian").files (namedPlan "Anzali").files).machine.procs :=
    List.mem_cons_of_mem _ List.mem_cons_self
  refine ⟨thirdStatus, afterThird _ _, ?_, rfl, ⟨_, hmem, rfl, rfl⟩, ?_⟩
  · rw [hrun]
    exact third_start _ _ rfl
  · intro hruns
    exact hne (hruns _ hmem .hostapd rfl).2

end Caspian.Hotspot
