import Caspian.Netcfg.SimulatedKernel

/-!
# What a command does to the machine

The abstract machine below the simulated kernel.  Every command denotes one
`Effect`, and an effect acts on the `Core` alone, given what the driver
refuses.  `run_core` and `run_reply` say that the simulated kernel refines
this machine: a command moves the core as its effect does and is answered as
its effect is.  Everything proved about recovery is proved about effects.
-/

namespace Caspian.Netcfg

open Verified

/-- What a command asks of the machine. -/
inductive Effect where
  /-- Load a ruleset: nothing a snapshot shows. -/
  | loadRules
  | setKnob (knob value : String)
  | addIface (name type : String)
  | delIface (name : String)
  | setType (name type : String)
  | setManaged (name : String) (released : Bool)
  | linkUp (name : String)
  /-- Any other change of a link, which always succeeds. -/
  | linkSet
  | addAddr (dev pfx : String)
  | delAddr (dev pfx : String)
  | addRoute (table pfx : String)
  | delRoute (table pfx : String)
  | addRule (rule : SimRule)
  | delRule (rule : SimRule)
  /-- A rule without priority, for which the kernel picks one. -/
  | autoRule (selector : String)
  /-- A question; the machine stays as it is. -/
  | query
  /-- A request refused before it reaches the machine. -/
  | reject (reply : Reply)
  deriving DecidableEq

/-- What the driver refuses: every retyping, every interface creation (the
empty text refuses nothing), and bringing some links up. -/
structure Driver where
  setType : String
  ifaceAdd : String
  linkWall : String → Option String

/-- The driver of a simulated kernel. -/
def SimulatedKernel.driver (k : SimulatedKernel) : Driver where
  setType := k.refuseSetType
  ifaceAdd := k.refuseIfaceAdd
  linkWall := k.linkWall

/-- The driver with every link free to come up. -/
def Driver.unwalled (d : Driver) : Driver := { d with linkWall := fun _ => none }

/-- The effect leaves open or shut the way of one link: no interface comes or
goes, and no other link comes up. -/
def Effect.Calm (name : String) : Effect → Prop
  | addIface _ _ => False
  | delIface _ => False
  | linkUp other => other = name
  | _ => True

/-- An effect on the core, and the answer to it. -/
def Effect.on (d : Driver) (e : Effect) (c : Core) : Core × Reply :=
  match e with
  | loadRules => (c, simOK)
  | setKnob knob value => ({ c with sysctl := c.sysctl.insert knob value }, simOK)
  | addIface name type =>
    if d.ifaceAdd ≠ "" then (c, simFail d.ifaceAdd)
    else if name ∈ c.ifaces then (c, simFail simIwExists)
    else ({ c with ifaces := c.ifaces.insert name { type := type } }, simOK)
  | delIface name =>
    if name ∈ c.ifaces then ({ c with ifaces := c.ifaces.erase name }, simOK)
    else (c, simFail simIwNoDev)
  | setType name type =>
    if d.setType ≠ "" then (c, simFail d.setType)
    else
      match c.ifaces.lookup name with
      | none => (c, simFail simIwNoDev)
      | some i =>
        ({ c with ifaces := c.ifaces.insert name { i with type := type } }, simOK)
  | setManaged name released =>
    match c.ifaces.lookup name with
    | none => (c, simFail ("Error: Device '" ++ name ++ "' not found."))
    | some i =>
      ({ c with ifaces := c.ifaces.insert name { i with released := released } },
        simOK)
  | linkUp name =>
    if name ∈ c.ifaces then
      match d.linkWall name with
      | some msg => (c, simFail msg)
      | none => (c, simOK)
    else (c, simFail simNoDev)
  | linkSet => (c, simOK)
  | addAddr dev pfx =>
    if dev ∉ c.ifaces then (c, simFail simNoDev)
    else if (dev, pfx) ∈ c.addrs then (c, simFail simExists)
    else ({ c with addrs := insert (dev, pfx) c.addrs }, simOK)
  | delAddr dev pfx =>
    if dev ∉ c.ifaces then (c, simFail simNoDev)
    else if (dev, pfx) ∈ c.addrs then ({ c with addrs := c.addrs.erase (dev, pfx) }, simOK)
    else (c, simFail simNoEntry)
  | addRoute table pfx =>
    if (table, pfx) ∈ c.routes then (c, simFail simExists)
    else ({ c with routes := insert (table, pfx) c.routes }, simOK)
  | delRoute table pfx =>
    if (table, pfx) ∈ c.routes then
      ({ c with routes := c.routes.erase (table, pfx) }, simOK)
    else (c, simFail simNoEntry)
  | addRule rule =>
    if rule ∈ c.rules then (c, simFail simExists)
    else ({ c with rules := c.rules ++ [rule] }, simOK)
  | delRule rule =>
    if rule ∈ c.rules then ({ c with rules := c.rules.erase rule }, simOK)
    else (c, simFail simNoEntry)
  | autoRule selector =>
    ({ c with rules := c.rules ++
        [{ priority := SimulatedKernel.nextFreePriority c.rules, selector := selector }] },
      simOK)
  | query => (c, simOK)
  | reject reply => (c, reply)

/-! ## The effect of a command -/

def nftEffect (args : List String) : Effect :=
  if 2 ≤ args.length ∧ args.head? = some "list" then .query else .loadRules

def sysctlEffect : List String → Effect
  | "-w" :: setting :: _ =>
    match Text.cut '=' setting with
    | none => .reject (simFail "sysctl: malformed setting")
    | some (key, val) => .setKnob key val
  | _ => .query

def nmcliEffect : List String → Effect
  | "device" :: "set" :: name :: "managed" :: value :: _ => .setManaged name (value = "no")
  | _ => .query

def iwEffect : List String → Effect
  | ["dev", _, "link"] => .query
  | "dev" :: name :: "set" :: "type" :: type :: _ => .setType name type
  | "phy" :: _ :: "interface" :: "add" :: name :: rest =>
    .addIface name ((rest.drop 1).headD "")
  | "dev" :: name :: "del" :: _ => .delIface name
  | _ => .query

def linkEffect (a : List String) : Effect :=
  if SimulatedKernel.isRead a then .query
  else
    match a with
    | _ :: "set" :: "dev" :: name :: _ :: _ =>
      if a.getLast? = some "up" then .linkUp name else .linkSet
    | _ => .linkSet

def addrEffect (a : List String) : Effect :=
  match a with
  | _ :: verb :: pfx :: _ :: _ =>
    let dev := argAfter "dev" a
    if dev = "" then .reject (simFail simNoDev)
    else if verb = "add" then .addAddr dev pfx
    else if verb = "del" then .delAddr dev pfx
    else .query
  | _ => .query

def routeEffect (family : String) (a : List String) : Effect :=
  match a with
  | _ :: verb :: pfx :: _ =>
    if verb = "add" then .addRoute (SimulatedKernel.routeTable a) (family ++ pfx)
    else if verb = "del" then .delRoute (SimulatedKernel.routeTable a) (family ++ pfx)
    else .query
  | _ => .query

def ruleEffect (a : List String) : Effect :=
  match a with
  | _ :: verb :: rest =>
    let prio := argAfter "priority" a
    let selector := String.intercalate " " (SimulatedKernel.ruleSelector rest)
    if verb = "add" then
      if prio = "" then .autoRule selector
      else .addRule { priority := prio, selector := selector }
    else if verb = "del" then .delRule { priority := prio, selector := selector }
    else .query
  | _ => .query

def ipEffect (args : List String) : Effect :=
  let (family, a) := SimulatedKernel.ipFlags args
  match a with
  | [] => .query
  | object :: _ =>
    if object = "link" then linkEffect a
    else if object = "address" ∨ object = "addr" then
      if SimulatedKernel.isRead a then .query else addrEffect a
    else if object = "route" then
      if SimulatedKernel.isRead a then .query else routeEffect family a
    else if object = "rule" then ruleEffect a
    else .query

/-- The effect of a command: nothing reaches the machine that `ValidateCommand`
refuses. -/
def effect (c : Command) : Effect :=
  match validateCommand c with
  | some msg => .reject ({}, some msg)
  | none =>
    if c.path = binNft then nftEffect c.args
    else if c.path = binSysctl then sysctlEffect c.args
    else if c.path = binNmcli then nmcliEffect c.args
    else if c.path = binIw then iwEffect c.args
    else ipEffect c.args

/-! ## The kernel refines the effects -/

/-- A run follows an effect: it moves the core as the effect does and, unless
the effect is a question, is answered as the effect is.  What the driver
refuses stays the same, links only as far as the effect is calm. -/
structure Follows (k : SimulatedKernel) (out : SimulatedKernel × Reply) (e : Effect) :
    Prop where
  core : out.1.toCore = (e.on k.driver k.toCore).1
  reply : e ≠ .query → out.2 = (e.on k.driver k.toCore).2
  driver : out.1.driver.unwalled = k.driver.unwalled
  wall : ∀ name, e.Calm name → out.1.linkWall name = k.linkWall name

namespace SimulatedKernel

variable (k : SimulatedKernel) (c : Command)

/-- A question that leaves the kernel alone follows `query`. -/
theorem follows_query (reply : Reply) : Follows k (k, reply) .query :=
  ⟨rfl, fun h => absurd rfl h, rfl, fun _ _ => rfl⟩

theorem defer_follows : Follows k (k.defer c) .query :=
  ⟨rfl, fun h => absurd rfl h, rfl, fun _ _ => rfl⟩

variable {out : SimulatedKernel × Reply} {e : Effect}

/-- A run that agrees with the effect in core and answer, and leaves the driver
and the links alone, follows it. -/
theorem follows_of_eq (h : (out.1.toCore, out.2) = e.on k.driver k.toCore)
    (hd : out.1.driver = k.driver) : Follows k out e :=
  ⟨congrArg Prod.fst h, fun _ => congrArg Prod.snd h, by rw [hd],
    fun name _ => congrFun (congrArg Driver.linkWall hd) name⟩

theorem runNft_follows : Follows k (k.runNft c) (nftEffect c.args) := by
  unfold runNft nftEffect
  split
  · split <;> exact follows_query k _
  · exact ⟨rfl, fun _ => rfl, rfl, fun _ _ => rfl⟩

theorem runSysctl_follows : Follows k (k.runSysctl c) (sysctlEffect c.args) := by
  unfold runSysctl
  split
  next setting tail heq =>
    cases hcut : Text.cut '=' setting with
    | none | some kv =>
      simp only [heq, sysctlEffect, hcut]
      exact ⟨rfl, fun _ => rfl, rfl, fun _ _ => rfl⟩
  next hne =>
    have hq : sysctlEffect c.args = .query := by
      unfold sysctlEffect
      split
      · exact absurd ‹_› (hne _ _)
      · rfl
    rw [hq]
    split
    · exact follows_query k _
    · exact defer_follows k c

theorem runNmcli_follows : Follows k (k.runNmcli c) (nmcliEffect c.args) := by
  unfold runNmcli
  split
  next name value tail heq =>
    simp only [heq, nmcliEffect]
    refine follows_of_eq k ?_ (by split <;> rfl)
    cases hi : k.ifaces.lookup name with
    | none | some i => simp [Effect.on, hi]
  next hne =>
    have hq : nmcliEffect c.args = .query := by
      unfold nmcliEffect
      split
      · exact absurd ‹_› (hne _ _ _)
      · rfl
    rw [hq]
    split <;> exact follows_query k _

/-- A run that agrees with the effect in core and answer follows it when the
effect is calm for no link. -/
theorem follows_of_stir (h : (out.1.toCore, out.2) = e.on k.driver k.toCore)
    (hd : out.1.driver.unwalled = k.driver.unwalled) (he : ∀ name, ¬e.Calm name) :
    Follows k out e :=
  ⟨congrArg Prod.fst h, fun _ => congrArg Prod.snd h, hd, fun name hc => absurd hc (he name)⟩

theorem runIfaceAdd_follows (phy name type : String) :
    Follows k (k.runIfaceAdd phy name type) (.addIface name type) := by
  refine follows_of_stir k ?_ (by unfold runIfaceAdd; (repeat' split) <;> rfl) fun _ h => h
  by_cases hr : k.refuseIfaceAdd = ""
  · by_cases hn : name ∈ k.ifaces <;> simp [Effect.on, driver, runIfaceAdd, hr, hn]
  · simp [Effect.on, driver, runIfaceAdd, hr]

theorem runIfaceDel_follows (name : String) :
    Follows k (k.runIfaceDel name) (.delIface name) := by
  refine follows_of_stir k ?_ (by unfold runIfaceDel; split <;> rfl) fun _ h => h
  by_cases hn : name ∈ k.ifaces <;> simp [Effect.on, runIfaceDel, hn]

theorem runSetType_follows (name type : String) :
    Follows k (k.runSetType name type) (.setType name type) := by
  refine follows_of_eq k ?_ (by unfold runSetType; (repeat' split) <;> rfl)
  by_cases hr : k.refuseSetType = ""
  · cases hi : k.ifaces.lookup name with
    | none | some i => simp [Effect.on, driver, runSetType, hr, hi]
  · simp [Effect.on, driver, runSetType, hr]

theorem runIwLink_follows (name : String) : Follows k (k.runIwLink name) .query := by
  unfold runIwLink
  split
  · split <;> exact follows_query k _
  · exact follows_query k _

theorem runIw_follows : Follows k (k.runIw c) (iwEffect c.args) := by
  unfold runIw
  split
  next name heq =>
    simp only [heq, iwEffect]
    exact runIwLink_follows k name
  next name type tail heq =>
    simp only [heq, iwEffect]
    exact runSetType_follows k name type
  next phy name rest heq =>
    simp only [heq, iwEffect]
    exact runIfaceAdd_follows k phy name _
  next name tail heq =>
    cases tail with
    | nil | cons t ts =>
      simp only [heq, iwEffect]
      exact runIfaceDel_follows k name
  next h1 h2 h3 h4 =>
    have hq : iwEffect c.args = .query := by
      unfold iwEffect
      split
      · rfl
      · exact absurd ‹_› (h2 _ _ _)
      · exact absurd ‹_› (h3 _ _ _)
      · exact absurd ‹_› (h4 _ _)
      · rfl
    rw [hq]
    exact defer_follows k c

/-- A link that came up does not stand in its own way. -/
theorem linkWall_insert_up (name : String) :
    ({ k with up := insert name k.up } : SimulatedKernel).linkWall name =
      k.linkWall name := by
  have hup : ∀ (m : List (String × String)) (v : String),
      (m.any fun e => e.1 ≠ name && e.2 = v && e.1 ∈ insert name k.up) =
        m.any fun e => e.1 ≠ name && e.2 = v && e.1 ∈ k.up := by
    intro m v
    congr 1
    funext e
    by_cases he : e.1 = name <;> simp [he]
  unfold linkWall
  simp only [hup]

theorem runLinkUp_follows (name : String) : Follows k (k.runLinkUp name) (.linkUp name) := by
  by_cases hn : name ∈ k.ifaces
  · cases hw : k.linkWall name with
    | none =>
      refine ⟨?_, fun _ => ?_, ?_, ?_⟩
      · simp [Effect.on, driver, runLinkUp, hn, hw]
      · simp [Effect.on, driver, runLinkUp, hn, hw]
      · simp [Driver.unwalled, driver, runLinkUp, hn, hw]
      · intro other hother
        obtain rfl : name = other := hother
        simp only [runLinkUp, hn, if_true, hw]
        exact (linkWall_insert_up k name).trans hw
    | some msg =>
      refine follows_of_eq k ?_ ?_
      · simp [Effect.on, driver, runLinkUp, hn, hw]
      · simp [runLinkUp, hn, hw]
  · refine follows_of_eq k ?_ ?_
    · simp [Effect.on, runLinkUp, hn]
    · simp [runLinkUp, hn]

theorem runLinkShowDev_follows (name : String) :
    Follows k (k.runLinkShowDev name) .query := by
  unfold runLinkShowDev
  split <;> exact follows_query k _

theorem runIPLink_follows (a : List String) :
    Follows k (k.runIPLink c a) (linkEffect a) := by
  unfold runIPLink linkEffect
  split
  · split
    · exact runLinkShowDev_follows k _
    · exact defer_follows k c
  · by_cases hset : ∃ object name w tail, a = object :: "set" :: "dev" :: name :: w :: tail
    · obtain ⟨object, name, w, tail, rfl⟩ := hset
      simp only
      split
      · exact runLinkUp_follows k _
      · exact ⟨rfl, fun _ => rfl, rfl, fun _ _ => rfl⟩
    · repeat' split
      all_goals first
        | exact ⟨rfl, fun _ => rfl, rfl, fun _ _ => rfl⟩
        | exact absurd ⟨_, _, _, _, rfl⟩ hset

theorem runIPAddr_follows (a : List String) : Follows k (k.runIPAddr a) (addrEffect a) := by
  match a with
  | [] | [_] | [_, _] | [_, _, _] => exact follows_query k _
  | object :: verb :: pfx :: w :: tail =>
    unfold runIPAddr addrEffect
    simp only
    generalize argAfter "dev" (object :: verb :: pfx :: w :: tail) = dev
    by_cases hd : dev = ""
    · simp only [hd, true_or, if_true]
      exact ⟨rfl, fun _ => rfl, rfl, fun _ _ => rfl⟩
    · by_cases hadd : verb = "add"
      · refine follows_of_eq k ?_ (by (repeat' split) <;> rfl)
        by_cases hi : dev ∈ k.ifaces
        · by_cases ha : (dev, pfx) ∈ k.addrs <;> simp [Effect.on, hd, hadd, hi, ha]
        · simp [Effect.on, hd, hadd, hi]
      · by_cases hdel : verb = "del"
        · refine follows_of_eq k ?_ (by (repeat' split) <;> rfl)
          by_cases hi : dev ∈ k.ifaces
          · by_cases ha : (dev, pfx) ∈ k.addrs <;> simp [Effect.on, hd, hdel, hi, ha]
          · simp [Effect.on, hd, hdel, hi]
        · simp only [hd, hadd, hdel, if_false]
          split <;> exact follows_query k _

theorem runIPRoute_follows (family : String) (a : List String) :
    Follows k (k.runIPRoute family a) (routeEffect family a) := by
  match a with
  | [] | [_] | [_, _] => exact follows_query k _
  | object :: verb :: pfx :: tail =>
    unfold runIPRoute routeEffect
    simp only
    generalize routeTable (object :: verb :: pfx :: tail) = table
    by_cases hadd : verb = "add"
    · refine follows_of_eq k ?_ (by (repeat' split) <;> rfl)
      by_cases hr : (table, family ++ pfx) ∈ k.routes <;> simp [Effect.on, hadd, hr]
    · by_cases hdel : verb = "del"
      · refine follows_of_eq k ?_ (by (repeat' split) <;> rfl)
        by_cases hr : (table, family ++ pfx) ∈ k.routes <;> simp [Effect.on, hdel, hr]
      · simp only [hadd, hdel, if_false]
        exact follows_query k _

theorem runIPRule_follows (a : List String) : Follows k (k.runIPRule a) (ruleEffect a) := by
  match a with
  | [] | [_] => exact follows_query k _
  | object :: verb :: rest =>
    unfold runIPRule ruleEffect
    simp only
    generalize argAfter "priority" (object :: verb :: rest) = prio
    generalize String.intercalate " " (ruleSelector rest) = sel
    by_cases hadd : verb = "add"
    · by_cases hp : prio = ""
      · simp only [hadd, hp, if_true]
        exact ⟨rfl, fun _ => rfl, rfl, fun _ _ => rfl⟩
      · refine follows_of_eq k ?_ (by (repeat' split) <;> rfl)
        by_cases hr : (⟨prio, sel⟩ : SimRule) ∈ k.rules <;> simp [Effect.on, hadd, hp, hr]
    · by_cases hdel : verb = "del"
      · refine follows_of_eq k ?_ (by (repeat' split) <;> rfl)
        by_cases hr : (⟨prio, sel⟩ : SimRule) ∈ k.rules <;> simp [Effect.on, hdel, hr]
      · simp only [hadd, hdel, if_false]
        split <;> exact follows_query k _

theorem runIP_follows : Follows k (k.runIP c) (ipEffect c.args) := by
  unfold runIP ipEffect
  generalize ipFlags c.args = flags
  obtain ⟨family, a⟩ := flags
  cases a with
  | nil => exact follows_query k _
  | cons object rest =>
    simp only
    split
    · exact runIPLink_follows k c _
    · split
      · split
        · exact defer_follows k c
        · exact runIPAddr_follows k _
      · split
        · split
          · exact defer_follows k c
          · exact runIPRoute_follows k family _
        · split
          · exact runIPRule_follows k _
          · exact defer_follows k c

/-- Recording the command does not change what the kernel is. -/
theorem follows_of_recorded (h : Follows { k with cmds := k.cmds ++ [c] } out e) :
    Follows k out e :=
  ⟨h.core, h.reply, h.driver, h.wall⟩

/-- **The simulated kernel refines the effects.** -/
theorem run_follows : Follows k (k.run c) (effect c) := by
  unfold run effect
  cases validateCommand c with
  | some msg => exact ⟨rfl, fun _ => rfl, rfl, fun _ _ => rfl⟩
  | none =>
    simp only
    apply follows_of_recorded k c
    split
    · exact runNft_follows _ c
    · split
      · exact runSysctl_follows _ c
      · split
        · exact runNmcli_follows _ c
        · split
          · exact runIw_follows _ c
          · exact runIP_follows _ c

end SimulatedKernel

end Caspian.Netcfg
