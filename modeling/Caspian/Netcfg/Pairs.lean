import Caspian.Netcfg.Effect
import Caspian.Netcfg.Apply

/-!
# The steps of a Linux plan, as pairs of effects

A `Pair` is a change and its inverse as effects on the machine.  Every step of
a Linux plan is one of them (`linuxSteps_are`), and everything proved later
about applying, tearing down and recovering is proved about pairs, so that a
change of the generated command lines is confined to this module.
-/

namespace Caspian.Netcfg

open Verified Netip

/-- A change and the change that takes it back. -/
inductive Pair where
  | firewall
  | knob (name value prev : String)
  | knobOnly (name value : String)
  | create (name type : String)
  | releaseCreated (name : String)
  | release (name : String)
  | strip (dev pfx : String)
  | down (name : String)
  | retype (name type : String)
  | up (name : String)
  | addr (dev pfx : String)
  | route (table pfx table' : String)
  | rule (r : SimRule)
  deriving DecidableEq

namespace Pair

/-- The change. -/
def run : Pair → Effect
  | firewall => .loadRules
  | knob name value _ => .setKnob name value
  | knobOnly name value => .setKnob name value
  | create name type => .addIface name type
  | releaseCreated name => .setManaged name true
  | release name => .setManaged name true
  | strip dev pfx => .delAddr dev pfx
  | down _ => .linkSet
  | retype name type => .setType name type
  | up name => .linkUp name
  | addr dev pfx => .addAddr dev pfx
  | route table pfx _ => .addRoute table pfx
  | rule r => .addRule r

/-- Its inverse. -/
def undo : Pair → Option Effect
  | firewall => some .loadRules
  | knob name _ prev => some (.setKnob name prev)
  | knobOnly _ _ => none
  | create name _ => some (.delIface name)
  | releaseCreated _ => none
  | release name => some (.setManaged name false)
  | strip dev pfx => some (.addAddr dev pfx)
  | down name => some (.linkUp name)
  | retype name _ => some (.setType name "managed")
  | up _ => none
  | addr dev pfx => some (.delAddr dev pfx)
  | route _ pfx table' => some (.delRoute table' pfx)
  | rule r => some (.delRule r)

/-- The query asked before the change. -/
def pre : Pair → Option AlreadyApplied
  | create name _ => some (ifacePresent name)
  | _ => none

/-- The names `commandRemoves` takes for a verb when they stand for the
interface in `iw dev <name> del`. -/
def verbNames : List String := ["add", "replace", "set"]

/-- The two commands name the same things, so that one may run when the other
may.  Creating an interface also names the radio, and writing a knob back
names the value that was read. -/
def tied : Pair → Bool
  | create _ _ => false
  | knob _ _ _ => false
  | _ => true

/-- What is known about which of the two commands counts as a removal. -/
def Removal (π : Pair) (run undo : Command) : Prop :=
  match π with
  | strip _ _ => commandRemoves run = true
  | addr _ _ => commandRemoves undo = true
  | route _ _ _ => commandRemoves undo = true
  | rule _ => commandRemoves undo = true
  | create name _ => name ∉ verbNames → commandRemoves undo = true
  | _ => True

end Pair

/-- A step carries out a pair. -/
structure Step.Is (s : Step) (π : Pair) : Prop where
  run_isZero : s.run.isZero = false
  run_eq : validateCommand s.run = none → effect s.run = π.run
  undo_isZero : s.undo.isZero = π.undo.isNone
  undo_eq : ∀ u, π.undo = some u → validateCommand s.undo = none → effect s.undo = u
  valid : π.tied = true → π.undo.isSome = true → validateCommand s.undo = none →
    validateCommand s.run = none
  valid_undo : (∀ name value prev, π ≠ .knob name value prev) → validateCommand s.run = none →
    s.undo.isZero = false → validateCommand s.undo = none
  valid_firewall : π = .firewall → validateCommand s.undo = none
  valid_query : ∀ q, s.pre = some q → validateCommand s.undo = none →
    validateCommand q.query = none
  pre_eq : s.pre = π.pre
  removal : π.Removal s.run s.undo
  op_nft : s.op = opNft ↔ π = .firewall
  undo_path : s.undo.isZero = false → s.undo.path ∈ allowedBinaries
  line : π = .firewall ∧ commandLine s.run = "nft -f -" ∨
    s.run.stdin = "" ∧ commandLine s.run ≠ "nft -f -"

/-! ## Effects of the generated command lines -/

variable {why : String} {args : List String}

theorem effect_ip (h : validateCommand (ipCmd why args) = none) :
    effect (ipCmd why args) = ipEffect args := by
  unfold effect
  rw [h]
  rfl

theorem effect_iw (h : validateCommand { path := binIw, args := args, why := why } = none) :
    effect { path := binIw, args := args, why := why } = iwEffect args := by
  unfold effect
  rw [h]
  rfl

theorem effect_nmcli (h : validateCommand { path := binNmcli, args := args, why := why } = none) :
    effect { path := binNmcli, args := args, why := why } = nmcliEffect args := by
  unfold effect
  rw [h]
  rfl

theorem effect_sysctl (h : validateCommand { path := binSysctl, args := args, why := why } = none) :
    effect { path := binSysctl, args := args, why := why } = sysctlEffect args := by
  unfold effect
  rw [h]
  rfl

variable {a : String}

theorem addrAdd_effect {d : String} (ha : a ≠ "dev") (hd : d ≠ "") :
    ipEffect ["address", "add", a, "dev", d] = .addAddr d a := by
  simp [ipEffect, SimulatedKernel.ipFlags, Text.hasPrefix, addrEffect,
    SimulatedKernel.isRead, argAfter, ha, hd]

theorem addrDel_effect {d : String} (ha : a ≠ "dev") (hd : d ≠ "") :
    ipEffect ["address", "del", a, "dev", d] = .delAddr d a := by
  simp [ipEffect, SimulatedKernel.ipFlags, Text.hasPrefix, addrEffect,
    SimulatedKernel.isRead, argAfter, ha, hd]

theorem linkUp_effect (d : String) :
    ipEffect ["link", "set", "dev", d, "up"] = .linkUp d := by
  simp [ipEffect, SimulatedKernel.ipFlags, Text.hasPrefix, linkEffect,
    SimulatedKernel.isRead]

theorem linkDown_effect (d : String) :
    ipEffect ["link", "set", "dev", d, "down"] = .linkSet := by
  simp [ipEffect, SimulatedKernel.ipFlags, Text.hasPrefix, linkEffect,
    SimulatedKernel.isRead]

variable {knob value : String}

theorem knob_effect (h : '=' ∉ knob.toList) :
    sysctlEffect ["-w", knob ++ "=" ++ value] = .setKnob knob value := by
  have hcut : Text.cut '=' (knob ++ "=" ++ value) = some (knob, value) :=
    Text.cut_append '=' knob value h
  simp [sysctlEffect, hcut]

/-- The fixed words of the generated command lines. -/
def plainWords : List String :=
  ["address", "add", "del", "-br", "show", "dev", "link", "set", "up", "down", "route", "rule", "proto",
    "static", "scope", "table", "-6", "managed", "no", "yes", "device", "type", "__ap"]

theorem noNul_of_plainWord (h : a ∈ plainWords) : '\u0000' ∉ a.toList := by
  revert a
  decide

variable {why' : String}

theorem isZero_of_allowed {path : String} (hpath : path ∈ allowedBinaries) :
    Command.isZero { path := path, args := args, why := why } = false := by
  have hne : path ≠ "" := fun he => absurd (he ▸ hpath) (by decide)
  simp [Command.isZero, hne]

/-- A command whose arguments are among those of a valid one, or fixed words,
is valid. -/
theorem validate_of_subset {path path' : String} {args' : List String}
    (hpath : path ∈ allowedBinaries) (hpath' : path' ∈ allowedBinaries)
    (h : validateCommand { path := path, args := args, why := why } = none)
    (hsub : ∀ a ∈ args', a ∈ args ∨ a ∈ plainWords) :
    validateCommand { path := path', args := args', why := why' } = none := by
  simp only [validateCommand, isZero_of_allowed hpath, isZero_of_allowed hpath',
    Bool.false_eq_true, if_false,
    hpath, hpath', not_true, Option.map_eq_none_iff, nulArgument,
    List.findIdx?_eq_none_iff] at h ⊢
  intro a ha
  rcases hsub a ha with hmem | hword
  · exact h a hmem
  · simpa using noNul_of_plainWord hword

theorem ip_other : binIP ∈ [binIP, binIw, binNmcli, binSysctl] := by decide

theorem iw_other : binIw ∈ [binIP, binIw, binNmcli, binSysctl] := by decide

theorem nmcli_other : binNmcli ∈ [binIP, binIw, binNmcli, binSysctl] := by decide

theorem sysctl_other : binSysctl ∈ [binIP, binIw, binNmcli, binSysctl] := by decide

theorem other_allowed {path : String} (hpath : path ∈ [binIP, binIw, binNmcli, binSysctl]) :
    path ∈ allowedBinaries := by
  revert path
  decide

/-- No other tool's command line is the firewall's. -/
theorem line_ne {path : String} (hpath : path ∈ [binIP, binIw, binNmcli, binSysctl]) :
    commandLine { path := path, args := args, why := why } ≠ "nft -f -" := by
  intro h
  have hl := congrArg String.toList h
  simp only [List.mem_cons, List.not_mem_nil, or_false] at hpath
  unfold commandLine at hl
  rcases hpath with rfl | rfl | rfl | rfl
  all_goals
    split at hl <;> simp [binIP, binIw, binNmcli, binSysctl] at hl

/-! ## Every step is a pair -/

namespace Plan

section Tool

variable {op path reason : String} {args' : List String} {π : Pair}
  (hpath : path ∈ [binIP, binIw, binNmcli, binSysctl]) (hop : op ≠ opNft) (hpre : π.pre = none)
  (hfire : π ≠ .firewall)
  (hrun : validateCommand { path := path, args := args, why := why } = none →
    effect { path := path, args := args, why := why } = π.run)
include hpath hop hpre hfire hrun

/-- Two commands of one tool that name the same things, up to fixed words. -/
theorem is_of_tool {u : Effect} (hundo : π.undo = some u)
    (hback : validateCommand { path := path, args := args', why := why' } = none →
      effect { path := path, args := args', why := why' } = u)
    (hsub : ∀ a ∈ args, a ∈ args' ∨ a ∈ plainWords)
    (hsub' : ∀ a ∈ args', a ∈ args ∨ a ∈ plainWords)
    (hremoval : π.Removal { path := path, args := args, why := why }
      { path := path, args := args', why := why' }) :
    Step.Is { op := op, why := reason
              run := { path := path, args := args, why := why }
              undo := { path := path, args := args', why := why' } } π where
  run_isZero := isZero_of_allowed (other_allowed hpath)
  run_eq := hrun
  undo_isZero := by rw [hundo]; exact isZero_of_allowed (other_allowed hpath)
  undo_eq v hv := by
    obtain rfl := Option.some.inj (hundo.symm.trans hv)
    exact hback
  valid _ _ hv := validate_of_subset (other_allowed hpath) (other_allowed hpath) hv hsub
  valid_undo _ hv _ := validate_of_subset (other_allowed hpath) (other_allowed hpath) hv hsub'
  valid_firewall h := absurd h hfire
  valid_query _ h _ := by cases h
  pre_eq := hpre.symm
  removal := hremoval
  op_nft := iff_of_false hop hfire
  undo_path _ := other_allowed hpath
  line := Or.inr ⟨rfl, line_ne hpath⟩

/-- A command that has no inverse. -/
theorem is_of_tool_alone (hundo : π.undo = none) (hremoval : ∀ run undo, π.Removal run undo) :
    Step.Is { op := op, why := reason, run := { path := path, args := args, why := why } }
      π where
  run_isZero := isZero_of_allowed (other_allowed hpath)
  run_eq := hrun
  undo_isZero := by rw [hundo]; rfl
  undo_eq u hu _ := by rw [hundo] at hu; cases hu
  valid _ h _ := by rw [hundo] at h; cases h
  valid_undo _ _ h := by cases h
  valid_firewall h := absurd h hfire
  valid_query _ h _ := by cases h
  pre_eq := hpre.symm
  removal := hremoval _ _
  op_nft := iff_of_false hop hfire
  undo_path h := by cases h
  line := Or.inr ⟨rfl, line_ne hpath⟩

end Tool

variable (p : Plan)

theorem firewallStep_is : p.firewallStep.Is .firewall where
  run_isZero := rfl
  run_eq _ := rfl
  undo_isZero := rfl
  undo_eq u hu _ := by
    obtain rfl := Option.some.inj hu
    rfl
  valid _ _ _ := rfl
  valid_undo _ _ _ := rfl
  valid_firewall _ := rfl
  valid_query _ h _ := by cases h
  pre_eq := rfl
  removal := trivial
  op_nft := iff_of_true rfl rfl
  undo_path _ := (by decide : binNft ∈ allowedBinaries)
  line := Or.inl ⟨rfl, rfl⟩

theorem stripStep_is (pfx : Prefix) (hh : p.hotspot ≠ "") :
    (p.stripStep pfx).Is (.strip p.hotspot pfx.text) :=
  have hp : pfx.text ≠ "dev" := pfx.text_ne (by decide) (by decide)
  is_of_tool ip_other (by decide) rfl nofun (fun hv => (effect_ip hv).trans (addrDel_effect hp hh))
    rfl (fun hv => (effect_ip hv).trans (addrAdd_effect hp hh)) (by simp [plainWords])
    (by simp [plainWords]) rfl

/-- An address put on an interface, and taken off again. -/
theorem addrStep_is {pfx : Prefix} {dev : String} (hd : dev ≠ "") :
    Step.Is
      { op := opAddr, why := why
        run := ipCmd why ["address", "add", pfx.text, "dev", dev]
        undo := ipCmd why' ["address", "del", pfx.text, "dev", dev] }
      (.addr dev pfx.text) :=
  have hp : pfx.text ≠ "dev" := pfx.text_ne (by decide) (by decide)
  is_of_tool ip_other (by decide) rfl nofun (fun hv => (effect_ip hv).trans (addrAdd_effect hp hd))
    rfl (fun hv => (effect_ip hv).trans (addrDel_effect hp hd)) (by simp [plainWords])
    (by simp [plainWords]) rfl

theorem releaseStep_is : p.releaseStep.Is (.release p.hotspot) :=
  is_of_tool nmcli_other (by decide) rfl nofun effect_nmcli rfl effect_nmcli
    (by simp [plainWords]) (by simp [plainWords]) trivial

/-- A knob written, and written back. -/
theorem sysctlStep_is {prev : String} {current : Readings} (hk : '=' ∉ knob.toList)
    (hprev : current knob = some prev) :
    (sysctlStep knob value current why).Is (.knob knob value prev) where
  run_isZero := by simp [sysctlStep, hprev]; rfl
  run_eq hv := by
    simp only [sysctlStep, hprev] at hv ⊢
    exact (effect_sysctl hv).trans (knob_effect hk)
  undo_isZero := by simp [sysctlStep, hprev]; rfl
  undo_eq u hu hv := by
    obtain rfl := Option.some.inj hu
    simp only [sysctlStep, hprev] at hv ⊢
    exact (effect_sysctl hv).trans (knob_effect hk)
  valid h _ _ := by cases h
  valid_undo h _ _ := absurd rfl (h knob value prev)
  valid_firewall h := by cases h
  valid_query _ h _ := by simp [sysctlStep, hprev] at h
  pre_eq := by simp [sysctlStep, hprev]; rfl
  removal := trivial
  op_nft := by
    simp only [sysctlStep, hprev]
    exact iff_of_false (show opSysctl ≠ opNft by decide) (by simp)
  undo_path _ := by
    simp only [sysctlStep, hprev]
    exact other_allowed sysctl_other
  line := Or.inr (by simp only [sysctlStep, hprev]; exact ⟨trivial, line_ne sysctl_other⟩)

variable {name : String}

/-- The interface created for the access point. -/
theorem createStep_is {phy : String} :
    Step.Is
      { op := opCreateIface, why := why
        run := { path := binIw, why := why
                 args := ["phy", phy, "interface", "add", name, "type", "__ap"] }
        undo := { path := binIw, args := ["dev", name, "del"]
                  why := "remove the interface created for the access point" }
        pre := some (ifacePresent name) }
      (.create name "__ap") where
  run_isZero := rfl
  run_eq hv := effect_iw hv
  undo_isZero := rfl
  undo_eq u hu hv := by
    obtain rfl := Option.some.inj hu
    exact effect_iw hv
  valid h _ _ := by cases h
  valid_undo _ hv _ := validate_of_subset (by decide) (by decide) hv (by simp [plainWords])
  valid_firewall h := by cases h
  valid_query q hq hv := by
    obtain rfl := Option.some.inj hq
    exact validate_of_subset (by decide) (by decide) hv (by simp [plainWords])
  pre_eq := rfl
  removal := by
    intro hn
    simp only [Pair.verbNames, List.mem_cons, List.not_mem_nil, or_false, not_or] at hn
    simp [commandRemoves, removesArgs, hn]
  op_nft := iff_of_false (show opCreateIface ≠ opNft by decide) (by simp)
  undo_path _ := other_allowed iw_other
  line := Or.inr ⟨rfl, line_ne iw_other⟩

theorem releaseCreatedStep_is :
    Step.Is
      { op := opLink, why := why
        run := { path := binNmcli, why := why
                 args := ["device", "set", name, "managed", "no"] } }
      (.releaseCreated name) :=
  is_of_tool_alone nmcli_other (by decide) rfl nofun effect_nmcli rfl fun _ _ => trivial

theorem downStep_is :
    Step.Is
      { op := opLink, why := why
        run := ipCmd why ["link", "set", "dev", name, "down"]
        undo := ipCmd why' ["link", "set", "dev", name, "up"] }
      (.down name) :=
  is_of_tool ip_other (by decide) rfl nofun (fun hv => (effect_ip hv).trans (linkDown_effect name))
    rfl (fun hv => (effect_ip hv).trans (linkUp_effect name)) (by simp [plainWords])
    (by simp [plainWords]) trivial

theorem retypeStep_is :
    Step.Is
      { op := opCreateIface, why := why
        run := { path := binIw, args := ["dev", name, "set", "type", "__ap"], why := why }
        undo := { path := binIw, args := ["dev", name, "set", "type", "managed"]
                  why := why' } }
      (.retype name "__ap") :=
  is_of_tool iw_other (by decide) rfl nofun effect_iw rfl effect_iw (by simp [plainWords])
    (by simp [plainWords]) trivial

theorem upStep_is :
    Step.Is
      { op := opLink, why := why
        run := ipCmd why' ["link", "set", "dev", name, "up"] }
      (.up name) :=
  is_of_tool_alone ip_other (by decide) rfl nofun
    (fun hv => (effect_ip hv).trans (linkUp_effect name)) rfl fun _ _ => trivial

/-! ## Routes and rules -/

theorem argAfter_of_notMem {key : String} (h : key ∉ args) : argAfter key args = "" := by
  induction args with
  | nil => rfl
  | cons a rest ih =>
    cases rest with
    | nil => rfl
    | cons b rest =>
      have ha : a ≠ key := fun he => h (by simp [he])
      have hrest : key ∉ b :: rest := fun hm => h (List.mem_cons_of_mem a hm)
      simp only [argAfter, if_neg ha]
      exact ih hrest

/-- An `ip route` command names its table by the word after `table`. -/
theorem routeAdd_effect (pfx : String) (rest : List String) :
    ipEffect ("route" :: "add" :: pfx :: rest) =
      .addRoute (SimulatedKernel.routeTable ("route" :: "add" :: pfx :: rest)) pfx := by
  simp [ipEffect, SimulatedKernel.ipFlags, Text.hasPrefix, routeEffect,
    SimulatedKernel.isRead]

theorem routeDel_effect (pfx : String) (rest : List String) :
    ipEffect ("route" :: "del" :: pfx :: rest) =
      .delRoute (SimulatedKernel.routeTable ("route" :: "del" :: pfx :: rest)) pfx := by
  simp [ipEffect, SimulatedKernel.ipFlags, Text.hasPrefix, routeEffect,
    SimulatedKernel.isRead]

theorem routeAdd6_effect (pfx : String) (rest : List String) :
    ipEffect ("-6" :: "route" :: "add" :: pfx :: rest) =
      .addRoute (SimulatedKernel.routeTable ("route" :: "add" :: pfx :: rest))
        ("v6:" ++ pfx) := by
  simp [ipEffect, SimulatedKernel.ipFlags, Text.hasPrefix, routeEffect,
    SimulatedKernel.isRead]

theorem routeDel6_effect (pfx : String) (rest : List String) :
    ipEffect ("-6" :: "route" :: "del" :: pfx :: rest) =
      .delRoute (SimulatedKernel.routeTable ("route" :: "del" :: pfx :: rest))
        ("v6:" ++ pfx) := by
  simp [ipEffect, SimulatedKernel.ipFlags, Text.hasPrefix, routeEffect,
    SimulatedKernel.isRead]

variable {rest rest' : List String} (hsub : ∀ a ∈ rest, a ∈ rest' ∨ a ∈ plainWords)

include hsub in
theorem within_same {x : String} : ∀ a ∈ x :: rest, a ∈ x :: rest' ∨ a ∈ plainWords := by
  intro a ha
  rcases List.mem_cons.mp ha with rfl | ha
  · exact Or.inl List.mem_cons_self
  · exact (hsub a ha).imp_left (List.mem_cons_of_mem x)

include hsub in
theorem within_word {x y : String} (hx : x ∈ plainWords) :
    ∀ a ∈ x :: rest, a ∈ y :: rest' ∨ a ∈ plainWords := by
  intro a ha
  rcases List.mem_cons.mp ha with rfl | ha
  · exact Or.inr hx
  · exact (hsub a ha).imp_left (List.mem_cons_of_mem y)

include hsub in
/-- A route added and deleted by command lines that differ in their tail. -/
theorem routeStep_is {pfx : String} (hsub' : ∀ a ∈ rest', a ∈ rest ∨ a ∈ plainWords) :
    Step.Is
      { op := opRoute, why := why
        run := ipCmd why ("route" :: "add" :: pfx :: rest)
        undo := ipCmd why' ("route" :: "del" :: pfx :: rest') }
      (.route (SimulatedKernel.routeTable ("route" :: "add" :: pfx :: rest)) pfx
        (SimulatedKernel.routeTable ("route" :: "del" :: pfx :: rest'))) :=
  is_of_tool ip_other (by decide) rfl nofun
    (fun hv => (effect_ip hv).trans (routeAdd_effect pfx rest)) rfl
    (fun hv => (effect_ip hv).trans (routeDel_effect pfx rest'))
    (within_same (within_word (within_same hsub) (by decide)))
    (within_same (within_word (within_same hsub') (by decide))) rfl

include hsub in
/-- The same for IPv6. -/
theorem routeStep6_is {pfx : String} (hsub' : ∀ a ∈ rest', a ∈ rest ∨ a ∈ plainWords) :
    Step.Is
      { op := opRoute, why := why
        run := ipCmd why ("-6" :: "route" :: "add" :: pfx :: rest)
        undo := ipCmd why' ("-6" :: "route" :: "del" :: pfx :: rest') }
      (.route (SimulatedKernel.routeTable ("route" :: "add" :: pfx :: rest)) ("v6:" ++ pfx)
        (SimulatedKernel.routeTable ("route" :: "del" :: pfx :: rest'))) :=
  is_of_tool ip_other (by decide) rfl nofun
    (fun hv => (effect_ip hv).trans (routeAdd6_effect pfx rest)) rfl
    (fun hv => (effect_ip hv).trans (routeDel6_effect pfx rest'))
    (within_same (within_same (within_word (within_same hsub) (by decide))))
    (within_same (within_same (within_word (within_same hsub') (by decide)))) rfl

/-- The rule a policy command line stands for. -/
def policyRule (word value table prio : String) : SimRule where
  priority := argAfter "priority" [word, value, "lookup", table, "priority", prio]
  selector := String.intercalate " "
    (SimulatedKernel.ruleSelector [word, value, "lookup", table, "priority", prio])

theorem policyRule_priority_ne (word value table prio : String) (hw : word ≠ "priority")
    (hp : prio ≠ "") : (policyRule word value table prio).priority ≠ "" := by
  by_cases hv : value = "priority"
  · simp [policyRule, argAfter, hw, hv]
  · by_cases ht : table = "priority"
    · simp [policyRule, argAfter, hw, hv, ht]
    · simp [policyRule, argAfter, hw, hv, ht, hp]

/-- A policy rule added and deleted. -/
theorem ruleStep_is {word table prio : String} (hw : word ≠ "priority") (hp : prio ≠ "") :
    Step.Is
      { op := opRule, why := why
        run := ipCmd why ["rule", "add", word, value, "lookup", table, "priority", prio]
        undo := ipCmd why' ["rule", "del", word, value, "lookup", table, "priority", prio] }
      (.rule (policyRule word value table prio)) := by
  have hne := policyRule_priority_ne word value table prio hw hp
  refine is_of_tool ip_other (by decide) rfl nofun (fun hv => (effect_ip hv).trans ?_) rfl
    (fun hv => (effect_ip hv).trans ?_) (by simp [plainWords]) (by simp [plainWords]) rfl
  · simp only [policyRule] at hne
    simp [ipEffect, SimulatedKernel.ipFlags, Text.hasPrefix, ruleEffect,
      policyRule, argAfter] at hne ⊢
    simp [hne, Pair.run]
  · simp [ipEffect, SimulatedKernel.ipFlags, Text.hasPrefix, ruleEffect,
      policyRule, argAfter]

/-! ## The plan as pairs -/

/-- The tail of a host route's command line, after the prefix. -/
def hostRouteTail (verb : String) (s : Addr) : List String :=
  (p.hostRouteArgs verb s).drop (if s.is6 then 4 else 3)

/-- The pinned route to one server. -/
def hostRoutePair (s : Addr) : Pair :=
  let pfx := (Prefix.ofAddr s (if s.is6 then 128 else 32)).text
  .route
    (SimulatedKernel.routeTable ("route" :: "add" :: pfx :: p.hostRouteTail "add" s))
    (if s.is6 then "v6:" ++ pfx else pfx)
    (SimulatedKernel.routeTable ("route" :: "del" :: pfx :: p.hostRouteTail "del" s))

def knobPair (knob value : String) (current : Readings) : Pair :=
  match current knob with
  | some prev => .knob knob value prev
  | none => .knobOnly knob value

def knobPairs (current : Readings) : List Pair :=
  [ knobPair knobIPForward "1" current,
    knobPair knobRPFilterAll (itoaInt p.opts.rpFilter) current,
    knobPair knobRPFilterDefault (itoaInt p.opts.rpFilter) current,
    knobPair knobIPv6Forwarding
      (match p.opts.ipv6 with | .block => "0" | .forward => "1") current ]

def virtualPairs : List Pair :=
  if p.hotspotIsVirtual = false ∨ p.hotspot = "" ∨ p.hotspotPhy = "" then []
  else
    .create p.hotspot "__ap" ::
      (if p.networkManagerPresent then [.releaseCreated p.hotspot] else [])

def releasePairs : List Pair :=
  if p.hotspot = "" then []
  else
    (if p.hotspotManager = .networkManager then [.release p.hotspot] else []) ++
      p.hotspotStationPrefixes.map (fun pfx => .strip p.hotspot pfx.text) ++
      (if p.hotspotTakenOver then [.down p.hotspot, .retype p.hotspot "__ap"] else [])

def hotspotAddrPairs : List Pair :=
  if p.hotspot = "" ∨ p.hotspotSubnet.isValid = false then []
  else
    [ .up p.hotspot,
      .addr p.hotspot (Prefix.ofAddr p.hotspotGateway p.hotspotSubnet.bitCount).text ]

def serverPairs : List Pair :=
  (p.serverAddr.filter fun s => p.canPin s).map p.hostRoutePair

def tunnelAddrPairs : List Pair :=
  if p.tunSubnet.isValid = false then []
  else [.addr p.tun (Prefix.ofAddr p.tunAddr p.tunSubnet.bitCount).text]

/-- A route whose two command lines differ in their tail. -/
def tailRoute (pfx : String) (rest rest' : List String) : Pair :=
  .route (SimulatedKernel.routeTable ("route" :: "add" :: pfx :: rest)) pfx
    (SimulatedKernel.routeTable ("route" :: "del" :: pfx :: rest'))

def tunnelRoutePairs : List Pair :=
  let table := itoaInt p.opts.table
  if p.opts.strategy = .splitDefault then
    ["0.0.0.0/1", "128.0.0.0/1"].map fun half =>
      tailRoute half ["dev", p.tun, "proto", "static"] ["dev", p.tun]
  else
    [ tailRoute p.hotspotSubnet.text
        ["dev", p.hotspot, "scope", "link", "table", table]
        ["dev", p.hotspot, "table", table],
      tailRoute "default" ["dev", p.tun, "proto", "static", "table", table]
        ["dev", p.tun, "table", table],
      .rule (policyRule "from" p.hotspotSubnet.text table (itoaInt p.opts.rulePrio)),
      .rule (policyRule "fwmark" ("0x" ++ hexText p.opts.fwMark.toNat) table
        (itoaInt (p.opts.rulePrio - 1))) ]

/-- Every pair of the plan, in order. -/
def pairs (current : Readings) : List Pair :=
  [.firewall] ++ p.knobPairs current ++ p.virtualPairs ++ p.releasePairs ++
    p.hotspotAddrPairs ++ p.serverPairs ++ (p.tunnelAddrPairs ++ p.tunnelRoutePairs)

/-- Every step of the plan, in order. -/
def linuxSteps (current : Readings) : List Step :=
  p.linuxPreEngineSteps current ++ p.linuxPostEngineSteps current

theorem sysctlStep_knobPair (value why : String) (current : Readings) (hk : '=' ∉ knob.toList) :
    (sysctlStep knob value current why).Is (knobPair knob value current) := by
  cases hprev : current knob with
  | some prev =>
    simp only [knobPair, hprev]
    exact sysctlStep_is hk hprev
  | none =>
    simp only [knobPair, hprev, sysctlStep]
    exact is_of_tool_alone sysctl_other (by decide) rfl nofun
      (fun hv => (effect_sysctl hv).trans (knob_effect hk)) rfl fun _ _ => trivial

theorem knobSteps_are (current : Readings) :
    List.Forall₂ Step.Is (p.sysctlSteps current) (p.knobPairs current) := by
  refine .cons (sysctlStep_knobPair _ _ _ (by decide)) ?_
  refine .cons (sysctlStep_knobPair _ _ _ (by decide)) ?_
  refine .cons (sysctlStep_knobPair _ _ _ (by decide)) ?_
  refine .cons ?_ .nil
  cases p.opts.ipv6 with
  | block | forward => exact sysctlStep_knobPair _ _ _ (by decide)

theorem virtualSteps_are :
    List.Forall₂ Step.Is p.virtualIfaceSteps p.virtualPairs := by
  unfold virtualIfaceSteps virtualPairs
  split
  · exact .nil
  · refine .cons createStep_is ?_
    split
    · exact .cons releaseCreatedStep_is .nil
    · exact .nil

theorem releaseSteps_are :
    List.Forall₂ Step.Is p.hotspotReleaseSteps p.releasePairs := by
  unfold hotspotReleaseSteps releasePairs
  split
  · exact .nil
  next hh =>
    refine List.rel_append (List.rel_append ?_ ?_) ?_
    · split
      · exact .cons (releaseStep_is p) .nil
      · exact .nil
    · rw [List.forall₂_map_left_iff, List.forall₂_map_right_iff, List.forall₂_same]
      intro pfx _
      exact stripStep_is p pfx hh
    · split
      · exact .cons downStep_is (.cons retypeStep_is .nil)
      · exact .nil

theorem hotspotAddrSteps_are :
    List.Forall₂ Step.Is p.hotspotAddrSteps p.hotspotAddrPairs := by
  unfold hotspotAddrSteps hotspotAddrPairs
  split
  · exact .nil
  next h =>
    rw [not_or] at h
    exact .cons upStep_is (.cons (addrStep_is h.1) .nil)

theorem tunnelAddrSteps_are (ht : p.tun ≠ "") :
    List.Forall₂ Step.Is p.tunnelAddrSteps p.tunnelAddrPairs := by
  unfold tunnelAddrSteps tunnelAddrPairs
  split
  · exact .nil
  · exact .cons (addrStep_is ht) .nil

theorem serverRouteStep_is (s : Addr) : (p.serverRouteStep s).Is (p.hostRoutePair s) := by
  unfold serverRouteStep hostRoutePair hostRouteTail hostRouteArgs
  cases s.is6 with
  | true =>
    refine routeStep6_is ?_ ?_ <;>
      · intro a ha
        simp [plainWords] at ha ⊢
        tauto
  | false =>
    refine routeStep_is ?_ ?_ <;>
      · intro a ha
        simp [plainWords] at ha ⊢
        tauto

theorem serverSteps_are : List.Forall₂ Step.Is p.serverRouteSteps p.serverPairs := by
  unfold serverRouteSteps serverPairs
  rw [List.forall₂_map_left_iff, List.forall₂_map_right_iff, List.forall₂_same]
  intro s _
  exact serverRouteStep_is p s

theorem tunnelRouteSteps_are :
    List.Forall₂ Step.Is p.tunnelRouteSteps p.tunnelRoutePairs := by
  unfold tunnelRouteSteps tunnelRoutePairs
  split
  · exact .cons (routeStep_is (by simp [plainWords]) (by simp))
      (.cons (routeStep_is (by simp [plainWords]) (by simp)) .nil)
  · refine .cons (routeStep_is ?_ (by simp)) (.cons (routeStep_is (by simp [plainWords]) (by simp)) ?_)
    · intro a ha
      simp only [List.mem_cons, List.not_mem_nil, or_false] at ha ⊢
      rcases ha with rfl | rfl | rfl | rfl | rfl | rfl
      · simp
      · simp
      · exact Or.inr (by decide)
      · exact Or.inr (by decide)
      · simp
      · simp
    · exact .cons (ruleStep_is (by decide) (itoaInt_ne_empty _))
        (.cons (ruleStep_is (by decide) (itoaInt_ne_empty _)) .nil)

/-- **Every step of a Linux plan is a pair.** -/
theorem linuxSteps_are (current : Readings) (ht : p.tun ≠ "") :
    List.Forall₂ Step.Is (p.linuxSteps current) (p.pairs current) := by
  have hpost : List.Forall₂ Step.Is (p.linuxPostEngineSteps current)
      (p.tunnelAddrPairs ++ p.tunnelRoutePairs) :=
    List.rel_append (tunnelAddrSteps_are p ht) (tunnelRouteSteps_are p)
  refine List.rel_append ?_ hpost
  refine List.rel_append ?_ (serverSteps_are p)
  refine List.rel_append ?_ (hotspotAddrSteps_are p)
  refine List.rel_append ?_ (releaseSteps_are p)
  refine List.rel_append ?_ (virtualSteps_are p)
  refine List.rel_append ?_ (knobSteps_are p current)
  exact .cons (firewallStep_is p) .nil

end Plan

end Caspian.Netcfg
