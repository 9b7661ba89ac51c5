import Caspian.Netcfg.Backend

/-!
# Which commands are taken for removals

`commandRemoves` looks for the first verb among all the words of a command, and
so also among the names in it.  A name that stands before the verb, or in a
command that has none, can be one of the verbs (`commandRemoves_exact`).
-/

namespace Caspian.Netcfg

open Verified Netip

/-- The words `commandRemoves` takes for a removal. -/
def removals : List String := ["del", "delete"]

/-- The words it takes for the contrary. -/
def additions : List String := ["add", "replace", "set"]

/-- The command deletes an object: the verb of `ip`, `route` and the IP Helper
stands after the object or the flag, that of `iw dev` after the interface. -/
def deletesObject (c : Command) : Bool :=
  let words := if c.args.head? = some "-6" then c.args.tail else c.args
  if c.path = binIP ∨ c.path = binRoute ∨ c.path = binIPHelper then words[1]?.any (· ∈ removals)
  else c.path = binIw && words.head? = some "dev" && words[2]?.any (· ∈ removals)

/-- The command is taken for what it is. -/
def Command.Right (c : Command) : Prop := commandRemoves c = deletesObject c

def Step.Right (s : Step) : Prop := s.run.Right ∧ s.undo.Right

namespace Plan

variable (p : Plan) (current : Readings)

/-- The names `iw` is given before its verb. -/
def IwNamesClear : Prop :=
  (p.hotspotIsVirtual = true → p.hotspot ≠ "" → p.hotspotPhy ≠ "" →
    p.hotspotPhy ∉ removals ∧ p.hotspot ∉ additions) ∧
    (p.hotspot ≠ "" → p.hotspotTakenOver = true → p.hotspot ∉ removals)

/-- The names in the commands of `networksetup`, which have no verb. -/
def ProxyNamesClear : Prop :=
  p.opts.systemSOCKS.enabled = true → ∀ st ∈ p.systemSOCKS,
    removesArgs (st.service :: st.bypassDomains) = false ∧
      removesArgs [st.service, p.opts.systemSOCKS.listen] = false ∧
      (st.server ≠ "" ∧ st.port ≠ 0 → removesArgs [st.service, st.server] = false)

/-- None of the names that stand before a verb, or in a command without one,
decides what the command is taken for. -/
def Unmistaken : Prop :=
  match p.platform with
  | .unset | .linux => p.IwNamesClear
  | .darwin => p.ProxyNamesClear
  | .windows => p.tun ∉ removals
  | .other _ => True

end Plan

/-! ## Words that are no verbs -/

/-- The word is neither kind of verb. -/
abbrev NoVerb (w : String) : Prop := w ∉ removals ∧ w ∉ additions

theorem noVerb_of_mem {w : String} {c : Char} (hc : c ∈ w.toList)
    (hno : ∀ v ∈ removals ++ additions, c ∉ v.toList) : NoVerb w :=
  ⟨fun h => hno w (List.mem_append_left _ h) hc, fun h => hno w (List.mem_append_right _ h) hc⟩

theorem noVerb_itoa (n : Nat) : NoVerb (itoa n) := by
  obtain ⟨c, hc⟩ := List.exists_mem_of_ne_nil (itoa n).toList (by simp [itoa])
  have hdigits : ∀ c ∈ Text.decimalDigits, ∀ v ∈ removals ++ additions, c ∉ v.toList := by decide
  exact noVerb_of_mem hc (hdigits c (mem_itoa hc))

/-- Such words at the end do not matter. -/
theorem removesArgs_append (words : List String) {rest : List String} (h : ∀ w ∈ rest, NoVerb w) :
    removesArgs (words ++ rest) = removesArgs words := by
  induction words with
  | nil =>
    induction rest with
    | nil => rfl
    | cons w rest ih =>
      obtain ⟨hw, hrest⟩ := List.forall_mem_cons.mp h
      simp only [NoVerb, removals, additions, List.mem_cons, List.not_mem_nil, or_false] at hw
      simp only [List.nil_append, removesArgs, hw.1, hw.2, if_false]
      exact ih hrest
  | cons w words ih => simp only [List.cons_append, removesArgs, ih]

theorem removesArgs_merged (service : String) (existing : List String) :
    removesArgs (service :: mergedSystemSOCKSBypass existing) =
      removesArgs (service :: existing) := by
  have hfold : ∀ required : List String, (∀ w ∈ required, NoVerb w) → ∀ out,
      removesArgs (service :: required.foldl (fun out w =>
        if out.any fun present => Text.equalFold present w then out else out ++ [w]) out) =
      removesArgs (service :: out) := by
    intro required
    induction required with
    | nil => exact fun _ _ => rfl
    | cons w required ih =>
      intro h out
      obtain ⟨hw, hrest⟩ := List.forall_mem_cons.mp h
      rw [List.foldl_cons, ih hrest]
      split
      · rfl
      · exact removesArgs_append (service :: out) (List.forall_mem_singleton.mpr hw)
  exact hfold _ (by decide) existing

/-! ## The commands of a plan -/

namespace Command

theorem right_of_other {c : Command} (h : c.path ∉ [binIP, binRoute, binIPHelper, binIw]) :
    c.Right ↔ commandRemoves c = false := by
  simp only [List.mem_cons, List.not_mem_nil, or_false, not_or] at h
  simp [Right, deletesObject, h]

/-- A verb that stands where it is looked for decides. -/
theorem right_of_verb {path why object verb : String} {rest : List String}
    (hpath : path ∈ [binIP, binRoute, binIPHelper])
    (hobject : object ∉ "-6" :: removals ++ additions) (hverb : verb ∈ removals ++ additions) :
    Right { path := path, args := object :: verb :: rest, why := why } := by
  simp only [List.mem_cons, List.not_mem_nil, or_false] at hpath
  simp only [removals, additions, List.cons_append, List.nil_append, List.mem_cons,
    List.not_mem_nil, or_false, not_or] at hobject hverb
  rcases hverb with rfl | rfl | rfl | rfl | rfl <;>
    simp [Right, deletesObject, hpath, commandRemoves, removesArgs, hobject, removals]

theorem right_hostRoute (p : Plan) {verb why : String} (hverb : verb ∈ removals ++ additions)
    (a : Addr) : Right { path := binIP, args := p.hostRouteArgs verb a, why := why } := by
  simp only [removals, additions, List.cons_append, List.nil_append, List.mem_cons,
    List.not_mem_nil, or_false] at hverb
  unfold Plan.hostRouteArgs
  rcases hverb with rfl | rfl | rfl | rfl | rfl <;> cases a.is6 <;>
    simp [Right, deletesObject, commandRemoves, removesArgs, removals]

variable {why name : String} {rest : List String}

theorem right_addIface :
    Right { path := binIw, args := "phy" :: name :: "interface" :: "add" :: rest, why := why } ↔
      name ∉ removals := by
  simp [Right, commandRemoves, removesArgs, deletesObject, removals, binIw, binIP, binRoute,
    binIPHelper]

theorem right_delIface :
    Right { path := binIw, args := ["dev", name, "del"], why := why } ↔ name ∉ additions := by
  simp [Right, commandRemoves, removesArgs, deletesObject, removals, additions, binIw, binIP,
    binRoute, binIPHelper]
  rintro (rfl | rfl) <;> decide

theorem right_setIface :
    Right { path := binIw, args := "dev" :: name :: "set" :: rest, why := why } ↔
      name ∉ removals := by
  simp [Right, commandRemoves, removesArgs, deletesObject, removals, binIw, binIP, binRoute,
    binIPHelper]

theorem right_clearDns :
    Right { path := binIPHelper, args := ["dns", "clear", name], why := why } ↔
      name ∉ removals := by
  simp [Right, commandRemoves, removesArgs, deletesObject, removals]

theorem right_networksetup :
    Right { path := binNetworksetup, args := rest, why := why } ↔ removesArgs rest = false :=
  right_of_other (by decide : binNetworksetup ∉ _)

theorem right_state {service : String} {enabled : Bool} :
    Right (systemSOCKSStateCommand service enabled why) ↔ service ∉ removals := by
  rw [systemSOCKSStateCommand, right_networksetup]
  cases enabled <;> simp [removesArgs, removals]

theorem right_endpoint {service server : String} {port : UInt16} :
    Right (systemSOCKSEndpointCommand service server port why) ↔
      removesArgs [service, server] = false := by
  have hrest : ∀ w ∈ [itoa port.toNat, "off"], NoVerb w :=
    List.forall_mem_cons.mpr ⟨noVerb_itoa _, by decide⟩
  rw [systemSOCKSEndpointCommand, right_networksetup]
  show removesArgs (["-setsocksfirewallproxy", service, server] ++ _) = false ↔ _
  rw [removesArgs_append _ hrest]
  simp [removesArgs]

theorem right_bypass {service : String} {domains : List String} :
    Right (systemSOCKSBypassCommand service domains why) ↔
      removesArgs (service :: domains) = false := by
  rw [systemSOCKSBypassCommand, right_networksetup]
  cases domains <;> simp [removesArgs]

end Command

namespace Plan

variable (p : Plan) (current : Readings)

theorem right_sysctl (knob value why : String) :
    (sysctlStep knob value current why).Right := by
  have hword : ∀ v, removesArgs ["-w", knob ++ "=" ++ v] = false := fun v =>
    removesArgs_append ["-w"] (List.forall_mem_singleton.mpr
      (noVerb_of_mem (c := '=') (by simp) (by decide)))
  unfold sysctlStep
  split <;> simp +decide only [Step.Right, Command.right_of_other, commandRemoves, hword, and_self]

theorem linux_right :
    (∀ s ∈ p.linuxPreEngineSteps current ++ p.linuxPostEngineSteps current, s.Right) ↔
      p.IwNamesClear := by
  have hsysctl := p.forall_sysctlSteps (right_sysctl current)
  simp only [linuxPreEngineSteps, linuxPostEngineSteps, virtualIfaceSteps, hotspotReleaseSteps,
    retypeSteps, hotspotAddrSteps, serverRouteSteps, tunnelAddrSteps, tunnelRouteSteps,
    policySteps, List.forall_mem_append, List.forall_mem_cons, List.forall_mem_map, forall_mem_ite,
    iff_true_intro hsysctl]
  simp +decide only [Step.Right, firewallStep, releaseStep, stripStep, serverRouteStep,
    halfDefaultStep, ipCmd, Command.right_hostRoute, Command.right_of_verb,
    Command.right_addIface, Command.right_delIface, Command.right_setIface, Command.right_of_other,
    commandRemoves, removesArgs, if_true, if_false]
  simp [IwNamesClear]

theorem right_nftLoad (state : ForwardState) (why : String) : (p.nftLoadStep state why).Right := by
  simp +decide only [Step.Right, nftLoadStep, Command.right_of_other, commandRemoves, and_self]

theorem right_pfLoad (state : ForwardState) (why : String) : (p.pfLoadStep state why).Right := by
  simp +decide only [Step.Right, pfLoadStep, Command.right_of_other, commandRemoves, and_self]

theorem right_wfpLoad (state : ForwardState) (why : String) : (p.wfpLoadStep state why).Right := by
  simp +decide only [Step.Right, wfpLoadStep, Command.right_of_other, commandRemoves, and_self]

theorem darwin_right :
    (∀ s ∈ p.darwinPreEngineSteps current ++ p.darwinPostEngineSteps current, s.Right) ↔
      p.ProxyNamesClear := by
  have hservice : ∀ service domains, removesArgs (service :: domains) = false →
      service ∉ removals := by
    intro service domains h hs
    simp only [removals, List.mem_cons, List.not_mem_nil, or_false] at hs
    simp [removesArgs, hs] at h
  simp only [darwinPreEngineSteps, darwinPostEngineSteps, darwinPfEnableSteps, darwinSysctlSteps,
    darwinServerRouteSteps, darwinSystemSOCKSSteps, socksServiceSteps, List.forall_mem_append,
    List.forall_mem_cons, List.forall_mem_map, List.forall_mem_flatMap, forall_mem_ite,
    right_sysctl, darwinFirewallStep, right_pfLoad]
  simp +decide only [Step.Right, darwinServerRouteStep, darwinHostRouteArgs, darwinHalfStep,
    List.cons_append, Command.right_of_verb,
    Command.right_of_other, Command.right_state, Command.right_endpoint, Command.right_bypass,
    removesArgs_merged, apply_ite Command.Right]
  simp only [List.not_mem_nil, false_imp_iff, imp_true_iff, and_true, true_and, and_self]
  refine imp_congr_right fun _ => forall₂_congr fun st _ => ?_
  have := hservice st.service st.bypassDomains
  split <;> tauto

theorem right_forwarding (adapter : String) : (p.windowsForwardingStep adapter current).Right := by
  unfold windowsForwardingStep
  split <;> simp +decide only [Step.Right, ipHelper, Command.right_of_verb, Command.right_of_other,
    and_self]

theorem windows_right :
    (∀ s ∈ p.windowsPreEngineSteps current ++ p.windowsPostEngineSteps current, s.Right) ↔
      p.tun ∉ removals := by
  simp only [windowsPreEngineSteps, windowsPostEngineSteps, windowsServerRouteSteps,
    List.forall_mem_append, List.forall_mem_cons, List.forall_mem_map, right_forwarding,
    windowsCutStep, right_wfpLoad]
  simp +decide only [Step.Right, windowsPermitStep, windowsFirewallStep, windowsCutStep,
    wfpLoadStep, windowsServerRouteStep, windowsHostRouteTail, ipHelper, List.cons_append,
    Command.right_of_verb, Command.right_clearDns, Command.right_of_other, commandRemoves]
  simp

/-- **Every command is taken for what it is** exactly when no name is mistaken
for a verb. -/
theorem commandRemoves_exact :
    (∀ s ∈ p.cutStep :: p.restoreStep :: p.steps current, s.Right) ↔ p.Unmistaken := by
  simp only [List.forall_mem_cons, steps, Unmistaken, cutStep, restoreStep, preEngineSteps,
    postEngineSteps]
  cases p.platform with
  | unset | linux =>
    simp only [linux_right, linuxCutStep, linuxRestoreStep, right_nftLoad, true_and]
  | darwin => simp only [darwin_right, darwinCutStep, darwinRestoreStep, right_pfLoad, true_and]
  | windows => simp only [windows_right, windowsCutStep, windowsRestoreStep, right_wfpLoad, true_and]
  | other name => simp +decide [Step.Right, Command.right_of_other]

/-- The access point's interface is named like a verb: deleting it is not taken
for a removal, and changing the type of one taken over is. -/
theorem verb_named_interfaces :
    let created : Plan := { hotspotIsVirtual := true, hotspot := "add", hotspotPhy := "phy0" }
    let taken : Plan := { hotspotTakenOver := true, hotspot := "del" }
    validInterfaceName created.hotspot = true ∧ validInterfaceName taken.hotspot = true ∧
      (∃ s ∈ created.steps fun _ => none, s.undo.args = ["dev", "add", "del"] ∧
        deletesObject s.undo = true ∧ commandRemoves s.undo = false) ∧
      ∃ s ∈ taken.steps fun _ => none, s.run.args = ["dev", "del", "set", "type", "__ap"] ∧
        deletesObject s.run = false ∧ commandRemoves s.run = true := by
  decide

end Plan

end Caspian.Netcfg
