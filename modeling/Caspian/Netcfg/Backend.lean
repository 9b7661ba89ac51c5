import Caspian.Netcfg.Darwin
import Caspian.Netcfg.Windows

/-!
# The steps of a plan, by platform

`BackendFor` and the parts of a backend a plan is turned into steps by.  A
platform without a backend has no steps at all.
-/

namespace Caspian.Netcfg

namespace Plan

/-- A step that loads the nftables ruleset and takes it away again. -/
def nftLoadStep (p : Plan) (state : ForwardState) (why : String) : Step :=
  { op := opNft, why := why
    run := { path := binNft, args := ["-f", "-"], stdin := p.rulesetFor state, why := why }
    undo := { path := binNft, args := ["-f", "-"], stdin := p.rulesetTeardown
              why := "remove the generated tables" } }

def linuxCutStep (p : Plan) : Step :=
  p.nftLoadStep .cut
    ("cut forwarded client traffic without taking the hotspot down, so a joined device stays " ++
      "joined and can still reach the panel to turn it back on")

def linuxRestoreStep (p : Plan) : Step :=
  p.nftLoadStep .normal "resume forwarding client traffic through the tunnel"

/-- `PreEngineSteps`. -/
def preEngineSteps (p : Plan) (current : Readings) : List Step :=
  match p.platform with
  | .unset => p.linuxPreEngineSteps current
  | .linux => p.linuxPreEngineSteps current
  | .darwin => p.darwinPreEngineSteps current
  | .windows => p.windowsPreEngineSteps current
  | .other _ => []

/-- `PostEngineSteps`. -/
def postEngineSteps (p : Plan) (current : Readings) : List Step :=
  match p.platform with
  | .unset => p.linuxPostEngineSteps current
  | .linux => p.linuxPostEngineSteps current
  | .darwin => p.darwinPostEngineSteps current
  | .windows => p.windowsPostEngineSteps current
  | .other _ => []

/-- `CutStep`; a platform without a backend has the empty step. -/
def cutStep (p : Plan) : Step :=
  match p.platform with
  | .unset => p.linuxCutStep
  | .linux => p.linuxCutStep
  | .darwin => p.darwinCutStep
  | .windows => p.windowsCutStep
  | .other _ => { op := "", why := "", run := Command.zero }

/-- `RestoreStep`. -/
def restoreStep (p : Plan) : Step :=
  match p.platform with
  | .unset => p.linuxRestoreStep
  | .linux => p.linuxRestoreStep
  | .darwin => p.darwinRestoreStep
  | .windows => p.windowsRestoreStep
  | .other _ => { op := "", why := "", run := Command.zero }

/-- The whole plan, in the order it is applied. -/
def steps (p : Plan) (current : Readings) : List Step :=
  p.preEngineSteps current ++ p.postEngineSteps current

/-- The plan is for Linux, which the empty platform stands for. -/
def OnLinux (p : Plan) : Prop := p.platform = .unset ∨ p.platform = .linux

/-- What holds of every knob's step holds of the knobs of a Linux plan. -/
theorem forall_sysctlSteps (p : Plan) {current : Readings} {Q : Step → Prop}
    (h : ∀ knob value why, Q (sysctlStep knob value current why)) :
    ∀ s ∈ p.sysctlSteps current, Q s := by
  simp only [sysctlSteps, List.forall_mem_cons]
  refine ⟨h _ _ _, h _ _ _, h _ _ _, ?_, by simp⟩
  split <;> exact h _ _ _

end Plan

/-- Most blocks of a plan depend on a condition. -/
theorem forall_mem_ite {α : Type} {c : Prop} [Decidable c] {a b : List α} {Q : α → Prop} :
    (∀ s ∈ if c then a else b, Q s) ↔ (c → ∀ s ∈ a, Q s) ∧ (¬c → ∀ s ∈ b, Q s) := by
  split <;> simp [*]

end Caspian.Netcfg
