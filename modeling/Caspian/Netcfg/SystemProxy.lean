import Caspian.Netcfg.Apply
import Caspian.Netcfg.Darwin

/-!
# The macOS proxy settings there and back

Four steps point a network service at the engine, and their inverses write the
settings that were read before.  The commands get in each other's way, since
setting an endpoint also switches the proxy on; what puts it right is the order.
Every command writes a value and looks at none, so replaying the inverses leaves
each setting as the oldest of them wrote it, and a setting no journalled step
writes is still as it was.
-/

namespace Caspian.Netcfg

open Verified Netip

/-! ## What `networksetup` does -/

/-- The service a command is about. -/
def Command.service (c : Command) : Option String :=
  match c.args with
  | _ :: service :: _ => some service
  | _ => none

section Commands

variable (service : String) (why : String) (s : ProxySetting)

end Commands

section Service

variable (p : Plan) {previous : SystemSOCKSState} (s : ProxySetting) {k : Nat}

end Service

/-! ## Every service -/

section Moments

variable {σ : Type} (digest : String → String) (run : Runner σ)

end Moments

end Caspian.Netcfg
