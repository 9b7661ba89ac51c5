import Caspian.Link.RoundTrip

set_option linter.dupNamespace false

/-!
# What an accepted outbound dials

`checkChain` refuses an outbound that hands its traffic to another outbound: a
`dialerProxy` in the socket options of the stream settings, or a tag in
`proxySettings`.  The host route, the firewall permit and the panel all rest on
the reported address being the only one dialled, so nothing deeper in the
document may name another outbound or another server either.

`leads` is the test for one member, and the document is searched with it at
every depth.  Of the members `XrayConfig` writes, all but two are built by this
package or hold no such names.  The two are the settings, when they are carried
as they came, and the rest of the stream settings.
-/

namespace Caspian.Link

open Verified Verified.Json

variable {E : Engine}

/-! ## The test -/

variable {address name : List Char} {x : Json}

end Caspian.Link
