import Caspian.Engine.LogRing
import Caspian.Hotspot.Leases
import Caspian.Hotspot.Radio
import Caspian.Link.Chain
import Caspian.Netcfg.Anchor
import Caspian.Netcfg.FilterLast
import Caspian.Netcfg.IwStanzas
import Caspian.Netcfg.Restart
import Caspian.Netcfg.Retype
import Caspian.Netcfg.Rivals
import Caspian.Netcfg.RunnerKey
import Caspian.Netcfg.Spare
import Caspian.Netcfg.SystemProxy
import Caspian.Netcfg.Verbs
import Caspian.Panel.Auth
import Caspian.Privsvc.Channels
import Caspian.Privsvc.Cut
import Caspian.Privsvc.Fingerprint
import Caspian.Privsvc.Overrides
import Caspian.Privsvc.Readback
import Caspian.Privsvc.Subnet
import Caspian.Privsvc.Wire
import Caspian.Snispoof.Flow
import Caspian.Snispoof.Split
import Caspian.State.Password
import Caspian.State.RoundTrip
import Caspian.State.Settings
import Caspian.Xcfg.ServerName
