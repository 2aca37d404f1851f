import SysnetLinux.DefaultTun.Atomic
import SysnetLinux.DefaultTun.Strict
import SysnetLinux.Routing.Stale
import SysnetLinux.DefaultTun.Rebuild
import SysnetLinux.DefaultTun.RuleLedger
import SysnetLinux.DefaultTun.Resources
import SysnetLinux.DefaultTun.ConnmarkTable
import SysnetLinux.DefaultTun.LinkAddrs
import SysnetLinux.Routing.Priorities
import SysnetLinux.Tun.Secondary
import SysnetLinux.Killswitch.Wake
import SysnetLinux.Killswitch.Sessions
import SysnetLinux.Dns.Static.Overlap
import SysnetLinux.Routing.Sources
import SysnetLinux.Connmark.Classify
import SysnetLinux.Subnet.NonOverlap
import SysnetLinux.Rules.Exec
import SysnetLinux.Dns.ResolvConfFile
import SysnetLinux.Rules.Policy
import SysnetLinux.Dns.Resolved.NoLoop
import SysnetLinux.Dns.Resolved.Rollback
import SysnetLinux.Routing.Netlink
import SysnetLinux.Routing.InstallOrder
import SysnetLinux.Dns.Resolved.Drift
import SysnetLinux.DefaultTun.ClosedOnce
