import PrivacyGuard.Model.Packets

set_option autoImplicit false

/-! # The saved state

`state.py` keeps one JSON object on disk. `Saved` is that object with the defaults merged
in, as `load` returns it; a `Field` is one keyword argument of `update`. -/

namespace PrivacyGuard

/-- `iptables` or `ip6tables`. -/
inductive Family
  | v4
  | v6
  deriving DecidableEq, Repr

/-- The file `BACKUP_DIR / "iptables-{label}-{ts}.rules"`, or its `ip6tables` counterpart.
`ts` is the time of the backup, to the second. -/
structure BackupPath where
  family : Family
  label : String
  ts : String
  deriving DecidableEq, Repr

/-- The keys of `STEALTH_SYSCTLS`, with the dots and the leading `net.ipv4` dropped. -/
inductive SysctlKey
  | icmpEchoIgnoreAll
  | tcpTimestamps
  | confAllLogMartians
  | confAllRpFilter
  | icmpIgnoreBogusErrorResponses
  deriving DecidableEq, Repr

structure PortscanParams where
  hitcount : Nat
  seconds : Nat
  deriving DecidableEq, Repr

structure GatewayConfig where
  internalIface : String
  internalIp : String
  externalIface : Option String
  deriving DecidableEq, Repr

/-- The saved state, field by field as `DEFAULT_STATE` has it. -/
@[ext] structure Saved where
  torKillSwitch : Bool
  proxyOnlyKillSwitch : Bool
  ipv6Blocked : Bool
  portscanProtection : Bool
  portscanParams : Option PortscanParams
  stealthSysctls : Bool
  stealthSysctlsBackup : Option (List (SysctlKey × Option Int))
  ramWipeHook : Bool
  iptablesBackup : Option BackupPath
  ip6tablesBackup : Option BackupPath
  natIptablesBackup : Option BackupPath
  activeProxy : Option String
  vpnActive : Option String
  gatewayModeActive : Bool
  gatewayIptablesBackup : Option BackupPath
  gatewayIp6tablesBackup : Option BackupPath
  gatewayConfig : Option GatewayConfig
  workstationConfigured : Bool
  lastUpdated : Option String
  deriving DecidableEq

/-- `DEFAULT_STATE` -/
def defaultState : Saved where
  torKillSwitch := false
  proxyOnlyKillSwitch := false
  ipv6Blocked := false
  portscanProtection := false
  portscanParams := none
  stealthSysctls := false
  stealthSysctlsBackup := none
  ramWipeHook := false
  iptablesBackup := none
  ip6tablesBackup := none
  natIptablesBackup := none
  activeProxy := none
  vpnActive := none
  gatewayModeActive := false
  gatewayIptablesBackup := none
  gatewayIp6tablesBackup := none
  gatewayConfig := none
  workstationConfigured := false
  lastUpdated := none

/-- A keyword argument of `update`. -/
inductive Field
  | torKillSwitch (v : Bool)
  | proxyOnlyKillSwitch (v : Bool)
  | ipv6Blocked (v : Bool)
  | portscanProtection (v : Bool)
  | portscanParams (v : Option PortscanParams)
  | stealthSysctls (v : Bool)
  | stealthSysctlsBackup (v : Option (List (SysctlKey × Option Int)))
  | iptablesBackup (v : Option BackupPath)
  | ip6tablesBackup (v : Option BackupPath)
  | natIptablesBackup (v : Option BackupPath)
  | activeProxy (v : Option String)
  | gatewayModeActive (v : Bool)
  | gatewayIptablesBackup (v : Option BackupPath)
  | gatewayIp6tablesBackup (v : Option BackupPath)
  | gatewayConfig (v : Option GatewayConfig)
  deriving DecidableEq

def Field.set : Field → Saved → Saved
  | .torKillSwitch v, s => { s with torKillSwitch := v }
  | .proxyOnlyKillSwitch v, s => { s with proxyOnlyKillSwitch := v }
  | .ipv6Blocked v, s => { s with ipv6Blocked := v }
  | .portscanProtection v, s => { s with portscanProtection := v }
  | .portscanParams v, s => { s with portscanParams := v }
  | .stealthSysctls v, s => { s with stealthSysctls := v }
  | .stealthSysctlsBackup v, s => { s with stealthSysctlsBackup := v }
  | .iptablesBackup v, s => { s with iptablesBackup := v }
  | .ip6tablesBackup v, s => { s with ip6tablesBackup := v }
  | .natIptablesBackup v, s => { s with natIptablesBackup := v }
  | .activeProxy v, s => { s with activeProxy := v }
  | .gatewayModeActive v, s => { s with gatewayModeActive := v }
  | .gatewayIptablesBackup v, s => { s with gatewayIptablesBackup := v }
  | .gatewayIp6tablesBackup v, s => { s with gatewayIp6tablesBackup := v }
  | .gatewayConfig v, s => { s with gatewayConfig := v }

/-- `update(**kwargs)` at the time `now`. -/
def Saved.update (s : Saved) (kwargs : List Field) (now : String) : Saved :=
  { kwargs.foldl (fun s f => f.set s) s with lastUpdated := some now }

end PrivacyGuard
