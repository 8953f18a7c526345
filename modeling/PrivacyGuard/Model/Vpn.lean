import PrivacyGuard.Model.System

set_option autoImplicit false

/-! # VPNs and the shutdown hook

`vpn.py`, and the part of `ram_wipe.py` that installs and removes the shutdown hook, over the
resources they use: the openvpn processes and their PID file, the WireGuard interfaces, the
script and the systemd unit. -/

namespace PrivacyGuard.Vpn

/-- An openvpn process that runs as a daemon. -/
structure Daemon where
  pid : Nat
  config : String
  deriving DecidableEq

structure Host where
  saved : Saved
  openvpns : List Daemon
  /-- The process id in `OPENVPN_PID_FILE`. -/
  pidFile : Option Nat
  /-- The interfaces that `wg-quick` has brought up. -/
  interfaces : List String
  /-- The text of `SHUTDOWN_SCRIPT_PATH`. -/
  script : Option String
  /-- The text of `SYSTEMD_UNIT_PATH`. -/
  unit : Option String

/-- What `openvpn --daemon` comes to within the three seconds the tool waits: an exit code other
than `0`, a daemon that is gone without having left a PID file, or one that runs. -/
inductive Launch
  | failed
  | died
  | started (pid : Nat)

/-- What the outside world answers during a call. -/
structure Answers where
  /-- `envmod.have("openvpn")`, `envmod.have("wg-quick")` -/
  haveTool : Bool
  /-- `Path(config_path).exists()` -/
  configExists : Bool
  launch : Launch
  /-- Whether `wg-quick` does what it is asked where it can. -/
  wgQuick : Bool
  now : String

/-- With the two tools that only the shutdown hook asks for. -/
structure HookEnvironment extends Environment where
  hasSystemctl : Bool
  hasSdmem : Bool

namespace Host

variable (h : Host)

/-- `statemod.update(vpn_active=v)` -/
def setVpnActive (v : Option String) (now : String) : Host :=
  { h with saved := { h.saved with vpnActive := v, lastUpdated := some now } }

/-- `statemod.get("vpn_active")`, as a condition. -/
def marked : Bool := h.saved.vpnActive.any (· ≠ "")

/-- `(statemod.get("vpn_active") or "").startswith(kind)` -/
def markedAs (kind : String) : Bool :=
  kind.toList.isPrefixOf (h.saved.vpnActive.getD "").toList

/-- `if (...).startswith(kind): statemod.update(vpn_active=None)` -/
def unmark (kind now : String) : Host :=
  if h.markedAs kind then h.setVpnActive none now else h

/-- The daemon writes its process id before it goes into the background. -/
def launched (configPath : String) : Launch → Host
  | .started pid => { h with openvpns := ⟨pid, configPath⟩ :: h.openvpns, pidFile := some pid }
  | _ => h

def kill (pid : Nat) : Host := { h with openvpns := h.openvpns.filter (·.pid ≠ pid) }

/-- `pkill -x openvpn` -/
def pkillOpenvpn : Host := { h with openvpns := [] }

/-- `wg-quick up` does not bring an interface up twice. -/
def wgUp (ok : Bool) (interface : String) : Option Host :=
  if ok && interface ∉ h.interfaces then
    some { h with interfaces := interface :: h.interfaces }
  else none

def wgDown (ok : Bool) (interface : String) : Option Host :=
  if ok && interface ∈ h.interfaces then
    some { h with interfaces := h.interfaces.filter (· ≠ interface) }
  else none

end Host

def startOpenvpn (env : Environment) (a : Answers) (configPath : String) (h : Host) :
    Bool × Host :=
  if env.termux || !env.root then (false, h)
  else if !a.haveTool then (false, h)
  else if !a.configExists then (false, h)
  else if h.marked then (false, h)
  else
    match a.launch with
    | .failed => (false, h)
    | launch =>
        let h := h.launched configPath launch
        if h.pidFile.isSome then
          (true, h.setVpnActive (some ("openvpn:" ++ configPath)) a.now)
        else (false, h)

def stopOpenvpn (env : Environment) (a : Answers) (h : Host) : Host :=
  if env.termux || !env.root then h
  else
    match h.pidFile with
    | some pid => { h.kill pid with pidFile := none }.unmark "openvpn:" a.now
    | none => h.pkillOpenvpn.unmark "openvpn:" a.now

def startWireguard (env : Environment) (a : Answers) (interface : String) (h : Host) :
    Bool × Host :=
  if env.termux || !env.root then (false, h)
  else if !a.haveTool then (false, h)
  else if h.marked then (false, h)
  else
    match h.wgUp a.wgQuick interface with
    | some h => (true, h.setVpnActive (some ("wireguard:" ++ interface)) a.now)
    | none => (false, h)

/-- Without `wg-quick` the call ends in a `FileNotFoundError`, before the state is updated. -/
def stopWireguard (env : Environment) (a : Answers) (interface : String) (h : Host) : Host :=
  if env.termux || !env.root then h
  else if !a.haveTool then h
  else ((h.wgDown a.wgQuick interface).getD h).unmark "wireguard:" a.now

/-! ## The shutdown hook -/

def shutdownScriptPath : String := "/usr/local/bin/privacyguard-ramwipe.sh"

def sdmemCmd (hasSdmem : Bool) (mode : String) : String :=
  if hasSdmem then "sdmem -f -v" ++ if mode = "fast" then " -l" else ""
  else "sync; echo 3 > /proc/sys/vm/drop_caches  # sdmem not installed — cache drop only, " ++
    "not a real wipe"

def shutdownScript (hasSdmem : Bool) (mode : String) : String :=
  "#!/bin/sh\n# Installed by PrivacyGuard — overwrites free RAM on shutdown.\n" ++
    sdmemCmd hasSdmem mode ++ "\n"

def systemdUnit : String :=
  "[Unit]\nDescription=PrivacyGuard RAM wipe on shutdown\nDefaultDependencies=no\n" ++
    "Before=shutdown.target reboot.target halt.target\n\n" ++
    "[Service]\nType=oneshot\nExecStart=/bin/true\nExecStop=" ++ shutdownScriptPath ++
    "\nRemainAfterExit=yes\nTimeoutStopSec=180\n\n" ++
    "[Install]\nWantedBy=shutdown.target reboot.target halt.target\n"

def installShutdownHook (env : HookEnvironment) (mode : String) (h : Host) : Host :=
  if env.termux || !env.root then h
  else if !env.hasSystemctl then h
  else { h with script := some (shutdownScript env.hasSdmem mode), unit := some systemdUnit }

/-- Without `systemctl` the call ends in a `FileNotFoundError`, before the files are removed. -/
def removeShutdownHook (env : HookEnvironment) (h : Host) : Host :=
  if env.termux || !env.root then h
  else if !env.hasSystemctl then h
  else { h with script := none, unit := none }

/-! ## Runs -/

inductive Call
  | startOpenvpn (configPath : String)
  | stopOpenvpn
  | startWireguard (interface : String)
  | stopWireguard (interface : String)
  | installShutdownHook (mode : String)
  | removeShutdownHook

/-- One call, in its environment. -/
structure Step where
  env : HookEnvironment
  call : Call
  answers : Answers

def Step.take (x : Step) (h : Host) : Host :=
  match x.call with
  | .startOpenvpn configPath => (startOpenvpn x.env.toEnvironment x.answers configPath h).2
  | .stopOpenvpn => stopOpenvpn x.env.toEnvironment x.answers h
  | .startWireguard interface => (startWireguard x.env.toEnvironment x.answers interface h).2
  | .stopWireguard interface => stopWireguard x.env.toEnvironment x.answers interface h
  | .installShutdownHook mode => installShutdownHook x.env mode h
  | .removeShutdownHook => removeShutdownHook x.env h

/-- No VPN, no PID file and no hook, and neither in the saved state. -/
def Host.clean (saved : Saved) : Host where
  saved := { saved with vpnActive := none, ramWipeHook := false }
  openvpns := []
  pidFile := none
  interfaces := []
  script := none
  unit := none

end PrivacyGuard.Vpn
