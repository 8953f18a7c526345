import PrivacyGuard.Effect.Input
import PrivacyGuard.Model.Orchestrate
import PrivacyGuard.Model.Wiring
import PrivacyGuard.Text.Lines

set_option autoImplicit false

/-! # The menu

`menu` of `main.py`: a loop that reads a choice, asks for what the choice needs, and calls a
function of the tool. What is printed is left out. A call that raises an exception ends the
session, and so does a text that `int` does not accept. -/

namespace PrivacyGuard.Menu

open Effect

/-! ## What is typed -/

def strip (s : String) : String := String.ofList (Text.strip s.toList)

/-- `str.lower`, as far as a comparison with words without the letter `k` can tell: the lower case
of no letter outside ASCII is one inside, but for the sign of the kelvin. -/
def lower (s : String) : String := String.ofList (s.toList.map Char.toLower)

/-- `s or default` -/
def orElse (s default : String) : String := if s = "" then default else s

/-- `s or None` -/
def orNone (s : String) : Option String := if s = "" then none else some s

/-- The values of the decimal digits, of all scripts. -/
structure Decimals where
  value : Char → Option Nat
  ascii : ∀ c, c.toNat < 128 → value c = if c.isDigit then some (c.toNat - '0'.toNat) else none

/-- The decimal digits of ASCII alone. -/
def asciiDecimals : Decimals where
  value c := if c.isDigit then some (c.toNat - '0'.toNat) else none
  ascii _ _ := rfl

/-- As many digits `int` accepts in one number. -/
def maxStrDigits : Nat := 4300

/-- Digits, with single underscores between them. -/
def natural (D : Decimals) (s : List Char) : Option Nat :=
  let groups := s.splitOn '_'
  if [] ∈ groups then none
  else do
    let ds ← groups.flatten.mapM D.value
    if maxStrDigits < ds.length then none
    else some (ds.foldl (fun n d => 10 * n + d) 0)

/-- `int(s)`; `none` is a `ValueError`. -/
def int (D : Decimals) (s : String) : Option Int :=
  match Text.strip s.toList with
  | '-' :: t => (natural D t).map fun n => -(n : Int)
  | '+' :: t => (natural D t).map fun n => (n : Int)
  | t => (natural D t).map fun n => (n : Int)

/-! ## The calls -/

/-- The calls the menu makes, with the arguments it passes; `env` is passed to all of them. What
it does with the monitor of the session is two calls, and to print a report is one. -/
inductive Call
  | leakReport
  | printDnsLeakReport (expectLocalOnly : Bool)
  | startTor
  | stopTor
  | rotateTorCircuit
  | randomizeMac (iface : String)
  | randomizeHostname
  | enableKillSwitch (bootstrapTimeout : Int)
  | disableKillSwitch
  | enableStealthSysctls
  | disableStealthSysctls
  | enablePortscanProtection
  | disablePortscanProtection
  | liveScanWatch (duration : Int) (autoBlock : Bool)
  | watchHttpAccessLog (path : String)
  | configureBridges (bridgeLines : List String)
  | generateProxychainsConf (proxies : List String) (chainMode : String) (includeTor : Bool)
  | testProxychains
  | enableProxyKillSwitch (proxyHost : String) (proxyPort : Int) (proxyType : String)
      (username password : Option String)
  | verifyProxyKillSwitch (proxyHost : String)
  | disableProxyKillSwitch
  | resetVboxSnapshot (vmName snapshotName : String)
  | resetVirshSnapshot (domain snapshotName : String)
  | cleanTraces (wipeLogs : Bool)
  | saveLog (passphrase : String)
  | decryptLog (path passphrase : String)
  | fullStart (bootstrapTimeout : Int) (randomizeIdentity : Bool)
  | fullStop (killRiskyApps wipeRam : Bool) (ramWipeMode : String)
  | launchGui
  | killRiskyApps
  | wipeFreeRam (mode : String)
  | installShutdownHook (mode : String)
  | removeShutdownHook
  | summary
  | verifyActive
  | startOpenvpn (configPath : String) (authFile : Option String)
  | stopOpenvpn
  | startWireguard (interface : String)
  | stopWireguard (interface : String)
  | listProfiles
  | saveProfile (name : String) (proxies bridges : List String) (passphrase : String)
  | loadProfile (name passphrase : String)
  | startMonitor (interval : Int)
  | stopMonitor
  | vboxWireGateway (gatewayVm externalAdapter internalNetName : String)
  | vboxWireWorkstation (workstationVm internalNetName : String)
  | vboxVerifyTopology (gatewayVm workstationVm : String)
  | virshCreateIsolatedNetwork (name : String)
  | virshWireGateway (gatewayVm externalNetwork internalNetwork : String)
  | virshWireWorkstation (workstationVm internalNetwork : String)
  | enableGateway (args : GatewayArgs)
  | disableGateway
  | configureNetworking (iface staticIp gatewayIp : String)
  | verifyIsolation (expectedGatewayIp : String)
  deriving DecidableEq

/-- Of an answer only its truth value is looked at, and of most not even that. -/
abbrev calls : Sig := ⟨Call, fun _ => Bool⟩

/-- What can end a session before the user does. -/
inductive Exn
  | valueError
  deriving DecidableEq

abbrev Talk (α : Type) : Type := Dialog calls String Exn α

def input : Talk String := Dialog.input

/-- `_read_lines` -/
def readLines : Talk (List String) := Dialog.inputWhile (· ≠ "")

/-- `_prompt_enable` -/
def promptEnable : Talk Bool := do
  let s ← input
  pure (lower (strip s) = "enable")

def call (c : Call) : Talk Bool := Dialog.op (S := calls) c

/-- The last call of a choice: the menu is shown again. -/
def callAndBack (c : Call) : Talk Bool := call c >>= fun _ => pure true

/-- `int(s)` -/
def readInt (D : Decimals) (s : String) : Talk Int :=
  match int D s with
  | some n => pure n
  | none => Dialog.raise .valueError

/-- `int(s) if s else default` -/
def readIntOr (D : Decimals) (s : String) (default : Int) : Talk Int :=
  if s = "" then pure default else readInt D s

/-! ## The choices -/

def defaultInternalNetName : String := "pg-gateway-net"
def defaultWorkstationInternalIp : String := "10.152.152.11"

/-- `env.interfaces[0] if env.interfaces else default` -/
def firstInterface (env : Environment) (default : String) : String :=
  env.interfaces.headD default

def option2 : Talk Bool := do
  let expectTunnel ← input
  callAndBack (.printDnsLeakReport (lower (strip expectTunnel) = "y"))

def option3 : Talk Bool := do
  let s ← input
  callAndBack (if strip s = "start" then .startTor else .stopTor)

def option5 (env : Environment) : Talk Bool :=
  match env.interfaces with
  | [] => callAndBack .randomizeHostname
  | [iface] => do
      let _ ← call (.randomizeMac iface)
      callAndBack .randomizeHostname
  | _ => do
      let iface ← input
      let _ ← call (.randomizeMac iface)
      callAndBack .randomizeHostname

def option6 (D : Decimals) : Talk Bool := do
  let enable ← promptEnable
  if enable then do
    let bt ← input
    let timeout ← readIntOr D (strip bt) 45
    callAndBack (.enableKillSwitch timeout)
  else callAndBack .disableKillSwitch

def option7 : Talk Bool := do
  let enable ← promptEnable
  callAndBack (if enable then .enableStealthSysctls else .disableStealthSysctls)

def option8 : Talk Bool := do
  let enable ← promptEnable
  callAndBack (if enable then .enablePortscanProtection else .disablePortscanProtection)

def option9 (D : Decimals) : Talk Bool := do
  let secs ← input
  let auto ← input
  let duration ← readIntOr D (strip secs) 120
  callAndBack (.liveScanWatch duration (lower (strip auto) = "y"))

def option10 : Talk Bool := do
  let path ← input
  callAndBack (.watchHttpAccessLog (strip path))

def option11 : Talk Bool := do
  let lines ← readLines
  callAndBack (.configureBridges lines)

def option12 : Talk Bool := do
  let proxies ← readLines
  let mode ← input
  let includeTor ← input
  let _ ← call (.generateProxychainsConf proxies (orElse (strip mode) "dynamic")
    (lower (strip includeTor) = "y"))
  let test ← input
  if lower (strip test) = "y" then callAndBack .testProxychains else pure true

def option13 (D : Decimals) : Talk Bool := do
  let enable ← promptEnable
  if enable then do
    let host ← input
    let port ← input
    let port ← readInt D (strip port)
    let ptype ← input
    let user ← input
    let pw ← input
    let switchActive ← call (.enableProxyKillSwitch (strip host) port
      (orElse (strip ptype) "socks5") (orNone (strip user)) (orNone (strip pw)))
    -- nothing is asked unless the kill switch is on
    if switchActive then do
      let verify ← input
      if lower (strip verify) ≠ "n" then callAndBack (.verifyProxyKillSwitch (strip host))
      else pure true
    else pure true
  else callAndBack .disableProxyKillSwitch

def option14 : Talk Bool := do
  let hv ← input
  let name ← input
  let snap ← input
  if lower (strip hv) = "vbox" then callAndBack (.resetVboxSnapshot (strip name) (strip snap))
  else if lower (strip hv) = "virsh" then
    callAndBack (.resetVirshSnapshot (strip name) (strip snap))
  else pure true

def option15 : Talk Bool := do
  let wipe ← input
  callAndBack (.cleanTraces (lower (strip wipe) = "y"))

def option16 : Talk Bool := do
  let sub ← input
  if strip sub = "save" then do
    let pw ← input
    callAndBack (.saveLog pw)
  else do
    let path ← input
    let pw ← input
    callAndBack (.decryptLog (strip path) pw)

def option17 (D : Decimals) : Talk Bool := do
  let bt ← input
  let randId ← input
  let timeout ← readIntOr D (strip bt) 45
  callAndBack (.fullStart timeout (lower (strip randId) ≠ "n"))

def option18 : Talk Bool := do
  let killApps ← input
  let wipe ← input
  let killApps := decide (lower (strip killApps) = "y")
  if lower (strip wipe) = "y" then do
    let mode ← input
    callAndBack (.fullStop killApps true (orElse (strip mode) "fast"))
  else callAndBack (.fullStop killApps false "fast")

def option21 : Talk Bool := do
  let mode ← input
  callAndBack (.wipeFreeRam (orElse (strip mode) "fast"))

def option22 : Talk Bool := do
  let action ← input
  if strip action = "install" then do
    let mode ← input
    callAndBack (.installShutdownHook (orElse (strip mode) "fast"))
  else callAndBack .removeShutdownHook

def option25 : Talk Bool := do
  let kind ← input
  let action ← input
  let start := decide (lower (strip action) = "start")
  if lower (strip kind) = "openvpn" then
    if start then do
      let cfg ← input
      let auth ← input
      callAndBack (.startOpenvpn (strip cfg) (orNone (strip auth)))
    else callAndBack .stopOpenvpn
  else if lower (strip kind) = "wireguard" then do
    let iface ← input
    let iface := orElse (strip iface) "wg0"
    callAndBack (if start then .startWireguard iface else .stopWireguard iface)
  else pure true

def option26 : Talk Bool := do
  let sub ← input
  let sub := lower (strip sub)
  if sub = "list" then callAndBack .listProfiles
  else if sub = "save" then do
    let name ← input
    let proxies ← readLines
    let bridges ← readLines
    let pw ← input
    callAndBack (.saveProfile (strip name) proxies bridges pw)
  else if sub = "load" then do
    let name ← input
    let pw ← input
    callAndBack (.loadProfile (strip name) pw)
  else pure true

def option27 (D : Decimals) : Talk Bool := do
  let action ← input
  if lower (strip action) = "start" then do
    let interval ← input
    let interval ← readIntOr D (strip interval) 30
    callAndBack (.startMonitor interval)
  else callAndBack .stopMonitor

def option28 : Talk Bool := do
  let hv ← input
  let gwVm ← input
  let wsVm ← input
  let netName ← input
  let netName := orElse (strip netName) defaultInternalNetName
  if lower (strip hv) = "vbox" then do
    let ext ← input
    let _ ← call (.vboxWireGateway (strip gwVm) (orElse (strip ext) "nat") netName)
    let _ ← call (.vboxWireWorkstation (strip wsVm) netName)
    let verify ← input
    if lower (strip verify) ≠ "n" then
      callAndBack (.vboxVerifyTopology (strip gwVm) (strip wsVm))
    else pure true
  else if lower (strip hv) = "virsh" then do
    let _ ← call (.virshCreateIsolatedNetwork netName)
    let extNet ← input
    let _ ← call (.virshWireGateway (strip gwVm) (orElse (strip extNet) "default") netName)
    callAndBack (.virshWireWorkstation (strip wsVm) netName)
  else pure true

def option29 (env : Environment) : Talk Bool := do
  let enable ← promptEnable
  if enable then do
    let iface ← input
    let ip ← input
    let extIface ← input
    callAndBack (.enableGateway ⟨orElse (strip iface) (firstInterface env "eth1"),
      orElse (strip ip) defaultGatewayInternalIp, orNone (strip extIface)⟩)
  else callAndBack .disableGateway

def option30 (env : Environment) : Talk Bool := do
  let action ← input
  if strip action = "configure" then do
    let iface ← input
    let staticIp ← input
    let gwIp ← input
    callAndBack (.configureNetworking (orElse (strip iface) (firstInterface env "eth0"))
      (orElse (strip staticIp) defaultWorkstationInternalIp)
      (orElse (strip gwIp) defaultGatewayInternalIp))
  else do
    let gwIp ← input
    callAndBack (.verifyIsolation (orElse (strip gwIp) defaultGatewayInternalIp))

/-- What is done for a choice; the answer is whether the menu is shown again. -/
def choose (D : Decimals) (env : Environment) (c : String) : Talk Bool :=
  match c with
  | "1" => callAndBack .leakReport
  | "2" => option2
  | "3" => option3
  | "4" => callAndBack .rotateTorCircuit
  | "5" => option5 env
  | "6" => option6 D
  | "7" => option7
  | "8" => option8
  | "9" => option9 D
  | "10" => option10
  | "11" => option11
  | "12" => option12
  | "13" => option13 D
  | "14" => option14
  | "15" => option15
  | "16" => option16
  | "17" => option17 D
  | "18" => option18
  | "19" => callAndBack .launchGui
  | "20" => callAndBack .killRiskyApps
  | "21" => option21
  | "22" => option22
  | "23" => callAndBack .summary
  | "24" => callAndBack .verifyActive
  | "25" => option25
  | "26" => option26
  | "27" => option27 D
  | "28" => option28
  | "29" => option29 env
  | "30" => option30 env
  | "0" => pure false
  | _ => pure true

def turn (D : Decimals) (env : Environment) (c : String) : Talk Bool := choose D env (strip c)

/-- `menu`, with the lines that are typed. -/
def menu (D : Decimals) (env : Environment) (typed : List String) :
    Prog calls (Ending Exn × List String) :=
  Dialog.serve (turn D env) typed

end PrivacyGuard.Menu
