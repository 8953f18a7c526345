import PrivacyGuard.Effect.Runs
import PrivacyGuard.Model.Menu
import PrivacyGuard.Model.ProxyOnly

set_option autoImplicit false

/-! # Sessions at the command line

`main` of `main.py` makes one call, or shows the menu. What a call can leave of the machine is what
its program leaves; of the calls without one, those that write the state file write fields no other
call reads, and `live_scan_watch` blocks sources. The GUI may leave anything. -/

namespace PrivacyGuard.Menu

open Netfilter Effect

/-! ## The options of the command line -/

/-- What `parser.parse_args` answers. `--version` is left out. -/
structure Args where
  gui : Bool := false
  status : Bool := false
  dnsLeakCheck : Bool := false
  state : Bool := false
  verify : Bool := false
  start : Bool := false
  bootstrapTimeout : Int := 45
  noRandomizeIdentity : Bool := false
  stop : Bool := false
  clean : Bool := false
  rotateIp : Bool := false
  killRiskyApps : Bool := false
  wipeRam : Bool := false
  wipeRamMode : String := "fast"
  installRamWipeHook : Bool := false
  removeRamWipeHook : Bool := false

/-- The tool is started with options, in an environment, and then has lines to read. -/
structure Session where
  args : Args
  env : Environment
  typed : List String

/-- The program of a call, if the model has one. -/
def Call.body? (env : Environment) : Call → Option (Proc Bool)
  | .startTor => some (PrivacyGuard.startTor env)
  | .stopTor => some (external .stopTor)
  | .enableKillSwitch t => some (PrivacyGuard.enableKillSwitch env false t)
  | .disableKillSwitch => some ((fun _ => true) <$> PrivacyGuard.disableKillSwitch env)
  | .enableStealthSysctls => some (PrivacyGuard.enableStealthSysctls env)
  | .disableStealthSysctls => some ((fun _ => true) <$> PrivacyGuard.disableStealthSysctls env)
  | .enablePortscanProtection =>
      some (PrivacyGuard.enablePortscanProtection env defaultPortscanParams false)
  | .disablePortscanProtection =>
      some ((fun _ => true) <$> PrivacyGuard.disablePortscanProtection env)
  | .enableProxyKillSwitch host (.ofNat port) ptype user pw =>
      some (PrivacyGuard.enableProxyKillSwitch env ⟨host, port, ptype, user, pw⟩ false)
  | .disableProxyKillSwitch => some ((fun _ => true) <$> PrivacyGuard.disableProxyKillSwitch env)
  | .fullStart t randomize => some (PrivacyGuard.fullStart env true t randomize)
  | .fullStop apps wipe mode => some ((fun _ => true) <$> PrivacyGuard.fullStop env apps wipe mode)
  | .enableGateway a => some (PrivacyGuard.enableGateway env a false)
  | .disableGateway => some ((fun _ => true) <$> PrivacyGuard.disableGateway env)
  | _ => none

/-- `iptables -I INPUT -s ip -j DROP` -/
def blockSource (ip : String) : FwCommand Match :=
  .filter (.insert (.hook .input) 1 ⟨[.ext ("-s " ++ ip)], .drop⟩)

/-- The fields of the state file that only the VPN and the workstation calls write. -/
structure Elsewhere where
  vpnActive : Option String
  workstationConfigured : Bool
  lastUpdated : Option String

def Elsewhere.put (e : Elsewhere) (w : World) : World :=
  { w with saved := { w.saved with
      vpnActive := e.vpnActive
      workstationConfigured := e.workstationConfigured
      lastUpdated := e.lastUpdated } }

/-- What a call answers and leaves, run in some environment. -/
inductive Call.Took (A : Op → Choice → World → Prop) (c : Call) (w : World) : Bool → World → Prop
  | ran {env : Environment} {p : Proc Bool} {tr : List (Event sig)} {b : Bool} {w' : World}
      (hp : c.body? env = some p) (h : Prog.Runs (machine A) p w tr b w') : c.Took A w b w'
  | watched {duration : Int} {ips : List String} {tr : List (Event sig)} {b : Bool} {w' : World}
      (hc : c = .liveScanWatch duration true)
      (h : Prog.Runs (machine A) (runAll .v4 (ips.map blockSource)) w tr () w') :
      c.Took A w b w'
  | elsewhere {env : Environment} {b : Bool} (hp : c.body? env = none) (e : Elsewhere) :
      c.Took A w b (e.put w)
  | gui {b : Bool} {w' : World} (hc : c = .launchGui) : c.Took A w b w'

/-- The calls, each with all that it can leave. -/
def tool (A : Op → Choice → World → Prop) : Handler calls World (Bool × World) where
  exec _ r _ := r
  admits c r w := c.Took A w r.1 r.2

end PrivacyGuard.Menu
