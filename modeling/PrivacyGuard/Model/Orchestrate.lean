import PrivacyGuard.Model.AntiRecon

set_option autoImplicit false

/-! # Full start and full stop

`orchestrate.py`: the two calls that switch all protections of the Tor path on and off. -/

namespace PrivacyGuard

open Netfilter Effect

/-- The identity of the machine is changed, interface by interface. -/
def randomizeIdentity : List String → Proc Unit
  | [] => do
      let _ ← external .randomizeHostname
      pure ()
  | iface :: ifaces => do
      let _ ← external (.randomizeMac iface)
      randomizeIdentity ifaces

/-- An operation outside the model, performed if `b`. -/
def externalIf (b : Bool) (e : External) : Proc Unit :=
  if b then do
    let _ ← external e
    pure ()
  else pure ()

def fullStart (env : Environment) (runVerification : Bool) (bootstrapTimeout : Int)
    (randomize : Bool) : Proc Bool := do
  let _ ← startTor env
  if env.termux then
    return false
  (if randomize then randomizeIdentity env.interfaces else pure ())
  let _ ← enableStealthSysctls env
  let _ ← enablePortscanProtection env defaultPortscanParams false
  let killSwitchActive ← enableKillSwitch env false bootstrapTimeout
  externalIf (killSwitchActive && runVerification) .verifyTorKillSwitch
  return killSwitchActive

/-- The three protections are switched off in the reverse of the order in which
`full_start` switched them on. -/
def stopProtections (env : Environment) : Proc Unit := do
  if env.termux then
    return ()
  disableKillSwitch env
  disablePortscanProtection env
  disableStealthSysctls env

def fullStop (env : Environment) (killRiskyApps wipeRam : Bool) (ramWipeMode : String) :
    Proc Unit := do
  stopProtections env
  let _ ← external .stopTor
  externalIf killRiskyApps .killRiskyApps
  externalIf wipeRam (.wipeFreeRam ramWipeMode)

/-! ## What the calls can do -/

theorem randomizeIdentity_quiet : ∀ ifaces, (randomizeIdentity ifaces).all Quiet
  | [] => Prog.all_bind (quiet_external _) fun _ => Prog.all_pure _
  | _ :: ifaces => Prog.all_bind (quiet_external _) fun _ => randomizeIdentity_quiet ifaces

theorem externalIf_quiet (b : Bool) (e : External) : (externalIf b e).all Quiet :=
  Prog.all_ite (Prog.all_bind (quiet_external _) fun _ => Prog.all_pure _) (Prog.all_pure _)

end PrivacyGuard
