import PrivacyGuard.Model.AntiRecon
import PrivacyGuard.Model.ProxyOnly

set_option autoImplicit false

/-! # The actions of the tool

The calls that change the firewall, as the menu and the GUI offer them, each with its
arguments. `Action.of_enables` and `Action.of_disables` say what the calls of the three
network modes have in common. -/

namespace PrivacyGuard

open Netfilter Effect

inductive Action
  | enableKillSwitch (env : Environment) (force : Bool) (bootstrapTimeout : Int)
  | disableKillSwitch (env : Environment)
  | enableProxyKillSwitch (env : Environment) (args : ProxyArgs) (force : Bool)
  | disableProxyKillSwitch (env : Environment)
  | enableGateway (env : Environment) (args : GatewayArgs) (force : Bool)
  | disableGateway (env : Environment)
  | enablePortscanProtection (env : Environment) (params : PortscanParams) (force : Bool)
  | disablePortscanProtection (env : Environment)
  deriving DecidableEq

namespace Action

/-- The program of an action. An enable function answers whether it succeeded; the answer
of a disable function carries nothing. -/
def body : Action → Proc Bool
  | .enableKillSwitch env force t => PrivacyGuard.enableKillSwitch env force t
  | .disableKillSwitch env => (fun _ => true) <$> PrivacyGuard.disableKillSwitch env
  | .enableProxyKillSwitch env a force => PrivacyGuard.enableProxyKillSwitch env a force
  | .disableProxyKillSwitch env =>
      (fun _ => true) <$> PrivacyGuard.disableProxyKillSwitch env
  | .enableGateway env a force => PrivacyGuard.enableGateway env a force
  | .disableGateway env => (fun _ => true) <$> PrivacyGuard.disableGateway env
  | .enablePortscanProtection env p force =>
      PrivacyGuard.enablePortscanProtection env p force
  | .disablePortscanProtection env =>
      (fun _ => true) <$> PrivacyGuard.disablePortscanProtection env

/-- The environment the action is called with. -/
def env : Action → Environment
  | .enableKillSwitch e _ _ | .disableKillSwitch e | .enableProxyKillSwitch e _ _
  | .disableProxyKillSwitch e | .enableGateway e _ _ | .disableGateway e
  | .enablePortscanProtection e _ _ | .disablePortscanProtection e => e

/-- The `force` argument; `false` where there is none. -/
def force : Action → Bool
  | .enableKillSwitch _ f _ | .enableProxyKillSwitch _ _ f | .enableGateway _ _ f
  | .enablePortscanProtection _ _ f => f
  | _ => false

/-- The rule list an enable function passes to `apply_ruleset`. -/
def rules : Action → List Invocation
  | .enableKillSwitch .. => torRules
  | .enableProxyKillSwitch .. => proxyRules
  | .enableGateway _ a _ => gatewayRules a.internalIface
  | _ => []

/-- The commands it runs on the IPv6 firewall before blocking IPv6. -/
def lock : Action → List (FwCommand Match)
  | .enableGateway .. => forwardLock
  | _ => []

/-- The mode an enable function switches on. -/
def enables? : Action → Option Mode
  | .enableKillSwitch .. => some .tor
  | .enableProxyKillSwitch .. => some .proxyOnly
  | .enableGateway .. => some .gateway
  | _ => none

/-- The mode a disable function switches off. -/
def disables? : Action → Option Mode
  | .disableKillSwitch _ => some .tor
  | .disableProxyKillSwitch _ => some .proxyOnly
  | .disableGateway _ => some .gateway
  | _ => none

theorem of_enables {x : Action} {m : Mode} (hm : x.enables? = some m) :
    ∃ a : Activation m, Follows a x.env x.force x.body := by
  cases x with
  | enableKillSwitch env force t =>
      cases hm
      exact ⟨_, enableKillSwitch_follows env force t⟩
  | enableProxyKillSwitch env a force =>
      cases hm
      exact ⟨_, enableProxyKillSwitch_follows env a force⟩
  | enableGateway env a force =>
      cases hm
      exact ⟨_, enableGateway_follows env a force⟩
  | _ => cases hm

theorem of_disables {x : Action} {m : Mode} (hm : x.disables? = some m) :
    ∃ stop : Proc Unit, stop.all Quiet ∧
      x.body = (fun _ => true) <$> disableMode m x.env stop := by
  cases x with
  | disableKillSwitch env =>
      cases hm
      exact ⟨_, Prog.all_pure (), rfl⟩
  | disableProxyKillSwitch env =>
      cases hm
      exact ⟨_, stopRedsocks_quiet, rfl⟩
  | disableGateway env =>
      cases hm
      exact ⟨_, Prog.all_pure (), rfl⟩
  | _ => cases hm

/-- A property of the saved state that clearing the mode keeps holds all along. -/
theorem along_saved_disable {A : Op → Choice → World → Prop} {w : World} {P : Saved → Prop}
    {x : Action} {m : Mode} (hm : x.disables? = some m) (hw : P w.saved)
    (hclear : ∀ now, P (w.saved.update m.cleared now)) :
    x.body.along (machine A) (fun w' => P w'.saved) (fun _ w' => P w'.saved) w := by
  obtain ⟨stop, hstop, hbody⟩ := of_disables hm
  rw [hbody, Prog.map_eq, Prog.along_bind]
  refine disableMode_along hstop (fun w' h => by rw [h]; exact hw) ⟨hw, hw⟩ ?_
  intro w' now h
  have hend : P w'.saved := by
    rw [h]
    exact hclear now
  exact ⟨hend, hend, hend⟩

end Action

/-! ## Particular environments and machines -/

/-- A Linux machine with root and everything installed. -/
def Environment.full : Environment where
  termux := false
  root := true
  hasTor := true
  hasIptables := true
  hasIp6tables := true
  hasSysctl := true
  interfaces := ["eth0"]

/-- A firewall that admits only connections to port 22. -/
def sshServer : Fw where
  filter := some
    { policy := fun h => if h = .input then .drop else .accept
      hook := fun h => if h = .input then [⟨[.proto .tcp, .dport 22], .accept⟩] else []
      user := []
      nodup := List.nodup_nil
      hookClosed := by decide
      userClosed := by simp }
  nat := none

/-- A machine on which the tool has never run. -/
def World.start (F F6 : Fw) : World where
  v4 := F
  v6 := F6
  files _ := none
  saved := defaultState
  sysctl _ := 0

theorem start_off (F F6 : Fw) (m : Mode) : m.active (World.start F F6).saved = false := by
  cases m <;> rfl

end PrivacyGuard
