import PrivacyGuard.Model.Arriving
import PrivacyGuard.Properties.RulesInForce

set_option autoImplicit false

/-! # What the gateway does for the internal network

While gateway mode is marked active and no kill switch is on over it, the packets that come from
the internal network to open a connection or to ask for a name are taken to Tor's ports, and
nothing is sent on. A kill switch in between changes this for as long as it is on. -/

namespace PrivacyGuard

open Netfilter Effect

/-- The rules for what arrives by the internal interface, and for the gateway's own traffic. -/
structure GatewayRules (iface : String) (F : Fw) : Prop where
  output : TorOutput F
  prerouting : F.natTable.hook .prerouting = gatewayRedirects iface
  forward : ForwardClosed F

theorem GatewayRules.apart {iface : String} {F F' : Fw} {c : FwCommand Match}
    (hc : editsInput c = true) (h : F.exec c = .ok F') (hF : GatewayRules iface F) :
    GatewayRules iface F' := by
  obtain ⟨hnat, hpolicy, hhook⟩ := editsInput_exec hc h
  refine ⟨switchRules_apart (m := .tor) hc h hF.output, by rw [hnat]; exact hF.prerouting, ?_, ?_⟩
  · rw [hpolicy]
    exact hF.forward.policy
  · rw [hhook .forward (by decide)]
    exact hF.forward.rules

/-- While a kill switch is on over gateway mode, gateway mode is not switched off and no mode is
forced on. -/
def Action.Orderly (x : Action) (w : World) : Prop :=
  Mode.gateway.active w.saved = true → Mode.gateway.conflict w.saved = true →
    x.disables? ≠ some .gateway ∧ (x.enables?.isSome = true → x.force = false)

instance (x : Action) : Decidable x.OnMode :=
  inferInstanceAs (Decidable (x.enables?.isSome = true ∨ x.disables?.isSome = true))

end PrivacyGuard
