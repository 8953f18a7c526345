import Mathlib.Logic.Relation
import PrivacyGuard.Properties.GatewayService
import PrivacyGuard.Properties.NetworkGraph

set_option autoImplicit false

/-! # The way of a workstation's packet

The two machines together: a packet that a workstation sends goes from node to node of the network
graph, while the wiring functions are called on the host and the modes are switched on the
gateways, in any order. It reaches the Internet only by a gateway whose gateway mode is off. -/

namespace PrivacyGuard

open Effect Graph Netfilter Relation

/-- The host, the calls of the wiring functions with their answers, and the inside of each
machine. -/
structure Deployment where
  site : Site
  calls : List (Wiring × Bool)
  machine : Hypervisor × String → World

/-- A call on the host, or on one of the gateways. -/
inductive Deployment.Step (P : Plan) (d : Deployment) : Deployment → Prop
  | wire {x : Wiring} {tr : List (Event siteSig)} {b : Bool} {s : Site} (hx : x.Follows P)
      (h : Prog.Runs PrivacyGuard.site x.body d.site tr b s) :
      d.Step P { d with site := s, calls := d.calls ++ [(x, b)] }
  | switch {hv : Hypervisor} {vm : String} {x : Action} {tr : List (Event sig)} {b : Bool}
      {w : World} (hg : P.gateway hv vm)
      (h : Prog.Runs (PrivacyGuard.machine reliableBackups) x.body (d.machine (hv, vm)) tr b w) :
      d.Step P { d with machine := Function.update d.machine (hv, vm) w }

/-- The deployment in the beginning, with all modes off. -/
structure Deployment.Start (P : Plan) (d : Deployment) : Prop where
  ready : P.Ready d.site
  calls : d.calls = []
  off : ∀ hv vm, P.gateway hv vm → (d.machine (hv, vm)).saved = defaultState

/-! ## What the calls keep -/

variable {P : Plan} {d d' : Deployment}

structure Deployment.Safe (P : Plan) (d : Deployment) : Prop where
  apart : ∀ hv vm, P.gateway hv vm → ¬ P.workstation hv vm
  site : P.Safe d.site d.calls
  gateways : ∀ hv vm, P.gateway hv vm → Isolated (d.machine (hv, vm))

theorem Deployment.Start.safe (h : d.Start P) : d.Safe P where
  apart := h.ready.apart
  site := by
    rw [h.calls]
    exact h.ready.safe
  gateways hv vm hg hact := by
    rw [h.off hv vm hg] at hact
    cases hact

theorem Deployment.Safe.step (hd : d.Safe P) (h : d.Step P d') : d'.Safe P := by
  cases h with
  | wire hx h => exact ⟨hd.apart, hd.site.step hd.apart hx (h.post (Wiring.does _ _)), hd.gateways⟩
  | @switch hv vm x tr b w hg h =>
      refine ⟨hd.apart, hd.site, fun hv' vm' hg' => ?_⟩
      by_cases heq : (hv', vm') = (hv, vm)
      · change Isolated (Function.update d.machine (hv, vm) w (hv', vm'))
        rw [heq, Function.update_self]
        exact h.post (x.isolated (hd.gateways hv vm hg))
      · change Isolated (Function.update d.machine (hv, vm) w (hv', vm'))
        rw [Function.update_of_ne heq]
        exact hd.gateways hv' vm' hg'

/-- What has been answered stays answered. -/
theorem Deployment.Step.wired (h : d.Step P d') {vm : String} (hvm : Wired d.calls vm) :
    Wired d'.calls vm := by
  obtain ⟨net, hnet⟩ := hvm
  cases h with
  | wire _ _ => exact ⟨net, List.mem_append_left _ hnet⟩
  | switch _ _ => exact ⟨net, hnet⟩

end PrivacyGuard
