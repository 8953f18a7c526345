import PrivacyGuard.Effect.Runs
import PrivacyGuard.Model.System
import PrivacyGuard.Model.VerifyIsolation

set_option autoImplicit false

/-! # The network of the workstation

`configure_networking` of `workstation.py`, with the `ip` commands it runs. A command that fails
changes nothing; of one that succeeds only what `verify_isolation` looks at is said. -/

namespace PrivacyGuard.Workstation

open Effect Text Torrc Dns

/-- The interfaces, the default routes, `/etc/resolv.conf`, and `workstation_configured`. -/
structure Net where
  links : List Interface
  defaults : List DefaultRoute
  resolv : File
  configured : Bool

inductive NetOp
  /-- `ip addr flush dev iface` -/
  | flush (iface : List Char)
  /-- `ip addr add address dev iface` -/
  | addAddress (address iface : List Char)
  /-- `ip link set dev iface up` -/
  | linkUp (iface : List Char)
  /-- `ip route add default via gateway` -/
  | addDefault (gateway : List Char)
  /-- `Path("/etc/resolv.conf").write_text(text)` -/
  | writeResolv (text : List Char)
  /-- `statemod.update(workstation_configured=True)` -/
  | markConfigured
  deriving DecidableEq

/-- The operations answer whether they succeed. -/
abbrev netSig : Sig := ⟨NetOp, fun _ => Bool⟩

/-- The same interfaces, in whatever state. -/
def Net.SameLinks (w w' : Net) : Prop :=
  w'.links.map (fun i => (i.index, i.name)) = w.links.map fun i => (i.index, i.name)

/-- What an operation that succeeds leaves. The kernel removes the routes over an interface with
its last address. -/
structure Succeeds (o : NetOp) (w w' : Net) : Prop where
  links : w.SameLinks w'
  defaults : match o with
    | .flush _ => w'.defaults.Sublist w.defaults
    | .addDefault g => ∃ r : DefaultRoute, r.nextHop = some g ∧ w'.defaults.Perm (r :: w.defaults)
    | _ => w'.defaults = w.defaults
  resolv : w'.resolv = match o with
    | .writeResolv text => some text
    | _ => w.resolv
  configured : w'.configured = match o with
    | .markConfigured => true
    | _ => w.configured

/-- A file that cannot be written to its end may be left in any state. -/
def Fails (o : NetOp) (w w' : Net) : Prop :=
  match o with
  | .writeResolv _ => ∃ f, w' = { w with resolv := f }
  | _ => w' = w

/-- The choice is the answer and the network after it. -/
def network : Handler netSig Net (Bool × Net) where
  exec _ r _ := r
  admits o r w := if r.1 = true then Succeeds o w r.2 else Fails o w r.2

def netDo (o : NetOp) : Prog netSig Bool := Prog.op (S := netSig) o

/-- What the call prints in the end, or an exception of one of the two writes, which is not
caught. -/
inductive Outcome
  | needsLinux
  | needsRoot
  | configured
  | failed
  | raised
  deriving DecidableEq

def resolvText (gatewayIp : List Char) : List Char := nameserver ++ ' ' :: gatewayIp ++ ['\n']

def configureNetworking (env : Environment) (iface staticIp gatewayIp : List Char)
    (cidrPrefix : Int) : Prog netSig Outcome := do
  if env.termux then
    return .needsLinux
  if !env.root then
    return .needsRoot
  let flushed ← netDo (.flush iface)
  if !flushed then
    return .failed
  let added ← netDo (.addAddress (staticIp ++ '/' :: (toString cidrPrefix).toList) iface)
  if !added then
    return .failed
  let up ← netDo (.linkUp iface)
  if !up then
    return .failed
  let routed ← netDo (.addDefault gatewayIp)
  if !routed then
    return .failed
  let written ← netDo (.writeResolv (resolvText gatewayIp))
  if !written then
    return .raised
  let marked ← netDo .markConfigured
  if !marked then
    return .raised
  return .configured

/-- What a call that goes through leaves. -/
structure Configured (gatewayIp : List Char) (w w' : Net) : Prop where
  links : w.SameLinks w'
  defaults : ∃ (r : DefaultRoute) (kept : List DefaultRoute), r.nextHop = some gatewayIp ∧
    kept.Sublist w.defaults ∧ w'.defaults.Perm (r :: kept)
  resolv : w'.resolv = some (resolvText gatewayIp)
  configured : w'.configured = true

section

variable {w w' : Net} {env : Environment} {iface staticIp g : List Char} {n : Int}

theorem wp_netDo {o : NetOp} {Q : Bool → Net → Prop} (hfail : ∀ w', Fails o w w' → Q false w')
    (hok : ∀ w', Succeeds o w w' → Q true w') : (netDo o).wp network Q w := by
  rintro ⟨ok, w'⟩ h
  cases ok with
  | true => exact hok w' h
  | false => exact hfail w' h

/-- The answer of a step that fails ends the call. -/
theorem wp_check {o : NetOp} {p : Prog netSig Outcome} {e : Outcome} {Q : Outcome → Net → Prop}
    (hfail : ∀ w', Q e w') (hok : ∀ w', Succeeds o w w' → p.wp network Q w') :
    (netDo o >>= fun ok => if !ok then pure e else p).wp network Q w := by
  rw [Prog.wp_bind]
  exact wp_netDo (fun w' _ => hfail w') hok

theorem configureNetworking_wp :
    (configureNetworking env iface staticIp g n).wp network
      (fun o w' => o = .configured → Configured g w w') w := by
  unfold configureNetworking
  split
  · exact nofun
  split
  · exact nofun
  refine wp_check (fun _ => nofun) fun w₁ h₁ => ?_
  refine wp_check (fun _ => nofun) fun w₂ h₂ => ?_
  refine wp_check (fun _ => nofun) fun w₃ h₃ => ?_
  refine wp_check (fun _ => nofun) fun w₄ h₄ => ?_
  refine wp_check (fun _ => nofun) fun w₅ h₅ => ?_
  refine wp_check (fun _ => nofun) fun w' h' => ?_
  rintro -
  obtain ⟨r, hr, hperm⟩ := h₄.defaults
  have hkept : w₃.defaults.Sublist w.defaults := by
    have h₂₃ : w₃.defaults = w₁.defaults := h₃.defaults.trans h₂.defaults
    rw [h₂₃]
    exact h₁.defaults
  have h₄' : w'.defaults = w₄.defaults := h'.defaults.trans h₅.defaults
  refine ⟨?_, ⟨r, w₃.defaults, hr, hkept, by rwa [h₄']⟩, h'.resolv.trans h₅.resolv, h'.configured⟩
  calc w'.links.map _ = w₅.links.map _ := h'.links
    _ = w₄.links.map _ := h₅.links
    _ = w₃.links.map _ := h₄.links
    _ = w₂.links.map _ := h₃.links
    _ = w₁.links.map _ := h₂.links
    _ = w.links.map _ := h₁.links

end

end PrivacyGuard.Workstation
