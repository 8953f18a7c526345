import PrivacyGuard.Effect.Embed
import PrivacyGuard.Model.Topology

set_option autoImplicit false

/-! # Wiring the gateway

The functions of `gateway_topology.py` that connect the gateway VM and create libvirt's isolated
network, beside those of `Model/Topology.lean` for the workstation. -/

namespace PrivacyGuard

open Effect

/-- `VBoxManage modifyvm --nicN kind` -/
def externalAttachment (kind : String) : Attachment :=
  if kind = "none" then .none
  else if kind = "nat" then .nat
  else if kind = "bridged" then .bridged ""
  else .other kind

def vboxWireGateway (gatewayVm externalAdapter internalNetName : String) : HostProc Bool := do
  let present ← hostDo (.have_ "VBoxManage")
  if !present then
    return false
  let first ← hostDo (.modifyvm gatewayVm 1 (externalAttachment externalAdapter))
  if !first then
    return false
  hostDo (.modifyvm gatewayVm 2 (.intnet internalNetName))

def virshWireGateway (gatewayVm externalNetwork internalNetwork : String) : HostProc Bool := do
  let present ← hostDo (.have_ "virsh")
  if !present then
    return false
  let first ← hostDo (.attachInterface gatewayVm externalNetwork)
  if !first then
    return false
  hostDo (.attachInterface gatewayVm internalNetwork)

/-- A virtual network of libvirt. -/
structure Network where
  /-- There is a `<forward>` element, so that libvirt routes the network to the outside. -/
  forwards : Bool
  address : String
  active : Bool
  autostart : Bool
  deriving DecidableEq, Repr

/-- The machines of the host, and the networks libvirt knows. -/
structure Site where
  host : Host
  networks : String → Option Network

inductive SiteOp
  | host (o : HostOp)
  /-- `virsh net-define`, with the text `ISOLATED_NETWORK_XML` -/
  | netDefine (name gatewayIp : String)
  | netStart (name : String)
  | netAutostart (name : String)
  deriving DecidableEq

abbrev siteSig : Sig := ⟨SiteOp, fun _ => Bool⟩

abbrev SiteProc : Type → Type := Prog siteSig

def Network.started (n : Network) : Network := { n with active := true }

def Network.autostarted (n : Network) : Network := { n with autostart := true }

namespace Site

def setNetwork (s : Site) (name : String) (n : Network) : Site :=
  { s with networks := Function.update s.networks name (some n) }

/-- libvirt routes the network to the outside. -/
def Forwards (s : Site) (name : String) : Prop :=
  ∃ n, s.networks name = some n ∧ n.forwards = true

end Site

/-- The text defines a network without a `<forward>` element. -/
def isolatedNetwork (gatewayIp : String) : Network where
  forwards := false
  address := gatewayIp
  active := false
  autostart := false

/-- The definition of a network is replaced by what `f` makes of it; `f` gives none where the
command fails. -/
def Site.edit (s : Site) (name : String) (ok : Bool) (f : Option Network → Option Network) :
    Bool × Site :=
  match if ok then f (s.networks name) else none with
  | some n => (true, s.setNetwork name n)
  | none => (false, s)

/-- A network that exists is not defined again. -/
def defineNetwork (gatewayIp : String) : Option Network → Option Network
  | none => some (isolatedNetwork gatewayIp)
  | some _ => none

/-- The effect of an operation; `ok` tells whether it succeeds. -/
def siteExec : SiteOp → Bool → Site → Bool × Site
  | .host o, ok, s => ((hostExec o ok s.host).1, { s with host := (hostExec o ok s.host).2 })
  | .netDefine name ip, ok, s => s.edit name ok (defineNetwork ip)
  | .netStart name, ok, s => s.edit name ok (Option.map Network.started)
  | .netAutostart name, ok, s => s.edit name ok (Option.map Network.autostarted)

/-- The host; any operation may fail. -/
def site : Handler siteSig Site Bool := ⟨siteExec, fun _ _ _ => True⟩

def siteDo (o : SiteOp) : SiteProc Bool := Prog.op (S := siteSig) o

/-- A function that leaves libvirt's networks alone. -/
def onHost {α : Type} (p : HostProc α) : SiteProc α :=
  p.embed (T := siteSig) SiteOp.host fun _ ok => ok

def virshCreateIsolatedNetwork (name gatewayIp : String) : SiteProc Bool := do
  let present ← siteDo (.host (.have_ "virsh"))
  if !present then
    return false
  let defined ← siteDo (.netDefine name gatewayIp)
  if !defined then
    return false
  let started ← siteDo (.netStart name)
  if !started then
    return false
  siteDo (.netAutostart name)

/-- A call of one of the functions. -/
inductive Wiring
  | vboxGateway (vm externalAdapter net : String)
  | vboxWorkstation (vm net : String)
  | virshNetwork (name gatewayIp : String)
  | virshGateway (vm externalNetwork net : String)
  | virshWorkstation (vm net : String)
  deriving DecidableEq

def Wiring.body : Wiring → SiteProc Bool
  | .vboxGateway vm ext net => onHost (vboxWireGateway vm ext net)
  | .vboxWorkstation vm net => onHost (vboxWireWorkstation vm net)
  | .virshNetwork name ip => virshCreateIsolatedNetwork name ip
  | .virshGateway vm ext net => onHost (virshWireGateway vm ext net)
  | .virshWorkstation vm net => onHost (virshWireWorkstation vm net)

def defaultGatewayInternalIp : String := "10.152.152.10"

/-- The calls of option 28 of the menu, which takes no notice of their answers. -/
def wireTopology (hv : Hypervisor) (gatewayVm workstationVm netName external : String) :
    List Wiring :=
  match hv with
  | .vbox => [.vboxGateway gatewayVm external netName, .vboxWorkstation workstationVm netName]
  | .virsh => [.virshNetwork netName defaultGatewayInternalIp,
      .virshGateway gatewayVm external netName, .virshWorkstation workstationVm netName]

/-! ## What the calls can do -/

/-- The machine whose adapters the call is about. -/
def Wiring.target : Wiring → Option (Hypervisor × String)
  | .vboxGateway vm _ _ | .vboxWorkstation vm _ => some (.vbox, vm)
  | .virshNetwork _ _ => none
  | .virshGateway vm _ _ | .virshWorkstation vm _ => some (.virsh, vm)

/-- The adapters of a machine. -/
def Hypervisor.adapters (h : Hypervisor) (w : Host) (vm : String) : List Attachment :=
  match h with
  | .vbox => w.vbox vm
  | .virsh => w.virsh vm

section

variable {w w' : Host} {vm net : String} {Q : Bool → Host → Prop}

theorem onHost_wp {α : Type} {p : HostProc α} {Q : α → Site → Prop} {s : Site}
    (h : p.wp host (fun a w => Q a { s with host := w }) s.host) : (onHost p).wp site Q s := by
  have hembeds : Embeds host site SiteOp.host (fun _ ok => ok) Site.host
      fun w s => { s with host := w } :=
    ⟨fun _ _ => rfl, fun _ _ _ => rfl, fun _ => rfl, fun _ ok _ _ => ⟨ok, trivial, rfl, rfl⟩⟩
  exact Prog.wp_embed hembeds h

/-- Only the adapters of `vm` may differ. -/
structure Host.SameBut (w w' : Host) (h : Hypervisor) (vm : String) : Prop where
  others : ∀ h' vm', (h', vm') ≠ (h, vm) → h'.adapters w' vm' = h'.adapters w vm'

theorem Host.SameBut.refl (w : Host) (h : Hypervisor) (vm : String) : w.SameBut w h vm :=
  ⟨fun _ _ _ => rfl⟩

theorem Host.SameBut.trans {w'' : Host} {h : Hypervisor} (h₁ : w.SameBut w' h vm)
    (h₂ : w'.SameBut w'' h vm) : w.SameBut w'' h vm :=
  ⟨fun h' vm' hne => (h₂.others h' vm' hne).trans (h₁.others h' vm' hne)⟩

theorem Host.sameBut_setNic (w : Host) (n : Nat) (a : Attachment) :
    w.SameBut (w.setNic vm n a) .vbox vm := by
  refine ⟨fun h' vm' hne => ?_⟩
  cases h' with
  | virsh => rfl
  | vbox => exact Function.update_of_ne (fun he => hne (by rw [he])) _ _

theorem Host.sameBut_addInterface (w : Host) (a : Attachment) :
    w.SameBut (w.addInterface vm a) .virsh vm := by
  refine ⟨fun h' vm' hne => ?_⟩
  cases h' with
  | vbox => rfl
  | virsh => exact Function.update_of_ne (fun he => hne (by rw [he])) _ _

theorem vboxWireGateway_wp {ext : String} (h : ∀ b w', w.SameBut w' .vbox vm → Q b w') :
    (vboxWireGateway vm ext net).wp host Q w := by
  rw [vboxWireGateway, Prog.wp_bind]
  refine wp_have fun present => ?_
  split
  · exact h _ _ (.refl w _ _)
  rw [Prog.wp_bind]
  refine wp_modifyvm (h _ _ (.refl w _ _)) fun _ _ => ?_
  have hfirst : w.SameBut _ .vbox vm := w.sameBut_setNic 1 (externalAttachment ext)
  refine wp_modifyvm (h _ _ hfirst) fun _ _ => ?_
  exact h _ _ (hfirst.trans (Host.sameBut_setNic _ _ _))

theorem virshWireGateway_wp {ext : String} (h : ∀ b w', w.SameBut w' .virsh vm → Q b w') :
    (virshWireGateway vm ext net).wp host Q w := by
  rw [virshWireGateway, Prog.wp_bind]
  refine wp_have fun present => ?_
  split
  · exact h _ _ (.refl w _ _)
  rw [Prog.wp_bind]
  refine wp_attachInterface (h _ _ (.refl w _ _)) ?_
  have hfirst : w.SameBut _ .virsh vm := w.sameBut_addInterface (.network ext)
  refine wp_attachInterface (h _ _ hfirst) ?_
  exact h _ _ (hfirst.trans (Host.sameBut_addInterface _ _))

end

/-- A definition that is made anew, or edited, does not begin to route the network. -/
theorem Site.edit_forwards {s : Site} {name : String} {ok : Bool}
    {f : Option Network → Option Network}
    (hf : ∀ o n, f o = some n → n.forwards = true → ∃ m, o = some m ∧ m.forwards = true)
    {m : String} (h : (s.edit name ok f).2.Forwards m) : s.Forwards m := by
  rw [Site.edit] at h
  split at h
  · rename_i n hn
    obtain ⟨d, hd, hfwd⟩ := h
    by_cases hm : m = name
    · subst hm
      have hd : Function.update s.networks m (some n) m = some d := hd
      rw [Function.update_self] at hd
      cases hd
      cases ok with
      | false => cases hn
      | true => exact hf _ _ hn hfwd
    · have hd : Function.update s.networks name (some n) m = some d := hd
      rw [Function.update_of_ne hm] at hd
      exact ⟨d, hd, hfwd⟩
  · exact h

theorem Site.edit_host (s : Site) (name : String) (ok : Bool)
    (f : Option Network → Option Network) : (s.edit name ok f).2.host = s.host := by
  rw [Site.edit]
  split <;> rfl

/-- The operations on libvirt's networks, and the probe. -/
def SiteOp.OnNetworks : SiteOp → Prop
  | .host (.have_ _) => True
  | .host _ => False
  | _ => True

/-- They change no machine, and make no network route to the outside. -/
theorem siteExec_onNetworks {o : SiteOp} (ho : o.OnNetworks) (ok : Bool) (s : Site) :
    (siteExec o ok s).2.host = s.host ∧
      ∀ n, (siteExec o ok s).2.Forwards n → s.Forwards n := by
  have hmap : ∀ g : Network → Network, (∀ n, (g n).forwards = n.forwards) → ∀ o n,
      Option.map g o = some n → n.forwards = true → ∃ m, o = some m ∧ m.forwards = true := by
    intro g hg o n hn hfwd
    obtain ⟨m, rfl, rfl⟩ := Option.map_eq_some_iff.mp hn
    exact ⟨m, rfl, (hg m).symm.trans hfwd⟩
  cases o with
  | host o =>
      cases o with
      | have_ cmd => exact ⟨rfl, fun _ h => h⟩
      | modifyvm vm n a | attachInterface vm name => cases ho
  | netDefine name ip =>
      refine ⟨s.edit_host _ _ _, fun n => Site.edit_forwards fun o d hd hfwd => ?_⟩
      cases o with
      | none =>
          cases hd
          cases hfwd
      | some m => cases hd
  | netStart name =>
      exact ⟨s.edit_host _ _ _, fun n => Site.edit_forwards (hmap Network.started fun _ => rfl)⟩
  | netAutostart name =>
      exact ⟨s.edit_host _ _ _, fun n => Site.edit_forwards (hmap Network.autostarted fun _ => rfl)⟩

theorem virshCreateIsolatedNetwork_onNetworks (name ip : String) :
    (virshCreateIsolatedNetwork name ip).all SiteOp.OnNetworks := by
  refine Prog.all_bind ((Prog.all_op _).mpr trivial) fun _ => Prog.all_ite (Prog.all_pure _) ?_
  refine Prog.all_bind ((Prog.all_op _).mpr trivial) fun _ => Prog.all_ite (Prog.all_pure _) ?_
  refine Prog.all_bind ((Prog.all_op _).mpr trivial) fun _ => Prog.all_ite (Prog.all_pure _) ?_
  exact (Prog.all_op _).mpr trivial

theorem virshCreateIsolatedNetwork_wp {name ip : String} {s : Site} {Q : Bool → Site → Prop}
    (h : ∀ b s', s'.host = s.host → (∀ n, s'.Forwards n → s.Forwards n) → Q b s') :
    (virshCreateIsolatedNetwork name ip).wp site Q s := by
  let I : Site → Prop := fun s' => s'.host = s.host ∧ ∀ n, s'.Forwards n → s.Forwards n
  have hall : (virshCreateIsolatedNetwork name ip).wp site (fun _ => I) s := by
    refine Prog.wp_of_all (virshCreateIsolatedNetwork_onNetworks name ip) ?_ ⟨rfl, fun _ h => h⟩
    rintro o ok s' ho - ⟨hhost, hfwd⟩
    obtain ⟨hhost', hfwd'⟩ := siteExec_onNetworks ho ok s'
    exact ⟨hhost'.trans hhost, fun n hn => hfwd n (hfwd' n hn)⟩
  exact Prog.wp_mono hall fun b s' hs' => h b s' hs'.1 hs'.2

end PrivacyGuard
