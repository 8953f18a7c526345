import PrivacyGuard.Graph.Separation
import PrivacyGuard.Model.Wiring
import PrivacyGuard.Properties.Workstation

set_option autoImplicit false

/-! # Isolation in the network graph

The machines of the host and its virtual networks make a graph, whose edges are the adapters and
the networks that are routed to the outside. However the wiring functions are called, for however
many pairs of machines, and whatever fails: once a call for every VirtualBox workstation has
answered yes, each walk from a workstation to the Internet passes through a gateway. -/

namespace PrivacyGuard

open Effect Graph

/-! ## The graph -/

inductive Node
  | vm (h : Hypervisor) (name : String)
  | net (h : Hypervisor) (name : String)
  | internet
  deriving DecidableEq, Repr

/-- What an adapter that is attached like this leads to. -/
def Attachment.leadsTo : Attachment → Option Node
  | .none => Option.none
  | .intnet n => some (.net .vbox n)
  | .network n => some (.net .virsh n)
  | .nat | .bridged _ | .other _ => some .internet

/-- The edges, in one direction. -/
inductive Site.Joins (s : Site) : Node → Node → Prop
  | adapter {h : Hypervisor} {vm : String} {a : Attachment} {n : Node}
      (ha : a ∈ h.adapters s.host vm) (hn : a.leadsTo = some n) : Joins s (.vm h vm) n
  | forward {name : String} (h : s.Forwards name) : Joins s (.net .virsh name) .internet

def Site.Linked (s : Site) (x y : Node) : Prop := s.Joins x y ∨ s.Joins y x

/-! ## The plan -/

/-- Which machines are to be gateways and workstations, and which networks internal. -/
structure Plan where
  gateway : Hypervisor → String → Prop
  workstation : Hypervisor → String → Prop
  internal : Hypervisor → String → Prop

/-- The machines that are gateways. -/
def Plan.gateways (P : Plan) : Set Node := { n | ∃ h vm, P.gateway h vm ∧ n = .vm h vm }

/-- The call is made according to the plan. A gateway's external network may be any. -/
def Wiring.Follows (P : Plan) : Wiring → Prop
  | .vboxGateway vm _ net => P.gateway .vbox vm ∧ P.internal .vbox net
  | .vboxWorkstation vm net => P.workstation .vbox vm ∧ P.internal .vbox net
  | .virshNetwork _ _ => True
  | .virshGateway vm _ net => P.gateway .virsh vm ∧ P.internal .virsh net
  | .virshWorkstation vm net => P.workstation .virsh vm ∧ P.internal .virsh net

/-- The host before: no machine outside the plan is attached to an internal network, no internal
network is routed to the outside, VirtualBox workstations use their first two adapters only, and
libvirt workstations have no interface yet. -/
structure Plan.Ready (P : Plan) (s : Site) : Prop where
  apart : ∀ h vm, P.gateway h vm → ¬ P.workstation h vm
  others : ∀ h vm, ¬ P.gateway h vm → ¬ P.workstation h vm → ∀ a ∈ h.adapters s.host vm,
    ∀ h' n, a.leadsTo = some (.net h' n) → ¬ P.internal h' n
  closed : ∀ n, P.internal .virsh n → ¬ s.Forwards n
  few : ∀ vm, P.workstation .vbox vm → FewAdapters (s.host.vbox vm)
  bare : ∀ vm, P.workstation .virsh vm → s.host.virsh vm = []

/-- The attached adapters of the machine are on internal networks. -/
def Plan.Inside (P : Plan) (s : Site) (h : Hypervisor) (vm : String) : Prop :=
  ∀ a ∈ h.adapters s.host vm, a = .none ∨ ∃ h' n, a.leadsTo = some (.net h' n) ∧ P.internal h' n

/-- The workstations and the internal networks. -/
def Plan.inside (P : Plan) : Set Node :=
  { n | (∃ h vm, P.workstation h vm ∧ n = .vm h vm) ∨
    ∃ h name, P.internal h name ∧ n = .net h name }

theorem Plan.internet_notMem_inside (P : Plan) : Node.internet ∉ P.inside := by
  rintro (⟨h, vm, -, hn⟩ | ⟨h, name, -, hn⟩)
  · cases hn
  · cases hn

/-- **The inside of the plan is closed**, up to the gateways, where workstations are attached to
internal networks only, and these to machines of the plan only. -/
theorem Plan.closedUpTo_inside {P : Plan} {s : Site}
    (hothers : ∀ h vm, ¬ P.gateway h vm → ¬ P.workstation h vm → ∀ a ∈ h.adapters s.host vm,
      ∀ h' n, a.leadsTo = some (.net h' n) → ¬ P.internal h' n)
    (hclosed : ∀ n, P.internal .virsh n → ¬ s.Forwards n)
    (hinside : ∀ h vm, P.workstation h vm → P.Inside s h vm) :
    ClosedUpTo s.Linked P.gateways P.inside := by
  rintro x hx - y (hxy | hxy)
  · cases hxy with
    | @adapter h vm a n ha hn =>
        -- from a workstation, to one of its networks
        obtain ⟨h', vm', hw, he⟩ | ⟨h', name, -, he⟩ := hx
        · cases he
          obtain rfl | ⟨h'', name, hlead, hint⟩ := hinside h vm hw a ha
          · cases hn
          · rw [hlead] at hn
            cases hn
            exact .inl (.inr ⟨h'', name, hint, rfl⟩)
        · cases he
    | @forward name hfwd =>
        obtain ⟨h', vm', -, he⟩ | ⟨h', name', hint, he⟩ := hx
        · cases he
        · cases he
          exact absurd hfwd (hclosed name hint)
  · cases hxy with
    | @adapter h vm a n ha hn =>
        -- from an internal network, to a machine that is attached to it
        obtain ⟨h', vm', -, he⟩ | ⟨h', name, hint, rfl⟩ := hx
        · subst he
          cases a <;> cases hn
        · by_cases hg : P.gateway h vm
          · exact .inr ⟨h, vm, hg, rfl⟩
          · by_cases hw : P.workstation h vm
            · exact .inl (.inl ⟨h, vm, hw, rfl⟩)
            · exact absurd hint (hothers h vm hg hw a ha h' name hn)
    | @forward name hfwd => exact absurd hx P.internet_notMem_inside

/-! ## What one call leaves -/

/-- What a call of a wiring function can do to the host. -/
structure Wiring.Does (x : Wiring) (s : Site) (b : Bool) (s' : Site) : Prop where
  others : ∀ h vm, x.target ≠ some (h, vm) →
    h.adapters s'.host vm = h.adapters s.host vm
  closed : ∀ n, s'.Forwards n → s.Forwards n
  workstation : ∀ vm net, x = .vboxWorkstation vm net →
    (b = false ∧ (s'.host.vbox vm = s.host.vbox vm ∨
      s'.host.vbox vm = (s.host.vbox vm).set 0 (.intnet net))) ∨
    2 ≤ (s.host.vbox vm).length ∧ s'.host.vbox vm = wiredNics net (s.host.vbox vm)
  domain : ∀ vm net, x = .virshWorkstation vm net →
    s'.host.virsh vm = s.host.virsh vm ∨ s'.host.virsh vm = s.host.virsh vm ++ [.network net]

theorem others_of_sameBut {w w' : Host} {h h' : Hypervisor} {vm vm' : String}
    (hsame : w.SameBut w' h vm) (hne : some (h, vm) ≠ some (h', vm')) :
    h'.adapters w' vm' = h'.adapters w vm' :=
  hsame.others h' vm' fun he => hne (congrArg some he.symm)

theorem Wiring.does (x : Wiring) (s : Site) : x.body.wp site (x.Does s) s := by
  cases x with
  | vboxGateway vm ext net =>
      refine onHost_wp (vboxWireGateway_wp fun b w' hsame => ?_)
      exact ⟨fun h vm' => others_of_sameBut hsame, fun _ h => h, nofun, nofun⟩
  | virshGateway vm ext net =>
      refine onHost_wp (virshWireGateway_wp fun b w' hsame => ?_)
      exact ⟨fun h vm' => others_of_sameBut hsame, fun _ h => h, nofun, nofun⟩
  | virshNetwork name ip =>
      refine virshCreateIsolatedNetwork_wp fun b s' hhost hfwd => ?_
      exact ⟨fun h vm _ => by rw [hhost], hfwd, nofun, nofun⟩
  | vboxWorkstation vm net =>
      have hfirst : s.host.SameBut _ .vbox vm := s.host.sameBut_setNic 1 (.intnet net)
      refine onHost_wp (vboxWireWorkstation_wp ?_ ?_ fun hlen => ?_)
      · refine ⟨fun _ _ _ => rfl, fun _ h => h, ?_, nofun⟩
        rintro vm' net' ⟨⟩
        exact .inl ⟨rfl, .inl rfl⟩
      · refine ⟨fun h vm' => others_of_sameBut hfirst, fun _ h => h, ?_, nofun⟩
        rintro vm' net' ⟨⟩
        exact .inl ⟨rfl, .inr (Host.setNic_vbox _ _)⟩
      · have hboth := hfirst.trans (Host.sameBut_setNic _ 2 .none)
        refine ⟨fun h vm' => others_of_sameBut hboth, fun _ h => h, ?_, nofun⟩
        rintro vm' net' ⟨⟩
        refine .inr ⟨hlen, ?_⟩
        rw [Host.setNic_vbox, Host.setNic_vbox]
        rfl
  | virshWorkstation vm net =>
      refine onHost_wp (virshWireWorkstation_wp ?_ ?_)
      · exact ⟨fun _ _ _ => rfl, fun _ h => h, nofun, fun _ _ _ => .inl rfl⟩
      · have hsame : s.host.SameBut _ .virsh vm := s.host.sameBut_addInterface (.network net)
        refine ⟨fun h vm' => others_of_sameBut hsame, fun _ h => h, nofun, ?_⟩
        rintro vm' net' ⟨⟩
        exact .inr (Host.addInterface_virsh _)

/-! ## Whole runs -/

/-- What the calls of a plan keep. -/
structure Plan.Kept (P : Plan) (s : Site) : Prop where
  others : ∀ h vm, ¬ P.gateway h vm → ¬ P.workstation h vm → ∀ a ∈ h.adapters s.host vm,
    ∀ h' n, a.leadsTo = some (.net h' n) → ¬ P.internal h' n
  closed : ∀ n, P.internal .virsh n → ¬ s.Forwards n
  few : ∀ vm, P.workstation .vbox vm → FewAdapters (s.host.vbox vm)
  domains : ∀ vm, P.workstation .virsh vm → P.Inside s .virsh vm

theorem Plan.Ready.kept {P : Plan} {s : Site} (h : P.Ready s) : P.Kept s where
  others := h.others
  closed := h.closed
  few := h.few
  domains vm hvm a ha := by
    have ha : a ∈ s.host.virsh vm := ha
    rw [h.bare vm hvm] at ha
    cases ha

/-- The machine has one adapter in use, on an internal network. -/
def Plan.Sealed (P : Plan) (s : Site) (vm : String) : Prop :=
  ∃ net rest, P.internal .vbox net ∧ s.host.vbox vm = .intnet net :: .none :: rest ∧
    ∀ a ∈ rest, a = .none

section

variable {P : Plan} {s s' : Site} {x : Wiring} {b : Bool}

/-- The machine a call is about is a gateway or a workstation of the plan. -/
theorem Wiring.Follows.target (hx : x.Follows P) {h : Hypervisor} {vm : String}
    (ht : x.target = some (h, vm)) : P.gateway h vm ∨ P.workstation h vm := by
  cases x with
  | virshNetwork name ip => cases ht
  | vboxGateway v ext net | virshGateway v ext net =>
      cases ht
      exact .inl hx.1
  | vboxWorkstation v net | virshWorkstation v net =>
      cases ht
      exact .inr hx.1

def Hypervisor.workstationWiring : Hypervisor → String → String → Wiring
  | .vbox => .vboxWorkstation
  | .virsh => .virshWorkstation

/-- A workstation is changed by the function for workstations only. -/
theorem Wiring.Follows.workstation (hx : x.Follows P) (hP : ∀ h vm, P.gateway h vm →
    ¬ P.workstation h vm) {h : Hypervisor} {vm : String} (hvm : P.workstation h vm)
    (ht : x.target = some (h, vm)) :
    ∃ net, P.internal h net ∧ x = h.workstationWiring vm net := by
  cases x with
  | virshNetwork name ip => cases ht
  | vboxGateway v ext net | virshGateway v ext net =>
      cases ht
      exact absurd hvm (hP _ _ hx.1)
  | vboxWorkstation v net | virshWorkstation v net =>
      cases ht
      exact ⟨net, hx.2, rfl⟩

/-- The adapters behind the second one are left alone. -/
theorem Wiring.Does.drop {vm net : String}
    (hd : (Wiring.vboxWorkstation vm net).Does s b s') :
    (s'.host.vbox vm).drop 2 = (s.host.vbox vm).drop 2 := by
  obtain ⟨-, hnics | hnics⟩ | ⟨hlen, hnics⟩ := hd.workstation vm net rfl
  · rw [hnics]
  · rw [hnics, List.drop_set_of_lt (by decide)]
  · rw [hnics, wiredNics_of_length hlen]
    rfl

theorem Plan.Kept.step (h : P.Kept s) (hP : ∀ h vm, P.gateway h vm → ¬ P.workstation h vm)
    (hx : x.Follows P) (hd : x.Does s b s') : P.Kept s' where
  others k vm hg hw := by
    have hne : x.target ≠ some (k, vm) := fun ht => (hx.target ht).elim hg hw
    rw [hd.others k vm hne]
    exact h.others k vm hg hw
  closed n hn hfwd := h.closed n hn (hd.closed n hfwd)
  few vm hvm := by
    by_cases ht : x.target = some (.vbox, vm)
    · obtain ⟨net, -, rfl⟩ := hx.workstation hP hvm ht
      rw [FewAdapters, hd.drop]
      exact h.few vm hvm
    · have hsame : s'.host.vbox vm = s.host.vbox vm := hd.others .vbox vm ht
      rw [hsame]
      exact h.few vm hvm
  domains vm hvm a ha := by
    by_cases ht : x.target = some (.virsh, vm)
    · obtain ⟨net, hnet, rfl⟩ := hx.workstation hP hvm ht
      have ha : a ∈ s'.host.virsh vm := ha
      -- a call adds at most the adapter to the internal network
      obtain hsame | hadded := hd.domain vm net rfl
      · rw [hsame] at ha
        exact h.domains vm hvm a ha
      · rw [hadded] at ha
        obtain ha | ha := List.mem_append.mp ha
        · exact h.domains vm hvm a ha
        · rw [List.mem_singleton.mp ha]
          exact .inr ⟨.virsh, net, rfl, hnet⟩
    · rw [hd.others .virsh vm ht] at ha
      exact h.domains vm hvm a ha

/-- After a call that answers yes, the workstation is sealed. -/
theorem Plan.Kept.sealed (h : P.Kept s) {vm net : String} (hvm : P.workstation .vbox vm)
    (hnet : P.internal .vbox net) (hd : (Wiring.vboxWorkstation vm net).Does s true s') :
    P.Sealed s' vm := by
  obtain ⟨hfalse, -⟩ | ⟨hlen, hnics⟩ := hd.workstation vm net rfl
  · cases hfalse
  · rw [wiredNics_of_length hlen] at hnics
    exact ⟨net, _, hnet, hnics, h.few vm hvm⟩

/-- It stays so, also when a later call fails half-way. -/
theorem Plan.Sealed.step {vm : String} (h : P.Sealed s vm) (hP : ∀ h vm, P.gateway h vm →
    ¬ P.workstation h vm) (hvm : P.workstation .vbox vm) (hx : x.Follows P)
    (hd : x.Does s b s') : P.Sealed s' vm := by
  obtain ⟨net, rest, hnet, hnics, hunused⟩ := h
  by_cases ht : x.target = some (.vbox, vm)
  · obtain ⟨net', hnet', rfl⟩ := hx.workstation hP hvm ht
    obtain ⟨-, hnics' | hnics'⟩ | ⟨-, hnics'⟩ := hd.workstation vm net' rfl
    · exact ⟨net, rest, hnet, hnics'.trans hnics, hunused⟩
    · rw [hnics] at hnics'
      exact ⟨net', rest, hnet', hnics', hunused⟩
    · rw [hnics] at hnics'
      exact ⟨net', rest, hnet', hnics', hunused⟩
  · exact ⟨net, rest, hnet, (hd.others .vbox vm ht).trans hnics, hunused⟩

theorem Plan.Sealed.inside {vm : String} (h : P.Sealed s vm) : P.Inside s .vbox vm := by
  obtain ⟨net, rest, hnet, hnics, hrest⟩ := h
  intro a ha
  have ha : a ∈ s.host.vbox vm := ha
  rw [hnics, List.mem_cons, List.mem_cons] at ha
  obtain rfl | rfl | ha := ha
  · exact .inr ⟨.vbox, net, rfl, hnet⟩
  · exact .inl rfl
  · exact .inl (hrest a ha)

/-- The function for VirtualBox workstations has answered yes about the machine. -/
def Wired (cs : List (Wiring × Bool)) (vm : String) : Prop :=
  ∃ net, (Wiring.vboxWorkstation vm net, true) ∈ cs

/-- What every call of a plan keeps. -/
structure Plan.Safe (P : Plan) (s : Site) (cs : List (Wiring × Bool)) : Prop where
  kept : P.Kept s
  sealed : ∀ vm, P.workstation .vbox vm → Wired cs vm → P.Sealed s vm

theorem Plan.Safe.step {cs : List (Wiring × Bool)} (h : P.Safe s cs) (hP : ∀ h vm, P.gateway h vm →
    ¬ P.workstation h vm) (hx : x.Follows P) (hd : x.Does s b s') :
    P.Safe s' (cs ++ [(x, b)]) := by
  refine ⟨h.kept.step hP hx hd, fun vm hvm ⟨net, hnet⟩ => ?_⟩
  rcases List.mem_append.mp hnet with hnet | hnet
  · exact (h.sealed vm hvm ⟨net, hnet⟩).step hP hvm hx hd
  · cases List.mem_singleton.mp hnet
    exact h.kept.sealed hvm hx.2 hd

theorem Plan.Safe.calls {cs ds : List (Wiring × Bool)} (h : P.Safe s cs) (hP : ∀ h vm,
    P.gateway h vm → ¬ P.workstation h vm)
    (hds : Calls site Wiring.body (fun x _ => x.Follows P) s ds s') : P.Safe s' (cs ++ ds) := by
  induction hds generalizing cs with
  | nil s => rwa [List.append_nil]
  | @cons s s₁ s₂ x b tr ds hx hrun _ ih =>
      have hnext := ih (h.step hP hx (hrun.post (x.does s)))
      rwa [List.append_assoc] at hnext

/-- Where all VirtualBox workstations are wired, the inside of the plan is closed. -/
theorem Plan.Safe.closedUpTo {cs : List (Wiring × Bool)} (h : P.Safe s cs)
    (hdone : ∀ vm, P.workstation .vbox vm → Wired cs vm) :
    ClosedUpTo s.Linked P.gateways P.inside := by
  refine Plan.closedUpTo_inside h.kept.others h.kept.closed fun hv vm hvm => ?_
  cases hv with
  | vbox => exact (h.sealed vm hvm (hdone vm hvm)).inside
  | virsh => exact h.kept.domains vm hvm

theorem Plan.Ready.safe (h : P.Ready s) : P.Safe s [] :=
  ⟨h.kept, fun _ _ ⟨_, hnet⟩ => absurd hnet List.not_mem_nil⟩

end

/-- **Isolation in the network graph.** -/
theorem workstation_separated {P : Plan} {s s' : Site} {cs : List (Wiring × Bool)}
    (hs : P.Ready s) (h : Calls site Wiring.body (fun x _ => x.Follows P) s cs s')
    (hdone : ∀ vm, P.workstation .vbox vm → Wired cs vm) {hv : Hypervisor} {vm : String}
    (hvm : P.workstation hv vm) : Cuts s'.Linked P.gateways (.vm hv vm) .internet := by
  have hsafe : P.Safe s' cs := hs.safe.calls hs.apart h
  exact cuts_of_closed (hsafe.closedUpTo hdone) (.inl (.inl ⟨hv, vm, hvm, rfl⟩))
    P.internet_notMem_inside

/-! ## One pair of machines -/

/-- One gateway and one workstation in VirtualBox, on the default network. -/
def onePair : Plan where
  gateway h vm := h = .vbox ∧ vm = "gateway"
  workstation h vm := h = .vbox ∧ vm = "workstation"
  internal h n := h = .vbox ∧ n = "pg-gateway-net"

/-- Machines with four adapters, of which the second of the workstation is connected to the
Internet. -/
def beforeWiring : Site where
  host := ⟨fun vm => if vm = "workstation" then [.none, .nat, .none, .none]
    else [.nat, .none, .none, .none], fun _ => []⟩
  networks _ := none

def wiringCalls : List Wiring := wireTopology .vbox "gateway" "workstation" "pg-gateway-net" "nat"

/-- All commands succeed. -/
def afterWiring : List (Wiring × Bool) × Site :=
  runCalls site (fun _ _ => true) Wiring.body wiringCalls beforeWiring

theorem onePair_ready : onePair.Ready beforeWiring where
  apart h vm hg hw := by
    obtain ⟨-, rfl⟩ := hg
    exact absurd hw.2 (by decide)
  others h vm hg hw a ha h' n hn hint := by
    have hnone : ∀ nics : List Attachment, nics ⊆ [.none, .nat] → a ∈ nics →
        a.leadsTo ≠ some (.net h' n) := by
      intro nics hsub hmem
      obtain rfl | rfl : a = .none ∨ a = .nat := by simpa using hsub hmem
      · exact nofun
      · exact nofun
    cases h with
    | virsh => cases ha
    | vbox =>
        have ha : a ∈ if vm = "workstation" then _ else _ := ha
        split at ha
        · exact hnone _ (by decide) ha hn
        · exact hnone _ (by decide) ha hn
  closed n hn := by
    cases hn.1
  few vm hvm := by
    obtain ⟨-, rfl⟩ := hvm
    simp [FewAdapters, beforeWiring]
  bare vm hvm := by
    cases hvm.1

theorem workstation_separated_onePair :
    Cuts afterWiring.2.Linked onePair.gateways (.vm .vbox "workstation") .internet := by
  have hallowed : Allowed site (fun _ _ => true) Wiring.body (fun x _ => x.Follows onePair)
      wiringCalls beforeWiring :=
    ⟨⟨⟨rfl, rfl⟩, rfl, rfl⟩, ⟨⟨rfl, rfl⟩, rfl, rfl⟩, trivial⟩
  have hcalls := calls_runCalls (fun _ _ => trivial) hallowed
  refine workstation_separated onePair_ready hcalls (fun vm hvm => ?_) ⟨rfl, rfl⟩
  obtain ⟨-, rfl⟩ := hvm
  exact ⟨"pg-gateway-net", by decide +kernel⟩

end PrivacyGuard
