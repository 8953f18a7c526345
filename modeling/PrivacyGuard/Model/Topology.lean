import PrivacyGuard.Effect.Runs

set_option autoImplicit false

/-! # The host's virtual networks

The functions of `gateway_topology.py` that connect the workstation VM, and the commands of
the two hypervisors they run. A command may fail for any reason, and then changes nothing. -/

namespace PrivacyGuard

open Effect

/-- What a virtual adapter is attached to. -/
inductive Attachment
  | none
  | nat
  | bridged (iface : String)
  /-- VirtualBox's internal network of this name. -/
  | intnet (name : String)
  /-- libvirt's virtual network of this name. -/
  | network (name : String)
  | other (kind : String)
  deriving DecidableEq, Repr

/-- The virtual machines of the host. A VirtualBox machine has as many adapters as its
chipset provides, some of them attached; a libvirt domain has the interfaces it has been
given. A machine that does not exist has none. -/
structure Host where
  vbox : String → List Attachment
  virsh : String → List Attachment

inductive HostOp
  /-- `environment.have` -/
  | have_ (cmd : String)
  /-- `VBoxManage modifyvm vm --nicN ...`, with `--intnetN` for an internal network -/
  | modifyvm (vm : String) (n : Nat) (a : Attachment)
  /-- `virsh attach-interface vm network name --config` -/
  | attachInterface (vm name : String)
  deriving DecidableEq

abbrev hostSig : Sig := ⟨HostOp, fun _ => Bool⟩

abbrev HostProc : Type → Type := Prog hostSig

namespace Host

def setNic (w : Host) (vm : String) (n : Nat) (a : Attachment) : Host :=
  { w with vbox := Function.update w.vbox vm ((w.vbox vm).set (n - 1) a) }

def addInterface (w : Host) (vm : String) (a : Attachment) : Host :=
  { w with virsh := Function.update w.virsh vm (w.virsh vm ++ [a]) }

end Host

/-- The effect of an operation; `ok` tells whether it succeeds. An adapter the machine does
not have cannot be changed. -/
def hostExec : HostOp → Bool → Host → Bool × Host
  | .have_ _, ok, w => (ok, w)
  | .modifyvm vm n a, ok, w =>
      if ok ∧ 1 ≤ n ∧ n ≤ (w.vbox vm).length then (true, w.setNic vm n a) else (false, w)
  | .attachInterface vm name, ok, w =>
      if ok then (true, w.addInterface vm (.network name)) else (false, w)

/-- The host; any operation may fail. -/
def host : Handler hostSig Host Bool := ⟨hostExec, fun _ _ _ => True⟩

def hostDo (o : HostOp) : HostProc Bool := Prog.op (S := hostSig) o

def vboxWireWorkstation (workstationVm internalNetName : String) : HostProc Bool := do
  let present ← hostDo (.have_ "VBoxManage")
  if !present then
    return false
  let first ← hostDo (.modifyvm workstationVm 1 (.intnet internalNetName))
  -- `check=True`: a failure ends the sequence
  if !first then
    return false
  hostDo (.modifyvm workstationVm 2 .none)

def virshWireWorkstation (workstationVm internalNetwork : String) : HostProc Bool := do
  let present ← hostDo (.have_ "virsh")
  if !present then
    return false
  hostDo (.attachInterface workstationVm internalNetwork)

inductive Hypervisor
  | vbox
  | virsh
  deriving DecidableEq, Repr

namespace Hypervisor

def wireWorkstation : Hypervisor → String → String → HostProc Bool
  | .vbox => vboxWireWorkstation
  | .virsh => virshWireWorkstation

/-- The attachment to the internal network. -/
def internal : Hypervisor → String → Attachment
  | .vbox => .intnet
  | .virsh => .network

/-- What the attached adapters of a machine are attached to. -/
def attached (h : Hypervisor) (w : Host) (vm : String) : List Attachment :=
  match h with
  | .vbox => (w.vbox vm).filter (· ≠ .none)
  | .virsh => w.virsh vm

end Hypervisor

/-! ## What the calls can do -/

section

variable {w : Host} {vm net : String} {Q : Bool → Host → Prop}

theorem wp_have {cmd : String} (h : ∀ ok, Q ok w) : (hostDo (.have_ cmd)).wp host Q w :=
  fun ok _ => h ok

theorem wp_modifyvm {n : Nat} {a : Attachment} (hfail : Q false w)
    (hok : 1 ≤ n → n ≤ (w.vbox vm).length → Q true (w.setNic vm n a)) :
    (hostDo (.modifyvm vm n a)).wp host Q w := by
  rintro ok -
  show Q (hostExec (.modifyvm vm n a) ok w).1 (hostExec (.modifyvm vm n a) ok w).2
  rw [hostExec]
  split
  · rename_i h
    exact hok h.2.1 h.2.2
  · exact hfail

theorem wp_attachInterface {name : String} (hfail : Q false w)
    (hok : Q true (w.addInterface vm (.network name))) :
    (hostDo (.attachInterface vm name)).wp host Q w := by
  rintro ok -
  show Q (hostExec (.attachInterface vm name) ok w).1 (hostExec (.attachInterface vm name) ok w).2
  rw [hostExec]
  split
  · exact hok
  · exact hfail

@[simp] theorem Host.setNic_vbox (n : Nat) (a : Attachment) :
    (w.setNic vm n a).vbox vm = (w.vbox vm).set (n - 1) a :=
  Function.update_self _ _ _

@[simp] theorem Host.addInterface_virsh (a : Attachment) :
    (w.addInterface vm a).virsh vm = w.virsh vm ++ [a] :=
  Function.update_self _ _ _

/-- A call that fails has changed nothing, or the first adapter only. -/
theorem vboxWireWorkstation_wp (hnone : Q false w)
    (hfirst : Q false (w.setNic vm 1 (.intnet net)))
    (hdone : 2 ≤ (w.vbox vm).length →
      Q true ((w.setNic vm 1 (.intnet net)).setNic vm 2 .none)) :
    (vboxWireWorkstation vm net).wp host Q w := by
  rw [vboxWireWorkstation, Prog.wp_bind]
  refine wp_have fun present => ?_
  split
  · exact hnone
  rw [Prog.wp_bind]
  refine wp_modifyvm ?_ fun _ _ => ?_
  · exact hnone
  · refine wp_modifyvm hfirst fun _ hlen => hdone ?_
    rwa [Host.setNic_vbox, List.length_set] at hlen

theorem virshWireWorkstation_wp (hnone : Q false w)
    (hdone : Q true (w.addInterface vm (.network net))) :
    (virshWireWorkstation vm net).wp host Q w := by
  rw [virshWireWorkstation, Prog.wp_bind]
  refine wp_have fun present => ?_
  split
  · exact hnone
  · exact wp_attachInterface hnone hdone

end

end PrivacyGuard
