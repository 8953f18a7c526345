import PrivacyGuard.Model.Topology

set_option autoImplicit false

/-! # The workstation's only adapter

The isolation of the workstation rests on its having one adapter, on the internal network.
Neither function starts from a machine without adapters: the one for VirtualBox sets the
first two and leaves the others as they are, the one for libvirt adds another interface. -/

namespace PrivacyGuard

open Effect

/-- The machine has one adapter, on the internal network, and calling the function again
does not change that. -/
structure OnlyInternal (h : Hypervisor) (w : Host) (vm net : String) : Prop where
  single : h.attached w vm = [h.internal net]
  stable : (h.wireWorkstation vm net).wp host
    (fun _ w' => h.attached w' vm = h.attached w vm) w

/-- Only the first two adapters are in use. -/
def FewAdapters (nics : List Attachment) : Prop := ∀ a ∈ nics.drop 2, a = .none

/-- The adapters the function for VirtualBox leaves. -/
def wiredNics (net : String) (nics : List Attachment) : List Attachment :=
  (nics.set 0 (.intnet net)).set 1 .none

theorem wiredNics_of_length {nics : List Attachment} (h : 2 ≤ nics.length) (net : String) :
    wiredNics net nics = .intnet net :: .none :: nics.drop 2 := by
  match nics, h with
  | _ :: _ :: nics, _ => rfl

/-- The function finds its own settings in place when it is called again. -/
theorem wiredNics_again {nics : List Attachment} (h : 2 ≤ nics.length) (net : String) :
    (wiredNics net nics).set 0 (.intnet net) = wiredNics net nics ∧
      ((wiredNics net nics).set 0 (.intnet net)).set 1 .none = wiredNics net nics := by
  rw [wiredNics_of_length h]
  exact ⟨rfl, rfl⟩

theorem attached_wiredNics {nics : List Attachment} (h : 2 ≤ nics.length) (net : String) :
    (wiredNics net nics).filter (· ≠ .none) = [.intnet net] ↔ FewAdapters nics := by
  rw [wiredNics_of_length h, FewAdapters]
  simp [List.filter_eq_nil_iff]

section

variable {w w' : Host} {vm net : String} {tr : List (Event hostSig)}

theorem vbox_of_runs (hrun : Prog.Runs host (vboxWireWorkstation vm net) w tr true w') :
    2 ≤ (w.vbox vm).length ∧ w'.vbox vm = wiredNics net (w.vbox vm) := by
  let Q : Bool → Host → Prop := fun b w' =>
    b = true → 2 ≤ (w.vbox vm).length ∧ w'.vbox vm = wiredNics net (w.vbox vm)
  refine hrun.post (Q := Q) (vboxWireWorkstation_wp (fun h => (nomatch h))
    (fun h => (nomatch h)) fun hlen _ => ⟨hlen, ?_⟩) rfl
  rw [Host.setNic_vbox, Host.setNic_vbox]
  rfl

/-- Whatever happens to a second call, it changes nothing. -/
theorem stable_vbox (hrun : Prog.Runs host (vboxWireWorkstation vm net) w tr true w') :
    (vboxWireWorkstation vm net).wp host (fun _ w'' => w''.vbox vm = w'.vbox vm) w' := by
  obtain ⟨hlen, hw'⟩ := vbox_of_runs hrun
  obtain ⟨hfirst, hboth⟩ := wiredNics_again hlen net
  refine vboxWireWorkstation_wp rfl ?_ fun _ => ?_
  · rw [Host.setNic_vbox, hw', hfirst]
  · rw [Host.setNic_vbox, Host.setNic_vbox, hw', hboth]

/-- A second call may succeed, and then there is one interface more. -/
theorem not_stable_virsh (w : Host) (vm net : String) :
    ¬ (virshWireWorkstation vm net).wp host (fun _ w' => w'.virsh vm = w.virsh vm) w := by
  intro h
  have hkeep : (w.addInterface vm (.network net)).virsh vm = w.virsh vm :=
    h true trivial true trivial
  rw [Host.addInterface_virsh] at hkeep
  simpa using congrArg List.length hkeep

/-- **When the workstation is left with one adapter.** With VirtualBox, if none but the first
two were in use before; with libvirt, never for good. -/
theorem onlyInternal_iff {h : Hypervisor}
    (hrun : Prog.Runs host (h.wireWorkstation vm net) w tr true w') :
    OnlyInternal h w' vm net ↔ h = .vbox ∧ FewAdapters (w.vbox vm) := by
  cases h with
  | vbox =>
      obtain ⟨hlen, hw'⟩ := vbox_of_runs hrun
      have hattached : Hypervisor.vbox.attached w' vm = [.intnet net] ↔
          FewAdapters (w.vbox vm) := by
        rw [Hypervisor.attached, hw']
        exact attached_wiredNics hlen net
      constructor
      · exact fun hw => ⟨rfl, hattached.mp hw.single⟩
      · rintro ⟨-, hfew⟩
        refine ⟨hattached.mpr hfew, Prog.wp_mono (stable_vbox hrun) fun _ w'' h => ?_⟩
        rw [Hypervisor.attached, Hypervisor.attached, h]
  | virsh =>
      constructor
      · exact fun hw => absurd hw.stable (not_stable_virsh w' vm net)
      · rintro ⟨h, -⟩
        cases h

end

/-! ## Particular machines -/

/-- A machine with four adapters, of which the `n`-th is connected to the Internet. -/
def fourAdapters (n : Nat) : Host where
  vbox _ := ([.none, .none, .none, .none] : List Attachment).set (n - 1) .nat
  virsh _ := []

/-- All commands succeed. -/
def wired (h : Hypervisor) (w : Host) : Host :=
  ((h.wireWorkstation "workstation" "pg-gateway-net").run host (fun _ _ => true) w).2

theorem runs_wired (h : Hypervisor) (w : Host)
    (hw : ((h.wireWorkstation "workstation" "pg-gateway-net").run host (fun _ _ => true) w).1
      = true) :
    ∃ tr, Prog.Runs host (h.wireWorkstation "workstation" "pg-gateway-net") w tr true
      (wired h w) :=
  Prog.runs_of_run (H := host) (fun _ _ => trivial) hw

theorem onlyInternal_iff_first :
    OnlyInternal .vbox (wired .vbox (fourAdapters 1)) "workstation" "pg-gateway-net" := by
  obtain ⟨tr, hrun⟩ := runs_wired .vbox (fourAdapters 1) (by decide +kernel)
  exact (onlyInternal_iff hrun).mpr ⟨rfl, by simp [FewAdapters, fourAdapters]⟩

/-- An adapter in the third slot keeps its connection to the Internet. -/
theorem not_onlyInternal :
    ¬ ∀ (h : Hypervisor) (w w' : Host) (vm net : String) (tr : List (Event hostSig)),
      Prog.Runs host (h.wireWorkstation vm net) w tr true w' → OnlyInternal h w' vm net := by
  intro h
  obtain ⟨tr, hrun⟩ := runs_wired .vbox (fourAdapters 3) (by decide +kernel)
  exact absurd (h _ _ _ _ _ tr hrun).single (by decide +kernel)

end PrivacyGuard
