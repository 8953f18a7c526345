import PrivacyGuard.Effect.Machine
import PrivacyGuard.Model.Actions
import PrivacyGuard.Model.Vpn

set_option autoImplicit false

/-! # What is saved about VPNs and the shutdown hook

After every call of a run, `vpn_active` should name the VPN that is up and `ram_wipe_hook` should
say whether the systemd unit is there. No call ever sets `ram_wipe_hook`, and a `stop_wireguard`
that has stopped nothing still clears `vpn_active`; any other call keeps the agreement. -/

namespace PrivacyGuard.Vpn

open Effect

/-- A VPN that the tool can start. -/
inductive Tunnel
  | openvpn (configPath : String)
  | wireguard (interface : String)

/-- The name it gets in the saved state. -/
def Tunnel.name : Tunnel → String
  | openvpn configPath => "openvpn:" ++ configPath
  | wireguard interface => "wireguard:" ++ interface

def Host.Up (h : Host) : Tunnel → Prop
  | .openvpn configPath => ∃ d ∈ h.openvpns, d.config = configPath
  | .wireguard interface => interface ∈ h.interfaces

/-- What is saved is what there is. -/
structure Agrees (h : Host) : Prop where
  active_none_iff : h.saved.vpnActive = none ↔ ∀ v, ¬ h.Up v
  names : ∀ s, h.saved.vpnActive = some s → ∀ v, h.Up v ↔ v.name = s
  hook_iff : h.saved.ramWipeHook = true ↔ h.unit.isSome

/-- Calls made one after the other. -/
def calls (saved : Saved) : Machine Host Step where
  init := .clean saved
  step h x := some (x.take h)

/-- No hook is installed; and what runs `wg-quick down` while a WireGuard VPN is recorded names
that interface, and succeeds. -/
def Allowed (h : Host) (x : Step) : Prop :=
  match x.call with
  | .installShutdownHook _ => (x.env.termux || !x.env.root) = true ∨ x.env.hasSystemctl = false
  | .stopWireguard interface =>
      (x.env.termux || !x.env.root) = false → x.answers.haveTool = true →
        ∀ i, h.saved.vpnActive = some (Tunnel.wireguard i).name →
          interface = i ∧ x.answers.wgQuick = true
  | _ => True

/-! ## Names -/

theorem toList_name_openvpn (configPath : String) :
    (Tunnel.openvpn configPath).name.toList = "openvpn:".toList ++ configPath.toList :=
  String.toList_append

theorem toList_name_wireguard (interface : String) :
    (Tunnel.wireguard interface).name.toList = "wireguard:".toList ++ interface.toList :=
  String.toList_append

theorem head_name_openvpn (configPath : String) :
    (Tunnel.openvpn configPath).name.toList.head? = some 'o' := by
  rw [toList_name_openvpn]
  rfl

theorem head_name_wireguard (interface : String) :
    (Tunnel.wireguard interface).name.toList.head? = some 'w' := by
  rw [toList_name_wireguard]
  rfl

theorem name_ne_name (configPath interface : String) :
    (Tunnel.openvpn configPath).name ≠ (Tunnel.wireguard interface).name := by
  intro h
  have hhead := congrArg (fun s => s.toList.head?) h
  rw [head_name_openvpn, head_name_wireguard] at hhead
  exact absurd hhead (by decide)

theorem name_ne_empty (v : Tunnel) : v.name ≠ "" := by
  intro h
  have hhead : v.name.toList.head? = none := by
    rw [h]
    rfl
  cases v with
  | openvpn c => exact absurd ((head_name_openvpn c).symm.trans hhead) (Option.some_ne_none _)
  | wireguard i => exact absurd ((head_name_wireguard i).symm.trans hhead) (Option.some_ne_none _)

theorem name_injective : Function.Injective Tunnel.name := by
  intro v v' h
  have hlist := congrArg String.toList h
  cases v with
  | openvpn c =>
      cases v' with
      | openvpn c' =>
          rw [toList_name_openvpn, toList_name_openvpn] at hlist
          rw [String.toList_injective (List.append_cancel_left hlist)]
      | wireguard i => exact absurd h (name_ne_name c i)
  | wireguard i =>
      cases v' with
      | openvpn c => exact absurd h.symm (name_ne_name c i)
      | wireguard i' =>
          rw [toList_name_wireguard, toList_name_wireguard] at hlist
          rw [String.toList_injective (List.append_cancel_left hlist)]

section

variable {h : Host} {c i : String}

theorem marked_of_name {v : Tunnel} (hv : h.saved.vpnActive = some v.name) :
    h.marked = true := by
  rw [Host.marked, hv, Option.any_some]
  exact decide_eq_true (name_ne_empty v)

theorem markedAs_of_none (hv : h.saved.vpnActive = none) :
    h.markedAs "openvpn:" = false ∧ h.markedAs "wireguard:" = false := by
  rw [Host.markedAs, Host.markedAs, hv]
  exact ⟨rfl, rfl⟩

theorem markedAs_openvpn (hv : h.saved.vpnActive = some (Tunnel.openvpn c).name) :
    h.markedAs "openvpn:" = true ∧ h.markedAs "wireguard:" = false := by
  rw [Host.markedAs, Host.markedAs, hv, Option.getD_some, toList_name_openvpn]
  exact ⟨List.isPrefixOf_iff_prefix.mpr (List.prefix_append _ _), rfl⟩

theorem markedAs_wireguard (hv : h.saved.vpnActive = some (Tunnel.wireguard i).name) :
    h.markedAs "wireguard:" = true ∧ h.markedAs "openvpn:" = false := by
  rw [Host.markedAs, Host.markedAs, hv, Option.getD_some, toList_name_wireguard]
  exact ⟨List.isPrefixOf_iff_prefix.mpr (List.prefix_append _ _), rfl⟩

theorem unmark_of_marked {kind now : String} (hm : h.markedAs kind = true) :
    h.unmark kind now = h.setVpnActive none now :=
  if_pos hm

theorem unmark_of_not {kind now : String} (hm : h.markedAs kind = false) :
    h.unmark kind now = h :=
  if_neg (ne_true_of_eq_false hm)

end

/-! ## What the calls keep -/

/-- Nothing is up, or one openvpn process with its PID file, or one WireGuard interface, and that
is recorded. -/
inductive Consistent (h : Host) : Prop
  | none (hactive : h.saved.vpnActive = none) (hopenvpns : h.openvpns = [])
      (hpidFile : h.pidFile = none) (hinterfaces : h.interfaces = [])
  | openvpn (d : Daemon) (hactive : h.saved.vpnActive = some (Tunnel.openvpn d.config).name)
      (hopenvpns : h.openvpns = [d]) (hpidFile : h.pidFile = some d.pid)
      (hinterfaces : h.interfaces = [])
  | wireguard (i : String) (hactive : h.saved.vpnActive = some (Tunnel.wireguard i).name)
      (hopenvpns : h.openvpns = []) (hpidFile : h.pidFile = none)
      (hinterfaces : h.interfaces = [i])

section

variable {h : Host} {env : Environment} {a : Answers} {c i : String}

/-- Where no VPN is recorded, nothing is up. -/
theorem Consistent.idle (hc : Consistent h) (hm : h.marked = false) :
    h.openvpns = [] ∧ h.pidFile = .none ∧ h.interfaces = [] := by
  cases hc with
  | none _ hopenvpns hpidFile hinterfaces => exact ⟨hopenvpns, hpidFile, hinterfaces⟩
  | openvpn d hactive =>
      exact absurd (hm.symm.trans (marked_of_name hactive)) Bool.false_ne_true
  | wireguard i hactive =>
      exact absurd (hm.symm.trans (marked_of_name hactive)) Bool.false_ne_true

theorem consistent_startOpenvpn (hc : Consistent h) : Consistent (startOpenvpn env a c h).2 := by
  rw [startOpenvpn]
  split_ifs with h₁ h₂ h₃ hm
  · exact hc
  · exact hc
  · exact hc
  · exact hc
  · obtain ⟨hopenvpns, hpidFile, hinterfaces⟩ := hc.idle (Bool.eq_false_of_not_eq_true hm)
    cases a.launch with
    | failed => exact hc
    | died =>
        change Consistent (if h.pidFile.isSome then _ else (false, h)).2
        rw [hpidFile]
        exact hc
    | started pid => exact .openvpn ⟨pid, c⟩ rfl (congrArg (_ :: ·) hopenvpns) rfl hinterfaces

theorem consistent_startWireguard (hc : Consistent h) :
    Consistent (startWireguard env a i h).2 := by
  rw [startWireguard]
  split_ifs with h₁ h₂ hm
  · exact hc
  · exact hc
  · exact hc
  · obtain ⟨hopenvpns, hpidFile, hinterfaces⟩ := hc.idle (Bool.eq_false_of_not_eq_true hm)
    rw [Host.wgUp]
    split_ifs
    · exact .wireguard i rfl hopenvpns hpidFile (congrArg (i :: ·) hinterfaces)
    · exact hc

theorem consistent_stopOpenvpn (hc : Consistent h) : Consistent (stopOpenvpn env a h) := by
  by_cases henv : (env.termux || !env.root) = true
  · rw [stopOpenvpn, if_pos henv]
    exact hc
  · rw [stopOpenvpn, if_neg henv]
    cases hc with
    | none hactive hopenvpns hpidFile hinterfaces =>
        rw [hpidFile]
        change Consistent (h.pkillOpenvpn.unmark "openvpn:" a.now)
        rw [unmark_of_not (h := h.pkillOpenvpn) (markedAs_of_none hactive).1]
        exact .none hactive rfl hpidFile hinterfaces
    | openvpn d hactive hopenvpns hpidFile hinterfaces =>
        rw [hpidFile]
        change Consistent ({ h.kill d.pid with pidFile := none }.unmark "openvpn:" a.now)
        rw [unmark_of_marked (h := { h.kill d.pid with pidFile := none })
          (markedAs_openvpn hactive).1]
        refine .none rfl ?_ rfl hinterfaces
        change h.openvpns.filter (·.pid ≠ d.pid) = []
        rw [hopenvpns]
        simp
    | wireguard i hactive hopenvpns hpidFile hinterfaces =>
        rw [hpidFile]
        change Consistent (h.pkillOpenvpn.unmark "openvpn:" a.now)
        rw [unmark_of_not (h := h.pkillOpenvpn) (markedAs_wireguard hactive).2]
        exact .wireguard i hactive rfl hpidFile hinterfaces

/-- An interface that is not up cannot be brought down. -/
theorem wgDown_of_not_mem {ok : Bool} (hi : i ∉ h.interfaces) : h.wgDown ok i = none := by
  rw [Host.wgDown, if_neg]
  simp [hi]

/-- Where no WireGuard VPN is recorded, no interface is up. -/
theorem Consistent.interfaces_eq_nil (hc : Consistent h) (hm : h.markedAs "wireguard:" = false) :
    h.interfaces = [] := by
  cases hc with
  | none _ _ _ hinterfaces => exact hinterfaces
  | openvpn d _ _ _ hinterfaces => exact hinterfaces
  | wireguard i hactive =>
      exact absurd (hm.symm.trans (markedAs_wireguard hactive).1) Bool.false_ne_true

/-- Where one is recorded, its interface is up and nothing else is. -/
theorem Consistent.wireguard_of_markedAs (hc : Consistent h)
    (hm : h.markedAs "wireguard:" = true) :
    ∃ i, h.saved.vpnActive = some (Tunnel.wireguard i).name ∧ h.openvpns = [] ∧
      h.pidFile = .none ∧ h.interfaces = [i] := by
  cases hc with
  | none hactive =>
      exact absurd (hm.symm.trans (markedAs_of_none hactive).2) Bool.false_ne_true.symm
  | openvpn d hactive =>
      exact absurd (hm.symm.trans (markedAs_openvpn hactive).2) Bool.false_ne_true.symm
  | wireguard i hactive hopenvpns hpidFile hinterfaces =>
      exact ⟨i, hactive, hopenvpns, hpidFile, hinterfaces⟩

/-- A stop that is made while a WireGuard VPN is recorded has to be the right one, and has to
succeed. -/
theorem consistent_stopWireguard (hc : Consistent h)
    (hallowed : (env.termux || !env.root) = false → a.haveTool = true →
      ∀ j, h.saved.vpnActive = some (Tunnel.wireguard j).name → i = j ∧ a.wgQuick = true) :
    Consistent (stopWireguard env a i h) := by
  rw [stopWireguard]
  split_ifs with henv htool
  · exact hc
  · exact hc
  · cases hm : h.markedAs "wireguard:" with
    | false =>
        have hi : i ∉ h.interfaces := by
          rw [hc.interfaces_eq_nil hm]
          exact List.not_mem_nil
        rw [wgDown_of_not_mem hi, Option.getD_none, unmark_of_not hm]
        exact hc
    | true =>
        obtain ⟨j, hactive, hopenvpns, hpidFile, hinterfaces⟩ := hc.wireguard_of_markedAs hm
        obtain ⟨rfl, hok⟩ := hallowed (Bool.eq_false_of_not_eq_true henv) (by simpa using htool) j
          hactive
        have hdown : h.wgDown a.wgQuick i = some { h with interfaces := [] } := by
          rw [Host.wgDown, hinterfaces, hok]
          simp
        rw [hdown, Option.getD_some, unmark_of_marked (h := { h with interfaces := [] }) hm]
        exact .none rfl hopenvpns hpidFile rfl

end

/-! ## The shutdown hook -/

/-- What is saved about the hook, and the unit. -/
def Host.hook (h : Host) : Bool × Option String := (h.saved.ramWipeHook, h.unit)

theorem hook_unmark (h : Host) (kind now : String) : (h.unmark kind now).hook = h.hook := by
  rw [Host.unmark]
  split <;> rfl

section

variable (env : Environment) (a : Answers) (h : Host)

theorem hook_startOpenvpn (c : String) : (startOpenvpn env a c h).2.hook = h.hook := by
  rw [startOpenvpn]
  split_ifs
  · rfl
  · rfl
  · rfl
  · rfl
  · cases a.launch with
    | failed => rfl
    | died =>
        change (if h.pidFile.isSome then (true, h.setVpnActive _ _) else (false, h)).2.hook = _
        split <;> rfl
    | started pid => rfl

theorem hook_stopOpenvpn : (stopOpenvpn env a h).hook = h.hook := by
  rw [stopOpenvpn]
  split_ifs
  · rfl
  · split
    · exact hook_unmark _ _ _
    · exact hook_unmark _ _ _

theorem hook_startWireguard (i : String) : (startWireguard env a i h).2.hook = h.hook := by
  rw [startWireguard, Host.wgUp]
  split_ifs <;> rfl

theorem hook_wgDown (ok : Bool) (i : String) : ((h.wgDown ok i).getD h).hook = h.hook := by
  rw [Host.wgDown]
  split <;> rfl

theorem hook_stopWireguard (i : String) : (stopWireguard env a i h).hook = h.hook := by
  rw [stopWireguard]
  split_ifs
  · rfl
  · rfl
  · exact (hook_unmark _ _ _).trans (hook_wgDown _ _ _)

end

/-- Wherever it does not decline. -/
theorem hook_installShutdownHook {env : HookEnvironment} {h : Host} (m : String)
    (henv : ¬ (env.termux || !env.root) = true) (hsystemctl : ¬ env.hasSystemctl = false) :
    (installShutdownHook env m h).hook = (h.saved.ramWipeHook, some systemdUnit) := by
  rw [installShutdownHook, if_neg henv, Bool.eq_true_of_not_eq_false hsystemctl, Bool.not_true,
    if_neg Bool.false_ne_true]
  rfl

theorem installShutdownHook_of_declined {env : HookEnvironment} {h : Host} (m : String)
    (hdeclined : (env.termux || !env.root) = true ∨ env.hasSystemctl = false) :
    installShutdownHook env m h = h := by
  rw [installShutdownHook]
  obtain henv | hsystemctl := hdeclined
  · rw [if_pos henv]
  · rw [hsystemctl, Bool.not_false, if_pos rfl]
    split_ifs <;> rfl

/-- A call leaves the hook alone, or removes it, or is one that is not allowed. -/
theorem hook_take (x : Step) (h : Host) :
    (x.take h).hook = h.hook ∨ (x.take h).hook = (h.saved.ramWipeHook, none) ∨
      ¬ Allowed h x ∧ (x.take h).hook = (h.saved.ramWipeHook, some systemdUnit) := by
  obtain ⟨env, call, a⟩ := x
  cases call with
  | startOpenvpn c => exact .inl (hook_startOpenvpn env.toEnvironment a h c)
  | stopOpenvpn => exact .inl (hook_stopOpenvpn env.toEnvironment a h)
  | startWireguard i => exact .inl (hook_startWireguard env.toEnvironment a h i)
  | stopWireguard i => exact .inl (hook_stopWireguard env.toEnvironment a h i)
  | installShutdownHook m =>
      by_cases hx : (env.termux || !env.root) = true ∨ env.hasSystemctl = false
      · exact .inl (congrArg Host.hook (installShutdownHook_of_declined m hx))
      · exact .inr (.inr ⟨hx, hook_installShutdownHook m (not_or.mp hx).1 (not_or.mp hx).2⟩)
  | removeShutdownHook =>
      change (removeShutdownHook env h).hook = _ ∨ (removeShutdownHook env h).hook = _ ∨ _
      rw [removeShutdownHook]
      split_ifs
      · exact .inl rfl
      · exact .inl rfl
      · exact .inr (.inl rfl)

/-- `ram_wipe_hook` is never written. -/
theorem ramWipeHook_take (x : Step) (h : Host) :
    (x.take h).saved.ramWipeHook = h.saved.ramWipeHook := by
  obtain hx | hx | ⟨-, hx⟩ := hook_take x h
  · exact congrArg Prod.fst hx
  · exact congrArg Prod.fst hx
  · exact congrArg Prod.fst hx

/-- Only installing the hook makes a unit. -/
theorem unit_take {x : Step} {h : Host} (hx : Allowed h x) (hunit : h.unit = none) :
    (x.take h).unit = none := by
  obtain hhook | hhook | ⟨hnot, -⟩ := hook_take x h
  · exact (congrArg Prod.snd hhook).trans hunit
  · exact congrArg Prod.snd hhook
  · exact absurd hx hnot

/-! ## Runs -/

theorem Consistent.withHook {h : Host} (hc : Consistent h) (script unit : Option String) :
    Consistent { h with script := script, unit := unit } := by
  cases hc with
  | none hactive hopenvpns hpidFile hinterfaces =>
      exact .none hactive hopenvpns hpidFile hinterfaces
  | openvpn d hactive hopenvpns hpidFile hinterfaces =>
      exact .openvpn d hactive hopenvpns hpidFile hinterfaces
  | wireguard i hactive hopenvpns hpidFile hinterfaces =>
      exact .wireguard i hactive hopenvpns hpidFile hinterfaces

theorem consistent_take {x : Step} {h : Host} (hc : Consistent h) (hx : Allowed h x) :
    Consistent (x.take h) := by
  obtain ⟨env, call, a⟩ := x
  cases call with
  | startOpenvpn c => exact consistent_startOpenvpn hc
  | stopOpenvpn => exact consistent_stopOpenvpn hc
  | startWireguard i => exact consistent_startWireguard hc
  | stopWireguard i => exact consistent_stopWireguard hc hx
  | installShutdownHook m =>
      change Consistent (installShutdownHook env m h)
      rw [installShutdownHook]
      split_ifs
      · exact hc
      · exact hc
      · exact hc.withHook _ _
  | removeShutdownHook =>
      change Consistent (removeShutdownHook env h)
      rw [removeShutdownHook]
      split_ifs
      · exact hc
      · exact hc
      · exact hc.withHook _ _

/-- What is recorded is what is up. -/
theorem Consistent.recorded {h : Host} (hc : Consistent h) :
    ∃ v : Option Tunnel, h.saved.vpnActive = v.map Tunnel.name ∧ ∀ t, h.Up t ↔ v = some t := by
  cases hc with
  | none hactive hopenvpns hpidFile hinterfaces =>
      refine ⟨.none, hactive, fun t => ?_⟩
      cases t <;> simp [Host.Up, hopenvpns, hinterfaces]
  | openvpn d hactive hopenvpns hpidFile hinterfaces =>
      refine ⟨some (.openvpn d.config), hactive, fun t => ?_⟩
      cases t <;> simp [Host.Up, hopenvpns, hinterfaces]
  | wireguard i hactive hopenvpns hpidFile hinterfaces =>
      refine ⟨some (.wireguard i), hactive, fun t => ?_⟩
      cases t <;> simp [Host.Up, hopenvpns, hinterfaces, eq_comm]

/-- What a run keeps in which every step is allowed. -/
structure Sound (h : Host) : Prop where
  consistent : Consistent h
  ramWipeHook : h.saved.ramWipeHook = false
  unit : h.unit = none

theorem sound_clean (saved : Saved) : Sound (.clean saved) := ⟨.none rfl rfl rfl rfl, rfl, rfl⟩

theorem Sound.take {x : Step} {h : Host} (hs : Sound h) (hx : Allowed h x) : Sound (x.take h) where
  consistent := consistent_take hs.consistent hx
  ramWipeHook := (ramWipeHook_take x h).trans hs.ramWipeHook
  unit := unit_take hx hs.unit

theorem Sound.agrees {h : Host} (hs : Sound h) : Agrees h := by
  obtain ⟨v, hactive, hup⟩ := hs.consistent.recorded
  refine ⟨?_, fun s hv t => ?_, ?_⟩
  · rw [hactive, Option.map_eq_none_iff, Option.eq_none_iff_forall_ne_some]
    exact forall_congr' fun t => not_congr (hup t).symm
  · obtain ⟨t', rfl, rfl⟩ := Option.map_eq_some_iff.mp (hactive.symm.trans hv)
    rw [hup, Option.some_inj, name_injective.eq_iff]
    exact eq_comm
  · rw [hs.ramWipeHook, hs.unit]
    exact iff_of_false Bool.false_ne_true Bool.false_ne_true

/-- A stop that is not the right one leaves the recorded interface up, and clears the record. -/
theorem allowed_of_stopWireguard {h : Host} {env : Environment} {a : Answers} {i j : String}
    (henv : (env.termux || !env.root) = false) (htool : a.haveTool = true) (hh : Agrees h)
    (hj : h.saved.vpnActive = some (Tunnel.wireguard j).name)
    (hafter : Agrees (stopWireguard env a i h)) : i = j ∧ a.wgQuick = true := by
  by_contra hwrong
  have hup : j ∈ h.interfaces := (hh.names _ hj (.wireguard j)).mpr rfl
  have hsaved : ((h.wgDown a.wgQuick i).getD h).saved = h.saved := by
    rw [Host.wgDown]
    split <;> rfl
  have hstill : j ∈ ((h.wgDown a.wgQuick i).getD h).interfaces := by
    rw [Host.wgDown]
    split_ifs with hdown
    · refine List.mem_filter.mpr ⟨hup, decide_eq_true fun hji => hwrong ⟨hji.symm, ?_⟩⟩
      exact (Bool.and_eq_true_iff.mp hdown).1
    · exact hup
  have hmarked : ((h.wgDown a.wgQuick i).getD h).markedAs "wireguard:" = true :=
    (markedAs_wireguard (i := j) (by rw [hsaved, hj])).1
  rw [stopWireguard, henv, if_neg Bool.false_ne_true, htool, Bool.not_true,
    if_neg Bool.false_ne_true, unmark_of_marked hmarked] at hafter
  exact hafter.active_none_iff.mp rfl (.wireguard j) hstill

theorem allowed_of_agrees {x : Step} {h : Host} (hh : Agrees h)
    (hhook : h.saved.ramWipeHook = false) (hafter : Agrees (x.take h)) : Allowed h x := by
  obtain ⟨env, call, a⟩ := x
  cases call with
  | stopWireguard i => exact fun henv htool j hj => allowed_of_stopWireguard henv htool hh hj hafter
  | installShutdownHook m =>
      by_contra hx
      obtain ⟨henv, hsystemctl⟩ := not_or.mp hx
      have hunit : (Step.take ⟨env, .installShutdownHook m, a⟩ h).unit = some systemdUnit :=
        congrArg Prod.snd (hook_installShutdownHook m henv hsystemctl)
      have htrue := hafter.hook_iff.mpr (by rw [hunit]; rfl)
      rw [ramWipeHook_take, hhook] at htrue
      exact Bool.false_ne_true htrue
  | _ => trivial

/-- Every call can be made. -/
theorem run_calls (saved : Saved) (as : List Step) : ∃ h, (calls saved).run as = some h := by
  induction as using List.reverseRecOn with
  | nil => exact ⟨_, rfl⟩
  | append_singleton as x ih =>
      obtain ⟨h, hh⟩ := ih
      exact ⟨x.take h, by rw [Machine.run_snoc, hh]; rfl⟩

/-- The saved fields agree with what there is, all along a run, exactly if the run never installs
the hook and stops a recorded WireGuard VPN only by its name and successfully. -/
theorem agrees_iff (saved : Saved) (as : List Step) :
    (calls saved).Always Agrees as ↔ (calls saved).Each Allowed as := by
  constructor
  · intro h
    obtain ⟨s, hs⟩ := run_calls saved as
    refine Machine.each_of_always_run (fun pre x s₁ s₂ hpre hs₁ hstep hs₂ => ?_) hs h
    obtain rfl := Option.some.inj hstep
    have hhook : s₁.saved.ramWipeHook = false :=
      Machine.invariant (I := fun s => s.saved.ramWipeHook = false) rfl
        (fun s x s' hs hx => by
          obtain rfl := Option.some.inj hx
          exact (ramWipeHook_take x s).trans hs) hpre
    exact allowed_of_agrees hs₁ hhook hs₂
  · intro h
    have hsound : (calls saved).Always Sound as := by
      refine Machine.always_of_each (sound_clean saved) (fun s x s' hs hx hstep => ?_) h
      obtain rfl := Option.some.inj hstep
      exact hs.take hx
    exact hsound.imp fun s hs => hs.agrees

/-! ## A hook that is installed, and a stop that stops nothing -/

/-- A call on a Linux machine with root and everything installed, in which all goes well. -/
def called (call : Call) : Step where
  env := { Environment.full with hasSystemctl := true, hasSdmem := true }
  call := call
  answers := ⟨true, true, .started 1, true, ""⟩

/-- The unit is there while `ram_wipe_hook` is still `False`; and `wg0` is up while `vpn_active`
is `None`, after a stop of `wg1`. -/
theorem not_agrees :
    ¬ (calls defaultState).Always Agrees [called (.installShutdownHook "fast")] ∧
    ¬ (calls defaultState).Always Agrees
      [called (.startWireguard "wg0"), called (.stopWireguard "wg1")] := by
  refine ⟨fun h => ?_, fun h => ?_⟩
  · exact Bool.false_ne_true ((h _ _ List.prefix_rfl rfl).hook_iff.mpr rfl)
  · have hup : "wg0" ∈ ((called (.stopWireguard "wg1")).take
        ((called (.startWireguard "wg0")).take (.clean defaultState))).interfaces := by decide
    exact (h _ _ List.prefix_rfl rfl).active_none_iff.mp rfl (.wireguard "wg0") hup

end PrivacyGuard.Vpn
