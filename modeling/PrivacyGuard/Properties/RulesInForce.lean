import PrivacyGuard.Model.Applying
import PrivacyGuard.Model.TorOutput
import PrivacyGuard.Properties.Exclusion
import PrivacyGuard.Properties.Isolation
import PrivacyGuard.Properties.RedsocksLoop

set_option autoImplicit false

/-! # The rules behind the flags

A mode that is marked active has its rules in the firewall, whatever ran before and whatever
failed. Gateway mode may have a kill switch over it; its rules are then in the backup of the
kill switch, and come back with it. What breaks this is to switch gateway mode off under a kill
switch, which puts back a firewall from before both, and to re-apply a kill switch over gateway
mode, which overwrites the backup. -/

namespace PrivacyGuard

open Netfilter Effect

/-! ## Calls that say why they fail -/

/-- Saving and restoring work, and `iptables` says that a chain exists already only where it does.
Any other command may fail. -/
def reliableAndTruthful : Op → Choice → World → Prop :=
  fun o c w => reliableBackups o c w ∧ truthful o c w

theorem reliableAndTruthful_goWell (o : Op) (w : World) :
    reliableAndTruthful o (goWell o w) w :=
  ⟨reliableBackups_goWell o w, truthful_goWell o w⟩

theorem saves_reliableAndTruthful : Saves reliableAndTruthful :=
  ⟨fun f c w h => saves_reliable.save f c w h.1,
    fun p d c w h => saves_reliable.writeBackup p d c w h.1⟩

theorem restores_reliableAndTruthful : Restores reliableAndTruthful :=
  ⟨⟨fun p c w h => restores_reliable.readBackup p c w h.1⟩,
    fun f d c w h => restores_reliable.restore f d c w h.1⟩

theorem skips_reliableAndTruthful :
    Skips reliableAndTruthful ["Chain already exists"] Refused := by
  rintro cmd w e ⟨c, hc, hx⟩ htol
  exact skips_truthful cmd w e ⟨c, hc.2, hx⟩ htol

/-- What an enable function can do, and the commands it has performed if it answers yes. -/
theorem Follows.enable_performed {m : Mode} {a : Activation m} {env : Environment} {force : Bool}
    {p : Proc Bool} (hp : Follows a env force p) {A : Op → Choice → World → Prop}
    (hS : Saves A) (hR : Restores A) {skip : FwCommand Match → Fw → Prop}
    (hskip : Skips A a.tolerate skip) (w : World) :
    p.wp (machine A) (fun b w' => Enable a env force w b w' ∧
      ((m.active w.saved = true → force = true) → b = true →
        Firewall.Applied skip a.commands w.v4 w'.v4)) w := by
  have henable := Prog.along_of_wp (hp.enable hS hR w)
  refine Prog.wp_of_along (Prog.along_and_wp henable ?_)
  by_cases hforce : m.active w.saved = true → force = true
  · exact Prog.wp_mono (hp.applied_skip hskip hforce) fun _ _ h _ => h
  · exact Prog.wp_mono (Prog.wp_true p w) fun _ _ _ h => absurd h hforce

/-! ## The invariant -/

/-- The rules of every mode that is on are in force: `S m F` says that `F` holds those of the
kill switch `m`, and `G c F` that it holds those of gateway mode as recorded by `c`. Under a kill
switch, the rules of gateway mode are in its backup. -/
structure InForce (S : Mode → Fw → Prop) (G : GatewayConfig → Fw → Prop) (w : World) : Prop where
  single : ∀ m m' : Mode, Opposite m m' → m.active w.saved = true → m'.active w.saved = false
  killSwitch : ∀ m : Mode, m ≠ .gateway → m.active w.saved = true → S m w.v4
  gateway : Mode.gateway.active w.saved = true → ∃ c, w.saved.gatewayConfig = some c ∧
    (Mode.gateway.conflict w.saved = false → G c w.v4) ∧
    ∀ m : Mode, m ≠ .gateway → m.active w.saved = true → ∃ F, m.RecordsV4 w F ∧ G c F

/-- The rules of the modes establish `S` and `G` over any firewall. -/
structure Establish (S : Mode → Fw → Prop) (G : GatewayConfig → Fw → Prop) : Prop where
  tor : ∀ F F', Firewall.Applied Firewall.noSkip torActivation.commands F F' → S .tor F'
  proxyOnly : ∀ a F F', Firewall.Applied Refused (proxyActivation a).commands F F' →
    S .proxyOnly F'
  gateway : ∀ a F F', Firewall.Applied Firewall.noSkip (gatewayActivation a).commands F F' →
    G ⟨a.internalIface, a.internalIp, a.externalIface⟩ F'

section

variable {S : Mode → Fw → Prop} {G : GatewayConfig → Fw → Prop} {w : World} {m m' : Mode}
  {env : Environment} {force b : Bool}

theorem inForce_of_off (hw : ∀ m : Mode, m.active w.saved = false) : InForce S G w where
  single m m' _ _ := hw m'
  killSwitch m _ hon := by
    rw [hw m] at hon
    cases hon
  gateway hon := by
    rw [hw .gateway] at hon
    cases hon

/-- A kill switch that is on conflicts with gateway mode. -/
theorem conflict_of_active {s : Saved} (hm : m ≠ .gateway) (hon : m.active s = true) :
    Mode.gateway.conflict s = true := by
  cases m with
  | tor => exact Bool.or_eq_true_iff.mpr (.inl hon)
  | proxyOnly => exact Bool.or_eq_true_iff.mpr (.inr hon)
  | gateway => exact absurd rfl hm

/-- With both kill switches off, gateway mode has no conflict. -/
theorem conflict_of_off {s : Saved} (h : Opposite m m') (hoff : m.active s = false)
    (hoff' : m'.active s = false) : Mode.gateway.conflict s = false := by
  cases h with
  | tor => exact Bool.or_eq_false_iff.mpr ⟨hoff, hoff'⟩
  | proxyOnly => exact Bool.or_eq_false_iff.mpr ⟨hoff', hoff⟩

/-- A backup of a mode other than `m` leaves the records of `m` alone. -/
theorem Mode.RecordsV4.backUp {F : Fw} (h : m.RecordsV4 w F) (hne : m ≠ m') (ts : String) :
    m.RecordsV4 (w.backUp env m'.label ts) F := by
  refine h.congr ?_ fun f ts' => World.backUp_files_of_mode w env hne f ts ts'
  rw [World.backUp_saved]

/-- Unless a kill switch is re-applied over gateway mode, a backup that is rolled back changes
nothing of note. -/
theorem InForce.backUp (h : InForce S G w)
    (hover : Mode.gateway.active w.saved = true → m ≠ .gateway → m.active w.saved = true →
      ∀ c F, G c F) (ts : String) : InForce S G (w.backUp env m.label ts) := by
  refine ⟨?_, ?_, ?_⟩
  · rw [World.backUp_saved]
    exact h.single
  · rw [World.backUp_saved, World.backUp_v4]
    exact h.killSwitch
  · rw [World.backUp_saved, World.backUp_v4]
    intro hg
    obtain ⟨c, hc, hnow, hback⟩ := h.gateway hg
    refine ⟨c, hc, hnow, fun n hn hon => ?_⟩
    obtain ⟨F, hrec, hF⟩ := hback n hn hon
    by_cases hnm : n = m
    · subst hnm
      obtain ⟨ts', hp, hfile⟩ := hrec
      by_cases hts : ts' = ts
      · subst hts
        refine ⟨w.v4, ⟨ts', ?_, World.backUp_files_v4 w env n.label ts'⟩, hover hg hn hon c _⟩
        rw [World.backUp_saved, hp]
      · refine ⟨F, ⟨ts', ?_, ?_⟩, hF⟩
        · rw [World.backUp_saved, hp]
        · have h4 : (⟨.v4, n.label, ts'⟩ : BackupPath) ≠ ⟨.v4, n.label, ts⟩ :=
            fun he => hts (congrArg BackupPath.ts he)
          have h6 : (⟨.v4, n.label, ts'⟩ : BackupPath) ≠ ⟨.v6, n.label, ts⟩ :=
            fun he => Family.noConfusion (congrArg BackupPath.family he)
          rw [w.backUp_files_of_ne env _ _ h4 h6, hfile]
    · exact ⟨F, hrec.backUp hnm ts, hF⟩

theorem BlockRecorded.gatewayConfig {s₁ s : Saved} (h : BlockRecorded s₁ s) :
    s.gatewayConfig = s₁.gatewayConfig := by
  rcases h with rfl | ⟨now, rfl⟩ <;> rfl

/-- Switching on a kill switch. -/
theorem InForce.enable_killSwitch (h : InForce S G w) (hm : Opposite m m') {a : Activation m}
    {w' : World} (hconfig : ∀ (b : Backups) (s : Saved) now,
      (s.update (a.fields b) now).gatewayConfig = s.gatewayConfig)
    (hover : Mode.gateway.active w.saved = true → m.active w.saved = true → force = true →
      ∀ c F, G c F)
    (he : Enable a env force w b w')
    (hrules : (m.active w.saved = true → force = true) → b = true → S m w'.v4) :
    InForce S G w' := by
  cases he with
  | declined => exact h
  | already _ _ => exact h
  | rolledBack _ hforce _ ts => exact h.backUp (fun hg _ hon => hover hg hon (hforce hon)) ts
  | applied he hforce hfree ts now F F6 s hF hF6 hs =>
      have hS : S m F := hrules hforce rfl
      rw [hm.conflict] at hfree
      have hother : ∀ n : Mode, n ≠ m → n.active s = n.active w.saved := by
        intro n hn
        rw [hs.active, a.other _ _ _ _ hn]
      have hon' : m.active s = true := by
        rw [hs.active, a.active]
      have hoff' : m'.active s = false := (hother m' hm.ne.symm).trans hfree
      -- the kill switch that is on is the one just switched on
      have honly : ∀ n : Mode, n ≠ .gateway → n.active s = true → n = m := by
        intro n hn hon
        by_contra hnm
        rw [hm.eq_of_ne hn hnm, hoff'] at hon
        cases hon
      refine ⟨fun n n' hnn hon => ?_, fun n hn hon => ?_, fun hg => ?_⟩
      · obtain rfl := honly n hnn.ne_gateway hon
        rw [show n' = m' from hm.eq_of_ne (fun hg => not_opposite_gateway n (hg ▸ hnn))
          hnn.ne.symm]
        exact hoff'
      · obtain rfl := honly n hn hon
        exact hS
      · have hg₀ : Mode.gateway.active w.saved = true :=
          (hother .gateway hm.ne_gateway.symm).symm.trans hg
        obtain ⟨c, hc, hnow, hback⟩ := h.gateway hg₀
        refine ⟨c, ?_, fun hno => ?_, fun n hn hon => ?_⟩
        · show s.gatewayConfig = some c
          rw [hs.gatewayConfig, hconfig, hc]
        · have hno' : Mode.gateway.conflict s = false := hno
          rw [conflict_of_active hm.ne_gateway hon'] at hno'
          cases hno'
        -- what has been backed up is the firewall of gateway mode
        · obtain rfl := honly n hn hon
          refine ⟨w.v4, ⟨ts, ?_, World.backUp_files_v4 w env n.label ts⟩, ?_⟩
          · show n.backupV4 s = _
            rw [hs.backupV4, a.backupV4]
            rfl
          · cases hact : n.active w.saved with
            | false => exact hnow (conflict_of_off hm hact hfree)
            | true => exact hover hg₀ hact (hforce hact) c _

/-- Switching on gateway mode. -/
theorem InForce.enable_gateway (h : InForce S G w) {a : GatewayArgs} {w' : World}
    (he : Enable (gatewayActivation a) env force w b w')
    (hrules : (Mode.gateway.active w.saved = true → force = true) → b = true →
      G ⟨a.internalIface, a.internalIp, a.externalIface⟩ w'.v4) :
    InForce S G w' := by
  cases he with
  | declined => exact h
  | already _ _ => exact h
  | rolledBack _ _ _ ts => exact h.backUp (fun _ hne => absurd rfl hne) ts
  | applied he hforce hfree ts now F F6 s hF hF6 hs =>
      have hG := hrules hforce rfl
      -- no kill switch is on, or the call would have been refused
      have hoff : ∀ n : Mode, n ≠ .gateway → n.active s = false := by
        intro n hn
        rw [hs.active, (gatewayActivation a).other _ _ _ _ hn]
        exact others_off_of_gateway hfree n hn
      have hnone : ∀ n : Mode, n ≠ .gateway → n.active s = true → False := by
        intro n hn hon
        rw [hoff n hn] at hon
        cases hon
      refine ⟨fun n n' hnn hon => (hnone n hnn.ne_gateway hon).elim,
        fun n hn hon => (hnone n hn hon).elim, fun _ => ⟨_, ?_, fun _ => hG, fun n hn hon =>
          (hnone n hn hon).elim⟩⟩
      show s.gatewayConfig = some _
      rw [hs.gatewayConfig]
      rfl

/-- Switching off a kill switch puts gateway mode back in force. -/
theorem InForce.disable_killSwitch (h : InForce S G w) (hm : Opposite m m')
    {A : Op → Choice → World → Prop} (hR : Restores A) {stop : Proc Unit}
    (hstop : stop.all Quiet) :
    (disableMode m env stop).wp (machine A) (fun _ => InForce S G) w := by
  by_cases hon : m.active w.saved = true ∧ env.Privileged
  · have hoff' := h.single m m' hm hon.1
    have hclear : ∀ (s : Saved) now, s = w.saved.update m.cleared now →
        ∀ n : Mode, n ≠ .gateway → n.active s = false := by
      rintro s now rfl n hn
      by_cases hnm : n = m
      · rw [hnm, Mode.active_cleared]
      · rw [Mode.active_cleared_of_ne m _ _ hnm, hm.eq_of_ne hn hnm, hoff']
    by_cases hg : Mode.gateway.active w.saved = true
    · obtain ⟨c, hc, -, hback⟩ := h.gateway hg
      obtain ⟨F, ⟨ts, hp, hF⟩, hG⟩ := hback m hm.ne_gateway hon.1
      refine disableMode_wp_v4 hR hon.2 hon.1 hp hF hstop fun F6 now => ?_
      have hoff := hclear _ now rfl
      have hnone : ∀ n : Mode, n ≠ .gateway →
          n.active (w.saved.update m.cleared now) = true → False := by
        intro n hn hact
        rw [hoff n hn] at hact
        cases hact
      refine ⟨fun n n' hnn hact => (hnone n hnn.ne_gateway hact).elim,
        fun n hn hact => (hnone n hn hact).elim, fun _ => ⟨c, ?_, fun _ => hG, fun n hn hact =>
          (hnone n hn hact).elim⟩⟩
      rw [← hc]
      cases hm <;> rfl
    · -- no mode is on afterwards
      refine Prog.wp_of_along (disableMode_along (I := fun _ => True) hstop
        (fun _ _ => trivial) h fun w' now hw' => ⟨trivial, inForce_of_off fun n => ?_⟩)
      by_cases hn : n = .gateway
      · rw [hw', hn, Mode.active_cleared_of_ne m _ _ hm.ne_gateway.symm]
        exact Bool.eq_false_iff.mpr hg
      · exact hclear _ now hw' n hn
  · refine disableMode_wp_inactive ?_ h
    rw [not_and_or, Bool.not_eq_true] at hon
    exact hon

/-- Switching off gateway mode, with no kill switch over it. -/
theorem InForce.disable_gateway (h : InForce S G w) {A : Op → Choice → World → Prop}
    {stop : Proc Unit} (hstop : stop.all Quiet)
    (hover : Mode.gateway.active w.saved = true → Mode.gateway.conflict w.saved = false) :
    (disableMode .gateway env stop).wp (machine A) (fun _ => InForce S G) w := by
  by_cases hg : Mode.gateway.active w.saved = true
  · refine Prog.wp_of_along (disableMode_along (I := fun _ => True) hstop
      (fun _ _ => trivial) h fun w' now hw' => ⟨trivial, inForce_of_off fun n => ?_⟩)
    by_cases hn : n = .gateway
    · rw [hw', hn, Mode.active_cleared]
    · rw [hw', Mode.active_cleared_of_ne .gateway _ _ hn]
      exact others_off_of_gateway (hover hg) n hn
  · exact disableMode_wp_inactive (.inl (Bool.eq_false_iff.mpr hg)) h

/-- A call that switches a mode on or off. -/
theorem Action.inForce_mode (hE : Establish S G) {x : Action} (hx : x.OnMode)
    (hdis : Mode.gateway.active w.saved = true → Mode.gateway.conflict w.saved = true →
      x.disables? ≠ some .gateway)
    (hre : Mode.gateway.active w.saved = true → Mode.gateway.conflict w.saved = true →
      x.enables?.isSome = true → x.force = true → ∀ c F, G c F) (h : InForce S G w) :
    x.body.wp (machine reliableAndTruthful) (fun _ => InForce S G) w := by
  have hover : ∀ m : Mode, m ≠ .gateway → x.enables?.isSome = true →
      Mode.gateway.active w.saved = true → m.active w.saved = true → x.force = true →
      ∀ c F, G c F :=
    fun m hm hen hg hon hf => hre hg (conflict_of_active hm hon) hen hf
  have hdisable : ∀ m, x.disables? = some m →
      x.body.wp (machine reliableAndTruthful) (fun _ => InForce S G) w := by
    intro m hm
    obtain ⟨stop, hstop, hbody⟩ := Action.of_disables hm
    rw [hbody, Prog.wp_map]
    cases m with
    | tor => exact h.disable_killSwitch .tor restores_reliableAndTruthful hstop
    | proxyOnly => exact h.disable_killSwitch .proxyOnly restores_reliableAndTruthful hstop
    | gateway =>
        refine h.disable_gateway hstop fun hg => ?_
        by_contra hno
        exact hdis hg (Bool.eq_true_of_not_eq_false hno) hm
  cases x with
  | enableKillSwitch env force t =>
      refine Prog.wp_mono ((enableKillSwitch_follows env force t).enable_performed
        saves_reliableAndTruthful restores_reliableAndTruthful (torActivation.skips _) w) ?_
      rintro b w' ⟨he, happ⟩
      refine h.enable_killSwitch .tor (fun _ _ _ => rfl) (hover .tor (by decide) rfl) he
        fun hforce hb => ?_
      exact hE.tor _ _ (torActivation.applied_noSkip rfl (happ hforce hb))
  | enableProxyKillSwitch env a force =>
      refine Prog.wp_mono ((enableProxyKillSwitch_follows env a force).enable_performed
        saves_reliableAndTruthful restores_reliableAndTruthful skips_reliableAndTruthful w) ?_
      rintro b w' ⟨he, happ⟩
      refine h.enable_killSwitch .proxyOnly (fun _ _ _ => rfl) (hover .proxyOnly (by decide) rfl)
        he fun hforce hb => ?_
      exact hE.proxyOnly a _ _ (happ hforce hb)
  | enableGateway env a force =>
      refine Prog.wp_mono ((enableGateway_follows env a force).enable_performed
        saves_reliableAndTruthful restores_reliableAndTruthful ((gatewayActivation a).skips _)
        w) ?_
      rintro b w' ⟨he, happ⟩
      refine h.enable_gateway he fun hforce hb => ?_
      exact hE.gateway a _ _ ((gatewayActivation a).applied_noSkip rfl (happ hforce hb))
  | disableKillSwitch env => exact hdisable .tor rfl
  | disableProxyKillSwitch env => exact hdisable .proxyOnly rfl
  | disableGateway env => exact hdisable .gateway rfl
  | enablePortscanProtection env p force => rcases hx with hx | hx <;> cases hx
  | disablePortscanProtection env => rcases hx with hx | hx <;> cases hx

/-! ## Portscan protection -/

/-- The command edits the INPUT chain or a user chain of the filter table, and nothing else. -/
def editsInput : FwCommand Match → Bool
  | .nat _ => false
  | .filter (.newChain _) | .filter (.deleteChain _) => true
  | .filter c =>
      match c.chain? with
      | some (.hook k) => decide (k = .input)
      | some (.user _) => true
      | none => false

theorem editsInput_exec {F F' : Fw} {c : FwCommand Match} (hc : editsInput c = true)
    (h : F.exec c = .ok F') :
    F'.natTable = F.natTable ∧ F'.filterTable.policy = F.filterTable.policy ∧
      ∀ k, k ≠ .input → F'.filterTable.hook k = F.filterTable.hook k := by
  cases c with
  | nat c => cases hc
  | filter c =>
      have hnat : F'.natTable = F.natTable := by
        rw [Firewall.natTable, (Firewall.exec_filter h).2, Firewall.natTable]
      obtain ⟨hp, hh, -⟩ := Table.of_exec (Firewall.exec_filter h).1
      rw [hp, hh]
      cases c with
      | flushAll | policy k p => cases hc
      | newChain n | deleteChain n => exact ⟨hnat, rfl, fun _ _ => rfl⟩
      | append d r | insert d n r | replace d n r | delete d r | deleteNum d n | flush d =>
          cases d with
          | user n => exact ⟨hnat, rfl, fun _ _ => rfl⟩
          | hook k' =>
              obtain rfl : k' = .input := of_decide_eq_true hc
              exact ⟨hnat, rfl, fun k hk => Function.update_of_ne hk _ _⟩

/-- The operations of portscan protection. -/
def InputOp : Op → Prop
  | .load => True
  | .iptables .v4 c => editsInput c = true
  | .update fs => ∀ s now, (s.update fs now : Saved).gatewayConfig = s.gatewayConfig ∧
      ∀ m : Mode, m.active (s.update fs now : Saved) = m.active s ∧
        m.backupV4 (s.update fs now) = m.backupV4 s
  | _ => False

/-- What the rules establish does not depend on the INPUT chain. -/
structure ApartFromInput (S : Mode → Fw → Prop) (G : GatewayConfig → Fw → Prop) : Prop where
  killSwitch : ∀ m F F' c, editsInput c = true → F.exec c = .ok F' → S m F → S m F'
  gateway : ∀ g F F' c, editsInput c = true → F.exec c = .ok F' → G g F → G g F'

theorem InForce.exec (hA : ApartFromInput S G) {o : Op} (ho : InputOp o) (c : Choice)
    (h : InForce S G w) : InForce S G (exec o c w).2 := by
  cases o with
  | load => exact h
  | update fs =>
      obtain ⟨hconfig, hmodes⟩ := ho w.saved c.text
      have hactive : ∀ m : Mode, m.active (w.saved.update fs c.text) = m.active w.saved :=
        fun m => (hmodes m).1
      have hconflict : Mode.gateway.conflict (w.saved.update fs c.text) =
          Mode.gateway.conflict w.saved := Mode.conflict_congr fun m _ => hactive m
      refine ⟨fun m m' hm hon => ?_, fun m hm hon => ?_, fun hg => ?_⟩
      · exact (hactive m').trans (h.single m m' hm ((hactive m).symm.trans hon))
      · exact h.killSwitch m hm ((hactive m).symm.trans hon)
      · obtain ⟨g, hg', hnow, hback⟩ := h.gateway ((hactive .gateway).symm.trans hg)
        refine ⟨g, hconfig.trans hg', fun hno => hnow (hconflict.symm.trans hno),
          fun m hm hon => ?_⟩
        obtain ⟨F, hrec, hF⟩ := hback m hm ((hactive m).symm.trans hon)
        exact ⟨F, hrec.congr (hmodes m).2 fun _ _ => rfl, hF⟩
  | iptables f cmd =>
      cases f with
      | v6 => cases ho
      | v4 =>
          rw [PrivacyGuard.exec]
          split
          · split
            · rename_i F hF
              refine ⟨h.single, fun m hm hon => ?_, fun hg => ?_⟩
              · exact hA.killSwitch m _ _ cmd ho hF (h.killSwitch m hm hon)
              · obtain ⟨g, hg', hnow, hback⟩ := h.gateway hg
                exact ⟨g, hg', fun hno => hA.gateway g _ _ cmd ho hF (hnow hno), hback⟩
            · exact h
          · exact h
  | _ => cases ho

theorem inputOp_update {fs : List Field} (v : Bool) (o : Option PortscanParams)
    (hfs : fs = [.portscanProtection v, .portscanParams o]) : InputOp (.update fs) := by
  subst hfs
  refine fun s now => ⟨rfl, fun m => ?_⟩
  cases m <;> exact ⟨rfl, rfl⟩

theorem enablePortscanProtection_inputOp (p : PortscanParams) :
    (enablePortscanProtection env p force).all InputOp := by
  have hedits : ∀ c ∈ portscanCommands p, editsInput c = true := by
    simp [portscanCommands, portscanRules, ipt, editsInput, Command.chain?]
  exact enablePortscanProtection_all trivial (inputOp_update true (some p) rfl) hedits

theorem disablePortscanProtection_inputOp : (disablePortscanProtection env).all InputOp := by
  have hedits : ∀ p : PortscanParams, ∀ c ∈ portscanRemoval p, editsInput c = true := by
    simp [portscanRemoval, editsInput, Command.chain?]
  refine Prog.all_ite (Prog.all_pure _) ?_
  refine Prog.all_bind ((Prog.all_op _).mpr trivial) fun st => ?_
  refine Prog.all_ite (Prog.all_pure _) ?_
  refine Prog.all_bind ((Prog.all_op _).mpr trivial) fun st' => ?_
  refine Prog.all_bind (runAll_all _ (hedits _)) fun _ => ?_
  exact (Prog.all_op _).mpr (inputOp_update false none rfl)

theorem Action.inForce_portscan (hA : ApartFromInput S G) {x : Action} (hx : ¬ x.OnMode)
    (h : InForce S G w) :
    x.body.wp (machine reliableAndTruthful) (fun _ => InForce S G) w := by
  have hwp : ∀ {α : Type} {p : Proc α}, p.all InputOp →
      p.wp (machine reliableAndTruthful) (fun _ => InForce S G) w :=
    fun hp => Prog.wp_of_all hp (fun _ c _ ho _ hw => hw.exec hA ho c) h
  cases x with
  | enablePortscanProtection env p force => exact hwp (enablePortscanProtection_inputOp p)
  | disablePortscanProtection env =>
      rw [Action.body, Prog.wp_map]
      exact hwp disablePortscanProtection_inputOp
  | _ => exact absurd (by first | exact .inl rfl | exact .inr rfl) hx

end

/-! ## The kill switches -/

/-- The rules of the proxy-only kill switch stand behind those of the nat table from before. -/
structure RedsocksRules (F : Fw) : Prop where
  jump : [redsocksJump] <:+ F.natTable.hook .output
  chain : redsocksTail <:+ F.natTable.chainRules redsocksChain

/-- The rules of the two kill switches. -/
def SwitchRules : Mode → Fw → Prop
  | .tor, F => TorOutput F
  | .proxyOnly, F => RedsocksRules F
  | .gateway, _ => True

theorem switchRules_tor {F F' : Fw}
    (h : Firewall.Applied Firewall.noSkip torActivation.commands F F') : SwitchRules .tor F' :=
  Action.torOutput_of_applied (x := .enableKillSwitch .full false 0) (.inl rfl) h

theorem switchRules_proxyOnly {a : ProxyArgs} {F F' : Fw}
    (h : Firewall.Applied Refused (proxyActivation a).commands F F') :
    SwitchRules .proxyOnly F' := by
  have hF' : F.perform (proxyRules.map (·.command)) = F' := h.perform_of_refused fun _ _ h => h
  obtain ⟨hjump, hchain, -⟩ := natTable_proxyRules F
  rw [hF'] at hjump hchain
  exact ⟨⟨_, hjump.symm⟩, ⟨_, hchain.symm⟩⟩

/-- Neither the OUTPUT chain nor the nat table is touched by portscan protection. -/
theorem switchRules_apart {m : Mode} {F F' : Fw} {c : FwCommand Match}
    (hc : editsInput c = true) (h : F.exec c = .ok F') (hF : SwitchRules m F) :
    SwitchRules m F' := by
  obtain ⟨hnat, -, hhook⟩ := editsInput_exec hc h
  cases m with
  | tor => exact ⟨(hhook .output (by decide)).trans hF.filter, by rw [hnat]; exact hF.nat⟩
  | proxyOnly => exact ⟨by rw [hnat]; exact hF.jump, by rw [hnat]; exact hF.chain⟩
  | gateway => trivial

/-- Gateway mode is not switched off while a kill switch is on over it. -/
def Action.KeepsGateway (x : Action) (w : World) : Prop :=
  Mode.gateway.active w.saved = true → Mode.gateway.conflict w.saved = true →
    x.disables? ≠ some .gateway

/-- What is kept by all calls that do not switch gateway mode off under a kill switch. -/
abbrev SwitchesInForce (w : World) : Prop := InForce SwitchRules (fun _ _ => True) w

theorem inForce_of_default {w : World} (hw : w.saved = defaultState) : SwitchesInForce w := by
  refine inForce_of_off fun m => ?_
  rw [hw]
  cases m <;> rfl

theorem apart_switchRules : ApartFromInput SwitchRules fun _ _ => True where
  killSwitch _ _ _ _ := switchRules_apart
  gateway _ _ _ _ _ _ _ := trivial

theorem Action.inForce_switches {w : World} {x : Action} (hx : x.KeepsGateway w)
    (h : SwitchesInForce w) :
    x.body.wp (machine reliableAndTruthful) (fun _ => SwitchesInForce) w := by
  have hE : Establish SwitchRules fun _ _ => True :=
    ⟨fun _ _ => switchRules_tor, fun _ _ _ => switchRules_proxyOnly, fun _ _ _ _ => trivial⟩
  by_cases hmode : x.OnMode
  · exact x.inForce_mode hE hmode hx (fun _ _ _ _ _ _ => trivial) h
  · exact x.inForce_portscan apart_switchRules hmode h

/-- The marked kill switch decides what leaves the machine. -/
theorem switches_of_inForce {w : World} (h : SwitchesInForce w) :
    (w.saved.torKillSwitch = true →
      (∀ X T p, translation w.v4 X T p = torTranslation T p) ∧
      ∀ X q, w.v4.filterVerdict (meaning X) .output q = .accept ↔
        q.oif = "lo" ∨ q.owner = some torUidPlaceholder ∨
          (q.ct = .established ∨ q.ct = .related) ∨ (q.proto = .tcp ∧ q.dport = 9040)) ∧
    (w.saved.proxyOnlyKillSwitch = true → RedsocksRules w.v4) ∧
    ¬ (w.saved.torKillSwitch = true ∧ w.saved.proxyOnlyKillSwitch = true) := by
  refine ⟨fun ht => ?_, fun hp => h.killSwitch .proxyOnly (by decide) hp, fun hboth => ?_⟩
  · have hrules : TorOutput w.v4 := h.killSwitch .tor (by decide) ht
    exact ⟨fun X T p => hrules.translation X T p, fun X q => hrules.filterVerdict X q⟩
  · have hoff := h.single .tor .proxyOnly .tor hboth.1
    have hon : Mode.proxyOnly.active w.saved = true := hboth.2
    rw [hoff] at hon
    cases hon

/-- **The flags of the kill switches tell the truth.** Whatever ran before and whichever commands
failed, the rules of a kill switch that is marked active decide what leaves the machine. -/
theorem killSwitch_inForce {w w' : World} {cs : List (Action × Bool)}
    (hw : w.saved = defaultState)
    (h : Calls (machine reliableAndTruthful) Action.body (fun x s => x.KeepsGateway s) w cs w') :
    (w'.saved.torKillSwitch = true →
      (∀ X T p, translation w'.v4 X T p = torTranslation T p) ∧
      ∀ X q, w'.v4.filterVerdict (meaning X) .output q = .accept ↔
        q.oif = "lo" ∨ q.owner = some torUidPlaceholder ∨
          (q.ct = .established ∨ q.ct = .related) ∨ (q.proto = .tcp ∧ q.dport = 9040)) ∧
    (w'.saved.proxyOnlyKillSwitch = true → RedsocksRules w'.v4) ∧
    ¬ (w'.saved.torKillSwitch = true ∧ w'.saved.proxyOnlyKillSwitch = true) := by
  refine switches_of_inForce (h.invariant (fun x s hx hs => ?_) ?_)
  · exact x.inForce_switches hx hs
  · exact inForce_of_default hw

/-- Gateway mode, and the Tor kill switch over it. -/
def torOverGateway : List Action :=
  [.enableGateway .full ⟨"eth1", "10.0.0.1", none⟩ false, .enableKillSwitch .full false 45]

/-- The machine after some calls that all go well. -/
def afterCalls (xs : List Action) : World :=
  (runCalls (machine reliableAndTruthful) goWell Action.body xs
    (.start Firewall.blank Firewall.blank)).2

theorem killSwitch_inForce_torOverGateway :
    translation (afterCalls torOverGateway).v4 .silent noneOpen (toWeb true) =
      some (redirectTo 9040) := by
  have hallowed : Allowed (machine reliableAndTruthful) goWell Action.body
      (fun x s => Action.KeepsGateway x s) torOverGateway
      (.start Firewall.blank Firewall.blank) :=
    ⟨fun h => absurd h Bool.false_ne_true, fun _ _ => nofun, trivial⟩
  have hcalls := calls_runCalls reliableAndTruthful_goWell hallowed
  exact ((killSwitch_inForce rfl hcalls).1 (by decide +kernel)).1 .silent noneOpen (toWeb true)

/-- Switched off under the kill switch, gateway mode takes the rules of both away. -/
example : (afterCalls (torOverGateway ++ [.disableGateway .full])).saved.torKillSwitch = true ∧
    (afterCalls (torOverGateway ++ [.disableGateway .full])).v4.filterTable.hook .output = [] := by
  decide +kernel

end PrivacyGuard
