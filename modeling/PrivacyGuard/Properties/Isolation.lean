import PrivacyGuard.Model.Actions

set_option autoImplicit false

/-! # Gateway isolation

While gateway mode is marked active, nothing is forwarded. The kill switches do not look at
`gateway_mode_active`: they flush the gateway's rules, keep the policy `DROP` of the FORWARD
chain, and put the rules back when switched off. The invariant therefore speaks about the
firewall in place and about the backups a kill switch has recorded. -/

namespace PrivacyGuard

open Netfilter Effect

/-- The FORWARD chain drops everything, by its policy and without an exception. -/
structure ForwardClosed (F : Fw) : Prop where
  policy : F.filterTable.policy .forward = .drop
  rules : F.filterTable.hook .forward = [] ∨ F.filterTable.hook .forward = [Table.dropAll]

theorem ForwardClosed.verdict {F : Fw} (h : ForwardClosed F) (X : Unmodelled) (p : Packet) :
    F.filterVerdict (meaning X) .forward p = .drop := by
  rcases h.rules with hr | hr
  · rw [Firewall.filterVerdict, Table.verdict_of_hook_nil hr, h.policy]
    rfl
  · exact Table.verdict_of_hook_dropAll hr _ _

/-- The command leaves the FORWARD chain alone, or empties it. -/
def sparesForward : FwCommand Match → Bool
  | .nat _ => true
  | .filter (.policy h _) => decide (h ≠ .forward)
  | .filter c => decide (c.chain? ≠ some (.hook .forward))

theorem ForwardClosed.exec {F G : Fw} {c : FwCommand Match} (hF : ForwardClosed F)
    (hc : sparesForward c = true) (h : F.exec c = .ok G) : ForwardClosed G := by
  cases c with
  | nat c =>
      have hG : G.filterTable = F.filterTable := by
        rw [Firewall.filterTable, (Firewall.exec_nat h).2, Firewall.filterTable]
      exact ⟨by rw [hG]; exact hF.policy, by rw [hG]; exact hF.rules⟩
  | filter c =>
      obtain ⟨hp, hh, -⟩ := Table.of_exec (Firewall.exec_filter h).1
      have hpol : ∀ p, c ≠ .policy .forward p := by
        rintro p rfl
        cases hc
      have hchain : c.chain? ≠ some (.hook .forward) := by
        cases c with
        | policy k p =>
            intro h
            cases h
        | _ => exact of_decide_eq_true hc
      refine ⟨?_, ?_⟩
      · rw [hp, Command.onPolicy_of_ne hpol, hF.policy]
      · rcases Command.onHook_of_ne hchain F.filterTable.hook with he | he
        · rw [hh, he]
          exact hF.rules
        · rw [hh, he]
          exact Or.inl rfl

/-- A list of such commands, some of them passed over. -/
theorem ForwardClosed.applied {skip : FwCommand Match → Fw → Prop}
    {cs : List (FwCommand Match)} {F G : Fw} (hF : ForwardClosed F)
    (hcs : cs.all sparesForward = true) (h : Firewall.Applied skip cs F G) :
    ForwardClosed G :=
  h.invariant (fun c hc _ _ he hF => hF.exec (List.all_eq_true.mp hcs c hc) he) hF

/-- The gateway's rules close the FORWARD chain of any firewall. -/
theorem forwardClosed_gateway {a : GatewayArgs} {F G : Fw}
    (h : Firewall.Applied (gatewayActivation a).skip (gatewayActivation a).commands F G) :
    ForwardClosed G := by
  obtain ⟨hp, hh, -⟩ := ((gatewayActivation a).applied_noSkip rfl h).filterTable
  exact ⟨by rw [hp]; rfl, Or.inr (by rw [hh]; rfl)⟩

/-! ## The invariant -/

/-- The recorded IPv4 backup of `m` holds a firewall that forwards nothing. -/
def ClosedBackup (m : Mode) (w : World) : Prop :=
  ∃ p F, m.backupV4 w.saved = some p ∧ p.family = .v4 ∧ w.files p = some F ∧ ForwardClosed F

/-- While gateway mode is marked active, nothing is forwarded, neither now nor once a kill
switch that is on has put back the firewall it found. -/
def Isolated (w : World) : Prop :=
  Mode.gateway.active w.saved = true →
    ForwardClosed w.v4 ∧ ∀ m : Mode, m ≠ .gateway → m.active w.saved = true → ClosedBackup m w

section

variable {w w' : World} {m : Mode} {env : Environment} {force b : Bool}

/-- A new backup of a closed firewall may overwrite a recorded one of the same second. -/
theorem ClosedBackup.backUp (h : ClosedBackup m w) (hw : ForwardClosed w.v4) (label ts : String) :
    ClosedBackup m (w.backUp env label ts) := by
  obtain ⟨p, F, hp, hfam, hF, hclosed⟩ := h
  by_cases hpath : p = ⟨.v4, label, ts⟩
  · refine ⟨p, w.v4, ?_, hfam, ?_, hw⟩
    · rw [World.backUp_saved, hp]
    · rw [hpath, World.backUp_files_v4]
  · refine ⟨p, F, ?_, hfam, ?_, hclosed⟩
    · rw [World.backUp_saved, hp]
    · rw [World.backUp_files_of_ne _ _ _ _ hpath (fun h => by rw [h] at hfam; cases hfam), hF]

theorem Isolated.backUp (h : Isolated w) (label ts : String) :
    Isolated (w.backUp env label ts) := by
  intro hg
  rw [World.backUp_saved] at hg
  obtain ⟨hclosed, hrec⟩ := h hg
  refine ⟨by rwa [World.backUp_v4], fun n hn hact => ?_⟩
  rw [World.backUp_saved] at hact
  exact (hrec n hn hact).backUp hclosed _ _

/-- Switching on a kill switch whose rules spare the FORWARD chain. -/
theorem Isolated.enable_killSwitch {m' : Mode} (hm : Opposite m m') (h : Isolated w)
    {a : Activation m} (hcs : a.commands.all sparesForward = true)
    (he : Enable a env force w b w') : Isolated w' := by
  cases he with
  | declined => exact h
  | already _ _ => exact h
  | rolledBack _ _ _ ts => exact h.backUp _ ts
  -- gateway mode was on before: the kill switch has backed up a closed firewall
  | applied _ _ hfree ts now F F6 s hF hF6 hs =>
      intro hg
      have hg' : Mode.gateway.active w.saved = true := by
        rw [← hg]
        show _ = Mode.gateway.active s
        rw [hs.active, a.other _ _ _ _ hm.ne_gateway.symm]
      obtain ⟨hclosed, -⟩ := h hg'
      refine ⟨hclosed.applied hcs hF, fun n hn hact => ?_⟩
      by_cases hnm : n = m
      · subst hnm
        refine ⟨⟨.v4, n.label, ts⟩, w.v4, ?_, rfl, World.backUp_files_v4 w env _ ts, hclosed⟩
        show n.backupV4 s = _
        rw [hs.backupV4, a.backupV4]
        rfl
      -- the other kill switch is off, or the call would have been refused
      · have hoff : n.active s = false := by
          rw [hs.active, a.other _ _ _ _ hnm, hm.eq_of_ne hn hnm, ← hm.conflict, hfree]
        have hon : n.active s = true := hact
        rw [hoff] at hon
        cases hon

/-- Switching on gateway mode. -/
theorem Isolated.enable_gateway (h : Isolated w) {a : GatewayArgs}
    (he : Enable (gatewayActivation a) env force w b w') : Isolated w' := by
  cases he with
  | declined => exact h
  | already _ _ => exact h
  | rolledBack _ _ _ ts => exact h.backUp _ ts
  | applied _ _ hfree ts now F F6 s hF hF6 hs =>
      -- no kill switch is on, or the call would have been refused
      intro _
      refine ⟨forwardClosed_gateway hF, fun n hn hact => ?_⟩
      have hoff : n.active s = false := by
        rw [hs.active, (gatewayActivation a).other _ _ _ _ hn]
        exact others_off_of_gateway hfree n hn
      have hon : n.active s = true := hact
      rw [hoff] at hon
      cases hon

/-- Switching a mode off. -/
theorem Isolated.disable (h : Isolated w) {stop : Proc Unit} (hstop : stop.all Quiet) :
    (disableMode m env stop).wp (machine reliableBackups) (fun _ => Isolated) w := by
  by_cases hg : m ≠ .gateway ∧ Mode.gateway.active w.saved = true
  · by_cases hon : m.active w.saved = true ∧ env.Privileged
    · -- the firewall put back is closed, and so is the other kill switch's backup
      obtain ⟨hne, hgact⟩ := hg
      obtain ⟨-, hrec⟩ := h hgact
      obtain ⟨p, F, hp, -, hF, hclosed⟩ := hrec m hne hon.1
      refine disableMode_wp_v4 restores_reliable hon.2 hon.1 hp hF hstop fun F6 now _ => ?_
      refine ⟨hclosed, fun n hn hact => ?_⟩
      -- `m` itself is off now; the fields of the others are untouched
      have hnm : n ≠ m := by
        rintro rfl
        have hact' : n.active (w.saved.update n.cleared now) = true := hact
        rw [n.active_cleared] at hact'
        cases hact'
      have hact' : n.active (w.saved.update m.cleared now) = true := hact
      rw [Mode.active_cleared_of_ne m _ _ hnm] at hact'
      obtain ⟨q, G, hq, hfam, hG, hGclosed⟩ := hrec n hn hact'
      refine ⟨q, G, ?_, hfam, hG, hGclosed⟩
      show n.backupV4 (w.saved.update m.cleared now) = some q
      rw [Mode.backupV4_cleared_of_ne m _ _ hnm, hq]
    · refine disableMode_wp_inactive ?_ h
      rw [not_and_or, Bool.not_eq_true] at hon
      exact hon
  · -- gateway mode is off afterwards
    refine Prog.wp_of_along (disableMode_along (I := fun _ => True) hstop
      (fun _ _ => trivial) h fun w' now hw' => ⟨trivial, fun hact => ?_⟩)
    rw [hw'] at hact
    by_cases hm : m = .gateway
    · rw [hm, Mode.active_cleared] at hact
      cases hact
    · rw [Mode.active_cleared_of_ne m _ _ (Ne.symm hm)] at hact
      exact absurd ⟨hm, hact⟩ hg

/-! ## Portscan protection -/

/-- The operations of portscan protection: commands that spare the FORWARD chain, and
updates of its own fields. -/
def PortscanOp : Op → Prop
  | .load => True
  | .iptables .v4 c => sparesForward c = true
  | .update fs => ∀ s now, ∀ m : Mode, m.active (s.update fs now : Saved) = m.active s ∧
      m.backupV4 (s.update fs now) = m.backupV4 s
  | _ => False

theorem portscanOp_update {fs : List Field} (v : Bool) (o : Option PortscanParams)
    (hfs : fs = [.portscanProtection v, .portscanParams o]) : PortscanOp (.update fs) := by
  subst hfs
  intro s now m
  cases m <;> exact ⟨rfl, rfl⟩

theorem Isolated.exec {o : Op} (ho : PortscanOp o) (c : Choice) (h : Isolated w) :
    Isolated (exec o c w).2 := by
  cases o with
  | load => exact h
  | update fs =>
      intro hg
      have hfs := ho w.saved c.text
      have hg' : Mode.gateway.active w.saved = true := (hfs _).1.symm.trans hg
      obtain ⟨hclosed, hrec⟩ := h hg'
      refine ⟨hclosed, fun n hn hact => ?_⟩
      obtain ⟨p, F, hp, hrest⟩ := hrec n hn ((hfs n).1.symm.trans hact)
      exact ⟨p, F, (hfs n).2.trans hp, hrest⟩
  | iptables f cmd =>
      cases f with
      | v6 => cases ho
      | v4 =>
          rw [PrivacyGuard.exec]
          split
          · split
            · rename_i F hF
              intro hg
              obtain ⟨hclosed, hrec⟩ := h hg
              exact ⟨hclosed.exec ho hF, hrec⟩
            · exact h
          · exact h
  | _ => cases ho

theorem Isolated.wp_portscan {α : Type} {A : Op → Choice → World → Prop} {p : Proc α}
    (hp : p.all PortscanOp) (h : Isolated w) : p.wp (machine A) (fun _ => Isolated) w :=
  Prog.wp_of_all hp (fun _ c _ ho _ hw => hw.exec ho c) h

theorem enablePortscanProtection_portscanOp (p : PortscanParams) :
    (enablePortscanProtection env p force).all PortscanOp := by
  have hspares : ∀ c ∈ portscanCommands p, sparesForward c = true := by
    simp [portscanCommands, portscanRules, ipt, sparesForward, Command.chain?]
  exact enablePortscanProtection_all trivial (portscanOp_update true (some p) rfl) hspares

theorem disablePortscanProtection_portscanOp :
    (disablePortscanProtection env).all PortscanOp := by
  have hremoval : ∀ p : PortscanParams, ∀ c ∈ portscanRemoval p, sparesForward c = true := by
    simp [portscanRemoval, sparesForward, Command.chain?]
  refine Prog.all_ite (Prog.all_pure _) ?_
  refine Prog.all_bind ((Prog.all_op _).mpr trivial) fun st => ?_
  refine Prog.all_ite (Prog.all_pure _) ?_
  refine Prog.all_bind ((Prog.all_op _).mpr trivial) fun st' => ?_
  refine Prog.all_bind (runAll_all _ (hremoval _)) fun _ => ?_
  exact (Prog.all_op _).mpr (portscanOp_update false none rfl)

end

/-! ## Whole runs -/

theorem Action.isolated {w : World} (x : Action) (h : Isolated w) :
    x.body.wp (machine reliableBackups) (fun _ => Isolated) w := by
  have hdis : ∀ m, x.disables? = some m →
      x.body.wp (machine reliableBackups) (fun _ => Isolated) w := by
    intro m hm
    obtain ⟨stop, hstop, hbody⟩ := Action.of_disables hm
    rw [hbody, Prog.wp_map]
    exact h.disable hstop
  cases x with
  | enableKillSwitch env force t =>
      refine Prog.wp_mono ((enableKillSwitch_follows env force t).enable saves_reliable
        restores_reliable w) fun b w' he => ?_
      exact h.enable_killSwitch .tor rfl he
  | enableProxyKillSwitch env a force =>
      refine Prog.wp_mono ((enableProxyKillSwitch_follows env a force).enable saves_reliable
        restores_reliable w) fun b w' he => ?_
      exact h.enable_killSwitch .proxyOnly rfl he
  | enableGateway env a force =>
      exact Prog.wp_mono ((enableGateway_follows env a force).enable saves_reliable
        restores_reliable w) fun b w' he => h.enable_gateway he
  | disableKillSwitch env => exact hdis .tor rfl
  | disableProxyKillSwitch env => exact hdis .proxyOnly rfl
  | disableGateway env => exact hdis .gateway rfl
  | enablePortscanProtection env p force =>
      exact h.wp_portscan (enablePortscanProtection_portscanOp p)
  | disablePortscanProtection env =>
      rw [Action.body, Prog.wp_map]
      exact h.wp_portscan disablePortscanProtection_portscanOp

/-- **Gateway isolation.** Whatever ran before and whichever rules failed, the FORWARD chain
drops every packet while gateway mode is marked active. -/
theorem gateway_isolation {w w' : World} {cs : List (Action × Bool)}
    (hw : w.saved = defaultState)
    (h : Calls (machine reliableBackups) Action.body (fun _ _ => True) w cs w')
    (hg : w'.saved.gatewayModeActive = true) (X : Unmodelled) (p : Packet) :
    w'.v4.filterVerdict (meaning X) .forward p = .drop := by
  have hstart : Isolated w := by
    intro hact
    rw [hw] at hact
    cases hact
  have hend : Isolated w' := h.invariant (fun x s _ hs => Action.isolated x hs) hstart
  exact (hend hg).1.verdict X p

def torDuringGateway : List Action :=
  [.enableGateway .full ⟨"eth1", "10.0.0.1", none⟩ false, .enableKillSwitch .full false 45,
    .disableKillSwitch .full]

/-- A ping of the workstation on its way to the Internet. -/
def workstationPing : Packet where
  proto := .icmp
  src := 0x0a000002#32
  dst := 0x01010101#32
  sport := 0
  dport := 0
  syn := false
  iif := "eth1"
  oif := "eth0"
  owner := none
  ct := .new

/-- The Tor kill switch, switched on and off during gateway mode, does not open the chain. -/
theorem gateway_isolation_torDuringGateway :
    ((runCalls (machine reliableBackups) goWell Action.body torDuringGateway
      (.start Firewall.blank Firewall.blank)).2.v4.filterVerdict (meaning .silent) .forward
        workstationPing) = .drop :=
  gateway_isolation rfl
    (calls_runCalls reliableBackups_goWell (show Allowed _ _ _ _ torDuringGateway _ from
      ⟨trivial, trivial, trivial, trivial⟩))
    (by decide +kernel) .silent workstationPing

end PrivacyGuard
