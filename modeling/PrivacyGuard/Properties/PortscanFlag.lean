import PrivacyGuard.Model.Switching

set_option autoImplicit false

/-! # Does the portscan flag tell the truth?

The flag is written by the two functions of portscan protection. The rules it stands for are
flushed by the Tor kill switch and by gateway mode, and every mode that is switched off
restores the rules it found, those of portscan protection included. -/

namespace PrivacyGuard

open Netfilter Effect

/-- The rules of the INPUT chain that lead to the portscan chain. -/
def portscanJumps (F : Fw) : List (Rule Match) :=
  (F.filterTable.hook .input).filter fun r => r.target.chain? = some portscanChain

/-- The portscan chain ends in DROP. -/
def ChainDrops (F : Fw) : Prop :=
  ∃ rs, F.filterTable.rules (.user portscanChain) = some (rs ++ [⟨[], .drop⟩])

/-- The rules of portscan protection are in force. -/
def PortscanInPlace (p : PortscanParams) (F : Fw) : Prop :=
  portscanJump p ∈ F.filterTable.hook .input ∧ ChainDrops F

/-- The flag is set exactly if the rules with the recorded parameters are in force; while it
is not set no parameters are recorded, and none are in force. -/
structure FlagTruthful (w : World) : Prop where
  iff : w.saved.portscanProtection = true ↔
    ∃ p, w.saved.portscanParams = some p ∧ PortscanInPlace p w.v4
  off : w.saved.portscanProtection = false → ∀ p, ¬ PortscanInPlace p w.v4

/-! ## The rules that lead to the chain -/

theorem mem_portscanJumps {p : PortscanParams} {F : Fw} :
    portscanJump p ∈ portscanJumps F ↔ portscanJump p ∈ F.filterTable.hook .input := by
  rw [portscanJumps, List.mem_filter, and_iff_left]
  exact decide_eq_true rfl

/-- Without the chain no rule leads to it. -/
theorem portscanJumps_of_absent {F : Fw} (h : portscanChain ∉ F.filterTable.names) :
    portscanJumps F = [] := by
  refine List.filter_eq_nil_iff.mpr fun r hr hchain => h ?_
  exact F.filterTable.hookClosed .input r hr _ (of_decide_eq_true hchain)

/-- After `enable_portscan_protection` there is one rule more, and the chain ends in DROP. -/
theorem portscanJumps_enable (p : PortscanParams) (F : Fw) :
    portscanJumps (F.perform (portscanCommands p)) = portscanJump p :: portscanJumps F ∧
      ChainDrops (F.perform (portscanCommands p)) := by
  obtain ⟨G, hwith, -, happ⟩ := applied_portscanCommands p F
  obtain ⟨-, hh, hu⟩ := happ.filterTable
  constructor
  · have hin : (F.perform (portscanCommands p)).filterTable.hook .input =
        portscanJump p :: (F.filterTable.hook .input ++ [portscanNote]) := by
      rw [hh, ← hwith.hook]
      rfl
    simp [portscanJumps, hin, portscanJump, portscanNote, Target.chain?]
  · refine ⟨[portscanLog], ?_⟩
    rw [Table.rules, hu]
    exact lookup_portscanEdits p hwith.mem

/-- After `disable_portscan_protection` there is one rule less, if it has been found. -/
theorem portscanJumps_disable (p : PortscanParams) (F : Fw) :
    portscanJumps (F.perform (portscanRemoval p)) =
      (portscanJumps F).erase (portscanJump p) := by
  have hnote : portscanNote ∉ (portscanJumps F).erase (portscanJump p) := by
    intro hmem
    have hleads := (List.mem_filter.mp (List.mem_of_mem_erase hmem)).2
    simp [portscanNote, Target.chain?] at hleads
  rw [portscanJumps, portscanRemoval_input, ← List.erase_filter, ← List.erase_filter]
  exact List.erase_of_not_mem hnote

/-- Nor is there one after the rules of the Tor kill switch or of gateway mode, which flush
the chains first. -/
theorem portscanJumps_replaced {x : Action} {m : Mode} (hx : x.enables? = some m)
    (hm : m ≠ .proxyOnly) (F : Fw) :
    portscanJumps (F.perform (x.rules.map (·.command))) = [] := by
  cases x with
  | enableKillSwitch env force t =>
      have hplain : ∀ c ∈ torRules.map (·.command), Firewall.plainFw c = true := by decide
      obtain ⟨-, hh, -⟩ := (Firewall.applied_of_plain hplain F).filterTable
      rw [Action.rules, portscanJumps, hh]
      rfl
  | enableGateway env a force =>
      have hplain : ∀ c ∈ (gatewayRules a.internalIface).map (·.command),
          Firewall.plainFw c = true := by
        simp [gatewayRules, ipt, Firewall.plainFw, Command.plain, Target.chain?]
      obtain ⟨-, hh, -⟩ := (Firewall.applied_of_plain hplain F).filterTable
      rw [Action.rules, portscanJumps, hh]
      rfl
  | enableProxyKillSwitch env a force =>
      cases hx
      exact absurd rfl hm
  | _ => cases hx

/-- The rules of the proxy-only kill switch are in the nat table. -/
theorem filter_proxyRules {x : Action} (hx : x.enables? = some .proxyOnly) (F : Fw) :
    (F.perform (x.rules.map (·.command))).filter = F.filter := by
  cases x with
  | enableProxyKillSwitch env a force =>
      exact Firewall.perform_nat (Firewall.natPart (proxyRules.map (·.command))) F
  | _ => cases hx

/-! ## The invariant -/

/-- The firewall is as the flag and the recorded parameters say. -/
inductive PortscanStands : Bool → Option PortscanParams → Fw → Prop
  | off {q : Option PortscanParams} {F : Fw} (h : portscanJumps F = []) :
      PortscanStands false q F
  | on {p : PortscanParams} {F : Fw} (h : portscanJumps F = [portscanJump p])
      (hdrop : ChainDrops F) : PortscanStands true (some p) F

theorem PortscanStands.congr {on : Bool} {q : Option PortscanParams} {F G : Fw}
    (h : PortscanStands on q F) (hG : G.filter = F.filter) : PortscanStands on q G := by
  have ht : G.filterTable = F.filterTable := by
    rw [Firewall.filterTable, hG, Firewall.filterTable]
  have hj : portscanJumps G = portscanJumps F := by rw [portscanJumps, ht, portscanJumps]
  cases h with
  | off h => exact .off (hj.trans h)
  | on h hdrop => exact .on (hj.trans h) (by rwa [ChainDrops, ht])

/-- So are the firewalls the modes record, as far as they tell. -/
structure FlagHonest (w : World) : Prop where
  now : PortscanStands w.saved.portscanProtection w.saved.portscanParams w.v4
  records : ∀ m : Mode, m.active w.saved = true →
    ∃ F on q, m.RecordsV4 w F ∧ PortscanStands on q F

theorem flagHonest_start {w : World} (hw : w.saved = defaultState)
    (hchain : portscanChain ∉ w.v4.filterTable.names) : FlagHonest w where
  now := by
    rw [hw]
    exact .off (portscanJumps_of_absent hchain)
  records m hm := by
    rw [hw] at hm
    cases m <;> cases hm

theorem FlagHonest.truthful {w : World} (h : FlagHonest w) : FlagTruthful w := by
  obtain ⟨hnow, -⟩ := h
  generalize hf : w.saved.portscanProtection = on at hnow
  generalize hq : w.saved.portscanParams = q at hnow
  cases hnow with
  | off hj =>
      have hno : ∀ p, ¬ PortscanInPlace p w.v4 := by
        intro p hp
        have hmem := mem_portscanJumps.mpr hp.1
        rw [hj] at hmem
        cases hmem
      refine ⟨?_, fun _ => hno⟩
      rw [hf]
      exact ⟨fun hon => (nomatch hon), fun ⟨p, _, hp⟩ => absurd hp (hno p)⟩
  | @on p _ hj hdrop =>
      have hin : PortscanInPlace p w.v4 :=
        ⟨mem_portscanJumps.mp (hj ▸ List.mem_singleton_self _), hdrop⟩
      refine ⟨⟨fun _ => ⟨p, hq, hin⟩, fun _ => hf⟩, fun hoff => ?_⟩
      rw [hf] at hoff
      cases hoff

/-- The INPUT chain of `F` leads to the portscan chain exactly as the saved state says. -/
def Saved.JumpsAgree (s : Saved) (F : Fw) : Prop :=
  (s.portscanProtection = false → portscanJumps F = []) ∧
    ∀ p, s.portscanProtection = true → s.portscanParams = some p →
      portscanJump p ∈ portscanJumps F

/-- The call does not flush the rules while the flag is set, and does not restore a backup
that disagrees with the flag. -/
structure Action.KeepsFlag (x : Action) (w : World) : Prop where
  replaces : ∀ m, x.enables? = some m → m ≠ .proxyOnly → m.Ready x.env →
    m.active w.saved = false → m.conflict w.saved = false → w.saved.portscanProtection = false
  restores : ∀ m F, x.disables? = some m → x.env.Privileged → m.active w.saved = true →
    m.RecordsV4 w F → w.saved.JumpsAgree F

section

variable {x : Action} {m : Mode} {w w' : World} {b : Bool} {F : Fw}

/-- A backup that agrees with the saved state. -/
theorem PortscanStands.of_agree {on : Bool} {q : Option PortscanParams}
    (hF : PortscanStands on q F) (h : FlagHonest w) (hagree : w.saved.JumpsAgree F) :
    PortscanStands w.saved.portscanProtection w.saved.portscanParams F := by
  obtain ⟨hoff, hon⟩ := hagree
  have hnow := h.now
  revert hoff hon hnow
  generalize w.saved.portscanProtection = on'
  generalize w.saved.portscanParams = q'
  intro hoff hon hnow
  cases hnow with
  | off _ => exact .off (hoff rfl)
  | @on p _ _ _ =>
      have hmem := hon p rfl rfl
      cases hF with
      | off hj =>
          rw [hj] at hmem
          cases hmem
      | on hj hdrop =>
          rw [hj] at hmem
          exact .on (hj.trans (congrArg (fun r => [r]) (List.mem_singleton.mp hmem).symm)) hdrop

/-- Switching a mode on. -/
theorem FlagHonest.enable (h : FlagHonest w) (hx : x.enables? = some m) (hkeep : x.KeepsFlag w)
    (he : Action.Enabled x m w b w') : FlagHonest w' := by
  cases he with
  | declined => exact h
  | already _ => exact h
  | switchedOn hready hoff hfree a ha hrules _ hon =>
      have hi := hon.installs
      obtain ⟨hf, hq⟩ := hon.portscan ha
      refine ⟨?_, fun m' hact => ?_⟩
      · rw [hf, hq, hi.v4, hrules]
        by_cases hm : m = .proxyOnly
        · subst hm
          exact h.now.congr (filter_proxyRules hx _)
        · rw [hkeep.replaces m hx hm hready hoff hfree]
          exact .off (portscanJumps_replaced hx hm _)
      · by_cases hm : m' = m
        · subst hm
          exact ⟨w.v4, _, _, hon.recordsV4, h.now⟩
        · rw [hi.others m' hm] at hact
          obtain ⟨F, on, q, hF, hstands⟩ := h.records m' hact
          exact ⟨F, on, q, hon.otherV4 ha hm hF, hstands⟩

/-- Switching a mode off. -/
theorem FlagHonest.disable (h : FlagHonest w) (hx : x.disables? = some m)
    (hkeep : x.KeepsFlag w) : x.body.wp (machine allSucceed) (fun _ => FlagHonest) w := by
  by_cases hgo : m.active w.saved = true ∧ x.env.Privileged
  · obtain ⟨hon, he⟩ := hgo
    obtain ⟨F, on, q, hF, hstands⟩ := h.records m hon
    refine Prog.wp_mono (Action.disabledV4 restores_allSucceed hx he hon hF) ?_
    rintro _ w' ⟨F6, now, rfl⟩
    obtain ⟨hf, hq⟩ := m.portscan_cleared w.saved now
    refine ⟨?_, fun m' hact => ?_⟩
    · show PortscanStands (w.saved.update m.cleared now).portscanProtection
        (w.saved.update m.cleared now).portscanParams F
      rw [hf, hq]
      exact hstands.of_agree h (hkeep.restores m F hx he hon hF)
    · have hne : m' ≠ m := by
        rintro rfl
        exact Bool.false_ne_true ((m'.active_cleared w.saved now).symm.trans hact)
      obtain ⟨F', on', q', hF', hstands'⟩ :=
        h.records m' ((Mode.active_cleared_of_ne m _ _ hne).symm.trans hact)
      exact ⟨F', on', q', hF'.congr (Mode.backupV4_cleared_of_ne m _ _ hne) fun _ _ => rfl,
        hstands'⟩
  · have hidle : m.active w.saved = false ∨ ¬ x.env.Privileged := by
      rcases not_and_or.mp hgo with hoff | he
      · exact Or.inl (Bool.eq_false_iff.mpr hoff)
      · exact Or.inr he
    exact Prog.wp_mono (Action.disabled_idle hx hidle) fun _ w' hw' => hw' ▸ h

/-- The records of the modes are not touched by portscan protection. -/
theorem FlagHonest.of_portscan {on : Bool} {q : Option PortscanParams} {now : String}
    (h : FlagHonest w) (hF : PortscanStands on q F) :
    FlagHonest { w with v4 := F, saved := w.saved.update (portscanFields on q) now } where
  now := hF
  records m hact := by
    obtain ⟨F', on', q', hF', hstands'⟩ :=
      h.records m ((m.active_update_portscan w.saved on q now).symm.trans hact)
    refine ⟨F', on', q', ?_, hstands'⟩
    exact hF'.congr (m.backupV4_update_portscan w.saved on q now) fun _ _ => rfl

theorem FlagHonest.portscanEnable {env : Environment} {p : PortscanParams} (h : FlagHonest w)
    (he : PortscanEnabled env p w b w') : FlagHonest w' := by
  cases he with
  | declined => exact h
  | already _ => exact h
  | done _ hoff now =>
      have hnow := h.now
      rw [hoff] at hnow
      obtain ⟨hj, hdrop⟩ := portscanJumps_enable p w.v4
      cases hnow with
      | off hnone => exact h.of_portscan (.on (by rw [hj, hnone]) hdrop)

theorem FlagHonest.portscanDisable {env : Environment} (h : FlagHonest w)
    (he : PortscanDisabled env w w') : FlagHonest w' := by
  cases he with
  | idle _ => exact h
  | done _ hon now =>
      refine h.of_portscan (.off ?_)
      have hnow := h.now
      rw [hon] at hnow
      generalize w.saved.portscanParams = q at hnow
      cases hnow with
      | on hj _ =>
          show portscanJumps (w.v4.perform _) = []
          rw [portscanJumps_disable, hj]
          exact List.erase_cons_head _ _

/-- **Every call that meets the condition keeps the invariant.** -/
theorem Action.flagHonest (hforce : x.force = false) (hkeep : x.KeepsFlag w)
    (h : FlagHonest w) : x.body.wp (machine allSucceed) (fun _ => FlagHonest) w := by
  cases hx : x.enables? with
  | some m => exact Prog.wp_mono (Action.enabled hx hforce) fun _ _ he => h.enable hx hkeep he
  | none =>
      cases hx' : x.disables? with
      | some m => exact h.disable hx' hkeep
      | none =>
          cases x with
          | enablePortscanProtection env p force =>
              cases hforce
              exact Prog.wp_mono (enablePortscanProtection_wp env p w) fun _ _ he =>
                h.portscanEnable he
          | disablePortscanProtection env =>
              rw [Action.body, Prog.wp_map]
              exact Prog.wp_mono (disablePortscanProtection_wp env w) fun _ _ he =>
                h.portscanDisable he
          | enableKillSwitch | enableProxyKillSwitch | enableGateway => cases hx
          | disableKillSwitch | disableProxyKillSwitch | disableGateway => cases hx'

/-- And a call that does not meet it makes the flag untrue. -/
theorem Action.flag_untrue (hbreak : ¬ x.KeepsFlag w)
    (h : FlagHonest w) : x.body.wp (machine allSucceed) (fun _ w' => ¬ FlagTruthful w') w := by
  by_cases hrep : ∀ m, x.enables? = some m → m ≠ .proxyOnly → m.Ready x.env →
      m.active w.saved = false → m.conflict w.saved = false → w.saved.portscanProtection = false
  · -- a backup that disagrees is restored
    have hres : ¬ ∀ m F, x.disables? = some m → x.env.Privileged →
        m.active w.saved = true → m.RecordsV4 w F → w.saved.JumpsAgree F :=
      fun hres => hbreak ⟨hrep, hres⟩
    simp only [not_forall] at hres
    obtain ⟨m, F, hx, he, hon, hF, hdis⟩ := hres
    refine Prog.wp_mono (Action.disabledV4 restores_allSucceed hx he hon hF) ?_
    rintro _ w' ⟨F6, now, rfl⟩ ⟨hiff, hoff⟩
    obtain ⟨hf, hq⟩ := m.portscan_cleared w.saved now
    rw [hf, hq] at hiff
    rw [hf] at hoff
    obtain ⟨F', on, q, hF', hstands⟩ := h.records m hon
    obtain rfl := hF.unique hF'
    refine hdis ⟨fun hflag => ?_, fun p hflag hp => ?_⟩
    · cases hstands with
      | off hj => exact hj
      | @on p _ hj hdrop =>
          refine absurd ⟨mem_portscanJumps.mp ?_, hdrop⟩ (hoff hflag p)
          rw [hj]
          exact List.mem_singleton_self _
    · obtain ⟨p', hp', hin⟩ := hiff.mp hflag
      obtain rfl := Option.some.inj (hp.symm.trans hp')
      exact mem_portscanJumps.mpr hin.1
  · -- the rules are flushed
    simp only [not_forall] at hrep
    obtain ⟨m, hx, hm, he, hoff, hfree, hflag⟩ := hrep
    refine Prog.wp_mono (Action.switchedOn hx he (fun hon => ?_) hfree) ?_
    · rw [hoff] at hon
      cases hon
    · rintro b w' ⟨-, a, ha, hrules, -, hon⟩ htrue
      have hset : w'.saved.portscanProtection = true := by
        rw [(hon.portscan ha).1]
        exact Bool.eq_true_of_not_eq_false hflag
      obtain ⟨p, -, hin⟩ := htrue.iff.mp hset
      have hmem := mem_portscanJumps.mpr hin.1
      rw [hon.installs.v4, hrules, portscanJumps_replaced hx hm] at hmem
      cases hmem

end

/-! ## Whole runs -/

/-- The flag tells the truth in every run in which the Tor kill switch and gateway mode are
not put in place while it is set, and in which portscan protection stands, whenever a mode is
switched off, as it stood when the mode was switched on. The first call that is different
makes it untrue. -/
theorem portscanFlag_truthful {w w' : World} {cs : List (Action × Bool)}
    (hw : w.saved = defaultState) (hchain : portscanChain ∉ w.v4.filterTable.names)
    (h : Calls (machine allSucceed) Action.body
      (fun x s => x.force = false ∧ x.KeepsFlag s) w cs w') :
    FlagTruthful w' ∧ ∀ (x : Action) (tr : List (Event sig)) (b : Bool) (w'' : World),
      x.force = false → Prog.Runs (machine allSucceed) x.body w' tr b w'' →
      (FlagTruthful w'' ↔ x.KeepsFlag w') := by
  have hend : FlagHonest w' :=
    h.invariant (fun x s hx hs => Action.flagHonest hx.1 hx.2 hs) (flagHonest_start hw hchain)
  refine ⟨hend.truthful, fun x tr b w'' hforce hrun => ⟨fun htrue => ?_, fun hkeep => ?_⟩⟩
  · by_contra hbreak
    exact hrun.post (Action.flag_untrue hbreak hend) htrue
  · exact (hrun.post (Action.flagHonest hforce hkeep hend)).truthful

/-- Portscan protection, and the proxy-only kill switch on top of it. -/
def proxyOverPortscan : List Action :=
  [.enablePortscanProtection .full ⟨15, 60⟩ false,
    .enableProxyKillSwitch .full ⟨"127.0.0.1", 9050, "socks5", none, none⟩ false]

/-- The proxy-only kill switch flushes nothing, and its backup has the portscan rules: they
are there again after it has been switched off. -/
theorem portscanFlag_truthful_proxy :
    FlagTruthful (runCalls (machine allSucceed) goWell Action.body
      (proxyOverPortscan ++ [.disableProxyKillSwitch .full]) (.start sshServer .blank)).2 := by
  have hjumps : ∀ (w : World) (m : Mode) (F : Fw), m.RecordsV4 w F →
      (w.files <$> m.backupV4 w.saved).map (·.map portscanJumps) =
        some (some [portscanJump ⟨15, 60⟩]) → portscanJumps F = [portscanJump ⟨15, 60⟩] := by
    rintro w m F ⟨ts, hp, hF⟩ h
    simpa [hp, hF] using h
  have hall : Allowed (machine allSucceed) goWell Action.body
      (fun x s => x.force = false ∧ x.KeepsFlag s)
      (proxyOverPortscan ++ [.disableProxyKillSwitch .full]) (.start sshServer .blank) := by
    refine ⟨⟨rfl, nofun, nofun⟩, ⟨rfl, fun m hx hm => ?_, nofun⟩, ⟨rfl, nofun, ?_⟩, trivial⟩
    · cases hx
      exact absurd rfl hm
    · intro m F hx _ _ hF
      cases hx
      have hj := hjumps _ _ F hF (by decide +kernel)
      rw [Saved.JumpsAgree, hj]
      refine ⟨fun hoff => ?_, fun p _ hp => ?_⟩
      · exact absurd hoff (by decide +kernel)
      · have hq := hp.symm.trans (by decide +kernel : _ = some (⟨15, 60⟩ : PortscanParams))
        rw [Option.some.inj hq]
        exact List.mem_singleton_self _
  exact (portscanFlag_truthful rfl (by decide) (calls_runCalls allSucceed_goWell hall)).1

/-- The Tor kill switch flushes the rules and leaves the flag. -/
theorem not_portscanFlag_truthful :
    ¬ ∀ (w w' : World) (cs : List (Action × Bool)), w.saved = defaultState →
      PortscanFree w.v4 →
      Calls (machine allSucceed) Action.body (fun x _ => x.force = false) w cs w' →
      (w'.saved.portscanProtection = true ↔
        ∃ p, w'.saved.portscanParams = some p ∧ PortscanInPlace p w'.v4) := by
  intro h
  have hall : Allowed (machine allSucceed) goWell Action.body (fun x _ => x.force = false)
      [.enablePortscanProtection .full ⟨15, 60⟩ false, .enableKillSwitch .full false 45]
      (.start .blank .blank) := ⟨rfl, rfl, trivial⟩
  obtain ⟨p, -, hin⟩ := (h _ _ _ rfl ⟨by decide, by decide⟩
    (calls_runCalls allSucceed_goWell hall)).mp (by decide +kernel)
  have hnone : (runCalls (machine allSucceed) goWell Action.body
      [.enablePortscanProtection .full ⟨15, 60⟩ false, .enableKillSwitch .full false 45]
      (.start .blank .blank)).2.v4.filterTable.hook .input = [] := by decide +kernel
  have hmem := hin.1
  rw [hnone] at hmem
  cases hmem

end PrivacyGuard
