import PrivacyGuard.Model.Leftovers
import PrivacyGuard.Model.Actions

set_option autoImplicit false

/-! # What a backup covers

`iptables-save` prints the tables the kernel holds, and `iptables-restore` replaces the
tables it is given. A table that did not exist before `apply_ruleset` and that its rules
created is therefore not restored: it stays as the rules have left it. The packets are
treated as before exactly if every such table lets them pass unchanged. -/

namespace PrivacyGuard

open Netfilter Effect

section

variable {w : World} {env : Environment}

/-- Restoring the IPv4 backup replaces the tables it names. -/
theorem restoreRules_wp_documented (he : env.Privileged) {p : BackupPath} {d : Fw}
    {p6 : Option BackupPath} {Q : Unit → World → Prop} (hp : w.files p = some d)
    (h : ∀ F6, Q () { w with v4 := d.overlay w.v4, v6 := F6 }) :
    (restoreRules env (some p) p6).wp (machine documentedRestore) Q w := by
  rw [restoreRules, if_neg (by simp [he.termux, he.root]), Prog.wp_bind, restoreFamily,
    Prog.wp_bind]
  refine wp_readBackup reads_documented ?_
  rw [hp, Prog.wp_bind]
  exact wp_restore_documented (restoreFamily_wp_v6 h)

/-- A successful `apply_ruleset` records a backup of the firewall it found. -/
theorem applyRuleset_wp_backup (he : env.Privileged) {rules : List Invocation}
    {label : String} {tolerate : List String} (hrules : ∀ r ∈ rules, r.tool = .v4) :
    (applyRuleset env rules label tolerate).wp (machine documentedRestore)
      (fun r w' => r.1 = true → ∃ p, r.2.ipv4 = some p ∧ w'.files p = some w.v4) w := by
  have hB : (backupRules env label).wp (machine documentedRestore)
      (fun b w' => ∃ p, b.ipv4 = some p ∧ w'.files p = some w.v4) w :=
    backupRules_wp saves_documented he fun ts => ⟨_, rfl, World.backUp_files_v4 w env label ts⟩
  have hskip : Skips documentedRestore tolerate fun _ _ => True := fun _ _ _ _ _ => trivial
  exact applyRuleset_wp_success hB hskip hrules (fun _ _ h => (nomatch h))
    fun b w' hb F _ _ => hb

/-- A call that answers yes has restored nothing. -/
theorem applyRuleset_restoresNot {rules : List Invocation} {label : String}
    {tolerate : List String} {b : Backups} {tr : List (Event sig)}
    (h : (applyRuleset env rules label tolerate).Trace tr (true, b)) :
    ∀ e ∈ tr, RestoresNot .v4 e.1 := by
  obtain ⟨tr₁, b', tr₂, h₁, h₂, rfl⟩ := Prog.Trace.of_bind h
  obtain ⟨tr₃, ok, tr₄, h₃, h₄, rfl⟩ := Prog.Trace.of_bind h₂
  have hbackup : (backupRules env label).all (RestoresNot .v4) :=
    Prog.all_mono (backupRules_changes env label) fun o ho d hd => ho (by rw [hd]; trivial)
  have happly : (applyRules tolerate rules true).all (RestoresNot .v4) :=
    applyRules_all tolerate rules true fun _ _ _ hd => by cases hd
  cases ok with
  | true =>
      obtain ⟨rfl, -⟩ := Prog.Trace.of_ret h₄
      intro e he
      rw [List.append_nil] at he
      rcases List.mem_append.mp he with he | he
      · exact h₁.forall_mem hbackup e he
      · exact h₃.forall_mem happly e he
  | false =>
      obtain ⟨tr₅, u, tr₆, -, h₆, -⟩ := Prog.Trace.of_bind (show
        (restoreRules env b'.ipv4 b'.ipv6 >>= fun _ => pure (false, b')).Trace tr₄ (true, b)
          from h₄)
      obtain ⟨-, hno⟩ := Prog.Trace.of_ret h₆
      cases hno

end

/-- The two firewalls treat every packet the same. -/
def SameVerdicts (X : Unmodelled) (F G : Fw) : Prop :=
  (∀ h p, F.filterVerdict (meaning X) h p = G.filterVerdict (meaning X) h p) ∧
    ∀ h p, F.natVerdict (meaning X) h p = G.natVerdict (meaning X) h p

/-- **What backup and restore cover.** After `restore_rules` with the backup of a successful
`apply_ruleset`, packets are treated as before the two exactly if each table that did not
exist before lets every packet pass as the rules that have succeeded make it. -/
theorem sameVerdicts_restored_iff {w w₁ w₂ : World} {env : Environment} {rules : List Invocation}
    {label : String} {tolerate : List String} {b : Backups} {tr tr' : List (Event sig)}
    (he : env.Privileged) (hrules : ∀ r ∈ rules, r.tool = .v4)
    (happly : Prog.Runs (machine documentedRestore) (applyRuleset env rules label tolerate) w tr
      (true, b) w₁)
    (hrestore : Prog.Runs (machine documentedRestore) (restoreRules env b.ipv4 b.ipv6) w₁ tr' ()
      w₂) (X : Unmodelled) :
    SameVerdicts X w₂.v4 w.v4 ↔
      (w.v4.filter = none →
        (w.v4.perform (succeeded .v4 tr)).filterTable.Transparent (meaning X)) ∧
      (w.v4.nat = none → (w.v4.perform (succeeded .v4 tr)).natTable.Transparent (meaning X)) := by
  obtain ⟨p, hp, hF⟩ := happly.post (applyRuleset_wp_backup he hrules) rfl
  rw [hp] at hrestore
  -- a table without a backup stays as the rules have left it
  have hv4 : w₂.v4 = w.v4.overlay w₁.v4 :=
    hrestore.post (Q := fun _ w₂ => w₂.v4 = w.v4.overlay w₁.v4)
      (restoreRules_wp_documented he hF fun _ => rfl)
  have hperformed : w.v4.perform (succeeded .v4 tr) = w₁.v4 :=
    (succeeded_applied_of_mem (f := .v4) happly
      (applyRuleset_restoresNot happly.trace)).perform
  rw [SameVerdicts, hv4, hperformed]
  exact and_congr Table.verdict_or_iff Table.verdict_or_iff

/-- The Tor kill switch's rules, applied to `F`, -/
def torApplied (F : Fw) : (Bool × Backups) × World :=
  (applyRuleset .full torRules Mode.tor.label []).run (machine documentedRestore)
    goWellDocumented (.start F Firewall.blank)

/-- and the backup put back. -/
def torRestored (F : Fw) : World :=
  ((restoreRules .full (torApplied F).1.2.ipv4 (torApplied F).1.2.ipv6).run
    (machine documentedRestore) goWellDocumented (torApplied F).2).2

/-- `sshServer` with a nat table. -/
def sshServerWithNat : Fw := { sshServer with nat := some .fresh }

/-- Of a firewall with both tables everything is restored. -/
theorem sameVerdicts_restored_iff_both :
    SameVerdicts .silent (torRestored sshServerWithNat).v4 sshServerWithNat := by
  obtain ⟨tr, happly⟩ := Prog.runs_run (H := machine documentedRestore) documentedRestore_goWell
    (applyRuleset .full torRules Mode.tor.label []) (.start sshServerWithNat Firewall.blank)
  obtain ⟨tr', hrestore⟩ := Prog.runs_run (H := machine documentedRestore)
    documentedRestore_goWell (restoreRules .full _ _) (torApplied sshServerWithNat).2
  exact (sameVerdicts_restored_iff (b := (torApplied sshServerWithNat).1.2)
    ⟨rfl, rfl, rfl⟩ (by decide) happly hrestore .silent).mpr
    ⟨fun h => (nomatch h), fun h => (nomatch h)⟩

def synToWeb : Packet where
  proto := .tcp
  src := 0x0a000002#32
  dst := 0x01010101#32
  sport := 40000
  dport := 80
  syn := true
  iif := ""
  oif := "eth0"
  owner := some "user"
  ct := .new

/-- The nat table the kill switch has created keeps redirecting. -/
theorem not_sameVerdicts_restored :
    ¬ ∀ (w w₁ w₂ : World) (env : Environment) (rules : List Invocation) (label : String)
        (tolerate : List String) (b : Backups) (tr tr' : List (Event sig)) (X : Unmodelled),
      env.Privileged → (∀ r ∈ rules, r.tool = .v4) →
      Prog.Runs (machine documentedRestore) (applyRuleset env rules label tolerate) w tr
        (true, b) w₁ →
      Prog.Runs (machine documentedRestore) (restoreRules env b.ipv4 b.ipv6) w₁ tr' () w₂ →
      SameVerdicts X w₂.v4 w.v4 := by
  intro h
  obtain ⟨tr, happly⟩ := Prog.runs_run (H := machine documentedRestore) documentedRestore_goWell
    (applyRuleset .full torRules Mode.tor.label []) (.start sshServer Firewall.blank)
  obtain ⟨tr', hrestore⟩ := Prog.runs_run (H := machine documentedRestore)
    documentedRestore_goWell (restoreRules .full _ _) (torApplied sshServer).2
  have hsame := h _ _ _ .full torRules Mode.tor.label [] (torApplied sshServer).1.2 tr tr' .silent
    ⟨rfl, rfl, rfl⟩ (by decide) happly hrestore
  have hafter : (torRestored sshServer).v4.natVerdict (meaning .silent) .output synToWeb =
      .redirect 9040 := by decide +kernel
  have hbefore : sshServer.natVerdict (meaning .silent) .output synToWeb = .accept := by decide
  have hrest : (torRestored sshServer).v4.natVerdict (meaning .silent) .output synToWeb =
      sshServer.natVerdict (meaning .silent) .output synToWeb := hsame.2 .output synToWeb
  rw [hafter, hbefore] at hrest
  cases hrest

end PrivacyGuard
