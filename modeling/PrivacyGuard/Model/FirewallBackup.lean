import PrivacyGuard.Model.System

set_option autoImplicit false

/-! # Backing up, restoring and replacing the firewall

`firewall_backup.py`: `backupRules`, `restoreRules` and `applyRuleset`, which every kill
switch and gateway mode goes through. After each definition stands what a call of it can
do, as a rule for weakest preconditions: `applyRuleset_wp` says that a call either leaves
the firewalls as they were or has applied all the rules, and that the backups it returns
hold the firewalls from before the call.
-/

namespace PrivacyGuard

open Netfilter Effect

/-- `{"ipv4": path_or_None, "ipv6": path_or_None}` -/
structure Backups where
  ipv4 : Option BackupPath
  ipv6 : Option BackupPath
  deriving DecidableEq, Repr

/-- The block of `backup_rules` for one protocol family. -/
def backupFamily (available : Bool) (p : BackupPath) : Proc (Option BackupPath) := do
  if !available then
    return none
  match ← save p.family with
  | none => return none
  | some d =>
      let written ← writeBackup p d
      return (if written then some p else none)

def backupRules (env : Environment) (label : String) : Proc Backups := do
  if env.termux || !env.root then
    return ⟨none, none⟩
  let ts ← strftime
  let ipv4 ← backupFamily env.hasIptables ⟨.v4, label, ts⟩
  let ipv6 ← backupFamily env.hasIp6tables ⟨.v6, label, ts⟩
  return ⟨ipv4, ipv6⟩

/-- Commands run one after the other, whatever their exit codes. -/
def runAll (f : Family) : List (FwCommand Match) → Proc Unit
  | [] => pure ()
  | c :: cs => do
      let _ ← iptables f c
      runAll f cs

def openDefaultV4 : Proc Unit :=
  runAll .v4 [
    .filter .flushAll,
    .nat .flushAll,
    .filter (.policy .input .accept),
    .filter (.policy .output .accept),
    .filter (.policy .forward .accept)]

def openDefaultV6 (env : Environment) : Proc Unit :=
  if !env.hasIp6tables then pure ()
  else
    runAll .v6 [
      .filter .flushAll,
      .filter (.policy .input .accept),
      .filter (.policy .output .accept),
      .filter (.policy .forward .accept)]

/-- The block of `restore_rules` for one protocol family: a backup that is missing,
unreadable or refused leads to `fallback`. -/
def restoreFamily (f : Family) (fallback : Proc Unit) : Option BackupPath → Proc Unit
  | none => fallback
  | some p => do
      match ← readBackup p with
      -- the file is missing or cannot be read
      | none => fallback
      | some d =>
          let restored ← restore f d
          if restored then pure () else fallback

def restoreRules (env : Environment) (ipv4Path ipv6Path : Option BackupPath) : Proc Unit := do
  if env.termux || !env.root then
    return ()
  restoreFamily .v4 openDefaultV4 ipv4Path
  restoreFamily .v6 (openDefaultV6 env) ipv6Path

/-- One element of a rule list: an `iptables` or `ip6tables` argument vector. -/
structure Invocation where
  tool : Family
  command : FwCommand Match
  deriving DecidableEq

/-- One of the markers occurs in the error message. -/
def tolerated (tolerate : List String) (stderr : String) : Bool :=
  tolerate.any fun marker => decide (marker.toList <:+: stderr.toList)

/-- The loop of `apply_ruleset`: it goes on after a failing rule. -/
def applyRules (tolerate : List String) : List Invocation → Bool → Proc Bool
  | [], ok => pure ok
  | rule :: rules, ok => do
      let result ← iptables rule.tool rule.command
      -- a failure the caller tolerates does not count
      if result.ok || tolerated tolerate result.stderr then
        applyRules tolerate rules ok
      else
        applyRules tolerate rules false

def applyRuleset (env : Environment) (rules : List Invocation) (label : String)
    (tolerate : List String) : Proc (Bool × Backups) := do
  let backups ← backupRules env label
  let ok ← applyRules tolerate rules true
  if !ok then
    -- some rule failed: the whole list is rolled back
    restoreRules env backups.ipv4 backups.ipv6
    return (false, backups)
  return (true, backups)

/-! ## What a backup leaves -/

/-- The tool can touch the firewall at all. -/
structure Environment.Privileged (env : Environment) : Prop where
  termux : env.termux = false
  root : env.root = true
  hasIptables : env.hasIptables = true

/-- The guards every function starts with. -/
theorem Environment.privileged_of_guards {env : Environment} (ht : ¬ env.termux = true)
    (hr : ¬ (!env.root || !env.hasIptables) = true) : env.Privileged := by
  simp only [Bool.or_eq_true, Bool.not_eq_true', not_or, Bool.not_eq_false] at hr
  exact ⟨by simpa using ht, hr.1, hr.2⟩

/-- The paths `backup_rules` returns when saving succeeds. -/
def backupPaths (env : Environment) (label ts : String) : Backups where
  ipv4 := some ⟨.v4, label, ts⟩
  ipv6 := if env.hasIp6tables then some ⟨.v6, label, ts⟩ else none

namespace World

/-- The machine after a successful `backup_rules`. -/
def backUp (w : World) (env : Environment) (label ts : String) : World :=
  let w' := w.writeFile ⟨.v4, label, ts⟩ w.v4
  if env.hasIp6tables then w'.writeFile ⟨.v6, label, ts⟩ w.v6 else w'

variable (w : World) (env : Environment) (label ts : String)

theorem writeFile_files (p : BackupPath) (d : Fw) :
    (w.writeFile p d).files = Function.update w.files p (some d) := rfl

@[simp] theorem backUp_v4 : (w.backUp env label ts).v4 = w.v4 := by
  simp only [backUp]
  split <;> rfl

@[simp] theorem backUp_v6 : (w.backUp env label ts).v6 = w.v6 := by
  simp only [backUp]
  split <;> rfl

@[simp] theorem backUp_saved : (w.backUp env label ts).saved = w.saved := by
  simp only [backUp]
  split <;> rfl

@[simp] theorem backUp_sysctl : (w.backUp env label ts).sysctl = w.sysctl := by
  simp only [backUp]
  split <;> rfl

@[simp] theorem backUp_files_v4 :
    (w.backUp env label ts).files ⟨.v4, label, ts⟩ = some w.v4 := by
  have hne : (⟨.v4, label, ts⟩ : BackupPath) ≠ ⟨.v6, label, ts⟩ := by simp
  simp only [backUp]
  split
  · rw [writeFile_files, Function.update_of_ne hne, writeFile_files, Function.update_self]
  · rw [writeFile_files, Function.update_self]

/-- A backup changes the backup files only. -/
theorem backUp_eq : ∃ f, w.backUp env label ts = { w with files := f } := by
  simp only [backUp]
  split
  · exact ⟨_, rfl⟩
  · exact ⟨_, rfl⟩

theorem backUp_files_v6 (h6 : env.hasIp6tables = true) :
    (w.backUp env label ts).files ⟨.v6, label, ts⟩ = some w.v6 := by
  simp only [backUp, if_pos h6]
  exact Function.update_self _ _ _

/-- A backup touches two files only. -/
theorem backUp_files_of_ne {p : BackupPath} (h4 : p ≠ ⟨.v4, label, ts⟩)
    (h6 : p ≠ ⟨.v6, label, ts⟩) : (w.backUp env label ts).files p = w.files p := by
  simp only [backUp]
  split
  · rw [writeFile_files, Function.update_of_ne h6, writeFile_files, Function.update_of_ne h4]
  · rw [writeFile_files, Function.update_of_ne h4]

end World

section

variable {A : Op → Choice → World → Prop} {w : World} {env : Environment}

theorem backupFamily_wp (hA : Saves A) {p : BackupPath} {Q : Option BackupPath → World → Prop}
    (h : Q (some p) (w.writeFile p (w.fw p.family))) :
    (backupFamily true p).wp (machine A) Q w := by
  rw [backupFamily, if_neg (by decide), Prog.wp_bind]
  refine wp_save hA ?_
  rw [Prog.wp_bind]
  exact wp_writeBackup hA h

theorem backupRules_wp (hA : Saves A) (he : env.Privileged) {label : String}
    {Q : Backups → World → Prop}
    (h : ∀ ts, Q (backupPaths env label ts) (w.backUp env label ts)) :
    (backupRules env label).wp (machine A) Q w := by
  rw [backupRules, if_neg (by simp [he.termux, he.root]), Prog.wp_bind]
  refine wp_strftime fun ts => ?_
  rw [Prog.wp_bind, he.hasIptables]
  refine backupFamily_wp hA ?_
  rw [Prog.wp_bind]
  have hts := h ts
  by_cases h6 : env.hasIp6tables
  · simp only [backupPaths, World.backUp, if_pos h6] at hts
    rw [h6]
    exact backupFamily_wp hA hts
  · simp only [backupPaths, World.backUp, if_neg h6] at hts
    rw [backupFamily, if_pos (by simpa using h6)]
    exact hts

/-! ## What a restore leaves -/

theorem restoreFamily_wp (hA : Restores A) {f : Family} {fallback : Proc Unit}
    {p : BackupPath} {d : Fw} {Q : Unit → World → Prop} (hp : w.files p = some d)
    (h : Q () (w.setFw f d)) :
    (restoreFamily f fallback (some p)).wp (machine A) Q w := by
  rw [restoreFamily, Prog.wp_bind]
  refine wp_readBackup hA.toReads ?_
  rw [hp, Prog.wp_bind]
  exact wp_restore hA h

/-- Restoring from the two recorded backups. -/
theorem restoreRules_wp (hA : Restores A) (he : env.Privileged) {p : BackupPath} {d : Fw}
    {p6 : Option BackupPath} {d6 : Fw} {Q : Unit → World → Prop} (hp : w.files p = some d)
    (hp6 : (∃ q, p6 = some q ∧ w.files q = some d6) ∨
      (p6 = none ∧ env.hasIp6tables = false ∧ w.v6 = d6))
    (h : Q () { w with v4 := d, v6 := d6 }) :
    (restoreRules env (some p) p6).wp (machine A) Q w := by
  rw [restoreRules, if_neg (by simp [he.termux, he.root]), Prog.wp_bind]
  refine restoreFamily_wp hA hp ?_
  rcases hp6 with ⟨q, rfl, hq⟩ | ⟨rfl, h6, rfl⟩
  · exact restoreFamily_wp hA hq h
  · rw [restoreFamily, openDefaultV6, if_pos (by simp [h6])]
    exact h

/-- Commands that may all fail. -/
theorem runAll_along {f : Family} {I : World → Prop} {Q : Unit → World → Prop} :
    ∀ (cs : List (FwCommand Match)) (w : World),
      (∀ F, I (w.setFw f F) ∧ Q () (w.setFw f F)) →
      (runAll f cs).along (machine A) I Q w := by
  intro cs
  induction cs with
  | nil =>
      intro w h
      have h' := h (w.fw f)
      cases f <;> exact h'
  | cons c cs ih =>
      intro w h
      have hself : I w := by
        have h' := (h (w.fw f)).1
        cases f <;> exact h'
      rw [runAll, Prog.along_bind]
      refine along_iptables hself (fun G _ => ⟨(h G).1, ih _ fun F => ?_⟩) fun e _ => ih w h
      have hset : (w.setFw f G).setFw f F = w.setFw f F := by cases f <;> rfl
      rw [hset]
      exact h F

/-- Restoring the IPv6 firewall touches nothing else, whatever is recorded. -/
theorem restoreFamily_wp_v6 {p6 : Option BackupPath} {Q : Unit → World → Prop}
    (h : ∀ F6, Q () { w with v6 := F6 }) :
    (restoreFamily .v6 (openDefaultV6 env) p6).wp (machine A) Q w := by
  have hopen : ∀ w' : World, (∀ F6, Q () { w' with v6 := F6 }) →
      (openDefaultV6 env).wp (machine A) Q w' := by
    intro w' h'
    rw [openDefaultV6]
    split
    · exact h' w'.v6
    · exact Prog.wp_of_along (I := fun _ => True) (runAll_along _ _ fun F => ⟨trivial, h' F⟩)
  cases p6 with
  | none => exact hopen w h
  | some p =>
      rw [restoreFamily, Prog.wp_bind]
      refine wp_readBackup_any fun d => ?_
      cases d with
      | none => exact hopen w h
      | some d =>
          rw [Prog.wp_bind]
          refine wp_restore_any fun b F => ?_
          split
          · exact h F
          · exact hopen _ h

/-- Restoring the IPv4 firewall from its recorded backup, whatever happens to the other. -/
theorem restoreRules_wp_v4 (hA : Restores A) (he : env.Privileged) {p : BackupPath} {d : Fw}
    {p6 : Option BackupPath} {Q : Unit → World → Prop} (hp : w.files p = some d)
    (h : ∀ F6, Q () { w with v4 := d, v6 := F6 }) :
    (restoreRules env (some p) p6).wp (machine A) Q w := by
  rw [restoreRules, if_neg (by simp [he.termux, he.root]), Prog.wp_bind]
  exact restoreFamily_wp hA hp (restoreFamily_wp_v6 h)

/-! ## What applying a rule list leaves -/

/-- `skip` covers every command that can fail with a tolerated message. -/
def Skips (A : Op → Choice → World → Prop) (tolerate : List String)
    (skip : FwCommand Match → Fw → Prop) : Prop :=
  ∀ cmd w e, CanFail A .v4 cmd w e → tolerated tolerate e = true → skip cmd w.v4

theorem applyRules_wp {tolerate : List String} {skip : FwCommand Match → Fw → Prop}
    (hskip : Skips A tolerate skip) {Q : Bool → World → Prop} :
    ∀ (rules : List Invocation) (ok : Bool) (w : World), (∀ r ∈ rules, r.tool = .v4) →
      (∀ F, Q false { w with v4 := F }) →
      (ok = true → ∀ F, Firewall.Applied skip (rules.map (·.command)) w.v4 F →
        Q true { w with v4 := F }) →
      (applyRules tolerate rules ok).wp (machine A) Q w := by
  intro rules
  induction rules with
  | nil =>
      intro ok w _ hfail hok
      cases ok with
      | false => exact hfail w.v4
      | true => exact hok rfl w.v4 (.nil _)
  | cons rule rules ih =>
      intro ok w hv4 hfail hok
      have hrest : ∀ r ∈ rules, r.tool = .v4 := fun r hr => hv4 r (List.mem_cons_of_mem _ hr)
      obtain ⟨tool, cmd⟩ := rule
      obtain rfl : tool = .v4 := hv4 _ List.mem_cons_self
      rw [applyRules, Prog.wp_bind]
      refine wp_iptables (fun G hG => ?_) fun e he => ?_
      · rw [if_pos (by rfl)]
        exact ih ok _ hrest hfail fun hb F hF => hok hb F (.cons hG hF)
      · by_cases htol : tolerated tolerate e
        · rw [if_pos (by simpa using htol)]
          exact ih ok w hrest hfail fun hb F hF =>
            hok hb F (.skip (hskip cmd w e he htol) hF)
        · rw [if_neg (by simpa using htol)]
          exact ih false w hrest hfail fun hb => by cases hb

/-- **What a call of `apply_ruleset` can do**, when saving and restoring work. Either some
rule failed and both firewalls are as before, or all rules were applied. -/
inductive ApplyRuleset (env : Environment) (rules : List Invocation) (label : String)
    (skip : FwCommand Match → Fw → Prop) (w : World) : Bool × Backups → World → Prop
  | rolledBack (ts : String) : ApplyRuleset env rules label skip w
      (false, backupPaths env label ts) (w.backUp env label ts)
  | applied (ts : String) (F : Fw)
      (hF : Firewall.Applied skip (rules.map (·.command)) w.v4 F) :
      ApplyRuleset env rules label skip w
        (true, backupPaths env label ts) { w.backUp env label ts with v4 := F }

theorem applyRuleset_wp (hS : Saves A) (hR : Restores A) (he : env.Privileged)
    {rules : List Invocation} {label : String} {tolerate : List String}
    {skip : FwCommand Match → Fw → Prop} (hskip : Skips A tolerate skip)
    (hrules : ∀ r ∈ rules, r.tool = .v4) :
    (applyRuleset env rules label tolerate).wp (machine A)
      (ApplyRuleset env rules label skip w) w := by
  rw [applyRuleset, Prog.wp_bind]
  refine backupRules_wp hS he fun ts => ?_
  rw [Prog.wp_bind]
  refine applyRules_wp hskip rules true _ hrules (fun F => ?_) fun _ F hF => ?_
  · -- the backups just taken are the ones restored
    rw [if_pos (by decide), Prog.wp_bind]
    have hbase : ({ w.backUp env label ts with v4 := F } : World).files
        ⟨.v4, label, ts⟩ = some w.v4 := World.backUp_files_v4 w env label ts
    have hbase6 : (∃ q, (backupPaths env label ts).ipv6 = some q ∧
          ({ w.backUp env label ts with v4 := F } : World).files q = some w.v6) ∨
        ((backupPaths env label ts).ipv6 = none ∧ env.hasIp6tables = false ∧
          (w.backUp env label ts).v6 = w.v6) := by
      by_cases h6 : env.hasIp6tables
      · exact Or.inl ⟨_, by simp [backupPaths, h6], World.backUp_files_v6 w env label ts h6⟩
      · exact Or.inr ⟨by simp [backupPaths, h6], by simpa using h6, World.backUp_v6 ..⟩
    refine restoreRules_wp hR he hbase hbase6 ?_
    · have hw : ({ w.backUp env label ts with v4 := w.v4, v6 := w.v6 } : World)
          = w.backUp env label ts := by
        simp only [World.backUp]
        split <;> rfl
      show ApplyRuleset env rules label skip w (false, backupPaths env label ts)
        { w.backUp env label ts with v4 := w.v4, v6 := w.v6 }
      rw [hw]
      exact .rolledBack ts
  · rw [if_neg (by decide), Prog.wp_pure]
    rw [World.backUp_v4] at hF
    exact .applied ts F hF

/-- What a successful call leaves, when `B` says what `backup_rules` leaves. -/
theorem applyRuleset_wp_success {rules : List Invocation} {label : String}
    {tolerate : List String} {skip : FwCommand Match → Fw → Prop}
    {B : Backups → World → Prop} {Q : Bool × Backups → World → Prop}
    (hB : (backupRules env label).wp (machine A) B w) (hskip : Skips A tolerate skip)
    (hrules : ∀ r ∈ rules, r.tool = .v4) (hfail : ∀ b w', Q (false, b) w')
    (hQ : ∀ b w', B b w' → ∀ F, Firewall.Applied skip (rules.map (·.command)) w'.v4 F →
      Q (true, b) { w' with v4 := F }) :
    (applyRuleset env rules label tolerate).wp (machine A) Q w := by
  rw [applyRuleset, Prog.wp_bind]
  refine Prog.wp_mono hB fun b w' hb => ?_
  rw [Prog.wp_bind]
  refine applyRules_wp hskip rules true w' hrules (fun F => ?_) fun _ F hF => ?_
  · rw [if_pos (by decide), Prog.wp_bind]
    exact Prog.wp_mono (Prog.wp_true _ _) fun _ _ _ => hfail _ _
  · exact hQ b w' hb F hF

/-! ## The operations of the loops -/

theorem runAll_all {P : Op → Prop} {f : Family} :
    ∀ cs : List (FwCommand Match), (∀ c ∈ cs, P (.iptables f c)) → (runAll f cs).all P
  | [], _ => Prog.all_pure _
  | c :: cs, h => Prog.all_bind ((Prog.all_op _).mpr (h c List.mem_cons_self)) fun _ =>
      runAll_all cs fun d hd => h d (List.mem_cons_of_mem _ hd)

theorem applyRules_all {P : Op → Prop} (tolerate : List String) :
    ∀ (rules : List Invocation) (ok : Bool), (∀ r ∈ rules, P (.iptables r.tool r.command)) →
      (applyRules tolerate rules ok).all P
  | [], _, _ => Prog.all_pure _
  | r :: rules, ok, h => by
      have hrest : ∀ r ∈ rules, P (.iptables r.tool r.command) :=
        fun r hr => h r (List.mem_cons_of_mem _ hr)
      exact Prog.all_bind ((Prog.all_op _).mpr (h r List.mem_cons_self)) fun _ =>
        Prog.all_ite (applyRules_all tolerate rules ok hrest)
          (applyRules_all tolerate rules false hrest)

/-! ## What leaves the firewalls alone -/

/-- The operation changes a firewall, or tries to. -/
def Op.ChangesFirewall : Op → Prop
  | .iptables _ _ | .restore _ _ => True
  | _ => False

theorem exec_fw_of_not_changes {o : Op} (ho : ¬ o.ChangesFirewall) (c : Choice) (w : World) :
    (exec o c w).2.v4 = w.v4 ∧ (exec o c w).2.v6 = w.v6 := by
  cases o with
  | iptables f cmd => exact absurd trivial ho
  | restore f d => exact absurd trivial ho
  | writeBackup p d =>
      rw [exec]
      split <;> exact ⟨rfl, rfl⟩
  | sysctlWrite k v =>
      rw [exec]
      split <;> exact ⟨rfl, rfl⟩
  | load | update kwargs | save f | readBackup p | strftime | sysctlRead k | external e =>
      exact ⟨rfl, rfl⟩

/-- Making a backup is no change. -/
theorem backupRules_changes (env : Environment) (label : String) :
    (backupRules env label).all fun o : Op => ¬ o.ChangesFirewall := by
  have hfam : ∀ b p, (backupFamily b p).all fun o : Op => ¬ o.ChangesFirewall := by
    intro b p
    refine Prog.all_ite (Prog.all_pure _) (Prog.all_bind ((Prog.all_op _).mpr id) fun d => ?_)
    cases d with
    | none => exact Prog.all_pure _
    | some d => exact Prog.all_bind ((Prog.all_op _).mpr id) fun _ => Prog.all_pure _
  exact Prog.all_ite (Prog.all_pure _) (Prog.all_bind ((Prog.all_op _).mpr id) fun _ =>
    Prog.all_bind (hfam _ _) fun _ => Prog.all_bind (hfam _ _) fun _ => Prog.all_pure _)

/-! ## What no call touches -/

/-- The operation leaves the saved state alone. -/
def KeepsSaved (o : Op) : Prop := ∀ kwargs, o ≠ .update kwargs

theorem KeepsSaved.exec {o : Op} (ho : KeepsSaved o) (c : Choice) (w : World) :
    (exec o c w).2.saved = w.saved := by
  cases o with
  | update kwargs => exact absurd rfl (ho kwargs)
  | iptables f cmd =>
      rw [PrivacyGuard.exec]
      split
      · split
        · cases f <;> rfl
        · rfl
      · rfl
  | writeBackup p d =>
      rw [PrivacyGuard.exec]
      split <;> rfl
  | restore f d => cases f <;> rfl
  | sysctlWrite k v =>
      rw [PrivacyGuard.exec]
      split <;> rfl
  | load | save f | readBackup p | strftime | sysctlRead k | external e => rfl

/-- A program without updates leaves the saved state alone, all along. -/
theorem along_keepsSaved {α : Type} {p : Proc α} (hp : p.all KeepsSaved) :
    p.along (machine A) (fun w' => w'.saved = w.saved) (fun _ w' => w'.saved = w.saved) w :=
  Prog.along_of_all hp (fun _ c s ho _ hs => (ho.exec c s).trans hs) rfl

/-- The operation is about the firewalls and their backups. -/
def AboutFirewall : Op → Prop
  | .iptables _ _ | .save _ | .writeBackup _ _ | .readBackup _ | .restore _ _ | .strftime => True
  | _ => False

theorem AboutFirewall.keepsSaved {o : Op} (ho : AboutFirewall o) : KeepsSaved o := by
  rintro kwargs rfl
  exact ho

theorem backupRules_aboutFirewall (label : String) : (backupRules env label).all AboutFirewall := by
  have hfam : ∀ b p, (backupFamily b p).all AboutFirewall := by
    intro b p
    rw [backupFamily]
    refine Prog.all_ite (Prog.all_pure _) (Prog.all_bind ?_ fun d => ?_)
    · exact (Prog.all_op _).mpr trivial
    · cases d with
      | none => exact Prog.all_pure _
      | some d => exact Prog.all_bind ((Prog.all_op _).mpr trivial) fun _ => Prog.all_pure _
  rw [backupRules]
  refine Prog.all_ite (Prog.all_pure _) (Prog.all_bind ?_ fun ts => ?_)
  · exact (Prog.all_op _).mpr trivial
  · exact Prog.all_bind (hfam _ _) fun _ => Prog.all_bind (hfam _ _) fun _ => Prog.all_pure _

theorem runAll_aboutFirewall (f : Family) (cs : List (FwCommand Match)) :
    (runAll f cs).all AboutFirewall :=
  runAll_all cs fun _ _ => trivial

theorem restoreRules_aboutFirewall (p4 p6 : Option BackupPath) :
    (restoreRules env p4 p6).all AboutFirewall := by
  have hfam : ∀ f fallback (p : Option BackupPath), Prog.all AboutFirewall fallback →
      (restoreFamily f fallback p).all AboutFirewall := by
    intro f fallback p hfb
    cases p with
    | none => exact hfb
    | some p =>
        refine Prog.all_bind ((Prog.all_op _).mpr trivial) fun d => ?_
        cases d with
        | none => exact hfb
        | some d =>
            exact Prog.all_bind ((Prog.all_op _).mpr trivial)
              fun _ => Prog.all_ite (Prog.all_pure _) hfb
  have hv6 : (openDefaultV6 env).all AboutFirewall :=
    Prog.all_ite (Prog.all_pure _) (runAll_aboutFirewall _ _)
  exact Prog.all_ite (Prog.all_pure _)
    (Prog.all_bind (hfam _ _ _ (runAll_aboutFirewall _ _)) fun _ => hfam _ _ _ hv6)

/-- `apply_ruleset` performs nothing else, whatever fails. -/
theorem applyRuleset_aboutFirewall (rules : List Invocation) (label : String)
    (tolerate : List String) : (applyRuleset env rules label tolerate).all AboutFirewall :=
  Prog.all_bind (backupRules_aboutFirewall label) fun _ =>
    Prog.all_bind (applyRules_all tolerate rules true fun _ _ => trivial) fun _ =>
      Prog.all_ite (Prog.all_bind (restoreRules_aboutFirewall _ _) fun _ => Prog.all_pure _)
        (Prog.all_pure _)

theorem runAll_keepsSaved (f : Family) (cs : List (FwCommand Match)) :
    (runAll f cs).all KeepsSaved :=
  Prog.all_mono (runAll_aboutFirewall f cs) fun _ h => h.keepsSaved

theorem restoreRules_keepsSaved (p4 p6 : Option BackupPath) :
    (restoreRules env p4 p6).all KeepsSaved :=
  Prog.all_mono (restoreRules_aboutFirewall p4 p6) fun _ h => h.keepsSaved

theorem applyRuleset_keepsSaved (rules : List Invocation) (label : String)
    (tolerate : List String) : (applyRuleset env rules label tolerate).all KeepsSaved :=
  Prog.all_mono (applyRuleset_aboutFirewall rules label tolerate) fun _ h => h.keepsSaved

end

end PrivacyGuard
