import PrivacyGuard.Effect.Runs
import PrivacyGuard.Model.State

set_option autoImplicit false

/-! # The machine the tool runs on

The operations the modelled functions perform on the machine, the part of the machine they
read and write, and the effect of each operation. What the tool cannot know beforehand is a
`Choice` made for each operation: whether a command succeeds, what it prints on failure,
what time it is, and what a failing or partial `iptables-restore` leaves.

Each operation is one atomic step: one `subprocess.run`, one access to the state file under
its lock, one access to a backup file.
-/

namespace PrivacyGuard

open Netfilter Effect

abbrev Fw : Type := Firewall Match

/-- The part of `environment.Environment` the modelled functions read. -/
structure Environment where
  termux : Bool
  root : Bool
  hasTor : Bool
  hasIptables : Bool
  hasIp6tables : Bool
  hasSysctl : Bool
  interfaces : List String
  deriving DecidableEq, Repr

/-- Operations that answer yes or no and touch neither firewall, backup files, saved state
nor sysctls: probes, service management, and the writers of other configuration files. -/
inductive External
  | have_ (cmd : String)
  | checkTorActive
  | proxyReachable (host : String) (port : Nat)
  | ensureTransparentProxyTorrc
  | writeGatewayTorrcSnippet (internalIp : String)
  | generateRedsocksConf (host : String) (port : Nat) (proxyType : String)
      (username password : Option String)
  | systemctl (action unit : String)
  /-- `systemctl restart` of the unit that runs Tor. -/
  | restartTorUnit
  | startTor
  | stopTor
  | popenRedsocks
  | randomizeMac (iface : String)
  | randomizeHostname
  | verifyTorKillSwitch
  | killRiskyApps
  | wipeFreeRam (mode : String)
  deriving DecidableEq, Repr

inductive Op
  /-- `statemod.load()`, and `statemod.get`, which reads one field of it. -/
  | load
  | update (kwargs : List Field)
  /-- One run of `iptables` or `ip6tables`. -/
  | iptables (f : Family) (c : FwCommand Match)
  /-- `iptables-save`, `ip6tables-save` -/
  | save (f : Family)
  | writeBackup (p : BackupPath) (d : Fw)
  /-- `Path.exists` and `Path.read_text` -/
  | readBackup (p : BackupPath)
  /-- `iptables-restore`, `ip6tables-restore` -/
  | restore (f : Family) (d : Fw)
  | strftime
  | sysctlRead (k : SysctlKey)
  | sysctlWrite (k : SysctlKey) (v : Int)
  | external (e : External)

/-- What `subprocess.run` returns: whether the exit code is `0`, and the standard error
without surrounding blanks. -/
structure CmdResult where
  ok : Bool
  stderr : String
  deriving DecidableEq, Repr

def Op.Ret : Op → Type
  | .load => Saved
  | .update _ => Unit
  | .iptables _ _ => CmdResult
  | .save _ => Option Fw
  | .writeBackup _ _ => Bool
  | .readBackup _ => Option Fw
  | .restore _ _ => Bool
  | .strftime => String
  | .sysctlRead _ => Option Int
  | .sysctlWrite _ _ => Bool
  | .external _ => Bool

abbrev sig : Sig := ⟨Op, Op.Ret⟩

/-- The functions of the tool, as programs over the operations above. -/
abbrev Proc (α : Type) : Type := Prog sig α

structure World where
  v4 : Fw
  v6 : Fw
  files : BackupPath → Option Fw
  saved : Saved
  sysctl : SysctlKey → Int

namespace World

def fw (w : World) : Family → Fw
  | .v4 => w.v4
  | .v6 => w.v6

def setFw (w : World) : Family → Fw → World
  | .v4, F => { w with v4 := F }
  | .v6, F => { w with v6 := F }

def writeFile (w : World) (p : BackupPath) (d : Fw) : World :=
  { w with files := Function.update w.files p (some d) }

end World

/-- The default is that everything works: commands succeed unless the kernel refuses them,
and restoring reproduces the file. -/
structure Choice where
  ok : Bool := true
  /-- Standard error of a failing command, or the current time. -/
  text : String := ""
  /-- The firewall `iptables-restore` leaves when that is not exactly the file's (or, if it
  fails, not the one before). -/
  restored : Option Fw := none

/-- The effect of an operation. -/
def exec : (o : Op) → Choice → World → o.Ret × World
  | .load, _, w => (w.saved, w)
  | .update kwargs, c, w => ((), { w with saved := w.saved.update kwargs c.text })
  | .iptables f cmd, c, w =>
      if c.ok then
        match (w.fw f).exec cmd with
        | .ok F => (⟨true, ""⟩, w.setFw f F)
        | .error e => (⟨false, e⟩, w)
      else (⟨false, c.text⟩, w)
  | .save f, c, w => (if c.ok then some (w.fw f) else none, w)
  | .writeBackup p d, c, w =>
      if c.ok then (true, w.writeFile p d) else (false, w)
  | .readBackup p, c, w => (if c.ok then w.files p else none, w)
  | .restore f d, c, w => (c.ok, w.setFw f (c.restored.getD (if c.ok then d else w.fw f)))
  | .strftime, c, w => (c.text, w)
  | .sysctlRead k, c, w => (if c.ok then some (w.sysctl k) else none, w)
  | .sysctlWrite k v, c, w =>
      if c.ok then (true, { w with sysctl := Function.update w.sysctl k v }) else (false, w)
  | .external _, c, w => (c.ok, w)

/-- The machine, when the outside world makes only choices in `A`. -/
def machine (A : Op → Choice → World → Prop) : Handler sig World Choice := ⟨exec, A⟩

/-! ## The operations as programs -/

def load : Proc Saved := Prog.op (S := sig) .load
def update (kwargs : List Field) : Proc Unit := Prog.op (S := sig) (.update kwargs)
def iptables (f : Family) (c : FwCommand Match) : Proc CmdResult :=
  Prog.op (S := sig) (.iptables f c)
def save (f : Family) : Proc (Option Fw) := Prog.op (S := sig) (.save f)
def writeBackup (p : BackupPath) (d : Fw) : Proc Bool := Prog.op (S := sig) (.writeBackup p d)
def readBackup (p : BackupPath) : Proc (Option Fw) := Prog.op (S := sig) (.readBackup p)
def restore (f : Family) (d : Fw) : Proc Bool := Prog.op (S := sig) (.restore f d)
def strftime : Proc String := Prog.op (S := sig) .strftime
def sysctlRead (k : SysctlKey) : Proc (Option Int) := Prog.op (S := sig) (.sysctlRead k)
def sysctlWrite (k : SysctlKey) (v : Int) : Proc Bool := Prog.op (S := sig) (.sysctlWrite k v)
def external (e : External) : Proc Bool := Prog.op (S := sig) (.external e)

/-! ## Assumptions on the outside world -/

/-- Anything may fail. -/
def anything : Op → Choice → World → Prop := fun _ _ _ => True

/-- Saving the firewalls, and reading and restoring a saved file, always succeed, and
restoring reproduces the saved firewall. Any other command may fail. -/
def reliableBackups : Op → Choice → World → Prop
  | .save _, c, _ => c.ok = true
  | .writeBackup _ _, c, _ => c.ok = true
  | .readBackup _, c, _ => c.ok = true
  | .restore _ _, c, _ => c.ok = true ∧ c.restored = none
  | _, _, _ => True

/-- Every command and probe succeeds, unless the kernel refuses a command, and restoring
reproduces the saved firewall. Whether `systemctl` exists and whether the torrc had to be
rewritten stays open. -/
def allSucceed : Op → Choice → World → Prop
  | .external .ensureTransparentProxyTorrc, _, _ => True
  | .external (.have_ cmd), c, _ => cmd ≠ "systemctl" → c.ok = true
  | _, c, _ => c.ok = true ∧ c.restored = none

/-- Saving and reading always succeed, and restoring does what `iptables-restore` documents:
the tables the file names are replaced, the others stay. Any other command may fail. -/
def documentedRestore : Op → Choice → World → Prop
  | .save _, c, _ => c.ok = true
  | .writeBackup _ _, c, _ => c.ok = true
  | .readBackup _, c, _ => c.ok = true
  | .restore f d, c, w => c.ok = true ∧ c.restored = some (d.overlay (w.fw f))
  | _, _, _ => True

/-! The choices of a run in which all goes well, or all but one command. -/

def goWell : Op → World → Choice := fun _ _ => {}

def failing (cmd : FwCommand Match) : Op → World → Choice
  | .iptables _ c, _ => { ok := decide (c ≠ cmd) }
  | _, _ => {}

def goWellDocumented : Op → World → Choice
  | .restore f d, w => { restored := some (d.overlay (w.fw f)) }
  | _, _ => {}

theorem reliableBackups_goWell (o : Op) (w : World) : reliableBackups o (goWell o w) w := by
  cases o <;> trivial

theorem reliableBackups_failing (cmd : FwCommand Match) (o : Op) (w : World) :
    reliableBackups o (failing cmd o w) w := by
  cases o <;> trivial

theorem allSucceed_goWell (o : Op) (w : World) : allSucceed o (goWell o w) w := by
  cases o with
  | external e => cases e <;> first | exact ⟨rfl, rfl⟩ | exact fun _ => rfl | trivial
  | _ => exact ⟨rfl, rfl⟩

theorem documentedRestore_goWell (o : Op) (w : World) :
    documentedRestore o (goWellDocumented o w) w := by
  cases o <;> trivial

/-! ## Weakest preconditions of the operations -/

section

variable {A : Op → Choice → World → Prop} {w : World}

theorem wp_load {Q : Saved → World → Prop} (h : Q w.saved w) : load.wp (machine A) Q w :=
  fun _ _ => h

theorem wp_update {kwargs : List Field} {Q : Unit → World → Prop}
    (h : ∀ now, Q () { w with saved := w.saved.update kwargs now }) :
    (update kwargs).wp (machine A) Q w :=
  fun c _ => h c.text

theorem wp_strftime {Q : String → World → Prop} (h : ∀ ts, Q ts w) :
    strftime.wp (machine A) Q w :=
  fun c _ => h c.text

/-- Whatever reading answers. -/
theorem wp_readBackup_any {p : BackupPath} {Q : Option Fw → World → Prop} (h : ∀ d, Q d w) :
    (readBackup p).wp (machine A) Q w :=
  fun c _ => h (if c.ok then w.files p else none)

/-- A file that is read is there; one that is there may still not be readable. -/
theorem wp_readBackup_or {p : BackupPath} {Q : Option Fw → World → Prop} (hnone : Q none w)
    (hsome : ∀ d, w.files p = some d → Q (some d) w) : (readBackup p).wp (machine A) Q w := by
  refine fun c _ => show Q (if c.ok then w.files p else none) w from ?_
  split
  · cases hd : w.files p with
    | none => exact hnone
    | some d => exact hsome d hd
  · exact hnone

/-- Whatever restoring leaves. -/
theorem wp_restore_any {f : Family} {d : Fw} {Q : Bool → World → Prop}
    (h : ∀ b F, Q b (w.setFw f F)) : (restore f d).wp (machine A) Q w :=
  fun c _ => h c.ok (c.restored.getD (if c.ok then d else w.fw f))

/-- The command can fail in `w`, printing `e`. -/
def CanFail (A : Op → Choice → World → Prop) (f : Family) (cmd : FwCommand Match) (w : World)
    (e : String) : Prop :=
  ∃ c, A (.iptables f cmd) c w ∧ exec (.iptables f cmd) c w = (⟨false, e⟩, w)

/-- A run of `iptables` either does what the command says, or fails and changes nothing. -/
theorem wp_iptables {f : Family} {cmd : FwCommand Match} {Q : CmdResult → World → Prop}
    (hok : ∀ F, (w.fw f).exec cmd = .ok F → Q ⟨true, ""⟩ (w.setFw f F))
    (hfail : ∀ e, CanFail A f cmd w e → Q ⟨false, e⟩ w) :
    (iptables f cmd).wp (machine A) Q w := by
  intro c hc
  show Q (exec (.iptables f cmd) c w).1 (exec (.iptables f cmd) c w).2
  have key : exec (.iptables f cmd) c w = (⟨false, c.text⟩, w) ∨
      (∃ e, exec (.iptables f cmd) c w = (⟨false, e⟩, w)) ∨
      ∃ F, (w.fw f).exec cmd = .ok F ∧
        exec (.iptables f cmd) c w = (⟨true, ""⟩, w.setFw f F) := by
    rw [exec]
    split
    · split
      · exact Or.inr (Or.inr ⟨_, by assumption, rfl⟩)
      · exact Or.inr (Or.inl ⟨_, rfl⟩)
    · exact Or.inl rfl
  rcases key with hx | ⟨e, hx⟩ | ⟨F, hF, hx⟩
  · rw [hx]
    exact hfail _ ⟨c, hc, hx⟩
  · rw [hx]
    exact hfail e ⟨c, hc, hx⟩
  · rw [hx]
    exact hok F hF

/-- Only the kernel's refusal makes the command fail. -/
def Obeys (A : Op → Choice → World → Prop) (f : Family) (cmd : FwCommand Match) : Prop :=
  ∀ c w, A (.iptables f cmd) c w → c.ok = true

theorem obeys_allSucceed (f : Family) (cmd : FwCommand Match) : Obeys allSucceed f cmd :=
  fun _ _ h => h.1

theorem refused_of_canFail {f : Family} {cmd : FwCommand Match} {e : String}
    (hA : Obeys A f cmd) (h : CanFail A f cmd w e) : (w.fw f).exec cmd = .error e := by
  obtain ⟨c, hc, hx⟩ := h
  rw [exec, if_pos (hA c w hc)] at hx
  split at hx
  · cases hx
  · rename_i e' he
    cases hx
    exact he

theorem wp_iptables_obeys {f : Family} {cmd : FwCommand Match} (hA : Obeys A f cmd)
    {Q : CmdResult → World → Prop}
    (hok : ∀ F, (w.fw f).exec cmd = .ok F → Q ⟨true, ""⟩ (w.setFw f F))
    (herr : ∀ e, (w.fw f).exec cmd = .error e → Q ⟨false, e⟩ w) :
    (iptables f cmd).wp (machine A) Q w :=
  wp_iptables hok fun e he => herr e (refused_of_canFail hA he)

/-! The same rules with an invariant along the way. -/

section

variable {I : World → Prop}

theorem along_load {Q : Saved → World → Prop} (hI : I w) (h : Q w.saved w) :
    load.along (machine A) I Q w :=
  Prog.along_op_of_wp hI (wp_load ⟨hI, h⟩)

theorem along_update {kwargs : List Field} {Q : Unit → World → Prop} (hI : I w)
    (h : ∀ now, I { w with saved := w.saved.update kwargs now } ∧
      Q () { w with saved := w.saved.update kwargs now }) :
    (update kwargs).along (machine A) I Q w :=
  Prog.along_op_of_wp hI (wp_update h)

theorem along_external {e : External} {Q : Bool → World → Prop} (hI : I w)
    (h : ∀ c : Choice, A (.external e) c w → Q c.ok w) :
    (external e).along (machine A) I Q w :=
  ⟨hI, fun c hc => ⟨hI, h c hc⟩⟩

theorem along_iptables {f : Family} {cmd : FwCommand Match} {Q : CmdResult → World → Prop}
    (hI : I w)
    (hok : ∀ F, (w.fw f).exec cmd = .ok F → I (w.setFw f F) ∧ Q ⟨true, ""⟩ (w.setFw f F))
    (hfail : ∀ e, CanFail A f cmd w e → Q ⟨false, e⟩ w) :
    (iptables f cmd).along (machine A) I Q w :=
  Prog.along_op_of_wp hI (wp_iptables hok fun e he => ⟨hI, hfail e he⟩)

end

/-- The operation only asks or tells the outside world something. -/
def Quiet (o : Op) : Prop := ∃ e, o = .external e

theorem quiet_external (e : External) : (external e).all Quiet := (Prog.all_op _).mpr ⟨e, rfl⟩

/-- A program of quiet operations leaves the machine as it is, whatever it answers. -/
theorem along_quiet {α : Type} {p : Proc α} {I : World → Prop} {Q : α → World → Prop}
    (hp : p.all Quiet) (hI : I w) (hQ : ∀ a, Q a w) : p.along (machine A) I Q w := by
  induction p with
  | ret a => exact ⟨hI, hQ a⟩
  | call o k ih =>
      obtain ⟨⟨e, rfl⟩, hk⟩ := hp
      exact ⟨hI, fun c _ => ih c.ok (hk c.ok)⟩

theorem wp_quiet {α : Type} {p : Proc α} {Q : α → World → Prop} (hp : p.all Quiet)
    (hQ : ∀ a, Q a w) : p.wp (machine A) Q w :=
  Prog.wp_of_along (along_quiet (I := fun _ => True) hp trivial hQ)

/-- What `A` has to guarantee for saving to succeed. -/
structure Saves (A : Op → Choice → World → Prop) : Prop where
  save : ∀ f c w, A (.save f) c w → c.ok = true
  writeBackup : ∀ p d c w, A (.writeBackup p d) c w → c.ok = true

/-- What `A` has to guarantee for a backup file to be readable. -/
structure Reads (A : Op → Choice → World → Prop) : Prop where
  readBackup : ∀ p c w, A (.readBackup p) c w → c.ok = true

/-- What `A` has to guarantee for restoring to reproduce the saved firewall. -/
structure Restores (A : Op → Choice → World → Prop) : Prop extends Reads A where
  restore : ∀ f d c w, A (.restore f d) c w → c.ok = true ∧ c.restored = none

theorem saves_reliable : Saves reliableBackups := ⟨fun _ _ _ h => h, fun _ _ _ _ h => h⟩
theorem reads_documented : Reads documentedRestore := ⟨fun _ _ _ h => h⟩
theorem restores_reliable : Restores reliableBackups :=
  ⟨⟨fun _ _ _ h => h⟩, fun _ _ _ _ h => h⟩
theorem saves_documented : Saves documentedRestore := ⟨fun _ _ _ h => h, fun _ _ _ _ h => h⟩
theorem saves_allSucceed : Saves allSucceed :=
  ⟨fun _ _ _ h => h.1, fun _ _ _ _ h => h.1⟩
theorem restores_allSucceed : Restores allSucceed :=
  ⟨⟨fun _ _ _ h => h.1⟩, fun _ _ _ _ h => h⟩

/-- What `A` has to guarantee for sysctls to be read and written. -/
structure SetsSysctls (A : Op → Choice → World → Prop) : Prop where
  read : ∀ k c w, A (.sysctlRead k) c w → c.ok = true
  write : ∀ k v c w, A (.sysctlWrite k v) c w → c.ok = true

theorem wp_sysctlRead (hA : SetsSysctls A) {k : SysctlKey} {Q : Option Int → World → Prop}
    (h : Q (some (w.sysctl k)) w) : (sysctlRead k).wp (machine A) Q w := by
  intro c hc
  show Q (exec (.sysctlRead k) c w).1 (exec (.sysctlRead k) c w).2
  simpa [exec, hA.read k c w hc] using h

theorem wp_sysctlWrite (hA : SetsSysctls A) {k : SysctlKey} {v : Int}
    {Q : Bool → World → Prop}
    (h : Q true { w with sysctl := Function.update w.sysctl k v }) :
    (sysctlWrite k v).wp (machine A) Q w := by
  intro c hc
  show Q (exec (.sysctlWrite k v) c w).1 (exec (.sysctlWrite k v) c w).2
  simpa [exec, hA.write k v c w hc] using h

theorem wp_save (hA : Saves A) {f : Family} {Q : Option Fw → World → Prop}
    (h : Q (some (w.fw f)) w) : (save f).wp (machine A) Q w := by
  intro c hc
  show Q (exec (.save f) c w).1 (exec (.save f) c w).2
  simpa [exec, hA.save f c w hc] using h

theorem wp_writeBackup (hA : Saves A) {p : BackupPath} {d : Fw} {Q : Bool → World → Prop}
    (h : Q true (w.writeFile p d)) :
    (writeBackup p d).wp (machine A) Q w := by
  intro c hc
  show Q (exec (.writeBackup p d) c w).1 (exec (.writeBackup p d) c w).2
  simpa [exec, hA.writeBackup p d c w hc] using h

theorem wp_readBackup (hA : Reads A) {p : BackupPath} {Q : Option Fw → World → Prop}
    (h : Q (w.files p) w) : (readBackup p).wp (machine A) Q w := by
  intro c hc
  show Q (exec (.readBackup p) c w).1 (exec (.readBackup p) c w).2
  simpa [exec, hA.readBackup p c w hc] using h

theorem wp_restore_documented {f : Family} {d : Fw} {Q : Bool → World → Prop}
    (h : Q true (w.setFw f (d.overlay (w.fw f)))) :
    (restore f d).wp (machine documentedRestore) Q w := by
  rintro c ⟨hok, hres⟩
  show Q (exec (.restore f d) c w).1 (exec (.restore f d) c w).2
  simpa [exec, hok, hres] using h

theorem wp_restore (hA : Restores A) {f : Family} {d : Fw} {Q : Bool → World → Prop}
    (h : Q true (w.setFw f d)) : (restore f d).wp (machine A) Q w := by
  intro c hc
  obtain ⟨hok, hres⟩ := hA.restore f d c w hc
  show Q (exec (.restore f d) c w).1 (exec (.restore f d) c w).2
  simpa [exec, hok, hres] using h

end

end PrivacyGuard
