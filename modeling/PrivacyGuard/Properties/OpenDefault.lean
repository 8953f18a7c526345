import PrivacyGuard.Model.Success

set_option autoImplicit false

/-! # Restoring ends in the backup or in an open firewall

`restore_rules` falls back to an open default wherever a backup is missing or does not go
in. The fallback has to work from any firewall: `iptables-restore` may have replaced some of
the tables before it failed. -/

namespace PrivacyGuard

open Netfilter Effect

/-- The dump `d`, of which only the marked tables have been put in place of those of `F`. -/
def partly (filter nat : Bool) (d F : Fw) : Fw :=
  Firewall.overlay ⟨if filter then d.filter else none, if nat then d.nat else none⟩ F

/-- `-F` and `-P` succeed. `iptables-restore` installs the file's ruleset, or fails and has
replaced any of the tables the file names. Anything else may fail, reading a backup among
it. -/
def fallible : Op → Choice → World → Prop
  | .iptables _ (.filter .flushAll), c, _ => c.ok = true
  | .iptables _ (.nat .flushAll), c, _ => c.ok = true
  | .iptables _ (.filter (.policy _ _)), c, _ => c.ok = true
  | .restore f d, c, w =>
      c.ok = true ∧ c.restored = none ∨
        c.ok = false ∧ ∃ b b', c.restored = some (partly b b' d (w.fw f))
  | _, _, _ => True

/-- The path names a file that holds the ruleset. -/
def World.Holds (w : World) (p : Option BackupPath) (F : Fw) : Prop :=
  ∃ q, p = some q ∧ w.files q = some F

/-- The filter table accepts every packet. -/
def Open (F : Fw) : Prop :=
  ∀ (X : Unmodelled) (h : FilterHook) (p : Packet), F.filterVerdict (meaning X) h p = .accept

/-- No chain of the table holds a rule. -/
def Bare {H : Type} (t : Table H Match) : Prop :=
  (∀ h, t.hook h = []) ∧ ∀ u ∈ t.user, u.2 = []

/-! ## The open default -/

def openCommandsV4 : List (FwCommand Match) := [
  .filter .flushAll,
  .nat .flushAll,
  .filter (.policy .input .accept),
  .filter (.policy .output .accept),
  .filter (.policy .forward .accept)]

def openCommandsV6 : List (FwCommand Match) := [
  .filter .flushAll,
  .filter (.policy .input .accept),
  .filter (.policy .output .accept),
  .filter (.policy .forward .accept)]

theorem openDefaultV4_eq : openDefaultV4 = runAll .v4 openCommandsV4 := rfl

theorem openDefaultV6_eq {env : Environment} (h6 : env.hasIp6tables = true) :
    openDefaultV6 env = runAll .v6 openCommandsV6 :=
  if_neg (by simp [h6])

/-- Whatever the filter table was, flushing it and opening the three policies opens it. -/
theorem open_of_applied {cs : List (FwCommand Match)} {F G : Fw}
    (h : Firewall.Applied Firewall.noSkip cs F G)
    (hcs : Firewall.filterPart cs = [.flushAll, .policy .input .accept, .policy .output .accept,
      .policy .forward .accept]) : Open G := by
  obtain ⟨hpol, hhook, -⟩ := h.filterTable
  rw [hcs] at hpol hhook
  intro X h p
  have hempty : G.filterTable.hook h = [] := by
    rw [hhook]
    rfl
  have haccept : G.filterTable.policy h = .accept := by
    rw [hpol]
    cases h <;> rfl
  rw [Firewall.filterVerdict, Table.verdict_of_hook_nil hempty, haccept]
  rfl

theorem bare_of_applied {cs : List (FwCommand Match)} {F G : Fw}
    (h : Firewall.Applied Firewall.noSkip cs F G) (hcs : Firewall.natPart cs = [.flushAll]) :
    Bare G.natTable := by
  obtain ⟨-, hhook, huser⟩ := h.natTable
  rw [hcs] at hhook huser
  refine ⟨fun h => ?_, fun u hu => ?_⟩
  · rw [hhook]
    rfl
  · rw [huser] at hu
    obtain ⟨v, -, rfl⟩ := List.mem_map.mp hu
    rfl

theorem applied_openCommandsV4 (F : Fw) :
    Firewall.Applied Firewall.noSkip openCommandsV4 F (F.perform openCommandsV4) :=
  Firewall.applied_of_plain (by decide) F

theorem applied_openCommandsV6 (F : Fw) :
    Firewall.Applied Firewall.noSkip openCommandsV6 F (F.perform openCommandsV6) :=
  Firewall.applied_of_plain (by decide) F

theorem obeys_openCommandsV4 : ∀ c ∈ openCommandsV4, Obeys fallible .v4 c := by
  simp only [openCommandsV4, List.forall_mem_cons]
  exact ⟨fun _ _ h => h, fun _ _ h => h, fun _ _ h => h, fun _ _ h => h, fun _ _ h => h, by simp⟩

theorem obeys_openCommandsV6 : ∀ c ∈ openCommandsV6, Obeys fallible .v6 c := by
  simp only [openCommandsV6, List.forall_mem_cons]
  exact ⟨fun _ _ h => h, fun _ _ h => h, fun _ _ h => h, fun _ _ h => h, by simp⟩

/-! ## Restoring -/

section

variable {w : World} {env : Environment}

theorem wp_restore_fallible {f : Family} {d : Fw} {Q : Bool → World → Prop}
    (hok : Q true (w.setFw f d))
    (hfail : ∀ b b', Q false (w.setFw f (partly b b' d (w.fw f)))) :
    (restore f d).wp (machine fallible) Q w := by
  intro c hc
  show Q c.ok (w.setFw f (c.restored.getD (if c.ok then d else w.fw f)))
  rcases hc with ⟨hc, hres⟩ | ⟨hc, b, b', hres⟩
  · rw [hc, hres]
    exact hok
  · rw [hc, hres]
    exact hfail b b'

/-- One protocol family: the file's ruleset is installed, or the fallback runs, from
whatever firewall the failing restore has left. -/
theorem restoreFamily_wp_fallible {f : Family} {fallback : Proc Unit} {p : Option BackupPath}
    {Q : Unit → World → Prop} (hfile : ∀ d, w.Holds p d → Q () (w.setFw f d))
    (hfallback : ∀ F, fallback.wp (machine fallible) Q (w.setFw f F)) :
    (restoreFamily f fallback p).wp (machine fallible) Q w := by
  have hself : fallback.wp (machine fallible) Q w := by
    have h := hfallback (w.fw f)
    cases f <;> exact h
  cases p with
  | none => exact hself
  | some p =>
      rw [restoreFamily, Prog.wp_bind]
      refine wp_readBackup_or hself fun d hd => ?_
      rw [Prog.wp_bind]
      refine wp_restore_fallible ?_ fun b b' => ?_
      · rw [if_pos (by rfl)]
        exact hfile d ⟨p, rfl, hd⟩
      · rw [if_neg (by decide)]
        exact hfallback _

/-- **Restoring leaves the backup or an open firewall**, for each protocol family, from any
firewall and for any two paths. -/
theorem restored_or_open {p4 p6 : Option BackupPath} {w w' : World} {env : Environment}
    {tr : List (Event sig)} (he : env.Privileged) (h6 : env.hasIp6tables = true)
    (hrun : Prog.Runs (machine fallible) (restoreRules env p4 p6) w tr () w') :
    (w.Holds p4 w'.v4 ∨ Bare w'.v4.natTable ∧ Open w'.v4) ∧ (w.Holds p6 w'.v6 ∨ Open w'.v6) := by
  refine hrun.post (Q := fun _ w' => (w.Holds p4 w'.v4 ∨ Bare w'.v4.natTable ∧ Open w'.v4) ∧
    (w.Holds p6 w'.v6 ∨ Open w'.v6)) ?_
  rw [restoreRules, if_neg (by simp [he.termux, he.root]), Prog.wp_bind]
  -- what the first half has left is what the second half finds
  have hv6 : ∀ F, (w.Holds p4 F ∨ Bare F.natTable ∧ Open F) →
      (restoreFamily .v6 (openDefaultV6 env) p6).wp (machine fallible)
        (fun _ w' => (w.Holds p4 w'.v4 ∨ Bare w'.v4.natTable ∧ Open w'.v4) ∧
          (w.Holds p6 w'.v6 ∨ Open w'.v6)) (w.setFw .v4 F) := by
    intro F hF
    refine restoreFamily_wp_fallible (fun d hd => ⟨hF, Or.inl hd⟩) fun G => ?_
    rw [openDefaultV6_eq h6]
    exact runAll_wp_obeys _ _ obeys_openCommandsV6
      ⟨hF, Or.inr (open_of_applied (applied_openCommandsV6 G) rfl)⟩
  refine restoreFamily_wp_fallible (fun d hd => hv6 d (Or.inl hd)) fun F => ?_
  rw [openDefaultV4_eq]
  have happ := applied_openCommandsV4 F
  exact runAll_wp_obeys _ _ obeys_openCommandsV4
    (hv6 _ (Or.inr ⟨bare_of_applied happ rfl, open_of_applied happ rfl⟩))

end

/-- Every restore breaks off after the filter table. -/
def breaksOff : Op → World → Choice
  | .restore f d, w => { ok := false, restored := some (partly true false d (w.fw f)) }
  | _, _ => {}

theorem fallible_breaksOff (o : Op) (w : World) : fallible o (breaksOff o w) w := by
  cases o with
  | iptables f c =>
      rcases c with c | c
      · cases c <;> trivial
      · cases c <;> trivial
  | restore f d => exact Or.inr ⟨rfl, true, false, rfl⟩
  | _ => trivial

/-- One backup, of IPv4 only. -/
def onePath : BackupPath := ⟨.v4, Mode.tor.label, "20250101"⟩

def oneBackup : World := (World.start sshServer sshServer).writeFile onePath sshServer

/-- The backup does not go in whole, the other one does not exist. -/
def brokenOff : World :=
  ((restoreRules .full (some onePath) none).run (machine fallible) breaksOff oneBackup).2

theorem restored_or_open_broken :
    (oneBackup.Holds (some onePath) brokenOff.v4 ∨ Bare brokenOff.v4.natTable ∧
      Open brokenOff.v4) ∧ (oneBackup.Holds none brokenOff.v6 ∨ Open brokenOff.v6) := by
  obtain ⟨tr, hrun⟩ := Prog.runs_run (H := machine fallible) fallible_breaksOff
    (restoreRules .full (some onePath) none) oneBackup
  exact restored_or_open ⟨rfl, rfl, rfl⟩ rfl hrun

end PrivacyGuard
