import PrivacyGuard.Model.Course

set_option autoImplicit false

/-! # What a crash leaves

An enable function changes the firewall first and writes the saved state last. A process
that stops in between leaves a changed firewall that the saved state knows nothing of: the
disable function of the mode sees an unset flag and does nothing. It restores the firewall
exactly when the flag had been written, and there is nothing to restore when the commands that
had succeeded up to the crash, but for those already rolled back, leave the initial firewalls as
they were. Both can be told from the events up to the crash. -/

namespace PrivacyGuard

open Netfilter Effect

/-- What is on disk at any moment of a call that finds the mode off. -/
inductive CrashPoint (m : Mode) (env : Environment) (w w₁ : World) : Prop
  | unmarked (h : m.active w₁.saved = false)
  | marked (h : m.active w₁.saved = true) (he : env.Privileged) (hw : m.Holds env w₁ w.v4 w.v6)

/-- What the disable function leaves of a crash. -/
inductive AfterCrash (m : Mode) (w w₁ w₂ : World) : Prop
  | restored (h : m.active w₁.saved = true) (h4 : w₂.v4 = w.v4) (h6 : w₂.v6 = w.v6)
  | untouched (h : m.active w₁.saved = false) (hw : w₂ = w₁)

section

variable {m : Mode} {env : Environment} {force : Bool} {w w₁ : World}

/-- Every moment of a call of an enable function is such a crash point. -/
theorem Follows.along_crashPoint {a : Activation m} {p : Proc Bool}
    (hp : Follows a env force p) (hoff : m.active w.saved = false) :
    p.along (machine reliableBackups) (CrashPoint m env w) (fun _ _ => True) w := by
  let R : Bool × Backups → World → Prop := fun r w' =>
    ApplyRuleset env a.rules m.label a.skip w r w' ∧ env.Privileged
  have hsaved : ∀ w' : World, w'.saved = w.saved → CrashPoint m env w w' := by
    intro w' hw'
    refine .unmarked ?_
    rw [hw', hoff]
  refine hp _ _ R _ w (hsaved w rfl) (fun _ => trivial) (fun _ _ => trivial) (fun he _ _ => ?_)
    (fun _ _ _ => trivial) ?_
  · have hwp : (applyRuleset env a.rules m.label a.tolerate).wp (machine reliableBackups)
        (ApplyRuleset env a.rules m.label a.skip w) w :=
      applyRuleset_wp saves_reliable restores_reliable he.privileged (a.skips reliableBackups)
        a.rules_v4
    exact Prog.along_mono (Prog.along_and_wp (along_keepsSaved (applyRuleset_keepsSaved _ _ _))
      hwp) hsaved fun r w' h => ⟨h.2, he.privileged⟩
  · rintro b w' ⟨happ, he⟩
    cases happ with
    | applied ts F hF =>
        -- until the flag is saved the crash point is unmarked, afterwards the backups are recorded
        refine Activation.finish_along (fun _ _ => hsaved _ (World.backUp_saved w env _ ts))
          fun now F6 s hF6 hs => ⟨?_, trivial⟩
        rw [World.backUp_v6] at hF6
        rw [World.backUp_saved] at hs
        refine .marked ?_ he (Enable.holds hF6 hs)
        show m.active s = true
        rw [hs.active, a.active]

/-- The disable function puts back what was there before, or does nothing. -/
theorem CrashPoint.disable (h : CrashPoint m env w w₁) {stop : Proc Unit}
    (hstop : stop.all Quiet) :
    (disableMode m env stop).wp (machine reliableBackups)
      (fun _ => AfterCrash m w w₁) w₁ := by
  cases h with
  | unmarked h => exact disableMode_wp_inactive (Or.inl h) (.untouched h rfl)
  | marked h he hw =>
      exact disableMode_wp_active restores_reliable he h hw hstop fun _ => .restored h rfl rfl

end

/-- **Crash safety.** The disable function called after a crash of the enable function
restores both firewalls exactly when the state update that marks the mode active was among
what the process had done, or the commands that had succeeded by then and had not been undone
by a rollback change neither of the initial firewalls. -/
theorem restored_after_crash_iff {x d : Action} {m : Mode} (hx : x.enables? = some m)
    (hd : d.disables? = some m) (henv : d.env = x.env) {w w₁ w₂ : World}
    (hoff : ∀ n : Mode, n.active w.saved = false) {tr tr' : List (Event sig)}
    {q : Proc Bool} {b : Bool}
    (hcrash : Prog.Steps (machine reliableBackups) x.body w tr q w₁)
    (hrun : Prog.Runs (machine reliableBackups) d.body w₁ tr' b w₂) :
    (w₂.v4.Same w.v4 ∧ w₂.v6.Same w.v6) ↔
      (Recorded m tr ∨
        ((w.v4.perform (notUndone .v4 tr)).Same w.v4 ∧
          (w.v6.perform (notUndone .v6 tr)).Same w.v6)) := by
  obtain ⟨a, ha⟩ := Action.of_enables hx
  obtain ⟨stop, hstop, hbody⟩ := Action.of_disables hd
  have hpoint : CrashPoint m x.env w w₁ := hcrash.invariant (ha.along_crashPoint (hoff m))
  have hcourse : ∀ e ∈ tr, InCourse m w e.1 := hcrash.within (Action.within_inCourse hx)
  have hfw : ∀ f, w₁.fw f = (w.fw f).perform (notUndone f tr) :=
    fun f => fw_of_steps restores_reliable hcrash (fun e he => (hcourse e he).putsBack) rfl
  have hv4 : w₁.v4 = w.v4.perform (notUndone .v4 tr) := hfw .v4
  have hv6 : w₁.v6 = w.v6.perform (notUndone .v6 tr) := hfw .v6
  have hrecorded : m.active w₁.saved = true ↔ Recorded m tr := by
    rw [active_of_steps hcrash hcourse, hoff m]
    exact or_iff_right Bool.false_ne_true
  rw [← hv4, ← hv6, ← hrecorded]
  have hdis : d.body.wp (machine reliableBackups) (fun _ => AfterCrash m w w₁) w₁ := by
    rw [hbody, henv, Prog.wp_map]
    exact hpoint.disable hstop
  cases hrun.post hdis with
  | restored hact h4 h6 =>
      exact ⟨fun _ => Or.inl hact, fun _ => ⟨Firewall.same_of_eq h4, Firewall.same_of_eq h6⟩⟩
  | untouched hact hw =>
      subst hw
      refine ⟨Or.inr, fun h => h.resolve_left ?_⟩
      rw [hact]
      exact Bool.false_ne_true

/-- The Tor kill switch stops after `n` operations; the first rule is the eleventh. -/
def crashAfter (n : Nat) : World :=
  ((Action.enableKillSwitch .full false 45).body.runN (machine reliableBackups) goWell n
    (.start sshServer Firewall.blank)).2

def disableAfter (w : World) : World :=
  ((Action.disableKillSwitch .full).body.run (machine reliableBackups) goWell w).2

/-- The Tor kill switch has taken its last step. -/
def lateCrash : World :=
  ((Action.enableKillSwitch .full false 45).body.run (machine reliableBackups) goWell
    (.start sshServer Firewall.blank)).2

/-- Then switching it off restores the firewall. -/
theorem restored_after_crash_iff_late :
    (disableAfter lateCrash).v4.Same sshServer ∧
      (disableAfter lateCrash).v6.Same Firewall.blank := by
  have hcrash := Prog.runs_events (H := machine reliableBackups) reliableBackups_goWell
    (Action.enableKillSwitch .full false 45).body (.start sshServer Firewall.blank)
  obtain ⟨tr', hrun⟩ := Prog.runs_run (H := machine reliableBackups)
    reliableBackups_goWell (Action.disableKillSwitch .full).body lateCrash
  exact (restored_after_crash_iff (x := .enableKillSwitch .full false 45)
    (d := .disableKillSwitch .full) rfl rfl rfl (start_off _ _) hcrash hrun).mpr
    (Or.inl (by decide +kernel))

/-- Where the last rule fails, all that has been done is undone. -/
example : notUndone .v4 ((Action.enableKillSwitch .full false 45).body.events
    (machine reliableBackups) (failing (.filter (.append (.hook .output) ⟨[], .drop⟩)))
    (.start sshServer Firewall.blank)) = [] := by
  decide +kernel

/-- After the first flush the rules of the firewall are gone for good. -/
theorem not_restored_after_crash :
    ¬ ∀ (x d : Action) (m : Mode) (w w₁ w₂ : World) (tr tr' : List (Event sig))
        (q : Proc Bool) (b : Bool),
      x.enables? = some m → d.disables? = some m → d.env = x.env →
      (∀ n : Mode, n.active w.saved = false) →
      Prog.Steps (machine reliableBackups) x.body w tr q w₁ →
      Prog.Runs (machine reliableBackups) d.body w₁ tr' b w₂ →
      w₂.v4.Same w.v4 ∧ w₂.v6.Same w.v6 := by
  intro h
  obtain ⟨tr, hcrash⟩ := Prog.steps_runN (H := machine reliableBackups)
    reliableBackups_goWell 11 (Action.enableKillSwitch .full false 45).body
    (.start sshServer Firewall.blank)
  obtain ⟨tr', hrun⟩ := Prog.runs_run (H := machine reliableBackups)
    reliableBackups_goWell (Action.disableKillSwitch .full).body (crashAfter 11)
  have hsame := (h (.enableKillSwitch .full false 45) (.disableKillSwitch .full) .tor _ _ _ _ _
    _ _ rfl rfl rfl (start_off _ _) hcrash hrun).1
  have hrules : (disableAfter (crashAfter 11)).v4.filterTable.hook .input = [] := by decide +kernel
  have hssh : (disableAfter (crashAfter 11)).v4.filterTable = sshServer.filterTable := hsame.1
  rw [hssh] at hrules
  exact absurd hrules (by decide)

end PrivacyGuard
