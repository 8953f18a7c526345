import PrivacyGuard.Model.Actions
import PrivacyGuard.Model.Leftovers

set_option autoImplicit false

/-! # What an enable function does

An enable function restores nothing but the firewalls that it has found, and of its state updates
one marks the mode active and the other one leaves the flag alone. So the events of a call that
is interrupted tell what it has left behind: the firewalls (`fw_of_steps`), and whether the mode
is marked active (`active_of_steps`). -/

namespace PrivacyGuard

open Netfilter Effect

/-- What marks the mode active. -/
def Mode.flag : Mode → Field
  | .tor => .torKillSwitch true
  | .proxyOnly => .proxyOnlyKillSwitch true
  | .gateway => .gatewayModeActive true

def Mode.marks (m : Mode) : Event sig → Bool
  | ⟨.update kwargs, _⟩ => decide (m.flag ∈ kwargs)
  | _ => false

/-- The state update that marks the mode active is among the events. -/
def Recorded (m : Mode) (tr : List (Event sig)) : Prop := ∃ e ∈ tr, m.marks e = true

instance (m : Mode) (tr : List (Event sig)) : Decidable (Recorded m tr) :=
  inferInstanceAs (Decidable (∃ e ∈ tr, m.marks e = true))

/-- What an enable function of the mode may do that has been called in `w`. -/
structure InCourse (m : Mode) (w : World) (o : Op) : Prop where
  putsBack : PutsBack w o
  records : ∀ kwargs, o = .update kwargs → kwargs = [.ipv6Blocked true] ∨
    m.flag ∈ kwargs ∧ ∀ (s : Saved) now, m.active (s.update kwargs now) = true

/-! ## The flag -/

section

variable {m : Mode} {w s : World}

theorem active_of_step {o : Op} (ho : InCourse m w o) (c : Choice) :
    m.active (exec o c s).2.saved = true ↔
      m.active s.saved = true ∨ m.marks ⟨o, (exec o c s).1⟩ = true := by
  by_cases hkeeps : KeepsSaved o
  · have hno : m.marks ⟨o, (exec o c s).1⟩ = false := by
      cases o with
      | update kwargs => exact absurd rfl (hkeeps kwargs)
      | _ => rfl
    rw [hkeeps.exec, hno]
    exact (or_iff_left Bool.false_ne_true).symm
  · obtain ⟨kwargs, rfl⟩ : ∃ kwargs, o = .update kwargs := by simpa [KeepsSaved] using hkeeps
    have hsaved : (exec (.update kwargs) c s).2.saved = s.saved.update kwargs c.text := rfl
    rw [hsaved]
    obtain rfl | ⟨hflag, hactive⟩ := ho.records kwargs rfl
    · have hno : m.marks ⟨.update [.ipv6Blocked true], ()⟩ = false := by cases m <;> rfl
      rw [m.active_update_ipv6]
      exact (or_iff_left (ne_true_of_eq_false hno)).symm
    · exact iff_of_true (hactive _ _) (.inr (decide_eq_true hflag))

theorem active_of_steps {A : Op → Choice → World → Prop} {α : Type} {p q : Proc α} {s' : World}
    {tr : List (Event sig)} (h : Prog.Steps (machine A) p s tr q s')
    (hcourse : ∀ e ∈ tr, InCourse m w e.1) :
    m.active s'.saved = true ↔ m.active s.saved = true ∨ Recorded m tr := by
  induction h with
  | refl p s => simp [Recorded]
  | @call o k s c tr q s' hc _ ih =>
      rw [List.forall_mem_cons] at hcourse
      have hcons : Recorded m (⟨o, (exec o c s).1⟩ :: tr) ↔
          m.marks ⟨o, (exec o c s).1⟩ = true ∨ Recorded m tr := List.exists_mem_cons_iff ..
      rw [ih hcourse.2]
      refine Iff.trans (or_congr_left (active_of_step hcourse.1 c)) ?_
      rw [or_assoc]
      exact or_congr_right hcons.symm

end

/-! ## `apply_ruleset` -/

section

variable {m : Mode} {w s : World} {env : Environment} {Q : Unit → World → Prop}

theorem inCourse_of {o : Op} (hrestores : ∀ f, RestoresNot f o) (hkeeps : KeepsSaved o) :
    InCourse m w o :=
  ⟨fun f d h => absurd h (hrestores f d), fun kwargs h => absurd h (hkeeps kwargs)⟩

theorem inCourse_iptables (f : Family) (c : FwCommand Match) : InCourse m w (.iptables f c) :=
  inCourse_of (fun _ _ h => by cases h) fun _ h => by cases h

theorem restoreFamily_within {f : Family} {fallback : Proc Unit} {p : BackupPath}
    (hp : s.files p = some (w.fw f)) (hQ : Q () (s.setFw f (w.fw f))) :
    (restoreFamily f fallback (some p)).within (machine reliableBackups) (InCourse m w) Q s := by
  rw [restoreFamily, Prog.within_bind]
  refine Prog.within_of_all ((Prog.all_op _).mpr ?_)
    (wp_readBackup restores_reliable.toReads ?_)
  · exact inCourse_of (fun _ _ h => by cases h) fun _ h => by cases h
  rw [hp, Prog.within_bind]
  refine Prog.within_of_all ((Prog.all_op _).mpr ⟨?_, fun _ h => ?_⟩)
    (wp_restore restores_reliable hQ)
  · rintro g d ⟨⟩
    rfl
  · cases h

/-- `apply_ruleset` restores nothing but the backups it has just made. -/
theorem applyRuleset_within (he : env.Privileged) {rules : List Invocation} {label : String}
    {tolerate : List String} (hrules : ∀ r ∈ rules, r.tool = .v4)
    {Q : Bool × Backups → World → Prop} (hQ : ∀ r s, Q r s) :
    (applyRuleset env rules label tolerate).within (machine reliableBackups) (InCourse m w) Q
      w := by
  have hbackup : (backupRules env label).all (InCourse m w) :=
    Prog.all_mono (Prog.all_and (backupRules_changes env label) (backupRules_aboutFirewall label))
      fun o ho => inCourse_of (fun _ _ h => ho.1 (by rw [h]; trivial)) ho.2.keepsSaved
  have hskip : Skips reliableBackups tolerate fun _ _ => True := fun _ _ _ _ _ => trivial
  rw [applyRuleset, Prog.within_bind]
  refine Prog.within_of_all hbackup (backupRules_wp saves_reliable he fun ts => ?_)
  rw [Prog.within_bind]
  refine Prog.within_of_all (applyRules_all _ _ _ fun _ _ => inCourse_iptables _ _)
    (applyRules_wp hskip rules true _ hrules (fun F => ?_) fun _ F _ => hQ _ _)
  -- some rule has failed
  rw [if_pos (by decide), Prog.within_bind, restoreRules,
    if_neg (by simp [he.termux, he.root]), Prog.within_bind]
  refine restoreFamily_within (World.backUp_files_v4 w env label ts) ?_
  by_cases h6 : env.hasIp6tables
  · rw [backupPaths, if_pos h6]
    exact restoreFamily_within (World.backUp_files_v6 w env label ts h6) (hQ _ _)
  · rw [backupPaths, if_neg h6, restoreFamily, openDefaultV6, if_pos (by simpa using h6)]
    exact hQ _ _

/-- The part of an enable function from `apply_ruleset` on. -/
theorem Activation.apply_within (a : Activation m) (hflag : ∀ b, m.flag ∈ a.fields b)
    (he : env.Privileged) {f : Bool × Backups → Proc Bool}
    (hfail : ∀ b, f (false, b) = pure false) (hok : ∀ b, f (true, b) = a.finish env b) :
    (applyRuleset env a.rules m.label a.tolerate >>= f).within (machine reliableBackups)
      (InCourse m w) (fun _ _ => True) w := by
  rw [Prog.within_bind]
  refine applyRuleset_within he a.rules_v4 ?_
  rintro ⟨ok, b⟩ s
  cases ok with
  | false =>
      rw [hfail]
      trivial
  | true =>
      have hload : InCourse m w .load :=
        inCourse_of (fun _ _ h => by cases h) fun _ h => by cases h
      have hfields : InCourse m w (.update (a.fields b)) := by
        refine ⟨(fun _ _ h => by cases h), ?_⟩
        rintro kwargs ⟨⟩
        exact .inr ⟨hflag b, a.active b⟩
      have hblocked : InCourse m w (.update [.ipv6Blocked true]) := by
        refine ⟨(fun _ _ h => by cases h), ?_⟩
        rintro kwargs ⟨⟩
        exact .inl rfl
      rw [hok]
      exact Prog.within_of_all (a.finish_all hload hfields hblocked (inCourse_iptables _))
        (Prog.wp_true _ _)

end

/-! ## The three functions -/

section

variable {m : Mode} {w : World}

/-- The operation only asks something, and leaves the machine as it is. -/
def Asks : Op → Prop
  | .load | .external _ => True
  | _ => False

theorem asks_of_quiet {α : Type} {p : Proc α} (hp : p.all Quiet) : p.all Asks :=
  Prog.all_mono hp fun _ ho => by
    obtain ⟨e, rfl⟩ := ho
    trivial

theorem Asks.inCourse {o : Op} (ho : Asks o) : InCourse m w o :=
  inCourse_of (fun _ _ h => by rw [h] at ho; exact ho) fun _ h => by rw [h] at ho; exact ho

theorem within_asking {α : Type} {p : Proc α} {f : α → Proc Bool} (hp : p.all Asks)
    (hf : ∀ a, (f a).within (machine reliableBackups) (InCourse m w) (fun _ _ => True) w) :
    (p >>= f).within (machine reliableBackups) (InCourse m w) (fun _ _ => True) w := by
  induction p with
  | ret a => exact hf a
  | call o k ih =>
      obtain ⟨ho, hk⟩ := hp
      refine ⟨ho.inCourse, fun c _ => ?_⟩
      cases o with
      | load => exact ih _ (hk _)
      | external e => exact ih _ (hk _)
      | _ => exact absurd ho id

theorem within_guard {b r : Bool} {p : Proc Bool}
    (hp : b = false →
      p.within (machine reliableBackups) (InCourse m w) (fun _ _ => True) w) :
    (if b then pure r else p).within (machine reliableBackups) (InCourse m w)
      (fun _ _ => True) w := by
  cases b with
  | true => trivial
  | false => exact hp rfl

/-- **What an enable function does**, whatever fails and wherever it is interrupted. -/
theorem Action.within_inCourse {x : Action} (hx : x.enables? = some m) :
    x.body.within (machine reliableBackups) (InCourse m w) (fun _ _ => True) w := by
  have hload : (load : Proc Saved).all Asks := (Prog.all_op _).mpr trivial
  have hexternal : ∀ e, (external e).all Asks := fun e => (Prog.all_op _).mpr trivial
  cases x with
  | enableKillSwitch env force t =>
      cases hx
      refine within_guard fun ht => within_guard fun hr => within_guard fun _ => ?_
      have he : env.Privileged := Environment.privileged_of_guards (by simp [ht]) (by simp [hr])
      refine within_asking hload fun st => within_guard fun _ => within_guard fun _ => ?_
      refine within_asking (hexternal _) fun c => ?_
      refine within_asking (asks_of_quiet (restartTor_quiet c)) fun _ => ?_
      refine within_asking (asks_of_quiet (waitForTorBootstrap_quiet env t)) fun _ => ?_
      refine within_guard fun _ => ?_
      exact torActivation.apply_within (fun b => List.mem_cons_self) he (fun _ => rfl)
        fun _ => rfl
  | enableProxyKillSwitch env a force =>
      cases hx
      refine within_guard fun ht => within_guard fun hr => ?_
      have he : env.Privileged := Environment.privileged_of_guards (by simp [ht]) (by simp [hr])
      refine within_asking (hexternal _) fun _ => within_guard fun _ => ?_
      refine within_asking (hexternal _) fun _ => within_guard fun _ => ?_
      refine within_asking hload fun st => within_guard fun _ => within_guard fun _ => ?_
      refine within_asking (hexternal _) fun _ => ?_
      refine within_asking (asks_of_quiet startRedsocks_quiet) fun _ => ?_
      exact (proxyActivation a).apply_within (fun b => List.mem_cons_self) he (fun _ => rfl)
        fun _ => rfl
  | enableGateway env a force =>
      cases hx
      refine within_guard fun ht => within_guard fun hr => within_guard fun _ => ?_
      have he : env.Privileged := Environment.privileged_of_guards (by simp [ht]) (by simp [hr])
      refine within_asking hload fun st => within_guard fun _ => within_guard fun _ => ?_
      refine within_asking (hexternal _) fun _ => ?_
      exact (gatewayActivation a).apply_within (fun b => List.mem_cons_self) he (fun _ => rfl)
        fun _ => rfl
  | _ => cases hx

end

end PrivacyGuard
