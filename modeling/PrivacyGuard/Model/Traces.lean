import PrivacyGuard.Effect.History
import PrivacyGuard.Model.TorOutput

set_option autoImplicit false

/-! # The IPv4 commands of a run

`Performs tr cs`: of the events `tr`, the successful runs of `iptables` are the commands
`cs`, and nothing else has touched the IPv4 firewall. The call of an enable function that
answers yes has performed its rule list, one command after the other, or nothing at all. -/

namespace PrivacyGuard

open Netfilter Effect

/-- The operation leaves the IPv4 firewall alone. -/
def KeepsV4 : Op → Prop
  | .iptables f _ | .restore f _ => f = .v6
  | _ => True

theorem KeepsV4.exec {o : Op} (ho : KeepsV4 o) (c : Choice) (w : World) :
    (exec o c w).2.v4 = w.v4 := by
  cases o with
  | iptables f cmd =>
      cases ho
      rw [PrivacyGuard.exec]
      split
      · split <;> rfl
      · rfl
  | restore f d =>
      cases ho
      rfl
  | load | update kwargs | save f | writeBackup p d | readBackup p | strftime | sysctlRead k
  | sysctlWrite k v | external e => exact (exec_fw_of_not_changes id c w).1

theorem exec_of_ok {cmd : FwCommand Match} {c : Choice} {w : World}
    (h : CmdResult.ok (exec (.iptables .v4 cmd) c w).1 = true) :
    w.v4.exec cmd = .ok (exec (.iptables .v4 cmd) c w).2.v4 := by
  rw [exec] at h ⊢
  split at h
  · rename_i hc
    rw [if_pos hc]
    split at h
    · rename_i F hF
      exact hF
    · cases h
  · cases h

inductive Performs : List (Event sig) → List (FwCommand Match) → Prop
  | nil : Performs [] []
  | command {tr : List (Event sig)} {cs : List (FwCommand Match)} (c : FwCommand Match)
      (r : CmdResult) (hr : r.ok = true) (h : Performs tr cs) :
      Performs (⟨.iptables .v4 c, r⟩ :: tr) (c :: cs)
  | other {tr : List (Event sig)} {cs : List (FwCommand Match)} {e : Event sig}
      (he : KeepsV4 e.1) (h : Performs tr cs) : Performs (e :: tr) cs

namespace Performs

theorem append {tr₁ tr₂ : List (Event sig)} {cs₁ cs₂ : List (FwCommand Match)}
    (h₁ : Performs tr₁ cs₁) (h₂ : Performs tr₂ cs₂) : Performs (tr₁ ++ tr₂) (cs₁ ++ cs₂) := by
  induction h₁ with
  | nil => exact h₂
  | command c r hr _ ih => exact .command c r hr ih
  | other he _ ih => exact .other he ih

/-- The events up to some moment have performed an initial part of the commands. -/
theorem of_append {tr₁ tr₂ : List (Event sig)} {cs : List (FwCommand Match)}
    (h : Performs (tr₁ ++ tr₂) cs) :
    ∃ cs₁ cs₂, cs = cs₁ ++ cs₂ ∧ Performs tr₁ cs₁ ∧ Performs tr₂ cs₂ := by
  induction tr₁ generalizing cs with
  | nil => exact ⟨[], cs, rfl, .nil, h⟩
  | cons e tr₁ ih =>
      cases h with
      | command c r hr h =>
          obtain ⟨cs₁, cs₂, rfl, h₁, h₂⟩ := ih h
          exact ⟨c :: cs₁, cs₂, rfl, .command c r hr h₁, h₂⟩
      | other he h =>
          obtain ⟨cs₁, cs₂, rfl, h₁, h₂⟩ := ih h
          exact ⟨cs₁, cs₂, rfl, .other he h₁, h₂⟩

/-- The moment after the first command. -/
theorem of_cons {tr : List (Event sig)} {c : FwCommand Match} {cs : List (FwCommand Match)}
    (h : Performs tr (c :: cs)) :
    ∃ tr₁ tr₂, tr = tr₁ ++ tr₂ ∧ Performs tr₁ [c] ∧ Performs tr₂ cs := by
  induction tr with
  | nil => cases h
  | cons e tr ih =>
      cases h with
      | command _ r hr h => exact ⟨[_], tr, rfl, .command c r hr .nil, h⟩
      | other he h =>
          obtain ⟨tr₁, tr₂, rfl, h₁, h₂⟩ := ih h
          exact ⟨e :: tr₁, tr₂, rfl, .other he h₁, h₂⟩

/-- What the events have done to the firewall. -/
theorem applied {A : Op → Choice → World → Prop} {α : Type} {p q : Proc α} {s s' : World}
    {tr : List (Event sig)} {cs : List (FwCommand Match)} (h : Performs tr cs)
    (hsteps : Prog.Steps (machine A) p s tr q s') :
    Firewall.Applied Firewall.noSkip cs s.v4 s'.v4 := by
  induction hsteps generalizing cs with
  | refl p s =>
      cases h
      exact .nil _
  | @call o k s x tr q s' _ _ ih =>
      cases h with
      | other he h =>
          have hrest := ih h
          rwa [show (machine A).exec o x s = exec o x s from rfl, he.exec] at hrest
      | command c r hr h =>
          exact .cons (exec_of_ok hr) (ih h)

end Performs

/-! ## The commands of an enable function -/

section

variable {α : Type} {env : Environment}

theorem performs_nil {p : Proc α} (hp : p.all KeepsV4) {tr : List (Event sig)} {a : α}
    (h : p.Trace tr a) : Performs tr [] := by
  induction h with
  | ret a => exact .nil
  | call r _ ih => exact .other hp.1 (ih (hp.2 r))

theorem keepsV4_of_quiet {p : Proc α} (hp : p.all Quiet) : p.all KeepsV4 :=
  Prog.all_mono hp fun o ho => by
    obtain ⟨e, rfl⟩ := ho
    trivial

theorem backupRules_keepsV4 (label : String) : (backupRules env label).all KeepsV4 :=
  Prog.all_mono (backupRules_changes env label) fun o ho => by
    cases o with
    | iptables f c => exact absurd trivial ho
    | restore f d => exact absurd trivial ho
    | _ => trivial

theorem finish_keepsV4 {m : Mode} (a : Activation m) (b : Backups) :
    (a.finish env b).all KeepsV4 :=
  a.finish_all trivial trivial trivial fun _ => rfl

/-- Without tolerated messages, the loop answers yes only if no rule has failed. -/
theorem performs_applyRules :
    ∀ (rules : List Invocation) (ok : Bool) (tr : List (Event sig)),
      (∀ r ∈ rules, r.tool = .v4) → (applyRules [] rules ok).Trace tr true →
      ok = true ∧ Performs tr (rules.map (·.command)) := by
  intro rules
  induction rules with
  | nil =>
      intro ok tr _ h
      obtain ⟨rfl, rfl⟩ := Prog.Trace.of_ret h
      exact ⟨rfl, .nil⟩
  | cons rule rules ih =>
      intro ok tr hv4 h
      have hrest : ∀ r ∈ rules, r.tool = .v4 := fun r hr => hv4 r (List.mem_cons_of_mem _ hr)
      obtain ⟨tool, cmd⟩ := rule
      obtain rfl : tool = .v4 := hv4 _ List.mem_cons_self
      rw [applyRules] at h
      obtain ⟨tr₁, r, tr₂, h₁, h₂, rfl⟩ := Prog.Trace.of_bind h
      cases h₁ with
      | call r h₁ =>
          obtain ⟨rfl, rfl⟩ := Prog.Trace.of_ret h₁
          by_cases hok : r.ok = true
          · rw [if_pos (by rw [hok, Bool.true_or])] at h₂
            obtain ⟨hk, hp⟩ := ih ok tr₂ hrest h₂
            exact ⟨hk, .command cmd r hok hp⟩
          · rw [if_neg (by simpa [tolerated] using hok)] at h₂
            exact absurd (ih false tr₂ hrest h₂).1 Bool.false_ne_true

/-- `apply_ruleset` and what follows it, when the answer is yes in the end. -/
theorem performs_applyRuleset {rules : List Invocation} {label : String}
    {f : Bool × Backups → Proc Bool} (hv4 : ∀ r ∈ rules, r.tool = .v4)
    (hfail : ∀ b, f (false, b) = pure false) (hok : ∀ b, (f (true, b)).all KeepsV4)
    {tr : List (Event sig)} (h : (applyRuleset env rules label [] >>= f).Trace tr true) :
    Performs tr (rules.map (·.command)) := by
  obtain ⟨tr₁, ⟨ok, b⟩, tr₂, h₁, h₂, rfl⟩ := Prog.Trace.of_bind h
  rw [applyRuleset] at h₁
  obtain ⟨tr₃, b', tr₄, h₃, h₄, rfl⟩ := Prog.Trace.of_bind h₁
  obtain ⟨tr₅, ok', tr₆, h₅, h₆, rfl⟩ := Prog.Trace.of_bind h₄
  have hbackup := performs_nil (backupRules_keepsV4 label) h₃
  cases ok' with
  | true =>
      obtain ⟨rfl, hr⟩ := Prog.Trace.of_ret h₆
      cases hr
      obtain ⟨-, hrules⟩ := performs_applyRules rules true tr₅ hv4 h₅
      have hend := performs_nil (hok _) h₂
      simpa using (hbackup.append (hrules.append .nil)).append hend
  | false =>
      -- rolled back: the answer is no
      obtain ⟨tr₇, u, tr₈, -, h₈, rfl⟩ := Prog.Trace.of_bind (show
        (restoreRules env b'.ipv4 b'.ipv6 >>= fun _ => pure (false, b')).Trace tr₆ (ok, b) from h₆)
      obtain ⟨-, hr⟩ := Prog.Trace.of_ret h₈
      cases hr
      rw [hfail] at h₂
      obtain ⟨-, hno⟩ := Prog.Trace.of_ret h₂
      cases hno

/-- A guard that makes the function answer no has been passed. -/
theorem trace_of_guard {b : Prop} [Decidable b] {p : Proc Bool} {tr : List (Event sig)}
    (h : (if b then pure false else p).Trace tr true) : p.Trace tr true := by
  split at h
  · obtain ⟨-, hno⟩ := Prog.Trace.of_ret h
    cases hno
  · exact h

/-- The check of the mode's own flag, right at the beginning: the mode has been found on, or
the rest of the call follows. -/
theorem trace_of_check {m : Mode} {force : Bool} {p : Saved → Proc Bool}
    {tr : List (Event sig)}
    (h : (load >>= fun st => if m.active st && !force then pure true else p st).Trace tr true) :
    (∃ st : Saved, tr = [⟨.load, st⟩] ∧ m.active st = true ∧ force ≠ true) ∨
      ∃ (st : Saved) (tr' : List (Event sig)), tr = ⟨.load, st⟩ :: tr' ∧
        (p st).Trace tr' true := by
  obtain ⟨tr₁, st, tr₂, h₁, h₂, rfl⟩ := Prog.Trace.of_bind h
  cases h₁ with
  | call r h₁ =>
      obtain ⟨rfl, rfl⟩ := Prog.Trace.of_ret h₁
      split at h₂
      · rename_i hon
        obtain ⟨rfl, -⟩ := Prog.Trace.of_ret h₂
        rw [Bool.and_eq_true, Bool.not_eq_true'] at hon
        exact Or.inl ⟨st, rfl, hon.1, by rw [hon.2]; exact Bool.false_ne_true⟩
      · exact Or.inr ⟨st, tr₂, rfl, h₂⟩

/-- Operations that leave the IPv4 firewall alone come before the rest. -/
theorem performs_bind {p : Proc α} (hp : p.all KeepsV4) {f : α → Proc Bool}
    {cs : List (FwCommand Match)} {tr : List (Event sig)}
    (hf : ∀ a tr', (f a).Trace tr' true → Performs tr' cs) (h : (p >>= f).Trace tr true) :
    Performs tr cs := by
  obtain ⟨tr₁, a, tr₂, h₁, h₂, rfl⟩ := Prog.Trace.of_bind h
  exact (performs_nil hp h₁).append (hf a tr₂ h₂)

theorem enableKillSwitch_performs {force : Bool} {timeout : Int} {tr : List (Event sig)}
    (h : (enableKillSwitch env force timeout).Trace tr true) :
    (∃ st : Saved, tr = [⟨.load, st⟩] ∧ Mode.tor.active st = true ∧ force ≠ true) ∨
      Performs tr (torRules.map (·.command)) := by
  have hbody := trace_of_guard (trace_of_guard (trace_of_guard h))
  rcases trace_of_check (m := .tor) hbody with hon | ⟨st, tr', rfl, hrest⟩
  · exact Or.inl hon
  refine Or.inr (.other trivial ?_)
  -- the torrc and the wait for Tor come before the rules
  refine performs_bind (keepsV4_of_quiet (quiet_external _)) (fun c tr' h => ?_)
    (trace_of_guard hrest)
  refine performs_bind (keepsV4_of_quiet (restartTor_quiet c)) (fun _ tr' h => ?_) h
  refine performs_bind (keepsV4_of_quiet (waitForTorBootstrap_quiet env timeout))
    (fun reachable tr' h => ?_) h
  exact performs_applyRuleset torActivation.rules_v4 (fun _ => rfl)
    (fun b => finish_keepsV4 torActivation b) (trace_of_guard h)

theorem enableGateway_performs {a : GatewayArgs} {force : Bool} {tr : List (Event sig)}
    (h : (enableGateway env a force).Trace tr true) :
    (∃ st : Saved, tr = [⟨.load, st⟩] ∧ Mode.gateway.active st = true ∧ force ≠ true) ∨
      Performs tr ((gatewayRules a.internalIface).map (·.command)) := by
  have hbody := trace_of_guard (trace_of_guard (trace_of_guard h))
  rcases trace_of_check (m := .gateway) hbody with hon | ⟨st, tr', rfl, hrest⟩
  · exact Or.inl hon
  refine Or.inr (.other trivial ?_)
  refine performs_bind (keepsV4_of_quiet (quiet_external _)) (fun _ tr' h => ?_)
    (trace_of_guard hrest)
  exact performs_applyRuleset (gatewayRules_tool a.internalIface) (fun _ => rfl)
    (fun b => finish_keepsV4 (gatewayActivation a) b) h

/-- **The commands of a call that answers yes.** It has found its mode on, at its first
operation, or it has performed its rule list. -/
theorem Action.performs {x : Action} (hx : x.routesToTor) {tr : List (Event sig)}
    (h : x.body.Trace tr true) :
    (∃ st : Saved, tr = [⟨.load, st⟩] ∧ ¬ x.Proceeds st) ∨
      Performs tr (x.rules.map (·.command)) := by
  cases x with
  | enableKillSwitch env force t =>
      refine (enableKillSwitch_performs h).imp ?_ id
      rintro ⟨st, rfl, hon, hforce⟩
      exact ⟨st, rfl, fun hp => hforce (hp .tor rfl hon)⟩
  | enableGateway env a force =>
      refine (enableGateway_performs h).imp ?_ id
      rintro ⟨st, rfl, hon, hforce⟩
      exact ⟨st, rfl, fun hp => hforce (hp .gateway rfl hon)⟩
  | _ => rcases hx with hx | hx <;> cases hx

end

end PrivacyGuard
