import PrivacyGuard.Effect.History
import PrivacyGuard.Netfilter.Additions
import PrivacyGuard.Model.AntiRecon

set_option autoImplicit false

/-! # What is left of a call that fails

`enable_portscan_protection` and `block_ipv6` do not go through `apply_ruleset`: what their
commands have done stays when they answer no. `succeeded` are the commands of a run that have
succeeded. Together they make of the firewall from before what is left of it. When a call is
interrupted, those do that have not been undone by a rollback (`notUndone`). -/

namespace PrivacyGuard

open Netfilter Effect

/-- The command on the firewall of the family `f` that the event shows to have succeeded. -/
def succeeds? (f : Family) : Event sig → Option (FwCommand Match)
  | ⟨.iptables g c, r⟩ => if g = f ∧ CmdResult.ok r = true then some c else none
  | _ => none

/-- The commands on the firewall of the family `f` that have succeeded. -/
def succeeded (f : Family) (tr : List (Event sig)) : List (FwCommand Match) :=
  tr.filterMap (succeeds? f)

/-- The operation is not a restoration of the firewall of the family `f`. -/
def RestoresNot (f : Family) (o : Op) : Prop := ∀ d, o ≠ .restore f d

section

variable {A : Op → Choice → World → Prop} {f : Family} {α : Type}

theorem succeeds_iptables (g : Family) (c : FwCommand Match) (r : CmdResult) :
    succeeds? f ⟨.iptables g c, r⟩ = if g = f ∧ r.ok = true then some c else none := rfl

/-- What one operation does to the firewall. -/
theorem exec_fw {o : Op} (ho : RestoresNot f o) (c : Choice) (w : World) :
    (succeeds? f ⟨o, (exec o c w).1⟩ = none ∧ (exec o c w).2.fw f = w.fw f) ∨
      ∃ cmd, succeeds? f ⟨o, (exec o c w).1⟩ = some cmd ∧
        (w.fw f).exec cmd = .ok ((exec o c w).2.fw f) := by
  cases o with
  | iptables g cmd =>
      have hsucc : succeeds? f ⟨.iptables g cmd, (exec (.iptables g cmd) c w).1⟩ =
          if g = f ∧ CmdResult.ok (exec (.iptables g cmd) c w).1 = true then some cmd else none :=
        rfl
      rw [hsucc, exec]
      split
      · split
        · rename_i F hF
          by_cases hg : g = f
          · subst hg
            refine .inr ⟨cmd, if_pos ⟨rfl, rfl⟩, hF.trans ?_⟩
            cases g <;> rfl
          · refine .inl ⟨if_neg fun h => hg h.1, ?_⟩
            cases g <;> cases f <;> first | rfl | exact absurd rfl hg
        · exact .inl ⟨if_neg fun h => Bool.false_ne_true h.2, rfl⟩
      · exact .inl ⟨if_neg fun h => Bool.false_ne_true h.2, rfl⟩
  | restore g d =>
      refine .inl ⟨rfl, ?_⟩
      cases g <;> cases f <;> first | rfl | exact absurd rfl (ho d)
  | load | update kwargs | save g | writeBackup p d | readBackup p | strftime | sysctlRead k
  | sysctlWrite k v | external e =>
      cases f
      · exact .inl ⟨rfl, (exec_fw_of_not_changes id c w).1⟩
      · exact .inl ⟨rfl, (exec_fw_of_not_changes id c w).2⟩

/-- The commands that have succeeded have done all that has been done to the firewall. -/
theorem succeeded_applied_of_mem {p q : Proc α} {s s' : World} {tr : List (Event sig)}
    (h : Prog.Steps (machine A) p s tr q s') (hno : ∀ e ∈ tr, RestoresNot f e.1) :
    Firewall.Applied Firewall.noSkip (succeeded f tr) (s.fw f) (s'.fw f) := by
  induction h with
  | refl p s => exact .nil _
  | @call o k s x tr q s' _ _ ih =>
      rw [List.forall_mem_cons] at hno
      have hrest := ih hno.2
      show Firewall.Applied _ (List.filterMap _ (⟨o, (exec o x s).1⟩ :: tr)) _ _
      obtain ⟨hsucc, hsame⟩ | ⟨cmd, hsucc, hexec⟩ := exec_fw hno.1 x s
      · rw [List.filterMap_cons_none hsucc, ← hsame]
        exact hrest
      · rw [List.filterMap_cons_some hsucc]
        exact .cons hexec hrest

theorem succeeded_applied {p q : Proc α} {s s' : World} {tr : List (Event sig)}
    (h : Prog.Steps (machine A) p s tr q s') (hp : p.all (RestoresNot f)) :
    Firewall.Applied Firewall.noSkip (succeeded f tr) (s.fw f) (s'.fw f) :=
  succeeded_applied_of_mem h (h.forall_mem hp)

/-- Of the commands `cs` on the firewall of the family `f` that had succeeded since it was last
restored, and what the event has done. -/
def standing (f : Family) (cs : List (FwCommand Match)) : Event sig → List (FwCommand Match)
  | ⟨.restore g _, restored⟩ => if g = f then cond restored [] cs else cs
  | e => cs ++ (succeeds? f e).toList

/-- The commands on the firewall of the family `f` that have succeeded since it was last
restored. -/
def notUndone (f : Family) (tr : List (Event sig)) : List (FwCommand Match) :=
  tr.foldl (standing f) []

/-- A firewall is restored to what it is in `w`. -/
def PutsBack (w : World) (o : Op) : Prop := ∀ f d, o = .restore f d → d = w.fw f

theorem fw_of_step (hA : Restores A) {o : Op} {c : Choice} {w s : World}
    {cs : List (FwCommand Match)} (hc : A o c s) (ho : PutsBack w o)
    (hs : s.fw f = (w.fw f).perform cs) :
    (exec o c s).2.fw f = (w.fw f).perform (standing f cs ⟨o, (exec o c s).1⟩) := by
  by_cases hno : RestoresNot f o
  · have hstanding : standing f cs ⟨o, (exec o c s).1⟩ =
        cs ++ (succeeds? f ⟨o, (exec o c s).1⟩).toList := by
      cases o with
      | restore g d =>
          rw [standing, if_neg fun h => hno d (by rw [h])]
          exact (List.append_nil cs).symm
      | _ => rfl
    rw [hstanding, Firewall.perform_append, ← hs]
    obtain ⟨hsucc, hsame⟩ | ⟨cmd, hsucc, hexec⟩ := exec_fw hno c s
    · rw [hsucc, hsame]
      rfl
    · rw [hsucc, Option.toList_some, Firewall.perform_ok hexec]
      rfl
  · obtain ⟨d, rfl⟩ : ∃ d, o = .restore f d := by simpa [RestoresNot] using hno
    obtain ⟨hok, hnone⟩ := hA.restore f d c s hc
    have hstanding : standing f cs ⟨.restore f d, (exec (.restore f d) c s).1⟩ = [] :=
      (if_pos rfl).trans (congrArg (fun b => cond b [] cs) hok)
    rw [hstanding, exec, hnone, hok, ho f d rfl]
    cases f <;> rfl

/-- Where restoring works and puts back the firewall of `w`, the firewall of an interrupted run is
what the commands not undone make of that. -/
theorem fw_of_steps (hA : Restores A) {p q : Proc α} {w s s' : World} {tr : List (Event sig)}
    {cs : List (FwCommand Match)} (h : Prog.Steps (machine A) p s tr q s')
    (hback : ∀ e ∈ tr, PutsBack w e.1) (hs : s.fw f = (w.fw f).perform cs) :
    s'.fw f = (w.fw f).perform (tr.foldl (standing f) cs) := by
  induction h generalizing cs with
  | refl p s => exact hs
  | call c hc _ ih =>
      rw [List.forall_mem_cons] at hback
      exact ih hback.2 (fw_of_step hA hc hback.1 hs)

/-- The loop over a rule list goes on after a failure. -/
theorem succeeded_applyRules {tolerate : List String} :
    ∀ (rules : List Invocation) (ok : Bool) (tr : List (Event sig)) (b : Bool),
      (applyRules tolerate rules ok).Trace tr b →
      (succeeded f tr).Sublist (rules.map (·.command)) := by
  intro rules
  induction rules with
  | nil =>
      intro ok tr b h
      obtain ⟨rfl, -⟩ := Prog.Trace.of_ret h
      exact List.Sublist.refl _
  | cons rule rules ih =>
      intro ok tr b h
      rw [applyRules] at h
      obtain ⟨tr₁, r, tr₂, h₁, h₂, rfl⟩ := Prog.Trace.of_bind h
      cases h₁ with
      | call r h₁ =>
          obtain ⟨rfl, rfl⟩ := Prog.Trace.of_ret h₁
          have hrest : (succeeded f tr₂).Sublist (rules.map (·.command)) := by
            split at h₂
            · exact ih ok tr₂ b h₂
            · exact ih false tr₂ b h₂
          rw [List.singleton_append, succeeded, List.filterMap_cons, succeeds_iptables]
          by_cases hok : rule.tool = f ∧ r.ok = true
          · rw [if_pos hok]
            exact hrest.cons_cons _
          · rw [if_neg hok]
            exact hrest.cons _

/-- The commands run with `check=True` end with the first failure. -/
theorem succeeded_runChecked :
    ∀ (cs : List (FwCommand Match)) (tr : List (Event sig)) (b : Bool),
      (runChecked f cs).Trace tr b →
      ∃ rest, cs = succeeded f tr ++ rest ∧ (b = true ↔ rest = []) := by
  intro cs
  induction cs with
  | nil =>
      intro tr b h
      obtain ⟨rfl, rfl⟩ := Prog.Trace.of_ret h
      exact ⟨[], rfl, iff_of_true rfl rfl⟩
  | cons c cs ih =>
      intro tr b h
      rw [runChecked] at h
      obtain ⟨tr₁, r, tr₂, h₁, h₂, rfl⟩ := Prog.Trace.of_bind h
      cases h₁ with
      | call r h₁ =>
          obtain ⟨rfl, rfl⟩ := Prog.Trace.of_ret h₁
          rw [List.singleton_append, succeeded, List.filterMap_cons, succeeds_iptables]
          by_cases hok : r.ok = true
          · rw [if_pos hok] at h₂
            rw [if_pos ⟨rfl, hok⟩]
            obtain ⟨rest, hcs, hb⟩ := ih tr₂ b h₂
            exact ⟨rest, congrArg (c :: ·) hcs, hb⟩
          · rw [if_neg hok] at h₂
            obtain ⟨rfl, rfl⟩ := Prog.Trace.of_ret h₂
            rw [if_neg fun h => hok h.2]
            exact ⟨c :: cs, rfl, iff_of_false Bool.false_ne_true (List.cons_ne_nil _ _)⟩

/-- A program without commands on the firewall. -/
theorem succeeded_eq_nil {p : Proc α} (hp : p.all fun o : Op => ∀ c, o ≠ .iptables f c)
    {tr : List (Event sig)} {a : α} (h : p.Trace tr a) : succeeded f tr = [] := by
  induction h with
  | ret a => rfl
  | @call o k r tr a _ ih =>
      have hnone : succeeds? f ⟨o, r⟩ = none := by
        cases o with
        | iptables g c =>
            refine (succeeds_iptables g c r).trans (if_neg ?_)
            rintro ⟨rfl, -⟩
            exact hp.1 c rfl
        | _ => rfl
      rw [succeeded, List.filterMap_cons_none hnone]
      exact ih (hp.2 r)

/-! ## The two functions -/

/-- What a run has done that answers no although it has got as far as the saved state: the part
that switches the protection on has answered no. -/
theorem trace_recorded_no {active : Saved → Bool} {p : Proc Bool} {kwargs : List Field}
    {tr : List (Event sig)}
    (h : (load >>= fun st => if active st then pure true
      else p >>= fun ok => if !ok then pure false
        else update kwargs >>= fun _ => pure true).Trace tr false) :
    ∃ tr', p.Trace tr' false ∧ ∀ f, succeeded f tr = succeeded f tr' := by
  obtain ⟨tr₁, st, tr₂, h₁, h₂, rfl⟩ := Prog.Trace.of_bind h
  cases h₁ with
  | call st h₁ =>
      obtain ⟨rfl, rfl⟩ := Prog.Trace.of_ret h₁
      split at h₂
      · obtain ⟨-, hno⟩ := Prog.Trace.of_ret h₂
        cases hno
      obtain ⟨tr₃, ok, tr₄, h₃, h₄, rfl⟩ := Prog.Trace.of_bind h₂
      cases ok with
      | true =>
          obtain ⟨tr₅, u, tr₆, -, h₆, rfl⟩ := Prog.Trace.of_bind
            (show (update kwargs >>= fun _ => pure true).Trace tr₄ false from h₄)
          obtain ⟨-, hno⟩ := Prog.Trace.of_ret h₆
          cases hno
      | false =>
          obtain ⟨rfl, -⟩ := Prog.Trace.of_ret h₄
          rw [List.append_nil]
          exact ⟨tr₃, h₃, fun f => rfl⟩

variable {env : Environment} {p : PortscanParams} {force : Bool}

/-- The commands of a call of `enable_portscan_protection` that answers no. -/
theorem succeeded_portscan {tr : List (Event sig)}
    (h : (enablePortscanProtection env p force).Trace tr false) :
    (succeeded .v4 tr).Sublist (portscanCommands p) := by
  rw [enablePortscanProtection] at h
  split at h
  · obtain ⟨rfl, -⟩ := Prog.Trace.of_ret h
    exact List.nil_sublist _
  split at h
  · obtain ⟨rfl, -⟩ := Prog.Trace.of_ret h
    exact List.nil_sublist _
  obtain ⟨tr', h', hsame⟩ := trace_recorded_no h
  rw [hsame]
  exact succeeded_applyRules (f := .v4) _ _ _ _ h'

/-- Those of a call of `block_ipv6`. -/
theorem succeeded_blockIpv6 {tr : List (Event sig)} (h : (blockIpv6 env).Trace tr false) :
    ∃ rest, blockIpv6Commands = succeeded .v6 tr ++ rest ∧ rest ≠ [] := by
  rw [blockIpv6] at h
  split at h
  · obtain ⟨rfl, -⟩ := Prog.Trace.of_ret h
    exact ⟨_, rfl, by decide⟩
  obtain ⟨tr', h', hsame⟩ := trace_recorded_no h
  obtain ⟨rest, hcs, hrest⟩ := succeeded_runChecked _ _ _ h'
  rw [hsame]
  exact ⟨rest, hcs, fun he => Bool.false_ne_true (hrest.mpr he)⟩

end

end PrivacyGuard
