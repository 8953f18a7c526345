import PrivacyGuard.Model.FirewallBackup

set_option autoImplicit false

/-! # Blocking IPv6

`block_ipv6` of `core.py`, with which every mode ends, and the commands a mode may run on
the IPv6 firewall before that. -/

namespace PrivacyGuard

open Netfilter Effect

/-- Commands run with `check=True`: the first failure ends the sequence. -/
def runChecked (f : Family) : List (FwCommand Match) → Proc Bool
  | [] => pure true
  | c :: cs => do
      let result ← iptables f c
      if result.ok then runChecked f cs else pure false

def blockIpv6Commands : List (FwCommand Match) := [
  .filter .flushAll,
  .filter (.policy .input .drop),
  .filter (.policy .output .drop),
  .filter (.policy .forward .drop),
  .filter (.append (.hook .output) ⟨[.outIface "lo"], .accept⟩),
  .filter (.append (.hook .input) ⟨[.inIface false "lo"], .accept⟩)]

def blockIpv6 (env : Environment) : Proc Bool := do
  if env.termux || !env.root || !env.hasIp6tables then
    return false
  let st ← load
  -- blocked already, as far as the saved state knows
  if st.ipv6Blocked then
    return true
  let ok ← runChecked .v6 blockIpv6Commands
  if !ok then
    return false
  update [.ipv6Blocked true]
  return true

/-- Commands on the IPv6 firewall that may all fail. -/
def lockIpv6 (env : Environment) (cs : List (FwCommand Match)) : Proc Unit :=
  if !cs.isEmpty && env.hasIp6tables then runAll .v6 cs else pure ()

/-- `s` is `s₁`, except perhaps that IPv6 has been recorded as blocked since. -/
def BlockRecorded (s₁ s : Saved) : Prop :=
  s = s₁ ∨ ∃ now, s = s₁.update [.ipv6Blocked true] now

section

variable {A : Op → Choice → World → Prop} {I : World → Prop} {env : Environment} {w : World}

theorem runChecked_along {f : Family} {Q : Bool → World → Prop} :
    ∀ (cs : List (FwCommand Match)) (w : World),
      (∀ b F, I (w.setFw f F) ∧ Q b (w.setFw f F)) →
      (runChecked f cs).along (machine A) I Q w := by
  intro cs
  induction cs with
  | nil =>
      intro w h
      have h' := h true (w.fw f)
      cases f <;> exact h'
  | cons c cs ih =>
      intro w h
      have hself : ∀ b, I w ∧ Q b w := by
        intro b
        have h' := h b (w.fw f)
        cases f <;> exact h'
      rw [runChecked, Prog.along_bind]
      refine along_iptables (hself true).1 (fun G _ => ⟨(h true G).1, ?_⟩) fun e _ => hself false
      have hset : ∀ F, (w.setFw f G).setFw f F = w.setFw f F := by intro F; cases f <;> rfl
      rw [if_pos rfl]
      exact ih _ fun b F => by rw [hset]; exact h b F

/-- `block_ipv6` changes the IPv6 firewall and its own flag, and nothing else. -/
theorem blockIpv6_along {Q : Bool → World → Prop}
    (h : ∀ b F6 s, (env.hasIp6tables = false → F6 = w.v6) → BlockRecorded w.saved s →
      I { w with v6 := F6, saved := s } ∧ Q b { w with v6 := F6, saved := s }) :
    (blockIpv6 env).along (machine A) I Q w := by
  have hself : ∀ b, I w ∧ Q b w := fun b => h b w.v6 w.saved (fun _ => rfl) (Or.inl rfl)
  rw [blockIpv6]
  split
  · exact hself false
  · rename_i hav
    have h6 : ∀ F6 : Fw, env.hasIp6tables = false → F6 = w.v6 := by
      intro F6 hno
      simp [hno] at hav
    rw [Prog.along_bind]
    refine along_load (hself true).1 ?_
    split
    · exact hself true
    · rw [Prog.along_bind]
      refine runChecked_along _ _ fun b F => ⟨(h b F w.saved (h6 F) (Or.inl rfl)).1, ?_⟩
      split
      · exact h false F w.saved (h6 F) (Or.inl rfl)
      · rw [Prog.along_bind]
        refine along_update (h true F w.saved (h6 F) (Or.inl rfl)).1 fun now => ?_
        have hdone := h true F _ (h6 F) (Or.inr ⟨now, rfl⟩)
        exact ⟨hdone.1, hdone⟩

theorem runChecked_all {P : Op → Prop} {f : Family} :
    ∀ cs : List (FwCommand Match), (∀ c ∈ cs, P (.iptables f c)) → (runChecked f cs).all P
  | [], _ => Prog.all_pure _
  | c :: cs, h => Prog.all_bind ((Prog.all_op _).mpr (h c List.mem_cons_self)) fun _ =>
      Prog.all_ite (runChecked_all cs fun d hd => h d (List.mem_cons_of_mem _ hd))
        (Prog.all_pure _)

/-- The operations of `block_ipv6`. -/
theorem blockIpv6_all {P : Op → Prop} (hload : P .load)
    (hupdate : P (.update [.ipv6Blocked true])) (hcmd : ∀ c, P (.iptables .v6 c)) :
    (blockIpv6 env).all P := by
  refine Prog.all_ite (Prog.all_pure _) (Prog.all_bind ((Prog.all_op _).mpr hload) fun st => ?_)
  refine Prog.all_ite (Prog.all_pure _) (Prog.all_bind (runChecked_all _ fun c _ => hcmd c) ?_)
  intro ok
  exact Prog.all_ite (Prog.all_pure _)
    (Prog.all_bind ((Prog.all_op _).mpr hupdate) fun _ => Prog.all_pure _)

theorem lockIpv6_along {cs : List (FwCommand Match)} {Q : Unit → World → Prop}
    (h : ∀ F6, (env.hasIp6tables = false → F6 = w.v6) →
      I { w with v6 := F6 } ∧ Q () { w with v6 := F6 }) :
    (lockIpv6 env cs).along (machine A) I Q w := by
  rw [lockIpv6]
  split
  · rename_i h6
    rw [Bool.and_eq_true] at h6
    exact runAll_along _ _ fun F => h F fun hno => absurd h6.2 (by simp [hno])
  · exact h w.v6 fun _ => rfl

end

end PrivacyGuard
