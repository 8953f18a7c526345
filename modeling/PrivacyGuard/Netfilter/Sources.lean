import PrivacyGuard.Netfilter.Firewall

set_option autoImplicit false

/-! # Blocking sources

Rules that drop what comes from an address, in front of the other rules of a hook. The address a
packet comes from is added to matches and packets of any types: `Sourced M` has the matches `M`
and the match `-s ip`. -/

namespace Netfilter

variable {H M P : Type}

inductive Sourced (M : Type)
  /-- `-s ip` -/
  | source (ip : String)
  | of (m : M)
  deriving DecidableEq

/-- A packet with the address it comes from. -/
structure From (P : Type) where
  src : String
  packet : P

def Meaning.sourced (m : Meaning M P) : Meaning (Sourced M) (From P) where
  holds
    | .source ip, p => decide (p.src = ip)
    | .of c, p => m.holds c p.packet
  ext e p := m.ext e p.packet
  stack := m.stack

/-- `-s ip -j DROP` -/
def dropFrom (ip : String) : Rule (Sourced M) := ⟨[.source ip], .drop⟩

theorem decideRules_dropFrom (m : Meaning M P) (p : From P) (ips : List String)
    (rs : List (Rule (Sourced M))) (callee : String → Option Verdict) :
    decideRules (m.sourced.holds · p) (m.sourced.ext · p) callee (ips.map dropFrom ++ rs) =
      if p.src ∈ ips then some .drop
      else decideRules (m.sourced.holds · p) (m.sourced.ext · p) callee rs := by
  induction ips with
  | nil => simp
  | cons ip ips ih =>
      rw [List.map_cons, List.cons_append, decideRules, ih]
      by_cases hsrc : p.src = ip
      · simp [dropFrom, Meaning.sourced, hsrc]
      · simp [dropFrom, Meaning.sourced, hsrc]

/-- The table `u` is `t` with rules in front of those of the hook `h` that drop what comes from
the addresses `ips`. -/
structure Table.Blocks (t : Table H (Sourced M)) (h : H) (ips : List String)
    (u : Table H (Sourced M)) : Prop where
  policy : u.policy = t.policy
  here : u.hook h = ips.map dropFrom ++ t.hook h
  elsewhere : ∀ k, k ≠ h → u.hook k = t.hook k
  user : u.user = t.user

namespace Table.Blocks

variable {t u : Table H (Sourced M)} {h : H} {ips : List String}

theorem refl (t : Table H (Sourced M)) (h : H) : t.Blocks h [] t :=
  ⟨rfl, rfl, fun _ _ => rfl, rfl⟩

theorem decideChain_eq {t u : Table H M} (h : u.user = t.user) (m : Meaning M P) (p : P)
    (n : Nat) (c : String) : u.decideChain m p n c = t.decideChain m p n c := by
  induction n generalizing c with
  | zero => rfl
  | succ n ih =>
      have hcallee : u.decideChain m p n = t.decideChain m p n := funext ih
      rw [Table.decideChain, Table.decideChain, h, hcallee]

/-- **The sources are blocked** at this hook, and nothing else is treated differently. -/
theorem verdict (hb : t.Blocks h ips u) (m : Meaning M P) (k : H) (p : From P) :
    (k = h → p.src ∈ ips → u.verdict m.sourced k p = .drop) ∧
      ((k = h → p.src ∉ ips) → u.verdict m.sourced k p = t.verdict m.sourced k p) := by
  have hcallee : u.decideChain m.sourced p m.sourced.stack =
      t.decideChain m.sourced p m.sourced.stack :=
    funext (decideChain_eq hb.user m.sourced p _)
  unfold Table.verdict
  rw [hcallee, hb.policy]
  by_cases hk : k = h
  · subst hk
    rw [hb.here, decideRules_dropFrom]
    constructor
    · intro _ hsrc
      rw [if_pos hsrc]
      rfl
    · intro hsrc
      rw [if_neg (hsrc rfl)]
  · rw [hb.elsewhere k hk]
    exact ⟨fun he => absurd he hk, fun _ => rfl⟩

/-- One more source is blocked by a rule at the first position. -/
theorem insert [DecidableEq H] [Fintype H] [DecidableEq M] (hb : t.Blocks h ips u) (ip : String) :
    ∃ u', u.exec (.insert (.hook h) 1 (dropFrom ip)) = .ok u' ∧ t.Blocks h (ip :: ips) u' := by
  have hfits : (Command.insert (.hook h) 1 (dropFrom (M := M) ip)).Fits [] :=
    Rule.resolvesIn_of_none rfl
  obtain ⟨u', hu', -⟩ := exec_fits hfits (List.nil_subset u.names)
  obtain ⟨hpolicy, hhook, huser⟩ := of_exec hu'
  have hupdate : u'.hook = Function.update u.hook h (dropFrom ip :: u.hook h) := hhook
  refine ⟨u', hu', hpolicy.trans hb.policy, ?_, ?_, huser.trans hb.user⟩
  · rw [hupdate, Function.update_self, hb.here]
    rfl
  · intro k hk
    rw [hupdate, Function.update_of_ne hk]
    exact hb.elsewhere k hk

end Table.Blocks

end Netfilter
