import PrivacyGuard.Netfilter.Effects

set_option autoImplicit false

/-! # What a table does to a packet

A packet enters a table at a hook and meets the hook's rules in order. The first matching
rule decides, unless its target returns, jumps or only leaves a note; a packet that reaches
the end of the hook gets the hook's policy.

Which packets meet a match, and what a target unknown to the model does, is left open: a
`Meaning` says so, and results hold for every meaning. Jumps nest at most `stack` deep; the
kernel drops a packet that would go deeper.
-/

namespace Netfilter

variable {H M P : Type}

inductive Verdict
  | accept
  | drop
  | reject
  | redirect (port : Nat)
  | other (name : String)
  deriving DecidableEq, Repr

def Policy.verdict : Policy → Verdict
  | .accept => .accept
  | .drop => .drop

/-- How packets of type `P` meet matches of type `M`. -/
structure Meaning (M P : Type) where
  holds : M → P → Bool
  ext : String → P → Option Verdict
  stack : Nat

/-- The decision of a list of rules; `callee` decides for the chains they lead to, and
`none` means that the packet reached the end or was sent back. -/
def decideRules (holds : M → Bool) (ext callee : String → Option Verdict) :
    List (Rule M) → Option Verdict
  | [] => none
  | r :: rs =>
      if r.conds.all holds then
        match r.target with
        | .accept => some .accept
        | .drop => some .drop
        | .reject => some .reject
        | .ret => none
        | .goto c => callee c
        | .jump c => (callee c).or (decideRules holds ext callee rs)
        | .log _ => decideRules holds ext callee rs
        | .redirect n => some (.redirect n)
        | .ext e => (ext e).or (decideRules holds ext callee rs)
      else decideRules holds ext callee rs

namespace Table

/-- The decision of the user chain `c`, entered with `n` levels of the jump stack left. -/
def decideChain (t : Table H M) (m : Meaning M P) (p : P) : Nat → String → Option Verdict
  | 0, _ => some .drop
  | n + 1, c =>
      decideRules (m.holds · p) (m.ext · p) (t.decideChain m p n) ((t.user.lookup c).getD [])

/-- The verdict of the table on a packet that enters it at the hook `h`. -/
def verdict (t : Table H M) (m : Meaning M P) (h : H) (p : P) : Verdict :=
  (decideRules (m.holds · p) (m.ext · p) (t.decideChain m p m.stack) (t.hook h)).getD
    (t.policy h).verdict

/-- The table lets every packet pass unchanged, at every hook. -/
def Transparent (t : Table H M) (m : Meaning M P) : Prop :=
  ∀ h p, t.verdict m h p = .accept

theorem verdict_of_hook_nil {t : Table H M} {h : H} (hh : t.hook h = []) (m : Meaning M P)
    (p : P) : t.verdict m h p = (t.policy h).verdict := by
  rw [verdict, hh]
  rfl

/-- The rule without conditions that drops everything. -/
def dropAll : Rule M := ⟨[], .drop⟩

theorem verdict_of_hook_dropAll {t : Table H M} {h : H} (hh : t.hook h = [dropAll])
    (m : Meaning M P) (p : P) : t.verdict m h p = .drop := by
  rw [verdict, hh]
  rfl

/-- A hook that accepts by a list of rules and drops the rest accepts exactly the packets
that meet every condition of one of the rules. -/
theorem verdict_allowlist {t : Table H M} {h : H} {rs : List (Rule M)}
    (hh : t.hook h = rs ++ [dropAll]) (hrs : ∀ r ∈ rs, r.target = .accept)
    (m : Meaning M P) (p : P) :
    t.verdict m h p = .accept ↔ ∃ r ∈ rs, r.conds.all (m.holds · p) = true := by
  rw [verdict, hh]
  generalize t.decideChain m p m.stack = callee
  clear hh
  induction rs with
  | nil => simp [decideRules, dropAll]
  | cons r rs ih =>
      have hr : r.target = .accept := hrs r List.mem_cons_self
      have hrest := ih fun r' hr' => hrs r' (List.mem_cons_of_mem _ hr')
      rw [List.cons_append, decideRules, hr]
      -- the first rule decides, or the rest of the list does
      by_cases hc : r.conds.all (m.holds · p) = true
      · rw [if_pos hc]
        exact ⟨fun _ => ⟨r, List.mem_cons_self, hc⟩, fun _ => rfl⟩
      · simp only [if_neg hc, hrest, List.mem_cons, exists_eq_or_imp]
        exact ⟨Or.inr, fun h => h.resolve_left hc⟩

/-- It drops all others. -/
theorem verdict_allowlist_cases {t : Table H M} {h : H} {rs : List (Rule M)}
    (hh : t.hook h = rs ++ [dropAll]) (hrs : ∀ r ∈ rs, r.target = .accept)
    (m : Meaning M P) (p : P) : t.verdict m h p = .accept ∨ t.verdict m h p = .drop := by
  rw [verdict, hh]
  generalize t.decideChain m p m.stack = callee
  clear hh
  induction rs with
  | nil => exact .inr rfl
  | cons r rs ih =>
      have hr : r.target = .accept := hrs r List.mem_cons_self
      rw [List.cons_append, decideRules, hr]
      by_cases hc : r.conds.all (m.holds · p) = true
      · rw [if_pos hc]
        exact .inl rfl
      · rw [if_neg hc]
        exact ih fun r' hr' => hrs r' (List.mem_cons_of_mem _ hr')

/-- Where `t?`, if there is such a table, has taken the place of `u?`, every packet is
treated as by `t?` exactly if there was one, or `u?` lets everything pass. -/
theorem verdict_or_iff {t? u? : Option (Table H M)} {m : Meaning M P} :
    (∀ h p, ((t?.or u?).getD .fresh).verdict m h p = (t?.getD .fresh).verdict m h p) ↔
      (t? = none → (u?.getD .fresh).Transparent m) := by
  cases t? with
  | some t => exact ⟨fun _ h => (nomatch h), fun _ _ _ => rfl⟩
  | none => exact ⟨fun hall _ h p => hall h p, fun htr h p => htr rfl h p⟩

end Table

end Netfilter
