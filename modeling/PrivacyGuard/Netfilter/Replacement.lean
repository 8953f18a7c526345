import PrivacyGuard.Netfilter.Firewall

set_option autoImplicit false

/-! # A chain while its rules are replaced

A rule list that replaces the rules of a hook empties the chains first and then appends rules
one by one (`Replaces`). Between two commands the hook holds an initial part of its final
rules, and the policy decides about the packets these do not meet. Where the policy is `DROP`
from the beginning, a packet that is dropped in the end is dropped all along. -/

namespace Netfilter

variable {H M P : Type}

/-- Every packet the rule applies to is accepted, or every one is dropped. -/
def Rule.Decisive (r : Rule M) : Prop := r.target = .accept ∨ r.target = .drop

instance (r : Rule M) : Decidable r.Decisive :=
  inferInstanceAs (Decidable (_ ∨ _))

section

variable {holds : M → Bool} {ext : String → Option Verdict} {rs : List (Rule M)}

/-- Decisive rules lead to no other chain. -/
theorem decideRules_callee (hrs : ∀ r ∈ rs, r.Decisive) (c c' : String → Option Verdict) :
    decideRules holds ext c rs = decideRules holds ext c' rs := by
  induction rs with
  | nil => rfl
  | cons r rs ih =>
      have hrest := ih fun r' hr' => hrs r' (List.mem_cons_of_mem _ hr')
      rw [decideRules, decideRules, hrest]
      rcases hrs r List.mem_cons_self with hr | hr <;> rw [hr]

theorem decideRules_append (hrs : ∀ r ∈ rs, r.Decisive) (callee : String → Option Verdict)
    (rs' : List (Rule M)) :
    decideRules holds ext callee (rs ++ rs') =
      (decideRules holds ext callee rs).or (decideRules holds ext callee rs') := by
  induction rs with
  | nil => rfl
  | cons r rs ih =>
      have hrest := ih fun r' hr' => hrs r' (List.mem_cons_of_mem _ hr')
      rw [List.cons_append, decideRules, decideRules, hrest]
      -- the first rule decides, or the rest of the list does
      by_cases hc : r.conds.all holds = true
      · rw [if_pos hc, if_pos hc]
        rcases hrs r List.mem_cons_self with hr | hr <;> rw [hr] <;> rfl
      · rw [if_neg hc, if_neg hc]

end

/-- Where the policy drops, an initial part of the rules drops at least as much. -/
theorem Table.drops_of_prefix {t u : Table H M} {h : H} (hpre : t.hook h <+: u.hook h)
    (hrs : ∀ r ∈ t.hook h, r.Decisive) (hpol : t.policy h = .drop) {m : Meaning M P} {p : P}
    (hu : u.verdict m h p = .drop) : t.verdict m h p = .drop := by
  obtain ⟨rs, hrs'⟩ := hpre
  rw [verdict, ← hrs', decideRules_append hrs,
    decideRules_callee hrs _ (t.decideChain m p m.stack)] at hu
  rw [verdict, hpol]
  cases hd : decideRules (m.holds · p) (m.ext · p) (t.decideChain m p m.stack) (t.hook h) with
  | none => rfl
  | some v =>
      rw [hd] at hu
      exact hu

/-! ## The commands -/

namespace Command

variable [DecidableEq H]

/-- The command leaves the rules of the hook as they are, or appends a decisive one, and does
not open its policy. -/
def grows (h : H) : Command H M → Bool
  | .append (.hook k) r => decide (k ≠ h) || decide r.Decisive
  | .append (.user _) _ => true
  | .policy k p => decide (k ≠ h) || decide (p = .drop)
  | _ => false

omit [DecidableEq H] in
/-- The command empties one chain, or all. -/
def clears : Command H M → Bool
  | .flushAll | .flush _ => true
  | _ => false

/-- The commands empty the hook, and then build up its rules. -/
def Replaces (h : H) (cs : List (Command H M)) : Prop :=
  ∃ clear grow, cs = .flushAll :: (clear ++ grow) ∧ clear.all clears = true ∧
    grow.all (grows h) = true

variable {h : H} {c : Command H M} {cs : List (Command H M)}

theorem onPolicy_drop (hc : (c.clears || c.grows h) = true) {pol : H → Policy}
    (hpol : pol h = .drop) : c.onPolicy pol h = .drop := by
  cases c with
  | policy k p =>
      by_cases hk : k = h
      · subst hk
        have hp : p = .drop := by simpa [clears, grows] using hc
        rw [hp]
        exact Function.update_self _ _ _
      · exact (Function.update_of_ne (Ne.symm hk) _ _).trans hpol
  | _ => exact hpol

theorem policyAfter_drop (hcs : ∀ c ∈ cs, (c.clears || c.grows h) = true)
    {pol : H → Policy} (hpol : pol h = .drop) : policyAfter cs pol h = .drop := by
  induction cs generalizing pol with
  | nil => exact hpol
  | cons c cs ih =>
      exact ih (fun d hd => hcs d (List.mem_cons_of_mem _ hd))
        (onPolicy_drop (hcs c List.mem_cons_self) hpol)

variable [DecidableEq M]

theorem onHook_nil (hc : c.clears = true) {k : H → List (Rule M)} (hk : k h = []) :
    c.onHook k h = [] := by
  cases c with
  | flushAll => rfl
  | flush d =>
      cases d with
      | hook x =>
          by_cases hx : h = x
          · subst hx
            exact Function.update_self _ _ _
          · exact (Function.update_of_ne hx _ _).trans hk
      | user n => exact hk
  | _ => cases hc

theorem hookAfter_nil (hcs : ∀ c ∈ cs, c.clears = true) {k : H → List (Rule M)}
    (hk : k h = []) : hookAfter cs k h = [] := by
  induction cs generalizing k with
  | nil => exact hk
  | cons c cs ih =>
      exact ih (fun d hd => hcs d (List.mem_cons_of_mem _ hd))
        (onHook_nil (hcs c List.mem_cons_self) hk)

theorem onHook_grows (hc : c.grows h = true) (k : H → List (Rule M)) :
    ∃ rs, c.onHook k h = k h ++ rs ∧ ∀ r ∈ rs, r.Decisive := by
  cases c with
  | append d r =>
      cases d with
      | hook x =>
          by_cases hx : x = h
          · subst hx
            have hr : r.Decisive := by simpa [grows] using hc
            exact ⟨[r], Function.update_self _ _ _, by simpa using hr⟩
          · exact ⟨[], (Function.update_of_ne (Ne.symm hx) _ _).trans (List.append_nil _).symm,
              fun _ h => (nomatch h)⟩
      | user n => exact ⟨[], (List.append_nil _).symm, fun _ h => (nomatch h)⟩
  | policy x p => exact ⟨[], (List.append_nil _).symm, fun _ h => (nomatch h)⟩
  | _ => cases hc

theorem hookAfter_grows (hcs : ∀ c ∈ cs, c.grows h = true) (k : H → List (Rule M)) :
    ∃ rs, hookAfter cs k h = k h ++ rs ∧ ∀ r ∈ rs, r.Decisive := by
  induction cs generalizing k with
  | nil => exact ⟨[], (List.append_nil _).symm, fun _ h => (nomatch h)⟩
  | cons c cs ih =>
      obtain ⟨rs, hrs, hdec⟩ := onHook_grows (hcs c List.mem_cons_self) k
      obtain ⟨rs', hrs', hdec'⟩ := ih (fun d hd => hcs d (List.mem_cons_of_mem _ hd)) (c.onHook k)
      refine ⟨rs ++ rs', ?_, fun r hr => (List.mem_append.mp hr).elim (hdec r) (hdec' r)⟩
      rw [hrs, List.append_assoc] at hrs'
      exact hrs'

theorem hookAfter_append (cs ds : List (Command H M)) (k : H → List (Rule M)) :
    hookAfter (cs ++ ds) k = hookAfter ds (hookAfter cs k) :=
  List.foldl_append

/-- After the first command the hook holds decisive rules, which all stay. -/
theorem Replaces.hook_grows {ds : List (Command H M)} (hr : Replaces h (cs ++ ds)) (hne : cs ≠ [])
    (k : H → List (Rule M)) :
    hookAfter cs k h <+: hookAfter ds (hookAfter cs k) h ∧
      ∀ r ∈ hookAfter cs k h, r.Decisive := by
  obtain ⟨clear, grow, hcs, hclear, hgrow⟩ := hr
  rw [List.all_eq_true] at hclear hgrow
  obtain ⟨c, cs, rfl⟩ := List.exists_cons_of_ne_nil hne
  obtain ⟨rfl, htail⟩ := List.cons.inj hcs
  show hookAfter cs (fun _ => []) h <+: hookAfter ds (hookAfter cs fun _ => []) h ∧ _
  rcases List.append_eq_append_iff.mp htail with ⟨clear', rfl, -⟩ | ⟨grow', rfl, rfl⟩
  · -- still emptying
    have hnil : hookAfter cs (fun _ : H => ([] : List (Rule M))) h = [] :=
      hookAfter_nil (fun d hd => hclear d (List.mem_append_left _ hd)) rfl
    refine ⟨by rw [hnil]; exact List.nil_prefix, fun r hr => ?_⟩
    have hr' : r ∈ hookAfter cs (fun _ : H => ([] : List (Rule M))) h := hr
    rw [hnil] at hr'
    cases hr'
  · -- building up
    obtain ⟨rs, hrs, -⟩ := hookAfter_grows
      (fun d hd => hgrow d (List.mem_append_right _ hd)) (hookAfter (clear ++ grow') fun _ => [])
    obtain ⟨rs', hrs', hdec⟩ := hookAfter_grows
      (fun d hd => hgrow d (List.mem_append_left _ hd)) (hookAfter clear fun _ => [])
    rw [hookAfter_nil hclear rfl, List.nil_append, ← hookAfter_append] at hrs'
    refine ⟨⟨rs, hrs.symm⟩, fun r hr => hdec r ?_⟩
    rw [← hrs']
    exact hr

end Command

/-! ## Every state on the way -/

namespace Firewall

variable [DecidableEq M] {F G K : Firewall M} {cs ds : List (FwCommand M)} {h : FilterHook}

omit [DecidableEq M] in
theorem filterPart_append (cs ds : List (FwCommand M)) :
    filterPart (cs ++ ds) = filterPart cs ++ filterPart ds :=
  List.filterMap_append

/-- **Nothing opens while the rules are replaced**, if the policy of the hook was `DROP`. -/
theorem drops_between (h₁ : Applied noSkip cs F G) (h₂ : Applied noSkip ds G K)
    (hr : Command.Replaces h (filterPart (cs ++ ds)))
    (hpol : F.filterTable.policy h = .drop) {m : Meaning M P} {p : P}
    (hF : F.filterVerdict m h p = .drop) (hK : K.filterVerdict m h p = .drop) :
    G.filterVerdict m h p = .drop := by
  obtain ⟨hp₁, hh₁, hu₁⟩ := h₁.filterTable
  obtain ⟨-, hh₂, -⟩ := h₂.filterTable
  rw [filterPart_append] at hr
  by_cases hne : filterPart cs = []
  · -- the filter table has not been touched
    rw [hne] at hp₁ hh₁ hu₁
    rw [filterVerdict, Table.ext' hp₁ hh₁ hu₁]
    exact hF
  · obtain ⟨hpre, hdec⟩ := hr.hook_grows hne F.filterTable.hook
    rw [← hh₁] at hpre hdec
    rw [← hh₂] at hpre
    refine Table.drops_of_prefix hpre hdec ?_ hK
    obtain ⟨clear, grow, hcs, hclear, hgrow⟩ := hr
    rw [hp₁]
    refine Command.policyAfter_drop (fun c hc => ?_) hpol
    have hmem : c ∈ .flushAll :: (clear ++ grow) := by
      rw [← hcs]
      exact List.mem_append_left _ hc
    rcases List.mem_cons.mp hmem with rfl | hmem
    · rfl
    · rw [Bool.or_eq_true]
      exact (List.mem_append.mp hmem).imp (List.all_eq_true.mp hclear c)
        (List.all_eq_true.mp hgrow c)

/-- Once all chains are empty, the policy decides. -/
theorem verdict_of_flushed (h₁ : Applied noSkip [.filter .flushAll] F G) (m : Meaning M P)
    (p : P) : G.filterVerdict m h p = (F.filterTable.policy h).verdict := by
  obtain ⟨hp, hh, -⟩ := h₁.filterTable
  have hnil : G.filterTable.hook h = [] := by
    rw [hh]
    rfl
  rw [filterVerdict, Table.verdict_of_hook_nil hnil, hp]
  rfl

end Firewall

end Netfilter
