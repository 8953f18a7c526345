import PrivacyGuard.Netfilter.Firewall

set_option autoImplicit false

/-! # Commands that add to chains

The effect of commands that only append rules and set policies, and when commands leave a
table as it is. -/

namespace Netfilter

variable {H M : Type}

namespace Command

/-- The command appends a rule or sets a policy. -/
def adds : Command H M → Bool
  | .append _ _ | .policy _ _ => true
  | _ => false

variable [DecidableEq H]

/-- The rule the command appends to the chain `d`, if it does. -/
def appends? (d : Chain H) : Command H M → Option (Rule M)
  | .append e r => if e = d then some r else none
  | _ => none

/-- The rules the commands append to the chain `d`. -/
def appended (d : Chain H) (cs : List (Command H M)) : List (Rule M) := cs.filterMap (appends? d)

/-- The command takes no rule away from the hook `x`, and adds one if it is about it. -/
def Grows (x : H) (c : Command H M) : Prop :=
  (c.chain? ≠ some (.hook x) ∧ c ≠ .flushAll) ∨
    ∃ r, c = .append (.hook x) r ∨ c = .insert (.hook x) 1 r

variable [DecidableEq M] {cs : List (Command H M)}

theorem hookAfter_of_adds (h : ∀ c ∈ cs, c.adds = true) (k : H → List (Rule M)) (x : H) :
    hookAfter cs k x = k x ++ appended (.hook x) cs := by
  induction cs generalizing k with
  | nil => exact (List.append_nil _).symm
  | cons c cs ih =>
      have hrest := ih (fun d hd => h d (List.mem_cons_of_mem _ hd)) (c.onHook k)
      have hc := h c List.mem_cons_self
      rw [hookAfter, List.foldl_cons, ← hookAfter, hrest, appended, appended,
        List.filterMap_cons]
      cases c with
      | append d r =>
          cases d with
          | hook y =>
              show Function.update k y (k y ++ [r]) x ++ _ = _
              by_cases hy : y = x
              · subst hy
                simp [appends?]
              · simp [appends?, hy, Ne.symm hy]
          | user n => rfl
      | policy y p => rfl
      | _ => cases hc

theorem foldl_onChain_of_adds {n : String}
    (h : ∀ c ∈ cs, c.chain? = some (.user n) → c.adds = true) (rs : List (Rule M)) :
    cs.foldl (fun rs c => c.onChain n rs) rs = rs ++ appended (.user n) cs := by
  induction cs generalizing rs with
  | nil => exact (List.append_nil _).symm
  | cons c cs ih =>
      have hrest := ih (fun d hd => h d (List.mem_cons_of_mem _ hd)) (c.onChain n rs)
      have hc := h c List.mem_cons_self
      rw [List.foldl_cons, hrest, appended, appended, List.filterMap_cons]
      cases c with
      | append d r =>
          by_cases hd : d = .user n
          · simp [onChain, chain?, onRules, appends?, hd]
          · simp [onChain, chain?, appends?, hd]
      | flushAll | newChain m | deleteChain m | policy y p => rfl
      | insert d m r | replace d m r | delete d r | deleteNum d m | flush d =>
          have hd : d ≠ .user n := by
            rintro rfl
            exact Bool.false_ne_true (hc rfl)
          simp [onChain, chain?, appends?, hd]

omit [DecidableEq H] in
theorem userAfter_of_adds (h : ∀ c ∈ cs, c.adds = true)
    (hn : ∀ c ∈ cs, ∀ n, c.chain? ≠ some (.user n)) (us : List (String × List (Rule M))) :
    userAfter cs us = us := by
  induction cs with
  | nil => rfl
  | cons c cs ih =>
      have hc := h c List.mem_cons_self
      have hself : c.onUser us = us := by
        cases c with
        | append d r =>
            cases d with
            | hook y => rfl
            | user n => exact absurd rfl (hn _ List.mem_cons_self n)
        | policy y p => rfl
        | _ => cases hc
      rw [userAfter, List.foldl_cons, hself]
      exact ih (fun d hd => h d (List.mem_cons_of_mem _ hd))
        fun d hd => hn d (List.mem_cons_of_mem _ hd)

omit [DecidableEq M] in
/-- Where all policies that are set are the same. -/
theorem policyAfter_of_const {p : Policy} (h : ∀ c ∈ cs, ∀ x q, c = .policy x q → q = p)
    (pol : H → Policy) (x : H) :
    (.policy x p ∈ cs → policyAfter cs pol x = p) ∧
      (.policy x p ∉ cs → policyAfter cs pol x = pol x) := by
  induction cs generalizing pol with
  | nil => exact ⟨fun hx => (nomatch hx), fun _ => rfl⟩
  | cons c cs ih =>
      obtain ⟨hin, hout⟩ := ih (fun d hd => h d (List.mem_cons_of_mem _ hd)) (c.onPolicy pol)
      rw [policyAfter, List.foldl_cons, ← policyAfter]
      by_cases hx : .policy x p ∈ cs
      · exact ⟨fun _ => hin hx, fun hno => absurd (List.mem_cons_of_mem _ hx) hno⟩
      · rw [hout hx]
        by_cases hc : c = .policy x p
        · subst hc
          exact ⟨fun _ => Function.update_self _ _ _, fun hno => absurd List.mem_cons_self hno⟩
        · refine ⟨fun hmem => ?_, fun _ => onPolicy_of_ne (fun q hq => hc ?_) pol⟩
          · exact absurd ((List.mem_cons.mp hmem).resolve_left (Ne.symm hc)) hx
          · rw [hq, h c List.mem_cons_self x q hq]

omit [DecidableEq M] in
/-- Commands on the rules of chains set no policy, -/
theorem policyAfter_of_edits (h : ∀ c ∈ cs, c.chain? ≠ none) (pol : H → Policy) :
    policyAfter cs pol = pol := by
  induction cs with
  | nil => rfl
  | cons c cs ih =>
      have hself : c.onPolicy pol = pol := by
        cases c with
        | policy y p => exact absurd rfl (h _ List.mem_cons_self)
        | _ => rfl
      rw [policyAfter, List.foldl_cons, hself]
      exact ih fun d hd => h d (List.mem_cons_of_mem _ hd)

/-- and those on user chains change no hook. -/
theorem hookAfter_of_user (h : ∀ c ∈ cs, ∃ n, c.chain? = some (.user n))
    (k : H → List (Rule M)) : hookAfter cs k = k := by
  induction cs with
  | nil => rfl
  | cons c cs ih =>
      have hself : c.onHook k = k := by
        obtain ⟨n, hn⟩ := h c List.mem_cons_self
        cases c with
        | flushAll | newChain m | deleteChain m | policy y p => cases hn
        | append d r | insert d m r | replace d m r | delete d r | deleteNum d m | flush d =>
            cases hn
            rfl
      rw [hookAfter, List.foldl_cons, hself]
      exact ih fun d hd => h d (List.mem_cons_of_mem _ hd)

/-- Each of the commands about the hook has added a rule. -/
theorem length_hookAfter {x : H} (h : ∀ c ∈ cs, c.Grows x) (k : H → List (Rule M)) :
    (hookAfter cs k x).length =
      (k x).length + cs.countP fun c => c.chain? = some (.hook x) := by
  induction cs generalizing k with
  | nil => rfl
  | cons c cs ih =>
      have hrest := ih (fun d hd => h d (List.mem_cons_of_mem _ hd)) (c.onHook k)
      rw [hookAfter, List.foldl_cons, ← hookAfter, hrest, List.countP_cons]
      obtain ⟨hc, hflush⟩ | ⟨r, rfl | rfl⟩ := h c List.mem_cons_self
      · have hself : c.onHook k x = k x := by
          cases c with
          | flushAll => exact absurd rfl hflush
          | newChain n | deleteChain n | policy y p => rfl
          | append d r | insert d n r | replace d n r | delete d r | deleteNum d n | flush d =>
              cases d with
              | user n => rfl
              | hook y =>
                  have hne : x ≠ y := fun he => hc (by rw [he]; rfl)
                  exact Function.update_of_ne hne _ _
        simp [hself, hc]
      · simp [onHook, chain?, onRules]
        omega
      · simp [onHook, chain?, onRules]
        omega

end Command

namespace Table

/-- A table is what its policies and the rules of its chains are. -/
theorem eq_of_chainRules {t u : Table H M} (hp : t.policy = u.policy) (hh : t.hook = u.hook)
    (hn : t.names = u.names) (hr : ∀ n, t.chainRules n = u.chainRules n) : t = u := by
  have huser : ∀ s : Table H M, s.user = s.names.map fun n => (n, s.chainRules n) := by
    intro s
    rw [names, List.map_map]
    refine (List.map_id _).symm.trans (List.map_congr_left fun c hc => ?_)
    have hlook : s.user.lookup c.1 = some c.2 := by
      obtain ⟨rs, hrs⟩ := rules_user_isSome (t := s) (List.mem_map_of_mem hc)
      have hmem : (c.1, rs) ∈ s.user := lookup_mem hrs
      have heq : c = (c.1, rs) := List.inj_on_of_nodup_map s.nodup hc hmem rfl
      rw [heq]
      exact hrs
    show c = (c.1, s.chainRules c.1)
    rw [chainRules, hlook]
    rfl
  refine ext' hp hh ?_
  rw [huser t, huser u, hn]
  exact List.map_congr_left fun n _ => by rw [hr n]

end Table

namespace Firewall

variable [DecidableEq M]

/-- Commands on the rules of chains leave the names of the chains as they are. -/
theorem Applied.names_filter {cs : List (Command FilterHook M)} {F G : Firewall M}
    (h : Applied noSkip (cs.map .filter) F G) (hcs : ∀ c ∈ cs, c.chain? ≠ none) :
    G.filterTable.names = F.filterTable.names := by
  refine h.invariant (I := fun K => K.filterTable.names = F.filterTable.names) ?_ rfl
  intro c hc K L hL hK
  obtain ⟨d, hd, rfl⟩ := List.mem_map.mp hc
  rw [Table.names_of_edit (hcs d hd) (exec_filter hL).1, hK]

omit [DecidableEq M] in
theorem filterPart_map (cs : List (Command FilterHook M)) :
    filterPart (cs.map .filter) = cs := by
  rw [filterPart, List.filterMap_map]
  exact List.filterMap_some

omit [DecidableEq M] in
theorem natPart_map (cs : List (Command FilterHook M)) : natPart (cs.map .filter) = [] := by
  rw [natPart, List.filterMap_map]
  exact List.filterMap_eq_nil_iff.mpr fun _ _ => rfl

end Firewall

end Netfilter
