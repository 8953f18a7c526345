import PrivacyGuard.Netfilter.Table

set_option autoImplicit false

/-! # What commands do to a table

`Table.exec` may refuse a command. What a command that is not refused does to the policies,
the hooks and the user chains is a total function of each (`onPolicy`, `onHook`, `onUser`),
so that the effect of a whole list of commands can be computed without knowing the table it
starts from (`of_exec`). The last section says when commands are not refused. -/

namespace Netfilter

variable {H M : Type}

namespace Command

/-- The chain whose rules the command edits. -/
def chain? : Command H M → Option (Chain H)
  | .append c _ | .insert c _ _ | .replace c _ _ | .delete c _ | .deleteNum c _ | .flush c =>
      some c
  | _ => none

/-- Commands on hooks that no table refuses. -/
def plain : Command H M → Bool
  | .flushAll | .policy _ _ | .flush (.hook _) => true
  | .append (.hook _) r => r.target.chain?.isNone
  | _ => false

/-- The chains named `names` are all the command needs not to be refused. -/
def Fits (names : List String) : Command H M → Prop
  | .append (.hook _) r | .insert (.hook _) 1 r => r.ResolvesIn names
  | .append (.user n) r | .insert (.user n) 1 r => n ∈ names ∧ r.ResolvesIn names
  | .flush (.user n) => n ∈ names
  | .flush (.hook _) => True
  | _ => False

instance (names : List String) (c : Command H M) : Decidable (c.Fits names) := by
  unfold Fits
  split <;> infer_instance

variable [DecidableEq M]

/-- The rules of the edited chain afterwards. -/
def onRules : Command H M → List (Rule M) → List (Rule M)
  | .append _ r, rs => rs ++ [r]
  | .insert _ n r, rs => rs.insertIdx (n - 1) r
  | .replace _ n r, rs => rs.set (n - 1) r
  | .delete _ r, rs => rs.erase r
  | .deleteNum _ n, rs => rs.eraseIdx (n - 1)
  | .flush _, _ => []
  | _, rs => rs

variable [DecidableEq H]

omit [DecidableEq M] in
def onPolicy : Command H M → (H → Policy) → H → Policy
  | .policy h p, pol => Function.update pol h p
  | _, pol => pol

def onHook (c : Command H M) (k : H → List (Rule M)) : H → List (Rule M) :=
  match c, c.chain? with
  | .flushAll, _ => fun _ => []
  | _, some (.hook h) => Function.update k h (c.onRules (k h))
  | _, _ => k

omit [DecidableEq H] in
def onUser (c : Command H M) (us : List (String × List (Rule M))) :
    List (String × List (Rule M)) :=
  match c, c.chain? with
  | .flushAll, _ => us.map fun u => (u.1, [])
  | .newChain n, _ => us ++ [(n, [])]
  | .deleteChain n, _ => us.filter fun u => u.1 ≠ n
  | _, some (.user n) => Table.putUser us n (c.onRules ((us.lookup n).getD []))
  | _, _ => us

omit [DecidableEq M] in
/-- Only `-P` on the hook changes its policy. -/
theorem onPolicy_of_ne {c : Command H M} {h : H} (hc : ∀ p, c ≠ .policy h p)
    (pol : H → Policy) : c.onPolicy pol h = pol h := by
  cases c with
  | policy h' p =>
      have hne : h ≠ h' := fun he => hc p (by rw [he])
      exact Function.update_of_ne hne _ _
  | _ => rfl

/-- A command that names another chain, or none, leaves the rules of the hook or removes
them. -/
theorem onHook_of_ne {c : Command H M} {h : H} (hc : c.chain? ≠ some (.hook h))
    (k : H → List (Rule M)) : c.onHook k h = k h ∨ c.onHook k h = [] := by
  cases c with
  | flushAll => exact Or.inr rfl
  | newChain n | deleteChain n | policy h' p => exact Or.inl rfl
  | append d r | insert d n r | replace d n r | delete d r | deleteNum d n | flush d =>
      refine Or.inl ?_
      cases d with
      | hook h' =>
          have hne : h ≠ h' := fun he => hc (by rw [he]; rfl)
          exact Function.update_of_ne hne _ _
      | user n => rfl

/-- The rules of the user chain `n` after a command on the rules of a chain. -/
def onChain (c : Command H M) (n : String) (rs : List (Rule M)) : List (Rule M) :=
  if c.chain? = some (.user n) then c.onRules rs else rs

theorem foldl_onChain {cs : List (Command H M)} {n : String}
    (h : ∀ c ∈ cs, c.chain? ≠ some (.user n)) (rs : List (Rule M)) :
    cs.foldl (fun rs c => c.onChain n rs) rs = rs := by
  induction cs with
  | nil => rfl
  | cons c cs ih =>
      have hc : c.onChain n rs = rs := if_neg (h c List.mem_cons_self)
      rw [List.foldl_cons, hc]
      exact ih fun d hd => h d (List.mem_cons_of_mem _ hd)

/-- The effect of a list of commands, component by component. -/
def policyAfter (cs : List (Command H M)) (pol : H → Policy) : H → Policy :=
  cs.foldl (fun pol c => c.onPolicy pol) pol

def hookAfter (cs : List (Command H M)) (k : H → List (Rule M)) : H → List (Rule M) :=
  cs.foldl (fun k c => c.onHook k) k

def userAfter (cs : List (Command H M)) (us : List (String × List (Rule M))) :
    List (String × List (Rule M)) :=
  cs.foldl (fun us c => c.onUser us) us

end Command

namespace Table

theorem lookup_mem {us : List (String × List (Rule M))} {n : String} {rs : List (Rule M)}
    (h : us.lookup n = some rs) : (n, rs) ∈ us := by
  obtain ⟨l₁, l₂, rfl, -⟩ := List.lookup_eq_some_iff.mp h
  simp

/-- The rules of a chain that have been replaced. -/
theorem lookup_putUser {us : List (String × List (Rule M))} {n : String}
    (h : n ∈ us.map Prod.fst) (rs : List (Rule M)) : (putUser us n rs).lookup n = some rs := by
  induction us with
  | nil => cases h
  | cons c us ih =>
      rw [putUser, List.map_cons, ← putUser]
      by_cases hc : c.1 = n
      · simp [hc]
      · have hmem : n ∈ us.map Prod.fst := (List.mem_cons.mp h).resolve_left (Ne.symm hc)
        rw [if_neg hc, List.lookup_cons, beq_false_of_ne (Ne.symm hc)]
        exact ih hmem

/-- The rules of an existing chain lead to existing chains. -/
theorem rules_resolve {t : Table H M} {c : Chain H} {rs : List (Rule M)}
    (h : t.rules c = some rs) : ∀ r ∈ rs, r.ResolvesIn t.names := by
  cases c with
  | hook k =>
      cases h
      exact t.hookClosed k
  | user n => exact t.userClosed _ (lookup_mem h)

theorem rules_user_isSome {t : Table H M} {n : String} (h : n ∈ t.names) :
    ∃ rs, t.rules (.user n) = some rs := by
  obtain ⟨c, hc, rfl⟩ := List.mem_map.mp h
  have hne : ¬ t.user.lookup c.1 = none := by
    rw [List.lookup_eq_none_iff]
    intro hall
    simpa using hall c hc
  exact Option.ne_none_iff_exists'.mp hne

variable [DecidableEq H]

theorem put_ok (t : Table H M) (c : Chain H) {rs : List (Rule M)}
    (hrs : ∀ r ∈ rs, r.ResolvesIn t.names) : ∃ t', t.put c rs = .ok t' := by
  rw [put, dif_pos hrs]
  cases c with
  | hook h => exact ⟨_, rfl⟩
  | user n => exact ⟨_, rfl⟩

/-- What `put` leaves, chain by chain. -/
theorem of_put {t t' : Table H M} {c : Chain H} {rs : List (Rule M)}
    (hput : t.put c rs = .ok t') :
    t'.policy = t.policy ∧
      (∀ h, c = .hook h → t'.hook = Function.update t.hook h rs ∧ t'.user = t.user) ∧
      ∀ n, c = .user n → t'.hook = t.hook ∧ t'.user = putUser t.user n rs := by
  rw [put] at hput
  split at hput
  · cases c with
    | hook h =>
        cases hput
        refine ⟨rfl, fun h' hh => ?_, fun n hn => (nomatch hn)⟩
        cases hh
        exact ⟨rfl, rfl⟩
    | user n =>
        cases hput
        refine ⟨rfl, fun h' hh => (nomatch hh), fun n' hn => ?_⟩
        cases hn
        exact ⟨rfl, rfl⟩
  · cases hput

theorem of_edit {t t' : Table H M} {c : Chain H}
    {f : List (Rule M) → Except String (List (Rule M))} (h : t.edit c f = .ok t') :
    ∃ rs rs', t.rules c = some rs ∧ f rs = .ok rs' ∧ t.put c rs' = .ok t' := by
  rw [edit] at h
  split at h
  · cases h
  · rename_i rs hrs
    split at h
    · rename_i rs' hf
      exact ⟨rs, rs', hrs, hf, h⟩
    · cases h

variable [Fintype H] [DecidableEq M]

/-- A successful edit rewrites the rules of its chain by `onRules`. -/
theorem exec_edit {t t' : Table H M} {cmd : Command H M} {c : Chain H}
    (hc : cmd.chain? = some c) (h : t.exec cmd = .ok t') :
    ∃ rs, t.rules c = some rs ∧ t.put c (cmd.onRules rs) = .ok t' := by
  cases cmd with
  | append d r | flush d =>
      cases hc
      rw [exec] at h
      obtain ⟨rs, rs', hrs, hf, hput⟩ := of_edit h
      cases hf
      exact ⟨rs, hrs, hput⟩
  | insert d n r | replace d n r | delete d r | deleteNum d n =>
      -- refused when the position or the rule does not exist
      cases hc
      rw [exec] at h
      obtain ⟨rs, rs', hrs, hf, hput⟩ := of_edit h
      split at hf <;> cases hf
      exact ⟨rs, hrs, hput⟩
  | flushAll | newChain n | deleteChain n | policy h p => cases hc

/-- **The effect of a command that is not refused.** -/
theorem of_exec {t t' : Table H M} {cmd : Command H M} (h : t.exec cmd = .ok t') :
    t'.policy = cmd.onPolicy t.policy ∧ t'.hook = cmd.onHook t.hook ∧
      t'.user = cmd.onUser t.user := by
  -- a command that edits a chain changes this chain only
  have key : ∀ c, cmd.chain? = some c →
      t'.policy = t.policy ∧
      (∀ k, c = .hook k →
        t'.hook = Function.update t.hook k (cmd.onRules (t.hook k)) ∧ t'.user = t.user) ∧
      ∀ n, c = .user n → t'.hook = t.hook ∧
        t'.user = putUser t.user n (cmd.onRules ((t.user.lookup n).getD [])) := by
    intro c hc
    obtain ⟨rs, hrs, hput⟩ := exec_edit hc h
    obtain ⟨hp, hh, hu⟩ := of_put hput
    refine ⟨hp, fun k hk => ?_, fun n hn => ?_⟩
    · subst hk
      cases hrs
      exact hh k rfl
    · subst hn
      have hlook : t.user.lookup n = some rs := hrs
      rw [hlook]
      exact hu n rfl
  cases cmd with
  | flushAll =>
      cases h
      exact ⟨rfl, rfl, rfl⟩
  | policy k p =>
      cases h
      exact ⟨rfl, rfl, rfl⟩
  | newChain n =>
      rw [exec] at h
      split at h <;> cases h
      exact ⟨rfl, rfl, rfl⟩
  | deleteChain n =>
      rw [exec] at h
      split at h
      · cases h
      · cases h
      · split at h <;> cases h
        exact ⟨rfl, rfl, rfl⟩
  | append c r | insert c n r | replace c n r | delete c r | deleteNum c n | flush c =>
      obtain ⟨hp, hh, hu⟩ := key c rfl
      cases c with
      | hook k => exact ⟨hp, hh k rfl⟩
      | user m => exact ⟨hp, hu m rfl⟩

/-! ## Commands that are not refused -/

/-- Appending a rule that leads to no chain, or to an existing one, to an existing chain. -/
theorem append_ok {t : Table H M} {c : Chain H} {rs : List (Rule M)} {r : Rule M}
    (hc : t.rules c = some rs) (hr : r.ResolvesIn t.names) :
    ∃ t', t.exec (.append c r) = .ok t' := by
  rw [exec, edit, hc]
  refine put_ok t c fun r' hr' => ?_
  rcases List.mem_append.mp hr' with h | h
  · exact rules_resolve hc r' h
  · rwa [List.mem_singleton.mp h]

theorem newChain_ok {t : Table H M} {n : String} (hn : n ∉ t.names) :
    ∃ t', t.exec (.newChain n) = .ok t' :=
  ⟨_, dif_neg hn⟩

theorem flush_ok {t : Table H M} {c : Chain H} {rs : List (Rule M)}
    (hc : t.rules c = some rs) : ∃ t', t.exec (.flush c) = .ok t' := by
  rw [exec, edit, hc]
  exact put_ok t c fun r hr => (nomatch hr)

theorem insert_ok {t : Table H M} {c : Chain H} {n : Nat} {rs : List (Rule M)} {r : Rule M}
    (hc : t.rules c = some rs) (hn : 1 ≤ n ∧ n ≤ rs.length + 1) (hr : r.ResolvesIn t.names) :
    ∃ t', t.exec (.insert c n r) = .ok t' := by
  rw [exec, edit, hc]
  simp only [if_pos hn]
  refine put_ok t c fun r' hr' => ?_
  rcases List.eq_or_mem_of_mem_insertIdx hr' with rfl | h
  · exact hr
  · exact rules_resolve hc r' h

theorem delete_ok {t : Table H M} {c : Chain H} {rs : List (Rule M)} {r : Rule M}
    (hc : t.rules c = some rs) (hr : r ∈ rs) : ∃ t', t.exec (.delete c r) = .ok t' := by
  rw [exec, edit, hc]
  simp only [if_pos hr]
  exact put_ok t c fun r' hr' => rules_resolve hc r' (List.mem_of_mem_erase hr')

theorem deleteChain_ok {t : Table H M} {n : String} (hn : t.user.lookup n = some [])
    (hfree : t.Unreferenced n) : ∃ t', t.exec (.deleteChain n) = .ok t' := by
  rw [exec, hn]
  exact ⟨_, dif_pos hfree⟩

/-- A command on the rules of a chain changes no chain name. -/
theorem names_of_edit {t t' : Table H M} {cmd : Command H M} (hc : cmd.chain? ≠ none)
    (h : t.exec cmd = .ok t') : t'.names = t.names := by
  obtain ⟨-, -, hu⟩ := of_exec h
  rw [names, hu]
  cases cmd with
  | append c r | insert c n r | replace c n r | delete c r | deleteNum c n | flush c =>
      cases c with
      | hook k => rfl
      | user m => exact putUser_names _ _ _
  | flushAll | newChain n | deleteChain n | policy h p => exact absurd rfl hc

/-- **The chains of the table are enough for the command.** -/
theorem exec_fits {t : Table H M} {ns : List String} {cmd : Command H M} (h : cmd.Fits ns)
    (hns : ns ⊆ t.names) : ∃ t', t.exec cmd = .ok t' ∧ t'.names = t.names := by
  have hres : ∀ r : Rule M, r.ResolvesIn ns → r.ResolvesIn t.names :=
    fun r hr n hn => hns (hr n hn)
  suffices hok : cmd.chain? ≠ none ∧ ∃ t', t.exec cmd = .ok t' by
    obtain ⟨hc, t', ht⟩ := hok
    exact ⟨t', ht, names_of_edit hc ht⟩
  match cmd, h with
  | .append (.hook k) r, h => exact ⟨nofun, append_ok rfl (hres r h)⟩
  | .append (.user n) r, h =>
      obtain ⟨rs, hrs⟩ := rules_user_isSome (hns h.1)
      exact ⟨nofun, append_ok hrs (hres r h.2)⟩
  | .insert (.hook k) 1 r, h => exact ⟨nofun, insert_ok rfl (by omega) (hres r h)⟩
  | .insert (.user n) 1 r, h =>
      obtain ⟨rs, hrs⟩ := rules_user_isSome (hns h.1)
      exact ⟨nofun, insert_ok hrs (by omega) (hres r h.2)⟩
  | .flush (.user n), h =>
      obtain ⟨rs, hrs⟩ := rules_user_isSome (hns h)
      exact ⟨nofun, flush_ok hrs⟩
  | .flush (.hook k), _ => exact ⟨nofun, flush_ok (show t.rules (.hook k) = _ from rfl)⟩

theorem exec_plain {cmd : Command H M} (h : cmd.plain = true) (t : Table H M) :
    ∃ t', t.exec cmd = .ok t' := by
  match cmd, h with
  | .flushAll, _ => exact ⟨_, rfl⟩
  | .policy k p, _ => exact ⟨_, rfl⟩
  | .flush (.hook k), _ =>
      rw [exec, edit]
      exact put_ok t _ (by simp)
  | .append (.hook k) r, h =>
      have hr : r.target.chain? = none := by simpa [Command.plain] using h
      exact append_ok (show t.rules (.hook k) = some (t.hook k) from rfl)
        (Rule.resolvesIn_of_none hr)

/-! ## The rules of a user chain -/

omit [DecidableEq H] [Fintype H] [DecidableEq M] in
theorem lookup_putUser_of_ne {us : List (String × List (Rule M))} {m n : String} (h : m ≠ n)
    (rs : List (Rule M)) : (putUser us n rs).lookup m = us.lookup m := by
  induction us with
  | nil => rfl
  | cons c us ih =>
      rw [putUser, List.map_cons, ← putUser]
      by_cases hc : c.1 = n
      · rw [if_pos hc, List.lookup_cons, List.lookup_cons, ih, hc, beq_false_of_ne h]
      · rw [if_neg hc, List.lookup_cons, List.lookup_cons, ih]

/-- The rules of a user chain; none if there is no such chain. -/
def chainRules (t : Table H M) (n : String) : List (Rule M) := (t.user.lookup n).getD []

omit [DecidableEq H] [Fintype H] [DecidableEq M] in
theorem chainRules_of_rules {t : Table H M} {n : String} {rs : List (Rule M)}
    (h : t.rules (.user n) = some rs) : t.chainRules n = rs := by
  rw [chainRules, show t.user.lookup n = some rs from h]
  rfl

/-- What a command on the rules of a chain makes of those of the user chain `m`. -/
theorem chainRules_exec {t t' : Table H M} {cmd : Command H M} (hc : cmd.chain? ≠ none)
    (h : t.exec cmd = .ok t') (m : String) :
    t'.chainRules m = cmd.onChain m (t.chainRules m) := by
  obtain ⟨c, hc⟩ := Option.ne_none_iff_exists'.mp hc
  obtain ⟨rs, hrs, hput⟩ := exec_edit hc h
  rw [Command.onChain, hc]
  cases c with
  | hook k =>
      rw [if_neg (by simp), chainRules, ((of_put hput).2.1 k rfl).2]
      rfl
  | user n =>
      have huser : t'.user = putUser t.user n (cmd.onRules rs) := ((of_put hput).2.2 n rfl).2
      have hlook : (n, rs) ∈ t.user := lookup_mem hrs
      have hmem : n ∈ t.user.map Prod.fst := List.mem_map.mpr ⟨_, hlook, rfl⟩
      by_cases hm : m = n
      · rw [hm, if_pos rfl, chainRules_of_rules hrs, chainRules, huser, lookup_putUser hmem]
        rfl
      · have hne : some (Chain.user (H := H) n) ≠ some (.user m) := by simpa using Ne.symm hm
        rw [if_neg hne, chainRules, huser, lookup_putUser_of_ne hm]
        rfl

/-- A new chain is as good as none. -/
theorem chainRules_newChain {t t' : Table H M} {n : String}
    (h : t.exec (.newChain n) = .ok t') (m : String) : t'.chainRules m = t.chainRules m := by
  obtain ⟨-, -, hu⟩ := of_exec h
  rw [chainRules, hu, Command.onUser, List.lookup_append, chainRules]
  cases t.user.lookup m with
  | some rs => rfl
  | none =>
      rw [Option.none_or, List.lookup_cons]
      cases m == n <;> rfl

omit [DecidableEq H] [Fintype H] [DecidableEq M] in
/-- `u` is `t` with the chain `n`, which may have been there already. -/
structure With (t : Table H M) (n : String) (u : Table H M) : Prop where
  mem : n ∈ u.names
  policy : u.policy = t.policy
  hook : u.hook = t.hook
  chainRules : ∀ c, u.chainRules c = t.chainRules c

/-- Creating a chain makes sure that it exists, whether it did already or not. -/
theorem exec_newChain (t : Table H M) (n : String) :
    (t.With n t ∧ t.exec (.newChain n) = .error "iptables: Chain already exists.") ∨
      ∃ u, t.exec (.newChain n) = .ok u ∧ t.With n u := by
  by_cases hn : n ∈ t.names
  · exact .inl ⟨⟨hn, rfl, rfl, fun _ => rfl⟩, dif_pos hn⟩
  · obtain ⟨u, hu⟩ := newChain_ok hn
    obtain ⟨hp, hk, hus⟩ := of_exec hu
    refine .inr ⟨u, hu, ?_, hp, hk, chainRules_newChain hu⟩
    rw [names, hus, Command.onUser, List.map_append]
    exact List.mem_append_right _ (List.mem_singleton_self n)

end Table

end Netfilter
