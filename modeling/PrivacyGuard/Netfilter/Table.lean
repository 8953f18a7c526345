import Mathlib.Tactic.Common
import Mathlib.Data.List.Nodup
import Mathlib.Data.Fintype.Defs
import Mathlib.Logic.Function.Basic

set_option autoImplicit false

/-! # Packet-filter tables

A table of the kernel's packet filter, as `iptables` shows it: built-in chains (*hooks*),
each with a policy, and user-defined chains reached by jumps. The types `H` of hooks and
`M` of matches are parameters.

A `Table` carries the two facts the kernel checks whenever a table is replaced: a chain
name occurs once, and every jump leads to an existing chain. `Table.exec` is the effect of
one `iptables` command on the table it names; a command the kernel refuses is an error with
the message `iptables` prints.
-/

namespace Netfilter

inductive Policy
  | accept
  | drop
  deriving DecidableEq, Repr

/-- What a matching rule does. `ext` is any target not listed. -/
inductive Target
  | accept
  | drop
  | reject
  | ret
  | jump (chain : String)
  | goto (chain : String)
  | log (label : String)
  | redirect (port : Nat)
  | ext (name : String)
  deriving DecidableEq, Repr

/-- The user chain a target leads to. -/
def Target.chain? : Target → Option String
  | .jump c => some c
  | .goto c => some c
  | _ => none

/-- A rule: its target applies to the packets that meet every condition. -/
structure Rule (M : Type) where
  conds : List M
  target : Target
  deriving DecidableEq, Repr

/-- The name of a chain in a command. -/
inductive Chain (H : Type)
  | hook (h : H)
  | user (n : String)
  deriving DecidableEq, Repr

variable {H M : Type}

/-- The chain the rule leads to, if any, is one of `names`. -/
def Rule.ResolvesIn (names : List String) (r : Rule M) : Prop :=
  ∀ n ∈ r.target.chain?, n ∈ names

instance (names : List String) (r : Rule M) : Decidable (r.ResolvesIn names) :=
  inferInstanceAs (Decidable (∀ n ∈ r.target.chain?, n ∈ names))

theorem Rule.resolvesIn_of_none {names : List String} {r : Rule M}
    (h : r.target.chain? = none) : r.ResolvesIn names := by
  intro n hn
  rw [h] at hn
  cases hn

structure Table (H M : Type) where
  policy : H → Policy
  hook : H → List (Rule M)
  user : List (String × List (Rule M))
  nodup : (user.map Prod.fst).Nodup
  hookClosed : ∀ h, ∀ r ∈ hook h, r.ResolvesIn (user.map Prod.fst)
  userClosed : ∀ c ∈ user, ∀ r ∈ c.2, r.ResolvesIn (user.map Prod.fst)

namespace Table

@[ext] theorem ext' {t u : Table H M} (hp : t.policy = u.policy) (hh : t.hook = u.hook)
    (hu : t.user = u.user) : t = u := by
  cases t
  cases u
  subst hp hh hu
  rfl

/-- The names of the user chains. -/
def names (t : Table H M) : List String := t.user.map Prod.fst

/-- The table of a freshly loaded kernel module: no rule, every policy `ACCEPT`. -/
def fresh : Table H M where
  policy _ := .accept
  hook _ := []
  user := []
  nodup := List.nodup_nil
  hookClosed := by simp
  userClosed := by simp

/-- The rules of a chain; `none` if there is no such chain. -/
def rules (t : Table H M) : Chain H → Option (List (Rule M))
  | .hook h => some (t.hook h)
  | .user n => t.user.lookup n

variable [DecidableEq H]

/-- Replace the rules of the hook `h`. -/
def setHook (t : Table H M) (h : H) (rs : List (Rule M))
    (hrs : ∀ r ∈ rs, r.ResolvesIn t.names) : Table H M where
  policy := t.policy
  hook := Function.update t.hook h rs
  user := t.user
  nodup := t.nodup
  hookClosed h' r hr := by
    by_cases hh : h' = h
    · subst hh
      rw [Function.update_self] at hr
      exact hrs r hr
    · rw [Function.update_of_ne hh] at hr
      exact t.hookClosed h' r hr
  userClosed := t.userClosed

/-- The user chains of a table with the rules of one of them replaced. -/
def putUser (us : List (String × List (Rule M))) (n : String) (rs : List (Rule M)) :
    List (String × List (Rule M)) :=
  us.map fun c => if c.1 = n then (c.1, rs) else c

omit [DecidableEq H] in
theorem putUser_names (us : List (String × List (Rule M))) (n : String) (rs : List (Rule M)) :
    (putUser us n rs).map Prod.fst = us.map Prod.fst := by
  rw [putUser, List.map_map]
  refine List.map_congr_left fun c _ => ?_
  by_cases hc : c.1 = n <;> simp [hc]

omit [DecidableEq H] in
/-- Replace the rules of the user chain `n`. -/
def setUser (t : Table H M) (n : String) (rs : List (Rule M))
    (hrs : ∀ r ∈ rs, r.ResolvesIn t.names) : Table H M where
  policy := t.policy
  hook := t.hook
  user := putUser t.user n rs
  nodup := by rw [putUser_names]; exact t.nodup
  hookClosed := by rw [putUser_names]; exact t.hookClosed
  userClosed c hc r hr := by
    rw [putUser_names]
    obtain ⟨d, hd, rfl⟩ := List.mem_map.mp hc
    by_cases hn : d.1 = n
    · rw [if_pos hn] at hr
      exact hrs r hr
    · rw [if_neg hn] at hr
      exact t.userClosed d hd r hr

/-- The kernel's answer to a chain it does not know. -/
def noChain : String := "iptables: No chain/target/match by that name."

/-- Install new rules in an existing chain. The kernel refuses a rule that leads to a chain
that does not exist. -/
def put (t : Table H M) (c : Chain H) (rs : List (Rule M)) : Except String (Table H M) :=
  if hrs : ∀ r ∈ rs, r.ResolvesIn t.names then
    match c with
    | .hook h => .ok (t.setHook h rs hrs)
    | .user n => .ok (t.setUser n rs hrs)
  else .error noChain

/-- `-F` without a chain: every chain is emptied, chains and policies stay. -/
def flushAll (t : Table H M) : Table H M where
  policy := t.policy
  hook _ := []
  user := t.user.map fun c => (c.1, [])
  nodup := by
    rw [List.map_map]
    exact t.nodup
  hookClosed h r hr := by cases hr
  userClosed c hc r hr := by
    obtain ⟨d, -, rfl⟩ := List.mem_map.mp hc
    cases hr

/-- `-P`: the policy of a hook. -/
def setPolicy (t : Table H M) (h : H) (p : Policy) : Table H M :=
  { t with policy := Function.update t.policy h p }

omit [DecidableEq H] in
/-- `-N`: a new, empty user chain. -/
def addChain (t : Table H M) (n : String) (hn : n ∉ t.names) : Table H M where
  policy := t.policy
  hook := t.hook
  user := t.user ++ [(n, [])]
  nodup := by
    rw [List.map_append]
    exact List.Nodup.append t.nodup (List.nodup_singleton n)
      (List.disjoint_singleton.mpr hn)
  hookClosed h r hr m hm := by
    rw [List.map_append]
    exact List.mem_append_left _ (t.hookClosed h r hr m hm)
  userClosed c hc r hr m hm := by
    rw [List.map_append]
    rcases List.mem_append.mp hc with hc | hc
    · exact List.mem_append_left _ (t.userClosed c hc r hr m hm)
    · rw [List.mem_singleton] at hc
      subst hc
      cases hr

/-- No rule of the table leads to the chain `n`. -/
def Unreferenced (t : Table H M) (n : String) : Prop :=
  (∀ h, ∀ r ∈ t.hook h, r.target.chain? ≠ some n) ∧
    ∀ c ∈ t.user, ∀ r ∈ c.2, r.target.chain? ≠ some n

instance [Fintype H] (t : Table H M) (n : String) : Decidable (t.Unreferenced n) :=
  inferInstanceAs (Decidable (_ ∧ _))

omit [DecidableEq H] in
theorem mem_names_removed {us : List (String × List (Rule M))} {n m : String}
    (hm : m ∈ us.map Prod.fst) (hmn : m ≠ n) :
    m ∈ (us.filter fun c => c.1 ≠ n).map Prod.fst := by
  obtain ⟨c, hc, rfl⟩ := List.mem_map.mp hm
  exact List.mem_map.mpr ⟨c, List.mem_filter.mpr ⟨hc, by simpa using hmn⟩, rfl⟩

omit [DecidableEq H] in
/-- `-X`: an unreferenced user chain is removed. -/
def removeChain (t : Table H M) (n : String) (hn : t.Unreferenced n) : Table H M where
  policy := t.policy
  hook := t.hook
  user := t.user.filter fun c => c.1 ≠ n
  nodup := t.nodup.sublist ((List.filter_sublist (l := t.user)).map Prod.fst)
  hookClosed h r hr m hm :=
    mem_names_removed (t.hookClosed h r hr m hm) fun hmn => hn.1 h r hr (hmn ▸ hm)
  userClosed c hc r hr m hm := by
    have hc' := (List.mem_filter.mp hc).1
    exact mem_names_removed (t.userClosed c hc' r hr m hm)
      fun hmn => hn.2 c hc' r hr (hmn ▸ hm)

end Table

/-! ## Commands -/

/-- The `iptables` commands on one table. Positions are counted from `1`. -/
inductive Command (H M : Type)
  | append (c : Chain H) (r : Rule M)
  | insert (c : Chain H) (n : Nat) (r : Rule M)
  | replace (c : Chain H) (n : Nat) (r : Rule M)
  | delete (c : Chain H) (r : Rule M)
  | deleteNum (c : Chain H) (n : Nat)
  | flush (c : Chain H)
  | flushAll
  | newChain (n : String)
  | deleteChain (n : String)
  | policy (h : H) (p : Policy)
  deriving DecidableEq

namespace Table

variable [DecidableEq H] [Fintype H] [DecidableEq M]

/-- Rewrite the rules of an existing chain. -/
def edit (t : Table H M) (c : Chain H)
    (f : List (Rule M) → Except String (List (Rule M))) : Except String (Table H M) :=
  match t.rules c with
  | none => .error noChain
  | some rs =>
      match f rs with
      | .ok rs' => t.put c rs'
      | .error e => .error e

/-- The effect of a command on its table, or the reason for which it is refused. -/
def exec (t : Table H M) : Command H M → Except String (Table H M)
  | .append c r => t.edit c fun rs => .ok (rs ++ [r])
  | .insert c n r => t.edit c fun rs =>
      if 1 ≤ n ∧ n ≤ rs.length + 1 then .ok (rs.insertIdx (n - 1) r)
      else .error "iptables: Index of insertion too big."
  | .replace c n r => t.edit c fun rs =>
      if 1 ≤ n ∧ n ≤ rs.length then .ok (rs.set (n - 1) r)
      else .error "iptables: Index of replacement too big."
  | .delete c r => t.edit c fun rs =>
      if r ∈ rs then .ok (rs.erase r)
      else .error "iptables: Bad rule (does a matching rule exist in that chain?)."
  | .deleteNum c n => t.edit c fun rs =>
      if 1 ≤ n ∧ n ≤ rs.length then .ok (rs.eraseIdx (n - 1))
      else .error "iptables: Index of deletion too big."
  | .flush c => t.edit c fun _ => .ok []
  | .flushAll => .ok t.flushAll
  | .newChain n =>
      if hn : n ∈ t.names then .error "iptables: Chain already exists."
      else .ok (t.addChain n hn)
  | .deleteChain n =>
      match t.user.lookup n with
      | none => .error noChain
      | some (_ :: _) => .error "iptables: Directory not empty."
      | some [] =>
          if hn : t.Unreferenced n then .ok (t.removeChain n hn)
          else .error "iptables: Too many links."
  | .policy h p => .ok (t.setPolicy h p)

end Table

end Netfilter
