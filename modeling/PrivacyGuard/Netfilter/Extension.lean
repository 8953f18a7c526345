import PrivacyGuard.Netfilter.Effects

set_option autoImplicit false

/-! # A table with one more chain

`Extends t n rs k u`: the table `u` is `t` with a new user chain `n`, whose rules are `rs`,
and with the hooks `k`. The lemmas follow a chain from its creation to its removal, and no
command on the way is refused. Removing the chain gives `t` back once it is empty and the
hooks are those of `t` again. -/

namespace Netfilter

namespace Table

variable {H M : Type}

structure Extends (t : Table H M) (n : String) (rs : List (Rule M)) (k : H → List (Rule M))
    (u : Table H M) : Prop where
  absent : n ∉ t.names
  policy : u.policy = t.policy
  hook : u.hook = k
  user : u.user = t.user ++ [(n, rs)]

theorem putUser_absent {us : List (String × List (Rule M))} {n : String}
    (hn : n ∉ us.map Prod.fst) (rs : List (Rule M)) : putUser us n rs = us := by
  have hid : ∀ c ∈ us, (if c.1 = n then (c.1, rs) else c) = c := by
    intro c hc
    exact if_neg fun h => hn (List.mem_map.mpr ⟨c, hc, h⟩)
  rw [putUser, List.map_congr_left hid, List.map_id']

theorem putUser_append {us : List (String × List (Rule M))} {n : String}
    (hn : n ∉ us.map Prod.fst) (rs rs' : List (Rule M)) :
    putUser (us ++ [(n, rs)]) n rs' = us ++ [(n, rs')] := by
  have h := putUser_absent hn rs'
  rw [putUser] at h ⊢
  rw [List.map_append, h]
  simp

theorem lookup_append {us : List (String × List (Rule M))} {n : String}
    (hn : n ∉ us.map Prod.fst) (rs : List (Rule M)) :
    (us ++ [(n, rs)]).lookup n = some rs := by
  refine List.lookup_eq_some_iff.mpr ⟨us, [], rfl, fun c hc => ?_⟩
  exact bne_iff_ne.mpr fun he => hn (List.mem_map.mpr ⟨c, hc, he.symm⟩)

namespace Extends

variable {t u : Table H M} {n : String} {rs : List (Rule M)} {k : H → List (Rule M)}

theorem rules (h : Extends t n rs k u) : u.rules (.user n) = some rs := by
  rw [Table.rules, h.user]
  exact lookup_append h.absent rs

theorem resolves (h : Extends t n rs k u) {r : Rule M} (hr : r.ResolvesIn [n]) :
    r.ResolvesIn u.names := by
  intro m hm
  obtain rfl := List.mem_singleton.mp (hr m hm)
  rw [names, h.user]
  simp

/-- No rule of `t` leads to a chain that `t` does not have. -/
theorem unreferenced (h : Extends t n [] t.hook u) : u.Unreferenced n := by
  constructor
  · intro x r hr hn
    rw [h.hook] at hr
    exact h.absent (t.hookClosed x r hr n hn)
  · intro c hc r hr hn
    rw [h.user] at hc
    rcases List.mem_append.mp hc with hc | hc
    · exact h.absent (t.userClosed c hc r hr n hn)
    · rw [List.mem_singleton] at hc
      subst hc
      cases hr

variable [DecidableEq H] [Fintype H] [DecidableEq M]

theorem newChain (hn : n ∉ t.names) :
    ∃ u, t.exec (.newChain n) = .ok u ∧ Extends t n [] t.hook u := by
  obtain ⟨u, hu⟩ := newChain_ok hn
  obtain ⟨hp, hk, hus⟩ := of_exec hu
  exact ⟨u, hu, hn, hp, hk, hus⟩

theorem flush (h : Extends t n rs k u) :
    ∃ u', u.exec (.flush (.user n)) = .ok u' ∧ Extends t n [] k u' := by
  obtain ⟨u', hu⟩ := flush_ok h.rules
  obtain ⟨hp, hk, hus⟩ := of_exec hu
  refine ⟨u', hu, h.absent, hp.trans h.policy, hk.trans h.hook, ?_⟩
  rw [hus, h.user]
  exact putUser_append h.absent rs []

theorem append (h : Extends t n rs k u) {r : Rule M} (hr : r.ResolvesIn [n]) :
    ∃ u', u.exec (.append (.user n) r) = .ok u' ∧ Extends t n (rs ++ [r]) k u' := by
  obtain ⟨u', hu⟩ := append_ok h.rules (h.resolves hr)
  obtain ⟨hp, hk, hus⟩ := of_exec hu
  refine ⟨u', hu, h.absent, hp.trans h.policy, hk.trans h.hook, ?_⟩
  rw [hus, h.user]
  show putUser _ n ((List.lookup n _).getD [] ++ [r]) = _
  rw [lookup_append h.absent rs]
  exact putUser_append h.absent rs _

theorem insertHook (h : Extends t n rs k u) (x : H) {r : Rule M} (hr : r.ResolvesIn [n]) :
    ∃ u', u.exec (.insert (.hook x) 1 r) = .ok u' ∧
      Extends t n rs (Function.update k x (r :: k x)) u' := by
  obtain ⟨u', hu⟩ := insert_ok (t := u) (c := .hook x) (n := 1) rfl (by omega) (h.resolves hr)
  obtain ⟨hp, hk, hus⟩ := of_exec hu
  refine ⟨u', hu, h.absent, hp.trans h.policy, ?_, hus.trans h.user⟩
  rw [hk, h.hook]
  rfl

theorem appendHook (h : Extends t n rs k u) (x : H) {r : Rule M} (hr : r.ResolvesIn [n]) :
    ∃ u', u.exec (.append (.hook x) r) = .ok u' ∧
      Extends t n rs (Function.update k x (k x ++ [r])) u' := by
  obtain ⟨u', hu⟩ := append_ok (t := u) (c := .hook x) rfl (h.resolves hr)
  obtain ⟨hp, hk, hus⟩ := of_exec hu
  refine ⟨u', hu, h.absent, hp.trans h.policy, ?_, hus.trans h.user⟩
  rw [hk, h.hook]
  rfl

theorem deleteHook (h : Extends t n rs k u) {x : H} {r : Rule M} (hr : r ∈ k x) :
    ∃ u', u.exec (.delete (.hook x) r) = .ok u' ∧
      Extends t n rs (Function.update k x ((k x).erase r)) u' := by
  obtain ⟨u', hu⟩ := delete_ok (t := u) (c := .hook x) rfl (by rwa [h.hook])
  obtain ⟨hp, hk, hus⟩ := of_exec hu
  refine ⟨u', hu, h.absent, hp.trans h.policy, ?_, hus.trans h.user⟩
  rw [hk, h.hook]
  rfl

/-- **Once the chain is removed, the table is the one from before.** -/
theorem deleteChain (h : Extends t n [] t.hook u) : u.exec (.deleteChain n) = .ok t := by
  obtain ⟨u', hu⟩ := deleteChain_ok h.rules h.unreferenced
  obtain ⟨hp, hk, hus⟩ := of_exec hu
  have huser : u'.user = t.user := by
    have hkeep : ∀ c ∈ t.user, decide (c.1 ≠ n) = true := by
      intro c hc
      exact decide_eq_true fun he => h.absent (List.mem_map.mpr ⟨c, hc, he⟩)
    rw [hus, h.user]
    show List.filter _ (t.user ++ [(n, [])]) = t.user
    rw [List.filter_append, List.filter_eq_self.mpr hkeep]
    simp
  rw [hu, ext' (hp.trans h.policy) (hk.trans h.hook) huser]

end Extends

end Table

end Netfilter
