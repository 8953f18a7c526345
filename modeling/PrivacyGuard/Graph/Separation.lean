import Mathlib.Data.Set.Basic
import Mathlib.Data.List.Chain

set_option autoImplicit false

/-! # Separation in a graph

A set of vertices separates `a` from `b` when every walk from `a` to `b` meets it. To show it,
one gives a set `U` with `a` but not `b` in it that no edge leaves except into the separating
set. -/

namespace Graph

variable {α : Type} {E : α → α → Prop} {S U : Set α} {a b : α}

/-- The vertices `l` behind `a` make a walk from `a` to `b`. -/
structure IsWalk (E : α → α → Prop) (a b : α) (l : List α) : Prop where
  chain : List.IsChain E (a :: l)
  last : (a :: l).getLast (List.cons_ne_nil a l) = b

theorem IsWalk.tail {c : α} {l : List α} (h : IsWalk E a b (c :: l)) : E a c ∧ IsWalk E c b l := by
  obtain ⟨hedge, hchain⟩ := List.isChain_cons_cons.mp h.chain
  refine ⟨hedge, hchain, ?_⟩
  rw [← h.last]
  exact (List.getLast_cons _).symm

/-- Every walk from `a` to `b` meets `S`. -/
def Cuts (E : α → α → Prop) (S : Set α) (a b : α) : Prop :=
  ∀ l, IsWalk E a b l → ∃ x ∈ a :: l, x ∈ S

/-- No edge leads out of `U`, except into `S` or from it. -/
def ClosedUpTo (E : α → α → Prop) (S U : Set α) : Prop :=
  ∀ x ∈ U, x ∉ S → ∀ y, E x y → y ∈ U ∨ y ∈ S

theorem cuts_of_closed (hU : ClosedUpTo E S U) (ha : a ∈ U ∨ a ∈ S) (hb : b ∉ U) :
    Cuts E S a b := by
  intro l hl
  induction l generalizing a with
  | nil =>
      obtain rfl : a = b := hl.last
      exact ⟨a, List.mem_singleton_self a, ha.resolve_left hb⟩
  | cons c l ih =>
      by_cases haS : a ∈ S
      · exact ⟨a, List.mem_cons_self, haS⟩
      · obtain ⟨hedge, hwalk⟩ := hl.tail
        obtain ⟨x, hx, hxS⟩ := ih (hU a (ha.resolve_right haS) haS c hedge) hwalk
        exact ⟨x, List.mem_cons_of_mem _ hx, hxS⟩

end Graph
