import PrivacyGuard.Effect.Machine

set_option autoImplicit false

/-! # A machine with a reader

A machine writes items into a queue, and a reader takes them out one by one, at any time and as
often as it likes. `written` is all that has ever been put into the queue: if the steps of the
machine only add to it, the reader gets the items in the order in which they were put, each once,
and has them all as soon as it finds nothing. -/

namespace Effect

variable {σ α β : Type}

/-- The machine, and what has been taken out of its queue. -/
structure Read (σ β : Type) where
  sys : σ
  seen : List β

inductive ReadAct (α : Type)
  | sys (a : α)
  /-- The next item is taken out, if there is one. -/
  | take
  deriving DecidableEq

namespace Machine

def withReader (M : Machine σ α) (written : σ → List β) : Machine (Read σ β) (ReadAct α) where
  init := ⟨M.init, []⟩
  step r
    | .sys a => (M.step r.sys a).map fun s => { r with sys := s }
    | .take => some { r with seen := r.seen ++ ((written r.sys)[r.seen.length]?).toList }

/-- The steps of the machine itself. -/
def ownSteps (as : List (ReadAct α)) : List α :=
  as.filterMap fun
    | .sys a => some a
    | .take => none

/-- Nothing is taken back. -/
def Adds (M : Machine σ α) (written : σ → List β) : Prop :=
  ∀ s a s', M.step s a = some s' → written s <+: written s'

variable {M : Machine σ α} {written : σ → List β} {as : List (ReadAct α)} {r r' : Read σ β}

theorem ownSteps_append (as bs : List (ReadAct α)) :
    ownSteps (as ++ bs) = ownSteps as ++ ownSteps bs :=
  List.filterMap_append

/-- The machine runs as it does without a reader. -/
theorem run_ownSteps (h : (M.withReader written).run as = some r) :
    M.run (ownSteps as) = some r.sys := by
  induction as using List.reverseRecOn generalizing r with
  | nil =>
      obtain rfl := Option.some.inj h
      rfl
  | append_singleton as a ih =>
      obtain ⟨r₁, hr₁, ha⟩ := step_of_run h
      rw [ownSteps_append]
      cases a with
      | sys a =>
          obtain ⟨s, hs, rfl⟩ := Option.map_eq_some_iff.mp ha
          have hown : ownSteps [ReadAct.sys a] = [a] := rfl
          rw [hown, run_snoc, ih hr₁]
          exact hs
      | take =>
          obtain rfl := Option.some.inj ha
          have hown : ownSteps [(ReadAct.take : ReadAct α)] = [] := rfl
          have hrun := ih hr₁
          rw [hown, List.append_nil]
          exact hrun

theorem take_prefix {seen items : List β} (h : seen <+: items) :
    seen ++ (items[seen.length]?).toList <+: items := by
  obtain ⟨rest, rfl⟩ := h
  cases rest with
  | nil => simp
  | cons x rest => simp

/-- **In order, and each once.** What has been taken out is the beginning of what has been put
in. -/
theorem seen_prefix (hM : M.Adds written) (h : (M.withReader written).run as = some r) :
    r.seen <+: written r.sys := by
  refine invariant (I := fun r : Read σ β => r.seen <+: written r.sys) List.nil_prefix ?_ h
  intro r a r' hr ha
  cases a with
  | sys a =>
      obtain ⟨s, hs, rfl⟩ := Option.map_eq_some_iff.mp ha
      exact hr.trans (hM _ _ _ hs)
  | take =>
      obtain rfl := Option.some.inj ha
      exact take_prefix hr

/-- As many items as the reader asks for, if there are so many. -/
theorem run_takes (h : (M.withReader written).run as = some r) (hr : r.seen <+: written r.sys)
    (n : Nat) :
    (M.withReader written).run (as ++ List.replicate n .take) =
      some { r with seen := (written r.sys).take (r.seen.length + n) } := by
  induction n with
  | zero =>
      have hseen := List.prefix_iff_eq_take.mp hr
      rw [List.replicate_zero, List.append_nil, h, Nat.add_zero, ← hseen]
  | succ n ih =>
      rw [List.replicate_succ', ← List.append_assoc, run_snoc, ih]
      obtain ⟨rest, hrest⟩ := hr
      refine congrArg some ?_
      have hstep : (written r.sys).take (r.seen.length + n) ++
          ((written r.sys)[((written r.sys).take (r.seen.length + n)).length]?).toList =
            (written r.sys).take (r.seen.length + (n + 1)) := by
        rw [← Nat.add_assoc, List.take_add_one, List.length_take]
        by_cases hlen : r.seen.length + n ≤ (written r.sys).length
        · rw [min_eq_left hlen]
        · have hle : (written r.sys).length ≤ r.seen.length + n := by omega
          rw [min_eq_right hle, List.getElem?_eq_none hle, List.getElem?_eq_none le_rfl]
      exact congrArg (Read.mk r.sys) hstep

end Machine

end Effect
