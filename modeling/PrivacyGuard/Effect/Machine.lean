import Mathlib.Data.List.Infix
import Mathlib.Tactic.Common

set_option autoImplicit false

/-! # Machines and their runs

A machine takes one step after the other, each chosen from outside. A run is the list of the
steps taken; `Always P as` speaks about every state on the way, the first and the last among
them, and `Each cond as` about every step and the state in which it is taken.

To show that a run keeps a property it is enough that the steps do which meet the condition
(`always_of_each`). For the converse, a bad step must be seen at once (`each_of_always`), or stay
bad until it is looked at (`exists_of_lasting`). -/

namespace Effect

variable {σ α : Type}

/-- `step s a` is `none` where the step `a` cannot be taken in `s`. -/
structure Machine (σ α : Type) where
  init : σ
  step : σ → α → Option σ

namespace Machine

variable (M : Machine σ α)

/-- The state after the steps `as`. -/
def run (as : List α) : Option σ := as.foldlM M.step M.init

theorem run_snoc (as : List α) (a : α) : M.run (as ++ [a]) = (M.run as).bind (M.step · a) := by
  rw [run, run, List.foldlM_append]
  exact congrArg _ (funext fun s => Option.bind_fun_some (M.step s a))

/-- `P` holds in every state on the way. -/
def Always (P : σ → Prop) (as : List α) : Prop :=
  ∀ pre s, pre <+: as → M.run pre = some s → P s

/-- Every step is taken in a state in which `cond` allows it. -/
def Each (cond : σ → α → Prop) (as : List α) : Prop :=
  ∀ pre a s, pre ++ [a] <+: as → M.run pre = some s → cond s a

variable {M} {P I : σ → Prop} {cond : σ → α → Prop} {as : List α} {s : σ}

theorem Always.imp (h : M.Always I as) (hP : ∀ s, I s → P s) : M.Always P as :=
  fun pre s hpre hs => hP s (h pre s hpre hs)

/-- What comes before a state on the way are states on the way. -/
theorem run_of_prefix {pre : List α} (h : M.run as = some s) (hpre : pre <+: as) :
    ∃ s', M.run pre = some s' := by
  obtain ⟨post, rfl⟩ := hpre
  rw [run, List.foldlM_append] at h
  obtain ⟨s', hs', -⟩ := Option.bind_eq_some_iff.mp h
  exact ⟨s', hs'⟩

/-- The last of some steps. -/
theorem step_of_run {a : α} {s' : σ} (h : M.run (as ++ [a]) = some s') :
    ∃ s, M.run as = some s ∧ M.step s a = some s' := by
  rw [run_snoc] at h
  exact Option.bind_eq_some_iff.mp h

/-- **The rule for invariants**: what the allowed steps preserve holds in every state. -/
theorem always_of_each (hinit : I M.init)
    (hstep : ∀ s a s', I s → cond s a → M.step s a = some s' → I s') (has : M.Each cond as) :
    M.Always I as := by
  intro pre
  induction pre using List.reverseRecOn with
  | nil =>
      rintro s - hs
      obtain rfl := Option.some.inj hs
      exact hinit
  | append_singleton pre a ih =>
      intro s' hpre hs'
      obtain ⟨s, hs, ha⟩ := step_of_run hs'
      exact hstep s a s' (ih s ((List.prefix_append _ _).trans hpre) hs) (has pre a s hpre hs) ha

/-- An invariant of all steps. -/
theorem invariant (hinit : I M.init) (hstep : ∀ s a s', I s → M.step s a = some s' → I s')
    (h : M.run as = some s) : I s :=
  always_of_each hinit (fun s a s' hs (_ : True) => hstep s a s' hs) (fun _ _ _ _ _ => trivial) as s
    List.prefix_rfl h

/-- A step that is not allowed, taken where all is well, shows in the state after it. -/
theorem each_of_always_run
    (hbad : ∀ pre a s s', M.run pre = some s → P s → M.step s a = some s' → P s' → cond s a)
    (h : M.run as = some s) (has : M.Always P as) : M.Each cond as := by
  intro pre a s₁ hpre hs₁
  obtain ⟨s₂, hs₂⟩ := run_of_prefix h hpre
  obtain ⟨s₁', hs₁', ha⟩ := step_of_run hs₂
  obtain rfl := Option.some.inj (hs₁.symm.trans hs₁')
  have hP : P s₁ := has pre s₁ ((List.prefix_append _ _).trans hpre) hs₁
  exact hbad pre a s₁ s₂ hs₁ hP ha (has _ s₂ hpre hs₂)

/-- A step that is not allowed shows in the state after it, wherever it is taken. -/
theorem each_of_always (hbad : ∀ s a s', M.step s a = some s' → P s' → cond s a)
    (h : M.run as = some s) (has : M.Always P as) : M.Each cond as :=
  each_of_always_run (fun _ a s s' _ _ => hbad s a s') h has

/-- `Each` as a test along the steps. -/
theorem each_of_forall_take (h : ∀ n (hn : n < as.length), ∀ s ∈ M.run (as.take n), cond s as[n]) :
    M.Each cond as := by
  intro pre a s hpre hs
  obtain ⟨post, rfl⟩ := hpre
  have hlt : pre.length < (pre ++ [a] ++ post).length := by
    rw [List.length_append, List.length_append, List.length_singleton]
    omega
  have htake : (pre ++ [a] ++ post).take pre.length = pre := by
    rw [List.append_assoc, List.take_left]
  have hget : (pre ++ [a] ++ post)[pre.length] = a := by
    simp
  have hcond := h pre.length hlt s
  rw [htake, hget] at hcond
  exact hcond hs

/-- What lasts until `B` is still there when `B` comes. -/
theorem exists_of_lasting {D B : σ → Prop} {pre : List α} {s₁ : σ}
    (hkeep : ∀ s a s', D s → ¬ B s → M.step s a = some s' → D s') (h : M.run as = some s)
    (hB : B s) (hpre : pre <+: as) (hs₁ : M.run pre = some s₁) (hD : D s₁) :
    ∃ mid s₂, mid <+: as ∧ M.run mid = some s₂ ∧ D s₂ ∧ B s₂ := by
  obtain ⟨post, rfl⟩ := hpre
  induction post generalizing pre s₁ with
  | nil =>
      rw [List.append_nil] at h ⊢
      obtain rfl := Option.some.inj (hs₁.symm.trans h)
      exact ⟨pre, s₁, List.prefix_rfl, hs₁, hD, hB⟩
  | cons a post ih =>
      by_cases hB₁ : B s₁
      · exact ⟨pre, s₁, List.prefix_append _ _, hs₁, hD, hB₁⟩
      · rw [List.append_cons] at h ⊢
        obtain ⟨s₂, hs₂⟩ := run_of_prefix h (List.prefix_append _ _)
        obtain ⟨s₁', hs₁', ha⟩ := step_of_run hs₂
        obtain rfl := Option.some.inj (hs₁.symm.trans hs₁')
        exact ih hs₂ (hkeep _ _ _ hD hB₁ ha) h

end Machine

end Effect
