import PrivacyGuard.Effect.Prog

set_option autoImplicit false

/-! # Runs of effectful programs

`Steps H p s tr q s'`: program `p`, started in `s`, can perform the operations listed in
`tr` (each with the answer it got) and is then in state `s'` with the program `q` still to
do. A complete run ends in a program that returns. `Calls` strings complete runs together,
one after the other, as a process that performs one action after the other does.

The last section executes programs: `Prog.run` and `Prog.runN` make given choices, and their
results are runs in the above sense.
-/

namespace Effect

variable {S : Sig} {σ ι α β κ : Type}

/-- One operation performed, with its answer. -/
abbrev Event (S : Sig) : Type := Σ o : S.Op, S.Ret o

namespace Prog

variable {H : Handler S σ ι}

/-- Partial runs, with their trace. -/
inductive Steps (H : Handler S σ ι) {α : Type} :
    Prog S α → σ → List (Event S) → Prog S α → σ → Prop
  | refl (p : Prog S α) (s : σ) : Steps H p s [] p s
  | call {o : S.Op} {k : S.Ret o → Prog S α} {s : σ} (c : ι) {tr : List (Event S)}
      {q : Prog S α} {s' : σ} (hc : H.admits o c s)
      (h : Steps H (k (H.exec o c s).1) (H.exec o c s).2 tr q s') :
      Steps H (call o k) s (⟨o, (H.exec o c s).1⟩ :: tr) q s'

/-- Complete runs. -/
def Runs (H : Handler S σ ι) (p : Prog S α) (s : σ) (tr : List (Event S)) (a : α)
    (s' : σ) : Prop :=
  Steps H p s tr (ret a) s'

theorem Steps.trans {p q r : Prog S α} {s s₁ s₂ : σ} {tr₁ tr₂ : List (Event S)}
    (h₁ : Steps H p s tr₁ q s₁) (h₂ : Steps H q s₁ tr₂ r s₂) :
    Steps H p s (tr₁ ++ tr₂) r s₂ := by
  induction h₁ with
  | refl p s => exact h₂
  | call c hc _ ih => exact .call c hc (ih h₂)

theorem Runs.of_ret {a b : α} {s s' : σ} {tr : List (Event S)}
    (h : Runs H (ret a) s tr b s') : tr = [] ∧ b = a ∧ s' = s := by
  cases h
  exact ⟨rfl, rfl, rfl⟩

/-- The weakest precondition speaks about exactly the complete runs. -/
theorem wp_iff_runs {p : Prog S α} {Q : α → σ → Prop} {s : σ} :
    p.wp H Q s ↔ ∀ tr a s', Runs H p s tr a s' → Q a s' := by
  induction p generalizing s with
  | ret a =>
      constructor
      · intro h tr b s' hr
        obtain ⟨-, rfl, rfl⟩ := Runs.of_ret hr
        exact h
      · exact fun h => h [] a s (.refl _ _)
  | call o k ih =>
      constructor
      · intro h tr b s' hr
        cases hr with
        | call c hc hr => exact (ih _).mp (h c hc) _ _ _ hr
      · exact fun h c hc => (ih _).mpr fun tr a s' hr => h _ a s' (.call c hc hr)

theorem Runs.post {p : Prog S α} {Q : α → σ → Prop} {s s' : σ} {tr : List (Event S)} {a : α}
    (h : Runs H p s tr a s') (hp : p.wp H Q s) : Q a s' :=
  wp_iff_runs.mp hp tr a s' h

/-- An invariant that holds along a program holds wherever the program is interrupted. -/
theorem Steps.along {I : σ → Prop} {p q : Prog S α} {Q : α → σ → Prop} {s s' : σ}
    {tr : List (Event S)} (h : Steps H p s tr q s') (hp : p.along H I Q s) :
    q.along H I Q s' := by
  induction h with
  | refl p s => exact hp
  | call c hc _ ih => exact ih (hp.2 c hc)

theorem Steps.invariant {I : σ → Prop} {p q : Prog S α} {Q : α → σ → Prop} {s s' : σ}
    {tr : List (Event S)} (h : Steps H p s tr q s') (hp : p.along H I Q s) : I s' :=
  along_holds (h.along hp)

end Prog

/-! ## Sequences of calls -/

section Calls

variable {H : Handler S σ ι}

/-- The programs `body x` of a list of calls run one after the other, each in a state in
which `pre` allows it; each call is listed with the answer it returned. -/
inductive Calls (H : Handler S σ ι) (body : κ → Prog S α) (pre : κ → σ → Prop) :
    σ → List (κ × α) → σ → Prop
  | nil (s : σ) : Calls H body pre s [] s
  | cons {s s₁ s₂ : σ} {x : κ} {a : α} {tr : List (Event S)} {cs : List (κ × α)}
      (hx : pre x s) (h : Prog.Runs H (body x) s tr a s₁) (hcs : Calls H body pre s₁ cs s₂) :
      Calls H body pre s ((x, a) :: cs) s₂

variable {body : κ → Prog S α} {pre : κ → σ → Prop}

theorem Calls.append {s s₁ s₂ : σ} {cs ds : List (κ × α)} (h₁ : Calls H body pre s cs s₁)
    (h₂ : Calls H body pre s₁ ds s₂) : Calls H body pre s (cs ++ ds) s₂ := by
  induction h₁ with
  | nil s => exact h₂
  | cons hx h _ ih => exact .cons hx h (ih h₂)

theorem Calls.of_append {s s₂ : σ} {cs ds : List (κ × α)}
    (h : Calls H body pre s (cs ++ ds) s₂) :
    ∃ s₁, Calls H body pre s cs s₁ ∧ Calls H body pre s₁ ds s₂ := by
  induction cs generalizing s with
  | nil => exact ⟨s, .nil s, h⟩
  | cons x cs ih =>
      cases h with
      | cons hx hr h =>
          obtain ⟨s₁, h₁, h₂⟩ := ih h
          exact ⟨s₁, .cons hx hr h₁, h₂⟩

theorem Calls.of_singleton {s s' : σ} {x : κ} {a : α}
    (h : Calls H body pre s [(x, a)] s') : pre x s ∧ ∃ tr, Prog.Runs H (body x) s tr a s' := by
  cases h with
  | cons hx h hcs =>
      cases hcs
      exact ⟨hx, _, h⟩

/-- An invariant kept by every allowed call holds after every sequence of them. -/
theorem Calls.invariant {I : σ → Prop} {s s' : σ} {cs : List (κ × α)}
    (h : Calls H body pre s cs s')
    (hstep : ∀ x s, pre x s → I s → (body x).wp H (fun _ => I) s) (hs : I s) : I s' := by
  induction h with
  | nil s => exact hs
  | cons hx hr _ ih => exact ih (hr.post (hstep _ _ hx hs))

/-- The states met while a sequence of calls is running: between two calls, or during one. -/
inductive Reached (H : Handler S σ ι) (body : κ → Prog S α) (pre : κ → σ → Prop) (s : σ) :
    σ → Prop
  | between {cs : List (κ × α)} {s' : σ} (h : Calls H body pre s cs s') :
      Reached H body pre s s'
  | during {cs : List (κ × α)} {s₁ s' : σ} {x : κ} {tr : List (Event S)} {q : Prog S α}
      (h : Calls H body pre s cs s₁) (hx : pre x s₁) (hq : Prog.Steps H (body x) s₁ tr q s') :
      Reached H body pre s s'

theorem Reached.invariant {I : σ → Prop} {s s' : σ} (h : Reached H body pre s s')
    (hstep : ∀ x s, pre x s → I s → (body x).along H I (fun _ => I) s) (hs : I s) : I s' := by
  have hcalls : ∀ x s, pre x s → I s → (body x).wp H (fun _ => I) s :=
    fun x s hx hs => Prog.wp_of_along (hstep x s hx hs)
  cases h with
  | between h => exact h.invariant hcalls hs
  | during h hx hq => exact hq.invariant (hstep _ _ hx (h.invariant hcalls hs))

end Calls

/-! ## Executing programs -/

section Execution

/-- Run `p` with the choices `pick` makes. -/
def Prog.run (H : Handler S σ ι) (pick : S.Op → σ → ι) : Prog S α → σ → α × σ
  | ret a, s => (a, s)
  | call o k, s =>
      (k (H.exec o (pick o s) s).1).run H pick (H.exec o (pick o s) s).2

/-- The events of that run. -/
def Prog.events (H : Handler S σ ι) (pick : S.Op → σ → ι) : Prog S α → σ → List (Event S)
  | ret _, _ => []
  | call o k, s =>
      ⟨o, (H.exec o (pick o s) s).1⟩ ::
        (k (H.exec o (pick o s) s).1).events H pick (H.exec o (pick o s) s).2

theorem Prog.run_bind (H : Handler S σ ι) (pick : S.Op → σ → ι) (p : Prog S α)
    (f : α → Prog S β) (s : σ) :
    (p >>= f).run H pick s = (f (p.run H pick s).1).run H pick (p.run H pick s).2 := by
  induction p generalizing s with
  | ret a => rfl
  | call o k ih => exact ih _ _

theorem Prog.events_bind (H : Handler S σ ι) (pick : S.Op → σ → ι) (p : Prog S α)
    (f : α → Prog S β) (s : σ) :
    (p >>= f).events H pick s =
      p.events H pick s ++ (f (p.run H pick s).1).events H pick (p.run H pick s).2 := by
  induction p generalizing s with
  | ret a => rfl
  | call o k ih => exact congrArg (_ :: ·) (ih _ _)

/-- The first `n` operations of `p`. -/
def Prog.runN (H : Handler S σ ι) (pick : S.Op → σ → ι) : Nat → Prog S α → σ → Prog S α × σ
  | n + 1, call o k, s =>
      (k (H.exec o (pick o s) s).1).runN H pick n (H.exec o (pick o s) s).2
  | _, p, s => (p, s)

/-- The calls `xs` one after the other. -/
def runCalls (H : Handler S σ ι) (pick : S.Op → σ → ι) (body : κ → Prog S α) :
    List κ → σ → List (κ × α) × σ
  | [], s => ([], s)
  | x :: xs, s =>
      let r := (body x).run H pick s
      let rest := runCalls H pick body xs r.2
      ((x, r.1) :: rest.1, rest.2)

/-- Each of the calls `xs` is allowed when `runCalls` comes to it. -/
def Allowed (H : Handler S σ ι) (pick : S.Op → σ → ι) (body : κ → Prog S α)
    (pre : κ → σ → Prop) : List κ → σ → Prop
  | [], _ => True
  | x :: xs, s => pre x s ∧ Allowed H pick body pre xs ((body x).run H pick s).2

variable {H : Handler S σ ι} {pick : S.Op → σ → ι}

theorem allowed_of_forall (body : κ → Prog S α) {pre : κ → σ → Prop} (h : ∀ x s, pre x s)
    (xs : List κ) (s : σ) : Allowed H pick body pre xs s := by
  induction xs generalizing s with
  | nil => trivial
  | cons x xs ih => exact ⟨h x s, ih _⟩

theorem Prog.runs_events (hpick : ∀ o s, H.admits o (pick o s) s) (p : Prog S α) (s : σ) :
    Runs H p s (p.events H pick s) (p.run H pick s).1 (p.run H pick s).2 := by
  induction p generalizing s with
  | ret a => exact .refl _ _
  | call o k ih => exact .call (pick o s) (hpick o s) (ih _ _)

theorem Prog.runs_run (hpick : ∀ o s, H.admits o (pick o s) s) (p : Prog S α) (s : σ) :
    ∃ tr, Runs H p s tr (p.run H pick s).1 (p.run H pick s).2 :=
  ⟨_, runs_events hpick p s⟩

/-- A run with a known answer. -/
theorem Prog.runs_of_run (hpick : ∀ o s, H.admits o (pick o s) s) {p : Prog S α} {s : σ} {a : α}
    (h : (p.run H pick s).1 = a) : ∃ tr, Runs H p s tr a (p.run H pick s).2 := by
  rw [← h]
  exact runs_run hpick p s

theorem Prog.steps_runN (hpick : ∀ o s, H.admits o (pick o s) s) (n : Nat) (p : Prog S α)
    (s : σ) : ∃ tr, Steps H p s tr (p.runN H pick n s).1 (p.runN H pick n s).2 := by
  induction n generalizing p s with
  | zero => exact ⟨[], .refl _ _⟩
  | succ n ih =>
      cases p with
      | ret a => exact ⟨[], .refl _ _⟩
      | call o k =>
          obtain ⟨tr, htr⟩ := ih (k (H.exec o (pick o s) s).1) (H.exec o (pick o s) s).2
          exact ⟨_, .call (pick o s) (hpick o s) htr⟩

theorem calls_runCalls {body : κ → Prog S α} {pre : κ → σ → Prop}
    (hpick : ∀ o s, H.admits o (pick o s) s) {xs : List κ} {s : σ}
    (hxs : Allowed H pick body pre xs s) :
    Calls H body pre s (runCalls H pick body xs s).1 (runCalls H pick body xs s).2 := by
  induction xs generalizing s with
  | nil => exact .nil s
  | cons x xs ih =>
      obtain ⟨tr, htr⟩ := Prog.runs_run hpick (body x) s
      exact .cons hxs.1 htr (ih hxs.2)

end Execution

end Effect
