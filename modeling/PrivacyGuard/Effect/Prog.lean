import Mathlib.Tactic.Common

set_option autoImplicit false

/-! # Effectful programs and their weakest preconditions

A program that talks to the outside world is a tree: it either returns, or performs one
operation and goes on with the answer. The outside world is a `Handler`: what an operation
does to the state once the world has made a choice (`exec`), and which choices it may make
(`admits`). The same program can then be read under several handlers: one in which every
command may fail, one in which saving always succeeds, and so on.

`Prog.wp H p Q s` says that every run of `p` from `s` that the handler admits ends in an
answer and a state satisfying `Q`. Every program is a finite tree, so this is total
correctness. `Prog.along` asks in addition that an invariant holds in every state the
program passes through, which is what is left on disk when a process is killed.
-/

namespace Effect

/-- A signature: operations, and the type of the answer to each of them. -/
structure Sig where
  Op : Type
  Ret : Op → Type

/-- A program over the signature `S` returning an `α`. -/
inductive Prog (S : Sig) (α : Type) : Type
  | ret (a : α) : Prog S α
  | call (o : S.Op) (k : S.Ret o → Prog S α) : Prog S α

/-- The outside world: `exec o c s` is the answer to `o` and the new state when the world
makes the choice `c` in state `s`, and `admits` says which choices it may make. -/
structure Handler (S : Sig) (σ ι : Type) where
  exec : (o : S.Op) → ι → σ → S.Ret o × σ
  admits : S.Op → ι → σ → Prop

variable {S : Sig} {σ ι α β γ : Type}

namespace Prog

/-- Run `p`, then go on with `f` on its answer. -/
def bind : Prog S α → (α → Prog S β) → Prog S β
  | ret a, f => f a
  | call o k, f => call o (fun r => (k r).bind f)

instance : Monad (Prog S) where
  pure := ret
  bind := bind

/-- The program that performs one operation and returns its answer. -/
def op (o : S.Op) : Prog S (S.Ret o) := call o ret

@[simp] theorem call_bind (o : S.Op) (k : S.Ret o → Prog S α) (f : α → Prog S β) :
    (call o k >>= f) = call o (fun r => k r >>= f) := rfl

theorem bind_assoc (p : Prog S α) (f : α → Prog S β) (g : β → Prog S γ) :
    (p >>= f >>= g) = p >>= fun a => f a >>= g := by
  induction p with
  | ret a => rfl
  | call o k ih => exact congrArg (call o) (funext ih)

theorem map_eq (g : α → β) (p : Prog S α) : g <$> p = p >>= fun a => ret (g a) := rfl

/-! ## Weakest preconditions -/

/-- Every run of `p` from `s` ends with `Q`. -/
def wp (H : Handler S σ ι) : Prog S α → (α → σ → Prop) → σ → Prop
  | ret a, Q, s => Q a s
  | call o k, Q, s =>
      ∀ c, H.admits o c s → (k (H.exec o c s).1).wp H Q (H.exec o c s).2

variable {H : Handler S σ ι}

@[simp] theorem wp_pure (a : α) (Q : α → σ → Prop) (s : σ) :
    (pure a : Prog S α).wp H Q s ↔ Q a s := Iff.rfl

theorem wp_call (o : S.Op) (k : S.Ret o → Prog S α) (Q : α → σ → Prop) (s : σ) :
    (call o k).wp H Q s ↔
      ∀ c, H.admits o c s → (k (H.exec o c s).1).wp H Q (H.exec o c s).2 := Iff.rfl

@[simp] theorem wp_bind (p : Prog S α) (f : α → Prog S β) (Q : β → σ → Prop) (s : σ) :
    (p >>= f).wp H Q s ↔ p.wp H (fun a s' => (f a).wp H Q s') s := by
  induction p generalizing s with
  | ret a => rfl
  | call o k ih =>
      simp only [call_bind, wp_call, ih]

@[simp] theorem wp_map (g : α → β) (p : Prog S α) (Q : β → σ → Prop) (s : σ) :
    (g <$> p).wp H Q s ↔ p.wp H (fun a s' => Q (g a) s') s := by
  rw [map_eq, wp_bind]
  rfl

theorem wp_mono {p : Prog S α} {Q R : α → σ → Prop} {s : σ} (h : p.wp H Q s)
    (hQR : ∀ a s', Q a s' → R a s') : p.wp H R s := by
  induction p generalizing s with
  | ret a => exact hQR a s h
  | call o k ih => exact fun c hc => ih _ (h c hc)

/-- Every run of `p` from `s` passes through states satisfying `I` only, the first and the
last one included, and ends with `Q`. -/
def along (H : Handler S σ ι) (I : σ → Prop) : Prog S α → (α → σ → Prop) → σ → Prop
  | ret a, Q, s => I s ∧ Q a s
  | call o k, Q, s =>
      I s ∧ ∀ c, H.admits o c s → (k (H.exec o c s).1).along H I Q (H.exec o c s).2

variable {I : σ → Prop}

theorem along_call (o : S.Op) (k : S.Ret o → Prog S α) (Q : α → σ → Prop) (s : σ) :
    (call o k).along H I Q s ↔
      I s ∧ ∀ c, H.admits o c s → (k (H.exec o c s).1).along H I Q (H.exec o c s).2 := Iff.rfl

theorem along_op_of_wp {o : S.Op} {Q : S.Ret o → σ → Prop} {s : σ} (hI : I s)
    (h : (op o).wp H (fun a s' => I s' ∧ Q a s') s) : (op o).along H I Q s :=
  ⟨hI, h⟩

theorem along_holds {p : Prog S α} {Q : α → σ → Prop} {s : σ} (h : p.along H I Q s) : I s := by
  cases p with
  | ret a => exact h.1
  | call o k => exact h.1

theorem along_bind (p : Prog S α) (f : α → Prog S β) (Q : β → σ → Prop) (s : σ) :
    (p >>= f).along H I Q s ↔ p.along H I (fun a s' => (f a).along H I Q s') s := by
  induction p generalizing s with
  | ret a => exact ⟨fun h => ⟨along_holds h, h⟩, fun h => h.2⟩
  | call o k ih =>
      simp only [call_bind, along_call, ih]

theorem along_mono {J : σ → Prop} {p : Prog S α} {Q R : α → σ → Prop} {s : σ}
    (h : p.along H I Q s) (hIJ : ∀ s', I s' → J s') (hQR : ∀ a s', Q a s' → R a s') :
    p.along H J R s := by
  induction p generalizing s with
  | ret a => exact ⟨hIJ s h.1, hQR a s h.2⟩
  | call o k ih => exact ⟨hIJ s h.1, fun c hc => ih _ (h.2 c hc)⟩

theorem wp_of_along {p : Prog S α} {Q : α → σ → Prop} {s : σ} (h : p.along H I Q s) :
    p.wp H Q s := by
  induction p generalizing s with
  | ret a => exact h.2
  | call o k ih => exact fun c hc => ih _ (h.2 c hc)

/-- The invariant holds in the last state in particular. -/
theorem along_and_holds {p : Prog S α} {Q : α → σ → Prop} {s : σ} (h : p.along H I Q s) :
    p.along H I (fun a s' => I s' ∧ Q a s') s := by
  induction p generalizing s with
  | ret a => exact ⟨h.1, h⟩
  | call o k ih => exact ⟨h.1, fun c hc => ih _ (h.2 c hc)⟩

theorem along_and_wp {p : Prog S α} {Q R : α → σ → Prop} {s : σ} (h : p.along H I Q s)
    (hR : p.wp H R s) : p.along H I (fun a s' => Q a s' ∧ R a s') s := by
  induction p generalizing s with
  | ret a => exact ⟨h.1, h.2, hR⟩
  | call o k ih => exact ⟨h.1, fun c hc => ih _ (h.2 c hc) (hR c hc)⟩

/-! ## Programs that use only some operations -/

/-- Every operation `p` can ever perform satisfies `P`. -/
def all (P : S.Op → Prop) : Prog S α → Prop
  | ret _ => True
  | call o k => P o ∧ ∀ r, (k r).all P

variable {P : S.Op → Prop}

@[simp] theorem all_pure (a : α) : (pure a : Prog S α).all P := trivial

@[simp] theorem all_op (o : S.Op) : (op o : Prog S (S.Ret o)).all P ↔ P o :=
  ⟨fun h => h.1, fun h => ⟨h, fun _ => trivial⟩⟩

theorem all_bind {p : Prog S α} {f : α → Prog S β} (hp : p.all P) (hf : ∀ a, (f a).all P) :
    (p >>= f).all P := by
  induction p with
  | ret a => exact hf a
  | call o k ih => exact ⟨hp.1, fun r => ih r (hp.2 r)⟩

theorem all_ite {b : Prop} [Decidable b] {p q : Prog S α} (hp : p.all P) (hq : q.all P) :
    (if b then p else q).all P := by
  split
  · exact hp
  · exact hq

theorem all_mono {P' : S.Op → Prop} {p : Prog S α} (h : p.all P) (hP : ∀ o, P o → P' o) :
    p.all P' := by
  induction p with
  | ret a => trivial
  | call o k ih => exact ⟨hP o h.1, fun r => ih r (h.2 r)⟩

theorem all_and {P' : S.Op → Prop} {p : Prog S α} (h : p.all P) (h' : p.all P') :
    p.all fun o => P o ∧ P' o := by
  induction p with
  | ret a => trivial
  | call o k ih => exact ⟨⟨h.1, h'.1⟩, fun r => ih r (h.2 r) (h'.2 r)⟩

theorem along_true (p : Prog S α) (s : σ) :
    p.along H (fun _ => True) (fun _ _ => True) s := by
  induction p generalizing s with
  | ret a => exact ⟨trivial, trivial⟩
  | call o k ih => exact ⟨trivial, fun c _ => ih _ _⟩

theorem wp_true (p : Prog S α) (s : σ) : p.wp H (fun _ _ => True) s :=
  wp_of_along (along_true p s)

theorem along_of_wp {p : Prog S α} {Q : α → σ → Prop} {s : σ} (h : p.wp H Q s) :
    p.along H (fun _ => True) Q s :=
  along_mono (along_and_wp (along_true p s) h) (fun _ h => h) fun _ _ h => h.2

/-- If each operation `p` may perform keeps `I`, then `I` holds all along a run of `p`. -/
theorem along_of_all {p : Prog S α} {s : σ} (hp : p.all P)
    (hstep : ∀ o c s, P o → H.admits o c s → I s → I (H.exec o c s).2) (hs : I s) :
    p.along H I (fun _ => I) s := by
  induction p generalizing s with
  | ret a => exact ⟨hs, hs⟩
  | call o k ih => exact ⟨hs, fun c hc => ih _ (hp.2 _) (hstep o c s hp.1 hc hs)⟩

theorem wp_of_all {p : Prog S α} {s : σ} (hp : p.all P)
    (hstep : ∀ o c s, P o → H.admits o c s → I s → I (H.exec o c s).2) (hs : I s) :
    p.wp H (fun _ => I) s :=
  wp_of_along (along_of_all hp hstep hs)

end Prog

end Effect
