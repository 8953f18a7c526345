import PrivacyGuard.Effect.Mutex

set_option autoImplicit false

/-! # Protocols

A protocol says which operations a program may perform at each of its stages, and to which
stage an operation leads. The stage of a thread that follows a protocol is a function of what
the thread has done so far (`Turns.follows`), so that an invariant of the pool can speak of
the stages of its threads. -/

namespace Effect

variable {S : Sig} {σ ι α β χ κ τ : Type}

/-- The stages are `τ`; `answers` are the answers that an operation may get. -/
structure Protocol (S : Sig) (τ : Type) where
  allowed : τ → S.Op → Prop
  answers : (o : S.Op) → S.Ret o → Prop
  next : τ → (o : S.Op) → S.Ret o → τ

namespace Protocol

variable (P : Protocol S τ)

/-- The stage after the events `tr`. -/
def after (t : τ) (tr : List (Event S)) : τ := tr.foldl (fun t e => P.next t e.1 e.2) t

theorem after_snoc (t : τ) (tr : List (Event S)) (e : Event S) :
    P.after t (tr ++ [e]) = P.next (P.after t tr) e.1 e.2 := by
  simp [after]

end Protocol

namespace Prog

/-- From the stage `t` on, the program performs allowed operations only, and `Q` holds of the
stage at its end. -/
def follows (P : Protocol S τ) : Prog S α → (α → τ → Prop) → τ → Prop
  | ret a, Q, t => Q a t
  | call o k, Q, t => P.allowed t o ∧ ∀ r, P.answers o r → (k r).follows P Q (P.next t o r)

variable {P : Protocol S τ}

theorem follows_bind (p : Prog S α) (f : α → Prog S β) (Q : β → τ → Prop) (t : τ) :
    (p >>= f).follows P Q t ↔ p.follows P (fun a t' => (f a).follows P Q t') t := by
  induction p generalizing t with
  | ret a => rfl
  | call o k ih =>
      have hk : ∀ r, (k r >>= f).follows P Q (P.next t o r) ↔
          (k r).follows P (fun a t' => (f a).follows P Q t') (P.next t o r) := fun r => ih r _
      simp only [call_bind, follows, hk]

theorem follows_mono {p : Prog S α} {Q R : α → τ → Prop} {t : τ} (h : p.follows P Q t)
    (hQR : ∀ a t', Q a t' → R a t') : p.follows P R t := by
  induction p generalizing t with
  | ret a => exact hQR a t h
  | call o k ih =>
      refine ⟨h.1, ?_⟩
      intro r hr
      exact ih r (h.2 r hr)

/-- Calls that all begin and end at the stage `t`. -/
theorem follows_session {body : χ → Prog S β} {t : τ}
    (hbody : ∀ x, (body x).follows P (fun _ t' => t' = t) t) (done : List β) (xs : List χ) :
    (session body done xs).follows P (fun _ t' => t' = t) t := by
  induction xs generalizing done with
  | nil => rfl
  | cons x xs ih =>
      rw [session_cons, follows_bind]
      refine follows_mono (hbody x) ?_
      intro b t' ht'
      rw [ht']
      exact ih (done ++ [b])

end Prog

variable [DecidableEq κ]

/-- What the thread `i` has done. -/
def eventsOf (i : κ) (tr : List (κ × Event S)) : List (Event S) :=
  (tr.filter fun e => e.1 = i).map Prod.snd

section

variable {i j : κ} {e : Event S} {tr : List (κ × Event S)}

theorem eventsOf_self : eventsOf i (tr ++ [(i, e)]) = eventsOf i tr ++ [e] := by
  simp [eventsOf]

theorem eventsOf_other (h : j ≠ i) : eventsOf j (tr ++ [(i, e)]) = eventsOf j tr := by
  simp [eventsOf, Ne.symm h]

end

/-- A pool whose threads follow their protocols. -/
theorem Turns.follows {H : Handler S σ ι} {P : κ → Protocol S τ} {body : κ → Prog S α} {t₀ : τ}
    {Q : α → τ → Prop} (hanswers : ∀ i o x s, (P i).answers o (H.exec o x s).1)
    (hbody : ∀ i, (body i).follows (P i) Q t₀) {s₀ s : σ} {tr : List (κ × Event S)}
    {c : κ → Thread S α} (h : Turns H (start body) s₀ tr c s) (i : κ) :
    (c i).rest.follows (P i) Q ((P i).after t₀ (eventsOf i tr)) := by
  induction h with
  | refl => exact hbody i
  | @turn tr c s j o k _ hj x hx ih =>
      by_cases hij : i = j
      · subst hij
        rw [hj] at ih
        rw [eventsOf_self, Protocol.after_snoc, Function.update_self]
        exact ih.2 _ (hanswers i o x s)
      · rw [eventsOf_other hij, Function.update_of_ne hij]
        exact ih

end Effect
