import PrivacyGuard.Effect.Runs

set_option autoImplicit false

/-! # What a program has done before

`Prog.guarded P G p Q t`: performed after the events `t`, the program `p` performs an
operation satisfying `P` only when the events up to then satisfy `G`, and ends with `Q` of
its answer and all events. The rules hold whatever the outside world answers, and
`Steps.guarded` carries the result to the trace of every run.

`Prog.within H P p Q s` is about the operations themselves: in every run of `p` from `s` that the
handler admits they satisfy `P`, also where it takes the state to see this. -/

namespace Effect

variable {S : Sig} {σ ι α β : Type}

namespace Prog

/-- The events `tr` with which `p` can end in the answer `a`. -/
inductive Trace {α : Type} : Prog S α → List (Event S) → α → Prop
  | ret (a : α) : Trace (ret a) [] a
  | call {o : S.Op} {k : S.Ret o → Prog S α} (r : S.Ret o) {tr : List (Event S)} {a : α}
      (h : Trace (k r) tr a) : Trace (call o k) (⟨o, r⟩ :: tr) a

theorem Trace.of_bind {p : Prog S α} {f : α → Prog S β} {tr : List (Event S)} {b : β}
    (h : (p >>= f).Trace tr b) :
    ∃ tr₁ a tr₂, p.Trace tr₁ a ∧ (f a).Trace tr₂ b ∧ tr = tr₁ ++ tr₂ := by
  induction p generalizing tr with
  | ret a => exact ⟨[], a, tr, .ret a, h, rfl⟩
  | call o k ih =>
      cases h with
      | call r h =>
          obtain ⟨tr₁, a, tr₂, h₁, h₂, rfl⟩ := ih r h
          exact ⟨_ :: tr₁, a, tr₂, .call r h₁, h₂, rfl⟩

theorem Trace.of_ret {a b : α} {tr : List (Event S)} (h : (Prog.ret a : Prog S α).Trace tr b) :
    tr = [] ∧ b = a := by
  cases h
  exact ⟨rfl, rfl⟩

theorem Runs.trace {H : Handler S σ ι} {p : Prog S α} {s s' : σ} {tr : List (Event S)} {a : α}
    (h : Runs H p s tr a s') : p.Trace tr a := by
  induction p generalizing s tr with
  | ret b =>
      obtain ⟨rfl, rfl, -⟩ := Runs.of_ret h
      exact .ret a
  | call o k ih =>
      cases h with
      | call c _ h => exact .call _ (ih _ h)

/-- What holds of all operations of a program holds of those it has performed. -/
theorem Trace.forall_mem {P : S.Op → Prop} {p : Prog S α} {tr : List (Event S)} {a : α}
    (h : p.Trace tr a) (hp : p.all P) : ∀ e ∈ tr, P e.1 := by
  induction h with
  | ret a => exact fun e he => absurd he List.not_mem_nil
  | call r _ ih => exact List.forall_mem_cons.mpr ⟨hp.1, ih (hp.2 r)⟩

theorem Steps.forall_mem {H : Handler S σ ι} {P : S.Op → Prop} {p q : Prog S α} {s s' : σ}
    {tr : List (Event S)} (h : Steps H p s tr q s') (hp : p.all P) : ∀ e ∈ tr, P e.1 := by
  induction h with
  | refl p s => exact fun e he => absurd he List.not_mem_nil
  | call c _ _ ih => exact List.forall_mem_cons.mpr ⟨hp.1, ih (hp.2 _)⟩

/-- A run can be stopped after each of its events. -/
theorem Steps.split {H : Handler S σ ι} {p q : Prog S α} {s s' : σ} {tr₁ tr₂ : List (Event S)}
    (h : Steps H p s (tr₁ ++ tr₂) q s') :
    ∃ r s₁, Steps H p s tr₁ r s₁ ∧ Steps H r s₁ tr₂ q s' := by
  induction tr₁ generalizing p s with
  | nil => exact ⟨p, s, .refl p s, h⟩
  | cons e tr₁ ih =>
      cases h with
      | call c hc h =>
          obtain ⟨r, s₁, h₁, h₂⟩ := ih h
          exact ⟨r, s₁, .call c hc h₁, h₂⟩

def guarded (P : S.Op → Prop) (G : List (Event S) → Prop) :
    Prog S α → (α → List (Event S) → Prop) → List (Event S) → Prop
  | ret a, Q, t => Q a t
  | call o k, Q, t => (P o → G t) ∧ ∀ r, (k r).guarded P G Q (t ++ [⟨o, r⟩])

variable {P : S.Op → Prop} {G : List (Event S) → Prop}

theorem guarded_bind (p : Prog S α) (f : α → Prog S β) (Q : β → List (Event S) → Prop)
    (t : List (Event S)) :
    (p >>= f).guarded P G Q t ↔ p.guarded P G (fun a t' => (f a).guarded P G Q t') t := by
  induction p generalizing t with
  | ret a => rfl
  | call o k ih =>
      simp only [call_bind, guarded, ih]

theorem guarded_mono {p : Prog S α} {Q R : α → List (Event S) → Prop} {t : List (Event S)}
    (h : p.guarded P G Q t) (hQR : ∀ a t', Q a t' → R a t') : p.guarded P G R t := by
  induction p generalizing t with
  | ret a => exact hQR a t h
  | call o k ih => exact ⟨h.1, fun r => ih r (h.2 r)⟩

/-- A program without operations satisfying `P` only adds its own trace to the history. -/
theorem guarded_of_all {p : Prog S α} (hp : p.all fun o => ¬ P o) (t : List (Event S)) :
    p.guarded P G (fun a t' => ∃ tr, t' = t ++ tr ∧ p.Trace tr a) t := by
  induction p generalizing t with
  | ret a => exact ⟨[], (List.append_nil t).symm, .ret a⟩
  | call o k ih =>
      refine ⟨fun ho => absurd ho hp.1, fun r => guarded_mono (ih r (hp.2 r) _) ?_⟩
      rintro a t' ⟨tr, rfl, htr⟩
      exact ⟨⟨o, r⟩ :: tr, by rw [List.append_assoc]; rfl, .call r htr⟩

/-- Once `G` holds for good, everything is allowed. -/
theorem guarded_of_holds {p : Prog S α} {t : List (Event S)}
    (hG : ∀ t e, G t → G (t ++ [e])) (ht : G t) : p.guarded P G (fun _ => G) t := by
  induction p generalizing t with
  | ret a => exact ht
  | call o k ih => exact ⟨fun _ => ht, fun r => ih r (hG t _ ht)⟩

/-- In every run, an operation satisfying `P` comes after events satisfying `G`. -/
theorem Steps.guarded {H : Handler S σ ι} {p q : Prog S α} {Q : α → List (Event S) → Prop}
    {s s' : σ} {tr t : List (Event S)} (h : Steps H p s tr q s') (hp : p.guarded P G Q t) :
    ∀ t₁ e t₂, tr = t₁ ++ e :: t₂ → P e.1 → G (t ++ t₁) := by
  induction h generalizing t with
  | refl p s =>
      intro t₁ e t₂ htr
      cases t₁ <;> cases htr
  | @call o k s c tr q s' hc _ ih =>
      intro t₁ e t₂ htr he
      cases t₁ with
      | nil =>
          -- the operation in question is the next one
          cases htr
          rw [List.append_nil]
          exact hp.1 he
      | cons e' t₁ =>
          -- it comes later; the next one joins the history
          obtain ⟨rfl, rfl⟩ := List.cons.inj htr
          have h' := ih (hp.2 _) t₁ e t₂ rfl he
          rwa [List.append_assoc] at h'

/-! ## What a program does from a state -/

/-- Every run of `p` from `s` performs only operations satisfying `P`, and ends with `Q`. -/
def within (H : Handler S σ ι) (P : S.Op → Prop) : Prog S α → (α → σ → Prop) → σ → Prop
  | ret a, Q, s => Q a s
  | call o k, Q, s =>
      P o ∧ ∀ c, H.admits o c s → (k (H.exec o c s).1).within H P Q (H.exec o c s).2

variable {H : Handler S σ ι}

theorem within_bind (p : Prog S α) (f : α → Prog S β) (Q : β → σ → Prop) (s : σ) :
    (p >>= f).within H P Q s ↔ p.within H P (fun a s' => (f a).within H P Q s') s := by
  induction p generalizing s with
  | ret a => rfl
  | call o k ih =>
      simp only [call_bind, within, ih]

/-- Where all operations of the program satisfy `P`, the state does not matter for it. -/
theorem within_of_all {p : Prog S α} {Q : α → σ → Prop} {s : σ} (hp : p.all P)
    (h : p.wp H Q s) : p.within H P Q s := by
  induction p generalizing s with
  | ret a => exact h
  | call o k ih => exact ⟨hp.1, fun c hc => ih _ (hp.2 _) (h c hc)⟩

theorem Steps.within {p q : Prog S α} {Q : α → σ → Prop} {s s' : σ} {tr : List (Event S)}
    (h : Steps H p s tr q s') (hp : p.within H P Q s) : ∀ e ∈ tr, P e.1 := by
  induction h with
  | refl p s => exact fun e he => absurd he List.not_mem_nil
  | call c hc _ ih => exact List.forall_mem_cons.mpr ⟨hp.1, ih (hp.2 c hc)⟩

end Prog

end Effect
