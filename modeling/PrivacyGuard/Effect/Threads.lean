import PrivacyGuard.Effect.Runs
import Mathlib.Data.Fintype.Basic

set_option autoImplicit false

/-! # Programs in parallel

A pool of threads, one for each index, shares one state. In a turn some thread performs its
next operation; nothing is assumed of the order of the turns, except what a condition `ok`
on each turn says. -/

namespace Effect

variable {S : Sig} {σ ι α κ : Type}

/-- A program under way: what it has done, and what is left of it. -/
structure Thread (S : Sig) (α : Type) where
  trace : List (Event S)
  rest : Prog S α

def Prog.isRet : Prog S α → Bool
  | ret _ => true
  | call _ _ => false

theorem Prog.eq_ret_of_isRet {p : Prog S α} (h : p.isRet = true) : ∃ a, p = ret a := by
  cases p with
  | ret a => exact ⟨a, rfl⟩
  | call o k => cases h

/-- The thread after its next operation `o`, answered by `r`. -/
def Thread.perform (t : Thread S α) (o : S.Op) (r : S.Ret o) (k : S.Ret o → Prog S α) :
    Thread S α :=
  ⟨t.trace ++ [⟨o, r⟩], k r⟩

/-- The pool in which every program is about to start. -/
def start (body : κ → Prog S α) : κ → Thread S α := fun i => ⟨[], body i⟩

variable [DecidableEq κ]

/-- The thread `i` performs its next operation. -/
inductive Turn (H : Handler S σ ι) (c : κ → Thread S α) (s : σ) (i : κ) :
    (κ → Thread S α) → σ → Prop
  | perform {o : S.Op} {k : S.Ret o → Prog S α} (hi : (c i).rest = .call o k) (x : ι)
      (hx : H.admits o x s) :
      Turn H c s i (Function.update c i ((c i).perform o (H.exec o x s).1 k)) (H.exec o x s).2

/-- Any number of turns, each of which meets `ok`. -/
inductive Interleaved (H : Handler S σ ι) (ok : (κ → Thread S α) → (κ → Thread S α) → Prop)
    (c : κ → Thread S α) (s : σ) : (κ → Thread S α) → σ → Prop
  | refl : Interleaved H ok c s c s
  | turn {c₁ c₂ : κ → Thread S α} {s₁ s₂ : σ} {i : κ} (h : Interleaved H ok c s c₁ s₁)
      (ht : Turn H c₁ s₁ i c₂ s₂) (hok : ok c₁ c₂) : Interleaved H ok c s c₂ s₂

variable {H : Handler S σ ι} {ok : (κ → Thread S α) → (κ → Thread S α) → Prop}
  {c c₁ c₂ : κ → Thread S α} {s s₁ s₂ : σ}

theorem Interleaved.trans (h₁ : Interleaved H ok c s c₁ s₁)
    (h₂ : Interleaved H ok c₁ s₁ c₂ s₂) : Interleaved H ok c s c₂ s₂ := by
  induction h₂ with
  | refl => exact h₁
  | turn _ ht hok ih => exact .turn ih ht hok

/-- What holds at the start and is kept by every turn holds whenever. -/
theorem Interleaved.invariant {I : (κ → Thread S α) → σ → Prop}
    (h : Interleaved H ok c s c₁ s₁)
    (hturn : ∀ c s i c' s', I c s → Turn H c s i c' s' → ok c c' → I c' s') (hs : I c s) :
    I c₁ s₁ := by
  induction h with
  | refl => exact hs
  | turn _ ht hok ih => exact hturn _ _ _ _ _ ih ht hok

/-- Any number of turns, with what was done in each of them, and by whom. -/
inductive Turns (H : Handler S σ ι) (c : κ → Thread S α) (s : σ) :
    List (κ × Event S) → (κ → Thread S α) → σ → Prop
  | refl : Turns H c s [] c s
  | turn {tr : List (κ × Event S)} {c₁ : κ → Thread S α} {s₁ : σ} {i : κ} {o : S.Op}
      {k : S.Ret o → Prog S α} (h : Turns H c s tr c₁ s₁) (hi : (c₁ i).rest = .call o k) (x : ι)
      (hx : H.admits o x s₁) :
      Turns H c s (tr ++ [(i, ⟨o, (H.exec o x s₁).1⟩)])
        (Function.update c₁ i ((c₁ i).perform o (H.exec o x s₁).1 k)) (H.exec o x s₁).2

/-! ## Executing a schedule -/

/-- The pool after a turn of `i` with the choices `pick` makes; a thread that has finished
does nothing. -/
def turn (H : Handler S σ ι) (pick : S.Op → σ → ι) (i : κ) (c : κ → Thread S α) (s : σ) :
    (κ → Thread S α) × σ :=
  match (c i).rest with
  | .ret _ => (c, s)
  | .call o k =>
      (Function.update c i ((c i).perform o (H.exec o (pick o s) s).1 k),
        (H.exec o (pick o s) s).2)

/-- The turns of the threads `is`, in this order. -/
def runSchedule (H : Handler S σ ι) (pick : S.Op → σ → ι) :
    List κ → (κ → Thread S α) → σ → (κ → Thread S α) × σ
  | [], c, s => (c, s)
  | i :: is, c, s => runSchedule H pick is (turn H pick i c s).1 (turn H pick i c s).2

/-- Each turn of the schedule meets `ok`. -/
def ScheduleMeets (ok : (κ → Thread S α) → (κ → Thread S α) → Prop) (H : Handler S σ ι)
    (pick : S.Op → σ → ι) : List κ → (κ → Thread S α) → σ → Prop
  | [], _, _ => True
  | i :: is, c, s =>
      ok c (turn H pick i c s).1 ∧
        ScheduleMeets ok H pick is (turn H pick i c s).1 (turn H pick i c s).2

instance decidableScheduleMeets [DecidableRel ok] (pick : S.Op → σ → ι) :
    ∀ (is : List κ) (c : κ → Thread S α) (s : σ), Decidable (ScheduleMeets ok H pick is c s)
  | [], _, _ => inferInstanceAs (Decidable True)
  | _ :: is, _, _ =>
      have := decidableScheduleMeets pick is
      inferInstanceAs (Decidable (_ ∧ _))

variable {pick : S.Op → σ → ι}

theorem interleaved_turn (hpick : ∀ o s, H.admits o (pick o s) s) (i : κ)
    (hok : ok c (turn H pick i c s).1) :
    Interleaved H ok c s (turn H pick i c s).1 (turn H pick i c s).2 := by
  unfold turn at hok ⊢
  split at hok
  · exact .refl
  · rename_i o k hi
    exact .turn .refl (.perform hi (pick o s) (hpick o s)) hok

theorem interleaved_runSchedule (hpick : ∀ o s, H.admits o (pick o s) s) {is : List κ}
    (his : ScheduleMeets ok H pick is c s) :
    Interleaved H ok c s (runSchedule H pick is c s).1 (runSchedule H pick is c s).2 := by
  induction is generalizing c s with
  | nil => exact .refl
  | cons i is ih => exact (interleaved_turn hpick i his.1).trans (ih his.2)

/-! ## Threads that may have to wait -/

section

variable [∀ o x s, Decidable (H.admits o x s)]

/-- The turn of a thread that waits if its next operation is not possible now. -/
def tryTurn (H : Handler S σ ι) [∀ o x s, Decidable (H.admits o x s)] (pick : S.Op → σ → ι)
    (i : κ) (c : κ → Thread S α) (s : σ) : (κ → Thread S α) × σ :=
  match (c i).rest with
  | .ret _ => (c, s)
  | .call o k =>
      if H.admits o (pick o s) s then
        (Function.update c i ((c i).perform o (H.exec o (pick o s) s).1 k),
          (H.exec o (pick o s) s).2)
      else (c, s)

/-- What happens in it. -/
def tryEvent (H : Handler S σ ι) [∀ o x s, Decidable (H.admits o x s)] (pick : S.Op → σ → ι)
    (i : κ) (c : κ → Thread S α) (s : σ) : List (κ × Event S) :=
  match (c i).rest with
  | .ret _ => []
  | .call o _ => if H.admits o (pick o s) s then [(i, ⟨o, (H.exec o (pick o s) s).1⟩)] else []

/-- The turns of the threads `is`, in this order, after the events `tr`. -/
def trySchedule (H : Handler S σ ι) [∀ o x s, Decidable (H.admits o x s)]
    (pick : S.Op → σ → ι) : List κ → List (κ × Event S) → (κ → Thread S α) → σ →
    List (κ × Event S) × (κ → Thread S α) × σ
  | [], tr, c, s => (tr, c, s)
  | i :: is, tr, c, s =>
      trySchedule H pick is (tr ++ tryEvent H pick i c s) (tryTurn H pick i c s).1
        (tryTurn H pick i c s).2

theorem turns_tryTurn {tr : List (κ × Event S)} (h : Turns H c s tr c₁ s₁) (i : κ) :
    Turns H c s (tr ++ tryEvent H pick i c₁ s₁) (tryTurn H pick i c₁ s₁).1
      (tryTurn H pick i c₁ s₁).2 := by
  unfold tryEvent tryTurn
  split
  · rwa [List.append_nil]
  · rename_i o k hi
    by_cases hx : H.admits o (pick o s₁) s₁
    · rw [if_pos hx, if_pos hx]
      exact h.turn hi _ hx
    · rw [if_neg hx, if_neg hx, List.append_nil]
      exact h

theorem turns_trySchedule {tr : List (κ × Event S)} (h : Turns H c s tr c₁ s₁) (is : List κ) :
    Turns H c s (trySchedule H pick is tr c₁ s₁).1 (trySchedule H pick is tr c₁ s₁).2.1
      (trySchedule H pick is tr c₁ s₁).2.2 := by
  induction is generalizing tr c₁ s₁ with
  | nil => exact h
  | cons i is ih => exact ih (turns_tryTurn h i)

end

end Effect
