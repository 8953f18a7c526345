import PrivacyGuard.Effect.Threads

set_option autoImplicit false

/-! # Calls under a lock

Each thread of a pool performs a list of calls, one after the other (`session`). A call that
acquires a lock first and releases it last (`Prog.Section`) is atomic: whatever the order of
the turns, the state reached is that of a sequential run of the calls in the order in which
the lock was acquired, and every call answers what it answers in that run
(`Turns.sequential`). -/

namespace Effect

variable {S : Sig} {σ ι α β χ κ : Type}

/-- The operations on a lock, and whether it is held. -/
structure Lock (S : Sig) (σ : Type) where
  acquire : S.Op → Bool
  release : S.Op → Bool
  held : σ → Bool

/-- The lock is acquired only when it is free, and only these operations touch it. -/
structure Handler.Guards (H : Handler S σ ι) (L : Lock S σ) : Prop where
  apart : ∀ o, L.release o = true → L.acquire o = false
  free : ∀ o x s, L.acquire o = true → H.admits o x s → L.held s = false
  acquire : ∀ o x s, L.acquire o = true → L.held (H.exec o x s).2 = true
  release : ∀ o x s, L.release o = true → L.held (H.exec o x s).2 = false
  other : ∀ o x s, L.acquire o = false → L.release o = false →
    L.held (H.exec o x s).2 = L.held s

/-- A program that holds the lock, and releases it at its end. -/
inductive Prog.Inside (L : Lock S σ) : Prog S α → Prop
  | release {o : S.Op} {k : S.Ret o → Prog S α} (ho : L.release o = true)
      (hk : ∀ r, ∃ a, k r = ret a) : Inside L (call o k)
  | step {o : S.Op} {k : S.Ret o → Prog S α} (ho : L.acquire o = false)
      (ho' : L.release o = false) (hk : ∀ r, Inside L (k r)) : Inside L (call o k)

/-- A program that acquires the lock first. -/
inductive Prog.Section (L : Lock S σ) : Prog S α → Prop
  | acquire {o : S.Op} {k : S.Ret o → Prog S α} (ho : L.acquire o = true)
      (hk : ∀ r, (k r).Inside L) : Section L (call o k)

theorem Prog.inside_bind {L : Lock S σ} {p : Prog S β} {f : β → Prog S α}
    (hp : p.all fun o => L.acquire o = false ∧ L.release o = false)
    (hf : ∀ b, (f b).Inside L) : (p >>= f).Inside L := by
  induction p with
  | ret b => exact hf b
  | call o k ih => exact .step hp.1.1 hp.1.2 fun r => ih r (hp.2 r)

/-- The calls `xs`, one after the other; `done` are the answers so far. -/
def session (body : χ → Prog S β) : List β → List χ → Prog S (List β)
  | done, [] => .ret done
  | done, x :: xs => body x >>= fun b => session body (done ++ [b]) xs

theorem session_cons (body : χ → Prog S β) (done : List β) (x : χ) (xs : List χ) :
    session body done (x :: xs) = body x >>= fun b => session body (done ++ [b]) xs := rfl

/-- The threads that acquired the lock, in this order. -/
def acquisitions (L : Lock S σ) (tr : List (κ × Event S)) : List κ :=
  (tr.filter fun e => L.acquire e.2.1).map Prod.fst

theorem acquisitions_snoc (L : Lock S σ) (tr : List (κ × Event S)) (i : κ) (e : Event S) :
    acquisitions L (tr ++ [(i, e)]) =
      acquisitions L tr ++ if L.acquire e.1 then [i] else [] := by
  cases h : L.acquire e.1 <;> simp [acquisitions, h]

variable [DecidableEq κ]

/-- The calls of one thread in a sequential run, -/
def callsOf (i : κ) (cs : List ((κ × χ) × β)) : List χ :=
  (cs.filter fun e => e.1.1 = i).map fun e => e.1.2

/-- and their answers. -/
def answersOf (i : κ) (cs : List ((κ × χ) × β)) : List β :=
  (cs.filter fun e => e.1.1 = i).map Prod.snd

section

variable {i j : κ} {x : χ} {b : β} {cs : List ((κ × χ) × β)}

theorem callsOf_self : callsOf i (cs ++ [((i, x), b)]) = callsOf i cs ++ [x] := by
  simp [callsOf]

theorem callsOf_other (h : j ≠ i) : callsOf j (cs ++ [((i, x), b)]) = callsOf j cs := by
  simp [callsOf, Ne.symm h]

theorem answersOf_self : answersOf i (cs ++ [((i, x), b)]) = answersOf i cs ++ [b] := by
  simp [answersOf]

theorem answersOf_other (h : j ≠ i) : answersOf j (cs ++ [((i, x), b)]) = answersOf j cs := by
  simp [answersOf, Ne.symm h]

end

section

variable {H : Handler S σ ι} {L : Lock S σ} {body : χ → Prog S β} {calls : κ → List χ}
  {s₀ s : σ} {tr : List (κ × Event S)} {c : κ → Thread S (List β)}

/-- The thread `j` has finished its calls in `cs` and is about to start the next one. -/
def Between (body : χ → Prog S β) (calls : κ → List χ) (c : κ → Thread S (List β))
    (cs : List ((κ × χ) × β)) (j : κ) : Prop :=
  ∃ xs, calls j = callsOf j cs ++ xs ∧ (c j).rest = session body (answersOf j cs) xs

/-- **The sequential run behind a pool.** The calls `cs` have run one after the other; either
the lock is free, or the thread `i` holds it and is in the middle of its next call. -/
inductive Sequential (H : Handler S σ ι) (L : Lock S σ) (body : χ → Prog S β)
    (calls : κ → List χ) (s₀ : σ) (tr : List (κ × Event S)) (c : κ → Thread S (List β)) (s : σ) :
    Prop
  | free (cs : List ((κ × χ) × β))
      (hcs : Calls H (fun p => body p.2) (fun _ _ => True) s₀ cs s) (hs : L.held s = false)
      (hacq : acquisitions L tr = cs.map fun e => e.1.1) (hc : ∀ j, Between body calls c cs j)
  | held (cs : List ((κ × χ) × β)) (u : σ) (i : κ) (x : χ) (xs : List χ) (q : Prog S β)
      (tr' : List (Event S)) (hcs : Calls H (fun p => body p.2) (fun _ _ => True) s₀ cs u)
      (hs : L.held s = true) (hacq : acquisitions L tr = (cs.map fun e => e.1.1) ++ [i])
      (hc : ∀ j, j ≠ i → Between body calls c cs j) (hi : calls i = callsOf i cs ++ x :: xs)
      (hrest : (c i).rest = q >>= fun b => session body (answersOf i cs ++ [b]) xs)
      (hq : q.Inside L) (hsteps : (body x).Steps H u tr' q s)

/-- Other threads' turns do not matter to a thread between two calls. -/
theorem Between.update {cs : List ((κ × χ) × β)} {i j : κ} (h : Between body calls c cs j)
    (hne : j ≠ i) (t : Thread S (List β)) :
    Between body calls (Function.update c i t) cs j := by
  obtain ⟨xs, hxs, hrest⟩ := h
  exact ⟨xs, hxs, by rwa [Function.update_of_ne hne]⟩

/-- Nor does the end of another thread's call. -/
theorem Between.append {cs : List ((κ × χ) × β)} {i j : κ} (h : Between body calls c cs j)
    (hne : j ≠ i) (x : χ) (b : β) : Between body calls c (cs ++ [((i, x), b)]) j := by
  obtain ⟨xs, hxs, hrest⟩ := h
  refine ⟨xs, ?_, ?_⟩
  · rw [callsOf_other hne, hxs]
  · rw [answersOf_other hne, hrest]

/-- A thread between two calls that can do something acquires the lock. -/
theorem Between.acquires {cs : List ((κ × χ) × β)} {i : κ} {o : S.Op}
    {k : S.Ret o → Prog S (List β)} (hbody : ∀ x, (body x).Section L)
    (h : Between body calls c cs i) (hi : (c i).rest = .call o k) :
    L.acquire o = true ∧ ∃ (x : χ) (xs : List χ) (k' : S.Ret o → Prog S β),
      calls i = callsOf i cs ++ x :: xs ∧ body x = .call o k' ∧ (∀ r, (k' r).Inside L) ∧
      ∀ r, k r = k' r >>= fun b => session body (answersOf i cs ++ [b]) xs := by
  obtain ⟨xs, hxs, hrest⟩ := h
  rw [hi] at hrest
  cases xs with
  | nil => cases hrest
  | cons x xs =>
      have hx := hbody x
      rw [session_cons] at hrest
      generalize hp : body x = p at hx hrest
      cases hx with
      | acquire ho hk =>
          cases hrest
          exact ⟨ho, x, xs, _, hxs, hp, hk, fun _ => rfl⟩

/-- One turn. -/
theorem Sequential.turn {i : κ} {o : S.Op} {k : S.Ret o → Prog S (List β)} {x : ι}
    (hL : H.Guards L) (hbody : ∀ x, (body x).Section L)
    (h : Sequential H L body calls s₀ tr c s) (hi : (c i).rest = .call o k)
    (hx : H.admits o x s) :
    Sequential H L body calls s₀ (tr ++ [(i, ⟨o, (H.exec o x s).1⟩)])
      (Function.update c i ((c i).perform o (H.exec o x s).1 k)) (H.exec o x s).2 := by
  cases h with
  | free cs hcs hs hacq hc =>
      obtain ⟨ho, y, ys, k', hys, hy, hk', hk⟩ := (hc i).acquires hbody hi
      refine .held cs s i y ys (k' (H.exec o x s).1) [⟨o, (H.exec o x s).1⟩] hcs
        (hL.acquire o x s ho) ?_ (fun j hj => (hc j).update hj _) hys ?_ (hk' _) ?_
      · rw [acquisitions_snoc, hacq, if_pos ho]
      · rw [Function.update_self]
        exact hk _
      · rw [hy]
        exact .call x hx (.refl _ _)
  | held cs u j y ys q tr' hcs hs hacq hc hj hrest hq hsteps =>
      by_cases hij : i = j
      · subst hij
        rw [hi] at hrest
        cases hq with
        | @release o' k' ho hk' =>
            cases hrest
            -- the call has finished
            obtain ⟨b, hb⟩ := hk' (H.exec o x s).1
            have hrun : Prog.Runs H (body y) u (tr' ++ [⟨o, (H.exec o x s).1⟩]) b
                (H.exec o x s).2 := by
              refine hsteps.trans (.call x hx ?_)
              rw [hb]
              exact .refl _ _
            have hno := hL.apart o ho
            refine .free (cs ++ [((i, y), b)]) (hcs.append (.cons trivial hrun (.nil _)))
              (hL.release o x s ho) ?_ fun j => ?_
            · rw [acquisitions_snoc, hacq, if_neg (by simp [hno]), List.map_append]
              simp
            · by_cases hji : j = i
              · subst hji
                refine ⟨ys, ?_, ?_⟩
                · rw [callsOf_self, hj, List.append_assoc]
                  rfl
                · rw [Function.update_self, answersOf_self]
                  show k' _ >>= _ = _
                  rw [hb]
                  rfl
              · exact ((hc j hji).append hji y b).update hji _
        | @step o' k' ho ho' hk' =>
            cases hrest
            refine .held cs u i y ys (k' (H.exec o x s).1) (tr' ++ [⟨o, (H.exec o x s).1⟩]) hcs
              ?_ ?_ (fun j hji => (hc j hji).update hji _) hj ?_ (hk' _)
              (hsteps.trans (.call x hx (.refl _ _)))
            · rw [hL.other o x s ho ho', hs]
            · rw [acquisitions_snoc, hacq, if_neg (by simp [ho]), List.append_nil]
            · rw [Function.update_self]
              rfl
      · -- any other thread has to wait
        obtain ⟨ho, -⟩ := (hc i hij).acquires hbody hi
        rw [hL.free o x s ho hx] at hs
        cases hs

theorem sequential_start (hs₀ : L.held s₀ = false) :
    Sequential H L body calls s₀ [] (start fun i => session body [] (calls i)) s₀ :=
  .free [] (.nil s₀) hs₀ rfl fun j => ⟨calls j, rfl, rfl⟩

theorem Turns.sequential (hL : H.Guards L) (hbody : ∀ x, (body x).Section L)
    (hs₀ : L.held s₀ = false)
    (h : Turns H (start fun i => session body [] (calls i)) s₀ tr c s) :
    Sequential H L body calls s₀ tr c s := by
  induction h with
  | refl => exact sequential_start hs₀
  | turn _ hi x hx ih => exact ih.turn hL hbody hi hx

/-- **Calls under a lock are atomic.** Once all threads have finished, the state and the
answers are those of the calls run one after the other, in the order in which the lock was
acquired. -/
theorem Turns.atomic (hL : H.Guards L) (hbody : ∀ x, (body x).Section L)
    (hs₀ : L.held s₀ = false)
    (h : Turns H (start fun i => session body [] (calls i)) s₀ tr c s)
    (hdone : ∀ i, (c i).rest.isRet = true) :
    ∃ cs : List ((κ × χ) × β), Calls H (fun p => body p.2) (fun _ _ => True) s₀ cs s ∧
      acquisitions L tr = cs.map (fun e => e.1.1) ∧
      ∀ i, callsOf i cs = calls i ∧ (c i).rest = .ret (answersOf i cs) := by
  cases h.sequential hL hbody hs₀ with
  | free cs hcs hs hacq hc =>
      refine ⟨cs, hcs, hacq, fun i => ?_⟩
      obtain ⟨xs, hxs, hrest⟩ := hc i
      cases xs with
      | nil => exact ⟨by rw [hxs, List.append_nil], hrest⟩
      | cons x xs =>
          have hret := hdone i
          have hx := hbody x
          rw [hrest, session_cons] at hret
          generalize body x = p at hx hret
          cases hx
          cases hret
  | held cs u i x xs q tr' hcs hs hacq hc hi hrest hq hsteps =>
      have hret := hdone i
      rw [hrest] at hret
      cases hq <;> cases hret

end

end Effect
