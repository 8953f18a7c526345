import PrivacyGuard.Effect.Threads

set_option autoImplicit false

/-! # Calls that check and then act

A call that first looks at the state and then acts on what it saw (`CheckThenAct`) is not
atomic: between the two, another call may act as well. The operations `check` are the looks;
what a look decides depends on the part `view` of the state only, which the call changes
once. If no call gets past its check while another one is past its own (`OneAtATime`), every
state reached is one of a sequential run of calls, and when all have finished they have had
the effect of running one after the other in some order. -/

namespace Effect

variable {S : Sig} {σ ι α β κ : Type}

/-! ## The shape of a call -/

/-- The operation changes nothing, and may be answered the same way in every state. -/
structure Handler.Silent (H : Handler S σ ι) (o : S.Op) : Prop where
  state : ∀ x s, (H.exec o x s).2 = s
  answer : ∀ x s s', (H.exec o x s).1 = (H.exec o x s').1
  admits : ∀ x s s', H.admits o x s → H.admits o x s'

/-- The operation changes nothing, and is possible in every state. -/
structure Handler.Reads (H : Handler S σ ι) (o : S.Op) : Prop where
  state : ∀ x s, (H.exec o x s).2 = s
  admits : ∀ x s s', H.admits o x s → H.admits o x s'

/-- The operation does not change the part `view` of the state. -/
def Handler.Keeps (H : Handler S σ ι) (view : σ → β) (o : S.Op) : Prop :=
  ∀ x s, view (H.exec o x s).2 = view s

/-- At most one operation changes the part `view` of the state. -/
def Prog.ActsOnce (H : Handler S σ ι) (view : σ → β) : Prog S α → Prop
  | ret _ => True
  | call o k =>
      (H.Keeps view o ∧ ∀ r, (k r).ActsOnce H view) ∨ ∀ r, (k r).all (H.Keeps view)

/-- Silent operations, then a check; where the check does not end the call, it acts. -/
inductive Prog.CheckThenAct (H : Handler S σ ι) (check : S.Op → Bool) (view : σ → β) :
    Prog S α → Prop
  | ret (a : α) : CheckThenAct H check view (ret a)
  | silent {o : S.Op} {k : S.Ret o → Prog S α} (ho : H.Silent o) (hc : check o = false)
      (hk : ∀ r, CheckThenAct H check view (k r)) : CheckThenAct H check view (call o k)
  | check {o : S.Op} {k : S.Ret o → Prog S α} (ho : H.Reads o) (hc : check o = true)
      (hview : ∀ x s s', view s = view s' → (k (H.exec o x s).1).isRet = true →
        (k (H.exec o x s').1).isRet = true)
      (hact : ∀ r, (k r).ActsOnce H view) : CheckThenAct H check view (call o k)

namespace Prog

variable {H : Handler S σ ι} {check : S.Op → Bool} {view : σ → β}

theorem actsOnce_bind {γ : Type} {p : Prog S γ} {f : γ → Prog S α}
    (hp : p.all (H.Keeps view)) (hf : ∀ a, (f a).ActsOnce H view) :
    (p >>= f).ActsOnce H view := by
  induction p with
  | ret a => exact hf a
  | call o k ih => exact Or.inl ⟨hp.1, fun r => ih r (hp.2 r)⟩

theorem actsOnce_ite {b : Prop} [Decidable b] {p q : Prog S α} (hp : p.ActsOnce H view)
    (hq : q.ActsOnce H view) : (if b then p else q).ActsOnce H view := by
  split
  · exact hp
  · exact hq

theorem isRet_map {γ : Type} (g : α → γ) (p : Prog S α) : (g <$> p).isRet = p.isRet := by
  cases p <;> rfl

theorem isRet_of_bind {γ : Type} {p : Prog S γ} {f : γ → Prog S α}
    (h : (p >>= f).isRet = true) : ∃ a, (f a).isRet = true := by
  cases p with
  | ret a => exact ⟨a, h⟩
  | call o k => cases h

theorem ActsOnce.map {γ : Type} {p : Prog S α} (h : p.ActsOnce H view) (g : α → γ) :
    (g <$> p).ActsOnce H view := by
  induction p with
  | ret a => trivial
  | call o k ih =>
      rcases h with ⟨ho, hk⟩ | hk
      · exact Or.inl ⟨ho, fun r => ih r (hk r)⟩
      · exact Or.inr fun r => all_bind (hk r) fun _ => trivial

theorem CheckThenAct.map {γ : Type} {p : Prog S α} (h : p.CheckThenAct H check view)
    (g : α → γ) : (g <$> p).CheckThenAct H check view := by
  induction h with
  | ret a => exact .ret (g a)
  | silent ho hc _ ih => exact .silent ho hc ih
  | check ho hc hview hact =>
      refine .check ho hc (fun x s s' hs hret => ?_) fun r => (hact r).map g
      exact (isRet_map g _).trans (hview x s s' hs ((isRet_map g _).symm.trans hret))

end Prog

/-! ## The condition on the turns -/

/-- The thread has looked, and has not finished. -/
def Thread.past (check : S.Op → Bool) (t : Thread S α) : Bool :=
  t.trace.any (fun e => check e.1) && !t.rest.isRet

/-- Only the end of the call takes a thread back. -/
theorem Thread.past_perform {check : S.Op → Bool} {t : Thread S α} {o : S.Op} {r : S.Ret o}
    {k : S.Ret o → Prog S α} (h : t.past check = true) (hk : (k r).isRet = false) :
    (t.perform o r k).past check = true := by
  rw [Thread.past, Bool.and_eq_true] at h
  rw [Thread.past, Thread.perform, List.any_append, h.1, hk]
  rfl

/-- A thread gets past its check only when no thread is past its own. -/
def OneAtATime (check : S.Op → Bool) (c c' : κ → Thread S α) : Prop :=
  ∀ i, (c' i).past check = true → (c i).past check = false → ∀ j, (c j).past check = false

instance [Fintype κ] (check : S.Op → Bool) :
    DecidableRel (OneAtATime check : (κ → Thread S α) → (κ → Thread S α) → Prop) :=
  fun _ _ => inferInstanceAs (Decidable (∀ _, _))

/-! ## Threads that have not got past their check -/

/-- The thread has started `p`, and has only performed silent operations. -/
structure Waiting (H : Handler S σ ι) (check : S.Op → Bool) (view : σ → β) (p : Prog S α)
    (t : Thread S α) : Prop where
  unchecked : t.trace.any (fun e => check e.1) = false
  anywhere : ∀ s, p.Steps H s t.trace t.rest s
  shape : t.rest.CheckThenAct H check view

section

variable {H : Handler S σ ι} {check : S.Op → Bool} {view : σ → β} {p : Prog S α}
  {t : Thread S α} {o : S.Op} {k : S.Ret o → Prog S α} {x : ι} {s : σ}

theorem Waiting.not_past (h : Waiting H check view p t) : t.past check = false := by
  rw [Thread.past, h.unchecked, Bool.false_and]

/-- What the next operation makes of a waiting thread. -/
inductive AfterTurn (H : Handler S σ ι) (check : S.Op → Bool) (view : σ → β) (p : Prog S α)
    (s : σ) (t : Thread S α) : Prop
  | waiting (h : Waiting H check view p t)
  | declined (hret : t.rest.isRet = true)
      (h : ∀ s', view s' = view s → ∃ tr a, p.Runs H s' tr a s')
  | entered (h : t.past check = true) (hs : p.Steps H s t.trace t.rest s)
      (hact : t.rest.ActsOnce H view)

theorem Waiting.perform (h : Waiting H check view p t) (ht : t.rest = .call o k)
    (hx : H.admits o x s) :
    (H.exec o x s).2 = s ∧ AfterTurn H check view p s (t.perform o (H.exec o x s).1 k) := by
  have hshape := h.shape
  have hsteps := h.anywhere
  rw [ht] at hshape hsteps
  cases hshape with
  | silent ho hc hk =>
      refine ⟨ho.state x s, .waiting ⟨?_, fun s' => ?_, hk _⟩⟩
      · rw [Thread.perform, List.any_append, h.unchecked]
        simp [hc]
      -- the answer could have been the same in every state
      · have hone := Prog.Steps.call (k := k) x (ho.admits x s s' hx) (.refl _ _)
        rw [ho.state, ho.answer x s' s] at hone
        exact (hsteps s').trans hone
  | check ho hc hview hact =>
      refine ⟨ho.state x s, ?_⟩
      have hone : ∀ s', Prog.Steps H (.call o k) s' [⟨o, (H.exec o x s').1⟩]
          (k (H.exec o x s').1) s' := by
        intro s'
        have h' := Prog.Steps.call (k := k) x (ho.admits x s s' hx) (.refl _ _)
        rwa [ho.state] at h'
      cases hret : (k (H.exec o x s).1).isRet with
      | true =>
          -- what the look decides depends on the view only
          refine .declined hret fun s' hs' => ?_
          obtain ⟨a, ha⟩ := Prog.eq_ret_of_isRet (hview x s s' hs'.symm hret)
          have hrun := (hsteps s').trans (hone s')
          rw [ha] at hrun
          exact ⟨_, a, hrun⟩
      | false =>
          refine .entered ?_ ((hsteps s).trans (hone s)) (hact _)
          rw [Thread.past, Thread.perform, List.any_append, hret]
          simp [hc]

end

/-! ## Sequential orders -/

section

variable {H : Handler S σ ι} {body : κ → Prog S α} {s₀ s s' : σ} {order : List κ}

/-- The calls `order`, one after the other, can lead from `s₀` to `s`. -/
def Performed (H : Handler S σ ι) (body : κ → Prog S α) (s₀ : σ) (order : List κ) (s : σ) :
    Prop :=
  ∃ cs, Calls H body (fun _ _ => True) s₀ cs s ∧ cs.map Prod.fst = order

theorem Performed.nil (s : σ) : Performed H body s [] s := ⟨[], .nil s, rfl⟩

theorem Performed.snoc {i : κ} {tr : List (Event S)} {a : α} (h : Performed H body s₀ order s)
    (hr : (body i).Runs H s tr a s') : Performed H body s₀ (order ++ [i]) s' := by
  obtain ⟨cs, hcs, rfl⟩ := h
  exact ⟨cs ++ [(i, a)], hcs.append (.cons trivial hr (.nil s')), by simp⟩

/-- Calls that change nothing can be added at the end. -/
theorem Performed.append_idle {later : List κ} (h : Performed H body s₀ order s)
    (hl : ∀ j ∈ later, ∃ tr a, (body j).Runs H s tr a s) :
    Performed H body s₀ (order ++ later) s := by
  induction later generalizing order with
  | nil => rwa [List.append_nil]
  | cons j later ih =>
      obtain ⟨tr, a, hr⟩ := hl j List.mem_cons_self
      have h' := ih (h.snoc hr) fun j' hj' => hl j' (List.mem_cons_of_mem _ hj')
      rwa [List.append_assoc, List.singleton_append] at h'

end

/-- How far the call that is past its check has come, and the calls that have been declined
since its act: they come after it in the sequential order. -/
inductive Phase (H : Handler S σ ι) (body : κ → Prog S α) (view : σ → β) (p : Prog S α)
    (u s : σ) (later : List κ) : Prop
  | before (hview : view s = view u) (hact : p.ActsOnce H view) (hlater : later = [])
  | after (hkeep : p.all (H.Keeps view))
      (hlater : ∀ j ∈ later, ∀ v, view v = view s → ∃ tr a, (body j).Runs H v tr a v)

/-- The calls `done` have finished, and all others but `act` are waiting. -/
structure Placed (H : Handler S σ ι) (check : S.Op → Bool) (view : σ → β)
    (body : κ → Prog S α) (c : κ → Thread S α) (done : List κ) (act : Option κ) : Prop where
  nodup : done.Nodup
  finished : ∀ j ∈ done, (c j).rest.isRet = true
  wait : ∀ j, j ∉ done → act ≠ some j → Waiting H check view (body j) (c j)

/-- **The sequential run behind a pool.** Either the calls `order` lead to the current state,
or they lead to a state `u` from which the call `i`, and nothing else, has led here. -/
inductive Serial (H : Handler S σ ι) (check : S.Op → Bool) (view : σ → β)
    (body : κ → Prog S α) (s₀ : σ) (c : κ → Thread S α) (s : σ) : Prop
  | free (order : List κ) (hperf : Performed H body s₀ order s)
      (hc : Placed H check view body c order none)
  | busy (i : κ) (u : σ) (order later : List κ) (hperf : Performed H body s₀ order u)
      (hc : Placed H check view body c (order ++ later) (some i))
      (hsteps : (body i).Steps H u (c i).trace (c i).rest s)
      (hpast : (c i).past check = true)
      (hphase : Phase H body view (c i).rest u s later)

section

variable {H : Handler S σ ι} {check : S.Op → Bool} {view : σ → β} {body : κ → Prog S α}
  {s₀ s s' u : σ} {c c' : κ → Thread S α} {i : κ} {t : Thread S α} {done order later : List κ}
  {act act' : Option κ} {o : S.Op} {k : S.Ret o → Prog S α} {x : ι}

theorem Placed.not_mem (h : Placed H check view body c done act)
    (hi : (c i).rest = .call o k) : i ∉ done := by
  intro hmem
  have hret := h.finished i hmem
  rw [hi] at hret
  cases hret

theorem Placed.perm {done' : List κ} (h : Placed H check view body c done act)
    (hp : done.Perm done') : Placed H check view body c done' act where
  nodup := hp.nodup_iff.mp h.nodup
  finished j hj := h.finished j (hp.mem_iff.mpr hj)
  wait j hj := h.wait j fun hj' => hj (hp.mem_iff.mp hj')

theorem serial_start (h : ∀ i, (body i).CheckThenAct H check view) (s : σ) :
    Serial H check view body s (start body) s :=
  .free [] (.nil s)
    ⟨List.nodup_nil, fun _ hj => (nomatch hj), fun j _ _ => ⟨rfl, fun v => .refl _ v, h j⟩⟩

variable [DecidableEq κ]

/-- A thread goes on, without finishing. -/
theorem Placed.update (h : Placed H check view body c done act) (hi : i ∉ done)
    (hact : ∀ j, j ≠ i → act' ≠ some j → act ≠ some j)
    (ht : act' ≠ some i → Waiting H check view (body i) t) :
    Placed H check view body (Function.update c i t) done act' where
  nodup := h.nodup
  finished j hj := by
    have hne : j ≠ i := fun he => hi (he ▸ hj)
    rw [Function.update_of_ne hne]
    exact h.finished j hj
  wait j hj hj' := by
    by_cases he : j = i
    · subst he
      rw [Function.update_self]
      exact ht hj'
    · rw [Function.update_of_ne he]
      exact h.wait j hj (hact j he hj')

/-- A thread finishes. -/
theorem Placed.finish (h : Placed H check view body c done act) (hi : i ∉ done)
    (hact : ∀ j, j ≠ i → act' ≠ some j → act ≠ some j) (ht : t.rest.isRet = true) :
    Placed H check view body (Function.update c i t) (done ++ [i]) act' where
  nodup := List.nodup_append.mpr ⟨h.nodup, List.nodup_singleton i, fun a ha b hb he =>
    hi (by rw [← List.mem_singleton.mp hb, ← he]; exact ha)⟩
  finished j hj := by
    rcases List.mem_append.mp hj with hj | hj
    · have hne : j ≠ i := fun he => hi (he ▸ hj)
      rw [Function.update_of_ne hne]
      exact h.finished j hj
    · rw [List.mem_singleton.mp hj, Function.update_self]
      exact ht
  wait j hj hj' := by
    have hj₁ : j ∉ done := fun hm => hj (List.mem_append_left _ hm)
    have he : j ≠ i := fun he => hj (by simp [he])
    rw [Function.update_of_ne he]
    exact h.wait j hj₁ (hact j he hj')

/-- A turn while no call is past its check. -/
theorem serial_turn_free (hperf : Performed H body s₀ order s)
    (hc : Placed H check view body c order none) (ht : Turn H c s i c' s') :
    Serial H check view body s₀ c' s' := by
  cases ht with
  | perform hi x hx =>
      have hmem := hc.not_mem hi
      obtain ⟨hs, hafter⟩ := (hc.wait i hmem (by simp)).perform hi hx
      rw [hs]
      cases hafter with
      | waiting h => exact .free order hperf (hc.update hmem (by simp) fun _ => h)
      | declined hret hrun =>
          obtain ⟨tr, a, hr⟩ := hrun s rfl
          exact .free (order ++ [i]) (hperf.snoc hr) (hc.finish hmem (by simp) hret)
      | entered hpast hsteps hact =>
          refine .busy i s order [] hperf ?_ ?_ ?_ (.before rfl ?_ rfl)
          · rw [List.append_nil]
            exact hc.update hmem (by simp) fun h => absurd rfl h
          · rwa [Function.update_self]
          · rwa [Function.update_self]
          · rwa [Function.update_self]

/-- A turn of the call that is past its check. -/
theorem serial_turn_busy (hperf : Performed H body s₀ order u)
    (hc : Placed H check view body c (order ++ later) (some i))
    (hsteps : (body i).Steps H u (c i).trace (c i).rest s) (hpast : (c i).past check = true)
    (hphase : Phase H body view (c i).rest u s later) (ht : Turn H c s i c' s') :
    Serial H check view body s₀ c' s' := by
  cases ht with
  | @perform o k hi x hx =>
      have hmem := hc.not_mem hi
      rw [hi] at hsteps hphase
      have hgo : (body i).Steps H u ((c i).perform o (H.exec o x s).1 k).trace
          (k (H.exec o x s).1) (H.exec o x s).2 :=
        hsteps.trans (.call x hx (.refl _ _))
      -- the operation may be the one that changes the view
      have hphase' : Phase H body view (k (H.exec o x s).1) u (H.exec o x s).2 later := by
        cases hphase with
        | before hview hact hlater =>
            rcases hact with ⟨hkeep, hact⟩ | hkeep
            · exact .before ((hkeep x s).trans hview) (hact _) hlater
            · exact .after (hkeep _) (by rw [hlater]; intro j hj; cases hj)
        | after hkeep hlater =>
            exact .after (hkeep.2 _) fun j hj v hv => hlater j hj v (hv.trans (hkeep.1 x s))
      cases hret : (k (H.exec o x s).1).isRet with
      | true =>
          obtain ⟨a, ha⟩ := Prog.eq_ret_of_isRet hret
          rw [ha] at hgo
          -- the call has finished: those declined since its act come right after it
          have hidle : ∀ j ∈ later, ∃ tr a, (body j).Runs H (H.exec o x s).2 tr a
              (H.exec o x s).2 := by
            cases hphase' with
            | before _ _ hlater => rw [hlater]; intro j hj; cases hj
            | after _ hlater => exact fun j hj => hlater j hj _ rfl
          have hfree : ∀ j, j ≠ i → (none : Option κ) ≠ some j → some i ≠ some j :=
            fun j hj _ he => hj (Option.some.inj he).symm
          refine .free _ ((hperf.snoc hgo).append_idle hidle) ((hc.finish hmem hfree hret).perm ?_)
          rw [List.append_assoc, List.append_assoc]
          exact List.Perm.append_left order List.perm_append_comm
      | false =>
          refine .busy i u order later hperf (hc.update hmem (by simp) fun h => absurd rfl h)
            ?_ ?_ ?_
          · rwa [Function.update_self]
          · rw [Function.update_self]
            exact Thread.past_perform hpast hret
          · rwa [Function.update_self]

/-- A turn of another call while `i` is past its check. -/
theorem serial_turn_other {i' : κ} (hperf : Performed H body s₀ order u)
    (hc : Placed H check view body c (order ++ later) (some i))
    (hsteps : (body i).Steps H u (c i).trace (c i).rest s) (hpast : (c i).past check = true)
    (hphase : Phase H body view (c i).rest u s later) (hne : i' ≠ i)
    (ht : Turn H c s i' c' s') (hex : OneAtATime check c c') :
    Serial H check view body s₀ c' s' := by
  cases ht with
  | @perform o k hi x hx =>
      have hmem := hc.not_mem hi
      have hwait := hc.wait i' hmem (by simpa using hne.symm)
      obtain ⟨hs, hafter⟩ := hwait.perform hi hx
      have hsame : Function.update c i' ((c i').perform o (H.exec o x s).1 k) i = c i :=
        Function.update_of_ne hne.symm _ _
      have hother : ∀ j, j ≠ i' → some i ≠ some j → some i ≠ some j := fun _ _ h => h
      rw [hs]
      cases hafter with
      | waiting h =>
          refine .busy i u order later hperf (hc.update hmem hother fun _ => h) ?_ ?_ ?_ <;>
            rwa [hsame]
      | declined hret hrun =>
          have hdone := hc.finish hmem hother hret
          cases hphase with
          | before hview hact hlater =>
              -- `i` has not acted yet, so the declined call comes before it
              subst hlater
              obtain ⟨tr, a, hr⟩ := hrun u hview.symm
              rw [List.append_nil] at hdone
              refine .busy i u (order ++ [i']) [] (hperf.snoc hr) ?_ ?_ ?_ (.before hview ?_ rfl)
              · rwa [List.append_nil]
              · rwa [hsame]
              · rwa [hsame]
              · rwa [hsame]
          | after hkeep hlater =>
              -- `i` has acted, and the declined call has seen it: it comes after `i`
              rw [List.append_assoc] at hdone
              refine .busy i u order (later ++ [i']) hperf hdone ?_ ?_ (.after ?_ ?_)
              · rwa [hsame]
              · rwa [hsame]
              · rwa [hsame]
              · intro j hj v hv
                rcases List.mem_append.mp hj with hj | hj
                · exact hlater j hj v hv
                · rw [List.mem_singleton.mp hj]
                  exact hrun v hv
      | entered hin _ _ =>
          -- two calls past their check: excluded
          have hfree := hex i' (by rwa [Function.update_self]) hwait.not_past i
          rw [hpast] at hfree
          cases hfree

theorem Serial.turn (h : Serial H check view body s₀ c s) (ht : Turn H c s i c' s')
    (hex : OneAtATime check c c') : Serial H check view body s₀ c' s' := by
  cases h with
  | free order hperf hc => exact serial_turn_free hperf hc ht
  | busy i' u order later hperf hc hsteps hpast hphase =>
      by_cases he : i = i'
      · subst he
        exact serial_turn_busy hperf hc hsteps hpast hphase ht
      · exact serial_turn_other hperf hc hsteps hpast hphase he ht hex

end

/-! ## Serializability -/

section

variable [DecidableEq κ] {H : Handler S σ ι} {check : S.Op → Bool} {view : σ → β}
  {body : κ → Prog S α} {s s' : σ} {c : κ → Thread S α}

theorem Interleaved.serial (h : Interleaved H (OneAtATime check) (start body) s c s')
    (hbody : ∀ i, (body i).CheckThenAct H check view) : Serial H check view body s c s' :=
  h.invariant (I := Serial H check view body s) (fun _ _ _ _ _ hI ht hex => hI.turn ht hex)
    (serial_start hbody s)

/-- **Every state reached is one of a sequential run.** -/
theorem Interleaved.reached (h : Interleaved H (OneAtATime check) (start body) s c s')
    (hbody : ∀ i, (body i).CheckThenAct H check view) :
    Reached H body (fun _ _ => True) s s' := by
  cases h.serial hbody with
  | free order hperf _ =>
      obtain ⟨cs, hcs, -⟩ := hperf
      exact .between hcs
  | busy i u order later hperf _ hsteps _ _ =>
      obtain ⟨cs, hcs, -⟩ := hperf
      exact .during hcs trivial hsteps

/-- **Finished calls have run one after the other.** -/
theorem Interleaved.performed [Fintype κ]
    (h : Interleaved H (OneAtATime check) (start body) s c s')
    (hbody : ∀ i, (body i).CheckThenAct H check view)
    (hdone : ∀ i, (c i).rest.isRet = true) :
    ∃ order : List κ, order.Nodup ∧ (∀ i, i ∈ order) ∧ Performed H body s order s' := by
  cases h.serial hbody with
  | free order hperf hc =>
      -- the calls that needed no check come last
      let rest := (Finset.univ.filter fun i => i ∉ order).toList
      have hrest : ∀ j, j ∈ rest ↔ j ∉ order := by simp [rest]
      refine ⟨order ++ rest, ?_, fun i => ?_, hperf.append_idle fun j hj => ?_⟩
      · exact List.nodup_append.mpr ⟨hc.nodup, Finset.nodup_toList _,
          fun a ha b hb he => (hrest b).mp hb (he ▸ ha)⟩
      · rw [List.mem_append, hrest]
        exact em _
      · have hwait := hc.wait j ((hrest j).mp hj) (by simp)
        obtain ⟨a, ha⟩ := Prog.eq_ret_of_isRet (hdone j)
        have hrun := hwait.anywhere s'
        rw [ha] at hrun
        exact ⟨_, a, hrun⟩
  | busy i u order later _ _ _ hpast _ =>
      -- a call past its check has not finished
      rw [Thread.past, hdone i] at hpast
      simp at hpast

end

end Effect
