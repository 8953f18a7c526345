import Mathlib.Algebra.Order.Group.Defs
import Mathlib.Data.List.TakeWhile
import Mathlib.Tactic.Common

set_option autoImplicit false

/-! # A detector that counts arrivals in a window

A counter keeps the times of the latest arrivals in a queue, gives an alarm when there are
`threshold` of them that are not older than `span`, and then forgets them.

The potential is the number of times in the queue that are not before `x`. An arrival in the
window from `x` to `x + span` raises it by one, unless it gives an alarm; and an alarm takes no
more than `threshold` away. So there is an alarm for every `threshold` arrivals of the window. -/

namespace Window

variable {T : Type}

theorem countP_dropWhile {p d : T → Bool} {l : List T} (h : ∀ t, p t = true → d t = false) :
    (l.dropWhile d).countP p = l.countP p := by
  induction l with
  | nil => rfl
  | cons t l ih =>
      by_cases ht : d t = true
      · have hp : ¬ p t = true := fun hp => by simp [h t hp] at ht
        rw [List.dropWhile_cons_of_pos ht, ih, List.countP_cons_of_neg hp]
      · rw [List.dropWhile_cons_of_neg ht]

/-- How many times are in the window from `x` to `y`. -/
def between [LE T] [DecidableLE T] (x y : T) (ts : List T) : Nat :=
  ts.countP fun t => decide (x ≤ t) && decide (t ≤ y)

theorem between_append [LE T] [DecidableLE T] (x y : T) (ts ts' : List T) :
    between x y (ts ++ ts') = between x y ts + between x y ts' :=
  List.countP_append

theorem between_mono [LE T] [DecidableLE T] {ts ts' : List T} (h : ts.Sublist ts') (x y : T) :
    between x y ts ≤ between x y ts' :=
  h.countP_le

variable [AddCommGroup T] [LinearOrder T]

structure Counter (T : Type) where
  span : T
  threshold : Nat
  pos : 1 ≤ threshold

namespace Counter

variable (C : Counter T)

/-- The queue when something has arrived at `t`. -/
def noted (t : T) (q : List T) : List T :=
  (q ++ [t]).dropWhile fun e => decide (C.span < t - e)

def alarm (t : T) (q : List T) : Bool := decide (C.threshold ≤ (C.noted t q).length)

def next (t : T) (q : List T) : List T := if C.alarm t q then [] else C.noted t q

/-- The queue after some arrivals. -/
def after (q ts : List T) : List T := ts.foldl (fun q t => C.next t q) q

/-- The times of the alarms. -/
def alarms : List T → List T → List T
  | _, [] => []
  | q, t :: ts => (if C.alarm t q then [t] else []) ++ alarms (C.next t q) ts

theorem length_noted_le (t : T) (q : List T) : (C.noted t q).length ≤ q.length + 1 := by
  have h : (C.noted t q).length ≤ (q ++ [t]).length := (List.dropWhile_sublist _).length_le
  simpa using h

variable {C} {q ts : List T} {t x y : T}

theorem length_next_lt : (C.next t q).length < C.threshold := by
  have hpos := C.pos
  unfold next
  split
  · exact hpos
  · rename_i h
    simpa [alarm] using h

/-- An alarm is given as soon as there are enough. -/
theorem length_noted_of_alarm (hq : q.length < C.threshold) (h : C.alarm t q = true) :
    (C.noted t q).length = C.threshold := by
  have hle := C.length_noted_le t q
  have hge : C.threshold ≤ (C.noted t q).length := of_decide_eq_true h
  omega

/-! ## Not too many alarms -/

/-- What one arrival does: an alarm costs `threshold` entries of the queue. -/
theorem length_next_le (hq : q.length < C.threshold) :
    C.threshold * (if C.alarm t q then [t] else []).length + (C.next t q).length ≤
      q.length + 1 := by
  have hle := C.length_noted_le t q
  by_cases h : C.alarm t q = true
  · have hlen := length_noted_of_alarm hq h
    simp only [next, if_pos h, List.length_singleton, List.length_nil]
    omega
  · simp only [next, if_neg h, List.length_nil]
    omega

/-- **Each arrival counts for one alarm** at most. -/
theorem alarms_mul_le (hq : q.length < C.threshold) :
    C.threshold * (C.alarms q ts).length + (C.after q ts).length ≤ q.length + ts.length := by
  induction ts generalizing q with
  | nil => simp [alarms, after]
  | cons t ts ih =>
      have hstep : C.threshold * (if C.alarm t q then [t] else []).length + (C.next t q).length ≤
        q.length + 1 := length_next_le hq
      have hrest := ih (q := C.next t q) length_next_lt
      have hafter : C.after q (t :: ts) = C.after (C.next t q) ts := rfl
      rw [alarms, List.length_append, Nat.mul_add, hafter, List.length_cons]
      omega

variable [IsOrderedAddMonoid T]

/-! ## Every alarm is justified -/

theorem young_of_mem_noted {e : T} (h : (q ++ [t]).Pairwise (· ≤ ·)) (he : e ∈ C.noted t q) :
    t - e ≤ C.span := by
  revert he
  unfold noted
  generalize q ++ [t] = l at h
  intro he
  induction l with
  | nil => cases he
  | cons d l ih =>
      obtain ⟨hle, hl⟩ := List.pairwise_cons.mp h
      by_cases hd : C.span < t - d
      · rw [List.dropWhile_cons_of_pos (by simpa using hd)] at he
        exact ih hl he
      · rw [List.dropWhile_cons_of_neg (by simpa using hd)] at he
        have hde : d ≤ e := by
          rcases List.mem_cons.mp he with rfl | he
          · exact le_rfl
          · exact hle e he
        exact (sub_le_sub_left hde t).trans (not_lt.mp hd)

omit [IsOrderedAddMonoid T] in
theorem next_sublist : (C.next t q).Sublist (q ++ [t]) := by
  unfold next
  split
  · exact List.nil_sublist _
  · exact List.dropWhile_sublist _

omit [IsOrderedAddMonoid T] in
/-- The queue holds arrivals, in their order. -/
theorem after_sublist : (C.after q ts).Sublist (q ++ ts) := by
  induction ts generalizing q with
  | nil => simp [after]
  | cons t ts ih =>
      have happend := (ih (q := C.next t q)).trans (next_sublist.append_right ts)
      rwa [List.append_assoc] at happend

omit [IsOrderedAddMonoid T] in
theorem mem_alarms : t ∈ C.alarms q ts ↔
    ∃ pre post, ts = pre ++ t :: post ∧ C.alarm t (C.after q pre) = true := by
  induction ts generalizing q with
  | nil => simp [alarms]
  | cons d ts ih =>
      have hsplit : t ∈ C.alarms q (d :: ts) ↔
          (t = d ∧ C.alarm d q = true) ∨ t ∈ C.alarms (C.next d q) ts := by
        rw [alarms]
        by_cases hd : C.alarm d q = true
        · simp [hd]
        · simp [hd]
      rw [hsplit, ih]
      constructor
      · rintro (⟨rfl, hd⟩ | ⟨pre, post, rfl, h⟩)
        · exact ⟨[], ts, rfl, hd⟩
        · exact ⟨d :: pre, post, rfl, h⟩
      · rintro ⟨pre, post, hts, h⟩
        cases pre with
        | nil =>
            cases hts
            exact .inl ⟨rfl, h⟩
        | cons d' pre =>
            cases hts
            exact .inr ⟨pre, post, rfl, h⟩

/-- **An alarm is justified** by the arrivals of the last `span`. -/
theorem justified (hts : (ts ++ [t]).Pairwise (· ≤ ·)) (h : C.alarm t (C.after [] ts) = true) :
    C.threshold ≤ between (t - C.span) t (ts ++ [t]) := by
  have hsub : (C.after [] ts ++ [t]).Sublist (ts ++ [t]) := after_sublist.append_right [t]
  have hall : ∀ e ∈ C.noted t (C.after [] ts),
      (decide (t - C.span ≤ e) && decide (e ≤ t)) = true := by
    intro e he
    have hyoung := young_of_mem_noted (hts.sublist hsub) he
    have hmem : e ∈ ts ++ [t] := hsub.subset ((List.dropWhile_sublist _).subset he)
    have hle : e ≤ t := by
      rcases List.mem_append.mp hmem with hpre | hlast
      · exact (List.pairwise_append.mp hts).2.2 e hpre t List.mem_cons_self
      · rw [List.mem_singleton.mp hlast]
    simp [sub_le_comm.mp hyoung, hle]
  calc C.threshold ≤ (C.noted t (C.after [] ts)).length := of_decide_eq_true h
    _ = (C.noted t (C.after [] ts)).countP _ := (List.countP_eq_length.mpr hall).symm
    _ ≤ (ts ++ [t]).countP _ := ((List.dropWhile_sublist _).trans hsub).countP_le

/-! ## Enough alarms -/

/-- What one arrival does to the potential. -/
theorem potential_next (hq : q.length < C.threshold) (hmono : (q ++ [t]).Pairwise (· ≤ ·))
    (hxy : y - x ≤ C.span) (hty : t ≤ y) :
    between x y [t] + q.countP (fun e => decide (x ≤ e)) ≤
      C.threshold * between x y (if C.alarm t q then [t] else []) +
        (C.next t q).countP fun e => decide (x ≤ e) := by
  by_cases hx : x ≤ t
  · have hkept : (C.noted t q).countP (fun e => decide (x ≤ e)) =
        q.countP (fun e => decide (x ≤ e)) + 1 := by
      have hyoung : ∀ e, decide (x ≤ e) = true → decide (C.span < t - e) = false := by
        intro e he
        have hle : t - e ≤ C.span := (sub_le_sub hty (of_decide_eq_true he)).trans hxy
        simpa using hle
      rw [noted, countP_dropWhile hyoung, List.countP_append]
      simp [hx]
    by_cases h : C.alarm t q = true
    · have hlen := length_noted_of_alarm hq h
      have hcount : (C.noted t q).countP (fun e => decide (x ≤ e)) ≤ (C.noted t q).length :=
        List.countP_le_length
      simp only [between, next, if_pos h]
      simp [hx, hty]
      omega
    · simp only [between, next, if_neg h]
      simp [hx, hty]
      omega
  · have hold : q.countP (fun e => decide (x ≤ e)) = 0 := by
      rw [List.countP_eq_zero]
      intro e he
      have hle := (List.pairwise_append.mp hmono).2.2 e he t List.mem_cons_self
      simpa using hle.trans_lt (not_le.mp hx)
    simp [between, hx, hold]

/-- **There are enough alarms**: one for every `threshold` arrivals of a window. -/
theorem between_lt (hq : q.length < C.threshold) (hmono : (q ++ ts).Pairwise (· ≤ ·))
    (hxy : y - x ≤ C.span) :
    between x y ts + q.countP (fun e => decide (x ≤ e)) <
      C.threshold * between x y (C.alarms q ts) + C.threshold := by
  induction ts generalizing q with
  | nil =>
      have hcount : q.countP (fun e => decide (x ≤ e)) ≤ q.length := List.countP_le_length
      simp only [between, alarms, List.countP_nil]
      omega
  | cons t ts ih =>
      by_cases hty : t ≤ y
      · have hsub : (q ++ [t]).Sublist (q ++ t :: ts) :=
          ((List.nil_sublist ts).cons_cons t).append_left q
        have hstep := potential_next hq (hmono.sublist hsub) hxy hty
        have happend : (C.next t q ++ ts).Sublist (q ++ t :: ts) := by
          simpa using (next_sublist (C := C) (q := q) (t := t)).append_right ts
        have hrest := ih length_next_lt (hmono.sublist happend)
        have hsplit : between x y (t :: ts) = between x y [t] + between x y ts :=
          between_append x y [t] ts
        rw [alarms, between_append, Nat.mul_add, hsplit]
        omega
      · -- the window is over
        have hlate : between x y (t :: ts) = 0 := by
          rw [between, List.countP_eq_zero]
          intro e he
          have hte : t ≤ e := by
            rcases List.mem_cons.mp he with rfl | he
            · exact le_rfl
            · have hcons := (List.pairwise_append.mp hmono).2.1
              exact (List.pairwise_cons.mp hcons).1 e he
          simp [(not_le.mp hty).trans_le hte]
        have hcount : q.countP (fun e => decide (x ≤ e)) ≤ q.length := List.countP_le_length
        rw [hlate]
        omega

end Counter

end Window
