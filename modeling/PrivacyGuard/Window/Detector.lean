import Mathlib.Algebra.Order.Group.Defs
import Mathlib.Data.Finset.Card
import Mathlib.Data.List.Dedup
import Mathlib.Data.List.TakeWhile
import Mathlib.Tactic.Common

set_option autoImplicit false

/-! # A detector that counts different items in a window

A detector keeps the latest arrivals in a queue, each with its time. It drops from the front what
is older than `span`, gives an alarm when there are `threshold` different items in the queue, and
then forgets all of them.

An alarm is justified because the queue holds nothing but arrivals of the last `span`. None is
missed because everything that has arrived since the last alarm, and is not too old, is still
there: what an alarm has removed can only be missing if there has been an alarm. -/

namespace Window

variable {T A : Type}

/-- How many different items there are. -/
def distinct [DecidableEq A] (q : List (T × A)) : Nat := (q.map (·.2)).dedup.length

theorem distinct_mono [DecidableEq A] {q q' : List (T × A)} (h : q ⊆ q') :
    distinct q ≤ distinct q' := by
  rw [distinct, distinct, ← List.card_toFinset, ← List.card_toFinset]
  refine Finset.card_le_card fun a ha => ?_
  rw [List.mem_toFinset] at ha ⊢
  exact List.map_subset _ h ha

variable [AddCommGroup T] [LinearOrder T]

/-- `threshold` different items within `span`. -/
structure Detector (T : Type) [AddCommGroup T] [LinearOrder T] where
  span : T
  threshold : Nat
  nonneg : 0 ≤ span
  pos : 1 ≤ threshold

/-- The queue without the entries at its front that are too old. -/
def trim (span now : T) (q : List (T × A)) : List (T × A) :=
  q.dropWhile fun e => decide (span < now - e.1)

/-- In the order of time. -/
def Chronological (q : List (T × A)) : Prop := q.Pairwise fun e e' => e.1 ≤ e'.1

section

variable [IsOrderedAddMonoid T] {q : List (T × A)}

/-- In a queue in order, what is too old is at the front. -/
theorem trim_eq_filter (hq : Chronological q) (span now : T) :
    trim span now q = q.filter fun e => decide (now - e.1 ≤ span) := by
  induction q with
  | nil => rfl
  | cons e q ih =>
      obtain ⟨hle, hq⟩ := List.pairwise_cons.mp hq
      by_cases he : span < now - e.1
      · have hnot : ¬ now - e.1 ≤ span := not_le.mpr he
        rw [trim, List.dropWhile_cons_of_pos (by simpa using he),
          List.filter_cons_of_neg (by simpa using hnot)]
        exact ih hq
      · have hkept : ∀ e' ∈ e :: q, now - e'.1 ≤ span := by
          intro e' he'
          obtain rfl | he' := List.mem_cons.mp he'
          · exact not_lt.mp he
          · exact (sub_le_sub_left (hle e' he') now).trans (not_lt.mp he)
        rw [trim, List.dropWhile_cons_of_neg (by simpa using he), eq_comm, List.filter_eq_self]
        intro e' he'
        exact decide_eq_true (hkept e' he')

end

namespace Detector

variable (D : Detector T)

/-- The queue when `e` has arrived. -/
def noted (e : T × A) (q : List (T × A)) : List (T × A) := trim D.span e.1 (q ++ [e])

theorem noted_sublist (e : T × A) (q : List (T × A)) : (D.noted e q).Sublist (q ++ [e]) :=
  List.dropWhile_sublist _

variable [DecidableEq A]

/-- Whether `e` gives an alarm. -/
def alarm (e : T × A) (q : List (T × A)) : Bool := decide (D.threshold ≤ distinct (D.noted e q))

def next (e : T × A) (q : List (T × A)) : List (T × A) :=
  if D.alarm e q then [] else D.noted e q

/-- The queue after some arrivals. -/
def after (q : List (T × A)) (es : List (T × A)) : List (T × A) :=
  es.foldl (fun q e => D.next e q) q

/-- The times of the alarms, with the numbers of items. -/
def alarms : List (T × A) → List (T × A) → List (T × Nat)
  | _, [] => []
  | q, e :: es =>
      (if D.alarm e q then [(e.1, distinct (D.noted e q))] else []) ++ alarms (D.next e q) es

theorem after_snoc (q es : List (T × A)) (e : T × A) :
    D.after q (es ++ [e]) = D.next e (D.after q es) := by
  simp [after]

theorem alarms_append (q es es' : List (T × A)) :
    D.alarms q (es ++ es') = D.alarms q es ++ D.alarms (D.after q es) es' := by
  induction es generalizing q with
  | nil => rfl
  | cons e es ih =>
      rw [List.cons_append, alarms, alarms, ih, List.append_assoc]
      rfl

/-- There are never enough items left for an alarm. -/
theorem distinct_after_lt (es : List (T × A)) : distinct (D.after [] es) < D.threshold := by
  have hpos := D.pos
  induction es using List.reverseRecOn with
  | nil => exact hpos
  | append_singleton es e _ =>
      rw [after_snoc, next]
      split
      · exact hpos
      · rename_i h
        rw [alarm, decide_eq_true_iff] at h
        exact not_le.mp h

/-! ## Every alarm is justified -/

theorem next_sublist (e : T × A) (q : List (T × A)) : (D.next e q).Sublist (q ++ [e]) := by
  rw [next]
  split
  · exact List.nil_sublist _
  · exact D.noted_sublist e q

/-- The queue holds arrivals, in their order. -/
theorem after_sublist (es : List (T × A)) : (D.after [] es).Sublist es := by
  induction es using List.reverseRecOn with
  | nil => exact List.nil_sublist _
  | append_singleton es e ih =>
      rw [after_snoc]
      exact (D.next_sublist e _).trans (ih.append_right [e])

section

variable [IsOrderedAddMonoid T] {D} {es : List (T × A)} {e : T × A}

/-- What is in the queue when an item arrives. -/
theorem noted_eq (hes : Chronological (es ++ [e])) : D.noted e (D.after [] es) =
    (D.after [] es ++ [e]).filter fun e' => decide (e.1 - e'.1 ≤ D.span) :=
  trim_eq_filter (hes.sublist ((D.after_sublist es).append_right [e])) _ _

/-- **An alarm is justified** by the arrivals of the last `span`. -/
theorem justified (hes : Chronological (es ++ [e])) (h : D.alarm e (D.after [] es) = true) :
    D.threshold ≤ distinct ((es ++ [e]).filter fun e' => decide (e.1 - e'.1 ≤ D.span)) := by
  refine (of_decide_eq_true h).trans (distinct_mono ?_)
  rw [noted_eq hes]
  exact (((D.after_sublist es).append_right [e]).filter _).subset

/-! ## No alarm is missed -/

/-- Without an alarm from `x` on, what has arrived from `x` on is kept until `y`. -/
theorem kept {x y : T} (hxy : y - x ≤ D.span) (hes : Chronological es) (hy : ∀ e ∈ es, e.1 ≤ y)
    (hquiet : ∀ pre e post, es = pre ++ e :: post → x ≤ e.1 → D.alarm e (D.after [] pre) = false)
    {e : T × A} (he : e ∈ es) (hx : x ≤ e.1) : e ∈ D.after [] es := by
  induction es using List.reverseRecOn with
  | nil => cases he
  | append_singleton es d ih =>
      obtain ⟨hfirst, -, hlast⟩ := List.pairwise_append.mp hes
      have hd : x ≤ d.1 := by
        obtain he | he := List.mem_append.mp he
        · exact hx.trans (hlast e he d List.mem_cons_self)
        · rwa [← List.mem_singleton.mp he]
      have hmem : e ∈ D.after [] es ++ [d] := by
        obtain he | he := List.mem_append.mp he
        · refine List.mem_append_left _ (ih hfirst ?_ ?_ he)
          · exact fun e' he' => hy e' (List.mem_append_left _ he')
          · rintro pre e' post rfl
            exact hquiet pre e' (post ++ [d]) (by simp)
        · exact List.mem_append_right _ he
      have hyoung : d.1 - e.1 ≤ D.span :=
        (sub_le_sub (hy d (by simp)) hx).trans hxy
      rw [after_snoc, next, hquiet es d [] rfl hd, noted_eq hes]
      exact List.mem_filter.mpr ⟨hmem, decide_eq_true hyoung⟩

omit [DecidableEq A] [AddCommGroup T] [IsOrderedAddMonoid T] in
theorem mem_takeWhile {y : T} (hes : Chronological es) (he : e ∈ es) (hy : e.1 ≤ y) :
    e ∈ es.takeWhile fun e' => decide (e'.1 ≤ y) := by
  induction es with
  | nil => cases he
  | cons d es ih =>
      obtain ⟨hle, hes⟩ := List.pairwise_cons.mp hes
      have hd : d.1 ≤ y := by
        obtain rfl | he := List.mem_cons.mp he
        · exact hy
        · exact (hle e he).trans hy
      rw [List.takeWhile_cons_of_pos (by simpa using hd)]
      obtain rfl | he := List.mem_cons.mp he
      · exact List.mem_cons_self
      · exact List.mem_cons_of_mem _ (ih hes he)

/-- **No alarm is missed.** Where enough different items arrive within `span`, one of these
arrivals gives an alarm. -/
theorem found {x y : T} (hxy : y - x ≤ D.span) (hes : Chronological es) (henough :
      D.threshold ≤ distinct (es.filter fun e => decide (x ≤ e.1) && decide (e.1 ≤ y))) :
    ∃ pre e post, es = pre ++ e :: post ∧ x ≤ e.1 ∧ e.1 ≤ y ∧
      D.alarm e (D.after [] pre) = true := by
  by_contra hnone
  obtain ⟨late, hsplit⟩ := List.takeWhile_prefix (fun e : T × A => decide (e.1 ≤ y)) (l := es)
  have hy : ∀ e ∈ es.takeWhile (fun e => decide (e.1 ≤ y)), e.1 ≤ y := by
    intro e he
    simpa using List.mem_takeWhile_imp he
  have hquiet : ∀ pre e post, es.takeWhile (fun e => decide (e.1 ≤ y)) = pre ++ e :: post →
      x ≤ e.1 → D.alarm e (D.after [] pre) = false := by
    intro pre e post heq hx
    by_contra halarm
    refine hnone ⟨pre, e, post ++ late, ?_, hx, hy e (by simp [heq]), by simpa using halarm⟩
    rw [← hsplit, heq]
    simp
  have hkept : es.filter (fun e => decide (x ≤ e.1) && decide (e.1 ≤ y)) ⊆
      D.after [] (es.takeWhile fun e => decide (e.1 ≤ y)) := by
    intro e he
    simp only [List.mem_filter, Bool.and_eq_true, decide_eq_true_eq] at he
    exact kept hxy (hes.sublist (List.takeWhile_sublist _)) hy hquiet
      (mem_takeWhile hes he.1 he.2.2) he.2.1
  exact absurd (henough.trans (distinct_mono hkept)) (not_le.mpr (D.distinct_after_lt _))

/-! ## When there are alarms -/

omit [IsOrderedAddMonoid T] in
theorem alarms_ne_nil {q : List (T × A)} : D.alarms q es ≠ [] ↔
    ∃ pre e post, es = pre ++ e :: post ∧ D.alarm e (D.after q pre) = true := by
  induction es generalizing q with
  | nil => simp [alarms]
  | cons d es ih =>
      have hsplit : D.alarms q (d :: es) ≠ [] ↔
          D.alarm d q = true ∨ D.alarms (D.next d q) es ≠ [] := by
        rw [alarms]
        by_cases hd : D.alarm d q = true
        · simp [hd]
        · simp [hd]
      rw [hsplit, ih]
      constructor
      · rintro (hd | ⟨pre, e, post, rfl, he⟩)
        · exact ⟨[], d, es, rfl, hd⟩
        · exact ⟨d :: pre, e, post, rfl, he⟩
      · rintro ⟨pre, e, post, hes, he⟩
        cases pre with
        | nil =>
            cases hes
            exact .inl he
        | cons d' pre =>
            cases hes
            exact .inr ⟨pre, e, post, rfl, he⟩

/-- **There are alarms if and only if** enough different items arrive within `span`. -/
theorem alarms_ne_nil_iff (hes : Chronological es) : D.alarms [] es ≠ [] ↔
    ∃ x y, y - x ≤ D.span ∧
      D.threshold ≤ distinct (es.filter fun e => decide (x ≤ e.1) && decide (e.1 ≤ y)) := by
  rw [alarms_ne_nil]
  constructor
  · rintro ⟨pre, e, post, rfl, he⟩
    have hprefix : Chronological (pre ++ [e]) :=
      hes.sublist (((List.nil_sublist post).cons_cons e).append_left pre)
    refine ⟨e.1 - D.span, e.1, by rw [sub_sub_cancel], ?_⟩
    refine (justified hprefix he).trans (distinct_mono fun d hd => ?_)
    simp only [List.mem_filter, Bool.and_eq_true, decide_eq_true_eq] at hd ⊢
    have hle : d.1 ≤ e.1 := by
      rcases List.mem_append.mp hd.1 with hpre | hlast
      · exact (List.pairwise_append.mp hprefix).2.2 d hpre e List.mem_cons_self
      · rw [List.mem_singleton.mp hlast]
    refine ⟨?_, sub_le_comm.mp hd.2, hle⟩
    simpa using List.mem_append_left post hd.1
  · rintro ⟨x, y, hxy, henough⟩
    obtain ⟨pre, e, post, rfl, -, -, he⟩ := found hxy hes henough
    exact ⟨pre, e, post, rfl, he⟩

end

end Detector

end Window
