import Mathlib.Tactic.Common
import Mathlib.Logic.Function.Iterate
import Mathlib.Order.Lattice
import Mathlib.Data.List.Sort

set_option autoImplicit false

/-! # A rate limiter that keeps time stamps

A limiter keeps the times of the last arrivals. It refuses an arrival if `limit` of the
times it has kept are not older than `span`, and then perhaps notes it several times over.

Two facts relate the stamps to the past. They are at least as many as the accepted
arrivals, as far as the limiter keeps any: so no window holds more than `limit` of these.
And as long as nothing has been refused, they are at most as many as all arrivals: so a
source is not refused that sends no more than `limit` in any window. -/

namespace Window

/-- How many of the times are not before `x`. -/
def since (x : Nat) (l : List Nat) : Nat := l.countP fun t => x ≤ t

/-- How many of the times are in the window from `x` to `x + span`. -/
def within (x span : Nat) (l : List Nat) : Nat := l.countP fun t => x ≤ t ∧ t ≤ x + span

theorem since_cons (x t : Nat) (l : List Nat) :
    since x (t :: l) = since x l + if x ≤ t then 1 else 0 := by
  simp [since, List.countP_cons]

theorem within_cons (x span t : Nat) (l : List Nat) :
    within x span (t :: l) = within x span l + if x ≤ t ∧ t ≤ x + span then 1 else 0 := by
  simp [within, List.countP_cons]

theorem since_append (x : Nat) (l l' : List Nat) : since x (l ++ l') = since x l + since x l' :=
  List.countP_append

theorem within_append (x span : Nat) (l l' : List Nat) :
    within x span (l ++ l') = within x span l + within x span l' :=
  List.countP_append

theorem since_anti {x y : Nat} (h : x ≤ y) (l : List Nat) : since y l ≤ since x l := by
  refine List.countP_mono_left fun t _ ht => ?_
  simp only [decide_eq_true_eq] at ht ⊢
  omega

theorem within_le_since (x span : Nat) (l : List Nat) : within x span l ≤ since x l := by
  refine List.countP_mono_left fun t _ ht => ?_
  simp only [decide_eq_true_eq] at ht ⊢
  exact ht.1

/-- Up to now, a window that reaches to the present holds all times from its beginning on. -/
theorem within_eq_since {x span now : Nat} {l : List Nat} (hl : ∀ t ∈ l, t ≤ now)
    (h : now ≤ x + span) : within x span l = since x l := by
  refine List.countP_congr fun t ht => ?_
  have := hl t ht
  simp only [decide_eq_true_eq]
  omega

/-- Of times with the latest first, those not before `x` come first. -/
theorem since_take {l : List Nat} (h : l.Pairwise (· ≥ ·)) (x k : Nat) :
    since x (l.take k) = min k (since x l) := by
  induction l generalizing k with
  | nil => simp [since]
  | cons t l ih =>
      obtain ⟨hle, hl⟩ := List.pairwise_cons.mp h
      cases k with
      | zero => simp [since]
      | succ k =>
          rw [List.take_succ_cons, since_cons, since_cons, ih hl]
          by_cases hx : x ≤ t
          · simp only [if_pos hx]
            omega
          · -- the others are older still
            have hnone : since x l = 0 := by
              refine List.countP_eq_zero.mpr fun u hu => ?_
              have := hle u hu
              simp only [decide_eq_true_eq]
              omega
            simp only [if_neg hx, hnone]
            omega

theorem since_take_le (x k : Nat) (l : List Nat) : since x (l.take k) ≤ since x l :=
  (List.take_sublist k l).countP_le

/-! ## The limiter -/

/-- `penalty` is the number of times a refused arrival is noted. -/
structure Limiter where
  span : Nat
  limit : Nat
  keep : Nat
  penalty : Nat
  pos : 0 < limit
  fits : limit ≤ keep

namespace Limiter

variable (L : Limiter)

/-- An arrival is noted. -/
def stamp (now : Nat) (s : List Nat) : List Nat := (now :: s).take L.keep

/-- An arrival is refused. -/
def full (now : Nat) (s : List Nat) : Bool := decide (L.limit ≤ since (now - L.span) s)

def next (now : Nat) (s : List Nat) : List Nat :=
  if L.full now s then (L.stamp now)^[L.penalty] s else L.stamp now s

/-- The arrivals, and whether they are accepted. -/
def run : List Nat → List Nat → List (Nat × Bool)
  | _, [] => []
  | s, t :: ts => (t, !L.full t s) :: run (L.next t s) ts

/-- The times of the accepted arrivals. -/
def accepted (es : List (Nat × Bool)) : List Nat := (es.filter (·.2)).map (·.1)

/-! ## No window holds too many -/

/-- What the stamps `s` say about the accepted arrivals. -/
structure Covers (s acc : List Nat) (now : Nat) : Prop where
  sorted : s.Pairwise (· ≥ ·)
  stampsPast : ∀ t ∈ s, t ≤ now
  past : ∀ t ∈ acc, t ≤ now
  covers : ∀ x, min L.keep (since x acc) ≤ since x s

variable {L} {s acc : List Nat} {now : Nat}

theorem covers_nil : L.Covers [] [] 0 where
  sorted := .nil
  stampsPast := by simp
  past := by simp
  covers := by simp [since]

theorem Covers.later (h : L.Covers s acc now) {t : Nat} (ht : now ≤ t) : L.Covers s acc t where
  sorted := h.sorted
  stampsPast u hu := le_trans (h.stampsPast u hu) ht
  past u hu := le_trans (h.past u hu) ht
  covers := h.covers

theorem Covers.cons_sorted (h : L.Covers s acc now) : (now :: s).Pairwise (· ≥ ·) :=
  List.pairwise_cons.mpr ⟨h.stampsPast, h.sorted⟩

theorem Covers.since_stamp (h : L.Covers s acc now) (x : Nat) :
    since x (L.stamp now s) = min L.keep (since x s + if x ≤ now then 1 else 0) := by
  rw [stamp, since_take h.cons_sorted, since_cons]

theorem Covers.stamp (h : L.Covers s acc now) : L.Covers (L.stamp now s) acc now where
  sorted := h.cons_sorted.sublist (List.take_sublist _ _)
  stampsPast t ht := by
    obtain rfl | ht := List.mem_cons.mp (List.mem_of_mem_take ht)
    · exact le_rfl
    · exact h.stampsPast t ht
  past := h.past
  covers x := by
    have := h.covers x
    rw [h.since_stamp]
    omega

/-- A refused arrival, -/
theorem Covers.refuse (h : L.Covers s acc now) (n : Nat) :
    L.Covers ((L.stamp now)^[n] s) acc now := by
  induction n with
  | zero => exact h
  | succ n ih =>
      rw [Function.iterate_succ_apply']
      exact ih.stamp

/-- and an accepted one. -/
theorem Covers.accept (h : L.Covers s acc now) : L.Covers (L.stamp now s) (now :: acc) now where
  sorted := h.stamp.sorted
  stampsPast := h.stamp.stampsPast
  past t ht := by
    obtain rfl | ht := List.mem_cons.mp ht
    · exact le_rfl
    · exact h.past t ht
  covers x := by
    have := h.covers x
    rw [h.since_stamp, since_cons]
    omega

/-- Whoever is accepted has not been accepted too often of late. -/
theorem Covers.room (h : L.Covers s acc now) (hnot : L.full now s = false) :
    since (now - L.span) acc < L.limit := by
  have hcov := h.covers (now - L.span)
  have hfits := L.fits
  have hlt : since (now - L.span) s < L.limit := by simpa [full] using hnot
  omega

/-- So the windows that hold it are not overfull. -/
theorem Covers.within_accept (h : L.Covers s acc now) (hnot : L.full now s = false)
    (hacc : ∀ a, within a L.span acc ≤ L.limit) (a : Nat) :
    within a L.span (now :: acc) ≤ L.limit := by
  rw [within_cons]
  split
  · rename_i hin
    have hroom := h.room hnot
    have hle : within a L.span acc ≤ since (now - L.span) acc :=
      le_trans (within_le_since _ _ _) (since_anti (by omega) _)
    omega
  · exact hacc a

/-- **No window holds more accepted arrivals than the limit.** -/
theorem Covers.within_run (h : L.Covers s acc now) {ts : List Nat}
    (hts : (now :: ts).Pairwise (· ≤ ·)) (hacc : ∀ a, within a L.span acc ≤ L.limit) (a : Nat) :
    within a L.span (accepted (L.run s ts) ++ acc) ≤ L.limit := by
  induction ts generalizing s acc now with
  | nil => exact hacc a
  | cons t ts ih =>
      obtain ⟨hle, hsorted⟩ := List.pairwise_cons.mp hts
      have ht : L.Covers s acc t := h.later (hle t List.mem_cons_self)
      cases hfull : L.full t s with
      | true =>
          have hrun : accepted (L.run s (t :: ts)) =
              accepted (L.run ((L.stamp t)^[L.penalty] s) ts) := by
            simp [run, accepted, next, hfull]
          rw [hrun]
          exact ih (ht.refuse _) hsorted hacc
      | false =>
          have hrun : accepted (L.run s (t :: ts)) =
              t :: accepted (L.run (L.stamp t s) ts) := by
            simp [run, accepted, next, hfull]
          have := ih ht.accept hsorted (ht.within_accept hfull hacc)
          rw [within_append, within_cons] at this
          rw [hrun, List.cons_append, within_cons, within_append]
          omega

theorem within_run_nil {ts : List Nat} (hts : ts.Pairwise (· ≤ ·)) (a : Nat) :
    within a L.span (accepted (L.run [] ts)) ≤ L.limit := by
  have hfirst : (0 :: ts).Pairwise (· ≤ ·) :=
    List.pairwise_cons.mpr ⟨fun _ _ => Nat.zero_le _, hts⟩
  simpa using covers_nil.within_run hfirst (by simp [within]) a

/-! ## Whoever keeps to the limit is accepted -/

/-- As long as nothing has been refused, there are no more stamps than arrivals. -/
theorem since_stamp_le {past : List Nat} (h : ∀ x, since x s ≤ since x past) (x : Nat) :
    since x (L.stamp now s) ≤ since x (past ++ [now]) := by
  have hle := since_take_le x L.keep (now :: s)
  have hpast : since x (past ++ [now]) = since x past + if x ≤ now then 1 else 0 := by
    rw [since_append, since_cons]
    exact congrArg (since x past + ·) (Nat.zero_add _)
  have := h x
  rw [since_cons] at hle
  rw [stamp, hpast]
  omega

/-- **A source that keeps to the limit is never refused.** -/
theorem run_accepts (past : List Nat) {ts : List Nat} (hs : ∀ x, since x s ≤ since x past)
    (hts : (past ++ ts).Pairwise (· ≤ ·))
    (hwin : ∀ a, within a L.span (past ++ ts) ≤ L.limit) : ∀ e ∈ L.run s ts, e.2 = true := by
  induction ts generalizing s past with
  | nil => simp [run]
  | cons t ts ih =>
      have hpast : ∀ u ∈ past, u ≤ t := fun u hu =>
        (List.pairwise_append.mp hts).2.2 u hu t List.mem_cons_self
      have hroom : L.full t s = false := by
        have hall := hwin (t - L.span)
        have hlate : within (t - L.span) L.span past = since (t - L.span) past :=
          within_eq_since hpast (by omega)
        have hstamps := hs (t - L.span)
        rw [within_append, within_cons, hlate, if_pos (by omega)] at hall
        simp only [full, decide_eq_false_iff_not]
        omega
      intro e he
      rw [run, next, hroom] at he
      obtain rfl | he := List.mem_cons.mp he
      · rfl
      · refine ih (past ++ [t]) (since_stamp_le hs) ?_ ?_ e he
        · rwa [List.append_assoc]
        · simpa [List.append_assoc] using hwin

end Limiter

end Window
