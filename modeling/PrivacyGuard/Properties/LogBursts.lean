import Mathlib.Algebra.Order.Group.Int
import PrivacyGuard.Http.Response
import PrivacyGuard.Model.LogWatch
import PrivacyGuard.Window.Counter

set_option autoImplicit false

/-! # Bursts in an access log

The times that the watch keeps in `hits` are the queue of a counter: `handleLine_hits` is what one
line does to it, `burstsOf_timed` what all of them do. -/

namespace PrivacyGuard.LogWatch

open Text Window

variable {T : Type}

/-- The alerts for bursts, with their times. -/
def burstsOf (log : List (T × Alert)) : List (T × Nat) :=
  log.filterMap fun e =>
    match e.2 with
    | .signature _ => none
    | .burst n => some (e.1, n)

theorem burstsOf_append (log log' : List (T × Alert)) :
    burstsOf (log ++ log') = burstsOf log ++ burstsOf log' :=
  List.filterMap_append

variable [AddCommGroup T] [LinearOrder T]

/-- The alerts with the times of the lines they are for. -/
def timed (s : Settings T) : List T → List (Line T) → List (T × Alert)
  | _, [] => []
  | hits, e :: es =>
      (handleLine s hits e.now e.text).2.map (e.now, ·) ++
        timed s (handleLine s hits e.now e.text).1 es

theorem map_snd_timed (s : Settings T) (hits : List T) (es : List (Line T)) :
    (timed s hits es).map (·.2) = alerts s hits es := by
  induction es generalizing hits with
  | nil => rfl
  | cons e es ih =>
      have hsnd : ((handleLine s hits e.now e.text).2.map (e.now, ·)).map (·.2) =
          (handleLine s hits e.now e.text).2 := by
        simp [Function.comp_def]
      rw [timed, List.map_append, ih, hsnd, alerts]

section

variable {s : Settings T} (hthreshold : 1 ≤ s.burstThreshold)

/-- What counts the lines. -/
def counter : Counter T := ⟨s.windowSeconds, s.burstThreshold, hthreshold⟩

theorem handleLine_hits (hits : List T) (now : T) (line : List Char) :
    (handleLine s hits now line).1 = (counter hthreshold).next now hits := by
  unfold handleLine Counter.next
  by_cases h : (counter hthreshold).alarm now hits = true
  · rw [if_pos h]
    exact congrArg Prod.fst (if_pos (of_decide_eq_true h))
  · rw [if_neg h]
    rw [Counter.alarm, decide_eq_true_iff] at h
    exact congrArg Prod.fst (if_neg h)

/-- A line that gives an alarm is reported with the number of lines that were counted. -/
theorem burstsOf_handleLine {hits : List T} (hhits : hits.length < s.burstThreshold) (now : T)
    (line : List Char) : burstsOf ((handleLine s hits now line).2.map (now, ·)) =
      (if (counter hthreshold).alarm now hits then [now] else []).map (·, s.burstThreshold) := by
  have hknown : burstsOf ((if knownSign line then [signatureAlert line] else []).map (now, ·)) =
      [] := by
    split
    · rfl
    · rfl
  by_cases h : (counter hthreshold).alarm now hits = true
  · have hlen : ((hits ++ [now]).dropWhile fun t => decide (s.windowSeconds < now - t)).length =
        s.burstThreshold := Counter.length_noted_of_alarm hhits h
    simp only [handleLine, hlen, le_refl, if_true, if_pos h, List.map_append, burstsOf_append,
      hknown]
    rfl
  · have hfew : ¬ s.burstThreshold ≤
        ((hits ++ [now]).dropWhile fun t => decide (s.windowSeconds < now - t)).length := by
      rw [Counter.alarm, decide_eq_true_iff] at h
      exact h
    simp only [handleLine, if_neg hfew, if_neg h, hknown, List.map_nil]

theorem burstsOf_timed {hits : List T} (hhits : hits.length < s.burstThreshold)
    (es : List (Line T)) : burstsOf (timed s hits es) =
      ((counter hthreshold).alarms hits (es.map Line.now)).map (·, s.burstThreshold) := by
  induction es generalizing hits with
  | nil => rfl
  | cons e es ih =>
      have hnext : ((counter hthreshold).next e.now hits).length < s.burstThreshold :=
        Counter.length_next_lt
      rw [timed, burstsOf_append, burstsOf_handleLine hthreshold hhits,
        handleLine_hits hthreshold, ih hnext, List.map_cons, Counter.alarms, List.map_append]

end

/-- What the alerts for bursts say about the lines that have been read. -/
structure BurstsExact (s : Settings T) (es : List (Line T)) : Prop where
  /-- At each alert, so many lines have been read within the window. -/
  sound : ∀ t n, (t, n) ∈ burstsOf (timed s [] es) → n = s.burstThreshold ∧
    s.burstThreshold ≤ between (t - s.windowSeconds) t (es.map Line.now)
  /-- In each window, there is an alert for every `burstThreshold` lines. -/
  enough : ∀ x y, y - x ≤ s.windowSeconds → between x y (es.map Line.now) / s.burstThreshold ≤
    between x y ((burstsOf (timed s [] es)).map (·.1))
  /-- Each line counts for one alert at most. -/
  bounded : s.burstThreshold * (burstsOf (timed s [] es)).length ≤ es.length

/-- **The alerts for bursts are exact**, however the log is written and read. -/
theorem bursts_exact [IsOrderedAddMonoid T] (D : Decoder) {s : Settings T}
    (hthreshold : 1 ≤ s.burstThreshold) {ms : List (Move T)}
    (horder : (counted D ms).Pairwise (· ≤ ·)) :
    BurstsExact s (handled D [] ms) ∧
      (timed s [] (handled D [] ms)).map (·.2) = watchHttpAccessLog D s ms := by
  have hempty : ([] : List T).length < s.burstThreshold := hthreshold
  have hlog := burstsOf_timed hthreshold hempty (handled D [] ms)
  refine ⟨⟨?_, ?_, ?_⟩, map_snd_timed s [] _⟩
  · intro t n ht
    rw [hlog] at ht
    obtain ⟨t', ht', heq⟩ := List.mem_map.mp ht
    cases heq
    -- the lines counted up to the alert are some of those that have been read
    obtain ⟨pre, post, hsplit, halarm⟩ := Counter.mem_alarms.mp ht'
    have hcounted : (handled D [] ms).map Line.now = pre ++ t :: post := hsplit
    have hsub : (pre ++ [t]).Sublist (pre ++ t :: post) :=
      ((List.nil_sublist post).cons_cons t).append_left pre
    rw [counted, hcounted] at horder
    refine ⟨rfl, ?_⟩
    rw [hcounted]
    exact (Counter.justified (horder.sublist hsub) halarm).trans (between_mono hsub _ _)
  · intro x y hxy
    have hmono : ([] ++ counted D ms).Pairwise (· ≤ ·) := horder
    -- the lines of the window are fewer than one more alert would take
    have hlt := Counter.between_lt (C := counter hthreshold) hempty hmono hxy
    have htimes : (burstsOf (timed s [] (handled D [] ms))).map (·.1) =
        (counter hthreshold).alarms [] ((handled D [] ms).map Line.now) := by
      rw [hlog, List.map_map]
      exact List.map_id _
    rw [htimes, ← Nat.lt_succ_iff, Nat.div_lt_iff_lt_mul hthreshold, Nat.succ_mul, Nat.mul_comm]
    exact (Nat.le_add_right _ _).trans_lt hlt
  · have hle : (counter hthreshold).threshold *
          ((counter hthreshold).alarms [] (counted D ms)).length +
        ((counter hthreshold).after [] (counted D ms)).length ≤
          ([] : List T).length + (counted D ms).length := Counter.alarms_mul_le hempty
    -- the lines left in the queue at the end count for no alert
    have hlen : (counted D ms).length = (handled D [] ms).length := List.length_map _
    rw [hlog, List.length_map, ← hlen]
    rw [List.length_nil, Nat.zero_add] at hle
    exact (Nat.le_add_right _ _).trans hle

/-- Three requests within two seconds. -/
def threeRequests : List (Move Int) :=
  [.write (Http.ascii "GET /a\n"), .read 0 0, .write (Http.ascii "GET /b\nGET /c\n"),
    .read 1 7, .read 2 0]

theorem bursts_exact_threeRequests : BurstsExact ⟨10, 2⟩ (handled utf8 [] threeRequests) :=
  (bursts_exact utf8 (by decide) (by decide +kernel)).1

end PrivacyGuard.LogWatch
