import PrivacyGuard.Model.ScanWatch
import Mathlib.Algebra.Order.Group.Int

set_option autoImplicit false

/-! # The live scan watch is exact

The queue of each source is a detector that sees the packets of this source and nothing else:
`hits_handle` is what one packet does to the queues, `hits_watched` what all of them do. -/

namespace PrivacyGuard.ScanWatch

open Window

section

variable {T : Type}

/-- The time and the port of a TCP packet of the source. -/
def packetOf (src : String) (pkt : Sniffed T) : Option (T × Nat) :=
  match pkt.tcp with
  | some (s, dport) => if s = src then some (pkt.now, dport) else none
  | none => none

/-- The TCP packets of a source, with their times and ports. -/
def packetsOf (src : String) (pkts : List (Sniffed T)) : List (T × Nat) :=
  pkts.filterMap (packetOf src)

theorem packetOf_eq_some {src : String} {pkt : Sniffed T} {e : T × Nat} :
    packetOf src pkt = some e ↔ pkt.tcp = some (src, e.2) ∧ pkt.now = e.1 := by
  rw [packetOf]
  split
  · rename_i s dport htcp
    by_cases hsrc : s = src
    · rw [if_pos hsrc, htcp, hsrc]
      constructor
      · intro h
        obtain rfl := Option.some.inj h
        exact ⟨rfl, rfl⟩
      · rintro ⟨hport, hnow⟩
        cases hport
        rw [hnow]
    · rw [if_neg hsrc, htcp]
      simp [hsrc]
  · rename_i htcp
    simp [htcp]

/-- The alerts for a source, with their times. -/
def alertsOf (src : String) (log : List (T × Event)) : List (T × Nat) :=
  log.filterMap fun e =>
    match e.2 with
    | .alert s ports => if s = src then some (e.1, ports) else none
    | .block _ => none

theorem packetsOf_append (src : String) (pkts pkts' : List (Sniffed T)) :
    packetsOf src (pkts ++ pkts') = packetsOf src pkts ++ packetsOf src pkts' :=
  List.filterMap_append

theorem alertsOf_append (src : String) (log log' : List (T × Event)) :
    alertsOf src (log ++ log') = alertsOf src log ++ alertsOf src log' :=
  List.filterMap_append

theorem alertsOf_alert (src src' : String) (now : T) (n : Nat) (log : List (T × Event)) :
    alertsOf src' ((now, .alert src n) :: log) =
      (if src = src' then [(now, n)] else []) ++ alertsOf src' log := by
  by_cases h : src = src'
  · simp [alertsOf, h]
  · simp [alertsOf, h]

/-- Blocking a source is no alert. -/
theorem alertsOf_block (src : String) (env : Environment) (s : Settings T) (ip : String)
    (w : Watch T) (now : T) :
    alertsOf src ((if s.autoBlock then block env ip w else (w, [])).2.map (now, ·)) = [] := by
  split
  · rw [block]
    split
    · rfl
    · rfl
  · rfl

theorem exists_alert (src : String) (now : T) (es : List Event) :
    (∃ n, .alert src n ∈ es) ↔ alertsOf src (es.map (now, ·)) ≠ [] := by
  induction es with
  | nil => simp [alertsOf]
  | cons e es ih =>
      cases e with
      | alert src' n =>
          rw [List.map_cons, alertsOf_alert]
          by_cases hsrc : src' = src
          · simp [hsrc]
          · simp [hsrc, Ne.symm hsrc, ih]
      | block ip =>
          have hskip : alertsOf src ((now, .block ip) :: es.map (now, ·)) =
              alertsOf src (es.map (now, ·)) := rfl
          rw [List.map_cons, hskip, ← ih]
          simp

/-- A packet of the source among the others. -/
theorem packetsOf_split {src : String} {pkts : List (Sniffed T)} {es es' : List (T × Nat)}
    {e : T × Nat} (h : packetsOf src pkts = es ++ e :: es') :
    ∃ pre pkt post, pkts = pre ++ pkt :: post ∧ packetsOf src pre = es ∧
      pkt.tcp = some (src, e.2) ∧ pkt.now = e.1 := by
  obtain ⟨l, l', rfl, hl, hl'⟩ := List.filterMap_eq_append_iff.mp h
  obtain ⟨l₁, pkt, l₂, rfl, hnone, hpkt, -⟩ := List.filterMap_eq_cons_iff.mp hl'
  refine ⟨l ++ l₁, pkt, l₂, (List.append_assoc _ _ _).symm, ?_, ?_⟩
  · have hskip : packetsOf src l₁ = [] := List.filterMap_eq_nil_iff.mpr hnone
    have hfirst : packetsOf src l = es := hl
    rw [packetsOf_append, hfirst, hskip, List.append_nil]
  · exact packetOf_eq_some.mp hpkt

theorem packetsOf_other {src : String} {pkt : Sniffed T}
    (h : ∀ dport, pkt.tcp ≠ some (src, dport)) : packetsOf src [pkt] = [] := by
  rw [packetsOf, List.filterMap_eq_nil_iff]
  intro p hp
  rw [List.mem_singleton.mp hp, Option.eq_none_iff_forall_ne_some]
  intro e he
  exact h e.2 (packetOf_eq_some.mp he).1

theorem packetsOf_tcp {src : String} {pkt : Sniffed T} {dport : Nat}
    (h : pkt.tcp = some (src, dport)) : packetsOf src [pkt] = [(pkt.now, dport)] := by
  have hone : packetOf src pkt = some (pkt.now, dport) := packetOf_eq_some.mpr ⟨h, rfl⟩
  rw [packetsOf, List.filterMap_cons, hone, List.filterMap_nil]

end

variable {T : Type} [AddCommGroup T] [LinearOrder T]

/-- How many ports the source has touched from `x` to `y`. -/
def portsWithin (src : String) (x y : T) (pkts : List (Sniffed T)) : Nat :=
  distinct ((packetsOf src pkts).filter fun e => decide (x ≤ e.1) && decide (e.1 ≤ y))

variable {env : Environment} {s : Settings T} {src : String} {pkt : Sniffed T}

section

variable (hthreshold : 1 ≤ s.portThreshold) (hwindow : 0 ≤ s.windowSeconds)

/-- What watches one source. -/
def detector : Detector T := ⟨s.windowSeconds, s.portThreshold, hwindow, hthreshold⟩

/-- What a packet of the source does to its queue, and what is reported. -/
theorem handle_tcp (env : Environment) {dport : Nat} (h : pkt.tcp = some (src, dport))
    (w : Watch T) :
    (handle env s w pkt).1.hits = Function.update w.hits src
        ((detector hthreshold hwindow).next (pkt.now, dport) (w.hits src)) ∧
      ∀ src', alertsOf src' ((handle env s w pkt).2.map (pkt.now, ·)) =
        if src = src' then
          (detector hthreshold hwindow).alarms (w.hits src) [(pkt.now, dport)]
        else [] := by
  have hdq : trim s.windowSeconds pkt.now (w.hits src ++ [(pkt.now, dport)]) =
      (detector hthreshold hwindow).noted (pkt.now, dport) (w.hits src) := rfl
  by_cases halarm : (detector hthreshold hwindow).alarm (pkt.now, dport) (w.hits src) = true
  · have henough : s.portThreshold ≤
        distinct ((detector hthreshold hwindow).noted (pkt.now, dport) (w.hits src)) :=
      of_decide_eq_true halarm
    simp only [handle, h, hdq, if_pos henough, Detector.next, Detector.alarms, if_pos halarm]
    refine ⟨trivial, fun src' => ?_⟩
    rw [List.map_cons, alertsOf_alert, alertsOf_block, List.append_nil, List.append_nil]
  · have hfew : ¬ s.portThreshold ≤
        distinct ((detector hthreshold hwindow).noted (pkt.now, dport) (w.hits src)) := by
      rw [Detector.alarm, decide_eq_true_iff] at halarm
      exact halarm
    simp only [handle, h, hdq, if_neg hfew, Detector.next, Detector.alarms, if_neg halarm]
    refine ⟨trivial, fun src' => ?_⟩
    simp [alertsOf]

/-- What one packet does to the queue of any source, and what it makes the watch report. -/
theorem handle_eq (env : Environment) (w : Watch T) (pkt : Sniffed T) (src : String) :
    (handle env s w pkt).1.hits src =
        (detector hthreshold hwindow).after (w.hits src) (packetsOf src [pkt]) ∧
      alertsOf src ((handle env s w pkt).2.map (pkt.now, ·)) =
        (detector hthreshold hwindow).alarms (w.hits src) (packetsOf src [pkt]) := by
  cases htcp : pkt.tcp with
  | none =>
      rw [packetsOf_other (by simp [htcp])]
      simp [handle, htcp, Detector.after, Detector.alarms, alertsOf]
  | some e =>
      obtain ⟨src', dport⟩ := e
      obtain ⟨hhits, halerts⟩ := handle_tcp hthreshold hwindow env htcp w
      by_cases hsrc : src' = src
      · subst hsrc
        rw [hhits, halerts, if_pos rfl, packetsOf_tcp htcp, Function.update_self]
        exact ⟨rfl, rfl⟩
      · rw [hhits, halerts, if_neg hsrc, packetsOf_other (by simp [htcp, hsrc]),
          Function.update_of_ne (Ne.symm hsrc)]
        exact ⟨rfl, rfl⟩

/-- The queue of a source after some packets. -/
theorem hits_watched (src : String) (pkts : List (Sniffed T)) : (watched env s pkts).hits src =
    (detector hthreshold hwindow).after [] (packetsOf src pkts) := by
  induction pkts using List.reverseRecOn with
  | nil => rfl
  | append_singleton pkts pkt ih =>
      have hstep : watched env s (pkts ++ [pkt]) = (handle env s (watched env s pkts) pkt).1 := by
        simp [watched]
      rw [hstep, (handle_eq hthreshold hwindow env _ pkt src).1, ih, packetsOf_append]
      simp [Detector.after]

/-- What is reported of a source depends on its own packets. -/
theorem alertsOf_reports (src : String) (w : Watch T) (pkts : List (Sniffed T)) :
    alertsOf src (reports env s w pkts) =
      (detector hthreshold hwindow).alarms (w.hits src) (packetsOf src pkts) := by
  induction pkts generalizing w with
  | nil => rfl
  | cons pkt pkts ih =>
      obtain ⟨hhits, halerts⟩ := handle_eq hthreshold hwindow env w pkt src
      have hsplit : packetsOf src (pkt :: pkts) = packetsOf src [pkt] ++ packetsOf src pkts :=
        packetsOf_append src [pkt] pkts
      rw [reports, alertsOf_append, ih, halerts, hhits, hsplit, Detector.alarms_append]

/-- When a packet makes the watch report a source. -/
theorem alert_iff {pre : List (Sniffed T)} : (∃ n, .alert src n ∈ eventsAt env s pre pkt) ↔
    ∃ dport, pkt.tcp = some (src, dport) ∧ (detector hthreshold hwindow).alarm (pkt.now, dport)
      ((detector hthreshold hwindow).after [] (packetsOf src pre)) = true := by
  have halerts := (handle_eq hthreshold hwindow env (watched env s pre) pkt src).2
  rw [hits_watched hthreshold hwindow] at halerts
  rw [exists_alert src pkt.now, eventsAt, halerts]
  by_cases htcp : ∃ dport, pkt.tcp = some (src, dport)
  · obtain ⟨dport, htcp⟩ := htcp
    rw [packetsOf_tcp htcp, Detector.alarms, Detector.alarms, List.append_nil]
    simp [htcp]
  · rw [packetsOf_other (fun dport h => htcp ⟨dport, h⟩), Detector.alarms]
    refine iff_of_false (by simp) ?_
    rintro ⟨dport, h, -⟩
    exact htcp ⟨dport, h⟩

end

/-- What the alerts say about the packets. -/
structure Exact (env : Environment) (s : Settings T) (pkts : List (Sniffed T)) : Prop where
  /-- Before every alert, its source has touched enough ports within the window. -/
  sound : ∀ pre pkt post src n, pkts = pre ++ pkt :: post → .alert src n ∈ eventsAt env s pre pkt →
    (∃ dport, pkt.tcp = some (src, dport)) ∧ s.portThreshold ≤
      portsWithin src (pkt.now - s.windowSeconds) pkt.now (pre ++ [pkt])
  /-- Where a source touches enough ports within the window, there is an alert. -/
  complete : ∀ src x y, y - x ≤ s.windowSeconds → s.portThreshold ≤ portsWithin src x y pkts →
    ∃ pre pkt post n, pkts = pre ++ pkt :: post ∧ x ≤ pkt.now ∧ pkt.now ≤ y ∧
      .alert src n ∈ eventsAt env s pre pkt
  /-- Packets of other sources make no difference. -/
  separate : ∀ src pkts', packetsOf src pkts' = packetsOf src pkts →
    alertsOf src (reports env s .empty pkts') = alertsOf src (reports env s .empty pkts)

variable [IsOrderedAddMonoid T]

omit [AddCommGroup T] [IsOrderedAddMonoid T] in
theorem chronological_packetsOf {pkts : List (Sniffed T)}
    (h : pkts.Pairwise fun pkt pkt' => pkt.now ≤ pkt'.now) (src : String) :
    Chronological (packetsOf src pkts) := by
  refine h.filterMap _ ?_
  intro pkt pkt' hle e he e' he'
  rw [← (packetOf_eq_some.mp he).2, ← (packetOf_eq_some.mp he').2]
  exact hle

theorem exact_of_pairwise {pkts : List (Sniffed T)} (hthreshold : 1 ≤ s.portThreshold)
    (hwindow : 0 ≤ s.windowSeconds) (horder : pkts.Pairwise fun pkt pkt' => pkt.now ≤ pkt'.now) :
    Exact env s pkts := by
  refine ⟨?_, ?_, ?_⟩
  · rintro pre pkt post src n rfl hmem
    obtain ⟨dport, htcp, halarm⟩ := (alert_iff hthreshold hwindow).mp ⟨n, hmem⟩
    have hpackets : packetsOf src (pre ++ [pkt]) = packetsOf src pre ++ [(pkt.now, dport)] := by
      rw [packetsOf_append, packetsOf_tcp htcp]
    have hprefix : Chronological (packetsOf src (pre ++ [pkt])) := by
      refine chronological_packetsOf (horder.sublist ?_) src
      exact ((List.nil_sublist post).cons_cons pkt).append_left pre
    refine ⟨⟨dport, htcp⟩, ?_⟩
    rw [hpackets] at hprefix
    refine (Detector.justified hprefix halarm).trans (distinct_mono ?_)
    rw [hpackets]
    intro e he
    obtain ⟨he, hspan⟩ := List.mem_filter.mp he
    have hle : e.1 ≤ pkt.now := by
      obtain he | he := List.mem_append.mp he
      · exact (List.pairwise_append.mp hprefix).2.2 e he _ List.mem_cons_self
      · rw [List.mem_singleton.mp he]
    have hge : pkt.now - s.windowSeconds ≤ e.1 := sub_le_comm.mp (of_decide_eq_true hspan)
    exact List.mem_filter.mpr ⟨he, by simp [hle, hge]⟩
  · intro src x y hxy henough
    obtain ⟨es, e, es', hsplit, hx, hy, halarm⟩ :=
      Detector.found (D := detector hthreshold hwindow) hxy (chronological_packetsOf horder src)
        henough
    obtain ⟨pre, pkt, post, rfl, hpre, htcp, hnow⟩ := packetsOf_split hsplit
    have halert : ∃ n, .alert src n ∈ eventsAt env s pre pkt := by
      refine (alert_iff hthreshold hwindow).mpr ⟨e.2, htcp, ?_⟩
      rwa [hpre, hnow]
    obtain ⟨n, hn⟩ := halert
    exact ⟨pre, pkt, post, n, rfl, hnow ▸ hx, hnow ▸ hy, hn⟩
  · intro src pkts' hsame
    rw [alertsOf_reports hthreshold hwindow, alertsOf_reports hthreshold hwindow, hsame]

/-- **The watch is exact**, whatever packets of whatever sources come in; and what it prints is what
the packets make it report. -/
theorem scan_exact {pkts : List (Sniffed T)} (hthreshold : 1 ≤ s.portThreshold)
    (hwindow : 0 ≤ s.windowSeconds) (horder : pkts.Pairwise fun pkt pkt' => pkt.now ≤ pkt'.now) :
    Exact env s pkts ∧
      (env.termux = false → env.root = true → ∀ t e, (t, e) ∈ liveScanWatch env true s pkts ↔
        ∃ pre pkt post, pkts = pre ++ pkt :: post ∧ pkt.now = t ∧ e ∈ eventsAt env s pre pkt) :=
  ⟨exact_of_pairwise hthreshold hwindow horder, fun htermux hroot _ _ =>
    mem_liveScanWatch htermux hroot⟩

/-- Two ports within ten seconds. -/
def twoPorts : Settings Int := ⟨2, 10, false⟩

def probe (now : Int) (dport : Nat) : Sniffed Int := ⟨now, some ("198.51.100.7", dport)⟩

def sensor : Environment where
  termux := false
  root := true
  hasTor := false
  hasIptables := true
  hasIp6tables := false
  hasSysctl := false
  interfaces := ["eth0"]

theorem scan_exact_twoPorts : Exact sensor twoPorts [probe 0 22, probe 3 80] :=
  (scan_exact (by decide) (by decide) (by decide)).1

end PrivacyGuard.ScanWatch
