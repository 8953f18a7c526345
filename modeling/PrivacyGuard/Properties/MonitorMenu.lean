import PrivacyGuard.Model.Monitor

set_option autoImplicit false

/-! # The monitors of a session

The menu keeps the object made last and makes a new one at every start, so that the test for a
running monitor, which is in the object, never meets the earlier ones. What has been started and
not stopped when another is started can no longer be stopped from the menu. It ends of itself only
where its interval is longer than `wait` accepts. -/

namespace PrivacyGuard.Monitor

open Effect

/-! ## One object of a session -/

namespace LeakMonitor

/-- Stopped, and not to be started again. -/
structure Halted (m : LeakMonitor) : Prop where
  stopEvent : m.stopEvent = true
  caller : m.caller = .idle ∨ m.caller = .joining

/-- Started, or on its way to that. -/
inductive Launched (m : LeakMonitor) : Prop
  | clearing (h : m.caller = .clearing)
  | spawning (h : m.caller = .spawning) (hclear : m.stopEvent = false)
  | active (h : m.caller = .idle) (hactive : m.Active)

variable {m m' : LeakMonitor} {timeoutMax : Int} {v : Move}

theorem Halted.not_active (h : m.Halted) : ¬ m.Active := by
  rintro ⟨hclear, -⟩
  rw [h.stopEvent] at hclear
  cases hclear

theorem Halted.move (h : m.Halted) (hm : m.Moved timeoutMax v m') : m'.Halted := by
  obtain ⟨hset, hcaller⟩ := h
  cases hm with
  | cleared h =>
      rw [h] at hcaller
      rcases hcaller with hcaller | hcaller <;> cases hcaller
  | spawned h =>
      rw [h] at hcaller
      rcases hcaller with hcaller | hcaller <;> cases hcaller
  | joined h => exact ⟨hset, .inl rfl⟩
  | looped hi ht => exact ⟨hset, hcaller⟩

/-- A stop leaves the object stopped. -/
theorem halted_of_stop (hm : m.Called .stop m') : m'.Halted := by
  cases hm with
  | stopping hidle =>
      refine ⟨rfl, ?_⟩
      by_cases hthreads : m.threads = []
      · exact .inl (if_pos hthreads)
      · exact .inr (if_neg hthreads)

theorem Launched.move (h : m.Launched) (hshort : m.interval ≤ timeoutMax)
    (hm : m.Moved timeoutMax v m') : m'.Launched := by
  cases hm with
  | cleared hcaller => exact .spawning rfl rfl
  | spawned hcaller =>
      cases h with
      | spawning h hclear => exact .active rfl ⟨hclear, .test, List.mem_cons_self, rfl⟩
      | clearing h => cases hcaller.symm.trans h
      | active h _ => cases hcaller.symm.trans h
  | joined hcaller =>
      cases h with
      | clearing h => cases hcaller.symm.trans h
      | spawning h _ => cases hcaller.symm.trans h
      | active h _ => cases hcaller.symm.trans h
  | looped hi ht =>
      cases h with
      | clearing h => exact .clearing h
      | spawning h hclear => exact .spawning h hclear
      | active h hactive => exact .active h (hactive.looped hi (fun _ => hshort) ht)

theorem Launched.active_of_idle (h : m.Launched) (hidle : m.caller = .idle) : m.Active := by
  cases h with
  | active h hactive => exact hactive
  | clearing h => cases hidle.symm.trans h
  | spawning h _ => cases hidle.symm.trans h

end LeakMonitor

/-! ## All objects -/

namespace Session

open LeakMonitor

/-- Between two actions, what the last one asks for: after a stop every event is set, and there
are never two monitors running. -/
def Stops (s : Session) : Prop :=
  s.Between → (s.last = some .stop → ∀ m ∈ s.monitors, m.stopEvent = true) ∧
    (s.monitors.filter fun m => decide m.Active).length ≤ 1

/-- No start follows a start without a stop between them. -/
def Alternating (s : Session) (a : Act) : Prop := ∀ n, a = .start n → s.last ≠ some .start

instance (s : Session) : (a : Act) → Decidable (s.Alternating a)
  | .start n => decidable_of_iff (s.last ≠ some .start) ⟨fun h _ _ => h, fun h => h n rfl⟩
  | .stop | .within _ _ => .isTrue fun _ h => by cases h

/-- All objects but the newest are stopped, and the newest is unless the last action is a start. -/
structure Orderly (s : Session) : Prop where
  older : ∀ m ∈ s.monitors.tail, m.Halted
  stopped : s.last ≠ some .start → ∀ m ∈ s.monitors, m.Halted

variable {s s' : Session} {a : Act} {timeoutMax : Int}

theorem orderly_new : new.Orderly where
  older := fun _ hm => absurd hm List.not_mem_nil
  stopped := fun _ _ hm => absurd hm List.not_mem_nil

theorem Orderly.step (h : s.Orderly) (ha : s.Alternating a) (hs : s.Stepped timeoutMax a s') :
    s'.Orderly := by
  cases hs with
  | started hidle => exact ⟨h.stopped (ha _ rfl), fun hlast => absurd rfl hlast⟩
  | nothing hidle hnil =>
      have hnone : ∀ m ∈ s.monitors, m.Halted := by
        rw [hnil]
        exact fun m hm => absurd hm List.not_mem_nil
      exact ⟨h.older, fun _ => hnone⟩
  | @stopped m m' ms hidle hcons hm =>
      have holder := h.older
      rw [hcons, List.tail_cons] at holder
      refine ⟨holder, fun _ => ?_⟩
      exact List.forall_mem_cons.mpr ⟨halted_of_stop hm, holder⟩
  | @within i v m m' hi hm =>
      refine ⟨?_, fun hlast m₁ hm₁ => ?_⟩
      · have holder := h.older
        cases hmonitors : s.monitors with
        | nil => exact fun m hm => absurd hm List.not_mem_nil
        | cons m₀ ms =>
            rw [hmonitors] at holder hi
            cases i with
            | zero => exact holder
            | succ i =>
                rintro m₁ hm₁
                obtain hm₁ | rfl := List.mem_or_eq_of_mem_set hm₁
                · exact holder m₁ hm₁
                · exact (holder m (List.mem_of_getElem? hi)).move hm
      · obtain hm₁ | rfl := List.mem_or_eq_of_mem_set hm₁
        · exact h.stopped hlast m₁ hm₁
        · exact (h.stopped hlast m (List.mem_of_getElem? hi)).move hm

theorem Orderly.stops (h : s.Orderly) : s.Stops := by
  refine fun _ => ⟨fun hlast m hm => ?_, ?_⟩
  · refine (h.stopped ?_ m hm).stopEvent
    rw [hlast]
    exact fun h => by cases h
  · refine length_filter_le_one fun m hm => ?_
    exact decide_eq_false (h.older m hm).not_active

theorem stops_of_alternating {as : List Act}
    (heach : (machine timeoutMax).Each Alternating as) :
    (machine timeoutMax).Always Stops as := by
  refine (Machine.always_of_each orderly_new ?_ heach).imp fun s h => h.stops
  exact fun s a s' h ha hstep => h.step ha (stepped_of_step hstep)

/-! ## A second start -/

/-- The `j`-th object, counted from the newest, is started, with an interval it can wait for. -/
def LaunchedAt (timeoutMax : Int) (s : Session) (j : Nat) : Prop :=
  ∃ m, s.monitors[j]? = some m ∧ m.interval ≤ timeoutMax ∧ m.Launched

/-- A step within the objects keeps what has been started. -/
theorem LaunchedAt.within {i j : Nat} {v : Move} {m m' : LeakMonitor}
    (h : s.LaunchedAt timeoutMax j) (hi : s.monitors[i]? = some m)
    (hm : m.Moved timeoutMax v m') :
    LaunchedAt timeoutMax { s with monitors := s.monitors.set i m' } j := by
  obtain ⟨n, hj, hshort, hn⟩ := h
  by_cases hij : i = j
  · subst hij
    obtain rfl := Option.some.inj (hi.symm.trans hj)
    obtain ⟨hlt, -⟩ := List.getElem?_eq_some_iff.mp hi
    have hshort' : m'.interval ≤ timeoutMax := hm.interval.trans_le hshort
    exact ⟨m', List.getElem?_set_self hlt, hshort', hn.move hshort hm⟩
  · exact ⟨n, (List.getElem?_set_ne hij).trans hj, hshort, hn⟩

/-- A monitor is started with an interval it can wait for. -/
def Short (timeoutMax : Int) (a : Act) : Prop := ∀ n, a = .start n → n ≤ timeoutMax

/-- After a start, the newest object is started. -/
def Launching (timeoutMax : Int) (s : Session) : Prop :=
  s.last = some .start → s.LaunchedAt timeoutMax 0

theorem Launching.step (h : s.Launching timeoutMax) (ha : Short timeoutMax a)
    (hs : s.Stepped timeoutMax a s') : s'.Launching timeoutMax := by
  intro hlast
  cases hs with
  | started hidle => exact ⟨_, rfl, ha _ rfl, .clearing rfl⟩
  | stopped hidle hcons hm => cases hlast
  | nothing hidle hnil => cases hlast
  | within hi hm => exact (h hlast).within hi hm

/-- Two objects are started. -/
def Doubled (timeoutMax : Int) (s : Session) : Prop :=
  s.LaunchedAt timeoutMax 0 ∧ s.LaunchedAt timeoutMax 1

theorem doubled_of_start {n : Int} (h : s.Launching timeoutMax) (hlast : s.last = some .start)
    (hshort : n ≤ timeoutMax) (hs : s.Stepped timeoutMax (.start n) s') :
    s'.Doubled timeoutMax := by
  cases hs with
  | started hidle => exact ⟨⟨_, rfl, hshort, .clearing rfl⟩, h hlast⟩

/-- Two objects stay so until both have been started, when the menu is back. -/
theorem Doubled.step (h : s.Doubled timeoutMax) (hbusy : ¬ s.Between)
    (hs : s.Stepped timeoutMax a s') : s'.Doubled timeoutMax := by
  cases hs with
  | started hidle => exact absurd hidle hbusy
  | stopped hidle _ _ => exact absurd hidle hbusy
  | nothing hidle _ => exact absurd hidle hbusy
  | within hi hm => exact ⟨h.1.within hi hm, h.2.within hi hm⟩

theorem Doubled.not_stops (h : s.Doubled timeoutMax) (hidle : s.Between) : ¬ s.Stops := by
  intro hstops
  obtain ⟨⟨m, hm, -, hlaunched⟩, m', hm', -, hlaunched'⟩ := h
  have hactive := hlaunched.active_of_idle (hidle m (List.mem_of_getElem? hm))
  have hactive' := hlaunched'.active_of_idle (hidle m' (List.mem_of_getElem? hm'))
  obtain ⟨ms, hcons⟩ : ∃ ms, s.monitors = m :: m' :: ms := by
    rw [← List.head?_eq_getElem?] at hm
    obtain ⟨ns, hns⟩ := List.head?_eq_some_iff.mp hm
    rw [hns, List.getElem?_cons_succ, ← List.head?_eq_getElem?] at hm'
    obtain ⟨ms, hms⟩ := List.head?_eq_some_iff.mp hm'
    exact ⟨ms, by rw [hns, hms]⟩
  have hone := (hstops hidle).2
  simp only [hcons, List.filter_cons, hactive, hactive', decide_true, if_true,
    List.length_cons] at hone
  omega

theorem alternating_of_stops {as : List Act} (h : (machine timeoutMax).run as = some s)
    (hidle : s.Between) (hshort : ∀ a ∈ as, Short timeoutMax a)
    (halways : (machine timeoutMax).Always Stops as) :
    (machine timeoutMax).Each Alternating as := by
  rintro pre a s₁ hpre hs₁ n rfl hlast
  obtain ⟨s₂, hs₂⟩ := Machine.run_of_prefix h hpre
  obtain ⟨s₁', hs₁', hstep⟩ := Machine.step_of_run hs₂
  obtain rfl := Option.some.inj (hs₁.symm.trans hs₁')
  have hlaunching : s₁.Launching timeoutMax := by
    have heach : (machine timeoutMax).Each (fun _ a => Short timeoutMax a) as :=
      fun pre a _ hpre _ => hshort a (hpre.subset (List.mem_append_right _ List.mem_cons_self))
    refine Machine.always_of_each ?_ ?_ heach pre s₁ ((List.prefix_append _ _).trans hpre) hs₁
    · exact fun h => by cases h
    · exact fun s a s' h ha hstep => h.step ha (stepped_of_step hstep)
  have hn : n ≤ timeoutMax :=
    hshort _ (hpre.subset (List.mem_append_right _ List.mem_cons_self)) n rfl
  have hdoubled := doubled_of_start hlaunching hlast hn (stepped_of_step hstep)
  obtain ⟨mid, s₃, hmid, hs₃, hdoubled, hidle⟩ :=
    Machine.exists_of_lasting (fun s a s' h hbusy hstep => h.step hbusy (stepped_of_step hstep))
      h hidle hpre hs₂ hdoubled
  exact hdoubled.not_stops hidle (halways mid s₃ hmid hs₃)

/-- **Every stop stops all monitors**, and at most one runs at a time, if no start follows a start
without a stop between them; and only if, with intervals that `wait` accepts, where otherwise a
monitor may have ended of itself. -/
theorem stops_iff (as : List Act) :
    ((machine timeoutMax).Each Alternating as → (machine timeoutMax).Always Stops as) ∧
      ∀ s, (machine timeoutMax).run as = some s → s.Between → (∀ a ∈ as, Short timeoutMax a) →
        (machine timeoutMax).Always Stops as → (machine timeoutMax).Each Alternating as :=
  ⟨stops_of_alternating, fun _ => alternating_of_stops⟩

/-- A monitor is started, stopped while it waits, and another one started. -/
def oneByOne : List Act :=
  [.start 30, .within 0 .caller, .within 0 .caller, .within 0 (.loop 0), .within 0 (.loop 0),
    .stop, .within 0 (.loop 0), .within 0 (.loop 0), .within 0 .caller,
    .start 30, .within 0 .caller, .within 0 .caller]

theorem stops_iff_oneByOne : (machine 9223372036).Always Stops oneByOne :=
  (stops_iff oneByOne).1 (Machine.each_of_forall_take (by decide))

/-- Two starts and a stop. -/
def twice : List Act :=
  [.start 30, .within 0 .caller, .within 0 .caller, .start 30, .within 0 .caller,
    .within 0 .caller, .stop, .within 0 (.loop 0), .within 0 .caller]

/-- The stop has reached the second monitor, and the first is still running. -/
theorem not_stops : (machine 9223372036).run twice = some
      ⟨[⟨30, true, [.ended], .idle, false⟩, ⟨30, false, [.test], .idle, true⟩], some .stop⟩ ∧
    ¬ (machine 9223372036).Always Stops twice := by
  have hrun : (machine 9223372036).run twice = some
      ⟨[⟨30, true, [.ended], .idle, false⟩, ⟨30, false, [.test], .idle, true⟩], some .stop⟩ := by
    decide
  refine ⟨hrun, fun halways => ?_⟩
  have hset := (halways twice _ List.prefix_rfl hrun (by decide)).1 rfl
  revert hset
  decide

end Session

end PrivacyGuard.Monitor
