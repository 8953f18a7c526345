import PrivacyGuard.Model.MonitorPanel
import PrivacyGuard.Properties.MonitorLifecycle
import PrivacyGuard.Properties.MonitorMenu

set_option autoImplicit false

/-! # What the panel of the monitor says

A new monitor is made only when the last one has no thread left, so that one thread at most is
ever alive, and the object that a press of the button reaches is the only one that matters. The
label says what that object does: a start that meets a thread which is still to end changes
neither. -/

namespace PrivacyGuard.Monitor

open Effect

/-! ## One monitor -/

namespace LeakMonitor

/-- No thread is alive, and none will be. -/
structure Spent (m : LeakMonitor) : Prop where
  ended : ∀ t ∈ m.threads, t = .ended
  idle : m.caller = .idle

variable {m m' : LeakMonitor} {timeoutMax : Int} {v : Move}

/-- No step within an object gives an idle caller something to do. -/
theorem Moved.idle (hm : m.Moved timeoutMax v m') (hidle : m.caller = .idle) :
    m'.caller = .idle := by
  cases hm with
  | cleared hcaller => cases hidle.symm.trans hcaller
  | spawned _ => rfl
  | joined _ => rfl
  | looped _ _ => exact hidle

theorem Spent.not_active (h : m.Spent) : ¬ m.Active := by
  rintro ⟨-, t, ht, halive⟩
  rw [h.ended t ht] at halive
  cases halive

theorem Spent.not_moved (h : m.Spent) : ¬ m.Moved timeoutMax v m' := by
  intro hm
  cases hm with
  | cleared hcaller => cases h.idle.symm.trans hcaller
  | spawned hcaller => cases h.idle.symm.trans hcaller
  | joined hcaller => cases h.idle.symm.trans hcaller
  | looped hi ht =>
      rw [h.ended _ (List.mem_of_getElem? hi)] at ht
      cases ht

/-- A monitor that is not running is left behind. -/
theorem Single.spent (h : m.Single) (hidle : m.caller = .idle) (hrunning : m.isRunning = false) :
    m.Spent := by
  refine ⟨fun t ht => ?_, hidle⟩
  by_contra hne
  have halive : m.isRunning = true := h.isRunning_iff.mpr ⟨t, ht, decide_eq_true hne⟩
  rw [hrunning] at halive
  cases halive

theorem single_clearing (n : Int) : Single { new n with caller := .clearing } :=
  ⟨fun _ ht => absurd ht List.not_mem_nil, fun _ => rfl⟩

end LeakMonitor

/-! ## The panel -/

namespace Panel

open LeakMonitor

variable {D : Menu.Decimals} {timeoutMax : Int} {s s' : Panel} {a : Act}

/-- What a step can do. -/
inductive Stepped (D : Menu.Decimals) (timeoutMax : Int) (s : Panel) : Act → Panel → Prop
  | refused {text : String} (hrunning : s.isRunning = true) : Stepped D timeoutMax s (.start text) s
  | started {text : String} (hfree : s.handler = none) (hrunning : s.isRunning = false) :
      Stepped D timeoutMax s (.start text)
        { s with
          monitors := { LeakMonitor.new (readInterval D text) with caller := .clearing } ::
            s.monitors
          handler := some (.running (readInterval D text)) }
  | nothing (hfree : s.handler = none) (hnil : s.monitors = []) :
      Stepped D timeoutMax s .stop { s with label := .stopped }
  | stopped {m m' : LeakMonitor} {ms : List LeakMonitor} (hfree : s.handler = none)
      (hcons : s.monitors = m :: ms) (hm : m.Called .stop m') :
      Stepped D timeoutMax s .stop { s with monitors := m' :: ms, handler := some .stopped }
  | within {i : Nat} {v : Move} {m m' : LeakMonitor} (hi : s.monitors[i]? = some m)
      (hm : m.Moved timeoutMax v m') :
      Stepped D timeoutMax s (.within i v) { s with monitors := s.monitors.set i m' }
  | finished {status : Status} (hbusy : s.handler = some status)
      (hidle : ∀ m ∈ s.monitors.head?, m.caller = .idle) :
      Stepped D timeoutMax s .finish { s with label := status, handler := none }

theorem stepped_of_step (h : (machine D timeoutMax).step s a = some s') :
    Stepped D timeoutMax s a s' := by
  have h : step D timeoutMax s a = some s' := h
  cases a with
  | start text =>
      rw [step] at h
      split at h
      · rename_i hfree
        rw [startMonitor] at h
        split at h
        · rename_i hrunning
          cases h
          exact .refused hrunning
        · rename_i hrunning
          cases h
          exact .started hfree (eq_false_of_ne_true hrunning)
      · cases h
  | stop =>
      rw [step] at h
      split at h
      · rename_i hfree
        rw [stopMonitor] at h
        split at h
        · rename_i hnil
          cases h
          exact .nothing hfree hnil
        · rename_i m ms hcons
          obtain ⟨m', hm, h⟩ := Option.map_eq_some_iff.mp h
          cases h
          exact .stopped hfree hcons (called_of_call hm)
      · cases h
  | within i v =>
      obtain ⟨m, hi, h⟩ := Option.bind_eq_some_iff.mp h
      obtain ⟨m', hm, h⟩ := Option.bind_eq_some_iff.mp h
      cases h
      exact .within hi (moved_of_move hm)
  | finish =>
      obtain ⟨status, hbusy, h⟩ := Option.bind_eq_some_iff.mp h
      unfold setLabel at h
      split at h
      · rename_i hidle
        cases h
        exact .finished hbusy hidle
      · cases h

/-- What a text on the label claims about the newest monitor; of an interval too long for `wait`
it claims nothing. -/
def Claims (timeoutMax : Int) (s : Panel) : Status → Prop
  | .stopped => ∀ m ∈ s.monitors.head?, m.Halted
  | .running n => ∃ m, s.monitors.head? = some m ∧ m.interval = n ∧ (n ≤ timeoutMax → m.Launched)

/-- All monitors but the newest are spent, and the label says what the newest does, or will say it
when the handler returns. -/
structure Kept (timeoutMax : Int) (s : Panel) : Prop where
  older : ∀ m ∈ s.monitors.tail, m.Spent
  newest : ∀ m ∈ s.monitors.head?, m.Single
  idle : s.handler = none → ∀ m ∈ s.monitors.head?, m.caller = .idle
  claims : s.Claims timeoutMax (s.handler.getD s.label)

theorem kept_new : new.Kept timeoutMax where
  older _ hm := absurd hm List.not_mem_nil
  newest _ hm := by cases hm
  idle _ _ hm := by cases hm
  claims _ hm := by cases hm

/-- When a start is not refused, every monitor is spent. -/
theorem Kept.spent (h : s.Kept timeoutMax) (hfree : s.handler = none)
    (hrunning : s.isRunning = false) : ∀ m ∈ s.monitors, m.Spent := by
  have hold := h.older
  have hnew := h.newest
  have hidle := h.idle hfree
  unfold isRunning at hrunning
  cases hmonitors : s.monitors with
  | nil => exact fun m hm => absurd hm List.not_mem_nil
  | cons m ms =>
      rw [hmonitors] at hold hnew hidle hrunning
      refine List.forall_mem_cons.mpr ⟨?_, hold⟩
      exact (hnew m rfl).spent (hidle m rfl) hrunning

/-- A step within a monitor is one of the newest. -/
theorem Kept.zero_of_moved {i : Nat} {v : Move} {m m' : LeakMonitor} (h : s.Kept timeoutMax)
    (hi : s.monitors[i]? = some m) (hm : m.Moved timeoutMax v m') : i = 0 := by
  cases i with
  | zero => rfl
  | succ i =>
      rw [← List.getElem?_tail] at hi
      exact absurd hm (h.older m (List.mem_of_getElem? hi)).not_moved

theorem Kept.started {n : Int} (h : s.Kept timeoutMax) (hfree : s.handler = none)
    (hrunning : s.isRunning = false) :
    Kept timeoutMax
      { s with
        monitors := { LeakMonitor.new n with caller := .clearing } :: s.monitors
        handler := some (.running n) } := by
  refine ⟨h.spent hfree hrunning, ?_, fun hnone => ?_, ?_⟩
  · rintro m hm
    cases hm
    exact single_clearing n
  · cases hnone
  · exact ⟨_, rfl, rfl, fun _ => .clearing rfl⟩

theorem Kept.stopped {m m' : LeakMonitor} {ms : List LeakMonitor} (h : s.Kept timeoutMax)
    (hcons : s.monitors = m :: ms) (hm : m.Called .stop m') :
    Kept timeoutMax { s with monitors := m' :: ms, handler := some .stopped } := by
  have hold := h.older
  have hnew := h.newest
  rw [hcons] at hold hnew
  refine ⟨hold, ?_, fun hnone => ?_, ?_⟩
  · rintro m₁ hm₁
    cases hm₁
    exact (hnew m rfl).call hm
  · cases hnone
  · rintro m₁ hm₁
    cases hm₁
    exact halted_of_stop hm

/-- A thread ends of itself only where nothing is claimed. -/
theorem Kept.moved {m m' : LeakMonitor} {ms : List LeakMonitor} {v : Move}
    (h : s.Kept timeoutMax) (hcons : s.monitors = m :: ms) (hm : m.Moved timeoutMax v m') :
    Kept timeoutMax { s with monitors := m' :: ms } := by
  obtain ⟨hold, hnew, hidle, hclaims⟩ := h
  have hhead : s.monitors.head? = some m := by rw [hcons, List.head?_cons]
  refine ⟨?_, ?_, fun hfree => ?_, ?_⟩
  · rw [hcons] at hold
    exact hold
  · rintro m₁ hm₁
    cases hm₁
    exact (hnew m hhead).move hm
  · rintro m₁ hm₁
    cases hm₁
    exact hm.idle (hidle hfree m hhead)
  · show Claims timeoutMax _ (s.handler.getD s.label)
    -- the label, or the one to come, is still the same, so the same is claimed of the new monitor
    revert hclaims
    cases s.handler.getD s.label with
    | stopped =>
        intro hclaims m₁ hm₁
        cases hm₁
        exact (hclaims m hhead).move hm
    | running n =>
        rintro ⟨m₁, hm₁, rfl, hclaims⟩
        obtain rfl := Option.some.inj (hhead.symm.trans hm₁)
        exact ⟨m', rfl, hm.interval, fun hshort => (hclaims hshort).move hshort hm⟩

theorem Kept.step (h : s.Kept timeoutMax) (hs : Stepped D timeoutMax s a s') :
    s'.Kept timeoutMax := by
  cases hs with
  | refused hrunning => exact h
  | started hfree hrunning => exact h.started hfree hrunning
  | nothing hfree hnil =>
      obtain ⟨hold, hnew, hidle, -⟩ := h
      refine ⟨hold, hnew, hidle, ?_⟩
      show Claims timeoutMax _ (s.handler.getD .stopped)
      rw [hfree]
      intro m hm
      rw [hnil] at hm
      cases hm
  | stopped hfree hcons hm => exact h.stopped hcons hm
  | within hi hm =>
      obtain rfl := h.zero_of_moved hi hm
      rw [← List.head?_eq_getElem?] at hi
      obtain ⟨ms, hcons⟩ := List.head?_eq_some_iff.mp hi
      rw [hcons, List.set_cons_zero]
      exact h.moved hcons hm
  | finished hbusy hidle =>
      obtain ⟨hold, hnew, -, hclaims⟩ := h
      rw [hbusy] at hclaims
      exact ⟨hold, hnew, fun _ => hidle, hclaims⟩

/-! ## The label -/

/-- The label of a panel whose buttons can be pressed. -/
structure Shows (timeoutMax : Int) (s : Panel) : Prop where
  of_active : ∀ m ∈ s.monitors, m.Active → s.label = .running m.interval
  active : ∀ n ≤ timeoutMax, s.label = .running n →
    ∃ m ∈ s.monitors, m.interval = n ∧ m.Active

/-- The loop threads of all monitors that are alive. -/
def alive (s : Panel) : List Loop := (s.monitors.flatMap LeakMonitor.threads).filter Loop.isAlive

theorem Kept.length_alive_le (h : s.Kept timeoutMax) : s.alive.length ≤ 1 := by
  have hold := h.older
  have hnew := h.newest
  unfold alive
  cases hmonitors : s.monitors with
  | nil => exact Nat.zero_le 1
  | cons m ms =>
      rw [hmonitors] at hold hnew
      have hnone : (ms.flatMap LeakMonitor.threads).filter Loop.isAlive = [] := by
        refine List.filter_eq_nil_iff.mpr fun t ht halive => ?_
        obtain ⟨m', hm', ht⟩ := List.mem_flatMap.mp ht
        rw [(hold m' hm').ended t ht] at halive
        cases halive
      rw [List.flatMap_cons, List.filter_append, hnone, List.append_nil]
      exact (hnew m rfl).length_le

theorem Kept.shows (h : s.Kept timeoutMax) (hfree : s.handler = none) : s.Shows timeoutMax := by
  obtain ⟨hold, hnew, hidle, hclaims⟩ := h
  rw [hfree, Option.getD_none] at hclaims
  constructor
  · intro m hm hactive
    -- the older ones are spent, so an active monitor is the newest
    have hhead : s.monitors.head? = some m := by
      cases hmonitors : s.monitors with
      | nil =>
          rw [hmonitors] at hm
          exact absurd hm List.not_mem_nil
      | cons m' ms =>
          rw [hmonitors] at hm hold
          rcases List.mem_cons.mp hm with rfl | hm
          · rfl
          · exact absurd hactive (hold m hm).not_active
    cases hlabel : s.label with
    | stopped =>
        rw [hlabel] at hclaims
        exact absurd hactive (hclaims m hhead).not_active
    | running n =>
        rw [hlabel] at hclaims
        obtain ⟨m', hm', rfl, -⟩ := hclaims
        obtain rfl := Option.some.inj (hhead.symm.trans hm')
        rfl
  · intro n hshort hlabel
    rw [hlabel] at hclaims
    obtain ⟨m, hhead, hinterval, hlaunched⟩ := hclaims
    -- no button is being handled, so no call of the monitor is going on
    have hcaller : m.caller = .idle := hidle hfree m hhead
    have hactive := (hlaunched hshort).active_of_idle hcaller
    exact ⟨m, List.mem_of_head? hhead, hinterval, hactive⟩

/-- **The label is right**, whatever is pressed when and however long a check takes: at most one
loop thread is alive, and between two presses a monitor that is active is the one the label names,
and the one it names is active, unless its interval is too long for `wait`. -/
theorem panel_shows {as : List Act} (h : (machine D timeoutMax).run as = some s) :
    s.alive.length ≤ 1 ∧ (s.handler = none → s.Shows timeoutMax) := by
  have hkept : s.Kept timeoutMax := by
    refine Machine.invariant (M := machine D timeoutMax) kept_new ?_ h
    exact fun s a s' hs hstep => hs.step (stepped_of_step hstep)
  exact ⟨hkept.length_alive_le, hkept.shows⟩

/-- A stop gives up waiting for a check, and a start is refused as long as that goes on. -/
def impatient : List Act :=
  [.start "", .within 0 .caller, .within 0 .caller, .finish, .within 0 (.loop 0), .stop,
    .within 0 .timeout, .finish, .start "5", .within 0 (.loop 0), .within 0 (.loop 0),
    .within 0 (.loop 0), .start "", .within 0 .caller, .within 0 .caller, .finish]

def restarted : Panel :=
  ⟨[⟨30, false, [.test], .idle, true⟩, ⟨30, true, [.ended], .idle, false⟩], .running 30, none⟩

theorem panel_shows_restarted :
    restarted.alive.length ≤ 1 ∧ (restarted.handler = none → restarted.Shows 9223372036) := by
  have hrun : (machine Menu.asciiDecimals 9223372036).run impatient = some restarted := by decide
  exact panel_shows hrun

end Panel

end PrivacyGuard.Monitor
