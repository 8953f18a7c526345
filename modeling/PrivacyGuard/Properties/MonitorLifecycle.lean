import PrivacyGuard.Model.Monitor

set_option autoImplicit false

/-! # The monitor and the last command

The stop event belongs to the object, not to a thread. A thread that `stop` has given up waiting
for is still alive, and a call of `start` that meets it takes it for a running monitor: it returns
with the event set, and the thread ends. A thread also ends where `wait` raises. Apart from these
the last command is followed; and there is never more than one thread, since a new one is only made
when the newest has ended. -/

namespace PrivacyGuard.Monitor

open Effect

namespace LeakMonitor

/-- From the return of `start` to the call of `stop` a thread is alive and the event is clear; and
no two threads are alive. -/
def Follows (m : LeakMonitor) : Prop :=
  (m.commanded = true → m.Active) ∧ (m.threads.filter Loop.isAlive).length ≤ 1

instance (m : LeakMonitor) : Decidable m.Follows :=
  inferInstanceAs (Decidable ((m.commanded = true → m.Active) ∧ _ ≤ 1))

/-- `start` is not called while a stopped thread is still alive. -/
def Settled (m : LeakMonitor) (a : Act) : Prop :=
  a = .call .start → ¬ (m.isRunning = true ∧ m.stopEvent = true)

/-- No thread waits for a clear event with an interval that `wait` does not accept. -/
def Waits (timeoutMax : Int) (m : LeakMonitor) : Act → Prop
  | .move (.loop i) => m.threads[i]? = some .wait → m.stopEvent = false → m.interval ≤ timeoutMax
  | _ => True

instance (m : LeakMonitor) (a : Act) : Decidable (m.Settled a) :=
  inferInstanceAs (Decidable (a = .call .start → _))

instance (timeoutMax : Int) (m : LeakMonitor) : (a : Act) → Decidable (m.Waits timeoutMax a)
  | .move (.loop _) => inferInstanceAs (Decidable (_ → _ → _ ≤ _))
  | .move .caller | .move .timeout | .call _ => inferInstanceAs (Decidable True)

/-! ## One thread -/

/-- At most the newest thread is alive, and none when a new one is about to be made. -/
structure Single (m : LeakMonitor) : Prop where
  older_ended : ∀ t ∈ m.threads.tail, t = .ended
  starting : m.caller = .clearing ∨ m.caller = .spawning → m.isRunning = false

variable {m m' : LeakMonitor} {timeoutMax interval : Int} {v : Move}

theorem Single.isRunning_iff (h : m.Single) :
    m.isRunning = true ↔ ∃ t ∈ m.threads, t.isAlive = true := by
  have hold := h.older_ended
  rw [isRunning]
  cases hthreads : m.threads with
  | nil => simp
  | cons t ts =>
      rw [hthreads, List.tail_cons] at hold
      constructor
      · exact fun ht => ⟨t, List.mem_cons_self, ht⟩
      · rintro ⟨t', ht', halive⟩
        obtain rfl | ht' := List.mem_cons.mp ht'
        · exact halive
        · rw [hold t' ht'] at halive
          cases halive

/-- While a new thread is being made, none is alive. -/
theorem Single.ended (h : m.Single) (hcaller : m.caller = .clearing ∨ m.caller = .spawning) :
    ¬ ∃ t ∈ m.threads, t.isAlive = true := by
  rw [← h.isRunning_iff, h.starting hcaller]
  exact Bool.false_ne_true

theorem Single.length_le (h : m.Single) : (m.threads.filter Loop.isAlive).length ≤ 1 :=
  length_filter_le_one fun t ht => congrArg Loop.isAlive (h.older_ended t ht)

/-- It is the newest thread that takes a step. -/
theorem Single.newest (h : m.Single) {i : Nat} {t t' : Loop} (hi : m.threads[i]? = some t)
    {tooLong : Bool}
    (ht : t.next tooLong m.stopEvent = some t') : i = 0 ∧ ∃ ts, m.threads = t :: ts := by
  cases i with
  | zero =>
      rw [← List.head?_eq_getElem?] at hi
      exact ⟨rfl, List.head?_eq_some_iff.mp hi⟩
  | succ i =>
      rw [← List.getElem?_tail] at hi
      rw [h.older_ended t (List.mem_of_getElem? hi)] at ht
      cases ht

theorem Single.call {c : Call} (h : m.Single) (hc : m.Called c m') : m'.Single := by
  cases hc with
  | running hidle _ => exact ⟨h.older_ended, h.starting⟩
  | starting _ hrunning => exact ⟨h.older_ended, fun _ => hrunning⟩
  | stopping hidle =>
      refine ⟨h.older_ended, ?_⟩
      rintro (hcaller | hcaller) <;> split at hcaller <;> cases hcaller

theorem Single.move (h : m.Single) (hm : m.Moved timeoutMax v m') : m'.Single := by
  cases hm with
  | cleared hcaller => exact ⟨h.older_ended, fun _ => h.starting (.inl hcaller)⟩
  | spawned hcaller =>
      refine ⟨fun t ht => ?_, ?_⟩
      · by_contra hne
        exact h.ended (.inr hcaller) ⟨t, ht, decide_eq_true hne⟩
      · rintro (hcaller | hcaller) <;> cases hcaller
  | joined hcaller =>
      refine ⟨h.older_ended, ?_⟩
      rintro (hcaller | hcaller) <;> cases hcaller
  | looped hi ht =>
      obtain ⟨rfl, ts, hthreads⟩ := h.newest hi ht
      refine ⟨?_, fun hcaller => ?_⟩
      · have hold := h.older_ended
        rw [hthreads] at hold ⊢
        exact hold
      · have hmem := List.mem_of_getElem? hi
        exact absurd ⟨_, hmem, Loop.isAlive_of_next ht⟩ (h.ended hcaller)

/-- At most the newest thread is alive, and only after the return of `start`. -/
structure Heard (m : LeakMonitor) : Prop extends Single m where
  commanded_of_active : m.Active → m.commanded = true

theorem heard_new : (new interval).Heard where
  older_ended := fun _ ht => absurd ht List.not_mem_nil
  starting := fun _ => rfl
  commanded_of_active := fun ⟨_, _, ht, _⟩ => absurd ht List.not_mem_nil

theorem Heard.call {c : Call} (h : m.Heard) (hc : m.Called c m') : m'.Heard := by
  have hsingle := h.toSingle.call hc
  cases hc with
  | running _ _ => exact ⟨hsingle, fun _ => rfl⟩
  | starting _ _ => exact ⟨hsingle, h.commanded_of_active⟩
  | stopping _ =>
      refine ⟨hsingle, fun hactive => ?_⟩
      cases hactive.1

theorem Heard.move (h : m.Heard) (hm : m.Moved timeoutMax v m') : m'.Heard := by
  have hsingle := h.toSingle.move hm
  cases hm with
  | cleared hcaller =>
      exact ⟨hsingle, fun hactive => absurd hactive.2 (h.ended (.inl hcaller))⟩
  | spawned _ => exact ⟨hsingle, fun _ => rfl⟩
  | joined _ => exact ⟨hsingle, h.commanded_of_active⟩
  | looped hi ht =>
      refine ⟨hsingle, fun hactive => ?_⟩
      have hmem := List.mem_of_getElem? hi
      exact h.commanded_of_active ⟨hactive.1, _, hmem, Loop.isAlive_of_next ht⟩

/-- Whatever is called when. -/
theorem heard_of_run {as : List Act} (h : (machine timeoutMax interval).run as = some m) :
    m.Heard := by
  refine Machine.invariant (M := machine timeoutMax interval) heard_new ?_ h
  intro m a m' hm hstep
  cases a with
  | call c => exact hm.call (called_of_call hstep)
  | move v => exact hm.move (moved_of_move hstep)

theorem move_raised {i : Nat} (hi : m.threads[i]? = some .wait) (hclear : m.stopEvent = false)
    (hlong : timeoutMax < m.interval) :
    m.move timeoutMax (.loop i) = some { m with threads := m.threads.set i .ended } := by
  have htooLong : m.tooLong timeoutMax = true := decide_eq_true hlong
  have hnext : Loop.wait.next (m.tooLong timeoutMax) m.stopEvent = some .ended := by
    rw [hclear, htooLong]
    rfl
  rw [move, hi, Option.bind_eq_bind, Option.bind_some, hnext]
  rfl

/-- A thread that `wait` has ended was the only one. -/
theorem Single.not_active_raised {i : Nat} (h : m.Single) (hi : m.threads[i]? = some .wait) :
    ¬ Active { m with threads := m.threads.set i .ended } := by
  have hnext : Loop.next false m.stopEvent .wait = some .test := rfl
  obtain ⟨rfl, ts, hthreads⟩ := h.newest hi hnext
  have hold := h.older_ended
  rw [hthreads, List.tail_cons] at hold
  rintro ⟨-, t, ht, halive⟩
  rw [hthreads, List.set_cons_zero] at ht
  obtain rfl | ht := List.mem_cons.mp ht
  · cases halive
  · rw [hold t ht] at halive
    cases halive

/-! ## The last command -/

/-- `Follows`, and what keeps it. -/
structure Obedient (m : LeakMonitor) : Prop extends Heard m where
  active : m.commanded = true → m.Active
  clear : m.caller = .spawning → m.stopEvent = false

theorem Obedient.follows (h : m.Obedient) : m.Follows := ⟨h.active, h.length_le⟩

theorem obedient_new : (new interval).Obedient where
  toHeard := heard_new
  active := fun h => absurd h Bool.false_ne_true
  clear := fun _ => rfl

theorem Obedient.call {c : Call} (h : m.Obedient) (hsettled : m.Settled (.call c))
    (hc : m.Called c m') : m'.Obedient := by
  have hheard := h.toHeard.call hc
  cases hc with
  | running hidle hrunning =>
      have hclear : m.stopEvent = false :=
        eq_false_of_ne_true fun hset => hsettled rfl ⟨hrunning, hset⟩
      exact ⟨hheard, fun _ => ⟨hclear, h.isRunning_iff.mp hrunning⟩, h.clear⟩
  | starting hidle hrunning =>
      refine ⟨hheard, h.active, fun hcaller => ?_⟩
      cases hcaller
  | stopping hidle =>
      refine ⟨hheard, fun hcommanded => ?_, fun hcaller => ?_⟩
      · cases hcommanded
      · split at hcaller <;> cases hcaller

theorem Obedient.move (h : m.Obedient) (hwaits : m.Waits timeoutMax (.move v))
    (hm : m.Moved timeoutMax v m') : m'.Obedient := by
  have hheard := h.toHeard.move hm
  cases hm with
  | cleared hcaller =>
      refine ⟨hheard, fun hcommanded => ?_, fun _ => rfl⟩
      exact absurd (h.active hcommanded).2 (h.ended (.inl hcaller))
  | spawned hcaller =>
      refine ⟨hheard, fun _ => ?_, fun hcaller => ?_⟩
      · exact ⟨h.clear hcaller, .test, List.mem_cons_self, rfl⟩
      · cases hcaller
  | joined hcaller =>
      refine ⟨hheard, h.active, fun hcaller => ?_⟩
      cases hcaller
  | looped hi ht =>
      refine ⟨hheard, fun hcommanded => ?_, h.clear⟩
      have hactive := h.active hcommanded
      refine hactive.looped hi ?_ ht
      rintro rfl
      exact hwaits hi hactive.1

/-- **The last command is followed** at every moment of a run if and only if no call of `start`
meets a thread that is still to end, and no thread waits longer than it may. -/
theorem follows_iff {as : List Act} (h : (machine timeoutMax interval).run as = some m) :
    (machine timeoutMax interval).Always Follows as ↔
      (machine timeoutMax interval).Each (fun m a => m.Settled a ∧ m.Waits timeoutMax a) as := by
  constructor
  · refine fun halways => Machine.each_of_always_run ?_ h halways
    intro pre a m m' hpre hfollows hstep hfollows'
    refine ⟨?_, ?_⟩
    · rintro rfl ⟨hrunning, hset⟩
      have hcalled : m.Called .start m' := called_of_call hstep
      cases hcalled with
      | running _ _ =>
          have hclear : m.stopEvent = false := (hfollows'.1 rfl).1
          rw [hset] at hclear
          cases hclear
      | starting _ hidle =>
          rw [hrunning] at hidle
          cases hidle
    · match a, hstep with
      | .call _, _ | .move .caller, _ | .move .timeout, _ => trivial
      | .move (.loop i), hstep =>
          intro hi hclear
          by_contra hlong
          have hheard := heard_of_run hpre
          have hactive : m.Active := ⟨hclear, .wait, List.mem_of_getElem? hi, rfl⟩
          have hstep : m.move timeoutMax (.loop i) = some m' := hstep
          rw [move_raised hi hclear (Int.not_le.mp hlong)] at hstep
          obtain rfl := Option.some.inj hstep
          exact hheard.not_active_raised hi (hfollows'.1 (hheard.commanded_of_active hactive))
  · intro heach
    refine (Machine.always_of_each obedient_new ?_ heach).imp fun m h => h.follows
    intro m a m' hm ha hstep
    cases a with
    | call c => exact hm.call ha.1 (called_of_call hstep)
    | move v => exact hm.move ha.2 (moved_of_move hstep)

/-- A session of two runs of the loop, where `stop` waits for the first to end. -/
def restarted : List Act :=
  [.call .start, .move .caller, .move .caller, .move (.loop 0), .call .stop, .move (.loop 0),
    .move (.loop 0), .move (.loop 0), .move .caller, .call .start, .move .caller, .move .caller]

theorem follows_iff_restarted : (machine 9223372036 30).Always Follows restarted := by
  refine (follows_iff (m := ⟨30, false, [.test, .ended], .idle, true⟩) ?_).mpr ?_
  · decide
  · exact Machine.each_of_forall_take (by decide)

/-- The first check outlasts the wait of `stop`, and is still going on when `start` is called
again. -/
def impatient : List Act :=
  [.call .start, .move .caller, .move .caller, .move (.loop 0), .call .stop, .move .timeout,
    .call .start]

/-- The monitor then says that it is running, and its only thread is about to end. -/
theorem not_follows :
    (machine 9223372036 30).run impatient = some ⟨30, true, [.check], .idle, true⟩ ∧
      ¬ (machine 9223372036 30).Always Follows impatient := by
  have hrun : (machine 9223372036 30).run impatient =
      some ⟨30, true, [.check], .idle, true⟩ := by decide
  refine ⟨hrun, fun halways => ?_⟩
  have hfollows := halways impatient _ List.prefix_rfl hrun
  revert hfollows
  decide

end LeakMonitor

end PrivacyGuard.Monitor
