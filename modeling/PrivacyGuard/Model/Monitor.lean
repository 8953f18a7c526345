import PrivacyGuard.Effect.Machine
import PrivacyGuard.Model.DnsCheck

set_option autoImplicit false

/-! # The leak monitor

`monitor.py`, and the menu option that starts and stops it. A check is a function of the answers
it gets. The object with its loop threads and its caller is a machine: in a step the caller makes
a call or goes on with it, or a thread goes on. A check takes as long as it takes, and so may
`wait`. An interval longer than a lock can be waited for (`timeoutMax`, which Python calls
`TIMEOUT_MAX`) makes `wait` raise an `OverflowError`, which ends the thread: nothing catches it.
The alert callback returns, and what a check raises is caught by the loop. -/

namespace PrivacyGuard.Monitor

open Effect Dns Torrc

/-! ## One check -/

/-- What the outside answers during `_check_once`. The Tor check is asked a second time by
`dns_leak_check`; an answer with a field `error` is `none`. -/
structure Answers where
  publicIp : String
  torCheck : Option ExitCheck
  resolv : File
  resolverIp : Option String
  dnsTorCheck : Option ExitCheck

/-- The calls of `on_alert`. -/
inductive Alert where
  | fetchFailed (ip : String)
  | notThroughTor (ip : String)
  | dnsLeak (verdict : String)
  | ipChanged (baseline ip : String)
  deriving DecidableEq

def Alert.message : Alert → String
  | fetchFailed ip => "Could not fetch public IP to check for leaks: " ++ ip
  | notThroughTor ip =>
      "Traffic no longer appears to be routing through Tor " ++
        "(exit check failed). Current public IP: " ++ ip
  | dnsLeak verdict => "DNS leak detected mid-session: " ++ verdict
  | ipChanged baseline ip => "Public/exit IP changed: " ++ baseline ++ " -> " ++ ip

/-- `ip.startswith("error")` -/
def isError (ip : String) : Bool := "error".toList.isPrefixOf ip.toList

def dnsReport (a : Answers) : LeakReport := dnsLeakCheck a.resolv a.resolverIp a.dnsTorCheck true

/-- `"error" not in tor_check and not tor_check.get("IsTor")` -/
def TorLost (a : Answers) : Prop := ∃ c, a.torCheck = some c ∧ c.isTor = false

instance (a : Answers) : Decidable (TorLost a) :=
  match h : a.torCheck with
  | none => isFalse fun ⟨_, hc, _⟩ => by cases h.symm.trans hc
  | some c => decidable_of_iff (c.isTor = false)
      ⟨fun hc => ⟨c, h, hc⟩, fun ⟨_, hc, hf⟩ => Option.some.inj (h.symm.trans hc) ▸ hf⟩

/-- The alerts about the tunnel. -/
def tunnelAlerts (a : Answers) : List Alert :=
  (if TorLost a then [.notThroughTor a.publicIp] else []) ++
    if LikelyLeaking (dnsReport a).leakVerdict then [.dnsLeak (dnsReport a).leakVerdict] else []

/-- `_check_once`: the alerts, and the new `_baseline_ip`. -/
def checkOnce (expectTunnel : Bool) (baselineIp : Option String) (a : Answers) :
    List Alert × Option String :=
  if isError a.publicIp then ([.fetchFailed a.publicIp], baselineIp)
  else
    match baselineIp with
    | none => ([], some a.publicIp)
    | some baseline =>
        let alerts := if expectTunnel then tunnelAlerts a else []
        if a.publicIp ≠ baseline then
          (alerts ++ [.ipChanged baseline a.publicIp], some a.publicIp)
        else (alerts, some baseline)

theorem checkOnce_failed {expectTunnel : Bool} {a : Answers} (h : isError a.publicIp = true)
    (baselineIp : Option String) :
    checkOnce expectTunnel baselineIp a = ([.fetchFailed a.publicIp], baselineIp) := by
  cases baselineIp <;> rw [checkOnce, if_pos h]

theorem checkOnce_first {expectTunnel : Bool} {a : Answers} (h : isError a.publicIp = false) :
    checkOnce expectTunnel none a = ([], some a.publicIp) := by
  rw [checkOnce, if_neg (ne_true_of_eq_false h)]

theorem checkOnce_next {expectTunnel : Bool} {a : Answers} (h : isError a.publicIp = false)
    (baseline : String) :
    checkOnce expectTunnel (some baseline) a =
      ((if expectTunnel then tunnelAlerts a else []) ++
        if a.publicIp ≠ baseline then [.ipChanged baseline a.publicIp] else [],
        some a.publicIp) := by
  rw [checkOnce, if_neg (ne_true_of_eq_false h)]
  by_cases hip : a.publicIp = baseline
  · simp [hip]
  · simp [hip]

/-- `_baseline_ip` after some checks of a new monitor. -/
def baselineAfter (expectTunnel : Bool) (before : List Answers) : Option String :=
  before.foldl (fun baselineIp a => (checkOnce expectTunnel baselineIp a).2) none

/-- The alerts of a check that comes after others. -/
def alertsAfter (expectTunnel : Bool) (before : List Answers) (a : Answers) : List Alert :=
  (checkOnce expectTunnel (baselineAfter expectTunnel before) a).1

/-! ## The object and its threads -/

/-- Where only the first can be counted. -/
theorem length_filter_le_one {β : Type} {p : β → Bool} {l : List β}
    (h : ∀ x ∈ l.tail, p x = false) : (l.filter p).length ≤ 1 := by
  cases l with
  | nil => exact Nat.zero_le 1
  | cons x l =>
      have hnone : l.filter p = [] :=
        List.filter_eq_nil_iff.mpr fun y hy => ne_true_of_eq_false (h y hy)
      rw [List.filter_cons, hnone]
      split
      · exact le_rfl
      · exact Nat.zero_le 1

/-- Where a loop thread is. -/
inductive Loop where
  /-- before `while not self._stop_event.is_set()` -/
  | test
  /-- in `_check_once`, or reporting what it has raised -/
  | check
  /-- in `self._stop_event.wait(self.interval)` -/
  | wait
  | ended
  deriving DecidableEq

def Loop.isAlive (t : Loop) : Bool := decide (t ≠ ended)

/-- The next step of `_loop`; `tooLong` says that a lock cannot be waited for so long. -/
def Loop.next (tooLong stopEvent : Bool) : Loop → Option Loop
  | test => some (if stopEvent then ended else check)
  | check => some wait
  -- a set event is not waited for, whatever the interval
  | wait => some (if tooLong && !stopEvent then ended else test)
  | ended => none

theorem Loop.isAlive_of_next {tooLong stopEvent : Bool} {t t' : Loop}
    (h : t.next tooLong stopEvent = some t') : t.isAlive = true := by
  cases t with
  | ended => cases h
  | _ => rfl

inductive Call where
  | start
  | stop
  deriving DecidableEq

/-- Where the caller is. -/
inductive Caller where
  | idle
  /-- in `start`, before `self._stop_event.clear()` -/
  | clearing
  /-- in `start`, before the new thread is made and started -/
  | spawning
  /-- in `stop`, in `self._thread.join(timeout=5)` -/
  | joining
  deriving DecidableEq

/-- The object and its caller. `threads` are the loop threads, the newest first: `_thread` is the
head. No step looks at `commanded`, which says that a call of `start` has returned and `stop` has
not been called since. -/
structure LeakMonitor where
  interval : Int
  stopEvent : Bool
  threads : List Loop
  caller : Caller
  commanded : Bool
  deriving DecidableEq

namespace LeakMonitor

def new (interval : Int) : LeakMonitor where
  interval := interval
  stopEvent := false
  threads := []
  caller := .idle
  commanded := false

def tooLong (timeoutMax : Int) (m : LeakMonitor) : Bool := decide (timeoutMax < m.interval)

/-- `self._thread and self._thread.is_alive()` -/
def isRunning (m : LeakMonitor) : Bool :=
  match m.threads with
  | [] => false
  | t :: _ => t.isAlive

/-- A call, up to its first operation on what is shared. -/
def call (m : LeakMonitor) (c : Call) : Option LeakMonitor :=
  if m.caller = .idle then
    match c with
    | .start =>
        if m.isRunning then some { m with commanded := true }
        else some { m with caller := .clearing }
    | .stop =>
        some { m with
          stopEvent := true
          caller := if m.threads = [] then .idle else .joining
          commanded := false }
  else none

/-- A step within the calls or of a thread. -/
inductive Move where
  /-- the caller goes on -/
  | caller
  /-- the five seconds of `join` are over -/
  | timeout
  /-- a loop thread goes on -/
  | loop (i : Nat)
  deriving DecidableEq

def move (timeoutMax : Int) (m : LeakMonitor) : Move → Option LeakMonitor
  | .caller =>
      match m.caller with
      | .idle => none
      | .clearing => some { m with stopEvent := false, caller := .spawning }
      | .spawning =>
          some { m with threads := .test :: m.threads, caller := .idle, commanded := true }
      | .joining => if m.isRunning then none else some { m with caller := .idle }
  | .timeout => if m.caller = .joining then some { m with caller := .idle } else none
  | .loop i => do
      let t ← m.threads[i]?
      let t' ← t.next (m.tooLong timeoutMax) m.stopEvent
      some { m with threads := m.threads.set i t' }

inductive Act where
  | call (c : Call)
  | move (v : Move)
  deriving DecidableEq

/-- One object, from its construction. -/
def machine (timeoutMax interval : Int) : Machine LeakMonitor Act where
  init := new interval
  step m a :=
    match a with
    | .call c => m.call c
    | .move v => m.move timeoutMax v

/-- A loop thread is alive and the stop event is clear. -/
def Active (m : LeakMonitor) : Prop := m.stopEvent = false ∧ ∃ t ∈ m.threads, t.isAlive = true

instance (m : LeakMonitor) : Decidable m.Active :=
  inferInstanceAs (Decidable (m.stopEvent = false ∧ ∃ t ∈ m.threads, t.isAlive = true))

/-- What a call can do. -/
inductive Called (m : LeakMonitor) : Call → LeakMonitor → Prop
  | running (hidle : m.caller = .idle) (hrunning : m.isRunning = true) :
      Called m .start { m with commanded := true }
  | starting (hidle : m.caller = .idle) (hrunning : m.isRunning = false) :
      Called m .start { m with caller := .clearing }
  | stopping (hidle : m.caller = .idle) :
      Called m .stop { m with
        stopEvent := true
        caller := if m.threads = [] then .idle else .joining
        commanded := false }

theorem called_of_call {m m' : LeakMonitor} {c : Call} (h : m.call c = some m') :
    m.Called c m' := by
  by_cases hidle : m.caller = .idle
  · cases c with
    | start =>
        rw [call, if_pos hidle] at h
        split at h
        · rename_i hrunning
          cases h
          exact .running hidle hrunning
        · rename_i hrunning
          cases h
          exact .starting hidle (eq_false_of_ne_true hrunning)
    | stop =>
        rw [call, if_pos hidle] at h
        cases h
        exact .stopping hidle
  · cases c <;> rw [call, if_neg hidle] at h <;> cases h

/-- What a step within a call or of a thread can do. -/
inductive Moved (timeoutMax : Int) (m : LeakMonitor) : Move → LeakMonitor → Prop
  | cleared (h : m.caller = .clearing) :
      Moved timeoutMax m .caller { m with stopEvent := false, caller := .spawning }
  | spawned (h : m.caller = .spawning) :
      Moved timeoutMax m .caller
        { m with threads := .test :: m.threads, caller := .idle, commanded := true }
  | joined {v : Move} (h : m.caller = .joining) : Moved timeoutMax m v { m with caller := .idle }
  | looped {i : Nat} {t t' : Loop} (hi : m.threads[i]? = some t)
      (ht : t.next (m.tooLong timeoutMax) m.stopEvent = some t') :
      Moved timeoutMax m (.loop i) { m with threads := m.threads.set i t' }

theorem moved_of_move {timeoutMax : Int} {m m' : LeakMonitor} {v : Move}
    (h : m.move timeoutMax v = some m') : m.Moved timeoutMax v m' := by
  cases v with
  | caller =>
      rw [move] at h
      split at h
      · cases h
      · rename_i hcaller
        cases h
        exact .cleared hcaller
      · rename_i hcaller
        cases h
        exact .spawned hcaller
      · rename_i hcaller
        split at h
        · cases h
        · cases h
          exact .joined hcaller
  | timeout =>
      rw [move] at h
      split at h
      · rename_i hcaller
        cases h
        exact .joined hcaller
      · cases h
  | loop i =>
      obtain ⟨t, hi, h⟩ := Option.bind_eq_some_iff.mp h
      obtain ⟨t', ht, h⟩ := Option.bind_eq_some_iff.mp h
      cases h
      exact .looped hi ht

/-- The interval is the one the object has been made with. -/
theorem Moved.interval {timeoutMax : Int} {m m' : LeakMonitor} {v : Move}
    (h : m.Moved timeoutMax v m') : m'.interval = m.interval := by
  cases h <;> rfl

/-- While the event is clear, no step of a thread ends the activity, unless the interval is too
long. -/
theorem Active.looped {timeoutMax : Int} {m : LeakMonitor} {i : Nat} {t t' : Loop}
    (h : m.Active) (hi : m.threads[i]? = some t)
    (hwait : t = .wait → m.interval ≤ timeoutMax)
    (ht : t.next (m.tooLong timeoutMax) m.stopEvent = some t') :
    Active { m with threads := m.threads.set i t' } := by
  rw [h.1] at ht
  obtain ⟨hlt, -⟩ := List.getElem?_eq_some_iff.mp hi
  refine ⟨h.1, t', List.mem_set hlt t', ?_⟩
  cases t with
  | wait =>
      have hshort : m.tooLong timeoutMax = false := decide_eq_false (Int.not_lt.mpr (hwait rfl))
      rw [hshort] at ht
      cases ht
      rfl
  | ended => cases ht
  | _ =>
      cases ht
      rfl

end LeakMonitor

/-! ## Menu option 27 -/

/-- The objects of a session, the newest first: `_monitor_handle["instance"]` is the head. No step
looks at `last`, the action chosen last. -/
structure Session where
  monitors : List LeakMonitor
  last : Option Call
  deriving DecidableEq

namespace Session

def new : Session where
  monitors := []
  last := none

/-- No action is being performed. -/
def Between (s : Session) : Prop := ∀ m ∈ s.monitors, m.caller = .idle

instance (s : Session) : Decidable s.Between :=
  inferInstanceAs (Decidable (∀ m ∈ s.monitors, m.caller = .idle))

/-- The action, with an interval that is a number, or 30 where none has been typed. -/
def start (s : Session) (interval : Int) : Option Session :=
  if s.Between then
    ((LeakMonitor.new interval).call .start).map fun m =>
      { monitors := m :: s.monitors, last := some .start }
  else none

def stop (s : Session) : Option Session :=
  if s.Between then
    match s.monitors with
    | [] => some { s with last := some .stop }
    | m :: ms => (m.call .stop).map fun m' => { monitors := m' :: ms, last := some .stop }
  else none

inductive Act where
  | start (interval : Int)
  | stop
  /-- a step within an action, or of a thread of the object -/
  | within (i : Nat) (v : LeakMonitor.Move)
  deriving DecidableEq

/-- One session, from its beginning. -/
def machine (timeoutMax : Int) : Machine Session Act where
  init := new
  step s a :=
    match a with
    | .start interval => s.start interval
    | .stop => s.stop
    | .within i v => do
        let m ← s.monitors[i]?
        let m' ← m.move timeoutMax v
        some { s with monitors := s.monitors.set i m' }

/-- What a step can do. -/
inductive Stepped (timeoutMax : Int) (s : Session) : Act → Session → Prop
  | started {interval : Int} (hidle : s.Between) : Stepped timeoutMax s (.start interval)
      { monitors := { LeakMonitor.new interval with caller := .clearing } :: s.monitors
        last := some .start }
  | stopped {m m' : LeakMonitor} {ms : List LeakMonitor} (hidle : s.Between)
      (hs : s.monitors = m :: ms) (hm : m.Called .stop m') :
      Stepped timeoutMax s .stop { monitors := m' :: ms, last := some .stop }
  | nothing (hidle : s.Between) (hs : s.monitors = []) :
      Stepped timeoutMax s .stop { s with last := some .stop }
  | within {i : Nat} {v : LeakMonitor.Move} {m m' : LeakMonitor} (hi : s.monitors[i]? = some m)
      (hm : m.Moved timeoutMax v m') :
      Stepped timeoutMax s (.within i v) { s with monitors := s.monitors.set i m' }

theorem stepped_of_step {timeoutMax : Int} {s s' : Session} {a : Act}
    (h : (machine timeoutMax).step s a = some s') : s.Stepped timeoutMax a s' := by
  cases a with
  | start interval =>
      have h : s.start interval = some s' := h
      rw [start] at h
      split at h
      · rename_i hidle
        cases h
        exact .started hidle
      · cases h
  | stop =>
      have h : s.stop = some s' := h
      rw [stop] at h
      split at h
      · rename_i hidle
        split at h
        · rename_i hs
          cases h
          exact .nothing hidle hs
        · rename_i m ms hs
          obtain ⟨m', hm, h⟩ := Option.map_eq_some_iff.mp h
          cases h
          exact .stopped hidle hs (LeakMonitor.called_of_call hm)
      · cases h
  | within i v =>
      obtain ⟨m, hi, h⟩ := Option.bind_eq_some_iff.mp h
      obtain ⟨m', hm, h⟩ := Option.bind_eq_some_iff.mp h
      cases h
      exact .within hi (LeakMonitor.moved_of_move hm)

end Session

end PrivacyGuard.Monitor
