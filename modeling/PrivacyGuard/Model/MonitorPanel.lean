import PrivacyGuard.Model.Menu
import PrivacyGuard.Model.Monitor

set_option autoImplicit false

/-! # The leak monitor in the GUI

`_start_monitor` and `_stop_monitor` of `gui.py` run in the main loop of Tk: a handler keeps the
buttons from being pressed again until it has returned, while the threads of the monitors go on. -/

namespace PrivacyGuard.Monitor

open Effect

/-- What the label under the buttons says. -/
inductive Status
  | stopped
  | running (interval : Int)
  deriving DecidableEq

/-- `int(self.monitor_interval_var.get().strip())`, or 30 where that raises a `ValueError`. -/
def readInterval (D : Menu.Decimals) (text : String) : Int :=
  (Menu.int D (Menu.strip text)).getD 30

/-- The panel, and the monitors it has made, the newest first: `self.leak_monitor` is the head.
`handler` is the text to which the handler that is running will set the label when the call it has
made returns. -/
structure Panel where
  monitors : List LeakMonitor
  label : Status
  handler : Option Status
  deriving DecidableEq

namespace Panel

def new : Panel where
  monitors := []
  label := .stopped
  handler := none

/-- `self.leak_monitor and self.leak_monitor.is_running()` -/
def isRunning (s : Panel) : Bool :=
  match s.monitors with
  | [] => false
  | m :: _ => m.isRunning

/-- `_start_monitor`, up to what `start` does; a monitor that is running is left alone, and a
message box says so. -/
def startMonitor (D : Menu.Decimals) (s : Panel) (text : String) : Option Panel :=
  if s.isRunning then some s
  else
    let interval := readInterval D text
    ((LeakMonitor.new interval).call .start).map fun m =>
      { s with monitors := m :: s.monitors, handler := some (.running interval) }

/-- `_stop_monitor`, up to what `stop` waits for. -/
def stopMonitor (s : Panel) : Option Panel :=
  match s.monitors with
  | [] => some { s with label := .stopped }
  | m :: ms => (m.call .stop).map fun m' =>
      { s with monitors := m' :: ms, handler := some .stopped }

/-- The call has returned: `self.monitor_status_var.set(...)`. -/
def setLabel (s : Panel) (status : Status) : Option Panel :=
  if ∀ m ∈ s.monitors.head?, m.caller = .idle then
    some { s with label := status, handler := none }
  else none

inductive Act
  /-- the button is pressed while the field of the interval holds `text` -/
  | start (text : String)
  | stop
  /-- a step within the call of the handler, or of a loop thread -/
  | within (i : Nat) (v : LeakMonitor.Move)
  /-- the handler goes on after its call -/
  | finish

def step (D : Menu.Decimals) (timeoutMax : Int) (s : Panel) : Act → Option Panel
  | .start text => if s.handler = none then s.startMonitor D text else none
  | .stop => if s.handler = none then s.stopMonitor else none
  | .within i v => do
      let m ← s.monitors[i]?
      let m' ← m.move timeoutMax v
      some { s with monitors := s.monitors.set i m' }
  | .finish => s.handler.bind s.setLabel

/-- The panel, from the start of the GUI. -/
def machine (D : Menu.Decimals) (timeoutMax : Int) : Machine Panel Act :=
  ⟨new, step D timeoutMax⟩

end Panel

end PrivacyGuard.Monitor
