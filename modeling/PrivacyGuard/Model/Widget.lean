import PrivacyGuard.Effect.Reader
import PrivacyGuard.Model.Console

set_option autoImplicit false

/-! # The console widget of the GUI

`log_q` is filled by the threads of the actions and by `_monitor_alert`, and emptied by
`_drain_log_queue` in the main loop of Tk, which comes back every 150 ms. Here a text is taken out
of the queue between any two steps of the others. -/

namespace PrivacyGuard.Gui

open Effect

/-- What happens beside the widget: a step of the thread of an action, or an alert of the leak
monitor. -/
inductive Event
  | action (x : Step)
  | alert (msg : String)

/-- `_monitor_alert(msg)` -/
def Console.monitorAlert (c : Console) (msg : String) : Console :=
  let text := "[MONITOR ALERT] " ++ msg ++ "\n"
  { c with logQ := c.logQ ++ [text], output := c.output ++ [text] }

def Console.event (c : Console) : Event → Option Console
  | .action x => c.step x
  | .alert msg => some (c.monitorAlert msg)

/-- All threads of the GUI but the main one. -/
def events : Machine Console Event := ⟨console.init, Console.event⟩

/-- The console, and the texts that `get_nowait` has returned. -/
abbrev Widget := Read Console String

def widget : Machine Widget (ReadAct Event) := events.withReader Console.logQ

/-- `text if text.endswith("\n") else text + "\n"` -/
def line (text : String) : String :=
  if "\n".toList <:+ text.toList then text else text ++ "\n"

/-- What `_drain_log_queue` has inserted into the widget. -/
def Widget.lines (w : Widget) : List String := w.seen.map line

end PrivacyGuard.Gui
