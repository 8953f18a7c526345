import PrivacyGuard.Effect.Rebind

set_option autoImplicit false

/-! # The console of the GUI

`_run_bg` of `gui.py` runs an action in a thread of its own, with `sys.stdout` redirected to the
queue from which the console widget is filled. The steps of all such threads, in any order. -/

namespace PrivacyGuard.Gui

open Effect

/-- A value of `sys.stdout`: the stream of the process, or the `ConsoleRedirector` that an action
has made. All redirectors share one queue. -/
inductive Stream
  | original
  | redirector (t : Nat)
  deriving DecidableEq

/-- `sys.stdout` with the threads that rebind it, what has been put into `log_q`, what the
original stream has received, and all that the actions have had to say, in the order in which
they have said it. -/
structure Console where
  streams : Rebind.Shared Nat Stream
  logQ : List String
  terminal : List String
  output : List String

namespace Console

variable (c : Console)

/-- `write` of a stream; a redirector passes over the empty text. -/
def write (text : String) : Stream → Console
  | .original => { c with terminal := c.terminal ++ [text] }
  | .redirector _ => if text = "" then c else { c with logQ := c.logQ ++ [text] }

/-- What `print(text)` writes, one text after the other. -/
def pieces (text : String) : List String := [text, "\n"].filter (· ≠ "")

/-- `print(text)`: looks `sys.stdout` up, and writes to what it finds. -/
def print (text : String) : Console :=
  let file := c.streams.value
  let c := (c.write text file).write "\n" file
  { c with output := c.output ++ pieces text }

/-- `self.log_q.put(f"[!] Exception: {e}\n")`, if there has been one. -/
def report : Option String → Console
  | some e =>
      let text := "[!] Exception: " ++ e ++ "\n"
      { c with logQ := c.logQ ++ [text], output := c.output ++ [text] }
  | none => c

end Console

/-- The steps of the thread `t`: `old_stdout = sys.stdout`, `sys.stdout = ConsoleRedirector(..)`,
a `print` of the action, the end of the action, `sys.stdout = old_stdout`. -/
inductive Step
  | save (t : Nat)
  | redirect (t : Nat)
  | print (t : Nat) (text : String)
  | finish (t : Nat) (exception : Option String)
  | restore (t : Nat)

/-- What the step does to `sys.stdout`. -/
def Step.act? : Step → Option (Rebind.Act Nat)
  | save t => some (.save t)
  | redirect t => some (.install t)
  | print _ _ => none
  | finish t _ => some (.leave t)
  | restore t => some (.restore t)

/-- A step that saves, installs or restores, or ends the action. -/
def Console.rebind (c : Console) (a : Rebind.Act Nat) : Option Console :=
  (Rebind.step .redirector c.streams a).map fun s => { c with streams := s }

def Console.step (c : Console) : Step → Option Console
  | .save t => c.rebind (.save t)
  | .redirect t => c.rebind (.install t)
  | .print t text =>
      match c.streams.phase t with
      | .inside _ => some (c.print text)
      | _ => none
  | .finish t exception => (c.rebind (.leave t)).map (·.report exception)
  | .restore t => c.rebind (.restore t)

/-- The steps of `sys.stdout` alone. -/
def stdout : Machine (Rebind.Shared Nat Stream) (Rebind.Act Nat) :=
  Rebind.machine .redirector .original

def console : Machine Console Step := ⟨⟨stdout.init, [], [], []⟩, Console.step⟩

end PrivacyGuard.Gui
