import PrivacyGuard.Text.Follow
import Mathlib.Algebra.Order.Group.Defs

set_option autoImplicit false

/-! # The watch over an access log

`watch_http_access_log` of `anti_recon.py`, as a function of what is appended to the log and of
the moments when the loop reads. Which encoding a file opened with `open(log_path, "r")` has
depends on the locale: the decoder is a parameter. -/

namespace PrivacyGuard.LogWatch

open Text

variable {T : Type}

/-- `NIKTO_SIGNS`, as the texts that the expressions match. -/
def niktoSigns : List (List Char) :=
  ["nikto".toList, "../".toList, "/etc/passwd".toList, "/wp-login".toList, "sqlmap".toList,
    "nmap scripting engine".toList]

/-- The letter of the signs that `re.IGNORECASE` takes the character for: upper case, `\u0130`
and `\u0131` as `i`, `\u017f` as `s` and `\u212a` as `k`. -/
def foldCase (c : Char) : Char :=
  let n := c.toNat
  if 65 ≤ n ∧ n ≤ 90 then Char.ofNat (n + 32)
  else if n = 304 ∨ n = 305 then 'i'
  else if n = 383 then 's'
  else if n = 8490 then 'k'
  else c

/-- `pattern.search(line)` -/
def knownSign (line : List Char) : Bool :=
  niktoSigns.any fun sign => decide (sign <:+: line.map foldCase)

structure Settings (T : Type) where
  windowSeconds : T
  burstThreshold : Nat

inductive Alert
  /-- `line.strip()[:200]` -/
  | signature (request : List Char)
  | burst (requests : Nat)
  deriving DecidableEq

def signatureAlert (line : List Char) : Alert := .signature ((strip line).take 200)

section

variable [AddCommGroup T] [LinearOrder T]

/-- The loop's body, for a line that has been read. -/
def handleLine (s : Settings T) (hits : List T) (now : T) (line : List Char) :
    List T × List Alert :=
  let hits := (hits ++ [now]).dropWhile fun t => decide (s.windowSeconds < now - t)
  let known := if knownSign line then [signatureAlert line] else []
  if s.burstThreshold ≤ hits.length then ([], known ++ [.burst hits.length]) else (hits, known)

/-- The alerts for the lines that have been read. -/
def alerts (s : Settings T) : List T → List (Line T) → List Alert
  | _, [] => []
  | hits, e :: es =>
      (handleLine s hits e.now e.text).2 ++ alerts s (handleLine s hits e.now e.text).1 es

/-- The loop from the end of the log on, until it is stopped or an exception ends it. -/
def watchHttpAccessLog (D : Decoder) (s : Settings T) (ms : List (Move T)) : List Alert :=
  alerts s [] (handled D [] ms)

end

/-- The times that are noted in `hits`. -/
def counted (D : Decoder) (ms : List (Move T)) : List T := (handled D [] ms).map Line.now

/-- The alerts for known signatures. -/
def signatures (as : List Alert) : List Alert :=
  as.filter fun
    | .signature _ => true
    | .burst _ => false

end PrivacyGuard.LogWatch
