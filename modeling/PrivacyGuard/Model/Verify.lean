import Mathlib.Data.List.Infix

set_option autoImplicit false

/-! # Verification

`verify_tor_kill_switch` and `verify_proxy_kill_switch` of `verify.py`, as functions of what
their probes have answered. -/

namespace PrivacyGuard

/-- The dictionary `report`. -/
structure Report where
  checks : List (String × Bool)
  deriving DecidableEq, Repr

/-- `report["passed"]` -/
def Report.passed (r : Report) : Bool := r.checks.all (·.2)

/-- `_direct_traffic_blocked`: the exit code of `ping`, if there is a `ping` and it ends in
time. -/
def directTrafficBlocked : Option Int → Bool
  | some returncode => decide (returncode ≠ 0)
  | none => true

/-- An answer of `check_tor_active`: the field `IsTor`, unless there is a field `error`. -/
abbrev TorCheck : Type := Option Bool

/-- The attempts end with the first that is no error, or with the fourth. -/
def torConfirmed (attempts : List TorCheck) : Bool :=
  ((attempts.take 4).findSome? id).getD false

/-- `"LIKELY LEAKING" not in dns_report["leak_verdict"]` -/
def noDnsLeak (leakVerdict : String) : Bool :=
  decide (¬ "LIKELY LEAKING".toList <:+: leakVerdict.toList)

def verifyTorKillSwitch (ping : Option Int) (attempts : List TorCheck) (leakVerdict : String) :
    Report where
  checks := [
    ("Non-redirected traffic (ICMP) correctly blocked", directTrafficBlocked ping),
    ("Traffic confirmed routing through Tor", torConfirmed attempts),
    ("No DNS leak detected", noDnsLeak leakVerdict)]

/-- `exitIp` is the answer of the echo service, or the error. -/
def verifyProxyKillSwitch (ping : Option Int) (exitIp : Except String String)
    (leakVerdict : String) : Report where
  checks := [
    ("Non-redirected traffic (ICMP) correctly blocked", directTrafficBlocked ping),
    match exitIp with
    | .ok seenIp => (s!"Traffic still reaches the internet (via proxy, exit IP: {seenIp})", true)
    | .error e => (s!"Traffic reaches the internet via proxy ({e})", false),
    ("No DNS leak detected (note: redsocks doesn't tunnel DNS — check carefully)",
      noDnsLeak leakVerdict)]

end PrivacyGuard
