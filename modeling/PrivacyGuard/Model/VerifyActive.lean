import PrivacyGuard.Model.FirewallBackup
import PrivacyGuard.Model.Verify
import PrivacyGuard.Text.Lines

set_option autoImplicit false

/-! # Verifying what is marked active

`verify_ipv6_blocked` and `verify_active` of `verify.py`, with what `ip6tables -L OUTPUT` prints. -/

namespace PrivacyGuard

open Netfilter

/-- `out.stdout.split("\n")[0]` -/
def firstLine (stdout : List Char) : List Char := stdout.takeWhile (· ≠ '\n')

/-- `"policy DROP" in out.stdout.split("\n")[0] if out.stdout else False` -/
def policyDrop (stdout : List Char) : Bool :=
  decide ("policy DROP".toList <:+: firstLine stdout)

/-- `listing` is what `ip6tables -L OUTPUT` has printed, or the exception. -/
def verifyIpv6Blocked (env : Environment) (listing : Except String (List Char)) : Report :=
  if !env.hasIp6tables then ⟨[("ip6tables available to test with", false)]⟩
  else
    match listing with
    | .ok stdout => ⟨[("ip6tables OUTPUT policy is DROP", policyDrop stdout)]⟩
    | .error e => ⟨[(s!"Could not read ip6tables policy ({e})", false)]⟩

/-- What the probes of the verifications answer. -/
structure Probes where
  ping : Option Int
  attempts : List TorCheck
  leakVerdict : String
  exitIp : Except String String
  listing : Except String (List Char)

/-- The dictionary with the keys `kill_switch` and `ipv6`. -/
structure ActiveReport where
  killSwitch : Option Report
  ipv6 : Option Report

/-- The host of the recorded proxy, which is passed on to `verify_proxy_kill_switch`, is not used
there. -/
def verifyActive (env : Environment) (st : Saved) (q : Probes) : ActiveReport where
  killSwitch :=
    if st.torKillSwitch then some (verifyTorKillSwitch q.ping q.attempts q.leakVerdict)
    else if st.proxyOnlyKillSwitch then
      some (verifyProxyKillSwitch q.ping q.exitIp q.leakVerdict)
    else none
  ipv6 := if st.ipv6Blocked then some (verifyIpv6Blocked env q.listing) else none

/-! ## What `ip6tables` prints -/

def policyName : Policy → List Char
  | .accept => "ACCEPT".toList
  | .drop => "DROP".toList

/-- The chain with its policy, and then its rules. -/
def listOutput (F6 : Fw) (rules : List Char) : List Char :=
  "Chain OUTPUT (policy ".toList ++ policyName (F6.filterTable.policy .output) ++
    ")\n".toList ++ rules

theorem policyDrop_listOutput (F6 : Fw) (rules : List Char) :
    policyDrop (listOutput F6 rules) = decide (F6.filterTable.policy .output = .drop) := by
  have hfirst : firstLine (listOutput F6 rules) =
      "Chain OUTPUT (policy ".toList ++ policyName (F6.filterTable.policy .output) ++ [')'] := by
    unfold listOutput
    generalize F6.filterTable.policy .output = P
    cases P <;> rfl
  unfold policyDrop
  rw [hfirst]
  generalize F6.filterTable.policy .output = P
  cases P with
  | accept => decide
  | drop => decide

end PrivacyGuard
