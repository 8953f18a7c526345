import PrivacyGuard.Model.Torrc
import PrivacyGuard.Text.Words

set_option autoImplicit false

/-! # The check for DNS leaks

`dns_check.py`, as functions of the text of `/etc/resolv.conf`, the answer of `dig` and that of
the Tor check. -/

namespace PrivacyGuard.Dns

open Text Torrc

def nameserver : List Char := "nameserver".toList

/-- `line.strip().startswith("nameserver")` -/
def isNameserver (line : List Char) : Bool := startsWith [nameserver] line

/-- `line.split()[1]`, or an exception -/
def secondWord (line : List Char) : Option (List Char) := (words line)[1]?

/-- A line whose first word is the keyword. -/
theorem isNameserver_of_words {line : List Char} {ws : List (List Char)}
    (h : words line = nameserver :: ws) : isNameserver line = true := by
  obtain hnil | ⟨w, ws', hwords, -, hpre⟩ := words_cases line
  · rw [h] at hnil
    cases hnil
  · rw [h] at hwords
    obtain ⟨rfl, -⟩ := List.cons.inj hwords
    rw [isNameserver, startsWith, List.any_cons, List.any_nil, Bool.or_false]
    exact List.isPrefixOf_iff_prefix.mpr hpre

/-- The loop over the lines. An exception ends it, and what has been found until then is
returned. -/
def resolversOf : List (List Char) → List (List Char)
  | [] => []
  | line :: ls =>
      if isNameserver line then
        match secondWord line with
        | some server => server :: resolversOf ls
        | none => []
      else resolversOf ls

def configuredResolvers (resolv : File) : List (List Char) :=
  resolversOf (splitlines (readText resolv))

/-- `r.startswith("127.") or r == "::1"` -/
def isLocal (r : List Char) : Bool := "127.".toList.isPrefixOf r || decide (r = "::1".toList)

/-- An answer of `check_tor_active` without a field `error`. -/
structure ExitCheck where
  isTor : Bool
  ip : Option String

/-- The dictionary `report`; `torExitIp` is `none` where the key is missing. -/
structure LeakReport where
  configuredResolvers : List (List Char)
  nonLocalResolvers : List (List Char)
  leakVerdict : String
  resolverIdentifyingIp : String
  torExitIp : Option (Option String)
  torDnsNote : Option String

def leakVerdict (expectLocalOnly : Bool) (nonLocal : List (List Char)) : String :=
  if expectLocalOnly = true ∧ nonLocal ≠ [] then
    "LIKELY LEAKING — non-local resolver(s) configured while a tunnel is supposed to be active."
  else if nonLocal ≠ [] then
    "No tunnel claimed active — resolvers going direct (expected)."
  else
    "All configured resolvers are local/loopback (good — assuming the " ++
      "local stub genuinely forwards through your tunnel)."

/-- An empty answer of `resolver_identifying_ip` counts as none. -/
def answered (resolverIp : Option String) : Option String := resolverIp.filter (· ≠ "")

def torDnsNote (resolverIp : Option String) (torCheck : ExitCheck) : Option String :=
  match answered resolverIp with
  | some ip =>
      if torCheck.isTor = true ∧ torCheck.ip ≠ some ip then
        some ("Resolver-identifying IP differs from your Tor exit IP — this is " ++
          "normal (DNS-over-Tor is often answered via a different relay than " ++
          "your traffic circuit), not proof of a leak by itself.")
      else none
  | none => none

def dnsLeakCheck (resolv : File) (resolverIp : Option String) (torCheck : Option ExitCheck)
    (expectLocalOnly : Bool) : LeakReport :=
  let resolvers := configuredResolvers resolv
  let nonLocal := resolvers.filter fun r => !isLocal r
  { configuredResolvers := resolvers
    nonLocalResolvers := nonLocal
    leakVerdict := leakVerdict expectLocalOnly nonLocal
    resolverIdentifyingIp :=
      (answered resolverIp).getD "unavailable (install `dig`, or query was blocked)"
    torExitIp := torCheck.map (·.ip)
    torDnsNote := torCheck.bind (torDnsNote resolverIp) }

/-- `"LIKELY LEAKING" in verdict` -/
def LikelyLeaking (verdict : String) : Prop := "LIKELY LEAKING".toList <:+: verdict.toList

instance (verdict : String) : Decidable (LikelyLeaking verdict) :=
  inferInstanceAs (Decidable (_ <:+: _))

/-- Of the three verdicts, the first is that of a leak. -/
theorem likelyLeaking_iff (expectLocalOnly : Bool) (nonLocal : List (List Char)) :
    LikelyLeaking (leakVerdict expectLocalOnly nonLocal) ↔
      expectLocalOnly = true ∧ nonLocal ≠ [] := by
  rw [leakVerdict]
  split
  · rename_i h
    exact iff_of_true (by decide +kernel) h
  · rename_i h
    refine iff_of_false ?_ h
    split
    · decide +kernel
    · decide +kernel

end PrivacyGuard.Dns
