import PrivacyGuard.Model.Monitor

set_option autoImplicit false

/-! # What the monitor reports

A check compares the address with the last one obtained, which is what the baseline is. The first
check to obtain one establishes the baseline and looks no further; after that a failed exit check
and a leaking resolver are reported, but not a Tor check that could not be made. -/

namespace PrivacyGuard.Monitor

open Dns

/-- The address a check obtains. -/
def address (a : Answers) : Option String := if isError a.publicIp then none else some a.publicIp

/-- The last address obtained by some checks. -/
def lastAddress (before : List Answers) : Option String := (before.filterMap address).getLast?

/-- The verdict computed from `resolv.conf`. -/
def Leaking (a : Answers) : Prop := LikelyLeaking (dnsReport a).leakVerdict

instance (a : Answers) : Decidable (Leaking a) :=
  inferInstanceAs (Decidable (LikelyLeaking (dnsReport a).leakVerdict))

/-- The check is the first to obtain an address. -/
def First (before : List Answers) (a : Answers) : Prop :=
  address a ≠ none ∧ lastAddress before = none

instance (before : List Answers) (a : Answers) : Decidable (First before a) :=
  inferInstanceAs (Decidable (_ ≠ _ ∧ _ = _))

variable {expectTunnel : Bool} {before : List Answers} {a : Answers}

/-! ## The baseline -/

theorem address_of_error (h : isError a.publicIp = true) : address a = none := if_pos h

theorem address_of_not_error (h : isError a.publicIp = false) : address a = some a.publicIp :=
  if_neg (ne_true_of_eq_false h)

theorem baseline_checkOnce (expectTunnel : Bool) (baselineIp : Option String) (a : Answers) :
    (checkOnce expectTunnel baselineIp a).2 = (address a).or baselineIp := by
  cases herror : isError a.publicIp with
  | true => rw [checkOnce_failed herror, address_of_error herror, Option.none_or]
  | false =>
      rw [address_of_not_error herror, Option.some_or]
      cases baselineIp with
      | none => rw [checkOnce_first herror]
      | some baseline => rw [checkOnce_next herror]

/-- The baseline is the last address obtained. -/
theorem baselineAfter_eq (expectTunnel : Bool) (before : List Answers) :
    baselineAfter expectTunnel before = lastAddress before := by
  induction before using List.reverseRecOn with
  | nil => rfl
  | append_singleton before a ih =>
      rw [baselineAfter, List.foldl_append, ← baselineAfter, List.foldl_cons, List.foldl_nil,
        baseline_checkOnce, ih, lastAddress, lastAddress, List.filterMap_append,
        List.getLast?_append]
      cases h : address a <;> simp [h]

/-! ## The alerts of a check -/

theorem alerts_of_error (h : isError a.publicIp = true) :
    alertsAfter expectTunnel before a = [.fetchFailed a.publicIp] := by
  rw [alertsAfter, checkOnce_failed h]

theorem alerts_of_first (h : isError a.publicIp = false) (hlast : lastAddress before = none) :
    alertsAfter expectTunnel before a = [] := by
  rw [alertsAfter, baselineAfter_eq, hlast, checkOnce_first h]

theorem alerts_of_next {baseline : String} (h : isError a.publicIp = false)
    (hlast : lastAddress before = some baseline) :
    alertsAfter true before a =
      tunnelAlerts a ++
        if a.publicIp ≠ baseline then [.ipChanged baseline a.publicIp] else [] := by
  rw [alertsAfter, baselineAfter_eq, hlast, checkOnce_next h, if_pos rfl]

theorem tunnelAlerts_ne_nil_iff : tunnelAlerts a ≠ [] ↔ TorLost a ∨ Leaking a := by
  rw [tunnelAlerts, ne_eq, List.append_eq_nil_iff, ite_eq_right_iff, ite_eq_right_iff, Leaking]
  simp only [List.cons_ne_nil, imp_false]
  tauto

/-- None of these is about the address. -/
theorem ipChanged_notMem_tunnelAlerts (baseline ip : String) :
    .ipChanged baseline ip ∉ tunnelAlerts a := by
  rw [tunnelAlerts, List.mem_append]
  rintro (hmem | hmem)
  · split at hmem
    · cases List.mem_singleton.mp hmem
    · cases hmem
  · split at hmem
    · cases List.mem_singleton.mp hmem
    · cases hmem

/-- When a check gives an alert. -/
theorem alerted_iff : alertsAfter true before a ≠ [] ↔ address a = none ∨
    ∃ baseline, lastAddress before = some baseline ∧
      (TorLost a ∨ Leaking a ∨ address a ≠ some baseline) := by
  cases herror : isError a.publicIp with
  | true =>
      rw [alerts_of_error herror]
      exact iff_of_true (List.cons_ne_nil _ _) (.inl (address_of_error herror))
  | false =>
      rw [address_of_not_error herror]
      cases hlast : lastAddress before with
      | none =>
          rw [alerts_of_first herror hlast]
          refine iff_of_false (fun h => h rfl) ?_
          rintro (h | ⟨baseline, h, -⟩) <;> cases h
      | some baseline =>
          have hchanged : (if a.publicIp ≠ baseline then [Alert.ipChanged baseline a.publicIp]
              else []) ≠ [] ↔ a.publicIp ≠ baseline := by
            split <;> simp [*]
          rw [alerts_of_next herror hlast, ne_eq, List.append_eq_nil_iff, not_and_or, ← ne_eq,
            ← ne_eq, tunnelAlerts_ne_nil_iff, hchanged]
          simp [or_assoc]

/-- The alert of a changed address. -/
theorem ipChanged_mem_iff {old new : String} : .ipChanged old new ∈ alertsAfter true before a ↔
    lastAddress before = some old ∧ address a = some new ∧ new ≠ old := by
  cases herror : isError a.publicIp with
  | true => simp [alerts_of_error herror, address_of_error herror]
  | false =>
      rw [address_of_not_error herror, Option.some_inj]
      cases hlast : lastAddress before with
      | none => simp [alerts_of_first herror hlast]
      | some baseline =>
          rw [alerts_of_next herror hlast, List.mem_append,
            or_iff_right (ipChanged_notMem_tunnelAlerts old new), Option.some_inj]
          constructor
          · intro hmem
            split at hmem
            · rename_i hne
              cases List.mem_singleton.mp hmem
              exact ⟨rfl, rfl, hne⟩
            · cases hmem
          · rintro ⟨rfl, rfl, hne⟩
            rw [if_pos hne]
            exact List.mem_singleton_self _

/-! ## The report of a loss -/

/-- What a check reports. -/
structure Reported (before : List Answers) (a : Answers) : Prop where
  /-- Traffic outside Tor and a leaking resolver, but not by the first check. -/
  loss : ¬ First before a → TorLost a ∨ Leaking a → alertsAfter true before a ≠ []
  /-- Every change of the address, and no other. -/
  change : ∀ old new, .ipChanged old new ∈ alertsAfter true before a ↔
    lastAddress before = some old ∧ address a = some new ∧ new ≠ old

/-- **Every check reports** a loss of the tunnel, once there is an address, and every change of
the address. -/
theorem reported (before : List Answers) (a : Answers) : Reported before a where
  loss := by
    intro hfirst hloss
    rw [alerted_iff]
    by_cases haddress : address a = none
    · exact .inl haddress
    · have hlast : lastAddress before ≠ none := fun hnone => hfirst ⟨haddress, hnone⟩
      obtain ⟨baseline, hbaseline⟩ := Option.ne_none_iff_exists'.mp hlast
      exact .inr ⟨baseline, hbaseline, or_assoc.mp (.inl hloss)⟩
  change := fun _ _ => ipChanged_mem_iff

/-- The traffic does not go through Tor. -/
def unprotected : Answers where
  publicIp := "203.0.113.7"
  torCheck := some { isTor := false, ip := some "203.0.113.7" }
  resolv := some "nameserver 127.0.0.1\n".toList
  resolverIp := none
  dnsTorCheck := some { isTor := false, ip := some "203.0.113.7" }

theorem reported_unprotected : ¬ First [unprotected] unprotected ∧ TorLost unprotected ∧
    alertsAfter true [unprotected] unprotected ≠ [] := by
  have hfirst : ¬ First [unprotected] unprotected := by decide +kernel
  have hloss : TorLost unprotected := by decide
  exact ⟨hfirst, hloss, (reported [unprotected] unprotected).loss hfirst (.inl hloss)⟩

/-- A loss is reported by whatever check meets it, a Tor check that could not be made among
them. -/
def LossReported (before : List Answers) (a : Answers) : Prop :=
  a.torCheck = none ∨ TorLost a ∨ Leaking a → alertsAfter true before a ≠ []

instance (before : List Answers) (a : Answers) : Decidable (LossReported before a) :=
  inferInstanceAs (Decidable (_ ∨ TorLost a ∨ Leaking a → _ ≠ []))

/-- The proxy does not answer. -/
def proxyDown : Answers := { unprotected with torCheck := none, dnsTorCheck := none }

/-- The first check looks for an address only, and the second says nothing of the proxy. -/
theorem not_lossReported :
    ¬ LossReported [] unprotected ∧ ¬ LossReported [unprotected] proxyDown := by
  decide +kernel

end PrivacyGuard.Monitor
