import PrivacyGuard.Model.Traces
import PrivacyGuard.Netfilter.Replacement

set_option autoImplicit false

/-! # The firewall while it is replaced

The rule lists of the Tor kill switch and of gateway mode begin with `iptables -F` and end,
for the OUTPUT chain, with `-j DROP`. Between the two the policy of the chain decides, and
neither list sets the policy first. -/

namespace PrivacyGuard

open Netfilter Effect

/-- The chain `h` drops the packet in every state a run of `x` from `w` to `w'` passes
through. -/
def DropsThroughout (x : Action) (w w' : World) (X : Unmodelled) (h : FilterHook)
    (p : Packet) : Prop :=
  ∀ (tr₁ tr₂ : List (Event sig)) (q : Proc Bool) (s : World),
    Prog.Steps (machine anything) x.body w tr₁ q s →
    Prog.Runs (machine anything) q s tr₂ true w' →
    s.v4.filterVerdict (meaning X) h p = .drop

/-- The rules empty both chains and then build them up, without opening a policy. -/
theorem replaces_of_routesToTor {x : Action} (hx : x.routesToTor) {h : FilterHook}
    (hh : h ≠ .input) :
    Command.Replaces h (Firewall.filterPart (x.rules.map (·.command))) := by
  cases x with
  | enableKillSwitch env force t =>
      refine ⟨[], _, rfl, rfl, ?_⟩
      cases h with
      | input => exact absurd rfl hh
      | forward | output => rfl
  | enableGateway env a force =>
      refine ⟨[.flush (.hook .forward)], _, rfl, rfl, ?_⟩
      cases h with
      | input => exact absurd rfl hh
      | forward | output => rfl
  | _ => rcases hx with hx | hx <;> cases hx

theorem flushes_first {x : Action} (hx : x.routesToTor) :
    ∃ cs, x.rules.map (·.command) = .filter .flushAll :: cs := by
  cases x with
  | enableKillSwitch env force t => exact ⟨_, rfl⟩
  | enableGateway env a force => exact ⟨_, rfl⟩
  | _ => rcases hx with hx | hx <;> cases hx

section

variable {x : Action} {w w' : World} {tr : List (Event sig)} {X : Unmodelled} {h : FilterHook}
  {p : Packet}

/-- The call has performed its rules, or found its mode on and done nothing. -/
theorem performs_of_runs (hx : x.routesToTor)
    (hrun : Prog.Runs (machine anything) x.body w tr true w') :
    (¬ x.Proceeds w.saved ∧ Performs tr []) ∨ Performs tr (x.rules.map (·.command)) := by
  rcases Action.performs hx hrun.trace with ⟨st, rfl, hst⟩ | hperf
  · -- the state that was loaded is the saved one
    refine Or.inl ⟨?_, .other trivial .nil⟩
    generalize hb : x.body = b at hrun
    cases hrun with
    | call c _ _ => exact hst
  · exact Or.inr hperf

/-- Under the policy `DROP` nothing opens. -/
theorem dropsThroughout_of_policy (hx : x.routesToTor) (hh : h ≠ .input)
    (hbefore : w.v4.filterVerdict (meaning X) h p = .drop)
    (hafter : w'.v4.filterVerdict (meaning X) h p = .drop)
    (hpol : w.v4.filterTable.policy h = .drop) : DropsThroughout x w w' X h p := by
  intro tr₁ tr₂ q s hs hq
  rcases performs_of_runs hx (hs.trans hq) with ⟨-, hnil⟩ | hperf
  · obtain ⟨cs₁, cs₂, hcs, h₁, -⟩ := hnil.of_append
    obtain ⟨rfl, -⟩ := List.append_eq_nil_iff.mp hcs.symm
    have hsame : w.v4 = s.v4 := (h₁.applied hs).perform
    rw [← hsame]
    exact hbefore
  · obtain ⟨cs₁, cs₂, hcs, h₁, h₂⟩ := hperf.of_append
    have hr := replaces_of_routesToTor hx hh
    rw [hcs] at hr
    exact Firewall.drops_between (h₁.applied hs) (h₂.applied hq) hr hpol hbefore hafter

/-- A call that finds its mode on leaves the firewall as it is. -/
theorem dropsThroughout_of_on (hbefore : w.v4.filterVerdict (meaning X) h p = .drop)
    (hon : ¬ x.Proceeds w.saved) : DropsThroughout x w w' X h p := by
  rw [Action.Proceeds] at hon
  push Not at hon
  obtain ⟨m, hm, hact, hforce⟩ := hon
  obtain ⟨a, ha⟩ := Action.of_enables hm
  have halong : x.body.along (machine anything) (fun s => s.v4 = w.v4) (fun _ _ => True) w :=
    ha anything _ (fun _ _ => False) _ w rfl (fun _ => trivial) (fun _ _ => trivial)
      (fun _ hf _ => absurd (hf hact) hforce) (fun _ _ hr => hr.elim) fun _ _ hr => hr.elim
  intro tr₁ tr₂ q s hs _
  have hsame : s.v4 = w.v4 := hs.invariant halong
  rw [hsame]
  exact hbefore

/-- Right after `iptables -F` the policy decides. -/
theorem policy_of_dropsThroughout (hx : x.routesToTor)
    (hrun : Prog.Runs (machine anything) x.body w tr true w') (hproceeds : x.Proceeds w.saved)
    (h' : DropsThroughout x w w' X h p) : w.v4.filterTable.policy h = .drop := by
  rcases performs_of_runs hx hrun with ⟨hon, -⟩ | hperf
  · exact absurd hproceeds hon
  obtain ⟨cs, hcs⟩ := flushes_first hx
  rw [hcs] at hperf
  obtain ⟨tr₁, tr₂, rfl, h₁, -⟩ := hperf.of_cons
  obtain ⟨q, s, hs, hq⟩ := Prog.Steps.split hrun
  have hdrop := h' tr₁ tr₂ q s hs hq
  rw [Firewall.verdict_of_flushed (h₁.applied hs)] at hdrop
  cases hpol : w.v4.filterTable.policy h with
  | drop => rfl
  | accept =>
      rw [hpol] at hdrop
      cases hdrop

/-- **When nothing opens while the rules are replaced.** A packet the chain drops before and
after the call is dropped all along if and only if the call finds its mode on and does
nothing, or the policy of the chain was `DROP` before. -/
theorem dropsThroughout_iff (hx : x.routesToTor) (hh : h ≠ .input)
    (hrun : Prog.Runs (machine anything) x.body w tr true w')
    (hbefore : w.v4.filterVerdict (meaning X) h p = .drop)
    (hafter : w'.v4.filterVerdict (meaning X) h p = .drop) :
    DropsThroughout x w w' X h p ↔
      ¬ x.Proceeds w.saved ∨ w.v4.filterTable.policy h = .drop := by
  constructor
  · intro h'
    by_cases hproceeds : x.Proceeds w.saved
    · exact Or.inr (policy_of_dropsThroughout hx hrun hproceeds h')
    · exact Or.inl hproceeds
  · rintro (hon | hpol)
    · exact dropsThroughout_of_on hbefore hon
    · exact dropsThroughout_of_policy hx hh hbefore hafter hpol

end

/-- Every policy is `DROP`, and there are no rules. -/
def allClosed : Fw where
  filter := some { Table.fresh with policy := fun _ => .drop }
  nat := none

/-- A UDP packet of an ordinary user to another host. -/
def udpToWeb : Packet := { toWeb false with proto := .udp }

theorem dropsThroughout_iff_allClosed :
    DropsThroughout (.enableKillSwitch .full false 45) (.start allClosed .blank)
      (torOver allClosed) .silent .output udpToWeb := by
  obtain ⟨tr, hrun⟩ := runs_torOver allClosed (by decide +kernel)
  exact (dropsThroughout_iff (x := .enableKillSwitch .full false 45) (Or.inl rfl) (by decide)
    hrun (by decide +kernel) (by decide +kernel)).mpr (Or.inr rfl)

/-- The kill switch, switched on again by force, lets everything out while it works. -/
theorem not_dropsThroughout :
    ¬ ∀ (x : Action) (w w' : World) (tr : List (Event sig)) (X : Unmodelled)
        (h : FilterHook) (p : Packet), x.routesToTor → h ≠ .input →
      Prog.Runs (machine anything) x.body w tr true w' →
      w.v4.filterVerdict (meaning X) h p = .drop → w'.v4.filterVerdict (meaning X) h p = .drop →
      DropsThroughout x w w' X h p := by
  intro h
  let x : Action := .enableKillSwitch .full true 45
  have htrue : (x.body.run (machine anything) goWell (torOver .blank)).1 = true := by
    decide +kernel
  obtain ⟨tr, hrun⟩ := Prog.runs_of_run (fun _ _ => trivial) htrue
  have hdrops := h x _ _ tr .silent .output udpToWeb (Or.inl rfl) (by decide) hrun
    (by decide +kernel) (by decide +kernel)
  have hpol := policy_of_dropsThroughout (Or.inl rfl) hrun (fun _ _ _ => rfl) hdrops
  exact absurd hpol (by decide +kernel)

end PrivacyGuard
