import PrivacyGuard.Model.Applying
import PrivacyGuard.Properties.PortscanFlag

set_option autoImplicit false

/-! # Does disabling portscan protection remove it?

Every call of `enable_portscan_protection` that is not answered from the saved state adds its
two rules to the INPUT chain; the call that disables it takes away one pair of them. -/

namespace PrivacyGuard

open Netfilter Effect

/-- A call of `enable_portscan_protection`: its parameters, and `force`. -/
abbrev PortscanCall : Type := PortscanParams × Bool

/-- The parameters of the calls that put rules in place, where `on` says what is recorded when
the first is made. -/
def taken (on : Bool) : List PortscanCall → List PortscanParams
  | [] => []
  | (p, force) :: cs => if on && !force then taken on cs else p :: taken true cs

/-- The calls are made one after the other, and each answers yes. -/
def EnabledBy (env : Environment) (cs : List PortscanCall) (w w' : World) : Prop :=
  Calls (machine truthful) (fun c => enablePortscanProtection env c.1 c.2) (fun _ _ => True) w
    (cs.map fun c => (c, true)) w'

section

variable {env : Environment} {cs : List PortscanCall} {w w₁ w' : World}

/-- What the calls make of the machine. -/
structure Enabled (env : Environment) (cs : List PortscanCall) (w w' : World) : Prop where
  v4 : w'.v4 = (taken w.saved.portscanProtection cs).foldl
    (fun F p => F.perform (portscanCommands p)) w.v4
  params : w'.saved.portscanParams =
    (taken w.saved.portscanProtection cs).getLast?.or w.saved.portscanParams
  on : w.saved.portscanProtection = true ∨ cs ≠ [] → w'.saved.portscanProtection = true
  privileged : cs ≠ [] → env.Privileged

theorem Enabled.cons {c : PortscanCall} (h : PortscanApplied env c.1 c.2 w w₁)
    (hcs : Enabled env cs w₁ w') : Enabled env (c :: cs) w w' := by
  obtain ⟨p, force⟩ := c
  cases h with
  | already he hon hforce =>
      have htaken : taken w.saved.portscanProtection ((p, force) :: cs) =
          taken w.saved.portscanProtection cs := by
        rw [taken, hon, show force = false from hforce]
        rfl
      exact ⟨htaken ▸ hcs.v4, htaken ▸ hcs.params, fun _ => hcs.on (.inl hon), fun _ => he⟩
  | done he hforce now =>
      have htaken : taken w.saved.portscanProtection ((p, force) :: cs) = p :: taken true cs := by
        rw [taken, if_neg]
        intro hno
        simp only [Bool.and_eq_true, Bool.not_eq_true'] at hno
        exact absurd (hforce hno.1) (by simp [hno.2])
      refine ⟨?_, ?_, fun _ => hcs.on (.inl rfl), fun _ => he⟩
      · rw [htaken]
        exact hcs.v4
      · rw [htaken, hcs.params, List.getLast?_cons]
        show (taken true cs).getLast?.or (some p) = _
        cases (taken true cs).getLast? <;> rfl

/-- One call after the other. -/
theorem EnabledBy.enabled (h : EnabledBy env cs w w') : Enabled env cs w w' := by
  induction cs generalizing w with
  | nil =>
      cases h
      exact ⟨rfl, rfl, fun hon => hon.resolve_right (absurd rfl), absurd rfl⟩
  | cons c cs ih =>
      cases h with
      | cons _ hrun hcs => exact (ih hcs).cons (portscan_of_runs hrun)

/-- Each of them has put a rule at the head of the INPUT chain. -/
theorem portscanJumps_foldl (ps : List PortscanParams) (F : Fw) :
    (portscanJumps (ps.foldl (fun F p => F.perform (portscanCommands p)) F)).length =
      ps.length + (portscanJumps F).length := by
  induction ps generalizing F with
  | nil => exact (Nat.zero_add _).symm
  | cons p ps ih =>
      rw [List.foldl_cons, ih, (portscanJumps_enable p F).1, List.length_cons, List.length_cons]
      omega

/-- Of several of these rules, a removal leaves some. -/
theorem portscanJumps_left {F : Fw} (hF : portscanChain ∉ F.filterTable.names)
    {ps : List PortscanParams} (hps : 1 < ps.length) (q : PortscanParams) :
    portscanJumps ((ps.foldl (fun F p => F.perform (portscanCommands p)) F).perform
      (portscanRemoval q)) ≠ [] := by
  intro hnil
  have hle := List.le_length_erase (a := portscanJump q)
    (l := portscanJumps (ps.foldl (fun F p => F.perform (portscanCommands p)) F))
  rw [← portscanJumps_disable, hnil, portscanJumps_foldl, portscanJumps_of_absent hF] at hle
  simp at hle
  omega

/-- **When disabling removes what enabling has added**: one call at most has put rules in
place. -/
theorem removed_iff {tr : List (Event sig)} (hfree : PortscanFreeInput w.v4) (hne : cs ≠ [])
    (hcalls : EnabledBy env cs w w₁)
    (hrun : Prog.Runs (machine allSucceed) (disablePortscanProtection env) w₁ tr () w') :
    (w'.v4.filterTable.hook .input = w.v4.filterTable.hook .input ∧
      portscanChain ∉ w'.v4.filterTable.names) ↔
      (taken w.saved.portscanProtection cs).length ≤ 1 := by
  have henabled := hcalls.enabled
  have hw' : w'.v4 = w₁.v4.perform
      (portscanRemoval (w₁.saved.portscanParams.getD defaultPortscanParams)) := by
    cases hrun.post (disablePortscanProtection_wp env w₁) with
    | idle h =>
        obtain hoff | hpriv := h
        · rw [henabled.on (.inr hne)] at hoff
          cases hoff
        · exact absurd (henabled.privileged hne) hpriv
    | done _ _ now => rfl
  have hv4 := henabled.v4
  have hparams := henabled.params
  rw [hw', hv4]
  generalize taken w.saved.portscanProtection cs = ps at hv4 hparams ⊢
  match ps with
  | [] =>
      -- the rules have never been put in place
      rw [List.foldl_nil, portscanRemoval_free hfree]
      exact iff_of_true ⟨rfl, hfree.chain⟩ (Nat.zero_le 1)
  | [p] =>
      obtain ⟨G, happ, hG⟩ := portscan_applied p hfree
      obtain ⟨K, hremoved, hK⟩ := portscan_removed hfree hG
      have hrecorded : ([p].getLast?.or w.saved.portscanParams).getD defaultPortscanParams = p :=
        rfl
      rw [hparams, hrecorded, List.foldl_cons, List.foldl_nil, happ.perform, hremoved.perform,
        hK.same.1]
      exact iff_of_true ⟨rfl, hfree.chain⟩ le_rfl
  | p :: q :: ps =>
      -- one of the rules that lead to the chain is left
      refine iff_of_false (fun h => ?_) (by simp)
      have hlen : 1 < (p :: q :: ps).length := by simp
      refine portscanJumps_left hfree.chain hlen
        (w₁.saved.portscanParams.getD defaultPortscanParams) ?_
      rw [portscanJumps, h.1, ← portscanJumps, portscanJumps_of_absent hfree.chain]

end

/-! ## Once, and twice -/

/-- The calls `cs` and then the one that disables portscan protection, over the firewall `F`. -/
def enabledOver (cs : List PortscanCall) (F : Fw) : World :=
  (runCalls (machine truthful) goWell (fun c => enablePortscanProtection .full c.1 c.2) cs
    (.start F .blank)).2

def removedOver (cs : List PortscanCall) (F : Fw) : World :=
  ((disablePortscanProtection .full).run (machine allSucceed) goWell (enabledOver cs F)).2

theorem enabledBy_enabledOver {cs : List PortscanCall} {F : Fw}
    (h : (runCalls (machine truthful) goWell (fun c => enablePortscanProtection .full c.1 c.2) cs
      (.start F .blank)).1 = cs.map fun c => (c, true)) :
    EnabledBy .full cs (.start F .blank) (enabledOver cs F) := by
  have hcalls := calls_runCalls (H := machine truthful) truthful_goWell
    (allowed_of_forall (fun c : PortscanCall =>
      enablePortscanProtection .full c.1 c.2) (fun _ _ => trivial) cs (.start F .blank))
  rw [h] at hcalls
  exact hcalls

theorem portscanFreeInput_sshServer : PortscanFreeInput sshServer := ⟨by decide, by decide⟩

theorem runs_removedOver (cs : List PortscanCall) (F : Fw) :
    ∃ tr, Prog.Runs (machine allSucceed) (disablePortscanProtection .full) (enabledOver cs F) tr
      () (removedOver cs F) :=
  Prog.runs_run (H := machine allSucceed) allSucceed_goWell _ _

theorem removed_iff_once :
    (removedOver [(⟨15, 60⟩, false), (⟨5, 60⟩, false)] sshServer).v4.filterTable.hook .input =
        sshServer.filterTable.hook .input ∧
      portscanChain ∉
        (removedOver [(⟨15, 60⟩, false), (⟨5, 60⟩, false)] sshServer).v4.filterTable.names := by
  obtain ⟨tr, hrun⟩ := runs_removedOver [(⟨15, 60⟩, false), (⟨5, 60⟩, false)] sshServer
  exact (removed_iff portscanFreeInput_sshServer (by simp)
    (enabledBy_enabledOver (by decide +kernel)) hrun).mpr (by decide)

/-- A second call that is forced leaves its rules, or those of the first, behind. -/
theorem not_removed :
    ¬ ∀ (env : Environment) (cs : List PortscanCall) (w w₁ w' : World) (tr : List (Event sig)),
      PortscanFreeInput w.v4 → cs ≠ [] → EnabledBy env cs w w₁ →
      Prog.Runs (machine allSucceed) (disablePortscanProtection env) w₁ tr () w' →
      w'.v4.filterTable.hook .input = w.v4.filterTable.hook .input ∧
        portscanChain ∉ w'.v4.filterTable.names := by
  intro h
  obtain ⟨tr, hrun⟩ := runs_removedOver [(⟨15, 60⟩, false), (⟨5, 60⟩, true)] sshServer
  have hgone := h _ _ _ _ _ tr portscanFreeInput_sshServer (by simp)
    (enabledBy_enabledOver (by decide +kernel)) hrun
  exact absurd hgone.1 (by decide +kernel)

end PrivacyGuard
