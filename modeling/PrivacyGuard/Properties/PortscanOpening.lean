import PrivacyGuard.Model.Applying
import PrivacyGuard.Model.Recent

set_option autoImplicit false

/-! # Does portscan protection open the firewall?

The rules of portscan protection stand before and behind those of the INPUT chain. The one
before drops packets. The one behind accepts new connections which no other rule has decided
about, and which the policy of the chain would have dropped. -/

namespace PrivacyGuard

open Netfilter Effect

/-- A new external connection gets past all rules of the INPUT chain, not by way of the
portscan chain, and is dropped by the policy. -/
structure OpensInput (K : Xt) (X : Unmodelled) (ps : PortscanParams) (F : Fw) (now : Nat)
    (p : Packet) (R : RecentTable) : Prop where
  policy : F.filterTable.policy .input = .drop
  external : p.ExternalSyn
  calm : K.hit ps.seconds ps.hitcount now (R "pg_scan" p.src) = false
  passes : (K.inputWalk F X now p R).outcome = .ended
  avoids : .entry portscanChain ∉ (K.inputWalk F X now p R).passed

section

variable {K : Xt} {X : Unmodelled} {now : Nat} {p : Packet} {R : RecentTable}
  {ps : PortscanParams} {F G : Fw}

/-- A source that has been noted too often is dropped. -/
theorem PortscanInstalled.drops (h : PortscanInstalled ps F G) (hp : p.ExternalSyn)
    (hhit : K.hit ps.seconds ps.hitcount now (R "pg_scan" p.src) = true) :
    (K.inputWalk G X now p R).outcome = .decided .drop := by
  have htest : testAll ((K.dynamics X now).test · p) (portscanJump ps).conds R =
      (true, K.note R "pg_scan" p.src now) := by
    refine (testAll_of_external hp _).trans ?_
    simp [testAll, Xt.test, hhit]
  have hchain : ∀ n R', (G.filterTable.walkChain (K.dynamics X now) p n portscanChain
      R').outcome = .decided .drop := by
    intro n R'
    cases n with
    | zero => rfl
    | succ n =>
        rw [Table.walkChain, h.chain]
        rfl
  have hjump := hchain (K.dynamics X now).stack (K.note R "pg_scan" p.src now)
  rw [Xt.inputWalk, Table.walk, Table.walkAlong, h.input]
  rw [portscanJump] at htest ⊢
  rw [walkRules_jump htest, Walk.andThen_of_decided hjump]
  exact hjump

/-- Any other packet comes to the rules from before, and behind them to the last one. -/
theorem PortscanInstalled.walk (h : PortscanInstalled ps F G)
    (hcalm : ¬ (p.ExternalSyn ∧ K.hit ps.seconds ps.hitcount now (R "pg_scan" p.src) = true)) :
    K.inputWalk G X now p R =
      (G.filterTable.walkAlong (K.dynamics X now) p (F.filterTable.hook .input) R).atEnd
        (G.filterTable.walkAlong (K.dynamics X now) p [portscanNote]) := by
  have htest : testAll ((K.dynamics X now).test · p) (portscanJump ps).conds R = (false, R) := by
    by_cases hp : p.ExternalSyn
    · have hhit : K.hit ps.seconds ps.hitcount now (R "pg_scan" p.src) = false :=
        Bool.eq_false_iff.mpr fun hhit => hcalm ⟨hp, hhit⟩
      refine (testAll_of_external hp _).trans ?_
      simp [testAll, Xt.test, hhit]
    · exact testAll_of_not_external hp _
  rw [Xt.inputWalk, Table.walk, Table.walkAlong, h.input, walkRules_of_unmet htest]
  exact walkRules_append _ _ _

/-- The last rule accepts the new external connections. -/
theorem walkAlong_portscanNote (t : Table FilterHook Match) :
    (t.walkAlong (K.dynamics X now) p [portscanNote] R).outcome =
      if p.ExternalSyn then .decided .accept else .ended := by
  by_cases hp : p.ExternalSyn
  · have htest : testAll ((K.dynamics X now).test · p) portscanNote.conds R =
        (true, K.note R "pg_scan" p.src now) := testAll_of_external hp _
    rw [Table.walkAlong, portscanNote, if_pos hp]
    exact congrArg Walk.outcome (walkRules_accept htest _)
  · have htest : testAll ((K.dynamics X now).test · p) portscanNote.conds R = (false, R) :=
      testAll_of_not_external hp _
    rw [Table.walkAlong, walkRules_of_unmet htest, if_neg hp]
    rfl

/-- Where the rules from before let the packet pass, the last rule or the policy decides. -/
theorem settle_portscanNote {W : Walk RecentTable} (hend : W.outcome = .ended) :
    G.filterTable.settle .input
      (W.atEnd (G.filterTable.walkAlong (K.dynamics X now) p [portscanNote])).outcome =
      if p.ExternalSyn then .accept else (G.filterTable.policy .input).verdict := by
  rw [Walk.atEnd_of_ended hend]
  show Table.settle _ _ (Table.walkAlong _ _ _ _ _).outcome = _
  rw [walkAlong_portscanNote]
  split <;> rfl

/-- **What the rules open.** -/
theorem PortscanInstalled.opens_iff (h : PortscanInstalled ps F G) :
    (K.inputVerdict F X now p R = .drop → K.inputVerdict G X now p R = .drop) ↔
      ¬ OpensInput K X ps F now p R := by
  have hparted : Walk.Diverted (.entry portscanChain) .drop (K.inputWalk F X now p R)
      (G.filterTable.walkAlong (K.dynamics X now) p (F.filterTable.hook .input) R) := by
    refine Table.walkAlong_replaced (K.dynamics X now) p h.rest ?_ _ R
    intro n R'
    rw [h.chain]
    rfl
  constructor
  · rintro himp ⟨hpol, hp, hcalm, hend, havoid⟩
    have hbefore : K.inputVerdict F X now p R = .drop := by
      rw [Xt.inputVerdict, hend, Table.settle, hpol]
      rfl
    have hafter : K.inputVerdict G X now p R = .accept := by
      obtain ⟨hl, -⟩ | ⟨-, heq⟩ := hparted
      · exact absurd hl havoid
      · rw [Xt.inputVerdict, h.walk (by simp [hcalm]), heq, settle_portscanNote hend, if_pos hp]
    rw [himp hbefore] at hafter
    cases hafter
  · intro hno hbefore
    by_cases hhit : p.ExternalSyn ∧ K.hit ps.seconds ps.hitcount now (R "pg_scan" p.src) = true
    · rw [Xt.inputVerdict, h.drops hhit.1 hhit.2]
      rfl
    rw [Xt.inputVerdict, h.walk hhit]
    obtain ⟨-, hdrop⟩ | ⟨havoid, heq⟩ := hparted
    · -- on the way through the portscan chain
      rw [Walk.atEnd_of_ne (by rw [hdrop]; exact nofun), hdrop]
      rfl
    rw [heq]
    by_cases hend : (K.inputWalk F X now p R).outcome = .ended
    · have hpol : F.filterTable.policy .input = .drop := by
        rw [Xt.inputVerdict, hend] at hbefore
        cases hpol : F.filterTable.policy .input with
        | drop => rfl
        | accept =>
            rw [Table.settle, hpol] at hbefore
            cases hbefore
      have hp : ¬ p.ExternalSyn := by
        intro hp
        have hcalm := Bool.eq_false_iff.mpr fun hh => hhit ⟨hp, hh⟩
        exact hno ⟨hpol, hp, hcalm, hend, havoid⟩
      rw [settle_portscanNote hend, if_neg hp, h.policy, hpol]
      rfl
    · rw [Walk.atEnd_of_ne hend, Table.settle, h.policy]
      exact hbefore

/-- **When portscan protection does not open the firewall**: it was on already and has done
nothing, or the packet is not one that the policy alone keeps out. -/
theorem drops_kept_iff {env : Environment} {force : Bool} {w w' : World}
    {tr : List (Event sig)}
    (hrun : Prog.Runs (machine truthful) (enablePortscanProtection env ps force) w tr true w')
    (K : Xt) (X : Unmodelled) (now : Nat) (p : Packet) (R : RecentTable) :
    (K.inputVerdict w.v4 X now p R = .drop → K.inputVerdict w'.v4 X now p R = .drop) ↔
      (w.saved.portscanProtection = true ∧ force = false) ∨
        ¬ OpensInput K X ps w.v4 now p R := by
  cases portscan_of_runs hrun with
  | already _ hon hforce => exact iff_of_true id (.inl ⟨hon, hforce⟩)
  | done _ hforce now' =>
      have hno : ¬ (w.saved.portscanProtection = true ∧ force = false) := by
        rintro ⟨hon, hoff⟩
        rw [hforce hon] at hoff
        cases hoff
      rw [or_iff_right hno]
      exact (portscanInstalled ps w.v4).opens_iff

end

/-! ## A server that admits only SSH -/

/-- Portscan protection is switched on over the firewall `F`. -/
def portscanOver (F : Fw) : World :=
  ((enablePortscanProtection .full defaultPortscanParams false).run (machine truthful) goWell
    (.start F .blank)).2

theorem runs_portscanOver (F : Fw)
    (h : ((enablePortscanProtection .full defaultPortscanParams false).run (machine truthful)
      goWell (.start F .blank)).1 = true) :
    ∃ tr, Prog.Runs (machine truthful)
      (enablePortscanProtection .full defaultPortscanParams false) (.start F .blank) tr true
      (portscanOver F) :=
  Prog.runs_of_run (H := machine truthful) truthful_goWell h

/-- A hundred ticks a second, and twenty time stamps for a source. -/
def usualXt : Xt := ⟨100, 20⟩

/-- The first packet of a connection to the web server of this machine. -/
def toOwnWeb (iif : String) : Packet :=
  { toWeb true with src := 0xc6336407#32, dport := 80, iif := iif, oif := "", owner := none }

theorem drops_kept_iff_lo :
    usualXt.inputVerdict (portscanOver sshServer).v4 .silent 0 (toOwnWeb "lo") .empty =
      .drop := by
  obtain ⟨tr, hrun⟩ := runs_portscanOver sshServer (by decide +kernel)
  refine (drops_kept_iff hrun usualXt .silent 0 (toOwnWeb "lo") .empty).mpr (.inr ?_)
    (by decide +kernel)
  exact fun hopens => hopens.external.iif rfl

/-- A connection from outside to a port that was closed is accepted. -/
theorem not_drops_kept :
    ¬ ∀ (env : Environment) (ps : PortscanParams) (force : Bool) (w w' : World)
        (tr : List (Event sig)) (K : Xt) (X : Unmodelled) (now : Nat) (p : Packet)
        (R : RecentTable),
      Prog.Runs (machine truthful) (enablePortscanProtection env ps force) w tr true w' →
      K.inputVerdict w.v4 X now p R = .drop → K.inputVerdict w'.v4 X now p R = .drop := by
  intro h
  obtain ⟨tr, hrun⟩ := runs_portscanOver sshServer (by decide +kernel)
  have hdrop := h _ _ _ _ _ tr usualXt .silent 0 (toOwnWeb "eth0") .empty hrun
    (by decide +kernel)
  exact absurd hdrop (by decide +kernel)

end PrivacyGuard
