import PrivacyGuard.Model.VerifyActive
import PrivacyGuard.Properties.Ipv6Coverage
import PrivacyGuard.Properties.RulesInForce
import PrivacyGuard.Properties.Verification

set_option autoImplicit false

/-! # What the verification finds

`ipv6_blocked` is shared by three modes, each of which puts back the IPv6 firewall it has found and
clears the flag. The flag is therefore not always set when IPv6 is blocked; but where it is set,
IPv6 is blocked. So `verify_active` finds what the saved state promises, in every run. -/

namespace PrivacyGuard

open Netfilter Effect

/-- Nothing gets in, out or through, except by the loopback interface. -/
structure Ipv6Sealed (F6 : Fw) : Prop extends Ipv6Closed F6 where
  input : F6.filterTable.policy .input = .drop ∧
    F6.filterTable.hook .input = [⟨[.inIface false "lo"], .accept⟩]
  forward : F6.filterTable.policy .forward = .drop ∧ F6.filterTable.hook .forward = []

/-- The flag tells the truth. -/
def FlagTrue (w : World) : Prop := w.saved.ipv6Blocked = true → Ipv6Sealed w.v6

section

variable {A : Op → Choice → World → Prop} {w : World} {env : Environment} {m : Mode}
  {a : Activation m} {force : Bool}

/-! ## The parts of an enable function -/

theorem ipv6Sealed_applied {F6 G6 : Fw}
    (h : Firewall.Applied Firewall.noSkip blockIpv6Commands F6 G6) : Ipv6Sealed G6 := by
  obtain ⟨hp, hh, -⟩ := h.filterTable
  refine ⟨⟨by rw [hp]; rfl, by rw [hh]; rfl⟩, ⟨by rw [hp]; rfl, by rw [hh]; rfl⟩, ?_, ?_⟩
  · rw [hp]
    rfl
  · rw [hh]
    rfl

/-- Commands that are run with `check=True` have all been applied, if they have gone through. -/
theorem runChecked_wp (cs : List (FwCommand Match)) (w : World) :
    (runChecked .v6 cs).wp (machine A) (fun b w' => w'.saved = w.saved ∧
      (b = true → Firewall.Applied Firewall.noSkip cs w.v6 w'.v6)) w := by
  induction cs generalizing w with
  | nil => exact ⟨rfl, fun _ => .nil _⟩
  | cons c cs ih =>
      rw [runChecked, Prog.wp_bind]
      refine wp_iptables (fun F hF => ?_) fun e _ => ⟨rfl, fun h => absurd h Bool.false_ne_true⟩
      rw [if_pos rfl]
      refine Prog.wp_mono (ih _) ?_
      rintro b w' ⟨hsaved, happ⟩
      exact ⟨hsaved, fun hb => .cons hF (happ hb)⟩

theorem blockIpv6_flag (h : FlagTrue w) :
    (blockIpv6 env).wp (machine A) (fun _ => FlagTrue) w := by
  unfold blockIpv6
  split
  · exact h
  rw [Prog.wp_bind]
  refine wp_load ?_
  split
  · exact h
  · rename_i hflag
    rw [Prog.wp_bind]
    refine Prog.wp_mono (runChecked_wp _ _) fun b w' ⟨hsaved, happ⟩ => ?_
    cases b with
    | false =>
        intro hb
        rw [hsaved] at hb
        exact absurd hb hflag
    | true =>
        rw [if_neg (by decide), Prog.wp_bind]
        exact wp_update fun now _ => ipv6Sealed_applied (happ rfl)

theorem Ipv6Sealed.congr {F6 G6 : Fw} (h : Ipv6Sealed F6)
    (hp : G6.filterTable.policy = F6.filterTable.policy)
    (hh : G6.filterTable.hook = F6.filterTable.hook) : Ipv6Sealed G6 := by
  refine ⟨⟨?_, ?_⟩, ?_, ?_⟩
  · rw [hp]
    exact h.policy
  · rw [hh]
    exact h.rules
  · rw [hp, hh]
    exact h.input
  · rw [hp, hh]
    exact h.forward

/-- What gateway mode does to the FORWARD chain has been done already. -/
theorem Ipv6Sealed.forwardLock {F6 G6 : Fw} (h : Ipv6Sealed F6) {c : FwCommand Match}
    (hc : c ∈ PrivacyGuard.forwardLock) (hexec : F6.exec c = .ok G6) : Ipv6Sealed G6 := by
  simp only [PrivacyGuard.forwardLock, List.mem_cons, List.not_mem_nil, or_false] at hc
  rcases hc with rfl | rfl
  · obtain ⟨hp, hh, -⟩ := Table.of_exec (Firewall.exec_filter hexec).1
    refine h.congr (hp.trans ?_) hh
    calc Function.update F6.filterTable.policy .forward .drop
        = Function.update F6.filterTable.policy .forward (F6.filterTable.policy .forward) := by
          rw [h.forward.1]
      _ = F6.filterTable.policy := Function.update_eq_self _ _
  · obtain ⟨hp, hh, -⟩ := Table.of_exec (Firewall.exec_filter hexec).1
    refine h.congr hp (hh.trans ?_)
    calc Function.update F6.filterTable.hook .forward []
        = Function.update F6.filterTable.hook .forward (F6.filterTable.hook .forward) := by
          rw [h.forward.2]
      _ = F6.filterTable.hook := Function.update_eq_self _ _

/-- An operation on which the flag does not depend: it leaves the flag and the IPv6 firewall
alone, or does what gateway mode does to the FORWARD chain. -/
def ApartFromFlag : Op → Prop
  | .load => True
  | .iptables .v4 _ => True
  | .iptables .v6 c => c ∈ forwardLock
  | .update fs => ∀ (s : Saved) now, (s.update fs now).ipv6Blocked = s.ipv6Blocked
  | _ => False

theorem FlagTrue.exec {o : Op} (ho : ApartFromFlag o) (c : Choice) (h : FlagTrue w) :
    FlagTrue (exec o c w).2 := by
  cases o with
  | load => exact h
  | update fs =>
      intro hb
      exact h ((ho w.saved c.text).symm.trans hb)
  | iptables f cmd =>
      rw [PrivacyGuard.exec]
      split
      · split
        · rename_i F hF
          cases f with
          | v4 => exact h
          | v6 => exact fun hb => (h hb).forwardLock ho hF
        · exact h
      · exact h
  | _ => cases ho

theorem FlagTrue.wp_of_all {α : Type} {p : Proc α} (hp : p.all ApartFromFlag) (h : FlagTrue w) :
    p.wp (machine A) (fun _ => FlagTrue) w :=
  Prog.wp_of_all hp (fun _ c _ ho _ hw => hw.exec ho c) h

theorem Activation.finish_flag (hlock : ∀ c ∈ a.lock, c ∈ forwardLock) (b : Backups)
    (h : FlagTrue w) : (a.finish env b).wp (machine A) (fun _ => FlagTrue) w := by
  unfold Activation.finish
  rw [Prog.wp_bind]
  have hall : (lockIpv6 env a.lock).all ApartFromFlag := by
    unfold lockIpv6
    exact Prog.all_ite (runAll_all _ hlock) (Prog.all_pure _)
  refine Prog.wp_mono (h.wp_of_all hall) fun _ w₁ h₁ => ?_
  rw [Prog.wp_bind]
  refine wp_update fun now => ?_
  rw [Prog.wp_bind]
  have h₂ : FlagTrue { w₁ with saved := w₁.saved.update (a.fields b) now } := by
    intro hb
    exact h₁ ((a.ipv6Blocked b w₁.saved now).symm.trans hb)
  exact Prog.wp_mono (blockIpv6_flag h₂) fun _ _ h₃ => h₃

/-! ## The calls -/

/-- Switching a mode on, with whatever result. -/
theorem Follows.flag {p : Proc Bool} (hp : Follows a env force p) (hS : Saves A)
    (hR : Restores A) (hlock : ∀ c ∈ a.lock, c ∈ forwardLock) (h : FlagTrue w) :
    p.wp (machine A) (fun _ => FlagTrue) w := by
  refine Prog.wp_of_along (hp A (fun _ => True) (fun _ => FlagTrue) (fun _ => FlagTrue) w trivial
    (fun _ => h) (fun _ _ => h) (fun he _ _ => ?_) (fun _ _ h' => h')
    fun b w' h' => Prog.along_of_wp (Activation.finish_flag hlock b h'))
  refine Prog.along_of_wp (Prog.wp_mono
    (applyRuleset_wp hS hR he.privileged (a.skips A) a.rules_v4) ?_)
  -- the IPv6 firewall is put back as it was found
  have hback : ∀ ts, FlagTrue (w.backUp env m.label ts) := by
    intro ts hb
    rw [World.backUp_saved] at hb
    rw [World.backUp_v6]
    exact h hb
  intro r w' happ
  cases happ with
  | rolledBack ts => exact hback ts
  | applied ts F hF => exact hback ts

/-- Switching a mode off clears the flag, or does nothing. -/
theorem FlagTrue.disableMode {stop : Proc Unit} (hstop : stop.all Quiet) (h : FlagTrue w) :
    (disableMode m env stop).wp (machine A) (fun _ => FlagTrue) w := by
  refine Prog.wp_of_along (disableMode_along (I := fun _ => True) hstop (fun _ _ => trivial) h
    fun w' now hw' => ⟨trivial, fun hb => ?_⟩)
  rw [hw', m.cleared_ipv6Blocked] at hb
  cases hb

theorem enablePortscanProtection_apart (p : PortscanParams) :
    (enablePortscanProtection env p force).all ApartFromFlag :=
  enablePortscanProtection_all trivial (fun _ _ => rfl) fun _ _ => trivial

theorem disablePortscanProtection_apart : (disablePortscanProtection env).all ApartFromFlag := by
  refine Prog.all_ite (Prog.all_pure _) ?_
  refine Prog.all_bind ((Prog.all_op _).mpr trivial) fun st => ?_
  refine Prog.all_ite (Prog.all_pure _) ?_
  refine Prog.all_bind ((Prog.all_op _).mpr trivial) fun st' => ?_
  refine Prog.all_bind (runAll_all _ fun _ _ => trivial) fun _ => ?_
  exact (Prog.all_op _).mpr fun _ _ => rfl

theorem Action.flag (hS : Saves A) (hR : Restores A) (x : Action) (h : FlagTrue w) :
    x.body.wp (machine A) (fun _ => FlagTrue) w := by
  have hdisable : ∀ m, x.disables? = some m → x.body.wp (machine A) (fun _ => FlagTrue) w := by
    intro m hm
    obtain ⟨stop, hstop, hbody⟩ := Action.of_disables hm
    rw [hbody, Prog.wp_map]
    exact h.disableMode hstop
  cases x with
  | enableKillSwitch env force t =>
      exact (enableKillSwitch_follows env force t).flag hS hR (fun _ hc => nomatch hc) h
  | enableProxyKillSwitch env a force =>
      exact (enableProxyKillSwitch_follows env a force).flag hS hR (fun _ hc => nomatch hc) h
  | enableGateway env a force =>
      exact (enableGateway_follows env a force).flag hS hR (fun _ hc => hc) h
  | disableKillSwitch env => exact hdisable .tor rfl
  | disableProxyKillSwitch env => exact hdisable .proxyOnly rfl
  | disableGateway env => exact hdisable .gateway rfl
  | enablePortscanProtection env p force => exact h.wp_of_all (enablePortscanProtection_apart p)
  | disablePortscanProtection env =>
      rw [Action.body, Prog.wp_map]
      exact h.wp_of_all disablePortscanProtection_apart

end

/-! ## Whole runs -/

variable {w w' : World} {cs : List (Action × Bool)}

theorem flagTrue_of_calls {A : Op → Choice → World → Prop} {pre : Action → World → Prop}
    (hS : Saves A) (hR : Restores A) (hw : w.saved = defaultState)
    (h : Calls (machine A) Action.body pre w cs w') : FlagTrue w' := by
  refine h.invariant (fun x s _ hs => x.flag hS hR hs) fun hb => ?_
  rw [hw] at hb
  cases hb

/-- A ping is answered only if a request has left the machine. -/
def PingHonest (F : Fw) (ping : Option Int) : Prop :=
  ping = some 0 → ∃ X p, EchoRequest p ∧ p.ct = .new ∧
    F.filterVerdict (meaning X) .output p = .accept

theorem TorOutput.blocks_ping {F : Fw} (hF : TorOutput F) {ping : Option Int}
    (hping : PingHonest F ping) : directTrafficBlocked ping = true := by
  cases ping with
  | none => rfl
  | some code =>
      rw [directTrafficBlocked, decide_eq_true_eq]
      rintro rfl
      obtain ⟨X, p, hp, hnew, haccept⟩ := hping rfl
      have hdrop := (hF.drops_echo X hp).mpr ⟨by simp [hnew], by simp [hnew]⟩
      rw [haccept] at hdrop
      cases hdrop

/-- **The verification finds what is promised.** After every run in which gateway mode is not
switched off under a kill switch, whatever has been forced and whatever has failed: where the Tor
kill switch is marked active, its verification turns on the answers about Tor and DNS alone; where
IPv6 is marked blocked, no IPv6 packet gets in, out or through, except by the loopback interface,
and this is what is found; and nothing is verified that is not marked active. -/
theorem verifyActive_finds (hw : w.saved = defaultState)
    (h : Calls (machine reliableAndTruthful) Action.body (fun x s => x.KeepsGateway s) w cs w')
    (env : Environment) (q : Probes) {rules : List Char}
    (hlisting : q.listing = .ok (listOutput w'.v6 rules)) (hping : PingHonest w'.v4 q.ping) :
    (w'.saved.torKillSwitch = true →
      ∃ r, (verifyActive env w'.saved q).killSwitch = some r ∧
        (r.passed = true ↔
          torConfirmed q.attempts = true ∧ noDnsLeak q.leakVerdict = true)) ∧
    (w'.saved.ipv6Blocked = true → Ipv6Sealed w'.v6 ∧
      ∃ r, (verifyActive env w'.saved q).ipv6 = some r ∧
        (r.passed = true ↔ env.hasIp6tables = true)) ∧
    ((verifyActive env w'.saved q).killSwitch = none ↔
      w'.saved.torKillSwitch = false ∧ w'.saved.proxyOnlyKillSwitch = false) ∧
    ((verifyActive env w'.saved q).ipv6 = none ↔ w'.saved.ipv6Blocked = false) := by
  -- that the rules are in force rests on `KeepsGateway`, that the flag is true does not
  have hforce : SwitchesInForce w' :=
    h.invariant (fun x s hx hs => x.inForce_switches hx hs) (inForce_of_default hw)
  have hflag : FlagTrue w' :=
    flagTrue_of_calls saves_reliableAndTruthful restores_reliableAndTruthful hw h
  refine ⟨fun ht => ?_, fun hb => ⟨hflag hb, ?_⟩, ?_, ?_⟩
  · have hrules : TorOutput w'.v4 := hforce.killSwitch .tor (by decide) ht
    refine ⟨_, if_pos ht, ?_⟩
    simp [Report.passed, verifyTorKillSwitch, hrules.blocks_ping hping]
  · refine ⟨_, if_pos hb, ?_⟩
    have hdrop : w'.v6.filterTable.policy .output = .drop := (hflag hb).policy
    cases h6 : env.hasIp6tables with
    | false => simp [Report.passed, verifyIpv6Blocked, h6]
    | true => simp [Report.passed, verifyIpv6Blocked, h6, hlisting, policyDrop_listOutput, hdrop]
  · unfold verifyActive
    cases w'.saved.torKillSwitch <;> cases w'.saved.proxyOnlyKillSwitch <;> simp
  · unfold verifyActive
    cases w'.saved.ipv6Blocked <;> simp

/-- Right after the Tor kill switch has been switched on over gateway mode. -/
def goodProbes : Probes where
  ping := none
  attempts := [some true]
  leakVerdict := "OK"
  exitIp := .ok "192.0.2.1"
  listing := .ok (listOutput (afterCalls torOverGateway).v6 [])

theorem verifyActive_finds_torOverGateway :
    ∃ r, (verifyActive .full (afterCalls torOverGateway).saved goodProbes).ipv6 = some r ∧
      r.passed = true := by
  have hallowed : Allowed (machine reliableAndTruthful) goWell Action.body
      (fun x s => Action.KeepsGateway x s) torOverGateway
      (.start Firewall.blank Firewall.blank) :=
    ⟨fun h => absurd h Bool.false_ne_true, fun _ _ => nofun, trivial⟩
  have hcalls := calls_runCalls reliableAndTruthful_goWell hallowed
  have hfinds := verifyActive_finds rfl hcalls .full goodProbes rfl (fun h => nomatch h)
  obtain ⟨-, r, hr, hpassed⟩ := hfinds.2.1 (by decide +kernel)
  exact ⟨r, hr, hpassed.mpr rfl⟩

end PrivacyGuard
