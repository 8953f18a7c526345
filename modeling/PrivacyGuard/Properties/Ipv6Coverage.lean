import PrivacyGuard.Model.Switching
import PrivacyGuard.Model.TorOutput

set_option autoImplicit false

/-! # IPv6 while a mode is on

The three modes share one flag, `ipv6_blocked`, and each restores the IPv6 firewall it found.
The kill switches may be switched on during gateway mode and then find IPv6 blocked, so
switching them off again leaves it blocked. Switching gateway mode off first opens it. -/

namespace PrivacyGuard

open Netfilter Effect

/-- What `block_ipv6` makes of the OUTPUT chain. -/
structure Ipv6Closed (F6 : Fw) : Prop where
  policy : F6.filterTable.policy .output = .drop
  rules : F6.filterTable.hook .output = [⟨[.outIface "lo"], .accept⟩]

/-- The addresses of the packets do not matter, nor does the meaning of other matches. -/
theorem Ipv6Closed.verdict {F6 : Fw} (h : Ipv6Closed F6) {P : Type} (m : Meaning Match P) (p : P)
    (hp : m.holds (.outIface "lo") p = false) : F6.filterVerdict m .output p = .drop := by
  rw [Firewall.filterVerdict, Table.verdict, h.rules, h.policy]
  simp [decideRules, hp, Policy.verdict]

theorem ipv6Closed_block (F6 : Fw) : Ipv6Closed (F6.perform blockIpv6Commands) := by
  have hplain : ∀ c ∈ blockIpv6Commands, Firewall.plainFw c = true := by decide
  obtain ⟨hp, hh, -⟩ := (Firewall.applied_of_plain hplain F6).filterTable
  exact ⟨by rw [hp]; rfl, by rw [hh]; rfl⟩

/-! ## The invariant -/

/-- Gateway mode has been on for longer than the mode `m`. -/
def DuringGateway (m : Mode) (s : Saved) : Prop :=
  m ≠ .gateway ∧ Mode.gateway.active s = true

/-- While a mode is on, IPv6 is closed, and the mode records a closed IPv6 firewall if it was
switched on during gateway mode, and else the initial one. -/
structure Coverage (F6 : Fw) (w : World) : Prop where
  off : (∀ m : Mode, m.active w.saved = false) → w.v6 = F6 ∧ w.saved.ipv6Blocked = false
  on : ∀ m : Mode, m.active w.saved = true → Ipv6Closed w.v6
  records : ∀ m : Mode, m.active w.saved = true → ∃ F G6, m.RecordsV4 w F ∧ m.RecordsV6 w G6 ∧
    (DuringGateway m w.saved → Ipv6Closed G6) ∧ (¬ DuringGateway m w.saved → G6 = F6)
  single : ∀ m m' : Mode, Opposite m m' → m.active w.saved = true → m'.active w.saved = false

theorem coverage_start {w : World} (hw : w.saved = defaultState) : Coverage w.v6 w := by
  have hoff : ∀ m : Mode, m.active w.saved = false := by
    intro m
    rw [hw]
    cases m <;> rfl
  have hno : ∀ m : Mode, m.active w.saved ≠ true := by simp [hoff]
  exact ⟨fun _ => ⟨rfl, by rw [hw]; rfl⟩, fun m hm => absurd hm (hno m),
    fun m hm => absurd hm (hno m), fun m _ _ hm => absurd hm (hno m)⟩

section

variable {x : Action} {m : Mode} {w w' : World} {F6 : Fw} {b : Bool}

/-- A mode that is switched on finds all modes off, or is a kill switch and finds gateway
mode on. -/
theorem off_or_duringGateway (hoff : m.active w.saved = false)
    (hfree : m.conflict w.saved = false) :
    (∀ m' : Mode, m'.active w.saved = false) ∨ DuringGateway m w.saved := by
  by_cases hg : DuringGateway m w.saved
  · exact Or.inr hg
  refine Or.inl fun m' => ?_
  by_cases hm : m = .gateway
  · subst hm
    by_cases hm' : m' = .gateway
    · rw [hm', hoff]
    · exact others_off_of_gateway hfree m' hm'
  · have hgoff : Mode.gateway.active w.saved = false :=
      Bool.eq_false_iff.mpr fun hon => hg ⟨hm, hon⟩
    cases m with
    | gateway => exact absurd rfl hm
    | tor =>
        cases m' with
        | tor => exact hoff
        | proxyOnly => exact hfree
        | gateway => exact hgoff
    | proxyOnly =>
        cases m' with
        | tor => exact hfree
        | proxyOnly => exact hoff
        | gateway => exact hgoff

/-- Only gateway mode has commands of its own on the IPv6 firewall. -/
theorem lock_eq_nil (hx : x.enables? = some m) (hm : m ≠ .gateway) : x.lock = [] := by
  cases x with
  | enableGateway env a force =>
      cases hx
      exact absurd rfl hm
  | _ => rfl

theorem Coverage.closed_after (h : Coverage F6 w) (hx : x.enables? = some m)
    (h6 : x.env.hasIp6tables = true) (hoff : m.active w.saved = false)
    (hfree : m.conflict w.saved = false) :
    Ipv6Closed (ipv6After x.env x.lock w.saved.ipv6Blocked w.v6) := by
  rw [ipv6After, if_pos h6]
  cases hb : w.saved.ipv6Blocked with
  | false => exact ipv6Closed_block _
  | true =>
      -- recorded as blocked already: gateway mode is on
      rcases off_or_duringGateway hoff hfree with hall | hg
      · rw [(h.off hall).2] at hb
        cases hb
      · rw [lock_eq_nil hx hg.1]
        exact h.on .gateway hg.2

/-- A mode that is on when another one is switched on is gateway mode. -/
theorem eq_gateway_of_on {m' : Mode} (hoff : m.active w.saved = false)
    (hfree : m.conflict w.saved = false) (hne : m' ≠ m) (hon : m'.active w.saved = true) :
    m' = .gateway := by
  by_contra hg'
  rcases off_or_duringGateway hoff hfree with hall | hg
  · rw [hall] at hon
    cases hon
  · have hopp := Opposite.of_ne hne.symm hg.1 hg'
    rw [hopp.conflict, hon] at hfree
    cases hfree

/-- Switching a mode on. -/
theorem Coverage.enable (h : Coverage F6 w) (hx : x.enables? = some m)
    (h6 : x.env.hasIp6tables = true) (he : Action.Enabled x m w b w') : Coverage F6 w' := by
  cases he with
  | declined => exact h
  | already _ => exact h
  | switchedOn _ hoff hfree a ha _ hlock hon =>
      have hi := hon.installs
      have hclosed : Ipv6Closed w'.v6 := by
        rw [hi.v6, hlock]
        exact h.closed_after hx h6 hoff hfree
      -- a mode that was on before is gateway mode
      have hold : ∀ m' : Mode, m' ≠ m → m'.active w'.saved = true →
          m' = .gateway ∧ m'.active w.saved = true := by
        intro m' hne hact
        rw [hi.others m' hne] at hact
        exact ⟨eq_gateway_of_on hoff hfree hne hact, hact⟩
      refine ⟨fun hall => ?_, fun _ _ => hclosed, fun m' hact => ?_, fun m₁ m₂ hopp hact => ?_⟩
      · have hact := hi.active
        rw [hall] at hact
        cases hact
      · by_cases hm : m' = m
        · subst hm
          refine ⟨w.v4, w.v6, hon.recordsV4, hon.recordsV6 h6, fun hd => ?_, fun hd => ?_⟩
          · have hgw := hd.2
            rw [hi.others .gateway hd.1.symm] at hgw
            exact h.on .gateway hgw
          · refine (h.off ((off_or_duringGateway hoff hfree).resolve_right fun hg => hd ?_)).1
            exact ⟨hg.1, by rw [hi.others .gateway hg.1.symm]; exact hg.2⟩
        · obtain ⟨rfl, hact'⟩ := hold m' hm hact
          obtain ⟨F, G6, hF, hG6, -, hinit⟩ := h.records .gateway hact'
          exact ⟨F, G6, hon.otherV4 ha hm hF, hon.otherV6 ha hm (not_opposite_gateway m) hG6,
            fun hd => absurd rfl hd.1, fun _ => hinit fun hd => hd.1 rfl⟩
      · by_cases hm : m₁ = m
        · subst hm
          rw [hi.others m₂ hopp.ne.symm, ← hopp.conflict, hfree]
        · exact absurd (hold m₁ hm hact).1 hopp.ne_gateway

/-- Switching a mode off, gateway mode last. -/
theorem Coverage.disable (h : Coverage F6 w) (hx : x.disables? = some m)
    (hlast : m = .gateway → x.env.Privileged → Mode.gateway.active w.saved = true →
      ∀ m' : Mode, m' ≠ .gateway → m'.active w.saved = false) :
    x.body.wp (machine allSucceed) (fun _ => Coverage F6) w := by
  by_cases hon : m.active w.saved = true
  · obtain ⟨F, G6, hF, hG6, hclosed, hinit⟩ := h.records m hon
    refine Prog.wp_mono (Action.disabled restores_allSucceed hx hon (hF.holds hG6))
      fun _ w' hw' => ?_
    rcases hw' with ⟨-, rfl⟩ | ⟨he, now, rfl⟩
    · exact h
    · -- what is still on is gateway mode
      have hold : ∀ m' : Mode, m'.active (w.saved.update m.cleared now) = true →
          m' = .gateway ∧ DuringGateway m w.saved := by
        intro m' hact
        have hne : m' ≠ m := by
          rintro rfl
          rw [m'.active_cleared] at hact
          cases hact
        rw [Mode.active_cleared_of_ne m _ _ hne] at hact
        have hm : m ≠ .gateway := by
          rintro rfl
          rw [hlast rfl he hon m' hne] at hact
          cases hact
        have hg : m' = .gateway := by
          by_contra hg
          rw [h.single m m' (Opposite.of_ne hne.symm hm hg) hon] at hact
          cases hact
        subst hg
        exact ⟨rfl, hm, hact⟩
      refine ⟨fun hall => ⟨hinit fun hd => ?_, m.cleared_ipv6Blocked _ _⟩,
        fun m' hact => hclosed (hold m' hact).2, fun m' hact => ?_,
        fun m₁ m₂ hopp hact => absurd (hold m₁ hact).1 hopp.ne_gateway⟩
      · have hoff := hall .gateway
        have hgw := hd.2
        rw [← Mode.active_cleared_of_ne m _ now hd.1.symm] at hgw
        exact Bool.false_ne_true (hoff.symm.trans hgw)
      · obtain ⟨rfl, hd⟩ := hold m' hact
        obtain ⟨F', G6', ⟨ts, hp, hF'⟩, ⟨ts', hq, hG6'⟩, -, hinit'⟩ :=
          h.records .gateway hd.2
        refine ⟨F', G6', ⟨ts, ?_, hF'⟩, ⟨ts', ?_, hG6'⟩, fun hd' => absurd rfl hd'.1,
          fun _ => hinit' fun hd' => hd'.1 rfl⟩
        · show Mode.gateway.backupV4 (w.saved.update m.cleared now) = _
          rw [Mode.backupV4_cleared_of_ne m _ _ hd.1.symm, hp]
        · show Mode.gateway.backupV6 (w.saved.update m.cleared now) = _
          rw [Mode.backupV6_cleared_of_ne _ _ hd.1.symm (not_opposite_gateway m), hq]
  · refine Prog.wp_mono (Action.disabled_idle hx (Or.inl (Bool.eq_false_iff.mpr hon)))
      fun _ w' hw' => ?_
    rw [hw']
    exact h

end

/-! ## Whole runs -/

/-- A call of one of the three modes, without force, where `ip6tables` exists; gateway mode is
not switched off while a kill switch is on. -/
structure Action.KeepsCoverage (x : Action) (w : World) : Prop where
  mode : x.enables? ≠ none ∨ x.disables? ≠ none
  force : x.force = false
  hasIp6tables : x.env.hasIp6tables = true
  gatewayLast : x.disables? = some .gateway → x.env.Privileged →
    w.saved.gatewayModeActive = true →
    w.saved.torKillSwitch = false ∧ w.saved.proxyOnlyKillSwitch = false

theorem Action.coverage {x : Action} {w : World} {F6 : Fw} (hx : x.KeepsCoverage w)
    (h : Coverage F6 w) : x.body.wp (machine allSucceed) (fun _ => Coverage F6) w := by
  rcases hx.mode with hm | hm
  · obtain ⟨m, hm⟩ := Option.ne_none_iff_exists'.mp hm
    exact Prog.wp_mono (Action.enabled hm hx.force) fun _ _ he => h.enable hm hx.hasIp6tables he
  · obtain ⟨m, hm⟩ := Option.ne_none_iff_exists'.mp hm
    refine h.disable hm fun hg he hon m' hm' => ?_
    subst hg
    obtain ⟨ht, hp⟩ := hx.gatewayLast hm he hon
    cases m' with
    | tor => exact ht
    | proxyOnly => exact hp
    | gateway => exact absurd rfl hm'

/-- **IPv6 stays covered** in every run that switches gateway mode off last. -/
theorem ipv6_covered {w w' : World} {cs : List (Action × Bool)} (hw : w.saved = defaultState)
    (h : Calls (machine allSucceed) Action.body Action.KeepsCoverage w cs w') :
    ((∃ m : Mode, m.active w'.saved = true) →
      ∀ (P : Type) (m : Meaning Match P) (p : P), m.holds (.outIface "lo") p = false →
        w'.v6.filterVerdict m .output p ≠ .accept) ∧
      ((∀ m : Mode, m.active w'.saved = false) → w'.v6 = w.v6) := by
  have hend : Coverage w.v6 w' :=
    h.invariant (fun x s hx hs => Action.coverage hx hs) (coverage_start hw)
  refine ⟨fun ⟨m, hm⟩ P meaning p hp => ?_, fun hoff => (hend.off hoff).1⟩
  rw [(hend.on m hm).verdict meaning p hp]
  exact Verdict.noConfusion

def torInsideGateway : List Action :=
  [.enableGateway .full ⟨"eth1", "10.0.0.1", none⟩ false, .enableKillSwitch .full false 45,
    .disableKillSwitch .full, .disableGateway .full]

/-- All is open again after the Tor kill switch, and then gateway mode, has been switched
off. -/
theorem ipv6_covered_torInsideGateway :
    (runCalls (machine allSucceed) goWell Action.body torInsideGateway
      (.start sshServer sshServer)).2.v6 = sshServer := by
  have hall : Allowed (machine allSucceed) goWell Action.body Action.KeepsCoverage
      torInsideGateway (.start sshServer sshServer) :=
    ⟨⟨.inl (by decide), rfl, rfl, fun h => (nomatch h)⟩,
      ⟨.inl (by decide), rfl, rfl, fun h => (nomatch h)⟩,
      ⟨.inr (by decide), rfl, rfl, fun h => (nomatch h)⟩,
      ⟨.inr (by decide), rfl, rfl, fun _ _ _ => ⟨by decide +kernel, by decide +kernel⟩⟩,
      trivial⟩
  refine (ipv6_covered rfl (calls_runCalls allSucceed_goWell hall)).2 fun m => ?_
  cases m with
  | tor => decide +kernel
  | proxyOnly => decide +kernel
  | gateway => decide +kernel

def gatewayOffFirst : List Action :=
  [.enableGateway .full ⟨"eth1", "10.0.0.1", none⟩ false, .enableKillSwitch .full false 45,
    .disableGateway .full]

/-- Gateway mode, switched off first, opens IPv6 while the Tor kill switch is on. -/
theorem not_ipv6_covered :
    ¬ ∀ (w w' : World) (cs : List (Action × Bool)), w.saved = defaultState →
      Calls (machine allSucceed) Action.body (fun x _ => (x.enables? ≠ none ∨ x.disables? ≠ none) ∧
        x.force = false ∧ x.env.hasIp6tables = true) w cs w' →
      (∃ m : Mode, m.active w'.saved = true) →
      ∀ (P : Type) (m : Meaning Match P) (p : P), m.holds (.outIface "lo") p = false →
        w'.v6.filterVerdict m .output p ≠ .accept := by
  intro h
  have hall : Allowed (machine allSucceed) goWell Action.body
      (fun x _ => (x.enables? ≠ none ∨ x.disables? ≠ none) ∧ x.force = false ∧
        x.env.hasIp6tables = true)
      gatewayOffFirst (.start .blank .blank) :=
    ⟨⟨.inl (by decide), rfl, rfl⟩, ⟨.inl (by decide), rfl, rfl⟩, ⟨.inr (by decide), rfl, rfl⟩,
      trivial⟩
  refine h _ _ _ rfl (calls_runCalls allSucceed_goWell hall) ⟨.tor, ?_⟩ Packet
    (meaning .silent) (toWeb true) (by decide) ?_
  · decide +kernel
  · decide +kernel

end PrivacyGuard
