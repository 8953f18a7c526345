import PrivacyGuard.Model.Actions

set_option autoImplicit false

/-! # The three network modes exclude each other

`enable_gateway` refuses while a kill switch is on, but neither kill switch looks at
`gateway_mode_active`: switched on during gateway mode, it leaves two modes marked active.
As long as no kill switch is switched on during gateway mode, at most one mode is marked
active at any time, whatever fails. -/

namespace PrivacyGuard

open Netfilter Effect

/-- At most one of the three flags is set. -/
def Exclusive (s : Saved) : Prop :=
  ∀ m m' : Mode, m.active s = true → m'.active s = true → m = m'

theorem exclusive_default : Exclusive defaultState := by
  intro m m' h
  cases m <;> cases h

/-- Switching `m` on when no other mode is on. -/
theorem Exclusive.enabled {m : Mode} (a : Activation m) {s t : Saved} {b : Backups}
    {now : String} (hother : ∀ m' : Mode, m' ≠ m → m'.active s = false)
    (ht : BlockRecorded (s.update (a.fields b) now) t) : Exclusive t := by
  have honly : ∀ m' : Mode, m'.active t = true → m' = m := by
    intro m' h
    -- neither recording the mode nor blocking IPv6 touches another flag
    by_contra hne
    rw [ht.active, a.other b s now m' hne, hother m' hne] at h
    cases h
  exact fun m₁ m₂ h₁ h₂ => (honly m₁ h₁).trans (honly m₂ h₂).symm

/-- Switching `m` off. -/
theorem Exclusive.disabled {s : Saved} (h : Exclusive s) (m : Mode) (now : String) :
    Exclusive (s.update m.cleared now) := by
  have hsub : ∀ m' : Mode, m'.active (s.update m.cleared now) = true → m'.active s = true := by
    intro m' h'
    by_cases hm : m' = m
    · rw [hm, Mode.active_cleared] at h'
      cases h'
    · rwa [Mode.active_cleared_of_ne m s now hm] at h'
  exact fun m₁ m₂ h₁ h₂ => h m₁ m₂ (hsub m₁ h₁) (hsub m₂ h₂)

/-- The six calls that switch a mode on or off. -/
def Action.OnMode (x : Action) : Prop := x.enables?.isSome = true ∨ x.disables?.isSome = true

/-- No kill switch is switched on during gateway mode: a call with its prerequisites met
finds `gateway_mode_active` unset. -/
def Action.RespectsGateway : Action → Saved → Prop
  | .enableKillSwitch env _ _, s => Mode.tor.Ready env → s.gatewayModeActive = false
  | .enableProxyKillSwitch env _ _, s => Mode.proxyOnly.Ready env → s.gatewayModeActive = false
  | _, _ => True

section

variable {A : Op → Choice → World → Prop} {w : World} {m : Mode} {env : Environment}

/-- An enable function that goes ahead only when no other mode is on keeps the modes
exclusive at every moment. -/
theorem Follows.along_exclusive {a : Activation m} {force : Bool} {p : Proc Bool}
    (hp : Follows a env force p) (hw : Exclusive w.saved)
    (hother : m.Ready env → m.conflict w.saved = false →
      ∀ m' : Mode, m' ≠ m → m'.active w.saved = false) :
    p.along (machine A) (fun w' => Exclusive w'.saved) (fun _ w' => Exclusive w'.saved) w :=
  hp.along_saved hw fun he hfree _ _ _ ht => Exclusive.enabled a (hother he hfree) ht

theorem Action.along_exclusive {x : Action} (hx : x.OnMode)
    (hg : x.RespectsGateway w.saved) (hw : Exclusive w.saved) :
    x.body.along (machine A) (fun w' => Exclusive w'.saved) (fun _ w' => Exclusive w'.saved)
      w := by
  have hdisable : ∀ m, x.disables? = some m → x.body.along (machine A)
      (fun w' => Exclusive w'.saved) (fun _ w' => Exclusive w'.saved) w :=
    fun m hm => Action.along_saved_disable hm hw (hw.disabled m)
  cases x with
  | enableKillSwitch env force t =>
      refine (enableKillSwitch_follows env force t).along_exclusive hw ?_
      intro he hfree m' hm'
      cases m' with
      | tor => exact absurd rfl hm'
      | proxyOnly => exact hfree
      | gateway => exact hg he
  | enableProxyKillSwitch env a force =>
      refine (enableProxyKillSwitch_follows env a force).along_exclusive hw ?_
      intro he hfree m' hm'
      cases m' with
      | tor => exact hfree
      | proxyOnly => exact absurd rfl hm'
      | gateway => exact hg he
  | enableGateway env a force =>
      exact (enableGateway_follows env a force).along_exclusive hw
        fun _ hfree => others_off_of_gateway hfree
  | disableKillSwitch env => exact hdisable .tor rfl
  | disableProxyKillSwitch env => exact hdisable .proxyOnly rfl
  | disableGateway env => exact hdisable .gateway rfl
  | enablePortscanProtection env p force => rcases hx with hx | hx <;> cases hx
  | disablePortscanProtection env => rcases hx with hx | hx <;> cases hx

end

/-- **Exclusion.** Whatever fails, and wherever a run stands, at most one mode is marked
active, if no kill switch is switched on during gateway mode. -/
theorem exclusive_of_reached {w w' : World} (hw : w.saved = defaultState)
    (h : Reached (machine anything) Action.body
      (fun x s => x.OnMode ∧ x.RespectsGateway s.saved) w w') :
    Exclusive w'.saved := by
  refine h.invariant (I := fun w' => Exclusive w'.saved)
    (fun x s hx hs => Action.along_exclusive hx.1 hx.2 hs) ?_
  rw [hw]
  exact exclusive_default

/-- The kill switch and gateway mode, one after the other. -/
theorem exclusive_after_gateway :
    Exclusive (runCalls (machine anything) goWell Action.body
      [.enableKillSwitch .full false 45, .disableKillSwitch .full,
        .enableGateway .full ⟨"eth1", "10.0.0.1", none⟩ false]
      (.start Firewall.blank Firewall.blank)).2.saved :=
  exclusive_of_reached rfl (.between (calls_runCalls (fun _ _ => trivial)
    ⟨⟨.inl rfl, fun _ => rfl⟩, ⟨.inr rfl, trivial⟩, ⟨.inl rfl, trivial⟩, trivial⟩))

def gatewayThenTor : List Action :=
  [.enableGateway .full ⟨"eth1", "10.0.0.1", none⟩ false, .enableKillSwitch .full false 45]

/-- Switched on during gateway mode, the Tor kill switch does not refuse, and both modes
are marked active. -/
theorem not_exclusive_gateway_tor :
    ¬ ∀ w w' : World, w.saved = defaultState →
      Reached (machine anything) Action.body (fun x _ => x.OnMode) w w' →
      Exclusive w'.saved := by
  intro h
  have hcalls : Calls (machine anything) Action.body (fun x _ => x.OnMode)
      (.start Firewall.blank Firewall.blank)
      (runCalls (machine anything) goWell Action.body gatewayThenTor
        (.start Firewall.blank Firewall.blank)).1
      (runCalls (machine anything) goWell Action.body gatewayThenTor
        (.start Firewall.blank Firewall.blank)).2 :=
    calls_runCalls (fun _ _ => trivial) ⟨.inl rfl, .inl rfl, trivial⟩
  have hex := h (.start Firewall.blank Firewall.blank) _ rfl
    (.between hcalls)
  exact absurd (hex .tor .gateway (by decide +kernel) (by decide +kernel)) (by decide)

end PrivacyGuard
