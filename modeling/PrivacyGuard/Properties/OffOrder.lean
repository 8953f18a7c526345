import PrivacyGuard.Model.Undoing
import PrivacyGuard.Properties.PortscanFlag

set_option autoImplicit false

/-! # The order of switching off

A mode restores the firewalls it found, portscan protection deletes its own rules. Of two
protections the one switched on second has found what the first has made, so the order in
which they are switched off matters unless one of the two undoes nothing. -/

namespace PrivacyGuard

open Netfilter Effect

/-- Switching off by `d` and then by `e` leads from `w` to `w'`. -/
def InOrder (d e : Action) (w w' : World) : Prop :=
  ∃ b b', Calls (machine allSucceed) Action.body (fun _ _ => True) w [(d, b), (e, b')] w'

/-- Both orders lead to the same firewalls and the same saved state. -/
def SameEitherWay (d e : Action) (w : World) : Prop :=
  ∀ w₁ w₂, InOrder d e w w₁ → InOrder e d w w₂ →
    (w₁.v4.Same w₂.v4 ∧ w₁.v6.Same w₂.v6) ∧ w₁.saved.Alike w₂.saved

/-- The machine after one call in which all goes well. -/
def after (x : Action) (w : World) : World :=
  (x.body.run (machine allSucceed) goWell w).2

theorem runs_after {x : Action} {w : World} {b : Bool}
    (h : (x.body.run (machine allSucceed) goWell w).1 = b) :
    ∃ tr, Prog.Runs (machine allSucceed) x.body w tr b (after x w) :=
  Prog.runs_of_run (H := machine allSucceed) allSucceed_goWell h

theorem inOrder_after (d e : Action) (w : World) : InOrder d e w (after e (after d w)) := by
  obtain ⟨tr, hd⟩ := runs_after (x := d) (w := w) rfl
  obtain ⟨tr', he⟩ := runs_after (x := e) (w := after d w) rfl
  exact ⟨_, _, .cons trivial hd (.cons trivial he (.nil _))⟩

section

variable {d e x y : Action} {A B : Protection} {env : Environment} {w w' w₁ w₂ : World}
  {f g : Fw × Fw → Fw × Fw}

theorem InOrder.post {Q : World → Prop} (h : InOrder d e w w')
    (hwp : d.body.wp (machine allSucceed)
      (fun _ s => e.body.wp (machine allSucceed) (fun _ => Q) s) w) : Q w' := by
  obtain ⟨b, b', h⟩ := h
  cases h with
  | cons _ hd h =>
      cases h with
      | cons _ he h =>
          cases h
          exact he.post (hd.post hwp)

/-- The end state has the firewalls `F`, and the fields of `A` and then those of `B` have
been cleared. -/
def Cleared (A B : Protection) (w : World) (F : Fw × Fw) (w' : World) : Prop :=
  (w'.v4, w'.v6) = F ∧
    ∃ now now', w'.saved = (w.saved.update A.cleared now).update B.cleared now'

/-- Switching two protections off, one after the other. -/
theorem InOrder.cleared (h : InOrder d e w w') (hd : d.stops? = some A)
    (he : e.stops? = some B) (hdenv : d.env = env) (heenv : e.env = env) (hpriv : env.Privileged)
    (hne : A ≠ B) (hr : ¬ Protection.Rival A B) (hA : On env w A f) (hB : On env w B g) :
    Cleared A B w (g (f (w.v4, w.v6))) w' := by
  subst hdenv
  refine h.post (Q := Cleared A B w (g (f (w.v4, w.v6))))
    (Prog.wp_mono (Action.stopped hd hpriv hA) ?_)
  rintro _ s ⟨now, rfl⟩
  rw [← heenv] at hpriv hB
  have hB' := hB.congr (Protection.untouched_cleared hne hr w (f (w.v4, w.v6)) now)
    fun hno => hA.v6 (heenv ▸ hno) w.v4
  refine Prog.wp_mono (Action.stopped he hpriv hB') ?_
  rintro _ s' ⟨now', rfl⟩
  exact ⟨rfl, now, now', rfl⟩

/-- The same protection twice: the second call does nothing. -/
theorem sameEitherWay_self (hd : d.stops? = some A) (he : e.stops? = some A)
    (hdenv : d.env = env) (heenv : e.env = env) (hpriv : env.Privileged) (hA : On env w A f) :
    SameEitherWay d e w := by
  let E : World → Prop := fun w' => (w'.v4, w'.v6) = f (w.v4, w.v6) ∧
    ∃ now, w'.saved = w.saved.update A.cleared now
  have hend : ∀ d e : Action, d.stops? = some A → e.stops? = some A → d.env = env →
      ∀ w', InOrder d e w w' → E w' := by
    intro d e hd he hdenv w' h
    subst hdenv
    refine h.post (Prog.wp_mono (Action.stopped hd hpriv hA) ?_)
    rintro _ s ⟨now, rfl⟩
    refine Prog.wp_mono (Action.stopped_idle he (Or.inl (A.active_cleared _ _))) ?_
    rintro _ s' rfl
    exact ⟨rfl, now, rfl⟩
  intro w₁ w₂ h₁ h₂
  obtain ⟨hv, now, hs⟩ := hend d e hd he hdenv w₁ h₁
  obtain ⟨hv', now', hs'⟩ := hend e d he hd heenv w₂ h₂
  have hfw := hv.trans hv'.symm
  rw [hs, hs']
  exact ⟨⟨Firewall.same_of_eq (congrArg Prod.fst hfw), Firewall.same_of_eq (congrArg Prod.snd hfw)⟩,
    rfl⟩

/-- Otherwise the two ways of undoing have to commute. -/
theorem sameEitherWay_iff_undo (hd : d.stops? = some A) (he : e.stops? = some B)
    (hdenv : d.env = env) (heenv : e.env = env) (hpriv : env.Privileged) (hne : A ≠ B)
    (hr : ¬ Protection.Rival A B) (hr' : ¬ Protection.Rival B A) (hA : On env w A f)
    (hB : On env w B g) :
    SameEitherWay d e w ↔ (g (f (w.v4, w.v6))).1.Same (f (g (w.v4, w.v6))).1 ∧
      (g (f (w.v4, w.v6))).2.Same (f (g (w.v4, w.v6))).2 := by
  have h₁ : ∀ w', InOrder d e w w' → Cleared A B w (g (f (w.v4, w.v6))) w' := fun w' h =>
    h.cleared hd he hdenv heenv hpriv hne hr hA hB
  have h₂ : ∀ w', InOrder e d w w' → Cleared B A w (f (g (w.v4, w.v6))) w' := fun w' h =>
    h.cleared he hd heenv hdenv hpriv hne.symm hr' hB hA
  constructor
  · intro h
    have hsame := (h _ _ (inOrder_after d e w) (inOrder_after e d w)).1
    rw [← (h₁ _ (inOrder_after d e w)).1, ← (h₂ _ (inOrder_after e d w)).1]
    exact hsame
  · intro h w₁ w₂ hw₁ hw₂
    obtain ⟨hv, now, now', hs⟩ := h₁ w₁ hw₁
    obtain ⟨hv', now₁, now₁', hs'⟩ := h₂ w₂ hw₂
    rw [← hv, ← hv'] at h
    rw [hs, hs']
    exact ⟨h, cleared_comm A B _ _ _ _ _⟩

/-! ## When the two undo the same -/

/-- `x` switches one protection on, and then `y` another one; the order of switching them off
does not matter. -/
inductive OrderIrrelevant (x y : Action) (w : World) : Prop
  /-- They are the same. -/
  | same (h : x.starts? = y.starts?)
  /-- A mode, and then portscan protection, where deleting its rules from the initial
  firewall changes nothing. -/
  | portscanSecond {m : Mode} (hx : x.starts? = some (.mode m)) {env : Environment}
      {p : PortscanParams} {force : Bool} (hy : y = .enablePortscanProtection env p force)
      (h : (w.v4.perform (portscanRemoval p)).Same w.v4)
  /-- Gateway mode, whose rules and IPv6 commands have changed nothing, and then a kill
  switch. -/
  | insideGateway (hx : x.starts? = some (.mode .gateway)) {m : Mode}
      (hy : y.starts? = some (.mode m)) (h4 : (x.install false (w.v4, w.v6)).1.Same w.v4)
      (h6 : (x.install false (w.v4, w.v6)).2.Same w.v6)

/-- Deleting the rules where they are changes the INPUT chain, whatever else is in it. -/
theorem not_same_removal {p : PortscanParams} {F : Fw}
    (h : portscanJump p ∈ F.filterTable.hook .input) :
    ¬ F.Same (F.perform (portscanRemoval p)) := by
  intro hsame
  have hinput := portscanRemoval_input p F
  have hle := (List.erase_sublist (a := portscanNote)
    (l := (F.filterTable.hook .input).erase (portscanJump p))).length_le
  rw [← hinput, ← hsame.1, List.length_erase_of_mem h] at hle
  have hpos := List.length_pos_of_mem h
  omega

/-- The two ways of undoing lead to the same firewalls exactly in these cases. -/
theorem undo_comm_iff (hx : x.starts? = some A) (hy : y.starts? = some B) (hne : A ≠ B)
    (hmodes : ∀ m, B = .mode m → A = .portscan ∨ A = .mode .gateway) (v : Fw × Fw) :
    ((y.undo (x.put false (w.v4, w.v6)) (x.undo (w.v4, w.v6) v)).1.Same
        (x.undo (w.v4, w.v6) (y.undo (x.put false (w.v4, w.v6)) v)).1 ∧
      (y.undo (x.put false (w.v4, w.v6)) (x.undo (w.v4, w.v6) v)).2.Same
        (x.undo (w.v4, w.v6) (y.undo (x.put false (w.v4, w.v6)) v)).2) ↔
      OrderIrrelevant x y w := by
  cases A with
  | portscan =>
      -- portscan protection first: its rules are in the backup of the mode
      cases B with
      | portscan => exact absurd rfl hne
      | mode m =>
          obtain ⟨env, p, force, rfl⟩ := Action.of_starts_portscan hx
          rw [Action.undo_of_mode hy]
          refine iff_of_false (fun h => ?_) fun h => ?_
          · refine not_same_removal (mem_portscanJumps.mp ?_) h.1
            rw [Action.put, (portscanJumps_enable p w.v4).1]
            exact List.mem_cons_self
          · cases h with
            | same h => exact hne (Option.some.inj (hx.symm.trans (h.trans hy)))
            | portscanSecond hx' _ _ => cases hx'
            | insideGateway hx' _ _ _ => cases hx'
  | mode m =>
      rw [Action.undo_of_mode hx]
      cases B with
      | portscan =>
          obtain ⟨env, p, force, rfl⟩ := Action.of_starts_portscan hy
          refine ⟨fun h => .portscanSecond hx rfl h.1, fun h => ⟨?_, Firewall.Same.refl _⟩⟩
          cases h with
          | same h => exact absurd (Option.some.inj (hx.symm.trans (h.trans hy))) hne
          | portscanSecond _ hy' h =>
              cases hy'
              exact h
          | insideGateway _ hy' _ _ => cases hy'
      | mode m' =>
          obtain rfl : m = .gateway := by
            rcases hmodes m' rfl with h | h <;> cases h
            rfl
          rw [Action.undo_of_mode hy, Action.put_of_mode hx]
          refine ⟨fun h => .insideGateway hx hy h.1 h.2, fun h => ?_⟩
          cases h with
          | same h => exact absurd (Option.some.inj (hx.symm.trans (h.trans hy))) hne
          | portscanSecond _ hy' _ =>
              subst hy'
              cases hy
          | insideGateway _ _ h4 h6 => exact ⟨h4, h6⟩

/-- A mode that is switched on while another protection is on finds gateway mode or portscan
protection. -/
theorem gateway_of_second {s : Saved} (hne : A ≠ B) (hA : A.active s = true)
    (hfree : ∀ m, B = .mode m → m.conflict s = false) :
    ∀ m, B = .mode m → A = .portscan ∨ A = .mode .gateway := by
  rintro m rfl
  cases A with
  | portscan => exact Or.inl rfl
  | mode m' =>
      refine Or.inr (congrArg _ ?_)
      by_contra hg
      have hm : m' ≠ m := fun he => hne (he ▸ rfl)
      have hno : m'.active s = false := by
        by_cases hgm : m = .gateway
        · subst hgm
          exact others_off_of_gateway (hfree _ rfl) m' hg
        · rw [← (Opposite.of_ne hm.symm hgm hg).conflict]
          exact hfree m rfl
      exact absurd (hno.symm.trans hA) Bool.false_ne_true

end

/-- **The order of switching off does not matter** exactly if one of the two protections
undoes nothing. -/
theorem sameEitherWay_iff {A B : Protection} {x y d e : Action} {env : Environment}
    {w w₁ w₂ : World} {tr tr' : List (Event sig)} (hw : w.saved = defaultState)
    (hx : x.starts? = some A) (hy : y.starts? = some B) (hd : d.stops? = some A)
    (he : e.stops? = some B) (hforce : x.force = false ∧ y.force = false)
    (henv : ∀ z ∈ [x, y, d, e], z.env = env)
    (hrun : Prog.Runs (machine allSucceed) x.body w tr true w₁)
    (hrun' : Prog.Runs (machine allSucceed) y.body w₁ tr' true w₂) :
    SameEitherWay d e w₂ ↔ OrderIrrelevant x y w := by
  have hoff : ∀ P : Protection, P.active w.saved = false := by
    intro P
    rw [hw]
    cases P with
    | mode m => cases m <;> rfl
    | portscan => rfl
  have hxenv := henv x (by simp)
  have hyenv := henv y (by simp)
  have hdenv := henv d (by simp)
  have heenv := henv e (by simp)
  cases hrun.post (Action.started hx hforce.1) with
  | already hon => exact absurd ((hoff A).symm.trans hon) Bool.false_ne_true
  | done hpriv _ _ hput hA hactive _ =>
      rw [hxenv] at hpriv hA
      rw [show w.saved.ipv6Blocked = false by rw [hw]; rfl] at hput
      cases hrun'.post (Action.started hy hforce.2) with
      | already hon =>
          -- the second call finds its protection on: it is the first one
          obtain rfl : B = A := by
            by_contra hne
            rw [hactive B hne, hoff B] at hon
            cases hon
          exact iff_of_true (sameEitherWay_self hd he hdenv heenv hpriv hA)
            (.same (hx.trans hy.symm))
      | done _ hoffB hfree _ hB _ hothers =>
          have hne : A ≠ B := by
            rintro rfl
            exact absurd (hoffB.symm.trans hA.active) Bool.false_ne_true
          have hmodes := gateway_of_second hne hA.active hfree
          have hr : ¬ Protection.Rival A B := fun h => by
            cases h with
            | mk hopp =>
                cases (hmodes _ rfl).resolve_left nofun
                exact hopp.ne_gateway rfl
          have hr' : ¬ Protection.Rival B A := fun h => by
            cases h with
            | mk hopp =>
                cases (hmodes _ rfl).resolve_left nofun
                exact not_opposite_gateway _ hopp
          rw [hyenv] at hothers
          rw [hyenv] at hB
          rw [sameEitherWay_iff_undo hd he hdenv heenv hpriv hne hr hr' (hothers A _ hne hr' hA) hB,
            hput]
          exact undo_comm_iff hx hy hne hmodes _

/-- The Tor kill switch and portscan protection, switched on with no firewall in place. -/
def torOn : World := after (.enableKillSwitch .full false 45) (.start .blank .blank)

def portscanOn : World :=
  after (.enablePortscanProtection .full ⟨15, 60⟩ false) (.start .blank .blank)

/-- The Tor kill switch and then portscan protection may be switched off in any order. -/
theorem sameEitherWay_iff_torFirst :
    SameEitherWay (.disableKillSwitch .full) (.disablePortscanProtection .full)
      (after (.enablePortscanProtection .full ⟨15, 60⟩ false) torOn) := by
  have hfirst : ((Action.enableKillSwitch .full false 45).body.run (machine allSucceed) goWell
      (.start .blank .blank)).1 = true := by decide +kernel
  have hsecond : ((Action.enablePortscanProtection .full ⟨15, 60⟩ false).body.run
      (machine allSucceed) goWell torOn).1 = true := by decide +kernel
  obtain ⟨tr, h⟩ := runs_after hfirst
  obtain ⟨tr', h'⟩ := runs_after hsecond
  have hfree : PortscanFree (.blank : Fw) := ⟨by decide, by decide⟩
  have henv : ∀ z ∈ [Action.enableKillSwitch .full false 45,
      .enablePortscanProtection .full ⟨15, 60⟩ false, .disableKillSwitch .full,
      .disablePortscanProtection .full], z.env = .full := by
    simp only [List.mem_cons, forall_eq_or_imp]
    exact ⟨rfl, rfl, rfl, rfl, by simp⟩
  exact (sameEitherWay_iff rfl rfl rfl rfl rfl ⟨rfl, rfl⟩ henv h h').mpr
    (.portscanSecond rfl rfl (Firewall.same_of_eq (portscanRemoval_free hfree.inputFree)))

/-- Switched on in the other order, they may not: the backup of the kill switch has the
portscan rules. -/
theorem not_sameEitherWay :
    ¬ ∀ (A B : Protection) (x y d e : Action) (env : Environment) (w w₁ w₂ : World)
        (tr tr' : List (Event sig)), w.saved = defaultState → PortscanFree w.v4 →
      x.starts? = some A → y.starts? = some B → d.stops? = some A → e.stops? = some B →
      x.force = false ∧ y.force = false → (∀ z ∈ [x, y, d, e], z.env = env) →
      Prog.Runs (machine allSucceed) x.body w tr true w₁ →
      Prog.Runs (machine allSucceed) y.body w₁ tr' true w₂ → SameEitherWay d e w₂ := by
  intro hall
  have hfirst : ((Action.enablePortscanProtection .full ⟨15, 60⟩ false).body.run
      (machine allSucceed) goWell (.start .blank .blank)).1 = true := by decide +kernel
  have hsecond : ((Action.enableKillSwitch .full false 45).body.run (machine allSucceed) goWell
      portscanOn).1 = true := by decide +kernel
  obtain ⟨tr, h⟩ := runs_after hfirst
  obtain ⟨tr', h'⟩ := runs_after hsecond
  have henv : ∀ z ∈ [Action.enablePortscanProtection .full ⟨15, 60⟩ false,
      .enableKillSwitch .full false 45, .disablePortscanProtection .full,
      .disableKillSwitch .full], z.env = .full := by
    simp only [List.mem_cons, forall_eq_or_imp]
    exact ⟨rfl, rfl, rfl, rfl, by simp⟩
  have hsame := hall _ _ _ _ (.disablePortscanProtection .full) (.disableKillSwitch .full) _
    _ _ _ _ _ rfl ⟨by decide, by decide⟩ rfl rfl rfl rfl ⟨rfl, rfl⟩ henv h h'
  have htable := (hsame _ _ (inOrder_after _ _ _) (inOrder_after _ _ _)).1.1.1
  have hleft : (after (.disableKillSwitch .full) (after (.disablePortscanProtection .full)
      (after (.enableKillSwitch .full false 45) portscanOn))).v4.filterTable.hook .input ≠
      (after (.disablePortscanProtection .full) (after (.disableKillSwitch .full)
      (after (.enableKillSwitch .full false 45) portscanOn))).v4.filterTable.hook .input := by
    decide +kernel
  exact hleft (by rw [htable])

end PrivacyGuard
