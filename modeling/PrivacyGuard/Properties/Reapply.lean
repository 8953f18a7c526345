import PrivacyGuard.Model.Switching

set_option autoImplicit false

/-! # Re-applying a mode

A forced enable call takes a new backup, of the firewall the mode itself has put in place,
and records it over the old one. Switching the mode off afterwards goes back one forced call
only. So the way back to the initial firewalls stays open exactly as long as the calls that
took effect before the last one have changed nothing. -/

namespace PrivacyGuard

open Netfilter Effect

/-- Several calls that take effect. After the first, IPv6 is recorded as blocked. -/
def installAll : List Action → Bool → Fw × Fw → Fw × Fw
  | [], _, F => F
  | x :: xs, blocked, F => installAll xs true (x.install blocked F)

/-- The calls of a sequence that take effect, if the mode is not refused: the first one and
the forced ones. -/
def effective : List Action → List Action
  | [] => []
  | x :: xs => x :: xs.filter (·.force)

theorem installAll_append :
    ∀ (xs : List Action) (x : Action) (blocked : Bool) (F : Fw × Fw), xs ≠ [] →
      installAll (xs ++ [x]) blocked F = x.install true (installAll xs blocked F)
  | [], _, _, _, h => absurd rfl h
  | [_], _, _, _, _ => rfl
  | y :: z :: xs, x, blocked, F, _ =>
      installAll_append (z :: xs) x true (y.install blocked F) (List.cons_ne_nil z xs)

theorem effective_append {xs : List Action} (x : Action) (h : xs ≠ []) :
    effective (xs ++ [x]) = effective xs ++ if x.force then [x] else [] := by
  cases xs with
  | nil => exact absurd rfl h
  | cons y xs =>
      rw [List.cons_append, effective, effective, List.filter_append]
      cases hx : x.force <;> simp [hx]

theorem effective_ne_nil {xs : List Action} (h : xs ≠ []) : effective xs ≠ [] := by
  cases xs with
  | nil => exact absurd rfl h
  | cons y xs => exact List.cons_ne_nil _ _

/-- Whether IPv6 was recorded as blocked matters only where `ip6tables` exists. -/
theorem ipv6After_of_blocked {env : Environment} {blocked : Bool}
    (h : env.hasIp6tables = true → blocked = true) (lock : List (FwCommand Match)) (F6 : Fw) :
    ipv6After env lock blocked F6 = ipv6After env lock true F6 := by
  cases h6 : env.hasIp6tables with
  | false => rw [ipv6After, ipv6After, if_neg (by simp [h6]), if_neg (by simp [h6])]
  | true => rw [h h6]

section

variable {m : Mode} {env : Environment} {w w' : World} {x : Action}

/-- An enable call that takes effect. -/
theorem Action.installs (hx : x.enables? = some m) (he : m.Ready x.env)
    (hforce : m.active w.saved = true → x.force = true) (hfree : m.conflict w.saved = false) :
    x.body.wp (machine allSucceed) (fun _ w' => ∃ a : Activation m, a.commands = x.rules.map
      (·.command) ∧ a.lock = x.lock ∧ Installs a x.env w w') w := by
  refine Prog.wp_mono (Action.switchedOn hx he hforce hfree) ?_
  rintro b w' ⟨-, a, -, hrules, hlock, h⟩
  exact ⟨a, hrules, hlock, h.installs⟩

/-- Where a run stands after the calls `ys` have taken effect: the firewalls are those the
calls produce, and the backups hold those from before the last of them. -/
structure Tracked (m : Mode) (env : Environment) (ys : List Action) (w₀ w : World) : Prop where
  active : m.active w.saved = true
  free : m.conflict w.saved = false
  blocked : env.hasIp6tables = true → w.saved.ipv6Blocked = true
  now : (w.v4, w.v6) = installAll ys w₀.saved.ipv6Blocked (w₀.v4, w₀.v6)
  back : m.Holds env w (installAll ys.dropLast w₀.saved.ipv6Blocked (w₀.v4, w₀.v6)).1
    (installAll ys.dropLast w₀.saved.ipv6Blocked (w₀.v4, w₀.v6)).2

/-- The first call. -/
theorem Tracked.first (hx : x.enables? = some m) (he : m.Ready x.env)
    (hoff : m.active w.saved = false) (hfree : m.conflict w.saved = false) :
    x.body.wp (machine allSucceed) (fun _ => Tracked m x.env [x] w) w := by
  refine Prog.wp_mono (Action.installs hx he (fun hact => ?_) hfree) ?_
  · rw [hoff] at hact
    cases hact
  · rintro - w' ⟨a, hrules, hlock, h⟩
    refine ⟨h.active, ?_, h.blocked, ?_, h.holds⟩
    · rw [Mode.conflict_congr h.others, hfree]
    · rw [installAll, installAll, Action.install, ← hrules, ← hlock, h.v4, h.v6]

/-- A forced call. -/
theorem Tracked.forced {ys : List Action} {w₀ : World} (h : Tracked m x.env ys w₀ w)
    (hys : ys ≠ []) (hx : x.enables? = some m) (he : m.Ready x.env) (hforce : x.force = true) :
    x.body.wp (machine allSucceed) (fun _ => Tracked m x.env (ys ++ [x]) w₀) w := by
  refine Prog.wp_mono (Action.installs hx he (fun _ => hforce) h.free) ?_
  rintro - w' ⟨a, hrules, hlock, hi⟩
  refine ⟨hi.active, ?_, hi.blocked, ?_, ?_⟩
  · rw [Mode.conflict_congr hi.others, h.free]
  · rw [installAll_append _ _ _ _ hys, ← h.now, Action.install, ← hrules, ← hlock, hi.v4, hi.v6,
      ipv6After_of_blocked h.blocked]
  · rw [List.dropLast_concat, ← h.now]
    exact hi.holds

/-- A call without force. -/
theorem Tracked.unforced {ys : List Action} {w₀ : World} (h : Tracked m x.env ys w₀ w)
    (hx : x.enables? = some m) (hforce : x.force = false) :
    x.body.wp (machine allSucceed) (fun _ => Tracked m x.env ys w₀) w := by
  obtain ⟨a, ha⟩ := Action.of_enables hx
  refine Prog.wp_mono (ha.unchanged fun _ hf _ => ?_) fun _ w' hw' => hw' ▸ h
  rw [hforce] at hf
  cases hf h.active

/-- The enable calls of the mode, all made in the same environment. -/
def OfMode (m : Mode) (env : Environment) (x : Action) (_ : World) : Prop :=
  x.enables? = some m ∧ x.env = env

theorem tracked_of_calls (he : m.Ready env) (hoff : m.active w.saved = false)
    (hfree : m.conflict w.saved = false) (cs : List (Action × Bool)) :
    ∀ w', cs ≠ [] → Calls (machine allSucceed) Action.body (OfMode m env) w cs w' →
      Tracked m env (effective (cs.map Prod.fst)) w w' := by
  -- from the end: the last call is the one whose backup counts
  induction cs using List.reverseRecOn with
  | nil => exact fun _ h => absurd rfl h
  | append_singleton cs c ih =>
      intro w' _ h
      obtain ⟨w₁, h₁, h₂⟩ := h.of_append
      obtain ⟨x, b⟩ := c
      obtain ⟨⟨hx, rfl⟩, tr, hr⟩ := h₂.of_singleton
      by_cases hcs : cs = []
      · subst hcs
        cases h₁
        exact hr.post (Tracked.first hx he hoff hfree)
      · have htr := ih w₁ hcs h₁
        have hmap : cs.map Prod.fst ≠ [] := by simpa using hcs
        rw [List.map_append, List.map_singleton, effective_append _ hmap]
        cases hforce : x.force with
        | true => exact hr.post (htr.forced (effective_ne_nil hmap) hx he hforce)
        | false =>
            rw [if_neg (by decide), List.append_nil]
            exact hr.post (htr.unforced hx hforce)

/-- A mode that is refused stays off, and the calls change nothing. -/
theorem unchanged_of_calls (h : ¬ m.Ready env ∨ m.conflict w.saved = true)
    {cs : List (Action × Bool)}
    (hcs : Calls (machine allSucceed) Action.body (OfMode m env) w cs w') : w' = w := by
  refine hcs.invariant (I := fun w' => w' = w) (fun x s hx hs => ?_) rfl
  obtain ⟨a, ha⟩ := Action.of_enables hx.1
  subst hs
  refine ha.unchanged fun he _ hfree => ?_
  rw [hx.2] at he
  rcases h with h | h
  · exact h he
  · rw [h] at hfree
    cases hfree

end

/-- **The way back after several enable calls.** -/
theorem reapply_restores_iff {m : Mode} {env : Environment} {cs : List (Action × Bool)}
    {d : Action} {w w₁ w₂ : World} {tr : List (Event sig)} {b : Bool} (hne : cs ≠ [])
    (hoff : m.active w.saved = false)
    (hcs : Calls (machine allSucceed) Action.body (OfMode m env) w cs w₁)
    (hd : d.disables? = some m) (henv : d.env = env)
    (hrun : Prog.Runs (machine allSucceed) d.body w₁ tr b w₂) :
    (w₂.v4.Same w.v4 ∧ w₂.v6.Same w.v6) ↔
      (¬ m.Ready env ∨ m.conflict w.saved = true ∨
        let before := installAll (effective (cs.map Prod.fst)).dropLast w.saved.ipv6Blocked
          (w.v4, w.v6)
        before.1.Same w.v4 ∧ before.2.Same w.v6) := by
  obtain ⟨stop, hstop, hbody⟩ := Action.of_disables hd
  subst henv
  -- refused calls change nothing, and neither does the disable call
  by_cases hrefused : ¬ m.Ready d.env ∨ m.conflict w.saved = true
  · have hw₁ := unchanged_of_calls hrefused hcs
    subst hw₁
    have hdis : d.body.wp (machine allSucceed) (fun _ w₂ => w₂ = w₁) w₁ := by
      rw [hbody, Prog.wp_map]
      exact disableMode_wp_inactive (Or.inl hoff) rfl
    have hw₂ := hrun.post hdis
    subst hw₂
    exact ⟨fun _ => (or_assoc.mp (Or.inl hrefused)),
      fun _ => ⟨Firewall.Same.refl _, Firewall.Same.refl _⟩⟩
  · rw [not_or, not_not, Bool.not_eq_true] at hrefused
    obtain ⟨he, hfree⟩ := hrefused
    have htr := tracked_of_calls he hoff hfree cs w₁ hne hcs
    have hdis : d.body.wp (machine allSucceed) (fun _ w₂ =>
        w₂.v4 = (installAll (effective (cs.map Prod.fst)).dropLast w.saved.ipv6Blocked
          (w.v4, w.v6)).1 ∧
        w₂.v6 = (installAll (effective (cs.map Prod.fst)).dropLast w.saved.ipv6Blocked
          (w.v4, w.v6)).2) w₁ := by
      rw [hbody, Prog.wp_map]
      exact disableMode_wp_active restores_allSucceed he.privileged htr.active htr.back hstop
        fun _ => ⟨rfl, rfl⟩
    obtain ⟨h4, h6⟩ := hrun.post hdis
    rw [h4, h6]
    refine ⟨fun h => Or.inr (Or.inr h), fun h => ?_⟩
    rcases h with h | h | h
    · exact absurd he h
    · rw [hfree] at h
      cases h
    · exact h

/-- The Tor kill switch, switched on twice; `force` is that of the second call. -/
def torTwice (force : Bool) : List Action :=
  [.enableKillSwitch .full false 45, .enableKillSwitch .full force 45]

/-- The machine after the two calls, -/
def afterTorTwice (force : Bool) : World :=
  (runCalls (machine allSucceed) goWell Action.body (torTwice force)
    (.start sshServer Firewall.blank)).2

/-- and after the kill switch has been switched off again. -/
def afterTorTwiceOff (force : Bool) : World :=
  ((Action.disableKillSwitch .full).body.run (machine allSucceed) goWell (afterTorTwice force)).2

theorem calls_torTwice (force : Bool) :
    Calls (machine allSucceed) Action.body (OfMode .tor .full) (.start sshServer Firewall.blank)
      (runCalls (machine allSucceed) goWell Action.body (torTwice force)
        (.start sshServer Firewall.blank)).1 (afterTorTwice force) :=
  calls_runCalls allSucceed_goWell ⟨⟨rfl, rfl⟩, ⟨rfl, rfl⟩, trivial⟩

/-- Without force the second call is idle, and the way back stays open. -/
theorem reapply_restores_iff_unforced :
    (afterTorTwiceOff false).v4.Same sshServer ∧
      (afterTorTwiceOff false).v6.Same Firewall.blank := by
  obtain ⟨tr, hrun⟩ := Prog.runs_run (H := machine allSucceed)
    allSucceed_goWell (Action.disableKillSwitch .full).body (afterTorTwice false)
  exact (reapply_restores_iff (d := .disableKillSwitch .full) (List.cons_ne_nil _ _)
    (start_off _ _ _) (calls_torTwice false) rfl rfl hrun).mpr
    (Or.inr (Or.inr ⟨Firewall.Same.refl _, Firewall.Same.refl _⟩))

/-- Re-applied by force, the kill switch has backed up its own rules, and switching it off
leaves them in place. -/
theorem not_reapply_restores :
    ¬ ∀ (m : Mode) (env : Environment) (cs : List (Action × Bool)) (d : Action)
        (w w₁ w₂ : World) (tr : List (Event sig)) (b : Bool), cs ≠ [] →
      m.active w.saved = false →
      Calls (machine allSucceed) Action.body (OfMode m env) w cs w₁ →
      d.disables? = some m → d.env = env →
      Prog.Runs (machine allSucceed) d.body w₁ tr b w₂ →
      w₂.v4.Same w.v4 ∧ w₂.v6.Same w.v6 := by
  intro h
  obtain ⟨tr, hrun⟩ := Prog.runs_run (H := machine allSucceed)
    allSucceed_goWell (Action.disableKillSwitch .full).body (afterTorTwice true)
  have hsame := (h .tor .full _ (.disableKillSwitch .full) _ _ _ tr _ (List.cons_ne_nil _ _)
    (start_off _ _ _) (calls_torTwice true) rfl rfl hrun).1
  have hrules : (afterTorTwiceOff true).v4.filterTable.hook .input = [] := by decide +kernel
  have hssh : (afterTorTwiceOff true).v4.filterTable = sshServer.filterTable := hsame.1
  rw [hssh] at hrules
  exact absurd hrules (by decide)

end PrivacyGuard
