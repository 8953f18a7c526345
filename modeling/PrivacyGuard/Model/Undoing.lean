import PrivacyGuard.Model.Switching

set_option autoImplicit false

/-! # How the protections undo what they have done

The modes restore a whole earlier ruleset, portscan protection deletes single rules. Either
way, what switching a protection off does to the two firewalls is a function of them, fixed
when the protection is switched on (`Action.undo`), and it stays the same while other
protections are switched on and off (`On`), but for the two kill switches. -/

namespace PrivacyGuard

open Netfilter Effect

inductive Protection
  | mode (m : Mode)
  | portscan
  deriving DecidableEq, Repr

namespace Protection

def active : Protection → Saved → Bool
  | .mode m, s => m.active s
  | .portscan, s => s.portscanProtection

/-- The fields the disable function writes. -/
def cleared : Protection → List Field
  | .mode m => m.cleared
  | .portscan => portscanFields false none

theorem active_cleared (P : Protection) (s : Saved) (now : String) :
    P.active (s.update P.cleared now) = false := by
  cases P with
  | mode m => exact m.active_cleared s now
  | portscan => rfl

/-- The two are never both on: one is the one kill switch, one is the other. -/
inductive Rival : Protection → Protection → Prop
  | mk {m m' : Mode} (h : Opposite m m') : Rival (.mode m) (.mode m')

end Protection

/-- The same saved state, but for the time of the last update. -/
def Saved.Alike (s t : Saved) : Prop :=
  { s with lastUpdated := none } = { t with lastUpdated := none }

/-- Two protections write different fields, or the same values. -/
theorem cleared_comm (P Q : Protection) (s : Saved) (now now' now₁ now₁' : String) :
    ((s.update P.cleared now).update Q.cleared now').Alike
      ((s.update Q.cleared now₁).update P.cleared now₁') := by
  cases P with
  | mode m =>
      cases Q with
      | mode m' => cases m <;> cases m' <;> rfl
      | portscan => cases m <;> rfl
  | portscan =>
      cases Q with
      | mode m' => cases m' <;> rfl
      | portscan => rfl

namespace Action

/-- The protection an enable function switches on, -/
def starts? : Action → Option Protection
  | .enableKillSwitch .. => some (.mode .tor)
  | .enableProxyKillSwitch .. => some (.mode .proxyOnly)
  | .enableGateway .. => some (.mode .gateway)
  | .enablePortscanProtection .. => some .portscan
  | _ => none

/-- and the one a disable function switches off. -/
def stops? : Action → Option Protection
  | .disableKillSwitch _ => some (.mode .tor)
  | .disableProxyKillSwitch _ => some (.mode .proxyOnly)
  | .disableGateway _ => some (.mode .gateway)
  | .disablePortscanProtection _ => some .portscan
  | _ => none

/-- What switching a protection off will do to the IPv4 and the IPv6 firewall, if the call
`x` switches it on and finds the firewalls `F`. -/
def undo (x : Action) (F : Fw × Fw) : Fw × Fw → Fw × Fw :=
  match x with
  | .enablePortscanProtection _ p _ => fun G => (G.1.perform (portscanRemoval p), G.2)
  | _ => fun _ => F

/-- What the call makes of the firewalls `F`, if it switches its protection on. -/
def put (x : Action) (blocked : Bool) (F : Fw × Fw) : Fw × Fw :=
  match x with
  | .enablePortscanProtection _ p _ => (F.1.perform (portscanCommands p), F.2)
  | _ => x.install blocked F

variable {x : Action} {m : Mode}

theorem undo_of_mode (hx : x.starts? = some (.mode m)) (F : Fw × Fw) :
    x.undo F = fun _ => F := by
  cases x <;> first | rfl | cases hx

theorem put_of_mode (hx : x.starts? = some (.mode m)) (blocked : Bool) (F : Fw × Fw) :
    x.put blocked F = x.install blocked F := by
  cases x <;> first | rfl | cases hx

theorem enables_of_mode (hx : x.starts? = some (.mode m)) : x.enables? = some m := by
  cases x <;> cases hx <;> rfl

theorem of_starts_portscan (hx : x.starts? = some .portscan) :
    ∃ env p force, x = .enablePortscanProtection env p force := by
  cases x <;> cases hx
  exact ⟨_, _, _, rfl⟩

end Action

/-- The protection is on, and switching it off does `f` to the firewalls. -/
inductive On (env : Environment) (w : World) : Protection → (Fw × Fw → Fw × Fw) → Prop
  | mode {m : Mode} (hon : m.active w.saved = true) {F F6 : Fw} (hF : m.RecordsV4 w F)
      (hF6 : env.hasIp6tables = true → m.RecordsV6 w F6)
      (hno : env.hasIp6tables = false → m.backupV6 w.saved = none ∧ F6 = w.v6) :
      On env w (.mode m) fun _ => (F, F6)
  | portscan (hon : w.saved.portscanProtection = true) {p : PortscanParams}
      (hp : w.saved.portscanParams = some p) :
      On env w .portscan fun G => (G.1.perform (portscanRemoval p), G.2)

/-- What the saved state and the files say about the protection is the same in `w` and `w'`. -/
def Protection.Untouched : Protection → World → World → Prop
  | .mode m, w, w' => m.active w'.saved = m.active w.saved ∧
      m.backupV4 w'.saved = m.backupV4 w.saved ∧ m.backupV6 w'.saved = m.backupV6 w.saved ∧
      ∀ f ts, w'.files ⟨f, m.label, ts⟩ = w.files ⟨f, m.label, ts⟩
  | .portscan, w, w' => w'.saved.portscanProtection = w.saved.portscanProtection ∧
      w'.saved.portscanParams = w.saved.portscanParams

section

variable {env : Environment} {w w' : World} {P Q : Protection} {f g : Fw × Fw → Fw × Fw}

theorem On.active (h : On env w P f) : P.active w.saved = true := by
  cases h with
  | mode hon _ _ _ => exact hon
  | portscan hon _ => exact hon

/-- Without `ip6tables` the IPv6 firewall stays as it is. -/
theorem On.v6 (h : On env w P f) (h6 : env.hasIp6tables = false) (G : Fw) :
    (f (G, w.v6)).2 = w.v6 := by
  cases h with
  | mode _ _ _ hno => exact (hno h6).2
  | portscan _ _ => rfl

theorem On.congr (h : On env w P f) (hP : P.Untouched w w')
    (h6 : env.hasIp6tables = false → w'.v6 = w.v6) : On env w' P f := by
  cases h with
  | mode hon hF hF6 hno =>
      obtain ⟨hactive, hv4, hv6, hfiles⟩ := hP
      refine .mode (hactive.trans hon) (hF.congr hv4 hfiles)
        (fun has => (hF6 has).congr hv6 hfiles) fun hnone => ?_
      rw [hv6, h6 hnone]
      exact hno hnone
  | portscan hon hp => exact .portscan (hP.1.trans hon) (hP.2.trans hp)

/-! ## Switching on -/

/-- The call switches the mode on. -/
theorem SwitchedOn.on {m : Mode} {a : Activation m} (h : SwitchedOn a env w w') :
    On env w' (.mode m) fun _ => (w.v4, w.v6) := by
  refine .mode h.installs.active h.recordsV4 h.recordsV6 fun hno => ⟨?_, ?_⟩
  · obtain ⟨ts, now, s, hs, -, rfl⟩ := h
    show m.backupV6 s = none
    rw [hs.backupV6, a.backupV6]
    exact if_neg (by simp [hno])
  · rw [h.installs.v6, ipv6After, if_neg (by simp [hno])]

/-- The other protections stay as they are. -/
theorem SwitchedOn.others {m : Mode} {a : Activation m} (h : SwitchedOn a env w w')
    (ha : a.Spares) (hne : P ≠ .mode m) (hr : ¬ Protection.Rival (.mode m) P)
    (hP : On env w P f) : On env w' P f := by
  refine hP.congr ?_ fun hno => ?_
  · cases P with
    | mode m' =>
        have hm : m' ≠ m := fun he => hne (he ▸ rfl)
        obtain ⟨hv4, hv6, hfiles⟩ := h.spared ha hm
        exact ⟨h.installs.others m' hm, hv4, hv6 fun hopp => hr ⟨hopp⟩, hfiles⟩
    | portscan => exact h.portscan ha
  · rw [h.installs.v6, ipv6After, if_neg (by simp [hno])]

/-- Portscan protection touches no mode. -/
theorem On.portscan_others {m : Mode} (h : On env w (.mode m) f) (F : Fw) (on : Bool)
    (q : Option PortscanParams) (now : String) :
    On env { w with v4 := F, saved := w.saved.update (portscanFields on q) now } (.mode m) f :=
  h.congr ⟨m.active_update_portscan _ _ _ _, m.backupV4_update_portscan _ _ _ _,
    m.backupV6_update_portscan _ _ _ _, fun _ _ => rfl⟩ fun _ => rfl

/-- **What an unforced call that switches a protection on can do.** -/
inductive Started (x : Action) (P : Protection) (w : World) : Bool → World → Prop
  | declined : Started x P w false w
  | already (hon : P.active w.saved = true) : Started x P w true w
  | done {w' : World} (he : x.env.Privileged) (hoff : P.active w.saved = false)
      (hfree : ∀ m, P = .mode m → m.conflict w.saved = false)
      (hput : (w'.v4, w'.v6) = x.put w.saved.ipv6Blocked (w.v4, w.v6))
      (hon : On x.env w' P (x.undo (w.v4, w.v6)))
      (hactive : ∀ Q, Q ≠ P → Q.active w'.saved = Q.active w.saved)
      (hothers : ∀ Q f, Q ≠ P → ¬ Protection.Rival P Q → On x.env w Q f → On x.env w' Q f) :
      Started x P w true w'

theorem Started.of_mode {x : Action} {m : Mode} {b : Bool} (hx : x.starts? = some (.mode m))
    (h : Action.Enabled x m w b w') : Started x (.mode m) w b w' := by
  cases h with
  | declined => exact .declined
  | already hon => exact .already hon
  | switchedOn he hoff hfree a ha hrules hlock h =>
      refine .done he.privileged hoff (fun m' hm' => ?_) ?_ ?_ (fun Q hne => ?_)
        fun Q f hne hr hQ => h.others ha hne hr hQ
      · cases hm'
        exact hfree
      · rw [Action.put_of_mode hx, Action.install, h.installs.v4, h.installs.v6, hrules, hlock]
      · rw [Action.undo_of_mode hx]
        exact h.on
      · cases Q with
        | mode m' => exact h.installs.others m' fun he => hne (he ▸ rfl)
        | portscan => exact (h.portscan ha).1

theorem Action.started {x : Action} (hx : x.starts? = some P) (hforce : x.force = false) :
    x.body.wp (machine allSucceed) (Started x P w) w := by
  cases P with
  | mode m =>
      exact Prog.wp_mono (Action.enabled (enables_of_mode hx) hforce) fun _ _ h => .of_mode hx h
  | portscan =>
      obtain ⟨env, p, force, rfl⟩ := of_starts_portscan hx
      cases hforce
      refine Prog.wp_mono (enablePortscanProtection_wp env p w) fun b w' h => ?_
      cases h with
      | declined => exact .declined
      | already hon => exact .already hon
      | done he hoff now =>
          refine .done he hoff nofun rfl (.portscan rfl rfl) (fun Q hne => ?_)
            fun Q f hne _ hQ => ?_
          · cases Q with
            | mode m => exact m.active_update_portscan _ _ _ _
            | portscan => exact absurd rfl hne
          · cases Q with
            | mode m => exact hQ.portscan_others _ _ _ _
            | portscan => exact absurd rfl hne

/-! ## Switching off -/

theorem Protection.untouched_cleared (hne : P ≠ Q) (hr : ¬ Rival P Q) (w : World) (G : Fw × Fw)
    (now : String) : Q.Untouched w
      { w with v4 := G.1, v6 := G.2, saved := w.saved.update P.cleared now } := by
  cases P with
  | mode m =>
      cases Q with
      | mode m' =>
          have hm : m' ≠ m := fun he => hne (he ▸ rfl)
          exact ⟨Mode.active_cleared_of_ne m _ _ hm, Mode.backupV4_cleared_of_ne m _ _ hm,
            Mode.backupV6_cleared_of_ne _ _ hm fun hopp => hr ⟨hopp⟩, fun _ _ => rfl⟩
      | portscan => exact m.portscan_cleared w.saved now
  | portscan =>
      cases Q with
      | mode m' => exact ⟨m'.active_update_portscan _ _ _ _, m'.backupV4_update_portscan _ _ _ _,
          m'.backupV6_update_portscan _ _ _ _, fun _ _ => rfl⟩
      | portscan => exact absurd rfl hne

/-- **What switching a protection off does.** -/
theorem Action.stopped {d : Action} (hd : d.stops? = some P) (he : d.env.Privileged)
    (hP : On d.env w P f) : d.body.wp (machine allSucceed) (fun _ w' => ∃ now, w' = { w with
      v4 := (f (w.v4, w.v6)).1
      v6 := (f (w.v4, w.v6)).2
      saved := w.saved.update P.cleared now }) w := by
  cases hP with
  | @mode m hon F F6 hF hF6 hno =>
      have hdis : d.disables? = some m := by
        cases d <;> cases hd <;> rfl
      have hholds : m.Holds d.env w F F6 := by
        cases h6 : d.env.hasIp6tables with
        | true => exact hF.holds (hF6 h6)
        | false =>
            obtain ⟨ts, hp, hfile⟩ := hF
            exact ⟨⟨_, hp, hfile⟩, Or.inr ⟨(hno h6).1, h6, (hno h6).2.symm⟩⟩
      refine Prog.wp_mono (Action.disabled restores_allSucceed hdis hon hholds) ?_
      rintro _ w' (⟨hn, -⟩ | ⟨-, now, rfl⟩)
      · exact absurd he hn
      · exact ⟨now, rfl⟩
  | portscan hon hp =>
      cases d with
      | disablePortscanProtection env =>
          rw [Action.body, Prog.wp_map]
          refine Prog.wp_mono (disablePortscanProtection_wp env w) fun _ w' hw' => ?_
          cases hw' with
          | idle h =>
              rcases h with hoff | hn
              · rw [hon] at hoff
                cases hoff
              · exact absurd he hn
          | done _ _ now =>
              rw [hp]
              exact ⟨now, rfl⟩
      | _ => cases hd

/-- A protection that is off is not switched off again. -/
theorem Action.stopped_idle {d : Action} (hd : d.stops? = some P)
    (hoff : P.active w.saved = false ∨ ¬ d.env.Privileged) :
    d.body.wp (machine allSucceed) (fun _ w' => w' = w) w := by
  cases P with
  | mode m =>
      have hdis : d.disables? = some m := by
        cases d <;> cases hd <;> rfl
      exact Action.disabled_idle hdis hoff
  | portscan =>
      cases d with
      | disablePortscanProtection env =>
          rw [Action.body, Prog.wp_map]
          refine Prog.wp_mono (disablePortscanProtection_wp env w) fun _ w' hw' => ?_
          cases hw' with
          | idle _ => rfl
          | done he hon _ =>
              rcases hoff with hoff | hn
              · exact absurd (hoff.symm.trans hon) Bool.false_ne_true
              · exact absurd he hn
      | _ => cases hd

end

end PrivacyGuard
