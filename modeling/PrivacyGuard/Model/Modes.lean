import PrivacyGuard.Model.Ipv6

set_option autoImplicit false

/-! # The three network modes

The Tor kill switch, the proxy-only kill switch and gateway mode are switched on and off by
functions of the same shape: check the prerequisites, the mode's own flag and the flags of
the modes it conflicts with; replace the firewall through `apply_ruleset`; record the mode
and its backups in the saved state; block IPv6. `Mode` names what distinguishes the three
in the saved state, an `Activation` what one particular call puts in place, and `Enable`
and `Disable` say what a call of the two functions can do to the machine. The modules of
the three functions prove that the functions do no more than this.
-/

namespace PrivacyGuard

open Netfilter Effect

inductive Mode
  | tor
  | proxyOnly
  | gateway
  deriving DecidableEq, Repr

namespace Mode

/-- The mode's own flag. -/
def active : Mode → Saved → Bool
  | .tor, s => s.torKillSwitch
  | .proxyOnly, s => s.proxyOnlyKillSwitch
  | .gateway, s => s.gatewayModeActive

/-- The field that records the IPv4 backup. -/
def backupV4 : Mode → Saved → Option BackupPath
  | .tor, s => s.iptablesBackup
  | .proxyOnly, s => s.natIptablesBackup
  | .gateway, s => s.gatewayIptablesBackup

/-- The field that records the IPv6 backup; the two kill switches share one. -/
def backupV6 : Mode → Saved → Option BackupPath
  | .tor, s => s.ip6tablesBackup
  | .proxyOnly, s => s.ip6tablesBackup
  | .gateway, s => s.gatewayIp6tablesBackup

def label : Mode → String
  | .tor => "pre-tor-killswitch"
  | .proxyOnly => "pre-proxy-killswitch"
  | .gateway => "pre-gateway-mode"

/-- The flags on which the mode's enable function refuses to go on. -/
def conflict : Mode → Saved → Bool
  | .tor, s => s.proxyOnlyKillSwitch
  | .proxyOnly, s => s.torKillSwitch
  | .gateway, s => s.torKillSwitch || s.proxyOnlyKillSwitch

/-- The fields the mode's disable function writes. -/
def cleared : Mode → List Field
  | .tor => [.torKillSwitch false, .ipv6Blocked false, .iptablesBackup none,
      .ip6tablesBackup none]
  | .proxyOnly => [.proxyOnlyKillSwitch false, .ipv6Blocked false, .natIptablesBackup none,
      .ip6tablesBackup none, .activeProxy none]
  | .gateway => [.gatewayModeActive false, .ipv6Blocked false, .gatewayIptablesBackup none,
      .gatewayIp6tablesBackup none, .gatewayConfig none]

variable (m : Mode) (s : Saved) (now : String)

@[simp] theorem active_update_ipv6 (b : Bool) :
    m.active (s.update [.ipv6Blocked b] now) = m.active s := by
  cases m <;> rfl

@[simp] theorem backupV4_update_ipv6 (b : Bool) :
    m.backupV4 (s.update [.ipv6Blocked b] now) = m.backupV4 s := by
  cases m <;> rfl

@[simp] theorem backupV6_update_ipv6 (b : Bool) :
    m.backupV6 (s.update [.ipv6Blocked b] now) = m.backupV6 s := by
  cases m <;> rfl

@[simp] theorem active_cleared : m.active (s.update m.cleared now) = false := by
  cases m <;> rfl

theorem active_cleared_of_ne {m' : Mode} (h : m' ≠ m) :
    m'.active (s.update m.cleared now) = m'.active s := by
  cases m <;> cases m' <;> first | rfl | exact absurd rfl h

theorem backupV4_cleared_of_ne {m' : Mode} (h : m' ≠ m) :
    m'.backupV4 (s.update m.cleared now) = m'.backupV4 s := by
  cases m <;> cases m' <;> first | rfl | exact absurd rfl h

end Mode

/-- A gateway conflicts with both kill switches. -/
theorem others_off_of_gateway {s : Saved} (h : Mode.gateway.conflict s = false) (m' : Mode)
    (hm' : m' ≠ .gateway) : m'.active s = false := by
  have h' : s.torKillSwitch = false ∧ s.proxyOnlyKillSwitch = false := by
    simpa [Mode.conflict] using h
  cases m' with
  | tor => exact h'.1
  | proxyOnly => exact h'.2
  | gateway => exact absurd rfl hm'

/-- The flags a mode conflicts with are those of other modes. -/
theorem Mode.conflict_congr {m : Mode} {s t : Saved}
    (h : ∀ m' : Mode, m' ≠ m → m'.active t = m'.active s) : m.conflict t = m.conflict s := by
  cases m with
  | tor => exact h .proxyOnly (by decide)
  | proxyOnly => exact h .tor (by decide)
  | gateway =>
      have ht : t.torKillSwitch = s.torKillSwitch := h .tor (by decide)
      have hp : t.proxyOnlyKillSwitch = s.proxyOnlyKillSwitch := h .proxyOnly (by decide)
      rw [Mode.conflict, Mode.conflict, ht, hp]

/-- One of the two kill switches, and the other one. -/
inductive Opposite : Mode → Mode → Prop
  | tor : Opposite .tor .proxyOnly
  | proxyOnly : Opposite .proxyOnly .tor

theorem Opposite.ne {m m' : Mode} (h : Opposite m m') : m ≠ m' := by
  cases h <;> exact Mode.noConfusion

theorem Opposite.ne_gateway {m m' : Mode} (h : Opposite m m') : m ≠ .gateway := by
  cases h <;> exact Mode.noConfusion

/-- There is no third kill switch. -/
theorem Opposite.eq_of_ne {m m' n : Mode} (h : Opposite m m') (hg : n ≠ .gateway)
    (hn : n ≠ m) : n = m' := by
  cases h <;> cases n <;> first | rfl | contradiction

/-- A kill switch conflicts with the other one. -/
theorem Opposite.conflict {m m' : Mode} (h : Opposite m m') (s : Saved) :
    m.conflict s = m'.active s := by
  cases h <;> rfl

theorem Opposite.of_ne {m m' : Mode} (h : m ≠ m') (hg : m ≠ .gateway) (hg' : m' ≠ .gateway) :
    Opposite m m' := by
  cases m <;> cases m' <;> first | constructor | contradiction

theorem not_opposite_gateway (m : Mode) : ¬ Opposite m .gateway := fun h => nomatch h

theorem Mode.cleared_ipv6Blocked (m : Mode) (s : Saved) (now : String) :
    (s.update m.cleared now).ipv6Blocked = false := by
  cases m <;> rfl

/-- Only the other kill switch loses its IPv6 record when a mode is switched off. -/
theorem Mode.backupV6_cleared_of_ne {m m' : Mode} (s : Saved) (now : String) (h : m' ≠ m)
    (hopp : ¬ Opposite m m') : m'.backupV6 (s.update m.cleared now) = m'.backupV6 s := by
  cases m with
  | tor =>
      cases m' with
      | tor => exact absurd rfl h
      | proxyOnly => exact absurd .tor hopp
      | gateway => rfl
  | proxyOnly =>
      cases m' with
      | tor => exact absurd .proxyOnly hopp
      | proxyOnly => exact absurd rfl h
      | gateway => rfl
  | gateway =>
      cases m' with
      | tor => rfl
      | proxyOnly => rfl
      | gateway => exact absurd rfl h

/-- What one call of the enable function of `m` puts in place: its rule list, the messages
tolerated in it, its own commands on the IPv6 firewall, and the fields it writes. -/
structure Activation (m : Mode) where
  rules : List Invocation
  tolerate : List String
  lock : List (FwCommand Match)
  fields : Backups → List Field
  rules_v4 : ∀ r ∈ rules, r.tool = .v4
  active : ∀ (b : Backups) (s : Saved) now, m.active (s.update (fields b) now) = true
  backupV4 : ∀ (b : Backups) (s : Saved) now, m.backupV4 (s.update (fields b) now) = b.ipv4
  backupV6 : ∀ (b : Backups) (s : Saved) now, m.backupV6 (s.update (fields b) now) = b.ipv6
  other : ∀ (b : Backups) (s : Saved) now (m' : Mode), m' ≠ m →
    m'.active (s.update (fields b) now) = m'.active s
  ipv6Blocked : ∀ (b : Backups) (s : Saved) now,
    (s.update (fields b) now).ipv6Blocked = s.ipv6Blocked

namespace Activation

variable {m : Mode} (a : Activation m)

def commands : List (FwCommand Match) := a.rules.map (·.command)

/-- What follows a successful `apply_ruleset`: the mode is recorded, IPv6 is blocked. -/
def finish (env : Environment) (b : Backups) : Proc Bool := do
  lockIpv6 env a.lock
  update (a.fields b)
  let _ ← blockIpv6 env
  return true

/-- A rule may be passed over when some message is tolerated. -/
def skip : FwCommand Match → Fw → Prop := fun _ _ => a.tolerate ≠ []

theorem skips (A : Op → Choice → World → Prop) : Skips A a.tolerate a.skip := by
  intro cmd w e _ htol hnil
  rw [hnil] at htol
  cases htol

/-- With nothing tolerated, no rule is passed over. -/
theorem applied_noSkip {cs : List (FwCommand Match)} {F G : Fw} (ha : a.tolerate = [])
    (h : Firewall.Applied a.skip cs F G) : Firewall.Applied Firewall.noSkip cs F G :=
  h.mono fun _ _ hs => hs ha

end Activation

theorem BlockRecorded.active {s₁ s : Saved} (h : BlockRecorded s₁ s) (m : Mode) :
    m.active s = m.active s₁ := by
  rcases h with rfl | ⟨now, rfl⟩
  · rfl
  · exact m.active_update_ipv6 s₁ now true

theorem BlockRecorded.backupV4 {s₁ s : Saved} (h : BlockRecorded s₁ s) (m : Mode) :
    m.backupV4 s = m.backupV4 s₁ := by
  rcases h with rfl | ⟨now, rfl⟩
  · rfl
  · exact m.backupV4_update_ipv6 s₁ now true

theorem BlockRecorded.backupV6 {s₁ s : Saved} (h : BlockRecorded s₁ s) (m : Mode) :
    m.backupV6 s = m.backupV6 s₁ := by
  rcases h with rfl | ⟨now, rfl⟩
  · rfl
  · exact m.backupV6_update_ipv6 s₁ now true

/-- The end of an enable function changes the IPv6 firewall and the saved state. -/
theorem Activation.finish_along {m : Mode} {a : Activation m} {env : Environment}
    {A : Op → Choice → World → Prop} {I : World → Prop} {Q : Bool → World → Prop} {w : World}
    {b : Backups}
    (hI : ∀ F6, (env.hasIp6tables = false → F6 = w.v6) → I { w with v6 := F6 })
    (h : ∀ now F6 s, (env.hasIp6tables = false → F6 = w.v6) →
      BlockRecorded (w.saved.update (a.fields b) now) s →
      I { w with v6 := F6, saved := s } ∧ Q true { w with v6 := F6, saved := s }) :
    (a.finish env b).along (machine A) I Q w := by
  rw [Activation.finish, Prog.along_bind]
  refine lockIpv6_along fun G6 hG6 => ⟨hI G6 hG6, ?_⟩
  rw [Prog.along_bind]
  refine along_update (hI G6 hG6) fun now => ⟨(h now G6 _ hG6 (Or.inl rfl)).1, ?_⟩
  rw [Prog.along_bind]
  refine blockIpv6_along fun _ F6 s hF6 hs => ?_
  have hdone := h now F6 s (fun hno => (hF6 hno).trans (hG6 hno)) hs
  exact ⟨hdone.1, hdone⟩

theorem Activation.finish_all {m : Mode} (a : Activation m) {env : Environment} {b : Backups}
    {P : Op → Prop} (hload : P .load) (hfields : P (.update (a.fields b)))
    (hblocked : P (.update [.ipv6Blocked true])) (hcmd : ∀ c, P (.iptables .v6 c)) :
    (a.finish env b).all P := by
  rw [Activation.finish]
  refine Prog.all_bind ?_ fun _ => ?_
  · exact Prog.all_ite (runAll_all _ fun c _ => hcmd c) (Prog.all_pure _)
  refine Prog.all_bind ((Prog.all_op _).mpr hfields) fun _ => ?_
  exact Prog.all_bind (blockIpv6_all hload hblocked hcmd) fun _ => Prog.all_pure _

/-- The prerequisites of the mode, apart from what the world answers to its probes. -/
structure Mode.Ready (m : Mode) (env : Environment) : Prop where
  privileged : env.Privileged
  hasTor : m ≠ .proxyOnly → env.hasTor = true

theorem Mode.not_ready_of_termux {m : Mode} {env : Environment} (h : env.termux = true) :
    ¬ m.Ready env := by
  intro hr
  rw [hr.privileged.termux] at h
  cases h

theorem Mode.not_ready_of_root {m : Mode} {env : Environment}
    (h : (!env.root || !env.hasIptables) = true) : ¬ m.Ready env := by
  intro hr
  rw [hr.privileged.root, hr.privileged.hasIptables] at h
  cases h

/-- The questions on whose answer an enable function may decline. -/
def External.IsProbe : External → Prop
  | .have_ cmd => cmd = "redsocks"
  | .checkTorActive | .proxyReachable _ _ => True
  | _ => False

/-- The reasons for which an enable function declines. -/
inductive Mode.Declines (m : Mode) (A : Op → Choice → World → Prop) (env : Environment)
    (w : World) : Prop
  | unready (h : ¬ m.Ready env)
  | conflict (h : m.conflict w.saved = true)
  | probe (e : External) (he : e.IsProbe) (c : Choice) (hc : A (.external e) c w)
      (hno : c.ok = false)

/-- **The course of an enable function**, as a proof rule. A call may decline before it
touches anything; otherwise it calls `apply_ruleset` (`R` says what that leaves) and, if that
succeeds, ends with `finish`. If `I` holds in the states this passes through, it holds along
the call. -/
def Follows {m : Mode} (a : Activation m) (env : Environment) (force : Bool)
    (p : Proc Bool) : Prop :=
  ∀ (A : Op → Choice → World → Prop) (I : World → Prop) (R : Bool × Backups → World → Prop)
    (Q : Bool → World → Prop) (w : World),
    I w → (m.Declines A env w → Q false w) →
    (m.active w.saved = true → force = false → Q true w) →
    (m.Ready env → (m.active w.saved = true → force = true) → m.conflict w.saved = false →
      (applyRuleset env a.rules m.label a.tolerate).along (machine A) I R w) →
    (∀ b w', R (false, b) w' → Q false w') →
    (∀ b w', R (true, b) w' → (a.finish env b).along (machine A) I Q w') →
    p.along (machine A) I Q w

/-- The check of the mode's own flag has been passed. -/
theorem forced_of_guard {on force : Bool} (h : ¬ (on && !force) = true) (hon : on = true) :
    force = true := by
  simpa [hon] using h

/-- The guards that every enable function begins with. -/
theorem Mode.guards_along {m : Mode} {env : Environment} {A : Op → Choice → World → Prop}
    {I : World → Prop} {Q : Bool → World → Prop} {w : World} {p : Proc Bool} (hI : I w)
    (hdeclined : m.Declines A env w → Q false w)
    (hgo : env.Privileged → p.along (machine A) I Q w) :
    (if env.termux then pure false
      else if !env.root || !env.hasIptables then pure false else p).along (machine A) I Q w := by
  split
  · rename_i ht
    exact ⟨hI, hdeclined (.unready (Mode.not_ready_of_termux ht))⟩
  rename_i ht
  split
  · rename_i hr
    exact ⟨hI, hdeclined (.unready (Mode.not_ready_of_root hr))⟩
  rename_i hr
  exact hgo (Environment.privileged_of_guards ht hr)

/-- The guard of those that need Tor. -/
theorem Mode.torGuard_along {m : Mode} (hm : m ≠ .proxyOnly) {env : Environment}
    {A : Op → Choice → World → Prop} {I : World → Prop} {Q : Bool → World → Prop} {w : World}
    {p : Proc Bool} (hI : I w) (he : env.Privileged) (hdeclined : m.Declines A env w → Q false w)
    (hgo : m.Ready env → p.along (machine A) I Q w) :
    (if !env.hasTor then pure false else p).along (machine A) I Q w := by
  split
  · rename_i htor
    refine ⟨hI, hdeclined (.unready fun hready => ?_)⟩
    rw [hready.hasTor hm] at htor
    cases htor
  rename_i htor
  exact hgo ⟨he, fun _ => by simpa using htor⟩

/-- What an enable function asks the saved state: whether the mode is on already, and whether one
is on that excludes it. -/
theorem Mode.flags_along {m : Mode} {env : Environment} {force : Bool}
    {A : Op → Choice → World → Prop} {I : World → Prop} {Q : Bool → World → Prop} {w : World}
    {p : Proc Bool} (hI : I w) (hdeclined : m.Declines A env w → Q false w)
    (halready : m.active w.saved = true → force = false → Q true w)
    (hgo : (m.active w.saved = true → force = true) → m.conflict w.saved = false →
      p.along (machine A) I Q w) :
    (load >>= fun st => if m.active st && !force then pure true
      else if m.conflict st then pure false else p).along (machine A) I Q w := by
  rw [Prog.along_bind]
  refine along_load hI ?_
  split
  · rename_i hact
    simp only [Bool.and_eq_true, Bool.not_eq_true'] at hact
    exact ⟨hI, halready hact.1 hact.2⟩
  rename_i hact
  split
  · rename_i hconf
    exact ⟨hI, hdeclined (.conflict hconf)⟩
  rename_i hconf
  exact hgo (forced_of_guard hact) (Bool.eq_false_iff.mpr hconf)

/-- The part of an enable function from `apply_ruleset` on. -/
theorem Activation.apply_along {m : Mode} {a : Activation m} {env : Environment}
    {A : Op → Choice → World → Prop} {I : World → Prop} {R : Bool × Backups → World → Prop}
    {Q : Bool → World → Prop} {w : World} {f : Bool × Backups → Proc Bool}
    (hfail : ∀ b, f (false, b) = pure false) (hok : ∀ b, f (true, b) = a.finish env b)
    (happly : (applyRuleset env a.rules m.label a.tolerate).along (machine A) I R w)
    (hrefused : ∀ b w', R (false, b) w' → Q false w')
    (hfinish : ∀ b w', R (true, b) w' → (a.finish env b).along (machine A) I Q w') :
    (applyRuleset env a.rules m.label a.tolerate >>= f).along (machine A) I Q w := by
  rw [Prog.along_bind]
  refine Prog.along_mono (Prog.along_and_holds happly) (fun _ h => h) ?_
  rintro ⟨ok, b⟩ w' ⟨hw', hR⟩
  cases ok with
  | false =>
      rw [hfail]
      exact ⟨hw', hrefused b w' hR⟩
  | true =>
      rw [hok]
      exact hfinish b w' hR

/-- **What a call of an enable function can do**, when saving and restoring work. -/
inductive Enable {m : Mode} (a : Activation m) (env : Environment) (force : Bool) (w : World) :
    Bool → World → Prop
  /-- A prerequisite is missing, a conflicting mode is on, or Tor or the proxy is down. -/
  | declined : Enable a env force w false w
  | already (h : m.active w.saved = true) (hf : force = false) : Enable a env force w true w
  | rolledBack (he : m.Ready env) (hforce : m.active w.saved = true → force = true)
      (hfree : m.conflict w.saved = false) (ts : String) :
      Enable a env force w false (w.backUp env m.label ts)
  | applied (he : m.Ready env) (hforce : m.active w.saved = true → force = true)
      (hfree : m.conflict w.saved = false) (ts now : String) (F F6 : Fw) (s : Saved)
      (hF : Firewall.Applied a.skip a.commands w.v4 F)
      (hF6 : env.hasIp6tables = false → F6 = w.v6)
      (hs : BlockRecorded (w.saved.update (a.fields (backupPaths env m.label ts)) now) s) :
      Enable a env force w true
        { w.backUp env m.label ts with v4 := F, v6 := F6, saved := s }

/-- Without force, a mode is switched on only when it is off. -/
theorem Mode.off_of_unforced {m : Mode} {s : Saved} (h : m.active s = true → false = true) :
    m.active s = false :=
  Bool.eq_false_iff.mpr fun hon => Bool.false_ne_true (h hon)

/-- The backups the saved state records for `m` hold the firewalls `F` and `F6`. Without
`ip6tables` there is no IPv6 backup, and nothing has touched the IPv6 firewall. -/
structure Mode.Holds (m : Mode) (env : Environment) (w : World) (F F6 : Fw) : Prop where
  v4 : ∃ p, m.backupV4 w.saved = some p ∧ w.files p = some F
  v6 : (∃ q, m.backupV6 w.saved = some q ∧ w.files q = some F6) ∨
    (m.backupV6 w.saved = none ∧ env.hasIp6tables = false ∧ w.v6 = F6)

theorem Mode.Holds.congr {m : Mode} {env env' : Environment} {w : World} {F F6 : Fw}
    (h : m.Holds env w F F6) (henv : env.hasIp6tables = env'.hasIp6tables) :
    m.Holds env' w F F6 :=
  ⟨h.v4, by rw [← henv]; exact h.v6⟩

theorem Mode.Holds.recorded {m : Mode} {env : Environment} {w : World} {F F6 : Fw}
    (h : m.Holds env w F F6) (h6 : env.hasIp6tables = true) :
    (∃ p, m.backupV4 w.saved = some p ∧ w.files p = some F) ∧
      ∃ q, m.backupV6 w.saved = some q ∧ w.files q = some F6 := by
  refine ⟨h.v4, h.v6.resolve_right fun hno => ?_⟩
  rw [h6] at hno
  cases hno.2.1

/-- A freshly enabled mode records backups of the firewalls it replaced. -/
theorem Enable.holds {m : Mode} {a : Activation m} {env : Environment} {w : World}
    {ts now : String} {F F6 : Fw} {s : Saved} (hF6 : env.hasIp6tables = false → F6 = w.v6)
    (hs : BlockRecorded (w.saved.update (a.fields (backupPaths env m.label ts)) now) s) :
    m.Holds env { w.backUp env m.label ts with v4 := F, v6 := F6, saved := s } w.v4 w.v6 where
  v4 := by
    refine ⟨⟨.v4, m.label, ts⟩, ?_, World.backUp_files_v4 w env m.label ts⟩
    show m.backupV4 s = _
    rw [hs.backupV4, a.backupV4]
    rfl
  v6 := by
    show (∃ q, m.backupV6 s = some q ∧ _) ∨ (m.backupV6 s = none ∧ _ ∧ F6 = w.v6)
    rw [hs.backupV6, a.backupV6]
    by_cases h6 : env.hasIp6tables
    · exact Or.inl ⟨_, by simp [backupPaths, h6], World.backUp_files_v6 w env m.label ts h6⟩
    · exact Or.inr ⟨by simp [backupPaths, h6], by simpa using h6, hF6 (by simpa using h6)⟩

/-- A function that follows the course does no more than `Enable` allows. -/
theorem Follows.enable {m : Mode} {a : Activation m} {env : Environment} {force : Bool}
    {p : Proc Bool} (hp : Follows a env force p) {A : Op → Choice → World → Prop}
    (hS : Saves A) (hR : Restores A) (w : World) :
    p.wp (machine A) (Enable a env force w) w := by
  let R : Bool × Backups → World → Prop := fun r w' =>
    ApplyRuleset env a.rules m.label a.skip w r w' ∧ m.Ready env ∧
      (m.active w.saved = true → force = true) ∧ m.conflict w.saved = false
  refine Prog.wp_of_along (hp A (fun _ => True) R (Enable a env force w) w trivial
    (fun _ => .declined) .already (fun he hforce hfree => ?_) ?_ ?_)
  · refine Prog.along_of_wp (Prog.wp_mono
      (applyRuleset_wp hS hR he.privileged (a.skips A) a.rules_v4) ?_)
    exact fun r w' h => ⟨h, he, hforce, hfree⟩
  · rintro b w' ⟨happ, he, hforce, hfree⟩
    cases happ with
    | rolledBack ts => exact .rolledBack he hforce hfree ts
  · rintro b w' ⟨happ, he, hforce, hfree⟩
    refine Activation.finish_along (fun _ _ => trivial) fun now F6 s hF6 hs => ?_
    cases happ with
    | applied ts F hF =>
        rw [World.backUp_v6] at hF6
        rw [World.backUp_saved] at hs
        exact ⟨trivial, .applied he hforce hfree ts now F F6 s hF hF6 hs⟩

/-- A call that answers yes and did not find the mode on has applied its rules, whatever
failed besides. -/
theorem Follows.applied_skip {m : Mode} {a : Activation m} {env : Environment} {force : Bool}
    {p : Proc Bool} (hp : Follows a env force p) {A : Op → Choice → World → Prop} {w : World}
    {skip : FwCommand Match → Fw → Prop} (hskip : Skips A a.tolerate skip)
    (hforce : m.active w.saved = true → force = true) :
    p.wp (machine A)
      (fun b w' => b = true → Firewall.Applied skip a.commands w.v4 w'.v4) w := by
  refine Prog.wp_of_along (hp A (fun _ => True)
    (fun r w' => r.1 = true → Firewall.Applied skip a.commands w.v4 w'.v4) _ w trivial
    (fun _ h => (nomatch h)) (fun hact hf => ?_) (fun _ _ _ => Prog.along_of_wp ?_)
    (fun _ _ _ h => (nomatch h)) fun b w' hw' => ?_)
  · rw [hforce hact] at hf
    cases hf
  · have hB : (backupRules env m.label).wp (machine A) (fun _ w' => w'.v4 = w.v4) w :=
      Prog.wp_of_all (backupRules_changes env m.label)
        (fun o c s ho _ hs => (exec_fw_of_not_changes ho c s).1.trans hs) rfl
    refine applyRuleset_wp_success hB hskip a.rules_v4 (fun _ _ h => (nomatch h)) ?_
    intro b w' hw' F hF _
    rwa [hw'] at hF
  · exact Activation.finish_along (fun _ _ => trivial) fun _ _ _ _ _ =>
      ⟨trivial, fun _ => hw' rfl⟩

/-- Without tolerated messages, it has applied all of them. -/
theorem Follows.applied {m : Mode} {a : Activation m} {env : Environment} {force : Bool}
    {p : Proc Bool} (hp : Follows a env force p) (ha : a.tolerate = [])
    {A : Op → Choice → World → Prop} {w : World}
    (hforce : m.active w.saved = true → force = true) :
    p.wp (machine A)
      (fun b w' => b = true → Firewall.Applied Firewall.noSkip a.commands w.v4 w'.v4) w :=
  Prog.wp_mono (hp.applied_skip (a.skips A) hforce) fun _ _ h hb => a.applied_noSkip ha (h hb)

/-- A property of the saved state that recording the mode keeps holds all along. -/
theorem Follows.along_saved {m : Mode} {a : Activation m} {env : Environment} {force : Bool}
    {p : Proc Bool} (hp : Follows a env force p) {A : Op → Choice → World → Prop} {w : World}
    {P : Saved → Prop} (hw : P w.saved)
    (hset : m.Ready env → m.conflict w.saved = false → ∀ b now s,
      BlockRecorded (w.saved.update (a.fields b) now) s → P s) :
    p.along (machine A) (fun w' => P w'.saved) (fun _ w' => P w'.saved) w := by
  let R : Bool × Backups → World → Prop := fun _ w' =>
    w'.saved = w.saved ∧ m.Ready env ∧ m.conflict w.saved = false
  have hkept : ∀ w' : World, w'.saved = w.saved → P w'.saved := by
    intro w' h
    rw [h]
    exact hw
  refine hp A _ R _ w hw (fun _ => hw) (fun _ _ => hw) (fun he _ hfree => ?_)
    (fun _ w' h => hkept w' h.1) ?_
  · exact Prog.along_mono (along_keepsSaved (applyRuleset_keepsSaved _ _ _)) hkept
      fun _ w' h => ⟨h, he, hfree⟩
  · rintro b w' ⟨hs, he, hfree⟩
    refine Activation.finish_along (fun _ _ => hkept _ hs) fun now F6 s _ ht => ?_
    rw [hs] at ht
    have h := hset he hfree b now s ht
    exact ⟨h, h⟩

/-- The body shared by the three disable functions. -/
def disableMode (m : Mode) (env : Environment) (stop : Proc Unit) : Proc Unit := do
  if env.termux then
    return ()
  if !env.root || !env.hasIptables then
    return ()
  let st ← load
  if !m.active st then
    return ()
  -- the flag is cleared last: a crash before leaves the mode marked active
  restoreRules env (m.backupV4 st) (m.backupV6 st)
  stop
  update m.cleared

section

variable {A : Op → Choice → World → Prop} {m : Mode} {env : Environment} {w : World}
  {stop : Proc Unit} {Q : Unit → World → Prop}

/-- Disabling a mode that is not marked active, or without the privileges, does nothing. -/
theorem disableMode_wp_inactive (h : m.active w.saved = false ∨ ¬ env.Privileged)
    (hQ : Q () w) : (disableMode m env stop).wp (machine A) Q w := by
  rw [disableMode]
  split
  · exact hQ
  · split
    · exact hQ
    · rename_i ht hr
      have hm : m.active w.saved = false :=
        h.resolve_right (not_not_intro (Environment.privileged_of_guards ht hr))
      rw [Prog.wp_bind]
      refine wp_load ?_
      rw [if_pos (by simp [hm])]
      exact hQ

/-- Disabling an active mode restores the backups recorded for it. -/
theorem disableMode_wp_active (hR : Restores A) (he : env.Privileged)
    (hm : m.active w.saved = true) {F F6 : Fw} (hw : m.Holds env w F F6)
    (hstop : stop.all Quiet)
    (hQ : ∀ now, Q () { w with v4 := F, v6 := F6, saved := w.saved.update m.cleared now }) :
    (disableMode m env stop).wp (machine A) Q w := by
  obtain ⟨p, hp, hpF⟩ := hw.v4
  rw [disableMode, if_neg (by simp [he.termux]), if_neg (by simp [he.root, he.hasIptables]),
    Prog.wp_bind]
  refine wp_load ?_
  rw [if_neg (by simp [hm]), Prog.wp_bind, hp]
  refine restoreRules_wp hR he hpF hw.v6 ?_
  rw [Prog.wp_bind]
  exact wp_quiet hstop fun _ => wp_update hQ

/-- Disabling an active mode restores the IPv4 backup recorded for it, whatever happens to
the IPv6 firewall. -/
theorem disableMode_wp_v4 (hR : Restores A) (he : env.Privileged)
    (hm : m.active w.saved = true) {p : BackupPath} {F : Fw}
    (hp : m.backupV4 w.saved = some p) (hF : w.files p = some F) (hstop : stop.all Quiet)
    (hQ : ∀ F6 now, Q () { w with v4 := F, v6 := F6, saved := w.saved.update m.cleared now }) :
    (disableMode m env stop).wp (machine A) Q w := by
  rw [disableMode, if_neg (by simp [he.termux]), if_neg (by simp [he.root, he.hasIptables]),
    Prog.wp_bind]
  refine wp_load ?_
  rw [if_neg (by simp [hm]), Prog.wp_bind, hp]
  refine restoreRules_wp_v4 hR he hF fun F6 => ?_
  rw [Prog.wp_bind]
  exact wp_quiet hstop fun _ => wp_update fun now => hQ F6 now

/-- Disabling a mode writes the saved state once, at the end. -/
theorem disableMode_along {I : World → Prop} (hstop : stop.all Quiet)
    (hI : ∀ w' : World, w'.saved = w.saved → I w') (hQ : Q () w)
    (hQ' : ∀ (w' : World) now, w'.saved = w.saved.update m.cleared now → I w' ∧ Q () w') :
    (disableMode m env stop).along (machine A) I Q w := by
  have hw : I w := hI w rfl
  rw [disableMode]
  split
  · exact ⟨hw, hQ⟩
  split
  · exact ⟨hw, hQ⟩
  rw [Prog.along_bind]
  refine along_load hw ?_
  split
  · exact ⟨hw, hQ⟩
  rw [Prog.along_bind]
  refine Prog.along_mono (along_keepsSaved (restoreRules_keepsSaved _ _)) hI fun _ w' hw' => ?_
  rw [Prog.along_bind]
  refine along_quiet hstop (hI w' hw') fun _ => ?_
  refine along_update (hI w' hw') fun now => ?_
  rw [hw']
  exact hQ' _ now rfl

end

end PrivacyGuard
