import PrivacyGuard.Model.Orchestrate
import PrivacyGuard.Model.Success

set_option autoImplicit false

/-! # Full start and full stop

The three protections of `full_start` overlap: the kill switch replaces the firewall that
portscan protection has just extended. Their records nest accordingly: the backup of the
kill switch holds the firewall with the portscan rules, which differs from the initial one
by exactly these rules. `Cycle` says this for the states between two calls, whichever
protections are on, and `full_stop` undoes the three in the order of the nesting. -/

namespace PrivacyGuard

open Netfilter Effect

/-- One of the two calls, with its arguments. -/
inductive FullCall
  | start (runVerification : Bool) (bootstrapTimeout : Int) (randomize : Bool)
  | stop (killRiskyApps wipeRam : Bool) (ramWipeMode : String)

def FullCall.body (env : Environment) : FullCall → Proc Unit
  | .start verification timeout randomize =>
      (fun _ => ()) <$> fullStart env verification timeout randomize
  | .stop killApps wipeRam mode => fullStop env killApps wipeRam mode

/-- A command of portscan protection. -/
def IsPortscan (cmd : FwCommand Match) : Prop :=
  ∃ p, cmd ∈ portscanCommands p ∨ cmd ∈ portscanRemoval p

/-- Saving and restoring work, sysctls can be read and written, and only the kernel refuses
a portscan command. Anything else may fail. -/
def dependable : Op → Choice → World → Prop
  | .save _, c, _ => c.ok = true
  | .writeBackup _ _, c, _ => c.ok = true
  | .readBackup _, c, _ => c.ok = true
  | .restore _ _, c, _ => c.ok = true ∧ c.restored = none
  | .sysctlRead _, c, _ => c.ok = true
  | .sysctlWrite _ _, c, _ => c.ok = true
  | .iptables .v4 cmd, c, _ => IsPortscan cmd → c.ok = true
  | _, _, _ => True

theorem saves_dependable : Saves dependable := ⟨fun _ _ _ h => h, fun _ _ _ _ h => h⟩

theorem restores_dependable : Restores dependable :=
  ⟨⟨fun _ _ _ h => h⟩, fun _ _ _ _ h => h⟩

theorem setsSysctls_dependable : SetsSysctls dependable :=
  ⟨fun _ _ _ h => h, fun _ _ _ _ h => h⟩

theorem obeys_portscan {cmd : FwCommand Match} (h : IsPortscan cmd) :
    Obeys dependable .v4 cmd :=
  fun _ _ hc => hc h

theorem dependable_goWell (o : Op) (w : World) : dependable o (goWell o w) w := by
  cases o with
  | iptables f cmd =>
      cases f with
      | v4 => exact fun _ => rfl
      | v6 => trivial
  | _ => trivial

/-! ## Between two calls -/

/-- The prerequisites of fingerprint hardening. -/
structure Environment.CanHarden (env : Environment) : Prop where
  termux : env.termux = false
  root : env.root = true
  hasSysctl : env.hasSysctl = true

/-- Fingerprint hardening is off, or the values from before are recorded. -/
inductive Stealth (env : Environment) (f₀ : SysctlKey → Int) (active : Bool)
    (backup : Option (List (SysctlKey × Option Int))) (f : SysctlKey → Int) : Prop
  | off (h : active = false) (hb : backup = none) (hf : f = f₀)
  | on (h : active = true) (he : env.CanHarden)
      (hb : backup = some (stealthSysctls.map fun k => (k.1, some (f₀ k.1))))

/-- `G` is `F`, its filter table perhaps loaded by now, or `F` with the portscan rules, which
are recorded. -/
inductive Portscan (env : Environment) (F : Fw) (active : Bool)
    (params : Option PortscanParams) (G : Fw) : Prop
  | off (h : active = false) (hp : params = none) (hG : G.LoadedFrom F)
  | on (h : active = true) (he : env.Privileged) (hp : params = some defaultPortscanParams)
      (hG : PortscanOn defaultPortscanParams F G)

/-- The kill switch is off and the firewalls are `G` and `F6`, or it is on, over the portscan
rules, and its backups hold `G` and `F6`. -/
inductive KillSwitch (env : Environment) (G F6 : Fw) (w : World) : Prop
  | off (h : w.saved.torKillSwitch = false) (hb : w.saved.ipv6Blocked = false)
      (hb4 : w.saved.iptablesBackup = none) (hb6 : w.saved.ip6tablesBackup = none)
      (h4 : w.v4 = G) (h6 : w.v6 = F6)
  | on (h : w.saved.torKillSwitch = true) (he : env.Privileged)
      (hp : w.saved.portscanProtection = true) (hw : Mode.tor.Holds env w G F6)

/-- The saved state without the fields the two calls write. -/
def Saved.forget (s : Saved) : Saved :=
  { s with
    torKillSwitch := false
    ipv6Blocked := false
    portscanProtection := false
    portscanParams := none
    stealthSysctls := false
    stealthSysctlsBackup := none
    iptablesBackup := none
    ip6tablesBackup := none
    lastUpdated := none }

/-- **The states between two calls**, when `w₀` is the initial one. `G` is the firewall under
the kill switch. -/
structure Cycle (env : Environment) (w₀ w : World) (G : Fw) : Prop where
  stealth : Stealth env w₀.sysctl w.saved.stealthSysctls w.saved.stealthSysctlsBackup w.sysctl
  portscan : Portscan env w₀.v4 w.saved.portscanProtection w.saved.portscanParams G
  killSwitch : KillSwitch env G w₀.v6 w
  rest : w.saved.forget = defaultState

/-- All protections are off, and nothing else is left of them either, except that the filter
table is loaded now if it was not. -/
structure Restored (w₀ w : World) : Prop where
  v4 : w.v4.Same w₀.v4
  v4_eq : w₀.v4.filter ≠ none → w.v4 = w₀.v4
  v6 : w.v6 = w₀.v6
  sysctl : w.sysctl = w₀.sysctl
  saved : w.saved = { defaultState with lastUpdated := w.saved.lastUpdated }

section

variable {env : Environment} {w₀ w : World} {G : Fw}

theorem cycle_start (h : w.saved = defaultState) : Cycle env w w w.v4 where
  stealth := .off (by rw [h]; rfl) (by rw [h]; rfl) rfl
  portscan := .off (by rw [h]; rfl) (by rw [h]; rfl) (.refl _)
  killSwitch := .off (by rw [h]; rfl) (by rw [h]; rfl) (by rw [h]; rfl) (by rw [h]; rfl) rfl rfl
  rest := by rw [h]; rfl

theorem Stealth.off_of {f₀ f : SysctlKey → Int} {active : Bool}
    {backup : Option (List (SysctlKey × Option Int))} (h : Stealth env f₀ active backup f)
    (ha : active = false) : backup = none ∧ f = f₀ := by
  cases h with
  | off _ hb hf => exact ⟨hb, hf⟩
  | on hon => rw [ha] at hon; cases hon

theorem Portscan.off_of {F : Fw} {active : Bool} {params : Option PortscanParams}
    (h : Portscan env F active params G) (ha : active = false) :
    params = none ∧ G.LoadedFrom F := by
  cases h with
  | off _ hp hG => exact ⟨hp, hG⟩
  | on hon => rw [ha] at hon; cases hon

theorem KillSwitch.off_of {F6 : Fw} (h : KillSwitch env G F6 w)
    (ht : w.saved.torKillSwitch = false) :
    w.saved.ipv6Blocked = false ∧ w.saved.iptablesBackup = none ∧
      w.saved.ip6tablesBackup = none ∧ w.v4 = G ∧ w.v6 = F6 := by
  cases h with
  | off _ hb hb4 hb6 h4 h6 => exact ⟨hb, hb4, hb6, h4, h6⟩
  | on h => rw [ht] at h; cases h

/-- With the three flags off, the initial machine is back. -/
theorem Cycle.restored (h : Cycle env w₀ w G) (ht : w.saved.torKillSwitch = false)
    (hp : w.saved.portscanProtection = false) (hs : w.saved.stealthSysctls = false) :
    Restored w₀ w := by
  obtain ⟨hb, hb4, hb6, h4, h6⟩ := h.killSwitch.off_of ht
  obtain ⟨hparams, hG⟩ := h.portscan.off_of hp
  obtain ⟨hbackup, hf⟩ := h.stealth.off_of hs
  rw [← h4] at hG
  refine ⟨hG.same, hG.eq_of_loaded, h6, hf, ?_⟩
  -- the fields the two calls write have their defaults, the others have never been written
  rw [← h.rest]
  apply Saved.ext <;> first | rfl | assumption

/-- Without the prerequisites nothing has been switched on. -/
theorem Cycle.restored_of_termux (h : Cycle env w₀ w G) (henv : env.termux = true) :
    Restored w₀ w := by
  have hpriv : ¬ env.Privileged := fun he => by simp [he.termux] at henv
  have hharden : ¬ env.CanHarden := fun he => by simp [he.termux] at henv
  refine h.restored ?_ ?_ ?_
  · cases h.killSwitch with
    | off ht => exact ht
    | on _ he => exact absurd he hpriv
  · cases h.portscan with
    | off hp => exact hp
    | on _ he => exact absurd he hpriv
  · cases h.stealth with
    | off hs => exact hs
    | on _ he => exact absurd he hharden

/-! ## The steps of a full start -/

theorem KillSwitch.withSysctls {F6 : Fw} (h : KillSwitch env G F6 w) (f : SysctlKey → Int)
    (b : Bool) (backup : Option (List (SysctlKey × Option Int))) (now : String) :
    KillSwitch env G F6 { w with
      sysctl := f
      saved := w.saved.update [.stealthSysctls b, .stealthSysctlsBackup backup] now } := by
  cases h with
  | off ht hb hb4 hb6 h4 h6 => exact .off ht hb hb4 hb6 h4 h6
  | on ht he hp hw => exact .on ht he hp ⟨hw.v4, hw.v6⟩

theorem Cycle.enableStealthSysctls (h : Cycle env w₀ w G) :
    (enableStealthSysctls env).wp (machine dependable) (fun _ w' => Cycle env w₀ w' G) w := by
  rw [PrivacyGuard.enableStealthSysctls]
  split
  · exact h
  rename_i hen
  have he : env.CanHarden := by
    simp only [Bool.or_eq_true, Bool.not_eq_true', not_or, Bool.not_eq_true,
      Bool.not_eq_false] at hen
    exact ⟨hen.1.1, hen.1.2, hen.2⟩
  rw [Prog.wp_bind]
  refine wp_load ?_
  split
  · exact h
  rename_i hoff
  obtain ⟨-, hf⟩ := h.stealth.off_of (Bool.eq_false_iff.mpr hoff)
  rw [Prog.wp_bind]
  refine readSysctls_wp setsSysctls_dependable _ _ _ ?_
  rw [Prog.wp_bind]
  refine setSysctls_wp setsSysctls_dependable _ _ _ fun b f => ?_
  rw [Prog.wp_bind]
  refine wp_update fun now => ?_
  exact ⟨.on rfl he (by rw [hf]; rfl), h.portscan, h.killSwitch.withSysctls f _ _ now, h.rest⟩

theorem Cycle.enablePortscanProtection (hfree : PortscanFree w₀.v4) (h : Cycle env w₀ w G) :
    (enablePortscanProtection env defaultPortscanParams false).wp (machine dependable)
      (fun _ w' => ∃ G', Cycle env w₀ w' G' ∧
        (env.Privileged → w'.saved.portscanProtection = true)) w := by
  rw [PrivacyGuard.enablePortscanProtection]
  split
  · rename_i ht
    refine ⟨G, h, fun he => ?_⟩
    rw [he.termux] at ht
    cases ht
  rename_i ht
  split
  · rename_i hr
    refine ⟨G, h, fun he => ?_⟩
    simp [he.root, he.hasIptables] at hr
  rename_i hr
  have he := Environment.privileged_of_guards ht hr
  rw [Prog.wp_bind]
  refine wp_load ?_
  split
  · rename_i hon
    exact ⟨G, h, fun _ => by simpa using hon⟩
  rename_i hoff
  have hp : w.saved.portscanProtection = false := by simpa using hoff
  obtain ⟨-, hG⟩ := h.portscan.off_of hp
  -- portscan protection is off only while the kill switch is
  obtain ⟨ht, hb, hb4, hb6, h4, h6⟩ : w.saved.torKillSwitch = false ∧
      w.saved.ipv6Blocked = false ∧ w.saved.iptablesBackup = none ∧
      w.saved.ip6tablesBackup = none ∧ w.v4 = G ∧ w.v6 = w₀.v6 := by
    cases h.killSwitch with
    | off ht hb hb4 hb6 h4 h6 => exact ⟨ht, hb, hb4, hb6, h4, h6⟩
    | on _ _ hon => rw [hp] at hon; cases hon
  obtain ⟨G', happ, hG'⟩ := portscan_applied defaultPortscanParams
    (hfree.of_same hG.same).inputFree
  rw [Prog.wp_bind]
  refine applyRules_wp_accepts _ _ _ (by decide) (fun r hr => obeys_portscan
    ⟨_, Or.inl (List.mem_map_of_mem hr)⟩) (accepts_of_applied (by rw [h4]; exact happ)) ?_
  rw [if_neg (by decide), Prog.wp_bind]
  refine wp_update fun now => ⟨G', ⟨h.stealth, .on rfl he rfl (hG'.of_loaded hG), ?_, h.rest⟩,
    fun _ => rfl⟩
  refine .off ht hb hb4 hb6 ?_ h6
  show w.v4.perform (portscanCommands defaultPortscanParams) = G'
  rw [h4, happ.perform]

theorem Cycle.enableKillSwitch (h : Cycle env w₀ w G)
    (hp : env.Privileged → w.saved.portscanProtection = true) (timeout : Int) :
    (enableKillSwitch env false timeout).wp (machine dependable)
      (fun _ w' => Cycle env w₀ w' G) w := by
  refine Prog.wp_mono ((enableKillSwitch_follows env false timeout).enable saves_dependable
    restores_dependable w) fun b w' hw' => ?_
  cases hw' with
  | declined => exact h
  | already _ _ => exact h
  -- the firewalls are back under the portscan rules
  | rolledBack he hforce _ ts =>
      have ht : w.saved.torKillSwitch = false := Mode.off_of_unforced hforce
      obtain ⟨hb, hb4, hb6, h4, h6⟩ := h.killSwitch.off_of ht
      obtain ⟨files, hfiles⟩ := World.backUp_eq w env Mode.tor.label ts
      rw [hfiles]
      exact ⟨h.stealth, h.portscan, .off ht hb hb4 hb6 h4 h6, h.rest⟩
  -- the backups hold the firewall with the portscan rules, which full start has just added
  | applied he hforce _ ts now F F6 s hF hF6 hs =>
      have ht : w.saved.torKillSwitch = false := Mode.off_of_unforced hforce
      obtain ⟨-, -, -, h4, h6⟩ := h.killSwitch.off_of ht
      have hholds := Enable.holds (a := torActivation) (F := F) hF6 hs
      rw [h4, h6] at hholds
      have hsysctl := h.stealth
      rw [← World.backUp_sysctl w env Mode.tor.label ts] at hsysctl
      have hpriv := he.privileged
      rcases hs with rfl | ⟨now', rfl⟩
      · exact ⟨hsysctl, h.portscan, .on rfl hpriv (hp hpriv) hholds, h.rest⟩
      · exact ⟨hsysctl, h.portscan, .on rfl hpriv (hp hpriv) hholds, h.rest⟩

/-! ## The steps of a full stop -/

theorem Cycle.disableKillSwitch (h : Cycle env w₀ w G) :
    (disableKillSwitch env).wp (machine dependable)
      (fun _ w' => Cycle env w₀ w' G ∧ w'.saved.torKillSwitch = false) w := by
  cases hks : h.killSwitch with
  | off ht _ _ _ _ _ => exact disableMode_wp_inactive (Or.inl ht) ⟨h, ht⟩
  | on ht he hp hw =>
      refine disableMode_wp_active restores_dependable he ht hw (Prog.all_pure ()) fun now => ?_
      exact ⟨⟨h.stealth, h.portscan, .off rfl rfl rfl rfl rfl rfl, h.rest⟩, rfl⟩

theorem Cycle.disablePortscanProtection (hfree : PortscanFree w₀.v4) (h : Cycle env w₀ w G)
    (ht : w.saved.torKillSwitch = false) :
    (disablePortscanProtection env).wp (machine dependable)
      (fun _ w' => ∃ G', Cycle env w₀ w' G' ∧ w'.saved.torKillSwitch = false ∧
        w'.saved.portscanProtection = false) w := by
  rw [PrivacyGuard.disablePortscanProtection]
  cases hps : h.portscan with
  | off hp _ _ =>
      split
      · exact ⟨G, h, ht, hp⟩
      rw [Prog.wp_bind]
      refine wp_load ?_
      rw [if_pos (by simp [hp])]
      exact ⟨G, h, ht, hp⟩
  | on hp he hparams hG =>
      rw [if_neg (by simp [he.termux, he.root, he.hasIptables]), Prog.wp_bind]
      refine wp_load ?_
      rw [if_neg (by simp [hp]), Prog.wp_bind]
      refine wp_load ?_
      rw [hparams, Option.getD_some, Prog.wp_bind]
      refine runAll_wp_obeys _ _ (fun c hc => obeys_portscan ⟨_, Or.inr hc⟩) ?_
      refine wp_update fun now => ?_
      obtain ⟨hb, hb4, hb6, h4, h6⟩ := h.killSwitch.off_of ht
      obtain ⟨K, happ, hK⟩ := portscan_removed hfree.inputFree hG
      refine ⟨K, ⟨h.stealth, .off rfl rfl hK, .off ht hb hb4 hb6 ?_ h6, h.rest⟩, ht, rfl⟩
      show w.v4.perform (portscanRemoval defaultPortscanParams) = K
      rw [h4, happ.perform]

theorem Cycle.disableStealthSysctls (h : Cycle env w₀ w G)
    (ht : w.saved.torKillSwitch = false) (hp : w.saved.portscanProtection = false) :
    (disableStealthSysctls env).wp (machine dependable)
      (fun _ w' => Cycle env w₀ w' G ∧ Restored w₀ w') w := by
  rw [PrivacyGuard.disableStealthSysctls]
  cases hst : h.stealth with
  | off hs _ _ =>
      split
      · exact ⟨h, h.restored ht hp hs⟩
      rw [Prog.wp_bind]
      refine wp_load ?_
      rw [if_pos (by simp [hs])]
      exact ⟨h, h.restored ht hp hs⟩
  | on hs he hb =>
      rw [if_neg (by simp [he.termux, he.root, he.hasSysctl]), Prog.wp_bind]
      refine wp_load ?_
      rw [if_neg (by simp [hs]), Prog.wp_bind]
      refine wp_load ?_
      rw [hb, Option.getD_some, Prog.wp_bind]
      refine resetSysctls_wp setsSysctls_dependable w₀.sysctl (stealthSysctls.map Prod.fst) w
        fun f hf => ?_
      -- all five keys are recorded, so every key is back
      have hall : f = w₀.sysctl := by
        funext k
        exact hf k (Or.inl (by cases k <;> decide))
      refine wp_update fun now => ?_
      have hoff := h.killSwitch.withSysctls f false none now
      have hcycle : Cycle env w₀ { w with
          sysctl := f
          saved := w.saved.update [.stealthSysctls false, .stealthSysctlsBackup none] now } G :=
        ⟨.off rfl rfl hall, h.portscan, hoff, h.rest⟩
      exact ⟨hcycle, hcycle.restored ht hp rfl⟩

/-! ## Sequences of calls -/

theorem Cycle.fullStart (hfree : PortscanFree w₀.v4) (h : Cycle env w₀ w G)
    (verification randomize : Bool) (timeout : Int) :
    (fullStart env verification timeout randomize).wp (machine dependable)
      (fun _ w' => ∃ G', Cycle env w₀ w' G') w := by
  rw [PrivacyGuard.fullStart, Prog.wp_bind]
  refine wp_quiet (startTor_quiet env) fun _ => ?_
  split
  · exact ⟨G, h⟩
  rw [Prog.wp_bind]
  refine wp_quiet (Prog.all_ite (randomizeIdentity_quiet _) (Prog.all_pure _)) fun _ => ?_
  rw [Prog.wp_bind]
  refine Prog.wp_mono h.enableStealthSysctls fun _ w₁ h₁ => ?_
  rw [Prog.wp_bind]
  refine Prog.wp_mono (h₁.enablePortscanProtection hfree) fun _ w₂ ⟨G₂, h₂, hp⟩ => ?_
  rw [Prog.wp_bind]
  refine Prog.wp_mono (h₂.enableKillSwitch hp timeout) fun active w₃ h₃ => ?_
  rw [Prog.wp_bind]
  exact wp_quiet (externalIf_quiet _ _) fun _ => ⟨G₂, h₃⟩

theorem Cycle.fullStop (hfree : PortscanFree w₀.v4) (h : Cycle env w₀ w G)
    (killApps wipeRam : Bool) (mode : String) :
    (fullStop env killApps wipeRam mode).wp (machine dependable)
      (fun _ w' => (∃ G', Cycle env w₀ w' G') ∧ Restored w₀ w') w := by
  have hstop : (stopProtections env).wp (machine dependable)
      (fun _ w' => (∃ G', Cycle env w₀ w' G') ∧ Restored w₀ w') w := by
    rw [stopProtections]
    split
    · rename_i ht
      exact ⟨⟨G, h⟩, h.restored_of_termux ht⟩
    · rw [Prog.wp_bind]
      refine Prog.wp_mono h.disableKillSwitch fun _ w₁ ⟨h₁, ht₁⟩ => ?_
      rw [Prog.wp_bind]
      refine Prog.wp_mono (h₁.disablePortscanProtection hfree ht₁)
        fun _ w₂ ⟨G₂, h₂, ht₂, hp₂⟩ => ?_
      exact Prog.wp_mono (h₂.disableStealthSysctls ht₂ hp₂) fun _ w₃ h₃ => ⟨⟨G₂, h₃.1⟩, h₃.2⟩
  rw [PrivacyGuard.fullStop, Prog.wp_bind]
  refine Prog.wp_mono hstop fun _ w' hw' => ?_
  have hquiet := Prog.all_bind (quiet_external .stopTor) fun _ =>
    Prog.all_bind (externalIf_quiet killApps .killRiskyApps) fun _ =>
      externalIf_quiet wipeRam (.wipeFreeRam mode)
  exact wp_quiet hquiet fun _ => hw'

end

/-- **Full stop undoes full start.** -/
theorem fullStop_restores {env : Environment} {w w' : World} {cs : List (FullCall × Unit)}
    {killApps wipeRam : Bool} {mode : String} (hfree : PortscanFree w.v4)
    (hw : w.saved = defaultState)
    (h : Calls (machine dependable) (FullCall.body env) (fun _ _ => True) w
      (cs ++ [(.stop killApps wipeRam mode, ())]) w') :
    Restored w w' := by
  obtain ⟨w₁, hcs, hlast⟩ := h.of_append
  have hcycle : ∃ G, Cycle env w w₁ G := by
    refine hcs.invariant (I := fun w' => ∃ G, Cycle env w w' G) (fun x w' _ => ?_)
      ⟨_, cycle_start hw⟩
    rintro ⟨G, hG⟩
    cases x with
    | start verification timeout randomize =>
        rw [FullCall.body, Prog.wp_map]
        exact hG.fullStart hfree verification randomize timeout
    | stop killApps wipeRam mode =>
        exact Prog.wp_mono (hG.fullStop hfree killApps wipeRam mode) fun _ _ hw => hw.1
  obtain ⟨G, hG⟩ := hcycle
  obtain ⟨-, tr, hrun⟩ := hlast.of_singleton
  exact (hrun.post (hG.fullStop hfree killApps wipeRam mode)).2

theorem portscanFree_sshServer : PortscanFree sshServer := ⟨by decide, by decide⟩

def startedTwice : List FullCall :=
  [.start false 45 false, .start false 45 false, .stop false false "fast"]

def afterStop : World :=
  (runCalls (machine dependable) goWell (FullCall.body .full) startedTwice
    (.start sshServer Firewall.blank)).2

/-- Two starts and one stop. -/
theorem fullStop_restores_startedTwice :
    Restored (.start sshServer Firewall.blank) afterStop := by
  have hall : Allowed (machine dependable) goWell (FullCall.body .full) (fun _ _ => True)
      startedTwice (.start sshServer Firewall.blank) := ⟨trivial, trivial, trivial, trivial⟩
  have h : Calls (machine dependable) (FullCall.body .full) (fun _ _ => True)
      (.start sshServer Firewall.blank)
      ([(.start false 45 false, ()), (.start false 45 false, ())] ++
        [(.stop false false "fast", ())]) afterStop :=
    calls_runCalls dependable_goWell hall
  exact fullStop_restores portscanFree_sshServer rfl h

end PrivacyGuard
