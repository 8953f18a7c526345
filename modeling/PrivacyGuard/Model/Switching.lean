import PrivacyGuard.Model.Success

set_option autoImplicit false

/-! # Switching the protections on and off

What the calls of the three modes and of portscan protection do when every command succeeds,
as far as the records of several protections at a time are concerned: each mode keeps its
IPv4 backup in a file and a field of its own, while the two kill switches share the field of
the IPv6 backup. -/

namespace PrivacyGuard

open Netfilter Effect

/-- The fields a call writes leave the records of the other modes alone, but for the field
the two kill switches share, and those of portscan protection. -/
structure Activation.Spares {m : Mode} (a : Activation m) : Prop where
  backupV4 : ∀ (b : Backups) (s : Saved) now (m' : Mode), m' ≠ m →
    m'.backupV4 (s.update (a.fields b) now) = m'.backupV4 s
  backupV6 : ∀ (b : Backups) (s : Saved) now (m' : Mode), m' ≠ m → ¬ Opposite m m' →
    m'.backupV6 (s.update (a.fields b) now) = m'.backupV6 s
  portscan : ∀ (b : Backups) (s : Saved) now,
    (s.update (a.fields b) now).portscanProtection = s.portscanProtection ∧
      (s.update (a.fields b) now).portscanParams = s.portscanParams

theorem torActivation_spares : torActivation.Spares where
  backupV4 b s now m' h := by
    cases m' with
    | tor => exact absurd rfl h
    | proxyOnly | gateway =>
        simp [Mode.backupV4, torActivation, torFields, Saved.update, Field.set]
  backupV6 b s now m' h h' := by
    cases m' with
    | tor => exact absurd rfl h
    | proxyOnly => exact absurd .tor h'
    | gateway => simp [Mode.backupV6, torActivation, torFields, Saved.update, Field.set]
  portscan _ _ _ := by simp [torActivation, torFields, Saved.update, Field.set]

theorem proxyActivation_spares (a : ProxyArgs) : (proxyActivation a).Spares where
  backupV4 b s now m' h := by
    cases m' with
    | proxyOnly => exact absurd rfl h
    | tor | gateway =>
        simp [Mode.backupV4, proxyActivation, proxyFields, Saved.update, Field.set]
  backupV6 b s now m' h h' := by
    cases m' with
    | tor => exact absurd .proxyOnly h'
    | proxyOnly => exact absurd rfl h
    | gateway => simp [Mode.backupV6, proxyActivation, proxyFields, Saved.update, Field.set]
  portscan _ _ _ := by simp [proxyActivation, proxyFields, Saved.update, Field.set]

theorem gatewayActivation_spares (a : GatewayArgs) : (gatewayActivation a).Spares where
  backupV4 b s now m' h := by
    cases m' with
    | gateway => exact absurd rfl h
    | tor | proxyOnly =>
        simp [Mode.backupV4, gatewayActivation, gatewayFields, Saved.update, Field.set]
  backupV6 b s now m' h _ := by
    cases m' with
    | gateway => exact absurd rfl h
    | tor | proxyOnly =>
        simp [Mode.backupV6, gatewayActivation, gatewayFields, Saved.update, Field.set]
  portscan _ _ _ := by simp [gatewayActivation, gatewayFields, Saved.update, Field.set]

theorem BlockRecorded.portscan {s₁ s : Saved} (h : BlockRecorded s₁ s) :
    s.portscanProtection = s₁.portscanProtection ∧ s.portscanParams = s₁.portscanParams := by
  rcases h with rfl | ⟨now, rfl⟩ <;> exact ⟨rfl, rfl⟩

/-! ## The records of a mode -/

/-- The IPv4 backup of `m` is in a file of its own, which holds `F`. -/
def Mode.RecordsV4 (m : Mode) (w : World) (F : Fw) : Prop :=
  ∃ ts, m.backupV4 w.saved = some ⟨.v4, m.label, ts⟩ ∧ w.files ⟨.v4, m.label, ts⟩ = some F

/-- So is its IPv6 backup. -/
def Mode.RecordsV6 (m : Mode) (w : World) (F6 : Fw) : Prop :=
  ∃ ts, m.backupV6 w.saved = some ⟨.v6, m.label, ts⟩ ∧ w.files ⟨.v6, m.label, ts⟩ = some F6

theorem Mode.label_injective {m m' : Mode} (h : m.label = m'.label) : m = m' := by
  cases m <;> cases m' <;> first | rfl | exact absurd h (by decide)

/-- A backup of another mode leaves the files of this one alone. -/
theorem World.backUp_files_of_mode (w : World) (env : Environment) {m m' : Mode} (h : m' ≠ m)
    (f : Family) (ts ts' : String) :
    (w.backUp env m.label ts).files ⟨f, m'.label, ts'⟩ = w.files ⟨f, m'.label, ts'⟩ := by
  have hne : ∀ g : Family, (⟨f, m'.label, ts'⟩ : BackupPath) ≠ ⟨g, m.label, ts⟩ := by
    intro g he
    exact h (Mode.label_injective (congrArg BackupPath.label he))
  exact w.backUp_files_of_ne env _ _ (hne _) (hne _)

section

variable {m m' : Mode} {a : Activation m} {env : Environment} {w w' : World} {F F6 : Fw}

theorem SwitchedOn.recordsV4 (h : SwitchedOn a env w w') : m.RecordsV4 w' w.v4 := by
  obtain ⟨ts, now, s, hs, -, rfl⟩ := h
  refine ⟨ts, ?_, World.backUp_files_v4 w env m.label ts⟩
  show m.backupV4 s = _
  rw [hs.backupV4, a.backupV4]
  rfl

theorem SwitchedOn.recordsV6 (h : SwitchedOn a env w w') (h6 : env.hasIp6tables = true) :
    m.RecordsV6 w' w.v6 := by
  obtain ⟨ts, now, s, hs, -, rfl⟩ := h
  refine ⟨ts, ?_, World.backUp_files_v6 w env m.label ts h6⟩
  show m.backupV6 s = _
  rw [hs.backupV6, a.backupV6]
  exact if_pos h6

/-- The other modes keep what they have recorded; the two kill switches share one field. -/
theorem SwitchedOn.spared (h : SwitchedOn a env w w') (ha : a.Spares) (hne : m' ≠ m) :
    m'.backupV4 w'.saved = m'.backupV4 w.saved ∧
      (¬ Opposite m m' → m'.backupV6 w'.saved = m'.backupV6 w.saved) ∧
      ∀ f ts, w'.files ⟨f, m'.label, ts⟩ = w.files ⟨f, m'.label, ts⟩ := by
  obtain ⟨ts, now, s, hs, -, rfl⟩ := h
  refine ⟨?_, fun hopp => ?_, fun f ts' => World.backUp_files_of_mode w env hne f ts ts'⟩
  · show m'.backupV4 s = _
    rw [hs.backupV4, ha.backupV4 _ _ _ _ hne]
  · show m'.backupV6 s = _
    rw [hs.backupV6, ha.backupV6 _ _ _ _ hne hopp]

theorem Mode.RecordsV4.congr (h : m.RecordsV4 w F)
    (hbackup : m.backupV4 w'.saved = m.backupV4 w.saved)
    (hfiles : ∀ f ts, w'.files ⟨f, m.label, ts⟩ = w.files ⟨f, m.label, ts⟩) :
    m.RecordsV4 w' F := by
  obtain ⟨ts, hp, hF⟩ := h
  exact ⟨ts, hbackup.trans hp, (hfiles _ _).trans hF⟩

theorem Mode.RecordsV6.congr (h : m.RecordsV6 w F6)
    (hbackup : m.backupV6 w'.saved = m.backupV6 w.saved)
    (hfiles : ∀ f ts, w'.files ⟨f, m.label, ts⟩ = w.files ⟨f, m.label, ts⟩) :
    m.RecordsV6 w' F6 := by
  obtain ⟨ts, hp, hF⟩ := h
  exact ⟨ts, hbackup.trans hp, (hfiles _ _).trans hF⟩

theorem SwitchedOn.otherV4 (h : SwitchedOn a env w w') (ha : a.Spares) (hne : m' ≠ m)
    (hrec : m'.RecordsV4 w F) : m'.RecordsV4 w' F :=
  hrec.congr (h.spared ha hne).1 (h.spared ha hne).2.2

theorem SwitchedOn.otherV6 (h : SwitchedOn a env w w') (ha : a.Spares) (hne : m' ≠ m)
    (hopp : ¬ Opposite m m') (hrec : m'.RecordsV6 w F6) : m'.RecordsV6 w' F6 :=
  hrec.congr ((h.spared ha hne).2.1 hopp) (h.spared ha hne).2.2

theorem SwitchedOn.portscan (h : SwitchedOn a env w w') (ha : a.Spares) :
    w'.saved.portscanProtection = w.saved.portscanProtection ∧
      w'.saved.portscanParams = w.saved.portscanParams := by
  obtain ⟨ts, now, s, hs, -, rfl⟩ := h
  obtain ⟨h₁, h₂⟩ := hs.portscan
  obtain ⟨h₃, h₄⟩ := ha.portscan (backupPaths env m.label ts) w.saved now
  exact ⟨h₁.trans h₃, h₂.trans h₄⟩

theorem Mode.RecordsV4.unique {G : Fw} (h : m.RecordsV4 w F) (h' : m.RecordsV4 w G) :
    F = G := by
  obtain ⟨ts, hp, hF⟩ := h
  obtain ⟨ts', hp', hG⟩ := h'
  rw [← Option.some.inj (hp.symm.trans hp')] at hG
  exact Option.some.inj (hF.symm.trans hG)

theorem Mode.RecordsV4.holds (h : m.RecordsV4 w F) (h6 : m.RecordsV6 w F6) :
    m.Holds env w F F6 := by
  obtain ⟨ts, hp, hF⟩ := h
  obtain ⟨ts', hq, hF6⟩ := h6
  exact ⟨⟨_, hp, hF⟩, Or.inl ⟨_, hq, hF6⟩⟩

end

/-! ## The calls -/

namespace Action

variable {x : Action} {m : Mode} {w : World}

/-- A call whose prerequisites are met, and that does not find the mode on already. -/
theorem switchedOn (hx : x.enables? = some m) (he : m.Ready x.env)
    (hforce : m.active w.saved = true → x.force = true) (hfree : m.conflict w.saved = false) :
    x.body.wp (machine allSucceed) (fun b w' => b = true ∧ ∃ a : Activation m, a.Spares ∧
      a.commands = x.rules.map (·.command) ∧ a.lock = x.lock ∧ SwitchedOn a x.env w w') w := by
  cases x with
  | enableKillSwitch env force t =>
      cases hx
      refine Prog.wp_mono ((enableKillSwitch_follows env force t).switchedOn
        (accepts_plain _ _ (by decide)) he hforce hfree) fun _ _ h => ?_
      exact ⟨h.1, torActivation, torActivation_spares, rfl, rfl, h.2⟩
  | enableProxyKillSwitch env a force =>
      cases hx
      refine Prog.wp_mono ((enableProxyKillSwitch_follows env a force).switchedOn
        (accepts_proxyRules _) he hforce hfree) fun _ _ h => ?_
      exact ⟨h.1, proxyActivation a, proxyActivation_spares a, rfl, rfl, h.2⟩
  | enableGateway env a force =>
      cases hx
      have hplain : ∀ c ∈ (gatewayActivation a).commands, Firewall.plainFw c = true := by
        simp [gatewayActivation, Activation.commands, gatewayRules, ipt, Firewall.plainFw,
          Command.plain, Target.chain?]
      refine Prog.wp_mono ((enableGateway_follows env a force).switchedOn
        (accepts_plain _ _ hplain) he hforce hfree) fun _ _ h => ?_
      exact ⟨h.1, gatewayActivation a, gatewayActivation_spares a, rfl, rfl, h.2⟩
  | _ => cases hx

/-- What an enable call makes of the IPv4 and the IPv6 firewall, when it takes effect. -/
def install (x : Action) (blocked : Bool) (F : Fw × Fw) : Fw × Fw :=
  (F.1.perform (x.rules.map (·.command)), ipv6After x.env x.lock blocked F.2)

/-- **What an unforced enable call can do**, when every command succeeds. -/
inductive Enabled (x : Action) (m : Mode) (w : World) : Bool → World → Prop
  | declined : Enabled x m w false w
  | already (hon : m.active w.saved = true) : Enabled x m w true w
  | switchedOn {w' : World} (he : m.Ready x.env) (hoff : m.active w.saved = false)
      (hfree : m.conflict w.saved = false) (a : Activation m) (ha : a.Spares)
      (hrules : a.commands = x.rules.map (·.command)) (hlock : a.lock = x.lock)
      (h : SwitchedOn a x.env w w') : Enabled x m w true w'

theorem enabled (hx : x.enables? = some m) (hforce : x.force = false) :
    x.body.wp (machine allSucceed) (Enabled x m w) w := by
  by_cases hgo : m.Ready x.env ∧ m.active w.saved = false ∧ m.conflict w.saved = false
  · obtain ⟨he, hoff, hfree⟩ := hgo
    refine Prog.wp_mono (switchedOn hx he (fun hon => ?_) hfree) ?_
    · rw [hoff] at hon
      cases hon
    · rintro b w' ⟨rfl, a, ha, hrules, hlock, h⟩
      exact .switchedOn he hoff hfree a ha hrules hlock h
  · obtain ⟨a, ha⟩ := of_enables hx
    rw [hforce] at ha
    refine Prog.wp_of_along (ha allSucceed (fun _ => True) (fun _ _ => False) _ w trivial
      (fun _ => .declined) (fun hon _ => .already hon) (fun he hf hfree => ?_)
      (fun _ _ h => h.elim) fun _ _ h => h.elim)
    exact absurd ⟨he, Mode.off_of_unforced hf, hfree⟩ hgo

/-- A disable call that does not find the mode on, or lacks the privileges. -/
theorem disabled_idle {A : Op → Choice → World → Prop} (hx : x.disables? = some m)
    (h : m.active w.saved = false ∨ ¬ x.env.Privileged) :
    x.body.wp (machine A) (fun _ w' => w' = w) w := by
  obtain ⟨stop, -, hbody⟩ := of_disables hx
  rw [hbody, Prog.wp_map]
  exact disableMode_wp_inactive h rfl

/-- **What a disable call does** when the mode is on and has its backups, if it has the
privileges. -/
theorem disabled {A : Op → Choice → World → Prop} (hR : Restores A)
    (hx : x.disables? = some m) (hon : m.active w.saved = true) {F F6 : Fw}
    (hw : m.Holds x.env w F F6) :
    x.body.wp (machine A) (fun _ w' => (¬ x.env.Privileged ∧ w' = w) ∨
      (x.env.Privileged ∧ ∃ now, w' = { w with
        v4 := F, v6 := F6, saved := w.saved.update m.cleared now })) w := by
  by_cases he : x.env.Privileged
  · obtain ⟨stop, hstop, hbody⟩ := of_disables hx
    rw [hbody, Prog.wp_map]
    exact disableMode_wp_active hR he hon hw hstop fun now => Or.inr ⟨he, now, rfl⟩
  · exact Prog.wp_mono (disabled_idle hx (Or.inr he)) fun _ _ hw' => Or.inl ⟨he, hw'⟩

/-- The same for the IPv4 firewall alone, whatever the IPv6 backup is. -/
theorem disabledV4 {A : Op → Choice → World → Prop} (hR : Restores A)
    (hx : x.disables? = some m) (he : x.env.Privileged) (hon : m.active w.saved = true) {F : Fw}
    (hw : m.RecordsV4 w F) :
    x.body.wp (machine A) (fun _ w' => ∃ F6 now, w' = { w with
      v4 := F, v6 := F6, saved := w.saved.update m.cleared now }) w := by
  obtain ⟨ts, hp, hF⟩ := hw
  obtain ⟨stop, hstop, hbody⟩ := of_disables hx
  rw [hbody, Prog.wp_map]
  exact disableMode_wp_v4 hR he hon hp hF hstop fun F6 now => ⟨F6, now, rfl⟩

end Action

/-! ## Portscan protection -/

/-- The fields portscan protection writes. -/
def portscanFields (on : Bool) (p : Option PortscanParams) : List Field :=
  [.portscanProtection on, .portscanParams p]

@[simp] theorem Mode.active_update_portscan (m : Mode) (s : Saved) (on : Bool)
    (p : Option PortscanParams) (now : String) :
    m.active (s.update (portscanFields on p) now) = m.active s := by
  cases m <;> rfl

@[simp] theorem Mode.backupV4_update_portscan (m : Mode) (s : Saved) (on : Bool)
    (p : Option PortscanParams) (now : String) :
    m.backupV4 (s.update (portscanFields on p) now) = m.backupV4 s := by
  cases m <;> rfl

@[simp] theorem Mode.backupV6_update_portscan (m : Mode) (s : Saved) (on : Bool)
    (p : Option PortscanParams) (now : String) :
    m.backupV6 (s.update (portscanFields on p) now) = m.backupV6 s := by
  cases m <;> rfl

/-- Switching a mode off leaves the records of portscan protection alone. -/
theorem Mode.portscan_cleared (m : Mode) (s : Saved) (now : String) :
    (s.update m.cleared now).portscanProtection = s.portscanProtection ∧
      (s.update m.cleared now).portscanParams = s.portscanParams := by
  cases m <;> exact ⟨rfl, rfl⟩

def portscanTolerate : List String := ["Chain already exists"]

/-- The commands after the first one. -/
def portscanEdits (p : PortscanParams) : List (Command FilterHook Match) :=
  Firewall.filterPart (portscanCommands p).tail

/-- They are accepted once the chain exists. -/
theorem applied_portscanEdits (p : PortscanParams) {F : Fw}
    (hF : portscanChain ∈ F.filterTable.names) : Firewall.Applied Firewall.noSkip
      (portscanCommands p).tail F (F.perform (portscanCommands p).tail) :=
  Firewall.applied_of_fits_filter [portscanChain] (portscanEdits p)
    (by simp [portscanEdits, portscanCommands, portscanRules, Firewall.filterPart, ipt,
      Command.Fits, Rule.ResolvesIn, portscanLog, portscanNote, portscanJump, Target.chain?])
    (by simpa using hF)

/-- All the commands are accepted, whether the chain exists already or not. -/
theorem accepts_portscanCommands (p : PortscanParams) (F : Fw) :
    Accepts portscanTolerate (portscanCommands p) F := by
  show Accepts portscanTolerate (.filter (.newChain portscanChain) :: _) F
  rw [Accepts, Firewall.exec]
  rcases F.filterTable.exec_newChain portscanChain with ⟨hwith, h⟩ | ⟨u, h, hwith⟩
  · rw [h]
    exact ⟨by decide, accepts_of_applied (applied_portscanEdits p hwith.mem)⟩
  · rw [h]
    exact accepts_of_applied (applied_portscanEdits p hwith.mem)

theorem applied_portscanCommands (p : PortscanParams) (F : Fw) :
    ∃ G : Fw, F.filterTable.With portscanChain G.filterTable ∧ G.nat = F.nat ∧
      Firewall.Applied Firewall.noSkip (portscanCommands p).tail G
        (F.perform (portscanCommands p)) := by
  obtain ⟨G, hwith, hnat, hperform⟩ := F.perform_newChain_filter portscanChain
  refine ⟨G, hwith, hnat, ?_⟩
  rw [show F.perform (portscanCommands p) = G.perform (portscanCommands p).tail from hperform _]
  exact applied_portscanEdits p hwith.mem

/-- What they leave in the chain. -/
theorem lookup_portscanEdits (p : PortscanParams) {us : List (String × List (Rule Match))}
    (h : portscanChain ∈ us.map Prod.fst) : (Command.userAfter (portscanEdits p) us).lookup
      portscanChain = some [portscanLog, ⟨[], .drop⟩] := by
  simp only [portscanEdits, portscanCommands, portscanRules, Firewall.filterPart,
    Command.userAfter, ipt, List.map_cons, List.map_nil, List.tail_cons, List.filterMap_cons,
    List.filterMap_nil, List.foldl_cons, List.foldl_nil, Command.onUser, Command.chain?,
    Command.onRules]
  simp [Table.lookup_putUser, Table.putUser_names, h]

/-- **What an unforced call of `enable_portscan_protection` can do**, when every command
succeeds. -/
inductive PortscanEnabled (env : Environment) (p : PortscanParams) (w : World) :
    Bool → World → Prop
  | declined : PortscanEnabled env p w false w
  | already (hon : w.saved.portscanProtection = true) : PortscanEnabled env p w true w
  | done (he : env.Privileged) (hoff : w.saved.portscanProtection = false) (now : String) :
      PortscanEnabled env p w true { w with
        v4 := w.v4.perform (portscanCommands p)
        saved := w.saved.update (portscanFields true (some p)) now }

theorem enablePortscanProtection_wp (env : Environment) (p : PortscanParams) (w : World) :
    (enablePortscanProtection env p false).wp (machine allSucceed) (PortscanEnabled env p w)
      w := by
  rw [enablePortscanProtection]
  split
  · exact .declined
  rename_i ht
  split
  · exact .declined
  rename_i hr
  rw [Prog.wp_bind]
  refine wp_load ?_
  split
  · rename_i hon
    exact .already (by simpa using hon)
  rename_i hoff
  rw [Prog.wp_bind]
  refine applyRules_wp_perform _ _ _ (by simp [portscanRules, ipt])
    (fun _ _ => obeys_allSucceed _ _) fun b hb => ?_
  obtain rfl := hb.mpr ⟨rfl, accepts_portscanCommands p w.v4⟩
  rw [if_neg (by decide), Prog.wp_bind]
  exact wp_update fun now =>
    .done (Environment.privileged_of_guards ht hr) (by simpa using hoff) now

/-- **What a call of `disable_portscan_protection` does.** -/
inductive PortscanDisabled (env : Environment) (w : World) : World → Prop
  | idle (h : w.saved.portscanProtection = false ∨ ¬ env.Privileged) :
      PortscanDisabled env w w
  | done (he : env.Privileged) (hon : w.saved.portscanProtection = true) (now : String) :
      PortscanDisabled env w { w with
        v4 := w.v4.perform
          (portscanRemoval (w.saved.portscanParams.getD defaultPortscanParams))
        saved := w.saved.update (portscanFields false none) now }

theorem disablePortscanProtection_wp (env : Environment) (w : World) :
    (disablePortscanProtection env).wp (machine allSucceed)
      (fun _ => PortscanDisabled env w) w := by
  rw [disablePortscanProtection]
  split
  · rename_i hguard
    refine .idle (Or.inr fun he => ?_)
    simp [he.termux, he.root, he.hasIptables] at hguard
  rename_i hguard
  have he : env.Privileged := by
    simp only [Bool.or_eq_true, Bool.not_eq_true', not_or, Bool.not_eq_true,
      Bool.not_eq_false] at hguard
    exact ⟨hguard.1.1, hguard.1.2, hguard.2⟩
  rw [Prog.wp_bind]
  refine wp_load ?_
  split
  · rename_i hoff
    exact .idle (Or.inl (by simpa using hoff))
  rename_i hon
  rw [Prog.wp_bind]
  refine wp_load ?_
  rw [Prog.wp_bind]
  refine runAll_wp_obeys _ _ (fun _ _ => obeys_allSucceed _ _) ?_
  exact wp_update fun now => .done he (by simpa using hon) now

end PrivacyGuard
