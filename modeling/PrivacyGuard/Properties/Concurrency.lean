import PrivacyGuard.Effect.Serial
import PrivacyGuard.Properties.BackupIntegrity

set_option autoImplicit false

/-! # Kill-switch calls in parallel

The GUI runs every action in a thread of its own. A call reads the saved flags once, and
writes them after its commands; the lock of the state file covers each single access only.
Two calls that have both read the flags before one has written them act on the same firewall,
and both kill switches end up marked active. As long as a call gets past its check of the
flags only while no other call is past its own, the calls have the effect of a sequential
run, however their other operations are interleaved. -/

namespace PrivacyGuard

open Netfilter Effect

/-- The operation that reads the saved state. -/
def isLoad : sig.Op → Bool
  | .load => true
  | _ => false

/-- The flags a call of a kill switch looks at. -/
def flags (w : World) : Bool × Bool := (w.saved.torKillSwitch, w.saved.proxyOnlyKillSwitch)

/-! ## Every call checks and then acts -/

section

variable {A : Op → Choice → World → Prop} {env : Environment}

/-- The answers to questions and reads are not restricted by the state of the machine. -/
structure Unbiased (A : Op → Choice → World → Prop) : Prop where
  external : ∀ e c w w', A (.external e) c w → A (.external e) c w'
  load : ∀ c w w', A .load c w → A .load c w'

theorem unbiased_reliable : Unbiased reliableBackups :=
  ⟨fun _ _ _ _ h => h, fun _ _ _ h => h⟩

theorem silent_external (hA : Unbiased A) (e : External) :
    (machine A).Silent (.external e) where
  state _ _ := rfl
  answer _ _ _ := rfl
  admits c w w' h := hA.external e c w w' h

theorem reads_load (hA : Unbiased A) : (machine A).Reads .load where
  state _ _ := rfl
  admits c w w' h := hA.load c w w' h

theorem keeps_of_keepsSaved {o : Op} (ho : KeepsSaved o) :
    (machine A).Keeps flags o := fun c w =>
  congrArg (fun s : Saved => (s.torKillSwitch, s.proxyOnlyKillSwitch)) (ho.exec c w)

theorem keeps_of_quiet {o : Op} (ho : Quiet o) : (machine A).Keeps flags o := by
  obtain ⟨e, rfl⟩ := ho
  exact fun _ _ => rfl

theorem runChecked_keeps (f : Family) :
    ∀ cs, (runChecked f cs).all ((machine A).Keeps flags)
  | [] => Prog.all_pure _
  | _ :: cs => Prog.all_bind
      ((Prog.all_op _).mpr (keeps_of_keepsSaved fun _ h => nomatch h))
      fun _ => Prog.all_ite (runChecked_keeps f cs) (Prog.all_pure _)

/-- Blocking IPv6 leaves the flags of the kill switches alone. -/
theorem blockIpv6_keeps (env : Environment) :
    (blockIpv6 env).all ((machine A).Keeps flags) := by
  refine Prog.all_ite (Prog.all_pure _) (Prog.all_bind ?_ fun st => ?_)
  · exact (Prog.all_op _).mpr fun _ _ => rfl
  · refine Prog.all_ite (Prog.all_pure _) (Prog.all_bind (runChecked_keeps _ _) fun ok => ?_)
    refine Prog.all_ite (Prog.all_pure _) (Prog.all_bind ?_ fun _ => Prog.all_pure _)
    exact (Prog.all_op _).mpr fun _ _ => rfl

/-- What follows the checks of an enable function writes the flags once. -/
theorem Activation.apply_actsOnce {m : Mode} (a : Activation m) {f : Bool × Backups → Proc Bool}
    (hfail : ∀ b, f (false, b) = pure false) (hok : ∀ b, f (true, b) = a.finish env b) :
    (applyRuleset env a.rules m.label a.tolerate >>= f).ActsOnce (machine A) flags := by
  refine Prog.actsOnce_bind (Prog.all_mono (applyRuleset_keepsSaved _ _ _)
    fun o ho => keeps_of_keepsSaved ho) ?_
  rintro ⟨ok, b⟩
  cases ok with
  | false =>
      rw [hfail]
      trivial
  | true =>
      have hlock : (lockIpv6 env a.lock).all ((machine A).Keeps flags) :=
        Prog.all_ite (Prog.all_mono (runAll_keepsSaved _ _) fun o ho => keeps_of_keepsSaved ho)
          (Prog.all_pure _)
      rw [hok, Activation.finish]
      refine Prog.actsOnce_bind hlock fun _ => Or.inr fun _ => ?_
      exact Prog.all_bind (p := blockIpv6 env) (blockIpv6_keeps env) fun _ => Prog.all_pure _

theorem all_keeps_of_quiet {α : Type} {p : Proc α} (hp : p.all Quiet) :
    p.all ((machine A).Keeps flags) :=
  Prog.all_mono hp fun _ ho => keeps_of_quiet ho

theorem enableKillSwitch_checks (hA : Unbiased A) (env : Environment) (timeout : Int) :
    (enableKillSwitch env false timeout).CheckThenAct (machine A) isLoad flags := by
  rw [enableKillSwitch]
  split
  · exact .ret _
  split
  · exact .ret _
  split
  · exact .ret _
  -- the check looks at the two flags and at nothing else
  refine .check (reads_load hA) rfl (fun x s s' hflags => ?_) fun st => ?_
  · obtain ⟨htor, hproxy⟩ := Prod.mk.inj hflags
    show Prog.isRet (if s.saved.torKillSwitch && !false then _ else
        if s.saved.proxyOnlyKillSwitch then _ else _) = true →
      Prog.isRet (if s'.saved.torKillSwitch && !false then _ else
        if s'.saved.proxyOnlyKillSwitch then _ else _) = true
    rw [htor, hproxy]
    exact id
  · refine Prog.actsOnce_ite trivial (Prog.actsOnce_ite trivial ?_)
    refine Prog.actsOnce_bind (all_keeps_of_quiet (quiet_external _)) fun changed => ?_
    refine Prog.actsOnce_bind (all_keeps_of_quiet (restartTor_quiet changed)) fun _ => ?_
    refine Prog.actsOnce_bind (all_keeps_of_quiet (waitForTorBootstrap_quiet env _))
      fun reachable => Prog.actsOnce_ite trivial ?_
    exact torActivation.apply_actsOnce (fun _ => rfl) fun _ => rfl

theorem enableProxyKillSwitch_checks (hA : Unbiased A) (env : Environment) (a : ProxyArgs) :
    (enableProxyKillSwitch env a false).CheckThenAct (machine A) isLoad flags := by
  rw [enableProxyKillSwitch]
  split
  · exact .ret _
  split
  · exact .ret _
  refine .silent (silent_external hA _) rfl fun redsocks => ?_
  show Prog.CheckThenAct _ _ _ (if !redsocks then _ else _)
  split
  · exact .ret _
  refine .silent (silent_external hA _) rfl fun reachable => ?_
  show Prog.CheckThenAct _ _ _ (if !reachable then _ else _)
  split
  · exact .ret _
  -- the check looks at the two flags and at nothing else
  refine .check (reads_load hA) rfl (fun x s s' hflags => ?_) fun st => ?_
  · obtain ⟨htor, hproxy⟩ := Prod.mk.inj hflags
    show Prog.isRet (if s.saved.proxyOnlyKillSwitch && !false then _ else
        if s.saved.torKillSwitch then _ else _) = true →
      Prog.isRet (if s'.saved.proxyOnlyKillSwitch && !false then _ else
        if s'.saved.torKillSwitch then _ else _) = true
    rw [htor, hproxy]
    exact id
  · refine Prog.actsOnce_ite trivial (Prog.actsOnce_ite trivial ?_)
    refine Prog.actsOnce_bind (all_keeps_of_quiet (quiet_external _)) fun _ => ?_
    refine Prog.actsOnce_bind (all_keeps_of_quiet startRedsocks_quiet) fun _ => ?_
    exact (proxyActivation a).apply_actsOnce (fun _ => rfl) fun _ => rfl

/-- A disable function of a kill switch. -/
theorem disableMode_checks (hA : Unbiased A) {m m' : Mode} (hm : Opposite m m') (env : Environment)
    {stop : Proc Unit} (hstop : stop.all Quiet) :
    (disableMode m env stop).CheckThenAct (machine A) isLoad flags := by
  rw [disableMode]
  split
  · exact .ret _
  split
  · exact .ret _
  -- the check looks at the mode's own flag only
  refine .check (reads_load hA) rfl (fun x s s' hflags => ?_) fun st => ?_
  · have hact : m.active s'.saved = m.active s.saved := by
      obtain ⟨htor, hproxy⟩ := Prod.mk.inj hflags
      cases hm with
      | tor => exact htor.symm
      | proxyOnly => exact hproxy.symm
    show Prog.isRet (if !m.active s.saved then _ else _) = true →
      Prog.isRet (if !m.active s'.saved then _ else _) = true
    rw [hact]
    split
    · exact id
    · -- past the check there is at least the update still to do
      intro h
      obtain ⟨_, h⟩ := Prog.isRet_of_bind h
      obtain ⟨_, h⟩ := Prog.isRet_of_bind h
      cases h
  · refine Prog.actsOnce_ite trivial ?_
    refine Prog.actsOnce_bind (Prog.all_mono (restoreRules_keepsSaved _ _)
      fun o ho => keeps_of_keepsSaved ho) fun _ => ?_
    refine Prog.actsOnce_bind (all_keeps_of_quiet hstop) fun _ => ?_
    exact Or.inr fun _ => trivial

theorem Action.checks (hA : Unbiased A) {x : Action} (hx : x.Switches) :
    x.body.CheckThenAct (machine A) isLoad flags := by
  have hdis : ∀ {m m'}, Opposite m m' → x.disables? = some m →
      x.body.CheckThenAct (machine A) isLoad flags := by
    intro m m' hm hxm
    obtain ⟨stop, hstop, hbody⟩ := Action.of_disables hxm
    rw [hbody]
    exact (disableMode_checks hA hm x.env hstop).map _
  cases x with
  | enableKillSwitch env force t =>
      obtain rfl : force = false := hx.force
      exact enableKillSwitch_checks hA env t
  | enableProxyKillSwitch env a force =>
      obtain rfl : force = false := hx.force
      exact enableProxyKillSwitch_checks hA env a
  | disableKillSwitch env => exact hdis .tor rfl
  | disableProxyKillSwitch env => exact hdis .proxyOnly rfl
  | _ => rcases hx.mode with h | h | h | h <;> cases h

end

/-! ## Not both at once -/

/-- The two kill switches are not both marked active. -/
def NotBoth (s : Saved) : Prop :=
  ¬ (s.torKillSwitch = true ∧ s.proxyOnlyKillSwitch = true)

theorem notBoth_iff {m m' : Mode} (hm : Opposite m m') (s : Saved) :
    NotBoth s ↔ ¬ (m.active s = true ∧ m'.active s = true) := by
  cases hm with
  | tor => exact Iff.rfl
  | proxyOnly => exact not_congr and_comm

theorem Intact.notBoth {env : Environment} {F F6 : Fw} {w : World} (h : Intact env F F6 w) :
    NotBoth w.saved := by
  rintro ⟨ht, hp⟩
  have hoff : w.saved.proxyOnlyKillSwitch = false := (h.on_of .tor ht).1
  rw [hp] at hoff
  cases hoff

theorem Action.along_notBoth {A : Op → Choice → World → Prop} {w : World} {x : Action}
    (hx : x.Switches) (hw : NotBoth w.saved) :
    x.body.along (machine A) (fun w' => NotBoth w'.saved) (fun _ w' => NotBoth w'.saved) w := by
  have hen : ∀ {m m'}, Opposite m m' → x.enables? = some m → x.body.along (machine A)
      (fun w' => NotBoth w'.saved) (fun _ w' => NotBoth w'.saved) w := by
    intro m m' hm hxm
    obtain ⟨a, ha⟩ := Action.of_enables hxm
    refine ha.along_saved hw fun _ hfree b now s hs => (notBoth_iff hm s).mpr fun h => ?_
    rw [hm.conflict] at hfree
    rw [hs.active, hs.active, a.other _ _ _ _ hm.ne.symm, hfree] at h
    cases h.2
  have hdis : ∀ {m m'}, Opposite m m' → x.disables? = some m → x.body.along (machine A)
      (fun w' => NotBoth w'.saved) (fun _ w' => NotBoth w'.saved) w := by
    intro m m' hm hxm
    refine Action.along_saved_disable hxm hw fun now => (notBoth_iff hm _).mpr fun h => ?_
    rw [Mode.active_cleared] at h
    cases h.1
  rcases hx.mode with hm | hm | hm | hm
  · exact hen .tor hm
  · exact hen .proxyOnly hm
  · exact hdis .tor hm
  · exact hdis .proxyOnly hm

/-! ## The effect of a sequential run -/

section

variable {κ : Type} {A : Op → Choice → World → Prop} {env : Environment} {xs : κ → Action}
  {w w' : World}

theorem intact_of_calls (hS : Saves A) (hR : Restores A) (hxs : ∀ i, (xs i).Switches)
    (henv : ∀ i, (xs i).env = env) {cs : List (κ × Bool)} (hw : w.saved = defaultState)
    (h : Calls (machine A) (fun i => (xs i).body) (fun _ _ => True) w cs w') :
    Intact env w.v4 w.v6 w' :=
  h.invariant (fun i _ _ hI => Action.intact hS hR (hxs i) (by rw [henv i]) hI)
    (intact_start env hw)

/-- **Kill-switch calls in parallel.** If a call gets past its check only while no other
call is past its own, the two kill switches are never both marked active; and when all calls
have finished, they have had the effect of running one after the other in some order, and
the firewalls, if backups work, are the initial ones unless a kill switch is on. -/
theorem serial_of_oneAtATime [DecidableEq κ] [Fintype κ] (hA : Unbiased A)
    (hxs : ∀ i, (xs i).Switches) (henv : ∀ i, (xs i).env = env) (hw : w.saved = defaultState)
    {c : κ → Thread sig Bool}
    (h : Interleaved (machine A) (OneAtATime isLoad) (start fun i => (xs i).body) w c w') :
    NotBoth w'.saved ∧
    ((∀ i, (c i).rest.isRet = true) →
      (∃ order : List κ, order.Nodup ∧ (∀ i, i ∈ order) ∧
        Performed (machine A) (fun i => (xs i).body) w order w') ∧
      (Saves A → Restores A → w'.saved.torKillSwitch = false →
        w'.saved.proxyOnlyKillSwitch = false → w'.v4 = w.v4 ∧ w'.v6 = w.v6)) := by
  have hchecks : ∀ i, (xs i).body.CheckThenAct (machine A) isLoad flags :=
    fun i => Action.checks hA (hxs i)
  have hstart : NotBoth w.saved := by
    rw [hw]
    exact fun hboth => (nomatch hboth.1)
  refine ⟨?_, fun hdone => ?_⟩
  · -- every state reached is one of a sequential run
    exact (h.reached hchecks).invariant (I := fun w' => NotBoth w'.saved)
      (fun i _ _ hI => Action.along_notBoth (hxs i) hI) hstart
  · obtain ⟨order, hnodup, hall, hperf⟩ := h.performed hchecks hdone
    refine ⟨⟨order, hnodup, hall, hperf⟩, fun hS hR ht hp => ?_⟩
    obtain ⟨cs, hcs, -⟩ := hperf
    exact (intact_of_calls hS hR hxs henv hw hcs).off_of .tor ht hp

end

/-- Both kill switches are switched on. -/
def bothSwitches : Bool → Action
  | false => .enableKillSwitch .full false 45
  | true => .enableProxyKillSwitch .full ⟨"127.0.0.1", 1080, "socks5", none, none⟩ false

theorem bothSwitches_switches (i : Bool) : (bothSwitches i).Switches := by
  cases i with
  | false => exact ⟨.inl rfl, rfl⟩
  | true => exact ⟨.inr (.inl rfl), rfl⟩

theorem bothSwitches_env (i : Bool) : (bothSwitches i).env = .full := by
  cases i <;> rfl

def afterSchedule (schedule : List Bool) : (Bool → Thread sig Bool) × World :=
  runSchedule (machine reliableBackups) goWell schedule (start fun i => (bothSwitches i).body)
    (.start sshServer Firewall.blank)

/-- The proxy is probed first, and the flags are read for its kill switch while the Tor kill
switch is still blocking IPv6. -/
def readDuring : List Bool :=
  [true, true] ++ List.replicate 22 false ++ [true] ++ List.replicate 6 false

/-- The second call is declined. -/
theorem serial_of_oneAtATime_readDuring :
    NotBoth (afterSchedule readDuring).2.saved ∧
      ∃ order : List Bool, order.Nodup ∧ (∀ i, i ∈ order) ∧
        Performed (machine reliableBackups) (fun i => (bothSwitches i).body)
          (.start sshServer Firewall.blank) order (afterSchedule readDuring).2 := by
  have h : Interleaved (machine reliableBackups) (OneAtATime isLoad)
      (start fun i => (bothSwitches i).body) (.start sshServer Firewall.blank)
      (afterSchedule readDuring).1 (afterSchedule readDuring).2 :=
    interleaved_runSchedule reliableBackups_goWell (by decide +kernel)
  have hserial := serial_of_oneAtATime unbiased_reliable bothSwitches_switches bothSwitches_env
    rfl h
  exact ⟨hserial.1, (hserial.2 (by decide +kernel)).1⟩

/-- The flags are read for the Tor kill switch before the other one has written them. -/
def readBefore : List Bool :=
  [false] ++ List.replicate 23 true ++ List.replicate 20 false

/-- The firewalls, the flags of the kill switches and the recorded backups are the same. -/
structure SameOutcome (w w' : World) : Prop where
  v4 : w.v4 = w'.v4
  v6 : w.v6 = w'.v6
  torKillSwitch : w.saved.torKillSwitch = w'.saved.torKillSwitch
  proxyOnlyKillSwitch : w.saved.proxyOnlyKillSwitch = w'.saved.proxyOnlyKillSwitch
  iptablesBackup : w.saved.iptablesBackup = w'.saved.iptablesBackup
  ip6tablesBackup : w.saved.ip6tablesBackup = w'.saved.ip6tablesBackup
  natIptablesBackup : w.saved.natIptablesBackup = w'.saved.natIptablesBackup

/-- Neither call sees the other, and no sequential run marks both active. -/
theorem not_serial :
    ¬ ∀ (κ : Type) [DecidableEq κ] [Fintype κ] (env : Environment) (xs : κ → Action)
        (w w' : World) (c : κ → Thread sig Bool),
      (∀ i, (xs i).Switches) → (∀ i, (xs i).env = env) → w.saved = defaultState →
      Interleaved (machine reliableBackups) (fun _ _ => True) (start fun i => (xs i).body) w c
        w' →
      (∀ i, (c i).rest.isRet = true) →
      ∃ (order : List κ) (w'' : World), order.Nodup ∧ (∀ i, i ∈ order) ∧
        Performed (machine reliableBackups) (fun i => (xs i).body) w order w'' ∧
        SameOutcome w' w'' := by
  intro h
  have hrun : Interleaved (machine reliableBackups) (fun _ _ => True)
      (start fun i => (bothSwitches i).body) (.start sshServer Firewall.blank)
      (afterSchedule readBefore).1 (afterSchedule readBefore).2 :=
    interleaved_runSchedule reliableBackups_goWell (by decide +kernel)
  obtain ⟨order, w'', -, -, ⟨cs, hcs, -⟩, hsame⟩ :=
    h Bool .full bothSwitches _ _ _ bothSwitches_switches bothSwitches_env rfl hrun
      (by decide +kernel)
  have hintact := intact_of_calls saves_reliable restores_reliable bothSwitches_switches
    bothSwitches_env rfl hcs
  refine hintact.notBoth ⟨?_, ?_⟩
  · rw [← hsame.torKillSwitch]
    decide +kernel
  · rw [← hsame.proxyOnlyKillSwitch]
    decide +kernel

end PrivacyGuard
