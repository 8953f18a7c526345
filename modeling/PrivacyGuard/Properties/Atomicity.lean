import PrivacyGuard.Effect.History
import PrivacyGuard.Model.Actions

set_option autoImplicit false

/-! # Switching a mode on is all or nothing

A call that fails leaves the firewalls and the saved state as they were, a call that
succeeds sets the mode's flag, and the two kill switches change the firewall only after
they have found Tor or the proxy reachable and made their backup. -/

namespace PrivacyGuard

open Netfilter Effect

/-- What a kill switch must find reachable before it touches the firewall. -/
def Action.probe? : Action → Option External
  | .enableKillSwitch .. => some .checkTorActive
  | .enableProxyKillSwitch _ a _ => some (.proxyReachable a.proxyHost a.proxyPort)
  | _ => none

/-- The probe has been answered with yes, -/
def Found (e : External) (t : List (Event sig)) : Prop := ⟨.external e, true⟩ ∈ t

/-- and a complete run of `backup_rules` is among the events. -/
def BackedUp (env : Environment) (label : String) (t : List (Event sig)) : Prop :=
  ∃ t₁ t₂ t₃ b, t = t₁ ++ t₂ ++ t₃ ∧ (backupRules env label).Trace t₂ b

theorem found_append {e : External} {t : List (Event sig)} (h : Found e t)
    (u : List (Event sig)) : Found e (t ++ u) :=
  List.mem_append_left u h

theorem backedUp_append {env : Environment} {label : String} {t : List (Event sig)}
    (h : BackedUp env label t) (u : List (Event sig)) : BackedUp env label (t ++ u) := by
  obtain ⟨t₁, t₂, t₃, b, rfl, hb⟩ := h
  exact ⟨t₁, t₂, t₃ ++ u, b, by rw [List.append_assoc], hb⟩

theorem not_changes_of_quiet {o : Op} (h : Quiet o) : ¬ o.ChangesFirewall := by
  obtain ⟨e, rfl⟩ := h
  exact id

/-! ## What has happened before the firewall changes -/

section

variable {env : Environment} {e : External} {label : String}

/-- The events that must precede a change of the firewall. -/
def Prepared (env : Environment) (e : External) (label : String)
    (t : List (Event sig)) : Prop :=
  Found e t ∧ BackedUp env label t

theorem prepared_append {t : List (Event sig)} (h : Prepared env e label t)
    (ev : Event sig) : Prepared env e label (t ++ [ev]) :=
  ⟨found_append h.1 _, backedUp_append h.2 _⟩

/-- A step that leaves the firewall alone. -/
theorem guarded_other {α β : Type} {p : Proc α} (hp : p.all fun o : Op => ¬ o.ChangesFirewall)
    {f : α → Proc β} {t : List (Event sig)} {G : List (Event sig) → Prop}
    (hf : ∀ a tr, p.Trace tr a →
      (f a).guarded Op.ChangesFirewall G (fun _ _ => True) (t ++ tr)) :
    (p >>= f).guarded Op.ChangesFirewall G (fun _ _ => True) t := by
  rw [Prog.guarded_bind]
  refine Prog.guarded_mono (Prog.guarded_of_all hp t) ?_
  rintro a t' ⟨tr, rfl, htr⟩
  exact hf a tr htr

/-- `apply_ruleset` makes its backup first. -/
theorem applyRuleset_guarded {rules : List Invocation} {tolerate : List String} {β : Type}
    {f : Bool × Backups → Proc β} {t : List (Event sig)} (ht : Found e t) :
    (applyRuleset env rules label tolerate >>= f).guarded Op.ChangesFirewall
      (Prepared env e label) (fun _ _ => True) t := by
  rw [Prog.guarded_bind, applyRuleset]
  have hrest : ∀ b tr, (backupRules env label).Trace tr b → Prepared env e label (t ++ tr) :=
    fun b tr htr => ⟨found_append ht tr, t, tr, [], b, (List.append_nil _).symm, htr⟩
  rw [Prog.guarded_bind]
  refine Prog.guarded_mono (Prog.guarded_of_all (backupRules_changes env label) t) ?_
  rintro b t' ⟨tr, rfl, htr⟩
  refine Prog.guarded_mono
    (Prog.guarded_of_holds (fun _ ev h => prepared_append h ev) (hrest b tr htr)) ?_
  intro r t' ht'
  exact Prog.guarded_mono (Prog.guarded_of_holds (fun _ ev h => prepared_append h ev) ht')
    fun _ _ _ => trivial

/-- A poll that ends well has found Tor. -/
theorem pollTor_found : ∀ n tr, (pollTor n).Trace tr true → Found .checkTorActive tr := by
  intro n
  induction n with
  | zero =>
      intro tr h
      cases h
  | succ n ih =>
      intro tr h
      cases h with
      | call r h =>
          cases r with
          | true => exact List.mem_cons_self
          | false => exact List.mem_cons_of_mem _ (ih _ h)

theorem waitForTorBootstrap_found {timeout : Int} {tr : List (Event sig)}
    (h : (waitForTorBootstrap env timeout).Trace tr true) : Found .checkTorActive tr := by
  cases h with
  | call r h =>
      cases r with
      | true => exact List.mem_cons_self
      | false =>
          have h' : (startTor env >>= fun _ => pollTor ((timeout + 1) / 2).toNat).Trace _ true :=
            h
          obtain ⟨tr₁, b, tr₂, -, h₂, rfl⟩ := Prog.Trace.of_bind h'
          exact List.mem_cons_of_mem _ (List.mem_append_right _ (pollTor_found _ _ h₂))

/-- The Tor kill switch touches the firewall only with Tor reachable and a backup made. -/
theorem enableKillSwitch_guarded (env : Environment) (force : Bool) (timeout : Int) :
    (enableKillSwitch env force timeout).guarded Op.ChangesFirewall
      (Prepared env .checkTorActive Mode.tor.label) (fun _ _ => True) [] := by
  rw [enableKillSwitch]
  split
  · trivial
  split
  · trivial
  split
  · trivial
  -- the saved flags, the torrc, a restart of Tor: nothing so far touches the firewall
  refine guarded_other ((Prog.all_op _).mpr id) fun st _ _ => ?_
  split
  · trivial
  split
  · trivial
  refine guarded_other ((Prog.all_op _).mpr id) fun changed _ _ => ?_
  refine guarded_other
    (Prog.all_mono (restartTor_quiet changed) fun _ => not_changes_of_quiet) fun _ _ _ => ?_
  refine guarded_other
    (Prog.all_mono (waitForTorBootstrap_quiet env timeout) fun _ => not_changes_of_quiet)
    fun reachable tr htr => ?_
  cases reachable with
  | false => trivial
  | true =>
      rw [if_neg (by decide)]
      exact applyRuleset_guarded (List.mem_append_right _ (waitForTorBootstrap_found htr))

/-- The proxy-only kill switch touches the firewall only with the proxy reachable and a
backup made. -/
theorem enableProxyKillSwitch_guarded (env : Environment) (a : ProxyArgs) (force : Bool) :
    (enableProxyKillSwitch env a force).guarded Op.ChangesFirewall
      (Prepared env (.proxyReachable a.proxyHost a.proxyPort) Mode.proxyOnly.label)
      (fun _ _ => True) [] := by
  rw [enableProxyKillSwitch]
  split
  · trivial
  split
  · trivial
  refine guarded_other ((Prog.all_op _).mpr id) fun redsocks _ _ => ?_
  split
  · trivial
  refine guarded_other ((Prog.all_op _).mpr id) fun (reachable : Bool) tr htr => ?_
  split
  · trivial
  rename_i hreach
  obtain rfl : reachable = true := by simpa using hreach
  -- the only event of the probe is the probe itself
  have hfound : Found (.proxyReachable a.proxyHost a.proxyPort) tr := by
    cases htr with
    | call r h =>
        cases h
        exact List.mem_singleton_self _
  refine guarded_other ((Prog.all_op _).mpr id) fun st _ _ => ?_
  split
  · trivial
  split
  · trivial
  refine guarded_other ((Prog.all_op _).mpr id) fun _ _ _ => ?_
  refine guarded_other
    (Prog.all_mono startRedsocks_quiet fun _ => not_changes_of_quiet) fun _ _ _ => ?_
  refine applyRuleset_guarded ?_
  exact found_append (found_append (found_append (List.mem_append_right _ hfound) _) _) _

theorem Action.guarded {x : Action} {m : Mode} {e : External} (hx : x.enables? = some m)
    (he : x.probe? = some e) :
    x.body.guarded Op.ChangesFirewall (Prepared x.env e m.label) (fun _ _ => True) [] := by
  cases x with
  | enableKillSwitch env force t =>
      cases hx
      cases he
      exact enableKillSwitch_guarded env force t
  | enableProxyKillSwitch env a force =>
      cases hx
      cases he
      exact enableProxyKillSwitch_guarded env a force
  | enableGateway env a force => cases he
  | _ => cases hx

end

/-! ## All or nothing -/

/-- The result of an enable function tells whether it has done all or nothing. -/
theorem Enable.all_or_nothing {m : Mode} {a : Activation m} {env : Environment} {force : Bool}
    {w w' : World} {b : Bool} (h : Enable a env force w b w') :
    (b = false → w'.v4 = w.v4 ∧ w'.v6 = w.v6 ∧ w'.saved = w.saved) ∧
      (b = true → m.active w'.saved = true) := by
  cases h with
  | declined => exact ⟨fun _ => ⟨rfl, rfl, rfl⟩, fun hb => (nomatch hb)⟩
  | already h hf => exact ⟨fun hb => (nomatch hb), fun _ => h⟩
  | rolledBack he hforce hfree ts => exact ⟨fun _ => by simp, fun hb => (nomatch hb)⟩
  | applied he hforce hfree ts now F F6 s hF hF6 hs =>
      refine ⟨fun hb => (nomatch hb), fun _ => ?_⟩
      show m.active s = true
      rw [hs.active, a.active]

/-- **Atomicity of the enable functions.** -/
theorem enable_all_or_nothing {x : Action} {m : Mode} (hx : x.enables? = some m)
    {w w' : World} {tr : List (Event sig)} {b : Bool}
    (h : Prog.Runs (machine reliableBackups) x.body w tr b w') :
    (b = false → w'.v4 = w.v4 ∧ w'.v6 = w.v6 ∧ w'.saved = w.saved) ∧
      (b = true → m.active w'.saved = true) ∧
      ∀ e, x.probe? = some e → ∀ t₁ ev t₂, tr = t₁ ++ ev :: t₂ → ev.1.ChangesFirewall →
        Found e t₁ ∧ BackedUp x.env m.label t₁ := by
  obtain ⟨a, ha⟩ := Action.of_enables hx
  have hend := (h.post (ha.enable saves_reliable restores_reliable w)).all_or_nothing
  refine ⟨hend.1, hend.2, fun e he t₁ ev t₂ htr hev => ?_⟩
  have hpre := Prog.Steps.guarded h (Action.guarded hx he) t₁ ev t₂ htr hev
  rwa [List.nil_append] at hpre

/-- `enable_kill_switch` on a server that admits only SSH, where the last rule fails. -/
def enabledButLast : Bool × World :=
  (Action.enableKillSwitch .full false 45).body.run (machine reliableBackups)
    (failing (.filter (.append (.hook .output) ⟨[], .drop⟩))) (.start sshServer sshServer)

/-- All the rules before it are rolled back. -/
theorem enable_all_or_nothing_tor : enabledButLast.2.v4 = sshServer ∧
    enabledButLast.2.v6 = sshServer ∧ enabledButLast.2.saved = defaultState := by
  have hfalse : enabledButLast.1 = false := by decide +kernel
  obtain ⟨tr, htr⟩ := Prog.runs_of_run (H := machine reliableBackups) (reliableBackups_failing _)
    hfalse
  exact (enable_all_or_nothing rfl htr).1 rfl

end PrivacyGuard
