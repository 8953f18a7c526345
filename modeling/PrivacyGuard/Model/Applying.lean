import PrivacyGuard.Model.Switching

set_option autoImplicit false

/-! # Calls that answer yes

The enable functions of the proxy-only kill switch and of portscan protection tolerate the
message `Chain already exists`. Whatever else fails, a command that prints it has been refused
by the kernel for that reason. So a call that answers yes has performed all its commands,
except perhaps the creation of a chain that existed already. -/

namespace PrivacyGuard

open Netfilter Effect

/-- `iptables` says that a chain exists already only where the kernel says so. Anything may
fail. -/
def truthful : Op → Choice → World → Prop
  | .iptables _ _, c, _ => c.ok = false → tolerated ["Chain already exists"] c.text = false
  | _, _, _ => True

theorem truthful_goWell (o : Op) (w : World) : truthful o (goWell o w) w := by
  cases o with
  | iptables f c => exact fun h => (nomatch h)
  | _ => trivial

/-- The kernel refuses the command. -/
def Refused (c : FwCommand Match) (F : Fw) : Prop := ∃ e, F.exec c = .error e

theorem skips_truthful : Skips truthful ["Chain already exists"] Refused := by
  rintro cmd w e ⟨c, hc, hx⟩ htol
  cases hok : c.ok with
  | false =>
      rw [exec, hok] at hx
      cases hx
      rw [hc hok] at htol
      cases htol
  | true =>
      rw [exec, if_pos hok] at hx
      split at hx
      · cases hx
      · rename_i e' he
        exact ⟨e', he⟩

section

variable {env : Environment} {w w' : World} {tr : List (Event sig)} {force : Bool}

/-- A call of `enable_proxy_kill_switch` that answers yes and did not find the mode on. -/
theorem proxyRules_performed {a : ProxyArgs}
    (hrun : Prog.Runs (machine truthful) (enableProxyKillSwitch env a force) w tr true w')
    (hforce : w.saved.proxyOnlyKillSwitch = true → force = true) :
    w'.v4 = w.v4.perform (proxyRules.map (·.command)) := by
  have happ := hrun.post ((enableProxyKillSwitch_follows env a force).applied_skip skips_truthful
    hforce) rfl
  exact (happ.perform_of_refused fun _ _ h => h).symm

/-- **What a call of `enable_portscan_protection` has done that answers yes.** -/
inductive PortscanApplied (env : Environment) (p : PortscanParams) (force : Bool) (w : World) :
    World → Prop
  | already (he : env.Privileged) (hon : w.saved.portscanProtection = true)
      (hforce : force = false) : PortscanApplied env p force w w
  | done (he : env.Privileged) (hforce : w.saved.portscanProtection = true → force = true)
      (now : String) : PortscanApplied env p force w { w with
        v4 := w.v4.perform (portscanCommands p)
        saved := w.saved.update (portscanFields true (some p)) now }

theorem enablePortscanProtection_wp_truthful (env : Environment) (p : PortscanParams)
    (force : Bool) (w : World) :
    (enablePortscanProtection env p force).wp (machine truthful)
      (fun b w' => b = true → PortscanApplied env p force w w') w := by
  rw [enablePortscanProtection]
  split
  · exact fun h => absurd h Bool.false_ne_true
  rename_i ht
  split
  · exact fun h => absurd h Bool.false_ne_true
  rename_i hr
  have he := Environment.privileged_of_guards ht hr
  rw [Prog.wp_bind]
  refine wp_load ?_
  split
  · rename_i hon
    simp only [Bool.and_eq_true, Bool.not_eq_true'] at hon
    exact fun _ => .already he hon.1 hon.2
  rename_i hon
  rw [Prog.wp_bind]
  refine applyRules_wp skips_truthful _ _ _ (by simp [portscanRules, ipt]) (fun F => ?_) ?_
  · exact fun h => absurd h Bool.false_ne_true
  · intro _ F hF
    rw [if_neg (by decide), Prog.wp_bind]
    refine wp_update fun now _ => ?_
    have hF : w.v4.perform (portscanCommands p) = F := hF.perform_of_refused fun _ _ h => h
    rw [← hF]
    exact .done he (forced_of_guard hon) now

theorem portscan_of_runs {p : PortscanParams}
    (hrun : Prog.Runs (machine truthful) (enablePortscanProtection env p force) w tr true w') :
    PortscanApplied env p force w w' :=
  hrun.post (enablePortscanProtection_wp_truthful env p force w) rfl

end

end PrivacyGuard
