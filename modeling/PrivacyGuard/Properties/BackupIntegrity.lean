import PrivacyGuard.Model.Actions

set_option autoImplicit false

/-! # The backups of the two kill switches

The Tor and the proxy-only kill switch record their IPv6 backup in the same field and their
IPv4 backups in different ones. In every run of the two, both firewalls are the initial
ones while no kill switch is on, and while one is on its backups hold the initial ones. -/

namespace PrivacyGuard

open Netfilter Effect

/-- Where the initial firewalls are: in place while no kill switch is on, else in the
backups of the one that is. -/
inductive Intact (env : Environment) (F F6 : Fw) (w : World) : Prop
  | off {m m' : Mode} (hm : Opposite m m') (hoff : m.active w.saved = false)
      (hoff' : m'.active w.saved = false) (h4 : w.v4 = F) (h6 : w.v6 = F6)
  | on {m m' : Mode} (hm : Opposite m m') (hon : m.active w.saved = true)
      (hoff : m'.active w.saved = false) (hrec : m.Holds env w F F6)

section

variable {F F6 : Fw} {w w' : World} {m m' : Mode} {env env' : Environment}

theorem intact_start (env : Environment) (hw : w.saved = defaultState) :
    Intact env w.v4 w.v6 w :=
  .off .tor (by rw [hw]; rfl) (by rw [hw]; rfl) rfl rfl

theorem Intact.off_of (h : Intact env F F6 w) (hm : Opposite m m')
    (hoff : m.active w.saved = false) (hoff' : m'.active w.saved = false) :
    w.v4 = F ∧ w.v6 = F6 := by
  cases h with
  | off _ _ _ h4 h6 => exact ⟨h4, h6⟩
  | on hn hon _ _ =>
      cases hm <;> cases hn <;> simp_all

theorem Intact.on_of (h : Intact env F F6 w) (hm : Opposite m m')
    (hon : m.active w.saved = true) : m'.active w.saved = false ∧ m.Holds env w F F6 := by
  cases h with
  | off hn hoff hoff' _ _ => cases hm <;> cases hn <;> simp_all
  | on hn hon' hoff hrec =>
      cases hm <;> cases hn <;> simp_all

/-- Switching a kill switch on, without force. -/
theorem Intact.enable (h : Intact env F F6 w) (hm : Opposite m m') {a : Activation m}
    {b : Bool} (henv : env'.hasIp6tables = env.hasIp6tables)
    (he : Enable a env' false w b w') : Intact env F F6 w' := by
  cases he with
  | declined => exact h
  | already _ _ => exact h
  | rolledBack _ hforce hfree ts =>
      rw [hm.conflict] at hfree
      have hoff := Mode.off_of_unforced hforce
      obtain ⟨hF, hF6⟩ := h.off_of hm hoff hfree
      obtain ⟨files, hfiles⟩ := World.backUp_eq w env' m.label ts
      rw [hfiles]
      exact .off hm hoff hfree hF hF6
  | applied _ hforce hfree ts now G G6 s hG hG6 hs =>
      -- both were off, so the firewalls backed up are the initial ones
      rw [hm.conflict] at hfree
      have hoff := Mode.off_of_unforced hforce
      obtain ⟨rfl, rfl⟩ := h.off_of hm hoff hfree
      refine .on hm ?_ ?_ ((Enable.holds hG6 hs).congr henv)
      · show m.active s = true
        rw [hs.active, a.active]
      · show m'.active s = false
        rw [hs.active, a.other _ _ _ _ hm.ne.symm, hfree]

/-- Switching a kill switch off. -/
theorem Intact.disable {A : Op → Choice → World → Prop} (hR : Restores A)
    (h : Intact env F F6 w) (hm : Opposite m m') {stop : Proc Unit}
    (henv : env'.hasIp6tables = env.hasIp6tables) (hstop : stop.all Quiet) :
    (disableMode m env' stop).wp (machine A) (fun _ => Intact env F F6) w := by
  by_cases hon : m.active w.saved = true ∧ env'.Privileged
  · obtain ⟨hoff', hrec⟩ := h.on_of hm hon.1
    refine disableMode_wp_active hR hon.2 hon.1 (hrec.congr henv.symm) hstop
      fun now => .off hm (m.active_cleared _ _) ?_ rfl rfl
    show m'.active (w.saved.update m.cleared now) = false
    rw [Mode.active_cleared_of_ne m _ _ hm.ne.symm, hoff']
  · refine disableMode_wp_inactive ?_ h
    rw [not_and_or, Bool.not_eq_true] at hon
    exact hon

end

/-- A call of one of the two kill switches, without force. -/
structure Action.Switches (x : Action) : Prop where
  mode : x.enables? = some .tor ∨ x.enables? = some .proxyOnly ∨ x.disables? = some .tor ∨
    x.disables? = some .proxyOnly
  force : x.force = false

theorem Action.intact {A : Op → Choice → World → Prop} (hS : Saves A) (hR : Restores A)
    {env : Environment} {F F6 : Fw} {w : World} {x : Action} (hx : x.Switches)
    (henv : x.env.hasIp6tables = env.hasIp6tables) (h : Intact env F F6 w) :
    x.body.wp (machine A) (fun _ => Intact env F F6) w := by
  have hen : ∀ {m m'}, Opposite m m' → x.enables? = some m →
      x.body.wp (machine A) (fun _ => Intact env F F6) w := by
    intro m m' hm hxm
    obtain ⟨a, ha⟩ := Action.of_enables hxm
    rw [hx.force] at ha
    exact Prog.wp_mono (ha.enable hS hR w) fun b w' he => h.enable hm henv he
  have hdis : ∀ {m m'}, Opposite m m' → x.disables? = some m →
      x.body.wp (machine A) (fun _ => Intact env F F6) w := by
    intro m m' hm hxm
    obtain ⟨stop, hstop, hbody⟩ := Action.of_disables hxm
    rw [hbody, Prog.wp_map]
    exact h.disable hR hm henv hstop
  rcases hx.mode with hm | hm | hm | hm
  · exact hen .tor hm
  · exact hen .proxyOnly hm
  · exact hdis .tor hm
  · exact hdis .proxyOnly hm

/-- Both tools exist. -/
structure Action.HasTools (x : Action) : Prop where
  hasIptables : x.env.hasIptables = true
  hasIp6tables : x.env.hasIp6tables = true

/-- **Backup integrity.** -/
theorem backup_integrity {w w' : World} {cs : List (Action × Bool)}
    (hw : w.saved = defaultState)
    (h : Calls (machine reliableBackups) Action.body (fun x _ => x.Switches ∧ x.HasTools) w cs
      w') :
    (w'.saved.torKillSwitch = false → w'.saved.proxyOnlyKillSwitch = false →
      w'.v4 = w.v4 ∧ w'.v6 = w.v6) ∧
    (w'.saved.torKillSwitch = true → w'.saved.proxyOnlyKillSwitch = false ∧
      ∃ p q, w'.saved.iptablesBackup = some p ∧ w'.saved.ip6tablesBackup = some q ∧
        w'.files p = some w.v4 ∧ w'.files q = some w.v6) ∧
    (w'.saved.proxyOnlyKillSwitch = true → w'.saved.torKillSwitch = false ∧
      ∃ p q, w'.saved.natIptablesBackup = some p ∧ w'.saved.ip6tablesBackup = some q ∧
        w'.files p = some w.v4 ∧ w'.files q = some w.v6) := by
  have hend : Intact .full w.v4 w.v6 w' :=
    h.invariant (fun x s hx hs => Action.intact saves_reliable restores_reliable hx.1
      hx.2.hasIp6tables hs) (intact_start _ hw)
  refine ⟨fun ht hp => hend.off_of .tor ht hp, fun ht => ?_, fun hp => ?_⟩
  · obtain ⟨hoff, hholds⟩ := hend.on_of .tor ht
    obtain ⟨⟨p, hp, hpF⟩, ⟨q, hq, hqF⟩⟩ := hholds.recorded rfl
    exact ⟨hoff, p, q, hp, hq, hpF, hqF⟩
  · obtain ⟨hoff, hholds⟩ := hend.on_of .proxyOnly hp
    obtain ⟨⟨p, hp, hpF⟩, ⟨q, hq, hqF⟩⟩ := hholds.recorded rfl
    exact ⟨hoff, p, q, hp, hq, hpF, hqF⟩

def bothInTurn : List Action :=
  [.enableKillSwitch .full false 45, .disableKillSwitch .full,
    .enableProxyKillSwitch .full ⟨"127.0.0.1", 1080, "socks5", none, none⟩ false]

def afterBothInTurn : World :=
  (runCalls (machine reliableBackups) goWell Action.body bothInTurn
    (.start sshServer sshServer)).2

/-- After the Tor kill switch has come and gone, the proxy-only one records the firewall
from before both. -/
theorem backup_integrity_bothInTurn :
    ∃ p q, afterBothInTurn.saved.natIptablesBackup = some p ∧
      afterBothInTurn.saved.ip6tablesBackup = some q ∧
      afterBothInTurn.files p = some sshServer ∧
      afterBothInTurn.files q = some sshServer := by
  have h : Calls (machine reliableBackups) Action.body (fun x _ => x.Switches ∧ x.HasTools)
      (.start sshServer sshServer)
      (runCalls (machine reliableBackups) goWell Action.body bothInTurn
        (.start sshServer sshServer)).1 afterBothInTurn :=
    calls_runCalls reliableBackups_goWell
    ⟨⟨⟨.inl rfl, rfl⟩, rfl, rfl⟩, ⟨⟨.inr (.inr (.inl rfl)), rfl⟩, rfl, rfl⟩,
      ⟨⟨.inr (.inl rfl), rfl⟩, rfl, rfl⟩, trivial⟩
  exact ((backup_integrity rfl h).2.2 (by decide +kernel)).2

end PrivacyGuard
