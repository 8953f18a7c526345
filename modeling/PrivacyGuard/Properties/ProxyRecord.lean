import Mathlib.Data.List.Basic
import PrivacyGuard.Model.Actions
import PrivacyGuard.Model.RedsocksConf
import PrivacyGuard.Text.Split

set_option autoImplicit false

/-! # The record of the active proxy

`enable_proxy_kill_switch` writes the proxy twice: into the configuration of redsocks, and as
`active_proxy` into the saved state, from where `verify_active` takes the host again. Both agree
when there is no colon in the host, and when the type that has been given is the one that is
written. -/

namespace PrivacyGuard.RedsocksConf

open Effect Netfilter Text

/-! ## Reading the record -/

/-- `st.get("active_proxy") or "://"` -/
def recordText (activeProxy : Option String) : List Char :=
  match activeProxy with
  | none => "://".toList
  | some text => if text = "" then "://".toList else text.toList

/-- The host that `verify_active` takes. -/
def recordedHost (activeProxy : Option String) : List Char :=
  splitFirst [':'] (splitLast "://".toList (recordText activeProxy))

/-- The scheme. -/
def recordedScheme (activeProxy : Option String) : List Char :=
  splitFirst "://".toList (recordText activeProxy)

/-- The configuration has been written for `conf`, and the record says so. -/
def ReadBack (activeProxy : Option String) (conf : Option ProxyArgs) : Prop :=
  ∃ a, conf = some a ∧ recordedHost activeProxy = a.proxyHost.toList ∧
    recordedScheme activeProxy = (confType a.proxyType).toList

/-- What is recorded. -/
def record (a : ProxyArgs) : String := s!"{a.proxyType}://{a.proxyHost}:{a.proxyPort}"

theorem solid_scheme : Solid "://".toList := ⟨':', "//".toList, rfl, by decide⟩

theorem solid_colon : Solid [':'] := ⟨':', [], rfl, List.not_mem_nil⟩

theorem recordText_record (a : ProxyArgs) : recordText (some (record a)) =
    a.proxyType.toList ++ "://".toList ++
      (a.proxyHost.toList ++ [':'] ++ (toString a.proxyPort).toList) := by
  have htext : (record a).toList = a.proxyType.toList ++ "://".toList ++
      (a.proxyHost.toList ++ [':'] ++ (toString a.proxyPort).toList) := by
    have hid : ∀ s : String, toString s = s := fun _ => rfl
    simp only [record, hid, String.toList_append, List.append_assoc]
    rfl
  have hne : record a ≠ "" := by
    intro h
    rw [h] at htext
    have := congrArg List.length htext
    simp at this
  rw [recordText, if_neg hne, htext]

/-- The host, unless there is a colon in it. -/
theorem recordedHost_record (a : ProxyArgs) :
    recordedHost (some (record a)) = a.proxyHost.toList ↔ ':' ∉ a.proxyHost.toList := by
  constructor
  · intro h hmem
    rw [← h] at hmem
    exact not_mem_splitFirst _ _ hmem
  · intro h
    have hdigit : ∀ c : Char, c.isDigit = false → c ∉ (toString a.proxyPort).toList := by
      intro c hc hmem
      rw [isDigit_of_mem_port hmem] at hc
      cases hc
    have hlast : ¬ "://".toList <:+:
        a.proxyHost.toList ++ [':'] ++ (toString a.proxyPort).toList := by
      rintro ⟨p, q, heq⟩
      -- the one colon is before the port, which does not go on with slashes
      have heq : a.proxyHost.toList ++ ':' :: (toString a.proxyPort).toList =
          p ++ ':' :: ('/' :: '/' :: q) := by
        simpa using heq.symm
      obtain ⟨-, -, hport⟩ := (List.append_cons_inj_of_notMem h (hdigit ':' rfl)).mp heq
      exact hdigit '/' rfl (hport ▸ List.mem_cons_self)
    have hhost : ¬ [':'] <:+: a.proxyHost.toList := fun hin => h (hin.subset (by simp))
    rw [recordedHost, recordText_record, splitLast_append solid_scheme hlast,
      splitFirst_append solid_colon hhost]

theorem knownTypes_no_scheme : ∀ type ∈ knownTypes, ¬ "://".toList <:+: type.toList := by
  decide +kernel

/-- The type is the one that is written, or `socks5` stands before a separator in it. -/
theorem recordedScheme_record (a : ProxyArgs) :
    recordedScheme (some (record a)) = (confType a.proxyType).toList ↔
      a.proxyType ∈ knownTypes ∨ "socks5".toList ++ "://".toList <+: a.proxyType.toList := by
  rw [recordedScheme, recordText_record]
  by_cases hin : "://".toList <:+: a.proxyType.toList
  · have hunknown : a.proxyType ∉ knownTypes := fun h => knownTypes_no_scheme _ h hin
    have hsocks : ¬ "://".toList <:+: "socks5".toList := knownTypes_no_scheme "socks5" (by decide)
    obtain ⟨p, q, htype, hp⟩ := exists_first (List.cons_ne_nil _ _) hin
    have hfirst : ∀ t, splitFirst "://".toList (a.proxyType.toList ++ t) = p := by
      intro t
      rw [htype, List.append_assoc]
      exact splitFirst_append solid_scheme hp _
    rw [List.append_assoc, hfirst, confType, if_neg hunknown]
    constructor
    · rintro rfl
      exact .inr ⟨q, htype.symm⟩
    · rintro (h | ⟨r, hr⟩)
      · exact absurd h hunknown
      · rw [← hfirst [], List.append_nil, ← hr]
        exact splitFirst_append solid_scheme hsocks r
  · rw [splitFirst_append solid_scheme hin]
    have hprefix : ¬ "socks5".toList ++ "://".toList <+: a.proxyType.toList :=
      fun h => hin ((List.suffix_append _ _).isInfix.trans h.isInfix)
    rw [or_iff_left hprefix]
    by_cases hknown : a.proxyType ∈ knownTypes
    · rw [confType, if_pos hknown]
      exact iff_of_true rfl hknown
    · rw [confType, if_neg hknown]
      refine iff_of_false (fun h => hknown ?_) hknown
      rw [String.toList_inj.mp h]
      decide

/-! ## A call -/

/-- What an operation makes of the configuration. -/
def wroteConf : Op → Option ProxyArgs → Option ProxyArgs
  | .external (.generateRedsocksConf host port type username password), _ =>
      some ⟨host, port, type, username, password⟩
  | _, conf => conf

/-- The machine with the configuration of redsocks; anything may fail. -/
def withConf : Handler sig (World × Option ProxyArgs) Choice where
  exec o c s := ((exec o c s.1).1, (exec o c s.1).2, wroteConf o s.2)
  admits _ _ _ := True

/-- The operation leaves the record and the configuration alone. -/
def KeepsProxy (o : Op) : Prop :=
  (∀ c w, (exec o c w).2.saved.activeProxy = w.saved.activeProxy) ∧ ∀ conf, wroteConf o conf = conf

theorem KeepsProxy.of_aboutFirewall {o : Op} (h : AboutFirewall o) : KeepsProxy o := by
  refine ⟨fun c w => congrArg Saved.activeProxy (h.keepsSaved.exec c w), fun conf => ?_⟩
  cases o with
  | external e => exact h.elim
  | _ => rfl

theorem wp_keepsProxy {α : Type} {p : Proc α} (hp : p.all KeepsProxy)
    {s : World × Option ProxyArgs} {Q : α → World × Option ProxyArgs → Prop}
    (h : ∀ b s', s'.1.saved.activeProxy = s.1.saved.activeProxy → s'.2 = s.2 → Q b s') :
    p.wp withConf Q s := by
  have hI := Prog.wp_of_all (H := withConf) (s := s) (I := fun s' =>
    s'.1.saved.activeProxy = s.1.saved.activeProxy ∧ s'.2 = s.2) hp
    (fun o c s' ho _ hs => ⟨(ho.1 c s'.1).trans hs.1, (ho.2 s'.2).trans hs.2⟩) ⟨rfl, rfl⟩
  exact Prog.wp_mono hI fun b s' hs' => h b s' hs'.1 hs'.2

theorem wp_external {e : External} {s : World × Option ProxyArgs}
    {Q : Bool → World × Option ProxyArgs → Prop}
    (h : ∀ b, Q b (s.1, wroteConf (.external e) s.2)) : (external e).wp withConf Q s :=
  fun c _ => h c.ok

theorem wp_loadSaved {s : World × Option ProxyArgs} {Q : Saved → World × Option ProxyArgs → Prop}
    (h : Q s.1.saved s) : load.wp withConf Q s :=
  fun _ _ => h

theorem wp_updateSaved {kwargs : List Field} {s : World × Option ProxyArgs}
    {Q : Unit → World × Option ProxyArgs → Prop}
    (h : ∀ now, Q () ({ s.1 with saved := s.1.saved.update kwargs now }, s.2)) :
    (update kwargs).wp withConf Q s :=
  fun c _ => h c.text

theorem startRedsocks_keepsProxy : startRedsocks.all KeepsProxy := by
  have hquiet : ∀ e : External, (∀ conf, wroteConf (.external e) conf = conf) →
      KeepsProxy (.external e) := fun e he => ⟨fun _ _ => rfl, he⟩
  exact Prog.all_bind ((Prog.all_op _).mpr (hquiet _ fun _ => rfl)) fun _ =>
    Prog.all_ite (Prog.all_pure _)
      (Prog.all_bind ((Prog.all_op _).mpr (hquiet _ fun _ => rfl)) fun _ => Prog.all_pure _)

theorem blockIpv6_keepsProxy (env : Environment) : (blockIpv6 env).all KeepsProxy :=
  blockIpv6_all ⟨fun _ _ => rfl, fun _ => rfl⟩ ⟨fun _ _ => rfl, fun _ => rfl⟩
    fun _ => .of_aboutFirewall trivial

/-- What a call that answers yes leaves, when it has begun in `w` and `conf`. -/
def Recorded (a : ProxyArgs) (w : World) (conf : Option ProxyArgs) (answer : Bool)
    (s : World × Option ProxyArgs) : Prop :=
  answer = true →
    (w.saved.proxyOnlyKillSwitch = true ∧ s.1.saved.activeProxy = w.saved.activeProxy ∧
      s.2 = conf) ∨
    (w.saved.proxyOnlyKillSwitch = false ∧ s.1.saved.activeProxy = some (record a) ∧ s.2 = some a)

/-- The proxy for which the configuration has been written is recorded, or the kill switch has
been active, and both are left alone. -/
theorem enableProxyKillSwitch_record (env : Environment) (a : ProxyArgs) (w : World)
    (conf : Option ProxyArgs) :
    (enableProxyKillSwitch env a false).wp withConf (Recorded a w conf) (w, conf) := by
  have hno : ∀ s, Recorded a w conf false s := fun _ h => absurd h Bool.false_ne_true
  rw [enableProxyKillSwitch]
  split
  · exact hno _
  split
  · exact hno _
  rw [Prog.wp_bind]
  refine wp_external fun _ => ?_
  split
  · exact hno _
  rw [Prog.wp_bind]
  refine wp_external fun _ => ?_
  split
  · exact hno _
  rw [Prog.wp_bind]
  refine wp_loadSaved ?_
  split
  · rename_i hactive
    rw [Bool.not_false, Bool.and_true] at hactive
    exact fun _ => .inl ⟨hactive, rfl, rfl⟩
  rename_i hinactive
  rw [Bool.not_false, Bool.and_true, Bool.not_eq_true] at hinactive
  split
  · exact hno _
  -- the configuration is written here, the record only after the rules
  rw [Prog.wp_bind]
  refine wp_external fun _ => ?_
  rw [Prog.wp_bind]
  refine wp_keepsProxy startRedsocks_keepsProxy fun _ s₁ _ hconf₁ => ?_
  rw [Prog.wp_bind]
  have hruleset : (applyRuleset env proxyRules "pre-proxy-killswitch" proxyTolerate).all
      KeepsProxy :=
    Prog.all_mono (applyRuleset_aboutFirewall _ _ _) fun _ h => KeepsProxy.of_aboutFirewall h
  refine wp_keepsProxy hruleset fun r s₂ _ hconf₂ => ?_
  obtain ⟨ok, backups⟩ := r
  show Prog.wp withConf (if (!ok) = true then _ else _) _ s₂
  split
  · exact hno _
  rw [Prog.wp_bind]
  refine wp_updateSaved fun now => ?_
  rw [Prog.wp_bind]
  refine wp_keepsProxy (blockIpv6_keepsProxy env) fun _ s₃ hrecord hconf₃ _ => ?_
  exact .inr ⟨hinactive, hrecord, hconf₃.trans (hconf₂.trans hconf₁)⟩

/-- **The record is read back as the configuration** if and only if the host has no colon and the
type is known, or begins with `socks5://`; and after a call that found the kill switch active, if
and only if it was before. -/
theorem readBack_iff {env : Environment} {a : ProxyArgs} {w : World} {conf : Option ProxyArgs}
    {tr : List (Event sig)} {s : World × Option ProxyArgs}
    (h : Prog.Runs withConf (enableProxyKillSwitch env a false) (w, conf) tr true s) :
    ReadBack s.1.saved.activeProxy s.2 ↔
      if w.saved.proxyOnlyKillSwitch = true then ReadBack w.saved.activeProxy conf
      else ':' ∉ a.proxyHost.toList ∧ (a.proxyType ∈ knownTypes ∨
        "socks5".toList ++ "://".toList <+: a.proxyType.toList) := by
  obtain ⟨hactive, hrecord, hconf⟩ | ⟨hinactive, hrecord, hconf⟩ :=
    h.post (enableProxyKillSwitch_record env a w conf) rfl
  · rw [if_pos hactive, hrecord, hconf]
  · rw [if_neg (by rw [hinactive]; exact Bool.false_ne_true), hrecord, hconf,
      ← recordedHost_record, ← recordedScheme_record]
    constructor
    · rintro ⟨b, hb, hread⟩
      cases hb
      exact hread
    · exact fun hread => ⟨a, rfl, hread⟩

/-! ## Two calls in which all goes well -/

def someProxy : ProxyArgs := ⟨"203.0.113.9", 1080, "socks5", none, none⟩

/-- A proxy on the machine itself, by its IPv6 address. -/
def ipv6Proxy : ProxyArgs := ⟨"::1", 1080, "socks5", none, none⟩

def enabled (a : ProxyArgs) : Bool × World × Option ProxyArgs :=
  (enableProxyKillSwitch .full a false).run withConf (fun _ _ => {})
    (.start Firewall.blank Firewall.blank, none)

theorem runs_enabled {a : ProxyArgs} (h : (enabled a).1 = true) :
    ∃ tr, Prog.Runs withConf (enableProxyKillSwitch .full a false)
      (.start Firewall.blank Firewall.blank, none) tr true (enabled a).2 :=
  Prog.runs_of_run (fun _ _ => trivial) h

theorem readBack_iff_someProxy :
    ReadBack (enabled someProxy).2.1.saved.activeProxy (enabled someProxy).2.2 := by
  obtain ⟨tr, h⟩ := runs_enabled (a := someProxy) (by decide +kernel)
  refine (readBack_iff h).mpr ?_
  rw [if_neg (by decide)]
  exact ⟨by decide, .inl (by decide)⟩

/-- The host that is read back is the empty text. -/
theorem not_readBack : (enabled ipv6Proxy).1 = true ∧
    ¬ ReadBack (enabled ipv6Proxy).2.1.saved.activeProxy (enabled ipv6Proxy).2.2 := by
  have hanswer : (enabled ipv6Proxy).1 = true := by decide +kernel
  have hrecord : (enabled ipv6Proxy).2.1.saved.activeProxy = some "socks5://::1:1080" ∧
      (enabled ipv6Proxy).2.2 = some ipv6Proxy := by decide +kernel
  refine ⟨hanswer, ?_⟩
  rw [hrecord.1, hrecord.2]
  rintro ⟨a, ha, hhost, -⟩
  cases ha
  exact absurd hhost (by decide +kernel)

end PrivacyGuard.RedsocksConf
