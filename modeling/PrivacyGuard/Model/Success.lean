import PrivacyGuard.Model.Actions

set_option autoImplicit false

/-! # When every command succeeds

Under `allSucceed` a command fails only if the kernel refuses it, and what a call does is
determined: the firewall afterwards is computed by `Firewall.perform`. The rules of the
three modes are never refused, but for the creation of a chain that exists already, which
is tolerated (`Accepts`). -/

namespace PrivacyGuard

open Netfilter Effect

/-- Every command of the list the kernel refuses is refused with a tolerated message. -/
def Accepts (tolerate : List String) : List (FwCommand Match) → Fw → Prop
  | [], _ => True
  | c :: cs, F =>
      match F.exec c with
      | .ok G => Accepts tolerate cs G
      | .error e => tolerated tolerate e = true ∧ Accepts tolerate cs F

theorem accepts_plain {tolerate : List String} :
    ∀ (cs : List (FwCommand Match)) (F : Fw), (∀ c ∈ cs, Firewall.plainFw c = true) →
      Accepts tolerate cs F
  | [], _, _ => trivial
  | c :: cs, F, h => by
      obtain ⟨G, hG⟩ := Firewall.exec_plain (h c List.mem_cons_self) F
      rw [Accepts, hG]
      exact accepts_plain cs G fun d hd => h d (List.mem_cons_of_mem _ hd)

/-- A list of which no command is refused. -/
theorem accepts_of_applied {tolerate : List String} {cs : List (FwCommand Match)} {F G : Fw}
    (h : Firewall.Applied Firewall.noSkip cs F G) : Accepts tolerate cs F := by
  induction h with
  | nil F => trivial
  | cons hc _ ih =>
      rw [Accepts, hc]
      exact ih
  | skip hc _ _ => exact hc.elim

section

variable {A : Op → Choice → World → Prop} {w : World} {env : Environment}

/-- The loop performs every rule the kernel accepts, and answers whether it tolerates what
the kernel has refused. -/
theorem applyRules_wp_perform {tolerate : List String} {Q : Bool → World → Prop} :
    ∀ (rules : List Invocation) (ok : Bool) (w : World), (∀ r ∈ rules, r.tool = .v4) →
      (∀ r ∈ rules, Obeys A .v4 r.command) →
      (∀ b, (b = true ↔ ok = true ∧ Accepts tolerate (rules.map (·.command)) w.v4) →
        Q b { w with v4 := w.v4.perform (rules.map (·.command)) }) →
      (applyRules tolerate rules ok).wp (machine A) Q w := by
  intro rules
  induction rules with
  | nil => exact fun ok w _ _ hQ => hQ ok (by simp [Accepts])
  | cons rule rules ih =>
      intro ok w hv4 hA hQ
      have hrest : ∀ r ∈ rules, r.tool = .v4 := fun r hr => hv4 r (List.mem_cons_of_mem _ hr)
      have hArest : ∀ r ∈ rules, Obeys A .v4 r.command :=
        fun r hr => hA r (List.mem_cons_of_mem _ hr)
      have hAcmd := hA _ List.mem_cons_self
      obtain ⟨tool, cmd⟩ := rule
      obtain rfl : tool = .v4 := hv4 _ List.mem_cons_self
      rw [List.map_cons] at hQ
      rw [applyRules, Prog.wp_bind]
      refine wp_iptables_obeys hAcmd (fun G hG => ?_) fun e he => ?_
      · have hG' : w.v4.exec cmd = .ok G := hG
        rw [Firewall.perform_ok hG', Accepts, hG'] at hQ
        rw [if_pos (by rfl)]
        exact ih ok _ hrest hArest hQ
      · have he' : w.v4.exec cmd = .error e := he
        rw [Firewall.perform_error he', Accepts, he'] at hQ
        by_cases htol : tolerated tolerate e = true
        · rw [if_pos (by simpa using htol)]
          exact ih ok w hrest hArest fun b hb => hQ b (by simp [hb, htol])
        · rw [if_neg (by simpa using htol)]
          exact ih false w hrest hArest fun b hb => hQ b (by simp [hb, htol])

theorem applyRules_wp_accepts {tolerate : List String} {Q : Bool → World → Prop}
    (rules : List Invocation) (ok : Bool) (w : World) (hv4 : ∀ r ∈ rules, r.tool = .v4)
    (hA : ∀ r ∈ rules, Obeys A .v4 r.command)
    (hacc : Accepts tolerate (rules.map (·.command)) w.v4)
    (hQ : Q ok { w with v4 := w.v4.perform (rules.map (·.command)) }) :
    (applyRules tolerate rules ok).wp (machine A) Q w := by
  refine applyRules_wp_perform rules ok w hv4 hA fun b hb => ?_
  have hbok : b = ok := Bool.eq_iff_iff.mpr (hb.trans (and_iff_left hacc))
  rw [hbok]
  exact hQ

/-- `apply_ruleset` succeeds, and performs its rules. -/
theorem applyRuleset_wp_accepts (he : env.Privileged) {rules : List Invocation}
    {label : String} {tolerate : List String} {Q : Bool × Backups → World → Prop}
    (hv4 : ∀ r ∈ rules, r.tool = .v4)
    (hacc : Accepts tolerate (rules.map (·.command)) w.v4)
    (hQ : ∀ ts, Q (true, backupPaths env label ts)
      { w.backUp env label ts with v4 := w.v4.perform (rules.map (·.command)) }) :
    (applyRuleset env rules label tolerate).wp (machine allSucceed) Q w := by
  rw [applyRuleset, Prog.wp_bind]
  refine backupRules_wp saves_allSucceed he fun ts => ?_
  rw [Prog.wp_bind]
  refine applyRules_wp_accepts rules true _ hv4 (fun _ _ => obeys_allSucceed _ _)
    (by rwa [World.backUp_v4]) ?_
  rw [if_neg (by decide), Prog.wp_pure, World.backUp_v4]
  exact hQ ts

theorem runAll_wp_obeys {f : Family} {Q : Unit → World → Prop} :
    ∀ (cs : List (FwCommand Match)) (w : World), (∀ c ∈ cs, Obeys A f c) →
      Q () (w.setFw f ((w.fw f).perform cs)) → (runAll f cs).wp (machine A) Q w
  | [], w, _, h => by
      cases f <;> exact h
  | c :: cs, w, hA, h => by
      have hArest : ∀ d ∈ cs, Obeys A f d := fun d hd => hA d (List.mem_cons_of_mem _ hd)
      rw [runAll, Prog.wp_bind]
      refine wp_iptables_obeys (hA c List.mem_cons_self) (fun G hG => ?_) fun e he => ?_
      · rw [Firewall.perform_ok hG] at h
        refine runAll_wp_obeys cs _ hArest ?_
        cases f <;> exact h
      · rw [Firewall.perform_error he] at h
        exact runAll_wp_obeys cs w hArest h

theorem runChecked_wp_allSucceed {f : Family} {Q : Bool → World → Prop} :
    ∀ (cs : List (FwCommand Match)) (w : World), (∀ c ∈ cs, Firewall.plainFw c = true) →
      Q true (w.setFw f ((w.fw f).perform cs)) → (runChecked f cs).wp (machine allSucceed) Q w
  | [], w, _, h => by
      cases f <;> exact h
  | c :: cs, w, hcs, h => by
      rw [runChecked, Prog.wp_bind]
      refine wp_iptables_obeys (obeys_allSucceed f c) (fun G hG => ?_) fun e he => ?_
      · rw [Firewall.perform_ok hG] at h
        rw [if_pos (by rfl)]
        refine runChecked_wp_allSucceed cs _ (fun d hd => hcs d (List.mem_cons_of_mem _ hd)) ?_
        cases f <;> exact h
      · obtain ⟨G, hG⟩ := Firewall.exec_plain (hcs c List.mem_cons_self) (w.fw f)
        rw [hG] at he
        cases he

/-- The IPv6 firewall after the end of an enable function that runs the commands `lock`;
`blocked` tells whether IPv6 was recorded as blocked before. -/
def ipv6After (env : Environment) (lock : List (FwCommand Match)) (blocked : Bool) (F6 : Fw) :
    Fw :=
  if env.hasIp6tables then
    let G := F6.perform lock
    if blocked then G else G.perform blockIpv6Commands
  else F6

theorem lockIpv6_wp_allSucceed {cs : List (FwCommand Match)} {Q : Unit → World → Prop}
    (h : Q () { w with v6 := if env.hasIp6tables then w.v6.perform cs else w.v6 }) :
    (lockIpv6 env cs).wp (machine allSucceed) Q w := by
  rw [lockIpv6]
  cases h6 : env.hasIp6tables with
  | false =>
      rw [h6] at h
      rw [Bool.and_false, if_neg (by decide)]
      exact h
  | true =>
      rw [h6] at h
      rw [Bool.and_true]
      cases cs with
      | nil => exact h
      | cons c cs => exact runAll_wp_obeys _ _ (fun _ _ => obeys_allSucceed _ _) h

theorem blockIpv6_wp_allSucceed (he : env.Privileged) {Q : Bool → World → Prop}
    (h : ∀ b s, BlockRecorded w.saved s → (env.hasIp6tables = true → s.ipv6Blocked = true) →
      Q b { w with v6 := ipv6After env [] w.saved.ipv6Blocked w.v6, saved := s }) :
    (blockIpv6 env).wp (machine allSucceed) Q w := by
  rw [blockIpv6, he.termux, he.root]
  cases h6 : env.hasIp6tables with
  | false =>
      have hw := h false w.saved (Or.inl rfl) (by simp [h6])
      rw [ipv6After, if_neg (by simp [h6])] at hw
      exact hw
  | true =>
      rw [if_neg (by decide), Prog.wp_bind]
      refine wp_load ?_
      cases hb : w.saved.ipv6Blocked with
      | true =>
          have hw := h true w.saved (Or.inl rfl) (fun _ => hb)
          rw [ipv6After, if_pos h6, hb] at hw
          rw [if_pos rfl]
          exact hw
      | false =>
          rw [if_neg (by decide), Prog.wp_bind]
          refine runChecked_wp_allSucceed _ _ (by decide) ?_
          rw [if_neg (by decide), Prog.wp_bind]
          refine wp_update fun now => ?_
          have hw := h true _ (Or.inr ⟨now, rfl⟩) (fun _ => rfl)
          rw [ipv6After, if_pos h6, hb] at hw
          exact hw

theorem finish_wp_allSucceed {m : Mode} {a : Activation m} (he : env.Privileged) {b : Backups}
    {Q : Bool → World → Prop}
    (h : ∀ now s, BlockRecorded (w.saved.update (a.fields b) now) s →
      (env.hasIp6tables = true → s.ipv6Blocked = true) →
      Q true { w with v6 := ipv6After env a.lock w.saved.ipv6Blocked w.v6, saved := s }) :
    (a.finish env b).wp (machine allSucceed) Q w := by
  rw [Activation.finish, Prog.wp_bind]
  refine lockIpv6_wp_allSucceed ?_
  rw [Prog.wp_bind]
  refine wp_update fun now => ?_
  rw [Prog.wp_bind]
  refine blockIpv6_wp_allSucceed he fun _ s hs hb => ?_
  have hdone := h now s hs hb
  rw [ipv6After, a.ipv6Blocked]
  rw [ipv6After] at hdone
  cases h6 : env.hasIp6tables with
  | false =>
      rw [h6] at hdone
      exact hdone
  | true =>
      rw [h6] at hdone
      exact hdone

/-- **What a call leaves that switches the mode on.** The rules have been performed and IPv6
blocked, and the saved state records the mode and its backups. -/
def SwitchedOn {m : Mode} (a : Activation m) (env : Environment) (w w' : World) : Prop :=
  ∃ ts now s, BlockRecorded (w.saved.update (a.fields (backupPaths env m.label ts)) now) s ∧
    (env.hasIp6tables = true → s.ipv6Blocked = true) ∧
    w' = { w.backUp env m.label ts with
      v4 := w.v4.perform a.commands
      v6 := ipv6After env a.lock w.saved.ipv6Blocked w.v6
      saved := s }

/-- A call whose prerequisites are met, and that does not find the mode on already. -/
theorem Follows.switchedOn {m : Mode} {a : Activation m} {force : Bool} {p : Proc Bool}
    (hp : Follows a env force p) (hacc : Accepts a.tolerate a.commands w.v4)
    (he : m.Ready env) (hforce : m.active w.saved = true → force = true)
    (hfree : m.conflict w.saved = false) :
    p.wp (machine allSucceed) (fun b w' => b = true ∧ SwitchedOn a env w w') w := by
  let R : Bool × Backups → World → Prop := fun r w' => ∃ ts,
    r = (true, backupPaths env m.label ts) ∧
      w' = { w.backUp env m.label ts with v4 := w.v4.perform a.commands }
  refine Prog.wp_of_along (hp allSucceed (fun _ => True) R _ w trivial ?_ ?_ ?_ ?_ ?_)
  · rintro (h | h | ⟨e, hprobe, c, hc, hno⟩)
    · exact absurd he h
    · rw [hfree] at h
      cases h
    -- no probe fails
    · have hok : c.ok = true := by
        cases e with
        | have_ cmd =>
            cases hprobe
            exact hc (by decide)
        | checkTorActive => exact hc.1
        | proxyReachable h p => exact hc.1
        | _ => cases hprobe
      rw [hno] at hok
      cases hok
  · intro hact hf
    rw [hforce hact] at hf
    cases hf
  · exact fun _ _ _ => Prog.along_of_wp
      (applyRuleset_wp_accepts he.privileged a.rules_v4 hacc fun ts => ⟨ts, rfl, rfl⟩)
  · rintro b w' ⟨ts, hr, -⟩
    cases hr
  · rintro b w' ⟨ts, hr, rfl⟩
    cases hr
    refine Prog.along_of_wp (finish_wp_allSucceed he.privileged fun now s hs hb => ?_)
    refine ⟨rfl, ts, now, s, ?_, hb, ?_⟩
    · rw [← World.backUp_saved w env m.label ts]
      exact hs
    · rw [← World.backUp_saved w env m.label ts, ← World.backUp_v6 w env m.label ts]

/-- What a call leaves that puts the mode in place. -/
structure Installs {m : Mode} (a : Activation m) (env : Environment) (w w' : World) : Prop where
  active : m.active w'.saved = true
  others : ∀ m' : Mode, m' ≠ m → m'.active w'.saved = m'.active w.saved
  blocked : env.hasIp6tables = true → w'.saved.ipv6Blocked = true
  v4 : w'.v4 = w.v4.perform a.commands
  v6 : w'.v6 = ipv6After env a.lock w.saved.ipv6Blocked w.v6
  holds : m.Holds env w' w.v4 w.v6

theorem SwitchedOn.installs {m : Mode} {a : Activation m} {w' : World}
    (h : SwitchedOn a env w w') : Installs a env w w' := by
  obtain ⟨ts, now, s, hs, hb, rfl⟩ := h
  refine ⟨?_, fun m' hm' => ?_, hb, rfl, rfl, Enable.holds (fun hno => ?_) hs⟩
  · show m.active s = true
    rw [hs.active, a.active]
  · show m'.active s = m'.active w.saved
    rw [hs.active, a.other _ _ _ _ hm']
  · rw [ipv6After, if_neg (by simp [hno])]

/-- Any other call changes nothing, whatever fails. -/
theorem Follows.unchanged {m : Mode} {a : Activation m}
    {force : Bool} {p : Proc Bool} (hp : Follows a env force p)
    (h : m.Ready env → (m.active w.saved = true → force = true) →
      m.conflict w.saved = false → False) :
    p.wp (machine A) (fun _ w' => w' = w) w :=
  Prog.wp_of_along (hp A (fun _ => True) (fun _ _ => False) _ w trivial (fun _ => rfl)
    (fun _ _ => rfl) (fun he hforce hfree => (h he hforce hfree).elim) (fun _ _ h => h.elim)
    fun _ _ h => h.elim)

end

/-- Whether the proxy's chain exists already or not, its rules are accepted. -/
theorem accepts_proxyRules (F : Fw) :
    Accepts proxyTolerate (proxyRules.map (·.command)) F := by
  have hrest : ∀ G : Fw, "PG_REDSOCKS" ∈ G.natTable.names →
      Accepts proxyTolerate ((proxyRules.map (·.command)).tail) G := fun G hG =>
    accepts_of_applied (Firewall.applied_of_fits_nat ["PG_REDSOCKS"]
      (Firewall.natPart ((proxyRules.map (·.command)).tail)) (by decide) (by simpa using hG))
  show Accepts proxyTolerate (.nat (.newChain "PG_REDSOCKS") :: _) F
  rw [Accepts, Firewall.exec]
  -- creating the chain again fails with the tolerated message
  rcases F.natTable.exec_newChain "PG_REDSOCKS" with ⟨hwith, h⟩ | ⟨u, h, hwith⟩
  · rw [h]
    exact ⟨by decide, hrest F hwith.mem⟩
  · rw [h]
    exact hrest _ hwith.mem

end PrivacyGuard
