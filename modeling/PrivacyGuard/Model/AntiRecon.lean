import PrivacyGuard.Model.Gateway
import PrivacyGuard.Netfilter.Extension

set_option autoImplicit false

/-! # Fingerprint hardening and portscan protection

The sysctl and iptables parts of `anti_recon.py`. -/

namespace PrivacyGuard

open Netfilter Effect

/-- `STEALTH_SYSCTLS` -/
def stealthSysctls : List (SysctlKey × Int) := [
  (.icmpEchoIgnoreAll, 1),
  (.tcpTimestamps, 0),
  (.confAllLogMartians, 1),
  (.confAllRpFilter, 1),
  (.icmpIgnoreBogusErrorResponses, 1)]

/-- `{key: _read_sysctl(key) for key in STEALTH_SYSCTLS}` -/
def readSysctls : List (SysctlKey × Int) → Proc (List (SysctlKey × Option Int))
  | [] => pure []
  | (k, _) :: ks => do
      let v ← sysctlRead k
      let rest ← readSysctls ks
      pure ((k, v) :: rest)

/-- The loop that sets the hardened values; it goes on after a failure. -/
def setSysctls : List (SysctlKey × Int) → Bool → Proc Bool
  | [], allOk => pure allOk
  | (k, v) :: ks, allOk => do
      let ok ← sysctlWrite k v
      setSysctls ks (allOk && ok)

def enableStealthSysctls (env : Environment) : Proc Bool := do
  if env.termux || !env.root || !env.hasSysctl then
    return false
  let st ← load
  if st.stealthSysctls then
    return true
  let previous ← readSysctls stealthSysctls
  let allOk ← setSysctls stealthSysctls true
  update [.stealthSysctls true, .stealthSysctlsBackup (some previous)]
  return allOk

/-- The loop that writes the recorded values back. -/
def resetSysctls : List (SysctlKey × Option Int) → Proc Unit
  | [] => pure ()
  | (_, none) :: ks => resetSysctls ks
  | (k, some v) :: ks => do
      let _ ← sysctlWrite k v
      resetSysctls ks

def disableStealthSysctls (env : Environment) : Proc Unit := do
  if env.termux || !env.root || !env.hasSysctl then
    return ()
  let st ← load
  if !st.stealthSysctls then
    return ()
  let st' ← load
  resetSysctls (st'.stealthSysctlsBackup.getD [])
  update [.stealthSysctls false, .stealthSysctlsBackup none]

section

variable {A : Op → Choice → World → Prop}

/-- Reading answers with the current values. -/
theorem readSysctls_wp (hA : SetsSysctls A) :
    ∀ (ks : List (SysctlKey × Int)) (w : World)
      (Q : List (SysctlKey × Option Int) → World → Prop),
      Q (ks.map fun k => (k.1, some (w.sysctl k.1))) w →
      (readSysctls ks).wp (machine A) Q w := by
  intro ks w
  induction ks with
  | nil => exact fun Q h => h
  | cons k ks ih =>
      intro Q h
      rw [readSysctls, Prog.wp_bind]
      refine wp_sysctlRead hA ?_
      rw [Prog.wp_bind]
      exact ih _ h

theorem setSysctls_wp (hA : SetsSysctls A) {Q : Bool → World → Prop} :
    ∀ (ks : List (SysctlKey × Int)) (ok : Bool) (w : World),
      (∀ b f, Q b { w with sysctl := f }) → (setSysctls ks ok).wp (machine A) Q w := by
  intro ks
  induction ks with
  | nil => exact fun ok w h => h ok w.sysctl
  | cons k ks ih =>
      intro ok w h
      rw [setSysctls, Prog.wp_bind]
      exact wp_sysctlWrite hA (ih _ _ h)

/-- Every key written has its value in `f₀` afterwards, and no other key loses it. -/
theorem resetSysctls_wp (hA : SetsSysctls A) (f₀ : SysctlKey → Int)
    {Q : Unit → World → Prop} :
    ∀ (ks : List SysctlKey) (w : World),
      (∀ f, (∀ k, k ∈ ks ∨ w.sysctl k = f₀ k → f k = f₀ k) → Q () { w with sysctl := f }) →
      (resetSysctls (ks.map fun k => (k, some (f₀ k)))).wp (machine A) Q w := by
  intro ks
  induction ks with
  | nil => exact fun w h => h w.sysctl fun k hk => hk.resolve_left List.not_mem_nil
  | cons k ks ih =>
      intro w h
      rw [List.map_cons, resetSysctls, Prog.wp_bind]
      refine wp_sysctlWrite hA (ih _ fun f hf => h f fun k' hk' => hf k' ?_)
      -- the key just written, or one that keeps its value
      by_cases hk : k' = k
      · exact Or.inr (hk ▸ Function.update_self _ _ _)
      · rcases hk' with hk' | hk'
        · exact Or.inl ((List.mem_cons.mp hk').resolve_left hk)
        · exact Or.inr ((Function.update_of_ne hk _ _).trans hk')

end

/-! ## Portscan protection -/

def portscanChain : String := "PG_PORTSCAN"

/-- A source seen `hitcount` times within `seconds` is sent to the portscan chain. -/
def portscanJump (p : PortscanParams) : Rule Match :=
  ⟨[.inIface true "lo", .proto .tcp, .syn, .recentUpdate "pg_scan" p.seconds p.hitcount],
    .jump portscanChain⟩

/-- Any other new connection is noted and accepted. -/
def portscanNote : Rule Match :=
  ⟨[.inIface true "lo", .proto .tcp, .syn, .recentSet "pg_scan"], .accept⟩

def portscanLog : Rule Match := ⟨[.recentSet "pg_scan"], .log "PrivacyGuard-SCAN-BLOCK: "⟩

def portscanRules (p : PortscanParams) : List Invocation := [
  ipt (.filter (.newChain portscanChain)),
  ipt (.filter (.flush (.user portscanChain))),
  ipt (.filter (.append (.user portscanChain) portscanLog)),
  ipt (.filter (.append (.user portscanChain) ⟨[], .drop⟩)),
  ipt (.filter (.insert (.hook .input) 1 (portscanJump p))),
  ipt (.filter (.append (.hook .input) portscanNote))]

/-- The loop over the commands is the one of `apply_ruleset`, without its backup. -/
def enablePortscanProtection (env : Environment) (p : PortscanParams) (force : Bool) :
    Proc Bool := do
  if env.termux then
    return false
  if !env.root || !env.hasIptables then
    return false
  let st ← load
  if st.portscanProtection && !force then
    return true
  let ok ← applyRules ["Chain already exists"] (portscanRules p) true
  if !ok then
    return false
  update [.portscanProtection true, .portscanParams (some p)]
  return true

def defaultPortscanParams : PortscanParams := ⟨15, 60⟩

def portscanRemoval (p : PortscanParams) : List (FwCommand Match) := [
  .filter (.delete (.hook .input) (portscanJump p)),
  .filter (.delete (.hook .input) portscanNote),
  .filter (.flush (.user portscanChain)),
  .filter (.deleteChain portscanChain)]

def disablePortscanProtection (env : Environment) : Proc Unit := do
  if env.termux || !env.root || !env.hasIptables then
    return ()
  let st ← load
  if !st.portscanProtection then
    return ()
  let st' ← load
  runAll .v4 (portscanRemoval (st'.portscanParams.getD defaultPortscanParams))
  update [.portscanProtection false, .portscanParams none]

/-! ## Adding and removing the portscan rules -/

def portscanCommands (p : PortscanParams) : List (FwCommand Match) :=
  (portscanRules p).map (·.command)

/-- The operations of the function. -/
theorem enablePortscanProtection_all {P : Op → Prop} {env : Environment} {p : PortscanParams}
    {force : Bool} (hload : P .load)
    (hupdate : P (.update [.portscanProtection true, .portscanParams (some p)]))
    (hcmd : ∀ c ∈ portscanCommands p, P (.iptables .v4 c)) :
    (enablePortscanProtection env p force).all P := by
  refine Prog.all_ite (Prog.all_pure _) (Prog.all_ite (Prog.all_pure _) ?_)
  refine Prog.all_bind ((Prog.all_op _).mpr hload) fun st => Prog.all_ite (Prog.all_pure _) ?_
  refine Prog.all_bind (applyRules_all _ _ _ fun r hr => ?_) fun ok =>
    Prog.all_ite (Prog.all_pure _) ?_
  · have htool : ∀ r ∈ portscanRules p, r.tool = .v4 := by simp [portscanRules, ipt]
    rw [htool r hr]
    exact hcmd _ (List.mem_map_of_mem hr)
  · exact Prog.all_bind ((Prog.all_op _).mpr hupdate) fun _ => Prog.all_pure _

/-- The list of the `recent` module that the match reads or writes. -/
def Match.recentList? : Match → Option String
  | .recentSet l | .recentUpdate l _ _ => some l
  | _ => none

/-- Neither the portscan chain nor a rule on its list occurs in the filter table. -/
structure PortscanFree (F : Fw) : Prop where
  chain : portscanChain ∉ F.filterTable.names
  rules : ∀ h, ∀ r ∈ F.filterTable.hook h, ∀ c ∈ r.conds, c.recentList? ≠ some "pg_scan"

/-- As far as the INPUT chain is concerned. -/
structure PortscanFreeInput (F : Fw) : Prop where
  chain : portscanChain ∉ F.filterTable.names
  input : ∀ r ∈ F.filterTable.hook .input, ∀ c ∈ r.conds, c.recentList? ≠ some "pg_scan"

theorem PortscanFree.inputFree {F : Fw} (hF : PortscanFree F) : PortscanFreeInput F where
  chain := hF.chain
  input := hF.rules .input

theorem PortscanFreeInput.note_not_mem {F : Fw} (hF : PortscanFreeInput F) :
    portscanNote ∉ F.filterTable.hook .input := by
  intro hmem
  exact hF.input _ hmem (.recentSet "pg_scan") (by decide) rfl

theorem PortscanFreeInput.jump_not_mem {F : Fw} (hF : PortscanFreeInput F)
    (p : PortscanParams) : portscanJump p ∉ F.filterTable.hook .input := by
  intro hmem
  exact hF.input _ hmem (.recentUpdate "pg_scan" p.seconds p.hitcount) (by simp [portscanJump])
    rfl

theorem PortscanFree.of_same {F G : Fw} (hF : PortscanFree F) (h : G.Same F) :
    PortscanFree G where
  chain := by rw [h.1]; exact hF.chain
  rules := by rw [h.1]; exact hF.rules

/-- `G` is `F` with the portscan chain and the two rules that use it. -/
structure PortscanOn (p : PortscanParams) (F G : Fw) : Prop where
  filter : F.filterTable.Extends portscanChain [portscanLog, ⟨[], .drop⟩]
    (Function.update F.filterTable.hook .input
      (portscanJump p :: (F.filterTable.hook .input ++ [portscanNote]))) G.filterTable
  nat : G.nat = F.nat

theorem PortscanOn.of_loaded {p : PortscanParams} {F F' G : Fw} (hG : PortscanOn p F' G)
    (h : F'.LoadedFrom F) : PortscanOn p F G where
  filter := by rw [← h.same.1]; exact hG.filter
  nat := hG.nat.trans h.nat

theorem portscanJump_resolves (p : PortscanParams) :
    (portscanJump p).ResolvesIn [portscanChain] := by
  intro n hn
  cases hn
  exact List.mem_singleton_self _

/-- None of the portscan rules is refused. -/
theorem portscan_applied (p : PortscanParams) {F : Fw} (hF : PortscanFreeInput F) :
    ∃ G, Firewall.Applied Firewall.noSkip (portscanCommands p) F G ∧ PortscanOn p F G := by
  obtain ⟨t₁, h₁, e₁⟩ := Table.Extends.newChain hF.chain
  obtain ⟨t₂, h₂, e₂⟩ := e₁.flush
  obtain ⟨t₃, h₃, e₃⟩ := e₂.append (r := portscanLog) (by decide)
  obtain ⟨t₄, h₄, e₄⟩ := e₃.append (r := ⟨[], .drop⟩) (by decide)
  obtain ⟨t₅, h₅, e₅⟩ := e₄.insertHook .input (portscanJump_resolves p)
  obtain ⟨t₆, h₆, e₆⟩ := e₅.appendHook .input (r := portscanNote) (by decide)
  refine ⟨{ F with filter := some t₆ }, ?_, ?_, rfl⟩
  · exact .cons (Firewall.exec_filter_eq h₁) <| .cons (Firewall.exec_filter_eq h₂) <|
      .cons (Firewall.exec_filter_eq h₃) <| .cons (Firewall.exec_filter_eq h₄) <|
      .cons (Firewall.exec_filter_eq h₅) <| .cons (Firewall.exec_filter_eq h₆) <| .nil _
  · rw [Function.update_idem, Function.update_self] at e₆
    exact e₆

/-- Removing them gives the firewall back. -/
theorem portscan_removed {p : PortscanParams} {F G : Fw} (hF : PortscanFreeInput F)
    (hG : PortscanOn p F G) :
    ∃ K, Firewall.Applied Firewall.noSkip (portscanRemoval p) G K ∧ K.LoadedFrom F := by
  -- the two rules in the INPUT chain, then the chain itself
  obtain ⟨t₁, h₁, e₁⟩ := hG.filter.deleteHook (x := .input) (r := portscanJump p)
    (by rw [Function.update_self]; exact List.mem_cons_self)
  rw [Function.update_self, Function.update_idem, List.erase_cons_head] at e₁
  obtain ⟨t₂, h₂, e₂⟩ := e₁.deleteHook (x := .input) (r := portscanNote)
    (by rw [Function.update_self]; simp)
  rw [Function.update_self, Function.update_idem,
    List.erase_append_right _ hF.note_not_mem] at e₂
  simp only [List.erase_cons_head, List.append_nil, Function.update_eq_self] at e₂
  obtain ⟨t₃, h₃, e₃⟩ := e₂.flush
  refine ⟨{ G with filter := some F.filterTable }, ?_, Or.inr (Firewall.ext rfl hG.nat)⟩
  exact .cons (Firewall.exec_filter_eq h₁) <| .cons (Firewall.exec_filter_eq h₂) <|
    .cons (Firewall.exec_filter_eq h₃) <| .cons (Firewall.exec_filter_eq e₃.deleteChain) <|
    .nil _

/-- The removal takes two rules out of the INPUT chain, as far as they are there. -/
theorem portscanRemoval_input (p : PortscanParams) (F : Fw) :
    (F.perform (portscanRemoval p)).filterTable.hook .input =
      ((F.filterTable.hook .input).erase (portscanJump p)).erase portscanNote := by
  obtain ⟨G, hG, hperform⟩ := F.perform_delete .input (portscanJump p)
  obtain ⟨K, hK, hperform'⟩ := G.perform_delete .input portscanNote
  rw [portscanRemoval, hperform, hperform']
  -- the other commands are about the chain
  let Kept : Fw → Prop := fun L => L.filterTable.hook .input = K.filterTable.hook .input
  have hrest : Kept (K.perform [.filter (.flush (.user portscanChain)),
      .filter (.deleteChain portscanChain)]) := by
    refine Firewall.perform_invariant (fun c hc L M hM hL => Eq.trans ?_ hL) rfl
    simp only [List.mem_cons, List.not_mem_nil, or_false] at hc
    obtain rfl | rfl := hc
    all_goals
      obtain ⟨-, hh, -⟩ := Table.of_exec (Firewall.exec_filter hM).1
      rw [hh]
      rfl
  rw [show _ = _ from hrest, hK, Function.update_self, hG, Function.update_self]

/-- From a firewall without any of them nothing is removed. -/
theorem portscanRemoval_free {p : PortscanParams} {F : Fw} (hF : PortscanFreeInput F) :
    F.perform (portscanRemoval p) = F := by
  have hchain : F.filterTable.user.lookup portscanChain = none := by
    refine List.lookup_eq_none_iff.mpr fun c hc => bne_iff_ne.mpr fun he => hF.chain ?_
    exact List.mem_map.mpr ⟨c, hc, he.symm⟩
  have herror : ∀ c ∈ portscanRemoval p, ∃ e, F.exec c = .error e := by
    intro c hc
    simp only [portscanRemoval, List.mem_cons, List.not_mem_nil, or_false] at hc
    rcases hc with rfl | rfl | rfl | rfl
    all_goals rw [Firewall.exec, Table.exec]
    · simp [Table.edit, Table.rules, hF.jump_not_mem, Except.map]
    · simp [Table.edit, Table.rules, hF.note_not_mem, Except.map]
    · simp [Table.edit, Table.rules, hchain, Except.map]
    · simp [hchain, Except.map]
  exact Firewall.perform_refused herror

end PrivacyGuard
