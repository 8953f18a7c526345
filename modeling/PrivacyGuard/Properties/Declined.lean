import PrivacyGuard.Model.Leftovers
import PrivacyGuard.Model.Switching

set_option autoImplicit false

/-! # What a declined protection leaves

`enable_portscan_protection` and `block_ipv6` answer no when one of their commands fails, and
do not take back what the others have done. -/

namespace PrivacyGuard

open Netfilter Effect

/-- A call of one of the two functions. -/
inductive DirectCall
  | portscan (p : PortscanParams) (force : Bool)
  | ipv6

def DirectCall.body (env : Environment) : DirectCall → Proc Bool
  | .portscan p force => enablePortscanProtection env p force
  | .ipv6 => blockIpv6 env

/-- Both firewalls and the saved state are as before. -/
structure Untouched (w w' : World) : Prop where
  v4 : w'.v4.Same w.v4
  v6 : w'.v6.Same w.v6
  saved : w'.saved = w.saved

/-- Of the commands of portscan protection, `S` have succeeded over the firewall `F`. The
chain existed already, no rule has been added to INPUT, and the chain has been left alone or
been given the rules it had. -/
structure PortscanIdle (S : List (FwCommand Match)) (F : Fw) : Prop where
  existed : .filter (.newChain portscanChain) ∉ S
  input : ∀ c ∈ Firewall.filterPart S, c.chain? ≠ some (.hook .input)
  emptied : .filter (.flush (.user portscanChain)) ∈ S →
    F.filterTable.chainRules portscanChain =
      Command.appended (.user portscanChain) (Firewall.filterPart S)
  kept : .filter (.flush (.user portscanChain)) ∉ S →
    Command.appended (.user portscanChain) (Firewall.filterPart S) = []

/-- Of the commands of `block_ipv6`, `S` have succeeded over the firewall `F`, which had no
other rules than these have added, and the policies they have set. -/
structure BlockIdle (S : List (FwCommand Match)) (F : Fw) : Prop where
  hooks : ∀ h, F.filterTable.hook h = Command.appended (.hook h) (Firewall.filterPart S)
  chains : ∀ c ∈ F.filterTable.user, c.2 = []
  policies : ∀ h, .policy h .drop ∈ Firewall.filterPart S → F.filterTable.policy h = .drop

/-- Given the firewalls from before and the commands that have succeeded, nothing is left of
the call. -/
def DirectCall.Idle (tr : List (Event sig)) (w : World) : DirectCall → Prop
  | .portscan _ _ => PortscanIdle (succeeded .v4 tr) w.v4
  | .ipv6 => succeeded .v6 tr = [] ∨ BlockIdle (succeeded .v6 tr) w.v6

section

variable {F G : Fw} {S : List (FwCommand Match)}

/-- The commands are all on the filter table. -/
theorem natTable_of_applied (happ : Firewall.Applied Firewall.noSkip S F G)
    (hS : Firewall.natPart S = []) : G.natTable = F.natTable := by
  obtain ⟨hp, hh, hu⟩ := happ.natTable
  rw [hS] at hp hh hu
  exact Table.ext' hp hh hu

/-! ## Blocking IPv6 -/

/-- The commands of `block_ipv6` after the flush. -/
def blockEdits : List (Command FilterHook Match) :=
  Firewall.filterPart blockIpv6Commands.tail

theorem blockEdits_adds {d : Command FilterHook Match} (hd : d ∈ blockEdits) :
    d.adds = true ∧ (∀ x q, d = .policy x q → q = .drop) ∧ ∀ n, d.chain? ≠ some (.user n) := by
  have hall : ∀ d ∈ blockEdits, d.adds = true ∧ (∀ x q, d = .policy x q → q = .drop) ∧
      ∀ n, d.chain? ≠ some (.user n) := by
    simp [blockEdits, blockIpv6Commands, Firewall.filterPart, Command.adds, Command.chain?]
  exact hall d hd

/-- After the flush there are policies and rules to be added. -/
theorem table_of_flushed {T : List (FwCommand Match)}
    (hT : ∀ d ∈ Firewall.filterPart T, d ∈ blockEdits)
    (happ : Firewall.Applied Firewall.noSkip (.filter .flushAll :: T) F G) :
    (∀ x, G.filterTable.hook x = Command.appended (.hook x) (Firewall.filterPart T)) ∧
    G.filterTable.user = F.filterTable.user.map (fun c => (c.1, [])) ∧
    ∀ x, (.policy x .drop ∈ Firewall.filterPart T → G.filterTable.policy x = .drop) ∧
      (.policy x .drop ∉ Firewall.filterPart T →
        G.filterTable.policy x = F.filterTable.policy x) := by
  obtain ⟨hp, hh, hu⟩ := happ.filterTable
  have hadds := fun d hd => (blockEdits_adds (hT d hd)).1
  refine ⟨?_, ?_, ?_⟩
  · intro x
    rw [hh]
    exact Command.hookAfter_of_adds hadds (fun _ => []) x
  · rw [hu]
    exact Command.userAfter_of_adds hadds (fun d hd => (blockEdits_adds (hT d hd)).2.2) _
  · intro x
    rw [hp]
    exact Command.policyAfter_of_const (fun d hd => (blockEdits_adds (hT d hd)).2.1) _ x

/-- `S` is an initial part of the commands. -/
theorem block_same_iff {rest : List (FwCommand Match)} (hS : blockIpv6Commands = S ++ rest)
    (happ : Firewall.Applied Firewall.noSkip S F G) :
    G.Same F ↔ S = [] ∨ BlockIdle S F := by
  cases S with
  | nil =>
      cases happ
      exact iff_of_true (.refl F) (.inl rfl)
  | cons c T =>
      obtain ⟨rfl, hT⟩ := List.cons.inj (show FwCommand.filter .flushAll :: _ = c :: _ from hS)
      have hsub : ∀ d ∈ Firewall.filterPart T, d ∈ blockEdits := by
        intro d hd
        rw [blockEdits, show blockIpv6Commands.tail = T ++ rest from hT, Firewall.filterPart,
          List.filterMap_append]
        exact List.mem_append_left _ hd
      have hnat : Firewall.natPart (.filter .flushAll :: T) = [] := by
        have hall : Firewall.natPart blockIpv6Commands = [] := rfl
        rw [hS, Firewall.natPart, List.filterMap_append] at hall
        exact (List.append_eq_nil_iff.mp hall).1
      obtain ⟨hhook, huser, hpolicy⟩ := table_of_flushed hsub happ
      rw [or_iff_right (List.cons_ne_nil _ _)]
      constructor
      · rintro ⟨hsame, -⟩
        rw [hsame] at hhook huser hpolicy
        refine ⟨hhook, ?_, ?_⟩
        · intro c hc
          rw [huser] at hc
          obtain ⟨d, -, rfl⟩ := List.mem_map.mp hc
          rfl
        · exact fun x hx => (hpolicy x).1 ((List.mem_cons.mp hx).resolve_left (by simp))
      · rintro ⟨hooks, chains, policies⟩
        refine ⟨Table.ext' ?_ ?_ ?_, natTable_of_applied happ hnat⟩
        · funext x
          by_cases hx : .policy x .drop ∈ Firewall.filterPart T
          · rw [(hpolicy x).1 hx, policies x (List.mem_cons_of_mem _ hx)]
          · exact (hpolicy x).2 hx
        · funext x
          rw [hhook, hooks]
          rfl
        · rw [huser]
          refine (List.map_congr_left fun c hc => ?_).trans (List.map_id _)
          rw [← chains c hc]
          rfl

/-! ## Portscan protection -/

/-- The commands after the creation of the chain are about the chain, of which one empties it
and others append to it, or add rules to INPUT. -/
theorem portscanEdits_shape {p : PortscanParams} {d : Command FilterHook Match}
    (hd : d ∈ portscanEdits p) :
    (d.chain? = some (.user portscanChain) ∧
        (d = .flush (.user portscanChain) ∨ d.adds = true)) ∨
      (d.chain? = some (.hook .input) ∧ d.Grows .input) := by
  simp only [portscanEdits, portscanCommands, portscanRules, Firewall.filterPart, ipt,
    List.map_cons, List.map_nil, List.tail_cons, List.filterMap_cons, List.filterMap_nil,
    List.mem_cons, List.not_mem_nil, or_false] at hd
  obtain rfl | rfl | rfl | rfl | rfl := hd
  · exact .inl ⟨rfl, .inl rfl⟩
  · exact .inl ⟨rfl, .inr rfl⟩
  · exact .inl ⟨rfl, .inr rfl⟩
  · exact .inr ⟨rfl, .inr ⟨_, .inr rfl⟩⟩
  · exact .inr ⟨rfl, .inr ⟨_, .inl rfl⟩⟩

theorem portscanEdits_chain {p : PortscanParams} {d : Command FilterHook Match}
    (hd : d ∈ portscanEdits p) : d.chain? ≠ none := by
  obtain ⟨hc, -⟩ | ⟨hc, -⟩ := portscanEdits_shape hd
  all_goals
    rw [hc]
    exact Option.some_ne_none _

/-- What they leave in the chain. -/
theorem chainRules_of_edits {p : PortscanParams} {T : List (Command FilterHook Match)}
    (hT : T.Sublist (portscanEdits p))
    (happ : Firewall.Applied Firewall.noSkip (T.map .filter) F G) :
    (.flush (.user portscanChain) ∈ T → G.filterTable.chainRules portscanChain =
      Command.appended (.user portscanChain) T) ∧
    (.flush (.user portscanChain) ∉ T → G.filterTable.chainRules portscanChain =
      F.filterTable.chainRules portscanChain ++ Command.appended (.user portscanChain) T) := by
  have hrules := happ.chainRules_filter (fun d hd => portscanEdits_chain (hT.subset hd))
    portscanChain
  have htail : ∀ d ∈ (portscanEdits p).tail, d.chain? = some (.user portscanChain) →
      d.adds = true := by
    simp [portscanEdits, portscanCommands, portscanRules, Firewall.filterPart, ipt,
      Command.chain?, Command.adds]
  have hflush : .flush (.user portscanChain) ∉ (portscanEdits p).tail := by
    simp [portscanEdits, portscanCommands, portscanRules, Firewall.filterPart, ipt]
  have hparts : T.Sublist (.flush (.user portscanChain) :: (portscanEdits p).tail) := hT
  rw [List.sublist_cons_iff] at hparts
  obtain hsub | ⟨V, rfl, hsub⟩ := hparts
  · refine ⟨fun hin => absurd (hsub.subset hin) hflush, fun _ => ?_⟩
    rw [hrules]
    exact Command.foldl_onChain_of_adds (fun d hd => htail d (hsub.subset hd)) _
  · refine ⟨fun _ => ?_, fun hout => absurd List.mem_cons_self hout⟩
    rw [hrules, List.foldl_cons]
    exact Command.foldl_onChain_of_adds (fun d hd => htail d (hsub.subset hd)) []

section

variable {p : PortscanParams} {T : List (Command FilterHook Match)}

theorem mem_filter_iff {d : Command FilterHook Match} :
    FwCommand.filter d ∈ T.map .filter ↔ d ∈ T := by
  simp

/-- Where the table is as before, no rule has been added. -/
theorem idle_of_same (hT : T.Sublist (portscanEdits p))
    (happ : Firewall.Applied Firewall.noSkip (T.map .filter) F G)
    (hsame : G.filterTable = F.filterTable) : PortscanIdle (T.map .filter) F := by
  obtain ⟨hflushed, hkept⟩ := chainRules_of_edits hT happ
  rw [hsame] at hflushed hkept
  refine ⟨?_, ?_, ?_, ?_⟩
  · rw [mem_filter_iff]
    exact fun hin => portscanEdits_chain (hT.subset hin) rfl
  · rw [Firewall.filterPart_map]
    intro d hd hinput
    have hgrows : ∀ d ∈ T, d.Grows .input := by
      intro d hd
      obtain ⟨hc, hd'⟩ | ⟨-, hg⟩ := portscanEdits_shape (hT.subset hd)
      · refine .inl ⟨by rw [hc]; simp, ?_⟩
        rintro rfl
        cases hc
      · exact hg
    -- the chain is longer by the rules that have been added to it
    have hlen := Command.length_hookAfter hgrows F.filterTable.hook
    have hhook := happ.filterTable.2.1
    rw [Firewall.filterPart_map] at hhook
    rw [← hhook, hsame] at hlen
    have hpos : 0 < T.countP fun c => c.chain? = some (.hook .input) :=
      List.countP_pos_iff.mpr ⟨d, hd, decide_eq_true hinput⟩
    omega
  · rw [mem_filter_iff, Firewall.filterPart_map]
    exact hflushed
  · rw [mem_filter_iff, Firewall.filterPart_map]
    exact fun hout => List.self_eq_append_right.mp (hkept hout)

theorem same_of_idle (hT : T.Sublist (portscanEdits p))
    (happ : Firewall.Applied Firewall.noSkip (T.map .filter) F G)
    (h : PortscanIdle (T.map .filter) F) : G.filterTable = F.filterTable := by
  obtain ⟨-, hinput, hemptied, hnone⟩ := h
  rw [mem_filter_iff, Firewall.filterPart_map] at hemptied hnone
  rw [Firewall.filterPart_map] at hinput
  have hchain : ∀ d ∈ T, d.chain? ≠ none := fun d hd => portscanEdits_chain (hT.subset hd)
  have huser : ∀ d ∈ T, d.chain? = some (.user portscanChain) := by
    intro d hd
    obtain ⟨hc, -⟩ | ⟨hc, -⟩ := portscanEdits_shape (hT.subset hd)
    · exact hc
    · exact absurd hc (hinput d hd)
  obtain ⟨hp, hh, -⟩ := happ.filterTable
  rw [Firewall.filterPart_map] at hp hh
  obtain ⟨hflushed, hkept⟩ := chainRules_of_edits hT happ
  refine Table.eq_of_chainRules (hp.trans (Command.policyAfter_of_edits hchain _)) ?_
    (happ.names_filter hchain) ?_
  · exact hh.trans (Command.hookAfter_of_user (fun d hd => ⟨_, huser d hd⟩) _)
  · intro n
    by_cases hn : n = portscanChain
    · rw [hn]
      by_cases hin : .flush (.user portscanChain) ∈ T
      · rw [hflushed hin, hemptied hin]
      · rw [hkept hin, hnone hin, List.append_nil]
    · rw [happ.chainRules_filter hchain]
      refine Command.foldl_onChain (fun d hd => ?_) _
      rw [huser d hd]
      simpa using Ne.symm hn

/-- A chain that has been created is still there. -/
theorem not_same_of_created (hT : T.Sublist (portscanEdits p))
    (happ : Firewall.Applied Firewall.noSkip ((.newChain portscanChain :: T).map .filter) F G) :
    G.filterTable ≠ F.filterTable := by
  intro hsame
  cases happ with
  | skip hc _ => exact hc.elim
  | @cons _ K _ _ _ hc hrest =>
      obtain ⟨-, -, hu⟩ := Table.of_exec (Firewall.exec_filter hc).1
      have hcreated : K.filterTable.names = F.filterTable.names ++ [portscanChain] := by
        rw [Table.names, hu]
        exact List.map_append
      have hnames := hrest.names_filter fun d hd => portscanEdits_chain (hT.subset hd)
      rw [hcreated, hsame] at hnames
      cases List.self_eq_append_right.mp hnames

theorem portscan_same_iff (hS : S.Sublist (portscanCommands p))
    (happ : Firewall.Applied Firewall.noSkip S F G) : G.Same F ↔ PortscanIdle S F := by
  have hS' : S.Sublist ((.newChain portscanChain :: portscanEdits p).map .filter) := hS
  obtain ⟨T, hT, rfl⟩ := List.sublist_map_iff.mp hS'
  have hnat := natTable_of_applied happ (Firewall.natPart_map T)
  rw [List.sublist_cons_iff] at hT
  obtain hT | ⟨V, rfl, hV⟩ := hT
  · exact ⟨fun h => idle_of_same hT happ h.1, fun h => ⟨same_of_idle hT happ h, hnat⟩⟩
  · refine iff_of_false (fun h => not_same_of_created hV happ h.1) fun h => ?_
    exact h.existed (mem_filter_iff.mpr List.mem_cons_self)

end

end

/-! ## The saved state -/

section

variable {env : Environment} {w : World}

theorem enablePortscanProtection_wp_saved (p : PortscanParams) (force : Bool) :
    (enablePortscanProtection env p force).wp (machine anything)
      (fun b w' => b = false → w'.saved = w.saved) w := by
  rw [enablePortscanProtection]
  split
  · exact fun _ => rfl
  split
  · exact fun _ => rfl
  rw [Prog.wp_bind]
  refine wp_load ?_
  split
  · exact fun _ => rfl
  rw [Prog.wp_bind]
  have hskip : Skips anything ["Chain already exists"] fun _ _ => True := fun _ _ _ _ _ => trivial
  refine applyRules_wp hskip _ _ _ (by simp [portscanRules, ipt]) (fun F _ => rfl) ?_
  intro _ F _
  rw [if_neg (by decide), Prog.wp_bind]
  exact wp_update fun now hno => absurd hno.symm Bool.false_ne_true

theorem blockIpv6_wp_saved :
    (blockIpv6 env).wp (machine anything) (fun b w' => b = false → w'.saved = w.saved) w := by
  rw [blockIpv6]
  split
  · exact fun _ => rfl
  rw [Prog.wp_bind]
  refine wp_load ?_
  split
  · exact fun _ => rfl
  rw [Prog.wp_bind]
  refine Prog.wp_of_along (I := fun _ => True) (runChecked_along _ _ fun b F => ⟨trivial, ?_⟩)
  split
  · exact fun _ => rfl
  · rw [Prog.wp_bind]
    exact wp_update fun now hno => absurd hno.symm Bool.false_ne_true

variable {x : DirectCall} {w' : World} {tr : List (Event sig)}

/-- **What a call that answers no leaves.** -/
theorem untouched_iff (hrun : Prog.Runs (machine anything) (x.body env) w tr false w') :
    Untouched w w' ↔ x.Idle tr w := by
  have hsaved : w'.saved = w.saved := by
    cases x with
    | portscan p force => exact hrun.post (enablePortscanProtection_wp_saved p force) rfl
    | ipv6 => exact hrun.post blockIpv6_wp_saved rfl
  have hrestores : ∀ f, (x.body env).all (RestoresNot f) := by
    intro f
    cases x with
    | portscan p force =>
        exact enablePortscanProtection_all (fun _ => by simp) (fun _ => by simp)
          fun _ _ _ => by simp
    | ipv6 => exact blockIpv6_all (fun _ => by simp) (fun _ => by simp) fun _ _ => by simp
  have h4 : Firewall.Applied Firewall.noSkip (succeeded .v4 tr) w.v4 w'.v4 :=
    succeeded_applied hrun (hrestores .v4)
  have h6 : Firewall.Applied Firewall.noSkip (succeeded .v6 tr) w.v6 w'.v6 :=
    succeeded_applied hrun (hrestores .v6)
  cases x with
  | portscan p force =>
      have hnone : succeeded .v6 tr = [] :=
        succeeded_eq_nil (enablePortscanProtection_all (by simp) (by simp) (by simp)) hrun.trace
      rw [hnone] at h6
      have hv6 : w'.v6 = w.v6 := h6.perform.symm
      rw [DirectCall.Idle, ← portscan_same_iff (succeeded_portscan hrun.trace) h4]
      exact ⟨Untouched.v4, fun hv4 => ⟨hv4, Firewall.same_of_eq hv6, hsaved⟩⟩
  | ipv6 =>
      have hnone : succeeded .v4 tr = [] :=
        succeeded_eq_nil (blockIpv6_all (by simp) (by simp) (by simp)) hrun.trace
      rw [hnone] at h4
      have hv4 : w'.v4 = w.v4 := h4.perform.symm
      obtain ⟨rest, hrest, -⟩ := succeeded_blockIpv6 hrun.trace
      rw [DirectCall.Idle, ← block_same_iff hrest h6]
      exact ⟨Untouched.v6, fun hv6 => ⟨Firewall.same_of_eq hv4, hv6, hsaved⟩⟩

end

/-! ## One command that fails -/

/-- `block_ipv6` on a server that admits only SSH, where `cmd` fails. -/
def blockedBut (cmd : FwCommand Match) : Bool × World :=
  (blockIpv6 .full).run (machine anything) (failing cmd) (.start .blank sshServer)

theorem runs_blockedBut {cmd : FwCommand Match} (h : (blockedBut cmd).1 = false) :
    Prog.Runs (machine anything) (DirectCall.ipv6.body .full) (.start .blank sshServer)
      ((blockIpv6 .full).events (machine anything) (failing cmd) (.start .blank sshServer)) false
      (blockedBut cmd).2 := by
  have hpick : ∀ (o : Op) (w : World), (machine anything).admits o (failing cmd o w) w :=
    fun _ _ => trivial
  have hrun := Prog.runs_events hpick (blockIpv6 .full) (.start .blank sshServer)
  rw [show ((blockIpv6 .full).run _ (failing cmd) _).1 = false from h] at hrun
  exact hrun

/-- When the first command fails nothing has happened. -/
theorem untouched_iff_flush :
    Untouched (.start .blank sshServer) (blockedBut (.filter .flushAll)).2 :=
  (untouched_iff (x := .ipv6) (runs_blockedBut (by decide +kernel))).mpr
    (.inl (by decide +kernel))

/-- When the second one fails, the rule that admits SSH is lost. -/
theorem not_untouched :
    ¬ ∀ (env : Environment) (x : DirectCall) (w w' : World) (tr : List (Event sig)),
      Prog.Runs (machine anything) (x.body env) w tr false w' → Untouched w w' := by
  intro h
  have hsame := (h .full .ipv6 _ _ _
    (@runs_blockedBut (.filter (.policy .input .drop)) (by decide +kernel))).v6
  have hinput := congrArg (fun t : Table FilterHook Match => t.hook .input) hsame.1
  exact absurd hinput (by decide +kernel)

end PrivacyGuard
