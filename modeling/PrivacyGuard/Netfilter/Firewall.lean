import PrivacyGuard.Netfilter.Verdict
import Mathlib.Data.Fintype.Basic

set_option autoImplicit false

/-! # The filter and nat tables of one protocol family

The kernel holds a table only once its module is loaded, which the first command on the
table does; `iptables-save` prints the tables the kernel holds. A table the kernel does not
hold treats packets as a fresh one does, so `filterTable` and `natTable` read an absent
table as fresh, and two firewalls are the `Same` when they differ in nothing else.
-/

namespace Netfilter

inductive FilterHook
  | input
  | forward
  | output
  deriving DecidableEq, Repr

inductive NatHook
  | prerouting
  | input
  | output
  | postrouting
  deriving DecidableEq, Repr

instance : Fintype FilterHook := ⟨{.input, .forward, .output}, by rintro (_ | _ | _) <;> simp⟩

instance : Fintype NatHook :=
  ⟨{.prerouting, .input, .output, .postrouting}, by rintro (_ | _ | _ | _) <;> simp⟩

/-- The filter and nat tables the kernel holds. -/
@[ext] structure Firewall (M : Type) where
  filter : Option (Table FilterHook M)
  nat : Option (Table NatHook M)

/-- A command and the table it names (`-t nat`, or the filter table by default). -/
inductive FwCommand (M : Type)
  | filter (c : Command FilterHook M)
  | nat (c : Command NatHook M)
  deriving DecidableEq

namespace Firewall

variable {M P : Type}

/-- No table is loaded. -/
def blank : Firewall M := ⟨none, none⟩

def filterTable (F : Firewall M) : Table FilterHook M := F.filter.getD .fresh

def natTable (F : Firewall M) : Table NatHook M := F.nat.getD .fresh

/-- The same rules, chains and policies, whether or not a fresh table is loaded. -/
def Same (F G : Firewall M) : Prop :=
  F.filterTable = G.filterTable ∧ F.natTable = G.natTable

theorem Same.refl (F : Firewall M) : F.Same F := ⟨rfl, rfl⟩

theorem same_of_eq {F G : Firewall M} (h : F = G) : F.Same G := h ▸ Same.refl F

/-- The first firewall is the second one, with the filter table loaded if it was not. -/
def LoadedFrom (G F : Firewall M) : Prop :=
  G = F ∨ G = { F with filter := some F.filterTable }

theorem LoadedFrom.refl (F : Firewall M) : F.LoadedFrom F := Or.inl rfl

theorem LoadedFrom.same {G F : Firewall M} (h : G.LoadedFrom F) : G.Same F := by
  rcases h with rfl | rfl
  · exact Same.refl _
  · exact ⟨rfl, rfl⟩

theorem LoadedFrom.nat {G F : Firewall M} (h : G.LoadedFrom F) : G.nat = F.nat := by
  rcases h with rfl | rfl <;> rfl

theorem LoadedFrom.eq_of_loaded {G F : Firewall M} (h : G.LoadedFrom F) (hF : F.filter ≠ none) :
    G = F := by
  rcases h with rfl | rfl
  · rfl
  · obtain ⟨t, ht⟩ := Option.ne_none_iff_exists'.mp hF
    exact Firewall.ext (by rw [filterTable, ht]; rfl) rfl

/-- The verdict of the filter table. -/
def filterVerdict (F : Firewall M) (m : Meaning M P) (h : FilterHook) (p : P) : Verdict :=
  F.filterTable.verdict m h p

/-- The verdict of the nat table, which decides how an address is rewritten. -/
def natVerdict (F : Firewall M) (m : Meaning M P) (h : NatHook) (p : P) : Verdict :=
  F.natTable.verdict m h p

variable [DecidableEq M]

/-- The effect of a command. A command on a table that is not loaded loads it first; one
that is refused changes nothing. -/
def exec (F : Firewall M) : FwCommand M → Except String (Firewall M)
  | .filter c => (F.filterTable.exec c).map fun t => { F with filter := some t }
  | .nat c => (F.natTable.exec c).map fun t => { F with nat := some t }

omit [DecidableEq M] in
/-- What `iptables-restore` leaves of `F` when it reads the dump `D`: the tables `D` names
are replaced, the others stay. -/
def overlay (D F : Firewall M) : Firewall M where
  filter := D.filter.or F.filter
  nat := D.nat.or F.nat

/-- The commands of a list, performed in order; a command in `skip` may be passed over. -/
inductive Applied (skip : FwCommand M → Firewall M → Prop) :
    List (FwCommand M) → Firewall M → Firewall M → Prop
  | nil (F : Firewall M) : Applied skip [] F F
  | cons {F G K : Firewall M} {c : FwCommand M} {cs : List (FwCommand M)}
      (hc : F.exec c = .ok G) (h : Applied skip cs G K) : Applied skip (c :: cs) F K
  | skip {F K : Firewall M} {c : FwCommand M} {cs : List (FwCommand M)} (hc : skip c F)
      (h : Applied skip cs F K) : Applied skip (c :: cs) F K

/-- Nothing may be passed over. -/
def noSkip : FwCommand M → Firewall M → Prop := fun _ _ => False

theorem Applied.mono {skip skip' : FwCommand M → Firewall M → Prop}
    {cs : List (FwCommand M)} {F K : Firewall M} (h : Applied skip cs F K)
    (hskip : ∀ c G, skip c G → skip' c G) : Applied skip' cs F K := by
  induction h with
  | nil F => exact .nil F
  | cons hc _ ih => exact .cons hc ih
  | skip hc _ ih => exact .skip (hskip _ _ hc) ih

/-- A property every listed command keeps holds after the whole list. -/
theorem Applied.invariant {skip : FwCommand M → Firewall M → Prop} {I : Firewall M → Prop}
    {cs : List (FwCommand M)} {F K : Firewall M} (h : Applied skip cs F K)
    (hstep : ∀ c ∈ cs, ∀ F G, F.exec c = .ok G → I F → I G) (hF : I F) : I K := by
  induction h with
  | nil F => exact hF
  | cons hc _ ih =>
      exact ih (fun c hc => hstep c (List.mem_cons_of_mem _ hc))
        (hstep _ List.mem_cons_self _ _ hc hF)
  | skip hc _ ih => exact ih (fun c hc => hstep c (List.mem_cons_of_mem _ hc)) hF

theorem exec_filter {F G : Firewall M} {c : Command FilterHook M}
    (h : F.exec (.filter c) = .ok G) :
    F.filterTable.exec c = .ok G.filterTable ∧ G.nat = F.nat := by
  rw [exec] at h
  cases ht : F.filterTable.exec c with
  | error e => rw [ht] at h; cases h
  | ok t =>
      rw [ht] at h
      cases h
      exact ⟨rfl, rfl⟩

theorem exec_nat {F G : Firewall M} {c : Command NatHook M} (h : F.exec (.nat c) = .ok G) :
    F.natTable.exec c = .ok G.natTable ∧ G.filter = F.filter := by
  rw [exec] at h
  cases ht : F.natTable.exec c with
  | error e => rw [ht] at h; cases h
  | ok t =>
      rw [ht] at h
      cases h
      exact ⟨rfl, rfl⟩

theorem exec_filter_ok {F : Firewall M} {c : Command FilterHook M}
    (h : ∃ t, F.filterTable.exec c = .ok t) : ∃ G, F.exec (.filter c) = .ok G := by
  obtain ⟨t, ht⟩ := h
  exact ⟨_, by rw [exec, ht]; rfl⟩

theorem exec_filter_eq {F : Firewall M} {c : Command FilterHook M} {t : Table FilterHook M}
    (h : F.filterTable.exec c = .ok t) :
    F.exec (.filter c) = .ok { F with filter := some t } := by
  rw [exec, h]
  rfl

theorem exec_nat_ok {F : Firewall M} {c : Command NatHook M}
    (h : ∃ t, F.natTable.exec c = .ok t) : ∃ G, F.exec (.nat c) = .ok G := by
  obtain ⟨t, ht⟩ := h
  exact ⟨_, by rw [exec, ht]; rfl⟩

/-! ## Lists of commands -/

/-- The commands of a list on one of the two tables. -/
def filterPart (cs : List (FwCommand M)) : List (Command FilterHook M) :=
  cs.filterMap fun c => match c with | .filter c => some c | .nat _ => none

def natPart (cs : List (FwCommand M)) : List (Command NatHook M) :=
  cs.filterMap fun c => match c with | .filter _ => none | .nat c => some c

/-- **The effect of a list of commands on the filter table.** -/
theorem Applied.filterTable {cs : List (FwCommand M)} {F G : Firewall M}
    (h : Applied noSkip cs F G) :
    G.filterTable.policy = Command.policyAfter (filterPart cs) F.filterTable.policy ∧
    G.filterTable.hook = Command.hookAfter (filterPart cs) F.filterTable.hook ∧
    G.filterTable.user = Command.userAfter (filterPart cs) F.filterTable.user := by
  induction h with
  | nil F => exact ⟨rfl, rfl, rfl⟩
  | @cons F G K c cs hc _ ih =>
      cases c with
      | filter c =>
          obtain ⟨hp, hh, hu⟩ := Table.of_exec (exec_filter hc).1
          rw [hp, hh, hu] at ih
          exact ih
      | nat c =>
          have hF : G.filterTable = F.filterTable := by
            rw [Firewall.filterTable, (exec_nat hc).2, Firewall.filterTable]
          rw [hF] at ih
          exact ih
  | skip hc _ _ => exact hc.elim

/-- The effect of a list of commands on the nat table. -/
theorem Applied.natTable {cs : List (FwCommand M)} {F G : Firewall M}
    (h : Applied noSkip cs F G) :
    G.natTable.policy = Command.policyAfter (natPart cs) F.natTable.policy ∧
    G.natTable.hook = Command.hookAfter (natPart cs) F.natTable.hook ∧
    G.natTable.user = Command.userAfter (natPart cs) F.natTable.user := by
  induction h with
  | nil F => exact ⟨rfl, rfl, rfl⟩
  | @cons F G K c cs hc _ ih =>
      cases c with
      | filter c =>
          have hF : G.natTable = F.natTable := by
            rw [Firewall.natTable, (exec_filter hc).2, Firewall.natTable]
          rw [hF] at ih
          exact ih
      | nat c =>
          obtain ⟨hp, hh, hu⟩ := Table.of_exec (exec_nat hc).1
          rw [hp, hh, hu] at ih
          exact ih
  | skip hc _ _ => exact hc.elim

/-- What commands on the rules of chains make of the rules of a user chain. -/
theorem Applied.chainRules_filter {cs : List (Command FilterHook M)} {F G : Firewall M}
    (h : Applied noSkip (cs.map .filter) F G) (hcs : ∀ c ∈ cs, c.chain? ≠ none) (n : String) :
    G.filterTable.chainRules n =
      cs.foldl (fun rs c => c.onChain n rs) (F.filterTable.chainRules n) := by
  induction cs generalizing F with
  | nil =>
      cases h
      rfl
  | cons c cs ih =>
      cases h with
      | cons hc h =>
          have hstep := Table.chainRules_exec (hcs c List.mem_cons_self) (exec_filter hc).1 n
          rw [ih h fun d hd => hcs d (List.mem_cons_of_mem _ hd), hstep]
          rfl
      | skip hc _ => exact hc.elim

theorem Applied.chainRules_nat {cs : List (Command NatHook M)} {F G : Firewall M}
    (h : Applied noSkip (cs.map .nat) F G) (hcs : ∀ c ∈ cs, c.chain? ≠ none) (n : String) :
    G.natTable.chainRules n =
      cs.foldl (fun rs c => c.onChain n rs) (F.natTable.chainRules n) := by
  induction cs generalizing F with
  | nil =>
      cases h
      rfl
  | cons c cs ih =>
      cases h with
      | cons hc h =>
          have hstep := Table.chainRules_exec (hcs c List.mem_cons_self) (exec_nat hc).1 n
          rw [ih h fun d hd => hcs d (List.mem_cons_of_mem _ hd), hstep]
          rfl
      | skip hc _ => exact hc.elim

/-- No table refuses the command. -/
def plainFw : FwCommand M → Bool
  | .filter c => c.plain
  | .nat c => c.plain

theorem exec_plain {c : FwCommand M} (h : plainFw c = true) (F : Firewall M) :
    ∃ G, F.exec c = .ok G := by
  cases c with
  | filter c => exact exec_filter_ok (Table.exec_plain h F.filterTable)
  | nat c => exact exec_nat_ok (Table.exec_plain h F.natTable)

/-- The commands of a list, performed in order; those that are refused are passed over. -/
def perform : Firewall M → List (FwCommand M) → Firewall M
  | F, [] => F
  | F, c :: cs =>
      match F.exec c with
      | .ok G => G.perform cs
      | .error _ => F.perform cs

theorem perform_ok {F G : Firewall M} {c : FwCommand M} (h : F.exec c = .ok G)
    (cs : List (FwCommand M)) : F.perform (c :: cs) = G.perform cs := by
  rw [perform, h]

theorem perform_error {F : Firewall M} {c : FwCommand M} {e : String}
    (h : F.exec c = .error e) (cs : List (FwCommand M)) :
    F.perform (c :: cs) = F.perform cs := by
  rw [perform, h]

theorem perform_append (F : Firewall M) (cs ds : List (FwCommand M)) :
    F.perform (cs ++ ds) = (F.perform cs).perform ds := by
  induction cs generalizing F with
  | nil => rfl
  | cons c cs ih =>
      rw [List.cons_append, perform, perform]
      split
      · exact ih _
      · exact ih _

/-- After the creation of a chain, the others are performed where the chain exists. -/
theorem perform_newChain_filter (F : Firewall M) (n : String) :
    ∃ G : Firewall M, F.filterTable.With n G.filterTable ∧ G.nat = F.nat ∧
      ∀ cs, F.perform (.filter (.newChain n) :: cs) = G.perform cs := by
  rcases F.filterTable.exec_newChain n with ⟨hwith, h⟩ | ⟨u, h, hwith⟩
  · have hexec : F.exec (.filter (.newChain n)) = .error "iptables: Chain already exists." := by
      rw [exec, h]
      rfl
    exact ⟨F, hwith, rfl, perform_error hexec⟩
  · exact ⟨{ F with filter := some u }, hwith, rfl, perform_ok (exec_filter_eq h)⟩

theorem perform_newChain_nat (F : Firewall M) (n : String) :
    ∃ G : Firewall M, F.natTable.With n G.natTable ∧ G.filter = F.filter ∧
      ∀ cs, F.perform (.nat (.newChain n) :: cs) = G.perform cs := by
  rcases F.natTable.exec_newChain n with ⟨hwith, h⟩ | ⟨u, h, hwith⟩
  · have hexec : F.exec (.nat (.newChain n)) = .error "iptables: Chain already exists." := by
      rw [exec, h]
      rfl
    exact ⟨F, hwith, rfl, perform_error hexec⟩
  · have hexec : F.exec (.nat (.newChain n)) = .ok { F with nat := some u } := by
      rw [exec, h]
      rfl
    exact ⟨{ F with nat := some u }, hwith, rfl, perform_ok hexec⟩

/-- Only refused commands have been passed over. -/
theorem Applied.perform_of_refused {skip : FwCommand M → Firewall M → Prop}
    {cs : List (FwCommand M)} {F G : Firewall M} (h : Applied skip cs F G)
    (hskip : ∀ c F, skip c F → ∃ e, F.exec c = .error e) : F.perform cs = G := by
  induction h with
  | nil F => rfl
  | cons hc _ ih => rw [perform_ok hc, ih]
  | skip hc _ ih =>
      obtain ⟨e, he⟩ := hskip _ _ hc
      rw [perform_error he, ih]

theorem Applied.perform {cs : List (FwCommand M)} {F G : Firewall M}
    (h : Applied noSkip cs F G) : F.perform cs = G :=
  h.perform_of_refused fun _ _ hc => hc.elim

/-- Commands no table refuses are all performed. -/
theorem applied_of_plain {cs : List (FwCommand M)} (h : ∀ c ∈ cs, plainFw c = true)
    (F : Firewall M) : Applied noSkip cs F (F.perform cs) := by
  induction cs generalizing F with
  | nil => exact .nil F
  | cons c cs ih =>
      obtain ⟨G, hG⟩ := exec_plain (h c List.mem_cons_self) F
      rw [perform_ok hG]
      exact .cons hG (ih (fun d hd => h d (List.mem_cons_of_mem _ hd)) G)

/-- A property every listed command keeps is not lost. -/
theorem perform_invariant {I : Firewall M → Prop} {cs : List (FwCommand M)} {F : Firewall M}
    (hstep : ∀ c ∈ cs, ∀ F G, F.exec c = .ok G → I F → I G) (hF : I F) : I (F.perform cs) := by
  induction cs generalizing F with
  | nil => exact hF
  | cons c cs ih =>
      have hrest : ∀ d ∈ cs, ∀ F G, F.exec d = .ok G → I F → I G :=
        fun d hd => hstep d (List.mem_cons_of_mem _ hd)
      rw [perform]
      split
      · rename_i G hG
        exact ih hrest (hstep c List.mem_cons_self F G hG hF)
      · exact ih hrest hF

/-- Commands on the nat table leave the filter table alone. -/
theorem perform_nat (cs : List (Command NatHook M)) (F : Firewall M) :
    (F.perform (cs.map .nat)).filter = F.filter := by
  refine perform_invariant (I := fun G => G.filter = F.filter) (fun c hc G K hK hG => ?_) rfl
  obtain ⟨d, -, rfl⟩ := List.mem_map.mp hc
  rw [(exec_nat hK).2, hG]

/-- The chains of the filter table are enough for all the commands. -/
theorem applied_of_fits_filter {F : Firewall M} (ns : List String)
    (cs : List (Command FilterHook M)) (hcs : ∀ c ∈ cs, c.Fits ns)
    (hns : ns ⊆ F.filterTable.names) :
    Applied noSkip (cs.map .filter) F (F.perform (cs.map .filter)) := by
  induction cs generalizing F with
  | nil => exact .nil F
  | cons c cs ih =>
      obtain ⟨t, ht, hnames⟩ := Table.exec_fits (hcs c List.mem_cons_self) hns
      rw [List.map_cons, perform_ok (exec_filter_eq ht)]
      exact .cons (exec_filter_eq ht)
        (ih (fun d hd => hcs d (List.mem_cons_of_mem _ hd)) (hnames.symm ▸ hns))

/-- The same for the nat table. -/
theorem applied_of_fits_nat {F : Firewall M} (ns : List String)
    (cs : List (Command NatHook M)) (hcs : ∀ c ∈ cs, c.Fits ns) (hns : ns ⊆ F.natTable.names) :
    Applied noSkip (cs.map .nat) F (F.perform (cs.map .nat)) := by
  induction cs generalizing F with
  | nil => exact .nil F
  | cons c cs ih =>
      obtain ⟨t, ht, hnames⟩ := Table.exec_fits (hcs c List.mem_cons_self) hns
      have hexec : F.exec (.nat c) = .ok { F with nat := some t } := by
        rw [exec, ht]
        rfl
      rw [List.map_cons, perform_ok hexec]
      exact .cons hexec
        (ih (fun d hd => hcs d (List.mem_cons_of_mem _ hd)) (hnames.symm ▸ hns))

/-- A deletion takes the rule out of the chain, if it is there. -/
theorem perform_delete (F : Firewall M) (h : FilterHook) (r : Rule M) :
    ∃ G : Firewall M, G.filterTable.hook =
        Function.update F.filterTable.hook h ((F.filterTable.hook h).erase r) ∧
      ∀ cs, F.perform (.filter (.delete (.hook h) r) :: cs) = G.perform cs := by
  by_cases hr : r ∈ F.filterTable.hook h
  · obtain ⟨t, ht⟩ := Table.delete_ok (t := F.filterTable) (c := .hook h) rfl hr
    exact ⟨{ F with filter := some t }, (Table.of_exec ht).2.1, perform_ok (exec_filter_eq ht)⟩
  · obtain ⟨e, he⟩ : ∃ e, F.exec (.filter (.delete (.hook h) r)) = .error e := by
      rw [exec, Table.exec]
      simp [Table.edit, Table.rules, hr, Except.map]
    refine ⟨F, ?_, perform_error he⟩
    rw [List.erase_of_not_mem hr, Function.update_eq_self]

/-- A list of which every command is refused does nothing. -/
theorem perform_refused {F : Firewall M} {cs : List (FwCommand M)}
    (h : ∀ c ∈ cs, ∃ e, F.exec c = .error e) : F.perform cs = F := by
  induction cs with
  | nil => rfl
  | cons c cs ih =>
      obtain ⟨e, he⟩ := h c List.mem_cons_self
      rw [perform_error he, ih fun d hd => h d (List.mem_cons_of_mem _ hd)]

end Firewall

end Netfilter
