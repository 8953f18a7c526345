import PrivacyGuard.Window.Limiter
import PrivacyGuard.Properties.PortscanOpening

set_option autoImplicit false

/-! # The limit of portscan protection

Where the INPUT chain has no other rules, those of portscan protection limit the new
connections of every other machine: for each source, its time stamps on the list `pg_scan`
are those of a limiter (`Window.Limiter`). -/

namespace PrivacyGuard

open Netfilter Effect

/-- A packet, and the tick at which it arrives. -/
structure Arrival where
  time : Nat
  packet : Packet

namespace Xt

variable (K : Xt)

/-- What the INPUT chain does with the packets, one after the other. -/
def inputRun (F : Fw) (X : Unmodelled) : List Arrival → RecentTable → List (Arrival × Verdict)
  | [], _ => []
  | x :: xs, R =>
      (x, K.inputVerdict F X x.time x.packet R) ::
        inputRun F X xs (K.inputWalk F X x.time x.packet R).memory

/-- The table of the `recent` match after the packets. -/
def recentAfter (F : Fw) (X : Unmodelled) (xs : List Arrival) (R : RecentTable) : RecentTable :=
  xs.foldl (fun R x => (K.inputWalk F X x.time x.packet R).memory) R

end Xt

/-- The packet opens a connection from the machine `src`. -/
def Arrival.From (src : Addr) (x : Arrival) : Prop :=
  x.packet.ExternalSyn ∧ x.packet.src = src

instance (src : Addr) (x : Arrival) : Decidable (x.From src) :=
  inferInstanceAs (Decidable (_ ∧ _))

/-- It does so in the window of `seconds` that begins at the tick `a`. -/
def Arrival.InWindow (K : Xt) (seconds : Nat) (src : Addr) (a : Nat) (x : Arrival) : Prop :=
  x.From src ∧ a ≤ x.time ∧ x.time ≤ a + seconds * K.hz

instance (K : Xt) (seconds : Nat) (src : Addr) (a : Nat) (x : Arrival) :
    Decidable (x.InWindow K seconds src a) :=
  inferInstanceAs (Decidable (_ ∧ _ ∧ _))

/-- What the INPUT chain of `G` does with the packets `xs`, the first of which finds the lists
empty. -/
structure RateLimited (K : Xt) (X : Unmodelled) (G : Fw) (ps : PortscanParams)
    (xs : List Arrival) : Prop where
  limited : ∀ src a, ((K.inputRun G X xs .empty).countP fun e =>
    e.2 = .accept ∧ e.1.InWindow K ps.seconds src a) ≤ ps.hitcount
  spared : ∀ src, (∀ a, xs.countP (·.InWindow K ps.seconds src a) ≤ ps.hitcount) →
    ∀ e ∈ K.inputRun G X xs .empty, e.1.packet.src = src → e.2 = .accept
  loopback : ∀ before x after, xs = before ++ x :: after → x.packet.iif = "lo" →
    K.inputVerdict G X x.time x.packet (K.recentAfter G X before .empty) = .accept ∧
      K.recentAfter G X (before ++ [x]) .empty = K.recentAfter G X before .empty

/-! ## What becomes of one packet -/

/-- The rules of portscan protection are the only ones of the INPUT chain. -/
structure PortscanAlone (ps : PortscanParams) (G : Fw) : Prop where
  policy : G.filterTable.policy .input = .accept
  input : G.filterTable.hook .input = [portscanJump ps, portscanNote]
  chain : G.filterTable.chainRules portscanChain = [portscanLog, ⟨[], .drop⟩]

theorem PortscanInstalled.alone {ps : PortscanParams} {F G : Fw} (h : PortscanInstalled ps F G)
    (hempty : F.filterTable.hook .input = []) (hpol : F.filterTable.policy .input = .accept) :
    PortscanAlone ps G where
  policy := by rw [h.policy, hpol]
  input := by rw [h.input, hempty]; rfl
  chain := h.chain

/-- The limiter that the list `pg_scan` is for each source. -/
def Xt.limiter (K : Xt) (X : Unmodelled) (ps : PortscanParams) (hpos : 1 ≤ ps.hitcount)
    (hkeep : ps.hitcount ≤ K.keep) : Window.Limiter where
  span := ps.seconds * K.hz
  limit := ps.hitcount
  keep := K.keep
  -- without room on the jump stack the packet is dropped before the portscan chain notes it
  penalty := if X.stack = 0 then 1 else 2
  pos := hpos
  fits := hkeep

section

variable {K : Xt} {X : Unmodelled} {ps : PortscanParams} {G : Fw} {now : Nat} {p : Packet}
  {R : RecentTable} (hpos : 1 ≤ ps.hitcount) (hkeep : ps.hitcount ≤ K.keep)

theorem Xt.hit_eq_full (X : Unmodelled) (s : List Nat) :
    K.hit ps.seconds ps.hitcount now s = (K.limiter X ps hpos hkeep).full now s := by
  have hyoung : (K.young ps.seconds now s).length = Window.since (now - ps.seconds * K.hz) s := by
    rw [Xt.young, Window.since, List.countP_eq_length_filter]
    refine congrArg (List.length ∘ (List.filter · s)) (funext fun t => ?_)
    rw [decide_eq_decide]
    omega
  rw [Xt.hit, Window.Limiter.full, decide_eq_decide, ← List.length_pos_iff, hyoung]
  show _ ∧ _ ↔ ps.hitcount ≤ Window.since (now - ps.seconds * K.hz) s
  omega

theorem Xt.note_self (X : Unmodelled) (a : Addr) :
    K.note R "pg_scan" a now "pg_scan" a =
      (K.limiter X ps hpos hkeep).stamp now (R "pg_scan" a) := by
  simp [Xt.note, Window.Limiter.stamp, Xt.limiter]

theorem Xt.note_other {a b : Addr} (h : b ≠ a) :
    K.note R "pg_scan" a now "pg_scan" b = R "pg_scan" b := by
  simp [Xt.note, h]

/-- A packet that opens no connection from another machine is let through unnoticed. -/
theorem PortscanAlone.walk_other (h : PortscanAlone ps G) (hp : ¬ p.ExternalSyn) :
    K.inputWalk G X now p R = ⟨.ended, [], R⟩ := by
  have htest : ∀ m, testAll ((K.dynamics X now).test · p)
      [.inIface true "lo", .proto .tcp, .syn, m] R = (false, R) := testAll_of_not_external hp
  rw [Xt.inputWalk, Table.walk, Table.walkAlong, h.input, walkRules_of_unmet (htest _),
    walkRules_of_unmet (htest _)]
  rfl

/-- One that opens a connection is noted and accepted, -/
theorem PortscanAlone.walk_calm (h : PortscanAlone ps G) (hp : p.ExternalSyn)
    (hcalm : K.hit ps.seconds ps.hitcount now (R "pg_scan" p.src) = false) :
    K.inputWalk G X now p R =
      ⟨.decided .accept, [], K.note R "pg_scan" p.src now⟩ := by
  have hjump : testAll ((K.dynamics X now).test · p) (portscanJump ps).conds R = (false, R) := by
    refine (testAll_of_external hp _).trans ?_
    simp [testAll, Xt.test, hcalm]
  have hnote : testAll ((K.dynamics X now).test · p) portscanNote.conds R =
      (true, K.note R "pg_scan" p.src now) := testAll_of_external hp _
  rw [Xt.inputWalk, Table.walk, Table.walkAlong, h.input, walkRules_of_unmet hjump]
  exact walkRules_accept hnote []

/-- or dropped, if its source has opened too many. -/
theorem PortscanAlone.walk_hit (h : PortscanAlone ps G) (hp : p.ExternalSyn)
    (hhit : K.hit ps.seconds ps.hitcount now (R "pg_scan" p.src) = true) :
    (K.inputWalk G X now p R).outcome = .decided .drop ∧
      (K.inputWalk G X now p R).memory =
        (K.note · "pg_scan" p.src now)^[if X.stack = 0 then 1 else 2] R := by
  have hjump : testAll ((K.dynamics X now).test · p) (portscanJump ps).conds R =
      (true, K.note R "pg_scan" p.src now) := by
    refine (testAll_of_external hp _).trans ?_
    simp [testAll, Xt.test, hhit]
  have hchain : (G.filterTable.walkChain (K.dynamics X now) p X.stack portscanChain
        (K.note R "pg_scan" p.src now)).outcome = .decided .drop ∧
      (G.filterTable.walkChain (K.dynamics X now) p X.stack portscanChain
        (K.note R "pg_scan" p.src now)).memory =
        (K.note · "pg_scan" p.src now)^[if X.stack = 0 then 1 else 2] R := by
    cases X.stack with
    | zero => exact ⟨rfl, rfl⟩
    | succ n =>
        rw [Table.walkChain, h.chain]
        exact ⟨rfl, rfl⟩
  have hwalk : K.inputWalk G X now p R = G.filterTable.walkChain (K.dynamics X now) p X.stack
      portscanChain (K.note R "pg_scan" p.src now) := by
    rw [Xt.inputWalk, Table.walk, Table.walkAlong, h.input]
    rw [portscanJump] at hjump ⊢
    rw [walkRules_jump hjump]
    exact Walk.andThen_of_decided hchain.1 _
  rw [hwalk]
  exact hchain

theorem Xt.note_iterate_self (X : Unmodelled) (a : Addr) (n : Nat) :
    ((K.note · "pg_scan" a now)^[n] R) "pg_scan" a =
      ((K.limiter X ps hpos hkeep).stamp now)^[n] (R "pg_scan" a) := by
  induction n with
  | zero => rfl
  | succ n ih => rw [Function.iterate_succ_apply', Function.iterate_succ_apply', ← ih,
      note_self hpos hkeep X]

theorem Xt.note_iterate_other {a b : Addr} (h : b ≠ a) (n : Nat) :
    ((K.note · "pg_scan" a now)^[n] R) "pg_scan" b = R "pg_scan" b := by
  induction n with
  | zero => rfl
  | succ n ih => rw [Function.iterate_succ_apply', note_other h, ih]

/-- What one packet does to the list of a source. -/
theorem PortscanAlone.step (h : PortscanAlone ps G) (x : Arrival) (src : Addr) :
    (x.From src →
      (K.inputVerdict G X x.time x.packet R = .accept ↔
        (K.limiter X ps hpos hkeep).full x.time (R "pg_scan" src) = false) ∧
      (K.inputWalk G X x.time x.packet R).memory "pg_scan" src =
        (K.limiter X ps hpos hkeep).next x.time (R "pg_scan" src)) ∧
    (¬ x.From src →
      (K.inputWalk G X x.time x.packet R).memory "pg_scan" src = R "pg_scan" src) := by
  by_cases hp : x.packet.ExternalSyn
  · cases hhit : K.hit ps.seconds ps.hitcount x.time (R "pg_scan" x.packet.src) with
    | true =>
        obtain ⟨hdrop, hmem⟩ := h.walk_hit (K := K) (X := X) hp hhit
        rw [Xt.inputVerdict, hdrop, hmem]
        constructor
        · rintro ⟨-, rfl⟩
          rw [Xt.hit_eq_full hpos hkeep X] at hhit
          rw [Window.Limiter.next, hhit, if_pos rfl]
          exact ⟨by simp [Table.settle, Outcome.verdict?], Xt.note_iterate_self hpos hkeep X _ _⟩
        · intro hno
          exact Xt.note_iterate_other (fun hsrc => hno ⟨hp, hsrc.symm⟩) _
    | false =>
        have hwalk := h.walk_calm (K := K) (X := X) hp hhit
        rw [Xt.inputVerdict, hwalk]
        constructor
        · rintro ⟨-, rfl⟩
          rw [Xt.hit_eq_full hpos hkeep X] at hhit
          rw [Window.Limiter.next, hhit, if_neg Bool.false_ne_true]
          exact ⟨by simp [Table.settle, Outcome.verdict?], Xt.note_self hpos hkeep X _⟩
        · intro hno
          exact Xt.note_other fun hsrc => hno ⟨hp, hsrc.symm⟩
  · rw [h.walk_other hp]
    exact ⟨fun hfrom => absurd hfrom.1 hp, fun _ => rfl⟩

/-- **The connections of a source are those of its limiter.** -/
theorem PortscanAlone.run (h : PortscanAlone ps G) (src : Addr) (xs : List Arrival) :
    ((K.inputRun G X xs R).filter fun e => e.1.From src).map
        (fun e => (e.1.time, decide (e.2 = .accept))) =
      (K.limiter X ps hpos hkeep).run (R "pg_scan" src)
        ((xs.filter fun x => x.From src).map Arrival.time) := by
  induction xs generalizing R with
  | nil => rfl
  | cons x xs ih =>
      obtain ⟨hfrom, hother⟩ := h.step hpos hkeep (X := X) (R := R) x src
      rw [Xt.inputRun, List.filter_cons, List.filter_cons]
      by_cases hx : x.From src
      · obtain ⟨hverdict, hmem⟩ := hfrom hx
        simp only [hx, decide_true, if_true, List.map_cons, Window.Limiter.run]
        rw [ih, hmem]
        refine congrArg (· :: _) (congrArg (x.time, ·) ?_)
        rw [Bool.eq_iff_iff, decide_eq_true_eq, hverdict, Bool.not_eq_true']
      · simp only [hx, decide_false, Bool.false_eq_true, if_false]
        rw [ih, hother hx]

theorem Arrival.countP_inWindow (K : Xt) (seconds : Nat) (src : Addr) (a : Nat)
    (xs : List Arrival) :
    xs.countP (·.InWindow K seconds src a) =
      Window.within a (seconds * K.hz) ((xs.filter fun x => x.From src).map Arrival.time) := by
  rw [Window.within, List.countP_map, List.countP_filter]
  refine List.countP_congr fun x _ => ?_
  simp [Arrival.InWindow, and_comm]

theorem PortscanAlone.countP_run (h : PortscanAlone ps G) (src : Addr) (a : Nat)
    (xs : List Arrival) :
    ((K.inputRun G X xs R).countP fun e =>
      e.2 = .accept ∧ e.1.InWindow K ps.seconds src a) =
      Window.within a (ps.seconds * K.hz) (Window.Limiter.accepted
        ((K.limiter X ps hpos hkeep).run (R "pg_scan" src)
          ((xs.filter fun x => x.From src).map Arrival.time))) := by
  rw [← h.run hpos hkeep, Window.within, Window.Limiter.accepted, List.countP_map,
    List.countP_filter, List.countP_map, List.countP_filter]
  refine List.countP_congr fun e _ => ?_
  simp only [Function.comp_apply, Bool.and_eq_true, decide_eq_true_eq]
  rw [Arrival.InWindow]
  tauto

/-- Other packets are accepted whatever the table holds. -/
theorem PortscanAlone.verdict_other (h : PortscanAlone ps G) (hp : ¬ p.ExternalSyn) :
    K.inputVerdict G X now p R = .accept := by
  rw [Xt.inputVerdict, h.walk_other hp, Table.settle, h.policy]
  rfl

theorem Xt.verdict_of_mem_inputRun {xs : List Arrival} {e : Arrival × Verdict}
    (he : e ∈ K.inputRun G X xs R) :
    ∃ R', e.2 = K.inputVerdict G X e.1.time e.1.packet R' := by
  induction xs generalizing R with
  | nil => cases he
  | cons x xs ih =>
      obtain rfl | he := List.mem_cons.mp he
      · exact ⟨R, rfl⟩
      · exact ih he

theorem PortscanAlone.rateLimited (h : PortscanAlone ps G) (hpos : 1 ≤ ps.hitcount)
    (hkeep : ps.hitcount ≤ K.keep) (X : Unmodelled) {xs : List Arrival}
    (hxs : (xs.map Arrival.time).Pairwise (· ≤ ·)) : RateLimited K X G ps xs := by
  have hsorted : ∀ src, ((xs.filter fun x => x.From src).map Arrival.time).Pairwise (· ≤ ·) :=
    fun src => hxs.sublist (List.filter_sublist.map _)
  refine ⟨?_, ?_, ?_⟩
  · intro src a
    rw [h.countP_run hpos hkeep]
    exact Window.Limiter.within_run_nil (L := K.limiter X ps hpos hkeep) (hsorted src) a
  · intro src hwin e he hsrc
    by_cases hp : e.1.packet.ExternalSyn
    · have hmem : (e.1.time, decide (e.2 = .accept)) ∈ (K.limiter X ps hpos hkeep).run []
          ((xs.filter fun x => x.From src).map Arrival.time) := by
        have hfrom : e ∈ (K.inputRun G X xs .empty).filter fun e => e.1.From src :=
          List.mem_filter.mpr ⟨he, decide_eq_true ⟨hp, hsrc⟩⟩
        exact h.run hpos hkeep (R := .empty) src xs ▸ List.mem_map_of_mem hfrom
      have haccept := Window.Limiter.run_accepts [] (fun _ => le_rfl)
        (hsorted src) (fun a => (Arrival.countP_inWindow K ps.seconds src a xs).symm.trans_le
          (hwin a)) _ hmem
      exact of_decide_eq_true haccept
    · obtain ⟨R', hR'⟩ := Xt.verdict_of_mem_inputRun he
      rw [hR', h.verdict_other hp]
  · intro before x after _ hlo
    have hp : ¬ x.packet.ExternalSyn := fun hp => hp.iif hlo
    refine ⟨h.verdict_other hp, ?_⟩
    rw [Xt.recentAfter, List.foldl_append, List.foldl_cons, List.foldl_nil, h.walk_other hp]
    rfl

/-- **Portscan protection limits each source to `hitcount` connections in `seconds`**, and does
no more than that. -/
theorem rateLimited_of_runs {env : Environment} {force : Bool} {w w' : World}
    {tr : List (Event sig)}
    (hrun : Prog.Runs (machine truthful) (enablePortscanProtection env ps force) w tr true w')
    (happlied : w.saved.portscanProtection = true → force = true)
    (hempty : w.v4.filterTable.hook .input = [])
    (hpol : w.v4.filterTable.policy .input = .accept) (hpos : 1 ≤ ps.hitcount)
    (hkeep : ps.hitcount ≤ K.keep) (X : Unmodelled) {xs : List Arrival}
    (hxs : (xs.map Arrival.time).Pairwise (· ≤ ·)) : RateLimited K X w'.v4 ps xs := by
  cases portscan_of_runs hrun with
  | already _ hon hforce =>
      rw [happlied hon] at hforce
      cases hforce
  | done _ _ now =>
      exact ((portscanInstalled ps w.v4).alone hempty hpol).rateLimited hpos hkeep X hxs

end

/-- Another machine and this one open thirty connections each, ten a second. -/
def sixtyArrivals : List Arrival :=
  (List.range 60).map fun n => ⟨10 * (n / 2), toOwnWeb (if n % 2 = 0 then "eth0" else "lo")⟩

theorem rateLimited_of_runs_blank :
    RateLimited usualXt .silent (portscanOver .blank).v4 defaultPortscanParams
      sixtyArrivals := by
  obtain ⟨tr, hrun⟩ := runs_portscanOver .blank (by decide +kernel)
  exact rateLimited_of_runs hrun (fun h => absurd h Bool.false_ne_true) rfl rfl (by decide)
    (by decide) .silent (by decide +kernel)

/-- Half of those of the other machine are dropped. -/
example : ((usualXt.inputRun (portscanOver .blank).v4 .silent sixtyArrivals .empty).countP
    fun e => e.2 = .drop ∧ e.1.packet.iif = "eth0") = 15 := by decide +kernel

end PrivacyGuard
