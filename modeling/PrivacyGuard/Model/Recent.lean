import PrivacyGuard.Netfilter.Walk
import PrivacyGuard.Model.Switching
import PrivacyGuard.Model.TorOutput

set_option autoImplicit false

/-! # The `recent` match

The match keeps lists of source addresses, with the times of the last packets it has seen from
each. `--set` notes a packet and holds for it; `--update` holds for a source that has been
noted often enough of late, and then notes the packet as well. `Xt` stands for the parameters
of the kernel module. -/

namespace PrivacyGuard

open Netfilter Effect

/-- `hz` ticks are a second, and `keep` time stamps are kept for a source. -/
structure Xt where
  hz : Nat
  keep : Nat

/-- The time stamps of each list and source, the latest first. -/
abbrev RecentTable : Type := String → Addr → List Nat

/-- No list has been written to. -/
def RecentTable.empty : RecentTable := fun _ _ => []

namespace Xt

variable (K : Xt)

/-- The stamps that are not older than `seconds`. -/
def young (seconds now : Nat) (stamps : List Nat) : List Nat :=
  stamps.filter fun t => now ≤ t + seconds * K.hz

/-- The source has been seen within `seconds`, and `hitcount` times at least. -/
def hit (seconds hitcount now : Nat) (stamps : List Nat) : Bool :=
  decide (K.young seconds now stamps ≠ [] ∧ hitcount ≤ (K.young seconds now stamps).length)

/-- A packet of the source `a` is noted on the list `l`. -/
def note (R : RecentTable) (l : String) (a : Addr) (now : Nat) : RecentTable :=
  Function.update R l (Function.update (R l) a ((now :: R l a).take K.keep))

/-- How a packet that arrives at the time `now` meets the matches. -/
def test (X : Unmodelled) (now : Nat) : Match → Packet → RecentTable → Bool × RecentTable
  | .recentSet l, p, R => (true, K.note R l p.src now)
  | .recentUpdate l seconds hitcount, p, R =>
      if K.hit seconds hitcount now (R l p.src) then (true, K.note R l p.src now) else (false, R)
  | m, p, R => (m.holds X p, R)

def dynamics (X : Unmodelled) (now : Nat) : Dynamics Match Packet RecentTable where
  test := K.test X now
  ext := X.target
  stack := X.stack

/-- The way of a packet that arrives at the time `now` through the INPUT chain. -/
def inputWalk (F : Fw) (X : Unmodelled) (now : Nat) (p : Packet) (R : RecentTable) :
    Walk RecentTable :=
  F.filterTable.walk (K.dynamics X now) .input p R

/-- What the INPUT chain does with it. -/
def inputVerdict (F : Fw) (X : Unmodelled) (now : Nat) (p : Packet) (R : RecentTable) :
    Verdict :=
  F.filterTable.settle .input (K.inputWalk F X now p R).outcome

end Xt

/-! ## The rules of portscan protection -/

/-- A connection is opened from another machine. -/
structure Packet.ExternalSyn (p : Packet) : Prop where
  iif : p.iif ≠ "lo"
  tcp : p.proto = .tcp
  syn : p.syn = true

instance (p : Packet) : Decidable p.ExternalSyn :=
  decidable_of_iff (p.iif ≠ "lo" ∧ p.proto = .tcp ∧ p.syn = true)
    ⟨fun h => ⟨h.1, h.2.1, h.2.2⟩, fun h => ⟨h.iif, h.tcp, h.syn⟩⟩

/-- `G` is `F` with the rules of portscan protection in the filter table. -/
structure PortscanInstalled (p : PortscanParams) (F G : Fw) : Prop where
  policy : G.filterTable.policy = F.filterTable.policy
  input : G.filterTable.hook .input =
    portscanJump p :: (F.filterTable.hook .input ++ [portscanNote])
  chain : G.filterTable.chainRules portscanChain = [portscanLog, ⟨[], .drop⟩]
  rest : ∀ c, c ≠ portscanChain → G.filterTable.chainRules c = F.filterTable.chainRules c

theorem portscanInstalled (p : PortscanParams) (F : Fw) :
    PortscanInstalled p F (F.perform (portscanCommands p)) := by
  obtain ⟨G, hwith, -, happ⟩ := applied_portscanCommands p F
  obtain ⟨hpolicy, hhook, -⟩ := happ.filterTable
  have hmap : (portscanCommands p).tail = (portscanEdits p).map .filter := rfl
  rw [hmap] at happ
  have hkeys : ∀ c ∈ portscanEdits p, c.chain? = some (.user portscanChain) ∨
      c.chain? = some (.hook .input) := by
    simp [portscanEdits, portscanCommands, portscanRules, Firewall.filterPart, ipt,
      Command.chain?]
  have hchain := happ.chainRules_filter fun c hc => by
    obtain hc | hc := hkeys c hc <;> rw [hc] <;> exact Option.some_ne_none _
  refine ⟨?_, ?_, ?_, ?_⟩
  · rw [hpolicy, ← hwith.policy]
    rfl
  · rw [hhook, ← hwith.hook]
    rfl
  · rw [hchain]
    rfl
  · intro c hc
    have hother : ∀ d ∈ portscanEdits p, d.chain? ≠ some (.user c) := by
      intro d hd
      obtain hd | hd := hkeys d hd
      · rw [hd]
        simpa using Ne.symm hc
      · rw [hd]
        simp
    rw [hchain, hwith.chainRules, Command.foldl_onChain hother]

section

variable {K : Xt} {X : Unmodelled} {now : Nat} {p : Packet} {R : RecentTable}

/-- A packet that is no new external connection does not meet the rules in the INPUT chain, -/
theorem testAll_of_not_external (hp : ¬ p.ExternalSyn) (m : Match) :
    testAll (K.test X now · p) [.inIface true "lo", .proto .tcp, .syn, m] R = (false, R) := by
  have hiface : K.test X now (.inIface true "lo") p R = (decide (p.iif ≠ "lo"), R) := by
    show (ifaceMatches "lo" p.iif != true, R) = _
    rw [ifaceMatches_lo]
    by_cases h : "lo" = p.iif
    · simp [← h]
    · simp [h, Ne.symm h]
  have hproto : K.test X now (.proto .tcp) p R = (decide (p.proto = .tcp), R) := rfl
  have hsyn : K.test X now .syn p R = (p.syn, R) := rfl
  by_cases hi : p.iif = "lo"
  · simp [testAll, hiface, hi]
  · by_cases ht : p.proto = .tcp
    · have hs : p.syn = false := Bool.eq_false_iff.mpr fun hs => hp ⟨hi, ht, hs⟩
      simp [testAll, hiface, hproto, hsyn, hi, ht, hs]
    · simp [testAll, hiface, hproto, hi, ht]

/-- and one that is comes to their last condition. -/
theorem testAll_of_external (hp : p.ExternalSyn) (m : Match) :
    testAll (K.test X now · p) [.inIface true "lo", .proto .tcp, .syn, m] R =
      testAll (K.test X now · p) [m] R := by
  have hlo : "lo" ≠ p.iif := Ne.symm hp.iif
  have hiface : K.test X now (.inIface true "lo") p R = (true, R) := by
    simp [Xt.test, Match.holds, ifaceMatches_lo, hlo]
  have hproto : K.test X now (.proto .tcp) p R = (true, R) := by
    simp [Xt.test, Match.holds, hp.tcp]
  have hsyn : K.test X now .syn p R = (true, R) := by
    simp [Xt.test, Match.holds, hp.syn]
  rw [testAll, hiface]
  show testAll _ _ R = _
  rw [testAll, hproto]
  show testAll _ _ R = _
  rw [testAll, hsyn]

end

end PrivacyGuard
