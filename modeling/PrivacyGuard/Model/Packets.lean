import PrivacyGuard.Netfilter.Firewall

set_option autoImplicit false

/-! # Packets and the matches of the tool's rules

The matches are those that occur in the rules the tool issues; any other match a
pre-existing firewall may use is `Match.ext`. What such a match says about a packet, what
the history of the `recent` lists says, and what an unknown target does is left open
(`Unmodelled`), so that a result holds whatever they do.
-/

namespace PrivacyGuard

open Netfilter

abbrev Addr : Type := BitVec 32

inductive Proto
  | tcp
  | udp
  | icmp
  | other (n : Nat)
  deriving DecidableEq, Repr

/-- The connection-tracking state of a packet. -/
inductive CtState
  | new
  | established
  | related
  | invalid
  | untracked
  deriving DecidableEq, Repr

inductive Match
  | inIface (inverted : Bool) (name : String)
  | outIface (name : String)
  | proto (p : Proto)
  | dport (port : Nat)
  | syn
  | dst (net : Addr) (len : Nat)
  | state (states : List CtState)
  | uidOwner (user : String)
  | recentSet (list : String)
  | recentUpdate (list : String) (seconds hitcount : Nat)
  | ext (text : String)
  deriving DecidableEq, Repr

/-- A packet as it stands at a hook. `syn` is what `--syn` tests (SYN set, ACK, RST and FIN
clear); `owner` is the user of the sending socket, where there is one. -/
structure Packet where
  proto : Proto
  src : Addr
  dst : Addr
  sport : Nat
  dport : Nat
  syn : Bool
  iif : String
  oif : String
  owner : Option String
  ct : CtState
  deriving DecidableEq, Repr

/-- An interface name in a rule: empty means any, and a trailing `+` stands for any rest. -/
def ifaceMatches (pattern name : String) : Bool :=
  match pattern.toList.reverse with
  | [] => true
  | '+' :: stem => decide (stem.reverse <+: name.toList)
  | _ => decide (pattern = name)

structure Unmodelled where
  holds : String → Packet → Bool
  recentHit : String → Nat → Nat → Packet → Bool
  target : String → Packet → Option Verdict
  stack : Nat

/-- No unmodelled match holds, and unknown targets pass the packet on. -/
def Unmodelled.silent : Unmodelled where
  holds _ _ := false
  recentHit _ _ _ _ := false
  target _ _ := none
  stack := 16

def Match.holds (X : Unmodelled) : Match → Packet → Bool
  | .inIface inverted n, p => ifaceMatches n p.iif != inverted
  | .outIface n, p => ifaceMatches n p.oif
  | .proto q, p => decide (p.proto = q)
  | .dport n, p => decide (p.dport = n)
  | .syn, p => p.syn
  | .dst net len, p => decide (p.dst >>> (32 - len) = net >>> (32 - len))
  | .state ss, p => decide (p.ct ∈ ss)
  | .uidOwner u, p => decide (p.owner = some u)
  | .recentSet _, _ => true
  | .recentUpdate l secs hits, p => X.recentHit l secs hits p
  | .ext s, p => X.holds s p

def meaning (X : Unmodelled) : Meaning Match Packet where
  holds := Match.holds X
  ext := X.target
  stack := X.stack

/-- `127.0.0.1` -/
def localhost : Addr := 0x7f000001#32

end PrivacyGuard
