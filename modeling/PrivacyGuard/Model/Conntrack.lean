import PrivacyGuard.Model.Packets

set_option autoImplicit false

/-! # The way of an outgoing packet

Before a packet the machine sends reaches the filter OUTPUT chain, connection tracking
classifies it and address translation may send it elsewhere. The nat OUTPUT chain is
consulted for the first packet of a connection only; the translation chosen then is kept in
the connection's entry, and an entry from before a change of the rules keeps its own. A
translated packet is routed again and may leave by another interface, but the filter OUTPUT
chain still compares `-o` with the one it was first routed to. -/

namespace PrivacyGuard

open Netfilter

/-- Where address translation sends a packet, and by which interface it then leaves. -/
structure Dest where
  dst : Addr
  dport : Nat
  oif : String
  deriving DecidableEq, Repr

/-- What connection tracking knows of a connection: the state its packets count as, and the
translation of its first packet. -/
structure ConnEntry where
  state : CtState
  dnat : Option Dest
  deriving DecidableEq, Repr

/-- A connection-tracking table: the entry of the connection a packet belongs to. -/
abbrev Conntrack : Type := Packet → Option ConnEntry

/-- `-j REDIRECT --to-ports port` in the OUTPUT chain. -/
def redirectTo (port : Nat) : Dest := ⟨localhost, port, "lo"⟩

/-- The packet with the state connection tracking gives it; `p.ct` stands for its own
classification where there is no entry. -/
def classified (T : Conntrack) (p : Packet) : Packet :=
  match T p with
  | some e => { p with ct := e.state }
  | none => p

def translation (F : Firewall Match) (X : Unmodelled) (T : Conntrack) (p : Packet) :
    Option Dest :=
  match T p with
  | some e => e.dnat
  | none =>
      if p.ct = .new ∨ p.ct = .related then
        match F.natVerdict (meaning X) .output p with
        | .redirect port => some (redirectTo port)
        | _ => none
      else none

/-- The packet sent on to `d?`, if address translation says so. -/
def Packet.sendTo (p : Packet) : Option Dest → Packet
  | some d => { p with dst := d.dst, dport := d.dport }
  | none => p

/-- The interface by which the packet leaves if it is sent on to `d?`. -/
def Packet.leavesBy (p : Packet) : Option Dest → String
  | some d => d.oif
  | none => p.oif

/-- The packet as it arrives at the filter OUTPUT chain. -/
def atFilter (F : Firewall Match) (X : Unmodelled) (T : Conntrack) (p : Packet) : Packet :=
  (classified T p).sendTo (translation F X T p)

@[simp] theorem classified_owner (T : Conntrack) (p : Packet) :
    (classified T p).owner = p.owner := by
  rw [classified]
  split <;> rfl

@[simp] theorem classified_oif (T : Conntrack) (p : Packet) : (classified T p).oif = p.oif := by
  rw [classified]
  split <;> rfl

@[simp] theorem Packet.sendTo_owner (p : Packet) (d? : Option Dest) :
    (p.sendTo d?).owner = p.owner := by
  cases d? <;> rfl

@[simp] theorem Packet.sendTo_oif (p : Packet) (d? : Option Dest) :
    (p.sendTo d?).oif = p.oif := by
  cases d? <;> rfl

end PrivacyGuard
