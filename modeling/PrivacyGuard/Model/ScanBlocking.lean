import PrivacyGuard.Model.ScanWatch
import PrivacyGuard.Netfilter.Sources

set_option autoImplicit false

/-! # The live scan watch over a firewall

`live_scan_watch` with `auto_block` runs one command for each source it blocks, and does not look
at whether it succeeds. A packet makes it run at most one command, so each packet comes with the
outcome of the command it may lead to. -/

namespace PrivacyGuard.ScanWatch

open Netfilter

variable {T M : Type} [AddCommGroup T] [LinearOrder T] [DecidableEq M]

/-- `iptables -I INPUT -s ip -j DROP` -/
def blockCommand (ip : String) : FwCommand (Sourced M) :=
  .filter (.insert (.hook .input) 1 (dropFrom ip))

/-- What reporting an event does to the firewall. -/
def Event.carryOut (ok : Bool) : Event → Firewall (Sourced M) → Firewall (Sourced M)
  | .alert _ _, F => F
  | .block ip, F => if ok then F.perform [blockCommand ip] else F

/-- The firewall after the packets, which are handled one after the other. -/
def guardFrom (env : Environment) (s : Settings T) :
    Watch T → Firewall (Sourced M) → List (Sniffed T × Bool) → Firewall (Sourced M)
  | _, F, [] => F
  | w, F, (pkt, ok) :: pkts =>
      guardFrom env s (handle env s w pkt).1
        ((handle env s w pkt).2.foldl (fun F e => e.carryOut ok F) F) pkts

def liveScanWatchOn (env : Environment) (hasScapy : Bool) (s : Settings T)
    (pkts : List (Sniffed T × Bool)) (F : Firewall (Sourced M)) : Firewall (Sourced M) :=
  if env.termux || !hasScapy || !env.root then F else guardFrom env s .empty F pkts

/-- The events have an alert for the source. -/
def alerted (src : String) (es : List Event) : Bool :=
  es.any fun
    | .alert s _ => s = src
    | .block _ => false

/-- The outcome that comes with the first packet at which there is an alert for the source. -/
def firstAlert (env : Environment) (s : Settings T) (src : String) :
    Watch T → List (Sniffed T × Bool) → Option Bool
  | _, [] => none
  | w, (pkt, ok) :: pkts =>
      if alerted src (handle env s w pkt).2 then some ok
      else firstAlert env s src (handle env s w pkt).1 pkts

/-! ## What one packet does -/

variable {env : Environment} {s : Settings T}

/-- What a packet makes the watch do: nothing, or report one source, which is blocked if it has
not been before. -/
theorem handle_cases (hauto : s.autoBlock = true) (hiptables : env.hasIptables = true)
    (w : Watch T) (pkt : Sniffed T) :
    ((handle env s w pkt).2 = [] ∧ (handle env s w pkt).1.blocked = w.blocked) ∨
      ∃ src n, (src ∈ w.blocked ∧ (handle env s w pkt).2 = [.alert src n] ∧
          (handle env s w pkt).1.blocked = w.blocked) ∨
        (src ∉ w.blocked ∧ (handle env s w pkt).2 = [.alert src n, .block src] ∧
          (handle env s w pkt).1.blocked = src :: w.blocked) := by
  unfold handle
  split
  · exact .inl ⟨rfl, rfl⟩
  · rename_i src dport _
    simp only [hauto, if_true]
    split
    · refine .inr ⟨src, Window.distinct (Window.trim s.windowSeconds pkt.now
        (w.hits src ++ [(pkt.now, dport)])), ?_⟩
      by_cases hsrc : src ∈ w.blocked
      · simp [block, hsrc]
      · simp [block, hsrc, hiptables]
    · exact .inl ⟨rfl, rfl⟩

end PrivacyGuard.ScanWatch
