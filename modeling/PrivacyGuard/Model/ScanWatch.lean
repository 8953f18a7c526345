import PrivacyGuard.Model.System
import PrivacyGuard.Window.Detector
import Mathlib.Logic.Function.Basic

set_option autoImplicit false

/-! # The live scan watch

`live_scan_watch` of `anti_recon.py`, as a function of the packets that are sniffed. Times are
elements of an ordered group, such as the integers or the reals. -/

namespace PrivacyGuard.ScanWatch

open Window

variable {T : Type} [AddCommGroup T] [LinearOrder T]

/-- A packet, the time when it is handled, and the source and destination port of a TCP packet. -/
structure Sniffed (T : Type) where
  now : T
  tcp : Option (String × Nat)

structure Settings (T : Type) where
  portThreshold : Nat
  windowSeconds : T
  autoBlock : Bool

inductive Event
  | alert (src : String) (ports : Nat)
  /-- `iptables -I INPUT -s ip -j DROP` -/
  | block (ip : String)
  deriving DecidableEq

/-- The variables of the call that its callback shares. -/
structure Watch (T : Type) where
  hits : String → List (T × Nat)
  blocked : List String

def Watch.empty : Watch T := ⟨fun _ => [], []⟩

def block (env : Environment) (ip : String) (w : Watch T) : Watch T × List Event :=
  if ip ∈ w.blocked ∨ env.hasIptables = false then (w, [])
  else ({ w with blocked := ip :: w.blocked }, [.block ip])

def handle (env : Environment) (s : Settings T) (w : Watch T) (pkt : Sniffed T) :
    Watch T × List Event :=
  match pkt.tcp with
  | none => (w, [])
  | some (src, dport) =>
      let dq := trim s.windowSeconds pkt.now (w.hits src ++ [(pkt.now, dport)])
      if s.portThreshold ≤ distinct dq then
        let r := if s.autoBlock then block env src w else (w, [])
        ({ r.1 with hits := Function.update w.hits src [] }, .alert src (distinct dq) :: r.2)
      else ({ w with hits := Function.update w.hits src dq }, [])

/-- What is reported while the packets come in. -/
def reports (env : Environment) (s : Settings T) : Watch T → List (Sniffed T) → List (T × Event)
  | _, [] => []
  | w, pkt :: pkts =>
      (handle env s w pkt).2.map (pkt.now, ·) ++ reports env s (handle env s w pkt).1 pkts

def liveScanWatch (env : Environment) (hasScapy : Bool) (s : Settings T)
    (pkts : List (Sniffed T)) : List (T × Event) :=
  if env.termux || !hasScapy || !env.root then [] else reports env s .empty pkts

/-- The variables after some packets. -/
def watched (env : Environment) (s : Settings T) (pkts : List (Sniffed T)) : Watch T :=
  pkts.foldl (fun w pkt => (handle env s w pkt).1) .empty

/-- What the next packet makes the watch report. -/
def eventsAt (env : Environment) (s : Settings T) (pre : List (Sniffed T)) (pkt : Sniffed T) :
    List Event :=
  (handle env s (watched env s pre) pkt).2

theorem mem_reports {env : Environment} {s : Settings T} {w : Watch T} {pkts : List (Sniffed T)}
    {t : T} {e : Event} : (t, e) ∈ reports env s w pkts ↔
      ∃ pre pkt post, pkts = pre ++ pkt :: post ∧ pkt.now = t ∧
        e ∈ (handle env s (pre.foldl (fun w pkt => (handle env s w pkt).1) w) pkt).2 := by
  induction pkts generalizing w with
  | nil =>
      refine iff_of_false List.not_mem_nil ?_
      rintro ⟨pre, pkt, post, h, -⟩
      cases pre <;> cases h
  | cons pkt pkts ih =>
      rw [reports, List.mem_append, List.mem_map, ih]
      constructor
      · rintro (⟨e', he, h⟩ | ⟨pre, pkt', post, rfl, ht, he⟩)
        · cases h
          exact ⟨[], pkt, pkts, rfl, rfl, he⟩
        · exact ⟨pkt :: pre, pkt', post, rfl, ht, he⟩
      · rintro ⟨pre, pkt', post, h, rfl, he⟩
        cases pre with
        | nil =>
            cases h
            exact .inl ⟨e, he, rfl⟩
        | cons pkt'' pre =>
            cases h
            exact .inr ⟨pre, pkt', post, rfl, rfl, he⟩

/-- The watch prints what each packet makes it report, with the time of the packet. -/
theorem mem_liveScanWatch {env : Environment} {s : Settings T} {pkts : List (Sniffed T)} {t : T}
    {e : Event} (htermux : env.termux = false) (hroot : env.root = true) :
    (t, e) ∈ liveScanWatch env true s pkts ↔
      ∃ pre pkt post, pkts = pre ++ pkt :: post ∧ pkt.now = t ∧ e ∈ eventsAt env s pre pkt := by
  rw [liveScanWatch, htermux, hroot]
  exact mem_reports

end PrivacyGuard.ScanWatch
