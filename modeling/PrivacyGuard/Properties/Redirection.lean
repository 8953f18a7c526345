import PrivacyGuard.Model.TorOutput

set_option autoImplicit false

/-! # What the Tor rulesets redirect

The nat OUTPUT chain is consulted before the filter OUTPUT chain, and its rules know no
exceptions: they redirect the connections of Tor itself and of local processes to local
ports too. The filter OUTPUT chain accepts a redirected connection by its port, 9040, but has
no rule for a redirected DNS query. What it accepts comes back by loopback, where the INPUT
chain, emptied by the rules, decides by its old policy. -/

namespace PrivacyGuard

open Netfilter Effect

/-- A TCP packet that opens a connection. -/
def Packet.IsSyn (p : Packet) : Prop := p.proto = .tcp ∧ p.syn = true

/-- A DNS query over UDP. -/
def Packet.IsDnsQuery (p : Packet) : Prop := p.proto = .udp ∧ p.dport = 53

/-- The packet is sent to another machine. -/
def Packet.Remote (p : Packet) : Prop := p.dst >>> 24 ≠ localhost >>> 24

instance (p : Packet) : Decidable p.Remote :=
  inferInstanceAs (Decidable (p.dst >>> 24 ≠ localhost >>> 24))

/-! ## Tor itself, and local services -/

/-- The destination port with which the packet leaves the nat OUTPUT chain. -/
def natPort (F : Fw) (X : Unmodelled) (p : Packet) : Nat :=
  match F.natVerdict (meaning X) .output p with
  | .redirect port => port
  | _ => p.dport

/-- A packet of Tor's to another machine goes out as it is, and a packet to a local port
reaches this port. -/
structure Spared (F : Fw) (X : Unmodelled) (p : Packet) : Prop where
  tor : p.owner = some torUidPlaceholder → p.Remote →
    F.filterVerdict (meaning X) .output p = .accept ∧
      ∀ port, F.natVerdict (meaning X) .output p ≠ .redirect port
  localService : p.dst = localhost → natPort F X p = p.dport

/-- **Tor is captured by its own ruleset.** Of the connections the rules ought to spare, they
spare only those to the local port 9040. -/
theorem spared_iff {x : Action} (hx : x.routesToTor) {w w' : World} {tr : List (Event sig)}
    (hproceeds : x.Proceeds w.saved)
    (hrun : Prog.Runs (machine anything) x.body w tr true w')
    (X : Unmodelled) {p : Packet} (hp : p.IsSyn) :
    Spared w'.v4 X p ↔
      ¬ (p.owner = some torUidPlaceholder ∧ p.Remote) ∧ (p.dst = localhost → p.dport = 9040) := by
  have hrules := Action.torOutput_of_runs hx hproceeds hrun
  have hnat := hrules.natVerdict_syn X hp
  have hport : natPort w'.v4 X p = 9040 := by rw [natPort, hnat]
  constructor
  · rintro ⟨htor, hlocal⟩
    refine ⟨fun ⟨howner, hremote⟩ => ?_, fun hdst => ?_⟩
    · exact (htor howner hremote).2 9040 hnat
    · rw [← hlocal hdst, hport]
  · rintro ⟨htor, hlocal⟩
    refine ⟨fun howner hremote => absurd ⟨howner, hremote⟩ htor, fun hdst => ?_⟩
    rw [hport, hlocal hdst]

/-- A connection to a local port. -/
def toLocalPort (port : Nat) : Packet where
  proto := .tcp
  src := localhost
  dst := localhost
  sport := 50000
  dport := port
  syn := true
  iif := ""
  oif := "lo"
  owner := some "user"
  ct := .new

/-- A connection of Tor's to a relay. -/
def toRelay : Packet := { toWeb true with owner := some torUidPlaceholder }

theorem proceeds_start (x : Action) (F F6 : Fw) : x.Proceeds (World.start F F6).saved := by
  intro m _ hon
  rw [start_off] at hon
  cases hon

theorem spared_iff_transPort : Spared (torOver sshServer).v4 .silent (toLocalPort 9040) := by
  obtain ⟨tr, hrun⟩ := runs_torOver sshServer (by decide +kernel)
  refine (spared_iff (x := .enableKillSwitch .full false 45) (Or.inl rfl)
    (proceeds_start _ _ _) hrun .silent ⟨rfl, rfl⟩).mpr ?_
  exact ⟨fun h => (nomatch h.1), fun _ => rfl⟩

/-- Tor's own connections are sent back to Tor. -/
theorem not_spared :
    ¬ ∀ (x : Action) (w w' : World) (tr : List (Event sig)) (X : Unmodelled) (p : Packet),
      x.routesToTor → x.Proceeds w.saved →
      Prog.Runs (machine anything) x.body w tr true w' → p.IsSyn → Spared w'.v4 X p := by
  intro h
  obtain ⟨tr, hrun⟩ := runs_torOver sshServer (by decide +kernel)
  have hspared := h (.enableKillSwitch .full false 45) _ _ tr .silent toRelay (Or.inl rfl)
    (proceeds_start _ _ _) hrun ⟨rfl, rfl⟩
  exact (hspared.tor rfl (by decide)).2 9040 (by decide +kernel)

/-! ## The way back by loopback -/

/-- The packet when it arrives by the loopback interface. -/
def Packet.backByLoopback (p : Packet) : Packet := { p with iif := "lo", oif := "" }

/-- The packet opens a connection the ruleset sends into Tor. -/
structure StartsFlow (T : Conntrack) (p : Packet) : Prop where
  opens : p.IsSyn ∨ p.IsDnsQuery
  unknown : T p = none
  new : p.ct = .new
  notTor : p.owner ≠ some torUidPlaceholder
  remote : p.Remote

/-- The packet is redirected to Tor's port for its protocol, gets out, and gets in again by
the loopback interface. -/
structure ReachesTor (F : Fw) (X : Unmodelled) (T : Conntrack) (p : Packet) : Prop where
  tcp : p.proto = .tcp → translation F X T p = some (redirectTo 9040)
  udp : p.proto = .udp → translation F X T p = some (redirectTo 5353)
  output : F.filterVerdict (meaning X) .output (atFilter F X T p) = .accept
  input : F.filterVerdict (meaning X) .input (atFilter F X T p).backByLoopback = .accept

theorem torRedirect_isSome {T : Conntrack} {p : Packet} (hp : StartsFlow T p) :
    (p.proto = .tcp → torTranslation T p = some (redirectTo 9040)) ∧
      (p.proto = .udp → torTranslation T p = some (redirectTo 5353)) := by
  rw [torTranslation, hp.unknown, hp.new, torRedirect]
  rcases hp.opens with ⟨hproto, hsyn⟩ | ⟨hproto, hport⟩
  · simp [hproto, hsyn]
  · simp [hproto, hport]

/-- A redirected connection is accepted by its port; a redirected DNS query meets `-o lo` or no
rule at all. -/
theorem TorOutput.filterVerdict_opening {G : Fw} (hG : TorOutput G) (X : Unmodelled)
    {T : Conntrack} {p : Packet} (hp : StartsFlow T p) :
    G.filterVerdict (meaning X) .output (atFilter G X T p) = .accept ↔
      p.proto = .tcp ∨ p.oif = "lo" := by
  obtain ⟨htcp, hudp⟩ := torRedirect_isSome hp
  have hclass : classified T p = p := by rw [classified, hp.unknown]
  rw [hG.filterVerdict, atFilter, hG.translation, hclass, Packet.sendTo_oif, Packet.sendTo_owner]
  have hct : ∀ d? : Option Dest, (p.sendTo d?).ct = .new := by
    intro d?
    rw [← hp.new]
    cases d? <;> rfl
  rw [hct]
  rcases hp.opens with h | h
  · rw [htcp h.1]
    exact iff_of_true (.inr (.inr (.inr ⟨h.1, rfl⟩))) (.inl h.1)
  · rw [hudp h.1]
    have hproto : (p.sendTo (some (redirectTo 5353))).proto = .udp := h.1
    simp [hproto, h.1, hp.notTor]

/-- Whatever the INPUT chain was, its policy is all that is left of it. -/
theorem verdict_input_tor {env : Environment} {force : Bool} {timeout : Int} {F G : Fw}
    (h : Firewall.Applied Firewall.noSkip
      ((Action.enableKillSwitch env force timeout).rules.map (·.command)) F G)
    (X : Unmodelled) (p : Packet) :
    G.filterVerdict (meaning X) .input p = (F.filterTable.policy .input).verdict := by
  obtain ⟨hpolicy, hhook, -⟩ := h.filterTable
  have hinput : G.filterTable.hook .input = [] := by
    rw [hhook]
    rfl
  rw [Firewall.filterVerdict, Table.verdict_of_hook_nil hinput, hpolicy]
  rfl

/-- **The Tor kill switch locks the machine out** where the INPUT chain had the policy `DROP`,
and of DNS wherever the query is not routed to loopback from the first. -/
theorem reachesTor_iff {env : Environment} {force : Bool} {timeout : Int} {w w' : World}
    {tr : List (Event sig)}
    (hrun : Prog.Runs (machine anything) (enableKillSwitch env force timeout) w tr true w')
    (happlied : w.saved.torKillSwitch = true → force = true)
    (X : Unmodelled) {T : Conntrack} {p : Packet} (hp : StartsFlow T p) :
    ReachesTor w'.v4 X T p ↔
      w.v4.filterTable.policy .input = .accept ∧ (p.proto = .tcp ∨ p.oif = "lo") := by
  have hproceeds : (Action.enableKillSwitch env force timeout).Proceeds w.saved := by
    intro m hm
    cases hm
    exact happlied
  have happ := Action.applied_of_runs (Or.inl rfl) hproceeds hrun
  have hrules : TorOutput w'.v4 := Action.torOutput_of_applied (Or.inl rfl) happ
  have hinput := verdict_input_tor happ X (atFilter w'.v4 X T p).backByLoopback
  have houtput := hrules.filterVerdict_opening X hp
  constructor
  · intro h
    refine ⟨?_, houtput.mp h.output⟩
    rw [h.input] at hinput
    cases hpol : w.v4.filterTable.policy .input with
    | accept => rfl
    | drop =>
        rw [hpol] at hinput
        cases hinput
  · rintro ⟨hpol, hout⟩
    obtain ⟨htcp, hudp⟩ := torRedirect_isSome hp
    rw [hpol] at hinput
    refine ⟨fun h => ?_, fun h => ?_, houtput.mpr hout, hinput⟩
    · rw [hrules.translation, htcp h]
    · rw [hrules.translation, hudp h]

/-- No connection is known. -/
def noneOpen : Conntrack := fun _ => none

theorem startsFlow_toWeb : StartsFlow noneOpen (toWeb true) where
  opens := Or.inl ⟨rfl, rfl⟩
  unknown := rfl
  new := rfl
  notTor := by decide
  remote := by decide

theorem reachesTor_iff_blank : ReachesTor (torOver .blank).v4 .silent noneOpen (toWeb true) := by
  obtain ⟨tr, hrun⟩ := runs_torOver .blank (by decide +kernel)
  exact (reachesTor_iff hrun (fun h => (nomatch h)) .silent startsFlow_toWeb).mpr ⟨rfl, .inl rfl⟩

/-- A machine that admits only connections to port 22 loses all others. -/
theorem not_reachesTor :
    ¬ ∀ (env : Environment) (force : Bool) (timeout : Int) (w w' : World)
        (tr : List (Event sig)) (X : Unmodelled) (T : Conntrack) (p : Packet),
      Prog.Runs (machine anything) (enableKillSwitch env force timeout) w tr true w' →
      (w.saved.torKillSwitch = true → force = true) → StartsFlow T p →
      ReachesTor w'.v4 X T p := by
  intro h
  obtain ⟨tr, hrun⟩ := runs_torOver sshServer (by decide +kernel)
  have hin := (h .full false 45 _ _ tr .silent noneOpen (toWeb true) hrun
    (fun h => (nomatch h)) startsFlow_toWeb).input
  exact absurd hin (by decide +kernel)

/-- Over a firewall without rules, a query to a resolver is redirected and then dropped. -/
example : (torOver .blank).v4.filterVerdict (meaning .silent) .output
    (atFilter (torOver .blank).v4 .silent noneOpen
      { toWeb false with proto := .udp, dport := 53 }) = .drop := by
  decide +kernel

end PrivacyGuard
