import PrivacyGuard.Model.Conntrack
import PrivacyGuard.Model.Actions

set_option autoImplicit false

/-! # The OUTPUT chains of the Tor rulesets

The Tor kill switch and gateway mode put the same rules into the OUTPUT chains of the filter
and nat tables, whatever was there before. This module says what these rules do to a packet. -/

namespace PrivacyGuard

open Netfilter Effect

def torAllowed : List (Rule Match) := [
  ⟨[.outIface "lo"], .accept⟩,
  ⟨[.uidOwner torUidPlaceholder], .accept⟩,
  ⟨[.state [.established, .related]], .accept⟩,
  ⟨[.proto .tcp, .dport 9040], .accept⟩]

def torRedirects : List (Rule Match) := [
  ⟨[.proto .tcp, .syn], .redirect 9040⟩,
  ⟨[.proto .udp, .dport 53], .redirect 5353⟩]

/-- The OUTPUT chains hold the rules of the Tor kill switch. -/
structure TorOutput (G : Fw) : Prop where
  filter : G.filterTable.hook .output = torAllowed ++ [Table.dropAll]
  nat : G.natTable.hook .output = torRedirects

/-- The call switches on the Tor kill switch or gateway mode. -/
def Action.routesToTor (x : Action) : Prop := x.enables? = some .tor ∨ x.enables? = some .gateway

theorem Action.torOutput_of_applied {x : Action} (hx : x.routesToTor) {F G : Fw}
    (h : Firewall.Applied Firewall.noSkip (x.rules.map (·.command)) F G) : TorOutput G := by
  have hfilter := h.filterTable.2.1
  have hnat := h.natTable.2.1
  cases x with
  | enableKillSwitch env force t => exact ⟨by rw [hfilter]; rfl, by rw [hnat]; rfl⟩
  | enableGateway env a force => exact ⟨by rw [hfilter]; rfl, by rw [hnat]; rfl⟩
  | _ => rcases hx with hx | hx <;> cases hx

/-- The mode the call switches on is off, or the call is forced. -/
def Action.Proceeds (x : Action) (s : Saved) : Prop :=
  ∀ m : Mode, x.enables? = some m → m.active s = true → x.force = true

/-- A call that answers yes and did not find its mode on has applied its rules, whatever
failed besides. -/
theorem Action.applied_of_runs {x : Action} (hx : x.routesToTor) {w w' : World}
    {tr : List (Event sig)} (hproceeds : x.Proceeds w.saved)
    (hrun : Prog.Runs (machine anything) x.body w tr true w') :
    Firewall.Applied Firewall.noSkip (x.rules.map (·.command)) w.v4 w'.v4 := by
  cases x with
  | enableKillSwitch env force t =>
      exact hrun.post ((enableKillSwitch_follows env force t).applied (A := anything) rfl
        (hproceeds .tor rfl)) rfl
  | enableGateway env a force =>
      exact hrun.post ((enableGateway_follows env a force).applied (A := anything) rfl
        (hproceeds .gateway rfl)) rfl
  | _ => rcases hx with hx | hx <;> cases hx

theorem Action.torOutput_of_runs {x : Action} (hx : x.routesToTor) {w w' : World}
    {tr : List (Event sig)} (hproceeds : x.Proceeds w.saved)
    (hrun : Prog.Runs (machine anything) x.body w tr true w') : TorOutput w'.v4 :=
  torOutput_of_applied hx (applied_of_runs hx hproceeds hrun)

/-! ## What the rules do to a packet -/

theorem ifaceMatches_lo (n : String) : ifaceMatches "lo" n = decide ("lo" = n) := rfl

/-- A packet meets one of the four accepting rules, or is dropped. -/
theorem TorOutput.filterVerdict {G : Fw} (hG : TorOutput G) (X : Unmodelled) (q : Packet) :
    G.filterVerdict (meaning X) .output q = .accept ↔
      q.oif = "lo" ∨ q.owner = some torUidPlaceholder ∨
        (q.ct = .established ∨ q.ct = .related) ∨ (q.proto = .tcp ∧ q.dport = 9040) := by
  rw [Firewall.filterVerdict, Table.verdict_allowlist hG.filter (by decide)]
  simp [torAllowed, meaning, Match.holds, ifaceMatches_lo, eq_comm (a := "lo")]

/-- Every TCP packet that opens a connection is redirected to Tor's transparent port. -/
theorem TorOutput.natVerdict_syn {G : Fw} (hG : TorOutput G) (X : Unmodelled) {p : Packet}
    (hp : p.proto = .tcp ∧ p.syn = true) :
    G.natVerdict (meaning X) .output p = .redirect 9040 := by
  rw [Firewall.natVerdict, Table.verdict, hG.nat]
  simp [torRedirects, decideRules, meaning, Match.holds, hp]

/-- Every DNS query over UDP is redirected to Tor's DNS port. -/
theorem TorOutput.natVerdict_dns {G : Fw} (hG : TorOutput G) (X : Unmodelled) {p : Packet}
    (hp : p.proto = .udp ∧ p.dport = 53) :
    G.natVerdict (meaning X) .output p = .redirect 5353 := by
  rw [Firewall.natVerdict, Table.verdict, hG.nat]
  simp [torRedirects, decideRules, meaning, Match.holds, hp]

/-- What address translation does with the first packet of a connection. -/
def torRedirect (p : Packet) : Option Dest :=
  if p.proto = .tcp ∧ p.syn then some (redirectTo 9040)
  else if p.proto = .udp ∧ p.dport = 53 then some (redirectTo 5353)
  else none

/-- Where the packet is sent while the rules are in place. -/
def torTranslation (T : Conntrack) (p : Packet) : Option Dest :=
  match T p with
  | some e => e.dnat
  | none => if p.ct = .new ∨ p.ct = .related then torRedirect p else none

theorem TorOutput.translation {G : Fw} (hG : TorOutput G) (X : Unmodelled) (T : Conntrack)
    (p : Packet) : PrivacyGuard.translation G X T p = torTranslation T p := by
  rw [PrivacyGuard.translation, torTranslation]
  cases T p with
  | some e => rfl
  | none =>
      refine if_congr Iff.rfl ?_ rfl
      rw [torRedirect]
      by_cases htcp : p.proto = .tcp ∧ p.syn = true
      · rw [hG.natVerdict_syn X htcp, if_pos htcp]
      · by_cases hdns : p.proto = .udp ∧ p.dport = 53
        · rw [hG.natVerdict_dns X hdns, if_neg htcp, if_pos hdns]
        -- no rule applies: the policy decides, and redirects nothing
        · rw [Firewall.natVerdict, Table.verdict, hG.nat]
          cases G.natTable.policy .output <;>
            simp [torRedirects, decideRules, meaning, Match.holds, htcp, hdns, Policy.verdict]

/-! ## A run and a packet -/

/-- The kill switch is switched on over the firewall `F`. -/
def torOver (F : Fw) : World :=
  ((enableKillSwitch .full false 45).run (machine anything) goWell (.start F .blank)).2

theorem runs_torOver (F : Fw)
    (h : ((enableKillSwitch .full false 45).run (machine anything) goWell
      (.start F .blank)).1 = true) :
    ∃ tr, Prog.Runs (machine anything) (enableKillSwitch .full false 45) (.start F .blank) tr
      true (torOver F) :=
  Prog.runs_of_run (fun _ _ => trivial) h

/-- A packet an ordinary user sends to port 443 of another host; it opens a connection if
`syn`. -/
def toWeb (syn : Bool) : Packet where
  proto := .tcp
  src := 0x0a000002#32
  dst := 0x01010101#32
  sport := 50000
  dport := 443
  syn := syn
  iif := ""
  oif := "eth0"
  owner := some "user"
  ct := .new

end PrivacyGuard
