import PrivacyGuard.Model.Verify
import PrivacyGuard.Properties.RedsocksLoop

set_option autoImplicit false

/-! # What the verification of a kill switch demands

Both verifications send a ping and demand that it stays without an answer. The rules of the
Tor kill switch drop a ping, unless it is one of a series that has been answered before. Those
of the proxy-only kill switch are all in the nat table: a ping is dropped only where it was
dropped before. -/

namespace PrivacyGuard

open Netfilter Effect

/-- An ICMP packet to another machine, from a process that is not Tor's. -/
structure EchoRequest (p : Packet) : Prop where
  icmp : p.proto = .icmp
  remote : p.Remote
  leaves : p.oif ≠ "lo"
  notTor : p.owner ≠ some torUidPlaceholder

/-- The call switches on one of the two kill switches. -/
def Action.isKillSwitch (x : Action) : Prop :=
  x.enables? = some .tor ∨ x.enables? = some .proxyOnly

/-- The firewall `F` from before the call is one over which the call blocks the ping. -/
def Action.BlocksEcho (x : Action) (F : Fw) (X : Unmodelled) (p : Packet) : Prop :=
  (x.enables? = some .tor → p.ct ≠ .established ∧ p.ct ≠ .related) ∧
    (x.enables? = some .proxyOnly → F.filterVerdict (meaning X) .output p = .drop)

section

variable {x : Action} {w w' : World} {tr : List (Event sig)} {X : Unmodelled} {p : Packet}

/-- The Tor rules drop what they do not accept. -/
theorem TorOutput.drops_echo {G : Fw} (hG : TorOutput G) (X : Unmodelled) (hp : EchoRequest p) :
    G.filterVerdict (meaning X) .output p = .drop ↔ p.ct ≠ .established ∧ p.ct ≠ .related := by
  have haccept := hG.filterVerdict X p
  have hcases := Table.verdict_allowlist_cases hG.filter (by decide) (meaning X) p
  rw [Firewall.filterVerdict] at haccept ⊢
  constructor
  · intro hdrop
    rw [hdrop] at haccept
    constructor
    · intro hct
      cases haccept.mpr (.inr (.inr (.inl (.inl hct))))
    · intro hct
      cases haccept.mpr (.inr (.inr (.inl (.inr hct))))
  · rintro ⟨hest, hrel⟩
    refine hcases.resolve_left fun hacc => ?_
    obtain hlo | htor | (hct | hct) | ⟨htcp, -⟩ := haccept.mp hacc
    · exact hp.leaves hlo
    · exact hp.notTor htor
    · exact hest hct
    · exact hrel hct
    · rw [hp.icmp] at htcp
      cases htcp

/-- The proxy-only kill switch leaves the filter table as it is. -/
theorem filter_of_runs (hx : x.enables? = some .proxyOnly) (hproceeds : x.Proceeds w.saved)
    (hrun : Prog.Runs (machine anything) x.body w tr true w') : w'.v4.filter = w.v4.filter := by
  cases x with
  | enableProxyKillSwitch env a force =>
      have hskip : Skips anything proxyTolerate fun _ _ => True := fun _ _ _ _ _ => trivial
      have happ := hrun.post ((enableProxyKillSwitch_follows env a force).applied_skip hskip
        (hproceeds .proxyOnly rfl)) rfl
      refine happ.invariant (I := fun G => G.filter = w.v4.filter) ?_ rfl
      intro c hc F G hexec hF
      have hnat : ∃ d, c = .nat d := by
        have hall : ∀ c ∈ proxyRules.map (·.command), ∃ d, c = .nat d := by
          simp [proxyRules, ipt]
        exact hall c hc
      obtain ⟨d, rfl⟩ := hnat
      rw [(Firewall.exec_nat hexec).2, hF]
  | _ => cases hx

/-- **When a kill switch passes the ping test.** -/
theorem echo_dropped_iff (hx : x.isKillSwitch) (hproceeds : x.Proceeds w.saved)
    (hrun : Prog.Runs (machine anything) x.body w tr true w') (X : Unmodelled)
    (hp : EchoRequest p) :
    w'.v4.filterVerdict (meaning X) .output p = .drop ↔ x.BlocksEcho w.v4 X p := by
  rw [Action.BlocksEcho]
  obtain hx | hx := hx
  · have hrules := Action.torOutput_of_runs (.inl hx) hproceeds hrun
    simp [hrules.drops_echo X hp, hx]
  · have hfilter := filter_of_runs hx hproceeds hrun
    have hsame : w'.v4.filterVerdict (meaning X) .output p =
        w.v4.filterVerdict (meaning X) .output p := by
      rw [Firewall.filterVerdict, Firewall.filterTable, hfilter]
      rfl
    simp [hsame, hx]

end

/-- A ping of an ordinary user. -/
def pingToWeb : Packet := { toWeb false with proto := .icmp }

theorem echoRequest_pingToWeb : EchoRequest pingToWeb where
  icmp := rfl
  remote := by decide
  leaves := by decide
  notTor := by decide

theorem echo_dropped_iff_tor :
    (torOver sshServer).v4.filterVerdict (meaning .silent) .output pingToWeb = .drop := by
  obtain ⟨tr, hrun⟩ := runs_torOver sshServer (by decide +kernel)
  refine (echo_dropped_iff (x := .enableKillSwitch .full false 45) (.inl rfl)
    (proceeds_start _ _ _) hrun .silent echoRequest_pingToWeb).mpr ⟨?_, nofun⟩
  exact fun _ => ⟨by decide, by decide⟩

/-- Over an empty firewall, the proxy-only kill switch lets a ping out. -/
theorem not_echo_dropped :
    ¬ ∀ (x : Action) (w w' : World) (tr : List (Event sig)) (X : Unmodelled) (p : Packet),
      x.isKillSwitch → x.Proceeds w.saved →
      Prog.Runs (machine anything) x.body w tr true w' → EchoRequest p →
      w'.v4.filterVerdict (meaning X) .output p = .drop := by
  intro h
  let x : Action := .enableProxyKillSwitch .full socksProxy false
  have htrue : (x.body.run (machine anything) goWell (.start .blank .blank)).1 = true := by
    decide +kernel
  obtain ⟨tr, hrun⟩ := Prog.runs_of_run (fun _ _ => trivial) htrue
  have hdrop := h x _ _ tr .silent pingToWeb (.inr rfl) (proceeds_start _ _ _) hrun
    echoRequest_pingToWeb
  exact absurd hdrop (by decide +kernel)

end PrivacyGuard
