import PrivacyGuard.Model.TorOutput

set_option autoImplicit false

/-! # What the Tor kill switch lets out

The rules of the kill switch accept packets of established connections, TCP packets to port
9040, and packets that were first routed to loopback. None of this is tied to Tor: a
connection from before the kill switch keeps its way out, since its packets no longer pass
the nat OUTPUT chain; so does a TCP packet to port 9040 of any host that does not open a
connection, and a packet to a local address that an entry from before sends to another
host. Everything else is kept in. -/

namespace PrivacyGuard

open Netfilter Effect

/-- The packet gets past the filter OUTPUT chain although it is neither sent to a local Tor
port, nor leaves by loopback, nor belongs to Tor. -/
structure Leaks (F : Fw) (X : Unmodelled) (T : Conntrack) (p : Packet) : Prop where
  accepted : F.filterVerdict (meaning X) .output (atFilter F X T p) = .accept
  notRedirected : translation F X T p ≠ some (redirectTo 9040) ∧
    translation F X T p ≠ some (redirectTo 5353)
  notLoopback : p.leavesBy (translation F X T p) ≠ "lo"
  notTor : p.owner ≠ some torUidPlaceholder

/-! ## What does not leak -/

/-- The packet as it arrives at the filter OUTPUT chain while the kill switch is on. -/
def torAtFilter (T : Conntrack) (p : Packet) : Packet :=
  (classified T p).sendTo (torTranslation T p)

/-- One of the two rules applies that are tied neither to an interface nor to Tor. -/
def MeetsBroadRule (q : Packet) : Prop :=
  (q.ct = .established ∨ q.ct = .related) ∨ (q.proto = .tcp ∧ q.dport = 9040)

/-- The packet is Tor's, or leaves by loopback, or was not routed to loopback and meets neither
of the broad rules. -/
def KeptIn (T : Conntrack) (p : Packet) : Prop :=
  p.owner = some torUidPlaceholder ∨ p.leavesBy (torTranslation T p) = "lo" ∨
    (p.oif ≠ "lo" ∧ ¬ MeetsBroadRule (torAtFilter T p))

/-- **What the Tor kill switch keeps in.** Once it has been applied, exactly the packets that
are Tor's, leave by loopback, or were routed elsewhere from the first and are neither of a
known connection nor TCP to port 9040 do not leak. -/
theorem not_leaks_iff {env : Environment} {force : Bool} {timeout : Int} {w w' : World}
    {tr : List (Event sig)}
    (hrun : Prog.Runs (machine anything) (enableKillSwitch env force timeout) w tr true w')
    (happlied : w.saved.torKillSwitch = true → force = true)
    (X : Unmodelled) (T : Conntrack) (p : Packet) :
    ¬ Leaks w'.v4 X T p ↔ KeptIn T p := by
  have hrules : TorOutput w'.v4 :=
    Action.torOutput_of_runs (x := .enableKillSwitch env force timeout) (Or.inl rfl)
      (fun m hm => by cases hm; exact happlied) hrun
  have htr : translation w'.v4 X T p = torTranslation T p := hrules.translation X T p
  have hpass : atFilter w'.v4 X T p = torAtFilter T p := by rw [atFilter, htr, torAtFilter]
  have howner : (torAtFilter T p).owner = p.owner := by simp [torAtFilter]
  have hoif : (torAtFilter T p).oif = p.oif := by simp [torAtFilter]
  have haccept := hrules.filterVerdict X (torAtFilter T p)
  rw [howner, hoif] at haccept
  constructor
  · intro hno
    -- otherwise `-o lo` or a broad rule accepts the packet
    by_contra hkept
    rw [KeptIn, not_or, not_or, not_and_or, not_not, not_not] at hkept
    obtain ⟨htor, hlo, hmet⟩ := hkept
    refine hno ⟨?_, ?_, ?_, htor⟩
    · rw [hpass, haccept]
      rcases hmet with h | hbroad
      · exact Or.inl h
      · exact Or.inr (Or.inr hbroad)
    · -- a packet sent to a local port leaves by loopback
      have hlocal : ∀ port, torTranslation T p ≠ some (redirectTo port) := by
        intro port hport
        refine hlo ?_
        rw [hport]
        rfl
      rw [htr]
      exact ⟨hlocal 9040, hlocal 5353⟩
    · rwa [htr]
  · rintro hkept ⟨hacc, -, hlo, htor⟩
    rw [hpass] at hacc
    rw [htr] at hlo
    rcases hkept with h | h | ⟨hout, hbroad⟩
    · exact htor h
    · exact hlo h
    · rcases haccept.mp hacc with h' | h' | h'
      · exact hout h'
      · exact htor h'
      · exact hbroad h'

/-! ## Packets that leak -/

/-- Every packet belongs to a connection opened before, which is not translated. -/
def openBefore : Conntrack := fun _ => some ⟨.established, none⟩

/-- A new connection does not leak. -/
theorem not_leaks_iff_new :
    ¬ Leaks (torOver sshServer).v4 .silent (fun _ => none) (toWeb true) := by
  obtain ⟨tr, hrun⟩ := runs_torOver sshServer (by decide +kernel)
  refine (not_leaks_iff hrun (fun h => (nomatch h)) .silent (fun _ => none) (toWeb true)).mpr ?_
  exact Or.inr (Or.inl rfl)

/-- The packets of a connection opened before keep going out, past Tor. -/
theorem not_tor_keeps_in :
    ¬ ∀ (env : Environment) (force : Bool) (timeout : Int) (w w' : World)
        (tr : List (Event sig)) (X : Unmodelled) (T : Conntrack) (p : Packet),
      Prog.Runs (machine anything) (enableKillSwitch env force timeout) w tr true w' →
      (w.saved.torKillSwitch = true → force = true) → ¬ Leaks w'.v4 X T p := by
  intro h
  obtain ⟨tr, hrun⟩ := runs_torOver sshServer (by decide +kernel)
  refine h .full false 45 _ _ tr .silent openBefore (toWeb false) hrun (fun h => (nomatch h)) ?_
  exact ⟨by decide +kernel, by decide +kernel, by decide, by decide⟩

/-- Every packet is sent on to the resolver of another host, by an entry from before. -/
def sentOnBefore : Conntrack := fun _ => some ⟨.new, some ⟨0x0a000005#32, 53, "eth0"⟩⟩

/-- The `-o lo` rule lets out what was to go to loopback before its translation. -/
example : Leaks (torOver sshServer).v4 .silent sentOnBefore
    { toWeb false with proto := .udp, dst := localhost, oif := "lo" } :=
  ⟨by decide +kernel, by decide +kernel, by decide, by decide⟩

end PrivacyGuard
