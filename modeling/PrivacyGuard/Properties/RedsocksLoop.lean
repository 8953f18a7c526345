import PrivacyGuard.Netfilter.Walk
import PrivacyGuard.Model.Applying
import PrivacyGuard.Properties.Redirection

set_option autoImplicit false

/-! # redsocks and its own rules

The rules of the proxy-only kill switch send every TCP connection to another machine to the
local port of `redsocks`, and do not ask who opens it. So they take the connections `redsocks`
opens to its proxy for connections to be forwarded, unless the nat table from before tells the
two apart. -/

namespace PrivacyGuard

open Netfilter Effect

/-- The packet opens a TCP connection to another machine. -/
structure OpensConnection (T : Conntrack) (p : Packet) : Prop where
  syn : p.IsSyn
  unknown : T p = none
  new : p.ct = .new
  remote : p.Remote

/-- The packet is sent to the local port of `redsocks`. -/
def ToRedsocks (F : Fw) (X : Unmodelled) (T : Conntrack) (p : Packet) : Prop :=
  translation F X T p = some (redirectTo redsocksLocalPort)

/-- The connections of `redsocks` to its proxy are spared, and those of all others are
captured. -/
structure Separates (F : Fw) (X : Unmodelled) (T : Conntrack) (redsocks : Packet → Prop)
    (proxy : Addr) (port : Nat) : Prop where
  spared : ∀ p, OpensConnection T p → redsocks p → p.dst = proxy → p.dport = port →
    ¬ ToRedsocks F X T p
  captured : ∀ p, OpensConnection T p → ¬ redsocks p → ToRedsocks F X T p

/-! ## The rules -/

def redsocksChain : String := "PG_REDSOCKS"

def redsocksJump : Rule Match := ⟨[.proto .tcp], .jump redsocksChain⟩

def redsocksTail : List (Rule Match) :=
  [⟨[.dst 0x7f000000#32 8], .ret⟩, ⟨[.proto .tcp], .redirect redsocksLocalPort⟩]

/-- What the rules make of the nat table, whether the chain existed before or not. -/
theorem natTable_proxyRules (F : Fw) :
    (F.perform (proxyRules.map (·.command))).natTable.hook .output =
        F.natTable.hook .output ++ [redsocksJump] ∧
      (F.perform (proxyRules.map (·.command))).natTable.chainRules redsocksChain =
        F.natTable.chainRules redsocksChain ++ redsocksTail ∧
      ∀ c, c ≠ redsocksChain →
        (F.perform (proxyRules.map (·.command))).natTable.chainRules c =
          F.natTable.chainRules c := by
  let edits := Firewall.natPart ((proxyRules.map (·.command)).tail)
  -- once the chain exists, the other commands are accepted
  have hedits : ∀ G : Fw, redsocksChain ∈ G.natTable.names →
      (G.perform (edits.map .nat)).natTable.hook .output =
        G.natTable.hook .output ++ [redsocksJump] ∧
      ∀ c, (G.perform (edits.map .nat)).natTable.chainRules c =
        edits.foldl (fun rs d => d.onChain c rs) (G.natTable.chainRules c) := by
    intro G hG
    have happ := Firewall.applied_of_fits_nat [redsocksChain] edits (by decide) (by simpa using hG)
    refine ⟨?_, happ.chainRules_nat (by decide)⟩
    rw [happ.natTable.2.1]
    rfl
  obtain ⟨G, hwith, -, hperform⟩ := F.perform_newChain_nat redsocksChain
  have hperform : F.perform (proxyRules.map (·.command)) = G.perform (edits.map .nat) :=
    hperform _
  obtain ⟨hout, hrules⟩ := hedits G hwith.mem
  rw [hperform, hout, hwith.hook]
  refine ⟨rfl, ?_, fun c hc => ?_⟩
  · rw [hrules, hwith.chainRules]
    exact List.append_assoc _ _ _
  · have hother : ∀ d ∈ edits, d.chain? ≠ some (.user c) := by
      have hall : ∀ d ∈ edits, d.chain? = some (.user redsocksChain) ∨
          d.chain? = some (.hook .output) := by decide
      intro d hd
      obtain hd | hd := hall d hd
      · rw [hd]
        simpa using Ne.symm hc
      · rw [hd]
        exact nofun
    rw [hrules, hwith.chainRules, Command.foldl_onChain hother]

/-! ## Where a packet is sent -/

theorem toRedsocks_iff {F : Fw} {X : Unmodelled} {T : Conntrack} {p : Packet}
    (hp : OpensConnection T p) :
    ToRedsocks F X T p ↔ F.natVerdict (meaning X) .output p = .redirect redsocksLocalPort := by
  rw [ToRedsocks, translation, hp.unknown]
  simp only [hp.new, true_or, if_true]
  cases hv : F.natVerdict (meaning X) .output p with
  | redirect port => simp [redirectTo]
  | accept | drop | reject | other n => simp

/-- How the packet passes through OUTPUT, and behind it through the chain of `redsocks`. -/
def outputWalk (F : Fw) (X : Unmodelled) (p : Packet) : Walk Unit :=
  F.natTable.walkAlong (meaning X).still p (F.natTable.hook .output ++ [redsocksJump]) ()

/-- The packet comes to the end of the chain of `redsocks`, or is redirected to its port
before. -/
def ComesToRedsocks (F : Fw) (X : Unmodelled) (p : Packet) : Prop :=
  .exit redsocksChain ∈ (outputWalk F X p).passed ∨
    (outputWalk F X p).outcome = .decided (.redirect redsocksLocalPort)

theorem redsocksTail_decides (X : Unmodelled) {p : Packet} (htcp : p.proto = .tcp)
    (hremote : p.Remote) (call : String → Unit → Walk Unit) (u : Unit) :
    (walkRules ((meaning X).still.test · p) ((meaning X).still.ext · p) call redsocksTail
      u).outcome = .decided (.redirect redsocksLocalPort) := by
  have hdst : Match.holds X (.dst 0x7f000000#32 8) p = false := decide_eq_false hremote
  have hproto : Match.holds X (.proto .tcp) p = true := decide_eq_true htcp
  simp [redsocksTail, walkRules, testAll, Meaning.still, meaning, hdst, hproto]

/-- The rules redirect what would come to the end of the chain. -/
theorem natVerdict_proxyRules (F : Fw) (X : Unmodelled) {p : Packet} (htcp : p.proto = .tcp)
    (hremote : p.Remote) :
    (F.perform (proxyRules.map (·.command))).natVerdict (meaning X) .output p =
      .redirect redsocksLocalPort ↔ ComesToRedsocks F X p := by
  obtain ⟨hout, htail, hrest⟩ := natTable_proxyRules F
  have hparted := Table.walkAlong_extended (meaning X).still p hrest htail
    (fun _ s => redsocksTail_decides X htcp hremote _ s)
    (F.natTable.hook .output ++ [redsocksJump]) ()
  rw [Firewall.natVerdict, Table.verdict_eq, Table.walk, hout, ComesToRedsocks, outputWalk]
  generalize F.perform (proxyRules.map (·.command)) = G at *
  generalize F.natTable.walkAlong (meaning X).still p _ () = W at *
  generalize G.natTable.walkAlong (meaning X).still p _ () = W' at *
  obtain ⟨hl, hW'⟩ | ⟨hl, rfl⟩ := hparted
  · rw [hW']
    exact iff_of_true rfl (.inl hl)
  · rw [or_iff_right hl, Table.settle]
    cases W'.outcome with
    | decided v => simp [Outcome.verdict?]
    | returned | ended =>
        cases G.natTable.policy .output <;> simp [Outcome.verdict?, Policy.verdict]

/-- **redsocks is captured by its own rules**, unless the nat table from before keeps its
connections to the proxy, and no others, from the end of the chain. -/
theorem separates_iff {env : Environment} {a : ProxyArgs} {force : Bool} {w w' : World}
    {tr : List (Event sig)}
    (hrun : Prog.Runs (machine truthful) (enableProxyKillSwitch env a force) w tr true w')
    (happlied : w.saved.proxyOnlyKillSwitch = true → force = true) (X : Unmodelled)
    (T : Conntrack) (redsocks : Packet → Prop) (proxy : Addr) :
    Separates w'.v4 X T redsocks proxy a.proxyPort ↔
      (∀ p, OpensConnection T p → redsocks p → p.dst = proxy → p.dport = a.proxyPort →
        ¬ ComesToRedsocks w.v4 X p) ∧
      ∀ p, OpensConnection T p → ¬ redsocks p → ComesToRedsocks w.v4 X p := by
  have key : ∀ p, OpensConnection T p → (ToRedsocks w'.v4 X T p ↔ ComesToRedsocks w.v4 X p) := by
    intro p hp
    rw [toRedsocks_iff hp, proxyRules_performed hrun happlied,
      natVerdict_proxyRules _ X hp.syn.1 hp.remote]
  constructor
  · rintro ⟨hspared, hcaptured⟩
    refine ⟨?_, ?_⟩
    · intro p hp hred hdst hport
      rw [← key p hp]
      exact hspared p hp hred hdst hport
    · intro p hp hred
      rw [← key p hp]
      exact hcaptured p hp hred
  · rintro ⟨hspared, hcaptured⟩
    refine ⟨?_, ?_⟩
    · intro p hp hred hdst hport
      rw [key p hp]
      exact hspared p hp hred hdst hport
    · intro p hp hred
      rw [key p hp]
      exact hcaptured p hp hred

/-! ## Two nat tables -/

/-- A SOCKS proxy on another machine. -/
def socksProxy : ProxyArgs where
  proxyHost := "203.0.113.5"
  proxyPort := 1080
  proxyType := "socks5"
  username := none
  password := none

def socksAddr : Addr := 0xcb007105#32

/-- The proxy-only kill switch is switched on over the firewall `F`. -/
def proxyOver (F : Fw) : World :=
  ((enableProxyKillSwitch .full socksProxy false).run (machine truthful) goWell
    (.start F .blank)).2

theorem runs_proxyOver (F : Fw)
    (h : ((enableProxyKillSwitch .full socksProxy false).run (machine truthful) goWell
      (.start F .blank)).1 = true) :
    ∃ tr, Prog.Runs (machine truthful) (enableProxyKillSwitch .full socksProxy false)
      (.start F .blank) tr true (proxyOver F) :=
  Prog.runs_of_run (H := machine truthful) truthful_goWell h

/-- The packets of the user `redsocks`. -/
def OfRedsocks (p : Packet) : Prop := p.owner = some "redsocks"

/-- The nat table lets the packets of `redsocks` pass. -/
def sparingRedsocks : Fw where
  filter := none
  nat := some (Table.fresh.setHook .output [⟨[.uidOwner "redsocks"], .accept⟩] (by decide))

/-- It comes to the chain of `redsocks` with the packets of all others. -/
theorem comesToRedsocks_sparing {p : Packet} (htcp : p.proto = .tcp) :
    ComesToRedsocks sparingRedsocks .silent p ↔ ¬ OfRedsocks p := by
  have hfirst : testAll ((meaning .silent).still.test · p) [.uidOwner "redsocks"] () =
      (Match.holds .silent (.uidOwner "redsocks") p, ()) := by
    rw [testAll_still, List.all_cons, List.all_nil, Bool.and_true]
    rfl
  have hsecond : testAll ((meaning .silent).still.test · p) redsocksJump.conds () =
      (true, ()) := by
    have hproto : Match.holds .silent (.proto .tcp) p = true := decide_eq_true htcp
    rw [testAll_still, redsocksJump, List.all_cons, List.all_nil, Bool.and_true]
    exact congrArg (·, ()) hproto
  have hwalk : outputWalk sparingRedsocks .silent p =
      if Match.holds .silent (.uidOwner "redsocks") p then ⟨.decided .accept, [], ()⟩
      else ⟨.ended, [.entry redsocksChain, .exit redsocksChain], ()⟩ := by
    show walkRules _ _ _ [⟨[.uidOwner "redsocks"], .accept⟩, redsocksJump] () = _
    rw [walkRules, hfirst]
    cases Match.holds .silent (.uidOwner "redsocks") p with
    | true => rfl
    | false =>
        show walkRules _ _ _ [redsocksJump] () = _
        rw [walkRules, hsecond]
        rfl
  rw [ComesToRedsocks, hwalk]
  by_cases hred : OfRedsocks p
  · have howner : Match.holds .silent (.uidOwner "redsocks") p = true := decide_eq_true hred
    simp [howner, hred]
  · have howner : Match.holds .silent (.uidOwner "redsocks") p = false := decide_eq_false hred
    simp [howner, hred]

theorem separates_iff_sparing :
    Separates (proxyOver sparingRedsocks).v4 .silent noneOpen OfRedsocks socksAddr 1080 := by
  obtain ⟨tr, hrun⟩ := runs_proxyOver sparingRedsocks (by decide +kernel)
  refine (separates_iff (a := socksProxy) hrun (fun h => (nomatch h)) .silent noneOpen OfRedsocks
    socksAddr).mpr ⟨?_, ?_⟩
  · intro p hp hred _ _ hcomes
    exact (comesToRedsocks_sparing hp.syn.1).mp hcomes hred
  · intro p hp hred
    exact (comesToRedsocks_sparing hp.syn.1).mpr hred

/-- The first packet of a connection of `redsocks` to its proxy. -/
def redsocksToProxy : Packet :=
  { toWeb true with dst := socksAddr, dport := 1080, owner := some "redsocks" }

/-- Over an empty firewall, the connections of `redsocks` to its proxy come back to it. -/
theorem not_separates :
    ¬ ∀ (env : Environment) (a : ProxyArgs) (force : Bool) (w w' : World)
        (tr : List (Event sig)) (X : Unmodelled) (T : Conntrack) (redsocks : Packet → Prop)
        (proxy : Addr), proxy >>> 24 ≠ localhost >>> 24 →
      Prog.Runs (machine truthful) (enableProxyKillSwitch env a force) w tr true w' →
      (w.saved.proxyOnlyKillSwitch = true → force = true) →
      Separates w'.v4 X T redsocks proxy a.proxyPort := by
  intro h
  obtain ⟨tr, hrun⟩ := runs_proxyOver .blank (by decide +kernel)
  have hsep := h .full socksProxy false _ _ tr .silent noneOpen OfRedsocks socksAddr (by decide)
    hrun fun h => (nomatch h)
  have hopens : OpensConnection noneOpen redsocksToProxy := ⟨⟨rfl, rfl⟩, rfl, rfl, by decide⟩
  refine hsep.spared redsocksToProxy hopens rfl rfl rfl ((toRedsocks_iff hopens).mpr ?_)
  decide +kernel

end PrivacyGuard
