import PrivacyGuard.Model.Actions
import PrivacyGuard.Model.Networking
import PrivacyGuard.Properties.IsolationReport

set_option autoImplicit false

/-! # The isolation check after the configuration

A passed isolation check need not mean much on any machine. On a workstation that
`configure_networking` has configured it is exact: the file and the route that the call has
written leave none of the gaps of the check open. -/

namespace PrivacyGuard.Workstation

open Effect Text Torrc Dns

variable {w w' : Net} {g : List Char} {is : List Interface} {rs : List DefaultRoute} {f : File}

/-- `ip` prints no other interface as it prints the loopback interface. -/
def Plain (is : List Interface) : Prop := ∀ i ∈ is, i.isLoopback = false → ¬ loMark <:+: i.line

/-! ## The file -/

/-- The keyword and the address, as the one line of the file. -/
def resolvLine (g : List Char) : List Char := nameserver ++ ' ' :: g

theorem resolvLine_unbroken (hg : NoSpace g) : Unbroken (resolvLine g) := by
  have hkey : Unbroken nameserver := by decide
  intro c hc
  rcases List.mem_append.mp hc with hc | hc
  · exact hkey c hc
  · rcases List.mem_cons.mp hc with rfl | hc
    · rfl
    · exact isSpace_of_isBreak (hg c hc)

theorem words_resolvLine (hne : g ≠ []) (hg : NoSpace g) :
    words (resolvLine g) = [nameserver, g] := by
  have hkey : words nameserver = [nameserver] := words_noSpace (by decide) (by decide)
  rw [resolvLine, words_append_space (by decide), hkey, words_noSpace hne hg]
  rfl

theorem splitlines_resolvText (hg : NoSpace g) :
    splitlines (readText (some (resolvText g))) = [resolvLine g] := by
  have hline : ∀ l ∈ [resolvLine g], Unbroken l := by
    intro l hl
    rw [List.mem_singleton.mp hl]
    exact resolvLine_unbroken hg
  have htext : resolvText g = unlines [resolvLine g] := by
    simp [resolvText, resolvLine, unlines]
  rw [htext, readText_some (no_cr_unlines hline), splitlines_unlines hline]

theorem isNameserver_resolvLine (hne : g ≠ []) (hg : NoSpace g) :
    isNameserver (resolvLine g) = true :=
  isNameserver_of_words (words_resolvLine hne hg)

theorem serversOf_resolvText (hne : g ≠ []) (hg : NoSpace g) :
    serversOf (readText (some (resolvText g))) = some [g] := by
  rw [serversOf, splitlines_resolvText hg, List.filter_singleton, isNameserver_resolvLine hne hg]
  have hword : secondWord (resolvLine g) = some g := by
    rw [secondWord, words_resolvLine hne hg]
    rfl
  simp [hword]

/-! ## The route -/

/-- The next hop is looked for where it is printed. -/
theorem DefaultRoute.infix_of_nextHop {r : DefaultRoute} (h : r.nextHop = some g) :
    g <:+: strip r.line := by
  have hmem : g ∈ words r.line :=
    (List.dropWhile_suffix _).subset (List.mem_of_getElem? h)
  rw [← words_strip] at hmem
  exact infix_of_mem_words hmem

/-! ## The check -/

theorem counted_eq (his : Plain is) :
    is.filter Interface.isCounted = is.filter fun i => !i.isLoopback := by
  refine List.filter_congr fun i hi => ?_
  by_cases hc : i.isCounted = true
  · rw [hc, not_isLoopback hc]
    rfl
  · by_cases hlo : i.isLoopback = true
    · rw [hlo, Bool.eq_false_iff.mpr hc]
      rfl
    · exact absurd ((isCounted_iff i).mpr (his i hi (Bool.eq_false_iff.mpr hlo))) hc

/-- Nothing but the numbers of interfaces and of routes is left to be checked. -/
theorem Configured.looks_iff (h : Configured g w w') (hne : g ≠ []) (hg : NoSpace g)
    (his : Plain w'.links) : Looks w'.links w'.defaults w'.resolv g ↔
      (∃ i, w'.links.filter (fun i => !i.isLoopback) = [i]) ∧ ∃ r, w'.defaults = [r] := by
  obtain ⟨r, kept, hr, -, hperm⟩ := h.defaults
  constructor
  · rintro ⟨hi, ⟨r', hr', -⟩, -⟩
    rw [counted_eq his] at hi
    exact ⟨hi, r', hr'⟩
  · rintro ⟨hi, r', hr'⟩
    refine ⟨by rwa [counted_eq his], ⟨r', hr', ?_⟩, fun _ => ⟨[g], ?_, by simp, fun _ => rfl⟩⟩
    · rw [hr'] at hperm
      -- the one default route is the one that has been added
      have hrr : r = r' := by
        have hmem : r ∈ [r'] := hperm.mem_iff.mpr List.mem_cons_self
        exact List.mem_singleton.mp hmem
      rw [← hrr]
      exact DefaultRoute.infix_of_nextHop hr
    · rw [h.resolv]
      exact serversOf_resolvText hne hg

theorem Configured.gapless (h : Configured g w w') (hne : g ≠ []) (hg : NoSpace g)
    (his : Plain w'.links) (hone : ∃ r, w'.defaults = [r]) :
    Gapless w'.links w'.defaults w'.resolv g := by
  obtain ⟨r, kept, hr, -, hperm⟩ := h.defaults
  refine ⟨hne, his, fun r' hr' => ?_, by simp [h.resolv], ?_⟩
  · obtain ⟨r₁, hr₁⟩ := hone
    rw [hr₁] at hperm hr'
    have hmem : r ∈ [r₁] := hperm.mem_iff.mpr List.mem_cons_self
    rw [List.mem_singleton.mp hr', ← List.mem_singleton.mp hmem]
    exact hr
  · rw [h.resolv, splitlines_resolvText hg]
    intro l hl _
    rw [List.mem_singleton.mp hl, words_resolvLine hne hg]
    rfl

/-- There is a report: no line of the file makes the check fail with an exception. -/
theorem Configured.reports (h : Configured g w w') (hne : g ≠ []) (hg : NoSpace g) :
    ∃ r, verifyIsolation (.ok (linkOutput w'.links)) (.ok (routeOutput w'.defaults)) w'.resolv
      (some g) = some r := by
  rw [h.resolv]
  exact ⟨_, Option.map_eq_some_iff.mpr ⟨[g], serversOf_resolvText hne hg, rfl⟩⟩

/-- **After a configuration that has gone through, the check is exact.** Whatever the network was
before: the check makes its report, and it is passed if and only if the workstation is isolated,
which it is if and only if there is one interface besides the loopback interface and no default
route besides the one that has been added. -/
theorem check_exact {env : Environment} {iface ip : List Char} {n : Int}
    {tr : List (Event netSig)}
    (hrun : Prog.Runs network (configureNetworking env iface ip g n) w tr .configured w')
    (hne : g ≠ []) (hg : NoSpace g) (his : Plain w'.links) :
    ∃ r, verifyIsolation (.ok (linkOutput w'.links)) (.ok (routeOutput w'.defaults)) w'.resolv
        (some g) = some r ∧
      (r.passed = true ↔ Isolated w'.links w'.defaults w'.resolv g) ∧
      (Isolated w'.links w'.defaults w'.resolv g ↔
        (∃ i, w'.links.filter (fun i => !i.isLoopback) = [i]) ∧ w'.defaults.length = 1) := by
  have h : Configured g w w' := hrun.post configureNetworking_wp rfl
  have hlooks := h.looks_iff hne hg his
  have hisolated : Isolated w'.links w'.defaults w'.resolv g ↔
      Looks w'.links w'.defaults w'.resolv g := by
    constructor
    · rintro ⟨hi, ⟨r, hr, -⟩, -⟩
      exact hlooks.mpr ⟨hi, r, hr⟩
    · intro hl
      exact hl.isolated_iff.mpr (h.gapless hne hg his (hlooks.mp hl).2)
  obtain ⟨r, hr⟩ := h.reports hne hg
  refine ⟨r, hr, ?_, ?_⟩
  · rw [hisolated, ← passed_iff]
    constructor
    · intro hp
      exact ⟨r, hr, hp⟩
    · rintro ⟨r', hr', hp⟩
      rw [hr] at hr'
      cases hr'
      exact hp
  · rw [hisolated, hlooks, List.length_eq_one_iff]

/-- A workstation with one interface. -/
def fresh : Net := ⟨[loopback, ethernet], [], none, false⟩

def gatewayRoute : DefaultRoute where
  line := "default via 10.152.152.10 dev eth0".toList
  unbroken := by decide
  nonBlank := ⟨'d', by decide, by decide⟩

/-- All goes well; other gateways than this one are out of reach. -/
def reachable : NetOp → Net → Bool × Net
  | .addDefault g, w =>
      if gatewayRoute.nextHop = some g then
        (true, { w with defaults := gatewayRoute :: w.defaults })
      else (false, w)
  | .writeResolv text, w => (true, { w with resolv := some text })
  | .markConfigured, w => (true, { w with configured := true })
  | .flush _, w | .addAddress _ _, w | .linkUp _, w => (true, w)

theorem reachable_admitted (o : NetOp) (w : Net) : network.admits o (reachable o w) w := by
  cases o with
  | addDefault g =>
      rw [reachable]
      split
      · rename_i hg
        exact ⟨rfl, ⟨gatewayRoute, hg, .refl _⟩, rfl, rfl⟩
      · exact rfl
  | flush iface => exact ⟨rfl, List.Sublist.refl _, rfl, rfl⟩
  | _ => exact ⟨rfl, rfl, rfl, rfl⟩

theorem check_exact_fresh :
    ∃ r, verifyIsolation (.ok (linkOutput [loopback, ethernet])) (.ok (routeOutput [gatewayRoute]))
        (some "nameserver 10.152.152.10\n".toList) (some "10.152.152.10".toList) = some r ∧
      r.passed = true := by
  obtain ⟨tr, hrun⟩ := Prog.runs_of_run (H := network) reachable_admitted
    (p := configureNetworking .full "eth0".toList "10.152.152.11".toList "10.152.152.10".toList 24)
    (s := fresh) (a := .configured) (by decide +kernel)
  have hplain : ∀ i ∈ [loopback, ethernet], i.isLoopback = false → ¬ loMark <:+: i.line := by
    decide +kernel
  obtain ⟨r, hr, hpassed, hisolated⟩ := check_exact hrun (by decide) (by decide) hplain
  refine ⟨r, hr, hpassed.mpr (hisolated.mpr ⟨⟨ethernet, rfl⟩, rfl⟩)⟩

end PrivacyGuard.Workstation
