import PrivacyGuard.Model.VerifyIsolation
import PrivacyGuard.Model.KillBlock

set_option autoImplicit false

/-! # What a passed isolation check says

The check looks for the expected gateway anywhere in the line of the route, does without
`/etc/resolv.conf` where there is none, and recognises lines by parts of them. Where none of this
makes a difference, a workstation that passes is isolated. -/

namespace PrivacyGuard.Workstation

open Text Torrc Dns

variable {is : List Interface} {rs : List DefaultRoute} {resolv : File} {g : List Char}

def linkOutput (is : List Interface) : List Char := unlines (is.map (·.line))

def routeOutput (rs : List DefaultRoute) : List Char := unlines (rs.map (·.line))

/-- The workstation is connected to the gateway and to nothing else. -/
structure Isolated (is : List Interface) (rs : List DefaultRoute) (resolv : File)
    (g : List Char) : Prop where
  interface : ∃ i, is.filter (fun i => !i.isLoopback) = [i]
  route : ∃ r, rs = [r] ∧ r.nextHop = some g
  resolvConf : resolv ≠ none
  resolver : ∀ a, a ∈ namedServers resolv ↔ a = g

/-- The line is counted. -/
def Interface.isCounted (i : Interface) : Bool := decide (¬ loMark <:+: i.line)

/-- Each of the tests of the check succeeds. -/
structure Looks (is : List Interface) (rs : List DefaultRoute) (resolv : File)
    (g : List Char) : Prop where
  interface : ∃ i, is.filter Interface.isCounted = [i]
  route : ∃ r, rs = [r] ∧ g <:+: strip r.line
  resolver : resolv ≠ none → ∃ servers, serversOf (readText resolv) = some servers ∧
    servers.dedup.length ≤ 1 ∧ (g ≠ [] → servers = [g])

/-- None of the tests is weaker than it should be. -/
structure Gapless (is : List Interface) (rs : List DefaultRoute) (resolv : File)
    (g : List Char) : Prop where
  given : g ≠ []
  counted : ∀ i ∈ is, i.isLoopback = false → ¬ loMark <:+: i.line
  hop : ∀ r ∈ rs, r.nextHop = some g
  resolvConf : resolv ≠ none
  keyword : ∀ l ∈ splitlines (readText resolv), isNameserver l = true →
    (words l).head? = some nameserver

/-! ## The tests -/

theorem strip_linkLine (i : Interface) : strip i.line ≠ [] := by
  intro hnil
  have hcolon : isSpace ':' = true := by
    refine strip_eq_nil.mp hnil ':' ?_
    simp [Interface.line, linkLine]
  exact absurd hcolon (by decide)

theorem nonLo_linkOutput (is : List Interface) :
    nonLo (linkOutput is) = (is.filter Interface.isCounted).map (·.line) := by
  have hunbroken : ∀ l ∈ is.map (·.line), Unbroken l := by
    intro l hl
    obtain ⟨i, -, rfl⟩ := List.mem_map.mp hl
    exact i.unbroken
  rw [nonLo, linkOutput, splitlines_unlines hunbroken, List.filter_map]
  congr 1
  refine List.filter_congr fun i _ => ?_
  simp [Interface.isCounted, strip_linkLine i]

theorem DefaultRoute.strip_ne (r : DefaultRoute) : strip r.line ≠ [] := by
  obtain ⟨c, hc, hspace⟩ := r.nonBlank
  intro hnil
  rw [strip_eq_nil.mp hnil c hc] at hspace
  cases hspace

/-- One line is found exactly where one is printed. -/
theorem routesOf_routeOutput {l : List Char} :
    routesOf (routeOutput rs) = [l] ↔ ∃ r, rs = [r] ∧ strip r.line = l := by
  have hunbroken : ∀ l ∈ rs.map (·.line), Unbroken l := by
    intro l hl
    obtain ⟨r, -, rfl⟩ := List.mem_map.mp hl
    exact r.unbroken
  have hcr : '\r' ∉ strip (routeOutput rs) := by
    intro hmem
    have hsub : strip (routeOutput rs) ⊆ routeOutput rs :=
      List.Subset.trans (List.rdropWhile_prefix _ _).subset (List.dropWhile_suffix _).subset
    exact no_cr_unlines hunbroken (hsub hmem)
  rw [routesOf, splitlines_eq hcr, routeOutput]
  cases rs with
  | nil =>
      have hnil : lines (strip (unlines ([].map DefaultRoute.line))) = [] := rfl
      rw [hnil]
      simp
  | cons r rs =>
      cases rs with
      | nil =>
          have hone : unlines ([r].map (·.line)) = r.line ++ ['\n'] := by simp
          rw [hone, strip_concat rfl, lines_strip r.unbroken r.strip_ne]
          simp
      | cons r' rs =>
          have hmany : 2 ≤ (lines (strip (unlines ((r :: r' :: rs).map (·.line))))).length := by
            have hsecond : ∃ c ∈ unlines ((r' :: rs).map (·.line)), isSpace c = false := by
              obtain ⟨c, hc, hspace⟩ := r'.nonBlank
              exact ⟨c, by simp [hc], hspace⟩
            rw [List.map_cons, unlines_cons]
            exact two_le_lines_strip r.strip_ne hsecond
          constructor
          · intro h
            rw [h] at hmany
            simp at hmany
          · rintro ⟨r'', hr, -⟩
            cases hr

theorem interfaceChecks_all :
    (interfaceChecks (.ok (linkOutput is))).all (·.2) = true ↔
      ∃ i, is.filter Interface.isCounted = [i] := by
  simp [interfaceChecks, nonLo_linkOutput, List.length_eq_one_iff]

theorem given_some (g : List Char) : given (some g) = if g = [] then none else some g := by
  by_cases hg : g = []
  · simp [given, hg]
  · simp [given, hg]

theorem routeChecks_all :
    (routeChecks (.ok (routeOutput rs)) (some g)).all (·.2) = true ↔
      ∃ r, rs = [r] ∧ g <:+: strip r.line := by
  have hfound : (∃ r, rs = [r] ∧ g <:+: strip r.line) ↔
      ∃ l, routesOf (routeOutput rs) = [l] ∧ g <:+: l := by
    constructor
    · rintro ⟨r, hr, hg⟩
      exact ⟨_, routesOf_routeOutput.mpr ⟨r, hr, rfl⟩, hg⟩
    · rintro ⟨l, hl, hg⟩
      obtain ⟨r, hr, rfl⟩ := routesOf_routeOutput.mp hl
      exact ⟨r, hr, hg⟩
  rw [hfound, routeChecks, given_some]
  cases routesOf (routeOutput rs) with
  | nil => simp
  | cons l ls =>
      by_cases hg : g = []
      · simp [hg, List.nil_infix]
      · cases ls <;> simp [hg]

theorem resolverChecks_all (servers : List (List Char)) :
    (resolverChecks servers (some g)).all (·.2) = true ↔
      servers.dedup.length ≤ 1 ∧ (g ≠ [] → servers = [g]) := by
  rw [resolverChecks, given_some]
  by_cases hg : g = []
  · simp [hg]
  · simp [hg]

/-- **When the check is passed.** -/
theorem passed_iff : (∃ r, verifyIsolation (.ok (linkOutput is)) (.ok (routeOutput rs)) resolv
      (some g) = some r ∧ r.passed = true) ↔ Looks is rs resolv g := by
  cases resolv with
  | none =>
      constructor
      · rintro ⟨r, hr, hpassed⟩
        cases hr
        rw [IsolationReport.passed, List.all_append, Bool.and_eq_true, interfaceChecks_all,
          routeChecks_all] at hpassed
        exact ⟨hpassed.1, hpassed.2, fun h => absurd rfl h⟩
      · rintro ⟨hi, hr, -⟩
        refine ⟨_, rfl, ?_⟩
        rw [IsolationReport.passed, List.all_append, Bool.and_eq_true, interfaceChecks_all,
          routeChecks_all]
        exact ⟨hi, hr⟩
  | some text =>
      constructor
      · rintro ⟨r, hr, hpassed⟩
        obtain ⟨servers, hservers, rfl⟩ := Option.map_eq_some_iff.mp hr
        rw [IsolationReport.passed, List.all_append, List.all_append, Bool.and_eq_true,
          Bool.and_eq_true, interfaceChecks_all, routeChecks_all, resolverChecks_all] at hpassed
        exact ⟨hpassed.1.1, hpassed.1.2, fun _ => ⟨servers, hservers, hpassed.2⟩⟩
      · rintro ⟨hi, hr, hres⟩
        obtain ⟨servers, hservers, htests⟩ := hres (Option.some_ne_none text)
        refine ⟨_, Option.map_eq_some_iff.mpr ⟨servers, hservers, rfl⟩, ?_⟩
        rw [IsolationReport.passed, List.all_append, List.all_append, Bool.and_eq_true,
          Bool.and_eq_true, interfaceChecks_all, routeChecks_all, resolverChecks_all]
        exact ⟨⟨hi, hr⟩, htests⟩

/-! ## What isolation is -/

theorem isCounted_iff (i : Interface) : i.isCounted = true ↔ ¬ loMark <:+: i.line := by
  simp [Interface.isCounted]

/-- The loopback interface is never counted. -/
theorem not_isLoopback {i : Interface} (h : i.isCounted = true) : i.isLoopback = false := by
  rw [Interface.isLoopback, decide_eq_false_iff_not]
  intro hname
  have hmark : loMark = ": ".toList ++ "lo".toList ++ [':'] := by decide +kernel
  refine (isCounted_iff i).mp h ⟨(toString i.index).toList, i.attributes, ?_⟩
  rw [hmark, Interface.line, linkLine, hname]
  simp only [List.append_assoc, List.singleton_append]

theorem interface_iff (h : ∃ i, is.filter Interface.isCounted = [i]) :
    (∃ i, is.filter (fun i => !i.isLoopback) = [i]) ↔
      ∀ i ∈ is, i.isLoopback = false → ¬ loMark <:+: i.line := by
  have hsub : (is.filter fun i => !i.isLoopback).filter Interface.isCounted =
      is.filter Interface.isCounted := by
    rw [List.filter_filter]
    refine List.filter_congr fun i _ => ?_
    by_cases hi : i.isCounted = true
    · simp [hi, not_isLoopback hi]
    · simp [hi]
  obtain ⟨i, hi⟩ := h
  constructor
  · rintro ⟨j, hj⟩ k hk hlo
    have hmem : k ∈ [j] := by
      rw [← hj, List.mem_filter]
      exact ⟨hk, by simp [hlo]⟩
    have hall : [j].filter Interface.isCounted = [i] := by rw [← hj, hsub, hi]
    have hji : j.isCounted = true := by
      by_contra hno
      rw [List.filter_singleton, Bool.eq_false_iff.mpr hno] at hall
      cases hall
    rw [List.mem_singleton.mp hmem]
    exact (isCounted_iff j).mp hji
  · intro hall
    refine ⟨i, ?_⟩
    rw [← hi, ← hsub, eq_comm, List.filter_eq_self]
    intro k hk
    obtain ⟨hk, hlo⟩ := List.mem_filter.mp hk
    exact (isCounted_iff k).mpr (hall k hk (by simpa using hlo))

theorem namedServer_eq_some {l a : List Char} :
    namedServer l = some a ↔ (words l).head? = some nameserver ∧ secondWord l = some a := by
  rw [namedServer, secondWord]
  split
  · rename_i kw server ws hwords
    simp [hwords]
  · rename_i hwords
    refine iff_of_false (by simp) ?_
    rintro ⟨hfirst, hsecond⟩
    cases hw : words l with
    | nil => simp [hw] at hfirst
    | cons kw ws =>
        cases ws with
        | nil => simp [hw] at hsecond
        | cons server ws => exact hwords _ _ _ hw

theorem isNameserver_of_head {l : List Char} (h : (words l).head? = some nameserver) :
    isNameserver l = true := by
  obtain ⟨ws, hws⟩ := List.head?_eq_some_iff.mp h
  exact isNameserver_of_words hws

/-- A list of results with one entry. -/
theorem mapM_eq_singleton {α β : Type} {f : α → Option β} {l : List α} {b : β}
    (h : l.mapM f = some [b]) : ∃ a, l = [a] ∧ f a = some b := by
  cases l with
  | nil => simp at h
  | cons a l =>
      cases l with
      | nil => exact ⟨a, rfl, by simpa [Option.bind_eq_some_iff] using h⟩
      | cons a' l => simp [Option.bind_eq_some_iff] at h

/-- The one line that begins with the keyword names the gateway if its first word is the
keyword. -/
theorem resolver_iff (h : serversOf (readText resolv) = some [g]) :
    (∀ a, a ∈ namedServers resolv ↔ a = g) ↔
      ∀ l ∈ splitlines (readText resolv), isNameserver l = true →
        (words l).head? = some nameserver := by
  obtain ⟨l, hl, hg⟩ := mapM_eq_singleton h
  have honly : ∀ l' ∈ splitlines (readText resolv), isNameserver l' = true → l' = l := by
    intro l' hl' hkey
    have hmem : l' ∈ [l] := by
      rw [← hl, List.mem_filter]
      exact ⟨hl', hkey⟩
    exact List.mem_singleton.mp hmem
  have hmem : l ∈ splitlines (readText resolv) := by
    refine List.mem_of_mem_filter (p := isNameserver) ?_
    rw [hl]
    exact List.mem_singleton_self l
  constructor
  · intro hnamed l' hl' hkey
    obtain ⟨l'', hl'', hserver⟩ := List.mem_filterMap.mp ((hnamed g).mpr rfl)
    have hfirst := (namedServer_eq_some.mp hserver).1
    rw [honly l' hl' hkey, ← honly l'' hl'' (isNameserver_of_head hfirst)]
    exact hfirst
  · intro hkeyword a
    rw [namedServers, List.mem_filterMap]
    constructor
    · rintro ⟨l', hl', hserver⟩
      obtain ⟨hfirst, hsecond⟩ := namedServer_eq_some.mp hserver
      rw [honly l' hl' (isNameserver_of_head hfirst), hg] at hsecond
      exact (Option.some.inj hsecond).symm
    · rintro rfl
      have hkey : isNameserver l = true := by
        have hmem' : l ∈ (splitlines (readText resolv)).filter isNameserver := by simp [hl]
        exact (List.mem_filter.mp hmem').2
      exact ⟨l, hmem, namedServer_eq_some.mpr ⟨hkeyword l hmem hkey, hg⟩⟩

theorem Looks.isolated_iff (h : Looks is rs resolv g) :
    Isolated is rs resolv g ↔ Gapless is rs resolv g := by
  obtain ⟨r, hr, -⟩ := h.route
  have hservers : resolv ≠ none → g ≠ [] → serversOf (readText resolv) = some [g] := by
    intro hresolv hg
    obtain ⟨servers, hservers, -, heq⟩ := h.resolver hresolv
    rw [hservers, heq hg]
  constructor
  · rintro ⟨hi, ⟨r', hr', hhop⟩, hresolv, hres⟩
    have hg : g ≠ [] := by
      refine ne_nil_of_mem_words (s := r'.line) ?_
      exact (List.dropWhile_suffix _).subset (List.mem_of_getElem? hhop)
    refine ⟨hg, (interface_iff h.interface).mp hi, ?_, hresolv,
      (resolver_iff (hservers hresolv hg)).mp hres⟩
    rw [hr']
    simpa using hhop
  · rintro ⟨hg, hcounted, hhop, hresolv, hkeyword⟩
    refine ⟨(interface_iff h.interface).mpr hcounted, ⟨r, hr, hhop r ?_⟩, hresolv,
      (resolver_iff (hservers hresolv hg)).mpr hkeyword⟩
    rw [hr]
    exact List.mem_singleton_self r

/-- **A passed check says that the workstation is isolated** if and only if, in case all the tests
succeed, none of them is weaker than it should be. -/
theorem isolated_of_passed_iff :
    (∀ r, verifyIsolation (.ok (linkOutput is)) (.ok (routeOutput rs)) resolv (some g) = some r →
        r.passed = true → Isolated is rs resolv g) ↔
      (Looks is rs resolv g → Gapless is rs resolv g) := by
  constructor
  · intro h hlooks
    obtain ⟨r, hr, hpassed⟩ := passed_iff.mpr hlooks
    exact hlooks.isolated_iff.mp (h r hr hpassed)
  · intro h r hr hpassed
    have hlooks := passed_iff.mp ⟨r, hr, hpassed⟩
    exact hlooks.isolated_iff.mpr (h hlooks)

/-- A workstation with one interface, and its gateway. -/
def loopback : Interface := ⟨1, "lo".toList, " <LOOPBACK>".toList, by decide⟩

def ethernet : Interface := ⟨2, "eth0".toList, " <UP>".toList, by decide⟩

/-- The route leads to a machine whose address begins with that of the gateway. -/
def otherRoute : DefaultRoute where
  line := "default via 10.152.152.109 dev eth0".toList
  unbroken := by decide
  nonBlank := ⟨'d', by decide, by decide⟩

theorem not_isolated_of_passed :
    ¬ ∀ (is : List Interface) (rs : List DefaultRoute) (resolv : File) (g : List Char)
        (r : IsolationReport),
      verifyIsolation (.ok (linkOutput is)) (.ok (routeOutput rs)) resolv (some g) = some r →
        r.passed = true → Isolated is rs resolv g := by
  intro h
  have hrun : (verifyIsolation (.ok (linkOutput [loopback, ethernet]))
      (.ok (routeOutput [otherRoute])) (some "nameserver 10.152.152.10\n".toList)
      (some "10.152.152.10".toList)).map (·.passed) = some true := by decide +kernel
  obtain ⟨r, hr, hpassed⟩ := Option.map_eq_some_iff.mp hrun
  obtain ⟨r', hr', hhop⟩ := (h _ _ _ _ r hr hpassed).route
  obtain rfl := List.singleton_inj.mp hr'
  exact absurd hhop (by decide +kernel)

end PrivacyGuard.Workstation
