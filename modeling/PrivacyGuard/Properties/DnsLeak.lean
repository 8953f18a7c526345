import PrivacyGuard.Model.DnsCheck

set_option autoImplicit false

/-! # DNS leaks that are missed

The loop over the lines of `/etc/resolv.conf` stops at a line that begins with `nameserver` and
has nothing behind it. A resolver is found if one of the lines before it names the resolver. -/

namespace PrivacyGuard.Dns

open Text Torrc

variable {l a : List Char} {ls : List (List Char)}

/-- The loop takes the address from the line. -/
def Names (l a : List Char) : Prop := isNameserver l = true ∧ secondWord l = some a

/-- A line with the keyword and without an address. -/
def Bare (l : List Char) : Prop := isNameserver l = true ∧ secondWord l = none

/-- No bare line comes before all lines that name the address. -/
def NotCutOff (ls : List (List Char)) (a : List Char) : Prop :=
  ∀ pre m post, ls = pre ++ m :: post → Bare m → ∃ l ∈ pre, Names l a

theorem notCutOff_of_names (h : Names l a) : NotCutOff (l :: ls) a := by
  intro pre m post hls hm
  cases pre with
  | nil =>
      -- the line itself is not bare
      obtain ⟨rfl, -⟩ := List.cons.inj hls
      cases h.2.symm.trans hm.2
  | cons l' pre =>
      obtain ⟨rfl, -⟩ := List.cons.inj hls
      exact ⟨l, List.mem_cons_self, h⟩

theorem notCutOff_cons (hbare : ¬ Bare l) (hname : ¬ Names l a) :
    NotCutOff (l :: ls) a ↔ NotCutOff ls a := by
  constructor
  · intro h pre m post hls hm
    obtain ⟨l', hl', hnames⟩ := h (l :: pre) m post (by rw [hls]; rfl) hm
    obtain rfl | hl' := List.mem_cons.mp hl'
    · exact absurd hnames hname
    · exact ⟨l', hl', hnames⟩
  · intro h pre m post hls hm
    cases pre with
    | nil =>
        obtain ⟨rfl, -⟩ := List.cons.inj hls
        exact absurd hm hbare
    | cons l' pre =>
        obtain ⟨-, hls⟩ := List.cons.inj hls
        obtain ⟨l'', hl'', hnames⟩ := h pre m post hls hm
        exact ⟨l'', List.mem_cons_of_mem _ hl'', hnames⟩

/-- **What the loop finds.** -/
theorem mem_resolversOf : a ∈ resolversOf ls ↔ (∃ l ∈ ls, Names l a) ∧ NotCutOff ls a := by
  induction ls with
  | nil => simp [resolversOf]
  | cons l ls ih =>
      by_cases hkey : isNameserver l = true
      · cases hword : secondWord l with
        | none =>
            have hcut : ¬ NotCutOff (l :: ls) a := by
              intro h
              obtain ⟨_, hmem, -⟩ := h [] l ls rfl ⟨hkey, hword⟩
              cases hmem
            have hstop : resolversOf (l :: ls) = [] := by
              rw [resolversOf, if_pos hkey, hword]
            rw [hstop]
            exact iff_of_false List.not_mem_nil fun h => hcut h.2
        | some server =>
            have hgo : resolversOf (l :: ls) = server :: resolversOf ls := by
              rw [resolversOf, if_pos hkey, hword]
            rw [hgo, List.mem_cons]
            by_cases ha : a = server
            · have hnames : Names l a := ⟨hkey, by rw [hword, ha]⟩
              exact iff_of_true (.inl ha)
                ⟨⟨l, List.mem_cons_self, hnames⟩, notCutOff_of_names hnames⟩
            · have hnames : ¬ Names l a := fun h => ha (Option.some.inj (h.2.symm.trans hword))
              have hbare : ¬ Bare l := fun h => by cases h.2.symm.trans hword
              rw [ih, notCutOff_cons hbare hnames, List.exists_mem_cons_iff]
              simp [ha, hnames]
      · have hnames : ¬ Names l a := fun h => hkey h.1
        have hbare : ¬ Bare l := fun h => hkey h.1
        have hskip : resolversOf (l :: ls) = resolversOf ls := by
          rw [resolversOf, if_neg hkey]
        rw [hskip, ih, notCutOff_cons hbare hnames, List.exists_mem_cons_iff]
        simp [hnames]

/-- A line of the keyword and an address. -/
theorem names_of_words (h : words l = [nameserver, a]) : Names l a :=
  ⟨isNameserver_of_words h, by rw [secondWord, h]; rfl⟩

/-- **A leak is found** if and only if no line without an address stands before all lines that
name the resolver. -/
theorem leak_found_iff {resolv : File} (hline : ∃ l ∈ splitlines (readText resolv),
      words l = [nameserver, a]) (hlocal : isLocal a = false)
    (resolverIp : Option String) (torCheck : Option ExitCheck) :
    (a ∈ (dnsLeakCheck resolv resolverIp torCheck true).nonLocalResolvers ∧
        LikelyLeaking (dnsLeakCheck resolv resolverIp torCheck true).leakVerdict) ↔
      NotCutOff (splitlines (readText resolv)) a := by
  obtain ⟨l, hl, hwords⟩ := hline
  have hmem : a ∈ (dnsLeakCheck resolv resolverIp torCheck true).nonLocalResolvers ↔
      NotCutOff (splitlines (readText resolv)) a := by
    have hnamed : ∃ l ∈ splitlines (readText resolv), Names l a :=
      ⟨l, hl, names_of_words hwords⟩
    rw [dnsLeakCheck, List.mem_filter, configuredResolvers, mem_resolversOf, hlocal]
    simp [hnamed]
  rw [← hmem, and_iff_left_iff_imp]
  intro ha
  exact (likelyLeaking_iff _ _).mpr ⟨rfl, List.ne_nil_of_mem ha⟩

/-- The address of a public resolver. -/
def publicResolver : List Char := "8.8.8.8".toList

theorem leak_found_iff_public :
    publicResolver ∈ (dnsLeakCheck (some "nameserver 8.8.8.8\n".toList) none none
        true).nonLocalResolvers ∧
      LikelyLeaking (dnsLeakCheck (some "nameserver 8.8.8.8\n".toList) none none
        true).leakVerdict := by
  have hlines : splitlines (readText (some "nameserver 8.8.8.8\n".toList)) =
      ["nameserver 8.8.8.8".toList] := by decide +kernel
  have hwords : words "nameserver 8.8.8.8".toList = [nameserver, publicResolver] := by
    decide +kernel
  refine (leak_found_iff ⟨_, ?_, hwords⟩ (by decide +kernel) none none).mpr ?_
  · rw [hlines]
    exact List.mem_singleton_self _
  · rw [hlines]
    exact notCutOff_of_names (names_of_words hwords)

/-- A line that has been left unfinished hides the ones behind it. -/
def unfinished : File := some "nameserver\nnameserver 8.8.8.8\n".toList

theorem not_leak_found :
    ¬ ∀ (resolv : File) (a : List Char) (resolverIp : Option String)
        (torCheck : Option ExitCheck),
      (∃ l ∈ splitlines (readText resolv), words l = [nameserver, a]) → isLocal a = false →
      a ∈ (dnsLeakCheck resolv resolverIp torCheck true).nonLocalResolvers ∧
        LikelyLeaking (dnsLeakCheck resolv resolverIp torCheck true).leakVerdict := by
  intro h
  have hlisted := (h unfinished publicResolver none none
    ⟨"nameserver 8.8.8.8".toList, by decide +kernel, by decide +kernel⟩ (by decide +kernel)).1
  exact absurd hlisted (by decide +kernel)

end PrivacyGuard.Dns
