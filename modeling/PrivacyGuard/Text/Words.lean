import PrivacyGuard.Text.Lines

set_option autoImplicit false

/-! # Words

What `str.strip` leaves of a text, and the words into which `str.split` takes it apart. -/

namespace Text

variable {s t w : List Char}

/-! ## The spaces at the ends -/

theorem strip_eq_nil : strip s = [] ↔ ∀ c ∈ s, isSpace c = true := by
  rw [strip, List.rdropWhile_eq_nil_iff]
  refine ⟨?_, ?_⟩
  · intro h c hc
    rw [← List.takeWhile_append_dropWhile (p := isSpace) (l := s), List.mem_append] at hc
    obtain hc | hc := hc
    · exact List.mem_takeWhile_imp hc
    · exact h c hc
  · intro h c hc
    exact h c ((List.dropWhile_suffix _).subset hc)

/-- The first and the last character that are left are no spaces. -/
theorem strip_ends (h : strip s ≠ []) :
    (∃ c t, strip s = c :: t ∧ isSpace c = false) ∧
      ∃ t d, strip s = t ++ [d] ∧ isSpace d = false := by
  have hlast : ¬ isSpace ((strip s).getLast h) = true :=
    List.rdropWhile_last_not isSpace (s.dropWhile isSpace) h
  refine ⟨?_, _, _, (List.dropLast_append_getLast h).symm, by simpa using hlast⟩
  obtain ⟨t, ht⟩ := List.rdropWhile_prefix isSpace (s.dropWhile isSpace)
  have hhead := List.head?_dropWhile_not isSpace s
  rw [strip] at h ⊢
  generalize (s.dropWhile isSpace).rdropWhile isSpace = u at h ht
  cases u with
  | nil => exact absurd rfl h
  | cons c u =>
      rw [← ht] at hhead
      exact ⟨c, u, rfl, by simpa using hhead⟩

/-- Only spaces at the end are lost. -/
theorem prefix_rdropWhile {c : Char} (hc : isSpace c = false) (s t : List Char) :
    s ++ [c] <+: (s ++ c :: t).rdropWhile isSpace := by
  induction t using List.reverseRecOn with
  | nil => rw [List.rdropWhile_concat_neg _ _ _ (Bool.eq_false_iff.mp hc)]
  | append_singleton t d ih =>
      rw [← List.cons_append, ← List.append_assoc]
      by_cases hd : isSpace d = true
      · rwa [List.rdropWhile_concat_pos _ _ _ hd]
      · rw [List.rdropWhile_concat_neg _ _ _ hd]
        exact ⟨t ++ [d], by simp⟩

theorem strip_concat {c : Char} (hc : isSpace c = true) (s : List Char) :
    strip (s ++ [c]) = strip s := by
  rw [strip, List.dropWhile_append, strip]
  split
  · rename_i h
    rw [List.isEmpty_iff.mp h, List.dropWhile_cons_of_pos hc]
    rfl
  · exact List.rdropWhile_concat_pos _ _ _ hc

/-- What is left of one line is one line. -/
theorem lines_strip (hs : Unbroken s) (hne : strip s ≠ []) : lines (strip s) = [strip s] := by
  obtain ⟨-, t, d, ht, -⟩ := strip_ends hne
  have hstrip : Unbroken (strip s) := by
    intro c hc
    have hsub : strip s ⊆ s :=
      List.Subset.trans (List.rdropWhile_prefix _ _).subset (List.dropWhile_suffix _).subset
    exact hs c (hsub hc)
  have hd : isBreak d = false := hstrip d (by rw [ht]; simp)
  have hline := lines_newline_of_last hd t
  rw [← ht] at hline
  rw [← hline]
  exact lines_unbroken hstrip []

/-- Two lines with something in them are still two lines. -/
theorem two_le_lines_strip (hs : strip s ≠ []) (ht : ∃ c ∈ t, isSpace c = false) :
    2 ≤ (lines (strip (s ++ '\n' :: t))).length := by
  obtain ⟨d, hmem, hd⟩ := ht
  obtain ⟨y, z, rfl⟩ := List.append_of_mem hmem
  have hleft : ¬ (s.dropWhile isSpace).isEmpty = true := by
    rw [List.isEmpty_iff]
    intro hnil
    rw [strip, hnil] at hs
    exact hs rfl
  obtain ⟨w, hw⟩ := prefix_rdropWhile hd (s.dropWhile isSpace ++ '\n' :: y) z
  have hstrip : strip (s ++ '\n' :: (y ++ d :: z)) =
      s.dropWhile isSpace ++ '\n' :: (y ++ d :: w) := by
    rw [strip, List.dropWhile_append, if_neg hleft]
    simpa using hw.symm
  have hfirst : lines (s.dropWhile isSpace ++ ['\n']) ≠ [] := lines_ne_nil (by simp)
  have hsecond : lines (y ++ d :: w) ≠ [] := lines_ne_nil (by simp)
  rw [hstrip, lines_append_newline, List.length_append]
  have := List.length_pos_of_ne_nil hfirst
  have := List.length_pos_of_ne_nil hsecond
  omega

/-! ## Words -/

/-- `s.split()` -/
def words (s : List Char) : List (List Char) := (s.splitOnP isSpace).filter (· ≠ [])

/-- **Words are split at a space.** -/
theorem words_append_space {c : Char} (hc : isSpace c = true) (s t : List Char) :
    words (s ++ c :: t) = words s ++ words t := by
  rw [words, List.splitOnP_append_cons s t hc, List.filter_append, words, words]

theorem words_nil : words [] = [] := by
  simp [words, List.splitOnP_nil]

theorem words_cons_space {c : Char} (hc : isSpace c = true) (t : List Char) :
    words (c :: t) = words t := by
  have hsplit := words_append_space hc [] t
  rwa [List.nil_append, words_nil, List.nil_append] at hsplit

theorem words_noSpace (hne : w ≠ []) (hw : NoSpace w) : words w = [w] := by
  have hone : w.splitOnP isSpace = [w] :=
    List.splitOnP_eq_singleton hw
  rw [words, hone, List.filter_singleton]
  simp [hne]

theorem words_dropWhile (s : List Char) : words (s.dropWhile isSpace) = words s := by
  induction s with
  | nil => rfl
  | cons c s ih =>
      by_cases hc : isSpace c = true
      · rw [List.dropWhile_cons_of_pos hc, ih, words_cons_space hc]
      · rw [List.dropWhile_cons_of_neg hc]

theorem words_rdropWhile (s : List Char) : words (s.rdropWhile isSpace) = words s := by
  induction s using List.reverseRecOn with
  | nil => rfl
  | append_singleton s c ih =>
      by_cases hc : isSpace c = true
      · rw [List.rdropWhile_concat_pos _ _ _ hc, ih, words_append_space hc, words_nil,
          List.append_nil]
      · rw [List.rdropWhile_concat_neg _ _ _ hc]

theorem words_strip (s : List Char) : words (strip s) = words s := by
  rw [strip, words_rdropWhile, words_dropWhile]

/-- The words of a text are parts of it. -/
theorem infix_of_mem_words (h : w ∈ words s) : w <:+: s := by
  induction hn : s.length using Nat.strongRecOn generalizing s with
  | ind n ih =>
      by_cases hs : NoSpace s
      · by_cases hnil : s = []
        · rw [hnil, words_nil] at h
          cases h
        · rw [words_noSpace hnil hs] at h
          rw [List.mem_singleton.mp h]
      · have hspace : ∃ c ∈ s, isSpace c = true := by simpa [NoSpace] using hs
        obtain ⟨c, hmem, hc⟩ := hspace
        -- the text on both sides of a space
        obtain ⟨a, t, rfl⟩ := List.append_of_mem hmem
        rw [words_append_space hc, List.mem_append] at h
        rw [List.length_append, List.length_cons] at hn
        obtain h | h := h
        · have hinfix : w <:+: a := ih a.length (by omega) h rfl
          exact hinfix.trans (List.infix_append_left)
        · have hinfix : w <:+: t := ih t.length (by omega) h rfl
          exact hinfix.trans ((List.infix_cons_iff.mpr (.inr List.infix_rfl)).trans
            (List.infix_append_right))

theorem ne_nil_of_mem_words (h : w ∈ words s) : w ≠ [] := by
  simpa using (List.mem_filter.mp h).2

/-- A word and what follows it, which is nothing or begins with a space. -/
theorem words_cons_word (hne : w ≠ []) (hw : NoSpace w)
    (ht : ∀ c ∈ t.head?, isSpace c = true) : ∃ ws, words (w ++ t) = w :: ws := by
  cases t with
  | nil => exact ⟨[], by rw [List.append_nil, words_noSpace hne hw]⟩
  | cons c t =>
      have hc : isSpace c = true := ht c rfl
      exact ⟨words t, by rw [words_append_space hc, words_noSpace hne hw]; rfl⟩

/-- The first word is what the stripped text begins with. -/
theorem words_cases (s : List Char) :
    words s = [] ∨ ∃ w ws, words s = w :: ws ∧ NoSpace w ∧ w <+: strip s := by
  have hwords := words_dropWhile s
  have hhead := List.head?_dropWhile_not isSpace s
  have hstrip : strip s = (s.dropWhile isSpace).rdropWhile isSpace := rfl
  generalize s.dropWhile isSpace = u at hwords hhead hstrip
  cases u with
  | nil =>
      left
      rw [← hwords, words_nil]
  | cons c u =>
      right
      have hc : isSpace c = false := by simpa using hhead
      have hsplit := List.takeWhile_append_dropWhile (p := fun c => !isSpace c) (l := c :: u)
      have hrest : ∀ d ∈ ((c :: u).dropWhile fun c => !isSpace c).head?, isSpace d = true := by
        intro d hd
        have hnot := List.head?_dropWhile_not (fun c => !isSpace c) (c :: u)
        rw [Option.mem_def.mp hd] at hnot
        simpa using hnot
      have hword : NoSpace ((c :: u).takeWhile fun c => !isSpace c) := by
        intro d hd
        simpa using List.mem_takeWhile_imp hd
      have hne : (c :: u).takeWhile (fun c => !isSpace c) ≠ [] := by simp [hc]
      generalize (c :: u).takeWhile (fun c => !isSpace c) = w at hsplit hword hne
      generalize (c :: u).dropWhile (fun c => !isSpace c) = t at hsplit hrest
      obtain ⟨ws, hws⟩ := words_cons_word hne hword hrest
      refine ⟨w, ws, by rw [← hwords, ← hsplit, hws], hword, ?_⟩
      obtain ⟨w', d, rfl⟩ := (List.eq_nil_or_concat' w).resolve_left hne
      rw [hstrip, ← hsplit, List.append_assoc]
      exact prefix_rdropWhile (hword d (by simp)) w' t

end Text
