import PrivacyGuard.Model.Torrc

set_option autoImplicit false

/-! # What the kill switch writes into torrc

`killText_eq` says what the writer leaves of a text line by line: the lines it keeps, an empty
line, and its own block. The lines it keeps are those of the text outside of an earlier block
that are no port lines; `withoutKillBlock_of_cut` says what counts as outside when the markers
occur several times or in another order. -/

namespace PrivacyGuard.Torrc

open Text

/-! ## Reading and writing -/

theorem splitlines_eq {s : List Char} (h : '\r' ∉ s) : splitlines s = lines s := by
  rw [splitlines, universalNewlines_eq h]

theorem no_cr_readText (f : File) : '\r' ∉ readText f := not_mem_universalNewlines _

theorem readText_some {s : List Char} (h : '\r' ∉ s) : readText (some s) = s :=
  universalNewlines_eq h

theorem no_cr_of_unbroken {l : List Char} (h : Unbroken l) : '\r' ∉ l := by
  intro hmem
  cases h _ hmem

theorem no_cr_unlines {ls : List (List Char)} (h : ∀ l ∈ ls, Unbroken l) : '\r' ∉ unlines ls :=
  not_mem_unlines (by decide) fun l hl => no_cr_of_unbroken (h l hl)

theorem splitlines_unlines {ls : List (List Char)} (h : ∀ l ∈ ls, Unbroken l) :
    splitlines (unlines ls) = ls := by
  rw [splitlines_eq (no_cr_unlines h), lines_unlines h]

theorem killLines_unbroken : ∀ l ∈ killLines, Unbroken l := by decide

theorem no_cr_killBlock : '\r' ∉ killBlock :=
  no_cr_unlines killLines_unbroken

/-! ## The text line by line -/

/-- The lines of the text that stay, up to the last one that is not empty. -/
def keptLines (s : List Char) : List (List Char) :=
  trimLines ((splitlines (withoutKillBlock s)).filter fun line => !isPort line)

/-- The block stands behind an empty line. -/
def spaced (ls : List (List Char)) : List (List Char) := if ls = [] then [] else ls ++ [[]]

theorem mem_spaced {ls : List (List Char)} {l : List Char} (hne : l ≠ []) :
    l ∈ spaced ls ↔ l ∈ ls := by
  rw [spaced]
  split
  · rename_i h
    rw [h]
  · simp [hne]

/-- Only empty lines are added. -/
theorem filter_spaced {p : List Char → Bool} (hp : p [] = false) (ls : List (List Char)) :
    (spaced ls).filter p = ls.filter p := by
  rw [spaced]
  split
  · rename_i h
    rw [h]
  · simp [hp]

theorem trimLines_spaced (ls : List (List Char)) :
    trimLines (spaced ls ++ [[]]) = trimLines ls := by
  rw [trimLines_snoc_nil, spaced]
  split
  · rename_i h
    rw [h]
  · exact trimLines_snoc_nil ls

theorem unbroken_of_mem_keptLines {s l : List Char} (h : l ∈ keptLines s) : Unbroken l :=
  unbroken_of_mem_lines (List.mem_of_mem_filter (trimLines_subset _ h))

theorem isPort_of_mem_keptLines {s l : List Char} (h : l ∈ keptLines s) : isPort l = false := by
  simpa using (List.mem_filter.mp (trimLines_subset _ h)).2

theorem trimLines_keptLines (s : List Char) : trimLines (keptLines s) = keptLines s :=
  trimLines_trimLines _

/-- **The text that is written.** -/
theorem killText_eq (s : List Char) : killText s = unlines (spaced (keptLines s) ++ killLines) := by
  have hnl : ∀ l ∈ (splitlines (withoutKillBlock s)).filter (fun line => !isPort line),
      '\n' ∉ l := by
    intro l hl hmem
    cases unbroken_of_mem_lines (List.mem_of_mem_filter hl) _ hmem
  rw [killText, rstripNewlines_joinLines hnl, ← keptLines]
  by_cases h : keptLines s = []
  · rw [h]
    rfl
  · have hbase : joinLines (keptLines s) ≠ [] := fun hnil => h (joinLines_trimLines_eq_nil.mp hnil)
    have hjoin := joinLines_newline h
    simp only [if_neg hbase, spaced, if_neg h, unlines_append, ← hjoin, killBlock]
    simp

theorem mem_spaced_keptLines {s l : List Char} (h : l ∈ spaced (keptLines s)) :
    Unbroken l ∧ isPort l = false := by
  by_cases hne : l = []
  · rw [hne]
    exact ⟨by decide, rfl⟩
  · rw [mem_spaced hne] at h
    exact ⟨unbroken_of_mem_keptLines h, isPort_of_mem_keptLines h⟩

theorem killText_unbroken (s : List Char) :
    ∀ l ∈ spaced (keptLines s) ++ killLines, Unbroken l := by
  intro l hl
  obtain hl | hl := List.mem_append.mp hl
  · exact (mem_spaced_keptLines hl).1
  · exact killLines_unbroken l hl

theorem lines_killText (s : List Char) :
    lines (killText s) = spaced (keptLines s) ++ killLines := by
  rw [killText_eq, lines_unlines (killText_unbroken s)]

theorem no_cr_killText (s : List Char) : '\r' ∉ killText s := by
  rw [killText_eq]
  exact no_cr_unlines (killText_unbroken s)

/-- Whether or not the file had to be written, it then holds the text. -/
theorem readText_written (f : File) :
    readText (ensureTransparentProxyTorrc .granted f).2 = killText (readText f) := by
  rw [ensureTransparentProxyTorrc, if_neg (by decide)]
  split
  · exact Eq.symm ‹_›
  · rw [if_neg (by decide)]
    exact readText_some (no_cr_killText _)

theorem written_iff (f : File) :
    (ensureTransparentProxyTorrc .granted f).1 = true ↔ killText (readText f) ≠ readText f := by
  rw [ensureTransparentProxyTorrc, if_neg (by decide)]
  split
  · rename_i h
    simp [h]
  · rename_i h
    rw [if_neg (by decide)]
    simp [h]

/-! ## What lies outside of the block -/

theorem solid_killStart : Solid killStart := ⟨'#', _, rfl, by decide⟩

theorem solid_killEnd : Solid killEnd := ⟨'#', _, rfl, by decide⟩

/-- `r` is the text without what stands from the first start marker to the last end marker. -/
inductive Outside (s : List Char) : List Char → Prop
  | cut {a m n b : List Char} (hs : s = a ++ killStart ++ m) (ha : ¬ killStart <:+: a)
      (he : s = n ++ killEnd ++ b) (hb : ¬ killEnd <:+: b) : Outside s (a ++ b)
  /-- One of the markers is missing. -/
  | whole (h : ¬ (killStart <:+: s ∧ killEnd <:+: s)) : Outside s s

theorem withoutKillBlock_of_cut {s a m n b : List Char} (hs : s = a ++ killStart ++ m)
    (ha : ¬ killStart <:+: a) (he : s = n ++ killEnd ++ b) (hb : ¬ killEnd <:+: b) :
    withoutKillBlock s = a ++ b := by
  have hfirst : splitFirst killStart s = a := by
    rw [hs]
    exact splitFirst_append solid_killStart ha m
  have hlast : splitLast killEnd s = b := by
    rw [he]
    exact splitLast_append solid_killEnd hb n
  have hboth : killStart <:+: s ∧ killEnd <:+: s := ⟨⟨a, m, hs.symm⟩, ⟨n, b, he.symm⟩⟩
  rw [withoutKillBlock, if_pos hboth, hfirst, hlast]

theorem outside_iff {s r : List Char} : Outside s r ↔ r = withoutKillBlock s := by
  refine ⟨?_, ?_⟩
  · rintro (⟨hs, ha, he, hb⟩ | h)
    · exact (withoutKillBlock_of_cut hs ha he hb).symm
    · exact (if_neg h).symm
  · rintro rfl
    by_cases h : killStart <:+: s ∧ killEnd <:+: s
    · obtain ⟨a, m, hs, ha⟩ := exists_first (by decide) h.1
      obtain ⟨n, b, he, hb⟩ := exists_last (by decide) h.2
      rw [withoutKillBlock_of_cut hs ha he hb]
      exact .cut hs ha he hb
    · rw [withoutKillBlock, if_neg h]
      exact .whole h

/-- The block itself, without the newline behind its last marker. -/
theorem killBlock_eq :
    killBlock = killStart ++ ('\n' :: unlines (killLines.tail.take 3)) ++ killEnd ++ ['\n'] := by
  simp only [killBlock, killLines, List.tail_cons, List.take_succ_cons, List.take_zero,
    unlines_cons, unlines_nil, List.append_assoc, List.cons_append, List.nil_append]

/-- Of a text with a block, all but the block and the newline behind it is cut out. -/
theorem withoutKillBlock_append {a b : List Char} (ha : ¬ killStart <:+: a)
    (hb : ¬ killEnd <:+: b) : withoutKillBlock (a ++ killBlock ++ b) = a ++ '\n' :: b := by
  have hb' : ¬ killEnd <:+: '\n' :: b :=
    not_infix_append (s := ['\n']) (.inr ⟨[], rfl⟩) (by decide) (by decide) hb
  refine withoutKillBlock_of_cut (m := ('\n' :: unlines (killLines.tail.take 3)) ++ killEnd ++
    ['\n'] ++ b) (n := a ++ killStart ++ ('\n' :: unlines (killLines.tail.take 3))) ?_ ha ?_ hb'
  · rw [killBlock_eq]
    simp only [List.append_assoc]
  · rw [killBlock_eq]
    simp only [List.append_assoc, List.singleton_append]

/-- A line outside of the block that is no port line. -/
def Kept (s l : List Char) : Prop := ∃ r, Outside s r ∧ l ∈ splitlines r ∧ isPort l = false

theorem mem_keptLines {s l : List Char} (hne : l ≠ []) : l ∈ keptLines s ↔ Kept s l := by
  have hmem : l ∈ keptLines s ↔ l ∈ splitlines (withoutKillBlock s) ∧ isPort l = false := by
    refine ⟨fun h => ⟨List.mem_of_mem_filter (trimLines_subset _ h), isPort_of_mem_keptLines h⟩, ?_⟩
    rintro ⟨hl, hport⟩
    exact mem_trimLines (List.mem_filter.mpr ⟨hl, by simp [hport]⟩) hne
  rw [hmem, Kept]
  simp only [outside_iff, exists_eq_left]

end PrivacyGuard.Torrc
