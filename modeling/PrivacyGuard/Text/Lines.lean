import Mathlib.Data.List.DropRight
import Mathlib.Data.List.Infix

set_option autoImplicit false

/-! # Lines

Texts as lists of characters, and the methods of Python's `str` that take a text apart into
lines and put lines together. `lines_append` and `lines_unlines` are how the lines of a text
that has been put together are found again. -/

namespace Text

/-- The characters that end a line: `\n`, `\v`, `\f`, `\r`, the separators from `\x1c` to
`\x1e`, `\x85`, `\u2028` and `\u2029`. -/
def isBreak (c : Char) : Bool :=
  let n := c.toNat
  10 ≤ n && n ≤ 13 || 28 ≤ n && n ≤ 30 || n == 133 || n == 8232 || n == 8233

/-- `c.isspace()` -/
def isSpace (c : Char) : Bool :=
  let n := c.toNat
  isBreak c || n == 9 || n == 31 || n == 32 || n == 160 || n == 5760 ||
    8192 ≤ n && n ≤ 8202 || n == 8239 || n == 8287 || n == 12288

theorem isSpace_of_isBreak {c : Char} (h : isSpace c = false) : isBreak c = false := by
  simp only [isSpace, Bool.or_eq_false_iff] at h
  exact h.1.1.1.1.1.1.1.1.1

/-- What a file in text mode makes of the line ends `\r\n` and `\r`. -/
def universalNewlines : List Char → List Char
  | [] => []
  | '\r' :: '\n' :: s => '\n' :: universalNewlines s
  | c :: s => (if c = '\r' then '\n' else c) :: universalNewlines s

/-- `c` before the first line. -/
def push (c : Char) : List (List Char) → List (List Char)
  | [] => [[c]]
  | l :: ls => (c :: l) :: ls

/-- The lines of a text in which every line end is one character. -/
def lines : List Char → List (List Char)
  | [] => []
  | c :: s => if isBreak c then [] :: lines s else push c (lines s)

/-- `s.splitlines()` -/
def splitlines (s : List Char) : List (List Char) := lines (universalNewlines s)

/-- `s.strip()` -/
def strip (s : List Char) : List Char := (s.dropWhile isSpace).rdropWhile isSpace

/-- `s.rstrip("\n")` -/
def rstripNewlines (s : List Char) : List Char := s.rdropWhile (· = '\n')

/-- `"\n".join(lines)` -/
def joinLines (ls : List (List Char)) : List Char := ['\n'].intercalate ls

/-- The lines, each ended by a newline. -/
def unlines (ls : List (List Char)) : List Char := ls.flatMap (· ++ ['\n'])

/-- One line. -/
def Unbroken (l : List Char) : Prop := ∀ c ∈ l, isBreak c = false

/-- One word. -/
def NoSpace (l : List Char) : Prop := ∀ c ∈ l, isSpace c = false

-- not by going through all characters
instance (l : List Char) : Decidable (Unbroken l) :=
  List.decidableBAll (fun c => isBreak c = false) l

instance (l : List Char) : Decidable (NoSpace l) :=
  List.decidableBAll (fun c => isSpace c = false) l

/-- Nothing, or whole lines. -/
def Ended (s : List Char) : Prop := s = [] ∨ ∃ t, s = t ++ ['\n']

/-! ## Putting lines together -/

@[simp] theorem unlines_nil : unlines [] = [] := rfl

@[simp] theorem unlines_cons (l : List Char) (ls : List (List Char)) :
    unlines (l :: ls) = l ++ '\n' :: unlines ls := by
  simp [unlines]

@[simp] theorem unlines_append (ls ls' : List (List Char)) :
    unlines (ls ++ ls') = unlines ls ++ unlines ls' := by
  simp [unlines]

theorem ended_append {s t : List Char} (hs : Ended s) (ht : Ended t) : Ended (s ++ t) := by
  obtain rfl | ⟨u, rfl⟩ := ht
  · rwa [List.append_nil]
  · exact .inr ⟨s ++ u, (List.append_assoc _ _ _).symm⟩

theorem ended_of_append {s t : List Char} (h : Ended (s ++ t)) : Ended t := by
  obtain rfl | ⟨u, c, rfl⟩ := List.eq_nil_or_concat' t
  · exact .inl rfl
  · obtain h | ⟨v, hv⟩ := h
    · simp at h
    · rw [← List.append_assoc] at hv
      have hc : c = '\n' := by simpa using (List.append_inj' hv rfl).2
      exact .inr ⟨u, by rw [hc]⟩

theorem ended_unlines (ls : List (List Char)) : Ended (unlines ls) := by
  induction ls with
  | nil => exact .inl rfl
  | cons l ls ih =>
      have hl : Ended (l ++ ['\n']) := .inr ⟨l, rfl⟩
      have hsplit : unlines (l :: ls) = (l ++ ['\n']) ++ unlines ls := by simp
      rw [hsplit]
      exact ended_append hl ih

/-- Joined lines and a last newline. -/
theorem joinLines_newline {ls : List (List Char)} (h : ls ≠ []) :
    joinLines ls ++ ['\n'] = unlines ls := by
  induction ls with
  | nil => exact absurd rfl h
  | cons l ls ih =>
      cases ls with
      | nil => simp [joinLines]
      | cons l' ls =>
          have ih := ih (List.cons_ne_nil _ _)
          rw [unlines_cons, ← ih]
          simp [joinLines, List.intercalate_cons_cons]

theorem rstripNewlines_eq (s : List Char) :
    ∃ n, s = rstripNewlines s ++ List.replicate n '\n' := by
  refine ⟨(s.rtakeWhile (· = '\n')).length, ?_⟩
  have htake : s.rtakeWhile (· = '\n') =
      List.replicate (s.rtakeWhile (· = '\n')).length '\n' := by
    rw [List.eq_replicate_iff]
    refine ⟨rfl, ?_⟩
    intro c hc
    simpa using List.mem_rtakeWhile_imp hc
  rw [rstripNewlines, ← htake]
  exact List.rdropWhile_append_rtakeWhile.symm

/-- The lines without the empty ones at the end. -/
def trimLines (ls : List (List Char)) : List (List Char) := ls.rdropWhile (· = [])

theorem trimLines_snoc_nil (ls : List (List Char)) : trimLines (ls ++ [[]]) = trimLines ls :=
  List.rdropWhile_concat_pos _ _ _ rfl

theorem trimLines_subset (ls : List (List Char)) : trimLines ls ⊆ ls :=
  (List.rdropWhile_prefix _ _).subset

theorem trimLines_trimLines (ls : List (List Char)) : trimLines (trimLines ls) = trimLines ls :=
  List.rdropWhile_idempotent _ _

/-- Only empty lines are lost. -/
theorem filter_trimLines {p : List Char → Bool} (hp : p [] = false) (ls : List (List Char)) :
    (trimLines ls).filter p = ls.filter p := by
  induction ls using List.reverseRecOn with
  | nil => rfl
  | append_singleton ls l ih =>
      by_cases hl : l = []
      · rw [hl, trimLines_snoc_nil, ih, List.filter_append, List.filter_singleton, hp]
        simp
      · rw [trimLines, List.rdropWhile_concat_neg _ _ _ (by simpa using hl)]

theorem mem_trimLines {ls : List (List Char)} {l : List Char} (hl : l ∈ ls) (hne : l ≠ []) :
    l ∈ trimLines ls := by
  have hmem : l ∈ (trimLines ls).filter fun l => l ≠ [] := by
    rw [filter_trimLines (by simp)]
    simp [hl, hne]
  exact List.mem_of_mem_filter hmem

theorem joinLines_snoc {ls : List (List Char)} (h : ls ≠ []) (l : List Char) :
    joinLines (ls ++ [l]) = joinLines ls ++ '\n' :: l := by
  have hjoin := joinLines_newline (List.append_ne_nil_of_right_ne_nil ls (List.cons_ne_nil l []))
  rw [unlines_append, ← joinLines_newline h] at hjoin
  refine List.append_cancel_right (hjoin.trans ?_)
  simp

/-- Newlines at the end of joined lines are the empty lines at their end. -/
theorem rstripNewlines_joinLines {ls : List (List Char)} (h : ∀ l ∈ ls, '\n' ∉ l) :
    rstripNewlines (joinLines ls) = joinLines (trimLines ls) := by
  induction ls using List.reverseRecOn with
  | nil => rfl
  | append_singleton ls l ih =>
      have hls : ∀ l' ∈ ls, '\n' ∉ l' := fun l' hl' => h l' (List.mem_append_left _ hl')
      by_cases hl : l = []
      · rw [hl, trimLines_snoc_nil, ← ih hls]
        by_cases hne : ls = []
        · rw [hne]
          rfl
        · rw [joinLines_snoc hne]
          exact List.rdropWhile_concat_pos _ _ _ rfl
      · -- the last character is not a newline
        obtain ⟨m, c, rfl⟩ := (List.eq_nil_or_concat' l).resolve_left hl
        have hc : c ≠ '\n' := by
          rintro rfl
          exact h (m ++ ['\n']) (by simp) (by simp)
        have hkept : ∀ s, rstripNewlines (s ++ [c]) = s ++ [c] := fun s =>
          List.rdropWhile_concat_neg _ _ _ (by simpa using hc)
        rw [trimLines, List.rdropWhile_concat_neg _ _ _ (by simp)]
        by_cases hne : ls = []
        · have hjoin : joinLines (ls ++ [m ++ [c]]) = m ++ [c] := by simp [hne, joinLines]
          rw [hjoin, hkept]
        · rw [joinLines_snoc hne, ← List.cons_append, ← List.append_assoc, hkept]

/-- The last of the lines that are left is not empty. -/
theorem trimLines_cases (ls : List (List Char)) :
    trimLines ls = [] ∨ ∃ ls' l, trimLines ls = ls' ++ [l] ∧ l ≠ [] := by
  induction ls using List.reverseRecOn with
  | nil => exact .inl rfl
  | append_singleton ls l ih =>
      by_cases hl : l = []
      · rwa [hl, trimLines_snoc_nil]
      · rw [trimLines, List.rdropWhile_concat_neg _ _ _ (by simpa using hl)]
        exact .inr ⟨ls, l, rfl, hl⟩

theorem joinLines_trimLines_eq_nil {ls : List (List Char)} :
    joinLines (trimLines ls) = [] ↔ trimLines ls = [] := by
  obtain h | ⟨ls', l, h, hl⟩ := trimLines_cases ls
  · simp [h, joinLines]
  · rw [h]
    by_cases hne : ls' = []
    · simp [hne, joinLines, hl]
    · simp [joinLines_snoc hne]

/-! ## Taking a text apart -/

theorem lines_newline (s : List Char) : lines ('\n' :: s) = [] :: lines s := rfl

theorem lines_cons {c : Char} (hc : isBreak c = false) (s : List Char) :
    lines (c :: s) = push c (lines s) := by
  rw [lines, hc]
  rfl

theorem push_ne_nil (c : Char) (ls : List (List Char)) : push c ls ≠ [] := by
  cases ls <;> exact List.cons_ne_nil _ _

theorem push_append {ls : List (List Char)} (h : ls ≠ []) (c : Char) (ls' : List (List Char)) :
    push c (ls ++ ls') = push c ls ++ ls' := by
  cases ls with
  | nil => exact absurd rfl h
  | cons l ls => rfl

theorem lines_ne_nil {s : List Char} (h : s ≠ []) : lines s ≠ [] := by
  cases s with
  | nil => exact absurd rfl h
  | cons c s =>
      rw [lines]
      split
      · exact List.cons_ne_nil _ _
      · exact push_ne_nil _ _

/-- What ends in a newline is taken apart on its own. -/
theorem lines_append_newline (s t : List Char) :
    lines (s ++ '\n' :: t) = lines (s ++ ['\n']) ++ lines t := by
  induction s with
  | nil => rfl
  | cons c s ih =>
      have hne : lines (s ++ ['\n']) ≠ [] := lines_ne_nil (by simp)
      rw [List.cons_append, List.cons_append, lines, lines, ih]
      split
      · rfl
      · exact push_append hne c _

theorem lines_append {s : List Char} (hs : Ended s) (t : List Char) :
    lines (s ++ t) = lines s ++ lines t := by
  obtain rfl | ⟨u, rfl⟩ := hs
  · rfl
  · rw [List.append_assoc]
    exact lines_append_newline u t

theorem lines_unbroken {l : List Char} (hl : Unbroken l) (s : List Char) :
    lines (l ++ '\n' :: s) = l :: lines s := by
  induction l with
  | nil => rfl
  | cons c l ih =>
      have hc : isBreak c = false := hl c List.mem_cons_self
      have hrest : Unbroken l := fun c' hc' => hl c' (List.mem_cons_of_mem _ hc')
      rw [List.cons_append, lines_cons hc, ih hrest]
      rfl

/-- The lines of lines that have been put together. -/
theorem lines_unlines {ls : List (List Char)} (h : ∀ l ∈ ls, Unbroken l) :
    lines (unlines ls) = ls := by
  induction ls with
  | nil => rfl
  | cons l ls ih =>
      have hl : Unbroken l := h l List.mem_cons_self
      have hls : ∀ l' ∈ ls, Unbroken l' := fun l' hl' => h l' (List.mem_cons_of_mem _ hl')
      rw [unlines_cons, lines_unbroken hl, ih hls]

/-- Whole lines between two texts. -/
theorem lines_around {a b : List Char} {blk : List (List Char)} (ha : Ended a)
    (hblk : ∀ l ∈ blk, Unbroken l) :
    lines (a ++ unlines blk ++ b) = lines a ++ blk ++ lines b := by
  rw [lines_append (ended_append ha (ended_unlines blk)), lines_append ha, lines_unlines hblk]

/-- The lines of texts that have been put together, with line ends of other kinds in them. -/
theorem lines_flatMap (ls : List (List Char)) :
    lines (unlines ls) = ls.flatMap fun l => lines (l ++ ['\n']) := by
  induction ls with
  | nil => rfl
  | cons l ls ih => rw [unlines_cons, lines_append_newline, ih, List.flatMap_cons]

/-- One line before the first one of a text. -/
theorem lines_prepend {l m s : List Char} {ls : List (List Char)} (hl : Unbroken l)
    (h : lines s = m :: ls) : lines (l ++ s) = (l ++ m) :: ls := by
  induction l with
  | nil => exact h
  | cons c l ih =>
      have hc : isBreak c = false := hl c List.mem_cons_self
      have hrest : Unbroken l := fun c' hc' => hl c' (List.mem_cons_of_mem _ hc')
      rw [List.cons_append, lines_cons hc, ih hrest]
      rfl

theorem unbroken_of_mem_lines {s l : List Char} (h : l ∈ lines s) : Unbroken l := by
  induction s generalizing l with
  | nil => cases h
  | cons c s ih =>
      rw [lines] at h
      split at h
      · obtain rfl | h := List.mem_cons.mp h
        · exact nofun
        · exact ih h
      · rename_i hc
        have hc : isBreak c = false := by simpa using hc
        generalize lines s = ls at h ih
        cases ls with
        | nil =>
            obtain rfl := List.mem_singleton.mp h
            intro c' hc'
            rw [List.mem_singleton.mp hc']
            exact hc
        | cons l' ls =>
            obtain rfl | h := List.mem_cons.mp h
            · intro c' hc'
              obtain rfl | hc' := List.mem_cons.mp hc'
              · exact hc
              · exact ih List.mem_cons_self c' hc'
            · exact ih (List.mem_cons_of_mem _ h)

/-- A line is a part of the text. -/
theorem infix_of_mem_lines {s l : List Char} (h : l ∈ lines s) : l <:+: s := by
  have key : ∀ s : List Char, (∀ l ∈ lines s, l <:+: s) ∧
      ∀ l ls, lines s = l :: ls → l <+: s := by
    intro s
    induction s with
    | nil => exact ⟨nofun, nofun⟩
    | cons c s ih =>
        rw [lines]
        split
        · refine ⟨?_, ?_⟩
          · intro l hl
            obtain rfl | hl := List.mem_cons.mp hl
            · exact List.nil_infix
            · exact (ih.1 l hl).trans (List.suffix_cons c s).isInfix
          · intro l ls hl
            cases hl
            exact List.nil_prefix
        · generalize lines s = ls at ih
          cases ls with
          | nil =>
              have hc : [c] <+: c :: s := ⟨s, rfl⟩
              refine ⟨?_, ?_⟩
              · intro l hl
                rw [List.mem_singleton.mp hl]
                exact hc.isInfix
              · intro l ls hl
                cases hl
                exact hc
          | cons l' ls =>
              have hfirst : c :: l' <+: c :: s := by
                obtain ⟨t, ht⟩ := ih.2 l' ls rfl
                exact ⟨t, by rw [List.cons_append, ht]⟩
              refine ⟨?_, ?_⟩
              · intro l hl
                obtain rfl | hl := List.mem_cons.mp hl
                · exact hfirst.isInfix
                · exact (ih.1 l (List.mem_cons_of_mem _ hl)).trans (List.suffix_cons c s).isInfix
              · intro l ls' hl
                cases hl
                exact hfirst
  exact (key s).1 l h

/-- A last newline adds at most an empty line. -/
theorem lines_snoc_newline (s : List Char) :
    lines (s ++ ['\n']) = lines s ∨ lines (s ++ ['\n']) = lines s ++ [[]] := by
  induction s with
  | nil => exact .inr rfl
  | cons c s ih =>
      rw [List.cons_append, lines, lines]
      split
      · exact ih.imp (congrArg _) (congrArg _)
      · obtain ih | ih := ih
        · rw [ih]
          exact .inl rfl
        · rw [ih]
          by_cases hs : lines s = []
          · rw [hs]
            exact .inl rfl
          · exact .inr (push_append hs c _)

/-- A last newline ends the line that has begun. -/
theorem lines_newline_of_last {d : Char} (hd : isBreak d = false) (s : List Char) :
    lines (s ++ [d] ++ ['\n']) = lines (s ++ [d]) := by
  induction s with
  | nil =>
      have hone : lines [d] = [[d]] := lines_cons hd []
      have htwo : lines [d, '\n'] = [[d]] := lines_cons hd ['\n']
      rw [List.nil_append, hone]
      exact htwo
  | cons c s ih => rw [List.cons_append, List.cons_append, lines, lines, ih]

theorem mem_lines_newline {s l : List Char} (h : l ∈ lines (s ++ ['\n'])) :
    l ∈ lines s ∨ l = [] := by
  obtain hs | hs := lines_snoc_newline s
  · exact .inl (hs ▸ h)
  · rw [hs, List.mem_append] at h
    exact h.imp id List.mem_singleton.mp

/-- Newlines at the end of a text belong to no line. -/
theorem mem_lines_rstrip {s l : List Char} (h : l ∈ lines (rstripNewlines s ++ ['\n'])) :
    l ∈ lines s ∨ l = [] := by
  obtain ⟨n, hn⟩ := rstripNewlines_eq s
  cases n with
  | zero =>
      rw [List.replicate_zero, List.append_nil] at hn
      rw [← hn] at h
      exact mem_lines_newline h
  | succ n =>
      rw [List.replicate_succ] at hn
      left
      rw [hn, lines_append_newline]
      exact List.mem_append_left _ h

theorem mem_rstrip_lines {s l : List Char} (h : l ∈ lines s) (hne : l ≠ []) :
    l ∈ lines (rstripNewlines s ++ ['\n']) := by
  have hnone : ∀ n, l ∉ lines (List.replicate n '\n') := by
    intro n
    induction n with
    | zero => exact List.not_mem_nil
    | succ n ih =>
        rw [List.replicate_succ, lines_newline, List.mem_cons, not_or]
        exact ⟨hne, ih⟩
  obtain ⟨n, hn⟩ := rstripNewlines_eq s
  cases n with
  | zero =>
      rw [List.replicate_zero, List.append_nil] at hn
      rw [← hn]
      obtain heq | heq := lines_snoc_newline s
      · rwa [heq]
      · rw [heq]
        exact List.mem_append_left _ h
  | succ n =>
      rw [hn, List.replicate_succ, lines_append_newline, List.mem_append] at h
      exact h.resolve_right (hnone n)

/-- Whole lines behind the beginning of a line. -/
theorem lines_block {m : List Char} {blk : List (List Char)} (hblk : ∀ l ∈ blk, Unbroken l)
    (s t : List Char) :
    lines (s ++ unlines (m :: blk) ++ t) = lines (s ++ m ++ ['\n']) ++ blk ++ lines t := by
  have hsplit : s ++ unlines (m :: blk) ++ t = (s ++ m) ++ '\n' :: (unlines blk ++ t) := by simp
  rw [hsplit, lines_append_newline, lines_append (ended_unlines blk), lines_unlines hblk]
  exact (List.append_assoc _ _ _).symm

/-! ## Parts of a text -/

/-- A part without the character `c` lies on one side of it. -/
theorem infix_of_append_cons {c : Char} {m s t : List Char} (hc : c ∉ m)
    (h : m <:+: s ++ c :: t) : m <:+: s ∨ m <:+: t := by
  induction s with
  | nil =>
      rw [List.nil_append, List.infix_cons_iff] at h
      obtain h | h := h
      · cases m with
        | nil => exact .inr List.nil_infix
        | cons d m =>
            have hd := (List.cons_prefix_cons.mp h).1
            exact absurd (hd ▸ List.mem_cons_self) hc
      · exact .inr h
  | cons d s ih =>
      rw [List.cons_append, List.infix_cons_iff] at h
      obtain h | h := h
      · -- it begins at the first character, and cannot reach `c`
        left
        by_cases hlen : m.length ≤ (d :: s).length
        · exact (List.prefix_of_prefix_length_le h ⟨c :: t, rfl⟩ hlen).isInfix
        · have hmem : (d :: s) ++ [c] <+: m := by
            refine List.prefix_of_prefix_length_le ⟨t, by simp⟩ h ?_
            simp at hlen ⊢
            omega
          exact absurd (hmem.subset (by simp)) hc
      · exact (ih h).imp (fun h => h.trans (List.suffix_cons d s).isInfix) id

/-- A part that begins with `c` does not begin in a text without `c`. -/
theorem infix_of_append {c : Char} {m s t : List Char} (hs : c ∉ s) (h : c :: m <:+: s ++ t) :
    c :: m <:+: t := by
  induction s with
  | nil => exact h
  | cons d s ih =>
      rw [List.mem_cons, not_or] at hs
      rw [List.cons_append, List.infix_cons_iff] at h
      obtain h | h := h
      · exact absurd (List.cons_prefix_cons.mp h).1 hs.1
      · exact ih hs.2 h

/-- A part of one line does not reach over the end of whole lines. -/
theorem not_infix_append {m s t : List Char} (hs : Ended s) (hm : '\n' ∉ m)
    (h : ¬ m <:+: s) (h' : ¬ m <:+: t) : ¬ m <:+: s ++ t := by
  obtain rfl | ⟨u, rfl⟩ := hs
  · exact h'
  · rw [List.append_assoc]
    intro hmt
    obtain hmt | hmt := infix_of_append_cons hm hmt
    · exact h (hmt.trans (List.prefix_append _ _).isInfix)
    · exact h' hmt

theorem exists_line_of_infix {m : List Char} (hne : m ≠ []) (hm : '\n' ∉ m)
    {ls : List (List Char)} (h : m <:+: unlines ls) : ∃ l ∈ ls, m <:+: l := by
  induction ls with
  | nil => exact absurd (List.infix_nil.mp h) hne
  | cons l ls ih =>
      rw [unlines_cons] at h
      obtain h | h := infix_of_append_cons hm h
      · exact ⟨l, List.mem_cons_self, h⟩
      · obtain ⟨l', hl', hml⟩ := ih h
        exact ⟨l', List.mem_cons_of_mem _ hl', hml⟩

theorem infix_unlines {ls : List (List Char)} {l : List Char} (h : l ∈ ls) : l <:+: unlines ls := by
  have hflat : l ++ ['\n'] <:+: unlines ls :=
    List.infix_of_mem_flatten (List.mem_map.mpr ⟨l, h, rfl⟩)
  exact (List.prefix_append _ _).isInfix.trans hflat

/-! ## Files in text mode -/

theorem universalNewlines_append {s : List Char} (h : '\r' ∉ s) (t : List Char) :
    universalNewlines (s ++ t) = s ++ universalNewlines t := by
  induction s with
  | nil => rfl
  | cons c s ih =>
      rw [List.mem_cons, not_or] at h
      rw [List.cons_append, universalNewlines, if_neg (Ne.symm h.1), ih h.2, List.cons_append]
      rintro t rfl
      exact absurd rfl h.1

theorem universalNewlines_eq {s : List Char} (h : '\r' ∉ s) : universalNewlines s = s := by
  simpa [universalNewlines] using universalNewlines_append h []

theorem not_mem_universalNewlines (s : List Char) : '\r' ∉ universalNewlines s := by
  induction s using universalNewlines.induct with
  | case1 => exact List.not_mem_nil
  | case2 s ih =>
      rw [universalNewlines, List.mem_cons, not_or]
      exact ⟨by decide, ih⟩
  | case3 c s hc ih =>
      rw [universalNewlines, List.mem_cons, not_or]
      · refine ⟨?_, ih⟩
        split
        · decide
        · exact Ne.symm ‹_›
      · exact hc

theorem not_mem_unlines {c : Char} (hc : c ≠ '\n') {ls : List (List Char)}
    (h : ∀ l ∈ ls, c ∉ l) : c ∉ unlines ls := by
  intro hmem
  obtain ⟨l, hl, hmem⟩ := List.mem_flatMap.mp hmem
  obtain hmem | hmem := List.mem_append.mp hmem
  · exact h l hl hmem
  · exact hc (List.mem_singleton.mp hmem)

end Text
