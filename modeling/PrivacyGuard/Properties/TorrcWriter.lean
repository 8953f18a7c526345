import PrivacyGuard.Model.KillBlock

set_option autoImplicit false

/-! # What becomes of the user's lines in torrc

The writer of the kill switch cuts its earlier block out, drops the port lines and puts a new
block behind the rest. In a file with no block, or with one and no other markers, every other
line of the user stays where it was. A second call finds nothing to do exactly if the first
one has kept no line with a start marker: such a line is taken for the beginning of the
block. -/

namespace PrivacyGuard.Torrc

open Text

/-! ## The user's lines -/

/-- No marker of the kill switch. -/
def Unmarked (u : List Char) : Prop := ¬ killStart <:+: u ∧ ¬ killEnd <:+: u

instance (u : List Char) : Decidable (Unmarked u) := inferInstanceAs (Decidable (_ ∧ _))

/-- The parts of a text that are the user's: all of it, or what stands around the block. -/
inductive UserParts : List Char → List (List Char) → Prop
  | whole {s : List Char} (h : Unmarked s) : UserParts s [s]
  | around {u₁ u₂ : List Char} (hu : Ended u₁) (h₁ : Unmarked u₁) (h₂ : Unmarked u₂) :
      UserParts (u₁ ++ killBlock ++ u₂) [u₁, u₂]

def nonBlank (ls : List (List Char)) : List (List Char) := ls.filter fun l => strip l ≠ []

/-- The lines of a text that are no port lines. -/
def userLines (u : List Char) : List (List Char) :=
  (splitlines u).filter fun line => !isPort line

theorem nonBlank_append (ls ls' : List (List Char)) :
    nonBlank (ls ++ ls') = nonBlank ls ++ nonBlank ls' :=
  List.filter_append ..

theorem nonBlank_lines_killText (s : List Char) :
    nonBlank (lines (killText s)) = nonBlank (userLines (withoutKillBlock s)) ++ killLines := by
  have hempty : decide (strip [] ≠ []) = false := rfl
  have hblock : nonBlank killLines = killLines := by decide
  rw [lines_killText, nonBlank_append, hblock, nonBlank, filter_spaced hempty, keptLines,
    filter_trimLines hempty]
  rfl

/-- Cutting the block out leaves the user's lines, and an empty one in its place. -/
theorem nonBlank_withoutKillBlock {s : List Char} {us : List (List Char)} (hs : '\r' ∉ s)
    (h : UserParts s us) :
    nonBlank (userLines (withoutKillBlock s)) = nonBlank (us.flatMap userLines) := by
  cases h with
  | whole h =>
      rw [withoutKillBlock, if_neg fun hboth => h.1 hboth.1]
      simp
  | @around u₁ u₂ hu h₁ h₂ =>
      have hcr : '\r' ∉ u₁ ∧ '\r' ∉ u₂ := by
        simp only [List.mem_append, not_or] at hs
        exact ⟨hs.1.1, hs.2⟩
      have hcr' : '\r' ∉ u₁ ++ '\n' :: u₂ := by simp [hcr]
      have hlines : userLines (u₁ ++ '\n' :: u₂) = userLines u₁ ++ [] :: userLines u₂ := by
        rw [userLines, splitlines_eq hcr', lines_append hu, lines_newline, List.filter_append,
          List.filter_cons_of_pos (by decide), userLines, userLines, splitlines_eq hcr.1,
          splitlines_eq hcr.2]
      rw [withoutKillBlock_append h₁.1 h₂.2, hlines]
      simp [nonBlank, strip]

/-- **The user's lines stay**, without the port lines and in their order, and the block stands
behind them. The call reports whether the text has changed. -/
theorem lines_written {f : File} {us : List (List Char)} (h : UserParts (readText f) us) :
    nonBlank (splitlines (readText (ensureTransparentProxyTorrc .granted f).2)) =
        nonBlank (us.flatMap userLines) ++ killLines ∧
      ((ensureTransparentProxyTorrc .granted f).1 = true ↔
        readText (ensureTransparentProxyTorrc .granted f).2 ≠ readText f) := by
  refine ⟨?_, ?_⟩
  · rw [splitlines_eq (no_cr_readText _), readText_written, nonBlank_lines_killText,
      nonBlank_withoutKillBlock (no_cr_readText f) h]
  · rw [readText_written, written_iff]

/-- A block of an earlier call between lines of the user. -/
def earlierBlock : File :=
  some ("SocksPort 9050\n".toList ++ killBlock ++ "\nDNSPort 53\nLog notice".toList)

theorem lines_written_earlierBlock :
    nonBlank (splitlines (readText (ensureTransparentProxyTorrc .granted earlierBlock).2)) =
        nonBlank (["SocksPort 9050\n".toList, "\nDNSPort 53\nLog notice".toList].flatMap
          userLines) ++ killLines ∧
      ((ensureTransparentProxyTorrc .granted earlierBlock).1 = true ↔
        readText (ensureTransparentProxyTorrc .granted earlierBlock).2 ≠
          readText earlierBlock) := by
  have hread : readText earlierBlock =
      "SocksPort 9050\n".toList ++ killBlock ++ "\nDNSPort 53\nLog notice".toList :=
    readText_some (by simp [no_cr_killBlock])
  refine lines_written ?_
  rw [hread]
  exact .around (.inr ⟨"SocksPort 9050".toList, rfl⟩) (by decide) (by decide)

/-! ## A second call -/

theorem unchanged_iff (f : File) :
    ensureTransparentProxyTorrc .granted f = (false, f) ↔ killText (readText f) = readText f := by
  rw [ensureTransparentProxyTorrc, if_neg (by decide)]
  split
  · rename_i h
    exact iff_of_true rfl h
  · rename_i h
    rw [if_neg (by decide)]
    exact iff_of_false (fun heq => by cases congrArg Prod.fst heq) h

/-- Every marker of a text that has been written stands on one of its lines. -/
theorem killStart_spaced {s : List Char} :
    killStart <:+: unlines (spaced (keptLines s)) ↔ ∃ l ∈ keptLines s, killStart <:+: l := by
  have hne : killStart ≠ [] := by decide
  refine ⟨?_, ?_⟩
  · intro h
    obtain ⟨l, hl, hml⟩ := exists_line_of_infix hne (by decide) h
    exact ⟨l, (mem_spaced (hml.ne_nil hne)).mp hl, hml⟩
  · rintro ⟨l, hl, hml⟩
    exact hml.trans (infix_unlines ((mem_spaced (hml.ne_nil hne)).mpr hl))

/-- Without a marker in front of it, the block is cut out and put back. -/
theorem killText_again {s : List Char} (h : ∀ l ∈ keptLines s, ¬ killStart <:+: l) :
    killText (killText s) = killText s := by
  have hfront : ¬ killStart <:+: unlines (spaced (keptLines s)) := by
    rw [killStart_spaced]
    rintro ⟨l, hl, hml⟩
    exact h l hl hml
  have hcut : withoutKillBlock (killText s) = unlines (spaced (keptLines s) ++ [[]]) := by
    have hcut := withoutKillBlock_append hfront (b := []) (by decide)
    rw [List.append_nil] at hcut
    rw [killText_eq, unlines_append]
    exact hcut.trans (by simp)
  have hunbroken : ∀ l ∈ spaced (keptLines s) ++ [[]], Unbroken l ∧ isPort l = false := by
    intro l hl
    obtain hl | hl := List.mem_append.mp hl
    · exact mem_spaced_keptLines hl
    · rw [List.mem_singleton.mp hl]
      exact ⟨by decide, rfl⟩
  have hlines : (splitlines (withoutKillBlock (killText s))).filter (fun line => !isPort line) =
      spaced (keptLines s) ++ [[]] := by
    rw [hcut, splitlines_unlines fun l hl => (hunbroken l hl).1, List.filter_eq_self]
    intro l hl
    simp [(hunbroken l hl).2]
  have hkept : keptLines (killText s) = keptLines s := by
    rw [keptLines, hlines, trimLines_spaced, trimLines_keptLines]
  rw [killText_eq (killText s), hkept, ← killText_eq]

/-- A line with a marker is cut out together with all that follows. -/
theorem unmarked_again (s : List Char) : ∀ l ∈ keptLines (killText s), ¬ killStart <:+: l := by
  have hstart : killStart <:+: killText s :=
    ⟨unlines (spaced (keptLines s)), '\n' :: unlines killLines.tail, by
      rw [killText_eq, unlines_append]
      simp [killLines]⟩
  obtain ⟨p, q, hs, hp⟩ := exists_first (by decide) hstart
  have hend : killText s = unlines (spaced (keptLines s)) ++ killStart ++
      ('\n' :: unlines (killLines.tail.take 3)) ++ killEnd ++ ['\n'] := by
    rw [killText_eq, unlines_append]
    show _ ++ killBlock = _
    rw [killBlock_eq]
    simp only [List.append_assoc]
  have hcut := withoutKillBlock_of_cut hs hp hend (by decide)
  intro l hl hml
  have hmem : l ∈ splitlines (withoutKillBlock (killText s)) :=
    List.mem_of_mem_filter (trimLines_subset _ hl)
  have hcr : '\r' ∉ p ++ ['\n'] := by
    have hread := no_cr_killText s
    rw [hs] at hread
    simp only [List.mem_append, not_or] at hread ⊢
    exact ⟨hread.1.1, by decide⟩
  rw [hcut, splitlines_eq hcr] at hmem
  obtain h | h := infix_of_append_cons (by decide) (hml.trans (infix_of_mem_lines hmem))
  · exact hp h
  · exact absurd h (by decide)

theorem killText_again_iff {s : List Char} :
    killText (killText s) = killText s ↔ ∀ l, Kept s l → ¬ killStart <:+: l := by
  have hne : ∀ {l : List Char}, killStart <:+: l → l ≠ [] := fun hml => hml.ne_nil (by decide)
  refine ⟨?_, ?_⟩
  · intro h l hl hml
    have hlines := congrArg lines h
    rw [lines_killText, lines_killText] at hlines
    have hmem : l ∈ spaced (keptLines s) :=
      (mem_spaced (hne hml)).mpr ((mem_keptLines (hne hml)).mpr hl)
    rw [← List.append_cancel_right hlines, mem_spaced (hne hml)] at hmem
    exact unmarked_again s l hmem hml
  · intro h
    refine killText_again fun l hl hml => ?_
    exact h l ((mem_keptLines (hne hml)).mp hl) hml

/-- **A second call has nothing to do** if and only if the first one has kept no line with a
start marker. -/
theorem settled_iff (f : File) :
    ensureTransparentProxyTorrc .granted (ensureTransparentProxyTorrc .granted f).2 =
        (false, (ensureTransparentProxyTorrc .granted f).2) ↔
      ∀ l, Kept (readText f) l → ¬ killStart <:+: l := by
  rw [unchanged_iff, readText_written, killText_again_iff]

/-- A start marker whose end marker has been deleted. -/
def halfBlock : File := some (unlines [killStart, "SocksPort 9050".toList])

/-- The second call takes the user's line for a part of the block. -/
theorem not_settled :
    ¬ ∀ f : File, ensureTransparentProxyTorrc .granted
        (ensureTransparentProxyTorrc .granted f).2 =
      (false, (ensureTransparentProxyTorrc .granted f).2) := by
  intro h
  exact absurd (congrArg Prod.fst (h halfBlock)) (by decide +kernel)

end PrivacyGuard.Torrc
