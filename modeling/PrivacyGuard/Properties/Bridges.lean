import PrivacyGuard.Properties.PortConflict
import PrivacyGuard.Properties.TorrcWriter
import PrivacyGuard.Text.Words

set_option autoImplicit false

/-! # Bridges in torrc

`configure_bridges` drops the bridge lines of a text and appends its own. It does not touch the
lines of the kill switch, nor does the kill switch touch the bridge lines: but for the order of
the two groups, it does not matter which is written first. Bridge lines of an earlier call are
found again unless the text behind the keyword was blank, or had other line ends than newlines
in it. -/

namespace PrivacyGuard.Torrc

open Text

/-! ## The file that is written -/

theorem configureBridges_granted {bs : List (List Char)} (hne : bs ≠ []) (f : File) :
    configureBridges .granted bs f = some (unlines (bridgedLines bs (readText f))) := by
  have hlines : bridgedLines bs (readText f) ≠ [] := by simp [bridgedLines]
  rw [configureBridges, if_neg hne, if_pos rfl, joinLines_newline hlines]

theorem mem_bridgedLines {bs : List (List Char)} {s l : List Char} :
    l ∈ bridgedLines bs s ↔ l ∈ withoutBridges (splitlines s) ∨ l = "UseBridges 1".toList ∨
      ∃ b ∈ bs, bridgeLine b = l := by
  rw [bridgedLines, List.mem_append, List.mem_cons, List.mem_map]

theorem withoutBridges_append (ls ls' : List (List Char)) :
    withoutBridges (ls ++ ls') = withoutBridges ls ++ withoutBridges ls' :=
  List.filter_append ..

/-! ## Either order -/

/-- A bridge line with something in it, on one line and without a marker. -/
structure UsableBridge (b : List Char) : Prop where
  nonBlank : ∃ c ∈ b, isSpace c = false
  unbroken : Unbroken b
  unmarked : Unmarked b

/-- The lines of bridges and of the kill switch in a text are those that the two functions
write. -/
structure SetUp (bs : List (List Char)) (s : List Char) : Prop where
  bridges : (splitlines s).filter (startsWith ["Bridge ".toList]) = bs.map bridgeLine
  useBridges : (splitlines s).filter (startsWith ["UseBridges".toList]) = ["UseBridges 1".toList]
  transPort : (splitlines s).filter (startsWith [transPort]) = ["TransPort 127.0.0.1:9040".toList]
  dnsPort : (splitlines s).filter (startsWith [dnsPort]) = ["DNSPort 127.0.0.1:5353".toList]

/-- The lines that `configure_bridges` appends. -/
def newBridges (bs : List (List Char)) : List (List Char) :=
  "UseBridges 1".toList :: bs.map bridgeLine

/-- The non-blank lines of a text that stay when both functions rewrite it. -/
def leftLines (s : List Char) : List (List Char) := withoutBridges (nonBlank (userLines s))

theorem UsableBridge.strip_ne {b : List Char} (h : UsableBridge b) : strip b ≠ [] := by
  obtain ⟨c, hc, hspace⟩ := h.nonBlank
  intro hnil
  rw [strip_eq_nil.mp hnil c hc] at hspace
  cases hspace

theorem strip_bridgeLine {b : List Char} (h : strip b ≠ []) :
    strip (bridgeLine b) = bridgeLine b := by
  obtain ⟨-, t, d, ht, hd⟩ := strip_ends h
  have hB : isSpace 'B' = false := by decide
  have hline : bridgeLine b = 'B' :: ("ridge ".toList ++ t ++ [d]) := by
    calc bridgeLine b = "Bridge ".toList ++ (t ++ [d]) := congrArg _ ht
      _ = 'B' :: ("ridge ".toList ++ t ++ [d]) := by simp
  rw [hline, strip_eq hB hd]

/-- What the line tests say about a line of `configure_bridges`. -/
theorem startsWith_bridgeLine {b : List Char} (h : strip b ≠ []) :
    startsWith ["Bridge ".toList] (bridgeLine b) = true ∧
      startsWith ["UseBridges".toList] (bridgeLine b) = false := by
  constructor
  · rw [startsWith, List.any_cons, strip_bridgeLine h, List.any_nil, Bool.or_false,
      List.isPrefixOf_iff_prefix]
    exact List.prefix_append _ _
  · rw [Bool.eq_false_iff]
    intro h'
    have hkw : [] ∉ ["UseBridges".toList] := by decide
    have hhead := head_of_startsWith hkw h'
    rw [strip_bridgeLine h] at hhead
    cases List.mem_singleton.mp hhead

theorem nonBlank_of_startsWith {kw l : List Char} (hkw : kw ≠ []) (h : startsWith [kw] l = true) :
    strip l ≠ [] := by
  intro hnil
  rw [startsWith, List.any_cons, hnil, List.any_nil, Bool.or_false, List.isPrefixOf_iff_prefix,
    List.prefix_nil] at h
  exact hkw h

/-- A line test sees only the lines that are not blank. -/
theorem filter_nonBlank {kw : List Char} (hkw : kw ≠ []) (ls : List (List Char)) :
    (nonBlank ls).filter (startsWith [kw]) = ls.filter (startsWith [kw]) := by
  rw [nonBlank, List.filter_filter]
  refine List.filter_congr ?_
  intro l _
  by_cases h : startsWith [kw] l = true
  · simp [h, nonBlank_of_startsWith hkw h]
  · simp [h]

/-- `kw` is tested for by one of the two functions and marks lines of one of the two groups. -/
theorem setUp_filter {kw : List Char} (hkw : kw ≠ []) {s : List Char} {A B K : List (List Char)}
    (hlines : nonBlank (splitlines s) = A ++ (B ++ K) ∨ nonBlank (splitlines s) = A ++ (K ++ B))
    (hA : A.filter (startsWith [kw]) = [])
    (hone : B.filter (startsWith [kw]) = [] ∨ K.filter (startsWith [kw]) = []) :
    (splitlines s).filter (startsWith [kw]) =
      B.filter (startsWith [kw]) ++ K.filter (startsWith [kw]) := by
  rw [← filter_nonBlank hkw]
  obtain h | h := hlines
  · simp only [h, List.filter_append, hA, List.nil_append]
  · obtain hB | hK := hone
    · simp only [h, List.filter_append, hA, hB, List.nil_append, List.append_nil]
    · simp only [h, List.filter_append, hA, hK, List.nil_append, List.append_nil]

theorem leftLines_filter {kw : List Char}
    (hkw : kw ∈ [transPort, dnsPort, "UseBridges".toList, "Bridge ".toList]) (s : List Char) :
    (leftLines s).filter (startsWith [kw]) = [] := by
  rw [List.filter_eq_nil_iff]
  intro l hl h
  obtain ⟨hl, hbridge⟩ := List.mem_filter.mp hl
  have hport := (List.mem_filter.mp (List.mem_of_mem_filter hl)).2
  simp only [isPort, isBridge, startsWith, List.any_cons, List.any_nil, Bool.or_false,
    Bool.not_eq_true', Bool.or_eq_false_iff] at h hport hbridge
  simp only [List.mem_cons, List.not_mem_nil, or_false] at hkw
  obtain rfl | rfl | rfl | rfl := hkw
  · cases hport.1.symm.trans h
  · cases hport.2.symm.trans h
  · cases hbridge.1.symm.trans h
  · cases hbridge.2.symm.trans h

theorem killLines_filter :
    killLines.filter (startsWith ["Bridge ".toList]) = [] ∧
      killLines.filter (startsWith ["UseBridges".toList]) = [] ∧
      killLines.filter (startsWith [transPort]) = ["TransPort 127.0.0.1:9040".toList] ∧
      killLines.filter (startsWith [dnsPort]) = ["DNSPort 127.0.0.1:5353".toList] := by
  decide +kernel

theorem newBridges_noPorts {bs : List (List Char)} {l : List Char} (hl : l ∈ newBridges bs) :
    isPort l = false := by
  obtain rfl | hl := List.mem_cons.mp hl
  · decide +kernel
  · obtain ⟨b, -, rfl⟩ := List.mem_map.mp hl
    exact isPort_bridgeLine b

theorem newBridges_filter_port {bs : List (List Char)} {kw : List Char}
    (hkw : kw ∈ [transPort, dnsPort]) : (newBridges bs).filter (startsWith [kw]) = [] := by
  rw [List.filter_eq_nil_iff]
  intro l hl h
  have hno := newBridges_noPorts hl
  simp only [isPort, startsWith, List.any_cons, List.any_nil, Bool.or_false,
    Bool.or_eq_false_iff] at h hno
  simp only [List.mem_cons, List.not_mem_nil, or_false] at hkw
  obtain rfl | rfl := hkw
  · cases hno.1.symm.trans h
  · cases hno.2.symm.trans h

section

variable {bs : List (List Char)} (hbs : ∀ b ∈ bs, strip b ≠ [])

include hbs

theorem newBridges_filter :
    (newBridges bs).filter (startsWith ["Bridge ".toList]) = bs.map bridgeLine ∧
      (newBridges bs).filter (startsWith ["UseBridges".toList]) = ["UseBridges 1".toList] := by
  have huse : startsWith ["Bridge ".toList] "UseBridges 1".toList = false ∧
      startsWith ["UseBridges".toList] "UseBridges 1".toList = true := by decide +kernel
  constructor
  · rw [newBridges, List.filter_cons_of_neg (Bool.eq_false_iff.mp huse.1), List.filter_eq_self]
    intro l hl
    obtain ⟨b, hb, rfl⟩ := List.mem_map.mp hl
    exact (startsWith_bridgeLine (hbs b hb)).1
  · rw [newBridges, List.filter_cons_of_pos huse.2]
    have hnone : (bs.map bridgeLine).filter (startsWith ["UseBridges".toList]) = [] := by
      rw [List.filter_eq_nil_iff]
      intro l hl
      obtain ⟨b, hb, rfl⟩ := List.mem_map.mp hl
      exact Bool.eq_false_iff.mp (startsWith_bridgeLine (hbs b hb)).2
    rw [hnone]

theorem setUp_of_lines {s t : List Char} (hlines :
    nonBlank (splitlines s) = leftLines t ++ (newBridges bs ++ killLines) ∨
      nonBlank (splitlines s) = leftLines t ++ (killLines ++ newBridges bs)) : SetUp bs s := by
  obtain ⟨hbridge, huse⟩ := newBridges_filter hbs
  obtain ⟨hbridge', huse', htrans, hdns⟩ := killLines_filter
  refine ⟨?_, ?_, ?_, ?_⟩
  · rw [setUp_filter (by decide) hlines (leftLines_filter (by simp) t) (.inr hbridge'), hbridge,
      hbridge', List.append_nil]
  · rw [setUp_filter (by decide) hlines (leftLines_filter (by simp) t) (.inr huse'), huse, huse',
      List.append_nil]
  · have hno : (newBridges bs).filter (startsWith [transPort]) = [] :=
      newBridges_filter_port (by simp)
    rw [setUp_filter (by decide) hlines (leftLines_filter (by simp) t) (.inl hno), hno, htrans,
      List.nil_append]
  · have hno : (newBridges bs).filter (startsWith [dnsPort]) = [] :=
      newBridges_filter_port (by simp)
    rw [setUp_filter (by decide) hlines (leftLines_filter (by simp) t) (.inl hno), hno, hdns,
      List.nil_append]

end

section

variable {f : File} {bs : List (List Char)} (hf : Unmarked (readText f))
  (hbs : ∀ b ∈ bs, UsableBridge b)

theorem withoutKillBlock_of_unmarked {s : List Char} (h : ¬ killStart <:+: s) :
    withoutKillBlock s = s := if_neg fun hboth => h hboth.1

/-- What the writer leaves of a text without its marks, and its own lines. -/
theorem nonBlank_killText_of_unmarked {s : List Char} (h : ¬ killStart <:+: s) :
    nonBlank (splitlines (killText s)) = nonBlank (userLines s) ++ killLines := by
  rw [splitlines_eq (no_cr_killText s), nonBlank_lines_killText, withoutKillBlock_of_unmarked h]

include hbs

theorem unbroken_bridgedLines (s : List Char) : ∀ l ∈ bridgedLines bs s, Unbroken l := by
  intro l hl
  obtain hl | rfl | ⟨b, hb, rfl⟩ := mem_bridgedLines.mp hl
  · exact unbroken_of_mem_lines (List.mem_of_mem_filter hl)
  · decide +kernel
  · exact unbroken_bridgeLine (hbs b hb).unbroken

theorem bridgedLines_unmarked {s : List Char} (hs : '\r' ∉ s) (h : ¬ killStart <:+: s) :
    ¬ killStart <:+: unlines (bridgedLines bs s) := by
  intro hmark
  obtain ⟨l, hl, hml⟩ := exists_line_of_infix (by decide) (by decide) hmark
  obtain hl | rfl | ⟨b, hb, rfl⟩ := mem_bridgedLines.mp hl
  · rw [splitlines_eq hs] at hl
    exact h (hml.trans (infix_of_mem_lines (List.mem_of_mem_filter hl)))
  · exact absurd hml (by decide +kernel)
  · have hstrip : killStart <:+: strip b := infix_of_append (by decide) hml
    exact (hbs b hb).unmarked.1 (hstrip.trans (strip_part b))

theorem readText_bridged (s : List Char) :
    readText (some (unlines (bridgedLines bs s))) = unlines (bridgedLines bs s) :=
  readText_some (no_cr_unlines (unbroken_bridgedLines hbs s))

theorem splitlines_bridged (s : List Char) :
    splitlines (unlines (bridgedLines bs s)) = bridgedLines bs s :=
  splitlines_unlines (unbroken_bridgedLines hbs s)

theorem nonBlank_newBridges : nonBlank (newBridges bs) = newBridges bs := by
  rw [nonBlank, List.filter_eq_self]
  intro l hl
  obtain rfl | hl := List.mem_cons.mp hl
  · decide +kernel
  · obtain ⟨b, hb, rfl⟩ := List.mem_map.mp hl
    have hline : bridgeLine b ≠ [] := List.append_ne_nil_of_left_ne_nil (by decide) _
    rw [decide_eq_true_iff, strip_bridgeLine (hbs b hb).strip_ne]
    exact hline

omit hbs in
theorem nonBlank_withoutBridges (ls : List (List Char)) :
    nonBlank (withoutBridges ls) = withoutBridges (nonBlank ls) := by
  simp only [nonBlank, withoutBridges, List.filter_filter, Bool.and_comm]

include hf

theorem nonBlank_bridges_kill (hne : bs ≠ []) :
    nonBlank (splitlines (readText
        (ensureTransparentProxyTorrc .granted (configureBridges .granted bs f)).2)) =
      leftLines (readText f) ++ (newBridges bs ++ killLines) := by
  have hmark := bridgedLines_unmarked hbs (no_cr_readText f) hf.1
  have huser : userLines (unlines (bridgedLines bs (readText f))) =
      withoutBridges (userLines (readText f)) ++ newBridges bs := by
    have hnew : (newBridges bs).filter (fun line => !isPort line) = newBridges bs := by
      rw [List.filter_eq_self]
      intro l hl
      rw [newBridges_noPorts hl]
      rfl
    rw [userLines, splitlines_bridged hbs, bridgedLines, List.filter_append, ← newBridges, hnew]
    simp only [userLines, withoutBridges, List.filter_filter, Bool.and_comm]
  rw [readText_written, configureBridges_granted hne, readText_bridged hbs,
    nonBlank_killText_of_unmarked hmark, huser, nonBlank_append, nonBlank_newBridges hbs,
    nonBlank_withoutBridges, ← leftLines, List.append_assoc]

theorem nonBlank_kill_bridges (hne : bs ≠ []) :
    nonBlank (splitlines (readText
        (configureBridges .granted bs (ensureTransparentProxyTorrc .granted f).2))) =
      leftLines (readText f) ++ (killLines ++ newBridges bs) := by
  have hkeep : withoutBridges killLines = killLines := by
    rw [withoutBridges, List.filter_eq_self]
    intro l hl
    rw [killLines_keep l hl]
    rfl
  rw [configureBridges_granted hne, readText_written, readText_bridged hbs,
    splitlines_bridged hbs, bridgedLines, ← newBridges, nonBlank_append, nonBlank_newBridges hbs,
    nonBlank_withoutBridges, nonBlank_killText_of_unmarked hf.1, withoutBridges_append, hkeep,
    ← leftLines, List.append_assoc]

/-- **Bridges and the kill switch in either order.** The files have the same lines, but for their
order and blank ones, and in both of them stand the lines of the two functions and no others of
the kind. -/
theorem bridges_kill_perm (hne : bs ≠ []) :
    (nonBlank (splitlines (readText
        (ensureTransparentProxyTorrc .granted (configureBridges .granted bs f)).2))).Perm
      (nonBlank (splitlines (readText
        (configureBridges .granted bs (ensureTransparentProxyTorrc .granted f).2)))) ∧
    SetUp bs (readText
      (ensureTransparentProxyTorrc .granted (configureBridges .granted bs f)).2) ∧
    SetUp bs (readText
      (configureBridges .granted bs (ensureTransparentProxyTorrc .granted f).2)) := by
  have hfirst := nonBlank_bridges_kill hf hbs hne
  have hsecond := nonBlank_kill_bridges hf hbs hne
  have hstrip : ∀ b ∈ bs, strip b ≠ [] := fun b hb => (hbs b hb).strip_ne
  refine ⟨?_, setUp_of_lines hstrip (.inl hfirst), setUp_of_lines hstrip (.inr hsecond)⟩
  rw [hfirst, hsecond]
  exact List.perm_append_comm.append_left _

end

def someBridge : List Char := "obfs4 192.0.2.1:443 iat-mode=0".toList

theorem usable_someBridge : UsableBridge someBridge where
  nonBlank := ⟨'o', by decide, by decide⟩
  unbroken := by decide
  unmarked := by decide

theorem bridges_kill_perm_socksOnly :
    (nonBlank (splitlines (readText (ensureTransparentProxyTorrc .granted
        (configureBridges .granted [someBridge] socksOnly)).2))).Perm
      (nonBlank (splitlines (readText (configureBridges .granted [someBridge]
        (ensureTransparentProxyTorrc .granted socksOnly).2)))) ∧
    SetUp [someBridge] (readText (ensureTransparentProxyTorrc .granted
      (configureBridges .granted [someBridge] socksOnly)).2) ∧
    SetUp [someBridge] (readText (configureBridges .granted [someBridge]
      (ensureTransparentProxyTorrc .granted socksOnly).2)) := by
  refine bridges_kill_perm (by decide) ?_ (List.cons_ne_nil _ _)
  intro b hb
  rw [List.mem_singleton.mp hb]
  exact usable_someBridge

/-! ## Other bridges -/

/-- The text is not blank, and what `splitlines` takes for further lines in it are bridge lines as
well. -/
def Recognised (b : List Char) : Prop :=
  strip b ≠ [] ∧ ∀ l ∈ (lines (strip b)).tail, isBridge l = true

instance (b : List Char) : Decidable (Recognised b) := inferInstanceAs (Decidable (_ ∧ _))

/-- A line with the keyword and a word behind it. -/
theorem isBridge_keyword {c : Char} (hc : isSpace c = false) (t : List Char) :
    isBridge ("Bridge ".toList ++ c :: t) = true := by
  have hleft : ("Bridge ".toList ++ c :: t).dropWhile isSpace = "Bridge ".toList ++ c :: t := rfl
  have hpre : "Bridge ".toList <+: strip ("Bridge ".toList ++ c :: t) := by
    rw [strip, hleft]
    exact (List.prefix_append _ [c]).trans (prefix_rdropWhile hc _ t)
  rw [isBridge, startsWith, List.any_eq_true]
  exact ⟨_, List.mem_cons_of_mem _ List.mem_cons_self, List.isPrefixOf_iff_prefix.mpr hpre⟩

theorem withoutBridges_cons {l : List Char} (hl : isBridge l = true) (ls : List (List Char)) :
    withoutBridges (l :: ls) = withoutBridges ls :=
  List.filter_cons_of_neg (by simp [hl])

theorem withoutBridges_eq_nil {ls : List (List Char)} :
    withoutBridges ls = [] ↔ ∀ l ∈ ls, isBridge l = true := by
  simp [withoutBridges, List.filter_eq_nil_iff]

/-- Of a line that has been written, the lines that are read again are all dropped. -/
theorem recognised_iff (b : List Char) :
    withoutBridges (lines (bridgeLine b ++ ['\n'])) = [] ↔ Recognised b := by
  have hkw : Unbroken "Bridge ".toList := by decide
  by_cases hb : strip b = []
  · have hline : bridgeLine b = "Bridge ".toList := by
      calc bridgeLine b = "Bridge ".toList ++ [] := congrArg _ hb
        _ = "Bridge ".toList := List.append_nil _
    have hlines : lines ("Bridge ".toList ++ ['\n']) = ["Bridge ".toList] := lines_unbroken hkw []
    rw [hline, hlines]
    exact iff_of_false (by decide) fun h => h.1 hb
  · obtain ⟨⟨c, t, ht, hc⟩, u, d, hu, hd⟩ := strip_ends hb
    have hend : lines (strip b ++ ['\n']) = lines (strip b) := by
      rw [hu, lines_newline_of_last (isSpace_of_isBreak hd)]
    have hfirst : ∃ m ls, lines (strip b) = (c :: m) :: ls := by
      rw [ht, lines_cons (isSpace_of_isBreak hc)]
      cases lines t with
      | nil => exact ⟨_, _, rfl⟩
      | cons m ls => exact ⟨_, _, rfl⟩
    obtain ⟨m, ls, hls⟩ := hfirst
    have hlines : lines (bridgeLine b ++ ['\n']) = ("Bridge ".toList ++ c :: m) :: ls := by
      unfold bridgeLine
      rw [List.append_assoc]
      exact lines_prepend hkw (hend.trans hls)
    rw [hlines, withoutBridges_eq_nil, List.forall_mem_cons, Recognised, hls]
    exact and_congr_left' (iff_of_true (isBridge_keyword hc m) hb)

/-- What the second call finds of the lines of the first one. -/
def leftover (bs : List (List Char)) : List (List Char) :=
  withoutBridges (lines (unlines (bs.map bridgeLine)))

theorem leftover_eq_nil {bs : List (List Char)} :
    leftover bs = [] ↔ ∀ b ∈ bs, Recognised b := by
  rw [leftover, lines_flatMap, withoutBridges_eq_nil]
  simp only [← recognised_iff, withoutBridges_eq_nil, List.mem_flatMap, List.mem_map]
  constructor
  · intro h b hb l hl
    exact h l ⟨_, ⟨b, hb, rfl⟩, hl⟩
  · rintro h l ⟨_, ⟨b, hb, rfl⟩, hl⟩
    exact h b hb l hl

theorem bridgedLines_again {bs bs' : List (List Char)} (hbs : ∀ b ∈ bs, '\r' ∉ b)
    (s : List Char) :
    bridgedLines bs' (readText (some (unlines (bridgedLines bs s)))) =
      withoutBridges (splitlines s) ++ (leftover bs ++ newBridges bs') := by
  have hkept : ∀ l ∈ withoutBridges (splitlines s), Unbroken l := fun l hl =>
    unbroken_of_mem_lines (List.mem_of_mem_filter hl)
  have hcr : '\r' ∉ unlines (bridgedLines bs s) := by
    refine not_mem_unlines (by decide) fun l hl => ?_
    obtain hl | rfl | ⟨b, hb, rfl⟩ := mem_bridgedLines.mp hl
    · exact no_cr_of_unbroken (hkept l hl)
    · decide +kernel
    · intro hmem
      obtain hmem | hmem := List.mem_append.mp hmem
      · exact absurd hmem (by decide)
      · exact hbs b hb ((strip_part b).subset hmem)
  have huse : Unbroken "UseBridges 1".toList ∧ isBridge "UseBridges 1".toList = true := by
    decide +kernel
  have hidem : ∀ ls, withoutBridges (withoutBridges ls) = withoutBridges ls := fun ls => by
    simp [withoutBridges, List.filter_filter]
  have hlines : lines (unlines (bridgedLines bs s)) = withoutBridges (splitlines s) ++
      "UseBridges 1".toList :: lines (unlines (bs.map bridgeLine)) := by
    rw [bridgedLines, unlines_append, lines_append (ended_unlines _), lines_unlines hkept,
      unlines_cons, lines_unbroken huse.1]
  rw [readText_some hcr, bridgedLines, splitlines_eq hcr, hlines, ← newBridges,
    withoutBridges_append, withoutBridges_cons huse.2, hidem, ← leftover, List.append_assoc]

/-- **Bridges of an earlier call are replaced** if and only if each of them is recognised. -/
theorem bridges_again_iff {f : File} {bs bs' : List (List Char)} (hbs : ∀ b ∈ bs, '\r' ∉ b)
    (hne : bs' ≠ []) :
    configureBridges .granted bs' (configureBridges .granted bs f) =
        configureBridges .granted bs' f ↔
      ∀ b ∈ bs, Recognised b := by
  by_cases hbs' : bs = []
  · rw [hbs', configureBridges, if_pos rfl]
    exact iff_of_true rfl (by simp)
  · have halone : bridgedLines bs' (readText f) =
        withoutBridges (splitlines (readText f)) ++ newBridges bs' := rfl
    rw [configureBridges_granted hbs', configureBridges_granted hne, configureBridges_granted hne,
      bridgedLines_again hbs, halone, ← leftover_eq_nil, Option.some.injEq]
    constructor
    · intro h
      have hlen := congrArg List.length h
      simp only [unlines_append, List.length_append] at hlen
      have hnil : (unlines (leftover bs)).length = 0 := by omega
      cases hleft : leftover bs with
      | nil => rfl
      | cons l ls => simp [hleft] at hnil
    · intro h
      rw [h, List.nil_append]

theorem bridges_again_iff_socksOnly :
    configureBridges .granted [someBridge] (configureBridges .granted [someBridge] socksOnly) =
      configureBridges .granted [someBridge] socksOnly :=
  (bridges_again_iff (by decide) (List.cons_ne_nil _ _)).mpr (by decide +kernel)

/-- A line with nothing but a blank in it. -/
theorem not_bridges_again :
    ¬ ∀ (f : File) (bs bs' : List (List Char)), bs ≠ [] → bs' ≠ [] →
      (∀ b ∈ bs ++ bs', b ≠ [] ∧ Unbroken b) →
      configureBridges .granted bs' (configureBridges .granted bs f) =
        configureBridges .granted bs' f := by
  intro h
  have heq := h socksOnly [[' ']] [someBridge] (List.cons_ne_nil _ _) (List.cons_ne_nil _ _)
    (by decide)
  exact absurd heq (by decide +kernel)

end PrivacyGuard.Torrc
