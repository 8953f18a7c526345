import PrivacyGuard.Text.Lines
import PrivacyGuard.Text.Split

set_option autoImplicit false

/-! # Texts with managed blocks

A program keeps lines of its own in a text of somebody else's, between lines that mark where they
begin and end. `Laid M keep s U ks` says that the text `s` consists of plain parts and of one
block for each of the kinds `ks`, and that `U` are the lines of the plain parts with `keep`. The
lemmas follow such a text when blocks are cut out and appended and lines are dropped. -/

namespace Text

inductive Side
  | start
  | stop
  deriving DecidableEq

/-- The lines that mark the blocks of different kinds. -/
structure Marks (K : Type) where
  mark : K → Side → List Char
  kinds : List K
  complete : ∀ k, k ∈ kinds
  solid : ∀ k e, Solid (mark k e)
  unbroken : ∀ k e, Unbroken (mark k e)
  apart : ∀ k e k' e', mark k e <:+: mark k' e' → k = k' ∧ e = e'

variable {K : Type} {M : Marks K} {keep : List Char → Bool} {a b s : List Char}
  {blk U V W : List (List Char)} {js ks : List K} {k : K} {e : Side}

theorem Marks.ne_nil (M : Marks K) (k : K) (e : Side) : M.mark k e ≠ [] := by
  obtain ⟨c, m, hm, -⟩ := M.solid k e
  rw [hm]
  exact List.cons_ne_nil c m

theorem Marks.no_newline (M : Marks K) (k : K) (e : Side) : '\n' ∉ M.mark k e := by
  intro h
  cases M.unbroken k e _ h

/-- A text as it is read, without marks. -/
structure Marks.Plain (M : Marks K) (s : List Char) : Prop where
  read : '\r' ∉ s
  unmarked : ∀ k e, ¬ M.mark k e <:+: s

/-- The lines of a block. -/
def Marks.Block (M : Marks K) (k : K) (blk : List (List Char)) : Prop :=
  ∃ mid, blk = M.mark k .start :: mid ++ [M.mark k .stop] ∧
    ∀ l ∈ mid, Unbroken l ∧ ∀ j e, ¬ M.mark j e <:+: l

inductive Laid (M : Marks K) (keep : List Char → Bool) :
    List Char → List (List Char) → List K → Prop
  | plain {s : List Char} (h : M.Plain s) : Laid M keep s ((lines s).filter keep) []
  | block {a s : List Char} {blk U : List (List Char)} {k : K} {ks : List K} (ha : M.Plain a)
      (he : Ended a) (hb : M.Block k blk) (h : Laid M keep s U ks) (hk : k ∉ ks) :
      Laid M keep (a ++ unlines blk ++ s) ((lines a).filter keep ++ U) (k :: ks)

/-! ## Plain texts and blocks -/

namespace Marks

theorem plain_nil (M : Marks K) : M.Plain [] :=
  ⟨List.not_mem_nil, fun k e h => M.ne_nil k e (List.infix_nil.mp h)⟩

theorem Plain.append (ha : M.Plain a) (he : Ended a) (hb : M.Plain b) : M.Plain (a ++ b) where
  read h := (List.mem_append.mp h).elim ha.read hb.read
  unmarked k e := not_infix_append he (M.no_newline k e) (ha.unmarked k e) (hb.unmarked k e)

/-- Lines without marks. -/
theorem plain_unlines {ls : List (List Char)}
    (h : ∀ l ∈ ls, Unbroken l ∧ ∀ k e, ¬ M.mark k e <:+: l) : M.Plain (unlines ls) where
  read := by
    refine not_mem_unlines (by decide) fun l hl hmem => ?_
    cases (h l hl).1 _ hmem
  unmarked k e hmark := by
    obtain ⟨l, hl, hml⟩ := exists_line_of_infix (M.ne_nil k e) (M.no_newline k e) hmark
    exact (h l hl).2 k e hml

theorem Plain.line (h : M.Plain s) {l : List Char} (hl : l ∈ lines s) :
    Unbroken l ∧ ∀ k e, ¬ M.mark k e <:+: l :=
  ⟨unbroken_of_mem_lines hl, fun k e hml => h.unmarked k e (hml.trans (infix_of_mem_lines hl))⟩

theorem plain_newline (M : Marks K) : M.Plain ['\n'] := by
  have h : M.Plain (unlines [[]]) := by
    apply plain_unlines
    intro l hl
    rw [List.mem_singleton.mp hl]
    exact ⟨nofun, M.plain_nil.unmarked⟩
  exact h

theorem Block.unbroken (h : M.Block k blk) {l : List Char} (hl : l ∈ blk) : Unbroken l := by
  obtain ⟨mid, rfl, hmid⟩ := h
  simp only [List.cons_append, List.mem_cons, List.mem_append] at hl
  rcases hl with rfl | hl | rfl | hl
  · exact M.unbroken k .start
  · exact (hmid l hl).1
  · exact M.unbroken k .stop
  · cases hl

/-- The marks of other kinds are not in a block. -/
theorem Block.free {k' : K} (h : M.Block k blk) (hk : k' ≠ k) (e : Side) :
    ¬ M.mark k' e <:+: unlines blk := by
  intro hmark
  obtain ⟨l, hl, hml⟩ := exists_line_of_infix (M.ne_nil k' e) (M.no_newline k' e) hmark
  obtain ⟨mid, rfl, hmid⟩ := h
  simp only [List.cons_append, List.mem_cons, List.mem_append] at hl
  rcases hl with rfl | hl | rfl | hl
  · exact hk (M.apart _ _ _ _ hml).1
  · exact (hmid l hl).2 k' e hml
  · exact hk (M.apart _ _ _ _ hml).1
  · cases hl

/-- Dropping lines that are no marks leaves a block. -/
theorem Block.filter {p : List Char → Bool} (h : M.Block k blk)
    (hp : ∀ e, p (M.mark k e) = true) : M.Block k (blk.filter p) := by
  obtain ⟨mid, rfl, hmid⟩ := h
  refine ⟨mid.filter p, ?_, fun l hl => hmid l (List.mem_of_mem_filter hl)⟩
  simp [hp]

/-- The text of a block, with its marks. -/
theorem Block.text (h : M.Block k blk) : ∃ mid, unlines blk =
    M.mark k .start ++ mid ++ M.mark k .stop ++ ['\n'] := by
  obtain ⟨mid, rfl, -⟩ := h
  refine ⟨'\n' :: unlines mid, ?_⟩
  simp [unlines_append]

end Marks

/-! ## Putting texts together -/

namespace Laid

theorem prepend (ha : M.Plain a) (he : Ended a) (h : Laid M keep b W ks) :
    Laid M keep (a ++ b) ((lines a).filter keep ++ W) ks := by
  cases h with
  | plain hb =>
      rw [← List.filter_append, ← lines_append he]
      exact .plain (ha.append he hb)
  | @block a' s blk U k ks ha' he' hb h hk =>
      have hsplit : a ++ (a' ++ unlines blk ++ s) = (a ++ a') ++ unlines blk ++ s := by simp
      have hfilter : (lines a).filter keep ++ ((lines a').filter keep ++ U) =
          (lines (a ++ a')).filter keep ++ U := by
        rw [lines_append he, List.filter_append, List.append_assoc]
      rw [hsplit, hfilter]
      exact .block (ha.append he ha') (ended_append he he') hb h hk

theorem join (h : Laid M keep a V js) (he : Ended a) (h' : Laid M keep b W ks)
    (hd : ∀ k ∈ js, k ∉ ks) : Laid M keep (a ++ b) (V ++ W) (js ++ ks) := by
  induction h with
  | plain ha => exact prepend ha he h'
  | @block a' s blk U k js ha he' hb _ hk ih =>
      have hs : Ended s := ended_of_append he
      have hrest := ih hs fun j hj => hd j (List.mem_cons_of_mem k hj)
      have hnot : k ∉ js ++ ks := by
        rw [List.mem_append, not_or]
        exact ⟨hk, hd k List.mem_cons_self⟩
      have hblock := Laid.block ha he' hb hrest hnot
      simpa only [List.append_assoc, List.cons_append] using hblock

theorem of_block (hb : M.Block k blk) : Laid M keep (unlines blk) [] [k] := by
  have h : Laid M keep ([] ++ unlines blk ++ []) _ [k] :=
    .block M.plain_nil (.inl rfl) hb (.plain M.plain_nil) List.not_mem_nil
  rwa [List.append_nil, List.nil_append] at h

theorem nodup (h : Laid M keep s U ks) : ks.Nodup := by
  induction h with
  | plain _ => exact List.nodup_nil
  | block _ _ _ _ hk ih => exact List.nodup_cons.mpr ⟨hk, ih⟩

theorem no_cr (h : Laid M keep s U ks) : '\r' ∉ s := by
  induction h with
  | plain h => exact h.read
  | @block a s blk U k ks ha _ hb _ _ ih =>
      have hblock : '\r' ∉ unlines blk := by
        refine not_mem_unlines (by decide) fun l hl hmem => ?_
        cases hb.unbroken hl _ hmem
      simp [ha.read, hblock, ih]

/-! ## Cutting a block out -/

/-- Without a block of the kind, its marks are not in the text. -/
theorem free (h : Laid M keep s U ks) (hk : k ∉ ks) (e : Side) : ¬ M.mark k e <:+: s := by
  induction h with
  | plain h => exact h.unmarked k e
  | @block a s blk U j ks ha he hb _ _ ih =>
      rw [List.mem_cons, not_or] at hk
      have hend := ended_append he (ended_unlines blk)
      have hfront := not_infix_append he (M.no_newline k e) (ha.unmarked k e) (hb.free hk.1 e)
      exact not_infix_append hend (M.no_newline k e) hfront (ih hk.2)

theorem split (h : Laid M keep s U ks) (hk : k ∈ ks) :
    ∃ a blk b V W js js', s = a ++ unlines blk ++ b ∧ Ended a ∧ M.Block k blk ∧
      Laid M keep a V js ∧ Laid M keep b W js' ∧ U = V ++ W ∧ ks = js ++ k :: js' := by
  induction h with
  | plain _ => cases hk
  | @block a s blk U j ks ha he hb h hj ih =>
      rcases List.mem_cons.mp hk with rfl | hk
      · exact ⟨a, blk, s, _, U, [], ks, rfl, he, hb, .plain ha, h, rfl, rfl⟩
      · obtain ⟨a', blk', b, V, W, js, js', rfl, he', hb', hV, hW, rfl, rfl⟩ := ih hk
        have hnot : j ∉ js := fun hmem => hj (List.mem_append_left _ hmem)
        refine ⟨a ++ unlines blk ++ a', blk', b, (lines a).filter keep ++ V, W, j :: js, js', ?_,
          ?_, hb', .block ha he hb hV hnot, hW, by simp, rfl⟩
        · simp
        · exact ended_append (ended_append he (ended_unlines blk)) he'

/-- A block has both its marks. -/
theorem has_mark (h : Laid M keep s U ks) (hk : k ∈ ks) (e : Side) : M.mark k e <:+: s := by
  obtain ⟨a, blk, b, V, W, js, js', rfl, -, hb, -, -, -, -⟩ := h.split hk
  obtain ⟨mid, hmid⟩ := hb.text
  rw [hmid]
  cases e with
  | start => exact ⟨a, mid ++ M.mark k .stop ++ ['\n'] ++ b, by simp⟩
  | stop => exact ⟨a ++ M.mark k .start ++ mid, ['\n'] ++ b, by simp⟩

/-- **A block is found by its marks**: what stands in front of the first start mark and behind
the last stop mark is laid out as before. -/
theorem cut (hkeep : keep [] = false) (h : Laid M keep s U ks) (hk : k ∈ ks) :
    ∃ V W js js', Ended (splitFirst (M.mark k .start) s) ∧
      Laid M keep (splitFirst (M.mark k .start) s) V js ∧
      Laid M keep (splitLast (M.mark k .stop) s) W js' ∧ U = V ++ W ∧
      (js ++ k :: js').Nodup := by
  have hnodup := h.nodup
  obtain ⟨a, blk, b, V, W, js, js', rfl, he, hb, hV, hW, rfl, rfl⟩ := h.split hk
  obtain ⟨-, hright, hdisj⟩ := List.nodup_append.mp hnodup
  have hnot : k ∉ js := fun hmem => hdisj k hmem k List.mem_cons_self rfl
  have hnot' : k ∉ js' := (List.nodup_cons.mp hright).1
  obtain ⟨mid, hmid⟩ := hb.text
  have hnl : Laid M keep ('\n' :: b) W js' := by
    have h := prepend M.plain_newline (.inr ⟨[], rfl⟩) hW
    have hline : (lines ['\n']).filter keep = [] := by
      rw [List.filter_eq_nil_iff]
      intro l hl
      rw [List.mem_singleton.mp hl, hkeep]
      exact Bool.false_ne_true
    rwa [hline] at h
  have hfirst : splitFirst (M.mark k .start) (a ++ unlines blk ++ b) = a := by
    have hsplit := splitFirst_append (M.solid k .start) (hV.free hnot .start)
      (mid ++ M.mark k .stop ++ ['\n'] ++ b)
    rw [hmid]
    simpa only [List.append_assoc] using hsplit
  have hlast : splitLast (M.mark k .stop) (a ++ unlines blk ++ b) = '\n' :: b := by
    have hsplit := splitLast_append (M.solid k .stop) (hnl.free hnot' .stop)
      (a ++ M.mark k .start ++ mid)
    rw [hmid]
    simpa only [List.append_assoc, List.singleton_append] using hsplit
  rw [hfirst, hlast]
  exact ⟨V, W, js, js', he, hV, hnl, rfl, hnodup⟩

/-- The text without the block. -/
theorem removed (hkeep : keep [] = false) (h : Laid M keep s U ks) (hk : k ∈ ks) :
    ∃ ks', k ∉ ks' ∧
      Laid M keep (splitFirst (M.mark k .start) s ++ splitLast (M.mark k .stop) s) U ks' := by
  obtain ⟨V, W, js, js', he, hV, hW, rfl, hnodup⟩ := h.cut hkeep hk
  obtain ⟨hleft, hright, hdisj⟩ := List.nodup_append.mp hnodup
  refine ⟨js ++ js', ?_, hV.join he hW fun j hj hj' => ?_⟩
  · rw [List.mem_append, not_or]
    refine ⟨fun hmem => ?_, (List.nodup_cons.mp hright).1⟩
    exact hdisj k hmem k List.mem_cons_self rfl
  · exact hdisj j hj j (List.mem_cons_of_mem k hj') rfl

/-- The text with another block in its place. -/
theorem replaced (hkeep : keep [] = false) (h : Laid M keep s U ks) (hk : k ∈ ks)
    (hb : M.Block k blk) : ∃ ks', Laid M keep
      (splitFirst (M.mark k .start) s ++ unlines blk ++ splitLast (M.mark k .stop) s) U ks' := by
  obtain ⟨V, W, js, js', he, hV, hW, rfl, hnodup⟩ := h.cut hkeep hk
  obtain ⟨hleft, hright, hdisj⟩ := List.nodup_append.mp hnodup
  have hnew : Laid M keep (unlines blk ++ splitLast (M.mark k .stop) s) ([] ++ W) ([k] ++ js') := by
    refine (of_block hb).join (ended_unlines blk) hW fun j hj => ?_
    rw [List.mem_singleton.mp hj]
    exact (List.nodup_cons.mp hright).1
  refine ⟨js ++ ([k] ++ js'), ?_⟩
  rw [List.append_assoc]
  exact hV.join he hnew fun j hj hj' => hdisj j hj j hj' rfl

/-! ## Dropping lines -/

/-- Lines are dropped that are neither kept ones nor marks. -/
theorem dropped {p : List Char → Bool} (hp : ∀ l, keep l = true → p l = true)
    (hmark : ∀ k e, p (M.mark k e) = true) (h : Laid M keep s U ks) :
    Laid M keep (unlines ((lines s).filter p)) U ks := by
  -- a plain part stays plain, and the lines that are kept are still in it
  have hplain : ∀ {a : List Char}, M.Plain a → M.Plain (unlines ((lines a).filter p)) ∧
      (lines (unlines ((lines a).filter p))).filter keep = (lines a).filter keep := by
    intro a ha
    have hall : ∀ l ∈ (lines a).filter p, Unbroken l ∧ ∀ k e, ¬ M.mark k e <:+: l :=
      fun l hl => ha.line (List.mem_of_mem_filter hl)
    refine ⟨Marks.plain_unlines hall, ?_⟩
    rw [lines_unlines fun l hl => (hall l hl).1, List.filter_filter]
    refine List.filter_congr fun l _ => ?_
    by_cases hl : keep l = true
    · simp [hl, hp l hl]
    · simp [hl]
  induction h with
  | plain h =>
      obtain ⟨hp, hlines⟩ := hplain h
      rw [← hlines]
      exact .plain hp
  | @block a s blk U k ks ha he hb _ hk ih =>
      obtain ⟨hp, hlines⟩ := hplain ha
      rw [lines_around he fun l hl => hb.unbroken hl, List.filter_append, List.filter_append,
        unlines_append, unlines_append, ← hlines]
      exact .block hp (ended_unlines _) (hb.filter (hmark k)) ih hk

/-! ## The end of a text -/

theorem trimLines_snoc {l : List Char} (hl : l ≠ []) (ls : List (List Char)) :
    trimLines (ls ++ [l]) = ls ++ [l] :=
  List.rdropWhile_concat_neg (fun l => decide (l = [])) ls l (by simpa using hl)

theorem trimLines_append {l : List Char} (hl : l ≠ []) (ls ls' : List (List Char)) :
    trimLines (ls ++ [l] ++ ls') = ls ++ [l] ++ trimLines ls' := by
  induction ls' using List.reverseRecOn with
  | nil =>
      have hnil : trimLines [] = [] := rfl
      rw [List.append_nil, trimLines_snoc hl, hnil, List.append_nil]
  | append_singleton ls' l' ih =>
      rw [← List.append_assoc]
      by_cases hl' : l' = []
      · rw [hl', trimLines_snoc_nil, trimLines_snoc_nil, ih]
      · rw [trimLines_snoc hl', trimLines_snoc hl', List.append_assoc]

/-- Empty lines at the end are dropped. -/
theorem trimmed (hkeep : keep [] = false) (h : Laid M keep s U ks) :
    Laid M keep (unlines (trimLines (lines s))) U ks := by
  induction h with
  | @plain s h =>
      have hall : ∀ l ∈ trimLines (lines s), Unbroken l ∧ ∀ k e, ¬ M.mark k e <:+: l :=
        fun l hl => h.line (trimLines_subset _ hl)
      have hlines : (lines (unlines (trimLines (lines s)))).filter keep =
          (lines s).filter keep := by
        rw [lines_unlines fun l hl => (hall l hl).1, filter_trimLines hkeep]
      rw [← hlines]
      exact .plain (Marks.plain_unlines hall)
  | @block a s blk U k ks ha he hb _ hk ih =>
      have htrim : trimLines (lines a ++ blk ++ lines s) =
          lines a ++ blk ++ trimLines (lines s) := by
        obtain ⟨mid, rfl, -⟩ := hb
        -- the stop mark is not empty, so no line of the block is dropped
        have hsplit := trimLines_append (M.ne_nil k .stop) (lines a ++ M.mark k .start :: mid)
          (lines s)
        simpa only [List.append_assoc, List.cons_append] using hsplit
      have hplain : M.Plain (unlines (lines a)) := Marks.plain_unlines fun l hl => ha.line hl
      have hlines : (lines (unlines (lines a))).filter keep = (lines a).filter keep := by
        rw [lines_unlines fun l hl => (ha.line hl).1]
      rw [lines_around he fun l hl => hb.unbroken hl, htrim, unlines_append, unlines_append,
        ← hlines]
      exact .block hplain (ended_unlines _) hb ih hk

theorem filter_lines_newlines (hkeep : keep [] = false) (s : List Char) (n : Nat) :
    (lines (s ++ List.replicate n '\n')).filter keep = (lines s).filter keep := by
  induction n with
  | zero => rw [List.replicate_zero, List.append_nil]
  | succ n ih =>
      rw [List.replicate_succ', ← List.append_assoc]
      rcases lines_snoc_newline (s ++ List.replicate n '\n') with h | h
      · rw [h, ih]
      · rw [h, List.filter_append, ih]
        simp [hkeep]

theorem plain_newlines {r : List Char} (hr : M.Plain r) (n : Nat) :
    M.Plain (r ++ List.replicate n '\n') := by
  induction n with
  | zero => rwa [List.replicate_zero, List.append_nil]
  | succ n ih =>
      rw [List.replicate_succ', ← List.append_assoc]
      refine ⟨?_, fun k e hm => ?_⟩
      · rw [List.mem_append, List.mem_singleton]
        exact not_or.mpr ⟨ih.read, by decide⟩
      · rcases infix_of_append_cons (M.no_newline k e) hm with h | h
        · exact ih.unmarked k e h
        · exact M.ne_nil k e (List.infix_nil.mp h)

theorem rstripNewlines_append (s t : List Char) : rstripNewlines (s ++ t) =
    if rstripNewlines t = [] then rstripNewlines s else s ++ rstripNewlines t := by
  unfold rstripNewlines List.rdropWhile
  rw [List.reverse_append, List.dropWhile_append]
  by_cases h : t.reverse.dropWhile (· = '\n') = []
  · simp [h]
  · simp [h]

/-- The newlines behind a block are those behind its stop mark. -/
theorem rstripNewlines_block (hb : M.Block k blk) (a : List Char) :
    rstripNewlines (a ++ unlines blk) ++ ['\n'] = a ++ unlines blk := by
  obtain ⟨mid, hmid⟩ := hb.text
  have hlast : rstripNewlines (M.mark k .stop) = M.mark k .stop := by
    rw [rstripNewlines, List.rdropWhile_eq_self_iff]
    intro _ h
    have hmem := List.getLast_mem (M.ne_nil k .stop)
    rw [of_decide_eq_true h] at hmem
    exact M.no_newline k .stop hmem
  have hnl : rstripNewlines ['\n'] = [] := rfl
  rw [hmid, ← List.append_assoc, ← List.append_assoc, rstripNewlines_append, if_pos hnl,
    rstripNewlines_append, hlast, if_neg (M.ne_nil k .stop)]

/-- The newlines at the end of a text may be others. -/
theorem stripped (hkeep : keep [] = false) (h : Laid M keep s U ks) (n : Nat)
    (hn : 1 ≤ n ∨ rstripNewlines s = []) :
    Laid M keep (rstripNewlines s ++ List.replicate n '\n') U ks := by
  induction h generalizing n with
  | @plain s h =>
      have hr : M.Plain (rstripNewlines s) := by
        have hkept : rstripNewlines s <+: s := List.rdropWhile_prefix _ _
        refine ⟨fun hmem => h.read (hkept.subset hmem), fun k e hm => ?_⟩
        exact h.unmarked k e (hm.trans hkept.isInfix)
      have hlines : (lines (rstripNewlines s ++ List.replicate n '\n')).filter keep =
          (lines s).filter keep := by
        obtain ⟨m, hm⟩ := rstripNewlines_eq s
        rw [filter_lines_newlines hkeep]
        conv_rhs => rw [hm, filter_lines_newlines hkeep]
      rw [← hlines]
      exact .plain (plain_newlines hr n)
  | @block a s blk U k ks ha he hb _ hk ih =>
      rw [rstripNewlines_append]
      by_cases hs : rstripNewlines s = []
      · -- nothing but newlines behind the block: the first of them ends the line of its stop mark
        have hend := rstripNewlines_block hb a
        have hpos : n ≠ 0 := by
          rintro rfl
          rw [rstripNewlines_append, if_pos hs] at hn
          rw [hn.resolve_left (by decide)] at hend
          obtain ⟨mid, hmid⟩ := hb.text
          have hlen := congrArg List.length hend
          have hmark := List.length_pos_of_ne_nil (M.ne_nil k .stop)
          simp [hmid] at hlen
          omega
        obtain ⟨m, rfl⟩ := Nat.exists_eq_succ_of_ne_zero hpos
        have hrest := ih m (.inr hs)
        rw [hs, List.nil_append] at hrest
        rw [if_pos hs, List.replicate_succ, ← List.singleton_append, ← List.append_assoc, hend]
        exact .block ha he hb hrest hk
      · have hpos : 1 ≤ n := by
          refine hn.resolve_right fun hnil => ?_
          rw [rstripNewlines_append, if_neg hs, List.append_eq_nil_iff] at hnil
          exact hs hnil.2
        rw [if_neg hs, List.append_assoc]
        exact .block ha he hb (ih n (.inl hpos)) hk

end Laid

/-! ## Reading the plain parts -/

/-- The lines outside of the blocks, as a reader finds them who looks at whole lines. `inside` is
the kind of the block that the reader is in. -/
def Marks.outside (M : Marks K) : Option K → List (List Char) → List (List Char)
  | _, [] => []
  | none, l :: ls =>
      match M.kinds.find? fun k => l = M.mark k .start with
      | some k => M.outside (some k) ls
      | none => l :: M.outside none ls
  | some k, l :: ls => M.outside (if l = M.mark k .stop then none else some k) ls

theorem Marks.find?_start (M : Marks K) (k : K) :
    M.kinds.find? (fun j => M.mark k .start = M.mark j .start) = some k := by
  cases h : M.kinds.find? fun j => M.mark k .start = M.mark j .start with
  | none =>
      rw [List.find?_eq_none] at h
      exact absurd (decide_eq_true rfl) (h k (M.complete k))
  | some j =>
      have heq : M.mark k .start = M.mark j .start := by simpa using List.find?_some h
      have hinfix : M.mark k .start <:+: M.mark j .start := heq ▸ List.infix_rfl
      rw [(M.apart _ _ _ _ hinfix).1]

theorem Marks.outside_plain {ls : List (List Char)}
    (h : ∀ l ∈ ls, ∀ k e, ¬ M.mark k e <:+: l) (ls' : List (List Char)) :
    M.outside none (ls ++ ls') = ls ++ M.outside none ls' := by
  induction ls with
  | nil => rfl
  | cons l ls ih =>
      rw [List.forall_mem_cons] at h
      have hnone : M.kinds.find? (fun k => l = M.mark k .start) = none := by
        rw [List.find?_eq_none]
        intro k _ hl
        have heq : l = M.mark k .start := of_decide_eq_true hl
        exact h.1 k .start (heq ▸ List.infix_rfl)
      rw [List.cons_append, Marks.outside, hnone, ih h.2]
      rfl

theorem Marks.outside_block (h : M.Block k blk) (ls : List (List Char)) :
    M.outside none (blk ++ ls) = M.outside none ls := by
  obtain ⟨mid, rfl, hmid⟩ := h
  have hinside : M.outside (some k) (mid ++ M.mark k .stop :: ls) = M.outside none ls := by
    induction mid with
    | nil => rw [List.nil_append, Marks.outside, if_pos rfl]
    | cons l mid ih =>
        rw [List.forall_mem_cons] at hmid
        have hne : l ≠ M.mark k .stop := fun heq => hmid.1.2 k .stop (heq ▸ List.infix_rfl)
        rw [List.cons_append, Marks.outside, if_neg hne]
        exact ih hmid.2
  rw [List.append_assoc, List.cons_append, Marks.outside, M.find?_start]
  exact hinside

/-- **The reader finds the plain parts.** -/
theorem Laid.outside_eq (h : Laid M keep s U ks) :
    (M.outside none (lines s)).filter keep = U := by
  induction h with
  | @plain s h =>
      have hall : ∀ l ∈ lines s, ∀ k e, ¬ M.mark k e <:+: l := fun l hl => (h.line hl).2
      have hread := Marks.outside_plain hall []
      have hnil : M.outside none [] = [] := rfl
      rw [hnil, List.append_nil] at hread
      rw [hread]
  | @block a s blk U k ks ha he hb _ _ ih =>
      have hall : ∀ l ∈ lines a, ∀ k e, ¬ M.mark k e <:+: l := fun l hl => (ha.line hl).2
      rw [lines_around he fun l hl => hb.unbroken hl, List.append_assoc, Marks.outside_plain hall,
        Marks.outside_block hb, List.filter_append, ih]

/-- A start mark that is not in a text is not one of its lines. -/
theorem count_start_eq_zero (h : ¬ M.mark k e <:+: s) : (lines s).count (M.mark k e) = 0 := by
  rw [List.count_eq_zero]
  exact fun hmem => h (infix_of_mem_lines hmem)

/-- **No block is there twice.** -/
theorem Laid.count_start_le (h : Laid M keep s U ks) (k : K) :
    (lines s).count (M.mark k .start) ≤ 1 := by
  induction h with
  | plain h =>
      rw [count_start_eq_zero (h.unmarked k .start)]
      exact Nat.zero_le 1
  | @block a s blk U j ks ha he hb h hj ih =>
      rw [lines_around he fun l hl => hb.unbroken hl, List.count_append, List.count_append,
        count_start_eq_zero (ha.unmarked k .start)]
      by_cases hk : k = j
      · subst hk
        have hblock : blk.count (M.mark k .start) = 1 := by
          obtain ⟨mid, rfl, hmid⟩ := hb
          have hnot : M.mark k .start ∉ mid := fun hmem =>
            (hmid _ hmem).2 k .start List.infix_rfl
          have hne : M.mark k .stop ≠ M.mark k .start := by
            intro heq
            have hinfix : M.mark k .stop <:+: M.mark k .start := heq ▸ List.infix_rfl
            cases (M.apart _ _ _ _ hinfix).2
          rw [List.cons_append, List.count_cons_self, List.count_append,
            List.count_eq_zero.mpr hnot, List.count_singleton]
          simp [hne]
        rw [hblock, count_start_eq_zero (h.free hj .start)]
      · have hblock : blk.count (M.mark k .start) = 0 := by
          rw [List.count_eq_zero]
          intro hmem
          exact hb.free hk .start (infix_unlines hmem)
        rw [hblock]
        omega

end Text
