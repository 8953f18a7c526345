import Mathlib.Data.List.Infix

set_option autoImplicit false

/-! # Splitting at a separator

`s.split(sep)` from left to right, and its first and its last piece: a separator whose first
character occurs in it only once cannot overlap with itself, so these are what stands before
the first and behind the last occurrence. -/

namespace Text

variable {sep s t m : List Char}

/-- The pieces of a text; `n` characters of the last separator are still to be skipped. -/
def pieces (sep : List Char) : Nat → List Char → List (List Char)
  | _, [] => [[]]
  | n + 1, _ :: s => pieces sep n s
  | 0, c :: s =>
      if sep <+: c :: s then [] :: pieces sep (sep.length - 1) s
      else match pieces sep 0 s with
        | [] => [[c]]
        | p :: ps => (c :: p) :: ps

/-- `s.split(sep)` -/
def split (sep s : List Char) : List (List Char) := pieces sep 0 s

/-- `s.split(sep)[0]` -/
def splitFirst (sep s : List Char) : List Char := (split sep s).headD []

/-- `s.split(sep)[-1]` -/
def splitLast (sep s : List Char) : List Char := (split sep s).getLastD []

/-- A separator that cannot overlap with itself. -/
def Solid (sep : List Char) : Prop := ∃ c sep', sep = c :: sep' ∧ c ∉ sep'

/-- Before an occurrence of a separator, none begins that reaches into it. -/
theorem Solid.infix_of_prefix (hsep : Solid sep) (hs : s ≠ []) (h : sep <+: s ++ sep ++ t) :
    sep <+: s := by
  by_cases hlen : sep.length ≤ s.length
  · rw [List.append_assoc] at h
    exact List.prefix_of_prefix_length_le h ⟨sep ++ t, rfl⟩ hlen
  · obtain ⟨c, sep', rfl, hc⟩ := hsep
    cases s with
    | nil => exact absurd rfl hs
    | cons d s =>
        have hreach : (d :: s) ++ [c] <+: (d :: s) ++ (c :: sep') ++ t := ⟨sep' ++ t, by simp⟩
        have hpre : (d :: s) ++ [c] <+: c :: sep' := by
          refine List.prefix_of_prefix_length_le hreach h ?_
          simp at hlen ⊢
          omega
        have hmem : s ++ [c] <+: sep' := (List.cons_prefix_cons.mp hpre).2
        exact absurd (hmem.subset (by simp)) hc

theorem pieces_ne_nil (sep : List Char) (n : Nat) (s : List Char) : pieces sep n s ≠ [] := by
  induction s generalizing n with
  | nil => rw [pieces.eq_def]; exact List.cons_ne_nil _ _
  | cons c s ih =>
      cases n with
      | succ n => exact ih n
      | zero =>
          rw [pieces]
          split
          · exact List.cons_ne_nil _ _
          · split <;> exact List.cons_ne_nil _ _

theorem pieces_skip (sep m t : List Char) : pieces sep m.length (m ++ t) = pieces sep 0 t := by
  induction m with
  | nil => rfl
  | cons c m ih => exact ih

/-- The pieces have no characters but those of the text. -/
theorem subset_of_mem_pieces {n : Nat} {p : List Char} (h : p ∈ pieces sep n s) : p ⊆ s := by
  induction s generalizing n p with
  | nil =>
      rw [pieces.eq_def] at h
      rw [List.mem_singleton.mp h]
      exact List.nil_subset _
  | cons c s ih =>
      cases n with
      | succ n => exact List.Subset.trans (ih h) (List.subset_cons_self c s)
      | zero =>
          rw [pieces] at h
          split at h
          · obtain rfl | h := List.mem_cons.mp h
            · exact List.nil_subset _
            · exact List.Subset.trans (ih h) (List.subset_cons_self c s)
          · have ih : ∀ p ∈ pieces sep 0 s, p ⊆ s := fun p hp => ih hp
            generalize pieces sep 0 s = ps at h ih
            cases ps with
            | nil =>
                rw [List.mem_singleton.mp h]
                exact List.cons_subset_cons c (List.nil_subset s)
            | cons q qs =>
                obtain rfl | h := List.mem_cons.mp h
                · exact List.cons_subset_cons c (ih q List.mem_cons_self)
                · have hp := ih p (List.mem_cons_of_mem _ h)
                  exact List.Subset.trans hp (List.subset_cons_self c s)

theorem splitFirst_subset (sep s : List Char) : splitFirst sep s ⊆ s := by
  have hmem : splitFirst sep s ∈ pieces sep 0 s := by
    rw [splitFirst, split]
    have hne := pieces_ne_nil sep 0 s
    generalize pieces sep 0 s = ps at hne
    cases ps with
    | nil => exact absurd rfl hne
    | cons p ps => exact List.mem_cons_self
  exact subset_of_mem_pieces hmem

theorem splitLast_subset (sep s : List Char) : splitLast sep s ⊆ s := by
  have hmem : splitLast sep s ∈ pieces sep 0 s := by
    have hne := pieces_ne_nil sep 0 s
    rw [splitLast, split, List.getLastD_eq_getLast?, List.getLast?_eq_some_getLast hne]
    exact List.getLast_mem hne
  exact subset_of_mem_pieces hmem

theorem split_of_not_infix (h : ¬ sep <:+: s) : split sep s = [s] := by
  unfold split
  induction s with
  | nil => rfl
  | cons c s ih =>
      rw [List.infix_cons_iff, not_or] at h
      rw [pieces, if_neg h.1, ih h.2]

/-- A separator ends the pieces before it, in the middle of a separator as well. -/
theorem pieces_append (hsep : Solid sep) (s t : List Char) :
    ∀ n ≤ s.length, pieces sep n (s ++ sep ++ t) = pieces sep n s ++ split sep t := by
  induction s with
  | nil =>
      intro n hn
      obtain rfl : n = 0 := Nat.le_zero.mp hn
      obtain ⟨c, sep', rfl, -⟩ := hsep
      have hskip := pieces_skip (c :: sep') sep' t
      have hnil : pieces (c :: sep') 0 [] = [[]] := by rw [pieces.eq_def]
      rw [hnil, List.nil_append, List.cons_append, pieces, if_pos ⟨t, rfl⟩]
      exact congrArg ([] :: ·) hskip
  | cons c s ih =>
      intro n hn
      cases n with
      | succ n => exact ih n (Nat.le_of_succ_le_succ hn)
      | zero =>
          rw [List.cons_append, List.cons_append, pieces, pieces]
          by_cases hpre : sep <+: c :: (s ++ sep ++ t)
          · -- the separator that begins here ends before the last one
            have hself := hsep.infix_of_prefix (List.cons_ne_nil c s) hpre
            have hlen : sep.length - 1 ≤ s.length := by
              have := hself.length_le
              simp at this
              omega
            rw [if_pos hpre, if_pos hself, ih _ hlen]
            rfl
          · have hself : ¬ sep <+: c :: s := by
              intro h
              refine hpre (h.trans ⟨sep ++ t, ?_⟩)
              rw [List.cons_append, List.append_assoc]
            have hne := pieces_ne_nil sep 0 s
            rw [if_neg hpre, if_neg hself, ih 0 (Nat.zero_le _)]
            generalize pieces sep 0 s = ps at hne
            cases ps with
            | nil => exact absurd rfl hne
            | cons p ps => rfl

theorem split_append (hsep : Solid sep) (s t : List Char) :
    split sep (s ++ sep ++ t) = split sep s ++ split sep t :=
  pieces_append hsep s t 0 (Nat.zero_le _)

/-- What stands before the first separator. -/
theorem splitFirst_append (hsep : Solid sep) (hs : ¬ sep <:+: s) (t : List Char) :
    splitFirst sep (s ++ sep ++ t) = s := by
  rw [splitFirst, split_append hsep, split_of_not_infix hs]
  rfl

theorem exists_first (hsep : sep ≠ []) (h : sep <:+: s) :
    ∃ p q, s = p ++ sep ++ q ∧ ¬ sep <:+: p := by
  induction hn : s.length using Nat.strongRecOn generalizing s with
  | _ n ih =>
      obtain ⟨p, q, rfl⟩ := h
      by_cases hp : sep <:+: p
      · have hlen : p.length < n := by
          have hpos := List.length_pos_of_ne_nil hsep
          simp at hn
          omega
        obtain ⟨p', q', rfl, hp'⟩ := ih _ hlen hp rfl
        exact ⟨p', q' ++ sep ++ q, by simp only [List.append_assoc], hp'⟩
      · exact ⟨p, q, rfl, hp⟩

theorem exists_last (hsep : sep ≠ []) (h : sep <:+: s) :
    ∃ p q, s = p ++ sep ++ q ∧ ¬ sep <:+: q := by
  induction hn : s.length using Nat.strongRecOn generalizing s with
  | _ n ih =>
      obtain ⟨p, q, rfl⟩ := h
      by_cases hq : sep <:+: q
      · have hlen : q.length < n := by
          have hpos := List.length_pos_of_ne_nil hsep
          simp at hn
          omega
        obtain ⟨p', q', rfl, hq'⟩ := ih _ hlen hq rfl
        exact ⟨p ++ sep ++ p', q', by simp only [List.append_assoc], hq'⟩
      · exact ⟨p, q, rfl, hq⟩

/-- What stands behind the last separator. -/
theorem splitLast_append (hsep : Solid sep) (ht : ¬ sep <:+: t) (s : List Char) :
    splitLast sep (s ++ sep ++ t) = t := by
  rw [splitLast, split_append hsep, split_of_not_infix ht]
  simp

/-- Before the first occurrence of a character it does not occur. -/
theorem not_mem_splitFirst (c : Char) (s : List Char) : c ∉ splitFirst [c] s := by
  have hin : ∀ t : List Char, c ∈ t → [c] <:+: t := by
    intro t hc
    obtain ⟨p, q, rfl⟩ := List.append_of_mem hc
    exact ⟨p, q, by simp⟩
  by_cases hs : [c] <:+: s
  · obtain ⟨p, q, rfl, hp⟩ := exists_first (List.cons_ne_nil c []) hs
    rw [splitFirst_append ⟨c, [], rfl, List.not_mem_nil⟩ hp]
    exact fun hc => hp (hin p hc)
  · rw [splitFirst, split_of_not_infix hs]
    exact fun hc => hs (hin s hc)

/-! ## Removing it -/

/-- `s.replace(sep, "")` -/
def remove (sep s : List Char) : List Char := (split sep s).flatten

theorem remove_of_not_infix (h : ¬ sep <:+: s) : remove sep s = s := by
  rw [remove, split_of_not_infix h, List.flatten_singleton]

theorem remove_append (hsep : Solid sep) (s t : List Char) :
    remove sep (s ++ sep ++ t) = remove sep s ++ remove sep t := by
  rw [remove, split_append hsep, List.flatten_append]
  rfl

theorem length_remove_le (sep s : List Char) : (remove sep s).length ≤ s.length := by
  have key : ∀ n, (pieces sep n s).flatten.length ≤ s.length := by
    induction s with
    | nil =>
        intro n
        rw [pieces.eq_def]
        exact le_rfl
    | cons c s ih =>
        intro n
        have hnil := ih (sep.length - 1)
        have hcons := ih 0
        cases n with
        | succ n => exact (ih n).trans (Nat.le_succ _)
        | zero =>
            rw [pieces]
            split
            · exact hnil.trans (Nat.le_succ _)
            · generalize pieces sep 0 s = ps at hcons
              cases ps with
              | nil => exact Nat.succ_le_succ (Nat.zero_le _)
              | cons p ps =>
                  simp at hcons ⊢
                  omega
  exact key 0

/-- A text in which the separator stands gets shorter. -/
theorem length_remove_lt (hsep : Solid sep) (h : sep <:+: s) :
    (remove sep s).length < s.length := by
  have hpos : 0 < sep.length := by
    obtain ⟨c, sep', rfl, -⟩ := hsep
    exact Nat.succ_pos _
  obtain ⟨p, q, rfl⟩ := h
  have hp := length_remove_le sep p
  have hq := length_remove_le sep q
  rw [remove_append hsep]
  simp only [List.length_append]
  omega

end Text
