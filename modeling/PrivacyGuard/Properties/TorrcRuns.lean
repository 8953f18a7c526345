import PrivacyGuard.Properties.Bridges
import PrivacyGuard.Text.Blocks

set_option autoImplicit false

/-! # The user's lines through all the writers of torrc

Whatever calls of the three writers are made, in whatever order and by whomever: outside of the
managed blocks, the lines of the file that are neither port nor bridge lines are those that were
in it at the beginning, in their order. This holds also where the two blocks are in conflict. -/

namespace PrivacyGuard.Torrc

open Text

inductive Managed
  | kill
  | gateway
  deriving DecidableEq

def managedMark : Managed → Side → List Char
  | .kill, .start => killStart
  | .kill, .stop => killEnd
  | .gateway, .start => gatewayStart
  | .gateway, .stop => gatewayEnd

/-- What all four marks have in common. -/
theorem managedMark_eq (k : Managed) (e : Side) :
    ∃ m, managedMark k e = '#' :: m ∧ ' ' ∈ m ∧ '#' ∉ m ∧ Unbroken ('#' :: m) := by
  cases k <;> cases e <;> exact ⟨_, rfl, by decide +kernel⟩

theorem managedMark_apart (k : Managed) (e : Side) (k' : Managed) (e' : Side)
    (h : managedMark k e <:+: managedMark k' e') : k = k' ∧ e = e' := by
  cases k <;> cases e <;> cases k' <;> cases e' <;>
    first
      | exact ⟨rfl, rfl⟩
      | exact absurd h (by decide +kernel)

def marks : Marks Managed where
  mark := managedMark
  kinds := [.kill, .gateway]
  complete k := by cases k <;> simp
  solid k e := by
    obtain ⟨m, hm, -, hno, -⟩ := managedMark_eq k e
    exact ⟨'#', m, hm, hno⟩
  unbroken k e := by
    obtain ⟨m, hm, -, -, hu⟩ := managedMark_eq k e
    exact hm ▸ hu
  apart := managedMark_apart

/-- The line is neither blank nor a port or bridge line. -/
def isUsers (l : List Char) : Bool := !isPort l && !isBridge l && decide (strip l ≠ [])

/-- What the user has written, as a reader finds it who knows the marks. -/
def usersLines (f : File) : List (List Char) :=
  (marks.outside none (splitlines (readText f))).filter isUsers

/-! ## The blocks -/

/-- A line that begins without a `#`, and has no space from there on. -/
theorem unmarked_of_noSpace {kw w : List Char} (hkw : '#' ∉ kw) (hw : NoSpace w) (k : Managed)
    (e : Side) : ¬ marks.mark k e <:+: kw ++ w := by
  intro h
  obtain ⟨m, hm, hspace, -, -⟩ := managedMark_eq k e
  have hmark : marks.mark k e = '#' :: m := hm
  rw [hmark] at h
  have hmem := hw ' ' ((infix_of_append hkw h).subset (List.mem_cons_of_mem _ hspace))
  exact absurd hmem (by decide)

theorem block_killLines : marks.Block .kill killLines := by
  refine ⟨["TransPort 127.0.0.1:9040".toList, "DNSPort 127.0.0.1:5353".toList,
    "AutomapHostsOnResolve 1".toList], rfl, fun l hl => ⟨?_, fun k e => ?_⟩⟩
  · revert l
    decide
  · have hno : '#' ∉ l := by
      revert l
      decide
    have h := unmarked_of_noSpace hno (w := []) nofun k e
    rwa [List.append_nil] at h

theorem block_gatewayLines (ip : InternalIp) : marks.Block .gateway (gatewayLines ip.text) := by
  refine ⟨(gatewayLines ip.text).tail.dropLast, rfl, fun l hl => ⟨?_, fun k e => ?_⟩⟩
  · exact gatewayLines_unbroken ip l (List.mem_of_mem_tail (List.dropLast_subset _ hl))
  · have hfixed : ∀ l : List Char, '#' ∉ l → ¬ marks.mark k e <:+: l := by
      intro l hl
      have h := unmarked_of_noSpace hl (w := []) nofun k e
      rwa [List.append_nil] at h
    have hport : ∀ kw port : List Char, '#' ∉ kw → NoSpace port →
        ¬ marks.mark k e <:+: kw ++ ip.text ++ port := by
      intro kw port hkw hport
      rw [List.append_assoc]
      exact unmarked_of_noSpace hkw (noSpace_address ip hport) k e
    have hcases : l = "TransPort 127.0.0.1:9040".toList ∨
        l = "TransPort ".toList ++ ip.text ++ ":9040".toList ∨
        l = "DNSPort 127.0.0.1:5353".toList ∨
        l = "DNSPort ".toList ++ ip.text ++ ":5353".toList ∨
        l = "AutomapHostsOnResolve 1".toList := by
      simpa [gatewayLines] using hl
    rcases hcases with rfl | rfl | rfl | rfl | rfl
    · exact hfixed _ (by decide)
    · exact hport _ _ (by decide) (by decide)
    · exact hfixed _ (by decide)
    · exact hport _ _ (by decide) (by decide)
    · exact hfixed _ (by decide)

/-! ## The writers -/

section

variable {s : List Char} {U : List (List Char)} {ks : List Managed}

theorem laid_withoutKillBlock (h : Laid marks isUsers s U ks) :
    ∃ ks', .kill ∉ ks' ∧ Laid marks isUsers (withoutKillBlock s) U ks' := by
  unfold withoutKillBlock
  by_cases hk : .kill ∈ ks
  · have hboth : killStart <:+: s ∧ killEnd <:+: s :=
      ⟨h.has_mark hk .start, h.has_mark hk .stop⟩
    rw [if_pos hboth]
    exact h.removed rfl hk
  · rw [if_neg fun hboth => h.free hk .start hboth.1]
    exact ⟨ks, hk, h⟩

theorem isPort_mark (k : Managed) (e : Side) : (!isPort (marks.mark k e)) = true := by
  cases k <;> cases e <;> decide +kernel

theorem isBridge_mark (k : Managed) (e : Side) : (!isBridge (marks.mark k e)) = true := by
  cases k <;> cases e <;> decide +kernel

/-- The kill switch keeps the user's lines. -/
theorem laid_killText (h : Laid marks isUsers s U ks) :
    ∃ ks', Laid marks isUsers (killText s) U ks' := by
  obtain ⟨ks', hk, hcut⟩ := laid_withoutKillBlock h
  -- port lines are dropped from the block of the gateway too: they are no lines of the user's
  have hdropped := hcut.dropped (p := fun l => !isPort l) (fun l hl => by
    simp only [isUsers, Bool.and_eq_true] at hl
    exact hl.1.1) isPort_mark
  have htrim := hdropped.trimmed rfl
  rw [lines_unlines fun l hl => unbroken_of_mem_lines (List.mem_of_mem_filter hl),
    ← splitlines_eq hcut.no_cr, ← keptLines] at htrim
  have hspaced : Laid marks isUsers (unlines (spaced (keptLines s))) U ks' := by
    unfold spaced
    split
    · rename_i hnil
      rwa [hnil] at htrim
    · have hnl := htrim.join (ended_unlines _) (.plain marks.plain_newline) fun _ _ =>
        List.not_mem_nil
      have hline : (lines ['\n']).filter isUsers = [] := rfl
      rw [hline, List.append_nil, List.append_nil] at hnl
      rw [unlines_append]
      exact hnl
  have hblock := hspaced.join (ended_unlines _) (.of_block block_killLines) fun k hk' => by
    rw [List.mem_singleton]
    rintro rfl
    exact hk hk'
  rw [List.append_nil] at hblock
  rw [killText_eq, unlines_append]
  exact ⟨_, hblock⟩

/-- The gateway keeps the user's lines. -/
theorem laid_gatewayText (h : Laid marks isUsers s U ks) (ip : InternalIp) :
    ∃ ks', Laid marks isUsers (gatewayText ip.text s) U ks' := by
  unfold gatewayText
  by_cases hk : .gateway ∈ ks
  · have hstart : gatewayStart <:+: s := h.has_mark hk .start
    rw [if_pos hstart]
    exact h.replaced rfl hk (block_gatewayLines ip)
  · have hstart : ¬ gatewayStart <:+: s := h.free hk .start
    -- the new block is written behind two newlines
    have hstrip := h.stripped rfl 2 (.inl (by decide))
    have hblock := hstrip.join (ended_rstrip s) (.of_block (block_gatewayLines ip)) fun k hk' => by
      rw [List.mem_singleton]
      rintro rfl
      exact hk hk'
    rw [if_neg hstart]
    rw [List.append_nil] at hblock
    exact ⟨_, hblock⟩

/-- A bridge line with something in it, on one line and without a mark. -/
structure PlainBridge (b : List Char) : Prop where
  nonBlank : ∃ c ∈ b, isSpace c = false
  unbroken : Unbroken b
  unmarked : ∀ k e, ¬ marks.mark k e <:+: b

theorem PlainBridge.line {b : List Char} (h : PlainBridge b) :
    Unbroken (bridgeLine b) ∧ (∀ k e, ¬ marks.mark k e <:+: bridgeLine b) ∧
      isUsers (bridgeLine b) = false := by
  refine ⟨unbroken_bridgeLine h.unbroken, fun k e hm => ?_, ?_⟩
  · obtain ⟨m, hmark, -, -, -⟩ := managedMark_eq k e
    have hstart : marks.mark k e = '#' :: m := hmark
    have hstrip : marks.mark k e <:+: strip b := by
      rw [hstart] at hm ⊢
      exact infix_of_append (by decide) hm
    exact h.unmarked k e (hstrip.trans (strip_part b))
  · have hne : strip b ≠ [] := by
      obtain ⟨c, hc, hspace⟩ := h.nonBlank
      intro hnil
      rw [strip_eq_nil.mp hnil c hc] at hspace
      cases hspace
    have hkw := (startsWith_bridgeLine hne).1
    have hbridge : isBridge (bridgeLine b) = true := by
      rw [startsWith, List.any_cons, List.any_nil, Bool.or_false] at hkw
      rw [isBridge, startsWith, List.any_cons, List.any_cons, hkw, Bool.true_or, Bool.or_true]
    simp [isUsers, hbridge]

/-- Bridges are written behind the user's lines. -/
theorem laid_bridgedLines (h : Laid marks isUsers s U ks) {bs : List (List Char)}
    (hbs : ∀ b ∈ bs, PlainBridge b) :
    Laid marks isUsers (unlines (bridgedLines bs s)) U ks := by
  have hdropped := h.dropped (p := fun l => !isBridge l) (fun l hl => by
    simp only [isUsers, Bool.and_eq_true] at hl
    exact hl.1.2) isBridge_mark
  have hnew : ∀ l ∈ newBridges bs, (Unbroken l ∧ ∀ k e, ¬ marks.mark k e <:+: l) ∧
      isUsers l = false := by
    intro l hl
    rcases List.mem_cons.mp hl with rfl | hl
    · have hline : Unbroken "UseBridges 1".toList ∧ '#' ∉ "UseBridges 1".toList ∧
          isUsers "UseBridges 1".toList = false := by decide +kernel
      refine ⟨⟨hline.1, fun k e => ?_⟩, hline.2.2⟩
      have hun := unmarked_of_noSpace hline.2.1 (w := []) nofun k e
      rwa [List.append_nil] at hun
    · obtain ⟨b, hb, rfl⟩ := List.mem_map.mp hl
      obtain ⟨hu, hm, hno⟩ := (hbs b hb).line
      exact ⟨⟨hu, hm⟩, hno⟩
  have hplain := Marks.plain_unlines fun l hl => (hnew l hl).1
  have hnone : (lines (unlines (newBridges bs))).filter isUsers = [] := by
    rw [lines_unlines fun l hl => (hnew l hl).1.1, List.filter_eq_nil_iff]
    intro l hl
    rw [(hnew l hl).2]
    exact Bool.false_ne_true
  have happend := hdropped.join (ended_unlines _) (.plain hplain) fun _ _ => List.not_mem_nil
  rw [hnone, List.append_nil, List.append_nil, ← unlines_append, ← splitlines_eq h.no_cr]
    at happend
  exact happend

end

/-! ## Runs -/

/-- The bridge lines of the call are plain. -/
def Call.Plain : Call → Prop
  | .configureBridges bs => ∀ b ∈ bs, PlainBridge b
  | _ => True

/-- The file is laid out, with these lines of the user. -/
def LaidFile (U : List (List Char)) (f : File) : Prop :=
  ∃ ks, Laid marks isUsers (readText f) U ks

theorem LaidFile.some {U : List (List Char)} {s : List Char}
    (h : ∃ ks, Laid marks isUsers s U ks) : LaidFile U (some s) := by
  obtain ⟨ks, h⟩ := h
  refine ⟨ks, ?_⟩
  rwa [readText_some h.no_cr]

theorem LaidFile.perform {U : List (List Char)} {f : File} (h : LaidFile U f) {a : Access}
    {x : Call} (hx : x.Plain) : LaidFile U (x.perform f a) := by
  obtain ⟨ks, hlaid⟩ := h
  cases x with
  | ensureTransparentProxyTorrc =>
      show LaidFile U (ensureTransparentProxyTorrc a f).2
      unfold ensureTransparentProxyTorrc
      split
      · exact ⟨ks, hlaid⟩
      · split
        · exact ⟨ks, hlaid⟩
        · split
          · exact ⟨ks, hlaid⟩
          · exact .some (laid_killText hlaid)
  | writeGatewayTorrcSnippet ip =>
      show LaidFile U (writeGatewayTorrcSnippet a ip.text f)
      unfold writeGatewayTorrcSnippet
      split
      · exact .some (laid_gatewayText hlaid ip)
      · exact ⟨ks, hlaid⟩
  | configureBridges bs =>
      show LaidFile U (configureBridges a bs f)
      unfold configureBridges
      split
      · exact ⟨ks, hlaid⟩
      · split
        · have hne : bridgedLines bs (readText f) ≠ [] := by simp [bridgedLines]
          rw [joinLines_newline hne]
          exact .some ⟨ks, laid_bridgedLines hlaid hx⟩
        · exact ⟨ks, hlaid⟩

theorem LaidFile.performAll {U : List (List Char)} {f : File} (h : LaidFile U f)
    {cs : List (Access × Call)} (hcs : ∀ c ∈ cs, c.2.Plain) :
    LaidFile U (performAll f cs) := by
  induction cs generalizing f with
  | nil => exact h
  | cons c cs ih =>
      rw [List.forall_mem_cons] at hcs
      exact ih (h.perform hcs.1) hcs.2

/-- **The user's lines stay**, and no block is written twice. -/
theorem users_lines_kept {f : File} (hf : ∀ k e, ¬ managedMark k e <:+: readText f)
    {cs : List (Access × Call)} (hcs : ∀ c ∈ cs, c.2.Plain) :
    usersLines (performAll f cs) = (splitlines (readText f)).filter isUsers ∧
      ∀ k, (splitlines (readText (performAll f cs))).count (managedMark k .start) ≤ 1 := by
  have hcr := no_cr_readText f
  have hstart : LaidFile ((lines (readText f)).filter isUsers) f := ⟨[], .plain ⟨hcr, hf⟩⟩
  obtain ⟨ks, hlaid⟩ := hstart.performAll hcs
  rw [usersLines, splitlines_eq hlaid.no_cr, splitlines_eq hcr]
  exact ⟨hlaid.outside_eq, hlaid.count_start_le⟩

/-- The kill switch, gateway mode with the conflict, and the kill switch again, which takes the
ports out of the gateway's block. -/
def conflictingCalls : List (Access × Call) :=
  [(.granted, .ensureTransparentProxyTorrc), (.granted, .writeGatewayTorrcSnippet someIp),
    (.granted, .configureBridges [someBridge]), (.granted, .ensureTransparentProxyTorrc)]

theorem users_lines_kept_conflictingCalls :
    usersLines (performAll socksOnly conflictingCalls) = ["SocksPort 9050".toList] := by
  have hplain : ∀ c ∈ conflictingCalls, c.2.Plain := by
    simp only [conflictingCalls, List.forall_mem_cons]
    refine ⟨trivial, trivial, fun b hb => ?_, trivial, nofun⟩
    rw [List.mem_singleton.mp hb]
    refine ⟨⟨'o', by decide, by decide⟩, by decide, fun k e => ?_⟩
    cases k <;> cases e <;> decide +kernel
  have hmarks : ∀ k e, ¬ managedMark k e <:+: readText socksOnly := by
    intro k e
    cases k <;> cases e <;> decide +kernel
  exact (users_lines_kept hmarks hplain).1.trans (by decide +kernel)

end PrivacyGuard.Torrc
