import PrivacyGuard.Properties.PortConflict

set_option autoImplicit false

/-! # The gateway's block, written again

The new block takes the place of the old one from marker to marker. The newline behind the old
end marker stays, and the new block brings one of its own: with every call there is one more
empty line behind the block. -/

namespace PrivacyGuard.Torrc

open Text

/-- The gateway's markers occur in the text as those of one block, or not at all. -/
inductive OneGatewayBlock (s : List Char) : Prop
  | none (hstart : ¬ gatewayStart <:+: s) (hend : ¬ gatewayEnd <:+: s)
  | one {x y : List Char} (ip : InternalIp) (hs : s = x ++ gatewayBlock ip.text ++ y)
      (hx : ∀ m ∈ [gatewayStart, gatewayEnd], ¬ m <:+: x)
      (hy : ∀ m ∈ [gatewayStart, gatewayEnd], ¬ m <:+: y)

/-- The newline behind the old block stays. -/
theorem gatewayText_cut {x y : List Char} (hx : ¬ gatewayStart <:+: x) (hy : ¬ gatewayEnd <:+: y)
    (ip ip' : InternalIp) :
    gatewayText ip'.text (x ++ gatewayBlock ip.text ++ y) =
      x ++ gatewayBlock ip'.text ++ '\n' :: y := by
  obtain ⟨mid, hmid⟩ := gatewayBlock_eq ip
  have hmarker : gatewayEnd ∈ markers := by simp [markers]
  have hblock : x ++ gatewayBlock ip.text ++ y =
      x ++ gatewayStart ++ mid ++ gatewayEnd ++ '\n' :: y := by
    rw [gatewayBlock, hmid]
    simp only [List.append_assoc, List.singleton_append]
  have hfirst : splitFirst gatewayStart (x ++ gatewayBlock ip.text ++ y) = x := by
    have hsplit := splitFirst_append solid_gatewayStart hx (mid ++ gatewayEnd ++ '\n' :: y)
    rw [hblock]
    simpa only [List.append_assoc] using hsplit
  have hlast : splitLast gatewayEnd (x ++ gatewayBlock ip.text ++ y) = '\n' :: y := by
    rw [hblock]
    exact splitLast_append solid_gatewayEnd (marker_newline hmarker hy) _
  have hstart : gatewayStart <:+: x ++ gatewayBlock ip.text ++ y := by
    refine ⟨x, mid ++ gatewayEnd ++ '\n' :: y, ?_⟩
    rw [hblock]
    simp only [List.append_assoc]
  rw [gatewayText, if_pos hstart, hfirst, hlast]

/-- A call leaves a block, and no start marker before it or end marker behind it. -/
theorem gatewayText_parts {s : List Char} (h : OneGatewayBlock s) :
    ∃ x y, ¬ gatewayStart <:+: x ∧ ¬ gatewayEnd <:+: y ∧
      ∀ ip : InternalIp, gatewayText ip.text s = x ++ gatewayBlock ip.text ++ y := by
  cases h with
  | none hstart hend =>
      have hmarker : gatewayStart ∈ markers := by simp [markers]
      obtain ⟨hne, hnl, -⟩ := marker_cases hmarker
      refine ⟨rstripNewlines s ++ ['\n', '\n'], [], ?_, by decide, ?_⟩
      · intro h
        obtain h | h := infix_of_append_cons hnl h
        · exact hstart (h.trans (List.rdropWhile_prefix _ _).isInfix)
        · exact marker_newline hmarker (fun h => hne (List.infix_nil.mp h)) h
      · intro ip
        rw [gatewayText, if_neg hstart, List.append_nil]
  | @one x y ip hs hx hy =>
      have hmarker : gatewayEnd ∈ markers := by simp [markers]
      have hend : ¬ gatewayEnd <:+: '\n' :: y := marker_newline hmarker (hy gatewayEnd (by simp))
      refine ⟨x, '\n' :: y, hx gatewayStart (by simp), hend, ?_⟩
      intro ip'
      rw [hs, gatewayText_cut (hx gatewayStart (by simp)) (hy gatewayEnd (by simp))]

/-- **A block that has been replaced is one line longer.** -/
theorem gateway_again_ne {f : File} (h : OneGatewayBlock (readText f)) (a b : InternalIp) :
    writeGatewayTorrcSnippet .granted b.text (writeGatewayTorrcSnippet .granted a.text f) ≠
      writeGatewayTorrcSnippet .granted b.text f := by
  obtain ⟨x, y, hx, hy, hparts⟩ := gatewayText_parts h
  have halone : writeGatewayTorrcSnippet .granted b.text f =
      some (x ++ gatewayBlock b.text ++ y) := by
    rw [writeGatewayTorrcSnippet, if_pos rfl, hparts]
  have hread : readText (some (gatewayText a.text (readText f))) =
      x ++ gatewayBlock a.text ++ y := by
    rw [readText_some (no_cr_gatewayText (no_cr_readText f) a), hparts]
  have hagain : writeGatewayTorrcSnippet .granted b.text
      (writeGatewayTorrcSnippet .granted a.text f) =
        some (x ++ gatewayBlock b.text ++ '\n' :: y) := by
    simp only [writeGatewayTorrcSnippet, if_true, hread, gatewayText_cut hx hy]
  rw [halone, hagain]
  intro heq
  have hlen := congrArg List.length (Option.some.inj heq)
  simp at hlen

def otherIp : InternalIp := ⟨"10.152.152.11".toList, by decide⟩

theorem gateway_again_ne_socksOnly :
    writeGatewayTorrcSnippet .granted otherIp.text
        (writeGatewayTorrcSnippet .granted someIp.text socksOnly) ≠
      writeGatewayTorrcSnippet .granted otherIp.text socksOnly :=
  gateway_again_ne (.none (by decide) (by decide)) someIp otherIp

theorem not_gateway_again :
    ¬ ∀ (f : File) (a b : InternalIp), OneGatewayBlock (readText f) →
      writeGatewayTorrcSnippet .granted b.text (writeGatewayTorrcSnippet .granted a.text f) =
        writeGatewayTorrcSnippet .granted b.text f := by
  intro h
  have heq := h socksOnly someIp someIp (.none (by decide) (by decide))
  exact absurd heq (by decide +kernel)

end PrivacyGuard.Torrc
