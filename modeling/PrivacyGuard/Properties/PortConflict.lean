import PrivacyGuard.Model.KillBlock
import Mathlib.Data.List.Nodup

set_option autoImplicit false

/-! # Port conflicts in torrc

Each of the two blocks is free of conflicts, and outside of them the file has no port lines.
The kill switch takes the ports out of the gateway's block when it writes its own one; the
gateway does not look at the kill switch's block. So there is a conflict after the gateway has
written its block into a file that holds the kill switch's one, and only then. -/

namespace PrivacyGuard.Torrc

open Text

/-! ## The lines of the file -/

/-- The port lines of a text. -/
def ports (s : List Char) : List (List Char) := (lines s).filter isPort

/-- A text as it is read, without port lines. -/
structure NoPorts (s : List Char) : Prop where
  read : '\r' ∉ s
  quiet : ∀ l ∈ lines s, isPort l = false

theorem ports_eq_nil {s : List Char} (h : NoPorts s) : ports s = [] := by
  rw [ports, List.filter_eq_nil_iff]
  intro l hl
  simp [h.quiet l hl]

theorem noPorts_nil : NoPorts [] := ⟨nofun, nofun⟩

theorem noPorts_append {s t : List Char} (hs : Ended s) (h : NoPorts s) (h' : NoPorts t) :
    NoPorts (s ++ t) where
  read hmem := (List.mem_append.mp hmem).elim h.read h'.read
  quiet l hl := by
    rw [lines_append hs, List.mem_append] at hl
    exact hl.elim (h.quiet l) (h'.quiet l)

theorem noPorts_newline {s : List Char} (h : NoPorts s) : NoPorts ('\n' :: s) where
  read hmem := (List.mem_cons.mp hmem).elim nofun h.read
  quiet l hl := by
    rw [lines_newline, List.mem_cons] at hl
    obtain rfl | hl := hl
    · rfl
    · exact h.quiet l hl

/-- A text without the newlines at its end, and with two of them. -/
theorem noPorts_rstrip {s : List Char} (h : NoPorts s) :
    NoPorts (rstripNewlines s ++ ['\n', '\n']) where
  read hmem := by
    obtain hmem | hmem := List.mem_append.mp hmem
    · exact h.read ((List.rdropWhile_prefix _ _).subset hmem)
    · exact absurd hmem (by decide)
  quiet l hl := by
    rw [lines_append_newline, List.mem_append] at hl
    obtain hl | hl := hl
    · obtain hl | rfl := mem_lines_rstrip hl
      · exact h.quiet l hl
      · rfl
    · obtain rfl := List.mem_singleton.mp hl
      rfl

theorem ended_rstrip (s : List Char) : Ended (rstripNewlines s ++ ['\n', '\n']) :=
  .inr ⟨rstripNewlines s ++ ['\n'], by simp⟩

theorem ports_around {a b : List Char} {blk : List (List Char)} (ha : Ended a)
    (hblk : ∀ l ∈ blk, Unbroken l) (hpa : NoPorts a) (hpb : NoPorts b) :
    ports (a ++ unlines blk ++ b) = blk.filter isPort := by
  have hpa : (lines a).filter isPort = [] := ports_eq_nil hpa
  have hpb : (lines b).filter isPort = [] := ports_eq_nil hpb
  rw [ports, lines_around ha hblk, List.filter_append, List.filter_append, hpa, hpb,
    List.nil_append, List.append_nil]

/-- Only port lines bind something. -/
theorem bindings_eq {kw : List Char} (hkw : kw ∈ [transPort, dnsPort]) (f : File) :
    bindings kw f = (ports (readText f)).filterMap (binding kw) := by
  rw [bindings, splitlines_eq (no_cr_readText f), ports, List.filterMap_filter]
  refine List.filterMap_congr ?_
  intro l _
  split
  · rfl
  · rename_i hl
    have hno : kw.isPrefixOf (strip l) = false := by
      rw [isPort, startsWith, List.any_eq_true] at hl
      exact Bool.eq_false_iff.mpr fun h => hl ⟨kw, hkw, h⟩
    rw [binding, hno]
    rfl

/-! ## The two blocks -/

/-- The lines of the gateway's block that do not depend on the address. -/
def gatewayFixed : List (List Char) :=
  [gatewayStart, "TransPort 127.0.0.1:9040".toList, "DNSPort 127.0.0.1:5353".toList,
    "AutomapHostsOnResolve 1".toList, gatewayEnd]

/-- What holds of those and of the two lines with the address holds of all lines. -/
theorem forall_gatewayLines {P : List Char → Prop} {ip : InternalIp}
    (hfixed : ∀ l ∈ gatewayFixed, P l)
    (htrans : P ("TransPort ".toList ++ ip.text ++ ":9040".toList))
    (hdns : P ("DNSPort ".toList ++ ip.text ++ ":5353".toList)) :
    ∀ l ∈ gatewayLines ip.text, P l := by
  simp only [gatewayFixed, gatewayLines, List.forall_mem_cons] at hfixed ⊢
  obtain ⟨hstart, htrans', hdns', hautomap, hend, hnil⟩ := hfixed
  exact ⟨hstart, htrans', htrans, hdns', hdns, hautomap, hend, hnil⟩

theorem gatewayLines_unbroken (ip : InternalIp) : ∀ l ∈ gatewayLines ip.text, Unbroken l := by
  have hport : ∀ kw port : List Char, Unbroken kw → Unbroken port →
      Unbroken (kw ++ ip.text ++ port) := by
    intro kw port hkw hport c hc
    rw [List.mem_append, List.mem_append] at hc
    obtain (hc | hc) | hc := hc
    · exact hkw c hc
    · exact isSpace_of_isBreak (ip.noSpace c hc)
    · exact hport c hc
  exact forall_gatewayLines (by decide +kernel) (hport _ _ (by decide) (by decide))
    (hport _ _ (by decide) (by decide))

/-- A line that neither begins nor ends with a space. -/
theorem strip_eq {c d : Char} (hc : isSpace c = false) (hd : isSpace d = false) (s : List Char) :
    strip (c :: (s ++ [d])) = c :: (s ++ [d]) := by
  have hleft : (c :: (s ++ [d])).dropWhile isSpace = c :: (s ++ [d]) := by
    rw [List.dropWhile_cons, hc]
    rfl
  have hright : ¬ isSpace d = true := by simp [hd]
  rw [strip, hleft, ← List.cons_append, List.rdropWhile_concat_neg _ _ _ hright]

section

variable {kw w : List Char}

/-- The line `kw w`. -/
theorem strip_portLine (hkw : kw ∈ [transPort, dnsPort]) (hw : NoSpace w)
    (hne : w ≠ []) : strip (kw ++ ' ' :: w) = kw ++ ' ' :: w := by
  obtain ⟨c, kw', rfl, hc⟩ : ∃ c kw', kw = c :: kw' ∧ isSpace c = false := by
    simp only [List.mem_cons, List.not_mem_nil, or_false] at hkw
    obtain rfl | rfl := hkw
    · exact ⟨_, _, rfl, rfl⟩
    · exact ⟨_, _, rfl, rfl⟩
  obtain rfl | ⟨v, d, rfl⟩ := List.eq_nil_or_concat' w
  · exact absurd rfl hne
  · have hd : isSpace d = false := hw d (by simp)
    have hsplit : c :: kw' ++ ' ' :: (v ++ [d]) = c :: ((kw' ++ ' ' :: v) ++ [d]) := by simp
    rw [hsplit, strip_eq hc hd]

theorem isPort_portLine (hkw : kw ∈ [transPort, dnsPort]) (hw : NoSpace w)
    (hne : w ≠ []) : isPort (kw ++ ' ' :: w) = true := by
  rw [isPort, startsWith, List.any_eq_true]
  refine ⟨kw, hkw, ?_⟩
  rw [strip_portLine hkw hw hne]
  exact List.isPrefixOf_iff_prefix.mpr (List.prefix_append _ _)

theorem binding_portLine (hkw : kw ∈ [transPort, dnsPort]) (hw : NoSpace w)
    (hcolon : ':' ∈ w) : binding kw (kw ++ ' ' :: w) = some w := by
  have hne : w ≠ [] := List.ne_nil_of_mem hcolon
  have hpre : kw.isPrefixOf (kw ++ ' ' :: w) = true :=
    List.isPrefixOf_iff_prefix.mpr (List.prefix_append _ _)
  have hdrop : (' ' :: w).dropWhile isSpace = w := by
    rw [List.dropWhile_cons_of_pos rfl]
    cases w with
    | nil => rfl
    | cons d w => rw [List.dropWhile_cons_of_neg (by simp [hw d List.mem_cons_self])]
  have htake : w.takeWhile (fun d => !isSpace d) = w := by
    rw [List.takeWhile_eq_self_iff]
    intro d hd
    rw [hw d hd]
    rfl
  rw [binding, strip_portLine hkw hw hne, if_pos hpre, List.drop_left, hdrop, htake]
  exact congrArg some (if_pos hcolon)

theorem binding_otherLine {kw' : List Char} (hkw : kw ∈ [transPort, dnsPort])
    (hkw' : kw' ∈ [transPort, dnsPort]) (hdiff : kw ≠ kw') (hw : NoSpace w)
    (hne : w ≠ []) : binding kw' (kw ++ ' ' :: w) = none := by
  rw [binding, strip_portLine hkw hw hne]
  simp only [List.mem_cons, List.not_mem_nil, or_false] at hkw hkw'
  obtain rfl | rfl := hkw <;> obtain rfl | rfl := hkw'
  · exact absurd rfl hdiff
  · rfl
  · rfl
  · exact absurd rfl hdiff

end

/-- The address with its port. -/
theorem noSpace_address (ip : InternalIp) {port : List Char}
    (hport : NoSpace port) : NoSpace (ip.text ++ port) := by
  intro d hd
  obtain hd | hd := List.mem_append.mp hd
  · exact ip.noSpace d hd
  · exact hport d hd

theorem isPort_transLine (ip : InternalIp) :
    isPort ("TransPort ".toList ++ ip.text ++ ":9040".toList) = true := by
  have hkw : transPort ∈ [transPort, dnsPort] := by simp
  rw [List.append_assoc]
  exact isPort_portLine hkw (noSpace_address ip (by decide)) (by simp)

theorem isPort_dnsLine (ip : InternalIp) :
    isPort ("DNSPort ".toList ++ ip.text ++ ":5353".toList) = true := by
  have hkw : dnsPort ∈ [transPort, dnsPort] := by simp
  rw [List.append_assoc]
  exact isPort_portLine hkw (noSpace_address ip (by decide)) (by simp)

theorem gatewayLines_ports (ip : InternalIp) : (gatewayLines ip.text).filter isPort =
    ["TransPort 127.0.0.1:9040".toList, transPort ++ ' ' :: (ip.text ++ ":9040".toList),
      "DNSPort 127.0.0.1:5353".toList, dnsPort ++ ' ' :: (ip.text ++ ":5353".toList)] := by
  have hconst : isPort gatewayStart = false ∧ isPort "TransPort 127.0.0.1:9040".toList = true ∧
      isPort "DNSPort 127.0.0.1:5353".toList = true ∧
      isPort "AutomapHostsOnResolve 1".toList = false ∧ isPort gatewayEnd = false := by
    decide +kernel
  obtain ⟨h₁, h₂, h₃, h₄, h₅⟩ := hconst
  rw [gatewayLines, List.filter_cons, h₁]
  simp only [List.filter_cons, h₂, isPort_transLine, h₃, isPort_dnsLine, h₄, h₅, if_true,
    List.filter_nil, Bool.false_eq_true, if_false]
  rw [List.append_assoc, List.append_assoc]
  rfl

theorem noConflict_kill {f : File} (h : ports (readText f) = killLines.filter isPort) :
    NoConflict f := by
  unfold NoConflict
  rw [bindings_eq (by simp), bindings_eq (by simp), h]
  decide +kernel

theorem noConflict_gateway {f : File} {ip : InternalIp} (hip : ip.text ≠ "127.0.0.1".toList)
    (h : ports (readText f) = (gatewayLines ip.text).filter isPort) : NoConflict f := by
  have hne : ∀ port : List Char, "127.0.0.1".toList ++ port ≠ ip.text ++ port := by
    intro port heq
    exact hip (List.append_cancel_right heq).symm
  have htrans : NoSpace (ip.text ++ ":9040".toList) := noSpace_address ip (by decide)
  have hdns : NoSpace (ip.text ++ ":5353".toList) := noSpace_address ip (by decide)
  have hT : bindings transPort f = ["127.0.0.1:9040".toList, ip.text ++ ":9040".toList] := by
    rw [bindings_eq (by simp), h, gatewayLines_ports]
    simp only [List.filterMap_cons, List.filterMap_nil]
    rw [binding_portLine (by simp) htrans (by simp),
      binding_otherLine (by simp) (by simp) (by decide) hdns (by simp)]
    rfl
  have hD : bindings dnsPort f = ["127.0.0.1:5353".toList, ip.text ++ ":5353".toList] := by
    rw [bindings_eq (by simp), h, gatewayLines_ports]
    simp only [List.filterMap_cons, List.filterMap_nil]
    rw [binding_portLine (by simp) hdns (by simp),
      binding_otherLine (by simp) (by simp) (by decide) htrans (by simp)]
    rfl
  refine ⟨?_, ?_⟩
  · rw [hT, List.nodup_cons]
    refine ⟨?_, List.nodup_singleton _⟩
    rw [List.mem_singleton]
    exact hne ":9040".toList
  · rw [hD, List.nodup_cons]
    refine ⟨?_, List.nodup_singleton _⟩
    rw [List.mem_singleton]
    exact hne ":5353".toList

/-! ## A block and its surroundings -/

/-- The text has a block, and no port lines outside of it; the texts `before` do not occur
before it, the texts `behind` not behind it. -/
def Around (blk before behind : List (List Char)) (s : List Char) : Prop :=
  ∃ a b, s = a ++ unlines blk ++ b ∧ Ended a ∧ NoPorts a ∧ NoPorts b ∧
    (∀ m ∈ before, ¬ m <:+: a) ∧ ∀ m ∈ behind, ¬ m <:+: b

/-- The block that counts: that of the kill switch, once it has been written. -/
inductive Shape (s : List Char) : Prop
  | plain (h : Around [] [gatewayStart, killStart] [gatewayStart, killStart] s)
  | gateway (ip : InternalIp) (hip : ip.text ≠ "127.0.0.1".toList)
      (h : Around (gatewayLines ip.text) [gatewayStart, killStart] [gatewayEnd, killStart] s)
  | kill (h : Around killLines [] [gatewayStart, gatewayEnd] s)

theorem Around.no_cr {blk before behind : List (List Char)} {s : List Char}
    (h : Around blk before behind s) (hblk : ∀ l ∈ blk, Unbroken l) : '\r' ∉ s := by
  obtain ⟨a, b, rfl, -, hpa, hpb, -, -⟩ := h
  have hread : '\r' ∉ unlines blk :=
    no_cr_unlines hblk
  simp [hpa.read, hpb.read, hread]

theorem Around.ports_eq {blk before behind : List (List Char)} {s : List Char}
    (h : Around blk before behind s) (hblk : ∀ l ∈ blk, Unbroken l) :
    ports s = blk.filter isPort := by
  obtain ⟨a, b, rfl, ha, hpa, hpb, -, -⟩ := h
  exact ports_around ha hblk hpa hpb

theorem Shape.no_cr {s : List Char} (h : Shape s) : '\r' ∉ s := by
  cases h with
  | plain h => exact h.no_cr nofun
  | gateway ip _ h => exact h.no_cr (gatewayLines_unbroken ip)
  | kill h => exact h.no_cr killLines_unbroken

theorem noConflict_of_shape {f : File} (h : Shape (readText f)) : NoConflict f := by
  cases h with
  | plain h =>
      have hports : ports (readText f) = [] := h.ports_eq nofun
      unfold NoConflict
      rw [bindings_eq (by simp), bindings_eq (by simp), hports]
      exact ⟨List.nodup_nil, List.nodup_nil⟩
  | gateway ip hip h => exact noConflict_gateway hip (h.ports_eq (gatewayLines_unbroken ip))
  | kill h => exact noConflict_kill (h.ports_eq killLines_unbroken)

/-! ## Bridges -/

/-- The markers that the calls look for, but for the end of the kill switch's block. -/
def markers : List (List Char) := [gatewayStart, gatewayEnd, killStart]

/-- A bridge line that is one line, without a marker. -/
structure CleanBridge (b : List Char) : Prop where
  unbroken : Unbroken b
  unmarked : ∀ m ∈ markers, ¬ m <:+: b

theorem strip_part (s : List Char) : strip s <:+: s :=
  (List.rdropWhile_prefix _ _).isInfix.trans (List.dropWhile_suffix _).isInfix

theorem isPort_bridgeLine (b : List Char) : isPort (bridgeLine b) = false := by
  rw [isPort, startsWith, Bool.eq_false_iff, Ne, List.any_eq_true]
  rintro ⟨kw, hkw, hpre⟩
  have hstrip : strip (bridgeLine b) <+: bridgeLine b := List.rdropWhile_prefix _ _
  have hpre : kw <+: bridgeLine b := (List.isPrefixOf_iff_prefix.mp hpre).trans hstrip
  simp only [List.mem_cons, List.not_mem_nil, or_false] at hkw
  obtain rfl | rfl := hkw
  · exact absurd (List.cons_prefix_cons.mp hpre).1 (by decide)
  · exact absurd (List.cons_prefix_cons.mp hpre).1 (by decide)

theorem unbroken_bridgeLine {b : List Char} (h : Unbroken b) : Unbroken (bridgeLine b) := by
  intro c hc
  obtain hc | hc := List.mem_append.mp hc
  · have hall : Unbroken "Bridge ".toList := by decide
    exact hall c hc
  · exact h c ((strip_part b).subset hc)

theorem marker_cases {m : List Char} (hm : m ∈ markers) :
    m ≠ [] ∧ '\n' ∉ m ∧ ∃ m', m = '#' :: m' := by
  simp only [markers, List.mem_cons, List.not_mem_nil, or_false] at hm
  obtain rfl | rfl | rfl := hm
  · exact ⟨by decide +kernel, by decide +kernel, _, rfl⟩
  · exact ⟨by decide +kernel, by decide +kernel, _, rfl⟩
  · exact ⟨by decide +kernel, by decide +kernel, _, rfl⟩

theorem bridgeLine_clean {b m : List Char} (h : CleanBridge b) (hm : m ∈ markers) :
    ¬ m <:+: bridgeLine b := by
  intro hmb
  obtain ⟨-, -, m', rfl⟩ := marker_cases hm
  exact h.unmarked _ hm ((infix_of_append (by decide) hmb).trans (strip_part b))

/-- Lines without port lines. -/
theorem noPorts_unlines {ls : List (List Char)} (h : ∀ l ∈ ls, Unbroken l)
    (hno : ∀ l ∈ ls, isPort l = false) : NoPorts (unlines ls) where
  read := no_cr_unlines h
  quiet l hl := by
    rw [lines_unlines h] at hl
    exact hno l hl

/-- A marker is on one line. -/
theorem marker_line {m : List Char} (hm : m ∈ markers) {ls : List (List Char)}
    (h : m <:+: unlines ls) : ∃ l ∈ ls, m <:+: l := by
  obtain ⟨hne, hnl, -⟩ := marker_cases hm
  exact exists_line_of_infix hne hnl h

/-- The lines of the bridges stand behind the block. -/
theorem Around.bridge {blk before behind : List (List Char)} {s : List Char}
    (h : Around blk before behind s) (hblk : ∀ l ∈ blk, Unbroken l)
    (hkeep : ∀ l ∈ blk, isBridge l = false) (hbefore : before ⊆ markers)
    (hbehind : behind ⊆ markers) {bs : List (List Char)} (hbs : ∀ b ∈ bs, CleanBridge b) :
    Around blk before behind (unlines (bridgedLines bs s)) := by
  have hcr := h.no_cr hblk
  obtain ⟨a, b, hs, ha, hpa, hpb, hma, hmb⟩ := h
  have hkeep : withoutBridges blk = blk := by
    rw [withoutBridges, List.filter_eq_self]
    intro l hl
    simp [hkeep l hl]
  have hsub : ∀ t l, l ∈ withoutBridges (lines t) → l ∈ lines t := by
    intro t l hl
    exact List.mem_of_mem_filter hl
  refine ⟨unlines (withoutBridges (lines a)),
    unlines (withoutBridges (lines b) ++ "UseBridges 1".toList :: bs.map bridgeLine), ?_,
    ended_unlines _, ?_, ?_, ?_, ?_⟩
  · rw [bridgedLines, splitlines_eq hcr, hs, lines_around ha hblk, withoutBridges,
      List.filter_append, List.filter_append]
    rw [withoutBridges] at hkeep
    simp only [hkeep, unlines_append, List.append_assoc]
    rfl
  · refine noPorts_unlines ?_ ?_
    · intro l hl
      exact unbroken_of_mem_lines (hsub a l hl)
    · intro l hl
      exact hpa.quiet l (hsub a l hl)
  · refine noPorts_unlines ?_ ?_
    · intro l hl
      rw [List.mem_append, List.mem_cons, List.mem_map] at hl
      obtain hl | rfl | ⟨b', hb', rfl⟩ := hl
      · exact unbroken_of_mem_lines (hsub b l hl)
      · decide +kernel
      · exact unbroken_bridgeLine (hbs b' hb').unbroken
    · intro l hl
      rw [List.mem_append, List.mem_cons, List.mem_map] at hl
      obtain hl | rfl | ⟨b', -, rfl⟩ := hl
      · exact hpb.quiet l (hsub b l hl)
      · decide +kernel
      · exact isPort_bridgeLine b'
  · intro m hm h
    obtain ⟨l, hl, hml⟩ := marker_line (hbefore hm) h
    exact hma m hm (hml.trans (infix_of_mem_lines (hsub a l hl)))
  · intro m hm h
    obtain ⟨l, hl, hml⟩ := marker_line (hbehind hm) h
    rw [List.mem_append, List.mem_cons, List.mem_map] at hl
    obtain hl | rfl | ⟨b', hb', rfl⟩ := hl
    · exact hmb m hm (hml.trans (infix_of_mem_lines (hsub b l hl)))
    · have hno : ∀ m ∈ markers, ¬ m <:+: "UseBridges 1".toList := by decide +kernel
      exact hno m (hbehind hm) hml
    · exact bridgeLine_clean (hbs b' hb') (hbehind hm) hml

theorem killLines_keep : ∀ l ∈ killLines, isBridge l = false := by decide +kernel

theorem head_of_startsWith {kws : List (List Char)} {l : List Char} (hne : [] ∉ kws)
    (h : startsWith kws l = true) : (strip l).head? ∈ kws.map List.head? := by
  rw [startsWith, List.any_eq_true] at h
  obtain ⟨kw, hkw, hpre⟩ := h
  obtain ⟨t, ht⟩ := List.isPrefixOf_iff_prefix.mp hpre
  rw [← ht, List.mem_map]
  cases kw with
  | nil => exact absurd hkw hne
  | cons c kw => exact ⟨c :: kw, hkw, rfl⟩

/-- A port line is not a bridge line. -/
theorem isBridge_of_isPort {l : List Char} (h : isPort l = true) : isBridge l = false := by
  rw [Bool.eq_false_iff]
  intro h'
  have hport := head_of_startsWith (by decide) h
  have hbridge := head_of_startsWith (by decide) h'
  have hdiff : ∀ c ∈ [transPort, dnsPort].map List.head?,
      c ∉ ["UseBridges".toList, "Bridge ".toList].map List.head? := by decide
  exact hdiff _ hport hbridge

theorem gatewayLines_keep (ip : InternalIp) :
    ∀ l ∈ gatewayLines ip.text, isBridge l = false :=
  forall_gatewayLines (by decide +kernel) (isBridge_of_isPort (isPort_transLine ip))
    (isBridge_of_isPort (isPort_dnsLine ip))

theorem Shape.bridge {s : List Char} (h : Shape s) {bs : List (List Char)}
    (hbs : ∀ b ∈ bs, CleanBridge b) : Shape (unlines (bridgedLines bs s)) := by
  cases h with
  | plain h => exact .plain (h.bridge nofun nofun (by simp [markers]) (by simp [markers]) hbs)
  | gateway ip hip h =>
      exact .gateway ip hip (h.bridge (gatewayLines_unbroken ip) (gatewayLines_keep ip)
        (by simp [markers]) (by simp [markers]) hbs)
  | kill h =>
      exact .kill (h.bridge killLines_unbroken killLines_keep (by simp) (by simp [markers]) hbs)

/-! ## The two blocks are written -/

theorem solid_gatewayStart : Solid gatewayStart := ⟨'#', _, rfl, by decide⟩

theorem solid_gatewayEnd : Solid gatewayEnd := ⟨'#', _, rfl, by decide⟩

theorem marker_newline {m s : List Char} (hm : m ∈ markers) (hs : ¬ m <:+: s) :
    ¬ m <:+: '\n' :: s := by
  obtain ⟨hne, hnl, -⟩ := marker_cases hm
  refine not_infix_append (.inr ⟨[], rfl⟩) hnl ?_ hs
  intro h
  obtain h | h := infix_of_append_cons (s := []) hnl h
  · exact hne (List.infix_nil.mp h)
  · exact hne (List.infix_nil.mp h)

/-- A text with neither start marker. -/
theorem Around.unmarked {s m : List Char} (h : Around [] [gatewayStart, killStart]
    [gatewayStart, killStart] s) (hm : m ∈ [gatewayStart, killStart]) : ¬ m <:+: s := by
  obtain ⟨a, b, rfl, ha, -, -, hma, hmb⟩ := h
  have hnl : '\n' ∉ m := by
    refine (marker_cases ?_).2.1
    simp only [markers, List.mem_cons, List.not_mem_nil, or_false] at hm ⊢
    exact hm.imp id .inr
  rw [unlines_nil, List.append_nil]
  exact not_infix_append ha hnl (hma m hm) (hmb m hm)

theorem gatewayText_fresh {s : List Char} (h : Around [] [gatewayStart, killStart]
    [gatewayStart, killStart] s) (ip : InternalIp) :
    Around (gatewayLines ip.text) [gatewayStart, killStart] [gatewayEnd, killStart]
      (gatewayText ip.text s) := by
  have hno : ∀ m ∈ [gatewayStart, killStart], ¬ m <:+: s := fun m hm => h.unmarked hm
  have hports : NoPorts s := by
    obtain ⟨a, b, rfl, ha, hpa, hpb, -, -⟩ := h
    rw [unlines_nil, List.append_nil]
    exact noPorts_append ha hpa hpb
  rw [gatewayText, if_neg (hno gatewayStart List.mem_cons_self)]
  refine ⟨_, [], (List.append_nil _).symm, ended_rstrip _, noPorts_rstrip hports, noPorts_nil,
    ?_, by decide⟩
  intro m hm hmt
  have hmarker : m ∈ markers := by
    simp only [markers, List.mem_cons, List.not_mem_nil, or_false] at hm ⊢
    exact hm.imp id .inr
  obtain ⟨hne, hnl, -⟩ := marker_cases hmarker
  obtain hmt | hmt := infix_of_append_cons hnl hmt
  · exact hno m hm (hmt.trans (List.rdropWhile_prefix _ _).isInfix)
  · exact marker_newline hmarker (fun h => hne (List.infix_nil.mp h)) hmt

/-- The gateway's block between its markers. -/
theorem gatewayBlock_eq (ip : InternalIp) : ∃ mid, unlines (gatewayLines ip.text) =
    gatewayStart ++ mid ++ gatewayEnd ++ ['\n'] := by
  refine ⟨'\n' :: unlines ((gatewayLines ip.text).tail.dropLast), ?_⟩
  simp [gatewayLines]

theorem gatewayText_again {s : List Char} {ip : InternalIp}
    (h : Around (gatewayLines ip.text) [gatewayStart, killStart] [gatewayEnd, killStart] s)
    (ip' : InternalIp) :
    Around (gatewayLines ip'.text) [gatewayStart, killStart] [gatewayEnd, killStart]
      (gatewayText ip'.text s) := by
  obtain ⟨a, b, rfl, ha, hpa, hpb, hma, hmb⟩ := h
  obtain ⟨mid, hmid⟩ := gatewayBlock_eq ip
  have hbehind : ∀ m ∈ [gatewayEnd, killStart], ¬ m <:+: '\n' :: b := by
    intro m hm
    refine marker_newline ?_ (hmb m hm)
    exact List.mem_cons_of_mem _ hm
  have hfirst : splitFirst gatewayStart (a ++ unlines (gatewayLines ip.text) ++ b) = a := by
    have hsplit := splitFirst_append solid_gatewayStart (hma gatewayStart List.mem_cons_self)
      (mid ++ gatewayEnd ++ ['\n'] ++ b)
    rw [hmid]
    simpa only [List.append_assoc] using hsplit
  have hlast : splitLast gatewayEnd (a ++ unlines (gatewayLines ip.text) ++ b) = '\n' :: b := by
    have hsplit := splitLast_append solid_gatewayEnd (hbehind gatewayEnd List.mem_cons_self)
      (a ++ gatewayStart ++ mid)
    rw [hmid]
    simpa only [List.append_assoc, List.singleton_append] using hsplit
  have hstart : gatewayStart <:+: a ++ unlines (gatewayLines ip.text) ++ b := by
    refine ⟨a, mid ++ gatewayEnd ++ ['\n'] ++ b, ?_⟩
    rw [hmid]
    simp only [List.append_assoc]
  rw [gatewayText, if_pos hstart, hfirst, hlast]
  exact ⟨a, '\n' :: b, rfl, ha, hpa, noPorts_newline hpb, hma, hbehind⟩

/-- The text with the kill switch's block is in shape, whatever the file was like. -/
theorem killText_shape (s : List Char) :
    Around killLines [] [gatewayStart, gatewayEnd] (killText s) := by
  have hbehind : ∀ m ∈ [gatewayStart, gatewayEnd], ¬ m <:+: [] := by decide
  have hkept : NoPorts (unlines (spaced (keptLines s))) :=
    noPorts_unlines (fun _ hl => (mem_spaced_keptLines hl).1)
      fun _ hl => (mem_spaced_keptLines hl).2
  refine ⟨_, [], ?_, ended_unlines _, hkept, noPorts_nil, nofun, hbehind⟩
  rw [killText_eq, unlines_append, List.append_nil]

/-! ## The kill switch's block and the gateway's one -/

/-- The line that both blocks have. -/
def sharedLine : List Char := "TransPort 127.0.0.1:9040".toList

/-- A line that occurs twice binds its port twice. -/
theorem not_noConflict {s : List Char} {xs ys : List (List Char)} (hcr : '\r' ∉ s)
    (hs : lines s = xs ++ ys) (hx : sharedLine ∈ xs) (hy : sharedLine ∈ ys) :
    ¬ NoConflict (some s) := by
  rintro ⟨hnodup, -⟩
  have hbind : binding transPort sharedLine = some "127.0.0.1:9040".toList := rfl
  rw [bindings, readText_some hcr, splitlines_eq hcr, hs, List.filterMap_append,
    List.nodup_append'] at hnodup
  exact hnodup.2.2 (List.mem_filterMap.mpr ⟨_, hx, hbind⟩) (List.mem_filterMap.mpr ⟨_, hy, hbind⟩)

/-- A block whose first line is not the shared one, behind whatever text. -/
theorem sharedLine_mem {m : List Char} {blk : List (List Char)} (hblk : ∀ l ∈ blk, Unbroken l)
    (hmem : sharedLine ∈ blk) (s t : List Char) :
    sharedLine ∈ lines (s ++ unlines (m :: blk) ++ t) := by
  rw [lines_block hblk]
  exact List.mem_append_left _ (List.mem_append_right _ hmem)

theorem sharedLine_of_kill (s t : List Char) :
    sharedLine ∈ lines (s ++ unlines killLines ++ t) := by
  refine sharedLine_mem ?_ List.mem_cons_self s t
  intro l hl
  exact killLines_unbroken l (List.mem_cons_of_mem _ hl)

/-- Behind the last end marker of the gateway, the kill switch's block is still there. -/
theorem splitLast_kill {s : List Char} (h : Around killLines [] [gatewayStart, gatewayEnd] s) :
    ∃ t b, splitLast gatewayEnd s = t ++ unlines killLines ++ b := by
  obtain ⟨a, b, rfl, ha, -, -, -, hmb⟩ := h
  have hend : gatewayEnd ∈ markers := by simp [markers]
  obtain ⟨hne, hnl, -⟩ := marker_cases hend
  have hblock : ¬ gatewayEnd <:+: unlines killLines := by
    intro h
    have hno : ∀ l ∈ killLines, ¬ gatewayEnd <:+: l := by decide +kernel
    obtain ⟨l, hl, hml⟩ := marker_line hend h
    exact hno l hl hml
  have hb : ¬ gatewayEnd <:+: b := hmb gatewayEnd (by simp)
  have hrest : ¬ gatewayEnd <:+: unlines killLines ++ b :=
    not_infix_append (ended_unlines _) hnl hblock hb
  by_cases hmem : gatewayEnd <:+: a
  · obtain ⟨p, q, rfl, hq⟩ := exists_last hne hmem
    have hq' : ¬ gatewayEnd <:+: q ++ (unlines killLines ++ b) :=
      not_infix_append (ended_of_append ha) hnl hq hrest
    refine ⟨q, b, ?_⟩
    have hsplit := splitLast_append solid_gatewayEnd hq' p
    simpa only [List.append_assoc] using hsplit
  · refine ⟨a, b, ?_⟩
    have hno : ¬ gatewayEnd <:+: a ++ unlines killLines ++ b := by
      rw [List.append_assoc]
      exact not_infix_append ha hnl hmem hrest
    rw [splitLast, split_of_not_infix hno]
    rfl

theorem no_cr_gatewayText {s : List Char} (hs : '\r' ∉ s) (ip : InternalIp) :
    '\r' ∉ gatewayText ip.text s := by
  have hblock : '\r' ∉ gatewayBlock ip.text :=
    no_cr_unlines (gatewayLines_unbroken ip)
  rw [gatewayText]
  split
  · have hfirst : '\r' ∉ splitFirst gatewayStart s := fun h => hs (splitFirst_subset _ s h)
    have hlast : '\r' ∉ splitLast gatewayEnd s := fun h => hs (splitLast_subset _ s h)
    simp [hfirst, hblock, hlast]
  · have hstrip : '\r' ∉ rstripNewlines s := fun h => hs ((List.rdropWhile_prefix _ _).subset h)
    simp [hstrip, hblock]

/-- With both blocks in the file there is a conflict. -/
theorem gatewayText_conflict {s : List Char}
    (h : Around killLines [] [gatewayStart, gatewayEnd] s) (ip : InternalIp) :
    ¬ NoConflict (some (gatewayText ip.text s)) := by
  have hcr := no_cr_gatewayText (h.no_cr killLines_unbroken) ip
  have htail : ∀ l ∈ (gatewayLines ip.text).tail, Unbroken l := fun l hl =>
    gatewayLines_unbroken ip l (List.mem_of_mem_tail hl)
  have hmem : sharedLine ∈ (gatewayLines ip.text).tail := List.mem_cons_self
  by_cases hstart : gatewayStart <:+: s
  · obtain ⟨t, b, hlast⟩ := splitLast_kill h
    have htext : gatewayText ip.text s = splitFirst gatewayStart s ++
        unlines (gatewayStart :: (gatewayLines ip.text).tail) ++ (t ++ unlines killLines ++ b) := by
      rw [gatewayText, if_pos hstart, hlast]
      rfl
    rw [htext] at hcr ⊢
    refine not_noConflict hcr (lines_block htail _ _) ?_ (sharedLine_of_kill t b)
    exact List.mem_append_right _ hmem
  · have hkill : sharedLine ∈ lines s := by
      obtain ⟨a, b, rfl, -⟩ := h
      exact sharedLine_of_kill a b
    have hgateway : sharedLine ∈
        lines (['\n'] ++ unlines (gatewayStart :: (gatewayLines ip.text).tail) ++ []) :=
      sharedLine_mem htail hmem _ _
    rw [List.append_nil] at hgateway
    have htext : gatewayText ip.text s = rstripNewlines s ++ '\n' ::
        (['\n'] ++ unlines (gatewayStart :: (gatewayLines ip.text).tail)) := by
      rw [gatewayText, if_neg hstart, List.append_assoc]
      rfl
    rw [htext] at hcr ⊢
    exact not_noConflict hcr (lines_append_newline _ _)
      (mem_rstrip_lines hkill (by decide)) hgateway

/-! ## Runs -/

/-- The bridge lines are clean, and the internal address is another one than that of loopback. -/
def Call.Clean : Call → Prop
  | .configureBridges bridgeLines => ∀ b ∈ bridgeLines, CleanBridge b
  | .writeGatewayTorrcSnippet ip => ip.text ≠ "127.0.0.1".toList
  | .ensureTransparentProxyTorrc => True

/-- The gateway does not write its block into a file with the kill switch's one. -/
def Call.Safe (f : File) (a : Access) : Call → Prop
  | .writeGatewayTorrcSnippet _ => a = .granted → ¬ killStart <:+: readText f
  | _ => True

/-- Each call is safe when it is made. -/
def AllSafe : File → List (Access × Call) → Prop
  | _, [] => True
  | f, c :: cs => c.2.Safe f c.1 ∧ AllSafe (c.2.perform f c.1) cs

theorem Around.has_killStart {before behind : List (List Char)} {s : List Char}
    (h : Around killLines before behind s) : killStart <:+: s := by
  obtain ⟨a, b, rfl, -⟩ := h
  exact ⟨a, '\n' :: unlines killLines.tail ++ b, by simp [killLines]⟩

theorem gatewayLines_unmarked (ip : InternalIp) :
    ∀ l ∈ gatewayLines ip.text, ¬ killStart <:+: l := by
  have hport : ∀ kw port : List Char, '#' ∉ kw → NoSpace port →
      ¬ killStart <:+: kw ++ ip.text ++ port := by
    intro kw port hkw hport h
    rw [List.append_assoc] at h
    have hmem : ' ' ∈ ip.text ++ port := (infix_of_append hkw h).subset (by decide)
    exact absurd (noSpace_address ip hport ' ' hmem) (by decide)
  exact forall_gatewayLines (by decide +kernel) (hport _ _ (by decide) (by decide))
    (hport _ _ (by decide) (by decide))

/-- The kill switch's marker is in the file only together with its block. -/
theorem Shape.of_killStart {s : List Char} (h : Shape s) (hs : killStart <:+: s) :
    Around killLines [] [gatewayStart, gatewayEnd] s := by
  cases h with
  | plain h => exact absurd hs (h.unmarked (by simp))
  | gateway ip _ h =>
      obtain ⟨a, b, rfl, ha, -, -, hma, hmb⟩ := h
      have hkill : killStart ∈ markers := by simp [markers]
      obtain ⟨-, hnl, -⟩ := marker_cases hkill
      have hblock : ¬ killStart <:+: unlines (gatewayLines ip.text) := by
        intro h
        obtain ⟨l, hl, hml⟩ := marker_line hkill h
        exact gatewayLines_unmarked ip l hl hml
      rw [List.append_assoc] at hs
      refine absurd hs (not_infix_append ha hnl (hma killStart (by simp)) ?_)
      exact not_infix_append (ended_unlines _) hnl hblock (hmb killStart (by simp))
  | kill h => exact h

/-- A safe call leaves the file in shape. -/
theorem Shape.perform {f : File} (h : Shape (readText f)) {a : Access} {x : Call}
    (hclean : x.Clean) (hx : x.Safe f a) : Shape (readText (x.perform f a)) := by
  cases x with
  | ensureTransparentProxyTorrc =>
      have hkill : Shape (killText (readText f)) := .kill (killText_shape _)
      show Shape (readText (ensureTransparentProxyTorrc a f).2)
      unfold ensureTransparentProxyTorrc
      split
      · exact h
      · split
        · exact h
        · split
          · exact h
          · rwa [readText_some hkill.no_cr]
  | writeGatewayTorrcSnippet ip =>
      show Shape (readText (writeGatewayTorrcSnippet a ip.text f))
      unfold writeGatewayTorrcSnippet
      split
      · rename_i ha
        have hgateway : Shape (gatewayText ip.text (readText f)) := by
          cases h with
          | plain h => exact .gateway ip hclean (gatewayText_fresh h ip)
          | gateway ip' _ h => exact .gateway ip hclean (gatewayText_again h ip)
          | kill h => exact absurd h.has_killStart (hx ha)
        rwa [readText_some hgateway.no_cr]
      · exact h
  | configureBridges bs =>
      show Shape (readText (configureBridges a bs f))
      unfold configureBridges
      split
      · exact h
      · split
        · have hbridge := h.bridge hclean
          have hne : bridgedLines bs (readText f) ≠ [] := by simp [bridgedLines]
          rw [joinLines_newline hne]
          rwa [readText_some hbridge.no_cr]
        · exact h

/-- An unsafe call makes a conflict. -/
theorem Shape.conflict {f : File} (h : Shape (readText f)) {a : Access} {x : Call}
    (hx : ¬ x.Safe f a) : ¬ NoConflict (x.perform f a) := by
  cases x with
  | ensureTransparentProxyTorrc => exact absurd trivial hx
  | configureBridges bs => exact absurd trivial hx
  | writeGatewayTorrcSnippet ip =>
      obtain ⟨ha, hkill⟩ := Classical.not_imp.mp hx
      have hconflict := gatewayText_conflict (h.of_killStart (not_not.mp hkill)) ip
      show ¬ NoConflict (writeGatewayTorrcSnippet a ip.text f)
      rwa [writeGatewayTorrcSnippet, if_pos ha]

/-- No call leaves a conflict. -/
def NeverConflict (f : File) (cs : List (Access × Call)) : Prop :=
  ∀ ds, ds <+: cs → NoConflict (performAll f ds)

theorem Shape.allSafe_iff {f : File} (h : Shape (readText f)) {cs : List (Access × Call)}
    (hclean : ∀ c ∈ cs, c.2.Clean) : NeverConflict f cs ↔ AllSafe f cs := by
  induction cs generalizing f with
  | nil =>
      refine ⟨fun _ => trivial, ?_⟩
      intro _ ds hds
      obtain rfl := List.prefix_nil.mp hds
      exact noConflict_of_shape h
  | cons c cs ih =>
      have hc : c.2.Clean := hclean c List.mem_cons_self
      have hcs : ∀ d ∈ cs, d.2.Clean := fun d hd => hclean d (List.mem_cons_of_mem _ hd)
      constructor
      · intro hall
        have hsafe : c.2.Safe f c.1 := by
          by_contra hunsafe
          exact h.conflict hunsafe (hall [c] ⟨cs, rfl⟩)
        refine ⟨hsafe, (ih (h.perform hc hsafe) hcs).mp ?_⟩
        intro ds hds
        exact hall (c :: ds) (List.cons_prefix_cons.mpr ⟨rfl, hds⟩)
      · rintro ⟨hsafe, hrest⟩ ds hds
        cases ds with
        | nil => exact noConflict_of_shape h
        | cons d ds =>
            obtain ⟨rfl, hds'⟩ := List.cons_prefix_cons.mp hds
            exact (ih (h.perform hc hsafe) hcs).mpr hrest ds hds'

/-- **Port conflicts.** From a file without port lines and without a managed block, and with
clean bridge lines, no call of a sequence leaves a file that binds an address and port twice
if and only if the gateway's block is never written into a file that holds the kill switch's
one. -/
theorem noConflict_iff {f : File} {cs : List (Access × Call)}
    (hports : ∀ l ∈ splitlines (readText f), isPort l = false)
    (hmarkers : ∀ m ∈ [gatewayStart, killStart], ¬ m <:+: readText f)
    (hclean : ∀ c ∈ cs, c.2.Clean) : NeverConflict f cs ↔ AllSafe f cs := by
  have hcr := no_cr_readText f
  rw [splitlines_eq hcr] at hports
  have hshape : Shape (readText f) :=
    .plain ⟨[], readText f, rfl, .inl rfl, noPorts_nil, ⟨hcr, hports⟩, by decide, hmarkers⟩
  exact hshape.allSafe_iff hclean

section

def socksOnly : File := some "SocksPort 9050\n".toList

def someIp : InternalIp := ⟨"10.152.152.10".toList, by decide⟩

def gatewayThenKill : List (Access × Call) :=
  [(.granted, .writeGatewayTorrcSnippet someIp),
    (.granted, .configureBridges ["obfs4 192.0.2.1:443 iat-mode=0".toList]),
    (.granted, .ensureTransparentProxyTorrc)]

theorem noConflict_iff_gatewayThenKill : NeverConflict socksOnly gatewayThenKill := by
  have hip : someIp.text ≠ "127.0.0.1".toList := by decide
  have hbridge : ∀ b ∈ ["obfs4 192.0.2.1:443 iat-mode=0".toList], CleanBridge b := by
    intro b hb
    obtain rfl := List.mem_singleton.mp hb
    exact ⟨by decide, by decide⟩
  have hclean : ∀ c ∈ gatewayThenKill, c.2.Clean := by
    simp only [gatewayThenKill, List.forall_mem_cons]
    exact ⟨hip, hbridge, trivial, nofun⟩
  refine (noConflict_iff (by decide) (by decide) hclean).mpr ?_
  exact ⟨fun _ => by decide, trivial, trivial, trivial⟩

/-- The kill switch has been on, and then gateway mode is switched on. -/
def killThenGateway : List (Access × Call) :=
  [(.granted, .ensureTransparentProxyTorrc), (.granted, .writeGatewayTorrcSnippet someIp)]

theorem not_noConflict_killThenGateway : ¬ NeverConflict socksOnly killThenGateway := by
  intro h
  have hconflict : ¬ NoConflict (performAll socksOnly killThenGateway) := by decide +kernel
  exact hconflict (h _ (List.prefix_refl _))

end

end PrivacyGuard.Torrc
