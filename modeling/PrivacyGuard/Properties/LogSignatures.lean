import Mathlib.Algebra.Order.Group.Int
import PrivacyGuard.Http.Response
import PrivacyGuard.Model.LogWatch
import PrivacyGuard.Text.Words

set_option autoImplicit false

/-! # Signatures in a log that is being written

The watch takes what it reads at the end of the log for a line, also where the line has not been
finished yet, and a line with `\r` in it for several. What it cannot decode ends it. Apart from that
it sees each line once. -/

namespace PrivacyGuard.LogWatch

open Text

variable {T : Type}

/-- The end of a line makes no difference to the alert. -/
theorem signatureAlert_concat {c : Char} (hc : isSpace c = true) (l : List Char) :
    signatureAlert (l ++ [c]) = signatureAlert l := by
  rw [signatureAlert, strip_concat hc, signatureAlert]

theorem knownSign_concat {c : Char} (hc : ∀ sign ∈ niktoSigns, sign ≠ [] ∧ foldCase c ∉ sign)
    (l : List Char) : knownSign (l ++ [c]) = knownSign l := by
  have hfold : (l ++ [c]).map foldCase = l.map foldCase ++ [foldCase c] := List.map_append
  rw [knownSign, knownSign, hfold, Bool.eq_iff_iff]
  simp only [List.any_eq_true, decide_eq_true_eq]
  refine exists_congr fun sign => and_congr_right fun hsign => ?_
  obtain ⟨hne, hnl⟩ := hc sign hsign
  constructor
  · intro h
    refine (infix_of_append_cons hnl h).resolve_right fun hnil => ?_
    exact hne (List.infix_nil.mp hnil)
  · intro h
    exact h.trans (List.prefix_append _ _).isInfix

/-- A whole line is handled as its text would be. -/
theorem handled_line {D : Decoder} {l : Octets} {e : Line T} (hclean : Clean D l) (hlf : lf ∉ l)
    (hbytes : e.bytes = l ++ [lf])
    (htext : ∃ t, D.decode e.bytes = some t ∧ e.text = universalNewlines t) :
    ∃ t, D.decode l = some t ∧ knownSign e.text = knownSign t ∧
      signatureAlert e.text = signatureAlert t := by
  obtain ⟨t, ht, htext⟩ := htext
  rw [hbytes] at ht
  obtain ⟨u, r, hl, hr, hlines⟩ := hclean.text hlf ht
  refine ⟨u ++ r, hl, ?_, ?_⟩
  · rw [htext, hlines, knownSign_concat (by decide)]
    obtain rfl | rfl := hr
    · rw [List.append_nil]
    · rw [knownSign_concat (by decide)]
  · rw [htext, hlines, signatureAlert_concat rfl]
    obtain rfl | rfl := hr
    · rw [List.append_nil]
    · rw [signatureAlert_concat rfl]

/-- Whole lines are handled as their texts would be. -/
theorem signs_of_bytes {D : Decoder} {ls : List Octets} {es : List (Line T)}
    (hbytes : es.map Line.bytes = ls.map (· ++ [lf])) (hls : ∀ l ∈ ls, lf ∉ l)
    (hclean : ∀ l ∈ ls, Clean D l)
    (htext : ∀ e ∈ es, ∃ t, D.decode e.bytes = some t ∧ e.text = universalNewlines t) :
    ((es.map Line.text).filter knownSign).map signatureAlert =
      ((ls.filterMap D.decode).filter knownSign).map signatureAlert := by
  induction es generalizing ls with
  | nil =>
      rw [List.map_eq_nil_iff.mp hbytes.symm]
      rfl
  | cons e es ih =>
      cases ls with
      | nil => cases hbytes
      | cons l ls =>
          obtain ⟨hline, hrest⟩ := List.cons_eq_cons.mp hbytes
          rw [List.forall_mem_cons] at hls hclean htext
          have hes := ih hrest hls.2 hclean.2 htext.2
          obtain ⟨t, ht, hknown, halert⟩ := handled_line hclean.1 hls.1 hline htext.1
          rw [List.map_cons, List.filter_cons, List.filterMap_cons_some ht, List.filter_cons,
            hknown]
          split
          · rw [List.map_cons, List.map_cons, hes, halert]
          · exact hes

variable [AddCommGroup T] [LinearOrder T]

/-- A line makes the watch report a signature, or not. -/
theorem signatures_handleLine (s : Settings T) (hits : List T) (now : T) (line : List Char) :
    signatures (handleLine s hits now line).2 =
      if knownSign line then [signatureAlert line] else [] := by
  have hknown : signatures (if knownSign line then [signatureAlert line] else []) =
      if knownSign line then [signatureAlert line] else [] := by
    split
    · rfl
    · rfl
  rw [handleLine]
  split
  · rw [signatures, List.filter_append, ← signatures, hknown]
    exact List.append_nil _
  · exact hknown

theorem signatures_alerts (s : Settings T) (hits : List T) (es : List (Line T)) :
    signatures (alerts s hits es) =
      ((es.map Line.text).filter knownSign).map signatureAlert := by
  induction es generalizing hits with
  | nil => rfl
  | cons e es ih =>
      rw [alerts, signatures, List.filter_append, ← signatures, ← signatures, ih,
        signatures_handleLine, List.map_cons, List.filter_cons]
      split
      · rfl
      · rfl

/-- Each line is seen once. -/
structure SeenOnce (D : Decoder) (s : Settings T) (ls : List Octets) (ms : List (Move T)) :
    Prop where
  /-- One alert for each line with a known signature, and no others. -/
  signatures_eq : signatures (watchHttpAccessLog D s ms) =
    ((ls.filterMap D.decode).filter knownSign).map signatureAlert
  /-- A time is noted for each line, and for nothing else. -/
  counted_eq : (handled D [] ms).map Line.bytes = ls.map (· ++ [lf])

/-- **Each line is seen once** if and only if no read meets an unfinished line, and every line can
be decoded and has no `\r` in it but at its end. -/
theorem seenOnce_iff (D : Decoder) (s : Settings T) {ls : List Octets} {ms : List (Move T)}
    (hls : ∀ l ∈ ls, lf ∉ l) (hwritten : written ms = joined ls) (hleft : left [] ms = []) :
    SeenOnce D s ls ms ↔ Whole [] ms ∧ ∀ l ∈ ls, Clean D l := by
  constructor
  · rintro ⟨-, hcounted⟩
    exact (handled_eq_iff hls hwritten hleft).mp hcounted
  · intro h
    have hcounted := (handled_eq_iff hls hwritten hleft).mpr h
    refine ⟨?_, hcounted⟩
    rw [watchHttpAccessLog, signatures_alerts]
    exact signs_of_bytes hcounted hls h.2 fun e he => decode_of_mem_handled he

/-- A request that is written at once, and read. -/
def wholeRequest : List (Move Int) := [.write (Http.ascii "GET /?q=sqlmap\n"), .read 0 0]

theorem seenOnce_wholeRequest :
    SeenOnce utf8 ⟨10, 20⟩ [Http.ascii "GET /?q=sqlmap"] wholeRequest := by
  refine (seenOnce_iff utf8 ⟨10, 20⟩ ?_ ?_ ?_).mpr ⟨⟨.inr ?_, trivial⟩, ?_⟩ <;> decide +kernel

/-- The same request in two pieces, each of which is read at once. -/
def splitRequest : List (Move Int) :=
  [.write (Http.ascii "GET /?q=sql"), .read 0 0, .write (Http.ascii "map\n"), .read 1 0]

theorem not_seenOnce :
    ¬ ∀ (s : Settings Int) (ls : List Octets) (ms : List (Move Int)),
      (∀ l ∈ ls, lf ∉ l) → written ms = joined ls → left [] ms = [] →
        SeenOnce utf8 s ls ms := by
  intro h
  have hseen := (h ⟨10, 20⟩ [Http.ascii "GET /?q=sqlmap"] splitRequest (by decide +kernel)
    (by decide +kernel) (by decide +kernel)).signatures_eq
  exact absurd hseen (by decide +kernel)

end PrivacyGuard.LogWatch
