import PrivacyGuard.Model.SocksCheck

set_option autoImplicit false

/-! # The answer of the Tor check

What stands behind the header is decoded as it came. That is the body when the body came as it is.
In chunks it came with their lengths, and no document begins with a number on a line of its own
and goes on. -/

namespace PrivacyGuard.SocksCheck

open Http

variable {J : Type}

theorem isLetterOrDigit_of_hexDigit {b : UInt8} (h : (hexDigit b).isSome = true) :
    isLetterOrDigit b = true ∧ isBlank b = false := by
  have hrange : (48 ≤ b ∧ b ≤ 57) ∨ (65 ≤ b ∧ b ≤ 70) ∨ (97 ≤ b ∧ b ≤ 102) := by
    rw [hexDigit] at h
    split at h
    · exact .inl ‹_›
    · split at h
      · exact .inr (.inl ‹_›)
      · split at h
        · exact .inr (.inr ‹_›)
        · cases h
  simp only [UInt8.le_iff_toNat_le] at hrange
  simp only [isLetterOrDigit, isBlank, UInt8.le_iff_toNat_le, ← UInt8.toNat_inj, Bool.or_eq_true,
    Bool.and_eq_true, Bool.or_eq_false_iff, decide_eq_true_eq, decide_eq_false_iff_not]
  simp only [UInt8.toNat_ofNat] at hrange ⊢
  omega

/-- No document is a text in chunks. -/
theorem loads_chunked (D : Decoder J) {cs : List Chunk} (last : LastChunk)
    (h : cs.flatMap (·.data) ≠ []) : D.loads (cs.flatMap Chunk.wire ++ last.wire) = none := by
  obtain ⟨⟨b, s, hbegin, hb⟩, pre, d, post, hline, hd, hdigit⟩ := chunked_text last h
  rw [Option.eq_none_iff_forall_ne_some]
  intro j hj
  rw [hbegin] at hj hline
  have hblank := D.literal hj (isLetterOrDigit_of_hexDigit hb).1 hline (by decide) d hd
  rw [(isLetterOrDigit_of_hexDigit hdigit).2] at hblank
  cases hblank

/-- **The Tor check decodes the answer** if and only if the body is not sent in chunks. -/
theorem decoded_iff (D : Decoder J) (r : Response) {j : J} (hj : D.loads r.body = some j)
    {segments : List Bytes} (h : Brings r.wire segments) :
    torCheckViaSocks D (segments ++ [[]]) = some j ↔ r.framing = .contentLength := by
  rw [torCheckViaSocks_brings D r h]
  have hannounced := r.announced
  cases hframing : r.framing with
  | contentLength => exact iff_of_true hj rfl
  | chunked cs last =>
      rw [hframing] at hannounced
      have hne : cs.flatMap (·.data) ≠ [] := by
        rw [← hannounced.1]
        intro hnil
        rw [hnil, D.loads_nil] at hj
        cases hj
      refine iff_of_false ?_ (fun h => by cases h)
      rw [Framing.wire, loads_chunked D last hne]
      exact fun h => by cases h

/-! ## An answer in both framings -/

def isTorText : Bytes := ascii "\x7b\"IsTor\":true\x7d"

/-- What a decoder makes of this text. -/
def isTorDecoder : Decoder Bool where
  loads b := if b = isTorText then some true else none
  loads_nil := by decide
  literal := by
    intro b s j h hb
    split at h
    · rename_i htext
      obtain ⟨rfl, -⟩ := List.cons.inj htext
      exact absurd hb (by decide)
    · cases h

def asItIs : Response where
  statusLine := ascii "HTTP/1.1 200 OK"
  fields := [⟨ascii "Content-Length", ascii " 14", by decide, by decide, by decide⟩]
  body := isTorText
  framing := .contentLength
  version := by decide
  plain := by decide
  announced := by
    refine ⟨⟨_, List.mem_singleton_self _, by decide +kernel, by decide +kernel⟩, ?_⟩
    decide +kernel

theorem decoded_iff_asItIs :
    torCheckViaSocks isTorDecoder ([asItIs.wire.take 20, asItIs.wire.drop 20] ++ [[]]) =
      some true :=
  (decoded_iff isTorDecoder asItIs (by decide +kernel) (by decide +kernel)).mpr rfl

def inChunks : Response where
  statusLine := ascii "HTTP/1.1 200 OK"
  fields := [⟨ascii "Transfer-Encoding", ascii " chunked", by decide, by decide, by decide⟩]
  body := isTorText
  framing := .chunked
    [{ size := ascii "e", ext := [], ext_plain := by decide, ext_sep := fun _ h => by cases h
       data := isTorText, data_ne := by decide, size_eq := by decide }]
    { size := ascii "0", ext := [], ext_plain := by decide, ext_sep := fun _ h => by cases h
      trailer := [], size_eq := by decide }
  version := by decide
  plain := by decide
  announced := by
    refine ⟨by decide, _, List.mem_singleton_self _, ?_, ?_⟩
    · decide +kernel
    · decide +kernel

theorem not_decoded : isTorDecoder.loads inChunks.body = some true ∧
    Brings inChunks.wire [inChunks.wire] ∧
    torCheckViaSocks isTorDecoder ([inChunks.wire] ++ [[]]) ≠ some true := by
  decide +kernel

end PrivacyGuard.SocksCheck
