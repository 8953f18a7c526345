import PrivacyGuard.Http.Response

set_option autoImplicit false

/-! # The Tor check

`_tor_check_via_socks` of `proxy_tor.py`, as a function of the answers of `recv`. The decoder of
JSON is a parameter. -/

namespace PrivacyGuard.SocksCheck

open Http

def isLetterOrDigit (b : UInt8) : Bool :=
  (48 ≤ b && b ≤ 57) || (65 ≤ b && b ≤ 90) || (97 ≤ b && b ≤ 122)

/-- Blanks of JSON. -/
def isBlank (b : UInt8) : Bool := b = 32 || b = 9 || b = 10 || b = 13

/-- `json.loads(body.decode())`; `none` is an exception. -/
structure Decoder (J : Type) where
  loads : Bytes → Option J
  loads_nil : loads [] = none
  /-- A document that begins with a letter or a digit is a number or a name, with nothing but
  blanks behind it. -/
  literal : ∀ {b : UInt8} {s : Bytes} {j : J}, loads (b :: s) = some j →
    isLetterOrDigit b = true → ∀ {pre post : Bytes} {c : UInt8}, b :: s = pre ++ c :: post →
    isBlank c = true → ∀ d ∈ post, isBlank d = true

/-- The loop over `ssock.recv(4096)`, up to the empty answer. -/
def receive : List Bytes → Option (List Bytes)
  | [] => none
  | chunk :: answers => if chunk = [] then some [] else (receive answers).map (chunk :: ·)

/-- `b"".join(chunks).split(b"\r\n\r\n", 1)[-1]` -/
def bodyOf (chunks : List Bytes) : Bytes :=
  (afterFirst emptyLine chunks.flatten).getD chunks.flatten

def torCheckViaSocks {J : Type} (D : Decoder J) (answers : List Bytes) : Option J := do
  let chunks ← receive answers
  D.loads (bodyOf chunks)

/-- The answers of `recv` that bring `wire`, before the empty one. -/
structure Brings (wire : Bytes) (segments : List Bytes) : Prop where
  flatten : segments.flatten = wire
  size : ∀ s ∈ segments, s ≠ [] ∧ s.length ≤ 4096

instance (wire : Bytes) (segments : List Bytes) : Decidable (Brings wire segments) :=
  decidable_of_iff (segments.flatten = wire ∧ ∀ s ∈ segments, s ≠ [] ∧ s.length ≤ 4096)
    ⟨fun h => ⟨h.1, h.2⟩, fun h => ⟨h.1, h.2⟩⟩

theorem receive_brings {segments : List Bytes} (h : ∀ s ∈ segments, s ≠ []) :
    receive (segments ++ [[]]) = some segments := by
  induction segments with
  | nil => rfl
  | cons s segments ih =>
      rw [List.cons_append, receive, if_neg (h s List.mem_cons_self),
        ih fun t ht => h t (List.mem_cons_of_mem s ht)]
      rfl

/-- What is decoded does not depend on how the answer is cut. -/
theorem torCheckViaSocks_brings {J : Type} (D : Decoder J) (r : Response)
    {segments : List Bytes} (h : Brings r.wire segments) :
    torCheckViaSocks D (segments ++ [[]]) = D.loads (r.framing.wire r.body) := by
  have hbody : bodyOf segments = r.framing.wire r.body := by
    rw [bodyOf, h.flatten, r.afterFirst_wire, Option.getD_some]
  rw [torCheckViaSocks, receive_brings fun s hs => (h.size s hs).1, ← hbody]
  rfl

end PrivacyGuard.SocksCheck
