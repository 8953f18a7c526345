import Mathlib.Data.List.Infix
import Mathlib.Tactic.Common

set_option autoImplicit false

/-! # Responses on the wire

A response is a head, of a status line and header fields, and a body. Each line of the head ends
with CR LF, and the head ends with the first empty line. The body follows as it is, when a field
says how long it is, or in chunks, each behind its length in hexadecimal digits; a chunk of length
zero ends them. -/

namespace Http

abbrev Bytes : Type := List UInt8

/-- A text of ASCII characters. -/
def ascii (s : String) : Bytes := s.toList.map fun c => UInt8.ofNat c.toNat

def crlf : Bytes := [13, 10]

/-- There is no end of a line in it. -/
def Plain (l : Bytes) : Prop := 13 ∉ l ∧ 10 ∉ l

instance (l : Bytes) : Decidable (Plain l) := inferInstanceAs (Decidable (_ ∧ _))

/-! ## What stands behind a separator -/

/-- What stands behind the first `sep`. -/
def afterFirst (sep : Bytes) : Bytes → Option Bytes
  | [] => none
  | b :: s => if sep <+: b :: s then some ((b :: s).drop sep.length) else afterFirst sep s

/-- An empty line, with the end of the line before it. -/
def emptyLine : Bytes := crlf ++ crlf

theorem afterFirst_skip {l : Bytes} (hl : 13 ∉ l) (s : Bytes) :
    afterFirst emptyLine (l ++ s) = afterFirst emptyLine s := by
  induction l with
  | nil => rfl
  | cons b l ih =>
      rw [List.mem_cons, not_or] at hl
      have hnot : ¬ emptyLine <+: b :: (l ++ s) := fun h => hl.1 (List.cons_prefix_cons.mp h).1
      rw [List.cons_append, afterFirst, if_neg hnot, ih hl.2]

/-- The end of a line is passed when the next line is not empty. -/
theorem afterFirst_crlf {b : UInt8} (hb : b ≠ 13) (s : Bytes) :
    afterFirst emptyLine (crlf ++ b :: s) = afterFirst emptyLine (b :: s) := by
  have hfirst : ¬ emptyLine <+: 13 :: 10 :: b :: s := by
    simp [emptyLine, crlf, List.cons_prefix_cons, hb.symm]
  have hsecond : ¬ emptyLine <+: 10 :: b :: s := by
    simp [emptyLine, crlf, List.cons_prefix_cons]
  rw [crlf, List.cons_append, List.cons_append, List.nil_append, afterFirst, if_neg hfirst,
    afterFirst, if_neg hsecond]

theorem afterFirst_emptyLine (s : Bytes) : afterFirst emptyLine (crlf ++ (crlf ++ s)) = some s := by
  have hpre : emptyLine <+: 13 :: 10 :: 13 :: 10 :: s := ⟨s, rfl⟩
  rw [crlf, List.cons_append, List.cons_append, List.nil_append, List.cons_append,
    List.cons_append, List.nil_append, afterFirst, if_pos hpre]
  rfl

/-- The first empty line behind some lines that are not empty. -/
theorem afterFirst_lines {l : Bytes} {ls : List Bytes} (h : ∀ m ∈ l :: ls, 13 ∉ m ∧ m ≠ [])
    (s : Bytes) :
    afterFirst emptyLine ((l :: ls).flatMap (· ++ crlf) ++ (crlf ++ s)) = some s := by
  induction ls generalizing l with
  | nil =>
      rw [List.flatMap_singleton, List.append_assoc,
        afterFirst_skip (h l List.mem_cons_self).1, afterFirst_emptyLine]
  | cons m ls ih =>
      obtain ⟨hm, hne⟩ := h m (List.mem_cons_of_mem _ List.mem_cons_self)
      have ih := ih fun k hk => h k (List.mem_cons_of_mem _ hk)
      obtain ⟨b, m', rfl⟩ := List.exists_cons_of_ne_nil hne
      have hb : b ≠ 13 := fun heq => hm (heq ▸ List.mem_cons_self)
      rw [List.flatMap_cons, List.append_assoc, List.append_assoc,
        afterFirst_skip (h l List.mem_cons_self).1]
      rw [List.flatMap_cons, List.append_assoc, List.append_assoc] at ih ⊢
      rw [List.cons_append, afterFirst_crlf hb]
      exact ih

/-! ## Header fields -/

/-- A header field; the value has the blanks around it. -/
structure Field where
  name : Bytes
  value : Bytes
  name_ne : name ≠ []
  name_plain : Plain name
  value_plain : Plain value

namespace Field

def line (f : Field) : Bytes := f.name ++ ascii ":" ++ f.value

theorem line_plain (f : Field) : 13 ∉ f.line ∧ f.line ≠ [] := by
  have hcolon : (13 : UInt8) ∉ ascii ":" := by decide
  refine ⟨?_, ?_⟩
  · rw [line, List.mem_append, List.mem_append, not_or, not_or]
    exact ⟨⟨f.name_plain.1, hcolon⟩, f.value_plain.1⟩
  · exact List.append_ne_nil_of_left_ne_nil (List.append_ne_nil_of_left_ne_nil f.name_ne _) _

def lower (b : UInt8) : UInt8 := if 65 ≤ b ∧ b ≤ 90 then b + 32 else b

def isBlank (b : UInt8) : Bool := b = 32 || b = 9

/-- The name, in any case. -/
def Named (f : Field) (name : String) : Prop := f.name.map lower = ascii name

/-- The value, without the blanks around it. -/
def content (f : Field) : Bytes :=
  ((f.value.dropWhile isBlank).reverse.dropWhile isBlank).reverse

/-- The value is this word, in any case. -/
def Says (f : Field) (word : String) : Prop := f.content.map lower = ascii word

instance (f : Field) (name : String) : Decidable (f.Named name) :=
  inferInstanceAs (Decidable (_ = _))

instance (f : Field) (word : String) : Decidable (f.Says word) :=
  inferInstanceAs (Decidable (_ = _))

end Field

/-! ## Numbers -/

def decimalDigit (b : UInt8) : Option Nat :=
  if 48 ≤ b ∧ b ≤ 57 then some (b.toNat - 48) else none

def hexDigit (b : UInt8) : Option Nat :=
  if 48 ≤ b ∧ b ≤ 57 then some (b.toNat - 48)
  else if 65 ≤ b ∧ b ≤ 70 then some (b.toNat - 55)
  else if 97 ≤ b ∧ b ≤ 102 then some (b.toNat - 87)
  else none

/-- The number of some digits, any zeros before it among them. -/
def number (base : Nat) (digit : UInt8 → Option Nat) (digits : Bytes) : Option Nat :=
  if digits = [] then none
  else digits.foldlM (fun n b => (digit b).map (base * n + ·)) 0

def decimalValue (digits : Bytes) : Option Nat := number 10 decimalDigit digits

def hexValue (size : Bytes) : Option Nat := number 16 hexDigit size

/-! ## Chunks -/

/-- A line with a length, and what may stand behind it there. -/
structure SizeLine where
  size : Bytes
  ext : Bytes
  ext_plain : Plain ext
  ext_sep : ∀ b ∈ ext.head?, hexDigit b = none

structure Chunk extends SizeLine where
  data : Bytes
  data_ne : data ≠ []
  size_eq : hexValue size = some data.length

def SizeLine.wire (l : SizeLine) : Bytes := l.size ++ l.ext ++ crlf

def Chunk.wire (c : Chunk) : Bytes := c.toSizeLine.wire ++ c.data ++ crlf

/-- The last chunk, with the fields behind it. -/
structure LastChunk extends SizeLine where
  trailer : List Field
  size_eq : hexValue size = some 0

def LastChunk.wire (c : LastChunk) : Bytes :=
  c.toSizeLine.wire ++ c.trailer.flatMap (fun f => f.line ++ crlf) ++ crlf

/-! ## Responses -/

inductive Framing
  | contentLength
  | chunked (cs : List Chunk) (last : LastChunk)

def Framing.wire (body : Bytes) : Framing → Bytes
  | contentLength => body
  | chunked cs last => cs.flatMap Chunk.wire ++ last.wire

/-- The fields say how the body is framed. -/
def Framing.Announced (fields : List Field) (body : Bytes) : Framing → Prop
  | contentLength =>
      (∃ f ∈ fields, f.Named "content-length" ∧ decimalValue f.content = some body.length) ∧
        ∀ f ∈ fields, ¬ f.Named "transfer-encoding"
  | chunked cs _ =>
      body = cs.flatMap (·.data) ∧
        ∃ f ∈ fields, f.Named "transfer-encoding" ∧ f.Says "chunked"

structure Response where
  statusLine : Bytes
  fields : List Field
  body : Bytes
  framing : Framing
  version : ascii "HTTP/1.1 " <+: statusLine
  plain : Plain statusLine
  announced : framing.Announced fields body

namespace Response

variable (r : Response)

def head : Bytes := (r.statusLine :: r.fields.map Field.line).flatMap (· ++ crlf) ++ crlf

def wire : Bytes := r.head ++ r.framing.wire r.body

/-- The framed body stands behind the first empty line. -/
theorem afterFirst_wire : afterFirst emptyLine r.wire = some (r.framing.wire r.body) := by
  have hlines : ∀ m ∈ r.statusLine :: r.fields.map Field.line, 13 ∉ m ∧ m ≠ [] := by
    intro m hm
    obtain rfl | hm := List.mem_cons.mp hm
    · refine ⟨r.plain.1, fun hnil => ?_⟩
      have hversion := r.version
      rw [hnil, List.prefix_nil] at hversion
      exact absurd hversion (by decide)
    · obtain ⟨f, -, rfl⟩ := List.mem_map.mp hm
      exact f.line_plain
  rw [wire, head, List.append_assoc, afterFirst_lines hlines]

end Response

/-- A hexadecimal number has a first digit. -/
theorem exists_digit {size : Bytes} {n : Nat} (h : hexValue size = some n) :
    ∃ b s, size = b :: s ∧ (hexDigit b).isSome = true := by
  rw [hexValue, number] at h
  cases size with
  | nil => cases h
  | cons b s =>
      rw [if_neg (List.cons_ne_nil b s), List.foldlM_cons] at h
      obtain ⟨m, hm, -⟩ := Option.bind_eq_some_iff.mp h
      obtain ⟨d, hd, -⟩ := Option.map_eq_some_iff.mp hm
      exact ⟨b, s, rfl, Option.isSome_of_mem hd⟩

/-- In chunks, a text that is not empty begins with a digit, and another one stands somewhere
behind an end of a line. -/
theorem chunked_text {cs : List Chunk} (last : LastChunk) (h : cs.flatMap (·.data) ≠ []) :
    (∃ b s, cs.flatMap Chunk.wire ++ last.wire = b :: s ∧ (hexDigit b).isSome = true) ∧
      ∃ pre d post, cs.flatMap Chunk.wire ++ last.wire = pre ++ 13 :: post ∧ d ∈ post ∧
        (hexDigit d).isSome = true := by
  cases cs with
  | nil => exact absurd rfl h
  | cons c cs =>
      obtain ⟨b, s, hsize, hb⟩ := exists_digit c.size_eq
      obtain ⟨d, t, hlast, hd⟩ := exists_digit last.size_eq
      have hwire : (c :: cs).flatMap Chunk.wire ++ last.wire = c.size ++ c.ext ++
          13 :: 10 :: (c.data ++ crlf ++ cs.flatMap Chunk.wire ++ last.wire) := by
        simp [Chunk.wire, SizeLine.wire, crlf]
      refine ⟨?_, c.size ++ c.ext, d, _, hwire, ?_, hd⟩
      · rw [hwire, hsize]
        exact ⟨b, _, rfl, hb⟩
      · simp [LastChunk.wire, SizeLine.wire, hlast]

end Http
