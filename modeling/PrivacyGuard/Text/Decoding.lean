import Mathlib.Data.List.Infix
import Mathlib.Tactic.Common

set_option autoImplicit false

/-! # Decoding bytes

A decoder takes the bytes one after the other. It may give characters for a byte, wait for more
of them, or refuse it; the refusal is final. `Decoder` are those whose newlines are the bytes 10
and 13 and nothing else, as those of ASCII, of the extensions of ASCII by one byte, and of UTF-8,
which is `utf8`. A line that ends with a newline can then be decoded by itself
(`decode_append_newline`). -/

namespace Text

abbrev Octets : Type := List UInt8

def lf : UInt8 := 10

def cr : UInt8 := 13

/-- `start` is where no character has been begun. -/
structure Decoder where
  State : Type
  [decEq : DecidableEq State]
  start : State
  /-- `none` is a byte that cannot stand here. -/
  step : State → UInt8 → Option (State × List Char)
  step_lf : step start lf = some (start, ['\n'])
  step_cr : step start cr = some (start, ['\r'])
  /-- No character has a newline inside. -/
  eq_start : ∀ {q : State} {b : UInt8} {r : State × List Char}, step q b = some r →
    b = lf ∨ b = cr → q = start
  /-- No other bytes make a newline. -/
  eq_newline : ∀ {q : State} {b : UInt8} {r : State × List Char}, step q b = some r →
    '\n' ∈ r.2 ∨ '\r' ∈ r.2 → b = lf ∨ b = cr

namespace Decoder

variable (D : Decoder)

instance : DecidableEq D.State := D.decEq

/-- Some bytes, when others have been taken before. -/
def decodeFrom : D.State → Octets → Option (D.State × List Char)
  | q, [] => some (q, [])
  | q, b :: s => do
      let (q', t) ← D.step q b
      let (q'', t') ← decodeFrom q' s
      some (q'', t ++ t')

/-- All of a text, which must not end inside a character. -/
def decode (s : Octets) : Option (List Char) := do
  let (q, t) ← D.decodeFrom D.start s
  if q = D.start then some t else none

variable {D} {q q' : D.State} {s s' : Octets} {t : List Char}

theorem decodeFrom_cons_iff {b : UInt8} :
    D.decodeFrom q (b :: s) = some (q', t) ↔ ∃ q₁ t₁ t₂, D.step q b = some (q₁, t₁) ∧
      D.decodeFrom q₁ s = some (q', t₂) ∧ t = t₁ ++ t₂ := by
  rw [decodeFrom]
  constructor
  · intro h
    obtain ⟨⟨q₁, t₁⟩, hstep, h⟩ := Option.bind_eq_some_iff.mp h
    obtain ⟨⟨q₂, t₂⟩, hrest, h⟩ := Option.bind_eq_some_iff.mp h
    cases h
    exact ⟨q₁, t₁, t₂, hstep, hrest, rfl⟩
  · rintro ⟨q₁, t₁, t₂, hstep, hrest, rfl⟩
    rw [hstep, Option.bind_eq_bind, Option.bind_some]
    dsimp only
    rw [hrest]
    rfl

theorem decodeFrom_append_iff :
    D.decodeFrom q (s ++ s') = some (q', t) ↔ ∃ q₁ t₁ t₂, D.decodeFrom q s = some (q₁, t₁) ∧
      D.decodeFrom q₁ s' = some (q', t₂) ∧ t = t₁ ++ t₂ := by
  induction s generalizing q t with
  | nil =>
      rw [List.nil_append, decodeFrom]
      constructor
      · exact fun h => ⟨q, [], t, rfl, h, rfl⟩
      · rintro ⟨_, _, _, h, hrest, rfl⟩
        cases h
        exact hrest
  | cons b s ih =>
      rw [List.cons_append, decodeFrom_cons_iff]
      constructor
      · rintro ⟨q₁, t₁, t₂, hstep, hrest, rfl⟩
        obtain ⟨q₂, u, u', hs, hs', rfl⟩ := ih.mp hrest
        refine ⟨q₂, t₁ ++ u, u', ?_, hs', (List.append_assoc ..).symm⟩
        exact decodeFrom_cons_iff.mpr ⟨q₁, t₁, u, hstep, hs, rfl⟩
      · rintro ⟨q₂, t₁, t₂, hbs, hs', rfl⟩
        obtain ⟨q₁, u, u', hstep, hs, rfl⟩ := decodeFrom_cons_iff.mp hbs
        exact ⟨q₁, u, u' ++ t₂, hstep, ih.mpr ⟨q₂, u', t₂, hs, hs', rfl⟩, List.append_assoc ..⟩

/-- What can be decoded can be decoded up to any byte. -/
theorem isSome_of_prefix {s₀ : Octets} (hpre : s₀ <+: s) (h : (D.decodeFrom q s).isSome = true) :
    (D.decodeFrom q s₀).isSome = true := by
  obtain ⟨s', rfl⟩ := hpre
  obtain ⟨⟨q', t⟩, h⟩ := Option.isSome_iff_exists.mp h
  obtain ⟨q₁, t₁, -, h₁, -⟩ := decodeFrom_append_iff.mp h
  exact Option.isSome_iff_exists.mpr ⟨(q₁, t₁), h₁⟩

theorem decode_eq_some_iff : D.decode s = some t ↔ D.decodeFrom D.start s = some (D.start, t) := by
  rw [decode]
  constructor
  · intro h
    obtain ⟨⟨q, t'⟩, hs, h⟩ := Option.bind_eq_some_iff.mp h
    dsimp only at h
    split at h
    · rename_i hq
      cases h
      rw [hs, hq]
    · cases h
  · intro h
    rw [h, Option.bind_eq_bind, Option.bind_some]
    exact if_pos rfl

/-- A newline is found between two characters. -/
theorem decode_append_newline {b : UInt8} {c : Char}
    (hb : D.step D.start b = some (D.start, [c])) (hnewline : b = lf ∨ b = cr) :
    D.decode (s ++ [b]) = some t ↔ ∃ t', D.decode s = some t' ∧ t = t' ++ [c] := by
  rw [decode_eq_some_iff, decodeFrom_append_iff]
  constructor
  · rintro ⟨q, t', t'', hs, hlast, rfl⟩
    obtain ⟨q', u, u', hstep, hnil, rfl⟩ := decodeFrom_cons_iff.mp hlast
    cases hnil
    obtain rfl := D.eq_start hstep hnewline
    cases hb.symm.trans hstep
    exact ⟨t', decode_eq_some_iff.mpr hs, by rw [List.append_nil]⟩
  · rintro ⟨t', hs, rfl⟩
    refine ⟨D.start, t', [c], decode_eq_some_iff.mp hs, ?_, rfl⟩
    exact decodeFrom_cons_iff.mpr ⟨D.start, [c], [], hb, rfl, rfl⟩

/-- Where there is no newline in the bytes, there is none in the text. -/
theorem not_mem_decodeFrom (hlf : lf ∉ s) (hcr : cr ∉ s)
    (h : D.decodeFrom q s = some (q', t)) : '\r' ∉ t := by
  induction s generalizing q t with
  | nil =>
      cases h
      exact List.not_mem_nil
  | cons b s ih =>
      obtain ⟨q₁, t₁, t₂, hstep, hs, rfl⟩ := decodeFrom_cons_iff.mp h
      rw [List.mem_cons, not_or] at hlf hcr
      intro hmem
      obtain hmem | hmem := List.mem_append.mp hmem
      · obtain hb | hb := D.eq_newline hstep (.inr hmem)
        · exact hlf.1 hb.symm
        · exact hcr.1 hb.symm
      · exact ih hlf.2 hcr.2 hs hmem

end Decoder

/-! ## UTF-8 -/

/-- Between characters, or inside one: of its bytes `n + 1` are still to come, the next of them
from `lo` to `hi`; those that have come make `v`. -/
inductive Utf8State
  | start
  | inside (n lo hi v : Nat) (h : 128 ≤ lo ∧ 142 ≤ 64 * v + lo)
  deriving DecidableEq

namespace Utf8State

/-- The first byte of a character of more than one. The bounds of the second byte leave out what
has a shorter form, the surrogates, and what is above `\U0010ffff`. -/
def first (b : Nat) : Option Utf8State :=
  if h : 0xc2 ≤ b ∧ b ≤ 0xdf then some (.inside 0 0x80 0xbf (b - 0xc0) (by omega))
  else if b = 0xe0 then some (.inside 1 0xa0 0xbf 0 (by omega))
  else if b = 0xed then some (.inside 1 0x80 0x9f 13 (by omega))
  else if h : 0xe1 ≤ b ∧ b ≤ 0xef then some (.inside 1 0x80 0xbf (b - 0xe0) (by omega))
  else if b = 0xf0 then some (.inside 2 0x90 0xbf 0 (by omega))
  else if h : 0xf1 ≤ b ∧ b ≤ 0xf3 then some (.inside 2 0x80 0xbf (b - 0xf0) (by omega))
  else if b = 0xf4 then some (.inside 2 0x80 0x8f 4 (by omega))
  else none

def step : Utf8State → Nat → Option (Utf8State × List Char)
  | .start, b => if b < 0x80 then some (.start, [Char.ofNat b]) else (first b).map (·, [])
  | .inside n lo hi v h, b =>
      if hb : lo ≤ b ∧ b ≤ hi then
        match n with
        | 0 => some (.start, [Char.ofNat (64 * v + (b - 0x80))])
        | n + 1 => some (.inside n 0x80 0xbf (64 * v + (b - 0x80)) (by omega), [])
      else none

/-- The bytes inside a character are none of ASCII. -/
theorem eq_start_of_step {q : Utf8State} {b : Nat} {r : Utf8State × List Char}
    (h : q.step b = some r) (hb : b < 0x80) : q = .start := by
  cases q with
  | start => rfl
  | inside n lo hi v hlo =>
      have hout : ¬ (lo ≤ b ∧ b ≤ hi) := by omega
      rw [step, dif_neg hout] at h
      cases h

theorem eq_of_ofNat_eq {n m : Nat} (hn : 0 < n ∧ n < 14) (h : Char.ofNat n = Char.ofNat m) :
    m = n := by
  have hvalid : n.isValidChar := .inl (by omega)
  have hofNat : Char.ofNat n = Char.ofNatAux n hvalid := dif_pos hvalid
  rw [hofNat] at h
  by_cases hm : m.isValidChar
  · have hnat : n = m := congrArg Char.toNat (h.trans (dif_pos hm))
    exact hnat.symm
  · -- what is no character is read as the first one
    have hnat : n = 0 := congrArg Char.toNat (h.trans (dif_neg hm))
    omega

/-- A character of more than one byte is none of the first fourteen. -/
theorem eq_of_step {q : Utf8State} {b : Nat} {r : Utf8State × List Char} (h : q.step b = some r)
    {n : Nat} (hn : 0 < n ∧ n < 14) (hmem : Char.ofNat n ∈ r.2) : b = n := by
  cases q with
  | start =>
      rw [step] at h
      split at h
      · cases h
        exact eq_of_ofNat_eq hn (List.mem_singleton.mp hmem)
      · obtain ⟨q', -, rfl⟩ := Option.map_eq_some_iff.mp h
        cases hmem
  | inside k lo hi v hlo =>
      rw [step] at h
      split at h
      · rename_i hb
        cases k with
        | zero =>
            cases h
            have hlarge : 14 ≤ 64 * v + (b - 0x80) := by omega
            have heq := eq_of_ofNat_eq hn (List.mem_singleton.mp hmem)
            omega
        | succ k =>
            cases h
            cases hmem
      · cases h

end Utf8State

/-- `open(path, "r")` where the encoding is UTF-8. -/
def utf8 : Decoder where
  State := Utf8State
  start := .start
  step q b := q.step b.toNat
  step_lf := rfl
  step_cr := rfl
  eq_start := by
    rintro q b r h (rfl | rfl)
    · exact Utf8State.eq_start_of_step h (by decide)
    · exact Utf8State.eq_start_of_step h (by decide)
  eq_newline := by
    rintro q b r h (hmem | hmem)
    · exact .inl (UInt8.toNat_inj.mp (Utf8State.eq_of_step (n := 10) h (by decide) hmem))
    · exact .inr (UInt8.toNat_inj.mp (Utf8State.eq_of_step (n := 13) h (by decide) hmem))

end Text
