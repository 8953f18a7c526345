import Mathlib.Algebra.Order.Group.Nat
import Mathlib.Data.Char
import Mathlib.Data.List.Lex
import Mathlib.Order.Monotone.Defs
import Mathlib.Tactic.Common

set_option autoImplicit false

/-! # Stamps

Records of numbers, each written with a width of its own and with a text before it, as dates,
times and hardware addresses are. They sort as texts the way the records sort
(`stamp_strictMonoOn`), because nothing in them depends on the numbers but the digits; and they
are read back (`readStamp_stamp`). -/

namespace Text

/-! ## Numbers of a fixed width -/

/-- The `w` digits to the base `b` of a number below `b ^ w`. -/
def fixed (b : Nat) : Nat → Nat → List Char
  | 0, _ => []
  | w + 1, n => Nat.digitChar (n / b ^ w) :: fixed b w (n % b ^ w)

variable {b : Nat}

theorem length_fixed (w n : Nat) : (fixed b w n).length = w := by
  induction w generalizing n with
  | zero => rfl
  | succ w ih => rw [fixed, List.length_cons, ih]

theorem digitChar_lt {m n : Nat} (hmn : m < n) (hn : n < 16) :
    Nat.digitChar m < Nat.digitChar n := by
  have hall : ∀ n < 16, ∀ m < n, Nat.digitChar m < Nat.digitChar n := by decide
  exact hall n hn m hmn

/-- The first digit and the rest. -/
theorem div_pow_lt {w n : Nat} (hn : n < b ^ (w + 1)) : 0 < b ^ w ∧ n / b ^ w < b := by
  have hpos : 0 < b ^ w * b := by
    rw [← Nat.pow_succ]
    exact Nat.zero_lt_of_lt hn
  have hw : 0 < b ^ w := Nat.pos_of_mul_pos_right hpos
  refine ⟨hw, ?_⟩
  rw [Nat.div_lt_iff_lt_mul hw, Nat.mul_comm, ← Nat.pow_succ]
  exact hn

theorem fixed_lt (hb : b ≤ 16) {w m n : Nat} (hmn : m < n) (hn : n < b ^ w) :
    fixed b w m < fixed b w n := by
  induction w generalizing m n with
  | zero =>
      rw [Nat.pow_zero] at hn
      omega
  | succ w ih =>
      obtain ⟨hpos, hdigit⟩ := div_pow_lt hn
      unfold fixed
      rcases Nat.lt_or_eq_of_le (Nat.div_le_div_right (c := b ^ w) hmn.le) with hlt | heq
      · exact List.Lex.rel (digitChar_lt hlt (hdigit.trans_le hb))
      · -- with the same first digit, the rests compare as the numbers do
        have hrest : m % b ^ w < n % b ^ w := by
          have hm := Nat.div_add_mod m (b ^ w)
          have hn := Nat.div_add_mod n (b ^ w)
          rw [heq] at hm
          omega
        rw [heq]
        exact List.Lex.cons (ih hrest (Nat.mod_lt n hpos))

/-- The value of a digit, in upper or lower case. -/
def digitValue (c : Char) : Option Nat :=
  if '0' ≤ c ∧ c ≤ '9' then some (c.toNat - '0'.toNat)
  else if 'a' ≤ c ∧ c ≤ 'f' then some (c.toNat - 'a'.toNat + 10)
  else if 'A' ≤ c ∧ c ≤ 'F' then some (c.toNat - 'A'.toNat + 10)
  else none

theorem digitValue_digitChar {n : Nat} (hn : n < 16) : digitValue (Nat.digitChar n) = some n := by
  have hall : ∀ n < 16, digitValue (Nat.digitChar n) = some n := by decide
  exact hall n hn

/-- One more digit. -/
def addDigit (b n : Nat) (c : Char) : Option Nat := do
  let d ← digitValue c
  if d < b then some (n * b + d) else none

/-- The number with the given digits. -/
def readNumber (b : Nat) (s : List Char) : Option Nat := s.foldlM (addDigit b) 0

theorem readNumber_fixed (hb : b ≤ 16) {w n : Nat} (hn : n < b ^ w) :
    readNumber b (fixed b w n) = some n := by
  have hread : ∀ k, (fixed b w n).foldlM (addDigit b) k = some (k * b ^ w + n) := by
    induction w generalizing n with
    | zero =>
        intro k
        have hzero : n = 0 := by
          rw [Nat.pow_zero] at hn
          omega
        rw [hzero, Nat.pow_zero, Nat.mul_one]
        rfl
    | succ w ih =>
        intro k
        obtain ⟨hpos, hdigit⟩ := div_pow_lt hn
        have hadd : addDigit b k (Nat.digitChar (n / b ^ w)) = some (k * b + n / b ^ w) := by
          rw [addDigit, digitValue_digitChar (hdigit.trans_le hb)]
          exact if_pos hdigit
        have hsum : (k * b + n / b ^ w) * b ^ w + n % b ^ w = k * b ^ (w + 1) + n := by
          calc (k * b + n / b ^ w) * b ^ w + n % b ^ w
              = k * b * b ^ w + (b ^ w * (n / b ^ w) + n % b ^ w) := by
                rw [Nat.add_mul, Nat.add_assoc, Nat.mul_comm (n / b ^ w)]
            _ = k * b ^ (w + 1) + n := by
                rw [Nat.div_add_mod, Nat.mul_assoc, Nat.mul_comm b, ← Nat.pow_succ]
        rw [fixed, List.foldlM_cons, hadd, ← hsum]
        exact ih (Nat.mod_lt n hpos) _
  rw [readNumber, hread, Nat.zero_mul, Nat.zero_add]

/-! ## Records -/

/-- Of each number, the text before it and its width. -/
abbrev Format : Type := List (List Char × Nat)

def stamp (b : Nat) : Format → List Nat → List Char
  | (before, w) :: fmt, n :: ns => before ++ fixed b w n ++ stamp b fmt ns
  | _, _ => []

/-- There are as many numbers as widths, and none is too wide. -/
def Format.Fits (b : Nat) (fmt : Format) (ns : List Nat) : Prop :=
  List.Forall₂ (fun f n => n < b ^ f.2) fmt ns

theorem length_stamp {fmt : Format} {ms ns : List Nat} (hms : fmt.Fits b ms)
    (hns : fmt.Fits b ns) : (stamp b fmt ms).length = (stamp b fmt ns).length := by
  unfold Format.Fits at hms hns
  induction hms generalizing ns with
  | nil =>
      cases hns
      rfl
  | cons hm hms ih =>
      cases hns with
      | cons hn hns =>
          unfold stamp
          simp only [List.length_append, length_fixed, ih hns]

/-- What comes behind texts of one length does not change their order. -/
theorem append_lt_append {s t u v : List Char} (hlen : s.length = t.length) (h : s < t) :
    s ++ u < t ++ v := by
  induction s generalizing t with
  | nil =>
      obtain rfl := List.eq_nil_of_length_eq_zero hlen.symm
      exact absurd h (List.lt_irrefl [])
  | cons c s ih =>
      cases h with
      | rel hc => exact List.Lex.rel hc
      | cons h => exact List.Lex.cons (ih (Nat.succ.inj hlen) h)

theorem stamp_lt (hb : b ≤ 16) {fmt : Format} {ms ns : List Nat} (hms : fmt.Fits b ms)
    (hns : fmt.Fits b ns) (h : ms < ns) : stamp b fmt ms < stamp b fmt ns := by
  unfold Format.Fits at hms hns
  induction hms generalizing ns with
  | nil =>
      cases hns
      exact absurd h (List.lt_irrefl [])
  | @cons f m fmt ms hm hms ih =>
      cases hns with
      | @cons _ n _ ns hn hns =>
          unfold stamp
          rw [List.append_assoc, List.append_assoc]
          apply List.append_left_lt
          cases h with
          | rel hmn =>
              have hlen : (fixed b f.2 m).length = (fixed b f.2 n).length := by
                rw [length_fixed, length_fixed]
              exact append_lt_append hlen (fixed_lt hb hmn hn)
          | cons h => exact List.append_left_lt (ih hns h)

/-- **Stamps sort as their records.** -/
theorem stamp_strictMonoOn (hb : b ≤ 16) (fmt : Format) :
    StrictMonoOn (stamp b fmt) {ns | fmt.Fits b ns} :=
  fun _ hms _ hns h => stamp_lt hb hms hns h

/-- The numbers of a stamp, if it is one. -/
def readStamp (b : Nat) : Format → List Char → Option (List Nat)
  | [], s => if s = [] then some [] else none
  | (before, w) :: fmt, s =>
      if before <+: s ∧ before.length + w ≤ s.length then do
        let n ← readNumber b ((s.drop before.length).take w)
        let ns ← readStamp b fmt (s.drop (before.length + w))
        some (n :: ns)
      else none

/-- **Stamps are read back.** -/
theorem readStamp_stamp (hb : b ≤ 16) {fmt : Format} {ns : List Nat} (h : fmt.Fits b ns) :
    readStamp b fmt (stamp b fmt ns) = some ns := by
  unfold Format.Fits at h
  induction h with
  | nil => rfl
  | @cons f n fmt ns hn hns ih =>
      obtain ⟨before, w⟩ := f
      have hlen : (before ++ fixed b w n).length = before.length + w := by
        rw [List.length_append, length_fixed]
      have hdigits : ((before ++ fixed b w n ++ stamp b fmt ns).drop before.length).take w =
          fixed b w n := by
        rw [List.append_assoc, List.drop_left, List.take_left' (length_fixed w n)]
      have hrest : (before ++ fixed b w n ++ stamp b fmt ns).drop (before.length + w) =
          stamp b fmt ns := by
        rw [← hlen, List.drop_left]
      have hshape : before <+: before ++ fixed b w n ++ stamp b fmt ns ∧
          before.length + w ≤ (before ++ fixed b w n ++ stamp b fmt ns).length := by
        refine ⟨?_, ?_⟩
        · rw [List.append_assoc]
          exact List.prefix_append _ _
        · rw [List.length_append, hlen]
          omega
      unfold stamp readStamp
      rw [if_pos hshape, hdigits, hrest, readNumber_fixed hb hn, ih]
      rfl

end Text
