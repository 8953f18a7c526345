import PrivacyGuard.Model.KillBlock
import PrivacyGuard.Text.Words

set_option autoImplicit false

/-! # The ports Tor reads

The writer drops the lines whose first characters are `TransPort` or `DNSPort`. Tor compares
the names of options without regard to case, so it can read a port in a line that the writer
keeps, and then it reads that one besides the one of the block. -/

namespace PrivacyGuard.Torrc

open Text

/-! ## Tor's view of the file -/

/-- `isspace` of C. -/
def isTorSpace (c : Char) : Bool :=
  let n := c.toNat
  9 ≤ n && n ≤ 13 || n == 32

def lowerCase (s : List Char) : List Char := s.map Char.toLower

/-- The option of a line: its name, whose case does not count, and its value. Leading blanks are
skipped, and what begins with `#` is a comment. -/
def torOption (line : List Char) : Option (List Char × List Char) :=
  let body := (line.dropWhile isTorSpace).takeWhile (· ≠ '#')
  let name := body.takeWhile fun c => !isTorSpace c
  let value := ((body.drop name.length).dropWhile isTorSpace).rdropWhile isTorSpace
  if name = [] then none else some (lowerCase name, value)

/-- The options of the file in their order. -/
def torOptions (s : List Char) : List (List Char × List Char) :=
  (s.splitOn '\n').filterMap torOption

/-- What the option `kw` is set to, each time it occurs. -/
def torValues (kw s : List Char) : List (List Char) :=
  ((torOptions s).filter fun o => o.1 = lowerCase kw).map Prod.snd

/-- Tor reads the option `kw` in the line. -/
def TorReads (kw line : List Char) : Prop := (torOption line).map Prod.fst = some (lowerCase kw)

instance (kw line : List Char) : Decidable (TorReads kw line) :=
  inferInstanceAs (Decidable (_ = _))

/-- Tor reads one port for transparent connections and one for DNS, those of the block. -/
def OnePortEach (s : List Char) : Prop :=
  torValues transPort s = ["127.0.0.1:9040".toList] ∧
    torValues dnsPort s = ["127.0.0.1:5353".toList]

instance (s : List Char) : Decidable (OnePortEach s) := inferInstanceAs (Decidable (_ ∧ _))

/-! ## The options of the text that is written -/

theorem splitOn_unlines {ls : List (List Char)} (h : ∀ l ∈ ls, '\n' ∉ l) :
    (unlines ls).splitOn '\n' = ls ++ [[]] := by
  induction ls with
  | nil => rfl
  | cons l ls ih =>
      have hl : '\n' ∉ l := h l List.mem_cons_self
      have hls : ∀ l' ∈ ls, '\n' ∉ l' := fun l' hl' => h l' (List.mem_cons_of_mem _ hl')
      rw [unlines_cons, List.splitOn_append_cons_self_of_not_mem hl, ih hls]
      rfl

/-- The values in a list of lines. -/
def valuesOf (kw : List Char) (ls : List (List Char)) : List (List Char) :=
  ((ls.filterMap torOption).filter fun o => o.1 = lowerCase kw).map Prod.snd

theorem valuesOf_append (kw : List Char) (ls ls' : List (List Char)) :
    valuesOf kw (ls ++ ls') = valuesOf kw ls ++ valuesOf kw ls' := by
  simp [valuesOf]

theorem valuesOf_eq_nil {kw : List Char} {ls : List (List Char)} :
    valuesOf kw ls = [] ↔ ∀ l ∈ ls, ¬ TorReads kw l := by
  rw [valuesOf, List.map_eq_nil_iff, List.filter_eq_nil_iff]
  simp only [List.mem_filterMap, decide_eq_true_eq, TorReads, Option.map_eq_some_iff]
  refine ⟨?_, ?_⟩
  · rintro h l hl ⟨o, ho, hname⟩
    exact h o ⟨l, hl, ho⟩ hname
  · rintro h o ⟨l, hl, ho⟩ hname
    exact h l hl ⟨o, ho, hname⟩

theorem torValues_killText (kw s : List Char) :
    torValues kw (killText s) = valuesOf kw (spaced (keptLines s)) ++ valuesOf kw killLines := by
  have hnl : ∀ l ∈ spaced (keptLines s) ++ killLines, '\n' ∉ l := by
    intro l hl hmem
    cases killText_unbroken s l hl _ hmem
  have hempty : valuesOf kw [[]] = [] := rfl
  rw [torValues, torOptions, killText_eq, splitOn_unlines hnl, ← valuesOf, valuesOf_append,
    valuesOf_append, hempty, List.append_nil]

theorem valuesOf_killLines : valuesOf transPort killLines = ["127.0.0.1:9040".toList] ∧
    valuesOf dnsPort killLines = ["127.0.0.1:5353".toList] := by
  decide

/-- The value of the block is the only one exactly if no line in front of it has one. -/
theorem torValues_killText_iff {kw v s : List Char} (hv : valuesOf kw killLines = [v]) :
    torValues kw (killText s) = [v] ↔ ∀ l, Kept s l → ¬ TorReads kw l := by
  rw [torValues_killText, hv, List.append_left_eq_self, valuesOf_eq_nil]
  have hempty : ¬ TorReads kw [] := by simp [TorReads, torOption]
  refine ⟨?_, ?_⟩
  · intro h l hl hread
    have hne : l ≠ [] := fun hnil => hempty (hnil ▸ hread)
    exact h l ((mem_spaced hne).mpr ((mem_keptLines hne).mpr hl)) hread
  · intro h l hl hread
    have hne : l ≠ [] := fun hnil => hempty (hnil ▸ hread)
    exact h l ((mem_keptLines hne).mp ((mem_spaced hne).mp hl)) hread

/-- **Tor reads one port each** after the call if and only if it reads none in a line that the
writer keeps. -/
theorem onePortEach_iff (f : File) :
    OnePortEach (readText (ensureTransparentProxyTorrc .granted f).2) ↔
      ∀ l, Kept (readText f) l → ¬ TorReads transPort l ∧ ¬ TorReads dnsPort l := by
  rw [readText_written, OnePortEach, torValues_killText_iff valuesOf_killLines.1,
    torValues_killText_iff valuesOf_killLines.2]
  constructor
  · exact fun h l hl => ⟨h.1 l hl, h.2 l hl⟩
  · exact fun h => ⟨fun l hl => (h l hl).1, fun l hl => (h l hl).2⟩

def lowerCasePort : File := some (unlines ["transport 9041".toList])

theorem not_onePortEach :
    ¬ ∀ f : File, OnePortEach (readText (ensureTransparentProxyTorrc .granted f).2) := by
  intro h
  exact absurd (h lowerCasePort) (by decide +kernel)

end PrivacyGuard.Torrc
