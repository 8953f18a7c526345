import Mathlib.Data.List.DropRight
import Mathlib.Data.List.Infix
import Mathlib.Tactic.Common

set_option autoImplicit false

/-! # Configuration files

Sections `name { ... }` of statements `key = value;`. A value that begins with a double quote ends
with the next one that no backslash escapes; any other value ends with the semicolon.

The reader takes one character after the other. For a text that has been printed, `ReadAs` says
what it makes of each statement. For a text in which a quote is missing or one too many, `run_inv`
says what it can still make of it: what has been read stays, and no more is read than there are
characters. -/

namespace Config

/-- `isspace` of C. -/
def isBlank (c : Char) : Bool :=
  c = ' ' || c = '\t' || c = '\n' || c = '\x0b' || c = '\x0c' || c = '\r'

/-- Without the blanks at its ends. -/
def trim (s : List Char) : List Char := (s.dropWhile isBlank).rdropWhile isBlank

/-- What is made of the text between two quotes; `none` where that is an error. -/
structure Quoting where
  unescape : List Char → Option (List Char)
  length_le : ∀ {s t : List Char}, unescape s = some t → t.length ≤ s.length
  plain : ∀ {s : List Char}, '\\' ∉ s → unescape s = some s

structure Item where
  key : List Char
  value : List Char
  deriving DecidableEq

/-- A section. -/
structure Block where
  name : List Char
  items : List Item
  deriving DecidableEq

def Block.add (b : Block) (i : Item) : Block := ⟨b.name, b.items ++ [i]⟩

/-- Where the reader is, and the text it has read there. -/
inductive Mode
  | outside (text : List Char)
  | key (b : Block) (text : List Char)
  | value (b : Block) (key text : List Char)
  /-- Between the quotes; `escaped` when the next character cannot be the last quote. -/
  | quoted (b : Block) (key text : List Char) (escaped : Bool)
  /-- Behind the last quote. -/
  | closed (b : Block) (key value : List Char)

structure Reader where
  done : List Block
  mode : Mode

namespace Reader

variable (Q : Quoting)

def step (r : Reader) (c : Char) : Option Reader :=
  match r.mode with
  | .outside text =>
      if c = '{' then some ⟨r.done, .key ⟨trim text, []⟩ []⟩
      else if c ∈ ['}', '=', ';', '"'] then none
      else some ⟨r.done, .outside (text ++ [c])⟩
  | .key b text =>
      if c = '}' then
        if text.all isBlank then some ⟨r.done ++ [b], .outside []⟩ else none
      else if c = '=' then some ⟨r.done, .value b (trim text) []⟩
      else if c ∈ ['{', ';', '"'] then none
      else some ⟨r.done, .key b (text ++ [c])⟩
  | .value b key text =>
      if c = '"' ∧ text.all isBlank then some ⟨r.done, .quoted b key [] false⟩
      else if c = ';' then some ⟨r.done, .key (b.add ⟨key, trim text⟩) []⟩
      else if c ∈ ['{', '}'] then none
      else some ⟨r.done, .value b key (text ++ [c])⟩
  | .quoted b key text escaped =>
      if c = '"' ∧ escaped = false then
        (Q.unescape text).map fun v => ⟨r.done, .closed b key v⟩
      else some ⟨r.done, .quoted b key (text ++ [c]) (!escaped && c = '\\')⟩
  | .closed b key value =>
      if c = ';' then some ⟨r.done, .key (b.add ⟨key, value⟩) []⟩
      else if isBlank c then some r
      else none

def run (r : Reader) (s : List Char) : Option Reader := s.foldlM (step Q) r

/-- The sections, at the end of the file. -/
def finish (r : Reader) : Option (List Block) :=
  match r.mode with
  | .outside text => if text.all isBlank then some r.done else none
  | _ => none

end Reader

def read (Q : Quoting) (s : List Char) : Option (List Block) :=
  (Reader.run Q ⟨[], .outside []⟩ s).bind Reader.finish

/-! ## Blanks -/

def Blank (s : List Char) : Prop := ∀ c ∈ s, isBlank c = true

instance (s : List Char) : Decidable (Blank s) := List.decidableBAll (fun c => isBlank c = true) s

def NoBlank (s : List Char) : Prop := ∀ c ∈ s, isBlank c = false

instance (s : List Char) : Decidable (NoBlank s) :=
  List.decidableBAll (fun c => isBlank c = false) s

theorem length_trim_le (s : List Char) : (trim s).length ≤ s.length :=
  (List.rdropWhile_prefix _ _).length_le.trans (List.dropWhile_suffix _).length_le

theorem trim_word {s w t : List Char} (hs : Blank s) (hw : NoBlank w) (ht : Blank t) :
    trim (s ++ w ++ t) = w := by
  have hright : ∀ u, (u ++ t).rdropWhile isBlank = u.rdropWhile isBlank := by
    intro u
    induction t using List.reverseRecOn with
    | nil => rw [List.append_nil]
    | append_singleton t c ih =>
        rw [← List.append_assoc, List.rdropWhile_concat_pos _ _ _ (ht c (by simp))]
        exact ih fun d hd => ht d (List.mem_append_left _ hd)
  have hword : w.rdropWhile isBlank = w := by
    obtain rfl | ⟨u, c, rfl⟩ := List.eq_nil_or_concat' w
    · rfl
    · exact List.rdropWhile_concat_neg _ _ _ (by simp [hw c (by simp)])
  rw [trim, List.append_assoc, List.dropWhile_append_of_pos hs]
  cases w with
  | nil =>
      rw [List.nil_append, List.dropWhile_eq_nil_iff.mpr ht]
      rfl
  | cons c w =>
      have hc : ¬ isBlank c = true := by simp [hw c List.mem_cons_self]
      rw [List.cons_append, List.dropWhile_cons_of_neg hc, ← List.cons_append, hright, hword]

theorem all_isBlank {s : List Char} (hs : Blank s) : s.all isBlank = true := List.all_eq_true.mpr hs

/-! ## Statements that are read -/

/-- `key = value;` on a line of its own. -/
def statement (key value : List Char) : List Char :=
  "    ".toList ++ key ++ " = ".toList ++ value ++ ";\n".toList

theorem statement_eq (key value : List Char) : statement key value =
    "    ".toList ++ key ++ " = ".toList ++ value ++ ";\n".toList := rfl

def quote (v : List Char) : List Char := '"' :: (v ++ ['"'])

theorem length_statement (key value : List Char) :
    (statement key value).length = key.length + value.length + 9 := by
  have hindent : "    ".toList.length = 4 := rfl
  have hequals : " = ".toList.length = 3 := rfl
  have hend : ";\n".toList.length = 2 := rfl
  rw [statement_eq, List.length_append, List.length_append, List.length_append, List.length_append,
    hindent, hequals, hend]
  omega

def NoMark (w : List Char) : Prop := ∀ c ∈ w, c ∉ ['{', '}', '=', ';', '"']

instance (w : List Char) : Decidable (NoMark w) :=
  List.decidableBAll (fun c => c ∉ ['{', '}', '=', ';', '"']) w

/-- A name or a key. -/
def Word (w : List Char) : Prop := NoBlank w ∧ NoMark w

instance (w : List Char) : Decidable (Word w) :=
  inferInstanceAs (Decidable (NoBlank w ∧ NoMark w))

/-- Neither blanks nor semicolons nor braces. -/
def Compact (v : List Char) : Prop := ∀ c ∈ v, isBlank c = false ∧ c ∉ ['{', '}', ';']

instance (v : List Char) : Decidable (Compact v) :=
  List.decidableBAll (fun c => isBlank c = false ∧ c ∉ ['{', '}', ';']) v

/-- A value without quotes around it. -/
def Unquoted (v : List Char) : Prop := Compact v ∧ ∀ w, v ≠ '"' :: w

/-- The reading of a text between quotes: `none` when it ends before the text does, and else
whether the next character is escaped. -/
def scan : Bool → List Char → Option Bool
  | escaped, [] => some escaped
  | escaped, c :: s =>
      if c = '"' ∧ escaped = false then none else scan (!escaped && c = '\\') s

/-- A text that is read back from between quotes. -/
def Quotable (Q : Quoting) (v : List Char) : Prop :=
  scan false v = some false ∧ Q.unescape v = some v

theorem quotable_of_not_mem (Q : Quoting) {v : List Char} (hquote : '"' ∉ v) (hslash : '\\' ∉ v) :
    Quotable Q v := by
  refine ⟨?_, Q.plain hslash⟩
  induction v with
  | nil => rfl
  | cons c v ih =>
      rw [List.mem_cons, not_or] at hquote hslash
      rw [scan, if_neg fun hc => hquote.1 hc.1.symm]
      simpa [Ne.symm hslash.1] using ih hquote.2 hslash.2

namespace Reader

variable {Q : Quoting} {d : List Block} {b : Block} {key t v w : List Char}

theorem run_append (r : Reader) (s t : List Char) :
    r.run Q (s ++ t) = (r.run Q s).bind fun r => r.run Q t := by
  rw [run, List.foldlM_append]
  rfl

theorem run_cons (r : Reader) (c : Char) (s : List Char) :
    r.run Q (c :: s) = (r.step Q c).bind fun r => r.run Q s := by
  rw [run, List.foldlM_cons]
  rfl

/-- Characters that are only collected. -/
theorem run_collect {m : List Char → Mode} {P : List Char → Prop}
    (hstep : ∀ u, P u → ∀ c ∈ w, step Q ⟨d, m u⟩ c = some ⟨d, m (u ++ [c])⟩ ∧ P (u ++ [c]))
    (ht : P t) : run Q ⟨d, m t⟩ w = some ⟨d, m (t ++ w)⟩ := by
  induction w generalizing t with
  | nil => rw [List.append_nil]; rfl
  | cons c w ih =>
      obtain ⟨hc, ht⟩ := hstep t ht c List.mem_cons_self
      have ih := ih (fun u hu d hd => hstep u hu d (List.mem_cons_of_mem c hd)) ht
      rw [run_cons, hc, Option.bind_some, ih, List.append_assoc]
      rfl

theorem run_outside (hw : NoMark w) :
    run Q ⟨d, .outside t⟩ w = some ⟨d, .outside (t ++ w)⟩ := by
  refine run_collect (P := fun _ => True) (fun u _ c hc => ⟨?_, trivial⟩) trivial
  have hc := hw c hc
  simp only [List.mem_cons, not_or] at hc
  simp [step, hc]

theorem run_key (hw : NoMark w) :
    run Q ⟨d, .key b t⟩ w = some ⟨d, .key b (t ++ w)⟩ := by
  refine run_collect (P := fun _ => True) (fun u _ c hc => ⟨?_, trivial⟩) trivial
  have hc := hw c hc
  simp only [List.mem_cons, not_or] at hc
  simp [step, hc]

/-- Behind its first character a value may have quotes in it. -/
theorem run_value (ht : ¬ t.all isBlank = true) (hw : ∀ c ∈ w, c ∉ ['{', '}', ';']) :
    run Q ⟨d, .value b key t⟩ w = some ⟨d, .value b key (t ++ w)⟩ := by
  refine run_collect (P := fun u => ¬ u.all isBlank = true) (fun u hu c hc => ⟨?_, ?_⟩) ht
  · have hc := hw c hc
    simp only [List.mem_cons, not_or] at hc
    simp [step, hc, hu]
  · rw [List.all_append, Bool.and_eq_true]
    exact fun h => hu h.1

theorem run_quoted {e e' : Bool} (hv : scan e v = some e') :
    run Q ⟨d, .quoted b key t e⟩ v = some ⟨d, .quoted b key (t ++ v) e'⟩ := by
  induction v generalizing t e with
  | nil =>
      cases hv
      rw [List.append_nil]
      rfl
  | cons c v ih =>
      rw [scan] at hv
      split at hv
      · cases hv
      · rename_i hc
        have hstep : step Q ⟨d, .quoted b key t e⟩ c =
            some ⟨d, .quoted b key (t ++ [c]) (!e && c = '\\')⟩ := if_neg hc
        rw [run_cons, hstep, Option.bind_some, ih hv, List.append_assoc]
        rfl

/-- The key of a statement, up to its value. -/
theorem run_to_value (ht : Blank t) (hkey : Word key) :
    run Q ⟨d, .key b t⟩ ("    ".toList ++ key ++ " = ".toList) =
      some ⟨d, .value b key [' ']⟩ := by
  have hblank : Blank (t ++ "    ".toList) := by
    intro c hc
    obtain hc | hc := List.mem_append.mp hc
    · exact ht c hc
    · exact (by decide : Blank "    ".toList) c hc
  have htext : NoMark ("    ".toList ++ key ++ [' ']) := by
    intro c hc
    obtain hc | hc := List.mem_append.mp hc
    · obtain hc | hc := List.mem_append.mp hc
      · exact (by decide : NoMark "    ".toList) c hc
      · exact hkey.2 c hc
    · exact (by decide : NoMark [' ']) c hc
  have hkeyText : trim (t ++ ("    ".toList ++ key ++ [' '])) = key := by
    rw [← List.append_assoc, ← List.append_assoc]
    exact trim_word hblank hkey.1 (by decide : Blank [' '])
  have heq : "    ".toList ++ key ++ " = ".toList =
      ("    ".toList ++ key ++ [' ']) ++ ['=', ' '] := by
    rw [List.append_assoc _ [' ']]
    rfl
  have hequals : ∀ u, run Q ⟨d, .key b u⟩ ['=', ' '] = some ⟨d, .value b (trim u) [' ']⟩ :=
    fun u => rfl
  rw [heq, run_append, run_key htext, Option.bind_some, hequals, hkeyText]

/-- The end of a statement. -/
theorem run_semicolon (d : List Block) (b : Block) (key t : List Char) :
    run Q ⟨d, .value b key t⟩ ";\n".toList = some ⟨d, .key (b.add ⟨key, trim t⟩) ['\n']⟩ := rfl

theorem run_bare (hv : Unquoted v) :
    run Q ⟨d, .value b key [' ']⟩ (v ++ ";\n".toList) =
      some ⟨d, .key (b.add ⟨key, v⟩) ['\n']⟩ := by
  have htrim : trim ([' '] ++ v ++ []) = v :=
    trim_word (by decide) (fun c hc => (hv.1 c hc).1) (by decide)
  have hcollect : run Q ⟨d, .value b key [' ']⟩ v = some ⟨d, .value b key ([' '] ++ v)⟩ := by
    cases v with
    | nil => rfl
    | cons c w =>
        obtain ⟨hblank, hc⟩ := hv.1 c List.mem_cons_self
        have hquote : c ≠ '"' := fun h => hv.2 w (h ▸ rfl)
        have hstep : step Q ⟨d, .value b key [' ']⟩ c = some ⟨d, .value b key [' ', c]⟩ := by
          simp only [List.mem_cons, not_or] at hc
          simp [step, hc, hquote]
        have hne : ¬ [' ', c].all isBlank = true := by simp [hblank]
        rw [run_cons, hstep, Option.bind_some,
          run_value hne fun c hc => (hv.1 c (List.mem_cons_of_mem _ hc)).2]
        rfl
  rw [run_append, hcollect, Option.bind_some, run_semicolon, ← List.append_nil ([' '] ++ v), htrim]

/-- A section is opened. -/
theorem run_open {name : List Char} (ht : Blank t) (hname : Word name) :
    run Q ⟨d, .outside t⟩ (name ++ " \x7b\n".toList) = some ⟨d, .key ⟨name, []⟩ ['\n']⟩ := by
  have htrim : trim (t ++ name ++ [' ']) = name :=
    trim_word ht hname.1 (by decide)
  have hbrace : ∀ u, run Q ⟨d, .outside u⟩ " \x7b\n".toList =
      some ⟨d, .key ⟨trim (u ++ [' ']), []⟩ ['\n']⟩ := fun u => rfl
  rw [run_append, run_outside hname.2, Option.bind_some, hbrace, htrim]

theorem run_close (ht : Blank t) :
    run Q ⟨d, .key b t⟩ "\x7d\n".toList = some ⟨d ++ [b], .outside ['\n']⟩ := by
  have hstep : step Q ⟨d, .key b t⟩ '\x7d' = some ⟨d ++ [b], .outside []⟩ := by
    simp [step, all_isBlank ht]
  show run Q ⟨d, .key b t⟩ ['\x7d', '\n'] = _
  rw [run_cons, hstep]
  rfl

end Reader

/-- The statement is read in every section as this item. -/
def ReadAs (Q : Quoting) (text : List Char) (i : Item) : Prop :=
  ∀ d b t, Blank t → Reader.run Q ⟨d, .key b t⟩ text = some ⟨d, .key (b.add i) ['\n']⟩

section

variable {Q : Quoting} {key v : List Char}

theorem reads_bare (hkey : Word key) (hv : Unquoted v) : ReadAs Q (statement key v) ⟨key, v⟩ := by
  intro d b t ht
  have heq : statement key v =
      ("    ".toList ++ key ++ " = ".toList) ++ (v ++ ";\n".toList) := by
    simp only [statement_eq, List.append_assoc]
  rw [heq, Reader.run_append, Reader.run_to_value ht hkey, Option.bind_some, Reader.run_bare hv]

/-- A statement whose value begins with a quote, up to the quote. -/
theorem run_quote {d : List Block} {b : Block} {t : List Char} (ht : Blank t) (hkey : Word key)
    (v s : List Char) :
    Reader.run Q ⟨d, .key b t⟩ (statement key ('"' :: v) ++ s) =
      Reader.run Q ⟨d, .quoted b key [] false⟩ (v ++ (";\n".toList ++ s)) := by
  have heq : statement key ('"' :: v) ++ s =
      ("    ".toList ++ key ++ " = ".toList) ++ '"' :: (v ++ (";\n".toList ++ s)) := by
    simp only [statement_eq, List.append_assoc, List.cons_append]
  have hopen : Reader.step Q ⟨d, .value b key [' ']⟩ '"' = some ⟨d, .quoted b key [] false⟩ := rfl
  rw [heq, Reader.run_append, Reader.run_to_value ht hkey, Option.bind_some, Reader.run_cons, hopen,
    Option.bind_some]

theorem reads_quoted (hkey : Word key) (hv : Quotable Q v) :
    ReadAs Q (statement key (quote v)) ⟨key, v⟩ := by
  intro d b t ht
  have hclose : Reader.run Q ⟨d, .quoted b key ([] ++ v) false⟩ (['"'] ++ ";\n".toList) =
      some ⟨d, .key (b.add ⟨key, v⟩) ['\n']⟩ := by
    have hstep : Reader.step Q ⟨d, .quoted b key v false⟩ '"' = some ⟨d, .closed b key v⟩ := by
      simp [Reader.step, hv.2]
    show Reader.run Q ⟨d, .quoted b key v false⟩ ('"' :: ";\n".toList) = _
    rw [Reader.run_cons, hstep]
    rfl
  have hquote := run_quote (Q := Q) (d := d) (b := b) ht hkey (v ++ ['"']) []
  rw [List.append_nil] at hquote
  rw [quote, hquote, List.append_nil, List.append_assoc, Reader.run_append,
    Reader.run_quoted hv.1, Option.bind_some, hclose]

/-- **Statements are read one after the other.** -/
theorem run_statements {texts : List (List Char)} {is : List Item}
    (h : List.Forall₂ (ReadAs Q) texts is) {d : List Block} {b : Block} {t : List Char}
    (ht : Blank t) : ∃ t', Blank t' ∧ Reader.run Q ⟨d, .key b t⟩ texts.flatten =
      some ⟨d, .key ⟨b.name, b.items ++ is⟩ t'⟩ := by
  induction h generalizing b t with
  | nil => exact ⟨t, ht, by rw [List.append_nil]; rfl⟩
  | @cons text i texts is hread _ ih =>
      obtain ⟨t', ht', hrun⟩ := ih (b := b.add i) (t := ['\n']) (by decide)
      refine ⟨t', ht', ?_⟩
      rw [List.flatten_cons, Reader.run_append, hread d b t ht, Option.bind_some, hrun, Block.add,
        List.append_assoc]
      rfl

end

/-! ## What has been read stays -/

def Mode.items : Mode → List Item
  | .outside _ => []
  | .key b .. | .value b .. | .quoted b .. | .closed b .. => b.items

/-- The number of characters that may still become part of an item. -/
def Mode.pending : Mode → Nat
  | .outside _ => 0
  | .key _ text => text.length
  | .value _ k text | .quoted _ k text _ | .closed _ k text => k.length + text.length

/-- The number of characters of some items. -/
def sizeOfItems : List Item → Nat
  | [] => 0
  | i :: is => i.key.length + i.value.length + sizeOfItems is

theorem sizeOfItems_append (is js : List Item) :
    sizeOfItems (is ++ js) = sizeOfItems is + sizeOfItems js := by
  induction is with
  | nil => exact (Nat.zero_add _).symm
  | cons i is ih =>
      rw [List.cons_append, sizeOfItems, sizeOfItems, ih]
      omega

namespace Reader

/-- All items that have been read. -/
def items (r : Reader) : List Item := r.done.flatMap Block.items ++ r.mode.items

variable {Q : Quoting} {r r' : Reader} {d : List Block} {b : Block}

theorem items_add (d : List Block) (b : Block) (i : Item) (t t' : List Char) :
    items ⟨d, .key (b.add i) t⟩ = items ⟨d, .key b t'⟩ ++ [i] :=
  (List.append_assoc _ _ _).symm

/-- One character: the items stay, and with those that are added no more becomes pending than the
character. -/
theorem step_inv {c : Char} (h : r.step Q c = some r') :
    ∃ is, r'.items = r.items ++ is ∧
      sizeOfItems is + r'.mode.pending ≤ r.mode.pending + 1 := by
  obtain ⟨d, m⟩ := r
  have hsame : ∀ {m' : Mode}, m'.items = m.items → m'.pending ≤ m.pending + 1 →
      ∃ is, items ⟨d, m'⟩ = items ⟨d, m⟩ ++ is ∧
        sizeOfItems is + m'.pending ≤ m.pending + 1 := by
    intro m' hitems hpending
    refine ⟨[], ?_, by simpa [sizeOfItems] using hpending⟩
    rw [List.append_nil, items, items, hitems]
  cases m with
  | outside t =>
      simp only [step] at h
      split at h
      · cases h
        exact hsame rfl (by simp [Mode.pending])
      · split at h
        · cases h
        · cases h
          exact hsame rfl (by simp [Mode.pending])
  | key b t =>
      simp only [step] at h
      split at h
      · split at h
        · cases h
          refine ⟨[], ?_, by simp [Mode.pending, sizeOfItems]⟩
          simp [items, Mode.items]
        · cases h
      · split at h
        · cases h
          refine hsame rfl ?_
          have := length_trim_le t
          simp [Mode.pending]
          omega
        · split at h
          · cases h
          · cases h
            exact hsame rfl (by simp [Mode.pending])
  | value b key t =>
      simp only [step] at h
      split at h
      · cases h
        refine hsame rfl ?_
        simp [Mode.pending]
        omega
      · split at h
        · cases h
          refine ⟨[⟨key, trim t⟩], items_add d b _ [] [], ?_⟩
          have := length_trim_le t
          simp [Mode.pending, sizeOfItems]
          omega
        · split at h
          · cases h
          · cases h
            refine hsame rfl ?_
            simp [Mode.pending]
            omega
  | quoted b key t e =>
      simp only [step] at h
      split at h
      · obtain ⟨v, hv, heq⟩ := Option.map_eq_some_iff.mp h
        cases heq
        refine hsame rfl ?_
        have := Q.length_le hv
        simp [Mode.pending]
        omega
      · cases h
        refine hsame rfl ?_
        simp [Mode.pending]
        omega
  | closed b key v =>
      simp only [step] at h
      split at h
      · cases h
        refine ⟨[⟨key, v⟩], items_add d b _ [] [], ?_⟩
        simp [Mode.pending, sizeOfItems]
      · split at h
        · cases h
          exact hsame rfl (Nat.le_succ _)
        · cases h

/-- **No more is read than there are characters.** -/
theorem run_inv {s : List Char} (h : r.run Q s = some r') :
    ∃ is, r'.items = r.items ++ is ∧
      sizeOfItems is + r'.mode.pending ≤ r.mode.pending + s.length := by
  induction s generalizing r with
  | nil =>
      cases h
      exact ⟨[], (List.append_nil _).symm, by simp [sizeOfItems]⟩
  | cons c s ih =>
      rw [run_cons] at h
      obtain ⟨r₁, hr₁, h⟩ := Option.bind_eq_some_iff.mp h
      obtain ⟨is, his, hsize⟩ := step_inv hr₁
      obtain ⟨is', his', hsize'⟩ := ih h
      refine ⟨is ++ is', by rw [his', his, List.append_assoc], ?_⟩
      rw [sizeOfItems_append, List.length_cons]
      omega

/-- A value behind its quotes is read, or the file is in error. -/
theorem closed_inv {key v s : List Char} (h : run Q ⟨d, .closed b key v⟩ s = some r')
    (hfinish : r'.finish ≠ none) :
    ∃ is, r'.items = items ⟨d, .key b []⟩ ++ ⟨key, v⟩ :: is ∧
      sizeOfItems is ≤ s.length := by
  induction s with
  | nil =>
      cases h
      exact absurd rfl hfinish
  | cons c s ih =>
      rw [run_cons] at h
      obtain ⟨r₁, hr₁, h⟩ := Option.bind_eq_some_iff.mp h
      simp only [step] at hr₁
      split at hr₁
      · cases hr₁
        obtain ⟨is, his, hsize⟩ := run_inv h
        rw [items_add d b _ [] [], List.append_assoc] at his
        refine ⟨is, his, ?_⟩
        simp [Mode.pending] at hsize
        simp
        omega
      · split at hr₁
        · cases hr₁
          obtain ⟨is, his, hsize⟩ := ih h
          exact ⟨is, his, hsize.trans (Nat.le_succ _)⟩
        · cases hr₁

/-- **A quote that is opened** is closed by the first one that is not escaped, and what stands
between them is read. -/
theorem quoted_inv {key t s : List Char} {e : Bool}
    (h : run Q ⟨d, .quoted b key t e⟩ s = some r') (hfinish : r'.finish ≠ none) :
    ∃ s₁ s₂ v is, s = s₁ ++ '"' :: s₂ ∧ scan e s₁ = some false ∧ Q.unescape (t ++ s₁) = some v ∧
      r'.items = items ⟨d, .key b []⟩ ++ ⟨key, v⟩ :: is ∧
      sizeOfItems is ≤ s₂.length := by
  induction s generalizing t e with
  | nil =>
      cases h
      exact absurd rfl hfinish
  | cons c s ih =>
      rw [run_cons] at h
      obtain ⟨r₁, hr₁, h⟩ := Option.bind_eq_some_iff.mp h
      simp only [step] at hr₁
      split at hr₁
      · rename_i hc
        obtain ⟨rfl, rfl⟩ := hc
        obtain ⟨v, hv, heq⟩ := Option.map_eq_some_iff.mp hr₁
        cases heq
        obtain ⟨is, his, hsize⟩ := closed_inv h hfinish
        exact ⟨[], s, v, is, rfl, rfl, by rwa [List.append_nil], his, hsize⟩
      · rename_i hc
        cases hr₁
        obtain ⟨s₁, s₂, v, is, rfl, hscan, hv, his, hsize⟩ := ih h
        refine ⟨c :: s₁, s₂, v, is, rfl, ?_, ?_, his, hsize⟩
        · rw [scan, if_neg hc]
          exact hscan
        · rwa [List.append_assoc] at hv

theorem items_of_finish {bs : List Block} (h : r.finish = some bs) :
    r.items = bs.flatMap Block.items := by
  obtain ⟨d, m⟩ := r
  cases m with
  | outside t =>
      simp only [finish] at h
      split at h
      · cases h
        exact List.append_nil _
      · cases h
  | key => cases h
  | value => cases h
  | quoted => cases h
  | closed => cases h

end Reader

/-- Where there is no quote in `t`, the next quote stands behind it. -/
theorem length_le_of_quote {s s₁ s₂ t u : List Char} (h : s₁ ++ '"' :: s₂ = s ++ (t ++ '"' :: u))
    (hs : s.length ≤ s₁.length) (ht : '"' ∉ t) : s₂.length ≤ u.length := by
  obtain ⟨z, rfl⟩ : s <+: s₁ := List.prefix_of_prefix_length_le ⟨_, h.symm⟩ ⟨_, rfl⟩ hs
  rw [List.append_assoc, List.append_cancel_left_eq] at h
  by_cases hz : t.length ≤ z.length
  · have := congrArg List.length h
    simp at this
    omega
  · obtain ⟨w, rfl⟩ : z <+: t :=
      List.prefix_of_prefix_length_le ⟨_, h⟩ ⟨_, rfl⟩ (Nat.le_of_not_le hz)
    rw [List.append_assoc, List.append_cancel_left_eq] at h
    cases w with
    | nil =>
        rw [List.append_nil] at hz
        exact absurd le_rfl hz
    | cons c w =>
        rw [List.cons_append, List.cons.injEq] at h
        exact absurd (h.1 ▸ by simp) ht

/-- **A value in quotes** that is read as it was written can stand between quotes, when what
comes after it does not fit behind a later quote. -/
theorem quotable_of_read {Q : Quoting} {d : List Block} {b : Block} {key v u : List Char}
    {r : Reader} (is : List Item)
    (h : Reader.run Q ⟨d, .quoted b key [] false⟩ (v ++ '"' :: u) = some r)
    (hfinish : r.finish ≠ none)
    (hitems : r.items = Reader.items ⟨d, .key b []⟩ ++ ⟨key, v⟩ :: is)
    (hu : ∀ z u', u = z ++ '"' :: u' → u'.length < sizeOfItems is) : Quotable Q v := by
  obtain ⟨s₁, s₂, w, is', hs, hscan, hw, his, hsize⟩ := Reader.quoted_inv h hfinish
  rw [hitems, List.append_cancel_left_eq, List.cons.injEq, Item.mk.injEq] at his
  obtain ⟨⟨-, rfl⟩, rfl⟩ := his
  have hlen : v.length ≤ s₁.length := Q.length_le hw
  obtain ⟨z, rfl⟩ : v <+: s₁ := List.prefix_of_prefix_length_le ⟨_, hs⟩ ⟨_, rfl⟩ hlen
  rw [List.append_assoc, List.append_cancel_left_eq] at hs
  cases z with
  | nil =>
      rw [List.append_nil] at hscan hw
      exact ⟨hscan, hw⟩
  | cons c z =>
      rw [List.cons_append, List.cons.injEq] at hs
      exact absurd hsize (Nat.not_le_of_lt (hu z s₂ hs.2))

end Config
