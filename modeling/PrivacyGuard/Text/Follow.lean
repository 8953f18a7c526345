import PrivacyGuard.Text.Decoding
import PrivacyGuard.Text.Lines

set_option autoImplicit false

/-! # Following a file that grows

One side appends bytes to a file, the other one reads it line by line in text mode, where `\r`
ends a line as well and everything must be decoded. At the end of the file, reading a line gives
what there is of it. So whoever takes each result for a line gets the lines that have been written
if and only if no read meets an unfinished one, and the lines can be decoded and have no `\r` in
the middle (`handled_eq_iff`). -/

namespace Text

variable {T : Type}

/-- A line with its end, or what there is of it; and what stands behind it. -/
def readline : Octets → Octets × Octets
  | [] => ([], [])
  | b :: s =>
      if b = lf then ([b], s)
      else if b = cr then
        -- the two bytes of `\r\n` are one end
        if s.head? = some lf then ([b, lf], s.tail) else ([b], s)
      else (b :: (readline s).1, (readline s).2)

/-- Something is appended, or a line is read. A file is read in larger pieces, so that up to
`ahead` bytes behind the line are decoded with it. -/
inductive Move (T : Type)
  | write (s : Octets)
  | read (now : T) (ahead : Nat)

/-- The beginning of a character, and nothing before it. -/
def Decoder.cut (D : Decoder) (s : Octets) : Bool :=
  match D.decodeFrom D.start s with
  | some (q, []) => decide (q ≠ D.start)
  | _ => false

/-- The text of the next line; `none` is a `UnicodeDecodeError`. Behind a line that does not end
with `\n` another character is looked for, or the end of the file, where none may be unfinished. -/
def Decoder.nextLine (D : Decoder) (unread : Octets) (ahead : Nat) : Option (List Char) := do
  let (line, rest) := readline unread
  let text ← D.decode line
  let _ ← D.decodeFrom D.start (rest.take ahead)
  if line.getLast? ≠ some lf ∧ D.cut rest then none else some (universalNewlines text)

/-- What a read has given, and when. -/
structure Line (T : Type) where
  now : T
  bytes : Octets
  text : List Char

/-- What has been read, until the end or an exception; nothing is left out but the reads at the
end of the file that give nothing. `unread` is what has not been read yet. -/
def handled (D : Decoder) : Octets → List (Move T) → List (Line T)
  | _, [] => []
  | unread, .write s :: ms => handled D (unread ++ s) ms
  | unread, .read now ahead :: ms =>
      if unread = [] then handled D unread ms
      else
        match D.nextLine unread ahead with
        | none => []
        | some text =>
            ⟨now, (readline unread).1, text⟩ :: handled D (readline unread).2 ms

/-- What is behind the lines that so many reads take. -/
def left : Octets → List (Move T) → Octets
  | unread, [] => unread
  | unread, .write s :: ms => left (unread ++ s) ms
  | unread, .read _ _ :: ms => left (readline unread).2 ms

/-- All that is appended. -/
def written : List (Move T) → Octets
  | [] => []
  | .write s :: ms => s ++ written ms
  | .read _ _ :: ms => written ms

/-- The lines, each ended by `\n`. -/
def joined (ls : List Octets) : Octets := ls.flatMap (· ++ [lf])

/-- No read meets an unfinished line. -/
def Whole : Octets → List (Move T) → Prop
  | _, [] => True
  | unread, .write s :: ms => Whole (unread ++ s) ms
  | unread, .read _ _ :: ms => (unread = [] ∨ lf ∈ unread) ∧ Whole (readline unread).2 ms

/-- The line can be decoded, and there is no `\r` in it but at its end. -/
structure Clean (D : Decoder) (l : Octets) : Prop where
  decodes : (D.decode l).isSome = true
  not_mem : cr ∉ l.dropLast

instance (D : Decoder) (l : Octets) : Decidable (Clean D l) :=
  decidable_of_iff ((D.decode l).isSome = true ∧ cr ∉ l.dropLast)
    ⟨fun h => ⟨h.1, h.2⟩, fun h => ⟨h.1, h.2⟩⟩

/-! ## Reading one line -/

theorem readline_append (s : Octets) : (readline s).1 ++ (readline s).2 = s := by
  induction s with
  | nil => rfl
  | cons b s ih =>
      rw [readline]
      split
      · rfl
      · split
        · split
          · rename_i h
            obtain ⟨s', rfl⟩ := List.head?_eq_some_iff.mp h
            rfl
          · rfl
        · rw [List.cons_append, ih]

/-- A line with no `\r` but at its end is read to its newline. -/
theorem readline_line {l : Octets} (hlf : lf ∉ l) (hcr : cr ∉ l.dropLast) (s : Octets) :
    readline (l ++ lf :: s) = (l ++ [lf], s) := by
  induction l with
  | nil => rfl
  | cons b l ih =>
      rw [List.mem_cons, not_or] at hlf
      rw [List.cons_append, readline, if_neg (Ne.symm hlf.1)]
      by_cases hb : b = cr
      · have hnil : l = [] := by
          by_contra hne
          rw [List.dropLast_cons_of_ne_nil hne, hb] at hcr
          exact hcr List.mem_cons_self
        rw [if_pos hb, hnil, List.nil_append, List.head?_cons, if_pos rfl]
        rfl
      · have hcr' : cr ∉ l.dropLast := by
          intro hmem
          have hne : l ≠ [] := by
            rintro rfl
            cases hmem
          rw [List.dropLast_cons_of_ne_nil hne] at hcr
          exact hcr (List.mem_cons_of_mem _ hmem)
        rw [if_neg hb, ih hlf.2 hcr']
        rfl

/-- What is read has no `\r` in the middle. -/
theorem not_mem_of_readline {s l : Octets} (h : (readline s).1 = l ++ [lf]) : cr ∉ l.dropLast := by
  induction s generalizing l with
  | nil =>
      have hlen := congrArg List.length h
      simp [readline] at hlen
  | cons b s ih =>
      rw [readline] at h
      cases l with
      | nil => exact List.not_mem_nil
      | cons c l =>
          by_cases hl : l = []
          · rw [hl]
            exact List.not_mem_nil
          have hpos : 0 < l.length := List.length_pos_of_ne_nil hl
          have hlong : ∀ r : Octets, r = c :: l ++ [lf] → 2 < r.length := by
            rintro r rfl
            simp only [List.length_append, List.length_cons, List.length_nil]
            omega
          rw [List.dropLast_cons_of_ne_nil hl, List.mem_cons, not_or]
          split at h
          · exact absurd (hlong _ h) (by simp)
          · split at h
            · split at h
              · exact absurd (hlong _ h) (by simp)
              · exact absurd (hlong _ h) (by simp)
            · rename_i _ hb
              obtain ⟨rfl, htail⟩ := List.cons_eq_cons.mp h
              exact ⟨Ne.symm hb, ih htail⟩

/-! ## Decoding one line -/

theorem joined_cons (l : Octets) (ls : List Octets) : joined (l :: ls) = l ++ lf :: joined ls := by
  rw [joined, List.flatMap_cons, List.append_assoc]
  rfl

section

variable {D : Decoder} {l : Octets} {ls : List Octets} {t : List Char}

theorem decode_append_lf :
    D.decode (l ++ [lf]) = some t ↔ ∃ t', D.decode l = some t' ∧ t = t' ++ ['\n'] :=
  Decoder.decode_append_newline D.step_lf (.inl rfl)

theorem Clean.decodeFrom_lf (h : Clean D l) :
    ∃ t, D.decodeFrom D.start (l ++ [lf]) = some (D.start, t) := by
  obtain ⟨t, ht⟩ := Option.isSome_iff_exists.mp h.decodes
  have hline := decode_append_lf.mpr ⟨t, ht, rfl⟩
  exact ⟨_, Decoder.decode_eq_some_iff.mp hline⟩

/-- Many lines can be decoded at once. -/
theorem isSome_decodeFrom_joined (h : ∀ l ∈ ls, Clean D l) :
    (D.decodeFrom D.start (joined ls)).isSome = true := by
  induction ls with
  | nil => rfl
  | cons l ls ih =>
      rw [List.forall_mem_cons] at h
      obtain ⟨t, ht⟩ := h.1.decodeFrom_lf
      obtain ⟨⟨q, t'⟩, hrest⟩ := Option.isSome_iff_exists.mp (ih h.2)
      rw [joined_cons, List.append_cons]
      exact Option.isSome_iff_exists.mpr
        ⟨_, Decoder.decodeFrom_append_iff.mpr ⟨D.start, t, t', ht, hrest, rfl⟩⟩

/-- The newline of a line in text mode, whichever its end in the file. -/
theorem Clean.text (h : Clean D l) (hlf : lf ∉ l) (ht : D.decode (l ++ [lf]) = some t) :
    ∃ u e, D.decode l = some (u ++ e) ∧ (e = [] ∨ e = ['\r']) ∧
      universalNewlines t = u ++ ['\n'] := by
  obtain ⟨t, hl, rfl⟩ := decode_append_lf.mp ht
  have hdrop := h.not_mem
  by_cases hcr : cr ∈ l
  · -- it is the last byte of the line, and a part of its end
    obtain rfl | ⟨l', b, rfl⟩ := List.eq_nil_or_concat l
    · cases hcr
    · rw [List.concat_eq_append, List.dropLast_concat] at hdrop
      rw [List.concat_eq_append] at hl hlf hcr
      rw [List.mem_append, not_or] at hlf
      obtain rfl : cr = b := List.mem_singleton.mp ((List.mem_append.mp hcr).resolve_left hdrop)
      obtain ⟨u, hu, rfl⟩ := (Decoder.decode_append_newline D.step_cr (.inr rfl)).mp hl
      have hno : '\r' ∉ u :=
        Decoder.not_mem_decodeFrom hlf.1 hdrop (Decoder.decode_eq_some_iff.mp hu)
      refine ⟨u, ['\r'], ?_, .inr rfl, ?_⟩
      · rw [List.concat_eq_append, hl]
      · rw [List.append_assoc]
        exact universalNewlines_append hno _
  · have hno : '\r' ∉ t := Decoder.not_mem_decodeFrom hlf hcr (Decoder.decode_eq_some_iff.mp hl)
    exact ⟨t, [], by rw [hl, List.append_nil], .inl rfl, universalNewlines_append hno _⟩

theorem decode_of_nextLine {unread : Octets} {ahead : Nat} {text : List Char}
    (h : D.nextLine unread ahead = some text) :
    ∃ t, D.decode (readline unread).1 = some t ∧ text = universalNewlines t := by
  obtain ⟨t, ht, h⟩ := Option.bind_eq_some_iff.mp h
  obtain ⟨_, -, h⟩ := Option.bind_eq_some_iff.mp h
  split at h
  · cases h
  · exact ⟨t, ht, (Option.some.inj h).symm⟩

/-- A whole line is read when what is decoded with it can be decoded. -/
theorem Clean.nextLine (h : Clean D l) (hlf : lf ∉ l) {rest : Octets} {ahead : Nat}
    (hrest : (D.decodeFrom D.start (rest.take ahead)).isSome = true) :
    ∃ text, D.nextLine (l ++ lf :: rest) ahead = some text := by
  obtain ⟨t, ht⟩ := Option.isSome_iff_exists.mp h.decodes
  obtain ⟨r, hr⟩ := Option.isSome_iff_exists.mp hrest
  have hline := decode_append_lf.mpr ⟨t, ht, rfl⟩
  refine ⟨universalNewlines (t ++ ['\n']), ?_⟩
  simp [Decoder.nextLine, readline_line hlf h.not_mem, hline, hr]

end

/-! ## Reading all of them -/

section

variable {D : Decoder} {ms : List (Move T)} {unread : Octets} {ls : List Octets}

/-- The text of a line is what its bytes are decoded to. -/
theorem decode_of_mem_handled {e : Line T} (h : e ∈ handled D unread ms) :
    ∃ t, D.decode e.bytes = some t ∧ e.text = universalNewlines t := by
  induction ms generalizing unread with
  | nil => cases h
  | cons m ms ih =>
      cases m with
      | write s => exact ih h
      | read now ahead =>
          rw [handled] at h
          split at h
          · exact ih h
          · split at h
            · cases h
            · rename_i text htext
              obtain rfl | h := List.mem_cons.mp h
              · exact decode_of_nextLine htext
              · exact ih h

/-- The first line of a text is found in what begins the text and has a newline. -/
theorem exists_of_append_eq {u w l v : Octets} (hu : lf ∈ u) (hl : lf ∉ l)
    (h : u ++ w = l ++ lf :: v) : ∃ r, u = l ++ lf :: r ∧ r ++ w = v := by
  induction l generalizing u with
  | nil =>
      obtain ⟨b, u, rfl⟩ := List.exists_cons_of_ne_nil (List.ne_nil_of_mem hu)
      obtain ⟨rfl, hrest⟩ := List.cons_eq_cons.mp h
      exact ⟨u, rfl, hrest⟩
  | cons b l ih =>
      obtain ⟨c, u, rfl⟩ := List.exists_cons_of_ne_nil (List.ne_nil_of_mem hu)
      obtain ⟨rfl, htail⟩ := List.cons_eq_cons.mp h
      rw [List.mem_cons, not_or] at hl
      obtain ⟨r, rfl, hr⟩ := ih ((List.mem_cons.mp hu).resolve_left hl.1) hl.2 htail
      exact ⟨r, rfl, hr⟩

theorem handled_of_clean (hls : ∀ l ∈ ls, lf ∉ l) (hwritten : unread ++ written ms = joined ls)
    (hleft : left unread ms = []) (hwhole : Whole unread ms) (hclean : ∀ l ∈ ls, Clean D l) :
    (handled D unread ms).map Line.bytes = ls.map (· ++ [lf]) := by
  induction ms generalizing unread ls with
  | nil =>
      have hnil : unread = [] := hleft
      rw [hnil] at hwritten
      cases ls with
      | nil => rfl
      | cons l ls => simp [written, joined] at hwritten
  | cons m ms ih =>
      cases m with
      | write s =>
          rw [written, ← List.append_assoc] at hwritten
          exact ih hls hwritten hleft hwhole hclean
      | read now ahead =>
          obtain ⟨hfinished, hwhole⟩ := hwhole
          rw [handled]
          by_cases hnil : unread = []
          · subst hnil
            rw [if_pos rfl]
            exact ih hls hwritten hleft hwhole hclean
          · have hmem := hfinished.resolve_left hnil
            cases ls with
            | nil => exact absurd (List.append_eq_nil_iff.mp hwritten).1 hnil
            | cons l ls =>
                rw [List.forall_mem_cons] at hls hclean
                rw [joined_cons] at hwritten
                obtain ⟨rest, rfl, hrest⟩ := exists_of_append_eq hmem hls.1 hwritten
                have hline := readline_line hls.1 hclean.1.not_mem rest
                rw [left, hline] at hleft
                rw [hline] at hwhole
                have hpre : rest.take ahead <+: joined ls := by
                  rw [← hrest]
                  exact (List.take_prefix _ _).trans (List.prefix_append _ _)
                obtain ⟨text, htext⟩ := hclean.1.nextLine hls.1
                  (Decoder.isSome_of_prefix hpre (isSome_decodeFrom_joined hclean.2))
                rw [if_neg hnil, htext]
                dsimp only
                rw [hline, List.map_cons, List.map_cons, ih hls.2 hrest hleft hwhole hclean.2]

theorem clean_of_handled (hwritten : unread ++ written ms = joined ls)
    (hleft : left unread ms = [])
    (h : (handled D unread ms).map Line.bytes = ls.map (· ++ [lf])) :
    Whole unread ms ∧ ∀ l ∈ ls, Clean D l := by
  induction ms generalizing unread ls with
  | nil =>
      have hls : ls = [] := List.map_eq_nil_iff.mp h.symm
      exact ⟨trivial, fun l hl => absurd (hls ▸ hl) List.not_mem_nil⟩
  | cons m ms ih =>
      cases m with
      | write s =>
          rw [written, ← List.append_assoc] at hwritten
          exact ih hwritten hleft h
      | read now ahead =>
          rw [handled] at h
          by_cases hnil : unread = []
          · subst hnil
            rw [if_pos rfl] at h
            obtain ⟨hwhole, hclean⟩ := ih hwritten hleft h
            exact ⟨⟨.inl rfl, hwhole⟩, hclean⟩
          · rw [if_neg hnil] at h
            split at h
            · -- the exception leaves something unread
              have hls : ls = [] := List.map_eq_nil_iff.mp h.symm
              rw [hls] at hwritten
              exact absurd (List.append_eq_nil_iff.mp hwritten).1 hnil
            · rename_i text htext
              cases ls with
              | nil => cases h
              | cons l ls =>
                  obtain ⟨hline, h⟩ := List.cons_eq_cons.mp h
                  have hline : (readline unread).1 = l ++ [lf] := hline
                  have hunread := readline_append unread
                  rw [hline] at hunread
                  have hmem : lf ∈ unread := by
                    rw [← hunread]
                    simp
                  have hrest : (readline unread).2 ++ written ms = joined ls := by
                    rw [joined_cons, List.append_cons] at hwritten
                    rw [← hunread, List.append_assoc] at hwritten
                    exact List.append_cancel_left hwritten
                  obtain ⟨hwhole, hclean⟩ := ih hrest hleft h
                  obtain ⟨t, ht, -⟩ := decode_of_nextLine htext
                  rw [hline] at ht
                  obtain ⟨t', ht', -⟩ := decode_append_lf.mp ht
                  refine ⟨⟨.inr hmem, hwhole⟩, List.forall_mem_cons.mpr ⟨⟨?_, ?_⟩, hclean⟩⟩
                  · exact Option.isSome_iff_exists.mpr ⟨t', ht'⟩
                  · exact not_mem_of_readline hline

/-- **The lines are read that have been written** if and only if no read meets an unfinished line,
and the lines are clean. -/
theorem handled_eq_iff (hls : ∀ l ∈ ls, lf ∉ l) (hwritten : written ms = joined ls)
    (hleft : left [] ms = []) :
    (handled D [] ms).map Line.bytes = ls.map (· ++ [lf]) ↔
      Whole [] ms ∧ ∀ l ∈ ls, Clean D l :=
  ⟨clean_of_handled hwritten hleft, fun h => handled_of_clean hls hwritten hleft h.1 h.2⟩

end

end Text
