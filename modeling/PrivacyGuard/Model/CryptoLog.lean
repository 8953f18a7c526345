import PrivacyGuard.Model.Profiles
import PrivacyGuard.Text.Stamps

set_option autoImplicit false

/-! # The session log

`crypto_log.py`: what a logger has been told is kept in its buffer, and written to an encrypted
file of `LOG_DIR` when it is saved. The files, the encryption and JSON are those of the profiles. -/

namespace PrivacyGuard.CryptoLog

open Text Profiles

/-- What `time.localtime` gives, in a year of four digits. -/
structure LocalTime where
  year : Nat
  month : Nat
  day : Nat
  hour : Nat
  minute : Nat
  second : Nat
  wf : 1000 ≤ year ∧ year < 10000 ∧ month ≤ 12 ∧ day ≤ 31 ∧ hour < 24 ∧ minute < 60 ∧ second ≤ 61
  deriving DecidableEq

def LocalTime.fields (t : LocalTime) : List Nat :=
  [t.year, t.month, t.day, t.hour, t.minute, t.second]

/-- `%Y-%m-%d %H:%M:%S` -/
def entryFormat : Format :=
  [([], 4), (['-'], 2), (['-'], 2), ([' '], 2), ([':'], 2), ([':'], 2)]

/-- `%Y%m%d-%H%M%S` -/
def nameFormat : Format := [([], 4), ([], 2), ([], 2), (['-'], 2), ([], 2), ([], 2)]

def strftime (fmt : Format) (t : LocalTime) : List Char := stamp 10 fmt t.fields

structure Entry where
  ts : List Char
  msg : List Char
  deriving DecidableEq

/-- `log`: the buffer afterwards. -/
def log (now : LocalTime) (message : List Char) (buffer : List Entry) : List Entry :=
  buffer ++ [⟨strftime entryFormat now, message⟩]

/-- A label that stays within the directory. -/
structure Label where
  text : List Char
  no_slash : '/' ∉ text

/-- `label or time.strftime('%Y%m%d-%H%M%S')` -/
def labelOr (label : Option Label) (now : LocalTime) : List Char :=
  match label with
  | none => strftime nameFormat now
  | some l => if l.text = [] then strftime nameFormat now else l.text

def fileName (label : List Char) : List Char := "session-".toList ++ label ++ ".enc".toList

/-- `LOG_DIR`, and the file names that can be created in it. -/
structure Place where
  logDir : List Char
  takes : List Char → Bool

inductive DecryptError
  | notFound
  | invalidToken
  | notJson

section

variable (P : Place) (C : Codec (List Entry))

/-- The path that is returned, and the directory after the call; without a path, the name has
been refused. -/
def save (buffer : List Entry) (passphrase : List Char) (label : Option Label) (now : LocalTime)
    (salt : Salt) (noise : C.Noise) (dir : Option Files) : Option (List Char) × Option Files :=
  let files := dir.getD ∅
  let key := C.deriveKey passphrase salt.bytes
  let token := C.encrypt key noise (C.dumps buffer)
  let fname := fileName (labelOr label now)
  if P.takes fname then
    (some (P.logDir ++ '/' :: fname), some (files.insert fname (salt.bytes ++ token)))
  else (none, some files)

/-- `decrypt`, of a file of the directory. -/
def decrypt (file : List Char) (passphrase : List Char) (dir : Option Files) :
    Except DecryptError (List Entry) :=
  match contents dir file with
  | none => .error .notFound
  | some data =>
      let salt := data.take 16
      let token := data.drop 16
      let key := C.deriveKey passphrase salt
      match C.decrypt key token with
      | none => .error .invalidToken
      | some plaintext =>
          match C.loads plaintext with
          | none => .error .notJson
          | some entries => .ok entries

end

/-- `session-*.enc` -/
def Matches (file : List Char) : Prop :=
  "session-".toList <+: file ∧ ".enc".toList <:+ file ∧ 12 ≤ file.length

instance (file : List Char) : Decidable (Matches file) :=
  inferInstanceAs (Decidable (_ <+: _ ∧ _ <:+ _ ∧ _ ≤ _))

/-- `list_saved_logs`, for the entries of the directory in the order in which they are read: the
names of the files that are returned. -/
def listSavedLogs (entries : Option (List (List Char))) : List (List Char) :=
  match entries with
  | none => []
  | some files => (files.filter fun f => Matches f).mergeSort (· ≤ ·)

/-! ## What the functions do -/

theorem LocalTime.fits_entry (t : LocalTime) : entryFormat.Fits 10 t.fields := by
  obtain ⟨-, hyear, hmonth, hday, hhour, hminute, hsecond⟩ := t.wf
  unfold Format.Fits entryFormat fields
  simp only [List.forall₂_cons, List.forall₂_nil_right_iff, Nat.reducePow, and_true]
  omega

theorem LocalTime.fits_name (t : LocalTime) : nameFormat.Fits 10 t.fields := by
  obtain ⟨-, hyear, hmonth, hday, hhour, hminute, hsecond⟩ := t.wf
  unfold Format.Fits nameFormat fields
  simp only [List.forall₂_cons, List.forall₂_nil_right_iff, Nat.reducePow, and_true]
  omega

theorem matches_fileName (label : List Char) : Matches (fileName label) := by
  unfold Matches fileName
  refine ⟨?_, List.suffix_append _ _, ?_⟩
  · rw [List.append_assoc]
    exact List.prefix_append _ _
  · have hprefix : "session-".toList.length = 8 := rfl
    have hsuffix : ".enc".toList.length = 4 := rfl
    rw [List.length_append, List.length_append, hprefix, hsuffix]
    omega

/-- The names of later files come later. -/
theorem fileName_lt {t u : LocalTime} (h : t.fields < u.fields) :
    fileName (strftime nameFormat t) < fileName (strftime nameFormat u) := by
  unfold fileName
  rw [List.append_assoc, List.append_assoc]
  apply List.append_left_lt
  have hlen : (strftime nameFormat t).length = (strftime nameFormat u).length :=
    length_stamp t.fits_name u.fits_name
  exact append_lt_append hlen (stamp_lt (by decide) t.fits_name u.fits_name h)

variable {P : Place} {C : Codec (List Entry)}

theorem contents_save (buffer : List Entry) (pw : List Char) (label : Option Label)
    (now : LocalTime) (salt : Salt) (noise : C.Noise) (dir : Option Files) (f : List Char) :
    contents (save P C buffer pw label now salt noise dir).2 f =
      if P.takes (fileName (labelOr label now)) = true ∧ f = fileName (labelOr label now) then
        some (salt.bytes ++ C.encrypt (C.deriveKey pw salt.bytes) noise (C.dumps buffer))
      else contents dir f := by
  have hmade : ∀ f, contents (some (dir.getD ∅)) f = contents dir f := by
    cases dir <;> exact fun _ => rfl
  rw [save]
  by_cases htakes : P.takes (fileName (labelOr label now)) = true
  · rw [if_pos htakes]
    by_cases hf : f = fileName (labelOr label now)
    · rw [if_pos ⟨htakes, hf⟩, hf]
      exact AList.lookup_insert _
    · rw [if_neg fun h => hf h.2, ← hmade]
      exact AList.lookup_insert_ne hf
  · rw [if_neg htakes, if_neg fun h => htakes h.1, ← hmade]

/-- The salt and the token are found again. -/
theorem decrypt_of_contents {f : List Char} {buffer : List Entry} {pw : List Char} {salt : Salt}
    {noise : C.Noise} {dir : Option Files}
    (h : contents dir f =
      some (salt.bytes ++ C.encrypt (C.deriveKey pw salt.bytes) noise (C.dumps buffer))) :
    decrypt C f pw dir = .ok buffer := by
  simp only [decrypt, h, salt.take_append, salt.drop_append, C.decrypt_encrypt, C.loads_dumps]

end PrivacyGuard.CryptoLog
