import Mathlib.Data.Char
import Mathlib.Data.List.AList
import Mathlib.Data.List.Lex
import Mathlib.Data.List.Sort
import PrivacyGuard.Text.Split

set_option autoImplicit false

/-! # Saved profiles

The functions of `profiles.py` over the files of `PROFILE_DIR`. A profile is one file, named after
the profile; its text is the salt and then the token. The file system and the libraries for
encryption and JSON are parameters. -/

namespace PrivacyGuard.Profiles

open Text

abbrev Bytes : Type := List UInt8

/-- A name that is not empty and has no slash. -/
structure Name where
  text : List Char
  ne_nil : text ≠ []
  no_slash : '/' ∉ text
deriving DecidableEq

/-- `os.urandom(16)` -/
structure Salt where
  bytes : Bytes
  length : bytes.length = 16

theorem Salt.take_append (salt : Salt) (token : Bytes) :
    (salt.bytes ++ token).take 16 = salt.bytes :=
  List.take_left' salt.length

theorem Salt.drop_append (salt : Salt) (token : Bytes) : (salt.bytes ++ token).drop 16 = token :=
  List.drop_left' salt.length

/-- Fernet, the derivation of its key and `json`. A token depends on its time and its
initialization vector as well, here the `Noise`. -/
structure Codec (Data : Type) where
  Key : Type
  Noise : Type
  deriveKey : List Char → Bytes → Key
  encrypt : Key → Noise → Bytes → Bytes
  decrypt : Key → Bytes → Option Bytes
  dumps : Data → Bytes
  loads : Bytes → Option Data
  decrypt_encrypt : ∀ key noise text, decrypt key (encrypt key noise text) = some text
  loads_dumps : ∀ data, loads (dumps data) = some data

/-- `PROFILE_DIR`, and the file names that can be created in it: not those that are too long. -/
structure Place where
  profileDir : List Char
  takes : List Char → Bool

/-- The files of a directory. -/
abbrev Files : Type := AList fun _ : List Char => Bytes

def profile : List Char := ".profile".toList

/-- The name of the file of a profile. -/
def fileName (name : List Char) : List Char := name ++ ".profile.enc".toList

def Place.path (P : Place) (name : List Char) : List Char := P.profileDir ++ '/' :: fileName name

/-- What a file has in it, if it exists. -/
def contents (dir : Option Files) (file : List Char) : Option Bytes := dir.bind (·.lookup file)

/-- The exceptions of `load_profile`. -/
inductive LoadError
  | notFound (message : List Char)
  | invalidToken
  | notJson

section

variable {Data : Type} (P : Place) (C : Codec Data)

/-- The path that is returned, and the directory after the call; without a path, the name has
been refused. -/
def saveProfile (name : Name) (data : Data) (passphrase : List Char) (salt : Salt)
    (noise : C.Noise) (dir : Option Files) : Option (List Char) × Option Files :=
  let files := dir.getD ∅
  let key := C.deriveKey passphrase salt.bytes
  let token := C.encrypt key noise (C.dumps data)
  if P.takes (fileName name.text) then
    (some (P.path name.text), some (files.insert (fileName name.text) (salt.bytes ++ token)))
  else (none, some files)

def loadProfile (name : Name) (passphrase : List Char) (dir : Option Files) :
    Except LoadError Data :=
  match contents dir (fileName name.text) with
  | none =>
      .error (.notFound ("No profile named '".toList ++ name.text ++ "' at ".toList ++
        P.path name.text))
  | some raw =>
      let salt := raw.take 16
      let token := raw.drop 16
      let key := C.deriveKey passphrase salt
      match C.decrypt key token with
      | none => .error .invalidToken
      | some plaintext =>
          match C.loads plaintext with
          | none => .error .notJson
          | some data => .ok data

end

/-- `Path.stem`: without the last dot and what stands behind it, unless one of its sides is
empty. -/
def stem (file : List Char) : List Char :=
  let i := file.length - (splitLast ['.'] file).length - 1
  if '.' ∈ file ∧ 0 < i ∧ i < file.length - 1 then file.take i else file

/-- The name under which a file is listed. -/
def listedName (file : List Char) : List Char := remove profile (stem file)

/-- `list_profiles`, for the entries of the directory in the order in which they are read. -/
def listProfiles (entries : Option (List (List Char))) : List (List Char) :=
  match entries with
  | none => []
  | some files =>
      ((files.filter fun f => ".profile.enc".toList <:+ f).map listedName).mergeSort (· ≤ ·)

def deleteProfile (name : Name) (dir : Option Files) : Bool × Option Files :=
  match dir with
  | none => (false, none)
  | some files =>
      if fileName name.text ∈ files then (true, some (files.erase (fileName name.text)))
      else (false, some files)

/-! ## File names and back -/

theorem solid_profile : Solid profile := ⟨'.', "profile".toList, rfl, by decide⟩

theorem fileName_injective : Function.Injective fileName := fun _ _ => List.append_cancel_right

theorem Name.text_injective : Function.Injective Name.text := by
  rintro ⟨s, _, _⟩ ⟨t, _, _⟩ rfl
  rfl

theorem Name.ext_fileName {n m : Name} (h : fileName n.text = fileName m.text) : n = m :=
  Name.text_injective (fileName_injective h)

theorem stem_append {s ext : List Char} (hs : s ≠ []) (hext : ext ≠ []) (hdot : '.' ∉ ext) :
    stem (s ++ ['.'] ++ ext) = s := by
  have hlast : splitLast ['.'] (s ++ ['.'] ++ ext) = ext := by
    refine splitLast_append ⟨'.', [], rfl, List.not_mem_nil⟩ (fun h => hdot ?_) s
    exact h.subset (List.mem_singleton_self _)
  have hi : (s ++ ['.'] ++ ext).length - ext.length - 1 = s.length := by
    simp only [List.length_append, List.length_singleton]
    omega
  have hpos := List.length_pos_of_ne_nil hs
  have hpos' := List.length_pos_of_ne_nil hext
  rw [stem, hlast, hi, if_pos]
  · rw [List.append_assoc, List.take_left]
  · refine ⟨by simp, hpos, ?_⟩
    simp only [List.length_append, List.length_singleton]
    omega

/-- A file is listed under the name of its profile, with `.profile` taken out. -/
theorem listedName_fileName (t : List Char) : listedName (fileName t) = remove profile t := by
  have hfile : fileName t = t ++ profile ++ ['.'] ++ "enc".toList := by
    rw [List.append_assoc, List.append_assoc]
    rfl
  have hstem : stem (fileName t) = t ++ profile := by
    have hne : t ++ profile ≠ [] := List.append_ne_nil_of_right_ne_nil t (by decide)
    rw [hfile, stem_append hne (by decide) (by decide)]
  have hremove := remove_append solid_profile t []
  rw [List.append_nil] at hremove
  rw [listedName, hstem, hremove]
  exact List.append_nil _

/-- What is listed when the files are those of some names. -/
theorem listProfiles_perm {entries ts : List (List Char)} (h : entries.Perm (ts.map fileName)) :
    (listProfiles (some entries)).Perm (ts.map (remove profile)) := by
  have hall : (entries.filter fun f => ".profile.enc".toList <:+ f) = entries := by
    refine List.filter_eq_self.mpr fun f hf => ?_
    obtain ⟨t, -, rfl⟩ := List.mem_map.mp (h.subset hf)
    exact decide_eq_true (List.suffix_append t _)
  have hmap : (ts.map fileName).map listedName = ts.map (remove profile) := by
    rw [List.map_map]
    exact List.map_congr_left fun t _ => listedName_fileName t
  rw [listProfiles, hall, ← hmap]
  exact (List.mergeSort_perm _ _).trans (h.map listedName)

theorem listProfiles_sorted (entries : Option (List (List Char))) :
    (listProfiles entries).SortedLE := by
  cases entries with
  | none => exact List.Pairwise.nil.sortedLE
  | some entries => exact List.sortedLE_mergeSort

/-! ## What the functions do -/

section

variable {Data : Type} {P : Place} {C : Codec Data}

/-- What is written, unless the name is refused. -/
theorem contents_saveProfile (n : Name) (data : Data) (pw : List Char) (salt : Salt)
    (noise : C.Noise) (dir : Option Files) (f : List Char) :
    contents (saveProfile P C n data pw salt noise dir).2 f =
      if P.takes (fileName n.text) = true ∧ f = fileName n.text then
        some (salt.bytes ++ C.encrypt (C.deriveKey pw salt.bytes) noise (C.dumps data))
      else contents dir f := by
  have hmade : ∀ f, contents (some (dir.getD ∅)) f = contents dir f := by
    cases dir <;> exact fun _ => rfl
  rw [saveProfile]
  by_cases htakes : P.takes (fileName n.text) = true
  · rw [if_pos htakes]
    by_cases hf : f = fileName n.text
    · rw [if_pos ⟨htakes, hf⟩, hf]
      exact AList.lookup_insert _
    · rw [if_neg fun h => hf h.2, ← hmade]
      exact AList.lookup_insert_ne hf
  · rw [if_neg htakes, if_neg fun h => htakes h.1, ← hmade]

theorem contents_deleteProfile (n : Name) (dir : Option Files) (f : List Char) :
    contents (deleteProfile n dir).2 f =
      if f = fileName n.text then none else contents dir f := by
  cases dir with
  | none => exact (ite_self _).symm
  | some files =>
      rw [deleteProfile]
      by_cases hn : fileName n.text ∈ files
      · rw [if_pos hn]
        by_cases hf : f = fileName n.text
        · rw [if_pos hf, hf]
          exact AList.lookup_erase _ _
        · rw [if_neg hf]
          exact AList.lookup_erase_ne hf
      · rw [if_neg hn]
        by_cases hf : f = fileName n.text
        · rw [if_pos hf, hf]
          exact AList.lookup_eq_none.mpr hn
        · rw [if_neg hf]

/-- The salt and the token are found again. -/
theorem loadProfile_of_contents {n : Name} {data : Data} {pw : List Char} {salt : Salt}
    {noise : C.Noise} {dir : Option Files}
    (h : contents dir (fileName n.text) =
      some (salt.bytes ++ C.encrypt (C.deriveKey pw salt.bytes) noise (C.dumps data))) :
    loadProfile P C n pw dir = .ok data := by
  simp only [loadProfile, h, salt.take_append, salt.drop_append, C.decrypt_encrypt, C.loads_dumps]

end

end PrivacyGuard.Profiles
