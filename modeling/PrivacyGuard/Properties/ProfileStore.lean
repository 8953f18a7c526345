import Mathlib.Algebra.Order.BigOperators.Group.List
import Mathlib.Algebra.Order.Group.Nat
import Mathlib.Data.Set.List
import PrivacyGuard.Effect.Machine
import PrivacyGuard.Model.Profiles

set_option autoImplicit false

/-! # The profile store

What is listed and what is loaded after any calls of `save_profile` and `delete_profile`. A file
is listed under the name of its profile with every `.profile` taken out, so the listing is right
as long as there is none in a name. -/

namespace PrivacyGuard.Profiles

open Text Effect

variable {Data : Type} (P : Place) (C : Codec Data)

inductive Call
  | save (name : Name) (data : Data) (passphrase : List Char) (salt : Salt) (noise : C.Noise)
  | delete (name : Name)

structure Store (Data : Type) where
  dir : Option Files
  /-- The data and the passphrase of a name that has been saved and not deleted since. -/
  saved : Name → Option (Data × List Char)

def Call.apply (s : Store Data) : Call C → Store Data
  | .save name data passphrase salt noise =>
      let result := saveProfile P C name data passphrase salt noise s.dir
      { dir := result.2
        saved := if result.1.isSome then Function.update s.saved name (some (data, passphrase))
          else s.saved }
  | .delete name =>
      { dir := (deleteProfile name s.dir).2
        saved := Function.update s.saved name none }

def machine : Machine (Store Data) (Call C) where
  init := ⟨none, fun _ => none⟩
  step s call := some (call.apply P C s)

/-- The entries of a directory, in any order. -/
def Scan : Option Files → Option (List (List Char)) → Prop
  | none, none => True
  | some files, some entries => entries.Perm files.keys
  | _, _ => False

/-- **The store is a map**: the names that are saved are listed, in order and each once, and their
data are loaded. -/
structure Faithful (s : Store Data) : Prop where
  sorted : ∀ entries, Scan s.dir entries → (listProfiles entries).SortedLT
  listed : ∀ entries, Scan s.dir entries → ∀ t, t ∈ listProfiles entries ↔
    ∃ n : Name, (s.saved n).isSome = true ∧ n.text = t
  loaded : ∀ n data passphrase, s.saved n = some (data, passphrase) →
    loadProfile P C n passphrase s.dir = .ok data

/-- No name that is saved has `.profile` in it. -/
def Plain (_ : Store Data) : Call C → Prop
  | .save name .. => P.takes (fileName name.text) = true → ¬ profile <:+: name.text
  | .delete _ => True

/-! ## The files are those of the saved profiles -/

/-- What a file has in it for what has been saved under its name. -/
def Holds : Option (Data × List Char) → Option Bytes → Prop
  | none, none => True
  | some (data, pw), some raw => ∃ (salt : Salt) (noise : C.Noise),
      raw = salt.bytes ++ C.encrypt (C.deriveKey pw salt.bytes) noise (C.dumps data)
  | _, _ => False

structure Kept (s : Store Data) : Prop where
  holds : ∀ n : Name, Holds C (s.saved n) (contents s.dir (fileName n.text))
  named : ∀ f, (contents s.dir f).isSome = true → ∃ n : Name, fileName n.text = f

variable {P C} {s s' : Store Data}

theorem saved_save (n : Name) (data : Data) (pw : List Char) (salt : Salt) (noise : C.Noise) :
    ((Call.save n data pw salt noise).apply P C s).saved =
      if P.takes (fileName n.text) = true then Function.update s.saved n (some (data, pw))
      else s.saved := by
  rw [Call.apply, saveProfile]
  split <;> rfl

theorem saved_delete (n : Name) :
    ((Call.delete n).apply P C s).saved = Function.update s.saved n none := rfl

theorem Holds.isSome_eq {v : Option (Data × List Char)} {w : Option Bytes} (h : Holds C v w) :
    v.isSome = w.isSome := by
  cases v <;> cases w
  · rfl
  · exact h.elim
  · exact h.elim
  · rfl

theorem Kept.update (h : Kept C s) (n : Name) {v : Option (Data × List Char)} {w : Option Bytes}
    (hvw : Holds C v w) (hsaved : s'.saved = Function.update s.saved n v)
    (hcontents : ∀ f, contents s'.dir f = if f = fileName n.text then w else contents s.dir f) :
    Kept C s' := by
  constructor
  · intro m
    rw [hsaved, hcontents]
    by_cases hm : m = n
    · rw [hm, Function.update_self, if_pos rfl]
      exact hvw
    · rw [Function.update_of_ne hm, if_neg fun heq => hm (Name.ext_fileName heq)]
      exact h.holds m
  · intro f hf
    by_cases hfn : f = fileName n.text
    · exact ⟨n, hfn.symm⟩
    · rw [hcontents, if_neg hfn] at hf
      exact h.named f hf

theorem Kept.step (h : Kept C s) (call : Call C) : Kept C (call.apply P C s) := by
  cases call with
  | save n data pw salt noise =>
      by_cases htakes : P.takes (fileName n.text) = true
      · have hvw : Holds C (some (data, pw)) (some (salt.bytes ++
            C.encrypt (C.deriveKey pw salt.bytes) noise (C.dumps data))) := ⟨salt, noise, rfl⟩
        refine h.update n hvw ?_ fun f => ?_
        · rw [saved_save, if_pos htakes]
        · rw [Call.apply, contents_saveProfile]
          simp only [htakes, true_and]
      · -- a refused name changes nothing
        have hsaved : ((Call.save n data pw salt noise).apply P C s).saved = s.saved := by
          rw [saved_save, if_neg htakes]
        have hcontents : ∀ f, contents ((Call.save n data pw salt noise).apply P C s).dir f =
            contents s.dir f := by
          intro f
          rw [Call.apply, contents_saveProfile, if_neg fun hand => htakes hand.1]
        constructor
        · intro m
          rw [hsaved, hcontents]
          exact h.holds m
        · intro f hf
          rw [hcontents] at hf
          exact h.named f hf
  | delete n =>
      have hvw : Holds C none none := trivial
      exact h.update n hvw (saved_delete n) (contents_deleteProfile n s.dir)

theorem Kept.init : Kept C (machine P C).init := by
  constructor
  · exact fun n => trivial
  · intro f hf
    cases hf

theorem Kept.loaded (h : Kept C s) {n : Name} {data : Data} {pw : List Char}
    (hn : s.saved n = some (data, pw)) : loadProfile P C n pw s.dir = .ok data := by
  have hholds := h.holds n
  rw [hn] at hholds
  cases hraw : contents s.dir (fileName n.text) with
  | none =>
      rw [hraw] at hholds
      exact hholds.elim
  | some raw =>
      rw [hraw] at hholds
      obtain ⟨salt, noise, rfl⟩ := hholds
      exact loadProfile_of_contents hraw

/-- The names that are saved, one for each file. -/
theorem Kept.names (h : Kept C s) {files : Files} (hdir : s.dir = some files) :
    ∃ ns : List Name, ns.Nodup ∧ (∀ n, n ∈ ns ↔ (s.saved n).isSome = true) ∧
      files.keys = (ns.map Name.text).map fileName := by
  have hmem : ∀ f, f ∈ files.keys ↔ (contents s.dir f).isSome = true := by
    intro f
    rw [hdir]
    exact AList.lookup_isSome.symm
  obtain ⟨ns, hns⟩ : files.keys ∈ Set.range (List.map fun n : Name => fileName n.text) := by
    rw [Set.range_list_map]
    exact fun f hf => h.named f ((hmem f).mp hf)
  have hkeys : files.keys = (ns.map Name.text).map fileName := by
    rw [List.map_map]
    exact hns.symm
  refine ⟨ns, ?_, fun n => ?_, hkeys⟩
  · have hnodup := files.keys_nodup
    rw [hkeys] at hnodup
    exact hnodup.of_map.of_map
  · rw [(h.holds n).isSome_eq, ← hmem, ← hns]
    constructor
    · exact fun hn => List.mem_map_of_mem hn
    · intro hn
      obtain ⟨m, hm, heq⟩ := List.mem_map.mp hn
      rwa [← Name.ext_fileName heq]

/-- What is listed: every name that is saved, with `.profile` taken out. -/
theorem Kept.listing (h : Kept C s) {entries : Option (List (List Char))}
    (hscan : Scan s.dir entries) :
    ∃ ns : List Name, ns.Nodup ∧ (∀ n, n ∈ ns ↔ (s.saved n).isSome = true) ∧
      (listProfiles entries).Perm ((ns.map Name.text).map (remove profile)) := by
  cases hdir : s.dir with
  | none =>
      rw [hdir] at hscan
      cases entries with
      | some es => exact hscan.elim
      | none =>
          refine ⟨[], List.nodup_nil, fun n => ?_, List.Perm.refl _⟩
          rw [(h.holds n).isSome_eq, hdir]
          exact iff_of_false List.not_mem_nil Bool.false_ne_true
  | some files =>
      rw [hdir] at hscan
      cases entries with
      | none => exact hscan.elim
      | some es =>
          obtain ⟨ns, hnodup, hmem, hkeys⟩ := h.names hdir
          have hperm : es.Perm files.keys := hscan
          rw [hkeys] at hperm
          exact ⟨ns, hnodup, hmem, listProfiles_perm hperm⟩

theorem Kept.faithful (h : Kept C s)
    (hplain : ∀ n, (s.saved n).isSome = true → ¬ profile <:+: n.text) : Faithful P C s := by
  have hlisting : ∀ entries, Scan s.dir entries → ∃ ns : List Name, ns.Nodup ∧
      (∀ n, n ∈ ns ↔ (s.saved n).isSome = true) ∧
      (listProfiles entries).Perm (ns.map Name.text) := by
    intro entries hscan
    obtain ⟨ns, hnodup, hmem, hperm⟩ := h.listing hscan
    refine ⟨ns, hnodup, hmem, ?_⟩
    have hsame : (ns.map Name.text).map (remove profile) = ns.map Name.text := by
      rw [List.map_map]
      refine List.map_congr_left fun n hn => ?_
      exact remove_of_not_infix (hplain n ((hmem n).mp hn))
    rwa [hsame] at hperm
  constructor
  · intro entries hscan
    obtain ⟨ns, hnodup, -, hperm⟩ := hlisting entries hscan
    refine (listProfiles_sorted entries).sortedLT_of_nodup (hperm.nodup_iff.mpr ?_)
    exact hnodup.map Name.text_injective
  · intro entries hscan t
    obtain ⟨ns, -, hmem, hperm⟩ := hlisting entries hscan
    rw [hperm.mem_iff, List.mem_map]
    simp only [hmem]
  · exact fun n data pw hn => h.loaded hn

/-- Taking something out of a name is missed by none of the lengths. -/
theorem Kept.plain_of_faithful (h : Kept C s) (hf : Faithful P C s) {n : Name}
    (hn : (s.saved n).isSome = true) : ¬ profile <:+: n.text := by
  intro hin
  obtain ⟨entries, hscan⟩ : ∃ entries, Scan s.dir entries := by
    cases s.dir with
    | none => exact ⟨none, trivial⟩
    | some files => exact ⟨some files.keys, List.Perm.refl _⟩
  obtain ⟨ns, hnodup, hmem, hperm⟩ := h.listing hscan
  have hsame : (listProfiles entries).Perm (ns.map Name.text) := by
    refine (List.perm_ext_iff_of_nodup (hf.sorted entries hscan).nodup
      (hnodup.map Name.text_injective)).mpr fun t => ?_
    rw [hf.listed entries hscan, List.mem_map]
    simp only [hmem]
  have hlen := ((hperm.symm.trans hsame).map List.length).sum_eq
  have hlt : (ns.map fun m => (remove profile m.text).length).sum <
      (ns.map fun m => m.text.length).sum :=
    List.sum_lt_sum _ _ (fun m _ => length_remove_le profile m.text)
      ⟨n, (hmem n).mpr hn, length_remove_lt solid_profile hin⟩
  simp only [List.map_map] at hlen
  exact absurd hlen hlt.ne

/-! ## Over a run -/

/-- The files, and no `.profile` in a name. -/
def Inv (C : Codec Data) (s : Store Data) : Prop :=
  Kept C s ∧ ∀ n, (s.saved n).isSome = true → ¬ profile <:+: n.text

theorem Inv.step (h : Inv C s) {call : Call C} (hcall : Plain P C s call) :
    Inv C (call.apply P C s) := by
  have hupdate : ∀ (n : Name) v, (∀ m, m = n → v.isSome = true → ¬ profile <:+: m.text) →
      ∀ m, (Function.update s.saved n v m).isSome = true → ¬ profile <:+: m.text := by
    intro n v hv m hm
    by_cases hmn : m = n
    · subst hmn
      rw [Function.update_self] at hm
      exact hv m rfl hm
    · rw [Function.update_of_ne hmn] at hm
      exact h.2 m hm
  refine ⟨h.1.step call, ?_⟩
  cases call with
  | save n data pw salt noise =>
      rw [saved_save]
      split
      · rename_i htakes
        exact hupdate n _ fun m hm _ => hm ▸ hcall htakes
      · exact h.2
  | delete n => exact hupdate n none fun m _ hm => absurd hm Bool.false_ne_true

theorem run_isSome (calls : List (Call C)) : ∃ s, (machine P C).run calls = some s := by
  induction calls using List.reverseRecOn with
  | nil => exact ⟨_, rfl⟩
  | append_singleton calls call ih =>
      obtain ⟨s, hs⟩ := ih
      exact ⟨call.apply P C s, by rw [Machine.run_snoc, hs]; rfl⟩

/-- **The store is a map** if and only if no saved name has `.profile` in it. -/
theorem faithful_iff (calls : List (Call C)) :
    (machine P C).Always (Faithful P C) calls ↔ (machine P C).Each (Plain P C) calls := by
  have hkept : (machine P C).Always (Kept C) calls := by
    refine fun pre s _ hs => Machine.invariant Kept.init ?_ hs
    rintro s call s' hs hs'
    cases hs'
    exact hs.step call
  constructor
  · intro h
    obtain ⟨s, hs⟩ := run_isSome (P := P) calls
    refine Machine.each_of_always (P := fun s => Kept C s ∧ Faithful P C s) ?_ hs
      fun pre s hpre hs => ⟨hkept pre s hpre hs, h pre s hpre hs⟩
    rintro s call s' hs' ⟨hk, hf⟩
    cases hs'
    cases call with
    | save n data pw salt noise =>
        intro htakes
        refine hk.plain_of_faithful hf ?_
        rw [saved_save, if_pos htakes, Function.update_self]
        rfl
    | delete n => trivial
  · intro h
    have hinv : (machine P C).Always (Inv C) calls := by
      refine Machine.always_of_each ⟨Kept.init, fun n hn => absurd hn Bool.false_ne_true⟩ ?_ h
      rintro s call s' hs hcall hs'
      cases hs'
      exact hs.step hcall
    exact hinv.imp fun s hs => hs.1.faithful hs.2

/-! ## A name with `.profile` in it -/

/-- Empty profiles, stored as they are. -/
def plainCodec : Codec Unit where
  Key := List Char × Bytes
  Noise := Unit
  deriveKey passphrase salt := (passphrase, salt)
  encrypt _ _ text := text
  decrypt _ token := some token
  dumps _ := [123, 125]
  loads text := if text = [123, 125] then some () else none
  decrypt_encrypt _ _ _ := rfl
  loads_dumps _ := if_pos rfl

def anywhere : Place := ⟨"/root/.privacyguard_profiles".toList, fun _ => true⟩

def dotted : Name := ⟨"a.profile".toList, by decide, by decide⟩

def saveDotted : Call plainCodec := .save dotted () [] ⟨List.replicate 16 0, rfl⟩ ()

/-- It is listed as `a`. -/
theorem not_faithful :
    ¬ (machine anywhere plainCodec).Always (Faithful anywhere plainCodec) [saveDotted] := by
  intro h
  have hfaithful := h _ _ List.prefix_rfl rfl
  have hkept : Kept plainCodec (saveDotted.apply anywhere plainCodec ⟨none, fun _ => none⟩) :=
    (Kept.init (P := anywhere)).step saveDotted
  have hdotted : profile <:+: dotted.text := by decide
  exact hkept.plain_of_faithful hfaithful rfl hdotted

end PrivacyGuard.Profiles
