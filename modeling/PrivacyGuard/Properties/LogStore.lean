import Mathlib.Logic.Equiv.List
import PrivacyGuard.Model.CryptoLog
import PrivacyGuard.Properties.ProfileStore

set_option autoImplicit false

/-! # The saved logs

What is listed and what is decrypted after any calls of `log` and `save` of any loggers. A file
that is not labelled is named after the second in which it is saved, so that, while the clock does
not go back, the listing is in the order of the saving, and what a logger has saved first is the
beginning of what it saves later. -/

namespace PrivacyGuard.CryptoLog

open Text Profiles Effect

variable (P : Place) (C : Codec (List Entry))

/-- What the file of a name has been saved with, last: `time` where the name is that of a time. -/
structure Saved where
  logger : Nat
  entries : List Entry
  passphrase : List Char
  time : Option LocalTime

/-- The directory, and the buffers of the loggers, of the command line and of the GUI, of this
session and of others. No call looks at `saved` and at `clock`, the time of the last call. -/
structure Logs where
  dir : Option Files
  loggers : Nat → List Entry
  saved : List Char → Option Saved
  clock : Option LocalTime

inductive Call
  | log (i : Nat) (now : LocalTime) (message : List Char)
  | save (i : Nat) (passphrase : List Char) (label : Option Label) (now : LocalTime) (salt : Salt)
      (noise : C.Noise)

def Call.now : Call C → LocalTime
  | .log _ now _ => now
  | .save _ _ _ now _ _ => now

/-- The name is that of the time. -/
def timeOf (label : Option Label) (now : LocalTime) : Option LocalTime :=
  if labelOr label now = strftime nameFormat now then some now else none

def Call.apply (s : Logs) : Call C → Logs
  | .log i now message =>
      { s with
        loggers := Function.update s.loggers i (CryptoLog.log now message (s.loggers i))
        clock := some now }
  | .save i passphrase label now salt noise =>
      let result := CryptoLog.save P C (s.loggers i) passphrase label now salt noise s.dir
      let new := ⟨i, s.loggers i, passphrase, timeOf label now⟩
      { s with
        dir := result.2
        saved := if result.1.isSome then
            Function.update s.saved (fileName (labelOr label now)) (some new)
          else s.saved
        clock := some now }

def machine : Machine Logs (Call C) where
  init := ⟨none, fun _ => [], fun _ => none, none⟩
  step s call := some (call.apply P C s)

/-- What has been saved is listed, in order and each file once, and decrypted with its passphrase;
and its logger still has it, with what it has been told since. -/
structure Faithful (s : Logs) : Prop where
  sorted : ∀ entries, Scan s.dir entries → (listSavedLogs entries).SortedLT
  listed : ∀ entries, Scan s.dir entries → ∀ f, f ∈ listSavedLogs entries ↔ (s.saved f).isSome
  decrypted : ∀ f d, s.saved f = some d → decrypt C f d.passphrase s.dir = .ok d.entries
  kept : ∀ f d, s.saved f = some d → d.entries <+: s.loggers d.logger

/-- The entries of a logger are in the order of their times, and so are the files in which it has
been saved without a label: each begins with the ones that are listed before it. -/
structure Chronological (s : Logs) : Prop where
  entries : ∀ i, ((s.loggers i).map Entry.ts).SortedLE
  files : ∀ f g d e, s.saved f = some d → s.saved g = some e → d.logger = e.logger →
    d.time.isSome → e.time.isSome → f ≤ g → d.entries <+: e.entries

/-- Nothing is later than the clock. -/
def Past (clock : Option LocalTime) (t : LocalTime) : Prop := ∃ c ∈ clock, t.fields ≤ c.fields

/-- The clock has not gone back. -/
def InOrder (s : Logs) (call : Call C) : Prop := ∀ t ∈ s.clock, t.fields ≤ (call.now C).fields

/-! ## The files are what has been saved -/

/-- What a file has in it for what has been saved in it. -/
def Holds : Option Saved → Option Bytes → Prop
  | none, none => True
  | some d, some raw => ∃ (salt : Salt) (noise : C.Noise),
      raw = salt.bytes ++ C.encrypt (C.deriveKey d.passphrase salt.bytes) noise (C.dumps d.entries)
  | _, _ => False

structure Kept (s : Logs) : Prop where
  holds : ∀ f, Holds C (s.saved f) (contents s.dir f)
  named : ∀ f, (s.saved f).isSome = true → Matches f
  grown : ∀ f d, s.saved f = some d → d.entries <+: s.loggers d.logger

variable {P C} {s s' : Logs}

theorem Holds.isSome_eq {v : Option Saved} {w : Option Bytes} (h : Holds C v w) :
    v.isSome = w.isSome := by
  cases v <;> cases w
  · rfl
  · exact h.elim
  · exact h.elim
  · rfl

/-- What the last save of a name has written, for the calls of `save` that have not been refused. -/
theorem saved_save (i : Nat) (pw : List Char) (label : Option Label) (now : LocalTime)
    (salt : Salt) (noise : C.Noise) (f : List Char) :
    ((Call.save i pw label now salt noise).apply P C s).saved f =
      if P.takes (fileName (labelOr label now)) = true ∧ f = fileName (labelOr label now) then
        some ⟨i, s.loggers i, pw, timeOf label now⟩
      else s.saved f := by
  have hsaved : ((Call.save i pw label now salt noise).apply P C s).saved =
      if P.takes (fileName (labelOr label now)) = true then
        Function.update s.saved (fileName (labelOr label now))
          (some ⟨i, s.loggers i, pw, timeOf label now⟩)
      else s.saved := by
    rw [Call.apply, CryptoLog.save]
    split <;> rfl
  rw [hsaved]
  by_cases htakes : P.takes (fileName (labelOr label now)) = true
  · rw [if_pos htakes]
    by_cases hf : f = fileName (labelOr label now)
    · rw [if_pos ⟨htakes, hf⟩, hf]
      exact Function.update_self _ _ _
    · rw [if_neg fun h => hf h.2]
      exact Function.update_of_ne hf _ _
  · rw [if_neg htakes, if_neg fun h => htakes h.1]

theorem kept_init : Kept C (machine P C).init where
  holds _ := trivial
  named _ h := absurd h Bool.false_ne_true
  grown _ _ h := by cases h

theorem prefix_log (now : LocalTime) (message : List Char) (buffer : List Entry) :
    buffer <+: log now message buffer := List.prefix_append _ _

theorem Kept.log (h : Kept C s) (i : Nat) (now : LocalTime) (message : List Char) :
    Kept C ((Call.log i now message).apply P C s) := by
  refine ⟨h.holds, h.named, fun f d hf => ?_⟩
  have hgrown : d.entries <+: s.loggers d.logger := h.grown f d hf
  show d.entries <+: Function.update s.loggers i _ d.logger
  by_cases hi : d.logger = i
  · rw [hi, Function.update_self]
    rw [hi] at hgrown
    exact hgrown.trans (prefix_log now message _)
  · rw [Function.update_of_ne hi]
    exact hgrown

theorem Kept.save (h : Kept C s) (i : Nat) (pw : List Char) (label : Option Label)
    (now : LocalTime) (salt : Salt) (noise : C.Noise) :
    Kept C ((Call.save i pw label now salt noise).apply P C s) := by
  constructor
  · intro f
    have hcontents : contents ((Call.save i pw label now salt noise).apply P C s).dir f = _ :=
      contents_save (s.loggers i) pw label now salt noise s.dir f
    rw [saved_save, hcontents]
    split
    · exact ⟨salt, noise, rfl⟩
    · exact h.holds f
  · intro f hf
    rw [saved_save] at hf
    split at hf
    · rename_i hnew
      rw [hnew.2]
      exact matches_fileName _
    · exact h.named f hf
  · intro f d hf
    rw [saved_save] at hf
    split at hf
    · cases hf
      exact List.prefix_rfl
    · exact h.grown f d hf

theorem Kept.step (h : Kept C s) (call : Call C) : Kept C (call.apply P C s) := by
  cases call with
  | log i now message => exact h.log i now message
  | save i pw label now salt noise => exact h.save i pw label now salt noise

theorem Kept.decrypted (h : Kept C s) {f : List Char} {d : Saved} (hf : s.saved f = some d) :
    decrypt C f d.passphrase s.dir = .ok d.entries := by
  have hholds := h.holds f
  rw [hf] at hholds
  cases hraw : contents s.dir f with
  | none =>
      rw [hraw] at hholds
      exact hholds.elim
  | some raw =>
      rw [hraw] at hholds
      obtain ⟨salt, noise, rfl⟩ := hholds
      exact decrypt_of_contents hraw

/-- Every file of the directory is one that is listed. -/
theorem Kept.listing (h : Kept C s) {entries : Option (List (List Char))}
    (hscan : Scan s.dir entries) : (listSavedLogs entries).SortedLT ∧
      ∀ f, f ∈ listSavedLogs entries ↔ (s.saved f).isSome = true := by
  cases hdir : s.dir with
  | none =>
      rw [hdir] at hscan
      cases entries with
      | some es => exact hscan.elim
      | none =>
          refine ⟨List.Pairwise.nil.sortedLT, fun f => ?_⟩
          rw [(h.holds f).isSome_eq, hdir]
          exact iff_of_false List.not_mem_nil Bool.false_ne_true
  | some files =>
      rw [hdir] at hscan
      cases entries with
      | none => exact hscan.elim
      | some es =>
          have hperm : es.Perm files.keys := hscan
          have hmem : ∀ f, f ∈ es ↔ (s.saved f).isSome = true := by
            intro f
            rw [hperm.mem_iff, (h.holds f).isSome_eq, hdir]
            exact AList.lookup_isSome.symm
          -- each name in the directory is one a save has made, so the pattern drops none
          have hall : (es.filter fun f => Matches f) = es := by
            refine List.filter_eq_self.mpr fun f hf => ?_
            exact decide_eq_true (h.named f ((hmem f).mp hf))
          have hnodup : (es.mergeSort (· ≤ ·)).Nodup :=
            (List.mergeSort_perm _ _).nodup_iff.mpr (hperm.nodup_iff.mpr files.keys_nodup)
          unfold listSavedLogs
          simp only [hall]
          refine ⟨List.sortedLE_mergeSort.sortedLT_of_nodup hnodup, fun f => ?_⟩
          rw [(List.mergeSort_perm _ _).mem_iff]
          exact hmem f

theorem Kept.faithful (h : Kept C s) : Faithful C s where
  sorted _ hscan := (h.listing hscan).1
  listed _ hscan := (h.listing hscan).2
  decrypted _ _ hf := h.decrypted hf
  kept := h.grown

/-! ## While the clock does not go back -/

theorem strftime_le {t u : LocalTime} (h : t.fields ≤ u.fields) :
    strftime entryFormat t ≤ strftime entryFormat u :=
  (stamp_strictMonoOn (by decide) entryFormat).monotoneOn t.fits_entry u.fits_entry h

theorem timeOf_eq {label : Option Label} {now t : LocalTime} (h : timeOf label now = some t) :
    labelOr label now = strftime nameFormat now ∧ t = now := by
  unfold timeOf at h
  split at h
  · rename_i hlabel
    cases h
    exact ⟨hlabel, rfl⟩
  · cases h

theorem Past.le {call : Call C} {t : LocalTime} (h : Past s.clock t) (hcall : InOrder C s call) :
    t.fields ≤ (call.now C).fields := by
  obtain ⟨c, hc, hle⟩ := h
  exact hle.trans (hcall c hc)

theorem Past.step {call : Call C} {t : LocalTime} (h : Past s.clock t)
    (hcall : InOrder C s call) : Past (some (call.now C)) t :=
  ⟨_, rfl, h.le hcall⟩

/-- A buffer whose entries are in order, and none later than the clock. -/
structure Ordered (clock : Option LocalTime) (buffer : List Entry) : Prop where
  sorted : (buffer.map Entry.ts).SortedLE
  past : ∀ e ∈ buffer, ∃ t, e.ts = strftime entryFormat t ∧ Past clock t

theorem Ordered.step {call : Call C} {buffer : List Entry} (h : Ordered s.clock buffer)
    (hcall : InOrder C s call) : Ordered (some (call.now C)) buffer := by
  refine ⟨h.sorted, fun e he => ?_⟩
  obtain ⟨t, hts, hpast⟩ := h.past e he
  exact ⟨t, hts, hpast.step hcall⟩

theorem Ordered.log {now : LocalTime} {buffer : List Entry} (h : Ordered (some now) buffer)
    (message : List Char) : Ordered (some now) (log now message buffer) := by
  unfold CryptoLog.log
  constructor
  · rw [List.map_append, List.sortedLE_iff_pairwise, List.pairwise_append]
    refine ⟨List.sortedLE_iff_pairwise.mp h.sorted, List.pairwise_singleton _ _, ?_⟩
    rintro a ha b hb
    obtain ⟨e, he, rfl⟩ := List.mem_map.mp ha
    obtain rfl := List.mem_singleton.mp hb
    obtain ⟨t, hts, c, hc, hle⟩ := h.past e he
    cases hc
    rw [hts]
    exact strftime_le hle
  · intro e he
    rcases List.mem_append.mp he with he | he
    · exact h.past e he
    · obtain rfl := List.mem_singleton.mp he
      exact ⟨now, rfl, now, rfl, le_rfl⟩

/-- What the times say about the files and the buffers. -/
structure Timed (s : Logs) : Prop where
  ordered : ∀ i, Ordered s.clock (s.loggers i)
  named : ∀ f d t, s.saved f = some d → d.time = some t →
    f = fileName (strftime nameFormat t) ∧ Past s.clock t
  grown : ∀ f g d e t u, s.saved f = some d → s.saved g = some e → d.logger = e.logger →
    d.time = some t → e.time = some u → t.fields ≤ u.fields → d.entries <+: e.entries

theorem timed_init : Timed (machine P C).init where
  ordered _ := ⟨List.Pairwise.nil.sortedLE, fun _ he => absurd he List.not_mem_nil⟩
  named _ _ _ h := by cases h
  grown _ _ _ _ _ _ h := by cases h

theorem Timed.log (h : Timed s) {i : Nat} {now : LocalTime} {message : List Char}
    (hcall : InOrder C s (.log i now message)) :
    Timed ((Call.log i now message).apply P C s) := by
  refine ⟨fun j => ?_, fun f d t hf ht => ?_, h.grown⟩
  · have hordered : Ordered (some now) (s.loggers j) := (h.ordered j).step hcall
    show Ordered (some now) (Function.update s.loggers i _ j)
    by_cases hj : j = i
    · subst hj
      rw [Function.update_self]
      exact hordered.log message
    · rw [Function.update_of_ne hj]
      exact hordered
  · obtain ⟨hname, hpast⟩ := h.named f d t hf ht
    exact ⟨hname, hpast.step hcall⟩

theorem Timed.save (h : Timed s) (hkept : Kept C s) {i : Nat} {pw : List Char}
    {label : Option Label} {now : LocalTime} {salt : Salt} {noise : C.Noise}
    (hcall : InOrder C s (.save i pw label now salt noise)) :
    Timed ((Call.save i pw label now salt noise).apply P C s) := by
  refine ⟨fun j => (h.ordered j).step hcall, fun f d t hf ht => ?_,
    fun f g d e t u hf hg hlogger ht hu hle => ?_⟩
  · rw [saved_save] at hf
    split at hf
    · rename_i hnew
      cases hf
      obtain ⟨hlabel, rfl⟩ := timeOf_eq ht
      rw [hnew.2, hlabel]
      exact ⟨rfl, t, rfl, le_rfl⟩
    · obtain ⟨hname, hpast⟩ := h.named f d t hf ht
      exact ⟨hname, hpast.step hcall⟩
  · rw [saved_save] at hf hg
    split at hf
    · rename_i hnew
      cases hf
      split at hg
      · cases hg
        exact List.prefix_rfl
      · -- a file that is not earlier has the same name, and is no other
        rename_i hother
        obtain ⟨hlabel, rfl⟩ := timeOf_eq ht
        obtain ⟨hname, hpast⟩ := h.named g e u hg hu
        have hfields : u.fields = t.fields := le_antisymm (hpast.le hcall) hle
        have hsame : g = fileName (labelOr label t) := by
          rw [hname, hlabel, strftime, strftime, hfields]
        exact absurd ⟨hnew.1, hsame⟩ hother
    · split at hg
      · cases hg
        -- the new file has the whole buffer, of which the older one is the beginning
        have hgrown : d.entries <+: s.loggers d.logger := hkept.grown f d hf
        rw [hlogger] at hgrown
        exact hgrown
      · exact h.grown f g d e t u hf hg hlogger ht hu hle

theorem Timed.step (h : Timed s) (hkept : Kept C s) {call : Call C} (hcall : InOrder C s call) :
    Timed (call.apply P C s) := by
  cases call with
  | log i now message => exact h.log hcall
  | save i pw label now salt noise => exact h.save hkept hcall

theorem Timed.chronological (h : Timed s) : Chronological s where
  entries i := (h.ordered i).sorted
  files f g d e hf hg hlogger ht hu hle := by
    obtain ⟨t, ht⟩ := Option.isSome_iff_exists.mp ht
    obtain ⟨u, hu⟩ := Option.isSome_iff_exists.mp hu
    refine h.grown f g d e t u hf hg hlogger ht hu (not_lt.mp fun hlt => ?_)
    rw [(h.named f d t hf ht).1, (h.named g e u hg hu).1] at hle
    exact absurd (fileName_lt hlt) (not_lt.mpr hle)

/-! ## Over a run -/

/-- **The logs are kept**: what has been saved is listed and decrypted; and while the clock does
not go back, each file in the listing begins with what its logger has saved before. -/
theorem logs_faithful {calls : List (Call C)} (h : (machine P C).run calls = some s) :
    Faithful C s ∧ ((machine P C).Each (InOrder C) calls → Chronological s) := by
  constructor
  · have hkept : Kept C s := by
      refine Machine.invariant kept_init ?_ h
      rintro s call s' hs hs'
      cases hs'
      exact hs.step call
    exact hkept.faithful
  · intro heach
    have hinv : (machine P C).Always (fun s => Kept C s ∧ Timed s) calls := by
      refine Machine.always_of_each ⟨kept_init, timed_init⟩ ?_ heach
      rintro s call s' ⟨hkept, htimed⟩ hcall hs'
      cases hs'
      exact ⟨hkept.step call, htimed.step hkept hcall⟩
    exact (hinv calls s List.prefix_rfl h).2.chronological

/-! ## A session -/

def noon : LocalTime := ⟨2026, 3, 1, 12, 0, 0, by decide⟩

def told : List Entry := [⟨"2026-03-01 12:00:00".toList, "Tor started".toList⟩]

/-- What `json.dumps` makes of `told`. -/
def toldJson : Bytes :=
  "[\x7b\"ts\": \"2026-03-01 12:00:00\", \"msg\": \"Tor started\"\x7d]".toList.map
    fun c => UInt8.ofNat c.toNat

def Entry.numbers (e : Entry) : List Nat × List Nat := (e.ts.map Char.toNat, e.msg.map Char.toNat)

def Entry.ofNumbers (n : List Nat × List Nat) : Entry :=
  ⟨n.1.map Char.ofNat, n.2.map Char.ofNat⟩

theorem Entry.ofNumbers_numbers (e : Entry) : ofNumbers e.numbers = e := by
  unfold ofNumbers numbers
  simp only [List.map_map, Function.comp_def, Char.ofNat_toNat, List.map_id']

/-- Other logs are stored as the number of their bytes. -/
def sessionCodec : Codec (List Entry) where
  Key := Bytes × List Char
  Noise := Unit
  deriveKey passphrase salt := (salt, passphrase)
  encrypt _ _ text := text
  decrypt _ token := some token
  dumps es :=
    if es = told then toldJson
    else List.replicate (Encodable.encode (es.map Entry.numbers)) 0
  loads text :=
    if text = toldJson then some told
    else (Encodable.decode text.length).map (List.map Entry.ofNumbers)
  decrypt_encrypt _ _ _ := rfl
  loads_dumps es := by
    by_cases htold : es = told
    · rw [if_pos htold, if_pos rfl, htold]
    · have hne : List.replicate (Encodable.encode (es.map Entry.numbers)) 0 ≠ toldJson := by
        intro heq
        have hmem : (91 : UInt8) ∈ toldJson := by decide
        rw [← heq] at hmem
        cases (List.eq_of_mem_replicate hmem)
      rw [if_neg htold, if_neg hne, List.length_replicate, Encodable.encodek, Option.map_some,
        List.map_map]
      simp only [Function.comp_def, Entry.ofNumbers_numbers, List.map_id']

def logDir : Place := ⟨"/root/.privacyguard_logs".toList, fun _ => true⟩

def session : List (Call sessionCodec) :=
  [.log 0 noon "Tor started".toList,
    .save 0 "secret".toList none noon ⟨List.replicate 16 7, rfl⟩ ()]

def afterSession : Logs :=
  session.foldl (Call.apply logDir sessionCodec) (machine logDir sessionCodec).init

theorem session_inOrder :
    (machine logDir sessionCodec).Each (InOrder sessionCodec) session := by
  rintro pre call s ⟨post, hpost⟩ hs t ht
  cases pre with
  | nil =>
      obtain rfl := Option.some.inj hs
      cases ht
  | cons first pre =>
      cases pre with
      | nil =>
          cases hpost
          obtain rfl := Option.some.inj hs
          cases ht
          exact le_rfl
      | cons second pre =>
          have hlen := congrArg List.length hpost
          simp [session] at hlen

theorem logs_faithful_session :
    Faithful sessionCodec afterSession ∧ Chronological afterSession := by
  have hrun : (machine logDir sessionCodec).run session = some afterSession := rfl
  have hlogs := logs_faithful hrun
  exact ⟨hlogs.1, hlogs.2 session_inOrder⟩

end PrivacyGuard.CryptoLog
