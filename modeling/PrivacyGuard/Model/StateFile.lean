import PrivacyGuard.Effect.Mutex
import PrivacyGuard.Model.Dict

set_option autoImplicit false

/-! # The state file

`state.py` step by step. The rest of the model takes `load` and `update` as single steps
(`Op.load` and `Op.update` of `Model/System.lean`); here they acquire the lock of their
process, read the state file, write the temporary file piece by piece and rename it.

A path names a file of the disk. `os.replace` makes the state file's path name what the path
of the temporary file named, so that a program that has the temporary file open goes on
writing into the same file under its new name. -/

namespace PrivacyGuard.StateFile

open Effect

/-! ## The disk -/

/-- The files, by their numbers; the files the two paths name; and the locks, one for each
process. -/
structure Disk (T π : Type) where
  content : Nat → List T
  state : Option Nat
  tmp : Option Nat
  next : Nat
  locked : π → Bool
  state_lt : ∀ n, state = some n → n < next
  tmp_lt : ∀ n, tmp = some n → n < next
  apart : ∀ n, state = some n → tmp ≠ some n

namespace Disk

variable {T π : Type}

/-- `STATE_FILE.read_text()`, if the file exists. -/
def text (s : Disk T π) : Option (List T) := s.state.map s.content

/-- The file `open(tmp_path, "w")` opens: the one there is, or a new one. -/
def tmpFile (s : Disk T π) : Nat := s.tmp.getD s.next

/-- `open(tmp_path, "w")` empties the file. -/
def openTmp (s : Disk T π) : Disk T π where
  content := Function.update s.content s.tmpFile []
  state := s.state
  tmp := some s.tmpFile
  next := max s.next (s.tmpFile + 1)
  locked := s.locked
  state_lt n hn := Nat.lt_of_lt_of_le (s.state_lt n hn) (Nat.le_max_left _ _)
  tmp_lt n hn := by
    cases hn
    exact Nat.lt_of_lt_of_le (Nat.lt_succ_self _) (Nat.le_max_right _ _)
  apart n hn hn' := by
    cases htmp : s.tmp with
    | some m =>
        rw [tmpFile, htmp] at hn'
        exact s.apart n hn (htmp.trans hn')
    | none =>
        rw [tmpFile, htmp] at hn'
        have hlt := s.state_lt n hn
        cases hn'
        exact Nat.lt_irrefl _ hlt

/-- What `piece`, written at `offset`, makes of a file that holds `old`. -/
def overwrite (nul : T) (old : List T) (offset : Nat) (piece : List T) : List T :=
  (old ++ List.replicate (offset - old.length) nul).take offset ++ piece ++
    old.drop (offset + piece.length)

def setContent (s : Disk T π) (fd : Nat) (text : List T) : Disk T π :=
  { s with content := Function.update s.content fd text }

def write (s : Disk T π) (nul : T) (fd offset : Nat) (piece : List T) : Disk T π :=
  s.setContent fd (overwrite nul (s.content fd) offset piece)

/-- `os.replace(tmp_path, STATE_FILE)`; it changes nothing if there is no temporary file. -/
def replace (s : Disk T π) : Disk T π where
  content := s.content
  state := s.tmp.or s.state
  tmp := none
  next := s.next
  locked := s.locked
  state_lt n hn := by
    cases htmp : s.tmp with
    | some m =>
        rw [htmp] at hn
        exact s.tmp_lt n (htmp.trans hn)
    | none =>
        rw [htmp] at hn
        exact s.state_lt n hn
  tmp_lt n hn := nomatch hn
  apart n _ hn := nomatch hn

theorem setContent_self (s : Disk T π) (fd : Nat) : s.setContent fd (s.content fd) = s := by
  rw [setContent, Function.update_eq_self]

theorem setContent_twice (s : Disk T π) (fd : Nat) (l l' : List T) :
    (s.setContent fd l).setContent fd l' = s.setContent fd l' := by
  simp [setContent]

@[simp] theorem setContent_content (s : Disk T π) (fd : Nat) (l : List T) :
    (s.setContent fd l).content fd = l := Function.update_self _ _ _

theorem overwrite_at_end (nul : T) (old piece : List T) :
    overwrite nul old old.length piece = old ++ piece := by
  simp [overwrite]

/-- Writing at the end of a file. -/
theorem write_at_end {s : Disk T π} {fd : Nat} {old : List T} (h : s.content fd = old) (nul : T)
    (piece : List T) : s.write nul fd old.length piece = s.setContent fd (old ++ piece) := by
  rw [write, h, overwrite_at_end]

/-- Writing another file than the state file. -/
theorem setContent_text {s : Disk T π} {fd : Nat} (h : s.state ≠ some fd) (l : List T) :
    (s.setContent fd l).text = s.text := by
  refine Option.map_congr ?_
  intro n hn
  have hne : n ≠ fd := by
    intro heq
    exact h (heq ▸ hn)
  exact Function.update_of_ne hne _ _

theorem state_ne_tmpFile (s : Disk T π) : s.state ≠ some s.tmpFile := by
  intro hn
  cases htmp : s.tmp with
  | some m =>
      have hm := s.apart s.tmpFile hn
      rw [tmpFile, htmp] at hm
      exact hm rfl
  | none =>
      have hlt := s.state_lt s.tmpFile hn
      rw [tmpFile, htmp] at hlt
      exact Nat.lt_irrefl _ hlt

theorem openTmp_text (s : Disk T π) : s.openTmp.text = s.text :=
  s.setContent_text s.state_ne_tmpFile []

theorem write_text {s : Disk T π} {fd : Nat} (h : s.tmp = some fd) (nul : T) (offset : Nat)
    (piece : List T) : (s.write nul fd offset piece).text = s.text :=
  setContent_text (fun hn => s.apart fd hn h) _

theorem replace_text {s : Disk T π} {fd : Nat} (h : s.tmp = some fd) :
    s.replace.text = some (s.content fd) := by
  simp [text, replace, h]

variable [DecidableEq π]

def setLock (s : Disk T π) (p : π) (b : Bool) : Disk T π :=
  { s with locked := Function.update s.locked p b }

end Disk

/-! ## Operations -/

inductive Op (T π : Type)
  /-- Of the lock of a process. -/
  | acquire (p : π)
  | release (p : π)
  /-- `STATE_FILE.exists()` and `STATE_FILE.read_text()` -/
  | readState
  | strftime
  | openTmp
  /-- The pieces in which a text will be written. -/
  | pieces (text : List T)
  | write (fd offset : Nat) (piece : List T)
  | replace

def Op.Ret {T π : Type} : Op T π → Type
  | .acquire _ | .release _ | .write _ _ _ => Unit
  | .readState => Option (List T)
  | .strftime => String
  | .openTmp => Nat
  | .pieces _ => List (List T)
  | .replace => Bool

abbrev sig (T π : Type) : Sig := ⟨Op T π, Op.Ret⟩

abbrev Proc (T π α : Type) : Type := Prog (sig T π) α

/-- The time, or the lengths of the pieces of a text, but for the last one. -/
structure Choice where
  time : String := ""
  lengths : List Nat := []

/-- A text in pieces. -/
def cut {T : Type} : List Nat → List T → List (List T)
  | [], text => [text]
  | n :: ns, text => text.take n :: cut ns (text.drop n)

theorem flatten_cut {T : Type} : ∀ (ns : List Nat) (text : List T), (cut ns text).flatten = text
  | [], text => by simp [cut]
  | n :: ns, text => by rw [cut, List.flatten_cons, flatten_cut, List.take_append_drop]

section

variable {T π : Type} [DecidableEq π]

def exec (nul : T) : (o : Op T π) → Choice → Disk T π → o.Ret × Disk T π
  | .acquire p, _, s => ((), s.setLock p true)
  | .release p, _, s => ((), s.setLock p false)
  | .readState, _, s => (s.text, s)
  | .strftime, x, s => (x.time, s)
  | .openTmp, _, s => (s.tmpFile, s.openTmp)
  | .pieces text, x, s => (cut x.lengths text, s)
  | .write fd offset piece, _, s => ((), s.write nul fd offset piece)
  | .replace, _, s => (s.tmp.isSome, s.replace)

/-- A lock is acquired when it is free. -/
def admits : Op T π → Choice → Disk T π → Prop
  | .acquire p, _, s => s.locked p = false
  | _, _, _ => True

def disk (J : Json T) : Handler (sig T π) (Disk T π) Choice := ⟨exec J.nul, admits⟩

instance (J : Json T) (o : Op T π) (x : Choice) (s : Disk T π) :
    Decidable ((disk J).admits o x s) := by
  cases o with
  | acquire p => exact inferInstanceAs (Decidable (s.locked p = false))
  | _ => exact inferInstanceAs (Decidable True)

end

/-! ## The functions of `state.py` -/

section

variable {T π : Type}

def acquire (p : π) : Proc T π Unit := Prog.op (S := sig T π) (.acquire p)
def release (p : π) : Proc T π Unit := Prog.op (S := sig T π) (.release p)
def readState : Proc T π (Option (List T)) := Prog.op (S := sig T π) .readState
def strftime : Proc T π String := Prog.op (S := sig T π) .strftime
def openTmp : Proc T π Nat := Prog.op (S := sig T π) .openTmp
def piecesOf (text : List T) : Proc T π (List (List T)) :=
  Prog.op (S := sig T π) (.pieces text)
def write (fd offset : Nat) (piece : List T) : Proc T π Unit :=
  Prog.op (S := sig T π) (.write fd offset piece)
def osReplace : Proc T π Bool := Prog.op (S := sig T π) .replace

variable (J : Json T)

def loadUnlocked : Proc T π Dict := do
  let text ← readState
  return J.stateOf text

/-- The pieces of a text, from `offset` on. -/
def writePieces (fd : Nat) : Nat → List (List T) → Proc T π Unit
  | _, [] => pure ()
  | offset, piece :: pieces => do
      write fd offset piece
      writePieces fd (offset + piece.length) pieces

/-- `tmp_path.write_text(text)` -/
def writeText (text : List T) : Proc T π Unit := do
  let fd ← openTmp
  let pieces ← piecesOf text
  writePieces fd 0 pieces

/-- Answers with what has been written, or `none` if `os.replace` raises an exception. -/
def saveUnlocked (state : Dict) : Proc T π (Option Dict) := do
  let now ← strftime
  let state := state.update [("last_updated", .string now)]
  writeText (J.dumps state)
  let ok ← osReplace
  return if ok then some state else none

/-- `with _LOCK:`, in the process `p`. -/
def withLock {α : Type} (p : π) (body : Proc T π α) : Proc T π α := do
  acquire p
  let a ← body
  release p
  return a

def load (p : π) : Proc T π (Option Dict) :=
  withLock p (some <$> loadUnlocked J)

def save (p : π) (state : Dict) : Proc T π (Option Dict) :=
  withLock p (saveUnlocked J state)

def update (p : π) (kwargs : List (String × Value)) : Proc T π (Option Dict) :=
  withLock p do
    let state ← loadUnlocked J
    saveUnlocked J (state.update kwargs)

/-- A call of one of the three. -/
inductive Call
  | load
  | save (state : Dict)
  | update (kwargs : List (String × Value))

def Call.body (p : π) : Call → Proc T π (Option Dict)
  | .load => StateFile.load J p
  | .save state => StateFile.save J p state
  | .update kwargs => StateFile.update J p kwargs

/-- What a call makes of the dictionary in the file, but for the time of the update. -/
def Call.apply : Call → Dict → Dict
  | .load, d => d
  | .save state, _ => state
  | .update kwargs, d => (defaultState.merge d).update kwargs

variable {J}

/-- The state file holds the dictionary `d`. -/
def Json.Holds (J : Json T) (d : Dict) (s : Disk T π) : Prop :=
  ∃ text, s.text = some text ∧ J.loads text = some d

theorem Json.Holds.stateOf {d : Dict} {s : Disk T π} (h : J.Holds d s) :
    J.stateOf s.text = defaultState.merge d := by
  obtain ⟨text, htext, hd⟩ := h
  rw [Json.stateOf, htext, Option.bind_some, hd]

theorem Json.Holds.unique {d e : Dict} {s : Disk T π} (h : J.Holds d s) (h' : J.Holds e s) :
    d = e := by
  obtain ⟨text, htext, hd⟩ := h
  obtain ⟨text', htext', he⟩ := h'
  rw [htext] at htext'
  cases htext'
  exact Option.some.inj (hd.symm.trans he)

theorem Json.Holds.of_dumps {d : Dict} {s : Disk T π} (h : s.text = some (J.dumps d)) :
    J.Holds d s :=
  ⟨_, h, J.loads_dumps d⟩

variable (J)

/-- The operations between acquiring and releasing a lock. -/
def Op.Plain : Op T π → Prop
  | .acquire _ | .release _ => False
  | _ => True

theorem writePieces_plain (fd : Nat) : ∀ (offset : Nat) (pieces : List (List T)),
    (writePieces fd offset pieces : Proc T π Unit).all Op.Plain
  | _, [] => Prog.all_pure ()
  | _, _ :: pieces => ⟨trivial, fun _ => writePieces_plain fd _ pieces⟩

theorem plain_op {o : Op T π} (h : o.Plain) :
    (Prog.op (S := sig T π) o).all Op.Plain :=
  ⟨h, fun _ => trivial⟩

theorem saveUnlocked_plain (state : Dict) :
    (saveUnlocked J state : Proc T π (Option Dict)).all Op.Plain := by
  rw [saveUnlocked]
  refine Prog.all_bind (plain_op trivial) fun now => ?_
  refine Prog.all_bind ?_ fun _ => Prog.all_bind (plain_op trivial) fun ok => trivial
  rw [writeText]
  exact Prog.all_bind (plain_op trivial) fun fd =>
    Prog.all_bind (plain_op trivial) fun pieces => writePieces_plain fd 0 pieces

end

/-! ## One call at a time -/

section

variable {T π : Type} [DecidableEq π] {J : Json T} {p : π}

/-- The lock of the process `p`. -/
def lock (T : Type) (p : π) : Lock (sig T π) (Disk T π) where
  acquire o := match o with | .acquire q => q = p | _ => false
  release o := match o with | .release q => q = p | _ => false
  held s := s.locked p

theorem guards_lock : (disk J).Guards (lock T p) where
  apart o h := by cases o <;> first | rfl | cases h
  free o x s h hx := by
    cases o with
    | acquire q =>
        obtain rfl : q = p := of_decide_eq_true h
        exact hx
    | _ => cases h
  acquire o x s h := by
    cases o with
    | acquire q =>
        obtain rfl : q = p := of_decide_eq_true h
        exact Function.update_self _ _ _
    | _ => cases h
  release o x s h := by
    cases o with
    | release q =>
        obtain rfl : q = p := of_decide_eq_true h
        exact Function.update_self _ _ _
    | _ => cases h
  other o x s h h' := by
    cases o with
    | acquire q =>
        exact Function.update_of_ne (Ne.symm (of_decide_eq_false h)) _ _
    | release q =>
        exact Function.update_of_ne (Ne.symm (of_decide_eq_false h')) _ _
    | _ => rfl

theorem section_withLock {α : Type} {body : Proc T π α} (h : body.all Op.Plain) :
    (withLock p body).Section (lock T p) := by
  show Prog.Section _ (Prog.call (S := sig T π) (.acquire p) fun _ =>
    body >>= fun a => release p >>= fun _ => pure a)
  refine .acquire (decide_eq_true rfl) fun _ => Prog.inside_bind (Prog.all_mono h ?_) fun a => ?_
  · intro o ho
    cases o <;> first | exact ⟨rfl, rfl⟩ | exact ho.elim
  · exact .release (decide_eq_true rfl) fun _ => ⟨a, rfl⟩

/-- Every call acquires the lock first and releases it last. -/
theorem section_body (x : Call) : (x.body J p).Section (lock T p) := by
  cases x with
  | load => exact section_withLock ⟨trivial, fun _ => trivial⟩
  | save state => exact section_withLock (saveUnlocked_plain J state)
  | update kwargs => exact section_withLock ⟨trivial, fun _ => saveUnlocked_plain J _⟩

variable {s : Disk T π}

theorem wp_acquire {Q : Unit → Disk T π → Prop} (h : Q () (s.setLock p true)) :
    (acquire p).wp (disk J) Q s := fun _ _ => h

theorem wp_release {Q : Unit → Disk T π → Prop} (h : Q () (s.setLock p false)) :
    (release p).wp (disk J) Q s := fun _ _ => h

theorem wp_readState {Q : Option (List T) → Disk T π → Prop} (h : Q s.text s) :
    readState.wp (disk J) Q s := fun _ _ => h

theorem wp_strftime {Q : String → Disk T π → Prop} (h : ∀ now, Q now s) :
    strftime.wp (disk J) Q s := fun x _ => h x.time

theorem wp_openTmp {Q : Nat → Disk T π → Prop} (h : Q s.tmpFile s.openTmp) :
    openTmp.wp (disk J) Q s := fun _ _ => h

theorem wp_osReplace {Q : Bool → Disk T π → Prop} (h : Q s.tmp.isSome s.replace) :
    osReplace.wp (disk J) Q s := fun _ _ => h

theorem wp_write {fd : Nat} {old piece : List T} {Q : Unit → Disk T π → Prop}
    (hold : s.content fd = old) (h : Q () (s.setContent fd (old ++ piece))) :
    (write fd old.length piece).wp (disk J) Q s := by
  intro _ _
  rw [← s.write_at_end hold] at h
  exact h

theorem wp_piecesOf {text : List T} {Q : List (List T) → Disk T π → Prop}
    (h : ∀ pieces, pieces.flatten = text → Q pieces s) : (piecesOf text).wp (disk J) Q s :=
  fun x _ => h _ (flatten_cut x.lengths text)

theorem writePieces_wp {fd : Nat} {Q : Unit → Disk T π → Prop} :
    ∀ (pieces : List (List T)) (old : List T) (s : Disk T π), s.content fd = old →
      Q () (s.setContent fd (old ++ pieces.flatten)) →
      (writePieces fd old.length pieces).wp (disk J) Q s
  | [], old, s, hold, h => by
      rw [List.flatten_nil, List.append_nil, ← hold, s.setContent_self] at h
      exact h
  | piece :: pieces, old, s, hold, h => by
      rw [writePieces, Prog.wp_bind]
      refine wp_write hold ?_
      rw [← List.length_append]
      refine writePieces_wp pieces (old ++ piece) _ (s.setContent_content fd _) ?_
      rw [s.setContent_twice, List.append_assoc]
      exact h

/-- What `tmp_path.write_text(text)` leaves. -/
theorem writeText_wp {text : List T} {Q : Unit → Disk T π → Prop}
    (h : Q () (s.openTmp.setContent s.tmpFile text)) : (writeText text).wp (disk J) Q s := by
  rw [writeText, Prog.wp_bind]
  refine wp_openTmp ?_
  rw [Prog.wp_bind]
  refine wp_piecesOf fun pieces hpieces => ?_
  refine writePieces_wp pieces [] _ (Function.update_self _ _ _) ?_
  rw [List.nil_append, hpieces]
  exact h

theorem loadUnlocked_wp {Q : Dict → Disk T π → Prop} (h : Q (J.stateOf s.text) s) :
    (loadUnlocked J).wp (disk J) Q s := by
  rw [loadUnlocked, Prog.wp_bind]
  exact wp_readState h

/-- A save that is not disturbed puts its own text in place. -/
theorem saveUnlocked_wp {state : Dict} {Q : Option Dict → Disk T π → Prop}
    (h : ∀ now s', s'.text = some (J.dumps (state.update [("last_updated", .string now)])) →
      s'.locked = s.locked →
      Q (some (state.update [("last_updated", .string now)])) s') :
    (saveUnlocked J state).wp (disk J) Q s := by
  rw [saveUnlocked, Prog.wp_bind]
  refine wp_strftime fun now => ?_
  rw [Prog.wp_bind]
  refine writeText_wp ?_
  rw [Prog.wp_bind]
  refine wp_osReplace ?_
  refine h now _ ?_ rfl
  exact congrArg some (s.openTmp.setContent_content s.tmpFile _)

/-- The lock is free again afterwards. -/
theorem withLock_wp {α : Type} {body : Proc T π α} {Q : α → Disk T π → Prop}
    (h : ∀ s', s'.text = s.text →
      body.wp (disk J) (fun a s' => Q a (s'.setLock p false)) s') :
    (withLock p body).wp (disk J) Q s := by
  rw [withLock, Prog.wp_bind]
  refine wp_acquire ?_
  rw [Prog.wp_bind]
  refine Prog.wp_mono (h (s.setLock p true) rfl) fun a s' hs' => ?_
  rw [Prog.wp_bind]
  exact wp_release hs'

end

end PrivacyGuard.StateFile
