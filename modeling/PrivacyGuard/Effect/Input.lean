import PrivacyGuard.Effect.Prog

set_option autoImplicit false

/-! # Programs that read lines

A `Dialog` is a program over a signature to which operations have been added: to read a line, to
read lines as long as they are of some kind, and to give up with an exception. `serve turn ls` is
the loop that reads a line and does what `turn` says for it, until this answers `false`, when the
lines it will read are `ls`: it is a program over the signature itself. -/

namespace Effect

inductive InputOp (S : Sig) (L E : Type)
  | input
  /-- The first line for which `more` is false is read, too, and dropped. -/
  | inputWhile (more : L → Bool)
  | raise (e : E)
  | op (o : S.Op)

abbrev Sig.withInput (S : Sig) (L E : Type) : Sig where
  Op := InputOp S L E
  Ret
    | .input => L
    | .inputWhile _ => List L
    | .raise _ => Empty
    | .op o => S.Ret o

abbrev Dialog (S : Sig) (L E α : Type) : Type := Prog (S.withInput L E) α

/-- Why the loop ends. -/
inductive Ending (E : Type)
  | stopped
  | eof
  | raised (e : E)
  deriving DecidableEq

variable {S : Sig} {L E α : Type}

namespace Dialog

def input : Dialog S L E L := Prog.call (S := S.withInput L E) .input .ret

def inputWhile (more : L → Bool) : Dialog S L E (List L) :=
  Prog.call (S := S.withInput L E) (.inputWhile more) .ret

def raise (e : E) : Dialog S L E α := Prog.call (S := S.withInput L E) (.raise e) nofun

def op (o : S.Op) : Dialog S L E (S.Ret o) := Prog.call (S := S.withInput L E) (.op o) .ret

/-- A dialog that goes on with the next line. -/
inductive Waiting (S : Sig) (L E : Type)
  | line (k : L → Dialog S L E Bool)
  | lines (more : L → Bool) (before : List L) (k : List L → Dialog S L E Bool)

/-- The dialog up to the next line it reads, and then `next`. -/
def untilInput (turn : L → Dialog S L E Bool) (ls : List L)
    (next : Waiting S L E → Prog S (Ending E × List L)) :
    Dialog S L E Bool → Prog S (Ending E × List L)
  | .ret true => next (.line turn)
  | .ret false => .ret (.stopped, ls)
  | .call .input k => next (.line k)
  | .call (.inputWhile more) k => next (.lines more [] k)
  | .call (.raise e) _ => .ret (.raised e, ls)
  | .call (.op o) k => .call o fun r => untilInput turn ls next (k r)

def resume (turn : L → Dialog S L E Bool) :
    List L → Waiting S L E → Prog S (Ending E × List L)
  | [], _ => .ret (.eof, [])
  | l :: ls, .line k => untilInput turn ls (resume turn ls) (k l)
  | l :: ls, .lines more before k =>
      if more l then resume turn ls (.lines more (before ++ [l]) k)
      else untilInput turn ls (resume turn ls) (k before)

/-- The loop in the middle of a dialog. -/
def feed (turn : L → Dialog S L E Bool) (ls : List L) (d : Dialog S L E Bool) :
    Prog S (Ending E × List L) :=
  untilInput turn ls (resume turn ls) d

/-- The loop. It answers with the lines it has not read. -/
def serve (turn : L → Dialog S L E Bool) (ls : List L) : Prog S (Ending E × List L) :=
  resume turn ls (.line turn)

section

variable {turn : L → Dialog S L E Bool} {l : L} {ls : List L}

@[simp] theorem serve_cons : serve turn (l :: ls) = feed turn ls (turn l) := rfl

@[simp] theorem feed_true : feed turn ls (pure true) = serve turn ls := rfl

@[simp] theorem feed_false : feed turn ls (pure false) = .ret (.stopped, ls) := rfl

@[simp] theorem feed_input (k : L → Dialog S L E Bool) :
    feed turn (l :: ls) (input >>= k) = feed turn ls (k l) := rfl

@[simp] theorem feed_op (o : S.Op) (k : S.Ret o → Dialog S L E Bool) :
    feed turn ls (op o >>= k) = .call o fun r => feed turn ls (k r) := rfl

theorem resume_lines {more : L → Bool} {xs : List L} (hxs : ∀ x ∈ xs, more x = true)
    (hl : more l = false) (before : List L) (k : List L → Dialog S L E Bool) :
    resume turn (xs ++ l :: ls) (.lines more before k) = feed turn ls (k (before ++ xs)) := by
  induction xs generalizing before with
  | nil =>
      rw [List.nil_append, List.append_nil, resume, hl]
      rfl
  | cons x xs ih =>
      have hx : more x = true := hxs x List.mem_cons_self
      rw [List.cons_append, resume, if_pos hx, ih fun y hy => hxs y (List.mem_cons_of_mem x hy),
        List.append_assoc, List.singleton_append]

theorem feed_inputWhile {more : L → Bool} {xs : List L} (hxs : ∀ x ∈ xs, more x = true)
    (hl : more l = false) (k : List L → Dialog S L E Bool) :
    feed turn (xs ++ l :: ls) (inputWhile more >>= k) = feed turn ls (k xs) :=
  resume_lines hxs hl [] k

end

/-! ## What the loop can do -/

section

variable {turn : L → Dialog S L E Bool} {P : S.Op → Prop} {C : L → Prop}

end

end Dialog

end Effect
