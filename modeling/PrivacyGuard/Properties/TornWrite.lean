import PrivacyGuard.Effect.Protocol
import PrivacyGuard.Properties.SavedState

set_option autoImplicit false

/-! # Saves of several processes

The lock orders the saves of one process; the temporary file is one for all processes. If no
save opens it while a save of another process is between its `open` and its `os.replace`, the
state file is whole at every moment, and no `os.replace` misses the temporary file. Otherwise
two saves write into the same file, and the second of them to rename it finds none. -/

namespace PrivacyGuard.StateFile

open Effect

/-! ## The stages of a save -/

/-- Where a thread is: outside of its lock, holding it, or between `open` and `os.replace`,
with the text it writes and the part of it that it has written. -/
inductive Stage (T : Type)
  | outside
  | holding
  | opened (fd : Nat)
  | writing (fd : Nat) (text done : List T)

def Stage.saves {T : Type} : Stage T → Bool
  | .opened _ | .writing _ _ _ => true
  | _ => false

/-- The stage after an operation. -/
def Stage.next {T π : Type} : Stage T → (o : Op T π) → o.Ret → Stage T
  | .outside, .acquire _, _ => .holding
  | .holding, .release _, _ => .outside
  | _, .openTmp, fd => .opened fd
  | .opened fd, .pieces text, _ => .writing fd text []
  | .writing fd text done, .write _ _ piece, _ => .writing fd text (done ++ piece)
  | _, .replace, _ => .holding
  | t, _, _ => t

/-- What a thread of the process `p` does at each stage. -/
def protocol {T π : Type} (J : Json T) (p : π) : Protocol (sig T π) (Stage T) where
  allowed
    | .outside, .acquire q => q = p
    | .holding, .release q => q = p
    | .holding, .readState | .holding, .strftime | .holding, .openTmp => True
    | .opened _, .pieces text => ∃ d, text = J.dumps d
    | .writing fd _ done, .write fd' offset _ => fd' = fd ∧ offset = done.length
    | .writing _ text done, .replace => done = text
    | _, _ => False
  answers
    | .pieces text, pieces => pieces.flatten = text
    | _, _ => True
  next := Stage.next

section

variable {T π : Type} {J : Json T} {p : π}

theorem writePieces_follows {fd : Nat} {text : List T} {Q : Unit → Stage T → Prop}
    (hQ : Q () (.writing fd text text)) :
    ∀ (pieces : List (List T)) (done : List T), done ++ pieces.flatten = text →
      (writePieces fd done.length pieces).follows (protocol J p) Q (.writing fd text done)
  | [], done, hdone => by
      rw [List.flatten_nil, List.append_nil] at hdone
      rw [hdone]
      exact hQ
  | piece :: pieces, done, hdone => by
      refine ⟨⟨rfl, rfl⟩, ?_⟩
      intro _ _
      have hrest : (done ++ piece) ++ pieces.flatten = text := by
        rwa [List.append_assoc]
      have hlen : done.length + piece.length = (done ++ piece).length := by simp
      show (writePieces fd (done.length + piece.length) pieces).follows _ _ _
      rw [hlen]
      exact writePieces_follows hQ pieces (done ++ piece) hrest

theorem saveUnlocked_follows (state : Dict) :
    (saveUnlocked J state).follows (protocol J p) (fun _ t => t = .holding) .holding := by
  refine ⟨trivial, ?_⟩
  intro now _
  show (writeText _ >>= _).follows _ _ _
  rw [Prog.follows_bind]
  refine ⟨trivial, ?_⟩
  intro fd _
  refine ⟨⟨_, rfl⟩, ?_⟩
  intro pieces hpieces
  refine writePieces_follows ?_ pieces [] hpieces
  exact ⟨rfl, fun ok _ => rfl⟩

theorem withLock_follows {α : Type} {body : Proc T π α}
    (h : body.follows (protocol J p) (fun _ t => t = .holding) .holding) :
    (withLock p body).follows (protocol J p) (fun _ t => t = .outside) .outside := by
  refine ⟨rfl, ?_⟩
  intro _ _
  show (body >>= _).follows _ _ _
  rw [Prog.follows_bind]
  refine Prog.follows_mono h ?_
  intro a t ht
  rw [ht]
  exact ⟨rfl, fun _ _ => rfl⟩

theorem Call.body_follows (x : Call) :
    (x.body J p).follows (protocol J p) (fun _ t => t = .outside) .outside := by
  cases x with
  | load => exact withLock_follows ⟨trivial, fun _ _ => rfl⟩
  | save state => exact withLock_follows (saveUnlocked_follows state)
  | update kwargs =>
      refine withLock_follows ⟨trivial, ?_⟩
      intro text _
      exact saveUnlocked_follows _

end

/-! ## What a turn can do -/

section

variable {T π : Type} [DecidableEq π]

/-- The turn of a thread of the process `p` at the stage `t` leads to the stage `t'`. -/
inductive Move (J : Json T) (p : π) (s : Disk T π) :
    Stage T → Event (sig T π) → Stage T → Disk T π → Prop
  | acquire (hfree : s.locked p = false) :
      Move J p s .outside ⟨.acquire p, ()⟩ .holding (s.setLock p true)
  | release : Move J p s .holding ⟨.release p, ()⟩ .outside (s.setLock p false)
  | readState : Move J p s .holding ⟨.readState, s.text⟩ .holding s
  | strftime (now : String) : Move J p s .holding ⟨.strftime, now⟩ .holding s
  | openTmp : Move J p s .holding ⟨.openTmp, s.tmpFile⟩ (.opened s.tmpFile) s.openTmp
  | pieces (fd : Nat) (d : Dict) (ps : List (List T)) :
      Move J p s (.opened fd) ⟨.pieces (J.dumps d), ps⟩ (.writing fd (J.dumps d) []) s
  | write (fd : Nat) (text done piece : List T) :
      Move J p s (.writing fd text done) ⟨.write fd done.length piece, ()⟩
        (.writing fd text (done ++ piece)) (s.write J.nul fd done.length piece)
  | replace (fd : Nat) (text : List T) :
      Move J p s (.writing fd text text) ⟨.replace, s.tmp.isSome⟩ .holding s.replace

theorem move_of_allowed {J : Json T} {p : π} {s : Disk T π} {t : Stage T} {o : Op T π}
    {x : Choice} (h : (protocol J p).allowed t o) (hx : (disk J).admits o x s) :
    Move J p s t ⟨o, ((disk J).exec o x s).1⟩ (t.next o ((disk J).exec o x s).1)
      ((disk J).exec o x s).2 := by
  cases t with
  | outside =>
      cases o with
      | acquire q =>
          obtain rfl : q = p := h
          exact .acquire hx
      | _ => exact h.elim
  | holding =>
      cases o with
      | release q =>
          obtain rfl : q = p := h
          exact .release
      | readState => exact .readState
      | strftime => exact .strftime x.time
      | openTmp => exact .openTmp
      | _ => exact h.elim
  | opened fd =>
      cases o with
      | pieces text =>
          obtain ⟨d, rfl⟩ := h
          exact .pieces fd d _
      | _ => exact h.elim
  | writing fd text done =>
      cases o with
      | write fd' offset piece =>
          obtain ⟨rfl, rfl⟩ := h
          exact .write fd' text done piece
      | replace =>
          obtain rfl : done = text := h
          exact .replace fd done
      | _ => exact h.elim

/-- What a turn does to the locks. -/
theorem Move.locks {J : Json T} {p : π} {s s' : Disk T π} {t t' : Stage T}
    {e : Event (sig T π)} (h : Move J p s t e t' s') :
    (t = .outside ∧ s.locked p = false ∧ s'.locked = Function.update s.locked p true) ∨
    (t ≠ .outside ∧ t' = .outside ∧ s'.locked = Function.update s.locked p false) ∨
    (t ≠ .outside ∧ s'.locked = s.locked) := by
  cases h with
  | acquire hfree => exact .inl ⟨rfl, hfree, rfl⟩
  | release => exact .inr (.inl ⟨nofun, rfl, rfl⟩)
  | _ => exact .inr (.inr ⟨nofun, rfl⟩)

end

/-! ## Threads of one process -/

section

variable {T π κ : Type} [DecidableEq π] [DecidableEq κ] {J : Json T} {proc : κ → π}
  {f : κ → Stage T} {s s' : Disk T π} {i : κ} {t' : Stage T} {e : Event (sig T π)}

/-- The threads at the stages `f` hold the locks of their processes, each process one of them
at most. -/
structure Exclusive (proc : κ → π) (f : κ → Stage T) (s : Disk T π) : Prop where
  held : ∀ i, f i ≠ .outside → s.locked (proc i) = true
  alone : ∀ i j, proc i = proc j → f i ≠ .outside → f j ≠ .outside → i = j

theorem Exclusive.move (h : Exclusive proc f s) (hm : Move J (proc i) s (f i) e t' s') :
    Exclusive proc (Function.update f i t') s' := by
  -- a thread that holds the lock keeps the others of its process from a turn
  have hsame : ∀ j, j ≠ i → proc j = proc i → f j = .outside := by
    intro j hji hproc
    by_contra hj
    obtain ⟨hi, hfree, -⟩ | ⟨hi, -, -⟩ | ⟨hi, -⟩ := hm.locks
    · rw [← hproc, h.held j hj] at hfree
      cases hfree
    · exact absurd (h.alone j i hproc hj hi) hji
    · exact absurd (h.alone j i hproc hj hi) hji
  refine ⟨?_, ?_⟩
  · intro j hj
    by_cases hji : j = i
    · subst hji
      rw [Function.update_self] at hj
      obtain ⟨-, -, hlocked⟩ | ⟨-, ht', -⟩ | ⟨hi, hlocked⟩ := hm.locks
      · rw [hlocked, Function.update_self]
      · exact absurd ht' hj
      · rw [hlocked]
        exact h.held j hi
    · rw [Function.update_of_ne hji] at hj
      have hne : proc j ≠ proc i := fun hproc => hj (hsame j hji hproc)
      have hheld := h.held j hj
      obtain ⟨-, -, hlocked⟩ | ⟨-, -, hlocked⟩ | ⟨-, hlocked⟩ := hm.locks
      · rwa [hlocked, Function.update_of_ne hne]
      · rwa [hlocked, Function.update_of_ne hne]
      · rwa [hlocked]
  · intro j k hproc hj hk
    by_contra hjk
    by_cases hji : j = i
    · subst hji
      rw [Function.update_of_ne (Ne.symm hjk)] at hk
      exact hk (hsame k (Ne.symm hjk) hproc.symm)
    · rw [Function.update_of_ne hji] at hj
      by_cases hki : k = i
      · subst hki
        exact hj (hsame j hji hproc)
      · rw [Function.update_of_ne hki] at hk
        exact hjk (h.alone j k hproc hj hk)

end

/-! ## Saves one at a time -/

section

variable {T π κ : Type}

/-- The text `text` has been written by one save. -/
def Wrote (J : Json T) (tr : List (κ × Event (sig T π))) (text : List T) : Prop :=
  ∃ i d ps, text = J.dumps d ∧ (i, (⟨.pieces (J.dumps d), ps⟩ : Event (sig T π))) ∈ tr

theorem Wrote.append {J : Json T} {tr : List (κ × Event (sig T π))} {text : List T}
    (h : Wrote J tr text) (tr' : List (κ × Event (sig T π))) : Wrote J (tr ++ tr') text := by
  obtain ⟨i, d, ps, htext, hmem⟩ := h
  exact ⟨i, d, ps, htext, List.mem_append_left _ hmem⟩

/-- **The state file is sound.** It holds what it held at the start or the text of one single
save, and every save has found its temporary file. -/
structure Sound (J : Json T) (s₀ : Disk T π) (tr : List (κ × Event (sig T π))) (s : Disk T π) :
    Prop where
  whole : ∀ text, s.text = some text → s₀.text = some text ∨ Wrote J tr text
  found : ∀ i, (i, (⟨.replace, false⟩ : Event (sig T π))) ∉ tr

/-- A thread that saves has the temporary file for itself. -/
def Stage.Fits (s : Disk T π) : Stage T → Prop
  | .opened fd => s.tmp = some fd ∧ s.content fd = []
  | .writing fd _ done => s.tmp = some fd ∧ s.content fd = done
  | _ => True

theorem Stage.Fits.congr {t : Stage T} {s s' : Disk T π} (h : t.Fits s) (htmp : s'.tmp = s.tmp)
    (hcontent : s'.content = s.content) : t.Fits s' := by
  cases t with
  | opened fd => exact ⟨htmp.trans h.1, (congrFun hcontent fd).trans h.2⟩
  | writing fd text done => exact ⟨htmp.trans h.1, (congrFun hcontent fd).trans h.2⟩
  | _ => trivial

/-- A thread that does not save has no part in the files. -/
theorem fits_of_not_saves {t : Stage T} (h : t.saves = false) (s : Disk T π) : t.Fits s := by
  cases t with
  | opened fd => cases h
  | writing fd text done => cases h
  | _ => trivial

/-- As long as one thread at a time saves. -/
structure Whole (J : Json T) (s₀ : Disk T π) (tr : List (κ × Event (sig T π)))
    (f : κ → Stage T) (s : Disk T π) : Prop extends Sound J s₀ tr s where
  one : ∀ i j, (f i).saves = true → (f j).saves = true → i = j
  fits : ∀ i, (f i).Fits s
  wrote : ∀ i fd text done, f i = .writing fd text done → Wrote J tr text

variable [DecidableEq κ] {J : Json T} {p : π} {s₀ s s' : Disk T π}
  {tr : List (κ × Event (sig T π))} {f : κ → Stage T} {i : κ} {t' : Stage T}
  {e : Event (sig T π)}

theorem Whole.update (h : Whole J s₀ tr f s)
    (hone : t'.saves = true → ∀ j, j ≠ i → (f j).saves = false)
    (hothers : ∀ j, j ≠ i → (f j).Fits s') (hfits : t'.Fits s')
    (hwrote : ∀ fd text done, t' = .writing fd text done → Wrote J (tr ++ [(i, e)]) text)
    (hwhole : ∀ text, s'.text = some text → s.text = some text ∨ Wrote J tr text)
    (hfound : e ≠ ⟨.replace, false⟩) :
    Whole J s₀ (tr ++ [(i, e)]) (Function.update f i t') s' where
  whole text htext := by
    obtain htext | hw := hwhole text htext
    · exact (h.whole text htext).imp id fun hw => hw.append _
    · exact .inr (hw.append _)
  found j hj := by
    obtain hj | hj := List.mem_append.mp hj
    · exact h.found j hj
    · rw [List.mem_singleton, Prod.mk.injEq] at hj
      exact hfound hj.2.symm
  one j k hj hk := by
    by_contra hjk
    by_cases hji : j = i
    · subst hji
      rw [Function.update_self] at hj
      rw [Function.update_of_ne (Ne.symm hjk), hone hj k (Ne.symm hjk)] at hk
      cases hk
    · rw [Function.update_of_ne hji] at hj
      by_cases hki : k = i
      · subst hki
        rw [Function.update_self] at hk
        rw [hone hk j hji] at hj
        cases hj
      · rw [Function.update_of_ne hki] at hk
        exact hjk (h.one j k hj hk)
  fits j := by
    by_cases hji : j = i
    · subst hji
      rwa [Function.update_self]
    · rw [Function.update_of_ne hji]
      exact hothers j hji
  wrote j fd text done hj := by
    by_cases hji : j = i
    · subst hji
      rw [Function.update_self] at hj
      exact hwrote fd text done hj
    · rw [Function.update_of_ne hji] at hj
      exact (h.wrote j fd text done hj).append _

variable [DecidableEq π]

theorem Whole.move (h : Whole J s₀ tr f s) (hm : Move J p s (f i) e t' s')
    (hopen : e.1 = .openTmp → ∀ j, j ≠ i → (f j).saves = false) :
    Whole J s₀ (tr ++ [(i, e)]) (Function.update f i t') s' := by
  have hi := h.fits i
  have hself := h.wrote i
  -- while this thread saves, the others do not
  have hothers : (f i).saves = true → ∀ j, j ≠ i → (f j).saves = false := by
    intro hsaves j hji
    by_contra hj
    exact hji (h.one j i (Bool.of_not_eq_false hj) hsaves)
  generalize f i = t at hm hi hself hothers
  cases hm with
  | acquire _ | release =>
      refine h.update nofun (fun j _ => (h.fits j).congr rfl rfl) trivial nofun ?_ nofun
      exact fun text htext => .inl htext
  | readState | strftime now =>
      refine h.update nofun (fun j _ => h.fits j) trivial nofun ?_ nofun
      exact fun text htext => .inl htext
  | openTmp =>
      have hnone := hopen rfl
      refine h.update (fun _ => hnone) (fun j hji => fits_of_not_saves (hnone j hji) _) ?_
        nofun ?_ nofun
      · exact ⟨rfl, Function.update_self _ _ _⟩
      · intro text htext
        rw [s.openTmp_text] at htext
        exact .inl htext
  | pieces fd d ps =>
      refine h.update (fun _ => hothers rfl) (fun j _ => h.fits j) hi ?_ ?_ nofun
      · intro fd' text done ht
        cases ht
        exact ⟨i, d, ps, rfl, List.mem_append_right _ List.mem_cons_self⟩
      · exact fun text htext => .inl htext
  | write fd text done piece =>
      have hnone := hothers rfl
      obtain ⟨htmp, hcontent⟩ := hi
      refine h.update (fun _ => hnone) (fun j hji => fits_of_not_saves (hnone j hji) _) ?_ ?_ ?_
        nofun
      · refine ⟨htmp, ?_⟩
        rw [s.write_at_end hcontent]
        exact s.setContent_content fd _
      · intro fd' text' done' ht
        cases ht
        exact (hself fd text done rfl).append _
      · intro text' htext
        rw [Disk.write_text htmp] at htext
        exact .inl htext
  | replace fd text =>
      have hnone := hothers rfl
      obtain ⟨htmp, hcontent⟩ := hi
      refine h.update nofun (fun j hji => fits_of_not_saves (hnone j hji) _) trivial nofun ?_ ?_
      · intro text' htext
        rw [Disk.replace_text htmp, hcontent] at htext
        cases htext
        exact .inr (hself fd text text rfl)
      · rw [htmp]
        exact nofun

end

/-! ## Two saves at a time -/

section

variable {T π κ : Type}

/-- More threads save than there are temporary files. -/
def Clash (f : κ → Stage T) (s : Disk T π) : Prop :=
  (∃ i j, i ≠ j ∧ (f i).saves = true ∧ (f j).saves = true) ∨
    ∃ i, (f i).saves = true ∧ s.tmp = none

variable [DecidableEq κ] {J : Json T} {p : π} {s s' : Disk T π} {f : κ → Stage T} {i : κ}
  {t' : Stage T} {e : Event (sig T π)}

/-- A turn that neither opens nor renames the temporary file. -/
theorem Clash.keep (h : Clash f s) (hsaves : t'.saves = (f i).saves) (htmp : s'.tmp = s.tmp) :
    Clash (Function.update f i t') s' := by
  have hall : ∀ j, (Function.update f i t' j).saves = (f j).saves := by
    intro j
    by_cases hji : j = i
    · subst hji
      rw [Function.update_self, hsaves]
    · rw [Function.update_of_ne hji]
  unfold Clash at h ⊢
  simpa only [hall, htmp] using h

/-- Once there is a clash, it ends only with an `os.replace` that finds no temporary file. -/
theorem Clash.move [DecidableEq π] (h : Clash f s) (hm : Move J p s (f i) e t' s')
    (hfound : e ≠ ⟨.replace, false⟩) : Clash (Function.update f i t') s' := by
  have hkeep : t'.saves = (f i).saves → s'.tmp = s.tmp → Clash (Function.update f i t') s' :=
    h.keep
  generalize hfi : f i = t at hm hkeep
  cases hm with
  | acquire _ | release | readState | strftime now | pieces fd d ps =>
      exact hkeep rfl rfl
  | write fd text done piece => exact hkeep rfl rfl
  | openTmp =>
      -- the opener saves now, and some other thread does
      have hother : ∃ j, j ≠ i ∧ (f j).saves = true := by
        have hne : ∀ j, (f j).saves = true → j ≠ i := by
          rintro j hj rfl
          rw [hfi] at hj
          cases hj
        obtain ⟨j, k, -, hj, -⟩ | ⟨j, hj, -⟩ := h
        · exact ⟨j, hne j hj, hj⟩
        · exact ⟨j, hne j hj, hj⟩
      obtain ⟨j, hji, hj⟩ := hother
      refine .inl ⟨i, j, Ne.symm hji, ?_, ?_⟩
      · rw [Function.update_self]
        rfl
      · rwa [Function.update_of_ne hji]
  | replace fd text =>
      obtain ⟨j, k, hjk, hj, hk⟩ | ⟨j, hj, htmp⟩ := h
      · have hother : ∃ j, j ≠ i ∧ (f j).saves = true := by
          by_cases hji : j = i
          · exact ⟨k, fun hki => hjk (hji.trans hki.symm), hk⟩
          · exact ⟨j, hji, hj⟩
        obtain ⟨j, hji, hj⟩ := hother
        refine .inr ⟨j, ?_, rfl⟩
        rwa [Function.update_of_ne hji]
      · rw [htmp] at hfound
        exact absurd rfl hfound

end

/-! ## Whole runs -/

section

variable {T π κ : Type}

/-- The thread that has done `tr` is between `open` and `os.replace`. -/
def saving (tr : List (Event (sig T π))) : Bool :=
  tr.foldl (fun b e => match e.1 with | .openTmp => true | .replace => false | _ => b) false

def Op.opens : Op T π → Bool
  | .openTmp => true
  | _ => false

/-- No save opens the temporary file while a thread of another process is between its `open`
and its `os.replace`. -/
def OpensAlone [DecidableEq κ] (proc : κ → π) (tr : List (κ × Event (sig T π))) : Prop :=
  ∀ n (hn : n < tr.length), tr[n].2.1.opens = true →
    ∀ j, proc j ≠ proc tr[n].1 → saving (eventsOf j (tr.take n)) = false

/-- The stage of a thread that has done `tr`. -/
def stageOf (tr : List (Event (sig T π))) : Stage T :=
  tr.foldl (fun t e => t.next e.1 e.2) .outside

theorem saves_next (t : Stage T) (o : Op T π) (r : o.Ret) :
    (t.next o r).saves = match o with | .openTmp => true | .replace => false | _ => t.saves := by
  cases o <;> cases t <;> rfl

theorem saves_stageOf (tr : List (Event (sig T π))) : (stageOf tr).saves = saving tr := by
  have key : ∀ (tr : List (Event (sig T π))) (t : Stage T),
      (tr.foldl (fun t e => t.next e.1 e.2) t).saves =
        tr.foldl (fun b e => match e.1 with | .openTmp => true | .replace => false | _ => b)
          t.saves := by
    intro tr
    induction tr with
    | nil => exact fun t => rfl
    | cons e tr ih =>
        intro t
        rw [List.foldl_cons, List.foldl_cons, ih, saves_next]
        obtain ⟨o, r⟩ := e
        cases o <;> rfl
  exact key tr .outside

variable [DecidableEq κ]

theorem opensAlone_snoc {proc : κ → π} {tr : List (κ × Event (sig T π))} {i : κ}
    {e : Event (sig T π)} : OpensAlone proc (tr ++ [(i, e)]) ↔ OpensAlone proc tr ∧
      (e.1.opens = true → ∀ j, proc j ≠ proc i → saving (eventsOf j tr) = false) := by
  constructor
  · intro h
    refine ⟨?_, ?_⟩
    · intro n hn
      have hn' := h n (by simp; omega)
      rwa [List.getElem_append_left hn, List.take_append_of_le_length (Nat.le_of_lt hn)] at hn'
    · have hn' := h tr.length (by simp)
      simpa using hn'
  · rintro ⟨h, hlast⟩ n hn
    by_cases hlt : n < tr.length
    · rw [List.getElem_append_left hlt, List.take_append_of_le_length (Nat.le_of_lt hlt)]
      exact h n hlt
    · have heq : n = tr.length := by
        simp at hn
        omega
      subst heq
      simpa using hlast

/-- The stages of all threads. -/
def stages (tr : List (κ × Event (sig T π))) (i : κ) : Stage T := stageOf (eventsOf i tr)

theorem stages_snoc (tr : List (κ × Event (sig T π))) (i : κ) (e : Event (sig T π)) :
    stages (tr ++ [(i, e)]) = Function.update (stages tr) i ((stages tr i).next e.1 e.2) := by
  funext j
  by_cases hji : j = i
  · subst hji
    rw [stages, eventsOf_self, Function.update_self, stages, stageOf, stageOf, List.foldl_concat]
  · rw [stages, eventsOf_other hji, Function.update_of_ne hji, stages]

variable [DecidableEq π] {J : Json T} {proc : κ → π} {calls : κ → List Call}
  {s₀ s : Disk T π} {tr : List (κ × Event (sig T π))}
  {c : κ → Thread (sig T π) (List (Option Dict))}

/-- The threads of all processes, each about to make its calls. -/
def processes (J : Json T) (proc : κ → π) (calls : κ → List Call) :
    κ → Thread (sig T π) (List (Option Dict)) :=
  start fun i => session (Call.body J (proc i)) [] (calls i)

theorem follows_processes (h : Turns (disk J) (processes J proc calls) s₀ tr c s) (i : κ) :
    (c i).rest.follows (protocol J (proc i)) (fun _ t => t = .outside) (stages tr i) := by
  refine h.follows (P := fun i => protocol J (proc i)) ?_ ?_ i
  · intro i o x s
    cases o with
    | pieces text => exact flatten_cut x.lengths text
    | _ => trivial
  · intro i
    exact Prog.follows_session Call.body_follows [] (calls i)

theorem move_of_turn {i : κ} {o : Op T π}
    {k : o.Ret → Proc T π (List (Option Dict))} {x : Choice}
    (h : Turns (disk J) (processes J proc calls) s₀ tr c s) (hi : (c i).rest = .call o k)
    (hx : (disk J).admits o x s) :
    Move J (proc i) s (stages tr i) ⟨o, ((disk J).exec o x s).1⟩
      ((stages tr i).next o ((disk J).exec o x s).1) ((disk J).exec o x s).2 := by
  have hfollows := follows_processes h i
  rw [hi] at hfollows
  exact move_of_allowed hfollows.1 hx

theorem exclusive_of_turns (h : Turns (disk J) (processes J proc calls) s₀ tr c s) :
    Exclusive proc (stages tr) s := by
  induction h with
  | refl => exact ⟨fun i hi => absurd rfl hi, fun i j _ hi => absurd rfl hi⟩
  | turn h hi x hx ih =>
      rw [stages_snoc]
      exact ih.move (move_of_turn h hi hx)

theorem whole_of_opensAlone (h : Turns (disk J) (processes J proc calls) s₀ tr c s)
    (hok : OpensAlone proc tr) : Whole J s₀ tr (stages tr) s := by
  induction h with
  | refl =>
      refine ⟨⟨fun text htext => .inl htext, nofun⟩, ?_, fun i => trivial, ?_⟩
      · intro i j hi
        cases hi
      · intro i fd text done hi
        cases hi
  | @turn tr c s i o k h hi x hx ih =>
      obtain ⟨hok, hlast⟩ := opensAlone_snoc.mp hok
      have hmove := move_of_turn h hi hx
      rw [stages_snoc]
      refine (ih hok).move hmove ?_
      intro ho j hji
      by_contra hj
      have hj : (stages tr j).saves = true := Bool.of_not_eq_false hj
      -- a thread of another process may not save now, one of the same process waits for the lock
      have hproc : proc j = proc i := by
        by_contra hproc
        have hnone := hlast (by rw [ho]; rfl) j hproc
        rw [← saves_stageOf] at hnone
        exact Bool.false_ne_true (hnone.symm.trans hj)
      have hout : ∀ {t : Stage T}, t.saves = true → t ≠ .outside := by
        rintro t ht rfl
        cases ht
      have hi' : stages tr i ≠ .outside := by
        intro hi'
        rw [hi'] at hmove
        cases hmove
        cases ho
      exact hji ((exclusive_of_turns h).alone j i hproc (hout hj) hi')

theorem clash_of_not_opensAlone (h : Turns (disk J) (processes J proc calls) s₀ tr c s)
    (hok : ¬ OpensAlone proc tr)
    (hfound : ∀ i, (i, (⟨.replace, false⟩ : Event (sig T π))) ∉ tr) : Clash (stages tr) s := by
  induction h with
  | refl => exact absurd (fun n hn => absurd hn (Nat.not_lt_zero n)) hok
  | @turn tr c s i o k h hi x hx ih =>
      have hmove := move_of_turn h hi hx
      have hpast : ∀ j, (j, (⟨.replace, false⟩ : Event (sig T π))) ∉ tr := by
        intro j hj
        exact hfound j (List.mem_append_left _ hj)
      rw [stages_snoc]
      by_cases hprev : OpensAlone proc tr
      · -- this turn opens the temporary file while `j` saves
        have hlast : ¬ (o.opens = true →
            ∀ j, proc j ≠ proc i → saving (eventsOf j tr) = false) := by
          intro hlast
          exact hok (opensAlone_snoc.mpr ⟨hprev, hlast⟩)
        obtain ⟨ho, hlast⟩ := Classical.not_imp.mp hlast
        obtain ⟨j, hlast⟩ := not_forall.mp hlast
        obtain ⟨hproc, hj⟩ := Classical.not_imp.mp hlast
        have hji : j ≠ i := fun hji => hproc (congrArg proc hji)
        refine .inl ⟨i, j, Ne.symm hji, ?_, ?_⟩
        · rw [Function.update_self, saves_next]
          cases o with
          | openTmp => rfl
          | _ => cases ho
        · rw [Function.update_of_ne hji, stages, saves_stageOf]
          exact Bool.of_not_eq_false hj
      · refine (ih hprev hpast).move hmove ?_
        intro he
        refine hfound i (List.mem_append_right _ ?_)
        rw [he]
        exact List.mem_cons_self

/-- **When the state file is sound.** In a run in which no save opens the temporary file while
another process saves, the state file is sound in every state reached; and a finished run at
whose end it is sound is such a run. -/
theorem sound_opensAlone (h : Turns (disk J) (processes J proc calls) s₀ tr c s) :
    (OpensAlone proc tr → Sound J s₀ tr s) ∧
      ((∀ i, (c i).rest.isRet = true) → Sound J s₀ tr s → OpensAlone proc tr) := by
  refine ⟨fun hok => (whole_of_opensAlone h hok).toSound, ?_⟩
  intro hdone hsound
  by_contra hok
  have hout : ∀ i, (stages tr i).saves = false := by
    intro i
    have hfollows := follows_processes h i
    obtain ⟨answers, hret⟩ := Prog.eq_ret_of_isRet (hdone i)
    rw [hret] at hfollows
    have hi : stages tr i = .outside := hfollows
    rw [hi]
    rfl
  obtain ⟨i, j, -, hi, -⟩ | ⟨i, hi, -⟩ := clash_of_not_opensAlone h hok hsound.found
  · rw [hout i] at hi
    cases hi
  · rw [hout i] at hi
    cases hi

end

section

instance {T π κ : Type} [DecidableEq π] [DecidableEq κ] [Fintype κ] (proc : κ → π)
    (tr : List (κ × Event (sig T π))) : Decidable (OpensAlone proc tr) :=
  inferInstanceAs (Decidable (∀ n (hn : n < tr.length), tr[n].2.1.opens = true →
    ∀ j, proc j ≠ proc tr[n].1 → saving (eventsOf j (tr.take n)) = false))

/-- Two processes that each switch on one protection. -/
def switchOnOne : Bool → List Call
  | true => [.update [("tor_kill_switch", .bool true)]]
  | false => [.update [("portscan_protection", .bool true)]]

/-- In this order of their turns. -/
def twoProcesses (turns : List Bool) : List (Bool × Event (sig Line Bool)) ×
    (Bool → Thread (sig Line Bool) (List (Option Dict))) × Disk Line Bool :=
  trySchedule (disk Json.lines) (fun _ _ => { lengths := [7] }) turns []
    (processes Json.lines id switchOnOne) (onlyState defaultState)

/-- The second process opens the temporary file when the first one has renamed it. -/
def oneAfterTheOther : List Bool :=
  [true, false, true, false] ++ List.replicate 6 true ++ List.replicate 7 false ++ [true]

theorem sound_opensAlone_two : Sound Json.lines (onlyState defaultState)
    (twoProcesses oneAfterTheOther).1 (twoProcesses oneAfterTheOther).2.2 :=
  (sound_opensAlone (turns_trySchedule .refl _)).1 (by decide +kernel)

/-- The second process opens the temporary file when the first one is about to rename it. -/
def oneDuringTheOther : List Bool :=
  List.replicate 7 true ++ List.replicate 4 false ++ [true]

/-- The first process puts the file in place that the second one has just emptied. -/
theorem not_sound : ¬ ∀ tr c (s : Disk Line Bool),
    Turns (disk Json.lines) (processes Json.lines id switchOnOne) (onlyState defaultState) tr c s →
      Sound Json.lines (onlyState defaultState) tr s := by
  intro h
  have hsound := h _ _ (twoProcesses oneDuringTheOther).2.2 (turns_trySchedule .refl _)
  obtain htext | ⟨i, d, ps, htext, -⟩ := hsound.whole [] rfl
  · cases htext
  · cases htext

end

end PrivacyGuard.StateFile
