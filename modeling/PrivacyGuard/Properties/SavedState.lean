import PrivacyGuard.Model.StateFile

set_option autoImplicit false

/-! # Updates of the saved state

Within a process the lock makes every `load`, `save` and `update` a single step. So no update
is lost, in whatever order the threads come to their turns, and the rest of the model may
treat an access to the saved state as one operation. -/

namespace PrivacyGuard.StateFile

open Effect

/-- The calls `xs`, one after the other, on the dictionary in the file. -/
def applyAll (xs : List Call) (d : Dict) : Dict := xs.foldl (fun d x => x.apply d) d

/-- The call may change the value of the key `k`. -/
def Call.Names (k : String) : Call → Prop
  | .load => False
  | .save _ => True
  | .update kwargs => k ∈ kwargs.map Prod.fst

theorem Call.apply_alike {d e : Dict} (h : d.Alike e) (x : Call) :
    (x.apply d).Alike (x.apply e) := by
  cases x with
  | load => exact h
  | save state => exact Dict.Alike.refl state
  | update kwargs => exact (h.merge defaultState).update kwargs

theorem applyAll_alike {d e : Dict} (h : d.Alike e) (xs : List Call) :
    (applyAll xs d).Alike (applyAll xs e) := by
  induction xs generalizing d e with
  | nil => exact h
  | cons x xs ih => exact ih (x.apply_alike h)

/-- A key that no call names keeps its value. -/
theorem applyAll_get {k : String} {xs : List Call} (hk : ∀ x ∈ xs, ¬ x.Names k) (d : Dict) :
    (defaultState.merge (applyAll xs d)).get k = (defaultState.merge d).get k := by
  induction xs generalizing d with
  | nil => rfl
  | cons x xs ih =>
      have hx := hk x List.mem_cons_self
      refine (ih (fun y hy => hk y (List.mem_cons_of_mem _ hy)) (x.apply d)).trans ?_
      cases x with
      | load => rfl
      | save state => exact absurd trivial hx
      | update kwargs =>
          rw [Dict.get_merge, Call.apply, Dict.get_update_of_not_mem hx, Dict.get_merge,
            Option.or_assoc, Option.or_self]

section

variable {T π κ : Type} [DecidableEq π] {J : Json T} {p : π} {s s' : Disk T π} {d : Dict}

/-- What one call leaves, and what `load` answers. -/
theorem Call.body_wp (x : Call) (h : J.Holds d s) :
    (x.body J p).wp (disk J) (fun a s' => (∃ e, J.Holds e s' ∧ e.Alike (x.apply d)) ∧
      (x = .load → a = some (defaultState.merge d))) s := by
  have hsave : ∀ (state : Dict) (s : Disk T π), (saveUnlocked J state).wp (disk J)
      (fun _ s' => ∃ e, J.Holds e (s'.setLock p false) ∧ e.Alike state) s := fun state s =>
    saveUnlocked_wp fun now s' htext _ => ⟨_, .of_dumps htext, state.alike_stamped _⟩
  cases x with
  | load =>
      refine withLock_wp fun s' hs' => ?_
      have hs : J.Holds d s' := by rwa [Json.Holds, hs']
      rw [Prog.wp_map]
      refine loadUnlocked_wp ?_
      rw [hs.stateOf]
      exact ⟨⟨d, hs, Dict.Alike.refl d⟩, fun _ => rfl⟩
  | save state =>
      refine withLock_wp fun s' _ => Prog.wp_mono (hsave state s') fun _ _ hs => ?_
      exact ⟨hs, nofun⟩
  | update kwargs =>
      refine withLock_wp fun s' hs' => ?_
      have hs : J.Holds d s' := by rwa [Json.Holds, hs']
      rw [Prog.wp_bind]
      refine loadUnlocked_wp ?_
      rw [hs.stateOf]
      refine Prog.wp_mono (hsave _ s') fun _ _ hs => ?_
      exact ⟨hs, nofun⟩

/-- The calls `cs` in a sequential run: what they leave, and what each `load` answers. -/
theorem calls_applyAll {cs : List ((κ × Call) × Option Dict)}
    (h : Calls (disk J) (fun e => e.2.body J p) (fun _ _ => True) s cs s') (hd : J.Holds d s) :
    (∃ e, J.Holds e s' ∧ e.Alike (applyAll (cs.map fun c => c.1.2) d)) ∧
      ∀ pre i a post, cs = pre ++ ((i, .load), a) :: post → ∃ e, a = some e ∧
        e.Alike (defaultState.merge (applyAll (pre.map fun c => c.1.2) d)) := by
  induction h generalizing d with
  | nil s => exact ⟨⟨d, hd, Dict.Alike.refl d⟩, fun pre i a post he => by simp at he⟩
  | @cons s s₁ s₂ x a tr cs _ hrun _ ih =>
      obtain ⟨⟨e, he, halike⟩, hload⟩ := hrun.post (x.2.body_wp hd)
      obtain ⟨⟨f, hf, hfalike⟩, hloads⟩ := ih he
      refine ⟨⟨f, hf, hfalike.trans (applyAll_alike halike _)⟩, ?_⟩
      intro pre i b post hsplit
      cases pre with
      | nil =>
          cases hsplit
          exact ⟨_, hload rfl, Dict.Alike.refl _⟩
      | cons y pre =>
          cases hsplit
          obtain ⟨g, hg, hgalike⟩ := hloads pre i b post rfl
          exact ⟨g, hg, hgalike.trans ((applyAll_alike halike _).merge defaultState)⟩

end

/-- The same in terms of the order alone. -/
theorem callsOf_eq {κ χ β : Type} [DecidableEq κ] (cs : List ((κ × χ) × β)) (i : κ) :
    callsOf i cs = ((cs.map Prod.fst).filter fun e => e.1 = i).map Prod.snd := by
  rw [callsOf, List.filter_map, List.map_map]
  rfl

/-- The answer to a call in the middle of a sequential run. -/
theorem answersOf_getElem? {κ χ β : Type} [DecidableEq κ] (pre post : List ((κ × χ) × β)) (i : κ)
    (x : χ) (b : β) : (answersOf i (pre ++ ((i, x), b) :: post))[
      ((pre.map Prod.fst).filter fun e => e.1 = i).length]? = some b := by
  have hlen : ((pre.map Prod.fst).filter fun e => e.1 = i).length = (answersOf i pre).length := by
    rw [answersOf, List.filter_map, List.length_map, List.length_map]
    rfl
  have hsplit : answersOf i (pre ++ ((i, x), b) :: post) =
      answersOf i pre ++ b :: answersOf i post := by
    simp [answersOf]
  rw [hlen, hsplit, List.getElem?_append_right (Nat.le_refl _), Nat.sub_self]
  rfl

/-- The order of the calls explains a run in which all threads have finished: it is that of
the acquisitions of the lock, it has each thread's calls in the order in which it made them,
and the file and the answers of `load` are those of the calls one after the other. -/
structure Explains {T π κ : Type} [DecidableEq π] [DecidableEq κ] (J : Json T) (p : π)
    (calls : κ → List Call) (d : Dict) (tr : List (κ × Event (sig T π)))
    (c : κ → Thread (sig T π) (List (Option Dict))) (s : Disk T π) (order : List (κ × Call)) :
    Prop where
  acquired : order.map Prod.fst = acquisitions (lock T p) tr
  own (i : κ) : (order.filter fun e => e.1 = i).map Prod.snd = calls i
  file : ∃ e, J.Holds e s ∧ e.Alike (applyAll (order.map Prod.snd) d)
  kept (e : Dict) (he : J.Holds e s) (k : String) (hk : k ≠ "last_updated")
    (hnames : ∀ x ∈ order.map Prod.snd, ¬ x.Names k) :
    (defaultState.merge e).get k = (defaultState.merge d).get k
  loaded (pre : List (κ × Call)) (i : κ) (post : List (κ × Call))
    (hsplit : order = pre ++ (i, .load) :: post) :
    ∃ answers e, (c i).rest = .ret answers ∧
      answers[(pre.filter fun e => e.1 = i).length]? = some (some e) ∧
      e.Alike (defaultState.merge (applyAll (pre.map Prod.snd) d))

/-- **No update is lost.** Threads of one process that call `load`, `save` and `update` in
any order of their steps leave what the calls leave one after the other, in the order in
which the lock was acquired; and every `load` answers with the state after the calls before
it. -/
theorem no_update_lost {T π κ : Type} [DecidableEq π] [DecidableEq κ] {J : Json T} {p : π}
    {calls : κ → List Call} {d : Dict} {s₀ s : Disk T π} {tr : List (κ × Event (sig T π))}
    {c : κ → Thread (sig T π) (List (Option Dict))} (hd : J.Holds d s₀)
    (hfree : s₀.locked p = false)
    (h : Turns (disk J) (start fun i => session (Call.body J p) [] (calls i)) s₀ tr c s)
    (hdone : ∀ i, (c i).rest.isRet = true) :
    ∃ order : List (κ × Call), Explains J p calls d tr c s order := by
  obtain ⟨cs, hcs, hacq, hc⟩ := h.atomic guards_lock section_body hfree hdone
  obtain ⟨⟨e, he, halike⟩, hloads⟩ := calls_applyAll hcs hd
  have horder : (cs.map Prod.fst).map Prod.snd = cs.map fun c => c.1.2 := List.map_map
  refine ⟨cs.map Prod.fst, ?_, fun i => ?_, ⟨e, he, ?_⟩, ?_, ?_⟩
  · rw [hacq, List.map_map]
    rfl
  · rw [← callsOf_eq]
    exact (hc i).1
  · rwa [horder]
  · intro e' he' k hk hnames
    rw [horder] at hnames
    obtain rfl := he'.unique he
    rw [← applyAll_get hnames d]
    exact halike.merge defaultState k hk
  · intro pre i post hsplit
    obtain ⟨pre', rest', rfl, rfl, hrest⟩ := List.map_eq_append_iff.mp hsplit
    obtain ⟨⟨y, a⟩, post', rfl, hy, rfl⟩ := List.map_eq_cons_iff.mp hrest
    obtain rfl : y = (i, .load) := hy
    obtain ⟨e, rfl, halike'⟩ := hloads pre' i a post' rfl
    refine ⟨_, e, (hc i).2, ?_, ?_⟩
    · exact answersOf_getElem? pre' post' i .load (some e)
    · rw [List.map_map]
      exact halike'

section

/-- A disk on which only the state file is. -/
def onlyState {π : Type} (d : Dict) : Disk Line π where
  content n := if n = 0 then Json.lines.dumps d else []
  state := some 0
  tmp := none
  next := 1
  locked _ := false
  state_lt n hn := by
    cases hn
    exact Nat.one_pos
  tmp_lt n hn := nomatch hn
  apart n _ hn := nomatch hn

def twoThreads : Bool → List Call
  | true => [.update [("tor_kill_switch", .bool true)], .load]
  | false => [.update [("portscan_protection", .bool true)]]

/-- The second thread comes to a turn now and then while the first one is saving. -/
def theirTurns : List Bool :=
  [true, true, false, true, true, false, true, true, true, true, false, true, false] ++
    List.replicate 20 false ++ List.replicate 5 true

def theirRun : List (Bool × Event (sig Line Unit)) ×
    (Bool → Thread (sig Line Unit) (List (Option Dict))) × Disk Line Unit :=
  trySchedule (disk Json.lines) (fun _ _ => { lengths := [7] }) theirTurns []
    (start fun i => session (Call.body Json.lines ()) [] (twoThreads i)) (onlyState defaultState)

theorem no_update_lost_two : ∃ order, Explains Json.lines () twoThreads defaultState
    theirRun.1 theirRun.2.1 theirRun.2.2 order :=
  no_update_lost ⟨_, rfl, Json.lines.loads_dumps _⟩ rfl
    (show Turns _ _ (onlyState defaultState) _ _ _ from turns_trySchedule .refl _)
    fun i => by cases i <;> decide +kernel

end

end PrivacyGuard.StateFile
