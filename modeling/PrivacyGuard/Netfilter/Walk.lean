import PrivacyGuard.Netfilter.Verdict

set_option autoImplicit false

/-! # Walks

`Table.verdict` says what a table decides about a packet. A *walk* says how it comes to that:
whether the rules decided, sent the packet back, or let it reach their end, and which user
chains it entered and followed to their end. A match may also remember packets, in a memory of
type `S` that the walk hands on from match to match.

`Diverted` compares walks through two tables that differ in one user chain. -/

namespace Netfilter

variable {H M P S : Type}

/-- How a walk along a list of rules ends. -/
inductive Outcome
  | decided (v : Verdict)
  | returned
  | ended
  deriving DecidableEq, Repr

/-- The decision, if there is one. -/
def Outcome.verdict? : Outcome → Option Verdict
  | .decided v => some v
  | _ => none

/-- What a walk passes: the beginning or the end of a user chain. -/
inductive Landmark
  | entry (chain : String)
  | exit (chain : String)
  deriving DecidableEq, Repr

def Landmark.chain : Landmark → String
  | .entry c | .exit c => c

structure Walk (S : Type) where
  outcome : Outcome
  passed : List Landmark
  memory : S

/-- How packets meet matches that may remember them. -/
structure Dynamics (M P S : Type) where
  test : M → P → S → Bool × S
  ext : String → P → Option Verdict
  stack : Nat

/-- The matches are tested in order, up to the first that does not hold. -/
def testAll (test : M → S → Bool × S) : List M → S → Bool × S
  | [], s => (true, s)
  | m :: ms, s =>
      match test m s with
      | (true, s') => testAll test ms s'
      | (false, s') => (false, s')

namespace Walk

/-- Unless the walk has decided, it goes on. -/
def andThen (W : Walk S) (next : S → Walk S) : Walk S :=
  match W.outcome with
  | .decided _ => W
  | _ => { next W.memory with passed := W.passed ++ (next W.memory).passed }

/-- At the end of the rules, the walk goes on with others. -/
def atEnd (W : Walk S) (next : S → Walk S) : Walk S :=
  match W.outcome with
  | .ended => W.andThen next
  | _ => W

/-- A chain that is gone to gives control back to the caller of the one it was entered from. -/
def sentBack (W : Walk S) : Walk S :=
  match W.outcome with
  | .ended => { W with outcome := .returned }
  | _ => W

/-- The walk was one through the user chain `c`. -/
def through (c : String) (W : Walk S) : Walk S :=
  { W with
    passed := .entry c :: W.passed ++ if W.outcome = .ended then [.exit c] else [] }

end Walk

/-- The walk along a list of rules; `call` is the walk through a chain they lead to. -/
def walkRules (test : M → S → Bool × S) (ext : String → Option Verdict)
    (call : String → S → Walk S) : List (Rule M) → S → Walk S
  | [], s => ⟨.ended, [], s⟩
  | r :: rs, s =>
      match testAll test r.conds s with
      | (false, s') => walkRules test ext call rs s'
      | (true, s') =>
          match r.target with
          | .accept => ⟨.decided .accept, [], s'⟩
          | .drop => ⟨.decided .drop, [], s'⟩
          | .reject => ⟨.decided .reject, [], s'⟩
          | .ret => ⟨.returned, [], s'⟩
          | .goto c => (call c s').sentBack
          | .jump c => (call c s').andThen (walkRules test ext call rs)
          | .log _ => walkRules test ext call rs s'
          | .redirect n => ⟨.decided (.redirect n), [], s'⟩
          | .ext e =>
              match ext e with
              | some v => ⟨.decided v, [], s'⟩
              | none => walkRules test ext call rs s'

/-! ## One step -/

namespace Walk

variable {W : Walk S}

theorem andThen_of_decided {v : Verdict} (h : W.outcome = .decided v) (next : S → Walk S) :
    W.andThen next = W := by
  rw [andThen, h]

theorem atEnd_of_ne (h : W.outcome ≠ .ended) (next : S → Walk S) : W.atEnd next = W := by
  rw [atEnd]
  split
  · contradiction
  · rfl

theorem atEnd_of_ended (h : W.outcome = .ended) (next : S → Walk S) :
    W.atEnd next = { next W.memory with passed := W.passed ++ (next W.memory).passed } := by
  rw [atEnd, h]
  show W.andThen next = _
  rw [andThen, h]

end Walk

section

variable {test : M → S → Bool × S} {ext : String → Option Verdict} {call : String → S → Walk S}
  {cs : List M} {s s' : S}

theorem walkRules_of_unmet {r : Rule M} (h : testAll test r.conds s = (false, s'))
    (rs : List (Rule M)) :
    walkRules test ext call (r :: rs) s = walkRules test ext call rs s' := by
  rw [walkRules, h]

theorem walkRules_accept (h : testAll test cs s = (true, s')) (rs : List (Rule M)) :
    walkRules test ext call (⟨cs, .accept⟩ :: rs) s = ⟨.decided .accept, [], s'⟩ := by
  rw [walkRules, h]

theorem walkRules_jump (h : testAll test cs s = (true, s')) (c : String) (rs : List (Rule M)) :
    walkRules test ext call (⟨cs, .jump c⟩ :: rs) s =
      (call c s').andThen (walkRules test ext call rs) := by
  rw [walkRules, h]

end

namespace Table

/-- The walk through the user chain `c`, entered with `n` levels of the jump stack left. -/
def walkChain (t : Table H M) (d : Dynamics M P S) (p : P) : Nat → String → S → Walk S
  | 0, _, s => ⟨.decided .drop, [], s⟩
  | n + 1, c, s =>
      (walkRules (d.test · p) (d.ext · p) (t.walkChain d p n) (t.chainRules c) s).through c

/-- The walk along a list of rules that lead into the table. -/
def walkAlong (t : Table H M) (d : Dynamics M P S) (p : P) (rs : List (Rule M)) (s : S) :
    Walk S :=
  walkRules (d.test · p) (d.ext · p) (t.walkChain d p d.stack) rs s

/-- The walk from the hook `h`. -/
def walk (t : Table H M) (d : Dynamics M P S) (h : H) (p : P) (s : S) : Walk S :=
  t.walkAlong d p (t.hook h) s

/-- The verdict of a walk from the hook `h`. -/
def settle (t : Table H M) (h : H) (o : Outcome) : Verdict :=
  o.verdict?.getD (t.policy h).verdict

end Table

/-! ## Walks without a memory -/

/-- The dynamics of matches that remember nothing. -/
def Meaning.still (m : Meaning M P) : Dynamics M P Unit where
  test x p _ := (m.holds x p, ())
  ext := m.ext
  stack := m.stack

theorem testAll_still (m : Meaning M P) (p : P) (ms : List M) (u : Unit) :
    testAll (fun x => m.still.test x p) ms u = (ms.all (m.holds · p), ()) := by
  induction ms with
  | nil => rfl
  | cons x ms ih =>
      rw [testAll, List.all_cons]
      cases hx : m.holds x p with
      | true =>
          simp only [Meaning.still, hx, Bool.true_and]
          exact ih
      | false =>
          simp only [Meaning.still, hx, Bool.false_and]

@[simp] theorem Walk.andThen_verdict (W : Walk S) (next : S → Walk S) :
    (W.andThen next).outcome.verdict? =
      W.outcome.verdict?.or (next W.memory).outcome.verdict? := by
  rw [Walk.andThen]
  cases hW : W.outcome with
  | decided v => simp [hW, Outcome.verdict?]
  | returned | ended => simp [Outcome.verdict?]

@[simp] theorem Walk.sentBack_verdict (W : Walk S) :
    W.sentBack.outcome.verdict? = W.outcome.verdict? := by
  rw [Walk.sentBack]
  cases hW : W.outcome with
  | ended => rfl
  | decided v | returned => rw [hW]

/-- The walk decides what the rules decide. -/
theorem decideRules_eq (m : Meaning M P) (p : P) {callee : String → Option Verdict}
    {call : String → Unit → Walk Unit}
    (hcall : ∀ c u, callee c = (call c u).outcome.verdict?) (rs : List (Rule M)) (u : Unit) :
    decideRules (m.holds · p) (m.ext · p) callee rs =
      (walkRules (m.still.test · p) (m.ext · p) call rs u).outcome.verdict? := by
  induction rs generalizing u with
  | nil => rfl
  | cons r rs ih =>
      rw [decideRules, walkRules, testAll_still]
      cases r.conds.all (m.holds · p) with
      | false => exact ih ()
      | true =>
          rw [if_pos rfl]
          cases hr : r.target with
          | accept | drop | reject | ret | redirect n => rfl
          | log l => exact ih ()
          | goto c => simp [hcall c ()]
          | jump c => simp [hcall c (), ih (call c ()).memory]
          | ext e =>
              cases he : m.ext e p with
              | none => simp [he, ih ()]
              | some v => simp [he, Outcome.verdict?]

theorem Table.decideChain_eq (t : Table H M) (m : Meaning M P) (p : P) (n : Nat) (c : String)
    (u : Unit) :
    t.decideChain m p n c = (t.walkChain m.still p n c u).outcome.verdict? := by
  induction n generalizing c u with
  | zero => rfl
  | succ n ih => exact decideRules_eq m p ih _ u

/-- **The verdict of a table is that of its walk.** -/
theorem Table.verdict_eq (t : Table H M) (m : Meaning M P) (h : H) (p : P) :
    t.verdict m h p = t.settle h (t.walk m.still h p ()).outcome := by
  have hrules := decideRules_eq m p (t.decideChain_eq m p m.stack) (t.hook h) ()
  rw [verdict, hrules]
  rfl

/-! ## Walks that part -/

/-- The second walk is the first one, unless the first one passes the landmark: there the
second one decides. -/
def Walk.Diverted (l : Landmark) (v : Verdict) (W W' : Walk S) : Prop :=
  (l ∈ W.passed ∧ W'.outcome = .decided v) ∨ (l ∉ W.passed ∧ W' = W)

namespace Walk.Diverted

variable {l : Landmark} {v : Verdict} {W W' : Walk S}

theorem refl_of_empty (h : W.passed = []) : Diverted l v W W :=
  .inr ⟨by rw [h]; exact List.not_mem_nil, rfl⟩

theorem andThen (h : Diverted l v W W') {next next' : S → Walk S}
    (hnext : ∀ s, Diverted l v (next s) (next' s)) :
    Diverted l v (W.andThen next) (W'.andThen next') := by
  obtain ⟨hl, hW'⟩ | ⟨hl, rfl⟩ := h
  · refine .inl ⟨?_, ?_⟩
    · rw [Walk.andThen]
      split
      · exact hl
      · exact List.mem_append_left _ hl
    · rw [Walk.andThen, hW']
      exact hW'
  · cases hW : W'.outcome with
    | decided v' => exact .inr ⟨by rwa [Walk.andThen, hW], by rw [Walk.andThen, Walk.andThen, hW]⟩
    | returned | ended =>
        rw [Walk.andThen, Walk.andThen, hW]
        obtain ⟨hl', hv⟩ | ⟨hl', heq⟩ := hnext W'.memory
        · exact .inl ⟨List.mem_append_right _ hl', hv⟩
        · refine .inr ⟨?_, by rw [heq]⟩
          rw [List.mem_append, not_or]
          exact ⟨hl, hl'⟩

theorem sentBack (h : Diverted l v W W') : Diverted l v W.sentBack W'.sentBack := by
  have hpassed : W.sentBack.passed = W.passed := by
    rw [Walk.sentBack]
    split <;> rfl
  obtain ⟨hl, hW'⟩ | ⟨hl, rfl⟩ := h
  · refine .inl ⟨by rwa [hpassed], ?_⟩
    rw [Walk.sentBack, hW']
    exact hW'
  · exact .inr ⟨by rwa [hpassed], rfl⟩

/-- Through a chain that is not that of the landmark. -/
theorem through (h : Diverted l v W W') {c : String} (hc : l.chain ≠ c) :
    Diverted l v (W.through c) (W'.through c) := by
  have hpassed : l ∈ (W.through c).passed ↔ l ∈ W.passed := by
    have hentry : l ≠ .entry c := fun he => hc (by rw [he]; rfl)
    have hexit : l ≠ .exit c := fun he => hc (by rw [he]; rfl)
    rw [Walk.through, List.mem_append, List.mem_cons, or_iff_right hentry, or_iff_left]
    split
    · simpa using hexit
    · exact List.not_mem_nil
  rw [Diverted, hpassed]
  exact h.imp id fun ⟨hl, heq⟩ => ⟨hl, by rw [heq]⟩

end Walk.Diverted

section

variable {test : M → S → Bool × S} {ext : String → Option Verdict}
  {call call' : String → S → Walk S} {l : Landmark} {v : Verdict}

theorem walkRules_diverted (h : ∀ c s, Walk.Diverted l v (call c s) (call' c s))
    (rs : List (Rule M)) (s : S) :
    Walk.Diverted l v (walkRules test ext call rs s) (walkRules test ext call' rs s) := by
  induction rs generalizing s with
  | nil => exact .refl_of_empty rfl
  | cons r rs ih =>
      rw [walkRules, walkRules]
      split
      · exact ih _
      · cases r.target with
        | accept | drop | reject | ret | redirect n => exact .refl_of_empty rfl
        | log n => exact ih _
        | goto c => exact (h c _).sentBack
        | jump c => exact (h c _).andThen ih
        | ext e =>
            cases he : ext e with
            | some w => simpa only [he] using .refl_of_empty rfl
            | none => simpa only [he] using ih _

theorem Walk.andThen_assoc (W : Walk S) (f g : S → Walk S) :
    (W.andThen f).atEnd g = W.andThen fun s => (f s).atEnd g := by
  cases hW : W.outcome with
  | decided v => simp [Walk.andThen, Walk.atEnd, hW]
  | returned | ended =>
      cases hf : (f W.memory).outcome <;>
        simp [Walk.andThen, Walk.atEnd, hW, hf, List.append_assoc]

theorem Walk.sentBack_atEnd (W : Walk S) (g : S → Walk S) : W.sentBack.atEnd g = W.sentBack := by
  cases hW : W.outcome <;> simp [Walk.sentBack, Walk.atEnd, hW]

/-- Rules that follow others apply to what reaches the end of these. -/
theorem walkRules_append (rs rs' : List (Rule M)) (s : S) :
    walkRules test ext call (rs ++ rs') s =
      (walkRules test ext call rs s).atEnd (walkRules test ext call rs') := by
  induction rs generalizing s with
  | nil => simp [walkRules, Walk.atEnd, Walk.andThen]
  | cons r rs ih =>
      rw [List.cons_append, walkRules, walkRules]
      split
      · exact ih _
      · cases r.target with
        | accept | drop | reject | ret | redirect n => rfl
        | log n => exact ih _
        | goto c => exact (Walk.sentBack_atEnd _ _).symm
        | jump c =>
            show (call c _).andThen _ = ((call c _).andThen _).atEnd _
            rw [Walk.andThen_assoc, funext ih]
        | ext e =>
            cases he : ext e with
            | some w => simp [he, Walk.atEnd]
            | none => simpa [he] using ih _

end

namespace Table

variable {t u : Table H M} {n : String} {l : Landmark} {v : Verdict} (d : Dynamics M P S) (p : P)

/-- Where two tables differ in the user chain of the landmark only, and part there. -/
theorem walkChain_diverted (hrest : ∀ c, c ≠ l.chain → u.chainRules c = t.chainRules c)
    (hchain : ∀ k s, (∀ c s, Walk.Diverted l v (t.walkChain d p k c s) (u.walkChain d p k c s)) →
      Walk.Diverted l v (t.walkChain d p (k + 1) l.chain s) (u.walkChain d p (k + 1) l.chain s))
    (k : Nat) (c : String) (s : S) :
    Walk.Diverted l v (t.walkChain d p k c s) (u.walkChain d p k c s) := by
  induction k generalizing c s with
  | zero => exact .refl_of_empty rfl
  | succ k ih =>
      by_cases hc : c = l.chain
      · rw [hc]
        exact hchain k s ih
      · rw [walkChain, walkChain, hrest c hc]
        exact (walkRules_diverted ih _ s).through (Ne.symm hc)

/-- A chain whose rules have been replaced by rules that decide. -/
theorem walkAlong_replaced (hrest : ∀ c, c ≠ n → u.chainRules c = t.chainRules c)
    (hdec : ∀ k s, (walkRules (d.test · p) (d.ext · p) (u.walkChain d p k) (u.chainRules n)
      s).outcome = .decided v) (rs : List (Rule M)) (s : S) :
    Walk.Diverted (.entry n) v (t.walkAlong d p rs s) (u.walkAlong d p rs s) := by
  refine walkRules_diverted (walkChain_diverted (l := .entry n) d p hrest ?_ d.stack) rs s
  intro k s' _
  refine .inl ⟨?_, hdec k s'⟩
  rw [walkChain, Walk.through]
  exact List.mem_append_left _ List.mem_cons_self

/-- A chain to which rules that decide have been added. -/
theorem walkAlong_extended (hrest : ∀ c, c ≠ n → u.chainRules c = t.chainRules c)
    {tail : List (Rule M)} (hn : u.chainRules n = t.chainRules n ++ tail)
    (hdec : ∀ k s, (walkRules (d.test · p) (d.ext · p) (u.walkChain d p k) tail s).outcome =
      .decided v) (rs : List (Rule M)) (s : S) :
    Walk.Diverted (.exit n) v (t.walkAlong d p rs s) (u.walkAlong d p rs s) := by
  refine walkRules_diverted (walkChain_diverted (l := .exit n) d p hrest ?_ d.stack) rs s
  intro k s' ih
  show Walk.Diverted _ v (t.walkChain d p (k + 1) n s') (u.walkChain d p (k + 1) n s')
  rw [walkChain, walkChain, hn, walkRules_append]
  have hW : Walk.Diverted _ v
      (walkRules (d.test · p) (d.ext · p) (t.walkChain d p k) (t.chainRules n) s')
      (walkRules (d.test · p) (d.ext · p) (u.walkChain d p k) (t.chainRules n) s') :=
    walkRules_diverted ih _ _
  revert hW
  generalize walkRules (d.test · p) (d.ext · p) (t.walkChain d p k) (t.chainRules n) s' = W
  generalize walkRules (d.test · p) (d.ext · p) (u.walkChain d p k) (t.chainRules n) s' = W'
  rintro (⟨hl, hW'⟩ | ⟨hl, rfl⟩)
  · -- the tables have parted before the end of the chain
    refine .inl ⟨?_, ?_⟩
    · rw [Walk.through]
      exact List.mem_append_left _ (List.mem_cons_of_mem _ hl)
    · rw [Walk.through, Walk.atEnd, hW']
      exact hW'
  · by_cases hend : W'.outcome = .ended
    · refine .inl ⟨by simp [Walk.through, hend], ?_⟩
      rw [Walk.atEnd_of_ended hend]
      exact hdec k _
    · refine .inr ⟨by simp [Walk.through, hend, hl], ?_⟩
      rw [Walk.atEnd_of_ne hend]

end Table

end Netfilter
