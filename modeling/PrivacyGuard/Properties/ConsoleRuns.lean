import PrivacyGuard.Model.Console

set_option autoImplicit false

/-! # Actions in the background of the GUI

What an action prints goes wherever `sys.stdout` points at that moment, and `sys.stdout` ends up
as the last restore leaves it. Both are right exactly if `sys.stdout` is steady along the run. -/

namespace PrivacyGuard.Gui

open Effect

/-- All that the actions have said is in the queue; and if no action is under way, `sys.stdout`
is what it was before the first one. -/
structure Intact (c : Console) : Prop where
  logged : c.logQ = c.output
  restored : c.streams.Quiet → c.streams.value = .original

/-! ## Printing -/

namespace Console

variable {c : Console} {text : String}

theorem write_streams (f : Stream) : (c.write text f).streams = c.streams := by
  cases f with
  | original => rfl
  | redirector t =>
      rw [write]
      split <;> rfl

theorem write_output (f : Stream) : (c.write text f).output = c.output := by
  cases f with
  | original => rfl
  | redirector t =>
      rw [write]
      split <;> rfl

theorem print_output : (c.print text).output = c.output ++ pieces text :=
  congrArg (· ++ pieces text) ((write_output _).trans (write_output _))

theorem print_streams : (c.print text).streams = c.streams :=
  (write_streams _).trans (write_streams _)

theorem write_redirector_logQ (t : Nat) :
    (c.write text (.redirector t)).logQ = c.logQ ++ [text].filter (· ≠ "") := by
  rw [write]
  split_ifs with h <;> simp [h]

/-- What is printed to a redirector is put into the queue. -/
theorem print_logQ {t : Nat} (h : c.streams.value = .redirector t) :
    (c.print text).logQ = c.logQ ++ pieces text := by
  rw [print, h]
  change ((c.write text (.redirector t)).write "\n" (.redirector t)).logQ = _
  rw [write_redirector_logQ, write_redirector_logQ, List.append_assoc, ← List.filter_append]
  rfl

/-- What is printed to the original stream is not. -/
theorem print_logQ_original (h : c.streams.value = .original) :
    (c.print text).logQ = c.logQ := by
  rw [print, h]
  rfl

theorem pieces_ne_nil : pieces text ≠ [] :=
  List.ne_nil_of_mem (List.mem_filter.mpr
    ⟨List.mem_cons_of_mem _ List.mem_cons_self, by decide⟩)

end Console

/-! ## Steps -/

section

variable {c c' : Console} {x : Step} {a : Rebind.Act Nat} {s : Rebind.Shared Nat Stream}

theorem rebind_inv (h : c.rebind a = some c') :
    Rebind.step .redirector c.streams a = some c'.streams ∧ c'.logQ = c.logQ ∧
      c'.output = c.output := by
  obtain ⟨s, hs, rfl⟩ := Option.map_eq_some_iff.mp h
  exact ⟨hs, rfl, rfl⟩

theorem print_inv {t : Nat} {text : String} (h : c.step (.print t text) = some c') :
    (∃ old, c.streams.phase t = .inside old) ∧ c' = c.print text := by
  rw [Console.step] at h
  split at h
  · exact ⟨⟨_, by assumption⟩, (Option.some.inj h).symm⟩
  · cases h

theorem report_streams (e : Option String) : (c.report e).streams = c.streams := by
  cases e <;> rfl

theorem report_logged (e : Option String) (hc : c.logQ = c.output) :
    (c.report e).logQ = (c.report e).output := by
  cases e with
  | none => exact hc
  | some e => exact congrArg (· ++ [_]) hc

/-- A step other than a `print` is one of `sys.stdout`, and loses nothing. -/
theorem step_act (hx : x.act? = some a) (h : c.step x = some c') :
    Rebind.step .redirector c.streams a = some c'.streams ∧
      (c.logQ = c.output → c'.logQ = c'.output) := by
  have hrebind : ∀ a' c', c.rebind a' = some c' → c.logQ = c.output → c'.logQ = c'.output := by
    intro a' c' h hc
    obtain ⟨-, hlog, hout⟩ := rebind_inv h
    rw [hlog, hout, hc]
  cases x with
  | print t text => cases hx
  | finish t e =>
      cases hx
      obtain ⟨c₁, hc₁, rfl⟩ := Option.map_eq_some_iff.mp h
      rw [report_streams]
      exact ⟨(rebind_inv hc₁).1, fun hc => report_logged e (hrebind _ _ hc₁ hc)⟩
  | save t | redirect t | restore t =>
      cases hx
      exact ⟨(rebind_inv h).1, hrebind _ _ h⟩

/-- The step that does this to `sys.stdout`. -/
def Step.ofAct : Rebind.Act Nat → Step
  | .save t => .save t
  | .install t => .redirect t
  | .leave t => .finish t none
  | .restore t => .restore t

theorem act?_ofAct (a : Rebind.Act Nat) : (Step.ofAct a).act? = some a := by
  cases a <;> rfl

theorem step_ofAct (h : Rebind.step .redirector c.streams a = some s) :
    ∃ c', c.step (.ofAct a) = some c' ∧ c'.streams = s := by
  have hrebind : c.rebind a = some { c with streams := s } :=
    Option.map_eq_some_iff.mpr ⟨s, h, rfl⟩
  refine ⟨{ c with streams := s }, ?_, rfl⟩
  cases a with
  | leave t => exact Option.map_eq_some_iff.mpr ⟨_, hrebind, rfl⟩
  | _ => exact hrebind

end

/-! ## Runs -/

/-- What a run does to `sys.stdout`. -/
def acts (xs : List Step) : List (Rebind.Act Nat) := xs.filterMap Step.act?

theorem acts_append (xs ys : List Step) : acts (xs ++ ys) = acts xs ++ acts ys :=
  List.filterMap_append

theorem acts_ofAct (as : List (Rebind.Act Nat)) : acts (as.map Step.ofAct) = as := by
  induction as with
  | nil => rfl
  | cons a as ih =>
      rw [List.map_cons, acts, List.filterMap_cons_some (act?_ofAct a)]
      exact congrArg (a :: ·) ih

theorem run_acts {xs : List Step} {c : Console} (h : console.run xs = some c) :
    stdout.run (acts xs) = some c.streams := by
  induction xs using List.reverseRecOn generalizing c with
  | nil =>
      obtain rfl := Option.some.inj h
      rfl
  | append_singleton xs x ih =>
      obtain ⟨c₁, hc₁, hx⟩ := Machine.step_of_run h
      rw [acts_append]
      cases hact : x.act? with
      | none =>
          obtain ⟨t, text, rfl⟩ : ∃ t text, x = .print t text := by
            cases x with
            | print t text => exact ⟨t, text, rfl⟩
            | _ => cases hact
          obtain ⟨-, rfl⟩ := print_inv hx
          rw [Console.print_streams]
          exact (congrArg stdout.run (List.append_nil _)).trans (ih hc₁)
      | some a =>
          rw [acts, acts, List.filterMap_cons_some hact, List.filterMap_nil, Machine.run_snoc,
            ← acts, ih hc₁]
          exact (step_act hact hx).1

/-- A run can go on as `sys.stdout` can. -/
theorem run_ofAct {xs : List Step} {c : Console} (h : console.run xs = some c)
    {as : List (Rebind.Act Nat)} {s : Rebind.Shared Nat Stream}
    (has : stdout.run (acts xs ++ as) = some s) :
    ∃ c', console.run (xs ++ as.map .ofAct) = some c' ∧ c'.streams = s := by
  induction as using List.reverseRecOn generalizing s with
  | nil =>
      rw [List.append_nil, run_acts h] at has
      exact ⟨c, by rw [List.map_nil, List.append_nil, h], Option.some.inj has⟩
  | append_singleton as a ih =>
      rw [← List.append_assoc] at has
      obtain ⟨s₁, hs₁, ha⟩ := Machine.step_of_run has
      obtain ⟨c₁, hc₁, rfl⟩ := ih hs₁
      obtain ⟨c₂, hc₂, hs₂⟩ := step_ofAct ha
      refine ⟨c₂, ?_, hs₂⟩
      rw [List.map_append, ← List.append_assoc, List.map_singleton, Machine.run_snoc, hc₁]
      exact hc₂

/-- While `sys.stdout` is steady nothing is lost. -/
theorem logged_of_steady {xs : List Step}
    (h : console.Each (fun c _ => Rebind.Steady .original c.streams) xs) :
    console.Always (fun c => c.logQ = c.output) xs := by
  refine Machine.always_of_each rfl (fun c x c' hc hsteady hx => ?_) h
  cases hact : x.act? with
  | some a => exact (step_act hact hx).2 hc
  | none =>
      cases x with
      | print t text =>
          obtain ⟨⟨old, hin⟩, rfl⟩ := print_inv hx
          cases hvalue : c.streams.value with
          | original => exact absurd hvalue (hsteady.inside t old hin)
          | redirector t' => rw [Console.print_logQ hvalue, Console.print_output, hc]
      | _ => cases hact

/-- A text that an action prints while `sys.stdout` is the original stream is lost. -/
theorem not_logged_print {c : Console} (hvalue : c.streams.value = .original)
    (hc : c.logQ = c.output) (text : String) : (c.print text).logQ ≠ (c.print text).output := by
  rw [Console.print_logQ_original hvalue, Console.print_output, hc]
  intro h
  exact Console.pieces_ne_nil (List.self_eq_append_right.mp h)

theorem own_ne_original (t : Nat) : Stream.redirector t ≠ .original := by
  rintro ⟨⟩

/-- The console stays intact, whatever the actions print on the way, exactly if they take their
steps in such an order that no action restores the original stream while another is running, and
none that restores a redirector is the last one under way. -/
theorem intact_iff {as : List (Rebind.Act Nat)} {s : Rebind.Shared Nat Stream}
    (hrun : stdout.run as = some s) :
    (∀ xs c, console.run xs = some c → acts xs = as → console.Always Intact xs) ↔
      stdout.Each (Rebind.Allowed .original) as := by
  refine Iff.trans ?_ (Rebind.steady_iff own_ne_original hrun)
  constructor
  · rintro h pre s₁ ⟨post, rfl⟩ hs₁
    obtain ⟨c₁, hc₁, rfl⟩ : ∃ c₁, console.run (pre.map .ofAct) = some c₁ ∧ c₁.streams = s₁ :=
      run_ofAct (show console.run [] = _ from rfl) hs₁
    -- any run that begins so can go on to the end
    have hintact : ∀ xs c, console.run xs = some c → acts xs = pre → Intact c := by
      rintro xs c hc rfl
      obtain ⟨c', hc', -⟩ := run_ofAct hc hrun
      refine h _ c' hc' ?_ xs c (List.prefix_append _ _) hc
      rw [acts_append, acts_ofAct]
    have hc := hintact _ c₁ hc₁ (acts_ofAct pre)
    refine ⟨fun t old hin hvalue => ?_, hc.restored⟩
    have hprint : console.run (pre.map .ofAct ++ [.print t ""]) = some (c₁.print "") := by
      rw [Machine.run_snoc, hc₁]
      change c₁.step (.print t "") = _
      rw [Console.step, hin]
    refine not_logged_print hvalue hc.logged "" (hintact _ _ hprint ?_).logged
    rw [acts_append, acts_ofAct]
    exact List.append_nil _
  · rintro h xs c - rfl pre c₁ hpre hc₁
    have hsteady : ∀ pre c, pre <+: xs → console.run pre = some c →
        Rebind.Steady .original c.streams := by
      rintro pre c ⟨post, rfl⟩ hc
      rw [acts_append] at h
      exact h _ _ (List.prefix_append _ _) (run_acts hc)
    refine ⟨logged_of_steady (fun pre x c hpre hc => ?_) pre c₁ hpre hc₁,
      (hsteady pre c₁ hpre hc₁).quiet⟩
    exact hsteady pre c ((List.prefix_append _ _).trans hpre) hc

/-- The second action begins and ends while the first one is running. -/
def nested : List (Rebind.Act Nat) :=
  [.save 0, .install 0, .save 1, .install 1, .leave 1, .restore 1, .leave 0, .restore 0]

/-- Both print on the way. -/
def nestedPrinting : List Step :=
  [.save 0, .redirect 0, .print 0 "[*] Full start.", .save 1, .redirect 1,
    .print 1 "[+] IPv6 is blocked.", .finish 1 none, .restore 1, .print 0 "[+] Started.",
    .finish 0 none, .restore 0]

theorem intact_iff_nested : console.Always Intact nestedPrinting := by
  obtain ⟨c, hrun⟩ : ∃ c, console.run nestedPrinting = some c := ⟨_, rfl⟩
  have hsteps : stdout.run nested = some _ := rfl
  refine (intact_iff hsteps).mpr (Machine.each_of_forall_take fun n hn s hs => ?_)
    nestedPrinting c hrun rfl
  match n, hn, hs with
  | 0, _, _ | 1, _, _ | 2, _, _ | 3, _, _ | 4, _, _ | 6, _, _ => trivial
  | 5, _, hs =>
      -- the second action restores the redirector of the first, which is under way
      cases hs
      rintro old ⟨⟩
      exact ⟨fun h => absurd h (own_ne_original 0), fun _ => ⟨0, by decide, trivial⟩⟩
  | 7, _, hs =>
      -- the first action restores the original stream, and is the last one
      cases hs
      rintro old ⟨⟩
      refine ⟨fun _ t old ht => ?_, fun h => absurd rfl h⟩
      match t, ht with
      | 0, ht | 1, ht | _ + 2, ht => cases ht
  | n + 8, hn, _ => exact absurd hn (by simp [nested])

/-- The first action ends while the second one is running, which then prints. -/
def overlapping : List Step :=
  [.save 0, .redirect 0, .save 1, .redirect 1, .finish 0 none, .restore 0,
    .print 1 "[+] Anonymity mode is on.", .finish 1 none, .restore 1]

/-- The text is lost, and `sys.stdout` stays the redirector of the first action. -/
theorem not_intact :
    (∃ c, console.run overlapping = some c ∧ c.output = ["[+] Anonymity mode is on.", "\n"] ∧
      c.logQ = [] ∧ c.streams.value = .redirector 0) ∧
    ¬ console.Always Intact overlapping := by
  refine ⟨⟨_, rfl, by decide, rfl, rfl⟩, fun h => ?_⟩
  exact absurd (h _ _ List.prefix_rfl rfl).logged (by decide)

end PrivacyGuard.Gui
