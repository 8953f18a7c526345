import PrivacyGuard.Effect.Machine
import Mathlib.Logic.Function.Basic

set_option autoImplicit false

/-! # A shared variable that threads rebind for a while

Each thread saves the value of one shared variable, installs a value of its own, and in the end
restores what it has saved. There is no lock: the threads take their steps in any order. The
variable is steady if no thread finds the value from before them all while it works under its own,
and if that value is back whenever no thread is on the way; `steady_iff` says which restores a run
has to avoid for that. -/

namespace Effect.Rebind

variable {κ V : Type}

/-- How far a thread has come, with the value it has saved. -/
inductive Phase (V : Type)
  | ready
  | saved (old : V)
  | inside (old : V)
  | leaving (old : V)
  | finished

/-- The thread is on the way. -/
def Phase.Busy : Phase V → Prop
  | ready | finished => False
  | _ => True

inductive Act (κ : Type)
  | save (t : κ)
  | install (t : κ)
  | leave (t : κ)
  | restore (t : κ)

structure Shared (κ V : Type) where
  value : V
  phase : κ → Phase V

section

variable [DecidableEq κ] (own : κ → V)

def step (s : Shared κ V) : Act κ → Option (Shared κ V)
  | .save t =>
      match s.phase t with
      | .ready => some { s with phase := Function.update s.phase t (.saved s.value) }
      | _ => none
  | .install t =>
      match s.phase t with
      | .saved old => some ⟨own t, Function.update s.phase t (.inside old)⟩
      | _ => none
  | .leave t =>
      match s.phase t with
      | .inside old => some { s with phase := Function.update s.phase t (.leaving old) }
      | _ => none
  | .restore t =>
      match s.phase t with
      | .leaving old => some ⟨old, Function.update s.phase t .finished⟩
      | _ => none

/-- The threads start with the value `home`, and `t` installs `own t`. -/
def machine (home : V) : Machine (Shared κ V) (Act κ) := ⟨⟨home, fun _ => .ready⟩, step own⟩

variable {own} {s s' : Shared κ V} {t : κ}

/-! ## What a step does -/

theorem save_inv (h : step own s (.save t) = some s') :
    s.phase t = .ready ∧ s' = { s with phase := Function.update s.phase t (.saved s.value) } := by
  rw [step] at h
  split at h
  · exact ⟨by assumption, (Option.some.inj h).symm⟩
  · cases h

theorem install_inv (h : step own s (.install t) = some s') :
    ∃ old, s.phase t = .saved old ∧
      s' = ⟨own t, Function.update s.phase t (.inside old)⟩ := by
  rw [step] at h
  split at h
  · exact ⟨_, by assumption, (Option.some.inj h).symm⟩
  · cases h

theorem leave_inv (h : step own s (.leave t) = some s') :
    ∃ old, s.phase t = .inside old ∧
      s' = { s with phase := Function.update s.phase t (.leaving old) } := by
  rw [step] at h
  split at h
  · exact ⟨_, by assumption, (Option.some.inj h).symm⟩
  · cases h

theorem restore_inv (h : step own s (.restore t) = some s') :
    ∃ old, s.phase t = .leaving old ∧ s' = ⟨old, Function.update s.phase t .finished⟩ := by
  rw [step] at h
  split at h
  · exact ⟨_, by assumption, (Option.some.inj h).symm⟩
  · cases h

end

/-! ## Steadiness -/

/-- No thread is on the way. -/
def Shared.Quiet (s : Shared κ V) : Prop := ∀ t, ¬ (s.phase t).Busy

structure Steady (home : V) (s : Shared κ V) : Prop where
  inside : ∀ t old, s.phase t = .inside old → s.value ≠ home
  quiet : s.Quiet → s.value = home

/-- A thread restores `home` only when no other is inside, and another value only when some other
is on the way. -/
def Allowed (home : V) (s : Shared κ V) : Act κ → Prop
  | .restore t => ∀ old, s.phase t = .leaving old →
      (old = home → ∀ t' old', s.phase t' ≠ .inside old') ∧
      (old ≠ home → ∃ t', t' ≠ t ∧ (s.phase t').Busy)
  | _ => True

variable [DecidableEq κ] {own : κ → V} {home : V} {s s' : Shared κ V} {a : Act κ}

theorem steady_init : Steady home (machine (κ := κ) own home).init :=
  ⟨by rintro _ _ ⟨⟩, fun _ => rfl⟩

/-- A thread that is on the way after its step. -/
theorem not_quiet_update {t : κ} {p : Phase V} (hp : p.Busy) {v : V} :
    ¬ Shared.Quiet ⟨v, Function.update s.phase t p⟩ := by
  intro h
  refine h t ?_
  change (Function.update s.phase t p t).Busy
  rw [Function.update_self]
  exact hp

/-- A thread that is inside, where the one that has moved is not. -/
theorem inside_of_update {t t' : κ} {p : Phase V} {old : V} (hp : ∀ old, p ≠ .inside old)
    (h : Function.update s.phase t p t' = .inside old) : s.phase t' = .inside old := by
  obtain rfl | hne := eq_or_ne t' t
  · rw [Function.update_self] at h
    exact absurd h (hp old)
  · rwa [Function.update_of_ne hne] at h

theorem Steady.step (hown : ∀ t, own t ≠ home) (hs : Steady home s) (ha : Allowed home s a)
    (h : Rebind.step own s a = some s') : Steady home s' := by
  cases a with
  | save t =>
      obtain ⟨-, rfl⟩ := save_inv h
      refine ⟨fun t' old ht' => hs.inside t' old (inside_of_update (by rintro _ ⟨⟩) ht'),
        fun hq => absurd hq (not_quiet_update (p := .saved s.value) trivial)⟩
  | install t =>
      obtain ⟨old, -, rfl⟩ := install_inv h
      exact ⟨fun _ _ _ => hown t, fun hq => absurd hq (not_quiet_update (p := .inside old) trivial)⟩
  | leave t =>
      obtain ⟨old, -, rfl⟩ := leave_inv h
      refine ⟨fun t' old ht' => hs.inside t' old (inside_of_update (by rintro _ ⟨⟩) ht'),
        fun hq => absurd hq (not_quiet_update (p := .leaving old) trivial)⟩
  | restore t =>
      obtain ⟨old, ht, rfl⟩ := restore_inv h
      obtain ⟨hhome, hother⟩ := ha old ht
      refine ⟨fun t' old' ht' hold => ?_, fun hq => not_not.mp fun hold => ?_⟩
      · exact hhome hold t' old' (inside_of_update (by rintro _ ⟨⟩) ht')
      · -- some other thread is on the way, and still is
        obtain ⟨t', hne, hbusy⟩ := hother hold
        refine hq t' ?_
        change (Function.update s.phase t .finished t').Busy
        rwa [Function.update_of_ne hne]

/-- A restore that is not allowed shows in the state after it. -/
theorem allowed_of_steady (h : Rebind.step own s a = some s') (hs' : Steady home s') :
    Allowed home s a := by
  cases a with
  | restore t =>
      obtain ⟨old, ht, rfl⟩ := restore_inv h
      intro old₁ hold₁
      obtain rfl : old = old₁ := Phase.leaving.inj (ht.symm.trans hold₁)
      have hne : ∀ {t' p}, s.phase t' = p → p ≠ .leaving old → t' ≠ t := by
        rintro t' p hp hp' rfl
        exact hp' (hp.symm.trans ht)
      refine ⟨fun hhome t' old' ht' => ?_, fun hhome => ?_⟩
      · refine hs'.inside t' old' ?_ hhome
        exact (Function.update_of_ne (hne ht' (by rintro ⟨⟩)) _ _).trans ht'
      · by_contra hnone
        refine hhome (hs'.quiet fun t' hbusy => ?_)
        obtain rfl | ht' := eq_or_ne t' t
        · change (Function.update s.phase t' .finished t').Busy at hbusy
          rw [Function.update_self] at hbusy
          exact hbusy
        · change (Function.update s.phase t .finished t').Busy at hbusy
          rw [Function.update_of_ne ht'] at hbusy
          exact hnone ⟨t', ht', hbusy⟩
  | _ => trivial

/-- **When a run is steady**, whatever the order of its steps. -/
theorem steady_iff (hown : ∀ t, own t ≠ home) {as : List (Act κ)}
    (hrun : (machine own home).run as = some s) :
    (machine own home).Always (Steady home) as ↔ (machine own home).Each (Allowed home) as :=
  ⟨Machine.each_of_always (fun _ _ _ h hs' => allowed_of_steady h hs') hrun,
    Machine.always_of_each steady_init fun _ _ _ hs ha h => hs.step hown ha h⟩

end Effect.Rebind
