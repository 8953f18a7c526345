import PrivacyGuard.Effect.Machine
import PrivacyGuard.Model.Actions

set_option autoImplicit false

/-! # Hardening over a run

Calls of `enable_stealth_sysctls` and `disable_stealth_sysctls` one after the other, in which any
read and any write of a sysctl may fail. What an enable has set stays set until it is disabled,
and a disable writes back what the enable has read. -/

namespace PrivacyGuard.Hardening

open Effect

/-- Which reads and which writes of a call succeed, and the time. -/
structure Outcome where
  reads : SysctlKey → Bool
  writes : SysctlKey → Bool
  now : String

namespace Outcome

def choice (o : Outcome) : Op → World → Choice
  | .sysctlRead k, _ => { ok := o.reads k }
  | .sysctlWrite k _, _ => { ok := o.writes k }
  | _, _ => { text := o.now }

section

variable {α : Type} (o : Outcome)

def run (p : Proc α) (w : World) : α × World := p.run (machine anything) o.choice w

def events (p : Proc α) (w : World) : List (Event sig) := p.events (machine anything) o.choice w

/-- The sysctls after some writes. -/
def write (ks : List (SysctlKey × Int)) (f : SysctlKey → Int) : SysctlKey → Int :=
  ks.foldl (fun f kv => if o.writes kv.1 then Function.update f kv.1 kv.2 else f) f

/-- What is read of some sysctls. -/
def record (ks : List (SysctlKey × Int)) (f : SysctlKey → Int) : List (SysctlKey × Option Int) :=
  ks.map fun kv => (kv.1, if o.reads kv.1 then some (f kv.1) else none)

end

variable {o : Outcome} {ks : List (SysctlKey × Int)} {f : SysctlKey → Int}

theorem write_cons (k : SysctlKey) (v : Int) :
    o.write ((k, v) :: ks) f = o.write ks (if o.writes k then Function.update f k v else f) := rfl

theorem write_of_not_mem {k : SysctlKey} (hk : k ∉ ks.map Prod.fst) : o.write ks f k = f k := by
  induction ks generalizing f with
  | nil => rfl
  | cons kv ks ih =>
      rw [List.map_cons, List.mem_cons, not_or] at hk
      rw [write_cons, ih hk.2]
      split
      · exact Function.update_of_ne hk.1 _ _
      · rfl

theorem write_of_mem {k : SysctlKey} {v : Int} (hks : (ks.map Prod.fst).Nodup)
    (h : (k, v) ∈ ks) : o.write ks f k = if o.writes k then v else f k := by
  induction ks generalizing f with
  | nil => exact absurd h List.not_mem_nil
  | cons kv ks ih =>
      rw [List.map_cons, List.nodup_cons] at hks
      obtain rfl | h := List.mem_cons.mp h
      · rw [write_cons, write_of_not_mem hks.1]
        split
        · exact Function.update_self k v f
        · rfl
      · have hne : k ≠ kv.1 := fun hk => hks.1 (List.mem_map.mpr ⟨(k, v), h, hk⟩)
        rw [write_cons, ih hks.2 h]
        congr 1
        split
        · exact Function.update_of_ne hne _ _
        · rfl

end Outcome

/-! ## What a call does -/

def loadEvent (sv : Saved) : Event sig := ⟨.load, sv⟩

def updateEvent (kwargs : List Field) : Event sig := ⟨.update kwargs, ()⟩

def readEvent (k : SysctlKey) (v : Option Int) : Event sig := ⟨.sysctlRead k, v⟩

def writeEvent (k : SysctlKey) (v : Int) (ok : Bool) : Event sig := ⟨.sysctlWrite k v, ok⟩

/-- The values to write back. -/
def recorded (bs : List (SysctlKey × Option Int)) : List (SysctlKey × Int) :=
  bs.filterMap fun kv => kv.2.map (Prod.mk kv.1)

section

variable (o : Outcome) (w : World)

theorem run_bind {α β : Type} (p : Proc α) (f : α → Proc β) :
    o.run (p >>= f) w = o.run (f (o.run p w).1) (o.run p w).2 :=
  Prog.run_bind _ _ p f w

theorem events_bind {α β : Type} (p : Proc α) (f : α → Proc β) :
    o.events (p >>= f) w = o.events p w ++ o.events (f (o.run p w).1) (o.run p w).2 :=
  Prog.events_bind _ _ p f w

theorem run_readSysctls (ks : List (SysctlKey × Int)) :
    o.run (readSysctls ks) w = (o.record ks w.sysctl, w) := by
  induction ks with
  | nil => rfl
  | cons kv ks ih =>
      rw [readSysctls, run_bind, run_bind]
      exact congrArg (fun r => ((kv.1, if o.reads kv.1 then _ else none) :: r.1, r.2)) ih

theorem events_readSysctls (ks : List (SysctlKey × Int)) :
    o.events (readSysctls ks) w =
      (o.record ks w.sysctl).map fun kv => readEvent kv.1 kv.2 := by
  induction ks with
  | nil => rfl
  | cons kv ks ih =>
      rw [readSysctls, events_bind, events_bind]
      exact congrArg (readEvent kv.1 (if o.reads kv.1 then _ else none) :: ·)
        ((List.append_nil _).trans ih)

theorem run_sysctlWrite (k : SysctlKey) (v : Int) :
    o.run (sysctlWrite k v) w = (o.writes k, { w with sysctl := o.write [(k, v)] w.sysctl }) := by
  cases h : o.writes k <;>
    simp [Outcome.run, sysctlWrite, Prog.op, Prog.run, machine, exec, Outcome.choice,
      Outcome.write, h]

theorem events_sysctlWrite (k : SysctlKey) (v : Int) :
    o.events (sysctlWrite k v) w = [writeEvent k v (o.writes k)] := by
  cases h : o.writes k <;>
    simp [Outcome.events, sysctlWrite, Prog.op, Prog.events, machine, exec, Outcome.choice,
      writeEvent, h]

theorem run_setSysctls (ks : List (SysctlKey × Int)) (b : Bool) :
    o.run (setSysctls ks b) w =
      (b && ks.all fun kv => o.writes kv.1, { w with sysctl := o.write ks w.sysctl }) := by
  induction ks generalizing b w with
  | nil =>
      rw [List.all_nil, Bool.and_true]
      rfl
  | cons kv ks ih =>
      rw [setSysctls, run_bind, run_sysctlWrite, List.all_cons, ← Bool.and_assoc]
      exact ih _ _

theorem events_setSysctls (ks : List (SysctlKey × Int)) (b : Bool) :
    o.events (setSysctls ks b) w = ks.map fun kv => writeEvent kv.1 kv.2 (o.writes kv.1) := by
  induction ks generalizing b w with
  | nil => rfl
  | cons kv ks ih =>
      rw [setSysctls, events_bind, events_sysctlWrite]
      exact congrArg (_ :: ·) (ih _ _)

theorem run_resetSysctls (bs : List (SysctlKey × Option Int)) :
    o.run (resetSysctls bs) w = ((), { w with sysctl := o.write (recorded bs) w.sysctl }) := by
  induction bs generalizing w with
  | nil => rfl
  | cons kv bs ih =>
      obtain ⟨k, _ | v⟩ := kv
      · exact ih w
      · rw [resetSysctls, run_bind, run_sysctlWrite]
        exact ih _

theorem events_resetSysctls (bs : List (SysctlKey × Option Int)) :
    o.events (resetSysctls bs) w =
      (recorded bs).map fun kv => writeEvent kv.1 kv.2 (o.writes kv.1) := by
  induction bs generalizing w with
  | nil => rfl
  | cons kv bs ih =>
      obtain ⟨k, _ | v⟩ := kv
      · exact ih w
      · rw [resetSysctls, events_bind, events_sysctlWrite]
        exact congrArg (_ :: ·) (ih _)

/-- What both functions refuse to work in. -/
abbrev Unfit (env : Environment) : Prop :=
  (env.termux || !env.root || !env.hasSysctl) = true

variable {env : Environment} {w}

theorem enable_of_unfit (henv : Unfit env) :
    o.run (enableStealthSysctls env) w = (false, w) ∧
      o.events (enableStealthSysctls env) w = [] := by
  rw [enableStealthSysctls, if_pos henv]
  exact ⟨rfl, rfl⟩

theorem disable_of_unfit (henv : Unfit env) :
    o.run (disableStealthSysctls env) w = ((), w) ∧
      o.events (disableStealthSysctls env) w = [] := by
  rw [disableStealthSysctls, if_pos henv]
  exact ⟨rfl, rfl⟩

theorem enable_of_applied (henv : ¬ Unfit env) (hw : w.saved.stealthSysctls = true) :
    o.run (enableStealthSysctls env) w = (true, w) ∧
      o.events (enableStealthSysctls env) w = [loadEvent w.saved] := by
  rw [enableStealthSysctls, if_neg henv, run_bind, events_bind]
  change o.run (if w.saved.stealthSysctls then _ else _) w = _ ∧
    _ ++ o.events (if w.saved.stealthSysctls then _ else _) w = _
  rw [if_pos hw]
  exact ⟨rfl, rfl⟩

theorem disable_of_off (henv : ¬ Unfit env) (hw : w.saved.stealthSysctls = false) :
    o.run (disableStealthSysctls env) w = ((), w) ∧
      o.events (disableStealthSysctls env) w = [loadEvent w.saved] := by
  rw [disableStealthSysctls, if_neg henv, run_bind, events_bind]
  change o.run (if !w.saved.stealthSysctls then _ else _) w = _ ∧
    _ ++ o.events (if !w.saved.stealthSysctls then _ else _) w = _
  rw [hw]
  exact ⟨rfl, rfl⟩

/-- The state saved by an enable. -/
def enabledState (sv : Saved) (f : SysctlKey → Int) : Saved :=
  sv.update [.stealthSysctls true, .stealthSysctlsBackup (some (o.record stealthSysctls f))] o.now

/-- The state saved by a disable. -/
def disabledState (sv : Saved) : Saved :=
  sv.update [.stealthSysctls false, .stealthSysctlsBackup none] o.now

theorem run_enable (henv : ¬ Unfit env) (hw : w.saved.stealthSysctls = false) :
    o.run (enableStealthSysctls env) w =
      (stealthSysctls.all fun kv => o.writes kv.1,
        { w with
          saved := enabledState o w.saved w.sysctl
          sysctl := o.write stealthSysctls w.sysctl }) := by
  rw [enableStealthSysctls, if_neg henv, run_bind]
  change o.run (if w.saved.stealthSysctls then _ else _) w = _
  rw [hw, if_neg Bool.false_ne_true, run_bind, run_readSysctls, run_bind, run_setSysctls,
    Bool.true_and]
  rfl

theorem events_enable (henv : ¬ Unfit env) (hw : w.saved.stealthSysctls = false) :
    ∃ kwargs, o.events (enableStealthSysctls env) w =
      loadEvent w.saved :: ((o.record stealthSysctls w.sysctl).map
        (fun kv => readEvent kv.1 kv.2) ++ (stealthSysctls.map
          (fun kv => writeEvent kv.1 kv.2 (o.writes kv.1)) ++ [updateEvent kwargs])) := by
  rw [enableStealthSysctls, if_neg henv, events_bind]
  change ∃ _, _ ++ o.events (if w.saved.stealthSysctls then _ else _) w = _
  rw [hw, if_neg Bool.false_ne_true, events_bind, events_readSysctls, events_bind,
    events_setSysctls]
  exact ⟨_, rfl⟩

theorem run_disable (henv : ¬ Unfit env) (hw : w.saved.stealthSysctls = true) :
    o.run (disableStealthSysctls env) w =
      ((), { w with
        saved := disabledState o w.saved
        sysctl := o.write (recorded (w.saved.stealthSysctlsBackup.getD [])) w.sysctl }) := by
  rw [disableStealthSysctls, if_neg henv, run_bind]
  change o.run (if !w.saved.stealthSysctls then _ else _) w = _
  rw [hw, Bool.not_true, if_neg Bool.false_ne_true, run_bind]
  change o.run (resetSysctls (w.saved.stealthSysctlsBackup.getD []) >>= _) w = _
  rw [run_bind, run_resetSysctls]
  rfl

theorem events_disable (henv : ¬ Unfit env) (hw : w.saved.stealthSysctls = true) :
    ∃ kwargs, o.events (disableStealthSysctls env) w =
      loadEvent w.saved :: loadEvent w.saved ::
        ((recorded (w.saved.stealthSysctlsBackup.getD [])).map
          (fun kv => writeEvent kv.1 kv.2 (o.writes kv.1)) ++ [updateEvent kwargs]) := by
  rw [disableStealthSysctls, if_neg henv, events_bind]
  change ∃ _, _ ++ o.events (if !w.saved.stealthSysctls then _ else _) w = _
  rw [hw, Bool.not_true, if_neg Bool.false_ne_true, events_bind]
  change ∃ _, _ ++ (_ ++ o.events (resetSysctls (w.saved.stealthSysctlsBackup.getD []) >>= _)
    w) = _
  rw [events_bind, events_resetSysctls]
  exact ⟨_, rfl⟩

end

/-! ## What its trace says about a call -/

/-- The key could not be read. -/
def Unread (tr : List (Event sig)) (k : SysctlKey) : Prop := readEvent k none ∈ tr

/-- The key could not be written. -/
def Unwritten (tr : List (Event sig)) (k : SysctlKey) : Prop := ∃ v, writeEvent k v false ∈ tr

theorem exists_stealthSysctls (k : SysctlKey) : ∃ v, (k, v) ∈ stealthSysctls := by
  have h : k ∈ stealthSysctls.map Prod.fst := by cases k <;> decide
  obtain ⟨⟨_, v⟩, hv, rfl⟩ := List.mem_map.mp h
  exact ⟨v, hv⟩

theorem nodup_stealthSysctls : (stealthSysctls.map Prod.fst).Nodup := by decide

section

variable {o : Outcome} {env : Environment} {w : World} {k : SysctlKey}

/-- In any program. -/
theorem writes_of_unwritten {α : Type} {p : Proc α} (h : Unwritten (o.events p w) k) :
    o.writes k = false := by
  obtain ⟨v, hv⟩ := h
  induction p generalizing w with
  | ret a => exact absurd hv List.not_mem_nil
  | call op next ih =>
      obtain heq | hv := List.mem_cons.mp hv
      · obtain ⟨rfl, hok⟩ := Sigma.mk.inj_iff.mp heq
        have hrun : false = (o.run (sysctlWrite k v) w).1 := eq_of_heq hok
        rw [run_sysctlWrite] at hrun
        exact hrun.symm
      · exact ih _ hv

theorem unread_enable (henv : ¬ Unfit env) (hw : w.saved.stealthSysctls = false)
    (hk : o.reads k = false) : Unread (o.events (enableStealthSysctls env) w) k := by
  obtain ⟨kwargs, h⟩ := events_enable o henv hw
  obtain ⟨v, hv⟩ := exists_stealthSysctls k
  rw [Unread, h]
  refine List.mem_cons_of_mem _ (List.mem_append_left _ (List.mem_map.mpr ⟨(k, none), ?_, rfl⟩))
  exact List.mem_map.mpr ⟨(k, v), hv, by rw [hk, if_neg Bool.false_ne_true]⟩

theorem unwritten_enable (henv : ¬ Unfit env) (hw : w.saved.stealthSysctls = false) :
    Unwritten (o.events (enableStealthSysctls env) w) k ↔ o.writes k = false := by
  refine ⟨writes_of_unwritten, fun hk => ?_⟩
  obtain ⟨kwargs, h⟩ := events_enable o henv hw
  obtain ⟨v, hv⟩ := exists_stealthSysctls k
  rw [Unwritten, h]
  refine ⟨v, List.mem_cons_of_mem _ (List.mem_append_right _ (List.mem_append_left _ ?_))⟩
  exact List.mem_map.mpr ⟨(k, v), hv, by rw [hk]⟩

theorem unwritten_disable {v : Int} (henv : ¬ Unfit env) (hw : w.saved.stealthSysctls = true)
    (hv : (k, v) ∈ recorded (w.saved.stealthSysctlsBackup.getD [])) (hk : o.writes k = false) :
    Unwritten (o.events (disableStealthSysctls env) w) k := by
  obtain ⟨kwargs, h⟩ := events_disable o henv hw
  rw [Unwritten, h]
  refine ⟨v, List.mem_cons_of_mem _ (List.mem_cons_of_mem _ (List.mem_append_left _ ?_))⟩
  exact List.mem_map.mpr ⟨(k, v), hv, by rw [hk]⟩

end

/-! ## What is written back -/

section

variable {o o' : Outcome} {f g : SysctlKey → Int} {k : SysctlKey}

theorem recorded_record (ks : List (SysctlKey × Int)) :
    recorded (o.record ks f) =
      (ks.filter fun kv => o.reads kv.1).map fun kv => (kv.1, f kv.1) := by
  induction ks with
  | nil => rfl
  | cons kv ks ih =>
      rw [recorded, Outcome.record, List.map_cons, List.filterMap_cons, List.filter_cons]
      split <;> simp_all [recorded, Outcome.record]

theorem mem_recorded (hk : o.reads k = true) :
    (k, f k) ∈ recorded (o.record stealthSysctls f) := by
  obtain ⟨v, hv⟩ := exists_stealthSysctls k
  rw [recorded_record]
  exact List.mem_map.mpr ⟨(k, v), List.mem_filter.mpr ⟨hv, hk⟩, rfl⟩

/-- A key that was read gets its old value if it can be written. -/
theorem write_recorded_read (hk : o.reads k = true) :
    o'.write (recorded (o.record stealthSysctls f)) g k =
      if o'.writes k then f k else g k := by
  refine Outcome.write_of_mem ?_ (mem_recorded hk)
  rw [recorded_record, List.map_map]
  exact nodup_stealthSysctls.sublist (List.filter_sublist.map _)

/-- A key that was not read keeps the value it has. -/
theorem write_recorded_unread (hk : o.reads k = false) :
    o'.write (recorded (o.record stealthSysctls f)) g k = g k := by
  refine Outcome.write_of_not_mem fun h => ?_
  rw [recorded_record, List.map_map] at h
  obtain ⟨kv, hkv, rfl⟩ := List.mem_map.mp h
  exact Bool.false_ne_true (hk.symm.trans (List.mem_filter.mp hkv).2)

end

/-! ## Runs of calls -/

inductive Call
  | enable
  | disable

/-- The call made last: what an enable answered, and whether it found the settings applied
already; or what a disable did, and whether it was refused where there were settings applied. -/
inductive Last
  | none
  | enable (found answer : Bool)
  | disable (refused : Bool) (tr : List (Event sig))

/-- The world, and what is remembered of the calls: the sysctls before the last enable that did
not find the settings applied, what it did, and what the calls after it did. -/
structure Status where
  world : World
  before : Option (SysctlKey → Int)
  applied : List (Event sig)
  since : List (Event sig)
  last : Last

variable (env : Environment)

def afterEnable (s : Status) (o : Outcome) : Status :=
  let r := o.run (enableStealthSysctls env) s.world
  let tr := o.events (enableStealthSysctls env) s.world
  if s.world.saved.stealthSysctls then
    { s with world := r.2, since := s.since ++ tr, last := .enable true r.1 }
  else
    ⟨r.2, some s.world.sysctl, tr, [], .enable false r.1⟩

def afterDisable (s : Status) (o : Outcome) : Status :=
  let r := o.run (disableStealthSysctls env) s.world
  let tr := o.events (disableStealthSysctls env) s.world
  let refused := decide (Unfit env) && s.world.saved.stealthSysctls
  { s with world := r.2, since := s.since ++ tr, last := .disable refused tr }

/-- Calls made one after the other, each in an environment of its own, the first one with nothing
saved. -/
def calls (w : World) : Machine Status (Call × Environment × Outcome) where
  init := ⟨{ w with saved := defaultState }, none, [], [], .none⟩
  step
    | s, (.enable, env, o) => some (afterEnable env s o)
    | s, (.disable, env, o) => some (afterDisable env s o)

/-- An enable that returns `True` leaves every key with its hardened value. -/
def Enforced (s : Status) : Prop :=
  ∀ found, s.last = .enable found true → ∀ kv ∈ stealthSysctls, s.world.sysctl kv.1 = kv.2

/-- A disable whose writes all succeed leaves every key as it was before the enable. -/
def Restored (s : Status) : Prop :=
  ∀ refused tr f, s.last = .disable refused tr → (∀ k, ¬ Unwritten tr k) → s.before = some f →
    ∀ k, s.world.sysctl k = f k

/-- The enable has set the key without having been able to read it. -/
def Lost (s : Status) (k : SysctlKey) : Prop :=
  Unread s.applied k ∧ ¬ Unwritten s.applied k

/-- What holds of the enables and the disables. -/
structure InForce (s : Status) : Prop where
  applied : s.last = .enable false true → ∀ kv ∈ stealthSysctls, s.world.sysctl kv.1 = kv.2
  found : s.last = .enable true true → ∀ kv ∈ stealthSysctls,
    ¬ Unwritten s.applied kv.1 → s.world.sysctl kv.1 = kv.2
  restored : ∀ tr f, s.last = .disable false tr → (∀ k, ¬ Unwritten tr k) → s.before = some f →
    ∀ k, ¬ Lost s k → ¬ Unwritten s.since k → s.world.sysctl k = f k

/-- The settings are off, and what was read of the sysctls has been written back. -/
structure Off (s : Status) : Prop where
  saved : s.world.saved.stealthSysctls = false
  writtenBack : ∀ f, s.before = some f → ∀ k, ¬ Lost s k → ¬ Unwritten s.since k →
    s.world.sysctl k = f k

/-- The settings are on, as the enable `o` over the sysctls `f` has left them. -/
structure On (s : Status) (o : Outcome) (f : SysctlKey → Int) : Prop where
  saved : s.world.saved.stealthSysctls = true
  before : s.before = some f
  backup : s.world.saved.stealthSysctlsBackup = some (o.record stealthSysctls f)
  sysctl : s.world.sysctl = o.write stealthSysctls f
  unread : ∀ k, o.reads k = false → Unread s.applied k
  unwritten : ∀ k, Unwritten s.applied k ↔ o.writes k = false

/-- Between two calls. -/
def Between (s : Status) : Prop := Off s ∨ ∃ o f, On s o f

variable {env} {s : Status} {o o' : Outcome} {f : SysctlKey → Int}

theorem hardened_of_written {kv : SysctlKey × Int} (hkv : kv ∈ stealthSysctls)
    (h : o.writes kv.1 = true) : o.write stealthSysctls f kv.1 = kv.2 :=
  (Outcome.write_of_mem nodup_stealthSysctls hkv).trans (if_pos h)

theorem afterEnable_of_unfit (hsaved : s.world.saved.stealthSysctls = false) (henv : Unfit env) :
    afterEnable env s o = ⟨s.world, some s.world.sysctl, [], [], .enable false false⟩ := by
  obtain ⟨hrun, hev⟩ := enable_of_unfit o (w := s.world) henv
  rw [afterEnable, hrun, hev, hsaved, if_neg Bool.false_ne_true]

theorem Off.enable (h : Off s) :
    Between (afterEnable env s o) ∧ InForce (afterEnable env s o) := by
  by_cases henv : Unfit env
  · rw [afterEnable_of_unfit h.saved henv]
    exact ⟨.inl ⟨h.saved, fun f hf k _ _ => congrFun (Option.some.inj hf) k⟩,
      ⟨by rintro ⟨⟩, by rintro ⟨⟩, by rintro _ _ ⟨⟩⟩⟩
  · rw [afterEnable, run_enable o henv h.saved, h.saved, if_neg Bool.false_ne_true]
    refine ⟨.inr ⟨o, s.world.sysctl, rfl, rfl, rfl, rfl,
      fun k => unread_enable henv h.saved, fun k => unwritten_enable henv h.saved⟩,
      ⟨fun hlast kv hkv => ?_, by rintro ⟨⟩, by rintro _ _ ⟨⟩⟩⟩
    have hall : (stealthSysctls.all fun kv => o.writes kv.1) = true := by injection hlast
    exact hardened_of_written hkv (List.all_eq_true.mp hall kv hkv)

theorem On.enable (h : On s o' f) :
    Between (afterEnable env s o) ∧ InForce (afterEnable env s o) := by
  have hworld : (o.run (enableStealthSysctls env) s.world).2 = s.world := by
    by_cases henv : Unfit env
    · rw [(enable_of_unfit o henv).1]
    · rw [(enable_of_applied o henv h.saved).1]
  rw [afterEnable, hworld, h.saved, if_pos rfl]
  refine ⟨.inr ⟨o', f, h.saved, h.before, h.backup, h.sysctl, h.unread, h.unwritten⟩,
    ⟨by rintro ⟨⟩, fun _ kv hkv hw => ?_, by rintro _ _ ⟨⟩⟩⟩
  refine (congrFun h.sysctl kv.1).trans (hardened_of_written hkv ?_)
  exact (Bool.not_eq_false _).mp fun hfalse => hw ((h.unwritten kv.1).mpr hfalse)

/-- Settings that are off stay off, and nothing is written. -/
theorem Off.disable (h : Off s) : Off (afterDisable env s o) := by
  have hrun : (o.run (disableStealthSysctls env) s.world).2 = s.world := by
    by_cases henv : Unfit env
    · rw [(disable_of_unfit o henv).1]
    · rw [(disable_of_off o henv h.saved).1]
  refine ⟨(congrArg (·.saved.stealthSysctls) hrun).trans h.saved, fun f hf k hlost hw => ?_⟩
  refine (congrArg (World.sysctl · k) hrun).trans (h.writtenBack f hf k hlost fun ⟨v, hv⟩ => ?_)
  exact hw ⟨v, List.mem_append_left _ hv⟩

/-- A disable that is refused changes nothing. -/
theorem On.refused (h : On s o' f) (henv : Unfit env) :
    Between (afterDisable env s o) ∧ InForce (afterDisable env s o) := by
  obtain ⟨hrun, hev⟩ := disable_of_unfit o (w := s.world) henv
  rw [afterDisable, hrun, hev, h.saved, decide_eq_true henv]
  exact ⟨.inr ⟨o', f, h.saved, h.before, h.backup, h.sysctl, h.unread, h.unwritten⟩,
    ⟨by rintro ⟨⟩, by rintro ⟨⟩, by rintro _ _ ⟨⟩⟩⟩

/-- Settings that are on are turned off, and what was read is written back. -/
theorem On.disable (h : On s o' f) (henv : ¬ Unfit env) : Off (afterDisable env s o) := by
  have hrun := run_disable o henv h.saved
  rw [h.backup, Option.getD_some] at hrun
  refine ⟨congrArg (·.2.saved.stealthSysctls) hrun, fun g hg k hlost hw => ?_⟩
  obtain rfl : f = g := Option.some.inj (h.before.symm.trans hg)
  refine (congrArg (·.2.sysctl k) hrun).trans ?_
  change o.write (recorded (o'.record stealthSysctls f)) s.world.sysctl k = f k
  cases hk : o'.reads k with
  | true =>
      rw [write_recorded_read hk, if_pos]
      refine (Bool.not_eq_false _).mp fun hfalse => hw ?_
      have hmem : (k, f k) ∈ recorded (s.world.saved.stealthSysctlsBackup.getD []) := by
        rw [h.backup]
        exact mem_recorded hk
      obtain ⟨v, hv⟩ := unwritten_disable henv h.saved hmem hfalse
      exact ⟨v, List.mem_append_right _ hv⟩
  | false =>
      -- a key that was not read must not have been set either
      have hnot : o'.writes k = false :=
        (h.unwritten k).mp (not_not.mp fun hset => hlost ⟨h.unread k hk, hset⟩)
      obtain ⟨v, hv⟩ := exists_stealthSysctls k
      rw [write_recorded_unread hk, h.sysctl, Outcome.write_of_mem nodup_stealthSysctls hv, hnot,
        if_neg Bool.false_ne_true]

theorem Off.inForce_disable (h : Off (afterDisable env s o)) :
    InForce (afterDisable env s o) :=
  ⟨by rintro ⟨⟩, by rintro ⟨⟩, fun _ f _ _ => h.writtenBack f⟩

/-- Every call keeps the settings on or off. -/
theorem between_step {w : World} {s' : Status} {a : Call × Environment × Outcome}
    (h : Between s) (ha : (calls w).step s a = some s') : Between s' ∧ InForce s' := by
  obtain ⟨call, env, o⟩ := a
  cases call with
  | enable =>
      obtain rfl := Option.some.inj ha
      obtain h | ⟨o', f, h⟩ := h
      · exact h.enable
      · exact h.enable
  | disable =>
      obtain rfl := Option.some.inj ha
      obtain h | ⟨o', f, h⟩ := h
      · have hoff : Off (afterDisable env s o) := h.disable
        exact ⟨.inl hoff, hoff.inForce_disable⟩
      · by_cases henv : Unfit env
        · exact h.refused henv
        · have hoff : Off (afterDisable env s o) := h.disable henv
          exact ⟨.inl hoff, hoff.inForce_disable⟩

/-- After every call of every run: where an enable that has not found the settings applied
returns `True`, every key has its hardened value; where one that has found them applied does,
every key that the enable which applied them has set; and a disable whose writes all succeed, and
which is not refused where there are settings applied, leaves every key as it was before that
enable, unless the key was set without having been read or an earlier disable has failed to write
it back. -/
theorem hardening_inForce (w : World) (as : List (Call × Environment × Outcome)) :
    (calls w).Always InForce as := by
  have hinit : Between (calls w).init ∧ InForce (calls w).init := by
    refine ⟨.inl ⟨rfl, by rintro _ ⟨⟩⟩, ⟨by rintro ⟨⟩, by rintro ⟨⟩, by rintro _ _ ⟨⟩⟩⟩
  exact fun pre s _ hs =>
    (Machine.invariant hinit (fun _ _ _ h ha => between_step h.1 ha) hs).2

/-! ## Failures that are not reported, and not made good -/

def allWell : Outcome := ⟨fun _ => true, fun _ => true, ""⟩

def unwritable (k : SysctlKey) : Outcome := { allWell with writes := (· ≠ k) }

def unreadable (k : SysctlKey) : Outcome := { allWell with reads := (· ≠ k) }

def notRoot : Environment := { Environment.full with root := false }

/-- A key that could not be set is passed over when the settings are found applied. A key that
could not be read is not written back, one that could not be written back is forgotten, and without
root nothing is written back. -/
theorem not_hardening_inForce :
    ¬ (calls (.start .blank .blank)).Always Enforced
      [(.enable, .full, unwritable .icmpEchoIgnoreAll), (.enable, .full, allWell)] ∧
    ¬ (calls (.start .blank .blank)).Always Restored
      [(.enable, .full, unreadable .icmpEchoIgnoreAll), (.disable, .full, allWell)] ∧
    ¬ (calls (.start .blank .blank)).Always Restored
      [(.enable, .full, allWell), (.disable, .full, unwritable .icmpEchoIgnoreAll),
        (.disable, .full, allWell)] ∧
    ¬ (calls (.start .blank .blank)).Always Restored
      [(.enable, .full, allWell), (.disable, notRoot, allWell)] := by
  have hwell : ∀ {α : Type} (p : Proc α) (w : World) (k : SysctlKey),
      ¬ Unwritten (allWell.events p w) k :=
    fun p w k h => Bool.false_ne_true (writes_of_unwritten h).symm
  refine ⟨fun h => ?_, fun h => ?_, fun h => ?_, fun h => ?_⟩
  · have hkey := h _ _ List.prefix_rfl rfl true rfl (.icmpEchoIgnoreAll, 1) (by decide)
    exact absurd hkey (by decide)
  · exact absurd (h _ _ List.prefix_rfl rfl _ _ _ rfl (hwell _ _) rfl .icmpEchoIgnoreAll)
      (by decide)
  · exact absurd (h _ _ List.prefix_rfl rfl _ _ _ rfl (hwell _ _) rfl .icmpEchoIgnoreAll)
      (by decide)
  · exact absurd (h _ _ List.prefix_rfl rfl _ _ _ rfl (hwell _ _) rfl .icmpEchoIgnoreAll)
      (by decide)

end PrivacyGuard.Hardening
