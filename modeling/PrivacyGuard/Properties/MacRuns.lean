import PrivacyGuard.Model.MacAddress

set_option autoImplicit false

/-! # What an interface is up with

`randomize_mac` takes an interface down before it gives it another address, and up only after it
has. So an interface that has been taken down is never up again with the address it had, however
the commands end and wherever the program is interrupted; it may stay down. -/

namespace PrivacyGuard.Mac

open Effect Text

/-! ## The addresses -/

/-- The address of one interface, not given by a manufacturer. -/
structure Local (address : List Nat) : Prop where
  length : address.length = 6
  le : ∀ b ∈ address, b ≤ 255
  first : ∀ b ∈ address.head?, b % 4 = 2

theorem Draw.local_bytes (d : Draw) : Local d.bytes where
  length := by rw [bytes, List.length_cons, d.length_rest]
  le := by
    refine List.forall_mem_cons.mpr ⟨?_, d.rest_le⟩
    have hall : ∀ b ∈ [0x02, 0x06, 0x0A, 0x0E], b ≤ 255 := by decide
    exact hall d.first d.first_mem
  first := by
    rintro b hb
    obtain rfl := Option.some.inj hb
    have hall : ∀ b ∈ [0x02, 0x06, 0x0A, 0x0E], b % 4 = 2 := by decide
    exact hall d.first d.first_mem

theorem Draw.randomMac_eq (d : Draw) : randomMac d = stamp 16 addressFormat d.bytes := by
  obtain ⟨first, rest, hfirst, hlen, hrest⟩ := d
  obtain ⟨b₁, b₂, b₃, b₄, b₅, rfl⟩ : ∃ b₁ b₂ b₃ b₄ b₅, rest = [b₁, b₂, b₃, b₄, b₅] := by
    match rest, hlen with
    | [b₁, b₂, b₃, b₄, b₅], _ => exact ⟨b₁, b₂, b₃, b₄, b₅, rfl⟩
  rfl

/-- What is drawn is what the commands find in their argument. -/
theorem Draw.readAddress_randomMac (d : Draw) : readAddress (randomMac d) = some d.bytes := by
  rw [readAddress, d.randomMac_eq]
  refine readStamp_stamp (by decide) ?_
  have hlen := d.local_bytes.length
  have hle := d.local_bytes.le
  revert hlen hle
  generalize d.bytes = bytes
  intro hlen hle
  refine List.forall₂_iff_get.mpr ⟨hlen.symm, fun i h₁ h₂ => ?_⟩
  have hwidth : ∀ f ∈ addressFormat, f.2 = 2 := by decide
  rw [hwidth _ (List.get_mem _ _)]
  exact Nat.lt_succ_of_le (hle _ (List.get_mem _ _))

/-! ## The interfaces -/

/-- An interface is as it was, or has been taken down; then it is down, or up with a local
address. -/
def Kept (w₀ w : Links) : Prop :=
  ∀ i l, w i = some l →
    (l.takenDown = false → w₀ i = some l) ∧ (l.takenDown = true → l.up = true → Local l.address)

/-- What a call reports, and what it leaves. -/
def Reports (r : Request) (w : Links) (outcome : Outcome) (w' : Links) : Prop :=
  (∀ i ≠ r.iface, w' i = w i) ∧
    match outcome with
    | .set mac => ∃ l, w' r.iface = some l ∧ l.up = true ∧ readAddress mac = some l.address
    | _ => w' = w ∨ ∃ l, w' r.iface = some l ∧ l.up = false

section

variable {connected : String → Links → Links} {w₀ w : Links} {I : Links → Prop}
  {Q : Outcome → Links → Prop}

theorem Kept.update {iface : String} {l : Link} (h : Kept w₀ w) (htaken : l.takenDown = true)
    (hup : l.up = true → Local l.address) : Kept w₀ (Function.update w iface (some l)) := by
  intro i l' hl'
  by_cases hi : i = iface
  · rw [hi, Function.update_self] at hl'
    cases hl'
    refine ⟨fun hfalse => ?_, fun _ => hup⟩
    rw [htaken] at hfalse
    cases hfalse
  · rw [Function.update_of_ne hi] at hl'
    exact h i l' hl'

/-- A command goes through on an interface that there is, or the call ends where it is. -/
theorem along_checked {c : Command} {next : Prog macSig Outcome} (hI : I w)
    (hfailed : Q .failed w) (hraised : Q .raised w)
    (hnext : ∀ l, w c.iface = some l →
      next.along (links connected) I Q (Function.update w c.iface (some (c.effect l)))) :
    (checked c next).along (links connected) I Q w := by
  refine ⟨hI, ?_⟩
  rintro ⟨d, exit, yes⟩ hadmits
  cases exit with
  | done =>
      obtain ⟨l, hl⟩ := Option.isSome_iff_exists.mp (hadmits rfl)
      have hexec : c.exec w .done = Function.update w c.iface (some (c.effect l)) := by
        rw [Command.exec, hl, Option.map_some]
      show next.along (links connected) I Q (c.exec w .done)
      rw [hexec]
      exact hnext l hl
  | failed => exact ⟨hI, hfailed⟩
  | missing => exact ⟨hI, hraised⟩

theorem renewLease_along {iface : String} {Q : Unit → Links → Prop} (hI : I w) (hQ : Q () w)
    (hconnected : connected iface w = w) : (renewLease iface).along (links connected) I Q w := by
  unfold renewLease
  refine ⟨hI, fun c _ => ?_⟩
  show Prog.along (links connected) I (if c.yes then _ else _) Q w
  split
  · refine ⟨hI, fun c _ => ?_⟩
    show Prog.along (links connected) I (if c.yes then _ else _) Q w
    split
    · refine ⟨hI, fun c _ => ?_⟩
      show Prog.along (links connected) I (pure ()) Q (connected iface w)
      rw [hconnected]
      exact ⟨hI, hQ⟩
    · exact ⟨hI, hQ⟩
  · exact ⟨hI, hQ⟩

end

theorem setAddress_iface (hasMacchanger : Bool) (mac : List Char) (iface : String) :
    (setAddress hasMacchanger mac iface).iface = iface := by
  cases hasMacchanger <;> rfl

theorem setAddress_effect (hasMacchanger : Bool) (d : Draw) (iface : String) (l : Link) :
    (setAddress hasMacchanger (randomMac d) iface).effect l = { l with address := d.bytes } := by
  cases hasMacchanger <;> simp [setAddress, Command.effect, d.readAddress_randomMac]

section

variable {connected : String → Links → Links} {w₀ w w' : Links}

theorem reports_same (r : Request) {outcome : Outcome} (hnot : ∀ mac, outcome ≠ .set mac) :
    Reports r w outcome w := by
  refine ⟨fun _ _ => rfl, ?_⟩
  cases outcome with
  | set mac => exact absurd rfl (hnot mac)
  | _ => exact .inl rfl

theorem reports_down (r : Request) {outcome : Outcome} {l : Link} (hdown : l.up = false)
    (hnot : ∀ mac, outcome ≠ .set mac) :
    Reports r w outcome (Function.update w r.iface (some l)) := by
  refine ⟨fun i hi => Function.update_of_ne hi _ _, ?_⟩
  cases outcome with
  | set mac => exact absurd rfl (hnot mac)
  | _ => exact .inr ⟨l, Function.update_self _ _ _, hdown⟩

/-- At every moment of a call the interfaces are kept; and it reports what it has done. -/
theorem randomizeMac_along (hconnected : Preserves connected) (r : Request) (h : Kept w₀ w) :
    r.body.along (links connected) (Kept w₀) (Reports r w) w := by
  unfold Request.body randomizeMac
  split
  · exact ⟨h, reports_same r nofun⟩
  split
  · exact ⟨h, reports_same r nofun⟩
  refine ⟨h, ?_⟩
  rintro ⟨d, exit, yes⟩ -
  dsimp only [links]
  refine along_checked h (reports_same r nofun) (reports_same r nofun) fun l hl => ?_
  -- from here on the interface is down, or has the new address
  let l₁ : Link := { l with up := false, takenDown := true }
  have h₁ : Kept w₀ (Function.update w r.iface (some l₁)) :=
    h.update rfl fun hup => absurd hup Bool.false_ne_true
  show Prog.along (links connected) _ (checked _ _) _ (Function.update w r.iface (some l₁))
  refine along_checked h₁ (reports_down r rfl nofun) (reports_down r rfl nofun) fun l' hl' => ?_
  rw [setAddress_iface] at hl'
  rw [setAddress_iface, setAddress_effect, Function.update_idem]
  rw [Function.update_self] at hl'
  obtain rfl := Option.some.inj hl'
  -- down, with the new address
  let l₂ : Link := { l₁ with address := d.bytes }
  have h₂ : Kept w₀ (Function.update w r.iface (some l₂)) :=
    h.update rfl fun hup => absurd hup Bool.false_ne_true
  show Prog.along (links connected) _ (checked _ _) _ (Function.update w r.iface (some l₂))
  refine along_checked h₂ (reports_down r rfl nofun) (reports_down r rfl nofun) fun l' hl' => ?_
  have hiface : (Command.linkUp r.iface).iface = r.iface := rfl
  rw [hiface, Function.update_self] at hl'
  obtain rfl := Option.some.inj hl'
  rw [hiface, Function.update_idem]
  -- up again, and a lease is asked for: that changes no address
  let l₃ : Link := { l₂ with up := true }
  have h₃ : Kept w₀ (Function.update w r.iface (some l₃)) :=
    h.update rfl fun _ => d.local_bytes
  have hset : Reports r w (.set (randomMac d)) (Function.update w r.iface (some l₃)) :=
    ⟨fun i hi => Function.update_of_ne hi _ _, l₃, Function.update_self _ _ _, rfl,
      d.readAddress_randomMac⟩
  show Prog.along (links connected) _ _ _ (Function.update w r.iface (some l₃))
  split
  · refine (Prog.along_bind _ _ _ _).mpr ?_
    refine renewLease_along h₃ ⟨h₃, hset⟩ ?_
    exact hconnected r.iface _ l₃ (Function.update_self _ _ _) rfl
  · exact ⟨h₃, hset⟩

/-! ## Over a run -/

/-- The last call for an interface, with its outcome. -/
def lastFor (iface : String) (cs : List (Request × Outcome)) : Option (Request × Outcome) :=
  (cs.filter fun c => c.1.iface = iface).getLast?

theorem lastFor_snoc (iface : String) (cs : List (Request × Outcome)) (c : Request × Outcome) :
    lastFor iface (cs ++ [c]) = if c.1.iface = iface then some c else lastFor iface cs := by
  unfold lastFor
  rw [List.filter_append, List.filter_singleton]
  by_cases hc : c.1.iface = iface
  · rw [if_pos hc, decide_eq_true hc]
    exact List.getLast?_append_of_ne_nil _ (List.cons_ne_nil c [])
  · rw [if_neg hc, decide_eq_false hc]
    exact congrArg List.getLast? (List.append_nil _)

/-- An interface is up with the address that the last call for it reports. -/
theorem set_of_calls (hconnected : Preserves connected) {cs : List (Request × Outcome)}
    (hw : Kept w₀ w) (h : Calls (links connected) Request.body (fun _ _ => True) w cs w')
    {iface : String} {r : Request} {mac : List Char}
    (hlast : lastFor iface cs = some (r, .set mac)) :
    ∃ l, w' iface = some l ∧ l.up = true ∧ readAddress mac = some l.address := by
  induction cs using List.reverseRecOn generalizing w' with
  | nil => cases hlast
  | append_singleton cs c ih =>
      obtain ⟨w₁, hcs, hc⟩ := Calls.of_append h
      obtain ⟨-, tr, hrun⟩ := Calls.of_singleton hc
      -- the calls before have kept the interfaces, so this one reports what it leaves
      have hkept : Kept w₀ w₁ := by
        refine Calls.invariant hcs (fun r w _ hw => ?_) hw
        have halong := randomizeMac_along hconnected r hw
        exact Prog.wp_mono (Prog.wp_of_along (Prog.along_and_holds halong)) fun _ _ hq => hq.1
      have hreports : Reports c.1 w₁ c.2 w' :=
        hrun.post (Prog.wp_of_along (randomizeMac_along hconnected c.1 hkept))
      rw [lastFor_snoc] at hlast
      split at hlast
      · rename_i hiface
        cases hlast
        rw [← hiface]
        exact hreports.2
      · rename_i hiface
        obtain ⟨l, hl, hset⟩ := ih hcs hlast
        exact ⟨l, (hreports.1 iface (Ne.symm hiface)).trans hl, hset⟩

/-- **An interface that has been taken down is never up again with the address it had**, at any
moment of any calls; what is drawn is what the commands read; and if the last call for an interface
reports an address, it is up with that. -/
theorem mac_runs (hconnected : Preserves connected)
    (hfresh : ∀ i l, w₀ i = some l → l.takenDown = false) :
    (∀ w, Reached (links connected) Request.body (fun _ _ => True) w₀ w → Kept w₀ w) ∧
    (∀ d, readAddress (randomMac d) = some d.bytes) ∧
    ∀ cs w, Calls (links connected) Request.body (fun _ _ => True) w₀ cs w →
      ∀ iface r mac, lastFor iface cs = some (r, .set mac) →
        ∃ l, w iface = some l ∧ l.up = true ∧ readAddress mac = some l.address := by
  have hkept : Kept w₀ w₀ := by
    intro i l hl
    refine ⟨fun _ => hl, fun htaken => ?_⟩
    rw [hfresh i l hl] at htaken
    cases htaken
  refine ⟨?_, Draw.readAddress_randomMac, ?_⟩
  · intro w h
    refine h.invariant (fun r w _ hw => ?_) hkept
    exact Prog.along_mono (Prog.along_and_holds (randomizeMac_along hconnected r hw))
      (fun _ hw => hw) fun _ _ hq => hq.1
  · exact fun cs w h iface r mac hlast => set_of_calls hconnected hkept h hlast

/-- One interface, with the address of its manufacturer. -/
def factory : Links := fun i =>
  if i = "eth0" then some ⟨true, [0x00, 0x1B, 0x21, 0x3A, 0x5C, 0x7E], false⟩ else none

/-- Nothing happens to the interfaces where NetworkManager finds them connected. -/
theorem mac_runs_factory :
    (∀ w, Reached (links fun _ w => w) Request.body (fun _ _ => True) factory w →
      Kept factory w) ∧
    (∀ d, readAddress (randomMac d) = some d.bytes) ∧
    ∀ cs w, Calls (links fun _ w => w) Request.body (fun _ _ => True) factory cs w →
      ∀ iface r mac, lastFor iface cs = some (r, .set mac) →
        ∃ l, w iface = some l ∧ l.up = true ∧ readAddress mac = some l.address := by
  refine mac_runs (fun _ _ _ _ _ => rfl) fun i l hl => ?_
  unfold factory at hl
  split at hl
  · cases hl
    rfl
  · cases hl

end

end PrivacyGuard.Mac
