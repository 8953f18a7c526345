import PrivacyGuard.Model.Widget
import PrivacyGuard.Properties.ConsoleRuns

set_option autoImplicit false

/-! # What the widget shows

The widget shows the texts of the queue in the order in which they were put there, each once, and
all of them when the queue has been drained. The reports of the GUI itself are always among them;
what the actions print is if `sys.stdout` is steady. -/

namespace PrivacyGuard.Gui

open Effect Machine

/-- What is put into the queue directly: the exception that has ended an action, or an alert. -/
def Event.reported : Event → List String
  | .action (.finish _ (some e)) => ["[!] Exception: " ++ e ++ "\n"]
  | .alert msg => ["[MONITOR ALERT] " ++ msg ++ "\n"]
  | _ => []

/-- What there is to be shown of an event. -/
def Event.said : Event → List String
  | .action (.print _ text) => Console.pieces text
  | e => e.reported

/-- The event is one that keeps `sys.stdout` steady. -/
def Event.Allowed (c : Console) : Event → Prop
  | .action x => ∀ a, x.act? = some a → Rebind.Allowed .original c.streams a
  | .alert _ => True

variable {c c' : Console} {e : Event} {as : List (ReadAct Event)} {w : Widget}

/-! ## One event -/

theorem write_adds (text : String) (f : Stream) : c.logQ <+: (c.write text f).logQ := by
  cases f with
  | original => exact List.prefix_rfl
  | redirector t =>
      rw [Console.write_redirector_logQ]
      exact List.prefix_append _ _

theorem print_adds (text : String) : c.logQ <+: (c.print text).logQ :=
  (write_adds text _).trans (write_adds "\n" _)

/-- The queue and what has been said grow by the report, if the event is not a `print`. -/
theorem event_reported (hprint : ∀ t text, e ≠ .action (.print t text))
    (h : c.event e = some c') :
    c'.logQ = c.logQ ++ e.reported ∧ c'.output = c.output ++ e.reported := by
  have hrebind : ∀ a c', c.rebind a = some c' →
      c'.logQ = c.logQ ++ [] ∧ c'.output = c.output ++ [] := by
    intro a c' h
    obtain ⟨-, hlog, hout⟩ := rebind_inv h
    rw [List.append_nil, List.append_nil]
    exact ⟨hlog, hout⟩
  cases e with
  | alert msg =>
      obtain rfl := Option.some.inj h
      exact ⟨rfl, rfl⟩
  | action x =>
      cases x with
      | print t text => exact absurd rfl (hprint t text)
      | save t | redirect t | restore t => exact hrebind _ _ h
      | finish t exception =>
          obtain ⟨c₁, hc₁, rfl⟩ := Option.map_eq_some_iff.mp h
          obtain ⟨-, hlog, hout⟩ := rebind_inv hc₁
          cases exception with
          | none => exact hrebind _ _ hc₁
          | some text =>
              rw [Console.report, hlog, hout]
              exact ⟨rfl, rfl⟩

theorem event_adds (h : c.event e = some c') : ∃ new, c'.logQ = c.logQ ++ new ∧
    e.reported.Sublist new := by
  by_cases hprint : ∃ t text, e = .action (.print t text)
  · obtain ⟨t, text, rfl⟩ := hprint
    obtain ⟨-, rfl⟩ := print_inv h
    obtain ⟨new, hnew⟩ := print_adds (c := c) text
    exact ⟨new, hnew.symm, List.nil_sublist _⟩
  · have hne : ∀ t text, e ≠ .action (.print t text) := fun t text he => hprint ⟨t, text, he⟩
    exact ⟨e.reported, (event_reported hne h).1, List.Sublist.refl _⟩

theorem event_output (h : c.event e = some c') : c'.output = c.output ++ e.said := by
  by_cases hprint : ∃ t text, e = .action (.print t text)
  · obtain ⟨t, text, rfl⟩ := hprint
    obtain ⟨-, rfl⟩ := print_inv h
    exact Console.print_output
  · have hne : ∀ t text, e ≠ .action (.print t text) := fun t text he => hprint ⟨t, text, he⟩
    have hsaid : e.said = e.reported := by
      unfold Event.said
      split
      · exact absurd rfl (hne _ _)
      · rfl
    rw [hsaid]
    exact (event_reported hne h).2

/-- An allowed event keeps `sys.stdout` steady. -/
theorem event_steady (hc : Rebind.Steady .original c.streams) (ha : e.Allowed c)
    (h : c.event e = some c') : Rebind.Steady .original c'.streams := by
  cases e with
  | alert msg =>
      obtain rfl := Option.some.inj h
      exact hc
  | action x =>
      cases hact : x.act? with
      | some a => exact hc.step own_ne_original (ha a hact) (step_act hact h).1
      | none =>
          cases x with
          | print t text =>
              obtain ⟨-, rfl⟩ := print_inv h
              rw [Console.print_streams]
              exact hc
          | _ => cases hact

/-- Where `sys.stdout` is steady, all that is said goes into the queue. -/
theorem event_logged (hc : Rebind.Steady .original c.streams) (hlog : c.logQ = c.output)
    (h : c.event e = some c') : c'.logQ = c'.output := by
  by_cases hprint : ∃ t text, e = .action (.print t text)
  · obtain ⟨t, text, rfl⟩ := hprint
    obtain ⟨⟨old, hin⟩, rfl⟩ := print_inv h
    cases hvalue : c.streams.value with
    | original => exact absurd hvalue (hc.inside t old hin)
    | redirector t' => rw [Console.print_logQ hvalue, Console.print_output, hlog]
  · have hne : ∀ t text, e ≠ .action (.print t text) := fun t text he => hprint ⟨t, text, he⟩
    obtain ⟨hlog', hout'⟩ := event_reported hne h
    rw [hlog', hout', hlog]

/-! ## Runs -/

theorem run_output {es : List Event} (h : events.run es = some c) :
    c.output = es.flatMap Event.said := by
  induction es using List.reverseRecOn generalizing c with
  | nil =>
      obtain rfl := Option.some.inj h
      rfl
  | append_singleton es e ih =>
      obtain ⟨c₁, hc₁, he⟩ := step_of_run h
      rw [event_output he, ih hc₁, List.flatMap_append, List.flatMap_singleton]

theorem run_reported {es : List Event} (h : events.run es = some c) :
    (es.flatMap Event.reported).Sublist c.logQ := by
  induction es using List.reverseRecOn generalizing c with
  | nil => exact List.nil_sublist _
  | append_singleton es e ih =>
      obtain ⟨c₁, hc₁, he⟩ := step_of_run h
      obtain ⟨new, hnew, hsub⟩ := event_adds he
      rw [hnew, List.flatMap_append, List.flatMap_singleton]
      exact (ih hc₁).append hsub

theorem run_logged {es : List Event} (h : events.run es = some c)
    (hallowed : events.Each Event.Allowed es) : c.logQ = c.output := by
  have hinit : Rebind.Steady .original stdout.init := Rebind.steady_init
  have hI := always_of_each (M := events)
    (I := fun c => Rebind.Steady .original c.streams ∧ c.logQ = c.output) ⟨hinit, rfl⟩
    (fun c e c' hc ha h => ⟨event_steady hc.1 ha h, event_logged hc.1 hc.2 h⟩) hallowed
  exact (hI es c List.prefix_rfl h).2

theorem logQ_adds : events.Adds Console.logQ := by
  intro c e c' h
  obtain ⟨new, hnew, -⟩ := event_adds h
  rw [hnew]
  exact List.prefix_append _ _

/-- **The widget loses nothing, and mixes nothing up.** Let the threads of the actions, the alerts
and the draining of the queue come in any order. What the widget shows it goes on showing; once
the queue has been drained it shows all exceptions and alerts, in their order; and if no action
restores `sys.stdout` out of turn, it shows all that there was to be shown, and nothing else. -/
theorem widget_shows (h : widget.run as = some w) {n : Nat}
    (hn : w.sys.logQ.length ≤ w.seen.length + n) :
    ∃ w', widget.run (as ++ List.replicate n .take) = some w' ∧ w'.sys = w.sys ∧
      w.lines <+: w'.lines ∧
      (((ownSteps as).flatMap Event.reported).map line).Sublist w'.lines ∧
      (events.Each Event.Allowed (ownSteps as) →
        w'.lines = ((ownSteps as).flatMap Event.said).map line) := by
  have hrun : events.run (ownSteps as) = some w.sys := run_ownSteps h
  have hseen : w.seen <+: w.sys.logQ := seen_prefix logQ_adds h
  have htakes := run_takes h hseen n
  rw [List.take_of_length_le hn] at htakes
  refine ⟨_, htakes, rfl, hseen.map line, (run_reported hrun).map line, fun hallowed => ?_⟩
  rw [← run_output hrun, ← run_logged hrun hallowed]
  rfl

/-- An action that is under way, an alert of the monitor, and a look at the queue in between. -/
def started : List (ReadAct Event) :=
  [.sys (.action (.save 0)), .sys (.action (.redirect 0)),
    .sys (.action (.print 0 "[*] Starting Tor...")), .take,
    .sys (.alert "Public/exit IP changed: 192.0.2.1 -> 192.0.2.2"), .take]

theorem widget_shows_started :
    ∃ w', widget.run (started ++ List.replicate 1 .take) = some w' ∧
      w'.lines = ["[*] Starting Tor...\n", "\n",
        "[MONITOR ALERT] Public/exit IP changed: 192.0.2.1 -> 192.0.2.2\n"] := by
  have hstarted : ∃ w, widget.run started = some w ∧ w.sys.logQ.length ≤ w.seen.length + 1 :=
    ⟨_, rfl, by decide⟩
  obtain ⟨w, hw, hn⟩ := hstarted
  obtain ⟨w', hrun, -, -, -, hall⟩ := widget_shows hw hn
  refine ⟨w', hrun, (hall ?_).trans (by decide)⟩
  rintro pre e c ⟨post, hpost⟩ -
  have he : e ∈ ownSteps started := by
    rw [← hpost]
    exact List.mem_append_left _ (List.mem_append_right _ (List.mem_singleton_self e))
  have hmem : e ∈ [Event.action (.save 0), .action (.redirect 0),
      .action (.print 0 "[*] Starting Tor..."),
      .alert "Public/exit IP changed: 192.0.2.1 -> 192.0.2.2"] := he
  simp only [List.mem_cons, List.not_mem_nil, or_false] at hmem
  obtain rfl | rfl | rfl | rfl := hmem
  · rintro a ⟨⟩; trivial
  · rintro a ⟨⟩; trivial
  · rintro a ⟨⟩
  · trivial

end PrivacyGuard.Gui
