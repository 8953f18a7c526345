import PrivacyGuard.Model.ScanBlocking
import PrivacyGuard.Properties.ScanAlerts

set_option autoImplicit false

/-! # The live scan watch blocks whom it has caught

Each source is blocked at its first alert or never: where this one command fails, the source is
remembered as blocked all the same. Where the commands succeed, what comes from a source is
dropped if and only if the source has touched enough ports within the window. -/

namespace PrivacyGuard.ScanWatch

open Netfilter Window

variable {T M : Type} [AddCommGroup T] [LinearOrder T] [DecidableEq M]
  {env : Environment} {s : Settings T}

theorem alerted_iff {src : String} {es : List Event} :
    alerted src es = true ↔ ∃ n, .alert src n ∈ es := by
  rw [alerted, List.any_eq_true]
  constructor
  · rintro ⟨e, he, h⟩
    cases e with
    | alert s n =>
        obtain rfl : s = src := of_decide_eq_true h
        exact ⟨n, he⟩
    | block ip => cases h
  · rintro ⟨n, hn⟩
    exact ⟨_, hn, decide_eq_true rfl⟩

/-- What a run of the watch makes of a firewall. -/
structure Blocking (F G : Firewall (Sourced M)) (ips : List String) : Prop where
  once : ips.Nodup
  rules : F.filterTable.Blocks .input ips G.filterTable
  nat : G.nat = F.nat

omit [DecidableEq M] in
theorem Blocking.refl (F : Firewall (Sourced M)) : Blocking F F [] :=
  ⟨List.nodup_nil, .refl _ _, rfl⟩

/-- The command that blocks a source succeeds wherever it is run. -/
theorem Blocking.block {F G : Firewall (Sourced M)} {ips : List String} (h : Blocking F G ips)
    {ip : String} (hip : ip ∉ ips) : Blocking F (G.perform [blockCommand ip]) (ip :: ips) := by
  obtain ⟨t, ht, hblocks⟩ := h.rules.insert ip
  have hexec : G.exec (blockCommand ip) = .ok { G with filter := some t } :=
    Firewall.exec_filter_eq ht
  rw [Firewall.perform_ok hexec]
  exact ⟨List.nodup_cons.mpr ⟨hip, h.once⟩, hblocks, h.nat⟩

/-- The firewall through a whole run, from any point on. -/
theorem blocking_guardFrom (hauto : s.autoBlock = true) (hiptables : env.hasIptables = true)
    {F G : Firewall (Sourced M)} {ips : List String} {w : Watch T} (h : Blocking F G ips)
    (hw : ips ⊆ w.blocked) (pkts : List (Sniffed T × Bool)) :
    ∃ ips', Blocking F (guardFrom env s w G pkts) ips' ∧
      ∀ ip, ip ∈ ips' ↔
        ip ∈ ips ∨ ip ∉ w.blocked ∧ firstAlert env s ip w pkts = some true := by
  induction pkts generalizing w G ips with
  | nil => exact ⟨ips, h, fun ip => by simp [firstAlert]⟩
  | cons e pkts ih =>
      obtain ⟨pkt, ok⟩ := e
      obtain ⟨hnone, hblocked⟩ | ⟨src, n, ⟨hsrc, hevents, hblocked⟩ | ⟨hsrc, hevents, hblocked⟩⟩ :=
        handle_cases hauto hiptables w pkt
      · -- nothing is reported
        obtain ⟨ips', h', hmem⟩ := ih h (hblocked ▸ hw)
        refine ⟨ips', ?_, fun ip => ?_⟩
        · rw [guardFrom, hnone]
          exact h'
        · rw [hmem, hblocked, firstAlert, hnone]
          rfl
      · -- an alert for a source that has been blocked
        obtain ⟨ips', h', hmem⟩ := ih h (hblocked ▸ hw)
        refine ⟨ips', ?_, fun ip => ?_⟩
        · rw [guardFrom, hevents]
          exact h'
        · rw [hmem, hblocked, firstAlert, hevents]
          by_cases hip : src = ip
          · subst hip
            simp [hsrc]
          · simp [alerted, hip]
      · -- the first alert for the source
        have hnot : src ∉ ips := fun hmem => hsrc (hw hmem)
        cases ok with
        | true =>
            have hsub : src :: ips ⊆ (handle env s w pkt).1.blocked := by
              rw [hblocked]
              exact List.cons_subset_cons src hw
            obtain ⟨ips', h', hmem⟩ := ih (h.block hnot) hsub
            refine ⟨ips', ?_, fun ip => ?_⟩
            · rw [guardFrom, hevents]
              exact h'
            · rw [hmem, hblocked, firstAlert, hevents]
              by_cases hip : src = ip
              · subst hip
                simp [alerted, hsrc]
              · simp [alerted, hip, Ne.symm hip]
        | false =>
            have hsub : ips ⊆ (handle env s w pkt).1.blocked := by
              rw [hblocked]
              exact fun ip hip => List.mem_cons_of_mem src (hw hip)
            obtain ⟨ips', h', hmem⟩ := ih h hsub
            refine ⟨ips', ?_, fun ip => ?_⟩
            · rw [guardFrom, hevents]
              exact h'
            · rw [hmem, hblocked, firstAlert, hevents]
              by_cases hip : src = ip
              · subst hip
                simp [alerted, hnot]
              · simp [alerted, hip, Ne.symm hip]

/-! ## Whom the watch has caught -/

/-- The source has touched enough ports within the window. -/
def Caught (s : Settings T) (pkts : List (Sniffed T)) (src : String) : Prop :=
  ∃ x y, y - x ≤ s.windowSeconds ∧ s.portThreshold ≤ portsWithin src x y pkts

/-- Where all commands succeed, the first alert blocks. -/
theorem firstAlert_iff {w : Watch T} {pkts : List (Sniffed T × Bool)}
    (hok : ∀ e ∈ pkts, e.2 = true) (src : String) :
    firstAlert env s src w pkts = some true ↔
      alertsOf src (reports env s w (pkts.map (·.1))) ≠ [] := by
  induction pkts generalizing w with
  | nil => simp [firstAlert, reports, alertsOf]
  | cons e pkts ih =>
      obtain ⟨pkt, ok⟩ := e
      rw [List.forall_mem_cons] at hok
      obtain ⟨rfl, hok⟩ := hok
      rw [List.map_cons, reports, alertsOf_append, firstAlert]
      have halert := exists_alert src pkt.now (handle env s w pkt).2
      rw [← alerted_iff] at halert
      by_cases h : alerted src (handle env s w pkt).2 = true
      · rw [if_pos h]
        refine iff_of_true rfl fun hnil => ?_
        exact halert.mp h (List.append_eq_nil_iff.mp hnil).1
      · rw [if_neg h, ih hok, not_not.mp (mt halert.mpr h), List.nil_append]

/-- **The watch blocks whom it has caught.** -/
theorem scan_blocks [IsOrderedAddMonoid T] (hauto : s.autoBlock = true)
    (hthreshold : 1 ≤ s.portThreshold) (hwindow : 0 ≤ s.windowSeconds)
    (htermux : env.termux = false) (hroot : env.root = true)
    (hiptables : env.hasIptables = true) {pkts : List (Sniffed T × Bool)}
    (horder : (pkts.map (·.1)).Pairwise fun pkt pkt' => pkt.now ≤ pkt'.now)
    (F : Firewall (Sourced M)) :
    ∃ ips : List String, Blocking F (liveScanWatchOn env true s pkts F) ips ∧
      (∀ ip, ip ∈ ips ↔ firstAlert env s ip .empty pkts = some true) ∧
      ((∀ e ∈ pkts, e.2 = true) → ∀ {P : Type} (m : Meaning M P) (p : From P),
        (Caught s (pkts.map (·.1)) p.src →
          (liveScanWatchOn env true s pkts F).filterVerdict m.sourced .input p = .drop) ∧
        (¬ Caught s (pkts.map (·.1)) p.src →
          (liveScanWatchOn env true s pkts F).filterVerdict m.sourced .input p =
            F.filterVerdict m.sourced .input p)) := by
  have hrun : liveScanWatchOn env true s pkts F = guardFrom env s .empty F pkts := by
    rw [liveScanWatchOn, htermux, hroot]
    rfl
  have hsub : [] ⊆ (Watch.empty : Watch T).blocked := List.nil_subset _
  obtain ⟨ips, hblocking, hmem⟩ := blocking_guardFrom hauto hiptables (.refl F) hsub pkts
  have hfirst : ∀ ip, ip ∈ ips ↔ firstAlert env s ip .empty pkts = some true := by
    intro ip
    rw [hmem]
    simp [Watch.empty]
  rw [hrun]
  refine ⟨ips, hblocking, hfirst, fun hok P m p => ?_⟩
  -- whoever has been caught has had a first alert, and its command has succeeded
  have hcaught : p.src ∈ ips ↔ Caught s (pkts.map (·.1)) p.src := by
    rw [hfirst, firstAlert_iff hok, alertsOf_reports hthreshold hwindow]
    exact Detector.alarms_ne_nil_iff (chronological_packetsOf horder p.src)
  obtain ⟨hdrop, hsame⟩ := hblocking.rules.verdict m .input p
  rw [← hcaught]
  exact ⟨hdrop rfl, fun hnot => hsame fun _ => hnot⟩

/-- The two packets of a scan, of which the second one leads to a command that fails, and two
more of the same source. -/
def failedBlock : List (Sniffed Int × Bool) :=
  [(probe 0 22, true), (probe 3 80, false), (probe 4 443, true), (probe 5 25, true)]

def autoBlocking : Settings Int := { twoPorts with autoBlock := true }

/-- The source has been caught twice, and is not blocked. -/
theorem scan_blocks_failedBlock :
    ∃ ips : List String,
      Blocking (M := String) .blank (liveScanWatchOn sensor true autoBlocking failedBlock .blank)
        ips ∧ "198.51.100.7" ∉ ips := by
  have horder : (failedBlock.map (·.1)).Pairwise fun pkt pkt' => pkt.now ≤ pkt'.now := by decide
  have hiptables : sensor.hasIptables = true := rfl
  obtain ⟨ips, hblocking, hfirst, -⟩ := scan_blocks (s := autoBlocking) (M := String) rfl
    (by decide) (by decide) rfl rfl hiptables horder .blank
  refine ⟨ips, hblocking, ?_⟩
  rw [hfirst]
  decide +kernel

end PrivacyGuard.ScanWatch
