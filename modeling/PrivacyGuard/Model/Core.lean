import PrivacyGuard.Model.Modes

set_option autoImplicit false

/-! # The Tor kill switch

`core.py`: the wait for Tor, and the Tor kill switch. -/

namespace PrivacyGuard

open Netfilter Effect

def torUidPlaceholder : String := "debian-tor"

/-- `proxy_tor.start_tor` -/
def startTor (env : Environment) : Proc Bool :=
  if !env.hasTor then pure false else external .startTor

/-- The loop of `_wait_for_tor_bootstrap`: it polls every two seconds, `n` times at most. -/
def pollTor : Nat → Proc Bool
  | 0 => pure false
  | n + 1 => do
      let reachable ← external .checkTorActive
      if reachable then pure true else pollTor n

/-- `while waited < timeout` with `waited` growing by two makes `⌈timeout / 2⌉` rounds. -/
def waitForTorBootstrap (env : Environment) (timeout : Int) : Proc Bool := do
  let reachable ← external .checkTorActive
  if reachable then
    return true
  let _ ← startTor env
  pollTor ((timeout + 1) / 2).toNat

/-- Tor is restarted when its configuration has changed and there is a `systemctl`. -/
def restartTor (torrcChanged : Bool) : Proc Unit :=
  if torrcChanged then do
    let present ← external (.have_ "systemctl")
    if present then do
      let _ ← external .restartTorUnit
      pure ()
    else pure ()
  else pure ()

def ipt (c : FwCommand Match) : Invocation := ⟨.v4, c⟩

/-- The rules of `enable_kill_switch`. -/
def torRules : List Invocation := [
  ipt (.filter .flushAll),
  ipt (.nat .flushAll),
  ipt (.filter (.append (.hook .output) ⟨[.outIface "lo"], .accept⟩)),
  ipt (.filter (.append (.hook .output) ⟨[.uidOwner torUidPlaceholder], .accept⟩)),
  ipt (.nat (.append (.hook .output) ⟨[.proto .tcp, .syn], .redirect 9040⟩)),
  ipt (.nat (.append (.hook .output) ⟨[.proto .udp, .dport 53], .redirect 5353⟩)),
  ipt (.filter (.append (.hook .output) ⟨[.state [.established, .related]], .accept⟩)),
  ipt (.filter (.append (.hook .output) ⟨[.proto .tcp, .dport 9040], .accept⟩)),
  ipt (.filter (.append (.hook .output) ⟨[], .drop⟩))]

def torFields (b : Backups) : List Field :=
  [.torKillSwitch true, .iptablesBackup b.ipv4, .ip6tablesBackup b.ipv6]

def enableKillSwitch (env : Environment) (force : Bool) (bootstrapTimeout : Int) :
    Proc Bool := do
  if env.termux then
    return false
  if !env.root || !env.hasIptables then
    return false
  if !env.hasTor then
    return false
  let st ← load
  -- on already: not a failure
  if st.torKillSwitch && !force then
    return true
  -- both kill switches rewrite the OUTPUT chain
  if st.proxyOnlyKillSwitch then
    return false
  let torrcChanged ← external .ensureTransparentProxyTorrc
  restartTor torrcChanged
  let reachable ← waitForTorBootstrap env bootstrapTimeout
  if !reachable then
    return false
  -- Tor is up: from here on the firewall changes
  let (ok, backups) ← applyRuleset env torRules "pre-tor-killswitch" []
  if !ok then
    return false
  update (torFields backups)
  let _ ← blockIpv6 env
  return true

def disableKillSwitch (env : Environment) : Proc Unit :=
  disableMode .tor env (pure ())

/-! ## What the calls can do -/

section

variable {A : Op → Choice → World → Prop} {I : World → Prop} {env : Environment} {w : World}

theorem pollTor_quiet : ∀ n, (pollTor n).all Quiet
  | 0 => Prog.all_pure _
  | n + 1 => Prog.all_bind (quiet_external _) fun _ =>
      Prog.all_ite (Prog.all_pure _) (pollTor_quiet n)

theorem startTor_quiet (env : Environment) : (startTor env).all Quiet :=
  Prog.all_ite (Prog.all_pure _) (quiet_external _)

theorem waitForTorBootstrap_quiet (env : Environment) (timeout : Int) :
    (waitForTorBootstrap env timeout).all Quiet :=
  Prog.all_bind (quiet_external _) fun _ => Prog.all_ite (Prog.all_pure _)
    (Prog.all_bind (startTor_quiet env) fun _ => pollTor_quiet _)

theorem restartTor_quiet (changed : Bool) : (restartTor changed).all Quiet :=
  Prog.all_ite
    (Prog.all_bind (quiet_external _) fun _ =>
      Prog.all_ite (Prog.all_bind (quiet_external _) fun _ => Prog.all_pure _)
        (Prog.all_pure _))
    (Prog.all_pure _)

/-- The wait answers no only after Tor has been found unreachable. -/
theorem waitForTorBootstrap_along {timeout : Int} {Q : Bool → World → Prop} (hI : I w)
    (h : Q true w) (hno : ∀ c : Choice, A (.external .checkTorActive) c w → c.ok = false →
      Q false w) :
    (waitForTorBootstrap env timeout).along (machine A) I Q w := by
  rw [waitForTorBootstrap, Prog.along_bind]
  refine along_external hI fun c hc => ?_
  split
  · exact ⟨hI, h⟩
  · rename_i hok
    have hfalse := hno c hc (Bool.eq_false_iff.mpr hok)
    refine along_quiet (Prog.all_bind (startTor_quiet env) fun _ => pollTor_quiet _) hI
      fun b => ?_
    cases b with
    | true => exact h
    | false => exact hfalse

theorem torFields_other (b : Backups) (s : Saved) (now : String) (m' : Mode) (h : m' ≠ .tor) :
    m'.active (s.update (torFields b) now) = m'.active s := by
  cases m' with
  | tor => exact absurd rfl h
  | proxyOnly => simp [Mode.active, torFields, Saved.update, Field.set]
  | gateway => simp [Mode.active, torFields, Saved.update, Field.set]

theorem torFields_ipv6Blocked (b : Backups) (s : Saved) (now : String) :
    (s.update (torFields b) now).ipv6Blocked = s.ipv6Blocked := by
  simp [torFields, Saved.update, Field.set]

/-- What a call of `enable_kill_switch` puts in place. -/
def torActivation : Activation .tor where
  rules := torRules
  tolerate := []
  lock := []
  fields := torFields
  rules_v4 := by decide
  active _ _ _ := rfl
  backupV4 _ _ _ := rfl
  backupV6 _ _ _ := rfl
  other := torFields_other
  ipv6Blocked := torFields_ipv6Blocked

theorem enableKillSwitch_follows (env : Environment) (force : Bool) (timeout : Int) :
    Follows torActivation env force (enableKillSwitch env force timeout) := by
  intro A I R Q w hI hdeclined halready happly hrefused hfinish
  refine Mode.guards_along hI hdeclined fun he => ?_
  refine Mode.torGuard_along (by decide) hI he hdeclined fun hready => ?_
  refine Mode.flags_along (m := .tor) hI hdeclined halready fun hforce hfree => ?_
  -- the torrc, and the wait for Tor
  rw [Prog.along_bind]
  refine along_external hI fun c _ => ?_
  rw [Prog.along_bind]
  refine along_quiet (restartTor_quiet c.ok) hI fun _ => ?_
  rw [Prog.along_bind]
  refine waitForTorBootstrap_along hI ?_ fun c hc hno =>
    ⟨hI, hdeclined (.probe .checkTorActive trivial c hc hno)⟩
  rw [if_neg (by decide)]
  exact Activation.apply_along (a := torActivation) (fun _ => rfl) (fun _ => rfl)
    (happly hready hforce hfree) hrefused hfinish

end

end PrivacyGuard
