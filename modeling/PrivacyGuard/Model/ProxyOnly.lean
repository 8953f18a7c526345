import PrivacyGuard.Model.Core

set_option autoImplicit false

/-! # The proxy-only kill switch

`proxy_only.py`: all outgoing TCP is sent to a local `redsocks`, which forwards it to a
proxy. Only the nat table is changed. -/

namespace PrivacyGuard

open Netfilter Effect

def redsocksLocalPort : Nat := 12345

structure ProxyArgs where
  proxyHost : String
  proxyPort : Nat
  proxyType : String
  username : Option String
  password : Option String
  deriving DecidableEq, Repr

/-- The rules of `enable_proxy_kill_switch`. -/
def proxyRules : List Invocation := [
  ipt (.nat (.newChain "PG_REDSOCKS")),
  ipt (.nat (.append (.user "PG_REDSOCKS") ⟨[.dst 0x7f000000#32 8], .ret⟩)),
  ipt (.nat (.append (.user "PG_REDSOCKS") ⟨[.proto .tcp], .redirect redsocksLocalPort⟩)),
  ipt (.nat (.append (.hook .output) ⟨[.proto .tcp], .jump "PG_REDSOCKS"⟩))]

def proxyTolerate : List String := ["Chain already exists"]

def proxyFields (a : ProxyArgs) (b : Backups) : List Field :=
  [.proxyOnlyKillSwitch true, .natIptablesBackup b.ipv4, .ip6tablesBackup b.ipv6,
    .activeProxy (some s!"{a.proxyType}://{a.proxyHost}:{a.proxyPort}")]

/-- `redsocks` is started directly when `systemctl` could not restart it. -/
def startRedsocks : Proc Unit := do
  let started ← external (.systemctl "restart" "redsocks")
  if started then pure ()
  else do
    let _ ← external .popenRedsocks
    pure ()

def enableProxyKillSwitch (env : Environment) (a : ProxyArgs) (force : Bool) : Proc Bool := do
  if env.termux then
    return false
  if !env.root || !env.hasIptables then
    return false
  let redsocks ← external (.have_ "redsocks")
  if !redsocks then
    return false
  -- unlike the Tor kill switch, it probes before it reads the saved flags
  let reachable ← external (.proxyReachable a.proxyHost a.proxyPort)
  if !reachable then
    return false
  let st ← load
  -- on already: not a failure
  if st.proxyOnlyKillSwitch && !force then
    return true
  if st.torKillSwitch then
    return false
  let _ ← external
    (.generateRedsocksConf a.proxyHost a.proxyPort a.proxyType a.username a.password)
  startRedsocks
  let (ok, backups) ← applyRuleset env proxyRules "pre-proxy-killswitch" proxyTolerate
  if !ok then
    return false
  update (proxyFields a backups)
  let _ ← blockIpv6 env
  return true

def stopRedsocks : Proc Unit := do
  let _ ← external (.systemctl "stop" "redsocks")
  pure ()

def disableProxyKillSwitch (env : Environment) : Proc Unit :=
  disableMode .proxyOnly env stopRedsocks

/-! ## What the calls can do -/

theorem proxyFields_other (a : ProxyArgs) (b : Backups) (s : Saved) (now : String) (m' : Mode)
    (h : m' ≠ .proxyOnly) :
    m'.active (s.update (proxyFields a b) now) = m'.active s := by
  cases m' with
  | tor => simp [Mode.active, proxyFields, Saved.update, Field.set]
  | proxyOnly => exact absurd rfl h
  | gateway => simp [Mode.active, proxyFields, Saved.update, Field.set]

theorem proxyFields_ipv6Blocked (a : ProxyArgs) (b : Backups) (s : Saved) (now : String) :
    (s.update (proxyFields a b) now).ipv6Blocked = s.ipv6Blocked := by
  simp [proxyFields, Saved.update, Field.set]

/-- What a call of `enable_proxy_kill_switch` puts in place. -/
def proxyActivation (a : ProxyArgs) : Activation .proxyOnly where
  rules := proxyRules
  tolerate := proxyTolerate
  lock := []
  fields := proxyFields a
  rules_v4 := by decide
  active _ _ _ := rfl
  backupV4 _ _ _ := rfl
  backupV6 _ _ _ := rfl
  other := proxyFields_other a
  ipv6Blocked := proxyFields_ipv6Blocked a

theorem startRedsocks_quiet : startRedsocks.all Quiet :=
  Prog.all_bind (quiet_external _) fun _ => Prog.all_ite (Prog.all_pure _)
    (Prog.all_bind (quiet_external _) fun _ => Prog.all_pure _)

theorem stopRedsocks_quiet : stopRedsocks.all Quiet :=
  Prog.all_bind (quiet_external _) fun _ => Prog.all_pure _

theorem enableProxyKillSwitch_follows (env : Environment) (a : ProxyArgs) (force : Bool) :
    Follows (proxyActivation a) env force (enableProxyKillSwitch env a force) := by
  intro A I R Q w hI hdeclined halready happly hrefused hfinish
  refine Mode.guards_along hI hdeclined fun he => ?_
  have hready : Mode.proxyOnly.Ready env := ⟨he, fun h => absurd rfl h⟩
  -- the two probes: `redsocks` installed, the proxy reachable
  have hprobe : ∀ e : External, e.IsProbe → ∀ c : Choice, A (.external e) c w →
      (!c.ok) = true → Q false w := fun e he c hc hno =>
    hdeclined (.probe e he c hc (by simpa using hno))
  rw [Prog.along_bind]
  refine along_external hI fun c hc => ?_
  split
  · rename_i hno
    exact ⟨hI, hprobe (.have_ "redsocks") rfl c hc hno⟩
  rw [Prog.along_bind]
  refine along_external hI fun c hc => ?_
  split
  · rename_i hno
    exact ⟨hI, hprobe (.proxyReachable a.proxyHost a.proxyPort) trivial c hc hno⟩
  refine Mode.flags_along (m := .proxyOnly) hI hdeclined halready fun hforce hfree => ?_
  rw [Prog.along_bind]
  refine along_external hI fun _ _ => ?_
  rw [Prog.along_bind]
  refine along_quiet startRedsocks_quiet hI fun _ => ?_
  exact Activation.apply_along (a := proxyActivation a) (fun _ => rfl) (fun _ => rfl)
    (happly hready hforce hfree) hrefused hfinish

end PrivacyGuard
