import PrivacyGuard.Model.Core

set_option autoImplicit false

/-! # Gateway mode

`gateway.py`: the machine routes the traffic of an internal network into its own Tor. -/

namespace PrivacyGuard

open Netfilter Effect

def transPort : Nat := 9040
def dnsPort : Nat := 5353

structure GatewayArgs where
  internalIface : String
  internalIp : String
  externalIface : Option String
  deriving DecidableEq, Repr

/-- The rules of `enable_gateway`: the machine's own traffic as under the Tor kill switch,
the workstation's traffic redirected on arrival, nothing forwarded, and the redirected
connections accepted. -/
def gatewayRules (internalIface : String) : List Invocation := [
  ipt (.filter .flushAll),
  ipt (.nat .flushAll),
  ipt (.filter (.flush (.hook .forward))),
  ipt (.filter (.append (.hook .output) ⟨[.outIface "lo"], .accept⟩)),
  ipt (.filter (.append (.hook .output) ⟨[.uidOwner torUidPlaceholder], .accept⟩)),
  ipt (.nat (.append (.hook .output) ⟨[.proto .tcp, .syn], .redirect transPort⟩)),
  ipt (.nat (.append (.hook .output) ⟨[.proto .udp, .dport 53], .redirect dnsPort⟩)),
  ipt (.filter (.append (.hook .output) ⟨[.state [.established, .related]], .accept⟩)),
  ipt (.filter (.append (.hook .output) ⟨[.proto .tcp, .dport transPort], .accept⟩)),
  ipt (.filter (.append (.hook .output) ⟨[], .drop⟩)),
  ipt (.nat (.append (.hook .prerouting)
    ⟨[.inIface false internalIface, .proto .tcp, .syn], .redirect transPort⟩)),
  ipt (.nat (.append (.hook .prerouting)
    ⟨[.inIface false internalIface, .proto .udp, .dport 53], .redirect dnsPort⟩)),
  ipt (.filter (.policy .forward .drop)),
  ipt (.filter (.append (.hook .forward) ⟨[], .drop⟩)),
  ipt (.filter (.append (.hook .input)
    ⟨[.inIface false internalIface, .proto .tcp, .dport transPort], .accept⟩)),
  ipt (.filter (.append (.hook .input)
    ⟨[.inIface false internalIface, .proto .udp, .dport dnsPort], .accept⟩))]

def gatewayFields (a : GatewayArgs) (b : Backups) : List Field :=
  [.gatewayModeActive true, .gatewayIptablesBackup b.ipv4, .gatewayIp6tablesBackup b.ipv6,
    .gatewayConfig (some ⟨a.internalIface, a.internalIp, a.externalIface⟩)]

def forwardLock : List (FwCommand Match) :=
  [.filter (.policy .forward .drop), .filter (.flush (.hook .forward))]

/-- IPv6 forwarding is closed; a failure only leads to a warning. -/
def lockIpv6Forward (env : Environment) : Proc Unit :=
  if env.hasIp6tables then runAll .v6 forwardLock else pure ()

def enableGateway (env : Environment) (a : GatewayArgs) (force : Bool) : Proc Bool := do
  if env.termux then
    return false
  if !env.root || !env.hasIptables then
    return false
  if !env.hasTor then
    return false
  let st ← load
  -- on already: not a failure
  if st.gatewayModeActive && !force then
    return true
  if st.torKillSwitch || st.proxyOnlyKillSwitch then
    return false
  let _ ← external (.writeGatewayTorrcSnippet a.internalIp)
  let (ok, backups) ← applyRuleset env (gatewayRules a.internalIface) "pre-gateway-mode" []
  if !ok then
    return false
  -- the commands on the IPv6 firewall are not rolled back with the others
  lockIpv6Forward env
  update (gatewayFields a backups)
  let _ ← blockIpv6 env
  return true

def disableGateway (env : Environment) : Proc Unit :=
  disableMode .gateway env (pure ())

/-! ## What the calls can do -/

theorem gatewayRules_tool (iface : String) : ∀ r ∈ gatewayRules iface, r.tool = .v4 := by
  simp [gatewayRules, ipt]

theorem gatewayFields_other (a : GatewayArgs) (b : Backups) (s : Saved) (now : String)
    (m' : Mode) (h : m' ≠ .gateway) :
    m'.active (s.update (gatewayFields a b) now) = m'.active s := by
  cases m' with
  | tor => simp [Mode.active, gatewayFields, Saved.update, Field.set]
  | proxyOnly => simp [Mode.active, gatewayFields, Saved.update, Field.set]
  | gateway => exact absurd rfl h

theorem gatewayFields_ipv6Blocked (a : GatewayArgs) (b : Backups) (s : Saved) (now : String) :
    (s.update (gatewayFields a b) now).ipv6Blocked = s.ipv6Blocked := by
  simp [gatewayFields, Saved.update, Field.set]

/-- What a call of `enable_gateway` puts in place. -/
def gatewayActivation (a : GatewayArgs) : Activation .gateway where
  rules := gatewayRules a.internalIface
  tolerate := []
  lock := forwardLock
  fields := gatewayFields a
  rules_v4 := gatewayRules_tool a.internalIface
  active _ _ _ := rfl
  backupV4 _ _ _ := rfl
  backupV6 _ _ _ := rfl
  other := gatewayFields_other a
  ipv6Blocked := gatewayFields_ipv6Blocked a

theorem enableGateway_follows (env : Environment) (a : GatewayArgs) (force : Bool) :
    Follows (gatewayActivation a) env force (enableGateway env a force) := by
  intro A I R Q w hI hdeclined halready happly hrefused hfinish
  refine Mode.guards_along hI hdeclined fun he => ?_
  refine Mode.torGuard_along (by decide) hI he hdeclined fun hready => ?_
  refine Mode.flags_along (m := .gateway) hI hdeclined halready fun hforce hfree => ?_
  rw [Prog.along_bind]
  refine along_external hI fun _ _ => ?_
  exact Activation.apply_along (a := gatewayActivation a) (fun _ => rfl) (fun _ => rfl)
    (happly hready hforce hfree) hrefused hfinish

end PrivacyGuard
