import PrivacyGuard.Model.DnsCheck

set_option autoImplicit false

/-! # The isolation check of the workstation

`verify_isolation` of `workstation.py`, as a function of what the two `ip` commands print and of
`/etc/resolv.conf`. -/

namespace PrivacyGuard.Workstation

open Text Torrc Dns

/-- What is checked, with what the descriptions print of it. -/
inductive Check
  | oneInterface (found : Nat)
  | interfacesUnknown (e : String)
  | oneDefaultRoute (found : Nat)
  | routeAtGateway (gateway : List Char)
  | routeUnknown (e : String)
  | singleResolver (servers : List (List Char))
  | resolverIsGateway (gateway : List Char)
  deriving DecidableEq

/-- The dictionary `report`; `none` where the key is missing. -/
structure IsolationReport where
  checks : List (Check × Bool)
  interfaces : Option Nat
  defaultRoutes : Option (List (List Char))
  dnsServers : Option (List (List Char))

/-- `report["passed"]` -/
def IsolationReport.passed (r : IsolationReport) : Bool := r.checks.all (·.2)

def loMark : List Char := ": lo:".toList

/-- `[l for l in out.stdout.splitlines() if ": lo:" not in l and l.strip()]` -/
def nonLo (stdout : List Char) : List (List Char) :=
  (splitlines stdout).filter fun l => decide (¬ loMark <:+: l) && decide (strip l ≠ [])

/-- `out.stdout.strip().splitlines()` -/
def routesOf (stdout : List Char) : List (List Char) := splitlines (strip stdout)

/-- `[l.split()[1] for l in text.splitlines() if l.strip().startswith("nameserver")]`, or an
exception -/
def serversOf (text : List Char) : Option (List (List Char)) :=
  ((splitlines text).filter isNameserver).mapM secondWord

/-- `if expected_gateway_ip:` -/
def given (expectedGatewayIp : Option (List Char)) : Option (List Char) :=
  expectedGatewayIp.filter (· ≠ [])

def interfaceChecks (links : Except String (List Char)) : List (Check × Bool) :=
  match links with
  | .ok stdout =>
      [(.oneInterface (nonLo stdout).length, decide ((nonLo stdout).length = 1))]
  | .error e => [(.interfacesUnknown e, false)]

def routeChecks (routes : Except String (List Char)) (expectedGatewayIp : Option (List Char)) :
    List (Check × Bool) :=
  match routes with
  | .ok stdout =>
      (.oneDefaultRoute (routesOf stdout).length, decide ((routesOf stdout).length = 1)) ::
        match given expectedGatewayIp, routesOf stdout with
        | some g, route :: _ => [(.routeAtGateway g, decide (g <:+: route))]
        | _, _ => []
  | .error e => [(.routeUnknown e, false)]

def resolverChecks (servers : List (List Char)) (expectedGatewayIp : Option (List Char)) :
    List (Check × Bool) :=
  (.singleResolver servers.dedup, decide (servers.dedup.length ≤ 1)) ::
    match given expectedGatewayIp with
    | some g => [(.resolverIsGateway g, decide (servers = [g]))]
    | none => []

/-- An exception while `/etc/resolv.conf` is taken apart is passed on, and there is no report. -/
def verifyIsolation (links routes : Except String (List Char)) (resolv : File)
    (expectedGatewayIp : Option (List Char)) : Option IsolationReport :=
  let first := interfaceChecks links ++ routeChecks routes expectedGatewayIp
  let interfaces := links.toOption.map fun stdout => (nonLo stdout).length
  let defaultRoutes := routes.toOption.map routesOf
  match resolv with
  | some _ =>
      (serversOf (readText resolv)).map fun servers =>
        { checks := first ++ resolverChecks servers expectedGatewayIp
          interfaces := interfaces
          defaultRoutes := defaultRoutes
          dnsServers := some servers }
  | none =>
      some { checks := first, interfaces := interfaces, defaultRoutes := defaultRoutes,
             dnsServers := none }

/-! ## What the commands print -/

/-- A line `index: name: …` of `ip -o link show`. -/
def linkLine (index : Nat) (name attributes : List Char) : List Char :=
  (toString index).toList ++ ": ".toList ++ name ++ ':' :: attributes

/-- An interface, with the line that is printed for it. -/
structure Interface where
  index : Nat
  name : List Char
  attributes : List Char
  unbroken : Unbroken (linkLine index name attributes)

def Interface.line (i : Interface) : List Char := linkLine i.index i.name i.attributes

def Interface.isLoopback (i : Interface) : Bool := decide (i.name = "lo".toList)

/-- The line that is printed for a default route. -/
structure DefaultRoute where
  line : List Char
  unbroken : Unbroken line
  nonBlank : ∃ c ∈ line, isSpace c = false

/-- The word after the word `via`. -/
def DefaultRoute.nextHop (r : DefaultRoute) : Option (List Char) :=
  ((words r.line).dropWhile (· ≠ "via".toList))[1]?

/-- The address that a line of `/etc/resolv.conf` names as a resolver. -/
def namedServer (line : List Char) : Option (List Char) :=
  match words line with
  | kw :: server :: _ => if kw = nameserver then some server else none
  | _ => none

/-- The resolvers that `/etc/resolv.conf` names. -/
def namedServers (resolv : File) : List (List Char) :=
  (splitlines (readText resolv)).filterMap namedServer

end PrivacyGuard.Workstation
