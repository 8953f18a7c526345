import PrivacyGuard.Model.ProxyOnly
import PrivacyGuard.Text.Config

set_option autoImplicit false

/-! # The configuration of redsocks

The text that `generate_redsocks_conf` writes to `REDSOCKS_CONF`. -/

namespace PrivacyGuard.RedsocksConf

open Config

def knownTypes : List String := ["socks5", "socks4", "http-connect", "http-relay"]

/-- The type that is written. -/
def confType (proxyType : String) : String :=
  if proxyType ∈ knownTypes then proxyType else "socks5"

/-- Both the user name and the password are needed. -/
def authLines (username password : Option String) : String :=
  let username := username.getD ""
  let password := password.getD ""
  if username ≠ "" ∧ password ≠ "" then
    s!"    login = \"{username}\";\n    password = \"{password}\";\n"
  else ""

/-- The part that is the same for every proxy. -/
def confHead : String :=
  s!"base \x7b
    log_debug = off;
    log_info = on;
    log = \"syslog:daemon\";
    daemon = on;
    redirector = iptables;
\x7d

redsocks \x7b
    local_ip = 127.0.0.1;
    local_port = {redsocksLocalPort};
"

/-- The text that is written. -/
def generateRedsocksConf (a : ProxyArgs) : String :=
  confHead ++ s!"    ip = {a.proxyHost};
    port = {a.proxyPort};
    type = {confType a.proxyType};
{authLines a.username a.password}\x7d
"

/-! ## Its statements -/

def baseBlock : Block where
  name := "base".toList
  items := [
    ⟨"log_debug".toList, "off".toList⟩,
    ⟨"log_info".toList, "on".toList⟩,
    ⟨"log".toList, "syslog:daemon".toList⟩,
    ⟨"daemon".toList, "on".toList⟩,
    ⟨"redirector".toList, "iptables".toList⟩]

def baseLines : List (List Char) := [
  statement "log_debug".toList "off".toList,
  statement "log_info".toList "on".toList,
  statement "log".toList (quote "syslog:daemon".toList),
  statement "daemon".toList "on".toList,
  statement "redirector".toList "iptables".toList]

def localLines : List (List Char) := [
  statement "local_ip".toList "127.0.0.1".toList,
  statement "local_port".toList "12345".toList]

def proxyLines (host : String) (port : Nat) (type : String) : List (List Char) := [
  statement "ip".toList host.toList,
  statement "port".toList (toString port).toList,
  statement "type".toList (confType type).toList]

theorem toList_confHead : confHead.toList =
    ("base".toList ++ " \x7b\n".toList) ++ (baseLines.flatten ++ ("\x7d\n".toList ++
      ("\n".toList ++ (("redsocks".toList ++ " \x7b\n".toList) ++ localLines.flatten)))) := by
  decide +kernel

/-- The statements that depend on the proxy. -/
theorem toList_conf (host : String) (port : Nat) (type : String) {u p : String} (hu : u ≠ "")
    (hp : p ≠ "") :
    (generateRedsocksConf ⟨host, port, type, some u, some p⟩).toList =
      confHead.toList ++ ((proxyLines host port type).flatten ++
        (statement "login".toList (quote u.toList) ++
        (statement "password".toList (quote p.toList) ++ "\x7d\n".toList))) := by
  have hauth : authLines (some u) (some p) =
      "    login = \"" ++ u ++ "\";\n    password = \"" ++ p ++ "\";\n" := if_pos ⟨hu, hp⟩
  have htext : ∀ s : String, toString s = s := fun _ => rfl
  unfold generateRedsocksConf
  generalize confHead = s
  simp only [hauth, htext, String.toList_append, proxyLines, List.flatten_cons, List.flatten_nil,
    statement_eq, quote, List.append_assoc, List.cons_append, List.nil_append]
  rfl

theorem isDigit_of_mem_port {port : Nat} {c : Char} (hc : c ∈ (toString port).toList) :
    c.isDigit = true := by
  rw [Nat.toString_eq_repr, Nat.toList_repr] at hc
  exact Nat.isDigit_of_mem_toDigits (by decide) (by decide) hc

end PrivacyGuard.RedsocksConf
