import PrivacyGuard.Model.Conntrack
import PrivacyGuard.Model.Gateway

set_option autoImplicit false

/-! # The way of an arriving packet

A packet that comes in from a network passes the nat PREROUTING chain, if it is the first of its
connection, and is then routed: to the machine itself, through the filter INPUT chain, or on to
another one, through the filter FORWARD chain. -/

namespace PrivacyGuard

open Netfilter

def gatewayRedirects (iface : String) : List (Rule Match) := [
  ⟨[.inIface false iface, .proto .tcp, .syn], .redirect transPort⟩,
  ⟨[.inIface false iface, .proto .udp, .dport 53], .redirect dnsPort⟩]

section

variable {F : Firewall Match} {iface : String} {T : Conntrack} {p : Packet}

end

end PrivacyGuard
