import PrivacyGuard.Model.Sessions
import PrivacyGuard.Properties.RulesInForce

set_option autoImplicit false

/-! # Whatever is typed

The menu never passes `force`, so that nothing that is typed makes a flag of a kill switch lie, as
long as gateway mode is left alone: its choice can switch it off under a kill switch. -/

namespace PrivacyGuard.Menu

open Netfilter Effect

/-! ## The calls a session makes -/

/-- Neither the GUI nor gateway mode. -/
def Call.Plain : Call → Prop
  | .launchGui | .enableGateway _ | .disableGateway => False
  | _ => True

section

variable {D : Decimals} {P : Call → Prop} {α : Type}

end

section

variable {w w' : World} {env : Environment}

/-- A program keeps the rules of the kill switches in force. -/
def Keeps {α : Type} (p : Proc α) : Prop :=
  ∀ w, SwitchesInForce w → p.wp (machine reliableAndTruthful) (fun _ => SwitchesInForce) w

section

variable {α β : Type} {p : Proc α}

end

end

/-! ## The sessions -/

/-- Neither the option nor the choice is used that shows the GUI, nor the choice for gateway
mode. -/
structure Session.Plain (s : Session) : Prop where
  args : s.args.gui = false
  typed : ∀ l ∈ s.typed, strip l ≠ "19" ∧ strip l ≠ "29"

end PrivacyGuard.Menu
