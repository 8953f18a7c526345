import PrivacyGuard.Effect.Runs
import PrivacyGuard.Model.System
import PrivacyGuard.Text.Stamps

set_option autoImplicit false

/-! # Hardware addresses

`random_mac` and `randomize_mac` of `core.py`. A command that fails changes nothing. What
NetworkManager does when it is asked for a lease is a parameter. -/

namespace PrivacyGuard.Mac

open Effect Text

/-! ## Addresses -/

/-- What `random_mac` draws. -/
structure Draw where
  first : Nat
  rest : List Nat
  first_mem : first ∈ [0x02, 0x06, 0x0A, 0x0E]
  length_rest : rest.length = 5
  rest_le : ∀ b ∈ rest, b ≤ 0xFF

def Draw.bytes (d : Draw) : List Nat := d.first :: d.rest

/-- `":".join(f"{b:02x}" for b in [first] + rest)` -/
def randomMac (d : Draw) : List Char := [':'].intercalate (d.bytes.map (fixed 16 2))

/-- Six bytes in hexadecimal, with colons between them. -/
def addressFormat : Format := [([], 2), ([':'], 2), ([':'], 2), ([':'], 2), ([':'], 2), ([':'], 2)]

/-- The bytes that `ip` and `macchanger` find in an argument. -/
def readAddress (text : List Char) : Option (List Nat) := readStamp 16 addressFormat text

/-! ## Interfaces -/

/-- No operation looks at `takenDown`, which says that the tool has taken the interface down. -/
structure Link where
  up : Bool
  address : List Nat
  takenDown : Bool
  deriving DecidableEq

abbrev Links : Type := String → Option Link

inductive Command
  /-- `ip link set dev iface down` -/
  | linkDown (iface : String)
  /-- `macchanger -m mac iface` -/
  | macchanger (mac : List Char) (iface : String)
  /-- `ip link set dev iface address mac` -/
  | linkAddress (iface : String) (mac : List Char)
  /-- `ip link set dev iface up` -/
  | linkUp (iface : String)
  deriving DecidableEq

/-- How a command ends; one that is not installed raises a `FileNotFoundError`. -/
inductive Exit
  | done
  | failed
  | missing
  deriving DecidableEq

inductive Op
  | draw
  | run (c : Command)
  | haveNmcli
  | waitForCarrier (iface : String)
  /-- `nmcli device connect iface` -/
  | connect (iface : String)

def ret : Op → Type
  | .draw => Draw
  | .run _ => Exit
  | _ => Bool

abbrev macSig : Sig := ⟨Op, ret⟩

def Command.iface : Command → String
  | linkDown iface => iface
  | macchanger _ iface => iface
  | linkAddress iface _ => iface
  | linkUp iface => iface

/-- What a command that goes through does to its interface. -/
def Command.effect (l : Link) : Command → Link
  | linkDown _ => { l with up := false, takenDown := true }
  | macchanger mac _ => { l with address := (readAddress mac).getD l.address }
  | linkAddress _ mac => { l with address := (readAddress mac).getD l.address }
  | linkUp _ => { l with up := true }

/-- There is no other effect of a command than the one on its interface. -/
def Command.exec (c : Command) (w : Links) : Exit → Links
  | .done => Function.update w c.iface ((w c.iface).map c.effect)
  | _ => w

/-- What is drawn, how a command ends, and what the rest answers. -/
structure Choice where
  draw : Draw
  exit : Exit
  yes : Bool

/-- NetworkManager is set to preserve hardware addresses: with `nmcli device connect` on an
interface that is up, no interface gets another address, goes up or goes down. -/
def Preserves (connected : String → Links → Links) : Prop :=
  ∀ iface w l, w iface = some l → l.up = true → connected iface w = w

/-- A command fails where there is no such interface. -/
def links (connected : String → Links → Links) : Handler macSig Links Choice where
  exec o c w :=
    match o with
    | .draw => (c.draw, w)
    | .run command => (c.exit, command.exec w c.exit)
    | .haveNmcli => (c.yes, w)
    | .waitForCarrier _ => (c.yes, w)
    | .connect iface => (c.yes, connected iface w)
  admits o c w :=
    match o with
    | .run command => c.exit = .done → (w command.iface).isSome = true
    | _ => True

/-! ## The call -/

/-- What the call prints in the end, or an exception. -/
inductive Outcome
  | notAvailable
  | needsRoot
  | failed
  | raised
  | set (mac : List Char)
  deriving DecidableEq

def draw : Prog macSig Draw := Prog.op (S := macSig) .draw

def run (c : Command) : Prog macSig Exit := Prog.op (S := macSig) (.run c)

def haveNmcli : Prog macSig Bool := Prog.op (S := macSig) .haveNmcli

def waitForCarrier (iface : String) : Prog macSig Bool :=
  Prog.op (S := macSig) (.waitForCarrier iface)

def connect (iface : String) : Prog macSig Bool := Prog.op (S := macSig) (.connect iface)

/-- `subprocess.run(command, check=True)`, and what comes after it. -/
def checked (c : Command) (next : Prog macSig Outcome) : Prog macSig Outcome := do
  let exit ← run c
  match exit with
  | .done => next
  | .failed => return .failed
  | .missing => return .raised

def renewLease (iface : String) : Prog macSig Unit := do
  let nmcli ← haveNmcli
  if nmcli then
    let carrier ← waitForCarrier iface
    if carrier then
      let _ ← connect iface

/-- The command that gives an interface its address. -/
def setAddress (hasMacchanger : Bool) (mac : List Char) (iface : String) : Command :=
  if hasMacchanger then .macchanger mac iface else .linkAddress iface mac

/-- `randomize_mac`; `hasMacchanger` is `env.has_macchanger`. -/
def randomizeMac (env : Environment) (hasMacchanger : Bool) (iface : String) (renewDhcp : Bool) :
    Prog macSig Outcome := do
  if env.termux then
    return .notAvailable
  if !env.root then
    return .needsRoot
  let d ← draw
  let newMac := randomMac d
  checked (.linkDown iface) do
    checked (setAddress hasMacchanger newMac iface) do
      checked (.linkUp iface) do
        if renewDhcp then
          renewLease iface
        return .set newMac

/-- The arguments of a call. -/
structure Request where
  env : Environment
  hasMacchanger : Bool
  iface : String
  renewDhcp : Bool

def Request.body (r : Request) : Prog macSig Outcome :=
  randomizeMac r.env r.hasMacchanger r.iface r.renewDhcp

end PrivacyGuard.Mac
