import PrivacyGuard.Model.Menu

set_option autoImplicit false

/-! # Scripts for the menu

What has to be typed so that the menu makes given calls. A `Request` is a choice with all that the
menu asks for it, in the types that can be typed; its `script` is typed for it, and the menu then
does what `perform` says and nothing else. -/

namespace PrivacyGuard.Menu

open Effect

/-! ## Requests -/

/-- A text that is taken as it is typed. -/
structure Answer where
  text : String
  clean : strip text = text

attribute [simp] Answer.clean

/-- One that is not taken for the default. -/
structure Name extends Answer where
  ne : text ≠ ""

/-- A number, as it is typed. -/
structure Number (D : Decimals) extends Answer where
  value : Int
  parses : int D text = some value

example (D : Decimals) : int D "4_5" = some 45 := by
  have h4 : D.value '4' = some 4 := D.ascii '4' (by decide)
  have h5 : D.value '5' = some 5 := D.ascii '5' (by decide)
  show (natural D ['4', '_', '5']).map (fun n => (n : Int)) = some 45
  have hgroups : ['4', '_', '5'].splitOn '_' = [['4'], ['5']] := by decide
  simp [natural, hgroups, h4, h5, maxStrDigits]

/-- A line that does not end a list of lines. -/
abbrev Line : Type := { l : String // l ≠ "" }

inductive Request (D : Decimals)
  | leakReport
  | printDnsLeakReport (expectTunnel : Bool)
  | tor (start : Bool)
  | rotateTorCircuit
  /-- The interface is asked for if there are several. -/
  | randomize (iface : String)
  | enableKillSwitch (timeout : Number D)
  | disableKillSwitch
  | stealthSysctls (enable : Bool)
  | portscanProtection (enable : Bool)
  | liveScanWatch (duration : Number D) (autoBlock : Bool)
  | watchHttpAccessLog (path : Answer)
  | configureBridges (lines : List Line)
  | proxychains (proxies : List Line) (mode : Name) (includeTor test : Bool)
  | enableProxyKillSwitch (host : Answer) (port : Number D) (ptype : Name)
      (user pw : Option Name) (verify : Bool)
  | disableProxyKillSwitch
  | resetSnapshot (h : Hypervisor) (name snap : Answer)
  | cleanTraces (wipeLogs : Bool)
  | saveLog (pw : String)
  | decryptLog (path : Answer) (pw : String)
  | fullStart (timeout : Number D) (randomizeIdentity : Bool)
  | fullStop (killApps : Bool) (wipe : Option Name)
  | launchGui
  | killRiskyApps
  | wipeFreeRam (mode : Name)
  | installShutdownHook (mode : Name)
  | removeShutdownHook
  | summary
  | verifyActive
  | startOpenvpn (cfg : Answer) (auth : Option Name)
  | stopOpenvpn
  | wireguard (start : Bool) (iface : Name)
  | listProfiles
  | saveProfile (name : Answer) (proxies bridges : List Line) (pw : String)
  | loadProfile (name : Answer) (pw : String)
  | startMonitor (interval : Number D)
  | stopMonitor
  | wire (h : Hypervisor) (gwVm wsVm : Answer) (netName ext : Name) (verify : Bool)
  | enableGateway (iface ip : Name) (extIface : Option Name)
  | disableGateway
  | configureNetworking (iface staticIp gwIp : Name)
  | verifyIsolation (gwIp : Name)

def yesNo (b : Bool) : String := if b then "y" else "n"

def enableDisable (b : Bool) : String := if b then "enable" else "disable"

def startStop (b : Bool) : String := if b then "start" else "stop"

/-- What is typed for an argument that may be missing. -/
def optional (a : Option Name) : String := a.elim "" (·.text)

/-- Lines, and the empty one behind them. -/
def block (ls : List Line) : List String := ls.map (·.val) ++ [""]

def hypervisorName : Hypervisor → String
  | .vbox => "vbox"
  | .virsh => "virsh"

namespace Request

variable {D : Decimals}

/-- The lines to be typed. -/
def script (env : Environment) : Request D → List String
  | leakReport => ["1"]
  | printDnsLeakReport expectTunnel => ["2", yesNo expectTunnel]
  | tor start => ["3", startStop start]
  | rotateTorCircuit => ["4"]
  | randomize iface => "5" :: if 2 ≤ env.interfaces.length then [iface] else []
  | enableKillSwitch timeout => ["6", "enable", timeout.text]
  | disableKillSwitch => ["6", "disable"]
  | stealthSysctls enable => ["7", enableDisable enable]
  | portscanProtection enable => ["8", enableDisable enable]
  | liveScanWatch duration autoBlock => ["9", duration.text, yesNo autoBlock]
  | watchHttpAccessLog path => ["10", path.text]
  | configureBridges lines => "11" :: block lines
  | proxychains proxies mode includeTor test =>
      "12" :: block proxies ++ [mode.text, yesNo includeTor, yesNo test]
  | enableProxyKillSwitch host port ptype user pw verify =>
      ["13", "enable", host.text, port.text, ptype.text, optional user, optional pw,
        yesNo verify]
  | disableProxyKillSwitch => ["13", "disable"]
  | resetSnapshot h name snap => ["14", hypervisorName h, name.text, snap.text]
  | cleanTraces wipeLogs => ["15", yesNo wipeLogs]
  | saveLog pw => ["16", "save", pw]
  | decryptLog path pw => ["16", "decrypt", path.text, pw]
  | fullStart timeout randomizeIdentity => ["17", timeout.text, yesNo randomizeIdentity]
  | fullStop killApps (some mode) => ["18", yesNo killApps, "y", mode.text]
  | fullStop killApps none => ["18", yesNo killApps, "n"]
  | launchGui => ["19"]
  | killRiskyApps => ["20"]
  | wipeFreeRam mode => ["21", mode.text]
  | installShutdownHook mode => ["22", "install", mode.text]
  | removeShutdownHook => ["22", "remove"]
  | summary => ["23"]
  | verifyActive => ["24"]
  | startOpenvpn cfg auth => ["25", "openvpn", "start", cfg.text, optional auth]
  | stopOpenvpn => ["25", "openvpn", "stop"]
  | wireguard start iface => ["25", "wireguard", startStop start, iface.text]
  | listProfiles => ["26", "list"]
  | saveProfile name proxies bridges pw =>
      "26" :: "save" :: name.text :: block proxies ++ (block bridges ++ [pw])
  | loadProfile name pw => ["26", "load", name.text, pw]
  | startMonitor interval => ["27", "start", interval.text]
  | stopMonitor => ["27", "stop"]
  | wire .vbox gwVm wsVm netName ext verify =>
      ["28", "vbox", gwVm.text, wsVm.text, netName.text, ext.text, yesNo verify]
  | wire .virsh gwVm wsVm netName ext _ =>
      ["28", "virsh", gwVm.text, wsVm.text, netName.text, ext.text]
  | enableGateway iface ip extIface => ["29", "enable", iface.text, ip.text, optional extIface]
  | disableGateway => ["29", "disable"]
  | configureNetworking iface staticIp gwIp =>
      ["30", "configure", iface.text, staticIp.text, gwIp.text]
  | verifyIsolation gwIp => ["30", "verify", gwIp.text]

end Request

/-- A call, and what is done with its answer. -/
def Call.andThen {α : Type} (c : Call) (k : Bool → Prog calls α) : Prog calls α :=
  Prog.call (S := calls) c k

/-- The calls one after the other. -/
def inTurn : List Call → Prog calls Unit
  | [] => pure ()
  | c :: cs => c.andThen fun _ => inTurn cs

namespace Request

variable {D : Decimals}

/-- What the request is for. -/
def perform (env : Environment) : Request D → Prog calls Unit
  | leakReport => inTurn [.leakReport]
  | printDnsLeakReport expectTunnel => inTurn [.printDnsLeakReport expectTunnel]
  | tor start => inTurn [if start then .startTor else .stopTor]
  | rotateTorCircuit => inTurn [.rotateTorCircuit]
  | randomize iface =>
      match env.interfaces with
      | [] => inTurn [.randomizeHostname]
      | [only] => inTurn [.randomizeMac only, .randomizeHostname]
      | _ => inTurn [.randomizeMac iface, .randomizeHostname]
  | enableKillSwitch timeout => inTurn [.enableKillSwitch timeout.value]
  | disableKillSwitch => inTurn [.disableKillSwitch]
  | stealthSysctls enable =>
      inTurn [if enable then .enableStealthSysctls else .disableStealthSysctls]
  | portscanProtection enable =>
      inTurn [if enable then .enablePortscanProtection else .disablePortscanProtection]
  | liveScanWatch duration autoBlock => inTurn [.liveScanWatch duration.value autoBlock]
  | watchHttpAccessLog path => inTurn [.watchHttpAccessLog path.text]
  | configureBridges lines => inTurn [.configureBridges (lines.map (·.val))]
  | proxychains proxies mode includeTor test =>
      inTurn (.generateProxychainsConf (proxies.map (·.val)) mode.text includeTor ::
        if test then [.testProxychains] else [])
  | enableProxyKillSwitch host port ptype user pw verify =>
      Call.andThen (.enableProxyKillSwitch host.text port.value ptype.text
        (user.map (·.text)) (pw.map (·.text))) fun active =>
        inTurn (if active && verify then [.verifyProxyKillSwitch host.text] else [])
  | disableProxyKillSwitch => inTurn [.disableProxyKillSwitch]
  | resetSnapshot .vbox name snap => inTurn [.resetVboxSnapshot name.text snap.text]
  | resetSnapshot .virsh name snap => inTurn [.resetVirshSnapshot name.text snap.text]
  | cleanTraces wipeLogs => inTurn [.cleanTraces wipeLogs]
  | saveLog pw => inTurn [.saveLog pw]
  | decryptLog path pw => inTurn [.decryptLog path.text pw]
  | fullStart timeout randomizeIdentity => inTurn [.fullStart timeout.value randomizeIdentity]
  | fullStop killApps (some mode) => inTurn [.fullStop killApps true mode.text]
  | fullStop killApps none => inTurn [.fullStop killApps false "fast"]
  | launchGui => inTurn [.launchGui]
  | killRiskyApps => inTurn [.killRiskyApps]
  | wipeFreeRam mode => inTurn [.wipeFreeRam mode.text]
  | installShutdownHook mode => inTurn [.installShutdownHook mode.text]
  | removeShutdownHook => inTurn [.removeShutdownHook]
  | summary => inTurn [.summary]
  | verifyActive => inTurn [.verifyActive]
  | startOpenvpn cfg auth => inTurn [.startOpenvpn cfg.text (auth.map (·.text))]
  | stopOpenvpn => inTurn [.stopOpenvpn]
  | wireguard start iface =>
      inTurn [if start then .startWireguard iface.text else .stopWireguard iface.text]
  | listProfiles => inTurn [.listProfiles]
  | saveProfile name proxies bridges pw =>
      inTurn [.saveProfile name.text (proxies.map (·.val)) (bridges.map (·.val)) pw]
  | loadProfile name pw => inTurn [.loadProfile name.text pw]
  | startMonitor interval => inTurn [.startMonitor interval.value]
  | stopMonitor => inTurn [.stopMonitor]
  | wire .vbox gwVm wsVm netName ext verify =>
      inTurn (.vboxWireGateway gwVm.text ext.text netName.text ::
        .vboxWireWorkstation wsVm.text netName.text ::
        if verify then [.vboxVerifyTopology gwVm.text wsVm.text] else [])
  | wire .virsh gwVm wsVm netName ext _ =>
      inTurn [.virshCreateIsolatedNetwork netName.text,
        .virshWireGateway gwVm.text ext.text netName.text,
        .virshWireWorkstation wsVm.text netName.text]
  | enableGateway iface ip extIface =>
      inTurn [.enableGateway ⟨iface.text, ip.text, extIface.map (·.text)⟩]
  | disableGateway => inTurn [.disableGateway]
  | configureNetworking iface staticIp gwIp =>
      inTurn [.configureNetworking iface.text staticIp.text gwIp.text]
  | verifyIsolation gwIp => inTurn [.verifyIsolation gwIp.text]

end Request

/-! ## What the menu does with the lines -/

section

variable {D : Decimals} {turn : String → Talk Bool} {l : String} {ls : List String}

@[simp] theorem feed_input (k : String → Talk Bool) :
    Dialog.feed turn (l :: ls) (input >>= k) = Dialog.feed turn ls (k l) := rfl

@[simp] theorem feed_promptEnable (k : Bool → Talk Bool) :
    Dialog.feed turn (l :: ls) (promptEnable >>= k) =
      Dialog.feed turn ls (k (lower (strip l) = "enable")) := rfl

@[simp] theorem feed_call (c : Call) (k : Bool → Talk Bool) :
    Dialog.feed turn ls (call c >>= k) = c.andThen fun r => Dialog.feed turn ls (k r) := rfl

@[simp] theorem feed_readLines (xs : List Line) (k : List String → Talk Bool) :
    Dialog.feed turn (block xs ++ ls) (readLines >>= k) =
      Dialog.feed turn ls (k (xs.map (·.val))) := by
  rw [block, List.append_assoc, List.singleton_append]
  refine Dialog.feed_inputWhile (fun x hx => ?_) rfl k
  obtain ⟨y, -, rfl⟩ := List.mem_map.mp hx
  exact decide_eq_true y.property

theorem Number.text_ne (n : Number D) : n.text ≠ "" := by
  intro h
  have hnone : int D "" = none := rfl
  have hsome := n.parses
  rw [h, hnone] at hsome
  cases hsome

@[simp] theorem feed_readInt (n : Number D) (k : Int → Talk Bool) :
    Dialog.feed turn ls (readInt D n.text >>= k) = Dialog.feed turn ls (k n.value) := by
  rw [readInt, n.parses]
  rfl

@[simp] theorem feed_readIntOr (n : Number D) (default : Int) (k : Int → Talk Bool) :
    Dialog.feed turn ls (readIntOr D n.text default >>= k) =
      Dialog.feed turn ls (k n.value) := by
  rw [readIntOr, if_neg n.text_ne, feed_readInt]

end

/-! ## The answers -/

@[simp] theorem orElse_name (a : Name) (default : String) : orElse a.text default = a.text :=
  if_neg a.ne

@[simp] theorem orNone_optional (a : Option Name) : orNone (optional a) = a.map (·.text) := by
  cases a with
  | none => rfl
  | some a => exact if_neg a.ne

@[simp] theorem strip_optional (a : Option Name) : strip (optional a) = optional a := by
  cases a with
  | none => rfl
  | some a => exact a.clean

@[simp] theorem yesNo_eq (b : Bool) : (lower (strip (yesNo b)) = "y" ↔ b = true) ∧
    (lower (strip (yesNo b)) = "n" ↔ b = false) := by
  cases b <;> decide

@[simp] theorem enableDisable_eq (b : Bool) :
    lower (strip (enableDisable b)) = "enable" ↔ b = true := by
  cases b <;> decide

@[simp] theorem startStop_eq (b : Bool) : (strip (startStop b) = "start" ↔ b = true) ∧
    (lower (strip (startStop b)) = "start" ↔ b = true) := by
  cases b <;> decide

/-- The words of the menu are taken as they are typed. -/
def words : List String :=
  ["0", "1", "2", "3", "4", "5", "6", "7", "8", "9", "10", "11", "12", "13", "14", "15", "16",
    "17", "18", "19", "20", "21", "22", "23", "24", "25", "26", "27", "28", "29", "30", "enable",
    "disable", "start", "stop", "save", "decrypt", "load", "list", "install", "remove", "vbox",
    "virsh", "openvpn", "wireguard", "configure", "verify", "y", "n"]

theorem strip_word {w : String} (hw : w ∈ words) : strip w = w := by
  revert w
  decide +kernel

theorem lower_word {w : String} (hw : w ∈ words) : lower w = w := by
  revert w
  decide +kernel

variable {D : Decimals} {env : Environment}

@[simp] theorem turn_words : turn D env "1" = callAndBack .leakReport ∧
    turn D env "2" = option2 ∧
    turn D env "3" = option3 ∧
    turn D env "4" = callAndBack .rotateTorCircuit ∧
    turn D env "5" = option5 env ∧
    turn D env "6" = option6 D ∧
    turn D env "7" = option7 ∧
    turn D env "8" = option8 ∧
    turn D env "9" = option9 D ∧
    turn D env "10" = option10 ∧
    turn D env "11" = option11 ∧
    turn D env "12" = option12 ∧
    turn D env "13" = option13 D ∧
    turn D env "14" = option14 ∧
    turn D env "15" = option15 ∧
    turn D env "16" = option16 ∧
    turn D env "17" = option17 D ∧
    turn D env "18" = option18 ∧
    turn D env "19" = callAndBack .launchGui ∧
    turn D env "20" = callAndBack .killRiskyApps ∧
    turn D env "21" = option21 ∧
    turn D env "22" = option22 ∧
    turn D env "23" = callAndBack .summary ∧
    turn D env "24" = callAndBack .verifyActive ∧
    turn D env "25" = option25 ∧
    turn D env "26" = option26 ∧
    turn D env "27" = option27 D ∧
    turn D env "28" = option28 ∧
    turn D env "29" = option29 env ∧
    turn D env "30" = option30 env ∧
    turn D env "0" = pure false := by
  simp (disch := decide +kernel) only [turn, strip_word, choose, and_self]

@[simp] theorem menu_cons (c : String) (ls : List String) :
    menu D env (c :: ls) = Dialog.feed (turn D env) ls (turn D env c) := rfl

@[simp] theorem feed_callAndBack (c : Call) (ls : List String) :
    Dialog.feed (turn D env) ls (callAndBack c) = c.andThen fun _ => menu D env ls := rfl

@[simp] theorem serve_turn (ls : List String) :
    Dialog.serve (turn D env) ls = menu D env ls := rfl

@[simp] theorem inTurn_nil {α : Type} (k : Unit → Prog calls α) : (inTurn [] >>= k) = k () := rfl

@[simp] theorem inTurn_cons {α : Type} (c : Call) (cs : List Call) (k : Unit → Prog calls α) :
    (inTurn (c :: cs) >>= k) = c.andThen fun _ => inTurn cs >>= k := rfl

@[simp] theorem andThen_bind {α β : Type} (c : Call) (p : Bool → Prog calls α)
    (k : α → Prog calls β) : (c.andThen p >>= k) = c.andThen fun b => p b >>= k := rfl

/-- The choice that asks for something according to the machine it runs on. -/
theorem menu_randomize (iface : String) (rest : List String) :
    menu D env ((Request.randomize (D := D) iface).script env ++ rest) =
      (Request.randomize (D := D) iface).perform env >>= fun _ => menu D env rest := by
  unfold Request.script Request.perform
  rcases hifaces : env.interfaces with _ | ⟨i, _ | ⟨j, is⟩⟩
  · simp [option5, hifaces]
  · simp [option5, hifaces]
  · simp [option5, hifaces]

/-- What is typed for a question that is not asked is a choice the menu does not have. -/
@[simp] theorem turn_yesNo (b : Bool) : turn D env (yesNo b) = pure true := by
  cases b <;> simp (disch := decide +kernel) [turn, yesNo, strip_word, choose]

/-- The choice that asks for something according to the answer of a call. -/
theorem menu_enableProxyKillSwitch (host : Answer) (port : Number D) (ptype : Name)
    (user pw : Option Name) (verify : Bool) (rest : List String) :
    menu D env ((Request.enableProxyKillSwitch host port ptype user pw verify).script env ++
        rest) =
      (Request.enableProxyKillSwitch host port ptype user pw verify).perform env >>=
        fun _ => menu D env rest := by
  simp (disch := decide +kernel) [Request.script, Request.perform, option13, strip_word,
    lower_word]
  congr 1
  funext active
  cases active <;> cases verify <;> simp

theorem menu_request (r : Request D) (rest : List String) :
    menu D env (r.script env ++ rest) = r.perform env >>= fun _ => menu D env rest := by
  cases r with
  -- nothing is asked for these
  | leakReport =>
      simp [Request.script, Request.perform]
  | rotateTorCircuit =>
      simp [Request.script, Request.perform]
  | launchGui =>
      simp [Request.script, Request.perform]
  | killRiskyApps =>
      simp [Request.script, Request.perform]
  | summary =>
      simp [Request.script, Request.perform]
  | verifyActive =>
      simp [Request.script, Request.perform]
  -- the answers are read off; a word of the menu is read as it is
  | printDnsLeakReport b =>
      simp [Request.script, Request.perform, option2]
  | tor b =>
      simp [Request.script, Request.perform, option3]
  | enableKillSwitch n =>
      simp (disch := decide +kernel) [Request.script, Request.perform, option6,
        strip_word, lower_word]
  | disableKillSwitch =>
      simp (disch := decide +kernel) [Request.script, Request.perform, option6,
        strip_word, lower_word]
  | stealthSysctls b =>
      simp [Request.script, Request.perform, option7]
  | portscanProtection b =>
      simp [Request.script, Request.perform, option8]
  | liveScanWatch n b =>
      simp [Request.script, Request.perform, option9]
  | watchHttpAccessLog a =>
      simp [Request.script, Request.perform, option10]
  | configureBridges xs =>
      simp [Request.script, Request.perform, option11]
  | proxychains xs a b b' => cases b' <;> simp [Request.script, Request.perform, option12]
  | disableProxyKillSwitch =>
      simp (disch := decide +kernel) [Request.script, Request.perform, option13,
        strip_word, lower_word]
  | cleanTraces b =>
      simp [Request.script, Request.perform, option15]
  | saveLog pw =>
      simp (disch := decide +kernel) [Request.script, Request.perform, option16, strip_word]
  | decryptLog a pw =>
      simp (disch := decide +kernel) [Request.script, Request.perform, option16, strip_word]
  | fullStart n b =>
      simp [Request.script, Request.perform, option17]
  | wipeFreeRam a =>
      simp [Request.script, Request.perform, option21]
  | installShutdownHook a =>
      simp (disch := decide +kernel) [Request.script, Request.perform, option22, strip_word]
  | removeShutdownHook =>
      simp (disch := decide +kernel) [Request.script, Request.perform, option22, strip_word]
  | startOpenvpn a a' =>
      simp (disch := decide +kernel) [Request.script, Request.perform, option25,
        strip_word, lower_word]
  | stopOpenvpn =>
      simp (disch := decide +kernel) [Request.script, Request.perform, option25,
        strip_word, lower_word]
  | wireguard b a =>
      simp (disch := decide +kernel) [Request.script, Request.perform, option25,
        strip_word, lower_word]
  | listProfiles =>
      simp (disch := decide +kernel) [Request.script, Request.perform, option26,
        strip_word, lower_word]
  | saveProfile a xs ys pw =>
      simp (disch := decide +kernel) [Request.script, Request.perform, option26,
        strip_word, lower_word]
  | loadProfile a pw =>
      simp (disch := decide +kernel) [Request.script, Request.perform, option26,
        strip_word, lower_word]
  | startMonitor n =>
      simp (disch := decide +kernel) [Request.script, Request.perform, option27,
        strip_word, lower_word]
  | stopMonitor =>
      simp (disch := decide +kernel) [Request.script, Request.perform, option27,
        strip_word, lower_word]
  | enableGateway a a' a'' =>
      simp (disch := decide +kernel) [Request.script, Request.perform, option29,
        strip_word, lower_word]
  | disableGateway =>
      simp (disch := decide +kernel) [Request.script, Request.perform, option29,
        strip_word, lower_word]
  | configureNetworking a a' a'' =>
      simp (disch := decide +kernel) [Request.script, Request.perform, option30, strip_word]
  | verifyIsolation a =>
      simp (disch := decide +kernel) [Request.script, Request.perform, option30, strip_word]
  -- what is typed depends on the argument
  | fullStop b mode =>
      cases mode <;>
        simp (disch := decide +kernel) [Request.script, Request.perform, option18, strip_word,
          lower_word]
  | resetSnapshot h a a' =>
      cases h <;>
        simp (disch := decide +kernel) [Request.script, Request.perform, option14,
          hypervisorName, strip_word, lower_word]
  | wire h a a' net ext b =>
      cases h <;>
        simp (disch := decide +kernel) [Request.script, Request.perform, option28, strip_word,
          lower_word]
      cases b <;> simp
  | randomize iface => exact menu_randomize iface rest
  | enableProxyKillSwitch host port ptype user pw verify =>
      exact menu_enableProxyKillSwitch host port ptype user pw verify rest

/-- The requests one after the other. -/
def performAll (env : Environment) : List (Request D) → Prog calls Unit
  | [] => pure ()
  | r :: rs => do
      r.perform env
      performAll env rs

/-- **Scripts.** Whatever one wants the menu to do can be typed: the menu then makes these calls in
this order, and stops. -/
theorem menu_script (D : Decimals) (env : Environment) (rs : List (Request D))
    (rest : List String) :
    menu D env (rs.flatMap (·.script env) ++ "0" :: rest) =
      (do performAll env rs; pure (.stopped, rest)) := by
  induction rs with
  | nil =>
      simp
      rfl
  | cons r rs ih =>
      rw [List.flatMap_cons, List.append_assoc, menu_request, ih, performAll, Prog.bind_assoc]

end PrivacyGuard.Menu
