import PrivacyGuard.Text.Lines
import PrivacyGuard.Text.Split

set_option autoImplicit false

/-! # The torrc file

The functions that write the configuration of Tor: `_ensure_transparent_proxy_torrc` of
`core.py`, `_write_gateway_torrc_snippet` of `gateway.py` and `configure_bridges` of
`proxy_tor.py`. The first two each keep a block of their own between two markers. -/

namespace PrivacyGuard.Torrc

open Text

/-- The text of the file on disk, if there is one. -/
abbrev File := Option (List Char)

/-- `path.read_text() if path.exists() else ""` -/
def readText (f : File) : List Char := universalNewlines (f.getD [])

/-- What the user who makes a call may do with the file. -/
inductive Access
  | granted
  | unreadable
  | unwritable
  deriving DecidableEq

/-- `line.strip().startswith(keywords)` -/
def startsWith (keywords : List (List Char)) (line : List Char) : Bool :=
  keywords.any fun kw => kw.isPrefixOf (strip line)

def transPort : List Char := "TransPort".toList
def dnsPort : List Char := "DNSPort".toList

def isPort (line : List Char) : Bool := startsWith [transPort, dnsPort] line

def isBridge (line : List Char) : Bool :=
  startsWith ["UseBridges".toList, "Bridge ".toList] line

/-! ## The kill switch -/

def killStart : List Char := "# --- PrivacyGuard kill switch (managed block) ---".toList
def killEnd : List Char := "# --- end PrivacyGuard kill switch ---".toList

def killLines : List (List Char) :=
  [killStart, "TransPort 127.0.0.1:9040".toList, "DNSPort 127.0.0.1:5353".toList,
    "AutomapHostsOnResolve 1".toList, killEnd]

def killBlock : List Char := unlines killLines

/-- The text without the block of an earlier call. -/
def withoutKillBlock (original : List Char) : List Char :=
  if killStart <:+: original ∧ killEnd <:+: original then
    splitFirst killStart original ++ splitLast killEnd original
  else original

/-- The text `_ensure_transparent_proxy_torrc` writes. -/
def killText (original : List Char) : List Char :=
  let kept := (splitlines (withoutKillBlock original)).filter fun line => !isPort line
  let base := rstripNewlines (joinLines kept)
  if base = [] then killBlock else base ++ ['\n', '\n'] ++ killBlock

def ensureTransparentProxyTorrc (a : Access) (f : File) : Bool × File :=
  if a = .unreadable then (false, f)
  else if killText (readText f) = readText f then (false, f)
  else if a = .unwritable then (false, f)
  else (true, some (killText (readText f)))

/-! ## Gateway mode -/

def gatewayStart : List Char := "# --- PrivacyGuard gateway mode (managed block) ---".toList
def gatewayEnd : List Char := "# --- end PrivacyGuard gateway mode ---".toList

def gatewayLines (internalIp : List Char) : List (List Char) :=
  [gatewayStart, "TransPort 127.0.0.1:9040".toList,
    "TransPort ".toList ++ internalIp ++ ":9040".toList, "DNSPort 127.0.0.1:5353".toList,
    "DNSPort ".toList ++ internalIp ++ ":5353".toList, "AutomapHostsOnResolve 1".toList,
    gatewayEnd]

def gatewayBlock (internalIp : List Char) : List Char := unlines (gatewayLines internalIp)

/-- The text `_write_gateway_torrc_snippet` writes. -/
def gatewayText (internalIp existing : List Char) : List Char :=
  if gatewayStart <:+: existing then
    splitFirst gatewayStart existing ++ gatewayBlock internalIp ++ splitLast gatewayEnd existing
  else rstripNewlines existing ++ ['\n', '\n'] ++ gatewayBlock internalIp

/-- Without the right to read and to write the file it raises an exception. -/
def writeGatewayTorrcSnippet (a : Access) (internalIp : List Char) (f : File) : File :=
  if a = .granted then some (gatewayText internalIp (readText f)) else f

/-! ## Bridges -/

def bridgeLine (b : List Char) : List Char := "Bridge ".toList ++ strip b

def withoutBridges (ls : List (List Char)) : List (List Char) :=
  ls.filter fun line => !isBridge line

/-- The lines `configure_bridges` writes. -/
def bridgedLines (bridgeLines : List (List Char)) (existing : List Char) : List (List Char) :=
  withoutBridges (splitlines existing) ++ "UseBridges 1".toList :: bridgeLines.map bridgeLine

def configureBridges (a : Access) (bridgeLines : List (List Char)) (f : File) : File :=
  if bridgeLines = [] then f
  else if a = .granted then
    some (joinLines (bridgedLines bridgeLines (readText f)) ++ ['\n'])
  else f

/-! ## Ports -/

/-- The address and the port that a line with the keyword `kw` binds; without an address it is
that of the loopback interface. -/
def binding (kw line : List Char) : Option (List Char) :=
  if kw.isPrefixOf (strip line) then
    let word := (((strip line).drop kw.length).dropWhile isSpace).takeWhile fun c => !isSpace c
    some (if ':' ∈ word then word else "127.0.0.1:".toList ++ word)
  else none

/-- What the lines with the keyword `kw` bind, as the functions above see the lines. -/
def bindings (kw : List Char) (f : File) : List (List Char) :=
  (splitlines (readText f)).filterMap (binding kw)

/-- No address and port is bound twice. -/
def NoConflict (f : File) : Prop :=
  (bindings transPort f).Nodup ∧ (bindings dnsPort f).Nodup

instance (f : File) : Decidable (NoConflict f) :=
  inferInstanceAs (Decidable (_ ∧ _))

/-! ## Calls -/

/-- An address of the internal interface. -/
structure InternalIp where
  text : List Char
  noSpace : NoSpace text

/-- A call of one of the three functions. -/
inductive Call
  | ensureTransparentProxyTorrc
  | writeGatewayTorrcSnippet (ip : InternalIp)
  | configureBridges (bridgeLines : List (List Char))

def Call.perform (f : File) (a : Access) : Call → File
  | .ensureTransparentProxyTorrc => (Torrc.ensureTransparentProxyTorrc a f).2
  | .writeGatewayTorrcSnippet ip => Torrc.writeGatewayTorrcSnippet a ip.text f
  | .configureBridges bridgeLines => Torrc.configureBridges a bridgeLines f

/-- What a sequence of calls leaves. -/
def performAll (f : File) (cs : List (Access × Call)) : File :=
  cs.foldl (fun f c => c.2.perform f c.1) f

end PrivacyGuard.Torrc
