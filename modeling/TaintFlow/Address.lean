/-
  TaintFlow.Address
  ─────────────────
  The addresses of requests.

  An address may name a scheme and a host in front of its path, and a query and a fragment behind
  it.  For a service the host must only be well written, and the scheme tells whether a connection
  is to stay open; it is the path that counts.  Characters in it may be written as a percent
  sign and two digits in base sixteen.
-/
import TaintFlow.Number.Numeral
import TaintFlow.Text.Blank
import TaintFlow.Text.Hex
import TaintFlow.Text.Utf8

namespace TaintFlow.Address

/-- Why something is no address. -/
inductive Fault where
  /-- The host is not written as one. -/
  | host
  /-- The name of the host has an empty part or one that is too long. -/
  | hostName
  deriving DecidableEq, Repr

/-! ## §1. Parts. -/

/-- The parts of an address that count. -/
structure Parts where
  scheme : List Char
  host : List Char
  path : List Char
  query : List Char
  deriving DecidableEq, Repr

/-- May the character stand in the name of a scheme? -/
def isSchemeChar (c : Char) : Bool := c.isAlphanum || c == '+' || c == '-' || c == '.'

/-- The name of a scheme in lower case, if it stands in front with a colon, and what comes behind. -/
def spanScheme (cs : List Char) : List Char × List Char :=
  match cs.span isSchemeChar with
  | (first :: more, ':' :: rest) => if first.isAlpha then ((first :: more).map Char.toLower, rest) else ([], cs)
  | _ => ([], cs)

/-- Does the character end a host? -/
def endsHost (c : Char) : Bool := c == '/' || c == '?' || c == '#'

/-- The host, if one is named by two slashes, and what comes behind it. -/
def spanHost : List Char → List Char × List Char
  | '/' :: '/' :: rest => rest.span fun c => !endsHost c
  | cs => ([], cs)

/-- The characters that another spelling of a host would write with a delimiter. -/
def hiddenDelimiters : List Char :=
  ['⁇', '⁈', '⁉', '℀', '℁', '℅', '℆', '⩴', '︓', '︖', '﹕',
   '﹖', '﹟', '﹫', '＃', '／', '：', '？', '＠']

/-- Is the host written with a bracket that has no partner, or with a hidden delimiter? -/
def isBrokenHost (host : List Char) : Bool :=
  host.contains '[' != host.contains ']' || host.any hiddenDelimiters.contains

/-- The parts of an address.  Tabs and line breaks in it do not count. -/
def parts (address : List Char) : Except Fault Parts :=
  let (scheme, cs) := spanScheme (address.filter fun c => c ≠ '\t' && c ≠ '\n' && c ≠ '\r')
  let (host, cs) := spanHost cs
  if isBrokenHost host then .error .host
  else
    let cs := cs.takeWhile (· ≠ '#')
    .ok ⟨scheme, host, cs.takeWhile (· ≠ '?'), (cs.dropWhile (· ≠ '?')).drop 1⟩

/-! ## §2. Hosts. -/

/-- What stands behind the last sign of a kind, or all if there is none. -/
def behindLast (sign : Char) (cs : List Char) : List Char := (cs.reverse.takeWhile (· ≠ sign)).reverse

/-- The name of a host and its port.  A name with colons stands between brackets. -/
def nameAndPort (host : List Char) : List Char × List Char :=
  let cs := behindLast '@' host
  match cs.dropWhile (· ≠ '[') with
  | '[' :: rest => (rest.takeWhile (· ≠ ']'), ((rest.dropWhile (· ≠ ']')).dropWhile (· ≠ ':')).drop 1)
  | _ => (cs.takeWhile (· ≠ ':'), (cs.dropWhile (· ≠ ':')).drop 1)

/-- The greatest number of a port. -/
def maxPort : Nat := 65535

/-- Can this be the number of a port?  It may be left out. -/
def isPort (cs : List Char) : Bool := cs.all Char.isDigit && Numeral.decimalNumber cs ≤ maxPort

/-- How long a part of a name may be. -/
def maxLabel : Nat := 63

/-- The dots of other scripts. -/
def otherDots : List Char := ['。', '．', '｡']

/-- Can this be the name of a host?  Only the last part of a name may be empty; parts with other than
basic characters are taken as they are. -/
def isHostName (cs : List Char) : Bool :=
  let labels := Text.splitChars '.' (cs.map fun c => if otherDots.contains c then '.' else c)
  labels.all (fun l => l.length ≤ maxLabel || l.any fun c => 128 ≤ c.toNat) && labels.dropLast.all fun l => !l.isEmpty

/-- Is the host well written? -/
def checkHost (host : List Char) : Except Fault Unit :=
  let (name, port) := nameAndPort host
  if !isHostName name then .error .hostName
  else if !isPort port then .error .host
  else .ok ()

/-! ## §3. Paths. -/

/-- The bytes of characters, some of which are written with a percent sign. -/
def percentDecoded : List Char → List UInt8
  | [] => []
  | '%' :: a :: b :: rest =>
    match Text.hexNumber? [a, b] with
    | some n => UInt8.ofNat n :: percentDecoded rest
    | none => 0x25 :: percentDecoded (a :: b :: rest)
  | c :: rest => Text.utf8Bytes (String.singleton c) ++ percentDecoded rest

/-- Where an address leads. -/
structure Destination where
  /-- Is the connection to stay open? -/
  live : Bool
  path : String
  deriving DecidableEq, Repr

/-- The schemes of connections that stay open. -/
def liveSchemes : List String := ["ws", "wss"]

/-- The path without two slashes in front that name no host.  A host that they name must be well written. -/
def withoutHost (path : List Char) : Except Fault (List Char) := do
  let p ← parts path
  checkHost p.host
  return if p.scheme.isEmpty && p.host.isEmpty then p.path else path

/-- Where an address leads on the host of a service.  What is left of an address behind its host is an
address again. -/
def destination (address : String) : Except Fault Destination := do
  let outer ← parts address.toList
  let inner ← parts (if outer.query.isEmpty then outer.path else outer.path ++ '?' :: outer.query)
  let path ← withoutHost inner.path
  checkHost outer.host
  let bytes := percentDecoded path
  return ⟨liveSchemes.contains (String.ofList outer.scheme),
    String.ofList ((Text.utf8? bytes).getD (Text.latin1 bytes))⟩

end TaintFlow.Address
