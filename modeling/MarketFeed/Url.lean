import MarketFeed.Text.Ascii
import MarketFeed.Text.Digits
import MarketFeed.Url.Form

/-!
# Addresses

Absolute addresses, read from text into the form in which they are sent. Reading is lenient where
browsers are: blanks around an address do not count, backslashes divide the paths of web schemes,
and characters that cannot stand in a part are encoded there. Host names are those of ASCII.
-/

namespace MarketFeed

structure Authority where
  /-- Empty if there is none. -/
  userInfo : String := ""
  host : String
  /-- Nothing if it is the default of the scheme. -/
  port : Option Nat := none
  deriving DecidableEq, Repr

structure Url where
  scheme : String
  authority : Option Authority
  path : String
  query : Option String := none
  fragment : Option String := none
  deriving DecidableEq, Repr

namespace Url

/-! ## Characters of each part -/

def isVisible (c : Char) : Bool := 0x20 < c.toNat && c.toNat < 0x7F

def keptInFragment (c : Char) : Bool := isVisible c && !(['"', '<', '>', '`'].contains c)

def keptInQuery (c : Char) : Bool := isVisible c && !(['"', '#', '<', '>'].contains c)

def keptInPath (c : Char) : Bool :=
  keptInQuery c && !(['?', '^', '`', '\x7b', '\x7d'].contains c)

def keptInUserInfo (c : Char) : Bool :=
  keptInPath c && !(['/', ':', ';', '=', '@', '[', '\\', ']', '|'].contains c)

def isForbiddenInHost (c : Char) : Bool :=
  ['\x00', ' ', '#', '/', ':', '<', '>', '?', '@', '[', '\\', ']', '^', '|'].contains c

def isForbiddenInName (c : Char) : Bool := !isVisible c || c = '%' || isForbiddenInHost c

/-! ## Schemes -/

/-- The default ports of the web schemes, whose addresses always name a host. -/
def defaultPort? (scheme : String) : Option Nat :=
  if scheme ∈ ["http", "ws"] then some 80
  else if scheme ∈ ["https", "wss"] then some 443
  else if scheme = "ftp" then some 21
  else none

def isWeb (scheme : String) : Bool := (defaultPort? scheme).isSome

def scheme? (cs : List Char) : Option (String × List Char) :=
  match cutOnce ':' cs with
  | (c :: name, some rest) =>
    if c.isAlpha && name.all fun c => c.isAlphanum || c = '+' || c = '-' || c = '.' then
      some (String.ofList (asciiLower (c :: name)), rest)
    else none
  | _ => none

/-! ## Parts -/

def userInfo (cs : List Char) : String :=
  let (name, password) := cutOnce ':' cs
  let encoded := Percent.encode keptInUserInfo
  let password := encoded (password.getD [])
  String.ofList (encoded name ++ if password.isEmpty then [] else ':' :: password)

def port? (scheme : String) (cs : List Char) : Option (Option Nat) :=
  if cs.isEmpty then some none
  else ((Digits.toNat? cs).filter (· < 1 <<< 16)).map fun n =>
    if defaultPort? scheme = some n then none else some n

def host? (scheme : String) (cs : List Char) : Option String :=
  if isWeb scheme then
    let name := asciiLower (Utf8.decodeLossy (Percent.decode cs)).toList
    if name.isEmpty || name.any isForbiddenInName then none else some (String.ofList name)
  else if cs.any isForbiddenInHost then none
  else some (String.ofList (Percent.encode isVisible cs))

/-- The host of a text and the port that follows it; one in brackets may hold colons. -/
def hostAndRest? (scheme : String) (cs : List Char) : Option (String × List Char) :=
  match cs with
  | '[' :: r => match cutOnce ']' r with
    | (inner, some rest) =>
      if inner.all fun c => (Hex.value? c).isSome || c = ':' || c = '.' then
        match rest with
        | [] => some (String.ofList ('[' :: asciiLower inner ++ [']']), [])
        | ':' :: port => some (String.ofList ('[' :: asciiLower inner ++ [']']), port)
        | _ => none
      else none
    | _ => none
  | _ => do
    let (name, port) := cutOnce ':' cs
    let host ← host? scheme name
    guard (host ≠ "" || port.isNone)
    return (host, port.getD [])

def authority? (scheme : String) (cs : List Char) : Option Authority := do
  let afterUser := (cs.reverse.takeWhile (· ≠ '@')).reverse
  let user := (cs.reverse.dropWhile (· ≠ '@')).tail.reverse
  let (host, rest) ← hostAndRest? scheme afterUser
  guard (host ≠ "" || userInfo user = "")
  let port ← port? scheme rest
  return { userInfo := userInfo user, host, port }

def isDot (cs : List Char) : Bool := asciiLower cs ∈ [['.'], ['%', '2', 'e']]

def isDoubleDot (cs : List Char) : Bool :=
  asciiLower cs ∈ [['.', '.'], ['.', '%', '2', 'e'], ['%', '2', 'e', '.'],
    ['%', '2', 'e', '%', '2', 'e']]

/-- Follows the pieces of a path; those so far come last first. -/
def walk (sofar : List (List Char)) : List (List Char) → List (List Char)
  | [] => sofar.reverse
  | piece :: rest =>
    if isDoubleDot piece then
      walk (if rest.isEmpty then [] :: sofar.tail else sofar.tail) rest
    else if isDot piece then walk (if rest.isEmpty then [] :: sofar else sofar) rest
    else walk (Percent.encode keptInPath piece :: sofar) rest

def rootedPath (cs : List Char) : String :=
  String.ofList ((walk [] (pieces '/' cs)).flatMap fun piece => '/' :: piece)

/-! ## Addresses -/

/-- Removes what does not count: blanks and controls at both ends, tabs and line breaks anywhere. -/
def clean (cs : List Char) : List Char :=
  let isOuter (c : Char) : Bool := c.toNat ≤ 0x20
  ((cs.dropWhile isOuter).reverse.dropWhile isOuter).reverse.filter
    fun c => !(['\t', '\n', '\r'].contains c)

def place? (scheme : String) (cs : List Char) : Option (Option Authority × String) :=
  if isWeb scheme then
    let slashed := (cs.map fun c => if c = '\\' then '/' else c).dropWhile (· = '/')
    let (place, path) := cutOnce '/' slashed
    (authority? scheme place).map fun a => (some a, rootedPath (path.getD []))
  else match cs with
    | '/' :: '/' :: r =>
      let (place, path) := cutOnce '/' r
      (authority? scheme place).map fun a => (some a, (path.map rootedPath).getD "")
    | '/' :: r => some (none, rootedPath r)
    | _ => some (none, String.ofList (Percent.encode (fun c => isVisible c || c = ' ') cs))

def parse? (text : String) : Option Url := do
  let (scheme, rest) ← scheme? (clean text.toList)
  let (rest, fragment) := cutOnce '#' rest
  let (rest, query) := cutOnce '?' rest
  let (authority, path) ← place? scheme rest
  let kept (c : Char) : Bool := keptInQuery c && !(isWeb scheme && c = '\'')
  return {
    scheme, authority, path
    query := query.map fun q => String.ofList (Percent.encode kept q)
    fragment := fragment.map fun f => String.ofList (Percent.encode keptInFragment f) }

def renderAuthority (a : Authority) : String :=
  (if a.userInfo = "" then "" else a.userInfo ++ "@") ++ a.host ++
    (a.port.map fun n => ":" ++ Nat.repr n).getD ""

def resource (u : Url) : String := u.path ++ (u.query.map ("?" ++ ·)).getD ""

/-- What stands between the scheme and the path. Where there is no host, a dot keeps two slashes in
front of a path from announcing one. -/
def renderPlace (u : Url) : String :=
  match u.authority with
  | some a => "//" ++ renderAuthority a
  | none => if ['/', '/'].isPrefixOf u.path.toList then "/." else ""

def render (u : Url) : String :=
  u.scheme ++ ":" ++ u.renderPlace ++ u.resource ++ (u.fragment.map ("#" ++ ·)).getD ""

/-! ## Queries -/

def pairs (u : Url) : List (String × String) := Form.parse (u.query.getD "").toList

def addPair (u : Url) (pair : String × String) : Url :=
  { u with query := some (String.ofList (Form.append (u.query.getD "").toList pair)) }

/-- Appends pairs to the query. An empty query is left out. -/
def addPairs (u : Url) (pairs : List (String × String)) : Url :=
  let u := pairs.foldl addPair u
  { u with query := u.query.filter (· ≠ "") }

/-- Appends a pair to the query unless its value is empty or there is one of its name. -/
def ensurePair (u : Url) (pair : String × String) : Url :=
  if pair.2 = "" || u.pairs.any (·.1 == pair.1) then u else u.addPair pair

end Url

end MarketFeed
