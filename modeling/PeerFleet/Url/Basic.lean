import PeerFleet.Url.Host

/-! # Addresses of resources

An address of a resource that is reached over HTTP: a scheme, a host, a port where it is
not the one of the scheme, a path of at least one segment, a query and a fragment. Reading
removes tabs and line breaks, takes backslashes for slashes, settles dot segments and
escapes what may not stand in a part.
-/

namespace PeerFleet

inductive Scheme where
  | http
  | https
  deriving DecidableEq, Repr

namespace Scheme

def name : Scheme → String
  | .http => "http"
  | .https => "https"

def defaultPort : Scheme → Nat
  | .http => 80
  | .https => 443

end Scheme

structure Url where
  scheme : Scheme
  /-- Name and password as they are written, empty without either. -/
  userinfo : String := ""
  host : Host
  /-- The port where it differs from the one of the scheme. -/
  port : Option Nat := none
  /-- The segments after each slash, as they are written. -/
  path : List String := [""]
  query : Option String := none
  fragment : Option String := none
  deriving DecidableEq, Repr

namespace Url

open Text

variable (toAscii? : DomainToAscii)

def isSlash (c : Char) : Bool :=
  c = '/' || c = '\\'

def endsAuthority (c : Char) : Bool :=
  isSlash c || c = '?' || c = '#'

def userinfoText (cs : List Char) : String :=
  let name := cs.takeWhile (· != ':')
  let password := (cs.dropWhile (· != ':')).drop 1
  let written := percentEncode userinfoSet name ++
    (if password.isEmpty then [] else ':' :: percentEncode userinfoSet password)
  String.ofList written

def hostText (bracketed : Bool) : List Char → List Char
  | [] => []
  | c :: cs =>
    if c = ':' ∧ !bracketed then []
    else c :: hostText (c = '[' || (bracketed && c != ']')) cs

def portOf (scheme : Scheme) : List Char → Except UrlError (Option Nat)
  | [] => .ok none
  | [_] => .ok none
  | _ :: ds =>
    match natOfDigits? 10 ds with
    | some n =>
      if 65535 < n then .error .invalidPort
      else .ok (if n = scheme.defaultPort then none else some n)
    | none => .error .invalidPort

def isSingleDot (s : List Char) : Bool :=
  [".", "%2e"].contains (String.ofList (s.map lowerAscii))

def isDoubleDot (s : List Char) : Bool :=
  ["..", ".%2e", "%2e.", "%2e%2e"].contains (String.ofList (s.map lowerAscii))

def isDrive : List Char → Bool
  | [c, d] => c.isAlpha && (d = ':' || d = '|')
  | _ => false

def parent : List (List Char) → List (List Char)
  | [] => []
  | s :: before => if isDrive s then s :: before else before

def settle (before : List (List Char)) : List (List Char) → List (List Char)
  | [] => before.reverse
  | [s] =>
    if isDoubleDot s then (parent before).reverse ++ [[]]
    else if isSingleDot s then before.reverse ++ [[]]
    else before.reverse ++ [s]
  | s :: t :: rest =>
    if isDoubleDot s then settle (parent before) (t :: rest)
    else if isSingleDot s then settle before (t :: rest)
    else settle (s :: before) (t :: rest)

def segmentsOf (cs : List Char) : List (List Char) :=
  settle [] ((splitAll '/' (cs.map fun c => if c = '\\' then '/' else c)).map
    (percentEncode pathSet))

def tailOf (cs : List Char) : List String × Option String × Option String :=
  let (cs, fragment) := match splitFirst '#' cs with
    | some (before, after) => (before, some after)
    | none => (cs, none)
  let (cs, query) := match splitFirst '?' cs with
    | some (before, after) => (before, some after)
    | none => (cs, none)
  let path := match cs with
    | c :: rest => if isSlash c then rest else c :: rest
    | [] => []
  ((segmentsOf path).map String.ofList,
    query.map fun q => String.ofList (percentEncode querySet q),
    fragment.map fun f => String.ofList (percentEncode fragmentSet f))

def ofAuthority (scheme : Scheme) (cs : List Char) : Except UrlError Url := do
  let cs := cs.dropWhile isSlash
  let authority := cs.takeWhile fun c => !endsAuthority c
  let (userinfo, hostPort) := (splitLast '@' authority).getD ([], authority)
  let host := hostText false hostPort
  if host.isEmpty then throw .emptyHost
  let host' ← Host.parse toAscii? host
  let port ← portOf scheme (hostPort.drop host.length)
  let (path, query, fragment) := tailOf (cs.drop authority.length)
  return { scheme, userinfo := userinfoText userinfo, host := host', port, path, query, fragment }

def isOuter (c : Char) : Bool :=
  c.toNat ≤ 0x20

def isSkipped (c : Char) : Bool :=
  c = '\t' || c = '\n' || c = '\r'

def significant (cs : List Char) : List Char :=
  (((cs.dropWhile isOuter).reverse.dropWhile isOuter).reverse).filter fun c => !isSkipped c

def parse (s : String) : Except UrlError Url :=
  let cs := significant s.toList
  match splitFirst ':' cs with
  | none => .error .missingScheme
  | some (scheme, rest) =>
    match String.ofList (scheme.map lowerAscii) with
    | "http" => ofAuthority toAscii? .http rest
    | "https" => ofAuthority toAscii? .https rest
    | _ => .error .unsupportedScheme

def target (u : Url) : String :=
  "/" ++ "/".intercalate u.path ++ (u.query.map ("?" ++ ·)).getD ""

def render (u : Url) : String :=
  u.scheme.name ++ "://" ++ (if u.userinfo = "" then "" else u.userinfo ++ "@") ++
    u.host.render ++ (u.port.map fun p => s!":{p}").getD "" ++ u.target ++
    (u.fragment.map ("#" ++ ·)).getD ""

def effectivePort (u : Url) : Nat :=
  u.port.getD u.scheme.defaultPort

def withoutTrailingSlash (path : List String) : List String :=
  if 1 < path.length ∧ path.getLast? = some "" then path.dropLast else path

/-- A path with one more segment. The segment is written whole; only dots that appear
when tabs and line breaks are removed still count as dots. -/
def pushSegment (path : List String) (segment : String) : List String :=
  if segment = "." ∨ segment = ".." then path
  else
    let written := percentEncode segmentSet (segment.toList.filter fun c => !isSkipped c)
    let before := if path = [""] then [] else path
    (settle (before.reverse.map String.toList) [written]).map String.ofList

def append (u : Url) (segments : List String) : Url :=
  { u with path := segments.foldl pushSegment (withoutTrailingSlash u.path) }

def withHost (u : Url) (name : String) : Except UrlError Url := do
  let cs := name.toList
  if cs.isEmpty then throw .emptyHost
  let bracketed := cs.head? = some '[' && cs.getLast? = some ']'
  let text := if bracketed then cs else cs.takeWhile (· != ':')
  if text.isEmpty then throw .invalidDomainCharacter
  let host ← Host.parse toAscii? text
  return { u with host }

end Url

end PeerFleet
