import ClusterPackages.Url.Basic
import ClusterPackages.Url.Domain

/-!
Reading addresses as the web does: with blanks around them, backslashes for slashes, and characters
that have to be percent-encoded first.
-/

namespace ClusterPackages.Url

/-! ## Characters that a part keeps -/

def isGraphic (c : Char) : Bool := 0x20 < c.toNat && c.toNat < 0x7F

def keptInFragment (c : Char) : Bool := isGraphic c && !(['"', '<', '>', '\x60'].contains c)

def keptInPath (c : Char) : Bool := keptInFragment c && !(['#', '?', '\x7b', '\x7d'].contains c)

def keptInUser (c : Char) : Bool :=
  keptInPath c && !(['/', ':', ';', '=', '@', '[', '\\', ']', '^', '|'].contains c)

def keptInQuery (isSpecial : Bool) (c : Char) : Bool :=
  isGraphic c && !(['"', '#', '<', '>'].contains c) && !(isSpecial && c == '\'')

def keptInOpaque (c : Char) : Bool := 0x20 ≤ c.toNat && c.toNat < 0x7F

/-! ## Parts -/

def scheme? (cs : List Char) : Option (List Char × List Char) :=
  let isSchemeChar (c : Char) : Bool :=
    Text.isAsciiLetter c || Text.isDigit c || c == '+' || c == '-' || c == '.'
  match cs.head?, cs.dropWhile isSchemeChar with
  | some c, ':' :: rest =>
    if Text.isAsciiLetter c then some ((cs.takeWhile isSchemeChar).map Text.asciiLower, rest) else none
  | _, _ => none

def isEnd (isSpecial : Bool) (c : Char) : Bool :=
  c == '/' || c == '?' || c == '#' || (isSpecial && c == '\\')

/-- User and password in front of the last at sign before the path, and the rest. -/
def userInfo (isSpecial : Bool) (cs : List Char) :
    Except Fault (List Char × List Char × List Char) :=
  let authority := cs.takeWhile fun c => !isEnd isSpecial c
  if !authority.contains '@' then .ok ([], [], cs)
  else
    let host := (authority.reverse.takeWhile (· != '@')).reverse
    let info := authority.take (authority.length - host.length - 1)
    let rest := cs.drop (info.length + 1)
    if info = [] ∧ rest.head?.any (isEnd isSpecial) then .error .emptyHost
    else
      let user := info.takeWhile (· != ':')
      let encode := Text.percentEncode keptInUser
      .ok (encode user, encode (info.drop (user.length + 1)), rest)

/-- The text of a host, up to a colon outside square brackets. -/
def hostText (isSpecial : Bool) : (inBrackets : Bool) → List Char → List Char
  | _, [] => []
  | inBrackets, c :: cs =>
    if isEnd isSpecial c || (c == ':' && !inBrackets) then []
    else c :: hostText isSpecial (if c = '[' then true else if c = ']' then false else inBrackets) cs

def bracketed? (cs : List Char) : Option (Except Fault Host) :=
  match cs with
  | '[' :: inner =>
    match inner.getLast?, Ipv6.ofText? inner.dropLast with
    | some ']', some words => some (.ok (.ipv6 words))
    | _, _ => some (.error .invalidIpv6)
  | _ => none

def readHost (cs : List Char) : Except Fault Host :=
  match bracketed? cs with
  | some h => h
  | none =>
    match Domain.ofBytes? (Text.percentDecode cs) with
    | none => .error .invalidName
    | some name =>
      if name = [] then .error .emptyHost
      else if Ipv4.isMeant name then
        match Ipv4.ofText? name with
        | some n => .ok (.ipv4 n)
        | none => .error .invalidIpv4
      else .ok (.domain name)

def readOpaqueHost (cs : List Char) : Except Fault Host :=
  match bracketed? cs with
  | some h => h
  | none =>
    if cs.any (fun c => c == '\x00' || [' ', '#', '/', ':', '<', '>', '?', '@', '[', '\\', ']', '^', '|'].contains c)
    then .error .invalidHostChar
    else .ok (.domain (Text.percentEncode keptInOpaque cs))

/-- The port behind a colon, if one stands there. -/
def readPort (cs : List Char) : Except Fault (Option Nat × List Char) :=
  match cs with
  | ':' :: cs =>
    let digits := cs.takeWhile Text.isDigit
    let rest := cs.drop digits.length
    if 65535 < Text.decimal digits ∨ rest.head?.any (fun c => !isEnd true c) then
      .error .invalidPort
    else .ok (if digits = [] then none else some (Text.decimal digits), rest)
  | cs => .ok (none, cs)

def ending (isSpecial : Bool) (cs : List Char) : List Char × Option (List Char) × Option (List Char) :=
  let beforeFragment := cs.takeWhile (· != '#')
  let path := beforeFragment.takeWhile (· != '?')
  let query := match beforeFragment.drop path.length with
    | _ :: q => some (Text.percentEncode (keptInQuery isSpecial) q)
    | [] => none
  let fragment := match cs.drop beforeFragment.length with
    | _ :: f => some (Text.percentEncode keptInFragment f)
    | [] => none
  (path, query, fragment)

/-- The segments of a path, whose first slash may be missing. -/
def pathOf (isSpecial : Bool) (cs : List Char) : Path :=
  let cs := if isSpecial then cs.map fun c => if c = '\\' then '/' else c else cs
  let cs := match cs with
    | '/' :: rest => rest
    | _ => cs
  .segments (removeDotSegments ((Text.splitOn '/' cs).map (Text.percentEncode keptInPath)))

def afterSlashes (scheme : List Char) (cs : List Char) : Except Fault Url := do
  let isSpecial := (defaultPort? scheme).isSome
  let (username, password, cs) ← userInfo isSpecial cs
  let name := hostText isSpecial false cs
  let rest := cs.drop name.length
  if name = [] ∧ (isSpecial ∨ rest.head? = some ':' ∨ username ≠ [] ∨ password ≠ []) then
    .error .emptyHost
  else
    let host ← if isSpecial then readHost name else readOpaqueHost name
    let (port, rest) ← readPort rest
    let (path, query, fragment) := ending isSpecial rest
    return {
      scheme, username, password, query, fragment
      host := some host
      port := if port = defaultPort? scheme then none else port
      path := if path = [] ∧ !isSpecial then .segments [] else pathOf isSpecial path }

/-- Addresses of files have an empty host instead of this computer. -/
def fileUrl (cs : List Char) : Except Fault Url := do
  let isSlash (c : Char) : Bool := c == '/' || c == '\\'
  let (name, rest) := match cs with
    | a :: b :: rest =>
      if isSlash a && isSlash b then
        let name := rest.takeWhile fun c => !isEnd true c
        (name, rest.drop name.length)
      else ([], cs)
    | _ => ([], cs)
  let host ← if name = [] then .ok (.domain []) else readHost name
  let (path, query, fragment) := ending true rest
  return {
    scheme := file, query, fragment
    host := some (if host = .domain "localhost".toList then .domain [] else host)
    path := pathOf true path }

def bareUrl (scheme : List Char) (cs : List Char) : Url :=
  let (path, query, fragment) := ending false cs
  { scheme, query, fragment
    path := if path.head? = some '/' then pathOf false path
      else .opaqueText (Text.percentEncode keptInOpaque path) }

/-- Blanks and controls around an address, and line ends and tabs in it, do not count. -/
def trim (cs : List Char) : List Char :=
  let isOuter (c : Char) : Bool := c.toNat ≤ 0x20
  let inner := ((cs.dropWhile isOuter).reverse.dropWhile isOuter).reverse
  inner.filter fun c => c != '\t' && c != '\n' && c != '\r'

def parse (text : String) : Except Fault Url :=
  match scheme? (trim text.toList) with
  | none => .error .relative
  | some (scheme, cs) =>
    if scheme = file then fileUrl cs
    else if (defaultPort? scheme).isSome then
      afterSlashes scheme (cs.dropWhile fun c => c == '/' || c == '\\')
    else match cs with
      | '/' :: '/' :: cs => afterSlashes scheme cs
      | cs => .ok (bareUrl scheme cs)

end ClusterPackages.Url
