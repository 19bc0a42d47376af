import ClusterPackages.Url.Address

/-!
Addresses of documents: their parts, and their one written form.
-/

namespace ClusterPackages

namespace Url

inductive Host
  | domain (name : List Char)
  | ipv4 (address : Nat)
  | ipv6 (words : List Nat)
  deriving DecidableEq, Repr, Inhabited

def Host.text : Host → List Char
  | .domain name => name
  | .ipv4 address => Ipv4.text address
  | .ipv6 words => '[' :: Ipv6.text words ++ [']']

inductive Path
  /-- Of schemes that have no hierarchy. -/
  | opaqueText (text : List Char)
  | segments (parts : List (List Char))
  deriving DecidableEq, Repr, Inhabited

inductive Fault
  | relative
  | emptyHost
  | invalidPort
  | invalidIpv4
  | invalidIpv6
  | invalidName
  | invalidHostChar
  deriving DecidableEq, Repr, Inhabited

def Fault.message : Fault → String
  | .relative => "relative URL without a base"
  | .emptyHost => "empty host"
  | .invalidPort => "invalid port number"
  | .invalidIpv4 => "invalid IPv4 address"
  | .invalidIpv6 => "invalid IPv6 address"
  | .invalidName => "invalid international domain name"
  | .invalidHostChar => "invalid domain character"

end Url

/-- All parts are kept in their written form. -/
structure Url where
  scheme : List Char
  username : List Char := []
  password : List Char := []
  host : Option Url.Host := none
  /-- Nothing if it is the scheme's own. -/
  port : Option Nat := none
  path : Url.Path
  query : Option (List Char) := none
  fragment : Option (List Char) := none
  deriving DecidableEq, Repr, Inhabited

namespace Url

def Path.text : Path → List Char
  | .opaqueText text => text
  | .segments parts => parts.flatMap ('/' :: ·)

def credentials (u : Url) : List Char :=
  if u.username = [] ∧ u.password = [] then []
  else u.username ++ (if u.password = [] then [] else ':' :: u.password) ++ ['@']

def authority (u : Url) : List Char :=
  match u.host with
  | none => []
  | some host =>
    '/' :: '/' :: u.credentials ++ host.text ++
      match u.port with
      | some n => ':' :: (toString n).toList
      | none => []

/-- A path must not be taken for a host. -/
def pathText (u : Url) : List Char :=
  match u.host, u.path with
  | none, .segments ([] :: rest) => if rest = [] then ['/'] else '/' :: '.' :: u.path.text
  | _, path => path.text

def chars (u : Url) : List Char :=
  u.scheme ++ ':' :: u.authority ++ u.pathText ++ (u.query.map ('?' :: ·)).getD [] ++
    (u.fragment.map ('#' :: ·)).getD []

def text (u : Url) : String := String.ofList u.chars

def withoutCredentials (u : Url) : Url := { u with username := [], password := [] }

/-! ## Schemes -/

def http : List Char := ['h', 't', 't', 'p']

def https : List Char := ['h', 't', 't', 'p', 's']

def file : List Char := ['f', 'i', 'l', 'e']

/-- The port that a scheme uses unless another is named; only these schemes always have a host. -/
def defaultPort? (scheme : List Char) : Option Nat :=
  if scheme = http ∨ scheme = ['w', 's'] then some 80
  else if scheme = https ∨ scheme = ['w', 's', 's'] then some 443
  else if scheme = ['f', 't', 'p'] then some 21
  else none

def isWeb (u : Url) : Bool := u.scheme == http || u.scheme == https

/-! ## Dot segments -/

/-- A segment in which each point may be percent-encoded. -/
def points : List Char → Option Nat
  | [] => some 0
  | '.' :: cs => (points cs).map (· + 1)
  | '%' :: '2' :: e :: cs => if e = 'e' ∨ e = 'E' then (points cs).map (· + 1) else none
  | _ => none

def isHere (segment : List Char) : Bool := points segment == some 1

def isUp (segment : List Char) : Bool := points segment == some 2

/-- Walks segments with those behind it in reverse; a dot segment at the end leaves an empty one. -/
def walk : List (List Char) → List (List Char) → List (List Char)
  | behind, [] => behind.reverse
  | behind, [s] =>
    (if isUp s then [] :: behind.tail else if isHere s then [] :: behind else s :: behind).reverse
  | behind, s :: rest =>
    walk (if isUp s then behind.tail else if isHere s then behind else s :: behind) rest

def removeDotSegments (segments : List (List Char)) : List (List Char) := walk [] segments

end Url
end ClusterPackages
