import ClusterPackages.Auth
import ClusterPackages.Catalog
import ClusterPackages.Url.Parser

/-!
The web that documents are fetched from, and how one answer is judged: by its status first, then by
its media type, then by whether its body came whole, and last by whether that can be decoded.
-/

namespace ClusterPackages

inductive Reply
  | unreachable
  /-- The request was taken, and nothing came back. -/
  | closed
  /-- Without a body if it broke off. -/
  | answer (status : Nat) (contentType : Option Text.Bytes) (body : Option Text.Bytes)
  deriving DecidableEq, Repr, Inhabited

/-- Replies by the written form of the address. -/
abbrev Web := String → Reply

structure Request where
  url : String
  authorization : Option String
  deriving DecidableEq, Repr

structure CallState where
  catalog : Option Catalog := none
  requests : List Request := []
  deriving DecidableEq, Repr

abbrev Call := ExceptT RepoError (StateM CallState)

namespace Web

/-! ## Requests -/

def acceptedTypes : List String := ["application/json", "application/yaml"]

def userAgent : String := "skiff/0.2.0"

def isHeaderText (text : String) : Bool :=
  text.toList.all fun c => c == '\t' || (0x20 ≤ c.toNat && c.toNat != 0x7F)

def target? (url : String) (auth : Authenticator) : Option Url :=
  match Url.parse url with
  | .error _ => none
  | .ok u =>
    if u.isWeb && (auth.header?.all isHeaderText) then
      some { u.withoutCredentials with fragment := none }
    else none

def record (r : Request) : Call Unit :=
  modify fun s => { s with requests := s.requests ++ [r] }

/-- Asks for a document. Requests that nobody takes leave no trace. -/
def get (web : Web) (auth : Authenticator) (url : String) : Call Reply :=
  match target? url auth with
  | none => pure .unreachable
  | some u => do
    let reply := web u.text
    if reply ≠ .unreachable then record ⟨u.text, auth.header?⟩
    pure reply

/-! ## Media types -/

def documentTypes : List String :=
  ["application/json", "application/yaml", "application/x-yaml", "application/octet-stream",
   "text/yaml", "text/x-yaml", "text/plain"]

/-- The type that a header names, without its parameters; an error if it is no plain text. -/
def mediaType (header : Text.Bytes) : Except String String :=
  if header.all fun b => b == 9 || (0x20 ≤ b && b < 0x7F) then
    let name := (header.map Char.ofNat).takeWhile (· != ';')
    .ok (String.ofList ((Text.trim name).map Text.asciiLower))
  else .error (String.ofList (Text.decodeLossy header))

def checkMediaType (url : String) (header : Option Text.Bytes) : Except RepoError Unit :=
  match header.map mediaType with
  | none => .ok ()
  | some (.error text) => .error (.unacceptableMediaType url text)
  | some (.ok name) =>
    if name = "" ∨ name ∈ documentTypes then .ok () else .error (.unacceptableMediaType url name)

/-! ## Documents -/

def isSuccess (status : Nat) : Bool := 200 ≤ status && status < 300

def judge (c : Codec α) (url : String) : Reply → Except RepoError α
  | .unreachable | .closed => .error (.transport url .foreign)
  | .answer status contentType body =>
    if !isSuccess status then .error (.status url status)
    else do
      checkMediaType url contentType
      match body with
      | none => .error (.transport url .foreign)
      | some bytes => decodeDocument c url bytes

def fetch (web : Web) (auth : Authenticator) (c : Codec α) (url : String) : Call α := do
  let reply ← web.get auth url
  ExceptT.mk (pure (judge c url reply))

/-- Asks for anything at all, anonymously, and returns the length of its body. -/
def measure (web : Web) (url : String) : Except RepoError Nat :=
  match Url.parse url with
  | .error _ => .error (.transport "" .foreign)
  | .ok u =>
    let u := u.withoutCredentials
    if !u.isWeb then .error (.transport u.text .foreign)
    else match web { u with fragment := none }.text with
      | .unreachable | .closed => .error (.transport u.text .foreign)
      | .answer status _ body =>
        if 400 ≤ status ∧ status < 600 then .error (.status u.text status)
        else match body with
          -- this failure alone does not name the address
          | none => .error (.transport "" .foreign)
          | some bytes => .ok bytes.length

/-! ## A web in memory -/

def page (status : Nat) (contentType : Option Text.Bytes) (body : Option Text.Bytes) : Reply :=
  let isBlank (b : Nat) : Bool := b == 0x20 || b == 9
  let stripped (header : Text.Bytes) : Text.Bytes :=
    ((header.dropWhile isBlank).reverse.dropWhile isBlank).reverse
  -- these two answers have no body, whatever is served
  .answer status (contentType.map stripped) (if status = 204 ∨ status = 304 then some [] else body)

/-- Hosts that resolve serve the pages, over plain connections only, and nothing else. -/
def ofPages (resolves : Bool) (pages : List (String × Reply)) : Web := fun url =>
  if !resolves || url.startsWith "https:" then .unreachable
  else (pages.lookup url).getD (.answer 404 none (some []))

end Web
end ClusterPackages
