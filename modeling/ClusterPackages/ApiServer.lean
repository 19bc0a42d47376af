import ClusterPackages.PackageStore
import ClusterPackages.Resource.Repository
import ClusterPackages.Resource.Secret
import ClusterPackages.Text.Percent

/-!
Speaking to the server of a cluster. A call is the request that it makes and how the answer is
read; a request whose address cannot be written is not made.
-/

namespace ClusterPackages

structure ApiRequest where
  method : String
  uri : String
  contentType : Option String := none
  body : Option Value := none
  deriving DecidableEq, Repr

structure ApiResponse where
  status : Nat
  body : Text.Bytes
  deriving DecidableEq, Repr

inductive ApiFault
  | failure (failure : ApiFailure)
  | undecodable
  | other
  deriving DecidableEq, Repr

namespace ApiFault

def toClusterError : ApiFault → ClusterError
  | .failure f => .api f
  | .undecodable => .apiDecode
  | .other => .apiOther

/-- The error if the object of the call may be missing. -/
def toPackageError (kind : PackageKind) (name : String) (ns : Option String) (f : ApiFault) :
    ClusterError :=
  if f.toClusterError.isNotFound then .packageNotFound kind name ns else f.toClusterError

def toRepoError : ApiFault → RepoError
  | .failure f => f.toRepoError
  | .undecodable | .other => .cluster .foreign

def toRepositoryError (name : String) (f : ApiFault) : RepoError :=
  if f.toClusterError.isNotFound then .repositoryNotFound name else f.toRepoError

end ApiFault

structure ApiCall (α : Type) where
  /-- Nothing if the request cannot be made. -/
  request : Option ApiRequest
  read : ApiResponse → Except ApiFault α

namespace ApiServer

/-! ## Addresses -/

def isPathChar (c : Char) : Bool :=
  let n := c.toNat
  n == 0x21 || n == 0x22 || (0x24 ≤ n && n ≤ 0x3B) || n == 0x3D || (0x40 ≤ n && n ≤ 0x5F) ||
    (0x61 ≤ n && n ≤ 0x7E) || 0x7F ≤ n

def isQueryChar (c : Char) : Bool :=
  let n := c.toNat
  n == 0x21 || (0x24 ≤ n && n ≤ 0x3B) || n == 0x3D || 0x3F ≤ n

/-- The address that a text spells, up to a number sign; its characters stand for themselves. -/
def uri? (cs : List Char) : Option String :=
  let cs := cs.takeWhile (· != '#')
  let path := cs.takeWhile (· != '?')
  if path.all isPathChar && (cs.drop path.length).all isQueryChar then some (String.ofList cs)
  else none

def groupPath : String := "/apis/" ++ ResourceObject.groupVersion ++ "/"

def collection (ns : Option String) (plural : String) : String :=
  match ns with
  | some ns => groupPath ++ "namespaces/" ++ ns ++ "/" ++ plural
  | none => groupPath ++ plural

def secretsOf (ns : String) : String := "/api/v1/namespaces/" ++ ns ++ "/secrets"

def isFormChar (c : Char) : Bool :=
  Text.isAsciiLetter c || Text.isDigit c || c == '*' || c == '-' || c == '.' || c == '_'

def formText (s : String) : String :=
  String.ofList ((Text.percentEncode (fun c => isFormChar c || c == ' ') s.toList).map fun c =>
    if c = ' ' then '+' else c)

/-! ## Requests -/

def getRequest? (path : String) : Option ApiRequest :=
  (uri? path.toList).map fun uri => { method := "GET", uri }

/-- An object needs a name. -/
def objectRequest? (path name : String) : Option ApiRequest :=
  if name = "" then none else getRequest? (path ++ "/" ++ name)

def listRequest? (path : String) : Option ApiRequest := getRequest? (path ++ "?")

/-- A watch of one object, up to five minutes long, from any state that the server has at hand. -/
def watchRequest? (path name : String) : Option ApiRequest :=
  getRequest? (path ++ "?&watch=true&timeoutSeconds=290&fieldSelector=" ++
    formText ("metadata.name=" ++ name) ++ "&allowWatchBookmarks=true&resourceVersion=0")

def versionPatch (version : String) : Value :=
  .object [("spec", .object [("packageInfo", .object [("version", .text version)])])]

def patchRequest? (path name : String) (patch : Value) : Option ApiRequest :=
  if name = "" then none
  else (uri? (path ++ "/" ++ name ++ "?").toList).map fun uri =>
    { method := "PATCH", uri, contentType := some "application/merge-patch+json", body := some patch }

/-! ## Answers -/

def failureFields : List (Field ApiFailure) :=
  [.mandatory "status" .text (·.status) (fun s x => { x with status := s }),
   .always "message" .text (·.message) (fun s x => { x with message := s }),
   .always "reason" .text (·.reason) (fun s x => { x with reason := s }),
   .mandatory "code" ⟨Decoder.int 0 65535, .int⟩ (fun x => (x.code : Int))
     (fun n x => { x with code := n.toNat })]

def failureCodec : Codec ApiFailure := .record .strict failureFields {}

def reasonPhrases : List (Nat × String) :=
  [(400, "Bad Request"), (401, "Unauthorized"), (402, "Payment Required"), (403, "Forbidden"),
   (404, "Not Found"), (405, "Method Not Allowed"), (406, "Not Acceptable"),
   (407, "Proxy Authentication Required"), (408, "Request Timeout"), (409, "Conflict"),
   (410, "Gone"), (411, "Length Required"), (412, "Precondition Failed"),
   (413, "Payload Too Large"), (414, "URI Too Long"), (415, "Unsupported Media Type"),
   (416, "Range Not Satisfiable"), (417, "Expectation Failed"), (418, "I'm a teapot"),
   (421, "Misdirected Request"), (422, "Unprocessable Entity"), (423, "Locked"),
   (424, "Failed Dependency"), (425, "Too Early"), (426, "Upgrade Required"),
   (428, "Precondition Required"), (429, "Too Many Requests"),
   (431, "Request Header Fields Too Large"), (451, "Unavailable For Legal Reasons"),
   (500, "Internal Server Error"), (501, "Not Implemented"), (502, "Bad Gateway"),
   (503, "Service Unavailable"), (504, "Gateway Timeout"), (505, "HTTP Version Not Supported"),
   (506, "Variant Also Negotiates"), (507, "Insufficient Storage"), (508, "Loop Detected"),
   (510, "Not Extended"), (511, "Network Authentication Required")]

def statusText (status : Nat) : String :=
  toString status ++ " " ++ (reasonPhrases.lookup status).getD "<unknown status code>"

def decode (c : Codec α) (text : List Char) : Except Fault α := (Json.read text).decode c.decode

/-- An answer that reports a failure, if in words of its own only. -/
def failureOf (status : Nat) (text : List Char) : ApiFailure :=
  match decode failureCodec text with
  | .ok f => f
  | .error _ =>
    { status := statusText status, message := Text.quoted (String.ofList text)
      reason := "Failed to parse error data", code := status }

def textOf (r : ApiResponse) : Except ApiFault (List Char) :=
  (Text.decodeUtf8 r.body).mapError fun _ => .other

def read (c : Codec α) (r : ApiResponse) : Except ApiFault α := do
  let text ← textOf r
  if 400 ≤ r.status ∧ r.status < 600 then .error (.failure (failureOf r.status text))
  else (decode c text).mapError fun _ => .undecodable

/-! ## Lists -/

def listMetaFields : List (Field Unit) :=
  [.optional "continue" .text (fun _ => none) (fun _ x => x),
   .optional "remainingItemCount" .int64 (fun _ => none) (fun _ x => x),
   .optional "resourceVersion" .text (fun _ => none) (fun _ x => x),
   .optional "selfLink" .text (fun _ => none) (fun _ x => x)]

def itemsCodec (c : Codec α) : Codec (List α) where
  decode ctx n := return (← Decoder.option (Decoder.list c.decode) ctx n).getD []
  encode := (Codec.list c).encode

def listFields (c : Codec α) : List (Field (List α)) :=
  [.always "metadata" (.record .lenient listMetaFields ()) (fun _ => ()) (fun _ x => x),
   .mandatory "items" (itemsCodec c) id (fun xs _ => xs)]

/-- A list has fields of its own only in a record. -/
def listCodec (c : Codec α) : Codec (List α) where
  decode := Record.decode ⟨false, false⟩ (listFields c) []
  encode := Record.encode (listFields c)

/-! ## Watches -/

inductive Notice
  | change (event : PackageEvent)
  | bookmark
  | failure (failure : ApiFailure)
  deriving DecidableEq, Repr

inductive NoticeKind
  | added
  | modified
  | deleted
  | bookmark
  | error
  deriving DecidableEq, Repr

namespace NoticeKind

def ofName? (s : String) : Option NoticeKind :=
  [("ADDED", added), ("MODIFIED", modified), ("DELETED", deleted), ("BOOKMARK", bookmark),
   ("ERROR", error)].lookup s

def decode : Decoder NoticeKind := fun ctx n => do
  let name ← Decoder.text ctx n
  match ofName? name with
  | some kind => pure kind
  | none => Decode.fail (.unknownVariant name)

end NoticeKind

/-- The parts of a bookmark that must be there. -/
def bookmarkFields : List (Field Unit) :=
  let textField (name : String) : Field Unit := .mandatory name .text (fun _ => "") (fun _ x => x)
  let metaFields : List (Field Unit) :=
    [textField "resourceVersion", .always "annotations" (.map .text) (fun _ => []) (fun _ x => x)]
  [.mandatory "metadata" (.record .strict metaFields ()) (fun _ => ()) (fun _ x => x),
   textField "apiVersion", textField "kind"]

def noticeOf (c : Codec InstalledPackage) (ctx : Context) (n : Node) : NoticeKind → Decode Notice
  | .added => return .change (.added (← c.decode ctx n))
  | .modified => return .change (.modified (← c.decode ctx n))
  | .deleted => return .change (.deleted (← c.decode ctx n))
  | .bookmark => do
    Record.decode ⟨false, false⟩ bookmarkFields () ctx n
    pure .bookmark
  | .error => return .failure (← failureCodec.decode ctx n)

structure Line where
  kind : Option NoticeKind := none
  /-- The content as long as its kind is not known, with typed leaves. -/
  content : Option Node := none
  notice : Option Notice := none

/-- Kind and content may come in either order. -/
def readLine (c : Codec InstalledPackage) (ctx : Context) : Line → List (Node × Node) → Decode Line
  | line, [] => pure line
  | line, (k, v) :: rest => do
    match ← Decoder.text ctx k with
    | "type" =>
      if line.kind.isSome then Decode.fail (.duplicateField "type")
      else
        let kind ← NoticeKind.decode ctx v
        let notice ← match line.content with
          | some n =>
            let tree : Context := { format := .tree, anchors := [], jumpLimit := 0, depth := none }
            some <$> noticeOf c tree n kind
          | none => pure none
        readLine c ctx { line with kind := some kind, notice } rest
    | "object" =>
      if line.content.isSome || line.notice.isSome then Decode.fail (.duplicateField "object")
      else match line.kind with
        | some kind =>
          let notice ← noticeOf c ctx v kind
          readLine c ctx { line with notice := some notice } rest
        | none =>
          let content ← Decoder.settle ctx v
          readLine c ctx { line with content := some content } rest
    | _ =>
      v.skip
      readLine c ctx line rest

def decodeNotice (c : Codec InstalledPackage) : Decoder Notice := fun ctx n => do
  match ← ctx.resolve n with
  | .record _ es =>
    let line ← readLine c (← ctx.inside) {} es
    match line.kind, line.notice with
    | some _, some notice => pure notice
    | none, _ => Decode.fail (.missingField "type")
    | some _, none => Decode.fail (.missingField "object")
  | n => Decode.fail (Decoder.fault n)

/-- The event of a line, or what is wrong with it. A line that breaks off says nothing. -/
def eventOf? (c : Codec InstalledPackage) (line : List Char) : Option (Except ApiFault PackageEvent) :=
  match (Json.read line).decode (decodeNotice c) with
  | .ok (.change event) => some (.ok event)
  | .ok .bookmark => none
  | .ok (.failure f) => some (.error (.failure f))
  | .error .unfinished => none
  | .error _ =>
    match decode failureCodec line with
    | .ok f => some (.error (.failure f))
    | .error _ => some (.error .undecodable)

def withoutReturn (line : List Char) : List Char :=
  if line.getLast? = some '\r' then line.dropLast else line

/-- The events of a watch, one a line. Its status does not count. -/
def readEvents (c : Codec InstalledPackage) (r : ApiResponse) :
    Except ApiFault (List (Except ApiFault PackageEvent)) := do
  match textOf r with
  | .error f => .ok [.error f]
  | .ok text =>
    let lines := Text.splitOn '\n' text
    .ok ((lines.map withoutReturn).filterMap (eventOf? c))

/-! ## Calls -/

def packagesPath (kind : PackageKind) (ns : Option String) : String :=
  match kind with
  | .clusterPackage => collection none "clusterpackages"
  | .package => collection ns "packages"

def listPackages (kind : PackageKind) (ns : Option String) : ApiCall (List InstalledPackage) :=
  ⟨listRequest? (packagesPath kind ns), read (listCodec (InstalledPackage.codec kind))⟩

def getPackage (kind : PackageKind) (ns : Option String) (name : String) : ApiCall InstalledPackage :=
  ⟨objectRequest? (packagesPath kind ns) name, read (InstalledPackage.codec kind)⟩

def namespaceFor (p : InstalledPackage) : Option String :=
  match p.kind with
  | .clusterPackage => none
  | .package => some (PackageStore.namespaceOf p)

def pathOf (p : InstalledPackage) : String := packagesPath p.kind (namespaceFor p)

def updateVersion (p : InstalledPackage) (version : String) : ApiCall InstalledPackage :=
  ⟨patchRequest? (pathOf p) p.name (versionPatch version), read (InstalledPackage.codec p.kind)⟩

def watch (p : InstalledPackage) : ApiCall (List (Except ApiFault PackageEvent)) :=
  ⟨watchRequest? (pathOf p) p.name, readEvents (InstalledPackage.codec p.kind)⟩

def repositoriesPath : String := collection none "packagerepositories"

def getRepository (name : String) : ApiCall Repository :=
  ⟨objectRequest? repositoriesPath name, read Repository.codec⟩

def listRepositories : ApiCall (List Repository) :=
  ⟨listRequest? repositoriesPath, read (listCodec Repository.codec)⟩

def getSecret (ns name : String) : ApiCall Secret :=
  ⟨objectRequest? (secretsOf ns) name, read Secret.codec⟩

end ApiServer
end ClusterPackages
