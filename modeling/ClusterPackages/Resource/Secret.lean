import ClusterPackages.Resource.Meta
import ClusterPackages.Text.Base64

/-!
Secrets: named values, as bytes or as text. A text of a secret is looked for among the bytes first.
-/

namespace ClusterPackages

structure Secret where
  metadata : ObjectMeta := {}
  data : Option (TextMap Text.Bytes) := none
  immutable : Option Bool := none
  stringData : Option (TextMap String) := none
  type : Option String := none
  deriving DecidableEq, Repr

namespace Secret

def name (s : Secret) : String := s.metadata.anyName

inductive Lack
  | notText
  | noKey
  deriving DecidableEq, Repr

def Lack.message (key : String) : Lack → String
  | .notText => "has a non UTF-8 value for key " ++ key
  | .noKey => "has no key " ++ key

def text (s : Secret) (key : String) : Except Lack String :=
  match s.data.bind (TextMap.get? key) with
  | some bytes =>
    match Text.decodeUtf8 bytes with
    | .ok cs => .ok (String.ofList cs)
    | .error _ => .error .notText
  | none =>
    match s.stringData.bind (TextMap.get? key) with
    | some value => .ok value
    | none => .error .noKey

/-! ## Reading -/

/-- Bytes are written in Base64; null stands for none. -/
def bytesCodec : Codec Text.Bytes where
  decode ctx n := do
    match ← Decoder.option Decoder.text ctx n with
    | none => pure []
    | some text =>
      match Text.Base64.decode? text.toList with
      | some bytes => pure bytes
      | none => Decode.fail .malformed
  encode bytes := .text (String.ofList (Text.Base64.encode bytes))

def fixedText (expected : String) : Codec Unit where
  decode ctx n := do
    if (← Decoder.text ctx n) = expected then pure () else Decode.fail .malformed
  encode _ := .text expected

def fields : List (Field Secret) :=
  [.always "apiVersion" (fixedText "v1") (fun _ => ()) (fun _ x => x),
   .always "kind" (fixedText "Secret") (fun _ => ()) (fun _ x => x),
   .optional "data" (.map bytesCodec) (·.data) (fun m x => { x with data := m }),
   .optional "immutable" .bool (·.immutable) (fun b x => { x with immutable := b }),
   .nullable {} "metadata" ObjectMeta.codec (·.metadata) (fun m x => { x with metadata := m }),
   .optional "stringData" (.map .text) (·.stringData) (fun m x => { x with stringData := m }),
   .optional "type" .text (·.type) (fun s x => { x with type := s })]

def codec : Codec Secret := .record .lenient fields {}

end Secret
end ClusterPackages
