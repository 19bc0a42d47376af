import ClusterPackages.Document.Json
import ClusterPackages.Document.Yaml
import ClusterPackages.Document.Record

/-!
Documents as they are fetched: bytes that spell a text, JSON if it begins with a brace and YAML
otherwise.
-/

namespace ClusterPackages.Document

inductive DecodeFault
  | encoding (fault : Text.EncodingFault)
  | content (fault : Fault)
  deriving DecidableEq, Repr

def DecodeFault.detail? : DecodeFault → Option String
  | .encoding f => some ("Invalid UTF-8: " ++ f.message)
  | .content f => f.detail?

/-- Reads a text in the form that its first character shows. -/
def ofText (cs : List Char) : Document :=
  if (Text.trimStart cs).head? = some '\x7b' then Json.read cs else Yaml.read cs

def decodeBytes (c : Codec α) (bytes : Text.Bytes) : Except DecodeFault α := do
  let cs ← (Text.decodeUtf8 bytes).mapError .encoding
  ((ofText cs).decode c.decode).mapError .content

/-- Reads YAML text, of which JSON text is a case. -/
def decodeYaml (c : Codec α) (text : String) : Except Fault α :=
  (Yaml.read text.toList).decode c.decode

def decodeJson (c : Codec α) (text : String) : Except Fault α :=
  (Json.read text.toList).decode c.decode

end ClusterPackages.Document
