import ClusterPackages.Document
import ClusterPackages.Document.Yaml.Written
import ClusterPackages.Duration
import ClusterPackages.RepoError

/-!
Settings of a client set and the file that keeps them. Every entry of the file may be absent.
-/

namespace ClusterPackages

structure Settings where
  maxCacheAge : Duration := Duration.ofSeconds 300
  /-- How long a client is trusted before its repository is read again. -/
  clientCheckInterval : Duration := Duration.ofSeconds 60
  secretNamespace : String := "skiff-system"
  deriving DecidableEq, Repr

namespace Settings

/-- Whether a client that was looked at before is taken as it is. No time passes within a run. -/
def trustsClients (s : Settings) : Bool := 0 < s.clientCheckInterval.nanos

def durationCodec : Codec Duration where
  decode ctx n := do
    match Duration.ofText? (← Decoder.text ctx n) with
    | some d => pure d
    | none => Decode.fail .malformed
  encode d := .text d.text

def fields : List (Field Settings) :=
  [.always "maxCacheAge" durationCodec (·.maxCacheAge) (fun d x => { x with maxCacheAge := d }),
   .always "clientCheckInterval" durationCodec (·.clientCheckInterval)
     (fun d x => { x with clientCheckInterval := d }),
   .always "secretNamespace" .text (·.secretNamespace)
     (fun s x => { x with secretNamespace := s })]

def codec : Codec Settings := .record .strict fields {}

/-- Where the file is below the directory of configurations. -/
def defaultPath : String := "skiff/config.yaml"

def ofText (text : List Char) : Except RepoError Settings :=
  ((Yaml.read text).decode codec.decode).mapError fun f => .serialization (.content f)

def ofFile : Option Text.Bytes → Except RepoError Settings
  | none => .error (.io "No such file or directory (os error 2)")
  | some bytes =>
    match Text.decodeUtf8 bytes with
    | .ok text => ofText text
    | .error _ => .error (.io "stream did not contain valid UTF-8")

def ofFileOrDefault : Option Text.Bytes → Except RepoError Settings
  | none => .ok {}
  | some bytes => ofFile (some bytes)

def toText (s : Settings) : List Char :=
  Yaml.entryLine "maxCacheAge" s.maxCacheAge.text ++
    Yaml.entryLine "clientCheckInterval" s.clientCheckInterval.text ++
      Yaml.entryLine "secretNamespace" s.secretNamespace

inductive Entry
  | absent
  | directory
  | file
  deriving DecidableEq, Repr

/-- Writes the file below a parent, which is made if it is absent. -/
def save (parent : Entry) (s : Settings) : Except RepoError (List Char) :=
  match parent with
  | .file => .error (.io "Not a directory (os error 20)")
  | .absent | .directory => .ok s.toText

end Settings
end ClusterPackages
