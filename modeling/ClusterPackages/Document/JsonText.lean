import ClusterPackages.Document.Node
import ClusterPackages.Text.Quoted

/-!
Writing values as JSON text, without white space.
-/

namespace ClusterPackages.Json

/-- Control characters have short escapes or four hexadecimal digits. -/
def escapeChar (c : Char) : List Char :=
  if c = '"' then ['\\', '"']
  else if c = '\\' then ['\\', '\\']
  else if c = '\x08' then ['\\', 'b']
  else if c = '\x0c' then ['\\', 'f']
  else if c = '\n' then ['\\', 'n']
  else if c = '\r' then ['\\', 'r']
  else if c = '\t' then ['\\', 't']
  else if c.toNat < 0x20 then
    ['\\', 'u', '0', '0', Text.lowerHexDigit (c.toNat / 16), Text.lowerHexDigit (c.toNat % 16)]
  else [c]

def writeText (s : String) : List Char :=
  '"' :: s.toList.flatMap escapeChar ++ ['"']

mutual
def write : Value → List Char
  | .null => ['n', 'u', 'l', 'l']
  | .bool true => ['t', 'r', 'u', 'e']
  | .bool false => ['f', 'a', 'l', 's', 'e']
  | .int n => (toString n).toList
  | .float x => x.chars
  | .text s => writeText s
  | .list items => '[' :: writeItems items
  | .object entries => '\x7b' :: writeEntries entries

def writeItems : List Value → List Char
  | [] => [']']
  | [v] => write v ++ [']']
  | v :: vs => write v ++ ',' :: writeItems vs

def writeEntries : List (String × Value) → List Char
  | [] => ['\x7d']
  | [(k, v)] => writeText k ++ ':' :: write v ++ ['\x7d']
  | (k, v) :: rest => writeText k ++ ':' :: write v ++ ',' :: writeEntries rest
end

end ClusterPackages.Json

def ClusterPackages.Value.json (v : ClusterPackages.Value) : String :=
  String.ofList (ClusterPackages.Json.write v)
