import ClusterPackages.Document.Value

/-!
Merge patches: a patch that is an object changes the entries that it names, and takes away those
that it names null; any other patch takes the place of the whole.
-/

namespace ClusterPackages.Value

def alter (key : String) (f : Option Value → Option Value) :
    List (String × Value) → List (String × Value)
  | [] => match f none with
    | some v => [(key, v)]
    | none => []
  | (k, v) :: rest =>
    if k = key then
      match f (some v) with
      | some w => (k, w) :: rest
      | none => rest
    else (k, v) :: alter key f rest

def entriesOf : Value → List (String × Value)
  | .object entries => entries
  | _ => []

mutual
/-- Applies a patch to a value, or to the absence of one. -/
def mergePatch (target : Value) : Value → Value
  | .object patches => .object (patchEntries target.entriesOf patches)
  | .null => .null
  | .bool b => .bool b
  | .int n => .int n
  | .float x => .float x
  | .text s => .text s
  | .list items => .list items

def patchEntries (entries : List (String × Value)) :
    List (String × Value) → List (String × Value)
  | [] => entries
  | (key, .null) :: rest => patchEntries (alter key (fun _ => none) entries) rest
  | (key, patch) :: rest =>
    patchEntries (alter key (fun v => some (mergePatch (v.getD .null) patch)) entries) rest
end

end ClusterPackages.Value
