import ClusterPackages.Text.Quoted

/-!
What can be wrong with the text of a version or of a requirement.
-/

namespace ClusterPackages

inductive VersionPart
  | major
  | minor
  | patch
  | pre
  | build
  deriving DecidableEq, Repr

def VersionPart.description : VersionPart → String
  | .major => "major version number"
  | .minor => "minor version number"
  | .patch => "patch version number"
  | .pre => "pre-release identifier"
  | .build => "build metadata"

inductive VersionFault
  | empty
  | unexpectedEnd (part : VersionPart)
  | unexpectedChar (part : VersionPart) (c : Char)
  | unexpectedCharAfter (part : VersionPart) (c : Char)
  | expectedComma (part : VersionPart) (c : Char)
  | leadingZero (part : VersionPart)
  | overflow (part : VersionPart)
  | emptySegment (part : VersionPart)
  | wildcardNotAlone (wildcard : Char)
  | afterWildcard
  | tooManyComparators
  deriving DecidableEq, Repr

def VersionFault.message : VersionFault → String
  | .empty => "empty string, expected a semver version"
  | .unexpectedEnd p => "unexpected end of input while parsing " ++ p.description
  | .unexpectedChar p c =>
    "unexpected character " ++ Text.quotedChar c ++ " while parsing " ++ p.description
  | .unexpectedCharAfter p c =>
    "unexpected character " ++ Text.quotedChar c ++ " after " ++ p.description
  | .expectedComma p c =>
    "expected comma after " ++ p.description ++ ", found " ++ Text.quotedChar c
  | .leadingZero p => "invalid leading zero in " ++ p.description
  | .overflow p => "value of " ++ p.description ++ " exceeds u64::MAX"
  | .emptySegment p => "empty identifier segment in " ++ p.description
  | .wildcardNotAlone c =>
    "wildcard req (" ++ String.singleton c ++ ") must be the only comparator in the version req"
  | .afterWildcard => "unexpected character after wildcard in version req"
  | .tooManyComparators => "excessive number of version comparators"

end ClusterPackages
