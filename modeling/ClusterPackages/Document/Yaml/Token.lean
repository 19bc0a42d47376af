import ClusterPackages.Document.Node

/-!
Tokens of YAML texts, and the cursor with which a text is walked: it knows the line and the column
it stands in, since indentation carries structure.
-/

namespace ClusterPackages.Yaml

inductive Token
  | versionDirective (major minor : Nat)
  | tagDirective (handle lead : List Char)
  | documentStart
  | documentEnd
  | streamEnd
  | blockSequenceStart
  | blockMappingStart
  | blockEnd
  | flowSequenceStart
  | flowSequenceEnd
  | flowMappingStart
  | flowMappingEnd
  | blockEntry
  | flowEntry
  | key
  | value
  | alias (name : List Char)
  | anchor (name : List Char)
  | tag (handle suffix : List Char)
  | scalar (style : ScalarStyle) (text : List Char)
  deriving DecidableEq, Repr, Inhabited

/-! ## Characters -/

def isAllowed (c : Char) : Bool :=
  let n := c.toNat
  n == 0x09 || n == 0x0A || n == 0x0D || (0x20 ≤ n && n ≤ 0x7E) || n == 0x85 ||
    (0xA0 ≤ n && n ≤ 0xD7FF) || (0xE000 ≤ n && n ≤ 0xFFFD && n != 0xFEFF) || 0x10000 ≤ n

def isBreak (c : Char) : Bool :=
  c == '\n' || c == '\r' || c == '\x85' || c == '\u2028' || c == '\u2029'

def isSpace (c : Char) : Bool := c == ' ' || c == '\t'

/-- Characters of anchors, handles and directive names. -/
def isWordChar (c : Char) : Bool :=
  Text.isDigit c || Text.isAsciiLetter c || c == '_' || c == '-'

def endsLine : List Char → Bool
  | [] => true
  | c :: _ => isBreak c

def endsWord : List Char → Bool
  | [] => true
  | c :: _ => isSpace c || isBreak c

/-- Characters that structure collections in brackets and braces. -/
def isFlowIndicator (c : Char) : Bool :=
  c == ',' || c == '[' || c == ']' || c == '\x7b' || c == '\x7d'

/-- Three dashes or three dots, alone at the start of a line. -/
def isDocumentMark : List Char → Bool
  | '-' :: '-' :: '-' :: rest => endsWord rest
  | '.' :: '.' :: '.' :: rest => endsWord rest
  | _ => false

/-! ## The cursor -/

structure Cursor where
  rest : List Char
  index : Nat
  line : Nat
  column : Nat
  deriving Repr, Inhabited

namespace Cursor

def start (cs : List Char) : Cursor := ⟨cs, 0, 0, 0⟩

def advance (n : Nat) (c : Cursor) : Cursor :=
  { c with rest := c.rest.drop n, index := c.index + n, column := c.column + n }

def skipWhile (p : Char → Bool) (c : Cursor) : Cursor :=
  c.advance (c.rest.takeWhile p).length

def nextLine (c : Cursor) : Cursor :=
  match c.rest with
  | '\r' :: '\n' :: rest => ⟨rest, c.index + 2, c.line + 1, 0⟩
  | b :: rest => if isBreak b then ⟨rest, c.index + 1, c.line + 1, 0⟩ else c
  | [] => c

/-- The line break here as text: one newline, unless it is a separator of its own. -/
def lineBreak (c : Cursor) : List Char :=
  match c.rest with
  | b :: _ =>
    if b == '\u2028' || b == '\u2029' then [b] else if isBreak b then ['\n'] else []
  | [] => []

def toLineEnd (c : Cursor) : Cursor := c.skipWhile (fun x => !isBreak x)

def skipComment (c : Cursor) : Cursor :=
  match c.rest with
  | '#' :: _ => c.toLineEnd
  | _ => c

def atDocumentMark (c : Cursor) : Bool := c.column = 0 && isDocumentMark c.rest

end Cursor
end ClusterPackages.Yaml
