import ClusterPackages.Document.Yaml.Event
import ClusterPackages.Document.Decoder

/-!
Writing texts as YAML leaves, so that they are read back as texts: plain where that is possible,
else in single quotes, as a block or in double quotes.
-/

namespace ClusterPackages.Yaml

/-! ## What a text allows -/

def isWritable (c : Char) : Bool :=
  let n := c.toNat
  n == 0x0A || (0x20 ≤ n && n ≤ 0x7E) || (0xA0 ≤ n && n ≤ 0xD7FF) ||
    (0xE000 ≤ n && n ≤ 0xFFFD && n != 0xFEFF)

def isLeadingIndicator (c : Char) : Bool :=
  isFlowIndicator c || c == '#' || c == '&' || c == '*' || c == '!' || c == '|' || c == '>' ||
    c == '\'' || c == '"' || c == '%' || c == '@' || c == '\x60'

def endsWrittenWord (cs : List Char) : Bool := endsWord cs || cs.head? = some '\x00'

/-- Whether a character later in the text would be read as an indicator. -/
def hasInnerIndicator : (afterBlank : Bool) → List Char → Bool
  | _, [] => false
  | afterBlank, c :: cs =>
    (c == ':' && endsWrittenWord cs) || (c == '#' && afterBlank) ||
      hasInnerIndicator (isSpace c || isBreak c || c == '\x00') cs

/-- Whether the text would be read as more than a leaf. -/
def hasIndicator (cs : List Char) : Bool :=
  match cs with
  | '-' :: '-' :: '-' :: _ | '.' :: '.' :: '.' :: _ => true
  | c :: rest =>
    isLeadingIndicator c || ((c == '?' || c == ':' || c == '-') && endsWrittenWord rest) ||
      hasInnerIndicator (isSpace c || isBreak c || c == '\x00') rest
  | [] => false

/-- Whether two neighbours satisfy the two predicates. -/
def hasNeighbours (p q : Char → Bool) : List Char → Bool
  | c :: d :: rest => (p c && q d) || hasNeighbours p q (d :: rest)
  | _ => false

def isBlankChar (c : Char) : Bool := c == ' '

/-- A text that no quoting but the double one keeps. -/
def needsEscapes (cs : List Char) : Bool :=
  !cs.all isWritable || hasNeighbours isBlankChar isBreak cs

def endsBlank (cs : List Char) : Bool := cs.getLast? = some ' '

def isPlainWritable (cs : List Char) : Bool :=
  !hasIndicator cs && !needsEscapes cs && !cs.any isBreak && !endsBlank cs &&
    cs.head? ≠ some ' '

def isBlockWritable (cs : List Char) : Bool := cs ≠ [] && !needsEscapes cs && !endsBlank cs

def isSingleQuotable (cs : List Char) : Bool :=
  !needsEscapes cs && !hasNeighbours isBreak isBlankChar cs

/-- A plain text that would be read as something else than a text. -/
def isAmbiguous (s : String) : Bool :=
  Scalar.isZeroFilled s.toList ||
    match Scalar.plainAtom? s with
    | some (.text _) => false
    | _ => true

/-! ## Writing -/

def indentation (n : Nat) : List Char := List.replicate n ' '

def upperHexDigit (n : Nat) : Char :=
  if n < 10 then Char.ofNat (n + 48) else Char.ofNat (n + 55)

def hexFixed : (width : Nat) → Nat → List Char
  | 0, _ => []
  | width + 1, n => hexFixed width (n / 16) ++ [upperHexDigit (n % 16)]

def escaped (c : Char) : List Char :=
  match c with
  | '\x00' => ['\\', '0']
  | '\x07' => ['\\', 'a']
  | '\x08' => ['\\', 'b']
  | '\t' => ['\\', 't']
  | '\n' => ['\\', 'n']
  | '\x0b' => ['\\', 'v']
  | '\x0c' => ['\\', 'f']
  | '\r' => ['\\', 'r']
  | '\x1b' => ['\\', 'e']
  | '"' => ['\\', '"']
  | '\\' => ['\\', '\\']
  | '\x85' => ['\\', 'N']
  | '\xa0' => ['\\', '_']
  | '\u2028' => ['\\', 'L']
  | '\u2029' => ['\\', 'P']
  | c =>
    let n := c.toNat
    if n < 0x100 then '\\' :: 'x' :: hexFixed 2 n
    else if n < 0x10000 then '\\' :: 'u' :: hexFixed 4 n
    else '\\' :: 'U' :: hexFixed 8 n

def doubleQuoted (cs : List Char) : List Char :=
  let one (c : Char) : List Char :=
    if !isWritable c || isBreak c || c == '"' || c == '\\' then escaped c else [c]
  '"' :: cs.flatMap one ++ ['"']

/-- Line breaks are followed by the indentation of the next line. -/
def singleQuoted (indent : Nat) (cs : List Char) : List Char :=
  '\'' :: go false cs ++ ['\'']
where
  go : (afterBreak : Bool) → List Char → List Char
    | afterBreak, [] => if afterBreak then indentation indent else []
    | afterBreak, c :: cs =>
      if isBreak c then c :: go true cs
      else
        (if afterBreak then indentation indent else []) ++
          (if c == '\'' then ['\'', '\''] else [c]) ++ go false cs

def chompingMark (cs : List Char) : List Char :=
  match cs.reverse with
  | a :: b :: _ => if !isBreak a then ['-'] else if isBreak b then ['+'] else []
  | [a] => if isBreak a then ['+'] else ['-']
  | [] => ['-']

def block (indent : Nat) (cs : List Char) : List Char :=
  let mark := if cs.head?.any (fun c => c == ' ' || isBreak c) then indent.repr.toList else []
  '|' :: mark ++ chompingMark cs ++ '\n' :: go true cs
where
  go : (lineStart : Bool) → List Char → List Char
    | _, [] => []
    | lineStart, c :: cs =>
      if isBreak c then c :: go true cs
      else (if lineStart then indentation indent else []) ++ c :: go false cs

/-- A text as the value of an entry, inside lines that are indented by `indent`. -/
def leaf (indent : Nat) (s : String) : List Char :=
  let cs := s.toList
  if cs.contains '\n' then
    if isBlockWritable cs then block indent cs else doubleQuoted cs
  else if !isAmbiguous s && isPlainWritable cs then cs
  else if isSingleQuotable cs then singleQuoted indent cs
  else doubleQuoted cs

def indentStep : Nat := 2

def entryLine (key value : String) : List Char :=
  let text := key.toList ++ ':' :: ' ' :: leaf indentStep value
  if text.getLast? = some '\n' then text else text ++ ['\n']

end ClusterPackages.Yaml
