import ClusterPackages.Document.Yaml.ScalarText
import ClusterPackages.Text.Utf8

/-!
Cutting a YAML text into tokens. A word may turn out to be a key only when the colon after it is
met, so tokens wait until no key can begin before them; a fault takes the waiting tokens with it.
-/

namespace ClusterPackages.Yaml

structure KeyMark where
  position : Nat
  /-- Indentation leaves no other choice. -/
  required : Bool
  index : Nat
  line : Nat
  column : Nat
  deriving Repr, Inhabited

structure Lexer where
  cursor : Cursor
  queue : List Token
  taken : Nat
  /-- Column of the innermost block collection. -/
  indent : Int
  outerIndents : List Int
  keyAllowed : Bool
  key : Option KeyMark
  /-- One for each bracket or brace that is open. -/
  outerKeys : List (Option KeyMark)
  deriving Repr, Inhabited

namespace Lexer

def start (cs : List Char) : Lexer :=
  { cursor := Cursor.start cs, queue := [], taken := 0, indent := -1, outerIndents := [],
    keyAllowed := true, key := none, outerKeys := [] }

def inFlow (l : Lexer) : Bool := !l.outerKeys.isEmpty

def push (l : Lexer) (t : Token) : Lexer := { l with queue := l.queue ++ [t] }

/-- Puts a token in front of those that wait from a position on. -/
def insertAt (l : Lexer) (position : Nat) (t : Token) : Lexer :=
  let n := position - l.taken
  { l with queue := l.queue.take n ++ t :: l.queue.drop n }

/-! ## Keys -/

/-- Keys end on their line and are not longer than this. -/
def keyLengthLimit : Nat := 1024

def isStale (l : Lexer) (k : KeyMark) : Bool :=
  k.line < l.cursor.line || k.index + keyLengthLimit < l.cursor.index

def dropStaleMark (l : Lexer) : Option KeyMark → Option (Option KeyMark)
  | none => some none
  | some k => if l.isStale k then (if k.required then none else some none) else some (some k)

def dropStaleKeys (l : Lexer) : Option Lexer := do
  let outerKeys ← l.outerKeys.reverse.mapM l.dropStaleMark
  let key ← l.dropStaleMark l.key
  return { l with key, outerKeys := outerKeys.reverse }

def removeKey (l : Lexer) : Option Lexer :=
  match l.key with
  | some k => if k.required then none else some { l with key := none }
  | none => some l

def markKey (l : Lexer) : Option Lexer :=
  if l.keyAllowed then do
    let l ← l.removeKey
    let c := l.cursor
    let mark : KeyMark :=
      ⟨l.taken + l.queue.length, !l.inFlow && l.indent == c.column, c.index, c.line, c.column⟩
    return { l with key := some mark }
  else some l

/-! ## Indentation -/

/-- Opens a block collection if the column is to the right of the current one. -/
def openBlock (l : Lexer) (column : Nat) (position : Option Nat) (t : Token) : Lexer :=
  if !l.inFlow && l.indent < (column : Int) then
    let l := { l with outerIndents := l.indent :: l.outerIndents, indent := column }
    match position with
    | some n => l.insertAt n t
    | none => l.push t
  else l

def closeBlocksFrom (column : Int) : List Int → Lexer → Lexer
  | [], l => l
  | outer :: rest, l =>
    if column < l.indent then
      closeBlocksFrom column rest { (l.push .blockEnd) with indent := outer, outerIndents := rest }
    else l

def closeBlocks (l : Lexer) (column : Int) : Lexer :=
  if l.inFlow then l else closeBlocksFrom column l.outerIndents l

/-! ## White space -/

def skipToToken : (fuel : Nat) → Lexer → Lexer
  | 0, l => l
  | fuel + 1, l =>
    let tabs := l.inFlow || !l.keyAllowed
    let c := (l.cursor.skipWhile (fun x => x == ' ' || (tabs && x == '\t'))).skipComment
    match c.rest with
    | x :: _ =>
      if isBreak x then
        skipToToken fuel { l with cursor := c.nextLine, keyAllowed := l.keyAllowed || !l.inFlow }
      else { l with cursor := c }
    | [] => { l with cursor := c }

/-! ## Tokens -/

def skip (n : Nat) (l : Lexer) : Lexer := { l with cursor := l.cursor.advance n }

def fetchEnd (l : Lexer) : Option Lexer := do
  let l ← (l.closeBlocks (-1)).removeKey
  return { (l.push .streamEnd) with keyAllowed := false }

def endDirective (c : Cursor) : Option Cursor :=
  let c := (c.skipWhile isSpace).skipComment
  if endsLine c.rest then some c.nextLine else none

def versionNumber (c : Cursor) : Option (Nat × Cursor) :=
  let digits := c.rest.takeWhile Text.isDigit
  if digits = [] ∨ 9 < digits.length then none
  else some (Text.decimal digits, c.advance digits.length)

/-- A handle: a word between exclamation marks, or fewer of these parts. -/
def tagHandle (c : Cursor) : Option (List Char × Cursor) :=
  match c.rest with
  | '!' :: rest =>
    let word := rest.takeWhile isWordChar
    let c := c.advance (word.length + 1)
    match c.rest with
    | '!' :: _ => some ('!' :: word ++ ['!'], c.advance 1)
    | _ => some ('!' :: word, c)
  | _ => none

def tagOctets : (fuel : Nat) → List Char → Option (Text.Bytes × List Char)
  | 0, cs => some ([], cs)
  | fuel + 1, cs =>
    match cs with
    | '%' :: a :: b :: rest => do
      let n := 16 * (← Text.hexValue? a) + (← Text.hexValue? b)
      let (more, rest) ← tagOctets fuel rest
      return (n :: more, rest)
    | '%' :: _ => none
    | _ => some ([], cs)

def isTagChar (verbatim : Bool) (c : Char) : Bool :=
  isWordChar c || c == ';' || c == '/' || c == '?' || c == ':' || c == '@' || c == '&' ||
    c == '=' || c == '+' || c == '$' || c == '.' || c == '!' || c == '~' || c == '*' ||
    c == '\'' || c == '(' || c == ')' || (verbatim && (c == ',' || c == '[' || c == ']'))

/-- The characters of a tag, with percent signs read as octets. -/
def tagText (verbatim : Bool) : (fuel : Nat) → Cursor → Option (List Char × Cursor)
  | 0, c => some ([], c)
  | fuel + 1, c =>
    let chars := c.rest.takeWhile (isTagChar verbatim)
    let c := c.advance chars.length
    match c.rest with
    | '%' :: _ => do
      let (octets, rest) ← tagOctets (c.rest.length + 1) c.rest
      let decoded ← (Text.decodeUtf8 octets).toOption
      let (more, c) ← tagText verbatim fuel (c.advance (c.rest.length - rest.length))
      return (chars ++ decoded ++ more, c)
    | _ => some (chars, c)

def nonEmpty (r : List Char × Cursor) : Option (List Char × Cursor) :=
  if r.1 = [] then none else some r

def directive (c : Cursor) : Option (Token × Cursor) := do
  let name := (c.rest.drop 1).takeWhile isWordChar
  let c := c.advance (name.length + 1)
  if name = [] ∨ !endsWord c.rest then none
  else
    let c := c.skipWhile isSpace
    if name = ['Y', 'A', 'M', 'L'] then
      let (major, c) ← versionNumber c
      if c.rest.head? ≠ some '.' then none
      else
        let (minor, c) ← versionNumber (c.advance 1)
        return (.versionDirective major minor, ← endDirective c)
    else if name = ['T', 'A', 'G'] then
      let (handle, c) ← tagHandle c
      if handle ≠ ['!'] ∧ handle.getLast? ≠ some '!' then none
      else if !c.rest.head?.any isSpace then none
      else
        let c := c.skipWhile isSpace
        let (lead, c) ← nonEmpty (← tagText true (c.rest.length + 1) c)
        if endsWord c.rest then return (.tagDirective handle lead, ← endDirective c) else none
    else none

def fetchDirective (l : Lexer) : Option Lexer := do
  let l ← (l.closeBlocks (-1)).removeKey
  let (t, cursor) ← directive l.cursor
  return { (l.push t) with cursor, keyAllowed := false }

def fetchDocumentMark (t : Token) (l : Lexer) : Option Lexer := do
  let l ← (l.closeBlocks (-1)).removeKey
  return { (l.push t).skip 3 with keyAllowed := false }

def fetchFlowStart (t : Token) (l : Lexer) : Option Lexer := do
  let l ← l.markKey
  let l := { l with outerKeys := l.key :: l.outerKeys, key := none }
  return { (l.push t).skip 1 with keyAllowed := true }

def fetchFlowEnd (t : Token) (l : Lexer) : Option Lexer := do
  let l ← l.removeKey
  let l := match l.outerKeys with
    | k :: rest => { l with key := k, outerKeys := rest }
    | [] => l
  return { (l.push t).skip 1 with keyAllowed := false }

def fetchFlowEntry (l : Lexer) : Option Lexer := do
  let l ← l.removeKey
  return { (l.push .flowEntry).skip 1 with keyAllowed := true }

def fetchBlockEntry (l : Lexer) : Option Lexer :=
  if !l.inFlow && !l.keyAllowed then none
  else do
    let l ← (l.openBlock l.cursor.column none .blockSequenceStart).removeKey
    return { (l.push .blockEntry).skip 1 with keyAllowed := true }

def fetchKey (l : Lexer) : Option Lexer :=
  if !l.inFlow && !l.keyAllowed then none
  else do
    let l ← (l.openBlock l.cursor.column none .blockMappingStart).removeKey
    return { (l.push .key).skip 1 with keyAllowed := !l.inFlow }

/-- A colon: what was marked as a possible key is one now. -/
def fetchValue (l : Lexer) : Option Lexer :=
  match l.key with
  | some k =>
    let l := (l.insertAt k.position .key).openBlock k.column (some k.position) .blockMappingStart
    some { (l.push .value).skip 1 with key := none, keyAllowed := false }
  | none =>
    if !l.inFlow && !l.keyAllowed then none
    else
      let l := l.openBlock l.cursor.column none .blockMappingStart
      some { (l.push .value).skip 1 with keyAllowed := !l.inFlow }

def endsAnchor (cs : List Char) : Bool :=
  endsWord cs || cs.head?.any (fun c =>
    c == '?' || c == ':' || c == ',' || c == ']' || c == '\x7d' || c == '%' || c == '@' || c == '\x60')

def fetchAnchor (make : List Char → Token) (l : Lexer) : Option Lexer := do
  let l ← l.markKey
  let name := (l.cursor.rest.drop 1).takeWhile isWordChar
  let l := { (l.skip (name.length + 1)).push (make name) with keyAllowed := false }
  if name = [] ∨ !endsAnchor l.cursor.rest then none else some l

def tag (c : Cursor) : Option (Token × Cursor) :=
  match c.rest with
  | '!' :: '<' :: _ => do
    let c := c.advance 2
    let (suffix, c) ← nonEmpty (← tagText true (c.rest.length + 1) c)
    if c.rest.head? = some '>' then return (.tag [] suffix, c.advance 1) else none
  | _ => do
    let (handle, c) ← tagHandle c
    if 1 < handle.length ∧ handle.getLast? = some '!' then
      let (suffix, c) ← nonEmpty (← tagText false (c.rest.length + 1) c)
      return (.tag handle suffix, c)
    else
      let (more, c) ← tagText false (c.rest.length + 1) c
      let suffix := handle.drop 1 ++ more
      if suffix = [] then return (.tag [] ['!'], c) else return (.tag ['!'] suffix, c)

def fetchTag (l : Lexer) : Option Lexer := do
  let l ← l.markKey
  let (t, cursor) ← tag l.cursor
  if endsWord cursor.rest || (l.inFlow && cursor.rest.head? = some ',') then
    return { (l.push t) with cursor, keyAllowed := false }
  else none

def fetchBlockText (style : ScalarStyle) (l : Lexer) : Option Lexer := do
  let l ← l.removeKey
  let (text, cursor) ← blockText (style = .literal) l.indent (l.cursor.advance 1)
  return { (l.push (.scalar style text)) with cursor, keyAllowed := true }

def fetchQuoted (quote : Char) (l : Lexer) : Option Lexer := do
  let l ← l.markKey
  let (text, cursor) ← quotedText quote (l.cursor.rest.length + 1) [] (l.cursor.advance 1)
  return { (l.push (.scalar .quoted text)) with cursor, keyAllowed := false }

/-- After a plain text that ended on an earlier line a key may begin. -/
def fetchPlain (l : Lexer) : Option Lexer := do
  let l ← l.markKey
  let (text, gap, cursor) ←
    plainText l.inFlow (l.indent + 1).toNat (l.cursor.rest.length + 1) [] Gap.none l.cursor
  return { (l.push (.scalar .plain text)) with cursor, keyAllowed := gap.firstBreak.isSome }

def isIndicator (c : Char) : Bool :=
  isFlowIndicator c || c == '-' || c == '?' || c == ':' || c == '#' || c == '&' || c == '*' ||
    c == '!' || c == '|' || c == '>' || c == '\'' || c == '"' || c == '%' || c == '@' || c == '\x60'

def beginsPlain (inFlow : Bool) (c : Char) (rest : List Char) : Bool :=
  (!isIndicator c && !isSpace c) || (c == '-' && !rest.head?.any isSpace) ||
    (!inFlow && (c == '?' || c == ':') && !endsWord rest)

/-- Reads the next token; keys and blocks that end before it come with it. -/
def fetch (l : Lexer) : Option Lexer := do
  let l ← (l.skipToToken (l.cursor.rest.length + 1)).dropStaleKeys
  let l := l.closeBlocks l.cursor.column
  match l.cursor.rest with
  | [] => l.fetchEnd
  | c :: rest =>
    if l.cursor.column = 0 ∧ c = '%' then l.fetchDirective
    else if l.cursor.atDocumentMark then
      l.fetchDocumentMark (if c = '-' then .documentStart else .documentEnd)
    else if c = '[' then l.fetchFlowStart .flowSequenceStart
    else if c = '\x7b' then l.fetchFlowStart .flowMappingStart
    else if c = ']' then l.fetchFlowEnd .flowSequenceEnd
    else if c = '\x7d' then l.fetchFlowEnd .flowMappingEnd
    else if c = ',' then l.fetchFlowEntry
    else if c = '-' ∧ endsWord rest then l.fetchBlockEntry
    else if c = '?' ∧ (l.inFlow ∨ endsWord rest) then l.fetchKey
    else if c = ':' ∧ (l.inFlow ∨ endsWord rest) then l.fetchValue
    else if c = '*' then l.fetchAnchor .alias
    else if c = '&' then l.fetchAnchor .anchor
    else if c = '!' then l.fetchTag
    else if c = '|' ∧ !l.inFlow then l.fetchBlockText .literal
    else if c = '>' ∧ !l.inFlow then l.fetchBlockText .folded
    else if c = '\'' ∨ c = '"' then l.fetchQuoted c
    else if beginsPlain l.inFlow c rest then l.fetchPlain
    else none

/-- Whether the first waiting token may still get a key before it. -/
def headMayBeKey (l : Lexer) : Bool :=
  (l.key :: l.outerKeys).any fun k => k.any (·.position = l.taken)

/-- The tokens up to the end or to the first fault. -/
def run : (fuel : Nat) → Lexer → List Token
  | 0, _ => []
  | fuel + 1, l =>
    match l.queue with
    | [] =>
      match l.fetch with
      | some l => run fuel l
      | none => []
    | _ :: _ =>
      match l.dropStaleKeys with
      | none => []
      | some l =>
        -- what is read next may put a key in front of the first token
        if l.headMayBeKey then
          match l.fetch with
          | some l => run fuel l
          | none => []
        else match l.queue with
          | [] => []
          | .streamEnd :: _ => [.streamEnd]
          | t :: queue => t :: run fuel { l with queue, taken := l.taken + 1 }

end Lexer

/-- The tokens of a text; the last one is the end of the stream, unless there is a fault. A mark of
the byte order in front is no part of the text. -/
def Token.ofText (cs : List Char) : List Token :=
  let cs := if cs.head? = some '\ufeff' then cs.drop 1 else cs
  if cs.all isAllowed then Lexer.run (10 * (cs.length + 4)) (Lexer.start cs) else []

end ClusterPackages.Yaml
