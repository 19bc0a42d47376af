import ClusterPackages.Document.Yaml.Token

/-!
Texts of YAML leaves: plain words, quoted texts and blocks. Line breaks inside plain and quoted
texts fold into a space, and so do those of folded blocks.
-/

namespace ClusterPackages.Yaml

/-! ## White space between words -/

structure Gap where
  spaces : List Char
  /-- The first line break; it is empty if it was escaped. -/
  firstBreak : Option (List Char)
  moreBreaks : List Char
  deriving Repr, Inhabited

namespace Gap

def none : Gap := ⟨[], Option.none, []⟩

def folded (g : Gap) : List Char :=
  match g.firstBreak with
  | Option.none => g.spaces
  | some ['\n'] => if g.moreBreaks = [] then [' '] else g.moreBreaks
  | some first => first ++ g.moreBreaks

def read : (fuel : Nat) → (column : Nat) → Gap → Cursor → Option (Gap × Cursor)
  | 0, _, g, c => some (g, c)
  | fuel + 1, column, g, c =>
    match c.rest with
    | [] => some (g, c)
    | x :: _ =>
      if isSpace x then
        match g.firstBreak with
        | Option.none => read fuel column { g with spaces := g.spaces ++ [x] } (c.advance 1)
        | some _ =>
          -- a tab is no indentation
          if x == '\t' && c.column < column then Option.none
          else read fuel column g (c.advance 1)
      else if isBreak x then
        match g.firstBreak with
        | Option.none => read fuel column ⟨[], some c.lineBreak, []⟩ c.nextLine
        | some _ =>
          read fuel column { g with moreBreaks := g.moreBreaks ++ c.lineBreak } c.nextLine
      else some (g, c)

end Gap

/-! ## Plain texts -/

/-- The characters up to the end of the word; nothing if a colon is followed by an indicator. -/
def plainWord (inFlow : Bool) : List Char → Option (List Char)
  | [] => some []
  | c :: cs =>
    if isSpace c || isBreak c then some []
    else if inFlow && c == ':' && (match cs with
        | d :: _ => isFlowIndicator d || d == '?'
        | [] => false) then none
    else if c == ':' && endsWord cs then some []
    else if inFlow && isFlowIndicator c then some []
    else (plainWord inFlow cs).map (c :: ·)

/-- A plain text from the cursor on, with the white space after its last word. Its lines after the
first start at `column` or to the right of it. -/
def plainText (inFlow : Bool) (column : Nat) :
    (fuel : Nat) → List Char → Gap → Cursor → Option (List Char × Gap × Cursor)
  | 0, acc, gap, c => some (acc, gap, c)
  | fuel + 1, acc, gap, c =>
    if c.atDocumentMark || c.rest.head? = some '#' then some (acc, gap, c)
    else do
      let word ← plainWord inFlow c.rest
      if word = [] then some (acc, gap, c)
      else
        let acc := acc ++ gap.folded ++ word
        let c := c.advance word.length
        if c.rest = [] ∨ !endsWord c.rest then some (acc, Gap.none, c)
        else
          let (gap, c) ← Gap.read (c.rest.length + 1) column Gap.none c
          if !inFlow && c.column < column then some (acc, gap, c)
          else plainText inFlow column fuel acc gap c

/-! ## Quoted texts -/

def escape? : Char → Option Char
  | '0' => some '\x00'
  | 'a' => some '\x07'
  | 'b' => some '\x08'
  | 't' => some '\t'
  | '\t' => some '\t'
  | 'n' => some '\n'
  | 'v' => some '\x0b'
  | 'f' => some '\x0c'
  | 'r' => some '\r'
  | 'e' => some '\x1b'
  | ' ' => some ' '
  | '"' => some '"'
  | '/' => some '/'
  | '\\' => some '\\'
  | 'N' => some '\x85'
  | '_' => some '\xa0'
  | 'L' => some '\u2028'
  | 'P' => some '\u2029'
  | _ => none

def escapeWidth? : Char → Option Nat
  | 'x' => some 2
  | 'u' => some 4
  | 'U' => some 8
  | _ => none

def hexNumber? (cs : List Char) : Option Nat :=
  cs.foldlM (fun n c => (Text.hexValue? c).map (16 * n + ·)) 0

def charOfNumber? (n : Nat) : Option Char :=
  if (0xD800 ≤ n ∧ n ≤ 0xDFFF) ∨ 0x10FFFF < n then none else some (Char.ofNat n)

structure QuotedRun where
  text : List Char
  length : Nat
  breakEscaped : Bool

def quotedRun (quote : Char) : (fuel : Nat) → List Char → Option QuotedRun
  | 0, _ => some ⟨[], 0, false⟩
  | fuel + 1, cs =>
    let go (text : List Char) (length : Nat) (rest : List Char) : Option QuotedRun := do
      let r ← quotedRun quote fuel rest
      return { r with text := text ++ r.text, length := length + r.length }
    match cs with
    | [] => some ⟨[], 0, false⟩
    | c :: rest =>
      if isSpace c || isBreak c then some ⟨[], 0, false⟩
      else if c == quote then
        -- two single quotes stand for one
        match rest with
        | '\'' :: more => if quote == '\'' then go ['\''] 2 more else some ⟨[], 0, false⟩
        | _ => some ⟨[], 0, false⟩
      else if quote == '"' && c == '\\' then
        match rest with
        | [] => none
        | e :: more =>
          if isBreak e then some ⟨[], 1, true⟩
          else match escapeWidth? e with
            | some width =>
              let digits := more.take width
              if digits.length < width then none
              else do
                let x ← charOfNumber? (← hexNumber? digits)
                go [x] (width + 2) (more.drop width)
            | none => do go [← escape? e] 2 more
      else go [c] 1 rest

def quotedText (quote : Char) : (fuel : Nat) → List Char → Cursor → Option (List Char × Cursor)
  | 0, _, _ => none
  | fuel + 1, acc, c =>
    if c.atDocumentMark || c.rest = [] then none
    else do
      let run ← quotedRun quote (c.rest.length + 1) c.rest
      let c := c.advance run.length
      let (gap, c) := if run.breakEscaped then (⟨[], some [], []⟩, c.nextLine) else (Gap.none, c)
      let acc := acc ++ run.text
      if c.rest.head? = some quote then some (acc, c.advance 1)
      else
        let (gap, c) ← Gap.read (c.rest.length + 1) 0 gap c
        quotedText quote fuel (acc ++ gap.folded) c

/-! ## Blocks -/

inductive Chomping
  | strip
  | clip
  | keep
  deriving DecidableEq, Repr, Inhabited

/-- Goes over empty lines and the indentation of the next line. Column zero stands for an
indentation not known yet. -/
def blockBreaks (column : Nat) :
    (fuel : Nat) → (widest : Nat) → List Char → Cursor → Option (Nat × List Char × Cursor)
  | 0, widest, breaks, c => some (widest, breaks, c)
  | fuel + 1, widest, breaks, c =>
    let indentation := (c.rest.takeWhile (· == ' ')).length
    let c := c.advance (if column = 0 then indentation else min indentation (column - c.column))
    let widest := max widest c.column
    match c.rest with
    | [] => some (widest, breaks, c)
    | x :: _ =>
      if x == '\t' && (column = 0 || c.column < column) then none
      else if isBreak x then blockBreaks column fuel widest (breaks ++ c.lineBreak) c.nextLine
      else some (widest, breaks, c)

/-- The lines of a block, with the line break after the last one and the empty lines after it. -/
def blockLines (literal : Bool) (column : Nat) :
    (fuel : Nat) → (text lineEnd breaks : List Char) → (afterBlank : Bool) → Cursor →
      Option (List Char × List Char × List Char × Cursor)
  | 0, text, lineEnd, breaks, _, c => some (text, lineEnd, breaks, c)
  | fuel + 1, text, lineEnd, breaks, afterBlank, c =>
    if c.column ≠ column ∨ c.rest = [] then some (text, lineEnd, breaks, c)
    else
      let startsBlank := c.rest.head?.any isSpace
      let joint :=
        if !literal && lineEnd.head? = some '\n' && !afterBlank && !startsBlank then
          if breaks = [] then [' '] else breaks
        else lineEnd ++ breaks
      let line := c.rest.takeWhile (fun x => !isBreak x)
      let text := text ++ joint ++ line
      let c := c.advance line.length
      let lineEnd := c.lineBreak
      do
        let (_, breaks, c) ← blockBreaks column (c.rest.length + 1) 0 [] c.nextLine
        blockLines literal column fuel text lineEnd breaks startsBlank c

def blockHeader (c : Cursor) : Option (Chomping × Option Nat × Cursor) :=
  let chomping? (x : Char) : Option Chomping :=
    if x == '+' then some .keep else if x == '-' then some .strip else none
  match c.rest with
  | x :: more =>
    match chomping? x with
    | some chomping =>
      match more with
      | d :: _ =>
        if Text.isDigit d then
          if d == '0' then none else some (chomping, some (Text.digitValue d), c.advance 2)
        else some (chomping, none, c.advance 1)
      | [] => some (chomping, none, c.advance 1)
    | none =>
      if Text.isDigit x then
        if x == '0' then none
        else match more.head?.bind chomping? with
          | some chomping => some (chomping, some (Text.digitValue x), c.advance 2)
          | none => some (.clip, some (Text.digitValue x), c.advance 1)
      else some (.clip, none, c)
  | [] => some (.clip, none, c)

def blockText (literal : Bool) (indent : Int) (c : Cursor) : Option (List Char × Cursor) := do
  let (chomping, given, c) ← blockHeader c
  let c := (c.skipWhile isSpace).skipComment
  if !endsLine c.rest then none
  else
    let c := c.nextLine
    let column := match given with
      | some n => (max indent 0).toNat + n
      | none => 0
    let (widest, breaks, c) ← blockBreaks column (c.rest.length + 1) 0 [] c
    -- without a given indentation the widest of the lines so far decides
    let column := if column = 0 then max (max widest (indent + 1).toNat) 1 else column
    let (text, lineEnd, breaks, c) ←
      blockLines literal column (c.rest.length + 1) [] [] breaks false c
    let lineEnd := if chomping = .strip then [] else lineEnd
    let breaks := if chomping = .keep then breaks else []
    return (text ++ lineEnd ++ breaks, c)

end ClusterPackages.Yaml
