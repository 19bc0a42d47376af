import ClusterPackages.Text.Basic

/-!
UTF-8: the bytes of characters, and reading bytes back. Reading stops at the first sequence that
is none; the report tells where it starts and how many of its bytes could have begun a character.
-/

namespace ClusterPackages.Text

/-- Bytes are numbers below 256. -/
abbrev Bytes := List Nat

def encodeChar (c : Char) : Bytes :=
  let n := c.toNat
  if n < 0x80 then [n]
  else if n < 0x800 then [0xC0 + n / 0x40, 0x80 + n % 0x40]
  else if n < 0x10000 then [0xE0 + n / 0x1000, 0x80 + n / 0x40 % 0x40, 0x80 + n % 0x40]
  else [0xF0 + n / 0x40000, 0x80 + n / 0x1000 % 0x40, 0x80 + n / 0x40 % 0x40, 0x80 + n % 0x40]

def encode (cs : List Char) : Bytes := cs.flatMap encodeChar

def isContinuation (b : Nat) : Bool := 0x80 ≤ b && b < 0xC0

/-- How many bytes a character takes that begins with this byte; zero if none does. -/
def sequenceLength (b : Nat) : Nat :=
  if b < 0x80 then 1
  else if 0xC2 ≤ b && b < 0xE0 then 2
  else if 0xE0 ≤ b && b < 0xF0 then 3
  else if 0xF0 ≤ b && b < 0xF5 then 4
  else 0

/-- Whether the second byte fits the first: no character has two spellings, none is a surrogate,
and none is beyond the last one. -/
def secondFits (first second : Nat) : Bool :=
  if first == 0xE0 then 0xA0 ≤ second && second < 0xC0
  else if first == 0xED then 0x80 ≤ second && second < 0xA0
  else if first == 0xF0 then 0x90 ≤ second && second < 0xC0
  else if first == 0xF4 then 0x80 ≤ second && second < 0x90
  else isContinuation second

inductive EncodingFault
  | invalid (length index : Nat)
  | incomplete (index : Nat)
  deriving DecidableEq, Repr

def EncodingFault.message : EncodingFault → String
  | .invalid length index =>
    "invalid utf-8 sequence of " ++ toString length ++ " bytes from index " ++ toString index
  | .incomplete index => "incomplete utf-8 byte sequence from index " ++ toString index

def decodeChar (index : Nat) : Bytes → Except EncodingFault (Option (Char × Nat × Bytes))
  | [] => .ok none
  | a :: rest =>
    match sequenceLength a with
    | 0 => .error (.invalid 1 index)
    | 1 => .ok (some (Char.ofNat a, 1, rest))
    | length =>
      match rest with
      | [] => .error (.incomplete index)
      | b :: rest =>
        if !secondFits a b then .error (.invalid 1 index)
        else if length = 2 then
          .ok (some (Char.ofNat (a % 0x20 * 0x40 + b % 0x40), 2, rest))
        else match rest with
          | [] => .error (.incomplete index)
          | c :: rest =>
            if !isContinuation c then .error (.invalid 2 index)
            else if length = 3 then
              .ok (some (Char.ofNat ((a % 0x10 * 0x40 + b % 0x40) * 0x40 + c % 0x40), 3, rest))
            else match rest with
              | [] => .error (.incomplete index)
              | d :: rest =>
                if !isContinuation d then .error (.invalid 3 index)
                else
                  .ok (some (Char.ofNat
                    (((a % 0x08 * 0x40 + b % 0x40) * 0x40 + c % 0x40) * 0x40 + d % 0x40), 4, rest))

def decodeFrom : (fuel : Nat) → (index : Nat) → Bytes → Except EncodingFault (List Char)
  | 0, _, _ => .ok []
  | fuel + 1, index, bytes => do
    match ← decodeChar index bytes with
    | none => return []
    | some (c, length, rest) => return c :: (← decodeFrom fuel (index + length) rest)

def decodeUtf8 (bytes : Bytes) : Except EncodingFault (List Char) :=
  decodeFrom (bytes.length + 1) 0 bytes

def decodeLossyFrom : (fuel : Nat) → Bytes → List Char
  | 0, _ => []
  | fuel + 1, bytes =>
    match decodeChar 0 bytes with
    | .ok none => []
    | .ok (some (c, _, rest)) => c :: decodeLossyFrom fuel rest
    | .error (.invalid length _) => '\ufffd' :: decodeLossyFrom fuel (bytes.drop length)
    | .error (.incomplete _) => ['\ufffd']

/-- The text that bytes spell, with a mark in place of each sequence that spells nothing. -/
def decodeLossy (bytes : Bytes) : List Char := decodeLossyFrom (bytes.length + 1) bytes

end ClusterPackages.Text
