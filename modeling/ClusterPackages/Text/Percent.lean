import ClusterPackages.Text.Utf8

/-!
Percent signs in addresses: a byte that may not stand for itself is written as a percent sign and
two hexadecimal digits.
-/

namespace ClusterPackages.Text

def upperHexDigit (n : Nat) : Char :=
  if n < 10 then Char.ofNat (n + 48) else Char.ofNat (n + 55)

def percentByte (b : Nat) : List Char := ['%', upperHexDigit (b / 16), upperHexDigit (b % 16)]

def percentEncode (keeps : Char → Bool) (cs : List Char) : List Char :=
  cs.flatMap fun c =>
    if c.toNat < 0x80 && keeps c then [c] else (encodeChar c).flatMap percentByte

def isUnreserved (c : Char) : Bool :=
  isAsciiLetter c || isDigit c || c == '-' || c == '.' || c == '_' || c == '~'

/-- One segment of a path, in which nothing acts as a separator. -/
def percentSegment (cs : List Char) : List Char := percentEncode isUnreserved cs

/-- Reads bytes back; a percent sign without two digits stands for itself. -/
def percentDecode : List Char → Bytes
  | '%' :: a :: b :: rest =>
    match hexValue? a, hexValue? b with
    | some x, some y => (16 * x + y) :: percentDecode rest
    | _, _ => encodeChar '%' ++ percentDecode (a :: b :: rest)
  | c :: rest => encodeChar c ++ percentDecode rest
  | [] => []

end ClusterPackages.Text
