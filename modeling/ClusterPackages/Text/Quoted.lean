import ClusterPackages.Text.Unprintable

/-!
Quoted forms of characters and texts, as error messages show them: the quote itself and the
backslash are escaped, the usual control characters have letters, and whatever cannot be printed
is written by its number.
-/

namespace ClusterPackages.Text

def lowerHexDigit (n : Nat) : Char :=
  if n < 10 then Char.ofNat (n + 48) else Char.ofNat (n + 87)

/-- Lower-case hexadecimal digits, at least one. -/
def hexDigits (n : Nat) : List Char :=
  go (n + 1) n []
where
  go : Nat → Nat → List Char → List Char
    | 0, _, acc => acc
    | fuel + 1, n, acc =>
      let acc := lowerHexDigit (n % 16) :: acc
      if n / 16 = 0 then acc else go fuel (n / 16) acc

def escape (quote c : Char) : List Char :=
  if c = quote ∨ c = '\\' then ['\\', c]
  else if c = '\x00' then ['\\', '0']
  else if c = '\t' then ['\\', 't']
  else if c = '\n' then ['\\', 'n']
  else if c = '\r' then ['\\', 'r']
  else if isUnprintable c then ['\\', 'u', '\x7b'] ++ hexDigits c.toNat ++ ['\x7d']
  else [c]

def quotedChar (c : Char) : String := String.ofList ('\'' :: escape '\'' c ++ ['\''])

def quoted (s : String) : String :=
  String.ofList ('"' :: s.toList.flatMap (escape '"') ++ ['"'])

end ClusterPackages.Text
