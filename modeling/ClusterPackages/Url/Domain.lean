import ClusterPackages.Text.Percent
import ClusterPackages.Text.Unprintable
import ClusterPackages.Url.Punycode

/-!
Names of hosts: their one written form, in small ASCII letters. Other characters are folded to
small letters where a script has them, and a label that keeps some is written in Punycode.
-/

namespace ClusterPackages.Url.Domain

def isForbidden (c : Char) : Bool :=
  c.toNat ≤ 0x20 || c == '\x7f' || ['%', '#', '/', ':', '<', '>', '?', '@', '[', '\\', ']', '^', '|'].contains c

def isIgnored (c : Char) : Bool :=
  let n := c.toNat
  n == 0xAD || n == 0x34F || n == 0x200B || n == 0x2060 || n == 0x2064 || n == 0xFEFF ||
    (0x180B ≤ n && n ≤ 0x180F) || (0xFE00 ≤ n && n ≤ 0xFE0F)

def isFullStop (c : Char) : Bool := c == '\u3002' || c == '\uff0e' || c == '\uff61'

/-- Small letters of the scripts that have two cases, and the narrow forms of wide characters. -/
def fold (c : Char) : Char :=
  let n := c.toNat
  let shifted (k : Nat) : Char := Char.ofNat (n + k)
  if n < 0x80 then Text.asciiLower c
  else if 0xFF01 ≤ n ∧ n ≤ 0xFF5E then Text.asciiLower (Char.ofNat (n - 0xFEE0))
  else if 0xC0 ≤ n ∧ n ≤ 0xDE ∧ n ≠ 0xD7 then shifted 32
  else if 0x391 ≤ n ∧ n ≤ 0x3A9 then shifted 32
  else if 0x410 ≤ n ∧ n ≤ 0x42F then shifted 32
  else if 0x400 ≤ n ∧ n ≤ 0x40F then shifted 80
  else if 0x531 ≤ n ∧ n ≤ 0x556 then shifted 48
  else if ((0x100 ≤ n ∧ n ≤ 0x137) ∨ (0x14A ≤ n ∧ n ≤ 0x177) ∨ (0x460 ≤ n ∧ n ≤ 0x481) ∨
      (0x48A ≤ n ∧ n ≤ 0x4BF) ∨ (0x4D0 ≤ n ∧ n ≤ 0x52F) ∨ (0x1E00 ≤ n ∧ n ≤ 0x1E95) ∨
      (0x1EA0 ≤ n ∧ n ≤ 0x1EFF)) ∧ n % 2 = 0 then shifted 1
  else if ((0x139 ≤ n ∧ n ≤ 0x148) ∨ (0x179 ≤ n ∧ n ≤ 0x17E) ∨ (0x4C1 ≤ n ∧ n ≤ 0x4CE)) ∧
      n % 2 = 1 then shifted 1
  else c

def isAllowed (c : Char) : Bool :=
  if c.toNat < 0x80 then !isForbidden c
  else !Text.isUnprintable c && !Text.isBlank c && c != '\ufffd'

def mark : List Char := ['x', 'n', '-', '-']

def isPlain (label : List Char) : Bool := label.all fun c => c.toNat < 0x80

def label? (label : List Char) : Option (List Char) :=
  match Text.strip? mark label with
  | some code => do
    let decoded ← if isPlain code then Punycode.decode? code else none
    if isPlain decoded || !decoded.all (fun c => isAllowed c && fold c == c) then none
    else if Punycode.encode decoded = code then some label
    else none
  | none => some (if isPlain label then label else mark ++ Punycode.encode label)

/-- The written form of a name, whose bytes may have been percent-encoded. -/
def ofBytes? (bytes : Text.Bytes) : Option (List Char) :=
  match Text.decodeUtf8 bytes with
  | .error _ => none
  | .ok cs => do
    let folded := (cs.filter fun c => !isIgnored c).map fun c => if isFullStop c then '.' else fold c
    let labels ← if folded.all isAllowed then (Text.splitOn '.' folded).mapM label? else none
    some (Text.join ['.'] labels)

end ClusterPackages.Url.Domain
