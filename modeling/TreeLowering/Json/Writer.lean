import TreeLowering.Json.Value
import TreeLowering.Number.Layout

/-!
# Writing JSON

JSON is written without blanks. In strings only the quote, the backslash and the
control characters are escaped. Numbers that JSON has no text for become `null`. Texts
are put in front of what follows them, so that long ones are not copied.
-/

namespace TreeLowering.Json

/-- The hexadecimal digit of a number below sixteen, in lower case. -/
def hexDigit (n : Nat) : Char := if n < 10 then Char.ofNat (48 + n) else Char.ofNat (87 + n)

/-- How a character is written inside a string. -/
def escapeChar (c : Char) : List Char :=
  if c == '"' then ['\\', '"']
  else if c == '\\' then ['\\', '\\']
  else if c.toNat < 0x20 then
    if c.toNat == 8 then ['\\', 'b']
    else if c.toNat == 9 then ['\\', 't']
    else if c.toNat == 10 then ['\\', 'n']
    else if c.toNat == 12 then ['\\', 'f']
    else if c.toNat == 13 then ['\\', 'r']
    else ['\\', 'u', '0', '0', hexDigit (c.toNat / 16), hexDigit (c.toNat % 16)]
  else [c]

/-- A string between its quotes, in front of a text. -/
def writeString (s : String) (rest : List Char) : List Char :=
  '"' :: (s.toList.flatMap escapeChar ++ '"' :: rest)

/-- An integer in decimal. -/
def writeInt : Int → List Char
  | .ofNat n => Nat.toDigits 10 n
  | .negSucc n => '-' :: Nat.toDigits 10 (n + 1)

/-- A double precision number. -/
def writeReal (x : Binary64) : List Char :=
  if x.isFinite then Layout.json.writeFinite x else ['n', 'u', 'l', 'l']

mutual

/-- The text of a value in front of another text. -/
def writeBefore : Json → List Char → List Char
  | null, rest => ['n', 'u', 'l', 'l'] ++ rest
  | bool true, rest => ['t', 'r', 'u', 'e'] ++ rest
  | bool false, rest => ['f', 'a', 'l', 's', 'e'] ++ rest
  | int n, rest => writeInt n ++ rest
  | real x, rest => writeReal x ++ rest
  | string s, rest => writeString s rest
  | array xs, rest => '[' :: writeItems xs (']' :: rest)
  | object fs, rest => '\x7b' :: writeFields fs ('\x7d' :: rest)

/-- The texts of values with commas between them, in front of another text. -/
def writeItems : List Json → List Char → List Char
  | [], rest => rest
  | [x], rest => x.writeBefore rest
  | x :: y :: xs, rest => x.writeBefore (',' :: writeItems (y :: xs) rest)

/-- The texts of fields with commas between them, in front of another text. -/
def writeFields : List (String × Json) → List Char → List Char
  | [], rest => rest
  | [(k, x)], rest => writeString k (':' :: x.writeBefore rest)
  | (k, x) :: f :: fs, rest =>
    writeString k (':' :: x.writeBefore (',' :: writeFields (f :: fs) rest))

end

/-- The text of a value. -/
def write (j : Json) : List Char := j.writeBefore []

end TreeLowering.Json
