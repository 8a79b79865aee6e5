import TreeLowering.Number.Decimal

/-!
# Strings of TOML

Basic strings stand between double quotes and have escapes; literal strings stand
between single quotes and have none. Either may be written over several lines between
tripled quotes: a line end right behind the opening is dropped, and up to two quotes
may stand directly in front of the closing ones. Each reader starts behind the opening
quote and gives the string and what follows it.
-/

namespace TreeLowering.Toml

/-- The characters that may stand unescaped in strings and comments, quotes apart. -/
def isPlain (c : Char) : Bool := c == '\t' || (0x20 ≤ c.toNat && c.toNat != 0x7F)

/-- The character of a code point given in hexadecimal. -/
def codePoint? (digits : List Char) : Option Char := do
  let n := ofDigits 16 (← digits.mapM (digitValue? 16))
  if n.isValidChar then some (Char.ofNat n) else none

/-- The character that a one-letter escape stands for. -/
def letterEscape? (c : Char) : Option Char :=
  if c == '"' || c == '\\' then some c
  else if c == 'b' then some (Char.ofNat 8)
  else if c == 't' then some '\t'
  else if c == 'n' then some '\n'
  else if c == 'f' then some (Char.ofNat 12)
  else if c == 'r' then some '\r'
  else none

/-- Puts a character in front of a string that was read. -/
def push (c : Char) (read? : Option (List Char × List Char)) : Option (List Char × List Char) :=
  read?.map fun (s, rest) => (c :: s, rest)

/-- Reads a basic string on one line. -/
def basicString? : List Char → Option (List Char × List Char)
  | [] => none
  | '"' :: r => some ([], r)
  | '\\' :: 'u' :: a :: b :: c :: d :: r => do
    push (← codePoint? [a, b, c, d]) (basicString? r)
  | '\\' :: 'U' :: a :: b :: c :: d :: e :: f :: g :: h :: r => do
    push (← codePoint? [a, b, c, d, e, f, g, h]) (basicString? r)
  | '\\' :: c :: r => do push (← letterEscape? c) (basicString? r)
  | c :: r => if isPlain c && c != '\\' then push c (basicString? r) else none

/-- Reads a literal string on one line. -/
def literalString? : List Char → Option (List Char × List Char)
  | [] => none
  | '\x27' :: r => some ([], r)
  | c :: r => if isPlain c then push c (literalString? r) else none

/-- Whether a text starts with a line end, after blanks. -/
def startsBlankLine (cs : List Char) : Bool :=
  match cs.dropWhile fun c => c == ' ' || c == '\t' with
  | '\n' :: _ | '\r' :: '\n' :: _ => true
  | _ => false

/-- Reads a basic string over several lines. While `skipping`, blanks and line ends are
passed over. -/
def basicLines? (skipping : Bool) : List Char → Option (List Char × List Char)
  | [] => none
  | '\n' :: r => if skipping then basicLines? true r else push '\n' (basicLines? false r)
  | '\r' :: '\n' :: r =>
    if skipping then basicLines? true r else push '\n' (basicLines? false r)
  | '"' :: '"' :: '"' :: '"' :: '"' :: r => some (['"', '"'], r)
  | '"' :: '"' :: '"' :: '"' :: r => some (['"'], r)
  | '"' :: '"' :: '"' :: r => some ([], r)
  | '\\' :: 'u' :: a :: b :: c :: d :: r => do
    push (← codePoint? [a, b, c, d]) (basicLines? false r)
  | '\\' :: 'U' :: a :: b :: c :: d :: e :: f :: g :: h :: r => do
    push (← codePoint? [a, b, c, d, e, f, g, h]) (basicLines? false r)
  | '\\' :: c :: r =>
    if startsBlankLine (c :: r) then basicLines? true (c :: r)
    else do push (← letterEscape? c) (basicLines? false r)
  | c :: r =>
    if skipping && (c == ' ' || c == '\t') then basicLines? true r
    else if isPlain c && c != '\\' then push c (basicLines? false r)
    else none

/-- Reads a literal string over several lines. -/
def literalLines? : List Char → Option (List Char × List Char)
  | [] => none
  | '\n' :: r => push '\n' (literalLines? r)
  | '\r' :: '\n' :: r => push '\n' (literalLines? r)
  | '\x27' :: '\x27' :: '\x27' :: '\x27' :: '\x27' :: r => some (['\x27', '\x27'], r)
  | '\x27' :: '\x27' :: '\x27' :: '\x27' :: r => some (['\x27'], r)
  | '\x27' :: '\x27' :: '\x27' :: r => some ([], r)
  | c :: r => if isPlain c then push c (literalLines? r) else none

/-- What follows a line end that may stand at the start. -/
def dropLineEnd : List Char → List Char
  | '\n' :: r => r
  | '\r' :: '\n' :: r => r
  | r => r

/-- Reads a string of any form from its opening quote on; `none` where no string starts
or the string is malformed. -/
def string? : List Char → Option (List Char × List Char)
  | '"' :: '"' :: '"' :: r => basicLines? false (dropLineEnd r)
  | '"' :: r => basicString? r
  | '\x27' :: '\x27' :: '\x27' :: r => literalLines? (dropLineEnd r)
  | '\x27' :: r => literalString? r
  | _ => none

end TreeLowering.Toml
