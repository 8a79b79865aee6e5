import TreeLowering.Number.Decimal
import TreeLowering.Toml.Item

/-!
# Bare values of TOML

Booleans, numbers, dates and times are bare words. Underscores may stand between
digits; integers have no leading zeros and fit 64 bits; dates name a day of the
calendar.
-/

namespace TreeLowering.Toml

/-- Digits without the underscores between them. -/
def ungroup? (isDigit : Char → Bool) : List Char → Option (List Char)
  | [] => none
  | [c] => if isDigit c then some [c] else none
  | c :: '_' :: r => if isDigit c then (ungroup? isDigit r).map (c :: ·) else none
  | c :: r => if isDigit c then (ungroup? isDigit r).map (c :: ·) else none

/-- Decimal digits without leading zeros. -/
def wholeDigits? (cs : List Char) : Option (List Char) :=
  (ungroup? Char.isDigit cs).filter fun ds => ds.length == 1 || ds.head? != some '0'

/-- Splits off a sign: whether it is minus, and what follows. -/
def splitSign : List Char → Bool × List Char
  | '-' :: r => (true, r)
  | '+' :: r => (false, r)
  | r => (false, r)

/-- An integer, if it fits 64 bits. -/
def integer64? (n : Int) : Option Item :=
  if -(2 ^ (63 : Nat)) ≤ n ∧ n < 2 ^ (63 : Nat) then some (.integer n) else none

/-- Reads an integer in a radix other than ten. -/
def radixInteger? (radix : Nat) (cs : List Char) : Option Item := do
  let digits ← ungroup? (fun c => (digitValue? radix c).isSome) cs
  integer64? (ofDigits radix (← digits.mapM (digitValue? radix)))

/-- Reads an integer. -/
def integer? : List Char → Option Item
  | '0' :: 'x' :: r => radixInteger? 16 r
  | '0' :: 'o' :: r => radixInteger? 8 r
  | '0' :: 'b' :: r => radixInteger? 2 r
  | word => do
    let (negative, digits) := splitSign word
    let n : Int := naturalOfText (← wholeDigits? digits)
    integer64? (if negative then -n else n)

/-- Reads a float. A number beyond the range is refused unless it is negative. -/
def float? (word : List Char) : Option Item := do
  let (negative, body) := splitSign word
  if body == ['i', 'n', 'f'] then return .float (.ofRank negative Binary64.infinityRank)
  else if body == ['n', 'a', 'n'] then return .float .nan
  else
    let inGroup (c : Char) : Bool := c != '.' && c != 'e' && c != 'E'
    let whole ← wholeDigits? (body.takeWhile inGroup)
    let rest := body.dropWhile inGroup
    let (places, tail) ← match rest with
      | '.' :: r => (ungroup? Char.isDigit (r.takeWhile inGroup)).map fun ds =>
          ('.' :: ds, r.dropWhile inGroup)
      | _ => if rest.isEmpty then none else some ([], rest)
    let exponent ← match tail with
      | [] => some []
      | c :: r =>
        if c == '.' then none
        else
          let (below, digits) := splitSign r
          (ungroup? Char.isDigit digits).map fun ds =>
            'e' :: (if below then '-' else '+') :: ds
    let d ← Decimal.ofText? (whole ++ places ++ exponent)
    let x := d.round negative
    if x = .infinity then none else some (.float x)

/-- The number that two digits write. -/
def twoDigits? (a b : Char) : Option Nat :=
  if a.isDigit && b.isDigit then some (naturalOfText [a, b]) else none

/-- The number of days of a month. -/
def daysIn (year month : Nat) : Nat :=
  if month = 2 then
    if year % 4 = 0 ∧ (year % 100 ≠ 0 ∨ year % 400 = 0) then 29 else 28
  else if month = 4 ∨ month = 6 ∨ month = 9 ∨ month = 11 then 30
  else 31

/-- Reads a date and gives what follows it. -/
def date? : List Char → Option (List Char)
  | a :: b :: c :: d :: '-' :: e :: f :: '-' :: g :: h :: rest => do
    let year := (← twoDigits? a b) * 100 + (← twoDigits? c d)
    let month ← twoDigits? e f
    let day ← twoDigits? g h
    if 1 ≤ month ∧ month ≤ 12 ∧ 1 ≤ day ∧ day ≤ daysIn year month then some rest else none
  | _ => none

/-- Reads a time of day and gives what follows it. -/
def time? : List Char → Option (List Char)
  | a :: b :: ':' :: c :: d :: ':' :: e :: f :: rest => do
    let hour ← twoDigits? a b
    let minute ← twoDigits? c d
    let second ← twoDigits? e f
    if hour ≤ 23 ∧ minute ≤ 59 ∧ second ≤ 60 then
      match rest with
      | '.' :: r => if r.head?.any Char.isDigit then some (r.dropWhile Char.isDigit) else none
      | r => some r
    else none
  | _ => none

/-- Whether a text is nothing or an offset from universal time. -/
def isOffset : List Char → Bool
  | [] => true
  | ['Z'] | ['z'] => true
  | [s, a, b, ':', c, d] =>
    (s == '+' || s == '-') && (twoDigits? a b).any (· ≤ 23) && (twoDigits? c d).any (· ≤ 59)
  | _ => false

/-- Whether a text is a time of day with an optional offset. -/
def isOffsetTime (cs : List Char) : Bool := (time? cs).any isOffset

/-- Whether a word is a date alone. -/
def isDate (cs : List Char) : Bool := (date? cs).any List.isEmpty

/-- Whether a word is a date with or without a time, or a time. -/
def isDatetime (cs : List Char) : Bool :=
  match date? cs with
  | some [] => true
  | some (c :: r) => (c == 'T' || c == 't') && isOffsetTime r
  | none => (time? cs).any List.isEmpty

/-- Reads a bare word. -/
def word? (cs : List Char) : Option Item :=
  match cs with
  | ['t', 'r', 'u', 'e'] => some (.boolean true)
  | ['f', 'a', 'l', 's', 'e'] => some (.boolean false)
  | _ => if isDatetime cs then some .datetime else (float? cs).orElse fun _ => integer? cs

/-- The characters of bare words. -/
def isWordChar (c : Char) : Bool :=
  c.isAlphanum || c == '_' || c == '+' || c == '-' || c == '.' || c == ':'

end TreeLowering.Toml
