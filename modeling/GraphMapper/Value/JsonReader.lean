import GraphMapper.Value.Json

/-!
Values read from JSON text.

* `Json.skipBlanks`: what may stand between two parts;
* `Json.readText?`: a text up to its closing quote;
* `Json.readNumber?`: an integer of 64 bits where it fits and is written as one, a double otherwise;
* `Json.readValue?`: a value at the front of a text, with what follows;
* `Value.ofJson?`: the value that a text consists of.
-/

namespace GraphMapper

namespace Json

/-- Leaves out the blanks at the front. -/
def skipBlanks (cs : List Char) : List Char :=
  cs.dropWhile fun c => c = ' ' ∨ c = '\n' ∨ c = '\r' ∨ c = '\t'

/-- The value of decimal digits. -/
def natOfDigits (digits : List Char) : Nat :=
  digits.foldl (fun n c => 10 * n + (c.toNat - '0'.toNat)) 0

/-! ### Texts -/

/-- The value of a hexadecimal digit. -/
def hexDigit? (c : Char) : Option Nat :=
  if c.isDigit then some (c.toNat - '0'.toNat)
  else if 'a' ≤ c ∧ c ≤ 'f' then some (c.toNat - 'a'.toNat + 10)
  else if 'A' ≤ c ∧ c ≤ 'F' then some (c.toNat - 'A'.toNat + 10)
  else none

/-- The code unit of sixteen bits that four hexadecimal digits spell. -/
def codeUnit? (digits : List Char) : Option Nat :=
  (digits.mapM hexDigit?).map fun values => values.foldl (fun n d => 16 * n + d) 0

/-- The character that a letter stands for after a backslash. -/
def unescape? (c : Char) : Option Char :=
  match c with
  | '"' | '\\' | '/' => some c
  | 'n' => some '\n'
  | 'r' => some '\r'
  | 't' => some '\t'
  | 'b' => some (Char.ofNat 8)
  | 'f' => some (Char.ofNat 12)
  | _ => none

/-- The characters up to the closing quote, and what follows it.  The first half of a pair of code
units waits for the second, which must come next. -/
def readText? (waiting : Option Nat) : List Char → Option (List Char × List Char)
  | [] => none
  | '"' :: rest => if waiting.isNone then some ([], rest) else none
  | '\\' :: 'u' :: a :: b :: c :: d :: rest => do
    let unit ← codeUnit? [a, b, c, d]
    let low := decide (0xDC00 ≤ unit ∧ unit < 0xE000)
    match waiting with
    | some high => do
      guard low
      let (text, rest) ← readText? none rest
      return (Char.ofNat (0x10000 + (high - 0xD800) * 0x400 + (unit - 0xDC00)) :: text, rest)
    | none => do
      guard (!low)
      if 0xD800 ≤ unit ∧ unit < 0xDC00 then readText? (some unit) rest
      else
        let (text, rest) ← readText? none rest
        return (Char.ofNat unit :: text, rest)
  | '\\' :: c :: rest => do
    guard waiting.isNone
    let c ← unescape? c
    let (text, rest) ← readText? none rest
    return (c :: text, rest)
  | c :: rest => do
    guard (waiting.isNone && 32 ≤ c.toNat)
    let (text, rest) ← readText? none rest
    return (c :: text, rest)

/-! ### Numbers -/

/-- The digits after a point, if there is one, and what follows. -/
def readFraction? : List Char → Option (List Char × List Char)
  | '.' :: rest => do
    let digits := rest.takeWhile Char.isDigit
    guard (!digits.isEmpty)
    return (digits, rest.drop digits.length)
  | rest => some ([], rest)

/-- The power of ten after a letter `e`, if there is one, and what follows. -/
def readExponent? : List Char → Option (Int × List Char)
  | e :: rest =>
    if e = 'e' ∨ e = 'E' then do
      let (negative, rest) :=
        match rest with
        | '-' :: rest => (true, rest)
        | '+' :: rest => (false, rest)
        | rest => (false, rest)
      let digits := rest.takeWhile Char.isDigit
      guard (!digits.isEmpty)
      let n : Int := natOfDigits digits
      return (if negative then -n else n, rest.drop digits.length)
    else some (0, e :: rest)
  | [] => some (0, [])

/-- A number, and what follows it.  Digits alone are an integer if it has 64 bits, signed or unsigned;
everything else, minus zero included, is the nearest double. -/
def readNumber? (cs : List Char) : Option (Number × List Char) := do
  let (negative, cs) :=
    match cs with
    | '-' :: rest => (true, rest)
    | all => (false, all)
  let whole := cs.takeWhile Char.isDigit
  guard (!whole.isEmpty && (whole.length = 1 || whole.head? ≠ some '0'))
  let (fraction, afterFraction) ← readFraction? (cs.drop whole.length)
  let (exponent, rest) ← readExponent? afterFraction
  let size := natOfDigits whole
  let n : Int := if negative then -(size : Int) else size
  if rest.length + whole.length = cs.length ∧ -Int.pow 2 63 ≤ n ∧ n < Int.pow 2 64 ∧
      ¬(negative ∧ size = 0) then
    return (.int n, rest)
  else
    let power := exponent - fraction.length
    let x := Float.ofScientific (natOfDigits (whole ++ fraction)) (power < 0) power.natAbs
    guard x.isFinite
    return (.float (if negative then -x else x), rest)

/-! ### Values -/

/-- What follows a word, if the text starts with it. -/
def word? (word : String) (cs : List Char) : Option (List Char) :=
  if word.toList.isPrefixOf cs then some (cs.drop word.length) else none

mutual

/-- The value at the front of a text, and what follows it.  The bound goes down by one with every value,
item and entry. -/
def readValue? (bound : Nat) (cs : List Char) : Option (Value × List Char) :=
  match bound with
  | 0 => none
  | bound + 1 =>
    match skipBlanks cs with
    | '"' :: rest => do
      let (text, rest) ← readText? none rest
      return (.string (String.ofList text), rest)
    | '[' :: rest => do
      let (items, rest) ← readItems? bound true rest
      return (.array items, rest)
    | '\x7b' :: rest => do
      let (fields, rest) ← readFields? bound true rest
      return (.object (Fields.ofList fields), rest)
    | cs =>
      ((word? "null" cs).map fun rest => (.null, rest)) <|>
      ((word? "true" cs).map fun rest => (.bool true, rest)) <|>
      ((word? "false" cs).map fun rest => (.bool false, rest)) <|>
      ((readNumber? cs).map fun (n, rest) => (.number n, rest))

/-- The items up to the closing bracket, with a comma before each but the first of the list. -/
def readItems? (bound : Nat) (isFirst : Bool) (cs : List Char) : Option (List Value × List Char) :=
  match bound with
  | 0 => none
  | bound + 1 =>
    match isFirst, skipBlanks cs with
    | _, ']' :: rest => some ([], rest)
    | false, ',' :: rest => do
      let (item, rest) ← readValue? bound rest
      let (items, rest) ← readItems? bound false rest
      return (item :: items, rest)
    | false, _ => none
    | true, cs => do
      let (item, rest) ← readValue? bound cs
      let (items, rest) ← readItems? bound false rest
      return (item :: items, rest)

/-- The entries up to the closing brace, with a comma before each but the first of the map. -/
def readFields? (bound : Nat) (isFirst : Bool) (cs : List Char) :
    Option (List (String × Value) × List Char) :=
  match bound with
  | 0 => none
  | bound + 1 =>
    match isFirst, skipBlanks cs with
    | _, '\x7d' :: rest => some ([], rest)
    | false, ',' :: rest => do
      let (entry, rest) ← readEntry? bound rest
      let (entries, rest) ← readFields? bound false rest
      return (entry :: entries, rest)
    | false, _ => none
    | true, cs => do
      let (entry, rest) ← readEntry? bound cs
      let (entries, rest) ← readFields? bound false rest
      return (entry :: entries, rest)

/-- A name, a colon and a value, and what follows them. -/
def readEntry? (bound : Nat) (cs : List Char) : Option ((String × Value) × List Char) :=
  match bound with
  | 0 => none
  | bound + 1 =>
    match skipBlanks cs with
    | '"' :: rest => do
      let (name, rest) ← readText? none rest
      match skipBlanks rest with
      | ':' :: rest => do
        let (entry, rest) ← readValue? bound rest
        return ((String.ofList name, entry), rest)
      | _ => none
    | _ => none

end

end Json

/-- The value that a text consists of; nothing but blanks may stand around it. -/
def Value.ofJson? (text : String) : Option Value := do
  let cs := text.toList
  let (v, rest) ← Json.readValue? (2 * cs.length + 1) cs
  guard (Json.skipBlanks rest).isEmpty
  return v

end GraphMapper
