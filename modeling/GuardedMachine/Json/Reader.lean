/-
# Reading documents

The reader follows the JSON grammar by recursive descent.  Each of its functions returns what
it has read and the characters after it, or nothing if the text is not a document.  The fuel
of the recursion is the length of the text, since every call reads at least one character.
-/
import GuardedMachine.Json.Basic

namespace GuardedMachine

namespace Json

/-- Whether a character may stand between the tokens of a document. -/
def isSpace (c : Char) : Bool := c == ' ' || c == '\t' || c == '\n' || c == '\r'

/-! ## Strings -/

/-- The value of a hexadecimal digit. -/
def hexDigit? (c : Char) : Option Nat :=
  if c.isDigit then some (c.toNat - '0'.toNat)
  else if 'a' ≤ c ∧ c ≤ 'f' then some (c.toNat - 'a'.toNat + 10)
  else if 'A' ≤ c ∧ c ≤ 'F' then some (c.toNat - 'A'.toNat + 10)
  else none

/-- The value of four hexadecimal digits, and the characters after them. -/
def hexUnit? : List Char → Option (Nat × List Char)
  | a :: b :: c :: d :: rest => do
    let a ← hexDigit? a
    let b ← hexDigit? b
    let c ← hexDigit? c
    let d ← hexDigit? d
    some (((a * 16 + b) * 16 + c) * 16 + d, rest)
  | _ => none

/-- The character of a code point, if it is a scalar value. -/
def scalar? (n : Nat) : Option Char :=
  if n.isValidChar then some (Char.ofNat n) else none

/-- The character after the escape `\u`: one unit, or two units of a surrogate pair. -/
def escapedUnit? (cs : List Char) : Option (Char × List Char) := do
  let (high, rest) ← hexUnit? cs
  if 0xD800 ≤ high ∧ high < 0xDC00 then
    match rest with
    | '\\' :: 'u' :: rest =>
      let (low, rest) ← hexUnit? rest
      if 0xDC00 ≤ low ∧ low < 0xE000 then
        let c ← scalar? (0x10000 + (high - 0xD800) * 0x400 + (low - 0xDC00))
        some (c, rest)
      else
        none
    | _ => none
  else
    let c ← scalar? high
    some (c, rest)

/-- The character that stands for itself or a control character after a backslash. -/
def simpleEscape? : Char → Option Char
  | '"' => some '"'
  | '\\' => some '\\'
  | '/' => some '/'
  | 'b' => some '\x08'
  | 'f' => some '\x0c'
  | 'n' => some '\n'
  | 'r' => some '\r'
  | 't' => some '\t'
  | _ => none

/-- The characters of a string after its opening quote, in front of those read already in
reverse order, and what follows its closing quote. -/
def readString? : (fuel : Nat) → List Char → List Char → Option (String × List Char)
  | 0, _, _ => none
  | fuel + 1, done, cs =>
    match cs with
    | [] => none
    | '"' :: rest => some (String.ofList done.reverse, rest)
    | '\\' :: 'u' :: rest => do
      let (c, rest) ← escapedUnit? rest
      readString? fuel (c :: done) rest
    | '\\' :: e :: rest => do
      let c ← simpleEscape? e
      readString? fuel (c :: done) rest
    | c :: rest => readString? fuel (c :: done) rest

/-! ## Numbers -/

/-- An exponent, if the text starts with one, and the characters after it. -/
def readExponent? : List Char → Option (Int × List Char)
  | e :: rest =>
    if e == 'e' || e == 'E' then
      let (negative, rest) :=
        match rest with
        | '-' :: rest => (true, rest)
        | '+' :: rest => (false, rest)
        | _ => (false, rest)
      let n : Nat := Nat.ofDigitChars 10 (rest.takeWhile Char.isDigit) 0
      some (if negative then -(n : Int) else n, rest.dropWhile Char.isDigit)
    else
      none
  | [] => none

/-- A number and the characters after it. -/
def readNumber? (cs : List Char) : Option (Number × List Char) := do
  let (negative, cs) :=
    match cs with
    | '-' :: rest => (true, rest)
    | _ => (false, cs)
  let whole := cs.takeWhile Char.isDigit
  if whole = [] then none
  let cs := cs.dropWhile Char.isDigit
  let (fraction, cs) :=
    match cs with
    | '.' :: rest => (rest.takeWhile Char.isDigit, rest.dropWhile Char.isDigit)
    | _ => ([], cs)
  let exponent := readExponent? cs
  let plain := fraction.isEmpty && exponent.isNone
  let (e, cs) := exponent.getD (0, cs)
  let n ← Number.ofToken? negative plain (whole ++ fraction) fraction.length e
  some (n, cs)

/-! ## Documents -/

/-- The characters after one expected character, with white space before it skipped. -/
def expect? (c : Char) (cs : List Char) : Option (List Char) :=
  match cs.dropWhile isSpace with
  | d :: rest => if d == c then some rest else none
  | [] => none

/-- The characters after an expected word. -/
def word? (w : List Char) (cs : List Char) : Option (List Char) :=
  if w.isPrefixOf cs then some (cs.drop w.length) else none

mutual

/-- A document and the characters after it. -/
def readValue? : (fuel : Nat) → List Char → Option (Json × List Char)
  | 0, _ => none
  | fuel + 1, cs =>
    let cs := cs.dropWhile isSpace
    match cs with
    | [] => none
    | '"' :: rest => do
      let (s, rest) ← readString? fuel [] rest
      some (.string s, rest)
    | '[' :: rest =>
      match expect? ']' rest with
      | some rest => some (.array [], rest)
      | none => readItems? fuel [] rest
    | '\x7b' :: rest =>
      match expect? '\x7d' rest with
      | some rest => some (.object [], rest)
      | none => readMembers? fuel [] rest
    | 'n' :: _ => (word? ['n', 'u', 'l', 'l'] cs).map ((.null, ·))
    | 't' :: _ => (word? ['t', 'r', 'u', 'e'] cs).map ((.bool true, ·))
    | 'f' :: _ => (word? ['f', 'a', 'l', 's', 'e'] cs).map ((.bool false, ·))
    | _ => do
      let (n, rest) ← readNumber? cs
      some (.number n, rest)

/-- The items of an array, at least one, after those read already in reverse order. -/
def readItems? : (fuel : Nat) → List Json → List Char → Option (Json × List Char)
  | 0, _, _ => none
  | fuel + 1, done, cs => do
    let (item, cs) ← readValue? fuel cs
    match expect? ',' cs with
    | some cs => readItems? fuel (item :: done) cs
    | none =>
      let cs ← expect? ']' cs
      some (.array (item :: done).reverse, cs)

/-- The members of an object, at least one, after those read already; the last value of a
key counts. -/
def readMembers? : (fuel : Nat) → List (String × Json) → List Char → Option (Json × List Char)
  | 0, _, _ => none
  | fuel + 1, done, cs => do
    let cs ← expect? '"' cs
    let (key, cs) ← readString? fuel [] cs
    let cs ← expect? ':' cs
    let (value, cs) ← readValue? fuel cs
    let done := setMember key value done
    match expect? ',' cs with
    | some cs => readMembers? fuel done cs
    | none =>
      let cs ← expect? '\x7d' cs
      some (.object done, cs)

end

/-- The document that a text consists of, with white space around it. -/
def parse? (text : String) : Option Json := do
  let cs := text.toList
  let (document, rest) ← readValue? (cs.length + 1) cs
  if rest.all isSpace then some document else none

end Json

end GuardedMachine
