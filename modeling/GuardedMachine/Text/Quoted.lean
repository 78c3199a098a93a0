/-
# Quoted text

A text is shown between double quotes, and what could be misread is escaped: the quote and
the backslash by a backslash, four control characters by a letter or digit of their own, and
every other character without a visible form by its code point in hexadecimal.

Which characters have a visible form changes from one version of the character set to the next.
Therefore it is a parameter of the escapes; `Text.quote` takes `isInvisible`.
-/
import GuardedMachine.Text.Invisible

namespace GuardedMachine

namespace Text

/-- The characters that show the character `c` between quotes. -/
def escapeBy (invisible : Char → Bool) (c : Char) : List Char :=
  match c with
  | '"' => ['\\', '"']
  | '\\' => ['\\', '\\']
  | '\x00' => ['\\', '0']
  | '\t' => ['\\', 't']
  | '\n' => ['\\', 'n']
  | '\r' => ['\\', 'r']
  | _ =>
    if invisible c then
      ['\\', 'u', '\x7b'] ++ Nat.toDigits 16 c.toNat ++ ['\x7d']
    else
      [c]

/-- The characters of a text in quotes. -/
def quoteChars (invisible : Char → Bool) (s : String) : List Char :=
  '"' :: s.toList.flatMap (escapeBy invisible) ++ ['"']

/-- A text in quotes, with the given characters taken to be invisible. -/
def quoteBy (invisible : Char → Bool) (s : String) : String :=
  String.ofList (quoteChars invisible s)

/-- A text in quotes. -/
def quote (s : String) : String := quoteBy isInvisible s

end Text

end GuardedMachine
