import RangeSync.Text.Printable

/-!
# Quoted text

Error messages and log lines show text between double quotes, so that blanks and control
characters in user input can be seen. The quote and the backslash are escaped by a backslash, four
controls by a letter, and every other character that `isShown` refuses by its number.
-/

namespace RangeSync.Text

/-- The number of a character between braces. -/
def numbered (c : Char) : List Char :=
  '\\' :: 'u' :: '\x7b' :: hexNat c.toNat ++ ['\x7d']

/-- How one character stands in a quoted text. -/
def quotedChar (c : Char) : List Char :=
  match c with
  | '"' => ['\\', '"']
  | '\\' => ['\\', '\\']
  | '\n' => ['\\', 'n']
  | '\r' => ['\\', 'r']
  | '\t' => ['\\', 't']
  | '\x00' => ['\\', '0']
  | _ => if isShown c then [c] else numbered c

/-- The text between double quotes. -/
def quoted (s : String) : String :=
  String.ofList ('"' :: s.toList.flatMap quotedChar ++ ['"'])

end RangeSync.Text
