import Mustache.Text.Printable

/-!
# Quoted text

Messages show a delimiter between double quotes. A quote and a backslash are escaped, four
control characters have short escapes, any other character that cannot be shown on its own is
written by its code point in lower-case hexadecimal, and the rest stands for itself.
-/

namespace Mustache.Text

/-- The escape of a character by its code point. -/
def codePointEscape (c : Char) : Text :=
  ['\\', 'u', '\x7b'] ++ Nat.toDigits 16 c.toNat ++ ['\x7d']

/-- How a character is written inside quotes. -/
def quoteChar (c : Char) : Text :=
  match c with
  | '\x00' => ['\\', '0']
  | '\t'   => ['\\', 't']
  | '\n'   => ['\\', 'n']
  | '\r'   => ['\\', 'r']
  | '"'    => ['\\', '"']
  | '\\'   => ['\\', '\\']
  | c      => if isPrintable c then [c] else codePointEscape c

/-- A text between double quotes. -/
def quoted (t : Text) : Text := '"' :: t.flatMap quoteChar ++ ['"']

end Mustache.Text
