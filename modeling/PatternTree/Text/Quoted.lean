import PatternTree.Text.Hidden

/-!
# Texts in messages

In a message a text stands in quotes, on one line and readable: quotes and backslashes are escaped,
and so is every character that does not show.
-/

namespace PatternTree

namespace Text

/-- A code point in hexadecimal, between braces. -/
def codePoint (c : Char) : List Char :=
  ['\\', 'u', '\x7b'] ++ Nat.toDigits 16 c.toNat ++ ['\x7d']

/-- A character as it stands between quotes in a message. -/
def visible (c : Char) : List Char :=
  match c with
  | '"' => ['\\', '"']
  | '\\' => ['\\', '\\']
  | '\t' => ['\\', 't']
  | '\n' => ['\\', 'n']
  | '\r' => ['\\', 'r']
  | '\x00' => ['\\', '0']
  | c => if isHidden c then codePoint c else [c]

/-- A text in quotes. -/
def quoted (s : String) : String :=
  .ofList ('"' :: s.toList.flatMap visible ++ ['"'])

end Text

end PatternTree
