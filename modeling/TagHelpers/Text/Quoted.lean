import TagHelpers.Text.Visible

/-!
# Quoted text

Outlines of trees show a text between double quotes with the quote, the backslash and the usual
control characters escaped, and every other character that is not visible by its code point.

In generated code a text becomes a double-quoted literal in which the quote, the backslash, the line
feed and the carriage return are escaped and every other character stands for itself.
-/

namespace TagHelpers.Text

/-- How a character is shown inside a quoted text. -/
def shown (c : Char) : List Char :=
  if c = '"' then ['\\', '"']
  else if c = '\\' then ['\\', '\\']
  else if c = '\t' then ['\\', 't']
  else if c = '\n' then ['\\', 'n']
  else if c = '\r' then ['\\', 'r']
  else if c.toNat = 0 then ['\\', '0']
  else if visible c then [c]
  else ['\\', 'u', '\x7b'] ++ Nat.toDigits 16 c.toNat ++ ['\x7d']

/-- A text between double quotes, with what cannot be seen spelled out. -/
def quoted (s : String) : String :=
  String.ofList ('"' :: s.toList.flatMap shown ++ ['"'])

/-- The characters that stand for `c` inside a literal. -/
def escape (c : Char) : List Char :=
  if c = '"' then ['\\', '"']
  else if c = '\\' then ['\\', '\\']
  else if c = '\n' then ['\\', 'n']
  else if c = '\r' then ['\\', 'r']
  else [c]

/-- The double-quoted literal of a text. -/
def literal (s : String) : String :=
  String.ofList ('"' :: s.toList.flatMap escape ++ ['"'])

end TagHelpers.Text
