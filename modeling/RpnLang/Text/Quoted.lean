import RpnLang.Text.Unprintable

/-!
# Quoted characters

A character is shown to a reader between single quotes. The NUL, tab, carriage return and line
feed are written as `\0`, `\t`, `\r`, `\n`; the backslash and the single quote get a backslash
before them; the double quote stands as it is. Characters in the unprintable table are written
as a backslash, `u`, and their code point in lower-case hexadecimal in braces. Every other
character stands as it is.
-/

namespace RpnLang.Text

/-- The code point in lower-case hexadecimal, without leading zeros. -/
def hexDigits (n : Nat) : String :=
  String.ofList (Nat.toDigits 16 n)

/-- The text that stands for a character between single quotes. -/
def escapeChar (c : Char) : String :=
  if c = '\x00' then "\\0"
  else if c = '\t' then "\\t"
  else if c = '\r' then "\\r"
  else if c = '\n' then "\\n"
  else if c = '\\' then "\\\\"
  else if c = '\'' then "\\'"
  else if isUnprintable c then "\\u\x7b" ++ hexDigits c.toNat ++ "\x7d"
  else String.singleton c

/-- A character between single quotes. -/
def quoteChar (c : Char) : String :=
  "'" ++ escapeChar c ++ "'"

/-- A list of characters: quoted characters between square brackets, separated by a comma and
a space. -/
def quoteChars (cs : List Char) : String :=
  "[" ++ ", ".intercalate (cs.map quoteChar) ++ "]"

end RpnLang.Text
