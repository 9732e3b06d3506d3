import RunQuery.Text.Characters

/-!
Quoted text. A character with nothing to show of its own is written by its code point, so that a
quoted text can be read in a message whatever it holds.
-/
namespace RunQuery.Text

/-- Lower-case hexadecimal digits of a code point, without padding. -/
def codePoint (c : Char) : List Char := '\\' :: 'u' :: '{' :: Nat.toDigits 16 c.toNat ++ ['}']

/-- How a character stands between two `quote` marks. -/
def escaped (quote c : Char) : List Char :=
  if c = '\x00' then ['\\', '0']
  else if c = '\t' then ['\\', 't']
  else if c = '\n' then ['\\', 'n']
  else if c = '\r' then ['\\', 'r']
  else if c = quote ∨ c = '\\' then ['\\', c]
  else if isPrintable c && !isExtending c then [c]
  else codePoint c

/-- Text between double quotes. -/
def quoted (s : String) : String :=
  String.ofList ('"' :: s.toList.flatMap (escaped '"') ++ ['"'])

/-- A character between single quotes. -/
def quotedChar (c : Char) : String :=
  String.ofList ('\'' :: escaped '\'' c ++ ['\''])

end RunQuery.Text
