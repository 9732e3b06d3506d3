/-!
Cutting text: at marks, into segments, and free of the blanks around it. Everything works on lists
of characters, and what is cut off is never changed.
-/
namespace RunQuery.Text

/-- The characters with the property `White_Space`. -/
def isBlank (c : Char) : Bool :=
  let n := c.toNat
  (0x9 ≤ n && n ≤ 0xd) || n = 0x20 || n = 0x85 || n = 0xa0 || n = 0x1680 ||
    (0x2000 ≤ n && n ≤ 0x200a) || n = 0x2028 || n = 0x2029 || n = 0x202f || n = 0x205f || n = 0x3000

def trimStart (text : List Char) : List Char := text.dropWhile isBlank

def trimEnd (text : List Char) : List Char := (text.reverse.dropWhile isBlank).reverse

/-- The text without the blanks at its two ends. -/
def trim (text : List Char) : List Char := trimEnd (trimStart text)

/-- What stands before and after the first occurrence of a mark. -/
def cut? (mark : List Char) : List Char → Option (List Char × List Char)
  | [] => none
  | c :: rest =>
    if mark.isPrefixOf (c :: rest) then some ([], (c :: rest).drop mark.length)
    else (cut? mark rest).map fun parts => (c :: parts.1, parts.2)

/-- What stands before and after the last occurrence of a character. -/
def cutLast? (mark : Char) (text : List Char) : Option (List Char × List Char) :=
  (cut? [mark] text.reverse).map fun parts => (parts.2.reverse, parts.1.reverse)

/-- The parts between separators, empty ones included. -/
def segments (separator : Char) : List Char → List (List Char)
  | [] => [[]]
  | c :: rest =>
    if c = separator then [] :: segments separator rest
    else
      match segments separator rest with
      | [] => [[c]]
      | first :: others => (c :: first) :: others

/-- Parts joined with a separator between each two. -/
def joined (separator : String) (parts : List String) : String := separator.intercalate parts

end RunQuery.Text
