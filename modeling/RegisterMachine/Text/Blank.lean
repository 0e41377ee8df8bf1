/-!
# White space

The characters that separate words and may surround a number: the white space of Unicode, which is
more than the six characters of ASCII. Trimming removes them from both ends of a text.
-/

namespace RegisterMachine.Text

/-- Whether a character is white space in the sense of Unicode. -/
def isBlank (c : Char) : Bool :=
  let code := c.toNat
  (0x09 ≤ code && code ≤ 0x0d) || code == 0x20 || code == 0x85 || code == 0xa0 ||
    code == 0x1680 || (0x2000 ≤ code && code ≤ 0x200a) || code == 0x2028 || code == 0x2029 ||
    code == 0x202f || code == 0x205f || code == 0x3000

def trimStart (text : List Char) : List Char :=
  text.dropWhile isBlank

def trimEnd (text : List Char) : List Char :=
  (text.reverse.dropWhile isBlank).reverse

def trim (text : List Char) : List Char :=
  trimEnd (trimStart text)

/-- The words of a text: its maximal stretches without a separator, empty ones left out. -/
def words (separates : Char → Bool) (text : List Char) : List (List Char) :=
  (go text []).filter fun word => !word.isEmpty
where
  /-- Splits at every separator; `current` holds the word being read, last character first. -/
  go : List Char → List Char → List (List Char)
    | [], current => [current.reverse]
    | c :: rest, current =>
      if separates c then current.reverse :: go rest [] else go rest (c :: current)

end RegisterMachine.Text
