import RegisterMachine.Instruction.Word
import RegisterMachine.Text.Blank

/-!
# Words of assembly text

The lexical rules: comments, words, identifiers, integers, registers and string literals.
-/

namespace RegisterMachine.Assembly

/-! ## Lines and words -/

/-- The lines of a text. A line ends at a line feed, and a carriage return before it belongs to the
end; nothing follows the last line end. -/
def lines (text : List Char) : List (List Char) :=
  go text []
where
  /-- Reads on with the characters of the current line, last one first. -/
  go : List Char → List Char → List (List Char)
    | [], [] => []
    | [], current => [current.reverse]
    | '\n' :: rest, '\r' :: current => current.reverse :: go rest []
    | '\n' :: rest, current => current.reverse :: go rest []
    | c :: rest, current => go rest (c :: current)

/-- Removes a comment, which starts at a number sign outside of string literals. Inside a literal a
backslash keeps the next quote from ending it. -/
def stripComment (line : List Char) : List Char :=
  go false false line
where
  /-- Scans with whether a literal is open and whether a backslash stands before. -/
  go (inString escaped : Bool) : List Char → List Char
    | [] => []
    | c :: rest =>
      if c = '\\' ∧ inString then c :: go inString (!escaped) rest
      else if c = '"' ∧ !escaped then c :: go (!inString) escaped rest
      else if c = '#' ∧ !inString then []
      else c :: go inString false rest

def nextWord? (text : List Char) : Option (List Char × List Char) :=
  match Text.trimStart text with
  | [] => none
  | text =>
    let inWord := fun c => !Text.isBlank c
    some (text.takeWhile inWord, Text.trim (text.dropWhile inWord))

/-- The text before the first character of a class, and the text after it. -/
def splitAt? (separates : Char → Bool) (text : List Char) : Option (List Char × List Char) :=
  match text.dropWhile (fun c => !separates c) with
  | [] => none
  | _ :: rest => some (text.takeWhile (fun c => !separates c), rest)

/-! ## Names and numbers -/

/-- Whether a text is an identifier: a letter or underscore, then letters, digits, underscores and
points. -/
def isIdentifier : List Char → Bool
  | [] => false
  | first :: rest =>
    (first.isAlpha || first == '_') &&
      rest.all fun c => c.isAlpha || c.isDigit || c == '_' || c == '.'

/-- An integer, if it fits 64 bits. -/
def fit64? (value : Int) : Option Int :=
  if -(2 ^ 63) ≤ value ∧ value < 2 ^ 63 then some value else none

/-- Reads digits of either base with their own optional sign; the marker of base sixteen comes
before that sign. -/
def readSigned? (text : List Char) : Option Int :=
  let read :=
    match text with
    | '0' :: 'x' :: digits => Text.readInt? 16 Text.hexDigit? digits
    | '0' :: 'X' :: digits => Text.readInt? 16 Text.hexDigit? digits
    | digits => Text.readInt? 10 Text.decimalDigit? digits
  read.bind fit64?

/-- Reads an integer: an optional minus sign, then a signed number of 64 bits. -/
def readInteger? : List Char → Option Int
  | '-' :: rest => (readSigned? rest).map (- ·)
  | text => readSigned? text

/-- Reads a natural number below 256, with an optional plus sign. -/
def readByte? (text : List Char) : Option Nat := do
  let digits :=
    match text with
    | '+' :: digits => digits
    | digits => digits
  let value ← Text.readNat? 10 Text.decimalDigit? digits
  if value < 256 then some value else none

/-- Reads a register: the letter, then its number. -/
def readRegister? : List Char → Option UInt8
  | mark :: digits =>
    if mark = 'r' ∨ mark = 'R' then do
      let number ← readByte? digits
      if number < registerCount then some (UInt8.ofNat number) else none
    else none
  | [] => none

/-! ## String literals -/

def unescape? : List Char → Option (List Char)
  | [] => some []
  | '\\' :: c :: rest => do
    let escaped ←
      match c with
      | 'n' => some '\n'
      | 't' => some '\t'
      | '\\' => some '\\'
      | '"' => some '"'
      | _ => none
    return escaped :: (← unescape? rest)
  | ['\\'] => none
  | c :: rest => do return c :: (← unescape? rest)

/-- Reads a string literal: a text between two quotes, with escapes. -/
def readLiteral? : List Char → Option String
  | '"' :: rest =>
    match rest.getLast? with
    | some '"' => (unescape? rest.dropLast).map String.ofList
    | _ => none
  | _ => none

end RegisterMachine.Assembly
