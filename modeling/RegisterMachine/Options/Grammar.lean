import RegisterMachine.Options.Document
import RegisterMachine.Power
import RegisterMachine.Text.Digits

/-!
# Reading configuration documents

Readers take characters from the front of a text and return the rest, or nothing if the text does
not fit. Values nest at most as deep as the reader's bound.
-/

namespace RegisterMachine.Toml

/-- A reader: what it read and the rest of the text. -/
abbrev Reader (α : Type) := List Char → Option (α × List Char)

/-! ## Blanks, comments and line ends -/

def skipBlanks (text : List Char) : List Char :=
  text.dropWhile fun c => c == ' ' || c == '\t'

/-- Whether a character may stand in a comment or a literal: no control but the tab. -/
def isVisible (c : Char) : Bool :=
  c == '\t' || (0x20 ≤ c.toNat && c.toNat != 0x7f)

def lineEnd? : List Char → Option (List Char)
  | '\n' :: rest => some rest
  | '\r' :: '\n' :: rest => some rest
  | _ => none

/-- Skips a comment, if there is one. -/
def skipComment : List Char → List Char
  | '#' :: rest => rest.dropWhile isVisible
  | text => text

/-- Skips what may follow on a line, and the line end or the end of the text. -/
def finishLine? (text : List Char) : Option (List Char) :=
  match skipComment (skipBlanks text) with
  | [] => some []
  | rest => lineEnd? rest

/-- Skips blanks, comments and line ends, at most so many of them. -/
def skipLines : Nat → List Char → List Char
  | 0, text => text
  | bound + 1, text =>
    let rest := skipComment (skipBlanks text)
    match lineEnd? rest with
    | some rest => skipLines bound rest
    | none => rest

/-- Skips blanks, comments and line ends. -/
def skipSpace (text : List Char) : List Char :=
  skipLines text.length text

/-! ## Strings -/

/-- The character of a code point written in hexadecimal digits. -/
def codePoint? (digits : List Char) : Option Char := do
  let code ← Text.readNat? 16 Text.hexDigit? digits
  if code < 0xd800 ∨ (0xe000 ≤ code ∧ code < 0x110000) then some (Char.ofNat code) else none

def escape : Reader Char
  | 'b' :: rest => some ('\x08', rest)
  | 't' :: rest => some ('\t', rest)
  | 'n' :: rest => some ('\n', rest)
  | 'f' :: rest => some ('\x0c', rest)
  | 'r' :: rest => some ('\r', rest)
  | '"' :: rest => some ('"', rest)
  | '\\' :: rest => some ('\\', rest)
  | 'u' :: rest =>
    if rest.length < 4 then none else (codePoint? (rest.take 4)).map (·, rest.drop 4)
  | 'U' :: rest =>
    if rest.length < 8 then none else (codePoint? (rest.take 8)).map (·, rest.drop 8)
  | _ => none

/-- Reads a basic string after its quote; `read` holds what was read, last character first. -/
def basicString : Nat → List Char → Reader (List Char)
  | 0, _, _ => none
  | bound + 1, read, text =>
    match text with
    | '"' :: rest => some (read.reverse, rest)
    | '\\' :: rest => do
      let (c, rest) ← escape rest
      basicString bound (c :: read) rest
    | c :: rest => if isVisible c then basicString bound (c :: read) rest else none
    | [] => none

def literalString (text : List Char) : Option (List Char × List Char) :=
  let read := text.takeWhile fun c => isVisible c && c != '\''
  match text.drop read.length with
  | '\'' :: rest => some (read, rest)
  | _ => none

/-- Skips the line end right after the opening quotes of a string of many lines. -/
def skipFirstLineEnd (text : List Char) : List Char :=
  (lineEnd? text).getD text

/-- Reads the end of a string of many lines at a run of quotes: three of them close it, and up to
two before them belong to the string. The count of quotes inside is returned if it is closed. -/
def closing? (quote : Char) (text : List Char) : Option (Nat × List Char) :=
  let run := (text.takeWhile (· == quote)).length
  if run < 3 then none
  else
    let inside := min (run - 3) 2
    some (inside, text.drop (inside + 3))

def skipBlankLines : List Char → List Char
  | ' ' :: rest | '\t' :: rest | '\n' :: rest | '\r' :: '\n' :: rest => skipBlankLines rest
  | text => text

/-- Skips a line end behind a backslash and all blanks and line ends after it. -/
def continuation? (text : List Char) : Option (List Char) :=
  (lineEnd? (skipBlanks text)).map skipBlankLines

/-- Reads a string of many lines after its opening quotes. -/
def longString (quote : Char) (escapes : Bool) : Nat → List Char → Reader (List Char)
  | 0, _, _ => none
  | bound + 1, read, text =>
    match closing? quote text with
    | some (inside, rest) => some ((List.replicate inside quote ++ read).reverse, rest)
    | none =>
      match text with
      | [] => none
      | '\r' :: '\n' :: rest => longString quote escapes bound ('\n' :: '\r' :: read) rest
      | '\n' :: rest => longString quote escapes bound ('\n' :: read) rest
      | c :: rest =>
        if c = '\\' ∧ escapes then
          match continuation? rest with
          | some rest => longString quote escapes bound read rest
          | none => do
            let (c, rest) ← escape rest
            longString quote escapes bound (c :: read) rest
        else if isVisible c then longString quote escapes bound (c :: read) rest
        else none

def string : Reader String := fun text =>
  let read :=
    match text with
    | '"' :: '"' :: '"' :: rest =>
      longString '"' true (rest.length + 1) [] (skipFirstLineEnd rest)
    | '"' :: rest => basicString (rest.length + 1) [] rest
    | '\'' :: '\'' :: '\'' :: rest =>
      longString '\'' false (rest.length + 1) [] (skipFirstLineEnd rest)
    | '\'' :: rest => literalString rest
    | _ => none
  read.map fun result => (String.ofList result.1, result.2)

/-! ## Keys -/

/-- Whether a character may stand in a key without quotes. -/
def isBare (c : Char) : Bool :=
  c.isAlpha || c.isDigit || c == '_' || c == '-'

/-- Reads one part of a key: bare, or a string on one line. -/
def keyPart : Reader String
  | '"' :: rest => (basicString (rest.length + 1) [] rest).map fun r => (String.ofList r.1, r.2)
  | '\'' :: rest => (literalString rest).map fun r => (String.ofList r.1, r.2)
  | text =>
    let read := text.takeWhile isBare
    if read.isEmpty then none else some (String.ofList read, text.drop read.length)

/-- Reads the parts of a key, apart by points, at most so many of them. -/
def keyParts : Nat → Reader (List String)
  | 0, _ => none
  | bound + 1, text => do
    let (part, rest) ← keyPart (skipBlanks text)
    match skipBlanks rest with
    | '.' :: rest => do
      let (parts, rest) ← keyParts bound rest
      return (part :: parts, rest)
    | rest => return ([part], rest)

/-- How deep tables and arrays may nest, and how many parts a key may have: fewer than this. -/
def maxDepth : Nat := 80

/-- Reads a key as the path to a table and the last part. -/
def key : Reader (List String × String) := fun text => do
  let (parts, rest) ← keyParts (text.length + 1) text
  let last ← parts.getLast?
  if parts.length < maxDepth then return ((parts.dropLast, last), rest) else none

/-! ## Numbers and dates -/

def digits (isDigit : Char → Bool) (text : List Char) : Option (List Char × List Char) :=
  let read := text.takeWhile fun c => isDigit c || c == '_'
  if read.isEmpty || read.head? == some '_' || read.getLast? == some '_' then none
  else if (read.zip read.tail).any (fun pair => pair.1 == '_' && pair.2 == '_') then none
  else some (read.filter (· != '_'), text.drop read.length)

/-- An integer, if it fits 64 bits. -/
def integer? (value : Int) : Option Scalar :=
  if -(2 ^ 63) ≤ value ∧ value < 2 ^ 63 then some (.integer value) else none

def markedInteger (base : Nat) (text : List Char) : Option (Scalar × List Char) := do
  let inBase := fun c => (Text.hexDigit? c).any (· < base)
  let (read, rest) ← digits inBase text
  let scalar ← integer? ((← Text.readNat? base Text.hexDigit? read) : Nat)
  return (scalar, rest)

/-- Reads the point of a fraction and returns the digits after it. -/
def fraction? : Reader (List Char)
  | '.' :: rest => digits Char.isDigit rest
  | _ => none

def number (text : List Char) : Option (Nat × List Char) := do
  let (read, rest) ← digits Char.isDigit text
  return (← Text.readNat? 10 Text.decimalDigit? read, rest)

def exponent? : Reader Int
  | mark :: rest =>
    if mark == 'e' || mark == 'E' then
      match rest with
      | '+' :: rest => (number rest).map fun r => (r.1, r.2)
      | '-' :: rest => (number rest).map fun r => (-r.1, r.2)
      | rest => (number rest).map fun r => (r.1, r.2)
    else none
  | [] => none

/-- The least number that is nearer to `2 ^ 1024` than to every finite number of double precision,
a tie included. -/
def floatBound : Nat := 2 ^ 1024 - 2 ^ 970

/-- Whether a decimal, given by its digits and the power of ten they are multiplied with, is at
least `floatBound`, which has 309 digits. The count of digits decides for all but the decimals of
this size, so that no large power is computed. -/
def isInfinite (digits : List Char) (exponent : Int) : Bool :=
  let digits := digits.dropWhile (· == '0')
  let size := digits.length + exponent
  if digits.isEmpty || size < 309 then false
  else if 309 < size then true
  else
    (Text.readNat? 10 Text.decimalDigit? digits).any fun significand =>
      floatBound * 10 ^ (-exponent).toNat ≤ significand * 10 ^ exponent.toNat

/-- Reads an integer or a float in base ten after its sign. No further digits follow a leading
zero. A positive float must be finite once it is rounded to double precision; a negative one may
become the negative infinity. -/
def decimal (negative : Bool) (text : List Char) : Option (Scalar × List Char) := do
  let (read, rest) ← digits Char.isDigit text
  if read.head? == some '0' && read.length > 1 then none
  else
    let (fraction, afterFraction) := (fraction? rest).getD ([], rest)
    let (exponent, afterExponent) := (exponent? afterFraction).getD (0, afterFraction)
    if afterExponent.length < rest.length then
      if !negative && isInfinite (read ++ fraction) (exponent - fraction.length) then none
      else return (.float, afterExponent)
    else
      let magnitude ← Text.readNat? 10 Text.decimalDigit? read
      let scalar ← integer? (if negative then -(magnitude : Int) else magnitude)
      return (scalar, rest)

/-- Reads a number after its sign: the names of the special floats, or a decimal. -/
def signedNumber (negative : Bool) : Reader Scalar
  | 'i' :: 'n' :: 'f' :: rest => some (.float, rest)
  | 'n' :: 'a' :: 'n' :: rest => some (.float, rest)
  | text => decimal negative text

/-- Reads a fixed count of digits with a value in a range. -/
def field (count low high : Nat) (text : List Char) : Option (Nat × List Char) := do
  let read := text.take count
  if read.length < count || !read.all Char.isDigit then none
  else
    let value ← Text.readNat? 10 Text.decimalDigit? read
    if low ≤ value ∧ value ≤ high then some (value, text.drop count) else none

def skip (c : Char) : Reader Unit
  | first :: rest => if first == c then some ((), rest) else none
  | [] => none

def daysIn (year month : Nat) : Nat :=
  if month = 2 then
    if year % 4 = 0 ∧ (year % 100 ≠ 0 ∨ year % 400 = 0) then 29 else 28
  else if month = 4 ∨ month = 6 ∨ month = 9 ∨ month = 11 then 30
  else 31

def date : Reader Unit := fun text => do
  let (year, rest) ← field 4 0 9999 text
  let (_, rest) ← skip '-' rest
  let (month, rest) ← field 2 1 12 rest
  let (_, rest) ← skip '-' rest
  let (_, rest) ← field 2 1 (daysIn year month) rest
  return ((), rest)

def time : Reader Unit := fun text => do
  let (_, rest) ← field 2 0 23 text
  let (_, rest) ← skip ':' rest
  let (_, rest) ← field 2 0 59 rest
  let (_, rest) ← skip ':' rest
  let (_, rest) ← field 2 0 60 rest
  match rest with
  | '.' :: rest =>
    let read := rest.takeWhile Char.isDigit
    if read.isEmpty then none else return ((), rest.drop read.length)
  | rest => return ((), rest)

/-- Reads the offset of a time, if there is one. -/
def offset (text : List Char) : Option (Unit × List Char) :=
  let hours (rest : List Char) : Option (Unit × List Char) := do
    let (_, rest) ← field 2 0 23 rest
    let (_, rest) ← skip ':' rest
    let (_, rest) ← field 2 0 59 rest
    return ((), rest)
  match text with
  | 'Z' :: rest => some ((), rest)
  | 'z' :: rest => some ((), rest)
  | '+' :: rest => hours rest
  | '-' :: rest => hours rest
  | rest => some ((), rest)

/-- Reads a date, a time, or both. A date is followed by a time only if one stands behind a letter
or a single blank. -/
def datetime : Reader Scalar := fun text =>
  match date text with
  | some (_, afterDate) =>
    let clock :=
      match afterDate with
      | mark :: rest => if mark == 'T' || mark == 't' || mark == ' ' then time rest else none
      | [] => none
    match clock with
    | some (_, rest) => (offset rest).map fun r => (.datetime, r.2)
    | none => some (.datetime, afterDate)
  | none => (time text).map fun r => (.datetime, r.2)

def scalar : Reader Scalar := fun text =>
  match text with
  | '"' :: _ => (string text).map fun r => (.string r.1, r.2)
  | '\'' :: _ => (string text).map fun r => (.string r.1, r.2)
  | 't' :: 'r' :: 'u' :: 'e' :: rest => some (.boolean true, rest)
  | 'f' :: 'a' :: 'l' :: 's' :: 'e' :: rest => some (.boolean false, rest)
  | '+' :: rest => signedNumber false rest
  | '-' :: rest => signedNumber true rest
  | '0' :: 'x' :: rest => markedInteger 16 rest
  | '0' :: 'o' :: rest => markedInteger 8 rest
  | '0' :: 'b' :: rest => markedInteger 2 rest
  | text => (datetime text).orElse fun _ => signedNumber false text

/-! ## Arrays and tables -/

/-- Reads the items of an array after its bracket, at most so many. A comma may follow the last
one. -/
def arrayItems (item : Reader Node) : Nat → Reader (List Node)
  | 0, _ => none
  | bound + 1, text =>
    match skipSpace text with
    | ']' :: rest => some ([], rest)
    | text => do
      let (first, rest) ← item text
      match skipSpace rest with
      | ',' :: rest => do
        let (items, rest) ← arrayItems item bound rest
        return (first :: items, rest)
      | ']' :: rest => return ([first], rest)
      | _ => none

/-- Reads an entry: a key, an equals sign and a value. -/
def entry (value : Reader Node) : Reader ((List String × String) × Node) := fun text => do
  let (name, rest) ← key text
  match skipBlanks rest with
  | '=' :: rest => do
    let (node, rest) ← value (skipBlanks rest)
    return ((name, node), rest)
  | _ => none

/-- Reads the entries of a table written inline, at most so many, and adds them to a table. No comma
follows the last one. -/
def inlineEntries (value : Reader Node) : Nat → Table → Reader Table
  | 0, _, _ => none
  | bound + 1, table, text => do
    let ((name, node), rest) ← entry value (skipBlanks text)
    let (_, table) ← insertEntry name.1 name.2 node .inline table
    match skipBlanks rest with
    | ',' :: rest => inlineEntries value bound table rest
    | '}' :: rest => return (table, rest)
    | _ => none

/-- Reads a value in which less than so many arrays and tables nest. -/
def value (bound : Nat) (text : List Char) : Option (Node × List Char) :=
  match bound, text with
  | bound + 2, '[' :: rest =>
    (arrayItems (value (bound + 1)) (rest.length + 1) rest).map fun r => (.array r.1, r.2)
  | bound + 2, '{' :: rest =>
    match skipBlanks rest with
    | '}' :: rest => some (.table .inline [], rest)
    | rest =>
      (inlineEntries (value (bound + 1)) (rest.length + 1) [] rest).map fun r =>
        (.table .inline r.1, r.2)
  | _, text => (scalar text).map fun r => (.scalar r.1, r.2)

/-! ## Documents -/

/-- Reads a header after its first bracket, and whether it is in double brackets. -/
def header : Reader ((List String × String) × Bool)
  | '[' :: rest => do
    let (name, rest) ← key rest
    match rest with
    | ']' :: ']' :: rest => some ((name, true), rest)
    | _ => none
  | text => do
    let (name, rest) ← key text
    match rest with
    | ']' :: rest => some ((name, false), rest)
    | _ => none

/-- Reads the lines of a document, at most so many; `current` is the path of the last header. -/
def document : Nat → List String → Table → List Char → Option Table
  | 0, _, _, _ => none
  | bound + 1, current, root, text =>
    match skipBlanks text with
    | [] => some root
    | '[' :: rest => do
      let ((name, many), rest) ← header rest
      let root ← if many then openTables name.1 name.2 root else openTable name.1 name.2 root
      document bound (name.1 ++ [name.2]) root (← finishLine? rest)
    | c :: rest =>
      if c = '#' ∨ c = '\n' ∨ c = '\r' then do
        document bound current root (← finishLine? (c :: rest))
      else do
        let ((name, node), rest) ← entry (value maxDepth) (c :: rest)
        let root ← insertUnder current name.1 name.2 node root
        document bound current root (← finishLine? rest)

/-- Reads a document. A byte order mark may stand in front of it. -/
def parse? (text : String) : Option Table :=
  let text :=
    match text.toList with
    | '\ufeff' :: rest => rest
    | text => text
  document (text.length + 1) [] [] text

end RegisterMachine.Toml
