/-!
# Arguments

What the words of a command line ask for. Options may stand before and after the operand, `--` ends
them, and an option takes its value from the same word or from the next one.
-/

namespace RegisterMachine.CommandLine

/-- What there is to do. -/
inductive Command where
  | run (file : String) (config : Option String) (trace : Bool)
  | list (file : String)
  | verify (file : String)
  | assemble (file : String) (out : Option String)
  deriving DecidableEq, Repr

/-- What help is about. -/
inductive Topic where
  | tool
  | run
  | list
  | verify
  | assemble
  | help
  deriving DecidableEq, Repr

/-- Why the words ask for nothing. -/
inductive UsageError where
  | noCommand
  | unknownCommand (word : String)
  | unexpected (topic : Topic) (word : String)
  | missingValue (topic : Topic) (option : String)
  | repeated (topic : Topic) (option : String)
  | missingOperand (topic : Topic)
  deriving DecidableEq, Repr

/-- What the words ask for. -/
inductive Request where
  | command (command : Command)
  | version
  | help (topic : Topic)
  | usage (error : UsageError)
  deriving DecidableEq, Repr

/-! ## Words after a command -/

/-- The options of a command, beside the one for help. -/
structure Form where
  topic : Topic
  setting : Option (Char × String) := none
  switch : Option String := none

/-- What the words after a command have given. -/
structure Words where
  operand : Option String := none
  setting : Option String := none
  switch : Bool := false

/-- A word as an option or operand. -/
inductive WordKind where
  | separator
  | long (name : String) (value : Option String)
  | short (letter : Char) (rest : List Char)
  | operand

def wordKind (word : String) : WordKind :=
  match word.toList with
  | ['-', '-'] => .separator
  | '-' :: '-' :: body =>
    let name := String.ofList (body.takeWhile (· != '='))
    match body.dropWhile (· != '=') with
    | [] => .long name none
    | _ :: value => .long name (some (String.ofList value))
  | '-' :: letter :: rest => .short letter rest
  | _ => .operand

/-- Whether a word can be the value of the option before it. -/
def isValue (word : String) : Bool :=
  match wordKind word with
  | .operand => true
  | _ => false

/-- The value that follows a letter in the same word, after an equals sign if there is one. -/
def attached? : List Char → Option String
  | [] => none
  | '=' :: value => some (String.ofList value)
  | value => some (String.ofList value)

namespace Form

def takeOperand (form : Form) (words : Words) (word : String) : Except Request Words :=
  match words.operand with
  | none => .ok { words with operand := some word }
  | some _ => .error (.usage (.unexpected form.topic word))

def takeSetting (form : Form) (words : Words) (name value : String) : Except Request Words :=
  match words.setting with
  | none => .ok { words with setting := some value }
  | some _ => .error (.usage (.repeated form.topic name))

def takeSwitch (form : Form) (words : Words) (name : String) : Except Request Words :=
  if words.switch then .error (.usage (.repeated form.topic name))
  else .ok { words with switch := true }

def readOperands (form : Form) (words : Words) : List String → Except Request Words
  | [] => .ok words
  | word :: rest => do readOperands form (← form.takeOperand words word) rest

def namesSetting (form : Form) (name : String) : Bool :=
  form.setting.any (·.2 == name)

/-- Reads the words after a command. `pending` is the option that still wants a value. -/
def read (form : Form) (words : Words) (pending : Option String) :
    List String → Except Request Words
  | [] =>
    match pending with
    | some name => .error (.usage (.missingValue form.topic name))
    | none => .ok words
  | word :: rest =>
    match pending with
    | some name =>
      if isValue word then do read form (← form.takeSetting words name word) none rest
      else .error (.usage (.missingValue form.topic name))
    | none =>
      match wordKind word with
      | .separator => form.readOperands words rest
      | .operand => do read form (← form.takeOperand words word) none rest
      | .long name none =>
        if name = "help" then .error (.help form.topic)
        else if form.namesSetting name then read form words (some name) rest
        else if form.switch = some name then do read form (← form.takeSwitch words name) none rest
        else .error (.usage (.unexpected form.topic word))
      | .long name (some value) =>
        if form.namesSetting name then do read form (← form.takeSetting words name value) none rest
        else .error (.usage (.unexpected form.topic word))
      | .short letter body =>
        if letter = 'h' then .error (.help form.topic)
        else
          match form.setting.filter (·.1 = letter), attached? body with
          | some (_, name), none => read form words (some name) rest
          | some (_, name), some value => do
            read form (← form.takeSetting words name value) none rest
          | none, _ => .error (.usage (.unexpected form.topic word))

def request (form : Form) (build : String → Words → Command) (words : List String) : Request :=
  match form.read {} none words with
  | .error request => request
  | .ok given =>
    match given.operand with
    | some file => .command (build file given)
    | none => .usage (.missingOperand form.topic)

end Form

/-! ## Commands -/

def topic? : String → Option Topic
  | "run" => some .run
  | "disasm" => some .list
  | "verify" => some .verify
  | "asm" => some .assemble
  | "help" => some .help
  | _ => none

def helpRequest : List String → Request
  | [] => .help .tool
  | [word] =>
    match topic? word with
    | some topic => .help topic
    | none => .usage (.unknownCommand word)
  | _ :: word :: _ => .usage (.unknownCommand word)

def commandRequest (topic : Topic) (words : List String) : Request :=
  match topic with
  | .tool => .usage .noCommand
  | .run =>
    Form.request ⟨topic, some ('c', "config"), some "trace"⟩
      (fun file given => .run file given.setting given.switch) words
  | .list => Form.request { topic } (fun file _ => .list file) words
  | .verify => Form.request { topic } (fun file _ => .verify file) words
  | .assemble =>
    Form.request { topic, setting := some ('o', "out") }
      (fun file given => .assemble file given.setting) words
  | .help => helpRequest words

def parse : List String → Request
  | [] => .usage .noCommand
  | word :: rest =>
    match wordKind word with
    | .separator => .usage (rest.head?.elim .noCommand (.unexpected .tool))
    | .long "version" none | .short 'V' _ => .version
    | .long "help" none | .short 'h' _ => .help .tool
    | .long _ _ | .short _ _ => .usage (.unexpected .tool word)
    | .operand =>
      match topic? word with
      | some topic => commandRequest topic rest
      | none => .usage (.unknownCommand word)

end RegisterMachine.CommandLine
