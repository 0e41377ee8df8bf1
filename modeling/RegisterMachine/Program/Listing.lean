import RegisterMachine.Program.Basic

/-!
# Listings

Human-readable text of code and of whole programs: every instruction on a line of its own behind its
place, functions named where they start, constants in front.
-/

namespace RegisterMachine

def listingLine (pc : Nat) (word : UInt32) : String :=
  Text.zeroFill 4 (toString pc) ++ ": " ++ (Instruction.decode word).text ++ "\n"

def listing (code : List UInt32) : String :=
  String.join (code.zipIdx.map fun entry => listingLine entry.2 entry.1)

namespace Program

/-- The lines of the constants, none if there are none. -/
def constantsListing (program : Program) : String :=
  if program.constants.entries.isEmpty then ""
  else
    "; constants\n" ++ String.join (program.constants.entries.toList.zipIdx.map fun entry =>
      s!";   #{entry.2} {entry.1.kind} {entry.1.text}\n")

/-- The lines that name the functions starting at a place. -/
def functionsListing (program : Program) (pc : Nat) : String :=
  String.join ((program.functions.toList.filter (·.entry.toNat == pc)).map fun function =>
    s!"{function.name}:  ; params={function.paramCount}\n")

def listing (program : Program) : String :=
  s!"; module {program.name}\n" ++ program.constantsListing ++
    String.join (program.code.toList.zipIdx.map fun entry =>
      program.functionsListing entry.2 ++ "  " ++ listingLine entry.2 entry.1)

end Program

end RegisterMachine
