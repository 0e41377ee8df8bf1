import RegisterMachine.Options.Grammar

/-!
# Options

What a machine may use, and how it waits for locks. Options come from a configuration document or
are set one by one; what is not said keeps its default.
-/

namespace RegisterMachine

/-- Bounds on what a program may use. -/
structure Limits where
  maxCallDepth : Nat := 256
  maxStackDepth : Nat := 1024
  maxScratchSlots : Nat := 2 ^ 16
  maxArrayLength : Nat := 2 ^ 20
  maxHeapObjects : Option Nat := none
  maxSteps : Option Nat := none
  deriving DecidableEq, Repr

/-- Options of a machine. A lock is waited for up to so many milliseconds, or for ever. -/
structure Options where
  limits : Limits := {}
  traceInstructions : Bool := false
  scratchInitialCapacity : Nat := 4
  lockTimeout : Option Nat := none
  deriving DecidableEq, Repr

/-- Why options are refused. -/
inductive OptionsError where
  | notReadable
  | zeroCallDepth
  | scratchCapacity (capacity limit : Nat)
  deriving DecidableEq, Repr

def OptionsError.message : OptionsError → String
  | .notReadable => "Failed to parse config"
  | .zeroCallDepth => "Invalid config: max_call_depth must be at least 1"
  | .scratchCapacity capacity limit =>
    s!"Invalid config: scratch_initial_capacity {capacity} exceeds max_scratch_slots {limit}"

namespace Limits

def withCallDepth (depth : Nat) : Limits :=
  { maxCallDepth := depth }

/-- Default limits but for the number of living heap objects. -/
def withHeapLimit (count : Nat) : Limits :=
  { maxHeapObjects := some count }

def withStepBudget (count : Nat) : Limits :=
  { maxSteps := some count }

end Limits

namespace Options

def validate (options : Options) : Except OptionsError Options :=
  if options.limits.maxCallDepth = 0 then .error .zeroCallDepth
  else if options.scratchInitialCapacity > options.limits.maxScratchSlots then
    .error (.scratchCapacity options.scratchInitialCapacity options.limits.maxScratchSlots)
  else .ok options

/-! ## From a document -/

def natural? : Toml.Node → Option Nat
  | .scalar (.integer value) => if 0 ≤ value then some value.toNat else none
  | _ => none

def boolean? : Toml.Node → Option Bool
  | .scalar (.boolean value) => some value
  | _ => none

/-- The entry of a key, read by `read?`; a missing one has a default, an unsuitable one is an error.
-/
def entry (table : Toml.Table) (key : String) (default : α) (read? : Toml.Node → Option α) :
    Option α :=
  match table.lookup key with
  | none => some default
  | some node => read? node

def limitsOfTable (table : Toml.Table) : Option Limits := do
  let bases : Limits := {}
  return {
    maxCallDepth := ← entry table "max_call_depth" bases.maxCallDepth natural?
    maxStackDepth := ← entry table "max_stack_depth" bases.maxStackDepth natural?
    maxScratchSlots := ← entry table "max_scratch_slots" bases.maxScratchSlots natural?
    maxArrayLength := ← entry table "max_array_len" bases.maxArrayLength natural?
    maxHeapObjects := ← entry table "max_heap_objects" none fun node => (natural? node).map some
    maxSteps := ← entry table "max_steps" none fun node => (natural? node).map some }

def limitNames : List String :=
  ["max_call_depth", "max_stack_depth", "max_scratch_slots", "max_array_len", "max_heap_objects",
    "max_steps"]

/-- Limits from a node: a table, or an array of the limits in order. A date counts as a table that
says nothing about limits. -/
def limits? : Toml.Node → Option Limits
  | .table _ entries => limitsOfTable entries
  | .array items => limitsOfTable (limitNames.zip items)
  | .tables items => limitsOfTable (limitNames.zip items)
  | .scalar .datetime => some {}
  | .scalar _ => none

def ofTable (table : Toml.Table) : Option Options := do
  let bases : Options := {}
  return {
    limits := ← entry table "limits" bases.limits limits?
    traceInstructions := ← entry table "trace_instructions" bases.traceInstructions boolean?
    scratchInitialCapacity :=
      ← entry table "scratch_initial_capacity" bases.scratchInitialCapacity natural?
    lockTimeout := ← entry table "lock_timeout_ms" none fun node => (natural? node).map some }

/-- Options from the text of a document. Keys without a meaning are ignored. -/
def parse (text : String) : Except OptionsError Options :=
  match (Toml.parse? text).bind ofTable with
  | some options => options.validate
  | none => .error .notReadable

end Options

end RegisterMachine
