import RegisterMachine.Value

/-!
# Locks

A table says which machine owns which lock. A machine that asks for a lock it owns is refused, for
locks are not counted; a lock that another machine owns is waited for. Each operation is one step
under the protection of the table, and a waiting machine asks again after every release.
-/

namespace RegisterMachine

abbrev MachineId := Nat

/-- What can be locked. -/
inductive LockKey where
  | number (value : Int32)
  | object (machine : MachineId) (handle : Handle)
  deriving DecidableEq, Repr

def LockKey.text : LockKey → String
  | .number value => s!"Handle({value.toInt})"
  | .object machine handle =>
    s!"Object(VmId({machine}), HeapRef \x7b index: {handle.index}, " ++
      s!"generation: {handle.generation} \x7d)"

/-- Why a lock operation fails. -/
inductive LockError where
  | alreadyLocked (key : LockKey)
  | notOwner (key : LockKey)
  | timeout (key : LockKey)
  deriving DecidableEq, Repr

def LockError.message : LockError → String
  | .alreadyLocked key => s!"Lock {key.text} already held by this VM"
  | .notOwner key => s!"Lock {key.text} is not held by this VM"
  | .timeout key => s!"Timed out waiting for lock {key.text}"

/-- The locks that are held, with their owners. -/
structure LockTable where
  held : List (LockKey × MachineId) := []
  deriving DecidableEq, Repr

namespace LockTable

def owner? (table : LockTable) (key : LockKey) : Option MachineId :=
  table.held.lookup key

def isLocked (table : LockTable) (key : LockKey) : Bool :=
  (table.owner? key).isSome

/-- Acquires a key for a machine if it is free: `none` says that another machine owns it. -/
def tryLock (table : LockTable) (key : LockKey) (machine : MachineId) :
    Except LockError (Option LockTable) :=
  match table.owner? key with
  | none => .ok (some ⟨(key, machine) :: table.held⟩)
  | some owner => if owner = machine then .error (.alreadyLocked key) else .ok none

def unlock (table : LockTable) (key : LockKey) (machine : MachineId) : Except LockError LockTable :=
  if table.owner? key = some machine then .ok ⟨table.held.filter (·.1 != key)⟩
  else .error (.notOwner key)

/-- Releases every key of a machine, and says how many. -/
def releaseAll (table : LockTable) (machine : MachineId) : Nat × LockTable :=
  let kept := table.held.filter (·.2 != machine)
  (table.held.length - kept.length, ⟨kept⟩)

end LockTable

/-- What an attempt to acquire a lock comes to: it is acquired, or another machine owns it and there
is no limit on the wait for it. -/
inductive LockAttempt where
  | acquired (table : LockTable)
  | waiting

/-- Asks for a key. Where another machine owns it, a limit on the wait runs out, for nobody releases
it meanwhile. -/
def LockTable.attempt (table : LockTable) (key : LockKey) (machine : MachineId)
    (timeout : Option Nat) : Except LockError LockAttempt := do
  match ← table.tryLock key machine, timeout with
  | some table, _ => return .acquired table
  | none, some _ => throw (.timeout key)
  | none, none => return .waiting

end RegisterMachine
