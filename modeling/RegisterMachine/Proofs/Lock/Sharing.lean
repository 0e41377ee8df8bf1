import Mathlib.Logic.Function.Basic
import RegisterMachine.Lock

/-!
# Machines that share locks

Any number of machines share a table of locks, and each of them makes one call at a time. A call is
one step under the protection of the table, except the call for a lock that another machine owns:
it looks at the table again whenever its machine wakes, for a reason or for none, and a limit on the
wait may have run out by then. Between two steps of a machine the others take any number of steps.
-/

namespace RegisterMachine

namespace LockTable

/-! ## Looks at the table -/

/-- One look at the table by a machine that asks for a key. It gives up if its time is over and the
key is still held, and else tries to acquire the key. -/
def look (table : LockTable) (key : LockKey) (machine : MachineId) (expired : Bool) :
    Except LockError LockAttempt :=
  if expired && table.isLocked key then .error (.timeout key)
  else
    match table.tryLock key machine with
    | .ok (some changed) => .ok (.acquired changed)
    | .ok none => .ok .waiting
    | .error cause => .error cause

/-- A machine that nobody disturbs looks once, and once more when a limit on its wait has run out.
-/
theorem attempt_eq_look (table : LockTable) (key : LockKey) (machine : MachineId)
    (timeout : Option Nat) :
    table.attempt key machine timeout =
      match table.look key machine false, timeout with
      | .ok .waiting, some _ => table.look key machine true
      | result, _ => result := by
  unfold attempt look tryLock isLocked
  cases howner : table.owner? key with
  | none => cases timeout <;> rfl
  | some owner =>
    by_cases hown : owner = machine
    · subst hown
      cases timeout <;> simp [bind, Except.bind]
    · cases timeout <;> simp [hown, bind, Except.bind, throw, throwThe, MonadExceptOf.throw,
        pure, Except.pure]

end LockTable

/-! ## Machines that share a table -/

/-- What a machine is doing about locks: no call, a wait with or without a limit, or nothing any
more, for it is gone. -/
inductive Activity where
  | idle
  | waiting (key : LockKey) (limited : Bool)
  | dropped

/-- What a machine can ask for. A machine that is dropped gives every key back. -/
inductive LockCall where
  | lock (key : LockKey) (limited : Bool)
  | tryLock (key : LockKey)
  | unlock (key : LockKey)
  | releaseAll
  | drop

/-- What a machine learns from a step. A key that it tried in vain is occupied. -/
inductive LockAnswer where
  | acquired (key : LockKey)
  | occupied (key : LockKey)
  | waiting (key : LockKey)
  | released (key : LockKey)
  | releasedAll (keys : List LockKey)
  | failed (cause : LockError)
  deriving DecidableEq

/-- What a machine learns from a step, with the table and what the machine is doing after it. -/
structure Served where
  answer : LockAnswer
  table : LockTable
  activity : Activity

namespace LockTable

/-- The keys of a machine. -/
def keysOf (table : LockTable) (machine : MachineId) : List LockKey :=
  (table.held.filter (·.2 == machine)).map (·.1)

/-- A machine looks whether it can have a key. -/
def ask (table : LockTable) (machine : MachineId) (key : LockKey) (limited expired : Bool) :
    Served :=
  match table.look key machine expired with
  | .ok (.acquired changed) => ⟨.acquired key, changed, .idle⟩
  | .ok .waiting => ⟨.waiting key, table, .waiting key limited⟩
  | .error cause => ⟨.failed cause, table, .idle⟩

/-- A machine makes a call. -/
def serve (table : LockTable) (machine : MachineId) : LockCall → Served
  | .lock key limited => table.ask machine key limited false
  | .tryLock key =>
    match table.tryLock key machine with
    | .ok (some changed) => ⟨.acquired key, changed, .idle⟩
    | .ok none => ⟨.occupied key, table, .idle⟩
    | .error cause => ⟨.failed cause, table, .idle⟩
  | .unlock key =>
    match table.unlock key machine with
    | .ok changed => ⟨.released key, changed, .idle⟩
    | .error cause => ⟨.failed cause, table, .idle⟩
  | .releaseAll => ⟨.releasedAll (table.keysOf machine), (table.releaseAll machine).2, .idle⟩
  | .drop => ⟨.releasedAll (table.keysOf machine), (table.releaseAll machine).2, .dropped⟩

end LockTable

/-- A table of locks, and what each of the machines that share it is doing. -/
structure Sharing where
  table : LockTable := {}
  activity : MachineId → Activity := fun _ ↦ .idle

namespace Sharing

/-- The machines after a step of one of them. -/
def after (sharing : Sharing) (machine : MachineId) (served : Served) : Sharing where
  table := served.table
  activity := Function.update sharing.activity machine served.activity

/-- The steps that a machine can take, with what it learns. -/
inductive Step (sharing : Sharing) (machine : MachineId) : LockAnswer → Sharing → Prop
  /-- A machine that makes no call makes one. -/
  | call (request : LockCall) : sharing.activity machine = .idle →
      Step sharing machine (sharing.table.serve machine request).answer
        (sharing.after machine (sharing.table.serve machine request))
  /-- A machine that waits wakes at any time; only a limited wait runs out. -/
  | wake {key : LockKey} {limited : Bool} (expired : Bool) :
      sharing.activity machine = .waiting key limited → (expired = true → limited = true) →
      Step sharing machine (sharing.table.ask machine key limited expired).answer
        (sharing.after machine (sharing.table.ask machine key limited expired))

end Sharing

/-- The machines after some steps, in any order, and what these machines learned. -/
inductive Interleaving : List (MachineId × LockAnswer) → Sharing → Prop
  | nil : Interleaving [] {}
  | step {trace : List (MachineId × LockAnswer)} {sharing next : Sharing} {machine : MachineId}
      {answer : LockAnswer} : Interleaving trace sharing → sharing.Step machine answer next →
      Interleaving (trace ++ [(machine, answer)]) next

end RegisterMachine
