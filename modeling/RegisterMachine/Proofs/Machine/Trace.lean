import RegisterMachine.Proofs.Machine.Step

/-!
# Traces

A trace lists the states from which a run has taken a step, the last one first. Frames nest, so the
steps of the frame that has so many callers are those that a trace shows at this depth since it was
reached; the step that reached it was the last from a smaller depth.
-/

namespace RegisterMachine

/-- How far a run that began somewhere can come, and what it leaves behind on the way: the states
from which it has taken a step, the last one first. -/
inductive Traces (program : Program) (start : Progress) : List State → Progress → Prop
  | refl : Traces program start [] start
  | step {trace : List State} {state : State} : Traces program start trace (.running state) →
      Traces program start (state :: trace) (state.step program)
  /-- A run that waits tries again. -/
  | retry {trace : List State} {state : State} : Traces program start trace (.waiting state) →
      Traces program start trace (.running state)
  /-- Other machines change the locks. -/
  | locks {trace : List State} {state : State} (locks : LockTable) :
      Traces program start trace (.running state) →
      Traces program start trace (.running { state with machine := { state.machine with locks } })

section Runs

variable {program : Program} {start progress : Progress} {trace : List State}

theorem Traces.reaches (traces : Traces program start trace progress) :
    Reaches program start progress := by
  induction traces with
  | refl => exact .refl
  | step _ ih => exact .step ih
  | retry _ ih => exact .retry ih
  | locks table _ ih => exact .locks table ih

/-- Whatever a run comes to has a trace. -/
theorem reaches_iff_exists_traces :
    Reaches program start progress ↔ ∃ trace, Traces program start trace progress := by
  constructor
  · intro reached
    induction reached with
    | refl => exact ⟨[], .refl⟩
    | step _ ih =>
      obtain ⟨trace, traces⟩ := ih
      exact ⟨_ :: trace, .step traces⟩
    | retry _ ih =>
      obtain ⟨trace, traces⟩ := ih
      exact ⟨trace, .retry traces⟩
    | locks table _ ih =>
      obtain ⟨trace, traces⟩ := ih
      exact ⟨trace, .locks table traces⟩
  · rintro ⟨trace, traces⟩
    exact traces.reaches

/-- A relation of states to traces that holds at the beginning, and after every step, holds
throughout. -/
theorem Traces.satisfies {lasting : List State → State → Prop}
    (traces : Traces program start trace progress)
    (begins : start.Satisfies (lasting []) fun _ ↦ True)
    (steps : ∀ trace state, lasting trace state →
      (state.step program).Satisfies (lasting (state :: trace)) fun _ ↦ True)
    (shares : ∀ trace state locks, lasting trace state →
      lasting trace { state with machine := { state.machine with locks } }) :
    progress.Satisfies (lasting trace) fun _ ↦ True := by
  induction traces with
  | refl => exact begins
  | step _ ih => exact steps _ _ ih
  | retry _ ih => exact ih
  | locks table _ ih => exact shares _ _ table ih

/-- Executes at most so many instructions, and continues a trace. -/
def Progress.follow (program : Program) : Nat → List State → Progress → List State × Progress
  | count + 1, trace, .running state =>
    follow program count (state :: trace) (state.step program)
  | _, trace, progress => (trace, progress)

theorem Traces.follow (traces : Traces program start trace progress) (count : Nat) :
    Traces program start (progress.follow program count trace).1
      (progress.follow program count trace).2 := by
  induction count generalizing trace progress with
  | zero => exact traces
  | succ count ih =>
    cases progress with
    | running state => exact ih traces.step
    | waiting state => exact traces
    | ended outcome => exact traces

end Runs

/-! ## Activations -/

/-- The steps of the frame that has so many callers. -/
def activation (depth : Nat) (trace : List State) : List State :=
  (trace.takeWhile (depth ≤ ·.callers.length)).filter (·.callers.length = depth)

/-- The step that has entered the frame with so many callers. -/
def entrance? (depth : Nat) (trace : List State) : Option State :=
  trace.find? (·.callers.length < depth)

section Activations

variable {state : State} {depth : Nat} {trace : List State}

@[simp] theorem activation_nil : activation depth [] = [] :=
  rfl

/-- A step of a frame above leaves the history as it is. -/
theorem activation_cons_of_lt (h : depth < state.callers.length) :
    activation depth (state :: trace) = activation depth trace := by
  rw [activation, List.takeWhile_cons_of_pos (by simpa using Nat.le_of_lt h),
    List.filter_cons_of_neg (by simpa using Nat.ne_of_gt h), activation]

theorem activation_cons_self :
    activation state.callers.length (state :: trace) =
      state :: activation state.callers.length trace := by
  rw [activation, List.takeWhile_cons_of_pos (by simp), List.filter_cons_of_pos (by simp),
    activation]

/-- A frame that a step enters has no history. -/
theorem activation_cons_of_gt (h : state.callers.length < depth) :
    activation depth (state :: trace) = [] := by
  rw [activation, List.takeWhile_cons_of_neg (by simpa using h), List.filter_nil]

theorem entrance?_cons_of_lt (h : state.callers.length < depth) :
    entrance? depth (state :: trace) = some state :=
  List.find?_cons_of_pos (by simpa using h)

theorem entrance?_cons_of_le (h : depth ≤ state.callers.length) :
    entrance? depth (state :: trace) = entrance? depth trace :=
  List.find?_cons_of_neg (by simpa using h)

end Activations

end RegisterMachine
