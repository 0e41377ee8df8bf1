import RegisterMachine.Proofs.Bignum.Conversion
import RegisterMachine.Proofs.Heap.Consistent
import RegisterMachine.Proofs.Machine.Step

/-!
# Integers in boxes

The box of an integer is a bignum of its value. Taking the integer out again is a conversion of
bignums, whose source is any bignum, boxed or computed, and which fails if the value does not fit a
register. As conversions are exact, an integer comes out of its box as it went in, at the ends of
the range too.
-/

namespace RegisterMachine

theorem Machine.unbox_bignum (machine : Machine) {handle : Handle} {number : Bignum}
    (hget : machine.heap.get handle = .ok (.bignum number)) :
    machine.unbox (.object handle) =
      match number.toInt32? with
      | some v => .ok (.int v)
      | none => .error .integerOverflow := by
  have hobject : machine.object handle = .ok (.bignum number) := by rw [object, hget]
  simp only [unbox, hobject, Bind.bind, Except.bind]
  cases number.toInt32? <;> rfl

namespace State

variable {program : Program} {state : State} {frame : Frame} {operands : Operands}
  {handle : Handle} {number : Bignum} {x : Int32}

namespace Dispatches

/-- The integer of a bignum is put in a register, or the run ends. -/
theorem step_unbox (dispatches : Dispatches program state frame .unbox operands)
    (hheld : frame.register operands.b = .ok (.object handle))
    (hget : state.machine.heap.get handle = .ok (.bignum number)) :
    state.step program =
      match number.toInt32? with
      | some v => .running ⟨state.counted, frame.assigned operands.a (.int v), state.callers⟩
      | none => fault state.counted frame state.callers .integerOverflow := by
  have hunbox := state.counted.unbox_bignum hget
  cases hvalue : number.toInt32? with
  | some v =>
    rw [hvalue] at hunbox
    refine dispatches.step_of_assign ?_
    simp only [execute, hheld, Bind.bind, Except.bind, hunbox]
  | none =>
    rw [hvalue] at hunbox
    refine dispatches.step_of_error ?_
    simp only [execute, hheld, Bind.bind, Except.bind, hunbox]

/-- The box of an integer is allocated, or the run ends. -/
theorem step_boxInt (dispatches : Dispatches program state frame .boxInt operands)
    (hheld : frame.register operands.b = .ok (.int x)) :
    state.step program =
      match state.machine.heap.alloc (.bignum (.ofInt32 x)) with
      | .ok (handle, heap) => .running
          ⟨{ state.counted with heap }, frame.assigned operands.a (.object handle), state.callers⟩
      | .error cause => fault state.counted frame state.callers (.heap cause) := by
  cases halloc : state.machine.heap.alloc (.bignum (.ofInt32 x)) with
  | ok made =>
    refine dispatches.step_of_assign ?_
    simp only [execute, hheld, Bind.bind, Except.bind, intOperand, Value.int?, Effect.assignFrom,
      Machine.alloc, counted, halloc]
  | error cause =>
    refine dispatches.step_of_error ?_
    simp only [execute, hheld, Bind.bind, Except.bind, intOperand, Value.int?, Effect.assignFrom,
      Machine.alloc, counted, halloc]

/-- Unboxing a bignum is exact. -/
theorem unbox_exact (dispatches : Dispatches program state frame .unbox operands)
    (hheld : frame.register operands.b = .ok (.object handle))
    (hget : state.machine.heap.get handle = .ok (.bignum number)) (built : number.Built) :
    (∀ v : Int32, number.toInt = v.toInt → state.step program =
      .running ⟨state.counted, frame.assigned operands.a (.int v), state.callers⟩) ∧
    (¬ (-(2 ^ 31) ≤ number.toInt ∧ number.toInt ≤ 2 ^ 31 - 1) → state.step program =
      fault state.counted frame state.callers .integerOverflow) := by
  rw [dispatches.step_unbox hheld hget]
  constructor
  · intro v hvalue
    rw [(Bignum.toInt32?_exact.eq_some_iff number built v).2 hvalue]
  · intro hout
    rw [(Bignum.toInt32?_exact.eq_none_iff number built).2 hout]

/-- What the next instruction takes out of the box of an integer is the integer. -/
theorem boxInt_unbox (dispatches : Dispatches program state frame .boxInt operands)
    (hheld : frame.register operands.b = .ok (.int x)) (consistent : state.machine.heap.Consistent)
    {heap : Heap} (halloc : state.machine.heap.alloc (.bignum (.ofInt32 x)) = .ok (handle, heap)) :
    ∃ boxed, state.step program = .running boxed ∧ boxed.machine = { state.counted with heap } ∧
      boxed.frame = frame.assigned operands.a (.object handle) ∧
      ∀ next unboxing, Dispatches program boxed next .unbox unboxing →
        unboxing.b = operands.a → boxed.step program =
          .running ⟨boxed.counted, next.assigned unboxing.a (.int x), state.callers⟩ := by
  obtain ⟨word, -, -, -, hrange⟩ := of_fetch_eq_ok dispatches.fetched
  have hstep := dispatches.step_boxInt hheld
  rw [halloc] at hstep
  refine ⟨_, hstep, rfl, rfl, fun next unboxing unboxes hsource ↦ ?_⟩
  have hget : heap.get handle = .ok (.bignum (.ofInt32 x)) :=
    Heap.get_eq_ok_iff.2 ⟨_, (consistent.alloc halloc).2.slot_eq, rfl, rfl⟩
  have hbox : next.register unboxing.b = .ok (.object handle) := by
    obtain ⟨opcode, rfl⟩ := of_fetch_eq unboxes.fetched
    rw [hsource]
    exact Frame.register_assigned hrange.a_lt _
  rw [unboxes.step_unbox hbox hget, Bignum.toInt32?_exact.of_make Bignum.ofInt32_exact x]

end Dispatches

end State

/-! ## Exactness -/

open Bignum in
/-- Conversions between bignums and machine integers are exact both ways, and inverse to each other.
Unboxing a bignum therefore gives the integer of its value if the value fits a register and the
overflow fault otherwise, and an integer that is put in a box, if there is room for the box, comes
out as it was by the next instruction. -/
theorem conversions_exact :
    (ConvertsExactly toInt32? Int32.toInt (-(2 ^ 31)) (2 ^ 31 - 1) ∧
      ConvertsExactly toInt64? Int64.toInt (-(2 ^ 63)) (2 ^ 63 - 1) ∧
      ConvertsExactly toUInt32? (fun v ↦ v.toNat) 0 (2 ^ 32 - 1)) ∧
    (MakesExactly ofInt32 Int32.toInt ∧ MakesExactly ofUInt32 (fun v ↦ v.toNat) ∧
      MakesExactly ofInt64 Int64.toInt ∧ MakesExactly ofUInt64 (fun v ↦ v.toNat)) ∧
    ((∀ v, (ofInt32 v).toInt32? = some v) ∧ (∀ v, (ofInt64 v).toInt64? = some v) ∧
      ∀ v, (ofUInt32 v).toUInt32? = some v) ∧
    (∀ program state frame operands handle number,
      State.Dispatches program state frame .unbox operands →
      frame.register operands.b = .ok (.object handle) →
      state.machine.heap.get handle = .ok (.bignum number) → number.Built →
      (∀ v : Int32, number.toInt = v.toInt → state.step program =
        .running ⟨state.counted, frame.assigned operands.a (.int v), state.callers⟩) ∧
      (¬ (-(2 ^ 31) ≤ number.toInt ∧ number.toInt ≤ 2 ^ 31 - 1) → state.step program =
        State.fault state.counted frame state.callers .integerOverflow)) ∧
    (∀ program state frame operands x, State.Dispatches program state frame .boxInt operands →
      frame.register operands.b = .ok (.int x) → state.machine.heap.Consistent →
      (∀ cause, state.machine.heap.alloc (.bignum (ofInt32 x)) = .error cause →
        state.step program = State.fault state.counted frame state.callers (.heap cause)) ∧
      ∀ handle heap, state.machine.heap.alloc (.bignum (ofInt32 x)) = .ok (handle, heap) →
        ∃ boxed, state.step program = .running boxed ∧
          boxed.machine = { state.counted with heap } ∧
          boxed.frame = frame.assigned operands.a (.object handle) ∧
          ∀ next unboxing, State.Dispatches program boxed next .unbox unboxing →
            unboxing.b = operands.a → boxed.step program =
              .running ⟨boxed.counted, next.assigned unboxing.a (.int x), state.callers⟩) := by
  refine ⟨⟨toInt32?_exact, toInt64?_exact, toUInt32?_exact⟩,
    ⟨ofInt32_exact, ofUInt32_exact, ofInt64_exact, ofUInt64_exact⟩,
    ⟨toInt32?_exact.of_make ofInt32_exact, toInt64?_exact.of_make ofInt64_exact,
      toUInt32?_exact.of_make ofUInt32_exact⟩, ?_, ?_⟩
  · intro program state frame operands handle number dispatches hheld hget built
    exact dispatches.unbox_exact hheld hget built
  · intro program state frame operands x dispatches hheld consistent
    refine ⟨fun cause halloc ↦ ?_, fun handle heap halloc ↦ ?_⟩
    · rw [dispatches.step_boxInt hheld, halloc]
    · exact dispatches.boxInt_unbox hheld consistent halloc

/-- The first instruction puts the integer of register 0 in a box, the second takes it out into
register 2. -/
def boxing : Program where
  name := "boxing"
  code := #[0xC9010000, 0xCB020100]

/-- The least integer is about to be put in a box. -/
def boxingLeast : State where
  machine := {}
  frame := {
    registers := #v[.int (-2147483648), .null, .null, .null, .null, .null, .null, .null]
    maxStack := 16
    maxScratch := 16
    pc := 0 }

/-- The frame that holds the box. -/
def boxedLeast : Frame :=
  { boxingLeast.frame with opcode := 201 }.assigned 1 (.object ⟨0, 0⟩)

/-- A bignum one above the largest integer is about to be taken out of its box. -/
def unboxingLarge : State where
  machine := {
    heap := { slots := #[{ object := some (.bignum (.ofUInt32 0x80000000)) }], live := 1 } }
  frame := {
    registers := #v[.null, .object ⟨0, 0⟩, .null, .null, .null, .null, .null, .null]
    maxStack := 16
    maxScratch := 16
    pc := 1 }

open Bignum in
/-- At the ends of the ranges: two limbs whose top bit is set are the least integer or one too
large, by their sign, and the least integer survives its box. -/
theorem conversions_exact_least :
    (ofLimbs [0, 0x80000000] true).toInt64? = some (-9223372036854775808) ∧
      (ofLimbs [0, 0x80000000] false).toInt64? = none ∧
      (∃ boxed unboxed, boxingLeast.step boxing = .running boxed ∧
        boxed.step boxing = .running unboxed ∧
        unboxed.frame.register 2 = .ok (.int (-2147483648))) ∧
      ∃ frame, unboxingLarge.step boxing =
        State.fault unboxingLarge.counted frame [] .integerOverflow := by
  obtain ⟨⟨-, wide, -⟩, -, -, unboxes, boxes⟩ := conversions_exact
  refine ⟨?_, ?_, ?_, ?_⟩
  · exact (wide.eq_some_iff _ (.ofLimbs _ _) _).2 (by decide)
  · exact (wide.eq_none_iff _ (.ofLimbs _ _)).2 (by decide)
  · have first : State.Dispatches boxing boxingLeast { boxingLeast.frame with opcode := 201 }
        .boxInt (.regs2 1 0) := ⟨rfl, rfl⟩
    obtain ⟨⟨machine, frame, callers⟩, hboxed, hmachine, hframe, hunboxed⟩ :=
      (boxes _ _ _ _ (-2147483648) first rfl (Heap.consistent_empty none)).2 ⟨0, 0⟩ _ rfl
    obtain rfl : frame = boxedLeast := hframe
    have hallowed : State.exhausted? machine = none := by
      rw [show machine = _ from hmachine]
      rfl
    have hfetched : State.fetch boxing boxedLeast =
        ({ boxedLeast with opcode := 203 }, .ok (.unbox, .regs2 2 1)) := by rfl
    have second := hunboxed _ _ ⟨hallowed, hfetched⟩ rfl
    exact ⟨_, _, hboxed, second, Frame.register_assigned (by decide) _⟩
  · have dispatches : State.Dispatches boxing unboxingLarge
        { unboxingLarge.frame with opcode := 203 } .unbox (.regs2 2 1) := ⟨rfl, rfl⟩
    exact ⟨_, (unboxes _ _ _ _ _ _ dispatches rfl rfl (.ofUInt32 _)).2 (by decide)⟩

end RegisterMachine
