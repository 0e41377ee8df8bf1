import Mathlib.Data.List.Forall2
import RegisterMachine.Proofs.InPlace.Work
import RegisterMachine.Proofs.Native.Output

/-!
# Host functions in place

The standard host functions once more, as work on the heap and the output that the machine lends
them. Each one looks at its arguments first and makes its changes last, so a function that fails has
changed nothing: it realizes the description that the machine calls.
-/

namespace RegisterMachine

namespace InPlace

open Work

/-! ## Allocation -/

/-- Takes the slot freed last, or adds one, and puts an object there. -/
def place (object : HeapObject) : Work Heap HeapError Handle := do
  match ← get Heap.free with
  | index :: free =>
    change fun heap ↦ { heap with free }
    change fun heap ↦ { heap with
      slots := heap.slots.modify index.toNat fun slot ↦ { slot with object := some object } }
    change fun heap ↦ { heap with
      slots := heap.slots.modify index.toNat fun slot ↦ { slot with marked := false } }
    return ⟨index, ← get fun heap ↦ (heap.slots[index.toNat]?.map (·.generation)).getD 0⟩
  | [] =>
    let size ← get fun heap ↦ heap.slots.size
    if size < 2 ^ 32 then
      change fun heap ↦ { heap with slots := heap.slots.push { object := some object } }
      return ⟨UInt32.ofNat size, 0⟩
    else fail .allocationFailed

/-- Stores an object, and counts it. -/
def store (object : HeapObject) : Work Heap HeapError Handle := do
  let handle ← place object
  change fun heap ↦ { heap with live := heap.live + 1 }
  change fun heap ↦ { heap with
    stats := { heap.stats with peakLive := max heap.stats.peakLive heap.live } }
  return handle

/-- Allocates an object, unless the limit is reached. -/
def allocate (object : HeapObject) : Work Heap HeapError Handle := do
  match ← get Heap.limit with
  | some limit =>
    refuse ((← get Heap.live) ≥ limit) (.limitExceeded limit)
    store object
  | none => store object

theorem modify_modify (slots : Array Slot) (index : Nat) (first second : Slot → Slot) :
    (slots.modify index first).modify index second = slots.modify index (second ∘ first) := by
  apply Array.ext_getElem?
  intro other
  simp only [Array.getElem?_modify]
  split
  · simp [Option.map_map]
  · rfl

theorem store_realizes (object : HeapObject) (heap : Heap) :
    (store object).Realizes (fun made ↦ (.ok made.1, made.2)) heap (heap.store object) := by
  cases hfree : heap.free with
  | nil =>
    by_cases hsize : heap.slots.size < 2 ^ 32
    · simp only [Realizes, store, place, Heap.store, on_bind, on_get, on_change, on_pure, hfree,
        if_pos hsize]
      rfl
    · simp only [Realizes, store, place, Heap.store, on_bind, on_get, on_fail, hfree, if_neg hsize]
      rfl
  | cons index free =>
    -- The slot is written twice, and its generation is read after that.
    simp only [Realizes, store, place, Heap.store, on_bind, on_get, on_change, on_pure, hfree,
      modify_modify, Array.getElem?_modify, if_pos, Option.map_map]
    rfl

theorem allocate_realizes (object : HeapObject) (heap : Heap) :
    (allocate object).Realizes (fun made ↦ (.ok made.1, made.2)) heap (heap.alloc object) := by
  unfold allocate Heap.alloc
  refine .get ?_
  cases heap.limit with
  | none => exact store_realizes object heap
  | some limit => exact .get (.refuse (store_realizes object heap))

/-! ## Heap and output of a host function -/

/-- What the machine lends to a host function. -/
structure Site where
  heap : Heap
  output : Output

/-- A host function in place, by receiver and arguments. -/
abbrev Action := Value → List Value → Work Site NativeError Value

/-- What a host function sees. -/
def Site.call (site : Site) (receiver : Value) (arguments : List Value) : NativeCall :=
  ⟨site.heap, receiver, arguments, site.output⟩

/-- What the result of a described host function stands for. -/
def answer (result : NativeResult) : Except NativeError Value × Site :=
  (result.answer, ⟨result.heap, result.output⟩)

/-- An action does what a host function is described to do. -/
def Action.Implements (action : Action) (function : Native) : Prop :=
  ∀ receiver arguments site,
    (action receiver arguments).Realizes answer site (function (site.call receiver arguments))

/-- Looks at what the host function was given. -/
def view (receiver : Value) (arguments : List Value) (look : NativeCall → Except NativeError α) :
    Work Site NativeError α :=
  .look fun site ↦ look (site.call receiver arguments)

/-- Hands bytes to the sink, given its plan. -/
def offer : List SinkAnswer → List UInt8 → Work Output String Unit
  | _, [] => pure ()
  | [], bytes => do
    match ← get Output.broken with
    | none => change (·.append bytes)
    | some reason => fail reason
  | .take count :: plan, bytes => do
    change fun output ↦ { output with plan }
    if count = 0 then fail "failed to write whole buffer"
    else
      change (·.append (bytes.take count))
      offer plan (bytes.drop count)
  | .interrupted :: plan, bytes => do
    change fun output ↦ { output with plan }
    offer plan bytes
  | .fail reason :: plan, _ => do
    change fun output ↦ { output with plan }
    fail reason

/-- Writes a text. -/
def write (text : String) : Work Site NativeError Unit := do
  let plan ← get (·.output.plan)
  within Site.output (fun site output ↦ { site with output }) .output
    (offer plan (Bytes.ofText text))

/-- Replaces the object of a reference. -/
def replace (handle : Handle) (object : HeapObject) : Work Site NativeError Unit :=
  change fun site ↦ { site with heap := site.heap.put handle object }

/-- A new object. -/
def create (object : HeapObject) : Work Site NativeError Value := do
  return .object (← within Site.heap (fun site heap ↦ { site with heap }) .heap (allocate object))

/-- A new bignum. -/
def createBignum : Except BignumError Bignum → Work Site NativeError Value
  | .ok value => create (.bignum value)
  | .error cause => fail (.bignum cause)

/-! ## The standard host functions -/

/-- Writes the arguments apart by blanks, then a line end. -/
def print : Action := fun receiver arguments ↦ do
  let line ← get fun site ↦ Builtin.line (site.call receiver arguments)
  write line
  write "\n"
  return .null

/-- The length of a string or container. -/
def len : Action := fun receiver arguments ↦ do
  view receiver arguments (·.expectCount 1)
  match ← view receiver arguments (·.argument 0) with
  | .object handle =>
    let object ← view receiver arguments (·.object handle)
    match Builtin.length? object with
    | none => fail (.typeMismatch "container" object.typeName)
    | some length =>
      if length < 2 ^ 31 then return .int (Int32.ofNat length)
      else fail (.argumentError s!"length {length} does not fit")
  | other => fail (.typeMismatch "container" other.typeName)

/-- Appends to an array or list. -/
def push : Action := fun receiver arguments ↦ do
  view receiver arguments (·.expectCount 2)
  let item ← view receiver arguments (·.argument 1)
  let (handle, object) ← view receiver arguments Builtin.sequenceArgument
  match object with
  | .array items =>
    replace handle (.array (items.push item))
    return .int (Int32.ofNat (min (items.size + 1) (2 ^ 31 - 1)))
  | .list items =>
    replace handle (.list (items.push item))
    return .int (Int32.ofNat (min (items.size + 1) (2 ^ 31 - 1)))
  | other => fail (.typeMismatch "array" other.typeName)

/-- Removes the last item of an array or list. -/
def pop : Action := fun receiver arguments ↦ do
  view receiver arguments (·.expectCount 1)
  let (handle, object) ← view receiver arguments Builtin.sequenceArgument
  match object with
  | .array items =>
    replace handle (.array items.pop)
    return items.back?.getD .null
  | .list items =>
    replace handle (.list items.pop)
    return items.back?.getD .null
  | other => fail (.typeMismatch "array" other.typeName)

/-- A bignum from an integer, a bignum or a decimal numeral. -/
def big : Action := fun receiver arguments ↦ do
  view receiver arguments (·.expectCount 1)
  match ← view receiver arguments (·.argument 0) with
  | .object handle =>
    match ← view receiver arguments (·.object handle) with
    | .str text => createBignum (Bignum.parse text)
    | _ => createBignum (.ok (← view receiver arguments (·.bignumArgument 0)))
  | _ => createBignum (.ok (← view receiver arguments (·.bignumArgument 0)))

/-- An operation on two bignums. -/
def bigBinary (op : Bignum → Bignum → Except BignumError Bignum) : Action :=
  fun receiver arguments ↦ do
    view receiver arguments (·.expectCount 2)
    let a ← view receiver arguments (·.bignumArgument 0)
    let b ← view receiver arguments (·.bignumArgument 1)
    createBignum (op a b)

/-- A shift of a bignum by an integer. -/
def bigShift (op : Bignum → Bignum → Except BignumError Bignum) : Action :=
  fun receiver arguments ↦ do
    view receiver arguments (·.expectCount 2)
    let a ← view receiver arguments (·.bignumArgument 0)
    let count ← view receiver arguments (·.intArgument 1)
    createBignum (op a (Bignum.ofInt32 count))

/-- The negation of a bignum. -/
def bigNeg : Action := fun receiver arguments ↦ do
  view receiver arguments (·.expectCount 1)
  createBignum (.ok (← view receiver arguments (·.bignumArgument 0)).neg)

/-- The comparison of two bignums. -/
def bigCmp : Action := fun receiver arguments ↦ do
  view receiver arguments (·.expectCount 2)
  let a ← view receiver arguments (·.bignumArgument 0)
  let b ← view receiver arguments (·.bignumArgument 1)
  return .ofOrdering (a.compare b)

/-- The decimal numeral of a bignum. -/
def bigStr : Action := fun receiver arguments ↦ do
  view receiver arguments (·.expectCount 1)
  create (.str (← view receiver arguments (·.bignumArgument 0)).toText)

/-- The standard host functions in the order of their numbers. -/
def builtins : List (String × Action) :=
  [("print", print), ("len", len), ("list_new", fun _ _ ↦ create (.list #[])),
    ("set_new", fun _ _ ↦ create (.set [])), ("map_new", fun _ _ ↦ create (.map [])),
    ("push", push), ("pop", pop), ("big", big),
    ("big_add", bigBinary (Builtin.total Bignum.add)),
    ("big_sub", bigBinary (Builtin.total Bignum.sub)),
    ("big_mul", bigBinary (Builtin.total Bignum.mul)), ("big_div", bigBinary Bignum.div),
    ("big_rem", bigBinary Bignum.rem), ("big_mod", bigBinary Bignum.mod),
    ("big_and", bigBinary (Builtin.total Bignum.and)),
    ("big_or", bigBinary (Builtin.total Bignum.or)),
    ("big_xor", bigBinary (Builtin.total Bignum.xor)), ("big_shl", bigShift Bignum.shiftLeft),
    ("big_shr", bigShift Bignum.shiftRight), ("big_neg", bigNeg), ("big_cmp", bigCmp),
    ("big_str", bigStr)]

/-! ## Actions implement what the machine calls -/

section Implements

variable {receiver : Value} {arguments : List Value} {site : Site}

theorem create_realizes (object : HeapObject) :
    (create object).Realizes answer site ((site.call receiver arguments).alloc object) := by
  have hallocate : (allocate object).on site.heap = _ := allocate_realizes object site.heap
  unfold Realizes create NativeCall.alloc Site.call
  rw [on_bind, on_within, hallocate]
  cases site.heap.alloc object <;> rfl

theorem createBignum_realizes (value : Except BignumError Bignum) :
    (createBignum value).Realizes answer site
      ((site.call receiver arguments).allocBignum value) := by
  cases value with
  | ok value => exact create_realizes _
  | error cause => rfl

end Implements

theorem on_offer (plan : List SinkAnswer) (bytes : List UInt8) (output : Output) :
    (offer plan bytes).on output = Output.offer plan bytes output := by
  fun_induction Output.offer plan bytes output with
  | case1 => simp [offer]
  | case2 bytes output hbytes hbroken => simp [offer, on_bind, hbroken]
  | case3 bytes output hbytes reason hbroken => simp [offer, on_bind, hbroken]
  | case4 plan bytes output hbytes => simp [offer, on_bind]
  | case5 count plan bytes output hbytes hcount ih => simp [offer, on_bind, hcount, ih]
  | case6 plan bytes output hbytes ih => simp [offer, on_bind, ih]
  | case7 reason plan bytes output hbytes => simp [offer, on_bind]

theorem on_write (text : String) (site : Site) :
    (write text).on site =
      ((Output.write [text] site.output).1,
        { site with output := (Output.write [text] site.output).2 }) := by
  rw [write, on_bind, on_get]
  dsimp only
  rw [on_within, on_offer, Output.write]
  rcases Output.offer site.output.plan (Bytes.ofText text) site.output with ⟨_ | _, _⟩
  · rfl
  · rfl

/-- Printing writes the line and its end one after the other. -/
theorem on_print (receiver : Value) (arguments : List Value) (site : Site) :
    (print receiver arguments).on site =
      let (result, output) :=
        Output.write [Builtin.line (site.call receiver arguments), "\n"] site.output
      (result.map fun _ ↦ .null, { site with output }) := by
  rw [print, on_bind, on_get]
  dsimp only
  rw [on_bind, on_write, Output.write_cons _ ["\n"]]
  rcases Output.write [Builtin.line (site.call receiver arguments)] site.output with ⟨_ | _, output⟩
  · rfl
  · dsimp only
    rw [on_bind, on_write]
    rcases Output.write ["\n"] output with ⟨_ | _, _⟩
    · rfl
    · rfl

theorem print_implements : Action.Implements print Builtin.print := by
  intro receiver arguments site
  rw [Realizes, on_print, Builtin.print]
  have houtput : (site.call receiver arguments).output = site.output := rfl
  rw [houtput]
  rcases Output.write [Builtin.line (site.call receiver arguments), "\n"] site.output with
    ⟨cause | _, output⟩
  · dsimp only
    split
    · next hsame =>
      rw [hsame]
      rfl
    · rfl
  · rfl

theorem len_implements : Action.Implements len Builtin.len := by
  intro receiver arguments site
  refine .look fun _ ↦ .look fun value ↦ ?_
  cases value with
  | object handle =>
    refine .look fun object ↦ ?_
    cases Builtin.length? object with
    | none => rfl
    | some length => by_cases hfits : length < 2 ^ 31 <;> simp only [hfits, ↓reduceIte] <;> rfl
  | _ => rfl

theorem push_implements : Action.Implements push Builtin.push := by
  intro receiver arguments site
  refine .look fun _ ↦ .look fun item ↦ .look fun found ↦ ?_
  obtain ⟨handle, object⟩ := found
  cases object <;> rfl

theorem pop_implements : Action.Implements pop Builtin.pop := by
  intro receiver arguments site
  refine .look fun _ ↦ .look fun found ↦ ?_
  obtain ⟨handle, object⟩ := found
  cases object <;> rfl

theorem big_implements : Action.Implements big Builtin.big := by
  intro receiver arguments site
  refine .look fun _ ↦ .look fun value ↦ ?_
  cases value with
  | object handle =>
    refine .look fun object ↦ ?_
    cases object with
    | str text => exact createBignum_realizes _
    | _ => exact .look fun number ↦ createBignum_realizes _
  | _ => exact .look fun number ↦ createBignum_realizes _

theorem bigBinary_implements (op : Bignum → Bignum → Except BignumError Bignum) :
    Action.Implements (bigBinary op) (Builtin.bigBinary op) := by
  intro receiver arguments site
  refine .look fun _ ↦ .look fun a ↦ .look fun b ↦ ?_
  exact createBignum_realizes _

theorem bigShift_implements (op : Bignum → Bignum → Except BignumError Bignum) :
    Action.Implements (bigShift op) (Builtin.bigShift op) := by
  intro receiver arguments site
  refine .look fun _ ↦ .look fun a ↦ .look fun count ↦ ?_
  exact createBignum_realizes _

theorem bigNeg_implements : Action.Implements bigNeg Builtin.bigNeg := by
  intro receiver arguments site
  refine .look fun _ ↦ .look fun a ↦ ?_
  exact createBignum_realizes _

theorem bigCmp_implements : Action.Implements bigCmp Builtin.bigCmp := by
  intro receiver arguments site
  refine .look fun _ ↦ .look fun a ↦ .look fun b ↦ ?_
  rfl

theorem bigStr_implements : Action.Implements bigStr Builtin.bigStr := by
  intro receiver arguments site
  refine .look fun _ ↦ .look fun a ↦ ?_
  exact create_realizes _

/-! ## Tables of actions -/

/-- Actions by number implement host functions by number, under the same names. -/
def Agree : List (String × Action) → List (String × Native) → Prop :=
  List.Forall₂ fun entry other ↦ entry.1 = other.1 ∧ entry.2.Implements other.2

/-- Actions and host functions of the same number belong together. -/
theorem Agree.getElem? {actions : List (String × Action)} {functions : List (String × Native)}
    (agree : Agree actions functions) (index : Nat) :
    (actions[index]? = none ∧ functions[index]? = none) ∨
      ∃ name action function, actions[index]? = some (name, action) ∧
        functions[index]? = some (name, function) ∧ Action.Implements action function := by
  unfold Agree at agree
  induction agree generalizing index with
  | nil => exact .inl ⟨rfl, rfl⟩
  | @cons entry other _ _ hhead _ ih =>
    cases index with
    | succ index => exact ih index
    | zero =>
      obtain ⟨name, action⟩ := entry
      obtain ⟨_, function⟩ := other
      obtain ⟨rfl, himplements⟩ := hhead
      exact .inr ⟨name, action, function, rfl, rfl, himplements⟩

/-- The standard actions implement the standard host functions. -/
theorem builtins_agree : Agree builtins Builtin.all := by
  have hnew (object : HeapObject) :
      Action.Implements (fun _ _ ↦ create object) fun call ↦ call.alloc object :=
    fun _ _ _ ↦ create_realizes object
  simp only [Agree, builtins, Builtin.all, List.forall₂_cons, List.forall₂_nil_left_iff, true_and,
    and_true, print_implements, len_implements, push_implements, pop_implements, big_implements,
    bigBinary_implements, bigShift_implements, bigNeg_implements, bigCmp_implements,
    bigStr_implements]
  exact ⟨hnew _, hnew _, hnew _⟩

/-! ## Failures -/

theorem exists_implements {entry : String × Action} (h : entry ∈ builtins) :
    ∃ function, (entry.1, function) ∈ Builtin.all ∧ Action.Implements entry.2 function := by
  obtain ⟨index, hindex⟩ := List.mem_iff_getElem?.1 h
  rcases builtins_agree.getElem? index with
    ⟨hnone, -⟩ | ⟨name, action, function, hentry, hfunction, himplements⟩
  · rw [hindex] at hnone
    cases hnone
  · rw [hindex] at hentry
    cases hentry
    exact ⟨function, List.mem_of_getElem? hfunction, himplements⟩

section Failures

variable {receiver : Value} {arguments : List Value} {site later : Site} {cause : NativeError}

/-- A clean host function fails before it changes anything, and so do its implementations. -/
theorem Action.Implements.eq_of_error {action : Action} {function : Native}
    (implements : action.Implements function) (clean : function.Clean)
    (h : (action receiver arguments).on site = (.error cause, later)) : later = site := by
  have hon : (action receiver arguments).on site = _ := implements receiver arguments site
  rw [hon] at h
  cases hresult : function (site.call receiver arguments) with
  | error found =>
    rw [hresult] at h
    exact (Prod.mk.inj h).2.symm
  | ok result =>
    obtain ⟨value, hvalue⟩ := (clean _).of_ok hresult
    rw [hresult] at h
    have hanswer : result.answer = .error cause := (Prod.mk.inj h).1
    rw [hvalue] at hanswer
    cases hanswer

theorem print_cutShort (h : (print receiver arguments).on site = (.error cause, later)) :
    later.heap = site.heap ∧ Output.CutShort (Builtin.printed (site.call receiver arguments))
      site.output later.output := by
  have hhanded :=
    Output.write_handed [Builtin.line (site.call receiver arguments), "\n"] site.output
  rw [on_print] at h
  generalize Output.write _ site.output = written at h hhanded
  obtain ⟨_ | _, output⟩ := written
  · cases h
    exact ⟨rfl, hhanded⟩
  · cases h

/-- A standard host function that fails has changed nothing, unless it prints: then a part of the
line may be written. -/
theorem eq_or_cutShort_of_error {entry : String × Action} (hentry : entry ∈ builtins)
    (h : (entry.2 receiver arguments).on site = (.error cause, later)) :
    later = site ∨ entry.1 = "print" ∧ later.heap = site.heap ∧
      Output.CutShort (Builtin.printed (site.call receiver arguments)) site.output
        later.output := by
  obtain ⟨function, hfunction, implements⟩ := exists_implements hentry
  rcases Builtin.all_clean _ hfunction with hprint | hclean
  · obtain ⟨hname, rfl⟩ := Prod.mk.inj hprint
    have hsame : (entry.2 receiver arguments).on site = (print receiver arguments).on site :=
      (implements receiver arguments site).trans (print_implements receiver arguments site).symm
    rw [hsame] at h
    exact .inr ⟨hname, print_cutShort h⟩
  · exact .inl (implements.eq_of_error hclean h)

end Failures

end InPlace

end RegisterMachine
