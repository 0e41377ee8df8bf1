import Mathlib.Data.List.Forall2
import Mathlib.Data.List.Induction
import RegisterMachine.Instruction.Writer
import RegisterMachine.Proofs.InPlace.Work
import RegisterMachine.Proofs.Instruction.Word

/-!
# Code with labels, by its history

What a writer makes of a sequence of operations is told from the sequence alone. Every operation
that succeeds in emitting leaves one word behind, which either stands as it is or refers to a
label; a label has the place where it was last bound. Finished code has the word of every emission,
with the places of the labels in the immediates that refer to them and nowhere else.

The operations are given as work in place, so that one that fails might have left something behind.
-/

namespace RegisterMachine

/-! ## Immediates that hold a place -/

namespace Opcode

variable {op : Opcode} {register : UInt8}

/-- The opcodes with an immediate, which can be the place of a label. -/
def TakesPlace (op : Opcode) : Prop :=
  op.shape = .imm ∨ op.shape = .immReg

instance : Decidable op.TakesPlace :=
  inferInstanceAs (Decidable (_ ∨ _))

/-- The operands that lead to a place, with the register if the layout has one. -/
def placeOperands (op : Opcode) (register : UInt8) (place : UInt16) : Operands :=
  match op.shape with
  | .immReg => .immReg register place
  | _ => .imm place

theorem shape_placeOperands_iff {place : UInt16} :
    (op.placeOperands register place).shape = op.shape ↔ op.TakesPlace := by
  unfold placeOperands TakesPlace
  cases op.shape <;> simp [Operands.shape]

theorem placeOperands_cases (op : Opcode) (register : UInt8) :
    op.placeOperands register = .imm ∨ op.placeOperands register = .immReg register := by
  unfold placeOperands
  cases op.shape with
  | immReg => exact .inr rfl
  | _ => exact .inl rfl

end Opcode

namespace CodeWriter

/-- Writing a place into a word replaces the immediate and nothing else. -/
theorem patch_placeOperands (op : Opcode) (register : UInt8) {place : Nat}
    (near : place < 2 ^ 16) :
    patch (Instruction.mk op.byte (op.placeOperands register 0)).encode place =
      (Instruction.mk op.byte (op.placeOperands register (UInt16.ofNat place))).encode := by
  have hplace : UInt32.ofNat place = (UInt16.ofNat place).toUInt32 := by
    apply UInt32.toNat_inj.1
    rw [UInt16.toNat_toUInt32, UInt16.toNat_ofNat', UInt32.toNat_ofNat']
    omega
  have hmask : ∀ i < 32, (0xffff0000#32).getLsbD i = decide (16 ≤ i) := by decide +kernel
  rw [patch, hplace]
  apply UInt32.toBitVec_inj.1
  apply BitVec.eq_of_getLsbD_eq
  intro i hi
  rcases op.placeOperands_cases register with h | h <;> rw [h] <;>
    simp [Instruction.encode, Operands.fields, hmask i hi] <;> grind

/-! ## Operations in place -/

open Work

/-- Emits a word, and says where. -/
def putWord (word : UInt32) : Work CodeWriter EncodeError Nat := do
  change fun writer ↦ { writer with code := writer.code.push word }
  get fun writer ↦ writer.code.size - 1

/-- Emits an instruction. -/
def put (op : Opcode) (operands : Operands) : Work CodeWriter EncodeError Nat := do
  let ins ← look fun _ ↦ Instruction.make op operands
  putWord ins.encode

/-- Emits an instruction whose immediate will be the place of a label. -/
def putToLabel (op : Opcode) (register : UInt8) (label : Nat) :
    Work CodeWriter EncodeError Nat := do
  let operands :=
    match op.shape with
    | .immReg => Operands.immReg register 0
    | _ => Operands.imm 0
  let index ← put op operands
  change fun writer ↦ { writer with uses := writer.uses.push (index, label) }
  return index

theorem on_putWord (word : UInt32) (writer : CodeWriter) :
    (putWord word).on writer = (.ok (writer.emitWord word).1, (writer.emitWord word).2) := by
  simp [putWord, on_bind, emitWord, position]

theorem put_realizes (op : Opcode) (operands : Operands) (writer : CodeWriter) :
    (put op operands).Realizes (fun made ↦ (.ok made.1, made.2)) writer
      (writer.emit op operands) :=
  .look fun ins ↦ on_putWord ins.encode writer

theorem putToLabel_realizes (op : Opcode) (register : UInt8) (label : Nat) (writer : CodeWriter) :
    (putToLabel op register label).Realizes (fun made ↦ (.ok made.1, made.2)) writer
      (writer.emitToLabel op register label) :=
  (put_realizes op _ writer).andThen fun _ ↦ rfl

/-! ## Operations and what they leave behind -/

/-- An operation on a writer. -/
inductive Operation where
  | newLabel
  | bind (label : Nat)
  | emit (op : Opcode) (operands : Operands)
  | emitInt (register : UInt8) (value : Int)
  | emitWord (word : UInt32)
  | emitToLabel (op : Opcode) (register : UInt8) (label : Nat)
  deriving DecidableEq

/-- What an emission leaves behind: a word that stands as it is, or an instruction whose immediate
refers to a label. -/
inductive Emission where
  | word (word : UInt32)
  | reference (op : Opcode) (register : UInt8) (label : Nat) (takes : op.TakesPlace)

namespace Operation

/-- The label that an operation binds or refers to. -/
def label? : Operation → Option Nat
  | .bind label | .emitToLabel _ _ label => some label
  | _ => none

/-- What an operation does in place. -/
def work : Operation → Work CodeWriter EncodeError Unit
  | .newLabel => change fun writer ↦ { writer with labels := writer.labels.push none }
  | .bind label => change fun writer ↦
    { writer with labels := writer.labels.setIfInBounds label (some writer.code.size) }
  | .emit op operands => do let _ ← put op operands
  | .emitInt register value => do
    let _ ← put .loadInt (.immReg register (UInt16.ofInt value))
  | .emitWord word => do let _ ← putWord word
  | .emitToLabel op register label => do let _ ← putToLabel op register label

/-- The writer after an operation. -/
def perform (writer : CodeWriter) : Operation → Except EncodeError CodeWriter
  | .newLabel => .ok writer.newLabel.2
  | .bind label => .ok (writer.bind label)
  | .emit op operands => (writer.emit op operands).map Prod.snd
  | .emitInt register value => (writer.emitInt register value).map Prod.snd
  | .emitWord word => .ok (writer.emitWord word).2
  | .emitToLabel op register label => (writer.emitToLabel op register label).map Prod.snd

/-- What an operation leaves behind, if it emits and its operands suit its opcode. -/
def emission? : Operation → Option Emission
  | .newLabel | .bind _ => none
  | .emit op operands =>
    if operands.shape = op.shape then some (.word (Instruction.mk op.byte operands).encode)
    else none
  | .emitInt register value =>
    some (.word
      (Instruction.mk Opcode.loadInt.byte (.immReg register (UInt16.ofInt value))).encode)
  | .emitWord word => some (.word word)
  | .emitToLabel op register label =>
    if takes : op.TakesPlace then some (.reference op register label takes) else none

theorem work_realizes (operation : Operation) (writer : CodeWriter) :
    operation.work.Realizes (fun later ↦ (.ok (), later)) writer (operation.perform writer) := by
  cases operation with
  | newLabel | bind => rfl
  | emit op operands => exact (put_realizes op operands writer).discard
  | emitInt register value => exact (put_realizes .loadInt _ writer).discard
  | emitWord word => exact on_bind_of_ok (on_putWord word writer)
  | emitToLabel op register label => exact (putToLabel_realizes op register label writer).discard

/-- What an operation leaves behind, whether it succeeds or fails. -/
theorem work_snd (operation : Operation) (writer : CodeWriter) :
    (operation.work.on writer).2 = (operation.perform writer).toOption.getD writer := by
  rw [(work_realizes operation writer : _ = _)]
  cases operation.perform writer <;> rfl

theorem perform_eq_error {operation : Operation} {writer : CodeWriter} {cause : EncodeError}
    (failed : (operation.work.on writer).1 = .error cause) :
    operation.perform writer = .error cause := by
  rw [(work_realizes operation writer : _ = _)] at failed
  cases hperform : operation.perform writer with
  | ok later =>
    rw [hperform] at failed
    cases failed
  | error found =>
    rw [hperform] at failed
    cases failed
    rfl

end Operation

/-- The writer after a history of operations in place, of which some may have failed. -/
def built (history : List Operation) : CodeWriter :=
  history.foldl (fun writer operation ↦ (operation.work.on writer).2) {}

/-- What a history has emitted, in order. -/
def emissions (history : List Operation) : List Emission :=
  history.filterMap Operation.emission?

/-- Every label is used after it was made. -/
def Own (history : List Operation) : Prop :=
  ∀ index (h : index < history.length), ∀ label ∈ history[index].label?,
    label < (history.take index).count .newLabel

instance (history : List Operation) : Decidable (Own history) :=
  inferInstanceAs (Decidable (∀ index (_ : index < _), _))

/-- A label was last bound before the word of a place. -/
def LastBound (history : List Operation) (label place : Nat) : Prop :=
  ∃ before after, history = before ++ .bind label :: after ∧ .bind label ∉ after ∧
    (emissions before).length = place

namespace Emission

/-- The word of an emission before its label has a place. -/
def draft : Emission → UInt32
  | .word emitted => emitted
  | .reference op register _ _ => (Instruction.mk op.byte (op.placeOperands register 0)).encode

/-- The word of an emission in finished code. -/
inductive Becomes (history : List Operation) : Emission → UInt32 → Prop
  /-- A plain word stays. -/
  | stays (word : UInt32) : Becomes history (.word word) word
  /-- An instruction that refers to a label leads to where the label was last bound. -/
  | leads {op : Opcode} {register : UInt8} {label place : Nat} {takes : op.TakesPlace}
      {word : UInt32} (bound : LastBound history label place) (near : place < 2 ^ 16)
      (written : word =
        (Instruction.mk op.byte (op.placeOperands register (UInt16.ofNat place))).encode)
      (read : Instruction.decode word =
        ⟨op.byte, op.placeOperands register (UInt16.ofNat place)⟩) :
      Becomes history (.reference op register label takes) word

/-- Why an emission has no word in finished code. -/
inductive Fails (history : List Operation) : Emission → EncodeError → Prop
  /-- Its label was never bound. -/
  | unbound {op : Opcode} {register : UInt8} {label : Nat} {takes : op.TakesPlace}
      (never : .bind label ∉ history) :
      Fails history (.reference op register label takes) (.unboundLabel label)
  /-- Its label was last bound where an immediate cannot reach. -/
  | far {op : Opcode} {register : UInt8} {label place : Nat} {takes : op.TakesPlace}
      (bound : LastBound history label place) (beyond : 2 ^ 16 ≤ place) :
      Fails history (.reference op register label takes) (.targetOutOfRange place)

end Emission

/-! ## One more operation -/

variable {history : List Operation} {operation : Operation} {writer : CodeWriter}
  {emission : Emission} {label place : Nat}

theorem built_concat (history : List Operation) (operation : Operation) :
    built (history ++ [operation]) =
      (operation.perform (built history)).toOption.getD (built history) := by
  simp [built, Operation.work_snd]

/-- What fails might as well not have been tried. -/
theorem built_of_error {before after : List Operation} {cause : EncodeError}
    (failed : (operation.work.on (built before)).1 = .error cause) :
    built (before ++ operation :: after) = built (before ++ after) := by
  have hafter : built (before ++ [operation]) = built before := by
    rw [built_concat, Operation.perform_eq_error failed]
    rfl
  rw [List.append_cons, built, List.foldl_append, ← built, hafter, built, ← List.foldl_append,
    ← built]

theorem emissions_concat (history : List Operation) (operation : Operation) :
    emissions (history ++ [operation]) = emissions history ++ operation.emission?.toList := by
  rw [emissions, List.filterMap_append, ← emissions]
  cases h : operation.emission? <;> simp [h]

theorem own_of_concat (own : Own (history ++ [operation])) : Own history := by
  intro index hindex
  have h := own index (by simp; omega)
  rwa [List.getElem_append_left hindex, List.take_append_of_le_length (Nat.le_of_lt hindex)] at h

theorem label_lt_of_own (own : Own (history ++ [operation])) (h : label ∈ operation.label?) :
    label < history.count .newLabel := by
  simpa using own history.length (by simp) label (by simpa using h)

/-- Only a later binding of a label takes its place from it. -/
theorem lastBound_concat_iff :
    LastBound (history ++ [operation]) label place ↔
      if operation = .bind label then (emissions history).length = place
      else LastBound history label place := by
  constructor
  · rintro ⟨before, after, hsplit, hafter, hplace⟩
    rcases List.eq_nil_or_concat' after with rfl | ⟨after, last, rfl⟩
    · obtain ⟨rfl, hlast⟩ := List.append_inj' hsplit rfl
      obtain rfl : operation = .bind label := (List.cons.inj hlast).1
      rwa [if_pos rfl]
    · rw [← List.cons_append, ← List.append_assoc] at hsplit
      obtain ⟨rfl, hlast⟩ := List.append_inj' hsplit rfl
      obtain rfl : operation = last := (List.cons.inj hlast).1
      have hne : operation ≠ .bind label := fun h ↦ hafter (by simp [h])
      rw [if_neg hne]
      exact ⟨before, after, rfl, fun h ↦ hafter (by simp [h]), hplace⟩
  · intro h
    split at h
    · next hbind => exact ⟨history, [], by rw [hbind], by simp, h⟩
    · next hne =>
      obtain ⟨before, after, rfl, hafter, hplace⟩ := h
      exact ⟨before, after ++ [operation], by simp,
        by simpa using ⟨hafter, fun h ↦ hne h.symm⟩, hplace⟩

/-- A label that is ever bound was bound for the last time. -/
theorem exists_lastBound_iff :
    (∃ place, LastBound history label place) ↔ .bind label ∈ history := by
  induction history using List.reverseRecOn with
  | nil => simp [LastBound]
  | append_singleton history operation ih =>
    simp only [lastBound_concat_iff, List.mem_append, List.mem_singleton]
    split
    · next hbind => simp [hbind]
    · next hne => rw [ih, or_iff_left (fun h ↦ hne h.symm)]

/-! ## What the writer holds -/

/-- The words that refer to a label, with the label. -/
def references (start : Nat) : List Emission → List (Nat × Nat)
  | [] => []
  | .word _ :: rest => references (start + 1) rest
  | .reference _ _ label _ :: rest => (start, label) :: references (start + 1) rest

theorem references_append (start : Nat) (before after : List Emission) :
    references start (before ++ after) =
      references start before ++ references (start + before.length) after := by
  induction before generalizing start with
  | nil => rfl
  | cons emission rest ih =>
    cases emission <;> simp [references, ih, Nat.add_assoc, Nat.add_comm 1]

/-- A writer holds what a history tells. -/
structure Written (history : List Operation) (writer : CodeWriter) : Prop where
  code : writer.code.toList = (emissions history).map Emission.draft
  labels : writer.labels.size = history.count .newLabel
  bound : ∀ label place, writer.labels[label]?.join = some place ↔ LastBound history label place
  uses : writer.uses.toList = references 0 (emissions history)

/-- The writer after an emission. -/
def add (writer : CodeWriter) (emission : Emission) : CodeWriter :=
  let writer' := (writer.emitWord emission.draft).2
  match emission with
  | .word _ => writer'
  | .reference _ _ label _ => { writer' with uses := writer.uses.push (writer.position, label) }

theorem emit_eq (writer : CodeWriter) (op : Opcode) (operands : Operands) :
    writer.emit op operands =
      if operands.shape = op.shape then
        .ok (writer.emitWord (Instruction.mk op.byte operands).encode)
      else .error (.shapeMismatch op.name op.shape operands.shape) := by
  unfold emit Instruction.make
  split <;> rfl

theorem emitToLabel_eq (writer : CodeWriter) (op : Opcode) (register : UInt8) (label : Nat) :
    writer.emitToLabel op register label =
      (writer.emit op (op.placeOperands register 0)).map fun emitted ↦
        (emitted.1, { emitted.2 with uses := emitted.2.uses.push (emitted.1, label) }) := by
  unfold emitToLabel Opcode.placeOperands
  cases op.shape <;> rfl

/-- An operation that neither makes nor binds a label adds what it emits, if anything. -/
theorem perform_eq_add (writer : CodeWriter) (hmake : operation ≠ .newLabel)
    (hbind : ∀ label, operation ≠ .bind label) :
    (operation.perform writer).toOption = operation.emission?.map writer.add := by
  cases operation with
  | newLabel => exact absurd rfl hmake
  | bind label => exact absurd rfl (hbind label)
  | emit op operands =>
    rw [Operation.perform, Operation.emission?, emit_eq]
    split <;> rfl
  | emitInt register value => rfl
  | emitWord word => rfl
  | emitToLabel op register label =>
    rw [Operation.perform, Operation.emission?, emitToLabel_eq, emit_eq]
    by_cases takes : op.TakesPlace
    · rw [if_pos (Opcode.shape_placeOperands_iff.2 takes), dif_pos takes]
      rfl
    · rw [if_neg (mt Opcode.shape_placeOperands_iff.1 takes), dif_neg takes]
      rfl

namespace Written

theorem empty : Written [] {} where
  code := rfl
  labels := rfl
  bound := by simp [LastBound]
  uses := rfl

theorem position_eq (written : Written history writer) :
    writer.position = (emissions history).length := by
  rw [position, ← Array.length_toList, written.code, List.length_map]

theorem newLabel (written : Written history writer) :
    Written (history ++ [.newLabel]) writer.newLabel.2 where
  code := by simp [written.code, CodeWriter.newLabel, emissions_concat, Operation.emission?]
  labels := by simp [written.labels, CodeWriter.newLabel]
  uses := by simp [written.uses, CodeWriter.newLabel, emissions_concat, Operation.emission?]
  bound label place := by
    rw [lastBound_concat_iff, if_neg nofun, ← written.bound]
    simp only [CodeWriter.newLabel, Array.getElem?_push]
    split
    · next h => simp [h]
    · rfl

theorem bind (written : Written history writer) (made : label < history.count .newLabel) :
    Written (history ++ [.bind label]) (writer.bind label) where
  code := by simp [written.code, CodeWriter.bind, emissions_concat, Operation.emission?]
  labels := by simp [written.labels, CodeWriter.bind]
  uses := by simp [written.uses, CodeWriter.bind, emissions_concat, Operation.emission?]
  bound other place := by
    have hmade : label < writer.labels.size := written.labels ▸ made
    rw [lastBound_concat_iff, ← written.bound, ← written.position_eq]
    simp only [CodeWriter.bind, Array.getElem?_setIfInBounds, if_pos hmade,
      Operation.bind.injEq]
    split
    · simp
    · rfl

/-- The remaining operations emit or change nothing. -/
theorem other (written : Written history writer) (hmake : operation ≠ .newLabel)
    (hbind : ∀ label, operation ≠ .bind label) :
    Written (history ++ [operation]) ((operation.emission?.map writer.add).getD writer) := by
  have hbound (label place : Nat) :
      LastBound (history ++ [operation]) label place ↔ LastBound history label place := by
    rw [lastBound_concat_iff, if_neg (hbind label)]
  have hcount : (history ++ [operation]).count .newLabel = history.count .newLabel := by
    simp [hmake]
  have hemissions := emissions_concat history operation
  cases hemits : operation.emission? with
  | none =>
    rw [hemits, Option.toList_none, List.append_nil] at hemissions
    exact ⟨hemissions ▸ written.code, hcount ▸ written.labels,
      fun label place ↦ (written.bound label place).trans (hbound label place).symm,
      hemissions ▸ written.uses⟩
  | some emission =>
    rw [hemits, Option.toList_some] at hemissions
    refine ⟨?code, ?labels, fun label place ↦ ?bound, ?uses⟩
    case code =>
      rw [hemissions, List.map_append, ← written.code]
      cases emission <;> simp [add, emitWord]
    case labels =>
      rw [hcount, ← written.labels]
      cases emission <;> rfl
    case bound =>
      rw [hbound, ← written.bound]
      cases emission <;> rfl
    case uses =>
      rw [hemissions, references_append, ← written.uses, ← written.position_eq]
      cases emission <;> simp [add, emitWord, references]

theorem concat (written : Written history writer) (own : Own (history ++ [operation])) :
    Written (history ++ [operation]) ((operation.perform writer).toOption.getD writer) := by
  by_cases hmake : operation = .newLabel
  · subst hmake
    exact written.newLabel
  by_cases hbind : ∃ label, operation = .bind label
  · obtain ⟨label, rfl⟩ := hbind
    exact written.bind (label_lt_of_own own rfl)
  · have hbind' : ∀ label, operation ≠ .bind label := fun label h ↦ hbind ⟨label, h⟩
    rw [perform_eq_add writer hmake hbind']
    exact written.other hmake hbind'

end Written

/-- The writer of a history holds what the history tells. -/
theorem written_built (own : Own history) : Written history (built history) := by
  induction history using List.reverseRecOn with
  | nil => exact .empty
  | append_singleton history operation ih =>
    rw [built_concat]
    exact (ih (own_of_concat own)).concat own

/-! ## Finishing -/

/-- The word of an emission once the labels have their places. -/
def settle (labels : Array (Option Nat)) : Emission → Except EncodeError UInt32
  | .word emitted => .ok emitted
  | .reference op register label takes =>
    match labels[label]?.join with
    | none => .error (.unboundLabel label)
    | some place =>
      if place < 2 ^ 16 then .ok (patch (Emission.reference op register label takes).draft place)
      else .error (.targetOutOfRange place)

/-- Resolving the uses in order settles the emissions in order: the words before the next use are
finished, those from it on are drafts. -/
theorem foldlM_resolve (labels : Array (Option Nat)) (rest : List Emission) (done : List UInt32) :
    (references done.length rest).foldlM (resolve labels)
        (done ++ rest.map Emission.draft).toArray =
      (rest.mapM (settle labels)).map fun words ↦ (done ++ words).toArray := by
  induction rest generalizing done with
  | nil => rfl
  | cons emission rest ih =>
    have hstep (word : UInt32) : (references (done.length + 1) rest).foldlM (resolve labels)
        (done ++ word :: rest.map Emission.draft).toArray =
      (rest.mapM (settle labels)).map fun words ↦ (done ++ word :: words).toArray := by
      simpa using ih (done ++ [word])
    rw [List.mapM_cons]
    cases emission with
    | word emitted =>
      refine (hstep emitted).trans ?_
      cases rest.mapM (settle labels) <;> rfl
    | reference op register label takes =>
      rw [references, List.foldlM_cons, resolve, settle]
      cases labels[label]?.join with
      | none => rfl
      | some place =>
        dsimp only
        split
        · have hmodify (draft : UInt32) :
              (done ++ draft :: rest.map Emission.draft).modify done.length (patch · place) =
                done ++ patch draft place :: rest.map Emission.draft := by
            simp [List.modify_eq_set_getElem?]
          rw [List.modify_toArray, List.map_cons, hmodify]
          refine (hstep _).trans ?_
          cases rest.mapM (settle labels) <;> rfl
        · rfl

namespace Written

theorem finish_eq (written : Written history writer) :
    writer.finish = ((emissions history).mapM (settle writer.labels)).map List.toArray := by
  have hcode : writer.code = ((emissions history).map Emission.draft).toArray := by
    rw [← written.code, Array.toArray_toList]
  rw [finish, written.uses, hcode]
  exact foldlM_resolve writer.labels (emissions history) []

theorem settle_eq_ok_iff (written : Written history writer) {word : UInt32} :
    settle writer.labels emission = .ok word ↔ emission.Becomes history word := by
  cases emission with
  | word emitted =>
    constructor
    · intro h
      obtain rfl : emitted = word := Except.ok.inj h
      exact .stays emitted
    · rintro ⟨⟩
      rfl
  | reference op register label takes =>
    have hread (value : UInt16) : Instruction.decode
        (Instruction.mk op.byte (op.placeOperands register value)).encode =
          ⟨op.byte, op.placeOperands register value⟩ :=
      Instruction.decode_encode
        ((Opcode.shape_placeOperands_iff.2 takes).trans op.shapeOfByte_byte.symm)
    rw [settle]
    constructor
    · intro h
      split at h
      · cases h
      · next place hplace =>
        split at h
        · next near =>
          have hword := patch_placeOperands op register near
          obtain rfl := (Except.ok.inj h).symm.trans hword
          exact .leads ((written.bound label place).1 hplace) near rfl (hread _)
        · cases h
    · rintro (_ | ⟨bound, near, rfl, -⟩)
      rw [(written.bound label _).2 bound]
      exact (if_pos near).trans (congrArg Except.ok (patch_placeOperands op register near))

theorem settle_eq_error_iff (written : Written history writer) {cause : EncodeError} :
    settle writer.labels emission = .error cause ↔ emission.Fails history cause := by
  cases emission with
  | word emitted => exact ⟨nofun, nofun⟩
  | reference op register label takes =>
    rw [settle]
    constructor
    · intro h
      split at h
      · next hnone =>
        obtain rfl := Except.error.inj h
        refine .unbound fun hmem ↦ ?_
        obtain ⟨place, hplace⟩ := exists_lastBound_iff.2 hmem
        rw [(written.bound label place).2 hplace] at hnone
        cases hnone
      · next place hplace =>
        split at h
        · cases h
        · next beyond =>
          obtain rfl := Except.error.inj h
          exact .far ((written.bound label place).1 hplace) (Nat.le_of_not_lt beyond)
    · rintro (never | ⟨bound, beyond⟩)
      · cases hplace : writer.labels[label]?.join with
        | none => rfl
        | some place =>
          exact absurd (exists_lastBound_iff.1 ⟨place, (written.bound label place).1 hplace⟩) never
      · rw [(written.bound label _).2 bound]
        exact if_neg (Nat.not_lt.2 beyond)

end Written

/-- Before finishing, the code has the word of every emission in order, with zero for the place of
a label. Finishing succeeds with the words of the emissions, where those that refer to labels lead
to where these were last bound and the others stay; or it fails with the error of the first emission
that has no such word. An operation that fails leaves the writer as it was, and so no trace. -/
theorem finish_built (own : Own history) :
    (built history).code.toList = (emissions history).map Emission.draft ∧
      (∀ code, (built history).finish = .ok code ↔
        List.Forall₂ (Emission.Becomes history) (emissions history) code.toList) ∧
      (∀ code, (built history).finish = .ok code → code.size = (built history).position) ∧
      (∀ cause, (built history).finish = .error cause ↔
        ∃ before emission after, emissions history = before ++ emission :: after ∧
          (∀ earlier ∈ before, ∀ cause, ¬ earlier.Fails history cause) ∧
          emission.Fails history cause) ∧
      ∀ before operation after cause, history = before ++ operation :: after →
        (operation.work.on (built before)).1 = .error cause →
          (operation.work.on (built before)).2 = built before ∧
            built history = built (before ++ after) := by
  have written := written_built own
  have hok (code : Array UInt32) : (built history).finish = .ok code ↔
      List.Forall₂ (Emission.Becomes history) (emissions history) code.toList := by
    rw [written.finish_eq, map_eq_ok_iff]
    simp only [mapM_eq_ok_iff, written.settle_eq_ok_iff]
    constructor
    · rintro ⟨words, h, rfl⟩
      exact h
    · intro h
      exact ⟨code.toList, h, Array.toArray_toList⟩
  refine ⟨written.code, hok, fun code h ↦ ?size, fun cause ↦ ?fails, ?trace⟩
  case size =>
    rw [written.position_eq, ((hok code).1 h).length_eq, Array.length_toList]
  case fails =>
    have hsettles (emission : Emission) :
        (∃ word, settle (built history).labels emission = .ok word) ↔
          ∀ cause, ¬ emission.Fails history cause := by
      simp only [← written.settle_eq_error_iff]
      cases settle (built history).labels emission <;> simp
    rw [written.finish_eq, map_eq_error_iff, mapM_eq_error_iff]
    simp only [hsettles, written.settle_eq_error_iff]
  case trace =>
    rintro before operation after cause rfl failed
    refine ⟨?_, built_of_error failed⟩
    rw [Operation.work_snd, Operation.perform_eq_error failed]
    rfl

/-- A jump forward, a label that is bound again before a jump back to it, a word as it is, and an
instruction that its operands do not suit. -/
def looping : List Operation :=
  [.newLabel, .newLabel, .bind 0, .emitToLabel (.jumpIfZero .eq) 2 1, .emit .jump .none,
    .emitWord 0xffffffff, .bind 0, .emitToLabel .jump 2 0, .emit .returnNull .none, .bind 1]

theorem finish_built_looping :
    Own looping ∧
      List.Forall₂ (Emission.Becomes looping) (emissions looping)
        [0x43020004, 0xffffffff, 0x3c000002, 0x5b000000] := by
  have own : Own looping := by decide
  have hfinish : (built looping).finish =
      .ok #[0x43020004, 0xffffffff, 0x3c000002, 0x5b000000] := eq_ok_of_toOption (by decide +kernel)
  exact ⟨own, ((finish_built own).2.1 _).1 hfinish⟩

end CodeWriter

end RegisterMachine
