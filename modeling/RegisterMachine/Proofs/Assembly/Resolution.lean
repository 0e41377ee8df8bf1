import Mathlib.Data.List.Nodup
import RegisterMachine.Assembly.Assemble
import RegisterMachine.Proofs.Assembly.Line
import RegisterMachine.Proofs.Program.Pool

/-!
# Names and what they stand for

Lines define names: a label stands for the number of instructions before its line, a constant for an
index of the pool, a function for an index of the table. What a name stands for is said here over
the contents of all lines, so a use may come before the definition. The assembler gathers lines one
by one; the invariant of this run is that its tables are those of the lines so far, and that every
symbol stands for what the lines say. A program that it returns resolves every line in this sense.
-/

namespace RegisterMachine

open Text

namespace Operands

/-- The immediate operand, if there is one. -/
def immediates : Operands → List UInt16
  | .imm value | .immReg _ value => [value]
  | _ => []

end Operands

namespace Assembly

/-! ## The contents of lines -/

namespace Content

/-- The instruction of a line, with its operands as written. -/
def instruction? (content : Content) : Option (Opcode × List String) :=
  match content.statement with
  | some (.instruction op operands) => some (op, operands)
  | _ => none

/-- The constant of a line, with its name. -/
def constant? (content : Content) : Option (String × Constant) :=
  match content.statement with
  | some (.constant name value) => some (name, value)
  | _ => none

/-- The function of a line: its name, the name of its entry, and the number of its parameters. -/
def function? (content : Content) : Option (String × String × UInt8) :=
  match content.statement with
  | some (.function name entry paramCount) => some (name, entry, paramCount)
  | _ => none

/-- The names that a line defines. -/
def names (content : Content) : List String :=
  content.label.toList ++ content.constant?.toList.map Prod.fst ++
    content.function?.toList.map Prod.fst

end Content

section Tables

variable (contents : List Content)

/-- The instructions of lines. -/
def instructionsOf : List (Opcode × List String) :=
  contents.filterMap Content.instruction?

/-- The functions of lines. -/
def functionsOf : List (String × String × UInt8) :=
  contents.filterMap Content.function?

/-- The constants of lines, added to a pool in order. -/
def poolOf : ConstantPool :=
  (contents.filterMap Content.constant?).foldl (fun pool entry ↦ (pool.add entry.2).2) {}

/-- The names that lines define. -/
def namesOf : List String :=
  contents.flatMap Content.names

end Tables

/-- What a name stands for. -/
inductive Denotes (contents : List Content) : String → Nat → Prop
  | label {before after : List Content} {content : Content} {name : String}
      (hcontents : contents = before ++ content :: after) (h : content.label = some name) :
      Denotes contents name (instructionsOf before).length
  | constant {before after : List Content} {content : Content} {name : String} {value : Constant}
      (hcontents : contents = before ++ content :: after)
      (h : content.constant? = some (name, value)) :
      Denotes contents name ((poolOf before).add value).1
  | function {before after : List Content} {content : Content} {name entry : String}
      {paramCount : UInt8} (hcontents : contents = before ++ content :: after)
      (h : content.function? = some (name, entry, paramCount)) :
      Denotes contents name (functionsOf before).length

/-- The value of an immediate: a number in the range of the field, negative only where the opcode
reads it with a sign, or what a name stands for. -/
inductive ImmediateValue (contents : List Content) (op : Opcode) : String → Int → Prop
  | literal {token : String} {value : Int} (hname : isIdentifier token.toList = false)
      (hread : readInteger? token.toList = some value)
      (hrange : (0 ≤ value ∧ value < 2 ^ 16) ∨
        (op = .loadInt ∧ -(2 ^ 15) ≤ value ∧ value < 0)) :
      ImmediateValue contents op token value
  | name {token : String} {value : Nat} (hname : isIdentifier token.toList = true)
      (hdenotes : Denotes contents token value) (hlt : value < 2 ^ 16) :
      ImmediateValue contents op token value

/-- A word that is an instruction with operands as written: registers, then an immediate, in the
fields of the layout, and nothing in the other bits. -/
structure Encodes (contents : List Content) (ins : Opcode × List String) (word : UInt32) :
    Prop where
  opcode : (Instruction.decode word).opcode? = some ins.1
  operands : ∃ registers immediates, ins.2 = registers ++ immediates ∧
    List.Forall₂ (fun token register ↦ RegisterText token.toList register) registers
      (Instruction.decode word).operands.registers ∧
    List.Forall₂ (fun token value ↦ ∃ k, ImmediateValue contents ins.1 token k ∧
      value = UInt16.ofInt k) immediates (Instruction.decode word).operands.immediates
  registers_lt : ∀ register ∈ (Instruction.decode word).operands.registers,
    register.toNat < registerCount
  unused : word &&& ins.1.shape.usedBits = word

/-- A program that has what lines say, with all names resolved. -/
structure Resolves (contents : List Content) (program : Program) : Prop where
  code : List.Forall₂ (Encodes contents) (instructionsOf contents) program.code.toList
  functions : List.Forall₂ (fun declared function ↦ function.name = declared.1 ∧
    Denotes contents declared.2.1 function.entry.toNat ∧ function.paramCount = declared.2.2)
    (functionsOf contents) program.functions.toList
  constants : program.constants = poolOf contents
  held : ∀ before content after name value, contents = before ++ content :: after →
    content.constant? = some (name, value) →
    ∃ entry, program.constants.get? ((poolOf before).add value).1 = some entry ∧
      (entry = value ∨ entry.equals value = true)
  names : (namesOf contents).Nodup

/-! ## Lines one by one -/

section Append

variable (before after : List Content) (content : Content)

theorem instructionsOf_concat :
    instructionsOf (before ++ [content]) =
      instructionsOf before ++ content.instruction?.toList := by
  rw [instructionsOf, List.filterMap_append, ← instructionsOf]
  cases h : content.instruction? <;> simp [h]

theorem functionsOf_concat :
    functionsOf (before ++ [content]) = functionsOf before ++ content.function?.toList := by
  rw [functionsOf, List.filterMap_append, ← functionsOf]
  cases h : content.function? <;> simp [h]

theorem namesOf_concat : namesOf (before ++ [content]) = namesOf before ++ content.names := by
  simp [namesOf]

theorem poolOf_append : poolOf (before ++ after) =
    (after.filterMap Content.constant?).foldl (fun pool entry ↦ (pool.add entry.2).2)
      (poolOf before) := by
  rw [poolOf, List.filterMap_append, List.foldl_append, ← poolOf]

end Append

/-- Constants that follow leave the entries of a pool where they are. -/
theorem get?_foldl_add {pool : ConstantPool} {index : Nat} {entry : Constant}
    (h : pool.get? index = some entry) (added : List (String × Constant)) :
    (added.foldl (fun pool entry ↦ (pool.add entry.2).2) pool).get? index = some entry := by
  induction added generalizing pool with
  | nil => exact h
  | cons first rest ih => exact ih (ConstantPool.get?_add h)

theorem poolOf_held {before after : List Content} {content : Content} {name : String}
    {value : Constant} (h : content.constant? = some (name, value)) :
    ∃ entry, (poolOf (before ++ content :: after)).get? ((poolOf before).add value).1 =
      some entry ∧ (entry = value ∨ entry.equals value = true) := by
  obtain ⟨entry, hentry, hsame⟩ := (poolOf before).get?_add_index value
  refine ⟨entry, ?_, hsame⟩
  rw [poolOf_append, List.filterMap_cons, h]
  exact get?_foldl_add hentry _

theorem Denotes.append {contents : List Content} {name : String} {n : Nat}
    (h : Denotes contents name n) (more : List Content) : Denotes (contents ++ more) name n := by
  cases h with
  | label hcontents h => exact .label (by rw [hcontents, List.append_assoc, List.cons_append]) h
  | constant hcontents h =>
    exact .constant (by rw [hcontents, List.append_assoc, List.cons_append]) h
  | function hcontents h =>
    exact .function (by rw [hcontents, List.append_assoc, List.cons_append]) h

/-! ## Gathering -/

/-- Takes in the label of a line. -/
def Draft.addLabel (draft : Draft) : Option String → Except Problem Draft
  | some label => draft.define label draft.instructions.size
  | none => .ok draft

/-- The label of a line comes first, also if the rest cannot be understood. -/
theorem addLine_eq (draft : Draft) (line : Nat) (content : Line) :
    draft.addLine line content = draft.addLabel content.label >>= fun draft ↦
      content.statement >>= fun
        | some statement => draft.addStatement line statement
        | none => .ok draft := by
  rcases content with ⟨none | label, statement⟩ <;> rfl

theorem isSome_lookup_of_mem {entry : String × UInt16} {symbols : List (String × UInt16)}
    (h : entry ∈ symbols) : (symbols.lookup entry.1).isSome = true := by
  rw [List.lookup_isSome_iff]
  exact ⟨entry, h, by simp⟩

/-- A draft that has the tables of some lines, and symbols with given names that stand for what
the known lines say. While a line is taken in, its names are known before its tables are. -/
structure Gathers (contents known : List Content) (names : List String) (draft : Draft) :
    Prop where
  instructions : draft.instructions.toList.map (fun ins ↦ (ins.op, ins.operands)) =
    instructionsOf contents
  functions : draft.functions.toList.map
    (fun function ↦ (function.name, function.entry, function.paramCount)) = functionsOf contents
  constants : draft.constants = poolOf contents
  symbols : draft.symbols.reverse.map Prod.fst = names
  nodup : names.Nodup
  denotes : ∀ entry ∈ draft.symbols, Denotes known entry.1 entry.2.toNat

namespace Gathers

variable {contents known : List Content} {names : List String} {draft draft' : Draft}

theorem empty : Gathers [] [] [] {} where
  instructions := rfl
  functions := rfl
  constants := rfl
  symbols := rfl
  nodup := .nil
  denotes := nofun

theorem know (h : Gathers contents known names draft) (more : List Content) :
    Gathers contents (known ++ more) names draft :=
  { h with denotes := fun entry hentry ↦ (h.denotes entry hentry).append more }

theorem define (h : Gathers contents known names draft) {name : String} {value : Nat}
    (hdenotes : Denotes known name value) (hdefine : draft.define name value = .ok draft') :
    Gathers contents known (names ++ [name]) draft' := by
  unfold Draft.define at hdefine
  split at hdefine
  · cases hdefine
  · next hfits =>
    split at hdefine
    · cases hdefine
    · next hfresh =>
      cases hdefine
      have hvalue : (UInt16.ofNat value).toNat = value := by
        rw [UInt16.toNat_ofNat', Nat.mod_eq_of_lt (by omega)]
      have hnew : name ∉ names := by
        rw [← h.symbols, List.map_reverse, List.mem_reverse]
        intro hmem
        obtain ⟨entry, hentry, rfl⟩ := List.mem_map.1 hmem
        exact hfresh (isSome_lookup_of_mem hentry)
      refine { h with symbols := ?_, nodup := ?_, denotes := ?_ }
      · simp [← h.symbols]
      · rw [← List.concat_eq_append]
        exact List.Nodup.concat hnew h.nodup
      · intro entry hentry
        rcases List.mem_cons.1 hentry with rfl | hold
        · exact hvalue.symm ▸ hdenotes
        · exact h.denotes entry hold

variable {content : Content} {line : Nat}

/-- The label of a line stands for the place before the instruction of the line. -/
theorem label (h : Gathers contents (contents ++ [content]) names draft)
    (hlabel : draft.addLabel content.label = .ok draft') :
    Gathers contents (contents ++ [content]) (names ++ content.label.toList) draft' := by
  unfold Draft.addLabel at hlabel
  split at hlabel
  · next label heq =>
    have hsize : draft.instructions.size = (instructionsOf contents).length := by
      rw [← h.instructions, List.length_map, Array.length_toList]
    rw [hsize] at hlabel
    rw [heq]
    exact h.define (.label rfl heq) hlabel
  · next heq =>
    cases hlabel
    simpa [heq] using h

/-- The tables of a line are those before it, with what the line adds. -/
theorem extend (h : Gathers contents known names draft) (hsymbols : draft'.symbols = draft.symbols)
    (hinstructions : draft'.instructions.toList.map (fun ins ↦ (ins.op, ins.operands)) =
      draft.instructions.toList.map (fun ins ↦ (ins.op, ins.operands)) ++
        content.instruction?.toList)
    (hfunctions : draft'.functions.toList.map
        (fun function ↦ (function.name, function.entry, function.paramCount)) =
      draft.functions.toList.map
        (fun function ↦ (function.name, function.entry, function.paramCount)) ++
          content.function?.toList)
    (hconstants : draft'.constants =
      content.constant?.toList.foldl (fun pool entry ↦ (pool.add entry.2).2) draft.constants) :
    Gathers (contents ++ [content]) known names draft' where
  instructions := by rw [hinstructions, h.instructions, instructionsOf_concat]
  functions := by rw [hfunctions, h.functions, functionsOf_concat]
  constants := by
    rw [hconstants, h.constants, poolOf_append]
    cases hconstant : content.constant? <;> simp [hconstant]
  symbols := by rw [hsymbols, h.symbols]
  nodup := h.nodup
  denotes := by rw [hsymbols]; exact h.denotes

/-- A statement extends the tables, and its name stands for its place in them. -/
theorem statement {statement : Statement} (hcontent : content.statement = some statement)
    (h : Gathers contents (contents ++ [content]) (names ++ content.label.toList) draft)
    (hadd : draft.addStatement line statement = .ok draft') :
    Gathers (contents ++ [content]) (contents ++ [content]) (names ++ content.names) draft' := by
  cases statement with
  | constant name value =>
    have hconstant : content.constant? = some (name, value) := by
      simp [Content.constant?, hcontent]
    have hnames : content.names = content.label.toList ++ [name] := by
      simp [Content.names, Content.function?, hconstant, hcontent]
    have htables : Gathers (contents ++ [content]) (contents ++ [content])
        (names ++ content.label.toList)
        { draft with constants := (draft.constants.add value).2 } := by
      refine h.extend rfl ?_ ?_ ?_
      · simp [Content.instruction?, hcontent]
      · simp [Content.function?, hcontent]
      · simp [hconstant]
    rw [hnames, ← List.append_assoc]
    exact htables.define (h.constants ▸ .constant rfl hconstant) hadd
  | function name entry paramCount =>
    have hfunction : content.function? = some (name, entry, paramCount) := by
      simp [Content.function?, hcontent]
    have hnames : content.names = content.label.toList ++ [name] := by
      simp [Content.names, Content.constant?, hfunction, hcontent]
    have hsize : draft.functions.size = (functionsOf contents).length := by
      rw [← h.functions, List.length_map, Array.length_toList]
    have htables : Gathers (contents ++ [content]) (contents ++ [content])
        (names ++ content.label.toList)
        { draft with functions := draft.functions.push ⟨line, name, entry, paramCount⟩ } := by
      refine h.extend rfl ?_ ?_ ?_
      · simp [Content.instruction?, hcontent]
      · simp [hfunction]
      · simp [Content.constant?, hcontent]
    rw [hnames, ← List.append_assoc]
    exact htables.define (hsize ▸ .function rfl hfunction) hadd
  | instruction op operands =>
    have hnames : content.names = content.label.toList := by
      simp [Content.names, Content.constant?, Content.function?, hcontent]
    cases hadd
    rw [hnames]
    refine h.extend rfl ?_ ?_ ?_
    · simp [Content.instruction?, hcontent]
    · simp [Content.function?, hcontent]
    · simp [Content.constant?, hcontent]

/-- What one line preserves: if it is taken in, it says something, and the draft has that too. -/
theorem addText {raw : List Char} (h : Gathers contents contents (namesOf contents) draft)
    (hadd : draft.addText (raw, line) = .ok draft') : ∃ content, LineSays raw content ∧
      Gathers (contents ++ [content]) (contents ++ [content]) (namesOf (contents ++ [content]))
        draft' := by
  unfold Draft.addText at hadd
  split at hadd
  · next hline =>
    cases hadd
    rw [addLine_eq] at hline
    obtain ⟨labelled, hlabel, hrest⟩ := bind_eq_ok_iff.1 hline
    obtain ⟨statement, hread, hstatement⟩ := bind_eq_ok_iff.1 hrest
    obtain ⟨content, hcontent⟩ : ∃ content : Content,
        readLine raw = ⟨content.label, .ok content.statement⟩ :=
      ⟨⟨(readLine raw).label, statement⟩, by rw [← hread]⟩
    refine ⟨content, readLine_eq_iff.1 hcontent, ?_⟩
    rw [namesOf_concat]
    dsimp only at hlabel hread
    rw [hcontent] at hlabel hread
    have hlabelled := (h.know [content]).label hlabel
    cases hread
    cases hshape : content.statement with
    | some found =>
      rw [hshape] at hstatement
      exact hlabelled.statement hshape hstatement
    | none =>
      rw [hshape] at hstatement
      cases hstatement
      have hnames : content.names = content.label.toList := by
        simp [Content.names, Content.constant?, Content.function?, hshape]
      rw [hnames]
      refine hlabelled.extend rfl ?_ ?_ ?_
      · simp [Content.instruction?, hshape]
      · simp [Content.function?, hshape]
      · simp [Content.constant?, hshape]
  · cases hadd

/-- What a whole run preserves, from any draft on. -/
theorem foldlM_addText {raws : List (List Char)}
    (h : Gathers contents contents (namesOf contents) draft)
    (hrun : (raws.zipIdx line).foldlM Draft.addText draft = .ok draft') : ∃ more,
    List.Forall₂ LineSays raws more ∧
      Gathers (contents ++ more) (contents ++ more) (namesOf (contents ++ more)) draft' := by
  induction raws generalizing contents line draft with
  | nil =>
    cases hrun
    exact ⟨[], .nil, by simpa using h⟩
  | cons raw rest ih =>
    rw [List.zipIdx_cons, List.foldlM_cons] at hrun
    obtain ⟨next, hadd, hrest⟩ := bind_eq_ok_iff.1 hrun
    obtain ⟨content, hmeans, hnext⟩ := h.addText hadd
    obtain ⟨more, hmore, hlast⟩ := ih hnext hrest
    refine ⟨content :: more, .cons hmeans hmore, ?_⟩
    simpa using hlast

/-! ## Finishing -/

variable {contents : List Content} {draft : Draft}

theorem symbol (h : Gathers contents contents (namesOf contents) draft) {name : String}
    {value : UInt16} (hsymbol : draft.symbol name = .ok value) :
    Denotes contents name value.toNat := by
  unfold Draft.symbol at hsymbol
  split at hsymbol
  · next hlookup =>
    cases hsymbol
    obtain ⟨front, back, hsymbols, -⟩ := List.lookup_eq_some_iff.1 hlookup
    exact h.denotes (name, value) (by simp [hsymbols])
  · cases hsymbol

/-- A name that lines define is known to the draft. -/
theorem exists_symbol {name : String}
    (h : Gathers contents contents (namesOf contents) draft) (hname : name ∈ namesOf contents) :
    ∃ value, draft.symbol name = .ok value := by
  rw [← h.symbols, List.map_reverse, List.mem_reverse] at hname
  obtain ⟨entry, hentry, rfl⟩ := List.mem_map.1 hname
  obtain ⟨value, hvalue⟩ := Option.isSome_iff_exists.1 (isSome_lookup_of_mem hentry)
  exact ⟨value, by rw [Draft.symbol, hvalue]⟩

theorem function (h : Gathers contents contents (namesOf contents) draft)
    {pending : PendingFunction} {result : Function}
    (hfunction : draft.function pending = .ok result) :
    result.name = pending.name ∧ Denotes contents pending.entry result.entry.toNat ∧
      result.paramCount = pending.paramCount := by
  unfold Draft.function at hfunction
  split at hfunction
  · next hsymbol =>
    cases hfunction
    exact ⟨rfl, by simpa using h.symbol hsymbol, rfl⟩
  · cases hfunction

theorem immediate (h : Gathers contents contents (namesOf contents) draft) {op : Opcode}
    {token : String} {value : UInt16} (himmediate : draft.immediate op token = .ok value) :
    ∃ k, ImmediateValue contents op token k ∧ value = UInt16.ofInt k := by
  unfold Draft.immediate at himmediate
  split at himmediate
  · next k hread =>
    split at himmediate
    · next hrange =>
      cases himmediate
      have hname : isIdentifier token.toList = false := by
        rw [← Bool.not_eq_true]
        intro hname
        cases hread.symm.trans (readInteger?_of_isIdentifier hname)
      exact ⟨k, .literal hname hread hrange, rfl⟩
    · cases himmediate
  · split at himmediate
    · next hname =>
      exact ⟨value.toNat, .name hname (h.symbol himmediate) value.toNat_lt,
        (Instruction.ofInt_toNat value).symm⟩
    · cases himmediate

theorem register {token : String} {register : UInt8}
    (hregister : Draft.register token = .ok register) : RegisterText token.toList register := by
  unfold Draft.register at hregister
  split at hregister
  · next hread =>
    cases hregister
    exact readRegister?_eq_some_iff.1 hread
  · cases hregister

theorem registers_lt {tokens : List String} {registers : List UInt8}
    (h : List.Forall₂ (fun token register ↦ RegisterText token.toList register) tokens registers) :
    ∀ register ∈ registers, register.toNat < registerCount := by
  induction h with
  | nil => simp
  | cons hfirst _ ih => simpa using ⟨hfirst.lt_count, ih⟩

/-- Operands that resolve are laid out as the opcode demands, with registers in front. -/
theorem operands (h : Gathers contents contents (namesOf contents) draft)
    {ins : PendingInstruction} {operands : Operands}
    (hoperands : draft.operands ins = .ok operands) : operands.shape = ins.op.shape ∧
      ∃ registers immediates, ins.operands = registers ++ immediates ∧
        List.Forall₂ (fun token register ↦ RegisterText token.toList register) registers
          operands.registers ∧
        List.Forall₂ (fun token value ↦ ∃ k, ImmediateValue contents ins.op token k ∧
          value = UInt16.ofInt k) immediates operands.immediates := by
  unfold Draft.operands at hoperands
  split at hoperands
  · next hshape htokens =>
    cases hoperands
    exact ⟨hshape.symm, [], [], htokens, .nil, .nil⟩
  · next a hshape htokens =>
    obtain ⟨ra, ha, hresult⟩ := bind_eq_ok_iff.1 hoperands
    cases hresult
    exact ⟨hshape.symm, [a], [], htokens, .cons (register ha) .nil, .nil⟩
  · next a b hshape htokens =>
    obtain ⟨ra, ha, hrest⟩ := bind_eq_ok_iff.1 hoperands
    obtain ⟨rb, hb, hresult⟩ := bind_eq_ok_iff.1 hrest
    cases hresult
    exact ⟨hshape.symm, [a, b], [], htokens, .cons (register ha) (.cons (register hb) .nil), .nil⟩
  · next a b c hshape htokens =>
    obtain ⟨ra, ha, hrest⟩ := bind_eq_ok_iff.1 hoperands
    obtain ⟨rb, hb, hrest⟩ := bind_eq_ok_iff.1 hrest
    obtain ⟨rc, hc, hresult⟩ := bind_eq_ok_iff.1 hrest
    cases hresult
    exact ⟨hshape.symm, [a, b, c], [], htokens,
      .cons (register ha) (.cons (register hb) (.cons (register hc) .nil)), .nil⟩
  · next token hshape htokens =>
    obtain ⟨value, hvalue, hresult⟩ := bind_eq_ok_iff.1 hoperands
    cases hresult
    exact ⟨hshape.symm, [], [token], htokens, .nil, .cons (h.immediate hvalue) .nil⟩
  · next a token hshape htokens =>
    obtain ⟨ra, ha, hrest⟩ := bind_eq_ok_iff.1 hoperands
    obtain ⟨value, hvalue, hresult⟩ := bind_eq_ok_iff.1 hrest
    cases hresult
    exact ⟨hshape.symm, [a], [token], htokens, .cons (register ha) .nil,
      .cons (h.immediate hvalue) .nil⟩
  · cases hoperands

theorem word (h : Gathers contents contents (namesOf contents) draft) {ins : PendingInstruction}
    {word : UInt32} (hword : draft.word ins = .ok word) :
    Encodes contents (ins.op, ins.operands) word := by
  unfold Draft.word at hword
  split at hword
  · next operands hoperands =>
    cases hword
    obtain ⟨hshape, registers, immediates, htokens, hregisters, himmediates⟩ :=
      h.operands hoperands
    have hdecode : Instruction.decode (Instruction.encode ⟨ins.op.byte, operands⟩) =
        ⟨ins.op.byte, operands⟩ :=
      Instruction.decode_encode (hshape.trans ins.op.shapeOfByte_byte.symm)
    constructor
    · rw [hdecode]
      exact ins.op.ofByte?_byte
    · rw [hdecode]
      exact ⟨registers, immediates, htokens, hregisters, himmediates⟩
    · rw [hdecode]
      exact registers_lt hregisters
    · have hclear := Instruction.encode_decode (Instruction.encode ⟨ins.op.byte, operands⟩)
      rw [hdecode, hshape] at hclear
      exact hclear.symm
  · cases hword

end Gathers

/-- The tables of a finished draft. -/
theorem Gathers.resolves {contents : List Content} {draft : Draft} {name : String}
    {program : Program} (h : Gathers contents contents (namesOf contents) draft)
    (hfinish : draft.finish name = .ok program) :
    program.name = name ∧ Resolves contents program := by
  obtain ⟨functions, hfunctions, hrest⟩ := bind_eq_ok_iff.1 hfinish
  obtain ⟨code, hcode, hprogram⟩ := bind_eq_ok_iff.1 hrest
  cases hprogram
  refine ⟨rfl, ?_, ?_, h.constants, ?_, h.nodup⟩
  · rw [← h.instructions, List.forall₂_map_left_iff]
    exact (mapM_eq_ok_iff.1 hcode).imp fun _ _ ↦ h.word
  · rw [← h.functions, List.forall₂_map_left_iff]
    exact (mapM_eq_ok_iff.1 hfunctions).imp fun _ _ ↦ h.function
  · rintro before content after _ value rfl hconstant
    rw [h.constants]
    exact poolOf_held hconstant

/-- A line of a text has its content among those of the text. -/
theorem exists_content {raws : List (List Char)} {contents : List Content} {raw : List Char}
    (h : List.Forall₂ LineSays raws contents) (hraw : raw ∈ raws) :
    ∃ content ∈ contents, LineSays raw content := by
  induction h with
  | nil => cases hraw
  | cons hfirst _ ih =>
    rcases List.mem_cons.1 hraw with rfl | hrest
    · exact ⟨_, List.mem_cons_self, hfirst⟩
    · obtain ⟨content, hmem, hsays⟩ := ih hrest
      exact ⟨content, List.mem_cons_of_mem _ hmem, hsays⟩

/-- The lines of a text that can be gathered. -/
theorem exists_gathers {source : String} {draft : Draft} (h : gather source = .ok draft) :
    ∃ contents, List.Forall₂ LineSays (lines source.toList) contents ∧
      Gathers contents contents (namesOf contents) draft :=
  Gathers.empty.foldlM_addText h

/-- **Symbol resolution.** The lines of a text that assembles can all be understood, and the program
resolves them: it has one word for each instruction, in order, which decodes to the opcode and the
registers as written, with names replaced by what they stand for, and the entries of its functions
are what their names stand for. No name is defined twice. -/
theorem assemble_resolves {name source : String} {program : Program}
    (h : assemble name source = .ok program) : program.name = name ∧ ∃ contents,
      List.Forall₂ LineSays (lines source.toList) contents ∧ Resolves contents program := by
  obtain ⟨draft, hgather, hfinish⟩ := bind_eq_ok_iff.1 h
  obtain ⟨contents, hmeans, hdraft⟩ := exists_gathers hgather
  obtain ⟨hname, hresolves⟩ := hdraft.resolves hfinish
  exact ⟨hname, contents, hmeans, hresolves⟩

/-- A program with names used before they are defined, labels with and without an instruction on
their line, comments, and two names for one constant. -/
def counting : String :=
  ".func f go # later\n" ++
  ".const a int 2\n" ++
  ".const b int 2\n" ++
  "go: load_arg r0, b\n" ++
  "up:\n" ++
  "JUMP_EQ_ZERO r0, end\n" ++
  "JUMP up\n" ++
  "end: RETURN R0\n"

theorem assemble_resolves_counting :
    assemble "counting" counting = .ok ⟨"counting",
        #[0x0e000000, 0x43000003, 0x3c000001, 0x5a000000], ⟨#[.int 2]⟩, #[⟨"f", 0, 0⟩]⟩ ∧
      ∃ contents, List.Forall₂ LineSays (lines counting.toList) contents ∧
        Resolves contents ⟨"counting",
          #[0x0e000000, 0x43000003, 0x3c000001, 0x5a000000], ⟨#[.int 2]⟩, #[⟨"f", 0, 0⟩]⟩ := by
  have h : assemble "counting" counting = .ok ⟨"counting",
      #[0x0e000000, 0x43000003, 0x3c000001, 0x5a000000], ⟨#[.int 2]⟩, #[⟨"f", 0, 0⟩]⟩ :=
    eq_ok_of_toOption (by decide +kernel)
  exact ⟨h, (assemble_resolves h).2⟩

end Assembly

end RegisterMachine
