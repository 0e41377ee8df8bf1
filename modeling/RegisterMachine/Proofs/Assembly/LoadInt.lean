import RegisterMachine.Proofs.Assembly.Resolution
import RegisterMachine.Proofs.Machine.Step

/-!
# Integer loads, assembled and executed

The immediate of an integer load goes through a field of 16 bits. The assembler takes every number
that fits the field with or without a sign, and what names stand for; the machine reads the field
with a sign. So a load stores the representative of its value between -2¹⁵ and 2¹⁵, which is the
value itself only below 2¹⁵: larger literals, and names of places that far into the code, come out
negative.
-/

namespace RegisterMachine

open Assembly

/-! ## Values of names and immediates -/

namespace Assembly

/-- The names that a line defines, with what they stand for behind given lines. -/
def Content.definitions (content : Content) (before : List Content) : List (String × Nat) :=
  content.label.toList.map (·, (instructionsOf before).length) ++
    content.constant?.toList.map (fun entry ↦ (entry.1, ((poolOf before).add entry.2).1)) ++
    content.function?.toList.map (fun entry ↦ (entry.1, (functionsOf before).length))

theorem Content.names_eq (content : Content) (before : List Content) :
    content.names = (content.definitions before).map Prod.fst := by
  simp [Content.names, Content.definitions, Function.comp_def]

theorem Denotes.exists_line {contents : List Content} {name : String} {n : Nat}
    (h : Denotes contents name n) : ∃ before content after,
      contents = before ++ content :: after ∧ (name, n) ∈ content.definitions before := by
  cases h with
  | label hcontents h => exact ⟨_, _, _, hcontents, by simp [Content.definitions, h]⟩
  | constant hcontents h => exact ⟨_, _, _, hcontents, by simp [Content.definitions, h]⟩
  | function hcontents h => exact ⟨_, _, _, hcontents, by simp [Content.definitions, h]⟩

/-- A name that a line defines is not defined by later lines. -/
theorem not_mem_names_later {before between after : List Content} {content later : Content}
    {name : String} (hnodup : (namesOf (before ++ content :: (between ++ later :: after))).Nodup)
    (hname : name ∈ content.names) : name ∉ later.names := by
  intro hlater
  simp only [namesOf, List.flatMap_append, List.flatMap_cons, List.nodup_append] at hnodup
  exact hnodup.2.1.2.2 name hname name (by simp [hlater]) rfl

/-- A name that is defined once is defined by one line. -/
theorem line_unique {contents before after before' after' : List Content}
    {content content' : Content} {name : String} (hnodup : (namesOf contents).Nodup)
    (h : contents = before ++ content :: after) (hname : name ∈ content.names)
    (h' : contents = before' ++ content' :: after') (hname' : name ∈ content'.names) :
    before = before' ∧ content = content' := by
  subst h
  rcases List.append_eq_append_iff.1 h' with ⟨between, rfl, hrest⟩ | ⟨between, rfl, hrest⟩
  · cases between with
    | nil =>
      cases hrest
      exact ⟨(List.append_nil _).symm, rfl⟩
    | cons first between =>
      cases hrest
      exact absurd hname' (not_mem_names_later hnodup hname)
  · cases between with
    | nil =>
      cases hrest
      exact ⟨List.append_nil _, rfl⟩
    | cons first between =>
      cases hrest
      rw [List.append_assoc, List.cons_append] at hnodup
      exact absurd hname (not_mem_names_later hnodup hname')

/-- If no name is defined twice, every name stands for one thing. -/
theorem Denotes.unique {contents : List Content} {name : String} {m n : Nat}
    (hnodup : (namesOf contents).Nodup) (hm : Denotes contents name m)
    (hn : Denotes contents name n) : m = n := by
  obtain ⟨before, content, after, hline, hm⟩ := hm.exists_line
  obtain ⟨before', content', after', hline', hn⟩ := hn.exists_line
  have hname : name ∈ content.names :=
    content.names_eq before ▸ List.mem_map_of_mem hm
  have hname' : name ∈ content'.names :=
    content'.names_eq before' ▸ List.mem_map_of_mem hn
  obtain ⟨rfl, rfl⟩ := line_unique hnodup hline hname hline' hname'
  have hkeys : ((content.definitions before).map Prod.fst).Nodup := by
    rw [← content.names_eq]
    subst hline
    simp only [namesOf, List.flatMap_append, List.flatMap_cons, List.nodup_append] at hnodup
    exact hnodup.2.1.1
  exact congrArg Prod.snd (List.inj_on_of_nodup_map hkeys hm hn rfl)

theorem ImmediateValue.unique {contents : List Content} {op : Opcode} {token : String} {j k : Int}
    (hnodup : (namesOf contents).Nodup) (hj : ImmediateValue contents op token j)
    (hk : ImmediateValue contents op token k) : j = k := by
  cases hj with
  | literal hname hread _ =>
    cases hk with
    | literal _ hread' _ => exact Option.some.inj (hread.symm.trans hread')
    | name hname' _ _ => cases hname.symm.trans hname'
  | name hname hdenotes _ =>
    cases hk with
    | literal hname' _ _ => cases hname.symm.trans hname'
    | name _ hdenotes' _ => rw [hdenotes.unique hnodup hdenotes']

theorem ImmediateValue.bounds {contents : List Content} {op : Opcode} {token : String} {k : Int}
    (h : ImmediateValue contents op token k) : -(2 ^ 15) ≤ k ∧ k < 2 ^ 16 := by
  cases h with
  | literal _ _ hrange => omega
  | name _ _ hlt => omega

end Assembly

/-! ## Execution -/

namespace Frame

/-- The frame after an integer load. -/
def afterLoad (frame : Frame) (register : UInt8) (value : Int32) : Frame :=
  { frame with
    registers := frame.registers.setIfInBounds register.toNat (.int value)
    opcode := Opcode.loadInt.byte
    pc := frame.pc + 1 }

end Frame

namespace Instruction

/-- The signed reading of a field is the representative around zero. -/
theorem signedImmediate_ofInt (k : Int) : signedImmediate (UInt16.ofInt k) = k.bmod (2 ^ 16) := by
  have h := toNat_ofInt k
  unfold signedImmediate
  rw [Int.bmod_def]
  split <;> split <;> omega

end Instruction

namespace State

/-- An integer load stores its immediate with a sign and changes nothing else. -/
theorem step_loadInt {program : Program} {state : State} {word : UInt32} {register : UInt8}
    {value : UInt16} (hallowed : exhausted? state.machine = none)
    (hfetch : program.fetch? state.frame.pc = some word)
    (hdecode : Instruction.decode word = ⟨Opcode.loadInt.byte, .immReg register value⟩)
    (hregister : register.toNat < registerCount) :
    state.step program = .running ⟨state.counted,
      state.frame.afterLoad register (Int32.ofInt (Instruction.signedImmediate value)),
      state.callers⟩ := by
  have hcheck : checkRegisters (.immReg register value) = .ok () :=
    checkRegisters_eq_ok_iff.2 ⟨hregister, Nat.succ_pos _, Nat.succ_pos _⟩
  have hfetched : fetch program state.frame =
      ({ state.frame with opcode := Opcode.loadInt.byte },
        .ok (.loadInt, .immReg register value)) := by
    unfold fetch
    rw [hfetch]
    simp only [hdecode, Instruction.opcode?, Opcode.ofByte?_byte, hcheck]
    rfl
  exact (Dispatches.mk hallowed hfetched).step_of_assign rfl

end State

/-! ## From the text to the register -/

namespace Assembly

/-- The word of an instruction that stands at a place of the code. -/
theorem Resolves.fetch {contents : List Content} {program : Program} {index : Nat}
    {ins : Opcode × List String} (h : Resolves contents program)
    (hins : (instructionsOf contents)[index]? = some ins) :
    ∃ word, program.fetch? index = some word ∧ Encodes contents ins word := by
  obtain ⟨hlt, rfl⟩ := List.getElem?_eq_some_iff.1 hins
  have hcode : index < program.code.toList.length := h.code.length_eq ▸ hlt
  refine ⟨program.code.toList[index], ?_, h.code.get hlt hcode⟩
  rw [Program.fetch?, ← Array.getElem?_toList, List.getElem?_eq_getElem hcode]

/-- An integer load has its register and its immediate as written. -/
theorem Encodes.loadInt {contents : List Content} {target token : String} {word : UInt32}
    (h : Encodes contents (.loadInt, [target, token]) word) : ∃ register k,
      Instruction.decode word = ⟨Opcode.loadInt.byte, .immReg register (UInt16.ofInt k)⟩ ∧
        RegisterText target.toList register ∧ ImmediateValue contents .loadInt token k := by
  have hcode : Opcode.loadInt.byte = (Instruction.decode word).code :=
    Opcode.byte_of_ofByte? h.opcode
  have hshape : (Instruction.decode word).operands.shape = .immReg := by
    change (Operands.ofWord word (Opcode.shapeOfByte (Instruction.decode word).code)).shape = _
    rw [Operands.shape_ofWord, ← hcode, Opcode.shapeOfByte_byte]
    rfl
  obtain ⟨registers, immediates, htokens, hregisters, himmediates⟩ := h.operands
  cases hoperands : (Instruction.decode word).operands with
  | immReg register value =>
    rw [hoperands] at hregisters himmediates
    change List.Forall₂ _ registers [register] at hregisters
    change List.Forall₂ _ immediates [value] at himmediates
    obtain ⟨written, _, hregister, hnone, rfl⟩ := List.forall₂_cons_right_iff.1 hregisters
    obtain ⟨given, _, ⟨k, hk, rfl⟩, hnone', rfl⟩ := List.forall₂_cons_right_iff.1 himmediates
    cases List.forall₂_nil_right_iff.1 hnone
    cases List.forall₂_nil_right_iff.1 hnone'
    cases htokens
    refine ⟨register, k, ?_, hregister, hk⟩
    rw [hcode, ← hoperands]
  | _ =>
    rw [hoperands] at hshape
    cases hshape

/-- A value of the field survives the signed reading only below half of the range. -/
theorem toInt_wrapped_eq_iff {k : Int} (h : -(2 ^ 15) ≤ k ∧ k < 2 ^ 16) :
    (Int32.ofInt (k.bmod (2 ^ 16))).toInt = k ↔ k < 2 ^ 15 := by
  have hwrapped : k.bmod (2 ^ 16) = if k < 2 ^ 15 then k else k - 2 ^ 16 := by
    rw [Int.bmod_def]
    split <;> split <;> omega
  rw [hwrapped, Int32.toInt_ofInt_of_le (by split <;> omega) (by split <;> omega)]
  split <;> omega

/-- **Integer loads.** An integer load of an assembled program stores the representative of its
value around zero in the register that is written, in every frame that executes it, and changes
nothing else. This is the value itself exactly if it is below 2¹⁵. -/
theorem loadInt_wraps {name source : String} {program : Program}
    (hassemble : assemble name source = .ok program) {contents : List Content}
    (hmeans : List.Forall₂ LineSays (lines source.toList) contents) {index : Nat}
    {target token : String}
    (hline : (instructionsOf contents)[index]? = some (.loadInt, [target, token])) {k : Int}
    (hvalue : ImmediateValue contents .loadInt token k) {state : State}
    (hpc : state.frame.pc = index) (hallowed : State.exhausted? state.machine = none) :
    ∃ register, RegisterText target.toList register ∧
      state.step program = .running ⟨state.counted,
        state.frame.afterLoad register (Int32.ofInt (k.bmod (2 ^ 16))), state.callers⟩ ∧
      ((Int32.ofInt (k.bmod (2 ^ 16))).toInt = k ↔ k < 2 ^ 15) := by
  obtain ⟨draft, hgather, hfinish⟩ := bind_eq_ok_iff.1 hassemble
  obtain ⟨found, hfound, hdraft⟩ := exists_gathers hgather
  have hsame : found = contents :=
    List.right_unique_forall₂' (fun _ _ _ h h' ↦ h.unique h') hfound hmeans
  subst hsame
  have hresolves := (hdraft.resolves hfinish).2
  obtain ⟨word, hfetch, hencodes⟩ := hresolves.fetch hline
  obtain ⟨register, j, hdecode, hregister, hj⟩ := hencodes.loadInt
  have hjk : j = k := hj.unique hresolves.names hvalue
  subst hjk
  refine ⟨register, hregister, ?_, ?_⟩
  · rw [State.step_loadInt hallowed (hpc ▸ hfetch) hdecode hregister.lt_count,
      Instruction.signedImmediate_ofInt]
  · exact toInt_wrapped_eq_iff hvalue.bounds

/-- One line that loads the largest number of the field. -/
def loadingLargest : List Content :=
  [⟨none, some (.instruction .loadInt ["r3", "65535"])⟩]

theorem assemble_loadingLargest : assemble "largest" "LOAD_INT_CONST r3, 65535" =
    .ok ⟨"largest", #[0x1503ffff], {}, #[]⟩ :=
  eq_ok_of_toOption (by decide +kernel)

theorem lineSays_loadingLargest :
    List.Forall₂ LineSays (lines "LOAD_INT_CONST r3, 65535".toList) loadingLargest := by
  have hlines : lines "LOAD_INT_CONST r3, 65535".toList = ["LOAD_INT_CONST r3, 65535".toList] := by
    decide +kernel
  rw [hlines]
  exact .cons (readLine_eq_iff.1 rfl) .nil

theorem immediateValue_loadingLargest : ImmediateValue loadingLargest .loadInt "65535" 65535 :=
  .literal (by decide +kernel) (by decide +kernel) (.inl ⟨by decide, by decide⟩)

/-- A machine about to load the largest number. -/
def aboutToLoad : State :=
  ⟨Machine.new {} 1, { maxStack := 0, maxScratch := 0, pc := 0 }, []⟩

/-- The largest number of the field is loaded as -1. -/
theorem loadInt_wraps_largest :
    assemble "largest" "LOAD_INT_CONST r3, 65535" = .ok ⟨"largest", #[0x1503ffff], {}, #[]⟩ ∧
      ImmediateValue loadingLargest .loadInt "65535" 65535 ∧
      ∃ register, RegisterText "r3".toList register ∧
        aboutToLoad.step ⟨"largest", #[0x1503ffff], {}, #[]⟩ = .running ⟨aboutToLoad.counted,
          aboutToLoad.frame.afterLoad register (-1), []⟩ := by
  obtain ⟨register, hregister, hstep, -⟩ := loadInt_wraps assemble_loadingLargest
    lineSays_loadingLargest rfl immediateValue_loadingLargest (rfl : aboutToLoad.frame.pc = 0) rfl
  exact ⟨assemble_loadingLargest, immediateValue_loadingLargest, register, hregister, hstep⟩

/-- An integer load need not store the value that is written. -/
theorem loadInt_not_exact : ¬ ∀ (name source : String) (program : Program)
    (contents : List Content) (index : Nat) (target token : String) (k : Int) (state : State),
    assemble name source = .ok program →
    List.Forall₂ LineSays (lines source.toList) contents →
    (instructionsOf contents)[index]? = some (.loadInt, [target, token]) →
    ImmediateValue contents .loadInt token k → state.frame.pc = index →
    State.exhausted? state.machine = none →
    ∃ register, RegisterText target.toList register ∧
      state.step program = .running ⟨state.counted,
        state.frame.afterLoad register (Int32.ofInt k), state.callers⟩ := by
  intro h
  obtain ⟨register, hregister, hstep⟩ := h _ _ _ _ 0 _ _ _ aboutToLoad assemble_loadingLargest
    lineSays_loadingLargest rfl immediateValue_loadingLargest rfl rfl
  have hthree : register = 3 :=
    Option.some.inj ((readRegister?_eq_some_iff.2 hregister).symm.trans (by decide +kernel))
  subst hthree
  have hstored := congrArg (fun progress ↦
    progress.state?.map fun state ↦ state.frame.registers.toList[3]?) hstep
  exact absurd hstored (by decide +kernel)

end Assembly

end RegisterMachine
