import RegisterMachine.Assembly.Assemble
import RegisterMachine.Proofs.Assembly.Line

/-!
# Assembling what was disassembled

Every instruction has a text, and the assembler reads that text back: the mnemonic names the opcode,
the operands stand apart, and each of them resolves to itself, the immediate of an integer load with
its sign. So the texts of any code, one on a line, assemble to that code, except that words come
back without the bits that their layout does not use.
-/

namespace RegisterMachine

open Text Assembly

namespace Instruction

/-! ## The text of an instruction -/

/-- The text of a register. -/
def registerToken (register : UInt8) : List Char :=
  'r' :: Nat.toDigits 10 register.toNat

/-- The text of an immediate behind a register. -/
def immediateToken (op : Opcode) (value : UInt16) : List Char :=
  if op = .loadInt then (toString (signedImmediate value)).toList
  else Nat.toDigits 10 value.toNat

/-- The texts of operands. -/
def tokens (op : Opcode) : Operands → List (List Char)
  | .none => []
  | .regs1 a => [registerToken a]
  | .regs2 a b => [registerToken a, registerToken b]
  | .regs3 a b c => [registerToken a, registerToken b, registerToken c]
  | .imm value => [Nat.toDigits 10 value.toNat]
  | .immReg a value => [registerToken a, immediateToken op value]

/-- Operands are written behind a blank, with a comma and a blank between them. -/
theorem toList_operandsText (op : Opcode) (operands : Operands) :
    (operandsText op operands).toList =
      match tokens op operands with
      | [] => []
      | found => ' ' :: [',', ' '].intercalate found := by
  have hbyte (n : UInt8) : (toString n).toList = Nat.toDigits 10 n.toNat := Nat.toList_repr
  have hword (n : UInt16) : (toString n).toList = Nat.toDigits 10 n.toNat := Nat.toList_repr
  have hstring (text : String) : toString text = text := rfl
  cases operands with
  | none => rfl
  | regs1 a | regs2 a b | regs3 a b c =>
    simp [operandsText, tokens, registerToken, hbyte, hstring]
  | imm value => simp [operandsText, tokens, hword, hstring]
  | immReg a value =>
    by_cases h : op = .loadInt <;>
      simp [operandsText, tokens, registerToken, immediateToken, hbyte, hword, hstring, h]

/-- The characters of operands. -/
def isTokenChar (c : Char) : Bool :=
  c.isDigit || c == 'r' || c == '-'

theorem toDigits_isTokenChar (n : Nat) : ∀ c ∈ Nat.toDigits 10 n, isTokenChar c = true := by
  intro c hc
  simp [isTokenChar, (Magnitude.isNumeral_toDigits n).isDigit c hc]

/-- A token is a word: it is not empty and nothing in it separates operands. -/
structure IsToken (token : List Char) : Prop where
  ne_nil : token ≠ []
  chars : ∀ c ∈ token, isTokenChar c = true

theorem isToken_toDigits (n : Nat) : IsToken (Nat.toDigits 10 n) where
  ne_nil := Nat.toDigits_ne_nil
  chars := toDigits_isTokenChar n

theorem IsToken.cons {c : Char} {token : List Char} (hc : isTokenChar c = true)
    (htoken : IsToken token) : IsToken (c :: token) where
  ne_nil := by simp
  chars := by simpa [hc] using htoken.chars

theorem isToken_toString (value : Int) : IsToken (toString value).toList := by
  cases value with
  | ofNat n =>
    have h : (toString (Int.ofNat n)).toList = Nat.toDigits 10 n := Nat.toList_repr
    exact h ▸ isToken_toDigits n
  | negSucc n =>
    exact toList_toString_negSucc n ▸ (isToken_toDigits (n + 1)).cons (by decide)

theorem isToken_of_mem_tokens {op : Opcode} {operands : Operands} {token : List Char}
    (h : token ∈ tokens op operands) : IsToken token := by
  have hregister (register : UInt8) : IsToken (registerToken register) :=
    (isToken_toDigits _).cons (by decide)
  have himmediate (value : UInt16) : IsToken (immediateToken op value) := by
    unfold immediateToken
    split
    · exact isToken_toString _
    · exact isToken_toDigits _
  cases operands <;> simp only [tokens, List.mem_cons, List.not_mem_nil, or_false] at h
  case regs1 a => exact h ▸ hregister a
  case regs2 a b => rcases h with rfl | rfl <;> exact hregister _
  case regs3 a b c => rcases h with rfl | rfl | rfl <;> exact hregister _
  case imm value => exact h ▸ isToken_toDigits _
  case immReg a value =>
    rcases h with rfl | rfl
    · exact hregister a
    · exact himmediate value

theorem isBlank_of_isTokenChar {c : Char} (h : isTokenChar c = true) : isBlank c = false := by
  simp only [isTokenChar, Bool.or_eq_true, beq_iff_eq] at h
  rcases h with (hdigit | rfl) | rfl
  · exact Bignum.isBlank_of_isDigit hdigit
  · decide
  · decide

theorem IsToken.not_gap {token : List Char} (h : IsToken token) :
    ∀ c ∈ token, isOperandGap c = false := by
  intro c hc
  have hchar := h.chars c hc
  have hcomma : c ≠ ',' := by
    rintro rfl
    exact absurd hchar (by decide)
  simp [isOperandGap, hcomma, isBlank_of_isTokenChar hchar]

/-- Tokens with a comma and a blank between them are found again. -/
theorem separated_intercalate {found : List (List Char)} (h : ∀ token ∈ found, IsToken token) :
    Separated isOperandGap ([',', ' '].intercalate found) found := by
  induction found with
  | nil => exact .nil
  | cons token rest ih =>
    have htoken := h token (by simp)
    have hrest := ih fun other hother ↦ h other (by simp [hother])
    cases rest with
    | nil =>
      rw [List.intercalate_singleton, ← List.append_nil token]
      simpa using Separated.word htoken.ne_nil htoken.not_gap (by simp) .nil
    | cons next others =>
      rw [List.intercalate_cons_cons, List.append_assoc]
      exact .word htoken.ne_nil htoken.not_gap (by simp [isOperandGap])
        (.gap (by decide) (.gap (by decide) hrest))

theorem separated_operandsText (op : Opcode) (operands : Operands) :
    Separated isOperandGap (operandsText op operands).toList (tokens op operands) := by
  have h := separated_intercalate fun token ↦ @isToken_of_mem_tokens op operands token
  rw [toList_operandsText]
  split
  · next hnil => exact hnil ▸ .nil
  · exact .gap (by decide) h

/-! ## The text as a line -/

/-- The characters of instructions. None of them ends a line, starts a comment, or marks a label, a
directive or a literal. -/
def isPrintedChar (c : Char) : Bool :=
  Opcode.isMnemonicChar c || isTokenChar c || c == ',' || c == ' '

theorem forall_mem_intercalate {p : Char → Prop} {gap : List Char} {found : List (List Char)}
    (hgap : ∀ c ∈ gap, p c) (hfound : ∀ token ∈ found, ∀ c ∈ token, p c) :
    ∀ c ∈ gap.intercalate found, p c := by
  induction found with
  | nil => simp
  | cons token rest ih =>
    have htoken := hfound token (by simp)
    have hrest := ih fun other hother ↦ hfound other (by simp [hother])
    cases rest with
    | nil => simpa using htoken
    | cons next others =>
      intro c hc
      rw [List.intercalate_cons_cons, List.mem_append, List.mem_append] at hc
      rcases hc with (hc | hc) | hc
      · exact htoken c hc
      · exact hgap c hc
      · exact hrest c hc

theorem getLast?_intercalate (gap : List Char) {found : List (List Char)} (hne : found ≠ [])
    (h : ∀ token ∈ found, IsToken token) :
    ∃ c, (gap.intercalate found).getLast? = some c ∧ isTokenChar c = true := by
  induction found with
  | nil => exact absurd rfl hne
  | cons token rest ih =>
    have htoken := h token (by simp)
    cases rest with
    | nil =>
      rw [List.intercalate_singleton]
      have hlast := List.getLast?_eq_some_getLast htoken.ne_nil
      exact ⟨_, hlast, htoken.chars _ (List.mem_of_getLast? hlast)⟩
    | cons next others =>
      obtain ⟨c, hlast, hc⟩ := ih (by simp) fun other hother ↦ h other (by simp [hother])
      refine ⟨c, ?_, hc⟩
      rw [List.intercalate_cons_cons, List.getLast?_append, hlast, Option.some_or]

variable {op : Opcode} {operands : Operands}

theorem isPrintedChar_operandsText :
    ∀ c ∈ (operandsText op operands).toList, isPrintedChar c = true := by
  rw [toList_operandsText]
  split
  · simp
  · have hfound : ∀ token ∈ tokens op operands, ∀ c ∈ token, isPrintedChar c = true := by
      intro token htoken c hc
      simp [isPrintedChar, (isToken_of_mem_tokens htoken).chars c hc]
    have hcomma : ∀ c ∈ [',', ' '], isPrintedChar c = true := by simp [isPrintedChar]
    simpa [isPrintedChar] using forall_mem_intercalate hcomma hfound

theorem isMnemonicChar_name : ∀ c ∈ op.name.toList, Opcode.isMnemonicChar c = true := by
  obtain ⟨letters, hname, -, hletters⟩ := op.exists_spelling
  rw [hname, String.toList_ofList]
  exact hletters

theorem name_ne_nil : op.name.toList ≠ [] := by
  obtain ⟨letters, hname, hne, -⟩ := op.exists_spelling
  rw [hname, String.toList_ofList]
  exact hne

theorem toNat_of_isMnemonicChar {c : Char} (h : Opcode.isMnemonicChar c = true) :
    48 ≤ c.toNat ∧ c.toNat < 97 := by
  simp only [Opcode.isMnemonicChar, Bool.or_eq_true, beq_iff_eq] at h
  rcases h with (hupper | hdigit) | rfl
  · have hrange := toNat_of_isUpper hupper
    omega
  · have hrange := Magnitude.toNat_of_isDigit hdigit
    omega
  · decide

theorem isBlank_of_isMnemonicChar {c : Char} (h : Opcode.isMnemonicChar c = true) :
    isBlank c = false := by
  have hrange := toNat_of_isMnemonicChar h
  exact isBlank_of_visible (by omega) (by omega)

theorem toUpper_of_isMnemonicChar {c : Char} (h : Opcode.isMnemonicChar c = true) :
    c.toUpper = c := by
  have hrange := toNat_of_isMnemonicChar h
  unfold Char.toUpper
  rw [dif_neg]
  rintro ⟨hlow, -⟩
  rw [UInt32.le_iff_toNat_le] at hlow
  have ha : 'a'.val.toNat = 97 := rfl
  have hvalue : c.val.toNat = c.toNat := rfl
  omega

variable (op operands)

theorem instructionText_text : InstructionText (op.name ++ operandsText op operands).toList
    (.instruction op ((tokens op operands).map String.ofList)) := by
  rw [String.toList_append]
  refine .mk (fun c hc ↦ isBlank_of_isMnemonicChar (isMnemonicChar_name c hc)) ?_ ?_
    (separated_operandsText op operands)
  · have hupper : op.name.toList.map Char.toUpper = op.name.toList :=
      (List.map_congr_left fun c hc ↦ toUpper_of_isMnemonicChar (isMnemonicChar_name c hc)).trans
        (List.map_id' _)
    rw [hupper, String.ofList_toList]
  · rw [toList_operandsText]
    split
    · simp
    · simpa using (by decide : isBlank ' ' = true)

theorem isPrintedChar_text :
    ∀ c ∈ (op.name ++ operandsText op operands).toList, isPrintedChar c = true := by
  intro c hc
  rw [String.toList_append, List.mem_append] at hc
  rcases hc with hc | hc
  · simp [isPrintedChar, isMnemonicChar_name c hc]
  · exact isPrintedChar_operandsText c hc

/-- A character that no instruction has. -/
theorem not_mem_text {c : Char} (hc : isPrintedChar c = false) :
    c ∉ (op.name ++ operandsText op operands).toList := by
  intro hmem
  exact absurd (isPrintedChar_text op operands c hmem) (by simp [hc])

theorem plain_text : Plain (op.name ++ operandsText op operands).toList where
  ne_nil := (instructionText_text op operands).ne_nil
  no_feed := not_mem_text op operands (by decide)
  no_return h := not_mem_text op operands (by decide) (List.mem_of_getLast? h)

theorem trim_text : trim (op.name ++ operandsText op operands).toList =
    (op.name ++ operandsText op operands).toList := by
  rw [String.toList_append, toList_operandsText]
  apply trim_of_ends
  · intro c hc
    rw [List.head?_append_of_ne_nil _ name_ne_nil] at hc
    exact isBlank_of_isMnemonicChar (isMnemonicChar_name c (List.mem_of_head? hc))
  · split
    · intro c hc
      rw [List.append_nil] at hc
      exact isBlank_of_isMnemonicChar (isMnemonicChar_name c (List.mem_of_getLast? hc))
    · next hne =>
      obtain ⟨last, hlast, htoken⟩ := getLast?_intercalate [',', ' '] hne
        fun token ↦ isToken_of_mem_tokens
      have htext : (op.name.toList ++ ' ' :: [',', ' '].intercalate (tokens op operands)).getLast? =
          some last := by
        rw [List.getLast?_append, List.getLast?_cons, hlast]
        rfl
      rw [htext]
      simpa using isBlank_of_isTokenChar htoken

/-- The text of an instruction says just that instruction. -/
theorem lineSays_text : LineSays (op.name ++ operandsText op operands).toList
    ⟨none, some (.instruction op ((tokens op operands).map String.ofList))⟩ := by
  have hcomment : stripComment (op.name ++ operandsText op operands).toList =
      (op.name ++ operandsText op operands).toList := by
    apply stripComment_eq_self
    intro c hc
    constructor
    · rintro rfl
      exact not_mem_text op operands (by decide) hc
    · rintro rfl
      exact not_mem_text op operands (by decide) hc
  unfold LineSays
  rw [hcomment, trim_text]
  refine .unlabelled ?_ ?_ (.instruction (instructionText_text op operands))
  · intro hpoint
    exact not_mem_text op operands (by decide) (List.mem_of_head? hpoint)
  · rintro label after ⟨-, -, before, behind, htext, -⟩
    have hcolon : ':' ∈ (op.name ++ operandsText op operands).toList := by simp [htext]
    exact not_mem_text op operands (by decide) hcolon

/-! ## Resolution -/

theorem register_registerToken {register : UInt8} (h : register.toNat < registerCount) :
    Draft.register (String.ofList (registerToken register)) = .ok register := by
  have hread : readRegister? (registerToken register) = some register :=
    readRegister?_eq_some_iff.2 ⟨⟨'r', _, .inl rfl, .inl rfl, Magnitude.isNumeral_toDigits _,
      Nat.ofDigitChars_ten_toDigits⟩, h⟩
  rw [Draft.register, String.toList_ofList, hread]

theorem immediate_toDigits (draft : Draft) (value : UInt16) :
    draft.immediate op (String.ofList (Nat.toDigits 10 value.toNat)) = .ok value := by
  have hlt := value.toNat_lt
  rw [Draft.immediate, String.toList_ofList, readInteger?_toDigits (by omega)]
  dsimp only
  rw [if_pos (.inl ⟨by omega, by omega⟩), ofInt_toNat]

theorem immediate_immediateToken (draft : Draft) (value : UInt16) :
    draft.immediate op (String.ofList (immediateToken op value)) = .ok value := by
  unfold immediateToken
  split
  · next hop =>
    have hbounds := signedImmediate_bounds value
    rw [Draft.immediate, String.toList_ofList, readInteger?_toString (by omega)]
    dsimp only
    rw [if_pos, ofInt_signedImmediate]
    by_cases hsign : 0 ≤ signedImmediate value
    · exact .inl ⟨hsign, by omega⟩
    · exact .inr ⟨hop, by omega, by omega⟩
  · exact immediate_toDigits op draft value

/-- The operands of an instruction resolve to themselves, whatever names are known. -/
theorem operands_tokens (draft : Draft) (line : Nat) {op : Opcode} {operands : Operands}
    (hshape : operands.shape = op.shape)
    (hregisters : ∀ register ∈ operands.registers, register.toNat < registerCount) :
    draft.operands ⟨line, op, (tokens op operands).map String.ofList⟩ = .ok operands := by
  have hregister {register : UInt8} (h : register ∈ operands.registers) :
      Draft.register (String.ofList (registerToken register)) = .ok register :=
    register_registerToken (hregisters register h)
  unfold Draft.operands
  rw [← hshape]
  cases operands with
  | none => rfl
  | regs1 a =>
    simp only [tokens, List.map_cons, List.map_nil, Operands.shape]
    rw [hregister (by simp [Operands.registers])]
    rfl
  | regs2 a b =>
    simp only [tokens, List.map_cons, List.map_nil, Operands.shape]
    rw [hregister (by simp [Operands.registers]), hregister (by simp [Operands.registers])]
    rfl
  | regs3 a b c =>
    simp only [tokens, List.map_cons, List.map_nil, Operands.shape]
    rw [hregister (by simp [Operands.registers]), hregister (by simp [Operands.registers]),
      hregister (by simp [Operands.registers])]
    rfl
  | imm value =>
    simp only [tokens, List.map_cons, List.map_nil, Operands.shape]
    rw [immediate_toDigits]
    rfl
  | immReg a value =>
    simp only [tokens, List.map_cons, List.map_nil, Operands.shape]
    rw [hregister (by simp [Operands.registers]), immediate_immediateToken]
    rfl

end Instruction

namespace Assembly

/-! ## Whole texts -/

/-- A line that gives a word of its own, whatever the other lines say. -/
def GivesWord (raw : List Char) (word : UInt32) : Prop :=
  ∃ op operands, LineSays raw ⟨none, some (.instruction op operands)⟩ ∧
    ∀ (draft : Draft) (line : Nat), draft.word ⟨line, op, operands⟩ = .ok word

theorem addText_instruction {raw : List Char} {op : Opcode} {operands : List String}
    (h : LineSays raw ⟨none, some (.instruction op operands)⟩) (draft : Draft) (line : Nat) :
    draft.addText (raw, line) =
      .ok { draft with instructions := draft.instructions.push ⟨line, op, operands⟩ } := by
  rw [Draft.addText, readLine_eq_iff.2 h]
  rfl

/-- Lines that give words add just their instructions to a draft. -/
theorem foldlM_addText_of_givesWord {raws : List (List Char)} {words : List UInt32}
    (h : List.Forall₂ GivesWord raws words) (draft : Draft) (line : Nat) : ∃ pending,
    (raws.zipIdx line).foldlM Draft.addText draft =
        .ok { draft with instructions := draft.instructions ++ pending.toArray } ∧
      List.Forall₂ (fun ins word ↦ ∀ draft : Draft, draft.word ins = .ok word) pending words := by
  induction h generalizing draft line with
  | nil => exact ⟨[], by simp; rfl, .nil⟩
  | cons hraw _ ih =>
    obtain ⟨op, operands, hmeans, hword⟩ := hraw
    obtain ⟨pending, hrun, hpending⟩ :=
      ih { draft with instructions := draft.instructions.push ⟨line, op, operands⟩ } (line + 1)
    refine ⟨⟨line, op, operands⟩ :: pending, ?_, .cons (fun draft ↦ hword draft line) hpending⟩
    rw [List.zipIdx_cons, List.foldlM_cons, addText_instruction hmeans]
    refine hrun.trans ?_
    simp

theorem assemble_of_givesWord {name source : String} {words : List UInt32}
    (h : List.Forall₂ GivesWord (lines source.toList) words) :
    assemble name source = .ok ⟨name, words.toArray, {}, #[]⟩ := by
  obtain ⟨pending, hgather, hpending⟩ := foldlM_addText_of_givesWord h {} 1
  refine bind_eq_ok_iff.2 ⟨_, hgather, ?_⟩
  have hcode : ∀ draft : Draft, pending.mapM draft.word = .ok words :=
    fun draft ↦ mapM_eq_ok_iff.2 (hpending.imp fun ins word hword ↦ hword draft)
  refine bind_eq_ok_iff.2 ⟨[], rfl, bind_eq_ok_iff.2 ⟨words, ?_, rfl⟩⟩
  simpa using hcode _

/-- A word that the assembler can give: it has an opcode, and its registers exist. -/
structure Writable (word : UInt32) : Prop where
  assigned : (Instruction.decode word).opcode?.isSome = true
  registers : ∀ register ∈ (Instruction.decode word).operands.registers,
    register.toNat < registerCount

/-- The text of code: its instructions, one on a line. -/
def codeText (code : List UInt32) : String :=
  "\n".intercalate (code.map fun word ↦ (Instruction.decode word).text)

theorem Writable.text_eq {word : UInt32} (h : Writable word) : ∃ op,
    (Instruction.decode word).opcode? = some op ∧ (Instruction.decode word).text =
      op.name ++ Instruction.operandsText op (Instruction.decode word).operands := by
  obtain ⟨op, hop⟩ := Option.isSome_iff_exists.1 h.assigned
  exact ⟨op, hop, by rw [Instruction.text, hop]⟩

theorem Writable.givesWord {word : UInt32} (h : Writable word) :
    GivesWord (Instruction.decode word).text.toList (Instruction.decode word).encode := by
  obtain ⟨op, hop, htext⟩ := h.text_eq
  have hcode : op.byte = (Instruction.decode word).code := Opcode.byte_of_ofByte? hop
  have hshape : (Instruction.decode word).operands.shape = op.shape := by
    rw [← Opcode.shapeOfByte_byte, hcode]
    exact Operands.shape_ofWord word _
  rw [htext]
  refine ⟨op, _, Instruction.lineSays_text op _, fun draft line ↦ ?_⟩
  rw [Draft.word, Instruction.operands_tokens draft line hshape h.registers, hcode]

theorem lines_codeText {code : List UInt32} (h : ∀ word ∈ code, Writable word) :
    lines (codeText code).toList = code.map fun word ↦ (Instruction.decode word).text.toList := by
  rw [codeText, String.toList_intercalate, List.map_map]
  apply lines_intercalate
  intro line hline
  obtain ⟨word, hword, rfl⟩ := List.mem_map.1 hline
  obtain ⟨op, -, htext⟩ := (h word hword).text_eq
  simp only [Function.comp_apply, htext]
  exact Instruction.plain_text op _

/-- **Assembling a disassembly.** The texts of any writable code, one on a line, assemble to a
program of that code: every word comes back as it is read and written again, which clears the bits
that its layout does not use. -/
theorem assemble_codeText (name : String) {code : List UInt32}
    (h : ∀ word ∈ code, Writable word) :
    assemble name (codeText code) =
        .ok ⟨name, (code.map fun word ↦ (Instruction.decode word).encode).toArray, {}, #[]⟩ ∧
      ∀ word ∈ code, (Instruction.decode word).encode =
        word &&& (Instruction.decode word).operands.shape.usedBits := by
  refine ⟨assemble_of_givesWord ?_, fun word _ ↦ Instruction.encode_decode word⟩
  rw [lines_codeText h, List.forall₂_map_left_iff, List.forall₂_map_right_iff,
    List.forall₂_same]
  exact fun word hword ↦ (h word hword).givesWord

/-- An integer load of -1, a return whose unused bits are set, a jump and a plain instruction. -/
theorem assemble_codeText_mixed :
    (∀ word ∈ [0x1507ffff, 0x5a03dead, 0x3cffffff, 0x01000000], Writable word) ∧
      assemble "mixed" "LOAD_INT_CONST r7, -1\nRETURN r3\nJUMP 65535\nNOP" =
        .ok ⟨"mixed", #[0x1507ffff, 0x5a030000, 0x3c00ffff, 0x01000000], {}, #[]⟩ := by
  have h : ∀ word ∈ [0x1507ffff, 0x5a03dead, 0x3cffffff, 0x01000000], Writable word := by
    intro word hword
    simp only [List.mem_cons, List.not_mem_nil, or_false] at hword
    rcases hword with rfl | rfl | rfl | rfl <;> exact ⟨by decide, by decide +kernel⟩
  exact ⟨h, (assemble_codeText "mixed" h).1⟩

end Assembly

end RegisterMachine
