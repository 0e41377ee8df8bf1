import RegisterMachine.Assembly.Line
import RegisterMachine.Proofs.Assembly.Token
import RegisterMachine.Proofs.Instruction.Word
import RegisterMachine.Proofs.Outcome

/-!
# What a line says

A grammar of lines, apart from the way in which they are read: a line without its comment and
without blanks at its ends is empty, a directive, an instruction, a label, or a label and an
instruction. A line is read without a problem exactly if the grammar gives it a content, and then as
that content.
-/

namespace RegisterMachine.Assembly

open Text

/-- What a line says if it can be understood. -/
structure Content where
  label : Option String
  statement : Option Statement
  deriving DecidableEq

/-! ## The grammar -/

/-- The characters between operands. -/
def isOperandGap (c : Char) : Bool :=
  c == ',' || isBlank c

/-- An instruction: a mnemonic in any case, up to the first blank, and operands. -/
inductive InstructionText : List Char → Statement → Prop
  | mk {mnemonic rest : List Char} {op : Opcode} {found : List (List Char)}
      (hmnemonic : ∀ c ∈ mnemonic, isBlank c = false)
      (hname : op.name = String.ofList (mnemonic.map Char.toUpper))
      (hend : ∀ c ∈ rest.head?, isBlank c = true) (hrest : Separated isOperandGap rest found) :
      InstructionText (mnemonic ++ rest) (.instruction op (found.map String.ofList))

/-- A directive behind its point: a constant with its name, kind and value, or a function with its
name, its entry and the number of its parameters, which is zero if it is left out. -/
inductive DirectiveText : List Char → Statement → Prop
  | constant {text afterKeyword afterName value : List Char} {name kind : String}
      {constant : Constant} (hkeyword : FirstWord text "const".toList afterKeyword)
      (hname : FirstWord afterKeyword name.toList afterName)
      (hkind : FirstWord afterName kind.toList value) (hne : value ≠ [])
      (hvalue : readConstant kind value = .ok constant) :
      DirectiveText text (.constant name constant)
  | function {text afterKeyword afterName count : List Char} {name entry : String}
      {paramCount : UInt8} (hkeyword : FirstWord text "func".toList afterKeyword)
      (hname : FirstWord afterKeyword name.toList afterName)
      (hentry : FirstWord afterName entry.toList count)
      (hcount : count = [] ∧ paramCount = 0 ∨ readByte? count = some paramCount.toNat) :
      DirectiveText text (.function name entry paramCount)

/-- A text that starts with a label: an identifier before the first colon. -/
structure LabelText (text : List Char) (label : String) (after : List Char) : Prop where
  no_point : text.head? ≠ some '.'
  identifier : isIdentifier label.toList = true
  around : ∃ before behind, text = before ++ ':' :: behind ∧ ':' ∉ before ∧
    trim before = label.toList ∧ trim behind = after

/-- What stands behind a label, or on a line without one: an instruction or nothing. -/
inductive BodySays : List Char → Option Statement → Prop
  | empty : BodySays [] none
  | instruction {text : List Char} {statement : Statement} (h : InstructionText text statement) :
      BodySays text (some statement)

/-- What a text says that has no comment and no blanks at its ends. -/
inductive Says : List Char → Content → Prop
  | directive {text : List Char} {statement : Statement} (h : DirectiveText text statement) :
      Says ('.' :: text) ⟨none, some statement⟩
  | unlabelled {text : List Char} {statement : Option Statement} (hpoint : text.head? ≠ some '.')
      (hlabel : ∀ label after, ¬ LabelText text label after) (h : BodySays text statement) :
      Says text ⟨none, statement⟩
  | labelled {text after : List Char} {label : String} {statement : Option Statement}
      (hlabel : LabelText text label after) (h : BodySays after statement) :
      Says text ⟨some label, statement⟩

/-- What a line says: its comment and the blanks at its ends say nothing. -/
def LineSays (raw : List Char) (content : Content) : Prop :=
  Says (trim (stripComment raw)) content

/-! ## Reading -/

/-- Where the mnemonic of an instruction ends. The blank that ends it separates operands too. -/
theorem split_mnemonic {mnemonic rest : List Char} (hmnemonic : ∀ c ∈ mnemonic, isBlank c = false)
    (hend : ∀ c ∈ rest.head?, isBlank c = true) : ∃ after,
    (splitAt? isBlank (mnemonic ++ rest)).getD (mnemonic ++ rest, []) = (mnemonic, after) ∧
      words isOperandGap after = words isOperandGap rest := by
  cases rest with
  | nil =>
    rw [List.append_nil, splitAt?_eq_none_iff.2 hmnemonic]
    exact ⟨[], rfl, rfl⟩
  | cons c after =>
    have hc : isBlank c = true := hend c (by simp)
    rw [splitAt?_eq_some_iff.2 ⟨c, hc, hmnemonic, rfl⟩]
    exact ⟨after, rfl, (words_gap (by simp [isOperandGap, hc]) after).symm⟩

theorem readInstruction_eq_ok_iff {text : List Char} {statement : Statement} :
    readInstruction text = .ok statement ↔ InstructionText text statement := by
  constructor
  · intro h
    obtain ⟨htext, hmnemonic, hend⟩ := (@scan_iff (fun c ↦ !isBlank c) text _ _).1 ⟨rfl, rfl⟩
    simp only [Bool.not_eq_true', Bool.not_eq_false'] at hmnemonic hend
    rw [htext] at h ⊢
    obtain ⟨after, hsplit, hwords⟩ := split_mnemonic hmnemonic hend
    unfold readInstruction at h
    rw [hsplit] at h
    dsimp only at h
    split at h
    · cases h
    · next op hname =>
      cases h
      change InstructionText _ (.instruction op ((words isOperandGap after).map String.ofList))
      rw [hwords]
      exact .mk hmnemonic (Opcode.name_of_ofName? hname) hend (separated_words _ _)
  · rintro @⟨mnemonic, rest, op, found, hmnemonic, hname, hend, hrest⟩
    obtain ⟨after, hsplit, hwords⟩ := split_mnemonic hmnemonic hend
    unfold readInstruction
    rw [hsplit]
    dsimp only
    rw [Opcode.ofName?_eq_some_iff.2 hname]
    change Except.ok (Statement.instruction op ((words isOperandGap after).map String.ofList)) = _
    rw [hwords, words_eq_iff.2 hrest]

theorem InstructionText.ne_nil {text : List Char} {statement : Statement}
    (h : InstructionText text statement) : text ≠ [] := by
  rcases h with @⟨mnemonic, rest, op, found, -, hname, -, -⟩
  obtain ⟨letters, hletters, hne, -⟩ := op.exists_spelling
  have hmap : mnemonic.map Char.toUpper = letters :=
    String.ofList_injective (hname.symm.trans hletters)
  intro hnil
  have hmnemonic : mnemonic = [] := (List.append_eq_nil_iff.1 hnil).1
  exact hne (by rw [← hmap, hmnemonic, List.map_nil])

theorem directiveWord_eq_ok_iff {missing : String} {text : List Char} {word : String}
    {rest : List Char} :
    directiveWord missing text = .ok (word, rest) ↔ FirstWord text word.toList rest := by
  rw [← nextWord?_eq_some_iff, directiveWord]
  cases nextWord? text with
  | none => simp
  | some found =>
    rcases found with ⟨letters, tail⟩
    simp only [Except.ok.injEq, Prod.mk.injEq, Option.some.injEq]
    rw [← String.toList_inj, String.toList_ofList]

theorem readDirective_eq_ok_iff {text : List Char} {statement : Statement} :
    readDirective text = .ok statement ↔ DirectiveText text statement := by
  unfold readDirective
  constructor
  · intro h
    obtain ⟨⟨keyword, afterKeyword⟩, hkeyword, h⟩ := bind_eq_ok_iff.1 h
    rw [directiveWord_eq_ok_iff] at hkeyword
    dsimp only at h
    split at h
    · obtain ⟨⟨name, afterName⟩, hname, h⟩ := bind_eq_ok_iff.1 h
      obtain ⟨⟨kind, value⟩, hkind, h⟩ := bind_eq_ok_iff.1 h
      rw [directiveWord_eq_ok_iff] at hname hkind
      dsimp only at h
      split at h
      · cases h
      · next hvalue =>
        obtain ⟨constant, hconstant, h⟩ := bind_eq_ok_iff.1 h
        cases h
        exact .constant hkeyword hname hkind (by simpa using hvalue) hconstant
    · obtain ⟨⟨name, afterName⟩, hname, h⟩ := bind_eq_ok_iff.1 h
      obtain ⟨⟨entry, count⟩, hentry, h⟩ := bind_eq_ok_iff.1 h
      rw [directiveWord_eq_ok_iff] at hname hentry
      dsimp only at h
      split at h
      · next hcount =>
        cases h
        exact .function hkeyword hname hentry (.inl ⟨by simpa using hcount, rfl⟩)
      · split at h
        · next number hnumber =>
          cases h
          have hlt := (readByte?_eq_some_iff.1 hnumber).1
          refine .function hkeyword hname hentry (.inr ?_)
          rw [hnumber, UInt8.toNat_ofNat', Nat.mod_eq_of_lt hlt]
        · cases h
    · cases h
  · rintro h
    cases h with
    | @constant afterKeyword afterName value name kind constant hkeyword hname hkind hne hvalue =>
      refine bind_eq_ok_iff.2 ⟨("const", afterKeyword), directiveWord_eq_ok_iff.2 hkeyword, ?_⟩
      refine bind_eq_ok_iff.2 ⟨(name, afterName), directiveWord_eq_ok_iff.2 hname, ?_⟩
      refine bind_eq_ok_iff.2 ⟨(kind, value), directiveWord_eq_ok_iff.2 hkind, ?_⟩
      dsimp only
      rw [if_neg (by simpa using hne)]
      exact bind_eq_ok_iff.2 ⟨constant, hvalue, rfl⟩
    | @function afterKeyword afterName count name entry paramCount hkeyword hname hentry hcount =>
      refine bind_eq_ok_iff.2 ⟨("func", afterKeyword), directiveWord_eq_ok_iff.2 hkeyword, ?_⟩
      refine bind_eq_ok_iff.2 ⟨(name, afterName), directiveWord_eq_ok_iff.2 hname, ?_⟩
      refine bind_eq_ok_iff.2 ⟨(entry, count), directiveWord_eq_ok_iff.2 hentry, ?_⟩
      dsimp only
      rcases hcount with ⟨rfl, rfl⟩ | hnumber
      · rfl
      · have hne : ¬ count.isEmpty = true := by
          intro hnil
          rw [List.isEmpty_iff.1 hnil] at hnumber
          cases hnumber
        rw [if_neg hne, hnumber]
        change Except.ok _ = _
        rw [UInt8.ofNat_toNat]

theorem readBody_eq_ok_iff {text : List Char} {statement : Option Statement} :
    readBody text = .ok statement ↔ BodySays text statement := by
  unfold readBody
  constructor
  · intro h
    split at h
    · next hnil =>
      cases h
      rw [List.isEmpty_iff.1 hnil]
      exact .empty
    · obtain ⟨found, hread, rfl⟩ := map_eq_ok_iff.1 h
      exact .instruction (readInstruction_eq_ok_iff.1 hread)
  · intro h
    cases h with
    | empty => rfl
    | instruction h =>
      rw [if_neg (by simpa using h.ne_nil), readInstruction_eq_ok_iff.2 h]
      rfl

theorem labelText_iff {text : List Char} {label : String} {after : List Char}
    (hpoint : text.head? ≠ some '.') :
    LabelText text label after ↔ ∃ before behind,
      splitAt? (· == ':') text = some (before, behind) ∧ isIdentifier (trim before) = true ∧
        String.ofList (trim before) = label ∧ trim behind = after := by
  constructor
  · rintro ⟨-, hidentifier, before, behind, rfl, hbefore, hlabel, hafter⟩
    refine ⟨before, behind, splitAt?_eq_some_iff.2 ⟨':', by simp, ?_, rfl⟩, hlabel ▸ hidentifier,
      by rw [hlabel, String.ofList_toList], hafter⟩
    intro c hc
    simpa using fun h : c = ':' ↦ hbefore (h ▸ hc)
  · rintro ⟨before, behind, hsplit, hidentifier, rfl, hafter⟩
    obtain ⟨c, hc, hbefore, htext⟩ := splitAt?_eq_some_iff.1 hsplit
    have hcolon : c = ':' := by simpa using hc
    subst hcolon
    refine ⟨hpoint, by rwa [String.toList_ofList], before, behind, htext, ?_,
      String.toList_ofList.symm, hafter⟩
    exact fun hmem ↦ absurd (hbefore ':' hmem) (by simp)

theorem readLine_unlabelled {text : List Char} {content : Content}
    (hpoint : text.head? ≠ some '.') (hlabel : ∀ label after, ¬ LabelText text label after) :
    (⟨none, readBody text⟩ : Line) = ⟨content.label, .ok content.statement⟩ ↔
      Says text content := by
  rcases content with ⟨label, statement⟩
  simp only [Line.mk.injEq, readBody_eq_ok_iff]
  constructor
  · rintro ⟨rfl, h⟩
    exact .unlabelled hpoint hlabel h
  · intro h
    cases h with
    | directive _ => exact absurd rfl hpoint
    | unlabelled _ _ h => exact ⟨rfl, h⟩
    | labelled hlabelled _ => exact absurd hlabelled (hlabel _ _)

/-- A line is read without a problem exactly if it says something, and as what it says. -/
theorem readLine_eq_iff {raw : List Char} {content : Content} :
    readLine raw = ⟨content.label, .ok content.statement⟩ ↔ LineSays raw content := by
  unfold readLine LineSays
  generalize trim (stripComment raw) = text
  split
  · next directive =>
    rcases content with ⟨label, statement⟩
    simp only [Line.mk.injEq, map_eq_ok_iff, readDirective_eq_ok_iff]
    constructor
    · rintro ⟨rfl, found, h, rfl⟩
      exact .directive h
    · intro h
      cases h with
      | directive h => exact ⟨rfl, _, h, rfl⟩
      | unlabelled hpoint _ _ => exact absurd rfl hpoint
      | labelled hlabel _ => exact absurd rfl hlabel.no_point
  · next hshape =>
    have hpoint : text.head? ≠ some '.' := by
      intro h
      obtain ⟨rest, rfl⟩ := List.head?_eq_some_iff.1 h
      exact hshape rest rfl
    split
    · next hsplit =>
      refine readLine_unlabelled hpoint fun label after h ↦ ?_
      obtain ⟨before, behind, hfound, -⟩ := (labelText_iff hpoint).1 h
      exact absurd (hsplit.symm.trans hfound) (by simp)
    · next before behind hsplit =>
      dsimp only
      split
      · next hidentifier =>
        have hlabel : LabelText text (String.ofList (trim before)) (trim behind) :=
          (labelText_iff hpoint).2 ⟨before, behind, hsplit, hidentifier, rfl, rfl⟩
        rcases content with ⟨label, statement⟩
        simp only [Line.mk.injEq, readBody_eq_ok_iff]
        constructor
        · rintro ⟨rfl, h⟩
          exact .labelled hlabel h
        · intro h
          cases h with
          | directive _ => exact absurd rfl hpoint
          | unlabelled _ hnone _ => exact absurd hlabel (hnone _ _)
          | labelled hother h =>
            obtain ⟨_, _, hfound, -, rfl, rfl⟩ := (labelText_iff hpoint).1 hother
            cases hsplit.symm.trans hfound
            exact ⟨rfl, h⟩
      · next hidentifier =>
        refine readLine_unlabelled hpoint fun label after h ↦ ?_
        obtain ⟨_, _, hfound, hlabel, -⟩ := (labelText_iff hpoint).1 h
        cases hsplit.symm.trans hfound
        exact hidentifier hlabel

/-- A line has one content. -/
theorem LineSays.unique {raw : List Char} {content other : Content} (h : LineSays raw content)
    (hother : LineSays raw other) : content = other := by
  rcases content with ⟨label, statement⟩
  rcases other with ⟨label', statement'⟩
  cases (readLine_eq_iff.2 h).symm.trans (readLine_eq_iff.2 hother)
  rfl

end RegisterMachine.Assembly
