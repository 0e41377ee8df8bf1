import RegisterMachine.Proofs.Assembly.LoadInt

/-!
# String literals

Two scans meet a string literal. The first looks for a comment and follows quotes and backslashes
for that; the second reads what stands between the outermost quotes. Every string has a spelling
that both take for one literal, so it reaches the pool as it is, whatever it contains and whatever
the comment behind it contains.
-/

namespace RegisterMachine.Assembly

open Text

/-! ## The spelling of a string -/

/-- A character in a literal: an escape for a backslash, a quote, a line feed and a tab. -/
def escapeChar : Char → List Char
  | '\\' => ['\\', '\\']
  | '"' => ['\\', '"']
  | '\n' => ['\\', 'n']
  | '\t' => ['\\', 't']
  | c => [c]

/-- The literal of a string. -/
def literal (text : List Char) : List Char :=
  '"' :: (text.flatMap escapeChar ++ ['"'])

/-- The line that defines a name as a string, with a comment. -/
def constantLine (name text comment : List Char) : List Char :=
  ".const ".toList ++ name ++ " str ".toList ++ literal text ++ " # ".toList ++ comment

variable {name text comment : List Char}

/-- The spelling of a character is read back. -/
theorem unescape?_escapeChar (c : Char) (rest : List Char) :
    unescape? (escapeChar c ++ rest) = (unescape? rest).map (c :: ·) := by
  unfold escapeChar
  split
  case h_5 hplain _ _ _ =>
    have hbackslash : c ≠ '\\' := hplain
    cases hrest : unescape? rest <;> simp [unescape?, hbackslash, hrest]
  all_goals
    cases hrest : unescape? rest <;> simp [unescape?, hrest]

theorem unescape?_escaped (text : List Char) :
    unescape? (text.flatMap escapeChar) = some text := by
  induction text with
  | nil => rfl
  | cons c text ih => rw [List.flatMap_cons, unescape?_escapeChar, ih, Option.map_some]

theorem readLiteral?_literal (text : List Char) :
    readLiteral? (literal text) = some (String.ofList text) := by
  rw [literal, readLiteral?, List.getLast?_concat]
  rw [List.dropLast_concat, unescape?_escaped, Option.map_some]
  rfl

/-- In a literal, the scan for a comment passes over the spelling of a character, and no backslash
is pending after it. -/
theorem stripComment_go_escapeChar (c : Char) (rest : List Char) :
    stripComment.go true false (escapeChar c ++ rest) =
      escapeChar c ++ stripComment.go true false rest := by
  unfold escapeChar
  split
  case h_5 hplain hinside _ _ =>
    have hbackslash : c ≠ '\\' := hplain
    have hquote : c ≠ '"' := hinside
    simp [stripComment.go, hbackslash, hquote]
  all_goals simp [stripComment.go]

theorem stripComment_go_escaped (text rest : List Char) :
    stripComment.go true false (text.flatMap escapeChar ++ rest) =
      text.flatMap escapeChar ++ stripComment.go true false rest := by
  induction text with
  | nil => rfl
  | cons c text ih =>
    rw [List.flatMap_cons, List.append_assoc, stripComment_go_escapeChar, ih, List.append_assoc]

/-- The scan for a comment passes over a literal. -/
theorem stripComment_go_literal (text rest : List Char) :
    stripComment.go false false (literal text ++ rest) =
      literal text ++ stripComment.go false false rest := by
  simp [literal, stripComment.go, stripComment_go_escaped]

/-! ## The line of a string -/

/-- The characters of a name end no word, no line and no literal. -/
theorem plain_of_mem_identifier (hname : isIdentifier name = true) {c : Char} (hc : c ∈ name) :
    isBlank c = false ∧ c ≠ '\n' ∧ c ≠ '#' ∧ c ≠ '"' := by
  have hrange := toNat_of_mem_identifier hname c hc
  refine ⟨isBlank_of_visible (by omega) (by omega), ?_, ?_, ?_⟩
  all_goals
    rintro rfl
    exact absurd hrange (by decide)

/-- A text that has no blanks at its ends. -/
structure Tight (text : List Char) : Prop where
  ne_nil : text ≠ []
  first : ∀ c ∈ text.head?, isBlank c = false
  last : ∀ c ∈ text.getLast?, isBlank c = false

theorem tight_literal (text : List Char) : Tight (literal text) := by
  have hquote : isBlank '"' = false := by decide
  refine ⟨List.cons_ne_nil _ _, fun c hc ↦ ?_, fun c hc ↦ ?_⟩
  · obtain rfl : '"' = c := Option.some.inj hc
    exact hquote
  · rw [literal, ← List.cons_append, List.getLast?_concat] at hc
    obtain rfl : '"' = c := Option.some.inj hc
    exact hquote

theorem not_blank_of_all {word : List Char} (h : word.all (fun c ↦ !isBlank c) = true) :
    ∀ c ∈ word, isBlank c = false := by
  simpa using h

section Words

variable {word rest : List Char} (hne : word ≠ []) (hword : ∀ c ∈ word, isBlank c = false)
  (hrest : Tight rest)

include hne hword hrest

theorem Tight.space : Tight (word ++ ' ' :: rest) where
  ne_nil := List.append_ne_nil_of_left_ne_nil hne _
  first c hc := by
    rw [List.head?_append_of_ne_nil _ hne] at hc
    exact hword c (List.mem_of_head? hc)
  last c hc := by
    rw [List.getLast?_append_cons, List.getLast?_cons_of_ne_nil hrest.ne_nil] at hc
    exact hrest.last c hc

/-- A word before a space is the first one, and what follows the space is the rest. -/
theorem firstWord_space : FirstWord (word ++ ' ' :: rest) word rest := by
  have hspace : ∀ c ∈ [' '], isBlank c = true := List.forall_mem_singleton.2 (by decide)
  refine ⟨hne, hword, [], ' ' :: rest, rfl, nofun, fun c hc ↦ ?_, ?_⟩
  · exact hspace c (List.mem_singleton.2 (Option.some.inj hc).symm)
  · simpa using trim_between hspace (List.forall_mem_nil _) hrest.ne_nil hrest.first hrest.last

end Words

theorem stripComment_constantLine (hname : isIdentifier name = true) (text comment : List Char) :
    stripComment (constantLine name text comment) =
      ".const ".toList ++ name ++ " str ".toList ++ literal text ++ [' '] := by
  have hfront : ∀ c ∈ ".const ".toList ++ name ++ " str ".toList, c ≠ '#' ∧ c ≠ '"' := by
    simp only [List.forall_mem_append]
    exact ⟨⟨by simp, fun c hc ↦ (plain_of_mem_identifier hname hc).2.2⟩, by simp⟩
  have hcomment : stripComment.go false false (" # ".toList ++ comment) = [' '] := by
    simp [stripComment.go]
  unfold stripComment constantLine
  calc
    _ = stripComment.go false false (".const ".toList ++ name ++ " str ".toList ++
        (literal text ++ (" # ".toList ++ comment))) := by
      rw [List.append_assoc, List.append_assoc]
    _ = ".const ".toList ++ name ++ " str ".toList ++ (literal text ++ [' ']) := by
      rw [stripComment_go_append hfront, stripComment_go_literal, hcomment]
    _ = _ := (List.append_assoc _ _ _).symm

/-- The line defines the name as the string. -/
theorem lineSays_constantLine (hname : isIdentifier name = true) (text comment : List Char) :
    LineSays (constantLine name text comment)
      ⟨none, some (.constant (String.ofList name) (.str (String.ofList text)))⟩ := by
  have hconst : ∀ c ∈ "const".toList, isBlank c = false := not_blank_of_all (by decide)
  have hstr : ∀ c ∈ "str".toList, isBlank c = false := not_blank_of_all (by decide)
  have hvalue : Tight (literal text) := tight_literal text
  have hkind : Tight ("str".toList ++ ' ' :: literal text) := .space (by decide) hstr hvalue
  have hne : name ≠ [] := by
    rintro rfl
    cases hname
  have hletters : ∀ c ∈ name, isBlank c = false :=
    fun c hc ↦ (plain_of_mem_identifier hname hc).1
  have hbody : Tight (name ++ ' ' :: ("str".toList ++ ' ' :: literal text)) :=
    .space hne hletters hkind
  have hline : Tight (".const".toList ++ ' ' :: (name ++ ' ' :: ("str".toList ++ ' ' ::
      literal text))) := .space (by decide) (not_blank_of_all (by decide)) hbody
  have htrimmed : trim (stripComment (constantLine name text comment)) =
      '.' :: ("const".toList ++ ' ' :: (name ++ ' ' :: ("str".toList ++ ' ' ::
        literal text))) := by
    have hspace : ∀ c ∈ [' '], isBlank c = true := List.forall_mem_singleton.2 (by decide)
    have htrim := trim_between (List.forall_mem_nil _) hspace hline.ne_nil hline.first hline.last
    rw [stripComment_constantLine hname]
    simpa using htrim
  have hkeyword := firstWord_space (by decide : "const".toList ≠ []) hconst hbody
  have hread : readConstant "str" (literal text) = .ok (.str (String.ofList text)) := by
    rw [readConstant, readLiteral?_literal]
    rfl
  have hword : (String.ofList name).toList = name := String.toList_ofList
  rw [LineSays, htrimmed]
  refine .directive (.constant hkeyword ?_ (firstWord_space (by decide) hstr hvalue)
    hvalue.ne_nil hread)
  rw [hword]
  exact firstWord_space hne hletters hkind

/-! ## Assembling -/

theorem constantLine_ne_nil (name text comment : List Char) :
    constantLine name text comment ≠ [] := by
  have hliteral : literal text ≠ [] := List.cons_ne_nil _ _
  have hfront :=
    List.append_ne_nil_of_right_ne_nil (".const ".toList ++ name ++ " str ".toList) hliteral
  exact List.append_ne_nil_of_left_ne_nil (List.append_ne_nil_of_left_ne_nil hfront _) _

theorem no_feed_escapeChar (c : Char) : '\n' ∉ escapeChar c := by
  unfold escapeChar
  split
  case h_5 _ _ hplain _ =>
    have hfeed : c ≠ '\n' := hplain
    simpa using hfeed.symm
  all_goals decide

/-- The line is one line, whatever the string. -/
theorem no_feed_constantLine (hname : isIdentifier name = true) (text : List Char)
    (hcomment : '\n' ∉ comment) : '\n' ∉ constantLine name text comment := by
  have hliteral : '\n' ∉ literal text := by
    simp [literal, no_feed_escapeChar]
  have hletters : '\n' ∉ name := fun hc ↦ (plain_of_mem_identifier hname hc).2.1 rfl
  have hmarks : '\n' ∉ ".const ".toList ∧ '\n' ∉ " str ".toList ∧ '\n' ∉ " # ".toList := by
    decide
  unfold constantLine
  simp only [List.mem_append, not_or]
  exact ⟨⟨⟨⟨⟨hmarks.1, hletters⟩, hmarks.2.1⟩, hliteral⟩, hmarks.2.2⟩, hcomment⟩

/-- The line alone is a text with one constant and nothing else. -/
theorem gather_constantLine (hname : isIdentifier name = true) (text : List Char)
    (hcomment : '\n' ∉ comment) :
    gather (String.ofList (constantLine name text comment)) = .ok
      { constants := ⟨#[.str (String.ofList text)]⟩
        symbols := [(String.ofList name, 0)] } := by
  have hread := readLine_eq_iff.2 (lineSays_constantLine hname text comment)
  have hfirst (value : Constant) : ConstantPool.add {} value = (0, ⟨#[value]⟩) := by
    simp [ConstantPool.add, ConstantPool.size]
  have hline (name : String) (value : Constant) :
      Draft.addLine {} 1 ⟨none, .ok (some (.constant name value))⟩ =
        .ok { constants := ⟨#[value]⟩, symbols := [(name, 0)] } := by
    have hstatement : Draft.addStatement {} 1 (.constant name value) =
        .ok { constants := ⟨#[value]⟩, symbols := [(name, 0)] } := by
      rw [Draft.addStatement, hfirst]
      rfl
    rw [addLine_eq]
    exact hstatement
  have hadd : Draft.addText {} (constantLine name text comment, 1) = .ok
      { constants := ⟨#[.str (String.ofList text)]⟩
        symbols := [(String.ofList name, 0)] } := by
    rw [Draft.addText, hread]
    dsimp only
    rw [hline]
  rw [gather, String.toList_ofList, lines_of_no_feed (constantLine_ne_nil name text comment)
    (no_feed_constantLine hname text hcomment), List.zipIdx_singleton, List.foldlM_cons, hadd]
  rfl

/-- **A string survives the assembler**, whatever the string and the comment behind it are: the line
that spells it is a text whose program has that string alone, at the index that the name is bound
to; and in every text that assembles and has that line, the pool of the program holds the string at
the index that the name is bound to. -/
theorem literal_survives (name text comment : String) (hname : isIdentifier name.toList = true) :
    ('\n' ∉ comment.toList → ∀ program, ∃ draft,
      gather (String.ofList (constantLine name.toList text.toList comment.toList)) = .ok draft ∧
      draft.symbol name = .ok 0 ∧
      assemble program (String.ofList (constantLine name.toList text.toList comment.toList)) =
        .ok ⟨program, #[], ⟨#[.str text]⟩, #[]⟩) ∧
    ∀ source program result,
      constantLine name.toList text.toList comment.toList ∈ lines source.toList →
      assemble program source = .ok result → ∃ draft index, gather source = .ok draft ∧
        draft.symbol name = .ok index ∧ result.constants.get? index.toNat = some (.str text) := by
  constructor
  · intro hcomment program
    have hgather := gather_constantLine hname text.toList hcomment
    rw [String.ofList_toList, String.ofList_toList] at hgather
    refine ⟨_, hgather, ?_, ?_⟩
    · simp [Draft.symbol]
    · rw [assemble, hgather]
      rfl
  · intro source program result hmem hassemble
    obtain ⟨draft, hgather, hfinish⟩ := bind_eq_ok_iff.1 hassemble
    obtain ⟨contents, hmeans, hdraft⟩ := exists_gathers hgather
    obtain ⟨-, hresolves⟩ := hdraft.resolves hfinish
    obtain ⟨content, hcontent, hsays⟩ := exists_content hmeans hmem
    obtain rfl := hsays.unique (lineSays_constantLine hname text.toList comment.toList)
    rw [String.ofList_toList, String.ofList_toList] at hcontent
    obtain ⟨before, after, rfl⟩ := List.append_of_mem hcontent
    have hdefined :
        name ∈ namesOf (before ++ ⟨none, some (.constant name (.str text))⟩ :: after) := by
      simp [namesOf, Content.names, Content.constant?]
    obtain ⟨index, hindex⟩ := hdraft.exists_symbol hdefined
    refine ⟨draft, index, hgather, hindex, ?_⟩
    have hplace : index.toNat = ((poolOf before).add (.str text)).1 :=
      (hdraft.symbol hindex).unique hresolves.names (.constant rfl rfl)
    obtain ⟨entry, hentry, hsame⟩ := hresolves.held before _ after name (.str text) rfl rfl
    rw [hplace, hentry]
    rcases hsame with rfl | hequals
    · rfl
    · cases entry with
      | str value => rw [beq_iff_eq.1 hequals]
      | _ => cases hequals

/-- A string with everything that could end it, in front of a comment with as much. -/
theorem literal_survives_tangled :
    isIdentifier "a.b".toList = true ∧
      assemble "tangled" (String.ofList (constantLine "a.b".toList "#\"\\\n\t,:\r ".toList
        "\" # \\".toList)) = .ok ⟨"tangled", #[], ⟨#[.str "#\"\\\n\t,:\r "]⟩, #[]⟩ := by
  have hname : isIdentifier "a.b".toList = true := by decide
  obtain ⟨draft, -, -, hassemble⟩ :=
    (literal_survives "a.b" "#\"\\\n\t,:\r " "\" # \\" hname).1 (by decide) "tangled"
  exact ⟨hname, hassemble⟩

end RegisterMachine.Assembly
