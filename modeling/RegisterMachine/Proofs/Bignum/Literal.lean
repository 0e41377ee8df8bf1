import RegisterMachine.Proofs.Bignum.Sign
import RegisterMachine.Proofs.Text.Scan

/-!
# Literals of bignums

A literal is a decimal numeral as it may be read: a sign or none, a digit, and then digits and
underscores. It is read wherever it stands alone in a text, with nothing but white space around it,
and no other text is read. The value is that of the digits, whatever the underscores between them.

The text of a bignum is a literal of its value, so reading what was written gives a bignum of the
same value. Its sign flag is clear if the value is zero, so the bignum itself need not be the same.
-/

namespace RegisterMachine

namespace Magnitude

/-! ## Digits and underscores -/

/-- Underscores are skipped. -/
theorem readDigits_filter (limbs : Magnitude) (chunk : UInt32) (count : Nat) (text : List Char) :
    readDigits limbs chunk count (text.filter (· ≠ '_')) = readDigits limbs chunk count text := by
  induction text generalizing limbs chunk count with
  | nil => rfl
  | cons c rest ih =>
    by_cases hunderscore : c = '_'
    · rw [List.filter_cons_of_neg (by simpa using hunderscore), ih, readDigits, if_pos hunderscore]
    · rw [List.filter_cons_of_pos (by simpa using hunderscore), readDigits, readDigits,
        if_neg hunderscore, if_neg hunderscore]
      simp only [ih]

theorem isDigit_of_decimalDigit? {c : Char} {digit : Nat} (h : Text.decimalDigit? c = some digit) :
    c.isDigit = true := by
  unfold Text.decimalDigit? at h
  split at h
  · next hrange =>
    simp only [Char.isDigit, Bool.and_eq_true, decide_eq_true_eq]
    exact hrange
  · cases h

theorem isDigit_of_readDigits {limbs result : Magnitude} {chunk : UInt32} {count : Nat}
    {text : List Char} (hread : readDigits limbs chunk count text = some result) :
    ∀ c ∈ text, c ≠ '_' → c.isDigit = true := by
  fun_induction readDigits limbs chunk count text with
  | case1 => nofun
  | case2 limbs chunk count rest ih =>
    exact List.forall_mem_cons.2 ⟨fun hne ↦ absurd rfl hne, ih hread⟩
  | case3 => cases hread
  | case4 limbs chunk count c rest hunderscore digit hdigit gathered hfull ih =>
    exact List.forall_mem_cons.2 ⟨fun _ ↦ isDigit_of_decimalDigit? hdigit, ih hread⟩
  | case5 limbs chunk count c rest hunderscore digit hdigit gathered hopen ih =>
    exact List.forall_mem_cons.2 ⟨fun _ ↦ isDigit_of_decimalDigit? hdigit, ih hread⟩

theorem canonical_readDigits {limbs result : Magnitude} {chunk : UInt32} {count : Nat}
    {text : List Char} (hlimbs : Canonical limbs)
    (hread : readDigits limbs chunk count text = some result) : Canonical result := by
  fun_induction readDigits limbs chunk count text with
  | case1 limbs chunk count =>
    rw [← Option.some.inj hread]
    split
    · exact hlimbs
    · exact canonical_normalize _
  | case2 limbs chunk count rest ih => exact ih hlimbs hread
  | case3 => cases hread
  | case4 limbs chunk count c rest hunderscore digit hdigit gathered hfull ih =>
    exact ih (canonical_normalize _) hread
  | case5 limbs chunk count c rest hunderscore digit hdigit gathered hopen ih =>
    exact ih hlimbs hread

end Magnitude

namespace Bignum

/-! ## Literals -/

theorem isBlank_of_isDigit {c : Char} (h : c.isDigit = true) : Text.isBlank c = false := by
  have hrange := Magnitude.toNat_of_isDigit h
  simp only [Text.isBlank, Bool.or_eq_false_iff, Bool.and_eq_false_iff, decide_eq_false_iff_not,
    beq_eq_false_iff_ne]
  omega

/-- What may stand in front of the digits. -/
inductive SignMark where
  | none | plus | minus

/-- The characters of a sign. -/
def SignMark.chars : SignMark → List Char
  | .none => []
  | .plus => ['+']
  | .minus => ['-']

/-- Whether the number is negated. -/
def SignMark.negates : SignMark → Bool
  | .minus => true
  | _ => false

theorem SignMark.length_chars_of_negates (mark : SignMark) (h : mark.negates = true) :
    1 ≤ mark.chars.length := by
  cases mark with
  | minus => exact Nat.le_refl 1
  | none => cases h
  | plus => cases h

/-- A decimal literal: a sign if there is one, a digit, and then digits and underscores. -/
structure Literal where
  mark : SignMark
  first : Char
  rest : List Char
  isDigit_first : first.isDigit = true
  isDigit_rest : ∀ c ∈ rest, c.isDigit = true ∨ c = '_'

namespace Literal

variable (literal : Literal)

/-- The digits, and the underscores between and behind them. -/
def body : List Char :=
  literal.first :: literal.rest

/-- The characters of a literal. -/
def chars : List Char :=
  literal.mark.chars ++ literal.body

/-- The digits alone. -/
def digits : List Char :=
  literal.body.filter (· ≠ '_')

/-- The number that the digits stand for. -/
def magnitude : Nat :=
  Nat.ofDigitChars 10 literal.digits 0

/-- The integer that a literal stands for. -/
def value : Int :=
  if literal.mark.negates then -(literal.magnitude : Int) else literal.magnitude

/-- A literal alone in a text, but for white space. -/
def StandsIn (text : String) : Prop :=
  ∃ before after, text.toList = before ++ literal.chars ++ after ∧
    (∀ c ∈ before, Text.isBlank c = true) ∧ ∀ c ∈ after, Text.isBlank c = true

theorem isDigit_body {c : Char} (hc : c ∈ literal.body) : c.isDigit = true ∨ c = '_' := by
  rcases List.mem_cons.1 hc with rfl | hrest
  · exact .inl literal.isDigit_first
  · exact literal.isDigit_rest c hrest

theorem isDigit_digits {c : Char} (hc : c ∈ literal.digits) : c.isDigit = true := by
  obtain ⟨hbody, hunderscore⟩ := List.mem_filter.1 hc
  exact (literal.isDigit_body hbody).resolve_right (by simpa using hunderscore)

theorem first_ne_underscore : literal.first ≠ '_' := by
  intro hfirst
  have hdigit := literal.isDigit_first
  rw [hfirst] at hdigit
  exact absurd hdigit (by decide)

theorem digits_ne_nil : literal.digits ≠ [] := by
  simp [digits, body, literal.first_ne_underscore]

theorem isBlank_chars {c : Char} (hc : c ∈ literal.chars) : Text.isBlank c = false := by
  rcases List.mem_append.1 hc with hmark | hbody
  · cases hsign : literal.mark <;> simp [hsign, SignMark.chars] at hmark <;> rw [hmark] <;> rfl
  · rcases literal.isDigit_body hbody with hdigit | rfl
    · exact isBlank_of_isDigit hdigit
    · rfl

theorem standsIn_iff {text : String} :
    literal.StandsIn text ↔ Text.trim text.toList = literal.chars := by
  constructor
  · rintro ⟨before, after, htext, hbefore, hafter⟩
    rw [htext]
    exact Text.trim_between hbefore hafter (by simp [chars, body])
      (fun c hc ↦ literal.isBlank_chars (List.mem_of_mem_head? hc))
      fun c hc ↦ literal.isBlank_chars (List.mem_of_getLast? hc)
  · intro htrim
    obtain ⟨before, after, htext, hbefore, hafter⟩ := Text.exists_blanks text.toList
    exact ⟨before, after, htrim ▸ htext, hbefore, hafter⟩

end Literal

/-! ## Signs -/

theorem exists_mark (chars : List Char) :
    ∃ (mark : SignMark) (body : List Char), chars = mark.chars ++ body ∧
      (mark = .none → ∀ c ∈ body.head?, c ≠ '-' ∧ c ≠ '+') := by
  cases chars with
  | nil => exact ⟨.none, [], rfl, fun _ ↦ nofun⟩
  | cons c rest =>
    by_cases hminus : c = '-'
    · exact ⟨.minus, rest, by rw [hminus]; rfl, nofun⟩
    · by_cases hplus : c = '+'
      · exact ⟨.plus, rest, by rw [hplus]; rfl, nofun⟩
      · refine ⟨.none, c :: rest, rfl, ?_⟩
        rintro - _ ⟨⟩
        exact ⟨hminus, hplus⟩

/-- The sign is taken off, if there is one, and the body is read. -/
theorem parse_of_chars {text : String} {mark : SignMark} {body : List Char}
    (htrim : Text.trim text.toList = mark.chars ++ body)
    (hplain : mark = .none → ∀ c ∈ body.head?, c ≠ '-' ∧ c ≠ '+') :
    parse text = (parseBody mark.negates body).elim (.error (.parse text)) .ok := by
  unfold parse
  rw [htrim]
  cases mark with
  | plus =>
    cases hread : parseBody false body <;> simp [SignMark.chars, SignMark.negates, hread]
  | minus =>
    cases hread : parseBody true body <;> simp [SignMark.chars, SignMark.negates, hread]
  | none =>
    cases body with
    | nil => rfl
    | cons c rest =>
      obtain ⟨hminus, hplus⟩ := hplain rfl c rfl
      cases hread : parseBody false (c :: rest) <;>
        simp [SignMark.chars, SignMark.negates, hminus, hplus, hread]

/-! ## Reading -/

theorem parseBody_cons {c : Char} (hc : c ≠ '_') (negative : Bool) (rest : List Char) :
    parseBody negative (c :: rest) =
      (Magnitude.readDigits [0] 0 0 (c :: rest)).map
        fun limbs ↦ clearZeroSign ⟨limbs, negative⟩ := by
  unfold parseBody
  split
  · next h => cases h
  · next h => exact absurd (List.cons.inj h).1 hc
  · rfl

namespace Literal

variable (literal : Literal) {text : String}

theorem plain_body {c : Char} (hc : c ∈ literal.body.head?) : c ≠ '-' ∧ c ≠ '+' := by
  have hdigit := literal.isDigit_first
  have hfirst : literal.first = c := Option.some.inj hc
  rw [hfirst] at hdigit
  constructor <;> rintro rfl <;> exact absurd hdigit (by decide)

/-- A literal is read, and as the number that it stands for. -/
theorem parse_of_standsIn (h : literal.StandsIn text) :
    ∃ limbs : Magnitude, limbs.Canonical ∧ limbs.value = literal.magnitude ∧
      parse text = .ok (clearZeroSign ⟨limbs, literal.mark.negates⟩) := by
  obtain ⟨limbs, hread, hvalue⟩ := Magnitude.readDigits_spec
    (fun c hc ↦ literal.isDigit_digits hc) [0] 0 0 (by decide) (by decide)
  rw [digits, Magnitude.readDigits_filter] at hread
  refine ⟨limbs, Magnitude.canonical_readDigits (Magnitude.canonical_singleton 0) hread, hvalue, ?_⟩
  rw [parse_of_chars (literal.standsIn_iff.1 h) fun _ c hc ↦ literal.plain_body hc, body,
    parseBody_cons literal.first_ne_underscore, ← body, hread]
  rfl

/-- Nothing but literals is read. -/
theorem exists_of_parse {n : Bignum} (h : parse text = .ok n) :
    ∃ literal : Literal, literal.StandsIn text := by
  obtain ⟨mark, body, htrim, hplain⟩ := exists_mark (Text.trim text.toList)
  rw [parse_of_chars htrim hplain] at h
  cases hbody : parseBody mark.negates body with
  | none =>
    rw [hbody] at h
    cases h
  | some found =>
    cases body with
    | nil => cases hbody
    | cons first rest =>
      have hfirst : first ≠ '_' := by
        rintro rfl
        cases hbody
      rw [parseBody_cons hfirst, Option.map_eq_some_iff] at hbody
      obtain ⟨limbs, hread, -⟩ := hbody
      have hdigit := Magnitude.isDigit_of_readDigits hread
      have hrest : ∀ c ∈ rest, c.isDigit = true ∨ c = '_' := by
        intro c hc
        by_cases hunderscore : c = '_'
        · exact .inr hunderscore
        · exact .inl (hdigit c (List.mem_cons_of_mem _ hc) hunderscore)
      let literal : Literal := ⟨mark, first, rest, hdigit first List.mem_cons_self hfirst, hrest⟩
      exact ⟨literal, literal.standsIn_iff.2 htrim⟩

end Literal

/-! ## What was written -/

/-- The text of a bignum is a literal. -/
theorem exists_literal (n : Bignum) :
    ∃ literal : Literal, literal.StandsIn n.toText ∧ literal.value = n.toInt := by
  obtain ⟨hnumeral, hvalue⟩ := Magnitude.decimal_spec n.limbs
  have htext := toList_toText n
  rw [toInt_eq_of_isNegative, ← hvalue]
  generalize n.limbs.decimal.toList = chars at hnumeral htext
  cases chars with
  | nil => exact absurd rfl hnumeral.ne_nil
  | cons first rest =>
    have hrest : ∀ c ∈ rest, c.isDigit = true ∨ c = '_' := fun c hc ↦
      .inl (hnumeral.isDigit c (List.mem_cons_of_mem _ hc))
    let literal : Literal := ⟨if n.isNegative then .minus else .none, first, rest,
      hnumeral.isDigit first List.mem_cons_self, hrest⟩
    have hchars : n.toText.toList = literal.chars := by
      rw [htext]
      cases hsign : n.isNegative <;> simp [literal, Literal.chars, Literal.body, hsign] <;> rfl
    have hdigits : literal.digits = first :: rest := by
      refine List.filter_eq_self.2 fun c hc ↦ ?_
      have hdigit := hnumeral.isDigit c hc
      simp only [decide_eq_true_eq]
      rintro rfl
      exact absurd hdigit (by decide)
    refine ⟨literal, ⟨[], [], by simpa using hchars, List.forall_mem_nil _,
      List.forall_mem_nil _⟩, ?_⟩
    rw [Literal.value, Literal.magnitude, hdigits]
    cases hsign : n.isNegative <;> simp [literal, SignMark.negates, hsign]

/-- Reading the numeral of a bignum gives a bignum of the same value. -/
theorem parse_toText (n : Bignum) : ∃ m, parse n.toText = .ok m ∧ m.toInt = n.toInt := by
  obtain ⟨literal, hstands, hvalue⟩ := n.exists_literal
  obtain ⟨limbs, -, hlimbs, hparse⟩ := literal.parse_of_standsIn hstands
  refine ⟨_, hparse, ?_⟩
  rw [toInt_clearZeroSign, toInt_mk, hlimbs, ← hvalue]
  rfl

end Bignum

end RegisterMachine
