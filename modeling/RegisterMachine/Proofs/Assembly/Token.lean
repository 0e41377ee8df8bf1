import RegisterMachine.Assembly.Token
import RegisterMachine.Proofs.Bignum.Printed

/-!
# Words of assembly text, seen from the text

The readers of words scan a text; here each of them is characterised by the texts it accepts. Words
stand between separators, registers are a letter before a numeral, and no identifier reads as an
integer. Numerals that were printed are read back, and so are lines that were joined.
-/

namespace RegisterMachine

namespace Text

/-! ## Words -/

/-- A text and the words in it: the longest stretches without a separator. -/
inductive Separated (separates : Char → Bool) : List Char → List (List Char) → Prop
  | nil : Separated separates [] []
  | gap {c : Char} {text : List Char} {found : List (List Char)} (hc : separates c = true)
      (htext : Separated separates text found) : Separated separates (c :: text) found
  | word {letters text : List Char} {found : List (List Char)} (hne : letters ≠ [])
      (hletters : ∀ c ∈ letters, separates c = false)
      (hend : ∀ c ∈ text.head?, separates c = true) (htext : Separated separates text found) :
      Separated separates (letters ++ text) (letters :: found)

section Words

variable {separates : Char → Bool}

theorem words_go_append {letters : List Char} (hletters : ∀ c ∈ letters, separates c = false)
    (text current : List Char) :
    words.go separates (letters ++ text) current =
      words.go separates text (letters.reverse ++ current) := by
  induction letters generalizing current with
  | nil => rfl
  | cons c rest ih =>
    have hc : separates c = false := hletters c (by simp)
    rw [List.cons_append, words.go, if_neg (by simp [hc]),
      ih (fun c hmem ↦ hletters c (by simp [hmem]))]
    simp

theorem words_gap {c : Char} (hc : separates c = true) (text : List Char) :
    words separates (c :: text) = words separates text := by
  simp [words, words.go, hc]

theorem words_word {letters text : List Char} (hne : letters ≠ [])
    (hletters : ∀ c ∈ letters, separates c = false)
    (hend : ∀ c ∈ text.head?, separates c = true) :
    words separates (letters ++ text) = letters :: words separates text := by
  unfold words
  rw [words_go_append hletters]
  cases text with
  | nil => simp [words.go, hne]
  | cons c rest =>
    have hc : separates c = true := hend c (by simp)
    simp [words.go, hc, hne]

/-- The step of `separated_words`: a word that is being read is part of the text. -/
theorem separated_words_go (text : List Char) {current : List Char}
    (hcurrent : ∀ c ∈ current, separates c = false) :
    Separated separates (current.reverse ++ text)
      ((words.go separates text current).filter fun word ↦ !word.isEmpty) := by
  induction text generalizing current with
  | nil =>
    by_cases hne : current = []
    · subst hne
      exact .nil
    · have hword : Separated separates (current.reverse ++ []) [current.reverse] :=
        .word (by simpa using hne) (by simpa using hcurrent) (by simp) .nil
      simpa [words.go, hne] using hword
  | cons c rest ih =>
    by_cases hc : separates c = true
    · have hrest : Separated separates rest
          ((words.go separates rest []).filter fun word ↦ !word.isEmpty) :=
        @ih [] (by simp)
      by_cases hne : current = []
      · subst hne
        simpa [words.go, hc] using Separated.gap hc hrest
      · simpa [words.go, hc, hne] using
          Separated.word (by simpa using hne) (by simpa using hcurrent) (by simpa using hc)
            (Separated.gap hc hrest)
    · have hnext : ∀ d ∈ c :: current, separates d = false := by
        simpa [hc] using hcurrent
      simpa [words.go, hc] using ih hnext

theorem separated_words (separates : Char → Bool) (text : List Char) :
    Separated separates text (words separates text) := by
  have h : ∀ c ∈ ([] : List Char), separates c = false := by simp
  exact separated_words_go text h

/-- A text has one list of words. -/
theorem words_eq_iff {text : List Char} {found : List (List Char)} :
    words separates text = found ↔ Separated separates text found := by
  constructor
  · rintro rfl
    exact separated_words separates text
  · intro h
    induction h with
    | nil => rfl
    | gap hc _ ih => rw [words_gap hc, ih]
    | word hne hletters hend _ ih => rw [words_word hne hletters hend, ih]

end Words

/-! ## Numerals -/

theorem foldlM_decimalDigit?_eq_some_iff {text : List Char} {start n : Nat} :
    text.foldlM (fun value c ↦ do return value * 10 + (← decimalDigit? c)) start = some n ↔
      (∀ c ∈ text, c.isDigit = true) ∧ Nat.ofDigitChars 10 text start = n := by
  induction text generalizing start with
  | nil => simp
  | cons c rest ih =>
    rw [List.foldlM_cons]
    by_cases hc : c.isDigit = true
    · rw [Magnitude.decimalDigit?_of_isDigit hc]
      change rest.foldlM _ (start * 10 + (c.toNat - 48)) = some n ↔ _
      rw [ih, Nat.ofDigitChars_cons, Nat.mul_comm start]
      simp [hc]
    · have hnone : decimalDigit? c = none := by
        cases hd : decimalDigit? c with
        | none => rfl
        | some digit => exact absurd (Magnitude.isDigit_of_decimalDigit? hd) hc
      simp [hnone, hc]

/-- A text is read as a natural number if it consists of digits. -/
theorem readNat?_eq_some_iff {text : List Char} {n : Nat} :
    readNat? 10 decimalDigit? text = some n ↔
      Magnitude.IsNumeral text ∧ Nat.ofDigitChars 10 text 0 = n := by
  cases text with
  | nil => exact ⟨fun h ↦ (Option.some_ne_none n h.symm).elim, fun h ↦ absurd rfl h.1.ne_nil⟩
  | cons first rest =>
    -- The leading digit is read as the others are, from zero.
    have hfold : readNat? 10 decimalDigit? (first :: rest) =
        (first :: rest).foldlM (fun value c ↦ do return value * 10 + (← decimalDigit? c)) 0 := by
      cases hfirst : decimalDigit? first <;> simp [readNat?, hfirst]
    rw [hfold, foldlM_decimalDigit?_eq_some_iff]
    exact ⟨fun h ↦ ⟨⟨by simp, h.1⟩, h.2⟩, fun h ↦ ⟨h.1.isDigit, h.2⟩⟩

theorem readInt?_toDigits (n : Nat) :
    readInt? 10 decimalDigit? (Nat.toDigits 10 n) = some (n : Int) := by
  have hnumeral := Magnitude.isNumeral_toDigits n
  have hread : readNat? 10 decimalDigit? (Nat.toDigits 10 n) = some n :=
    readNat?_eq_some_iff.2 ⟨hnumeral, Nat.ofDigitChars_ten_toDigits⟩
  unfold readInt?
  split
  · next rest hdigits => exact absurd (hnumeral.isDigit '-' (by simp [hdigits])) (by decide)
  · next rest hdigits => exact absurd (hnumeral.isDigit '+' (by simp [hdigits])) (by decide)
  · simp [hread]

end Text

namespace Assembly

open Text

/-! ## Splitting -/

theorem splitAt?_eq_some_iff {separates : Char → Bool} {text before after : List Char} :
    splitAt? separates text = some (before, after) ↔
      ∃ c, separates c = true ∧ (∀ d ∈ before, separates d = false) ∧
        text = before ++ c :: after := by
  constructor
  · intro h
    unfold splitAt? at h
    split at h
    · cases h
    · next c rest hdrop =>
      cases h
      obtain ⟨htext, hfront, hback⟩ := scan_iff.1 ⟨rfl, hdrop⟩
      exact ⟨c, by simpa using hback, by simpa using hfront, htext⟩
  · rintro ⟨c, hc, hbefore, rfl⟩
    have hscan := (@scan_iff (fun c ↦ !separates c) (before ++ c :: after) before (c :: after)).2
      ⟨rfl, by simpa using hbefore, by simpa using hc⟩
    rw [splitAt?, hscan.2, hscan.1]

theorem splitAt?_eq_none_iff {separates : Char → Bool} {text : List Char} :
    splitAt? separates text = none ↔ ∀ c ∈ text, separates c = false := by
  unfold splitAt?
  split
  · next hdrop => simpa using hdrop
  · next c rest hdrop =>
    have hmem : c ∈ text := List.dropWhile_sublist _ |>.subset (hdrop ▸ List.mem_cons_self)
    have hc : separates c = true := by simpa using (scan_iff.1 ⟨rfl, hdrop⟩).2.2
    simp only [reduceCtorEq, false_iff]
    intro hall
    exact absurd hc (by simp [hall c hmem])

/-- The first word of a text, and what follows it. -/
structure FirstWord (text word rest : List Char) : Prop where
  ne_nil : word ≠ []
  not_blank : ∀ c ∈ word, isBlank c = false
  around : ∃ gap tail, text = gap ++ (word ++ tail) ∧ (∀ c ∈ gap, isBlank c = true) ∧
    (∀ c ∈ tail.head?, isBlank c = true) ∧ trim tail = rest

theorem nextWord?_eq_some_iff {text word rest : List Char} :
    nextWord? text = some (word, rest) ↔ FirstWord text word rest := by
  constructor
  · intro h
    unfold nextWord? at h
    split at h
    · cases h
    · next hne =>
      cases h
      obtain ⟨htext, hgap, hstart⟩ := (@scan_iff isBlank text _ _).1 ⟨rfl, rfl⟩
      obtain ⟨hword, hletters, htail⟩ :=
        (@scan_iff (fun c ↦ !isBlank c) (trimStart text) _ _).1 ⟨rfl, rfl⟩
      refine ⟨?_, by simpa using hletters, _, _, htext.trans (congrArg (_ ++ ·) hword), hgap,
        by simpa using htail, rfl⟩
      cases hshape : trimStart text with
      | nil => exact absurd hshape hne
      | cons c rest =>
        rw [← trimStart, hshape] at hstart
        simp [hstart c (by simp)]
  · rintro ⟨hne, hletters, gap, tail, rfl, hgap, htail, rfl⟩
    obtain ⟨first, letters, rfl⟩ := List.exists_cons_of_ne_nil hne
    have hstart : trimStart (gap ++ (first :: letters ++ tail)) = first :: letters ++ tail :=
      (scan_iff.2 ⟨rfl, hgap, by simpa using hletters first (by simp)⟩).2
    have hscan := (@scan_iff (fun c ↦ !isBlank c) (first :: letters ++ tail) (first :: letters)
      tail).2 ⟨rfl, by simpa using hletters, by simpa using htail⟩
    unfold nextWord?
    rw [hstart]
    change some ((first :: letters ++ tail).takeWhile _,
      trim ((first :: letters ++ tail).dropWhile _)) = _
    rw [hscan.1, hscan.2]

/-! ## Integers, identifiers and registers -/

theorem fit64?_of_lt {n : Nat} (h : n < 2 ^ 63) : fit64? n = some (n : Int) := by
  unfold fit64?
  rw [if_pos (by omega)]

/-- A printed natural number is read back. -/
theorem readSigned?_toDigits {n : Nat} (h : n < 2 ^ 63) :
    readSigned? (Nat.toDigits 10 n) = some (n : Int) := by
  have hnumeral := Magnitude.isNumeral_toDigits n
  unfold readSigned?
  split
  · next digits hdigits => exact absurd (hnumeral.isDigit 'x' (by simp [hdigits])) (by decide)
  · next digits hdigits => exact absurd (hnumeral.isDigit 'X' (by simp [hdigits])) (by decide)
  · rw [readInt?_toDigits, Option.bind_some, fit64?_of_lt h]

theorem readInteger?_toDigits {n : Nat} (h : n < 2 ^ 63) :
    readInteger? (Nat.toDigits 10 n) = some (n : Int) := by
  have hnumeral := Magnitude.isNumeral_toDigits n
  unfold readInteger?
  split
  · next rest hdigits => exact absurd (hnumeral.isDigit '-' (by simp [hdigits])) (by decide)
  · exact readSigned?_toDigits h

theorem toList_toString_negSucc (n : Nat) :
    (toString (Int.negSucc n)).toList = '-' :: Nat.toDigits 10 (n + 1) := by
  have hrepr : toString (Int.negSucc n) = "-" ++ (n + 1).repr := by
    rw [Int.toString_eq_repr]
    rfl
  rw [hrepr, String.toList_append, Nat.toList_repr]
  rfl

/-- A printed integer is read back. -/
theorem readInteger?_toString {value : Int} (h : value.natAbs < 2 ^ 63) :
    readInteger? (toString value).toList = some value := by
  cases value with
  | ofNat n => exact (congrArg readInteger? Nat.toList_repr).trans (readInteger?_toDigits h)
  | negSucc n =>
    have hread : readSigned? (Nat.toDigits 10 (n + 1)) = some ((n + 1 : Nat) : Int) :=
      readSigned?_toDigits h
    rw [toList_toString_negSucc, readInteger?, hread]
    rfl

theorem toNat_of_isUpper {c : Char} (h : c.isUpper = true) : 65 ≤ c.toNat ∧ c.toNat ≤ 90 := by
  have hrange : 'A'.val ≤ c.val ∧ c.val ≤ 'Z'.val := of_decide_eq_true h
  rw [UInt32.le_iff_toNat_le, UInt32.le_iff_toNat_le] at hrange
  exact hrange

theorem toNat_of_isAlpha {c : Char} (h : c.isAlpha = true) : 65 ≤ c.toNat ∧ c.toNat ≤ 122 := by
  rcases Bool.or_eq_true_iff.1 h with hupper | hlower
  · have hrange := toNat_of_isUpper hupper
    omega
  · have hrange : 'a'.val ≤ c.val ∧ c.val ≤ 'z'.val :=
      (Bool.and_eq_true_iff.1 hlower).imp of_decide_eq_true of_decide_eq_true
    rw [UInt32.le_iff_toNat_le, UInt32.le_iff_toNat_le] at hrange
    exact ⟨le_trans (by decide) hrange.1, hrange.2⟩

theorem not_isDigit_of_isAlpha {c : Char} (h : c.isAlpha = true) : c.isDigit = false := by
  have hletter := toNat_of_isAlpha h
  rw [← Bool.not_eq_true]
  intro hdigit
  have hrange := Magnitude.toNat_of_isDigit hdigit
  omega

/-- The characters of identifiers are letters, digits, underscores and points. -/
theorem toNat_of_mem_identifier {text : List Char} (h : isIdentifier text = true) :
    ∀ c ∈ text, 46 ≤ c.toNat ∧ c.toNat ≤ 122 := by
  have hletter {c : Char} (halpha : c.isAlpha = true) : 46 ≤ c.toNat ∧ c.toNat ≤ 122 := by
    have hrange := toNat_of_isAlpha halpha
    omega
  cases text with
  | nil => cases h
  | cons first rest =>
    simp only [isIdentifier, Bool.and_eq_true, Bool.or_eq_true, List.all_eq_true, beq_iff_eq] at h
    obtain ⟨hfirst, hrest⟩ := h
    refine List.forall_mem_cons.2 ⟨?_, fun c hc ↦ ?_⟩
    · rcases hfirst with halpha | rfl
      · exact hletter halpha
      · decide
    · rcases hrest c hc with ((halpha | hdigit) | rfl) | rfl
      · exact hletter halpha
      · have hrange := Magnitude.toNat_of_isDigit hdigit
        omega
      · decide
      · decide

/-- An identifier is never read as an integer. -/
theorem readInteger?_of_isIdentifier {text : List Char} (h : isIdentifier text = true) :
    readInteger? text = none := by
  cases text with
  | nil => cases h
  | cons first rest =>
    have hfirst : first.isAlpha = true ∨ first = '_' := by
      simp only [isIdentifier, Bool.and_eq_true, Bool.or_eq_true, beq_iff_eq] at h
      exact h.1
    have hminus : first ≠ '-' := by
      rintro rfl
      exact absurd hfirst (by decide)
    have hplus : first ≠ '+' := by
      rintro rfl
      exact absurd hfirst (by decide)
    have hzero : first ≠ '0' := by
      rintro rfl
      exact absurd hfirst (by decide)
    have hdigits : readNat? 10 decimalDigit? (first :: rest) = none := by
      rw [Option.eq_none_iff_forall_ne_some]
      intro n hread
      have hdigit := (readNat?_eq_some_iff.1 hread).1.isDigit first (by simp)
      rcases hfirst with halpha | rfl
      · exact absurd hdigit (by simp [not_isDigit_of_isAlpha halpha])
      · exact absurd hdigit (by decide)
    have hsigned : readSigned? (first :: rest) = none := by
      unfold readSigned?
      simp [readInt?, hminus, hplus, hzero, hdigits]
    simp [readInteger?, hminus, hsigned]

/-- A text that names a register: its letter, then a numeral with an optional plus sign. -/
structure RegisterText (text : List Char) (register : UInt8) : Prop where
  spelling : ∃ mark digits, (mark = 'r' ∨ mark = 'R') ∧
    (text = mark :: digits ∨ text = mark :: '+' :: digits) ∧ Magnitude.IsNumeral digits ∧
    Nat.ofDigitChars 10 digits 0 = register.toNat
  lt_count : register.toNat < registerCount

/-- A byte may have a plus sign, which no digit is. -/
theorem readByte?_eq_some_iff {text : List Char} {n : Nat} :
    readByte? text = some n ↔ n < 256 ∧ ∃ digits, (text = digits ∨ text = '+' :: digits) ∧
      Magnitude.IsNumeral digits ∧ Nat.ofDigitChars 10 digits 0 = n := by
  have hbound (digits : List Char) :
      (do let value ← readNat? 10 decimalDigit? digits
          if value < 256 then some value else none) = some n ↔
        n < 256 ∧ Magnitude.IsNumeral digits ∧ Nat.ofDigitChars 10 digits 0 = n := by
    simp only [Option.bind_eq_bind, Option.bind_eq_some_iff, Option.ite_none_right_eq_some,
      Option.some.injEq, readNat?_eq_some_iff]
    constructor
    · rintro ⟨value, hread, hlt, rfl⟩
      exact ⟨hlt, hread⟩
    · rintro ⟨hlt, hread⟩
      exact ⟨n, hread, hlt, rfl⟩
  have hplus {digits : List Char} (h : Magnitude.IsNumeral ('+' :: digits)) : False :=
    absurd (h.isDigit '+' (by simp)) (by decide)
  unfold readByte?
  split
  · next digits =>
    rw [hbound]
    constructor
    · rintro ⟨hlt, hread⟩
      exact ⟨hlt, digits, .inr rfl, hread⟩
    · rintro ⟨hlt, other, rfl | heq, hread⟩
      · exact (hplus hread.1).elim
      · cases heq
        exact ⟨hlt, hread⟩
  · next hshape =>
    rw [hbound]
    constructor
    · rintro ⟨hlt, hread⟩
      exact ⟨hlt, text, .inl rfl, hread⟩
    · rintro ⟨hlt, digits, rfl | rfl, hread⟩
      · exact ⟨hlt, hread⟩
      · exact absurd rfl (hshape digits)

theorem readRegister?_eq_some_iff {text : List Char} {register : UInt8} :
    readRegister? text = some register ↔ RegisterText text register := by
  constructor
  · intro h
    unfold readRegister? at h
    split at h
    · next mark rest =>
      split at h
      · next hmark =>
        simp only [Option.bind_eq_bind, Option.bind_eq_some_iff, Option.ite_none_right_eq_some,
          Option.some.injEq, readByte?_eq_some_iff] at h
        obtain ⟨number, ⟨hbyte, digits, hdigits, hnumeral, hvalue⟩, hlt, rfl⟩ := h
        have hnumber : (UInt8.ofNat number).toNat = number := by
          rw [UInt8.toNat_ofNat', Nat.mod_eq_of_lt hbyte]
        exact ⟨⟨mark, digits, hmark, hdigits.imp (congrArg (mark :: ·)) (congrArg (mark :: ·)),
          hnumeral, hvalue.trans hnumber.symm⟩, hnumber.symm ▸ hlt⟩
      · cases h
    · cases h
  · rintro ⟨⟨mark, digits, hmark, hspelled, hnumeral, hvalue⟩, hlt⟩
    obtain ⟨rest, rfl, hrest⟩ :
        ∃ rest, text = mark :: rest ∧ (rest = digits ∨ rest = '+' :: digits) := by
      rcases hspelled with rfl | rfl
      · exact ⟨digits, rfl, .inl rfl⟩
      · exact ⟨'+' :: digits, rfl, .inr rfl⟩
    have hbyte : readByte? rest = some register.toNat :=
      readByte?_eq_some_iff.2 ⟨register.toNat_lt, digits, hrest, hnumeral, hvalue⟩
    rw [readRegister?, if_pos hmark, hbyte, Option.bind_eq_bind, Option.bind_some, if_pos hlt,
      UInt8.ofNat_toNat]

/-! ## Comments and lines -/

/-- A comment can start only at a number sign or behind a quote. -/
theorem stripComment_go_append {front : List Char} (h : ∀ c ∈ front, c ≠ '#' ∧ c ≠ '"')
    (rest : List Char) :
    stripComment.go false false (front ++ rest) = front ++ stripComment.go false false rest := by
  induction front with
  | nil => rfl
  | cons c front ih =>
    obtain ⟨hc, hfront⟩ := List.forall_mem_cons.1 h
    simp [stripComment.go, hc.1, hc.2, ih hfront]

theorem stripComment_eq_self {text : List Char} (h : ∀ c ∈ text, c ≠ '#' ∧ c ≠ '"') :
    stripComment text = text := by
  simpa [stripComment, stripComment.go] using stripComment_go_append h []

/-- A line that can be joined with others: it is not empty, and no line end is in it. -/
structure Plain (line : List Char) : Prop where
  ne_nil : line ≠ []
  no_feed : '\n' ∉ line
  no_return : line.getLast? ≠ some '\r'

theorem lines_go_append {line : List Char} (hline : '\n' ∉ line) (rest current : List Char) :
    lines.go (line ++ rest) current = lines.go rest (line.reverse ++ current) := by
  induction line generalizing current with
  | nil => rfl
  | cons c letters ih =>
    have hc : c ≠ '\n' := fun h ↦ hline (by simp [h])
    have hletters : '\n' ∉ letters := fun h ↦ hline (by simp [h])
    rw [List.cons_append, List.reverse_cons, List.append_assoc, List.singleton_append,
      ← ih hletters]
    simp [lines.go, hc]

theorem lines_feed {line : List Char} (hline : Plain line) (rest : List Char) :
    lines (line ++ '\n' :: rest) = line :: lines rest := by
  rw [lines, lines_go_append hline.no_feed, List.append_nil, lines.go.eq_def]
  split
  · next heq _ => cases heq
  · next heq _ => cases heq
  · next _ current heq hcurrent =>
    have hlast : line.getLast? = some '\r' := by
      rw [← List.head?_reverse, hcurrent, List.head?_cons]
    exact absurd hlast hline.no_return
  · next heq _ =>
    cases heq
    rw [List.reverse_reverse, lines]
  · next hfeed heq _ =>
    cases heq
    exact (hfeed rfl).elim

/-- A text without a line feed is one line, unless it is empty. -/
theorem lines_of_no_feed {line : List Char} (hne : line ≠ []) (hline : '\n' ∉ line) :
    lines line = [line] := by
  have hreverse : line.reverse ≠ [] := by simpa using hne
  have hgo : lines line = lines.go [] line.reverse := by
    simpa [lines] using lines_go_append hline [] []
  rw [hgo, lines.go.eq_2 _ hreverse, List.reverse_reverse]

/-- Lines that were joined by line feeds are found again. -/
theorem lines_intercalate {texts : List (List Char)} (h : ∀ line ∈ texts, Plain line) :
    lines (['\n'].intercalate texts) = texts := by
  induction texts with
  | nil => rfl
  | cons line rest ih =>
    have hline := h line (by simp)
    cases rest with
    | nil => rw [List.intercalate_singleton, lines_of_no_feed hline.ne_nil hline.no_feed]
    | cons next others =>
      rw [List.intercalate_cons_cons, List.append_assoc, List.singleton_append, lines_feed hline,
        ih fun line hmem ↦ h line (by simp [hmem])]

end Assembly

end RegisterMachine
