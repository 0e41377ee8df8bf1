import RegisterMachine.Proofs.Bignum.Printed
import RegisterMachine.Proofs.Program.Header

/-!
# The file format is canonical

The reader accepts nothing that the writer would not write, except that the numeral of a bignum may
be spelled in several ways. An accepted file is therefore the file of the program that it is read
to, as soon as its numerals are the decimal numerals of their values; and whatever the spelling, the
program is read back from its own file unchanged.
-/

namespace RegisterMachine

namespace Bytes

/-! ## What readers accept -/

namespace Accepts

variable {written : α → List UInt8 → Prop}

theorem throw (cause : DecodeError) : Accepts (MonadExcept.throw cause : Parser α) written := by
  intro reader value later hrun
  cases hrun

/-- The position is used in messages only. -/
theorem position {next : Nat → Parser α} (accepts : ∀ position, Accepts (next position) written) :
    Accepts (Bytes.position >>= next) written := by
  intro reader value later hrun
  exact accepts reader.position reader value later hrun

/-- A last step that only forms the result takes no bytes. -/
theorem map {parser : Parser α} (accepts : Accepts parser written) (form : α → β) :
    Accepts (parser >>= fun found ↦ Pure.pure (form found)) fun result bytes ↦
      ∃ value, result = form value ∧ written value bytes := by
  refine (accepts.bind fun _ ↦ .pure _).mono ?_
  rintro result bytes ⟨value, front, back, rfl, hwritten, rfl, rfl⟩
  rw [List.append_nil]
  exact ⟨value, rfl, hwritten⟩

end Accepts

theorem accepts_readUInt8 : Accepts readUInt8 fun byte bytes ↦ bytes = [byte] := by
  refine ((accepts_take 1).map (·.headD 0)).mono ?_
  rintro byte bytes ⟨found, rfl, rfl, hlength⟩
  obtain ⟨only, rfl⟩ := List.length_eq_one_iff.1 hlength
  rfl

theorem accepts_readInt32 :
    Accepts readInt32 fun value bytes ↦ bytes = ofUInt32 value.toUInt32 := by
  refine (accepts_readUInt32.map UInt32.toInt32).mono ?_
  rintro value bytes ⟨word, rfl, rfl⟩
  rw [UInt32.toUInt32_toInt32]

theorem accepts_readBinary32 :
    Accepts readBinary32 fun value bytes ↦ bytes = ofUInt32 value.bits := by
  refine (accepts_readUInt32.map Binary32.mk).mono ?_
  rintro value bytes ⟨word, rfl, rfl⟩
  rfl

theorem ofText_of_toText? {bytes : List UInt8} {text : String} (h : toText? bytes = some text) :
    ofText text = bytes := by
  unfold toText? String.fromUTF8? at h
  split at h
  · cases h
    rw [ofText_eq]
    rfl
  · cases h

theorem accepts_readString :
    Accepts readString fun text bytes ↦ bytes = ofString text ∧ text.utf8ByteSize < 2 ^ 32 := by
  refine .position fun start ↦ ?_
  refine (accepts_readUInt32.bind fun length ↦ (accepts_take length.toNat).bind fun found ↦
    (?_ : Accepts _ fun text bytes ↦ ofText text = found ∧ bytes = [])).mono ?_
  · split
    · next text htext =>
      refine (Accepts.pure text).mono ?_
      rintro _ bytes ⟨rfl, rfl⟩
      exact ⟨ofText_of_toText? htext, rfl⟩
    · exact .throw _
  · rintro text _ ⟨length, _, _, rfl, rfl, found, _, _, rfl, ⟨rfl, hlength⟩, rfl, rfl⟩
    rw [List.append_nil]
    constructor
    · rw [ofString, hlength, UInt32.ofNat_toNat]
    · rw [← length_ofText, hlength]
      exact length.toNat_lt

/-- Items stand one after the other, each as it may be written. -/
theorem accepts_readMany {item : Parser α} {written : α → List UInt8 → Prop}
    (accepts : Accepts item written) (count : Nat) :
    Accepts (readMany item count) fun values bytes ↦ values.length = count ∧
      ∃ pairs : List (α × List UInt8), pairs.map Prod.fst = values ∧
        pairs.flatMap Prod.snd = bytes ∧ ∀ pair ∈ pairs, written pair.1 pair.2 := by
  induction count with
  | zero =>
    refine (Accepts.pure []).mono ?_
    rintro values bytes ⟨rfl, rfl⟩
    exact ⟨rfl, [], rfl, rfl, by simp⟩
  | succ count ih =>
    refine (accepts.bind fun first ↦ ih.map (first :: ·)).mono ?_
    rintro values bytes ⟨first, front, back, rfl, hfirst, others, rfl, hlength, pairs, rfl, rfl,
      hpairs⟩
    exact ⟨by rw [List.length_cons, hlength], (first, front) :: pairs, rfl, rfl,
      List.forall_mem_cons.2 ⟨hfirst, hpairs⟩⟩

/-- Items that can be written in one way only. -/
theorem accepts_readMany_of_eq {item : Parser α} {write : α → List UInt8} {good : α → Prop}
    (accepts : Accepts item fun value bytes ↦ bytes = write value ∧ good value) (count : Nat) :
    Accepts (readMany item count) fun values bytes ↦
      values.length = count ∧ bytes = values.flatMap write ∧ ∀ value ∈ values, good value := by
  refine (accepts_readMany accepts count).mono ?_
  rintro values bytes ⟨hlength, pairs, rfl, rfl, hpairs⟩
  refine ⟨hlength, ?_, ?_⟩
  · rw [List.flatMap_map]
    exact List.flatMap_congr fun pair hpair ↦ (hpairs pair hpair).1
  · intro value hvalue
    obtain ⟨pair, hpair, rfl⟩ := List.mem_map.1 hvalue
    exact (hpairs pair hpair).2

end Bytes

/-! ## Constants -/

namespace Constant

/-- The bignum that a constant is, if it is one. -/
def bignum? : Constant → Option Bignum
  | .big value => some value
  | _ => none

/-- Reads a constant for its numeral, if it is one of a bignum. -/
def readNumeral : Bytes.Parser (Option String) := do
  match ← Bytes.readUInt8 with
  | 0 | 1 => do
    let _ ← Bytes.readUInt32
    return none
  | 3 => return some (← Bytes.readString)
  | _ => do
    let _ ← Bytes.readString
    return none

/-- The ways in which a constant is written: a bignum by a numeral that is read to it, and every
other constant as the writer writes it. -/
inductive Spelled : Constant → Option String → List UInt8 → Prop
  | plain {constant : Constant} : constant.bignum? = none → constant.Fits →
      Spelled constant none constant.encode
  | big {text : String} {value : Bignum} : Bignum.parse text = .ok value →
      text.utf8ByteSize < 2 ^ 32 → Spelled (.big value) (some text) (3 :: Bytes.ofString text)

/-- The constants that files hold: their texts have a length of 32 bits, and their bignums are in
normal form. -/
structure Stored (constant : Constant) : Prop where
  fits : constant.Fits
  normal : ∀ value, constant.bignum? = some value → value.Normal

theorem Spelled.stored {constant : Constant} {numeral : Option String} {bytes : List UInt8}
    (spelled : constant.Spelled numeral bytes) : constant.Stored := by
  cases spelled with
  | plain hplain hfits => exact ⟨hfits, fun value hvalue ↦ by simp [hplain] at hvalue⟩
  | big hparse htext =>
    refine ⟨Nat.lt_of_le_of_lt (Bignum.utf8ByteSize_toText_le hparse) htext, ?_⟩
    rintro _ ⟨⟩
    exact Bignum.parse_normal hparse

/-- Bignums of one value are stored alike. -/
theorem SameValue.eq_of_stored {first second : Constant} (same : first.SameValue second)
    (hfirst : first.Stored) (hsecond : second.Stored) : first = second := by
  cases same with
  | int | float | str | native => rfl
  | big hvalue => rw [(hfirst.normal _ rfl).eq_of_toInt_eq (hsecond.normal _ rfl) hvalue]

/-- The last step of reading a bignum takes no bytes. -/
theorem accepts_parsed (offset : Nat) (text : String) : Bytes.Accepts
    (match Bignum.parse text with
      | .ok value => Pure.pure (Constant.big value)
      | .error _ => MonadExcept.throw (.invalidBignum offset))
    fun constant bytes ↦
      ∃ value, constant = .big value ∧ Bignum.parse text = .ok value ∧ bytes = [] := by
  split
  · next value hparse =>
    refine (Bytes.Accepts.pure _).mono ?_
    rintro _ _ ⟨rfl, rfl⟩
    exact ⟨value, rfl, hparse, rfl⟩
  · exact .throw _

theorem accepts_read :
    Bytes.Accepts Constant.read fun constant bytes ↦ ∃ numeral, constant.Spelled numeral bytes := by
  refine .position fun offset ↦ ?_
  refine (Bytes.accepts_readUInt8.bind fun tag ↦ (?_ : Bytes.Accepts _ fun constant bytes ↦
    ∃ numeral, Spelled constant numeral (tag :: bytes))).mono ?_
  · split
    · refine (Bytes.accepts_readInt32.map Constant.int).mono ?_
      rintro _ _ ⟨value, rfl, rfl⟩
      exact ⟨none, .plain rfl trivial⟩
    · refine (Bytes.accepts_readBinary32.map Constant.float).mono ?_
      rintro _ _ ⟨value, rfl, rfl⟩
      exact ⟨none, .plain rfl trivial⟩
    · refine (Bytes.accepts_readString.map Constant.str).mono ?_
      rintro _ _ ⟨text, rfl, rfl, htext⟩
      exact ⟨none, .plain rfl htext⟩
    · refine (Bytes.accepts_readString.bind (accepts_parsed offset)).mono ?_
      rintro _ _ ⟨text, front, back, rfl, ⟨rfl, htext⟩, value, rfl, hparse, rfl⟩
      rw [List.append_nil]
      exact ⟨some text, .big hparse htext⟩
    · refine (Bytes.accepts_readString.map Constant.native).mono ?_
      rintro _ _ ⟨name, rfl, rfl, hname⟩
      exact ⟨none, .plain rfl hname⟩
    · exact .throw _
  · rintro constant bytes ⟨tag, front, back, rfl, rfl, hspelled⟩
    exact hspelled

theorem reads_numeral_text {text : String} (htext : text.utf8ByteSize < 2 ^ 32) :
    Bytes.Reads readNumeral (3 :: Bytes.ofString text) (some text) := by
  apply (Bytes.reads_readUInt8 3).bind
  exact (Bytes.reads_readString htext).map some

theorem reads_numeral_encode {constant : Constant} (fits : constant.Fits) :
    Bytes.Reads readNumeral constant.encode (constant.bignum?.map (toString ·.toInt)) := by
  cases constant with
  | int value =>
    apply (Bytes.reads_readUInt8 0).bind
    exact (Bytes.reads_readUInt32 _).map fun _ ↦ none
  | float value =>
    apply (Bytes.reads_readUInt8 1).bind
    exact (Bytes.reads_readUInt32 _).map fun _ ↦ none
  | str text =>
    apply (Bytes.reads_readUInt8 2).bind
    exact (Bytes.reads_readString fits).map fun _ ↦ none
  | big value =>
    rw [bignum?, Option.map_some, ← value.toText_eq_toString]
    exact reads_numeral_text fits
  | native name =>
    apply (Bytes.reads_readUInt8 4).bind
    exact (Bytes.reads_readString fits).map fun _ ↦ none

theorem Spelled.reads_numeral {constant : Constant} {numeral : Option String} {bytes : List UInt8}
    (spelled : constant.Spelled numeral bytes) : Bytes.Reads readNumeral bytes numeral := by
  cases spelled with
  | plain hplain hfits =>
    have hread := reads_numeral_encode hfits
    rwa [hplain] at hread
  | big hparse htext => exact reads_numeral_text htext

end Constant

theorem ConstantPool.accepts_read : Bytes.Accepts ConstantPool.read fun pool bytes ↦
    pool.size < 2 ^ 32 ∧ ∃ pairs : List (Constant × List UInt8),
      pairs.map Prod.fst = pool.entries.toList ∧
      (∀ pair ∈ pairs, ∃ numeral, pair.1.Spelled numeral pair.2) ∧
      bytes = Bytes.ofUInt32 (UInt32.ofNat pool.size) ++ pairs.flatMap Prod.snd := by
  refine (Bytes.accepts_readUInt32.bind fun count ↦
    (Bytes.accepts_readMany Constant.accepts_read count.toNat).map
      fun entries ↦ ConstantPool.mk entries.toArray).mono ?_
  rintro _ _ ⟨count, front, back, rfl, rfl, entries, rfl, hlength, pairs, rfl, rfl, hpairs⟩
  have hsize : (ConstantPool.mk (pairs.map Prod.fst).toArray).size = count.toNat := hlength
  rw [hsize, UInt32.ofNat_toNat]
  exact ⟨count.toNat_lt, pairs, rfl, hpairs, rfl⟩

/-! ## Programs -/

theorem Function.accepts_read : Bytes.Accepts Function.read fun function bytes ↦
    bytes = function.encode ∧ function.name.utf8ByteSize < 2 ^ 32 := by
  refine (Bytes.accepts_readString.bind fun name ↦ Bytes.accepts_readUInt32.bind fun entry ↦
    Bytes.accepts_readUInt8.map (Function.mk name entry)).mono ?_
  rintro _ _ ⟨name, _, _, rfl, ⟨rfl, hname⟩, entry, _, _, rfl, rfl, paramCount, rfl, rfl⟩
  refine ⟨?_, hname⟩
  rw [Function.encode, List.append_assoc]

namespace Program

/-- The payload of a program whose constants are given by their bytes. -/
def payloadWith (program : Program) (constants : List UInt8) : List UInt8 :=
  Bytes.ofString program.name ++
    (Bytes.ofUInt32 (UInt32.ofNat program.constants.size) ++ constants) ++
    Bytes.ofUInt32 (UInt32.ofNat program.functions.size) ++
    program.functions.toList.flatMap Function.encode ++
    Bytes.ofUInt32 (UInt32.ofNat program.code.size) ++
    program.code.toList.flatMap Bytes.ofUInt32

theorem payload_eq (program : Program) :
    program.payload =
      program.payloadWith (program.constants.entries.toList.flatMap Constant.encode) := rfl

/-- The constants stand behind the name, in front of functions and code. -/
theorem exists_payloadWith_eq (program : Program) (constants : List UInt8) :
    ∃ rest, program.payloadWith constants = Bytes.ofString program.name ++
      (Bytes.ofUInt32 (UInt32.ofNat program.constants.size) ++ constants) ++ rest := by
  refine ⟨Bytes.ofUInt32 (UInt32.ofNat program.functions.size) ++
    program.functions.toList.flatMap Function.encode ++
    Bytes.ofUInt32 (UInt32.ofNat program.code.size) ++
    program.code.toList.flatMap Bytes.ofUInt32, ?_⟩
  simp only [payloadWith, List.append_assoc]

/-- The constants of a program with the bytes that each is written in. -/
structure Spelling (program : Program) (pairs : List (Constant × List UInt8)) : Prop where
  entries_eq : pairs.map Prod.fst = program.constants.entries.toList
  spelled : ∀ pair ∈ pairs, ∃ numeral, pair.1.Spelled numeral pair.2

theorem Spelling.stored {program : Program} {pairs : List (Constant × List UInt8)}
    (spelling : program.Spelling pairs) :
    ∀ constant ∈ program.constants.entries, constant.Stored := by
  intro constant hconstant
  rw [← Array.mem_toList_iff, ← spelling.entries_eq] at hconstant
  obtain ⟨pair, hpair, rfl⟩ := List.mem_map.1 hconstant
  obtain ⟨numeral, hspelled⟩ := spelling.spelled pair hpair
  exact hspelled.stored

theorem accepts_readPayload : Bytes.Accepts readPayload fun program bytes ↦
    program.Fits ∧ ∃ pairs, program.Spelling pairs ∧
      bytes = program.payloadWith (pairs.flatMap Prod.snd) := by
  have hword : Bytes.Accepts Bytes.readUInt32 fun word bytes ↦
      bytes = Bytes.ofUInt32 word ∧ True :=
    Bytes.accepts_readUInt32.mono fun _ _ hbytes ↦ ⟨hbytes, trivial⟩
  refine (Bytes.accepts_readString.bind fun name ↦ ConstantPool.accepts_read.bind fun constants ↦
    Bytes.accepts_readUInt32.bind fun functionCount ↦
    (Bytes.accepts_readMany_of_eq Function.accepts_read functionCount.toNat).bind fun functions ↦
    Bytes.accepts_readUInt32.bind fun wordCount ↦
    (Bytes.accepts_readMany_of_eq hword wordCount.toNat).map fun code ↦
      Program.mk name code.toArray constants functions.toArray).mono ?_
  rintro _ _ ⟨name, _, _, rfl, ⟨rfl, hname⟩,
    constants, _, _, rfl, ⟨hsize, pairs, hentries, hspelled, rfl⟩,
    functionCount, _, _, rfl, rfl, functions, _, _, rfl, ⟨hfunctions, rfl, hnames⟩,
    wordCount, _, _, rfl, rfl, code, rfl, hcode, rfl, -⟩
  have spelling : Spelling ⟨name, code.toArray, constants, functions.toArray⟩ pairs :=
    ⟨hentries, hspelled⟩
  refine ⟨?_, pairs, spelling, ?_⟩
  · constructor
    case name_lt => exact hname
    case constants_lt => exact hsize
    case constants_fit => exact fun constant hconstant ↦ (spelling.stored constant hconstant).fits
    case functions_lt => exact (congrArg (· < 2 ^ 32) hfunctions).mpr functionCount.toNat_lt
    case function_name_lt => simpa using hnames
    case code_lt => exact (congrArg (· < 2 ^ 32) hcode).mpr wordCount.toNat_lt
  · simp only [payloadWith, List.size_toArray, hfunctions, hcode, UInt32.ofNat_toNat,
      List.append_assoc]

/-- A file is accepted only if it is the sealed payload of the program, in some spelling. -/
theorem exists_spelling_of_decode {file : List UInt8} {program : Program}
    (haccepted : decode file = .ok program) :
    program.Fits ∧ ∃ pairs, program.Spelling pairs ∧
      file = sealed (program.payloadWith (pairs.flatMap Prod.snd)) := by
  obtain ⟨payload, rfl, hread⟩ := decode_eq_ok_iff.1 haccepted
  suffices hpayload : program.Fits ∧ ∃ pairs, program.Spelling pairs ∧
      payload = program.payloadWith (pairs.flatMap Prod.snd) by
    obtain ⟨fits, pairs, spelling, rfl⟩ := hpayload
    exact ⟨fits, pairs, spelling, rfl⟩
  refine Yields.of_ok (?_ : Yields (fun program ↦ program.Fits ∧ ∃ pairs, program.Spelling pairs ∧
    payload = program.payloadWith (pairs.flatMap Prod.snd)) _) hread
  refine Meets.bind (fileStep_yields accepts_readPayload _) ?_
  rintro ⟨program, reader⟩ - ⟨bytes, hpayload, hwritten⟩
  dsimp only at hpayload hwritten ⊢
  split
  · trivial
  · next hend =>
    rw [Classical.not_not] at hend
    rw [hend, List.append_nil] at hpayload
    exact hpayload ▸ hwritten

/-! ## Numerals of a file -/

/-- The bignums among the constants. -/
def bignums (program : Program) : List Bignum :=
  program.constants.entries.toList.filterMap Constant.bignum?

/-- Reads a payload up to the end of its constants, for the numerals among them. -/
def readNumerals : Bytes.Parser (List (Option String)) := do
  let _ ← Bytes.readString
  let count ← Bytes.readUInt32
  Bytes.readMany Constant.readNumeral count.toNat

/-- The numerals by which a file gives its bignums, as they are written. -/
def numerals (file : List UInt8) : List String :=
  match readNumerals.run ⟨file.drop headerLength, headerLength⟩ with
  | .ok found _ => found.filterMap id
  | .error _ _ => []

theorem numerals_sealed {program : Program} (fits : program.Fits) {constants : List UInt8}
    {found : List (Option String)}
    (hread : Bytes.Reads (Bytes.readMany Constant.readNumeral program.constants.size) constants
      found) : numerals (sealed (program.payloadWith constants)) = found.filterMap id := by
  rw [← UInt32.toNat_ofNat_of_lt' fits.constants_lt] at hread
  have hnumerals : Bytes.Reads readNumerals (Bytes.ofString program.name ++
      (Bytes.ofUInt32 (UInt32.ofNat program.constants.size) ++ constants)) found :=
    (Bytes.reads_readString fits.name_lt).bind ((Bytes.reads_readUInt32 _).bind hread)
  obtain ⟨rest, hpayload⟩ := program.exists_payloadWith_eq constants
  have hdrop (payload : List UInt8) : (sealed payload).drop headerLength = payload := rfl
  rw [numerals, hdrop, hpayload, hnumerals rest headerLength]

/-- The writer writes the decimal numerals of the values. -/
theorem numerals_encode {program : Program} (fits : program.Fits) :
    numerals program.encode = program.bignums.map (toString ·.toInt) := by
  have hitems : ∀ constant ∈ program.constants.entries.toList, ∃ numeral,
      Bytes.Reads Constant.readNumeral constant.encode numeral ∧
        constant.bignum?.map (toString ·.toInt) = numeral := by
    intro constant hconstant
    exact ⟨_, Constant.reads_numeral_encode
      (fits.constants_fit constant (Array.mem_toList_iff.1 hconstant)), rfl⟩
  obtain ⟨found, hread, hfound⟩ := Bytes.exists_reads_readMany hitems
  rw [← List.forall₂_map_left_iff, List.forall₂_eq_eq_eq] at hfound
  rw [encode_eq_sealed, payload_eq, numerals_sealed fits hread, ← hfound, bignums,
    List.filterMap_map, List.map_filterMap]
  rfl

/-- Constants with their bytes, and the numeral in them, if there is one. -/
abbrev Numbered (pairs : List (Constant × List UInt8)) (found : List (Option String)) : Prop :=
  List.Forall₂ (fun pair numeral ↦ pair.1.Spelled numeral pair.2) pairs found

theorem exists_numbered {program : Program} (fits : program.Fits)
    {pairs : List (Constant × List UInt8)} (spelling : program.Spelling pairs) :
    ∃ found, Numbered pairs found ∧
      numerals (sealed (program.payloadWith (pairs.flatMap Prod.snd))) = found.filterMap id := by
  have hitems : ∀ pair ∈ pairs, ∃ numeral, Bytes.Reads Constant.readNumeral pair.2 numeral ∧
      pair.1.Spelled numeral pair.2 := by
    intro pair hpair
    obtain ⟨numeral, hspelled⟩ := spelling.spelled pair hpair
    exact ⟨numeral, hspelled.reads_numeral, hspelled⟩
  have hcount : pairs.length = program.constants.size := by
    rw [← List.length_map Prod.fst, spelling.entries_eq]
    rfl
  obtain ⟨found, hread, hnumbered⟩ := Bytes.exists_reads_readMany hitems
  rw [hcount] at hread
  exact ⟨found, hnumbered, numerals_sealed fits hread⟩

theorem Numbered.parses {pairs : List (Constant × List UInt8)} {found : List (Option String)}
    (numbered : Numbered pairs found) :
    List.Forall₂ (fun text value ↦ Bignum.parse text = .ok value) (found.filterMap id)
      ((pairs.map Prod.fst).filterMap Constant.bignum?) := by
  induction numbered with
  | nil => exact .nil
  | @cons pair numeral pairs found hspelled _ ih =>
    obtain ⟨constant, bytes⟩ := pair
    dsimp only at hspelled
    cases hspelled with
    | plain hplain hfits =>
      rw [List.map_cons, List.filterMap_cons_none hplain]
      exact ih
    | big hparse htext => exact .cons hparse ih

theorem Numbered.encode_eq {pairs : List (Constant × List UInt8)} {found : List (Option String)}
    (numbered : Numbered pairs found)
    (hcanonical : found.filterMap id =
      ((pairs.map Prod.fst).filterMap Constant.bignum?).map (toString ·.toInt)) :
    (pairs.map Prod.fst).flatMap Constant.encode = pairs.flatMap Prod.snd := by
  induction numbered with
  | nil => rfl
  | @cons pair numeral pairs found hspelled _ ih =>
    obtain ⟨constant, bytes⟩ := pair
    dsimp only at hspelled
    rw [List.map_cons, List.flatMap_cons, List.flatMap_cons]
    cases hspelled with
    | plain hplain hfits =>
      rw [List.map_cons, List.filterMap_cons_none hplain] at hcanonical
      rw [ih hcanonical]
    | @big text value hparse htext =>
      obtain ⟨htext', hrest⟩ := List.cons.inj hcanonical
      have hnumeral : text = value.toText := htext'.trans value.toText_eq_toString.symm
      rw [ih hrest, Constant.encode, hnumeral]

/-! ## Files -/

theorem eq_of_sameMeaning {first second : Program} (same : first.SameMeaning second)
    (hfirst : ∀ constant ∈ first.constants.entries, constant.Stored)
    (hsecond : ∀ constant ∈ second.constants.entries, constant.Stored) : first = second := by
  have hentries : first.constants.entries = second.constants.entries := by
    apply Array.ext same.constants_size_eq
    intro index hindex hindex'
    refine Constant.SameValue.eq_of_stored ?_ (hfirst _ (Array.getElem_mem hindex))
      (hsecond _ (Array.getElem_mem hindex'))
    exact same.constants_same index _ _ (Array.getElem?_eq_getElem hindex)
      (Array.getElem?_eq_getElem hindex')
  obtain ⟨name, code, ⟨entries⟩, functions⟩ := first
  obtain ⟨name', code', ⟨entries'⟩, functions'⟩ := second
  obtain ⟨rfl, rfl, rfl, -, -⟩ := same
  cases hentries
  rfl

/-- A program that files can hold is read back from its own file. -/
theorem decode_encode_of_stored {program : Program} (fits : program.Fits)
    (stored : ∀ constant ∈ program.constants.entries, constant.Stored) :
    decode program.encode = .ok program := by
  obtain ⟨found, hread, hsame⟩ := exists_reads_payload fits
  have hfound : decode program.encode = .ok found := by
    rw [encode_eq_sealed, decode_sealed, readSealed]
    have hstep := fileStep_of_reads hread [] headerLength
    rw [List.append_nil] at hstep
    rw [hstep]
    rfl
  obtain ⟨-, pairs, spelling, -⟩ := exists_spelling_of_decode hfound
  rw [hfound, eq_of_sameMeaning hsame stored spelling.stored]

section Accepted

variable {file : List UInt8} {program : Program} (haccepted : decode file = .ok program)

include haccepted

theorem numerals_parse : List.Forall₂ (fun text value ↦ Bignum.parse text = .ok value)
    (numerals file) program.bignums := by
  obtain ⟨fits, pairs, spelling, rfl⟩ := exists_spelling_of_decode haccepted
  obtain ⟨found, hnumbered, hnumerals⟩ := exists_numbered fits spelling
  rw [hnumerals, bignums, ← spelling.entries_eq]
  exact hnumbered.parses

theorem encode_eq_iff_numerals_eq :
    program.encode = file ↔ numerals file = program.bignums.map (toString ·.toInt) := by
  obtain ⟨fits, pairs, spelling, hfile⟩ := exists_spelling_of_decode haccepted
  constructor
  · rintro rfl
    exact numerals_encode fits
  · intro hcanonical
    obtain ⟨found, hnumbered, hnumerals⟩ := exists_numbered fits spelling
    rw [hfile, hnumerals, bignums, ← spelling.entries_eq] at hcanonical
    rw [encode_eq_sealed, payload_eq, ← spelling.entries_eq, hnumbered.encode_eq hcanonical, hfile]

theorem encode_eq_of_bignums_eq_nil (hnone : program.bignums = []) : program.encode = file := by
  have hparse := numerals_parse haccepted
  apply (encode_eq_iff_numerals_eq haccepted).2
  rw [hnone] at hparse ⊢
  exact List.forall₂_nil_right_iff.1 hparse

theorem decode_encode_of_decode : decode program.encode = .ok program := by
  obtain ⟨fits, pairs, spelling, -⟩ := exists_spelling_of_decode haccepted
  exact decode_encode_of_stored fits spelling.stored

end Accepted

/-- An accepted file gives each bignum by a numeral that is read to it, and it is the file of its
program exactly if these are the decimal numerals of the values, so in particular if there are none.
The program is read back from its own file, and without bignums no other file is read to it. -/
theorem file_canonical {file : List UInt8} {program : Program}
    (haccepted : decode file = .ok program) :
    List.Forall₂ (fun text value ↦ Bignum.parse text = .ok value) (numerals file)
        program.bignums ∧
      (program.encode = file ↔ numerals file = program.bignums.map (toString ·.toInt)) ∧
      (program.bignums = [] → program.encode = file) ∧
      decode program.encode = .ok program ∧
      (program.bignums = [] → ∀ other, decode other = .ok program → other = file) := by
  refine ⟨numerals_parse haccepted, encode_eq_iff_numerals_eq haccepted,
    encode_eq_of_bignums_eq_nil haccepted, decode_encode_of_decode haccepted, ?_⟩
  intro hnone other hother
  rw [← encode_eq_of_bignums_eq_nil haccepted hnone, encode_eq_of_bignums_eq_nil hother hnone]

/-- A program whose only constant is the bignum seven. -/
def seven : Program where
  name := "seven"
  constants := ⟨#[.big ⟨[7], false⟩]⟩

/-- A file of it with a blank, a sign, zeros and an underscore in the numeral. -/
def spelledOut : List UInt8 :=
  sealed (seven.payloadWith (3 :: Bytes.ofString " +0_07"))

theorem file_canonical_spelledOut : decode spelledOut = .ok seven ∧ seven.bignums.length = 1 ∧
    numerals spelledOut = [" +0_07"] ∧ seven.encode ≠ spelledOut ∧
    decode seven.encode = .ok seven := by
  have haccepted : decode spelledOut = .ok seven := eq_ok_of_toOption (by decide +kernel)
  have hnumerals : numerals spelledOut = [" +0_07"] := by decide +kernel
  obtain ⟨-, hsame, -, hback, -⟩ := file_canonical haccepted
  refine ⟨haccepted, rfl, hnumerals, ?_, hback⟩
  intro heq
  have hdecimal := hnumerals.symm.trans (hsame.1 heq)
  exact absurd hdecimal (by decide)

end Program

end RegisterMachine
