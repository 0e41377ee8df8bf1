import Mathlib.Data.List.Forall2
import RegisterMachine.Program.File
import RegisterMachine.Proofs.Bignum.Literal

/-!
# Program files are read back

A writer gives bytes and a reader takes them from the front of the rest of a file. `Reads` says that
a reader takes exactly the bytes given, whatever follows them, and comes to a value; it is closed
under sequencing, so each part of a file is judged by its own parts in the order in which they are
written. Everything is read back as it was written, except that a bignum goes through its decimal
numeral and keeps its value only.
-/

namespace RegisterMachine

namespace Bytes

/-! ## Readers -/

/-- The reader takes exactly these bytes, whatever follows them, and gives the value. -/
def Reads (parser : Parser α) (bytes : List UInt8) (value : α) : Prop :=
  ∀ rest position,
    parser.run ⟨bytes ++ rest, position⟩ = .ok value ⟨rest, position + bytes.length⟩

namespace Reads

theorem pure (value : α) : Reads (Pure.pure value : Parser α) [] value := by
  intro rest position
  rfl

theorem bind {parser : Parser α} {next : α → Parser β} {first second : List UInt8} {value : α}
    {result : β} (head : Reads parser first value) (tail : Reads (next value) second result) :
    Reads (parser >>= next) (first ++ second) result := by
  intro rest position
  have hhead := head (second ++ rest) position
  have htail := tail rest (position + first.length)
  rw [EStateM.run] at hhead htail
  rw [EStateM.run, List.append_assoc]
  change EStateM.bind parser next _ = _
  rw [EStateM.bind, hhead]
  dsimp only
  rw [htail, List.length_append, Nat.add_assoc]

/-- A last step that only forms the result takes no bytes. -/
theorem map {parser : Parser α} {bytes : List UInt8} {value : α} (read : Reads parser bytes value)
    (form : α → β) : Reads (parser >>= fun found ↦ Pure.pure (form found)) bytes (form value) := by
  have hbind : Reads (parser >>= fun found ↦ Pure.pure (form found)) (bytes ++ []) (form value) :=
    read.bind (pure (form value))
  rwa [List.append_nil] at hbind

/-- The position is used in messages only. -/
theorem position {next : Nat → Parser α} {bytes : List UInt8} {value : α}
    (read : ∀ position, Reads (next position) bytes value) :
    Reads (Bytes.position >>= next) bytes value := by
  intro rest position
  exact read position rest position

end Reads

theorem run_take (count : Nat) (reader : Reader) : (take count).run reader =
    if (reader.rest.take count).length < count then
      .error (.unexpectedEnd reader.position) reader
    else
      .ok (reader.rest.take count) ⟨reader.rest.drop count, reader.position + count⟩ := by
  change (ite ((reader.rest.take count).length < count) _ _ : Parser (List UInt8)) reader = _
  split
  · rfl
  · rfl

theorem reads_take (bytes : List UInt8) : Reads (take bytes.length) bytes bytes := by
  intro rest position
  rw [run_take, List.take_left, List.drop_left, if_neg (Nat.lt_irrefl _)]

/-! ## Numbers -/

theorem reads_readUInt8 (byte : UInt8) : Reads readUInt8 [byte] byte :=
  (reads_take [byte]).map (·.headD 0)

/-- A byte is put below a word of 24 bits without loss. -/
theorem toNat_toUInt32_cons (byte : UInt8) (rest : List UInt8)
    (hrest : (toUInt32 rest).toNat < 2 ^ 24) :
    (toUInt32 (byte :: rest)).toNat = byte.toNat + 2 ^ 8 * (toUInt32 rest).toNat := by
  have hbyte : byte.toNat < 2 ^ 8 := byte.toNat_lt
  have hshift : (toUInt32 rest <<< 8).toNat = (toUInt32 rest).toNat <<< 8 := by
    rw [UInt32.toNat_shiftLeft, Nat.mod_eq_of_lt]
    · rfl
    · change (toUInt32 rest).toNat <<< 8 < 2 ^ 32
      rw [Nat.shiftLeft_eq]
      omega
  rw [toUInt32, UInt32.toNat_or, UInt8.toNat_toUInt32, hshift, Nat.or_comm,
    ← Nat.shiftLeft_add_eq_or_of_lt hbyte, Nat.shiftLeft_eq]
  omega

theorem toUInt32_ofUInt32 (word : UInt32) : toUInt32 (ofUInt32 word) = word := by
  have hbyte (count : UInt32) (hcount : count.toNat < 32) :
      (word >>> count).toUInt8.toNat = word.toNat / 2 ^ count.toNat % 2 ^ 8 := by
    rw [UInt32.toNat_toUInt8, UInt32.toNat_shiftRight, Nat.shiftRight_eq_div_pow,
      Nat.mod_eq_of_lt hcount]
  have hzero : word.toUInt8.toNat = word.toNat % 2 ^ 8 := UInt32.toNat_toUInt8 word
  have hone : (word >>> 8).toUInt8.toNat = word.toNat / 2 ^ 8 % 2 ^ 8 := hbyte 8 (by decide)
  have htwo : (word >>> 16).toUInt8.toNat = word.toNat / 2 ^ 16 % 2 ^ 8 := hbyte 16 (by decide)
  have hthree : (word >>> 24).toUInt8.toNat = word.toNat / 2 ^ 24 % 2 ^ 8 := hbyte 24 (by decide)
  have hword : word.toNat < 2 ^ 32 := word.toNat_lt
  have hnone : (toUInt32 []).toNat = 0 := rfl
  apply UInt32.toNat_inj.1
  unfold ofUInt32
  have htop := toNat_toUInt32_cons (word >>> 24).toUInt8 [] (by omega)
  have hhigh := toNat_toUInt32_cons (word >>> 16).toUInt8 [(word >>> 24).toUInt8] (by omega)
  have hlow := toNat_toUInt32_cons (word >>> 8).toUInt8
    [(word >>> 16).toUInt8, (word >>> 24).toUInt8] (by omega)
  rw [toNat_toUInt32_cons word.toUInt8 _ (by omega)]
  omega

theorem reads_readUInt32 (word : UInt32) : Reads readUInt32 (ofUInt32 word) word := by
  have hread := (reads_take (ofUInt32 word)).map toUInt32
  rwa [toUInt32_ofUInt32] at hread

theorem reads_readInt32 (value : Int32) : Reads readInt32 (ofUInt32 value.toUInt32) value :=
  (reads_readUInt32 value.toUInt32).map UInt32.toInt32

theorem reads_readBinary32 (value : Binary32) : Reads readBinary32 (ofUInt32 value.bits) value :=
  (reads_readUInt32 value.bits).map Binary32.mk

/-! ## Texts -/

/-- The bytes of a text are listed from the front, those found so far in reverse. -/
theorem toList_loop_eq (bytes : ByteArray) (index : Nat) (found : List UInt8) :
    ByteArray.toList.loop bytes index found =
      found.reverse ++ bytes.data.toList.drop index := by
  rw [ByteArray.toList.loop.eq_def]
  split
  · next hindex =>
    have hlt : index < bytes.data.toList.length := hindex
    have hbyte : bytes.get! index = bytes.data.toList[index] := by
      simp [ByteArray.get!, hindex]
    rw [toList_loop_eq, List.drop_eq_getElem_cons hlt, hbyte, List.reverse_cons, List.append_assoc]
    rfl
  · next hindex =>
    have hle : bytes.data.toList.length ≤ index := Nat.not_lt.1 hindex
    rw [List.drop_eq_nil_of_le hle, List.append_nil]
termination_by bytes.size - index

theorem ofText_eq (text : String) : ofText text = text.toByteArray.data.toList := by
  rw [ofText, ByteArray.toList, toList_loop_eq]
  rfl

theorem length_ofText (text : String) : (ofText text).length = text.utf8ByteSize := by
  rw [ofText_eq]
  rfl

theorem toText?_ofText (text : String) : toText? (ofText text) = some text := by
  have hbytes : ByteArray.mk (ofText text).toArray = text.toByteArray := by
    rw [ofText_eq]
  rw [toText?, hbytes, String.fromUTF8?, dif_pos text.isValidUTF8]
  rfl

theorem reads_readString {text : String} (htext : text.utf8ByteSize < 2 ^ 32) :
    Reads readString (ofString text) text := by
  have hlength : (UInt32.ofNat (ofText text).length).toNat = (ofText text).length :=
    UInt32.toNat_ofNat_of_lt' (by rw [length_ofText]; exact htext)
  apply Reads.position
  intro start
  apply (reads_readUInt32 _).bind
  have htake := reads_take (ofText text)
  rw [← hlength] at htake
  suffices hread : Reads _ (ofText text ++ []) text by rwa [List.append_nil] at hread
  apply htake.bind
  rw [toText?_ofText]
  exact .pure text

/-! ## Repetition -/

/-- Items are read one after the other, each to a value that stands in a relation to the item. -/
theorem exists_reads_readMany {item : Parser β} {write : α → List UInt8} {related : α → β → Prop}
    {values : List α} (h : ∀ value ∈ values, ∃ found, Reads item (write value) found ∧
      related value found) :
    ∃ found, Reads (readMany item values.length) (values.flatMap write) found ∧
      List.Forall₂ related values found := by
  induction values with
  | nil => exact ⟨[], .pure [], .nil⟩
  | cons value rest ih =>
    obtain ⟨first, hfirst, hrelated⟩ := h value (by simp)
    obtain ⟨others, hothers, hforall⟩ := ih fun other hother ↦ h other (by simp [hother])
    refine ⟨first :: others, ?_, .cons hrelated hforall⟩
    exact hfirst.bind (hothers.map (first :: ·))

/-- Items that are read back as they are. -/
theorem reads_readMany {item : Parser α} {write : α → List UInt8} {values : List α}
    (h : ∀ value ∈ values, Reads item (write value) value) :
    Reads (readMany item values.length) (values.flatMap write) values := by
  have hitems : ∀ value ∈ values, ∃ found, Reads item (write value) found ∧ value = found :=
    fun value hvalue ↦ ⟨value, h value hvalue, rfl⟩
  obtain ⟨found, hread, hsame⟩ := exists_reads_readMany hitems
  rw [List.forall₂_eq_eq_eq] at hsame
  rwa [← hsame] at hread

end Bytes

/-! ## Constants -/

namespace Constant

/-- Two constants that mean the same: floats have the same bits and bignums the same value. -/
inductive SameValue : Constant → Constant → Prop
  | int (value : Int32) : SameValue (.int value) (.int value)
  | float (value : Binary32) : SameValue (.float value) (.float value)
  | str (value : String) : SameValue (.str value) (.str value)
  | big {first second : Bignum} : first.toInt = second.toInt → SameValue (.big first) (.big second)
  | native (name : String) : SameValue (.native name) (.native name)

/-- The text of a constant, if it has one, is short enough for a length of 32 bits. -/
def Fits : Constant → Prop
  | .int _ | .float _ => True
  | .str text | .native text => text.utf8ByteSize < 2 ^ 32
  | .big value => value.toText.utf8ByteSize < 2 ^ 32

instance (constant : Constant) : Decidable constant.Fits :=
  match constant with
  | .int _ | .float _ => .isTrue trivial
  | .str text | .native text => inferInstanceAs (Decidable (text.utf8ByteSize < 2 ^ 32))
  | .big value => inferInstanceAs (Decidable (value.toText.utf8ByteSize < 2 ^ 32))

theorem exists_reads {constant : Constant} (fits : constant.Fits) :
    ∃ found, Bytes.Reads Constant.read constant.encode found ∧ constant.SameValue found := by
  cases constant with
  | int value =>
    refine ⟨.int value, .position fun _ ↦ ?_, .int value⟩
    apply (Bytes.reads_readUInt8 0).bind
    exact (Bytes.reads_readInt32 value).map Constant.int
  | float value =>
    refine ⟨.float value, .position fun _ ↦ ?_, .float value⟩
    apply (Bytes.reads_readUInt8 1).bind
    exact (Bytes.reads_readBinary32 value).map Constant.float
  | str text =>
    refine ⟨.str text, .position fun _ ↦ ?_, .str text⟩
    apply (Bytes.reads_readUInt8 2).bind
    exact (Bytes.reads_readString fits).map Constant.str
  | big value =>
    obtain ⟨found, hparse, hvalue⟩ := value.parse_toText
    refine ⟨.big found, .position fun offset ↦ ?_, .big hvalue.symm⟩
    apply (Bytes.reads_readUInt8 3).bind
    suffices hread : Bytes.Reads _ (Bytes.ofString value.toText ++ []) (Constant.big found) by
      rwa [List.append_nil] at hread
    apply (Bytes.reads_readString fits).bind
    rw [hparse]
    exact .pure _
  | native name =>
    refine ⟨.native name, .position fun _ ↦ ?_, .native name⟩
    apply (Bytes.reads_readUInt8 4).bind
    exact (Bytes.reads_readString fits).map Constant.native

end Constant

theorem ConstantPool.exists_reads {pool : ConstantPool} (hsize : pool.size < 2 ^ 32)
    (fits : ∀ constant ∈ pool.entries, constant.Fits) :
    ∃ found, Bytes.Reads ConstantPool.read pool.encode found ∧
      List.Forall₂ Constant.SameValue pool.entries.toList found.entries.toList := by
  have hitems : ∀ constant ∈ pool.entries.toList,
      ∃ found, Bytes.Reads Constant.read constant.encode found ∧ constant.SameValue found :=
    fun constant hmem ↦ Constant.exists_reads (fits constant (Array.mem_toList_iff.1 hmem))
  obtain ⟨found, hread, hsame⟩ := Bytes.exists_reads_readMany hitems
  have hcount : (UInt32.ofNat pool.size).toNat = pool.entries.toList.length :=
    UInt32.toNat_ofNat_of_lt' hsize
  rw [← hcount] at hread
  refine ⟨⟨found.toArray⟩, ?_, hsame⟩
  exact (Bytes.reads_readUInt32 _).bind (hread.map fun entries ↦ ConstantPool.mk entries.toArray)

/-! ## Programs -/

theorem Function.reads {function : Function} (hname : function.name.utf8ByteSize < 2 ^ 32) :
    Bytes.Reads Function.read function.encode function := by
  unfold Function.encode
  rw [List.append_assoc]
  apply (Bytes.reads_readString hname).bind
  apply (Bytes.reads_readUInt32 function.entry).bind
  exact (Bytes.reads_readUInt8 function.paramCount).map (Function.mk function.name function.entry)

namespace Program

/-- Every length in the file of a program has 32 bits. -/
structure Fits (program : Program) : Prop where
  name_lt : program.name.utf8ByteSize < 2 ^ 32
  constants_lt : program.constants.size < 2 ^ 32
  constants_fit : ∀ constant ∈ program.constants.entries, constant.Fits
  functions_lt : program.functions.size < 2 ^ 32
  function_name_lt : ∀ function ∈ program.functions, function.name.utf8ByteSize < 2 ^ 32
  code_lt : program.code.size < 2 ^ 32

/-- Two programs that are the same, but for the way in which bignums are stored. -/
structure SameMeaning (first second : Program) : Prop where
  name_eq : first.name = second.name
  code_eq : first.code = second.code
  functions_eq : first.functions = second.functions
  constants_size_eq : first.constants.size = second.constants.size
  constants_same : ∀ index constant other, first.constants.get? index = some constant →
    second.constants.get? index = some other → constant.SameValue other

theorem exists_reads_payload {program : Program} (fits : program.Fits) :
    ∃ found, Bytes.Reads readPayload program.payload found ∧ program.SameMeaning found := by
  obtain ⟨constants, hconstants, hsame⟩ :=
    ConstantPool.exists_reads fits.constants_lt fits.constants_fit
  have hfunctionCount : (UInt32.ofNat program.functions.size).toNat =
      program.functions.toList.length := UInt32.toNat_ofNat_of_lt' fits.functions_lt
  have hwordCount : (UInt32.ofNat program.code.size).toNat = program.code.toList.length :=
    UInt32.toNat_ofNat_of_lt' fits.code_lt
  have hfunctions := Bytes.reads_readMany fun function hmem ↦
    Function.reads (fits.function_name_lt function (Array.mem_toList_iff.1 hmem))
  have hcode := Bytes.reads_readMany fun word (_ : word ∈ program.code.toList) ↦
    Bytes.reads_readUInt32 word
  rw [← hfunctionCount] at hfunctions
  rw [← hwordCount] at hcode
  refine ⟨⟨program.name, program.code, constants, program.functions⟩, ?_, ?_⟩
  · unfold payload
    simp only [List.append_assoc]
    apply (Bytes.reads_readString fits.name_lt).bind
    apply hconstants.bind
    apply (Bytes.reads_readUInt32 _).bind
    apply hfunctions.bind
    apply (Bytes.reads_readUInt32 _).bind
    exact hcode.map fun words ↦ Program.mk program.name words.toArray constants program.functions
  · constructor
    case name_eq | code_eq | functions_eq => rfl
    case constants_size_eq => exact hsame.length_eq
    case constants_same =>
      intro index constant other hconstant hother
      obtain ⟨hindex, rfl⟩ := Array.getElem?_eq_some_iff.1 hconstant
      obtain ⟨hindex', rfl⟩ := Array.getElem?_eq_some_iff.1 hother
      exact hsame.get hindex hindex'

theorem fileStep_of_reads {step : Bytes.Parser α} {bytes : List UInt8} {value : α}
    (read : Bytes.Reads step bytes value) (rest : List UInt8) (position : Nat) :
    fileStep step ⟨bytes ++ rest, position⟩ = .ok (value, ⟨rest, position + bytes.length⟩) := by
  rw [fileStep, read rest position]

/-- Reading the file of a program gives the program back, with bignums of the same value. -/
theorem decode_encode_same {program : Program} (fits : program.Fits) :
    ∃ found, decode program.encode = .ok found ∧ program.SameMeaning found := by
  obtain ⟨found, hpayload, hsame⟩ := exists_reads_payload fits
  refine ⟨found, ?_, hsame⟩
  have hfile : program.encode = magic ++ (Bytes.ofUInt32 version ++
      (Bytes.ofUInt32 (Bytes.crc32 program.payload) ++ program.payload)) := by
    simp only [encode, List.append_assoc]
  have hmagic (rest : List UInt8) :
      fileStep (Bytes.take 4) ⟨magic ++ rest, 0⟩ = .ok (magic, ⟨rest, 4⟩) :=
    fileStep_of_reads (Bytes.reads_take magic) rest 0
  have hversion := fileStep_of_reads (Bytes.reads_readUInt32 version)
  have hchecksum := fileStep_of_reads (Bytes.reads_readUInt32 (Bytes.crc32 program.payload))
  have hread (position : Nat) : fileStep readPayload ⟨program.payload, position⟩ =
      .ok (found, ⟨[], position + program.payload.length⟩) := by
    have hstep := fileStep_of_reads hpayload [] position
    rwa [List.append_nil] at hstep
  rw [hfile, decode, hmagic]
  simp [bind, Except.bind, hversion, hchecksum, hread, pure, Except.pure]

/-- Constants of every kind: a not-a-number with a payload, a negative zero and a bignum of three
chunks are among them. -/
def assorted : Program where
  name := "größe"
  code := #[0xdeadbeef, 0]
  constants := ⟨#[.int (-9), .float ⟨0x7fc01234⟩, .float ⟨0x80000000⟩, .str "\u00fc",
    .big ⟨[0xffffffff, 0xffffffff], true⟩, .native "print"]⟩
  functions := #[⟨"main", 0, 0⟩, ⟨"main", 7, 3⟩]

theorem decode_encode_same_assorted :
    assorted.Fits ∧ ∃ found, decode assorted.encode = .ok found ∧ assorted.SameMeaning found :=
  have fits : assorted.Fits := {
    name_lt := by decide
    constants_lt := by decide
    constants_fit := by decide +kernel
    functions_lt := by decide
    function_name_lt := by decide
    code_lt := by decide }
  ⟨fits, decode_encode_same fits⟩

end Program

end RegisterMachine
