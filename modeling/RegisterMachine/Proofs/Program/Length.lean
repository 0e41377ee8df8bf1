import RegisterMachine.Proofs.Program.Header

/-!
# Files have one length

Bytes that follow change nothing of what a reader comes to, unless it has missed them. So a reader
that takes some bytes as a whole misses the rest when it is given only the beginning of them, and a
file that is cut short or goes on after its end is refused. No property of the checksum is used: the
files are written and read here under any checksum.
-/

namespace RegisterMachine

namespace Bytes

/-! ## Bytes that follow -/

/-- The reader, with more bytes after the last one. -/
def Reader.followedBy (reader : Reader) (more : List UInt8) : Reader :=
  { reader with rest := reader.rest ++ more }

/-- An outcome that leaves more bytes. -/
def followedBy (more : List UInt8) :
    EStateM.Result DecodeError Reader α → EStateM.Result DecodeError Reader α
  | .ok value later => .ok value (later.followedBy more)
  | .error cause later => .error cause (later.followedBy more)

/-- The reader misses a byte. -/
def Misses (parser : Parser α) (reader : Reader) : Prop :=
  ∃ offset later, parser.run reader = .error (.unexpectedEnd offset) later

/-- Unless the reader misses a byte, more bytes make no difference to it. -/
def Steady (parser : Parser α) : Prop :=
  ∀ reader more, Misses parser reader ∨
    parser.run (reader.followedBy more) = followedBy more (parser.run reader)

namespace Steady

theorem pure (value : α) : Steady (Pure.pure value : Parser α) :=
  fun _ _ ↦ .inr rfl

theorem throw (cause : DecodeError) : Steady (MonadExcept.throw cause : Parser α) :=
  fun _ _ ↦ .inr rfl

theorem bind {parser : Parser α} {next : α → Parser β} (head : Steady parser)
    (tail : ∀ value, Steady (next value)) : Steady (parser >>= next) := by
  intro reader more
  unfold Misses
  rw [EStateM.run_bind, EStateM.run_bind]
  rcases head reader more with ⟨offset, later, hmissed⟩ | hsame
  · rw [hmissed]
    exact .inl ⟨offset, later, rfl⟩
  · rw [hsame]
    cases parser.run reader with
    | ok value later => exact tail value later more
    | error cause later => exact .inr rfl

/-- The position is used in messages only. -/
theorem position {next : Nat → Parser α} (steady : ∀ position, Steady (next position)) :
    Steady (Bytes.position >>= next) :=
  fun reader more ↦ steady reader.position reader more

theorem map {parser : Parser α} (steady : Steady parser) (form : α → β) :
    Steady (parser >>= fun found ↦ Pure.pure (form found)) :=
  steady.bind fun _ ↦ .pure _

theorem readMany {item : Parser α} (steady : Steady item) (count : Nat) :
    Steady (Bytes.readMany item count) := by
  induction count with
  | zero => exact .pure []
  | succ count ih => exact steady.bind fun first ↦ ih.map (first :: ·)

end Steady

theorem steady_take (count : Nat) : Steady (take count) := by
  intro reader more
  unfold Misses
  rw [run_take, run_take]
  by_cases hshort : (reader.rest.take count).length < count
  · rw [if_pos hshort]
    exact .inl ⟨reader.position, reader, rfl⟩
  · have henough : count ≤ reader.rest.length := by
      rw [List.length_take] at hshort
      omega
    have htake : (reader.followedBy more).rest.take count = reader.rest.take count :=
      List.take_append_of_le_length henough
    have hdrop : (reader.followedBy more).rest.drop count = reader.rest.drop count ++ more :=
      List.drop_append_of_le_length henough
    rw [htake, if_neg hshort, if_neg hshort, hdrop]
    exact .inr rfl

theorem steady_readUInt8 : Steady readUInt8 := (steady_take 1).map _

theorem steady_readUInt32 : Steady readUInt32 := (steady_take 4).map _

theorem steady_readString : Steady readString := by
  refine .position fun start ↦ steady_readUInt32.bind fun length ↦
    (steady_take length.toNat).bind fun bytes ↦ ?_
  split
  · exact .pure _
  · exact .throw _

/-- A reader that takes some bytes as a whole misses the rest of them. -/
theorem Reads.misses {parser : Parser α} {front more : List UInt8} {value : α}
    (read : Reads parser (front ++ more) value) (steady : Steady parser) (hmore : more ≠ [])
    (position : Nat) : Misses parser ⟨front, position⟩ := by
  refine (steady ⟨front, position⟩ more).resolve_right ?_
  intro hsame
  have hwhole := read [] position
  rw [List.append_nil] at hwhole
  change parser.run ⟨front ++ more, position⟩ = _ at hsame
  rw [hwhole] at hsame
  cases hrun : parser.run ⟨front, position⟩ with
  | ok found later =>
    rw [hrun, followedBy] at hsame
    obtain ⟨-, hlater⟩ := EStateM.Result.ok.inj hsame
    exact hmore (List.append_eq_nil_iff.1 (congrArg Reader.rest hlater).symm).2
  | error cause later =>
    rw [hrun] at hsame
    cases hsame

end Bytes

/-! ## Parts of a payload -/

theorem Constant.steady_read : Bytes.Steady Constant.read := by
  refine .position fun offset ↦ Bytes.steady_readUInt8.bind fun tag ↦ ?_
  split
  · exact (Bytes.steady_readUInt32.map _).map _
  · exact (Bytes.steady_readUInt32.map _).map _
  · exact Bytes.steady_readString.map _
  · refine Bytes.steady_readString.bind fun text ↦ ?_
    split
    · exact .pure _
    · exact .throw _
  · exact Bytes.steady_readString.map _
  · exact .throw _

theorem Function.steady_read : Bytes.Steady Function.read :=
  Bytes.steady_readString.bind fun _ ↦ Bytes.steady_readUInt32.bind fun _ ↦
    Bytes.steady_readUInt8.map _

theorem ConstantPool.steady_read : Bytes.Steady ConstantPool.read :=
  Bytes.steady_readUInt32.bind fun count ↦ (Constant.steady_read.readMany count.toNat).map _

/-- The file ends too early, or its payload has not the stored checksum. -/
def FileError.OfCut : FileError → Prop
  | .decode (.unexpectedEnd _) | .checksumMismatch _ _ => True
  | _ => False

namespace Program

theorem steady_readPayload : Bytes.Steady readPayload :=
  Bytes.steady_readString.bind fun _ ↦ ConstantPool.steady_read.bind fun _ ↦
    Bytes.steady_readUInt32.bind fun functionCount ↦
    (Function.steady_read.readMany functionCount.toNat).bind fun _ ↦
    Bytes.steady_readUInt32.bind fun wordCount ↦
    (Bytes.steady_readUInt32.readMany wordCount.toNat).map _

/-! ## Files under any checksum -/

variable (checksum : List UInt8 → UInt32)

/-- The file of a program under a checksum. -/
def encodeUnder (program : Program) : List UInt8 :=
  let payload := program.payload
  magic ++ Bytes.ofUInt32 version ++ Bytes.ofUInt32 (checksum payload) ++ payload

/-- Reads a file under a checksum. -/
def decodeUnder (file : List UInt8) : Except FileError Program := do
  let (found, reader) ← fileStep (Bytes.take 4) ⟨file, 0⟩
  if found ≠ magic then throw (.invalidMagic found)
  let (foundVersion, reader) ← fileStep Bytes.readUInt32 reader
  if foundVersion ≠ version then throw (.unsupportedVersion foundVersion)
  let (expected, reader) ← fileStep Bytes.readUInt32 reader
  let actual := checksum reader.rest
  if expected ≠ actual then throw (.checksumMismatch expected actual)
  let (program, reader) ← fileStep readPayload reader
  if reader.rest ≠ [] then throw (.trailingBytes reader.rest.length)
  return program

theorem encode_eq_encodeUnder : encode = encodeUnder Bytes.crc32 := rfl

theorem decode_eq_decodeUnder : decode = decodeUnder Bytes.crc32 := rfl

theorem encodeUnder_eq_append (program : Program) :
    program.encodeUnder checksum = magic ++ (Bytes.ofUInt32 version ++
      (Bytes.ofUInt32 (checksum program.payload) ++ program.payload)) := by
  simp only [encodeUnder, List.append_assoc]

theorem fileStep_of_misses {step : Bytes.Parser α} {reader : Bytes.Reader}
    (misses : Bytes.Misses step reader) :
    ∃ offset, fileStep step reader = .error (.decode (.unexpectedEnd offset)) := by
  obtain ⟨offset, later, hrun⟩ := misses
  exact ⟨offset, by rw [fileStep, hrun]⟩

/-- A step of reading finds the bytes cut that it takes, or the cut lies behind them. -/
theorem fileStep_cut {step : Bytes.Parser α} {bytes second front more : List UInt8} {value : α}
    (read : Bytes.Reads step bytes value) (steady : Bytes.Steady step)
    (hcut : bytes ++ second = front ++ more) (position : Nat) :
    (∃ offset, fileStep step ⟨front, position⟩ = .error (.decode (.unexpectedEnd offset))) ∨
      ∃ later, front = bytes ++ later ∧ second = later ++ more := by
  rcases List.append_eq_append_iff.1 hcut with ⟨later, hfront, hsecond⟩ | ⟨rest, hbytes, hmore⟩
  · exact .inr ⟨later, hfront, hsecond⟩
  · by_cases hrest : rest = []
    · refine .inr ⟨[], ?_, ?_⟩
      · rw [hbytes, hrest, List.append_nil, List.append_nil]
      · rw [hmore, hrest]
        rfl
    · rw [hbytes] at read
      exact .inl (fileStep_of_misses (read.misses steady hrest position))

theorem reads_magic : Bytes.Reads (Bytes.take 4) magic magic :=
  Bytes.reads_take magic

theorem fileStep_magic (rest : List UInt8) :
    fileStep (Bytes.take 4) ⟨magic ++ rest, 0⟩ = .ok (magic, ⟨rest, 4⟩) :=
  fileStep_of_reads reads_magic rest 0

theorem fileStep_readUInt32 (word : UInt32) (rest : List UInt8) (position : Nat) :
    fileStep Bytes.readUInt32 ⟨Bytes.ofUInt32 word ++ rest, position⟩ =
      .ok (word, ⟨rest, position + 4⟩) :=
  fileStep_of_reads (Bytes.reads_readUInt32 word) rest position

/-- A file with the magic bytes and the version is judged by its checksum first. -/
theorem decodeUnder_append (expected : UInt32) (payload : List UInt8) :
    decodeUnder checksum
        (magic ++ (Bytes.ofUInt32 version ++ (Bytes.ofUInt32 expected ++ payload))) =
      if expected = checksum payload then readSealed payload
      else .error (.checksumMismatch expected (checksum payload)) := by
  rw [decodeUnder, fileStep_magic, readSealed]
  simp only [bind, Except.bind, fileStep_readUInt32]
  by_cases hsame : expected = checksum payload
  · simp [hsame, pure, Except.pure, headerLength]
  · simp [hsame, pure, Except.pure]
    rfl

/-! ## Wrong lengths -/

section Fits

variable {program : Program} (fits : program.Fits) {more : List UInt8} (hmore : more ≠ [])

include fits hmore

theorem readSealed_cut {front : List UInt8} (hpayload : program.payload = front ++ more) :
    ∃ offset, readSealed front = .error (.decode (.unexpectedEnd offset)) := by
  obtain ⟨found, hread, -⟩ := exists_reads_payload fits
  rw [hpayload] at hread
  obtain ⟨offset, hstep⟩ :=
    fileStep_of_misses (hread.misses steady_readPayload hmore headerLength)
  refine ⟨offset, ?_⟩
  rw [readSealed, hstep]
  rfl

theorem readSealed_append :
    readSealed (program.payload ++ more) = .error (.trailingBytes more.length) := by
  obtain ⟨found, hread, -⟩ := exists_reads_payload fits
  rw [readSealed, fileStep_of_reads hread more headerLength]
  simp only [bind, Except.bind, if_pos hmore]
  rfl

/-- A byte is missed in the header, or the payload is cut and has its own checksum. -/
theorem decodeUnder_cut {front : List UInt8}
    (hfile : program.encodeUnder checksum = front ++ more) :
    ∃ cause, decodeUnder checksum front = .error cause ∧ cause.OfCut := by
  rw [encodeUnder_eq_append] at hfile
  rcases fileStep_cut reads_magic (Bytes.steady_take 4) hfile 0 with
    ⟨offset, hstep⟩ | ⟨afterMagic, rfl, hrest⟩
  · refine ⟨.decode (.unexpectedEnd offset), ?_, trivial⟩
    rw [decodeUnder, hstep]
    rfl
  rcases fileStep_cut (Bytes.reads_readUInt32 _) Bytes.steady_readUInt32 hrest 4 with
    ⟨offset, hstep⟩ | ⟨afterVersion, rfl, hlast⟩
  · refine ⟨.decode (.unexpectedEnd offset), ?_, trivial⟩
    rw [decodeUnder, fileStep_magic]
    simp [bind, Except.bind, hstep]
  rcases fileStep_cut (Bytes.reads_readUInt32 _) Bytes.steady_readUInt32 hlast 8 with
    ⟨offset, hstep⟩ | ⟨payload, rfl, hpayload⟩
  · refine ⟨.decode (.unexpectedEnd offset), ?_, trivial⟩
    rw [decodeUnder, fileStep_magic]
    simp [bind, Except.bind, fileStep_readUInt32, hstep]
  rw [decodeUnder_append]
  split
  · obtain ⟨offset, hread⟩ := readSealed_cut fits hmore hpayload
    exact ⟨_, hread, trivial⟩
  · exact ⟨_, rfl, trivial⟩

theorem decodeUnder_extended :
    decodeUnder checksum (program.encodeUnder checksum ++ more) =
      if checksum program.payload = checksum (program.payload ++ more) then
        .error (.trailingBytes more.length)
      else .error (.checksumMismatch (checksum program.payload)
        (checksum (program.payload ++ more))) := by
  rw [encodeUnder_eq_append]
  simp only [List.append_assoc]
  rw [decodeUnder_append, readSealed_append fits hmore]

end Fits

/-- Under any checksum the file of a program is refused when it is cut anywhere and when anything
follows it. Where the checksum does not tell the two payloads apart, reading misses a byte of the
one and leaves bytes of the other. -/
theorem file_of_wrong_length_refused {program : Program} (fits : program.Fits)
    (checksum : List UInt8 → UInt32) :
    (∀ front, front <+: program.encodeUnder checksum → front ≠ program.encodeUnder checksum →
      ∃ cause, decodeUnder checksum front = .error cause ∧ cause.OfCut) ∧
    ∀ more, more ≠ [] → decodeUnder checksum (program.encodeUnder checksum ++ more) =
      if checksum program.payload = checksum (program.payload ++ more) then
        .error (.trailingBytes more.length)
      else .error (.checksumMismatch (checksum program.payload)
        (checksum (program.payload ++ more))) := by
  constructor
  · rintro front ⟨more, hfile⟩ hstrict
    have hmore : more ≠ [] := by
      rintro rfl
      exact hstrict (by rw [← hfile, List.append_nil])
    exact decodeUnder_cut checksum fits hmore hfile.symm
  · intro more hmore
    exact decodeUnder_extended checksum fits hmore

/-- A program with something in each part of its file. -/
def lettered : Program where
  name := "v"
  code := #[0]
  constants := ⟨#[.str "ab"]⟩
  functions := #[⟨"main", 0, 0⟩]

/-- Cut between the two letters of the constant, and continued under a checksum that is always the
same. -/
theorem file_of_wrong_length_refused_lettered : lettered.Fits ∧
    (∃ cause, decode (lettered.encode.take 27) = .error cause ∧ cause.OfCut) ∧
    decodeUnder (fun _ ↦ 0) (lettered.encodeUnder (fun _ ↦ 0) ++ [7]) =
      .error (.trailingBytes 1) := by
  have fits : lettered.Fits := {
    name_lt := by decide
    constants_lt := by decide
    constants_fit := by decide
    functions_lt := by decide
    function_name_lt := by decide
    code_lt := by decide }
  refine ⟨fits, ?_, ?_⟩
  · rw [decode_eq_decodeUnder, encode_eq_encodeUnder]
    refine (file_of_wrong_length_refused fits Bytes.crc32).1 _ (List.take_prefix _ _) ?_
    intro hsame
    have hlength := congrArg List.length hsame
    revert hlength
    decide +kernel
  · exact (file_of_wrong_length_refused fits fun _ ↦ 0).2 [7] (by decide)

end Program

end RegisterMachine
