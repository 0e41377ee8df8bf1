import RegisterMachine.Proofs.Bytes.Checksum
import RegisterMachine.Proofs.Outcome

/-!
# Headers of program files

The header is checked before anything of the payload is read. A file is accepted exactly when it is
a sealed payload, one under the magic bytes, the version and its own checksum, and the payload is
read to its end.
-/

namespace RegisterMachine

namespace Bytes

theorem reads_take_of_length {bytes : List UInt8} {count : Nat} (hlength : bytes.length = count) :
    Reads (take count) bytes bytes :=
  hlength ▸ reads_take bytes

theorem reads_readUInt32_of_length {bytes : List UInt8} (hlength : bytes.length = 4) :
    Reads readUInt32 bytes (toUInt32 bytes) :=
  (reads_take_of_length hlength).map toUInt32

theorem ofUInt32_toUInt32 {bytes : List UInt8} (hlength : bytes.length = 4) :
    ofUInt32 (toUInt32 bytes) = bytes := by
  have hsame : toUInt32 (ofUInt32 (toUInt32 bytes)) = toUInt32 bytes := toUInt32_ofUInt32 _
  exact toUInt32_injective hlength.symm (Nat.le_refl 4) hsame

/-! ## What a reader accepts -/

/-- Whatever the reader accepts, it has taken from the front, and what it has taken is a way to
write the value. -/
def Accepts (parser : Parser α) (written : α → List UInt8 → Prop) : Prop :=
  ∀ reader value later, parser.run reader = .ok value later →
    ∃ bytes, reader.rest = bytes ++ later.rest ∧ written value bytes

namespace Accepts

theorem pure (value : α) :
    Accepts (Pure.pure value : Parser α) fun found bytes ↦ found = value ∧ bytes = [] := by
  intro reader found later hrun
  cases hrun
  exact ⟨[], rfl, rfl, rfl⟩

theorem bind {parser : Parser α} {next : α → Parser β} {first : α → List UInt8 → Prop}
    {second : α → β → List UInt8 → Prop} (head : Accepts parser first)
    (tail : ∀ value, Accepts (next value) (second value)) :
    Accepts (parser >>= next) fun result bytes ↦ ∃ value front back,
      bytes = front ++ back ∧ first value front ∧ second value result back := by
  intro reader result later hrun
  change EStateM.bind parser next reader = _ at hrun
  rw [EStateM.bind] at hrun
  split at hrun
  · next value middle hparser =>
    obtain ⟨front, hfront, hfirst⟩ := head reader value middle hparser
    obtain ⟨back, hback, hsecond⟩ := tail value middle result later hrun
    refine ⟨front ++ back, ?_, value, front, back, rfl, hfirst, hsecond⟩
    rw [hfront, hback, List.append_assoc]
  · cases hrun

theorem mono {parser : Parser α} {written weaker : α → List UInt8 → Prop}
    (accepts : Accepts parser written)
    (h : ∀ value bytes, written value bytes → weaker value bytes) : Accepts parser weaker := by
  intro reader value later hrun
  obtain ⟨bytes, hrest, hwritten⟩ := accepts reader value later hrun
  exact ⟨bytes, hrest, h value bytes hwritten⟩

end Accepts

theorem accepts_take (count : Nat) :
    Accepts (take count) fun found bytes ↦ found = bytes ∧ bytes.length = count := by
  intro reader found later hrun
  rw [run_take] at hrun
  split at hrun
  · cases hrun
  · next henough =>
    cases hrun
    refine ⟨reader.rest.take count, (List.take_append_drop count reader.rest).symm, rfl, ?_⟩
    rw [List.length_take] at henough ⊢
    omega

theorem length_ofUInt32 (word : UInt32) : (ofUInt32 word).length = 4 := rfl

theorem accepts_readUInt32 : Accepts readUInt32 fun word bytes ↦ bytes = ofUInt32 word := by
  refine (Accepts.bind (accepts_take 4) fun _ ↦ .pure _).mono ?_
  rintro word bytes ⟨found, front, back, rfl, ⟨rfl, hlength⟩, rfl, rfl⟩
  rw [List.append_nil, ofUInt32_toUInt32 hlength]

end Bytes

/-- The file is refused by a check of its header, before its payload is read. -/
def FileError.OfHeader : FileError → Prop
  | .invalidMagic _ | .unsupportedVersion _ | .checksumMismatch _ _ => True
  | .decode _ | .trailingBytes _ => False

namespace Program

/-- A payload under its header. -/
def sealed (payload : List UInt8) : List UInt8 :=
  magic ++ Bytes.ofUInt32 version ++ Bytes.ofUInt32 (Bytes.crc32 payload) ++ payload

theorem sealed_eq_append (payload : List UInt8) :
    sealed payload = magic ++ (Bytes.ofUInt32 version ++
      (Bytes.ofUInt32 (Bytes.crc32 payload) ++ payload)) := by
  simp only [sealed, List.append_assoc]

theorem encode_eq_sealed (program : Program) : program.encode = sealed program.payload := rfl

/-- Reads what is under a header, to its end. -/
def readSealed (payload : List UInt8) : Except FileError Program := do
  let (program, reader) ← fileStep readPayload ⟨payload, headerLength⟩
  if reader.rest ≠ [] then throw (.trailingBytes reader.rest.length)
  return program

/-- The header is checked field by field, and then the payload is read. -/
theorem decode_append {found foundVersion checksum : List UInt8} (hfound : found.length = 4)
    (hversion : foundVersion.length = 4) (hchecksum : checksum.length = 4)
    (payload : List UInt8) :
    decode (found ++ (foundVersion ++ (checksum ++ payload))) =
      if found ≠ magic then .error (.invalidMagic found)
      else if Bytes.toUInt32 foundVersion ≠ version then
        .error (.unsupportedVersion (Bytes.toUInt32 foundVersion))
      else if Bytes.toUInt32 checksum ≠ Bytes.crc32 payload then
        .error (.checksumMismatch (Bytes.toUInt32 checksum) (Bytes.crc32 payload))
      else readSealed payload := by
  have htake := fileStep_of_reads (Bytes.reads_take_of_length hfound)
  have hword {bytes : List UInt8} (hbytes : bytes.length = 4) :=
    fileStep_of_reads (Bytes.reads_readUInt32_of_length hbytes)
  rw [decode, htake, readSealed]
  simp only [bind, Except.bind, hword hversion, hword hchecksum, hfound, hversion, hchecksum]
  by_cases hmagic : found = magic
  · by_cases hcurrent : Bytes.toUInt32 foundVersion = version
    · by_cases hsame : Bytes.toUInt32 checksum = Bytes.crc32 payload
      · simp [hmagic, hcurrent, hsame, pure, Except.pure, headerLength]
      · simp [hmagic, hcurrent, hsame, pure, Except.pure]
        rfl
    · simp [hmagic, hcurrent, pure, Except.pure]
      rfl
  · simp [hmagic]
    rfl

theorem fileStep_yields {step : Bytes.Parser α} {written : α → List UInt8 → Prop}
    (accepts : Bytes.Accepts step written) (reader : Bytes.Reader) :
    Yields (fun result ↦ ∃ bytes, reader.rest = bytes ++ result.2.rest ∧ written result.1 bytes)
      (fileStep step reader) := by
  unfold fileStep
  split
  · next value later hrun => exact accepts reader value later hrun
  · trivial

/-- A file that is read has a whole header. -/
theorem length_le_of_decode {file : List UInt8} {program : Program}
    (h : decode file = .ok program) : headerLength ≤ file.length := by
  suffices hyields : Yields (fun _ ↦ headerLength ≤ file.length) (decode file) from hyields.of_ok h
  refine Meets.bind (fileStep_yields (Bytes.accepts_take 4) _) ?_
  rintro ⟨found, rest⟩ - ⟨front, hfile, -, hfront⟩
  dsimp only at hfile ⊢
  split
  · trivial
  refine Meets.bind (fileStep_yields Bytes.accepts_readUInt32 _) ?_
  rintro ⟨foundVersion, later⟩ - ⟨middle, hrest, hmiddle⟩
  dsimp only at hrest ⊢
  split
  · trivial
  refine Meets.bind (fileStep_yields Bytes.accepts_readUInt32 _) ?_
  rintro ⟨checksum, last⟩ - ⟨back, hlater, hback⟩
  have hlength : headerLength ≤ file.length := by
    rw [hfile, hrest, hlater, hmiddle, hback]
    simp only [List.length_append, hfront, Bytes.length_ofUInt32, headerLength]
    omega
  exact Yields.of_forall fun _ ↦ hlength

theorem exists_fields {file : List UInt8} (hlength : headerLength ≤ file.length) :
    ∃ found foundVersion checksum payload : List UInt8, found.length = 4 ∧
      foundVersion.length = 4 ∧ checksum.length = 4 ∧
      file = found ++ (foundVersion ++ (checksum ++ payload)) := by
  have hbound : 12 ≤ file.length := hlength
  refine ⟨file.take 4, (file.drop 4).take 4, (file.drop 8).take 4, file.drop 12, ?_, ?_, ?_, ?_⟩
  · rw [List.length_take]
    omega
  · rw [List.length_take, List.length_drop]
    omega
  · rw [List.length_take, List.length_drop]
    omega
  · rw [← List.drop_drop (i := 4) (j := 8), List.take_append_drop,
      ← List.drop_drop (i := 4) (j := 4), List.take_append_drop, List.take_append_drop]

/-- The checks of the header let only sealed payloads pass. -/
theorem refused_or_sealed {file : List UInt8} (hlength : headerLength ≤ file.length) :
    (∃ cause, decode file = .error cause ∧ cause.OfHeader) ∨ ∃ payload, file = sealed payload := by
  obtain ⟨found, foundVersion, checksum, payload, hfound, hversion, hchecksum, rfl⟩ :=
    exists_fields hlength
  rw [decode_append hfound hversion hchecksum]
  split
  · exact .inl ⟨_, rfl, trivial⟩
  split
  · exact .inl ⟨_, rfl, trivial⟩
  split
  · exact .inl ⟨_, rfl, trivial⟩
  · next hmagic hcurrent hsame =>
    rw [Classical.not_not] at hmagic hcurrent hsame
    refine .inr ⟨payload, ?_⟩
    rw [sealed_eq_append, hmagic, ← hcurrent, ← hsame, Bytes.ofUInt32_toUInt32 hversion,
      Bytes.ofUInt32_toUInt32 hchecksum]

theorem decode_sealed (payload : List UInt8) : decode (sealed payload) = readSealed payload := by
  rw [sealed_eq_append, decode_append rfl rfl rfl, Bytes.toUInt32_ofUInt32,
    Bytes.toUInt32_ofUInt32, if_neg (· rfl), if_neg (· rfl), if_neg (· rfl)]

/-- A file is accepted exactly if it is a sealed payload that is read to its end. -/
theorem decode_eq_ok_iff {file : List UInt8} {program : Program} :
    decode file = .ok program ↔
      ∃ payload, file = sealed payload ∧ readSealed payload = .ok program := by
  constructor
  · intro haccepted
    rcases refused_or_sealed (length_le_of_decode haccepted) with
      ⟨cause, hrefused, -⟩ | ⟨payload, rfl⟩
    · rw [haccepted] at hrefused
      cases hrefused
    · exact ⟨payload, rfl, decode_sealed payload ▸ haccepted⟩
  · rintro ⟨payload, rfl, hread⟩
    rw [decode_sealed, hread]

end Program

end RegisterMachine
