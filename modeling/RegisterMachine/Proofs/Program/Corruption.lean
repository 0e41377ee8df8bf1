import RegisterMachine.Proofs.Program.Header

/-!
# Corrupted files are refused

A file that passes the checks of its header is sealed: the header is the one that its payload asks
for. So a change of the header alone does not pass, and neither does a change inside four bytes of
the payload, for the checksum under the old header would have to be that of both payloads.
-/

namespace RegisterMachine

namespace Bytes

/-- Two lists of bytes differ at certain places only. -/
def DifferOnly (places : Nat → Prop) (first second : List UInt8) : Prop :=
  ∀ index, first[index]? ≠ second[index]? → places index

namespace DifferOnly

variable {places : Nat → Prop} {first second : List UInt8}

theorem take_eq (differ : DifferOnly places first second) {count : Nat}
    (hplaces : ∀ index, places index → count ≤ index) : first.take count = second.take count := by
  apply List.ext_getElem?
  intro index
  by_cases hindex : index < count
  · rw [List.getElem?_take_of_lt hindex, List.getElem?_take_of_lt hindex]
    by_contra hdiffer
    exact absurd (hplaces index (differ index hdiffer)) (Nat.not_le_of_lt hindex)
  · rw [List.getElem?_take_eq_none (Nat.le_of_not_lt hindex),
      List.getElem?_take_eq_none (Nat.le_of_not_lt hindex)]

theorem drop_eq (differ : DifferOnly places first second) {count : Nat}
    (hplaces : ∀ index, places index → index < count) : first.drop count = second.drop count := by
  apply List.ext_getElem?
  intro index
  rw [List.getElem?_drop, List.getElem?_drop]
  by_contra hdiffer
  exact absurd (hplaces _ (differ _ hdiffer)) (Nat.not_lt_of_le (Nat.le_add_right count index))

theorem drop (differ : DifferOnly places first second) (count : Nat) :
    DifferOnly (fun index ↦ places (count + index)) (first.drop count) (second.drop count) := by
  intro index hdiffer
  rw [List.getElem?_drop, List.getElem?_drop] at hdiffer
  exact differ _ hdiffer

end DifferOnly

/-- Bytes around a window, and the window. -/
theorem eq_append_window (bytes : List UInt8) (start width : Nat) :
    bytes = bytes.take start ++ (bytes.drop start).take width ++ bytes.drop (start + width) := by
  rw [List.append_assoc, ← List.drop_drop, List.take_append_drop, List.take_append_drop]

theorem eq_of_crc32_eq {first second : List UInt8} (start : Nat)
    (hlength : first.length = second.length)
    (differ : DifferOnly (fun index ↦ start ≤ index ∧ index < start + 4) first second)
    (hsame : crc32 first = crc32 second) : first = second := by
  have hbefore : first.take start = second.take start := differ.take_eq fun _ h ↦ h.1
  have hafter : first.drop (start + 4) = second.drop (start + 4) := differ.drop_eq fun _ h ↦ h.2
  have hwidth : ((first.drop start).take 4).length = ((second.drop start).take 4).length := by
    simp only [List.length_take, List.length_drop, hlength]
  rw [eq_append_window first start 4, eq_append_window second start 4, hbefore, hafter] at hsame
  have hwindow := crc32_window_injective hwidth (List.length_take_le _ _) hsame
  rw [eq_append_window first start 4, hbefore, hwindow, hafter, ← eq_append_window]

end Bytes

namespace Program

variable {payload other : List UInt8}

theorem length_sealed (payload : List UInt8) :
    (sealed payload).length = headerLength + payload.length := by
  simp only [sealed, List.length_append, Bytes.length_ofUInt32, magic, headerLength]
  rfl

/-- Two sealed payloads under one header have one checksum. -/
theorem crc32_eq_of_take_eq
    (hheader : (sealed payload).take headerLength = (sealed other).take headerLength) :
    Bytes.crc32 payload = Bytes.crc32 other := by
  have hchecksum : Bytes.ofUInt32 (Bytes.crc32 payload) = Bytes.ofUInt32 (Bytes.crc32 other) :=
    congrArg (List.drop 8) hheader
  rw [← Bytes.toUInt32_ofUInt32 (Bytes.crc32 payload), hchecksum, Bytes.toUInt32_ofUInt32]

/-- A file that differs from that of a program only in its header, or only inside a window of four
bytes of its payload, is refused by a check of the header. -/
theorem corrupted_file_refused {program : Program} {file : List UInt8}
    (hlength : file.length = program.encode.length) (hdiffers : file ≠ program.encode)
    (hplaces : Bytes.DifferOnly (· < headerLength) file program.encode ∨
      ∃ start, headerLength ≤ start ∧
        Bytes.DifferOnly (fun index ↦ start ≤ index ∧ index < start + 4) file program.encode) :
    ∃ cause, decode file = .error cause ∧ cause.OfHeader := by
  rw [encode_eq_sealed] at hlength hdiffers hplaces
  rw [length_sealed] at hlength
  have hheader : headerLength ≤ file.length := by omega
  rcases refused_or_sealed hheader with hrefused | ⟨payload, rfl⟩
  · exact hrefused
  -- Otherwise the file is sealed, and then it is the file of the program.
  refine absurd ?_ hdiffers
  have hsize : payload.length = program.payload.length := by
    rw [length_sealed] at hlength
    omega
  suffices hpayload : payload = program.payload by rw [hpayload]
  rcases hplaces with hfront | ⟨start, hstart, hwindow⟩
  · exact hfront.drop_eq fun _ h ↦ h
  · have hsame : Bytes.crc32 payload = Bytes.crc32 program.payload :=
      crc32_eq_of_take_eq (hwindow.take_eq fun index h ↦ Nat.le_trans hstart h.1)
    refine Bytes.eq_of_crc32_eq (start - headerLength) hsize ?_ hsame
    intro index hdiffer
    have hplace := hwindow.drop headerLength index hdiffer
    omega

/-- A file in which the last byte of the name and the second byte of the number of constants have
changed. -/
def straddled : List UInt8 :=
  (assorted.encode.set 22 0).set 24 0xff

theorem corrupted_file_refused_straddled :
    straddled.length = assorted.encode.length ∧ straddled ≠ assorted.encode ∧
      Bytes.DifferOnly (fun index ↦ 21 ≤ index ∧ index < 21 + 4) straddled assorted.encode ∧
      ∃ cause, decode straddled = .error cause ∧ cause.OfHeader := by
  have hlength : straddled.length = assorted.encode.length := by
    simp only [straddled, List.length_set]
  have hdiffers : straddled ≠ assorted.encode := by
    intro hsame
    have hbyte : straddled[22]? = assorted.encode[22]? := congrArg (·[22]?) hsame
    exact absurd hbyte (by decide +kernel)
  have hwindow : Bytes.DifferOnly (fun index ↦ 21 ≤ index ∧ index < 21 + 4) straddled
      assorted.encode := by
    intro index hdiffer
    by_contra houtside
    apply hdiffer
    unfold straddled
    rw [List.getElem?_set_ne (by omega), List.getElem?_set_ne (by omega)]
  exact ⟨hlength, hdiffers, hwindow,
    corrupted_file_refused hlength hdiffers (.inr ⟨21, by decide, hwindow⟩)⟩

end Program

end RegisterMachine
