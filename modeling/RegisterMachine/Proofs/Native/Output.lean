import RegisterMachine.Native.Builtin
import RegisterMachine.Proofs.Outcome

/-!
# What a host function leaves when it fails

A sink takes bytes piece by piece, and what it has taken it keeps. An output therefore grows by all
that is written to it, or, when the sink fails, by a part that is not the whole. Of the standard
host functions only the one that prints writes; any other that fails has changed nothing.
-/

namespace RegisterMachine

/-! ## The sink of an output -/

namespace Output

variable {bytes first second : List UInt8} {before output after : Output} {ε : Type}

theorem append_nil (output : Output) : output.append [] = output := by
  simp [append]

theorem append_append (output : Output) (first second : List UInt8) :
    (output.append first).append second = output.append (first ++ second) := by
  simp [append, List.toByteArray_append, ByteArray.append_assoc]

/-- The sink has taken some bytes, and has given some of the answers that it was about to give. -/
def Took (bytes : List UInt8) (before after : Output) : Prop :=
  ∃ plan, plan <:+ before.plan ∧ after = { before.append bytes with plan }

/-- The sink has failed when it had taken a part of some bytes, which may be none of them but is not
all. -/
def CutShort (bytes : List UInt8) (before after : Output) : Prop :=
  ∃ taken rest, bytes = taken ++ rest ∧ rest ≠ [] ∧ Took taken before after

/-- What becomes of an output to which some bytes are written. -/
def Handed (bytes : List UInt8) (before : Output) : Except ε Unit × Output → Prop
  | (.ok _, after) => Took bytes before after
  | (.error _, after) => CutShort bytes before after

theorem Took.refl (output : Output) : Took [] output output :=
  ⟨output.plan, List.suffix_rfl, by rw [append_nil]⟩

theorem Took.append (bytes : List UInt8) (output : Output) :
    Took bytes output (output.append bytes) :=
  ⟨output.plan, List.suffix_rfl, rfl⟩

/-- An answer is given, and nothing is taken. -/
theorem Took.answered {answer : SinkAnswer} {plan : List SinkAnswer}
    (hplan : output.plan = answer :: plan) : Took [] output { output with plan } :=
  ⟨plan, hplan ▸ List.suffix_cons answer plan, by rw [append_nil]⟩

theorem Took.trans (head : Took first before output) (tail : Took second output after) :
    Took (first ++ second) before after := by
  obtain ⟨plan, hplan, rfl⟩ := head
  obtain ⟨later, hlater, rfl⟩ := tail
  refine ⟨later, hlater.trans hplan, ?_⟩
  rw [← append_append]
  rfl

theorem Took.cutShort (head : Took first before output) (tail : CutShort second output after) :
    CutShort (first ++ second) before after := by
  obtain ⟨taken, rest, rfl, hrest, htaken⟩ := tail
  exact ⟨first ++ taken, rest, (List.append_assoc ..).symm, hrest, head.trans htaken⟩

/-- A sink that takes none of what it is handed. -/
theorem Took.refuses (head : Took [] before after) (hbytes : bytes ≠ []) :
    CutShort bytes before after :=
  ⟨[], bytes, rfl, hbytes, head⟩

theorem Took.handed {result : Except ε Unit × Output} (head : Took first before output)
    (tail : Handed second output result) : Handed (first ++ second) before result := by
  obtain ⟨_ | _, after⟩ := result
  · exact head.cutShort tail
  · exact head.trans tail

/-- Whatever the sink answers, it has taken everything, or has failed after a part. -/
theorem offer_handed (plan : List SinkAnswer) (bytes : List UInt8) (output : Output)
    (hplan : output.plan = plan) : Handed bytes output (offer plan bytes output) := by
  -- The induction follows the answers; the plan of the output keeps step with them.
  fun_induction Output.offer plan bytes output with
  | case1 _ output => exact .refl output
  | case2 bytes output _ _ => exact .append bytes output
  | case3 bytes output hbytes => exact (Took.refl output).refuses hbytes
  | case4 plan bytes output hbytes => exact (Took.answered hplan).refuses hbytes
  | case5 count plan bytes output hbytes hcount ih =>
    have htook := (Took.answered hplan).trans (.append (bytes.take count) { output with plan })
    have hhanded := htook.handed (ih rfl)
    rwa [List.nil_append, List.take_append_drop] at hhanded
  | case6 plan bytes output _ ih => exact (Took.answered hplan).handed (ih rfl)
  | case7 reason plan bytes output hbytes => exact (Took.answered hplan).refuses hbytes

theorem write_cons (text : String) (texts : List String) (output : Output) :
    write (text :: texts) output =
      match write [text] output with
      | (.ok _, later) => write texts later
      | (.error cause, later) => (.error cause, later) := by
  rw [write, write]
  rcases offer output.plan (Bytes.ofText text) output with ⟨_ | _, _⟩
  · rfl
  · rfl

theorem write_handed (texts : List String) (output : Output) :
    Handed (texts.flatMap Bytes.ofText) output (write texts output) := by
  induction texts generalizing output with
  | nil => exact .refl output
  | cons text texts ih =>
    have hoffered := offer_handed output.plan (Bytes.ofText text) output rfl
    rw [List.flatMap_cons, write]
    split
    · next heq =>
      rw [heq] at hoffered
      exact Took.handed hoffered (ih _)
    · next reason after heq =>
      rw [heq] at hoffered
      obtain ⟨taken, rest, hbytes, hrest, htook⟩ := hoffered
      refine ⟨taken, rest ++ texts.flatMap Bytes.ofText, ?_, by simp [hrest], htook⟩
      rw [hbytes, List.append_assoc]

theorem of_write_eq_error {texts : List String} {cause : NativeError}
    (h : write texts output = (.error cause, after)) : ∃ reason, cause = .output reason := by
  induction texts generalizing output with
  | nil => cases h
  | cons text texts ih =>
    rw [write] at h
    split at h
    · exact ih h
    · next reason _ _ =>
      cases h
      exact ⟨reason, rfl⟩

end Output

/-! ## The standard host functions -/

/-- A host function that has changed nothing when it fails. -/
def Native.Clean (function : Native) : Prop :=
  ∀ call, Yields (fun result ↦ ∃ value, result.answer = .ok value) (function call)

namespace Builtin

/-- The bytes that are printed. -/
def printed (call : NativeCall) : List UInt8 :=
  [line call, "\n"].flatMap Bytes.ofText

/-- Printing leaves the heap alone, and fails only for the output. -/
theorem print_meets (call : NativeCall) :
    Meets (fun cause ↦ ∃ reason, cause = .output reason)
      (fun result ↦ result.heap = call.heap ∧
        (result.answer = .ok .null ∨ ∃ reason, result.answer = .error (.output reason)))
      (print call) := by
  unfold print
  split
  · exact ⟨rfl, .inl rfl⟩
  · next cause after heq =>
    have hcause := Output.of_write_eq_error heq
    split
    · exact hcause
    · obtain ⟨reason, rfl⟩ := hcause
      exact ⟨rfl, .inr ⟨reason, rfl⟩⟩

theorem alloc_clean (call : NativeCall) (object : HeapObject) :
    Yields (fun result ↦ ∃ value, result.answer = .ok value) (call.alloc object) := by
  unfold NativeCall.alloc
  split
  · exact ⟨_, rfl⟩
  · trivial

theorem allocBignum_clean (call : NativeCall) (value : Except BignumError Bignum) :
    Yields (fun result ↦ ∃ value, result.answer = .ok value) (call.allocBignum value) := by
  cases value with
  | ok value => exact alloc_clean call _
  | error cause => trivial

theorem len_clean : Native.Clean len := by
  refine fun call ↦ .bind fun _ ↦ .bind fun value ↦ ?_
  cases value with
  | object handle =>
    refine .bind fun object ↦ ?_
    split
    · trivial
    · split
      · exact ⟨_, rfl⟩
      · trivial
  | _ => trivial

theorem push_clean : Native.Clean push := by
  refine fun call ↦ .bind fun _ ↦ .bind fun item ↦ .bind fun (handle, object) ↦ ?_
  cases object with
  | array | list => exact ⟨_, rfl⟩
  | _ => trivial

theorem pop_clean : Native.Clean pop := by
  refine fun call ↦ .bind fun _ ↦ .bind fun (handle, object) ↦ ?_
  cases object with
  | array | list => exact ⟨_, rfl⟩
  | _ => trivial

theorem big_clean : Native.Clean big := by
  refine fun call ↦ .bind fun _ ↦ .bind fun value ↦ ?_
  cases value with
  | object handle =>
    refine .bind fun object ↦ ?_
    cases object with
    | str text => exact allocBignum_clean call _
    | _ => exact .bind fun number ↦ allocBignum_clean call _
  | _ => exact .bind fun number ↦ allocBignum_clean call _

theorem bigBinary_clean (op : Bignum → Bignum → Except BignumError Bignum) :
    Native.Clean (bigBinary op) :=
  fun call ↦ .bind fun _ ↦ .bind fun _ ↦ .bind fun _ ↦ allocBignum_clean call _

theorem bigShift_clean (op : Bignum → Bignum → Except BignumError Bignum) :
    Native.Clean (bigShift op) :=
  fun call ↦ .bind fun _ ↦ .bind fun _ ↦ .bind fun _ ↦ allocBignum_clean call _

theorem bigNeg_clean : Native.Clean bigNeg :=
  fun call ↦ .bind fun _ ↦ .bind fun _ ↦ allocBignum_clean call _

theorem bigCmp_clean : Native.Clean bigCmp :=
  fun _ ↦ .bind fun _ ↦ .bind fun _ ↦ .bind fun _ ↦ ⟨_, rfl⟩

theorem bigStr_clean : Native.Clean bigStr :=
  fun call ↦ .bind fun _ ↦ .bind fun _ ↦ alloc_clean call _

/-- Every standard host function but the one that prints has changed nothing when it fails. -/
theorem all_clean : ∀ entry ∈ all, entry = ("print", print) ∨ entry.2.Clean := by
  have hnew (object : HeapObject) : Native.Clean (·.alloc object) := fun call ↦ alloc_clean call _
  simp only [all, List.mem_cons, List.not_mem_nil, or_false, forall_eq_or_imp, forall_eq]
  exact ⟨.inl trivial, .inr len_clean, .inr (hnew _), .inr (hnew _), .inr (hnew _),
    .inr push_clean, .inr pop_clean, .inr big_clean, .inr (bigBinary_clean _),
    .inr (bigBinary_clean _), .inr (bigBinary_clean _), .inr (bigBinary_clean _),
    .inr (bigBinary_clean _), .inr (bigBinary_clean _), .inr (bigBinary_clean _),
    .inr (bigBinary_clean _), .inr (bigBinary_clean _), .inr (bigShift_clean _),
    .inr (bigShift_clean _), .inr bigNeg_clean, .inr bigCmp_clean, .inr bigStr_clean⟩

end Builtin

end RegisterMachine
