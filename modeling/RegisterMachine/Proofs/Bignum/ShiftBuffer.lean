import Mathlib.Data.List.Induction
import RegisterMachine.Proofs.Bignum.Built
import RegisterMachine.Proofs.Bignum.Schoolbook
import RegisterMachine.Proofs.InPlace.Work

/-!
# Shifts in one buffer

A shift is written here as work on the limbs in place. A left shift grows the buffer and moves the
limbs up, the highest first; a right shift drops whole limbs and then lowers the bits of the others,
the lowest first. In either order a limb is read before anything is written over it. No test keeps
the positions inside the buffer, so a position past the end stops the work; that does not happen.

A shift by a bignum count looks at the count first. So a count that is refused, for not being
positive or for not fitting 32 bits, leaves the bignum as it was.
-/

namespace RegisterMachine

namespace Magnitude

open Work

/-! ## Limbs at positions -/

/-- The limb at a position. -/
def limbAt (position : Nat) : Work Magnitude Trap UInt32 :=
  look fun buffer ↦
    match buffer[position]? with
    | some limb => .ok limb
    | none => .error (.pastEnd position)

/-- Writes over the limb at a position. -/
def writeLimb (position : Nat) (limb : UInt32) : Work Magnitude Trap Unit := do
  let _ ← limbAt position
  change fun buffer ↦ buffer.set position limb

theorem on_limbAt (low high : Magnitude) (limb : UInt32) :
    (limbAt low.length).on (low ++ limb :: high) = (.ok limb, low ++ limb :: high) := by
  simp [limbAt]

theorem on_writeLimb (low high : Magnitude) (limb written : UInt32) :
    (writeLimb low.length written).on (low ++ limb :: high) = (.ok (), low ++ written :: high) := by
  refine (on_bind_of_ok (on_limbAt low high limb)).trans ?_
  simp

/-! ## Left shifts -/

/-- Moves the lowest `count` limbs up, the highest of them first. -/
def raiseLimbs (places : Nat) : Nat → Work Magnitude Trap Unit
  | 0 => pure ()
  | count + 1 => do
    let limb ← limbAt count
    writeLimb (count + places) limb
    raiseLimbs places count

/-- Moves the lowest `count` limbs up by whole limbs and some bits, the highest of them first. The
bits that leave a limb join those of the limb above, which has been moved before. -/
def raiseBits (places : Nat) (bits : UInt32) : Nat → Work Magnitude Trap Unit
  | 0 => pure ()
  | count + 1 => do
    let limb ← limbAt count
    let above ← limbAt (count + places + 1)
    writeLimb (count + places + 1) (above ||| limb >>> (32 - bits))
    writeLimb (count + places) (limb <<< bits)
    raiseBits places bits count

/-- Moves limbs up; whole limbs are moved as they are. -/
def raise (places : Nat) (bits : UInt32) (count : Nat) : Work Magnitude Trap Unit :=
  if bits = 0 then raiseLimbs places count else raiseBits places bits count

/-- Writes zeros over the lowest limbs. -/
def clearLow : Nat → Magnitude → Magnitude
  | 0, limbs => limbs
  | _ + 1, [] => []
  | places + 1, _ :: rest => 0 :: clearLow places rest

/-- Shifts left in a buffer that has been grown by the limbs moved over and one more. A zero and a
shift by nothing leave the buffer alone. -/
def shiftLeftInPlace (count : UInt32) : Work Magnitude Trap Unit := do
  let limbs ← get id
  if isZero limbs || count == 0 then pure ()
  else do
    let places := (count / 32).toNat
    let bits := count % 32
    change fun limbs ↦ limbs ++ List.replicate (places + 1) 0
    raise places bits limbs.length
    change (clearLow places)
    change normalize

/-- A limb on top of some room is as good as room below some limb. -/
theorem exists_room (limb : UInt32) (room : Magnitude) :
    ∃ lower last, limb :: room = lower ++ [last] ∧ lower.length = room.length := by
  have hne : limb :: room ≠ [] := List.cons_ne_nil limb room
  refine ⟨(limb :: room).dropLast, (limb :: room).getLast hne,
    (List.dropLast_concat_getLast hne).symm, ?_⟩
  rw [List.length_dropLast, List.length_cons, Nat.add_sub_cancel]

/-- The limbs and the room above them change places; what was in the room does not matter. -/
theorem on_raiseLimbs (limbs room high : Magnitude) :
    ∃ lower, lower.length = room.length ∧
      (raiseLimbs room.length limbs.length).on (limbs ++ (room ++ high)) =
        (.ok (), lower ++ (limbs ++ high)) := by
  induction limbs using List.reverseRecOn generalizing room high with
  | nil => exact ⟨room, rfl, rfl⟩
  | append_singleton low limb ih =>
    obtain ⟨lower, last, hroom, hlength⟩ := exists_room limb room
    have hbuffer : low ++ limb :: (room ++ high) = low ++ (lower ++ last :: high) := by
      rw [← List.cons_append, hroom, List.append_assoc, List.singleton_append]
    have hread := on_limbAt low (room ++ high) limb
    have hwrite := on_writeLimb (low ++ lower) high last limb
    obtain ⟨rest, hrest, hmoved⟩ := ih lower (limb :: high)
    refine ⟨rest, hrest.trans hlength, ?_⟩
    rw [hbuffer] at hread
    rw [List.length_append, hlength, List.append_assoc, List.append_assoc] at hwrite
    rw [hlength] at hmoved
    rw [List.length_append, List.append_assoc, List.singleton_append, hbuffer, List.append_assoc,
      List.singleton_append]
    exact (on_bind_of_ok hread).trans ((on_bind_of_ok hwrite).trans hmoved)

/-- Limbs shifted left by some bits. The lowest limb takes in bits from below; what is left of the
highest one goes to the limb above all of them. -/
def spread (bits : UInt32) : Magnitude → UInt32 → UInt32 → Magnitude
  | [], low, above => [above ||| low]
  | limb :: rest, low, above =>
    ((limb <<< bits) ||| low) :: spread bits rest (limb >>> (32 - bits)) above

theorem spread_concat (bits : UInt32) (limbs : Magnitude) (limb low above : UInt32) :
    spread bits (limbs ++ [limb]) low above =
      spread bits limbs low (limb <<< bits) ++ [above ||| limb >>> (32 - bits)] := by
  induction limbs generalizing low with
  | nil => rfl
  | cons first rest ih => rw [List.cons_append, spread, spread, ih, List.cons_append]

/-- The limb above has been shifted before it is written to, so it has room for the bits. -/
theorem on_raiseBits (bits : UInt32) (limbs room : Magnitude) (above : UInt32) (high : Magnitude) :
    ∃ lower, lower.length = room.length ∧
      (raiseBits room.length bits limbs.length).on (limbs ++ (room ++ above :: high)) =
        (.ok (), lower ++ (spread bits limbs 0 above ++ high)) := by
  induction limbs using List.reverseRecOn generalizing room above high with
  | nil =>
    refine ⟨room, rfl, ?_⟩
    rw [spread, UInt32.or_zero]
    rfl
  | append_singleton low limb ih =>
    obtain ⟨lower, last, hroom, hlength⟩ := exists_room limb room
    have hposition : (low ++ limb :: room).length = low.length + room.length + 1 := by simp; omega
    have hread := on_limbAt low (room ++ above :: high) limb
    have hreadAbove := on_limbAt (low ++ limb :: room) high above
    have hwriteAbove :=
      on_writeLimb (low ++ limb :: room) high above (above ||| limb >>> (32 - bits))
    have hwrite := on_writeLimb (low ++ lower) ((above ||| limb >>> (32 - bits)) :: high) last
      (limb <<< bits)
    obtain ⟨rest, hrest, hmoved⟩ :=
      ih lower (limb <<< bits) ((above ||| limb >>> (32 - bits)) :: high)
    refine ⟨rest, hrest.trans hlength, ?_⟩
    rw [hposition, List.append_assoc, List.cons_append] at hreadAbove hwriteAbove
    rw [hroom, List.append_assoc, List.append_assoc, List.singleton_append] at hwriteAbove
    rw [List.length_append, hlength, List.append_assoc, List.append_assoc] at hwrite
    rw [hlength] at hmoved
    rw [List.length_append, spread_concat, List.append_assoc, List.append_assoc]
    exact (on_bind_of_ok hread).trans ((on_bind_of_ok hreadAbove).trans
      ((on_bind_of_ok hwriteAbove).trans ((on_bind_of_ok hwrite).trans hmoved)))

theorem value_spread (bits : UInt32) (limbs : Magnitude) (low : UInt32) :
    value (spread bits limbs low 0) = value (shiftLeftBits bits limbs low) := by
  induction limbs generalizing low with
  | nil =>
    rw [spread, shiftLeftBits, UInt32.zero_or]
    split
    · next hzero => rw [hzero]; rfl
    · rfl
  | cons limb rest ih => rw [spread, shiftLeftBits, value_cons, value_cons, ih]

theorem clearLow_append (low high : Magnitude) :
    clearLow low.length (low ++ high) = List.replicate low.length 0 ++ high := by
  induction low with
  | nil => rfl
  | cons limb rest ih =>
    rw [List.length_cons, List.cons_append, clearLow, ih, List.replicate_succ, List.cons_append]

theorem normalize_eq_of_value_eq {first second : Magnitude} (h : value first = value second) :
    normalize first = normalize second := by
  apply eq_of_value_eq (canonical_normalize first) (canonical_normalize second)
  rw [value_normalize, value_normalize, h]

/-- The limbs are moved to their places, in whole limbs or with bits between them. -/
theorem on_raise (places : Nat) (bits : UInt32) (limbs : Magnitude) :
    ∃ room moved, room.length = places ∧
      value moved = value (if bits = 0 then limbs else shiftLeftBits bits limbs 0) ∧
      (raise places bits limbs.length).on (limbs ++ List.replicate (places + 1) 0) =
        (.ok (), room ++ moved) := by
  rw [List.replicate_succ']
  unfold raise
  split
  · obtain ⟨room, hroom, hmoved⟩ := on_raiseLimbs limbs (List.replicate places 0) [0]
    rw [List.length_replicate] at hroom hmoved
    refine ⟨room, limbs ++ [0], hroom, ?_, hmoved⟩
    rw [value_concat, UInt32.toNat_zero, Nat.mul_zero, Nat.add_zero]
  · obtain ⟨room, hroom, hmoved⟩ := on_raiseBits bits limbs (List.replicate places 0) 0 []
    rw [List.length_replicate] at hroom hmoved
    rw [List.append_nil] at hmoved
    exact ⟨room, _, hroom, value_spread bits limbs 0, hmoved⟩

theorem shiftLeft_zero {limbs : Magnitude} (hlimbs : Canonical limbs) :
    shiftLeft limbs 0 = limbs := by
  unfold shiftLeft
  split
  · rfl
  · exact normalize_eq_self hlimbs

theorem on_shiftLeftInPlace {limbs : Magnitude} (hlimbs : Canonical limbs) (count : UInt32) :
    (shiftLeftInPlace count).on limbs = (.ok (), shiftLeft limbs count) := by
  refine (on_bind_of_ok (on_get id limbs)).trans ?_
  dsimp only [id_eq]
  split
  · next hkept =>
    rcases Bool.or_eq_true_iff.1 hkept with hzero | hcount
    · rw [shiftLeft, if_pos hzero, on_pure]
    · rw [eq_of_beq hcount, shiftLeft_zero hlimbs, on_pure]
  · next hmoved =>
    have hzero : ¬isZero limbs = true := fun h ↦ hmoved (Bool.or_eq_true_iff.2 (.inl h))
    obtain ⟨room, moved, hroom, hvalue, hraise⟩ :=
      on_raise (count / 32).toNat (count % 32) limbs
    have hgrow : (change fun limbs ↦ limbs ++ List.replicate ((count / 32).toNat + 1) 0 :
        Work Magnitude Trap Unit).on limbs =
          (.ok (), limbs ++ List.replicate ((count / 32).toNat + 1) 0) := on_change _ limbs
    have hclear : (change (clearLow (count / 32).toNat) : Work Magnitude Trap Unit).on
        (room ++ moved) = (.ok (), List.replicate (count / 32).toNat 0 ++ moved) := by
      rw [on_change, ← hroom, clearLow_append]
    refine (on_bind_of_ok hgrow).trans ((on_bind_of_ok hraise).trans
      ((on_bind_of_ok hclear).trans ?_))
    rw [on_change, shiftLeft, if_neg hzero]
    congr 1
    apply normalize_eq_of_value_eq
    rw [value_append, value_append, hvalue]

/-! ## Right shifts -/

/-- Lowers the bits of some limbs, from a position upward. Each takes in the lowest bits of the limb
above it, which has not been written to. -/
def lowerBits (bits : UInt32) (position : Nat) : Nat → Work Magnitude Trap Unit
  | 0 => pure ()
  | count + 1 => do
    let limb ← limbAt position
    let above ← get fun buffer ↦ buffer.getD (position + 1) 0
    writeLimb position ((limb >>> bits) ||| (above <<< (32 - bits)))
    lowerBits bits (position + 1) count

/-- Lowers the bits of all limbs, if there are bits to shift by. -/
def lower (bits : UInt32) (count : Nat) : Work Magnitude Trap Unit :=
  if bits = 0 then pure () else lowerBits bits 0 count

/-- Shifts right in the buffer. A shift by all limbs or more leaves a zero. -/
def shiftRightInPlace (count : UInt32) : Work Magnitude Trap Unit := do
  let limbs ← get id
  let places := (count / 32).toNat
  let bits := count % 32
  if limbs.length ≤ places then change fun _ ↦ [0]
  else do
    change (List.drop places)
    lower bits (limbs.length - places)
    change normalize

theorem on_lowerBits (bits : UInt32) (low limbs : Magnitude) :
    (lowerBits bits low.length limbs.length).on (low ++ limbs) =
      (.ok (), low ++ shiftRightBits bits limbs) := by
  induction limbs generalizing low with
  | nil => rfl
  | cons limb rest ih =>
    have habove : (get fun buffer ↦ buffer.getD (low.length + 1) 0 :
        Work Magnitude Trap UInt32).on (low ++ limb :: rest) =
          (.ok (rest.headD 0), low ++ limb :: rest) := by
      cases rest <;> simp
    have hwrite := on_writeLimb low rest limb ((limb >>> bits) ||| (rest.headD 0 <<< (32 - bits)))
    have hrest := ih (low ++ [(limb >>> bits) ||| (rest.headD 0 <<< (32 - bits))])
    rw [List.length_append, List.append_assoc, List.append_assoc] at hrest
    exact (on_bind_of_ok (on_limbAt low rest limb)).trans ((on_bind_of_ok habove).trans
      ((on_bind_of_ok hwrite).trans hrest))

theorem on_lower (bits : UInt32) (limbs : Magnitude) :
    (lower bits limbs.length).on limbs =
      (.ok (), if bits = 0 then limbs else shiftRightBits bits limbs) := by
  unfold lower
  split
  · rfl
  · exact on_lowerBits bits [] limbs

theorem on_shiftRightInPlace (limbs : Magnitude) (count : UInt32) :
    (shiftRightInPlace count).on limbs = (.ok (), shiftRight limbs count) := by
  refine (on_bind_of_ok (on_get id limbs)).trans ?_
  dsimp only [id_eq]
  unfold shiftRight
  dsimp only
  split
  · next hall =>
    rw [List.drop_eq_nil_of_le hall, shiftRightBits, ite_self, on_change]
    rfl
  · next hsome =>
    have hdrop : (change (List.drop (count / 32).toNat) : Work Magnitude Trap Unit).on limbs =
        (.ok (), limbs.drop (count / 32).toNat) := on_change _ limbs
    have hlower := on_lower (count % 32) (limbs.drop (count / 32).toNat)
    rw [List.length_drop] at hlower
    exact (on_bind_of_ok hdrop).trans (on_bind_of_ok hlower)

end Magnitude

namespace Bignum

open Work

variable {a count : Bignum}

/-! ## Shifts of bignums -/

/-- The shifts: to the left, to the right rounded down, and to the right without the sign. -/
inductive Shift where
  | left | right | logicalRight

/-- Why a shift in place stops: the count is refused, or there is no limb at a position. -/
inductive Stop where
  | refused (cause : BignumError)
  | trapped (trap : Magnitude.Trap)

/-- Work on the limbs, which leaves the sign flag alone. -/
def onLimbs (work : Work Magnitude Magnitude.Trap Unit) : Work Bignum Stop Unit :=
  within limbs (fun n limbs ↦ { n with limbs }) .trapped work

theorem on_onLimbs {work : Work Magnitude Magnitude.Trap Unit} {limbs : Magnitude}
    (h : work.on a.limbs = (.ok (), limbs)) :
    (onLimbs work).on a = (.ok (), { a with limbs }) := by
  rw [onLimbs, on_within, h]
  rfl

namespace Shift

/-- The shift of an integer. -/
def ofInt : Shift → Int → Nat → Int
  | .left, x, bits => x * 2 ^ bits
  | .right, x, bits => x.fdiv (2 ^ bits)
  | .logicalRight, x, bits => (x.natAbs / 2 ^ bits : Nat)

/-- The shift of a bignum by a count of 32 bits. -/
def byBits : Shift → Bignum → UInt32 → Bignum
  | .left, a, bits => a.shiftLeftBits bits
  | .right, a, bits => a.shiftRightBits bits
  | .logicalRight, a, bits => a.logicalShiftRightBits bits

/-- The shift of a bignum by a bignum count. -/
def byCount : Shift → Bignum → Bignum → Except BignumError Bignum
  | .left, a, count => a.shiftLeft count
  | .right, a, count => a.shiftRight count
  | .logicalRight, a, count => a.logicalShiftRight count

/-- The shift in place by a count of 32 bits. -/
def inPlace (bits : UInt32) : Shift → Work Bignum Stop Unit
  | .left => onLimbs (Magnitude.shiftLeftInPlace bits)
  | .right => do
    let below ← get isNegative
    if below then do
      onLimbs (change Magnitude.dec)
      onLimbs (Magnitude.shiftRightInPlace bits)
      onLimbs (change Magnitude.inc)
    else do
      onLimbs (Magnitude.shiftRightInPlace bits)
      change clearZeroSign
  | .logicalRight => do
    onLimbs (Magnitude.shiftRightInPlace bits)
    change Bignum.abs

/-- The shift in place by a bignum count. -/
def inPlaceByCount (shift : Shift) (count : Bignum) : Work Bignum Stop Unit := do
  let bits ← look fun _ ↦ (shiftCount count).mapError .refused
  shift.inPlace bits

theorem toInt_byBits (shift : Shift) (a : Bignum) (bits : UInt32) :
    (shift.byBits a bits).toInt = shift.ofInt a.toInt bits.toNat := by
  cases shift with
  | left => exact toInt_shiftLeftBits a bits
  | right =>
    have hpower : (0 : Int) ≤ 2 ^ bits.toNat := Int.le_of_lt (Int.pow_pos (by decide))
    rw [ofInt, Int.fdiv_eq_ediv_of_nonneg _ hpower]
    exact toInt_shiftRightBits a bits
  | logicalRight =>
    rw [ofInt, natAbs_toInt, ← Magnitude.value_shiftRight]
    rfl

theorem on_inPlace (shift : Shift) (ha : a.limbs.Canonical) (bits : UInt32) :
    (shift.inPlace bits).on a = (.ok (), shift.byBits a bits) := by
  have hright (n : Bignum) : (onLimbs (Magnitude.shiftRightInPlace bits)).on n =
      (.ok (), { n with limbs := n.limbs.shiftRight bits }) :=
    on_onLimbs (Magnitude.on_shiftRightInPlace n.limbs bits)
  cases shift with
  | left => exact on_onLimbs (Magnitude.on_shiftLeftInPlace ha bits)
  | right =>
    refine (on_bind_of_ok (on_get isNegative a)).trans ?_
    unfold byBits shiftRightBits
    dsimp only
    split
    · have hdec : (onLimbs (change Magnitude.dec)).on a =
          (.ok (), { a with limbs := a.limbs.dec }) := on_onLimbs (on_change _ _)
      exact (on_bind_of_ok hdec).trans ((on_bind_of_ok (hright _)).trans
        (on_onLimbs (on_change _ _)))
    · exact (on_bind_of_ok (hright a)).trans (on_change _ _)
  | logicalRight => exact (on_bind_of_ok (hright a)).trans (on_change _ _)

theorem byCount_eq (shift : Shift) (a count : Bignum) :
    shift.byCount a count = (shiftCount count).map (shift.byBits a) := by
  cases hcount : shiftCount count <;> cases shift <;>
    simp [byCount, shiftLeft, shiftRight, logicalShiftRight, hcount] <;> rfl

theorem on_inPlaceByCount_of_ok (shift : Shift) (ha : a.limbs.Canonical) {bits : UInt32}
    (h : shiftCount count = .ok bits) :
    (shift.inPlaceByCount count).on a = (.ok (), shift.byBits a bits) := by
  have hlook : (look fun _ ↦ (shiftCount count).mapError .refused : Work Bignum Stop UInt32).on a =
      (.ok bits, a) := by
    rw [on_look, h]
    rfl
  exact (on_bind_of_ok hlook).trans (shift.on_inPlace ha bits)

/-- Nothing is done to the limbs before the count has been taken. -/
theorem on_inPlaceByCount_of_error (shift : Shift) (a : Bignum) {cause : BignumError}
    (h : shiftCount count = .error cause) :
    (shift.inPlaceByCount count).on a = (.error (.refused cause), a) := by
  have hlook : (look fun _ ↦ (shiftCount count).mapError .refused : Work Bignum Stop UInt32).on a =
      (.error (.refused cause), a) := by
    rw [on_look, h]
    rfl
  exact on_bind_of_error hlook

end Shift

/-! ## Counts -/

theorem shiftCount_of_not_pos (hcount : count.toInt ≤ 0) :
    shiftCount count = .error .invalidShift := by
  unfold shiftCount
  rw [if_pos]
  rw [Bool.or_eq_true_iff, isZero_iff_toInt_eq_zero, isNegative_iff_toInt_neg]
  omega

theorem shiftCount_of_large (hcount : 2 ^ 32 - 1 < count.toInt) :
    shiftCount count = .error .shiftTooLarge := by
  have hzero : count.isZero = false :=
    Bool.eq_false_iff.2 (mt (isZero_iff_toInt_eq_zero count).1 (by omega))
  have habove : count.isNegative = false :=
    Bool.eq_false_iff.2 (mt (isNegative_iff_toInt_neg count).1 (by omega))
  have hvalue := toInt_of_not_isNegative habove
  have hlimbs (limb : UInt32) : count.limbs ≠ [limb] := by
    intro hsingle
    have hlimb := limb.toNat_lt
    rw [hsingle, Magnitude.value_cons, Magnitude.value_nil] at hvalue
    omega
  have hwide : count.toUInt32? = none := by
    unfold toUInt32?
    rw [if_neg (Bool.eq_false_iff.1 habove)]
    split
    · next limb hsingle => exact absurd hsingle (hlimbs limb)
    · rfl
  simp [shiftCount, hzero, habove, hwide]

/-- A count is refused as too small, refused as too large, or taken. -/
theorem shiftCount_cases (hcount : count.limbs.Canonical) :
    (count.toInt ≤ 0 ∧ shiftCount count = .error .invalidShift) ∨
      (2 ^ 32 - 1 < count.toInt ∧ shiftCount count = .error .shiftTooLarge) ∨
      0 < count.toInt ∧ count.toInt ≤ 2 ^ 32 - 1 ∧
        ∃ bits, (bits.toNat : Int) = count.toInt ∧ shiftCount count = .ok bits := by
  by_cases hle : count.toInt ≤ 0
  · exact .inl ⟨hle, shiftCount_of_not_pos hle⟩
  · by_cases hlarge : 2 ^ 32 - 1 < count.toInt
    · exact .inr (.inl ⟨hlarge, shiftCount_of_large hlarge⟩)
    · obtain ⟨bits, hbits, hvalue⟩ := shiftCount_eq_ok hcount (by omega) (by omega)
      exact .inr (.inr ⟨by omega, by omega, bits, hvalue, hbits⟩)

/-! ## Exact shifts -/

/-- Shifts are exact, in place as well, for each count of 32 bits. A bignum count is refused if it
is not positive or has more than 32 bits, and the bignum is then left as it was. -/
theorem shift_exact (shift : Shift) (ha : Built a) (hcount : Built count) :
    (∀ bits, (shift.byBits a bits).toInt = shift.ofInt a.toInt bits.toNat ∧
        (shift = .logicalRight → (shift.byBits a bits).negative = false) ∧
        (shift.inPlace bits).on a = (.ok (), shift.byBits a bits)) ∧
      (shift.byCount a count = .error .invalidShift ↔ count.toInt ≤ 0) ∧
      (shift.byCount a count = .error .shiftTooLarge ↔ 2 ^ 32 - 1 < count.toInt) ∧
      (∀ cause, shift.byCount a count = .error cause →
        (shift.inPlaceByCount count).on a = (.error (.refused cause), a)) ∧
      (0 < count.toInt → count.toInt ≤ 2 ^ 32 - 1 →
        ∃ bits : UInt32, (bits.toNat : Int) = count.toInt ∧
          shift.byCount a count = .ok (shift.byBits a bits) ∧
          (shift.inPlaceByCount count).on a = (.ok (), shift.byBits a bits)) := by
  refine ⟨fun bits ↦ ⟨shift.toInt_byBits a bits, by rintro rfl; rfl,
    shift.on_inPlace ha.canonical bits⟩, ?_⟩
  rw [shift.byCount_eq]
  rcases shiftCount_cases hcount.canonical with ⟨hle, h⟩ | ⟨hlarge, h⟩ | ⟨hpos, hle, bits, hbits, h⟩
  · rw [h]
    refine ⟨iff_of_true rfl hle, iff_of_false nofun (by omega), ?_, fun hpos ↦ by omega⟩
    rintro _ ⟨⟩
    exact shift.on_inPlaceByCount_of_error a h
  · rw [h]
    refine ⟨iff_of_false nofun (by omega), iff_of_true rfl hlarge, ?_, fun _ hle ↦ by omega⟩
    rintro _ ⟨⟩
    exact shift.on_inPlaceByCount_of_error a h
  · rw [h]
    exact ⟨iff_of_false nofun (by omega), iff_of_false nofun (by omega), nofun,
      fun _ _ ↦ ⟨bits, hbits, rfl, shift.on_inPlaceByCount_of_ok ha.canonical h⟩⟩

/-- A negative number is shifted right past all its bits but one, and by a count of two limbs. -/
theorem shift_exact_floored :
    Built (ofLimbs [1, 0, 0x80000000] true) ∧ Built (ofUInt64 95) ∧ Built (ofUInt64 0x100000000) ∧
      (∃ bits : UInt32, (bits.toNat : Int) = 95 ∧
        (ofLimbs [1, 0, 0x80000000] true).shiftRight (ofUInt64 95) =
          .ok ((ofLimbs [1, 0, 0x80000000] true).shiftRightBits bits) ∧
        ((ofLimbs [1, 0, 0x80000000] true).shiftRightBits bits).toInt = -2) ∧
      (Shift.right.inPlaceByCount (ofUInt64 0x100000000)).on (ofLimbs [1, 0, 0x80000000] true) =
        (.error (.refused .shiftTooLarge), ofLimbs [1, 0, 0x80000000] true) := by
  have hshifted : Built (ofLimbs [1, 0, 0x80000000] true) := .ofLimbs _ _
  have hcount : Built (ofUInt64 95) := .ofUInt64 95
  have hlarge : Built (ofUInt64 0x100000000) := .ofUInt64 _
  obtain ⟨hexact, -, -, -, htaken⟩ := shift_exact .right hshifted hcount
  obtain ⟨-, -, hrefused, hkept, -⟩ := shift_exact .right hshifted hlarge
  obtain ⟨bits, hbits, hok, -⟩ := htaken (by decide) (by decide)
  have hvalue : (ofUInt64 95).toInt = 95 := by decide
  rw [hvalue] at hbits
  refine ⟨hshifted, hcount, hlarge, ⟨bits, hbits, hok, ?_⟩, hkept _ (hrefused.2 (by decide))⟩
  have hfloor := (hexact bits).1
  rw [Int.natCast_inj.1 hbits] at hfloor
  exact hfloor.trans (by decide)

end Bignum

end RegisterMachine
