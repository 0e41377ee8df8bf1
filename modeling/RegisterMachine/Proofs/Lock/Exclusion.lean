import Mathlib.Data.List.Nodup
import RegisterMachine.Proofs.Lock.Sharing

/-!
# Locks exclude each other

Whatever the order in which the machines that share a table of locks take their steps, a key has one
owner at a time. It is acquired only while it has no owner and goes back only by its owner, so for
each key acquisitions and releases alternate. What can happen in one step is said once, by `Serves`;
the invariant is that a key is held once, and not by a machine that waits for it or is gone.
-/

namespace RegisterMachine

/-! ## Turns -/

/-- A change of the owner of a key. -/
inductive Turn where
  | acquire (machine : MachineId)
  | release (machine : MachineId)
  deriving DecidableEq

/-- What a step means for a key. -/
def turn? (key : LockKey) : MachineId × LockAnswer → Option Turn
  | (machine, .acquired found) => if key = found then some (.acquire machine) else none
  | (machine, .released found) => if key = found then some (.release machine) else none
  | (machine, .releasedAll keys) => if key ∈ keys then some (.release machine) else none
  | (_, .occupied _) | (_, .waiting _) | (_, .failed _) => none

/-- The changes of the owner of a key, in order. -/
def history (key : LockKey) (trace : List (MachineId × LockAnswer)) : List Turn :=
  trace.filterMap (turn? key)

/-- Acquisitions and releases alternate, each release being by the machine that acquired the key
before, up to the machine that owns it now. -/
def Alternates (turns : List Turn) (owner : Option MachineId) : Prop :=
  ∃ owners : List MachineId, turns =
    owners.flatMap (fun owner ↦ [.acquire owner, .release owner]) ++ owner.toList.map .acquire

theorem turn?_eq_acquire_iff {key : LockKey} {machine other : MachineId} {answer : LockAnswer} :
    turn? key (machine, answer) = some (.acquire other) ↔
      machine = other ∧ answer = .acquired key := by
  cases answer <;> simp [turn?, eq_comm, and_comm]

theorem turn?_eq_release_iff {key : LockKey} {machine other : MachineId} {answer : LockAnswer} :
    turn? key (machine, answer) = some (.release other) ↔ machine = other ∧
      (answer = .released key ∨ ∃ keys, answer = .releasedAll keys ∧ key ∈ keys) := by
  cases answer <;> simp [turn?, eq_comm, and_comm]

/-! ## Owners -/

namespace LockTable

variable {table : LockTable} {machine owner : MachineId} {key : LockKey}

/-- Each key is held once. -/
def Distinct (table : LockTable) : Prop :=
  (table.held.map (·.1)).Nodup

theorem owner?_cons (key found : LockKey) (machine : MachineId)
    (held : List (LockKey × MachineId)) :
    owner? ⟨(found, machine) :: held⟩ key =
      if key = found then some machine else owner? ⟨held⟩ key := by
  unfold owner?
  rw [List.lookup_cons]
  by_cases h : key = found
  · rw [if_pos h, beq_iff_eq.2 h]
  · rw [if_neg h, beq_eq_false_iff_ne.2 h]

theorem owner?_eq_none_iff : table.owner? key = none ↔ key ∉ table.held.map (·.1) := by
  unfold owner?
  rw [List.lookup_eq_none_iff]
  constructor
  · intro h hmem
    obtain ⟨entry, hentry, rfl⟩ := List.mem_map.1 hmem
    simpa using h entry hentry
  · intro h entry hentry
    have hne : key ≠ entry.1 := fun heq ↦ h (heq ▸ List.mem_map_of_mem hentry)
    simpa using hne

namespace Distinct

variable (distinct : table.Distinct)

include distinct

/-- A key that is held once is found with its owner. -/
theorem owner?_eq_some_iff : table.owner? key = some owner ↔ (key, owner) ∈ table.held := by
  obtain ⟨held⟩ := table
  induction held with
  | nil => simp [owner?]
  | cons entry rest ih =>
    obtain ⟨found, holder⟩ := entry
    obtain ⟨hfound, hrest⟩ := List.nodup_cons.1 distinct
    rw [owner?_cons, List.mem_cons, Prod.mk.injEq]
    split
    · next h =>
      subst h
      have hlater : (key, owner) ∉ rest := fun hmem ↦ hfound (List.mem_map.2 ⟨_, hmem, rfl⟩)
      simp [hlater, eq_comm]
    · next h => simp [h, ih hrest]

theorem filter (kept : LockKey × MachineId → Bool) : Distinct ⟨table.held.filter kept⟩ :=
  (List.filter_sublist.map _).nodup distinct

/-- A key keeps its owner if its entry is kept. -/
theorem owner?_filter (kept : LockKey × MachineId → Bool) (key : LockKey) :
    owner? ⟨table.held.filter kept⟩ key =
      (table.owner? key).filter fun owner ↦ kept (key, owner) := by
  ext owner
  rw [(distinct.filter kept).owner?_eq_some_iff, List.mem_filter, Option.filter_eq_some_iff,
    distinct.owner?_eq_some_iff]

/-- A machine that gives back all keys owns none, and takes none from the others. -/
theorem owner?_releaseAll_eq_some_iff (machine : MachineId) :
    (table.releaseAll machine).2.owner? key = some owner ↔
      table.owner? key = some owner ∧ owner ≠ machine := by
  change owner? ⟨table.held.filter (·.2 != machine)⟩ key = some owner ↔ _
  rw [distinct.owner?_filter, Option.filter_eq_some_iff, bne_iff_ne]

theorem cons (hfree : table.owner? key = none) : Distinct ⟨(key, machine) :: table.held⟩ :=
  List.nodup_cons.2 ⟨owner?_eq_none_iff.1 hfree, distinct⟩

theorem mem_keysOf_iff : key ∈ table.keysOf machine ↔ table.owner? key = some machine := by
  rw [distinct.owner?_eq_some_iff, keysOf]
  simp

end Distinct

/-! ## What a step can do -/

/-- What a step of a machine can come to, with what the answer says about the table before. -/
inductive Serves (table : LockTable) (machine : MachineId) : Served → Prop
  | acquired {key : LockKey} : table.owner? key = none →
      Serves table machine ⟨.acquired key, ⟨(key, machine) :: table.held⟩, .idle⟩
  | occupied {key : LockKey} {owner : MachineId} : table.owner? key = some owner →
      owner ≠ machine → Serves table machine ⟨.occupied key, table, .idle⟩
  | waiting {key : LockKey} {owner : MachineId} {limited : Bool} : table.owner? key = some owner →
      owner ≠ machine → Serves table machine ⟨.waiting key, table, .waiting key limited⟩
  | released {key : LockKey} : table.owner? key = some machine →
      Serves table machine ⟨.released key, ⟨table.held.filter (·.1 != key)⟩, .idle⟩
  | releasedAll {activity : Activity} : (∀ key limited, activity ≠ .waiting key limited) →
      Serves table machine
        ⟨.releasedAll (table.keysOf machine), (table.releaseAll machine).2, activity⟩
  | alreadyLocked {key : LockKey} : table.owner? key = some machine →
      Serves table machine ⟨.failed (.alreadyLocked key), table, .idle⟩
  | notOwner {key : LockKey} : table.owner? key ≠ some machine →
      Serves table machine ⟨.failed (.notOwner key), table, .idle⟩
  | timeout {key : LockKey} {owner : MachineId} : table.owner? key = some owner →
      owner ≠ machine → Serves table machine ⟨.failed (.timeout key), table, .idle⟩

/-- A machine whose time is over does not own the key for which it waits. -/
theorem serves_ask (limited : Bool) {expired : Bool}
    (hother : expired = true → table.owner? key ≠ some machine) :
    table.Serves machine (table.ask machine key limited expired) := by
  unfold ask look tryLock isLocked
  cases howner : table.owner? key with
  | none =>
    rw [Option.isSome_none, Bool.and_false]
    exact .acquired howner
  | some owner =>
    rw [Option.isSome_some, Bool.and_true]
    by_cases hown : owner = machine
    · subst hown
      have hnow : expired = false := by
        rw [← Bool.not_eq_true]
        exact fun h ↦ hother h howner
      simpa [hnow] using Serves.alreadyLocked howner
    · cases expired with
      | false => simpa [hown] using Serves.waiting howner hown
      | true => exact .timeout howner hown

theorem serves_serve (table : LockTable) (machine : MachineId) (request : LockCall) :
    table.Serves machine (table.serve machine request) := by
  cases request with
  | lock key limited => exact serves_ask limited nofun
  | tryLock key =>
    simp only [serve, tryLock]
    cases howner : table.owner? key with
    | none => exact .acquired howner
    | some owner =>
      by_cases hown : owner = machine
      · subst hown
        simpa using Serves.alreadyLocked howner
      · simpa [hown] using Serves.occupied howner hown
  | unlock key =>
    simp only [serve, unlock]
    by_cases hown : table.owner? key = some machine
    · rw [if_pos hown]
      exact .released hown
    · rw [if_neg hown]
      exact .notOwner hown
  | releaseAll => exact .releasedAll nofun
  | drop => exact .releasedAll nofun

/-- What a turn does to the owner of a key. -/
inductive Handover (machine : MachineId) :
    Option Turn → Option MachineId → Option MachineId → Prop
  | kept {owner : Option MachineId} : Handover machine none owner owner
  | acquire : Handover machine (some (.acquire machine)) none (some machine)
  | release : Handover machine (some (.release machine)) (some machine) none

variable {served : Served}

/-- A step changes the owner of a key exactly if it means a turn for the key. -/
theorem Serves.handover (serves : table.Serves machine served) (distinct : table.Distinct)
    (key : LockKey) :
    Handover machine (turn? key (machine, served.answer)) (table.owner? key)
      (served.table.owner? key) := by
  cases serves with
  | @acquired found hfree =>
    simp only [turn?]
    rw [owner?_cons]
    split
    · next h =>
      rw [h, hfree]
      exact .acquire
    · exact .kept
  | @released found hown =>
    simp only [turn?]
    rw [distinct.owner?_filter]
    split
    · next h =>
      rw [h, hown]
      simpa using Handover.release
    · next h =>
      cases table.owner? key with
      | none => exact .kept
      | some owner => simpa [Option.filter_some, h] using Handover.kept
  | releasedAll _ =>
    have hafter : (table.releaseAll machine).2.owner? key =
        (table.owner? key).filter (· != machine) := distinct.owner?_filter _ key
    simp only [turn?, distinct.mem_keysOf_iff, hafter]
    cases table.owner? key with
    | none => simpa using Handover.kept
    | some owner =>
      by_cases h : owner = machine
      · subst h
        simpa [Option.filter_some] using Handover.release
      · simpa [Option.filter_some, h] using Handover.kept
  | occupied | waiting | alreadyLocked | notOwner | timeout => exact .kept

theorem Serves.distinct (serves : table.Serves machine served) (distinct : table.Distinct) :
    served.table.Distinct := by
  cases serves with
  | acquired hfree => exact distinct.cons hfree
  | released | releasedAll => exact distinct.filter _
  | occupied | waiting | alreadyLocked | notOwner | timeout => exact distinct

namespace Handover

variable {turn : Option Turn} {before after : Option MachineId}

theorem of_acquire (handover : Handover machine (some (.acquire machine)) before after) :
    before = none ∧ after = some machine := by
  cases handover
  exact ⟨rfl, rfl⟩

theorem of_release (handover : Handover machine (some (.release machine)) before after) :
    before = some machine ∧ after = none := by
  cases handover
  exact ⟨rfl, rfl⟩

/-- Only the machine that takes a step can come to own a key by it. -/
theorem gained (handover : Handover machine turn before after) (h : after = some owner) :
    before = some owner ∨ turn = some (.acquire machine) ∧ owner = machine := by
  cases handover with
  | kept => exact .inl h
  | acquire => exact .inr ⟨rfl, (Option.some.inj h).symm⟩
  | release => cases h

theorem lost (handover : Handover machine turn before after) (h : before = some owner) :
    after = some owner ∨ turn = some (.release machine) ∧ owner = machine ∧ after = none := by
  cases handover with
  | kept => exact .inl h
  | acquire => cases h
  | release => exact .inr ⟨rfl, (Option.some.inj h).symm, rfl⟩

end Handover

end LockTable

/-! ## Interleavings -/

namespace Sharing

variable {sharing next : Sharing} {machine : MachineId} {answer : LockAnswer}

theorem activity_after_self (served : Served) :
    (sharing.after machine served).activity machine = served.activity :=
  Function.update_self machine _ _

theorem activity_after_of_ne {other : MachineId} (hother : other ≠ machine) (served : Served) :
    (sharing.after machine served).activity other = sharing.activity other :=
  Function.update_of_ne hother _ _

/-- The invariant of machines that share a table: a key is held once, and not by a machine that
waits for it or is gone. -/
structure Sound (sharing : Sharing) : Prop where
  distinct : sharing.table.Distinct
  waiting_ne : ∀ machine key limited, sharing.activity machine = .waiting key limited →
    sharing.table.owner? key ≠ some machine
  dropped_ne : ∀ machine, sharing.activity machine = .dropped →
    ∀ key, sharing.table.owner? key ≠ some machine

theorem sound_empty : Sound {} where
  distinct := List.nodup_nil
  waiting_ne := nofun
  dropped_ne := nofun

theorem Sound.serves (sound : sharing.Sound) (step : sharing.Step machine answer next) :
    ∃ served, sharing.table.Serves machine served ∧ answer = served.answer ∧
      next = sharing.after machine served := by
  cases step with
  | call request _ => exact ⟨_, sharing.table.serves_serve machine request, rfl, rfl⟩
  | wake expired hwaiting _ =>
    exact ⟨_, LockTable.serves_ask _ fun _ ↦ sound.waiting_ne machine _ _ hwaiting, rfl, rfl⟩

theorem Sound.step (sound : sharing.Sound) (step : sharing.Step machine answer next) :
    next.Sound := by
  obtain ⟨served, hserves, -, rfl⟩ := sound.serves step
  have hothers {other : MachineId} (hother : other ≠ machine) (key : LockKey)
      (h : sharing.table.owner? key ≠ some other) : served.table.owner? key ≠ some other :=
    fun hafter ↦ ((hserves.handover sound.distinct key).gained hafter).elim h (hother ·.2)
  refine ⟨hserves.distinct sound.distinct, fun other key limited hwaiting ↦ ?_,
    fun other hdropped key ↦ ?_⟩
  · by_cases hother : other = machine
    · subst hother
      rw [activity_after_self] at hwaiting
      cases hserves with
      | waiting howner hne =>
        cases hwaiting
        exact fun h ↦ hne (Option.some.inj (howner.symm.trans h))
      | releasedAll hactivity => exact absurd hwaiting (hactivity key limited)
      | acquired | occupied | released | alreadyLocked | notOwner | timeout => cases hwaiting
    · rw [activity_after_of_ne hother] at hwaiting
      exact hothers hother key (sound.waiting_ne other key limited hwaiting)
  · by_cases hother : other = machine
    · subst hother
      rw [activity_after_self] at hdropped
      cases hserves with
      | releasedAll =>
        exact fun h ↦ ((sound.distinct.owner?_releaseAll_eq_some_iff _).1 h).2 rfl
      | acquired | occupied | waiting | released | alreadyLocked | notOwner | timeout =>
        cases hdropped
    · rw [activity_after_of_ne hother] at hdropped
      exact hothers hother key (sound.dropped_ne other hdropped key)

/-- What a step of a machine may do to the owners of keys, and what its answer says about them. -/
structure Exclusive (sharing : Sharing) (machine : MachineId) (answer : LockAnswer)
    (next : Sharing) : Prop where
  /-- A key is acquired while it has no owner. -/
  acquires : ∀ key, answer = .acquired key →
    sharing.table.owner? key = none ∧ next.table.owner? key = some machine
  /-- A key comes to an owner by being acquired. -/
  gains : ∀ key owner, next.table.owner? key = some owner →
    sharing.table.owner? key = some owner ∨ owner = machine ∧ answer = .acquired key
  /-- A key goes from its owner only by the owner giving it back. -/
  loses : ∀ key owner, sharing.table.owner? key = some owner →
    next.table.owner? key = some owner ∨ next.table.owner? key = none ∧ owner = machine ∧
      (answer = .released key ∨ ∃ keys, answer = .releasedAll keys ∧ key ∈ keys)
  /-- A key is given back by its owner. -/
  releases : ∀ key, answer = .released key →
    sharing.table.owner? key = some machine ∧ next.table.owner? key = none
  /-- A call that fails, finds the key occupied or goes on waiting changes nothing. -/
  keeps : ∀ key cause,
    answer = .failed cause ∨ answer = .occupied key ∨ answer = .waiting key →
    next.table = sharing.table
  alreadyLocked : ∀ key, answer = .failed (.alreadyLocked key) →
    sharing.table.owner? key = some machine
  notOwner : ∀ key, answer = .failed (.notOwner key) → sharing.table.owner? key ≠ some machine
  /-- Another machine owns the key that cannot be had. -/
  contended : ∀ key,
    answer = .failed (.timeout key) ∨ answer = .occupied key ∨ answer = .waiting key →
    ∃ owner, sharing.table.owner? key = some owner ∧ owner ≠ machine
  /-- A machine that gives everything back, or is gone, owns nothing, and the others own what they
  owned. -/
  releasesAll : ∀ keys, answer = .releasedAll keys → ∀ key,
    (key ∈ keys ↔ sharing.table.owner? key = some machine) ∧
      next.table.owner? key ≠ some machine ∧
      ∀ other, other ≠ machine →
        (next.table.owner? key = some other ↔ sharing.table.owner? key = some other)

theorem Sound.exclusive (sound : sharing.Sound) (step : sharing.Step machine answer next) :
    sharing.Exclusive machine answer next := by
  obtain ⟨served, hserves, rfl, rfl⟩ := sound.serves step
  have hhandover := hserves.handover sound.distinct
  constructor
  case acquires =>
    intro key hanswer
    have hturn := hhandover key
    rw [turn?_eq_acquire_iff.2 ⟨rfl, hanswer⟩] at hturn
    exact hturn.of_acquire
  case gains =>
    intro key owner howner
    rcases (hhandover key).gained howner with hbefore | ⟨hturn, hmachine⟩
    · exact .inl hbefore
    · exact .inr ⟨hmachine, (turn?_eq_acquire_iff.1 hturn).2⟩
  case loses =>
    intro key owner howner
    rcases (hhandover key).lost howner with hafter | ⟨hturn, hmachine, hnone⟩
    · exact .inl hafter
    · exact .inr ⟨hnone, hmachine, (turn?_eq_release_iff.1 hturn).2⟩
  case releases =>
    intro key hanswer
    have hturn := hhandover key
    rw [turn?_eq_release_iff.2 ⟨rfl, .inl hanswer⟩] at hturn
    exact hturn.of_release
  case keeps =>
    intro key cause hanswer
    cases hserves with
    | occupied | waiting | alreadyLocked | notOwner | timeout => rfl
    | acquired | released | releasedAll => simp at hanswer
  case alreadyLocked =>
    intro key hanswer
    cases hserves with
    | alreadyLocked hown =>
      cases hanswer
      exact hown
    | _ => cases hanswer
  case notOwner =>
    intro key hanswer
    cases hserves with
    | notOwner hother =>
      cases hanswer
      exact hother
    | _ => cases hanswer
  case contended =>
    intro key hanswer
    cases hserves with
    | occupied howner hother | waiting howner hother | timeout howner hother =>
      simp only [LockAnswer.failed.injEq, LockError.timeout.injEq, LockAnswer.occupied.injEq,
        LockAnswer.waiting.injEq, reduceCtorEq, or_false, false_or] at hanswer
      exact hanswer ▸ ⟨_, howner, hother⟩
    | acquired | released | releasedAll | alreadyLocked | notOwner => simp at hanswer
  case releasesAll =>
    intro keys hanswer key
    have hafter {owner : MachineId} :
        (sharing.table.releaseAll machine).2.owner? key = some owner ↔
          sharing.table.owner? key = some owner ∧ owner ≠ machine :=
      sound.distinct.owner?_releaseAll_eq_some_iff machine
    cases hserves with
    | releasedAll =>
      cases hanswer
      refine ⟨sound.distinct.mem_keysOf_iff, fun h ↦ (hafter.1 h).2 rfl, fun other hother ↦ ?_⟩
      exact hafter.trans (and_iff_left hother)
    | _ => cases hanswer

end Sharing

section Interleavings

variable {trace : List (MachineId × LockAnswer)} {sharing : Sharing}

theorem Interleaving.sound (interleaving : Interleaving trace sharing) : sharing.Sound := by
  induction interleaving with
  | nil => exact Sharing.sound_empty
  | step _ step ih => exact ih.step step

/-- A turn continues what alternates. -/
theorem Alternates.handover {turns : List Turn} {machine : MachineId} {turn : Option Turn}
    {before after : Option MachineId} (alternates : Alternates turns before)
    (handover : LockTable.Handover machine turn before after) :
    Alternates (turns ++ turn.toList) after := by
  obtain ⟨owners, rfl⟩ := alternates
  cases handover with
  | kept => exact ⟨owners, List.append_nil _⟩
  | acquire => exact ⟨owners, by simp⟩
  | release => exact ⟨owners ++ [machine], by simp⟩

theorem Interleaving.alternates (interleaving : Interleaving trace sharing) (key : LockKey) :
    Alternates (history key trace) (sharing.table.owner? key) := by
  induction interleaving with
  | nil => exact ⟨[], rfl⟩
  | @step trace sharing next machine answer before step ih =>
    obtain ⟨served, hserves, rfl, rfl⟩ := before.sound.serves step
    have hturns := ih.handover (hserves.handover before.sound.distinct key)
    have hhistory : history key (trace ++ [(machine, served.answer)]) =
        history key trace ++ (turn? key (machine, served.answer)).toList := by
      rw [history, List.filterMap_append, List.filterMap_cons, List.filterMap_nil]
      cases turn? key (machine, served.answer) <;> rfl
    rw [hhistory]
    exact hturns

/-- A machine that looks at a free key acquires it. -/
theorem LockTable.answer_ask_of_free {table : LockTable} {key : LockKey}
    (hfree : table.owner? key = none) (machine : MachineId) (limited expired : Bool) :
    (table.ask machine key limited expired).answer = .acquired key := by
  simp [ask, look, tryLock, isLocked, hfree]

/-- Locks exclude each other, whatever the order of the steps of the machines that share them. For
each key acquisitions and releases have alternated, each release being by the machine that acquired
the key before. No step that a machine can take now breaks this: a key comes to an owner only while
it has none and goes only by its owner, a call that fails changes nothing and says the truth about
the owner, and who gives everything back takes nothing from others. A machine that is gone owns
nothing, and a key that has no owner can be had by all who ask or wait for it. -/
theorem locks_exclude (interleaving : Interleaving trace sharing) :
    (∀ key, Alternates (history key trace) (sharing.table.owner? key)) ∧
      (∀ machine answer next, sharing.Step machine answer next →
        sharing.Exclusive machine answer next) ∧
      (∀ machine, sharing.activity machine = .dropped →
        ∀ key, sharing.table.owner? key ≠ some machine) ∧
      ∀ machine key, sharing.table.owner? key = none →
        sharing.activity machine = .idle ∨
          (∃ limited, sharing.activity machine = .waiting key limited) →
        ∃ next, sharing.Step machine (.acquired key) next := by
  have hsound := interleaving.sound
  refine ⟨interleaving.alternates, fun machine answer next ↦ hsound.exclusive,
    hsound.dropped_ne, fun machine key hfree hready ↦ ?_⟩
  have hanswer := LockTable.answer_ask_of_free hfree machine
  rcases hready with hidle | ⟨limited, hwaiting⟩
  · have hstep := Sharing.Step.call (.lock key false) hidle
    exact ⟨_, hanswer false false ▸ hstep⟩
  · have hstep := Sharing.Step.wake false hwaiting nofun
    exact ⟨_, hanswer limited false ▸ hstep⟩

end Interleavings

/-- Two machines contend for a key: the second wakes for no reason, and has the key when its time is
over just after the first has given it back. Then the first waits in vain, and the second goes. -/
theorem locks_exclude_contended :
    ∃ sharing, Interleaving [(1, .acquired (.number 7)), (2, .waiting (.number 7)),
        (2, .waiting (.number 7)), (1, .released (.number 7)), (2, .acquired (.number 7)),
        (1, .waiting (.number 7)), (1, .failed (.timeout (.number 7))),
        (2, .releasedAll [.number 7])] sharing ∧
      Alternates [.acquire 1, .release 1, .acquire 2, .release 2]
        (sharing.table.owner? (.number 7)) := by
  have start : Interleaving [] {} := .nil
  have taken := start.step (@Sharing.Step.call _ 1 (.lock (.number 7) true) rfl)
  have waits := taken.step (@Sharing.Step.call _ 2 (.lock (.number 7) true) rfl)
  have wakes := waits.step (@Sharing.Step.wake _ 2 (.number 7) true false rfl nofun)
  have freed := wakes.step (@Sharing.Step.call _ 1 (.unlock (.number 7)) rfl)
  have late := freed.step (@Sharing.Step.wake _ 2 (.number 7) true true rfl fun _ ↦ rfl)
  have again := late.step (@Sharing.Step.call _ 1 (.lock (.number 7) true) rfl)
  have vain := again.step (@Sharing.Step.wake _ 1 (.number 7) true true rfl fun _ ↦ rfl)
  have gone := vain.step (@Sharing.Step.call _ 2 .drop rfl)
  exact ⟨_, gone, (locks_exclude gone).1 (.number 7)⟩

end RegisterMachine
