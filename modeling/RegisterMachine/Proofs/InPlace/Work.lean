import RegisterMachine.Proofs.Outcome

/-!
# Work in place

Elsewhere an instruction or a host function is described by what it comes to: a result together with
what it leaves, or a reason to fail. Such a description cannot leave anything half done. Here the
same is done in place: work reads and changes a state as it goes, and what it has changed before it
fails stays changed. Work realizes a description when it comes to the result that the description
has, and changes nothing when the description fails.
-/

namespace RegisterMachine

/-- Work on a state in place. -/
def Work (σ ε α : Type) : Type :=
  ExceptT ε (StateM σ) α

namespace Work

variable {σ ε α β : Type}

instance : Monad (Work σ ε) :=
  inferInstanceAs (Monad (ExceptT ε (StateM σ)))

/-- The result of work on a state, and what it leaves of the state. -/
def on (work : Work σ ε α) (state : σ) : Except ε α × σ :=
  StateT.run (ExceptT.run work) state

/-- Looks at the state. -/
def look (view : σ → Except ε α) : Work σ ε α :=
  fun state ↦ (view state, state)

/-- Looks at a part of the state that is always there. -/
def get (view : σ → α) : Work σ ε α :=
  look fun state ↦ .ok (view state)

/-- Changes the state. -/
def change (update : σ → σ) : Work σ ε Unit :=
  fun state ↦ (.ok (), update state)

/-- Fails. -/
def fail (cause : ε) : Work σ ε α :=
  look fun _ ↦ .error cause

/-- Fails under a condition. -/
def refuse (c : Prop) [Decidable c] (cause : ε) : Work σ ε Unit :=
  if c then fail cause else pure ()

/-! ## What work comes to -/

@[simp] theorem on_pure (value : α) (state : σ) :
    (pure value : Work σ ε α).on state = (.ok value, state) := rfl

@[simp] theorem on_look (view : σ → Except ε α) (state : σ) :
    (look view).on state = (view state, state) := rfl

@[simp] theorem on_get (view : σ → α) (state : σ) :
    (get view : Work σ ε α).on state = (.ok (view state), state) := rfl

@[simp] theorem on_change (update : σ → σ) (state : σ) :
    (change update : Work σ ε Unit).on state = (.ok (), update state) := rfl

@[simp] theorem on_fail (cause : ε) (state : σ) :
    (fail cause : Work σ ε α).on state = (.error cause, state) := rfl

theorem on_bind (first : Work σ ε α) (next : α → Work σ ε β) (state : σ) :
    (first >>= next).on state =
      match first.on state with
      | (.ok value, later) => (next value).on later
      | (.error cause, later) => (.error cause, later) := by
  change (match first state with
    | (outcome, later) => ExceptT.bindCont next outcome later) = _
  unfold on StateT.run ExceptT.run
  rcases first state with ⟨_ | _, _⟩ <;> rfl

theorem on_bind_of_ok {first : Work σ ε α} {next : α → Work σ ε β} {state later : σ} {value : α}
    (h : first.on state = (.ok value, later)) :
    (first >>= next).on state = (next value).on later := by
  rw [on_bind, h]

theorem on_bind_of_error {first : Work σ ε α} {next : α → Work σ ε β} {state later : σ} {cause : ε}
    (h : first.on state = (.error cause, later)) :
    (first >>= next).on state = (.error cause, later) := by
  rw [on_bind, h]

/-! ## Descriptions -/

variable {γ δ : Type}

/-- What a description says of the result and of the state, where `image` tells what its own result
stands for. -/
def settle (image : δ → Except ε α × σ) (state : σ) : Except ε δ → Except ε α × σ
  | .ok result => image result
  | .error cause => (.error cause, state)

/-- Work does to a state what a description says, all of it or nothing. -/
def Realizes (image : δ → Except ε α × σ) (work : Work σ ε α) (state : σ)
    (description : Except ε δ) : Prop :=
  work.on state = settle image state description

namespace Realizes

variable {image : δ → Except ε α × σ} {work : Work σ ε α} {state : σ} {description : Except ε δ}

/-- A look at the state changes nothing, so the rest may still fail. -/
theorem look {view : σ → Except ε β} {next : β → Work σ ε α} {rest : β → Except ε δ}
    (h : ∀ value, (next value).Realizes image state (rest value)) :
    (Work.look view >>= next).Realizes image state (view state >>= rest) := by
  cases hview : view state with
  | ok value =>
    have hlook : (Work.look view).on state = (.ok value, state) := by rw [on_look, hview]
    exact (on_bind_of_ok hlook).trans (h value)
  | error cause =>
    have hlook : (Work.look view).on state = (.error cause, state) := by rw [on_look, hview]
    exact on_bind_of_error hlook

theorem get {view : σ → β} {next : β → Work σ ε α}
    (h : (next (view state)).Realizes image state description) :
    (Work.get view >>= next).Realizes image state description :=
  (on_bind_of_ok (on_get view state)).trans h

theorem refuse {c : Prop} [Decidable c] {cause : ε} {next : Unit → Work σ ε α}
    (h : (next ()).Realizes image state description) :
    (Work.refuse c cause >>= next).Realizes image state
      (if c then .error cause else description) := by
  unfold Work.refuse
  by_cases hc : c
  · rw [if_pos hc, if_pos hc]
    exact on_bind_of_error (on_fail cause state)
  · rw [if_neg hc, if_neg hc]
    exact (on_bind_of_ok (on_pure () state)).trans h

/-- Once work has changed the state, the rest has to come to what the whole description says. -/
theorem andThen {value : γ → β} {later : γ → σ} {first : Work σ ε β} {next : β → Work σ ε α}
    {part : Except ε γ} {rest : γ → Except ε δ}
    (head : first.Realizes (fun result ↦ (.ok (value result), later result)) state part)
    (tail : ∀ result,
      (next (value result)).on (later result) = settle image state (rest result)) :
    (first >>= next).Realizes image state (part >>= rest) := by
  cases part with
  | ok result => exact (on_bind_of_ok head).trans (tail result)
  | error cause => exact on_bind_of_error head

/-- Work whose value is not asked for. -/
theorem discard {value : γ → α} {later : γ → σ} {description : Except ε γ}
    (h : work.Realizes (fun made ↦ (.ok (value made), later made)) state description) :
    (do let _ ← work : Work σ ε Unit).Realizes (fun left ↦ (.ok (), left)) state
      (description.map later) := by
  cases description with
  | ok made => exact on_bind_of_ok h
  | error cause => exact on_bind_of_error h

section

variable {later : σ} {described : Except ε (α × σ)}
  (realizes : work.Realizes (fun made ↦ (.ok made.1, made.2)) state described)

include realizes

theorem on_eq_ok_iff {value : α} :
    work.on state = (.ok value, later) ↔ described = .ok (value, later) := by
  unfold Realizes at realizes
  rw [realizes]
  cases described <;> simp [settle, Prod.ext_iff]

theorem on_eq_error_iff {cause : ε} :
    work.on state = (.error cause, later) ↔ described = .error cause ∧ later = state := by
  unfold Realizes at realizes
  rw [realizes]
  cases described <;> simp [settle, eq_comm]

end

end Realizes

/-! ## Work on a part of the state -/

/-- Work on a part of the state, with its reasons to fail under another name. -/
def within {τ ζ : Type} (part : σ → τ) (restore : σ → τ → σ) (rename : ζ → ε) (work : Work τ ζ α) :
    Work σ ε α :=
  fun state ↦
    let (result, later) := work.on (part state)
    (result.mapError rename, restore state later)

theorem on_within {τ ζ : Type} (part : σ → τ) (restore : σ → τ → σ) (rename : ζ → ε)
    (work : Work τ ζ α) (state : σ) :
    (within part restore rename work).on state =
      ((work.on (part state)).1.mapError rename, restore state (work.on (part state)).2) := rfl

/-- What is done to the part is done to the whole, if a part that did not change restores it. -/
theorem Realizes.within {τ ζ : Type} {part : σ → τ} {restore : σ → τ → σ} {rename : ζ → ε}
    {work : Work τ ζ α} {state : σ} {description : Except ζ δ} {image : δ → Except ζ α × τ}
    (h : work.Realizes image (part state) description) (same : restore state (part state) = state) :
    (Work.within part restore rename work).Realizes
      (fun result ↦ ((image result).1.mapError rename, restore state (image result).2)) state
      (description.mapError rename) := by
  unfold Realizes at h ⊢
  rw [on_within, h]
  cases description with
  | ok result => rfl
  | error cause =>
    simp only [settle, same]
    rfl

end Work

end RegisterMachine
