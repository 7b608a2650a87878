import Mathlib

/-!
# Stateful — calls that change a state and may fail

A call either returns a value or an error, and leaves a state behind in both cases.  Total
correctness of a call is `Succeeds`; a call that is refused before it changed anything `Rejects`;
what a call leaves in either case is what it `Ensures`.  All three are proved along the steps of the
call, so that proofs never unfold the monad.
-/

namespace Superi
namespace Stateful

variable {ε σ τ α β : Type}

/-! ## Specifications -/

/-- From `start` the call returns a value and leaves a state that satisfy `post`. -/
def Succeeds (call : EStateM ε σ α) (start : σ) (post : α → σ → Prop) : Prop :=
  ∃ value last, call start = .ok value last ∧ post value last

/-- From `start` the call fails and leaves the state as it was. -/
def Rejects (call : EStateM ε σ α) (start : σ) : Prop :=
  ∃ error, call start = .error error start

/-- The call leaves `post` when it returns a value and `fault` when it fails. -/
def Ensures (call : EStateM ε σ α) (start : σ) (post : α → σ → Prop) (fault : σ → Prop) : Prop :=
  match call start with
  | .ok value last => post value last
  | .error _ last => fault last

/-! ## Primitive steps -/

/-- Stop with `error` when the condition holds. -/
def refuseIf (condition : Prop) [Decidable condition] (error : ε) : EStateM ε σ PUnit :=
  if condition then throw error else pure ()

/-- A call whose errors are reported as errors of another kind. -/
def raising {ε' : Type} (f : ε → ε') (call : EStateM ε σ α) : EStateM ε' σ α := fun state =>
  match call state with
  | .ok value last => .ok value last
  | .error error last => .error (f error) last

/-- Make a call on one part of a larger state. -/
def onPart (part : σ → τ) (replace : σ → τ → σ) (call : EStateM ε τ α) : EStateM ε σ α := fun whole =>
  match call (part whole) with
  | .ok value last => .ok value (replace whole last)
  | .error error last => .error error (replace whole last)

/-! ## One step -/

theorem bind_of_ok {call : EStateM ε σ α} {next : α → EStateM ε σ β} {start last : σ} {value : α}
    (h : call start = .ok value last) : (call >>= next) start = next value last := by
  simp only [Bind.bind, EStateM.bind, h]

theorem bind_of_error {call : EStateM ε σ α} {next : α → EStateM ε σ β} {start last : σ} {error : ε}
    (h : call start = .error error last) : (call >>= next) start = .error error last := by
  simp only [Bind.bind, EStateM.bind, h]

/-! ## Success along the steps -/

namespace Succeeds

variable {call : EStateM ε σ α} {start : σ} {post : α → σ → Prop}

theorem mono {post' : α → σ → Prop} (h : Succeeds call start post)
    (hpost : ∀ value last, post value last → post' value last) : Succeeds call start post' := by
  obtain ⟨value, last, hcall, hvalue⟩ := h
  exact ⟨value, last, hcall, hpost value last hvalue⟩

theorem ret {value : α} (h : post value start) :
    Succeeds (pure value : EStateM ε σ α) start post :=
  ⟨value, start, rfl, h⟩

theorem bind {next : α → EStateM ε σ β} {mid : α → σ → Prop} {post : β → σ → Prop}
    (h : Succeeds call start mid)
    (hnext : ∀ value last, mid value last → Succeeds (next value) last post) :
    Succeeds (call >>= next) start post := by
  obtain ⟨value, last, hcall, hmid⟩ := h
  obtain ⟨result, final, hresult, hpost⟩ := hnext value last hmid
  refine ⟨result, final, ?_, hpost⟩
  simp only [Bind.bind, EStateM.bind, hcall]
  exact hresult

/-- A step, with what is to be known after it. -/
theorem through (mid : α → σ → Prop) {next : α → EStateM ε σ β} {post : β → σ → Prop}
    (h : Succeeds call start mid)
    (hnext : ∀ value last, mid value last → Succeeds (next value) last post) :
    Succeeds (call >>= next) start post :=
  h.bind hnext

/-- A step that reads the state. -/
theorem get {next : σ → EStateM ε σ β} {post : β → σ → Prop} (h : Succeeds (next start) start post) :
    Succeeds (MonadState.get >>= next) start post :=
  through (fun value last => value = start ∧ last = start) ⟨start, start, rfl, rfl, rfl⟩
    (by rintro _ _ ⟨rfl, rfl⟩; exact h)

/-- A step that replaces the state. -/
theorem put {state : σ} {next : PUnit → EStateM ε σ β} {post : β → σ → Prop}
    (h : Succeeds (next ⟨⟩) state post) : Succeeds (MonadState.set state >>= next) start post :=
  through (fun _ last => last = state) ⟨⟨⟩, state, rfl, rfl⟩ (by rintro _ _ rfl; exact h)

/-- A step that changes the state. -/
theorem change {f : σ → σ} {next : PUnit → EStateM ε σ β} {post : β → σ → Prop}
    (h : Succeeds (next ⟨⟩) (f start) post) : Succeeds (modify f >>= next) start post :=
  through (fun _ last => last = f start) ⟨⟨⟩, f start, rfl, rfl⟩ (by rintro _ _ rfl; exact h)

theorem change_last {f : σ → σ} {post : PUnit → σ → Prop} (h : post ⟨⟩ (f start)) :
    Succeeds (modify f : EStateM ε σ PUnit) start post :=
  ⟨⟨⟩, f start, rfl, h⟩

/-- A check that passes. -/
theorem passes {condition : Prop} [Decidable condition] {error : ε}
    {next : PUnit → EStateM ε σ β} {post : β → σ → Prop} (hcondition : ¬ condition)
    (h : Succeeds (next ⟨⟩) start post) : Succeeds (refuseIf condition error >>= next) start post :=
  through (fun _ last => last = start)
    ⟨⟨⟩, start, by rw [refuseIf, if_neg hcondition]; rfl, rfl⟩ (by rintro _ _ rfl; exact h)

theorem passes_last {condition : Prop} [Decidable condition] {error : ε}
    {post : PUnit → σ → Prop} (hcondition : ¬ condition) (h : post ⟨⟩ start) :
    Succeeds (refuseIf condition error : EStateM ε σ PUnit) start post :=
  ⟨⟨⟩, start, by rw [refuseIf, if_neg hcondition]; rfl, h⟩

theorem onPart {part : σ → τ} {replace : σ → τ → σ} {call : EStateM ε τ α} {post : α → τ → Prop}
    (h : Succeeds call (part start) post) :
    Succeeds (Stateful.onPart part replace call) start fun value last =>
      ∃ inner, post value inner ∧ last = replace start inner := by
  obtain ⟨value, inner, hcall, hpost⟩ := h
  refine ⟨value, replace start inner, ?_, inner, hpost, rfl⟩
  simp only [Stateful.onPart, hcall]

theorem ofExcept {result : Except ε α} {value : α} {post : α → σ → Prop}
    (hresult : result = .ok value) (h : post value start) :
    Succeeds (MonadExcept.ofExcept result : EStateM ε σ α) start post :=
  ⟨value, start, by rw [hresult]; rfl, h⟩

theorem raising {ε' : Type} {f : ε → ε'} (h : Succeeds call start post) :
    Succeeds (Stateful.raising f call) start post := by
  obtain ⟨value, last, hcall, hpost⟩ := h
  exact ⟨value, last, by simp only [Stateful.raising, hcall], hpost⟩

end Succeeds

/-! ## Refusal along the steps -/

namespace Rejects

variable {call : EStateM ε σ α} {start : σ} {next : α → EStateM ε σ β}

theorem bind (h : Rejects call start) : Rejects (call >>= next) start := by
  obtain ⟨error, hcall⟩ := h
  refine ⟨error, ?_⟩
  simp only [Bind.bind, EStateM.bind, hcall]

theorem raised (error : ε) : Rejects (throw error : EStateM ε σ α) start := ⟨error, rfl⟩

theorem get {next : σ → EStateM ε σ β} (h : Rejects (next start) start) :
    Rejects (MonadState.get >>= next) start := h

theorem fails_last {condition : Prop} [Decidable condition] {error : ε} (hcondition : condition) :
    Rejects (refuseIf condition error : EStateM ε σ PUnit) start :=
  ⟨error, by rw [refuseIf, if_pos hcondition]; rfl⟩

/-- A check that fails. -/
theorem fails {condition : Prop} [Decidable condition] {error : ε}
    {next : PUnit → EStateM ε σ β} (hcondition : condition) :
    Rejects (refuseIf condition error >>= next) start :=
  (fails_last hcondition).bind

/-- A check that passes. -/
theorem passes {condition : Prop} [Decidable condition] {error : ε}
    {next : PUnit → EStateM ε σ β} (hcondition : ¬ condition) (h : Rejects (next ⟨⟩) start) :
    Rejects (refuseIf condition error >>= next) start := by
  obtain ⟨raised, hnext⟩ := h
  refine ⟨raised, ?_⟩
  simp only [Bind.bind, EStateM.bind, refuseIf, if_neg hcondition]
  exact hnext

/-- A call on a part that is refused leaves the whole alone. -/
theorem onPart {part : σ → τ} {replace : σ → τ → σ} {call : EStateM ε τ α}
    (h : Rejects call (part start)) (hsame : replace start (part start) = start := by rfl) :
    Rejects (Stateful.onPart part replace call) start := by
  obtain ⟨error, hcall⟩ := h
  refine ⟨error, ?_⟩
  simp only [Stateful.onPart, hcall, hsame]

end Rejects

/-! ## Either outcome along the steps -/

namespace Ensures

variable {call : EStateM ε σ α} {start : σ} {post : α → σ → Prop} {fault : σ → Prop}

theorem mono {post' : α → σ → Prop} {fault' : σ → Prop} (h : Ensures call start post fault)
    (hpost : ∀ value last, post value last → post' value last)
    (hfault : ∀ last, fault last → fault' last) : Ensures call start post' fault' := by
  unfold Ensures at h ⊢
  split at h
  · exact hpost _ _ h
  · exact hfault _ h

/-- A call that changes nothing, whatever is to hold when it fails. -/
theorem same (h : Ensures call start (fun value last => post value last) fun last => last = start)
    (hfault : fault start) : Ensures call start post fault := by
  apply h.mono fun _ _ hpost => hpost
  rintro _ rfl
  exact hfault

theorem and {post' : α → σ → Prop} {fault' : σ → Prop} (h : Ensures call start post fault)
    (h' : Ensures call start post' fault') :
    Ensures call start (fun value last => post value last ∧ post' value last)
      fun last => fault last ∧ fault' last := by
  unfold Ensures at h h' ⊢
  split at h <;> simp_all

/-- Nothing is asked of the call. -/
theorem anyway (call : EStateM ε σ α) (start : σ) :
    Ensures call start (fun _ _ => True) fun _ => True := by
  unfold Ensures
  split <;> trivial

theorem of_succeeds (h : Succeeds call start post) : Ensures call start post fault := by
  obtain ⟨value, last, hcall, hpost⟩ := h
  simpa only [Ensures, hcall] using hpost

theorem of_rejects (h : Rejects call start) (hfault : fault start) :
    Ensures call start post fault := by
  obtain ⟨error, hcall⟩ := h
  simpa only [Ensures, hcall] using hfault

theorem ret {value : α} (h : post value start) :
    Ensures (pure value : EStateM ε σ α) start post fault := h

theorem raised {error : ε} (h : fault start) :
    Ensures (throw error : EStateM ε σ α) start post fault := h

theorem bind {next : α → EStateM ε σ β} {mid : α → σ → Prop} {post : β → σ → Prop}
    (h : Ensures call start mid fault)
    (hnext : ∀ value last, mid value last → Ensures (next value) last post fault) :
    Ensures (call >>= next) start post fault := by
  unfold Ensures at h
  simp only [Ensures, Bind.bind, EStateM.bind]
  cases hcall : call start with
  | ok value last =>
      simp only [hcall] at h
      exact hnext value last h
  | error error last =>
      simp only [hcall] at h
      exact h

/-- The two outcomes of a call. -/
theorem outcome (h : Ensures call start post fault) :
    (∃ value last, call start = .ok value last ∧ post value last) ∨
      ∃ error last, call start = .error error last ∧ fault last := by
  unfold Ensures at h
  cases hcall : call start with
  | ok value last =>
      rw [hcall] at h
      exact .inl ⟨value, last, rfl, h⟩
  | error error last =>
      rw [hcall] at h
      exact .inr ⟨error, last, rfl, h⟩

/-- A step, with what is to be known after it. -/
theorem through (mid : α → σ → Prop) {next : α → EStateM ε σ β} {post : β → σ → Prop}
    (h : Ensures call start mid fault)
    (hnext : ∀ value last, mid value last → Ensures (next value) last post fault) :
    Ensures (call >>= next) start post fault :=
  h.bind hnext

theorem get {next : σ → EStateM ε σ β} {post : β → σ → Prop}
    (h : Ensures (next start) start post fault) :
    Ensures (MonadState.get >>= next) start post fault := h

theorem put {state : σ} {next : PUnit → EStateM ε σ β} {post : β → σ → Prop}
    (h : Ensures (next ⟨⟩) state post fault) :
    Ensures (MonadState.set state >>= next) start post fault := h

theorem put_last {state : σ} {post : PUnit → σ → Prop} (h : post ⟨⟩ state) :
    Ensures (MonadState.set state : EStateM ε σ PUnit) start post fault := h

theorem change {f : σ → σ} {next : PUnit → EStateM ε σ β} {post : β → σ → Prop}
    (h : Ensures (next ⟨⟩) (f start) post fault) :
    Ensures (modify f >>= next) start post fault := h

theorem change_last {f : σ → σ} {post : PUnit → σ → Prop} (h : post ⟨⟩ (f start)) :
    Ensures (modify f : EStateM ε σ PUnit) start post fault := h

/-- A check, whichever way it goes. -/
theorem check {condition : Prop} [Decidable condition] {error : ε}
    {next : PUnit → EStateM ε σ β} {post : β → σ → Prop} (hfault : fault start)
    (h : ¬ condition → Ensures (next ⟨⟩) start post fault) :
    Ensures (refuseIf condition error >>= next) start post fault := by
  by_cases hcondition : condition
  · exact of_rejects (.fails hcondition) hfault
  · have hpass : refuseIf condition error = (pure ⟨⟩ : EStateM ε σ PUnit) := if_neg hcondition
    rw [hpass]
    exact h hcondition

theorem check_last {condition : Prop} [Decidable condition] {error : ε}
    {post : PUnit → σ → Prop} (hfault : fault start) (h : ¬ condition → post ⟨⟩ start) :
    Ensures (refuseIf condition error : EStateM ε σ PUnit) start post fault := by
  by_cases hcondition : condition
  · exact of_rejects (.fails_last hcondition) hfault
  · exact of_succeeds (.passes_last hcondition (h hcondition))

theorem ofExcept {result : Except ε α} (hfault : fault start)
    (h : ∀ value, result = .ok value → post value start) :
    Ensures (MonadExcept.ofExcept result : EStateM ε σ α) start post fault := by
  cases result with
  | ok value => exact h value rfl
  | error error => exact hfault

/-- A computation of its own, whose failure is known to be one. -/
theorem attempt {result : Except ε α} (hfault : ∀ error, result = .error error → fault start)
    (h : ∀ value, result = .ok value → post value start) :
    Ensures (MonadExcept.ofExcept result : EStateM ε σ α) start post fault := by
  cases result with
  | ok value => exact h value rfl
  | error error => exact hfault error rfl

/-- A loop, by what holds after the elements that are done. -/
theorem forM {f : β → EStateM ε σ PUnit} {elements : List β} (done : List β → σ → Prop)
    (hstart : done [] start)
    (hstep : ∀ before element after state, elements = before ++ element :: after →
      done before state →
        Ensures (f element) state (fun _ last => done (before ++ [element]) last) fault) :
    Ensures (elements.forM f) start (fun _ last => done elements last) fault := by
  have hrest : ∀ after before state, elements = before ++ after → done before state →
      Ensures (after.forM f) state (fun _ last => done elements last) fault := by
    intro after
    induction after with
    | nil =>
        intro before state helements hdone
        rw [List.append_nil] at helements
        exact helements ▸ hdone
    | cons element after ih =>
        intro before state helements hdone
        refine (hstep before element after state helements hdone).bind fun _ last hlast => ?_
        exact ih (before ++ [element]) last (by rw [helements, List.append_assoc]; rfl) hlast
  exact hrest elements [] start rfl hstart

theorem raising {ε' : Type} {f : ε → ε'} (h : Ensures call start post fault) :
    Ensures (Stateful.raising f call) start post fault := by
  unfold Ensures at h
  simp only [Ensures, Stateful.raising]
  cases hcall : call start <;> simpa only [hcall] using h

theorem onPart {part : σ → τ} {replace : σ → τ → σ} {call : EStateM ε τ α}
    (h : Ensures call (part start) (fun value last => post value (replace start last))
      fun last => fault (replace start last)) :
    Ensures (Stateful.onPart part replace call) start post fault := by
  unfold Ensures at h
  simp only [Ensures, Stateful.onPart]
  cases hcall : call (part start) <;> simpa only [hcall] using h

end Ensures

/-- What a call that succeeds ensures besides. -/
theorem Succeeds.ensuring {call : EStateM ε σ α} {start : σ} {post post' : α → σ → Prop}
    {fault : σ → Prop} (h : Succeeds call start post) (h' : Ensures call start post' fault) :
    Succeeds call start fun value last => post value last ∧ post' value last := by
  obtain ⟨value, last, hcall, hpost⟩ := h
  refine ⟨value, last, hcall, hpost, ?_⟩
  simpa only [Ensures, hcall] using h'

/-- What a call that succeeds returns. -/
theorem Succeeds.returning {call : EStateM ε σ α} {start : σ} {post : α → σ → Prop}
    (h : Succeeds call start post) :
    Succeeds call start fun value last => call start = .ok value last ∧ post value last := by
  obtain ⟨value, last, hcall, hpost⟩ := h
  exact ⟨value, last, hcall, hcall, hpost⟩

/-! ## Frames -/

/-- The call leaves one part of the state as it was, whether it returns a value or fails. -/
def Frames (part : σ → τ) (call : EStateM ε σ α) : Prop :=
  ∀ start, Ensures call start (fun _ last => part last = part start)
    fun last => part last = part start

namespace Frames

variable {part : σ → τ} {call : EStateM ε σ α}

theorem ret {value : α} : Frames part (pure value : EStateM ε σ α) := fun _ => .ret rfl

theorem raised {error : ε} : Frames part (throw error : EStateM ε σ α) := fun _ => .raised rfl

theorem bind {next : α → EStateM ε σ β} (h : Frames part call)
    (hnext : ∀ value, Frames part (next value)) : Frames part (call >>= next) := by
  intro start
  apply (h start).bind
  intro value last hlast
  rw [← hlast]
  exact hnext value last

theorem get : Frames part (MonadState.get : EStateM ε σ σ) := by
  intro start
  exact (rfl : part start = part start)

theorem change {f : σ → σ} (h : ∀ state, part (f state) = part state) :
    Frames part (modify f : EStateM ε σ PUnit) := fun start => .change_last (h start)

theorem check {condition : Prop} [Decidable condition] {error : ε} :
    Frames part (refuseIf condition error : EStateM ε σ PUnit) :=
  fun _ => .check_last rfl fun _ => rfl

theorem ofExcept {result : Except ε α} :
    Frames part (MonadExcept.ofExcept result : EStateM ε σ α) :=
  fun _ => .ofExcept rfl fun _ _ => rfl

/-- A call on a part that is not the framed one. -/
theorem onPart {υ : Type} {inner : σ → υ} {replace : σ → υ → σ} {call : EStateM ε υ α}
    (h : ∀ whole last, part (replace whole last) = part whole) :
    Frames part (Stateful.onPart inner replace call) := by
  intro start
  simp only [Ensures, Stateful.onPart]
  cases call (inner start) <;> exact h _ _

end Frames

end Stateful
end Superi
