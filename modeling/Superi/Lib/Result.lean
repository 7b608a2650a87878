import Mathlib

/-!
# Result — success analysis for fallible computations

Fallible code is embedded in `Except`.  The lemmas of this module turn the statement "this
computation returned `ok`" into the facts its steps established on the way, so that later
proofs peel a `do` block apart with `obtain` and never unfold the monad.

A recursion that is bounded by fuel has three outcomes: a value, an error, and none when the bound
was too small.  `Returns x r` says that the bound sufficed and that `r` is the outcome.
-/

namespace Superi
namespace Result

variable {ε α β γ : Type}

/-! ## Primitive steps -/

/-- Stop with `error` when the condition holds. -/
def rejectIf (condition : Prop) [Decidable condition] (error : ε) : Except ε Unit :=
  if condition then .error error else .ok ()

/-- Read an optional value, or stop with `error`. -/
def okOr (value : Option α) (error : ε) : Except ε α :=
  match value with
  | some a => .ok a
  | none => .error error

/-! ## Inversion -/

theorem bind_eq_ok {x : Except ε α} {f : α → Except ε β} {b : β} :
    (x >>= f) = .ok b ↔ ∃ a, x = .ok a ∧ f a = .ok b := by
  cases x with
  | error e => simp [bind, Except.bind]
  | ok a => simp [bind, Except.bind]

theorem map_eq_ok {x : Except ε α} {f : α → β} {b : β} :
    (f <$> x) = .ok b ↔ ∃ a, x = .ok a ∧ f a = b := by
  cases x with
  | error e => simp [Functor.map, Except.map]
  | ok a => simp [Functor.map, Except.map]

theorem pure_eq_ok {a b : α} : (pure a : Except ε α) = .ok b ↔ a = b := by
  simp [pure, Except.pure]

theorem rejectIf_eq_ok {c : Prop} [Decidable c] {e : ε} {u : Unit} :
    rejectIf c e = .ok u ↔ ¬ c := by
  by_cases h : c <;> simp [rejectIf, h]

theorem rejectIf_eq_error {c : Prop} [Decidable c] {e e' : ε} :
    rejectIf c e = .error e' ↔ c ∧ e = e' := by
  by_cases h : c <;> simp [rejectIf, h]

theorem okOr_eq_ok {o : Option α} {e : ε} {a : α} :
    okOr o e = .ok a ↔ o = some a := by
  cases o with
  | none => simp [okOr]
  | some b => simp [okOr]

theorem mapError_eq_ok {ε' : Type} {x : Except ε α} {f : ε → ε'} {a : α} :
    x.mapError f = .ok a ↔ x = .ok a := by
  cases x with
  | error e => simp [Except.mapError]
  | ok b => simp [Except.mapError]

/-- A bind fails exactly when one of its two halves does. -/
theorem bind_eq_error {x : Except ε α} {f : α → Except ε β} {e : ε} :
    (x >>= f) = .error e ↔ x = .error e ∨ ∃ a, x = .ok a ∧ f a = .error e := by
  cases x with
  | error e' => simp [bind, Except.bind]
  | ok a => simp [bind, Except.bind]

/-! ## Loops -/

/-- A successful traversal relates input and output position by position. -/
theorem mapM_eq_ok {f : α → Except ε β} :
    ∀ {as : List α} {bs : List β},
      as.mapM f = .ok bs ↔ List.Forall₂ (fun a b => f a = .ok b) as bs
  | [], bs => by
      simp [pure, Except.pure, eq_comm]
  | a :: as, bs => by
      simp only [List.mapM_cons, bind_eq_ok, pure_eq_ok, List.forall₂_cons_left_iff]
      constructor
      · rintro ⟨b, hb, rest, hrest, rfl⟩
        exact ⟨b, rest, hb, mapM_eq_ok.1 hrest, rfl⟩
      · rintro ⟨b, rest, hb, hrest, rfl⟩
        exact ⟨b, hb, rest, mapM_eq_ok.2 hrest, rfl⟩

/-- Everything a successful traversal returns was computed from an element of its input. -/
theorem exists_of_mem_mapM {f : α → Except ε β} {as : List α} {bs : List β} {b : β}
    (h : as.mapM f = .ok bs) (hb : b ∈ bs) : ∃ a ∈ as, f a = .ok b := by
  induction mapM_eq_ok.1 h with
  | nil => cases hb
  | @cons a b' as bs hab hrest ih =>
      rcases List.mem_cons.1 hb with rfl | hb
      · exact ⟨a, List.mem_cons_self, hab⟩
      · obtain ⟨a', ha', hfa'⟩ := ih (mapM_eq_ok.2 hrest) hb
        exact ⟨a', List.mem_cons_of_mem _ ha', hfa'⟩

/-- A loop that only checks succeeds exactly when every check does. -/
theorem forM_eq_ok {f : α → Except ε PUnit} :
    ∀ {as : List α}, as.forM f = .ok () ↔ ∀ a ∈ as, f a = .ok ()
  | [] => by simp [pure, Except.pure]
  | a :: as => by
      rw [List.forM, bind_eq_ok, List.forall_mem_cons]
      constructor
      · rintro ⟨_, ha, hrest⟩
        exact ⟨ha, forM_eq_ok.1 hrest⟩
      · rintro ⟨ha, hrest⟩
        exact ⟨(), ha, forM_eq_ok.2 hrest⟩

/-- Invariant rule for a fallible loop: what holds initially and survives every successful
step holds of the state the loop returns. -/
theorem foldlM_ok_induction {f : β → α → Except ε β} (P : β → Prop)
    (step : ∀ s a s', P s → f s a = .ok s' → P s') :
    ∀ {as : List α} {s s' : β}, P s → as.foldlM f s = .ok s' → P s'
  | [], s, s', hs, h => by
      have : s = s' := by simpa [pure_eq_ok] using h
      exact this ▸ hs
  | a :: as, s, s', hs, h => by
      rw [List.foldlM_cons, bind_eq_ok] at h
      obtain ⟨mid, hmid, hrest⟩ := h
      exact foldlM_ok_induction P step (step s a mid hs hmid) hrest

/-- In a traversal that succeeds every element succeeded. -/
theorem exists_ok_of_mapM {f : α → Except ε β} {as : List α} {bs : List β} {a : α}
    (h : as.mapM f = .ok bs) (ha : a ∈ as) : ∃ b, f a = .ok b := by
  induction mapM_eq_ok.1 h with
  | nil => cases ha
  | @cons a' b as bs hab hrest ih =>
      rcases List.mem_cons.1 ha with rfl | ha
      · exact ⟨b, hab⟩
      · exact ih (mapM_eq_ok.2 hrest) ha

/-- In a fallible loop that succeeds every step succeeded. -/
theorem exists_ok_of_foldlM {f : β → α → Except ε β} :
    ∀ {as : List α} {s s' : β}, as.foldlM f s = .ok s' → ∀ a ∈ as, ∃ t t', f t a = .ok t'
  | [], s, s', h => by simp
  | a :: as, s, s', h => by
      rw [List.foldlM_cons, bind_eq_ok] at h
      obtain ⟨t, hstep, hrest⟩ := h
      exact List.forall_mem_cons.2 ⟨⟨s, t, hstep⟩, exists_ok_of_foldlM hrest⟩

/-- A computation that was evaluated to a success has a result. -/
theorem exists_ok_of_isSome {ε α : Type*} {x : Except ε α} (h : x.toOption.isSome = true) :
    ∃ a, x = .ok a := by
  cases x with
  | error e => cases h
  | ok a => exact ⟨a, rfl⟩

end Result

namespace Fueled

open Result

variable {ε α β : Type} {x : ExceptT ε Option α} {r r' : Except ε α}

/-- The computation ends within its bound, with the outcome `r`. -/
def Returns (x : ExceptT ε Option α) (r : Except ε α) : Prop :=
  x.run = some r

theorem not_returns_none : ¬ Returns (ExceptT.mk none : ExceptT ε Option α) r := nofun

@[simp] theorem returns_pure {a : α} : Returns (pure a) r ↔ r = .ok a :=
  ⟨fun h => (Option.some.inj h).symm, fun h => congrArg some h.symm⟩

@[simp] theorem returns_throw {e : ε} : Returns (throw e : ExceptT ε Option α) r ↔ r = .error e :=
  ⟨fun h => (Option.some.inj h).symm, fun h => congrArg some h.symm⟩

@[simp] theorem returns_lift {y : Except ε α} : Returns (liftM y) r ↔ r = y :=
  ⟨fun h => (Option.some.inj h).symm, fun h => congrArg some h.symm⟩

/-- A sequence ends with the error of its first part, or as the second part does. -/
theorem returns_bind {f : α → ExceptT ε Option β} {r : Except ε β} :
    Returns (x >>= f) r ↔ (∃ e, Returns x (.error e) ∧ r = .error e) ∨
      ∃ a, Returns x (.ok a) ∧ Returns (f a) r := by
  have hbind : (x >>= f).run = x.run >>= fun
      | .ok a => (f a).run
      | .error e => some (.error e) := by
    rw [ExceptT.run_bind]
    rfl
  unfold Returns
  rw [hbind]
  rcases x.run with _ | e | a
  · simp
  · simp [eq_comm]
  · simp

/-- Only a value is passed on. -/
theorem returns_bind_ok {f : α → ExceptT ε Option β} {b : β} :
    Returns (x >>= f) (.ok b) ↔ ∃ a, Returns x (.ok a) ∧ Returns (f a) (.ok b) := by
  simp [returns_bind]

/-- A sequence ends when its parts do. -/
theorem exists_returns_bind {f : α → ExceptT ε Option β} (h : ∃ r, Returns x r)
    (hnext : ∀ a, Returns x (.ok a) → ∃ r, Returns (f a) r) : ∃ r, Returns (x >>= f) r := by
  obtain ⟨r, hr⟩ := h
  cases r with
  | error e => exact ⟨.error e, returns_bind.2 (.inl ⟨e, hr, rfl⟩)⟩
  | ok a =>
      obtain ⟨r, hnext⟩ := hnext a hr
      exact ⟨r, returns_bind.2 (.inr ⟨a, hr, hnext⟩)⟩

end Fueled
end Superi
