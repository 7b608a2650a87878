import Mathlib

/-!
# Rotation — service in a fixed cyclic order

A server walks a cyclic pattern of classes and serves the first class that has something to give.
Classes with nothing to give are passed over at once, so how long a class waits is bounded by the
pattern alone.
-/

namespace Superi
namespace Rotation

variable {κ β : Type*} {length : Nat} [NeZero length] (pattern : Fin length → κ)

/-- Offer at most `turns` turns, starting at `cursor`; the cursor moves on with every turn. -/
def serve (attempt : κ → Option β) : Nat → Fin length → Option β × Fin length
  | 0, cursor => (none, cursor)
  | turns + 1, cursor =>
      match attempt (pattern cursor) with
      | some served => (some served, cursor + 1)
      | none => serve attempt turns (cursor + 1)

/-- The class comes up after at most `turns` other turns. -/
def Within (key : κ) : Nat → Fin length → Prop
  | 0, cursor => pattern cursor = key
  | turns + 1, cursor => pattern cursor = key ∨ Within key turns (cursor + 1)

instance decidableWithin [DecidableEq κ] (key : κ) :
    (turns : Nat) → (cursor : Fin length) → Decidable (Within pattern key turns cursor)
  | 0, cursor => inferInstanceAs (Decidable (pattern cursor = key))
  | turns + 1, cursor =>
      have := decidableWithin key turns (cursor + 1)
      inferInstanceAs (Decidable (pattern cursor = key ∨ Within pattern key turns (cursor + 1)))

variable {pattern}

namespace Within

variable {key : κ} {turns : Nat} {cursor : Fin length}

theorem succ (h : Within pattern key turns cursor) : Within pattern key (turns + 1) cursor := by
  induction turns generalizing cursor with
  | zero => exact .inl h
  | succ turns ih =>
      rcases h with hhere | hlater
      · exact .inl hhere
      · exact .inr (ih hlater)

theorem mono {more : Nat} (h : Within pattern key turns cursor) (hle : turns ≤ more) :
    Within pattern key more cursor := by
  induction more, hle using Nat.le_induction with
  | base => exact h
  | succ more _ ih => exact ih.succ

/-- A turn of another class brings the class nearer. -/
theorem advance (h : Within pattern key turns cursor) (hne : pattern cursor ≠ key) :
    ∃ fewer, turns = fewer + 1 ∧ Within pattern key fewer (cursor + 1) := by
  cases turns with
  | zero => exact absurd h hne
  | succ turns => exact ⟨turns, rfl, h.resolve_left hne⟩

end Within

/-- A class that has something to give and comes up in time is served, or another one is. -/
theorem serve_isSome {attempt : κ → Option β} {key : κ} {turns : Nat} {cursor : Fin length}
    (hkey : attempt key ≠ none) (hwithin : Within pattern key turns cursor) :
    ∃ served next, serve pattern attempt (turns + 1) cursor = (some served, next) := by
  induction turns generalizing cursor with
  | zero =>
      obtain ⟨served, hserved⟩ := Option.ne_none_iff_exists'.1 hkey
      rw [← show pattern cursor = key from hwithin] at hserved
      exact ⟨served, cursor + 1, by simp only [serve, hserved]⟩
  | succ turns ih =>
      cases hattempt : attempt (pattern cursor) with
      | some served => exact ⟨served, cursor + 1, by simp only [serve, hattempt]⟩
      | none =>
          have hne : pattern cursor ≠ key := fun heq => hkey (heq ▸ hattempt)
          obtain ⟨served, next, hserve⟩ := ih (hwithin.resolve_left hne)
          exact ⟨served, next, by rw [serve, hattempt]; exact hserve⟩

/-- What is served was offered by some class. -/
theorem serve_eq_some {attempt : κ → Option β} {turns : Nat} {cursor next : Fin length}
    {served : β} (h : serve pattern attempt turns cursor = (some served, next)) :
    ∃ key, attempt key = some served := by
  induction turns generalizing cursor with
  | zero => cases h
  | succ turns ih =>
      cases hattempt : attempt (pattern cursor) with
      | some found =>
          rw [serve, hattempt] at h
          cases h
          exact ⟨pattern cursor, hattempt⟩
      | none =>
          rw [serve, hattempt] at h
          exact ih h

/-- Serving another class uses up at least one of the turns a ready class may have to wait. -/
theorem within_of_serve {attempt : κ → Option β} {key : κ} {turns limit : Nat}
    {cursor next : Fin length} {served : β} (hkey : attempt key ≠ none)
    (hserve : serve pattern attempt turns cursor = (some served, next))
    (hother : attempt key ≠ some served) (hwithin : Within pattern key limit cursor) :
    ∃ fewer, limit = fewer + 1 ∧ Within pattern key fewer next := by
  induction turns generalizing cursor limit with
  | zero => cases hserve
  | succ turns ih =>
      cases hattempt : attempt (pattern cursor) with
      | some found =>
          rw [serve, hattempt] at hserve
          cases hserve
          exact hwithin.advance fun heq => hother (heq ▸ hattempt)
      | none =>
          rw [serve, hattempt] at hserve
          obtain ⟨fewer, rfl, hnear⟩ := hwithin.advance fun heq => hkey (heq ▸ hattempt)
          obtain ⟨least, rfl, hnearer⟩ := ih hserve hnear
          exact ⟨least + 1, rfl, hnearer.succ⟩

end Rotation
end Superi
