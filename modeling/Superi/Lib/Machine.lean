import Mathlib

/-!
# Machine — runs of a labelled step function

A machine makes one action at a time and stops where an action cannot be made.  A condition on the
steps of a run speaks of each action together with the state it is made in.
-/

namespace Superi
namespace Machine

variable {σ α : Type*} (step : σ → α → Option σ)

/-- Make the actions one after the other. -/
def run : σ → List α → Option σ
  | state, [] => some state
  | state, action :: rest => (step state action).bind (run · rest)

/-- Every action of a run meets `condition` in the state it is made in. -/
def EveryStep (condition : σ → α → Prop) (start : σ) (actions : List α) : Prop :=
  ∀ before action after reached, actions = before ++ action :: after →
    run step start before = some reached → condition reached action

variable {step}

theorem run_append (start : σ) (before after : List α) :
    run step start (before ++ after) = (run step start before).bind (run step · after) := by
  induction before generalizing start with
  | nil => rfl
  | cons action rest ih =>
      simp only [List.cons_append, run, ih]
      cases step start action with
      | none => rfl
      | some reached => rfl

theorem run_concat (start : σ) (before : List α) (action : α) :
    run step start (before ++ [action]) = (run step start before).bind (step · action) := by
  rw [run_append]
  congr 1
  funext reached
  simp only [run]
  cases step reached action with
  | none => rfl
  | some next => rfl

/-- An action in the middle of a run leads somewhere. -/
theorem step_of_run {start last reached : σ} {before after : List α} {action : α}
    (hrun : run step start (before ++ action :: after) = some last)
    (hbefore : run step start before = some reached) :
    ∃ next, step reached action = some next ∧ run step next after = some last := by
  rw [run_append, hbefore] at hrun
  exact Option.bind_eq_some_iff.1 hrun

namespace EveryStep

variable {condition : σ → α → Prop} {start : σ} {actions before after : List α} {action : α}

/-- The steps of the first part of a run. -/
theorem left (h : EveryStep step condition start (before ++ after)) :
    EveryStep step condition start before := by
  intro earlier action later reached hsplit hearlier
  refine h earlier action (later ++ after) reached ?_ hearlier
  rw [hsplit, List.append_assoc]
  rfl

/-- The steps of the second part of a run. -/
theorem right {reached : σ} (h : EveryStep step condition start (before ++ after))
    (hbefore : run step start before = some reached) : EveryStep step condition reached after := by
  intro earlier action later mid hsplit hearlier
  refine h (before ++ earlier) action later mid ?_ ?_
  · rw [hsplit, List.append_assoc]
  · rw [run_append, hbefore]
    exact hearlier

/-- The steps after the first one. -/
theorem tail {next : σ} (h : EveryStep step condition start (action :: actions))
    (hstep : step start action = some next) : EveryStep step condition next actions := by
  intro before other after reached hsplit hbefore
  refine h (action :: before) other after reached (by rw [hsplit]; rfl) ?_
  exact Option.bind_eq_some_iff.2 ⟨next, hstep, hbefore⟩

theorem nil : EveryStep step condition start [] := by
  intro before action after reached hsplit
  exact absurd hsplit (List.append_ne_nil_of_right_ne_nil before (List.cons_ne_nil action after)).symm

theorem cons {next : σ} (hhead : condition start action) (hstep : step start action = some next)
    (htail : EveryStep step condition next actions) :
    EveryStep step condition start (action :: actions) := by
  intro before other after reached hsplit hbefore
  cases before with
  | nil =>
      cases hbefore
      cases hsplit
      exact hhead
  | cons first before =>
      cases hsplit
      rw [run, hstep] at hbefore
      exact htail before other after reached rfl hbefore

theorem head (h : EveryStep step condition start (action :: actions)) : condition start action :=
  h [] action actions start rfl rfl

end EveryStep

/-- Invariant rule: what every step that meets the condition keeps, every such run keeps. -/
theorem invariant_of_run {invariant : σ → Prop} {condition : σ → α → Prop}
    (hkeep : ∀ {state next : σ} {action : α}, invariant state → condition state action →
      step state action = some next → invariant next)
    {start last : σ} {actions : List α} (hstart : invariant start)
    (hrun : run step start actions = some last)
    (hsteps : EveryStep step condition start actions) : invariant last := by
  induction actions generalizing start with
  | nil =>
      cases hrun
      exact hstart
  | cons action rest ih =>
      obtain ⟨next, hstep, hrest⟩ := Option.bind_eq_some_iff.1 hrun
      exact ih (hkeep hstart hsteps.head hstep) hrest (hsteps.tail hstep)

/-- What every step keeps, every run keeps. -/
theorem invariant_of_any_run {invariant : σ → Prop}
    (hkeep : ∀ {state next : σ} {action : α}, invariant state →
      step state action = some next → invariant next)
    {start last : σ} {actions : List α} (hstart : invariant start)
    (hrun : run step start actions = some last) : invariant last := by
  induction actions generalizing start with
  | nil =>
      cases hrun
      exact hstart
  | cons action rest ih =>
      obtain ⟨next, hstep, hrest⟩ := Option.bind_eq_some_iff.1 hrun
      exact ih (hkeep hstart hstep) hrest

/-! ## Machines that answer -/

section Answers

variable {τ β : Type*} {step : σ → α → σ × β} {step' : τ → α → τ × β}

/-- Take the actions one after the other and collect the answers. -/
def answers (step : σ → α → σ × β) : σ → List α → σ × List β
  | state, [] => (state, [])
  | state, action :: rest =>
      let (next, answer) := step state action
      let (last, later) := answers step next rest
      (last, answer :: later)

/-- Simulation rule: related states that take related steps with equal answers give equal answers
in every run. -/
theorem answers_simulate {R : σ → τ → Prop}
    (hstep : ∀ {state state'} (action : α), R state state' →
      R (step state action).1 (step' state' action).1 ∧
        (step state action).2 = (step' state' action).2)
    {start : σ} {start' : τ} (hstart : R start start') (actions : List α) :
    R (answers step start actions).1 (answers step' start' actions).1 ∧
      (answers step start actions).2 = (answers step' start' actions).2 := by
  induction actions generalizing start start' with
  | nil => exact ⟨hstart, rfl⟩
  | cons action rest ih =>
      obtain ⟨hnext, hanswer⟩ := hstep action hstart
      obtain ⟨hlast, hlater⟩ := ih hnext
      exact ⟨hlast, congrArg₂ List.cons hanswer hlater⟩

end Answers

end Machine
end Superi
