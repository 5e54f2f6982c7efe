import Mathlib.Data.Option.Basic

/-!
# Machines and their runs

A machine is a partial step function: an action that cannot be taken in a state has no
successor.  A run is a list of actions, and every interleaving of the parties of a
system is one.  The rules below lead from what one step keeps to what a run keeps.
-/

namespace PurcFetcher.Machine

variable {State Action : Type*} {step : State → Action → Option State}

/-- The state after the actions, if each of them can be taken. -/
def run (step : State → Action → Option State) : State → List Action → Option State
  | state, [] => some state
  | state, action :: actions => (step state action).bind fun next => run step next actions

/-- The state after the actions, or the first state if one of them cannot be taken. -/
def after (step : State → Action → Option State) (state : State) (actions : List Action) :
    State :=
  (run step state actions).getD state

/-- Each action of the run meets the condition in the state it is taken in. -/
def Meets (step : State → Action → Option State) (condition : State → Action → Prop) :
    State → List Action → Prop
  | _, [] => True
  | state, action :: actions =>
    condition state action ∧
      ∀ next, step state action = some next → Meets step condition next actions

/-- The property holds in each state of the run. -/
def Always (step : State → Action → Option State) (property : State → Prop) :
    State → List Action → Prop
  | state, [] => property state
  | state, action :: actions =>
    property state ∧ ∀ next, step state action = some next → Always step property next actions

@[simp]
theorem run_nil (s : State) : run step s [] = some s := rfl

variable {cond : State → Action → Prop} {inv property : State → Prop}
  {state final : State} {action : Action} {actions : List Action}

theorem run_eq_after (hrun : (run step state actions).isSome) :
    run step state actions = some (after step state actions) := by
  obtain ⟨final, hfinal⟩ := Option.isSome_iff_exists.1 hrun
  rw [after, hfinal, Option.getD_some]

theorem run_cons_eq_some_iff :
    run step state (action :: actions) = some final ↔
      ∃ next, step state action = some next ∧ run step next actions = some final :=
  Option.bind_eq_some_iff

/-- A run in two parts. -/
theorem run_append (s : State) (actions later : List Action) :
    run step s (actions ++ later) = (run step s actions).bind fun next => run step next later := by
  induction actions generalizing s with
  | nil => rfl
  | cons action actions ih =>
    rw [List.cons_append, run, run, Option.bind_assoc]
    simp only [ih]

theorem meets_true (s : State) (actions : List Action) :
    Meets step (fun _ _ => True) s actions := by
  induction actions generalizing s with
  | nil => trivial
  | cons action actions ih => exact ⟨trivial, fun next _ => ih next⟩

theorem meets_of_forall {allowed : Action → Prop} (hallowed : ∀ action ∈ actions, allowed action)
    (s : State) : Meets step (fun _ => allowed) s actions := by
  induction actions generalizing s with
  | nil => trivial
  | cons action actions ih =>
    refine ⟨hallowed action List.mem_cons_self, fun next _ => ih ?_ next⟩
    exact fun other hother => hallowed other (List.mem_cons_of_mem _ hother)

/-- A condition on the actions may be weakened. -/
theorem Meets.mono {weaker : State → Action → Prop}
    (hweaker : ∀ state action, cond state action → weaker state action)
    (hmeets : Meets step cond state actions) : Meets step weaker state actions := by
  induction actions generalizing state with
  | nil => trivial
  | cons action actions ih =>
    exact ⟨hweaker state action hmeets.1, fun next hnext => ih (hmeets.2 next hnext)⟩

theorem Meets.and {left right : State → Action → Prop} (hleft : Meets step left state actions)
    (hright : Meets step right state actions) :
    Meets step (fun state action => left state action ∧ right state action) state actions := by
  induction actions generalizing state with
  | nil => trivial
  | cons action actions ih =>
    exact ⟨⟨hleft.1, hright.1⟩, fun next hnext => ih (hleft.2 next hnext) (hright.2 next hnext)⟩

theorem Meets.cons {next : State} (hnext : step state action = some next)
    (hcond : cond state action) (hrest : Meets step cond next actions) :
    Meets step cond state (action :: actions) := by
  refine ⟨hcond, fun other hother => ?_⟩
  rw [hnext] at hother
  exact Option.some.inj hother ▸ hrest

theorem meets_cons_of_none {cond : State → Action → Prop} {s : State}
    {action : Action} {actions : List Action} (hnone : step s action = none)
    (hcond : cond s action) : Meets step cond s (action :: actions) :=
  ⟨hcond, fun next hnext => absurd (hnone.symm.trans hnext) (Option.some_ne_none next).symm⟩

instance decidableMeets {condition : State → Action → Prop}
    [∀ state action, Decidable (condition state action)] :
    (state : State) → (actions : List Action) → Decidable (Meets step condition state actions)
  | _, [] => isTrue trivial
  | state, action :: actions =>
    match hstep : step state action with
    | none => decidable_of_iff (condition state action) ⟨meets_cons_of_none hstep, And.left⟩
    | some next =>
      have : Decidable (Meets step condition next actions) := decidableMeets next actions
      decidable_of_iff (condition state action ∧ Meets step condition next actions)
        ⟨fun hmeets => .cons hstep hmeets.1 hmeets.2, fun hmeets => ⟨hmeets.1, hmeets.2 next hstep⟩⟩

/-- What each step preserves holds in every state of a run. -/
theorem always_of_step
    (hstep : ∀ {state action next}, inv state → cond state action →
      step state action = some next → inv next)
    (hstart : inv state) (hmeets : Meets step cond state actions) :
    Always step inv state actions := by
  induction actions generalizing state with
  | nil => exact hstart
  | cons action actions ih =>
    exact ⟨hstart, fun next hnext => ih (hstep hstart hmeets.1 hnext) (hmeets.2 next hnext)⟩

theorem Always.mono {weaker : State → Prop} (hweaker : ∀ state, property state → weaker state)
    (halways : Always step property state actions) : Always step weaker state actions := by
  induction actions generalizing state with
  | nil => exact hweaker state halways
  | cons action actions ih =>
    exact ⟨hweaker state halways.1, fun next hnext => ih (halways.2 next hnext)⟩

theorem Always.and {left right : State → Prop} (hleft : Always step left state actions)
    (hright : Always step right state actions) :
    Always step (fun state => left state ∧ right state) state actions := by
  induction actions generalizing state with
  | nil => exact ⟨hleft, hright⟩
  | cons action actions ih =>
    exact ⟨⟨hleft.1, hright.1⟩, fun next hnext => ih (hleft.2 next hnext) (hright.2 next hnext)⟩

/-- What always holds does so at the end. -/
theorem Always.last (halways : Always step property state actions)
    (hrun : run step state actions = some final) : property final := by
  induction actions generalizing state with
  | nil => exact Option.some.inj hrun ▸ halways
  | cons action actions ih =>
    obtain ⟨next, hnext, hrest⟩ := run_cons_eq_some_iff.1 hrun
    exact ih (halways.2 next hnext) hrest

/-- What each step preserves holds after a run. -/
theorem run_of_step
    (hstep : ∀ {s action next}, inv s → cond s action → step s action = some next → inv next)
    {s final : State} (hstart : inv s)
    (hmeets : Meets step cond s actions)
    (hrun : run step s actions = some final) : inv final :=
  (always_of_step hstep hstart hmeets).last hrun

/-- A run is not longer than a measure that each step decreases. -/
theorem length_add_le_of_step (measure : State → Nat)
    (hstep : ∀ {s action next}, inv s → step s action = some next →
      inv next ∧ measure next < measure s)
    {s final : State} (hstart : inv s)
    (hrun : run step s actions = some final) :
    actions.length + measure final ≤ measure s := by
  induction actions generalizing s with
  | nil =>
    apply Nat.le_of_eq
    rw [Option.some.inj hrun, List.length_nil, Nat.zero_add]
  | cons action actions ih =>
    obtain ⟨next, hnext, hrest⟩ := run_cons_eq_some_iff.1 hrun
    obtain ⟨hinv, hless⟩ := hstep hstart hnext
    have hlen := ih hinv hrest
    rw [List.length_cons]
    omega

/-- Steps may use what always holds. -/
theorem run_of_always
    (hstep : ∀ {s action next}, inv s → property s → step s action = some next → inv next)
    {s final : State} (hstart : inv s)
    (halways : Always step property s actions)
    (hrun : run step s actions = some final) : inv final := by
  induction actions generalizing s with
  | nil => exact Option.some.inj hrun ▸ hstart
  | cons action actions ih =>
    obtain ⟨next, hnext, hrest⟩ := run_cons_eq_some_iff.1 hrun
    exact ih (hstep hstart halways.1 hnext) (halways.2 next hnext) hrest

/-- A condition that the next state would show broken is met by every allowed step of a run
that keeps the property. -/
theorem meets_of_always {allowed : State → Action → Prop}
    (hbroken : ∀ {state action}, property state → allowed state action → ¬ cond state action →
      ∃ next, step state action = some next ∧ ¬ property next)
    (hallowed : Meets step allowed state actions)
    (halways : Always step property state actions) : Meets step cond state actions := by
  induction actions generalizing state with
  | nil => trivial
  | cons action actions ih =>
    refine ⟨?_, fun next hnext => ih (hallowed.2 next hnext) (halways.2 next hnext)⟩
    by_contra hcondition
    obtain ⟨next, hnext, hfails⟩ := hbroken halways.1 hallowed.1 hcondition
    apply hfails
    cases actions with
    | nil => exact halways.2 next hnext
    | cons => exact (halways.2 next hnext).1

/-- A machine that follows each step follows a run. -/
theorem run_of_simulation {Other : Type*} {follow : Other → Action → Option Other}
    {related : State → Other → Prop}
    (hstep : ∀ {state other action next}, related state other → cond state action →
      step state action = some next →
        ∃ follower, follow other action = some follower ∧ related next follower)
    {other : Other} (hstart : related state other) (hmeets : Meets step cond state actions)
    (hrun : run step state actions = some final) :
    ∃ follower, run follow other actions = some follower ∧ related final follower := by
  induction actions generalizing state other with
  | nil => exact ⟨other, rfl, Option.some.inj hrun ▸ hstart⟩
  | cons action actions ih =>
    obtain ⟨next, hnext, hrest⟩ := run_cons_eq_some_iff.1 hrun
    obtain ⟨middle, hmiddle, hrelated⟩ := hstep hstart hmeets.1 hnext
    obtain ⟨follower, hfollower, hfinal⟩ := ih hrelated (hmeets.2 next hnext) hrest
    exact ⟨follower, run_cons_eq_some_iff.2 ⟨middle, hmiddle, hfollower⟩, hfinal⟩

end PurcFetcher.Machine
