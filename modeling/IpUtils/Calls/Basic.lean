import Mathlib.Data.List.Basic

/-! # Runs of calls

A machine is driven by calls. A call changes the state of the machine and may not
return, and then no further call is made. What one call preserves, a run preserves.
-/

namespace IpUtils

/-- What a call does to the state, and whether it returns. -/
abbrev Machine (ι σ : Type) : Type :=
  ι → σ → σ × Bool

namespace Machine

variable {ι σ : Type} (step : Machine ι σ)

/-- The state after a list of calls has been made, as far as they return. -/
def run : List ι → σ → σ × Bool
  | [], state => (state, true)
  | call :: calls, state =>
      if (step call state).2 then run calls (step call state).1 else ((step call state).1, false)

/-- Every call of a run meets a condition in the state in which it is made. -/
def Along (condition : ι → σ → Prop) : List ι → σ → Prop
  | [], _ => True
  | call :: calls, state =>
      condition call state ∧ ((step call state).2 = true → Along condition calls (step call state).1)

variable {step} {condition : ι → σ → Prop}

theorem run_cons_of_returns {call : ι} {state : σ} (returns : (step call state).2 = true)
    (calls : List ι) : run step (call :: calls) state = run step calls (step call state).1 := by
  rw [run, if_pos returns]

theorem run_cons_of_hangs {call : ι} {state : σ} (hangs : (step call state).2 = false)
    (calls : List ι) : run step (call :: calls) state = ((step call state).1, false) := by
  simp [run, hangs]

theorem run_append (front behind : List ι) (state : σ) :
    run step (front ++ behind) state =
      if (run step front state).2 then run step behind (run step front state).1
      else run step front state := by
  induction front generalizing state with
  | nil => simp [run]
  | cons call front ih =>
      rw [List.cons_append]
      by_cases returns : (step call state).2 = true
      · rw [run_cons_of_returns returns, run_cons_of_returns returns, ih]
      · have hangs : (step call state).2 = false := by simpa using returns
        rw [run_cons_of_hangs hangs, run_cons_of_hangs hangs]
        simp

theorem Along.front {front behind : List ι} {state : σ}
    (along : Along step condition (front ++ behind) state) : Along step condition front state := by
  induction front generalizing state with
  | nil => trivial
  | cons call front ih => exact ⟨along.1, fun returns => ih (along.2 returns)⟩

theorem Along.behind {front behind : List ι} {state : σ}
    (along : Along step condition (front ++ behind) state)
    (returns : (run step front state).2 = true) :
    Along step condition behind (run step front state).1 := by
  induction front generalizing state with
  | nil => exact along
  | cons call front ih =>
      by_cases first : (step call state).2 = true
      · rw [run_cons_of_returns first] at returns ⊢
        exact ih (along.2 first) returns
      · rw [run_cons_of_hangs (by simpa using first)] at returns
        cases returns

theorem Along.of_forall (always : ∀ call state, condition call state) (calls : List ι)
    (state : σ) : Along step condition calls state := by
  induction calls generalizing state with
  | nil => trivial
  | cons call calls ih => exact ⟨always call state, fun _ => ih _⟩

/-- What every call preserves, a run preserves. -/
theorem run_preserves {invariant : σ → Prop}
    (preserved : ∀ call state, invariant state → condition call state →
      invariant (step call state).1)
    {calls : List ι} {state : σ} (start : invariant state)
    (along : Along step condition calls state) : invariant (run step calls state).1 := by
  induction calls generalizing state with
  | nil => exact start
  | cons call calls ih =>
      have next := preserved call state start along.1
      by_cases returns : (step call state).2 = true
      · rw [run_cons_of_returns returns]
        exact ih next (along.2 returns)
      · rw [run_cons_of_hangs (by simpa using returns)]
        exact next

/-- What an invariant gives for one call, it gives for every call of a run. -/
theorem Along.of_invariant {invariant : σ → Prop} {given : ι → σ → Prop}
    (preserved : ∀ call state, invariant state → condition call state →
      invariant (step call state).1)
    (gives : ∀ call state, invariant state → condition call state → given call state)
    {calls : List ι} {state : σ} (start : invariant state)
    (along : Along step condition calls state) : Along step given calls state := by
  induction calls generalizing state with
  | nil => trivial
  | cons call calls ih =>
      exact ⟨gives call state start along.1, fun returns =>
        ih (preserved call state start along.1) (along.2 returns)⟩

/-- What the calls of a run have achieved, one behind the other. -/
def trace {κ : Type} (step : Machine ι σ) (yields : ι → σ → List κ) : List ι → σ → List κ
  | [], _ => []
  | call :: calls, state =>
      yields call state ++
        if (step call state).2 then trace step yields calls (step call state).1 else []

/-- An invariant that relates the state to what has been achieved. -/
theorem run_preserves_trace {κ : Type} {yields : ι → σ → List κ} {invariant : σ → List κ → Prop}
    (preserved : ∀ call state achieved, invariant state achieved → condition call state →
      invariant (step call state).1 (achieved ++ yields call state))
    {calls : List ι} {state : σ} {achieved : List κ} (start : invariant state achieved)
    (along : Along step condition calls state) :
    invariant (run step calls state).1 (achieved ++ trace step yields calls state) := by
  induction calls generalizing state achieved with
  | nil => simpa [run, trace] using start
  | cons call calls ih =>
      have next := preserved call state achieved start along.1
      by_cases returns : (step call state).2 = true
      · rw [run_cons_of_returns returns, trace, if_pos returns, ← List.append_assoc]
        exact ih next (along.2 returns)
      · rw [run_cons_of_hangs (by simpa using returns), trace, if_neg returns, List.append_nil]
        exact next

/-- The same for the runs whose calls all return. -/
theorem run_preserves_trace_of_returns {κ : Type} {yields : ι → σ → List κ}
    {invariant : σ → List κ → Prop}
    (preserved : ∀ call state achieved, invariant state achieved → condition call state →
      (step call state).2 = true → invariant (step call state).1 (achieved ++ yields call state))
    {calls : List ι} {state : σ} {achieved : List κ} (start : invariant state achieved)
    (along : Along step condition calls state) (returned : (run step calls state).2 = true) :
    invariant (run step calls state).1 (achieved ++ trace step yields calls state) := by
  induction calls generalizing state achieved with
  | nil => simpa [run, trace] using start
  | cons call calls ih =>
      by_cases returns : (step call state).2 = true
      · rw [run_cons_of_returns returns] at returned ⊢
        rw [trace, if_pos returns, ← List.append_assoc]
        exact ih (preserved call state achieved start along.1 returns) (along.2 returns) returned
      · rw [run_cons_of_hangs (by simpa using returns)] at returned
        cases returned

/-- Two machines that are driven by the same calls: what one call keeps between their
states, a run keeps, and they achieve the same. -/
theorem run_related {τ κ : Type} {step' : Machine ι τ} {yields : ι → σ → List κ}
    {yields' : ι → τ → List κ} {related : σ → τ → Prop}
    (kept : ∀ call state state', related state state' → condition call state →
      related (step call state).1 (step' call state').1 ∧
        (step call state).2 = (step' call state').2 ∧ yields call state = yields' call state')
    {calls : List ι} {state : σ} {state' : τ} (start : related state state')
    (along : Along step condition calls state) :
    related (run step calls state).1 (run step' calls state').1 ∧
      (run step calls state).2 = (run step' calls state').2 ∧
      trace step yields calls state = trace step' yields' calls state' := by
  induction calls generalizing state state' with
  | nil => exact ⟨start, rfl, rfl⟩
  | cons call calls ih =>
      obtain ⟨next, returned, achieved⟩ := kept call state state' start along.1
      by_cases returns : (step call state).2 = true
      · obtain ⟨last, ends, rest⟩ := ih next (along.2 returns)
        have returns' : (step' call state').2 = true := returned ▸ returns
        rw [run_cons_of_returns returns, run_cons_of_returns returns', trace, trace, if_pos returns,
          if_pos returns', achieved, rest]
        exact ⟨last, ends, rfl⟩
      · have hangs : (step call state).2 = false := by simpa using returns
        have hangs' : (step' call state').2 = false := returned ▸ hangs
        rw [run_cons_of_hangs hangs, run_cons_of_hangs hangs', trace, trace, if_neg (by simp [hangs]),
          if_neg (by simp [hangs']), achieved]
        exact ⟨next, rfl, rfl⟩

end Machine

end IpUtils
