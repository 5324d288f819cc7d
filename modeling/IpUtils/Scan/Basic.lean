import Mathlib.Data.List.Basic

/-! # Scanners over a bounded window

A scanner reads the unread part of a window of tokens and threads a state. It
either stops early, keeping only the state it has reached, or delivers a value
together with the part of the window it has not read. This is the shape of a
hand-written parser that walks a pointer with a count of the tokens left and
returns as soon as the count runs out.
-/

namespace IpUtils

/-- A computation over the unread tokens of a window and a state. The state
survives an early stop. -/
def Scanner (τ σ α : Type) : Type :=
  List τ → σ → Option (α × List τ) × σ

namespace Scanner

variable {τ σ α β : Type}

/-- Deliver a value without reading. -/
protected def pure (value : α) : Scanner τ σ α :=
  fun window state => (some (value, window), state)

/-- Run a scanner and continue on what it has not read, unless it stops. -/
protected def bind (first : Scanner τ σ α) (next : α → Scanner τ σ β) : Scanner τ σ β :=
  fun window state =>
    match first window state with
    | (none, state') => (none, state')
    | (some (value, rest), state') => next value rest state'

instance : Monad (Scanner τ σ) where
  pure := Scanner.pure
  bind := Scanner.bind

@[simp] theorem pure_apply (value : α) (window : List τ) (state : σ) :
    (pure value : Scanner τ σ α) window state = (some (value, window), state) := rfl

theorem bind_apply (first : Scanner τ σ α) (next : α → Scanner τ σ β) (window : List τ)
    (state : σ) :
    (first >>= next) window state =
      match first window state with
      | (none, state') => (none, state')
      | (some (value, rest), state') => next value rest state' := rfl

/-- A first scanner that succeeds hands its value and what is left to the next. -/
theorem bind_of_some {first : Scanner τ σ α} {next : α → Scanner τ σ β} {window rest : List τ}
    {state state' : σ} {value : α} (ran : first window state = (some (value, rest), state')) :
    (first >>= next) window state = next value rest state' := by
  rw [bind_apply, ran]

/-- A first scanner that stops is the end. -/
theorem bind_of_none {first : Scanner τ σ α} {next : α → Scanner τ σ β} {window : List τ}
    {state state' : σ} (stopped : first window state = (none, state')) :
    (first >>= next) window state = (none, state') := by
  rw [bind_apply, stopped]

/-- A successful sequence splits at the place where its first part ended. -/
theorem bind_eq_some {first : Scanner τ σ α} {next : α → Scanner τ σ β} {window rest : List τ}
    {state state' : σ} {value : β}
    (ran : (first >>= next) window state = (some (value, rest), state')) :
    ∃ middle between between', first window state = (some (middle, between), between') ∧
      next middle between between' = (some (value, rest), state') := by
  rw [bind_apply] at ran
  cases outcome : first window state with
  | mk reply between' =>
      rw [outcome] at ran
      cases reply with
      | none => simp at ran
      | some delivered => exact ⟨delivered.1, delivered.2, between', rfl, ran⟩

instance : LawfulMonad (Scanner τ σ) := .mk' _
  (by
    intro α scanner
    funext window state
    change (scanner >>= pure) window state = scanner window state
    rw [bind_apply]
    cases scanner window state with
    | mk reply state' => cases reply <;> rfl)
  (fun _ _ => rfl)
  (by
    intro α β γ first second third
    funext window state
    simp only [bind_apply]
    cases first window state with
    | mk reply state' => cases reply <;> rfl)

/-! ## Primitive scanners -/

/-- Stop: the caller is told that nothing was delivered. -/
def stop : Scanner τ σ α :=
  fun _ state => (none, state)

/-- Stop after a state update that may use how many tokens are left. -/
def stopWith (update : Nat → σ → σ) : Scanner τ σ α :=
  fun window state => (none, update window.length state)

/-- Update the state without reading. -/
def update (change : σ → σ) : Scanner τ σ Unit :=
  fun window state => (some ((), window), change state)

/-- Stop unless some token is left. -/
def need : Scanner τ σ Unit :=
  fun window state => if window.isEmpty then (none, state) else (some ((), window), state)

/-- The token under the pointer; past the window it is the token that lies there. -/
def current (beyond : τ) : Scanner τ σ τ :=
  fun window state => (some (window.headD beyond, window), state)

/-- Whether a token is left and satisfies a test. -/
def looksAt (test : τ → Bool) : Scanner τ σ Bool :=
  fun window state => (some (window.head?.any test, window), state)

/-- Move past one token. -/
def advance : Scanner τ σ Unit :=
  fun window state => (some ((), window.tail), state)

/-- Move past one token without counting it: the window keeps its length, and the token
behind it comes into it. -/
def slide (beyond : τ) : Scanner τ σ Unit :=
  fun window state => (some ((), window.tail ++ [beyond]), state)

/-- Move past `count` tokens, stopping unless at least one more is left. -/
def advanceBy (count : Nat) : Scanner τ σ Unit :=
  fun window state =>
    if count < window.length then (some ((), window.drop count), state) else (none, state)

/-- Read the longest run of tokens that satisfy a test. -/
def takeWhile (test : τ → Bool) : Scanner τ σ (List τ) :=
  fun window state => (some (window.takeWhile test, window.dropWhile test), state)

/-- Skip the longest run of tokens that satisfy a test. -/
def skipWhile (test : τ → Bool) : Scanner τ σ Unit :=
  fun window state => (some ((), window.dropWhile test), state)

/-- Change the state of a scanner that stops. -/
def onStop (change : σ → σ) (body : Scanner τ σ α) : Scanner τ σ α :=
  fun window state =>
    match body window state with
    | (none, state') => (none, change state')
    | (some delivered, state') => (some delivered, state')

/-- Look at everything that is left without moving. -/
def lookahead (test : List τ → α) : Scanner τ σ α :=
  fun window state => (some (test window, window), state)

/-- Run a scanner on a part of the state. -/
def zoom {ρ : Type} (view : σ → ρ) (put : σ → ρ → σ) (body : Scanner τ ρ α) : Scanner τ σ α :=
  fun window state =>
    match body window (view state) with
    | (reply, part) => (reply, put state part)

/-- Scanning a part of the state, one scanner after the other. -/
theorem zoom_bind {ρ : Type} {view : σ → ρ} {put : σ → ρ → σ}
    (view_put : ∀ state part, view (put state part) = part)
    (put_put : ∀ state part part', put (put state part) part' = put state part')
    (first : Scanner τ ρ α) (next : α → Scanner τ ρ β) :
    zoom view put (first >>= next) =
      zoom view put first >>= fun value => zoom view put (next value) := by
  funext window state
  simp only [zoom, bind_apply]
  cases first window (view state) with
  | mk reply part =>
      cases reply with
      | none => rfl
      | some delivered => simp only [view_put, put_put]

/-- Repeat `body` until `halt` holds of the unread tokens. A round that reads
nothing stops the loop; for the loops of this development no such round exists. -/
def loop (halt : List τ → Bool) (body : α → Scanner τ σ α) (value : α) : Scanner τ σ α :=
  fun window state =>
    if halt window then (some (value, window), state)
    else
      match body value window state with
      | (none, state') => (none, state')
      | (some (value', rest), state') =>
          if rest.length < window.length then loop halt body value' rest state'
          else (none, state')
termination_by window => window.length

/-- One round of a loop. -/
theorem loop_apply (halt : List τ → Bool) (body : α → Scanner τ σ α) (value : α)
    (window : List τ) (state : σ) :
    loop halt body value window state =
      if halt window then (some (value, window), state)
      else
        match body value window state with
        | (none, state') => (none, state')
        | (some (value', rest), state') =>
            if rest.length < window.length then loop halt body value' rest state'
            else (none, state') := by
  rw [loop]

/-! ## What success tells -/

theorem update_eq_some {change : σ → σ} {window rest : List τ} {state state' : σ} {value : Unit}
    (ran : update change window state = (some (value, rest), state')) :
    rest = window ∧ state' = change state := by
  simp only [update, Prod.mk.injEq, Option.some.injEq] at ran
  exact ⟨ran.1.2.symm, ran.2.symm⟩

theorem need_eq_some {window rest : List τ} {state state' : σ} {value : Unit}
    (ran : need window state = (some (value, rest), state')) :
    rest = window ∧ state' = state ∧ window ≠ [] := by
  unfold need at ran
  split at ran
  · cases ran
  · rename_i inhabited
    simp only [Prod.mk.injEq, Option.some.injEq] at ran
    exact ⟨ran.1.2.symm, ran.2.symm, fun empty => inhabited (List.isEmpty_iff.mpr empty)⟩

theorem advance_eq_some {window rest : List τ} {state state' : σ} {value : Unit}
    (ran : advance window state = (some (value, rest), state')) :
    rest = window.tail ∧ state' = state := by
  simp only [advance, Prod.mk.injEq, Option.some.injEq] at ran
  exact ⟨ran.1.2.symm, ran.2.symm⟩

theorem advanceBy_eq_some {count : Nat} {window rest : List τ} {state state' : σ} {value : Unit}
    (ran : advanceBy count window state = (some (value, rest), state')) :
    rest = window.drop count ∧ state' = state ∧ count < window.length := by
  unfold advanceBy at ran
  split at ran
  · rename_i enough
    simp only [Prod.mk.injEq, Option.some.injEq] at ran
    exact ⟨ran.1.2.symm, ran.2.symm, enough⟩
  · cases ran

theorem skipWhile_eq_some {test : τ → Bool} {window rest : List τ} {state state' : σ} {value : Unit}
    (ran : skipWhile test window state = (some (value, rest), state')) :
    rest = window.dropWhile test ∧ state' = state := by
  simp only [skipWhile, Prod.mk.injEq, Option.some.injEq] at ran
  exact ⟨ran.1.2.symm, ran.2.symm⟩

theorem onStop_eq_some {change : σ → σ} {body : Scanner τ σ α} {window rest : List τ}
    {state state' : σ} {value : α}
    (ran : onStop change body window state = (some (value, rest), state')) :
    body window state = (some (value, rest), state') := by
  unfold onStop at ran
  split at ran
  · cases ran
  · rename_i outcome
    exact outcome.trans ran

/-- What a scanner of a part has done, it has done to that part. -/
theorem zoom_eq_some {ρ : Type} {view : σ → ρ} {put : σ → ρ → σ} {body : Scanner τ ρ α}
    {window rest : List τ} {state state' : σ} {value : α}
    (ran : zoom view put body window state = (some (value, rest), state')) :
    ∃ part, body window (view state) = (some (value, rest), part) ∧ state' = put state part := by
  cases outcome : body window (view state) with
  | mk reply part =>
      simp only [zoom, outcome, Prod.mk.injEq] at ran
      exact ⟨part, by rw [ran.1], ran.2.symm⟩

/-- Repeat `body` until it delivers a result, stopping when nothing is left. A
round that reads nothing stops the loop as well. -/
def iterate (body : α → Scanner τ σ (α ⊕ β)) (value : α) : Scanner τ σ β :=
  fun window state =>
    if window.isEmpty then (none, state)
    else
      match body value window state with
      | (none, state') => (none, state')
      | (some (.inr result, rest), state') => (some (result, rest), state')
      | (some (.inl value', rest), state') =>
          if rest.length < window.length then iterate body value' rest state'
          else (none, state')
termination_by window => window.length

/-- One round of an iteration: it stops at the end of the window. -/
theorem iterate_apply (body : α → Scanner τ σ (α ⊕ β)) (value : α) (window : List τ)
    (state : σ) :
    iterate body value window state =
      if window.isEmpty then (none, state)
      else
        match body value window state with
        | (none, state') => (none, state')
        | (some (.inr result, rest), state') => (some (result, rest), state')
        | (some (.inl value', rest), state') =>
            if rest.length < window.length then iterate body value' rest state'
            else (none, state') := by
  rw [iterate]

/-! ## Invariants of the state -/

/-- A scanner keeps a property of the state, whether or not it stops. -/
def Keeps (inv : σ → Prop) (scanner : Scanner τ σ α) : Prop :=
  ∀ window state, inv state → inv (scanner window state).2

variable {inv : σ → Prop}

/-- An invariant goes from one scanner to the next. -/
theorem Keeps.bind {first : Scanner τ σ α} {next : α → Scanner τ σ β}
    (head : Keeps inv first) (tail : ∀ value, Keeps inv (next value)) :
    Keeps inv (first >>= next) := by
  intro window state holds
  have between := head window state holds
  rw [bind_apply]
  cases outcome : first window state with
  | mk reply state' =>
      rw [outcome] at between
      cases reply with
      | none => exact between
      | some delivered => exact tail delivered.1 delivered.2 state' between

theorem Keeps.update {change : σ → σ} (kept : ∀ state, inv state → inv (change state)) :
    Keeps inv (Scanner.update change : Scanner τ σ Unit) :=
  fun _ state holds => kept state holds

theorem Keeps.stopWith {change : Nat → σ → σ}
    (kept : ∀ left state, inv state → inv (change left state)) :
    Keeps inv (Scanner.stopWith change : Scanner τ σ α) :=
  fun _ state holds => kept _ state holds

/-- The change that is made on stopping has to keep the invariant too. -/
theorem Keeps.onStop {change : σ → σ} {body : Scanner τ σ α} (inner : Keeps inv body)
    (kept : ∀ state, inv state → inv (change state)) : Keeps inv (Scanner.onStop change body) := by
  intro window state holds
  have after := inner window state holds
  unfold Scanner.onStop
  cases outcome : body window state with
  | mk reply state' =>
      rw [outcome] at after
      cases reply with
      | none => exact kept _ after
      | some delivered => exact after

theorem Keeps.ite {condition : Prop} [Decidable condition] {left right : Scanner τ σ α}
    (whenTrue : Keeps inv left) (whenFalse : Keeps inv right) :
    Keeps inv (if condition then left else right) := by
  split
  · exact whenTrue
  · exact whenFalse

theorem Keeps.pure (value : α) : Keeps inv (Pure.pure value : Scanner τ σ α) :=
  fun _ _ holds => holds

theorem Keeps.stop : Keeps inv (Scanner.stop : Scanner τ σ α) :=
  fun _ _ holds => holds

theorem Keeps.need : Keeps inv (Scanner.need : Scanner τ σ Unit) := by
  intro window state holds
  unfold Scanner.need
  split <;> exact holds

theorem Keeps.current (beyond : τ) : Keeps inv (Scanner.current beyond : Scanner τ σ τ) :=
  fun _ _ holds => holds

theorem Keeps.looksAt (test : τ → Bool) : Keeps inv (Scanner.looksAt test : Scanner τ σ Bool) :=
  fun _ _ holds => holds

/-- A scanner of a part keeps an invariant of the part that the whole implies and follows from. -/
theorem Keeps.zoom {ρ : Type} {part : ρ → Prop} {view : σ → ρ} {put : σ → ρ → σ}
    {body : Scanner τ ρ α} (inner : Keeps part body)
    (enter : ∀ state, inv state → part (view state))
    (leave : ∀ state value, inv state → part value → inv (put state value)) :
    Keeps inv (Scanner.zoom view put body) :=
  fun window state holds => leave state _ holds (inner window (view state) (enter state holds))

theorem Keeps.lookahead (test : List τ → α) :
    Keeps inv (Scanner.lookahead test : Scanner τ σ α) :=
  fun _ _ holds => holds

theorem Keeps.advance : Keeps inv (Scanner.advance : Scanner τ σ Unit) :=
  fun _ _ holds => holds

theorem Keeps.slide (beyond : τ) : Keeps inv (Scanner.slide beyond : Scanner τ σ Unit) :=
  fun _ _ holds => holds

theorem Keeps.advanceBy (count : Nat) :
    Keeps inv (Scanner.advanceBy count : Scanner τ σ Unit) := by
  intro window state holds
  unfold Scanner.advanceBy
  split <;> exact holds

theorem Keeps.takeWhile (test : τ → Bool) :
    Keeps inv (Scanner.takeWhile test : Scanner τ σ (List τ)) :=
  fun _ _ holds => holds

theorem Keeps.skipWhile (test : τ → Bool) :
    Keeps inv (Scanner.skipWhile test : Scanner τ σ Unit) :=
  fun _ _ holds => holds

/-- An invariant of one round is one of the loop. -/
theorem Keeps.loop {halt : List τ → Bool} {body : α → Scanner τ σ α}
    (round : ∀ value, Keeps inv (body value)) (value : α) :
    Keeps inv (Scanner.loop halt body value) := by
  intro window
  induction size : window.length using Nat.strongRecOn generalizing value window with
  | ind size ih =>
      intro state holds
      rw [loop_apply]
      split
      · exact holds
      · have after := round value window state holds
        cases outcome : body value window state with
        | mk reply state' =>
            rw [outcome] at after
            cases reply with
            | none => exact after
            | some delivered =>
                simp only
                split
                · rename_i shorter
                  exact ih _ (size ▸ shorter) _ delivered.2 rfl state' after
                · exact after

/-- An invariant of one round is one of the iteration. -/
theorem Keeps.iterate {body : α → Scanner τ σ (α ⊕ β)} (round : ∀ value, Keeps inv (body value))
    (value : α) : Keeps inv (Scanner.iterate body value) := by
  intro window
  induction size : window.length using Nat.strongRecOn generalizing value window with
  | ind size ih =>
      intro state holds
      rw [iterate_apply]
      split
      · exact holds
      · have after := round value window state holds
        rcases outcome : body value window state with ⟨none_ | ⟨value' | result, rest⟩, state'⟩
        · rw [outcome] at after
          exact after
        · rw [outcome] at after
          dsimp only
          split
          · rename_i shorter
            exact ih _ (size ▸ shorter) _ rest rfl state' after
          · exact after
        · rw [outcome] at after
          exact after

/-- When the scanner stops, the invariant still holds. -/
def StopsIn (inv : σ → Prop) (scanner : Scanner τ σ α) : Prop :=
  ∀ window state, inv state → (scanner window state).1 = none → inv (scanner window state).2

/-- The first scanner keeps the invariant, and the second stops in it. -/
theorem StopsIn.bind {first : Scanner τ σ α} {next : α → Scanner τ σ β} (head : Keeps inv first)
    (tail : ∀ value, StopsIn inv (next value)) : StopsIn inv (first >>= next) := by
  intro window state holds stopped
  have after := head window state holds
  rw [bind_apply] at stopped ⊢
  cases outcome : first window state with
  | mk reply state' =>
      rw [outcome] at after stopped
      cases reply with
      | none => exact after
      | some delivered => exact tail _ _ _ after stopped

/-- Behind a part that may break the invariant, a stop restores it. -/
theorem StopsIn.bind_of_stops {first : Scanner τ σ α} {next : α → Scanner τ σ β}
    (head : StopsIn inv first)
    (tail : ∀ value window state, (next value window state).1 = none →
      inv (next value window state).2) : StopsIn inv (first >>= next) := by
  intro window state holds stopped
  have after := head window state holds
  rw [bind_apply] at stopped ⊢
  cases outcome : first window state with
  | mk reply state' =>
      rw [outcome] at after stopped
      cases reply with
      | none => exact after rfl
      | some delivered => exact tail _ _ _ stopped

/-- The change that is made on stopping brings the state where it should be. -/
theorem onStop_stops {change : σ → σ} (restores : ∀ state, inv (change state))
    (body : Scanner τ σ α) (window : List τ) (state : σ)
    (stopped : (Scanner.onStop change body window state).1 = none) :
    inv (Scanner.onStop change body window state).2 := by
  unfold Scanner.onStop at stopped ⊢
  cases outcome : body window state with
  | mk reply state' =>
      rw [outcome] at stopped
      cases reply with
      | none => exact restores state'
      | some delivered => cases stopped

end Scanner

end IpUtils
