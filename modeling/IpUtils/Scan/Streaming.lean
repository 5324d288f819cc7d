import IpUtils.Scan.Locality

/-! # Reading a text that arrives in pieces

`Reads` says which tokens a scanner consumes, where it stops and what it
delivers, whatever follows. `Starves` says that it stops early on every nonempty
prefix of those tokens, with a state that still satisfies a given property.
`Feeds` is both at once. It is closed under sequencing and loops, so one proof
about the pieces of a text yields the run on the whole text and the outcome on
every prefix of it.
-/

namespace IpUtils

namespace Scanner

variable {τ σ α β : Type}

/-- The scanner consumes `text` and stops before `next`, whatever follows. -/
def Reads (scanner : Scanner τ σ α) (text : List τ) (next : τ) (state : σ) (value : α)
    (state' : σ) : Prop :=
  ∀ rest, scanner (text ++ next :: rest) state = (some (value, next :: rest), state')

/-- The scanner stops early on every nonempty prefix of `text`. -/
def Starves (scanner : Scanner τ σ α) (text : List τ) (state : σ) (quiet : σ → Prop) : Prop :=
  ∀ window, window ≠ [] → window <+: text →
    ∃ state', scanner window state = (none, state') ∧ quiet state'

/-- The scanner consumes exactly `text`, and waits for more on every nonempty
prefix of it. -/
structure Feeds (scanner : Scanner τ σ α) (text : List τ) (next : τ) (state : σ) (value : α)
    (state' : σ) (quiet : σ → Prop) : Prop where
  reads : Reads scanner text next state value state'
  starves : Starves scanner text state quiet

variable {quiet : σ → Prop} {next : τ} {state state' state'' : σ}

/-- The token that comes first is that of the text, or the next one. -/
theorem append_cons_eq_headD (text : List τ) (next : τ) (rest : List τ) :
    text ++ next :: rest = text.headD next :: (text ++ next :: rest).tail := by
  cases text <;> rfl

/-- A prefix of a concatenation ends in the first or in the second part. -/
theorem prefix_append_cases {window text₁ text₂ : List τ} (front : window <+: text₁ ++ text₂) :
    window <+: text₁ ∨ ∃ more, window = text₁ ++ more ∧ more <+: text₂ := by
  obtain ⟨left, whole⟩ := front
  rcases List.append_eq_append_iff.mp whole with ⟨inside, rfl, _⟩ | ⟨more, rfl, rfl⟩
  · exact .inl (List.prefix_append _ _)
  · exact .inr ⟨more, rfl, List.prefix_append _ _⟩

/-- A text that is read in two parts. -/
theorem Reads.bind {first : Scanner τ σ α} {continue_ : α → Scanner τ σ β}
    {text₁ text₂ : List τ} {value₁ : α} {value₂ : β}
    (head : Reads first text₁ (text₂.headD next) state value₁ state')
    (tail : Reads (continue_ value₁) text₂ next state' value₂ state'') :
    Reads (first >>= continue_) (text₁ ++ text₂) next state value₂ state'' := by
  intro rest
  have here := head (text₂ ++ next :: rest).tail
  rw [← append_cons_eq_headD] at here
  rw [List.append_assoc, bind_of_some here]
  exact tail rest

/-- A part of the text ends in the first scanner's part or in the second's. -/
theorem Starves.bind {first : Scanner τ σ α} {continue_ : α → Scanner τ σ β}
    {text₁ text₂ : List τ} {value₁ : α}
    (head : Reads first text₁ (text₂.headD next) state value₁ state')
    (waits : Starves first text₁ state quiet)
    (tail : Starves (continue_ value₁) text₂ state' quiet) :
    Starves (first >>= continue_) (text₁ ++ text₂) state quiet := by
  intro window inhabited front
  rcases prefix_append_cases front with inside | ⟨more, rfl, beyond⟩
  · obtain ⟨stopped, outcome, calm⟩ := waits window inhabited inside
    exact ⟨stopped, bind_of_none outcome, calm⟩
  · cases more with
    | nil =>
        rw [List.append_nil] at inhabited ⊢
        obtain ⟨stopped, outcome, calm⟩ := waits text₁ inhabited List.prefix_rfl
        exact ⟨stopped, bind_of_none outcome, calm⟩
    | cons token more =>
        obtain ⟨left, rfl⟩ := beyond
        have here := head more
        rw [List.cons_append, List.headD_cons] at here
        obtain ⟨stopped, outcome, calm⟩ :=
          tail (token :: more) (List.cons_ne_nil _ _) (List.prefix_append _ _)
        exact ⟨stopped, (bind_of_some here).trans outcome, calm⟩

/-- Texts that feed two scanners, one behind the other. -/
theorem Feeds.bind {first : Scanner τ σ α} {continue_ : α → Scanner τ σ β} {value₁ : α}
    {value₂ : β} (text₁ text₂ : List τ)
    (head : Feeds first text₁ (text₂.headD next) state value₁ state' quiet)
    (tail : Feeds (continue_ value₁) text₂ next state' value₂ state'' quiet) :
    Feeds (first >>= continue_) (text₁ ++ text₂) next state value₂ state'' quiet where
  reads := head.reads.bind tail.reads
  starves := Starves.bind head.reads head.starves tail.starves

/-- A scanner that consumes nothing feeds vacuously. -/
theorem Reads.feeds_nil {scanner : Scanner τ σ α} {value : α}
    (reads : Reads scanner [] next state value state') :
    Feeds scanner [] next state value state' quiet where
  reads := reads
  starves := by
    intro window inhabited front
    exact absurd (List.prefix_nil.mp front) inhabited

theorem Feeds.pure (value : α) :
    Feeds (Pure.pure value : Scanner τ σ α) [] next state value state quiet :=
  Reads.feeds_nil fun _ => rfl

theorem Feeds.update (change : σ → σ) :
    Feeds (Scanner.update change : Scanner τ σ Unit) [] next state () (change state) quiet :=
  Reads.feeds_nil fun _ => rfl

theorem Feeds.need :
    Feeds (Scanner.need : Scanner τ σ Unit) [] next state () state quiet :=
  Reads.feeds_nil fun _ => rfl

theorem Feeds.onStop {body : Scanner τ σ α} {text : List τ} {value : α} (change : σ → σ)
    (inner : Feeds body text next state value state' quiet)
    (kept : ∀ state, quiet state → quiet (change state)) :
    Feeds (Scanner.onStop change body) text next state value state' quiet where
  reads := by
    intro rest
    unfold Scanner.onStop
    rw [inner.reads rest]
  starves := by
    intro window inhabited front
    obtain ⟨stopped, outcome, calm⟩ := inner.starves window inhabited front
    refine ⟨change stopped, ?_, kept _ calm⟩
    unfold Scanner.onStop
    rw [outcome]

/-! ## Steps that check for more data -/

/-- Move past one token; stop if it was the last one. -/
def step : Scanner τ σ Unit :=
  advance >>= fun _ => need

/-- Skip a run of tokens; stop if nothing follows it. -/
def skip (test : τ → Bool) : Scanner τ σ Unit :=
  skipWhile test >>= fun _ => need

theorem step_eq_some {window rest : List τ} {value : Unit}
    (ran : step window state = (some (value, rest), state')) :
    rest = window.tail ∧ state' = state ∧ rest ≠ [] := by
  obtain ⟨_, between, between', moved, left⟩ := bind_eq_some ran
  obtain ⟨rfl, rfl⟩ := advance_eq_some moved
  obtain ⟨rfl, rfl, inhabited⟩ := need_eq_some left
  exact ⟨rfl, rfl, inhabited⟩

theorem skip_eq_some {test : τ → Bool} {window rest : List τ} {value : Unit}
    (ran : skip test window state = (some (value, rest), state')) :
    rest = window.dropWhile test ∧ state' = state ∧ rest ≠ [] := by
  obtain ⟨_, between, between', moved, left⟩ := bind_eq_some ran
  obtain ⟨rfl, rfl⟩ := skipWhile_eq_some moved
  obtain ⟨rfl, rfl, inhabited⟩ := need_eq_some left
  exact ⟨rfl, rfl, inhabited⟩

theorem Local.step : Local (Scanner.step : Scanner τ σ Unit) :=
  Local.advance.bind fun _ => Local.need

theorem Local.skip (test : τ → Bool) : Local (Scanner.skip test : Scanner τ σ Unit) :=
  (Local.skipWhile test).bind fun _ => Local.need

theorem Keeps.step {inv : σ → Prop} : Keeps inv (Scanner.step : Scanner τ σ Unit) :=
  Keeps.advance.bind fun _ => Keeps.need

theorem Keeps.skip {inv : σ → Prop} (test : τ → Bool) :
    Keeps inv (Scanner.skip test : Scanner τ σ Unit) :=
  (Keeps.skipWhile test).bind fun _ => Keeps.need

/-- A token is fed and another has to follow. -/
theorem Feeds.step (token : τ) (calm : quiet state) :
    Feeds (Scanner.step : Scanner τ σ Unit) [token] next state () state quiet where
  reads := fun _ => rfl
  starves := by
    intro window inhabited front
    have whole : window = [token] := by
      obtain ⟨first, rest, rfl⟩ := List.exists_cons_of_ne_nil inhabited
      obtain ⟨rfl, empty⟩ := List.cons_prefix_cons.mp front
      rw [List.prefix_nil.mp empty]
    exact ⟨state, by rw [whole]; rfl, calm⟩

/-- A run of tokens that pass a test, with nothing else after it. -/
theorem takeWhile_of_all {test : τ → Bool} {text : List τ}
    (passes : ∀ token ∈ text, test token = true) :
    text.takeWhile test = text ∧ text.dropWhile test = [] :=
  ⟨List.takeWhile_eq_self_iff.mpr passes, List.dropWhile_eq_nil_iff.mpr passes⟩

/-- A run of tokens that pass a test, followed by one that fails it. -/
theorem takeWhile_of_delimited {test : τ → Bool} {text : List τ}
    (passes : ∀ token ∈ text, test token = true) (fails : test next = false) (rest : List τ) :
    (text ++ next :: rest).takeWhile test = text ∧
      (text ++ next :: rest).dropWhile test = next :: rest := by
  constructor
  · rw [List.takeWhile_append_of_pos passes, List.takeWhile_cons_of_neg (by simp [fails]),
      List.append_nil]
  · rw [List.dropWhile_append_of_pos passes, List.dropWhile_cons_of_neg (by simp [fails])]

/-- A run of tokens is fed, and ends at the next one. -/
theorem Feeds.skip {test : τ → Bool} {text : List τ}
    (passes : ∀ token ∈ text, test token = true) (fails : test next = false)
    (calm : quiet state) :
    Feeds (Scanner.skip test : Scanner τ σ Unit) text next state () state quiet where
  reads := by
    intro rest
    simp only [Scanner.skip, bind_apply, Scanner.skipWhile,
      (takeWhile_of_delimited passes fails rest).2, Scanner.need, List.isEmpty_cons,
      Bool.false_eq_true, ↓reduceIte]
  starves := by
    intro window _ front
    have inside : ∀ token ∈ window, test token = true :=
      fun token member => passes token (front.subset member)
    refine ⟨state, ?_, calm⟩
    simp only [Scanner.skip, bind_apply, Scanner.skipWhile, (takeWhile_of_all inside).2,
      Scanner.need, List.isEmpty_nil, ↓reduceIte]

/-! ## Loops -/

/-- A loop that is over before its first round. -/
theorem Feeds.loop_halt {halt : List τ → Bool} {body : α → Scanner τ σ α} {value : α}
    (halts : ∀ rest, halt (next :: rest) = true) :
    Feeds (Scanner.loop halt body value) [] next state value state quiet :=
  Reads.feeds_nil fun rest => by
    rw [loop_apply, List.nil_append, if_pos (halts rest)]

/-- A text for the first round, and one for the others. -/
theorem Feeds.loop_round {halt : List τ → Bool} {body : α → Scanner τ σ α} {value middle result : α}
    {text₁ text₂ : List τ} (inhabited : text₁ ≠ [])
    (running : ∀ rest, halt (text₁.headD next :: rest) = false)
    (round : Feeds (body value) text₁ (text₂.headD next) state middle state' quiet)
    (others : Feeds (Scanner.loop halt body middle) text₂ next state' result state'' quiet) :
    Feeds (Scanner.loop halt body value) (text₁ ++ text₂) next state result state'' quiet := by
  obtain ⟨token, more, rfl⟩ := List.exists_cons_of_ne_nil inhabited
  simp only [List.headD_cons] at running
  -- one round on `text₁` followed by `left`, whose head is the token the round stops at
  have unroll : ∀ left, left = text₂.headD next :: left.tail →
      Scanner.loop halt body value (token :: more ++ left) state =
        Scanner.loop halt body middle left state' := by
    intro left shape
    have here := round.reads left.tail
    rw [← shape] at here
    rw [loop_apply, List.cons_append, running, ← List.cons_append, here]
    simp only [Bool.false_eq_true, ↓reduceIte]
    rw [if_pos (by simp only [List.length_append, List.length_cons]; omega)]
  constructor
  · intro rest
    rw [List.append_assoc, unroll _ (append_cons_eq_headD text₂ next rest)]
    exact others.reads rest
  · intro window some_ front
    rcases prefix_append_cases front with inside | ⟨left, rfl, beyond⟩
    · obtain ⟨stopped, outcome, calm⟩ := round.starves window some_ inside
      refine ⟨stopped, ?_, calm⟩
      obtain ⟨first, rest, rfl⟩ := List.exists_cons_of_ne_nil some_
      obtain rfl : first = token := (List.cons_prefix_cons.mp inside).1
      rw [loop_apply, running, outcome]
      simp only [Bool.false_eq_true, ↓reduceIte]
    · cases left with
      | nil =>
          obtain ⟨stopped, outcome, calm⟩ :=
            round.starves (token :: more) (List.cons_ne_nil _ _) List.prefix_rfl
          refine ⟨stopped, ?_, calm⟩
          rw [List.append_nil, loop_apply, running, outcome]
          simp only [Bool.false_eq_true, ↓reduceIte]
      | cons head left =>
          obtain ⟨tail, whole⟩ := beyond
          obtain ⟨stopped, outcome, calm⟩ :=
            others.starves (head :: left) (List.cons_ne_nil _ _) ⟨tail, whole⟩
          refine ⟨stopped, ?_, calm⟩
          rw [unroll _ (by rw [← whole]; rfl)]
          exact outcome

end Scanner

end IpUtils
