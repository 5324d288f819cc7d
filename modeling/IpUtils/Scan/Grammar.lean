import IpUtils.Scan.Streaming

/-! # Scanners that recognize a grammar

A grammar tells what is left of a text behind a part of it, or that the text does not begin with
the part. A scanner recognizes a grammar when it goes on exactly behind such a part, whatever the state,
and a view of the state stays as it is when it does.
-/

namespace IpUtils

namespace Scanner

variable {τ σ α β κ : Type}

/-- What a text leaves behind a part, if it begins with the part. -/
abbrev Grammar (τ : Type) : Type :=
  List τ → Option (List τ)

namespace Grammar

/-- Some token is left. -/
def some_ : Grammar τ :=
  fun text => if text.isEmpty then none else some text

/-- A token with another one behind it. -/
def token : Grammar τ :=
  fun text => some_ text.tail

/-- The longest run of tokens that satisfy a test. -/
def run (test : τ → Bool) : Grammar τ :=
  fun text => some (text.dropWhile test)

/-- The longest run of tokens that satisfy a test, with a token behind it. -/
def word (test : τ → Bool) : Grammar τ :=
  fun text => some_ (text.dropWhile test)

/-- A number of tokens with another one behind them. -/
def many (count : Nat) : Grammar τ :=
  fun text => if count < text.length then some (text.drop count) else none

/-- A test of the text. -/
def guard (test : List τ → Bool) : Grammar τ :=
  fun text => if test text then some text else none

/-- One grammar or another, as a test of the text says. -/
def cond (test : List τ → Bool) (first second : Grammar τ) : Grammar τ :=
  fun text => if test text then first text else second text

/-- One part behind another. -/
def seq (first second : Grammar τ) : Grammar τ :=
  fun text => (first text).bind second

/-- One part after the other until the text satisfies a test. -/
def rounds (halt : List τ → Bool) (round : Grammar τ) : Grammar τ :=
  fun text =>
    if halt text then some text
    else
      match round text with
      | none => none
      | some rest => if rest.length < text.length then rounds halt round rest else none
termination_by text => text.length

theorem guard_of_pos {test : List τ → Bool} {text : List τ} (holds : test text = true) :
    guard test text = some text :=
  if_pos holds

theorem guard_of_neg {test : List τ → Bool} {text : List τ} (fails : ¬test text = true) :
    guard test text = none :=
  if_neg fails

/-- One round; it has to read something. -/
theorem rounds_apply (halt : List τ → Bool) (round : Grammar τ) (text : List τ) :
    rounds halt round text =
      if halt text then some text
      else
        match round text with
        | none => none
        | some rest => if rest.length < text.length then rounds halt round rest else none := by
  rw [rounds]

end Grammar

/-- The scanner goes on behind a part exactly when the text begins with it, and the view of the
state stays. -/
structure Recognizes (view : σ → κ) (grammar : Grammar τ) (scanner : Scanner τ σ α) : Prop where
  stops : ∀ {text}, grammar text = none → ∀ state, (scanner text state).1 = none
  goes : ∀ {text rest}, grammar text = some rest → ∀ state, ∃ value state',
    scanner text state = (some (value, rest), state') ∧ view state' = view state

namespace Recognizes

variable {view : σ → κ} {grammar second : Grammar τ} {scanner : Scanner τ σ α}

/-- What a scanner has read is what its grammar reads. -/
theorem eq_some (recognizes : Recognizes view grammar scanner) {text rest : List τ} {state state' : σ}
    {value : α} (ran : scanner text state = (some (value, rest), state')) :
    grammar text = some rest ∧ view state' = view state := by
  cases left : grammar text with
  | none =>
      have stopped := recognizes.stops left state
      rw [ran] at stopped
      cases stopped
  | some rest' =>
      obtain ⟨value', state'', ran', same⟩ := recognizes.goes left state
      rw [ran] at ran'
      cases ran'
      exact ⟨rfl, same⟩

/-- What is seen of the state may be forgotten. -/
theorem forget (recognizes : Recognizes view grammar scanner) :
    Recognizes (fun _ => ()) grammar scanner where
  stops := recognizes.stops
  goes := by
    intro text rest read state
    obtain ⟨value, state', ran, -⟩ := recognizes.goes read state
    exact ⟨value, state', ran, rfl⟩

/-- Grammars follow each other as the scanners do. -/
theorem bind {first : Scanner τ σ α} {next : α → Scanner τ σ β} (head : Recognizes view grammar first)
    (tail : ∀ value, Recognizes view second (next value)) :
    Recognizes view (grammar.seq second) (first >>= next) := by
  constructor
  · intro text stopped state
    cases left : grammar text with
    | none =>
        have none_ := head.stops left state
        rcases outcome : first text state with ⟨reply, state'⟩
        rw [outcome] at none_
        subst none_
        rw [bind_of_none outcome]
    | some rest =>
        obtain ⟨value, state', ran, -⟩ := head.goes left state
        rw [bind_of_some ran]
        refine (tail value).stops ?_ state'
        simpa [Grammar.seq, left] using stopped
  · intro text rest read state
    cases left : grammar text with
    | none => simp [Grammar.seq, left] at read
    | some between =>
        obtain ⟨value, state', ran, same⟩ := head.goes left state
        rw [bind_of_some ran]
        obtain ⟨value', state'', ran', same'⟩ :=
          (tail value).goes (by simpa [Grammar.seq, left] using read) state'
        exact ⟨value', state'', ran', same'.trans same⟩

/-- Something behind that reads nothing. -/
theorem followed {first : Scanner τ σ α} {next : α → Scanner τ σ β}
    (head : Recognizes view grammar first) (tail : ∀ value, Recognizes view some (next value)) :
    Recognizes view grammar (first >>= next) := by
  have both := head.bind tail
  have same : grammar.seq some = grammar := funext fun text => Option.bind_fun_some (grammar text)
  rwa [same] at both

/-- Something in front that reads nothing. -/
theorem preceded {first : Scanner τ σ α} {next : α → Scanner τ σ β} (head : Recognizes view some first)
    (tail : ∀ value, Recognizes view grammar (next value)) : Recognizes view grammar (first >>= next) :=
  head.bind tail

/-- A scanner that only moves. -/
theorem of_window (move : List τ → α × List τ) :
    Recognizes view (fun text => some (move text).2)
      (fun text state => (some (move text), state) : Scanner τ σ α) where
  stops := by simp
  goes := by
    intro text rest read state
    cases read
    exact ⟨_, state, rfl, rfl⟩

/-- A scanner that looks ahead to choose between two. -/
theorem cond {test : List τ → Bool} {first next : Scanner τ σ α} (head : Recognizes view grammar first)
    (tail : Recognizes view second next) :
    Recognizes view (Grammar.cond test grammar second)
      (Scanner.lookahead test >>= fun seen => if seen then first else next) := by
  have apply (text : List τ) (state : σ) :
      (Scanner.lookahead test >>= fun seen => if seen then first else next) text state =
        if test text then first text state else next text state := by
    rw [bind_apply, Scanner.lookahead]
    dsimp only
    split
    · rfl
    · rfl
  constructor
  · intro text stopped state
    rw [apply]
    unfold Grammar.cond at stopped
    split
    · rename_i holds
      rw [if_pos holds] at stopped
      exact head.stops stopped state
    · rename_i fails
      rw [if_neg fails] at stopped
      exact tail.stops stopped state
  · intro text rest read state
    rw [apply]
    unfold Grammar.cond at read
    split
    · rename_i holds
      rw [if_pos holds] at read
      exact head.goes read state
    · rename_i fails
      rw [if_neg fails] at read
      exact tail.goes read state

theorem pure (value : α) : Recognizes view some (Pure.pure value : Scanner τ σ α) where
  stops := by simp
  goes := by
    intro text rest read state
    cases read
    exact ⟨value, state, rfl, rfl⟩

theorem stop : Recognizes view (fun _ => none) (Scanner.stop : Scanner τ σ α) where
  stops := fun _ _ => rfl
  goes := by simp

theorem stopWith (change : Nat → σ → σ) :
    Recognizes view (fun _ => none) (Scanner.stopWith change : Scanner τ σ α) where
  stops := fun _ _ => rfl
  goes := by simp

theorem update {change : σ → σ} (same : ∀ state, view (change state) = view state) :
    Recognizes view some (Scanner.update change : Scanner τ σ Unit) where
  stops := by simp
  goes := by
    intro text rest read state
    cases read
    exact ⟨(), change state, rfl, same state⟩

theorem need : Recognizes view Grammar.some_ (Scanner.need : Scanner τ σ Unit) where
  stops := by
    intro text stopped state
    unfold Grammar.some_ at stopped
    unfold Scanner.need
    split at stopped
    · rename_i empty
      rw [if_pos empty]
    · cases stopped
  goes := by
    intro text rest read state
    unfold Grammar.some_ at read
    split at read
    · cases read
    · rename_i left
      cases read
      exact ⟨(), state, by rw [Scanner.need, if_neg left], rfl⟩

theorem advance : Recognizes view (fun text => some text.tail) (Scanner.advance : Scanner τ σ Unit) :=
  of_window fun text => ((), text.tail)

theorem advanceBy (count : Nat) :
    Recognizes view (Grammar.many count) (Scanner.advanceBy count : Scanner τ σ Unit) where
  stops := by
    intro text stopped state
    unfold Grammar.many at stopped
    split at stopped
    · cases stopped
    · rename_i few
      rw [Scanner.advanceBy, if_neg few]
  goes := by
    intro text rest read state
    unfold Grammar.many at read
    split at read
    · rename_i enough
      cases read
      exact ⟨(), state, by rw [Scanner.advanceBy, if_pos enough], rfl⟩
    · cases read

theorem takeWhile (test : τ → Bool) :
    Recognizes view (Grammar.run test) (Scanner.takeWhile test : Scanner τ σ (List τ)) :=
  of_window fun text => (text.takeWhile test, text.dropWhile test)

theorem skipWhile (test : τ → Bool) :
    Recognizes view (Grammar.run test) (Scanner.skipWhile test : Scanner τ σ Unit) :=
  of_window fun text => ((), text.dropWhile test)

theorem step : Recognizes view Grammar.token (Scanner.step : Scanner τ σ Unit) :=
  advance.bind fun _ => need

theorem skip (test : τ → Bool) :
    Recognizes view (Grammar.word test) (Scanner.skip test : Scanner τ σ Unit) :=
  (skipWhile test).bind fun _ => need

/-- What is changed on stopping is nothing that was read. -/
theorem onStop (change : σ → σ) (recognizes : Recognizes view grammar scanner) :
    Recognizes view grammar (Scanner.onStop change scanner) where
  stops := by
    intro text stopped state
    have none_ := recognizes.stops stopped state
    unfold Scanner.onStop
    split
    · rfl
    · rename_i outcome
      rw [outcome] at none_
      cases none_
  goes := by
    intro text rest read state
    obtain ⟨value, state', ran, same⟩ := recognizes.goes read state
    exact ⟨value, state', by rw [Scanner.onStop, ran], same⟩

/-- A scanner of a part of the state reads what it reads alone. -/
theorem zoom {ρ κ' : Type} {inner : ρ → κ'} {look : σ → ρ} {put : σ → ρ → σ}
    {scanner : Scanner τ ρ α} (recognizes : Recognizes inner grammar scanner)
    (same : ∀ state part, inner part = inner (look state) → view (put state part) = view state) :
    Recognizes view grammar (Scanner.zoom look put scanner) where
  stops := fun stopped state => recognizes.stops stopped (look state)
  goes := by
    intro text rest read state
    obtain ⟨value, part, ran, kept⟩ := recognizes.goes read (look state)
    exact ⟨value, put state part, by rw [Scanner.zoom, ran], same state part kept⟩

/-- The loop reads one round after the other. -/
theorem loop {halt : List τ → Bool} {body : α → Scanner τ σ α} {round : Grammar τ}
    (recognizes : ∀ value, Recognizes view round (body value)) (value : α) :
    Recognizes view (Grammar.rounds halt round) (Scanner.loop halt body value) := by
  constructor
  · intro text stopped state
    induction size : text.length using Nat.strongRecOn generalizing text value state with
    | ind size ih =>
        rw [Grammar.rounds_apply] at stopped
        rw [loop_apply]
        by_cases halts : halt text = true
        · rw [if_pos halts] at stopped
          cases stopped
        rw [if_neg halts] at stopped ⊢
        cases left : round text with
        | none =>
            have none_ := (recognizes value).stops left state
            rcases outcome : body value text state with ⟨reply, state'⟩
            rw [outcome] at none_
            subst none_
            rfl
        | some rest =>
            obtain ⟨value', state', ran, -⟩ := (recognizes value).goes left state
            rw [left] at stopped
            rw [ran]
            dsimp only at stopped ⊢
            by_cases shorter : rest.length < text.length
            · rw [if_pos shorter] at stopped ⊢
              exact ih rest.length (size ▸ shorter) value' stopped state' rfl
            · rw [if_neg shorter]
  · intro text rest read state
    induction size : text.length using Nat.strongRecOn generalizing text value state with
    | ind size ih =>
        rw [Grammar.rounds_apply] at read
        rw [loop_apply]
        by_cases halts : halt text = true
        · rw [if_pos halts] at read ⊢
          cases read
          exact ⟨value, state, rfl, rfl⟩
        rw [if_neg halts] at read ⊢
        cases left : round text with
        | none =>
            rw [left] at read
            cases read
        | some between =>
            obtain ⟨value', state', ran, same⟩ := (recognizes value).goes left state
            rw [left] at read
            rw [ran]
            dsimp only at read ⊢
            by_cases shorter : between.length < text.length
            · rw [if_pos shorter] at read ⊢
              obtain ⟨last, state'', ran', same'⟩ :=
                ih between.length (size ▸ shorter) value' read state' rfl
              exact ⟨last, state'', ran', same'.trans same⟩
            · rw [if_neg shorter] at read
              cases read

end Recognizes

end Scanner

end IpUtils
