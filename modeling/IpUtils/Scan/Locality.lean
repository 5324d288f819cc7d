import IpUtils.Scan.Basic
import Mathlib.Data.List.TakeWhile

/-! # Scanners that see one token ahead

A scanner is *local* when a successful run is decided by the tokens it reads and
the one token it stops at: whatever follows that token can be replaced, cut off
or extended. Most pointer walks of the form "copy until a delimiter, then check
that something is left" are local, and locality is closed under sequencing and
loops. A scanner is *closed* when not even the token after the last one it reads
is looked at.
-/

namespace IpUtils

namespace Scanner

variable {τ σ α β : Type}

/-- Success leaves a suffix of the window and depends only on the tokens read
and on the first token not read. -/
structure Local (scanner : Scanner τ σ α) : Prop where
  suffix : ∀ {window state value rest state'},
    scanner window state = (some (value, rest), state') → rest <:+ window
  decided : ∀ {front next rest state value state'},
    scanner (front ++ next :: rest) state = (some (value, next :: rest), state') →
      ∀ other, scanner (front ++ next :: other) state = (some (value, next :: other), state')

/-- Success leaves a suffix of the window, reads at least one token and depends
only on the tokens read. -/
structure Closed (scanner : Scanner τ σ α) : Prop where
  suffix : ∀ {window state value rest state'},
    scanner window state = (some (value, rest), state') → rest <:+ window
  reads : ∀ {window state value rest state'},
    scanner window state = (some (value, rest), state') → rest.length < window.length
  decided : ∀ {front rest state value state'},
    scanner (front ++ rest) state = (some (value, rest), state') →
      ∀ other, scanner (front ++ other) state = (some (value, other), state')

/-- What is added behind a token that is left over stays unread. -/
theorem Local.extend {scanner : Scanner τ σ α} (decided : Local scanner) {window rest : List τ}
    {state state' : σ} {value : α} (ran : scanner window state = (some (value, rest), state'))
    (inhabited : rest ≠ []) (more : List τ) :
    scanner (window ++ more) state = (some (value, rest ++ more), state') := by
  obtain ⟨front, rfl⟩ := decided.suffix ran
  obtain ⟨next, rest, rfl⟩ := List.exists_cons_of_ne_nil inhabited
  rw [List.append_assoc, List.cons_append]
  exact decided.decided ran _

/-- What is added behind the tokens read stays unread. -/
theorem Closed.extend {scanner : Scanner τ σ α} (closed : Closed scanner) {window rest : List τ}
    {state state' : σ} {value : α} (ran : scanner window state = (some (value, rest), state'))
    (more : List τ) :
    scanner (window ++ more) state = (some (value, rest ++ more), state') := by
  obtain ⟨front, rfl⟩ := closed.suffix ran
  rw [List.append_assoc]
  exact closed.decided ran _

/-- The tokens read are enough. -/
theorem Closed.cut {scanner : Scanner τ σ α} (closed : Closed scanner) {front rest : List τ}
    {state state' : σ} {value : α}
    (ran : scanner (front ++ rest) state = (some (value, rest), state')) :
    scanner front state = (some (value, []), state') := by
  have short := closed.decided ran []
  rwa [List.append_nil] at short

/-- A scanner that never succeeds is local. -/
theorem Local.of_stops {scanner : Scanner τ σ α}
    (stops : ∀ window state, (scanner window state).1 = none) : Local scanner where
  suffix {window state value rest state'} ran := by
    have never := stops window state
    rw [ran] at never
    cases never
  decided {front next rest state value state'} ran := by
    have never := stops (front ++ next :: rest) state
    rw [ran] at never
    cases never

theorem Local.pure (value : α) : Local (Pure.pure value : Scanner τ σ α) where
  suffix ran := by
    simp only [pure_apply, Prod.mk.injEq, Option.some.injEq] at ran
    exact ran.1.2 ▸ List.suffix_rfl
  decided {front next rest state value' state'} ran other := by
    simp only [pure_apply, Prod.mk.injEq, Option.some.injEq] at ran
    obtain ⟨⟨rfl, here⟩, rfl⟩ := ran
    have : front = [] := by simpa using here
    subst this
    rfl

theorem Local.stop : Local (Scanner.stop : Scanner τ σ α) :=
  .of_stops fun _ _ => rfl

theorem Local.stopWith (change : Nat → σ → σ) :
    Local (Scanner.stopWith change : Scanner τ σ α) :=
  .of_stops fun _ _ => rfl

/-- A scanner that succeeds without moving is local if its answer depends on the
first token only. -/
theorem Local.of_still {scanner : Scanner τ σ α}
    (still : ∀ {window state value rest state'},
      scanner window state = (some (value, rest), state') → rest = window)
    (heads : ∀ {next rest state value state'},
      scanner (next :: rest) state = (some (value, next :: rest), state') →
        ∀ other, scanner (next :: other) state = (some (value, next :: other), state')) :
    Local scanner where
  suffix ran := still ran ▸ List.suffix_rfl
  decided {front next rest state value state'} ran other := by
    have here := still ran
    have : front = [] := by simpa using here
    subst this
    exact heads ran other

theorem Local.update (change : σ → σ) : Local (Scanner.update change : Scanner τ σ Unit) :=
  .of_still (by
      intro window state value rest state' ran
      simp only [Scanner.update, Prod.mk.injEq, Option.some.injEq] at ran
      exact ran.1.2.symm)
    (by
      intro next rest state value state' ran other
      simp only [Scanner.update, Prod.mk.injEq, true_and] at ran ⊢
      exact ran)

theorem Local.need : Local (Scanner.need : Scanner τ σ Unit) :=
  .of_still (by
      intro window state value rest state' ran
      unfold Scanner.need at ran
      split at ran
      · cases ran
      · simp only [Prod.mk.injEq, Option.some.injEq] at ran
        exact ran.1.2.symm)
    (by
      intro next rest state value state' ran other
      simp only [Scanner.need, List.isEmpty_cons, Bool.false_eq_true, ↓reduceIte,
        Prod.mk.injEq, true_and] at ran ⊢
      exact ran)

theorem Local.current (beyond : τ) : Local (Scanner.current beyond : Scanner τ σ τ) :=
  .of_still (by
      intro window state value rest state' ran
      simp only [Scanner.current, Prod.mk.injEq, Option.some.injEq] at ran
      exact ran.1.2.symm)
    (by
      intro next rest state value state' ran other
      simp only [Scanner.current, List.headD_cons, Prod.mk.injEq, Option.some.injEq,
        and_true] at ran ⊢
      exact ran)

theorem Local.looksAt (test : τ → Bool) : Local (Scanner.looksAt test : Scanner τ σ Bool) :=
  .of_still (by
      intro window state value rest state' ran
      simp only [Scanner.looksAt, Prod.mk.injEq, Option.some.injEq] at ran
      exact ran.1.2.symm)
    (by
      intro next rest state value state' ran other
      simp only [Scanner.looksAt, List.head?_cons, Option.any_some, Prod.mk.injEq,
        Option.some.injEq, and_true] at ran ⊢
      exact ran)

/-- A front whose length is the number of tokens dropped. -/
private theorem length_of_drop_eq {front rest : List τ} {next : τ} {count : Nat}
    (dropped : (front ++ next :: rest).drop count = next :: rest) : front.length = count := by
  have sizes := congrArg List.length dropped
  simp only [List.length_drop, List.length_append, List.length_cons] at sizes
  omega

theorem Local.advance : Local (Scanner.advance : Scanner τ σ Unit) where
  suffix {window state value rest state'} ran := by
    simp only [Scanner.advance, Prod.mk.injEq, Option.some.injEq] at ran
    exact ran.1.2 ▸ List.tail_suffix window
  decided {front next rest state value state'} ran other := by
    simp only [Scanner.advance, Prod.mk.injEq, Option.some.injEq, true_and] at ran ⊢
    obtain ⟨moved, rfl⟩ := ran
    rw [← List.drop_one] at moved ⊢
    have one := length_of_drop_eq moved
    exact ⟨by rw [← one, List.drop_left], rfl⟩

theorem Local.advanceBy (count : Nat) :
    Local (Scanner.advanceBy count : Scanner τ σ Unit) where
  suffix {window state value rest state'} ran := by
    unfold Scanner.advanceBy at ran
    split at ran
    · simp only [Prod.mk.injEq, Option.some.injEq] at ran
      exact ran.1.2 ▸ List.drop_suffix count window
    · cases ran
  decided {front next rest state value state'} ran other := by
    unfold Scanner.advanceBy at ran ⊢
    split at ran
    · simp only [Prod.mk.injEq, Option.some.injEq, true_and] at ran
      obtain ⟨moved, rfl⟩ := ran
      have size := length_of_drop_eq moved
      rw [if_pos (by simp only [List.length_append, List.length_cons]; omega), ← size,
        List.drop_left]
    · cases ran

/-- The longest run ends where a failing token follows tokens that all pass. -/
theorem takeWhile_dropWhile_of_stop {test : τ → Bool} {front rest : List τ} {next : τ}
    (dropped : (front ++ next :: rest).dropWhile test = next :: rest) (other : List τ) :
    (front ++ next :: other).takeWhile test = front ∧
      (front ++ next :: other).dropWhile test = next :: other := by
  have parts := List.takeWhile_append_dropWhile (p := test) (l := front ++ next :: rest)
  rw [dropped, List.append_cancel_right_eq] at parts
  have passes : ∀ token ∈ front, test token = true := by
    intro token member
    rw [← parts] at member
    exact List.mem_takeWhile_imp member
  have fails : test next = false := by
    have head := List.head?_dropWhile_not test (front ++ next :: rest)
    rw [dropped] at head
    simpa using head
  constructor
  · rw [List.takeWhile_append_of_pos passes, List.takeWhile_cons_of_neg (by simp [fails]),
      List.append_nil]
  · rw [List.dropWhile_append_of_pos passes, List.dropWhile_cons_of_neg (by simp [fails])]

theorem Local.takeWhile (test : τ → Bool) :
    Local (Scanner.takeWhile test : Scanner τ σ (List τ)) where
  suffix {window state value rest state'} ran := by
    simp only [Scanner.takeWhile, Prod.mk.injEq, Option.some.injEq] at ran
    exact ran.1.2 ▸ List.dropWhile_suffix test
  decided {front next rest state value state'} ran other := by
    simp only [Scanner.takeWhile, Prod.mk.injEq, Option.some.injEq] at ran ⊢
    obtain ⟨⟨taken, dropped⟩, rfl⟩ := ran
    have before := takeWhile_dropWhile_of_stop dropped rest
    have after := takeWhile_dropWhile_of_stop dropped other
    exact ⟨⟨after.1.trans (before.1.symm.trans taken), after.2⟩, rfl⟩

theorem Local.skipWhile (test : τ → Bool) :
    Local (Scanner.skipWhile test : Scanner τ σ Unit) where
  suffix {window state value rest state'} ran := by
    simp only [Scanner.skipWhile, Prod.mk.injEq, Option.some.injEq] at ran
    exact ran.1.2 ▸ List.dropWhile_suffix test
  decided {front next rest state value state'} ran other := by
    simp only [Scanner.skipWhile, Prod.mk.injEq, Option.some.injEq, true_and] at ran ⊢
    exact ⟨(takeWhile_dropWhile_of_stop ran.1 other).2, ran.2⟩

theorem Local.onStop {body : Scanner τ σ α} (change : σ → σ) (inner : Local body) :
    Local (Scanner.onStop change body) where
  suffix {window state value rest state'} ran := by
    unfold Scanner.onStop at ran
    split at ran
    · cases ran
    · rename_i outcome
      exact inner.suffix (outcome.trans ran)
  decided {front next rest state value state'} ran other := by
    unfold Scanner.onStop at ran ⊢
    split at ran
    · cases ran
    · rename_i outcome
      rw [inner.decided (outcome.trans ran) other]

theorem Local.zoom {ρ : Type} {body : Scanner τ ρ α} (view : σ → ρ) (put : σ → ρ → σ)
    (inner : Local body) : Local (Scanner.zoom view put body) where
  suffix {window state value rest state'} ran := by
    simp only [Scanner.zoom, Prod.mk.injEq] at ran
    exact inner.suffix (Prod.ext ran.1 rfl)
  decided {front next rest state value state'} ran other := by
    simp only [Scanner.zoom, Prod.mk.injEq] at ran ⊢
    have again := inner.decided (Prod.ext ran.1 rfl) other
    rw [again]
    exact ⟨rfl, ran.2⟩

/-- A suffix that starts inside `front ++ next :: rest` and still contains
`next :: rest` splits the front. -/
private theorem split_front {front rest middle : List τ} {next : τ}
    (inner : middle <:+ front ++ next :: rest) (outer : next :: rest <:+ middle) :
    ∃ first second, front = first ++ second ∧ middle = second ++ next :: rest := by
  obtain ⟨first, whole⟩ := inner
  obtain ⟨second, rfl⟩ := outer
  refine ⟨first, second, ?_, rfl⟩
  rw [← List.append_assoc, List.append_cancel_right_eq] at whole
  exact whole.symm

/-- The tokens of `second ++ next :: rest` start with a token that does not
depend on `rest`. -/
private theorem head_of_append_cons (second : List τ) (next : τ) :
    ∃ head tail, ∀ rest, second ++ next :: rest = head :: (tail ++ rest) := by
  cases second with
  | nil => exact ⟨next, [], fun _ => rfl⟩
  | cons head tail => exact ⟨head, tail ++ [next], fun rest => by simp⟩

/-- What is read of a window stays the same in a longer one, one scanner after the other. -/
theorem Local.bind {first : Scanner τ σ α} {next : α → Scanner τ σ β}
    (head : Local first) (tail : ∀ value, Local (next value)) : Local (first >>= next) where
  suffix ran := by
    obtain ⟨middle, between, between', start, finish⟩ := bind_eq_some ran
    exact ((tail middle).suffix finish).trans (head.suffix start)
  decided {front token rest state value state'} ran other := by
    obtain ⟨middle, between, between', start, finish⟩ := bind_eq_some ran
    obtain ⟨before, after, rfl, rfl⟩ :=
      split_front (head.suffix start) ((tail middle).suffix finish)
    obtain ⟨mark, more, shape⟩ := head_of_append_cons after token
    rw [List.append_assoc, shape rest] at start
    have replayed := head.decided start (more ++ other)
    rw [List.append_assoc, shape other, bind_of_some replayed, ← shape other]
    exact (tail middle).decided finish other

theorem Local.ite {condition : Prop} [Decidable condition] {left right : Scanner τ σ α}
    (whenTrue : Local left) (whenFalse : Local right) :
    Local (if condition then left else right) := by
  split
  · exact whenTrue
  · exact whenFalse

/-- A test on the unread tokens that only looks at the first one. -/
def HeadOnly (halt : List τ → Bool) : Prop :=
  ∀ next rest other, halt (next :: rest) = halt (next :: other)

private theorem loop_suffix {halt : List τ → Bool} {body : α → Scanner τ σ α}
    (round : ∀ value, Local (body value)) {value result : α} {window rest : List τ}
    {state state' : σ}
    (ran : Scanner.loop halt body value window state = (some (result, rest), state')) :
    rest <:+ window := by
  induction size : window.length using Nat.strongRecOn generalizing value window state with
  | ind size ih =>
      rw [loop_apply] at ran
      split at ran
      · simp only [Prod.mk.injEq, Option.some.injEq] at ran
        exact ran.1.2 ▸ List.suffix_rfl
      · split at ran
        · cases ran
        · rename_i outcome
          split at ran
          · rename_i shorter
            exact (ih _ (size ▸ shorter) ran rfl).trans ((round value).suffix outcome)
          · cases ran

private theorem loop_decided {halt : List τ → Bool} {body : α → Scanner τ σ α}
    (headOnly : HeadOnly halt) (round : ∀ value, Local (body value)) {value result : α}
    {front rest : List τ} {token : τ} {state state' : σ}
    (ran : Scanner.loop halt body value (front ++ token :: rest) state =
      (some (result, token :: rest), state')) (other : List τ) :
    Scanner.loop halt body value (front ++ token :: other) state =
      (some (result, token :: other), state') := by
  induction size : front.length using Nat.strongRecOn generalizing value front state with
  | ind size ih =>
      obtain ⟨mark, more, shape⟩ := head_of_append_cons front token
      have sameHalt : halt (front ++ token :: other) = halt (front ++ token :: rest) := by
        rw [shape, shape]
        exact headOnly _ _ _
      rw [loop_apply] at ran ⊢
      rw [sameHalt]
      split at ran
      · rename_i halted
        simp only [Prod.mk.injEq, Option.some.injEq] at ran
        obtain ⟨⟨rfl, here⟩, rfl⟩ := ran
        have : front = [] := by simpa using here
        subst this
        rw [if_pos halted]
        rfl
      · rename_i running
        rw [if_neg running]
        split at ran
        · cases ran
        · rename_i middle between between' outcome
          split at ran
          · rename_i shorter
            obtain ⟨before, after, rfl, rfl⟩ :=
              split_front ((round value).suffix outcome) (loop_suffix round ran)
            obtain ⟨mark, more, shape⟩ := head_of_append_cons after token
            rw [List.append_assoc, shape rest] at outcome
            have replayed := (round value).decided outcome (more ++ other)
            simp only [List.length_append, List.length_cons] at shorter size
            rw [List.append_assoc, shape other, replayed]
            simp only [← shape other]
            rw [if_pos (by simp only [List.length_append, List.length_cons]; omega)]
            exact ih after.length (by omega) ran rfl
          · cases ran

/-- A loop whose end is seen at the first token. -/
theorem Local.loop {halt : List τ → Bool} {body : α → Scanner τ σ α} (headOnly : HeadOnly halt)
    (round : ∀ value, Local (body value)) (value : α) :
    Local (Scanner.loop halt body value) where
  suffix ran := loop_suffix round ran
  decided ran other := loop_decided headOnly round ran other

/-- Success reads at least `count` tokens. -/
def ReadsAtLeast (count : Nat) (scanner : Scanner τ σ α) : Prop :=
  ∀ window state value rest state',
    scanner window state = (some (value, rest), state') → rest.length + count ≤ window.length

/-- A scanner that never succeeds reads as much as one likes. -/
theorem ReadsAtLeast.of_stops {scanner : Scanner τ σ α}
    (stops : ∀ window state, (scanner window state).1 = none) (count : Nat) :
    ReadsAtLeast count scanner := by
  intro window state value rest state' ran
  have never := stops window state
  rw [ran] at never
  cases never

/-- What reads many tokens reads fewer. -/
theorem ReadsAtLeast.mono {scanner : Scanner τ σ α} {few many : Nat}
    (reads : ReadsAtLeast many scanner) (fewer : few ≤ many) : ReadsAtLeast few scanner := by
  intro window state value rest state' ran
  exact Nat.le_trans (Nat.add_le_add_left fewer _) (reads _ _ _ _ _ ran)

theorem ReadsAtLeast.advanceBy (count : Nat) :
    ReadsAtLeast count (Scanner.advanceBy count : Scanner τ σ Unit) := by
  intro window state value rest state' ran
  unfold Scanner.advanceBy at ran
  split at ran
  · simp only [Prod.mk.injEq, Option.some.injEq] at ran
    rw [← ran.1.2, List.length_drop]
    omega
  · cases ran

/-- What the first scanner reads counts. -/
theorem ReadsAtLeast.bind_left {first : Scanner τ σ α} {next : α → Scanner τ σ β} {count : Nat}
    (head : ReadsAtLeast count first) (tail : ∀ value, Local (next value)) :
    ReadsAtLeast count (first >>= next) := by
  intro window state value rest state' ran
  obtain ⟨middle, between, between', start, finish⟩ := bind_eq_some ran
  exact Nat.le_trans (Nat.add_le_add_right ((tail middle).suffix finish).length_le _)
    (head _ _ _ _ _ start)

/-- What the second scanner reads counts. -/
theorem ReadsAtLeast.bind_right {first : Scanner τ σ α} {next : α → Scanner τ σ β} {count : Nat}
    (head : Local first) (tail : ∀ value, ReadsAtLeast count (next value)) :
    ReadsAtLeast count (first >>= next) := by
  intro window state value rest state' ran
  obtain ⟨middle, between, between', start, finish⟩ := bind_eq_some ran
  exact Nat.le_trans (tail middle _ _ _ _ _ finish) (head.suffix start).length_le

/-! ## Reading to the end of a message -/

/-- A token that has been tested is stepped over. -/
theorem Closed.advance_after {test : Scanner τ σ Unit} (checks : Local test)
    (stays : ∀ {window state rest state'}, test window state = (some ((), rest), state') →
      rest = window ∧ window ≠ []) :
    Closed (test >>= fun _ => Scanner.advance) where
  suffix ran := (checks.bind fun _ => Local.advance).suffix ran
  reads ran := by
    obtain ⟨_, between, between', start, finish⟩ := bind_eq_some ran
    obtain ⟨rfl, inhabited⟩ := stays start
    simp only [Scanner.advance, Prod.mk.injEq, Option.some.injEq, true_and] at finish
    rw [← finish.1, List.length_tail]
    have := List.length_pos_iff.mpr inhabited
    omega
  decided {front rest state value state'} ran other := by
    obtain ⟨_, between, between', start, finish⟩ := bind_eq_some ran
    obtain ⟨rfl, inhabited⟩ := stays start
    simp only [Scanner.advance, Prod.mk.injEq, Option.some.injEq, true_and] at finish
    obtain ⟨moved, rfl⟩ := finish
    have one : front.length = 1 := by
      have sizes := congrArg List.length moved
      have := List.length_pos_iff.mpr inhabited
      simp only [List.length_tail, List.length_append] at sizes this
      omega
    obtain ⟨token, rfl⟩ := List.length_eq_one_iff.mp one
    have replayed := @Local.decided _ _ _ _ checks [] _ _ _ _ _ start other
    simp only [List.nil_append] at replayed
    rw [List.singleton_append, bind_of_some replayed]
    rfl

theorem Closed.onStop {body : Scanner τ σ α} (change : σ → σ) (inner : Closed body) :
    Closed (Scanner.onStop change body) where
  suffix {window state value rest state'} ran := by
    unfold Scanner.onStop at ran
    split at ran
    · cases ran
    · rename_i outcome
      exact inner.suffix (outcome.trans ran)
  reads {window state value rest state'} ran := by
    unfold Scanner.onStop at ran
    split at ran
    · cases ran
    · rename_i outcome
      exact inner.reads (outcome.trans ran)
  decided {front rest state value state'} ran other := by
    unfold Scanner.onStop at ran ⊢
    split at ran
    · cases ran
    · rename_i outcome
      rw [inner.decided (outcome.trans ran) other]

/-- The last scanner reads a token and looks at none behind it. -/
theorem Closed.bind {first : Scanner τ σ α} {next : α → Scanner τ σ β}
    (head : Local first) (tail : ∀ value, Closed (next value)) : Closed (first >>= next) where
  suffix ran := by
    obtain ⟨middle, between, between', start, finish⟩ := bind_eq_some ran
    exact ((tail middle).suffix finish).trans (head.suffix start)
  reads ran := by
    obtain ⟨middle, between, between', start, finish⟩ := bind_eq_some ran
    exact Nat.lt_of_lt_of_le ((tail middle).reads finish) (head.suffix start).length_le
  decided {front rest state value state'} ran other := by
    obtain ⟨middle, between, between', start, finish⟩ := bind_eq_some ran
    have shorter := (tail middle).reads finish
    obtain ⟨after, rfl⟩ := (tail middle).suffix finish
    obtain ⟨before, whole⟩ := head.suffix start
    rw [← List.append_assoc, List.append_cancel_right_eq] at whole
    subst whole
    cases after with
    | nil => simp at shorter
    | cons mark more =>
        rw [List.append_assoc, List.cons_append] at start
        have replayed := head.decided start (more ++ other)
        rw [List.append_assoc, List.cons_append, bind_of_some replayed]
        exact (tail middle).decided finish other

end Scanner

end IpUtils
