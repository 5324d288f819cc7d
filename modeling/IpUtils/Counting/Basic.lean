import Mathlib.Data.Finset.Card
import Mathlib.Logic.Function.Basic

/-! # Reference counts

Objects that point to cells, and cells that count the objects that point to them. A cell
exists exactly as long as some object points to it. The counts are kept by hand: one is added
when an object begins to point to a cell and one is taken away when it ceases to, and a count
of zero ends the cell.
-/

namespace IpUtils

namespace Counting

variable {ι : Type} [DecidableEq ι]

/-- How many of the objects point to a cell. -/
def referents (live : Finset ι) (points : ι → Nat) (cell : Nat) : Nat :=
  (live.filter fun object => points object = cell).card

/-- Add one to a count. -/
def acquire (cell : Nat) (count : Nat → Option Nat) : Nat → Option Nat :=
  Function.update count cell ((count cell).map (· + 1))

/-- Take one away from a count; a cell whose count comes to zero exists no more. -/
def release (cell : Nat) (count : Nat → Option Nat) : Nat → Option Nat :=
  Function.update count cell ((count cell).bind fun n => if n ≤ 1 then none else some (n - 1))

/-- Begin a cell that one object points to. -/
def allot (cell : Nat) (count : Nat → Option Nat) : Nat → Option Nat :=
  Function.update count cell (some 1)

/-- Every cell that exists counts the objects that point to it, of which there is one at
least, and an object points to a cell that exists. -/
def Exact (live : Finset ι) (points : ι → Nat) (count : Nat → Option Nat) : Prop :=
  ∀ cell, count cell =
    if referents live points cell = 0 then none else some (referents live points cell)

variable {live : Finset ι} {points : ι → Nat} {count : Nat → Option Nat} {object source : ι}

/-! ## Counting -/

omit [DecidableEq ι] in
theorem referents_empty (points : ι → Nat) (cell : Nat) :
    referents ∅ points cell = 0 := rfl

/-- Another object counts where it points to. -/
theorem referents_insert (absent : object ∉ live) (target cell : Nat) :
    referents (insert object live) (Function.update points object target) cell =
      referents live points cell + if target = cell then 1 else 0 := by
  have others : (live.filter fun other => Function.update points object target other = cell) =
      live.filter fun other => points other = cell := by
    apply Finset.filter_congr
    intro other member
    have differs : other ≠ object := by
      rintro rfl
      exact absent member
    rw [Function.update_of_ne differs]
  rw [referents, referents, Finset.filter_insert, others, Function.update_self]
  split
  · rw [Finset.card_insert_of_notMem]
    intro member
    exact absent (Finset.mem_of_mem_filter _ member)
  · rfl

/-- An object that goes counts no more. -/
theorem referents_erase (member : object ∈ live) (cell : Nat) :
    referents (live.erase object) points cell + (if points object = cell then 1 else 0) =
      referents live points cell := by
  have again := @referents_insert _ _ (live.erase object) points object
    (Finset.notMem_erase _ _) (points object) cell
  rw [Finset.insert_erase member, Function.update_eq_self] at again
  exact again.symm

/-- An object that is there counts. -/
theorem referents_pos (member : object ∈ live) : 0 < referents live points (points object) := by
  have counted := @referents_erase _ _ live points object member (points object)
  rw [if_pos rfl] at counted
  omega

/-- The last object at a cell. -/
theorem eq_of_referents_one (member : object ∈ live)
    (one : referents live points (points object) = 1) {other : ι} (there : other ∈ live)
    (same : points other = points object) : other = object := by
  by_contra differs
  have counted := @referents_erase _ _ live points object member (points object)
  have still := @referents_pos _ _ (live.erase object) points other
    (Finset.mem_erase.mpr ⟨differs, there⟩)
  rw [if_pos rfl] at counted
  rw [same] at still
  omega

/-- An object that is not the last at its cell is there with another. -/
theorem exists_of_referents_ne_one (member : object ∈ live)
    (more : referents live points (points object) ≠ 1) :
    ∃ other ∈ live, other ≠ object ∧ points other = points object := by
  by_contra alone
  have counted := @referents_erase _ _ live points object member (points object)
  have none_ : referents (live.erase object) points (points object) = 0 := by
    rw [referents, Finset.card_eq_zero, Finset.filter_eq_empty_iff]
    intro other there same
    obtain ⟨differs, inside⟩ := Finset.mem_erase.mp there
    exact alone ⟨other, inside, differs, same⟩
  rw [if_pos rfl, none_] at counted
  exact more counted.symm

omit [DecidableEq ι] in
/-- Without a count of its own a cell is pointed to by none. -/
theorem referents_eq_zero {cell : Nat} (unused : ∀ other ∈ live, points other ≠ cell) :
    referents live points cell = 0 := by
  rw [referents, Finset.card_eq_zero, Finset.filter_eq_empty_iff]
  exact fun _ member => unused _ member

/-! ## Steps -/

namespace Exact

omit [DecidableEq ι] in
theorem empty (points : ι → Nat) : Exact ∅ points fun _ => none := by
  intro cell
  rw [referents_empty, if_pos rfl]

/-- The count at a cell that an object points to. -/
theorem count_of_mem (exact : Exact live points count) (member : object ∈ live) :
    count (points object) = some (referents live points (points object)) := by
  rw [exact, if_neg (Nat.pos_iff_ne_zero.mp (referents_pos member))]

/-- A cell exists exactly when some object points to it. -/
theorem isSome_iff (exact : Exact live points count) (cell : Nat) :
    (count cell).isSome = true ↔ ∃ other ∈ live, points other = cell := by
  rw [exact]
  constructor
  · intro exists_
    by_contra none_
    rw [if_pos (referents_eq_zero fun other member same => none_ ⟨other, member, same⟩)] at exists_
    cases exists_
  · rintro ⟨other, member, rfl⟩
    rw [if_neg (Nat.pos_iff_ne_zero.mp (referents_pos member))]
    rfl

/-- An object that is made with a cell of its own. -/
theorem create (exact : Exact live points count) (absent : object ∉ live) {fresh : Nat}
    (unused : ∀ other ∈ live, points other ≠ fresh) :
    Exact (insert object live) (Function.update points object fresh) (allot fresh count) := by
  intro cell
  rw [referents_insert absent, allot]
  by_cases same : cell = fresh
  · subst same
    rw [Function.update_self, referents_eq_zero unused, if_pos rfl]
    rfl
  · rw [Function.update_of_ne same, if_neg (Ne.symm same), Nat.add_zero]
    exact exact cell

/-- An object that is made at the cell of another. -/
theorem copy (exact : Exact live points count) (absent : object ∉ live)
    (member : source ∈ live) :
    Exact (insert object live) (Function.update points object (points source))
      (acquire (points source) count) := by
  intro cell
  rw [referents_insert absent, acquire]
  by_cases same : cell = points source
  · subst same
    rw [Function.update_self, exact.count_of_mem member, if_pos rfl, if_neg (Nat.succ_ne_zero _)]
    rfl
  · rw [Function.update_of_ne same, if_neg (Ne.symm same), Nat.add_zero]
    exact exact cell

/-- An object that is gone. -/
theorem destroy (exact : Exact live points count) (member : object ∈ live) :
    Exact (live.erase object) points (release (points object) count) := by
  intro cell
  have counted := @referents_erase _ _ live points object member cell
  rw [release]
  by_cases same : cell = points object
  · subst same
    rw [if_pos rfl] at counted
    rw [Function.update_self, exact.count_of_mem member, Option.bind_some]
    split
    · rw [if_pos (by omega)]
    · rw [if_neg (by omega)]
      exact congrArg some (by omega)
  · rw [if_neg (Ne.symm same), Nat.add_zero] at counted
    rw [Function.update_of_ne same, counted]
    exact exact cell

/-- An object that leaves its cell for one of its own. -/
theorem clear (exact : Exact live points count) (member : object ∈ live) {fresh : Nat}
    (unused : ∀ other ∈ live, points other ≠ fresh) :
    Exact live (Function.update points object fresh)
      (allot fresh (release (points object) count)) := by
  have gone := (exact.destroy member).create (Finset.notMem_erase object live)
    fun other there => unused other (Finset.mem_of_mem_erase there)
  rwa [Finset.insert_erase member] at gone

/-- An object that leaves its cell for that of another. -/
theorem move (exact : Exact live points count) (member : object ∈ live) (there : source ∈ live)
    (apart : source ≠ object) :
    Exact live (Function.update points object (points source))
      (acquire (points source) (release (points object) count)) := by
  have gone := (exact.destroy member).copy (Finset.notMem_erase object live)
    (Finset.mem_erase.mpr ⟨apart, there⟩)
  rwa [Finset.insert_erase member] at gone

/-- An object that leaves its cell and comes back, while another is there. -/
theorem stay (exact : Exact live points count) (member : object ∈ live)
    (shared : referents live points (points object) ≠ 1) :
    acquire (points object) (release (points object) count) = count := by
  have positive := @referents_pos _ _ live points object member
  funext cell
  rw [acquire, release, Function.update_self, exact.count_of_mem member, Option.bind_some,
    if_neg (by omega)]
  by_cases same : cell = points object
  · subst same
    rw [Function.update_self, exact.count_of_mem member]
    change some (_ - 1 + 1) = _
    rw [Nat.sub_add_cancel positive]
  · rw [Function.update_of_ne same, Function.update_of_ne same]

/-- An assignment: the object may be its own source while another is at its cell. -/
theorem assign (exact : Exact live points count) (member : object ∈ live) (there : source ∈ live)
    (shared : source = object → referents live points (points object) ≠ 1) :
    Exact live (Function.update points object (points source))
      (acquire (points source) (release (points object) count)) := by
  by_cases same : source = object
  · subst same
    rw [exact.stay member (shared rfl), Function.update_eq_self]
    exact exact
  · exact exact.move member there same

end Exact

/-! ## Resources -/

variable {ρ : Type} [DecidableEq ρ]

/-- Every resource that is open stands at one cell that some object points to. -/
structure Held (live : Finset ι) (points : ι → Nat) (value : Nat → Option ρ) (opened : Finset ρ) :
    Prop where
  exact : ∀ resource, resource ∈ opened ↔ ∃ object ∈ live, value (points object) = some resource
  apart : ∀ first ∈ live, ∀ second ∈ live, ∀ resource, value (points first) = some resource →
    value (points second) = some resource → points first = points second

namespace Held

variable {value value' : Nat → Option ρ} {opened : Finset ρ} {resource : ρ}

omit [DecidableEq ι] [DecidableEq ρ] in
theorem empty (points : ι → Nat) (value : Nat → Option ρ) : Held ∅ points value ∅ := by
  constructor
  · simp
  · exact fun _ member => absurd member (Finset.notMem_empty _)

omit [DecidableEq ι] [DecidableEq ρ] in
/-- Cells that no object points to do not matter. -/
theorem congr (held : Held live points value opened) {points' : ι → Nat}
    (same : ∀ other ∈ live, points' other = points other)
    (agree : ∀ other ∈ live, value' (points other) = value (points other)) :
    Held live points' value' opened := by
  constructor
  · intro resource
    rw [held.exact]
    constructor
    · rintro ⟨other, there, has⟩
      exact ⟨other, there, by rw [same other there, agree other there, has]⟩
    · rintro ⟨other, there, has⟩
      exact ⟨other, there, by rw [← agree other there, ← same other there, has]⟩
  · intro first inFirst second inSecond resource has has'
    rw [same first inFirst] at has ⊢
    rw [same second inSecond] at has' ⊢
    rw [agree first inFirst] at has
    rw [agree second inSecond] at has'
    exact held.apart first inFirst second inSecond resource has has'

omit [DecidableEq ρ] in
/-- An object goes whose cell has no resource, or whose cell has another object. -/
theorem drop (held : Held live points value opened)
    (kept : value (points object) = none ∨
      ∃ other ∈ live, other ≠ object ∧ points other = points object) :
    Held (live.erase object) points value opened := by
  constructor
  · intro resource
    rw [held.exact]
    constructor
    · rintro ⟨other, there, has⟩
      by_cases same : other = object
      · subst same
        rcases kept with none_ | ⟨another, there', differs, same⟩
        · rw [none_] at has
          cases has
        · exact ⟨another, Finset.mem_erase.mpr ⟨differs, there'⟩, by rw [same, has]⟩
      · exact ⟨other, Finset.mem_erase.mpr ⟨same, there⟩, has⟩
    · rintro ⟨other, there, has⟩
      exact ⟨other, Finset.mem_of_mem_erase there, has⟩
  · intro first inFirst second inSecond
    exact held.apart first (Finset.mem_of_mem_erase inFirst) second
      (Finset.mem_of_mem_erase inSecond)

/-- The last object at a cell goes, and its resource with it. -/
theorem close (held : Held live points value opened) (member : object ∈ live)
    (has : value (points object) = some resource)
    (alone : ∀ other ∈ live, points other = points object → other = object) :
    resource ∈ opened ∧ Held (live.erase object) points value (opened.erase resource) := by
  refine ⟨(held.exact resource).mpr ⟨object, member, has⟩, ?_, ?_⟩
  · intro another
    rw [Finset.mem_erase, held.exact]
    constructor
    · rintro ⟨differs, other, there, has'⟩
      refine ⟨other, Finset.mem_erase.mpr ⟨?_, there⟩, has'⟩
      rintro rfl
      rw [has] at has'
      exact differs (Option.some.inj has').symm
    · rintro ⟨other, there, has'⟩
      obtain ⟨differs, there⟩ := Finset.mem_erase.mp there
      refine ⟨?_, other, there, has'⟩
      rintro rfl
      exact differs (alone other there (held.apart other there object member _ has' has))
  · intro first inFirst second inSecond
    exact held.apart first (Finset.mem_of_mem_erase inFirst) second
      (Finset.mem_of_mem_erase inSecond)

omit [DecidableEq ρ] in
/-- An object goes that is not the last at its cell. -/
theorem drop_shared (held : Held live points value opened) (member : object ∈ live)
    (more : referents live points (points object) ≠ 1) :
    Held (live.erase object) points value opened :=
  held.drop (.inr (exists_of_referents_ne_one member more))

/-- The last object at a cell goes, and whatever resource the cell has is closed. -/
theorem drop_last (held : Held live points value opened) (member : object ∈ live)
    (one : referents live points (points object) = 1) :
    Held (live.erase object) points (Function.update value (points object) none)
      ((value (points object)).elim opened opened.erase) := by
  have alone (other : ι) (there : other ∈ live) (same : points other = points object) :
      other = object := eq_of_referents_one member one there same
  have agree (other : ι) (there : other ∈ live.erase object) :
      Function.update value (points object) none (points other) = value (points other) := by
    obtain ⟨differs, there⟩ := Finset.mem_erase.mp there
    exact Function.update_of_ne (fun same => differs (alone other there same)) ..
  cases has : value (points object) with
  | none => exact (held.drop (.inl has)).congr (fun _ _ => rfl) agree
  | some resource => exact (held.close member has alone).2.congr (fun _ _ => rfl) agree

omit [DecidableEq ρ] in
/-- An object is made at a cell without a resource. -/
theorem create (held : Held live points value opened) (absent : object ∉ live) {fresh : Nat}
    (none_ : value fresh = none) :
    Held (insert object live) (Function.update points object fresh) value opened := by
  have others (other : ι) (there : other ∈ live) :
      Function.update points object fresh other = points other := by
    apply Function.update_of_ne
    rintro rfl
    exact absent there
  have before := held.congr others fun _ _ => rfl
  have itself : value (Function.update points object fresh object) = none := by
    rw [Function.update_self, none_]
  have inside (other : ι) (resource : ρ) (there : other ∈ insert object live)
      (has : value (Function.update points object fresh other) = some resource) : other ∈ live := by
    rcases Finset.mem_insert.mp there with rfl | there
    · rw [itself] at has
      cases has
    · exact there
  constructor
  · intro resource
    rw [before.exact]
    constructor
    · rintro ⟨other, there, has⟩
      exact ⟨other, Finset.mem_insert_of_mem there, has⟩
    · rintro ⟨other, there, has⟩
      exact ⟨other, inside other resource there has, has⟩
  · intro first inFirst second inSecond resource has has'
    exact before.apart first (inside _ _ inFirst has) second (inside _ _ inSecond has') resource
      has has'

omit [DecidableEq ρ] in
/-- An object is made at the cell of another. -/
theorem copy (held : Held live points value opened) (absent : object ∉ live)
    (there : source ∈ live) :
    Held (insert object live) (Function.update points object (points source)) value opened := by
  -- every object points where one of the others does
  have alike (other : ι) (inside : other ∈ insert object live) :
      ∃ another ∈ live, Function.update points object (points source) other = points another := by
    rcases Finset.mem_insert.mp inside with rfl | before
    · exact ⟨source, there, Function.update_self ..⟩
    · refine ⟨other, before, Function.update_of_ne ?_ ..⟩
      rintro rfl
      exact absent before
  constructor
  · intro resource
    rw [held.exact]
    constructor
    · rintro ⟨other, inside, has⟩
      refine ⟨other, Finset.mem_insert_of_mem inside, ?_⟩
      have differs : other ≠ object := by
        intro same
        rw [same] at inside
        exact absent inside
      rw [Function.update_of_ne differs, has]
    · rintro ⟨other, inside, has⟩
      obtain ⟨another, inside', same⟩ := alike other inside
      exact ⟨another, inside', by rw [← same, has]⟩
  · intro first inFirst second inSecond resource has has'
    obtain ⟨one, inOne, sameOne⟩ := alike first inFirst
    obtain ⟨other, inOther, sameOther⟩ := alike second inSecond
    rw [sameOne] at has ⊢
    rw [sameOther] at has' ⊢
    exact held.apart one inOne other inOther resource has has'

omit [DecidableEq ι] in
/-- A resource is opened at a cell that has none. -/
theorem open_ (held : Held live points value opened) (member : object ∈ live)
    (none_ : value (points object) = none) (fresh : resource ∉ opened) :
    Held live points (Function.update value (points object) (some resource))
      (insert resource opened) := by
  have others (other : ι) (another : ρ) (there : other ∈ live)
      (has : value (points other) = some another) : points other ≠ points object ∧
        another ≠ resource := by
    refine ⟨fun same => ?_, ?_⟩
    · rw [same, none_] at has
      cases has
    · rintro rfl
      exact fresh ((held.exact another).mpr ⟨other, there, has⟩)
  constructor
  · intro another
    rw [Finset.mem_insert, held.exact]
    constructor
    · rintro (rfl | ⟨other, there, has⟩)
      · exact ⟨object, member, Function.update_self ..⟩
      · exact ⟨other, there, by rw [Function.update_of_ne (others other _ there has).1, has]⟩
    · rintro ⟨other, there, has⟩
      by_cases same : points other = points object
      · rw [same, Function.update_self] at has
        exact .inl (Option.some.inj has).symm
      · rw [Function.update_of_ne same] at has
        exact .inr ⟨other, there, has⟩
  · intro first inFirst second inSecond another has has'
    by_cases same : points first = points object
    · by_cases same' : points second = points object
      · rw [same, same']
      · rw [same, Function.update_self] at has
        rw [Function.update_of_ne same'] at has'
        exact absurd (Option.some.inj has).symm (others second _ inSecond has').2
    · by_cases same' : points second = points object
      · rw [same', Function.update_self] at has'
        rw [Function.update_of_ne same] at has
        exact absurd (Option.some.inj has').symm (others first _ inFirst has).2
      · rw [Function.update_of_ne same] at has
        rw [Function.update_of_ne same'] at has'
        exact held.apart first inFirst second inSecond another has has'

omit [DecidableEq ι] in
/-- The resource of a cell is closed. -/
theorem shut (held : Held live points value opened) (member : object ∈ live)
    (has : value (points object) = some resource) :
    resource ∈ opened ∧
      Held live points (Function.update value (points object) none) (opened.erase resource) := by
  have others (other : ι) (another : ρ)
      (has' : Function.update value (points object) none (points other) = some another) :
      points other ≠ points object ∧ value (points other) = some another := by
    by_cases same : points other = points object
    · rw [same, Function.update_self] at has'
      cases has'
    · rw [Function.update_of_ne same] at has'
      exact ⟨same, has'⟩
  refine ⟨(held.exact resource).mpr ⟨object, member, has⟩, ?_, ?_⟩
  · intro another
    rw [Finset.mem_erase, held.exact]
    constructor
    · rintro ⟨differs, other, there, has'⟩
      refine ⟨other, there, ?_⟩
      rw [Function.update_of_ne, has']
      intro same
      rw [same, has] at has'
      exact differs (Option.some.inj has').symm
    · rintro ⟨other, there, has'⟩
      obtain ⟨differs, has''⟩ := others other another has'
      refine ⟨?_, other, there, has''⟩
      rintro rfl
      exact differs (held.apart other there object member _ has'' has)
  · intro first inFirst second inSecond another has₁ has₂
    exact held.apart first inFirst second inSecond another (others first _ has₁).2
      (others second _ has₂).2

end Held

end Counting

end IpUtils
