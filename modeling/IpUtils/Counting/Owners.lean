import IpUtils.Counting.Basic

/-! # Things whose owners share a cell

A thing is made under a cell and held by some of the objects that point to that cell. It ends
with the last object at the cell that holds it; the other objects at the cell need not.
-/

namespace IpUtils

namespace Counting

variable {ι : Type} [DecidableEq ι]

/-- Every thing that is held exists and was made under the cell of its holder, and every thing
that exists is held. -/
structure Owned (live : Finset ι) (points : ι → Nat) (holds : ι → Option Nat) (exist : Finset Nat)
    (origin : Nat → Nat) : Prop where
  made : ∀ object ∈ live, ∀ thing, holds object = some thing →
    thing ∈ exist ∧ origin thing = points object
  held : ∀ thing ∈ exist, ∃ object ∈ live, holds object = some thing

namespace Owned

variable {live : Finset ι} {points points' : ι → Nat} {holds holds' : ι → Option Nat}
  {exist : Finset Nat} {origin : Nat → Nat} {object source : ι} {thing : Nat}

omit [DecidableEq ι] in
theorem empty (points : ι → Nat) (holds : ι → Option Nat) (origin : Nat → Nat) :
    Owned ∅ points holds ∅ origin := by
  constructor
  · exact fun _ member => absurd member (Finset.notMem_empty _)
  · exact fun _ member => absurd member (Finset.notMem_empty _)

/-- An object goes that holds nothing, or whose thing another holds. -/
theorem drop (owned : Owned live points holds exist origin)
    (kept : ∀ thing, holds object = some thing →
      ∃ other ∈ live, other ≠ object ∧ holds other = some thing) :
    Owned (live.erase object) points holds exist origin := by
  constructor
  · intro other there
    exact owned.made other (Finset.mem_of_mem_erase there)
  · intro thing exists_
    obtain ⟨other, there, has⟩ := owned.held thing exists_
    by_cases same : other = object
    · subst same
      obtain ⟨another, inside, differs, has'⟩ := kept thing has
      exact ⟨another, Finset.mem_erase.mpr ⟨differs, inside⟩, has'⟩
    · exact ⟨other, Finset.mem_erase.mpr ⟨same, there⟩, has⟩

/-- The last object at a cell goes, and its thing with it. -/
theorem free (owned : Owned live points holds exist origin) (member : object ∈ live)
    (has : holds object = some thing) (one : referents live points (points object) = 1) :
    thing ∈ exist ∧ Owned (live.erase object) points holds (exist.erase thing) origin := by
  obtain ⟨exists_, under⟩ := owned.made object member thing has
  refine ⟨exists_, ?_, ?_⟩
  · intro other there another has'
    obtain ⟨differs, inside⟩ := Finset.mem_erase.mp there
    obtain ⟨exists', under'⟩ := owned.made other inside another has'
    refine ⟨Finset.mem_erase.mpr ⟨?_, exists'⟩, under'⟩
    rintro rfl
    exact differs (eq_of_referents_one member one inside (under'.symm.trans under))
  · intro another inside
    obtain ⟨differs, exists'⟩ := Finset.mem_erase.mp inside
    obtain ⟨other, there, has'⟩ := owned.held another exists'
    refine ⟨other, Finset.mem_erase.mpr ⟨?_, there⟩, has'⟩
    rintro rfl
    rw [has] at has'
    exact differs (Option.some.inj has').symm

/-- An object comes that holds nothing, or a thing that was made under its cell. -/
theorem join (owned : Owned live points holds exist origin) (absent : object ∉ live)
    {cell : Nat} {value : Option Nat}
    (has : ∀ thing, value = some thing → thing ∈ exist ∧ origin thing = cell) :
    Owned (insert object live) (Function.update points object cell)
      (Function.update holds object value) exist origin := by
  have differs (other : ι) (there : other ∈ live) : other ≠ object := by
    rintro rfl
    exact absent there
  constructor
  · intro other there thing has'
    rcases Finset.mem_insert.mp there with rfl | inside
    · rw [Function.update_self] at has' ⊢
      exact has thing has'
    · rw [Function.update_of_ne (differs other inside)] at has' ⊢
      exact owned.made other inside thing has'
  · intro thing exists_
    obtain ⟨other, there, has'⟩ := owned.held thing exists_
    refine ⟨other, Finset.mem_insert_of_mem there, ?_⟩
    rw [Function.update_of_ne (differs other there), has']

/-- A thing is made. -/
theorem make (owned : Owned live points holds exist origin) (absent : object ∉ live)
    (fresh : thing ∉ exist) {cell : Nat} :
    Owned (insert object live) (Function.update points object cell)
      (Function.update holds object (some thing)) (insert thing exist)
      (Function.update origin thing cell) := by
  have differs (other : ι) (there : other ∈ live) : other ≠ object := by
    rintro rfl
    exact absent there
  constructor
  · intro other there another has
    rcases Finset.mem_insert.mp there with rfl | inside
    · rw [Function.update_self] at has ⊢
      cases has
      exact ⟨Finset.mem_insert_self .., Function.update_self ..⟩
    · rw [Function.update_of_ne (differs other inside)] at has ⊢
      obtain ⟨exists_, under⟩ := owned.made other inside another has
      refine ⟨Finset.mem_insert_of_mem exists_, ?_⟩
      rw [Function.update_of_ne, under]
      rintro rfl
      exact fresh exists_
  · intro another exists_
    rcases Finset.mem_insert.mp exists_ with rfl | inside
    · exact ⟨object, Finset.mem_insert_self .., Function.update_self ..⟩
    · obtain ⟨other, there, has⟩ := owned.held another inside
      refine ⟨other, Finset.mem_insert_of_mem there, ?_⟩
      rw [Function.update_of_ne (differs other there), has]

end Owned

end Counting

end IpUtils
