import IpUtils.Counting.Basic
import IpUtils.Process

/-! # Objects that share descriptors

What the constructors, the assignment, `clear` and the destructor of a class do to the
descriptors of any number of its objects. Whatever a class does to a descriptor before it
deletes it, it changes no count.
-/

namespace IpUtils

/-- A class with a `descriptor_`. -/
class HasDescriptor (ω : Type) where
  descriptor : ω → Nat

/-- The objects of a class that there are, and the descriptors. -/
structure Objects (ω : Type) where
  live : Finset Nat := ∅
  object : Nat → ω
  process : Process := {}
  /-- The descriptors that have been deleted. -/
  deleted : Nat → Bool := fun _ => false
  /-- A descriptor has been used that was deleted. -/
  misused : Bool := false

/-- What a process looks like when one count has been taken away. -/
structure Drops (address : Nat) (before after : Process) : Prop where
  cnt : ∀ other, (after.descriptors other).cnt =
    (before.descriptors other).cnt - if other = address then 1 else 0
  next : after.nextDescriptor = before.nextDescriptor

/-- A change of a descriptor that keeps its count changes no count. -/
theorem Process.cnt_setDescriptor {change : Descriptor → Descriptor}
    (kept : ∀ desc, (change desc).cnt = desc.cnt) (process : Process) (owner address : Nat) :
    ((process.setDescriptor owner change).descriptors address).cnt =
      (process.descriptors address).cnt := by
  by_cases same : address = owner
  · subst same
    simp [kept]
  · simp [Process.setDescriptor, same]

theorem Drops.setDescriptor (process : Process) (address : Nat) :
    Drops address process
      (process.setDescriptor address fun desc => { desc with cnt := desc.cnt - 1 }) := by
  refine ⟨fun other => ?_, rfl⟩
  by_cases same : other = address
  · subst same
    simp
  · simp [Process.setDescriptor, same]

/-- What comes behind changes no count. -/
theorem Drops.trans {address : Nat} {before between after : Process}
    (drops : Drops address before between)
    (cnt : ∀ other, (after.descriptors other).cnt = (between.descriptors other).cnt)
    (next : after.nextDescriptor = between.nextDescriptor) : Drops address before after :=
  ⟨fun other => (cnt other).trans (drops.cnt other), next.trans drops.next⟩

namespace Objects

variable {ω : Type} [HasDescriptor ω]

/-- The count of a descriptor that exists. -/
def count (objects : Objects ω) (address : Nat) : Option Nat :=
  if address < objects.process.nextDescriptor ∧ objects.deleted address = false then
    some (objects.process.descriptors address).cnt
  else none

/-- The descriptor that an object points to. -/
def points (objects : Objects ω) (place : Nat) : Nat :=
  HasDescriptor.descriptor (objects.object place)

/-- How many objects point to the same descriptor as one of them. -/
def sharers (objects : Objects ω) (place : Nat) : Nat :=
  Counting.referents objects.live objects.points (objects.points place)

/-- Look at a descriptor. -/
def touch (address : Nat) (objects : Objects ω) : Objects ω :=
  { objects with misused := objects.misused || (objects.count address).isNone }

/-- One count has been taken away: with the last one the descriptor is deleted. -/
def giveUp (address : Nat) (after : Process) (objects : Objects ω) : Objects ω :=
  { objects.touch address with
    process := after
    deleted := Function.update objects.deleted address
      (objects.deleted address || (after.descriptors address).cnt = 0) }

/-- Add a count. -/
def share (address : Nat) (objects : Objects ω) : Objects ω :=
  { objects.touch address with
    process := objects.process.setDescriptor address fun desc => { desc with cnt := desc.cnt + 1 } }

/-- Put an object in its place. -/
def put (place : Nat) (value : ω) (objects : Objects ω) : Objects ω :=
  { objects with
    live := insert place objects.live
    object := Function.update objects.object place value }

/-- Make a descriptor and put an object that points to it in its place. -/
def putNew (place : Nat) (make : Nat → ω) (objects : Objects ω) : Objects ω :=
  { objects with process := objects.process.newDescriptor.2 }.put place
    (make objects.process.newDescriptor.1)

/-- Remove an object. -/
def remove (place : Nat) (objects : Objects ω) : Objects ω :=
  { objects with live := objects.live.erase place }

/-! ## Counts -/

variable {objects : Objects ω} {address place source : Nat} {after : Process}

omit [HasDescriptor ω] in
theorem count_giveUp (drops : Drops address objects.process after) :
    (objects.giveUp address after).count = Counting.release address objects.count := by
  funext other
  unfold count Counting.release
  change (if other < after.nextDescriptor ∧ Function.update objects.deleted address
    (objects.deleted address || (after.descriptors address).cnt = 0) other = false then
      some (after.descriptors other).cnt else none) = _
  rw [drops.next, drops.cnt, drops.cnt]
  by_cases same : other = address
  · subst same
    rw [Function.update_self, Function.update_self, if_pos rfl]
    dsimp only
    by_cases there : other < objects.process.nextDescriptor ∧ objects.deleted other = false
    · rw [if_pos there, Option.bind_some, there.2]
      by_cases last : (objects.process.descriptors other).cnt ≤ 1
      · rw [if_pos last, if_neg]
        simp [Nat.sub_eq_zero_of_le last]
      · rw [if_neg last, if_pos ⟨there.1, by simp; omega⟩]
    · rw [if_neg there, Option.bind_none, if_neg]
      rintro ⟨below, undeleted⟩
      simp only [Bool.or_eq_false_iff] at undeleted
      exact there ⟨below, undeleted.1⟩
  · rw [Function.update_of_ne same, Function.update_of_ne same, if_neg same, Nat.sub_zero]

omit [HasDescriptor ω] in
theorem count_share (address : Nat) (objects : Objects ω) :
    (objects.share address).count = Counting.acquire address objects.count := by
  funext other
  unfold count Counting.acquire
  change (if other < objects.process.nextDescriptor ∧ objects.deleted other = false then
    some ((objects.process.setDescriptor address fun desc =>
      { desc with cnt := desc.cnt + 1 }).descriptors other).cnt else none) = _
  by_cases same : other = address
  · subst same
    rw [Function.update_self]
    dsimp only
    split
    · simp
    · rfl
  · rw [Function.update_of_ne same]
    simp only [Process.setDescriptor, Function.update_of_ne same]

omit [HasDescriptor ω] in
theorem count_putNew (place : Nat) (make : Nat → ω) (objects : Objects ω)
    (undeleted : objects.deleted objects.process.nextDescriptor = false) :
    (objects.putNew place make).count =
      Counting.allot objects.process.nextDescriptor objects.count := by
  funext other
  unfold count Counting.allot
  change (if other < objects.process.nextDescriptor + 1 ∧ objects.deleted other = false then
    some ((objects.process.setDescriptor objects.process.nextDescriptor fun _ => {}).descriptors
      other).cnt else none) = _
  by_cases same : other = objects.process.nextDescriptor
  · subst same
    rw [Function.update_self, if_pos ⟨by omega, undeleted⟩]
    simp
  · rw [Function.update_of_ne same]
    by_cases below : other < objects.process.nextDescriptor
    · simp only [Process.setDescriptor, Function.update_of_ne same, below,
        Nat.lt_succ_of_lt below, true_and]
    · have above : ¬other < objects.process.nextDescriptor + 1 := by omega
      rw [if_neg fun both => above both.1, if_neg fun both => below both.1]

theorem points_put (place : Nat) (value : ω) (objects : Objects ω) :
    (objects.put place value).points =
      Function.update objects.points place (HasDescriptor.descriptor value) := by
  funext other
  by_cases same : other = place
  · subst same
    simp [points, put]
  · simp [points, put, same]

/-! ## The invariant -/

/-- The counts are exact, no deleted descriptor has been used, and no address is deleted that
has not been handed out. -/
structure Counted (objects : Objects ω) : Prop where
  exact : Counting.Exact objects.live objects.points objects.count
  safe : objects.misused = false
  fresh : ∀ address, objects.process.nextDescriptor ≤ address → objects.deleted address = false

namespace Counted

/-- Before any object is made. -/
theorem empty (object : Nat → ω) : Counted { object := object } := by
  refine ⟨?_, rfl, fun _ _ => rfl⟩
  have none_ : ({ object := object } : Objects ω).count = fun _ => none := by
    funext address
    rfl
  rw [none_]
  exact Counting.Exact.empty _

/-- The descriptor of an object is one that has been handed out. -/
theorem points_lt (counted : Counted objects) (member : place ∈ objects.live) :
    objects.points place < objects.process.nextDescriptor := by
  have there := counted.exact.count_of_mem member
  unfold count at there
  split at there
  · rename_i both
    exact both.1
  · cases there

theorem unused (counted : Counted objects) :
    ∀ other ∈ objects.live, objects.points other ≠ objects.process.nextDescriptor := by
  intro other there
  have := counted.points_lt there
  omega

theorem touched (counted : Counted objects) (member : place ∈ objects.live) :
    (objects.touch (objects.points place)).misused = false := by
  rw [touch, counted.safe, counted.exact.count_of_mem member]
  rfl

/-- An object looks at its descriptor, or does not. -/
theorem look (counted : Counted objects) (member : place ∈ objects.live) (looks : Bool) :
    Counted { objects with
      misused := objects.misused || looks && (objects.count (objects.points place)).isNone } := by
  refine ⟨counted.exact, ?_, counted.fresh⟩
  dsimp only
  rw [counted.safe, counted.exact.count_of_mem member, Option.isNone_some, Bool.and_false,
    Bool.or_false]

/-- The count that a descriptor has. -/
theorem cnt (counted : Counted objects) (member : place ∈ objects.live) :
    (objects.process.descriptors (objects.points place)).cnt = objects.sharers place := by
  have there := counted.exact.count_of_mem member
  unfold count at there
  split at there
  · exact Option.some.inj there
  · cases there

theorem fresh_giveUp (counted : Counted objects) (member : place ∈ objects.live)
    (drops : Drops (objects.points place) objects.process after) (address : Nat)
    (beyond : after.nextDescriptor ≤ address) :
    (objects.giveUp (objects.points place) after).deleted address = false := by
  have below := counted.points_lt member
  rw [drops.next] at beyond
  rw [giveUp]
  dsimp only
  rw [Function.update_of_ne (by omega)]
  exact counted.fresh address beyond

/-- The default constructor. -/
theorem create (counted : Counted objects) (absent : place ∉ objects.live) {make : Nat → ω}
    (makes : ∀ address, HasDescriptor.descriptor (make address) = address) :
    Counted (objects.putNew place make) := by
  have undeleted := counted.fresh _ (le_refl objects.process.nextDescriptor)
  have created := counted.exact.create absent counted.unused
  refine ⟨?_, counted.safe, fun address beyond => counted.fresh address ?_⟩
  · rw [count_putNew place make objects undeleted, putNew, points_put, makes]
    exact created
  · exact Nat.le_of_succ_le beyond

/-- The copy constructor. -/
theorem copy (counted : Counted objects) (absent : place ∉ objects.live)
    (there : source ∈ objects.live) {value : ω}
    (same : HasDescriptor.descriptor value = objects.points source) :
    Counted ((objects.share (objects.points source)).put place value) := by
  have copied := counted.exact.copy absent there
  rw [← count_share] at copied
  refine ⟨?_, counted.touched there, counted.fresh⟩
  rw [points_put, same]
  exact copied

/-- The destructor. -/
theorem destroy (counted : Counted objects) (member : place ∈ objects.live)
    (drops : Drops (objects.points place) objects.process after) :
    Counted ((objects.giveUp (objects.points place) after).remove place) := by
  have destroyed := counted.exact.destroy member
  rw [← count_giveUp drops] at destroyed
  exact ⟨destroyed, counted.touched member, counted.fresh_giveUp member drops⟩

/-- `clear`. -/
theorem clear (counted : Counted objects) (member : place ∈ objects.live)
    (drops : Drops (objects.points place) objects.process after) {make : Nat → ω}
    (makes : ∀ address, HasDescriptor.descriptor (make address) = address) :
    Counted ((objects.giveUp (objects.points place) after).putNew place make) := by
  have cleared := counted.exact.clear member counted.unused
  have fresh := counted.fresh_giveUp member drops
  have undeleted := fresh after.nextDescriptor (le_refl _)
  rw [← count_giveUp drops, ← drops.next] at cleared
  refine ⟨?_, counted.touched member, fun address beyond => fresh address ?_⟩
  · rw [count_putNew place make _ undeleted, putNew, points_put, makes]
    change Counting.Exact (insert place objects.live)
      (Function.update objects.points place after.nextDescriptor) _
    rw [Finset.insert_eq_of_mem member]
    exact cleared
  · exact Nat.le_of_succ_le beyond

/-- The assignment. -/
theorem assign (counted : Counted objects) (member : place ∈ objects.live)
    (there : source ∈ objects.live) (spared : source = place → objects.sharers place ≠ 1)
    (drops : Drops (objects.points place) objects.process after) {value : ω}
    (same : HasDescriptor.descriptor value = objects.points source) :
    Counted (((objects.giveUp (objects.points place) after).share
      (objects.points source)).put place value) := by
  have assigned := counted.exact.assign member there spared
  have exists_ := assigned.count_of_mem member
  rw [Function.update_self, Counting.acquire, Function.update_self] at exists_
  rw [← count_giveUp drops] at assigned exists_
  rw [← count_share] at assigned
  refine ⟨?_, ?_, counted.fresh_giveUp member drops⟩
  · rw [points_put, same]
    change Counting.Exact (insert place objects.live)
      (Function.update objects.points place (objects.points source)) _
    rw [Finset.insert_eq_of_mem member]
    exact assigned
  · have safe := counted.touched member
    change ((objects.touch (objects.points place)).misused ||
      ((objects.giveUp (objects.points place) after).count (objects.points source)).isNone) = false
    rw [safe, Bool.false_or]
    cases found : (objects.giveUp (objects.points place) after).count (objects.points source) with
    | none =>
        rw [found] at exists_
        cases exists_
    | some n => rfl

/-- A call that changes no count and no pointer. -/
theorem change (counted : Counted objects) (member : place ∈ objects.live) {value : ω}
    (same : HasDescriptor.descriptor value = objects.points place)
    (cnt : ∀ address, (after.descriptors address).cnt =
      (objects.process.descriptors address).cnt)
    (next : after.nextDescriptor = objects.process.nextDescriptor) :
    Counted ({ objects.touch (objects.points place) with process := after }.put place value) := by
  have count : ({ objects.touch (objects.points place) with process := after }.put place
      value).count = objects.count := by
    funext address
    unfold Objects.count
    change (if address < after.nextDescriptor ∧ objects.deleted address = false then
      some (after.descriptors address).cnt else none) = _
    rw [next, cnt]
  refine ⟨?_, counted.touched member, ?_⟩
  · rw [count, points_put, same]
    change Counting.Exact (insert place objects.live)
      (Function.update objects.points place (objects.points place)) _
    rw [Finset.insert_eq_of_mem member, Function.update_eq_self]
    exact counted.exact
  · intro address beyond
    exact counted.fresh address (next ▸ beyond)

end Counted

/-! ## What it comes to -/

/-- The count of each descriptor that exists is the number of objects that point to it, none is
used behind its end, and a descriptor is deleted when no object points to it any more. -/
structure CountsExact (objects : Objects ω) : Prop where
  cnt : ∀ address < objects.process.nextDescriptor, objects.deleted address = false →
    (objects.process.descriptors address).cnt =
      Counting.referents objects.live objects.points address
  safe : objects.misused = false
  ends : ∀ address < objects.process.nextDescriptor,
    objects.deleted address = true ↔ ∀ place ∈ objects.live, objects.points place ≠ address

theorem Counted.countsExact (counted : Counted objects) : CountsExact objects := by
  have exists_ (address : Nat) (below : address < objects.process.nextDescriptor) :
      objects.deleted address = false ↔ (objects.count address).isSome = true := by
    unfold count
    cases deleted : objects.deleted address with
    | true => simp
    | false => simp [below]
  refine ⟨fun address below undeleted => ?_, counted.safe, fun address below => ?_⟩
  · have there := counted.exact address
    rw [count, if_pos ⟨below, undeleted⟩] at there
    split at there
    · cases there
    · exact Option.some.inj there
  · have pointed := (exists_ address below).trans (counted.exact.isSome_iff address)
    constructor
    · intro deleted place member same
      rw [pointed.mpr ⟨place, member, same⟩] at deleted
      cases deleted
    · intro none_
      by_contra undeleted
      obtain ⟨place, member, same⟩ := pointed.mp (by simpa using undeleted)
      exact none_ place member same

end Objects

end IpUtils
