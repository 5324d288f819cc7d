import IpUtils.URL.Basic

/-! # Comparing the hosts and ports of URLs

Two hosts match when their names are equal or when they have one address. The addresses
come from `get_reverse_dns`, which asks the resolver for a name that it does not take for a
dotted decimal, and returns NULL when there is none.
-/

namespace IpUtils

open CLib

/-- What `gethostbyname` answers: the list of addresses of a host, or `h_errno`. -/
inductive HostAnswer where
  | found (addrList : List (UInt8 × UInt8 × UInt8 × UInt8))
  | failed (tryAgain : Bool)
  deriving DecidableEq, Repr

/-- A deterministic resolver, with the library's reading of dotted decimals. -/
structure Resolver where
  inetAddr : Bytes → UInt32
  gethostbyname : Bytes → HostAnswer

/-- `INADDR_NONE`, which `inet_addr` returns for a text that is no dotted decimal. -/
def inaddrNone : UInt32 := 0xffffffff

/-- `IPCOMM_DNS_RETRY_CNT`. -/
def ipcommDnsRetryCnt : Nat := 3

/-- `inet_ntoa`. -/
def inetNtoa (address : UInt8 × UInt8 × UInt8 × UInt8) : Bytes :=
  decimal address.1.toNat ++ 46 :: decimal address.2.1.toNat ++ 46 ::
    decimal address.2.2.1.toNat ++ 46 :: decimal address.2.2.2.toNat

namespace Resolver

/-- The loop around `gethostbyname`, with the tries that are left. -/
def ask (net : Resolver) (host : Bytes) : Nat → Option (List (UInt8 × UInt8 × UInt8 × UInt8))
  | 0 =>
      match net.gethostbyname host with
      | .found addrList => some addrList
      | .failed _ => none
  | retryCnt + 1 =>
      match net.gethostbyname host with
      | .found addrList => some addrList
      | .failed tryAgain => if tryAgain then net.ask host retryCnt else none

/-- `get_reverse_dns`, where an `unsigned long` has `longBits` bits: the 32 bits of
`INADDR_NONE` are compared with as many. -/
def getReverseDns (longBits : Nat) (net : Resolver) (host : Bytes) : Option Bytes :=
  if (net.inetAddr host).toNat ≠ 2 ^ longBits - 1 then some host
  else
    match net.ask host ipcommDnsRetryCnt with
    | some (address :: _) => some (inetNtoa address)
    | _ => none

/-- A name gets an address: it is taken for a dotted decimal or the resolver knows it. -/
def Knows (longBits : Nat) (net : Resolver) (host : Bytes) : Prop :=
  32 < longBits ∨ net.inetAddr host ≠ inaddrNone ∨
    ∃ address others, net.gethostbyname host = .found (address :: others)

/-- A deterministic resolver answers a second time what it has answered the first time. -/
theorem ask_eq (net : Resolver) (host : Bytes) (retryCnt : Nat) :
    net.ask host retryCnt = net.ask host 0 := by
  induction retryCnt with
  | zero => rfl
  | succ retryCnt ih =>
      simp only [ask, ih]
      cases net.gethostbyname host <;> simp

/-- Where an `unsigned long` is wider than an address, no name is looked up. -/
theorem getReverseDns_of_wide {longBits : Nat} (wide : 32 < longBits) (net : Resolver)
    (host : Bytes) : net.getReverseDns longBits host = some host := by
  have bound : (net.inetAddr host).toNat < 2 ^ 32 := (net.inetAddr host).toNat_lt
  have power := Nat.pow_lt_pow_right (a := 2) (by omega) wide
  rw [getReverseDns, if_pos (by omega)]

theorem isSome_getReverseDns {longBits : Nat} (wide : 32 ≤ longBits) (net : Resolver)
    (host : Bytes) : (net.getReverseDns longBits host).isSome ↔ net.Knows longBits host := by
  rcases Nat.lt_or_eq_of_le wide with wider | rfl
  · exact iff_of_true (by rw [getReverseDns_of_wide wider]; rfl) (Or.inl wider)
  · have last : (net.inetAddr host).toNat = 2 ^ 32 - 1 ↔ net.inetAddr host = inaddrNone := by
      rw [← UInt32.toNat_inj]
      rfl
    unfold getReverseDns Knows
    split
    · next taken => exact iff_of_true rfl (Or.inr (Or.inl (mt last.mpr taken)))
    · next refused =>
        have none := last.mp (not_not.mp refused)
        rw [ask_eq, ask]
        simp only [Nat.lt_irrefl, none, ne_eq, not_true_eq_false, false_or]
        rcases net.gethostbyname host with (_ | ⟨address, others⟩) | tryAgain <;> simp

end Resolver

namespace URL

/-- `MATCH_PORT`. -/
def matchPort : Int := 1

/-- `CompareTuples`. It has no result when it makes a `std::string` of NULL. -/
def compareTuples (longBits : Nat) (net : Resolver) (url other : URL) (exactPort : Int) :
    Option Int := do
  let hosts ←
    if url.host ≠ other.host then do
      let ip1 ← net.getReverseDns longBits (cstr url.host)
      let ip2 ← net.getReverseDns longBits (cstr other.host)
      some (!(ip1.isEmpty || ip2.isEmpty || ip1 != ip2))
    else some true
  if !hosts then some 0
  else if exactPort ≠ 0 then some (if url.port ≠ other.port then 0 else 1)
  else
    some (if url.port ≠ urlPortNull ∧ other.port ≠ urlPortNull ∧ url.port ≠ other.port then 0 else 1)

variable {longBits : Nat} {net : Resolver} {url other : URL}

/-- The two URLs stand for one host: by name, or by an address that is not empty. -/
def SameHost (longBits : Nat) (net : Resolver) (url other : URL) : Prop :=
  url.host = other.host ∨
    ∃ ip ≠ [], net.getReverseDns longBits (cstr url.host) = some ip ∧
      net.getReverseDns longBits (cstr other.host) = some ip

theorem SameHost.symm (same : SameHost longBits net url other) :
    SameHost longBits net other url := by
  rcases same with name | ⟨ip, nonempty, left, right⟩
  · exact Or.inl name.symm
  · exact Or.inr ⟨ip, nonempty, right, left⟩

theorem SameHost.trans {third : URL} (first : SameHost longBits net url other)
    (second : SameHost longBits net other third) : SameHost longBits net url third := by
  rcases first with name | ⟨ip, nonempty, left, middle⟩
  · unfold SameHost
    rw [name]
    exact second
  · rcases second with name | ⟨ip', nonempty', middle', right⟩
    · exact Or.inr ⟨ip, nonempty, left, name ▸ middle⟩
    · have equal : ip = ip' := Option.some.inj (middle.symm.trans middle')
      exact Or.inr ⟨ip, nonempty, left, equal ▸ right⟩

/-- The two names can be compared without a string made of NULL. -/
def Comparable (longBits : Nat) (net : Resolver) (url other : URL) : Prop :=
  url.host ≠ other.host →
    net.Knows longBits (cstr url.host) ∧ net.Knows longBits (cstr other.host)

open Classical in
/-- What a comparison that matches ports returns. -/
theorem compareTuples_eq (wide : 32 ≤ longBits)
    (comparable : Comparable longBits net url other) :
    compareTuples longBits net url other matchPort =
      some (if SameHost longBits net url other ∧ url.port = other.port then 1 else 0) := by
  by_cases name : url.host = other.host
  · have same : SameHost longBits net url other := Or.inl name
    simp [compareTuples, name, same, matchPort]
  · obtain ⟨left, right⟩ := comparable name
    obtain ⟨ip1, first⟩ := Option.isSome_iff_exists.mp ((Resolver.isSome_getReverseDns wide net _).mpr left)
    obtain ⟨ip2, second⟩ :=
      Option.isSome_iff_exists.mp ((Resolver.isSome_getReverseDns wide net _).mpr right)
    have same : SameHost longBits net url other ↔ ip1 ≠ [] ∧ ip1 = ip2 := by
      unfold SameHost
      rw [first, second]
      constructor
      · rintro (equal | ⟨ip, nonempty, equal, equal'⟩)
        · exact absurd equal name
        · rw [Option.some.inj equal, Option.some.inj equal']
          exact ⟨nonempty, rfl⟩
      · rintro ⟨nonempty, rfl⟩
        exact Or.inr ⟨ip1, nonempty, rfl, rfl⟩
    rw [same]
    by_cases empty : ip1 = []
    · simp [compareTuples, name, first, second, empty]
    · by_cases equal : ip1 = ip2
      · subst equal
        simp [compareTuples, name, first, second, empty, matchPort]
      · simp [compareTuples, name, first, second, equal]

/-- A host that has no address, beside another one, is read from NULL. -/
theorem compareTuples_eq_none (wide : 32 ≤ longBits)
    (incomparable : ¬ Comparable longBits net url other) (exactPort : Int) :
    compareTuples longBits net url other exactPort = none := by
  unfold Comparable at incomparable
  obtain ⟨name, unknown⟩ := Classical.not_imp.mp incomparable
  rw [← Resolver.isSome_getReverseDns wide, ← Resolver.isSome_getReverseDns wide] at unknown
  rcases first : net.getReverseDns longBits (cstr url.host) with _ | ip1
  · simp [compareTuples, name, first]
  · rcases second : net.getReverseDns longBits (cstr other.host) with _ | ip2
    · simp [compareTuples, name, first, second]
    · simp [first, second] at unknown

/-- On three URLs, the comparison with `MATCH_PORT` returns a number, is an equivalence and tells
a host without an address from every other one. -/
structure ComparesWell (longBits : Nat) (net : Resolver) (a b c : URL) : Prop where
  total : ∀ url ∈ [a, b, c], ∀ other ∈ [a, b, c],
    compareTuples longBits net url other matchPort = some 0 ∨
      compareTuples longBits net url other matchPort = some 1
  reflexive : ∀ url ∈ [a, b, c], compareTuples longBits net url url matchPort = some 1
  symmetric : ∀ url ∈ [a, b, c], ∀ other ∈ [a, b, c],
    compareTuples longBits net url other matchPort = compareTuples longBits net other url matchPort
  transitive : compareTuples longBits net a b matchPort = some 1 →
    compareTuples longBits net b c matchPort = some 1 →
    compareTuples longBits net a c matchPort = some 1
  unresolved : ∀ url ∈ [a, b, c], ∀ other ∈ [a, b, c], url.host ≠ other.host →
    ¬ (net.Knows longBits (cstr url.host) ∧ net.Knows longBits (cstr other.host)) →
    compareTuples longBits net url other matchPort = some 0

/-- Three URLs are compared well exactly when each of their hosts has an address, as soon as two
of the hosts differ in name. -/
theorem comparesWell_iff (wide : 32 ≤ longBits) (a b c : URL) :
    ComparesWell longBits net a b c ↔
      ∀ url ∈ [a, b, c], ∀ other ∈ [a, b, c], Comparable longBits net url other := by
  constructor
  · intro well url mem other mem'
    by_contra incomparable
    have none := compareTuples_eq_none wide incomparable matchPort
    rcases well.total url mem other mem' with zero | one
    · rw [none] at zero
      cases zero
    · rw [none] at one
      cases one
  · intro comparable
    have value (url) (mem : url ∈ [a, b, c]) (other) (mem' : other ∈ [a, b, c]) :=
      compareTuples_eq wide (comparable url mem other mem')
    have one (url) (mem : url ∈ [a, b, c]) (other) (mem' : other ∈ [a, b, c]) :
        compareTuples longBits net url other matchPort = some 1 ↔
          SameHost longBits net url other ∧ url.port = other.port := by
      rw [value url mem other mem']
      split <;> simp_all
    refine ⟨?_, ?_, ?_, ?_, ?_⟩
    · intro url mem other mem'
      rw [value url mem other mem']
      split <;> simp
    · intro url mem
      exact (one url mem url mem).mpr ⟨Or.inl rfl, rfl⟩
    · intro url mem other mem'
      rw [value url mem other mem', value other mem' url mem]
      congr 2
      exact propext ⟨fun same => ⟨same.1.symm, same.2.symm⟩, fun same => ⟨same.1.symm, same.2.symm⟩⟩
    · intro first second
      have left := (one a (by simp) b (by simp)).mp first
      have right := (one b (by simp) c (by simp)).mp second
      exact (one a (by simp) c (by simp)).mpr ⟨left.1.trans right.1, left.2.trans right.2⟩
    · intro url mem other mem' distinct unknown
      exact absurd (comparable url mem other mem' distinct) unknown

/-- A resolver that knows no name. -/
def silentResolver : Resolver where
  inetAddr _ := inaddrNone
  gethostbyname _ := .failed false

/-- A resolver that has one address for every name. -/
def oneAddress : Resolver where
  inetAddr _ := inaddrNone
  gethostbyname _ := .found [(10, 0, 0, 1)]

/-- The resolver is not asked where an `unsigned long` has 64 bits; where it has 32 bits, it is
asked and knows the names. -/
theorem comparesWell_iff_sample :
    ComparesWell 64 silentResolver { host := ascii "a" } { host := ascii "b" }
        { host := ascii "a" } ∧
      ComparesWell 32 oneAddress { host := ascii "a" } { host := ascii "b" } { host := ascii "c" } :=
  ⟨(comparesWell_iff (by decide) _ _ _).mpr fun _ _ _ _ _ =>
      ⟨Or.inl (by decide), Or.inl (by decide)⟩,
    (comparesWell_iff (by decide) _ _ _).mpr fun _ _ _ _ _ =>
      ⟨Or.inr (Or.inr ⟨_, _, rfl⟩), Or.inr (Or.inr ⟨_, _, rfl⟩)⟩⟩

/-- Two names without an address, where an `unsigned long` has 32 bits. -/
theorem compareTuples_of_null :
    ¬ ∀ (longBits : Nat) (net : Resolver) (a b c : URL), 32 ≤ longBits →
        ComparesWell longBits net a b c := by
  intro always
  have well := always 32 silentResolver { host := ascii "a" } { host := ascii "b" } {} (by decide)
  have total := well.total { host := ascii "a" } (by simp) { host := ascii "b" } (by simp)
  revert total
  decide +kernel

end URL

end IpUtils
