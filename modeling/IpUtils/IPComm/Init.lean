import IpUtils.IPComm.Sendto

/-! # Resolving the address of a peer

`Init` asks `getaddrinfo` for the address of a host and `getnameinfo` for the name of that
address. Both are asked again while they answer `EAI_AGAIN`; the number of tries is one
counter for the two.
-/

namespace IpUtils

open CLib IPComm

/-- What the loops distinguish: success, `EAI_AGAIN`, and every other error. -/
inductive Verdict where
  | success
  | again
  | failure
  deriving DecidableEq, Repr

/-- An error of the resolver with the text of `gai_strerror` or, for `EAI_SYSTEM`, `strerror`. -/
structure ResolverError where
  again : Bool
  reason : Bytes
  deriving DecidableEq, Repr

/-- An entry of the list that `getaddrinfo` delivers; `addr` has `ai_addrlen` bytes. -/
structure AddrInfo where
  family : Int
  addr : Bytes
  deriving DecidableEq, Repr

/-- What a call of the resolver answers. -/
inductive ResolverReply (α : Type) where
  | found (result : α)
  | failed (ecode : ResolverError)
  deriving DecidableEq, Repr

namespace ResolverReply

variable {α : Type}

def verdict : ResolverReply α → Verdict
  | .found _ => .success
  | .failed ecode => if ecode.again then .again else .failure

theorem verdict_failed_ne (ecode : ResolverError) :
    (ResolverReply.failed ecode : ResolverReply α).verdict ≠ .success := by
  simp only [verdict]
  split <;> simp

/-- The loops of `Init` and `ResolveDNSName`: the last answer, and the tries that are left. A
success is not counted. -/
def retryLoop (retryCnt : Int) : List (ResolverReply α) → Option (ResolverReply α × Int)
  | [] => none
  | reply :: replies =>
      match reply.verdict with
      | .success => some (reply, retryCnt)
      | verdict =>
          let retryCnt := toInt (retryCnt - 1)
          if retryCnt = 0 ∨ verdict ≠ .again then some (reply, retryCnt)
          else retryLoop retryCnt replies

/-- The first answer that is not `EAI_AGAIN`, within a number of tries. -/
def decision (tries : Nat) (replies : List (ResolverReply α)) : Option (ResolverReply α) :=
  (replies.take tries).find? fun reply => reply.verdict ≠ .again

/-- The answers before it. -/
def waits (replies : List (ResolverReply α)) : Nat :=
  (replies.takeWhile fun reply => reply.verdict = .again).length

/-- The counter is positive, or the first answer makes it superfluous. -/
def Ready (retryCnt : Int) (replies : List (ResolverReply α)) : Prop :=
  1 ≤ retryCnt ∨ ∀ reply, replies.head? = some reply → reply.verdict ≠ .again

/-- With a positive counter a loop ends within its tries, and it ends with the answer that
decides it, if there is one. -/
theorem retryLoop_spec {replies : List (ResolverReply α)} {retryCnt : Int} (positive : 0 ≤ retryCnt)
    (small : retryCnt < 2 ^ 31) (ready : Ready retryCnt replies)
    (enough : max 1 retryCnt.toNat ≤ replies.length) :
    ∃ reply left, retryLoop retryCnt replies = some (reply, left) ∧
      (reply.verdict = .success →
        left = retryCnt - waits replies ∧ 0 ≤ left ∧ (0 < retryCnt → 0 < left) ∧
          decision (max 1 retryCnt.toNat) replies = some reply) ∧
      (reply.verdict ≠ .success →
        ∀ decided, decision (max 1 retryCnt.toNat) replies = some decided →
          decided.verdict ≠ .success) := by
  induction replies generalizing retryCnt with
  | nil => simp at enough
  | cons reply replies ih =>
      obtain ⟨tries, count⟩ : ∃ tries, max 1 retryCnt.toNat = tries + 1 :=
        ⟨max 1 retryCnt.toNat - 1, by omega⟩
      rw [count]
      rcases verdict : reply.verdict
      · refine ⟨reply, retryCnt, by rw [retryLoop, verdict], ?_, ?_⟩
        · intro _
          simp [waits, decision, verdict, positive]
        · intro failed
          exact absurd verdict failed
      · have atLeastOne : 1 ≤ retryCnt := by
          rcases ready with ready | ready
          · exact ready
          · exact absurd verdict (ready reply rfl)
        have next : toInt (retryCnt - 1) = retryCnt - 1 :=
          Int.bmod_eq_of_le (by omega) (by omega)
        have waited : waits (reply :: replies) = waits replies + 1 := by simp [waits, verdict]
        have decided : decision (tries + 1) (reply :: replies) = decision tries replies := by
          simp [decision, verdict]
        by_cases last : retryCnt = 1
        · subst last
          have none : tries = 0 := by omega
          refine ⟨reply, 0, ?_, ?_, ?_⟩
          · rw [retryLoop, verdict]
            simp [toInt]
          · intro success
            simp [success] at verdict
          · intro _ other found
            rw [decided, none] at found
            simp [decision] at found
        · rw [List.length_cons] at enough
          obtain ⟨final, left, ends, succeeds, fails⟩ := @ih (retryCnt - 1) (by omega)
            (by omega) (Or.inl (by omega)) (by omega)
          have same : max 1 (retryCnt - 1).toNat = tries := by omega
          rw [same] at succeeds fails
          refine ⟨final, left, ?_, ?_, ?_⟩
          · rw [retryLoop, verdict]
            simp only [next, ne_eq, not_true_eq_false, or_false]
            rw [if_neg (by omega), ends]
          · intro success
            obtain ⟨remaining, atLeast, more, settled⟩ := succeeds success
            rw [waited, decided]
            exact ⟨by omega, atLeast, fun _ => more (by omega), settled⟩
          · intro failed
            rw [decided]
            exact fails failed
      · refine ⟨reply, toInt (retryCnt - 1), ?_, ?_, ?_⟩
        · rw [retryLoop, verdict]
          simp
        · intro success
          simp [success] at verdict
        · intro _ other found
          have self : reply = other := by simpa [decision, verdict] using found
          rw [← self, verdict]
          simp

/-- A counter that starts at zero does not end a loop. -/
theorem retryLoop_eq_none {replies : List (ResolverReply α)} {retryCnt : Int}
    (positive : 0 ≤ retryCnt) (unready : ¬ Ready retryCnt replies)
    (enough : replies.length = max 1 retryCnt.toNat) : retryLoop retryCnt replies = none := by
  obtain ⟨zero, first⟩ := not_or.mp unready
  have start : retryCnt = 0 := by omega
  subst start
  obtain ⟨reply, rfl⟩ := List.length_eq_one_iff.mp enough
  have again : reply.verdict = .again := by simpa using first
  rw [retryLoop, again]
  simp [toInt, retryLoop]

end ResolverReply

namespace Endpoint

/-- `NI_MAXHOST`. -/
def niMaxhost : Nat := 1025

/-- `ResolveDNSName`. The name is kept in a string of fixed length. -/
def resolveDNSName (retryCnt : Int) (replies : List (ResolverReply Bytes)) (comm : Endpoint)
    (error : ErrorHandler) : Option (Endpoint × ErrorHandler) :=
  if comm.addressFamily = afUnspec then
    some (comm, error.init ErrorHandler.EX_SOFTWARE
      "IPComm::ResolveDNSName(): address_family is AF_UNSPEC" [])
  else if comm.addressFamily ≠ afInet ∧ comm.addressFamily ≠ afInet6 then
    some (comm, error.init ErrorHandler.EX_SOFTWARE
      "IPComm::ResolveDNSName(): unknown address_family: %d." [.num comm.addressFamily])
  else
    match ResolverReply.retryLoop retryCnt replies with
    | none => none
    | some (.found name, _) =>
        let host := store (List.replicate (niMaxhost + 1) 0) 0 name
        some ({ comm with dnsNames := comm.dnsNames ++ [host] }, error)
    | some (.failed ecode, _) =>
        some ({ comm with dnsNames := [] }, error.init ErrorHandler.EX_OSERR
          "IPComm::ResolveDNSName(): %s" [.str ecode.reason])

/-- The size of the structure for a family that `Init` knows. -/
def sizeofSockaddr (family : Int) : Option Nat :=
  if family = afInet then some sizeofSockaddrIn
  else if family = afInet6 then some sizeofSockaddrIn6
  else none

/-- The loop over the addresses, which ends at the first. -/
def installAddress (addresses : List AddrInfo) (comm : Endpoint) :
    Endpoint × Option Msg :=
  match addresses with
  | [] => (comm, none)
  | address :: _ =>
      let comm := comm.setAddressFamily address.family
      match sizeofSockaddr comm.addressFamily with
      | some size =>
          if address.addr.length ≠ size then
            (comm, some
              { format := "IPComm::Init(): ai_addrlen: %ld, does not match struct size: %ld"
                args := [.num address.addr.length, .num size] })
          else (comm.copySockaddr address.addr, none)
      | none =>
          (comm, some
            { format := "IPComm::Init(): unknown address family: %d"
              args := [.num comm.addressFamily] })

/-- The family that `Init` hints at. -/
def hintedFamily (family : Int) : Int :=
  if family ≠ afUnspec then afUnspec else family

/-- `Init`. What `getaddrinfo` answers to one call after the other depends on the family that it
is given as a hint. -/
def init (family retryCnt : Int) (getaddrinfo : Int → List (ResolverReply (List AddrInfo)))
    (getnameinfo : List (ResolverReply Bytes)) (comm : Endpoint) (error : ErrorHandler) :
    Option (Endpoint × ErrorHandler) :=
  match ResolverReply.retryLoop retryCnt (getaddrinfo (hintedFamily family)) with
  | none => none
  | some (.failed ecode, _) =>
      some (comm, error.init ErrorHandler.EX_OSERR "IPComm::Init(): %s" [.str ecode.reason])
  | some (.found addresses, retryCnt) =>
      match comm.installAddress addresses with
      | (comm, some message) =>
          some (comm, error.init ErrorHandler.EX_SOFTWARE message.format message.args)
      | (comm, none) => comm.resolveDNSName retryCnt getnameinfo error

/-- `Init` returns, and without an event of its own it leaves the family that has been asked for. -/
def HonoursFamily (family : Int) (before : ErrorHandler)
    (result : Option (Endpoint × ErrorHandler)) : Prop :=
  ∃ comm error, result = some (comm, error) ∧
    (error = before → family ≠ afUnspec → comm.addressFamily = family)

/-- The family of the first address, or the one that is kept when there is none. -/
def chosenFamily (addresses : List AddrInfo) (comm : Endpoint) : Int :=
  match addresses with
  | [] => comm.addressFamily
  | address :: _ => address.family

/-- The family is one that `Init` knows, and an address has the size that it has for it. -/
def Usable (addresses : List AddrInfo) (comm : Endpoint) : Prop :=
  match addresses with
  | [] => (sizeofSockaddr comm.addressFamily).isSome
  | address :: _ => sizeofSockaddr address.family = some address.addr.length

open ResolverReply in
/-- The counter is positive, or neither loop has to wait; and an address that can be used and has a
name is of the family that has been asked for. -/
def HonouredBy (family retryCnt : Int) (addresses : List (ResolverReply (List AddrInfo)))
    (names : List (ResolverReply Bytes)) (comm : Endpoint) : Prop :=
  Ready retryCnt addresses ∧
    ∀ found, decision (max 1 retryCnt.toNat) addresses = some (.found found) →
      Usable found comm →
      Ready (retryCnt - waits addresses) names ∧
        (family ≠ afUnspec →
          (∃ name, decision (max 1 (retryCnt - waits addresses).toNat) names = some (.found name)) →
          chosenFamily found comm = family)

theorem hintedFamily_eq (family : Int) : hintedFamily family = afUnspec := by
  unfold hintedFamily
  split
  · rfl
  · next unspecified => exact not_not.mp unspecified

theorem isSome_sizeofSockaddr {family : Int} :
    (sizeofSockaddr family).isSome ↔ family = afInet ∨ family = afInet6 := by
  unfold sizeofSockaddr
  split
  · simp_all
  · split <;> simp_all

/-- What can be used is installed, and everything else is an error. -/
theorem installAddress_cases (addresses : List AddrInfo) (comm : Endpoint) :
    (Usable addresses comm ∧ ∃ comm', comm.installAddress addresses = (comm', none) ∧
      comm'.addressFamily = chosenFamily addresses comm ∧
      (sizeofSockaddr comm'.addressFamily).isSome) ∨
    (¬ Usable addresses comm ∧
      ((∃ comm' message, comm.installAddress addresses = (comm', some message)) ∨
        (comm.installAddress addresses = (comm, none) ∧
          ¬ (sizeofSockaddr comm.addressFamily).isSome))) := by
  rcases addresses with _ | ⟨address, addresses⟩
  · by_cases known : (sizeofSockaddr comm.addressFamily).isSome
    · exact Or.inl ⟨known, comm, rfl, rfl, known⟩
    · exact Or.inr ⟨known, Or.inr ⟨rfl, known⟩⟩
  · simp only [installAddress, addressFamily_setAddressFamily, Usable]
    rcases listed : sizeofSockaddr address.family with _ | size
    · exact Or.inr ⟨by simp, Or.inl ⟨_, _, rfl⟩⟩
    · by_cases matching : address.addr.length = size
      · refine Or.inl ⟨by rw [matching], _, if_neg (by simpa using matching), ?_, ?_⟩
        · simp [chosenFamily]
        · simp [listed]
      · refine Or.inr ⟨?_, Or.inl ⟨_, _, if_pos matching⟩⟩
        intro same
        exact matching (Option.some.inj same).symm

variable {comm : Endpoint} {error : ErrorHandler} {names : List (ResolverReply Bytes)}
  {retryCnt : Int}

theorem resolveDNSName_of_unknown (unknown : ¬ (sizeofSockaddr comm.addressFamily).isSome) :
    ∃ raised, comm.resolveDNSName retryCnt names error = some (comm, raised) ∧ raised ≠ error := by
  rw [isSome_sizeofSockaddr, not_or] at unknown
  unfold resolveDNSName
  split
  · exact ⟨_, rfl, ErrorHandler.init_ne _ _ _ _⟩
  · exact ⟨_, rfl, ErrorHandler.init_ne _ _ _ _⟩

/-- With a family that it knows, `ResolveDNSName` asks for a name. -/
theorem resolveDNSName_of_known (known : (sizeofSockaddr comm.addressFamily).isSome) :
    comm.resolveDNSName retryCnt names error =
      match ResolverReply.retryLoop retryCnt names with
      | none => none
      | some (.found name, _) =>
          some ({ comm with
            dnsNames := comm.dnsNames ++ [store (List.replicate (niMaxhost + 1) 0) 0 name] }, error)
      | some (.failed ecode, _) =>
          some ({ comm with dnsNames := [] }, error.init ErrorHandler.EX_OSERR
            "IPComm::ResolveDNSName(): %s" [.str ecode.reason]) := by
  rw [isSome_sizeofSockaddr] at known
  have specified : comm.addressFamily ≠ afUnspec := by
    rcases known with known | known <;> rw [known] <;> decide
  have listed : ¬ (comm.addressFamily ≠ afInet ∧ comm.addressFamily ≠ afInet6) := by
    rintro ⟨first, second⟩
    exact known.elim first second
  rw [resolveDNSName, if_neg specified, if_neg listed]

open ResolverReply in
theorem resolveDNSName_honours (family : Int) (known : (sizeofSockaddr comm.addressFamily).isSome)
    (positive : 0 ≤ retryCnt) (small : retryCnt < 2 ^ 31)
    (enough : max 1 retryCnt.toNat ≤ names.length) (ready : Ready retryCnt names) :
    HonoursFamily family error (comm.resolveDNSName retryCnt names error) ↔
      (family ≠ afUnspec →
        (∃ name, decision (max 1 retryCnt.toNat) names = some (.found name)) →
        comm.addressFamily = family) := by
  obtain ⟨reply, left, ends, succeeds, fails⟩ := retryLoop_spec positive small ready enough
  rw [resolveDNSName_of_known known, ends]
  rcases reply with name | ecode
  · have decided := (succeeds rfl).2.2.2
    constructor
    · rintro ⟨comm', error', returned, honoured⟩ specified _
      obtain ⟨rfl, rfl⟩ := Prod.mk.inj (Option.some.inj returned)
      exact honoured rfl specified
    · intro given
      exact ⟨_, _, rfl, fun _ specified => given specified ⟨name, decided⟩⟩
  · refine iff_of_true ?_ ?_
    · exact ⟨_, _, rfl, fun same => absurd same (ErrorHandler.init_ne _ _ _ _)⟩
    · rintro _ ⟨name, decided⟩
      exact absurd rfl (fails (verdict_failed_ne ecode) _ decided)

open ResolverReply in
/-- `Init` honours its parameters exactly when the counter is positive or superfluous and when
the address it takes has the family that has been asked for, which it never tells the resolver. -/
theorem init_honours_iff (family retryCnt : Int)
    (getaddrinfo : Int → List (ResolverReply (List AddrInfo))) (getnameinfo : List (ResolverReply Bytes))
    (comm : Endpoint) (error : ErrorHandler) (positive : 0 ≤ retryCnt) (small : retryCnt < 2 ^ 31)
    (addresses : ∀ hint, (getaddrinfo hint).length = max 1 retryCnt.toNat)
    (names : getnameinfo.length = max 1 retryCnt.toNat) :
    HonoursFamily family error (comm.init family retryCnt getaddrinfo getnameinfo error) ↔
      HonouredBy family retryCnt (getaddrinfo afUnspec) getnameinfo comm := by
  unfold init HonouredBy
  rw [hintedFamily_eq]
  by_cases ready : Ready retryCnt (getaddrinfo afUnspec)
  · obtain ⟨reply, left, ends, succeeds, fails⟩ :=
      retryLoop_spec positive small ready (addresses afUnspec).ge
    rw [ends, and_iff_right ready]
    rcases reply with found | ecode
    · obtain ⟨remaining, atLeast, more, decided⟩ := succeeds rfl
      rcases installAddress_cases found comm with ⟨usable, comm', installed, chosen, known⟩ |
        ⟨unusable, refused⟩
      · have given (conclusion : List AddrInfo → Prop) :
            (∀ other, decision (max 1 retryCnt.toNat) (getaddrinfo afUnspec) = some (.found other) →
              Usable other comm → conclusion other) ↔ conclusion found := by
          constructor
          · intro all
            exact all found decided usable
          · intro holds other same _
            have equal : found = other := by
              simpa using decided.symm.trans same
            exact equal ▸ holds
        simp only [installed]
        rw [given, ← remaining, ← chosen]
        by_cases further : Ready left getnameinfo
        · rw [resolveDNSName_honours family known atLeast (by omega) (by omega) further,
            and_iff_right further]
        · refine iff_of_false ?_ (fun both => further both.1)
          have zero : left = 0 := by
            have notPositive := (not_or.mp further).1
            omega
          rw [resolveDNSName_of_known known, retryLoop_eq_none atLeast further (by omega)]
          rintro ⟨_, _, returned, _⟩
          cases returned
      · refine iff_of_true ?_ ?_
        · rcases refused with ⟨comm', message, refused⟩ | ⟨kept, unknown⟩
          · simp only [refused]
            exact ⟨_, _, rfl, fun same => absurd same (ErrorHandler.init_ne _ _ _ _)⟩
          · obtain ⟨raised, returned, changed⟩ :=
              @resolveDNSName_of_unknown _ error getnameinfo left unknown
            simp only [kept]
            exact ⟨_, _, returned, fun same => absurd same changed⟩
        · intro other same usable
          have equal : found = other := by simpa using decided.symm.trans same
          exact absurd (equal ▸ usable) unusable
    · refine iff_of_true ?_ ?_
      · exact ⟨_, _, rfl, fun same => absurd same (ErrorHandler.init_ne _ _ _ _)⟩
      · intro found decided
        exact absurd rfl (fails (verdict_failed_ne ecode) _ decided)
  · refine iff_of_false ?_ (fun given => ready given.1)
    rw [retryLoop_eq_none positive ready (addresses afUnspec)]
    rintro ⟨comm', error', returned, _⟩
    cases returned

/-- A resolver that delivers only addresses of the family that it is given, unless it is
unspecified. -/
def ObeysHint (getaddrinfo : Int → List (ResolverReply (List AddrInfo))) : Prop :=
  ∀ hint ≠ afUnspec, ∀ addresses, .found addresses ∈ getaddrinfo hint →
    ∀ address ∈ addresses, address.family = hint

/-- A host that has an address of each family, the one of IPv6 in front. -/
def bothFamilies (hint : Int) : List (ResolverReply (List AddrInfo)) :=
  if hint = afUnspec then
    [.found [{ family := afInet6, addr := List.replicate sizeofSockaddrIn6 0 },
      { family := afInet, addr := List.replicate sizeofSockaddrIn 0 }]]
  else [.found [{ family := hint, addr := List.replicate sizeofSockaddrIn 0 }]]

/-- `EAI_AGAIN`. -/
def tryAgain : ResolverError where
  again := true
  reason := ascii "Temporary failure in name resolution"

/-- The resolver has to be asked again for the address and for the name. -/
theorem init_honours_iff_sample :
    HonoursFamily afInet6 {}
      (Endpoint.init afInet6 3 (fun hint => [.failed tryAgain] ++ bothFamilies hint ++ bothFamilies hint)
        [.failed tryAgain, .found (ascii "host"), .found (ascii "host")] {} {}) := by
  refine (init_honours_iff afInet6 3 _ [.failed tryAgain, .found (ascii "host"),
    .found (ascii "host")] {} {} (by decide) (by decide) ?_ rfl).mpr ⟨Or.inl (by decide), ?_⟩
  · intro hint
    unfold bothFamilies
    split <;> rfl
  · intro found decided usable
    have second : ResolverReply.decision 3
        ([.failed tryAgain] ++ bothFamilies afUnspec ++ bothFamilies afUnspec) =
        some (.found [{ family := afInet6, addr := List.replicate sizeofSockaddrIn6 0 },
          { family := afInet, addr := List.replicate sizeofSockaddrIn 0 }]) := rfl
    have same := ResolverReply.found.inj (Option.some.inj (second.symm.trans decided))
    subst same
    exact ⟨Or.inl (by decide), fun _ _ => rfl⟩

/-- An address of IPv4 has been asked for, and the first one is of IPv6. -/
theorem init_ignores_family :
    ¬ ∀ (family retryCnt : Int) (getaddrinfo : Int → List (ResolverReply (List AddrInfo)))
        (getnameinfo : List (ResolverReply Bytes)) (comm : Endpoint) (error : ErrorHandler),
        0 ≤ retryCnt → retryCnt < 2 ^ 31 → ObeysHint getaddrinfo →
        (∀ hint, (getaddrinfo hint).length = max 1 retryCnt.toNat) →
        getnameinfo.length = max 1 retryCnt.toNat →
        HonoursFamily family error (comm.init family retryCnt getaddrinfo getnameinfo error) := by
  intro always
  have obeys : ObeysHint bothFamilies := by
    intro hint specified addresses found address mem
    simp only [bothFamilies, specified, ↓reduceIte, List.mem_singleton,
      ResolverReply.found.injEq] at found
    rw [found, List.mem_singleton] at mem
    rw [mem]
  have lengths (hint : Int) : (bothFamilies hint).length = 1 := by
    unfold bothFamilies
    split <;> rfl
  obtain ⟨comm, error, returned, honoured⟩ := always afInet 1 bothFamilies [.found []] {} {}
    (by decide) (by decide) obeys lengths rfl
  obtain ⟨rfl, rfl⟩ := Prod.mk.inj (Option.some.inj returned)
  exact absurd (honoured rfl (by decide)) (by decide)

end Endpoint

end IpUtils
