import IpUtils.Session.Conn

/-! # TLS handshakes

`Connect` asks the library about the SSL object of the connection. `Accept` lets the SSL
object of the peer shake hands, and asks about the one of the listener.
-/

namespace IpUtils

open CLib

/-- `SSL_get_error` for a handshake. -/
inductive HandshakeError where
  | zeroReturn
  | wantRead
  | wantWrite
  | wantAccept
  | wantConnect
  | wantX509Lookup
  | syscall
  | ssl
  | other
  deriving DecidableEq, Repr

/-- What the TLS library answers about its objects: `SSL_accept` or `SSL_connect`,
`SSL_get_error`, `SSL_get_peer_certificate`, `SSL_new` and `SSL_set_fd`. -/
structure TLSLibrary (Ssl : Type) where
  handshake : Ssl → Int
  getError : Ssl → Int → HandshakeError
  peerCertificate : Ssl → Option Bytes
  sslNew : Option Ssl
  setFd : Ssl → Bool
  /-- `ERR_peek_error()`. -/
  queued : Bool := false
  /-- `ssl_err_str()`. -/
  text : Bytes := []
  /-- `strerror(errno)`. -/
  reason : Bytes := []

/-- One side of a TLS connection. -/
structure TLSConn (Ssl : Type) where
  fd : Int := descriptorNull
  hostname : Bytes := []
  blocking : Bool := true
  ssl : Option Ssl := none
  peerCertificate : Option Bytes := none
  deriving DecidableEq, Repr

/-- How a handshake ends: it is done, it has to be repeated, or it raises an event. -/
inductive Handshake where
  | done
  | repeated
  | failed (message : Msg)
  deriving DecidableEq, Repr

namespace TLSConn

variable {Ssl : Type}

/-- The branches for a handshake that returns 0, by the answer of `SSL_get_error`. -/
def judgeZero (caller : String) (lib : TLSLibrary Ssl) (code : HandshakeError) (hostname : Bytes)
    (fd : Int) : Msg :=
  match code with
  | .zeroReturn => { format := caller ++ "%s terminated connection", args := [.str hostname] }
  | .syscall =>
      if !lib.queued then
        { format := caller ++ "Recevied EOF while trying to SSL_connect() to %s on %d"
          args := [.str hostname, .num fd] }
      else
        { format := caller ++ "SSL_ERROR_SYSCALL: SSL_connect() to %s failed: %s"
          args := [.str hostname, .str lib.text] }
  | .ssl => { format := caller ++ "Shutdown: SSL_ERROR_SSL: %s", args := [.str lib.text] }
  | _ => { format := caller ++ "unknown ERROR: %s", args := [.str lib.text] }

/-- The branches for a handshake that returns a negative number. -/
def judgeNegative (caller : String) (lib : TLSLibrary Ssl) (code : HandshakeError)
    (blocking : Bool) (hostname : Bytes) (fd : Int) : Handshake :=
  match code with
  | .wantRead | .wantWrite =>
      if blocking then
        .failed
          { format := caller ++ "SSL_ERROR_WANT_READ/SSL_ERROR_WANT_WRITE: " ++
              "on blocking connection to %s (fd %d)"
            args := [.str hostname, .num fd] }
      else .repeated
  | .wantAccept | .wantConnect =>
      if blocking then
        .failed
          { format := caller ++ "SSL_ERROR_WANT_ACCEPT/SSL_ERROR_WANT_CONNECT :" ++
              "on blocking connection to %s (fd %d)"
            args := [.str hostname, .num fd] }
      else .repeated
  | .wantX509Lookup =>
      .failed
        { format := caller ++ "SSL_ERROR_WANT_X509_LOOKUP: with host %s (fd %d)"
          args := [.str hostname, .num fd] }
  | .syscall =>
      if !lib.queued then
        .failed
          { format := caller ++ "SSL_ERROR_SYSCALL: I/O error with %s on fd %d: %s"
            args := [.str hostname, .num fd, .str lib.reason] }
      else .failed { format := caller ++ "SSL_ERROR_SYSCALL: %s", args := [.str lib.text] }
  | .ssl => .failed { format := caller ++ "SSL_ERROR_SSL: %s", args := [.str lib.text] }
  | _ => .failed { format := caller ++ "unknown ERROR: %s", args := [.str lib.text] }

/-- What `Accept` and `Connect` make of the result of a handshake. -/
def judge (caller : String) (lib : TLSLibrary Ssl) (code : HandshakeError) (ret : Int)
    (blocking : Bool) (hostname : Bytes) (fd : Int) : Handshake :=
  if ret = 0 then .failed (judgeZero caller lib code hostname fd)
  else if ret < 0 then judgeNegative caller lib code blocking hostname fd
  else .done

/-- An error of the software. -/
def fail (message : Msg) (error : ErrorHandler) : ErrorHandler :=
  error.init ErrorHandler.EX_SOFTWARE message.format message.args

/-- `Setsockopt` for the timeout, on an open socket of a known family. -/
def setTimeout (failed : Option Bytes) (conn : TLSConn Ssl) (error : ErrorHandler) : ErrorHandler :=
  match failed with
  | none => error
  | some reason =>
      error.init ErrorHandler.EX_IOERR
        "IPComm::Setsockopt(): setsockopt(%d, %d, %d, option_value, %d) failed: %s"
        [.num conn.fd, .num 1, .num 20, .num 4, .str reason]

/-- `Connect`, from where `TCPConn::Connect` has left `error`. -/
def connect (lib : TLSLibrary Ssl) (conn : TLSConn Ssl) (error : ErrorHandler) :
    TLSConn Ssl × ErrorHandler :=
  if error.event then (conn, error.appendMsg "SSLConn::Connect(): " [])
  else
    match conn.ssl with
    | none => (conn, error)
    | some ssl =>
        if !lib.setFd ssl then
          (conn, fail
            { format := "SSLConn::Connect(): SSL_set_fd(3) failed: %s", args := [.str lib.text] } error)
        else
          let ret := lib.handshake ssl
          match judge "SSLConn::Connect(): " lib (lib.getError ssl ret) ret conn.blocking
              conn.hostname conn.fd with
          | .failed message => (conn, fail message error)
          | .repeated => (conn, error)
          | .done => ({ conn with peerCertificate := lib.peerCertificate ssl }, error)

/-- `Accept`, from where `TCPConn::Accept` has left the peer and `error`. -/
def accept (lib : TLSLibrary Ssl) (timeout : Option Bytes) (listener peer : TLSConn Ssl)
    (error : ErrorHandler) : TLSConn Ssl × ErrorHandler :=
  if error.event then (peer, error.appendMsg "SSLConn::Accept(): " [])
  else
    let error := setTimeout timeout peer error
    match listener.ssl with
    | none => (peer, error)
    | some ssl =>
        let peer := { peer with ssl := lib.sslNew }
        match lib.sslNew with
        | none =>
            (peer, fail
              { format := "SSLConn::Accept(): SSL_new(3) failed: %s", args := [.str lib.text] } error)
        | some peerSsl =>
            if !lib.setFd peerSsl then
              (peer, fail
                { format := "SSLConn::Accept(): SSL_set_fd(3) failed: %s", args := [.str lib.text] }
                error)
            else
              let ret := lib.handshake peerSsl
              -- the object of the listener is asked, not `peerSsl`
              match judge "SSLConn::Accept: " lib (lib.getError ssl ret) ret listener.blocking
                  peer.hostname listener.fd with
              | .failed message => (peer, fail message error)
              | .repeated => (peer, error)
              | .done => ({ peer with peerCertificate := lib.peerCertificate ssl }, error)

/-- What a caller sees of a handshake: whether there is an event, and the certificate. -/
def outcome (result : TLSConn Ssl × ErrorHandler) : Bool × Option Bytes :=
  (result.2.event, result.1.peerCertificate)

/-- The library answers alike, except about one object. -/
structure AgreesOff (own : Ssl) (lib lib' : TLSLibrary Ssl) : Prop where
  handshake : ∀ ssl ≠ own, lib'.handshake ssl = lib.handshake ssl
  getError : ∀ ssl ≠ own, ∀ ret, lib'.getError ssl ret = lib.getError ssl ret
  peerCertificate : ∀ ssl ≠ own, lib'.peerCertificate ssl = lib.peerCertificate ssl
  sslNew : lib'.sslNew = lib.sslNew
  setFd : lib'.setFd = lib.setFd
  queued : lib'.queued = lib.queued
  text : lib'.text = lib.text
  reason : lib'.reason = lib.reason

/-- The outcome of `Accept` does not depend on the object of the listener, and a handshake that is
done leaves the certificate of the peer. -/
structure JudgesPeer (lib : TLSLibrary Ssl) (own : Ssl) (timeout : Option Bytes)
    (listener peer : TLSConn Ssl) (error : ErrorHandler) : Prop where
  unchanged : ∀ lib', AgreesOff own lib lib' →
    outcome (listener.accept lib' timeout peer error) = outcome (listener.accept lib timeout peer error)
  certificate : ∀ peerSsl, error.event = false → lib.sslNew = some peerSsl →
    lib.setFd peerSsl = true → 0 < lib.handshake peerSsl →
    (listener.accept lib timeout peer error).1.peerCertificate = lib.peerCertificate peerSsl

/-- `Accept` ends before it needs an answer about the handshake, or with an event whatever the
answer is. -/
def EndsEarly (lib : TLSLibrary Ssl) (timeout : Option Bytes) (listener : TLSConn Ssl)
    (error : ErrorHandler) : Prop :=
  error.event = true ∨ ∀ peerSsl, lib.sslNew = some peerSsl → lib.setFd peerSsl = true →
    lib.handshake peerSsl = 0 ∨
      lib.handshake peerSsl < 0 ∧ (listener.blocking = true ∨ timeout.isSome = true)

@[simp] theorem event_fail (message : Msg) (error : ErrorHandler) :
    (fail message error).event = true :=
  ErrorHandler.event_init _ _ _ _

theorem event_setTimeout (timeout : Option Bytes) (conn : TLSConn Ssl) (error : ErrorHandler) :
    (setTimeout timeout conn error).event = (timeout.isSome || error.event) := by
  cases timeout with
  | none => simp [setTimeout]
  | some reason => simp [setTimeout]

section Judge

variable {caller : String} {lib : TLSLibrary Ssl} {code : HandshakeError} {ret : Int}
  {blocking : Bool} {hostname : Bytes} {fd : Int}

theorem judge_of_zero (zero : ret = 0) :
    judge caller lib code ret blocking hostname fd =
      .failed (judgeZero caller lib code hostname fd) :=
  if_pos zero

theorem judge_of_negative (negative : ret < 0) :
    judge caller lib code ret blocking hostname fd =
      judgeNegative caller lib code blocking hostname fd := by
  rw [judge, if_neg (by omega), if_pos negative]

theorem judge_of_positive (positive : 0 < ret) :
    judge caller lib code ret blocking hostname fd = .done := by
  rw [judge, if_neg (by omega), if_neg (by omega)]

theorem judgeNegative_ne_done :
    judgeNegative caller lib code blocking hostname fd ≠ .done := by
  rcases queued : lib.queued <;> cases code <;> cases blocking <;> simp [judgeNegative, queued]

/-- A handshake that has failed on a blocking socket is never repeated. -/
theorem judgeNegative_ne_repeated :
    judgeNegative caller lib code true hostname fd ≠ .repeated := by
  rcases queued : lib.queued <;> cases code <;> simp [judgeNegative, queued]

end Judge

variable {lib : TLSLibrary Ssl} {own : Ssl} {timeout : Option Bytes} {listener peer : TLSConn Ssl}
  {error : ErrorHandler}

/-- What is seen of `Accept` once the peer's object has shaken hands. -/
theorem outcome_accept (uses : listener.ssl = some own) (quiet : error.event = false) {peerSsl : Ssl}
    (made : lib.sslNew = some peerSsl) (bound : lib.setFd peerSsl = true) :
    outcome (listener.accept lib timeout peer error) =
      match judge "SSLConn::Accept: " lib (lib.getError own (lib.handshake peerSsl))
          (lib.handshake peerSsl) listener.blocking peer.hostname listener.fd with
      | .failed _ => (true, peer.peerCertificate)
      | .repeated => (timeout.isSome, peer.peerCertificate)
      | .done => (timeout.isSome, lib.peerCertificate own) := by
  have event := event_setTimeout timeout peer error
  rw [quiet, Bool.or_false] at event
  simp only [accept, quiet, uses, made, bound, Bool.false_eq_true, Bool.not_true, ↓reduceIte]
  split
  · simp [outcome]
  · simp [outcome, event]
  · simp [outcome, event]

/-- An early end is an event, and the peer keeps the certificate that it had. -/
theorem outcome_of_endsEarly (uses : listener.ssl = some own)
    (early : EndsEarly lib timeout listener error) :
    outcome (listener.accept lib timeout peer error) = (true, peer.peerCertificate) := by
  rcases Bool.eq_false_or_eq_true error.event with pending | quiet
  · simp [accept, pending, outcome]
  · rcases made : lib.sslNew with _ | peerSsl
    · simp [accept, quiet, uses, made, outcome]
    · rcases Bool.eq_false_or_eq_true (lib.setFd peerSsl) with bound | unbound
      · rw [outcome_accept uses quiet made bound]
        have ends := (early.resolve_left (by simp [quiet])) peerSsl made bound
        rcases ends with zero | ⟨negative, blocking | refused⟩
        · rw [judge_of_zero zero]
        · rw [judge_of_negative negative, blocking]
          split
          · rfl
          · next repeated => exact absurd repeated judgeNegative_ne_repeated
          · next done => exact absurd done judgeNegative_ne_done
        · rw [judge_of_negative negative, refused]
          split
          · rfl
          · rfl
          · next done => exact absurd done judgeNegative_ne_done
      · simp [accept, quiet, uses, made, unbound, outcome]

theorem EndsEarly.of_agreesOff {lib' : TLSLibrary Ssl} (fresh : lib.sslNew ≠ some own)
    (agrees : AgreesOff own lib lib') (early : EndsEarly lib timeout listener error) :
    EndsEarly lib' timeout listener error := by
  refine early.imp_right ?_
  intro ends peerSsl made bound
  rw [agrees.sslNew] at made
  rw [agrees.setFd] at bound
  have other : peerSsl ≠ own := by
    rintro rfl
    exact fresh made
  rw [agrees.handshake peerSsl other]
  exact ends peerSsl made bound

section Answering

variable [DecidableEq Ssl]

/-- The library with other answers about one object. -/
def answering (own : Ssl) (code : HandshakeError) (certificate : Option Bytes)
    (lib : TLSLibrary Ssl) : TLSLibrary Ssl :=
  { lib with
    getError := Function.update lib.getError own fun _ => code
    peerCertificate := Function.update lib.peerCertificate own certificate }

theorem agreesOff_answering (code : HandshakeError) (certificate : Option Bytes) :
    AgreesOff own lib (answering own code certificate lib) where
  handshake _ _ := rfl
  getError _ other _ := by simp [answering, other]
  peerCertificate _ other := by simp [answering, other]
  sslNew := rfl
  setFd := rfl
  queued := rfl
  text := rfl
  reason := rfl

/-- `Accept` judges the peer exactly when it never needs the answer that it asks for. -/
theorem accept_judgesPeer_iff (lib : TLSLibrary Ssl) (own : Ssl) (timeout : Option Bytes)
    (listener peer : TLSConn Ssl) (error : ErrorHandler) (uses : listener.ssl = some own)
    (fresh : lib.sslNew ≠ some own) :
    JudgesPeer lib own timeout listener peer error ↔ EndsEarly lib timeout listener error := by
  constructor
  · intro judges
    by_contra late
    obtain ⟨pending, late⟩ := not_or.mp late
    have quiet : error.event = false := by simpa using pending
    simp only [not_forall, not_or, not_and, Bool.not_eq_true, exists_prop] at late
    obtain ⟨peerSsl, made, bound, nonzero, further⟩ := late
    -- the answer of the library about the listener's object can be seen
    have seen (code certificate) :=
      (@outcome_accept _ (answering own code certificate lib) own timeout listener peer error
        uses quiet peerSsl made bound).symm.trans
        (judges.unchanged _ (agreesOff_answering code certificate))
    simp only [answering, Function.update_self] at seen
    rcases Int.lt_or_gt_of_ne nonzero with negative | positive
    · obtain ⟨nonblocking, set⟩ := further negative
      have same := (seen .wantRead none).trans (seen .ssl none).symm
      simp [judge_of_negative negative, judgeNegative, nonblocking, set] at same
    · have same := (seen .other none).trans (seen .other (some [])).symm
      simp [judge_of_positive positive] at same
  · intro early
    refine ⟨?_, ?_⟩
    · intro lib' agrees
      rw [outcome_of_endsEarly uses early,
        outcome_of_endsEarly uses (early.of_agreesOff fresh agrees)]
    · intro peerSsl quiet made bound positive
      have ends := (early.resolve_left (by simp [quiet])) peerSsl made bound
      omega

theorem accept_judgesPeer_iff_sample :
    JudgesPeer
      ({ handshake := fun _ => 0, getError := fun _ _ => .zeroReturn, peerCertificate := fun _ => none
         sslNew := some 1, setFd := fun _ => true } : TLSLibrary Nat) 0 none { ssl := some 0 } {} {} :=
  (accept_judgesPeer_iff _ 0 none { ssl := some 0 } {} {} rfl (by decide)).mpr
    (Or.inr fun _ _ _ => Or.inl rfl)

/-- The client shows a certificate, and the listener's object has none. -/
theorem accept_takes_other_certificate :
    ¬ ∀ (lib : TLSLibrary Nat) (own : Nat) (timeout : Option Bytes) (listener peer : TLSConn Nat)
        (error : ErrorHandler), listener.ssl = some own → lib.sslNew ≠ some own →
        JudgesPeer lib own timeout listener peer error := by
  intro always
  have judges := always
    { handshake := fun _ => 1, getError := fun _ _ => .other
      peerCertificate := fun ssl => if ssl = 1 then some (ascii "client") else none
      sslNew := some 1, setFd := fun _ => true }
    0 none { ssl := some 0 } {} {} rfl (by decide)
  have stored := judges.certificate 1 rfl rfl rfl (by decide)
  revert stored
  decide +kernel

end Answering

/-- `Connect` stores the certificate of its own object, and asks about no other one. -/
theorem connect_eq_of_agree {lib' : TLSLibrary Ssl} {conn : TLSConn Ssl} {other : Ssl}
    (agrees : AgreesOff other lib lib') (distinct : conn.ssl ≠ some other) :
    connect lib' conn error = connect lib conn error := by
  rcases known : conn.ssl with _ | ssl
  · simp [connect, known]
  · have same : ssl ≠ other := by
      rintro rfl
      exact distinct known
    have judged (code ret) : judge "SSLConn::Connect(): " lib' code ret conn.blocking conn.hostname
        conn.fd = judge "SSLConn::Connect(): " lib code ret conn.blocking conn.hostname conn.fd := by
      simp only [judge, judgeZero, judgeNegative, agrees.queued, agrees.text, agrees.reason]
    simp only [connect, known, agrees.setFd, agrees.text, agrees.handshake ssl same,
      agrees.getError ssl same, agrees.peerCertificate ssl same, judged]

/-! ## Behind the handshake -/

/-- The connection as `Read` and `Write` find it. -/
def toSSLConn (connected : Bool) (conn : TLSConn Ssl) : SSLConn where
  fd := conn.fd
  hostname := conn.hostname
  blocking := conn.blocking
  connected := connected
  ssl := conn.ssl.isSome

/-- `Connect` leaves the connection as it is, but for the certificate. -/
theorem toSSLConn_connect (connected : Bool) (lib : TLSLibrary Ssl) (conn : TLSConn Ssl)
    (error : ErrorHandler) :
    (conn.connect lib error).1.toSSLConn connected = conn.toSSLConn connected := by
  unfold connect
  split
  · rfl
  · split
    · rfl
    · split
      · rfl
      · dsimp only
        split <;> rfl

/-- A listener with an SSL object makes the peer a connection over TLS as soon as the library
makes an object for it. -/
theorem toSSLConn_accept (connected : Bool) (lib : TLSLibrary Ssl) (timeout : Option Bytes)
    (listener peer : TLSConn Ssl) (error : ErrorHandler) :
    (listener.accept lib timeout peer error).1.toSSLConn connected =
      { peer.toSSLConn connected with
        ssl := if error.event || listener.ssl.isNone then peer.ssl.isSome
          else lib.sslNew.isSome } := by
  unfold accept
  cases raised : error.event with
  | true => rfl
  | false =>
  rw [if_neg Bool.false_ne_true]
  cases listener.ssl with
  | none => rfl
  | some own =>
  cases made : lib.sslNew with
  | none => rfl
  | some peerSsl =>
      dsimp only
      split
      · rfl
      · split <;> rfl

/-- A peer that a listener with an SSL object has accepted without an event is read through the
library. -/
theorem read_accepted {lib : TLSLibrary Ssl} {timeout : Option Bytes} {listener peer : TLSConn Ssl}
    {error : ErrorHandler} (uses : listener.ssl.isSome = true)
    (accepted : (listener.accept lib timeout peer error).2.event = false) (connected : Bool)
    (bufLen : Int) (reply : SSLConn.NetRead) :
    (((listener.accept lib timeout peer error).1.toSSLConn connected).read bufLen reply {}).value =
      reply.tls.result := by
  have secure : ((listener.accept lib timeout peer error).1.toSSLConn connected).ssl = true := by
    rw [toSSLConn_accept]
    obtain ⟨own, has⟩ := Option.isSome_iff_exists.mp uses
    unfold accept at accepted
    cases raised : error.event with
    | true =>
        rw [raised, if_pos rfl] at accepted
        exact absurd (ErrorHandler.event_appendMsg ..) (Bool.eq_false_iff.mp accepted)
    | false =>
        rw [raised, if_neg Bool.false_ne_true, has] at accepted
        cases made : lib.sslNew with
        | none =>
            rw [made] at accepted
            exact absurd (event_fail ..) (Bool.eq_false_iff.mp accepted)
        | some peerSsl =>
            rw [has]
            rfl
  unfold SSLConn.read
  rw [if_pos secure]

end TLSConn

end IpUtils
