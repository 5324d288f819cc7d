import IpUtils.HTTP.Locality
import IpUtils.HTTP.Print

/-! # Feeding a printed header to the parsers

A response feeds its parser piece by piece; of a request, this is so for everything
behind the URI.
-/

namespace IpUtils

open CLib Scanner

namespace HTTPFraming

/-! ## The header fields -/

section Feeds

variable {error : ErrorHandler} {exec : Exec HTTPFraming} {next : UInt8}

theorem isspace_headD {text : Bytes} (head : ∃ c rest, text = c :: rest ∧ isspace c = false)
    (more : Bytes) : isspace ((text ++ more).headD next) = false := by
  obtain ⟨c, rest, rfl, solid⟩ := head
  exact solid

/-- No white space to skip. -/
theorem feeds_skip_nil {test : UInt8 → Bool} (fails : test next = false) :
    Feeds (Scanner.skip test : Parse HTTPFraming Unit) [] next exec () exec (Quiet error) :=
  Reads.feeds_nil fun rest => by
    simp only [List.nil_append, Scanner.skip, bind_apply, Scanner.skipWhile,
      List.dropWhile_cons_of_neg (show ¬ test next = true by simp [fails]), Scanner.need,
      List.isEmpty_cons, Bool.false_eq_true, ↓reduceIte]

theorem feeds_parseParameter {param : Rfc822Parameter} (safe : WireSafeParameter param)
    (fits : param.key.length + param.value.length < scratchBufSize)
    (delimiter : next = 59 ∨ next = 13) (calm : Quiet error exec)
    (parameters : List Rfc822Parameter) :
    Feeds (parseParameter parameters) (59 :: 32 :: (param.key ++ 61 :: param.value)) next exec
      (parameters ++ [param]) exec (Quiet error) := by
  have keyPasses : ∀ c ∈ param.key, isKeyByte c = true := fun c member => by
    simp [isKeyByte, (safe.key c member).2.2]
  have valuePasses : ∀ c ∈ param.value, isValueByte c = true := fun c member => by
    simp [isValueByte, (safe.value c member).2.1, (safe.value c member).2.2]
  have blank : ∀ c ∈ ([32] : Bytes), isspace c = true := List.forall_mem_singleton.mpr rfl
  have valueFails : isValueByte next = false := by
    rcases delimiter with rfl | rfl <;> rfl
  have solid : isBlank next = false := by
    rcases delimiter with rfl | rfl <;> rfl
  have shape : 59 :: 32 :: (param.key ++ 61 :: param.value) =
      [59] ++ ([32] ++ (param.key ++ ([61] ++ ([] ++ (param.value ++ ([] ++ [])))))) := by
    simp
  rw [shape]
  exact .bind [59] _ (Feeds.step 59 calm) <|
    .bind [32] _ (Feeds.skip blank (isspace_headD safe.key_head _) calm) <|
    .bind param.key _ (Feeds.token keyPasses rfl (zero_not_mem safe.key) (by omega) calm) <|
    .bind [61] _ (Feeds.step 61 calm) <|
    .bind [] _ (feeds_skip_nil (isspace_headD safe.value_head _)) <|
    .bind param.value _
      (Feeds.token valuePasses valueFails (zero_not_mem safe.value) (by omega) calm) <|
    .bind [] _ (feeds_skip_nil solid) (Feeds.pure _)

/-- The loop over the parameters reads them all. -/
theorem feeds_parameters {parameters : List Rfc822Parameter}
    (safe : ∀ param ∈ parameters, WireSafeParameter param)
    (fits : (parametersText parameters).length < scratchBufSize) (calm : Quiet error exec)
    (before : List Rfc822Parameter) :
    Feeds (Scanner.loop atLineEnd parseParameter before) (parametersText parameters) 13 exec
      (before ++ parameters) exec (Quiet error) := by
  induction parameters generalizing before with
  | nil =>
      rw [List.append_nil]
      exact Feeds.loop_halt fun _ => rfl
  | cons param rest ih =>
      rw [parametersText_cons, List.length_append] at fits
      have delimiter : (parametersText rest).headD 13 = 59 ∨ (parametersText rest).headD 13 = 13 := by
        cases rest <;> simp [parametersText]
      have round := feeds_parseParameter (safe param (by simp))
        (by simp only [List.length_cons, List.length_append] at fits; omega) delimiter calm before
      have others := ih (fun other member => safe other (by simp [member])) (by omega)
        (before ++ [param])
      rw [List.append_assoc] at others
      rw [parametersText_cons]
      exact .loop_round (List.cons_ne_nil _ _) (fun _ => rfl) round others

/-- The object with more fields. -/
def withHdrs (msgHdrs : List Rfc822MsgHdr) (exec : Exec HTTPFraming) : Exec HTTPFraming :=
  { exec with obj := { exec.obj with msgHdrs := exec.obj.msgHdrs ++ msgHdrs } }

theorem quiet_withHdrs (calm : Quiet error exec) (msgHdrs : List Rfc822MsgHdr) :
    Quiet error (withHdrs msgHdrs exec) :=
  calm

/-- The end of a line, the new field and the check that something follows. -/
theorem feeds_storeHdr (msgHdr : Rfc822MsgHdr) (calm : Quiet error exec) :
    Feeds (Scanner.advance >>= fun _ =>
        Parse.assign (fun http : HTTPFraming => { http with msgHdrs := http.msgHdrs ++ [msgHdr] }) >>=
          fun _ => Scanner.need)
      [10] next exec () (withHdrs [msgHdr] exec) (Quiet error) where
  reads _ := rfl
  starves := by
    intro window inhabited front
    obtain ⟨first, rest, rfl⟩ := List.exists_cons_of_ne_nil inhabited
    obtain ⟨rfl, empty⟩ := List.cons_prefix_cons.mp front
    rw [List.prefix_nil.mp empty]
    exact ⟨withHdrs [msgHdr] exec, rfl, calm⟩

theorem feeds_refuseContinuation (solid : isspace next = false) :
    Feeds refuseContinuation [] next exec () exec (Quiet error) :=
  Reads.feeds_nil fun rest => by
    simp only [refuseContinuation, bind_apply, Scanner.current, List.nil_append, List.headD_cons,
      solid, Bool.false_eq_true, ↓reduceIte, pure_apply]

/-- A round of the loop over the fields reads a field. -/
theorem feeds_parseMsgHdr {msgHdr : Rfc822MsgHdr} (safe : WireSafeHdr msgHdr)
    (fits : (hdrText msgHdr).length < scratchBufSize) (calm : Quiet error exec) :
    Feeds (parseMsgHdr >>= fun _ => Scanner.need) (hdrText msgHdr) next exec ()
      (withHdrs [msgHdr] exec) (Quiet error) := by
  have namePasses : ∀ c ∈ msgHdr.fieldName, isNameByte c = true := fun c member => by
    simp [isNameByte, (safe.fieldName c member).2.2]
  have valuePasses : ∀ c ∈ msgHdr.fieldValue, isValueByte c = true := fun c member => by
    simp [isValueByte, (safe.fieldValue c member).2.1, (safe.fieldValue c member).2.2]
  have valueFails : isValueByte
      ((parametersText msgHdr.parameters ++ ([13] ++ ([] ++ [10]))).headD next) = false := by
    cases msgHdr.parameters <;> rfl
  have blank : ∀ c ∈ ([32] : Bytes), isspace c = true := List.forall_mem_singleton.mpr rfl
  have shape : hdrText msgHdr = [] ++ ([] ++ (msgHdr.fieldName ++ ([58] ++ ([32] ++
      (msgHdr.fieldValue ++ (parametersText msgHdr.parameters ++ ([13] ++ ([] ++ [10])))))))) := by
    simp [hdrText, crlf]
  simp only [hdrText, List.length_append, List.length_cons] at fits
  simp only [parseMsgHdr, bind_assoc]
  rw [shape]
  exact .bind [] _ Feeds.need <|
    .bind [] _ (feeds_refuseContinuation (isspace_headD safe.fieldName_head _)) <|
    .bind msgHdr.fieldName _
      (Feeds.token namePasses rfl (zero_not_mem safe.fieldName) (by omega) calm) <|
    .bind [58] _ (Feeds.step 58 calm) <|
    .bind [32] _ (Feeds.skip blank (isspace_headD safe.fieldValue_head _) calm) <|
    .bind msgHdr.fieldValue _
      (Feeds.token valuePasses valueFails (zero_not_mem safe.fieldValue) (by omega) calm) <|
    .bind (parametersText msgHdr.parameters) _
      (feeds_parameters safe.parameters (by omega) calm []) <|
    .bind [13] _ (Feeds.step 13 calm) <|
    .bind [] _ (Feeds.expect 10 _) (feeds_storeHdr msgHdr calm)

/-- The loop over the fields reads them all. -/
theorem feeds_parseMsgHdrs {msgHdrs : List Rfc822MsgHdr}
    (safe : ∀ msgHdr ∈ msgHdrs, WireSafeHdr msgHdr)
    (fits : (hdrsText msgHdrs).length < scratchBufSize) (calm : Quiet error exec) :
    Feeds parseMsgHdrs (hdrsText msgHdrs) 13 exec () (withHdrs msgHdrs exec) (Quiet error) := by
  unfold parseMsgHdrs
  induction msgHdrs generalizing exec with
  | nil =>
      have same : withHdrs [] exec = exec := by simp [withHdrs]
      rw [same]
      exact Feeds.loop_halt fun _ => rfl
  | cons msgHdr rest ih =>
      rw [hdrsText_cons, List.length_append] at fits
      have here := safe msgHdr (by simp)
      have round := @feeds_parseMsgHdr error exec ((hdrsText rest).headD 13) _ here (by omega) calm
      have others := ih (fun other member => safe other (by simp [member])) (by omega)
        (quiet_withHdrs calm [msgHdr])
      have both : withHdrs rest (withHdrs [msgHdr] exec) = withHdrs (msgHdr :: rest) exec := by
        simp [withHdrs]
      rw [both] at others
      obtain ⟨c, name, nameShape, solid⟩ := here.fieldName_head
      have textShape : hdrText msgHdr = c :: (hdrText msgHdr).tail := by
        simp [hdrText, nameShape]
      have running : (c == 13) = false := by
        refine beq_eq_false_iff_ne.mpr ?_
        rintro rfl
        exact absurd solid (by decide)
      rw [hdrsText_cons]
      refine .loop_round (by rw [textShape]; exact List.cons_ne_nil _ _) (fun _ => ?_) round others
      rw [textShape]
      exact running

/-! ## The start lines -/

theorem feeds_slash (calm : Quiet error exec) :
    Feeds (Parse.keyword kHTTPSlash (pure ()) Scanner.stop : Parse HTTPFraming Unit) kHTTPSlash
      next exec () exec (Quiet error) where
  reads rest := by
    have starts : startsWithNoCase kHTTPSlash (kHTTPSlash ++ next :: rest) = true := by
      rw [startsWithNoCase_append (Nat.le_refl _)]
      decide
    have long : kHTTPSlash.length < (kHTTPSlash ++ next :: rest).length := by
      simp only [List.length_append, List.length_cons]
      omega
    simp only [Parse.keyword, bind_apply, Scanner.lookahead, starts, ↓reduceIte,
      Scanner.advanceBy, if_pos long, List.drop_left, pure_apply]
  starves := by
    intro window _ front
    have short : ¬ kHTTPSlash.length < window.length := Nat.not_lt.mpr front.length_le
    refine ⟨exec, ?_, calm⟩
    by_cases starts : startsWithNoCase kHTTPSlash window = true
    · simp only [Parse.keyword, bind_apply, Scanner.lookahead, starts, ↓reduceIte,
        Scanner.advanceBy, if_neg short]
    · simp only [Parse.keyword, bind_apply, Scanner.lookahead, starts, Bool.false_eq_true,
        ↓reduceIte, Scanner.stop]

/-- A number that an `int` holds is read as it is printed. -/
theorem feeds_number {value : Int} (nonneg : 0 ≤ value) (small : value < 2 ^ 31)
    (fits : (printInt value).length < scratchBufSize) (fails : isdigit next = false)
    (calm : Quiet error exec) :
    Feeds (Parse.number : Parse HTTPFraming Int) (printInt value) next exec value exec
      (Quiet error) := by
  obtain ⟨count, rfl⟩ := Int.eq_ofNat_of_zero_le nonneg
  have digits : printInt (count : Int) = decimal count := by
    simp [printInt]
  rw [digits] at fits ⊢
  have same : toInt (strtol 10 (decimal count)) = count := by
    rw [strtol_decimal (by simp only [longMax]; omega), toInt_of_small (by omega) small]
  have passes : ∀ c ∈ decimal count, isdigit c = true := fun c member =>
    isdigit_of_mem_decimal member
  have chain : Feeds (Parse.number : Parse HTTPFraming Int) (decimal count ++ []) next exec
      (toInt (strtol 10 (decimal count))) exec (Quiet error) :=
    .bind (decimal count) [] (Feeds.token passes fails
      (fun member => (isdigit_cases (passes 0 member)).1 rfl) fits calm) (Feeds.pure _)
  rwa [List.append_nil, same] at chain

/-- The version of every header that this library builds. -/
def versionText : Bytes := ascii "HTTP/1.1"

theorem feeds_parseVersion (dot unknown : String) (fails : isdigit next = false)
    (calm : Quiet error exec) :
    Feeds (parseVersion dot unknown) versionText next exec ()
      { exec with obj := { exec.obj with major := 1, minor := 1 } } (Quiet error) := by
  have one : printInt 1 = [49] := by decide
  have shape : versionText = kHTTPSlash ++ (printInt 1 ++ ([] ++ ([46] ++ (printInt 1 ++
      ([] ++ []))))) := by
    decide
  have known : Feeds (checkVersion unknown 1 1) [] next
      { exec with obj := { exec.obj with major := 1, minor := 1 } } ()
      { exec with obj := { exec.obj with major := 1, minor := 1 } } (Quiet error) :=
    Reads.feeds_nil fun _ => rfl
  rw [shape]
  exact .bind kHTTPSlash _ (feeds_slash calm) <|
    .bind (printInt 1) _ (feeds_number (by omega) (by omega) (by rw [one]; decide) rfl calm) <|
    .bind [] _ (Feeds.assign _) <|
    .bind [46] _ (Feeds.expectStep dot calm) <|
    .bind (printInt 1) _ (feeds_number (by omega) (by omega) (by rw [one]; decide) fails calm) <|
    .bind [] [] (Feeds.assign _) known

/-- A reason phrase fits a scratch buffer and has no line end. -/
theorem statusCodePhrase_safe (statusCode : Int) :
    (∀ c ∈ statusCodePhrase statusCode, c ≠ 0 ∧ c ≠ 13) ∧
      (statusCodePhrase statusCode).length < scratchBufSize := by
  unfold statusCodePhrase
  split <;> decide +kernel

/-- The start line of a response and its line end. -/
def statusLineText (statusCode : Int) : Bytes :=
  versionText ++ 32 :: (printInt statusCode ++ 32 :: (statusCodePhrase statusCode ++ crlf))

theorem feeds_parseStatusLine {statusCode : Int} (nonneg : 0 ≤ statusCode)
    (small : statusCode < 2 ^ 31) (fits : (printInt statusCode).length < scratchBufSize)
    (calm : Quiet error exec) :
    Feeds parseStatusLine (statusLineText statusCode) next exec ()
      { exec with obj := { exec.obj with major := 1, minor := 1, statusCode } } (Quiet error) := by
  obtain ⟨phrase, phraseFits⟩ := statusCodePhrase_safe statusCode
  have passes : ∀ c ∈ statusCodePhrase statusCode, isPhraseByte c = true := fun c member => by
    simp [isPhraseByte, (phrase c member).2]
  have shape : statusLineText statusCode = versionText ++ ([32] ++ (printInt statusCode ++
      ([] ++ ([32] ++ (statusCodePhrase statusCode ++ ([13] ++ [10])))))) := by
    simp [statusLineText, crlf]
  rw [shape]
  exact .bind versionText _ (feeds_parseVersion _ _ rfl calm) <|
    .bind [32] _ (Feeds.expectStep _ calm) <|
    .bind (printInt statusCode) _ (feeds_number nonneg small fits rfl calm) <|
    .bind [] _ (Feeds.assign _) <|
    .bind [32] _ (Feeds.expectStep _ calm) <|
    .bind (statusCodePhrase statusCode) _
      (Feeds.token passes rfl (zero_not_mem phrase) phraseFits calm) <|
    .bind [13] _ (Feeds.expectStep _ calm) (Feeds.expectStep _ calm)

theorem feeds_parseRequestVersion (calm : Quiet error exec) :
    Feeds parseRequestVersion (32 :: (versionText ++ crlf)) next exec ()
      { exec with obj := { exec.obj with major := 1, minor := 1 } } (Quiet error) := by
  have shape : 32 :: (versionText ++ crlf) = [] ++ ([32] ++ (versionText ++ ([13] ++ [10]))) := by
    simp [crlf]
  rw [shape]
  exact .bind [] _ Feeds.need <|
    .bind [32] _ (Feeds.expectStep _ calm) <|
    .bind versionText _ (feeds_parseVersion _ _ rfl calm) <|
    .bind [13] _ (Feeds.expectStep _ calm) (Feeds.expectStep _ calm)

/-! ## Whole headers -/

variable {msgHdrs : List Rfc822MsgHdr}

theorem feeds_parseRequestFields (safe : ∀ msgHdr ∈ msgHdrs, WireSafeHdr msgHdr)
    (fits : (hdrsText msgHdrs).length < scratchBufSize) (calm : Quiet error exec) :
    Feeds parseRequestFields (hdrsText msgHdrs ++ crlf) next exec () (withHdrs msgHdrs exec)
      (Quiet error) :=
  Feeds.onStop clearHdrs
    (.bind (hdrsText msgHdrs) [13, 10] (feeds_parseMsgHdrs safe fits calm) <|
      .bind [13] [10] (Feeds.expectStep _ calm) (Feeds.expectStep _ calm))
    fun _ still => still

/-- A request from the end of its URI on. -/
def requestTail : Parse HTTPFraming Unit := do
  parseRequestVersion
  parseRequestFields
  Parse.assign fun http => { http with msgType := .request }

/-- What is printed behind the URI of a request. -/
def requestTailText (msgHdrs : List Rfc822MsgHdr) : Bytes :=
  32 :: (versionText ++ crlf) ++ (hdrsText msgHdrs ++ crlf)

theorem feeds_requestTail (safe : ∀ msgHdr ∈ msgHdrs, WireSafeHdr msgHdr)
    (fits : (hdrsText msgHdrs).length < scratchBufSize) (calm : Quiet error exec) :
    Feeds requestTail (requestTailText msgHdrs) next exec ()
      { exec with
        obj := { exec.obj with
          msgType := .request, major := 1, minor := 1
          msgHdrs := exec.obj.msgHdrs ++ msgHdrs } } (Quiet error) := by
  have shape : requestTailText msgHdrs =
      32 :: (versionText ++ crlf) ++ (hdrsText msgHdrs ++ crlf ++ []) := by
    rw [List.append_nil]
    rfl
  rw [shape]
  exact .bind _ _ (feeds_parseRequestVersion calm) <|
    .bind _ [] (feeds_parseRequestFields safe fits calm) (Feeds.assign _)

/-- A response up to the carriage return of its empty line. -/
def responseFront : Parse HTTPFraming Unit := do
  Scanner.skipWhile isspace
  parseStatusLine
  Scanner.onStop abandonResponse parseMsgHdrs

theorem parseResponseHeader_eq :
    parseResponseHeader = responseFront >>= fun _ => parseEmptyLine := by
  simp only [parseResponseHeader, responseFront, bind_assoc]

theorem feeds_responseFront {statusCode : Int} (nonneg : 0 ≤ statusCode)
    (small : statusCode < 2 ^ 31) (safe : ∀ msgHdr ∈ msgHdrs, WireSafeHdr msgHdr)
    (fits : (printInt statusCode).length + (hdrsText msgHdrs).length < scratchBufSize)
    (noEvent : error.event = false) (calm : Quiet error exec) :
    Feeds responseFront (statusLineText statusCode ++ hdrsText msgHdrs) 13 exec ()
      { exec with
        obj := { exec.obj with
          major := 1, minor := 1, statusCode
          msgHdrs := exec.obj.msgHdrs ++ msgHdrs } } (Quiet error) := by
  have kept : ∀ exec : Exec HTTPFraming, Quiet error exec → Quiet error (abandonResponse exec) := by
    rintro exec ⟨rfl, overrun⟩
    simp only [abandonResponse, appendIfEvent, noEvent, Bool.false_eq_true, ↓reduceIte]
    exact ⟨rfl, overrun⟩
  have start : Feeds (Scanner.skipWhile isspace : Parse HTTPFraming Unit) []
      ((statusLineText statusCode ++ hdrsText msgHdrs).headD 13) exec () exec (Quiet error) :=
    Reads.feeds_nil fun _ => rfl
  exact .bind [] _ start <|
    .bind (statusLineText statusCode) (hdrsText msgHdrs)
      (feeds_parseStatusLine nonneg small (by omega) calm)
      (Feeds.onStop abandonResponse (feeds_parseMsgHdrs safe (by omega) calm) kept)

end Feeds

end HTTPFraming

end IpUtils
