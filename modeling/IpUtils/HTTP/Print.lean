import IpUtils.HTTP.Basic
import IpUtils.URL.RoundTrip

/-! # The printed header

The text that `print_hdr` prints for a header when it fits the buffers, and the
condition on the fields under which that text can be told apart into them again.
-/

namespace IpUtils

open CLib

namespace HTTPFraming

/-- What the loop over the parameters prints for them when it fits. -/
def parametersText (parameters : List Rfc822Parameter) : Bytes :=
  parameters.flatMap fun param => 59 :: 32 :: (param.key ++ 61 :: param.value)

/-- What `print_msg_hdrs` prints for a field when it fits. -/
def hdrText (msgHdr : Rfc822MsgHdr) : Bytes :=
  msgHdr.fieldName ++ 58 :: 32 :: (msgHdr.fieldValue ++ (parametersText msgHdr.parameters ++ crlf))

/-- What `print_msg_hdrs` prints when it fits. -/
def hdrsText (msgHdrs : List Rfc822MsgHdr) : Bytes :=
  msgHdrs.flatMap hdrText

/-- What `print_start_line` prints for an absolute URI when it fits. -/
def startLineText (http : HTTPFraming) : Bytes :=
  if http.method ≠ .methodNull then
    http.method.name ++ 32 :: http.uri.uriText ++ ascii " HTTP/" ++ printInt http.major ++
      46 :: printInt http.minor
  else
    ascii "HTTP/" ++ printInt http.major ++ 46 :: printInt http.minor ++
      32 :: printInt http.statusCode ++ 32 :: statusCodePhrase http.statusCode

/-- What `print_hdr` prints when it fits. -/
def headerText (http : HTTPFraming) : Bytes :=
  startLineText http ++ crlf ++ hdrsText http.msgHdrs ++ crlf

/-- A field without white space in front of its parts, and without a NUL, a carriage
return or the delimiter that ends a part inside it. -/
structure WireSafeParameter (param : Rfc822Parameter) : Prop where
  key_head : ∃ c rest, param.key = c :: rest ∧ isspace c = false
  value_head : ∃ c rest, param.value = c :: rest ∧ isspace c = false
  key : ∀ c ∈ param.key, c ≠ 0 ∧ c ≠ 13 ∧ c ≠ 61
  value : ∀ c ∈ param.value, c ≠ 0 ∧ c ≠ 13 ∧ c ≠ 59

structure WireSafeHdr (msgHdr : Rfc822MsgHdr) : Prop where
  fieldName_head : ∃ c rest, msgHdr.fieldName = c :: rest ∧ isspace c = false
  fieldValue_head : ∃ c rest, msgHdr.fieldValue = c :: rest ∧ isspace c = false
  fieldName : ∀ c ∈ msgHdr.fieldName, c ≠ 0 ∧ c ≠ 13 ∧ c ≠ 58
  fieldValue : ∀ c ∈ msgHdr.fieldValue, c ≠ 0 ∧ c ≠ 13 ∧ c ≠ 59
  parameters : ∀ param ∈ msgHdr.parameters, WireSafeParameter param

theorem append_take (text more : Bytes) :
    append (text.take (scratchBufSize - 1)) more = (text ++ more).take (scratchBufSize - 1) :=
  snprintfAppend_take scratchBufSize text more

theorem append_nil (text : Bytes) : append [] text = text.take (scratchBufSize - 1) :=
  append_take [] text

theorem zero_not_mem {text : Bytes} {others : UInt8 → Prop}
    (safe : ∀ c ∈ text, c ≠ 0 ∧ others c) : (0 : UInt8) ∉ text :=
  fun member => (safe 0 member).1 rfl

theorem parametersText_cons (param : Rfc822Parameter) (rest : List Rfc822Parameter) :
    parametersText (param :: rest) =
      59 :: 32 :: (param.key ++ 61 :: param.value) ++ parametersText rest :=
  List.flatMap_cons

theorem hdrsText_cons (msgHdr : Rfc822MsgHdr) (rest : List Rfc822MsgHdr) :
    hdrsText (msgHdr :: rest) = hdrText msgHdr ++ hdrsText rest :=
  List.flatMap_cons

theorem appendParameters_take {parameters : List Rfc822Parameter}
    (safe : ∀ param ∈ parameters, WireSafeParameter param) (inhabited : parameters ≠ [])
    (text : Bytes) :
    appendParameters ((text ++ ascii "; ").take (scratchBufSize - 1)) parameters =
      (text ++ (parametersText parameters ++ crlf)).take (scratchBufSize - 1) := by
  induction parameters generalizing text with
  | nil => exact absurd rfl inhabited
  | cons param rest ih =>
      have here := safe param (by simp)
      rw [appendParameters, cstr_eq_self (zero_not_mem here.key),
        cstr_eq_self (zero_not_mem here.value), append_take, append_take, parametersText_cons]
      cases rest with
      | nil =>
          simp only [List.isEmpty_nil, ↓reduceIte, appendParameters]
          congr 1
          simp [ascii, parametersText]
      | cons next rest =>
          simp only [List.isEmpty_cons, Bool.false_eq_true, ↓reduceIte]
          rw [ih (fun other member => safe other (by simp [member])) (List.cons_ne_nil _ _)]
          congr 1
          simp [ascii]

theorem appendHdr_take {msgHdr : Rfc822MsgHdr} (safe : WireSafeHdr msgHdr) (text : Bytes) :
    appendHdr (text.take (scratchBufSize - 1)) msgHdr =
      (text ++ hdrText msgHdr).take (scratchBufSize - 1) := by
  unfold appendHdr hdrText
  rw [cstr_eq_self (zero_not_mem safe.fieldName), cstr_eq_self (zero_not_mem safe.fieldValue)]
  dsimp only
  split
  · rename_i empty
    rw [append_take, List.isEmpty_iff.mp empty]
    congr 1
    simp [ascii, parametersText]
  · rename_i some_
    rw [append_take, ← List.append_assoc text,
      appendParameters_take safe.parameters (by simpa using some_)]
    congr 1
    simp [ascii]

theorem printMsgHdrs_eq {http : HTTPFraming}
    (safe : ∀ msgHdr ∈ http.msgHdrs, WireSafeHdr msgHdr) :
    printMsgHdrs http = (hdrsText http.msgHdrs).take (scratchBufSize - 1) := by
  have general : ∀ (msgHdrs : List Rfc822MsgHdr) (text : Bytes),
      (∀ msgHdr ∈ msgHdrs, WireSafeHdr msgHdr) →
        msgHdrs.foldl appendHdr (text.take (scratchBufSize - 1)) =
          (text ++ hdrsText msgHdrs).take (scratchBufSize - 1) := by
    intro msgHdrs
    induction msgHdrs with
    | nil =>
        intro text _
        simp [hdrsText]
    | cons msgHdr rest ih =>
        intro text all
        rw [List.foldl_cons, appendHdr_take (all msgHdr (by simp)),
          ih _ fun other member => all other (by simp [member]), hdrsText_cons, List.append_assoc]
  exact general http.msgHdrs [] safe

/-- A header that is shorter than the buffers is printed completely. -/
theorem printHdr_eq {http : HTTPFraming} (safe : ∀ msgHdr ∈ http.msgHdrs, WireSafeHdr msgHdr)
    (uri : http.uri.NulFree) (fits : (printHdrText false http).length < scratchBufSize) :
    printHdr 0 false http = headerText http ∧ (headerText http).length < scratchBufSize := by
  have whole : printHdr 0 false http = printHdrText false http := by
    rw [printHdr, if_pos (Nat.zero_le _), List.drop_zero, append_nil]
    exact List.take_of_length_le (by omega)
  have sizes : (printStartLine false http).length + 2 + (printMsgHdrs http).length + 2 <
      scratchBufSize := by
    simpa only [printHdrText, List.length_append, show crlf.length = 2 from rfl] using fits
  have hdrs : printMsgHdrs http = hdrsText http.msgHdrs := by
    rw [printMsgHdrs_eq safe] at sizes ⊢
    exact eq_of_length_take_lt (by omega)
  have startLine : printStartLine false http = startLineText http := by
    unfold printStartLine at sizes ⊢
    unfold startLineText
    split
    · rename_i request
      rw [if_pos request] at sizes
      dsimp only at sizes ⊢
      simp only [append_nil, Bool.false_eq_true, ↓reduceIte, URL.printAbsoluteURI_eq uri]
        at sizes ⊢
      refine (eq_of_length_take_lt (by omega)).trans ?_
      have uncut : http.uri.uriText.take (URL.kURLMaxSize - 1) = http.uri.uriText := by
        refine eq_of_length_take_lt ?_
        rw [List.length_take] at sizes
        simp only [List.length_append, List.length_cons, scratchBufSize, URL.kURLMaxSize]
          at sizes ⊢
        omega
      rw [uncut]
    · rename_i response
      rw [if_neg response, append_nil] at sizes
      rw [append_nil]
      exact eq_of_length_take_lt (by omega)
  have text : printHdrText false http = headerText http := by
    rw [printHdrText, headerText, startLine, hdrs]
  exact ⟨whole.trans text, text ▸ fits⟩

end HTTPFraming

end IpUtils
