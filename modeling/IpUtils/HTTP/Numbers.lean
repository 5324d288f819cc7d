import IpUtils.HTTP.FieldNames

/-! # Numbers in a header

The port, the version, the status code and the length of a message are read with `strtol` or
`strtoul` and kept in types of different widths. Each is read as the number that its digits
denote when that number is small enough for its type.
-/

namespace IpUtils

open CLib Scanner

/-! ## Widths -/

namespace CLib

variable {digits : Bytes}

theorem strtol_digits (all : ∀ c ∈ digits, isdigit c = true) :
    strtol 10 digits = min (digitsValue 10 digits : Int) longMax := by
  rw [strtol, parseNumeral_digits all]

/-- An `int` has 31 bits. -/
theorem toInt_strtol_iff (all : ∀ c ∈ digits, isdigit c = true) :
    toInt (strtol 10 digits) = digitsValue 10 digits ↔ digitsValue 10 digits < 2 ^ 31 := by
  rw [strtol_digits all]
  constructor
  · intro same
    have below : toInt (min (digitsValue 10 digits : Int) longMax) < 2 ^ 31 := by
      have bound := @Int.bmod_lt (min (digitsValue 10 digits : Int) longMax) (2 ^ 32) (by decide)
      rw [toInt]
      norm_num at bound ⊢
      exact bound
    rw [same] at below
    exact_mod_cast below
  · intro small
    have within : (digitsValue 10 digits : Int) ≤ longMax := by
      rw [longMax]
      omega
    rw [min_eq_left within]
    exact toInt_of_small (by omega) (by omega)

/-- A port has 16. -/
theorem toUInt16_strtoul_iff (all : ∀ c ∈ digits, isdigit c = true) :
    ((strtoul 10 digits).toUInt16.toNat : Int) = digitsValue 10 digits ↔
      digitsValue 10 digits < 2 ^ 16 := by
  have value : strtoul 10 digits =
      if 2 ^ 64 ≤ digitsValue 10 digits then 2 ^ 64 - 1 else digitsValue 10 digits := by
    rw [strtoul, parseNumeral_digits all]
    rfl
  rw [value]
  constructor
  · intro same
    have below := UInt16.toNat_lt (if 2 ^ 64 ≤ digitsValue 10 digits then 2 ^ 64 - 1
      else digitsValue 10 digits).toUInt16
    omega
  · intro small
    rw [if_neg (by omega)]
    have same : (digitsValue 10 digits).toUInt16.toNat = digitsValue 10 digits :=
      UInt16.toNat_ofNat_of_lt' small
    rw [same]

/-- A length goes through a `long`. -/
theorem toSize_strtol_iff (all : ∀ c ∈ digits, isdigit c = true) :
    (toSize (strtol 10 digits) : Int) = digitsValue 10 digits ↔
      digitsValue 10 digits < 2 ^ 63 := by
  rw [strtol_digits all, longMax]
  have nonneg : 0 ≤ min (digitsValue 10 digits : Int) (2 ^ 63 - 1) := by omega
  have small : min (digitsValue 10 digits : Int) (2 ^ 63 - 1) < 2 ^ 64 := by omega
  have size : (toSize (min (digitsValue 10 digits : Int) (2 ^ 63 - 1)) : Int) =
      min (digitsValue 10 digits : Int) (2 ^ 63 - 1) := by
    rw [toSize, Int.emod_eq_of_lt nonneg (by exact_mod_cast small)]
    exact Int.toNat_of_nonneg nonneg
  rw [size]
  omega

end CLib

namespace HTTPFraming

/-! ## Where the numerals stand -/

/-- The digits of the port, if the text of a URL has one. -/
def portDigits (stale text : Bytes) : Option Bytes :=
  let behind := (URL.behindScheme stale text).dropWhile URL.isHostByte
  if behind.head? = some 58 then some (behind.tail.takeWhile isdigit) else none

/-- The digits of the major number of a version. -/
def majorDigits (text : Bytes) : Bytes :=
  (text.drop kHTTPSlash.length).takeWhile isdigit

/-- What stands behind the dot of a version. -/
def behindDot (text : Bytes) : Bytes :=
  ((text.drop kHTTPSlash.length).dropWhile isdigit).tail

/-- The digits of the minor number. -/
def minorDigits (text : Bytes) : Bytes :=
  (behindDot text).takeWhile isdigit

/-- The digits of the status code of a status line. -/
def statusDigits (text : Bytes) : Bytes :=
  ((behindDot text).dropWhile isdigit).tail.takeWhile isdigit

/-- Where the version of a message stands. -/
def versionPlace (stale buf : Bytes) : Bytes :=
  let window := buf.dropWhile isspace
  if startsRequest window then (behindUrl stale (uriBytes window)).tail else window

/-- The numerals of a header, as far as it has them. -/
structure Numerals where
  port : Option Bytes
  major : Bytes
  minor : Bytes
  status : Option Bytes
  /-- The value of the first `Content-Length`. -/
  length : Option Bytes

def numerals (stale buf : Bytes) : Numerals :=
  let window := buf.dropWhile isspace
  { port := if startsRequest window then portDigits stale (uriBytes window) else none
    major := majorDigits (versionPlace stale buf)
    minor := minorDigits (versionPlace stale buf)
    status := if startsRequest window then none else some (statusDigits window)
    length := ((fieldEntries (fieldsText stale buf)).find? fun entry =>
      equalsNoCase entry.1 mimeContentLength).map Prod.snd }

/-- A numeral that has digits only denotes a value. -/
def Denotes (numeral : Option Bytes) (value : Int) : Prop :=
  ∀ digits, numeral = some digits → (∀ c ∈ digits, isdigit c = true) →
    value = digitsValue 10 digits

/-- A numeral that has digits only denotes a number below a bound. -/
def Below (bound : Nat) (numeral : Option Bytes) : Prop :=
  ∀ digits, numeral = some digits → (∀ c ∈ digits, isdigit c = true) →
    digitsValue 10 digits < bound

/-- Every number of a header is read as its numeral denotes it. -/
structure ReadsNumbers (numerals : Numerals) (http : HTTPFraming) : Prop where
  port : Denotes numerals.port http.uri.port.toNat
  major : Denotes (some numerals.major) http.major
  minor : Denotes (some numerals.minor) http.minor
  status : Denotes numerals.status http.statusCode
  length : Denotes numerals.length http.msgLen

/-- Every numeral fits what its number is kept in. -/
structure NumbersFit (numerals : Numerals) : Prop where
  port : Below (2 ^ 16) numerals.port
  major : Below (2 ^ 31) (some numerals.major)
  minor : Below (2 ^ 31) (some numerals.minor)
  status : Below (2 ^ 31) numerals.status
  length : Below (2 ^ 63) numerals.length

instance (bound : Nat) (numeral : Option Bytes) : Decidable (Below bound numeral) :=
  match numeral with
  | none => isTrue nofun
  | some digits =>
      decidable_of_iff (digits.all isdigit = true → digitsValue 10 digits < bound)
        ⟨fun below _ same all => Option.some.inj same ▸
            below (List.all_eq_true.mpr (Option.some.inj same ▸ all)),
          fun below all => below digits rfl (List.all_eq_true.mp all)⟩

theorem denotes_iff {numeral : Option Bytes} {value : Int} {bound : Nat}
    (reads : ∀ digits, numeral = some digits → (∀ c ∈ digits, isdigit c = true) →
      (value = digitsValue 10 digits ↔ digitsValue 10 digits < bound)) :
    Denotes numeral value ↔ Below bound numeral := by
  constructor
  · intro denotes digits some_ all
    exact (reads digits some_ all).mp (denotes digits some_ all)
  · intro below digits some_ all
    exact (reads digits some_ all).mpr (below digits some_ all)

/-! ## What the parsers read -/

section Reads

variable {window rest : Bytes} {exec exec' : Exec HTTPFraming}

theorem number_eq_some {value : Int}
    (ran : Parse.number window exec = (some (value, rest), exec')) :
    value = toInt (strtol 10 (window.takeWhile isdigit)) ∧ rest = window.dropWhile isdigit ∧
      exec'.obj = exec.obj := by
  obtain ⟨digits, between, exec₁, taken, ended⟩ := bind_eq_some ran
  obtain ⟨rfl, rfl, -, same, -⟩ := Parse.token_eq_some taken
  cases ended
  have noNul : (0 : UInt8) ∉ window.takeWhile isdigit := fun member =>
    (isdigit_cases (List.mem_takeWhile_imp member)).1 rfl
  exact ⟨by rw [cstr_eq_self noNul], rfl, same⟩

theorem keyword_eq_some {value : Unit}
    (ran : Parse.keyword kHTTPSlash (pure ()) Scanner.stop window exec =
      (some (value, rest), exec')) : rest = window.drop kHTTPSlash.length ∧ exec' = exec := by
  simp only [Parse.keyword, bind_apply, Scanner.lookahead] at ran
  split at ran
  · obtain ⟨_, between, exec₁, moved, ended⟩ := bind_eq_some ran
    obtain ⟨rfl, rfl, -⟩ := advanceBy_eq_some moved
    cases ended
    exact ⟨rfl, rfl⟩
  · cases ran

/-- A version is stored as `strtol` reads its two numbers. -/
theorem parseVersion_eq_some {dot unknown : String} {value : Unit}
    (ran : parseVersion dot unknown window exec = (some (value, rest), exec')) :
    rest = (behindDot window).dropWhile isdigit ∧
      exec'.obj = { exec.obj with
        major := toInt (strtol 10 (majorDigits window))
        minor := toInt (strtol 10 (minorDigits window)) } := by
  obtain ⟨_, window₁, exec₁, slash, ran₁⟩ := bind_eq_some ran
  obtain ⟨rfl, rfl⟩ := keyword_eq_some slash
  obtain ⟨major, window₂, exec₂, first, ran₂⟩ := bind_eq_some ran₁
  obtain ⟨rfl, rfl, same₂⟩ := number_eq_some first
  obtain ⟨_, window₃, exec₃, stored, ran₃⟩ := bind_eq_some ran₂
  obtain ⟨rfl, rfl⟩ := update_eq_some stored
  obtain ⟨_, window₄, exec₄, dot_, ran₄⟩ := bind_eq_some ran₃
  obtain ⟨rfl, rfl, -, -⟩ := Parse.expectStep_eq_some dot_
  obtain ⟨minor, window₅, exec₅, second, ran₅⟩ := bind_eq_some ran₄
  obtain ⟨rfl, rfl, same₅⟩ := number_eq_some second
  obtain ⟨_, window₆, exec₆, stored, checked⟩ := bind_eq_some ran₅
  obtain ⟨rfl, rfl⟩ := update_eq_some stored
  unfold checkVersion at checked
  split at checked
  · cases checked
    refine ⟨rfl, ?_⟩
    dsimp only at same₂ same₅ ⊢
    rw [same₅, same₂]
    rfl
  · cases checked

/-- The version of a request. -/
theorem parseRequestVersion_eq_some {value : Unit}
    (ran : parseRequestVersion window exec = (some (value, rest), exec')) :
    exec'.obj = { exec.obj with
      major := toInt (strtol 10 (majorDigits window.tail))
      minor := toInt (strtol 10 (minorDigits window.tail)) } := by
  obtain ⟨_, window₁, exec₁, here, ran₁⟩ := bind_eq_some ran
  obtain ⟨rfl, rfl, -⟩ := need_eq_some here
  obtain ⟨_, window₂, exec₂, space, ran₂⟩ := bind_eq_some ran₁
  obtain ⟨rfl, rfl, -, -⟩ := Parse.expectStep_eq_some space
  obtain ⟨_, window₃, exec₃, version, ran₃⟩ := bind_eq_some ran₂
  obtain ⟨-, stored⟩ := parseVersion_eq_some version
  obtain ⟨_, window₄, exec₄, cr, lf⟩ := bind_eq_some ran₃
  obtain ⟨-, rfl, -⟩ := Parse.expectStep_eq_some cr
  obtain ⟨-, rfl, -⟩ := Parse.expectStep_eq_some lf
  exact stored

/-- The version and the status code of a response. -/
theorem parseStatusLine_eq_some {value : Unit}
    (ran : parseStatusLine window exec = (some (value, rest), exec')) :
    exec'.obj = { exec.obj with
      major := toInt (strtol 10 (majorDigits window))
      minor := toInt (strtol 10 (minorDigits window))
      statusCode := toInt (strtol 10 (statusDigits window)) } := by
  obtain ⟨_, window₁, exec₁, version, ran₁⟩ := bind_eq_some ran
  obtain ⟨rfl, stored⟩ := parseVersion_eq_some version
  obtain ⟨_, window₂, exec₂, space, ran₂⟩ := bind_eq_some ran₁
  obtain ⟨rfl, rfl, -, -⟩ := Parse.expectStep_eq_some space
  obtain ⟨statusCode, window₃, exec₃, status, ran₃⟩ := bind_eq_some ran₂
  obtain ⟨rfl, rfl, same₃⟩ := number_eq_some status
  obtain ⟨_, window₄, exec₄, assigned, ran₄⟩ := bind_eq_some ran₃
  obtain ⟨rfl, rfl⟩ := update_eq_some assigned
  obtain ⟨_, window₅, exec₅, space, ran₅⟩ := bind_eq_some ran₄
  obtain ⟨rfl, rfl, -, -⟩ := Parse.expectStep_eq_some space
  obtain ⟨phrase, window₆, exec₆, taken, ran₆⟩ := bind_eq_some ran₅
  obtain ⟨-, rfl, -, same₆, -⟩ := Parse.token_eq_some taken
  obtain ⟨_, window₇, exec₇, cr, lf⟩ := bind_eq_some ran₆
  obtain ⟨-, rfl, -⟩ := Parse.expectStep_eq_some cr
  obtain ⟨-, rfl, -⟩ := Parse.expectStep_eq_some lf
  rw [same₆]
  dsimp only
  rw [same₃, stored]
  rfl

/-- The port of a URL behind its scheme. -/
theorem port_parseHierarchy_eq_some {defaultPort : UInt16} {window rest : Bytes}
    {exec exec' : Exec URL} {value : Unit}
    (ran : URL.parseHierarchy defaultPort window exec = (some (value, rest), exec'))
    (colon : (window.dropWhile URL.isHostByte).head? = some 58) :
    exec'.obj.port =
      (strtoul 10 ((window.dropWhile URL.isHostByte).tail.takeWhile isdigit)).toUInt16 := by
  obtain ⟨_, window₁, exec₁, host, ran₁⟩ := bind_eq_some ran
  obtain rfl := URL.walks_parseHost.stands _ _ _ (by rw [host])
  obtain ⟨_, window₂, exec₂, port, ran₂⟩ := bind_eq_some ran₁
  have kept := @URL.parsePath_keeps (fun url => url.port = exec₂.obj.port)
    (fun _ _ _ _ holds => holds) window₂ exec₂ rfl
  rw [ran₂] at kept
  have same : exec'.obj.port = exec₂.obj.port := kept
  rw [same]
  rw [URL.parsePort, URL.whenAt_run, if_pos colon] at port
  split at port
  · cases port
  · have noNul : (0 : UInt8) ∉
        (window.dropWhile URL.isHostByte).tail.takeWhile isdigit := fun member =>
      (isdigit_cases (List.mem_takeWhile_imp member)).1 rfl
    obtain ⟨overrun, reads⟩ := URL.word_run URL.kURLMaxSize isdigit
      (window.dropWhile URL.isHostByte).tail exec₁
    obtain ⟨digits, window₃, exec₃, taken, stored⟩ := bind_eq_some port
    rw [reads] at taken
    cases taken
    obtain ⟨rfl, rfl⟩ := update_eq_some stored
    rw [cstr_eq_self noNul]
    rfl

theorem port_parseParts_eq_some {defaultPort : UInt16} {stale window rest : Bytes}
    {exec exec' : Exec URL} {value : Unit}
    (ran : URL.parseParts defaultPort (URL.schemeAhead (window ++ stale)) window exec =
      (some (value, rest), exec')) :
    ∀ digits, portDigits stale window = some digits →
      exec'.obj.port = (strtoul 10 digits).toUInt16 := by
  intro digits some_
  unfold portDigits at some_
  dsimp only at some_
  split at some_
  · rename_i colon
    cases some_
    unfold URL.behindScheme at colon ⊢
    unfold URL.parseParts at ran
    split at ran
    · rename_i ahead
      rw [if_pos ahead] at colon ⊢
      obtain ⟨_, window₁, exec₁, scheme, ran₁⟩ := bind_eq_some ran
      obtain rfl := URL.walks_parseScheme.stands _ _ _ (by rw [scheme])
      exact port_parseHierarchy_eq_some ran₁ colon
    · rename_i none_
      rw [if_neg none_] at colon ⊢
      exact port_parseHierarchy_eq_some ran colon
  · cases some_

/-- What the fields leave alone. -/
theorem parseMsgHdrs_eq_some {value : Unit}
    (ran : parseMsgHdrs window exec = (some (value, rest), exec')) :
    { exec'.obj with msgHdrs := exec.obj.msgHdrs } = exec.obj := by
  have robust : Robust fun exec' : Exec HTTPFraming =>
      { exec'.obj with msgHdrs := exec.obj.msgHdrs } = exec.obj :=
    Robust.of_obj fun http : HTTPFraming => { http with msgHdrs := exec.obj.msgHdrs } = exec.obj
  have kept := parseMsgHdrs_keeps robust (fun _ _ holds => holds) window exec rfl
  rw [ran] at kept
  exact kept

/-- An accepted request has the numbers and the fields of its text. -/
theorem parseRequestHdr_reads {stale : Bytes} {defaultPort : UInt16}
    (trimmed : window.dropWhile isspace = window) (clean : exec.obj.msgHdrs = [])
    (ran : parseRequestHdr stale defaultPort window exec = (some ((), rest), exec')) :
    (∀ digits, portDigits stale (uriBytes window) = some digits →
      exec'.obj.uri.port = (strtoul 10 digits).toUInt16) ∧
    exec'.obj.major =
      toInt (strtol 10 (majorDigits (behindUrl stale (uriBytes window)).tail)) ∧
    exec'.obj.minor =
      toInt (strtol 10 (minorDigits (behindUrl stale (uriBytes window)).tail)) ∧
    entries exec'.obj = fieldEntries (behindLine (behindUrl stale (uriBytes window))) := by
  obtain ⟨-, exec₁, before, ran₁⟩ := (parseRequestHdr_eq_some_iff trimmed).mp ran
  have clean₁ : exec₁.obj.msgHdrs = [] := by
    have start : Keeps (fun exec : Exec HTTPFraming => exec.obj.msgHdrs = []) parseBeforeUri :=
      (keeps_parseMethodFrom _).bind fun _ =>
        (Keeps.expectStep robust_empty _ _).bind fun _ => keeps_onUri _
    have kept := start window exec clean
    rw [before] at kept
    exact kept
  obtain ⟨_, window₂, exec₂, uri, ran₂⟩ := bind_eq_some ran₁
  obtain ⟨url, parsed, rfl⟩ := zoom_eq_some uri
  have port := port_parseParts_eq_some parsed
  obtain rfl := parseParts_stands parsed
  obtain ⟨_, window₃, exec₃, version, ran₃⟩ := bind_eq_some ran₂
  have numbers := parseRequestVersion_eq_some version
  obtain rfl := parseRequestVersion_stands version
  obtain ⟨_, window₄, exec₄, fields, typed⟩ := bind_eq_some ran₃
  obtain ⟨rfl, rfl⟩ := update_eq_some typed
  obtain ⟨_, window₅, exec₅, hdrs, ran₅⟩ := bind_eq_some (onStop_eq_some fields)
  obtain ⟨_, window₆, exec₆, cr, lf⟩ := bind_eq_some ran₅
  obtain ⟨-, rfl, -⟩ := Parse.expectStep_eq_some cr
  obtain ⟨-, rfl, -⟩ := Parse.expectStep_eq_some lf
  have kept := parseMsgHdrs_eq_some hdrs
  have brought := entries_parseMsgHdrs hdrs
  rw [numbers] at kept brought
  have none_ : entries { { exec₁.obj with uri := url.obj } with
      major := toInt (strtol 10 (majorDigits (behindUrl stale (uriBytes window)).tail))
      minor := toInt (strtol 10 (minorDigits (behindUrl stale (uriBytes window)).tail)) } =
        [] := by
    change exec₁.obj.msgHdrs.map _ = []
    rw [clean₁, List.map_nil]
  refine ⟨fun digits some_ => ?_, ?_, ?_, ?_⟩
  · have same := congrArg (fun http : HTTPFraming => http.uri.port) kept
    exact same.trans (port digits some_)
  · exact congrArg HTTPFraming.major kept
  · exact congrArg HTTPFraming.minor kept
  · change entries exec₄.obj = _
    rw [brought, none_, List.nil_append]

/-- So has the header of a response. -/
theorem parseResponseHeader_reads (trimmed : window.dropWhile isspace = window)
    (clean : exec.obj.msgHdrs = [])
    (ran : parseResponseHeader window exec = (some ((), rest), exec')) :
    exec'.obj.major = toInt (strtol 10 (majorDigits window)) ∧
    exec'.obj.minor = toInt (strtol 10 (minorDigits window)) ∧
    exec'.obj.statusCode = toInt (strtol 10 (statusDigits window)) ∧
    entries exec'.obj = fieldEntries (behindLine window) := by
  have none_ : entries exec.obj = [] := by rw [entries, clean, List.map_nil]
  obtain ⟨_, window₁, exec₁, skipped, ran₁⟩ := bind_eq_some ran
  obtain ⟨rfl, rfl⟩ := skipWhile_eq_some skipped
  rw [trimmed] at ran₁
  obtain ⟨_, window₂, exec₂, line, ran₂⟩ := bind_eq_some ran₁
  have numbers := parseStatusLine_eq_some line
  obtain rfl := parseStatusLine_stands line
  obtain ⟨_, window₃, exec₃, hdrs, ended⟩ := bind_eq_some ran₂
  have hdrs := onStop_eq_some hdrs
  have kept := parseMsgHdrs_eq_some hdrs
  have brought := entries_parseMsgHdrs hdrs
  rw [numbers] at kept brought
  obtain ⟨_, window₄, exec₄, cr, ran₄⟩ := bind_eq_some (onStop_eq_some ended)
  obtain ⟨rfl, rfl, -⟩ := step_eq_some cr
  obtain ⟨_, window₅, exec₅, lf, ran₅⟩ := bind_eq_some ran₄
  obtain ⟨rfl, rfl, -⟩ := Parse.require_eq_some lf
  obtain ⟨_, window₆, exec₆, typed, moved⟩ := bind_eq_some ran₅
  obtain ⟨rfl, rfl⟩ := update_eq_some typed
  obtain ⟨-, rfl⟩ := advance_eq_some moved
  refine ⟨congrArg HTTPFraming.major kept, congrArg HTTPFraming.minor kept,
    congrArg HTTPFraming.statusCode kept, ?_⟩
  change entries exec₅.obj = _
  rw [brought]
  exact congrArg (· ++ fieldEntries (behindLine window)) none_

/-- The length of a message is read from its first `Content-Length`. -/
theorem msgLen_eq (http : HTTPFraming) :
    msgLen http = (((entries http).find? fun entry =>
      equalsNoCase entry.1 mimeContentLength).map Prod.snd).elim 0
        fun value => toSize (strtol 10 value) := by
  have named : ((fun entry : Bytes × Bytes => equalsNoCase entry.1 mimeContentLength) ∘
      fun msgHdr : Rfc822MsgHdr => (msgHdr.fieldName, msgHdr.fieldValue)) =
        fun msgHdr => equalsNoCase msgHdr.fieldName mimeContentLength := rfl
  rw [entries, List.find?_map, Option.map_map, named]
  unfold msgLen msgHdr?
  cases http.msgHdrs.find? fun msgHdr => equalsNoCase msgHdr.fieldName mimeContentLength with
  | none => rfl
  | some msgHdr => rfl

end Reads

/-! ## The outcome -/

section Outcome

variable {env : ParseEnv} {buf : Bytes} {exec : Exec HTTPFraming} {chunked : ChunkBuf} {used : Nat}

/-- What an accepted header has been read as. -/
structure ReadAs (numerals : Numerals) (http : HTTPFraming) : Prop where
  port : ∀ digits, numerals.port = some digits → http.uri.port = (strtoul 10 digits).toUInt16
  major : http.major = toInt (strtol 10 numerals.major)
  minor : http.minor = toInt (strtol 10 numerals.minor)
  status : ∀ digits, numerals.status = some digits →
    http.statusCode = toInt (strtol 10 digits)
  length : http.msgLen = numerals.length.elim 0 fun value => toSize (strtol 10 value)

theorem readAs_initFromBuf
    (accepted : (initFromBuf env buf exec chunked).bytesUsed = some used) :
    ReadAs (numerals env.stale buf) (initFromBuf env buf exec chunked).exec.obj := by
  have trimmed : (buf.dropWhile isspace).dropWhile isspace = buf.dropWhile isspace :=
    List.dropWhile_idempotent _ _
  cases starts : startsRequest (buf.dropWhile isspace) with
  | true =>
      obtain ⟨rest, exec', ran, -, -, same⟩ := initFromBuf_request_eq_some starts accepted
      obtain ⟨port, major, minor, fields⟩ := parseRequestHdr_reads trimmed rfl ran
      rw [same]
      unfold numerals versionPlace fieldsText
      simp only [starts, ↓reduceIte]
      exact ⟨port, major, minor, nofun, by rw [msgLen_eq, fields]⟩
  | false =>
      cases begins : startsResponse (buf.dropWhile isspace) with
      | false =>
          have refused := (@initFromBuf_of_not_starts env env buf exec chunked
            (by rw [starts, begins]; rfl)).2
          rw [refused] at accepted
          cases accepted
      | true =>
          have either : (startsRequest (buf.dropWhile isspace) ||
              startsResponse (buf.dropWhile isspace)) = true := by rw [begins, Bool.or_true]
          rw [initFromBuf_of_starts either] at accepted ⊢
          obtain ⟨inner, parsed, -⟩ := concluded_bytesUsed accepted
          rw [parseStartLine_of_response starts] at parsed ⊢
          obtain ⟨rest, exec', ran, same, -⟩ := parseResponseHdr_eq_some parsed
          obtain ⟨major, minor, status, fields⟩ := parseResponseHeader_reads trimmed rfl ran
          rw [concluded_obj, same]
          unfold numerals versionPlace fieldsText
          simp only [starts, Bool.false_eq_true, ↓reduceIte]
          exact ⟨nofun, major, minor, fun digits some_ => Option.some.inj some_ ▸ status,
            by rw [msgLen_eq, fields]⟩

/-- The numbers of an accepted header are what its digits denote exactly when all are small
enough. -/
theorem readsNumbers_iff
    (accepted : (initFromBuf env buf exec chunked).bytesUsed = some used) :
    ReadsNumbers (numerals env.stale buf) (initFromBuf env buf exec chunked).exec.obj ↔
      NumbersFit (numerals env.stale buf) := by
  have read := readAs_initFromBuf accepted
  have port : Denotes (numerals env.stale buf).port
      (initFromBuf env buf exec chunked).exec.obj.uri.port.toNat ↔
        Below (2 ^ 16) (numerals env.stale buf).port := by
    apply denotes_iff
    intro digits some_ all
    rw [read.port digits some_]
    exact toUInt16_strtoul_iff all
  have major : Denotes (some (numerals env.stale buf).major)
      (initFromBuf env buf exec chunked).exec.obj.major ↔
        Below (2 ^ 31) (some (numerals env.stale buf).major) := by
    apply denotes_iff
    rintro digits ⟨⟩ all
    rw [read.major]
    exact toInt_strtol_iff all
  have minor : Denotes (some (numerals env.stale buf).minor)
      (initFromBuf env buf exec chunked).exec.obj.minor ↔
        Below (2 ^ 31) (some (numerals env.stale buf).minor) := by
    apply denotes_iff
    rintro digits ⟨⟩ all
    rw [read.minor]
    exact toInt_strtol_iff all
  have status : Denotes (numerals env.stale buf).status
      (initFromBuf env buf exec chunked).exec.obj.statusCode ↔
        Below (2 ^ 31) (numerals env.stale buf).status := by
    apply denotes_iff
    intro digits some_ all
    rw [read.status digits some_]
    exact toInt_strtol_iff all
  have length : Denotes (numerals env.stale buf).length
      (initFromBuf env buf exec chunked).exec.obj.msgLen ↔
        Below (2 ^ 63) (numerals env.stale buf).length := by
    apply denotes_iff
    intro digits some_ all
    rw [read.length, some_]
    exact toSize_strtol_iff all
  constructor
  · intro reads
    exact ⟨port.mp reads.port, major.mp reads.major, minor.mp reads.minor,
      status.mp reads.status, length.mp reads.length⟩
  · intro fit
    exact ⟨port.mpr fit.port, major.mpr fit.major, minor.mpr fit.minor,
      status.mpr fit.status, length.mpr fit.length⟩

end Outcome

/-- A response with a length. -/
def shortLength : Bytes :=
  ascii "HTTP/1.1 200 OK\r\nContent-Length: 5\r\n\r\n"

theorem readsNumbers_iff_sample :
    ReadsNumbers (numerals [] shortLength)
      (initFromBuf { stale := [], realloc := fun _ _ => none } shortLength
        { obj := {}, error := {} } ⟨none, 0⟩).exec.obj :=
  (@readsNumbers_iff { stale := [], realloc := fun _ _ => none } shortLength
    { obj := {}, error := {} } ⟨none, 0⟩ 38 (by decide +kernel)).mpr
      ⟨by decide +kernel, by decide +kernel, by decide +kernel, by decide +kernel,
        by decide +kernel⟩

/-- A port of 17 bits wraps around. -/
theorem port_wraps :
    ¬∀ buf used, (initFromBuf { stale := [], realloc := fun _ _ => none } buf
        { obj := {}, error := {} } ⟨none, 0⟩).bytesUsed = some used →
      ReadsNumbers (numerals [] buf) (initFromBuf { stale := [], realloc := fun _ _ => none } buf
        { obj := {}, error := {} } ⟨none, 0⟩).exec.obj := by
  intro always
  have reads := always (ascii "GET http://h:65616/ HTTP/1.1\r\n\r\nX") 32 (by decide +kernel)
  have port := reads.port (ascii "65616") (by decide +kernel) (by decide +kernel)
  revert port
  decide +kernel

end HTTPFraming

end IpUtils
