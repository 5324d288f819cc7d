import IpUtils.URL.Basic

/-! # Reading a URL from a buffer

`URL::InitFromBuf` walks the bytes of its window, except for one decision: whether
there is a scheme is read off the first colon that `strchr` finds, which may lie in
the stale bytes behind the window. Everything after that decision is local.
-/

namespace IpUtils

open CLib

namespace URL

/-- The first colon in front of a NUL is followed by two slashes. -/
def schemeAhead (memory : Bytes) : Bool :=
  match strchr memory 58 with
  | none => false
  | some delimiter => delimiter.getD 1 0 == 47 && delimiter.getD 2 0 == 47

/-- The bytes of a host name: up to a port, a path or white space. -/
def isHostByte (c : UInt8) : Bool :=
  c != 58 && c != 47 && !isspace c

/-- The bytes of a path inside a request line. -/
def isPathWordByte (c : UInt8) : Bool :=
  c != kQueryStart && c != kFragmentStart && !isspace c

/-- The bytes of a query inside a request line. -/
def isQueryWordByte (c : UInt8) : Bool :=
  c != kFragmentStart && !isspace c

/-- Any byte that is not white space. -/
def isFragmentByte (c : UInt8) : Bool :=
  !isspace c

/-- The scheme, the `://` behind it and the check that a host byte follows. -/
def parseScheme : Parse URL Unit := do
  let scheme ← Parse.token kURLMaxSize (· != 58)
  Parse.assign (setScheme (some scheme))
  Scanner.advanceBy 3

def parseHost : Parse URL Unit := do
  let host ← Parse.word kURLMaxSize isHostByte
  Parse.assign (setHost (some host))

/-- Run `part` behind the byte that introduces it, or else `otherwise`. -/
def whenAt (introduction : UInt8) (part otherwise : Parse URL Unit) : Parse URL Unit := do
  if ← Scanner.looksAt (· == introduction) then
    Scanner.step
    part
  else otherwise

/-- The digits of a port. -/
def readPort : Parse URL Unit := do
  let port ← Parse.word kURLMaxSize isdigit
  Parse.assign (setPort (strtoul 10 port).toUInt16)

/-- The segments of a path. -/
def readPath : Parse URL Unit := do
  let path ← Parse.word kURLMaxSize isPathWordByte
  Scanner.update (setPath (some path) path.length)

/-- The text of a query. -/
def readQuery : Parse URL Unit := do
  let query ← Parse.word kURLMaxSize isQueryWordByte
  Scanner.update (setQuery (some query) query.length)

/-- The text of a fragment. -/
def readFragment : Parse URL Unit := do
  let fragment ← Parse.word kURLMaxSize isFragmentByte
  Parse.assign (setFragment (some fragment))

def parsePort (defaultPort : UInt16) : Parse URL Unit :=
  whenAt 58 readPort (Parse.assign (setPort defaultPort))

def parsePath : Parse URL Unit :=
  whenAt 47 readPath (pure ())

def parseQuery : Parse URL Unit :=
  whenAt kQueryStart readQuery (pure ())

def parseFragment : Parse URL Unit :=
  whenAt kFragmentStart readFragment (pure ())

/-- Everything behind the scheme. -/
def parseHierarchy (defaultPort : UInt16) : Parse URL Unit := do
  parseHost
  parsePort defaultPort
  parsePath
  parseQuery
  parseFragment

/-- Everything behind the search for a scheme. -/
def parseParts (defaultPort : UInt16) (hasScheme : Bool) : Parse URL Unit := do
  if hasScheme then
    parseScheme
    parseHierarchy defaultPort
  else parseHierarchy defaultPort

/-- Start from scratch and find the first byte that is not white space. A NUL under
the pointer means `strlen(buf) == 0`; with nothing to read the outcome is the same. -/
def parseStart : Parse URL Unit := do
  Parse.assign clear
  let first ← Scanner.current 0
  if first = 0 then Scanner.stop
  else Scanner.skip isspace

/-- `URL::InitFromBuf`: a stop is the return value 0, otherwise the bytes read are
returned, of which there is at least one. -/
def initFromBuf (stale : Bytes) (defaultPort : UInt16) : Parse URL Unit := do
  parseStart
  let hasScheme ← Scanner.lookahead fun window => schemeAhead (window ++ stale)
  parseParts defaultPort hasScheme

/-! ## Locality -/

open Scanner

theorem parseScheme_local : Local parseScheme :=
  (Local.token _ _).bind fun _ => (Local.assign _).bind fun _ => Local.advanceBy 3

theorem parseHost_local : Local parseHost :=
  (Local.word _ _).bind fun _ => Local.assign _

theorem whenAt_local {introduction : UInt8} {part otherwise : Parse URL Unit}
    (inner : Local part) (outer : Local otherwise) :
    Local (whenAt introduction part otherwise) :=
  (Local.looksAt _).bind fun _ => Local.ite (Local.step.bind fun _ => inner) outer

theorem parsePort_local (defaultPort : UInt16) : Local (parsePort defaultPort) :=
  whenAt_local ((Local.word _ _).bind fun _ => Local.assign _) (Local.assign _)

theorem parsePath_local : Local parsePath :=
  whenAt_local ((Local.word _ _).bind fun _ => Local.update _) (Local.pure _)

theorem parseQuery_local : Local parseQuery :=
  whenAt_local ((Local.word _ _).bind fun _ => Local.update _) (Local.pure _)

theorem parseFragment_local : Local parseFragment :=
  whenAt_local ((Local.word _ _).bind fun _ => Local.assign _) (Local.pure _)

theorem parseHierarchy_local (defaultPort : UInt16) : Local (parseHierarchy defaultPort) :=
  parseHost_local.bind fun _ => (parsePort_local defaultPort).bind fun _ =>
    parsePath_local.bind fun _ => parseQuery_local.bind fun _ => parseFragment_local

theorem parseParts_local (defaultPort : UInt16) (hasScheme : Bool) :
    Local (parseParts defaultPort hasScheme) :=
  Local.ite (parseScheme_local.bind fun _ => parseHierarchy_local defaultPort)
    (parseHierarchy_local defaultPort)

theorem parseStart_local : Local parseStart :=
  (Local.assign _).bind fun _ => (Local.current _).bind fun _ =>
    Local.ite Local.stop (Local.skip _)

/-! ## Runs on a given window -/

/-- Without its introduction a part is not run. -/
theorem whenAt_otherwise {introduction : UInt8} {part otherwise : Parse URL Unit} {window : Bytes}
    {exec : Exec URL}
    (differs : window.head? ≠ some introduction) :
    whenAt introduction part otherwise window exec = otherwise window exec := by
  have other : window.head?.any (· == introduction) = false := by
    cases window with
    | nil => rfl
    | cons c rest =>
        have : c ≠ introduction := fun same => differs (by rw [same, List.head?_cons])
        simpa using this
  simp only [whenAt, bind_apply, Scanner.looksAt, other, Bool.false_eq_true, ↓reduceIte]

/-! ## What success tells -/

theorem parseStart_eq_some {window rest : Bytes} {exec exec' : Exec URL}
    (ran : parseStart window exec = (some ((), rest), exec')) :
    rest = window.dropWhile isspace ∧ rest ≠ [] ∧ window.headD 0 ≠ 0 ∧
      exec' = { exec with obj := {} } := by
  obtain ⟨_, between, between', cleared, ran⟩ := bind_eq_some ran
  obtain ⟨rfl, rfl⟩ := update_eq_some cleared
  obtain ⟨first, between, between', here, ran⟩ := bind_eq_some ran
  cases here
  split at ran
  · cases ran
  · rename_i nonzero
    obtain ⟨rfl, rfl, inhabited⟩ := skip_eq_some ran
    exact ⟨rfl, inhabited, nonzero, rfl⟩

/-- The scheme is what stands in front of the first colon. -/
theorem parseScheme_eq_some {window rest : Bytes} {exec exec' : Exec URL}
    (ran : parseScheme window exec = (some ((), rest), exec')) :
    exec'.obj.scheme = untaint (cstr (window.takeWhile (· != 58))) ∧
      ∃ first second, window.dropWhile (· != 58) = 58 :: first :: second :: rest ∧ rest ≠ [] := by
  obtain ⟨scheme, between, exec₁, taken, ran⟩ := bind_eq_some ran
  obtain ⟨rfl, rfl, inhabited, -, -⟩ := Parse.token_eq_some taken
  obtain ⟨_, between, exec₂, set, moved⟩ := bind_eq_some ran
  obtain ⟨rfl, rfl⟩ := update_eq_some set
  obtain ⟨rfl, rfl, enough⟩ := advanceBy_eq_some moved
  refine ⟨rfl, ?_⟩
  have colon := List.head?_dropWhile_not (· != 58) window
  match shape : window.dropWhile (· != 58) with
  | [] => exact absurd shape inhabited
  | [_] | [_, _] | [_, _, _] => simp [shape] at enough
  | c :: first :: second :: next :: rest =>
      rw [shape] at colon
      have : c = 58 := by simpa using colon
      exact ⟨first, second, by rw [this]; rfl, List.cons_ne_nil _ _⟩

/-! ## What the parsers leave alone -/

theorem queryPair_keeps {inv : Exec URL → Prop} (robust : Robust inv)
    (kept : ∀ exec query, inv exec → inv { exec with obj := { exec.obj with query } })
    (queryBuf : Bytes) : Keeps inv (queryPair queryBuf) :=
  (Keeps.copyWhile robust _ _).bind fun _ => (Keeps.require robust _ _ _).bind fun _ =>
    (Keeps.terminate robust _ _).bind fun _ => Keeps.advance.bind fun _ =>
      (Keeps.word robust _ _).bind fun _ => (Keeps.assign fun _ holds => kept _ _ holds).bind fun _ =>
        (Keeps.current _).bind fun _ => Keeps.ite Keeps.advance (Keeps.pure _)

theorem setQuery_keeps {inv : Exec URL → Prop} (robust : Robust inv)
    (kept : ∀ exec query, inv exec → inv { exec with obj := { exec.obj with query } })
    (queryBuf : Option Bytes) (len : Nat) (exec : Exec URL) (holds : inv exec) :
    inv (setQuery queryBuf len exec) := by
  cases queryBuf with
  | none => exact holds
  | some queryBuf =>
      simp only [setQuery]
      split
      · exact robust.raise _ _ holds (ErrorHandler.event_init _ _ _ _)
      · exact Keeps.loop (fun _ => queryPair_keeps robust kept queryBuf) () _ _ holds

theorem setPath_keeps {inv : Exec URL → Prop} (robust : Robust inv)
    (kept : ∀ exec path query fragment, inv exec →
      inv { exec with obj := { exec.obj with path, query, fragment } })
    (pathBuf : Option Bytes) (len : Nat) (exec : Exec URL) (holds : inv exec) :
    inv (setPath pathBuf len exec) := by
  cases pathBuf with
  | none => exact holds
  | some pathBuf =>
      have stored (path : Bytes) (flag : Bool) :
          inv { exec with obj := { exec.obj with path }, overrun := flag } :=
        robust.overflow _ _ (kept exec path exec.obj.query exec.obj.fragment holds)
      simp only [setPath]
      split
      · exact holds
      · split
        · exact kept exec _ exec.obj.query exec.obj.fragment holds
        · split
          · exact setQuery_keeps robust
              (fun exec query => kept exec exec.obj.path query exec.obj.fragment) _ _ _ (stored _ _)
          · split
            · exact kept _ _ exec.obj.query _ (stored _ _)
            · exact stored _ _

theorem whenAt_keeps {inv : Exec URL → Prop} {introduction : UInt8} {part otherwise : Parse URL Unit}
    (inner : Keeps inv part) (outer : Keeps inv otherwise) :
    Keeps inv (whenAt introduction part otherwise) :=
  (Keeps.looksAt _).bind fun _ => Keeps.ite (Keeps.step.bind fun _ => inner) outer

/-- A path, a query and a fragment change nothing else. -/
theorem parsePath_keeps {property : URL → Prop}
    (kept : ∀ url path query fragment, property url → property { url with path, query, fragment }) :
    Keeps (fun exec => property exec.obj)
      (parsePath >>= fun _ => parseQuery >>= fun _ => parseFragment) := by
  have robust : Robust fun exec : Exec URL => property exec.obj := Robust.of_obj property
  have path : Keeps (fun exec => property exec.obj) parsePath :=
    whenAt_keeps ((Keeps.word robust _ _).bind fun _ =>
      Keeps.update (setPath_keeps robust (fun exec _ _ _ holds => kept exec.obj _ _ _ holds) _ _))
      (Keeps.pure _)
  have query : Keeps (fun exec => property exec.obj) parseQuery :=
    whenAt_keeps ((Keeps.word robust _ _).bind fun _ =>
      Keeps.update (setQuery_keeps robust
        (fun exec _ holds => kept exec.obj exec.obj.path _ exec.obj.fragment holds) _ _))
      (Keeps.pure _)
  have fragment : Keeps (fun exec => property exec.obj) parseFragment :=
    whenAt_keeps ((Keeps.word robust _ _).bind fun _ => Keeps.assign fun exec holds =>
      kept exec.obj exec.obj.path exec.obj.query _ holds) (Keeps.pure _)
  exact path.bind fun _ => query.bind fun _ => fragment

/-- Nothing behind the scheme changes it. -/
theorem parseHierarchy_keeps_scheme (property : Bytes → Prop) (defaultPort : UInt16) :
    Keeps (fun exec => property exec.obj.scheme) (parseHierarchy defaultPort) := by
  have robust : Robust fun exec : Exec URL => property exec.obj.scheme :=
    Robust.of_obj fun url : URL => property url.scheme
  have host : Keeps (fun exec => property exec.obj.scheme) parseHost :=
    (Keeps.word robust _ _).bind fun _ => Keeps.assign fun _ holds => holds
  have port : Keeps (fun exec => property exec.obj.scheme) (parsePort defaultPort) :=
    whenAt_keeps ((Keeps.word robust _ _).bind fun _ => Keeps.assign fun _ holds => holds)
      (Keeps.assign fun _ holds => holds)
  exact host.bind fun _ => port.bind fun _ =>
    @parsePath_keeps (fun url => property url.scheme) fun _ _ _ _ holds => holds

/-- Without a colon, the port is the default port. -/
theorem port_parseHierarchy {window : Bytes} (noColon : ∀ c ∈ window, c ≠ 58)
    (defaultPort : UInt16) (exec : Exec URL) :
    (parseHierarchy defaultPort window exec).2.obj.port = defaultPort := by
  have rest := @parsePath_keeps (fun url => url.port = defaultPort) fun _ _ _ _ holds => holds
  have other : (window.dropWhile isHostByte).head? ≠ some 58 := fun here =>
    noColon 58 ((List.dropWhile_suffix _).subset (List.mem_of_head? here)) rfl
  have host : ∃ exec', parseHost window exec = (some ((), window.dropWhile isHostByte), exec') :=
    ⟨_, rfl⟩
  obtain ⟨exec', host⟩ := host
  rw [parseHierarchy, bind_of_some host, parsePort, bind_apply, whenAt_otherwise other]
  exact rest _ _ rfl

/-! ## When the scheme is decided -/

/-- The bytes in front of the colon that `strchr` finds. -/
def isSchemeByte (c : UInt8) : Bool :=
  c != 58 && c != 0

/-- What the search for a scheme comes to. -/
theorem schemeAhead_eq (memory : Bytes) :
    schemeAhead memory =
      match memory.dropWhile isSchemeByte with
      | [] => false
      | c :: rest => c == 58 && (rest.getD 0 0 == 47 && rest.getD 1 0 == 47) := by
  have search : strchr memory 58 =
      match memory.dropWhile isSchemeByte with
      | [] => none
      | c :: rest => if c = 58 then some (c :: rest) else none := rfl
  unfold schemeAhead
  rw [search]
  cases memory.dropWhile isSchemeByte with
  | nil => rfl
  | cons c rest =>
      by_cases colon : c = 58
      · simp [colon]
      · simp [colon]

theorem schemeAhead_of_scheme {scheme : Bytes} (passes : ∀ c ∈ scheme, isSchemeByte c = true)
    (rest : Bytes) : schemeAhead (scheme ++ 58 :: 47 :: 47 :: rest) = true := by
  rw [schemeAhead_eq, (takeWhile_of_delimited passes (by decide) _).2]
  rfl

/-- The bytes decide by themselves whether there is a scheme: they hold a NUL before
any colon, or enough of what follows the first colon. -/
def schemeDecided (text : Bytes) : Bool :=
  match text.dropWhile isSchemeByte with
  | [] => false
  | c :: rest => c != 58 || (rest.head?.any (· != 47) || 2 ≤ rest.length)

/-- A colon with two bytes behind it decides, whatever is in front of it. -/
theorem schemeDecided_of_colon (front : Bytes) (first second : UInt8) (rest : Bytes) :
    schemeDecided (front ++ 58 :: first :: second :: rest) = true := by
  induction front with
  | nil => simp [schemeDecided, isSchemeByte]
  | cons c front ih =>
      unfold schemeDecided at ih ⊢
      rw [List.cons_append]
      by_cases inside : isSchemeByte c = true
      · rw [List.dropWhile_cons_of_pos inside]
        exact ih
      · rw [List.dropWhile_cons_of_neg inside]
        have long : 2 ≤ (front ++ 58 :: first :: second :: rest).length := by
          simp only [List.length_append, List.length_cons]
          omega
        simp only [decide_eq_true long, Bool.or_true]

theorem schemeAhead_append_of_decided {text : Bytes} (decided : schemeDecided text = true)
    (rest : Bytes) : schemeAhead (text ++ rest) = schemeAhead text := by
  unfold schemeDecided at decided
  rw [schemeAhead_eq, schemeAhead_eq, List.dropWhile_append]
  cases dropped : text.dropWhile isSchemeByte with
  | nil => simp [dropped] at decided
  | cons c more =>
      rw [dropped] at decided
      simp only [List.isEmpty_cons, Bool.false_eq_true, ↓reduceIte, List.cons_append]
      by_cases colon : c = 58
      · match more with
        | [] => simp [colon] at decided
        | [first] =>
            have other : first ≠ 47 := by simpa [colon] using decided
            simp [other]
        | first :: second :: more => rfl
      · simp only [beq_eq_false_iff_ne.mpr colon, Bool.false_and]

end URL

end IpUtils
