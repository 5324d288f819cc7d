import IpUtils.File

/-! # The path of a file

The two ways to give a `File` its path, `Init` and `InitFromBuf`, what `path` makes of it
again, and `Open`.
-/

namespace IpUtils

open CLib

namespace File

/-- `is_path_tainted`. -/
def isPathTainted (path : Bytes) : Bool :=
  (cstr path).any fun c => c == 96 || c == 124 || c == 92

/-- `set_name`. -/
def setName (name : Option Bytes) (file : File) (process : Process) : File × Process :=
  match name with
  | none => (file, process.raise ErrorHandler.EX_SOFTWARE "File::set_name(): name is NULL" [])
  | some name =>
      if isPathTainted name then
        (file, process.raise ErrorHandler.EX_DATAERR "File::set_name(): path is tainted" [])
      else
        let name := dropSlash (if name.head? = some 45 then stdin else cstr name)
        match lastSlash name with
        | some slash =>
            ({ file with dir := name.take (slash + 1), name := name.drop (slash + 1) }, process)
        | none => ({ file with name }, process)

/-- `set_dir`, for a string that is not NULL. -/
def setDir (dir : Bytes) (file : File) : File :=
  { file with dir := if (cstr dir).getLast? = some 47 then cstr dir else cstr dir ++ [47] }

/-- `Init`. -/
def init (name dir : Option Bytes) (file : File) (process : Process) : File × Process :=
  let (file, process) := file.setName name process
  match dir with
  | some dir => (file.setDir dir, process)
  | none => ({ file with dir := [] }, process)

/-- `path`, up to its NUL, behind a sandbox. -/
def pathIn (sandbox : Option Bytes) (file : File) : Bytes :=
  snprintfAppend fileMaxPath [] (cstr (sandbox.getD []) ++ (cstr file.dir ++ cstr file.name))

/-- `Open`, behind a sandbox. -/
def openIn (sandbox : Option Bytes) (flags mode : Int) (reply : OpenReply) (file : File)
    (process : Process) : Process :=
  if (file.desc process).fp.isSome then
    process.raise ErrorHandler.EX_SOFTWARE "File::Open(): fp is not NULL" []
  else if (file.desc process).fd ≠ descriptorNull then
    process.raise ErrorHandler.EX_SOFTWARE "File::Open(): fd is not NULL" []
  else if file.name.isEmpty then
    process.raise ErrorHandler.EX_SOFTWARE "File::Open(): name is empty" []
  else if file.name = stdin then
    process.setDescriptor file.descriptor fun desc =>
      { desc with fd := 0, openFile := reply.openFile }
  else
    match reply with
    | .opened fd contents =>
        process.setDescriptor file.descriptor fun desc =>
          { desc with fd, openFile := { contents } }
    | .failed reason =>
        process.raise ErrorHandler.EX_IOERR "File::Open(%s, %d, %d) failed: %s"
          [.str (file.pathIn sandbox), .num flags, .num mode, .str reason]

theorem openIn_none (flags mode : Int) (reply : OpenReply) (file : File) (process : Process) :
    file.openIn none flags mode reply process = file.openWith flags mode reply process :=
  rfl

variable {name path : Bytes} {file : File} {process : Process}

/-- `open(2)` succeeds. -/
theorem openIn_calm {sandbox : Option Bytes} {flags mode : Int} {reply : OpenReply}
    (calm : (file.openIn sandbox flags mode reply process).error.event = false) :
    file.name.isEmpty = false ∧
      (file.desc (file.openIn sandbox flags mode reply process)).fp = none ∧
      file.isOpen (file.openIn sandbox flags mode reply process) = true ∧
      (file.desc (file.openIn sandbox flags mode reply process)).openFile = reply.openFile := by
  generalize result : file.openIn sandbox flags mode reply process = after at calm ⊢
  have raises (format : String) (args : List FmtArg) (realm : Int) :
      process.raise realm format args ≠ after := by
    intro same
    rw [← same, Process.event_raise] at calm
    cases calm
  unfold File.openIn at result
  split at result
  · exact absurd result (raises _ _ _)
  rename_i unbuffered
  have unbuffered : (process.descriptors file.descriptor).fp = none := by
    simpa [File.desc] using unbuffered
  split at result
  · exact absurd result (raises _ _ _)
  split at result
  · exact absurd result (raises _ _ _)
  rename_i named
  have named : file.name.isEmpty = false := by simpa using named
  split at result
  · simp [← result, File.isOpen, File.desc, Process.setDescriptor, descriptorNull, named,
      unbuffered]
  split at result
  · simp [← result, File.isOpen, File.desc, Process.setDescriptor, descriptorNull, named,
      unbuffered, OpenReply.openFile]
  · exact absurd result (raises _ _ _)

/-! ## The last slash -/

theorem lastSlash_eq_none_iff : lastSlash name = none ↔ (47 : UInt8) ∉ name := by
  simp only [lastSlash, Option.map_eq_none_iff, List.findIdx?_eq_none_iff, List.mem_reverse,
    beq_eq_false_iff_ne]
  exact ⟨fun other member => other 47 member rfl, fun absent c member same => absent (same ▸ member)⟩

theorem lastSlash_lt {slash : Nat} (found : lastSlash name = some slash) : slash < name.length := by
  obtain ⟨behind, place, rfl⟩ := Option.map_eq_some_iff.mp found
  obtain ⟨inside, -⟩ := List.findIdx?_eq_some_iff_getElem.mp place
  rw [List.length_reverse] at inside
  omega

theorem dropSlash_front (name : Bytes) : dropSlash name <+: name := by
  unfold dropSlash
  split
  · exact List.dropLast_prefix name
  · exact List.prefix_refl name

/-- A name has lost the slash at its end or is what it was. -/
theorem dropSlash_cases (name : Bytes) : name = dropSlash name ∨ name = dropSlash name ++ [47] := by
  unfold dropSlash
  split
  · rename_i slash
    obtain ⟨front, rfl⟩ := List.getLast?_eq_some_iff.mp slash
    rw [List.dropLast_concat]
    exact .inr rfl
  · exact .inl rfl

/-! ## The path that comes back -/

/-- Neither part of a path holds a NUL and both together fit: the path is both together. -/
theorem path_of_parts {whole : Bytes} (parts : file.dir ++ file.name = whole)
    (noNul : (0 : UInt8) ∉ whole) (short : whole.length < fileMaxPath) : file.path = whole := by
  subst parts
  rw [List.mem_append, not_or] at noNul
  rw [path, cstr_eq_self noNul.1, cstr_eq_self noNul.2, snprintfAppend, List.nil_append]
  exact List.take_of_length_le (by omega)

/-- A path that names a file: it can be kept, and it is not the standard input. -/
structure Ordinary (path : Bytes) : Prop where
  inhabited : path ≠ []
  noNul : (0 : UInt8) ∉ path
  untainted : isPathTainted path = false
  short : path.length < fileMaxPath
  noDash : path.head? ≠ some 45
  other : equalsNoCase path stdin = false

/-- Both ways to set a path agree, raise no error, and the path comes back without the slash
at its end. -/
structure ComesBack (path : Bytes) (file : File) (process : Process) : Prop where
  calm : (file.init (some path) none process).2.error.event = false
  name : (file.init (some path) none process).1.name = (file.initFromBuf path).name
  dir : (file.init (some path) none process).1.dir = (file.initFromBuf path).dir
  byInit : (file.init (some path) none process).1.path = dropSlash path
  byBuf : (file.initFromBuf path).path = dropSlash path

theorem Ordinary.noNul_dropSlash (ordinary : Ordinary path) : (0 : UInt8) ∉ dropSlash path :=
  fun member => ordinary.noNul ((dropSlash_front path).subset member)

theorem Ordinary.short_dropSlash (ordinary : Ordinary path) :
    (dropSlash path).length < fileMaxPath :=
  (dropSlash_front path).length_le.trans_lt ordinary.short

/-- `Init` without a directory keeps what stands behind the last slash. -/
theorem Ordinary.init_eq (ordinary : Ordinary path) (file : File) (process : Process) :
    file.init (some path) none process =
      ({ file with
          dir := []
          name := match lastSlash (dropSlash path) with
            | some slash => (dropSlash path).drop (slash + 1)
            | none => dropSlash path }, process) := by
  simp only [init, setName, ordinary.untainted, Bool.false_eq_true, ↓reduceIte, ordinary.noDash,
    cstr_eq_self ordinary.noNul]
  cases lastSlash (dropSlash path) with
  | some slash => rfl
  | none => rfl

/-- `InitFromBuf` takes a path that starts like the standard input for the standard input. -/
theorem initFromBuf_of_stdin (likeStdin : startsWithNoCase stdin path = true) (file : File) :
    file.initFromBuf path = { file with name := stdin } := by
  simp only [initFromBuf, likeStdin, Bool.or_true, ↓reduceIte]

/-- `InitFromBuf` splits any other path at its last slash. -/
theorem Ordinary.initFromBuf_eq (ordinary : Ordinary path)
    (other : startsWithNoCase stdin path = false) (file : File) :
    file.initFromBuf path =
      match lastSlash (dropSlash path) with
      | some slash =>
          { file with
            dir := (dropSlash path).take (slash + 1), name := (dropSlash path).drop (slash + 1) }
      | none => { file with name := dropSlash path, dir := [] } := by
  have named : ¬(path.head? = some 45 || startsWithNoCase stdin path) = true := by
    simp only [ordinary.noDash, other, decide_false, Bool.or_false, Bool.false_eq_true,
      not_false_eq_true]
  cases found : lastSlash (dropSlash path) with
  | some slash => simp only [initFromBuf, if_neg named, cstr_eq_self ordinary.noNul, found]
  | none => simp only [initFromBuf, if_neg named, cstr_eq_self ordinary.noNul, found]

/-- `InitFromBuf` keeps every path that does not start like the standard input. -/
theorem Ordinary.path_initFromBuf (ordinary : Ordinary path)
    (other : startsWithNoCase stdin path = false) (file : File) :
    (file.initFromBuf path).path = dropSlash path := by
  apply path_of_parts _ ordinary.noNul_dropSlash ordinary.short_dropSlash
  rw [ordinary.initFromBuf_eq other]
  cases lastSlash (dropSlash path) with
  | some slash => exact List.take_append_drop _ _
  | none => rfl

/-- `Init` without a directory keeps a path that has no slash in front of its end. -/
theorem Ordinary.path_init_iff (ordinary : Ordinary path) (file : File) (process : Process) :
    (file.init (some path) none process).1.path = dropSlash path ↔
      (47 : UInt8) ∉ dropSlash path := by
  rw [ordinary.init_eq, ← lastSlash_eq_none_iff]
  constructor
  · intro same
    cases found : lastSlash (dropSlash path) with
    | none => rfl
    | some slash =>
        -- what stands behind the slash is shorter than the path
        have inside := lastSlash_lt found
        have length := congrArg List.length same
        rw [found] at length
        have cut := (List.takeWhile_prefix (· != 0) (l := (dropSlash path).drop (slash + 1))).length_le
        simp only [File.path, snprintfAppend, cstr, List.takeWhile_nil, List.nil_append,
          List.length_take] at length
        rw [List.length_drop] at cut
        omega
  · intro absent
    refine path_of_parts ?_ ordinary.noNul_dropSlash ordinary.short_dropSlash
    rw [absent, List.nil_append]

/-- A path comes back both ways if it has no slash in front of its end and does not start like
the standard input. `stdin/` comes back as well, on a file without a directory. -/
theorem comesBack_iff (ordinary : Ordinary path) (file : File)
    (quiet : process.error.event = false) :
    ComesBack path file process ↔
      (47 : UInt8) ∉ dropSlash path ∧
        (startsWithNoCase stdin path = true → path = stdin ++ [47] ∧ file.dir = []) := by
  have byInit := ordinary.path_init_iff file process
  constructor
  · rintro ⟨-, name, dir, kept, -⟩
    have absent := byInit.mp kept
    refine ⟨absent, fun likeStdin => ?_⟩
    rw [ordinary.init_eq, initFromBuf_of_stdin likeStdin] at name dir
    rw [lastSlash_eq_none_iff.mpr absent] at name
    dsimp only at name dir
    refine ⟨?_, dir.symm⟩
    rcases dropSlash_cases path with same | slash
    · -- the standard input itself is not ordinary
      have other := ordinary.other
      rw [same, name] at other
      exact absurd other (by decide)
    · rw [slash, name]
  · rintro ⟨absent, likeStdin⟩
    have kept := byInit.mpr absent
    have none_ := lastSlash_eq_none_iff.mpr absent
    have calm : (file.init (some path) none process).2.error.event = false := by
      rw [ordinary.init_eq]
      exact quiet
    cases starts : startsWithNoCase stdin path with
    | false =>
        refine ⟨calm, ?_, ?_, kept, ordinary.path_initFromBuf starts file⟩
        · rw [ordinary.init_eq, ordinary.initFromBuf_eq starts, none_]
        · rw [ordinary.init_eq, ordinary.initFromBuf_eq starts, none_]
    | true =>
        obtain ⟨rfl, noDir⟩ := likeStdin starts
        have same : file.initFromBuf (stdin ++ [47]) =
            (file.init (some (stdin ++ [47])) none process).1 := by
          rw [ordinary.init_eq, initFromBuf_of_stdin starts, none_, noDir]
          rfl
        exact ⟨calm, by rw [same], by rw [same], kept, by rw [same]; exact kept⟩

theorem comesBack_sample : ComesBack (ascii "name/") { descriptor := 0 } {} :=
  (comesBack_iff ⟨by decide +kernel, by decide +kernel, by decide +kernel, by decide +kernel,
    by decide +kernel, by decide +kernel⟩ _ rfl).mpr (by decide +kernel)

/-- `Init` loses the directory of a path. -/
theorem not_comesBack_dir :
    Ordinary (ascii "dir/name") ∧ ¬ComesBack (ascii "dir/name") { descriptor := 0 } {} := by
  have ordinary : Ordinary (ascii "dir/name") :=
    ⟨by decide +kernel, by decide +kernel, by decide +kernel, by decide +kernel,
      by decide +kernel, by decide +kernel⟩
  refine ⟨ordinary, fun back => ?_⟩
  exact absurd ((ordinary.path_init_iff _ _).mp back.byInit) (by decide +kernel)

end File

end IpUtils
