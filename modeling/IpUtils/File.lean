import IpUtils.Process

/-! # Files

`File` objects: a name, a directory and a shared, counted `Descriptor`.
-/

namespace IpUtils

open CLib

/-- What `open(2)` does: a number and the file behind it, or the text of `errno`. -/
inductive OpenReply where
  | opened (fd : Nat) (contents : Bytes)
  | failed (reason : Bytes)
  deriving DecidableEq, Repr

/-- The file that a successful `open(2)` finds, read from its beginning. -/
def OpenReply.openFile : OpenReply → OpenFile
  | opened _ contents => { contents }
  | failed _ => {}

/-- `File`: `descriptor` is the address that `descriptor_` holds. -/
structure File where
  descriptor : Nat
  name : Bytes := []
  dir : Bytes := []
  deriving DecidableEq, Repr

namespace File

/-- `FILE_MAX_PATH`. -/
def fileMaxPath : Nat := 4096

/-- `O_RDONLY`. -/
def readOnly : Int := 0

/-- `O_WRONLY | O_CREAT | O_TRUNC`. -/
def writeAnew : Int := 577

/-- `S_IRUSR | S_IWUSR | S_IRGRP`. -/
def ownerWritable : Int := 416

def stdin : Bytes := ascii "stdin"

/-- The descriptor of a file. -/
def desc (file : File) (process : Process) : Descriptor :=
  process.descriptors file.descriptor

/-- `path(NULL)`, up to its NUL. -/
def path (file : File) : Bytes :=
  snprintfAppend fileMaxPath [] (cstr file.dir ++ cstr file.name)

/-- `print`, up to its NUL. -/
def print (file : File) (process : Process) : Bytes :=
  let text := cstr file.dir ++ cstr file.name
  match (file.desc process).fp with
  | some address => snprintfAppend fileMaxPath [] (text ++ 58 :: address)
  | none =>
      if (file.desc process).fd ≠ descriptorNull then
        snprintfAppend fileMaxPath [] (text ++ 58 :: printInt (file.desc process).fd)
      else snprintfAppend fileMaxPath [] text

/-- `IsOpen`. -/
def isOpen (file : File) (process : Process) : Bool :=
  (file.desc process).fp.isSome || (file.desc process).fd != descriptorNull

/-- The place of the last slash of a name. -/
def lastSlash (name : Bytes) : Option Nat :=
  (name.reverse.findIdx? (· == 47)).map fun behind => name.length - 1 - behind

/-- A name without the slash at its end. -/
def dropSlash (name : Bytes) : Bytes :=
  if name.getLast? = some 47 then name.dropLast else name

/-- `InitFromBuf`, for a buffer that is not NULL and holds a string that is not empty.
The length is not looked at. -/
def initFromBuf (buf : Bytes) (file : File) : File :=
  if buf.head? = some 45 || startsWithNoCase stdin buf then { file with name := stdin }
  else
    let name := dropSlash (cstr buf)
    match lastSlash name with
    | some slash => { file with dir := name.take (slash + 1), name := name.drop (slash + 1) }
    | none => { file with name, dir := [] }

/-- `Open(NULL, flags, mode)`. -/
def openWith (flags mode : Int) (reply : OpenReply) (file : File) (process : Process) : Process :=
  if (file.desc process).fp.isSome then
    process.raise ErrorHandler.EX_SOFTWARE "File::Open(): fp is not NULL" []
  else if (file.desc process).fd ≠ descriptorNull then
    process.raise ErrorHandler.EX_SOFTWARE "File::Open(): fd is not NULL" []
  else if file.name.isEmpty then
    process.raise ErrorHandler.EX_SOFTWARE "File::Open(): name is empty" []
  else if file.name = stdin then
    process.setDescriptor file.descriptor fun desc =>
      { desc with fd := 0, openFile := reply.openFile }
  else
    match reply with
    | .opened fd contents =>
        process.setDescriptor file.descriptor fun desc =>
          { desc with fd, openFile := { contents } }
    | .failed reason =>
        process.raise ErrorHandler.EX_IOERR "File::Open(%s, %d, %d) failed: %s"
          [.str file.path, .num flags, .num mode, .str reason]

/-- `Close`. -/
def close (file : File) (process : Process) : Process :=
  if file.name.isEmpty then
    process.raise ErrorHandler.EX_SOFTWARE "File::Close(): name is empty" []
  else if (file.desc process).fp.isSome then
    process.raise ErrorHandler.EX_SOFTWARE "File::Close(): fp is not NULL" []
  else if (file.desc process).fd = descriptorNull || file.name = stdin then process
  else process.setDescriptor file.descriptor fun desc => { desc with fd := descriptorNull }

/-- `Fclose`. -/
def fclose (file : File) (process : Process) : Process :=
  if file.name.isEmpty then
    process.raise ErrorHandler.EX_SOFTWARE "File::Fclose(): name is empty" []
  else if (file.desc process).fd ≠ descriptorNull then
    process.raise ErrorHandler.EX_SOFTWARE "File::Fclose(): fd is not NULL" []
  else if (file.desc process).fp.isNone || file.name = stdin then process
  else process.setDescriptor file.descriptor fun desc => { desc with fp := none }

/-- Give up a reference to the descriptor; the last one closes it. -/
def release (file : File) (process : Process) : Process :=
  let process := process.setDescriptor file.descriptor fun desc => { desc with cnt := desc.cnt - 1 }
  if (file.desc process).cnt = 0 then
    if (file.desc process).fd ≠ descriptorNull then file.close process
    else if (file.desc process).fp.isSome then file.fclose process
    else process
  else process

/-- The copy constructor: the copy shares the descriptor. -/
def share (file : File) (process : Process) : Process :=
  process.setDescriptor file.descriptor fun desc => { desc with cnt := desc.cnt + 1 }

/-- `clear`: the name is gone when the descriptor is closed. -/
def clear (file : File) (process : Process) : File × Process :=
  let process := release { file with name := [], dir := [] } process
  let (descriptor, process) := process.newDescriptor
  ({ descriptor }, process)

/-- The constructor. -/
def create (process : Process) : File × Process :=
  let (descriptor, process) := process.newDescriptor
  ({ descriptor }, process)

/-- `wfiles_.erase(wfiles_.begin())`: the files behind are assigned one place down, so
the first object has the name of the second when it gives up its descriptor. -/
def eraseFront (files : List File) (process : Process) : List File × Process :=
  match files with
  | [] => ([], process.checked false)
  | [file] => ([], file.release process)
  | file :: next :: rest =>
      (next :: rest, release { file with name := next.name, dir := next.dir } process)

/-- `wfiles_.clear()`. -/
def destroyAll (files : List File) (process : Process) : Process :=
  files.foldl (fun process file => file.release process) process

/-! ## Errors stay -/

theorem event_close {process : Process} (raised : process.error.event = true) (file : File) :
    (file.close process).error.event = true := by
  unfold close
  split
  · exact Process.event_raise ..
  split
  · exact Process.event_raise ..
  split <;> exact raised

theorem event_fclose {process : Process} (raised : process.error.event = true) (file : File) :
    (file.fclose process).error.event = true := by
  unfold fclose
  split
  · exact Process.event_raise ..
  split
  · exact Process.event_raise ..
  split <;> exact raised

theorem event_release {process : Process} (raised : process.error.event = true) (file : File) :
    (file.release process).error.event = true := by
  unfold release
  dsimp only
  split
  · split
    · exact event_close (by exact raised) file
    · split
      · exact event_fclose (by exact raised) file
      · exact raised
  · exact raised

theorem event_destroyAll {process : Process} (raised : process.error.event = true)
    (files : List File) : (destroyAll files process).error.event = true := by
  unfold destroyAll
  induction files generalizing process with
  | nil => exact raised
  | cons file files ih => exact ih (event_release raised file)

theorem event_clear {process : Process} (raised : process.error.event = true) (file : File) :
    (file.clear process).2.error.event = true :=
  event_release raised { file with name := [], dir := [] }

end File

end IpUtils
