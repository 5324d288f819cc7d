import IpUtils.Counting.Files
import IpUtils.Session.Incoming
import IpUtils.Session.Outgoing
import Mathlib.Data.Set.Basic
import Mathlib.Logic.Relation

/-! # The two directions of a session

A session keeps what it receives apart from what it sends. Each call is a chain of small
moves of one direction, and no move of one direction touches what belongs to the other.
-/

namespace IpUtils

open CLib

/-- The counts of the descriptors are the same, and none has been made. -/
structure Process.SameCounts (before after : Process) : Prop where
  cnt : ∀ address, (after.descriptors address).cnt = (before.descriptors address).cnt
  next : after.nextDescriptor = before.nextDescriptor

namespace World

variable {α : Type} {w after : World} 

/-- What belongs to the messages that come in. -/
structure Inbox where
  rbuf : Option Bytes
  rbufSize : Int
  rbufLen : Int
  rfile : File
  rhdr : MsgHdr
  rpending : MsgInfo
  locked : Bool

def inbox (w : World) : Inbox where
  rbuf := w.session.rbuf
  rbufSize := w.session.rbufSize
  rbufLen := w.session.rbufLen
  rfile := w.session.rfile
  rhdr := w.session.rhdr
  rpending := w.session.rpending
  locked := w.session.mutexes.incoming

/-- What belongs to the messages that go out. -/
structure Outbox where
  wbuf : Option Bytes
  wbufSize : Int
  wbufLen : Int
  wpending : List MsgInfo
  wfiles : List File
  whdrs : List MsgHdr
  wire : Bytes
  locked : Bool

def outbox (w : World) : Outbox where
  wbuf := w.session.wbuf
  wbufSize := w.session.wbufSize
  wbufLen := w.session.wbufLen
  wpending := w.session.wpending
  wfiles := w.session.wfiles
  whdrs := w.session.whdrs
  wire := w.wire
  locked := w.session.mutexes.outgoing

/-- What a call hands to the session: the descriptors of its files, and its requests. -/
structure Given where
  descriptors : Set Nat := ∅
  requests : Set MsgHdr := ∅

variable {given : Given}

/-- A move of the sending side. -/
inductive SendMove (given : Given) : World → World → Prop
  | process {w : World} {process : Process} (same : w.process.SameCounts process) :
      SendMove given w { w with process }
  | session {w : World} {session : TCPSession} (inbox : inbox { w with session } = w.inbox)
      (wfiles : session.wfiles = w.session.wfiles) (whdrs : session.whdrs = w.session.whdrs) :
      SendMove given w { w with session }
  /-- The socket takes bytes. -/
  | send {w : World} (conn : SSLConn) (error : ErrorHandler) (data : Bytes) :
      SendMove given w
        { session := { w.session with conn }
          process := { w.process with error }
          wire := w.wire ++ data }
  /-- All messages are removed. -/
  | reset {w : World} :
      SendMove given w
        { w with
          session := { w.session with wbufLen := 0, wfiles := [], wpending := [] }
          process := File.destroyAll w.session.wfiles w.process }
  /-- The file of a message is copied. -/
  | addFile {w : World} (file : File) (member : file.descriptor ∈ given.descriptors) :
      SendMove given w
        { w with
          session := { w.session with wfiles := w.session.wfiles ++ [file] }
          process := file.share w.process }
  /-- The first file is removed. -/
  | eraseFile {w : World} :
      SendMove given w
        { w with
          session := { w.session with wfiles := (File.eraseFront w.session.wfiles w.process).1 }
          process := (File.eraseFront w.session.wfiles w.process).2 }
  /-- A request is archived. -/
  | archive {w : World} (whdr : MsgHdr) (member : whdr ∈ given.requests) :
      SendMove given w
        { w with session := { w.session with whdrs := w.session.whdrs ++ [whdr] } }

/-- A move of the receiving side. -/
inductive ReceiveMove : World → World → Prop
  | process {w : World} {process : Process} (same : w.process.SameCounts process) :
      ReceiveMove w { w with process }
  | session {w : World} {session : TCPSession} (outbox : outbox { w with session } = w.outbox)
      (descriptor : session.rfile.descriptor = w.session.rfile.descriptor) :
      ReceiveMove w { w with session }
  /-- The file of the message is cleared. -/
  | clearFile {w : World} :
      ReceiveMove w
        { w with
          session := { w.session with rfile := (w.session.rfile.clear w.process).1 }
          process := (w.session.rfile.clear w.process).2 }

/-- A call of the sending side. -/
abbrev Sends (given : Given) : World → World → Prop :=
  Relation.ReflTransGen (SendMove given)

/-- A call of the receiving side. -/
abbrev Gets : World → World → Prop :=
  Relation.ReflTransGen ReceiveMove

/-! ## What a move leaves alone -/

theorem Sends.inbox (sends : Sends given w after) : after.inbox = w.inbox := by
  induction sends with
  | refl => rfl
  | tail _ move ih =>
      cases move with
      | session inbox wfiles whdrs => exact inbox.trans ih
      | process | send | reset | addFile | eraseFile | archive => exact ih

theorem Sends.wire (sends : Sends given w after) : w.wire <+: after.wire := by
  induction sends with
  | refl => exact List.prefix_rfl
  | tail _ move ih =>
      cases move with
      | send conn error data => exact ih.trans (List.prefix_append _ _)
      | process | session | reset | addFile | eraseFile | archive => exact ih

theorem Sends.whdrs (sends : Sends given w after) (none_ : given.requests = ∅) :
    after.session.whdrs = w.session.whdrs := by
  induction sends with
  | refl => rfl
  | tail _ move ih =>
      cases move with
      | session inbox wfiles whdrs => exact whdrs.trans ih
      | archive whdr member =>
          rw [none_] at member
          exact member.elim
      | process | send | reset | addFile | eraseFile => exact ih

theorem Gets.outbox (gets : Gets w after) : after.outbox = w.outbox := by
  induction gets with
  | refl => rfl
  | tail _ move ih =>
      cases move with
      | session outbox descriptor => exact outbox.trans ih
      | process | clearFile => exact ih

/-! ## Counts of descriptors -/

theorem sameCounts_setDescriptor {change : Descriptor → Descriptor}
    (kept : ∀ desc, (change desc).cnt = desc.cnt) (process : Process) (owner : Nat) :
    process.SameCounts (process.setDescriptor owner change) :=
  ⟨Process.cnt_setDescriptor kept process owner, rfl⟩

theorem sameCounts_openWith (file : File) (flags mode : Int) (reply : OpenReply)
    (process : Process) : process.SameCounts (file.openWith flags mode reply process) :=
  ⟨fun address => (Files.openWith_descriptors file flags mode reply process address).1,
    (Files.openWith_descriptors file flags mode reply process 0).2⟩

theorem sameCounts_close (file : File) (process : Process) :
    process.SameCounts (file.close process) :=
  ⟨fun address => (Files.close_descriptors file process address).1,
    (Files.close_descriptors file process 0).2⟩

/-- The parser leaves the files alone. -/
theorem files_initFromBuf (env : MsgHdr.BufEnv) (window : Bytes) (chunked : ChunkBuf)
    (hdr : MsgHdr) (process : Process) :
    (hdr.initFromBuf env window chunked process).process.descriptors = process.descriptors ∧
      (hdr.initFromBuf env window chunked process).process.nextDescriptor =
        process.nextDescriptor := by
  unfold MsgHdr.initFromBuf
  split
  · unfold MsgHdr.initBasic
    split <;> exact ⟨rfl, rfl⟩
  · split
    · unfold MsgHdr.initHttp
      dsimp only
      split
      · dsimp only
        split <;> exact ⟨rfl, rfl⟩
      · exact ⟨rfl, rfl⟩
    · exact ⟨rfl, rfl⟩

theorem sameCounts_initFromBuf (env : MsgHdr.BufEnv) (window : Bytes) (chunked : ChunkBuf)
    (hdr : MsgHdr) (process : Process) :
    process.SameCounts (hdr.initFromBuf env window chunked process).process := by
  obtain ⟨descriptors, next⟩ := files_initFromBuf env window chunked hdr process
  exact ⟨fun address => by rw [descriptors], next⟩

theorem descriptor_initFromBuf (buf : Bytes) (file : File) :
    (file.initFromBuf buf).descriptor = file.descriptor := by
  unfold File.initFromBuf
  split
  · rfl
  · dsimp only
    split <;> rfl

/-! ## Sending -/

theorem sends_raise (realm : Int) (format : String) (args : List FmtArg) (w : World) :
    Sends given w (w.raise realm format args) :=
  .single (.process ⟨fun _ => rfl, rfl⟩)

theorem sends_appendMsg (format : String) (args : List FmtArg) (w : World) :
    Sends given w (w.onProcess (Process.appendMsg format args)) :=
  .single (.process ⟨fun _ => rfl, rfl⟩)

theorem sends_checked (inside : Bool) (w : World) :
    Sends given w (w.onProcess (Process.checked inside)) :=
  .single (.process ⟨fun _ => rfl, rfl⟩)

theorem sends_setDescriptor {change : Descriptor → Descriptor}
    (kept : ∀ desc, (change desc).cnt = desc.cnt) (owner : Nat) (w : World) :
    Sends given w (w.onProcess fun process => process.setDescriptor owner change) :=
  .single (.process (sameCounts_setDescriptor kept _ _))

theorem sends_returnOutgoing (value : α) (w : World) : Sends given w (w.returnOutgoing value).1 :=
  .single (.session rfl rfl rfl)

theorem sends_resetWbuf (w : World) : Sends given w w.resetWbuf := by
  unfold resetWbuf
  split
  · exact sends_raise ..
  · exact .single .reset

/-- The end of a call that has failed. -/
theorem sends_fails (sends : Sends given w after) (value : α) :
    Sends given w (after.resetWbuf.returnOutgoing value).1 :=
  (sends.trans (sends_resetWbuf _)).trans (sends_returnOutgoing value _)

theorem sends_lockOutgoing {body : World → Outcome α}
    (keeps : ∀ w' : World, Sends given w' (body w').1) (w : World) :
    Sends given w (w.lockOutgoing body).1 := by
  have locked : Sends given w w.outgoingLocked := .single (.session rfl rfl rfl)
  cases held : w.session.mutexes.outgoing with
  | true =>
      rw [lockOutgoing_of_held held]
      exact locked
  | false =>
      rw [lockOutgoing_of_free held]
      exact locked.trans (keeps _)

/-- What follows a call of `SSLConn::Write` decides. -/
theorem sends_send {buf : Bytes} {bufLen : Int} {reply : SSLConn.NetWrite}
    {failed : World → Outcome Int} {next : Int → World → Outcome Int}
    (onFailure : ∀ w' : World, Sends given w' (failed w').1)
    (onNext : ∀ (value : Int) (w' : World), Sends given w' (next value w').1) (w : World) :
    Sends given w (w.send buf bufLen reply failed next).1 := by
  unfold send
  dsimp only
  have sent (conn : SSLConn) (error : ErrorHandler) (data : Bytes) :=
    Relation.ReflTransGen.single (@SendMove.send given w conn error data)
  split
  · exact sent _ _ _
  · split
    · exact (sent _ _ _).trans (onFailure _)
    · exact (sent _ _ _).trans (onNext _ _)

theorem sends_updateFront (change : MsgInfo → MsgInfo) (w : World) :
    Sends given w (w.updateFront change) :=
  .single (.session rfl rfl rfl)

theorem sends_sendFront {front : MsgInfo} {len : Int} {text : String} {reply : SSLConn.NetWrite}
    {next : Int → World → Outcome Int}
    (onNext : ∀ (value : Int) (w' : World), Sends given w' (next value w').1) (w : World) :
    Sends given w (w.sendFront front len text reply next).1 := by
  unfold sendFront
  refine (sends_checked _ w).trans (sends_send (fun w' => ?_) (fun value w' => ?_) _)
  · exact sends_fails (sends_appendMsg _ _ w') _
  · exact (sends_updateFront _ _).trans (onNext value _)

theorem sends_writeChunk (file : File) (front : MsgInfo) (sent : Int) (replies : WriteReplies)
    (w : World) : Sends given w (w.writeChunk file front sent replies).1 := by
  unfold writeChunk
  dsimp only
  split
  · exact sends_fails (sends_raise _ _ _ w) _
  · rename_i atMost _
    have read : Sends given w (w.onProcess fun process =>
        (process.setDescriptor file.descriptor fun desc =>
          { desc with openFile := (readFile (readAmount front) atMost
            (file.desc w.process).openFile).2 }).checked
          (decide ((readFile (readAmount front) atMost
            (file.desc w.process).openFile).1.length ≤ kFileChunkSize))) :=
      (sends_setDescriptor (by intro desc; rfl) _ w).trans (sends_checked _ _)
    split
    · exact sends_fails (read.trans (sends_raise _ _ _ _)) _
    · refine read.trans (sends_send (fun w' => ?_) (fun value w' => ?_) _)
      · exact sends_fails (sends_appendMsg _ _ w') _
      · exact (sends_updateFront _ _).trans (sends_returnOutgoing _ _)

theorem sends_writeFile (file : File) (front : MsgInfo) (sent : Int) (replies : WriteReplies)
    (w : World) : Sends given w (w.writeFile file front sent replies).1 := by
  have opened : Sends given w (w.onProcess (file.openWith File.readOnly 0 replies.opening)) :=
    .single (.process (sameCounts_openWith _ _ _ _ _))
  unfold writeFile
  split
  · exact sends_writeChunk ..
  · dsimp only
    split
    · exact sends_fails (opened.trans (sends_appendMsg _ _ _)) _
    · split
      · exact sends_fails (opened.trans (sends_raise _ _ _ _)) _
      · refine (opened.trans (sends_setDescriptor ?_ _ _)).trans (sends_writeChunk ..)
        intro desc
        rfl

theorem sends_writeDisc (front : MsgInfo) (replies : WriteReplies) (w : World) :
    Sends given w (w.writeDisc front replies).1 := by
  obtain ⟨body, continues, ends, opens⟩ := writeDisc_eq front replies w
  have kept (sent : Int) (w : World) : Sends given w (body sent w).1 := by
    have nothing : Sends given w ((w.onProcess (Process.checked false)).returnOutgoing sent).1 :=
      (sends_checked _ w).trans (sends_returnOutgoing _ _)
    cases pending : w.session.wpending with
    | nil =>
        rw [ends sent w (Or.inl pending)]
        exact nothing
    | cons front others =>
        cases files : w.session.wfiles with
        | nil =>
            rw [ends sent w (Or.inr files)]
            exact nothing
        | cons file more =>
            rw [continues sent w front others file more pending files]
            split
            · exact sends_returnOutgoing _ _
            · exact sends_writeFile ..
  rw [opens]
  split
  · exact sends_sendFront kept w
  · exact kept 0 w

/-- `Write`. -/
theorem sends_write (replies : WriteReplies) (w : World) : Sends {} w (w.write replies).1 := by
  unfold write
  split
  · exact sends_raise ..
  · split
    · exact sends_raise ..
    · split
      · exact sends_raise ..
      · refine sends_lockOutgoing (fun w' => ?_) w
        split
        · exact sends_sendFront (fun value w' => sends_returnOutgoing _ _) w'
        · exact sends_writeDisc ..

theorem sends_enqueue {caller : String} {needed : Int} {info : MsgInfo} {whdr : MsgHdr}
    {fresh : Option Bytes} {install : World → World}
    (member : whdr ∈ given.requests) (installs : ∀ w' : World, Sends given w' (install w'))
    (w : World) : Sends given w (w.enqueue caller needed info whdr fresh install).1 := by
  have recorded (w' : World) : Sends given w' ((w'.onSession fun session =>
      if whdr.isMsgRequest then { session with whdrs := session.whdrs ++ [whdr] }
      else session).returnOutgoing true).1 := by
    refine Relation.ReflTransGen.trans ?_ (sends_returnOutgoing _ _)
    cases whdr.isMsgRequest with
    | true => exact .single (.archive whdr member)
    | false => exact .refl
  have entered (w' : World) (start : Sends given w w') :
      Sends given w (((install (w'.onSession fun session =>
          { session with wpending := session.wpending ++ [info] })).onSession fun session =>
        if whdr.isMsgRequest then { session with whdrs := session.whdrs ++ [whdr] }
        else session).returnOutgoing true).1 := by
    have entry : Sends given w' (w'.onSession fun session =>
        { session with wpending := session.wpending ++ [info] }) := .single (.session rfl rfl rfl)
    exact ((start.trans entry).trans (installs _)).trans (recorded _)
  unfold enqueue
  dsimp only
  split
  · split
    · exact (sends_raise _ _ _ w).trans (sends_returnOutgoing _ _)
    · exact entered _ (.single (.session rfl rfl rfl))
  · exact entered _ .refl

theorem sends_appendWbuf (source : Bytes) (count : Int) (w : World) :
    Sends given w (w.appendWbuf source count) := by
  have stored : Sends given w (w.onSession fun session =>
      { session with
        wbuf := some (storeAt (w.session.wbuf.getD []) w.session.wbufLen (sliceAt source 0 count))
        wbufLen := w.session.wbufLen + count }) := .single (.session rfl rfl rfl)
  exact stored.trans (sends_checked _ _)

/-- `AddMsgBuf`. -/
theorem sends_addMsgBuf (framingHdr : Option Bytes) (hdrLen : Int) (msgBody : Bytes)
    (bodyLen : Int) (whdr : MsgHdr) (fresh : Option Bytes) (w : World) :
    Sends { requests := {whdr} } w (w.addMsgBuf framingHdr hdrLen msgBody bodyLen whdr fresh).1 := by
  have installs (w' : World) :
      Sends { requests := {whdr} } w'
        ((w'.appendWbuf (framingHdr.getD []) hdrLen).appendWbuf msgBody bodyLen) :=
    (sends_appendWbuf ..).trans (sends_appendWbuf ..)
  unfold addMsgBuf
  split
  · exact sends_raise ..
  · split
    · exact sends_raise ..
    · exact sends_lockOutgoing (fun w' => sends_enqueue rfl installs w') w

/-- `AddMsgFile`. -/
theorem sends_addMsgFile (framingHdr : Option Bytes) (hdrLen : Int) (msgBody : File)
    (bodyLen : Int) (whdr : MsgHdr) (fresh : Option Bytes) (w : World) :
    Sends { descriptors := {msgBody.descriptor}, requests := {whdr} } w
      (w.addMsgFile framingHdr hdrLen msgBody bodyLen whdr fresh).1 := by
  unfold addMsgFile
  split
  · exact sends_raise ..
  · split
    · exact sends_raise ..
    · refine sends_lockOutgoing (fun w' => sends_enqueue rfl (fun w' => ?_) w') w
      exact (sends_appendWbuf (framingHdr.getD []) hdrLen w').trans (.single (.addFile msgBody rfl))

/-- `PopOutgoingMsgQueue`. -/
theorem sends_popOutgoingMsgQueue (w : World) : Sends {} w w.popOutgoingMsgQueue.1 := by
  have popped (w' : World) : Sends {} w' ((w'.onSession fun session =>
      { session with wpending := session.wpending.tail }).returnOutgoing ()).1 :=
    (Relation.ReflTransGen.single (.session rfl rfl rfl)).trans (sends_returnOutgoing _ _)
  have shifted (len : Int) (w' : World) : Sends {} w' (w'.shiftWbuf len) := by
    have moved : Sends {} w' (w'.onSession fun session =>
        { session with
          wbuf := some (moveAt (w'.session.wbuf.getD []) 0 len (w'.session.wbufLen - len))
          wbufLen := w'.session.wbufLen - len }) := .single (.session rfl rfl rfl)
    exact moved.trans (sends_checked _ _)
  unfold popOutgoingMsgQueue
  split
  · exact sends_raise ..
  · split
    · exact sends_raise ..
    · rename_i front others _
      refine sends_lockOutgoing (fun w' => ?_) w
      dsimp only
      refine Relation.ReflTransGen.trans ?_ (popped _)
      split
      · exact shifted ..
      · exact (shifted front.hdrLen w').trans (.single .eraseFile)

/-! ## Receiving -/

theorem gets_onProcess {change : Process → Process}
    (same : w.process.SameCounts (change w.process)) : Gets w (w.onProcess change) :=
  .single (.process same)

theorem gets_onSession {change : TCPSession → TCPSession}
    (outbox : (w.onSession change).outbox = w.outbox)
    (descriptor : (change w.session).rfile.descriptor = w.session.rfile.descriptor) :
    Gets w (w.onSession change) :=
  .single (.session outbox descriptor)

theorem gets_both {session : TCPSession} {process : Process}
    (outbox : outbox { w with session } = w.outbox)
    (descriptor : session.rfile.descriptor = w.session.rfile.descriptor)
    (same : w.process.SameCounts process) : Gets w { w with session, process } := by
  have first : Gets w { w with session } := .single (.session outbox descriptor)
  exact first.trans (.single (.process same))

theorem gets_raise (realm : Int) (format : String) (args : List FmtArg) (w : World) :
    Gets w (w.raise realm format args) :=
  gets_onProcess ⟨fun _ => rfl, rfl⟩

theorem gets_appendMsg (format : String) (args : List FmtArg) (w : World) :
    Gets w (w.onProcess (Process.appendMsg format args)) :=
  gets_onProcess ⟨fun _ => rfl, rfl⟩

theorem gets_returnIncoming (value : α) (w : World) : Gets w (w.returnIncoming value).1 :=
  .single (.session rfl rfl)

theorem gets_clearFile (w : World) : Gets w
    { w with
      session := { w.session with rfile := (w.session.rfile.clear w.process).1 }
      process := (w.session.rfile.clear w.process).2 } :=
  .single .clearFile

theorem gets_resetRbuf (w : World) : Gets w w.resetRbuf := by
  unfold resetRbuf
  split
  · exact gets_raise ..
  · dsimp only
    split
    · exact (gets_clearFile w).trans (.single (.session rfl rfl))
    · exact .single (.session rfl rfl)

/-- The end of a call that has failed. -/
theorem gets_fails (gets : Gets w after) (value : α) :
    Gets w (after.resetRbuf.returnIncoming value).1 :=
  (gets.trans (gets_resetRbuf _)).trans (gets_returnIncoming value _)

theorem gets_shiftRbuf (len offset : Int) (w : World) : Gets w (w.shiftRbuf len offset) := by
  unfold shiftRbuf
  split
  · exact gets_raise ..
  · exact gets_both rfl rfl ⟨fun _ => rfl, rfl⟩

theorem gets_lockIncoming {body : World → Outcome α}
    (keeps : ∀ w' : World, Gets w' (body w').1) (w : World) : Gets w (w.lockIncoming body).1 := by
  have locked : Gets w w.incomingLocked := .single (.session rfl rfl)
  cases held : w.session.mutexes.incoming with
  | true =>
      rw [lockIncoming_of_held held]
      exact locked
  | false =>
      rw [lockIncoming_of_free held]
      exact locked.trans (keeps _)

theorem gets_keepReceived (rbuf : Bytes) (fresh : Option Bytes) (value : Int) (eof : Bool)
    (w : World) : Gets w (w.keepReceived rbuf fresh value eof).1 := by
  have counted : Gets w (w.onSession fun session =>
      { session with rbufLen := w.session.rbufLen + value }) := gets_onSession rfl rfl
  unfold keepReceived
  dsimp only
  split
  · split
    · exact gets_fails (counted.trans (gets_raise _ _ _ _)) _
    · exact (counted.trans (gets_onSession rfl rfl)).trans (gets_returnIncoming _ _)
  · exact counted.trans (gets_returnIncoming _ _)

/-- `Read`. -/
theorem gets_read (reply : SSLConn.NetRead) (fresh : Option Bytes) (w : World) :
    Gets w (w.read reply fresh).1 := by
  unfold read
  split
  · exact gets_raise ..
  · rename_i rbuf _
    refine gets_lockIncoming (fun w' => ?_) w
    have received (conn : SSLConn) (stored : Bytes) (error : ErrorHandler) (inside : Bool) :
        Gets w'
          { w' with
            session := { w'.session with conn, rbuf := some stored }
            process := { w'.process with error }.checked inside } :=
      gets_both rfl rfl ⟨fun _ => rfl, rfl⟩
    dsimp only
    split
    · exact gets_fails ((received _ _ _ _).trans (gets_appendMsg _ _ _)) _
    · exact (received _ _ _ _).trans (gets_keepReceived ..)

theorem gets_takeHeader (rbuf : Bytes) (used : Nat) (chunked : ChunkBuf) (w : World) :
    Gets w (w.takeHeader rbuf used chunked) := by
  have stored (body : Bytes) : Gets w
      { w with
        session := { w.session with rbuf := some (storeAt rbuf 0 body) }
        process := w.process.checked (inside rbuf 0 body.length) } :=
    gets_both rfl rfl ⟨fun _ => rfl, rfl⟩
  have measured (w' : World) (length : Nat) : Gets w'
      { w' with
        session := { w'.session with
          rhdr := (w'.session.rhdr.setBodyLen length w'.process.error).1 }
        process := { w'.process with
          error := (w'.session.rhdr.setBodyLen length w'.process.error).2 } } :=
    gets_both rfl rfl ⟨fun _ => rfl, rfl⟩
  unfold takeHeader
  generalize cstr (chunked.msgBody.getD []) = body
  dsimp only
  refine Relation.ReflTransGen.trans ?_ (gets_onSession rfl rfl)
  split
  · exact ((stored _).trans (gets_shiftRbuf _ _ _)).trans (measured _ _)
  · exact gets_shiftRbuf _ _ w

/-- `InitIncomingMsg`. -/
theorem gets_initIncomingMsg (env : InitEnv) (w : World) : Gets w (w.initIncomingMsg env).1 := by
  unfold initIncomingMsg
  split
  · exact gets_raise ..
  · split
    · exact .refl
    · rename_i rbuf _ _
      refine gets_lockIncoming (fun w' => ?_) w
      have parsed : Gets w'
          { w' with
            session := { w'.session with rhdr := (w'.parseRhdr env rbuf).hdr }
            process := (w'.parseRhdr env rbuf).process } :=
        gets_both rfl rfl (sameCounts_initFromBuf ..)
      split
      · exact gets_raise ..
      · dsimp only
        split
        · split
          · exact gets_fails (parsed.trans (gets_appendMsg _ _ _)) _
          · exact parsed.trans (gets_returnIncoming _ _)
        · exact (parsed.trans (gets_takeHeader ..)).trans (gets_returnIncoming _ _)

/-- `StreamIncomingMsg`. -/
theorem gets_streamIncomingMsg (reply : WriteReply) (w : World) :
    Gets w (w.streamIncomingMsg reply).1 := by
  unfold streamIncomingMsg
  split
  · exact gets_raise ..
  · rename_i rbuf _
    split
    · exact gets_raise ..
    · split
      · exact gets_raise ..
      · refine gets_lockIncoming (fun w' => ?_) w
        have streamed (offset : Int) (data : Bytes) (inside : Bool) : Gets w'
            { w' with
              session := { w'.session with
                rpending := { w'.session.rpending with fileOffset := offset } }
              process := (w'.process.setDescriptor w'.session.rfile.descriptor
                (storeFile data)).checked inside } :=
          gets_both rfl rfl ⟨(sameCounts_setDescriptor (by intro desc; rfl) _ _).cnt, rfl⟩
        dsimp only
        split
        · exact gets_fails (gets_raise _ _ _ _) _
        · generalize min _ (toSize _) = count
          have moved (offset len : Int) (data : Bytes) (inside : Bool) :=
            (streamed offset data inside).trans (gets_shiftRbuf len 0 _)
          split
          · refine ((moved _ _ _ _).trans (gets_onProcess ?_)).trans (gets_returnIncoming _ _)
            exact sameCounts_close _ _
          · exact (moved _ _ _ _).trans (gets_returnIncoming _ _)

/-- `ClearIncomingMsg`. -/
theorem gets_clearIncomingMsg (w : World) : Gets w w.clearIncomingMsg.1 := by
  have ended (w' : World) : Gets w' ((w'.onSession fun session =>
      { session with rhdr := session.rhdr.clear, rpending := {} }).returnIncoming ()).1 := by
    have emptied : Gets w' (w'.onSession fun session =>
        { session with rhdr := session.rhdr.clear, rpending := {} }) := gets_onSession rfl rfl
    exact emptied.trans (gets_returnIncoming _ _)
  unfold clearIncomingMsg
  split
  · exact gets_raise ..
  · refine gets_lockIncoming (fun w' => ?_) w
    dsimp only
    refine Relation.ReflTransGen.trans ?_ (ended _)
    split
    · exact gets_shiftRbuf _ _ w'
    · exact gets_clearFile w'

/-- `set_rfile`. -/
theorem gets_setRfile (path : Option Bytes) (reply : OpenReply) (w : World) :
    Gets w (w.setRfile path reply).1 := by
  unfold setRfile
  split
  · exact gets_raise ..
  · rename_i path
    split
    · exact gets_raise ..
    · split
      · exact gets_raise ..
      · refine gets_lockIncoming (fun w' => ?_) w
        have opened (w'' : World) : Gets w''
            { w'' with
              session := { w''.session with
                rfile := w''.session.rfile.initFromBuf path
                rpending := { w''.session.rpending with
                  fileOffset := 0
                  storage := sessionUseDisc
                  storageInitialized := true } }
              process := (w''.session.rfile.initFromBuf path).openWith File.writeAnew
                File.ownerWritable reply w''.process } :=
          gets_both rfl (descriptor_initFromBuf ..) (sameCounts_openWith ..)
        dsimp only
        refine Relation.ReflTransGen.trans ?_ (gets_returnIncoming _ _)
        split
        · split
          · exact (opened w').trans (gets_appendMsg _ _ _)
          · exact opened w'
        · split
          · exact ((gets_clearFile w').trans (opened _)).trans (gets_appendMsg _ _ _)
          · exact (gets_clearFile w').trans (opened _)

/-- `set_storage`. -/
theorem gets_setStorage (storage : UInt8) (w : World) : Gets w (w.setStorage storage).1 := by
  refine gets_lockIncoming (fun w' => ?_) w
  have stored : Gets w' (w'.onSession fun session =>
      { session with
        rpending := { session.rpending with storage, storageInitialized := true } }) :=
    gets_onSession rfl rfl
  exact stored.trans (gets_returnIncoming _ _)

/-- `set_rtid`. -/
theorem gets_setRtid (rtid : Nat) (w : World) : Gets w (w.setRtid rtid).1 := by
  refine gets_lockIncoming (fun w' => ?_) w
  have named : Gets w' (w'.onSession fun session => { session with rtid }) :=
    gets_onSession rfl rfl
  exact named.trans (gets_returnIncoming _ _)

end World

end IpUtils
