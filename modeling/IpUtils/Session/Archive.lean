import IpUtils.Calls.Basic
import IpUtils.Session.Boxes
import IpUtils.Session.Machine

/-! # The archive of requests

A session keeps the headers of the requests that have been added to it, so that its caller
can tell which of them a response answers. No error and no end of a message takes one away.
-/

namespace IpUtils

/-- What can happen to the archive. -/
inductive ArchiveEvent where
  | add (whdr : MsgHdr)
  | delete (msgId : UInt16)

namespace ArchiveEvent

variable {whdr : MsgHdr} {whdrs : List MsgHdr} {events : List ArchiveEvent}

/-- The archive behind an event. -/
def apply (whdrs : List MsgHdr) : ArchiveEvent → List MsgHdr
  | add whdr => whdrs ++ [whdr]
  | delete msgId => whdrs.eraseP fun hdr => hdr.msgId == msgId

theorem mem_apply (member : whdr ∈ whdrs) {event : ArchiveEvent}
    (other : event ≠ .delete whdr.msgId) : whdr ∈ apply whdrs event := by
  cases event with
  | add added => exact List.mem_append_left _ member
  | delete msgId =>
      have kept : ¬ (whdr.msgId == msgId) = true := by
        intro same
        exact other (congrArg ArchiveEvent.delete (eq_of_beq same).symm)
      exact (@List.mem_eraseP_of_neg _ (fun hdr : MsgHdr => hdr.msgId == msgId) _ _ kept).mpr member

/-- A header stays until one with its id is deleted. -/
theorem mem_foldl (member : whdr ∈ whdrs) (kept : ArchiveEvent.delete whdr.msgId ∉ events) :
    whdr ∈ events.foldl apply whdrs := by
  induction events generalizing whdrs with
  | nil => exact member
  | cons event events ih =>
      rw [List.mem_cons, not_or] at kept
      exact ih (mem_apply member (Ne.symm kept.1)) kept.2

/-- A header that is there has been there or has been added. -/
theorem of_mem_foldl (member : whdr ∈ events.foldl apply whdrs) :
    whdr ∈ whdrs ∨ .add whdr ∈ events := by
  induction events generalizing whdrs with
  | nil => exact Or.inl member
  | cons event events ih =>
      rcases ih member with there | later
      · cases event with
        | add added =>
            rcases List.mem_append.mp there with before | now
            · exact Or.inl before
            · rw [List.mem_singleton.mp now]
              exact Or.inr List.mem_cons_self
        | delete msgId => exact Or.inl (List.mem_of_mem_eraseP there)
      · exact Or.inr (List.mem_cons_of_mem _ later)

end ArchiveEvent

namespace World

variable {w w' : World} {whdr : MsgHdr}

/-- What a call does to the archive. -/
def archived : Call → World → List ArchiveEvent
  | .addMsgBuf framingHdr hdrLen msgBody bodyLen whdr fresh, w =>
      if (w.addMsgBuf framingHdr hdrLen msgBody bodyLen whdr fresh).2 = some true ∧
          whdr.isMsgRequest = true then [.add whdr]
      else []
  | .addMsgFile framingHdr hdrLen msgBody bodyLen whdr fresh, w =>
      if (w.addMsgFile framingHdr hdrLen msgBody bodyLen whdr fresh).2 = some true ∧
          whdr.isMsgRequest = true then [.add whdr]
      else []
  | .deleteWhdr msgId, w => if w.session.mutexes.outgoing then [] else [.delete msgId]
  | _, _ => []

/-- A message is added: exactly the requests that are accepted are archived. -/
def Archives (whdr : MsgHdr) (w : World) (outcome : Outcome Bool) : Prop :=
  outcome.1.session.whdrs =
    (if outcome.2 = some true ∧ whdr.isMsgRequest = true then [ArchiveEvent.add whdr] else []).foldl
      ArchiveEvent.apply w.session.whdrs

theorem Archives.of_false {outcome : Outcome Bool} (refused : outcome.2 ≠ some true)
    (same : outcome.1.session.whdrs = w.session.whdrs) : Archives whdr w outcome := by
  unfold Archives
  rw [if_neg fun both => refused both.1]
  exact same

theorem archives_enqueue {caller : String} {needed : Int} {info : MsgInfo}
    {fresh : Option Bytes} {install : World → World}
    (installs : ∀ w' : World, (install w').session.whdrs = w'.session.whdrs) (w : World) :
    Archives whdr w (w.enqueue caller needed info whdr fresh install) := by
  have entered (w' : World) (same : w'.session.whdrs = w.session.whdrs) :
      Archives whdr w (((install (w'.onSession fun session =>
          { session with wpending := session.wpending ++ [info] })).onSession fun session =>
        if whdr.isMsgRequest then { session with whdrs := session.whdrs ++ [whdr] }
        else session).returnOutgoing true) := by
    have before := (installs (w'.onSession fun session =>
      { session with wpending := session.wpending ++ [info] })).trans same
    unfold Archives
    cases request : whdr.isMsgRequest with
    | true =>
        rw [if_pos ⟨rfl, rfl⟩]
        exact congrArg (· ++ [whdr]) before
    | false =>
        rw [if_neg (by simp)]
        exact before
  unfold enqueue
  dsimp only
  split
  · split
    · exact .of_false (by simp [returnOutgoing]) rfl
    · exact entered _ rfl
  · exact entered _ rfl

theorem archives_lockOutgoing {body : World → Outcome Bool}
    (archives : ∀ w' : World, Archives whdr w' (body w')) (w : World) :
    Archives whdr w (w.lockOutgoing body) := by
  cases held : w.session.mutexes.outgoing with
  | true =>
      rw [lockOutgoing_of_held held]
      exact .of_false (by simp) rfl
  | false =>
      rw [lockOutgoing_of_free held]
      exact archives w.outgoingLocked

theorem archives_addMsgBuf (framingHdr : Option Bytes) (hdrLen : Int) (msgBody : Bytes)
    (bodyLen : Int) (whdr : MsgHdr) (fresh : Option Bytes) (w : World) :
    Archives whdr w (w.addMsgBuf framingHdr hdrLen msgBody bodyLen whdr fresh) := by
  have installs (w' : World) :
      ((w'.appendWbuf (framingHdr.getD []) hdrLen).appendWbuf msgBody bodyLen).session.whdrs =
        w'.session.whdrs := rfl
  unfold addMsgBuf
  split
  · exact .of_false (by simp) rfl
  · split
    · exact .of_false (by simp) rfl
    · exact archives_lockOutgoing (fun w' => archives_enqueue installs w') w

theorem archives_addMsgFile (framingHdr : Option Bytes) (hdrLen : Int) (msgBody : File)
    (bodyLen : Int) (whdr : MsgHdr) (fresh : Option Bytes) (w : World) :
    Archives whdr w (w.addMsgFile framingHdr hdrLen msgBody bodyLen whdr fresh) := by
  have installs (w' : World) :
      (w'.appendWbuf (framingHdr.getD []) hdrLen).session.whdrs = w'.session.whdrs := rfl
  unfold addMsgFile
  split
  · exact .of_false (by simp) rfl
  · split
    · exact .of_false (by simp) rfl
    · refine archives_lockOutgoing (fun w' => archives_enqueue (fun w'' => ?_) w') w
      dsimp only
      exact installs w''

theorem whdrs_init (rbuf : Bool) (wbuf : Option Bytes) (w : World) :
    (w.init rbuf wbuf).1.session.whdrs = w.session.whdrs := by
  unfold World.init
  split
  · rfl
  · split
    · rfl
    · split
      · rfl
      · dsimp only
        split <;> rfl

theorem whdrs_setConnected (connected : Bool) (w : World) :
    (w.setConnected connected).1.session.whdrs = w.session.whdrs := by
  unfold World.setConnected lockIncoming
  dsimp only
  split
  · rfl
  · unfold lockOutgoing
    dsimp only
    split <;> rfl

/-- A call. -/
theorem whdrs_step (call : Call) (w : World) : (World.step call w).1.session.whdrs =
    (archived call w).foldl ArchiveEvent.apply w.session.whdrs := by
  cases call with
  | init rbuf wbuf => exact whdrs_init rbuf wbuf w
  | read reply fresh => exact congrArg Outbox.whdrs (gets_read reply fresh w).outbox
  | initIncomingMsg env => exact congrArg Outbox.whdrs (gets_initIncomingMsg env w).outbox
  | streamIncomingMsg reply => exact congrArg Outbox.whdrs (gets_streamIncomingMsg reply w).outbox
  | clearIncomingMsg => exact congrArg Outbox.whdrs (gets_clearIncomingMsg w).outbox
  | setRfile path reply => exact congrArg Outbox.whdrs (gets_setRfile path reply w).outbox
  | setStorage storage => exact congrArg Outbox.whdrs (gets_setStorage storage w).outbox
  | setRtid rtid => exact congrArg Outbox.whdrs (gets_setRtid rtid w).outbox
  | setConnected connected => exact whdrs_setConnected connected w
  | deleteWhdr msgId =>
      change (w.deleteWhdr msgId).1.session.whdrs =
        (if w.session.mutexes.outgoing then [] else [ArchiveEvent.delete msgId]).foldl
          ArchiveEvent.apply w.session.whdrs
      unfold deleteWhdr
      cases held : w.session.mutexes.outgoing with
      | true =>
          rw [lockOutgoing_of_held held]
          rfl
      | false =>
          rw [lockOutgoing_of_free held]
          rfl
  | addMsgBuf framingHdr hdrLen msgBody bodyLen whdr fresh =>
      exact archives_addMsgBuf framingHdr hdrLen msgBody bodyLen whdr fresh w
  | addMsgFile framingHdr hdrLen msgBody bodyLen whdr fresh =>
      exact archives_addMsgFile framingHdr hdrLen msgBody bodyLen whdr fresh w
  | write replies => exact (sends_write replies w).whdrs rfl
  | popOutgoingMsgQueue => exact (sends_popOutgoingMsgQueue w).whdrs rfl
  | clearError => rfl

theorem whdrs_run (calls : List Call) (w : World) :
    (Machine.run World.step calls w).1.session.whdrs =
      (Machine.trace World.step archived calls w).foldl ArchiveEvent.apply w.session.whdrs := by
  have preserved (call : Call) (w' : World) (achieved : List ArchiveEvent)
      (same : w'.session.whdrs = achieved.foldl ArchiveEvent.apply w.session.whdrs) (_ : True) :
      (World.step call w').1.session.whdrs =
        (achieved ++ archived call w').foldl ArchiveEvent.apply w.session.whdrs := by
    rw [whdrs_step, same, List.foldl_append]
  exact @Machine.run_preserves_trace _ _ World.step (fun _ _ => True) _ archived
    (fun w' achieved => w'.session.whdrs = achieved.foldl ArchiveEvent.apply w.session.whdrs)
    preserved calls w [] rfl (Machine.Along.of_forall (fun _ _ => trivial) calls w)

/-- **The archive.** After any calls the archive holds what its events have made of it. A
request that has been accepted is in it until a header with its id is deleted, and nothing
else is in it. -/
theorem run_archives (calls : List Call) (w : World) :
    let events := Machine.trace World.step archived calls w
    let whdrs := (Machine.run World.step calls w).1.session.whdrs
    whdrs = events.foldl ArchiveEvent.apply w.session.whdrs ∧
    (∀ front whdr behind, events = front ++ .add whdr :: behind →
      .delete whdr.msgId ∉ behind → whdr ∈ whdrs) ∧
    (∀ whdr ∈ whdrs, whdr ∈ w.session.whdrs ∨ .add whdr ∈ events) := by
  have folded := whdrs_run calls w
  refine ⟨folded, ?_, ?_⟩
  · intro front whdr behind split kept
    rw [folded, split, List.foldl_append, List.foldl_cons]
    exact ArchiveEvent.mem_foldl (List.mem_append_right _ List.mem_cons_self) kept
  · intro whdr member
    rw [folded] at member
    exact ArchiveEvent.of_mem_foldl member

end World

end IpUtils
