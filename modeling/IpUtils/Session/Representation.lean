import IpUtils.Session.Queue

/-! # The outgoing queue over whole runs

In every run the buffers of a session hold the messages that have been added and have
neither been removed nor lost to an error, in the order in which they were added.
-/

namespace IpUtils

open CLib

/-- The calls that concern outgoing messages, made with the true sizes. -/
inductive Sending : Call → Prop
  | addMsgBuf (framingHdr : Option Bytes) (body : Bytes) (whdr : MsgHdr) (fresh : Option Bytes) :
      Sending (.addMsgBuf framingHdr (framingHdr.getD []).length body body.length whdr fresh)
  | addMsgFile (framingHdr : Option Bytes) (file : File) {length : Int} (nonneg : 0 ≤ length)
      (whdr : MsgHdr) (fresh : Option Bytes) :
      Sending (.addMsgFile framingHdr (framingHdr.getD []).length file length whdr fresh)
  | write (replies : WriteReplies) : Sending (.write replies)
  | popOutgoingMsgQueue : Sending .popOutgoingMsgQueue

namespace World

/-- The message that a call adds to the queue. -/
def added : Call → World → List OutMsg
  | .addMsgBuf framingHdr hdrLen body bodyLen whdr fresh, w =>
      if (w.addMsgBuf framingHdr hdrLen body bodyLen whdr fresh).2 = some true then
        [{ hdr := framingHdr.getD [], body := .memory body }]
      else []
  | .addMsgFile framingHdr hdrLen file bodyLen whdr fresh, w =>
      if (w.addMsgFile framingHdr hdrLen file bodyLen whdr fresh).2 = some true then
        [{ hdr := framingHdr.getD [], body := .disc file bodyLen }]
      else []
  | _, _ => []

/-- A session behind `Init`. -/
def opened (framingType : UInt8) (conn : SSLConn) (process : Process) (fresh : Bytes) : World :=
  ((TCPSession.create framingType conn process).init true (some fresh)).1

theorem queued_opened (framingType : UInt8) (conn : SSLConn) (process : Process) (fresh : Bytes) :
    Queued (opened framingType conn process fresh).session [] := by
  have length : ((readMemory ([] ++ fresh) kDefaultBufSize).length : Int) = kDefaultBufSize := by
    rw [length_readMemory]
  exact ⟨⟨⟨_, rfl, length, List.nil_prefix⟩, rfl⟩, .nil, rfl, by simp [opened,
    TCPSession.create, init, callocate, reallocate, onSession]⟩

/-- The queue is what is left of the messages that have been added. -/
def HoldsRest (w : World) (messages : List OutMsg) : Prop :=
  ∃ gone ≤ messages.length, Queued w.session (messages.drop gone)

variable {w : World} {messages : List OutMsg}

theorem HoldsRest.of_adds {msg : OutMsg} {outcome : Outcome Bool} {gone : Nat}
    (within : gone ≤ messages.length) (queued : Queued w.session (messages.drop gone))
    (adds : Adds w (messages.drop gone) msg outcome) :
    HoldsRest outcome.1 (messages ++ if outcome.2 = some true then [msg] else []) := by
  cases adds with
  | added queued' _ _ _ _ _ =>
      refine ⟨gone, by simp; omega, ?_⟩
      rw [if_pos rfl, List.drop_append_of_le_length within]
      exact queued'
  | refused same _ =>
      rw [if_neg (by simp), List.append_nil]
      exact ⟨gone, within, same.queued queued⟩
  | hung same _ _ _ =>
      rw [if_neg (by simp), List.append_nil]
      exact ⟨gone, within, same.queued queued⟩

/-- One call. -/
theorem HoldsRest.step {call : Call} (holds : HoldsRest w messages) (sending : Sending call) :
    HoldsRest (World.step call w).1 (messages ++ added call w) := by
  obtain ⟨gone, within, queued⟩ := holds
  cases sending with
  | addMsgBuf framingHdr body whdr fresh =>
      exact .of_adds within queued (adds_addMsgBuf queued framingHdr body whdr fresh)
  | addMsgFile framingHdr file nonneg whdr fresh =>
      exact .of_adds within queued (adds_addMsgFile queued framingHdr file _ whdr fresh)
  | write replies =>
      change HoldsRest _ (messages ++ [])
      rw [List.append_nil]
      rcases keepsQueue_write replies w _ queued with same | none_
      · exact ⟨gone, within, same⟩
      · exact ⟨messages.length, le_refl _, by rw [List.drop_length]; exact none_⟩
  | popOutgoingMsgQueue =>
      change HoldsRest _ (messages ++ [])
      rw [List.append_nil]
      cases rest : messages.drop gone with
      | nil =>
          rw [rest] at queued
          exact ⟨gone, within, rest ▸ (popOutgoingMsgQueue_nil queued).1.queued queued⟩
      | cons msg others =>
          have fewer : gone < messages.length := by
            have length := congrArg List.length rest
            rw [List.length_drop, List.length_cons] at length
            omega
          rw [rest] at queued
          rcases (queued_popOutgoingMsgQueue queued).1 with ⟨-, popped, -⟩ | ⟨-, same, -⟩
          · refine ⟨gone + 1, fewer, ?_⟩
            rw [← List.drop_drop, rest]
            exact popped
          · exact ⟨gone, within, rest ▸ same.queued queued⟩

/-- In every state that a run reaches, `wbuf_` holds in order the headers of the queued
messages, with the bodies of those in memory, `wfiles_` the files of the others, and
nothing behind the front has been begun. -/
theorem run_represents (framingType : UInt8) (conn : SSLConn) (process : Process) (fresh : Bytes)
    {calls : List Call}
    (sending : Machine.Along World.step (fun call _ => Sending call) calls
      (opened framingType conn process fresh)) :
    let start := opened framingType conn process fresh
    let session := (Machine.run World.step calls start).1.session
    ∃ gone, let queue := (Machine.trace World.step added calls start).drop gone
      session.wbufLen ≤ session.wbufSize ∧
        (session.wbuf.getD []).take session.wbufLen.toNat = queue.flatMap OutMsg.buffered ∧
        List.Forall₂ OutMsg.Describes session.wpending queue ∧
        session.wfiles = queue.filterMap OutMsg.file? ∧
        ∀ info ∈ session.wpending.tail, info.Untouched := by
  intro start session
  have begins : HoldsRest start [] := ⟨0, le_refl _, queued_opened _ _ _ _⟩
  have preserved (call : Call) (w : World) (messages : List OutMsg) (holds : HoldsRest w messages)
      (sends : Sending call) : HoldsRest (World.step call w).1 (messages ++ added call w) :=
    holds.step sends
  obtain ⟨gone, -, queued⟩ := Machine.run_preserves_trace preserved begins sending
  rw [List.nil_append] at queued
  exact ⟨gone, queued.len_le_size, queued.take_wbuf, queued.entries, queued.files, queued.untouched⟩

/-- A message is added, sent in two pieces and removed. -/
theorem run_represents_one :
    let start := opened MsgHdr.typeHttp { connected := true, blocking := false } {} []
    let calls : List Call :=
      [.addMsgBuf (some (ascii "A")) (1 : Nat) (ascii "bc") (2 : Nat) { type := MsgHdr.typeHttp } none,
        .write { front := { tcp := [.accepted 1, .failed true []] } },
        .write { front := { tcp := [.accepted 2] } }, .popOutgoingMsgQueue]
    let session := (Machine.run World.step calls start).1.session
    ∃ gone, let queue := (Machine.trace World.step added calls start).drop gone
      session.wbufLen ≤ session.wbufSize ∧
        (session.wbuf.getD []).take session.wbufLen.toNat = queue.flatMap OutMsg.buffered ∧
        List.Forall₂ OutMsg.Describes session.wpending queue ∧
        session.wfiles = queue.filterMap OutMsg.file? ∧
        ∀ info ∈ session.wpending.tail, info.Untouched :=
  run_represents MsgHdr.typeHttp { connected := true, blocking := false } {} []
    ⟨.addMsgBuf (some (ascii "A")) (ascii "bc") _ _, fun _ =>
      ⟨.write _, fun _ => ⟨.write _, fun _ => ⟨.popOutgoingMsgQueue, fun _ => trivial⟩⟩⟩⟩

end World

end IpUtils
