import IpUtils.Calls.Basic
import IpUtils.Session.Incoming
import IpUtils.Session.Outgoing

/-! # A session and its caller

The calls that an application makes on a session, with the answers that the kernel, the
allocator and the TLS library give to each.
-/

namespace IpUtils

/-- A call of a member of `TCPSession`, or of `error.clear()`. -/
inductive Call where
  | init (rbuf : Bool) (wbuf : Option Bytes)
  | read (reply : SSLConn.NetRead) (fresh : Option Bytes)
  | initIncomingMsg (env : InitEnv)
  | streamIncomingMsg (reply : WriteReply)
  | clearIncomingMsg
  | setRfile (path : Option Bytes) (reply : OpenReply)
  | setStorage (storage : UInt8)
  | setRtid (rtid : Nat)
  | setConnected (connected : Bool)
  | deleteWhdr (msgId : UInt16)
  | addMsgBuf (framingHdr : Option Bytes) (hdrLen : Int) (msgBody : Bytes) (bodyLen : Int)
      (whdr : MsgHdr) (fresh : Option Bytes)
  | addMsgFile (framingHdr : Option Bytes) (hdrLen : Int) (msgBody : File) (bodyLen : Int)
      (whdr : MsgHdr) (fresh : Option Bytes)
  | write (replies : WriteReplies)
  | popOutgoingMsgQueue
  | clearError

namespace World

/-- The state after a call, and whether it has returned. -/
def settle {α : Type} (outcome : Outcome α) : World × Bool :=
  (outcome.1, outcome.2.isSome)

/-- Make a call. -/
def step : Machine Call World
  | .init rbuf wbuf, w => settle (w.init rbuf wbuf)
  | .read reply fresh, w => settle (w.read reply fresh)
  | .initIncomingMsg env, w => settle (w.initIncomingMsg env)
  | .streamIncomingMsg reply, w => settle (w.streamIncomingMsg reply)
  | .clearIncomingMsg, w => settle w.clearIncomingMsg
  | .setRfile path reply, w => settle (w.setRfile path reply)
  | .setStorage storage, w => settle (w.setStorage storage)
  | .setRtid rtid, w => settle (w.setRtid rtid)
  | .setConnected connected, w => settle (w.setConnected connected)
  | .deleteWhdr msgId, w => settle (w.deleteWhdr msgId)
  | .addMsgBuf framingHdr hdrLen msgBody bodyLen whdr fresh, w =>
      settle (w.addMsgBuf framingHdr hdrLen msgBody bodyLen whdr fresh)
  | .addMsgFile framingHdr hdrLen msgBody bodyLen whdr fresh, w =>
      settle (w.addMsgFile framingHdr hdrLen msgBody bodyLen whdr fresh)
  | .write replies, w => settle (w.write replies)
  | .popOutgoingMsgQueue, w => settle w.popOutgoingMsgQueue
  | .clearError, w => (w.onProcess fun process => { process with error := process.error.clear }, true)

end World

end IpUtils
