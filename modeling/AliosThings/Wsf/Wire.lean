import AliosThings.Wsf.Msg

/-!
# WSF messages on the wire

Before a message goes out, `__send_msg` and `__process_msg_request` read its
`msg_length` in host order and call `wsf_msg_header_encode`, which swaps the length and
the id into network order in place, the same swap `wsf_msg_header_decode` makes on the
receiving side; then `msg_length` bytes are sent. A message built by
`wsf_msg_request_create` or `wsf_msg_response_create` whose size fits its `uint32_t`
field is then a frame in the sense of `Framing`: the magic, and a big-endian length that
counts the whole frame. So a buffer of such messages, each whole, followed by a pending
tail, is handed by `process_received_buf` to `__process_msg_request` and
`process_msg_response` one message at a time and in order, each with exactly the bytes
its create function built, so the id `wsf_request_queue_trigger` reads is the id the
message was built with.
-/

namespace Wsf

/-- `wsf_msg_header_encode(buf, length)`: a length below a header changes nothing, else
the length and the id are swapped in place. The `int` length is compared with a
`size_t`, so the `uint32_t` the callers pass is compared as it is. -/
def wsfMsgHeaderEncode (buf : List UInt8) (length : Nat) : List UInt8 :=
  if length < wsfMsgHeaderSize then buf else htonlAt (htonlAt buf 4) 9

theorem wsfMsgHeaderEncode_eq {buf : List UInt8} {length : Nat} (h : wsfMsgHeaderSize ≤ length) :
    wsfMsgHeaderEncode buf length = wsfMsgHeaderDecode buf := by
  rw [wsfMsgHeaderEncode, if_neg (by omega)]
  rfl

/-- The swap of the length and the id undoes itself. -/
theorem wsfMsgHeaderDecode_decode {buf : List UInt8} (h : wsfMsgHeaderSize ≤ buf.length) :
    wsfMsgHeaderDecode (wsfMsgHeaderDecode buf) = buf := by
  obtain ⟨m0, m1, m2, m3, l0, l1, l2, l3, t, i0, i1, i2, i3, rest, rfl⟩ := exists_header h
  rfl

/-! ### The header the create functions fill -/

section MsgHeader

variable (msgSize type version msgId : Nat) (rest : List UInt8)

theorem take_msgHeader : (msgHeader msgSize type version msgId ++ rest).take 4 = magicCode := rfl

/-- `get_msg_type` reads back the type, whatever the version in the upper four bits. -/
theorem getMsgType_msgHeader : getMsgType (msgHeader msgSize type version msgId ++ rest) = type % 16 := by
  have hlt : type % 16 + version % 16 * 16 < 2 ^ 8 := by omega
  simp only [getMsgType, msgHeader, magicCode, le32, List.cons_append, List.nil_append, List.getD_cons_succ,
    List.getD_cons_zero, UInt8.toNat_ofNat_of_lt' hlt]
  omega

/-- The id field holds the id in host order, as a `uint32_t`. -/
theorem memcpy32_msgHeader_id : memcpy32 (msgHeader msgSize type version msgId ++ rest) 9 = msgId % 2 ^ 32 := by
  simp only [msgHeader, le32, magicCode, memcpy32, List.cons_append, List.nil_append, List.getD_cons_succ,
    List.getD_cons_zero, UInt8.toNat_ofNat']
  omega

end MsgHeader

/-! ### The messages the device builds -/

/-- A message built by `wsf_msg_request_create` or `wsf_msg_response_create`. -/
inductive OutMsg where
  | request (serviceName : List UInt8) (sessionId deviceId : Option (List UInt8)) (params : List (List UInt8))
      (version msgId : Nat)
  | response (msgId result : Nat) (data : List UInt8) (sessionId deviceId : Option (List UInt8)) (version : Nat)
  deriving DecidableEq, Repr

namespace OutMsg

/-- The bytes the create function writes. -/
def create : OutMsg → List UInt8
  | .request serviceName sessionId deviceId params version msgId =>
    wsfMsgRequestCreate serviceName sessionId deviceId params version msgId
  | .response msgId result data sessionId deviceId version =>
    wsfMsgResponseCreate msgId result data sessionId deviceId version

/-- The size the create function counts. -/
def size : OutMsg → Nat
  | .request serviceName sessionId deviceId params _ _ => wsfMsgRequestSize serviceName sessionId deviceId params
  | .response _ _ data sessionId deviceId _ => wsfMsgResponseSize sessionId deviceId data.length

/-- The type the create function sets. -/
def msgType : OutMsg → Nat
  | .request .. => msgRequest
  | .response .. => msgResponse

def version : OutMsg → Nat
  | .request _ _ _ _ version _ => version
  | .response _ _ _ _ _ version => version

def msgId : OutMsg → Nat
  | .request _ _ _ _ _ msgId => msgId
  | .response msgId _ _ _ _ _ => msgId

/-- The handler of `msg_handlers[]` the message is meant for. -/
def handler : OutMsg → MsgHandler
  | .request .. => .processMsgRequest
  | .response .. => .processMsgResponse

/-- What is sent: `msg_length` read from the header in host order, the header encoded
with it, and `msg_length` bytes. -/
def wire (m : OutMsg) : List UInt8 :=
  (wsfMsgHeaderEncode m.create (memcpy32 m.create 4)).take (memcpy32 m.create 4)

theorem create_eq (m : OutMsg) :
    ∃ rest, m.create = msgHeader m.size m.msgType m.version m.msgId ++ rest := by
  cases m with
  | request serviceName sessionId deviceId params version msgId =>
    exact ⟨_, by simp only [create, wsfMsgRequestCreate, List.append_assoc]; rfl⟩
  | response msgId result data sessionId deviceId version =>
    exact ⟨_, by simp only [create, wsfMsgResponseCreate, List.append_assoc]; rfl⟩

theorem length_create (m : OutMsg) : m.create.length = m.size := by
  cases m with
  | request serviceName sessionId deviceId params version msgId =>
    exact length_wsfMsgRequestCreate serviceName sessionId deviceId params version msgId
  | response msgId result data sessionId deviceId version =>
    exact length_wsfMsgResponseCreate msgId result data sessionId deviceId version

theorem headerSize_le_size (m : OutMsg) : wsfMsgHeaderSize ≤ m.size := by
  cases m <;> simp only [size, wsfMsgRequestSize, wsfMsgResponseSize] <;> omega

theorem headerSize_le_length (m : OutMsg) : wsfMsgHeaderSize ≤ m.create.length := by
  rw [m.length_create]
  exact m.headerSize_le_size

theorem msgHandler_create (m : OutMsg) : msgHandler (getMsgType m.create) = some m.handler := by
  obtain ⟨rest, hm⟩ := m.create_eq
  rw [hm, getMsgType_msgHeader]
  cases m <;> rfl

/-- The id the receiver reads from the header in host order. -/
theorem memcpy32_create_id (m : OutMsg) : memcpy32 m.create 9 = m.msgId % 2 ^ 32 := by
  obtain ⟨rest, hm⟩ := m.create_eq
  rw [hm, memcpy32_msgHeader_id]

/-- With a size below `2 ^ 32`, `msg_length` is the size, and the whole message goes out
with its header encoded. -/
theorem wire_eq {m : OutMsg} (hfit : m.size < 2 ^ 32) : m.wire = wsfMsgHeaderDecode m.create := by
  obtain ⟨rest, hm⟩ := m.create_eq
  have hlen : memcpy32 m.create 4 = m.size := by
    rw [hm, memcpy32_msgHeader, Nat.mod_eq_of_lt hfit]
  rw [wire, hlen, wsfMsgHeaderEncode_eq m.headerSize_le_size, List.take_of_length_le]
  rw [length_wsfMsgHeaderDecode m.headerSize_le_length, m.length_create]

end OutMsg

/-- A message whose size fits the `uint32_t` of its header. -/
structure WireMsg where
  msg : OutMsg
  fits : msg.size < 2 ^ 32

namespace WireMsg

/-- What is sent is a frame: the magic, and a big-endian length that counts it. -/
def frame (w : WireMsg) : WsfFrame where
  bytes := w.msg.wire
  magic := by
    obtain ⟨rest, hm⟩ := w.msg.create_eq
    rw [OutMsg.wire_eq w.fits, take_wsfMsgHeaderDecode w.msg.headerSize_le_length, hm, take_msgHeader]
  length_eq := by
    obtain ⟨rest, hm⟩ := w.msg.create_eq
    have hsize := w.msg.headerSize_le_length
    rw [OutMsg.wire_eq w.fits, getUnalignedBe32_wsfMsgHeaderDecode hsize, length_wsfMsgHeaderDecode hsize,
      w.msg.length_create, hm, memcpy32_msgHeader, Nat.mod_eq_of_lt w.fits]
  header_le := by
    rw [OutMsg.wire_eq w.fits, length_wsfMsgHeaderDecode w.msg.headerSize_le_length, w.msg.length_create]
    exact w.msg.headerSize_le_size

/-- The frame goes to the message's handler, with the bytes the create function built
and their number. -/
theorem frameDispatch_frame (w : WireMsg) :
    frameDispatch w.frame = [⟨w.msg.handler, w.msg.create, w.msg.size⟩] := by
  have hsize := w.msg.headerSize_le_length
  have hbytes : w.frame.bytes = wsfMsgHeaderDecode w.msg.create := OutMsg.wire_eq w.fits
  rw [frameDispatch, hbytes, getMsgType_wsfMsgHeaderDecode hsize, w.msg.msgHandler_create,
    wsfMsgHeaderDecode_decode hsize, length_wsfMsgHeaderDecode hsize, w.msg.length_create]
  rfl

theorem keepsConnection_frame (w : WireMsg) (ssl : Bool) :
    keepsConnection ssl (msgHandler (getMsgType w.frame.bytes)) = true := by
  have hsize := w.msg.headerSize_le_length
  have hbytes : w.frame.bytes = wsfMsgHeaderDecode w.msg.create := OutMsg.wire_eq w.fits
  rw [hbytes, getMsgType_wsfMsgHeaderDecode hsize, w.msg.msgHandler_create]
  cases w.msg <;> rfl

end WireMsg

/-- Requests and responses sent one after another and received in one buffer, whole and
followed by a pending tail: `process_received_buf` hands each to `__process_msg_request`
or `process_msg_response`, in order, with exactly the bytes its create function built and
their number, and keeps the tail; the id the handler reads from each is the id it was
built with. -/
theorem processReceivedBuf_wire (ms : List WireMsg) {t : List UInt8} (ht : Pending t) (len : Nat) (ssl : Bool) :
    processReceivedBuf (ms.length + 1) ⟨ms.flatMap (fun w => w.msg.wire) ++ t, len, ssl⟩ =
      some (⟨t, len, ssl⟩, ms.map fun w => ⟨w.msg.handler, w.msg.create, w.msg.size⟩) ∧
    ∀ w ∈ ms, memcpy32 w.msg.create 9 = w.msg.msgId % 2 ^ 32 := by
  refine ⟨?_, fun w _ => w.msg.memcpy32_create_id⟩
  have h := processReceivedBuf_frames (ms.map WireMsg.frame) ht len ssl (fun f hf => by
    obtain ⟨w, -, rfl⟩ := List.mem_map.mp hf
    exact w.keepsConnection_frame ssl)
  -- the frames are the messages sent, and each is dispatched as built
  have hbytes : framesBytes (ms.map WireMsg.frame) = ms.flatMap fun w => w.msg.wire := by
    simp only [framesBytes, List.flatMap_map]
    rfl
  have hdispatch : (ms.map WireMsg.frame).flatMap frameDispatch =
      ms.map fun w => ⟨w.msg.handler, w.msg.create, w.msg.size⟩ := by
    rw [List.flatMap_map, List.map_eq_flatMap]
    simp only [WireMsg.frameDispatch_frame]
  rwa [List.length_map, hbytes, hdispatch] at h

/-- A request to the service `"s"` with one parameter, and the response with id `7`. -/
def requestAndResponse : List WireMsg :=
  [⟨.request [115] (some [1]) none [[2, 3]] 1 7, by decide⟩, ⟨.response 7 0 [9] none none 1, by decide⟩]

theorem processReceivedBuf_wire_requestAndResponse :
    Pending [] ∧
      processReceivedBuf (requestAndResponse.length + 1)
          ⟨requestAndResponse.flatMap (fun w => w.msg.wire) ++ [], 64, true⟩ =
        some (⟨[], 64, true⟩, requestAndResponse.map fun w => ⟨w.msg.handler, w.msg.create, w.msg.size⟩) ∧
      ∀ w ∈ requestAndResponse, memcpy32 w.msg.create 9 = w.msg.msgId % 2 ^ 32 :=
  have ht : Pending [] := Or.inl (by decide)
  ⟨ht, processReceivedBuf_wire requestAndResponse ht 64 true⟩

end Wsf
