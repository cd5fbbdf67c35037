import Mathlib

/-!
# WSF receive framing

`__cb_wsf_recv` appends what the socket gives to `recv_buf` and calls
`process_received_buf`, which takes whole frames off the front of the buffer. A frame
starts with the magic `"WSF1"` and a big-endian `msg_length` that counts the whole
frame. `wsf_msg_header_decode` turns the header's length and id into host order in
place, the frame's handler is called with the length, and
`wsf_recvbuff_clear_first_msg` moves the rest of the buffer to its start and jumps back
to `reprocess` when bytes are left.

The buffer is modelled by the bytes it holds, `recv_buf[0, recv_buf_pos)`. The host is
little-endian: `memcpy` of four bytes into an integer reads them least significant
first, and `htonl` reverses them. The loop runs on explicit fuel, and `none` is a loop
that has not ended.

A buffer of whole frames and a pending tail is dispatched frame by frame and the tail
kept (`processReceivedBuf_frames`). A frame whose `msg_length` is `0` is taken again and
again without end (`processReceivedBuf_zero_length`), and a frame longer than the buffer
fills it and then blocks every later read (`cbWsfRecv_long_frame`, `cbWsfRecv_full`).
-/

namespace Wsf

/-! ### Headers -/

/-- `sizeof(wsf_msg_header_t)`: magic, length, type and version, id. -/
def wsfMsgHeaderSize : Nat := 13

/-- `MAGIC_CODE`, the bytes of `"WSF1"`. -/
def magicCode : List UInt8 := [0x57, 0x53, 0x46, 0x31]

/-- `MSG_TYPE_END`. -/
def msgTypeEnd : Nat := 7

/-- `INVOKE_RIGHT`, the result code of a successful registration. -/
def invokeRight : UInt8 := 0

/-- `os_get_unaligned_be32` at `off`. -/
def getUnalignedBe32 (buf : List UInt8) (off : Nat) : Nat :=
  (buf.getD off 0).toNat * 2 ^ 24 + (buf.getD (off + 1) 0).toNat * 2 ^ 16 +
    (buf.getD (off + 2) 0).toNat * 2 ^ 8 + (buf.getD (off + 3) 0).toNat

/-- `memcpy` of the four bytes at `off` into an integer. -/
def memcpy32 (buf : List UInt8) (off : Nat) : Nat :=
  (buf.getD off 0).toNat + (buf.getD (off + 1) 0).toNat * 2 ^ 8 +
    (buf.getD (off + 2) 0).toNat * 2 ^ 16 + (buf.getD (off + 3) 0).toNat * 2 ^ 24

/-- `htonl` of the four bytes at `off`, written back in place. -/
def htonlAt (buf : List UInt8) (off : Nat) : List UInt8 :=
  buf.take off ++ ((buf.drop off).take 4).reverse ++ buf.drop (off + 4)

/-- `wsf_msg_header_decode`: `msg_length` and `msg_id` in host order. -/
def wsfMsgHeaderDecode (buf : List UInt8) : List UInt8 :=
  htonlAt (htonlAt buf 4) 9

/-- `get_msg_type`: the low four bits of `msg_type_version`. -/
def getMsgType (buf : List UInt8) : Nat :=
  (buf.getD 8 0).toNat % 16

/-- `wsf_msg_accept`: a buffer shorter than a header is held, a longer one must start
with the magic. -/
def wsfMsgAccept (buf : List UInt8) : Bool :=
  if buf.length < wsfMsgHeaderSize then true else buf.take 4 == magicCode

/-- `wsf_msg_complete`: the buffer holds the frame's `msg_length` bytes. -/
def wsfMsgComplete (buf : List UInt8) : Bool :=
  if buf.length < wsfMsgHeaderSize then false else decide (getUnalignedBe32 buf 4 ≤ buf.length)

/-! ### The connection and the handlers -/

/-- The functions of `msg_handlers[]`. -/
inductive MsgHandler where
  | processMsgRequest
  | processMsgResponse
  | processHeartbeatResponse
  | processRegisterResponse
  | processDeregisterConnection
  deriving DecidableEq, Repr

/-- `msg_handlers[]`, indexed by message type. -/
def msgHandlers : List (Option MsgHandler) :=
  [some .processMsgRequest, some .processMsgResponse, none, some .processHeartbeatResponse, none,
    some .processRegisterResponse, some .processDeregisterConnection]

/-- The handler `process_received_buf` calls for a message type. -/
def msgHandler (mtype : Nat) : Option MsgHandler :=
  if mtype < msgTypeEnd then msgHandlers.getD mtype none else none

/-- The fields of `wsf_connection_t` the receive path reads. -/
structure WsfConnection where
  /-- `recv_buf[0, recv_buf_pos)`. -/
  recvBuf : List UInt8
  recvBufLen : Nat
  /-- Whether `ssl` is open. -/
  ssl : Bool
  deriving DecidableEq, Repr

/-- `wsf_reset_connection`: the SSL session closed and the buffer emptied. -/
def wsfResetConnection (conn : WsfConnection) : WsfConnection :=
  { conn with recvBuf := [], ssl := false }

/-- `wsf_recvbuff_clear`. -/
def wsfRecvbuffClear (conn : WsfConnection) : WsfConnection :=
  { conn with recvBuf := [] }

/-- Whether a handler resets the connection on the decoded buffer `msg`:
`process_register_response` on a result code other than `INVOKE_RIGHT` (the first
payload byte), `process_deregister_connection` when SSL is open. -/
def handlerResets (h : MsgHandler) (conn : WsfConnection) (msg : List UInt8) : Bool :=
  match h with
  | .processRegisterResponse => msg.getD wsfMsgHeaderSize 0 != invokeRight
  | .processDeregisterConnection => conn.ssl
  | _ => false

/-- What a handler does to the connection. -/
def msgHandle (h : MsgHandler) (conn : WsfConnection) : WsfConnection :=
  if handlerResets h conn conn.recvBuf then wsfResetConnection conn else conn

/-- A call `handler(msg, length)`, with the `length` bytes of `msg` it is given. -/
structure Dispatch where
  handler : MsgHandler
  msg : List UInt8
  length : Nat
  deriving DecidableEq, Repr

/-! ### `process_received_buf` -/

/-- `wsf_recvbuff_clear_first_msg`: the connection after, and whether a message is left.
After a reset the source reads the stale header of an empty buffer; its length is at
most the old `recv_buf_pos`, so the outcome is the one of an empty buffer here. -/
def wsfRecvbuffClearFirstMsg (conn : WsfConnection) : WsfConnection × Bool :=
  let bufLen := conn.recvBuf.length
  let pkgLen := memcpy32 conn.recvBuf 4
  if bufLen = pkgLen then ({ conn with recvBuf := [] }, false)
  else if bufLen > pkgLen then ({ conn with recvBuf := conn.recvBuf.drop pkgLen }, true)
  else ({ conn with recvBuf := [] }, false)

/-- One pass from the label `reprocess`: the connection after, the handler called, and
whether it jumps back. -/
structure Pass where
  conn : WsfConnection
  dispatched : List Dispatch
  again : Bool

/-- A complete frame at the front: decoded, handed to its handler with its length, and
cleared. -/
def processFirstMsg (conn : WsfConnection) : Pass :=
  let buf := wsfMsgHeaderDecode conn.recvBuf
  let length := memcpy32 buf 4
  let decoded := { conn with recvBuf := buf }
  match msgHandler (getMsgType buf) with
  | some h =>
    let r := wsfRecvbuffClearFirstMsg (msgHandle h decoded)
    ⟨r.1, [⟨h, buf.take length, length⟩], r.2⟩
  | none =>
    let r := wsfRecvbuffClearFirstMsg decoded
    ⟨r.1, [], r.2⟩

/-- One pass of `process_received_buf` from `reprocess`. -/
def processPass (conn : WsfConnection) : Pass :=
  if !wsfMsgAccept conn.recvBuf then ⟨wsfRecvbuffClear conn, [], false⟩
  else if wsfMsgComplete conn.recvBuf then processFirstMsg conn
  else ⟨conn, [], false⟩

/-- `process_received_buf` within `fuel` passes. `wsf_recvbuff_check` fails only on a
null connection, so the loop always starts. -/
def processReceivedBuf : Nat → WsfConnection → Option (WsfConnection × List Dispatch)
  | 0, _ => none
  | fuel + 1, conn =>
    let p := processPass conn
    if p.again then (processReceivedBuf fuel p.conn).map fun r => (r.1, p.dispatched ++ r.2)
    else some (p.conn, p.dispatched)

/-- What `os_ssl_recv` or `os_tcp_recv` returned: the bytes read, `EAGAIN`, or an
error. -/
inductive RecvResult where
  | bytes (data : List UInt8)
  | eagain
  | error

/-- `__cb_wsf_recv`: its return value (`0` closes the connection), and the connection
and handler calls after `process_received_buf`. The read is given the free space of
the buffer and takes at most that. -/
def cbWsfRecv (fuel : Nat) (conn : WsfConnection) (r : RecvResult) :
    Nat × Option (WsfConnection × List Dispatch) :=
  let len := conn.recvBufLen - conn.recvBuf.length
  if len = 0 then (1, some (conn, []))
  else
    match r with
    | .eagain => (1, some (conn, []))
    | .error => (0, some (conn, []))
    | .bytes data =>
      if data = [] then (0, some (conn, []))
      else (1, processReceivedBuf fuel { conn with recvBuf := conn.recvBuf ++ data.take len })

/-! ### The header bytes -/

/-- A buffer that holds a header, byte by byte. -/
theorem exists_header {buf : List UInt8} (h : wsfMsgHeaderSize ≤ buf.length) :
    ∃ m0 m1 m2 m3 l0 l1 l2 l3 t i0 i1 i2 i3 rest,
      buf = m0 :: m1 :: m2 :: m3 :: l0 :: l1 :: l2 :: l3 :: t :: i0 :: i1 :: i2 :: i3 :: rest := by
  rcases buf with _ | ⟨m0, _ | ⟨m1, _ | ⟨m2, _ | ⟨m3, _ | ⟨l0, _ | ⟨l1, _ | ⟨l2, _ | ⟨l3, _ | ⟨t, _ |
    ⟨i0, _ | ⟨i1, _ | ⟨i2, _ | ⟨i3, rest⟩⟩⟩⟩⟩⟩⟩⟩⟩⟩⟩⟩⟩
  -- the buffers of fewer than thirteen bytes
  iterate 13 simp [wsfMsgHeaderSize] at h
  exact ⟨m0, m1, m2, m3, l0, l1, l2, l3, t, i0, i1, i2, i3, rest, rfl⟩

theorem wsfMsgHeaderDecode_cons (m0 m1 m2 m3 l0 l1 l2 l3 t i0 i1 i2 i3 : UInt8) (rest : List UInt8) :
    wsfMsgHeaderDecode (m0 :: m1 :: m2 :: m3 :: l0 :: l1 :: l2 :: l3 :: t :: i0 :: i1 :: i2 :: i3 :: rest) =
      m0 :: m1 :: m2 :: m3 :: l3 :: l2 :: l1 :: l0 :: t :: i3 :: i2 :: i1 :: i0 :: rest := rfl

section Header

variable {buf : List UInt8} (h : wsfMsgHeaderSize ≤ buf.length)
include h

theorem length_wsfMsgHeaderDecode : (wsfMsgHeaderDecode buf).length = buf.length := by
  obtain ⟨m0, m1, m2, m3, l0, l1, l2, l3, t, i0, i1, i2, i3, rest, rfl⟩ := exists_header h
  rfl

theorem take_wsfMsgHeaderDecode : (wsfMsgHeaderDecode buf).take 4 = buf.take 4 := by
  obtain ⟨m0, m1, m2, m3, l0, l1, l2, l3, t, i0, i1, i2, i3, rest, rfl⟩ := exists_header h
  rfl

theorem getMsgType_wsfMsgHeaderDecode : getMsgType (wsfMsgHeaderDecode buf) = getMsgType buf := by
  obtain ⟨m0, m1, m2, m3, l0, l1, l2, l3, t, i0, i1, i2, i3, rest, rfl⟩ := exists_header h
  rfl

theorem getD_wsfMsgHeaderDecode_headerSize :
    (wsfMsgHeaderDecode buf).getD wsfMsgHeaderSize 0 = buf.getD wsfMsgHeaderSize 0 := by
  obtain ⟨m0, m1, m2, m3, l0, l1, l2, l3, t, i0, i1, i2, i3, rest, rfl⟩ := exists_header h
  rfl

/-- The length the handler is given, read in host order, is the big-endian
`msg_length` of the frame. -/
theorem memcpy32_wsfMsgHeaderDecode : memcpy32 (wsfMsgHeaderDecode buf) 4 = getUnalignedBe32 buf 4 := by
  obtain ⟨m0, m1, m2, m3, l0, l1, l2, l3, t, i0, i1, i2, i3, rest, rfl⟩ := exists_header h
  simp only [wsfMsgHeaderDecode_cons, memcpy32, getUnalignedBe32, List.getD_cons_succ, List.getD_cons_zero]
  omega

/-- A second decode reads the length the other way round. -/
theorem getUnalignedBe32_wsfMsgHeaderDecode :
    getUnalignedBe32 (wsfMsgHeaderDecode buf) 4 = memcpy32 buf 4 := by
  obtain ⟨m0, m1, m2, m3, l0, l1, l2, l3, t, i0, i1, i2, i3, rest, rfl⟩ := exists_header h
  simp only [wsfMsgHeaderDecode_cons, memcpy32, getUnalignedBe32, List.getD_cons_succ, List.getD_cons_zero]
  omega

/-- What follows the header is not touched by the decode. -/
theorem wsfMsgHeaderDecode_append (rest : List UInt8) :
    wsfMsgHeaderDecode (buf ++ rest) = wsfMsgHeaderDecode buf ++ rest := by
  obtain ⟨m0, m1, m2, m3, l0, l1, l2, l3, t, i0, i1, i2, i3, tl, rfl⟩ := exists_header h
  rfl

theorem getUnalignedBe32_append (rest : List UInt8) :
    getUnalignedBe32 (buf ++ rest) 4 = getUnalignedBe32 buf 4 := by
  obtain ⟨m0, m1, m2, m3, l0, l1, l2, l3, t, i0, i1, i2, i3, tl, rfl⟩ := exists_header h
  rfl

theorem getMsgType_append (rest : List UInt8) : getMsgType (buf ++ rest) = getMsgType buf := by
  obtain ⟨m0, m1, m2, m3, l0, l1, l2, l3, t, i0, i1, i2, i3, tl, rfl⟩ := exists_header h
  rfl

theorem take_append_four (rest : List UInt8) : (buf ++ rest).take 4 = buf.take 4 := by
  obtain ⟨m0, m1, m2, m3, l0, l1, l2, l3, t, i0, i1, i2, i3, tl, rfl⟩ := exists_header h
  rfl

end Header

/-! ### One pass -/

/-- A frame as the server sends it: the magic and a `msg_length` that counts the whole
frame, header included. -/
structure WsfFrame where
  bytes : List UInt8
  magic : bytes.take 4 = magicCode
  length_eq : getUnalignedBe32 bytes 4 = bytes.length
  header_le : wsfMsgHeaderSize ≤ bytes.length

/-- The handler call a frame gets, with the decoded frame and its length. -/
def frameDispatch (f : WsfFrame) : List Dispatch :=
  ((msgHandler (getMsgType f.bytes)).map fun h => ⟨h, wsfMsgHeaderDecode f.bytes, f.bytes.length⟩).toList

/-- The handlers that leave a connection whose SSL is `ssl` as it is. The registration
result is left out: whether it resets depends on its result code. -/
def keepsConnection (ssl : Bool) : Option MsgHandler → Bool
  | some .processRegisterResponse => false
  | some .processDeregisterConnection => !ssl
  | _ => true

theorem msgHandle_of_keeps {h : MsgHandler} {conn : WsfConnection}
    (hk : keepsConnection conn.ssl (some h) = true) : msgHandle h conn = conn := by
  cases h <;> simp_all [keepsConnection, msgHandle, handlerResets]

theorem wsfMsgAccept_of_magic {buf : List UInt8} (h : buf.take 4 = magicCode) :
    wsfMsgAccept buf = true := by
  unfold wsfMsgAccept
  split <;> simp [h]

theorem wsfMsgComplete_of_le {buf : List UInt8} (hh : wsfMsgHeaderSize ≤ buf.length)
    (hl : getUnalignedBe32 buf 4 ≤ buf.length) : wsfMsgComplete buf = true := by
  unfold wsfMsgComplete
  rw [if_neg (by omega)]
  exact decide_eq_true hl

theorem wsfMsgComplete_of_lt {buf : List UInt8} (hl : buf.length < getUnalignedBe32 buf 4) :
    wsfMsgComplete buf = false := by
  unfold wsfMsgComplete
  split
  · rfl
  · exact decide_eq_false (by omega)

theorem processPass_of_complete {conn : WsfConnection} (ha : wsfMsgAccept conn.recvBuf = true)
    (hc : wsfMsgComplete conn.recvBuf = true) : processPass conn = processFirstMsg conn := by
  simp [processPass, ha, hc]

theorem processPass_of_incomplete {conn : WsfConnection} (ha : wsfMsgAccept conn.recvBuf = true)
    (hc : wsfMsgComplete conn.recvBuf = false) : processPass conn = ⟨conn, [], false⟩ := by
  simp [processPass, ha, hc]

/-- Clearing a first message of `a.length` bytes keeps what follows it, and goes on when
something does. -/
theorem wsfRecvbuffClearFirstMsg_append (conn : WsfConnection) {a rest : List UInt8}
    (hlen : memcpy32 (a ++ rest) 4 = a.length) :
    wsfRecvbuffClearFirstMsg { conn with recvBuf := a ++ rest } =
      ({ conn with recvBuf := rest }, !rest.isEmpty) := by
  unfold wsfRecvbuffClearFirstMsg
  dsimp only
  rw [hlen, List.length_append]
  cases rest with
  | nil => simp
  | cons b bs =>
    rw [if_neg (by simp), if_pos (by simp)]
    simp

/-- A message of length `0` is cleared by moving nothing, and the loop goes on. -/
theorem wsfRecvbuffClearFirstMsg_zero {conn : WsfConnection} (hlen : memcpy32 conn.recvBuf 4 = 0)
    (hpos : 0 < conn.recvBuf.length) : wsfRecvbuffClearFirstMsg conn = (conn, true) := by
  unfold wsfRecvbuffClearFirstMsg
  dsimp only
  rw [hlen, if_neg (by omega), if_pos hpos, List.drop_zero]

/-- A frame at the front of the buffer is handed to its handler and cleared. -/
theorem processPass_frame (f : WsfFrame) (rest : List UInt8) (len : Nat) (ssl : Bool)
    (hk : keepsConnection ssl (msgHandler (getMsgType f.bytes)) = true) :
    processPass ⟨f.bytes ++ rest, len, ssl⟩ = ⟨⟨rest, len, ssl⟩, frameDispatch f, !rest.isEmpty⟩ := by
  have hh := f.header_le
  have hfull : wsfMsgHeaderSize ≤ (f.bytes ++ rest).length := by
    rw [List.length_append]
    omega
  have hlen : memcpy32 (wsfMsgHeaderDecode (f.bytes ++ rest)) 4 = f.bytes.length := by
    rw [memcpy32_wsfMsgHeaderDecode hfull, getUnalignedBe32_append hh, f.length_eq]
  have htype : getMsgType (wsfMsgHeaderDecode (f.bytes ++ rest)) = getMsgType f.bytes := by
    rw [getMsgType_wsfMsgHeaderDecode hfull, getMsgType_append hh]
  have hdec := wsfMsgHeaderDecode_append hh rest
  have hdlen : (wsfMsgHeaderDecode f.bytes).length = f.bytes.length := length_wsfMsgHeaderDecode hh
  -- the decoded frame is cleared as a whole
  have hclear := wsfRecvbuffClearFirstMsg_append ⟨f.bytes ++ rest, len, ssl⟩
    (a := wsfMsgHeaderDecode f.bytes) (by rw [← hdec, hlen, hdlen])
  rw [processPass_of_complete (wsfMsgAccept_of_magic (by rw [take_append_four hh, f.magic]))
    (wsfMsgComplete_of_le hfull (by rw [getUnalignedBe32_append hh, f.length_eq, List.length_append]; omega))]
  unfold processFirstMsg frameDispatch
  dsimp only
  rw [htype, hlen, hdec]
  cases hm : msgHandler (getMsgType f.bytes) with
  | none =>
    dsimp only
    rw [hclear]
    rfl
  | some h =>
    rw [hm] at hk
    dsimp only
    rw [msgHandle_of_keeps hk, hclear, List.take_left' hdlen]
    rfl

/-! ### Whole frames and a pending tail -/

/-- The bytes of frames sent one after another. -/
def framesBytes (fs : List WsfFrame) : List UInt8 := fs.flatMap WsfFrame.bytes

/-- A tail that waits for more bytes: shorter than a header, or the start of a frame
with more to come. -/
def Pending (t : List UInt8) : Prop :=
  t.length < wsfMsgHeaderSize ∨ (t.take 4 = magicCode ∧ t.length < getUnalignedBe32 t 4)

theorem processPass_pending {conn : WsfConnection} (h : Pending conn.recvBuf) :
    processPass conn = ⟨conn, [], false⟩ := by
  rcases h with hs | ⟨hm, hl⟩
  · apply processPass_of_incomplete
    · simp [wsfMsgAccept, hs]
    · simp [wsfMsgComplete, hs]
  · exact processPass_of_incomplete (wsfMsgAccept_of_magic hm) (wsfMsgComplete_of_lt hl)

/-- `process_received_buf` on whole frames followed by a pending tail calls the frames'
handlers in order, each once and with its frame's length, and keeps the tail at the
start of the buffer, within one pass per frame and one more. -/
theorem processReceivedBuf_frames (fs : List WsfFrame) {t : List UInt8} (ht : Pending t) (len : Nat)
    (ssl : Bool) (hk : ∀ f ∈ fs, keepsConnection ssl (msgHandler (getMsgType f.bytes)) = true) :
    processReceivedBuf (fs.length + 1) ⟨framesBytes fs ++ t, len, ssl⟩ =
      some (⟨t, len, ssl⟩, fs.flatMap frameDispatch) := by
  -- induction on the frames, one pass taking off the first
  induction fs with
  | nil =>
    simp only [processReceivedBuf, framesBytes, List.flatMap_nil, List.nil_append]
    rw [processPass_pending ht]
    rfl
  | cons f fs ih =>
    have hrest : framesBytes (f :: fs) ++ t = f.bytes ++ (framesBytes fs ++ t) := by
      simp [framesBytes]
    rw [hrest, List.length_cons, processReceivedBuf, processPass_frame f _ len ssl (hk f (by simp))]
    dsimp only
    cases hr : (framesBytes fs ++ t).isEmpty with
    | false =>
      rw [Bool.not_false, if_pos rfl, ih (fun g hg => hk g (by simp [hg]))]
      rfl
    | true =>
      -- nothing follows the frame: no frames after it and no tail
      have hnil : framesBytes fs ++ t = [] := List.isEmpty_iff.mp hr
      have hfs : fs = [] := by
        cases fs with
        | nil => rfl
        | cons g gs =>
          have := g.header_le
          simp [framesBytes] at hnil
          simp [hnil.1, wsfMsgHeaderSize] at this
      have htn : t = [] := by simpa [hfs, framesBytes] using hnil
      subst hfs htn
      simp [framesBytes]

/-! ### A frame of length `0` -/

/-- A buffer that starts with a header whose `msg_length` is `0`, for a handler that
leaves the connection as it is. -/
structure ZeroLengthFrame (conn : WsfConnection) : Prop where
  header_le : wsfMsgHeaderSize ≤ conn.recvBuf.length
  magic : conn.recvBuf.take 4 = magicCode
  length_zero : getUnalignedBe32 conn.recvBuf 4 = 0
  keeps : keepsConnection conn.ssl (msgHandler (getMsgType conn.recvBuf)) = true

/-- Four bytes that read `0` one way round read `0` the other way. -/
theorem memcpy32_eq_zero {buf : List UInt8} (h : getUnalignedBe32 buf 4 = 0) : memcpy32 buf 4 = 0 := by
  unfold getUnalignedBe32 at h
  unfold memcpy32
  omega

/-- A pass over a frame of length `0`: the handler is called with length `0`, nothing is
cleared, and the loop jumps back with only the header decoded. -/
theorem processPass_zero_length {conn : WsfConnection} (h : ZeroLengthFrame conn) :
    processPass conn =
      ⟨{ conn with recvBuf := wsfMsgHeaderDecode conn.recvBuf },
        ((msgHandler (getMsgType conn.recvBuf)).map fun hd => ⟨hd, [], 0⟩).toList, true⟩ := by
  have hh := h.header_le
  have hlen : memcpy32 (wsfMsgHeaderDecode conn.recvBuf) 4 = 0 := by
    rw [memcpy32_wsfMsgHeaderDecode hh, h.length_zero]
  have hpos : 0 < (wsfMsgHeaderDecode conn.recvBuf).length := by
    rw [length_wsfMsgHeaderDecode hh]
    unfold wsfMsgHeaderSize at hh
    omega
  rw [processPass_of_complete (wsfMsgAccept_of_magic h.magic)
    (wsfMsgComplete_of_le hh (by rw [h.length_zero]; omega))]
  unfold processFirstMsg
  dsimp only
  rw [getMsgType_wsfMsgHeaderDecode hh, hlen]
  cases hm : msgHandler (getMsgType conn.recvBuf) with
  | none =>
    dsimp only
    rw [@wsfRecvbuffClearFirstMsg_zero { conn with recvBuf := wsfMsgHeaderDecode conn.recvBuf } hlen hpos]
    rfl
  | some hd =>
    have hk := h.keeps
    rw [hm] at hk
    dsimp only
    rw [@msgHandle_of_keeps hd { conn with recvBuf := wsfMsgHeaderDecode conn.recvBuf } hk,
      @wsfRecvbuffClearFirstMsg_zero { conn with recvBuf := wsfMsgHeaderDecode conn.recvBuf } hlen hpos]
    rfl

/-- Every pass keeps the buffer a frame of length `0`: decoding turns the length round,
and four zero bytes stay zero. -/
theorem zeroLengthFrame_processPass {conn : WsfConnection} (h : ZeroLengthFrame conn) :
    ZeroLengthFrame (processPass conn).conn := by
  have hh := h.header_le
  rw [processPass_zero_length h]
  refine ⟨?_, ?_, ?_, ?_⟩
  · dsimp only
    rw [length_wsfMsgHeaderDecode hh]
    exact hh
  · exact (take_wsfMsgHeaderDecode hh).trans h.magic
  · exact (getUnalignedBe32_wsfMsgHeaderDecode hh).trans (memcpy32_eq_zero h.length_zero)
  · dsimp only
    rw [getMsgType_wsfMsgHeaderDecode hh]
    exact h.keeps

/-- `process_received_buf` on a frame of length `0` never ends: no fuel is enough. -/
theorem processReceivedBuf_zero_length {conn : WsfConnection} (h : ZeroLengthFrame conn) (fuel : Nat) :
    processReceivedBuf fuel conn = none := by
  -- induction on the fuel, every pass jumping back to a frame of length `0`
  induction fuel generalizing conn with
  | zero => rfl
  | succ fuel ih =>
    have hagain : (processPass conn).again = true := by rw [processPass_zero_length h]
    simp only [processReceivedBuf, hagain, if_true, ih (zeroLengthFrame_processPass h), Option.map_none]

/-! ### A frame longer than the buffer -/

/-- A buffer that starts with a header whose `msg_length` exceeds the buffer's size. -/
structure LongFrame (conn : WsfConnection) : Prop where
  header_le : wsfMsgHeaderSize ≤ conn.recvBuf.length
  magic : conn.recvBuf.take 4 = magicCode
  too_long : conn.recvBufLen < getUnalignedBe32 conn.recvBuf 4
  fits : conn.recvBuf.length ≤ conn.recvBufLen

/-- `cb_recv` for the WSF socket: `__cb_wsf_recv`, then `__cb_wsf_close` when it returns
`0`, which resets the connection. -/
def cbRecv (fuel : Nat) (conn : WsfConnection) (r : RecvResult) : Option (WsfConnection × List Dispatch) :=
  match cbWsfRecv fuel conn r with
  | (0, res) => res.map fun p => (wsfResetConnection p.1, p.2)
  | (_, res) => res

/-- The poll loop calling `cb_recv` on the reads `rs`, with the handler calls in order. -/
def cbRecvRun (fuel : Nat) : WsfConnection → List RecvResult → Option (WsfConnection × List Dispatch)
  | conn, [] => some (conn, [])
  | conn, r :: rs =>
    match cbRecv fuel conn r with
    | none => none
    | some (conn', d) => (cbRecvRun fuel conn' rs).map fun p => (p.1, d ++ p.2)

/-- A buffer with no free space is not read into, whatever the socket holds. -/
theorem cbWsfRecv_full {conn : WsfConnection} (h : conn.recvBufLen ≤ conn.recvBuf.length) (fuel : Nat)
    (r : RecvResult) : cbWsfRecv fuel conn r = (1, some (conn, [])) := by
  unfold cbWsfRecv
  rw [if_pos (by omega)]

/-- A read into a buffer that starts with a frame longer than it appends what fits and
calls no handler: the frame stays, and can never complete. -/
theorem cbWsfRecv_long_frame {conn : WsfConnection} (h : LongFrame conn) (fuel : Nat) {data : List UInt8}
    (hd : data ≠ []) :
    ∃ more, cbWsfRecv (fuel + 1) conn (.bytes data) = (1, some ({ conn with recvBuf := conn.recvBuf ++ more }, [])) ∧
      LongFrame { conn with recvBuf := conn.recvBuf ++ more } := by
  have hh := h.header_le
  have hf := h.fits
  have hlong : LongFrame { conn with recvBuf := conn.recvBuf ++ data.take (conn.recvBufLen - conn.recvBuf.length) } := by
    refine ⟨?_, ?_, ?_, ?_⟩
    · simp only [List.length_append]
      omega
    · exact (take_append_four hh _).trans h.magic
    · exact (getUnalignedBe32_append hh _).symm ▸ h.too_long
    · simp only [List.length_append, List.length_take]
      omega
  by_cases hfull : conn.recvBufLen - conn.recvBuf.length = 0
  · refine ⟨[], ?_, by simpa using h⟩
    unfold cbWsfRecv
    rw [if_pos hfull]
    simp
  · refine ⟨_, ?_, hlong⟩
    unfold cbWsfRecv
    rw [if_neg hfull]
    dsimp only
    rw [if_neg hd]
    -- the frame is pending: longer than the buffer can hold
    have hpend : Pending (conn.recvBuf ++ data.take (conn.recvBufLen - conn.recvBuf.length)) :=
      .inr ⟨hlong.magic, by have := hlong.too_long; have := hlong.fits; dsimp only at *; omega⟩
    simp only [processReceivedBuf,
      @processPass_pending { conn with recvBuf := conn.recvBuf ++ data.take (conn.recvBufLen - conn.recvBuf.length) } hpend]
    rfl

/-- The poll loop on a buffer that starts with a frame longer than it: whatever the
socket gives, no handler is called and the connection is never reset; the buffer only
fills up. -/
theorem cbRecvRun_long_frame (fuel : Nat) (datas : List (List UInt8)) (hd : ∀ d ∈ datas, d ≠ []) :
    ∀ {conn : WsfConnection}, LongFrame conn →
      ∃ more, cbRecvRun (fuel + 1) conn (datas.map .bytes) = some ({ conn with recvBuf := conn.recvBuf ++ more }, []) ∧
        LongFrame { conn with recvBuf := conn.recvBuf ++ more } := by
  -- induction on the reads, each one a step of `cbWsfRecv_long_frame`
  induction datas with
  | nil =>
    intro conn h
    exact ⟨[], by simp [cbRecvRun], by simpa using h⟩
  | cons data datas ih =>
    intro conn h
    obtain ⟨more, hstep, hlong⟩ := cbWsfRecv_long_frame h fuel (hd data (by simp))
    obtain ⟨more', hrun, hlong'⟩ := ih (fun d hm => hd d (by simp [hm])) hlong
    refine ⟨more ++ more', ?_, by simpa using hlong'⟩
    simp only [List.map_cons, cbRecvRun, cbRecv, hstep, hrun]
    simp

/-- The receive path does not always make progress: a frame of length `0` keeps
`process_received_buf` jumping back forever, and a frame longer than the buffer is
neither dispatched nor dropped by any run of reads, until the full buffer blocks every
later read. -/
theorem processReceivedBuf_loops_or_blocks :
    (∀ conn : WsfConnection, ZeroLengthFrame conn → ∀ fuel, processReceivedBuf fuel conn = none) ∧
    (∀ conn : WsfConnection, LongFrame conn → ∀ (fuel : Nat) (datas : List (List UInt8)), (∀ d ∈ datas, d ≠ []) →
      ∃ more, cbRecvRun (fuel + 1) conn (datas.map .bytes) =
          some ({ conn with recvBuf := conn.recvBuf ++ more }, []) ∧
        LongFrame { conn with recvBuf := conn.recvBuf ++ more }) ∧
    (∀ conn : WsfConnection, conn.recvBufLen ≤ conn.recvBuf.length →
      ∀ (fuel : Nat) (r : RecvResult), cbWsfRecv fuel conn r = (1, some (conn, []))) := by
  refine ⟨?_, ?_, ?_⟩
  · intro conn h fuel
    exact processReceivedBuf_zero_length h fuel
  · intro conn h fuel datas hd
    exact cbRecvRun_long_frame fuel datas hd h
  · intro conn h fuel r
    exact cbWsfRecv_full h fuel r

/-- A heartbeat response of length `0` in a buffer of `4096` bytes: no fuel ends the loop. -/
theorem processReceivedBuf_loops_or_blocks_heartbeat :
    ZeroLengthFrame ⟨[0x57, 0x53, 0x46, 0x31, 0, 0, 0, 0, 3, 0, 0, 0, 1], 4096, true⟩ ∧
      processReceivedBuf 1000 ⟨[0x57, 0x53, 0x46, 0x31, 0, 0, 0, 0, 3, 0, 0, 0, 1], 4096, true⟩ = none :=
  have hz : ZeroLengthFrame ⟨[0x57, 0x53, 0x46, 0x31, 0, 0, 0, 0, 3, 0, 0, 0, 1], 4096, true⟩ :=
    ⟨by decide, by decide, by decide, by decide⟩
  ⟨hz, processReceivedBuf_loops_or_blocks.1 _ hz 1000⟩

end Wsf
