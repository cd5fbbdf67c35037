import AliosThings.Coap.Receive
import AliosThings.Lib.Machine

/-!
# The send list of `CoAPMessage.c`

`CoAPMessage_send` serializes a message into a buffer of the length
`CoAPSerialize_MessageLength` gives, writes it, and links a node for it in
`ctx->sendlist` when it is a request or a CON response. `CoAPMessage_write`, called
on every tick, counts each node's timeout down and at zero resends it (unless it was
acked) with a doubled timeout, and unlinks it past `COAP_MAX_TRANSMISSION_SPAN` or
after `COAP_MAX_RETRY_COUNT` retransmissions, calling its handler with
`COAP_RECV_RESP_TIMEOUT`. Received datagrams reach the list through
`CoAPMessage_handle`: an ACK or a reset marks the node of its message id, a response
completes the first node whose token it carries, and `CoAPMessageId_cancel` unlinks
the nodes of a message id. Each of these calls holds `list_mutex` while it touches the
list, so a run is a sequence of such steps (`coapSendStep`); `CoAPMessage_write`
releases it only around a handler call, after the node is unlinked.

Every step keeps `count` equal to the number of linked nodes and within `maxcount`,
and every node within its retransmissions (`sendListInv_exec`). A tick gives each
node one turn, which resends it only when it is not acked and below its retry count
and calls its handler with `COAP_RECV_RESP_TIMEOUT` only as it unlinks it; a response
completes only the first node whose token it carries (`coapSendStep_token_protocol`).
The response test compares tokens and nothing else: a response from any endpoint
completes a request whose token it carries (`coapRespMessage_matches_token_only`).

The observe lists (`CoAPObsClient_add`, `CoAPObsClient_delete`,
`CoapObsServerAll_delete`) and the resource table a request is routed to are not part
of this model; a request leaves the list as it is and is handed on with its path.
-/

namespace Coap

open RingMemory Machine

/-! ### Nodes and the list -/

/-- `COAP_MAX_RETRY_COUNT`. -/
def coapMaxRetryCount : Nat := 4

/-- `COAP_ACK_TIMEOUT`. -/
def coapAckTimeout : Nat := 2

/-- `COAP_ACK_RANDOM_FACTOR`. -/
def coapAckRandomFactor : Nat := 1

/-- `COAP_MAX_TRANSMISSION_SPAN`. -/
def coapMaxTransmissionSpan : Nat := 10

/-- `COAP_DEFAULT_SENDLIST_MAXCOUNT`. -/
def coapDefaultSendlistMaxcount : Nat := 8

/-- `NetworkAddr`: the address as the number `platform_aton` makes of its text, and
the port. -/
structure NetworkAddr where
  addr : Nat
  port : Nat
  deriving DecidableEq, Repr

/-- `platform_is_multicast`. -/
def platformIsMulticast (addr : Nat) : Bool :=
  decide (0xE00000FF < addr) && decide (addr ≤ 0xEFFFFFFF)

/-- `COAP_REQUEST_SUCCESS` and `COAP_RECV_RESP_TIMEOUT`. -/
inductive CoAPReqResult where
  | requestSuccess
  | recvRespTimeout
  deriving DecidableEq, Repr

/-- `CoAPSendNode`. `handler` is `none` for `NULL`; `message` holds the bytes of the
buffer; `retrans_count` is an `unsigned char` and the timeouts `unsigned short`. -/
structure CoAPSendNode where
  header : CoAPMsgHeader
  retransCount : Nat
  token : List UInt8
  timeout : Nat
  timeoutVal : Nat
  msglen : Nat
  handler : Option Nat
  remote : NetworkAddr
  user : Nat
  message : List UInt8
  acked : Bool
  keep : Bool
  deriving DecidableEq, Repr

/-- `ctx->sendlist`: the linked nodes in order, and the `unsigned char` counters. -/
structure CoAPSendList where
  list : List CoAPSendNode
  count : Nat
  maxcount : Nat
  deriving DecidableEq, Repr

/-- The send list `CoAPContext_create` sets up from `param->send_maxcount`. -/
def coapSendListInit (sendMaxcount : Nat) : CoAPSendList :=
  { list := [], count := 0,
    maxcount := if 0 ≠ sendMaxcount % 256 then sendMaxcount % 256 else coapDefaultSendlistMaxcount }

/-- What the list does outside itself: datagrams written, handlers called, and
requests handed to the resource table. -/
inductive CoapEffect where
  | write (remote : NetworkAddr) (bytes : List UInt8)
  | callback (handler : Nat) (result : CoAPReqResult) (user : Nat) (remote : NetworkAddr)
  | request (remote : NetworkAddr) (path : List UInt8)
  deriving DecidableEq, Repr

/-- The statuses `CoAPMessage_send` returns. -/
inductive CoapSendRc where
  | success
  | errorDataSize
  | errorWriteFailed
  deriving DecidableEq, Repr

/-- `count--` on an `unsigned char`. -/
def countDown (count : Nat) : Nat := (count + 255) % 256

/-- The handler call of a node, when it has a handler. -/
def handlerCall (node : CoAPSendNode) (result : CoAPReqResult) (remote : NetworkAddr) : List CoapEffect :=
  match node.handler with
  | some h => [.callback h result node.user remote]
  | none => []

/-! ### Sending -/

/-- `CoAPMessageList_add` of `message`, sent to `remote` as the `len` bytes `buffer`. -/
def coapMessageListAdd (s : CoAPSendList) (remote : NetworkAddr) (message : CoAPMessage)
    (handler : Option Nat) (user keep : Nat) (buffer : List UInt8) (len : Nat) : CoapSendRc × CoAPSendList :=
  let timeoutVal := coapAckTimeout * coapAckRandomFactor
  let con := coapMessageTypeCon = message.header.type
  let node : CoAPSendNode :=
    { header := message.header
      retransCount := if con then 0 else coapMaxRetryCount
      token := message.token.take message.header.tokenlen
      timeout := if con then timeoutVal else coapMaxTransmissionSpan
      timeoutVal := timeoutVal
      msglen := len
      handler := handler
      remote := remote
      user := user
      message := buffer
      acked := false
      keep := platformIsMulticast remote.addr || 1 = keep }
  if s.maxcount ≤ s.count then (.errorDataSize, s)
  else (.success, { s with list := s.list ++ [node], count := (s.count + 1) % 256 })

/-- The buffer `CoAPMessage_send` fills: `coap_malloc(msglen)` at address `0` of the
heap `heap`, cleared, and `CoAPSerialize_Message` into it; with the count it returns
stored back into the `unsigned short` `msglen`. -/
def coapMessageSendBuffer (message : CoAPMessage) (heap : Nat → UInt8) : Nat × (Nat → UInt8) :=
  let msglen := coapSerializeMessageLength message
  let buff := writeAt heap 0 (List.replicate msglen 0)
  let r := coapSerializeMessage message buff msglen
  ((r.1 % 65536).toNat, r.2)

/-- `CoAPMessage_send` of `message` to `remote`; `writeOk` says whether
`CoAPNetwork_write` wrote the whole datagram. -/
def coapMessageSend (s : CoAPSendList) (remote : NetworkAddr) (message : CoAPMessage)
    (handler : Option Nat) (user keep : Nat) (writeOk : Bool) : CoapSendRc × CoAPSendList × List CoapEffect :=
  if coapMsgMaxPduLen < coapSerializeMessageLength message then (.errorDataSize, s, [])
  else
    let r := coapMessageSendBuffer message fun _ => 0
    let bytes := readAt r.2 0 r.1
    let eff := [CoapEffect.write remote bytes]
    if writeOk then
      if coapReqMsg message.header || coapConRespMsg message.header then
        let a := coapMessageListAdd s remote message handler user keep bytes r.1
        (a.1, a.2, eff)
      else (.success, s, eff)
    else (.errorWriteFailed, s, eff)

/-- The message `CoAPAckMessage_send` sends. -/
def coapAckMessage (msgid : Nat) : CoAPMessage :=
  (coapMessageIdSet coapMessageInit msgid).2

/-- The message `CoAPRestMessage_send` sends. -/
def coapRestMessage (msgid : Nat) : CoAPMessage :=
  (coapMessageIdSet (coapMessageTypeSet coapMessageInit coapMessageTypeRst).2 msgid).2

/-! ### Receiving -/

/-- `CoAPAckMessage_handle` over the nodes: the first node of the message id is
marked acked, and unlinked when it is a CON response; `true` when a node was
unlinked. -/
def coapAckMessageHandleGo (msgid : Nat) : List CoAPSendNode → List CoAPSendNode × Bool
  | [] => ([], false)
  | node :: rest =>
    if node.header.msgid = msgid then
      if coapRespMsg node.header then (rest, true) else ({ node with acked := true } :: rest, false)
    else
      let r := coapAckMessageHandleGo msgid rest
      (node :: r.1, r.2)

/-- `CoAPAckMessage_handle`. -/
def coapAckMessageHandle (s : CoAPSendList) (message : CoAPMessage) : CoAPSendList :=
  let r := coapAckMessageHandleGo message.header.msgid s.list
  { s with list := r.1, count := if r.2 then countDown s.count else s.count }

/-- The token test of `CoAPRespMessage_handle`. -/
def coapTokenMatch (message : CoAPMessage) (node : CoAPSendNode) : Bool :=
  0 != node.header.tokenlen && node.header.tokenlen == message.header.tokenlen &&
    node.token.take message.header.tokenlen == message.token.take message.header.tokenlen

/-- The search of `CoAPRespMessage_handle`: the first node whose token matches, and
the nodes after it is unlinked, unless it is kept. -/
def coapRespFind (message : CoAPMessage) : List CoAPSendNode → Option (CoAPSendNode × List CoAPSendNode)
  | [] => none
  | node :: rest =>
    if coapTokenMatch message node then some (node, if node.keep then node :: rest else rest)
    else (coapRespFind message rest).map fun r => (r.1, node :: r.2)

/-- The ACK `CoAPRespMessage_handle` sends first for a CON response. -/
def coapRespAck (s : CoAPSendList) (remote : NetworkAddr) (message : CoAPMessage) :
    CoAPSendList × List CoapEffect :=
  if coapMessageTypeCon = message.header.type then
    let r := coapMessageSend s remote (coapAckMessage message.header.msgid) none 0 0 true
    (r.2.1, r.2.2)
  else (s, [])

/-- `CoAPRespMessage_handle` of a response from `remote`: a CON response is acked
first, then the node found is completed with `COAP_REQUEST_SUCCESS`. -/
def coapRespMessageHandle (s : CoAPSendList) (remote : NetworkAddr) (message : CoAPMessage) :
    CoAPSendList × List CoapEffect :=
  let a := coapRespAck s remote message
  match coapRespFind message a.1.list with
  | none => a
  | some (node, list) =>
    ({ a.1 with list := list, count := if node.keep then a.1.count else countDown a.1.count },
      a.2 ++ handlerCall node .requestSuccess remote)

/-- The message `CoAPMessage_handle` parses from a datagram in the cleared receive
buffer. -/
def coapParse (datagram : List UInt8) : CoAPMessage :=
  (coapDeserializeMessage CoAPMessage.zero (ofList datagram 0) datagram.length).2

/-- `CoAPMessage_handle` of a datagram from `remote`. -/
def coapMessageHandle (s : CoAPSendList) (remote : NetworkAddr) (datagram : List UInt8) :
    CoAPSendList × List CoapEffect :=
  let message := coapParse datagram
  match coapRoute message.header with
  | .ackHandle => (coapAckMessageHandle s message, [])
  | .respHandle => coapRespMessageHandle s remote message
  | .restSend =>
    let r := coapMessageSend s remote (coapRestMessage message.header.msgid) none 0 0 true
    (r.2.1, r.2.2)
  | .requestHandle => (s, [.request remote (coapRequestPath message.options)])
  | .drop => (s, [])

/-! ### Ticks and cancels -/

/-- The retransmission of a node whose timeout has run out: below the retry count the
timeout doubles and the message is written again, unless it was acked. -/
def coapMessageRetransmit (node : CoAPSendNode) : CoAPSendNode × List CoapEffect :=
  if node.retransCount < coapMaxRetryCount then
    let timeout := node.timeoutVal * 2 % 65536
    ({ node with timeout := timeout, timeoutVal := timeout, retransCount := node.retransCount + 1 },
      if node.acked then [] else [.write node.remote node.message])
  else (node, [])

/-- One node's turn in `CoAPMessage_write`: the node after it, or `none` when it is
unlinked. -/
def coapMessageWriteNode (node : CoAPSendNode) : Option CoAPSendNode × List CoapEffect :=
  if node.timeout = 0 then
    let r := coapMessageRetransmit node
    if coapMaxTransmissionSpan < r.1.timeout ∨ (coapMaxRetryCount ≤ r.1.retransCount ∧ r.1.keep = false) then
      (none, r.2 ++ handlerCall r.1 .recvRespTimeout r.1.remote)
    else (some r.1, r.2)
  else (some { node with timeout := node.timeout - 1 }, [])

/-- `CoAPMessage_write` over the nodes from `count`: the nodes kept, the count, and
what the turns did. -/
def coapMessageWriteGo : List CoAPSendNode → Nat → List CoAPSendNode × Nat × List CoapEffect
  | [], count => ([], count, [])
  | node :: rest, count =>
    let r := coapMessageWriteNode node
    let g := coapMessageWriteGo rest (if r.1.isSome then count else countDown count)
    (r.1.toList ++ g.1, g.2.1, r.2 ++ g.2.2)

/-- `CoAPMessage_write`. -/
def coapMessageWrite (s : CoAPSendList) : CoAPSendList × List CoapEffect :=
  let g := coapMessageWriteGo s.list s.count
  ({ s with list := g.1, count := g.2.1 }, g.2.2)

/-- `CoAPMessageId_cancel` over the nodes from `count`: the nodes of other ids, and the
count. -/
def coapMessageIdCancelGo (msgid : Nat) : List CoAPSendNode → Nat → List CoAPSendNode × Nat
  | [], count => ([], count)
  | node :: rest, count =>
    if node.header.msgid = msgid then coapMessageIdCancelGo msgid rest (countDown count)
    else
      let g := coapMessageIdCancelGo msgid rest count
      (node :: g.1, g.2)

/-- `CoAPMessageId_cancel`. -/
def coapMessageIdCancel (s : CoAPSendList) (msgid : Nat) : CoAPSendList :=
  let g := coapMessageIdCancelGo msgid s.list s.count
  { s with list := g.1, count := g.2 }

/-! ### The steps -/

/-- The calls that touch the send list. -/
inductive CoapSendEvent where
  | send (remote : NetworkAddr) (message : CoAPMessage) (handler : Option Nat) (user keep : Nat)
      (writeOk : Bool)
  | write
  | recv (remote : NetworkAddr) (datagram : List UInt8)
  | cancel (msgid : Nat)
  deriving DecidableEq, Repr

/-- One call under `list_mutex`. A datagram is read into the receive buffer of
`COAP_MSG_MAX_PDU_LEN` bytes, and an empty read handles nothing. -/
def coapSendStep (s : CoAPSendList) : CoapSendEvent → CoAPSendList × List CoapEffect
  | .send remote message handler user keep writeOk =>
    let r := coapMessageSend s remote message handler user keep writeOk
    (r.2.1, r.2.2)
  | .write => coapMessageWrite s
  | .recv remote datagram =>
    if 0 < (datagram.take coapMsgMaxPduLen).length then
      coapMessageHandle s remote (datagram.take coapMsgMaxPduLen)
    else (s, [])
  | .cancel msgid => (coapMessageIdCancel s msgid, [])

/-! ### The invariant of the list -/

/-- What every call keeps of the send list: `count` is the number of linked nodes and
stays within `maxcount`, an `unsigned char`, and no node has been retransmitted more
than `COAP_MAX_RETRY_COUNT` times. -/
structure SendListInv (s : CoAPSendList) : Prop where
  count_eq : s.count = s.list.length
  length_le : s.list.length ≤ s.maxcount
  maxcount_lt : s.maxcount < 256
  retrans_le : ∀ node ∈ s.list, node.retransCount ≤ coapMaxRetryCount

theorem sendListInv_init (sendMaxcount : Nat) : SendListInv (coapSendListInit sendMaxcount) := by
  refine ⟨rfl, Nat.zero_le _, ?_, fun _ h => by simp [coapSendListInit] at h⟩
  unfold coapSendListInit coapDefaultSendlistMaxcount
  dsimp only
  split_ifs <;> omega

theorem countDown_eq {count : Nat} (h₀ : 0 < count) (h : count < 256) : countDown count = count - 1 := by
  unfold countDown
  omega

theorem sendListInv_coapMessageListAdd {s : CoAPSendList} (hs : SendListInv s) (remote : NetworkAddr)
    (message : CoAPMessage) (handler : Option Nat) (user keep : Nat) (buffer : List UInt8) (len : Nat) :
    SendListInv (coapMessageListAdd s remote message handler user keep buffer len).2 := by
  unfold coapMessageListAdd
  by_cases hfull : s.maxcount ≤ s.count
  · rw [if_pos hfull]
    exact hs
  · rw [if_neg hfull]
    have hcount := hs.count_eq
    have hmax := hs.maxcount_lt
    refine ⟨?_, ?_, hmax, ?_⟩
    · simp only [List.length_append, List.length_singleton]
      omega
    · simp only [List.length_append, List.length_singleton]
      omega
    · intro node hnode
      rcases List.mem_append.mp hnode with h | h
      · exact hs.retrans_le node h
      · rw [List.mem_singleton.mp h]
        dsimp only
        split_ifs <;> simp [coapMaxRetryCount]

theorem sendListInv_coapMessageSend {s : CoAPSendList} (hs : SendListInv s) (remote : NetworkAddr)
    (message : CoAPMessage) (handler : Option Nat) (user keep : Nat) (writeOk : Bool) :
    SendListInv (coapMessageSend s remote message handler user keep writeOk).2.1 := by
  unfold coapMessageSend
  by_cases hlen : coapMsgMaxPduLen < coapSerializeMessageLength message
  · rw [if_pos hlen]
    exact hs
  · rw [if_neg hlen]
    dsimp only
    cases writeOk with
    | false => exact hs
    | true =>
      by_cases hlist : (coapReqMsg message.header || coapConRespMsg message.header) = true
      · rw [if_pos rfl, if_pos hlist]
        exact sendListInv_coapMessageListAdd hs _ _ _ _ _ _ _
      · rw [if_pos rfl, if_neg hlist]
        exact hs

/-- A message that is neither a request nor a CON response never enters the list. -/
theorem coapMessageSend_list {message : CoAPMessage} (hreq : coapReqMsg message.header = false)
    (hcon : coapConRespMsg message.header = false) (s : CoAPSendList) (remote : NetworkAddr)
    (handler : Option Nat) (user keep : Nat) (writeOk : Bool) :
    (coapMessageSend s remote message handler user keep writeOk).2.1 = s := by
  unfold coapMessageSend
  split_ifs <;> simp_all

theorem coapAckMessage_list (msgid : Nat) :
    coapReqMsg (coapAckMessage msgid).header = false ∧ coapConRespMsg (coapAckMessage msgid).header = false :=
  ⟨rfl, rfl⟩

theorem coapRestMessage_list (msgid : Nat) :
    coapReqMsg (coapRestMessage msgid).header = false ∧ coapConRespMsg (coapRestMessage msgid).header = false :=
  ⟨rfl, rfl⟩

/-- The ACK handler unlinks at most the node it finds and changes no retransmission
count. -/
theorem coapAckMessageHandleGo_spec (msgid : Nat) (list : List CoAPSendNode) :
    (coapAckMessageHandleGo msgid list).1.length + (if (coapAckMessageHandleGo msgid list).2 then 1 else 0) =
        list.length ∧
      ∀ node ∈ (coapAckMessageHandleGo msgid list).1, ∃ m ∈ list, node.retransCount = m.retransCount := by
  induction list with
  | nil => simp [coapAckMessageHandleGo]
  | cons n rest ih =>
    obtain ⟨hlen, hmem⟩ := ih
    unfold coapAckMessageHandleGo
    by_cases hid : n.header.msgid = msgid
    · rw [if_pos hid]
      by_cases hresp : coapRespMsg n.header = true
      · rw [if_pos hresp]
        exact ⟨by simp, fun node h => ⟨node, List.mem_cons_of_mem n h, rfl⟩⟩
      · rw [if_neg hresp]
        refine ⟨by simp, fun node h => ?_⟩
        rcases List.mem_cons.mp h with rfl | h
        · exact ⟨n, List.mem_cons_self, rfl⟩
        · exact ⟨node, List.mem_cons_of_mem n h, rfl⟩
    · rw [if_neg hid]
      refine ⟨by simp only [List.length_cons]; omega, fun node h => ?_⟩
      rcases List.mem_cons.mp h with rfl | h
      · exact ⟨node, List.mem_cons_self, rfl⟩
      · obtain ⟨m, hm, heq⟩ := hmem node h
        exact ⟨m, List.mem_cons_of_mem n hm, heq⟩

theorem sendListInv_coapAckMessageHandle {s : CoAPSendList} (hs : SendListInv s) (message : CoAPMessage) :
    SendListInv (coapAckMessageHandle s message) := by
  obtain ⟨hlen, hmem⟩ := coapAckMessageHandleGo_spec message.header.msgid s.list
  have hcount := hs.count_eq
  have hmax := hs.maxcount_lt
  have hle := hs.length_le
  refine ⟨?_, ?_, hmax, ?_⟩
  · unfold coapAckMessageHandle
    dsimp only
    split_ifs at hlen ⊢ with hrem
    · rw [countDown_eq (by omega) (by omega)]
      omega
    · omega
  · unfold coapAckMessageHandle
    dsimp only
    split_ifs at hlen <;> omega
  · intro node hnode
    obtain ⟨m, hm, heq⟩ := hmem node hnode
    rw [heq]
    exact hs.retrans_le m hm

/-- The response search unlinks at most the node it finds, and keeps the others. -/
theorem coapRespFind_spec {message : CoAPMessage} {list rest : List CoAPSendNode} {node : CoAPSendNode}
    (h : coapRespFind message list = some (node, rest)) :
    rest.length + (if node.keep then 0 else 1) = list.length ∧ ∀ m ∈ rest, m ∈ list := by
  induction list generalizing rest with
  | nil => simp [coapRespFind] at h
  | cons n ns ih =>
    unfold coapRespFind at h
    by_cases hm : coapTokenMatch message n = true
    · rw [if_pos hm] at h
      obtain ⟨rfl, rfl⟩ := Prod.mk.inj (Option.some.inj h)
      -- the node found is the first one: kept in place, or unlinked
      cases hk : n.keep
      · exact ⟨by simp, fun m hm => List.mem_cons_of_mem n (by simpa using hm)⟩
      · exact ⟨by simp, fun m hm => by simpa using hm⟩
    · rw [if_neg hm] at h
      obtain ⟨⟨m, rest'⟩, hfind, heq⟩ := Option.map_eq_some_iff.mp h
      simp only [Prod.mk.injEq] at heq
      obtain ⟨rfl, rfl⟩ := heq
      obtain ⟨hlen, hmem⟩ := ih hfind
      refine ⟨by simp only [List.length_cons]; omega, fun x hx => ?_⟩
      rcases List.mem_cons.mp hx with rfl | hx
      · exact List.mem_cons_self
      · exact List.mem_cons_of_mem n (hmem x hx)

/-- The ACK of a CON response leaves the list as it is. -/
theorem coapRespAck_fst (s : CoAPSendList) (remote : NetworkAddr) (message : CoAPMessage) :
    (coapRespAck s remote message).1 = s := by
  unfold coapRespAck
  split_ifs
  · exact coapMessageSend_list (coapAckMessage_list _).1 (coapAckMessage_list _).2 _ _ _ _ _ _
  · rfl

theorem sendListInv_coapRespMessageHandle {s : CoAPSendList} (hs : SendListInv s) (remote : NetworkAddr)
    (message : CoAPMessage) : SendListInv (coapRespMessageHandle s remote message).1 := by
  unfold coapRespMessageHandle
  dsimp only
  split
  · rw [coapRespAck_fst]
    exact hs
  · next node list hfind =>
    rw [coapRespAck_fst] at hfind ⊢
    obtain ⟨hlen, hmem⟩ := coapRespFind_spec hfind
    have hcount := hs.count_eq
    have hmax := hs.maxcount_lt
    have hle := hs.length_le
    refine ⟨?_, ?_, hmax, fun m hm => hs.retrans_le m (hmem m hm)⟩
    · dsimp only
      split_ifs at hlen ⊢
      · omega
      · rw [countDown_eq (by omega) (by omega)]
        omega
    · dsimp only
      split_ifs at hlen <;> omega

theorem sendListInv_coapMessageHandle {s : CoAPSendList} (hs : SendListInv s) (remote : NetworkAddr)
    (datagram : List UInt8) : SendListInv (coapMessageHandle s remote datagram).1 := by
  unfold coapMessageHandle
  dsimp only
  split
  · exact sendListInv_coapAckMessageHandle hs _
  · exact sendListInv_coapRespMessageHandle hs _ _
  · rw [coapMessageSend_list (coapRestMessage_list _).1 (coapRestMessage_list _).2]
    exact hs
  · exact hs
  · exact hs

theorem coapMessageRetransmit_retrans {node : CoAPSendNode} (hnode : node.retransCount ≤ coapMaxRetryCount) :
    (coapMessageRetransmit node).1.retransCount ≤ coapMaxRetryCount := by
  unfold coapMessageRetransmit
  by_cases hr : node.retransCount < coapMaxRetryCount
  · rw [if_pos hr]
    exact hr
  · rw [if_neg hr]
    exact hnode

/-- A retransmission writes only a node that was not acked, below its retry count. -/
theorem coapMessageRetransmit_write {node : CoAPSendNode} {remote : NetworkAddr} {bytes : List UInt8}
    (h : CoapEffect.write remote bytes ∈ (coapMessageRetransmit node).2) :
    node.acked = false ∧ node.retransCount < coapMaxRetryCount ∧ remote = node.remote ∧ bytes = node.message := by
  unfold coapMessageRetransmit at h
  split_ifs at h with hr hack
  · simp at h
  · simp only [List.mem_singleton, CoapEffect.write.injEq] at h
    exact ⟨by simpa using hack, hr, h⟩
  · simp at h

/-- A node's turn in a tick keeps it within its retransmissions. -/
theorem coapMessageWriteNode_retrans {node node' : CoAPSendNode}
    (hnode : node.retransCount ≤ coapMaxRetryCount) (h : (coapMessageWriteNode node).1 = some node') :
    node'.retransCount ≤ coapMaxRetryCount := by
  unfold coapMessageWriteNode at h
  by_cases h0 : node.timeout = 0
  · rw [if_pos h0] at h
    dsimp only at h
    split_ifs at h
    cases h
    exact coapMessageRetransmit_retrans hnode
  · rw [if_neg h0] at h
    cases h
    exact hnode

/-- A tick resends only a node that was not acked, and only below its retry count: a
node is written at most `1 + COAP_MAX_RETRY_COUNT` times. -/
theorem coapMessageWriteNode_write {node : CoAPSendNode} {remote : NetworkAddr} {bytes : List UInt8}
    (h : CoapEffect.write remote bytes ∈ (coapMessageWriteNode node).2) :
    node.acked = false ∧ node.retransCount < coapMaxRetryCount ∧ remote = node.remote ∧ bytes = node.message := by
  unfold coapMessageWriteNode at h
  by_cases h0 : node.timeout = 0
  · rw [if_pos h0] at h
    dsimp only at h
    -- the handler call of an unlinked node is not a write
    have hcall : ∀ (n : CoAPSendNode) r, CoapEffect.write remote bytes ∉ handlerCall n .recvRespTimeout r := by
      intro n r
      unfold handlerCall
      split <;> simp
    split_ifs at h
    · rcases List.mem_append.mp h with h | h
      · exact coapMessageRetransmit_write h
      · exact absurd h (hcall _ _)
    · exact coapMessageRetransmit_write h
  · rw [if_neg h0] at h
    simp at h

/-- A tick keeps the count of the nodes it keeps, from a count that is the number of
nodes plus `k`. -/
theorem coapMessageWriteGo_spec (list : List CoAPSendNode) :
    ∀ count k, count = list.length + k → count < 256 →
      (∀ node ∈ list, node.retransCount ≤ coapMaxRetryCount) →
      (coapMessageWriteGo list count).2.1 = (coapMessageWriteGo list count).1.length + k ∧
        (coapMessageWriteGo list count).1.length ≤ list.length ∧
        ∀ node ∈ (coapMessageWriteGo list count).1, node.retransCount ≤ coapMaxRetryCount := by
  induction list with
  | nil =>
    intro count k hc _ _
    simp [coapMessageWriteGo, hc]
  | cons n rest ih =>
    intro count k hc hlt hret
    obtain ⟨hn, hrest⟩ := List.forall_mem_cons.mp hret
    simp only [List.length_cons] at hc
    unfold coapMessageWriteGo
    dsimp only
    -- the node is kept, with the count as it is, or unlinked, with one less
    cases hr : (coapMessageWriteNode n).1 with
    | some n' =>
      obtain ⟨hcount, hlen, hmem⟩ := ih count (k + 1) (by omega) hlt hrest
      simp only [Option.isSome_some, if_true, Option.toList_some, List.singleton_append, List.length_cons]
      refine ⟨by omega, by omega, fun m hm => ?_⟩
      rcases List.mem_cons.mp hm with rfl | hm
      · exact coapMessageWriteNode_retrans hn hr
      · exact hmem m hm
    | none =>
      have hdown : countDown count = rest.length + k := by
        rw [countDown_eq (by omega) hlt]
        omega
      obtain ⟨hcount, hlen, hmem⟩ := ih (countDown count) k hdown (by omega) hrest
      simp only [Option.isSome_none, Bool.false_eq_true, if_false, Option.toList_none, List.nil_append,
        List.length_cons]
      exact ⟨hcount, by omega, hmem⟩

theorem sendListInv_coapMessageWrite {s : CoAPSendList} (hs : SendListInv s) :
    SendListInv (coapMessageWrite s).1 := by
  have hcount := hs.count_eq
  have hmax := hs.maxcount_lt
  have hle := hs.length_le
  obtain ⟨hcount', hlen, hmem⟩ :=
    coapMessageWriteGo_spec s.list s.count 0 (by rw [hcount]; rfl) (by omega) hs.retrans_le
  exact ⟨hcount', by dsimp only [coapMessageWrite]; omega, hmax, hmem⟩

/-- A cancel keeps the count of the nodes it keeps, from a count that is the number of
nodes plus `k`. -/
theorem coapMessageIdCancelGo_spec (msgid : Nat) (list : List CoAPSendNode) :
    ∀ count k, count = list.length + k → count < 256 →
      (coapMessageIdCancelGo msgid list count).2 = (coapMessageIdCancelGo msgid list count).1.length + k ∧
        (coapMessageIdCancelGo msgid list count).1.length ≤ list.length ∧
        ∀ node ∈ (coapMessageIdCancelGo msgid list count).1, node ∈ list := by
  induction list with
  | nil =>
    intro count k hc _
    simp [coapMessageIdCancelGo, hc]
  | cons n rest ih =>
    intro count k hc hlt
    simp only [List.length_cons] at hc
    unfold coapMessageIdCancelGo
    by_cases hid : n.header.msgid = msgid
    · rw [if_pos hid]
      obtain ⟨hcount, hlen, hmem⟩ := ih (countDown count) k
        (by rw [countDown_eq (by omega) hlt]; omega) (by unfold countDown; omega)
      exact ⟨hcount, by simp only [List.length_cons]; omega, fun m hm => List.mem_cons_of_mem n (hmem m hm)⟩
    · rw [if_neg hid]
      obtain ⟨hcount, hlen, hmem⟩ := ih count (k + 1) (by omega) hlt
      refine ⟨by simp only [List.length_cons]; omega, by simp only [List.length_cons]; omega, fun m hm => ?_⟩
      rcases List.mem_cons.mp hm with rfl | hm
      · exact List.mem_cons_self
      · exact List.mem_cons_of_mem n (hmem m hm)

theorem sendListInv_coapMessageIdCancel {s : CoAPSendList} (hs : SendListInv s) (msgid : Nat) :
    SendListInv (coapMessageIdCancel s msgid) := by
  have hcount := hs.count_eq
  have hmax := hs.maxcount_lt
  have hle := hs.length_le
  obtain ⟨hcount', hlen, hmem⟩ :=
    coapMessageIdCancelGo_spec msgid s.list s.count 0 (by rw [hcount]; rfl) (by omega)
  exact ⟨hcount', by dsimp only [coapMessageIdCancel]; omega, hmax, fun m hm => hs.retrans_le m (hmem m hm)⟩

theorem sendListInv_coapSendStep {s : CoAPSendList} (hs : SendListInv s) (e : CoapSendEvent) :
    SendListInv (coapSendStep s e).1 := by
  cases e with
  | send remote message handler user keep writeOk => exact sendListInv_coapMessageSend hs _ _ _ _ _ _
  | write => exact sendListInv_coapMessageWrite hs
  | recv remote datagram =>
    simp only [coapSendStep]
    split_ifs
    · exact sendListInv_coapMessageHandle hs _ _
    · exact hs
  | cancel msgid => exact sendListInv_coapMessageIdCancel hs msgid

/-- Over every run from a fresh list, `count` is the number of linked nodes and never
exceeds `maxcount`, and no node has been retransmitted more than
`COAP_MAX_RETRY_COUNT` times. -/
theorem sendListInv_exec (sendMaxcount : Nat) (evs : List CoapSendEvent) :
    SendListInv (exec coapSendStep (coapSendListInit sendMaxcount) evs) :=
  exec_invariant SendListInv (fun _ => True) (fun _ e _ hs => sendListInv_coapSendStep hs e)
    (sendListInv_init sendMaxcount) (fun _ _ => trivial)

/-! ### What a call does to each node -/

/-- A tick is each node's turn in order: the nodes it keeps are those the turns
keep, and what it does is what the turns do. -/
theorem coapMessageWriteGo_turns (list : List CoAPSendNode) (count : Nat) :
    (coapMessageWriteGo list count).1 = list.filterMap (fun node => (coapMessageWriteNode node).1) ∧
      (coapMessageWriteGo list count).2.2 = list.flatMap (fun node => (coapMessageWriteNode node).2) := by
  induction list generalizing count with
  | nil => simp [coapMessageWriteGo]
  | cons node rest ih =>
    obtain ⟨hl, he⟩ := ih (if (coapMessageWriteNode node).1.isSome then count else countDown count)
    refine ⟨?_, by simp only [coapMessageWriteGo, he, List.flatMap_cons]⟩
    simp only [coapMessageWriteGo, hl, List.filterMap_cons]
    cases (coapMessageWriteNode node).1 <;> simp

@[simp] theorem coapMessageRetransmit_handler (node : CoAPSendNode) :
    (coapMessageRetransmit node).1.handler = node.handler := by
  unfold coapMessageRetransmit
  split <;> rfl

/-- A retransmission calls no handler. -/
theorem coapMessageRetransmit_no_callback (node : CoAPSendNode) (h : Nat) (result : CoAPReqResult)
    (user : Nat) (remote : NetworkAddr) :
    CoapEffect.callback h result user remote ∉ (coapMessageRetransmit node).2 := by
  unfold coapMessageRetransmit
  split_ifs <;> simp

/-- A retransmission that writes the node counts it. -/
theorem coapMessageRetransmit_counted {node : CoAPSendNode} {remote : NetworkAddr} {bytes : List UInt8}
    (h : CoapEffect.write remote bytes ∈ (coapMessageRetransmit node).2) :
    (coapMessageRetransmit node).1.retransCount = node.retransCount + 1 := by
  unfold coapMessageRetransmit at h ⊢
  split_ifs at h ⊢
  · rfl
  · rfl
  · simp at h

/-- A node's turn that writes it, and keeps it, counts the retransmission. -/
theorem coapMessageWriteNode_counted {node node' : CoAPSendNode} {remote : NetworkAddr} {bytes : List UInt8}
    (h : CoapEffect.write remote bytes ∈ (coapMessageWriteNode node).2)
    (hkeep : (coapMessageWriteNode node).1 = some node') : node'.retransCount = node.retransCount + 1 := by
  unfold coapMessageWriteNode at h hkeep
  by_cases h0 : node.timeout = 0
  · rw [if_pos h0] at h hkeep
    dsimp only at h hkeep
    split_ifs at h hkeep
    cases hkeep
    exact coapMessageRetransmit_counted h
  · rw [if_neg h0] at h
    simp at h

/-- A node's turn calls a handler only with `COAP_RECV_RESP_TIMEOUT`, only as it
unlinks the node, and only the node's handler. -/
theorem coapMessageWriteNode_callback {node : CoAPSendNode} {h user : Nat} {result : CoAPReqResult}
    {remote : NetworkAddr} (hc : CoapEffect.callback h result user remote ∈ (coapMessageWriteNode node).2) :
    result = .recvRespTimeout ∧ (coapMessageWriteNode node).1 = none ∧ node.handler = some h := by
  unfold coapMessageWriteNode at hc ⊢
  by_cases h0 : node.timeout = 0
  · rw [if_pos h0] at hc ⊢
    dsimp only at hc ⊢
    split_ifs at hc ⊢
    · rcases List.mem_append.mp hc with hc | hc
      · exact absurd hc (coapMessageRetransmit_no_callback _ _ _ _ _)
      · unfold handlerCall at hc
        split at hc
        · rename_i hh
          simp only [List.mem_singleton, CoapEffect.callback.injEq] at hc
          rw [← coapMessageRetransmit_handler, hh, hc.1]
          exact ⟨hc.2.1, rfl, rfl⟩
        · simp at hc
    · exact absurd hc (coapMessageRetransmit_no_callback _ _ _ _ _)
  · rw [if_neg h0] at hc
    simp at hc

/-- `CoAPMessage_send` writes and calls no handler. -/
theorem coapMessageSend_no_callback (s : CoAPSendList) (remote : NetworkAddr) (message : CoAPMessage)
    (handler : Option Nat) (user keep : Nat) (writeOk : Bool) (h : Nat) (result : CoAPReqResult) (user' : Nat)
    (remote' : NetworkAddr) :
    CoapEffect.callback h result user' remote' ∉ (coapMessageSend s remote message handler user keep writeOk).2.2 := by
  unfold coapMessageSend
  split_ifs <;> simp

/-- The response search finds the first node whose token matches, and unlinks it
unless it is kept. -/
theorem coapRespFind_eq_some {message : CoAPMessage} {list rest : List CoAPSendNode} {node : CoAPSendNode}
    (h : coapRespFind message list = some (node, rest)) :
    ∃ pre post, list = pre ++ node :: post ∧ (∀ m ∈ pre, coapTokenMatch message m = false) ∧
      coapTokenMatch message node = true ∧ rest = pre ++ if node.keep then node :: post else post := by
  induction list generalizing rest with
  | nil => simp [coapRespFind] at h
  | cons n ns ih =>
    unfold coapRespFind at h
    by_cases hm : coapTokenMatch message n = true
    · rw [if_pos hm] at h
      obtain ⟨rfl, rfl⟩ := Prod.mk.inj (Option.some.inj h)
      exact ⟨[], ns, rfl, by simp, hm, rfl⟩
    · rw [if_neg hm] at h
      obtain ⟨⟨m, rest'⟩, hfind, heq⟩ := Option.map_eq_some_iff.mp h
      obtain ⟨rfl, rfl⟩ := Prod.mk.inj heq
      obtain ⟨pre, post, hl, hpre, hnode, hrest⟩ := ih hfind
      refine ⟨n :: pre, post, by rw [hl]; rfl, ?_, hnode, by rw [hrest]; rfl⟩
      exact List.forall_mem_cons.mpr ⟨by simpa using hm, hpre⟩

/-- What a received datagram calls: a handler with `COAP_REQUEST_SUCCESS`, for the
node the response search finds, which leaves the list as the search does. -/
theorem coapMessageHandle_callback {s : CoAPSendList} {remote remote' : NetworkAddr} {datagram : List UInt8}
    {h user : Nat} {result : CoAPReqResult}
    (hc : CoapEffect.callback h result user remote' ∈ (coapMessageHandle s remote datagram).2) :
    result = .requestSuccess ∧ remote' = remote ∧ ∃ node, node.handler = some h ∧
      coapRespFind (coapParse datagram) s.list = some (node, (coapMessageHandle s remote datagram).1.list) := by
  unfold coapMessageHandle at hc ⊢
  dsimp only at hc ⊢
  split at hc
  · simp at hc
  · unfold coapRespMessageHandle at hc ⊢
    dsimp only at hc ⊢
    have hack : CoapEffect.callback h result user remote' ∉ (coapRespAck s remote (coapParse datagram)).2 := by
      unfold coapRespAck
      split
      · exact coapMessageSend_no_callback _ _ _ _ _ _ _ _ _ _ _
      · simp
    rw [coapRespAck_fst] at hc ⊢
    split at hc
    · exact absurd hc hack
    · rename_i node list hfind
      rw [hfind]
      rcases List.mem_append.mp hc with hc | hc
      · exact absurd hc hack
      · unfold handlerCall at hc
        split at hc
        · rename_i hh
          simp only [List.mem_singleton, CoapEffect.callback.injEq] at hc
          exact ⟨hc.2.1, hc.2.2.2, node, hh.trans (congrArg some hc.1.symm), rfl⟩
        · simp at hc
  · exact absurd hc (coapMessageSend_no_callback _ _ _ _ _ _ _ _ _ _ _)
  · simp at hc
  · simp at hc

/-- Handlers are called with `COAP_RECV_RESP_TIMEOUT` only by ticks, and with
`COAP_REQUEST_SUCCESS` only by a response from the endpoint the handler is given,
for the node the response search finds. -/
theorem coapSendStep_callback {s : CoAPSendList} {e : CoapSendEvent} {h user : Nat} {result : CoAPReqResult}
    {remote : NetworkAddr} (hc : CoapEffect.callback h result user remote ∈ (coapSendStep s e).2) :
    e = .write ∨ result = .requestSuccess ∧ ∃ datagram node, e = .recv remote datagram ∧
      node.handler = some h ∧
      coapRespFind (coapParse (datagram.take coapMsgMaxPduLen)) s.list = some (node, (coapSendStep s e).1.list) := by
  cases e with
  | send remote' message handler user' keep writeOk =>
    exact absurd hc (coapMessageSend_no_callback _ _ _ _ _ _ _ _ _ _ _)
  | write => exact .inl rfl
  | recv remote' datagram =>
    simp only [coapSendStep] at hc ⊢
    split_ifs at hc ⊢
    · obtain ⟨hres, rfl, node, hh, hfind⟩ := coapMessageHandle_callback hc
      exact .inr ⟨hres, datagram, node, rfl, hh, hfind⟩
    · simp at hc
  | cancel msgid => simp [coapSendStep] at hc

/-- What each call of a run does to the nodes. Every call keeps `count` the number of
linked nodes, within `maxcount`, and every node within `COAP_MAX_RETRY_COUNT`
retransmissions. A tick gives each node one turn, which writes the node again only
when it was not acked and is below its retry count, counting the retransmission in
the node it keeps, and calls the node's handler with `COAP_RECV_RESP_TIMEOUT` only as
it unlinks it. A handler is called with `COAP_REQUEST_SUCCESS` only by a received
response, for the first node whose token the response carries (a token of non-zero
length, equal in length and bytes), and that node is unlinked unless it is kept;
the endpoint the response came from is not compared with the node's. -/
theorem coapSendStep_token_protocol (sendMaxcount : Nat) (evs : List CoapSendEvent) (e : CoapSendEvent) :
    let s := exec coapSendStep (coapSendListInit sendMaxcount) evs
    SendListInv (coapSendStep s e).1 ∧
      (e = .write →
        (coapSendStep s e).1.list = s.list.filterMap (fun node => (coapMessageWriteNode node).1) ∧
          (coapSendStep s e).2 = s.list.flatMap (fun node => (coapMessageWriteNode node).2)) ∧
      (∀ node remote bytes, CoapEffect.write remote bytes ∈ (coapMessageWriteNode node).2 →
        node.acked = false ∧ node.retransCount < coapMaxRetryCount ∧
          ∀ node', (coapMessageWriteNode node).1 = some node' → node'.retransCount = node.retransCount + 1) ∧
      (∀ h user remote, CoapEffect.callback h .recvRespTimeout user remote ∈ (coapSendStep s e).2 →
        e = .write ∧ ∃ node ∈ s.list, (coapMessageWriteNode node).1 = none ∧ node.handler = some h) ∧
      (∀ h user remote, CoapEffect.callback h .requestSuccess user remote ∈ (coapSendStep s e).2 →
        ∃ datagram pre node post, e = .recv remote datagram ∧ s.list = pre ++ node :: post ∧
          (∀ m ∈ pre, coapTokenMatch (coapParse (datagram.take coapMsgMaxPduLen)) m = false) ∧
          coapTokenMatch (coapParse (datagram.take coapMsgMaxPduLen)) node = true ∧ node.handler = some h ∧
          (coapSendStep s e).1.list = pre ++ if node.keep then node :: post else post) := by
  intro s
  have hturns : e = .write →
      (coapSendStep s e).1.list = s.list.filterMap (fun node => (coapMessageWriteNode node).1) ∧
        (coapSendStep s e).2 = s.list.flatMap (fun node => (coapMessageWriteNode node).2) := by
    rintro rfl
    exact coapMessageWriteGo_turns s.list s.count
  refine ⟨sendListInv_coapSendStep (sendListInv_exec sendMaxcount evs) e, hturns, ?_, ?_, ?_⟩
  · intro node remote bytes hw
    obtain ⟨hack, hretry, -, -⟩ := coapMessageWriteNode_write hw
    exact ⟨hack, hretry, fun node' hkeep => coapMessageWriteNode_counted hw hkeep⟩
  · intro h user remote hc
    -- a timeout comes from a tick, and there from the turn of one node
    have hw : e = .write := by
      rcases coapSendStep_callback hc with hw | ⟨hres, -⟩
      · exact hw
      · cases hres
    rw [(hturns hw).2, List.mem_flatMap] at hc
    obtain ⟨node, hnode, hc⟩ := hc
    exact ⟨hw, node, hnode, (coapMessageWriteNode_callback hc).2⟩
  · intro h user remote hc
    rcases coapSendStep_callback hc with rfl | ⟨-, datagram, node, rfl, hh, hfind⟩
    · -- a tick calls handlers only with timeouts
      rw [(hturns rfl).2, List.mem_flatMap] at hc
      obtain ⟨node, -, hc⟩ := hc
      cases (coapMessageWriteNode_callback hc).1
    · obtain ⟨pre, post, hl, hpre, hnode, hrest⟩ := coapRespFind_eq_some hfind
      exact ⟨datagram, pre, node, post, rfl, hl, hpre, hnode, hh, hrest⟩

/-! ### The buffer of `CoAPMessage_send` -/

/-- `CoAPSerialize_Payload` writes only after `ptr`. -/
theorem coapSerializePayload_stores {mem : Nat → UInt8} {bs : List UInt8} (h : Stores mem 0 bs)
    (msg : CoAPMessage) {ptr : Nat} (hle : bs.length ≤ ptr) (buflen : Int) :
    Stores (coapSerializePayload msg mem ptr buflen).2 0 bs := by
  unfold coapSerializePayload
  split_ifs
  · exact h
  · exact Stores.writeAt_of_le h (by omega) _
  · exact h

/-- Given room for the header and the token, `CoAPSerialize_Message` writes the header,
the token and every option from the start of the buffer, however little room
`buflen` leaves for the options: `CoAPSerialize_Options` is handed the remaining length
and never reads it. -/
theorem coapSerializeMessage_stores {msg : CoAPMessage} (hopt : (optionsBytes msg.options).length < 65536)
    {buflen : Nat} (hroom : 4 + msg.header.tokenlen ≤ buflen) (hb : buflen < 65536) (mem : Nat → UInt8) :
    Stores (coapSerializeMessage msg mem buflen).2 0
      (coapHeaderBytes msg ++ readAt (ofList msg.token 0) 0 msg.header.tokenlen ++ optionsBytes msg.options) := by
  have hhdr : (coapHeaderBytes msg).length = 4 := rfl
  unfold coapSerializeMessage
  dsimp only
  rw [Nat.mod_eq_of_lt hb, coapSerializeHeader_eq _ _ (by omega)]
  dsimp only
  rw [coapSerializeToken_eq _ _ (by omega)]
  dsimp only
  rw [coapSerializeOptions_eq _ _ _ hopt]
  dsimp only
  -- the three copies side by side are one copy from `0`
  have hmem : writeAt (writeAt (writeAt mem 0 (coapHeaderBytes msg)) 4
      (readAt (ofList msg.token 0) 0 msg.header.tokenlen)) (4 + msg.header.tokenlen) (optionsBytes msg.options) =
      writeAt mem 0 (coapHeaderBytes msg ++ readAt (ofList msg.token 0) 0 msg.header.tokenlen ++
        optionsBytes msg.options) := by
    rw [← writeAt_append, ← writeAt_append]
    simp [hhdr]
  rw [hmem]
  exact coapSerializePayload_stores (stores_writeAt _ _ _) msg
    (by simp only [List.length_append, hhdr, readAt_length]; omega) _

/-- A string option of `65535` bytes: `CoAPSerialize_OptionLen` counts its `65538`
bytes as `2` in an `unsigned short`. -/
theorem coapSerializeOptionLen_wraps {data : List UInt8} (hl : data.length = 65535) (num : Nat) (hnum : num < 13) :
    (coapSerializeOption ⟨num, data.length, data⟩).length = 65538 ∧
      coapSerializeOptionLen ⟨num, data.length, data⟩ = 2 := by
  have hnum' : optionExt num = [] := by
    unfold optionExt
    rw [if_neg (by omega), if_neg (by omega)]
  have hlen' : (optionExt data.length).length = 2 := by
    unfold optionExt
    rw [if_pos (by omega)]
    rfl
  refine ⟨?_, ?_⟩
  · rw [coapSerializeOption_length, hnum', hlen', List.length_nil]
    dsimp only
    omega
  · unfold coapSerializeOptionLen
    dsimp only
    rw [if_neg (show ¬269 ≤ num by omega), if_neg (show ¬13 ≤ num by omega),
      if_pos (show 269 ≤ data.length by omega), hl]

/-- The message of `CoAPMessage_init`, a CON GET with message id `1` and one string
option numbered `1` holding `data`. -/
theorem coapBuild_longOption (data : List UInt8) :
    coapBuild coapMessageTypeCon 1 1 [] [.str 1 data] [] =
      { header := ⟨coapCurVersion, coapMessageTypeCon, 0, 1, 1⟩,
        token := List.replicate coapMsgMaxTokenLen 0, options := [⟨1, data.length, data⟩], optdelta := 1,
        payloadlen := 0, payload := [] } := by
  simp [coapBuild, coapMessageInit, CoAPMessage.zero, coapMessageTypeSet, coapMessageCodeSet, coapMessageIdSet,
    coapMessageTokenSet, coapOptionsAdd, coapOptionAdd, coapStrOptionAdd, optionDelta, coapMessagePayloadSet,
    coapMessageTypeCon, coapMessageTypeNon, coapMessageTypeAck, coapMessageTypeRst, coapMsgMaxOptionNum,
    coapMsgMaxTokenLen]

/-- The buffer of `CoAPMessage_send` is the memory `CoAPSerialize_Message` leaves. -/
theorem coapMessageSendBuffer_snd (msg : CoAPMessage) (heap : Nat → UInt8) :
    (coapMessageSendBuffer msg heap).2 =
      (coapSerializeMessage msg (writeAt heap 0 (List.replicate (coapSerializeMessageLength msg) 0))
        (coapSerializeMessageLength msg)).2 := rfl

/-- With room for the header and the token, `CoAPSerialize_Message` of a message with
one option and no payload writes the option's bytes after the token, however many
they are. -/
theorem coapSerializeMessage_single_option {msg : CoAPMessage} {o : CoAPMsgOption} (ho : msg.options = [o])
    (hp : msg.payloadlen = 0) {buflen : Nat} (hroom : 4 + msg.header.tokenlen ≤ buflen) (hb : buflen < 65536)
    (mem : Nat → UInt8) :
    Stores (coapSerializeMessage msg mem buflen).2 (4 + msg.header.tokenlen) (coapSerializeOption o) := by
  -- the option loop writes the one option whatever it counts
  have hopt : ∀ mem₁ ptr, (coapSerializeOptions msg mem₁ ptr).2 = writeAt mem₁ ptr (coapSerializeOption o) := by
    intro mem₁ ptr
    unfold coapSerializeOptions
    rw [ho]
    simp only [coapSerializeOptions.go]
    split <;> simp
  -- and the payload, of no bytes, writes nothing
  have hpay : ∀ mem₁ ptr r, (coapSerializePayload msg mem₁ ptr r).2 = mem₁ := by
    intro mem₁ ptr r
    unfold coapSerializePayload
    rw [hp, if_neg (Nat.lt_irrefl 0)]
    split_ifs <;> rfl
  unfold coapSerializeMessage
  dsimp only
  rw [Nat.mod_eq_of_lt hb, coapSerializeHeader_eq _ _ (by omega)]
  dsimp only
  rw [coapSerializeToken_eq _ _ (by omega)]
  dsimp only
  rw [hpay, hopt]
  exact stores_writeAt _ _ _

/-- `CoAPMessage_send` of that message computes its length as `6` and serializes it into
a buffer of `6` bytes: the option's `65538` bytes are written from the fifth byte on. -/
theorem coapMessageSendBuffer_longOption {data : List UInt8} (hl : data.length = 65535) (heap : Nat → UInt8) :
    coapSerializeMessageLength (coapBuild coapMessageTypeCon 1 1 [] [.str 1 data] []) = 6 ∧
      Stores (coapMessageSendBuffer (coapBuild coapMessageTypeCon 1 1 [] [.str 1 data] []) heap).2 4
        (coapSerializeOption ⟨1, data.length, data⟩) := by
  have hlen := (coapSerializeOptionLen_wraps hl 1 (by decide)).2
  have h6 : ∀ m : CoAPMessage, m.header.tokenlen = 0 → m.options = [⟨1, data.length, data⟩] →
      m.payloadlen = 0 → coapSerializeMessageLength m = 6 := by
    intro m ht ho hp
    simp [coapSerializeMessageLength, coapSerializeOptionsLen, coapSerializeOptionsLen.go, ht, ho, hp, hlen]
  rw [coapBuild_longOption]
  refine ⟨h6 _ rfl rfl rfl, ?_⟩
  rw [coapMessageSendBuffer_snd]
  exact coapSerializeMessage_single_option rfl rfl (by rw [h6 _ rfl rfl rfl]; simp)
    (by rw [h6 _ rfl rfl rfl]; decide) _

/-- `CoAPSerialize_Message` writes past the buffer it is given. With room for the header
and the token, it writes every option from the start of the buffer, however small
`buflen` is. And `CoAPSerialize_MessageLength` adds in an `unsigned short`: a message
built with one string option of `65535` bytes has `65542` bytes, but its length is
computed as `6`, which `CoAPMessage_send` accepts; the buffer of `6` bytes it then
allocates receives the `65538` bytes of the option from its fifth byte on. -/
theorem coapMessageSend_overruns_buffer :
    (∀ (msg : CoAPMessage) (buflen : Nat) (mem : Nat → UInt8), (optionsBytes msg.options).length < 65536 →
      4 + msg.header.tokenlen ≤ buflen → buflen < 65536 →
      Stores (coapSerializeMessage msg mem buflen).2 0
        (coapHeaderBytes msg ++ readAt (ofList msg.token 0) 0 msg.header.tokenlen ++ optionsBytes msg.options)) ∧
    (∀ (data : List UInt8) (heap : Nat → UInt8), data.length = 65535 →
      coapSerializeMessageLength (coapBuild coapMessageTypeCon 1 1 [] [.str 1 data] []) = 6 ∧
        (coapMessageBytes (coapBuild coapMessageTypeCon 1 1 [] [.str 1 data] [])).length = 65542 ∧
        Stores (coapMessageSendBuffer (coapBuild coapMessageTypeCon 1 1 [] [.str 1 data] []) heap).2 4
          (coapSerializeOption ⟨1, data.length, data⟩)) := by
  refine ⟨fun msg buflen mem hopt hroom hb => coapSerializeMessage_stores hopt hroom hb mem, ?_⟩
  intro data heap hl
  obtain ⟨h6, hstores⟩ := coapMessageSendBuffer_longOption hl heap
  have hbytes := (coapSerializeOptionLen_wraps hl 1 (by decide)).1
  refine ⟨h6, ?_, hstores⟩
  rw [coapBuild_longOption, coapMessageBytes_length, payloadBytes_length]
  simp [hbytes]

/-- A CON GET with one unsigned option, serialized into a buffer of only the `4`
header bytes: its option is written past them. -/
theorem coapMessageSend_overruns_buffer_header_only :
    let msg := coapBuild coapMessageTypeCon 1 1 [] [.uint coapOptionUriPath 5] []
    (optionsBytes msg.options).length < 65536 ∧ 4 + msg.header.tokenlen ≤ 4 ∧ 4 < 65536 ∧
      Stores (coapSerializeMessage msg (fun _ => 0) 4).2 0
        (coapHeaderBytes msg ++ readAt (ofList msg.token 0) 0 msg.header.tokenlen ++ optionsBytes msg.options) :=
  ⟨by decide, by decide, by decide,
    coapMessageSend_overruns_buffer.1 _ 4 _ (by decide) (by decide) (by decide)⟩

/-! ### Responses are matched by token alone -/

/-- The response search finds the first node whose token matches. -/
theorem coapRespFind_append {message : CoAPMessage} {pre post : List CoAPSendNode} {node : CoAPSendNode}
    (hpre : ∀ m ∈ pre, coapTokenMatch message m = false) (hnode : coapTokenMatch message node = true) :
    coapRespFind message (pre ++ node :: post) = some (node, pre ++ if node.keep then node :: post else post) := by
  induction pre with
  | nil => simp [coapRespFind, hnode]
  | cons m pre ih =>
    obtain ⟨hm, hpre⟩ := List.forall_mem_cons.mp hpre
    simp [coapRespFind, hm, ih hpre]

/-- A datagram the list reads as a response goes to `CoAPRespMessage_handle`. -/
theorem coapSendStep_resp {datagram : List UInt8} (hlen : 0 < datagram.length)
    (hpdu : datagram.length ≤ coapMsgMaxPduLen) (hresp : coapRoute (coapParse datagram).header = .respHandle)
    (s : CoAPSendList) (remote : NetworkAddr) :
    coapSendStep s (.recv remote datagram) = coapRespMessageHandle s remote (coapParse datagram) := by
  have htake : datagram.take coapMsgMaxPduLen = datagram := List.take_of_length_le hpdu
  simp only [coapSendStep, htake, if_pos hlen, coapMessageHandle, hresp]

/-- `CoAPRespMessage_handle` compares tokens and nothing else. Whatever the send list
and whoever sends it, a response datagram completes the first node whose token it
carries: the node is unlinked, and its handler is called with `COAP_REQUEST_SUCCESS`
and the sender's address, also when the request went to another endpoint. -/
theorem coapRespMessage_matches_token_only (s : CoAPSendList) (remote : NetworkAddr) (datagram : List UInt8)
    (hlen : 0 < datagram.length) (hpdu : datagram.length ≤ coapMsgMaxPduLen)
    (hresp : coapRoute (coapParse datagram).header = .respHandle)
    (pre post : List CoAPSendNode) (node : CoAPSendNode) (hs : s.list = pre ++ node :: post)
    (hpre : ∀ m ∈ pre, coapTokenMatch (coapParse datagram) m = false)
    (hnode : coapTokenMatch (coapParse datagram) node = true) (hkeep : node.keep = false)
    (h : Nat) (hh : node.handler = some h) :
    (coapSendStep s (.recv remote datagram)).1.list = pre ++ post ∧
      CoapEffect.callback h .requestSuccess node.user remote ∈ (coapSendStep s (.recv remote datagram)).2 := by
  rw [coapSendStep_resp hlen hpdu hresp]
  unfold coapRespMessageHandle
  dsimp only
  rw [coapRespAck_fst, hs, coapRespFind_append hpre hnode]
  simp only [hkeep, Bool.false_eq_true, if_false]
  refine ⟨trivial, List.mem_append_right _ ?_⟩
  simp [handlerCall, hh]

/-- Two hosts of a network. -/
def hostA : NetworkAddr := ⟨0x0A000001, 5683⟩
def hostB : NetworkAddr := ⟨0x0A000002, 5683⟩

/-- A CON GET with message id `1` and the one-byte token `7`, sent to `hostA` with the
handler `1`. -/
def sentToHostA : List CoapSendEvent :=
  [.send hostA (coapBuild coapMessageTypeCon 1 1 [7] [] []) (some 1) 0 0 true]

/-- The node `sentToHostA` links. -/
def hostANode : CoAPSendNode :=
  { header := ⟨1, 0, 1, 1, 1⟩, retransCount := 0, token := [7], timeout := 2, timeoutVal := 2, msglen := 5,
    handler := some 1, remote := hostA, user := 0, message := [0x41, 1, 0, 1, 7], acked := false,
    keep := false }

/-- A NON response `2.05` with message id `0x2222` and token `7`. -/
def tokenResponse : List UInt8 := [0x51, 0x45, 0x22, 0x22, 7]

/-- The response of `hostB` completes the request sent to `hostA`. -/
theorem coapRespMessage_matches_token_only_hostB :
    hostB ≠ hostANode.remote ∧
      (coapSendStep (exec coapSendStep (coapSendListInit 0) sentToHostA) (.recv hostB tokenResponse)).1.list =
        [] ++ [] ∧
      CoapEffect.callback 1 .requestSuccess hostANode.user hostB ∈
        (coapSendStep (exec coapSendStep (coapSendListInit 0) sentToHostA) (.recv hostB tokenResponse)).2 :=
  ⟨by decide,
    coapRespMessage_matches_token_only (exec coapSendStep (coapSendListInit 0) sentToHostA) hostB tokenResponse
      (by decide) (by decide) (by decide) [] [] hostANode (by decide) (by decide) (by decide) (by decide) 1
      (by decide)⟩

end Coap
