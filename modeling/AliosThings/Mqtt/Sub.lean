import AliosThings.Lib.Machine
import AliosThings.Mqtt.Topic

/-!
# The subscription table of the MQTT client

`sub_handle[]` holds the subscriptions, `IOTX_MC_SUB_NUM_MAX` slots of a filter, a
callback and its context; a slot whose filter is `NULL` is free. `list_sub_wait_ack`
holds the SUBSCRIBE and UNSUBSCRIBE requests that wait for their ACK, each with a copy
of a handler. The ACK handlers find that copy by packet id with
`iotx_mc_mask_subInfo_from`, and compare it with the slots by
`iotx_mc_check_handle_is_identical`, which compares the filter, the callback and the
context. `MQTTUnsubscribe` records its handler as `{topicFilter, {NULL, NULL}}`, while
every slot in use has a callback: the UNSUBACK handler finds no slot to clear.

The calls are atomic here, as the locks make them: `lock_list_sub` around the list,
`lock_generic` around the table. The client is connected when it is constructed, a
failed send disconnects it, and reconnection is not modelled. The serialized packets,
the send buffer and the start times of the requests are not modelled: a request fits
the buffer, and which requests time out is given to `MQTTSubInfoProc`. Callbacks are
named by their address, `0` being `NULL`.
-/

namespace Mqtt

def iotxMcSubNumMax : Nat := 30
def iotxMcSubRequestNumMax : Nat := 30
def iotxMcPacketIdMax : Nat := 65535

/-- `iotx_mc_topic_handle_t`. -/
structure TopicHandle where
  topicFilter : Option (List UInt8)
  hFp : Nat
  pcontext : Nat
  deriving DecidableEq, Repr

/-- A handle as `memset(..., 0, ...)` leaves it. -/
def TopicHandle.empty : TopicHandle := ⟨none, 0, 0⟩

/-- A slot in use: its filter is not `NULL`. -/
def TopicHandle.used (h : TopicHandle) : Bool := h.topicFilter.isSome

inductive SubType where
  | subscribe
  | unsubscribe
  deriving DecidableEq, Repr

inductive NodeState where
  | normal
  | invalid
  deriving DecidableEq, Repr

/-- `iotx_mc_subsribe_info_t` without its packet and start time. -/
structure SubInfo where
  nodeState : NodeState
  msgId : Nat
  type : SubType
  handler : TopicHandle
  deriving DecidableEq, Repr

/-- The fields of `iotx_mc_client_t` that subscriptions use. -/
structure SubClient where
  connected : Bool
  packetId : Nat
  subHandle : Nat → TopicHandle
  listSubWaitAck : List SubInfo

/-- A client after `IOT_MQTT_Construct`. -/
def subClientInit : SubClient := ⟨true, 0, fun _ => .empty, []⟩

/-- What the calls return. The values of these codes are not in these sources. -/
inductive SubRc where
  | msgId (id : Nat)
  | success
  | nullValueError
  | stateError
  | topicFormatError
  | pushToListError
  | networkError
  | subscribeAckFailure
  | subInfoNotFoundError
  | failReturn
  /-- The call read data that was never written. -/
  | undefined
  deriving DecidableEq, Repr

/-- `iotx_mc_check_handle_is_identical(h1, h2) == 0`. -/
def handleIsIdentical (h1 h2 : TopicHandle) : Bool :=
  h1.topicFilter == h2.topicFilter && h1.hFp == h2.hFp && h1.pcontext == h2.pcontext

/-- `iotx_mc_mask_subInfo_from`: from the tail of the list to its head, every node of
`msgId` is marked invalid and its handler copied out, so the caller gets the copy of
the node nearest the head; with no such node, it gets nothing. -/
def maskSubInfoFrom (msgId : Nat) (l : List SubInfo) : List SubInfo × Option TopicHandle :=
  l.foldr (fun n acc =>
    if n.msgId = msgId then ({ n with nodeState := .invalid } :: acc.1, some n.handler)
    else (n :: acc.1, acc.2)) ([], none)

namespace SubClient

variable (s : SubClient)

def setHandle (i : Nat) (h : TopicHandle) : SubClient :=
  { s with subHandle := Function.update s.subHandle i h }

/-- `iotx_mc_get_next_packetid`. -/
def nextPacketId : SubClient × Nat :=
  let id := if s.packetId = iotxMcPacketIdMax then 1 else s.packetId + 1
  ({ s with packetId := id }, id)

/-- `iotx_mc_push_subInfo_to`: a full list refuses the node. -/
def pushSubInfoTo (msgId : Nat) (type : SubType) (handler : TopicHandle) : Option SubClient :=
  if s.listSubWaitAck.length ≥ iotxMcSubRequestNumMax then none
  else some { s with listSubWaitAck := s.listSubWaitAck ++ [⟨.normal, msgId, type, handler⟩] }

/-- `MQTTSubscribe` and `MQTTUnsubscribe` after the packet id: the node goes on the list,
and comes off it again when the send fails, which disconnects the client. -/
def sendRequest (msgId : Nat) (type : SubType) (handler : TopicHandle) (sendOk : Bool) :
    SubClient × SubRc :=
  match s.pushSubInfoTo msgId type handler with
  | none => (s, .pushToListError)
  | some s' => if sendOk then (s', .msgId msgId) else ({ s with connected := false }, .networkError)

/-- `IOT_MQTT_Subscribe(handle, f, qos, hFp, pcontext)`, through `iotx_mc_subscribe`. -/
def iotMqttSubscribe (f : List UInt8) (hFp pcontext : Nat) (sendOk : Bool) : SubClient × SubRc :=
  if hFp = 0 then (s, .nullValueError)
  else if ¬ s.connected then (s, .stateError)
  else if ¬ iotxMcCheckTopicFilter f then (s, .topicFormatError)
  else
    let (s, msgId) := s.nextPacketId
    s.sendRequest msgId .subscribe ⟨some f, hFp, pcontext⟩ sendOk

/-- `IOT_MQTT_Unsubscribe(handle, f)`, through `iotx_mc_unsubscribe`, which takes its
packet id before its checks. -/
def iotMqttUnsubscribe (f : List UInt8) (sendOk : Bool) : SubClient × SubRc :=
  let (s, msgId) := s.nextPacketId
  if ¬ iotxMcCheckTopicFilter f then (s, .topicFormatError)
  else if ¬ s.connected then (s, .stateError)
  else s.sendRequest msgId .unsubscribe ⟨some f, 0, 0⟩ sendOk

/-- `iotx_mc_handle_recv_SUBACK` for a SUBACK of `msgId` granting `grantedQoS`. Its
loop stops at a slot identical to the handler; else the handler goes into the first
free slot. -/
def handleRecvSuback (msgId : Nat) (grantedQoS : UInt8) : SubClient × SubRc :=
  let (l, found) := maskSubInfoFrom msgId s.listSubWaitAck
  let s := { s with listSubWaitAck := l }
  let mh := found.getD .empty
  if grantedQoS = 0x80 then (s, .subscribeAckFailure)
  else if mh.hFp = 0 ∨ mh.topicFilter = none then (s, .subInfoNotFoundError)
  else if (List.range iotxMcSubNumMax).any (fun i => (s.subHandle i).used && handleIsIdentical (s.subHandle i) mh)
  then (s, .success)
  else
    match (List.range iotxMcSubNumMax).find? (fun i => !(s.subHandle i).used) with
    | none => (s, .failReturn)
    | some i => (s.setHandle i mh, .success)

/-- `iotx_mc_handle_recv_UNSUBACK` for an UNSUBACK of `msgId`: every slot in use that
is identical to the handler found is cleared. With no handler found, `messageHandler`
is never written, and the loop reads it for the first slot in use. -/
def handleRecvUnsuback (msgId : Nat) : SubClient × SubRc :=
  let (l, found) := maskSubInfoFrom msgId s.listSubWaitAck
  let s := { s with listSubWaitAck := l }
  match found with
  | none =>
    if (List.range iotxMcSubNumMax).any (fun i => (s.subHandle i).used) then (s, .undefined)
    else (s, .success)
  | some mh =>
    ({ s with
      subHandle := fun i =>
        if i < iotxMcSubNumMax ∧ (s.subHandle i).used ∧ handleIsIdentical (s.subHandle i) mh then .empty
        else s.subHandle i }, .success)

/-- `iotx_mc_deliver_message` for a PUBLISH on `topicName`: the callbacks it calls, slot
by slot, and whether it calls the default `handle_event`, which it does when no
callback was called. -/
def deliverMessage (topicName : List UInt8) : List (Nat × Nat) × Bool :=
  let calls := (List.range iotxMcSubNumMax).filterMap fun i =>
    match (s.subHandle i).topicFilter with
    | none => none
    | some f =>
      if (topicName == f || iotxMcIsTopicMatched f topicName) && (s.subHandle i).hFp ≠ 0 then
        some ((s.subHandle i).hFp, (s.subHandle i).pcontext)
      else none
  (calls, calls.isEmpty)

/-- `MQTTSubInfoProc`: invalid nodes leave the list; on a connected client, so do the
nodes whose ACK timed out, those of the ids in `timedOut`. -/
def mqttSubInfoProc (timedOut : List Nat) : SubClient :=
  { s with listSubWaitAck := s.listSubWaitAck.filter fun n =>
      n.nodeState = .normal ∧ ¬ (s.connected ∧ n.msgId ∈ timedOut) }

end SubClient

/-- The calls of the application and the packets of the broker. -/
inductive SubEvent where
  | subscribe (f : List UInt8) (hFp pcontext : Nat) (sendOk : Bool)
  | unsubscribe (f : List UInt8) (sendOk : Bool)
  | suback (msgId : Nat) (grantedQoS : UInt8)
  | unsuback (msgId : Nat)
  | publish (topicName : List UInt8)
  | subInfoProc (timedOut : List Nat)
  deriving DecidableEq, Repr

/-- What an event returns: a code, or the callbacks a PUBLISH reached. -/
inductive SubReply where
  | rc (r : SubRc)
  | delivered (calls : List (Nat × Nat)) (defaultHandler : Bool)
  deriving DecidableEq, Repr

/-- One event. -/
def subStep (s : SubClient) : SubEvent → SubClient × SubReply
  | .subscribe f hFp pcontext ok =>
    let r := s.iotMqttSubscribe f hFp pcontext ok
    (r.1, .rc r.2)
  | .unsubscribe f ok =>
    let r := s.iotMqttUnsubscribe f ok
    (r.1, .rc r.2)
  | .suback msgId q =>
    let r := s.handleRecvSuback msgId q
    (r.1, .rc r.2)
  | .unsuback msgId =>
    let r := s.handleRecvUnsuback msgId
    (r.1, .rc r.2)
  | .publish t =>
    let r := s.deliverMessage t
    (s, .delivered r.1 r.2)
  | .subInfoProc timedOut => (s.mqttSubInfoProc timedOut, .rc .success)

/-! ## What a step does to the list and the table -/

theorem maskSubInfoFrom_fst (msgId : Nat) (l : List SubInfo) :
    (maskSubInfoFrom msgId l).1 =
      l.map fun n => if n.msgId = msgId then { n with nodeState := .invalid } else n := by
  induction l with
  | nil => rfl
  | cons n l ih =>
    simp only [maskSubInfoFrom, List.foldr_cons] at ih ⊢
    split_ifs with h <;> simp [ih, h]

/-- The handler `iotx_mc_mask_subInfo_from` hands out is that of the first node of the
packet id, from the head. -/
theorem maskSubInfoFrom_snd (msgId : Nat) (l : List SubInfo) :
    (maskSubInfoFrom msgId l).2 = (l.find? fun n => n.msgId == msgId).map SubInfo.handler := by
  induction l with
  | nil => rfl
  | cons n l ih =>
    simp only [maskSubInfoFrom, List.foldr_cons] at ih ⊢
    by_cases h : n.msgId = msgId
    · simp [h]
    · simp [h, ih]

/-- What the code keeps of its table and list: a slot in use has a callback, and an
UNSUBSCRIBE node carries a handler without one. -/
structure SubInv (s : SubClient) : Prop where
  slot_hFp : ∀ i, (s.subHandle i).used = true → (s.subHandle i).hFp ≠ 0
  unsub_null : ∀ n ∈ s.listSubWaitAck, n.type = .unsubscribe → n.handler.hFp = 0

theorem subInv_init : SubInv subClientInit :=
  ⟨fun _ h => by simp [subClientInit, TopicHandle.empty, TopicHandle.used] at h, fun _ h => by
    simp [subClientInit] at h⟩

/-- Marking nodes invalid keeps their type and handler. -/
theorem unsubNull_mask {l : List SubInfo} (msgId : Nat)
    (hl : ∀ n ∈ l, n.type = .unsubscribe → n.handler.hFp = 0) :
    ∀ n ∈ (maskSubInfoFrom msgId l).1, n.type = .unsubscribe → n.handler.hFp = 0 := by
  rw [maskSubInfoFrom_fst]
  intro n hn htype
  obtain ⟨m, hm, rfl⟩ := List.mem_map.mp hn
  split_ifs at htype ⊢ with h
  · exact hl m hm htype
  · exact hl m hm htype

namespace SubClient

variable {s : SubClient}

theorem subInv_nextPacketId (hs : SubInv s) : SubInv s.nextPacketId.1 := ⟨hs.1, hs.2⟩

theorem subInv_sendRequest {msgId : Nat} {type : SubType} {handler : TopicHandle} {ok : Bool}
    (hs : SubInv s) (hh : type = .unsubscribe → handler.hFp = 0) :
    SubInv (s.sendRequest msgId type handler ok).1 := by
  unfold sendRequest pushSubInfoTo
  split_ifs at * <;> first
    | exact hs
    | exact ⟨hs.1, hs.2⟩
    | refine ⟨hs.1, fun n hn htype => ?_⟩
      rcases List.mem_append.mp hn with hn | hn
      · exact hs.2 n hn htype
      · simp only [List.mem_singleton] at hn
        subst hn
        exact hh htype

theorem subInv_iotMqttSubscribe {f : List UInt8} {hFp pcontext : Nat} {ok : Bool} (hs : SubInv s) :
    SubInv (s.iotMqttSubscribe f hFp pcontext ok).1 := by
  unfold iotMqttSubscribe
  by_cases h0 : hFp = 0
  · rw [if_pos h0]; exact hs
  rw [if_neg h0]
  by_cases hc : s.connected = true
  · rw [if_neg (not_not.mpr hc)]
    by_cases hf : iotxMcCheckTopicFilter f = true
    · rw [if_neg (not_not.mpr hf)]
      exact subInv_sendRequest (subInv_nextPacketId hs) (fun h => by cases h)
    · rw [if_pos hf]; exact hs
  · rw [if_pos hc]; exact hs

theorem subInv_iotMqttUnsubscribe {f : List UInt8} {ok : Bool} (hs : SubInv s) :
    SubInv (s.iotMqttUnsubscribe f ok).1 := by
  unfold iotMqttUnsubscribe
  dsimp only
  by_cases hf : iotxMcCheckTopicFilter f = true
  · rw [if_neg (not_not.mpr hf)]
    by_cases hc : s.nextPacketId.1.connected = true
    · rw [if_neg (not_not.mpr hc)]
      exact subInv_sendRequest (subInv_nextPacketId hs) (fun _ => rfl)
    · rw [if_pos hc]; exact subInv_nextPacketId hs
  · rw [if_pos hf]; exact subInv_nextPacketId hs

theorem subInv_handleRecvSuback {msgId : Nat} {q : UInt8} (hs : SubInv s) :
    SubInv (s.handleRecvSuback msgId q).1 := by
  have hl := unsubNull_mask msgId hs.2
  unfold handleRecvSuback
  rcases hm : maskSubInfoFrom msgId s.listSubWaitAck with ⟨l, found⟩
  rw [hm] at hl
  dsimp only
  split_ifs with hq hnf hdup
  · exact ⟨hs.1, hl⟩
  · exact ⟨hs.1, hl⟩
  · exact ⟨hs.1, hl⟩
  · split
    · exact ⟨hs.1, hl⟩
    · next i _ =>
      -- the handler goes into a free slot, with its callback
      refine ⟨fun j hj => ?_, hl⟩
      by_cases hji : j = i
      · subst hji
        simp only [setHandle, Function.update_self]
        exact fun h => hnf (.inl h)
      · simp only [setHandle, Function.update_of_ne hji] at hj ⊢
        exact hs.1 j hj

theorem subInv_handleRecvUnsuback {msgId : Nat} (hs : SubInv s) :
    SubInv (s.handleRecvUnsuback msgId).1 := by
  have hl := unsubNull_mask msgId hs.2
  unfold handleRecvUnsuback
  rcases hm : maskSubInfoFrom msgId s.listSubWaitAck with ⟨l, found⟩
  rw [hm] at hl
  cases found with
  | none =>
    dsimp only
    split_ifs
    · exact ⟨hs.1, hl⟩
    · exact ⟨hs.1, hl⟩
  | some mh =>
    -- a cleared slot is free
    refine ⟨fun j hj => ?_, hl⟩
    dsimp only at hj ⊢
    split_ifs at hj ⊢ with hclr
    · simp [TopicHandle.empty, TopicHandle.used] at hj
    · exact hs.1 j hj

theorem subInv_mqttSubInfoProc {timedOut : List Nat} (hs : SubInv s) :
    SubInv (s.mqttSubInfoProc timedOut) :=
  ⟨hs.1, fun n hn => hs.2 n (List.mem_of_mem_filter hn)⟩

end SubClient

open SubClient in
theorem subInv_subStep {s : SubClient} (e : SubEvent) (hs : SubInv s) : SubInv (subStep s e).1 := by
  cases e with
  | subscribe f hFp pcontext ok => exact subInv_iotMqttSubscribe hs
  | unsubscribe f ok => exact subInv_iotMqttUnsubscribe hs
  | suback msgId q => exact subInv_handleRecvSuback hs
  | unsuback msgId => exact subInv_handleRecvUnsuback hs
  | publish t => exact hs
  | subInfoProc timedOut => exact subInv_mqttSubInfoProc hs

open Machine

/-- Every state a run from construction reaches keeps `SubInv`. -/
theorem subInv_exec (evs : List SubEvent) : SubInv (exec subStep subClientInit evs) :=
  exec_invariant SubInv (fun _ => True) (fun _ e _ hs => subInv_subStep e hs) subInv_init
    (fun _ _ => trivial)

namespace SubClient

variable {s : SubClient}

/-- An UNSUBACK whose handler has no callback clears no slot of a table that keeps
`SubInv`. -/
theorem handleRecvUnsuback_subHandle {msgId : Nat} {mh : TopicHandle} (hs : SubInv s)
    (hfound : (maskSubInfoFrom msgId s.listSubWaitAck).2 = some mh) (hnull : mh.hFp = 0) :
    (s.handleRecvUnsuback msgId).1.subHandle = s.subHandle := by
  unfold handleRecvUnsuback
  rcases hm : maskSubInfoFrom msgId s.listSubWaitAck with ⟨l, found⟩
  rw [hm] at hfound
  cases hfound
  funext i
  dsimp only
  rw [if_neg]
  -- a slot in use has a callback, and the handler has none
  rintro ⟨-, hused, hid⟩
  simp only [handleIsIdentical, Bool.and_eq_true, beq_iff_eq] at hid
  exact hs.1 i hused (hid.1.2.trans hnull)

/-- An UNSUBACK whose packet id no request carries reads the never-written
`messageHandler` as soon as a slot is in use. -/
theorem handleRecvUnsuback_unknown {msgId i : Nat} (hnone : ∀ n ∈ s.listSubWaitAck, n.msgId ≠ msgId)
    (hi : i < iotxMcSubNumMax) (hused : (s.subHandle i).used = true) :
    (s.handleRecvUnsuback msgId).2 = .undefined := by
  have hfound : (maskSubInfoFrom msgId s.listSubWaitAck).2 = none := by
    rw [maskSubInfoFrom_snd, Option.map_eq_none_iff, List.find?_eq_none]
    intro n hn
    simpa using hnone n hn
  unfold handleRecvUnsuback
  rcases hm : maskSubInfoFrom msgId s.listSubWaitAck with ⟨l, found⟩
  rw [hm] at hfound
  cases hfound
  dsimp only
  rw [if_pos (List.any_eq_true.mpr ⟨i, List.mem_range.mpr hi, hused⟩)]

end SubClient

/-- From a freshly constructed client, after any events, an UNSUBACK for an outstanding
UNSUBSCRIBE leaves every subscription in place, those on the unsubscribed filter
included. -/
theorem unsuback_keeps_subscriptions (evs : List SubEvent) (msgId : Nat)
    (hout : ((exec subStep subClientInit evs).listSubWaitAck.find? (·.msgId == msgId)).map SubInfo.type =
      some .unsubscribe) :
    (subStep (exec subStep subClientInit evs) (.unsuback msgId)).1.subHandle =
      (exec subStep subClientInit evs).subHandle := by
  have hs := subInv_exec evs
  obtain ⟨n, hn, htype⟩ := Option.map_eq_some_iff.mp hout
  have hmem := List.mem_of_find?_eq_some hn
  exact SubClient.handleRecvUnsuback_subHandle hs (by rw [maskSubInfoFrom_snd, hn]; rfl)
    (hs.2 n hmem htype)

/-- `/a` subscribed with callback `1` and context `7`, acknowledged, then unsubscribed
with packet id `2`. -/
def subThenUnsub : List SubEvent :=
  [.subscribe [slash, 97] 1 7 true, .suback 1 0, .unsubscribe [slash, 97] true]

theorem unsuback_keeps_subscriptions_subThenUnsub :
    ((exec subStep subClientInit subThenUnsub).listSubWaitAck.find? (·.msgId == 2)).map SubInfo.type =
        some .unsubscribe ∧
      (subStep (exec subStep subClientInit subThenUnsub) (.unsuback 2)).1.subHandle =
        (exec subStep subClientInit subThenUnsub).subHandle :=
  ⟨by decide, unsuback_keeps_subscriptions subThenUnsub 2 (by decide)⟩

/-- After the UNSUBACK, a PUBLISH on `/a` still reaches callback `1`. -/
example :
    (subStep (exec subStep subClientInit (subThenUnsub ++ [.unsuback 2])) (.publish [slash, 97])).2 =
      .delivered [(1, 7)] false := by
  decide

end Mqtt
