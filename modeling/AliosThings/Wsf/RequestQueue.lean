import AliosThings.Lib.Machine

/-!
# The WSF request queue

`__send_msg` allocates a request node, links it at the head of
`global_request_queue->list` (`wsf_request_queue_push`) and sends the request. A
synchronous caller (`__wsf_invoke_sync`) then waits on the node's semaphore, and
afterwards unlinks (`wsf_request_queue_pop`), destroys and frees the node. An
asynchronous caller leaves the node to the receive task. The receive task's
`process_msg_response` unlinks the node with the response's id under the queue mutex
(`wsf_request_queue_trigger`) and, once the mutex is released, runs the node's callback
and frees it, or signals the waiting caller. A push on a full queue evicts the oldest
node (`wsf_del_first_msg`) when the new node has a callback, and
`wsf_msg_queue_flush` completes the asynchronous nodes and signals the synchronous ones.

The tasks interleave between these steps: each event is one task's run between two
points where another task may be scheduled. Nodes live in a heap by address. An access
to a freed node is recorded as a fault, and a response that a freed node still held is
recorded as lost.

The queue's own bookkeeping holds over every run (`queueInv_exec`): the length is the
number of linked nodes, at most `max_msg_queue_length`, and every linked node is
allocated. The nodes that the callers and the receive task hold outside the mutex are
not protected: eviction frees a node whose synchronous caller still waits on it
(`invokeAsync_evicts_waiting`), and a timeout between the trigger and the delivery frees
the node that the receive task then uses (`wake_between_trigger_and_deliver`).
-/

namespace Wsf

open Machine

/-- `default_msg_queue_length`. -/
def defaultMsgQueueLength : Nat := 20

/-- `max_msg_queue_length` after `wsf_init_config`: a value not above `0` is replaced by
the default. -/
def maxMsgQueueLength (v : Int) : Nat :=
  if v ≤ 0 then defaultMsgQueueLength else v.toNat

/-- The fields of a `wsf_request_node_t` the queue reads. -/
structure RequestNode where
  /-- `session.id`, the request's `msg_id`. -/
  msgId : Nat
  /-- Whether `session.cb` is set. -/
  async : Bool
  /-- `session.response`, a response buffer. -/
  response : Option Nat
  /-- The count of `session.psem`. -/
  sem : Nat
  deriving DecidableEq, Repr

/-- The request queue, the heap of nodes, and where the tasks are. -/
structure RequestQueue where
  /-- `global_request_queue->list`, head first: `dlist_add` links at the head. -/
  list : List Nat
  /-- `global_request_queue->length`. -/
  length : Nat
  maxLength : Nat
  /-- The allocated nodes by address. -/
  heap : Nat → Option RequestNode
  /-- The address the next `os_malloc` of a node returns. -/
  nextAddr : Nat
  /-- The nodes that synchronous callers wait on in `wsf_msg_session_timewait`. -/
  waiting : List Nat
  /-- `process_msg_response` between the trigger and its use of the node: the node and
  the response buffer. -/
  delivering : Option (Nat × Nat)
  /-- The address the next `os_malloc` of a response returns. -/
  nextRsp : Nat
  /-- The callbacks run, with the node and the response they were given. -/
  callbacks : List (Nat × Option Nat)
  /-- The responses returned to synchronous callers. -/
  returned : List Nat
  /-- The responses lost with the node that held them. -/
  leaked : List Nat
  /-- The freed nodes that were accessed. -/
  faults : List Nat

/-- `wsf_msg_queue_init`, with the queue length of the configuration. -/
def wsfMsgQueueInit (maxLength : Nat) : RequestQueue :=
  ⟨[], 0, maxLength, fun _ => none, 0, [], none, 0, [], [], [], []⟩

/-! ### Nodes -/

/-- An access to node `n`: `f` of the node, or a fault when it was freed. -/
def withNode (q : RequestQueue) (n : Nat) (f : RequestNode → RequestQueue) : RequestQueue :=
  match q.heap n with
  | some node => f node
  | none => { q with faults := q.faults ++ [n] }

/-- Node `n` written back. -/
def setNode (q : RequestQueue) (n : Nat) (node : RequestNode) : RequestQueue :=
  { q with heap := Function.update q.heap n (some node) }

/-- `wsf_msg_session_destroy` and `os_free` of node `n`: a response it still holds is
lost. -/
def freeNode (q : RequestQueue) (n : Nat) : RequestQueue :=
  withNode q n fun node =>
    { q with heap := Function.update q.heap n none, leaked := q.leaked ++ node.response.toList }

/-- `wsf_del_first_msg`: the oldest node, at the tail, unlinked, completed with no
response when it has a callback, and freed. -/
def wsfDelFirstMsg (q : RequestQueue) : RequestQueue :=
  match q.list.getLast? with
  | none => q
  | some n =>
    let q := { q with list := q.list.dropLast, length := q.length - 1 }
    freeNode (withNode q n fun node =>
      if node.async then { q with callbacks := q.callbacks ++ [(n, none)] } else q) n

/-- Node `n` linked at the head. -/
def linkNode (q : RequestQueue) (n : Nat) : RequestQueue :=
  { q with list := n :: q.list, length := q.length + 1 }

/-- `wsf_request_queue_push` of node `n`, with its callback flag: the queue after and
whether it was linked. A full queue evicts its oldest node for a node with a callback
and refuses one without. -/
def wsfRequestQueuePush (q : RequestQueue) (n : Nat) (async : Bool) : RequestQueue × Bool :=
  if q.length ≥ q.maxLength then
    if async then (linkNode (wsfDelFirstMsg q) n, true) else (q, false)
  else (linkNode q n, true)

/-- `wsf_request_queue_pop` of node `n`: a node no longer linked is left alone. -/
def wsfRequestQueuePop (q : RequestQueue) (n : Nat) : RequestQueue :=
  withNode q n fun _ =>
    if n ∉ q.list then q
    else if q.length = 0 then q
    else { q with list := q.list.erase n, length := q.length - 1 }

/-- `__send_msg`: a new node for `msgId`, pushed, and the request sent or not. The node
is returned when the request is out; otherwise it is unlinked and freed. -/
def sendMsg (q : RequestQueue) (msgId : Nat) (async sendOk : Bool) : RequestQueue × Option Nat :=
  let n := q.nextAddr
  let q := { (setNode q n ⟨msgId, async, none, 0⟩) with nextAddr := n + 1 }
  let r := wsfRequestQueuePush q n async
  if r.2 then
    if sendOk then (r.1, some n) else (freeNode (wsfRequestQueuePop r.1 n) n, none)
  else (freeNode r.1 n, none)

/-! ### The tasks -/

/-- `__wsf_invoke_sync` up to its wait: the caller blocks on the node it sent. -/
def wsfInvokeSync (q : RequestQueue) (msgId : Nat) (sendOk : Bool) : RequestQueue :=
  match sendMsg q msgId false sendOk with
  | (q, some n) => { q with waiting := q.waiting ++ [n] }
  | (q, none) => q

/-- `__wsf_invoke_async`. -/
def wsfInvokeAsync (q : RequestQueue) (msgId : Nat) (sendOk : Bool) : RequestQueue :=
  (sendMsg q msgId true sendOk).1

/-- `__wsf_invoke_sync` after its wait on node `n`: the wait succeeds when the semaphore
was posted and times out otherwise; the response is returned and the node unlinked and
freed. -/
def wsfInvokeSyncWake (q : RequestQueue) (n : Nat) : RequestQueue :=
  if n ∉ q.waiting then q
  else
    let q := { q with waiting := q.waiting.erase n }
    withNode q n fun node =>
      let q :=
        if 0 < node.sem then
          { (setNode q n { node with sem := node.sem - 1, response := none }) with
            returned := q.returned ++ node.response.toList }
        else q
      freeNode (wsfRequestQueuePop q n) n

/-- Whether node `n` is a request with id `msgId`. -/
def sessionMatches (q : RequestQueue) (msgId n : Nat) : Bool :=
  (q.heap n).any fun node => node.msgId == msgId

/-- `wsf_request_queue_trigger` with the response buffer `rsp`: the first linked node
with the response's id is unlinked and given the response. -/
def wsfRequestQueueTrigger (q : RequestQueue) (msgId rsp : Nat) : RequestQueue × Option Nat :=
  match q.list.find? (sessionMatches q msgId) with
  | some n =>
    (withNode q n fun node =>
      { (setNode q n { node with response := some rsp }) with
        list := q.list.erase n, length := q.length - 1 }, some n)
  | none => (q, none)

/-- `process_msg_response` up to the release of the queue mutex: a response buffer is
allocated and the trigger run; an unknown response is freed. -/
def processMsgResponse (q : RequestQueue) (msgId : Nat) : RequestQueue :=
  let rsp := q.nextRsp
  let q := { q with nextRsp := rsp + 1 }
  match wsfRequestQueueTrigger q msgId rsp with
  | (q, some n) => { q with delivering := some (n, rsp) }
  | (q, none) => q

/-- The rest of `process_msg_response`: the node's callback runs and the node is freed,
or the waiting caller is signalled. -/
def processMsgResponseDeliver (q : RequestQueue) : RequestQueue :=
  match q.delivering with
  | none => q
  | some (n, rsp) =>
    let q := { q with delivering := none }
    withNode q n fun node =>
      if node.async then
        let q := { (setNode q n { node with response := none }) with
          callbacks := q.callbacks ++ [(n, some rsp)] }
        freeNode (wsfRequestQueuePop q n) n
      else setNode q n { node with sem := node.sem + 1 }

/-- One node of a round of `wsf_msg_queue_flush`: a node with a callback is completed
with no response, unlinked and freed with its response; another is signalled. -/
def wsfMsgQueueFlushNode (q : RequestQueue) (n : Nat) : RequestQueue :=
  withNode q n fun node =>
    if node.async then
      { q with
        list := q.list.erase n
        length := q.length - 1
        heap := Function.update q.heap n none
        callbacks := q.callbacks ++ [(n, none)] }
    else setNode q n { node with sem := node.sem + 1 }

/-- One round of the loop of `wsf_msg_queue_flush`, under the queue mutex. -/
def wsfMsgQueueFlushRound (q : RequestQueue) : RequestQueue :=
  q.list.foldl wsfMsgQueueFlushNode q

/-- The steps of the tasks, one at a time. -/
inductive QueueEvent where
  | invokeSync (msgId : Nat) (sendOk : Bool)
  | invokeAsync (msgId : Nat) (sendOk : Bool)
  /-- The synchronous caller waiting on node `n` returns from its wait. -/
  | wake (n : Nat)
  | response (msgId : Nat)
  | deliver
  | flush
  deriving DecidableEq, Repr

/-- One step. The receive task takes no new response while it delivers one, and a
flush round runs while the queue is not empty. -/
def queueStep (q : RequestQueue) : QueueEvent → RequestQueue × Unit
  | .invokeSync msgId sendOk => (wsfInvokeSync q msgId sendOk, ())
  | .invokeAsync msgId sendOk => (wsfInvokeAsync q msgId sendOk, ())
  | .wake n => (wsfInvokeSyncWake q n, ())
  | .response msgId => (if q.delivering.isSome then q else processMsgResponse q msgId, ())
  | .deliver => (processMsgResponseDeliver q, ())
  | .flush => (if q.length = 0 then q else wsfMsgQueueFlushRound q, ())

/-! ### Node accesses -/

theorem withNode_of_some {q : RequestQueue} {n : Nat} {node : RequestNode} (h : q.heap n = some node)
    (f : RequestNode → RequestQueue) : withNode q n f = f node := by
  simp [withNode, h]

theorem withNode_of_none {q : RequestQueue} {n : Nat} (h : q.heap n = none) (f : RequestNode → RequestQueue) :
    withNode q n f = { q with faults := q.faults ++ [n] } := by
  simp [withNode, h]

/-- A projection that no access changes is kept by `withNode`. -/
theorem withNode_field {β : Type} (π : RequestQueue → β) {q : RequestQueue} {n : Nat}
    {f : RequestNode → RequestQueue} (hf : ∀ node, q.heap n = some node → π (f node) = π q)
    (hfault : π { q with faults := q.faults ++ [n] } = π q) : π (withNode q n f) = π q := by
  cases h : q.heap n with
  | none => rw [withNode_of_none h, hfault]
  | some node => rw [withNode_of_some h, hf node h]

theorem freeNode_list (q : RequestQueue) (n : Nat) : (freeNode q n).list = q.list :=
  withNode_field RequestQueue.list (fun _ _ => rfl) rfl

theorem freeNode_length (q : RequestQueue) (n : Nat) : (freeNode q n).length = q.length :=
  withNode_field RequestQueue.length (fun _ _ => rfl) rfl

theorem freeNode_waiting (q : RequestQueue) (n : Nat) : (freeNode q n).waiting = q.waiting :=
  withNode_field RequestQueue.waiting (fun _ _ => rfl) rfl

theorem freeNode_delivering (q : RequestQueue) (n : Nat) : (freeNode q n).delivering = q.delivering :=
  withNode_field RequestQueue.delivering (fun _ _ => rfl) rfl

theorem freeNode_maxLength (q : RequestQueue) (n : Nat) : (freeNode q n).maxLength = q.maxLength :=
  withNode_field RequestQueue.maxLength (fun _ _ => rfl) rfl

theorem freeNode_heap_of_ne (q : RequestQueue) {n m : Nat} (hm : m ≠ n) : (freeNode q n).heap m = q.heap m :=
  withNode_field (fun q => q.heap m) (fun _ _ => Function.update_of_ne hm _ _) rfl

theorem freeNode_heap_self (q : RequestQueue) (n : Nat) : (freeNode q n).heap n = none := by
  cases h : q.heap n with
  | none => rw [freeNode, withNode_of_none h]; exact h
  | some node => rw [freeNode, withNode_of_some h]; exact Function.update_self n none q.heap

theorem wsfRequestQueuePop_waiting (q : RequestQueue) (n : Nat) : (wsfRequestQueuePop q n).waiting = q.waiting := by
  refine withNode_field RequestQueue.waiting (fun _ _ => ?_) rfl
  split
  · rfl
  · split <;> rfl

theorem wsfRequestQueuePop_heap (q : RequestQueue) (n m : Nat) : (wsfRequestQueuePop q n).heap m = q.heap m := by
  refine withNode_field (fun q => q.heap m) (fun _ _ => ?_) rfl
  split
  · rfl
  · split <;> rfl

theorem wsfRequestQueuePop_delivering (q : RequestQueue) (n : Nat) :
    (wsfRequestQueuePop q n).delivering = q.delivering := by
  refine withNode_field RequestQueue.delivering (fun _ _ => ?_) rfl
  split
  · rfl
  · split <;> rfl

theorem wsfRequestQueuePop_faults {q : RequestQueue} {n : Nat} {node : RequestNode} (h : q.heap n = some node) :
    (wsfRequestQueuePop q n).faults = q.faults := by
  rw [wsfRequestQueuePop, withNode_of_some h]
  split
  · rfl
  · split <;> rfl

theorem freeNode_faults {q : RequestQueue} {n : Nat} {node : RequestNode} (h : q.heap n = some node) :
    (freeNode q n).faults = q.faults := by
  rw [freeNode, withNode_of_some h]

/-- A pop of a node that is not linked changes nothing but a fault record. -/
theorem wsfRequestQueuePop_of_not_mem {q : RequestQueue} {n : Nat} {node : RequestNode} (h : q.heap n = some node)
    (hn : n ∉ q.list) : wsfRequestQueuePop q n = q := by
  rw [wsfRequestQueuePop, withNode_of_some h, if_pos hn]

/-! ### The queue's bookkeeping -/

/-- What the queue mutex protects: the length counts the linked nodes and stays within
the configured bound, and every linked node is allocated and linked once. The node the
receive task delivers was unlinked by the trigger and is never linked again. -/
structure QueueInv (q : RequestQueue) : Prop where
  length_eq : q.length = q.list.length
  length_le : q.list.length ≤ q.maxLength
  max_pos : 0 < q.maxLength
  nodup : q.list.Nodup
  linked_alloc : ∀ n ∈ q.list, (q.heap n).isSome
  fresh : ∀ n, q.nextAddr ≤ n → q.heap n = none
  delivering_unlinked : ∀ p ∈ q.delivering, p.1 ∉ q.list
  delivering_lt : ∀ p ∈ q.delivering, p.1 < q.nextAddr

/-- The invariant reads six fields; a state that agrees on them keeps it. -/
theorem QueueInv.congr {q q' : RequestQueue} (hq : QueueInv q) (hl : q'.list = q.list)
    (hn : q'.length = q.length) (hm : q'.maxLength = q.maxLength) (hh : q'.heap = q.heap)
    (ha : q'.nextAddr = q.nextAddr) (hd : q'.delivering = q.delivering) : QueueInv q' := by
  obtain ⟨h1, h2, h3, h4, h5, h6, h7, h8⟩ := hq
  refine ⟨?_, ?_, ?_, ?_, ?_, ?_, ?_, ?_⟩ <;> simp only [hl, hn, hm, hh, ha, hd] <;> assumption

/-- What the tasks record outside the queue does not touch the bookkeeping. -/
theorem QueueInv.records {q : RequestQueue} (hq : QueueInv q) (w : List Nat) (s : Nat)
    (c : List (Nat × Option Nat)) (r l f : List Nat) :
    QueueInv { q with waiting := w, nextRsp := s, callbacks := c, returned := r, leaked := l, faults := f } :=
  hq.congr rfl rfl rfl rfl rfl rfl

/-- Linked nodes lie below the next address. -/
theorem QueueInv.lt_of_mem {q : RequestQueue} (hq : QueueInv q) {n : Nat} (hn : n ∈ q.list) : n < q.nextAddr := by
  by_contra hge
  have := hq.fresh n (by omega)
  exact absurd (hq.linked_alloc n hn) (by simp [this])

theorem queueInv_withNode {q : RequestQueue} {n : Nat} {f : RequestNode → RequestQueue} (hq : QueueInv q)
    (hf : ∀ node, q.heap n = some node → QueueInv (f node)) : QueueInv (withNode q n f) := by
  cases h : q.heap n with
  | none =>
    rw [withNode_of_none h]
    exact hq.congr rfl rfl rfl rfl rfl rfl
  | some node =>
    rw [withNode_of_some h]
    exact hf node h

/-- Freeing a node that is not linked keeps the bookkeeping. -/
theorem queueInv_freeNode {q : RequestQueue} {n : Nat} (hq : QueueInv q) (hn : n ∉ q.list) :
    QueueInv (freeNode q n) := by
  apply queueInv_withNode hq
  intro node _
  refine ⟨hq.length_eq, hq.length_le, hq.max_pos, hq.nodup, ?_, ?_, hq.delivering_unlinked, hq.delivering_lt⟩
  · intro m hm
    have hne : m ≠ n := fun h => hn (h ▸ hm)
    dsimp only
    rw [Function.update_of_ne hne]
    exact hq.linked_alloc m hm
  · intro m hm
    dsimp only
    by_cases h : m = n
    · subst h
      exact Function.update_self m none q.heap
    · rw [Function.update_of_ne h]
      exact hq.fresh m hm

/-- Writing back an allocated node keeps the bookkeeping. -/
theorem queueInv_setNode {q : RequestQueue} {n : Nat} (hq : QueueInv q) (hn : (q.heap n).isSome)
    (node : RequestNode) : QueueInv (setNode q n node) := by
  have hlt : n < q.nextAddr := by
    by_contra hge
    simp [hq.fresh n (by omega)] at hn
  refine ⟨hq.length_eq, hq.length_le, hq.max_pos, hq.nodup, ?_, ?_, hq.delivering_unlinked, hq.delivering_lt⟩
  · intro m hm
    by_cases h : m = n
    · subst h
      simp [setNode]
    · simp only [setNode, Function.update_of_ne h]
      exact hq.linked_alloc m hm
  · intro m hm
    have h : m ≠ n := by dsimp only [setNode] at hm; omega
    simp only [setNode, Function.update_of_ne h]
    exact hq.fresh m hm

/-- A pop unlinks the node, if it was linked, and keeps the bookkeeping. -/
theorem queueInv_wsfRequestQueuePop {q : RequestQueue} (hq : QueueInv q) (n : Nat) :
    QueueInv (wsfRequestQueuePop q n) ∧ n ∉ (wsfRequestQueuePop q n).list ∧
      (wsfRequestQueuePop q n).list ⊆ q.list := by
  cases h : q.heap n with
  | none =>
    -- a freed node is not linked
    have hn : n ∉ q.list := fun hm => by simpa [h] using hq.linked_alloc n hm
    rw [wsfRequestQueuePop, withNode_of_none h]
    exact ⟨hq.congr rfl rfl rfl rfl rfl rfl, hn, fun _ hm => hm⟩
  | some node =>
    by_cases hn : n ∈ q.list
    · have hlen : q.length ≠ 0 := by
        rw [hq.length_eq]
        exact List.length_pos_of_mem hn |>.ne'
      rw [wsfRequestQueuePop, withNode_of_some h, if_neg (not_not.mpr hn), if_neg hlen]
      refine ⟨⟨?_, ?_, hq.max_pos, hq.nodup.erase n, ?_, hq.fresh, ?_, hq.delivering_lt⟩,
        hq.nodup.not_mem_erase, fun _ hm => List.mem_of_mem_erase hm⟩
      · dsimp only
        rw [List.length_erase_of_mem hn, hq.length_eq]
      · dsimp only
        rw [List.length_erase_of_mem hn]
        have := hq.length_le
        omega
      · exact fun m hm => hq.linked_alloc m (List.mem_of_mem_erase hm)
      · exact fun p hp hm => hq.delivering_unlinked p hp (List.mem_of_mem_erase hm)
    · rw [wsfRequestQueuePop_of_not_mem h hn]
      exact ⟨hq, hn, fun _ hm => hm⟩

/-- Linking an allocated node that is not linked, in a queue with room, keeps the
bookkeeping. -/
theorem queueInv_linkNode {q : RequestQueue} {n : Nat} (hq : QueueInv q) (hlt : q.list.length < q.maxLength)
    (hn : n ∉ q.list) (ha : (q.heap n).isSome) (hd : ∀ p ∈ q.delivering, p.1 ≠ n) :
    QueueInv (linkNode q n) := by
  refine ⟨?_, ?_, hq.max_pos, List.nodup_cons.mpr ⟨hn, hq.nodup⟩, ?_, hq.fresh, ?_, hq.delivering_lt⟩
  · simp only [linkNode, List.length_cons, hq.length_eq]
  · simp only [linkNode, List.length_cons]
    omega
  · intro m hm
    rcases List.mem_cons.mp hm with rfl | hm
    · exact ha
    · exact hq.linked_alloc m hm
  · intro p hp hm
    rcases List.mem_cons.mp hm with he | hm
    · exact hd p hp he
    · exact hq.delivering_unlinked p hp hm

/-- The last node of a list without repeats is not in the rest. -/
theorem not_mem_dropLast_of_getLast? {l : List Nat} (hl : l.Nodup) {t : Nat} (ht : l.getLast? = some t) :
    t ∉ l.dropLast := by
  have happ : l.dropLast ++ [t] = l := List.dropLast_append_getLast? t ht
  rw [← happ] at hl
  have hswap : ([t] ++ l.dropLast).Nodup := List.nodup_append_comm.mp hl
  exact (List.nodup_cons.mp hswap).1

/-- `wsf_del_first_msg` unlinks the oldest node and frees it, and keeps the
bookkeeping; nodes that were not linked are not touched. -/
theorem wsfDelFirstMsg_spec {q : RequestQueue} (hq : QueueInv q) :
    QueueInv (wsfDelFirstMsg q) ∧ (wsfDelFirstMsg q).list = q.list.dropLast ∧
      (∀ m ∉ q.list, (wsfDelFirstMsg q).heap m = q.heap m) ∧
      (wsfDelFirstMsg q).delivering = q.delivering ∧ (wsfDelFirstMsg q).waiting = q.waiting := by
  cases ht : q.list.getLast? with
  | none =>
    have hnil : q.list = [] := List.getLast?_eq_none_iff.mp ht
    simp only [wsfDelFirstMsg, ht]
    exact ⟨hq, by simp [hnil], fun _ _ => trivial, trivial, trivial⟩
  | some t =>
    let q₂ : RequestQueue := { q with list := q.list.dropLast, length := q.length - 1 }
    have hq₂ : QueueInv q₂ := by
      refine ⟨?_, ?_, hq.max_pos, hq.nodup.sublist (List.dropLast_sublist _), ?_, hq.fresh, ?_, hq.delivering_lt⟩
      · simp only [q₂, List.length_dropLast, hq.length_eq]
      · simp only [q₂, List.length_dropLast]
        have := hq.length_le
        omega
      · exact fun m hm => hq.linked_alloc m (List.mem_of_mem_dropLast hm)
      · exact fun p hp hm => hq.delivering_unlinked p hp (List.mem_of_mem_dropLast hm)
    -- the callback of the evicted node changes nothing the queue reads
    have hcb : QueueInv (withNode q₂ t fun node =>
        if node.async then { q₂ with callbacks := q₂.callbacks ++ [(t, none)] } else q₂) := by
      apply queueInv_withNode hq₂
      intro node _
      split
      · exact hq₂.congr rfl rfl rfl rfl rfl rfl
      · exact hq₂
    have hfield : ∀ {β : Type} (π : RequestQueue → β),
        (∀ c, π { q₂ with callbacks := c } = π q₂) → (∀ f, π { q₂ with faults := f } = π q₂) →
        π (withNode q₂ t fun node =>
          if node.async then { q₂ with callbacks := q₂.callbacks ++ [(t, none)] } else q₂) = π q₂ := by
      intro β π hc hf
      refine withNode_field π (fun node _ => ?_) (hf _)
      split
      · exact hc _
      · rfl
    have htl : t ∉ q₂.list := not_mem_dropLast_of_getLast? hq.nodup ht
    simp only [wsfDelFirstMsg, ht]
    refine ⟨queueInv_freeNode hcb (by rw [hfield RequestQueue.list (fun _ => rfl) (fun _ => rfl)]; exact htl), ?_,
      fun m hm => ?_, ?_, ?_⟩
    · rw [freeNode_list, hfield RequestQueue.list (fun _ => rfl) (fun _ => rfl)]
    · have hne : m ≠ t := fun he => hm (he ▸ List.mem_of_getLast? ht)
      rw [freeNode_heap_of_ne _ hne, hfield (fun q => q.heap m) (fun _ => rfl) (fun _ => rfl)]
    · rw [freeNode_delivering, hfield RequestQueue.delivering (fun _ => rfl) (fun _ => rfl)]
    · rw [freeNode_waiting, hfield RequestQueue.waiting (fun _ => rfl) (fun _ => rfl)]

/-- A push of an allocated node that is not linked keeps the bookkeeping; a push that
refuses the node changes nothing. -/
theorem queueInv_wsfRequestQueuePush {q : RequestQueue} {n : Nat} (hq : QueueInv q) (hn : n ∉ q.list)
    (ha : (q.heap n).isSome) (hd : ∀ p ∈ q.delivering, p.1 ≠ n) (async : Bool) :
    QueueInv (wsfRequestQueuePush q n async).1 ∧
      ((wsfRequestQueuePush q n async).2 = false → (wsfRequestQueuePush q n async).1 = q) := by
  unfold wsfRequestQueuePush
  by_cases hfull : q.length ≥ q.maxLength
  · rw [if_pos hfull]
    cases async with
    | false => exact ⟨hq, fun _ => rfl⟩
    | true =>
      -- the oldest node is evicted to make room
      obtain ⟨hq₁, hlist, hheap, hdel, -⟩ := wsfDelFirstMsg_spec hq
      refine ⟨queueInv_linkNode hq₁ ?_ ?_ ?_ ?_, fun h => absurd h (by simp)⟩
      · have := hq.length_le
        have := hq.max_pos
        have hmax : (wsfDelFirstMsg q).maxLength = q.maxLength := by
          unfold wsfDelFirstMsg
          split
          · rfl
          · rw [freeNode_maxLength]
            exact withNode_field RequestQueue.maxLength (fun _ _ => by split <;> rfl) rfl
        rw [hlist, List.length_dropLast, hmax]
        rw [hq.length_eq] at hfull
        omega
      · rw [hlist]
        exact fun hm => hn (List.mem_of_mem_dropLast hm)
      · rw [hheap n hn]
        exact ha
      · rw [hdel]
        exact hd
  · rw [if_neg hfull]
    exact ⟨queueInv_linkNode hq (by rw [← hq.length_eq]; omega) hn ha hd, fun h => absurd h (by simp)⟩

/-- Unlinking a node and then freeing it keeps the bookkeeping. -/
theorem queueInv_freeNode_pop {q : RequestQueue} (hq : QueueInv q) (n : Nat) :
    QueueInv (freeNode (wsfRequestQueuePop q n) n) :=
  queueInv_freeNode (queueInv_wsfRequestQueuePop hq n).1 (queueInv_wsfRequestQueuePop hq n).2.1

/-- `__send_msg` keeps the bookkeeping: the new node ends up linked, or unlinked and
freed. -/
theorem queueInv_sendMsg {q : RequestQueue} (hq : QueueInv q) (msgId : Nat) (async sendOk : Bool) :
    QueueInv (sendMsg q msgId async sendOk).1 := by
  -- the node allocated at the next address, not linked yet
  let n := q.nextAddr
  let q₁ : RequestQueue := { (setNode q n ⟨msgId, async, none, 0⟩) with nextAddr := n + 1 }
  have hn : n ∉ q₁.list := fun hm => absurd (hq.lt_of_mem hm) (lt_irrefl n)
  have hq₁ : QueueInv q₁ := by
    refine ⟨hq.length_eq, hq.length_le, hq.max_pos, hq.nodup, ?_, ?_, hq.delivering_unlinked, ?_⟩
    · intro m hm
      have hne : m ≠ n := (hq.lt_of_mem hm).ne
      simp only [q₁, setNode, Function.update_of_ne hne]
      exact hq.linked_alloc m hm
    · intro m hm
      have hne : m ≠ n := by simp only [q₁] at hm; omega
      simp only [q₁, setNode, Function.update_of_ne hne]
      exact hq.fresh m (by simp only [q₁] at hm; omega)
    · intro p hp
      have := hq.delivering_lt p hp
      simp only [q₁]
      omega
  have ha : (q₁.heap n).isSome := by simp [q₁, setNode]
  have hd : ∀ p ∈ q₁.delivering, p.1 ≠ n := fun p hp => (hq.delivering_lt p hp).ne
  obtain ⟨hpush, hrefused⟩ := queueInv_wsfRequestQueuePush hq₁ hn ha hd async
  show QueueInv (if (wsfRequestQueuePush q₁ n async).2 then
    (if sendOk then ((wsfRequestQueuePush q₁ n async).1, some n)
      else (freeNode (wsfRequestQueuePop (wsfRequestQueuePush q₁ n async).1 n) n, none))
    else (freeNode (wsfRequestQueuePush q₁ n async).1 n, none)).1
  by_cases hr : (wsfRequestQueuePush q₁ n async).2 = true
  · rw [if_pos hr]
    split
    · exact hpush
    · exact queueInv_freeNode_pop hpush n
  · rw [if_neg hr, hrefused (by simpa using hr)]
    exact queueInv_freeNode hq₁ hn

/-- The rest of `__wsf_invoke_sync` keeps the bookkeeping. -/
theorem queueInv_wsfInvokeSyncWake {q : RequestQueue} (hq : QueueInv q) (n : Nat) :
    QueueInv (wsfInvokeSyncWake q n) := by
  unfold wsfInvokeSyncWake
  split
  · exact hq
  · have hq₁ : QueueInv { q with waiting := q.waiting.erase n } := hq.congr rfl rfl rfl rfl rfl rfl
    apply queueInv_withNode hq₁
    intro node hnode
    dsimp only
    -- a posted semaphore hands the response over
    split
    · have ha : (q.heap n).isSome := by rw [show q.heap n = some node from hnode]; rfl
      exact queueInv_freeNode_pop (QueueInv.records (@queueInv_setNode _ n hq₁ ha _) _ _ _ _ _ _) n
    · exact queueInv_freeNode_pop hq₁ n

/-- The trigger of `process_msg_response` keeps the bookkeeping, with the node it
unlinks as the one delivered. -/
theorem queueInv_processMsgResponse {q : RequestQueue} (hq : QueueInv q) (msgId : Nat) : QueueInv (processMsgResponse q msgId) := by
  let q₁ : RequestQueue := { q with nextRsp := q.nextRsp + 1 }
  have hq₁ : QueueInv q₁ := hq.congr rfl rfl rfl rfl rfl rfl
  unfold processMsgResponse wsfRequestQueueTrigger
  dsimp only
  cases hf : q₁.list.find? (sessionMatches q₁ msgId) with
  | none => exact hq₁
  | some n =>
    have hmem : n ∈ q.list := List.mem_of_find?_eq_some hf
    have hmatch : sessionMatches q₁ msgId n = true := List.find?_some hf
    obtain ⟨node, hnode⟩ : ∃ node, q.heap n = some node := by
      cases h : q.heap n with
      | none => simp [sessionMatches, q₁, h] at hmatch
      | some node => exact ⟨node, rfl⟩
    have hlt : n < q.nextAddr := hq.lt_of_mem hmem
    dsimp only
    rw [@withNode_of_some q₁ n node hnode]
    refine ⟨?_, ?_, hq.max_pos, hq.nodup.erase n, ?_, ?_, ?_, ?_⟩
    · dsimp only
      rw [List.length_erase_of_mem hmem, hq.length_eq]
    · dsimp only [setNode]
      rw [List.length_erase_of_mem hmem]
      have := hq.length_le
      omega
    · intro m hm
      by_cases h : m = n
      · subst h
        simp [setNode]
      · simp only [setNode, Function.update_of_ne h]
        exact hq.linked_alloc m (List.mem_of_mem_erase hm)
    · intro m hm
      have hne : m ≠ n := by dsimp only [setNode] at hm; omega
      simp only [setNode, Function.update_of_ne hne]
      exact hq.fresh m hm
    · intro p hp
      simp only [Option.mem_def, Option.some.injEq] at hp
      subst hp
      exact hq.nodup.not_mem_erase
    · intro p hp
      simp only [Option.mem_def, Option.some.injEq] at hp
      subst hp
      exact hlt

/-- The delivery of `process_msg_response` keeps the bookkeeping. -/
theorem queueInv_processMsgResponseDeliver {q : RequestQueue} (hq : QueueInv q) :
    QueueInv (processMsgResponseDeliver q) := by
  unfold processMsgResponseDeliver
  cases hd : q.delivering with
  | none => exact hq
  | some p =>
    obtain ⟨n, rsp⟩ := p
    have hq₁ : QueueInv { q with delivering := none } :=
      ⟨hq.length_eq, hq.length_le, hq.max_pos, hq.nodup, hq.linked_alloc, hq.fresh, by simp, by simp⟩
    dsimp only
    apply queueInv_withNode hq₁
    intro node hnode
    have ha : (q.heap n).isSome := by rw [show q.heap n = some node from hnode]; rfl
    split
    · exact queueInv_freeNode_pop (QueueInv.records (@queueInv_setNode _ n hq₁ ha _) _ _ _ _ _ _) n
    · exact @queueInv_setNode _ n hq₁ ha _

/-- One node of a flush round keeps the bookkeeping and leaves the other linked nodes
linked. -/
theorem queueInv_wsfMsgQueueFlushNode {q : RequestQueue} (hq : QueueInv q) {n : Nat} (hn : n ∈ q.list) :
    QueueInv (wsfMsgQueueFlushNode q n) ∧ ∀ m ∈ q.list, m ≠ n → m ∈ (wsfMsgQueueFlushNode q n).list := by
  obtain ⟨node, hnode⟩ : ∃ node, q.heap n = some node := Option.isSome_iff_exists.mp (hq.linked_alloc n hn)
  rw [wsfMsgQueueFlushNode, withNode_of_some hnode]
  split
  · refine ⟨⟨?_, ?_, hq.max_pos, hq.nodup.erase n, ?_, ?_, ?_, hq.delivering_lt⟩,
      fun m hm hne => List.mem_erase_of_ne hne |>.mpr hm⟩
    · dsimp only
      rw [List.length_erase_of_mem hn, hq.length_eq]
    · dsimp only
      rw [List.length_erase_of_mem hn]
      have := hq.length_le
      omega
    · intro m hm
      have hne : m ≠ n := fun h => hq.nodup.not_mem_erase (h ▸ hm)
      dsimp only
      rw [Function.update_of_ne hne]
      exact hq.linked_alloc m (List.mem_of_mem_erase hm)
    · intro m hm
      dsimp only
      by_cases h : m = n
      · subst h
        exact Function.update_self m none q.heap
      · rw [Function.update_of_ne h]
        exact hq.fresh m hm
    · exact fun p hp hm => hq.delivering_unlinked p hp (List.mem_of_mem_erase hm)
  · exact ⟨queueInv_setNode hq (by simp [hnode]) _, fun m hm _ => hm⟩

/-- A flush round visits linked nodes only, each once, and keeps the bookkeeping. -/
theorem queueInv_foldl_flushNode (l : List Nat) :
    ∀ {q : RequestQueue}, QueueInv q → l.Nodup → (∀ m ∈ l, m ∈ q.list) →
      QueueInv (l.foldl wsfMsgQueueFlushNode q) := by
  -- induction on the nodes still to visit, which stay linked
  induction l with
  | nil => exact fun hq _ _ => hq
  | cons n l ih =>
    intro q hq hl hin
    obtain ⟨hnl, hl'⟩ := List.nodup_cons.mp hl
    obtain ⟨hq', hkeep⟩ := queueInv_wsfMsgQueueFlushNode hq (hin n (by simp))
    exact ih hq' hl' fun m hm => hkeep m (hin m (by simp [hm])) (fun he => hnl (he ▸ hm))

theorem queueInv_wsfMsgQueueFlushRound {q : RequestQueue} (hq : QueueInv q) :
    QueueInv (wsfMsgQueueFlushRound q) :=
  queueInv_foldl_flushNode q.list hq hq.nodup fun _ hm => hm

/-- Every step keeps the bookkeeping. -/
theorem queueInv_queueStep {q : RequestQueue} (hq : QueueInv q) (e : QueueEvent) :
    QueueInv (queueStep q e).1 := by
  cases e with
  | invokeSync msgId sendOk =>
    show QueueInv (wsfInvokeSync q msgId sendOk)
    have hs := queueInv_sendMsg hq msgId false sendOk
    unfold wsfInvokeSync
    split
    · next q' n heq =>
      rw [heq] at hs
      exact hs.congr rfl rfl rfl rfl rfl rfl
    · next q' heq =>
      rw [heq] at hs
      exact hs
  | invokeAsync msgId sendOk => exact queueInv_sendMsg hq msgId true sendOk
  | wake n => exact queueInv_wsfInvokeSyncWake hq n
  | response msgId =>
    show QueueInv (if q.delivering.isSome then q else processMsgResponse q msgId)
    split
    · exact hq
    · exact queueInv_processMsgResponse hq msgId
  | deliver => exact queueInv_processMsgResponseDeliver hq
  | flush =>
    show QueueInv (if q.length = 0 then q else wsfMsgQueueFlushRound q)
    split
    · exact hq
    · exact queueInv_wsfMsgQueueFlushRound hq

theorem queueInv_wsfMsgQueueInit {maxLength : Nat} (h : 0 < maxLength) : QueueInv (wsfMsgQueueInit maxLength) :=
  ⟨rfl, Nat.zero_le _, h, List.nodup_nil, by simp [wsfMsgQueueInit], fun _ _ => rfl, by simp [wsfMsgQueueInit],
    by simp [wsfMsgQueueInit]⟩

/-- Over every interleaving of the tasks, `global_request_queue->length` is the number of
linked nodes, never more than `max_msg_queue_length`, and every linked node is
allocated and linked once. -/
theorem queueInv_exec (v : Int) (evs : List QueueEvent) :
    QueueInv (exec queueStep (wsfMsgQueueInit (maxMsgQueueLength v)) evs) := by
  have hpos : 0 < maxMsgQueueLength v := by
    unfold maxMsgQueueLength defaultMsgQueueLength
    split <;> omega
  exact exec_invariant QueueInv (fun _ => True) (fun q e _ hq => queueInv_queueStep hq e)
    (queueInv_wsfMsgQueueInit hpos) (fun _ _ => trivial)

/-! ### The nodes held outside the mutex -/

theorem wsfRequestQueuePush_full_async (q : RequestQueue) (n : Nat) (h : q.maxLength ≤ q.length) :
    wsfRequestQueuePush q n true = (linkNode (wsfDelFirstMsg q) n, true) := by
  unfold wsfRequestQueuePush
  rw [if_pos h]
  rfl

theorem wsfDelFirstMsg_waiting (q : RequestQueue) : (wsfDelFirstMsg q).waiting = q.waiting := by
  unfold wsfDelFirstMsg
  split
  · rfl
  · rw [freeNode_waiting]
    exact withNode_field RequestQueue.waiting (fun _ _ => by split <;> rfl) rfl

/-- `wsf_del_first_msg` frees the oldest node, whoever holds it. -/
theorem wsfDelFirstMsg_heap_last {q : RequestQueue} {n : Nat} (hlast : q.list.getLast? = some n) :
    (wsfDelFirstMsg q).heap n = none := by
  unfold wsfDelFirstMsg
  rw [hlast]
  exact freeNode_heap_self _ n

/-- An asynchronous request on a full queue frees the oldest node and leaves the
synchronous callers waiting. -/
theorem wsfInvokeAsync_full {q : RequestQueue} (hq : QueueInv q) (hfull : q.maxLength ≤ q.length) {n : Nat}
    (hlast : q.list.getLast? = some n) (msgId : Nat) (sendOk : Bool) :
    (wsfInvokeAsync q msgId sendOk).heap n = none ∧ (wsfInvokeAsync q msgId sendOk).waiting = q.waiting := by
  -- the new node's address is not the evicted one
  have hne : n ≠ q.nextAddr := (hq.lt_of_mem (List.mem_of_getLast? hlast)).ne
  have hfull₁ : ({ (setNode q q.nextAddr ⟨msgId, true, none, 0⟩) with nextAddr := q.nextAddr + 1 }).maxLength ≤
      ({ (setNode q q.nextAddr ⟨msgId, true, none, 0⟩) with nextAddr := q.nextAddr + 1 }).length := hfull
  unfold wsfInvokeAsync sendMsg
  dsimp only
  rw [wsfRequestQueuePush_full_async _ _ hfull₁]
  have hheap : (wsfDelFirstMsg { (setNode q q.nextAddr ⟨msgId, true, none, 0⟩) with
      nextAddr := q.nextAddr + 1 }).heap n = none := wsfDelFirstMsg_heap_last hlast
  have hwait := wsfDelFirstMsg_waiting { (setNode q q.nextAddr ⟨msgId, true, none, 0⟩) with
      nextAddr := q.nextAddr + 1 }
  cases sendOk with
  | true => exact ⟨hheap, hwait⟩
  | false =>
    simp only [↓reduceIte, Bool.false_eq_true]
    refine ⟨?_, ?_⟩
    · rw [freeNode_heap_of_ne _ hne, wsfRequestQueuePop_heap]
      exact hheap
    · rw [freeNode_waiting, wsfRequestQueuePop_waiting]
      exact hwait

/-- A synchronous caller whose node was freed uses the freed node when its wait
returns. -/
theorem wsfInvokeSyncWake_of_freed {q : RequestQueue} {n : Nat} (hw : n ∈ q.waiting) (hn : q.heap n = none) :
    (wsfInvokeSyncWake q n).faults = q.faults ++ [n] := by
  unfold wsfInvokeSyncWake
  rw [if_neg (not_not.mpr hw)]
  dsimp only
  rw [@withNode_of_none { q with waiting := q.waiting.erase n } n hn]

/-- A push on a full queue for an asynchronous request evicts the oldest node even when a
synchronous caller still waits on it: the node is freed while the caller waits, and
the caller uses the freed node when its wait returns. -/
theorem invokeAsync_evicts_waiting {q : RequestQueue} (hq : QueueInv q) (hfull : q.maxLength ≤ q.length)
    {n : Nat} (hlast : q.list.getLast? = some n) (hw : n ∈ q.waiting) (msgId : Nat) (sendOk : Bool) :
    (wsfInvokeAsync q msgId sendOk).heap n = none ∧ n ∈ (wsfInvokeAsync q msgId sendOk).waiting ∧
      (wsfInvokeSyncWake (wsfInvokeAsync q msgId sendOk) n).faults =
        (wsfInvokeAsync q msgId sendOk).faults ++ [n] := by
  obtain ⟨hfree, hwait⟩ := wsfInvokeAsync_full hq hfull hlast msgId sendOk
  have hw' : n ∈ (wsfInvokeAsync q msgId sendOk).waiting := hwait ▸ hw
  exact ⟨hfree, hw', wsfInvokeSyncWake_of_freed hw' hfree⟩

/-- The trigger of a response whose node is found: the node is unlinked and holds the
response, and the receive task goes on to deliver it. -/
theorem processMsgResponse_found {q : RequestQueue} {msgId n : Nat} {node : RequestNode}
    (hfind : q.list.find? (sessionMatches q msgId) = some n) (hnode : q.heap n = some node) :
    processMsgResponse q msgId =
      { (setNode q n { node with response := some q.nextRsp }) with
        list := q.list.erase n, length := q.length - 1, nextRsp := q.nextRsp + 1,
        delivering := some (n, q.nextRsp) } := by
  have hm : sessionMatches { q with nextRsp := q.nextRsp + 1 } msgId = sessionMatches q msgId := rfl
  unfold processMsgResponse wsfRequestQueueTrigger
  dsimp only
  rw [hm, hfind]
  dsimp only
  rw [@withNode_of_some { q with nextRsp := q.nextRsp + 1 } n node hnode]
  rfl

/-- The end of `__wsf_invoke_sync` on a node the trigger already unlinked: the node is
freed, and a response it holds is lost when the wait timed out. -/
theorem wsfInvokeSyncWake_unlinked {q : RequestQueue} {n : Nat} {node : RequestNode} (hw : n ∈ q.waiting)
    (hnode : q.heap n = some node) (hn : n ∉ q.list) :
    (wsfInvokeSyncWake q n).heap n = none ∧ (wsfInvokeSyncWake q n).delivering = q.delivering ∧
      (wsfInvokeSyncWake q n).faults = q.faults ∧
      (node.sem = 0 → (wsfInvokeSyncWake q n).leaked = q.leaked ++ node.response.toList) := by
  unfold wsfInvokeSyncWake
  rw [if_neg (not_not.mpr hw)]
  dsimp only
  rw [@withNode_of_some { q with waiting := q.waiting.erase n } n node hnode]
  by_cases hs : 0 < node.sem
  · -- the wait succeeded: the response went to the caller
    rw [if_pos hs]
    refine ⟨freeNode_heap_self _ n, ?_, ?_, fun h => absurd h (by omega)⟩
    · rw [freeNode_delivering, wsfRequestQueuePop_delivering]
      rfl
    · -- the node is still allocated when it is unlinked and freed
      let X : RequestQueue := { (setNode { q with waiting := q.waiting.erase n } n
        { node with sem := node.sem - 1, response := none }) with returned := q.returned ++ node.response.toList }
      have hX : X.heap n = some { node with sem := node.sem - 1, response := none } := by simp [X, setNode]
      rw [freeNode_faults ((wsfRequestQueuePop_heap X n n).trans hX), wsfRequestQueuePop_faults hX]
      rfl
  · -- the wait timed out: the node is freed with the response in it
    rw [if_neg hs, @wsfRequestQueuePop_of_not_mem { q with waiting := q.waiting.erase n } n node hnode hn]
    unfold freeNode
    rw [@withNode_of_some { q with waiting := q.waiting.erase n } n node hnode]
    exact ⟨Function.update_self n none q.heap, rfl, rfl, fun _ => rfl⟩

/-- The delivery to a freed node uses it. -/
theorem processMsgResponseDeliver_freed {q : RequestQueue} {n rsp : Nat} (hd : q.delivering = some (n, rsp))
    (hn : q.heap n = none) :
    processMsgResponseDeliver q = { q with delivering := none, faults := q.faults ++ [n] } := by
  unfold processMsgResponseDeliver
  rw [hd]
  dsimp only
  rw [@withNode_of_none { q with delivering := none } n hn]

/-- A synchronous caller whose wait ends after the trigger of its response and before
the delivery frees its node; the receive task then uses the freed node, and a response
that the caller did not take is lost. -/
theorem wake_between_trigger_and_deliver {q : RequestQueue} (hq : QueueInv q) (hd : q.delivering = none)
    {msgId n : Nat} (hfind : q.list.find? (sessionMatches q msgId) = some n) (hw : n ∈ q.waiting)
    {node : RequestNode} (hnode : q.heap n = some node) :
    (exec queueStep q [.response msgId, .wake n, .deliver]).faults = q.faults ++ [n] ∧
      (node.sem = 0 → (exec queueStep q [.response msgId, .wake n, .deliver]).leaked = q.leaked ++ [q.nextRsp]) := by
  have hmem : n ∈ q.list := List.mem_of_find?_eq_some hfind
  -- the state after the trigger
  let q₁ : RequestQueue := { (setNode q n { node with response := some q.nextRsp }) with
    list := q.list.erase n, length := q.length - 1, nextRsp := q.nextRsp + 1,
    delivering := some (n, q.nextRsp) }
  have h₁ : (queueStep q (.response msgId)).1 = q₁ := by
    show (if q.delivering.isSome then q else processMsgResponse q msgId) = q₁
    rw [hd]
    exact processMsgResponse_found hfind hnode
  have hnode₁ : q₁.heap n = some { node with response := some q.nextRsp } := by simp [q₁, setNode]
  obtain ⟨hfree, hdel, hfault, hleak⟩ :=
    wsfInvokeSyncWake_unlinked (show n ∈ q₁.waiting from hw) hnode₁ hq.nodup.not_mem_erase
  have hrun : exec queueStep q [.response msgId, .wake n, .deliver] =
      processMsgResponseDeliver (wsfInvokeSyncWake q₁ n) := by
    simp only [exec_cons, exec_nil, h₁]
    rfl
  rw [hrun, processMsgResponseDeliver_freed (hdel.trans rfl) hfree]
  refine ⟨?_, fun hs => ?_⟩
  · dsimp only
    rw [hfault]
    rfl
  · dsimp only
    rw [hleak hs]
    rfl

/-- The request nodes are not safe from use after free: eviction frees a node whose
synchronous caller still waits on it, and a wait that ends between the trigger and the
delivery of its response frees the node the receive task then uses, and loses the
response. -/
theorem requestQueue_use_after_free :
    (∀ q : RequestQueue, QueueInv q → q.maxLength ≤ q.length → ∀ n, q.list.getLast? = some n →
      n ∈ q.waiting → ∀ (msgId : Nat) (sendOk : Bool),
        (wsfInvokeAsync q msgId sendOk).heap n = none ∧ n ∈ (wsfInvokeAsync q msgId sendOk).waiting ∧
          (wsfInvokeSyncWake (wsfInvokeAsync q msgId sendOk) n).faults =
            (wsfInvokeAsync q msgId sendOk).faults ++ [n]) ∧
    (∀ q : RequestQueue, QueueInv q → q.delivering = none → ∀ msgId n,
      q.list.find? (sessionMatches q msgId) = some n → n ∈ q.waiting → ∀ node, q.heap n = some node →
        (exec queueStep q [.response msgId, .wake n, .deliver]).faults = q.faults ++ [n] ∧
          (node.sem = 0 →
            (exec queueStep q [.response msgId, .wake n, .deliver]).leaked = q.leaked ++ [q.nextRsp])) := by
  refine ⟨?_, ?_⟩
  · intro q hq hfull n hlast hw msgId sendOk
    exact invokeAsync_evicts_waiting hq hfull hlast hw msgId sendOk
  · intro q hq hd msgId n hfind hw node hnode
    exact wake_between_trigger_and_deliver hq hd hfind hw hnode

/-- A queue of length `1` holding the node of a synchronous request `7`: an asynchronous
request `8` evicts and frees it, and the waiting caller then uses the freed node. -/
theorem requestQueue_use_after_free_evict :
    ((exec queueStep (wsfMsgQueueInit (maxMsgQueueLength 1)) [.invokeSync 7 true]).maxLength ≤
        (exec queueStep (wsfMsgQueueInit (maxMsgQueueLength 1)) [.invokeSync 7 true]).length ∧
      (exec queueStep (wsfMsgQueueInit (maxMsgQueueLength 1)) [.invokeSync 7 true]).list.getLast? = some 0 ∧
      0 ∈ (exec queueStep (wsfMsgQueueInit (maxMsgQueueLength 1)) [.invokeSync 7 true]).waiting) ∧
    (wsfInvokeSyncWake (wsfInvokeAsync (exec queueStep (wsfMsgQueueInit (maxMsgQueueLength 1))
        [.invokeSync 7 true]) 8 true) 0).faults =
      (wsfInvokeAsync (exec queueStep (wsfMsgQueueInit (maxMsgQueueLength 1)) [.invokeSync 7 true]) 8 true).faults ++
        [0] :=
  ⟨⟨by decide, by decide, by decide⟩,
    (requestQueue_use_after_free.1 _ (queueInv_exec 1 _) (by decide) 0 (by decide) (by decide) 8 true).2.2⟩

end Wsf
