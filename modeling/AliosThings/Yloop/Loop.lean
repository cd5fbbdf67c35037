import Mathlib

/-!
# The readers of `aos_loop_run`

`yloop.c` keeps its readers in `readers[]` and the matching `struct pollfd` in
`pollfds[]`, both reallocated to `reader_count + 1` entries by `aos_poll_read_fd`.
`aos_cancel_poll_read_fd` closes the gap in `readers[]` alone and counts one reader
less; the round of `aos_loop_run` has already copied the count, and after `aos_poll`
it goes through both arrays in step, calling the callback of `readers[i]` when
`pollfds[i]` came back with `POLLIN`. A callback that cancels a reader therefore shifts
the readers under the results of `aos_poll`.

The arrays are maps from the index, with the size of their last allocation; an entry
of `pollfds[]` that a reallocation did not copy holds no value until the next round
writes it. The timers of the loop are not modelled: they run before the readers and
touch neither array.
-/

namespace Yloop

/-- `yloop_sock_t`; the callback is named by its address. -/
structure YloopSock where
  sock : Int
  privateData : Nat
  cb : Nat
  deriving DecidableEq, Repr

/-- `struct pollfd` as the loop reads it: the socket, and whether `POLLIN` came back. -/
structure PollFd where
  fd : Int
  pollin : Bool
  deriving DecidableEq, Repr

/-- `yloop_ctx_t` without its timers, event descriptor and `max_sock`, which the
readers do not use. -/
structure YloopCtx where
  readers : Nat → YloopSock
  pollfds : Nat → Option PollFd
  alloc : Nat
  readerCount : Nat

def eInval : Int := 22
def eNomem : Int := 12

namespace YloopCtx

variable (ctx : YloopCtx)

/-- The registrations: the first `reader_count` entries of `readers[]`. -/
def registered : List YloopSock := (List.range ctx.readerCount).map ctx.readers

/-- `aos_poll_read_fd`: both arrays grow by one entry, the new reader last; the new
`struct pollfd` is not written. -/
def aosPollReadFd (sock : Int) (cb data : Nat) (mallocOk : Bool) : YloopCtx × Int :=
  if sock < 0 then (ctx, -eInval)
  else if ¬ mallocOk then (ctx, -eNomem)
  else
    let cnt := ctx.readerCount + 1
    ({ readers := fun j => if j < cnt - 1 then ctx.readers j else ⟨sock, data, cb⟩
       pollfds := fun j => if j < cnt - 1 then ctx.pollfds j else none
       alloc := cnt
       readerCount := (ctx.readerCount + 1) % 256 }, 0)

/-- The loop of `aos_cancel_poll_read_fd`: the index of the first reader on `sock`. -/
def findSock (sock : Int) : Option Nat :=
  ctx.registered.findIdx? fun r => r.sock == sock

/-- `aos_cancel_poll_read_fd`: the first reader on `sock` goes, whatever its callback
and argument; the readers after it move down one entry, `pollfds[]` stays. -/
def aosCancelPollReadFd (sock : Int) (_action _param : Nat) : YloopCtx :=
  if ctx.alloc = 0 ∨ ctx.readerCount = 0 then ctx
  else
    match ctx.findSock sock with
    | none => ctx
    | some i =>
      { ctx with
        readers := fun j => if i ≤ j ∧ j < ctx.readerCount - 1 then ctx.readers (j + 1) else ctx.readers j
        readerCount := ctx.readerCount - 1 }

end YloopCtx

/-- What a callback does to the loop. -/
inductive LoopCall where
  | pollReadFd (sock : Int) (cb data : Nat) (mallocOk : Bool)
  | cancelPollReadFd (sock : Int) (cb data : Nat)
  deriving DecidableEq, Repr

def LoopCall.apply (ctx : YloopCtx) : LoopCall → YloopCtx
  | .pollReadFd sock cb data ok => (ctx.aosPollReadFd sock cb data ok).1
  | .cancelPollReadFd sock cb data => ctx.aosCancelPollReadFd sock cb data

/-- A callback the loop called: at which index, with which reader, and the context at
the moment of the call. -/
structure Invocation where
  index : Nat
  reader : YloopSock
  ctx : YloopCtx

/-- The dispatch of a round over the indices `is`: a reader whose `struct pollfd`
came back with `POLLIN` is called, and the calls it makes change the context before
the next index. An index past the arrays, or an entry never written, is undefined
behaviour, where the round stops. -/
def dispatch (behave : YloopSock → List LoopCall) : List Nat → YloopCtx → YloopCtx × List Invocation
  | [], ctx => (ctx, [])
  | i :: is, ctx =>
    if i < ctx.alloc then
      match ctx.pollfds i with
      | none => (ctx, [])
      | some pfd =>
        if pfd.pollin then
          let r := ctx.readers i
          let next := dispatch behave is ((behave r).foldl LoopCall.apply ctx)
          (next.1, ⟨i, r, ctx⟩ :: next.2)
        else dispatch behave is ctx
    else (ctx, [])

/-- The `pollfds[]` of a round after `aos_poll`: each of the first `readers` entries
holds the socket of its reader and the answer `revents` gives for it. -/
def pollSet (ctx : YloopCtx) (readers : Nat) (revents : Nat → Bool) : YloopCtx :=
  { ctx with pollfds := fun i => if i < readers then some ⟨(ctx.readers i).sock, revents i⟩ else ctx.pollfds i }

/-- One round of `aos_loop_run` over the readers: the count is copied, the sockets go to
`aos_poll`, and with a positive answer the readers are dispatched. -/
def loopRound (behave : YloopSock → List LoopCall) (revents : Nat → Bool) (ctx : YloopCtx) :
    YloopCtx × List Invocation :=
  let readers := ctx.readerCount
  let ctx := pollSet ctx readers revents
  if (List.range readers).countP revents = 0 then (ctx, [])
  else dispatch behave (List.range readers) ctx

/-- A callback the loop calls is a registered reader at the moment of the call, and
`aos_poll` reported `POLLIN` for its socket in that round. -/
def DispatchOk (ctx : YloopCtx) (revents : Nat → Bool) (inv : Invocation) : Prop :=
  inv.reader ∈ inv.ctx.registered ∧
    ∃ i < ctx.readerCount, (ctx.readers i).sock = inv.reader.sock ∧ revents i = true

/-! ## Cancelling a reader -/

namespace YloopCtx

variable (ctx : YloopCtx)

@[simp] theorem length_registered : ctx.registered.length = ctx.readerCount := by
  simp [registered]

end YloopCtx

/-! ## Rounds of the loop -/

instance (ctx : YloopCtx) (revents : Nat → Bool) (inv : Invocation) :
    Decidable (DispatchOk ctx revents inv) :=
  inferInstanceAs (Decidable (_ ∧ ∃ i < ctx.readerCount, _))

def sockA : YloopSock := ⟨3, 0, 1⟩
def sockB : YloopSock := ⟨4, 0, 2⟩
def sockC : YloopSock := ⟨5, 0, 3⟩

/-- Readers on sockets `3` and `4`, as two calls of `aos_poll_read_fd` leave them. -/
def twoReaders : YloopCtx := ⟨fun j => if j = 0 then sockA else sockB, fun _ => none, 2, 2⟩

/-- Readers on sockets `3`, `4` and `5`. -/
def threeReaders : YloopCtx :=
  ⟨fun j => if j = 0 then sockA else if j = 1 then sockB else sockC, fun _ => none, 3, 3⟩

/-- Two readers on socket `3`: callback `1` with argument `0`, callback `2` with
argument `1`. -/
def sharedSock : YloopCtx := ⟨fun j => if j = 0 then ⟨3, 0, 1⟩ else ⟨3, 1, 2⟩, fun _ => none, 2, 2⟩

/-- The callback of the reader on socket `3` cancels the reader on socket `4`. -/
def cancelsNext (r : YloopSock) : List LoopCall := if r.cb = 1 then [.cancelPollReadFd 4 2 0] else []

/-- The callback of the reader on socket `3` cancels itself. -/
def cancelsSelf (r : YloopSock) : List LoopCall := if r.cb = 1 then [.cancelPollReadFd 3 1 0] else []

/-- Three rounds that call a callback on a stale registration. With both sockets
ready, the first callback cancels the second reader, which is called all the same: its
stale copy is still at index `1`. With sockets `3` and `4` ready, the first callback
cancels itself, and the loop then calls the reader on socket `5` for the answer
`aos_poll` gave for socket `4`. And cancelling callback `2` with argument `1` on the
shared socket removes the registration of callback `1`. -/
theorem aosLoopRun_dispatch_stale :
    (∃ inv ∈ (loopRound cancelsNext (fun _ => true) twoReaders).2,
      ¬ DispatchOk twoReaders (fun _ => true) inv) ∧
    (∃ inv ∈ (loopRound cancelsSelf (fun i => decide (i < 2)) threeReaders).2,
      ¬ DispatchOk threeReaders (fun i => decide (i < 2)) inv) ∧
    (sharedSock.aosCancelPollReadFd 3 2 1).registered = [⟨3, 1, 2⟩] := by
  refine ⟨by decide, by decide, by decide⟩

end Yloop
