import AliosThings.Lib.Fifo
import AliosThings.Rhino.RingbufFix

/-!
# Both kinds of ring buffer refine a bounded FIFO

A client sees a ring buffer through the calls `ringbuf_push` and `ringbuf_pop`
and their replies. `ringbufStep` is one such call on the model; the FIFO of
`Fifo.step` is what the buffer is for: a dynamic buffer of `N` bytes is a FIFO
of messages each weighing its header and payload, a fixed buffer of `m` blocks
of `b` bytes is a FIFO of blocks each weighing `b`. The step lemmas show that
each call keeps the representation invariant and answers as the FIFO does;
the simulation rule of `Machine` carries this over every run from
`ringbuf_init`.
-/

namespace Rhino

open RingMemory Machine

/-- What a call reports: the status, and for a pop the bytes written to `pdata`
and the value written to `*plen`. -/
inductive RingbufReply where
  | push (st : Kstat)
  | pop (st : Kstat) (data : List UInt8) (plen : Option Nat)
  deriving DecidableEq, Repr

/-- One call on the buffer: `ringbuf_push` of a whole message, or `ringbuf_pop`. -/
def ringbufStep (rb : KRingbuf) : Fifo.Op (List UInt8) → KRingbuf × RingbufReply
  | .push data =>
    match ringbufPush rb data data.length with
    | (rb', st) => (rb', .push st)
  | .pop =>
    match ringbufPop rb with
    | (rb', st, out, plen) => (rb', .pop st out plen)

/-- How the FIFO's answers show at the interface: a refused push is
`RHINO_RINGBUF_FULL`, a pop gives the message and its length. -/
def ringbufReply : Fifo.Out (List UInt8) → RingbufReply
  | .pushed true => .push .success
  | .pushed false => .push .ringbufFull
  | .popped none => .pop .ringbufEmpty [] none
  | .popped (some m) => .pop .success m (some m.length)

/-- The size of the length header as the interface states it: one, two or three
bytes for lengths up to `0x7f`, `0x3fff` and beyond. -/
def ringbufHdrSize (len : Nat) : Nat :=
  if len ≤ 127 then 1 else if len ≤ 0x3fff then 2 else 3

/-- The room a message takes in a dynamic buffer. -/
def ringbufDynWeight (m : List UInt8) : Nat :=
  ringbufHdrSize m.length + m.length

/-- The calls on a dynamic buffer: messages of `1` to `0x3fffff` bytes. -/
def RingbufDynOk : Fifo.Op (List UInt8) → Prop
  | .push m => RingbufMsgOk m
  | .pop => True

/-- The calls on a fixed buffer of `b`-byte blocks: whole blocks. -/
def RingbufFixOk (b : Nat) : Fifo.Op (List UInt8) → Prop
  | .push m => m.length = b
  | .pop => True

instance : DecidablePred RingbufDynOk := fun op => by
  cases op <;> unfold RingbufDynOk <;> infer_instance

instance (b : Nat) : DecidablePred (RingbufFixOk b) := fun op => by
  cases op <;> unfold RingbufFixOk <;> infer_instance

theorem ringbufHdrSize_eq {len : Nat} (h : len ≤ ringbufLen3bytesMaxvalue) :
    ringbufHdrSize len = compressLen len := by
  unfold ringbufHdrSize
  rcases compressLen_cases h with ⟨h1, h2⟩ | ⟨h1, h2, h3⟩ | ⟨h1, h2⟩
  · rw [h2, if_pos h1]
  · rw [h3, if_neg (by omega), if_pos h2]
  · rw [h2, if_neg (by omega), if_neg (by omega)]

theorem ringbufDynWeight_eq {m : List UInt8} (hm : RingbufMsgOk m) :
    ringbufDynWeight m = ringbufMsgSize m := by
  rw [ringbufDynWeight, ringbufMsgSize, ringbufHdrSize_eq hm.2]

theorem load_dynWeight {q : List (List UInt8)} (h : ∀ m ∈ q, RingbufMsgOk m) :
    Fifo.load ringbufDynWeight q = ringbufUsed q := by
  induction q with
  | nil => rfl
  | cons m q ih =>
    rw [Fifo.load_cons, ringbufUsed_cons, ringbufDynWeight_eq (h m (by simp)),
      ih (fun m' hm' => h m' (by simp [hm']))]

section Dyn

variable {rb : KRingbuf} {q : List (List UInt8)}

/-- A push on a dynamic buffer succeeds exactly when the message and its header
fit in the free room, and a refused push changes nothing. -/
theorem ringbufStep_push_dyn (hI : RingbufDynInv rb q) {m : List UInt8} (hm : RingbufMsgOk m) :
    ((ringbufStep rb (.push m)).2 = .push .success ↔ ringbufDynWeight m ≤ rb.freesize) ∧
      ((ringbufStep rb (.push m)).2 ≠ .push .success → (ringbufStep rb (.push m)).1 = rb) := by
  rw [ringbufDynWeight_eq hm]
  by_cases hroom : ringbufMsgSize m ≤ rb.freesize
  · obtain ⟨rb', hpush, -, -⟩ := ringbufPush_dyn_ok hI hm hroom
    simp [ringbufStep, hpush, hroom]
  · rw [ringbufStep, ringbufPush_dyn_full hI hm (by omega)]
    simp [hroom]

/-- A pop on a dynamic buffer gives back the oldest message and its length. -/
theorem ringbufStep_pop_dyn {m : List UInt8} (hI : RingbufDynInv rb (m :: q)) :
    (ringbufStep rb .pop).2 = .pop .success m (some m.length) := by
  obtain ⟨rb', hpop, -, -⟩ := ringbufPop_dyn_ok hI
  simp [ringbufStep, hpop]

/-- The step lemma of the dynamic buffer: every admissible call answers as the
FIFO does and keeps the representation of the FIFO's queue. -/
theorem ringbufStep_dyn (hI : RingbufDynInv rb q) {op : Fifo.Op (List UInt8)}
    (hop : RingbufDynOk op) :
    (ringbufStep rb op).2 = ringbufReply (Fifo.step ringbufDynWeight rb.bufEnd q op).2 ∧
      (ringbufStep rb op).1.bufEnd = rb.bufEnd ∧
      RingbufDynInv (ringbufStep rb op).1 (Fifo.step ringbufDynWeight rb.bufEnd q op).1 := by
  have hload := load_dynWeight hI.msgs
  have hfree := hI.free
  cases op with
  | push m =>
    rw [RingbufDynOk] at hop
    have hw := ringbufDynWeight_eq hop
    by_cases hroom : ringbufMsgSize m ≤ rb.freesize
    · obtain ⟨rb', hpush, hend, hI'⟩ := ringbufPush_dyn_ok hI hop hroom
      have hfits : Fifo.load ringbufDynWeight q + ringbufDynWeight m ≤ rb.bufEnd := by omega
      have hstep : ringbufStep rb (.push m) = (rb', .push .success) := by
        simp [ringbufStep, hpush]
      rw [hstep, Fifo.step_push, if_pos hfits]
      exact ⟨rfl, hend, hI'⟩
    · have hfits : ¬ Fifo.load ringbufDynWeight q + ringbufDynWeight m ≤ rb.bufEnd := by omega
      have hstep : ringbufStep rb (.push m) = (rb, .push .ringbufFull) := by
        simp [ringbufStep, ringbufPush_dyn_full hI hop (by omega)]
      rw [hstep, Fifo.step_push, if_neg hfits]
      exact ⟨rfl, rfl, hI⟩
  | pop =>
    cases q with
    | nil =>
      have hstep : ringbufStep rb .pop = (rb, .pop .ringbufEmpty [] none) := by
        simp [ringbufStep, ringbufPop_dyn_empty hI]
      rw [hstep, Fifo.step_pop_nil]
      exact ⟨rfl, rfl, hI⟩
    | cons m q =>
      obtain ⟨rb', hpop, hend, hI'⟩ := ringbufPop_dyn_ok hI
      have hstep : ringbufStep rb .pop = (rb', .pop .success m (some m.length)) := by
        simp [ringbufStep, hpop]
      rw [hstep, Fifo.step_pop_cons]
      exact ⟨rfl, hend, hI'⟩

end Dyn

/-- Every run of admissible calls from `ringbuf_init` keeps a dynamic buffer of
`N` bytes the representation of the FIFO's queue. -/
theorem ringbufDyn_exec (mem : Nat → UInt8) {N : Nat} (hN : 0 < N) (blockSize : Nat)
    {ops : List (Fifo.Op (List UInt8))} (hops : ∀ op ∈ ops, RingbufDynOk op) :
    RingbufDynInv (exec ringbufStep (ringbufInit mem N .dyn blockSize) ops)
        (exec (Fifo.step ringbufDynWeight N) [] ops) ∧
      (exec ringbufStep (ringbufInit mem N .dyn blockSize) ops).bufEnd = N := by
  refine exec_sim (fun rb q => RingbufDynInv rb q ∧ rb.bufEnd = N) RingbufDynOk ?_
    ⟨ringbufDynInv_init mem hN blockSize, rfl⟩ hops
  rintro rb q op hop ⟨hI, rfl⟩
  obtain ⟨-, hend, hI'⟩ := ringbufStep_dyn hI hop
  exact ⟨hI', hend⟩

theorem ringbufDyn_refines_fifo (mem : Nat → UInt8) {N : Nat} (hN : 2 ≤ N) (blockSize : Nat)
    (ops : List (Fifo.Op (List UInt8))) (hops : ∀ op ∈ ops, RingbufDynOk op) :
    let rb := exec ringbufStep (ringbufInit mem N .dyn blockSize) ops
    let q := exec (Fifo.step ringbufDynWeight N) [] ops
    (rb.head ≤ N ∧ rb.tail ≤ N ∧ rb.freesize + Fifo.load ringbufDynWeight q = N ∧
      (ringbufIsEmpty rb = true ↔ q = []) ∧ RingbufDynInv rb q) ∧
    (∀ m, RingbufMsgOk m →
      ((ringbufStep rb (.push m)).2 = .push .success ↔ ringbufDynWeight m ≤ rb.freesize) ∧
      ((ringbufStep rb (.push m)).2 ≠ .push .success → (ringbufStep rb (.push m)).1 = rb)) ∧
    (∀ m q', q = m :: q' → (ringbufStep rb .pop).2 = .pop .success m (some m.length)) ∧
    (∀ op, RingbufDynOk op →
      (ringbufStep rb op).2 = ringbufReply (Fifo.step ringbufDynWeight N q op).2) := by
  intro rb q
  obtain ⟨hI, hE⟩ : RingbufDynInv rb q ∧ rb.bufEnd = N :=
    ringbufDyn_exec mem (show 0 < N by omega) blockSize hops
  clear_value rb q
  have hload := load_dynWeight hI.msgs
  refine ⟨⟨?_, ?_, ?_, ringbufIsEmpty_iff hI, hI⟩, fun m hm => ringbufStep_push_dyn hI hm, ?_, ?_⟩
  · exact hE ▸ hI.head_le
  · exact hE ▸ hI.tail_le
  · rw [hload, ← hE]
    exact hI.free
  · rintro m q' rfl
    exact ringbufStep_pop_dyn hI
  · intro op hop
    rw [← hE]
    exact (ringbufStep_dyn hI hop).1

theorem ringbufDyn_refines_fifo_run :
    let rb := exec ringbufStep (ringbufInit (fun _ => 0) 8 .dyn 0) [.push [1, 2, 3], .pop, .push [4]]
    let q := exec (Fifo.step ringbufDynWeight 8) [] [.push [1, 2, 3], .pop, .push [4]]
    (2 ≤ 8 ∧ ∀ op ∈ [.push [1, 2, 3], .pop, .push [4]], RingbufDynOk op) ∧
    (rb.head ≤ 8 ∧ rb.tail ≤ 8 ∧ rb.freesize + Fifo.load ringbufDynWeight q = 8 ∧
      (ringbufIsEmpty rb = true ↔ q = []) ∧ RingbufDynInv rb q) ∧
    (∀ m, RingbufMsgOk m →
      ((ringbufStep rb (.push m)).2 = .push .success ↔ ringbufDynWeight m ≤ rb.freesize) ∧
      ((ringbufStep rb (.push m)).2 ≠ .push .success → (ringbufStep rb (.push m)).1 = rb)) ∧
    (∀ m q', q = m :: q' → (ringbufStep rb .pop).2 = .pop .success m (some m.length)) ∧
    (∀ op, RingbufDynOk op →
      (ringbufStep rb op).2 = ringbufReply (Fifo.step ringbufDynWeight 8 q op).2) :=
  ⟨⟨by decide, by decide⟩,
    ringbufDyn_refines_fifo (fun _ => 0) (by decide) 0 [.push [1, 2, 3], .pop, .push [4]] (by decide)⟩

section Fix

variable {rb : KRingbuf} {q : List (List UInt8)}

/-- The step lemma of the fixed buffer: every call with a whole block answers as
the FIFO of blocks does and keeps the representation of its queue. -/
theorem ringbufStep_fix (hI : RingbufFixInv rb q) {op : Fifo.Op (List UInt8)}
    (hop : RingbufFixOk rb.blkSize op) :
    (ringbufStep rb op).2 = ringbufReply (Fifo.step (fun _ => rb.blkSize) rb.bufEnd q op).2 ∧
      (ringbufStep rb op).1.bufEnd = rb.bufEnd ∧ (ringbufStep rb op).1.blkSize = rb.blkSize ∧
      RingbufFixInv (ringbufStep rb op).1 (Fifo.step (fun _ => rb.blkSize) rb.bufEnd q op).1 := by
  have hfree := hI.free
  have hload : Fifo.load (fun _ => rb.blkSize) q = rb.blkSize * q.length := Fifo.load_const _ q
  cases op with
  | push blk =>
    rw [RingbufFixOk] at hop
    by_cases hroom : rb.blkSize ≤ rb.freesize
    · obtain ⟨rb', hpush, hend, hblk, hI'⟩ := ringbufPush_fix_ok hI hop hroom
      have hfits : Fifo.load (fun _ => rb.blkSize) q + rb.blkSize ≤ rb.bufEnd := by omega
      have hstep : ringbufStep rb (.push blk) = (rb', .push .success) := by
        simp [ringbufStep, hpush]
      rw [hstep, Fifo.step_push, if_pos hfits]
      exact ⟨rfl, hend, hblk, hI'⟩
    · have hfits : ¬ Fifo.load (fun _ => rb.blkSize) q + rb.blkSize ≤ rb.bufEnd := by omega
      have hstep : ringbufStep rb (.push blk) = (rb, .push .ringbufFull) := by
        simp [ringbufStep, ringbufPush_fix_full hI blk blk.length (by omega)]
      rw [hstep, Fifo.step_push, if_neg hfits]
      exact ⟨rfl, rfl, rfl, hI⟩
  | pop =>
    cases q with
    | nil =>
      have hstep : ringbufStep rb .pop = (rb, .pop .ringbufEmpty [] none) := by
        simp [ringbufStep, ringbufPop_fix_empty hI]
      rw [hstep, Fifo.step_pop_nil]
      exact ⟨rfl, rfl, rfl, hI⟩
    | cons blk q =>
      have hblk := hI.blocks blk (by simp)
      obtain ⟨rb', hpop, hend, hbs, hI'⟩ := ringbufPop_fix_ok hI
      have hstep : ringbufStep rb .pop = (rb', .pop .success blk (some blk.length)) := by
        simp [ringbufStep, hpop, hblk]
      rw [hstep, Fifo.step_pop_cons]
      exact ⟨rfl, hend, hbs, hI'⟩

end Fix

/-- `krhino_ringbuf_init` accepts a fixed buffer of `m` blocks of `b` bytes. -/
theorem krhinoRingbufInit_fix (mem : Nat → UInt8) {b m : Nat} (hb : 0 < b) (hm : 0 < m) :
    krhinoRingbufInit mem (m * b) .fix b = (some (ringbufInit mem (m * b) .fix b), .success) := by
  have hN : m * b ≠ 0 := Nat.mul_ne_zero (by omega) (by omega)
  simp [krhinoRingbufInit, hN, Nat.mul_mod_left, Nat.pos_iff_ne_zero.1 hb]

/-- Every run of whole-block calls from `ringbuf_init` keeps a fixed buffer of
`m` blocks the representation of the FIFO's queue of blocks. -/
theorem ringbufFix_exec (mem : Nat → UInt8) {b m : Nat} (hb : 0 < b) (hm : 0 < m)
    {ops : List (Fifo.Op (List UInt8))} (hops : ∀ op ∈ ops, RingbufFixOk b op) :
    RingbufFixInv (exec ringbufStep (ringbufInit mem (m * b) .fix b) ops)
        (exec (Fifo.step (fun _ => b) (m * b)) [] ops) ∧
      (exec ringbufStep (ringbufInit mem (m * b) .fix b) ops).bufEnd = m * b ∧
      (exec ringbufStep (ringbufInit mem (m * b) .fix b) ops).blkSize = b := by
  refine exec_sim (fun rb q => RingbufFixInv rb q ∧ rb.bufEnd = m * b ∧ rb.blkSize = b)
    (RingbufFixOk b) ?_ ⟨ringbufFixInv_init mem hb hm, rfl, rfl⟩ hops
  rintro rb q op hop ⟨hI, hE, rfl⟩
  obtain ⟨-, hend, hbs, hI'⟩ := ringbufStep_fix hI hop
  rw [← hE]
  exact ⟨hI', hend, hbs⟩

theorem ringbufFix_refines_fifo (mem : Nat → UInt8) {b m : Nat} (hb : 0 < b) (hm : 0 < m)
    (ops : List (Fifo.Op (List UInt8))) (hops : ∀ op ∈ ops, RingbufFixOk b op) :
    let rb := exec ringbufStep (ringbufInit mem (m * b) .fix b) ops
    let q := exec (Fifo.step (fun _ => b) (m * b)) [] ops
    (rb.head ≤ m * b ∧ rb.tail ≤ m * b ∧ rb.freesize + b * q.length = m * b ∧
      RingbufFixInv rb q) ∧
    (∀ blk : List UInt8, blk.length = b →
      ((ringbufStep rb (.push blk)).2 = .push .success ↔ q.length < m)) ∧
    (∀ blk q', q = blk :: q' → (ringbufStep rb .pop).2 = .pop .success blk (some b)) ∧
    (q = [] → (ringbufStep rb .pop).2 = .pop .ringbufEmpty [] none) ∧
    (∀ op, RingbufFixOk b op →
      (ringbufStep rb op).2 = ringbufReply (Fifo.step (fun _ => b) (m * b) q op).2) := by
  intro rb q
  obtain ⟨hI, hE, hB⟩ : RingbufFixInv rb q ∧ rb.bufEnd = m * b ∧ rb.blkSize = b :=
    ringbufFix_exec mem hb hm hops
  clear_value rb q
  subst hB
  have hstep : ∀ op, RingbufFixOk rb.blkSize op →
      (ringbufStep rb op).2 = ringbufReply (Fifo.step (fun _ => rb.blkSize) (m * rb.blkSize) q op).2 :=
    fun op hop => hE ▸ (ringbufStep_fix hI hop).1
  refine ⟨⟨hE ▸ hI.head_le, hE ▸ hI.tail_le, hE ▸ hI.free, hI⟩, ?_, ?_, ?_, hstep⟩
  · intro blk hblk
    rw [hstep (.push blk) hblk, Fifo.step_push, Fifo.load_const]
    -- `b * n + b ≤ m * b` is `n < m` for a positive block size
    have hiff : rb.blkSize * q.length + rb.blkSize ≤ m * rb.blkSize ↔ q.length < m := by
      rw [← Nat.mul_succ, Nat.mul_comm m, Nat.mul_le_mul_left_iff hI.blk_pos]
      omega
    by_cases hlt : q.length < m
    · simp [ringbufReply, hiff.2 hlt, hlt]
    · simp [ringbufReply, mt hiff.1 hlt, hlt]
  · rintro blk q' rfl
    rw [hstep .pop trivial, Fifo.step_pop_cons, ringbufReply, hI.blocks blk (by simp)]
  · rintro rfl
    rw [hstep .pop trivial, Fifo.step_pop_nil, ringbufReply]

theorem ringbufFix_refines_fifo_run :
    let rb := exec ringbufStep (ringbufInit (fun _ => 0) (2 * 2) .fix 2)
      [.push [1, 2], .push [3, 4], .pop, .push [5, 6]]
    let q := exec (Fifo.step (fun _ => 2) (2 * 2)) []
      [.push [1, 2], .push [3, 4], .pop, .push [5, 6]]
    (0 < 2 ∧ 0 < 2 ∧ ∀ op ∈ [.push [1, 2], .push [3, 4], .pop, .push [5, 6]], RingbufFixOk 2 op) ∧
    (rb.head ≤ 2 * 2 ∧ rb.tail ≤ 2 * 2 ∧ rb.freesize + 2 * q.length = 2 * 2 ∧
      RingbufFixInv rb q) ∧
    (∀ blk : List UInt8, blk.length = 2 →
      ((ringbufStep rb (.push blk)).2 = .push .success ↔ q.length < 2)) ∧
    (∀ blk q', q = blk :: q' → (ringbufStep rb .pop).2 = .pop .success blk (some 2)) ∧
    (q = [] → (ringbufStep rb .pop).2 = .pop .ringbufEmpty [] none) ∧
    (∀ op, RingbufFixOk 2 op →
      (ringbufStep rb op).2 = ringbufReply (Fifo.step (fun _ => 2) (2 * 2) q op).2) :=
  ⟨⟨by decide, by decide, by decide⟩,
    ringbufFix_refines_fifo (fun _ => 0) (by decide) (by decide)
      [.push [1, 2], .push [3, 4], .pop, .push [5, 6]] (by decide)⟩

end Rhino
