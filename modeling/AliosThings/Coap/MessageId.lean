import AliosThings.Lib.Machine

/-!
# Message ids (`CoAPMessageId_gen`)

`CoAPContext_create` starts `ctx->message_id` at `1`, and every call of
`CoAPMessageId_gen` hands out the counter and advances it. The counter never reaches
`0`: at `COAP_MAX_MESSAGE_ID` it is set back to `1`, and that `1` is handed out without
advancing, so the next call hands out `1` again. Within one turn of the counter the
ids are the consecutive numbers from where it stands, so they are distinct; the two
calls around the reset are the one pair that repeats, once in every `65535` calls.
-/

namespace Coap

/-- `COAP_MAX_MESSAGE_ID`. -/
def coapMaxMessageId : UInt16 := 65535

/-- `ctx->message_id` as `CoAPContext_create` sets it. -/
def coapContextMessageId : UInt16 := 1

/-- `CoAPMessageId_gen`: the counter after the call and the id handed out. -/
def coapMessageIdGen (messageId : UInt16) (_ : Unit) : UInt16 × UInt16 :=
  if coapMaxMessageId = messageId then (1, 1) else (messageId + 1, messageId)

/-- The ids of `k` calls from the counter `m`. -/
def coapMessageIds (m : UInt16) (k : Nat) : List UInt16 :=
  Machine.replies coapMessageIdGen m (List.replicate k ())

/-- The counter after `k` calls from `m`. -/
def coapMessageIdAfter (m : UInt16) (k : Nat) : UInt16 :=
  Machine.exec coapMessageIdGen m (List.replicate k ())

/-! ### No id is `0` -/

theorem coapMessageIdGen_ne_zero {m : UInt16} (hm : m ≠ 0) :
    (coapMessageIdGen m ()).1 ≠ 0 ∧ (coapMessageIdGen m ()).2 ≠ 0 := by
  unfold coapMessageIdGen
  split
  · exact ⟨by decide, by decide⟩
  · rename_i h
    -- below `COAP_MAX_MESSAGE_ID` the increment does not wrap
    have hlt : m.toNat < 65535 := by
      have : m.toNat ≠ 65535 := fun h' => h (UInt16.toNat_inj.mp (by rw [h']; rfl))
      have := m.toNat_lt
      omega
    refine ⟨fun h0 => ?_, hm⟩
    have h1 := congrArg UInt16.toNat h0
    rw [UInt16.toNat_add, UInt16.toNat_one, Nat.mod_eq_of_lt (by omega)] at h1
    cases h1

/-- Every id handed out from a counter that is not `0`, in particular from the
counter `CoAPContext_create` sets, is not `0`. -/
theorem coapMessageIds_ne_zero {m : UInt16} (hm : m ≠ 0) (k : Nat) :
    ∀ id ∈ coapMessageIds m k, id ≠ 0 :=
  Machine.replies_invariant (fun m => m ≠ 0) (fun _ => True) (fun id => id ≠ 0)
    (fun _ _ _ h => (coapMessageIdGen_ne_zero h).1) (fun _ _ _ h => (coapMessageIdGen_ne_zero h).2)
    hm (fun _ _ => trivial)

/-! ### One turn of the counter -/

/-- Below `COAP_MAX_MESSAGE_ID` a call hands out the counter and adds one. -/
theorem coapMessageIdGen_of_lt {m : UInt16} (hm : m.toNat < 65535) :
    coapMessageIdGen m () = (m + 1, m) := by
  have hne : coapMaxMessageId ≠ m := fun h => by
    rw [← h] at hm
    exact absurd hm (by decide)
  simp [coapMessageIdGen, hne]

/-- From the counter `m`, the next `k` calls that stay within the turn hand out
`m, m + 1, …, m + k - 1` and leave `m + k`. -/
theorem coapMessageIds_turn (k : Nat) {m : UInt16} (hk : m.toNat + k ≤ 65535) :
    (coapMessageIds m k).map UInt16.toNat = List.range' m.toNat k ∧
      (coapMessageIdAfter m k).toNat = m.toNat + k := by
  induction k generalizing m with
  | zero => exact ⟨rfl, rfl⟩
  | succ k ih =>
    have hstep := coapMessageIdGen_of_lt (m := m) (by omega)
    have hnext : (m + 1).toNat = m.toNat + 1 := by
      rw [UInt16.toNat_add, UInt16.toNat_one, Nat.mod_eq_of_lt (by omega)]
    obtain ⟨hids, hafter⟩ := ih (m := m + 1) (by omega)
    unfold coapMessageIds coapMessageIdAfter at *
    rw [List.replicate_succ, Machine.replies, Machine.exec_cons, hstep]
    refine ⟨?_, by rw [hafter, hnext]; omega⟩
    rw [List.map_cons, hids, hnext, List.range'_succ]

/-- Every `65535` calls the counter is back where `CoAPContext_create` set it. -/
theorem coapMessageIdAfter_period (j : Nat) :
    coapMessageIdAfter coapContextMessageId (65535 * j) = coapContextMessageId := by
  induction j with
  | zero => rfl
  | succ j ih =>
    -- `65534` calls bring the counter to `COAP_MAX_MESSAGE_ID`, the next one resets it
    have hturn := (coapMessageIds_turn 65534 (m := coapContextMessageId) (by decide)).2
    have hmax : coapMessageIdAfter coapContextMessageId 65534 = coapMaxMessageId :=
      UInt16.toNat_inj.mp hturn
    unfold coapMessageIdAfter at *
    rw [Nat.mul_succ, List.replicate_add, Machine.exec_append, ih, show 65535 = 65534 + 1 from rfl,
      List.replicate_add, Machine.exec_append, hmax]
    rfl

/-- After any number of whole turns, the `65535`th and the `65536`th calls from then on
both hand out `1`. -/
theorem coapMessageIdGen_repeats_one (j : Nat) :
    (coapMessageIds coapContextMessageId (65535 * j + 65536)).drop (65535 * j + 65534) = [1, 1] := by
  have hturn := (coapMessageIds_turn 65534 (m := coapContextMessageId) (by decide)).2
  have hmax : coapMessageIdAfter coapContextMessageId 65534 = coapMaxMessageId :=
    UInt16.toNat_inj.mp hturn
  have hprefix := coapMessageIdAfter_period j
  unfold coapMessageIds coapMessageIdAfter at *
  rw [show 65535 * j + 65536 = (65535 * j + 65534) + 2 by omega, List.replicate_add,
    Machine.replies_append, List.drop_left' (by simp), List.replicate_add, Machine.exec_append,
    hprefix, hmax]
  rfl

end Coap
