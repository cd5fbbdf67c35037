import Mathlib

/-!
# Reading one packet in the MQTT client

`iotx_mc_read_packet` reads the header byte, decodes the remaining length byte by byte
with `iotx_mc_decode_packet`, writes it back into `buf_read` with `MQTTPacket_encode`,
and reads the rest of the packet after it. A packet longer than `buf_size_read` takes
another path: the buffer is filled, the rest is read into a scratch buffer and dropped,
`IOTX_MQTT_EVENT_BUFFER_OVERFLOW` is raised, and `SUCCESS_RETURN` is returned with
`*packet_type` never written. `iotx_mc_cycle` then switches on its own `packetType`,
which holds whatever its stack slot held.

The network is `ipstack->read` over a byte stream: each read of `n` bytes delivers the
next bytes of the stream, as many as the network answers (fewer when the timer runs
out), or fails. Where the answers run out, every read delivers all it asks for. The
values of `FAIL_RETURN` and `MQTT_NETWORK_ERROR` are not in these sources, so the
failures are named, not numbered. Only the dispatch of `iotx_mc_cycle` is modelled: its
keepalive bookkeeping and the handlers it calls are not.
-/

namespace Mqtt

/-- How the network answers one read of `n` bytes: `ok k` delivers `k` bytes, or fewer
when the request or the stream is shorter; `error` returns a negative count. -/
inductive ReadAns where
  | ok (k : Nat)
  | error
  deriving DecidableEq, Repr

/-- The socket: the bytes still to come, and the answers to the coming reads. -/
structure Conn where
  stream : List UInt8
  answers : List ReadAns
  deriving DecidableEq, Repr

/-- What one `ipstack->read` returns, stores, and leaves of the socket. -/
structure ReadRet where
  rc : Int
  bytes : List UInt8
  conn : Conn

/-- `ipstack->read(ipstack, buf, n, timeout)`. -/
def Conn.read (c : Conn) (n : Nat) : ReadRet :=
  match c.answers.headD (.ok n) with
  | .ok k =>
    let m := min k (min n c.stream.length)
    ⟨m, c.stream.take m, ⟨c.stream.drop m, c.answers.tail⟩⟩
  | .error => ⟨-1, [], ⟨c.stream, c.answers.tail⟩⟩

/-- The failures of `iotx_mc_read_packet`. -/
inductive ReadErr where
  | failReturn
  | mqttpacketReadError
  | mqttNetworkError
  deriving DecidableEq, Repr

def maxNoOfRemainingLengthBytes : Nat := 4

/-- The loop of `iotx_mc_decode_packet` after `len` bytes that gave `value`; `left` more
bytes are allowed. It returns the number of bytes and the remaining length. -/
def decodeLoop : (left len value : Nat) → Conn → Except ReadErr (Nat × Nat) × Conn
  | 0, _, _, c => (.error .mqttpacketReadError, c)
  | left + 1, len, value, c =>
    let r := c.read 1
    if r.rc ≠ 1 then (.error .mqttNetworkError, r.conn)
    else
      let i := (r.bytes.headD 0).toNat
      let value := value + (i &&& 127) * 128 ^ len
      if i &&& 128 ≠ 0 then decodeLoop left (len + 1) value r.conn
      else (.ok (len + 1, value), r.conn)

/-- `iotx_mc_decode_packet`. -/
def iotxMcDecodePacket (c : Conn) : Except ReadErr (Nat × Nat) × Conn :=
  decodeLoop maxNoOfRemainingLengthBytes 0 0 c

/-- The `do … while (length > 0)` of `MQTTPacket_encode`, for at most `fuel` turns. -/
def encodeLoop : (fuel length : Nat) → List UInt8
  | 0, _ => []
  | fuel + 1, length =>
    let d := length % 128
    if length / 128 > 0 then (d ||| 128).toUInt8 :: encodeLoop fuel (length / 128)
    else [d.toUInt8]

/-- `MQTTPacket_encode(buf, length)`: the bytes it writes. Its loop turns at most
`length + 1` times. -/
def mqttPacketEncode (length : Nat) : List UInt8 := encodeLoop (length + 1) length

/-- The writes of `bytes` into `buf_read` from index `o` on. -/
def writeAt : Nat → List UInt8 → List (Nat × UInt8)
  | _, [] => []
  | o, b :: bs => (o, b) :: writeAt (o + 1) bs

/-- How `iotx_mc_read_packet` ends: a timeout with `*packet_type = 0`, a failure, a packet
with `*packet_type` written, a drained packet with `*packet_type` not written, or a read
of a negative length, when the buffer is shorter than the header. -/
inductive ReadResult where
  | timeout
  | fail (e : ReadErr)
  | packet (packetType : Nat)
  | overflow
  | undefined
  deriving DecidableEq, Repr

/-- The end of `iotx_mc_read_packet`, the socket after it, its writes to `buf_read`, and
whether it raised `IOTX_MQTT_EVENT_BUFFER_OVERFLOW`. -/
structure ReadOut where
  result : ReadResult
  conn : Conn
  writes : List (Nat × UInt8)
  overflowEvent : Bool

/-- The path of a packet longer than the buffer: fill the buffer, read the rest into the
scratch buffer of `LITE_malloc`, and raise the event when `handle_event.h_fp` is set. -/
def drain (bufSize len remLen : Nat) (handler mallocOk : Bool) (c : Conn)
    (w : List (Nat × UInt8)) : ReadOut :=
  if bufSize < len then ⟨.undefined, c, w, false⟩
  else
    let needReadLen := bufSize - len
    let r := c.read needReadLen
    let w := w ++ writeAt len r.bytes
    if r.rc ≠ needReadLen then ⟨.fail .failReturn, r.conn, w, false⟩
    else if ¬ mallocOk then ⟨.fail .failReturn, r.conn, w, false⟩
    else
      let remainDataLen := remLen - needReadLen
      let r' := r.conn.read remainDataLen
      if r'.rc ≠ remainDataLen then ⟨.fail .failReturn, r'.conn, w, false⟩
      else ⟨.overflow, r'.conn, w, handler⟩

/-- `iotx_mc_read_packet` after the remaining length: its encoding goes into the buffer
after the header byte `hdr`, then the rest of the packet, or the drain. -/
def readRest (bufSize : Nat) (handler mallocOk : Bool) (hdr : UInt8) (remLen : Nat) (c : Conn)
    (w : List (Nat × UInt8)) : ReadOut :=
  let enc := mqttPacketEncode remLen
  let len := 1 + enc.length
  let w := w ++ writeAt 1 enc
  if remLen > 0 ∧ remLen + len > bufSize then drain bufSize len remLen handler mallocOk c w
  else if remLen > 0 then
    let r := c.read remLen
    let w := w ++ writeAt len r.bytes
    if r.rc ≠ remLen then ⟨.fail .failReturn, r.conn, w, false⟩
    else ⟨.packet (hdr.toNat / 16), r.conn, w, false⟩
  else ⟨.packet (hdr.toNat / 16), c, w, false⟩

/-- `iotx_mc_read_packet(c, timer, &packet_type)` with `buf_size_read = bufSize`. -/
def iotxMcReadPacket (bufSize : Nat) (handler mallocOk : Bool) (c : Conn) : ReadOut :=
  let r := c.read 1
  if r.rc = 0 then ⟨.timeout, r.conn, [], false⟩
  else if r.rc ≠ 1 then ⟨.fail .failReturn, r.conn, [], false⟩
  else
    let hdr := r.bytes.headD 0
    match iotxMcDecodePacket r.conn with
    | (.error e, c) => ⟨.fail e, c, writeAt 0 r.bytes, false⟩
    | (.ok (_, remLen), c) => readRest bufSize handler mallocOk hdr remLen c (writeAt 0 r.bytes)

/-- What `iotx_mc_cycle` does with the packet it read. -/
inductive Dispatch where
  | stateError
  | idle
  | disconnect
  | connack
  | puback
  | suback
  | publish
  | unsuback
  | pingresp
  | invalidType
  | undefined
  deriving DecidableEq, Repr

/-- The `switch (packetType)` of `iotx_mc_cycle`, with `MQTT_CPT_RESERVED` tested before it. -/
def dispatchOn : Nat → Dispatch
  | 0 => .idle
  | 2 => .connack
  | 3 => .publish
  | 4 => .puback
  | 9 => .suback
  | 11 => .unsuback
  | 13 => .pingresp
  | _ => .invalidType

/-- `iotx_mc_cycle`, and the read it made: `stale` is what its uninitialised
`packetType` holds. -/
def iotxMcCycle (connected : Bool) (bufSize : Nat) (handler mallocOk : Bool) (stale : Nat)
    (c : Conn) : Dispatch × Option ReadOut :=
  if ¬ connected then (.stateError, none)
  else
    let out := iotxMcReadPacket bufSize handler mallocOk c
    match out.result with
    | .timeout => (dispatchOn 0, some out)
    | .fail _ => (.disconnect, some out)
    | .packet t => (dispatchOn t, some out)
    | .overflow => (dispatchOn stale, some out)
    | .undefined => (.undefined, some out)

/-! ## The remaining length on the wire -/

/-- A remaining length as it comes off the wire: every byte but the last has the bit
`0x80`. -/
inductive Varint : List UInt8 → Prop where
  | last {b : UInt8} (hb : b.toNat < 128) : Varint [b]
  | more {b : UInt8} {bs : List UInt8} (hb : 128 ≤ b.toNat) (hbs : Varint bs) : Varint (b :: bs)

/-- The value of a remaining length: seven bits a byte, the lowest first. -/
def varintValue : List UInt8 → Nat
  | [] => 0
  | b :: bs => b.toNat % 128 + 128 * varintValue bs

/-! ## Reads and the bytes of the remaining length -/

/-- A read that returns the count it asked for took that many bytes off the stream. -/
theorem read_rc_eq {c : Conn} {n : Nat} (h : (c.read n).rc = n) :
    n ≤ c.stream.length ∧ (c.read n).bytes = c.stream.take n ∧ (c.read n).conn.stream = c.stream.drop n := by
  cases hans : c.answers.headD (.ok n) with
  | ok k =>
    simp only [Conn.read, hans] at h ⊢
    have hm : min k (min n c.stream.length) = n := by exact_mod_cast h
    exact ⟨by omega, by rw [hm], by rw [hm]⟩
  | error =>
    simp only [Conn.read, hans] at h
    omega

/-- A read that returns `0` took nothing. -/
theorem read_rc_zero {c : Conn} {n : Nat} (h : (c.read n).rc = 0) : (c.read n).conn.stream = c.stream := by
  cases hans : c.answers.headD (.ok n) with
  | ok k =>
    simp only [Conn.read, hans] at h ⊢
    have hm : min k (min n c.stream.length) = 0 := by exact_mod_cast h
    rw [hm, List.drop_zero]
  | error => simp only [Conn.read, hans]

/-- With every read answered in full, a read of bytes the stream has takes them. -/
theorem read_full {s : List UInt8} {n : Nat} (h : n ≤ s.length) :
    (Conn.mk s []).read n = ⟨n, s.take n, ⟨s.drop n, []⟩⟩ := by
  simp [Conn.read, h]

theorem land_127 (i : Nat) : i &&& 127 = i % 128 := by
  simpa using Nat.and_two_pow_sub_one_eq_mod i 7

theorem land_128_ne_zero {i : Nat} (hi : i < 256) : i &&& 128 ≠ 0 ↔ 128 ≤ i := by
  have hbyte : ∀ j : Fin 256, (j.val &&& 128 ≠ 0 ↔ 128 ≤ j.val) := by decide +kernel
  exact hbyte ⟨i, hi⟩

/-- `iotx_mc_decode_packet` reads a remaining length of the wire to its end, whatever
follows it. -/
theorem decodeLoop_varint {v : List UInt8} (hv : Varint v) :
    ∀ {left : Nat} (len value : Nat) (rest : List UInt8), v.length ≤ left →
      decodeLoop left len value ⟨v ++ rest, []⟩ =
        (.ok (len + v.length, value + varintValue v * 128 ^ len), ⟨rest, []⟩) := by
  induction hv with
  | @last b hb =>
    intro left len value rest hleft
    obtain ⟨left, rfl⟩ : ∃ l, left = l + 1 := ⟨left - 1, by simp at hleft; omega⟩
    have hstop : ¬ (b.toNat &&& 128 ≠ 0) := by
      rw [land_128_ne_zero b.toNat_lt]
      omega
    simp [decodeLoop, read_full, hstop, land_127, varintValue]
  | @more b bs hb hbs ih =>
    intro left len value rest hleft
    obtain ⟨left, rfl⟩ : ∃ l, left = l + 1 := ⟨left - 1, by simp at hleft; omega⟩
    have hcont : b.toNat &&& 128 ≠ 0 := (land_128_ne_zero b.toNat_lt).mpr hb
    simp only [List.length_cons, Nat.add_le_add_iff_right] at hleft
    simp only [decodeLoop, List.cons_append, read_full (by simp : 1 ≤ (b :: (bs ++ rest)).length),
      List.take_succ_cons, List.take_zero, List.drop_succ_cons, List.drop_zero, Nat.cast_one, ne_eq,
      not_true_eq_false, if_false, List.headD_cons, hcont, not_false_eq_true, if_true, ih _ _ _ hleft]
    congr 3
    · simp only [List.length_cons]; omega
    · simp only [varintValue, land_127, pow_succ]; ring

/-- What `iotx_mc_decode_packet` accepts, over any answers of the network: a remaining
length of the wire, of at most `left` bytes, taken off the stream. -/
theorem decodeLoop_ok {left : Nat} :
    ∀ {len value n val : Nat} {c c' : Conn}, decodeLoop left len value c = (.ok (n, val), c') →
      ∃ v, Varint v ∧ v.length ≤ left ∧ c.stream = v ++ c'.stream ∧ n = len + v.length ∧
        val = value + varintValue v * 128 ^ len := by
  induction left with
  | zero => intro len value n val c c' h; simp [decodeLoop] at h
  | succ left ih =>
    intro len value n val c c' h
    unfold decodeLoop at h
    by_cases hrc : (c.read 1).rc = 1
    · obtain ⟨hle, hbytes, hstream⟩ := read_rc_eq (n := 1) (by exact_mod_cast hrc)
      obtain ⟨b, s, hs⟩ := List.exists_cons_of_length_pos (by omega : 0 < c.stream.length)
      rw [hs] at hbytes hstream
      simp only [hrc, ne_eq, not_true_eq_false, if_false, hbytes, List.take_succ_cons, List.take_zero,
        List.headD_cons] at h
      simp only [List.drop_succ_cons, List.drop_zero] at hstream
      by_cases hcont : b.toNat &&& 128 ≠ 0
      · -- the bit `0x80`: the loop goes on with one byte fewer allowed
        rw [if_pos hcont] at h
        obtain ⟨v, hv, hvl, hvs, hn, hval⟩ := ih h
        have hb : 128 ≤ b.toNat := (land_128_ne_zero b.toNat_lt).mp hcont
        refine ⟨b :: v, .more hb hv, by simp; omega, by rw [hs, ← hstream, hvs]; rfl, by simp; omega, ?_⟩
        rw [hval, varintValue, land_127, pow_succ]
        ring
      · rw [if_neg hcont] at h
        simp only [Prod.mk.injEq, Except.ok.injEq] at h
        obtain ⟨⟨rfl, rfl⟩, rfl⟩ := h
        have hb : b.toNat < 128 := by
          rw [land_128_ne_zero b.toNat_lt] at hcont
          omega
        refine ⟨[b], .last hb, by simp, by rw [hs, hstream]; rfl, by simp, ?_⟩
        simp [varintValue, land_127]
    · simp [hrc] at h

/-! ## A packet read in full -/

theorem mem_writeAt {o : Nat} {bs : List UInt8} {p : Nat × UInt8} (h : p ∈ writeAt o bs) :
    o ≤ p.1 ∧ p.1 < o + bs.length := by
  induction bs generalizing o with
  | nil => simp [writeAt] at h
  | cons b bs ih =>
    simp only [writeAt, List.mem_cons] at h
    rcases h with rfl | h
    · simp
    · have := ih h
      simp only [List.length_cons]
      omega

/-- With every read answered in full, `iotx_mc_read_packet` reads the header byte and a
remaining length of the wire, and goes on with what follows them. -/
theorem iotxMcReadPacket_varint (bufSize : Nat) (handler mallocOk : Bool) (h : UInt8) {v : List UInt8}
    (hv : Varint v) (hv4 : v.length ≤ maxNoOfRemainingLengthBytes) (s : List UInt8) :
    iotxMcReadPacket bufSize handler mallocOk ⟨h :: v ++ s, []⟩ =
      readRest bufSize handler mallocOk h (varintValue v) ⟨s, []⟩ (writeAt 0 [h]) := by
  have hdec : iotxMcDecodePacket ⟨v ++ s, []⟩ = (.ok (v.length, varintValue v), ⟨s, []⟩) := by
    simpa [iotxMcDecodePacket] using decodeLoop_varint hv 0 0 s hv4
  simp [iotxMcReadPacket, read_full, hdec]

/-- A body that fits after the header is read into the buffer, and the packet type is
that of the header byte. -/
theorem readRest_fits (bufSize : Nat) (handler mallocOk : Bool) (hdr : UInt8) {body : List UInt8}
    (rest : List UInt8) (w : List (Nat × UInt8))
    (hfit : 1 + (mqttPacketEncode body.length).length + body.length ≤ bufSize) :
    readRest bufSize handler mallocOk hdr body.length ⟨body ++ rest, []⟩ w =
      ⟨.packet (hdr.toNat / 16), ⟨rest, []⟩,
        w ++ writeAt 1 (mqttPacketEncode body.length) ++
          writeAt (1 + (mqttPacketEncode body.length).length) body, false⟩ := by
  have hno : ¬ (body.length > 0 ∧ body.length + (1 + (mqttPacketEncode body.length).length) > bufSize) := by
    omega
  simp only [readRest]
  rw [if_neg hno]
  by_cases hpos : body.length > 0
  · rw [if_pos hpos, read_full (by simp), List.take_left' rfl, List.drop_left' rfl]
    simp
  · have hnil : body = [] := List.eq_nil_of_length_eq_zero (by omega)
    subst hnil
    simp [writeAt]

/-- A body longer than the buffer allows is drained: the buffer is filled to
`buf_size_read`, the rest is read and dropped, and the event is raised when there is a
handler. -/
theorem readRest_overflow (bufSize : Nat) (handler : Bool) (hdr : UInt8) {body : List UInt8}
    (rest : List UInt8) (w : List (Nat × UInt8)) (hpos : 0 < body.length)
    (hlen : 1 + (mqttPacketEncode body.length).length ≤ bufSize)
    (hover : bufSize < 1 + (mqttPacketEncode body.length).length + body.length) :
    readRest bufSize handler true hdr body.length ⟨body ++ rest, []⟩ w =
      ⟨.overflow, ⟨rest, []⟩,
        w ++ writeAt 1 (mqttPacketEncode body.length) ++
          writeAt (1 + (mqttPacketEncode body.length).length)
            (body.take (bufSize - (1 + (mqttPacketEncode body.length).length))), handler⟩ := by
  simp only [readRest]
  rw [if_pos ⟨hpos, by omega⟩]
  simp only [drain]
  rw [if_neg (by omega)]
  -- the buffer takes `needReadLen` bytes of the body, the scratch buffer the others
  have hneed : bufSize - (1 + (mqttPacketEncode body.length).length) ≤ body.length := by omega
  have hrest : (body.drop (bufSize - (1 + (mqttPacketEncode body.length).length))).length =
      body.length - (bufSize - (1 + (mqttPacketEncode body.length).length)) := by simp
  rw [read_full (by simp; omega), List.take_append_of_le_length hneed, List.drop_append_of_le_length hneed,
    read_full (by simp), List.drop_left' hrest]
  simp

/-- The writes to `buf_read` of a packet that `iotx_mc_read_packet` read. -/
def packetWrites (h : UInt8) (remLen : Nat) (body : List UInt8) : List (Nat × UInt8) :=
  writeAt 0 [h] ++ writeAt 1 (mqttPacketEncode remLen) ++ writeAt (1 + (mqttPacketEncode remLen).length) body

theorem packetWrites_lt {h : UInt8} {remLen bufSize : Nat} {body : List UInt8}
    (hfit : 1 + (mqttPacketEncode remLen).length + body.length ≤ bufSize) :
    ∀ p ∈ packetWrites h remLen body, p.1 < bufSize := by
  intro p hp
  simp only [packetWrites, List.mem_append] at hp
  rcases hp with (hp | hp) | hp
  · have := mem_writeAt hp
    simp at this
    omega
  · have := mem_writeAt hp
    omega
  · have := mem_writeAt hp
    omega

/-- A packet that fits in `buf_read`, with every read answered in full: its type is
that of its header byte, the stream goes on after its last byte, and the buffer holds
the header byte, the remaining length as `MQTTPacket_encode` writes it, and the body,
all below `buf_size_read`. -/
theorem iotxMcReadPacket_fits {bufSize : Nat} {handler mallocOk : Bool} {h : UInt8}
    {v body : List UInt8} (rest : List UInt8) (hv : Varint v) (hv4 : v.length ≤ maxNoOfRemainingLengthBytes)
    (hbody : body.length = varintValue v)
    (hfit : 1 + (mqttPacketEncode (varintValue v)).length + varintValue v ≤ bufSize) :
    iotxMcReadPacket bufSize handler mallocOk ⟨h :: v ++ body ++ rest, []⟩ =
        ⟨.packet (h.toNat / 16), ⟨rest, []⟩, packetWrites h (varintValue v) body, false⟩ ∧
      ∀ p ∈ packetWrites h (varintValue v) body, p.1 < bufSize := by
  rw [← hbody] at hfit ⊢
  refine ⟨?_, packetWrites_lt hfit⟩
  rw [List.append_assoc, iotxMcReadPacket_varint _ _ _ _ hv hv4, ← hbody, readRest_fits _ _ _ _ _ _ hfit]
  rfl

/-- A packet longer than `buf_read`, with every read answered in full: the whole packet
is taken off the stream, the event is raised when there is a handler, the writes stay
below `buf_size_read`, and `*packet_type` is not written. -/
theorem iotxMcReadPacket_overflow {bufSize : Nat} {handler : Bool} {h : UInt8} {v body : List UInt8}
    (rest : List UInt8) (hv : Varint v) (hv4 : v.length ≤ maxNoOfRemainingLengthBytes)
    (hbody : body.length = varintValue v) (hpos : 0 < varintValue v)
    (hlen : 1 + (mqttPacketEncode (varintValue v)).length ≤ bufSize)
    (hover : bufSize < 1 + (mqttPacketEncode (varintValue v)).length + varintValue v) :
    (iotxMcReadPacket bufSize handler true ⟨h :: v ++ body ++ rest, []⟩).result = .overflow ∧
      (iotxMcReadPacket bufSize handler true ⟨h :: v ++ body ++ rest, []⟩).conn = ⟨rest, []⟩ ∧
      (iotxMcReadPacket bufSize handler true ⟨h :: v ++ body ++ rest, []⟩).overflowEvent = handler ∧
      ∀ p ∈ (iotxMcReadPacket bufSize handler true ⟨h :: v ++ body ++ rest, []⟩).writes, p.1 < bufSize := by
  rw [← hbody] at hpos hlen hover
  rw [List.append_assoc, iotxMcReadPacket_varint _ _ _ _ hv hv4, ← hbody,
    readRest_overflow _ _ _ _ _ hpos hlen hover]
  refine ⟨rfl, rfl, rfl, ?_⟩
  -- the body's part in the buffer ends at `buf_size_read`
  have hfit : 1 + (mqttPacketEncode body.length).length +
      (body.take (bufSize - (1 + (mqttPacketEncode body.length).length))).length ≤ bufSize := by
    simp
    omega
  exact packetWrites_lt hfit

/-! ## Any split of the stream, any timeouts -/

theorem drain_ne_packet {bufSize len remLen t : Nat} {handler mallocOk : Bool} {c : Conn}
    {w : List (Nat × UInt8)} : (drain bufSize len remLen handler mallocOk c w).result ≠ .packet t := by
  simp only [drain]
  split_ifs <;> simp

/-- A drain that ends with the event took `remLen` bytes off the stream, in two reads. -/
theorem drain_consumes {bufSize len remLen : Nat} {handler mallocOk : Bool} {c : Conn}
    {w : List (Nat × UInt8)} (hneed : bufSize - len ≤ remLen)
    (hres : (drain bufSize len remLen handler mallocOk c w).result = .overflow) :
    ∃ body, body.length = remLen ∧
      c.stream = body ++ (drain bufSize len remLen handler mallocOk c w).conn.stream := by
  simp only [drain] at hres ⊢
  by_cases hsmall : bufSize < len
  · simp [hsmall] at hres
  rw [if_neg hsmall] at hres ⊢
  by_cases hrc₁ : (c.read (bufSize - len)).rc = (bufSize - len : Nat)
  · rw [if_neg (not_not.mpr hrc₁)] at hres ⊢
    by_cases hmalloc : mallocOk = true
    · rw [if_neg (not_not.mpr hmalloc)] at hres ⊢
      by_cases hrc₂ : ((c.read (bufSize - len)).conn.read (remLen - (bufSize - len))).rc =
          (remLen - (bufSize - len) : Nat)
      · rw [if_neg (not_not.mpr hrc₂)]
        -- the buffer's part, then the scratch buffer's
        obtain ⟨hle₁, -, hs₁⟩ := read_rc_eq hrc₁
        obtain ⟨hle₂, -, hs₂⟩ := read_rc_eq hrc₂
        rw [hs₁, List.length_drop] at hle₂
        refine ⟨c.stream.take remLen, by simp; omega, ?_⟩
        rw [hs₂, hs₁, List.drop_drop, Nat.add_sub_cancel' hneed, List.take_append_drop]
      · simp [hrc₂] at hres
    · simp [hmalloc] at hres
  · simp [hrc₁] at hres

/-- The rest of a packet that `iotx_mc_read_packet` reports read, or drained, is
`remLen` bytes off the stream, and a packet type it reports is that of the header byte. -/
theorem readRest_consumes {bufSize remLen : Nat} {handler mallocOk : Bool} {hdr : UInt8} {c : Conn}
    {w : List (Nat × UInt8)}
    (hres : (readRest bufSize handler mallocOk hdr remLen c w).result = .overflow ∨
      ∃ t, (readRest bufSize handler mallocOk hdr remLen c w).result = .packet t) :
    ∃ body, body.length = remLen ∧ c.stream = body ++ (readRest bufSize handler mallocOk hdr remLen c w).conn.stream ∧
      ∀ t, (readRest bufSize handler mallocOk hdr remLen c w).result = .packet t → t = hdr.toNat / 16 := by
  simp only [readRest] at hres ⊢
  by_cases hover : remLen > 0 ∧ remLen + (1 + (mqttPacketEncode remLen).length) > bufSize
  · rw [if_pos hover] at hres ⊢
    have hd := hres.resolve_right fun ⟨_, ht⟩ => drain_ne_packet ht
    obtain ⟨body, hlen, hs⟩ := drain_consumes (by omega) hd
    exact ⟨body, hlen, hs, fun _ ht => absurd ht drain_ne_packet⟩
  · rw [if_neg hover] at hres ⊢
    by_cases hpos : remLen > 0
    · rw [if_pos hpos] at hres ⊢
      by_cases hrc : (c.read remLen).rc = (remLen : Int)
      · rw [if_neg (not_not.mpr hrc)]
        obtain ⟨hle, -, hs⟩ := read_rc_eq hrc
        exact ⟨c.stream.take remLen, by simp; omega, by rw [hs, List.take_append_drop],
          fun _ ht => (ReadResult.packet.inj ht).symm⟩
      · simp [hrc] at hres
    · rw [if_neg hpos]
      exact ⟨[], by simp; omega, rfl, fun _ ht => (ReadResult.packet.inj ht).symm⟩

/-- `iotx_mc_read_packet`, over any split of the stream and any timeouts: when it reports
a packet, or drains one, it has taken exactly one packet off the stream, a header byte,
a remaining length of one to four bytes and that many bytes, and a packet type it
reports is that of the header byte. -/
theorem iotxMcReadPacket_consumes {bufSize : Nat} {handler mallocOk : Bool} {c : Conn}
    (hres : (iotxMcReadPacket bufSize handler mallocOk c).result = .overflow ∨
      ∃ t, (iotxMcReadPacket bufSize handler mallocOk c).result = .packet t) :
    ∃ h v body, Varint v ∧ v.length ≤ maxNoOfRemainingLengthBytes ∧ body.length = varintValue v ∧
      c.stream = h :: v ++ body ++ (iotxMcReadPacket bufSize handler mallocOk c).conn.stream ∧
      ∀ t, (iotxMcReadPacket bufSize handler mallocOk c).result = .packet t → t = h.toNat / 16 := by
  simp only [iotxMcReadPacket] at hres ⊢
  split_ifs at hres ⊢ with h0 h1
  · simp at hres
  · simp at hres
  · -- the header byte
    obtain ⟨hle, hbytes, hs⟩ := read_rc_eq (n := 1) (by exact_mod_cast of_not_not h1)
    obtain ⟨b, s, hbs⟩ := List.exists_cons_of_length_pos (by omega : 0 < c.stream.length)
    rw [hbs] at hbytes hs
    simp only [List.take_succ_cons, List.take_zero, List.drop_succ_cons, List.drop_zero] at hbytes hs
    rw [hbytes, List.headD_cons] at hres ⊢
    rcases hdec : iotxMcDecodePacket (c.read 1).conn with ⟨r, c'⟩
    cases r with
    | error e => simp [hdec] at hres
    | ok p =>
      obtain ⟨n, remLen⟩ := p
      simp only [hdec] at hres ⊢
      -- the remaining length, then the body
      obtain ⟨v, hv, hv4, hvs, -, hval⟩ := decodeLoop_ok hdec
      obtain ⟨body, hlen, hbody, htype⟩ := readRest_consumes hres
      simp only [Nat.pow_zero, Nat.mul_one, Nat.zero_add] at hval
      refine ⟨b, v, body, hv, hv4, by rw [hlen, hval], ?_, htype⟩
      rw [hbs, ← hs, hvs, hbody, List.append_assoc]
      rfl

/-- A PINGRESP, then the first byte of the next packet. -/
theorem iotxMcReadPacket_consumes_pingresp :
    ∃ h v body, Varint v ∧ v.length ≤ maxNoOfRemainingLengthBytes ∧ body.length = varintValue v ∧
      [0xD0, 0, 0x30] = h :: v ++ body ++ (iotxMcReadPacket 16 false true ⟨[0xD0, 0, 0x30], []⟩).conn.stream ∧
      ∀ t, (iotxMcReadPacket 16 false true ⟨[0xD0, 0, 0x30], []⟩).result = .packet t → t = h.toNat / 16 :=
  @iotxMcReadPacket_consumes 16 false true ⟨[0xD0, 0, 0x30], []⟩ (.inr ⟨13, by decide⟩)

/-! ## The dispatch of `iotx_mc_cycle` -/

/-- A packet that fits is dispatched on the type in its own header byte. -/
theorem iotxMcCycle_fits {bufSize stale : Nat} {handler mallocOk : Bool} {h : UInt8}
    {v body : List UInt8} (rest : List UInt8) (hv : Varint v) (hv4 : v.length ≤ maxNoOfRemainingLengthBytes)
    (hbody : body.length = varintValue v)
    (hfit : 1 + (mqttPacketEncode (varintValue v)).length + varintValue v ≤ bufSize) :
    (iotxMcCycle true bufSize handler mallocOk stale ⟨h :: v ++ body ++ rest, []⟩).1 =
      dispatchOn (h.toNat / 16) := by
  unfold iotxMcCycle
  rw [if_neg (by decide), (iotxMcReadPacket_fits rest hv hv4 hbody hfit).1]

/-- A packet longer than `buf_read` is drained, and `iotx_mc_cycle` then dispatches on
whatever its uninitialised `packetType` holds. -/
theorem iotxMcCycle_overflow_stale {bufSize stale : Nat} {handler : Bool} {h : UInt8} {v body : List UInt8}
    (rest : List UInt8) (hv : Varint v) (hv4 : v.length ≤ maxNoOfRemainingLengthBytes)
    (hbody : body.length = varintValue v) (hpos : 0 < varintValue v)
    (hlen : 1 + (mqttPacketEncode (varintValue v)).length ≤ bufSize)
    (hover : bufSize < 1 + (mqttPacketEncode (varintValue v)).length + varintValue v) :
    (iotxMcCycle true bufSize handler true stale ⟨h :: v ++ body ++ rest, []⟩).1 = dispatchOn stale := by
  unfold iotxMcCycle
  dsimp only
  rw [if_neg (by decide), (iotxMcReadPacket_overflow rest hv hv4 hbody hpos hlen hover).1]

/-- A SUBACK of ten bytes after its header, in a buffer of eight, while the stack slot of
`packetType` holds `3`: `iotx_mc_cycle` dispatches it to the PUBLISH handler. -/
theorem iotxMcCycle_overflow_stale_suback :
    (iotxMcCycle true 8 true true 3 ⟨0x90 :: [10] ++ List.replicate 10 0 ++ [], []⟩).1 = dispatchOn 3 ∧
      dispatchOn 3 = .publish :=
  ⟨iotxMcCycle_overflow_stale [] (.last (by decide)) (by decide) (by decide) (by decide) (by decide)
    (by decide), rfl⟩

end Mqtt
