import AliosThings.Wsf.Framing

/-!
# Building and reading WSF messages

`wsf_msg_request_create`, `wsf_msg_response_create` and `wsf_msg_register_request_create`
count the size of the message in one pass, allocate it, and write the fields in a second
pass: the header, then strings each behind a one-byte length, and four-byte big-endian
lengths before the parameters and the response data. The two passes agree, so each
function writes exactly the bytes it allocates. The second pass writes a length as
`len & 0xFF`, so a string of `256` bytes or more, or more than `255` parameters, no longer
reads back.

On the receiving side `__process_msg_request` skips the strings by their length bytes
and passes the first parameter to `push_callback`, and `process_register_response`
copies the device id into a buffer of `os_malloc(len + 1)`. Neither compares an offset
with the length of the frame: on a frame of the right layout with short fields they stay
inside it, but on a frame of only a header, or a device id length past the end of the
frame, they read past it. The length byte of the device id is read as an `int8_t`: the
byte `0xFF` asks `os_malloc` for `0` bytes, which gives `NULL`, and `OS_CHECK_MALLOC`
then leaves before the copy.
-/

namespace Wsf

/-- `MSG_REQUEST`. -/
def msgRequest : Nat := 0

/-- `MSG_RESPONSE`. -/
def msgResponse : Nat := 1

/-- `MSG_REGISTER_REQ`. -/
def msgRegisterReq : Nat := 4

/-- `memcpy` of a `uint32_t` into four bytes on the little-endian host. -/
def le32 (v : Nat) : List UInt8 :=
  [UInt8.ofNat v, UInt8.ofNat (v / 2 ^ 8), UInt8.ofNat (v / 2 ^ 16), UInt8.ofNat (v / 2 ^ 24)]

/-- `htonl`, then `memcpy` into four bytes: most significant first. -/
def be32 (v : Nat) : List UInt8 :=
  [UInt8.ofNat (v / 2 ^ 24), UInt8.ofNat (v / 2 ^ 16), UInt8.ofNat (v / 2 ^ 8), UInt8.ofNat v]

/-- The header the create functions fill: the magic, `msg_size` and the id in host order,
and `set_msg_type_version`. -/
def msgHeader (msgSize type version msgId : Nat) : List UInt8 :=
  magicCode ++ le32 msgSize ++ [UInt8.ofNat (type % 16 + version % 16 * 16)] ++ le32 msgId

/-- A string field: `(unsigned char)(len & 0xFF)` and the bytes, or a `0` for a `NULL`
string. -/
def strField : Option (List UInt8) → List UInt8
  | some s => UInt8.ofNat s.length :: s
  | none => [0]

/-- What the size count adds for a string field: `1`, and `strlen` of a string. -/
def strFieldSize : Option (List UInt8) → Nat
  | some s => 1 + s.length
  | none => 1

/-- A parameter or the response data: its length by `htonl`, and its bytes. -/
def paramBytes (p : List UInt8) : List UInt8 :=
  be32 p.length ++ p

/-! ### The three create functions -/

/-- The size `wsf_msg_request_create` counts. -/
def wsfMsgRequestSize (serviceName : List UInt8) (sessionId deviceId : Option (List UInt8))
    (params : List (List UInt8)) : Nat :=
  wsfMsgHeaderSize + (1 + serviceName.length) + strFieldSize sessionId + strFieldSize deviceId + 1 + 1 +
    (params.map fun p => 4 + p.length).sum

/-- The bytes `wsf_msg_request_create` writes, with the ids `wsf_session_id_get` and
`wsf_device_id_get` return, the configured version and the id of `wsf_msg_id_get`. -/
def wsfMsgRequestCreate (serviceName : List UInt8) (sessionId deviceId : Option (List UInt8))
    (params : List (List UInt8)) (version msgId : Nat) : List UInt8 :=
  msgHeader (wsfMsgRequestSize serviceName sessionId deviceId params) msgRequest version msgId ++
    strField (some serviceName) ++ strField sessionId ++ strField deviceId ++
    -- the reserved secret field, and `(unsigned char)(param_count & 0xFF)`
    [0, UInt8.ofNat params.length] ++ params.flatMap paramBytes

/-- The size `wsf_msg_response_create` counts. -/
def wsfMsgResponseSize (sessionId deviceId : Option (List UInt8)) (length : Nat) : Nat :=
  wsfMsgHeaderSize + 1 + strFieldSize sessionId + strFieldSize deviceId + 4 + length

/-- The bytes `wsf_msg_response_create` writes. A `NULL` `data` comes with length `0`
from its one caller, so `data` is the list of its bytes. -/
def wsfMsgResponseCreate (msgId result : Nat) (data : List UInt8) (sessionId deviceId : Option (List UInt8))
    (version : Nat) : List UInt8 :=
  msgHeader (wsfMsgResponseSize sessionId deviceId data.length) msgResponse version msgId ++
    [UInt8.ofNat result] ++ strField sessionId ++ strField deviceId ++ paramBytes data

/-- The size `wsf_msg_register_request_create` counts. -/
def wsfMsgRegisterRequestSize (sessionId deviceId : Option (List UInt8)) (heartbeat : Nat) : Nat :=
  wsfMsgHeaderSize + strFieldSize sessionId + strFieldSize deviceId + 1 + (if heartbeat ≠ 0 then 1 else 0)

/-- The bytes `wsf_msg_register_request_create` writes; `heartbeat` is
`user_heartbeat_interval`. -/
def wsfMsgRegisterRequestCreate (sessionId deviceId : Option (List UInt8)) (heartbeat version msgId : Nat) :
    List UInt8 :=
  msgHeader (wsfMsgRegisterRequestSize sessionId deviceId heartbeat) msgRegisterReq version msgId ++
    strField sessionId ++ strField deviceId ++ if heartbeat ≠ 0 then [1, UInt8.ofNat heartbeat] else [0]

/-! ### The lengths -/

@[simp] theorem length_le32 (v : Nat) : (le32 v).length = 4 := rfl

@[simp] theorem length_be32 (v : Nat) : (be32 v).length = 4 := rfl

@[simp] theorem length_msgHeader (msgSize type version msgId : Nat) :
    (msgHeader msgSize type version msgId).length = wsfMsgHeaderSize := rfl

@[simp] theorem length_strField (s : Option (List UInt8)) : (strField s).length = strFieldSize s := by
  cases s with
  | none => rfl
  | some s =>
    simp only [strField, strFieldSize, List.length_cons]
    omega

@[simp] theorem length_paramBytes (p : List UInt8) : (paramBytes p).length = 4 + p.length := by
  simp [paramBytes]

theorem length_flatMap_paramBytes (ps : List (List UInt8)) :
    (ps.flatMap paramBytes).length = (ps.map fun p => 4 + p.length).sum := by
  simp [List.length_flatMap]

theorem length_wsfMsgRequestCreate (serviceName : List UInt8) (sessionId deviceId : Option (List UInt8))
    (params : List (List UInt8)) (version msgId : Nat) :
    (wsfMsgRequestCreate serviceName sessionId deviceId params version msgId).length =
      wsfMsgRequestSize serviceName sessionId deviceId params := by
  simp only [wsfMsgRequestCreate, wsfMsgRequestSize, List.length_append, length_msgHeader, length_strField,
    length_flatMap_paramBytes, strFieldSize, List.length_cons, List.length_nil]

theorem length_wsfMsgResponseCreate (msgId result : Nat) (data : List UInt8) (sessionId deviceId : Option (List UInt8))
    (version : Nat) :
    (wsfMsgResponseCreate msgId result data sessionId deviceId version).length =
      wsfMsgResponseSize sessionId deviceId data.length := by
  simp only [wsfMsgResponseCreate, wsfMsgResponseSize, List.length_append, length_msgHeader, length_strField,
    length_paramBytes, List.length_cons, List.length_nil]
  omega

theorem length_wsfMsgRegisterRequestCreate (sessionId deviceId : Option (List UInt8)) (heartbeat version msgId : Nat) :
    (wsfMsgRegisterRequestCreate sessionId deviceId heartbeat version msgId).length =
      wsfMsgRegisterRequestSize sessionId deviceId heartbeat := by
  unfold wsfMsgRegisterRequestCreate wsfMsgRegisterRequestSize
  split <;> simp only [List.length_append, length_msgHeader, length_strField, List.length_cons, List.length_nil]

/-- The length field the create functions fill holds the size they count, as a
`uint32_t`. -/
theorem memcpy32_msgHeader (msgSize type version msgId : Nat) (rest : List UInt8) :
    memcpy32 (msgHeader msgSize type version msgId ++ rest) 4 = msgSize % 2 ^ 32 := by
  simp only [msgHeader, le32, magicCode, memcpy32, List.cons_append, List.nil_append, List.getD_cons_succ,
    List.getD_cons_zero, UInt8.toNat_ofNat']
  omega

/-! ### Reading the layout back -/

/-- The fields of a request; a `NULL` id reads back as an empty one. -/
structure RequestFields where
  serviceName : List UInt8
  sessionId : List UInt8
  deviceId : List UInt8
  params : List (List UInt8)
  deriving DecidableEq, Repr

/-- A one-byte length and that many bytes. -/
def readStr : List UInt8 → Option (List UInt8 × List UInt8)
  | [] => none
  | n :: rest => if n.toNat ≤ rest.length then some (rest.take n.toNat, rest.drop n.toNat) else none

/-- A four-byte big-endian length and that many bytes. -/
def readParam (rest : List UInt8) : Option (List UInt8 × List UInt8) :=
  if 4 ≤ rest.length ∧ getUnalignedBe32 rest 0 ≤ rest.length - 4 then
    some ((rest.drop 4).take (getUnalignedBe32 rest 0), rest.drop (4 + getUnalignedBe32 rest 0))
  else none

/-- `count` parameters. -/
def readParams : Nat → List UInt8 → Option (List (List UInt8) × List UInt8)
  | 0, rest => some ([], rest)
  | count + 1, rest =>
    (readParam rest).bind fun r => (readParams count r.2).map fun rs => (r.1 :: rs.1, rs.2)

/-- What follows the service name: the session and device ids, the reserved field, the
parameter count and the parameters, and nothing after them. -/
def parseAfterName (rest : List UInt8) : Option (List UInt8 × List UInt8 × List (List UInt8)) :=
  (readStr rest).bind fun sid =>
  (readStr sid.2).bind fun did =>
  (readStr did.2).bind fun secret =>
  match secret.2 with
  | [] => none
  | count :: rest =>
    (readParams count.toNat rest).bind fun ps => if ps.2 = [] then some (sid.1, did.1, ps.1) else none

/-- The parser the layout of a request describes. -/
def parseRequest (msg : List UInt8) : Option RequestFields :=
  (readStr (msg.drop wsfMsgHeaderSize)).bind fun name =>
    (parseAfterName name.2).map fun r => ⟨name.1, r.1, r.2.1, r.2.2⟩

theorem readStr_strField {s : Option (List UInt8)} (hs : ∀ x ∈ s, x.length < 256) (rest : List UInt8) :
    readStr (strField s ++ rest) = some (s.getD [], rest) := by
  cases s with
  | none => rfl
  | some s =>
    have hlen := UInt8.toNat_ofNat_of_lt' (hs s rfl)
    simp [strField, readStr, hlen]

theorem getUnalignedBe32_be32 {v : Nat} (hv : v < 2 ^ 32) (rest : List UInt8) :
    getUnalignedBe32 (be32 v ++ rest) 0 = v := by
  simp only [getUnalignedBe32, be32, List.cons_append, List.getD_cons_zero, List.getD_cons_succ,
    UInt8.toNat_ofNat']
  omega

theorem readParam_paramBytes {p : List UInt8} (hp : p.length < 2 ^ 32) (rest : List UInt8) :
    readParam (paramBytes p ++ rest) = some (p, rest) := by
  have hlen := getUnalignedBe32_be32 hp (p ++ rest)
  unfold readParam paramBytes
  rw [List.append_assoc, hlen, if_pos (by simp)]
  congr 2
  · rw [List.drop_left' (length_be32 _), List.take_left' rfl]
  · rw [← List.append_assoc, List.drop_left' (by simp)]

theorem readParams_flatMap (ps : List (List UInt8)) (hps : ∀ p ∈ ps, p.length < 2 ^ 32) (rest : List UInt8) :
    readParams ps.length (ps.flatMap paramBytes ++ rest) = some (ps, rest) := by
  induction ps with
  | nil => rfl
  | cons p ps ih =>
    rw [List.flatMap_cons, List.append_assoc, List.length_cons, readParams,
      readParam_paramBytes (hps p (by simp)), Option.bind_some, ih fun q hq => hps q (by simp [hq])]
    rfl

/-- With every length small enough for its field, the parser reads back every field of
a request. -/
theorem parseRequest_wsfMsgRequestCreate {serviceName : List UInt8} {sessionId deviceId : Option (List UInt8)}
    {params : List (List UInt8)} (version msgId : Nat) (hname : serviceName.length < 256)
    (hsid : ∀ x ∈ sessionId, x.length < 256) (hdid : ∀ x ∈ deviceId, x.length < 256) (hcount : params.length < 256)
    (hparams : ∀ p ∈ params, p.length < 2 ^ 32) :
    parseRequest (wsfMsgRequestCreate serviceName sessionId deviceId params version msgId) =
      some ⟨serviceName, sessionId.getD [], deviceId.getD [], params⟩ := by
  -- the frame as the header and a chain of fields
  have hshape : wsfMsgRequestCreate serviceName sessionId deviceId params version msgId =
      msgHeader (wsfMsgRequestSize serviceName sessionId deviceId params) msgRequest version msgId ++
        (strField (some serviceName) ++ (strField sessionId ++ (strField deviceId ++ (strField none ++
          (UInt8.ofNat params.length :: (params.flatMap paramBytes ++ [])))))) := by
    simp [wsfMsgRequestCreate, strField]
  have hcount' := UInt8.toNat_ofNat_of_lt' hcount
  rw [hshape, parseRequest, List.drop_left' (length_msgHeader _ _ _ _),
    readStr_strField (fun x hx => by cases hx; exact hname), Option.bind_some, parseAfterName,
    readStr_strField hsid, Option.bind_some, readStr_strField hdid, Option.bind_some,
    readStr_strField (fun _ h => by cases h), Option.bind_some]
  dsimp only
  rw [hcount', readParams_flatMap params hparams, Option.bind_some, if_pos rfl]
  rfl

/-- A request for service `ab` with session `s`, no device id, and parameters `x` and `yz`. -/
theorem parseRequest_wsfMsgRequestCreate_two :
    parseRequest (wsfMsgRequestCreate [97, 98] (some [115]) none [[120], [121, 122]] 1 7) =
      some ⟨[97, 98], [115], [], [[120], [121, 122]]⟩ :=
  parseRequest_wsfMsgRequestCreate 1 7 (by decide) (by decide) (by decide) (by decide) (by decide)

/-- A name the parser reads back is at most `255` bytes. -/
theorem readStr_length_lt {buf name rest : List UInt8} (h : readStr buf = some (name, rest)) : name.length < 256 := by
  cases buf with
  | nil => cases h
  | cons n tl =>
    simp only [readStr] at h
    by_cases hn : n.toNat ≤ tl.length
    · rw [if_pos hn, Option.some.injEq, Prod.mk.injEq] at h
      rw [← h.1, List.length_take]
      have := n.toNat_lt
      omega
    · rw [if_neg hn] at h
      cases h

/-- A service name of `256` bytes or more never reads back. -/
theorem parseRequest_serviceName_ne {msg : List UInt8} {f : RequestFields} (h : parseRequest msg = some f)
    (hlong : 256 ≤ f.serviceName.length) : False := by
  unfold parseRequest at h
  cases hname : readStr (msg.drop wsfMsgHeaderSize) with
  | none => rw [hname] at h; cases h
  | some name =>
    obtain ⟨name, rest⟩ := name
    rw [hname, Option.bind_some] at h
    cases hrest : parseAfterName rest with
    | none => rw [hrest] at h; cases h
    | some r =>
      rw [hrest, Option.map_some, Option.some.injEq] at h
      subst h
      have := readStr_length_lt hname
      dsimp only at hlong
      omega

/-! ### The receive side -/

/-- `pp += (*pp + 1)`: a length byte and the bytes behind it. -/
def skipField (msg : List UInt8) (pp : Nat) : Nat :=
  pp + (msg.getD pp 0).toNat + 1

/-- What `__process_msg_request` reads of `msg`, as windows of offset and count, and the
parameter it gives `push_callback`, as offset and length. With `push_callback` set it
skips four strings, reads the parameter count, and reads the first parameter's length
when the count is not `0`. Past the end of the frame the source reads whatever lies
there; the model reads `0`. -/
def processMsgRequestWalk (pushCallback : Bool) (msg : List UInt8) : List (Nat × Nat) × Option (Nat × Nat) :=
  -- `memcpy(&msg_id, msg->header.msg_id, sizeof(uint32_t))`
  let reads := [(9, 4)]
  if !pushCallback then (reads, none)
  else
    let pp1 := skipField msg wsfMsgHeaderSize
    let pp2 := skipField msg pp1
    let pp3 := skipField msg pp2
    let pp4 := skipField msg pp3
    let reads := reads ++ [(wsfMsgHeaderSize, 1), (pp1, 1), (pp2, 1), (pp3, 1), (pp4, 1)]
    if (msg.getD pp4 0).toNat > 0 then
      (reads ++ [(pp4 + 1, 4)], some (pp4 + 5, getUnalignedBe32 msg (pp4 + 1)))
    else (reads, none)

/-- Whether `os_malloc(len + 1)` gives a buffer for the device id of length `len`. The
size is passed as an `unsigned int`, `aos_malloc` returns `NULL` for a size of `0`, and
for any other size `allocOk` says whether the heap has room. -/
def deviceIdAlloc (allocOk : Nat → Bool) (len : Int) : Bool :=
  let size := ((len + 1) % 2 ^ 32).toNat
  size != 0 && allocOk size

/-- What `process_register_response` reads of `msg`, as windows of offset and count: the
result code, and on `INVOKE_RIGHT` the length of the device id, read as an `int8_t`, and,
when `os_malloc` gives the buffer (`OS_CHECK_MALLOC` leaves on `NULL`), the `memcpy` of
that many bytes, which takes the length as a `size_t`. -/
def processRegisterResponseReads (allocOk : Nat → Bool) (msg : List UInt8) : List (Nat × Nat) :=
  if msg.getD wsfMsgHeaderSize 0 = invokeRight then
    let len := (msg.getD (wsfMsgHeaderSize + 1) 0).toInt8.toInt
    [(wsfMsgHeaderSize, 1), (wsfMsgHeaderSize + 1, 1)] ++
      if len ≠ 0 ∧ deviceIdAlloc allocOk len = true then [(wsfMsgHeaderSize + 2, (len % 2 ^ 64).toNat)]
      else []
  else [(wsfMsgHeaderSize, 1)]

/-- Every window read, and the parameter passed on, lies in the first `L` bytes. -/
def WithinFrame (L : Nat) (w : List (Nat × Nat) × Option (Nat × Nat)) : Prop :=
  (∀ r ∈ w.1, r.1 + r.2 ≤ L) ∧ ∀ p ∈ w.2, p.1 + p.2 ≤ L

instance (L : Nat) (w : List (Nat × Nat) × Option (Nat × Nat)) : Decidable (WithinFrame L w) :=
  inferInstanceAs (Decidable (_ ∧ _))

theorem skipField_strField (pre : List UInt8) {s : Option (List UInt8)} (hs : ∀ x ∈ s, x.length < 256)
    (rest : List UInt8) : skipField (pre ++ (strField s ++ rest)) pre.length = pre.length + strFieldSize s := by
  unfold skipField
  rw [List.getD_append_right _ _ _ _ le_rfl, Nat.sub_self]
  cases s with
  | none => rfl
  | some s =>
    rw [strField, List.cons_append, List.getD_cons_zero, UInt8.toNat_ofNat_of_lt' (hs s rfl), strFieldSize]
    omega

theorem getUnalignedBe32_append_be32 (pre : List UInt8) {v : Nat} (hv : v < 2 ^ 32) (rest : List UInt8) :
    getUnalignedBe32 (pre ++ (be32 v ++ rest)) pre.length = v := by
  have hshift : ∀ k, (pre ++ (be32 v ++ rest)).getD (pre.length + k) 0 = (be32 v ++ rest).getD k 0 := fun k => by
    rw [List.getD_append_right _ _ _ _ (Nat.le_add_right _ _), Nat.add_sub_cancel_left]
  have h0 := hshift 0
  rw [Nat.add_zero] at h0
  have h := getUnalignedBe32_be32 hv rest
  unfold getUnalignedBe32 at h ⊢
  rw [h0, hshift 1, hshift 2, hshift 3]
  simpa using h

/-- On a request built with short strings and at least one parameter, the walk stays
inside the frame and hands `push_callback` exactly the first parameter. -/
theorem processMsgRequestWalk_wsfMsgRequestCreate {serviceName : List UInt8} {sessionId deviceId : Option (List UInt8)}
    {p : List UInt8} {ps : List (List UInt8)} (version msgId : Nat) (hname : serviceName.length < 256)
    (hsid : ∀ x ∈ sessionId, x.length < 256) (hdid : ∀ x ∈ deviceId, x.length < 256) (hcount : ps.length + 1 < 256)
    (hp : p.length < 2 ^ 32) :
    let msg := wsfMsgRequestCreate serviceName sessionId deviceId (p :: ps) version msgId
    ∃ off, (processMsgRequestWalk true msg).2 = some (off, p.length) ∧ (msg.drop off).take p.length = p ∧
      WithinFrame msg.length (processMsgRequestWalk true msg) := by
  intro msg
  let H := msgHeader (wsfMsgRequestSize serviceName sessionId deviceId (p :: ps)) msgRequest version msgId
  let F1 := strField (some serviceName)
  let F2 := strField sessionId
  let F3 := strField deviceId
  let R := UInt8.ofNat (ps.length + 1) :: (paramBytes p ++ ps.flatMap paramBytes)
  -- the frame cut before each field the walk skips
  have e1 : msg = H ++ (F1 ++ (F2 ++ (F3 ++ (strField none ++ R)))) := by
    simp [msg, H, F1, F2, F3, R, wsfMsgRequestCreate, strField]
  have e2 : msg = (H ++ F1) ++ (F2 ++ (F3 ++ (strField none ++ R))) := by rw [e1]; simp only [List.append_assoc]
  have e3 : msg = (H ++ F1 ++ F2) ++ (F3 ++ (strField none ++ R)) := by rw [e1]; simp only [List.append_assoc]
  have e4 : msg = (H ++ F1 ++ F2 ++ F3) ++ (strField none ++ R) := by rw [e1]; simp only [List.append_assoc]
  have e5 : msg = (H ++ F1 ++ F2 ++ F3 ++ strField none) ++ R := by rw [e1]; simp only [List.append_assoc]
  have e6 : msg = (H ++ F1 ++ F2 ++ F3 ++ strField none ++ [UInt8.ofNat (ps.length + 1)]) ++
      (be32 p.length ++ (p ++ ps.flatMap paramBytes)) := by
    rw [e1]; simp [R, paramBytes]
  have e7 : msg = (H ++ F1 ++ F2 ++ F3 ++ strField none ++ [UInt8.ofNat (ps.length + 1)] ++ be32 p.length) ++
      (p ++ ps.flatMap paramBytes) := by
    rw [e6]; simp only [List.append_assoc]
  have h1 := skipField_strField H (s := some serviceName) (fun x hx => by cases hx; exact hname)
    (F2 ++ (F3 ++ (strField none ++ R)))
  have h2 := skipField_strField (H ++ F1) hsid (F3 ++ (strField none ++ R))
  have h3 := skipField_strField (H ++ F1 ++ F2) hdid (strField none ++ R)
  have h4 := skipField_strField (H ++ F1 ++ F2 ++ F3) (s := none) (fun _ h => by cases h) R
  rw [← e1] at h1
  rw [← e2] at h2
  rw [← e3] at h3
  rw [← e4] at h4
  simp only [List.length_append, length_msgHeader, length_strField, H, F1, F2, F3] at h1 h2 h3 h4
  -- the parameter count and the first parameter's length
  have hpre : (H ++ F1 ++ F2 ++ F3 ++ strField none).length = wsfMsgHeaderSize + strFieldSize (some serviceName) +
      strFieldSize sessionId + strFieldSize deviceId + strFieldSize none := by
    simp only [List.length_append, length_msgHeader, length_strField, H, F1, F2, F3]
  have hcnt : msg.getD (wsfMsgHeaderSize + strFieldSize (some serviceName) + strFieldSize sessionId +
      strFieldSize deviceId + strFieldSize none) 0 = UInt8.ofNat (ps.length + 1) := by
    rw [e5, ← hpre, List.getD_append_right _ _ _ _ le_rfl, Nat.sub_self]
    rfl
  have hlen := getUnalignedBe32_append_be32 (H ++ F1 ++ F2 ++ F3 ++ strField none ++ [UInt8.ofNat (ps.length + 1)])
    hp (p ++ ps.flatMap paramBytes)
  rw [← e6] at hlen
  simp only [List.length_append, length_msgHeader, length_strField, List.length_singleton, H, F1, F2, F3] at hlen
  have htotal : msg.length = wsfMsgHeaderSize + strFieldSize (some serviceName) + strFieldSize sessionId +
      strFieldSize deviceId + strFieldSize none + 1 + 4 + p.length + (ps.flatMap paramBytes).length := by
    rw [e7]
    simp only [List.length_append, length_msgHeader, length_strField, List.length_singleton, length_be32, H, F1, F2, F3]
    omega
  refine ⟨wsfMsgHeaderSize + strFieldSize (some serviceName) + strFieldSize sessionId + strFieldSize deviceId +
    strFieldSize none + 1 + 4, ?_, ?_, ?_⟩
  · simp only [processMsgRequestWalk, Bool.not_true, Bool.false_eq_true, ↓reduceIte, h1, h2, h3, h4, hcnt,
      UInt8.toNat_ofNat_of_lt' hcount]
    rw [if_pos (by omega), hlen, Option.some.injEq, Prod.mk.injEq]
    exact ⟨by omega, rfl⟩
  · rw [e7, List.drop_left' (by simp [H, F1, F2, F3]; omega), List.take_left' rfl]
  · simp only [processMsgRequestWalk, Bool.not_true, Bool.false_eq_true, ↓reduceIte, h1, h2, h3, h4, hcnt,
      UInt8.toNat_ofNat_of_lt' hcount]
    rw [if_pos (by omega), hlen]
    have h13 : wsfMsgHeaderSize = 13 := rfl
    refine ⟨fun r hr => ?_, fun q hq => ?_⟩
    · simp only [List.mem_append, List.mem_cons, List.mem_nil_iff, or_false] at hr
      rcases hr with ((rfl | rfl | rfl | rfl | rfl | rfl) | rfl) <;> dsimp only <;> omega
    · cases hq
      dsimp only
      omega

/-- The same request: `push_callback` gets the parameter `x`. -/
theorem processMsgRequestWalk_wsfMsgRequestCreate_two :
    let msg := wsfMsgRequestCreate [97, 98] (some [115]) none [[120], [121, 122]] 1 7
    ∃ off, (processMsgRequestWalk true msg).2 = some (off, 1) ∧ (msg.drop off).take 1 = [120] ∧
      WithinFrame msg.length (processMsgRequestWalk true msg) :=
  processMsgRequestWalk_wsfMsgRequestCreate 1 7 (by decide) (by decide) (by decide) (by decide) (by decide)

/-! ### Frames the receive side does not check -/

/-- A request frame of only its header, as it comes off the wire: `msg_length` is `13`. -/
def headerOnlyRequest : List UInt8 :=
  magicCode ++ [0, 0, 0, 13, 0, 0, 0, 0, 0]

/-- A registration answer of `15` bytes with the result `INVOKE_RIGHT` and the device id
length byte `5`, but no device id behind it. -/
def registerResponseShortId : List UInt8 :=
  magicCode ++ [0, 0, 0, 15, 5, 0, 0, 0, 0, 0, 5]

/-- The create functions write exactly the size they count and put it in the header,
but a service name of `256` bytes or more is written behind the length byte
`len & 0xFF`, and the parser the layout describes never reads it back; and the receive
side reads past frames that `process_received_buf` dispatches: `__process_msg_request`
past a frame of only a header, and `process_register_response`, whenever `os_malloc`
gives the `6` bytes it asks for, the `5` bytes of a device id the frame does not hold. -/
theorem wsfMsg_lengths_unchecked :
    (∀ serviceName sessionId deviceId params version msgId,
      let msg := wsfMsgRequestCreate serviceName sessionId deviceId params version msgId
      msg.length = wsfMsgRequestSize serviceName sessionId deviceId params ∧
        memcpy32 msg 4 = wsfMsgRequestSize serviceName sessionId deviceId params % 2 ^ 32) ∧
    (∀ msgId result data sessionId deviceId version,
      let msg := wsfMsgResponseCreate msgId result data sessionId deviceId version
      msg.length = wsfMsgResponseSize sessionId deviceId data.length ∧
        memcpy32 msg 4 = wsfMsgResponseSize sessionId deviceId data.length % 2 ^ 32) ∧
    (∀ sessionId deviceId heartbeat version msgId,
      let msg := wsfMsgRegisterRequestCreate sessionId deviceId heartbeat version msgId
      msg.length = wsfMsgRegisterRequestSize sessionId deviceId heartbeat ∧
        memcpy32 msg 4 = wsfMsgRegisterRequestSize sessionId deviceId heartbeat % 2 ^ 32) ∧
    (∀ serviceName sessionId deviceId params version msgId, 256 ≤ serviceName.length →
      let msg := wsfMsgRequestCreate serviceName sessionId deviceId params version msgId
      (msg.getD wsfMsgHeaderSize 0).toNat = serviceName.length % 256 ∧
        ∀ f, parseRequest msg = some f → f.serviceName ≠ serviceName) ∧
    (processReceivedBuf 1 ⟨headerOnlyRequest, 64, true⟩).map (fun r => r.2.map fun d =>
        (d.handler, d.length, decide (WithinFrame d.length (processMsgRequestWalk true d.msg)))) =
      some [(.processMsgRequest, 13, false)] ∧
    (processReceivedBuf 1 ⟨registerResponseShortId, 64, true⟩).map (fun r => r.2.map fun d =>
        (d.handler, d.length, d.msg)) =
      some [(.processRegisterResponse, 15, magicCode ++ [15, 0, 0, 0, 5, 0, 0, 0, 0, 0, 5])] ∧
    ∀ allocOk : Nat → Bool, allocOk 6 = true →
      processRegisterResponseReads allocOk (magicCode ++ [15, 0, 0, 0, 5, 0, 0, 0, 0, 0, 5]) =
        [(13, 1), (14, 1), (15, 5)] := by
  refine ⟨fun serviceName sessionId deviceId params version msgId => ⟨?_, ?_⟩,
    fun msgId result data sessionId deviceId version => ⟨?_, ?_⟩,
    fun sessionId deviceId heartbeat version msgId => ⟨?_, ?_⟩, ?_, by decide, by decide, ?_⟩
  · exact length_wsfMsgRequestCreate serviceName sessionId deviceId params version msgId
  · simp only [wsfMsgRequestCreate, List.append_assoc, memcpy32_msgHeader]
  · exact length_wsfMsgResponseCreate msgId result data sessionId deviceId version
  · simp only [wsfMsgResponseCreate, List.append_assoc, memcpy32_msgHeader]
  · exact length_wsfMsgRegisterRequestCreate sessionId deviceId heartbeat version msgId
  · simp only [wsfMsgRegisterRequestCreate, List.append_assoc, memcpy32_msgHeader]
  · intro serviceName sessionId deviceId params version msgId hlong
    refine ⟨?_, fun f h heq => parseRequest_serviceName_ne h (heq ▸ hlong)⟩
    simp only [wsfMsgRequestCreate, List.append_assoc]
    rw [List.getD_append_right _ _ _ _ (by simp), length_msgHeader, Nat.sub_self]
    simp [strField]
  · intro allocOk halloc
    simp [processRegisterResponseReads, deviceIdAlloc, halloc, magicCode, wsfMsgHeaderSize, invokeRight]

/-- A C string of `256` bytes, none of them `NUL`, that behind the length byte `0` reads
as an empty name followed by a session id of `250` bytes, a device id `a`, a secret `a`
and one empty parameter. -/
def longServiceName : List UInt8 :=
  [250] ++ List.replicate 250 97 ++ [1, 97, 1, 97, 1]

set_option maxRecDepth 8000 in
theorem wsfMsg_lengths_unchecked_long_name :
    (∀ b ∈ longServiceName, b ≠ 0) ∧ 256 ≤ longServiceName.length ∧
      ((wsfMsgRequestCreate longServiceName none none [] 0 0).getD wsfMsgHeaderSize 0).toNat = 0 ∧
      parseRequest (wsfMsgRequestCreate longServiceName none none [] 0 0) =
        some ⟨[], List.replicate 250 97, [97], [[]]⟩ ∧
      ([] : List UInt8) ≠ longServiceName :=
  have hlong : 256 ≤ longServiceName.length := by simp [longServiceName]
  have h := wsfMsg_lengths_unchecked.2.2.2.1 longServiceName none none [] 0 0 hlong
  have hparse : parseRequest (wsfMsgRequestCreate longServiceName none none [] 0 0) =
      some ⟨[], List.replicate 250 97, [97], [[]]⟩ := by decide
  ⟨by decide, hlong, h.1.trans (by simp [longServiceName]), hparse, h.2 _ hparse⟩

/-- The device id length byte `0xFF` is `-1` as an `int8_t`: `os_malloc(0)` gives `NULL`,
and `process_register_response` leaves before the copy. -/
theorem processRegisterResponseReads_negOne (allocOk : Nat → Bool) (msg : List UInt8)
    (hok : msg.getD wsfMsgHeaderSize 0 = invokeRight) (hlen : msg.getD (wsfMsgHeaderSize + 1) 0 = 0xFF) :
    processRegisterResponseReads allocOk msg = [(wsfMsgHeaderSize, 1), (wsfMsgHeaderSize + 1, 1)] := by
  have hneg : (UInt8.toInt8 0xFF).toInt = -1 := by decide
  unfold processRegisterResponseReads
  rw [if_pos hok, hlen, hneg]
  simp [deviceIdAlloc]

end Wsf
