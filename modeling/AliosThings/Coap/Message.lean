import Mathlib.Data.List.Basic

/-!
# The CoAP message of `link-coap` and the calls that build it

`CoAPMessage` of `CoAPExport.h` as the builder calls of `CoAPMessage.c` fill it: the
header bit fields, the token array, the options, and the payload. Every number is
kept as a natural below the width of its C field, and an assignment that narrows a
value takes it modulo that width: `optdelta` is an `unsigned char`, so
`message->optdelta = optnum` keeps `optnum % 256`, and the option number stored by
an add is the `unsigned short` difference `optnum - optdelta`. The option array
holds `optcount` options; it is the list of them here. A pointer to option bytes
or to the payload is the list of bytes it points at.

The `NULL` checks are left out, as every argument is a value, and `coap_malloc` is
taken to succeed: the adds are modelled on their path with memory.
-/

namespace Coap

/-- `COAP_MSG_MAX_TOKEN_LEN`. -/
def coapMsgMaxTokenLen : Nat := 8

/-- `COAP_MSG_MAX_OPTION_NUM`. -/
def coapMsgMaxOptionNum : Nat := 12

/-- `COAP_MSG_MAX_PDU_LEN`. -/
def coapMsgMaxPduLen : Nat := 1280

/-- `COAP_CUR_VERSION`. -/
def coapCurVersion : Nat := 1

/-- `COAP_MESSAGE_TYPE_CON`, `_NON`, `_ACK` and `_RST`. -/
def coapMessageTypeCon : Nat := 0
def coapMessageTypeNon : Nat := 1
def coapMessageTypeAck : Nat := 2
def coapMessageTypeRst : Nat := 3

/-- The status codes the builder calls return. -/
inductive CoapStatus where
  | success
  | errorInvalidParam
  | errorInvalidLength
  deriving DecidableEq, Repr

/-- `CoAPMsgHeader`: `version`, `type` and `tokenlen` are bit fields of 2, 2 and 4
bits, `code` an `unsigned char`, `msgid` an `unsigned short`. -/
structure CoAPMsgHeader where
  version : Nat
  type : Nat
  tokenlen : Nat
  code : Nat
  msgid : Nat
  deriving DecidableEq, Repr

/-- `CoAPMsgOption`. In a message built by the adds, `num` is the difference to the
option added before; in a received message it is the option's number. -/
structure CoAPMsgOption where
  num : Nat
  len : Nat
  val : List UInt8
  deriving DecidableEq, Repr

/-- `struct CoAPMessage`, without the fields the codec does not read (`handler`,
`user`, `keep`). `token` is the whole `token[COAP_MSG_MAX_TOKEN_LEN]` array. -/
structure CoAPMessage where
  header : CoAPMsgHeader
  token : List UInt8
  options : List CoAPMsgOption
  optdelta : Nat
  payloadlen : Nat
  payload : List UInt8
  deriving DecidableEq, Repr

/-- The message of `memset(&message, 0x00, sizeof(CoAPMessage))`. -/
def CoAPMessage.zero : CoAPMessage where
  header := ⟨0, 0, 0, 0, 0⟩
  token := List.replicate coapMsgMaxTokenLen 0
  options := []
  optdelta := 0
  payloadlen := 0
  payload := []

/-- `CoAPMessage_init`. -/
def coapMessageInit : CoAPMessage :=
  { CoAPMessage.zero with
    header := { version := coapCurVersion, type := coapMessageTypeAck, tokenlen := 0, code := 0,
                msgid := 0 } }

/-- `CoAPMessageType_set`: only the four message types are accepted. -/
def coapMessageTypeSet (message : CoAPMessage) (type : Nat) : CoapStatus × CoAPMessage :=
  if coapMessageTypeCon ≠ type ∧ coapMessageTypeNon ≠ type ∧ coapMessageTypeAck ≠ type ∧
      coapMessageTypeRst ≠ type then (.errorInvalidParam, message)
  else (.success, { message with header := { message.header with type := type % 4 } })

/-- `CoAPMessageCode_set`. -/
def coapMessageCodeSet (message : CoAPMessage) (code : Nat) : CoapStatus × CoAPMessage :=
  (.success, { message with header := { message.header with code := code % 256 } })

/-- `CoAPMessageId_set`. -/
def coapMessageIdSet (message : CoAPMessage) (msgid : Nat) : CoapStatus × CoAPMessage :=
  (.success, { message with header := { message.header with msgid := msgid % 65536 } })

/-- `CoAPMessageToken_set`: the first `tokenlen` bytes of the array are replaced. -/
def coapMessageTokenSet (message : CoAPMessage) (token : List UInt8) (tokenlen : Nat) :
    CoapStatus × CoAPMessage :=
  if coapMsgMaxTokenLen < tokenlen then (.errorInvalidLength, message)
  else
    (.success,
      { message with
        token := token.take tokenlen ++ message.token.drop tokenlen,
        header := { message.header with tokenlen := tokenlen % 16 } })

/-- `CoAPMessagePayload_set`. -/
def coapMessagePayloadSet (message : CoAPMessage) (payload : List UInt8) (payloadlen : Nat) :
    CoapStatus × CoAPMessage :=
  (.success, { message with payload := payload, payloadlen := payloadlen % 65536 })

/-- The option number an add stores: `optnum - message->optdelta` as an
`unsigned short`. -/
def optionDelta (message : CoAPMessage) (optnum : Nat) : Nat :=
  (optnum + 65536 - message.optdelta) % 65536

/-- `CoAPStrOption_add` of `datalen` bytes of `data`. -/
def coapStrOptionAdd (message : CoAPMessage) (optnum : Nat) (data : List UInt8) (datalen : Nat) :
    CoapStatus × CoAPMessage :=
  if coapMsgMaxOptionNum ≤ message.options.length then (.errorInvalidParam, message)
  else
    (.success,
      { message with
        options := message.options ++ [⟨optionDelta message optnum, datalen, data.take datalen⟩],
        optdelta := optnum % 256 })

/-- The bytes `CoAPUintOption_add` stores: none for `0`, then one, two or four bytes,
most significant first. -/
def uintOptionBytes (data : Nat) : List UInt8 :=
  if 0 = data then []
  else if 255 ≥ data then [UInt8.ofNat data]
  else if 65535 ≥ data then [UInt8.ofNat ((data &&& 0xFF00) >>> 8), UInt8.ofNat (data &&& 0x00FF)]
  else
    [UInt8.ofNat ((data &&& 0xFF000000) >>> 24), UInt8.ofNat ((data &&& 0x00FF0000) >>> 16),
      UInt8.ofNat ((data &&& 0x0000FF00) >>> 8), UInt8.ofNat (data &&& 0x000000FF)]

/-- `CoAPUintOption_add`. -/
def coapUintOptionAdd (message : CoAPMessage) (optnum : Nat) (data : Nat) :
    CoapStatus × CoAPMessage :=
  if coapMsgMaxOptionNum ≤ message.options.length then (.errorInvalidParam, message)
  else
    let val := uintOptionBytes data
    (.success,
      { message with
        options := message.options ++ [⟨optionDelta message optnum, val.length, val⟩],
        optdelta := optnum % 256 })

/-- One option add: a string option with its bytes, or an unsigned one with its value. -/
inductive CoapOptionArg where
  | str (optnum : Nat) (data : List UInt8)
  | uint (optnum : Nat) (data : Nat)
  deriving DecidableEq, Repr

/-- The option number an add is called with. -/
def CoapOptionArg.optnum : CoapOptionArg → Nat
  | .str n _ => n
  | .uint n _ => n

/-- The value bytes an add stores. -/
def CoapOptionArg.bytes : CoapOptionArg → List UInt8
  | .str _ data => data
  | .uint _ data => uintOptionBytes data

/-- The add call of one argument. -/
def coapOptionAdd (message : CoAPMessage) : CoapOptionArg → CoapStatus × CoAPMessage
  | .str optnum data => coapStrOptionAdd message optnum data data.length
  | .uint optnum data => coapUintOptionAdd message optnum data

/-- The adds, one after the other. -/
def coapOptionsAdd (message : CoAPMessage) : List CoapOptionArg → CoAPMessage
  | [] => message
  | a :: as => coapOptionsAdd (coapOptionAdd message a).2 as

/-- A message built as the codec's users build it: `CoAPMessage_init`, the type,
code, message id and token, the options, and the payload. -/
def coapBuild (type code msgid : Nat) (token : List UInt8) (opts : List CoapOptionArg)
    (payload : List UInt8) : CoAPMessage :=
  let m := coapMessageInit
  let m := (coapMessageTypeSet m type).2
  let m := (coapMessageCodeSet m code).2
  let m := (coapMessageIdSet m msgid).2
  let m := (coapMessageTokenSet m token token.length).2
  let m := coapOptionsAdd m opts
  (coapMessagePayloadSet m payload payload.length).2

/-! ### What the adds store -/

theorem uintOptionBytes_length_le (data : Nat) : (uintOptionBytes data).length ≤ 4 := by
  unfold uintOptionBytes
  split_ifs <;> simp

@[simp] theorem CoapOptionArg.bytes_str (n : Nat) (data : List UInt8) : (CoapOptionArg.str n data).bytes = data :=
  rfl

@[simp] theorem CoapOptionArg.bytes_uint (n data : Nat) :
    (CoapOptionArg.uint n data).bytes = uintOptionBytes data :=
  rfl

/-- An add below the option limit appends the option with its value bytes, stored
under the difference to `optdelta`, and records `optnum % 256` as the new `optdelta`. -/
theorem coapOptionAdd_eq {message : CoAPMessage} (h : message.options.length < coapMsgMaxOptionNum)
    (a : CoapOptionArg) :
    coapOptionAdd message a =
      (.success,
        { message with
          options := message.options ++ [⟨optionDelta message a.optnum, a.bytes.length, a.bytes⟩],
          optdelta := a.optnum % 256 }) := by
  cases a with
  | str n data => simp [coapOptionAdd, coapStrOptionAdd, CoapOptionArg.optnum, Nat.not_le.mpr h]
  | uint n data => simp [coapOptionAdd, coapUintOptionAdd, CoapOptionArg.optnum, Nat.not_le.mpr h]

/-- The options the adds store for the arguments `as`, after an add that left
`prev` in `optdelta`: each number as its difference to `prev`, each value with its
length. -/
def storedOptions (prev : Nat) : List CoapOptionArg → List CoAPMsgOption
  | [] => []
  | a :: as => ⟨(a.optnum + 65536 - prev) % 65536, a.bytes.length, a.bytes⟩ :: storedOptions (a.optnum % 256) as

@[simp] theorem storedOptions_length (prev : Nat) (as : List CoapOptionArg) :
    (storedOptions prev as).length = as.length := by
  induction as generalizing prev with
  | nil => rfl
  | cons a as ih => simp [storedOptions, ih]

/-- Adds below the option limit append what `storedOptions` says. -/
theorem coapOptionsAdd_eq (as : List CoapOptionArg) :
    ∀ message : CoAPMessage, message.options.length + as.length ≤ coapMsgMaxOptionNum →
      ∃ d, coapOptionsAdd message as =
        { message with options := message.options ++ storedOptions message.optdelta as, optdelta := d } := by
  induction as with
  | nil => exact fun message _ => ⟨message.optdelta, by simp [coapOptionsAdd, storedOptions]⟩
  | cons a as ih =>
    intro message h
    simp only [List.length_cons] at h
    obtain ⟨d, hd⟩ := ih { message with
        options := message.options ++ [⟨optionDelta message a.optnum, a.bytes.length, a.bytes⟩],
        optdelta := a.optnum % 256 } (by simp; omega)
    refine ⟨d, ?_⟩
    rw [coapOptionsAdd, coapOptionAdd_eq (by omega), hd]
    simp [storedOptions, optionDelta]

/-- The type a successful or a refused type set leaves is a two-bit value. -/
theorem coapMessageTypeSet_type_lt {message : CoAPMessage} (h : message.header.type < 4) (type : Nat) :
    ∃ ty, ty < 4 ∧ (coapMessageTypeSet message type).2 = { message with header := { message.header with type := ty } } := by
  unfold coapMessageTypeSet
  split_ifs
  · exact ⟨message.header.type, h, rfl⟩
  · exact ⟨type % 4, Nat.mod_lt _ (by decide), rfl⟩

/-- The message the builder calls make, field by field. -/
theorem coapBuild_eq {type code msgid : Nat} {token : List UInt8} {opts : List CoapOptionArg}
    {payload : List UInt8} (htoken : token.length ≤ coapMsgMaxTokenLen)
    (hopts : opts.length ≤ coapMsgMaxOptionNum) :
    ∃ ty d, ty < 4 ∧ coapBuild type code msgid token opts payload =
      { header := ⟨coapCurVersion, ty, token.length, code % 256, msgid % 65536⟩,
        token := token ++ (List.replicate coapMsgMaxTokenLen 0).drop token.length,
        options := storedOptions 0 opts, optdelta := d, payloadlen := payload.length % 65536,
        payload := payload } := by
  obtain ⟨ty, hty, hset⟩ := coapMessageTypeSet_type_lt (show coapMessageInit.header.type < 4 by decide) type
  have h16 : token.length % 16 = token.length :=
    Nat.mod_eq_of_lt (by unfold coapMsgMaxTokenLen at htoken; omega)
  -- the message the options are added to
  let m₀ : CoAPMessage :=
    { coapMessageInit with
      header := ⟨coapCurVersion, ty, token.length, code % 256, msgid % 65536⟩,
      token := token ++ (List.replicate coapMsgMaxTokenLen 0).drop token.length }
  have hpre : (coapMessageTokenSet (coapMessageIdSet (coapMessageCodeSet
      (coapMessageTypeSet coapMessageInit type).2 code).2 msgid).2 token token.length).2 = m₀ := by
    rw [hset]
    simp [coapMessageCodeSet, coapMessageIdSet, coapMessageTokenSet, Nat.not_lt.mpr htoken, m₀,
      coapMessageInit, CoAPMessage.zero, h16]
  obtain ⟨d, hd⟩ := coapOptionsAdd_eq opts m₀ (by simpa [m₀, coapMessageInit, CoAPMessage.zero] using hopts)
  refine ⟨ty, d, hty, ?_⟩
  unfold coapBuild
  dsimp only
  rw [hpre, hd]
  simp [coapMessagePayloadSet, m₀, coapMessageInit, CoAPMessage.zero]

end Coap
