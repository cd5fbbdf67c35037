import AliosThings.Coap.Message
import AliosThings.Lib.RingMemory

/-!
# The CoAP wire codec (`CoAPSerialize.c`, `CoAPDeserialize.c`)

The serializer writes the header, the token, the options and the payload into the
buffer one after the other, each part at the position the parts before it reported;
the deserializer reads them back, the option numbers as running sums of the stored
differences. The buffer is a memory of bytes (`RingMemory`), and a pointer to the
bytes of a list reads `0` past its end. Counts held in `unsigned short` variables are
taken modulo `65536` where the code adds to them.

`CoAPDeserialize_Options` loops while the count of bytes read is below `buflen`. The
count one option adds is an `unsigned short`: it is `0` for an option whose header
and stated length add up to `65536`, and the code then loops for ever. The model
bounds the loop by fuel, one round more than `buflen`.
-/

namespace Coap

open RingMemory

/-! ### The serializer -/

/-- The four bytes `CoAPSerialize_Header` writes. -/
def coapHeaderBytes (msg : CoAPMessage) : List UInt8 :=
  [UInt8.ofNat ((((msg.header.version &&& 0x3) <<< 6) ||| ((msg.header.type &&& 0x3) <<< 4)) |||
      (msg.header.tokenlen &&& 0x0F)),
    UInt8.ofNat msg.header.code, UInt8.ofNat ((msg.header.msgid &&& 0xFF00) >>> 8),
    UInt8.ofNat (msg.header.msgid &&& 0x00FF)]

/-- `CoAPSerialize_Header` at `ptr`: the count it returns and the memory after. -/
def coapSerializeHeader (msg : CoAPMessage) (mem : Nat → UInt8) (ptr buflen : Nat) :
    Nat × (Nat → UInt8) :=
  if 4 > buflen then (0, mem) else (4, writeAt mem ptr (coapHeaderBytes msg))

/-- `CoAPSerialize_Token` at `ptr`. -/
def coapSerializeToken (msg : CoAPMessage) (mem : Nat → UInt8) (ptr buflen : Nat) : Nat × (Nat → UInt8) :=
  if buflen < msg.header.tokenlen then (0, mem)
  else (msg.header.tokenlen, writeAt mem ptr (readAt (ofList msg.token 0) 0 msg.header.tokenlen))

/-- The extended bytes of an option number or length: one byte of `x - 13` from
`13`, two bytes of `x - 269` from `269`. -/
def optionExt (x : Nat) : List UInt8 :=
  if 269 ≤ x then [UInt8.ofNat (((x - 269) &&& 0xFF00) >>> 8), UInt8.ofNat ((x - 269) &&& 0x00FF)]
  else if 13 ≤ x then [UInt8.ofNat (x - 13)]
  else []

/-- `CoAPSerialize_Option`: the bytes written for one option. The first byte holds
the number in its high half and the length in its low half, `13` and `14` standing
for one and two extended bytes. -/
def coapSerializeOption (option : CoAPMsgOption) : List UInt8 :=
  let first : Nat :=
    if 269 ≤ option.num then (14 &&& 0x0F) <<< 4
    else if 13 ≤ option.num then (13 &&& 0x0F) <<< 4
    else option.num <<< 4
  let first := first |||
    (if 269 ≤ option.len then 14 &&& 0x0F
    else if 13 ≤ option.len then 13 &&& 0x0F
    else option.len &&& 0x0F)
  UInt8.ofNat first :: (optionExt option.num ++ optionExt option.len ++ readAt (ofList option.val 0) 0 option.len)

/-- `CoAPSerialize_Options` at `ptr`: each option is written at `ptr + count`, and a
length that is `0` as an `unsigned short` stops the loop with `0`. -/
def coapSerializeOptions (msg : CoAPMessage) (mem : Nat → UInt8) (ptr : Nat) : Nat × (Nat → UInt8) :=
  go msg.options 0 mem
where
  go : List CoAPMsgOption → Nat → (Nat → UInt8) → Nat × (Nat → UInt8)
    | [], count, mem => (count, mem)
    | o :: os, count, mem =>
      let bytes := coapSerializeOption o
      let mem := writeAt mem (ptr + count) bytes
      let len := bytes.length % 65536
      if 0 < len then go os ((count + len) % 65536) mem else (0, mem)

/-- `CoAPSerialize_OptionLen`. -/
def coapSerializeOptionLen (option : CoAPMsgOption) : Nat :=
  let len := 1
  let len := if 269 ≤ option.num then len + 2 else if 13 ≤ option.num then len + 1 else len
  let len := if 269 ≤ option.len then len + 2 else if 13 ≤ option.len then len + 1 else len
  (len + option.len) % 65536

/-- `CoAPSerialize_OptionsLen`. -/
def coapSerializeOptionsLen (msg : CoAPMessage) : Nat :=
  go msg.options 0
where
  go : List CoAPMsgOption → Nat → Nat
    | [], count => count
    | o :: os, count =>
      let len := coapSerializeOptionLen o
      if 0 < len then go os ((count + len) % 65536) else 0

/-- `CoAPSerialize_Payload` at `ptr`: the marker `0xFF` and the payload, when there
is one and it fits. -/
def coapSerializePayload (msg : CoAPMessage) (mem : Nat → UInt8) (ptr : Nat) (buflen : Int) :
    Nat × (Nat → UInt8) :=
  if (msg.payloadlen : Int) + 1 > buflen then (0, mem)
  else if 0 < msg.payloadlen then
    (msg.payloadlen + 1, writeAt mem ptr (0xFF :: readAt (ofList msg.payload 0) 0 msg.payloadlen))
  else (0, mem)

/-- `CoAPSerialize_MessageLength`. -/
def coapSerializeMessageLength (msg : CoAPMessage) : Nat :=
  let msglen := 4
  let msglen := (msglen + msg.header.tokenlen) % 65536
  let msglen := (msglen + coapSerializeOptionsLen msg) % 65536
  if 0 < msg.payloadlen then (msglen + msg.payloadlen + 1) % 65536 else msglen

/-- `CoAPSerialize_Message` into the buffer `mem` of `buflen` bytes: the count it
returns, `buflen - remlen`, and the buffer after. -/
def coapSerializeMessage (msg : CoAPMessage) (mem : Nat → UInt8) (buflen : Nat) : Int × (Nat → UInt8) :=
  let remlen := buflen % 65536
  let (count, mem) := coapSerializeHeader msg mem 0 remlen
  let ptr := count
  let remlen := (remlen + 65536 - count) % 65536
  let (count, mem) := coapSerializeToken msg mem ptr remlen
  let ptr := ptr + count
  let remlen := (remlen + 65536 - count) % 65536
  let (count, mem) := coapSerializeOptions msg mem ptr
  let ptr := ptr + count
  let remlen := (remlen + 65536 - count) % 65536
  let (count, mem) := coapSerializePayload msg mem ptr remlen
  let remlen := (remlen + 65536 - count) % 65536
  ((buflen % 65536 : Nat) - (remlen : Int), mem)

/-! ### The deserializer -/

/-- `CoAPDeserialize_Header` from `ptr`. -/
def coapDeserializeHeader (msg : CoAPMessage) (buf : Nat → UInt8) (ptr : Nat) : Nat × CoAPMessage :=
  let b (i : Nat) : Nat := (buf (ptr + i)).toNat
  (4, { msg with
        header :=
          { version := (b 0 >>> 6) &&& 0x03, type := (b 0 >>> 4) &&& 0x03, tokenlen := b 0 &&& 0x0F,
            code := b 1, msgid := ((b 2 <<< 8) % 65536 + b 3) % 65536 } })

/-- `CoAPDeserialize_Token` from `ptr`: `tokenlen` bytes into the token array. -/
def coapDeserializeToken (msg : CoAPMessage) (buf : Nat → UInt8) (ptr : Nat) : Nat × CoAPMessage :=
  (msg.header.tokenlen,
    { msg with token := readAt buf ptr msg.header.tokenlen ++ msg.token.drop msg.header.tokenlen })

/-- `CoAPDeserialize_Option` from `ptr`, after the option numbered `predeltas`: the
count it returns and the option, with its number as the sum. -/
def coapDeserializeOption (buf : Nat → UInt8) (ptr predeltas : Nat) : Nat × CoAPMsgOption :=
  let b (i : Nat) : Nat := (buf (ptr + i)).toNat
  let optdelta := (b 0 &&& 0xF0) >>> 4
  let optlen := b 0 &&& 0x0F
  let (p, num) :=
    if 13 = optdelta then (2, (predeltas + 13 + b 1) % 65536)
    else if 14 = optdelta then (3, (predeltas + 269 + (b 1 <<< 8) + b 2) % 65536)
    else (1, (predeltas + optdelta) % 65536)
  let (p, len) :=
    if 13 = optlen then (p + 1, 13 + b p)
    else if 14 = optlen then (p + 2, (269 + (b p <<< 8) + b (p + 1)) % 65536)
    else (p, optlen)
  (p + len, ⟨num, len, readAt buf (ptr + p) len⟩)

/-- `CoAPDeserialize_Options` from `ptr` over `buflen` bytes: options are read until
the count reaches `buflen` or the next byte is the payload marker. -/
def coapDeserializeOptions (msg : CoAPMessage) (buf : Nat → UInt8) (ptr : Nat) (buflen : Int) :
    Nat × CoAPMessage :=
  let (p, opts) := go (buflen.toNat + 1) ptr 0 0 []
  (p - ptr, { msg with options := opts })
where
  go : Nat → Nat → Int → Nat → List CoAPMsgOption → Nat × List CoAPMsgOption
    | 0, p, _, _, opts => (p, opts)
    | fuel + 1, p, count, optdeltas, opts =>
      if count < buflen ∧ 0xFF ≠ buf p then
        let (l, o) := coapDeserializeOption buf p optdeltas
        let len := l % 65536
        go fuel (p + len) (count + len) o.num (opts ++ [o])
      else (p, opts)

/-- `CoAPDeserialize_Payload` from `ptr`: after a marker, the rest of the `buflen`
bytes is the payload. -/
def coapDeserializePayload (msg : CoAPMessage) (buf : Nat → UInt8) (ptr : Nat) (buflen : Int) :
    CoAPMessage :=
  if 0xFF = buf ptr then
    { msg with payloadlen := ((buflen - 1) % 65536).toNat, payload := readAt buf (ptr + 1) ((buflen - 1) % 65536).toNat }
  else msg

/-- `CoAPDeserialize_Message` of the `buflen` bytes at `buf` into `msg`. -/
def coapDeserializeMessage (msg : CoAPMessage) (buf : Nat → UInt8) (buflen : Int) :
    CoapStatus × CoAPMessage :=
  if buflen < 4 then (.errorInvalidLength, msg)
  else
    let (count, msg) := coapDeserializeHeader msg buf 0
    let ptr := count
    let remlen := buflen - count
    let (count, msg) := coapDeserializeToken msg buf ptr
    let ptr := ptr + count
    let remlen := remlen - count
    let (count, msg) := coapDeserializeOptions msg buf ptr remlen
    let ptr := ptr + count
    let remlen := remlen - count
    (.success, coapDeserializePayload msg buf ptr remlen)

end Coap
