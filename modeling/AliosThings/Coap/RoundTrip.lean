import AliosThings.Coap.Codec

/-!
# The CoAP codec round trip

What `CoAPSerialize_Message` writes for a message (`coapMessageBytes`), and what
`CoAPDeserialize_Message` reads back from a buffer that holds those bytes: the
header, the token, the options with their numbers as running sums of the stored
differences (`absoluteOptions`), and the payload. Each reader is stated over a
buffer that holds the writer's bytes at any position, whatever follows them.

Over the builder calls, the numbers read back are the numbers passed to the adds
when every number but the last is below `256`. `optdelta` keeps only the low byte
of the number added last, so an option added after one numbered `256` or more is
stored with the wrong difference (`coapOptdelta_truncated`).
-/

namespace Coap

open RingMemory

/-! ### Bytes -/

theorem hiByte_eq (x : Nat) : (x &&& 0xFF00) >>> 8 = x / 256 % 256 := by
  rw [Nat.shiftRight_and_distrib, Nat.shiftRight_eq_div_pow]
  have : (0xFF00 : Nat) >>> 8 = 2 ^ 8 - 1 := by decide
  rw [this, Nat.and_two_pow_sub_one_eq_mod]

theorem loByte_eq (x : Nat) : x &&& 0x00FF = x % 256 :=
  Nat.and_two_pow_sub_one_eq_mod x 8

/-- A byte of two halves gives them back. -/
theorem nibbles {hi lo : Nat} (hhi : hi < 16) (hlo : lo < 16) :
    (hi <<< 4 ||| lo) < 256 ∧ ((hi <<< 4 ||| lo) &&& 0xF0) >>> 4 = hi ∧
      (hi <<< 4 ||| lo) &&& 0x0F = lo := by
  have key : ∀ hi, hi < 16 → ∀ lo, lo < 16 → (hi <<< 4 ||| lo) < 256 ∧
      ((hi <<< 4 ||| lo) &&& 0xF0) >>> 4 = hi ∧ (hi <<< 4 ||| lo) &&& 0x0F = lo := by
    decide
  exact key hi hhi lo hlo

/-- A byte whose high half is below `15` is not the payload marker. -/
theorem nibbles_ne_marker {hi lo : Nat} (hhi : hi < 15) (hlo : lo < 16) :
    UInt8.ofNat (hi <<< 4 ||| lo) ≠ 0xFF := by
  have key : ∀ hi, hi < 15 → ∀ lo, lo < 16 → (hi <<< 4 ||| lo) < 240 := by decide
  intro h
  have h' := congrArg UInt8.toNat h
  rw [UInt8.toNat_ofNat_of_lt' (by have := key hi hhi lo hlo; simp only [UInt8.size]; omega)] at h'
  have := key hi hhi lo hlo
  simp only [UInt8.reduceToNat] at h'
  omega

/-- The header's first byte gives back the version, the type and the token length. -/
theorem headerByte {v t l : Nat} (hv : v < 4) (ht : t < 4) (hl : l < 16) :
    let b := ((v &&& 0x3) <<< 6 ||| (t &&& 0x3) <<< 4) ||| (l &&& 0x0F)
    b < 256 ∧ (b >>> 6) &&& 0x03 = v ∧ (b >>> 4) &&& 0x03 = t ∧ b &&& 0x0F = l := by
  have key : ∀ v, v < 4 → ∀ t, t < 4 → ∀ l, l < 16 →
      let b := ((v &&& 0x3) <<< 6 ||| (t &&& 0x3) <<< 4) ||| (l &&& 0x0F)
      b < 256 ∧ (b >>> 6) &&& 0x03 = v ∧ (b >>> 4) &&& 0x03 = t ∧ b &&& 0x0F = l := by
    decide
  exact key v hv t ht l hl

/-! ### One option -/

/-- The half of an option's first byte that stands for its number or its length:
itself below `13`, else `13` or `14` for one or two extended bytes. -/
def optionNibble (x : Nat) : Nat :=
  if 269 ≤ x then 14 else if 13 ≤ x then 13 else x

theorem optionNibble_lt (x : Nat) : optionNibble x < 15 := by
  unfold optionNibble
  split_ifs <;> omega

theorem optionExt_length_le (x : Nat) : (optionExt x).length ≤ 2 := by
  unfold optionExt
  split_ifs <;> simp

theorem coapSerializeOption_eq (o : CoAPMsgOption) :
    coapSerializeOption o =
      UInt8.ofNat (optionNibble o.num <<< 4 ||| optionNibble o.len) ::
        (optionExt o.num ++ optionExt o.len ++ readAt (ofList o.val 0) 0 o.len) := by
  have hlen : o.len < 13 → o.len &&& 0x0F = o.len := fun h => by
    rw [show (0x0F : Nat) = 2 ^ 4 - 1 from rfl, Nat.and_two_pow_sub_one_eq_mod]
    omega
  unfold coapSerializeOption optionNibble
  split_ifs <;> simp_all

theorem coapSerializeOption_length (o : CoAPMsgOption) :
    (coapSerializeOption o).length =
      1 + (optionExt o.num).length + (optionExt o.len).length + o.len := by
  rw [coapSerializeOption_eq]
  simp only [List.length_cons, List.length_append, readAt_length]
  omega

/-- `CoAPSerialize_OptionLen` counts the bytes `CoAPSerialize_Option` writes. -/
theorem coapSerializeOptionLen_eq (o : CoAPMsgOption) :
    coapSerializeOptionLen o = (coapSerializeOption o).length % 65536 := by
  rw [coapSerializeOption_length]
  unfold coapSerializeOptionLen optionExt
  split_ifs <;> simp

/-- The number the deserializer rebuilds from the first byte's half and the
extended bytes after it. -/
theorem numExt_decode {buf : Nat → UInt8} {s x : Nat} (hx : x < 65536)
    (h : Stores buf s (optionExt x)) (q : Nat) :
    (if 13 = optionNibble x then (2, (q + 13 + (buf s).toNat) % 65536)
      else if 14 = optionNibble x then
        (3, (q + 269 + ((buf s).toNat <<< 8) + (buf (s + 1)).toNat) % 65536)
      else (1, (q + optionNibble x) % 65536)) =
      (1 + (optionExt x).length, (q + x) % 65536) := by
  unfold optionNibble optionExt at *
  by_cases h269 : 269 ≤ x
  · simp only [if_pos h269, stores_cons, stores_nil, and_true, Nat.reduceEqDiff, ↓reduceIte] at h ⊢
    obtain ⟨h₁, h₂⟩ := h
    rw [h₁, h₂, UInt8.toNat_ofNat_of_lt' (by rw [hiByte_eq]; simp only [UInt8.size]; omega),
      UInt8.toNat_ofNat_of_lt' (by rw [loByte_eq]; simp only [UInt8.size]; omega), hiByte_eq,
      loByte_eq, Nat.shiftLeft_eq]
    simp only [List.length_cons, List.length_nil, Prod.mk.injEq, Nat.reducePow, true_and]
    omega
  · by_cases h13 : 13 ≤ x
    · simp only [if_neg h269, if_pos h13, stores_cons, stores_nil, and_true, ↓reduceIte] at h ⊢
      rw [h, UInt8.toNat_ofNat_of_lt' (by simp only [UInt8.size]; omega)]
      simp only [List.length_cons, List.length_nil, Prod.mk.injEq, true_and]
      omega
    · simp only [if_neg h269, if_neg h13] at h ⊢
      rw [if_neg (by omega), if_neg (by omega)]
      simp

/-- The length the deserializer rebuilds from the first byte's half and the
extended bytes at `p`, after the number's. -/
theorem lenExt_decode {buf : Nat → UInt8} {ptr x : Nat} (hx : x < 65536) (p : Nat)
    (h : Stores buf (ptr + p) (optionExt x)) :
    (if 13 = optionNibble x then (p + 1, 13 + (buf (ptr + p)).toNat)
      else if 14 = optionNibble x then
        (p + 2, (269 + ((buf (ptr + p)).toNat <<< 8) + (buf (ptr + (p + 1))).toNat) % 65536)
      else (p, optionNibble x)) =
      (p + (optionExt x).length, x) := by
  -- the same bytes as a number, counted from `0`
  have hnum := numExt_decode hx h 0
  have hlt := optionNibble_lt x
  have hb := (buf (ptr + p)).toNat_lt
  rw [← Nat.add_assoc]
  split_ifs at hnum ⊢ with h13 h14
  · simp only [Prod.mk.injEq] at hnum ⊢
    omega
  · simp only [Prod.mk.injEq] at hnum ⊢
    omega
  · simp only [Prod.mk.injEq] at hnum ⊢
    omega

/-- An option the codec carries: number and length below `65536`, and as many value
bytes as the length says. -/
structure CoAPMsgOption.Fits (o : CoAPMsgOption) : Prop where
  num_lt : o.num < 65536
  len_lt : o.len < 65536
  val_length : o.val.length = o.len

/-- `CoAPDeserialize_Option` reads back what `CoAPSerialize_Option` wrote, with the
number added to the one before. -/
theorem coapDeserializeOption_of_stores {buf : Nat → UInt8} {ptr : Nat} {o : CoAPMsgOption}
    (ho : o.Fits) (h : Stores buf ptr (coapSerializeOption o)) (q : Nat) :
    coapDeserializeOption buf ptr q =
      ((coapSerializeOption o).length, ⟨(q + o.num) % 65536, o.len, o.val⟩) := by
  rw [coapSerializeOption_eq] at h ⊢
  obtain ⟨h₀, h⟩ := stores_cons.mp h
  obtain ⟨⟨hnum, hlen⟩, hval⟩ := stores_append.mp h |>.imp_left stores_append.mp
  obtain ⟨hlt, hhi, hlo⟩ := nibbles (Nat.lt_of_lt_of_le (optionNibble_lt o.num) (by omega))
    (Nat.lt_of_lt_of_le (optionNibble_lt o.len) (by omega))
  have hval' : readAt (ofList o.val 0) 0 o.len = o.val := by
    rw [← ho.val_length, readAt_ofList]
  rw [Nat.add_assoc] at hlen
  rw [hval'] at hval
  have hv : readAt buf (ptr + (1 + (optionExt o.num).length + (optionExt o.len).length)) o.len =
      o.val := by
    have : Stores buf (ptr + (1 + (optionExt o.num).length + (optionExt o.len).length)) o.val := by
      simpa only [List.length_append, Nat.add_assoc] using hval
    unfold Stores at this
    rwa [ho.val_length] at this
  simp only [coapDeserializeOption, Nat.add_zero, h₀, UInt8.toNat_ofNat_of_lt' hlt, hhi, hlo]
  rw [numExt_decode ho.num_lt hnum q]
  dsimp only
  rw [lenExt_decode ho.len_lt _ hlen]
  dsimp only
  rw [hv, hval']
  simp only [List.length_cons, List.length_append, ho.val_length, Prod.mk.injEq, and_true]
  omega

theorem coapSerializeOption_length_pos (o : CoAPMsgOption) : 0 < (coapSerializeOption o).length := by
  rw [coapSerializeOption_eq]
  simp

/-- The first byte of an option is never the payload marker. -/
theorem ne_marker_of_stores {buf : Nat → UInt8} {p : Nat} {o : CoAPMsgOption}
    (h : Stores buf p (coapSerializeOption o)) : buf p ≠ 0xFF := by
  rw [coapSerializeOption_eq] at h
  rw [(stores_cons.mp h).1]
  exact nibbles_ne_marker (optionNibble_lt _) (by have := optionNibble_lt o.len; omega)

/-! ### The option loops -/

/-- The bytes `CoAPSerialize_Options` writes for a list of options. -/
def optionsBytes (os : List CoAPMsgOption) : List UInt8 :=
  os.flatMap coapSerializeOption

@[simp] theorem optionsBytes_nil : optionsBytes [] = [] := rfl

@[simp] theorem optionsBytes_cons (o : CoAPMsgOption) (os : List CoAPMsgOption) :
    optionsBytes (o :: os) = coapSerializeOption o ++ optionsBytes os := by
  simp [optionsBytes]

theorem length_le_optionsBytes (os : List CoAPMsgOption) : os.length ≤ (optionsBytes os).length := by
  induction os with
  | nil => simp
  | cons o os ih =>
    have := coapSerializeOption_length_pos o
    simp only [List.length_cons, optionsBytes_cons, List.length_append]
    omega

/-- The options as `CoAPDeserialize_Options` numbers them: each stored number is
added to the number of the option before. -/
def absoluteOptions : Nat → List CoAPMsgOption → List CoAPMsgOption
  | _, [] => []
  | q, o :: os => ⟨(q + o.num) % 65536, o.len, o.val⟩ :: absoluteOptions ((q + o.num) % 65536) os

/-- `CoAPSerialize_Options` writes the options one after the other while the count
stays below `65536`. -/
theorem coapSerializeOptions_go_eq (ptr : Nat) (os : List CoAPMsgOption) :
    ∀ (count : Nat) (mem : Nat → UInt8), count + (optionsBytes os).length < 65536 →
      coapSerializeOptions.go ptr os count mem =
        (count + (optionsBytes os).length, writeAt mem (ptr + count) (optionsBytes os)) := by
  induction os with
  | nil => simp [coapSerializeOptions.go]
  | cons o os ih =>
    intro count mem hlt
    have hpos := coapSerializeOption_length_pos o
    simp only [optionsBytes_cons, List.length_append] at hlt ⊢
    have hmod : (coapSerializeOption o).length % 65536 = (coapSerializeOption o).length :=
      Nat.mod_eq_of_lt (by omega)
    rw [coapSerializeOptions.go, hmod, if_pos hpos, Nat.mod_eq_of_lt (by omega), ih _ _ (by omega),
      show ptr + (count + (coapSerializeOption o).length) = ptr + count + (coapSerializeOption o).length
        by omega, writeAt_append, Nat.add_assoc]

/-- `CoAPSerialize_OptionsLen` counts the bytes of the options while the count stays
below `65536`. -/
theorem coapSerializeOptionsLen_go_eq (os : List CoAPMsgOption) :
    ∀ count : Nat, count + (optionsBytes os).length < 65536 →
      coapSerializeOptionsLen.go os count = count + (optionsBytes os).length := by
  induction os with
  | nil => simp [coapSerializeOptionsLen.go]
  | cons o os ih =>
    intro count hlt
    have hpos := coapSerializeOption_length_pos o
    simp only [optionsBytes_cons, List.length_append] at hlt ⊢
    rw [coapSerializeOptionsLen.go, coapSerializeOptionLen_eq, Nat.mod_eq_of_lt (by omega),
      if_pos hpos, Nat.mod_eq_of_lt (by omega), ih _ (by omega), Nat.add_assoc]

/-- `CoAPDeserialize_Options` reads back the options whose bytes the buffer holds at
`p`, until the count reaches `buflen` or the marker follows. -/
theorem coapDeserializeOptions_go_of_stores {buf : Nat → UInt8} {buflen : Int}
    (os : List CoAPMsgOption) (hos : ∀ o ∈ os, o.Fits) :
    ∀ (fuel p : Nat) (count : Int) (q : Nat) (acc : List CoAPMsgOption),
      os.length ≤ fuel → (optionsBytes os).length < 65536 → Stores buf p (optionsBytes os) →
      count + (optionsBytes os).length ≤ buflen →
      (buflen ≤ count + (optionsBytes os).length ∨ buf (p + (optionsBytes os).length) = 0xFF) →
      coapDeserializeOptions.go buf buflen fuel p count q acc =
        (p + (optionsBytes os).length, acc ++ absoluteOptions q os) := by
  induction os with
  | nil =>
    intro fuel p count q acc _ _ _ _ hend
    cases fuel with
    | zero => simp [coapDeserializeOptions.go, absoluteOptions]
    | succ fuel =>
      -- the loop stops: the count has reached `buflen` or the marker is next
      simp only [optionsBytes_nil, List.length_nil, Nat.cast_zero, add_zero] at hend
      have hstop : ¬(count < buflen ∧ 0xFF ≠ buf p) := by
        rintro ⟨hlt, hne⟩
        rcases hend with h | h
        · omega
        · exact hne h.symm
      rw [coapDeserializeOptions.go, if_neg hstop]
      simp [absoluteOptions]
  | cons o os ih =>
    intro fuel p count q acc hfuel hlt h hc hend
    obtain ⟨ho, hos⟩ := List.forall_mem_cons.mp hos
    obtain ⟨fuel, rfl⟩ : ∃ f, fuel = f + 1 := ⟨fuel - 1, by simp at hfuel; omega⟩
    have hpos := coapSerializeOption_length_pos o
    simp only [optionsBytes_cons, List.length_append, List.length_cons] at hfuel hlt h hc hend ⊢
    obtain ⟨h₁, h₂⟩ := stores_append.mp h
    have hmod : (coapSerializeOption o).length % 65536 = (coapSerializeOption o).length :=
      Nat.mod_eq_of_lt (by omega)
    have hend' : buflen ≤ count + (coapSerializeOption o).length + (optionsBytes os).length ∨
        buf (p + (coapSerializeOption o).length + (optionsBytes os).length) = 0xFF := by
      rcases hend with h | h
      · left
        push_cast at h
        omega
      · right
        rwa [Nat.add_assoc]
    rw [coapDeserializeOptions.go, if_pos ⟨by omega, (ne_marker_of_stores h₁).symm⟩]
    dsimp only
    rw [coapDeserializeOption_of_stores ho h₁ q]
    dsimp only
    rw [hmod, ih hos _ _ _ _ _ (by omega) (by omega) h₂ (by push_cast at hc ⊢; omega) hend']
    simp [absoluteOptions, Nat.add_assoc]

/-! ### The message -/

/-- The part `CoAPSerialize_Payload` writes: the marker and the payload, or nothing. -/
def payloadBytes (msg : CoAPMessage) : List UInt8 :=
  if 0 < msg.payloadlen then 0xFF :: readAt (ofList msg.payload 0) 0 msg.payloadlen else []

/-- The bytes `CoAPSerialize_Message` writes for a message: header, token, options
and payload, one after the other. -/
def coapMessageBytes (msg : CoAPMessage) : List UInt8 :=
  coapHeaderBytes msg ++ readAt (ofList msg.token 0) 0 msg.header.tokenlen ++
    optionsBytes msg.options ++ payloadBytes msg

theorem payloadBytes_length (msg : CoAPMessage) :
    (payloadBytes msg).length = if 0 < msg.payloadlen then msg.payloadlen + 1 else 0 := by
  unfold payloadBytes
  split_ifs <;> simp

theorem coapMessageBytes_length (msg : CoAPMessage) :
    (coapMessageBytes msg).length =
      4 + msg.header.tokenlen + (optionsBytes msg.options).length + (payloadBytes msg).length := by
  simp [coapMessageBytes, coapHeaderBytes]
  omega

/-- A message the codec carries: the header fields within the widths of their bit
fields, options that fit, and fewer than `65536` bytes in all, so that no
`unsigned short` count wraps. -/
structure CoAPMessage.Fits (msg : CoAPMessage) : Prop where
  version_lt : msg.header.version < 4
  type_lt : msg.header.type < 4
  tokenlen_lt : msg.header.tokenlen < 16
  code_lt : msg.header.code < 256
  msgid_lt : msg.header.msgid < 65536
  options_fit : ∀ o ∈ msg.options, o.Fits
  length_lt : (coapMessageBytes msg).length < 65536

/-- `CoAPSerialize_MessageLength` counts the bytes of the message. -/
theorem coapSerializeMessageLength_eq {msg : CoAPMessage} (h : (coapMessageBytes msg).length < 65536) :
    coapSerializeMessageLength msg = (coapMessageBytes msg).length := by
  rw [coapMessageBytes_length, payloadBytes_length] at h ⊢
  unfold coapSerializeMessageLength coapSerializeOptionsLen
  dsimp only
  rw [coapSerializeOptionsLen_go_eq _ _ (by split_ifs at h <;> omega)]
  split_ifs at h ⊢ <;> omega

theorem coapSerializeHeader_eq (msg : CoAPMessage) (mem : Nat → UInt8) {ptr buflen : Nat}
    (h : 4 ≤ buflen) : coapSerializeHeader msg mem ptr buflen = (4, writeAt mem ptr (coapHeaderBytes msg)) := by
  rw [coapSerializeHeader, if_neg (by omega)]

theorem coapSerializeToken_eq (msg : CoAPMessage) (mem : Nat → UInt8) {ptr buflen : Nat}
    (h : msg.header.tokenlen ≤ buflen) :
    coapSerializeToken msg mem ptr buflen =
      (msg.header.tokenlen, writeAt mem ptr (readAt (ofList msg.token 0) 0 msg.header.tokenlen)) := by
  rw [coapSerializeToken, if_neg (by omega)]

theorem coapSerializeOptions_eq (msg : CoAPMessage) (mem : Nat → UInt8) (ptr : Nat)
    (h : (optionsBytes msg.options).length < 65536) :
    coapSerializeOptions msg mem ptr =
      ((optionsBytes msg.options).length, writeAt mem ptr (optionsBytes msg.options)) := by
  rw [coapSerializeOptions, coapSerializeOptions_go_eq _ _ _ _ (by omega)]
  simp

/-- Given exactly the room for it, `CoAPSerialize_Payload` writes the payload part. -/
theorem coapSerializePayload_eq (msg : CoAPMessage) (mem : Nat → UInt8) (ptr : Nat) :
    coapSerializePayload msg mem ptr (payloadBytes msg).length =
      ((payloadBytes msg).length, writeAt mem ptr (payloadBytes msg)) := by
  unfold coapSerializePayload
  rw [payloadBytes_length]
  by_cases hp : 0 < msg.payloadlen
  · rw [if_pos hp, if_neg (by omega), if_pos hp]
    simp [payloadBytes, hp]
  · rw [if_neg hp, if_pos (by omega)]
    simp [payloadBytes, hp]

/-- `CoAPSerialize_Message` into a buffer of exactly the message's length writes its
bytes and returns that length. -/
theorem coapSerializeMessage_eq {msg : CoAPMessage} (h : (coapMessageBytes msg).length < 65536)
    (mem : Nat → UInt8) :
    coapSerializeMessage msg mem (coapMessageBytes msg).length =
      (((coapMessageBytes msg).length : Int), writeAt mem 0 (coapMessageBytes msg)) := by
  have hn := coapMessageBytes_length msg
  have hopt : (optionsBytes msg.options).length < 65536 := by omega
  -- the length as a name, so that no step unfolds it
  generalize (coapMessageBytes msg).length = n at h hn ⊢
  unfold coapSerializeMessage
  dsimp only
  rw [Nat.mod_eq_of_lt h, coapSerializeHeader_eq _ _ (by omega)]
  dsimp only
  rw [coapSerializeToken_eq _ _ (by omega)]
  dsimp only
  rw [coapSerializeOptions_eq _ _ _ hopt]
  dsimp only
  rw [show (((n + 65536 - 4) % 65536 + 65536 - msg.header.tokenlen) % 65536
      + 65536 - (optionsBytes msg.options).length) % 65536 = (payloadBytes msg).length by omega,
    coapSerializePayload_eq]
  refine Prod.ext ?_ ?_
  · simp
  · dsimp only
    rw [coapMessageBytes, ← writeAt_append, ← writeAt_append, ← writeAt_append]
    simp only [coapHeaderBytes, List.length_append, List.length_cons, List.length_nil, readAt_length,
      Nat.zero_add, Nat.reduceAdd]

/-- `CoAPDeserialize_Header` reads back the header of a message that fits. -/
theorem coapDeserializeHeader_of_stores {msg : CoAPMessage} (hm : msg.Fits) {buf : Nat → UInt8}
    {ptr : Nat} (h : Stores buf ptr (coapHeaderBytes msg)) (m2 : CoAPMessage) :
    coapDeserializeHeader m2 buf ptr = (4, { m2 with header := msg.header }) := by
  unfold coapHeaderBytes at h
  simp only [stores_cons, stores_nil, and_true] at h
  obtain ⟨h₀, h₁, h₂, h₃⟩ := h
  obtain ⟨hlt, hv, ht, hl⟩ := headerByte hm.version_lt hm.type_lt hm.tokenlen_lt
  have hcode : (buf (ptr + 1)).toNat = msg.header.code := by
    rw [h₁, UInt8.toNat_ofNat_of_lt' (by simp only [UInt8.size]; exact hm.code_lt.trans_le (by omega))]
  have hhi : (buf (ptr + 2)).toNat = msg.header.msgid / 256 := by
    rw [show ptr + 2 = ptr + 1 + 1 from rfl, h₂, hiByte_eq,
      UInt8.toNat_ofNat_of_lt' (by simp only [UInt8.size]; omega)]
    have := hm.msgid_lt
    omega
  have hlo : (buf (ptr + 3)).toNat = msg.header.msgid % 256 := by
    rw [show ptr + 3 = ptr + 1 + 1 + 1 from rfl, h₃, loByte_eq,
      UInt8.toNat_ofNat_of_lt' (by simp only [UInt8.size]; omega)]
  have hid : (((msg.header.msgid / 256) <<< 8) % 65536 + msg.header.msgid % 256) % 65536 =
      msg.header.msgid := by
    have := hm.msgid_lt
    rw [Nat.shiftLeft_eq]
    omega
  simp only [coapDeserializeHeader, Nat.add_zero, h₀, UInt8.toNat_ofNat_of_lt' hlt, hv, ht, hl, hcode,
    hhi, hlo, hid]

/-- `CoAPDeserialize_Token` copies `tokenlen` bytes into the token array. -/
theorem coapDeserializeToken_of_stores (m2 : CoAPMessage) {buf : Nat → UInt8} {ptr : Nat}
    {bs : List UInt8} (hl : bs.length = m2.header.tokenlen) (h : Stores buf ptr bs) :
    coapDeserializeToken m2 buf ptr =
      (m2.header.tokenlen, { m2 with token := bs ++ m2.token.drop m2.header.tokenlen }) := by
  have hread : readAt buf ptr m2.header.tokenlen = bs := hl ▸ h
  simp [coapDeserializeToken, hread]

/-- `CoAPDeserialize_Options` reads back the options whose bytes the buffer holds,
the numbers counted from `0`. -/
theorem coapDeserializeOptions_of_stores {os : List CoAPMsgOption} (hos : ∀ o ∈ os, o.Fits)
    (hlt : (optionsBytes os).length < 65536) {buf : Nat → UInt8} {ptr : Nat}
    (h : Stores buf ptr (optionsBytes os)) {buflen : Int} (hc : (optionsBytes os).length ≤ buflen)
    (hend : buflen ≤ (optionsBytes os).length ∨ buf (ptr + (optionsBytes os).length) = 0xFF)
    (m2 : CoAPMessage) :
    coapDeserializeOptions m2 buf ptr buflen =
      ((optionsBytes os).length, { m2 with options := absoluteOptions 0 os }) := by
  have hfuel := length_le_optionsBytes os
  unfold coapDeserializeOptions
  rw [coapDeserializeOptions_go_of_stores os hos _ _ 0 0 [] (by omega) hlt h (by simpa using hc)
    (by simpa using hend)]
  simp

/-- `CoAPDeserialize_Payload` reads the payload after a marker, and nothing
otherwise. -/
theorem coapDeserializePayload_of_stores {msg : CoAPMessage} (hlt : msg.payloadlen < 65536)
    {buf : Nat → UInt8} {ptr : Nat} (h : Stores buf ptr (payloadBytes msg))
    (hend : 0 < msg.payloadlen ∨ buf ptr ≠ 0xFF) (m2 : CoAPMessage) :
    coapDeserializePayload m2 buf ptr (payloadBytes msg).length =
      if 0 < msg.payloadlen then
        { m2 with payloadlen := msg.payloadlen, payload := readAt (ofList msg.payload 0) 0 msg.payloadlen }
      else m2 := by
  unfold coapDeserializePayload
  by_cases hp : 0 < msg.payloadlen
  · simp only [payloadBytes, if_pos hp, stores_cons] at h ⊢
    obtain ⟨h₀, h₁⟩ := h
    have hread : readAt buf (ptr + 1) msg.payloadlen = readAt (ofList msg.payload 0) 0 msg.payloadlen := by
      simpa [Stores] using h₁
    have hlen : ((((msg.payloadlen + 1 : Nat) : Int) - 1) % 65536).toNat = msg.payloadlen := by
      omega
    simp only [List.length_cons, readAt_length, h₀, if_true, hlen, hread]
  · have hne : buf ptr ≠ 0xFF := hend.resolve_left hp
    simp only [if_neg hp]
    rw [if_neg fun h => hne h.symm]

/-- `CoAPDeserialize_Message` reads back a message that fits from a buffer that holds
its bytes; the payload fields are set only after a marker. -/
theorem coapDeserializeMessage_of_stores {msg : CoAPMessage} (hm : msg.Fits) {buf : Nat → UInt8}
    (h : Stores buf 0 (coapMessageBytes msg))
    (hend : 0 < msg.payloadlen ∨ buf (coapMessageBytes msg).length ≠ 0xFF) (m2 : CoAPMessage) :
    coapDeserializeMessage m2 buf (coapMessageBytes msg).length =
      (.success,
        if 0 < msg.payloadlen then
          { m2 with
            header := msg.header,
            token := readAt (ofList msg.token 0) 0 msg.header.tokenlen ++ m2.token.drop msg.header.tokenlen,
            options := absoluteOptions 0 msg.options,
            payloadlen := msg.payloadlen,
            payload := readAt (ofList msg.payload 0) 0 msg.payloadlen }
        else
          { m2 with
            header := msg.header,
            token := readAt (ofList msg.token 0) 0 msg.header.tokenlen ++ m2.token.drop msg.header.tokenlen,
            options := absoluteOptions 0 msg.options }) := by
  have hn := coapMessageBytes_length msg
  have hlt := hm.length_lt
  unfold coapMessageBytes at h
  obtain ⟨⟨⟨hhdr, htok⟩, hopt⟩, hpay⟩ :=
    (stores_append.mp h).imp_left fun h => (stores_append.mp h).imp_left stores_append.mp
  simp only [coapHeaderBytes, List.length_append, List.length_cons, List.length_nil, readAt_length,
    Nat.zero_add, Nat.reduceAdd] at htok hopt hpay
  have hp : (payloadBytes msg).length = if 0 < msg.payloadlen then msg.payloadlen + 1 else 0 :=
    payloadBytes_length msg
  generalize (coapMessageBytes msg).length = n at hn hlt hend ⊢
  unfold coapDeserializeMessage
  dsimp only
  rw [if_neg (by omega), coapDeserializeHeader_of_stores hm hhdr]
  dsimp only
  rw [coapDeserializeToken_of_stores { m2 with header := msg.header } (readAt_length _ _ _) htok]
  dsimp only
  rw [coapDeserializeOptions_of_stores hm.options_fit (by omega) hopt (by omega)
    (by
      by_cases hpos : 0 < msg.payloadlen
      · right
        simp only [payloadBytes, if_pos hpos, stores_cons] at hpay
        exact hpay.1
      · left
        rw [if_neg hpos] at hp
        omega)]
  dsimp only
  rw [show (n : Int) - ((4 : Nat) : Int) - msg.header.tokenlen - (optionsBytes msg.options).length =
      (payloadBytes msg).length by omega]
  rw [coapDeserializePayload_of_stores (by split_ifs at hp <;> omega) hpay
    (by
      by_cases hpos : 0 < msg.payloadlen
      · exact Or.inl hpos
      · right
        rw [if_neg hpos] at hp
        rw [show 4 + msg.header.tokenlen + (optionsBytes msg.options).length = n by omega]
        exact hend.resolve_left hpos)]

/-- The whole round trip for a message that fits: `CoAPSerialize_Message` into a
buffer of `CoAPSerialize_MessageLength` bytes returns that length, and
`CoAPDeserialize_Message` of the buffer gives back the header, the token, the options
with their numbers summed, and the payload. -/
theorem coapSerialize_deserialize {msg : CoAPMessage} (hm : msg.Fits) (buf : Nat → UInt8)
    (hend : 0 < msg.payloadlen ∨ buf (coapSerializeMessageLength msg) ≠ 0xFF) (m2 : CoAPMessage) :
    (coapSerializeMessage msg buf (coapSerializeMessageLength msg)).1 = coapSerializeMessageLength msg ∧
      coapDeserializeMessage m2 (coapSerializeMessage msg buf (coapSerializeMessageLength msg)).2
        (coapSerializeMessageLength msg) =
      (.success,
        if 0 < msg.payloadlen then
          { m2 with
            header := msg.header,
            token := readAt (ofList msg.token 0) 0 msg.header.tokenlen ++ m2.token.drop msg.header.tokenlen,
            options := absoluteOptions 0 msg.options,
            payloadlen := msg.payloadlen,
            payload := readAt (ofList msg.payload 0) 0 msg.payloadlen }
        else
          { m2 with
            header := msg.header,
            token := readAt (ofList msg.token 0) 0 msg.header.tokenlen ++ m2.token.drop msg.header.tokenlen,
            options := absoluteOptions 0 msg.options }) := by
  rw [coapSerializeMessageLength_eq hm.length_lt] at hend ⊢
  rw [coapSerializeMessage_eq hm.length_lt]
  refine ⟨rfl, coapDeserializeMessage_of_stores hm (stores_writeAt _ _ _) ?_ m2⟩
  rcases hend with hpos | hne
  · exact Or.inl hpos
  · right
    rwa [writeAt_apply_of_le _ _ (by omega)]

/-! ### Messages of the builder calls -/

/-- The adds' options are read back under the numbers passed to them, as long as every
number but the last is below `256`. -/
theorem absoluteOptions_storedOptions (as : List CoapOptionArg) (hnum : ∀ a ∈ as, a.optnum < 65536)
    (hlow : ∀ a ∈ as.dropLast, a.optnum < 256) :
    ∀ q, q < 256 →
      absoluteOptions q (storedOptions q as) = as.map fun a => ⟨a.optnum, a.bytes.length, a.bytes⟩ := by
  induction as with
  | nil => intro q _; rfl
  | cons a as ih =>
    intro q hq
    obtain ⟨ha, hnum⟩ := List.forall_mem_cons.mp hnum
    have hsum : (q + (a.optnum + 65536 - q) % 65536) % 65536 = a.optnum := by omega
    simp only [storedOptions, absoluteOptions, hsum, List.map_cons]
    congr 1
    cases as with
    | nil => rfl
    | cons b bs =>
      -- `a` is not the last add, so `optdelta` keeps its number whole
      have hlt : a.optnum < 256 := hlow a (by simp)
      rw [Nat.mod_eq_of_lt hlt]
      refine ih hnum (fun x hx => hlow x ?_) a.optnum hlt
      rw [List.dropLast_cons_cons]
      exact List.mem_cons_of_mem a hx

theorem mem_storedOptions {prev : Nat} {as : List CoapOptionArg} {o : CoAPMsgOption}
    (h : o ∈ storedOptions prev as) : o.num < 65536 ∧ ∃ a ∈ as, o.len = a.bytes.length ∧ o.val = a.bytes := by
  induction as generalizing prev with
  | nil => simp [storedOptions] at h
  | cons a as ih =>
    rcases List.mem_cons.mp h with rfl | h
    · exact ⟨Nat.mod_lt _ (by decide), a, List.mem_cons_self, rfl, rfl⟩
    · obtain ⟨hn, b, hb, hlen, hval⟩ := ih h
      exact ⟨hn, b, List.mem_cons_of_mem a hb, hlen, hval⟩

theorem coapSerializeOption_length_le (o : CoAPMsgOption) : (coapSerializeOption o).length ≤ 5 + o.len := by
  have := optionExt_length_le o.num
  have := optionExt_length_le o.len
  rw [coapSerializeOption_length]
  omega

theorem optionsBytes_length_le {B : Nat} (os : List CoAPMsgOption)
    (h : ∀ o ∈ os, (coapSerializeOption o).length ≤ B) : (optionsBytes os).length ≤ os.length * B := by
  induction os with
  | nil => simp
  | cons o os ih =>
    obtain ⟨ho, hos⟩ := List.forall_mem_cons.mp h
    have := ih hos
    simp only [optionsBytes_cons, List.length_append, List.length_cons, Nat.succ_mul]
    omega

/-- The builder calls make a message that fits when each value and the payload is at
most `COAP_MSG_MAX_PDU_LEN` bytes. -/
theorem coapBuild_fits {type code msgid : Nat} {token : List UInt8} {opts : List CoapOptionArg}
    {payload : List UInt8} (htoken : token.length ≤ coapMsgMaxTokenLen)
    (hopts : opts.length ≤ coapMsgMaxOptionNum) (hval : ∀ a ∈ opts, a.bytes.length ≤ coapMsgMaxPduLen)
    (hpay : payload.length ≤ coapMsgMaxPduLen) : (coapBuild type code msgid token opts payload).Fits := by
  obtain ⟨ty, d, hty, hb⟩ := @coapBuild_eq type code msgid token opts payload htoken hopts
  unfold coapMsgMaxTokenLen coapMsgMaxOptionNum coapMsgMaxPduLen at *
  have hlen : ∀ o ∈ storedOptions 0 opts, o.len ≤ 1280 := fun o ho => by
    obtain ⟨_, a, ha, hl, _⟩ := mem_storedOptions ho
    exact hl ▸ hval a ha
  have hopt : (optionsBytes (storedOptions 0 opts)).length ≤ (storedOptions 0 opts).length * 1285 :=
    optionsBytes_length_le _ fun o ho => (coapSerializeOption_length_le o).trans (by have := hlen o ho; omega)
  rw [hb]
  refine ⟨show coapCurVersion < 4 by decide, hty, by simp only; omega, Nat.mod_lt _ (by decide), Nat.mod_lt _ (by decide),
    fun o ho => ?_, ?_⟩
  · obtain ⟨hn, a, ha, hl, hv⟩ := mem_storedOptions ho
    exact ⟨hn, by have := hlen o ho; omega, by rw [hv, hl]⟩
  · rw [coapMessageBytes_length, payloadBytes_length]
    simp only [storedOptions_length] at hopt ⊢
    split_ifs <;> omega

/-- The end condition of the round trip over the builder calls: a payload, or a byte
after the message that is not the payload marker. -/
theorem coapBuild_end {type code msgid : Nat} {token : List UInt8} {opts : List CoapOptionArg}
    {payload : List UInt8} (htoken : token.length ≤ coapMsgMaxTokenLen) (hopts : opts.length ≤ coapMsgMaxOptionNum)
    (hpay : payload.length ≤ coapMsgMaxPduLen) (buf : Nat → UInt8)
    (hend : payload ≠ [] ∨ buf (coapSerializeMessageLength (coapBuild type code msgid token opts payload)) ≠ 0xFF) :
    0 < (coapBuild type code msgid token opts payload).payloadlen ∨
      buf (coapSerializeMessageLength (coapBuild type code msgid token opts payload)) ≠ 0xFF := by
  obtain ⟨ty, d, hty, hb⟩ := @coapBuild_eq type code msgid token opts payload htoken hopts
  have hplen : payload.length % 65536 = payload.length :=
    Nat.mod_eq_of_lt (by unfold coapMsgMaxPduLen at hpay; omega)
  rcases hend with hne | hne
  · left
    rw [hb]
    simpa [hplen, List.length_pos_iff] using hne
  · exact Or.inr hne

/-- The round trip of the builder calls. Build a message with a token of at most
`COAP_MSG_MAX_TOKEN_LEN` bytes, at most `COAP_MSG_MAX_OPTION_NUM` options numbered
below `65536`, each number but the last below `256`, and values and payload of at most
`COAP_MSG_MAX_PDU_LEN` bytes. `CoAPSerialize_Message` into a buffer of
`CoAPSerialize_MessageLength` bytes returns that length, and `CoAPDeserialize_Message`
into a message without payload gives back the header, the token, the numbers passed to
the adds with their values, and the payload, unless there is no payload and the byte
after the message is `0xFF`. -/
theorem coapMessage_roundtrip {type code msgid : Nat} {token : List UInt8}
    {opts : List CoapOptionArg} {payload : List UInt8} (htoken : token.length ≤ coapMsgMaxTokenLen)
    (hopts : opts.length ≤ coapMsgMaxOptionNum) (hnum : ∀ a ∈ opts, a.optnum < 65536)
    (hlow : ∀ a ∈ opts.dropLast, a.optnum < 256)
    (hval : ∀ a ∈ opts, a.bytes.length ≤ coapMsgMaxPduLen) (hpay : payload.length ≤ coapMsgMaxPduLen)
    (buf : Nat → UInt8)
    (hend : payload ≠ [] ∨
      buf (coapSerializeMessageLength (coapBuild type code msgid token opts payload)) ≠ 0xFF)
    (m2 : CoAPMessage) (hm2 : m2.payloadlen = 0) :
    let msg := coapBuild type code msgid token opts payload
    let n := coapSerializeMessageLength msg
    let res := coapDeserializeMessage m2 (coapSerializeMessage msg buf n).2 n
    (coapSerializeMessage msg buf n).1 = n ∧ res.1 = .success ∧ res.2.header = msg.header ∧
      res.2.token.take token.length = token ∧
      res.2.options.map CoAPMsgOption.num = opts.map CoapOptionArg.optnum ∧
      res.2.options.map CoAPMsgOption.val = opts.map CoapOptionArg.bytes ∧
      res.2.payloadlen = payload.length ∧ res.2.payload.take res.2.payloadlen = payload := by
  dsimp only
  have hm := @coapBuild_fits type code msgid token opts payload htoken hopts hval hpay
  obtain ⟨ty, d, hty, hb⟩ := @coapBuild_eq type code msgid token opts payload htoken hopts
  have hplen : payload.length % 65536 = payload.length :=
    Nat.mod_eq_of_lt (by unfold coapMsgMaxPduLen at hpay; omega)
  obtain ⟨hout, hres⟩ := coapSerialize_deserialize hm buf (coapBuild_end htoken hopts hpay buf hend) m2
  refine ⟨hout, ?_⟩
  rw [hres, hb]
  have hopts' := absoluteOptions_storedOptions opts hnum hlow 0 (by decide)
  have htok := readAt_ofList_append token (List.replicate (coapMsgMaxTokenLen - token.length) 0) 0
  by_cases hp : 0 < payload.length
  · have hread := readAt_ofList payload 0
    simp [hplen, hp, hopts', htok, hread, Function.comp_def]
  · have hnil : payload = [] := List.eq_nil_of_length_eq_zero (by omega)
    subst hnil
    simp [hopts', htok, hm2, Function.comp_def]

/-- A built message with a token, two options and a payload goes round. -/
theorem coapMessage_roundtrip_sample :
    let token : List UInt8 := [1, 2]
    let opts : List CoapOptionArg := [.uint 11 5, .str 300 [65]]
    let payload : List UInt8 := [9]
    let msg := coapBuild coapMessageTypeCon 1 7 token opts payload
    let n := coapSerializeMessageLength msg
    let res := coapDeserializeMessage CoAPMessage.zero (coapSerializeMessage msg (fun _ => 0) n).2 n
    token.length ≤ coapMsgMaxTokenLen ∧ opts.length ≤ coapMsgMaxOptionNum ∧
      (∀ a ∈ opts, a.optnum < 65536) ∧ (∀ a ∈ opts.dropLast, a.optnum < 256) ∧
      (∀ a ∈ opts, a.bytes.length ≤ coapMsgMaxPduLen) ∧ payload.length ≤ coapMsgMaxPduLen ∧
      (payload ≠ [] ∨ (fun _ => (0 : UInt8)) n ≠ 0xFF) ∧ CoAPMessage.zero.payloadlen = 0 ∧
      ((coapSerializeMessage msg (fun _ => 0) n).1 = n ∧ res.1 = .success ∧ res.2.header = msg.header ∧
        res.2.token.take token.length = token ∧
        res.2.options.map CoAPMsgOption.num = opts.map CoapOptionArg.optnum ∧
        res.2.options.map CoAPMsgOption.val = opts.map CoapOptionArg.bytes ∧
        res.2.payloadlen = payload.length ∧ res.2.payload.take res.2.payloadlen = payload) :=
  ⟨by decide, by decide, by decide, by decide, by decide, by decide, Or.inl (by decide), rfl,
    coapMessage_roundtrip (by decide) (by decide) (by decide) (by decide) (by decide) (by decide)
      (fun _ => 0) (Or.inl (by decide)) CoAPMessage.zero rfl⟩

/-- The builder calls lose the high byte of an option's number before the next add.
Build a message as for `coapMessage_roundtrip`, with a first option numbered `256` or
more: `CoAPSerialize_Message` and `CoAPDeserialize_Message` read the first option back
under its number, and the second under the first number without its low byte plus the
second number, which is not the number passed. -/
theorem coapOptdelta_truncated {type code msgid : Nat} {token : List UInt8} {a b : CoapOptionArg}
    {rest : List CoapOptionArg} {payload : List UInt8} (htoken : token.length ≤ coapMsgMaxTokenLen)
    (hopts : (a :: b :: rest).length ≤ coapMsgMaxOptionNum) (hnum : ∀ x ∈ a :: b :: rest, x.optnum < 65536)
    (hval : ∀ x ∈ a :: b :: rest, x.bytes.length ≤ coapMsgMaxPduLen) (hpay : payload.length ≤ coapMsgMaxPduLen)
    (hhigh : 256 ≤ a.optnum) (buf : Nat → UInt8)
    (hend : payload ≠ [] ∨
      buf (coapSerializeMessageLength (coapBuild type code msgid token (a :: b :: rest) payload)) ≠ 0xFF)
    (m2 : CoAPMessage) :
    let msg := coapBuild type code msgid token (a :: b :: rest) payload
    let n := coapSerializeMessageLength msg
    let res := coapDeserializeMessage m2 (coapSerializeMessage msg buf n).2 n
    res.1 = .success ∧
      (res.2.options.map CoAPMsgOption.num).take 2 = [a.optnum, (a.optnum - a.optnum % 256 + b.optnum) % 65536] ∧
      (a.optnum - a.optnum % 256 + b.optnum) % 65536 ≠ b.optnum := by
  dsimp only
  have hm := @coapBuild_fits type code msgid token (a :: b :: rest) payload htoken hopts hval hpay
  obtain ⟨ty, d, hty, hb⟩ := @coapBuild_eq type code msgid token (a :: b :: rest) payload htoken hopts
  obtain ⟨-, hres⟩ := coapSerialize_deserialize hm buf (coapBuild_end htoken hopts hpay buf hend) m2
  have ha : a.optnum < 65536 := hnum a List.mem_cons_self
  have hb' : b.optnum < 65536 := hnum b (by simp)
  -- the numbers the decoder sums: the first whole, the second against the low byte of the first
  have hnums : ((absoluteOptions 0 (storedOptions 0 (a :: b :: rest))).map CoAPMsgOption.num).take 2 =
      [a.optnum, (a.optnum - a.optnum % 256 + b.optnum) % 65536] := by
    simp only [storedOptions, absoluteOptions, List.map_cons, List.take_succ_cons, List.take_zero,
      List.cons.injEq]
    exact ⟨by omega, by omega, trivial⟩
  refine ⟨by rw [hres], ?_, by omega⟩
  rw [hres]
  split <;> rw [hb] <;> exact hnums

/-- Two options numbered `300` in a row, nondecreasing as the adds ask. -/
def highOptions : CoAPMessage :=
  coapBuild coapMessageTypeCon 1 7 [] [.uint 300 1, .uint 300 1] []

/-- The second option of `highOptions` comes back numbered `556`: the add stored
`300 - (300 % 256) = 256` as its difference. -/
theorem coapOptdelta_truncated_highOptions :
    coapSerializeMessageLength highOptions ≤ coapMsgMaxPduLen ∧
      let res := coapDeserializeMessage CoAPMessage.zero
        (coapSerializeMessage highOptions (fun _ => 0) (coapSerializeMessageLength highOptions)).2
        (coapSerializeMessageLength highOptions)
      res.1 = .success ∧ (res.2.options.map CoAPMsgOption.num).take 2 = [300, (300 - 300 % 256 + 300) % 65536] ∧
        (300 - 300 % 256 + 300) % 65536 ≠ 300 :=
  ⟨by decide, @coapOptdelta_truncated coapMessageTypeCon 1 7 [] (.uint 300 1) (.uint 300 1) [] [] (by decide)
    (by decide)
    (by decide) (by decide) (by decide) (by decide) (fun _ => 0) (Or.inr (by decide)) CoAPMessage.zero⟩

end Coap
