import AliosThings.Coap.RoundTrip

/-!
# The receive path of `CoAPMessage.c`

`CoAPMessage_process` clears the receive buffer, reads a datagram into it and hands its
length to `CoAPMessage_handle`, which parses it into a zeroed message with
`CoAPDeserialize_Message` and sorts it by its header: an ACK or a reset goes to the
send list, a response to the request it answers, a CON ping gets a reset back, and a
request is routed by its URI path. `CoAPRequestMessage_handle` assembles that path in
a stack array of `COAP_MSG_MAX_PATH_LEN` bytes, cleared first, and hands it to
`CoAPResourceByPath_get` as a C string.

The parser trusts the datagram. The token length is a four-bit field, up to `15`,
copied into an array of `COAP_MSG_MAX_TOKEN_LEN` bytes whatever the length of the
datagram (`coapDeserializeMessage_token`). Every byte before the end that is not the
marker starts one more option, with no bound on their number
(`coapDeserializeMessage_zero_options`). The path test keeps the bytes written within
the array (`coapRequestPath_length_le`), but it admits a path of exactly
`COAP_MSG_MAX_PATH_LEN` bytes, which leaves no room for its NUL
(`coapRequestPath_full`).
-/

namespace Coap

open RingMemory

/-! ### Sorting a parsed message -/

/-- `COAP_MSG_CODE_EMPTY_MESSAGE`. -/
def coapMsgCodeEmptyMessage : Nat := 0

/-- `COAP_MSG_CODE_205_CONTENT`, code `2.05`. -/
def coapMsgCode205Content : Nat := 69

/-- `COAPAckMsg`. -/
def coapAckMsg (header : CoAPMsgHeader) : Bool :=
  header.code == coapMsgCodeEmptyMessage && header.type == coapMessageTypeAck

/-- `CoAPRespMsg`: the codes from `2.00` to `5.31`. -/
def coapRespMsg (header : CoAPMsgHeader) : Bool :=
  decide (0x40 ≤ header.code) && decide (header.code < 0xc0)

/-- `CoAPPingMsg`. -/
def coapPingMsg (header : CoAPMsgHeader) : Bool :=
  header.code == coapMsgCodeEmptyMessage && header.type == coapMessageTypeCon

/-- `CoAPResetMsg`. -/
def coapResetMsg (header : CoAPMsgHeader) : Bool :=
  header.type == coapMessageTypeRst

/-- `CoAPCONRespMsg`. -/
def coapConRespMsg (header : CoAPMsgHeader) : Bool :=
  header.code == coapMsgCode205Content && header.type == coapMessageTypeCon

/-- `CoAPReqMsg`: the method codes. -/
def coapReqMsg (header : CoAPMsgHeader) : Bool :=
  decide (1 ≤ header.code) && decide (header.code < 32)

/-- The branches of `CoAPMessage_handle`. -/
inductive CoapRoute where
  | ackHandle
  | respHandle
  | restSend
  | requestHandle
  | drop
  deriving DecidableEq, Repr

/-- The branch `CoAPMessage_handle` takes for a parsed header. A datagram the parser
refuses is sorted too: the status is not looked at. -/
def coapRoute (header : CoAPMsgHeader) : CoapRoute :=
  if coapAckMsg header || coapResetMsg header then .ackHandle
  else if coapRespMsg header then .respHandle
  else if coapPingMsg header then .restSend
  else if coapReqMsg header then .requestHandle
  else .drop

/-! ### The parser on any datagram -/

@[simp] theorem coapDeserializeOptions_header (msg : CoAPMessage) (buf : Nat → UInt8) (ptr : Nat)
    (buflen : Int) : (coapDeserializeOptions msg buf ptr buflen).2.header = msg.header := rfl

@[simp] theorem coapDeserializeOptions_token (msg : CoAPMessage) (buf : Nat → UInt8) (ptr : Nat)
    (buflen : Int) : (coapDeserializeOptions msg buf ptr buflen).2.token = msg.token := rfl

@[simp] theorem coapDeserializePayload_header (msg : CoAPMessage) (buf : Nat → UInt8) (ptr : Nat)
    (buflen : Int) : (coapDeserializePayload msg buf ptr buflen).header = msg.header := by
  unfold coapDeserializePayload
  split <;> rfl

@[simp] theorem coapDeserializePayload_token (msg : CoAPMessage) (buf : Nat → UInt8) (ptr : Nat)
    (buflen : Int) : (coapDeserializePayload msg buf ptr buflen).token = msg.token := by
  unfold coapDeserializePayload
  split <;> rfl

@[simp] theorem coapDeserializePayload_options (msg : CoAPMessage) (buf : Nat → UInt8) (ptr : Nat)
    (buflen : Int) : (coapDeserializePayload msg buf ptr buflen).options = msg.options := by
  unfold coapDeserializePayload
  split <;> rfl

/-- The four-bit token length of the first byte. -/
def tokenNibble (buf : Nat → UInt8) : Nat := (buf 0).toNat &&& 0x0F

/-- `CoAPDeserialize_Message` of a datagram of at least four bytes: it succeeds with
the header of the first four bytes, `tokenlen` token bytes from the fifth, and the
options and the payload from where the token ends, over what is left of `buflen`. -/
theorem coapDeserializeMessage_eq {buflen : Int} (h : 4 ≤ buflen) (msg : CoAPMessage)
    (buf : Nat → UInt8) :
    let m := (coapDeserializeToken (coapDeserializeHeader msg buf 0).2 buf 4).2
    let o := coapDeserializeOptions m buf (4 + tokenNibble buf) (buflen - 4 - tokenNibble buf)
    coapDeserializeMessage msg buf buflen =
      (.success, coapDeserializePayload o.2 buf (4 + tokenNibble buf + o.1)
        (buflen - 4 - tokenNibble buf - o.1)) := by
  unfold coapDeserializeMessage
  rw [if_neg (by omega)]
  rfl

/-- Whatever the datagram of at least four bytes, the token array receives the four-bit
`tokenlen` bytes from the fifth byte on, also those past the datagram's end. -/
theorem coapDeserializeMessage_token {n : Int} (hn : 4 ≤ n) (buf : Nat → UInt8) :
    (coapDeserializeMessage CoAPMessage.zero buf n).1 = .success ∧
      (coapDeserializeMessage CoAPMessage.zero buf n).2.token =
        readAt buf 4 (tokenNibble buf) ++ (List.replicate coapMsgMaxTokenLen 0).drop (tokenNibble buf) := by
  rw [coapDeserializeMessage_eq hn]
  simp [coapDeserializeToken, coapDeserializeHeader, tokenNibble, CoAPMessage.zero]

/-- A zero byte is an option with the number of the option before and no value. -/
theorem coapDeserializeOption_zero {buf : Nat → UInt8} {p : Nat} (h : buf p = 0) (q : Nat) :
    coapDeserializeOption buf p q = (1, ⟨q % 65536, 0, []⟩) := by
  simp [coapDeserializeOption, h]

/-- A run of `k` zero bytes that ends where the count reaches `buflen` is `k` empty
options numbered `0`. -/
theorem coapDeserializeOptions_go_zeros {buf : Nat → UInt8} {buflen : Int} (k : Nat) :
    ∀ (fuel p : Nat) (count : Int) (acc : List CoAPMsgOption),
      (∀ i, i < k → buf (p + i) = 0) → count + k = buflen → k < fuel →
      coapDeserializeOptions.go buf buflen fuel p count 0 acc =
        (p + k, acc ++ List.replicate k ⟨0, 0, []⟩) := by
  induction k with
  | zero =>
    intro fuel p count acc _ hc hf
    obtain ⟨fuel, rfl⟩ : ∃ f, fuel = f + 1 := ⟨fuel - 1, by omega⟩
    -- the count has reached `buflen`
    rw [coapDeserializeOptions.go, if_neg (by omega)]
    simp
  | succ k ih =>
    intro fuel p count acc hz hc hf
    obtain ⟨fuel, rfl⟩ : ∃ f, fuel = f + 1 := ⟨fuel - 1, by omega⟩
    have hp : buf p = 0 := by simpa using hz 0 (by omega)
    have hrest : ∀ i, i < k → buf (p + 1 + i) = 0 := fun i hi => by
      rw [Nat.add_assoc, Nat.add_comm 1 i]
      exact hz (i + 1) (by omega)
    rw [coapDeserializeOptions.go, if_pos ⟨by omega, by rw [hp]; decide⟩]
    dsimp only
    rw [coapDeserializeOption_zero hp]
    dsimp only
    simp only [Nat.reduceMod, Nat.cast_one]
    rw [ih fuel (p + 1) (count + 1) _ hrest (by push_cast at hc ⊢; omega) (by omega), List.append_assoc,
      List.singleton_append, ← List.replicate_succ, Nat.add_assoc, Nat.add_comm 1 k]

/-- A datagram of a header with no token followed by zero bytes up to its end parses
into one empty option for every byte after the header. -/
theorem coapDeserializeMessage_zero_options {n : Nat} (hn : 4 ≤ n) {buf : Nat → UInt8}
    (htl : tokenNibble buf = 0) (hz : ∀ i, 4 ≤ i → i < n → buf i = 0) :
    (coapDeserializeMessage CoAPMessage.zero buf n).2.options = List.replicate (n - 4) ⟨0, 0, []⟩ := by
  rw [coapDeserializeMessage_eq (show (4 : Int) ≤ n by exact_mod_cast hn)]
  simp only [coapDeserializePayload_options]
  unfold coapDeserializeOptions
  rw [htl, coapDeserializeOptions_go_zeros (n - 4) _ _ 0 [] (fun i hi => hz (4 + 0 + i) (by omega) (by omega))
    (by push_cast [Nat.cast_sub hn]; omega) (by omega)]
  simp

/-! ### The URI path of a request -/

/-- `COAP_MSG_MAX_PATH_LEN`. -/
def coapMsgMaxPathLen : Nat := 128

/-- `COAP_OPTION_URI_PATH`. -/
def coapOptionUriPath : Nat := 11

/-- `strncpy(dst, src, n)`: the bytes of `src` up to its first NUL, at most `n` of
them, padded with NULs to `n` bytes. -/
def strncpy (src : List UInt8) (n : Nat) : List UInt8 :=
  let s := (src.takeWhile fun b => b != 0).take n
  s ++ List.replicate (n - s.length) 0

@[simp] theorem strncpy_length (src : List UInt8) (n : Nat) : (strncpy src n).length = n := by
  simp only [strncpy, List.length_append, List.length_replicate, List.length_take]
  omega

/-- A value of `n` bytes with no NUL is copied whole. -/
theorem strncpy_of_not_mem {src : List UInt8} {n : Nat} (hl : src.length = n) (hz : (0 : UInt8) ∉ src) :
    strncpy src n = src := by
  have htw : (src.takeWhile fun b => b != 0) = src :=
    List.takeWhile_eq_self_iff.mpr fun b hb => by
      have : b ≠ 0 := fun h => hz (h ▸ hb)
      simpa using this
  simp [strncpy, htw, hl]

/-- One round of the loop of `CoAPRequestMessage_handle` over the bytes `path` holds so
far: a URI-Path option adds a `/` and its value when `tmp - path + len` is at most
`COAP_MSG_MAX_PATH_LEN - 1`. -/
def coapRequestPathStep (path : List UInt8) (option : CoAPMsgOption) : List UInt8 :=
  if coapOptionUriPath = option.num then
    if path.length + option.len ≤ coapMsgMaxPathLen - 1 then path ++ 47 :: strncpy option.val option.len
    else path
  else path

/-- The bytes `CoAPRequestMessage_handle` writes into `path`. -/
def coapRequestPath (options : List CoAPMsgOption) : List UInt8 :=
  options.foldl coapRequestPathStep []

/-- The array `path[COAP_MSG_MAX_PATH_LEN] = {0}` after the loop. -/
def coapRequestPathArray (options : List CoAPMsgOption) : List UInt8 :=
  coapRequestPath options ++ List.replicate (coapMsgMaxPathLen - (coapRequestPath options).length) 0

theorem coapRequestPathStep_length_le {path : List UInt8} (h : path.length ≤ coapMsgMaxPathLen)
    (option : CoAPMsgOption) : (coapRequestPathStep path option).length ≤ coapMsgMaxPathLen := by
  unfold coapRequestPathStep
  split_ifs with _ hfit
  · simp only [List.length_append, List.length_cons, strncpy_length]
    unfold coapMsgMaxPathLen at hfit ⊢
    omega
  · exact h
  · exact h

/-- The writes of the path loop stay within the array. -/
theorem coapRequestPath_length_le (options : List CoAPMsgOption) :
    (coapRequestPath options).length ≤ coapMsgMaxPathLen := by
  -- the bound holds of every prefix of the loop
  suffices ∀ path : List UInt8, path.length ≤ coapMsgMaxPathLen →
      (options.foldl coapRequestPathStep path).length ≤ coapMsgMaxPathLen from
    this [] (Nat.zero_le _)
  induction options with
  | nil => exact fun _ h => h
  | cons o os ih => exact fun path h => ih _ (coapRequestPathStep_length_le h o)

@[simp] theorem coapRequestPathArray_length (options : List CoAPMsgOption) :
    (coapRequestPathArray options).length = coapMsgMaxPathLen := by
  have := coapRequestPath_length_le options
  simp only [coapRequestPathArray, List.length_append, List.length_replicate]
  omega

/-- Once `COAP_MSG_MAX_PATH_LEN` bytes are written, no option adds to the path. -/
theorem foldl_coapRequestPathStep_full (options : List CoAPMsgOption) :
    ∀ path : List UInt8, coapMsgMaxPathLen ≤ path.length →
      options.foldl coapRequestPathStep path = path := by
  induction options with
  | nil => exact fun _ _ => rfl
  | cons o os ih =>
    intro path h
    have hstep : coapRequestPathStep path o = path := by
      unfold coapRequestPathStep
      split_ifs with _ hfit
      · unfold coapMsgMaxPathLen at h hfit
        omega
      · rfl
      · rfl
    rw [List.foldl_cons, hstep, ih path h]

/-- A first URI-Path option of `COAP_MSG_MAX_PATH_LEN - 1` bytes and no NUL fills the
whole array: the path has no terminating NUL. -/
theorem coapRequestPath_full {val : List UInt8} (hl : val.length = coapMsgMaxPathLen - 1)
    (hz : (0 : UInt8) ∉ val) (rest : List CoAPMsgOption) :
    coapRequestPathArray (⟨coapOptionUriPath, val.length, val⟩ :: rest) = 47 :: val ∧
      (0 : UInt8) ∉ coapRequestPathArray (⟨coapOptionUriPath, val.length, val⟩ :: rest) := by
  have hfirst : coapRequestPathStep [] ⟨coapOptionUriPath, val.length, val⟩ = 47 :: val := by
    unfold coapRequestPathStep
    rw [if_pos rfl, if_pos (by simp [hl]), strncpy_of_not_mem rfl hz]
    rfl
  have hpath : coapRequestPath (⟨coapOptionUriPath, val.length, val⟩ :: rest) = 47 :: val := by
    rw [coapRequestPath, List.foldl_cons, hfirst,
      foldl_coapRequestPathStep_full rest _ (by simp [hl, coapMsgMaxPathLen])]
  have harr : coapRequestPathArray (⟨coapOptionUriPath, val.length, val⟩ :: rest) = 47 :: val := by
    rw [coapRequestPathArray, hpath]
    simp [hl, coapMsgMaxPathLen]
  refine ⟨harr, ?_⟩
  rw [harr]
  simpa using hz

/-! ### The three overruns on datagrams -/

/-- A CON GET with no token and one URI-Path option holding `val`. -/
def uriPathRequest (val : List UInt8) : CoAPMessage :=
  { CoAPMessage.zero with
    header := ⟨coapCurVersion, coapMessageTypeCon, 0, 1, 0⟩
    options := [⟨coapOptionUriPath, val.length, val⟩] }

/-- Its datagram for a value of `127` bytes: the option byte `0xBD` holds the number
`11` and the length code `13`, and the byte after it the `114` that makes `127`. -/
theorem coapMessageBytes_uriPathRequest {val : List UInt8} (hl : val.length = coapMsgMaxPathLen - 1) :
    coapMessageBytes (uriPathRequest val) = [0x40, 0x01, 0, 0, 0xBD, 114] ++ val := by
  have hval : readAt (ofList val 0) 0 127 = val := by
    rw [← readAt_ofList val 0, hl]
    rfl
  simp [coapMessageBytes, uriPathRequest, coapHeaderBytes, coapSerializeOption, optionExt, payloadBytes,
    hl, hval, coapMsgMaxPathLen, coapCurVersion, coapMessageTypeCon, coapOptionUriPath, CoAPMessage.zero]

/-- `CoAPDeserialize_Message` of that datagram, in the cleared receive buffer, gives back
its header and its option. -/
theorem coapDeserializeMessage_uriPathRequest {val : List UInt8} (hl : val.length = coapMsgMaxPathLen - 1) :
    let d : List UInt8 := [0x40, 0x01, 0, 0, 0xBD, 114] ++ val
    (coapDeserializeMessage CoAPMessage.zero (ofList d 0) d.length).2.header =
        (uriPathRequest val).header ∧
      (coapDeserializeMessage CoAPMessage.zero (ofList d 0) d.length).2.options =
        [⟨coapOptionUriPath, val.length, val⟩] := by
  intro d
  have hlen : d.length < 65536 := by simp [d, hl, coapMsgMaxPathLen]
  have hfits : (uriPathRequest val).Fits := by
    refine ⟨show coapCurVersion < 4 by decide, show coapMessageTypeCon < 4 by decide,
      show 0 < 16 by decide, show 1 < 256 by decide, show 0 < 65536 by decide, ?_, ?_⟩
    · intro o ho
      simp only [uriPathRequest, List.mem_cons, List.not_mem_nil, or_false] at ho
      subst ho
      exact ⟨show coapOptionUriPath < 65536 by decide, by simp [hl, coapMsgMaxPathLen], rfl⟩
    · rw [coapMessageBytes_uriPathRequest hl]
      exact hlen
  have hbytes := coapMessageBytes_uriPathRequest hl
  have hstores : Stores (ofList d 0) 0 (coapMessageBytes (uriPathRequest val)) := by
    rw [hbytes]
    exact readAt_ofList d 0
  -- the cleared buffer holds no marker after the datagram
  have hend : 0 < (uriPathRequest val).payloadlen ∨
      ofList d 0 (coapMessageBytes (uriPathRequest val)).length ≠ 0xFF := by
    right
    rw [hbytes, ofList, List.getD_eq_getElem?_getD, List.getElem?_eq_none (le_refl _)]
    decide
  have h := coapDeserializeMessage_of_stores hfits hstores hend CoAPMessage.zero
  rw [hbytes] at h
  rw [h]
  simp [uriPathRequest, CoAPMessage.zero, absoluteOptions, coapOptionUriPath, hl, coapMsgMaxPathLen]

/-- The receive path overruns its buffers. A first byte with a token length above
`COAP_MSG_MAX_TOKEN_LEN` has the parser store that many token bytes, read from the
fifth byte on, also past the datagram. A datagram with no token and zero bytes after
its header parses into one option per byte, more than `COAP_MSG_MAX_OPTION_NUM` from
`17` bytes on. A GET whose URI-Path option holds `127` bytes and no NUL fills all
`COAP_MSG_MAX_PATH_LEN` bytes of the path array, which `CoAPResourceByPath_get` then
reads as a string with no terminating NUL. -/
theorem coapMessageHandle_overruns_buffers :
    (∀ (buf : Nat → UInt8) (n : Nat), 4 ≤ n → n ≤ coapMsgMaxPduLen → coapMsgMaxTokenLen < tokenNibble buf →
      (coapDeserializeMessage CoAPMessage.zero buf n).1 = .success ∧
        (coapDeserializeMessage CoAPMessage.zero buf n).2.token = readAt buf 4 (tokenNibble buf) ∧
        coapMsgMaxTokenLen < (coapDeserializeMessage CoAPMessage.zero buf n).2.token.length) ∧
    (∀ (buf : Nat → UInt8) (n : Nat), 4 + coapMsgMaxOptionNum < n → n ≤ coapMsgMaxPduLen →
      tokenNibble buf = 0 → (∀ i, 4 ≤ i → i < n → buf i = 0) →
      (coapDeserializeMessage CoAPMessage.zero buf n).1 = .success ∧
        coapMsgMaxOptionNum < (coapDeserializeMessage CoAPMessage.zero buf n).2.options.length) ∧
    (∀ val : List UInt8, val.length = coapMsgMaxPathLen - 1 → (0 : UInt8) ∉ val →
      let d : List UInt8 := [0x40, 0x01, 0, 0, 0xBD, 114] ++ val
      let m := (coapDeserializeMessage CoAPMessage.zero (ofList d 0) d.length).2
      coapRoute m.header = .requestHandle ∧ (0 : UInt8) ∉ coapRequestPathArray m.options) := by
  refine ⟨?token, ?options, ?path⟩
  case token =>
    intro buf n hn _ htl
    obtain ⟨hok, htok⟩ := coapDeserializeMessage_token (show (4 : Int) ≤ n by exact_mod_cast hn) buf
    -- the cleared token array is dropped whole: the datagram's bytes cover it
    have hdrop : (List.replicate coapMsgMaxTokenLen (0 : UInt8)).drop (tokenNibble buf) = [] :=
      List.drop_eq_nil_of_le (by simpa using htl.le)
    rw [hdrop, List.append_nil] at htok
    refine ⟨hok, htok, ?_⟩
    rw [htok, readAt_length]
    exact htl
  case options =>
    intro buf n hn _ htl hz
    have hok := (coapDeserializeMessage_token (show (4 : Int) ≤ n by unfold coapMsgMaxOptionNum at hn; omega) buf).1
    refine ⟨hok, ?_⟩
    rw [coapDeserializeMessage_zero_options (by omega) htl hz, List.length_replicate]
    omega
  case path =>
    intro val hl hz
    obtain ⟨hhdr, hopts⟩ := coapDeserializeMessage_uriPathRequest hl
    refine ⟨?_, ?_⟩
    · rw [hhdr]
      rfl
    · rw [hopts]
      exact (coapRequestPath_full hl hz []).2

/-- The first byte `0x4F` of a four-byte datagram asks for a token of `15` bytes. -/
theorem coapMessageHandle_overruns_buffers_long_token :
    (4 ≤ 4 ∧ 4 ≤ coapMsgMaxPduLen ∧ coapMsgMaxTokenLen < tokenNibble (ofList [0x4F, 0, 0, 0] 0)) ∧
      coapMsgMaxTokenLen <
        (coapDeserializeMessage CoAPMessage.zero (ofList [0x4F, 0, 0, 0] 0) 4).2.token.length :=
  ⟨⟨by decide, by decide, by decide⟩,
    (coapMessageHandle_overruns_buffers.1 (ofList [0x4F, 0, 0, 0] 0) 4 (by decide) (by decide) (by decide)).2.2⟩

end Coap
