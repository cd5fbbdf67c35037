import AliosThings.Coap.RoundTrip

/-!
# The option accessors of `CoAPMessage.c`

`CoAPOption_present`, `CoAPStrOption_get` and `CoAPUintOption_get` look for the first
option whose stored number equals the number asked for. A received message stores
the numbers the wire gives, summed by the parser; a built message stores each number
as its difference to the option added before (`storedOptions`). On a built message
the accessors therefore miss every option after the first one whose number is not
that difference (`coapOptionPresent_after_first`).

`CoAPUintOption_get` ORs the value's bytes into the caller's variable instead of
setting it, so what it leaves is the value together with whatever bits the variable
held (`coapUintOptionGet_uintOptionBytes`).
-/

namespace Coap

/-- The statuses of the accessors: `COAP_SUCCESS`, `COAP_ERROR_INVALID_LENGTH`,
`COAP_ERROR_NOT_FOUND`. -/
inductive CoapOptionRc where
  | success
  | errorInvalidLength
  | errorNotFound
  deriving DecidableEq, Repr

/-- The loop of the accessors: the first option stored under `optnum`. -/
def coapOptionFind (message : CoAPMessage) (optnum : Nat) : Option CoAPMsgOption :=
  message.options.find? fun o => o.num == optnum

/-- `CoAPOption_present`. -/
def coapOptionPresent (message : CoAPMessage) (option : Nat) : CoapOptionRc :=
  match coapOptionFind message option with
  | some _ => .success
  | none => .errorNotFound

/-- `CoAPStrOption_get` into the caller's buffer `data` of `*datalen` bytes: the status,
the buffer and `*datalen` after. -/
def coapStrOptionGet (message : CoAPMessage) (optnum : Nat) (data : List UInt8) (datalen : Nat) :
    CoapOptionRc × List UInt8 × Nat :=
  match coapOptionFind message optnum with
  | some o =>
    if datalen ≥ o.len then (.success, o.val.take o.len ++ data.drop o.len, o.len)
    else (.errorInvalidLength, data, datalen)
  | none => (.errorNotFound, data, datalen)

/-- The `switch` of `CoAPUintOption_get` on an option of `len` bytes `val`: the bytes
are ORed into `data` most significant first, and any other length clears it. -/
def uintOptionOr (data len : Nat) (val : List UInt8) : Nat :=
  let b (k : Nat) : Nat := (val.getD k 0).toNat
  match len with
  | 1 => data ||| b 0
  | 2 => (data ||| b 0 <<< 8) ||| b 1
  | 3 => ((data ||| b 0 <<< 16) ||| b 1 <<< 8) ||| b 2
  | 4 => (((data ||| b 0 <<< 24) ||| b 1 <<< 16) ||| b 2 <<< 8) ||| b 3
  | _ => 0

/-- `CoAPUintOption_get` with `*data` holding `data`: the status and `*data` after, an
`unsigned int`. -/
def coapUintOptionGet (message : CoAPMessage) (optnum : Nat) (data : Nat) : CoapOptionRc × Nat :=
  match coapOptionFind message optnum with
  | some o => (.success, uintOptionOr data o.len o.val % 2 ^ 32)
  | none => (.errorNotFound, data)

/-! ### The bytes of an unsigned option -/

/-- The byte of `x` that a mask of `0xFF` shifted by `k` selects. -/
theorem and_shiftLeft_shiftRight (x k : Nat) : (x &&& 255 <<< k) >>> k = x / 2 ^ k % 256 := by
  rw [Nat.shiftRight_and_distrib, Nat.shiftLeft_shiftRight, Nat.shiftRight_eq_div_pow]
  exact Nat.and_two_pow_sub_one_eq_mod _ 8

theorem toNat_ofNat_byte (x k : Nat) :
    (UInt8.ofNat ((x &&& 255 <<< k) >>> k)).toNat = x / 2 ^ k % 256 := by
  rw [and_shiftLeft_shiftRight, UInt8.toNat_ofNat_of_lt' (by simp only [UInt8.size]; omega)]

/-- A byte shifted above the low bits ORs in as it adds. -/
theorem shiftLeft_or_eq_add {a b i : Nat} (hb : b < 2 ^ i) : a <<< i ||| b = a * 2 ^ i + b := by
  rw [← Nat.shiftLeft_add_eq_or_of_lt hb, Nat.shiftLeft_eq]

/-- The value `CoAPUintOption_get` ORs in is the value `CoAPUintOption_add` stored, for
every width. -/
theorem uintOptionOr_uintOptionBytes {d : Nat} (hpos : 0 < d) (hlt : d < 2 ^ 32) (data : Nat) :
    uintOptionOr data (uintOptionBytes d).length (uintOptionBytes d) = data ||| d := by
  unfold uintOptionOr
  generalize hb : uintOptionBytes d = bs
  have h0 : ¬0 = d := by omega
  -- the three widths of `CoAPUintOption_add`
  by_cases h1 : 255 ≥ d
  · have hbs : bs = [UInt8.ofNat d] := by simp [← hb, uintOptionBytes, h0, h1]
    simp only [hbs, List.length_singleton, List.getD_cons_zero]
    rw [UInt8.toNat_ofNat_of_lt' (by simp only [UInt8.size]; omega)]
  by_cases h2 : 65535 ≥ d
  · have hbs : bs = [UInt8.ofNat ((d &&& 255 <<< 8) >>> 8), UInt8.ofNat ((d &&& 255 <<< 0) >>> 0)] := by
      simp [← hb, uintOptionBytes, h0, h1, h2]
    simp only [hbs, List.length_cons, List.length_nil, List.getD_cons_zero, List.getD_cons_succ,
      toNat_ofNat_byte, Nat.pow_zero, Nat.div_one]
    rw [Nat.or_assoc, shiftLeft_or_eq_add (show d % 256 < 2 ^ 8 by omega)]
    congr 1
    omega
  · have hbs : bs = [UInt8.ofNat ((d &&& 255 <<< 24) >>> 24), UInt8.ofNat ((d &&& 255 <<< 16) >>> 16),
        UInt8.ofNat ((d &&& 255 <<< 8) >>> 8), UInt8.ofNat ((d &&& 255 <<< 0) >>> 0)] := by
      simp [← hb, uintOptionBytes, h0, h1, h2]
    simp only [hbs, List.length_cons, List.length_nil, List.getD_cons_zero, List.getD_cons_succ,
      toNat_ofNat_byte, Nat.pow_zero, Nat.div_one]
    -- the bytes add up from the lowest
    rw [Nat.or_assoc, Nat.or_assoc, Nat.or_assoc, shiftLeft_or_eq_add (show d % 256 < 2 ^ 8 by omega),
      shiftLeft_or_eq_add (show d / 2 ^ 8 % 256 * 2 ^ 8 + d % 256 < 2 ^ 16 by omega),
      shiftLeft_or_eq_add
        (show d / 2 ^ 16 % 256 * 2 ^ 16 + (d / 2 ^ 8 % 256 * 2 ^ 8 + d % 256) < 2 ^ 24 by omega)]
    congr 1
    omega

/-! ### The accessors on built messages -/

/-- The message of `CoAPMessage_init` and one `CoAPUintOption_add` of `d` under `n`. -/
theorem coapOptionsAdd_uint {n : Nat} (hn : n < 65536) (d : Nat) :
    (coapOptionsAdd coapMessageInit [.uint n d]).options = [⟨n, (uintOptionBytes d).length, uintOptionBytes d⟩] := by
  simp [coapOptionsAdd, coapOptionAdd, coapUintOptionAdd, coapMessageInit, CoAPMessage.zero, optionDelta,
    coapMsgMaxOptionNum, Nat.mod_eq_of_lt hn]

/-- `CoAPUintOption_get` on a message where the loop finds `o`. -/
theorem coapUintOptionGet_of_find {message : CoAPMessage} {optnum : Nat} {o : CoAPMsgOption}
    (h : coapOptionFind message optnum = some o) (data : Nat) :
    coapUintOptionGet message optnum data = (.success, uintOptionOr data o.len o.val % 2 ^ 32) := by
  unfold coapUintOptionGet
  rw [h]

/-- `CoAPUintOption_get` leaves the value `CoAPUintOption_add` stored ORed into what the
caller's variable held, for every width of the value. -/
theorem coapUintOptionGet_uintOptionBytes {n d : Nat} (hn : n < 65536) (hpos : 0 < d) (hlt : d < 2 ^ 32)
    {data : Nat} (hdata : data < 2 ^ 32) :
    coapUintOptionGet (coapOptionsAdd coapMessageInit [.uint n d]) n data = (.success, data ||| d) := by
  -- the message is only ever rewritten, never unfolded: its terms are too deep for the kernel
  have hfind : coapOptionFind (coapOptionsAdd coapMessageInit [.uint n d]) n =
      some ⟨n, (uintOptionBytes d).length, uintOptionBytes d⟩ := by
    unfold coapOptionFind
    rw [coapOptionsAdd_uint hn]
    exact List.find?_cons_of_pos (beq_self_eq_true n)
  rw [coapUintOptionGet_of_find hfind]
  dsimp only
  rw [uintOptionOr_uintOptionBytes hpos hlt, Nat.mod_eq_of_lt (Nat.or_lt_two_pow hdata hlt)]

/-- Two adds from `CoAPMessage_init`, the first numbered below the second and above `0`,
both below `256`: the second option is stored under the difference of the two numbers,
and no accessor finds it under its own. -/
theorem coapOptionFind_after_first {a₁ a₂ : CoapOptionArg} (h₁ : 0 < a₁.optnum)
    (h₁₂ : a₁.optnum < a₂.optnum) (h₂ : a₂.optnum < 256) :
    coapOptionFind (coapOptionsAdd coapMessageInit [a₁, a₂]) a₂.optnum = none := by
  obtain ⟨d, hd⟩ := coapOptionsAdd_eq [a₁, a₂] coapMessageInit (by simp [coapMessageInit, CoAPMessage.zero, coapMsgMaxOptionNum])
  unfold coapOptionFind
  rw [hd, List.find?_eq_none]
  intro o ho
  simp only [coapMessageInit, CoAPMessage.zero, storedOptions, List.nil_append, List.mem_cons,
    List.not_mem_nil, or_false] at ho
  -- the stored numbers are `a₁` and `a₂ - a₁`
  rcases ho with rfl | rfl
  · simp only [beq_iff_eq]
    omega
  · simp only [beq_iff_eq, Nat.mod_eq_of_lt (show a₁.optnum < 256 by omega)]
    omega

/-- `CoAPOption_present` does not find the second of two options added in increasing
order under its number. -/
theorem coapOptionPresent_after_first {a₁ a₂ : CoapOptionArg} (h₁ : 0 < a₁.optnum)
    (h₁₂ : a₁.optnum < a₂.optnum) (h₂ : a₂.optnum < 256) :
    coapOptionPresent (coapOptionsAdd coapMessageInit [a₁, a₂]) a₂.optnum = .errorNotFound := by
  unfold coapOptionPresent
  rw [coapOptionFind_after_first h₁ h₁₂ h₂]

/-- The accessors disagree with the adds on built messages: after two adds in increasing
order `CoAPOption_present` misses the second option, and `CoAPUintOption_get` returns
the stored value ORed into the caller's variable. -/
theorem coapOptionAccessors_disagree :
    (∀ a₁ a₂ : CoapOptionArg, 0 < a₁.optnum → a₁.optnum < a₂.optnum → a₂.optnum < 256 →
      coapOptionPresent (coapOptionsAdd coapMessageInit [a₁, a₂]) a₂.optnum = .errorNotFound) ∧
    (∀ n d data : Nat, n < 65536 → 0 < d → d < 2 ^ 32 → data < 2 ^ 32 →
      coapUintOptionGet (coapOptionsAdd coapMessageInit [.uint n d]) n data = (.success, data ||| d)) := by
  refine ⟨?_, ?_⟩
  · intro a₁ a₂ h₁ h₁₂ h₂
    exact coapOptionPresent_after_first h₁ h₁₂ h₂
  · intro n d data hn hpos hlt hdata
    exact coapUintOptionGet_uintOptionBytes hn hpos hlt hdata

/-- A message with the uint option `3` and then the string option `11`: option `11` is
not found. A variable holding `2` asked for the uint option `12` holding `1` ends up
with `2 ||| 1`. -/
theorem coapOptionAccessors_disagree_observe :
    (0 < 3 ∧ 3 < 11 ∧ 11 < 256 ∧
      coapOptionPresent (coapOptionsAdd coapMessageInit [.uint 3 1, .str 11 [97]]) 11 = .errorNotFound) ∧
    (12 < 65536 ∧ 0 < 1 ∧ 1 < 2 ^ 32 ∧ 2 < 2 ^ 32 ∧
      coapUintOptionGet (coapOptionsAdd coapMessageInit [.uint 12 1]) 12 2 = (.success, 2 ||| 1)) :=
  ⟨⟨by decide, by decide, by decide,
      coapOptionAccessors_disagree.1 (.uint 3 1) (.str 11 [97]) (by decide) (by decide) (by decide)⟩,
    ⟨by decide, by decide, by decide, by decide,
      coapOptionAccessors_disagree.2 12 1 2 (by decide) (by decide) (by decide) (by decide)⟩⟩

end Coap
