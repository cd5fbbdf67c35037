import AliosThings.Rhino.Ringbuf

/-!
# The length header of the dynamic ring buffer

`ringbuf_push` writes `ringbufHeader len` in front of every message of `len`
bytes: one byte `0xxxxxxx` up to `0x7f`, two bytes `10xxxxxx xxxxxxxx` up to
`0x3fff` and three bytes `11xxxxxx …` up to `0x3fffff`, the length in big-endian
order. The pop decoder reads the header size off the first byte and
`ringbuf_headlen_decompress` gives the length back. The byte facts are proved
on the numbers the bytes stand for, where a bounded `decide` settles the masks.
-/

namespace Rhino

/-- The header bytes of a message of `len` bytes, as `ringbuf_push` builds them. -/
def ringbufHeader (len : Nat) : List UInt8 :=
  ((ringbufHeadlenCompress len [0, 0, 0]).2).take (compressLen len)

/-- The three size classes of a length the header can carry. -/
theorem compressLen_cases {len : Nat} (h : len ≤ ringbufLen3bytesMaxvalue) :
    (len ≤ 0x7f ∧ compressLen len = 1) ∨ (0x7f < len ∧ len ≤ 0x3fff ∧ compressLen len = 2) ∨
      (0x3fff < len ∧ compressLen len = 3) := by
  by_cases h1 : len ≤ 0x7f
  · exact .inl ⟨h1, by simp [compressLen, ringbufLen1byteMaxvalue, h1]⟩
  · by_cases h2 : len ≤ 0x3fff
    · exact .inr (.inl ⟨by omega, h2, by
        simp [compressLen, ringbufLen1byteMaxvalue, ringbufLen2bytesMaxvalue, h1, h2]⟩)
    · exact .inr (.inr ⟨by omega, by
        simp [compressLen, ringbufLen1byteMaxvalue, ringbufLen2bytesMaxvalue, h1, h2, h]⟩)

theorem compressLen_pos {len : Nat} (h : len ≤ ringbufLen3bytesMaxvalue) :
    0 < compressLen len := by
  rcases compressLen_cases h with ⟨_, h1⟩ | ⟨_, _, h1⟩ | ⟨_, h1⟩ <;> omega

theorem compressLen_le {len : Nat} (h : len ≤ ringbufLen3bytesMaxvalue) :
    compressLen len ≤ ringbufLenMaxSize := by
  unfold ringbufLenMaxSize
  rcases compressLen_cases h with ⟨_, h1⟩ | ⟨_, _, h1⟩ | ⟨_, h1⟩ <;> omega

@[simp] theorem ringbufHeadlenCompress_fst (len : Nat) (cmpBuf : List UInt8) :
    (ringbufHeadlenCompress len cmpBuf).1 = compressLen len := by
  simp only [ringbufHeadlenCompress]
  split_ifs <;> rfl

theorem ringbufHeadlenCompress_length (len : Nat) {cmpBuf : List UInt8} :
    ((ringbufHeadlenCompress len cmpBuf).2).length = cmpBuf.length := by
  simp only [ringbufHeadlenCompress]
  split_ifs <;> simp

theorem ringbufHeader_length {len : Nat} (h : len ≤ ringbufLen3bytesMaxvalue) :
    (ringbufHeader len).length = compressLen len := by
  have hle := compressLen_le h
  unfold ringbufLenMaxSize at hle
  simp only [ringbufHeader, List.length_take, ringbufHeadlenCompress_length, List.length_cons,
    List.length_nil]
  omega

/-- The header is written to the zeroed `c_len` array, so the array is the header
followed by zeros. -/
theorem ringbufHeadlenCompress_eq {len : Nat} (h : len ≤ ringbufLen3bytesMaxvalue) :
    (ringbufHeadlenCompress len [0, 0, 0]).2 =
      ringbufHeader len ++ List.replicate (3 - compressLen len) 0 := by
  rcases compressLen_cases h with ⟨_, h1⟩ | ⟨_, _, h1⟩ | ⟨_, h1⟩ <;>
    simp [ringbufHeader, ringbufHeadlenCompress, h1]

theorem byte_toNat_lt (b : UInt8) : b.toNat < 256 := b.toNat_lt

theorem ofNat_toNat_of_lt {n : Nat} (h : n < 256) : (UInt8.ofNat n).toNat = n := by
  simp [UInt8.toNat_ofNat', Nat.mod_eq_of_lt h]

/-- The header bytes as numbers, one size class at a time. -/
theorem ringbufHeader_one {len : Nat} (h : len ≤ 0x7f) :
    (ringbufHeader len).map UInt8.toNat = [len] := by
  have h1 : compressLen len = 1 := by simp [compressLen, ringbufLen1byteMaxvalue, h]
  have hand : ∀ x, x < 128 → 127 &&& x = x := by decide
  simp [ringbufHeader, ringbufHeadlenCompress, h1, ringbufLen1byteMaxvalue,
    Nat.mod_eq_of_lt (show len < 256 by omega), hand len (by omega)]

theorem ringbufHeader_two {len : Nat} (h0 : 0x7f < len) (h : len ≤ 0x3fff) :
    (ringbufHeader len).map UInt8.toNat = [128 ||| len / 256, len % 256] := by
  have h1 : compressLen len = 2 := by
    rcases compressLen_cases (show len ≤ ringbufLen3bytesMaxvalue by
      unfold ringbufLen3bytesMaxvalue; omega) with ⟨_, _⟩ | ⟨_, _, h1⟩ | ⟨_, _⟩ <;> omega
  simp [ringbufHeader, ringbufHeadlenCompress, h1, ringbufLenVle2bytes, Nat.shiftRight_eq_div_pow,
    Nat.mod_eq_of_lt (show len / 256 < 256 by omega)]

theorem ringbufHeader_three {len : Nat} (h0 : 0x3fff < len) (h : len ≤ ringbufLen3bytesMaxvalue) :
    (ringbufHeader len).map UInt8.toNat = [192 ||| len / 65536, len / 256 % 256, len % 256] := by
  have h1 : compressLen len = 3 := by
    rcases compressLen_cases h with ⟨_, _⟩ | ⟨_, _, _⟩ | ⟨_, h1⟩ <;> omega
  unfold ringbufLen3bytesMaxvalue at h
  simp [ringbufHeader, ringbufHeadlenCompress, h1, ringbufLenVle3bytes, Nat.shiftRight_eq_div_pow,
    Nat.mod_eq_of_lt (show len / 65536 < 256 by omega)]

theorem lenBytesOf_eq_of_toNat {b : UInt8} :
    ringbufLenBytesOf b =
      if b.toNat &&& 128 = 0 then some 1
      else if b.toNat &&& 192 = 128 then some 2
      else if b.toNat &&& 192 = 192 then some 3
      else none := by
  have e1 : (b &&& ringbufLenMaskOnebit = 0) ↔ b.toNat &&& 128 = 0 := by
    rw [← UInt8.toNat_inj]; simp [ringbufLenMaskOnebit]
  have e2 : (b &&& ringbufLenMaskTwobit = ringbufLenVle2bytes) ↔ b.toNat &&& 192 = 128 := by
    rw [← UInt8.toNat_inj]; simp [ringbufLenMaskTwobit, ringbufLenVle2bytes]
  have e3 : (b &&& ringbufLenMaskTwobit = ringbufLenVle3bytes) ↔ b.toNat &&& 192 = 192 := by
    rw [← UInt8.toNat_inj]; simp [ringbufLenMaskTwobit, ringbufLenVle3bytes]
  simp only [ringbufLenBytesOf, e1, e2, e3]

/-- The pop decoder reads the header size off the first header byte. -/
theorem ringbufLenBytesOf_header {len : Nat} (h : len ≤ ringbufLen3bytesMaxvalue)
    {b : UInt8} {rest : List UInt8} (hb : ringbufHeader len = b :: rest) :
    ringbufLenBytesOf b = some (compressLen len) := by
  rw [lenBytesOf_eq_of_toNat]
  rcases compressLen_cases h with ⟨h2, h1⟩ | ⟨h0, h2, h1⟩ | ⟨h0, h1⟩
  · have hm := ringbufHeader_one h2
    rw [hb] at hm
    simp only [List.map_cons, List.cons.injEq] at hm
    have hbit : ∀ x, x < 128 → x &&& 128 = 0 := by decide
    rw [h1, hm.1, if_pos (hbit len (by omega))]
  · have hm := ringbufHeader_two h0 h2
    rw [hb] at hm
    simp only [List.map_cons, List.cons.injEq] at hm
    have hbit : ∀ x, x < 64 → (128 ||| x) &&& 128 ≠ 0 ∧ (128 ||| x) &&& 192 = 128 := by decide
    rw [h1, hm.1, if_neg (hbit _ (by omega)).1, if_pos (hbit _ (by omega)).2]
  · have hm := ringbufHeader_three h0 h
    rw [hb] at hm
    simp only [List.map_cons, List.cons.injEq] at hm
    unfold ringbufLen3bytesMaxvalue at h
    have hbit : ∀ x, x < 64 → (192 ||| x) &&& 128 ≠ 0 ∧ (192 ||| x) &&& 192 ≠ 128 ∧
        (192 ||| x) &&& 192 = 192 := by decide
    rw [h1, hm.1, if_neg (hbit _ (by omega)).1, if_neg (hbit _ (by omega)).2.1,
      if_pos (hbit _ (by omega)).2.2]

/-- `ringbuf_headlen_decompress` gives back the length the header was built from,
whatever bytes follow the header in the `c_len` array. -/
theorem ringbufHeadlenDecompress_header {len : Nat} (h : len ≤ ringbufLen3bytesMaxvalue)
    (pad : List UInt8) :
    ringbufHeadlenDecompress (compressLen len) (ringbufHeader len ++ pad) = len := by
  have hlen := ringbufHeader_length h
  rcases compressLen_cases h with ⟨h2, h1⟩ | ⟨h0, h2, h1⟩ | ⟨h0, h1⟩
  · obtain ⟨b, hb⟩ : ∃ b, ringbufHeader len = [b] := by
      rw [h1] at hlen
      match hh : ringbufHeader len, hlen with
      | [b], _ => exact ⟨b, rfl⟩
    have hm := ringbufHeader_one h2
    rw [hb] at hm
    simp only [List.map_cons, List.map_nil, List.cons.injEq, and_true] at hm
    simp [ringbufHeadlenDecompress, h1, hb, hm]
  · obtain ⟨b₀, b₁, hb⟩ : ∃ b₀ b₁, ringbufHeader len = [b₀, b₁] := by
      rw [h1] at hlen
      match hh : ringbufHeader len, hlen with
      | [b₀, b₁], _ => exact ⟨b₀, b₁, rfl⟩
    have hm := ringbufHeader_two h0 h2
    rw [hb] at hm
    simp only [List.map_cons, List.map_nil, List.cons.injEq, and_true] at hm
    have hmask : ∀ x, x < 64 → (128 ||| x) &&& 63 = x := by decide
    simp [ringbufHeadlenDecompress, h1, hb, hm, ringbufLenMaskCleanTwobit,
      hmask _ (show len / 256 < 64 by omega)]
    omega
  · obtain ⟨b₀, b₁, b₂, hb⟩ : ∃ b₀ b₁ b₂, ringbufHeader len = [b₀, b₁, b₂] := by
      rw [h1] at hlen
      match hh : ringbufHeader len, hlen with
      | [b₀, b₁, b₂], _ => exact ⟨b₀, b₁, b₂, rfl⟩
    have hm := ringbufHeader_three h0 h
    rw [hb] at hm
    simp only [List.map_cons, List.map_nil, List.cons.injEq, and_true] at hm
    unfold ringbufLen3bytesMaxvalue at h
    have hmask : ∀ x, x < 64 → (192 ||| x) &&& 63 = x := by decide
    simp [ringbufHeadlenDecompress, h1, hb, hm, ringbufLenMaskCleanTwobit,
      hmask _ (show len / 65536 < 64 by omega)]
    omega

/-- The header bytes do not depend on what the `c_len` array held before: the
first `compressLen len` bytes are all written. -/
theorem ringbufHeadlenCompress_take {len : Nat} (h : len ≤ ringbufLen3bytesMaxvalue)
    {cmpBuf : List UInt8} (hc : ringbufLenMaxSize ≤ cmpBuf.length) :
    ((ringbufHeadlenCompress len cmpBuf).2).take (compressLen len) = ringbufHeader len := by
  obtain ⟨a₀, a₁, a₂, rest, rfl⟩ : ∃ a₀ a₁ a₂ rest, cmpBuf = a₀ :: a₁ :: a₂ :: rest := by
    unfold ringbufLenMaxSize at hc
    match cmpBuf, hc with
    | a₀ :: a₁ :: a₂ :: rest, _ => exact ⟨a₀, a₁, a₂, rest, rfl⟩
  rcases compressLen_cases h with ⟨_, h1⟩ | ⟨_, _, h1⟩ | ⟨_, h1⟩ <;>
    simp [ringbufHeader, ringbufHeadlenCompress, h1]

/-- The header codec round trip: `ringbuf_headlen_compress` returns the size class
`COMPRESS_LEN(len)`, one of 1, 2 and 3; the pop decoder reads that size off the
first byte written; and `ringbuf_headlen_decompress` gives `len` back. -/
theorem ringbufHeadlen_roundtrip {len : Nat} (h : len ≤ ringbufLen3bytesMaxvalue)
    {cmpBuf : List UInt8} (hc : ringbufLenMaxSize ≤ cmpBuf.length) :
    (ringbufHeadlenCompress len cmpBuf).1 = compressLen len ∧
      (ringbufHeadlenCompress len cmpBuf).1 ∈ [1, 2, 3] ∧
      (∃ b rest, (ringbufHeadlenCompress len cmpBuf).2 = b :: rest ∧
        ringbufLenBytesOf b = some (ringbufHeadlenCompress len cmpBuf).1) ∧
      ringbufHeadlenDecompress (ringbufHeadlenCompress len cmpBuf).1
        (ringbufHeadlenCompress len cmpBuf).2 = len := by
  have htake := ringbufHeadlenCompress_take h hc
  have hsplit := List.take_append_drop (compressLen len) (ringbufHeadlenCompress len cmpBuf).2
  rw [htake] at hsplit
  rw [ringbufHeadlenCompress_fst]
  refine ⟨rfl, ?_, ?_, ?_⟩
  · rcases compressLen_cases h with ⟨_, h1⟩ | ⟨_, _, h1⟩ | ⟨_, h1⟩ <;> simp [h1]
  · -- the header is not empty, so its first byte is the array's first byte
    obtain ⟨b, hdr, hb⟩ : ∃ b hdr, ringbufHeader len = b :: hdr := by
      have hlen := ringbufHeader_length h
      have hpos := compressLen_pos h
      match hh : ringbufHeader len, hlen with
      | b :: hdr, _ => exact ⟨b, hdr, rfl⟩
      | [], hlen => simp at hlen; omega
    refine ⟨b, hdr ++ ((ringbufHeadlenCompress len cmpBuf).2).drop (compressLen len), ?_,
      ringbufLenBytesOf_header h hb⟩
    rw [hb, List.cons_append] at hsplit
    exact hsplit.symm
  · rw [← hsplit]
    exact ringbufHeadlenDecompress_header h _

theorem ringbufHeadlen_roundtrip_300 :
    (300 : Nat) ≤ ringbufLen3bytesMaxvalue ∧ ringbufLenMaxSize ≤ [0, 0, 0].length ∧
      (ringbufHeadlenCompress 300 [0, 0, 0]).1 = compressLen 300 ∧
      (ringbufHeadlenCompress 300 [0, 0, 0]).1 ∈ [1, 2, 3] ∧
      (∃ b rest, (ringbufHeadlenCompress 300 [0, 0, 0]).2 = b :: rest ∧
        ringbufLenBytesOf b = some (ringbufHeadlenCompress 300 [0, 0, 0]).1) ∧
      ringbufHeadlenDecompress (ringbufHeadlenCompress 300 [0, 0, 0]).1
        (ringbufHeadlenCompress 300 [0, 0, 0]).2 = 300 :=
  ⟨by decide, by decide,
    ringbufHeadlen_roundtrip (by decide) (show ringbufLenMaxSize ≤ ([0, 0, 0] : List UInt8).length by decide)⟩

end Rhino
