import AliosThings.Rhino.RingbufHeader

/-!
# The dynamic ring buffer stores a FIFO of byte strings

A queue `q` of messages is stored as the bytes `ringbufEncode m` of each message
in turn, read circularly from `head`: `RingbufDynInv` says so, together with the
bounds on the two pointers and the free space. `ringbuf_push` keeps it when it
appends a message and reports a full buffer exactly when the message and its
header do not fit; `ringbuf_pop` keeps it when it returns the oldest message.

The pointer comparisons of the code (`tail >= head` on push, `head > tail` on
pop) only decide whether a copy has to be split at `end`; `push_fit` and
`pop_fit` show that an unsplit copy always ends before `end`, so that each pair
of copies is one circular copy (`writeAt_split`, `readAt_split`).
-/

namespace Rhino

open RingMemory

/-- The bytes a stored message takes in the buffer: its header, then its payload. -/
def ringbufEncode (m : List UInt8) : List UInt8 :=
  ringbufHeader m.length ++ m

/-- The room a stored message takes. -/
def ringbufMsgSize (m : List UInt8) : Nat :=
  compressLen m.length + m.length

/-- The room a queue of stored messages takes. -/
def ringbufUsed (q : List (List UInt8)) : Nat :=
  (q.map ringbufMsgSize).sum

/-- A message the dynamic buffer can carry: not empty, its length fits the header. -/
def RingbufMsgOk (m : List UInt8) : Prop :=
  0 < m.length ∧ m.length ≤ ringbufLen3bytesMaxvalue

instance (m : List UInt8) : Decidable (RingbufMsgOk m) :=
  inferInstanceAs (Decidable (_ ∧ _))

/-- The representation invariant of a dynamic buffer storing the queue `q`. -/
structure RingbufDynInv (rb : KRingbuf) (q : List (List UInt8)) : Prop where
  dyn : rb.type = .dyn
  size_pos : 0 < rb.bufEnd
  head_le : rb.head ≤ rb.bufEnd
  tail_le : rb.tail ≤ rb.bufEnd
  free : rb.freesize + ringbufUsed q = rb.bufEnd
  tail_pos : rb.tail % rb.bufEnd = (rb.head + ringbufUsed q) % rb.bufEnd
  data : ringRead rb.mem rb.bufEnd rb.head (ringbufUsed q) = (q.map ringbufEncode).flatten
  msgs : ∀ m ∈ q, RingbufMsgOk m

@[simp] theorem ringbufUsed_nil : ringbufUsed [] = 0 := rfl

@[simp] theorem ringbufUsed_cons (m : List UInt8) (q : List (List UInt8)) :
    ringbufUsed (m :: q) = ringbufMsgSize m + ringbufUsed q := by
  simp [ringbufUsed]

@[simp] theorem ringbufUsed_append (q r : List (List UInt8)) :
    ringbufUsed (q ++ r) = ringbufUsed q + ringbufUsed r := by
  simp [ringbufUsed]

theorem ringbufMsgSize_ge_two {m : List UInt8} (h : RingbufMsgOk m) : 2 ≤ ringbufMsgSize m := by
  have := compressLen_pos h.2
  unfold ringbufMsgSize
  have := h.1
  omega

theorem ringbufEncode_length {m : List UInt8} (h : RingbufMsgOk m) :
    (ringbufEncode m).length = ringbufMsgSize m := by
  simp [ringbufEncode, ringbufMsgSize, ringbufHeader_length h.2]

theorem ringbufUsed_eq_zero {q : List (List UInt8)} (h : ∀ m ∈ q, RingbufMsgOk m) :
    ringbufUsed q = 0 ↔ q = [] := by
  cases q with
  | nil => simp
  | cons m q =>
    have := ringbufMsgSize_ge_two (h m (by simp))
    simp only [ringbufUsed_cons, reduceCtorEq, iff_false]
    omega

/-- The lazily normalised pointer is the pointer taken modulo the size. -/
theorem norm_eq_mod {x N : Nat} (hx : x ≤ N) :
    (if x = N then 0 else x) = x % N := by
  split
  · subst x; simp
  · rw [Nat.mod_eq_of_lt (by omega)]

theorem norm_lt {x N : Nat} (hN : 0 < N) (hx : x ≤ N) : (if x = N then 0 else x) < N := by
  split <;> omega

/-- On push, a tail below the head has all the free room before the head. -/
theorem push_fit {N h x u k : Nat} (hx : x < N) (hh : h ≤ N)
    (hpos : x % N = (h + u) % N) (hk : u + k ≤ N) (hlt : x < h) : x + k ≤ N := by
  rw [Nat.mod_eq_of_lt hx] at hpos
  by_cases h2 : h + u < 2 * N
  · rw [mod_of_lt_two h2] at hpos
    split_ifs at hpos <;> omega
  · omega

/-- On pop, a head at or below the tail has the rest of the stored bytes before the tail. -/
theorem pop_fit {N x tl u k : Nat} (hx : x < N) (htl : tl ≤ N)
    (hpos : tl % N = (x + u) % N) (hk : k ≤ u) (hu : u < N) (hle : x ≤ tl) : x + k ≤ N := by
  rw [mod_of_lt_two (show x + u < 2 * N by omega)] at hpos
  by_cases htn : tl = N
  · subst htn
    rw [Nat.mod_self] at hpos
    split_ifs at hpos <;> omega
  · rw [Nat.mod_eq_of_lt (by omega)] at hpos
    split_ifs at hpos <;> omega

theorem ringbufDynInv_init (mem : Nat → UInt8) {N : Nat} (hN : 0 < N) (blockSize : Nat) :
    RingbufDynInv (ringbufInit mem N .dyn blockSize) [] where
  dyn := rfl
  size_pos := hN
  head_le := Nat.zero_le _
  tail_le := Nat.zero_le _
  free := by simp [ringbufInit, ringbufReset]
  tail_pos := by simp [ringbufInit, ringbufReset]
  data := by simp [ringbufInit, ringbufReset]
  msgs := by simp

/-- `ringbuf_is_empty` holds exactly when no message is stored. -/
theorem ringbufIsEmpty_iff {rb : KRingbuf} {q : List (List UInt8)} (hI : RingbufDynInv rb q) :
    ringbufIsEmpty rb = true ↔ q = [] := by
  rw [← ringbufUsed_eq_zero hI.msgs]
  have := hI.free
  simp only [ringbufIsEmpty, decide_eq_true_eq]
  omega

/-- One copy of `ringbuf_push`: the split guard of the code, and the copy it makes. -/
theorem push_stage (mem : Nat → UInt8) (bs : List UInt8) {N h x u k : Nat} (sp : Prop) [Decidable sp]
    (hsp : sp ↔ x ≥ h ∧ N - x < k ∧ 0 < N - x) {s : Nat} (hs : s = if sp then N - x else 0)
    (hx : x < N) (hh : h ≤ N) (hpos : x % N = (h + u) % N) (hk : u + k ≤ N) (hlen : bs.length = k) :
    EqBelow N (writeAt (if sp then writeAt mem x (bs.take s) else mem) (if sp then 0 else x)
        (bs.drop s)) (ringWrite mem N x bs) ∧
      (if sp then 0 else x) + (k - s) ≤ N ∧ ((if sp then 0 else x) + (k - s)) % N = (x + k) % N := by
  have split : sp → x < N ∧ N - x < k := fun h' => ⟨hx, (hsp.1 h').2.1⟩
  have whole : ¬ sp → x + k ≤ N := by
    intro h'
    by_cases below : x < h
    · exact push_fit hx hh hpos hk below
    · rw [hsp] at h'
      omega
  subst hlen
  exact ⟨writeAt_split sp hs (by omega) split whole, split_end sp hs (by omega) split whole⟩

theorem take_drop_append {α : Type*} {l₁ l₂ : List α} {s r : Nat} (hs : s ≤ l₁.length)
    (hr : r = l₁.length - s) : ((l₁ ++ l₂).drop s).take r = l₁.drop s := by
  rw [List.drop_append_of_le_length hs, hr]
  simp

theorem ringbufPush_dyn_ok {rb : KRingbuf} {q : List (List UInt8)} {data : List UInt8}
    (hI : RingbufDynInv rb q) (hm : RingbufMsgOk data) (hroom : ringbufMsgSize data ≤ rb.freesize) :
    ∃ rb', ringbufPush rb data data.length = (rb', .success) ∧ rb'.bufEnd = rb.bufEnd ∧
      RingbufDynInv rb' (q ++ [data]) := by
  obtain ⟨hdyn, hN, hh, ht, hfree, hpos, hdata, hmsgs⟩ := hI
  have hlb := ringbufHeader_length hm.2
  have hc : ringbufHeadlenCompress data.length [0, 0, 0] = (compressLen data.length,
      ringbufHeader data.length ++ List.replicate (3 - compressLen data.length) 0) :=
    Prod.ext (ringbufHeadlenCompress_fst _ _) (ringbufHeadlenCompress_eq hm.2)
  have hfull : ringbufIsFull rb = false := by
    have := ringbufMsgSize_ge_two hm
    simp [ringbufIsFull, hdyn]
    omega
  have hlbpos := compressLen_pos hm.2
  have hlbmax := compressLen_le hm.2
  unfold ringbufMsgSize at hroom
  unfold ringbufPush
  rw [hc]
  simp -zeta only [hfull, hdyn, Bool.false_eq_true, if_false, show ¬ (compressLen data.length = 0 ∨
    compressLen data.length > ringbufLenMaxSize) by omega, show ¬ rb.freesize < compressLen data.length + data.length by omega]
  extract_lets tail₀ hdrSplit splitLen mem₁ tail₁ free₁ rest mem₂ tail₂ free₂ tail₃ dataSplit
    splitLen' mem₃ tail₄ free₃ len'
  refine ⟨_, rfl, rfl, ?_⟩
  -- the header, written at the normalised tail
  have hx₀ : tail₀ < rb.bufEnd := norm_lt hN ht
  have hpos₀ : tail₀ % rb.bufEnd = (rb.head + ringbufUsed q) % rb.bufEnd := by
    rw [show tail₀ = rb.tail % rb.bufEnd from norm_eq_mod ht, Nat.mod_mod, hpos]
  have hsl : splitLen ≤ compressLen data.length := by
    simp only [splitLen, hdrSplit]
    split_ifs <;> omega
  have hrest : 0 < rest := by
    simp only [rest, splitLen, hdrSplit]
    split_ifs <;> omega
  obtain ⟨hw₁, hend₁, hmod₁⟩ := push_stage rb.mem (ringbufHeader data.length) hdrSplit Iff.rfl
    (show splitLen = _ from rfl) hx₀ hh hpos₀ (by omega) hlb
  have hmem₂ : EqBelow rb.bufEnd mem₂ (ringWrite rb.mem rb.bufEnd tail₀ (ringbufHeader data.length)) := by
    simp only [mem₂, mem₁, if_pos hrest, List.take_append_of_le_length (hlb ▸ hsl),
      take_drop_append (hlb ▸ hsl) (show rest = _ by simp only [rest, hlb])]
    exact hw₁
  have htail₂ : tail₂ = (if hdrSplit then 0 else tail₀) + (compressLen data.length - splitLen) :=
    if_pos hrest
  have hfree₂ : free₂ = rb.freesize - compressLen data.length := by
    simp only [free₂, free₁, if_pos hrest, rest]
    omega
  -- the payload, written right after the header
  have hx₃ : tail₃ < rb.bufEnd := norm_lt hN (htail₂ ▸ hend₁)
  have ht₃ : tail₃ = (tail₀ + compressLen data.length) % rb.bufEnd := by
    rw [show tail₃ = tail₂ % rb.bufEnd from norm_eq_mod (htail₂ ▸ hend₁), htail₂, hmod₁]
  have hpos₃ : tail₃ % rb.bufEnd =
      (rb.head + (ringbufUsed q + compressLen data.length)) % rb.bufEnd := by
    rw [ht₃, Nat.mod_mod, ← Nat.add_assoc]
    exact Nat.ModEq.add_right _ hpos₀
  have hsl' : splitLen' ≤ data.length := by
    simp only [splitLen', dataSplit]
    split_ifs <;> omega
  obtain ⟨hw₂, hend₂, hmod₂⟩ := push_stage mem₂ data dataSplit Iff.rfl
    (show splitLen' = _ from rfl) hx₃ hh hpos₃ (by omega) rfl
  have hlast : List.take len' (List.drop splitLen' data) = List.drop splitLen' data :=
    List.take_of_length_le (by simp [len'])
  have hmem : EqBelow rb.bufEnd (writeAt mem₃ tail₄ (List.take len' (List.drop splitLen' data)))
      (ringWrite rb.mem rb.bufEnd tail₀ (ringbufEncode data)) := by
    have happ : EqBelow rb.bufEnd (ringWrite rb.mem rb.bufEnd tail₀ (ringbufHeader data.length ++ data))
        (ringWrite (ringWrite rb.mem rb.bufEnd tail₀ (ringbufHeader data.length)) rb.bufEnd
          (tail₀ + (ringbufHeader data.length).length) data) :=
      ringWrite_append tail₀ (by omega)
    rw [hlast]
    refine hw₂.trans ((ringWrite_congr hmem₂ tail₃ data).trans ?_)
    rw [ht₃, ringWrite_mod, ← hlb]
    exact happ.symm
  constructor
  · exact hdyn
  · exact hN
  · exact hh
  · exact hend₂
  · simp only [ringbufUsed_append, ringbufUsed_cons, ringbufUsed_nil, ringbufMsgSize, free₃, len',
      hfree₂]
    omega
  · simp only [ringbufUsed_append, ringbufUsed_cons, ringbufUsed_nil, ringbufMsgSize]
    rw [hmod₂, Nat.add_zero, show rb.head + (ringbufUsed q + (compressLen data.length + data.length)) =
      rb.head + (ringbufUsed q + compressLen data.length) + data.length by omega]
    exact Nat.ModEq.add_right _ hpos₃
  · have henc := ringbufEncode_length hm
    simp only [ringbufUsed_append, ringbufUsed_cons, ringbufUsed_nil, Nat.add_zero]
    have hfit : ringbufUsed q + (ringbufEncode data).length ≤ rb.bufEnd := by
      rw [henc]
      unfold ringbufMsgSize
      omega
    rw [ringRead_congr hN hmem, ← henc, ringRead_ringWrite hN hfit hpos₀, hdata]
    simp
  · intro m hmq
    rcases List.mem_append.1 hmq with hq | hd
    · exact hmsgs m hq
    · rw [List.mem_singleton.1 hd]
      exact hm
theorem ringbufPop_dyn_ok {rb : KRingbuf} {m : List UInt8} {q : List (List UInt8)}
    (hI : RingbufDynInv rb (m :: q)) :
    ∃ rb', ringbufPop rb = (rb', .success, m, some m.length) ∧ rb'.bufEnd = rb.bufEnd ∧
      RingbufDynInv rb' q := by
  have hne : ringbufIsEmpty rb = false := by
    simpa using (ringbufIsEmpty_iff hI).not.2 (List.cons_ne_nil m q)
  obtain ⟨hdyn, hN, hh, ht, hfree, hpos, hdata, hmsgs⟩ := hI
  have hm := hmsgs m (by simp)
  have hlb := ringbufHeader_length hm.2
  have hlbpos := compressLen_pos hm.2
  simp only [ringbufUsed_cons] at hfree hpos hdata
  rw [List.map_cons, List.flatten_cons] at hdata
  -- the stored bytes: the header of `m`, its payload, then the rest of the queue
  obtain ⟨hmsg, hrest⟩ := ringRead_add_eq hdata (ringbufEncode_length hm)
  unfold ringbufMsgSize ringbufEncode at hmsg
  obtain ⟨hhd, hpl⟩ := ringRead_add_eq hmsg hlb
  -- the first header byte, at the normalised head, gives the header size
  obtain ⟨b, rest, hb⟩ : ∃ b rest, ringbufHeader m.length = b :: rest := by
    cases h : ringbufHeader m.length with
    | nil => rw [h] at hlb; simp at hlb; omega
    | cons b rest => exact ⟨b, rest, rfl⟩
  have hfirst : rb.mem (rb.head % rb.bufEnd) = b := by
    have h1 := (ringRead_add_eq (n := 1) (m := compressLen m.length - 1)
      (show _ = [b] ++ rest by rw [Nat.add_sub_cancel' hlbpos, hhd, hb]; rfl) rfl).1
    rw [ringRead_one] at h1
    exact List.singleton_inj.1 h1
  have hsize := ringbufLenBytesOf_header hm.2 hb
  rw [← hfirst, ← norm_eq_mod hh] at hsize
  simp -zeta only [ringbufPop, hne, hdyn, Bool.false_eq_true, if_false]
  extract_lets head₀
  rw [hsize]
  simp -zeta only
  extract_lets hdrSplit splitLen c₁ head₁ free₁ rest c₂ head₂ free₂ len head₃ dataSplit splitLen' d₁
    head₄ free₃ len'
  have hx₀ : head₀ < rb.bufEnd := norm_lt hN hh
  have hhd₀ : head₀ = rb.head % rb.bufEnd := norm_eq_mod hh
  unfold ringbufMsgSize at hfree hpos hrest
  -- the header, read from the normalised head
  have hsplit₁ : hdrSplit → head₀ < rb.bufEnd ∧ rb.bufEnd - head₀ < compressLen m.length :=
    fun h => ⟨hx₀, h.1⟩
  have hwhole₁ : ¬ hdrSplit → head₀ + compressLen m.length ≤ rb.bufEnd := by
    intro h
    simp only [hdrSplit] at h
    omega
  have hrest₁ : 0 < rest := by
    simp only [rest, splitLen, hdrSplit]
    split_ifs <;> omega
  have hc : c₁ ++ c₂ = ringbufHeader m.length := by
    have hc₂ : c₂ = readAt rb.mem head₁ rest := if_pos hrest₁
    rw [hc₂]
    refine (readAt_split rb.mem hdrSplit (show splitLen = _ from rfl) (by omega) hsplit₁ hwhole₁).trans ?_
    rw [hhd₀, ringRead_mod, hhd]
  have hlen : len = m.length := by
    show ringbufHeadlenDecompress _ (c₁ ++ c₂ ++ _) = _
    rw [hc]
    exact ringbufHeadlenDecompress_header hm.2 _
  obtain ⟨hend₁, hmod₁⟩ := split_end hdrSplit (show splitLen = _ from rfl) (by omega) hsplit₁ hwhole₁
  have hhead₂ : head₂ = (if hdrSplit then 0 else head₀) + (compressLen m.length - splitLen) :=
    if_pos hrest₁
  have hfree₂ : free₂ = rb.freesize + compressLen m.length := by
    simp only [free₂, free₁, if_pos hrest₁, rest]
    omega
  -- the payload, read right after the header
  have hx₃ : head₃ < rb.bufEnd := norm_lt hN (hhead₂ ▸ hend₁)
  have hhd₃ : head₃ = (rb.head + compressLen m.length) % rb.bufEnd := by
    rw [show head₃ = head₂ % rb.bufEnd from norm_eq_mod (hhead₂ ▸ hend₁), hhead₂, hmod₁, hhd₀,
      Nat.mod_add_mod]
  have hsplit₂ : dataSplit → head₃ < rb.bufEnd ∧ rb.bufEnd - head₃ < len := fun h => ⟨hx₃, h.2⟩
  have hwhole₂ : ¬ dataSplit → head₃ + len ≤ rb.bufEnd := by
    intro h
    rw [hlen]
    by_cases below : head₃ ≤ rb.tail
    · refine pop_fit (u := m.length + ringbufUsed q) hx₃ ht ?_ (by omega) (by omega) below
      rw [hpos, hhd₃, Nat.mod_add_mod]
      congr 1
      omega
    · simp only [dataSplit, hlen] at h
      omega
  have hout : d₁ ++ readAt rb.mem head₄ len' = m := by
    refine (readAt_split rb.mem dataSplit (show splitLen' = _ from rfl) (by omega) hsplit₂
      hwhole₂).trans ?_
    rw [hhd₃, ringRead_mod, hlen, hpl]
  obtain ⟨hend₂, hmod₂⟩ := split_end dataSplit (show splitLen' = _ from rfl) (by omega) hsplit₂ hwhole₂
  have hsl' : splitLen' ≤ len := by
    simp only [splitLen', dataSplit]
    split_ifs <;> omega
  have hnew : (head₄ + len') % rb.bufEnd =
      (rb.head + (compressLen m.length + m.length)) % rb.bufEnd := by
    rw [hmod₂, hhd₃, Nat.mod_add_mod, hlen, Nat.add_assoc]
  refine ⟨{ rb with head := head₄ + len', freesize := free₃ + len' }, ?_, rfl, ?_⟩
  · rw [hout, hlen]
  constructor
  · exact hdyn
  · exact hN
  · exact hend₂
  · exact ht
  · simp only [free₃, hfree₂, len']
    omega
  · rw [hpos, ← Nat.mod_add_mod (head₄ + len'), hnew, Nat.mod_add_mod]
    congr 1
    omega
  · rw [← ringRead_mod, hnew, ringRead_mod]
    exact hrest
  · exact fun m' h => hmsgs m' (List.mem_cons_of_mem _ h)

/-- A message that does not fit, header included, is refused and leaves the buffer as it was. -/
theorem ringbufPush_dyn_full {rb : KRingbuf} {q : List (List UInt8)} {data : List UInt8}
    (hI : RingbufDynInv rb q) (hm : RingbufMsgOk data) (hroom : rb.freesize < ringbufMsgSize data) :
    ringbufPush rb data data.length = (rb, .ringbufFull) := by
  have hc : ringbufHeadlenCompress data.length [0, 0, 0] = (compressLen data.length,
      ringbufHeader data.length ++ List.replicate (3 - compressLen data.length) 0) :=
    Prod.ext (ringbufHeadlenCompress_fst _ _) (ringbufHeadlenCompress_eq hm.2)
  have hlbpos := compressLen_pos hm.2
  have hlbmax := compressLen_le hm.2
  unfold ringbufMsgSize at hroom
  unfold ringbufPush
  by_cases hfull : ringbufIsFull rb = true
  · rw [if_pos hfull]
  · rw [if_neg hfull, hI.dyn, hc]
    simp -zeta only [show ¬ (compressLen data.length = 0 ∨ compressLen data.length > ringbufLenMaxSize)
      by omega, if_false, if_pos hroom]

theorem min_splitLen (x h N n : Nat) :
    min (if x ≥ h ∧ N - x < n ∧ 0 < N - x then N - x else 0) n =
      if x ≥ h ∧ N - x < n ∧ 0 < N - x then N - x else 0 := by
  split <;> omega

/-- A dynamic push reads only the first `len` bytes it is given: the payload is
copied as a part before `end` and the rest, both within the first `len`. -/
theorem ringbufPush_dyn_take {rb : KRingbuf} (hdyn : rb.type = .dyn) (data : List UInt8) (len : Nat) :
    ringbufPush rb (data.take len) len = ringbufPush rb data len := by
  unfold ringbufPush
  rw [hdyn]
  split
  · rfl
  obtain ⟨lenBytes, cLen⟩ := ringbufHeadlenCompress len [0, 0, 0]
  simp -zeta only
  split_ifs
  · rfl
  · rfl
  all_goals simp only [List.take_take, List.drop_take, min_self, min_splitLen]

/-- A length past three header bytes is refused, and nothing changes. -/
theorem ringbufPush_dyn_long {rb : KRingbuf} (hdyn : rb.type = .dyn) (data : List UInt8) {len : Nat}
    (hlong : ringbufLen3bytesMaxvalue < len) :
    ringbufPush rb data len = (rb, .ringbufFull) ∨ ringbufPush rb data len = (rb, .invParam) := by
  have hc : compressLen len = Kstat.invParam.toNat := by
    unfold ringbufLen3bytesMaxvalue at hlong
    unfold compressLen
    rw [if_neg (show ¬len ≤ ringbufLen1byteMaxvalue by unfold ringbufLen1byteMaxvalue; omega),
      if_neg (show ¬len ≤ ringbufLen2bytesMaxvalue by unfold ringbufLen2bytesMaxvalue; omega),
      if_neg (show ¬len ≤ ringbufLen3bytesMaxvalue by unfold ringbufLen3bytesMaxvalue; omega)]
  have hfst := ringbufHeadlenCompress_fst len [0, 0, 0]
  unfold ringbufPush
  split
  · exact .inl rfl
  rw [hdyn]
  rcases hp : ringbufHeadlenCompress len [0, 0, 0] with ⟨lenBytes, cLen⟩
  rw [hp, hc] at hfst
  dsimp only at hfst ⊢
  rw [if_pos (Or.inr (by rw [hfst]; decide))]
  exact .inr rfl

/-- Every push of a message with at least `len` bytes either stores its first
`len` bytes or is refused and changes nothing. -/
theorem ringbufPush_dyn_cases {rb : KRingbuf} {q : List (List UInt8)} (hI : RingbufDynInv rb q)
    {data : List UInt8} {len : Nat} (hpos : 0 < len) (hlen : len ≤ data.length) :
    (∃ rb', ringbufPush rb data len = (rb', .success) ∧ rb'.bufEnd = rb.bufEnd ∧
      RingbufDynInv rb' (q ++ [data.take len])) ∨
    ∃ err, err ≠ .success ∧ ringbufPush rb data len = (rb, err) := by
  by_cases hmax : len ≤ ringbufLen3bytesMaxvalue
  · have hml : (data.take len).length = len := List.length_take_of_le hlen
    have hm : RingbufMsgOk (data.take len) := by
      unfold RingbufMsgOk
      omega
    rw [← ringbufPush_dyn_take hI.dyn]
    by_cases hroom : ringbufMsgSize (data.take len) ≤ rb.freesize
    · have hok := ringbufPush_dyn_ok hI hm hroom
      rw [hml] at hok
      exact .inl hok
    · have hfull := ringbufPush_dyn_full hI hm (by omega)
      rw [hml] at hfull
      exact .inr ⟨.ringbufFull, by decide, hfull⟩
  · have hlong : ringbufLen3bytesMaxvalue < len := by omega
    rcases ringbufPush_dyn_long hI.dyn data hlong with h | h
    · exact .inr ⟨.ringbufFull, by decide, h⟩
    · exact .inr ⟨.invParam, by decide, h⟩

/-- Pop on an empty buffer reports it and changes nothing. -/
theorem ringbufPop_dyn_empty {rb : KRingbuf} (hI : RingbufDynInv rb []) :
    ringbufPop rb = (rb, .ringbufEmpty, [], none) := by
  unfold ringbufPop
  rw [if_pos ((ringbufIsEmpty_iff hI).2 rfl)]

end Rhino
