import AliosThings.Lib.RingMemory
import AliosThings.Rhino.Err

/-!
# The kernel ring buffer (`k_ringbuf.c`, `k_ringbuf.h`)

The four pointers of `k_ringbuf_t` all point into one array: `buf` is its start,
so each is kept as its offset from `buf`, and `bufEnd` is `end - buf`. The array
is `mem`, byte `i` of it being `buf[i]`. `head` and `tail` are normalised lazily:
either may equal `bufEnd`, and is reset to `0` only before the next copy.

A fixed buffer stores blocks of `blk_size` bytes. A dynamic buffer stores each
message behind a big-endian length header of one, two or three bytes whose top
bits say its size (`0`, `10`, `11`). `memcpy` into and out of the array is
`writeAt` and `readAt`; the data a caller passes in is the list of bytes at its
pointer and the data a pop writes to `pdata` is returned. The `NULL` checks of
the `krhino_ringbuf_*` wrappers are left out: a pointer is here always a value.
-/

namespace Rhino

open RingMemory

/-- `RINGBUF_TYPE_FIX` and `RINGBUF_TYPE_DYN`. -/
inductive RingbufType where
  | fix
  | dyn
  deriving DecidableEq, Repr

def ringbufLenMaxSize : Nat := 3
def ringbufLenMaskOnebit : UInt8 := 0x80
def ringbufLenMaskTwobit : UInt8 := 0xC0
def ringbufLenMaskCleanTwobit : UInt8 := 0x3f
def ringbufLenVle2bytes : UInt8 := 0x80
def ringbufLenVle3bytes : UInt8 := 0xC0
def ringbufLen1byteMaxvalue : Nat := 0x7f
def ringbufLen2bytesMaxvalue : Nat := 0x3fff
def ringbufLen3bytesMaxvalue : Nat := 0x3fffff

/-- `COMPRESS_LEN`: the size of the length header; past three bytes it is the
number of `RHINO_INV_PARAM`. -/
def compressLen (x : Nat) : Nat :=
  if x ≤ ringbufLen1byteMaxvalue then 1
  else if x ≤ ringbufLen2bytesMaxvalue then 2
  else if x ≤ ringbufLen3bytesMaxvalue then 3
  else Kstat.invParam.toNat

/-- `k_ringbuf_t`, with its pointers as offsets from `buf`. -/
structure KRingbuf where
  mem : Nat → UInt8
  bufEnd : Nat
  head : Nat
  tail : Nat
  freesize : Nat
  type : RingbufType
  blkSize : Nat

/-- `ringbuf_reset`. -/
def ringbufReset (rb : KRingbuf) : KRingbuf :=
  { rb with head := 0, tail := 0, freesize := rb.bufEnd }

/-- `ringbuf_init` on the array `mem` of `len` bytes. -/
def ringbufInit (mem : Nat → UInt8) (len : Nat) (type : RingbufType) (blockSize : Nat) :
    KRingbuf :=
  ringbufReset
    { mem := mem, bufEnd := len, head := 0, tail := 0, freesize := 0, type := type,
      blkSize := blockSize }

/-- `ringbuf_is_full`. -/
def ringbufIsFull (rb : KRingbuf) : Bool :=
  (rb.type = .dyn ∧ rb.freesize < 2) || (rb.type = .fix ∧ rb.freesize < rb.blkSize)

/-- `ringbuf_is_empty`. -/
def ringbufIsEmpty (rb : KRingbuf) : Bool :=
  rb.freesize = rb.bufEnd

/-- `ringbuf_headlen_compress`: writes the header of a message of `headLen` bytes
to `cmpBuf` from the bytes of `krhino_ntohl(headLen)`, and returns its size. -/
def ringbufHeadlenCompress (headLen : Nat) (cmpBuf : List UInt8) : Nat × List UInt8 :=
  let p1 : UInt8 := UInt8.ofNat (headLen >>> 16)
  let p2 : UInt8 := UInt8.ofNat (headLen >>> 8)
  let p3 : UInt8 := UInt8.ofNat headLen
  let lenBytes := compressLen headLen
  if lenBytes = 1 then
    (lenBytes, cmpBuf.set 0 (UInt8.ofNat ringbufLen1byteMaxvalue &&& p3))
  else if lenBytes = 2 then
    (lenBytes, (cmpBuf.set 0 (ringbufLenVle2bytes ||| p2)).set 1 p3)
  else if lenBytes = 3 then
    (lenBytes, ((cmpBuf.set 0 (ringbufLenVle3bytes ||| p1)).set 1 p2).set 2 p3)
  else (lenBytes, cmpBuf)

/-- `ringbuf_headlen_decompress`: the header bytes are copied to the low end of a
zeroed big-endian word, the size bits are cleared, and the word is read back. -/
def ringbufHeadlenDecompress (bufLen : Nat) (cmpBuf : List UInt8) : Nat :=
  let lenBuf : List UInt8 := List.replicate (4 - bufLen) 0 ++ cmpBuf.take bufLen
  let lenBuf := if 1 < bufLen then
      lenBuf.set (4 - bufLen) (lenBuf.getD (4 - bufLen) 0 &&& ringbufLenMaskCleanTwobit)
    else lenBuf
  lenBuf.foldl (fun acc b => acc * 256 + b.toNat) 0

/-- The header size the pop decoder reads off the first header byte. -/
def ringbufLenBytesOf (b : UInt8) : Option Nat :=
  if b &&& ringbufLenMaskOnebit = 0 then some 1
  else if b &&& ringbufLenMaskTwobit = ringbufLenVle2bytes then some 2
  else if b &&& ringbufLenMaskTwobit = ringbufLenVle3bytes then some 3
  else none

/-- `ringbuf_push` of the `len` bytes of `data`; a fixed buffer copies `blk_size` bytes. -/
def ringbufPush (rb : KRingbuf) (data : List UInt8) (len : Nat) : KRingbuf × Kstat :=
  if ringbufIsFull rb then (rb, .ringbufFull)
  else match rb.type with
  | .fix =>
    let tail := if rb.tail = rb.bufEnd then 0 else rb.tail
    ({ rb with
        mem := writeAt rb.mem tail (data.take rb.blkSize), tail := tail + rb.blkSize,
        freesize := rb.freesize - rb.blkSize }, .success)
  | .dyn =>
    let (lenBytes, cLen) := ringbufHeadlenCompress len [0, 0, 0]
    if lenBytes = 0 ∨ lenBytes > ringbufLenMaxSize then (rb, .invParam)
    else if rb.freesize < lenBytes + len then (rb, .ringbufFull)
    else
      let tail₀ := if rb.tail = rb.bufEnd then 0 else rb.tail
      -- the length header, split at `end` when it does not fit before it
      let hdrSplit := tail₀ ≥ rb.head ∧ rb.bufEnd - tail₀ < lenBytes ∧ 0 < rb.bufEnd - tail₀
      let splitLen := if hdrSplit then rb.bufEnd - tail₀ else 0
      let mem₁ := if hdrSplit then writeAt rb.mem tail₀ (cLen.take splitLen) else rb.mem
      let tail₁ := if hdrSplit then 0 else tail₀
      let free₁ := rb.freesize - splitLen
      let rest := lenBytes - splitLen
      let mem₂ := if 0 < rest then writeAt mem₁ tail₁ ((cLen.drop splitLen).take rest) else mem₁
      let tail₂ := if 0 < rest then tail₁ + rest else tail₁
      let free₂ := if 0 < rest then free₁ - rest else free₁
      -- the payload, split at `end` in the same way
      let tail₃ := if tail₂ = rb.bufEnd then 0 else tail₂
      let dataSplit := tail₃ ≥ rb.head ∧ rb.bufEnd - tail₃ < len ∧ 0 < rb.bufEnd - tail₃
      let splitLen' := if dataSplit then rb.bufEnd - tail₃ else 0
      let mem₃ := if dataSplit then writeAt mem₂ tail₃ (data.take splitLen') else mem₂
      let tail₄ := if dataSplit then 0 else tail₃
      let free₃ := free₂ - splitLen'
      let len' := len - splitLen'
      ({ rb with
          mem := writeAt mem₃ tail₄ ((data.drop splitLen').take len'),
          tail := tail₄ + len', freesize := free₃ - len' }, .success)

/-- `ringbuf_pop`: the new buffer, the status, the bytes written to `pdata`, and the
value written to `*plen`. -/
def ringbufPop (rb : KRingbuf) : KRingbuf × Kstat × List UInt8 × Option Nat :=
  if ringbufIsEmpty rb then (rb, .ringbufEmpty, [], none)
  else match rb.type with
  | .fix =>
    let head := if rb.head = rb.bufEnd then 0 else rb.head
    ({ rb with head := head + rb.blkSize, freesize := rb.freesize + rb.blkSize }, .success,
      readAt rb.mem head rb.blkSize, some rb.blkSize)
  | .dyn =>
    let head₀ := if rb.head = rb.bufEnd then 0 else rb.head
    match ringbufLenBytesOf (rb.mem head₀) with
    | none => ({ rb with head := head₀ }, .invParam, [], none)
    | some lenBytes =>
      -- the length header, read up to `end` first when it wraps
      let hdrSplit := rb.bufEnd - head₀ < lenBytes ∧ 0 < rb.bufEnd - head₀
      let splitLen := if hdrSplit then rb.bufEnd - head₀ else 0
      let c₁ := if hdrSplit then readAt rb.mem head₀ splitLen else []
      let head₁ := if hdrSplit then 0 else head₀
      let free₁ := rb.freesize + splitLen
      let rest := lenBytes - splitLen
      let c₂ := if 0 < rest then readAt rb.mem head₁ rest else []
      let head₂ := if 0 < rest then head₁ + rest else head₁
      let free₂ := if 0 < rest then free₁ + rest else free₁
      let len := ringbufHeadlenDecompress lenBytes (c₁ ++ c₂ ++ List.replicate (3 - lenBytes) 0)
      -- the payload, read up to `end` first when it wraps
      let head₃ := if head₂ = rb.bufEnd then 0 else head₂
      let dataSplit := head₃ > rb.tail ∧ rb.bufEnd - head₃ < len
      let splitLen' := if dataSplit then rb.bufEnd - head₃ else 0
      let d₁ := if dataSplit then readAt rb.mem head₃ splitLen' else []
      let head₄ := if dataSplit then 0 else head₃
      let free₃ := free₂ + splitLen'
      let len' := len - splitLen'
      ({ rb with head := head₄ + len', freesize := free₃ + len' }, .success,
        d₁ ++ readAt rb.mem head₄ len', some len)

/-- `krhino_ringbuf_init`. -/
def krhinoRingbufInit (mem : Nat → UInt8) (len : Nat) (type : RingbufType) (blockSize : Nat) :
    Option KRingbuf × Kstat :=
  if len = 0 then (none, .invParam)
  else if type = .fix ∧ (blockSize = 0 ∨ len % blockSize ≠ 0) then (none, .invParam)
  else (some (ringbufInit mem len type blockSize), .success)

/-- `krhino_ringbuf_push`. -/
def krhinoRingbufPush (rb : KRingbuf) (data : List UInt8) (len : Nat) : KRingbuf × Kstat :=
  if len = 0 ∨ len > ringbufLen3bytesMaxvalue ∨ (rb.type = .fix ∧ len ≠ rb.blkSize) then
    (rb, .invParam)
  else ringbufPush rb data len

end Rhino
