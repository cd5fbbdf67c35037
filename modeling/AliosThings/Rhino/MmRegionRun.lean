import AliosThings.Lib.Machine
import AliosThings.Rhino.MmRegionRealloc

/-!
# The heap over whole runs of calls

A run of `k_mm_alloc`, `k_mm_free` and `k_mm_realloc` calls keeps the invariant of the
region, and ends, when each buffer it gives back is `NULL`, a buffer of the pool's block
or the buffer of a used block of the heap when the call is made: `RegionInv.mmCall` for
one call, `RegionInv.mmRun` for a run, by the invariant rule of `Machine.runPartial`.

The blocks of a region are fixed by its headers, so "a used block of the heap" needs no
ghost list: `UsedBlock` names any list the invariant holds of, and `RegionInv.bs_eq`
says there is one.
-/

namespace Rhino

namespace MmHead

variable (h : MmHead)

/-- `b` is a used block of the heap's region from `r` to `e`, other than the pool's. -/
def UsedBlock (r e b : Nat) : Prop :=
  ∃ bs ls, h.RegionInv r e bs ls ∧ b ∈ bs ∧ ¬ h.IsFree b ∧ b ≠ h.fixedmblk

/-- A buffer the callers may give back: `NULL`, a buffer inside the pool's block, or the
buffer of a used block of the heap. -/
def BufferIn (r e ptr : Nat) : Prop :=
  ptr = 0 ∨ h.mmIsFixedblk ptr = true ∨ ∃ b, ptr = b + mmlistHeadSize ∧ h.UsedBlock r e b

/-- The calls the callers may make: any allocation, and a free or a realloc of a buffer
they may give back. -/
def CallOk (r e : Nat) : MmCall → Prop
  | .alloc _ => True
  | .free ptr => h.BufferIn r e ptr
  | .realloc ptr _ => h.BufferIn r e ptr

/-- Every call of the run is one the callers may make on the heap the calls before it
left. -/
def RunOk (r e : Nat) (h : MmHead) (cs : List MmCall) : Prop :=
  Machine.AllowedFrom (fun h c => (h.mmCall c).map Prod.fst) (fun h c => h.CallOk r e c) h cs

/-- `mmRun` is the run of `mmCall`, its heap kept. -/
theorem mmRun_eq_runPartial (cs : List MmCall) :
    h.mmRun cs = Machine.runPartial (fun h c => (h.mmCall c).map Prod.fst) h cs := by
  induction cs generalizing h with
  | nil => rfl
  | cons c cs ih =>
    rw [mmRun, Machine.runPartial]
    cases h.mmCall c with
    | none => rfl
    | some res => exact ih res.1

namespace RegionInv

variable {h} {r e : Nat} {bs : List Nat} {ls : Nat → List Nat}

/-- A region has one list of blocks: the tiling from `r` to `e` along the headers. -/
theorem bs_eq (hi : h.RegionInv r e bs ls) {bs' : List Nat} {ls' : Nat → List Nat}
    (hi' : h.RegionInv r e bs' ls') : bs = bs' :=
  List.cons_injective (hi.tiles.unique (next_gt h) hi'.tiles)

theorem bufferOk (hi : h.RegionInv r e bs ls) {ptr : Nat} (hp : h.BufferIn r e ptr) : BufferOk h bs ptr := by
  rcases hp with h0 | hfix | ⟨b, rfl, bs₀, ls₀, hi₀, hb, hused, hbfix⟩
  · exact .inl h0
  · exact .inr (.inl hfix)
  · exact .inr (.inr ⟨b, (hi₀.bs_eq hi) ▸ hb, rfl, hused, hbfix⟩)

/-- One call the callers may make, on a heap with the invariant, ends and keeps it. -/
theorem mmCall (hi : h.RegionInv r e bs ls) {c : MmCall} (hc : h.CallOk r e c) :
    ∃ res, h.mmCall c = some res ∧ ∃ bs' ls', res.1.RegionInv r e bs' ls' := by
  cases c with
  | alloc size =>
    obtain ⟨res, hres, bs', ls', hinv, -⟩ := hi.kMmAlloc size
    exact ⟨res, hres, bs', ls', hinv⟩
  | free ptr =>
    obtain ⟨bs', ls', hinv⟩ := hi.kMmFree (hi.bufferOk hc)
    exact ⟨_, rfl, bs', ls', hinv⟩
  | realloc ptr size => exact hi.kMmRealloc size (hi.bufferOk hc)

/-- A run of calls the callers may make, from a heap with the invariant, ends and keeps
it. -/
theorem mmRun (hi : h.RegionInv r e bs ls) {cs : List MmCall} (hok : RunOk r e h cs) :
    ∃ h', h.mmRun cs = some h' ∧ ∃ bs' ls', h'.RegionInv r e bs' ls' := by
  rw [mmRun_eq_runPartial]
  refine Machine.runPartial_invariant (fun (h : MmHead) => ∃ bs ls, h.RegionInv r e bs ls)
    (fun (h : MmHead) c hh hc => ?_) ⟨bs, ls, hi⟩ hok
  obtain ⟨bs, ls, hi⟩ := hh
  obtain ⟨res, hres, hinv⟩ := hi.mmCall hc
  exact ⟨res.1, by rw [hres]; rfl, hinv⟩

end RegionInv

end MmHead

end Rhino
