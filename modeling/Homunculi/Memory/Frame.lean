import Homunculi.Paging.Page

/-!
# Memory — frames and their reference counts

`crate::memory` is not part of the source: `check_consistency` only uses its `Frame`,
`Frame::containing_address`, `get_page_info` and `RefCount`. They are modelled here from the
spec's Frame Ownership Table (§3, §4.2): a frame number at page granularity, and a per-frame
record whose `RefCount` is `Zero`, `One`, `Cow(n)` or `Shared(n)` with `n` a `NonZeroUsize`.
`get_page_info` itself is the global table, which every statement over it takes as an argument
(`PageInfoTable`).
-/

namespace Homunculi.Memory

open Homunculi.Paging

/-- Modelled from the spec: `Frame { number }`, a physical frame number, ordered like `Page`. -/
structure Frame where
  number : Usize
deriving DecidableEq, Repr

instance : LT Frame := ⟨fun a b => a.number < b.number⟩
instance (a b : Frame) : Decidable (a < b) := inferInstanceAs (Decidable (a.number < b.number))

theorem Frame.lt_def {a b : Frame} : a < b ↔ a.number.toNat < b.number.toNat := Iff.rfl

theorem Frame.ext_toNat {a b : Frame} (h : a.number.toNat = b.number.toNat) : a = b := by
  cases a; cases b; simpa using BitVec.eq_of_toNat_eq h

/-- Modelled from the spec: `Frame::containing_address`, the address divided by `PAGE_SIZE`
("same page-size granularity as Page, same ordering and arithmetic contract"). -/
def Frame.containingAddress (address : PhysicalAddress) : Frame := ⟨address.data / pageSize⟩

/-- `NonZeroUsize`, the payload of `Cow` and `Shared`: positive by construction. -/
structure NonZeroUsize where
  get : Usize
  ne_zero : get ≠ 0
deriving DecidableEq, Repr

/-- Modelled from the spec: `RefCount`. -/
inductive RefCount
  | zero
  | one
  | cow (c : NonZeroUsize)
  | shared (s : NonZeroUsize)
deriving DecidableEq, Repr

/-- The count a `RefCount` records, as the final loop of `check_consistency` reads it:
`Zero => 0, One => 1, Cow(c) => c.get(), Shared(s) => s.get()`. -/
def RefCount.count : RefCount → Nat
  | .zero => 0
  | .one => 1
  | .cow c => c.get.toNat
  | .shared s => s.get.toNat

/-- Modelled from the spec: the per-frame record `get_page_info` returns; `check_consistency`
reads only its `refcount()`. -/
structure PageInfo where
  refcount : RefCount
deriving DecidableEq, Repr

/-- `get_page_info`: the global Frame Ownership Table, `None` for a frame it does not track. -/
abbrev PageInfoTable := Frame → Option PageInfo

/-- `F`'s page info records exactly `n` mappings. -/
def Recorded (info : PageInfoTable) (frame : Frame) (n : Nat) : Prop :=
  ∃ page, info frame = some page ∧ page.refcount.count = n

instance (info : PageInfoTable) (frame : Frame) (n : Nat) : Decidable (Recorded info frame n) :=
  match h : info frame with
  | some page =>
    if hc : page.refcount.count = n then isTrue ⟨page, h, hc⟩
    else isFalse fun ⟨p, hp, hpc⟩ => hc (by rw [h] at hp; cases hp; exact hpc)
  | none => isFalse fun ⟨_, hp, _⟩ => by rw [h] at hp; cases hp

theorem Recorded.unique {info : PageInfoTable} {frame : Frame} {a b : Nat}
    (ha : Recorded info frame a) (hb : Recorded info frame b) : a = b := by
  obtain ⟨p, hp, rfl⟩ := ha
  obtain ⟨q, hq, rfl⟩ := hb
  rw [hp] at hq
  cases hq
  rfl

end Homunculi.Memory
