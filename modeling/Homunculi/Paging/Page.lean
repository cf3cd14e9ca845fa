import Mathlib.Data.Nat.Bitwise

/-!
# Paging — pages and the addressing arithmetic

The addressing half of `arch/aarch64/paging/mod.rs`: the `Page` number, its start address and
four table indices, `containing_address`, forward stepping, and the two rounding helpers
`round_down_pages` / `round_up_pages`.

`usize` is `BitVec 64`: every `+`, `*` and `-` below wraps exactly as the release build computes
it. The debug build panics instead where the mathematical value leaves `usize`; `addOverflows`
and `mulOverflows` name that condition, so a statement "computed without overflow" is a
statement about them and the wrapped value together.
-/

namespace Homunculi.Paging

/-- `usize` on the 64-bit targets (aarch64, x86_64). -/
abbrev Usize := BitVec 64

/-- `usize::MAX`. -/
def usizeMax : Nat := 2 ^ 64 - 1

/-- `a + b` leaves `usize`: the debug build panics, the release build wraps. -/
def addOverflows (a b : Usize) : Prop := usizeMax < a.toNat + b.toNat

/-- `a * b` leaves `usize`. -/
def mulOverflows (a b : Usize) : Prop := usizeMax < a.toNat * b.toNat

instance (a b : Usize) : Decidable (addOverflows a b) :=
  inferInstanceAs (Decidable (usizeMax < _))

instance (a b : Usize) : Decidable (mulOverflows a b) :=
  inferInstanceAs (Decidable (usizeMax < _))

/-- `PAGE_SIZE = RmmA::PAGE_SIZE`: 4 KiB on both targets. -/
def pageSize : Usize := 4096

@[simp] theorem pageSize_toNat : pageSize.toNat = 4096 := rfl

@[simp] theorem one_toNat : (1 : Usize).toNat = 1 := rfl

/-- rmm's `VirtualAddress`: `VirtualAddress::new(usize)`, read back with `data()`. -/
structure VirtualAddress where
  data : Usize
deriving DecidableEq, Repr

/-- rmm's `PhysicalAddress`, never interchangeable with a `VirtualAddress`. -/
structure PhysicalAddress where
  data : Usize
deriving DecidableEq, Repr

/-- `Page { number: usize }`, ordered by its number (`#[derive(PartialOrd, Ord)]`). -/
structure Page where
  number : Usize
deriving DecidableEq, Repr

instance : LT Page := ⟨fun a b => a.number < b.number⟩
instance : LE Page := ⟨fun a b => a.number ≤ b.number⟩
instance (a b : Page) : Decidable (a < b) := inferInstanceAs (Decidable (a.number < b.number))
instance (a b : Page) : Decidable (a ≤ b) := inferInstanceAs (Decidable (a.number ≤ b.number))

namespace Page

theorem lt_def {a b : Page} : a < b ↔ a.number.toNat < b.number.toNat := Iff.rfl

theorem le_def {a b : Page} : a ≤ b ↔ a.number.toNat ≤ b.number.toNat := Iff.rfl

theorem ext_toNat {a b : Page} (h : a.number.toNat = b.number.toNat) : a = b := by
  cases a; cases b; simpa using BitVec.eq_of_toNat_eq h

/-- `Page::start_address`: `number * PAGE_SIZE`. -/
def startAddress (self : Page) : VirtualAddress := ⟨self.number * pageSize⟩

/-- `Page::p4_index`: bits 27..35 of the page number. -/
def p4Index (self : Page) : Usize := (self.number >>> 27) &&& 0o777

/-- `Page::p3_index`: bits 18..26 of the page number. -/
def p3Index (self : Page) : Usize := (self.number >>> 18) &&& 0o777

/-- `Page::p2_index`: bits 9..17 of the page number. -/
def p2Index (self : Page) : Usize := (self.number >>> 9) &&& 0o777

/-- `Page::p1_index`: bits 0..8 of the page number. -/
def p1Index (self : Page) : Usize := self.number &&& 0o777

/-- `Page::containing_address`: the address divided by `PAGE_SIZE`, always rounding down. -/
def containingAddress (address : VirtualAddress) : Page := ⟨address.data / pageSize⟩

/-- `Page::next_by`: `number + n`. -/
def nextBy (self : Page) (n : Usize) : Page := ⟨self.number + n⟩

/-- `Page::next`: `next_by(1)`. -/
def next (self : Page) : Page := self.nextBy 1

/-- `Page::offset_from`: `self.number - other.number`. -/
def offsetFrom (self other : Page) : Usize := self.number - other.number

@[simp] theorem startAddress_toNat (p : Page) :
    p.startAddress.data.toNat = p.number.toNat * 4096 % 2 ^ 64 := by
  simp [startAddress, BitVec.toNat_mul]

@[simp] theorem containingAddress_toNat (a : VirtualAddress) :
    (containingAddress a).number.toNat = a.data.toNat / 4096 := by
  simp [containingAddress, BitVec.toNat_udiv]

@[simp] theorem nextBy_toNat (p : Page) (n : Usize) :
    (p.nextBy n).number.toNat = (p.number.toNat + n.toNat) % 2 ^ 64 := by
  simp [nextBy, BitVec.toNat_add]

/-- A table index is a 9-bit field of the page number. -/
theorem index_toNat (p : Page) (s : Nat) :
    ((p.number >>> s) &&& 0o777).toNat = p.number.toNat / 2 ^ s % 512 := by
  rw [BitVec.toNat_and, BitVec.toNat_ushiftRight, Nat.shiftRight_eq_div_pow,
    show (0o777 : Usize).toNat = 2 ^ 9 - 1 from rfl, Nat.and_pow_two_sub_one_eq_mod]

@[simp] theorem p4Index_toNat (p : Page) : p.p4Index.toNat = p.number.toNat / 2 ^ 27 % 512 :=
  p.index_toNat 27

@[simp] theorem p3Index_toNat (p : Page) : p.p3Index.toNat = p.number.toNat / 2 ^ 18 % 512 :=
  p.index_toNat 18

@[simp] theorem p2Index_toNat (p : Page) : p.p2Index.toNat = p.number.toNat / 2 ^ 9 % 512 :=
  p.index_toNat 9

@[simp] theorem p1Index_toNat (p : Page) : p.p1Index.toNat = p.number.toNat % 512 := by
  simpa using p.index_toNat 0

end Page

/-- `round_down_pages`: `number - number % PAGE_SIZE`. -/
def roundDownPages (number : Usize) : Usize := number - number % pageSize

/-- `round_up_pages`: `round_down_pages(number + PAGE_SIZE - 1)`. -/
def roundUpPages (number : Usize) : Usize := roundDownPages (number + pageSize - 1)

@[simp] theorem roundDownPages_toNat (n : Usize) :
    (roundDownPages n).toNat = n.toNat - n.toNat % 4096 := by
  simp only [roundDownPages, BitVec.toNat_sub, BitVec.toNat_umod, pageSize_toNat]
  omega

@[simp] theorem roundUpPages_toNat (n : Usize) :
    (roundUpPages n).toNat =
      (n.toNat + 4095) % 2 ^ 64 - (n.toNat + 4095) % 2 ^ 64 % 4096 := by
  simp only [roundUpPages, roundDownPages_toNat, BitVec.toNat_sub, BitVec.toNat_add,
    pageSize_toNat, one_toNat]
  omega

/-! ## Rounding -/

/-- **Rounding**: both helpers land on a page boundary and are idempotent, `round_down_pages`
never exceeds its argument, and `round_up_pages` is exact and within one page above its
argument except for the top `PAGE_SIZE` values of `usize`, where `number + PAGE_SIZE`
overflows. The idempotence is of the values a release build computes, with `+` wrapping: in a
debug build the second `round_up_pages` overflows for `n` from `0xFFFF_FFFF_FFFF_E001` to
`0xFFFF_FFFF_FFFF_EFFF`, whose first rounding `0xFFFF_FFFF_FFFF_F000` is one of those top
values. -/
theorem roundPages_bounds (n : Usize) :
    roundDownPages n ≤ n ∧ pageSize.toNat ∣ (roundDownPages n).toNat ∧
    pageSize.toNat ∣ (roundUpPages n).toNat ∧
    roundDownPages (roundDownPages n) = roundDownPages n ∧
    roundUpPages (roundUpPages n) = roundUpPages n ∧
    (addOverflows n pageSize ↔ usizeMax - pageSize.toNat < n.toNat) ∧
    (¬ addOverflows n pageSize →
      n ≤ roundUpPages n ∧ (roundUpPages n).toNat - n.toNat < pageSize.toNat) := by
  have hn := n.isLt
  simp only [BitVec.le_def, addOverflows, usizeMax, pageSize_toNat, roundDownPages_toNat,
    roundUpPages_toNat, BitVec.toNat_eq, Nat.dvd_iff_mod_eq_zero]
  omega

/-- At `usize::MAX` the release build wraps `round_up_pages` to `0`, below its argument. -/
theorem roundUpPages_usizeMax :
    addOverflows (BitVec.ofNat 64 usizeMax) pageSize ∧
    roundUpPages (BitVec.ofNat 64 usizeMax) = 0 ∧
    ¬ BitVec.ofNat 64 usizeMax ≤ roundUpPages (BitVec.ofNat 64 usizeMax) := by
  decide

/-! ## Pages and addresses -/

/-- **`containing_address` against the rounding path**: the start address of the page holding
`a` is `round_down_pages(a)`, computed without overflow and within one page below `a`; and
stepping a page forward by `k` moves its start address by `k` pages and is undone by
`containing_address`, whenever the new start address fits in `usize`. -/
theorem containingAddress_startAddress (a : Usize) (p : Page) (k : Usize) :
    (¬ mulOverflows (Page.containingAddress ⟨a⟩).number pageSize ∧
      (Page.containingAddress ⟨a⟩).startAddress.data = roundDownPages a ∧
      (Page.containingAddress ⟨a⟩).startAddress.data ≤ a ∧
      a.toNat < (Page.containingAddress ⟨a⟩).startAddress.data.toNat + pageSize.toNat) ∧
    ((p.number.toNat + k.toNat) * pageSize.toNat ≤ usizeMax →
      (p.nextBy k).startAddress.data.toNat =
        p.startAddress.data.toNat + k.toNat * pageSize.toNat ∧
      Page.containingAddress (p.nextBy k).startAddress = p.nextBy k) := by
  have ha := a.isLt
  refine ⟨⟨?_, ?_, ?_, ?_⟩, fun hk => ⟨?_, Page.ext_toNat ?_⟩⟩ <;>
    simp only [mulOverflows, usizeMax, BitVec.le_def, BitVec.toNat_eq, pageSize_toNat,
      Page.containingAddress_toNat, Page.startAddress_toNat, Page.nextBy_toNat,
      roundDownPages_toNat] at * <;>
    omega

end Homunculi.Paging
