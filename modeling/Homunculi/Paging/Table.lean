import Homunculi.Memory.Frame

/-!
# Paging — the hierarchical page table

The 4-level table that `check_consistency` walks: rmm's `PageTable` seen through the two calls
the walk makes, `next(i)` on levels 4 to 2 and `entry(i)` on level 1, and rmm's `PageEntry` seen
through `address()` and `flags()`. rmm is not part of the source; the tables are modelled from
the spec (§4.3): each slot empty, a pointer to the next level, or at level 1 an entry whose
`address()` is `Ok` when present.

`walkAddress` is the address the walk rebuilds from a slot's four indices, and
`walkAddress_roundTrip` ties it to `Page`'s index decomposition. `PageTable4.mappings` lists the
present leaves in walk order; `mem_mappings` says which they are.
-/

namespace Homunculi.Paging

open Homunculi.Memory

/-- rmm's `PageFlags`: the flag bits of an entry or a grant, read with `data()`. -/
structure PageFlags where
  data : Usize
deriving DecidableEq, Repr

/-- Modelled from the spec: `PageFlags::has_write` reads the hardware-writable bit, bit 1, the
"writable" of `check_consistency`'s `EXCLUDE` comment. -/
def PageFlags.hasWrite (flags : PageFlags) : Bool := flags.data &&& 0b10 != 0

/-- Modelled from the spec: rmm's `PageEntry` as the walk reads it, `address()` (`Ok` for a
present entry, `Err` otherwise) and `flags()`. -/
structure PageEntry where
  address : Except PhysicalAddress PhysicalAddress
  flags : PageFlags

/-- A level-1 table: `entry(i)`. -/
structure PageTable1 where
  entry : Nat → Option PageEntry

/-- A level-2 table: `next(i)`, the level-1 table behind a present slot. -/
structure PageTable2 where
  next : Nat → Option PageTable1

/-- A level-3 table: `next(i)`. -/
structure PageTable3 where
  next : Nat → Option PageTable2

/-- The level-4 root of an address space's user table, `utable.table()`: `next(i)`. -/
structure PageTable4 where
  next : Nat → Option PageTable3

/-- The address `check_consistency` rebuilds for slot `(p4i, p3i, p2i, p1i)`:
`(p1i << 12) | (p2i << 21) | (p3i << 30) | (p4i << 39)`. -/
def walkAddress (p4i p3i p2i p1i : Nat) : VirtualAddress :=
  ⟨(BitVec.ofNat 64 p1i <<< 12) ||| (BitVec.ofNat 64 p2i <<< 21) |||
    (BitVec.ofNat 64 p3i <<< 30) ||| (BitVec.ofNat 64 p4i <<< 39)⟩

theorem VirtualAddress.ext_toNat {a b : VirtualAddress} (h : a.data.toNat = b.data.toNat) :
    a = b := by
  cases a; cases b; simpa using BitVec.eq_of_toNat_eq h

/-- Disjoint bit fields: `|` of a low field and a shifted high field is their sum. -/
theorem lor_mul_two_pow {a k : Nat} (ha : a < 2 ^ k) (b : Nat) :
    a ||| b * 2 ^ k = a + b * 2 ^ k := by
  rw [Nat.lor_comm, Nat.mul_comm, ← Nat.mul_add_lt_is_or ha, Nat.add_comm]

/-- The rebuilt address is the slot's page number, in base 512, times `PAGE_SIZE`. -/
theorem walkAddress_toNat {p4i p3i p2i p1i : Nat} (h4 : p4i < 512) (h3 : p3i < 512)
    (h2 : p2i < 512) (h1 : p1i < 512) :
    (walkAddress p4i p3i p2i p1i).data.toNat =
      (((p4i * 512 + p3i) * 512 + p2i) * 512 + p1i) * 4096 := by
  simp only [walkAddress, BitVec.toNat_or, BitVec.toNat_shiftLeft, BitVec.toNat_ofNat,
    Nat.shiftLeft_eq]
  rw [Nat.mod_eq_of_lt (by omega : p1i < 2 ^ 64), Nat.mod_eq_of_lt (by omega : p2i < 2 ^ 64),
    Nat.mod_eq_of_lt (by omega : p3i < 2 ^ 64), Nat.mod_eq_of_lt (by omega : p4i < 2 ^ 64),
    Nat.mod_eq_of_lt (by omega : p1i * 2 ^ 12 < 2 ^ 64),
    Nat.mod_eq_of_lt (by omega : p2i * 2 ^ 21 < 2 ^ 64),
    Nat.mod_eq_of_lt (by omega : p3i * 2 ^ 30 < 2 ^ 64),
    Nat.mod_eq_of_lt (by omega : p4i * 2 ^ 39 < 2 ^ 64),
    lor_mul_two_pow (show p1i * 2 ^ 12 < 2 ^ 21 by omega),
    lor_mul_two_pow (show p1i * 2 ^ 12 + p2i * 2 ^ 21 < 2 ^ 30 by omega),
    lor_mul_two_pow (show p1i * 2 ^ 12 + p2i * 2 ^ 21 + p3i * 2 ^ 30 < 2 ^ 39 by omega)]
  omega

/-- The page of the rebuilt address is the slot's page number. -/
theorem containingAddress_walkAddress_toNat {p4i p3i p2i p1i : Nat} (h4 : p4i < 512)
    (h3 : p3i < 512) (h2 : p2i < 512) (h1 : p1i < 512) :
    (Page.containingAddress (walkAddress p4i p3i p2i p1i)).number.toNat =
      ((p4i * 512 + p3i) * 512 + p2i) * 512 + p1i := by
  rw [Page.containingAddress_toNat, walkAddress_toNat h4 h3 h2 h1, Nat.mul_div_cancel _ (by decide)]

/-- **Index round trip**: the walk's address for a user slot (`p4i < 256`) is a page start whose
four indices are the slot's; every user page (number below `2^35`) is the page of the slot its
indices name; so no two user slots share a page and the walk meets every user page once. -/
theorem walkAddress_roundTrip :
    (∀ p4i p3i p2i p1i : Nat, p4i < 256 → p3i < 512 → p2i < 512 → p1i < 512 →
      (Page.containingAddress (walkAddress p4i p3i p2i p1i)).startAddress =
          walkAddress p4i p3i p2i p1i ∧
        (Page.containingAddress (walkAddress p4i p3i p2i p1i)).p4Index.toNat = p4i ∧
        (Page.containingAddress (walkAddress p4i p3i p2i p1i)).p3Index.toNat = p3i ∧
        (Page.containingAddress (walkAddress p4i p3i p2i p1i)).p2Index.toNat = p2i ∧
        (Page.containingAddress (walkAddress p4i p3i p2i p1i)).p1Index.toNat = p1i) ∧
    (∀ page : Page, page.number.toNat < 2 ^ 35 →
      page.p4Index.toNat < 256 ∧ page.p3Index.toNat < 512 ∧ page.p2Index.toNat < 512 ∧
        page.p1Index.toNat < 512 ∧
        walkAddress page.p4Index.toNat page.p3Index.toNat page.p2Index.toNat
          page.p1Index.toNat = page.startAddress) ∧
    (∀ p4i p3i p2i p1i q4i q3i q2i q1i : Nat,
      p4i < 256 → p3i < 512 → p2i < 512 → p1i < 512 →
      q4i < 256 → q3i < 512 → q2i < 512 → q1i < 512 →
      Page.containingAddress (walkAddress p4i p3i p2i p1i) =
        Page.containingAddress (walkAddress q4i q3i q2i q1i) →
      p4i = q4i ∧ p3i = q3i ∧ p2i = q2i ∧ p1i = q1i) := by
  refine ⟨fun p4i p3i p2i p1i h4 h3 h2 h1 => ?_, fun page hp => ?_,
    fun p4i p3i p2i p1i q4i q3i q2i q1i h4 h3 h2 h1 g4 g3 g2 g1 heq => ?_⟩
  · have hn := containingAddress_walkAddress_toNat (by omega : p4i < 512) h3 h2 h1
    have hw := walkAddress_toNat (by omega : p4i < 512) h3 h2 h1
    refine ⟨VirtualAddress.ext_toNat ?_, ?_, ?_, ?_, ?_⟩ <;>
      simp only [Page.startAddress_toNat, Page.p4Index_toNat, Page.p3Index_toNat,
        Page.p2Index_toNat, Page.p1Index_toNat, hn, hw] <;>
      omega
  · simp only [Page.p4Index_toNat, Page.p3Index_toNat, Page.p2Index_toNat, Page.p1Index_toNat]
    refine ⟨by omega, by omega, by omega, by omega, VirtualAddress.ext_toNat ?_⟩
    rw [walkAddress_toNat (by omega) (by omega) (by omega) (by omega), Page.startAddress_toNat]
    omega
  · have hn := congrArg (fun p : Page => p.number.toNat) heq
    simp only [containingAddress_walkAddress_toNat (by omega : p4i < 512) h3 h2 h1,
      containingAddress_walkAddress_toNat (by omega : q4i < 512) g3 g2 g1] at hn
    omega

/-- A present leaf the walk reaches: its slot indices, and the entry's `address()` and
`flags()`. -/
structure Mapping where
  p4i : Nat
  p3i : Nat
  p2i : Nat
  p1i : Nat
  physaddr : PhysicalAddress
  flags : PageFlags
deriving DecidableEq, Repr

namespace Mapping

/-- The walk's `address` for the leaf. -/
def address (m : Mapping) : VirtualAddress := walkAddress m.p4i m.p3i m.p2i m.p1i

/-- `Page::containing_address(address)`, the page the walk looks up in the grants. -/
def page (m : Mapping) : Page := Page.containingAddress m.address

/-- `Frame::containing_address(physaddr)`, the frame the walk tallies. -/
def frame (m : Mapping) : Frame := Frame.containingAddress m.physaddr

end Mapping

/-- The present leaves of a level-1 table, in `p1i` order. -/
def PageTable1.mappings (p1 : PageTable1) (p4i p3i p2i : Nat) : List Mapping :=
  (List.range 512).filterMap fun p1i =>
    match p1.entry p1i with
    | some e =>
      match e.address with
      | .ok physaddr => some ⟨p4i, p3i, p2i, p1i, physaddr, e.flags⟩
      | .error _ => none
    | none => none

/-- The present leaves under a level-2 table, in walk order. -/
def PageTable2.mappings (p2 : PageTable2) (p4i p3i : Nat) : List Mapping :=
  (List.range 512).flatMap fun p2i =>
    match p2.next p2i with
    | some p1 => p1.mappings p4i p3i p2i
    | none => []

/-- The present leaves under a level-3 table, in walk order. -/
def PageTable3.mappings (p3 : PageTable3) (p4i : Nat) : List Mapping :=
  (List.range 512).flatMap fun p3i =>
    match p3.next p3i with
    | some p2 => p2.mappings p4i p3i
    | none => []

/-- The present leaves of the user half (`p4i < 256`), in the order `check_consistency` visits
them: the set the verifier audits. -/
def PageTable4.mappings (p4 : PageTable4) : List Mapping :=
  (List.range 256).flatMap fun p4i =>
    match p4.next p4i with
    | some p3 => p3.mappings p4i
    | none => []

theorem PageTable1.mem_mappings {p1 : PageTable1} {p4i p3i p2i : Nat} {m : Mapping} :
    m ∈ p1.mappings p4i p3i p2i ↔ m.p4i = p4i ∧ m.p3i = p3i ∧ m.p2i = p2i ∧ m.p1i < 512 ∧
      ∃ e, p1.entry m.p1i = some e ∧ e.address = .ok m.physaddr ∧ e.flags = m.flags := by
  simp only [mappings, List.mem_filterMap, List.mem_range]
  constructor
  · rintro ⟨p1i, hi, hm⟩
    split at hm
    · rename_i e he
      split at hm
      · rename_i a ha
        cases hm
        exact ⟨rfl, rfl, rfl, hi, e, he, ha, rfl⟩
      · cases hm
    · cases hm
  · obtain ⟨q4, q3, q2, q1, a, f⟩ := m
    rintro ⟨rfl, rfl, rfl, hi, e, he, ha, rfl⟩
    exact ⟨q1, hi, by simp only [he, ha]⟩

theorem PageTable2.mem_mappings {p2 : PageTable2} {p4i p3i : Nat} {m : Mapping} :
    m ∈ p2.mappings p4i p3i ↔ m.p2i < 512 ∧
      ∃ p1, p2.next m.p2i = some p1 ∧ m ∈ p1.mappings p4i p3i m.p2i := by
  simp only [mappings, List.mem_flatMap, List.mem_range]
  constructor
  · rintro ⟨p2i, hi, hm⟩
    split at hm
    · rename_i p1 hp1
      have hm' := hm
      rw [PageTable1.mem_mappings] at hm'
      exact ⟨hm'.2.2.1 ▸ hi, p1, hm'.2.2.1 ▸ hp1, hm'.2.2.1 ▸ hm⟩
    · cases hm
  · rintro ⟨hi, p1, hp1, hm⟩
    exact ⟨m.p2i, hi, by simpa only [hp1] using hm⟩

theorem PageTable3.mem_mappings {p3 : PageTable3} {p4i : Nat} {m : Mapping} :
    m ∈ p3.mappings p4i ↔ m.p3i < 512 ∧
      ∃ p2, p3.next m.p3i = some p2 ∧ m ∈ p2.mappings p4i m.p3i := by
  simp only [mappings, List.mem_flatMap, List.mem_range]
  constructor
  · rintro ⟨p3i, hi, hm⟩
    split at hm
    · rename_i p2 hp2
      have hm' := hm
      rw [PageTable2.mem_mappings] at hm'
      obtain ⟨-, p1, -, h1⟩ := hm'
      have hq := (PageTable1.mem_mappings.1 h1).2.1
      exact ⟨hq ▸ hi, p2, hq ▸ hp2, hq ▸ hm⟩
    · cases hm
  · rintro ⟨hi, p2, hp2, hm⟩
    exact ⟨m.p3i, hi, by simpa only [hp2] using hm⟩

/-- **The audited set**: a leaf is listed exactly when its slot is in the user half and the walk
reaches, through present `next` slots, an entry whose `address()` is `Ok`. -/
theorem PageTable4.mem_mappings {p4 : PageTable4} {m : Mapping} :
    m ∈ p4.mappings ↔ m.p4i < 256 ∧ m.p3i < 512 ∧ m.p2i < 512 ∧ m.p1i < 512 ∧
      ∃ p3 p2 p1 e, p4.next m.p4i = some p3 ∧ p3.next m.p3i = some p2 ∧
        p2.next m.p2i = some p1 ∧ p1.entry m.p1i = some e ∧
        e.address = .ok m.physaddr ∧ e.flags = m.flags := by
  simp only [mappings, List.mem_flatMap, List.mem_range]
  constructor
  · rintro ⟨p4i, hi, hm⟩
    split at hm
    · rename_i p3 hp3
      obtain ⟨h3, p2, hp2, hm2⟩ := PageTable3.mem_mappings.1 hm
      obtain ⟨h2, p1, hp1, hm1⟩ := PageTable2.mem_mappings.1 hm2
      obtain ⟨rfl, -, -, h1, e, he, ha, hf⟩ := PageTable1.mem_mappings.1 hm1
      exact ⟨hi, h3, h2, h1, p3, p2, p1, e, hp3, hp2, hp1, he, ha, hf⟩
    · cases hm
  · rintro ⟨h4, h3, h2, h1, p3, p2, p1, e, hp3, hp2, hp1, he, ha, hf⟩
    refine ⟨m.p4i, h4, ?_⟩
    simp only [hp3]
    exact PageTable3.mem_mappings.2 ⟨h3, p2, hp2, PageTable2.mem_mappings.2
      ⟨h2, p1, hp1, PageTable1.mem_mappings.2 ⟨rfl, rfl, rfl, h1, e, he, ha, hf⟩⟩⟩

/-! ## Translation -/

/-- Modelled from the spec: `translate(VirtualAddress)`, the walk down to the leaf of the page
holding the address, giving the frame and flags of an entry whose `address()` is `Ok`. -/
def PageTable4.translate (p4 : PageTable4) (address : VirtualAddress) :
    Option (Frame × PageFlags) :=
  let page := Page.containingAddress address
  (p4.next page.p4Index.toNat).bind fun p3 =>
    (p3.next page.p3Index.toNat).bind fun p2 =>
      (p2.next page.p2Index.toNat).bind fun p1 =>
        (p1.entry page.p1Index.toNat).bind fun e =>
          match e.address with
          | .ok physaddr => some (Frame.containingAddress physaddr, e.flags)
          | .error _ => none

/-- `translate` sees only the page of the address. -/
theorem PageTable4.translate_eq_of_page (p4 : PageTable4) {a b : VirtualAddress}
    (h : a.data.toNat / 4096 = b.data.toNat / 4096) : p4.translate a = p4.translate b := by
  have hp : Page.containingAddress a = Page.containingAddress b :=
    Page.ext_toNat (by simpa only [Page.containingAddress_toNat] using h)
  simp only [translate, hp]

/-- The walk for a leaf's own address reaches that leaf. -/
theorem PageTable4.translate_of_mem_mappings {p4 : PageTable4} {m : Mapping}
    (hm : m ∈ p4.mappings) : p4.translate m.address = some (m.frame, m.flags) := by
  obtain ⟨h4, h3, h2, h1, p3, p2, p1, e, hp3, hp2, hp1, he, ha, hf⟩ := PageTable4.mem_mappings.1 hm
  have hn := containingAddress_walkAddress_toNat (by omega : m.p4i < 512) h3 h2 h1
  have hi : (Page.containingAddress m.address).p4Index.toNat = m.p4i ∧
      (Page.containingAddress m.address).p3Index.toNat = m.p3i ∧
      (Page.containingAddress m.address).p2Index.toNat = m.p2i ∧
      (Page.containingAddress m.address).p1Index.toNat = m.p1i := by
    simp only [Page.p4Index_toNat, Page.p3Index_toNat, Page.p2Index_toNat, Page.p1Index_toNat,
      Mapping.address, hn]
    omega
  simp only [translate, hi, hp3, hp2, hp1, he, Option.some_bind, ha, hf, Mapping.frame]

/-- A walk that succeeds for a user-half address reaches a listed leaf of the address's page. -/
theorem PageTable4.exists_mapping_of_translate {p4 : PageTable4} {a : VirtualAddress}
    (ha : a.data.toNat < 2 ^ 47) {frame : Frame} {flags : PageFlags}
    (h : p4.translate a = some (frame, flags)) :
    ∃ m ∈ p4.mappings, m.page = Page.containingAddress a ∧ m.frame = frame ∧ m.flags = flags := by
  simp only [translate, Option.bind_eq_some] at h
  obtain ⟨p3, hp3, p2, hp2, p1, hp1, e, he, hr⟩ := h
  split at hr
  · rename_i physaddr hpa
    obtain ⟨rfl, rfl⟩ := Prod.mk.inj (Option.some.inj hr)
    simp only [Page.p4Index_toNat, Page.p3Index_toNat, Page.p2Index_toNat,
      Page.p1Index_toNat, Page.containingAddress_toNat] at hp3 hp2 hp1 he
    generalize hn : a.data.toNat / 4096 = n at hp3 hp2 hp1 he
    have h4 : n / 2 ^ 27 % 512 < 256 := by omega
    have h512 : ∀ k, k % 512 < 512 := fun k => Nat.mod_lt _ (by decide)
    refine ⟨⟨n / 2 ^ 27 % 512, n / 2 ^ 18 % 512, n / 2 ^ 9 % 512, n % 512, physaddr, e.flags⟩,
      PageTable4.mem_mappings.2 ⟨h4, h512 _, h512 _, h512 _, p3, p2, p1, e, hp3, hp2, hp1, he,
        hpa, rfl⟩, Page.ext_toNat ?_, rfl, rfl⟩
    simp only [Mapping.page, Mapping.address]
    rw [containingAddress_walkAddress_toNat (by omega) (h512 _) (h512 _) (h512 _),
      Page.containingAddress_toNat, hn]
    omega
  · cases hr

/-- **The walk refines the audited list.** On the user half, the one-address walk `translate`
succeeds with a frame and flags exactly when `mappings`, the leaves `check_consistency` audits,
lists a leaf of the address's page with that frame and those flags. -/
theorem PageTable4.translate_eq_some_iff (p4 : PageTable4) {a : VirtualAddress}
    (ha : a.data.toNat < 2 ^ 47) (frame : Frame) (flags : PageFlags) :
    p4.translate a = some (frame, flags) ↔
      ∃ m ∈ p4.mappings, m.page = Page.containingAddress a ∧ m.frame = frame ∧ m.flags = flags := by
  refine ⟨p4.exists_mapping_of_translate ha, ?_⟩
  rintro ⟨m, hm, hpage, rfl, rfl⟩
  have hdiv : a.data.toNat / 4096 = m.address.data.toNat / 4096 := by
    simpa only [Page.containingAddress_toNat] using congrArg (·.number.toNat) hpage.symm
  rw [p4.translate_eq_of_page hdiv, PageTable4.translate_of_mem_mappings hm]

/-- The leaves listed for a table depend only on its user half, `next(0..256)`. -/
theorem PageTable4.mappings_congr {p q : PageTable4} (h : ∀ i < 256, p.next i = q.next i) :
    p.mappings = q.mappings := by
  simp only [mappings, List.flatMap]
  rw [List.map_congr_left fun i hi => by rw [h i (List.mem_range.1 hi)]]

end Homunculi.Paging
