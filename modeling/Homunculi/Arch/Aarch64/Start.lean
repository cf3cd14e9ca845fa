import Homunculi.Memory.Frame

/-!
# aarch64 — the bootstrap `kstart` hands to `kmain`

`kstart` (arch/aarch64/start.rs) reads the bootloader's `KernelArgs` and, after bringing the
machine up, builds the `crate::Bootstrap` it passes to `kmain`: the frame containing
`bootstrap_base`, `bootstrap_size / PAGE_SIZE` pages, the entry point, and the environment as
the slice `(env_base, env_size)`. Only this construction is modelled; the rest of `kstart` is
device, logger, memory-manager and paging bring-up.

`KernelArgs` documents `bootstrap_size` as "not necessarily page aligned", and `Bootstrap`
hands over whole frames; `kstartBootstrap_covers_iff` says exactly which regions it covers.
-/

namespace Homunculi.Arch.Aarch64

open Homunculi.Paging Homunculi.Memory

/-- The fields of `KernelArgs` that the `Bootstrap` is built from. -/
structure KernelArgs where
  envBase : Usize
  envSize : Usize
  /-- "The physical base 64-bit pointer to the contiguous bootstrap/initfs." -/
  bootstrapBase : Usize
  /-- "Size of contiguous bootstrap/initfs physical region, not necessarily page aligned." -/
  bootstrapSize : Usize
  /-- "Entry point the kernel will jump to." -/
  bootstrapEntry : Usize
deriving DecidableEq, Repr

/-- `crate::Bootstrap`, with the fields `kstart` fills in (its definition is not part of the
source): `page_count` frames from `base`, and the `env` slice as its base and length. -/
structure Bootstrap where
  base : Frame
  pageCount : Usize
  entry : Usize
  env : Usize × Usize
deriving DecidableEq, Repr

/-- The `crate::Bootstrap { .. }` expression at the end of `kstart`. -/
def kstartBootstrap (args : KernelArgs) : Bootstrap :=
  { base := Frame.containingAddress ⟨args.bootstrapBase⟩
    pageCount := args.bootstrapSize / pageSize
    entry := args.bootstrapEntry
    env := (args.envBase, args.envSize) }

/-- The physical byte `byte` lies in one of the bootstrap's frames. -/
def Bootstrap.Covers (b : Bootstrap) (byte : Nat) : Prop :=
  b.base.number.toNat * pageSize.toNat ≤ byte ∧
    byte < (b.base.number.toNat + b.pageCount.toNat) * pageSize.toNat

instance (b : Bootstrap) (byte : Nat) : Decidable (b.Covers byte) :=
  inferInstanceAs (Decidable (_ ∧ _))

/-- The bootstrap starts at the page below `bootstrap_base` and spans the whole pages of
`bootstrap_size`. -/
theorem kstartBootstrap_covers (args : KernelArgs) (byte : Nat) :
    (kstartBootstrap args).Covers byte ↔
      args.bootstrapBase.toNat / 4096 * 4096 ≤ byte ∧
        byte < (args.bootstrapBase.toNat / 4096 + args.bootstrapSize.toNat / 4096) * 4096 := by
  simp [kstartBootstrap, Bootstrap.Covers, Frame.containingAddress, BitVec.toNat_udiv]

/-- **Which regions the bootstrap covers.** The frames `kstart` hands over cover every byte of
`[bootstrap_base, bootstrap_base + bootstrap_size)` exactly when the region is empty or both
its base and its size are multiples of `PAGE_SIZE`: otherwise the region's last byte lies past
the last whole page. -/
theorem kstartBootstrap_covers_iff (args : KernelArgs) :
    (∀ byte, args.bootstrapBase.toNat ≤ byte →
        byte < args.bootstrapBase.toNat + args.bootstrapSize.toNat →
        (kstartBootstrap args).Covers byte) ↔
      args.bootstrapSize.toNat = 0 ∨
        (args.bootstrapBase.toNat % 4096 = 0 ∧ args.bootstrapSize.toNat % 4096 = 0) := by
  simp only [kstartBootstrap_covers]
  constructor
  · intro h
    by_cases h0 : args.bootstrapSize.toNat = 0
    · exact .inl h0
    · have := h (args.bootstrapBase.toNat + args.bootstrapSize.toNat - 1) (by omega) (by omega)
      omega
  · rintro (h0 | ⟨hb, hs⟩) byte hlo hhi <;> omega

/-- A bootstrap image of `0x1800` bytes at `0x4000_0000`: `kstart` hands over one page, and the
region's byte `0x4000_1000` is in no frame of it. -/
theorem kstartBootstrap_drops_partial_page :
    let args : KernelArgs :=
      { envBase := 0, envSize := 0, bootstrapBase := 0x40000000, bootstrapSize := 0x1800,
        bootstrapEntry := 0 }
    (kstartBootstrap args).pageCount = 1 ∧
      args.bootstrapBase.toNat ≤ 0x40001000 ∧
      0x40001000 < args.bootstrapBase.toNat + args.bootstrapSize.toNat ∧
      ¬ (kstartBootstrap args).Covers 0x40001000 := by
  decide

end Homunculi.Arch.Aarch64
