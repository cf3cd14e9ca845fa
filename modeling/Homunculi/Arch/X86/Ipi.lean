import Homunculi.Arch.X86.Syscall

/-!
# x86_64 — inter-processor interrupts

`ipi(kind, target)` (arch/x86_64/ipi.rs) sends an IPI through the local APIC's interrupt command
register. Without the `multi_core` feature it does nothing; with it, it writes one ICR word: the
destination shorthand `target` in bits 19..18, the level bit 14, and either the vector `kind` in
bits 7..0, or for `IpiKind::Profile` the NMI delivery mode `0b100` in bits 10..8.

`icrFields` is the local APIC's reading of that word, written apart from `ipi`; `ipi_icrFields`
says every kind and target arrives as meant and no other bit is set.
-/

namespace Homunculi.Arch.X86

/-- `IpiKind`. -/
inductive IpiKind
  | wakeup
  | tlb
  | switch
  | pit
  | profile
deriving DecidableEq, Repr

/-- `kind as u64`, the `#[repr(u8)]` discriminants. -/
def IpiKind.toU64 : IpiKind → Word
  | .wakeup => 0x40
  | .tlb => 0x41
  | .switch => 0x42
  | .pit => 0x43
  | .profile => 0x44

/-- `IpiTarget`. -/
inductive IpiTarget
  | current
  | all
  | other
deriving DecidableEq, Repr

/-- `target as u64`. -/
def IpiTarget.toU64 : IpiTarget → Word
  | .current => 1
  | .all => 2
  | .other => 3

/-- `ipi(kind, target)`: the word it writes with `LOCAL_APIC.set_icr`, nothing without the
`multi_core` feature. -/
def ipi (multiCore : Bool) (kind : IpiKind) (target : IpiTarget) : Option Word :=
  if multiCore then
    match kind with
    | .profile => some (target.toU64 <<< 18 ||| 1 <<< 14 ||| 0b100 <<< 8)
    | _ => some (target.toU64 <<< 18 ||| 1 <<< 14 ||| kind.toU64)
  else none

/-- The fields of the ICR's low word as the local APIC reads them. -/
structure IcrFields where
  vector : BitVec 8
  deliveryMode : BitVec 3
  logicalDestination : Bool
  levelAssert : Bool
  levelTriggered : Bool
  shorthand : BitVec 2
  /-- Bits 31..20, and the reserved bits 17..16 and 13..12. -/
  reserved : Bool
deriving DecidableEq, Repr

/-- Vector in bits 7..0, delivery mode 10..8, destination mode 11, level 14, trigger mode 15,
destination shorthand 19..18. -/
def icrFields (icr : Word) : IcrFields :=
  ⟨icr.extractLsb' 0 8, icr.extractLsb' 8 3, icr.getLsbD 11, icr.getLsbD 14, icr.getLsbD 15,
    icr.extractLsb' 18 2,
    icr >>> 20 != 0 || icr.getLsbD 12 || icr.getLsbD 13 || icr.getLsbD 16 || icr.getLsbD 17⟩

/-- **The ICR word `ipi` writes.** Without `multi_core` nothing is sent. With it, each kind is sent
as a fixed interrupt with its own vector, except `Profile`, sent as an NMI; always with physical
destination, level assert and edge trigger, the target as destination shorthand (`Current` self,
`All` all including self, `Other` all excluding self), and no reserved bit set. -/
theorem ipi_icrFields (kind : IpiKind) (target : IpiTarget) :
    ipi false kind target = none ∧
    (ipi true kind target).map icrFields =
      some ⟨if kind = .profile then 0 else kind.toU64.setWidth 8,
        if kind = .profile then 0b100 else 0, false, true, false, target.toU64.setWidth 2,
        false⟩ := by
  cases kind <;> cases target <;> decide

end Homunculi.Arch.X86
