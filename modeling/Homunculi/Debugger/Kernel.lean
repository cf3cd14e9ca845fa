import Homunculi.Debugger.Audit

/-!
# Debugger — the verifier across address spaces

The spec's central invariant is a property of the whole kernel: every address space's present
user mappings lie in agreeing grants and keep the writability policy, and every mapped frame's
`RefCount` records its mappings summed over all the address spaces. `check_consistency` audits
one address space at a time, and its tally counts only that address space's mappings, while
the `RefCount` it compares against is the global one.

`checkConsistency_of_consistent` says what the audit of one address space of a consistent
kernel returns: a clean run exactly when none of its frames is also mapped elsewhere. The
two-space kernel `sharedKernel`, one frame `Shared(2)` between two address spaces, is consistent
and fails the audit.
-/

namespace Homunculi.Debugger

open Homunculi.Paging Homunculi.Memory Homunculi.Context

/-- A quiescent kernel: its address spaces and the global page-info table they share. -/
structure KernelState where
  spaces : List AddrSpace
  info : PageInfoTable

namespace KernelState

/-- The present user mappings of `frame`, summed over every address space. -/
def mappingsOf (k : KernelState) (frame : Frame) : Nat :=
  k.spaces.foldr (fun A n => A.table.mappings.countP (fun m => decide (m.frame = frame)) + n) 0

/-- The central invariant (§3, §4.5): every present user mapping of every address space is
`Granted` there, and every mapped frame's page info records its mappings over all the address
spaces. -/
structure Consistent (k : KernelState) : Prop where
  granted : ∀ A ∈ k.spaces, ∀ m ∈ A.table.mappings, Granted k.info A.grants m
  recorded : ∀ A ∈ k.spaces, ∀ m ∈ A.table.mappings, Recorded k.info m.frame (k.mappingsOf m.frame)

end KernelState

/-- **Auditing one address space of a consistent kernel**: `check_consistency` returns normally
without logging exactly when each frame the address space maps is mapped as often there as in
all the address spaces together, that is, by no other address space. -/
theorem checkConsistency_of_consistent (k : KernelState) (hk : k.Consistent) (A : AddrSpace)
    (hA : A ∈ k.spaces) :
    checkConsistency k.info A = .ok [] ↔ ∀ m ∈ A.table.mappings,
      A.table.mappings.countP (fun m' => decide (m'.frame = m.frame)) = k.mappingsOf m.frame := by
  rw [checkConsistency_of_granted k.info A (hk.granted A hA)]
  exact forall₂_congr fun m hm =>
    ⟨fun h => h.unique (hk.recorded A hA m hm), fun h => h ▸ hk.recorded A hA m hm⟩

/-- Two address spaces sharing frame 5 at pages 1 and 2, recorded `Shared(2)`. -/
def sharedKernel : KernelState :=
  ⟨[leafSpace 1, leafSpace 2],
    fun frame => if frame = ⟨5⟩ then some ⟨.shared ⟨2, by decide⟩⟩ else none⟩

theorem sharedKernel_consistent : sharedKernel.Consistent := by
  constructor <;>
    simp only [sharedKernel, KernelState.mappingsOf, List.foldr, List.forall_mem_cons,
      List.not_mem_nil, false_imp_iff, implies_true, and_true,
      leafSpace_mappings 1 (by decide), leafSpace_mappings 2 (by decide)] <;>
    decide

/-- The shared frame is counted once in the audited space against its `Shared(2)`: the final
`assert_eq!` fails. -/
theorem checkConsistency_leafSpace :
    checkConsistency sharedKernel.info (leafSpace 1) = .error ⟨.countMismatch ⟨5⟩ 2 1, []⟩ := by
  rw [checkConsistency, walkP4_eq, leafSpace_mappings 1 (by decide)]
  rfl

/-- A consistent kernel whose audit of one address space panics. -/
theorem checkConsistency_consistent_counterexample :
    ¬ ∀ k : KernelState, k.Consistent → ∀ A ∈ k.spaces, checkConsistency k.info A = .ok [] := by
  intro h
  have := h sharedKernel sharedKernel_consistent (leafSpace 1) (List.mem_cons_self _ _)
  rw [checkConsistency_leafSpace] at this
  cases this

/-- `checkConsistency_of_consistent` on `sharedKernel`: the audit of its first address space is
clean exactly when the shared frame is mapped there as often as in both spaces. -/
theorem checkConsistency_of_consistent_sharedKernel :
    sharedKernel.Consistent ∧ leafSpace 1 ∈ sharedKernel.spaces ∧
      (checkConsistency sharedKernel.info (leafSpace 1) = .ok [] ↔
        ∀ m ∈ (leafSpace 1).table.mappings,
          (leafSpace 1).table.mappings.countP (fun m' => decide (m'.frame = m.frame)) =
            sharedKernel.mappingsOf m.frame) :=
  ⟨sharedKernel_consistent, List.mem_cons_self _ _,
    checkConsistency_of_consistent sharedKernel sharedKernel_consistent (leafSpace 1)
      (List.mem_cons_self _ _)⟩

end Homunculi.Debugger
