import Homunculi.Arch.X86.Syscall

/-!
# x86_64 — `syscall::init` and the round trip of a system call

`init` (arch/x86_64/interrupt/syscall.rs) programs the registers `syscall` and `sysretq` read:
`IA32_STAR` with the selector bases of both directions, `IA32_LSTAR` with the address of
`syscall_instruction`, `IA32_FMASK` with the RFLAGS bits `syscall` clears ("Clear trap flag and
interrupt enable"), and the `SCE` bit of `IA32_EFER`. The GDT indices it reads
(`gdt::GDT_KERNEL_CODE`, `gdt::GDT_USER_CODE32_UNUSED`) and the address of `syscall_instruction`
are defined outside the source and are parameters.

What the CPU does with these registers is the architecture's, not the source's: `syscallInsn`
is the `syscall` instruction as far as the entry sequence reads its result.
`init_syscall_roundTrip` joins the instruction, the entry sequence and the return sequence.
-/

namespace Homunculi.Arch.X86

/-- The model-specific registers `init` writes. -/
structure Msrs where
  star : Word
  lstar : Word
  fmask : Word
  efer : Word
deriving DecidableEq, Repr

/-- `syscall::init()`: `IA32_STAR` gets the kernel selector base `GDT_KERNEL_CODE << 3` in bits
47..32 and the user base `(GDT_USER_CODE32_UNUSED << 3) | 3` in bits 63..48, each cast
`as u16`; then `IA32_LSTAR`, `IA32_FMASK = 0x0300`, and `IA32_EFER | 1`. -/
def init (gdtKernelCode gdtUserCode32Unused : Nat) (syscallInstruction : Word) (msrs : Msrs) :
    Msrs :=
  let syscallCsSsBase : BitVec 16 := BitVec.ofNat 16 gdtKernelCode <<< 3
  let sysretCsSsBase : BitVec 16 := (BitVec.ofNat 16 gdtUserCode32Unused <<< 3) ||| 3
  let starHigh : BitVec 32 :=
    syscallCsSsBase.setWidth 32 ||| (sysretCsSsBase.setWidth 32 <<< 16)
  { star := starHigh.setWidth 64 <<< 32
    lstar := syscallInstruction
    fmask := 0x0300
    efer := msrs.efer ||| 1 }

/-- Where `syscall` leaves the CPU: RIP, CS, SS and RFLAGS, and the return RIP and old RFLAGS it
saves in `rcx` and `r11`. -/
structure KernelEntry where
  rip : Word
  cs : BitVec 16
  ss : BitVec 16
  rflags : Word
  rcx : Word
  r11 : Word
deriving DecidableEq, Repr

/-- The `syscall` instruction in 64-bit mode, from the user's next RIP and RFLAGS: `#UD` unless
`IA32_EFER.SCE` is set; otherwise RIP from `IA32_LSTAR`, CS from `IA32_STAR[47:32]` with the RPL
cleared, SS eight above it, and RFLAGS masked by `IA32_FMASK`. -/
def syscallInsn (msrs : Msrs) (rip rflags : Word) : Option KernelEntry :=
  if msrs.efer.getLsbD 0 then
    let base : BitVec 16 := msrs.star.extractLsb' 32 16
    some ⟨msrs.lstar, base &&& 0xFFFC, base + 8, rflags &&& ~~~msrs.fmask, rip, rflags⟩
  else none

section Init

variable (gdtKernelCode gdtUserCode32Unused : Nat) (syscallInstruction : Word) (msrs : Msrs)

/-- After `init`, `syscall` never raises `#UD`: it enters `syscall_instruction` with RFLAGS
masked by `0x0300` and the user's RIP and RFLAGS in `rcx` and `r11`. -/
theorem syscallInsn_init (rip rflags : Word) :
    (syscallInsn (init gdtKernelCode gdtUserCode32Unused syscallInstruction msrs) rip rflags).map
      (fun e => (e.rip, e.rflags, e.rcx, e.r11)) =
        some (syscallInstruction, rflags &&& ~~~0x0300, rip, rflags) := by
  have hsce : (msrs.efer ||| 1).getLsbD 0 = true := by
    rw [BitVec.getLsbD_or, Bool.or_eq_true]
    exact .inr rfl
  simp only [syscallInsn, init, hsce, if_true, Option.map_some']

end Init

/-- `IA32_FMASK = 0x0300` clears exactly the trap flag (bit 8) and the interrupt flag (bit 9). -/
theorem getLsbD_and_not_fmask (rflags : Word) (i : Nat) :
    (rflags &&& ~~~(0x0300 : Word)).getLsbD i = (rflags.getLsbD i && i != 8 && i != 9) := by
  by_cases h : i < 64
  · have hmask : ∀ j < 64, (0x0300 : Word).getLsbD j = (j == 8 || j == 9) := by decide
    rw [BitVec.getLsbD_and, BitVec.getLsbD_not, hmask i h, Bool.and_assoc]
    simp [h, bne]
  · simp [BitVec.getLsbD_ge rflags i (by omega)]

/-- **The round trip of a system call.** After `init`, a `syscall` from user mode at any RIP
with any RFLAGS enters `syscall_instruction` with the trap and interrupt flags clear and every
other flag as the user had it, the direction flag included. Once the entry sequence has pushed
its frame, the return sequence, started on that frame, returns to the caller, at its RIP with
its RFLAGS and RSP, exactly when `ZF` is clear when it starts and the RIP is in the lower half. -/
theorem init_syscall_roundTrip (gdtKernelCode gdtUserCode32Unused : Nat)
    (syscallInstruction : Word) (msrs : Msrs) (user : Cpu) (hg : user.kernelGs = false)
    (rip rflags : Word) :
    ∃ e, syscallInsn (init gdtKernelCode gdtUserCode32Unused syscallInstruction msrs) rip rflags =
        some e ∧ e.rip = syscallInstruction ∧
      (∀ i, e.rflags.getLsbD i = (rflags.getLsbD i && i != 8 && i != 9)) ∧
      ∃ k, runBlock entrySequence { user with rcx := e.rcx, r11 := e.r11 } = some k ∧
        ∀ cpu : Cpu, cpu.stack 5 = k.stack 5 →
          ((returnPath cpu).2 = .user rip rflags user.rsp ↔ cpu.zf = false ∧ rip >>> 47 = 0) := by
  obtain ⟨e, he, hfields⟩ := Option.map_eq_some'.1
    (syscallInsn_init gdtKernelCode gdtUserCode32Unused syscallInstruction msrs rip rflags)
  simp only [Prod.mk.injEq] at hfields
  obtain ⟨hrip, hfl, hrcx, hr11⟩ := hfields
  refine ⟨e, he, hrip, hfl ▸ getLsbD_and_not_fmask rflags, ?_⟩
  obtain ⟨k, hk, -⟩ := runBlock_entrySequence { user with rcx := e.rcx, r11 := e.r11 } hg
  refine ⟨k, hk, fun cpu hframe => ?_⟩
  have := returnPath_after_entry { user with rcx := e.rcx, r11 := e.r11 } k cpu hg hk hframe
  rwa [hrcx, hr11] at this

/-- `init_syscall_roundTrip` for a caller at RSP `0x7FFF_FFFF_F000` with the user's GS live. -/
theorem init_syscall_roundTrip_user :
    let user : Cpu := ⟨0, 0, 0x7FFFFFFFF000, false, false, false, fun _ _ => 0, fun _ => 0⟩
    user.kernelGs = false ∧
    ∃ e, syscallInsn (init 1 4 0xFFFF800000100000 ⟨0, 0, 0, 0⟩) 0x400000 0x202 = some e ∧
      e.rip = 0xFFFF800000100000 ∧
      (∀ i, e.rflags.getLsbD i = ((0x202 : Word).getLsbD i && i != 8 && i != 9)) ∧
      ∃ k, runBlock entrySequence { user with rcx := e.rcx, r11 := e.r11 } = some k ∧
        ∀ cpu : Cpu, cpu.stack 5 = k.stack 5 →
          ((returnPath cpu).2 = .user 0x400000 0x202 user.rsp ↔
            cpu.zf = false ∧ (0x400000 : Word) >>> 47 = 0) :=
  ⟨rfl, init_syscall_roundTrip 1 4 0xFFFF800000100000 ⟨0, 0, 0, 0⟩ _ rfl 0x400000 0x202⟩

end Homunculi.Arch.X86
