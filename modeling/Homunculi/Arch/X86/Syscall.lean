import Mathlib.Data.Nat.Bitwise

/-!
# x86_64 — the `syscall_instruction` trampoline

The entry and the return sequence of `syscall_instruction` (arch/x86_64/interrupt/syscall.rs),
instruction by instruction. The entry switches to the kernel GS and stack and pushes an
iret-style frame; the return sequence, which runs after `pop_scratch!()`, tests the saved user
RIP at `[rsp]` and leaves either through one of two copies of `fast_sysretq!()` or through the
slow `iretq` path at label `3`. The saving and restoring of the other registers in between
(`push_scratch!()`, the call of `__inner_syscall_instruction`, `pop_scratch!()`) is not part
of the source and is not modelled: the return sequence starts from an arbitrary state.

The state is the part of the CPU the two sequences read or write: `rcx`, `r11`, `rsp`, the
flags `ZF` and `CF`, which GS base is live, the GS-relative memory and the stack. `run` executes
a sequence on fuel and returns the program counters it executed and how control left the
kernel. Loading RFLAGS is a plain copy for both `sysretq` (from `r11`) and `iretq` (from the
frame); the reserved-bit normalisation both instructions apply is not modelled.
-/

namespace Homunculi.Arch.X86

/-- A 64-bit register or memory word. -/
abbrev Word := BitVec 64

/-- The numeric local labels `1:`, `2:` and `3:`. -/
inductive Label
  | one
  | two
  | three
deriving DecidableEq, Repr

/-- The general-purpose registers the sequences touch. -/
inductive Reg
  | rcx
  | r11
  | rsp
deriving DecidableEq, Repr

/-- The instructions of the two sequences, with the operands the source gives them. -/
inductive Instr
  /-- `bt QWORD PTR [rsp], bit` -/
  | btRsp (bit : Nat)
  /-- `jnz Nf` -/
  | jnz (target : Label)
  /-- `jne Nf` -/
  | jne (target : Label)
  /-- A label definition `N:`. -/
  | label (l : Label)
  /-- `.align 8, 0x90`, padding with `nop`. -/
  | align
  /-- `push r` -/
  | push (r : Reg)
  /-- `push QWORD PTR imm` -/
  | pushImm (imm : Word)
  /-- `push QWORD PTR gs:[offset]` -/
  | pushGs (offset : Word)
  /-- `mov gs:[offset], rsp` -/
  | movGsRsp (offset : Word)
  /-- `pop r` -/
  | pop (r : Reg)
  /-- `sub rsp, imm` -/
  | subRsp (imm : Word)
  /-- `pop QWORD PTR gs:[offset]` -/
  | popGs (offset : Word)
  /-- `mov rsp, gs:[offset]` -/
  | movRspGs (offset : Word)
  /-- `mov rcx, [rsp]` -/
  | movRcxRsp
  /-- `shr rcx, imm` -/
  | shrRcx (imm : Nat)
  /-- `cmp rcx, imm` -/
  | cmpRcx (imm : Word)
  /-- `xor r, r` -/
  | xorSelf (r : Reg)
  | swapgs
  | ud2
  | sysretq
  | iretq
deriving DecidableEq, Repr

/-- The entry of `syscall_instruction`: switch to the kernel GS and stack and push an
iret-style frame `[rip, cs, rflags, rsp, ss]` with the fake selectors `6 * 8 + 3` and
`5 * 8 + 3`. -/
def entrySequence : List Instr :=
  [.swapgs, .movGsRsp 0x70, .movRspGs 4, .pushImm (5 * 8 + 3), .pushGs 0x70, .push .r11,
    .pushImm (6 * 8 + 3), .push .rcx]

/-- `fast_sysretq!()`. -/
def fastSysretq : List Instr :=
  [.pop .rcx, .subRsp 8, .pop .r11, .popGs 0x70, .movRspGs 0x70, .swapgs, .ud2, .sysretq]

/-- The return sequence of `syscall_instruction`, from `bt` to `iretq`. -/
def returnSequence : List Instr :=
  [.btRsp 47, .jnz .two, .label .one] ++ fastSysretq ++
    [.align, .label .two, .movRcxRsp, .shrRcx 47, .cmpRcx 0x1FFFF, .jne .three] ++
    fastSysretq ++ [.label .three, .xorSelf .rcx, .xorSelf .r11, .swapgs, .iretq]

/-- The CPU state the sequences read and write. -/
structure Cpu where
  rcx : Word
  r11 : Word
  rsp : Word
  zf : Bool
  cf : Bool
  /-- GS addresses the kernel's per-CPU area (the TSS), not the user's. -/
  kernelGs : Bool
  /-- GS-relative memory by offset: `gs true` is the kernel's area, `gs false` the user's. -/
  gs : Bool → Word → Word
  /-- The stack, one word per address. -/
  mem : Word → Word

namespace Cpu

def getReg (cpu : Cpu) : Reg → Word
  | .rcx => cpu.rcx
  | .r11 => cpu.r11
  | .rsp => cpu.rsp

def setReg (cpu : Cpu) : Reg → Word → Cpu
  | .rcx, v => { cpu with rcx := v }
  | .r11, v => { cpu with r11 := v }
  | .rsp, v => { cpu with rsp := v }

/-- A write of `gs:[offset]`, through whichever GS base is live. -/
def gsWrite (cpu : Cpu) (offset v : Word) : Cpu :=
  { cpu with
    gs := Function.update cpu.gs cpu.kernelGs (Function.update (cpu.gs cpu.kernelGs) offset v) }

/-- `push`: the stack grows down by one word. -/
def push (cpu : Cpu) (v : Word) : Cpu :=
  { cpu with rsp := cpu.rsp - 8, mem := Function.update cpu.mem (cpu.rsp - 8) v }

/-- The `n` words on top of the stack, from `rsp` up. -/
def stack (cpu : Cpu) (n : Nat) : List Word :=
  (List.range n).map fun i => cpu.mem (cpu.rsp + BitVec.ofNat 64 (8 * i))

@[simp] theorem push_rsp (cpu : Cpu) (v : Word) : (cpu.push v).rsp = cpu.rsp - 8 := rfl
@[simp] theorem push_rcx (cpu : Cpu) (v : Word) : (cpu.push v).rcx = cpu.rcx := rfl
@[simp] theorem push_r11 (cpu : Cpu) (v : Word) : (cpu.push v).r11 = cpu.r11 := rfl
@[simp] theorem push_kernelGs (cpu : Cpu) (v : Word) :
    (cpu.push v).kernelGs = cpu.kernelGs := rfl
@[simp] theorem push_gs (cpu : Cpu) (v : Word) : (cpu.push v).gs = cpu.gs := rfl

/-- A push puts one word on top of the stack and keeps the ones below it, as long as the stack
does not wrap around the address space. -/
theorem push_stack (cpu : Cpu) (v : Word) (n : Nat) (hn : n < 2 ^ 61) :
    (cpu.push v).stack (n + 1) = v :: cpu.stack n := by
  simp only [stack, push, List.range_succ_eq_map, List.map_cons, List.map_map, List.cons.injEq]
  refine ⟨by rw [Nat.mul_zero, BitVec.add_zero, Function.update_same],
    List.map_congr_left fun i hi => ?_⟩
  have hi := List.mem_range.1 hi
  have hrsp := cpu.rsp.isLt
  have hne : cpu.rsp - 8 + BitVec.ofNat 64 (8 * (i + 1)) ≠ cpu.rsp - 8 := by
    simp only [ne_eq, BitVec.toNat_eq, BitVec.toNat_add, BitVec.toNat_sub, BitVec.toNat_ofNat,
      BitVec.ofNat_eq_ofNat]
    omega
  have heq : cpu.rsp - 8 + BitVec.ofNat 64 (8 * (i + 1)) = cpu.rsp + BitVec.ofNat 64 (8 * i) := by
    simp only [BitVec.toNat_eq, BitVec.toNat_add, BitVec.toNat_sub, BitVec.toNat_ofNat,
      BitVec.ofNat_eq_ofNat]
    omega
  simp only [Function.comp, Function.update_noteq hne, heq]

/-- An iret-style frame on top of the stack, word by word. -/
theorem stack_five (cpu : Cpu) (rip cs rflags rsp ss : Word) :
    cpu.stack 5 = [rip, cs, rflags, rsp, ss] ↔
      cpu.mem cpu.rsp = rip ∧ cpu.mem (cpu.rsp + 8) = cs ∧ cpu.mem (cpu.rsp + 16) = rflags ∧
        cpu.mem (cpu.rsp + 24) = rsp ∧ cpu.mem (cpu.rsp + 32) = ss := by
  simp [stack, List.range_succ]

end Cpu

/-- `RCX[63:47]` all zero or all one: the address is canonical for 48-bit virtual addresses. -/
def Canonical (a : Word) : Prop := a >>> 47 = 0 ∨ a >>> 47 = 0x1FFFF

instance (a : Word) : Decidable (Canonical a) := inferInstanceAs (Decidable (_ ∨ _))

/-- An exception raised in kernel mode. -/
inductive Fault
  /-- `#UD`, from `ud2`. -/
  | invalidOpcode
  /-- `#GP(0)`, from `sysretq` or `iretq` to a non-canonical RIP. -/
  | generalProtection
deriving DecidableEq, Repr

/-- How control leaves a sequence. -/
inductive Exit
  /-- In user mode, with these RIP, RFLAGS and RSP. -/
  | user (rip rflags rsp : Word)
  /-- An exception in kernel mode, with `rcx`, `r11` and `rsp` as they were. -/
  | fault (f : Fault) (rcx r11 rsp : Word)
  /-- Past the end of the sequence, or out of fuel. -/
  | stuck
deriving DecidableEq, Repr

/-- What one instruction does. -/
inductive Step
  | next (cpu : Cpu)
  | jump (target : Label) (cpu : Cpu)
  | exit (e : Exit)

/-- One instruction. `bt` sets only `CF`; `jnz` and `jne` read `ZF`. -/
def exec (cpu : Cpu) : Instr → Step
  | .btRsp bit => .next { cpu with cf := (cpu.mem cpu.rsp).getLsbD bit }
  | .jnz target => if cpu.zf then .next cpu else .jump target cpu
  | .jne target => if cpu.zf then .next cpu else .jump target cpu
  | .label _ => .next cpu
  | .align => .next cpu
  | .push r => .next (cpu.push (cpu.getReg r))
  | .pushImm imm => .next (cpu.push imm)
  | .pushGs offset => .next (cpu.push (cpu.gs cpu.kernelGs offset))
  | .movGsRsp offset => .next (cpu.gsWrite offset cpu.rsp)
  | .pop r => .next ((cpu.setReg r (cpu.mem cpu.rsp)).setReg .rsp (cpu.rsp + 8))
  | .subRsp imm =>
    .next { cpu with rsp := cpu.rsp - imm, zf := cpu.rsp - imm = 0, cf := cpu.rsp < imm }
  | .popGs offset => .next { cpu.gsWrite offset (cpu.mem cpu.rsp) with rsp := cpu.rsp + 8 }
  | .movRspGs offset => .next { cpu with rsp := cpu.gs cpu.kernelGs offset }
  | .movRcxRsp => .next { cpu with rcx := cpu.mem cpu.rsp }
  | .shrRcx imm =>
    let v := cpu.rcx >>> imm
    .next { cpu with rcx := v, zf := v = 0, cf := cpu.rcx.getLsbD (imm - 1) }
  | .cmpRcx imm => .next { cpu with zf := cpu.rcx = imm, cf := cpu.rcx < imm }
  | .xorSelf r => .next { cpu.setReg r 0 with zf := true, cf := false }
  | .swapgs => .next { cpu with kernelGs := !cpu.kernelGs }
  | .ud2 => .exit (.fault .invalidOpcode cpu.rcx cpu.r11 cpu.rsp)
  | .sysretq =>
    .exit (if Canonical cpu.rcx then .user cpu.rcx cpu.r11 cpu.rsp
      else .fault .generalProtection cpu.rcx cpu.r11 cpu.rsp)
  | .iretq =>
    .exit (if Canonical (cpu.mem cpu.rsp) then
        .user (cpu.mem cpu.rsp) (cpu.mem (cpu.rsp + 16)) (cpu.mem (cpu.rsp + 24))
      else .fault .generalProtection cpu.rcx cpu.r11 cpu.rsp)

/-- A straight-line block run to its end: `none` if an instruction jumps or leaves. -/
def runBlock : List Instr → Cpu → Option Cpu
  | [], cpu => some cpu
  | i :: is, cpu =>
    match exec cpu i with
    | .next cpu' => runBlock is cpu'
    | _ => none

/-- `Nf`: the first definition of label `N` after `pc`. -/
def forwardLabel (prog : List Instr) (pc : Nat) (l : Label) : Option Nat :=
  ((prog.drop (pc + 1)).findIdx? (· = .label l)).map (· + (pc + 1))

/-- Run `prog` from `pc` on `fuel` instructions: the program counters executed, and the exit. -/
def run (prog : List Instr) : Nat → Nat → Cpu → List Nat × Exit
  | 0, _, _ => ([], .stuck)
  | fuel + 1, pc, cpu =>
    match prog[pc]? with
    | none => ([], .stuck)
    | some i =>
      match exec cpu i with
      | .next cpu' => let r := run prog fuel (pc + 1) cpu'; (pc :: r.1, r.2)
      | .jump l cpu' =>
        match forwardLabel prog pc l with
        | some pc' => let r := run prog fuel pc' cpu'; (pc :: r.1, r.2)
        | none => ([pc], .stuck)
      | .exit e => ([pc], e)

/-- The return sequence run from its first instruction, with fuel for every instruction. -/
def returnPath (cpu : Cpu) : List Nat × Exit :=
  run returnSequence returnSequence.length 0 cpu

/-- Control reached the `pop rcx` that opens a copy of `fast_sysretq!()`. -/
def EntersFastSysretq (trace : List Nat) : Prop :=
  ∃ pc ∈ trace, returnSequence[pc]? = some (.pop .rcx)

instance (trace : List Nat) : Decidable (EntersFastSysretq trace) :=
  inferInstanceAs (Decidable (∃ pc ∈ trace, _))

/-! ## The entry -/

/-- **The entry's frame.** Entered from user mode (the user's GS live), the entry moves to the
kernel stack `gs:[4]` and leaves on it, from the top down, the user RIP (`rcx`), the fake CS
`0x33`, the user RFLAGS (`r11`), the user RSP and the fake SS `0x2B`. -/
theorem runBlock_entrySequence (cpu : Cpu) (hg : cpu.kernelGs = false) :
    ∃ cpu', runBlock entrySequence cpu = some cpu' ∧ cpu'.kernelGs = true ∧
      cpu'.rsp = cpu.gs true 4 - 40 ∧ cpu'.stack 5 = [cpu.rcx, 0x33, cpu.r11, cpu.rsp, 0x2B] := by
  simp only [runBlock, entrySequence, exec, Cpu.gsWrite, Cpu.getReg, hg, Bool.not_false,
    Function.update_same, Option.some.injEq, exists_eq_left', Cpu.push_rsp, Cpu.push_kernelGs,
    Cpu.push_gs, Cpu.push_rcx, Cpu.push_r11,
    Function.update_noteq (show (4 : Word) ≠ 0x70 by decide), true_and]
  refine ⟨by simp only [BitVec.toNat_eq, BitVec.toNat_sub, BitVec.toNat_ofNat,
    BitVec.ofNat_eq_ofNat]; omega, ?_⟩
  rw [Cpu.push_stack _ _ 4 (by omega), Cpu.push_stack _ _ 3 (by omega),
    Cpu.push_stack _ _ 2 (by omega), Cpu.push_stack _ _ 1 (by omega),
    Cpu.push_stack _ _ 0 (by omega)]
  rfl

/-! ## The three paths of the return sequence

`bt` leaves `ZF` as the code before it left it, so the first branch is taken on a stale flag.
Each path is run symbolically; the two copies of `fast_sysretq!()` stop at the same `ud2` with
the same registers. -/

section Paths

variable (cpu : Cpu)

/-- `ZF` set on entry: the first copy of `fast_sysretq!()`. `pop rcx` takes the user RIP,
`sub rsp, 8` moves back onto it, so `pop r11` takes the RIP again and `pop gs:[0x70]` the fake
CS, which `mov rsp, gs:[0x70]` loads as the user stack pointer; then `ud2`. -/
theorem returnPath_of_zf (hz : cpu.zf = true) :
    returnPath cpu = ([0, 1, 2, 3, 4, 5, 6, 7, 8, 9],
      .fault .invalidOpcode (cpu.mem cpu.rsp) (cpu.mem cpu.rsp) (cpu.mem (cpu.rsp + 8))) := by
  simp [returnPath, run, returnSequence, fastSysretq, exec, Cpu.setReg, Cpu.gsWrite, hz,
    BitVec.add_sub_cancel]

/-- `ZF` clear and bits 63..47 of the RIP all one: the second copy of `fast_sysretq!()`. -/
theorem returnPath_of_high (hz : cpu.zf = false) (hr : cpu.mem cpu.rsp >>> 47 = 0x1FFFF) :
    returnPath cpu = ([0, 1, 12, 13, 14, 15, 16, 17, 18, 19, 20, 21, 22, 23],
      .fault .invalidOpcode (cpu.mem cpu.rsp) (cpu.mem cpu.rsp) (cpu.mem (cpu.rsp + 8))) := by
  simp [returnPath, run, returnSequence, fastSysretq, exec, Cpu.setReg, Cpu.gsWrite, hz, hr,
    forwardLabel, List.findIdx?_cons, BitVec.add_sub_cancel]

/-- Otherwise the slow path: `iretq` pops RIP, CS, RFLAGS, RSP and SS from the frame at `rsp`. -/
theorem returnPath_of_low (hz : cpu.zf = false) (hr : ¬ cpu.mem cpu.rsp >>> 47 = 0x1FFFF) :
    returnPath cpu = ([0, 1, 12, 13, 14, 15, 16, 25, 26, 27, 28, 29],
      if Canonical (cpu.mem cpu.rsp) then
        .user (cpu.mem cpu.rsp) (cpu.mem (cpu.rsp + 16)) (cpu.mem (cpu.rsp + 24))
      else .fault .generalProtection 0 0 cpu.rsp) := by
  have hr : ¬ cpu.mem cpu.rsp >>> 47 = BitVec.ofNat 64 0x1FFFF := hr
  simp [returnPath, run, returnSequence, fastSysretq, exec, Cpu.setReg, Cpu.gsWrite, hz, hr,
    forwardLabel, List.findIdx?_cons]

/-- **Which path runs.** Control reaches a copy of `fast_sysretq!()` exactly when `ZF` was set
on entry or the saved RIP has bits 63..47 all one: the bit `bt` tested is never read. -/
theorem entersFastSysretq_iff :
    EntersFastSysretq (returnPath cpu).1 ↔ cpu.zf = true ∨ cpu.mem cpu.rsp >>> 47 = 0x1FFFF := by
  cases hz : cpu.zf
  · by_cases hr : cpu.mem cpu.rsp >>> 47 = 0x1FFFF
    · rw [returnPath_of_high cpu hz hr]; simp only [hr]; decide
    · rw [returnPath_of_low cpu hz hr]; simp only [hr]; decide
  · rw [returnPath_of_zf cpu hz]; simp only [true_or, iff_true]; decide

/-- The saved RIP `0x0000_8000_0000_0000` has bit 47 set and bits 63..48 clear, so it is not
canonical; entered with `ZF` set, the return sequence still runs the first
`fast_sysretq!()`. -/
theorem returnPath_noncanonical_enters_fast :
    let cpu : Cpu :=
      { rcx := 0, r11 := 0, rsp := 0x1000, zf := true, cf := false, kernelGs := true,
        gs := fun _ _ => 0, mem := fun a => if a = 0x1000 then 0x800000000000 else 0 }
    ¬ Canonical (cpu.mem cpu.rsp) ∧ EntersFastSysretq (returnPath cpu).1 :=
  ⟨by decide, (entersFastSysretq_iff _).2 (Or.inl rfl)⟩

/-- **Every run of a `fast_sysretq!()` copy raises `#UD`**, with the user RIP in both `rcx` and
`r11` and the fake CS in `rsp`. -/
theorem returnPath_fast_faults (h : EntersFastSysretq (returnPath cpu).1) :
    (returnPath cpu).2 =
      .fault .invalidOpcode (cpu.mem cpu.rsp) (cpu.mem cpu.rsp) (cpu.mem (cpu.rsp + 8)) := by
  rcases (entersFastSysretq_iff cpu).1 h with hz | hr
  · rw [returnPath_of_zf cpu hz]
  · cases hz : cpu.zf
    · rw [returnPath_of_high cpu hz hr]
    · rw [returnPath_of_zf cpu hz]

/-- `returnPath_fast_faults` from a state with `ZF` set. -/
theorem returnPath_fast_faults_zf :
    let cpu : Cpu :=
      { rcx := 0, r11 := 0, rsp := 0x1000, zf := true, cf := false, kernelGs := true,
        gs := fun _ _ => 0, mem := fun _ => 0 }
    EntersFastSysretq (returnPath cpu).1 ∧
      (returnPath cpu).2 =
        .fault .invalidOpcode (cpu.mem cpu.rsp) (cpu.mem cpu.rsp) (cpu.mem (cpu.rsp + 8)) :=
  have h := (entersFastSysretq_iff _).2 (Or.inl rfl)
  ⟨h, returnPath_fast_faults _ h⟩

/-- The frame the entry pushes for a caller at RIP `0x400000`, RFLAGS `0x202` and RSP
`0x7FFF_FFFF_F000`, with `ZF` set when the return sequence starts: the RIP is canonical, and
the sequence stops at `ud2` with `r11 = 0x400000` and `rsp = 0x33` instead of returning. -/
theorem returnPath_canonical_frame_faults :
    let cpu : Cpu :=
      { rcx := 0, r11 := 0, rsp := 0x1000, zf := true, cf := false, kernelGs := true,
        gs := fun _ _ => 0,
        mem := fun a => if a = 0x1000 then 0x400000 else if a = 0x1008 then 0x33
          else if a = 0x1010 then 0x202 else if a = 0x1018 then 0x7FFFFFFFF000
          else if a = 0x1020 then 0x2B else 0 }
    cpu.stack 5 = [0x400000, 0x33, 0x202, 0x7FFFFFFFF000, 0x2B] ∧ Canonical 0x400000 ∧
      (returnPath cpu).2 = .fault .invalidOpcode 0x400000 0x400000 0x33 := by
  intro cpu
  refine ⟨by decide, by decide, ?_⟩
  rw [returnPath_of_zf cpu rfl]
  rfl

/-- **The only way back to user mode is `iretq`**: the sequence ends in user mode exactly when
`ZF` was clear on entry and the saved RIP is in the lower half, and then with RIP, RFLAGS and
RSP read from the frame at `rsp`. -/
theorem returnPath_user_iff (rip rflags rsp : Word) :
    (returnPath cpu).2 = .user rip rflags rsp ↔
      cpu.zf = false ∧ cpu.mem cpu.rsp >>> 47 = 0 ∧ rip = cpu.mem cpu.rsp ∧
        rflags = cpu.mem (cpu.rsp + 16) ∧ rsp = cpu.mem (cpu.rsp + 24) := by
  cases hz : cpu.zf
  · by_cases hr : cpu.mem cpu.rsp >>> 47 = 0x1FFFF
    · rw [returnPath_of_high cpu hz hr]
      simp only [reduceCtorEq, false_iff, not_and]
      intro _ h0
      rw [h0] at hr
      exact absurd hr (by decide)
    · rw [returnPath_of_low cpu hz hr]
      by_cases hc : Canonical (cpu.mem cpu.rsp)
      · have h0 : cpu.mem cpu.rsp >>> 47 = 0 := hc.resolve_right hr
        simp only [if_pos hc, Exit.user.injEq, h0, true_and]
        exact ⟨fun ⟨a, b, c⟩ => ⟨a.symm, b.symm, c.symm⟩,
          fun ⟨a, b, c⟩ => ⟨a.symm, b.symm, c.symm⟩⟩
      · simp only [if_neg hc, reduceCtorEq, false_iff, not_and]
        exact fun _ h0 _ _ => absurd (Or.inl h0) hc
  · rw [returnPath_of_zf cpu hz]
    simp

end Paths

/-- **The round trip.** Let the entry run from a user state, and the return sequence start with
the frame the entry pushed on top of its stack. Control returns
to the caller of `syscall`, at its RIP with its RFLAGS and RSP, exactly when `ZF` is clear at the
start of the return sequence and the caller's RIP is in the lower half; every other run stops
in kernel mode. -/
theorem returnPath_after_entry (user k cpu : Cpu) (hg : user.kernelGs = false)
    (hk : runBlock entrySequence user = some k) (hframe : cpu.stack 5 = k.stack 5) :
    (returnPath cpu).2 = .user user.rcx user.r11 user.rsp ↔
      cpu.zf = false ∧ user.rcx >>> 47 = 0 := by
  obtain ⟨k', hk', -, -, hstack⟩ := runBlock_entrySequence user hg
  rw [hk, Option.some.injEq] at hk'
  subst hk'
  obtain ⟨hrip, -, hfl, hsp, -⟩ := (Cpu.stack_five _ _ _ _ _ _).1 (hframe.trans hstack)
  rw [returnPath_user_iff, hrip, hfl, hsp]
  simp

end Homunculi.Arch.X86
