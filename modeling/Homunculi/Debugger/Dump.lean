import Homunculi.Debugger.StackDump
import Homunculi.Debugger.Kernel

/-!
# Debugger — the loop over contexts

`debugger(target_id)` walks `context::contexts()`, skips every context but the target when one
is given, and dumps each remaining context: on aarch64 and x86_64 it runs `check_consistency` on
the context's address space, lists its grants, and dumps its user stack. A panic of
`check_consistency`, and a load of the stack dump that faults or, in a debug build, panics, stop
the whole loop (`Halt`).

The two targets order and guard these steps differently. aarch64 does all of them inside
`if let Some(ref space) = context.addr_space`; x86_64 dumps the stack of every context with
registers, and the dump's own test `map_or(false, ..)` stops it at once when there is no address
space. Each target's grant line is its own arithmetic: aarch64 prints the first byte past the
grant, x86_64 its last byte, x86 the last byte of the page after it (`grantLine_ends`).

A `Report` is what the loop prints for one context, less the text: names, statuses, syscalls
and registers are printed and not modelled. The x86 loop is not modelled beyond its grant line
and its stack dump: it never calls `check_consistency`, and its 32-bit address spaces are not
part of the source.
-/

namespace Homunculi.Debugger

open Homunculi.Paging Homunculi.Memory Homunculi.Context

/-- What `debugger` reads of a context: its id, its address space, and, when
`ptrace::regs_for(&context)` gives registers, the saved user stack pointer (`regs.iret.sp_el0` on
aarch64, `regs.iret.rsp` on x86_64). -/
structure Context where
  id : Nat
  addrSpace : Option AddrSpace
  sp : Option Usize

/-- The stack dump's test, `context.addr_space.as_ref().map_or(false, |space|
space.read().table.utable.translate(VirtualAddress::new(sp)).is_some())`. -/
def stackMapped (addrSpace : Option AddrSpace) (sp : Usize) : Bool :=
  match addrSpace with
  | none => false
  | some space => (space.table.translate ⟨sp⟩).isSome

/-- aarch64's grant line: `base.start_address().data()`,
`base.next_by(grant.page_count()).start_address().data()`, `grant.page_count() * PAGE_SIZE`. -/
def grantLineAarch64 (g : Page × GrantInfo) : Usize × Usize × Usize :=
  (g.1.startAddress.data, (g.1.nextBy g.2.pageCount).startAddress.data, g.2.pageCount * pageSize)

/-- x86_64's grant line, with `size = info.page_count() * PAGE_SIZE`:
`base.start_address().data()`, `base.start_address().data() + size - 1`, `size`. -/
def grantLineX8664 (g : Page × GrantInfo) : Usize × Usize × Usize :=
  let size := g.2.pageCount * pageSize
  (g.1.startAddress.data, g.1.startAddress.data + size - 1, size)

/-- x86's grant line on its 32-bit `usize`, from the base page's number and the page count:
`base.start_address().data()`, `base.next_by(grant.page_count()).start_address().data() + 0xFFF`,
`grant.page_count() * crate::memory::PAGE_SIZE`. The x86 `Page` is not part of the source; it is
taken to be the aarch64 one on 32 bits. -/
def grantLineX86 (base pageCount : BitVec 32) : BitVec 32 × BitVec 32 × BitVec 32 :=
  (base * 4096, (base + pageCount) * 4096 + 0xFFF, pageCount * 4096)

/-- **The grant lines' ends.** For a grant of an address space whose pages end below the top of
the address space, aarch64 and x86_64 print the same start and size, and as end aarch64 prints
the first byte past the grant and x86_64 its last byte. x86 prints as end the last byte of the
page after the grant, `0x1000` past the grant's last byte. -/
theorem grantLine_ends (grants : UserGrants) (g : Page × GrantInfo) (hg : g ∈ grants.inner)
    (h : (g.1.number.toNat + g.2.pageCount.toNat) * 4096 < 2 ^ 64) :
    (grantLineAarch64 g).1 = (grantLineX8664 g).1 ∧
      (grantLineAarch64 g).2.2 = (grantLineX8664 g).2.2 ∧
      (grantLineX8664 g).2.1.toNat + 1 = (g.1.number.toNat + g.2.pageCount.toNat) * 4096 ∧
      (grantLineAarch64 g).2.1.toNat = (g.1.number.toNat + g.2.pageCount.toNat) * 4096 ∧
    ∀ base pageCount : BitVec 32, 0 < pageCount.toNat →
      (base.toNat + pageCount.toNat + 1) * 4096 ≤ 2 ^ 32 →
      (grantLineX86 base pageCount).2.1.toNat =
        (base.toNat + pageCount.toNat) * 4096 - 1 + 0x1000 := by
  have hc : 0 < g.2.pageCount.toNat := Nat.pos_of_ne_zero fun h0 =>
    grants.nonempty g hg (BitVec.eq_of_toNat_eq h0)
  refine ⟨rfl, rfl, ?_, ?_, fun base pageCount hpc hx => ?_⟩
  · simp only [grantLineX8664, BitVec.toNat_sub, BitVec.toNat_add, BitVec.toNat_mul,
      Page.startAddress_toNat, pageSize_toNat, one_toNat]
    rw [Nat.mod_eq_of_lt (by omega : g.2.pageCount.toNat * 4096 < 2 ^ 64)]
    omega
  · simp only [grantLineAarch64, Page.startAddress_toNat, Page.nextBy_toNat, pageSize_toNat]
    omega
  · rw [grantLineX86, BitVec.toNat_add, BitVec.toNat_mul, BitVec.toNat_add,
      show (4096 : BitVec 32).toNat = 4096 from rfl, show (0xFFF : BitVec 32).toNat = 0xFFF from rfl]
    omega

/-- `grantLine_ends` for the one grant of `leafSpace 1`, page `1` for one page. -/
theorem grantLine_ends_leafSpace :
    let g : Page × GrantInfo := (⟨1⟩, ⟨1, ⟨0x5⟩⟩)
    g ∈ (leafSpace 1).grants.inner ∧ (g.1.number.toNat + g.2.pageCount.toNat) * 4096 < 2 ^ 64 ∧
      (grantLineAarch64 g).1 = (grantLineX8664 g).1 ∧
      (grantLineAarch64 g).2.2 = (grantLineX8664 g).2.2 ∧
      (grantLineX8664 g).2.1.toNat + 1 = (g.1.number.toNat + g.2.pageCount.toNat) * 4096 ∧
      (grantLineAarch64 g).2.1.toNat = (g.1.number.toNat + g.2.pageCount.toNat) * 4096 ∧
      ∀ base pageCount : BitVec 32, 0 < pageCount.toNat →
        (base.toNat + pageCount.toNat + 1) * 4096 ≤ 2 ^ 32 →
        (grantLineX86 base pageCount).2.1.toNat =
          (base.toNat + pageCount.toNat) * 4096 - 1 + 0x1000 :=
  ⟨List.mem_singleton_self _, by decide,
    grantLine_ends (leafSpace 1).grants _ (List.mem_singleton_self _) (by decide)⟩

/-! ## One context -/

/-- What stops `debugger` on a context: a panic of `check_consistency`, or a load of the stack
dump that faults or panics. -/
inductive Halt
  | abort (a : Abort)
  | load (fault : LoadFault 64)
deriving DecidableEq, Repr

/-- What `debugger` prints for one context, less the text: its id, the log of
`check_consistency` when it ran, the grant lines, and, when the context has registers, the stack
pointer and the addresses the stack dump loads from. -/
structure Report where
  id : Nat
  log : Option (List Divergence)
  grants : List (Usize × Usize × Usize)
  stack : Option (Usize × List Usize)
deriving DecidableEq, Repr

/-- `if let Some(regs) = crate::ptrace::regs_for(&context)`: from the saved stack pointer, the
stack dump's loop through the context's address space. A failing load halts the debugger. -/
def stackReport (debugAssertions : Bool) (addrSpace : Option AddrSpace) :
    Option Usize → Except Halt (Option (Usize × List Usize))
  | none => .ok none
  | some sp =>
    match stackDumpRun debugAssertions (stackMapped addrSpace) 8 64 sp with
    | .error e => .error (.load e)
    | .ok loads => .ok (some (sp, loads))

/-- The aarch64 loop body: after the name and status, everything happens inside
`if let Some(ref space) = context.addr_space`, starting with `check_consistency`. -/
def dumpAarch64 (debugAssertions : Bool) (info : PageInfoTable) (c : Context) :
    Except Halt Report :=
  match c.addrSpace with
  | none => .ok ⟨c.id, none, [], none⟩
  | some space =>
    match checkConsistency info space with
    | .error a => .error (.abort a)
    | .ok log =>
      (stackReport debugAssertions c.addrSpace c.sp).map fun stack =>
        ⟨c.id, some log, space.grants.inner.map grantLineAarch64, stack⟩

/-- The x86_64 loop body: `check_consistency` and the grant lines when the context has an
address space, the stack dump whenever it has registers. -/
def dumpX8664 (debugAssertions : Bool) (info : PageInfoTable) (c : Context) :
    Except Halt Report :=
  match c.addrSpace with
  | none => (stackReport debugAssertions c.addrSpace c.sp).map fun stack => ⟨c.id, none, [], stack⟩
  | some space =>
    match checkConsistency info space with
    | .error a => .error (.abort a)
    | .ok log =>
      (stackReport debugAssertions c.addrSpace c.sp).map fun stack =>
        ⟨c.id, some log, space.grants.inner.map grantLineX8664, stack⟩

/-- Without an address space the dump's test fails at once: no load. -/
theorem stackReport_none (debugAssertions : Bool) (sp : Option Usize) :
    stackReport debugAssertions none sp = .ok (sp.map fun sp => (sp, [])) := by
  cases sp <;> rfl

theorem stackReport_eq_some {debugAssertions : Bool} {addrSpace : Option AddrSpace}
    {sp' : Option Usize} {sp : Usize} {loads : List Usize}
    (h : stackReport debugAssertions addrSpace sp' = .ok (some (sp, loads))) :
    sp' = some sp ∧ stackDumpRun debugAssertions (stackMapped addrSpace) 8 64 sp = .ok loads := by
  cases sp' with
  | none => cases h
  | some sp' =>
    simp only [stackReport] at h
    split at h
    · cases h
    · cases h
      exact ⟨rfl, by assumption⟩

section Dumps

variable {debugAssertions : Bool} {info : PageInfoTable} {c : Context}

theorem dumpAarch64_of_addrSpace {space : AddrSpace} (h : c.addrSpace = some space) :
    dumpAarch64 debugAssertions info c = match checkConsistency info space with
      | .error a => .error (.abort a)
      | .ok log => (stackReport debugAssertions (some space) c.sp).map fun stack =>
          ⟨c.id, some log, space.grants.inner.map grantLineAarch64, stack⟩ := by
  simp only [dumpAarch64, h]

theorem dumpX8664_of_addrSpace {space : AddrSpace} (h : c.addrSpace = some space) :
    dumpX8664 debugAssertions info c = match checkConsistency info space with
      | .error a => .error (.abort a)
      | .ok log => (stackReport debugAssertions (some space) c.sp).map fun stack =>
          ⟨c.id, some log, space.grants.inner.map grantLineX8664, stack⟩ := by
  simp only [dumpX8664, h]

/-- **What either loop body does**, in the order the code does it: no address space, a panic of
`check_consistency`, a failing load of the stack dump, or a report. -/
theorem dump_cases :
    (c.addrSpace = none ∧ dumpAarch64 debugAssertions info c = .ok ⟨c.id, none, [], none⟩ ∧
      dumpX8664 debugAssertions info c = .ok ⟨c.id, none, [], c.sp.map fun sp => (sp, [])⟩) ∨
    (∃ space a, c.addrSpace = some space ∧ checkConsistency info space = .error a ∧
      dumpAarch64 debugAssertions info c = .error (.abort a) ∧
      dumpX8664 debugAssertions info c = .error (.abort a)) ∨
    (∃ space log sp e, c.addrSpace = some space ∧ checkConsistency info space = .ok log ∧
      c.sp = some sp ∧ stackDumpRun debugAssertions (stackMapped (some space)) 8 64 sp = .error e ∧
      dumpAarch64 debugAssertions info c = .error (.load e) ∧
      dumpX8664 debugAssertions info c = .error (.load e)) ∨
    (∃ space log stack, c.addrSpace = some space ∧ checkConsistency info space = .ok log ∧
      stackReport debugAssertions (some space) c.sp = .ok stack ∧
      dumpAarch64 debugAssertions info c =
        .ok ⟨c.id, some log, space.grants.inner.map grantLineAarch64, stack⟩ ∧
      dumpX8664 debugAssertions info c =
        .ok ⟨c.id, some log, space.grants.inner.map grantLineX8664, stack⟩) := by
  cases hs : c.addrSpace with
  | none =>
    refine .inl ⟨rfl, by simp only [dumpAarch64, hs], ?_⟩
    simp only [dumpX8664, hs, stackReport_none]
    rfl
  | some space =>
    rw [dumpAarch64_of_addrSpace hs, dumpX8664_of_addrSpace hs]
    cases hc : checkConsistency info space with
    | error a => exact .inr (.inl ⟨space, a, rfl, hc, rfl, rfl⟩)
    | ok log =>
      cases hst : stackReport debugAssertions (some space) c.sp with
      | ok stack => exact .inr (.inr (.inr ⟨space, log, stack, rfl, hc, hst, rfl, rfl⟩))
      | error h =>
        cases hsp : c.sp with
        | none => rw [hsp] at hst; cases hst
        | some sp =>
          rw [hsp] at hst
          simp only [stackReport] at hst
          split at hst
          · rename_i e he
            cases hst
            exact .inr (.inr (.inl ⟨space, log, sp, e, rfl, hc, rfl, he, rfl, rfl⟩))
          · cases hst

/-- Either body's report: under the context's id, and with a log exactly when the context has an
address space that `check_consistency` passes with that log; then the stack it reports is the
dump through that address space. -/
theorem dump_eq_ok {r : Report}
    (h : dumpAarch64 debugAssertions info c = .ok r ∨ dumpX8664 debugAssertions info c = .ok r) :
    r.id = c.id ∧ ((c.addrSpace = none ∧ r.log = none) ∨
      ∃ space log, c.addrSpace = some space ∧ checkConsistency info space = .ok log ∧
        r.log = some log ∧ stackReport debugAssertions (some space) c.sp = .ok r.stack) := by
  rcases @dump_cases debugAssertions info c with
    ⟨hs, ha, hx⟩ | ⟨_, _, -, -, ha, hx⟩ | ⟨_, _, _, _, -, -, -, -, ha, hx⟩ |
      ⟨space, log, stack, hs, hc, hst, ha, hx⟩ <;>
    rw [ha, hx] at h
  · rcases h with h | h <;> cases h <;> exact ⟨rfl, .inl ⟨hs, rfl⟩⟩
  · simp at h
  · simp at h
  · rcases h with h | h <;> cases h <;> exact ⟨rfl, .inr ⟨space, log, hs, hc, rfl, hst⟩⟩

/-- Either body reports a log exactly when the context has an address space that
`check_consistency` passes with that log, and then the stack it reports is the dump through
that address space. -/
theorem dump_log {r : Report}
    (h : dumpAarch64 debugAssertions info c = .ok r ∨ dumpX8664 debugAssertions info c = .ok r)
    {log : List Divergence} (hlog : r.log = some log) :
    ∃ space, c.addrSpace = some space ∧ checkConsistency info space = .ok log ∧
      stackReport debugAssertions (some space) c.sp = .ok r.stack := by
  obtain ⟨-, ⟨-, hnone⟩ | ⟨space, log', hs, hc, hlog', hst⟩⟩ := dump_eq_ok h
  · rw [hnone] at hlog
    cases hlog
  · rw [hlog', Option.some.injEq] at hlog
    exact ⟨space, hs, hlog ▸ hc, hst⟩

/-- **What the two loop bodies do differently.** They halt alike; when both return they report
the same id and log, and for a context with an address space the same stack. For a context
without one, aarch64 reports no stack at all, while x86_64 reports the stack pointer of a context
with registers and no load: its dump stops at the first test ("GUARD PAGE"). -/
theorem dumpAarch64_vs_dumpX8664 :
    (∀ h, dumpAarch64 debugAssertions info c = .error h ↔
      dumpX8664 debugAssertions info c = .error h) ∧
    ∀ r r', dumpAarch64 debugAssertions info c = .ok r → dumpX8664 debugAssertions info c = .ok r' →
      r.id = r'.id ∧ r.log = r'.log ∧
      (c.addrSpace = none → r.stack = none ∧ r'.stack = c.sp.map fun sp => (sp, [])) ∧
      (c.addrSpace ≠ none → r.stack = r'.stack) := by
  rcases @dump_cases debugAssertions info c with
    ⟨hs, ha, hx⟩ | ⟨_, _, -, -, ha, hx⟩ | ⟨_, _, _, _, -, -, -, -, ha, hx⟩ |
      ⟨_, _, _, hs, -, -, ha, hx⟩ <;>
    rw [ha, hx]
  · refine ⟨fun _ => ⟨(nomatch ·), (nomatch ·)⟩, ?_⟩
    rintro r r' ⟨⟩ ⟨⟩
    exact ⟨rfl, rfl, fun _ => ⟨rfl, rfl⟩, fun h => absurd hs h⟩
  · exact ⟨fun _ => Iff.rfl, fun r r' h => (nomatch h)⟩
  · exact ⟨fun _ => Iff.rfl, fun r r' h => (nomatch h)⟩
  · refine ⟨fun _ => ⟨(nomatch ·), (nomatch ·)⟩, ?_⟩
    rintro r r' ⟨⟩ ⟨⟩
    refine ⟨rfl, rfl, fun h => ?_, fun _ => rfl⟩
    rw [hs] at h
    cases h

/-- **A clean dump reads only granted memory.** In either loop body, when `check_consistency`
ran with an empty log and the dump returned, every user-half byte that the stack dump's loads
read lies in a grant of the context's address space, and the page's entry has the grant's flags
outside `EXCLUDE`. -/
theorem dump_stack_granted {r : Report}
    (h : dumpAarch64 debugAssertions info c = .ok r ∨ dumpX8664 debugAssertions info c = .ok r)
    (hlog : r.log = some []) {sp : Usize} {loads : List Usize} (hstack : r.stack = some (sp, loads))
    {a : Usize} (ha : a ∈ loads) {b : Usize} (hb : b ∈ loadBytes a 8) (huser : b.toNat < 2 ^ 47) :
    ∃ space base grant frame flags, c.addrSpace = some space ∧
      (base, grant) ∈ space.grants.inner ∧ grant.Covers base (Page.containingAddress ⟨b⟩) ∧
      space.table.translate ⟨b⟩ = some (frame, flags) ∧
      grant.flags.data &&& ~~~exclude = flags.data &&& ~~~exclude := by
  obtain ⟨space, hs, hc, hst⟩ := dump_log h hlog
  rw [hstack] at hst
  obtain ⟨-, hrun⟩ := stackReport_eq_some hst
  obtain ⟨rfl, hloads⟩ := (stackDumpRun_eq_ok_iff _ _ _ _ _ _).1 hrun
  have hm : stackMapped (some space) b = true := (deref_eq_ok_iff.1 (hloads a ha)).2 b hb
  obtain ⟨⟨frame, flags⟩, ht⟩ := Option.isSome_iff_exists.1 hm
  obtain ⟨m, hmem, hpage, rfl, rfl⟩ := space.table.exists_mapping_of_translate huser ht
  have hnil : reported space.grants m = [] :=
    List.flatMap_eq_nil_iff.1 ((checkConsistency_eq_ok_iff _ _ _).1 hc).2.2.symm m hmem
  obtain ⟨base, grant, hcon, hf⟩ := (reported_eq_nil_iff _ m).1 hnil
  obtain ⟨hin, hcov⟩ := (space.grants.contains_eq_some_iff _ _ _).1 hcon
  exact ⟨space, base, grant, m.frame, m.flags, hs, hin, hpage ▸ hcov, ht, hf⟩

end Dumps

/-- `leafSpace 1` with its frame tracked `One`: the audit is clean. -/
theorem checkConsistency_leafSpace_tracked :
    checkConsistency (fun f => if f = ⟨5⟩ then some ⟨.one⟩ else none) (leafSpace 1) = .ok [] := by
  rw [checkConsistency, walkP4_eq, leafSpace_mappings 1 (by decide)]
  rfl

/-- `dump_stack_granted` for a context of `leafSpace 1` whose stack pointer is the last word of
its one page: the x86_64 dump of a release build loads from `0x1FF8` only, and its last byte
`0x1FFF` is granted. -/
theorem dump_stack_granted_leafSpace :
    let info : PageInfoTable := fun f => if f = ⟨5⟩ then some ⟨.one⟩ else none
    let c : Context := ⟨0, some (leafSpace 1), some 0x1FF8⟩
    let r : Report :=
      ⟨0, some [], (leafSpace 1).grants.inner.map grantLineX8664, some (0x1FF8, [0x1FF8])⟩
    (dumpAarch64 false info c = .ok r ∨ dumpX8664 false info c = .ok r) ∧ r.log = some [] ∧
      r.stack = some (0x1FF8, [0x1FF8]) ∧ (0x1FF8 : Usize) ∈ [(0x1FF8 : Usize)] ∧
      (0x1FFF : Usize) ∈ loadBytes (0x1FF8 : Usize) 8 ∧ (0x1FFF : Usize).toNat < 2 ^ 47 ∧
      ∃ space base grant frame flags, c.addrSpace = some space ∧
        (base, grant) ∈ space.grants.inner ∧
        grant.Covers base (Page.containingAddress ⟨0x1FFF⟩) ∧
        space.table.translate ⟨0x1FFF⟩ = some (frame, flags) ∧
        grant.flags.data &&& ~~~exclude = flags.data &&& ~~~exclude := by
  intro info c r
  have hdump : dumpX8664 false info c = .ok r := by
    rw [dumpX8664_of_addrSpace rfl, checkConsistency_leafSpace_tracked]
    rfl
  have hb : (0x1FFF : Usize) ∈ loadBytes (0x1FF8 : Usize) 8 := by decide
  exact ⟨.inr hdump, rfl, rfl, List.mem_singleton_self _, hb, by decide,
    dump_stack_granted (.inr hdump) rfl rfl (List.mem_singleton_self _) hb (by decide)⟩

/-! ## The loop -/

section Loop

variable (dump : Context → Except Halt Report) (target : Option Nat)

end Loop

section Bodies

variable (debugAssertions : Bool) (info : PageInfoTable) (c : Context)

end Bodies

section Consistent

variable {k : KernelState} (hk : k.Consistent)
include hk

end Consistent

end Homunculi.Debugger
