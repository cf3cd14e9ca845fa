import Homunculi.Debugger.Audit

/-!
# Debugger — the stack dump

After the registers, `debugger` dumps a context's user stack. From the saved stack pointer
(`sp_el0` on aarch64, `rsp` on x86_64, `esp` on x86) it loads up to 64 `usize`s, stepping by
`size_of::<usize>()`. Before each load it asks the context's user table whether `sp` is mapped,
`translate(VirtualAddress::new(sp)).is_some()`, and stops at the first unmapped `sp`
("GUARD PAGE") or when `sp.checked_add(size_of::<usize>())` fails ("OVERFLOW").

The three targets run the same loop with their own `usize`. `stackDump` is that loop's control
over an `n`-bit word and a mapping test: the test, `checked_add`, and the addresses it loads from
when each load returns. Each target's dump applies it to its own values. The `println!`s are not
modelled.

The test looks at the first byte of each load only. `stackDump_loadsMapped` says when that is
enough: when `sp` is a multiple of the load size, every load stays inside one page. The load
itself, `deref`, reads all the bytes and can fail: a page fault on a byte of an unmapped page,
and in a debug build a panic on a misaligned `sp`. `stackDumpRun` is the loop with the load, a
`mapM` of `deref` over `stackDump` (`stackDumpRun_eq_mapM`). `stackDumpRun_outcome` says how it
ends: in a release build only the last load can fault.
-/

namespace Homunculi.Debugger

open Homunculi.Paging

/-- `a.checked_add(b)` on an `n`-bit `usize`: `None` past `usize::MAX`. -/
def checkedAdd {n : Nat} (a b : BitVec n) : Option (BitVec n) :=
  if a.toNat + b.toNat < 2 ^ n then some (a + b) else none

@[simp] theorem checkedAdd_eq_none {n : Nat} (a b : BitVec n) :
    checkedAdd a b = none ↔ 2 ^ n ≤ a.toNat + b.toNat := by
  unfold checkedAdd
  split <;> simp_all

@[simp] theorem checkedAdd_eq_some {n : Nat} (a b c : BitVec n) :
    checkedAdd a b = some c ↔ a.toNat + b.toNat < 2 ^ n ∧ a + b = c := by
  unfold checkedAdd
  split <;> simp_all

/-- The control of the loop `for _ in 0..fuel` of the stack dump, from `sp`, with loads of `size`
bytes and the mapping test `isMapped`: the addresses it loads from, in order, when every load
returns. -/
def stackDump {n : Nat} (isMapped : BitVec n → Bool) (size : BitVec n) :
    Nat → BitVec n → List (BitVec n)
  | 0, _ => []
  | fuel + 1, sp =>
    if isMapped sp then
      sp :: match checkedAdd sp size with
        | some next => stackDump isMapped size fuel next
        | none => []
    else []

/-- The addresses the aarch64 dump loads from: `sp = regs.iret.sp_el0`, at most 64 loads of 8
bytes, the context's user table. -/
def stackDumpAarch64 (utable : PageTable4) (sp : Usize) : List Usize :=
  stackDump (fun sp => (utable.translate ⟨sp⟩).isSome) 8 64 sp

/-- The addresses the x86_64 dump loads from: `rsp = regs.iret.rsp`, at most 64 loads of 8 bytes,
the context's user table. -/
def stackDumpX8664 (utable : PageTable4) (rsp : Usize) : List Usize :=
  stackDump (fun rsp => (utable.translate ⟨rsp⟩).isSome) 8 64 rsp

/-- The addresses the x86 dump loads from: `esp = regs.iret.esp`, at most 64 loads of 4 bytes on
a 32-bit `usize`. The 32-bit user table is not modelled: its `translate(..).is_some()` is the
parameter `isMapped`. -/
def stackDumpX86 (isMapped : BitVec 32 → Bool) (esp : BitVec 32) : List (BitVec 32) :=
  stackDump isMapped 4 64 esp

/-- The bytes `*(sp as *const usize)` reads: `sp, sp + 1, …, sp + size - 1`. -/
def loadBytes {n : Nat} (sp : BitVec n) (size : Nat) : List (BitVec n) :=
  (List.range size).map fun j => sp + BitVec.ofNat n j

/-- Every byte of every load is one the mapping test calls mapped. -/
def LoadsMapped {n : Nat} (isMapped : BitVec n → Bool) (size : Nat) (loads : List (BitVec n)) :
    Prop :=
  ∀ sp ∈ loads, ∀ b ∈ loadBytes sp size, isMapped b = true

/-- A mapping test that sees only the 4 KiB page of an address, as `translate` does. -/
def PageGranular {n : Nat} (isMapped : BitVec n → Bool) : Prop :=
  ∀ a b : BitVec n, a.toNat / 4096 = b.toNat / 4096 → isMapped a = isMapped b

theorem translate_pageGranular (utable : PageTable4) :
    PageGranular fun sp => (utable.translate ⟨sp⟩).isSome :=
  fun _ _ h => congrArg Option.isSome (utable.translate_eq_of_page h)

section Loop

variable {n : Nat} (isMapped : BitVec n → Bool) (size : BitVec n)

/-- **The run**: every address the dump loads from passed the mapping test, and is the `i`-th
step from `sp` for some `i < fuel`, with no step past `usize::MAX`. -/
theorem mem_stackDump {fuel : Nat} {sp a : BitVec n} (h : a ∈ stackDump isMapped size fuel sp) :
    isMapped a = true ∧ ∃ i < fuel, a.toNat = sp.toNat + i * size.toNat := by
  induction fuel generalizing sp with
  | zero => cases h
  | succ fuel ih =>
    simp only [stackDump] at h
    split at h
    · rename_i hm
      rcases List.mem_cons.1 h with rfl | h
      · exact ⟨hm, 0, Nat.succ_pos _, by simp⟩
      · split at h
        · rename_i next hnext
          obtain ⟨hlt, rfl⟩ := (checkedAdd_eq_some _ _ _).1 hnext
          obtain ⟨ha, i, hi, hai⟩ := ih h
          refine ⟨ha, i + 1, by omega, ?_⟩
          rw [hai, BitVec.toNat_add, Nat.mod_eq_of_lt hlt, Nat.succ_mul]
          omega
        · cases h
    · cases h

/-- At most `fuel` loads: "Maximum 64 usizes". -/
theorem stackDump_length_le (fuel : Nat) (sp : BitVec n) :
    (stackDump isMapped size fuel sp).length ≤ fuel := by
  induction fuel generalizing sp with
  | zero => exact Nat.le_refl 0
  | succ fuel ih =>
    simp only [stackDump]
    split
    · split
      · exact Nat.succ_le_succ (ih _)
      · exact Nat.succ_le_succ (Nat.zero_le _)
    · exact Nat.zero_le _

/-- The words `sp, sp + size, sp + 2 * size, …`, the first `fuel` of them, as far as they lie
below `2 ^ n`: the addresses a dump may load from, in order. -/
def stackWords (fuel : Nat) (sp : BitVec n) : List (BitVec n) :=
  ((List.range fuel).filter fun i => decide (sp.toNat + i * size.toNat < 2 ^ n)).map
    fun i => sp + BitVec.ofNat n (i * size.toNat)

theorem stackWords_succ (fuel : Nat) (sp : BitVec n) :
    stackWords size (fuel + 1) sp =
      sp :: if sp.toNat + size.toNat < 2 ^ n then stackWords size fuel (sp + size) else [] := by
  have hsp := sp.isLt
  rw [stackWords, List.range_succ_eq_map, List.filter_cons,
    if_pos (by simpa only [Nat.zero_mul, Nat.add_zero, decide_eq_true_eq] using hsp),
    List.map_cons, List.filter_map, List.map_map, Nat.zero_mul, BitVec.add_zero]
  congr 1
  split_ifs with h
  · rw [stackWords, List.filter_congr fun i _ => ?_]
    · refine List.map_congr_left fun i _ => ?_
      rw [Function.comp, Nat.succ_mul, ← BitVec.ofNat_add_ofNat, BitVec.ofNat_toNat,
        BitVec.setWidth_eq, BitVec.add_comm (BitVec.ofNat n _), BitVec.add_assoc]
    · simp only [Function.comp, Nat.succ_mul, BitVec.toNat_add, Nat.mod_eq_of_lt h]
      generalize i * size.toNat = t
      simp only [decide_eq_decide]
      omega
  · rw [List.filter_eq_nil_iff.2 fun i _ => ?_, List.map_nil]
    simp only [Function.comp, Nat.succ_mul, decide_eq_true_eq]
    omega

/-- **The dump is the mapped prefix of the stack words**: the loop loads exactly the words
`sp, sp + size, …` up to the first one the test calls unmapped (its "GUARD PAGE"), at most `fuel`
of them and none past `usize::MAX` (its "OVERFLOW"). -/
theorem stackDump_eq_takeWhile (fuel : Nat) (sp : BitVec n) :
    stackDump isMapped size fuel sp = (stackWords size fuel sp).takeWhile isMapped := by
  induction fuel generalizing sp with
  | zero => rfl
  | succ fuel ih =>
    rw [stackDump, stackWords_succ, List.takeWhile_cons]
    by_cases hm : isMapped sp = true
    · rw [if_pos hm, if_pos hm]
      congr 1
      cases hc : checkedAdd sp size with
      | none =>
        rw [if_neg (by simpa only [checkedAdd_eq_none, not_lt] using hc)]
        rfl
      | some next =>
        obtain ⟨hlt, rfl⟩ := (checkedAdd_eq_some _ _ _).1 hc
        rw [if_pos hlt]
        exact ih _
    · rw [if_neg hm, if_neg hm]

end Loop

/-- A load that starts at least `size` bytes below the end of its page reads only that page. -/
theorem loadBytes_page {n : Nat} (hn : 12 ≤ n) {sp : BitVec n} {size : Nat}
    (h : sp.toNat % 4096 + size ≤ 4096) :
    ∀ b ∈ loadBytes sp size, b.toNat / 4096 = sp.toNat / 4096 := by
  have hsp := sp.isLt
  have hpow : 2 ^ n = 2 ^ (n - 12) * 4096 := by
    rw [show 4096 = 2 ^ 12 from rfl, ← Nat.pow_add, Nat.sub_add_cancel hn]
  have htop : sp.toNat / 4096 < 2 ^ (n - 12) := by
    rw [Nat.div_lt_iff_lt_mul (by decide), ← hpow]
    exact hsp
  simp only [loadBytes, List.mem_map, List.mem_range]
  rintro b ⟨j, hj, rfl⟩
  have hj' : j < 2 ^ n := by omega
  rw [BitVec.toNat_add, BitVec.toNat_ofNat, Nat.mod_eq_of_lt hj', Nat.mod_eq_of_lt (by omega)]
  omega

/-- Modulo a page, a multiple of `size` (itself dividing the page) leaves room for `size`
bytes. -/
theorem mod_page_add_le {a size : Nat} (hsize : size ∣ 4096) (ha : size ∣ a) :
    a % 4096 + size ≤ 4096 := by
  obtain ⟨u, hu⟩ := (Nat.dvd_mod_iff hsize).2 ha
  obtain ⟨v, hv⟩ := hsize
  have hlt : a % 4096 < 4096 := Nat.mod_lt _ (by decide)
  rw [hu] at hlt ⊢
  rw [hv] at hlt ⊢
  have huv : u + 1 ≤ v := Nat.lt_of_mul_lt_mul_left hlt
  calc size * u + size = size * (u + 1) := by rw [Nat.mul_succ]
    _ ≤ size * v := Nat.mul_le_mul_left _ huv

/-- **Aligned stacks are safe**: for a page-granular mapping test and a load size dividing the
page, a dump from a multiple of the load size reads only mapped bytes. -/
theorem stackDump_loadsMapped {n : Nat} (hn : 12 ≤ n) {isMapped : BitVec n → Bool}
    (hgran : PageGranular isMapped) {size : BitVec n} (hsize : size.toNat ∣ 4096) (fuel : Nat)
    {sp : BitVec n} (halign : size.toNat ∣ sp.toNat) :
    LoadsMapped isMapped size.toNat (stackDump isMapped size fuel sp) := by
  intro a ha b hb
  obtain ⟨hm, i, -, hai⟩ := mem_stackDump isMapped size ha
  have hdiv : size.toNat ∣ a.toNat := by
    rw [hai]
    exact Nat.dvd_add halign (Nat.dvd_mul_left _ _)
  rw [hgran b a (loadBytes_page hn (mod_page_add_le hsize hdiv) b hb), hm]

/-- The 64-bit dumps from an 8-byte-aligned stack pointer read only mapped bytes, whatever the
user table. -/
theorem stackDump64_aligned (utable : PageTable4) (sp : Usize) (halign : sp.toNat % 8 = 0) :
    LoadsMapped (fun sp => (utable.translate ⟨sp⟩).isSome) 8 (stackDumpAarch64 utable sp) ∧
      LoadsMapped (fun sp => (utable.translate ⟨sp⟩).isSome) 8 (stackDumpX8664 utable sp) :=
  have h := @stackDump_loadsMapped 64 (by decide) _ (translate_pageGranular utable) 8
    (by decide) 64 sp (Nat.dvd_of_mod_eq_zero halign)
  ⟨h, h⟩

/-- `stackDump64_aligned` for a user table mapping page `1` and the stack pointer `0x1000`. -/
theorem stackDump64_aligned_singleLeaf :
    let utable : PageTable4 := singleLeaf 1 ⟨.ok ⟨0x5000⟩, ⟨0x5⟩⟩
    (0x1000 : Usize).toNat % 8 = 0 ∧
      LoadsMapped (fun sp => (utable.translate ⟨sp⟩).isSome) 8 (stackDumpAarch64 utable 0x1000) ∧
      LoadsMapped (fun sp => (utable.translate ⟨sp⟩).isSome) 8 (stackDumpX8664 utable 0x1000) :=
  ⟨by decide, stackDump64_aligned _ 0x1000 (by decide)⟩

/-- A user table with page `1`, `[0x1000, 0x2000)`, mapped and page `2` unmapped, and a stack
pointer four bytes below the end of page `1`: both 64-bit dumps make one load, which passes
the test on its first byte and reads `0x2000`, a byte of the unmapped page. -/
theorem stackDump_reads_unmapped :
    let utable : PageTable4 := singleLeaf 1 ⟨.ok ⟨0x5000⟩, ⟨0x5⟩⟩
    stackDumpAarch64 utable 0x1FFC = [0x1FFC] ∧ stackDumpX8664 utable 0x1FFC = [0x1FFC] ∧
      (utable.translate ⟨0x1FFC⟩).isSome ∧ 0x2000 ∈ loadBytes (0x1FFC : Usize) 8 ∧
      utable.translate ⟨0x2000⟩ = none := by
  decide

/-! ## The load -/

/-- How `*(sp as *const usize)` fails to return. -/
inductive LoadFault (n : Nat)
  /-- A debug build checks a raw pointer's alignment before it reads through it, and panics with
  "misaligned pointer dereference" when `sp` is not a multiple of `align_of::<usize>()`, which is
  `size_of::<usize>()`. -/
  | misaligned (sp : BitVec n)
  /-- The load reads a byte of a page the table does not map: a page fault at that byte. -/
  | pageFault (address : BitVec n)
deriving DecidableEq, Repr

/-- `*(sp as *const usize)`: in a debug build the alignment check, then the read of the `size`
bytes from `sp`, which faults at the first byte `isMapped` calls unmapped. The loop runs with the
context's table current (`RmmA::set_table`), so the read goes through the table the test asks. -/
def deref {n : Nat} (debugAssertions : Bool) (isMapped : BitVec n → Bool) (size sp : BitVec n) :
    Except (LoadFault n) Unit :=
  if debugAssertions && sp.toNat % size.toNat != 0 then .error (.misaligned sp)
  else
    match (loadBytes sp size.toNat).find? fun b => !isMapped b with
    | some b => .error (.pageFault b)
    | none => .ok ()

section Deref

variable {n : Nat} {debugAssertions : Bool} {isMapped : BitVec n → Bool} {size sp : BitVec n}

/-- The load returns exactly when every byte it reads is mapped and, in a debug build, `sp` is
aligned. -/
theorem deref_eq_ok_iff :
    deref debugAssertions isMapped size sp = .ok () ↔
      (debugAssertions = true → sp.toNat % size.toNat = 0) ∧
        ∀ b ∈ loadBytes sp size.toNat, isMapped b = true := by
  unfold deref
  split
  · rename_i h
    simp only [Bool.and_eq_true, bne_iff_ne] at h
    simp only [reduceCtorEq, false_iff, not_and]
    exact fun hal => absurd (hal h.1) h.2
  · rename_i h
    have hal : debugAssertions = true → sp.toNat % size.toNat = 0 := by
      simpa only [Bool.and_eq_true, bne_iff_ne, not_and, not_not] using h
    cases hf : (loadBytes sp size.toNat).find? fun b => !isMapped b with
    | some b =>
      simp only [reduceCtorEq, false_iff, not_and]
      intro _ hall
      have := List.find?_some hf
      rw [hall b (List.mem_of_find?_eq_some hf)] at this
      cases this
    | none =>
      simp only [List.find?_eq_none, Bool.not_eq_true', Bool.not_eq_false] at hf
      exact iff_of_true rfl ⟨hal, hf⟩

end Deref

/-- The stack dump's loop as the code runs it: the test, the load, then `checked_add`. It
returns the addresses it loaded from, or the first load's failure. -/
def stackDumpRun {n : Nat} (debugAssertions : Bool) (isMapped : BitVec n → Bool) (size : BitVec n) :
    Nat → BitVec n → Except (LoadFault n) (List (BitVec n))
  | 0, _ => .ok []
  | fuel + 1, sp =>
    if isMapped sp then
      match deref debugAssertions isMapped size sp with
      | .error e => .error e
      | .ok _ =>
        match checkedAdd sp size with
        | some next => (stackDumpRun debugAssertions isMapped size fuel next).map (sp :: ·)
        | none => .ok [sp]
    else .ok []

/-! ## Runs that stop at the first failure -/

section FirstFailure

variable {ε α β : Type} (f : α → Except ε β)

theorem mapM_nil_eq : ([] : List α).mapM f = .ok [] := rfl

theorem mapM_cons_eq (a : α) (l : List α) :
    (a :: l).mapM f = match f a, l.mapM f with
      | .error e, _ => .error e
      | .ok _, .error e => .error e
      | .ok b, .ok bs => .ok (b :: bs) := by
  rw [List.mapM_cons]
  cases f a <;> cases l.mapM f <;> rfl

/-- A `mapM` in `Except` returns exactly when no step fails, with the steps' results. -/
theorem mapM_eq_ok_iff (l : List α) (rs : List β) :
    l.mapM f = .ok rs ↔ l.map f = rs.map .ok := by
  induction l generalizing rs with
  | nil =>
    rw [mapM_nil_eq]
    cases rs <;> simp
  | cons a l ih =>
    rw [mapM_cons_eq]
    cases hf : f a with
    | error e => cases rs <;> simp [hf]
    | ok b =>
      cases hl : l.mapM f with
      | error e =>
        refine ⟨fun h => (nomatch h), fun h => ?_⟩
        cases rs with
        | nil => cases h
        | cons r rs =>
          rw [List.map_cons, List.map_cons, List.cons.injEq] at h
          rw [(ih rs).2 h.2] at hl
          cases hl
      | ok bs =>
        cases rs with
        | nil => simp
        | cons r rs => simp only [List.map_cons, List.cons.injEq, Except.ok.injEq, ← ih rs, hl, hf]

/-- A run of checks, each returning what it checked, returns its input when every check
passes. -/
theorem mapM_check_eq_ok_iff (p : α → Except ε Unit) (l rs : List α) :
    l.mapM (fun a => (p a).map fun _ => a) = .ok rs ↔ rs = l ∧ ∀ a ∈ l, p a = .ok () := by
  have step : ∀ a r, (p a).map (fun _ => a) = .ok r ↔ p a = .ok () ∧ a = r := fun a r => by
    cases p a <;> simp [Except.map]
  rw [mapM_eq_ok_iff]
  induction l generalizing rs with
  | nil => cases rs <;> simp
  | cons a l ih =>
    cases rs with
    | nil => simp
    | cons r rs =>
      simp only [List.map_cons, List.cons.injEq, step, ih, List.forall_mem_cons]
      exact ⟨fun ⟨⟨h1, h2⟩, h3, h4⟩ => ⟨⟨h2.symm, h3⟩, h1, h4⟩,
        fun ⟨⟨h1, h2⟩, h3, h4⟩ => ⟨⟨h3, h1.symm⟩, h2, h4⟩⟩

end FirstFailure

/-! ## The loop with its loads -/

section Run

variable {n : Nat} (debugAssertions : Bool) (isMapped : BitVec n → Bool) (size : BitVec n)

/-- **The loop is its control with the loads.** Running the loop is running `deref` over the
addresses `stackDump` loads from, in order, stopping at the first failure. -/
theorem stackDumpRun_eq_mapM (fuel : Nat) (sp : BitVec n) :
    stackDumpRun debugAssertions isMapped size fuel sp =
      (stackDump isMapped size fuel sp).mapM fun a =>
        (deref debugAssertions isMapped size a).map fun _ => a := by
  induction fuel generalizing sp with
  | zero => rfl
  | succ fuel ih =>
    rw [stackDumpRun, stackDump]
    split
    · rw [mapM_cons_eq]
      cases deref debugAssertions isMapped size sp with
      | error e => rfl
      | ok u =>
        cases checkedAdd sp size with
        | none => rfl
        | some next =>
          dsimp only
          rw [ih]
          cases (stackDump isMapped size fuel next).mapM fun a =>
            (deref debugAssertions isMapped size a).map fun _ => a <;> rfl
    · rfl

theorem stackDumpRun_eq_ok_iff (fuel : Nat) (sp : BitVec n) (loads : List (BitVec n)) :
    stackDumpRun debugAssertions isMapped size fuel sp = .ok loads ↔
      loads = stackDump isMapped size fuel sp ∧
        ∀ a ∈ stackDump isMapped size fuel sp, deref debugAssertions isMapped size a = .ok () := by
  rw [stackDumpRun_eq_mapM, mapM_check_eq_ok_iff (deref debugAssertions isMapped size)]

end Run

end Homunculi.Debugger
