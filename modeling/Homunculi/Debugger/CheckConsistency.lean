import Homunculi.Context.Grants
import Homunculi.Debugger.Tally

/-!
# Debugger — `check_consistency`

The consistency verifier of `debugger.rs`, statement by statement. Four nested loops walk the
user half of the table (`p4i < 256`, then `0..512` three times), skipping absent slots and
entries whose `address()` is `Err`. For each present leaf the body (`checkEntry`) looks the page
up in the grants, logs a grant-less mapping and skips it, logs a flag mismatch outside
`EXCLUDE`, counts the frame in `tree`, and asserts the writability policy of the frame's
`RefCount` when the frame has page info. After the walk, `for (frame, count) in tree` unwraps
each frame's page info and asserts its count (`checkTally`).

`log::error!` appends to the walk's log; a failed `assert!`, `assert_eq!` or `unwrap` is an
`Abort`, carrying what was logged before it. The closing `println!` is not modelled.
-/

namespace Homunculi.Debugger

open Homunculi.Paging Homunculi.Memory Homunculi.Context

/-- `PageSpan::new(base, grant.page_count())`, as the flag-mismatch message prints it. -/
structure PageSpan where
  base : Page
  count : Usize
deriving DecidableEq, Repr

/-- A divergence `check_consistency` logs with `log::error!` before walking on. -/
inductive Divergence
  /-- Logged as "ADDRESS {:p} LACKING GRANT BUT MAPPED TO {:#0x} FLAGS {:?}!". -/
  | lackingGrant (address : VirtualAddress) (physaddr : PhysicalAddress) (flags : PageFlags)
  /-- Logged as "FLAG MISMATCH: {:?} != {:?}, address {:p} in grant at {:?}". -/
  | flagMismatch (grantFlags flags : PageFlags) (address : VirtualAddress) (span : PageSpan)
deriving DecidableEq, Repr

/-- Why `check_consistency` panics. -/
inductive Panic
  /-- The `One`/`Shared` assertion, "page entry has higher permissions than grant!". -/
  | higherPermissions
  /-- The `Cow` assertion, "directly writable CoW page!". -/
  | writableCow
  /-- `get_page_info(frame).unwrap()` in the final loop, for a frame with no page info. -/
  | untracked (frame : Frame)
  /-- `assert_eq!(c, count)` in the final loop. -/
  | countMismatch (frame : Frame) (c count : Nat)
deriving DecidableEq, Repr

/-- A panic, with the divergences logged before it. -/
structure Abort where
  panic : Panic
  log : List Divergence
deriving DecidableEq, Repr

/-- The walk's state: the per-frame `tree` and the divergences logged so far. -/
structure Walk where
  tree : Tally
  log : List Divergence

/-- `EXCLUDE = (1 << 5) | (1 << 6) | (1 << 1)`: accessed, dirty and writable. -/
def exclude : Usize := (1 <<< 5) ||| (1 <<< 6) ||| (1 <<< 1)

section

variable (info : PageInfoTable) (grants : UserGrants)

/-- The loop body for a present entry at `address`, mapped to `physaddr` with `flags`. -/
def checkEntry (w : Walk) (address : VirtualAddress) (physaddr : PhysicalAddress)
    (flags : PageFlags) : Except Abort Walk :=
  match grants.contains (Page.containingAddress address) with
  | none => .ok { w with log := w.log ++ [.lackingGrant address physaddr flags] }
  | some (base, grant) =>
    let w := if grant.flags.data &&& ~~~exclude ≠ flags.data &&& ~~~exclude then
        { w with log := w.log ++ [.flagMismatch grant.flags flags address ⟨base, grant.pageCount⟩] }
      else w
    let frame := Frame.containingAddress physaddr
    let w := { w with tree := w.tree.increment frame }
    match info frame with
    | some page =>
      match page.refcount with
      | .zero => .ok w
      | .one | .shared _ =>
        if flags.hasWrite && !grant.flags.hasWrite then .error ⟨.higherPermissions, w.log⟩
        else .ok w
      | .cow _ => if flags.hasWrite then .error ⟨.writableCow, w.log⟩ else .ok w
    | none => .ok w

/-- `for p1i in 0..512`. -/
def walkP1 (p4i p3i p2i : Nat) (p1 : PageTable1) (w : Walk) : Except Abort Walk :=
  (List.range 512).foldlM (fun w p1i =>
    match p1.entry p1i with
    | some e =>
      match e.address with
      | .ok physaddr => checkEntry info grants w (walkAddress p4i p3i p2i p1i) physaddr e.flags
      | .error _ => .ok w
    | none => .ok w) w

/-- `for p2i in 0..512`. -/
def walkP2 (p4i p3i : Nat) (p2 : PageTable2) (w : Walk) : Except Abort Walk :=
  (List.range 512).foldlM (fun w p2i =>
    match p2.next p2i with
    | some p1 => walkP1 info grants p4i p3i p2i p1 w
    | none => .ok w) w

/-- `for p3i in 0..512`. -/
def walkP3 (p4i : Nat) (p3 : PageTable3) (w : Walk) : Except Abort Walk :=
  (List.range 512).foldlM (fun w p3i =>
    match p3.next p3i with
    | some p2 => walkP2 info grants p4i p3i p2 w
    | none => .ok w) w

/-- `for p4i in 0..256`: the user half. -/
def walkP4 (p4 : PageTable4) (w : Walk) : Except Abort Walk :=
  (List.range 256).foldlM (fun w p4i =>
    match p4.next p4i with
    | some p3 => walkP3 info grants p4i p3 w
    | none => .ok w) w

end

/-- `for (frame, count) in tree`: unwrap the frame's page info and assert that its `RefCount`
records `count`. -/
def checkTally (info : PageInfoTable) : List (Frame × Nat) → Except Panic Unit
  | [] => .ok ()
  | (frame, count) :: rest =>
    match info frame with
    | none => .error (.untracked frame)
    | some page =>
      if page.refcount.count = count then checkTally info rest
      else .error (.countMismatch frame page.refcount.count count)

/-- `check_consistency(addr_space)` against the global page-info table: the divergences it
logs, or the panic that stops it. -/
def checkConsistency (info : PageInfoTable) (addrSpace : AddrSpace) :
    Except Abort (List Divergence) :=
  match walkP4 info addrSpace.grants addrSpace.table ⟨Tally.empty, []⟩ with
  | .error a => .error a
  | .ok w =>
    match checkTally info w.tree.entries with
    | .ok () => .ok w.log
    | .error p => .error ⟨p, w.log⟩

end Homunculi.Debugger
