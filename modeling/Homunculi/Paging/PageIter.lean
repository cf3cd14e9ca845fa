import Homunculi.Paging.Page

/-!
# Paging — page ranges

`PageIter` and the two range constructors of `arch/aarch64/paging/mod.rs`. The iterator's
`next` is the Rust `Iterator::next`, returning the item together with the advanced iterator;
`collect` is a `for` loop over it, run on explicit fuel so that a run that never returns
`None` is visible as `none` rather than hidden by a termination argument.

The run lemma `collect_of_le` is proved by induction on the distance `end - start`, from the
one-step lemmas `next_of_lt` / `next_of_not_lt`.
-/

namespace Homunculi.Paging

/-- `PageIter { start, end }`. -/
structure PageIter where
  start : Page
  «end» : Page
deriving DecidableEq, Repr

/-- `Page::range_inclusive(start, final)`: `PageIter { start, end: final.next() }`. -/
def Page.rangeInclusive (start final : Page) : PageIter := ⟨start, final.next⟩

/-- `Page::range_exclusive(start, end)`: `PageIter { start, end }`. -/
def Page.rangeExclusive (start «end» : Page) : PageIter := ⟨start, «end»⟩

namespace PageIter

/-- `Iterator::next` for `PageIter`: yield `start` and step it by `Page::next` while
`start < end`, otherwise `None` and the iterator unchanged. -/
def next (self : PageIter) : Option Page × PageIter :=
  if self.start < self.end then (some self.start, { self with start := self.start.next })
  else (none, self)

/-- The pages a `for` loop over the iterator sees, calling `next` until it returns `None`;
`none` when `fuel` calls do not exhaust the iterator. -/
def collect : Nat → PageIter → Option (List Page)
  | 0, _ => none
  | fuel + 1, it =>
    match it.next with
    | (some page, it') => (collect fuel it').map (page :: ·)
    | (none, _) => some []

theorem next_of_lt {it : PageIter} (h : it.start < it.end) :
    it.next = (some it.start, { it with start := it.start.next }) := if_pos h

theorem next_of_not_lt {it : PageIter} (h : ¬ it.start < it.end) : it.next = (none, it) :=
  if_neg h

/-- Below `end`, `Page::next` does not overflow. -/
theorem next_toNat_of_lt {p e : Page} (h : p < e) :
    p.next.number.toNat = p.number.toNat + 1 := by
  have := e.number.isLt
  rw [Page.lt_def] at h
  simp only [Page.next, Page.nextBy_toNat, one_toNat]
  omega

/-- **The run**: from `start ≤ end`, `end - start + 1` calls exhaust the iterator, and it has
yielded `start.next_by(i)` for each `i < end - start`. -/
theorem collect_of_le (it : PageIter) (h : it.start ≤ it.end) (extra : Nat) :
    it.collect (it.end.number.toNat - it.start.number.toNat + 1 + extra) =
      some ((List.range (it.end.number.toNat - it.start.number.toNat)).map
        fun i => it.start.nextBy (BitVec.ofNat 64 i)) := by
  obtain ⟨start, stop⟩ := it
  simp only [Page.le_def] at h
  simp only
  generalize hd : stop.number.toNat - start.number.toNat = d
  induction d generalizing start with
  | zero =>
    have hs : ¬ start < stop := by rw [Page.lt_def]; omega
    rw [Nat.zero_add, Nat.add_comm, collect, next_of_not_lt hs]
    rfl
  | succ d ih =>
    have hs : start < stop := by rw [Page.lt_def]; omega
    have hnext := next_toNat_of_lt hs
    have hstop := stop.number.isLt
    rw [show d + 1 + 1 + extra = (d + 1 + extra) + 1 by omega, collect, next_of_lt hs]
    simp only
    rw [ih start.next (by omega) (by omega), List.range_succ_eq_map]
    simp only [Option.map_some', List.map_cons, List.map_map, Option.some.injEq,
      List.cons.injEq]
    constructor
    · exact Page.ext_toNat (by simp; omega)
    · refine List.map_congr_left fun i hi => Page.ext_toNat ?_
      have hi := List.mem_range.1 hi
      simp only [Function.comp, Page.nextBy_toNat, BitVec.toNat_ofNat, hnext]
      omega

/-- The run from any `start` and `end`: `end - start + 1` calls exhaust the iterator, and it has
yielded the `end - start` pages from `start`, none when `end ≤ start`. -/
theorem collect_eq (it : PageIter) (extra : Nat) :
    it.collect (it.end.number.toNat - it.start.number.toNat + 1 + extra) =
      some ((List.range (it.end.number.toNat - it.start.number.toNat)).map
        fun i => it.start.nextBy (BitVec.ofNat 64 i)) := by
  by_cases h : it.start ≤ it.end
  · exact collect_of_le it h extra
  · rw [Page.le_def] at h
    have hlt : ¬ it.start < it.end := fun hl => h (Nat.le_of_lt (Page.lt_def.1 hl))
    rw [show it.end.number.toNat - it.start.number.toNat = 0 by omega, Nat.zero_add,
      Nat.add_comm, collect, next_of_not_lt hlt]
    rfl

end PageIter

/-! ## The pages a loop sees -/

section Run

variable (s : Page) (k : Nat)

/-- The `k` pages `s.next_by(0), …, s.next_by(k - 1)`. -/
abbrev runFrom : List Page := (List.range k).map fun i => s.nextBy (BitVec.ofNat 64 i)

variable {s k}

/-- Below the top of `usize`, the `i`-th page of the run is `s` plus `i`. -/
theorem runFrom_toNat (hk : s.number.toNat + k ≤ 2 ^ 64) {i : Nat} (hi : i < k) :
    (s.nextBy (BitVec.ofNat 64 i)).number.toNat = s.number.toNat + i := by
  simp only [Page.nextBy_toNat, BitVec.toNat_ofNat]
  omega

theorem runFrom_pairwise (hk : s.number.toNat + k ≤ 2 ^ 64) :
    (runFrom s k).Pairwise (· < ·) := by
  rw [List.pairwise_map]
  refine (List.pairwise_lt_range k).imp_of_mem fun hi hj hij => ?_
  rw [Page.lt_def, runFrom_toNat hk (List.mem_range.1 hi), runFrom_toNat hk (List.mem_range.1 hj)]
  omega

/-- The run holds exactly the pages from `s` up to, not including, `s + k`. -/
theorem mem_runFrom (hk : s.number.toNat + k ≤ 2 ^ 64) (p : Page) :
    p ∈ runFrom s k ↔ s.number.toNat ≤ p.number.toNat ∧ p.number.toNat < s.number.toNat + k := by
  simp only [List.mem_map, List.mem_range]
  constructor
  · rintro ⟨i, hi, rfl⟩
    rw [runFrom_toNat hk hi]
    omega
  · intro hp
    refine ⟨p.number.toNat - s.number.toNat, by omega, Page.ext_toNat ?_⟩
    rw [runFrom_toNat hk (by omega)]
    omega

end Run

/-- **`range_exclusive`**: a `for` loop over `Page::range_exclusive(s, e)` stops after
`e.offset_from(s) + 1` calls to `next` (one call when `e < s`) and sees
`s.next_by(0), …, s.next_by(e.offset_from(s) - 1)`: that many pages, strictly increasing, each
in `[s, e)`, and none whose `Page::next` overflows; when `e < s` it sees nothing. -/
theorem rangeExclusive_collect (s e : Page) (extra : Nat) :
    let k := if s ≤ e then (e.offsetFrom s).toNat else 0
    let pages := (List.range k).map fun i => s.nextBy (BitVec.ofNat 64 i)
    (Page.rangeExclusive s e).collect (k + 1 + extra) = some pages ∧
    pages.length = k ∧ pages.Pairwise (· < ·) ∧
    ∀ p ∈ pages, s ≤ p ∧ p < e ∧ ¬ addOverflows p.number 1 := by
  intro k pages
  have he := e.number.isLt
  have hk : k = e.number.toNat - s.number.toNat := by
    simp only [k, Page.offsetFrom, BitVec.toNat_sub, Page.le_def]
    split <;> omega
  have hfit : s.number.toNat + k ≤ 2 ^ 64 := by omega
  refine ⟨?_, by simp [pages], runFrom_pairwise hfit, fun p hp => ?_⟩
  · show PageIter.collect _ ⟨s, e⟩ = some ((List.range k).map _)
    rw [hk]
    exact PageIter.collect_eq ⟨s, e⟩ extra
  · have hp := (mem_runFrom hfit p).1 hp
    simp only [Page.le_def, Page.lt_def, addOverflows, usizeMax, one_toNat]
    omega

/-- **`range_inclusive`**: below the top page, a `for` loop over `Page::range_inclusive(s, f)`
stops after `f.offset_from(s) + 2` calls to `next` (one call when `f < s`) and sees
`s.next_by(0), …, s.next_by(f.offset_from(s))`: in increasing order, exactly the pages from `s`
to `f`, `f.offset_from(s) + 1` of them, and nothing when `f < s`. When `f` is the largest page,
`f.next()` overflows: a debug build panics, and in a release build the iterator's `end` wraps
to page `0`, so the loop sees nothing. -/
theorem rangeInclusive_collect (s f : Page) (extra : Nat) :
    (f.number.toNat < usizeMax →
      let k := if s ≤ f then (f.offsetFrom s).toNat + 1 else 0
      let pages := (List.range k).map fun i => s.nextBy (BitVec.ofNat 64 i)
      (Page.rangeInclusive s f).collect (k + 1 + extra) = some pages ∧
        pages.length = k ∧ pages.Pairwise (· < ·) ∧ ∀ p, p ∈ pages ↔ s ≤ p ∧ p ≤ f) ∧
    (f.number.toNat = usizeMax →
      addOverflows f.number 1 ∧ (Page.rangeInclusive s f).collect (1 + extra) = some []) := by
  have hf := f.number.isLt
  refine ⟨fun htop => ?_, fun htop => And.intro ?_ ?_⟩
  · intro k pages
    simp only [usizeMax] at htop
    have hnext : f.next.number.toNat = f.number.toNat + 1 := by
      simp only [Page.next, Page.nextBy_toNat, one_toNat]
      omega
    have hk : k = f.next.number.toNat - s.number.toNat := by
      simp only [k, Page.offsetFrom, BitVec.toNat_sub, Page.le_def, hnext]
      split <;> omega
    have hfit : s.number.toNat + k ≤ 2 ^ 64 := by omega
    refine ⟨?_, by simp [pages], runFrom_pairwise hfit, fun p => ?_⟩
    · show PageIter.collect _ ⟨s, f.next⟩ = some ((List.range k).map _)
      rw [hk]
      exact PageIter.collect_eq ⟨s, f.next⟩ extra
    · rw [mem_runFrom hfit p, Page.le_def, Page.le_def]
      omega
  · simp only [addOverflows, one_toNat, htop, usizeMax]
    omega
  · have hlt : ¬ s < f.next := by
      simp only [Page.lt_def, Page.next, Page.nextBy_toNat, one_toNat, htop, usizeMax]
      omega
    show PageIter.collect _ ⟨s, f.next⟩ = _
    rw [Nat.add_comm, PageIter.collect, @PageIter.next_of_not_lt ⟨s, f.next⟩ hlt]

/-- The largest page, reached from page `0` by `next_by(usize::MAX)`: `f.next()` overflows and
wraps to page `0`, so `range_inclusive(f, f)` yields nothing, however long the loop runs,
instead of `f`. -/
theorem rangeInclusive_usizeMax :
    let f : Page := (⟨0⟩ : Page).nextBy (BitVec.ofNat 64 usizeMax)
    f ≤ f ∧ addOverflows f.number 1 ∧ f.next = ⟨0⟩ ∧
      ∀ fuel, (Page.rangeInclusive f f).collect fuel ≠ some [f] := by
  intro f
  refine ⟨by decide, by decide, by decide, fun fuel => ?_⟩
  cases fuel with
  | zero => exact Option.noConfusion
  | succ n =>
    have hlt : ¬ f < f.next := by decide
    show PageIter.collect _ ⟨f, f.next⟩ ≠ _
    rw [PageIter.collect, @PageIter.next_of_not_lt ⟨f, f.next⟩ hlt]
    simp

end Homunculi.Paging
