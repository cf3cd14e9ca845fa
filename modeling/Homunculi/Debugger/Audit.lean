import Homunculi.Debugger.CheckConsistency

/-!
# Debugger — what `check_consistency` decides

The four nested loops of `check_consistency` are one fold of the loop body over the present
leaves in walk order (`walkP4_eq`), so the verifier is a run over `PageTable4.mappings`. One
step of that run either aborts on the writability policy (`Breaks`) or advances the walk by a
pure update (`visit_of_not_breaks`); the run lemmas `foldlM_visit_ok` /
`foldlM_visit_error` follow by induction over the leaves, and the final loop is settled by
`checkTally_eq_ok_iff` and the tally's `mem_ofFrames`.

`checkConsistency_eq_ok_iff` is the whole verdict: it returns exactly when no grant-covered leaf
breaks the policy and every counted frame's page info records its count, and it then returns the
lacking-grant and flag-mismatch records of the leaves in walk order.
-/

namespace Homunculi.Debugger

open Homunculi.Paging Homunculi.Memory Homunculi.Context

/-- The writability policy `check_consistency` asserts for a tracked frame: a `Cow` frame is never
mapped writable, a `One` or `Shared` frame only where its grant permits writes. -/
def WritePolicy (refcount : RefCount) (entry grant : PageFlags) : Prop :=
  match refcount with
  | .zero => True
  | .one | .shared _ => ¬ (entry.hasWrite = true ∧ grant.hasWrite = false)
  | .cow _ => entry.hasWrite = false

instance (refcount : RefCount) (entry grant : PageFlags) :
    Decidable (WritePolicy refcount entry grant) := by
  cases refcount <;> unfold WritePolicy <;> infer_instance

/-! ## The loops as one fold -/

theorem foldlM_flatMap {α β γ : Type} (l : List α) (f : α → List β)
    (g : γ → β → Except Abort γ) (init : γ) :
    (l.flatMap f).foldlM g init = l.foldlM (fun acc a => (f a).foldlM g acc) init := by
  induction l generalizing init with
  | nil => rfl
  | cons a rest ih =>
    simp only [List.flatMap_cons, List.foldlM_append, List.foldlM_cons]
    exact congrArg _ (funext ih)

theorem foldlM_filterMap {α β γ : Type} (l : List α) (f : α → Option β)
    (g : γ → β → Except Abort γ) (init : γ) :
    (l.filterMap f).foldlM g init =
      l.foldlM (fun acc a => match f a with | some b => g acc b | none => pure acc) init := by
  induction l generalizing init with
  | nil => rfl
  | cons a rest ih =>
    simp only [List.filterMap_cons, List.foldlM_cons]
    cases f a with
    | none => exact ih init
    | some b => exact congrArg _ (funext ih)

section

variable (info : PageInfoTable) (grants : UserGrants)

/-- The loop body at a leaf. -/
def visit (w : Walk) (m : Mapping) : Except Abort Walk :=
  checkEntry info grants w m.address m.physaddr m.flags

theorem walkP1_eq (p4i p3i p2i : Nat) (p1 : PageTable1) (w : Walk) :
    walkP1 info grants p4i p3i p2i p1 w = (p1.mappings p4i p3i p2i).foldlM (visit info grants) w := by
  rw [PageTable1.mappings, foldlM_filterMap, walkP1]
  congr
  funext w p1i
  cases p1.entry p1i with
  | none => rfl
  | some e => dsimp only; cases e.address <;> rfl

theorem walkP2_eq (p4i p3i : Nat) (p2 : PageTable2) (w : Walk) :
    walkP2 info grants p4i p3i p2 w = (p2.mappings p4i p3i).foldlM (visit info grants) w := by
  rw [PageTable2.mappings, foldlM_flatMap, walkP2]
  congr
  funext w p2i
  cases p2.next p2i with
  | none => rfl
  | some t => exact walkP1_eq info grants _ _ _ t _

theorem walkP3_eq (p4i : Nat) (p3 : PageTable3) (w : Walk) :
    walkP3 info grants p4i p3 w = (p3.mappings p4i).foldlM (visit info grants) w := by
  rw [PageTable3.mappings, foldlM_flatMap, walkP3]
  congr
  funext w p3i
  cases p3.next p3i with
  | none => rfl
  | some t => exact walkP2_eq info grants _ _ t _

/-- **The walk is a fold**: the four nested loops visit exactly the present user leaves, in
`PageTable4.mappings` order. -/
theorem walkP4_eq (p4 : PageTable4) (w : Walk) :
    walkP4 info grants p4 w = p4.mappings.foldlM (visit info grants) w := by
  rw [PageTable4.mappings, foldlM_flatMap, walkP4]
  congr
  funext w p4i
  cases p4.next p4i with
  | none => rfl
  | some t => exact walkP3_eq info grants _ t _

/-! ## One leaf -/

/-- A grant of the map holds the leaf's page. -/
def Covered (m : Mapping) : Prop := grants.contains m.page ≠ none

instance (m : Mapping) : Decidable (Covered grants m) :=
  inferInstanceAs (Decidable (_ ≠ none))

/-- What the walk logs at a leaf: a lacking-grant record when no grant holds its page, a
flag-mismatch record when the grant's flags differ from the entry's outside `EXCLUDE`. -/
def reported (m : Mapping) : List Divergence :=
  match grants.contains m.page with
  | none => [.lackingGrant m.address m.physaddr m.flags]
  | some (base, grant) =>
    if grant.flags.data &&& ~~~exclude ≠ m.flags.data &&& ~~~exclude then
      [.flagMismatch grant.flags m.flags m.address ⟨base, grant.pageCount⟩]
    else []

/-- The leaf's grant and page info exist and its entry breaks the writability policy. -/
def Breaks (m : Mapping) : Prop :=
  ∃ base grant page, grants.contains m.page = some (base, grant) ∧ info m.frame = some page ∧
    ¬ WritePolicy page.refcount m.flags grant.flags

/-- The walk after a leaf that does not break the policy: the frame counted when a grant holds
the page, and the leaf's records logged. -/
def advance (w : Walk) (m : Mapping) : Walk :=
  ⟨match grants.contains m.page with
    | none => w.tree
    | some _ => w.tree.increment m.frame,
   w.log ++ reported grants m⟩

theorem visit_of_not_breaks (w : Walk) (m : Mapping) (h : ¬ Breaks info grants m) :
    visit info grants w m = .ok (advance grants w m) := by
  unfold visit checkEntry advance reported
  simp only [Mapping.page] at h ⊢
  cases hc : grants.contains (Page.containingAddress m.address) with
  | none => simp
  | some bg =>
    obtain ⟨base, grant⟩ := bg
    have hpol : ∀ page, info m.frame = some page →
        WritePolicy page.refcount m.flags grant.flags := fun page hp =>
      Classical.byContradiction fun hn => h ⟨base, grant, page, hc, hp, hn⟩
    simp only [Mapping.frame] at hpol
    by_cases hf : grant.flags.data &&& ~~~exclude = m.flags.data &&& ~~~exclude <;>
      simp only [hf, ne_eq, not_true_eq_false, not_false_eq_true, if_true, if_false] <;>
      cases hi : info (Frame.containingAddress m.physaddr) <;>
      simp only [Except.ok.injEq, Walk.mk.injEq, List.append_nil, Mapping.frame, and_self]
    all_goals
      rename_i page
      have hp := hpol page hi
      cases hr : page.refcount <;> simp only [hr, WritePolicy] at hp <;> simp_all

theorem visit_of_breaks (w : Walk) (m : Mapping) (h : Breaks info grants m) :
    ∃ a, visit info grants w m = .error a := by
  obtain ⟨base, grant, page, hc, hi, hp⟩ := h
  unfold visit checkEntry
  simp only [Mapping.page, Mapping.frame] at hc hi
  simp only [hc, hi]
  cases hr : page.refcount <;> simp only [hr, WritePolicy] at hp <;> simp_all

/-! ## The run -/

/-- The frames the walk counts: those of the leaves a grant holds, in walk order. -/
def counted (ms : List Mapping) : List Frame :=
  (ms.filter fun m => decide (Covered grants m)).map Mapping.frame

theorem foldlM_visit_ok (ms : List Mapping) (w : Walk) (h : ∀ m ∈ ms, ¬ Breaks info grants m) :
    ms.foldlM (visit info grants) w = .ok (ms.foldl (advance grants) w) := by
  induction ms generalizing w with
  | nil => rfl
  | cons m rest ih =>
    rw [List.foldlM_cons, visit_of_not_breaks info grants w m (h m (.head _))]
    exact ih _ fun m' hm' => h m' (.tail _ hm')

theorem foldlM_visit_error (ms : List Mapping) (w : Walk) (h : ∃ m ∈ ms, Breaks info grants m) :
    ∃ a, ms.foldlM (visit info grants) w = .error a := by
  induction ms generalizing w with
  | nil => simp at h
  | cons m rest ih =>
    rw [List.foldlM_cons]
    by_cases hm : Breaks info grants m
    · obtain ⟨a, ha⟩ := visit_of_breaks info grants w m hm
      exact ⟨a, by rw [ha]; rfl⟩
    · rw [visit_of_not_breaks info grants w m hm]
      obtain ⟨m', hm', hb⟩ := h
      exact ih _ ⟨m', (List.mem_cons.1 hm').resolve_left (by rintro rfl; exact hm hb), hb⟩

theorem foldl_advance_tree (ms : List Mapping) (w : Walk) :
    (ms.foldl (advance grants) w).tree = (counted grants ms).foldl Tally.increment w.tree := by
  induction ms generalizing w with
  | nil => rfl
  | cons m rest ih =>
    rw [List.foldl_cons, ih]
    simp only [counted, Covered, List.filter_cons, advance]
    by_cases hc : grants.contains m.page = none
    · simp [hc]
    · obtain ⟨x, hx⟩ := Option.ne_none_iff_exists'.1 hc
      simp [hx]

theorem foldl_advance_log (ms : List Mapping) (w : Walk) :
    (ms.foldl (advance grants) w).log = w.log ++ ms.flatMap (reported grants) := by
  induction ms generalizing w with
  | nil => simp
  | cons m rest ih => simp [ih, advance]

end

/-! ## The final loop and the verdict -/

theorem checkTally_eq_ok_iff (info : PageInfoTable) (entries : List (Frame × Nat)) :
    checkTally info entries = .ok () ↔ ∀ e ∈ entries, Recorded info e.1 e.2 := by
  induction entries with
  | nil => exact ⟨fun _ _ h => absurd h (List.not_mem_nil _), fun _ => rfl⟩
  | cons e rest ih =>
    obtain ⟨frame, count⟩ := e
    rw [List.forall_mem_cons]
    cases hi : info frame with
    | none => simp [checkTally, Recorded, hi]
    | some page =>
      by_cases hc : page.refcount.count = count
      · simp only [checkTally, hi, hc, if_true, ih]
        exact ⟨fun h => ⟨⟨page, hi, hc⟩, h⟩, And.right⟩
      · simp [checkTally, Recorded, hi, hc]

/-- **The verdict of `check_consistency`**: it returns exactly when no grant-covered leaf breaks
the writability policy and every counted frame's page info records how often the walk counted
it; it then returns one lacking-grant or flag-mismatch record per diverging leaf, in walk order. -/
theorem checkConsistency_eq_ok_iff (info : PageInfoTable) (addrSpace : AddrSpace)
    (log : List Divergence) :
    checkConsistency info addrSpace = .ok log ↔
      (∀ m ∈ addrSpace.table.mappings, ¬ Breaks info addrSpace.grants m) ∧
      (∀ frame ∈ counted addrSpace.grants addrSpace.table.mappings,
        Recorded info frame ((counted addrSpace.grants addrSpace.table.mappings).count frame)) ∧
      log = addrSpace.table.mappings.flatMap (reported addrSpace.grants) := by
  unfold checkConsistency
  rw [walkP4_eq]
  by_cases hb : ∀ m ∈ addrSpace.table.mappings, ¬ Breaks info addrSpace.grants m
  · rw [foldlM_visit_ok _ _ _ _ hb]
    simp only [foldl_advance_tree, foldl_advance_log, List.nil_append]
    rw [show List.foldl Tally.increment Tally.empty (counted addrSpace.grants
        addrSpace.table.mappings) = Tally.ofFrames (counted addrSpace.grants
        addrSpace.table.mappings) from rfl]
    have htally := checkTally_eq_ok_iff info
      (Tally.ofFrames (counted addrSpace.grants addrSpace.table.mappings)).entries
    simp only [Tally.mem_ofFrames, and_imp, Prod.forall] at htally
    cases hc : checkTally info
        (Tally.ofFrames (counted addrSpace.grants addrSpace.table.mappings)).entries with
    | error p =>
      rw [hc] at htally
      simp only [reduceCtorEq, false_iff, not_forall] at htally
      obtain ⟨f, n, hf, rfl, hr⟩ := htally
      simp only [reduceCtorEq, false_iff, not_and]
      exact fun _ hall => absurd (hall f hf) hr
    | ok u =>
      have hall := htally.1 (by rw [hc])
      simp only [Except.ok.injEq]
      exact ⟨fun h => ⟨hb, fun f hf => hall f _ hf rfl, h.symm⟩, fun h => h.2.2.symm⟩
  · push_neg at hb
    obtain ⟨a, ha⟩ := foldlM_visit_error info addrSpace.grants _ ⟨Tally.empty, []⟩ hb
    rw [ha]
    simp only [reduceCtorEq, false_iff, not_and]
    intro h
    obtain ⟨m, hm, hbm⟩ := hb
    exact absurd hbm (h m hm)

theorem checkConsistency_ok_or_error (info : PageInfoTable) (addrSpace : AddrSpace) :
    (∃ log, checkConsistency info addrSpace = .ok log) ∨
      ∃ a, checkConsistency info addrSpace = .error a := by
  cases checkConsistency info addrSpace with
  | ok log => exact .inl ⟨log, rfl⟩
  | error a => exact .inr ⟨a, rfl⟩

section

variable (grants : UserGrants)

/-- How often the walk counts `frame`: the grant-covered leaves that map it. -/
theorem count_counted (ms : List Mapping) (frame : Frame) :
    (counted grants ms).count frame =
      ms.countP fun m => decide (Covered grants m ∧ m.frame = frame) := by
  induction ms with
  | nil => rfl
  | cons m rest ih =>
    simp only [counted, List.filter_cons, List.countP_cons] at ih ⊢
    by_cases hc : Covered grants m <;> by_cases hf : m.frame = frame <;>
      simp [hc, hf, ih, List.count_cons]

theorem mem_counted (ms : List Mapping) (frame : Frame) :
    frame ∈ counted grants ms ↔ ∃ m ∈ ms, Covered grants m ∧ m.frame = frame := by
  simp [counted, and_assoc]

theorem reported_eq_nil_iff (m : Mapping) :
    reported grants m = [] ↔ ∃ base grant, grants.contains m.page = some (base, grant) ∧
      grant.flags.data &&& ~~~exclude = m.flags.data &&& ~~~exclude := by
  unfold reported
  cases grants.contains m.page with
  | none => simp
  | some bg =>
    obtain ⟨base, grant⟩ := bg
    by_cases hf : grant.flags.data &&& ~~~exclude = m.flags.data &&& ~~~exclude
    · simpa [hf] using ⟨base, grant, ⟨rfl, rfl⟩, hf⟩
    · simp [hf]

end

/-- **When `check_consistency` panics**: exactly when a grant-covered present user mapping whose
frame has page info breaks the writability policy, or a grant-covered mapping's frame has no
page info recording how many grant-covered mappings of this address space map it. Otherwise it
returns normally, having logged every grant-less mapping and every flag mismatch, in walk
order. -/
theorem checkConsistency_panics_iff (info : PageInfoTable) (addrSpace : AddrSpace) :
    ((∃ a, checkConsistency info addrSpace = .error a) ↔
      (∃ m ∈ addrSpace.table.mappings, Breaks info addrSpace.grants m) ∨
      (∃ m ∈ addrSpace.table.mappings, Covered addrSpace.grants m ∧
        ¬ Recorded info m.frame (addrSpace.table.mappings.countP fun m' =>
          decide (Covered addrSpace.grants m' ∧ m'.frame = m.frame)))) ∧
    (∀ log, checkConsistency info addrSpace = .ok log →
      log = addrSpace.table.mappings.flatMap (reported addrSpace.grants)) := by
  refine ⟨⟨fun ⟨a, ha⟩ => ?_, fun h => ?_⟩, fun log h => ((checkConsistency_eq_ok_iff _ _ _).1 h).2.2⟩
  · by_contra hn
    push_neg at hn
    have hok := (checkConsistency_eq_ok_iff info addrSpace _).2
      ⟨hn.1, fun f hf => ?_, rfl⟩
    · rw [ha] at hok
      cases hok
    · obtain ⟨m, hm, hc, rfl⟩ := (mem_counted _ _ _).1 hf
      rw [count_counted]
      exact hn.2 m hm hc
  · rcases checkConsistency_ok_or_error info addrSpace with ⟨log, hlog⟩ | herr
    · obtain ⟨hb, hr, -⟩ := (checkConsistency_eq_ok_iff _ _ _).1 hlog
      rcases h with ⟨m, hm, hbm⟩ | ⟨m, hm, hc, hnr⟩
      · exact absurd hbm (hb m hm)
      · have := hr m.frame ((mem_counted _ _ _).2 ⟨m, hm, hc, rfl⟩)
        rw [count_counted] at this
        exact absurd this hnr
    · exact herr

/-- A user table with one present leaf, at slot `(0, 0, 0, p1i)`. -/
def singleLeaf (p1i : Nat) (entry : PageEntry) : PageTable4 :=
  ⟨fun i => if i = 0 then some ⟨fun j => if j = 0 then some ⟨fun k => if k = 0 then
    some ⟨fun l => if l = p1i then some entry else none⟩ else none⟩ else none⟩ else none⟩

/-- Over `List.range (n + 1)`, a family empty past `0` flattens to its value at `0`. -/
theorem flatMap_range_of_pos_nil {α : Type} (n : Nat) (f : Nat → List α)
    (h : ∀ i, 0 < i → f i = []) : (List.range (n + 1)).flatMap f = f 0 := by
  rw [List.range_succ_eq_map, List.flatMap_cons,
    List.flatMap_eq_nil_iff.2 fun b hb => ?_, List.append_nil]
  obtain ⟨i, -, rfl⟩ := List.mem_map.1 hb
  exact h _ i.succ_pos

/-- Over `List.range n`, a partial map defined only at `k < n` keeps only its value there. -/
theorem filterMap_range_of_single {α : Type} (g : Nat → Option α) (k : Nat) (x : α)
    (hg : ∀ j, g j = if j = k then some x else none) :
    ∀ n, k < n → (List.range n).filterMap g = [x]
  | 0, h => absurd h (Nat.not_lt_zero k)
  | n + 1, h => by
    rw [List.range_succ, List.filterMap_append, List.filterMap_cons, List.filterMap_nil, hg n]
    by_cases hk : n = k
    · subst hk
      rw [if_pos rfl, List.filterMap_eq_nil_iff.2 fun j hj => by
        rw [hg, if_neg (Nat.ne_of_lt (List.mem_range.1 hj))]]
      rfl
    · rw [if_neg hk, filterMap_range_of_single g k x hg n (by omega)]
      rfl

/-- The one leaf of `singleLeaf`, for a slot in range and an entry whose `address()` is `Ok`. -/
theorem singleLeaf_mappings (p1i : Nat) (hp : p1i < 512) (entry : PageEntry)
    (a : PhysicalAddress) (ha : entry.address = .ok a) :
    (singleLeaf p1i entry).mappings = [⟨0, 0, 0, p1i, a, entry.flags⟩] := by
  simp only [singleLeaf, PageTable4.mappings, PageTable3.mappings, PageTable2.mappings]
  rw [flatMap_range_of_pos_nil 255 _ fun i hi => by simp [Nat.pos_iff_ne_zero.1 hi], if_pos rfl]
  dsimp only
  rw [flatMap_range_of_pos_nil 511 _ fun i hi => by simp [Nat.pos_iff_ne_zero.1 hi], if_pos rfl]
  dsimp only
  rw [flatMap_range_of_pos_nil 511 _ fun i hi => by simp [Nat.pos_iff_ne_zero.1 hi], if_pos rfl]
  dsimp only
  exact filterMap_range_of_single _ p1i _ (fun j => by
    by_cases hj : j = p1i
    · subst hj; simp [ha]
    · simp [hj]) 512 hp

/-- `translate_eq_some_iff` at an address of the one present page of `singleLeaf 1`: the walk
finds the leaf's frame and flags, and the audited list has that leaf, of that page. -/
theorem translate_eq_some_iff_singleLeaf :
    let p4 : PageTable4 := singleLeaf 1 ⟨.ok ⟨0x5000⟩, ⟨0x5⟩⟩
    (0x1234 : Usize).toNat < 2 ^ 47 ∧ p4.translate ⟨0x1234⟩ = some (⟨5⟩, ⟨0x5⟩) ∧
      ∃ m ∈ p4.mappings,
        m.page = Page.containingAddress ⟨0x1234⟩ ∧ m.frame = ⟨5⟩ ∧ m.flags = ⟨0x5⟩ := by
  intro p4
  have ht : p4.translate ⟨0x1234⟩ = some (⟨5⟩, ⟨0x5⟩) := by decide
  exact ⟨by decide, ht, (PageTable4.translate_eq_some_iff p4 (by decide) _ _).1 ht⟩

/-- Page `p1i` mapped read-only (present, user) to frame 5, under a one-page grant with the
same flags. -/
def leafSpace (p1i : Nat) : AddrSpace :=
  ⟨singleLeaf p1i ⟨.ok ⟨0x5000⟩, ⟨0x5⟩⟩,
    ⟨[(⟨BitVec.ofNat 64 p1i⟩, ⟨1, ⟨0x5⟩⟩)], List.pairwise_singleton _ _, by simp⟩⟩

theorem leafSpace_mappings (p1i : Nat) (hp : p1i < 512) :
    (leafSpace p1i).table.mappings = [⟨0, 0, 0, p1i, ⟨0x5000⟩, ⟨0x5⟩⟩] :=
  singleLeaf_mappings p1i hp _ _ rfl

/-- A granted, agreeing mapping of a frame the page-info table does not track: nothing breaks
the writability policy, yet the final loop's `unwrap` panics. -/
theorem checkConsistency_untracked_counterexample :
    ¬ ∀ (info : PageInfoTable) (addrSpace : AddrSpace),
      (∃ a, checkConsistency info addrSpace = .error a) →
        ∃ m ∈ addrSpace.table.mappings, Breaks info addrSpace.grants m := by
  intro h
  have hpanic : checkConsistency (fun _ => none) (leafSpace 1) = .error ⟨.untracked ⟨5⟩, []⟩ := by
    rw [checkConsistency, walkP4_eq, leafSpace_mappings 1 (by decide)]
    rfl
  obtain ⟨m, -, base, grant, page, -, hp, -⟩ := h (fun _ => none) (leafSpace 1) ⟨_, hpanic⟩
  cases hp

/-- The leaf lies in a grant whose flags agree with its entry outside `EXCLUDE` and whose
writability policy the entry keeps wherever its frame has page info. -/
def Granted (info : PageInfoTable) (grants : UserGrants) (m : Mapping) : Prop :=
  ∃ base grant, (base, grant) ∈ grants.inner ∧ grant.Covers base m.page ∧
    grant.flags.data &&& ~~~exclude = m.flags.data &&& ~~~exclude ∧
    ∀ page, info m.frame = some page → WritePolicy page.refcount m.flags grant.flags

instance (info : PageInfoTable) (grants : UserGrants) (m : Mapping) :
    Decidable (Granted info grants m) :=
  decidable_of_iff (∃ bg ∈ grants.inner, bg.2.Covers bg.1 m.page ∧
      bg.2.flags.data &&& ~~~exclude = m.flags.data &&& ~~~exclude ∧
      ∀ page ∈ info m.frame, WritePolicy page.refcount m.flags bg.2.flags)
    ⟨fun ⟨⟨b, g⟩, h, hc, hf, hp⟩ => ⟨b, g, h, hc, hf, hp⟩,
      fun ⟨b, g, h, hc, hf, hp⟩ => ⟨⟨b, g⟩, h, hc, hf, hp⟩⟩

/-- A granted leaf is exactly one the walk neither logs nor panics on. -/
theorem granted_iff (info : PageInfoTable) (grants : UserGrants) (m : Mapping) :
    Granted info grants m ↔ reported grants m = [] ∧ ¬ Breaks info grants m := by
  rw [reported_eq_nil_iff]
  constructor
  · rintro ⟨base, grant, hmem, hcov, hf, hpol⟩
    have hc := (grants.contains_eq_some_iff _ _ _).2 ⟨hmem, hcov⟩
    refine ⟨⟨base, grant, hc, hf⟩, fun ⟨b', g', page, hc', hp, hn⟩ => ?_⟩
    obtain ⟨rfl, rfl⟩ := Prod.mk.inj (Option.some.inj (hc.symm.trans hc'))
    exact hn (hpol page hp)
  · rintro ⟨⟨base, grant, hc, hf⟩, hb⟩
    obtain ⟨hmem, hcov⟩ := (grants.contains_eq_some_iff _ _ _).1 hc
    exact ⟨base, grant, hmem, hcov, hf, fun page hp =>
      Classical.byContradiction fun hn => hb ⟨base, grant, page, hc, hp, hn⟩⟩

theorem Granted.covered {info : PageInfoTable} {grants : UserGrants} {m : Mapping}
    (h : Granted info grants m) : Covered grants m := by
  obtain ⟨base, grant, hc, -⟩ := (reported_eq_nil_iff grants m).1 ((granted_iff info grants m).1 h).1
  simp [Covered, hc]

/-- When every leaf is granted, the walk counts every leaf's frame. -/
theorem count_counted_of_granted {info : PageInfoTable} {grants : UserGrants} {ms : List Mapping}
    (hg : ∀ m ∈ ms, Granted info grants m) (frame : Frame) :
    (counted grants ms).count frame = ms.countP fun m => decide (m.frame = frame) := by
  rw [count_counted]
  exact List.countP_congr fun m hm => by simp [(hg m hm).covered]

/-- **The verdict on a granted table**: when every present user leaf is granted,
`check_consistency` returns normally without logging exactly when every mapped frame's page
info records how many of this address space's leaves map it. -/
theorem checkConsistency_of_granted (info : PageInfoTable) (addrSpace : AddrSpace)
    (hg : ∀ m ∈ addrSpace.table.mappings, Granted info addrSpace.grants m) :
    checkConsistency info addrSpace = .ok [] ↔ ∀ m ∈ addrSpace.table.mappings,
      Recorded info m.frame (addrSpace.table.mappings.countP fun m' => decide (m'.frame = m.frame)) := by
  rw [checkConsistency_eq_ok_iff]
  constructor
  · rintro ⟨-, hr, -⟩ m hm
    have := hr m.frame ((mem_counted _ _ _).2 ⟨m, hm, (hg m hm).covered, rfl⟩)
    rwa [count_counted_of_granted hg] at this
  · intro h
    refine ⟨fun m hm => ((granted_iff _ _ m).1 (hg m hm)).2, fun f hf => ?_,
      (List.flatMap_eq_nil_iff.2 fun m hm => ((granted_iff _ _ m).1 (hg m hm)).1).symm⟩
    obtain ⟨m, hm, -, rfl⟩ := (mem_counted _ _ _).1 hf
    rw [count_counted_of_granted hg]
    exact h m hm

/-- **A clean audit**: `check_consistency` returns normally without logging exactly when every
present user mapping lies in a grant whose flags agree with the entry's outside `EXCLUDE` and
whose writability policy the entry keeps wherever the frame has page info, and every mapped
frame has page info recording exactly how many present user mappings map it. -/
theorem checkConsistency_clean_iff (info : PageInfoTable) (addrSpace : AddrSpace) :
    checkConsistency info addrSpace = .ok [] ↔
      ∀ m ∈ addrSpace.table.mappings,
        (∃ base grant, (base, grant) ∈ addrSpace.grants.inner ∧ grant.Covers base m.page ∧
          grant.flags.data &&& ~~~exclude = m.flags.data &&& ~~~exclude ∧
          ∀ page, info m.frame = some page → WritePolicy page.refcount m.flags grant.flags) ∧
        Recorded info m.frame
          (addrSpace.table.mappings.countP fun m' => decide (m'.frame = m.frame)) := by
  show _ ↔ ∀ m ∈ _, Granted info addrSpace.grants m ∧ _
  constructor
  · intro h
    have hg : ∀ m ∈ addrSpace.table.mappings, Granted info addrSpace.grants m := fun m hm =>
      (granted_iff _ _ m).2 ⟨List.flatMap_eq_nil_iff.1
        ((checkConsistency_eq_ok_iff _ _ _).1 h).2.2.symm m hm,
        ((checkConsistency_eq_ok_iff _ _ _).1 h).1 m hm⟩
    exact fun m hm => ⟨hg m hm, (checkConsistency_of_granted info addrSpace hg).1 h m hm⟩
  · intro h
    exact (checkConsistency_of_granted info addrSpace fun m hm => (h m hm).1).2
      fun m hm => (h m hm).2

/-! ## What the verifier reads -/

section Footprint

variable {info info' : PageInfoTable} (grants : UserGrants)

/-- The loop body reads the page-info table only at the leaf's frame. -/
theorem visit_congr (w : Walk) {m : Mapping} (h : info m.frame = info' m.frame) :
    visit info grants w m = visit info' grants w m := by
  simp only [visit, checkEntry]
  rw [show info (Frame.containingAddress m.physaddr) = info' (Frame.containingAddress m.physaddr)
    from h]

theorem foldlM_visit_congr {ms : List Mapping} (h : ∀ m ∈ ms, info m.frame = info' m.frame)
    (w : Walk) : ms.foldlM (visit info grants) w = ms.foldlM (visit info' grants) w := by
  induction ms generalizing w with
  | nil => rfl
  | cons m rest ih =>
    simp only [List.foldlM_cons, visit_congr grants w (h m (.head _))]
    exact congrArg _ (funext fun w' => ih (fun m' hm' => h m' (.tail _ hm')) w')

/-- The final loop reads the page-info table only at the tallied frames. -/
theorem checkTally_congr {entries : List (Frame × Nat)} (h : ∀ e ∈ entries, info e.1 = info' e.1) :
    checkTally info entries = checkTally info' entries := by
  induction entries with
  | nil => rfl
  | cons e rest ih =>
    obtain ⟨frame, count⟩ := e
    simp only [checkTally, h (frame, count) (.head _), ih fun e he => h e (.tail _ he)]

end Footprint

/-- **What `check_consistency` reads.** Its verdict and log depend only on the user half of the
level-4 table (`next(0..256)`), on the grants, and on the page info of the frames the user half
maps: two address spaces and two page-info tables that agree there get the same result, the same
log or the same panic. -/
theorem checkConsistency_eq_of_agree {info info' : PageInfoTable} {A B : AddrSpace}
    (htable : ∀ i < 256, A.table.next i = B.table.next i) (hgrants : A.grants = B.grants)
    (hinfo : ∀ m ∈ A.table.mappings, info m.frame = info' m.frame) :
    checkConsistency info A = checkConsistency info' B := by
  unfold checkConsistency
  rw [walkP4_eq, walkP4_eq, ← hgrants, ← PageTable4.mappings_congr htable,
    foldlM_visit_congr A.grants hinfo]
  by_cases hb : ∀ m ∈ A.table.mappings, ¬ Breaks info' A.grants m
  · rw [foldlM_visit_ok _ _ _ _ hb]
    dsimp only
    rw [checkTally_congr fun e he => ?_]
    rw [foldl_advance_tree] at he
    obtain ⟨m, hm, -, hme⟩ := (mem_counted _ _ _).1 ((Tally.mem_ofFrames _ e).1 he).1
    rw [← hme]
    exact hinfo m hm
  · push_neg at hb
    obtain ⟨a, ha⟩ := foldlM_visit_error info' A.grants _ _ hb
    rw [ha]

/-- `checkConsistency_eq_of_agree` for `leafSpace 1` against the same space with the kernel half
of its table filled in, and an untracked-everywhere page-info table against one that tracks
every frame but the mapped one. -/
theorem checkConsistency_eq_of_agree_leafSpace :
    let B : AddrSpace := ⟨⟨fun i => if i < 256 then (leafSpace 1).table.next i
      else (leafSpace 1).table.next 0⟩, (leafSpace 1).grants⟩
    let info' : PageInfoTable := fun f => if f = ⟨5⟩ then none else some ⟨.one⟩
    (∀ i < 256, (leafSpace 1).table.next i = B.table.next i) ∧ (leafSpace 1).grants = B.grants ∧
      (∀ m ∈ (leafSpace 1).table.mappings, (fun _ => none : PageInfoTable) m.frame = info' m.frame) ∧
      checkConsistency (fun _ => none) (leafSpace 1) = checkConsistency info' B := by
  intro B info'
  have htable : ∀ i < 256, (leafSpace 1).table.next i = B.table.next i := fun i hi =>
    (if_pos hi).symm
  have hinfo : ∀ m ∈ (leafSpace 1).table.mappings,
      (fun _ => none : PageInfoTable) m.frame = info' m.frame := by
    rw [leafSpace_mappings 1 (by decide)]
    decide
  exact ⟨htable, rfl, hinfo, checkConsistency_eq_of_agree htable rfl hinfo⟩

end Homunculi.Debugger
