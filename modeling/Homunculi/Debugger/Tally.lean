import Homunculi.Memory.Frame

/-!
# Debugger — the per-frame tally

`check_consistency` counts the mappings it meets per frame in a `BTreeMap<Frame, usize>`,
`*tree.entry(frame).or_insert(0) += 1`, and afterwards iterates it in key order. The map is a
list of entries in strictly ascending frame order with positive counts; both facts are fields of
`Tally`, kept by `increment`.

What the final loop needs is `mem_ofFrames`: after counting a list of frames from the empty map,
the entries are exactly the frames met, each with the number of times it was met.
-/

namespace Homunculi.Debugger

open Homunculi.Memory

/-- The entry list after `*tree.entry(frame).or_insert(0) += 1`. -/
def bumpEntries (frame : Frame) : List (Frame × Nat) → List (Frame × Nat)
  | [] => [(frame, 1)]
  | (g, c) :: rest =>
    if frame < g then (frame, 1) :: (g, c) :: rest
    else if frame = g then (g, c + 1) :: rest
    else (g, c) :: bumpEntries frame rest

/-- The count the map holds for `frame`, `0` when it has no entry. -/
def countIn (frame : Frame) : List (Frame × Nat) → Nat
  | [] => 0
  | (g, c) :: rest => if frame = g then c else countIn frame rest

theorem Frame.lt_trans {a b c : Frame} (h₁ : a < b) (h₂ : b < c) : a < c := by
  rw [Frame.lt_def] at *
  omega

theorem Frame.lt_or_gt_of_ne {a b : Frame} (h : a ≠ b) : a < b ∨ b < a := by
  rw [Frame.lt_def, Frame.lt_def]
  have : a.number.toNat ≠ b.number.toNat := fun e => h (Frame.ext_toNat e)
  omega

theorem Frame.lt_irrefl (a : Frame) : ¬ a < a := by
  rw [Frame.lt_def]
  omega

theorem keys_bumpEntries (frame : Frame) (l : List (Frame × Nat)) :
    ∀ y ∈ (bumpEntries frame l).map Prod.fst, y = frame ∨ y ∈ l.map Prod.fst := by
  induction l with
  | nil => simp [bumpEntries]
  | cons x rest ih =>
    obtain ⟨g, c⟩ := x
    intro y hy
    simp only [bumpEntries] at hy
    split_ifs at hy <;> simp only [List.map_cons, List.mem_cons] at hy ⊢
    · exact hy
    · exact .inr hy
    · rcases hy with rfl | hy
      · exact .inr (.inl rfl)
      · exact (ih y hy).imp_right .inr

theorem sorted_bumpEntries (frame : Frame) (l : List (Frame × Nat))
    (h : (l.map Prod.fst).Pairwise (· < ·)) :
    ((bumpEntries frame l).map Prod.fst).Pairwise (· < ·) := by
  induction l with
  | nil => simp [bumpEntries]
  | cons x rest ih =>
    obtain ⟨g, c⟩ := x
    simp only [List.map_cons, List.pairwise_cons] at h
    simp only [bumpEntries]
    split_ifs with h₁ h₂
    · simp only [List.map_cons, List.pairwise_cons, List.mem_cons]
      refine ⟨?_, h.1, h.2⟩
      rintro y (rfl | hy)
      · exact h₁
      · exact Frame.lt_trans h₁ (h.1 y hy)
    · simpa using h
    · have hg : g < frame := (Frame.lt_or_gt_of_ne h₂).resolve_left h₁
      simp only [List.map_cons, List.pairwise_cons]
      refine ⟨fun y hy => ?_, ih h.2⟩
      rcases keys_bumpEntries frame rest y hy with rfl | hy'
      · exact hg
      · exact h.1 y hy'

theorem pos_bumpEntries (frame : Frame) (l : List (Frame × Nat)) (h : ∀ e ∈ l, 0 < e.2) :
    ∀ e ∈ bumpEntries frame l, 0 < e.2 := by
  induction l with
  | nil => simp [bumpEntries]
  | cons x rest ih =>
    obtain ⟨g, c⟩ := x
    simp only [List.mem_cons, forall_eq_or_imp] at h
    simp only [bumpEntries]
    split_ifs <;> simp only [List.mem_cons, forall_eq_or_imp]
    · exact ⟨Nat.one_pos, h⟩
    · exact ⟨Nat.succ_pos _, h.2⟩
    · exact ⟨h.1, ih h.2⟩

theorem countIn_of_not_mem {f : Frame} {l : List (Frame × Nat)} (h : f ∉ l.map Prod.fst) :
    countIn f l = 0 := by
  induction l with
  | nil => rfl
  | cons x rest ih =>
    simp only [List.map_cons, List.mem_cons, not_or] at h
    simp only [countIn, if_neg h.1, ih h.2]

theorem countIn_bumpEntries (frame f : Frame) (l : List (Frame × Nat))
    (h : (l.map Prod.fst).Pairwise (· < ·)) :
    countIn f (bumpEntries frame l) = countIn f l + if f = frame then 1 else 0 := by
  induction l with
  | nil => simp [bumpEntries, countIn]
  | cons x rest ih =>
    obtain ⟨g, c⟩ := x
    simp only [List.map_cons, List.pairwise_cons] at h
    simp only [bumpEntries]
    by_cases h₁ : frame < g
    · have hnot : frame ∉ ((g, c) :: rest).map Prod.fst := by
        simp only [List.map_cons, List.mem_cons, not_or]
        exact ⟨fun e => Frame.lt_irrefl _ (e ▸ h₁),
          fun hm => Frame.lt_irrefl _ (Frame.lt_trans h₁ (h.1 _ hm))⟩
      by_cases hf : f = frame
      · subst hf
        rw [if_pos h₁, countIn_of_not_mem hnot]
        simp [countIn]
      · simp only [if_pos h₁, countIn, if_neg hf, Nat.add_zero]
    · by_cases h₂ : frame = g
      · subst h₂
        by_cases hf : f = frame <;> simp [countIn, hf, Frame.lt_irrefl]
      · have hg : g < frame := (Frame.lt_or_gt_of_ne h₂).resolve_left h₁
        simp only [if_neg h₁, if_neg h₂, countIn, ih h.2]
        by_cases hf : f = g
        · subst hf
          have hne : f ≠ frame := fun e => Frame.lt_irrefl _ (e ▸ hg)
          simp [hne]
        · simp [hf]

/-- The `BTreeMap<Frame, usize>` tally: entries in ascending frame order, every count positive. -/
structure Tally where
  entries : List (Frame × Nat)
  sorted : (entries.map Prod.fst).Pairwise (· < ·)
  pos : ∀ e ∈ entries, 0 < e.2

namespace Tally

/-- `BTreeMap::new()`. -/
def empty : Tally := ⟨[], .nil, by simp⟩

/-- `*tree.entry(frame).or_insert(0) += 1`. -/
def increment (t : Tally) (frame : Frame) : Tally :=
  ⟨bumpEntries frame t.entries, sorted_bumpEntries frame _ t.sorted,
    pos_bumpEntries frame _ t.pos⟩

/-- The count the map holds for `frame`. -/
def get (t : Tally) (frame : Frame) : Nat := countIn frame t.entries

@[simp] theorem get_empty (f : Frame) : empty.get f = 0 := rfl

@[simp] theorem get_increment (t : Tally) (frame f : Frame) :
    (t.increment frame).get f = t.get f + if f = frame then 1 else 0 :=
  countIn_bumpEntries frame f _ t.sorted

/-- An entry of the map is a frame with a positive count, paired with that count. -/
theorem mem_entries (t : Tally) (e : Frame × Nat) :
    e ∈ t.entries ↔ 0 < t.get e.1 ∧ e.2 = t.get e.1 := by
  obtain ⟨l, hs, hp⟩ := t
  simp only [get]
  induction l with
  | nil => simp [countIn]
  | cons x rest ih =>
    obtain ⟨g, c⟩ := x
    simp only [List.map_cons, List.pairwise_cons] at hs
    simp only [List.mem_cons, forall_eq_or_imp] at hp
    have ih := ih hs.2 hp.2
    obtain ⟨f, n⟩ := e
    simp only [countIn, List.mem_cons, Prod.mk.injEq] at ih ⊢
    by_cases hf : f = g
    · subst hf
      have hnot : (f, n) ∉ rest := fun hm =>
        Frame.lt_irrefl _ (hs.1 f (List.mem_map_of_mem Prod.fst hm))
      simp only [true_and, if_true]
      constructor
      · rintro (h | h)
        · exact ⟨h ▸ hp.1, h⟩
        · exact absurd h hnot
      · rintro ⟨-, h⟩
        exact .inl h
    · simp only [hf, false_and, false_or, if_false, ih]

/-- The tally after counting `frames`, one `increment` each, from `BTreeMap::new()`. -/
def ofFrames (frames : List Frame) : Tally := frames.foldl increment empty

theorem get_foldl_increment (frames : List Frame) (t : Tally) (f : Frame) :
    (frames.foldl increment t).get f = t.get f + frames.count f := by
  induction frames generalizing t with
  | nil => rfl
  | cons x rest ih =>
    rw [List.foldl_cons, ih, get_increment, List.count_cons]
    by_cases h : f = x
    · subst h
      simp [Nat.add_assoc, Nat.add_comm 1]
    · have h' : ¬ x = f := fun e => h e.symm
      simp [h, h']

/-- **The tally's entries**: after counting `frames`, the map holds exactly the frames met, each
with the number of times it was met. -/
theorem mem_ofFrames (frames : List Frame) (e : Frame × Nat) :
    e ∈ (ofFrames frames).entries ↔ e.1 ∈ frames ∧ e.2 = frames.count e.1 := by
  rw [mem_entries, ofFrames, get_foldl_increment, get_empty, Nat.zero_add, List.count_pos_iff]

end Tally

end Homunculi.Debugger
