import Homunculi.Paging.Table

/-!
# Context — grants and address spaces

`crate::context::memory` is not part of the source. `check_consistency` reads an `AddrSpace`'s
user table and its `UserGrants`, looks pages up with `UserGrants::contains`, and reads a
grant's `flags()` and `page_count()`. They are modelled from the spec's Grant Region Map
(§3, §4.4): grants ordered by base page and never overlapping, the point lookup returning the
grant whose range holds the page, or nothing.

Ordering and disjointness are fields of `UserGrants`, so a map that breaks them cannot be
built; `covers_unique` is what they buy: at most one grant holds a page, so the lookup's answer
does not depend on how it searches (`contains_eq_some_iff`).
-/

namespace Homunculi.Context

open Homunculi.Paging

/-- Modelled from the spec: `GrantInfo` as the walk reads it, `page_count()` and the intended
`flags()`. -/
structure GrantInfo where
  pageCount : Usize
  flags : PageFlags
deriving DecidableEq, Repr

/-- The grant based at `base` holds `page`: `base ≤ page < base + page_count`. -/
def GrantInfo.Covers (grant : GrantInfo) (base page : Page) : Prop :=
  base.number.toNat ≤ page.number.toNat ∧
    page.number.toNat < base.number.toNat + grant.pageCount.toNat

instance (grant : GrantInfo) (base page : Page) : Decidable (grant.Covers base page) :=
  inferInstanceAs (Decidable (_ ∧ _))

/-- Modelled from the spec: `UserGrants`, the grants of one address space by base page, in
ascending order, each ending before the next begins, none empty. -/
structure UserGrants where
  inner : List (Page × GrantInfo)
  ordered : inner.Pairwise fun a b => a.1.number.toNat + a.2.pageCount.toNat ≤ b.1.number.toNat
  nonempty : ∀ g ∈ inner, g.2.pageCount ≠ 0

namespace UserGrants

/-- Modelled from the spec: `UserGrants::contains`, the `(base, grant)` whose range holds
`page`, or nothing. -/
def contains (grants : UserGrants) (page : Page) : Option (Page × GrantInfo) :=
  grants.inner.find? fun g => decide (g.2.Covers g.1 page)

/-- At most one grant of a map holds a given page. -/
theorem covers_unique (grants : UserGrants) {a b : Page × GrantInfo} {page : Page}
    (ha : a ∈ grants.inner) (hb : b ∈ grants.inner) (hpa : a.2.Covers a.1 page)
    (hpb : b.2.Covers b.1 page) : a = b := by
  unfold GrantInfo.Covers at hpa hpb
  revert ha hb
  generalize grants.inner = l, grants.ordered = ordered
  intro ha hb
  induction l with
  | nil => cases ha
  | cons x rest ih =>
    rw [List.pairwise_cons] at ordered
    rcases List.mem_cons.1 ha with rfl | ha' <;> rcases List.mem_cons.1 hb with rfl | hb'
    · rfl
    · have := ordered.1 b hb'
      omega
    · have := ordered.1 a ha'
      omega
    · exact ih ordered.2 ha' hb'

/-- **Point lookup**: `contains` returns exactly the grant of the map that holds the page. -/
theorem contains_eq_some_iff (grants : UserGrants) (page base : Page) (grant : GrantInfo) :
    grants.contains page = some (base, grant) ↔
      (base, grant) ∈ grants.inner ∧ grant.Covers base page := by
  constructor
  · intro h
    exact ⟨List.mem_of_find?_eq_some h, by simpa using List.find?_some h⟩
  · rintro ⟨hmem, hcov⟩
    obtain ⟨x, hx⟩ := Option.isSome_iff_exists.1
      (List.find?_isSome.2 ⟨(base, grant), hmem, by simpa using hcov⟩ :
        (grants.inner.find? fun g => decide (g.2.Covers g.1 page)).isSome)
    have hxc : x.2.Covers x.1 page := by simpa using List.find?_some hx
    rw [contains, hx, grants.covers_unique (List.mem_of_find?_eq_some hx) hmem hxc hcov]

theorem contains_eq_none_iff (grants : UserGrants) (page : Page) :
    grants.contains page = none ↔ ∀ g ∈ grants.inner, ¬ g.2.Covers g.1 page := by
  simp [contains, List.find?_eq_none]

end UserGrants

/-- Modelled from the spec: `AddrSpace` as `check_consistency` reads it, the root of the user
table (`table.utable.table()`) and the grants. -/
structure AddrSpace where
  table : PageTable4
  grants : UserGrants

end Homunculi.Context
