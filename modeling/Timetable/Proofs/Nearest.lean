/-
**The nearest element of a set, and searches that find it.**

A search walks up or down an order and yields the first element of some set that it meets.  Whether
it walks up or down, the same few facts make a search exact: a list walked in order yields its first
hit, two searches can be made one after the other if the first covers what comes before, and a
search in several places is the search in their union.  They are proved here once for both ways, so
that nothing about a particular search has to be proved twice.

Main definitions:

* `Direction.Precedes` — the order in which elements are met;
* `Direction.IsNearest` — the first element of a set on the walk, the least or the greatest;
* `Direction.Finds` — **what a search of a set yields**: its nearest element, or nothing if there is
  none.

Main results:

* `Direction.Finds.eq_some_iff`, `Direction.Finds.eq_none_iff` — the set determines what is found;
* `Direction.finds_find?`, `Direction.finds_findSome?` — walking a list;
* `Direction.Finds.or`, `Direction.Finds.map`, `Direction.Finds.guard` — one search after another, a
  search carried over to another order, and a search under a condition.
-/

import Mathlib.Order.Bounds.Basic
import Timetable.Search

set_option relaxedAutoImplicit false
set_option autoImplicit false

namespace Timetable

namespace Direction

/-! ### Walking order -/

/-- The walk meets `x` no later than `y`. -/
def Precedes {α : Type} [LE α] : Direction → α → α → Prop
  | forward, x, y => x ≤ y
  | backward, x, y => y ≤ x

variable {α β ι : Type} {dir : Direction}

theorem Precedes.refl [Preorder α] (dir : Direction) (x : α) : dir.Precedes x x := by
  cases dir <;> exact le_refl x

theorem Precedes.trans [Preorder α] {x y z : α} (h : dir.Precedes x y) (h' : dir.Precedes y z) :
    dir.Precedes x z := by
  cases dir with
  | forward => exact le_trans (a := x) h h'
  | backward => exact le_trans (a := z) h' h

theorem Precedes.antisymm [PartialOrder α] {x y : α} (h : dir.Precedes x y)
    (h' : dir.Precedes y x) : x = y := by
  cases dir with
  | forward => exact le_antisymm h h'
  | backward => exact le_antisymm h' h

theorem Precedes.total [LinearOrder α] (dir : Direction) (x y : α) :
    dir.Precedes x y ∨ dir.Precedes y x := by
  cases dir with
  | forward => exact le_total x y
  | backward => exact le_total y x

/-! ### Nearest elements -/

/-- `x` is the first element of the set on the walk. -/
def IsNearest [LE α] (dir : Direction) (s : Set α) (x : α) : Prop :=
  x ∈ s ∧ ∀ y ∈ s, dir.Precedes x y

theorem isNearest_forward [LE α] {s : Set α} {x : α} : forward.IsNearest s x ↔ IsLeast s x :=
  Iff.rfl

theorem isNearest_backward [LE α] {s : Set α} {x : α} :
    backward.IsNearest s x ↔ IsGreatest s x :=
  Iff.rfl

theorem IsNearest.unique [PartialOrder α] {s : Set α} {x y : α} (hx : dir.IsNearest s x)
    (hy : dir.IsNearest s y) : x = y :=
  (hx.2 y hy.1).antisymm (hy.2 x hx.1)

/-- **What a search of a set yields**: its nearest element, or nothing if the set is empty. -/
def Finds [LE α] (dir : Direction) (s : Set α) : Option α → Prop
  | none => s = ∅
  | some x => dir.IsNearest s x

namespace Finds

theorem eq_none_iff [LE α] {s : Set α} {a : Option α} (h : dir.Finds s a) :
    a = none ↔ s = ∅ := by
  cases a with
  | none => exact ⟨fun _ => h, fun _ => rfl⟩
  | some x =>
      have hx : x ∈ s := h.1
      constructor
      · intro h'; cases h'
      · rintro rfl; cases hx

theorem eq_some_iff [PartialOrder α] {s : Set α} {a : Option α} (h : dir.Finds s a) {x : α} :
    a = some x ↔ dir.IsNearest s x := by
  cases a with
  | none =>
      have hs : s = ∅ := h
      constructor
      · intro h'; cases h'
      · intro hx; rw [hs] at hx; cases hx.1
  | some y =>
      constructor
      · intro h'; cases h'; exact h
      · intro hx; rw [hx.unique h]

theorem congr [LE α] {s t : Set α} {a : Option α} (h : dir.Finds s a)
    (hst : ∀ x, x ∈ s ↔ x ∈ t) : dir.Finds t a :=
  (Set.ext hst : s = t) ▸ h

theorem none_of_forall [LE α] {s : Set α} (h : ∀ x, x ∉ s) : dir.Finds s none :=
  Set.eq_empty_iff_forall_notMem.2 h

/-- A second search takes over where a first one finds nothing.  Whatever only the second one
covers has to come behind all that the first one covers. -/
theorem or [LE α] {s t : Set α} {a b : Option α} (ha : dir.Finds s a) (hb : dir.Finds t b)
    (h : ∀ x ∈ s, ∀ y ∈ t, y ∈ s ∨ dir.Precedes x y) : dir.Finds (s ∪ t) (a.or b) := by
  cases a with
  | none =>
      have hs : s = ∅ := ha
      rw [Option.none_or, hs, Set.empty_union]
      exact hb
  | some x =>
      refine ⟨Or.inl ha.1, ?_⟩
      rintro y (hy | hy)
      · exact ha.2 y hy
      · rcases h x ha.1 y hy with hy | hxy
        · exact ha.2 y hy
        · exact hxy

/-- A search carried over by a map that keeps the order. -/
theorem map [LE α] [LE β] {s : Set α} {a : Option α} (h : dir.Finds s a) {f : α → β}
    (hf : ∀ x ∈ s, ∀ y ∈ s, dir.Precedes x y → dir.Precedes (f x) (f y)) :
    dir.Finds (f '' s) (a.map f) := by
  cases a with
  | none =>
      have hs : s = ∅ := h
      rw [Option.map_none, hs, Set.image_empty]
      rfl
  | some x =>
      refine ⟨⟨x, h.1, rfl⟩, ?_⟩
      rintro _ ⟨y, hy, rfl⟩
      exact hf x h.1 y hy (h.2 y hy)

/-- A search made only under a condition that all it could find has to meet. -/
theorem guard [LE α] {s : Set α} {a : Option α} {b : Bool} (hs : ∀ x ∈ s, b = true)
    (h : b = true → dir.Finds s a) : dir.Finds s (if b then a else none) := by
  cases b with
  | true => exact h rfl
  | false => exact none_of_forall fun x hx => Bool.false_ne_true (hs x hx)

end Finds

/-! ### Walking a list -/

/-- The first hit in a list that is in walking order. -/
theorem finds_find? [Preorder α] {l : List α} (hl : l.Pairwise dir.Precedes) (p : α → Bool) :
    dir.Finds {x | x ∈ l ∧ p x = true} (l.find? p) := by
  induction l with
  | nil => exact Finds.none_of_forall fun x hx => by simpa using hx.1
  | cons a l ih =>
      rw [List.pairwise_cons] at hl
      by_cases ha : p a = true
      · rw [List.find?_cons_of_pos ha]
        refine ⟨⟨List.mem_cons_self, ha⟩, ?_⟩
        rintro y ⟨hy, -⟩
        rcases List.mem_cons.1 hy with rfl | hy
        · exact Precedes.refl dir _
        · exact hl.1 y hy
      · rw [List.find?_cons_of_neg ha]
        refine (ih hl.2).congr fun x => ?_
        constructor
        · rintro ⟨hx, hp⟩; exact ⟨List.mem_cons_of_mem a hx, hp⟩
        · rintro ⟨hx, hp⟩
          rcases List.mem_cons.1 hx with rfl | hx
          · exact absurd hp ha
          · exact ⟨hx, hp⟩

/-- The first search of a list of searches that finds something.  What a search covers has to come
before all that a later one covers. -/
theorem finds_findSome? [LE α] {l : List ι} {s : ι → Set α} {f : ι → Option α}
    (hl : l.Pairwise fun i j => ∀ x ∈ s i, ∀ y ∈ s j, dir.Precedes x y)
    (hf : ∀ i ∈ l, dir.Finds (s i) (f i)) :
    dir.Finds {x | ∃ i ∈ l, x ∈ s i} (l.findSome? f) := by
  -- one search after another, the later ones together found by induction
  induction l with
  | nil => exact Finds.none_of_forall fun x hx => by obtain ⟨i, hi, -⟩ := hx; cases hi
  | cons i l ih =>
      rw [List.pairwise_cons] at hl
      have hcons : (i :: l).findSome? f = (f i).or (l.findSome? f) := by
        rw [List.findSome?_cons]
        cases f i <;> rfl
      rw [hcons]
      refine Finds.congr (Finds.or (hf i List.mem_cons_self)
        (ih hl.2 fun j hj => hf j (List.mem_cons_of_mem i hj)) ?_) fun x => ?_
      · rintro x hx y ⟨j, hj, hy⟩
        exact Or.inr (hl.1 j hj x hx y hy)
      · simp [Set.mem_union]

end Direction

end Timetable
