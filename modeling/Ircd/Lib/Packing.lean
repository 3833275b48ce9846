import Mathlib.Data.List.Basic

/-! Items put into groups by a loop that closes a group once it is full.

The test comes behind the item, so a closed group was not full before its last item unless it
has no other.
-/

set_option autoImplicit false

structure Packing (α : Type*) where
  closed : List (List α)
  current : List α

namespace Packing

variable {α : Type*}

def empty : Packing α := { closed := [], current := [] }

def items (p : Packing α) : List α := p.closed.flatten ++ p.current

variable (full : List α → Bool)

def add (p : Packing α) (a : α) : Packing α :=
  if full (p.current ++ [a]) then { closed := p.closed ++ [p.current ++ [a]], current := [] }
  else { p with current := p.current ++ [a] }

theorem items_add (p : Packing α) (a : α) : (p.add full a).items = p.items ++ [a] := by
  unfold add
  split
  · simp [items]
  · simp [items]

theorem items_addAll (as : List α) (p : Packing α) :
    (as.foldl (add full) p).items = p.items ++ as := by
  induction as generalizing p with
  | nil => exact (List.append_nil _).symm
  | cons a as ih => rw [List.foldl_cons, ih, items_add, List.append_assoc, List.singleton_append]

structure Tight (p : Packing α) : Prop where
  closed : ∀ group ∈ p.closed, ∃ front last, group = front ++ [last] ∧
    (front = [] ∨ full front = false)
  current : p.current = [] ∨ full p.current = false

variable {full}

theorem Tight.empty : Tight full (empty : Packing α) := ⟨nofun, .inl rfl⟩

theorem Tight.add {p : Packing α} (h : Tight full p) (a : α) : Tight full (p.add full a) := by
  unfold Packing.add
  split
  · refine ⟨fun group inside => ?_, .inl rfl⟩
    rcases List.mem_append.1 inside with old | new
    · exact h.closed group old
    · exact ⟨p.current, a, List.mem_singleton.1 new, h.current⟩
  · next room => exact ⟨h.closed, .inr (Bool.eq_false_iff.2 room)⟩

theorem Tight.addAll (as : List α) {p : Packing α} (h : Tight full p) :
    Tight full (as.foldl (Packing.add full) p) := by
  induction as generalizing p with
  | nil => exact h
  | cons a as ih => exact ih (h.add a)

end Packing
