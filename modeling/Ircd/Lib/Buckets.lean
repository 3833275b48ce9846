import Ircd.Lib.Chain

/-! Doubly linked lists that share their cells: one head for each key, and no cell on
two of the lists.
-/

set_option autoImplicit false

structure Buckets (K A : Type*) where
  next : A → Option A
  prev : A → Option A
  heads : K → Option A

namespace Buckets

open Chain

variable {K A : Type*}

def empty : Buckets K A := { next := fun _ => none, prev := fun _ => none, heads := fun _ => none }

/-- The cells on the list of a key, at most `fuel` of them. -/
def cells (b : Buckets K A) (fuel : Nat) (k : K) : List A := walk b.next fuel (b.heads k)

structure Holds (b : Buckets K A) (lists : K → List A) : Prop where
  double : ∀ k, Double b.next b.prev (b.heads k) (lists k)
  nodup : ∀ k, (lists k).Nodup
  apart : ∀ k k' a, a ∈ lists k → a ∈ lists k' → k = k'

variable {b : Buckets K A} {lists : K → List A} {k : K} {a : A}

theorem Holds.empty : (Buckets.empty : Buckets K A).Holds fun _ => [] where
  double := fun _ => ⟨rfl, trivial⟩
  nodup := fun _ => .nil
  apart := fun _ _ _ inside => nomatch inside

theorem Holds.cells_eq (h : b.Holds lists) {fuel : Nat} (enough : (lists k).length ≤ fuel) :
    b.cells fuel k = lists k :=
  (h.double k).forth.walk_eq enough

theorem Holds.head_eq (h : b.Holds lists) (k : K) : b.heads k = (lists k).head? :=
  (h.double k).forth.head?_eq

variable [DecidableEq K] [DecidableEq A]

def link (b : Buckets K A) (k : K) (a : A) : Buckets K A where
  next := Function.update b.next a (b.heads k)
  prev := prevFront b.prev a (b.heads k)
  heads := Function.update b.heads k (some a)

def unlink (b : Buckets K A) (k : K) (a : A) : Buckets K A where
  next := nextAfter b.next (b.prev a) (b.next a)
  prev := prevAfter b.prev (b.prev a) (b.next a)
  heads := Function.update b.heads k (headAfter (b.heads k) (b.prev a) (b.next a))

def clear (b : Buckets K A) (a : A) : Buckets K A :=
  { b with next := Function.update b.next a none, prev := Function.update b.prev a none }

omit [DecidableEq K] in
theorem Holds.clear (h : b.Holds lists) (outside : ∀ k, a ∉ lists k) :
    (b.clear a).Holds lists where
  double := fun k => by
    have other : ∀ c ∈ lists k, c ≠ a := by
      rintro c inside rfl
      exact outside k inside
    exact (h.double k).congr (fun c inside => Function.update_of_ne (other c inside) ..)
      fun c inside => Function.update_of_ne (other c inside) ..
  nodup := h.nodup
  apart := h.apart

theorem Holds.link (h : b.Holds lists) (fresh : ∀ k', a ∉ lists k') :
    (b.link k a).Holds (Function.update lists k (a :: lists k)) where
  double := fun k' => by
    by_cases same : k' = k
    · subst same
      simp only [Buckets.link, Function.update_self]
      exact (h.double k').link (h.nodup k') (fresh k')
    · simp only [Buckets.link, Function.update_of_ne same]
      refine (h.double k').congr (fun c inside => ?_) (fun c inside => ?_)
      · have other : c ≠ a := fun equal => fresh k' (equal ▸ inside)
        exact Function.update_of_ne other ..
      · have other : c ≠ a := fun equal => fresh k' (equal ▸ inside)
        refine prevFront_of_ne other fun first => same ?_
        rw [h.head_eq k] at first
        exact h.apart k' k c inside (List.mem_of_head? first)
  nodup := fun k' => by
    by_cases same : k' = k
    · subst same
      rw [Function.update_self]
      exact List.nodup_cons.2 ⟨fresh k', h.nodup k'⟩
    · rw [Function.update_of_ne same]
      exact h.nodup k'
  apart := fun k' k'' c inside inside' => by
    have only : ∀ k', c ∈ Function.update lists k (a :: lists k) k' →
        c = a ∧ k' = k ∨ c ∈ lists k' := by
      intro k' inside
      by_cases same : k' = k
      · subst same
        rw [Function.update_self, List.mem_cons] at inside
        exact inside.imp (fun equal => ⟨equal, rfl⟩) id
      · rw [Function.update_of_ne same] at inside
        exact .inr inside
    rcases only k' inside with ⟨rfl, rfl⟩ | old
    · rcases only k'' inside' with ⟨_, rfl⟩ | old'
      · rfl
      · exact absurd old' (fresh k'')
    · rcases only k'' inside' with ⟨rfl, rfl⟩ | old'
      · exact absurd old (fresh k')
      · exact h.apart k' k'' c old old'

theorem Holds.unlink (h : b.Holds lists) {pre post : List A} (here : lists k = pre ++ a :: post) :
    (b.unlink k a).Holds (Function.update lists k (pre ++ post)) where
  double := fun k' => by
    have nodup := h.nodup k
    have double := h.double k
    rw [here] at nodup double
    by_cases same : k' = k
    · subst same
      simp only [Buckets.unlink, Function.update_self]
      exact double.unlink nodup
    · simp only [Buckets.unlink, Function.update_of_ne same]
      -- the two neighbours are in the chain of `k`, so no other chain is written
      have before : b.prev a = pre.getLast? := by rw [double.back.prev_eq, Option.or_none]
      have after : b.next a = post.head? := double.forth.next_eq
      have outside : ∀ c ∈ lists k', c ∉ pre ++ a :: post := fun c inside also =>
        same (h.apart k' k c inside (here ▸ also))
      refine (h.double k').congr (fun c inside => ?_) (fun c inside => ?_)
      · refine nextAfter_of_ne fun equal => outside c inside ?_
        rw [before] at equal
        exact List.mem_append_left _ (List.mem_of_getLast? equal)
      · refine prevAfter_of_ne fun equal => outside c inside ?_
        rw [after] at equal
        exact List.mem_append_right _ (List.mem_cons_of_mem a (List.mem_of_head? equal))
  nodup := fun k' => by
    by_cases same : k' = k
    · subst same
      rw [Function.update_self]
      have nodup := h.nodup k'
      rw [here] at nodup
      exact nodup.sublist ((List.sublist_cons_self a post).append_left pre)
    · rw [Function.update_of_ne same]
      exact h.nodup k'
  apart := fun k' k'' c inside inside' => by
    have was : ∀ k', c ∈ Function.update lists k (pre ++ post) k' → c ∈ lists k' := by
      intro k' inside
      by_cases same : k' = k
      · subst same
        rw [Function.update_self] at inside
        rw [here]
        exact ((List.sublist_cons_self a post).append_left pre).subset inside
      · rwa [Function.update_of_ne same] at inside
    exact h.apart k' k'' c (was k' inside) (was k'' inside')

end Buckets
