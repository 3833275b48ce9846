import Mathlib.Data.List.Nodup
import Mathlib.Logic.Function.Basic

/-! Linked lists in a memory: `next` gives the successor of a cell, `prev` the one before.

`Linked next p cells` says that the cells hang from `p` in this order and that the last
one ends the list, `Double` that each points back as well. A write outside of the cells
leaves a list alone.
-/

set_option autoImplicit false

namespace Chain

variable {A : Type*}

def Linked (next : A → Option A) : Option A → List A → Prop
  | p, [] => p = none
  | p, a :: cells => p = some a ∧ Linked next (next a) cells

/-- The cells from `p` on, at most `fuel` of them. -/
def walk (next : A → Option A) : Nat → Option A → List A
  | 0, _ => []
  | _ + 1, none => []
  | fuel + 1, some a => a :: walk next fuel (next a)

variable {next next' : A → Option A} {p : Option A} {cells : List A}

@[simp] theorem linked_nil : Linked next p [] ↔ p = none := Iff.rfl

@[simp] theorem linked_cons {a : A} :
    Linked next p (a :: cells) ↔ p = some a ∧ Linked next (next a) cells := Iff.rfl

theorem Linked.walk_eq (h : Linked next p cells) {fuel : Nat} (enough : cells.length ≤ fuel) :
    walk next fuel p = cells := by
  induction cells generalizing p fuel with
  | nil =>
    cases h
    cases fuel <;> rfl
  | cons a cells ih =>
    obtain ⟨rfl, rest⟩ := h
    cases fuel with
    | zero => cases enough
    | succ fuel => rw [walk, ih rest (Nat.le_of_succ_le_succ enough)]

theorem Linked.congr (h : Linked next p cells) (same : ∀ a ∈ cells, next' a = next a) :
    Linked next' p cells := by
  induction cells generalizing p with
  | nil => exact h
  | cons a cells ih =>
    rw [linked_cons] at h ⊢
    rw [same a List.mem_cons_self]
    exact ⟨h.1, ih h.2 fun b inside => same b (List.mem_cons_of_mem a inside)⟩

theorem Linked.head?_eq (h : Linked next p cells) : p = cells.head? := by
  cases cells with
  | nil => exact h
  | cons a cells => exact h.1

theorem Linked.next_last (h : Linked next p cells) {a : A} (last : cells.getLast? = some a) :
    next a = none := by
  induction cells generalizing p with
  | nil => cases last
  | cons b cells ih =>
    cases cells with
    | nil =>
      cases last
      exact h.2
    | cons c cells => exact ih h.2 (by rwa [List.getLast?_cons_cons] at last)

variable [DecidableEq A]

theorem Linked.update (h : Linked next p cells) {a : A} (outside : a ∉ cells) (q : Option A) :
    Linked (Function.update next a q) p cells := by
  apply h.congr
  intro b inside
  have other : b ≠ a := by
    rintro rfl
    exact outside inside
  rw [Function.update_of_ne other]

theorem Linked.snoc (h : Linked next p cells) (nodup : cells.Nodup) {a b : A}
    (last : cells.getLast? = some a) (fresh : b ∉ cells) (ends : next b = none) :
    Linked (Function.update next a (some b)) p (cells ++ [b]) := by
  induction cells generalizing p with
  | nil => cases last
  | cons c cells ih =>
    obtain ⟨outside, nodup⟩ := List.nodup_cons.1 nodup
    obtain ⟨start, rest⟩ := h
    rw [List.cons_append, linked_cons]
    refine ⟨start, ?_⟩
    cases cells with
    | nil =>
      have same : c = a := Option.some.inj last
      have other : b ≠ a := fun equal => fresh (equal ▸ same ▸ List.mem_singleton_self c)
      rw [same, Function.update_self, List.nil_append, linked_cons]
      exact ⟨rfl, by rw [Function.update_of_ne other, linked_nil, ends]⟩
    | cons d cells =>
      have behind : (d :: cells).getLast? = some a := by rwa [List.getLast?_cons_cons] at last
      have other : c ≠ a := fun same => outside (same ▸ List.mem_of_getLast? behind)
      rw [Function.update_of_ne other]
      exact ih rest nodup behind fun inside => fresh (List.mem_cons_of_mem c inside)

/-- Each cell points back to the one before, the first to `q`. -/
def Back (prev : A → Option A) : Option A → List A → Prop
  | _, [] => True
  | q, a :: cells => prev a = q ∧ Back prev (some a) cells

structure Double (next prev : A → Option A) (p : Option A) (cells : List A) : Prop where
  forth : Linked next p cells
  back : Back prev none cells

variable {prev prev' : A → Option A} {q : Option A} {pre post : List A} {a : A}

omit [DecidableEq A] in
theorem Back.congr (h : Back prev q cells) (same : ∀ a ∈ cells, prev' a = prev a) :
    Back prev' q cells := by
  induction cells generalizing q with
  | nil => trivial
  | cons a cells ih =>
    exact ⟨(same a List.mem_cons_self).trans h.1,
      ih h.2 fun b inside => same b (List.mem_cons_of_mem a inside)⟩

omit [DecidableEq A] in
theorem Double.congr (h : Double next prev p cells) (forth : ∀ a ∈ cells, next' a = next a)
    (back : ∀ a ∈ cells, prev' a = prev a) : Double next' prev' p cells :=
  ⟨h.forth.congr forth, h.back.congr back⟩

omit [DecidableEq A] in
theorem Linked.next_eq (h : Linked next p (pre ++ a :: post)) : next a = post.head? := by
  induction pre generalizing p with
  | nil => exact h.2.head?_eq
  | cons b pre ih => exact ih h.2

omit [DecidableEq A] in
theorem Back.prev_eq (h : Back prev q (pre ++ a :: post)) : prev a = (pre.getLast?).or q := by
  induction pre generalizing q with
  | nil => exact h.1
  | cons b pre ih =>
    rw [ih h.2]
    cases pre with
    | nil => rfl
    | cons c pre => rw [List.getLast?_cons_cons, List.getLast?_cons]; rfl

def nextAfter (next : A → Option A) (q n : Option A) : A → Option A :=
  match q with
  | none => next
  | some b => Function.update next b n

def prevAfter (prev : A → Option A) (q n : Option A) : A → Option A :=
  match n with
  | none => prev
  | some c => Function.update prev c q

theorem nextAfter_of_ne {n : Option A} {b : A} (other : q ≠ some b) :
    nextAfter next q n b = next b := by
  cases q with
  | none => rfl
  | some c => exact Function.update_of_ne (fun same => other (congrArg some same.symm)) ..

theorem prevAfter_of_ne {n : Option A} {b : A} (other : n ≠ some b) :
    prevAfter prev q n b = prev b := by
  cases n with
  | none => rfl
  | some c => exact Function.update_of_ne (fun same => other (congrArg some same.symm)) ..

def headAfter (p q n : Option A) : Option A :=
  match q with
  | none => n
  | some _ => p

theorem Linked.unlink (h : Linked next p (pre ++ a :: post)) (nodup : (pre ++ a :: post).Nodup) :
    Linked (nextAfter next pre.getLast? (next a)) (headAfter p pre.getLast? (next a))
      (pre ++ post) := by
  induction pre generalizing p with
  | nil => exact h.2
  | cons c pre ih =>
    obtain ⟨outside, nodup⟩ := List.nodup_cons.1 nodup
    obtain ⟨start, rest⟩ := h
    cases pre with
    | nil =>
      have other : c ∉ post := fun inside => outside (List.mem_cons_of_mem a inside)
      refine ⟨start, ?_⟩
      simp only [List.getLast?_singleton, nextAfter, Function.update_self]
      exact rest.2.update other (next a)
    | cons d pre =>
      have later := ih rest nodup
      rw [List.getLast?_cons_cons]
      cases last : (d :: pre).getLast? with
      | none =>
        rw [List.getLast?_eq_none_iff] at last
        cases last
      | some b =>
        rw [last] at later
        have inside : b ∈ d :: pre := List.mem_of_getLast? last
        have other : c ≠ b := fun same => outside (same ▸ List.mem_append_left _ inside)
        refine ⟨start, ?_⟩
        simp only [nextAfter, Function.update_of_ne other]
        exact later

theorem Back.unlink (h : Back prev q (pre ++ a :: post)) (nodup : (pre ++ a :: post).Nodup) :
    Back (prevAfter prev (prev a) post.head?) q (pre ++ post) := by
  induction pre generalizing q with
  | nil =>
    obtain ⟨same, rest⟩ := h
    cases post with
    | nil => trivial
    | cons c post =>
      obtain ⟨_, nodup⟩ := List.nodup_cons.1 nodup
      obtain ⟨outside, _⟩ := List.nodup_cons.1 nodup
      refine ⟨?_, rest.2.congr fun b inside => ?_⟩
      · simp only [List.head?_cons, prevAfter, Function.update_self, same]
      · have other : b ≠ c := fun equal => outside (equal ▸ inside)
        simp only [List.head?_cons, prevAfter, Function.update_of_ne other]
  | cons d pre ih =>
    obtain ⟨outside, nodup⟩ := List.nodup_cons.1 nodup
    refine ⟨?_, ih h.2 nodup⟩
    cases post with
    | nil => exact h.1
    | cons c post =>
      have other : d ≠ c := by
        rintro rfl
        exact outside (List.mem_append_right _ (List.mem_cons_of_mem _ List.mem_cons_self))
      simp only [List.head?_cons, prevAfter, Function.update_of_ne other]
      exact h.1

theorem Double.unlink (h : Double next prev p (pre ++ a :: post))
    (nodup : (pre ++ a :: post).Nodup) :
    Double (nextAfter next (prev a) (next a)) (prevAfter prev (prev a) (next a))
      (headAfter p (prev a) (next a)) (pre ++ post) := by
  have before : prev a = pre.getLast? := by rw [h.back.prev_eq, Option.or_none]
  have after : next a = post.head? := h.forth.next_eq
  refine ⟨?_, ?_⟩
  · rw [before]
    exact h.forth.unlink nodup
  · rw [after]
    exact h.back.unlink nodup

/-- The writes to `prev` that put a cell in front of `p`. -/
def prevFront (prev : A → Option A) (a : A) (p : Option A) : A → Option A :=
  match p with
  | none => Function.update prev a none
  | some c => Function.update (Function.update prev a none) c (some a)

theorem prevFront_of_ne {b : A} (new : b ≠ a) (other : p ≠ some b) :
    prevFront prev a p b = prev b := by
  cases p with
  | none => exact Function.update_of_ne new ..
  | some c =>
    have notFirst : b ≠ c := fun same => other (congrArg some same.symm)
    exact (Function.update_of_ne notFirst ..).trans (Function.update_of_ne new ..)

theorem Double.link (h : Double next prev p cells) (nodup : cells.Nodup) (fresh : a ∉ cells) :
    Double (Function.update next a p) (prevFront prev a p) (some a) (a :: cells) := by
  have forth : Linked (Function.update next a p) (some a) (a :: cells) := by
    refine ⟨rfl, ?_⟩
    rw [Function.update_self]
    exact h.forth.update fresh p
  refine ⟨forth, ?_⟩
  have head := h.forth.head?_eq
  cases cells with
  | nil =>
    subst head
    exact ⟨Function.update_self .., trivial⟩
  | cons c cells =>
    subst head
    have other : a ≠ c := fun same => fresh (same ▸ List.mem_cons_self)
    refine ⟨?_, Function.update_self .., h.back.2.congr fun b inside => ?_⟩
    · simp only [List.head?_cons, prevFront, Function.update_of_ne other, Function.update_self]
    · have notFirst : b ≠ c := fun same => (List.nodup_cons.1 nodup).1 (same ▸ inside)
      have notNew : b ≠ a := fun same => fresh (same ▸ List.mem_cons_of_mem c inside)
      simp only [List.head?_cons, prevFront, Function.update_of_ne notFirst,
        Function.update_of_ne notNew]

end Chain
