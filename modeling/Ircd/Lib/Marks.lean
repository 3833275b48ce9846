import Mathlib.Data.List.Nodup
import Mathlib.Logic.Function.Basic

/-! A walk over a list that sends for some items and marks slots with a stamp, so that items
of one slot are sent for once.

The marks are left over from walks with other stamps. A slot that happens to carry the stamp
of this walk is taken for one that has been served.
-/

set_option autoImplicit false

inductive Turn where
  | skip
  | send
  /-- Send and mark the slot. -/
  | sendMark
  /-- Send and mark the slot unless it is marked. -/
  | sendOnce
  deriving DecidableEq, Repr

namespace Marks

variable {α σ τ : Type*} [DecidableEq σ] [DecidableEq τ]

def walk (turn : α → Turn) (slot : α → σ) (stamp : τ) (marks : σ → τ) :
    List α → (σ → τ) × List α
  | [] => (marks, [])
  | x :: xs =>
    let marked := Function.update marks (slot x) stamp
    match turn x with
    | .skip => walk turn slot stamp marks xs
    | .send => let (marks, sent) := walk turn slot stamp marks xs; (marks, x :: sent)
    | .sendMark => let (marks, sent) := walk turn slot stamp marked xs; (marks, x :: sent)
    | .sendOnce =>
      if marks (slot x) = stamp then walk turn slot stamp marks xs
      else let (marks, sent) := walk turn slot stamp marked xs; (marks, x :: sent)

variable {turn : α → Turn} {slot : α → σ} {stamp : τ} {marks : σ → τ} {xs : List α} {x : α} {f : σ}

theorem of_mem_walk (sent : x ∈ (walk turn slot stamp marks xs).2) : x ∈ xs ∧ turn x ≠ .skip := by
  induction xs generalizing marks with
  | nil => cases sent
  | cons y ys ih =>
    have later : ∀ marks', x ∈ (walk turn slot stamp marks' ys).2 →
        x ∈ y :: ys ∧ turn x ≠ .skip := by
      intro marks' inside
      exact ⟨List.mem_cons_of_mem y (ih inside).1, (ih inside).2⟩
    have here : turn y ≠ .skip → x = y → x ∈ y :: ys ∧ turn x ≠ .skip := by
      rintro turned rfl
      exact ⟨List.mem_cons_self, turned⟩
    unfold walk at sent
    cases turned : turn y with
    | skip =>
      simp only [turned] at sent
      exact later _ sent
    | send =>
      simp only [turned] at sent
      rcases List.mem_cons.1 sent with same | inside
      · exact here (by simp [turned]) same
      · exact later _ inside
    | sendMark =>
      simp only [turned] at sent
      rcases List.mem_cons.1 sent with same | inside
      · exact here (by simp [turned]) same
      · exact later _ inside
    | sendOnce =>
      simp only [turned] at sent
      split at sent
      · exact later _ sent
      · rcases List.mem_cons.1 sent with same | inside
        · exact here (by simp [turned]) same
        · exact later _ inside

theorem filter_walk (p : α → Bool) (free : ∀ x ∈ xs, p x = true → turn x ≠ .sendOnce) :
    (walk turn slot stamp marks xs).2.filter p = xs.filter fun x => p x ∧ turn x ≠ .skip := by
  induction xs generalizing marks with
  | nil => rfl
  | cons y ys ih =>
    have rest := fun marks' => @ih marks' fun x inside => free x (List.mem_cons_of_mem y inside)
    unfold walk
    cases here : p y with
    | true =>
      have other := free y List.mem_cons_self here
      cases turned : turn y with
      | skip => simp [turned, rest]
      | send => simp [turned, here, rest]
      | sendMark => simp [turned, here, rest]
      | sendOnce => exact absurd turned other
    | false =>
      cases turned : turn y with
      | skip => simp [here, rest]
      | send => simp [here, rest]
      | sendMark => simp [here, rest]
      | sendOnce =>
        simp only
        split
        · simp [here, rest]
        · simp [here, rest]

theorem length_walk (once : ∀ x ∈ xs, slot x = f → turn x = .skip ∨ turn x = .sendOnce) :
    ((walk turn slot stamp marks xs).2.filter fun x => slot x = f).length =
      if marks f ≠ stamp ∧ ∃ x ∈ xs, slot x = f ∧ turn x = .sendOnce then 1 else 0 := by
  induction xs generalizing marks with
  | nil => simp [walk]
  | cons y ys ih =>
    have rest := fun marks' => @ih marks' fun x inside => once x (List.mem_cons_of_mem y inside)
    unfold walk
    by_cases here : slot y = f
    · cases once y List.mem_cons_self here with
      | inl turned => simp [turned, rest]
      | inr turned =>
        by_cases served : marks f = stamp
        · simp [turned, here, served, rest]
        · simp [turned, here, served, rest]
    · have apart : f ≠ slot y := Ne.symm here
      cases turned : turn y with
      | skip => simp [here, rest]
      | send => simp [here, rest]
      | sendMark => simp [here, rest, Function.update_of_ne apart]
      | sendOnce =>
        simp only
        split
        · simp [here, rest]
        · simp [here, rest, Function.update_of_ne apart]

end Marks
