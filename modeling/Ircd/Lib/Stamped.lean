import Mathlib.Order.Lattice
import Mathlib.Data.List.Perm.Basic
import Mathlib.Data.List.Basic

/-! Values under a time stamp, merged by "the older stamp wins".

Values of the same stamp are joined, so the merge of any number of stamped values
is the join of those that carry the lowest stamp, in whatever order they come.
A receiver that starts from a default value joins this default into the first
value it sees; that is the only place where the order can show.
-/

set_option autoImplicit false

structure Stamped (τ α : Type*) where
  stamp : τ
  value : α

namespace Stamped

@[ext] theorem ext {τ α : Type*} {x y : Stamped τ α} (stamp : x.stamp = y.stamp)
    (value : x.value = y.value) : x = y := by
  cases x
  cases y
  simp only at stamp value
  rw [stamp, value]

variable {τ α : Type*} [LinearOrder τ] [SemilatticeSup α]

def merge (x y : Stamped τ α) : Stamped τ α :=
  if y.stamp < x.stamp then y
  else if x.stamp < y.stamp then x
  else ⟨x.stamp, x.value ⊔ y.value⟩

theorem merge_of_lt {x y : Stamped τ α} (h : x.stamp < y.stamp) : x.merge y = x := by
  rw [merge, if_neg (not_lt.2 h.le), if_pos h]

theorem merge_of_gt {x y : Stamped τ α} (h : y.stamp < x.stamp) : x.merge y = y := by
  rw [merge, if_pos h]

theorem merge_of_eq {x y : Stamped τ α} (h : x.stamp = y.stamp) :
    x.merge y = ⟨x.stamp, x.value ⊔ y.value⟩ := by
  rw [merge, if_neg (not_lt.2 h.le), if_neg (not_lt.2 h.ge)]

@[simp] theorem stamp_merge (x y : Stamped τ α) : (x.merge y).stamp = min x.stamp y.stamp := by
  rcases lt_trichotomy x.stamp y.stamp with lt | eq | gt
  · rw [merge_of_lt lt, min_eq_left lt.le]
  · rw [merge_of_eq eq, min_eq_left eq.le]
  · rw [merge_of_gt gt, min_eq_right gt.le]

theorem merge_comm (x y : Stamped τ α) : x.merge y = y.merge x := by
  rcases lt_trichotomy x.stamp y.stamp with lt | eq | gt
  · rw [merge_of_lt lt, merge_of_gt lt]
  · rw [merge_of_eq eq, merge_of_eq eq.symm, eq, sup_comm]
  · rw [merge_of_gt gt, merge_of_lt gt]

theorem merge_self (x : Stamped τ α) : x.merge x = x := by
  rw [merge_of_eq rfl, sup_idem]

theorem merge_right_comm (x y z : Stamped τ α) :
    (x.merge y).merge z = (x.merge z).merge y := by
  rcases lt_trichotomy x.stamp y.stamp with xy | xy | xy <;>
    rcases lt_trichotomy x.stamp z.stamp with xz | xz | xz
  · rw [merge_of_lt xy, merge_of_lt xz, merge_of_lt xy]
  · rw [merge_of_lt xy, merge_of_eq xz, merge_of_lt (by exact xy)]
  · rw [merge_of_lt xy, merge_of_gt xz, merge_of_lt (xz.trans xy)]
  · rw [merge_of_eq xy, merge_of_lt xz, merge_of_eq xy, merge_of_lt (by exact xz)]
  · rw [merge_of_eq xy, merge_of_eq xz, merge_of_eq (by exact xz), merge_of_eq (by exact xy),
      sup_right_comm]
  · rw [merge_of_eq xy, merge_of_gt xz, merge_of_gt (by exact xz), merge_of_lt (xz.trans_eq xy)]
  · rw [merge_of_gt xy, merge_of_lt xz, merge_of_gt xy, merge_of_lt (xy.trans xz)]
  · rw [merge_of_gt xy, merge_of_eq xz, merge_of_lt (xy.trans_eq xz), merge_of_gt (by exact xy)]
  · rw [merge_of_gt xy, merge_of_gt xz, merge_comm]

def mergeAll (x : Stamped τ α) (ys : List (Stamped τ α)) : Stamped τ α := ys.foldl merge x

theorem mergeAll_merge (x y : Stamped τ α) (ys : List (Stamped τ α)) :
    mergeAll (x.merge y) ys = (mergeAll x ys).merge y := by
  induction ys generalizing x with
  | nil => rfl
  | cons z ys ih =>
    simp only [mergeAll, List.foldl_cons] at ih ⊢
    rw [merge_right_comm, ih]

theorem mergeAll_perm {x y : Stamped τ α} {xs ys : List (Stamped τ α)}
    (h : (x :: xs).Perm (y :: ys)) : mergeAll x xs = mergeAll y ys := by
  -- merging the first value in once more makes both folds start from one value
  have start : ∀ (z : Stamped τ α) (zs : List (Stamped τ α)) (w : Stamped τ α),
      (z :: zs).foldl merge w = (mergeAll z zs).merge w := by
    intro z zs w
    rw [List.foldl_cons, merge_comm, ← mergeAll, mergeAll_merge]
  have fold : ∀ w : Stamped τ α, (mergeAll x xs).merge w = (mergeAll y ys).merge w := by
    intro w
    rw [← start, ← start]
    exact h.foldl_eq' (fun a _ b _ c => merge_right_comm c a b) w
  have left := fold (mergeAll x xs)
  have right := fold (mergeAll y ys)
  rw [merge_self] at left right
  rw [left, merge_comm, right]

theorem stamp_mergeAll_le (x : Stamped τ α) (ys : List (Stamped τ α)) :
    ∀ y ∈ x :: ys, (mergeAll x ys).stamp ≤ y.stamp := by
  induction ys generalizing x with
  | nil => simp [mergeAll]
  | cons z ys ih =>
    intro y member
    have step : (mergeAll x (z :: ys)).stamp ≤ (x.merge z).stamp := ih _ _ (List.mem_cons_self ..)
    rw [stamp_merge] at step
    simp only [List.mem_cons] at member
    rcases member with rfl | rfl | later
    · exact step.trans (min_le_left ..)
    · exact step.trans (min_le_right ..)
    · exact ih _ _ (List.mem_cons_of_mem _ later)

theorem exists_stamp_mergeAll (x : Stamped τ α) (ys : List (Stamped τ α)) :
    ∃ y ∈ x :: ys, (mergeAll x ys).stamp = y.stamp := by
  induction ys generalizing x with
  | nil => exact ⟨x, by simp, rfl⟩
  | cons z ys ih =>
    obtain ⟨y, member, same⟩ := ih (x.merge z)
    rcases List.mem_cons.1 member with rfl | later
    · rw [stamp_merge] at same
      rcases le_total x.stamp z.stamp with le | le
      · exact ⟨x, by simp, same.trans (min_eq_left le)⟩
      · exact ⟨z, by simp, same.trans (min_eq_right le)⟩
    · exact ⟨y, by simp [later], same⟩

/-- A property that a join has exactly when one side has it holds of a merge
exactly when it holds of one of the values with the lowest stamp. -/
theorem value_mergeAll_iff {p : α → Prop} (prime : ∀ a b, p (a ⊔ b) ↔ p a ∨ p b)
    (x : Stamped τ α) (ys : List (Stamped τ α)) :
    p (mergeAll x ys).value ↔
      ∃ y ∈ x :: ys, y.stamp = (mergeAll x ys).stamp ∧ p y.value := by
  induction ys generalizing x with
  | nil => simp [mergeAll]
  | cons z ys ih =>
    have unfolded : mergeAll x (z :: ys) = mergeAll (x.merge z) ys := rfl
    rw [unfolded, ih]
    have low : (mergeAll (x.merge z) ys).stamp ≤ (x.merge z).stamp :=
      stamp_mergeAll_le _ _ _ (List.mem_cons_self ..)
    have head : ((x.merge z).stamp = (mergeAll (x.merge z) ys).stamp ∧ p (x.merge z).value) ↔
        (x.stamp = (mergeAll (x.merge z) ys).stamp ∧ p x.value) ∨
          (z.stamp = (mergeAll (x.merge z) ys).stamp ∧ p z.value) := by
      generalize (mergeAll (x.merge z) ys).stamp = m at low
      rcases lt_trichotomy x.stamp z.stamp with lt | eq | gt
      · rw [merge_of_lt lt] at low ⊢
        have above : z.stamp ≠ m := (low.trans_lt lt).ne'
        simp [above]
      · rw [merge_of_eq eq] at low ⊢
        simp only [prime, ← eq]
        tauto
      · rw [merge_of_gt gt] at low ⊢
        have above : x.stamp ≠ m := (low.trans_lt gt).ne'
        simp [above]
    simp only [List.exists_mem_cons_iff, head, or_assoc]

def start (a : α) (x : Stamped τ α) : Stamped τ α := ⟨x.stamp, a ⊔ x.value⟩

/-- What a receiver with default `a` holds after the values of a list. -/
def arrive (a : α) : List (Stamped τ α) → Option (Stamped τ α)
  | [] => none
  | x :: xs => some (mergeAll (x.start a) xs)

theorem start_merge_of_le {a : α} {x y : Stamped τ α} (h : x.stamp ≤ y.stamp) :
    (x.start a).merge y = (x.merge y).start a := by
  rcases h.lt_or_eq with lt | eq
  · rw [merge_of_lt lt, merge_of_lt (by exact lt)]
  · rw [merge_of_eq eq, merge_of_eq (by exact eq)]
    simp only [start, sup_assoc]

theorem start_merge_of_gt {a : α} {x y : Stamped τ α} (h : y.stamp < x.stamp) :
    (x.start a).merge y = x.merge y := by
  rw [merge_of_gt h, merge_of_gt (by exact h)]

/-- The default stays in the result exactly when the first value had the lowest stamp. -/
theorem mergeAll_start (a : α) (x : Stamped τ α) (ys : List (Stamped τ α)) :
    mergeAll (x.start a) ys =
      if x.stamp = (mergeAll x ys).stamp then (mergeAll x ys).start a else mergeAll x ys := by
  induction ys generalizing x with
  | nil => simp [mergeAll]
  | cons z ys ih =>
    have unfolded : ∀ w : Stamped τ α, mergeAll w (z :: ys) = mergeAll (w.merge z) ys :=
      fun _ => rfl
    rw [unfolded, unfolded]
    have low : (mergeAll (x.merge z) ys).stamp ≤ (x.merge z).stamp :=
      stamp_mergeAll_le _ _ _ (List.mem_cons_self ..)
    rcases le_or_gt x.stamp z.stamp with le | gt
    · rw [start_merge_of_le le, ih, stamp_merge, min_eq_left le]
    · rw [start_merge_of_gt gt, if_neg]
      rw [merge_of_gt gt] at low ⊢
      exact (low.trans_lt gt).ne'

/-- Every order of arrival gives one result exactly when all stamps are the same or
the default adds nothing to the merge; `f` drops what the receiver does not take. -/
theorem arrive_perm_iff {ι : Type*} (f : ι → Option (Stamped τ α)) (a : α) {l : List ι}
    {x : Stamped τ α} {xs : List (Stamped τ α)} (taken : l.filterMap f = x :: xs) :
    (∀ l' : List ι, l'.Perm l → arrive a (l'.filterMap f) = arrive a (l.filterMap f)) ↔
      (∀ y ∈ x :: xs, ∀ z ∈ x :: xs, y.stamp = z.stamp) ∨ a ≤ (mergeAll x xs).value := by
  have result : ∀ y ys, (y :: ys).Perm (x :: xs) → arrive a (y :: ys) =
      some (if y.stamp = (mergeAll x xs).stamp then (mergeAll x xs).start a
        else mergeAll x xs) := by
    intro y ys perm
    rw [arrive, mergeAll_start, mergeAll_perm perm]
  -- any value of the list can be made the first to arrive
  have first : ∀ y ∈ x :: xs, ∃ (l' : List ι) (ys : List (Stamped τ α)), l'.Perm l ∧ l'.filterMap f = y :: ys ∧
      (y :: ys).Perm (x :: xs) := by
    intro y member
    rw [← taken] at member
    obtain ⟨i, hi, value⟩ := List.mem_filterMap.1 member
    obtain ⟨before, after, split⟩ := List.append_of_mem hi
    have perm : (i :: (before ++ after)).Perm l := by
      rw [split]; exact List.perm_middle.symm
    have image : (i :: (before ++ after)).filterMap f = y :: (before ++ after).filterMap f :=
      List.filterMap_cons_some value
    refine ⟨_, _, perm, image, ?_⟩
    rw [← image, ← taken]
    exact perm.filterMap f
  constructor
  · intro agree
    rw [or_iff_not_imp_left]
    intro differ
    push Not at differ
    obtain ⟨y, hy, z, hz, apart⟩ := differ
    obtain ⟨low, hlow, lowest⟩ := exists_stamp_mergeAll x xs
    have high : ∃ w ∈ x :: xs, w.stamp ≠ (mergeAll x xs).stamp := by
      by_cases same : y.stamp = (mergeAll x xs).stamp
      · exact ⟨z, hz, fun eq => apart (same.trans eq.symm)⟩
      · exact ⟨y, hy, same⟩
    obtain ⟨w, hw, above⟩ := high
    obtain ⟨l', ys, perm, image, values⟩ := first low hlow
    obtain ⟨l'', ys', perm', image', values'⟩ := first w hw
    have equal := (agree _ perm).trans (agree _ perm').symm
    rw [image, image', result _ _ values, result _ _ values', if_pos lowest.symm,
      if_neg above] at equal
    exact sup_eq_right.1 (congrArg value (Option.some.inj equal))
  · intro condition l' perm
    have values := perm.filterMap f
    rw [taken] at values ⊢
    cases image : l'.filterMap f with
    | nil =>
      rw [image] at values
      exact absurd values.symm.eq_nil (by simp)
    | cons y ys =>
      rw [image] at values
      rw [result _ _ values, result _ _ (List.Perm.refl _)]
      rcases condition with same | below
      · have equal : y.stamp = x.stamp :=
          same _ (values.subset (List.mem_cons_self ..)) _ (List.mem_cons_self ..)
        rw [equal]
      · have absorbed : (mergeAll x xs).start a = mergeAll x xs :=
          Stamped.ext rfl (sup_eq_right.2 below)
        rw [absorbed, ite_self, ite_self]

end Stamped
