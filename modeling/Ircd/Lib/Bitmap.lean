import Mathlib.Data.Finset.Card
import Mathlib.Data.List.Basic

/-! Maps of bits that are kept in words: the bits that are set, the number of clear ones
among the first `n`, and what setting and clearing a bit does to both.
-/

set_option autoImplicit false

namespace Bitmap

variable {w : Nat} {map : List (BitVec w)} {i j n : Nat}

def get (map : List (BitVec w)) (i : Nat) : Bool := (map.getD (i / w) 0#w).getLsbD (i % w)

def set (map : List (BitVec w)) (i : Nat) : List (BitVec w) :=
  map.modify (i / w) fun word => word ||| 1#w <<< (i % w)

def clear (map : List (BitVec w)) (i : Nat) : List (BitVec w) :=
  map.modify (i / w) fun word => word &&& ~~~(1#w <<< (i % w))

def clearBits (map : List (BitVec w)) (n : Nat) : Finset Nat :=
  (Finset.range n).filter fun i => get map i = false

@[simp] theorem mem_clearBits : i ∈ clearBits map n ↔ i < n ∧ get map i = false := by
  simp [clearBits]

@[simp] theorem length_set (map : List (BitVec w)) (i : Nat) : (set map i).length = map.length :=
  List.length_modify _ _ _

@[simp] theorem length_clear (map : List (BitVec w)) (i : Nat) :
    (clear map i).length = map.length :=
  List.length_modify _ _ _

theorem getLsbD_one_shift (positive : 0 < w) (k l : Nat) (small : l < w) :
    (1#w <<< k).getLsbD l = decide (l = k) := by
  rw [BitVec.getLsbD_shiftLeft, BitVec.getLsbD_one]
  by_cases before : l < k
  · simp [before, small, Nat.ne_of_lt before]
  · have same : l - k = 0 ↔ l = k := by omega
    simp [before, small, positive, eq_comm, same]

theorem one_shift_and_eq_zero (word : BitVec w) {k : Nat} (small : k < w) :
    1#w <<< k &&& word = 0#w ↔ word.getLsbD k = false := by
  have positive := Nat.zero_lt_of_lt small
  constructor
  · intro none
    have bit := congrArg (fun word => word.getLsbD k) none
    simpa [getLsbD_one_shift positive k k small] using bit
  · intro free
    apply BitVec.eq_of_getLsbD_eq
    intro l inside
    rw [BitVec.getLsbD_and, getLsbD_one_shift positive k l inside, BitVec.getLsbD_zero]
    by_cases here : l = k
    · subst here
      simp [free]
    · simp [here]

theorem one_shift_eq_zero {k : Nat} : 1#w <<< k = 0#w ↔ w ≤ k := by
  constructor
  · intro none
    by_contra small
    have inside : k < w := Nat.lt_of_not_le small
    have bit := congrArg (fun word => word.getLsbD k) none
    simp [getLsbD_one_shift (Nat.zero_lt_of_lt inside) k k inside] at bit
  · intro large
    apply BitVec.eq_of_getLsbD_eq
    intro l inside
    rw [getLsbD_one_shift (Nat.zero_lt_of_lt inside) k l inside, BitVec.getLsbD_zero]
    exact decide_eq_false (by omega)

theorem getD_modify (f : BitVec w → BitVec w) (k l : Nat) (inside : k < map.length) :
    (map.modify k f).getD l 0#w = if l = k then f (map.getD k 0#w) else map.getD l 0#w := by
  simp only [List.getD_eq_getElem?_getD, List.getElem?_modify]
  by_cases here : k = l
  · subst here
    simp [List.getElem?_eq_getElem inside]
  · simp [here, Ne.symm here]

theorem index_eq : j / w = i / w → (j % w = i % w ↔ j = i) := by
  intro word
  constructor
  · intro bit
    rw [← Nat.div_add_mod j w, word, bit, Nat.div_add_mod]
  · rintro rfl
    rfl

theorem get_mul_add (k : Nat) {l : Nat} (small : l < w) :
    get map (k * w + l) = (map.getD k 0#w).getLsbD l := by
  have positive := Nat.zero_lt_of_lt small
  unfold get
  rw [Nat.mul_add_mod_of_lt small, Nat.mul_comm k w, Nat.mul_add_div positive,
    Nat.div_eq_of_lt small, Nat.add_zero]

theorem get_set (positive : 0 < w) (inside : i / w < map.length) (j : Nat) :
    get (set map i) j = (decide (j = i) || get map j) := by
  unfold get set
  rw [getD_modify _ _ _ inside]
  by_cases word : j / w = i / w
  · have bit := index_eq word
    rw [if_pos word, BitVec.getLsbD_or, getLsbD_one_shift positive _ _ (Nat.mod_lt j positive), word]
    simp [bit, Bool.or_comm]
  · have other : j ≠ i := fun same => word (same ▸ rfl)
    simp [word, other]

theorem get_clear (positive : 0 < w) (inside : i / w < map.length) (j : Nat) :
    get (clear map i) j = (!decide (j = i) && get map j) := by
  unfold get clear
  rw [getD_modify _ _ _ inside]
  by_cases word : j / w = i / w
  · have bit := index_eq word
    rw [if_pos word, BitVec.getLsbD_and, BitVec.getLsbD_not,
      getLsbD_one_shift positive _ _ (Nat.mod_lt j positive), word]
    simp [bit, Bool.and_comm, Nat.mod_lt j positive]
  · have other : j ≠ i := fun same => word (same ▸ rfl)
    simp [word, other]

theorem card_clearBits_set (positive : 0 < w) (inside : i / w < map.length) (small : i < n)
    (free : get map i = false) :
    (clearBits (set map i) n).card + 1 = (clearBits map n).card := by
  have rest : clearBits (set map i) n = (clearBits map n).erase i := by
    ext j
    simp only [mem_clearBits, Finset.mem_erase, get_set positive inside]
    by_cases here : j = i <;> simp [here]
  rw [rest]
  exact Finset.card_erase_add_one (mem_clearBits.2 ⟨small, free⟩)

theorem card_clearBits_clear (positive : 0 < w) (inside : i / w < map.length) (small : i < n)
    (used : get map i = true) :
    (clearBits (clear map i) n).card = (clearBits map n).card + 1 := by
  have more : clearBits (clear map i) n = insert i (clearBits map n) := by
    ext j
    simp only [mem_clearBits, Finset.mem_insert, get_clear positive inside]
    by_cases here : j = i <;> simp [here, small]
  rw [more]
  exact Finset.card_insert_of_notMem fun free => by simp [used] at free

theorem get_of_zero (zero : map.getD (i / w) 0#w = 0#w) : get map i = false := by
  rw [get, zero, BitVec.getLsbD_zero]

theorem get_replicate (k i : Nat) : get (List.replicate k 0#w) i = false := by
  apply get_of_zero
  simp only [List.getD_eq_getElem?_getD, List.getElem?_replicate]
  split <;> rfl

theorem card_clearBits_replicate (k n : Nat) :
    (clearBits (List.replicate k 0#w) n).card = n := by
  have all : clearBits (List.replicate k 0#w) n = Finset.range n := by
    ext i
    simp [get_replicate]
  rw [all, Finset.card_range]

end Bitmap
