import Mathlib.Data.Nat.Bitwise
import Mathlib.Algebra.Order.Ring.Nat

/-! Aligned ranges of numbers below `2 ^ w`: the numbers that agree with `base` on the top
bits that `mask` selects.

Two of them are nested or disjoint, and the bits of each member are among those of the
last one.
-/

set_option autoImplicit false

namespace Dyadic

def top (w base mask : Nat) : Nat := base + (2 ^ w - 1 - mask)

/-- `mask` selects the bits from `k` on and `base` has none below. -/
structure Aligned (w base mask : Nat) : Prop where
  mask : ∃ k, k ≤ w ∧ mask = 2 ^ w - 2 ^ k ∧ 2 ^ k ∣ base
  base_lt : base < 2 ^ w

variable {w k x b m b' m' : Nat}

theorem testBit_mask (hk : k ≤ w) (i : Nat) :
    (2 ^ w - 2 ^ k).testBit i = (decide (k ≤ i) && decide (i < w)) := by
  have split : 2 ^ w - 2 ^ k = 2 ^ k * (2 ^ (w - k) - 1) := by
    rw [Nat.mul_sub, Nat.mul_one, ← Nat.pow_add, Nat.add_sub_cancel' hk]
  rw [split, Nat.testBit_two_pow_mul, Nat.testBit_two_pow_sub_one]
  by_cases low : k ≤ i
  · have same : i - k < w - k ↔ i < w := by omega
    simp [low, same]
  · simp [low]

theorem and_mask (hk : k ≤ w) (hx : x < 2 ^ w) : x &&& (2 ^ w - 2 ^ k) = x / 2 ^ k * 2 ^ k := by
  apply Nat.eq_of_testBit_eq
  intro i
  rw [Nat.testBit_and, testBit_mask hk, Nat.mul_comm, Nat.testBit_two_pow_mul, Nat.testBit_div_two_pow]
  by_cases low : k ≤ i
  · rw [Nat.sub_add_cancel low]
    by_cases high : i < w
    · simp [low, high]
    · have big : x < 2 ^ i := hx.trans_le (Nat.pow_le_pow_right Nat.two_pos (Nat.le_of_not_lt high))
      simp [low, high, Nat.testBit_lt_two_pow big]
  · simp [low]

theorem top_eq (hk : k ≤ w) : top w b (2 ^ w - 2 ^ k) = b + (2 ^ k - 1) := by
  have le := Nat.pow_le_pow_right Nat.two_pos hk
  have pos := Nat.two_pow_pos k
  unfold top
  omega

theorem covers_iff (h : Aligned w b m) (hx : x < 2 ^ w) :
    x &&& m = b ↔ b ≤ x ∧ x ≤ top w b m := by
  obtain ⟨k, hk, rfl, q, rfl⟩ := h.mask
  have pos := Nat.two_pow_pos k
  rw [and_mask hk hx, top_eq hk]
  constructor
  · intro same
    have parts := Nat.div_add_mod x (2 ^ k)
    have rest := Nat.mod_lt x pos
    rw [Nat.mul_comm] at same
    omega
  · rintro ⟨low, high⟩
    have quotient : x / 2 ^ k = q := by
      apply Nat.div_eq_of_lt_le
      · rwa [Nat.mul_comm]
      · rw [Nat.succ_mul, Nat.mul_comm q]
        omega
    rw [quotient, Nat.mul_comm]

theorem base_covers (h : Aligned w b m) : b &&& m = b :=
  (covers_iff h h.base_lt).2 ⟨Nat.le_refl _, Nat.le_add_right _ _⟩

theorem exponent_le {k' : Nat} (hk : k ≤ w) (hk' : k' ≤ w)
    (wider : 2 ^ w - 2 ^ k ≤ 2 ^ w - 2 ^ k') : k' ≤ k := by
  have bound := Nat.pow_le_pow_right Nat.two_pos hk
  have bound' := Nat.pow_le_pow_right Nat.two_pos hk'
  have powers : 2 ^ k' ≤ 2 ^ k := by omega
  exact (Nat.pow_le_pow_iff_right (by decide)).1 powers

/-- A wider mask takes nothing from what a narrower one has left of its bits. -/
theorem and_and_wider {k' : Nat} (hk : k ≤ w) (hk' : k' ≤ w) (wider : 2 ^ w - 2 ^ k ≤ 2 ^ w - 2 ^ k') :
    x &&& (2 ^ w - 2 ^ k') &&& (2 ^ w - 2 ^ k) = x &&& (2 ^ w - 2 ^ k) := by
  have order := exponent_le hk hk' wider
  apply Nat.eq_of_testBit_eq
  intro i
  simp only [Nat.testBit_and, testBit_mask hk, testBit_mask hk']
  by_cases low : k ≤ i
  · simp [low, order.trans low]
  · simp [low]

theorem aligned_and (hk : k ≤ w) (hx : x < 2 ^ w) :
    Aligned w (x &&& (2 ^ w - 2 ^ k)) (2 ^ w - 2 ^ k) := by
  rw [and_mask hk hx]
  refine ⟨⟨k, hk, rfl, Nat.dvd_mul_left _ _⟩, ?_⟩
  exact (Nat.div_mul_le_self _ _).trans_lt hx

theorem dvd_of_mask_le {k k' : Nat} (hk : k ≤ w) (hk' : k' ≤ w)
    (le : 2 ^ w - 2 ^ k ≤ 2 ^ w - 2 ^ k') : 2 ^ k' ∣ 2 ^ k :=
  Nat.pow_dvd_pow 2 (exponent_le hk hk' le)

theorem nested (h : Aligned w b m) (h' : Aligned w b' m') (wider : m ≤ m')
    (inside : b' &&& m = b) : b ≤ b' ∧ top w b' m' ≤ top w b m := by
  have bounds := (covers_iff h h'.base_lt).1 inside
  refine ⟨bounds.1, ?_⟩
  obtain ⟨k, hk, rfl, q, rfl⟩ := h.mask
  obtain ⟨k', hk', rfl, q', rfl⟩ := h'.mask
  obtain ⟨r, hr⟩ := dvd_of_mask_le hk hk' wider
  have pos := Nat.two_pow_pos k
  have pos' := Nat.two_pow_pos k'
  have last := bounds.2
  rw [top_eq hk] at last ⊢
  rw [top_eq hk']
  have below : 2 ^ k' * q' < 2 ^ k' * (r * q + r) := by
    have grouped : 2 ^ k' * (r * q + r) = 2 ^ k * q + 2 ^ k := by
      rw [Nat.mul_add, ← Nat.mul_assoc, ← hr]
    omega
  have next := Nat.mul_le_mul_left (2 ^ k') (Nat.lt_of_mul_lt_mul_left below)
  have grouped : 2 ^ k' * (r * q + r) = 2 ^ k * q + 2 ^ k := by
    rw [Nat.mul_add, ← Nat.mul_assoc, ← hr]
  rw [Nat.succ_eq_add_one, Nat.mul_add, Nat.mul_one] at next
  omega

theorem covers_trans (h : Aligned w b m) (h' : Aligned w b' m') (wider : m ≤ m')
    (inside : b' &&& m = b) (hx : x < 2 ^ w) (covered : x &&& m' = b') : x &&& m = b := by
  have bounds := (covers_iff h' hx).1 covered
  have range := nested h h' wider inside
  apply (covers_iff h hx).2
  omega

theorem disjoint_of_outside (h : Aligned w b m) (h' : Aligned w b' m') (wider : m ≤ m')
    (outside : b' &&& m ≠ b) : top w b m < b' ∨ top w b' m' < b := by
  have apart : ¬ (b ≤ b' ∧ b' ≤ top w b m) := fun bounds =>
    outside ((covers_iff h h'.base_lt).2 bounds)
  by_cases below : b ≤ b'
  · left
    omega
  · right
    -- both bases are multiples of the smaller size
    obtain ⟨k, hk, rfl, q, rfl⟩ := h.mask
    obtain ⟨k', hk', rfl, q', rfl⟩ := h'.mask
    obtain ⟨r, hr⟩ := dvd_of_mask_le hk hk' wider
    have pos' := Nat.two_pow_pos k'
    rw [top_eq hk']
    have scaled : 2 ^ k' * q' < 2 ^ k' * (r * q) := by
      rw [← Nat.mul_assoc, ← hr]
      omega
    have next := Nat.mul_le_mul_left (2 ^ k') (Nat.lt_of_mul_lt_mul_left scaled)
    rw [Nat.succ_eq_add_one, Nat.mul_add, Nat.mul_one, ← Nat.mul_assoc, ← hr] at next
    omega

theorem base_of_common (h : Aligned w b m) (h' : Aligned w b' m') (hx : x < 2 ^ w)
    (inside : x &&& m = b) (inside' : x &&& m' = b') : b' &&& m = b ∨ b &&& m' = b' := by
  have bounds := (covers_iff h hx).1 inside
  have bounds' := (covers_iff h' hx).1 inside'
  rcases Nat.le_total m m' with wider | wider
  · left
    by_contra outside
    have apart := disjoint_of_outside h h' wider outside
    omega
  · right
    by_contra outside
    have apart := disjoint_of_outside h' h wider outside
    omega

theorem and_top (h : Aligned w b m) (hx : x < 2 ^ w) (inside : x &&& m = b) :
    x &&& top w b m = x := by
  obtain ⟨k, hk, rfl, -⟩ := h.mask
  have pos := Nat.two_pow_pos k
  rw [and_mask hk hx] at inside
  rw [top_eq hk, ← inside, Nat.mul_comm]
  apply Nat.eq_of_testBit_eq
  intro i
  rw [Nat.testBit_and, Nat.testBit_two_pow_mul_add _ (by omega)]
  by_cases low : i < k
  · simp [low, Nat.testBit_two_pow_sub_one]
  · have above : k ≤ i := Nat.le_of_not_lt low
    simp [low, Nat.testBit_div_two_pow, Nat.sub_add_cancel above]

theorem div_eq_of_covers {j : Nat} (h : Aligned w b m) (hx : x < 2 ^ w) (inside : x &&& m = b)
    (hj : j ≤ w) (fine : 2 ^ w - 2 ^ j ≤ m) : x / 2 ^ j = b / 2 ^ j := by
  obtain ⟨k, hk, rfl, -⟩ := h.mask
  obtain ⟨r, hr⟩ := dvd_of_mask_le hj hk fine
  rw [and_mask hk hx] at inside
  rw [← inside, hr, ← Nat.div_div_eq_div_mul, ← Nat.div_div_eq_div_mul,
    Nat.mul_div_cancel _ (Nat.two_pow_pos k)]

theorem and_or_of_and {x a c : Nat} (h : x &&& a = x) : x &&& (a ||| c) = x := by
  rw [Nat.and_or_distrib_left, h]
  apply Nat.eq_of_testBit_eq
  intro i
  simp only [Nat.testBit_or, Nat.testBit_and]
  cases x.testBit i <;> simp

end Dyadic
