import Ircd.Text.CString
import Mathlib.Tactic.Ring
import Mathlib.Tactic.NormNum

/-! Decimal input and output: `atoi` and `atol` of the C library (64-bit `long`)
and the conversions of `sprintf_irc.c`.

`%lu` of `sprintf_irc` is made for time stamps: it prints nine digits and, from
10^9 on, one leading character for all the higher digits.
-/

set_option autoImplicit false

namespace Ircd

/-- The value of the digits at the front of a string, after a value `acc`. -/
def digitsValue (acc : Nat) : CStr → Nat
  | [] => acc
  | c :: rest => if isDigit c then digitsValue (10 * acc + (c.toNat - 48)) rest else acc

def longMax : Int := 2 ^ 63 - 1

/-- `strtol(s, NULL, 10)`, which stops at the bounds of `long`. -/
def strtol (s : CStr) : Int :=
  match s.dropWhile isSpace with
  | '-' :: rest => max (-(2 ^ 63)) (-(digitsValue 0 rest : Int))
  | '+' :: rest => min longMax (digitsValue 0 rest)
  | rest => min longMax (digitsValue 0 rest)

def atol (s : CStr) : Int := strtol s

def atoi (s : CStr) : Int := (strtol s).bmod (2 ^ 32)

def digitChar (d : Nat) : Char := Char.ofNat (48 + d)

def padded : Nat → Nat → CStr
  | 0, _ => []
  | width + 1, n => padded width (n / 10) ++ [digitChar (n % 10)]

def formatLu (v : Nat) : CStr :=
  if v = 0 then ['0']
  else if v > 999999999 then
    Char.ofNat ((48 + v / 1000000000) % 256) :: padded 9 (v % 1000000000)
  else padded 9 v

def formatTime (t : Int) : CStr := formatLu (t % 2 ^ 64).toNat

/-- `%d`: the digits come in groups of three, then leading zeros are skipped. -/
def formatD (v : Int) : CStr :=
  if v = 0 then ['0']
  else if v < 0 then '-' :: (padded 12 v.natAbs).dropWhile (· == '0')
  else (padded 12 v.natAbs).dropWhile (· == '0')

theorem toNat_digitChar {d : Nat} (h : d < 10) : (digitChar d).toNat = 48 + d :=
  toNat_ofNat (by omega)

theorem isDigit_digitChar {d : Nat} (h : d < 10) : isDigit (digitChar d) = true := by
  have all : ∀ d < 10, isDigit (digitChar d) = true := by decide
  exact all d h

theorem isDigit_of_mem_padded {width n : Nat} {c : Char} (h : c ∈ padded width n) :
    isDigit c = true := by
  induction width generalizing n with
  | zero => simp [padded] at h
  | succ width ih =>
    rcases List.mem_append.mp h with front | last
    · exact ih front
    · rw [List.mem_singleton.mp last]
      exact isDigit_digitChar (Nat.mod_lt _ (by omega))

@[simp] theorem length_padded (width n : Nat) : (padded width n).length = width := by
  induction width generalizing n with
  | zero => rfl
  | succ width ih => simp [padded, ih]

theorem digitsValue_padded (width n acc : Nat) (rest : CStr) :
    digitsValue acc (padded width n ++ rest) =
      digitsValue (acc * 10 ^ width + n % 10 ^ width) rest := by
  induction width generalizing n rest with
  | zero => simp [padded, Nat.mod_one]
  | succ width ih =>
    have last : n % 10 < 10 := Nat.mod_lt _ (by omega)
    rw [padded, List.append_assoc, ih, List.cons_append, List.nil_append, digitsValue,
      if_pos (isDigit_digitChar last), toNat_digitChar last]
    congr 1
    have split : n % 10 ^ (width + 1) = n % 10 + 10 * (n / 10 % 10 ^ width) := by
      rw [pow_succ', Nat.mod_mul]
    rw [split, pow_succ]
    simp only [Nat.add_sub_cancel_left]
    ring

theorem digitsValue_dropWhile_zero (s : CStr) :
    digitsValue 0 (s.dropWhile (· == '0')) = digitsValue 0 s := by
  induction s with
  | nil => rfl
  | cons c rest ih =>
    by_cases zero : c = '0'
    · subst zero
      rw [List.dropWhile_cons_of_pos (by decide), ih]
      rfl
    · rw [List.dropWhile_cons_of_neg (by simpa using zero)]

theorem strtol_digit {c : Char} {rest : CStr} (h : isDigit c = true) :
    strtol (c :: rest) = min longMax (digitsValue 0 (c :: rest)) := by
  have notSpace : isSpace c = false := by
    simp only [isDigit, Bool.and_eq_true, decide_eq_true_eq, Char.le_def, UInt32.le_iff_toNat_le] at h
    have low : 48 ≤ c.toNat := h.1
    have high : c ≠ ' ' := by
      rintro rfl
      exact absurd low (by decide)
    simp [isSpace, high]
    omega
  have minus : c ≠ '-' := by rintro rfl; exact absurd h (by decide)
  have plus : c ≠ '+' := by rintro rfl; exact absurd h (by decide)
  unfold strtol
  rw [List.dropWhile_cons_of_neg (by simp [notSpace])]
  split
  · next same => exact absurd (List.cons.inj same).1 minus
  · next same => exact absurd (List.cons.inj same).1 plus
  · rfl

theorem strtol_digits {s : CStr} (digits : ∀ c ∈ s, isDigit c = true) (h : s ≠ []) :
    strtol s = min longMax (digitsValue 0 s) := by
  cases s with
  | nil => exact absurd rfl h
  | cons c rest => exact strtol_digit (digits c (List.mem_cons_self ..))

theorem digitsValue_padded_eq {width n : Nat} (h : n < 10 ^ width) :
    digitsValue 0 (padded width n) = n := by
  have value := digitsValue_padded width n 0 []
  rw [List.append_nil] at value
  rw [value, digitsValue, Nat.mod_eq_of_lt h]
  omega

/-- What `%lu` prints for a time of at most ten digits reads back as that time. -/
theorem atol_formatTime {t : Int} (h : 0 ≤ t) (h' : t ≤ 9999999999) :
    atol (formatTime t) = t := by
  obtain ⟨v, rfl⟩ := Int.eq_ofNat_of_zero_le h
  have small : (((v : Int) % 2 ^ 64).toNat) = v := by omega
  rw [formatTime, small, formatLu, atol]
  split
  · next zero => subst zero; rfl
  split
  · have digit : isDigit (digitChar (v / 1000000000)) = true := isDigit_digitChar (by omega)
    have head : Char.ofNat ((48 + v / 1000000000) % 256) = digitChar (v / 1000000000) := by
      rw [Nat.mod_eq_of_lt (by omega)]
      rfl
    have value := digitsValue_padded 9 (v % 1000000000) (v / 1000000000) []
    rw [List.append_nil] at value
    rw [head, strtol_digit digit, digitsValue, if_pos digit, toNat_digitChar (by omega),
      Nat.mul_zero, Nat.zero_add, Nat.add_sub_cancel_left, value, digitsValue, longMax]
    omega
  · rw [strtol_digits (fun c => isDigit_of_mem_padded) (by simp [padded]),
      digitsValue_padded_eq (by omega), longMax]
    omega

theorem dropWhile_zero_ne_nil {n : Nat} (pos : 0 < n) (h : n < 10 ^ 12) :
    (padded 12 n).dropWhile (· == '0') ≠ [] := by
  intro empty
  have value := digitsValue_dropWhile_zero (padded 12 n)
  rw [empty, digitsValue_padded_eq h] at value
  simp only [digitsValue] at value
  omega

theorem strtol_magnitude {n : Nat} (pos : 0 < n) (h : n < 10 ^ 12) :
    strtol ((padded 12 n).dropWhile (· == '0')) = n := by
  rw [strtol_digits (fun c member => isDigit_of_mem_padded ((List.dropWhile_sublist _).subset member))
      (dropWhile_zero_ne_nil pos h),
    digitsValue_dropWhile_zero, digitsValue_padded_eq h, longMax]
  omega

theorem atoi_formatD {v : Int} (h : -(2 ^ 31) ≤ v) (h' : v < 2 ^ 31) : atoi (formatD v) = v := by
  have read : strtol (formatD v) = v := by
    unfold formatD
    split
    · next zero => subst zero; rfl
    split
    · have value : strtol ('-' :: (padded 12 v.natAbs).dropWhile (· == '0')) =
          max (-(2 ^ 63)) (-(digitsValue 0 ((padded 12 v.natAbs).dropWhile (· == '0')) : Int)) := rfl
      rw [value, digitsValue_dropWhile_zero, digitsValue_padded_eq (by omega)]
      omega
    · rw [strtol_magnitude (by omega) (by omega)]
      omega
  rw [atoi, read, Int.bmod_def]
  split <;> omega

end Ircd
