import Ircd.Conf.Tkline
import Ircd.Text.Number

/-! How long a temporary K-line lasts: `isnumber`, `MAXTKLINE` and the time of its end.

`isnumber` adds the digits up in an `int` of 32 bits, and only the result is compared with
`MAXTKLINE`.
-/

set_option autoImplicit false

namespace Ircd

def defaultMaxTkline : Int := 60 * 48

/-- `SET MAXTKLINE`: at least a minute, and less than a year. -/
def setMaxTkline (maxTkline : Int) (newtime : CStr) : Int :=
  let newval := atoi newtime
  if newval ≤ 0 then maxTkline
  else if newval ≥ 60 * 24 * 365 then maxTkline
  else newval

/-- `MAXTKLINE` after the commands that have set it. -/
def maxTklineAfter (commands : List CStr) : Int := commands.foldl setMaxTkline defaultMaxTkline

theorem setMaxTkline_bounds {maxTkline : Int} (bounds : 0 < maxTkline ∧ maxTkline < 525600)
    (newtime : CStr) :
    0 < setMaxTkline maxTkline newtime ∧ setMaxTkline maxTkline newtime < 525600 := by
  simp only [setMaxTkline]
  split
  · exact bounds
  · split
    · exact bounds
    · omega

theorem maxTklineAfter_bounds (commands : List CStr) :
    0 < maxTklineAfter commands ∧ maxTklineAfter commands < 525600 := by
  suffices run : ∀ maxTkline : Int, 0 < maxTkline ∧ maxTkline < 525600 →
      0 < commands.foldl setMaxTkline maxTkline ∧
        commands.foldl setMaxTkline maxTkline < 525600 from run _ (by decide)
  induction commands with
  | nil => exact fun _ bounds => bounds
  | cons newtime rest ih => exact fun _ bounds => ih _ (setMaxTkline_bounds bounds newtime)

theorem nibble_digit {c : Char} (digit : isDigit c = true) : c.toNat % 16 = c.toNat - 48 := by
  simp only [isDigit, Bool.and_eq_true, decide_eq_true_eq, Char.le_def,
    UInt32.le_iff_toNat_le] at digit
  have low : 48 ≤ c.toNat := digit.1
  have high : c.toNat ≤ 57 := digit.2
  omega

theorem foldl_digits {p : CStr} (digits : ∀ c ∈ p, isDigit c = true) (acc : Nat) :
    p.foldl (fun (r : Int) c => (r * 10 + (c.toNat % 16 : Nat)).bmod (2 ^ 32))
        ((acc : Int).bmod (2 ^ 32)) = (digitsValue acc p : Int).bmod (2 ^ 32) := by
  induction p generalizing acc with
  | nil => rw [List.foldl_nil, digitsValue]
  | cons c rest ih =>
    have digit : isDigit c = true := digits c List.mem_cons_self
    have later : ∀ d ∈ rest, isDigit d = true := fun d inside =>
      digits d (List.mem_cons_of_mem c inside)
    have wrapped : ((acc : Int).bmod (2 ^ 32) * 10 + (c.toNat % 16 : Nat)).bmod (2 ^ 32) =
        ((10 * acc + (c.toNat - 48) : Nat) : Int).bmod (2 ^ 32) := by
      rw [nibble_digit digit, ← Int.bmod_add_bmod, Int.bmod_mul_bmod, Int.bmod_add_bmod]
      congr 1
      push_cast
      ring
    rw [List.foldl_cons, wrapped, ih later, digitsValue, if_pos digit]

theorem isNumber_eq {p : CStr} (digits : ∀ c ∈ p, isDigit c = true) :
    isNumber p =
      if (digitsValue 0 p : Int).bmod (2 ^ 32) = 0 then 1
      else (digitsValue 0 p : Int).bmod (2 ^ 32) := by
  have all : p.all isDigit = true := List.all_eq_true.mpr digits
  have sum := foldl_digits digits 0
  rw [Nat.cast_zero, Int.zero_bmod] at sum
  rw [isNumber, if_pos all, sum]

theorem isNumber_signed {p : CStr} (digits : ∀ c ∈ p, isDigit c = true) {w : Int}
    (held : (digitsValue 0 p : Int) % 2 ^ 32 = w) :
    isNumber p = if w = 0 then 1 else if w < 2 ^ 31 then w else w - 2 ^ 32 := by
  have low : 0 ≤ w := by omega
  rw [isNumber_eq digits, Int.bmod_def]
  simp only [Nat.cast_pow, Nat.cast_ofNat]
  rw [held]
  by_cases sign : w < 2 ^ 31
  · have half : w < (2 ^ 32 + 1) / 2 := by omega
    rw [if_pos half, if_pos sign]
  · have half : ¬ w < (2 ^ 32 + 1) / 2 := by omega
    have some : w ≠ 0 := by omega
    have below : w - 2 ^ 32 ≠ 0 := by omega
    rw [if_neg half, if_neg sign, if_neg some, if_neg below]

namespace TklineState

/-- As many minutes as the digits say, at least one and at most `MAXTKLINE`. -/
def dueMinutes (maxTkline : Int) (time : CStr) : Int :=
  let value : Int := digitsValue 0 time
  if value = 0 then 1
  else if value ≤ maxTkline then value
  else maxTkline

structure TimeFaithful (st : TklineState) (time : CStr) : Prop where
  minutes : st.minutes time = dueMinutes st.maxTkline time
  positive : 0 < st.minutes time
  ends : ∀ target st' asked, st.mKline time target = (st', .added asked) →
    st.currentTime < asked.until_

/-- The value is not above `MAXTKLINE`, or what 32 bits hold of it is not below and without
the sign bit. Nothing but zeros counts as 1 here too. -/
def TimeFits (maxTkline : Int) (time : CStr) : Prop :=
  let value : Int := digitsValue 0 time
  value ≤ maxTkline ∨ maxTkline ≤ max 1 (value % 2 ^ 32) ∧ value % 2 ^ 32 < 2 ^ 31

theorem mKline_added {st st' : TklineState} {time : CStr} {target : KlineTarget}
    {asked : AskedKline} (added : st.mKline time target = (st', .added asked)) :
    asked.until_ = st.currentTime + st.minutes time * 60 := by
  unfold mKline at added
  obtain ⟨user, host⟩ := target.userHost
  simp only at added
  split at added
  · cases added
  split at added
  · cases added
  split at added
  · cases added
  split at added
  · cases added
  split at added
  · cases added
  · cases added
    rfl

theorem minutes_eq {time : CStr} (digits : ∀ c ∈ time, isDigit c = true) (st : TklineState) :
    st.minutes time = min (isNumber time) st.maxTkline := by
  have number : isNumber time ≠ 0 := by
    rw [isNumber_eq digits]
    split
    · decide
    · assumption
  rw [minutes, if_neg number]

/-- The time of a temporary K-line is the one that was asked for if and only if the value of
the digits does not wrap to something below `MAXTKLINE`. -/
theorem timeFaithful_iff (commands : List CStr) (st : TklineState) {time : CStr}
    (reached : st.maxTkline = maxTklineAfter commands) (digits : ∀ c ∈ time, isDigit c = true) :
    st.TimeFaithful time ↔ TimeFits st.maxTkline time := by
  have bounds := maxTklineAfter_bounds commands
  rw [← reached] at bounds
  have asked := minutes_eq digits st
  obtain ⟨w, held⟩ : ∃ w, (digitsValue 0 time : Int) % 2 ^ 32 = w := ⟨_, rfl⟩
  rw [isNumber_signed digits held] at asked
  simp only [TimeFits, held]
  constructor
  · intro faithful
    have value := faithful.minutes
    simp only [asked, dueMinutes] at value
    by_contra unfit
    -- A value above `MAXTKLINE` is not 0, so only what the 32 bits hold is left to tell apart.
    have above : ¬ (digitsValue 0 time : Int) ≤ st.maxTkline := fun low => unfit (.inl low)
    have some : (digitsValue 0 time : Int) ≠ 0 := by omega
    rw [if_neg some, if_neg above] at value
    split at value
    · omega
    · split at value <;> omega
  · intro fits
    have value : st.minutes time = dueMinutes st.maxTkline time := by
      simp only [asked, dueMinutes]
      by_cases none : w = 0
      · rw [if_pos none]
        split
        · omega
        · split <;> omega
      · rw [if_neg none]
        split
        · split
          · omega
          · split <;> omega
        · split
          · omega
          · split <;> omega
    have positive : 0 < st.minutes time := by
      simp only [value, dueMinutes]
      split
      · decide
      · split <;> omega
    refine ⟨value, positive, fun target st' asked added => ?_⟩
    rw [mKline_added added]
    omega

/-- No K-line yet, and `MAXTKLINE` as it is at the start. -/
def fresh : TklineState := initial 1000 Mtrie.empty (maxTklineAfter [])

theorem timeFaithful_half : fresh.TimeFaithful (lit "30") ↔ TimeFits fresh.maxTkline (lit "30") :=
  timeFaithful_iff [] fresh rfl (by decide)

theorem wrappedTime_unfaithful :
    ¬ fresh.TimeFaithful (lit "2147483648") ∧ ¬ fresh.TimeFaithful (lit "4294967301") :=
  ⟨fun faithful => absurd faithful.positive (by decide),
    fun faithful => absurd faithful.minutes (by decide)⟩

end TklineState

end Ircd
