import Mathlib.Algebra.Order.Ring.Nat
import Mathlib.Data.Char
import Mathlib.Data.List.Basic
import Mathlib.Data.List.Lex
import Mathlib.Data.List.TakeWhile

/-! C strings, the RFC 1459 case tables and the string routines of `match.c`
and `irc_string.c`.

A string is the list of its characters without the terminating NUL. The byte
order of `strcmp` is the lexicographic order that `List Char` carries.
-/

set_option autoImplicit false

namespace Ircd

abbrev CStr := List Char

abbrev lit (s : String) : CStr := s.toList

instance (priority := high) decidableForallChar (p : Char → Prop) [DecidablePred p] (s : CStr) :
    Decidable (∀ c ∈ s, p c) := List.decidableBAll p s

/-- `ToLowerTab`: the four characters after `Z` fold together with `{|}~`. -/
def toLower (c : Char) : Char :=
  if 0x41 ≤ c.toNat ∧ c.toNat ≤ 0x5e then Char.ofNat (c.toNat + 32) else c

def toUpper (c : Char) : Char :=
  if 0x61 ≤ c.toNat ∧ c.toNat ≤ 0x7e then Char.ofNat (c.toNat - 32) else c

def isSpace (c : Char) : Bool := (9 ≤ c.toNat && c.toNat ≤ 13) || c == ' '

def isDigit (c : Char) : Bool := '0' ≤ c && c ≤ '9'

/-- `IsChanChar`: anything but NUL, BEL, space and comma. -/
def isChanChar (c : Char) : Bool :=
  c.toNat != 0 && c.toNat != 7 && c != ' ' && c != ','

def isChanPrefix (c : Char) : Bool := c == '#' || c == '&'

theorem toNat_ofNat {n : Nat} (small : n < 0xd800) : (Char.ofNat n).toNat = n := by
  rw [Char.ofNat, dif_pos (Or.inl small)]
  rfl

theorem toNat_toLower (c : Char) :
    (toLower c).toNat = if 0x41 ≤ c.toNat ∧ c.toNat ≤ 0x5e then c.toNat + 32 else c.toNat := by
  unfold toLower
  split
  · exact toNat_ofNat (by omega)
  · rfl

theorem toNat_toUpper (c : Char) :
    (toUpper c).toNat = if 0x61 ≤ c.toNat ∧ c.toNat ≤ 0x7e then c.toNat - 32 else c.toNat := by
  unfold toUpper
  split
  · exact toNat_ofNat (by omega)
  · rfl

theorem toLower_eq_of_toUpper_eq {a b : Char} (h : toUpper a = toUpper b) :
    toLower a = toLower b := by
  have same := congrArg Char.toNat h
  rw [toNat_toUpper, toNat_toUpper] at same
  apply Char.toNat_inj.mp
  rw [toNat_toLower, toNat_toLower]
  split at same <;> split at same <;> split <;> split <;> omega

/-- `irccmp` walks both strings while the upper-cased characters agree. -/
def irccmp : CStr → CStr → Ordering
  | [], [] => .eq
  | [], _ :: _ => .lt
  | _ :: _, [] => .gt
  | a :: s1, b :: s2 =>
    if toUpper a = toUpper b then irccmp s1 s2
    else if toUpper a < toUpper b then .lt else .gt

theorem irccmp_eq_iff (s1 s2 : CStr) :
    irccmp s1 s2 = .eq ↔ s1.map toUpper = s2.map toUpper := by
  induction s1 generalizing s2 with
  | nil => cases s2 <;> simp [irccmp]
  | cons a s1 ih =>
    cases s2 with
    | nil => simp [irccmp]
    | cons b s2 =>
      simp only [irccmp, List.map_cons, List.cons.injEq]
      by_cases same : toUpper a = toUpper b
      · simp [same, ih]
      · simp only [same, if_false, false_and, iff_false]
        split <;> simp

@[simp] theorem irccmp_self (s : CStr) : irccmp s s = .eq := (irccmp_eq_iff s s).2 rfl

theorem irccmp_comm {s1 s2 : CStr} (h : irccmp s1 s2 = .eq) : irccmp s2 s1 = .eq :=
  (irccmp_eq_iff _ _).2 ((irccmp_eq_iff _ _).1 h).symm

theorem irccmp_trans {s1 s2 s3 : CStr} (h : irccmp s1 s2 = .eq) (h' : irccmp s2 s3 = .eq) :
    irccmp s1 s3 = .eq :=
  (irccmp_eq_iff _ _).2 (((irccmp_eq_iff _ _).1 h).trans ((irccmp_eq_iff _ _).1 h'))

theorem irccmp_length {s s' : CStr} (same : irccmp s s' = .eq) : s.length = s'.length := by
  have upper := congrArg List.length ((irccmp_eq_iff _ _).mp same)
  rwa [List.length_map, List.length_map] at upper

theorem map_toLower_eq {s1 s2 : CStr} (h : irccmp s1 s2 = .eq) :
    s1.map toLower = s2.map toLower := by
  have upper := (irccmp_eq_iff _ _).1 h
  clear h
  induction s1 generalizing s2 with
  | nil =>
    cases s2 with
    | nil => rfl
    | cons b s2 => cases upper
  | cons a s1 ih =>
    cases s2 with
    | nil => cases upper
    | cons b s2 =>
      obtain ⟨head, tail⟩ := List.cons.inj upper
      rw [List.map_cons, List.map_cons, toLower_eq_of_toUpper_eq head, ih tail]

/-- The tokens of a whole scan, `current` being the reversed token under way. -/
def tokensFrom (fs : Char → Bool) (current : CStr) : CStr → List CStr
  | [] => if current = [] then [] else [current.reverse]
  | c :: rest =>
    if fs c then
      if current = [] then tokensFrom fs [] rest else current.reverse :: tokensFrom fs [] rest
    else tokensFrom fs (c :: current) rest

/-- Every token that repeated calls of `strtoken` return, in order; past the
last one `strtoken` has saved a null pointer and returns null for ever. -/
def tokens (fs : Char → Bool) (s : CStr) : List CStr := tokensFrom fs [] s

theorem tokensFrom_append (fs : Char → Bool) (sep : Char) (isSep : fs sep = true)
    (current a b : CStr) :
    tokensFrom fs current (a ++ sep :: b) = tokensFrom fs current a ++ tokensFrom fs [] b := by
  induction a generalizing current with
  | nil =>
    simp only [List.nil_append, tokensFrom, isSep, if_true]
    split <;> simp
  | cons c a ih =>
    simp only [List.cons_append, tokensFrom]
    split
    · split
      · exact ih []
      · rw [ih, List.cons_append]
    · exact ih _

theorem tokensFrom_of_no_sep {fs : Char → Bool} {current s : CStr} (none : ∀ c ∈ s, fs c = false) :
    tokensFrom fs current s =
      if current.reverse ++ s = [] then [] else [current.reverse ++ s] := by
  induction s generalizing current with
  | nil => simp [tokensFrom]
  | cons c s ih =>
    have here : fs c = false := none c List.mem_cons_self
    have rest := @ih (c :: current) fun d inside => none d (List.mem_cons_of_mem _ inside)
    simp [tokensFrom, here, rest]

theorem tokensFrom_ne_nil {fs : Char → Bool} {s current tok : CStr}
    (h : tok ∈ tokensFrom fs current s) : tok ≠ [] := by
  induction s generalizing current with
  | nil =>
    simp only [tokensFrom] at h
    split at h
    · cases h
    · next nonempty =>
      rw [List.mem_singleton.1 h]
      exact fun nil => nonempty (List.reverse_eq_nil_iff.1 nil)
  | cons c s ih =>
    simp only [tokensFrom] at h
    split at h
    · split at h
      · exact ih h
      · next nonempty =>
        cases List.mem_cons.1 h with
        | inl first =>
          rw [first]
          exact fun nil => nonempty (List.reverse_eq_nil_iff.1 nil)
        | inr later => exact ih later
    · exact ih h

theorem not_sep_of_mem_tokens {fs : Char → Bool} {s tok : CStr} (h : tok ∈ tokens fs s) :
    ∀ c ∈ tok, fs c = false := by
  -- over any token begun, which is clean so far
  suffices run : ∀ (s current : CStr), (∀ c ∈ current, fs c = false) →
      ∀ tok ∈ tokensFrom fs current s, ∀ c ∈ tok, fs c = false by
    exact run s [] (by simp) tok h
  intro s
  induction s with
  | nil =>
    intro current clean tok inside c
    simp only [tokensFrom] at inside
    split at inside
    · cases inside
    · rw [List.mem_singleton.1 inside, List.mem_reverse]
      exact clean c
  | cons d s ih =>
    intro current clean tok inside
    simp only [tokensFrom] at inside
    cases sep : fs d with
    | true =>
      simp only [sep, if_true] at inside
      split at inside
      · exact ih [] (by simp) tok inside
      · cases List.mem_cons.1 inside with
        | inl first =>
          intro c
          rw [first, List.mem_reverse]
          exact clean c
        | inr later => exact ih [] (by simp) tok later
    | false =>
      simp only [sep, Bool.false_eq_true, if_false] at inside
      refine ih (d :: current) (fun c member => ?_) tok inside
      cases List.mem_cons.1 member with
      | inl same => rw [same, sep]
      | inr rest => exact clean c rest

def cString (buf : CStr) : CStr := buf.takeWhile fun c => c != '\x00'

def NulFree (s : CStr) : Prop := ∀ c ∈ s, c ≠ '\x00'

instance (s : CStr) : Decidable (NulFree s) := inferInstanceAs (Decidable (∀ c ∈ s, c ≠ '\x00'))

namespace NulFree

variable {s s' : CStr}

theorem append (h : NulFree s) (h' : NulFree s') : NulFree (s ++ s') := by
  intro c inside
  exact (List.mem_append.mp inside).elim (h c) (h' c)

theorem cons {c : Char} (here : c ≠ '\x00') (h : NulFree s) : NulFree (c :: s) := by
  intro d inside
  rcases List.mem_cons.mp inside with rfl | inside
  · exact here
  · exact h d inside

theorem cString (h : NulFree s) : cString s = s := by
  apply List.takeWhile_eq_self_iff.mpr
  intro c inside
  exact bne_iff_ne.mpr (h c inside)

theorem cString_append (h : NulFree s) (rest : CStr) : Ircd.cString (s ++ '\x00' :: rest) = s := by
  have kept : ∀ c ∈ s, (c != '\x00') = true := fun c inside => bne_iff_ne.mpr (h c inside)
  unfold Ircd.cString
  rw [List.takeWhile_append_of_pos kept]
  simp

end NulFree

/-- `strncpy_irc` into a zeroed buffer of `n + 1` bytes. -/
def strncpyIrc (s : CStr) (n : Nat) : CStr := s.take n

end Ircd
