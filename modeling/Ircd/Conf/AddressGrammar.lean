import Ircd.Conf.Address
import Ircd.Text.Number

/-! The addresses that `is_address` should take, and the strings that it does take.

An address is four octets, four octets with a prefix length, or three octets and a `*`.
The scan only looks at an octet when a separator follows and counts the dots only at a
`*`, so it takes any number of octets and any last number.
-/

set_option autoImplicit false

namespace Ircd

def Digits (d : CStr) : Prop := ∀ c ∈ d, isDigit c = true

def numeral (d : CStr) : Nat := digitsValue 0 d

def Octet (d : CStr) (v : Nat) : Prop := d ≠ [] ∧ Digits d ∧ numeral d = v ∧ v ≤ 255

def quad (x y z w : Nat) : Nat := ((x * 256 + y) * 256 + z) * 256 + w

/-- The text of an address with the address and the mask that it stands for. -/
inductive AddressText : CStr → Nat → Nat → Prop where
  | quad {a b c d : CStr} {x y z w : Nat} : Octet a x → Octet b y → Octet c z → Octet d w →
      AddressText (a ++ '.' :: (b ++ '.' :: (c ++ '.' :: d))) (quad x y z w) (cidrToBitmask 32)
  | cidr {a b c d n : CStr} {x y z w : Nat} : Octet a x → Octet b y → Octet c z → Octet d w →
      n ≠ [] → Digits n → numeral n ≤ 32 →
      AddressText (a ++ '.' :: (b ++ '.' :: (c ++ '.' :: (d ++ '/' :: n)))) (quad x y z w)
        (cidrToBitmask (numeral n))
  | star {a b c : CStr} {x y z : Nat} : Octet a x → Octet b y → Octet c z →
      AddressText (a ++ '.' :: (b ++ '.' :: (c ++ ['.', '*']))) (quad x y z 0)
        (cidrToBitmask 24)

abbrev Field := CStr × Char

def fieldsText (lead : List Field) : CStr := lead.flatMap fun p => p.1 ++ [p.2]

def Field.octet (p : Field) : Nat := numeral p.1 % 2 ^ 32

structure Field.Small (p : Field) : Prop where
  digits : Digits p.1
  separator : p.2 = '.' ∨ p.2 = '/'
  octet : p.octet ≤ 255

/-- The number that the fields since the last `/` and the digits at the end make. -/
def addressNumber (lead : List Field) (last : CStr) : Nat :=
  (lead.foldl (fun ip p => if p.2 = '/' then 0 else (ip * 256 + p.octet) % 2 ^ 64) 0 * 256 +
    numeral last % 2 ^ 32) % 2 ^ 64

/-- Fields of small numbers, of any number, and then
digits, which make a number of at most 32 if there was a `/`, or
a `*` behind the third dot. -/
def LooseAddress (s : CStr) : Prop :=
  ∃ (lead : List Field) (last : CStr), s = fieldsText lead ++ last ∧ (∀ p ∈ lead, p.Small) ∧
    (Digits last ∧ ((∃ p ∈ lead, p.2 = '/') → addressNumber lead last ≤ 32) ∨
      last = ['*'] ∧ lead.countP (·.2 = '.') = 3 ∧ lead.getLast?.map Prod.snd = some '.')

namespace AddressScan

theorem digit_octet {c : Char} (digit : isDigit c = true) {s : AddressScan} {a : Nat}
    (octet : s.octet = a % 2 ^ 32) :
    (s.digit c).octet = (10 * a + (c.toNat - 48)) % 2 ^ 32 := by
  have value : c.toNat % 16 = c.toNat - 48 := by
    simp only [isDigit, Bool.and_eq_true, decide_eq_true_eq] at digit
    have low : 48 ≤ c.toNat := digit.1
    have high : c.toNat ≤ 57 := digit.2
    omega
  simp only [AddressScan.digit, value, octet]
  omega

theorem scan_digits {d : CStr} (digits : Digits d) (rest : CStr) {s : AddressScan} {a : Nat}
    (octet : s.octet = a % 2 ^ 32) :
    s.scan (d ++ rest) = { s with
      octet := digitsValue a d % 2 ^ 32, prev := d.getLast?.getD s.prev }.scan rest := by
  induction d generalizing s a with
  | nil =>
    rw [digitsValue, ← octet]
    rfl
  | cons c d ih =>
    have digit := digits c List.mem_cons_self
    rw [List.cons_append, scan, if_pos digit,
      ih (fun e inside => digits e (List.mem_cons_of_mem c inside)) (digit_octet digit octet),
      digitsValue, if_pos digit, List.getLast?_cons]
    rfl

def field (s : AddressScan) (p : Field) : AddressScan :=
  let s := { s with octet := p.octet }
  if p.2 = '/' then s.slash else s.dot

theorem field_octet (s : AddressScan) (p : Field) : (s.field p).octet = 0 := by
  simp only [field]
  split <;> rfl

theorem field_prev {p : Field} (small : p.Small) (s : AddressScan) : (s.field p).prev = p.2 := by
  simp only [field]
  rcases small.separator with dot | slash
  · rw [if_neg (by rw [dot]; decide), dot]
    rfl
  · rw [if_pos slash, slash]
    rfl

/-- The scan comes behind a field exactly when the number before the separator is small. -/
theorem scan_field {d rest : CStr} {c : Char} (digits : Digits d) (separator : c = '.' ∨ c = '/')
    {s : AddressScan} (octet : s.octet = 0) :
    s.scan (d ++ c :: rest) =
      if Field.octet (d, c) > 255 then none else (s.field (d, c)).scan rest := by
  rw [scan_digits digits _ (a := 0) (by rw [octet]; rfl)]
  rcases separator with rfl | rfl
  · rw [scan, if_neg (by decide), if_pos rfl]
    rfl
  · rw [scan, if_neg (by decide), if_neg (by decide), if_pos rfl]
    rfl

theorem scan_fields {lead : List Field} (small : ∀ p ∈ lead, p.Small) (last : CStr)
    {s : AddressScan} (octet : s.octet = 0) :
    s.scan (fieldsText lead ++ last) = (lead.foldl field s).scan last := by
  induction lead generalizing s with
  | nil => rfl
  | cons p lead ih =>
    have one := small p List.mem_cons_self
    have text : fieldsText (p :: lead) ++ last = p.1 ++ p.2 :: (fieldsText lead ++ last) := by
      simp [fieldsText]
    rw [text, scan_field one.digits one.separator octet, if_neg (Nat.not_lt.2 one.octet)]
    exact ih (fun q inside => small q (List.mem_cons_of_mem p inside)) (field_octet s p)

theorem foldl_octet (lead : List Field) {s : AddressScan} (octet : s.octet = 0) :
    (lead.foldl field s).octet = 0 := by
  induction lead generalizing s with
  | nil => exact octet
  | cons p lead ih => exact ih (field_octet s p)

theorem foldl_prev {lead : List Field} (small : ∀ p ∈ lead, p.Small) (s : AddressScan) :
    (lead.foldl field s).prev = (lead.getLast?.map Prod.snd).getD s.prev := by
  induction lead generalizing s with
  | nil => rfl
  | cons p lead ih =>
    rw [List.foldl_cons, ih (fun q inside => small q (List.mem_cons_of_mem p inside)),
      field_prev (small p List.mem_cons_self), List.getLast?_cons]
    cases lead.getLast? <;> rfl

theorem foldl_dotCount {lead : List Field} (small : ∀ p ∈ lead, p.Small) (s : AddressScan) :
    (lead.foldl field s).dotCount = s.dotCount + lead.countP (·.2 = '.') := by
  induction lead generalizing s with
  | nil => rfl
  | cons p lead ih =>
    rw [List.foldl_cons, ih fun q inside => small q (List.mem_cons_of_mem p inside),
      List.countP_cons]
    rcases (small p List.mem_cons_self).separator with dot | slash
    · simp [field, dot, AddressScan.dot]
      omega
    · simp [field, slash, AddressScan.slash]

theorem foldl_foundMask {lead : List Field} (s : AddressScan) :
    (lead.foldl field s).foundMask = true ↔ s.foundMask = true ∨ ∃ p ∈ lead, p.2 = '/' := by
  induction lead generalizing s with
  | nil => simp
  | cons p lead ih =>
    rw [List.foldl_cons, ih]
    by_cases slash : p.2 = '/'
    · simp [field, slash, AddressScan.slash]
    · simp [field, slash, AddressScan.dot]

theorem foldl_currentIp {lead : List Field} (s : AddressScan) :
    (lead.foldl field s).currentIp =
      lead.foldl (fun ip p => if p.2 = '/' then 0 else (ip * 256 + p.octet) % 2 ^ 64)
        s.currentIp := by
  induction lead generalizing s with
  | nil => rfl
  | cons p lead ih =>
    rw [List.foldl_cons, ih, List.foldl_cons]
    congr 1
    by_cases slash : p.2 = '/'
    · simp [field, slash, AddressScan.slash]
    · simp [field, slash, AddressScan.dot, shifted]

theorem finish_shifted (lead : List Field) {last : CStr} (digits : Digits last) :
    ∃ s : AddressScan, (lead.foldl field .start).scan last = s.finish ∧
      s.shifted = addressNumber lead last ∧
      (s.foundMask = true ↔ ∃ p ∈ lead, p.2 = '/') := by
  have octet : (lead.foldl field .start).octet = 0 % 2 ^ 32 := foldl_octet lead rfl
  have read := scan_digits digits [] octet
  rw [List.append_nil] at read
  refine ⟨_, read, ?_, ?_⟩
  · simp only [shifted, addressNumber, foldl_currentIp]
    simp [AddressScan.start, numeral]
  · rw [foldl_foundMask]
    simp [AddressScan.start]

theorem scan_star {lead : List Field} (small : ∀ p ∈ lead, p.Small) :
    (lead.foldl field .start).scan ['*'] ≠ none ↔
      lead.countP (·.2 = '.') = 3 ∧ lead.getLast?.map Prod.snd = some '.' := by
  have count := foldl_dotCount small .start
  have prev := foldl_prev small .start
  have before : (lead.foldl field .start).prev = '.' ↔
      lead.getLast?.map Prod.snd = some '.' := by
    rw [prev]
    cases lead.getLast? with
    | none => decide
    | some p => simp
  have dots : (lead.foldl field .start).dotCount = lead.countP (·.2 = '.') := by
    rw [count]
    exact Nat.zero_add _
  rw [scan, if_neg (by decide), if_neg (by decide), if_neg (by decide), if_pos rfl, ← before, dots]
  constructor
  · intro taken
    by_contra misplaced
    exact taken (if_neg fun star => misplaced ⟨star.1, star.2.2⟩)
  · intro star
    rw [if_pos ⟨star.1, rfl, star.2⟩]
    exact Option.some_ne_none _

theorem fields_of_scan {rest : CStr} {s : AddressScan} (octet : s.octet = 0)
    (taken : s.scan rest ≠ none) :
    ∃ (lead : List Field) (last : CStr), rest = fieldsText lead ++ last ∧
      (∀ p ∈ lead, p.Small) ∧ (Digits last ∨ last = ['*']) := by
  have digits : Digits (rest.takeWhile isDigit) := List.all_eq_true.1 List.all_takeWhile
  have whole : rest.takeWhile isDigit ++ rest.dropWhile isDigit = rest :=
    List.takeWhile_append_dropWhile
  -- digits up to the next separator make one field, and the scan goes on behind it
  cases tail : rest.dropWhile isDigit with
  | nil =>
    rw [tail, List.append_nil] at whole
    exact ⟨[], rest, rfl, fun p absurdity => (by cases absurdity), .inl (whole ▸ digits)⟩
  | cons c rest' =>
    have other : ¬ isDigit c = true := by
      have first := List.head?_dropWhile_not isDigit rest
      rw [tail] at first
      simpa using first
    rw [tail] at whole
    by_cases separator : c = '.' ∨ c = '/'
    · rw [← whole, scan_field digits separator octet] at taken
      split at taken
      · exact absurd rfl taken
      next small =>
      have shorter : rest'.length < rest.length := by
        rw [← whole]
        simp
        omega
      obtain ⟨lead, last, text, smalls, ends⟩ := fields_of_scan (field_octet s _) taken
      refine ⟨(rest.takeWhile isDigit, c) :: lead, last, ?_, ?_, ends⟩
      · have joined : fieldsText ((rest.takeWhile isDigit, c) :: lead) ++ last =
            rest.takeWhile isDigit ++ c :: rest' := by
          rw [text]
          simp [fieldsText]
        exact (joined.trans whole).symm
      · intro p inside
        rcases List.mem_cons.1 inside with rfl | later
        · exact ⟨digits, separator, Nat.not_lt.1 small⟩
        · exact smalls p later
    · -- only a `*` directly behind a separator is left
      rw [not_or] at separator
      rw [← whole, scan_digits digits _ (a := 0) (by rw [octet]; rfl), scan, if_neg other,
        if_neg separator.1, if_neg separator.2] at taken
      split at taken
      · next star =>
        split at taken
        · next at_ =>
          obtain ⟨-, last, prev⟩ := at_
          have none : rest.takeWhile isDigit = [] := by
            cases found : (rest.takeWhile isDigit).getLast? with
            | none => exact List.getLast?_eq_none_iff.1 found
            | some e =>
              rw [found] at prev
              have isNumber := digits e (List.mem_of_getLast? found)
              rw [show e = '.' from prev] at isNumber
              cases isNumber
          refine ⟨[], rest, rfl, fun p absurdity => (by cases absurdity), .inr ?_⟩
          rw [← whole, none, last, star]
          rfl
        · exact absurd rfl taken
      · exact absurd rfl taken
  termination_by rest.length

end AddressScan

theorem isAddress_isSome_iff {s : CStr} : isAddress s ≠ none ↔ LooseAddress s := by
  have ends : ∀ lead last, (∀ p ∈ lead, p.Small) → Digits last →
      ((lead.foldl AddressScan.field .start).scan last ≠ none ↔
        ((∃ p ∈ lead, p.2 = '/') → addressNumber lead last ≤ 32)) := by
    intro lead last _ digits
    obtain ⟨t, read, number, mask⟩ := AddressScan.finish_shifted lead digits
    rw [read, AddressScan.finish, number, ← mask]
    cases t.foundMask <;> simp
  unfold isAddress
  constructor
  · intro taken
    obtain ⟨lead, last, rfl, small, digits | star⟩ := AddressScan.fields_of_scan rfl taken
    · rw [AddressScan.scan_fields small last rfl] at taken
      exact ⟨lead, last, rfl, small, .inl ⟨digits, (ends lead last small digits).1 taken⟩⟩
    · subst star
      rw [AddressScan.scan_fields small _ rfl] at taken
      exact ⟨lead, _, rfl, small, .inr ⟨rfl, (AddressScan.scan_star small).1 taken⟩⟩
  · rintro ⟨lead, last, rfl, small, ⟨digits, number⟩ | ⟨rfl, dots⟩⟩
    · rw [AddressScan.scan_fields small last rfl]
      exact (ends lead last small digits).2 number
    · rw [AddressScan.scan_fields small _ rfl]
      exact (AddressScan.scan_star small).2 dots

namespace Octet

variable {d : CStr} {v : Nat}

theorem small (h : Octet d v) {c : Char} (separator : c = '.' ∨ c = '/') :
    Field.Small (d, c) := by
  obtain ⟨-, digits, rfl, bound⟩ := h
  exact ⟨digits, separator, Nat.le_trans (Nat.mod_le _ _) bound⟩

theorem octet (h : Octet d v) (c : Char) : Field.octet (d, c) = v := by
  have bound := h.2.2.2
  rw [Field.octet, h.2.2.1, Nat.mod_eq_of_lt (by omega)]

theorem field_dot (h : Octet d v) (s : AddressScan) : s.field (d, '.') = { s with
    currentIp := (s.currentIp * 256 % 2 ^ 64 + v) % 2 ^ 64, octet := 0
    dotCount := s.dotCount + 1, prev := '.' } := by
  rw [AddressScan.field, h.octet]
  rfl

end Octet

theorem scan_three {a b c : CStr} {x y z : Nat} (first : Octet a x) (second : Octet b y)
    (third : Octet c z) (rest : CStr) :
    isAddress (a ++ '.' :: (b ++ '.' :: (c ++ '.' :: rest))) =
      { AddressScan.start with
        currentIp := (x * 256 + y) * 256 + z, dotCount := 3, prev := '.' }.scan rest := by
  have text : a ++ '.' :: (b ++ '.' :: (c ++ '.' :: rest)) =
      fieldsText [(a, '.'), (b, '.'), (c, '.')] ++ rest := by
    simp [fieldsText]
  have small : ∀ p ∈ [(a, '.'), (b, '.'), (c, '.')], Field.Small p := by
    simpa using ⟨first.small (.inl rfl), second.small (.inl rfl), third.small (.inl rfl)⟩
  have x_le := first.2.2.2
  have y_le := second.2.2.2
  have z_le := third.2.2.2
  rw [isAddress, text, AddressScan.scan_fields small rest rfl]
  congr 1
  rw [List.foldl_cons, List.foldl_cons, List.foldl_cons, List.foldl_nil, first.field_dot,
    second.field_dot, third.field_dot, AddressScan.mk.injEq]
  refine ⟨?_, rfl, rfl, rfl, rfl, rfl⟩
  simp only [AddressScan.start]
  omega

theorem quad_shifted {x y z w : Nat} (x_le : x ≤ 255) (y_le : y ≤ 255) (z_le : z ≤ 255)
    (w_le : w ≤ 255) :
    (((x * 256 + y) * 256 + z) * 256 % 2 ^ 64 + w) % 2 ^ 64 = quad x y z w := by
  unfold quad
  omega

theorem AddressText.isAddress {s : CStr} {ip mask : Nat} (h : AddressText s ip mask) :
    isAddress s = some (ip, mask) := by
  cases h with
  | @quad a b c d x y z w first second third fourth =>
    have digits := fourth.2.1
    have x_le := first.2.2.2
    have y_le := second.2.2.2
    have z_le := third.2.2.2
    -- the last number has no dot behind it; `finish` takes it
    have read := AddressScan.scan_digits digits [] (s := { AddressScan.start with
      currentIp := (x * 256 + y) * 256 + z, dotCount := 3, prev := '.' }) (a := 0) rfl
    have octet : digitsValue 0 d % 2 ^ 32 = w := fourth.octet '.'
    rw [List.append_nil, octet] at read
    rw [scan_three first second third, read]
    change some ((((x * 256 + y) * 256 + z) * 256 % 2 ^ 64 + w) % 2 ^ 64, 2 ^ 32 - 1) = _
    rw [quad_shifted x_le y_le z_le fourth.2.2.2]
    rfl
  | @cidr a b c d n x y z w first second third fourth some digits bits =>
    have x_le := first.2.2.2
    have y_le := second.2.2.2
    have z_le := third.2.2.2
    have w_le := fourth.2.2.2
    rw [scan_three first second third, AddressScan.scan_field fourth.2.1 (.inr rfl) rfl,
      fourth.octet, if_neg (by omega)]
    have read := AddressScan.scan_digits digits [] (s := AddressScan.field
      { AddressScan.start with
        currentIp := (x * 256 + y) * 256 + z, dotCount := 3, prev := '.' } (d, '/')) (a := 0) rfl
    rw [List.append_nil] at read
    rw [read]
    have number : digitsValue 0 n = numeral n := rfl
    simp only [AddressScan.scan, AddressScan.field, fourth.octet, AddressScan.slash,
      AddressScan.finish, AddressScan.shifted, if_true, number]
    -- a prefix length is at most 32, so no reduction bites
    have prefixLength : (0 * 256 % 2 ^ 64 + numeral n % 2 ^ 32) % 2 ^ 64 = numeral n := by omega
    rw [prefixLength, if_neg (Nat.not_lt.2 bits), quad_shifted x_le y_le z_le w_le]
  | @star a b c x y z first second third =>
    have x_le := first.2.2.2
    have y_le := second.2.2.2
    have z_le := third.2.2.2
    have text : (c ++ ['.', '*']) = c ++ '.' :: ['*'] := rfl
    rw [text, scan_three first second third, AddressScan.scan, if_neg (by decide),
      if_neg (by decide), if_neg (by decide), if_pos rfl, if_pos ⟨rfl, rfl, rfl⟩]
    change some (((x * 256 + y) * 256 + z) * 256 % 2 ^ 64, 2 ^ 32 - 256) =
      some (Ircd.quad x y z 0, cidrToBitmask 24)
    rw [Option.some.injEq, Prod.mk.injEq, Ircd.quad]
    exact ⟨by omega, rfl⟩

/-- `is_address` takes the string as the grammar does, with the same address and mask, or
refuses it as the grammar does. -/
def ParsesAddress (s : CStr) : Prop :=
  ∀ ip mask, isAddress s = some (ip, mask) ↔ AddressText s ip mask

theorem parsesAddress_iff (s : CStr) :
    ParsesAddress s ↔ (∃ ip mask, AddressText s ip mask) ∨ ¬ LooseAddress s := by
  constructor
  · intro exact_
    by_cases taken : LooseAddress s
    · rw [← isAddress_isSome_iff] at taken
      obtain ⟨found, read⟩ := Option.ne_none_iff_exists'.1 taken
      exact .inl ⟨found.1, found.2, (exact_ _ _).1 read⟩
    · exact .inr taken
  · rintro (⟨ip, mask, text⟩ | refused) ip' mask'
    · constructor
      · intro read
        rw [text.isAddress] at read
        cases read
        exact text
      · exact AddressText.isAddress
    · constructor
      · intro read
        exact absurd (isAddress_isSome_iff.1 (by rw [read]; exact Option.some_ne_none _)) refused
      · exact AddressText.isAddress

theorem AddressText.dots {s : CStr} {ip mask : Nat} (h : AddressText s ip mask) :
    3 ≤ s.count '.' := by
  cases h <;> simp <;> omega

theorem twoOctets_taken :
    isAddress (lit "10.1") = some (0xa01, 0xffffffff) ∧ ¬ ParsesAddress (lit "10.1") := by
  have taken : isAddress (lit "10.1") = some (0xa01, 0xffffffff) := by decide
  refine ⟨taken, fun exact_ => ?_⟩
  have dots := ((exact_ _ _).1 taken).dots
  revert dots
  decide

end Ircd
