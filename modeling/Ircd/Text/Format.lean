import Ircd.Text.Number

/-! `vsprintf_irc`: the conversions that it does itself, and what it leaves to the library.

`vsprintf` of the C library is given for the same conversions. The two differ in `%lu`, which
is made for times: it prints at least nine digits.
-/

set_option autoImplicit false

namespace Ircd

inductive Arg where
  | str (s : CStr)
  | chr (c : Char)
  | int (v : BitVec 32)
  | uint (v : BitVec 32)
  | ulong (v : BitVec 64)
  | long (v : BitVec 64)
  deriving DecidableEq, Repr

inductive FormatPiece where
  | text (c : Char) (plain : c ≠ '%')
  | percent
  | s
  | c
  | d
  | u
  | lu
  | ld
  deriving DecidableEq, Repr

def FormatPiece.format : FormatPiece → CStr
  | .text ch _ => [ch]
  | .percent => lit "%%"
  | .s => lit "%s"
  | .c => lit "%c"
  | .d => lit "%d"
  | .u => lit "%u"
  | .lu => lit "%lu"
  | .ld => lit "%ld"

def formatOf (pieces : List FormatPiece) : CStr := pieces.flatMap FormatPiece.format

def decimal (n : Nat) : CStr := Nat.toDigits 10 n

def decimalInt (v : Int) : CStr := if v < 0 then '-' :: decimal v.natAbs else decimal v.natAbs

/-- What a piece prints, where `lu` is `%lu`, and the arguments that are left. -/
def FormatPiece.print (lu : Nat → CStr) : FormatPiece → List Arg → Option (CStr × List Arg)
  | .text ch _, args => some ([ch], args)
  | .percent, args => some (['%'], args)
  | .s, .str str :: args => some (str, args)
  | .c, .chr ch :: args => some ([ch], args)
  | .d, .int v :: args => some (decimalInt v.toInt, args)
  | .u, .uint v :: args => some (decimal v.toNat, args)
  | .lu, .ulong v :: args => some (lu v.toNat, args)
  | .ld, .long v :: args => some (decimalInt v.toInt, args)
  | _, _ => none

def printPieces : List FormatPiece → List Arg → Option CStr
  | [], _ => some []
  | piece :: pieces, args =>
    (piece.print decimal args).bind fun printed =>
      (printPieces pieces printed.2).map (printed.1 ++ ·)

def readFormat : CStr → Option (List FormatPiece)
  | [] => some []
  | c :: format =>
    if percent : c = '%' then
      match format with
      | '%' :: format => (readFormat format).map (.percent :: ·)
      | 's' :: format => (readFormat format).map (.s :: ·)
      | 'c' :: format => (readFormat format).map (.c :: ·)
      | 'd' :: format => (readFormat format).map (.d :: ·)
      | 'u' :: format => (readFormat format).map (.u :: ·)
      | 'l' :: 'u' :: format => (readFormat format).map (.lu :: ·)
      | 'l' :: 'd' :: format => (readFormat format).map (.ld :: ·)
      | _ => none
    else (readFormat format).map (.text c percent :: ·)

def vsprintf (format : CStr) (args : List Arg) : Option (CStr × Nat) :=
  (readFormat format).bind fun pieces =>
    (printPieces pieces args).map fun out => (out, out.length)

/-- An entry of `atoi_tab`: the three digits of its index. -/
def atoiTab (v : Nat) : CStr := padded 3 v

/-- The loop that writes groups of three digits, the last one first, in front of `s`. -/
def digitGroups (v1 : Nat) (s : CStr) : CStr :=
  let v2 := v1 / 1000
  let s := atoiTab (v1 - 1000 * v2) ++ s
  if v2 > 0 then digitGroups v2 s else s
termination_by v1

def printGroups (v1 : Nat) : CStr := (digitGroups v1 []).dropWhile (· == '0')

def printU (v1 : BitVec 32) : CStr := if v1 = 0 then ['0'] else printGroups v1.toNat

def printD (v1 : BitVec 32) : CStr :=
  if v1.toInt ≤ 0 then
    if v1 = 0 then ['0'] else '-' :: printGroups (-v1).toNat
  else printGroups v1.toNat

def luBytes (v1 : Nat) : Nat := if v1 = 0 then 1 else if v1 > 999999999 then 1 + 9 else 9

def put (out : CStr) (bytes : Nat) (rest : Option (CStr × Nat)) : Option (CStr × Nat) :=
  rest.map fun rest => (out ++ rest.1, bytes + rest.2)

def vsprintfIrc : CStr → List Arg → Option (CStr × Nat)
  | [], _ => some ([], 0)
  | c :: format, args =>
    if c = '%' then
      match format, args with
      | 's' :: format, .str s :: args => put s s.length (vsprintfIrc format args)
      | 'c' :: format, .chr c :: args => put [c] 1 (vsprintfIrc format args)
      | 'l' :: 'u' :: format, .ulong v :: args =>
        put (formatLu v.toNat) (luBytes v.toNat) (vsprintfIrc format args)
      | 'd' :: format, .int v :: args =>
        put (printD v) (printD v).length (vsprintfIrc format args)
      | 'u' :: format, .uint v :: args =>
        put (printU v) (printU v).length (vsprintfIrc format args)
      | 's' :: _, _ | 'c' :: _, _ | 'l' :: 'u' :: _, _ | 'd' :: _, _ | 'u' :: _, _ => none
      | '%' :: format, args => put ['%'] 1 (vsprintfIrc format args)
      | format, args => vsprintf ('%' :: format) args
    else put [c] 1 (vsprintfIrc format args)

theorem decimal_succ {n : Nat} (large : 10 ≤ n) :
    decimal n = decimal (n / 10) ++ [digitChar (n % 10)] := by
  have small : ∀ d < 10, Nat.digitChar d = digitChar d := by decide
  rw [decimal, decimal, Nat.toDigits_of_base_le (by decide) large,
    small _ (Nat.mod_lt _ (by decide))]

theorem decimal_digit {n : Nat} (small : n < 10) : decimal n = [digitChar n] := by
  have all : ∀ d < 10, Nat.digitChar d = digitChar d := by decide
  rw [decimal, Nat.toDigits_of_lt_base small, all n small]

theorem padded_add (a b n : Nat) : padded (a + b) n = padded a (n / 10 ^ b) ++ padded b n := by
  induction b generalizing n with
  | zero => simp [padded]
  | succ b ih =>
    have parts : n / 10 / 10 ^ b = n / 10 ^ (b + 1) := by
      rw [Nat.div_div_eq_div_mul, pow_succ']
    rw [← Nat.add_assoc, padded, padded, ih, parts, List.append_assoc]

theorem padded_mod (b n : Nat) : padded b (n % 10 ^ b) = padded b n := by
  induction b generalizing n with
  | zero => rfl
  | succ b ih =>
    have high : n % 10 ^ (b + 1) / 10 = n / 10 % 10 ^ b := by
      rw [pow_succ', Nat.mod_mul_right_div_self]
    have low : n % 10 ^ (b + 1) % 10 = n % 10 := by
      rw [pow_succ', Nat.mod_mul_right_mod]
    rw [padded, padded, high, low, ih]

theorem padded_eq {width n : Nat} (fits : n < 10 ^ (width + 1)) :
    padded (width + 1) n = (decimal n).leftpad (width + 1) '0' := by
  induction width generalizing n with
  | zero =>
    have digit : n < 10 := by simpa using fits
    rw [decimal_digit digit, padded, padded, Nat.mod_eq_of_lt digit]
    rfl
  | succ width ih =>
    have shorter : n / 10 < 10 ^ (width + 1) := by
      rw [pow_succ] at fits
      omega
    rw [padded, ih shorter]
    by_cases large : 10 ≤ n
    · rw [decimal_succ large, List.leftpad, List.leftpad, List.length_append,
        List.length_singleton, Nat.add_sub_add_right, List.append_assoc]
    · have zero : n / 10 = 0 := by omega
      have zeros : List.replicate width '0' ++ ['0'] = List.replicate (width + 1) '0' :=
        List.replicate_succ'.symm
      rw [zero, Nat.mod_eq_of_lt (by omega), decimal_digit (by omega), decimal_digit (by omega)]
      simp only [List.leftpad, List.length_singleton, Nat.add_sub_cancel]
      rw [← zeros]
      rfl

theorem decimal_head {n : Nat} (pos : 0 < n) :
    ∃ d rest, decimal n = d :: rest ∧ d ≠ '0' := by
  induction n using Nat.strong_induction_on with
  | _ n ih =>
    by_cases large : 10 ≤ n
    · obtain ⟨d, rest, front, nonzero⟩ := ih (n / 10) (by omega) (by omega)
      exact ⟨d, rest ++ [digitChar (n % 10)], by rw [decimal_succ large, front]; rfl, nonzero⟩
    · have all : ∀ d < 10, 0 < d → digitChar d ≠ '0' := by decide
      exact ⟨digitChar n, [], decimal_digit (by omega), all n (by omega) pos⟩

theorem dropWhile_padded {width n : Nat} (fits : n < 10 ^ (width + 1)) (pos : 0 < n) :
    (padded (width + 1) n).dropWhile (· == '0') = decimal n := by
  obtain ⟨d, rest, front, nonzero⟩ := decimal_head pos
  have zeros :
      ∀ c ∈ List.replicate (width + 1 - (decimal n).length) '0', (c == '0') = true := by
    intro c inside
    rw [List.eq_of_mem_replicate inside]
    rfl
  rw [padded_eq fits, List.leftpad, List.dropWhile_append_of_pos zeros, front,
    List.dropWhile_cons_of_neg (by simpa using nonzero)]

theorem digitGroups_eq (v : Nat) (s : CStr) :
    ∃ k, v < 10 ^ (3 * k + 3) ∧ digitGroups v s = padded (3 * k + 3) v ++ s := by
  induction v using Nat.strong_induction_on generalizing s with
  | _ v ih =>
    have entry : atoiTab (v - 1000 * (v / 1000)) = padded 3 v := by
      have rest : v - 1000 * (v / 1000) = v % 10 ^ 3 := by omega
      rw [atoiTab, rest, padded_mod]
    rw [digitGroups]
    simp only [entry]
    by_cases more : v / 1000 > 0
    · obtain ⟨k, fits, written⟩ := ih (v / 1000) (by omega) (padded 3 v ++ s)
      refine ⟨k + 1, ?_, ?_⟩
      · have longer : 10 ^ (3 * (k + 1) + 3) = 10 ^ (3 * k + 3) * 1000 := by
          rw [Nat.mul_succ, pow_add _ (3 * k + 3) 3]
          norm_num
        omega
      · rw [if_pos more, written, Nat.mul_succ, padded_add (3 * k + 3) 3 v, List.append_assoc]
        rfl
    · rw [if_neg more]
      exact ⟨0, by simp only [Nat.mul_zero, Nat.zero_add]; omega, rfl⟩

theorem printGroups_eq {v : Nat} (pos : 0 < v) : printGroups v = decimal v := by
  obtain ⟨k, fits, written⟩ := digitGroups_eq v []
  rw [printGroups, written, List.append_nil]
  exact dropWhile_padded fits pos

theorem printU_eq (v : BitVec 32) : printU v = decimal v.toNat := by
  unfold printU
  split
  · next zero =>
    rw [zero]
    rfl
  · next nonzero =>
    apply printGroups_eq
    apply Nat.pos_of_ne_zero
    exact fun zero => nonzero (BitVec.eq_of_toNat_eq zero)

theorem printD_eq (v : BitVec 32) : printD v = decimalInt v.toInt := by
  have value := BitVec.toInt_eq_toNat_cond v
  have bound := v.isLt
  unfold printD decimalInt
  by_cases zero : v = 0
  · rw [zero]
    rfl
  have some : v.toNat ≠ 0 := fun none => zero (BitVec.eq_of_toNat_eq none)
  by_cases negative : v.toInt < 0
  · have size : (-v).toNat = v.toInt.natAbs := by
      rw [BitVec.toNat_neg]
      split at value <;> omega
    rw [if_pos (by omega), if_neg zero, if_pos negative, size, printGroups_eq (by omega)]
  · have positive : ¬ v.toInt ≤ 0 := by
      split at value <;> omega
    have size : v.toNat = v.toInt.natAbs := by
      split at value <;> omega
    rw [if_neg positive, if_neg negative, size, printGroups_eq (by omega)]

/-- `%lu` as it comes out below 10^10: nine digits at least, and `0` for zero. -/
def nineDigits (v : Nat) : CStr := if v = 0 then ['0'] else (decimal v).leftpad 9 '0'

theorem formatLu_eq {v : Nat} (small : v < 10 ^ 10) : formatLu v = nineDigits v := by
  unfold formatLu nineDigits
  split
  · rfl
  · split
    · next large =>
      have head : Char.ofNat ((48 + v / 1000000000) % 256) = digitChar (v / 1000000000 % 10) := by
        rw [Nat.mod_eq_of_lt (by omega), Nat.mod_eq_of_lt (by omega)]
        rfl
      have whole : padded 10 v = digitChar (v / 10 ^ 9 % 10) :: padded 9 v := padded_add 1 9 v
      have wide : 9 < (decimal v).length := by
        by_contra narrow
        have bound := (Nat.length_toDigits_le_iff (by decide) (by decide)).mp (not_lt.mp narrow)
        omega
      have ten : (decimal v).leftpad 10 '0' = (decimal v).leftpad 9 '0' := by
        rw [List.leftpad, List.leftpad, Nat.sub_eq_zero_of_le wide,
          Nat.sub_eq_zero_of_le (Nat.le_of_lt wide)]
      have last : padded 9 (v % 1000000000) = padded 9 v := padded_mod 9 v
      rw [head, last, ← ten, ← padded_eq (by omega)]
      exact whole.symm
    · exact padded_eq (by omega)

theorem luBytes_eq (v : Nat) : luBytes v = (formatLu v).length := by
  unfold luBytes formatLu
  split
  · rfl
  · split
    · rw [List.length_cons, length_padded]
    · rw [length_padded]

theorem nineDigits_eq {v : Nat} (wide : v = 0 ∨ 10 ^ 8 ≤ v) : nineDigits v = decimal v := by
  unfold nineDigits
  split
  · next zero =>
    rw [zero]
    rfl
  · next nonzero =>
    have long : 9 ≤ (decimal v).length := by
      by_contra narrow
      have bound := (Nat.length_toDigits_le_iff (b := 10) (n := v) (k := 8) (by decide)
        (by decide)).mp (by rw [decimal] at narrow; omega)
      omega
    rw [List.leftpad, Nat.sub_eq_zero_of_le long]
    rfl

/-- What `vsprintf_irc` prints: nine digits at least for every `%lu` before the first `%ld`. -/
def printFast : List FormatPiece → List Arg → Option CStr
  | [], _ => some []
  | .ld :: pieces, args => printPieces (.ld :: pieces) args
  | piece :: pieces, args =>
    (piece.print nineDigits args).bind fun printed =>
      (printFast pieces printed.2).map (printed.1 ++ ·)

def FormatPiece.luArg : FormatPiece → List Arg → List Nat
  | .lu, .ulong v :: _ => [v.toNat]
  | _, _ => []

def FormatPiece.behind : FormatPiece → List Arg → List Arg
  | .text _ _, args => args
  | .percent, args => args
  | _, args => args.tail

/-- The arguments of every `%lu` before the first `%ld`. -/
def luArgs : List FormatPiece → List Arg → List Nat
  | [], _ => []
  | piece :: pieces, args =>
    if piece = .ld then [] else piece.luArg args ++ luArgs pieces (piece.behind args)

theorem readFormat_formatOf (pieces : List FormatPiece) :
    readFormat (formatOf pieces) = some pieces := by
  induction pieces with
  | nil => rfl
  | cons piece pieces ih =>
    have split : formatOf (piece :: pieces) = piece.format ++ formatOf pieces := rfl
    rw [split]
    cases piece with
    | text ch plain =>
      have literal : readFormat (ch :: formatOf pieces) =
          (readFormat (formatOf pieces)).map (.text ch plain :: ·) := by
        rw [readFormat.eq_def]
        exact dif_neg plain
      rw [FormatPiece.format, List.singleton_append, literal, ih]
      rfl
    | percent => exact congrArg (Option.map (FormatPiece.percent :: ·)) ih
    | s => exact congrArg (Option.map (FormatPiece.s :: ·)) ih
    | c => exact congrArg (Option.map (FormatPiece.c :: ·)) ih
    | d => exact congrArg (Option.map (FormatPiece.d :: ·)) ih
    | u => exact congrArg (Option.map (FormatPiece.u :: ·)) ih
    | lu => exact congrArg (Option.map (FormatPiece.lu :: ·)) ih
    | ld => exact congrArg (Option.map (FormatPiece.ld :: ·)) ih

theorem vsprintfIrc_append {piece : FormatPiece} (own : piece ≠ .ld) (format : CStr)
    (args : List Arg)
    (small : ∀ v ∈ piece.luArg args, v < 10 ^ 10) :
    vsprintfIrc (piece.format ++ format) args =
      (piece.print nineDigits args).bind fun printed =>
        put printed.1 printed.1.length (vsprintfIrc format printed.2) := by
  cases piece with
  | text ch plain =>
    have literal : vsprintfIrc (ch :: format) args = put [ch] 1 (vsprintfIrc format args) := by
      rw [vsprintfIrc.eq_def]
      exact if_neg plain
    rw [FormatPiece.format, List.singleton_append, literal]
    rfl
  | percent => rfl
  | ld => exact absurd rfl own
  | s =>
    cases args with
    | nil => rfl
    | cons arg args => cases arg <;> rfl
  | c =>
    cases args with
    | nil => rfl
    | cons arg args => cases arg <;> rfl
  | d =>
    cases args with
    | nil => rfl
    | cons arg args =>
      cases arg with
      | int v =>
        have printed : vsprintfIrc (FormatPiece.d.format ++ format) (.int v :: args) =
          put (printD v) (printD v).length (vsprintfIrc format args) := rfl
        rw [printed, printD_eq]
        rfl
      | _ => rfl
  | u =>
    cases args with
    | nil => rfl
    | cons arg args =>
      cases arg with
      | uint v =>
        have printed : vsprintfIrc (FormatPiece.u.format ++ format) (.uint v :: args) =
          put (printU v) (printU v).length (vsprintfIrc format args) := rfl
        rw [printed, printU_eq]
        rfl
      | _ => rfl
  | lu =>
    cases args with
    | nil => rfl
    | cons arg args =>
      cases arg with
      | ulong v =>
        have printed : vsprintfIrc (FormatPiece.lu.format ++ format) (.ulong v :: args) =
          put (formatLu v.toNat) (luBytes v.toNat) (vsprintfIrc format args) := rfl
        rw [printed, luBytes_eq, formatLu_eq (small v.toNat (List.mem_singleton_self _))]
        rfl
      | _ => rfl

theorem behind_of_print {lu : Nat → CStr} {piece : FormatPiece} {args rest : List Arg}
    {out : CStr}
    (printed : piece.print lu args = some (out, rest)) : rest = piece.behind args := by
  cases piece with
  | text ch plain =>
    cases printed
    rfl
  | percent =>
    cases printed
    rfl
  | _ =>
    cases args with
    | nil => cases printed
    | cons arg args =>
      cases arg <;> cases printed
      rfl

theorem printFast_cons {piece : FormatPiece} (own : piece ≠ .ld) (pieces : List FormatPiece)
    (args : List Arg) : printFast (piece :: pieces) args =
      (piece.print nineDigits args).bind fun printed =>
        (printFast pieces printed.2).map (printed.1 ++ ·) := by
  cases piece with
  | ld => exact absurd rfl own
  | _ => rfl

theorem vsprintfIrc_eq (pieces : List FormatPiece) : ∀ args : List Arg,
    (∀ v ∈ luArgs pieces args, v < 10 ^ 10) →
    vsprintfIrc (formatOf pieces) args =
      (printFast pieces args).map fun out => (out, out.length) := by
  induction pieces with
  | nil => exact fun _ _ => rfl
  | cons piece pieces ih =>
    intro args small
    have split : formatOf (piece :: pieces) = piece.format ++ formatOf pieces := rfl
    by_cases own : piece = .ld
    · -- The library prints all that is left.
      have read := readFormat_formatOf (piece :: pieces)
      subst own
      have left : vsprintfIrc (formatOf (.ld :: pieces)) args =
          vsprintf (formatOf (.ld :: pieces)) args := rfl
      rw [left, vsprintf, read, printFast]
      rfl
    · rw [luArgs, if_neg own] at small
      have here := fun v inside => small v (List.mem_append_left _ inside)
      rw [split, vsprintfIrc_append own _ _ here, printFast_cons own]
      cases printed : piece.print nineDigits args with
      | none => rfl
      | some result =>
        obtain ⟨out, rest⟩ := result
        rw [← behind_of_print printed] at small
        have later := ih rest fun v inside => small v (List.mem_append_right _ inside)
        simp only [Option.bind_some]
        rw [later]
        cases printFast pieces rest with
        | none => rfl
        | some text => simp [put]

/-- Where every `%lu` has a number of nine or ten digits, or zero, nothing differs. -/
theorem printFast_eq (pieces : List FormatPiece) : ∀ args : List Arg,
    (∀ v ∈ luArgs pieces args, v = 0 ∨ 10 ^ 8 ≤ v) →
    printFast pieces args = printPieces pieces args := by
  induction pieces with
  | nil => exact fun _ _ => rfl
  | cons piece pieces ih =>
    intro args wide
    by_cases own : piece = .ld
    · rw [own, printFast]
    · rw [luArgs, if_neg own] at wide
      have same : piece.print nineDigits args = piece.print decimal args := by
        cases piece with
        | lu =>
          cases args with
          | nil => rfl
          | cons arg args =>
            cases arg with
            | ulong v =>
              have number := wide v.toNat (List.mem_append_left _ (List.mem_singleton_self _))
              have here : FormatPiece.lu.print nineDigits (.ulong v :: args) =
                some (nineDigits v.toNat, args) := rfl
              rw [here, nineDigits_eq number]
              rfl
            | _ => rfl
        | _ =>
          cases args with
          | nil => rfl
          | cons arg args => cases arg <;> rfl
      rw [printFast_cons own, printPieces, ← same]
      cases printed : piece.print nineDigits args with
      | none => rfl
      | some result =>
        obtain ⟨out, rest⟩ := result
        rw [← behind_of_print printed] at wide
        have later := ih rest fun v inside => wide v (List.mem_append_right _ inside)
        simp only [Option.bind_some]
        rw [later]

/-- The two agree but for `%lu`, which prints at least nine digits; what it prints for a time
reads back as that time. -/
theorem vsprintfIrc_agrees (pieces : List FormatPiece) (args : List Arg)
    (small : ∀ v ∈ luArgs pieces args, v < 10 ^ 10) :
    (vsprintfIrc (formatOf pieces) args =
      (printFast pieces args).map fun out => (out, out.length)) ∧
    ((∀ v ∈ luArgs pieces args, v = 0 ∨ 10 ^ 8 ≤ v) →
      vsprintfIrc (formatOf pieces) args = vsprintf (formatOf pieces) args) ∧
    ∀ t : Nat, t < 10 ^ 10 → atol (nineDigits t) = t := by
  have printed := vsprintfIrc_eq pieces args small
  refine ⟨printed, fun wide => ?_, fun t short => ?_⟩
  · rw [printed, vsprintf, readFormat_formatOf, Option.bind_some, printFast_eq pieces args wide]
  · have time : formatTime t = nineDigits t := by
      have same : ((t : Int) % 2 ^ 64).toNat = t := by omega
      rw [formatTime, same, formatLu_eq short]
    rw [← time]
    exact atol_formatTime (by omega) (by omega)

theorem blank_plain : ' ' ≠ '%' := by decide

def blankPiece : FormatPiece := .text ' ' blank_plain

theorem channel_line_agrees :
    vsprintfIrc (lit "%s %lu %d") [.str (lit "#c"), .ulong 1000000000, .int 12] =
      vsprintf (lit "%s %lu %d") [.str (lit "#c"), .ulong 1000000000, .int 12] := by
  have agrees := vsprintfIrc_agrees [.s, blankPiece, .lu, blankPiece, .d]
    [.str (lit "#c"), .ulong 1000000000, .int 12] (by decide)
  exact agrees.2.1 (by decide)

/-- Eight zeros in front of a five, and a time of eleven digits that does not come back. -/
theorem short_time_padded :
    vsprintfIrc (lit "%lu") [.ulong 5] ≠ vsprintf (lit "%lu") [.ulong 5] ∧
      (vsprintfIrc (lit "%lu") [.ulong 10000000000]).map (fun printed => atol printed.1) ≠
        some 10000000000 := by
  decide +kernel

end Ircd
