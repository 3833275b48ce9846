import Mathlib.Data.List.Flatten
import Mathlib.Data.List.Infix

/-! Decoders that take a stream one letter at a time, and the one for compressed data.

What has been decoded is never taken back, so a stream may be cut anywhere. Compressed data
are decoded in two stages: its bits make literals and copies, and these make text. Codes of
the stream's own are not among the blocks.
-/

set_option autoImplicit false

structure Decoder (S A B : Type*) where
  start : S
  step : S → A → S × List B

namespace Decoder

variable {S T A B C : Type*} (d : Decoder S A B) (e : Decoder T B C)

def run (s : S) : List A → S × List B
  | [] => (s, [])
  | a :: input =>
    let (s, out) := d.step s a
    let (s, more) := run s input
    (s, out ++ more)

def decode (input : List A) : List B := (d.run d.start input).2

theorem run_cons (s : S) (a : A) (input : List A) : d.run s (a :: input) =
    ((d.run (d.step s a).1 input).1, (d.step s a).2 ++ (d.run (d.step s a).1 input).2) := rfl

theorem run_append (s : S) (input more : List A) : d.run s (input ++ more) =
    ((d.run (d.run s input).1 more).1, (d.run s input).2 ++ (d.run (d.run s input).1 more).2) := by
  induction input generalizing s with
  | nil => rfl
  | cons a input ih => simp [run_cons, ih]

theorem decode_prefix (input more : List A) : d.decode input <+: d.decode (input ++ more) := by
  rw [decode, decode, run_append]
  exact List.prefix_append _ _

theorem run_replicate {s : S} {input : List A} {out : List B} (again : d.run s input = (s, out))
    (n : Nat) : d.run s (List.replicate n input).flatten = (s, (List.replicate n out).flatten) := by
  induction n with
  | zero => rfl
  | succ n ih => simp [List.replicate_succ, run_append, again, ih]

/-- The output of one decoder is the input of the other. -/
def comp : Decoder (S × T) A C where
  start := (d.start, e.start)
  step s a :=
    let (s₁, middle) := d.step s.1 a
    let (s₂, out) := e.run s.2 middle
    ((s₁, s₂), out)

theorem run_comp (s : S × T) (input : List A) : (d.comp e).run s input =
    (((d.run s.1 input).1, (e.run s.2 (d.run s.1 input).2).1),
      (e.run s.2 (d.run s.1 input).2).2) := by
  induction input generalizing s with
  | nil => rfl
  | cons a input ih =>
    rw [run_cons, ih, run_cons]
    simp [comp, run_append]

theorem decode_comp (input : List A) : (d.comp e).decode input = e.decode (d.decode input) := by
  rw [decode, run_comp]
  rfl

/-- The letters of `buffer` that are taken until more than `limit` has come out. -/
def pull (limit : Nat) (input : List A) : List A → List A
  | [] => []
  | a :: buffer =>
    if limit < (d.decode input).length then [] else a :: pull limit (input ++ [a]) buffer

variable {d} {limit : Nat}

theorem pull_append_drop (input buffer : List A) :
    d.pull limit input buffer ++ buffer.drop (d.pull limit input buffer).length = buffer := by
  induction buffer generalizing input with
  | nil => rfl
  | cons a buffer ih =>
    rw [pull]
    split
    · rfl
    · simp [ih]

/-- All letters are taken unless more has come out than wanted. -/
theorem pull_of_le {input buffer : List A}
    (less : (d.decode (input ++ d.pull limit input buffer)).length ≤ limit) :
    d.pull limit input buffer = buffer := by
  induction buffer generalizing input with
  | nil => rfl
  | cons a buffer ih =>
    rw [pull] at less ⊢
    split at less
    · next full =>
      rw [List.append_nil] at less
      omega
    · next going =>
      rw [if_neg going, ih]
      rwa [List.append_assoc, List.singleton_append]

theorem length_pull_le {input taken buffer : List A}
    (full : limit < (d.decode (input ++ taken)).length) :
    (d.pull limit input (taken ++ buffer)).length ≤ taken.length := by
  induction taken generalizing input with
  | nil =>
    rw [List.append_nil] at full
    cases buffer with
    | nil => exact Nat.le_refl 0
    | cons a buffer => simp [pull, full]
  | cons a taken ih =>
    rw [List.cons_append, pull]
    split
    · exact Nat.zero_le _
    · rw [List.length_cons, List.length_cons]
      exact Nat.succ_le_succ (ih (by rwa [List.append_assoc, List.singleton_append]))

end Decoder

namespace Deflate

inductive Token where
  | literal (c : Char)
  | copy (length dist : Nat)
  deriving DecidableEq, Repr

/-- What the next bits are; `stop` is behind the last block or a code that there is not. -/
inductive Mode where
  | header
  | block
  | length (final : Bool)
  | stored (final : Bool) (left : Nat)
  | codes (final : Bool)
  | stop
  deriving DecidableEq, Repr

def Mode.next (final : Bool) : Mode := if final then .stop else .block

def bits (c : Char) : List Bool := (List.range 8).map c.toNat.testBit

/-- The number whose lowest bit comes first. -/
def number : List Bool → Nat
  | [] => 0
  | b :: rest => b.toNat + 2 * number rest

/-- The code whose highest bit comes first. -/
def code (bits : List Bool) : Nat := bits.foldl (fun acc b => 2 * acc + b.toNat) 0

def split (n : Nat) (bits : List Bool) : Option (List Bool × List Bool) :=
  if bits.length < n then none else some (bits.take n, bits.drop n)

/-- A literal, an end or a length in the fixed code, of seven to nine bits. -/
def symbol (bits : List Bool) : Option (Nat × List Bool) := do
  let (seven, rest) ← split 7 bits
  if code seven < 24 then return (256 + code seven, rest)
  let (eight, rest) ← split 8 bits
  if code eight < 192 then return (code eight - 48, rest)
  if code eight < 200 then return (280 + (code eight - 192), rest)
  let (nine, rest) ← split 9 bits
  return (144 + (code nine - 400), rest)

/-- The length of a symbol from 257 on, with its extra bits. -/
def copyLength (symbol : Nat) (bits : List Bool) : Option (Nat × List Bool) :=
  let k := symbol - 257
  if k < 8 then some (3 + k, bits)
  else if k = 28 then some (258, bits)
  else do
    let extra := k / 4 - 1
    let (low, rest) ← split extra bits
    return (3 + (4 + k % 4) <<< extra + number low, rest)

def distance (bits : List Bool) : Option (Nat × List Bool) := do
  let (five, rest) ← split 5 bits
  let k := code five
  if k < 4 then return (1 + k, rest)
  let extra := k / 2 - 1
  let (low, rest) ← split extra rest
  return (1 + (2 + k % 2) <<< extra + number low, rest)

def inCodes (final : Bool) (bits : List Bool) : Option (Mode × List Bool × List Token) := do
  let (symbol, rest) ← symbol bits
  if symbol < 256 then return (.codes final, rest, [.literal (Char.ofNat symbol)])
  if symbol = 256 then return (.next final, rest, [])
  if 285 < symbol then return (.stop, rest, [])
  let (length, rest) ← copyLength symbol rest
  let (dist, rest) ← distance rest
  if 32768 < dist then return (.stop, rest, [])
  return (.codes final, rest, [.copy length dist])

/-- The next item, once its bits are there. -/
def item (bits : List Bool) : Mode → Option (Mode × List Bool × List Token)
  | .header => do
    let (_, rest) ← split 16 bits
    return (.block, rest, [])
  | .block => do
    let (three, rest) ← split 3 bits
    let final := number (three.take 1) = 1
    match number (three.drop 1) with
    -- what is stored begins at a byte
    | 0 => return (.length final, rest.drop (rest.length % 8), [])
    | 1 => return (.codes final, rest, [])
    | _ => return (.stop, rest, [])
  | .length final => do
    let (both, rest) ← split 32 bits
    return (.stored final (number (both.take 16)), rest, [])
  | .stored final 0 => some (.next final, bits, [])
  | .stored final (left + 1) => do
    let (eight, rest) ← split 8 bits
    return (.stored final left, rest, [.literal (Char.ofNat (number eight))])
  | .codes final => inCodes final bits
  | .stop => none

def drain : Nat → Mode → List Bool → (Mode × List Bool) × List Token
  | 0, mode, bits => ((mode, bits), [])
  | fuel + 1, mode, bits =>
    match item bits mode with
    | none => ((mode, bits), [])
    | some (mode, rest, tokens) =>
      let (s, more) := drain fuel mode rest
      (s, tokens ++ more)

/-- A block that stores nothing takes no bits, and every other item takes some. -/
def tokens : Decoder (Mode × List Bool) Char Token where
  start := (.header, [])
  step s c := drain (2 * (s.2.length + 8)) s.1 (s.2 ++ bits c)

/-- `length` more characters, each as the one `dist` before it; the last comes first. -/
def extend (dist : Nat) : Nat → List Char → List Char
  | 0, window => window
  | length + 1, window => extend dist length (window.getD (dist - 1) '\x00' :: window)

/-- The text of the tokens; it ends before a copy of what has not been there. -/
def text : Decoder (Option (List Char)) Token Char where
  start := some []
  step
    | none, _ => (none, [])
    | some window, .literal c => (some (c :: window), [c])
    | some window, .copy length dist =>
      if window.length < dist then (none, [])
      else
        let window := extend dist length window
        (some window, (window.take length).reverse)

def inflater : Decoder ((Mode × List Bool) × Option (List Char)) Char Char := tokens.comp text

theorem extend_one (length : Nat) (c : Char) (window : List Char) :
    extend 1 length (c :: window) = List.replicate length c ++ c :: window := by
  induction length generalizing window with
  | zero => rfl
  | succ length ih =>
    rw [extend, List.getD_cons_zero, ih, List.replicate_succ', List.append_assoc]
    rfl

/-- Copies of the last character repeat it. -/
theorem run_copies (n length : Nat) (c : Char) (window : List Char) :
    ∃ window', text.run (some (c :: window)) (List.replicate n (.copy length 1)) =
      (some (c :: window'), List.replicate (n * length) c) := by
  induction n generalizing window with
  | zero => exact ⟨window, by simp [Decoder.run]⟩
  | succ n ih =>
    have step : text.step (some (c :: window)) (.copy length 1) =
        (some (List.replicate length c ++ c :: window), List.replicate length c) := by
      simp [text, extend_one]
    have first : List.replicate length c ++ c :: window =
        c :: (List.replicate length c ++ window) := by
      rw [← List.cons_append, ← List.replicate_succ, List.replicate_succ', List.append_assoc,
        List.singleton_append]
    obtain ⟨window', rest⟩ := ih (List.replicate length c ++ window)
    refine ⟨window', ?_⟩
    rw [List.replicate_succ, Decoder.run, step]
    simp only [first, rest]
    rw [List.replicate_append_replicate, Nat.succ_mul, Nat.add_comm]

example : inflater.decode ([0x78, 0x01, 0x4b, 0x4a, 0xcc, 0x03, 0x42, 0x85, 0xa4, 0xc4, 0xbc, 0x14,
    0x24, 0x1a, 0x00, 0x5d, 0xab, 0x08, 0x2c].map Char.ofNat) =
      "banana bandana bandana".toList := by
  decide +kernel

end Deflate
