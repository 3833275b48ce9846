import Ircd.Memory.BlockHeap
import Mathlib.Algebra.Order.BigOperators.Group.List

/-! What the bitmaps of a block heap say: which elements are held, how many are free, and
that every call of a run keeps both in step.
-/

set_option autoImplicit false

namespace Ircd

open Bitmap

theorem longBits_pos : 0 < longBits := by decide

namespace BlockHeap

/-- What the loop says of the bits from `start` on. -/
def Scanned (numlongs : Nat) (allocMap : List (BitVec longBits)) (start : Nat) :
    Option (Nat × Nat × BitVec longBits) → Prop
  | none => ∀ i, start ≤ i → i < numlongs * longBits → get allocMap i = true
  | some (unit, ctr, mask) =>
    unit < numlongs ∧ ctr < longBits ∧ mask = BitVec.ofNat longBits 1 <<< ctr ∧
      get allocMap (unit * longBits + ctr) = false ∧
      ∀ i, start ≤ i → i < unit * longBits + ctr → get allocMap i = true

variable {numlongs : Nat} {allocMap : List (BitVec longBits)}

theorem Scanned.later {start next : Nat} {found : Option (Nat × Nat × BitVec longBits)}
    (used : ∀ i, start ≤ i → i < next → get allocMap i = true)
    (scanned : Scanned numlongs allocMap next found) : Scanned numlongs allocMap start found := by
  have skip : ∀ i, start ≤ i → ¬ next ≤ i → get allocMap i = true :=
    fun i from_ before => used i from_ (Nat.lt_of_not_le before)
  cases found with
  | none =>
    intro i from_ inside
    by_cases reached : next ≤ i
    · exact scanned i reached inside
    · exact skip i from_ reached
  | some result =>
    obtain ⟨unit, ctr, mask⟩ := result
    obtain ⟨word, bit, same, free, rest⟩ := scanned
    refine ⟨word, bit, same, free, fun i from_ inside => ?_⟩
    by_cases reached : next ≤ i
    · exact rest i reached inside
    · exact skip i from_ reached

theorem scanMap_spec (fuel unit ctr : Nat) (small : ctr < longBits)
    (enough : (numlongs - unit) * longBits ≤ fuel + ctr) :
    Scanned numlongs allocMap (unit * longBits + ctr)
      (scanMap numlongs allocMap fuel unit ctr (BitVec.ofNat longBits 1 <<< ctr)) := by
  induction fuel generalizing unit ctr with
  | zero =>
    intro i from_ inside
    simp only [longBits] at *
    omega
  | succ fuel ih =>
    unfold scanMap
    by_cases more : unit < numlongs
    · rw [if_pos more]
      simp only
      have next : Scanned numlongs allocMap ((unit + 1) * longBits + 0)
          (scanMap numlongs allocMap fuel (unit + 1) 0 (BitVec.ofNat longBits 1 <<< 0)) := by
        apply ih (unit + 1) 0 longBits_pos
        simp only [longBits] at *
        omega
      split
      · next full =>
        -- the whole word is in use
        obtain ⟨one, all⟩ := full
        rw [one]
        refine Scanned.later (fun i from_ inside => ?_) next
        obtain ⟨l, bit, rfl⟩ : ∃ l, l < longBits ∧ i = unit * longBits + l := by
          refine ⟨i - unit * longBits, ?_, ?_⟩ <;> simp only [longBits] at * <;> omega
        rw [get_mul_add unit bit, all]
        simp [bit]
      split
      · next free =>
        rw [one_shift_and_eq_zero _ small, ← get_mul_add unit small] at free
        exact ⟨more, small, rfl, free, fun i from_ inside => absurd inside (Nat.not_lt.2 from_)⟩
      next used =>
      rw [one_shift_and_eq_zero _ small, ← get_mul_add unit small, Bool.not_eq_false] at used
      have here : ∀ i, unit * longBits + ctr ≤ i → i < unit * longBits + (ctr + 1) →
          get allocMap i = true := by
        intro i from_ inside
        have same : i = unit * longBits + ctr := by omega
        rwa [same]
      rw [← BitVec.shiftLeft_add]
      split
      · next last =>
        rw [one_shift_eq_zero] at last
        refine Scanned.later (fun i from_ inside => here i from_ ?_) next
        simp only [longBits] at *
        omega
      · next within =>
        rw [one_shift_eq_zero] at within
        apply Scanned.later here
        apply ih unit (ctr + 1) (Nat.lt_of_not_le within)
        omega
    · rw [if_neg more]
      intro i from_ inside
      simp only [longBits] at *
      omega

end BlockHeap

structure Layout where
  elemSize : Nat
  elemsPerBlock : Nat
  numlongs : Nat

def BlockHeap.layout (bh : BlockHeap) : Layout where
  elemSize := bh.elemSize
  elemsPerBlock := bh.elemsPerBlock
  numlongs := bh.numlongs

structure Layout.Proper (l : Layout) : Prop where
  elemSize : 0 < l.elemSize
  elemsPerBlock : 0 < l.elemsPerBlock
  /-- The words have room for the bits. -/
  numlongs : l.elemsPerBlock ≤ l.numlongs * longBits

def Layout.blockSize (l : Layout) : Nat := (l.elemsPerBlock + 1) * l.elemSize

namespace Block

structure Fits (l : Layout) (b : Block) : Prop where
  endElem : b.endElem = b.elems + (l.elemsPerBlock - 1) * l.elemSize
  words : b.allocMap.length = l.numlongs + 1
  freeElems : b.freeElems = (clearBits b.allocMap l.elemsPerBlock).card

def Apart (l : Layout) (b b' : Block) : Prop :=
  b.elems + l.blockSize ≤ b'.elems ∨ b'.elems + l.blockSize ≤ b.elems

def Covers (l : Layout) (b : Block) (p : Nat) : Prop := b.elems ≤ p ∧ p < b.elems + l.blockSize

def Holds (l : Layout) (b : Block) (p : Nat) : Prop :=
  ∃ i < l.elemsPerBlock, get b.allocMap i = true ∧ p = b.elems + i * l.elemSize

def take (b : Block) (i : Nat) : Block :=
  { b with allocMap := Bitmap.set b.allocMap i, freeElems := b.freeElems - 1 }

def put (b : Block) (i : Nat) : Block :=
  { b with allocMap := Bitmap.clear b.allocMap i, freeElems := b.freeElems + 1 }

variable {l : Layout} {b b' : Block} {i : Nat} {p : Nat}

theorem Apart.symm (h : Apart l b b') : Apart l b' b := Or.symm h

instance : Std.Symm (Apart l) := ⟨fun _ _ => Apart.symm⟩

theorem Apart.not_both (h : Apart l b b') (here : b.Covers l p) : ¬ b'.Covers l p := by
  intro there
  obtain ⟨low, high⟩ := here
  obtain ⟨low', high'⟩ := there
  cases h with
  | inl before => omega
  | inr after => omega

theorem covers_elem (proper : l.Proper) (inside : i < l.elemsPerBlock) (b : Block) :
    b.Covers l (b.elems + i * l.elemSize) := by
  have room : i * l.elemSize < l.blockSize := by
    apply Nat.mul_lt_mul_of_pos_right _ proper.elemSize
    omega
  unfold Covers
  omega

theorem Holds.covers (proper : l.Proper) (h : b.Holds l p) : b.Covers l p := by
  obtain ⟨i, inside, -, rfl⟩ := h
  exact covers_elem proper inside b

theorem elem_inj (proper : l.Proper) {j : Nat} :
    b.elems + i * l.elemSize = b.elems + j * l.elemSize ↔ i = j := by
  constructor
  · intro same
    exact Nat.eq_of_mul_eq_mul_right proper.elemSize (Nat.add_left_cancel same)
  · rintro rfl
    rfl

namespace Fits

variable (fits : b.Fits l) (proper : l.Proper) (inside : i < l.elemsPerBlock)
include fits proper inside

theorem word : i / longBits < b.allocMap.length := by
  have room := proper.numlongs
  rw [fits.words]
  simp only [longBits] at *
  omega

theorem take (free : get b.allocMap i = false) : (b.take i).Fits l where
  endElem := fits.endElem
  words := (length_set _ _).trans fits.words
  freeElems := by
    have counted := card_clearBits_set longBits_pos (fits.word proper inside) inside free
    have before := fits.freeElems
    show b.freeElems - 1 = ((clearBits (Bitmap.set b.allocMap i) l.elemsPerBlock).card : Int)
    omega

theorem put (used : get b.allocMap i = true) : (b.put i).Fits l where
  endElem := fits.endElem
  words := (length_clear _ _).trans fits.words
  freeElems := by
    have counted := card_clearBits_clear longBits_pos (fits.word proper inside) inside used
    have before := fits.freeElems
    show b.freeElems + 1 = ((clearBits (Bitmap.clear b.allocMap i) l.elemsPerBlock).card : Int)
    omega

theorem holds_take : (b.take i).Holds l p ↔ p = b.elems + i * l.elemSize ∨ b.Holds l p := by
  have bits := get_set longBits_pos (fits.word proper inside)
  constructor
  · rintro ⟨j, small, used, rfl⟩
    by_cases here : j = i
    · exact Or.inl (here ▸ rfl)
    · refine Or.inr ⟨j, small, ?_, rfl⟩
      rw [Block.take, bits] at used
      simpa [here] using used
  · rintro (rfl | ⟨j, small, used, rfl⟩)
    · exact ⟨i, inside, by simp [Block.take, bits], rfl⟩
    · exact ⟨j, small, by simp [Block.take, bits, used], rfl⟩

theorem holds_put : (b.put i).Holds l p ↔ p ≠ b.elems + i * l.elemSize ∧ b.Holds l p := by
  have bits := get_clear longBits_pos (fits.word proper inside)
  constructor
  · rintro ⟨j, small, used, rfl⟩
    rw [Block.put, bits, Bool.and_eq_true, Bool.not_eq_true', decide_eq_false_iff_not] at used
    exact ⟨fun same => used.1 ((elem_inj proper).1 same), j, small, used.2, rfl⟩
  · rintro ⟨other, j, small, used, rfl⟩
    refine ⟨j, small, ?_, rfl⟩
    have apart : j ≠ i := fun same => other (same ▸ rfl)
    simp [Block.put, bits, used, apart]

end Fits

end Block

namespace BlockHeap

open Block

structure Sound (bh : BlockHeap) : Prop where
  proper : bh.layout.Proper
  fits : ∀ b ∈ bh.base, b.Fits bh.layout
  apart : bh.base.Pairwise (Apart bh.layout)
  freeElems : bh.freeElems = (bh.base.map Block.freeElems).sum
  blocksAllocated : bh.blocksAllocated = bh.base.length

def Used (bh : BlockHeap) (p : Nat) : Prop := ∃ b ∈ bh.base, b.Holds bh.layout p

/-- What `get_block` promises: the region overlaps none in use. -/
def Granted (bh : BlockHeap) (elems : Nat) : Prop :=
  ∀ b ∈ bh.base, b.elems + bh.blockSize ≤ elems ∨ elems + bh.blockSize ≤ b.elems

def replace (bh : BlockHeap) (pre : List Block) (b : Block) (post : List Block) (d : Int) :
    BlockHeap :=
  { bh with freeElems := bh.freeElems + d, base := pre ++ b :: post }

variable {bh : BlockHeap} {pre post : List Block} {b b' : Block} {p : Nat}

theorem Sound.covers_eq (sound : bh.Sound) (inside : b ∈ bh.base) (inside' : b' ∈ bh.base)
    (here : b.Covers bh.layout p) (there : b'.Covers bh.layout p) : b = b' := by
  by_contra other
  have apart := sound.apart.forall inside inside' other
  exact apart.not_both here there

theorem Sound.replace (sound : bh.Sound) (split : bh.base = pre ++ b :: post)
    (fits : b'.Fits bh.layout) (elems : b'.elems = b.elems) {d : Int}
    (count : b'.freeElems = b.freeElems + d) : (bh.replace pre b' post d).Sound where
  proper := sound.proper
  fits x inside := by
    have old := sound.fits x
    rw [split] at old
    rcases List.mem_append.1 inside with before | later
    · exact old (List.mem_append_left _ before)
    · rcases List.mem_cons.1 later with rfl | after
      · exact fits
      · exact old (List.mem_append_right _ (List.mem_cons_of_mem _ after))
  apart := by
    have old := sound.apart
    rw [split, List.pairwise_append, List.pairwise_cons] at old
    obtain ⟨before, ⟨own, after⟩, cross⟩ := old
    -- the block is where it was, so it is as far from the others
    have same : ∀ x, Apart bh.layout b x → Apart bh.layout b' x := by
      intro x apart
      unfold Apart at apart ⊢
      rwa [elems]
    show (pre ++ b' :: post).Pairwise (Apart bh.layout)
    rw [List.pairwise_append, List.pairwise_cons]
    refine ⟨before, ⟨fun x inside => same x (own x inside), after⟩, fun x inside y there => ?_⟩
    rcases List.mem_cons.1 there with rfl | later
    · exact (same x (cross x inside b List.mem_cons_self).symm).symm
    · exact cross x inside y (List.mem_cons_of_mem _ later)
  freeElems := by
    have counted := sound.freeElems
    rw [split] at counted
    simp only [List.map_append, List.map_cons, List.sum_append, List.sum_cons] at counted
    show bh.freeElems + d = ((pre ++ b' :: post).map Block.freeElems).sum
    simp only [List.map_append, List.map_cons, List.sum_append, List.sum_cons]
    omega
  blocksAllocated := by
    have counted := sound.blocksAllocated
    rw [split] at counted
    simpa [BlockHeap.replace] using counted

theorem used_split (split : bh.base = pre ++ b :: post) :
    bh.Used p ↔ b.Holds bh.layout p ∨ ∃ x ∈ pre ++ post, x.Holds bh.layout p := by
  unfold Used
  rw [split]
  constructor
  · rintro ⟨x, inside, holds⟩
    rcases List.mem_append.1 inside with before | later
    · exact Or.inr ⟨x, List.mem_append_left _ before, holds⟩
    · rcases List.mem_cons.1 later with rfl | after
      · exact Or.inl holds
      · exact Or.inr ⟨x, List.mem_append_right _ after, holds⟩
  · rintro (holds | ⟨x, inside, holds⟩)
    · exact ⟨b, by simp, holds⟩
    · refine ⟨x, ?_, holds⟩
      rcases List.mem_append.1 inside with before | after
      · exact List.mem_append_left _ before
      · exact List.mem_append_right _ (List.mem_cons_of_mem _ after)

theorem Sound.not_elsewhere (sound : bh.Sound) (split : bh.base = pre ++ b :: post)
    (here : b.Covers bh.layout p) : ¬ ∃ x ∈ pre ++ post, x.Holds bh.layout p := by
  rintro ⟨x, inside, holds⟩
  have there := holds.covers sound.proper
  have apart : Apart bh.layout b x := by
    have all := sound.apart
    rw [split, List.pairwise_append, List.pairwise_cons] at all
    obtain ⟨-, ⟨own, -⟩, cross⟩ := all
    rcases List.mem_append.1 inside with before | after
    · exact (cross x before b List.mem_cons_self).symm
    · exact own x after
  exact apart.not_both here there

theorem Sound.used_apart (sound : bh.Sound) {q : Nat} (used : bh.Used p) (used' : bh.Used q)
    (other : p ≠ q) : p + bh.elemSize ≤ q ∨ q + bh.elemSize ≤ p := by
  obtain ⟨b, inside, i, small, -, rfl⟩ := used
  obtain ⟨b', inside', j, small', -, rfl⟩ := used'
  have within : ∀ (x : Block) {k : Nat}, k < bh.layout.elemsPerBlock →
      x.elems + k * bh.layout.elemSize + bh.elemSize ≤ x.elems + bh.layout.blockSize := by
    intro x k small
    have room : (k + 1) * bh.layout.elemSize ≤ bh.layout.blockSize :=
      Nat.mul_le_mul_right _ (by omega)
    rw [Nat.add_mul, Nat.one_mul] at room
    have same : bh.layout.elemSize = bh.elemSize := rfl
    omega
  by_cases same : b = b'
  · subst same
    have step : ∀ {k l : Nat}, k < l →
        b.elems + k * bh.layout.elemSize + bh.elemSize ≤ b.elems + l * bh.layout.elemSize := by
      intro k l before
      have room := Nat.mul_le_mul_right bh.layout.elemSize (Nat.succ_le_of_lt before)
      rw [Nat.succ_mul] at room
      have same : bh.layout.elemSize = bh.elemSize := rfl
      omega
    rcases Nat.lt_trichotomy i j with before | here | after
    · exact Or.inl (step before)
    · exact absurd (here ▸ rfl) other
    · exact Or.inr (step after)
  · have apart := sound.apart.forall inside inside' same
    have first := within b small
    have second := within b' small'
    unfold Apart at apart
    omega

theorem takeElem_spec (proper : bh.layout.Proper) (fits : b.Fits bh.layout) :
    (bh.takeElem b = none ∧ b.freeElems = 0) ∨
      ∃ i < bh.elemsPerBlock, get b.allocMap i = false ∧
        bh.takeElem b = some (b.take i, b.elems + i * bh.elemSize) := by
  unfold takeElem
  have counted := fits.freeElems
  by_cases some : b.freeElems > 0
  · right
    rw [if_pos some]
    obtain ⟨j, free⟩ : (clearBits b.allocMap bh.layout.elemsPerBlock).Nonempty := by
      rw [← Finset.card_pos]
      omega
    obtain ⟨small, clear⟩ := mem_clearBits.1 free
    -- a free element is counted, so the scan of the map meets a clear bit
    have scanned := @scanMap_spec bh.numlongs b.allocMap (longBits * bh.numlongs) 0 0 longBits_pos
      (by simp [Nat.mul_comm])
    rw [BitVec.shiftLeft_zero] at scanned
    cases found : scanMap bh.numlongs b.allocMap (longBits * bh.numlongs) 0 0
        (BitVec.ofNat longBits 1) with
    | none =>
      rw [found] at scanned
      have used := scanned j (by omega) (Nat.lt_of_lt_of_le small proper.numlongs)
      cases clear.symm.trans used
    | some result =>
      obtain ⟨unit, ctr, mask⟩ := result
      rw [found] at scanned
      obtain ⟨-, bit, rfl, first, before⟩ := scanned
      -- the first clear bit stands no later than that one
      have reached : ¬ j < unit * longBits + ctr := by
        intro earlier
        cases clear.symm.trans (before j (by omega) earlier)
      refine ⟨unit * longBits + ctr, by show _ < bh.layout.elemsPerBlock; omega, first, ?_⟩
      have word : (unit * longBits + ctr) / longBits = unit := by
        simp only [longBits] at *
        omega
      have rest : (unit * longBits + ctr) % longBits = ctr := by
        simp only [longBits] at *
        omega
      simp only [Option.map_some, Block.take, Bitmap.set, word, rest]
  · left
    refine ⟨if_neg some, ?_⟩
    omega

theorem takeFrom_spec (proper : bh.layout.Proper) {base : List Block}
    (fits : ∀ b ∈ base, b.Fits bh.layout) :
    (bh.takeFrom base = none ∧ ∀ b ∈ base, b.freeElems = 0) ∨
      ∃ pre b post, base = pre ++ b :: post ∧ ∃ i < bh.elemsPerBlock, get b.allocMap i = false ∧
        bh.takeFrom base = some (pre ++ b.take i :: post, b.elems + i * bh.elemSize) := by
  induction base with
  | nil => exact Or.inl ⟨rfl, fun b inside => by cases inside⟩
  | cons walker rest ih =>
    unfold takeFrom
    obtain ⟨none, zero⟩ | ⟨i, small, free, taken⟩ :=
      takeElem_spec proper (fits walker List.mem_cons_self)
    · rw [none]
      obtain ⟨nothing, zeros⟩ | ⟨pre, b, post, split, i, small, free, taken⟩ :=
        ih fun b inside => fits b (List.mem_cons_of_mem _ inside)
      · refine Or.inl ⟨by simp [nothing], fun b inside => ?_⟩
        rcases List.mem_cons.1 inside with rfl | later
        · exact zero
        · exact zeros b later
      · refine Or.inr ⟨walker :: pre, b, post, by simp [split], i, small, free, ?_⟩
        simp [taken]
    · exact Or.inr ⟨[], walker, rest, rfl, i, small, free, by simp [taken]⟩

theorem Sound.newblock (sound : bh.Sound) {elems : Nat} (granted : bh.Granted elems) :
    ({ bh with
        blocksAllocated := bh.blocksAllocated + 1
        freeElems := bh.freeElems + bh.elemsPerBlock
        base := bh.freshBlock elems :: bh.base } : BlockHeap).Sound where
  proper := sound.proper
  fits x inside := by
    rcases List.mem_cons.1 inside with rfl | old
    · refine ⟨rfl, List.length_replicate, ?_⟩
      show (bh.elemsPerBlock : Int) =
        ((clearBits (List.replicate (bh.numlongs + 1) (BitVec.ofNat longBits 0)) bh.elemsPerBlock).card : Int)
      rw [card_clearBits_replicate]
    · exact sound.fits x old
  apart := List.pairwise_cons.2 ⟨fun x inside => (granted x inside).symm, sound.apart⟩
  freeElems := by
    have counted := sound.freeElems
    show bh.freeElems + bh.elemsPerBlock =
      ((bh.freshBlock elems :: bh.base).map Block.freeElems).sum
    rw [List.map_cons, List.sum_cons, counted, Int.add_comm]
    rfl
  blocksAllocated := by
    have counted := sound.blocksAllocated
    show bh.blocksAllocated + 1 = ((bh.freshBlock elems :: bh.base).length : Int)
    rw [counted, List.length_cons]
    rfl

theorem Sound.replace_take (sound : bh.Sound) (split : bh.base = pre ++ b :: post) {i : Nat}
    (small : i < bh.elemsPerBlock) (free : get b.allocMap i = false) :
    (bh.replace pre (b.take i) post (-1)).Sound ∧ ¬ bh.Used (b.elems + i * bh.elemSize) ∧
      ∀ q, (bh.replace pre (b.take i) post (-1)).Used q ↔
        q = b.elems + i * bh.elemSize ∨ bh.Used q := by
  have fits : b.Fits bh.layout := sound.fits b (by rw [split]; simp)
  refine ⟨sound.replace split (fits.take sound.proper small free) rfl rfl, ?_, fun q => ?_⟩
  · rw [used_split split]
    rintro (⟨j, -, used, same⟩ | elsewhere)
    · rw [(elem_inj sound.proper).1 same, used] at free
      cases free
    · exact sound.not_elsewhere split (covers_elem sound.proper small b) elsewhere
  · have rest := @used_split (bh.replace pre (b.take i) post (-1)) pre post (b.take i) q rfl
    rw [rest, used_split split, ← or_assoc]
    exact or_congr (fits.holds_take sound.proper small) Iff.rfl

theorem takeFirst_eq (bh : BlockHeap) (walker : Block) (post : List Block) (longs : Nat)
    (base : bh.base = walker :: post)
    (zero : walker.allocMap = List.replicate (longs + 1) (BitVec.ofNat longBits 0)) :
    bh.takeFirst = (bh.replace [] (walker.take 0) post (-1), some walker.elems) := by
  have first : walker.allocMap.set 0 (BitVec.ofNat longBits 1) = Bitmap.set walker.allocMap 0 := by
    simp [zero, Bitmap.set, List.replicate_succ]
  unfold takeFirst
  rw [base]
  simp only [first]
  rfl

/-- What `BlockHeapAlloc` does: nothing where all is in use and no block can be had, and
otherwise it takes an element that was not in use. -/
theorem alloc_spec (sound : bh.Sound) {got : Option Nat}
    (granted : ∀ elems, got = some elems → bh.Granted elems) :
    (bh.alloc got = (bh, none) ∧ got = none ∧ bh.freeElems = 0) ∨
      ∃ bh' p, bh.alloc got = (bh', some p) ∧ bh'.Sound ∧ bh'.layout = bh.layout ∧ ¬ bh.Used p ∧
        ∀ q, bh'.Used q ↔ q = p ∨ bh.Used q := by
  unfold alloc
  by_cases full : bh.freeElems = 0
  · rw [if_pos full]
    cases got with
    | none => exact Or.inl ⟨rfl, rfl, full⟩
    | some elems =>
      right
      -- a new block comes to the front, and its first element is taken at once
      have fresh := granted elems rfl
      have made := sound.newblock fresh
      set bh' : BlockHeap := { bh with
        blocksAllocated := bh.blocksAllocated + 1
        freeElems := bh.freeElems + bh.elemsPerBlock
        base := bh.freshBlock elems :: bh.base } with grown
      have clear : get (bh.freshBlock elems).allocMap 0 = false := get_replicate _ _
      obtain ⟨sound', unused, used⟩ :=
        @Sound.replace_take bh' [] bh.base (bh.freshBlock elems) made rfl 0
          sound.proper.elemsPerBlock clear
      have nothing : ∀ q, ¬ (bh.freshBlock elems).Holds bh.layout q := by
        rintro q ⟨i, -, held, -⟩
        cases (get_replicate _ i).symm.trans held
      have same : ∀ q, bh'.Used q ↔ bh.Used q := by
        intro q
        have rest := @used_split bh' [] bh.base (bh.freshBlock elems) q rfl
        rw [rest]
        constructor
        · rintro (holds | ⟨x, inside, holds⟩)
          · exact absurd holds (nothing q)
          · exact ⟨x, inside, holds⟩
        · rintro ⟨x, inside, holds⟩
          exact Or.inr ⟨x, inside, holds⟩
      have first : (bh.freshBlock elems).elems + 0 * bh'.elemSize = elems := by
        rw [Nat.zero_mul]
        rfl
      rw [first] at unused used
      refine ⟨_, elems, takeFirst_eq bh' _ bh.base bh.numlongs rfl rfl, sound', rfl, ?_, ?_⟩
      · rwa [← same]
      · intro q
        rw [used, same]
  · rw [if_neg full]
    -- some block has an element, as their number says
    obtain ⟨none, zero⟩ | ⟨pre, b, post, split, i, small, free, taken⟩ :=
      takeFrom_spec sound.proper sound.fits
    · apply absurd _ full
      rw [sound.freeElems]
      apply List.sum_eq_zero
      intro n inside
      obtain ⟨b, there, rfl⟩ := List.mem_map.1 inside
      exact zero b there
    · right
      obtain ⟨sound', unused, used⟩ := sound.replace_take split small free
      exact ⟨_, _, by rw [taken]; rfl, sound', rfl, unused, used⟩

theorem putElem_spec (proper : bh.layout.Proper) {i : Nat}
    (used : get b.allocMap i = true) :
    bh.putElem b (b.elems + i * bh.elemSize) = (b.put i, 1) := by
  have index : (b.elems + i * bh.elemSize - b.elems) / bh.elemSize = i := by
    rw [Nat.add_sub_cancel_left]
    exact Nat.mul_div_cancel i proper.elemSize
  have set : ¬ b.allocMap.getD (i / longBits) (BitVec.ofNat longBits 0) &&&
      BitVec.ofNat longBits 1 <<< (i % longBits) = BitVec.ofNat longBits 0 := by
    rw [BitVec.and_comm, one_shift_and_eq_zero _ (Nat.mod_lt i longBits_pos)]
    exact fun clear => Bool.false_ne_true (clear.symm.trans used)
  simp only [putElem, index, if_neg set]
  rfl

theorem covers_of_bounds (proper : bh.layout.Proper) (fits : b.Fits bh.layout)
    (bounds : p ≥ b.elems ∧ p ≤ b.endElem) : b.Covers bh.layout p := by
  have last := covers_elem proper
    (Nat.sub_lt proper.elemsPerBlock Nat.one_pos : bh.layout.elemsPerBlock - 1 < _) b
  obtain ⟨low, high⟩ := bounds
  rw [fits.endElem] at high
  exact ⟨low, Nat.lt_of_le_of_lt high last.2⟩

theorem bounds_of_holds (fits : b.Fits bh.layout)
    (holds : b.Holds bh.layout p) : p ≥ b.elems ∧ p ≤ b.endElem := by
  obtain ⟨i, small, -, rfl⟩ := holds
  have room : i * bh.layout.elemSize ≤ (bh.layout.elemsPerBlock - 1) * bh.layout.elemSize :=
    Nat.mul_le_mul_right _ (Nat.le_sub_one_of_lt small)
  rw [fits.endElem]
  omega

theorem putBack_spec (proper : bh.layout.Proper) {base : List Block}
    (fits : ∀ b ∈ base, b.Fits bh.layout)
    (own : ∀ b ∈ base, b.Covers bh.layout p → b.Holds bh.layout p)
    (held : ∃ b ∈ base, b.Holds bh.layout p) :
    ∃ pre b post, base = pre ++ b :: post ∧ ∃ i < bh.elemsPerBlock, get b.allocMap i = true ∧
      p = b.elems + i * bh.elemSize ∧ bh.putBack p base = some (pre ++ b.put i :: post, 1) := by
  induction base with
  | nil =>
    obtain ⟨b, absurdity, -⟩ := held
    cases absurdity
  | cons walker rest ih =>
    unfold putBack
    split
    · next bounds =>
      have fitting := fits walker List.mem_cons_self
      obtain ⟨i, small, used, rfl⟩ :=
        own walker List.mem_cons_self (covers_of_bounds proper fitting bounds)
      have put : bh.putElem walker (walker.elems + i * bh.layout.elemSize) = (walker.put i, 1) :=
        putElem_spec proper used
      exact ⟨[], walker, rest, rfl, i, small, used, rfl, by simp [put]⟩
    · next outside =>
      have later : ∃ b ∈ rest, b.Holds bh.layout p := by
        obtain ⟨b, inside, holds⟩ := held
        rcases List.mem_cons.1 inside with rfl | later
        · exact absurd (bounds_of_holds (fits b inside) holds) outside
        · exact ⟨b, later, holds⟩
      obtain ⟨pre, b, post, split, i, small, used, address, put⟩ :=
        ih (fun b inside => fits b (List.mem_cons_of_mem _ inside))
          (fun b inside => own b (List.mem_cons_of_mem _ inside)) later
      exact ⟨walker :: pre, b, post, by simp [split], i, small, used, address, by simp [put]⟩

theorem free_spec (sound : bh.Sound) (used : bh.Used p) :
    ∃ bh', bh.free p = (bh', 0) ∧ bh'.Sound ∧ bh'.layout = bh.layout ∧
      ∀ q, bh'.Used q ↔ q ≠ p ∧ bh.Used q := by
  have own : ∀ b ∈ bh.base, b.Covers bh.layout p → b.Holds bh.layout p := by
    intro b inside here
    obtain ⟨x, there, holds⟩ := used
    rwa [sound.covers_eq inside there here (holds.covers sound.proper)]
  obtain ⟨pre, b, post, split, i, small, set, rfl, put⟩ :=
    putBack_spec sound.proper sound.fits own used
  have fits : b.Fits bh.layout := sound.fits b (by rw [split]; simp)
  have done : bh.free (b.elems + i * bh.elemSize) = (bh.replace pre (b.put i) post 1, 0) := by
    unfold free
    rw [put]
    rfl
  refine ⟨_, done, sound.replace split (fits.put sound.proper small set) rfl rfl, rfl, fun q => ?_⟩
  have rest := @used_split (bh.replace pre (b.put i) post 1) pre post (b.put i) q rfl
  rw [rest, used_split split]
  have here := @Fits.holds_put bh.layout b i q fits sound.proper small
  constructor
  · rintro (holds | elsewhere)
    · obtain ⟨other, holds⟩ := here.1 holds
      exact ⟨other, Or.inl holds⟩
    · refine ⟨?_, Or.inr elsewhere⟩
      rintro rfl
      exact sound.not_elsewhere split (covers_elem sound.proper small b) elsewhere
  · rintro ⟨other, holds | elsewhere⟩
    · exact Or.inl (here.2 ⟨other, holds⟩)
    · exact Or.inr elsewhere

theorem not_set_of_isFree (proper : bh.layout.Proper) (free : bh.isFree b = true) {i : Nat}
    (small : i < bh.elemsPerBlock) : get b.allocMap i = false := by
  apply get_of_zero
  have word : i / longBits < bh.numlongs := by
    have room : bh.elemsPerBlock ≤ bh.numlongs * longBits := proper.numlongs
    simp only [longBits] at *
    omega
  have zero := List.all_eq_true.1 free (i / longBits) (List.mem_range.2 word)
  simpa using zero

theorem sweep_eq (bh : BlockHeap) (base : List Block) :
    bh.sweep base =
      ({ bh with
          blocksAllocated := bh.blocksAllocated - (base.filter bh.isFree).length
          freeElems := bh.freeElems - (base.filter bh.isFree).length * bh.elemsPerBlock
          base := base.filter fun b => !bh.isFree b },
        base.filter bh.isFree) := by
  induction base with
  | nil => simp [sweep]
  | cons walker rest ih =>
    unfold sweep
    rw [ih]
    simp only
    have same : BlockHeap.isFree { bh with
        blocksAllocated := bh.blocksAllocated - (rest.filter bh.isFree).length
        freeElems := bh.freeElems - (rest.filter bh.isFree).length * bh.elemsPerBlock
        base := rest.filter fun b => !bh.isFree b } walker = bh.isFree walker := rfl
    rw [same]
    cases free : bh.isFree walker with
    | true =>
      simp only [if_true, List.filter_cons, free, Bool.not_true, Bool.false_eq_true, if_false,
        List.length_cons, Int.natCast_add, Int.natCast_one, Int.add_mul, Int.one_mul]
      simp only [Int.sub_sub]
    | false => simp [free]

theorem sum_filter (f : Block → Int) (keep : Block → Bool) (base : List Block) :
    (base.map f).sum =
      ((base.filter fun b => !keep b).map f).sum + ((base.filter keep).map f).sum := by
  induction base with
  | nil => rfl
  | cons b rest ih =>
    cases here : keep b with
    | true => simp [here, ih]; omega
    | false => simp [here, ih]; omega

theorem garbageCollect_spec (sound : bh.Sound) :
    bh.garbageCollect.1.Sound ∧ bh.garbageCollect.1.layout = bh.layout ∧
      (∀ q, bh.garbageCollect.1.Used q ↔ bh.Used q) ∧
      ∀ b ∈ bh.garbageCollect.2, b ∈ bh.base ∧ ∀ q, ¬ b.Holds bh.layout q := by
  -- only blocks with every element free are given back
  have nothing : ∀ b, bh.isFree b = true → ∀ q, ¬ b.Holds bh.layout q := by
    rintro b free q ⟨i, small, used, -⟩
    cases (not_set_of_isFree sound.proper free small).symm.trans used
  unfold garbageCollect
  split
  · exact ⟨sound, rfl, fun _ => Iff.rfl, fun b absurdity => by cases absurdity⟩
  rw [sweep_eq]
  refine ⟨⟨sound.proper, ?_, ?_, ?_, ?_⟩, rfl, fun q => ?_, fun b inside => ?_⟩
  · exact fun b inside => sound.fits b (List.mem_of_mem_filter inside)
  · exact sound.apart.filter _
  · have counted := sound.freeElems
    have whole : ((bh.base.filter bh.isFree).map Block.freeElems).sum =
        (bh.base.filter bh.isFree).length * bh.elemsPerBlock := by
      have each : ∀ b ∈ bh.base.filter bh.isFree, b.freeElems = bh.elemsPerBlock := by
        intro b inside
        obtain ⟨there, free⟩ := List.mem_filter.1 inside
        have all : clearBits b.allocMap bh.elemsPerBlock = Finset.range bh.elemsPerBlock := by
          ext i
          rw [mem_clearBits, Finset.mem_range]
          exact ⟨And.left, fun small => ⟨small, not_set_of_isFree sound.proper free small⟩⟩
        have count := (sound.fits b there).freeElems
        have size : (clearBits b.allocMap bh.layout.elemsPerBlock).card = bh.elemsPerBlock := by
          show (clearBits b.allocMap bh.elemsPerBlock).card = _
          rw [all, Finset.card_range]
        rw [count, size]
      have constant : (bh.base.filter bh.isFree).map Block.freeElems =
          List.replicate (bh.base.filter bh.isFree).length (bh.elemsPerBlock : Int) := by
        rw [List.eq_replicate_iff]
        refine ⟨List.length_map _, fun n inside => ?_⟩
        obtain ⟨b, there, rfl⟩ := List.mem_map.1 inside
        exact each b there
      rw [constant, List.sum_replicate, nsmul_eq_mul]
    rw [sum_filter Block.freeElems bh.isFree, whole] at counted
    show bh.freeElems - (bh.base.filter bh.isFree).length * bh.elemsPerBlock = _
    rw [counted]
    exact Int.add_sub_cancel _ _
  · have counted := sound.blocksAllocated
    have parts := bh.base.length_eq_length_filter_add bh.isFree
    show bh.blocksAllocated - (bh.base.filter bh.isFree).length =
      ((bh.base.filter fun b => !bh.isFree b).length : Int)
    omega
  · constructor
    · rintro ⟨b, inside, holds⟩
      exact ⟨b, List.mem_of_mem_filter inside, holds⟩
    · rintro ⟨b, inside, holds⟩
      refine ⟨b, List.mem_filter.2 ⟨inside, ?_⟩, holds⟩
      have busy : bh.isFree b ≠ true := fun free => nothing b free q holds
      simpa using busy
  · obtain ⟨there, free⟩ := List.mem_filter.1 inside
    exact ⟨there, nothing b free⟩

theorem sound_create {elemsize elemsperblock : Nat} {got : Option Nat}
    (made : create elemsize elemsperblock got = some bh) : bh.Sound ∧ ∀ q, ¬ bh.Used q := by
  unfold create at made
  split at made
  · cases made
  next sizes =>
  set empty : BlockHeap :=
    { elemSize := elemsize + elemsize % 8
      elemsPerBlock := elemsperblock
      numlongs := elemsperblock / longBits + 1 - if elemsperblock % longBits = 0 then 1 else 0
      blocksAllocated := 0
      freeElems := 0
      base := [] } with start
  obtain ⟨elems, -, rfl⟩ := Option.map_eq_some_iff.1 made
  have sound : empty.Sound := by
    refine ⟨⟨?_, ?_, ?_⟩, ?_, List.Pairwise.nil, rfl, rfl⟩
    · show 0 < elemsize + elemsize % 8
      omega
    · show 0 < elemsperblock
      omega
    · show elemsperblock ≤
        (elemsperblock / longBits + 1 - if elemsperblock % longBits = 0 then 1 else 0) * longBits
      by_cases whole : elemsperblock % longBits = 0
      · rw [if_pos whole]
        simp only [longBits] at *
        omega
      · rw [if_neg whole]
        simp only [longBits] at *
        omega
    · intro b absurdity
      cases absurdity
  have granted : empty.Granted elems := fun b absurdity => by cases absurdity
  refine ⟨sound.newblock granted, ?_⟩
  rintro q ⟨b, inside, i, -, used, -⟩
  rw [List.mem_singleton.1 inside] at used
  cases (get_replicate _ i).symm.trans used

end BlockHeap

/-- A call that comes: what `get_block` would return is free, and what is freed is held. -/
def HeapEvent.Comes (s : HeapState) : HeapEvent → Prop
  | .alloc got => ∀ elems, got = some elems → s.heap.Granted elems
  | .free ptr => ptr ∈ s.held
  | .garbageCollect => True

namespace HeapState

open BlockHeap

structure Sound (s : HeapState) : Prop where
  heap : s.heap.Sound
  held : ∀ p, p ∈ s.held ↔ s.heap.Used p
  nodup : s.held.Nodup

variable {s : HeapState}

theorem Sound.event (sound : s.Sound) {e : HeapEvent} (comes : e.Comes s) :
    (s.event e).Sound := by
  cases e with
  | alloc got =>
    obtain ⟨result, -, -⟩ | ⟨bh', p, result, sound', -, unused, used⟩ :=
      alloc_spec sound.heap comes
    · simp only [HeapState.event, result, Option.toList_none, List.nil_append]
      exact sound
    · simp only [HeapState.event, result, Option.toList_some, List.singleton_append]
      refine ⟨sound', fun q => ?_, List.nodup_cons.2 ⟨?_, sound.nodup⟩⟩
      · rw [List.mem_cons, used, sound.held]
      · rwa [sound.held]
  | free ptr =>
    obtain ⟨bh', result, sound', -, used⟩ := free_spec sound.heap ((sound.held ptr).1 comes)
    simp only [HeapState.event, result]
    refine ⟨sound', fun q => ?_, sound.nodup.erase ptr⟩
    rw [sound.nodup.mem_erase_iff, used, sound.held]
  | garbageCollect =>
    obtain ⟨sound', -, used, -⟩ := garbageCollect_spec sound.heap
    exact ⟨sound', fun q => (sound.held q).trans (used q).symm, sound.nodup⟩

structure Safe (s : HeapState) : Prop where
  new : ∀ got, HeapEvent.Comes s (.alloc got) → ∀ p, (s.heap.alloc got).2 = some p →
    p ∉ s.held ∧ ∀ q ∈ s.held, p + s.heap.elemSize ≤ q ∨ q + s.heap.elemSize ≤ p
  freeElems : s.heap.freeElems =
    (s.heap.base.map fun b => ((clearBits b.allocMap s.heap.elemsPerBlock).card : Int)).sum
  given : ∀ got, HeapEvent.Comes s (.alloc got) →
    (got ≠ none ∨ ∃ b ∈ s.heap.base, ∃ i < s.heap.elemsPerBlock, get b.allocMap i = false) →
      (s.heap.alloc got).2 ≠ none
  released : ∀ b ∈ s.heap.garbageCollect.2, ∀ p ∈ s.held,
    ¬ (b.elems ≤ p ∧ p < b.elems + s.heap.blockSize)

theorem Sound.safe (sound : s.Sound) : s.Safe where
  new got comes p result := by
    obtain ⟨none, -, -⟩ | ⟨bh', p', some, sound', layout, unused, used⟩ :=
      alloc_spec sound.heap comes
    · rw [none] at result
      cases result
    · rw [some] at result
      cases result
      refine ⟨fun held => unused ((sound.held p).1 held), fun q held => ?_⟩
      have other : p ≠ q := by
        rintro rfl
        exact unused ((sound.held p).1 held)
      -- two used elements of one heap lie apart
      have apart := sound'.used_apart ((used p).2 (Or.inl rfl))
        ((used q).2 (Or.inr ((sound.held q).1 held))) other
      rwa [show bh'.elemSize = s.heap.elemSize from congrArg Layout.elemSize layout] at apart
  freeElems := by
    rw [sound.heap.freeElems]
    exact congrArg List.sum (List.map_congr_left fun b inside => (sound.heap.fits b inside).freeElems)
  given got comes some none := by
    obtain ⟨-, refused, full⟩ | ⟨bh', p, given, -⟩ := alloc_spec sound.heap comes
    · obtain got | ⟨b, inside, i, small, free⟩ := some
      · exact got refused
      · have fits := sound.heap.fits b inside
        have positive : 0 < (clearBits b.allocMap s.heap.layout.elemsPerBlock).card :=
          Finset.card_pos.2 ⟨i, mem_clearBits.2 ⟨small, free⟩⟩
        have counted := sound.heap.freeElems
        have nonneg : ∀ n ∈ s.heap.base.map Block.freeElems, 0 ≤ n := by
          intro n there
          obtain ⟨x, listed, rfl⟩ := List.mem_map.1 there
          rw [(sound.heap.fits x listed).freeElems]
          exact Int.natCast_nonneg _
        -- a block with room adds to the count, and the heap is full only at none
        have bound := List.single_le_sum nonneg b.freeElems (List.mem_map_of_mem inside)
        have count := fits.freeElems
        omega
    · rw [given] at none
      cases none
  released b inside p held := by
    obtain ⟨-, -, -, idle⟩ := garbageCollect_spec sound.heap
    obtain ⟨there, nothing⟩ := idle b inside
    rintro covers
    obtain ⟨x, inside', holds⟩ := (sound.held p).1 held
    -- the element given out lies in a block with elements in use, which is kept
    have same := sound.heap.covers_eq there inside' covers (holds.covers sound.heap.proper)
    exact nothing p (same ▸ holds)

theorem safe_of_run {elemsize elemsperblock : Nat} {got : Option Nat} {heap : BlockHeap}
    (made : BlockHeap.create elemsize elemsperblock got = some heap) {es : List HeapEvent}
    (comes : machine.Meets (fun s e => e.Comes s) ⟨heap, []⟩ es) :
    ∀ pre, pre <+: es → (machine.run ⟨heap, []⟩ pre).Safe := by
  obtain ⟨sound, unused⟩ := BlockHeap.sound_create made
  intro pre inside
  have start : Sound ⟨heap, []⟩ := by
    refine ⟨sound, fun p => iff_of_false ?_ (unused p), List.nodup_nil⟩
    intro absurdity
    cases absurdity
  exact (comes.always (fun _ _ sound comes => sound.event comes) start inside).safe

/-! Two elements fill the first block and a third is in a second one, which is released once
its element is free. -/

def pairHeap : BlockHeap where
  elemSize := 8
  elemsPerBlock := 2
  numlongs := 1
  blocksAllocated := 1
  freeElems := 2
  base := [{ elems := 1000, endElem := 1008, freeElems := 2, allocMap := [0#64, 0#64] }]

def pairRun : List HeapEvent :=
  [.alloc none, .alloc none, .alloc (some 2000), .free 1000, .free 2000, .garbageCollect,
    .alloc none]

theorem pairHeap_safe : (machine.run ⟨pairHeap, []⟩ pairRun).Safe := by
  have idle : ∀ s, HeapEvent.Comes s (.alloc none) := fun _ _ absurdity => by cases absurdity
  refine @safe_of_run 8 2 (some 1000) pairHeap (by decide) pairRun ⟨idle _, idle _, ?_, ?_, ?_,
    trivial, idle _, trivial⟩ pairRun (List.prefix_refl _)
  · rintro elems ⟨⟩
    unfold BlockHeap.Granted
    decide
  · unfold HeapEvent.Comes
    decide
  · unfold HeapEvent.Comes
    decide

end HeapState

end Ircd
