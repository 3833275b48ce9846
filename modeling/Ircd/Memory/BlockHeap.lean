import Ircd.Lib.Bitmap
import Ircd.Lib.Machine
import Mathlib.Algebra.BigOperators.Group.List.Basic
import Mathlib.Data.List.Pairwise
import Mathlib.Tactic.Ring

/-! `blalloc.c`: heaps of elements of one size, cut out of larger blocks.

`get_block` is the system's: what it returns comes with the call, a null pointer or the
address of a region that overlaps none in use.
-/

set_option autoImplicit false

namespace Ircd

def longBits : Nat := 64

structure Block where
  elems : Nat
  endElem : Nat
  freeElems : Int
  allocMap : List (BitVec longBits)
  deriving DecidableEq, Repr

structure BlockHeap where
  elemSize : Nat
  elemsPerBlock : Nat
  numlongs : Nat
  blocksAllocated : Int
  freeElems : Int
  base : List Block
  deriving DecidableEq, Repr

namespace BlockHeap

def blockSize (bh : BlockHeap) : Nat := (bh.elemsPerBlock + 1) * bh.elemSize

/-- The head of the list that `newblock` links in. -/
def freshBlock (bh : BlockHeap) (elems : Nat) : Block where
  elems := elems
  endElem := elems + (bh.elemsPerBlock - 1) * bh.elemSize
  freeElems := bh.elemsPerBlock
  allocMap := List.replicate (bh.numlongs + 1) (BitVec.ofNat longBits 0)

def newblock (bh : BlockHeap) (got : Option Nat) : Option BlockHeap :=
  got.map fun elems =>
    { bh with
      blocksAllocated := bh.blocksAllocated + 1
      freeElems := bh.freeElems + bh.elemsPerBlock
      base := bh.freshBlock elems :: bh.base }

/-- `BlockHeapCreate`, which gives the program up where it cannot make a heap. -/
def create (elemsize elemsperblock : Nat) (got : Option Nat) : Option BlockHeap :=
  if elemsize = 0 ∨ elemsperblock = 0 then none
  else
    newblock
      { elemSize := elemsize + elemsize % 8
        elemsPerBlock := elemsperblock
        numlongs := elemsperblock / longBits + 1 - if elemsperblock % longBits = 0 then 1 else 0
        blocksAllocated := 0
        freeElems := 0
        base := [] } got

/-- The loop over `unit`, `ctr` and `mask`: the bit at which it stops. -/
def scanMap (numlongs : Nat) (allocMap : List (BitVec longBits)) :
    Nat → Nat → Nat → BitVec longBits → Option (Nat × Nat × BitVec longBits)
  | 0, _, _, _ => none
  | fuel + 1, unit, ctr, mask =>
    if unit < numlongs then
      let word := allocMap.getD unit (BitVec.ofNat longBits 0)
      if mask = BitVec.ofNat longBits 1 ∧ word = BitVec.allOnes longBits then
        scanMap numlongs allocMap fuel (unit + 1) 0 mask
      else if mask &&& word = BitVec.ofNat longBits 0 then some (unit, ctr, mask)
      else if mask <<< 1 = BitVec.ofNat longBits 0 then
        scanMap numlongs allocMap fuel (unit + 1) 0 (BitVec.ofNat longBits 1)
      else scanMap numlongs allocMap fuel unit (ctr + 1) (mask <<< 1)
    else none

/-- The element that a block has free. Each turn of the loop goes on by a bit at least. -/
def takeElem (bh : BlockHeap) (walker : Block) : Option (Block × Nat) :=
  if walker.freeElems > 0 then
    (scanMap bh.numlongs walker.allocMap (longBits * bh.numlongs) 0 0 (BitVec.ofNat longBits 1)).map
      fun (unit, ctr, mask) =>
        ({ walker with
            allocMap := walker.allocMap.modify unit fun word => word ||| mask
            freeElems := walker.freeElems - 1 },
          walker.elems + (unit * longBits + ctr) * bh.elemSize)
  else none

def takeFrom (bh : BlockHeap) : List Block → Option (List Block × Nat)
  | [] => none
  | walker :: rest =>
    match bh.takeElem walker with
    | some (taken, ptr) => some (taken :: rest, ptr)
    | none => (bh.takeFrom rest).map fun (rest, ptr) => (walker :: rest, ptr)

def takeFirst (bh : BlockHeap) : BlockHeap × Option Nat :=
  match bh.base with
  | [] => (bh, none)
  | walker :: rest =>
    ({ bh with
        freeElems := bh.freeElems - 1
        base := { walker with
          allocMap := walker.allocMap.set 0 (BitVec.ofNat longBits 1)
          freeElems := walker.freeElems - 1 } :: rest },
      some walker.elems)

def alloc (bh : BlockHeap) (got : Option Nat) : BlockHeap × Option Nat :=
  if bh.freeElems = 0 then
    match bh.newblock got with
    | none => (bh, none)
    | some bh => bh.takeFirst
  else
    match bh.takeFrom bh.base with
    | none => (bh, none)
    | some (base, ptr) => ({ bh with freeElems := bh.freeElems - 1, base := base }, some ptr)

/-- What becomes of the block that the element is in, and how many elements are freed. -/
def putElem (bh : BlockHeap) (walker : Block) (ptr : Nat) : Block × Int :=
  let ctr := (ptr - walker.elems) / bh.elemSize
  let bitmask := BitVec.ofNat longBits 1 <<< (ctr % longBits)
  if walker.allocMap.getD (ctr / longBits) (BitVec.ofNat longBits 0) &&& bitmask =
      BitVec.ofNat longBits 0 then (walker, 0)
  else
    ({ walker with
        allocMap := walker.allocMap.modify (ctr / longBits) fun word => word &&& ~~~bitmask
        freeElems := walker.freeElems + 1 }, 1)

def putBack (bh : BlockHeap) (ptr : Nat) : List Block → Option (List Block × Int)
  | [] => none
  | walker :: rest =>
    if ptr ≥ walker.elems ∧ ptr ≤ walker.endElem then
      let (walker, freed) := bh.putElem walker ptr
      some (walker :: rest, freed)
    else (bh.putBack ptr rest).map fun (rest, freed) => (walker :: rest, freed)

/-- `BlockHeapFree`; it returns 1 for an element of no block. -/
def free (bh : BlockHeap) (ptr : Nat) : BlockHeap × Nat :=
  match bh.putBack ptr bh.base with
  | none => (bh, 1)
  | some (base, freed) => ({ bh with freeElems := bh.freeElems + freed, base := base }, 0)

def isFree (bh : BlockHeap) (walker : Block) : Bool :=
  (List.range bh.numlongs).all fun i =>
    walker.allocMap.getD i (BitVec.ofNat longBits 0) == BitVec.ofNat longBits 0

def sweep (bh : BlockHeap) : List Block → BlockHeap × List Block
  | [] => ({ bh with base := [] }, [])
  | walker :: rest =>
    let (bh, released) := bh.sweep rest
    if bh.isFree walker then
      ({ bh with
          blocksAllocated := bh.blocksAllocated - 1
          freeElems := bh.freeElems - bh.elemsPerBlock }, walker :: released)
    else ({ bh with base := walker :: bh.base }, released)

def garbageCollect (bh : BlockHeap) : BlockHeap × List Block :=
  if bh.freeElems < bh.elemsPerBlock then (bh, []) else bh.sweep bh.base

end BlockHeap

structure HeapState where
  heap : BlockHeap
  held : List Nat

inductive HeapEvent where
  | alloc (got : Option Nat)
  | free (ptr : Nat)
  | garbageCollect
  deriving DecidableEq, Repr

namespace HeapState

def event (s : HeapState) : HeapEvent → HeapState
  | .alloc got =>
    let (heap, ptr) := s.heap.alloc got
    { heap := heap, held := ptr.toList ++ s.held }
  | .free ptr => { heap := (s.heap.free ptr).1, held := s.held.erase ptr }
  | .garbageCollect => { s with heap := s.heap.garbageCollect.1 }

def machine : Machine HeapState HeapEvent := { step := event }

end HeapState

end Ircd
