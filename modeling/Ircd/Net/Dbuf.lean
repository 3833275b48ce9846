import Ircd.Lib.Chain
import Ircd.Lib.Machine
import Ircd.Text.CString
import Mathlib.Data.List.TakeDrop
import Mathlib.Data.List.Perm.Subperm

/-! `dbuf.c`: a byte queue in linked blocks.

`Stored` ties the blocks, the free list and the pointers of a `struct DBuf` to the bytes
that it holds; each operation keeps it, at every block boundary.
-/

set_option autoImplicit false

namespace Ircd

open Chain

def dbufSize : Nat := 1024

def bufsize : Nat := 512

abbrev BlockId := Nat

structure DBufBuffer where
  next : Option BlockId
  start : Nat
  data : CStr
  deriving DecidableEq, Repr

def DBufBuffer.live (b : DBufBuffer) : CStr := b.data.drop b.start

structure DBuf where
  head : Option BlockId
  tail : Option BlockId
  length : Nat
  deriving DecidableEq, Repr

/-- One `struct DBuf` and the blocks that it and the others draw on; `nextBlock` is the
block that `malloc` gives out next. -/
structure DbufMemory where
  block : BlockId → DBufBuffer
  freeList : List BlockId
  nextBlock : BlockId
  usedCount : Nat
  dyn : DBuf

def isEol (c : Char) : Bool := c == '\r' || c == '\n'

namespace DbufMemory

def nextOf (m : DbufMemory) (b : BlockId) : Option BlockId := (m.block b).next

def setBlock (m : DbufMemory) (d : BlockId) (b : DBufBuffer) : DbufMemory :=
  { m with block := Function.update m.block d b }

def dbufUsualMaxCount : Nat := 15000000 * 4 / dbufSize

def freshBlock : DBufBuffer := { next := none, start := 0, data := [] }

def dbufAlloc (m : DbufMemory) : DbufMemory × BlockId :=
  let m := { m with usedCount := m.usedCount + 1 }
  match m.freeList with
  | db :: rest => ({ m with freeList := rest }.setBlock db freshBlock, db)
  | [] => ({ m with nextBlock := m.nextBlock + 1 }.setBlock m.nextBlock freshBlock, m.nextBlock)

def dbufFree (m : DbufMemory) (ptr : BlockId) : DbufMemory :=
  let m := if m.usedCount > dbufUsualMaxCount then m
    else { m with freeList := ptr :: m.freeList }
  { m with usedCount := m.usedCount - 1 }

/-- The places that `h` points to in `dbuf_put`. -/
inductive Slot where
  | head
  | tail
  | next (d : BlockId)
  deriving DecidableEq, Repr

def slot (m : DbufMemory) : Slot → Option BlockId
  | .head => m.dyn.head
  | .tail => m.dyn.tail
  | .next d => m.nextOf d

def setSlot (m : DbufMemory) (h : Slot) (d : BlockId) : DbufMemory :=
  match h with
  | .head => { m with dyn := { m.dyn with head := some d } }
  | .tail => { m with dyn := { m.dyn with tail := some d } }
  | .next e => m.setBlock e { m.block e with next := some d }

/-- `*h`, which is a new block where there was none. -/
def deref (m : DbufMemory) (h : Slot) : DbufMemory × BlockId :=
  match m.slot h with
  | some d => (m, d)
  | none =>
    let (m, d) := m.dbufAlloc
    ({ m with dyn := { m.dyn with tail := some d } }.setSlot h d, d)

/-- Room for how much of `length` is left in a block. -/
def chunkOf (b : DBufBuffer) (length : Nat) : Nat := min (dbufSize - b.data.length) length

def fill (m : DbufMemory) (d : BlockId) (buf : CStr) : DbufMemory :=
  let b := m.block d
  m.setBlock d { b with data := b.data ++ buf.take (chunkOf b buf.length) }

/-- The loop of `dbuf_put`; each turn but the first takes at least one byte. -/
def putLoop : Nat → Slot → CStr → DbufMemory → DbufMemory
  | 0, _, _, m => m
  | fuel + 1, h, buf, m =>
    if buf = [] then m
    else
      let (m, d) := m.deref h
      putLoop fuel (.next d) (buf.drop (chunkOf (m.block d) buf.length)) (m.fill d buf)

def setLength (m : DbufMemory) (length : Nat) : DbufMemory :=
  { m with dyn := { m.dyn with length } }

def dbufPut (m : DbufMemory) (buf : CStr) : DbufMemory :=
  let h := if m.dyn.length = 0 then Slot.head else Slot.tail
  putLoop (buf.length + 1) h buf (m.setLength (m.dyn.length + buf.length))

def dbufMap (m : DbufMemory) : CStr :=
  if m.dyn.length = 0 then []
  else
    match m.dyn.head with
    | none => []
    | some db => (m.block db).live

def dropHead (m : DbufMemory) (db : BlockId) : DbufMemory :=
  { m with dyn := { m.dyn with head := m.nextOf db } }.dbufFree db

def deleteLoop : Nat → Nat → DbufMemory → DbufMemory
  | 0, _, m => m
  | fuel + 1, length, m =>
    if length = 0 then m
    else
      match m.dyn.head with
      | none => m
      | some db =>
        let b := m.block db
        let chunk := min (b.data.length - b.start) length
        let m := (m.setLength (m.dyn.length - chunk)).setBlock db { b with start := b.start + chunk }
        let m := if b.start + chunk = b.data.length then m.dropHead db else m
        deleteLoop fuel (length - chunk) m

def clearEmpty (m : DbufMemory) : DbufMemory :=
  match m.dyn.head with
  | none => { m with dyn := { m.dyn with tail := none, length := 0 } }
  | some _ => m

def dbufDelete (m : DbufMemory) (length : Nat) : DbufMemory :=
  let length := min length m.dyn.length
  (deleteLoop length length m).clearEmpty

/-- The loop of `dbuf_get`, with what has been moved. -/
def getLoop : Nat → Nat → CStr → DbufMemory → DbufMemory × CStr
  | 0, _, moved, m => (m, moved)
  | fuel + 1, length, moved, m =>
    if length = 0 ∨ m.dyn.length = 0 then (m, moved)
    else
      let chunk := min m.dbufMap.length length
      getLoop fuel (length - chunk) (moved ++ m.dbufMap.take chunk) (m.dbufDelete chunk)

def dbufGet (m : DbufMemory) (length : Nat) : DbufMemory × CStr := getLoop length length [] m

/-- The loop of `dbuf_flush` over the line ends in front. -/
def flushLoop : Nat → DbufMemory → DbufMemory
  | 0, m => m
  | fuel + 1, m =>
    match m.dyn.head with
    | none => m
    | some db =>
      let b := m.block db
      match b.live with
      | [] => m
      | c :: rest =>
        if !isEol c then m
        else
          let m := m.setBlock db { b with start := b.start + 1 }
          if rest ≠ [] then flushLoop fuel (m.setLength (m.dyn.length - 1))
          else
            let m := m.dropHead db
            match m.dyn.head with
            | none => m.clearEmpty
            | some _ => flushLoop fuel (m.setLength (m.dyn.length - 1))

def dbufFlush (m : DbufMemory) : DbufMemory :=
  match m.dyn.head with
  | none => m
  | some _ => flushLoop m.dyn.length m

/-- The loop of `dbuf_getmsg` from a block on: the line if its end is within `length`. -/
def scanMsg (m : DbufMemory) : Nat → BlockId → Nat → CStr → Option CStr
  | 0, _, _, _ => none
  | fuel + 1, db, length, copied =>
    if length = 0 then none
    else
      let b := m.block db
      let window := b.live.take length
      let line := window.takeWhile fun c => !isEol c
      if line.length < window.length then some (copied ++ line)
      else
        match b.next with
        | none => none
        | some db => scanMsg m fuel db (length - line.length) (copied ++ line)

/-- `dbuf_getmsg`: what it copies, nothing where it returns 0. -/
def dbufGetmsg (m : DbufMemory) (length : Nat) : DbufMemory × CStr :=
  let m := m.dbufFlush
  if m.dyn.length = 0 then (m, [])
  else
    match m.dyn.head with
    | none => (m, [])
    | some db =>
      match m.scanMsg m.dyn.length db (min length m.dyn.length) [] with
      | none => (m, [])
      | some line => ((m.dbufDelete line.length).dbufFlush, line)

/-- The blocks `ids` hang from `head`, end in `tail` and hold `xs`; none of them is free. -/
structure Stored (m : DbufMemory) (ids : List BlockId) (xs : CStr) : Prop where
  chain : Linked m.nextOf m.dyn.head ids
  tail : ids ≠ [] → m.dyn.tail = ids.getLast?
  nodup : (ids ++ m.freeList).Nodup
  old : ∀ b ∈ ids ++ m.freeList, b < m.nextBlock
  bounds : ∀ b ∈ ids, (m.block b).start ≤ (m.block b).data.length ∧
    (m.block b).data.length ≤ dbufSize
  used : ids.length ≤ m.usedCount
  content : ids.flatMap (fun b => (m.block b).live) = xs

def Solid (m : DbufMemory) (ids : List BlockId) : Prop :=
  ∀ b ∈ ids, (m.block b).start < (m.block b).data.length

variable {m : DbufMemory} {ids : List BlockId} {xs : CStr}

@[simp] theorem nextOf_setLength (length : Nat) : (m.setLength length).nextOf = m.nextOf := rfl

theorem Stored.setLength (h : Stored m ids xs) (length : Nat) :
    Stored (m.setLength length) ids xs :=
  ⟨h.chain, h.tail, h.nodup, h.old, h.bounds, h.used, h.content⟩

@[simp] theorem setBlock_block (d b : BlockId) (new : DBufBuffer) :
    (m.setBlock d new).block b = if b = d then new else m.block b := by
  simp [setBlock, Function.update_apply]

theorem nextOf_setBlock {d : BlockId} {new : DBufBuffer} (same : new.next = (m.block d).next) :
    (m.setBlock d new).nextOf = m.nextOf := by
  funext b
  simp only [nextOf, setBlock_block]
  split
  · next here => rw [here, same]
  · rfl

structure Allocated (m m' : DbufMemory) (ids : List BlockId) (d : BlockId) : Prop where
  block : m'.block = Function.update m.block d freshBlock
  dyn : m'.dyn = m.dyn
  fresh : d ∉ ids
  nodup : (ids ++ [d] ++ m'.freeList).Nodup
  old : ∀ b ∈ ids ++ [d] ++ m'.freeList, b < m'.nextBlock
  used : ids.length + 1 ≤ m'.usedCount

theorem Stored.alloc (h : Stored m ids xs) :
    Allocated m m.dbufAlloc.1 ids m.dbufAlloc.2 := by
  have used := h.used
  unfold dbufAlloc
  cases free : m.freeList with
  | nil =>
    have nodup : ids.Nodup := by simpa [free] using h.nodup
    have old : ∀ b ∈ ids, b < m.nextBlock := by simpa [free] using h.old
    have fresh : m.nextBlock ∉ ids := fun inside => Nat.lt_irrefl _ (old _ inside)
    refine ⟨rfl, rfl, fresh, ?_, ?_, ?_⟩
    · simp [setBlock, List.nodup_append, nodup]
      intro b inside same
      exact fresh (same ▸ inside)
    · intro b inside
      simp only [setBlock, List.append_nil, List.mem_append, List.mem_singleton] at inside ⊢
      rcases inside with inside | rfl
      · exact Nat.lt_succ_of_lt (old b inside)
      · exact Nat.lt_succ_self _
    · simpa [setBlock] using used
  | cons db rest =>
    have whole := h.nodup
    rw [free] at whole
    have fresh : db ∉ ids := fun inside =>
      (List.nodup_append.1 whole).2.2 db inside db List.mem_cons_self rfl
    refine ⟨rfl, rfl, fresh, ?_, ?_, ?_⟩
    · simpa [setBlock] using whole
    · intro b inside
      apply h.old
      rw [free]
      simpa [setBlock] using inside
    · simpa [setBlock] using used

def At (ids : List BlockId) : Slot → Prop
  | .head => ids = []
  | .tail => ids ≠ []
  | .next d => ids.getLast? = some d

/-- What `*h` is after the test for a null pointer. -/
inductive Dereferenced (m : DbufMemory) (ids : List BlockId) (xs : CStr) (h : Slot) :
    DbufMemory × BlockId → Prop where
  | found (d : BlockId) (atTail : h = .tail) (last : ids.getLast? = some d) :
      Dereferenced m ids xs h (m, d)
  | added (m' : DbufMemory) (d : BlockId) (stored : Stored m' (ids ++ [d]) xs)
      (empty : (m'.block d).data = []) (length : m'.dyn.length = m.dyn.length)
      (same : ∀ b ∈ ids, (m'.block b).start = (m.block b).start ∧
        (m'.block b).data = (m.block b).data) :
      Dereferenced m ids xs h (m', d)

theorem Allocated.nextOf {m' : DbufMemory} {d : BlockId} (h : Allocated m m' ids d) :
    m'.nextOf = Function.update m.nextOf d none := by
  funext b
  simp only [DbufMemory.nextOf, h.block, Function.update_apply]
  split <;> rfl

theorem Stored.deref (h : Stored m ids xs) {slot : Slot} (at_ : At ids slot) :
    Dereferenced m ids xs slot (m.deref slot) := by
  -- the block is allocated before it is known whether the slot is empty
  have alloc := h.alloc
  have unchanged : ∀ b ∈ ids, m.dbufAlloc.1.block b = m.block b := by
    intro b inside
    have other : b ≠ m.dbufAlloc.2 := fun same => alloc.fresh (same ▸ inside)
    rw [alloc.block, Function.update_of_ne other]
  have made : m.dbufAlloc.1.block m.dbufAlloc.2 = freshBlock := by
    rw [alloc.block, Function.update_self]
  have content : (ids ++ [m.dbufAlloc.2]).flatMap (fun b => (m.dbufAlloc.1.block b).live) = xs := by
    have old : ids.flatMap (fun b => (m.dbufAlloc.1.block b).live) = xs := by
      rw [← h.content]
      exact List.flatMap_congr fun b inside => by rw [unchanged b inside]
    rw [List.flatMap_append, old]
    simp [made, freshBlock, DBufBuffer.live]
  have bounds : ∀ b ∈ ids ++ [m.dbufAlloc.2],
      (m.dbufAlloc.1.block b).start ≤ (m.dbufAlloc.1.block b).data.length ∧
        (m.dbufAlloc.1.block b).data.length ≤ dbufSize := by
    intro b inside
    rcases List.mem_append.1 inside with inside | new
    · rw [unchanged b inside]
      exact h.bounds b inside
    · rw [List.mem_singleton.1 new, made]
      exact ⟨Nat.le_refl _, Nat.zero_le _⟩
  have used : (ids ++ [m.dbufAlloc.2]).length ≤ m.dbufAlloc.1.usedCount := by
    simpa using alloc.used
  have dyn : m.dbufAlloc.1.dyn = m.dyn := alloc.dyn
  unfold DbufMemory.deref
  generalize m.dbufAlloc = made_ at *
  obtain ⟨m', d⟩ := made_
  dsimp only at *
  -- an empty buffer, the last block, or the place behind it
  cases slot with
  | head =>
    have none : ids = [] := at_
    subst none
    have start : m.slot .head = none := h.chain
    simp only [start]
    refine .added _ d ⟨?_, fun _ => rfl, alloc.nodup, alloc.old, bounds, used, content⟩ ?_ ?_ ?_
    · rw [List.nil_append, linked_cons, linked_nil]
      refine ⟨rfl, ?_⟩
      change m'.nextOf d = _
      rw [alloc.nextOf, Function.update_self]
    · change (m'.block d).data = []
      rw [made]
      rfl
    · change m'.dyn.length = _
      rw [dyn]
    · intro b inside
      cases inside
  | tail =>
    cases last : ids.getLast? with
    | none => exact absurd (List.getLast?_eq_none_iff.1 last) at_
    | some d =>
      have start : m.slot .tail = some d := by rw [slot, h.tail at_, last]
      simp only [start]
      exact .found d rfl last
  | next e =>
    have last : ids.getLast? = some e := at_
    have start : m.slot (.next e) = none := h.chain.next_last last
    have inside : e ∈ ids := List.mem_of_getLast? last
    have other : e ≠ d := fun same => alloc.fresh (same ▸ inside)
    simp only [start]
    have links : (({ m' with dyn := { m'.dyn with tail := some d } }.setSlot (.next e) d).nextOf) =
        Function.update (Function.update m.nextOf d none) e (some d) := by
      rw [← alloc.nextOf]
      funext b
      simp only [setSlot, DbufMemory.nextOf, setBlock_block, Function.update_apply]
      split <;> rfl
    have body : ∀ b, (({ m' with dyn := { m'.dyn with tail := some d } }.setSlot (.next e) d).block b).start =
        (m'.block b).start ∧ (({ m' with dyn := { m'.dyn with tail := some d } }.setSlot (.next e) d).block b).data =
        (m'.block b).data := by
      intro b
      simp only [setSlot, setBlock_block]
      split
      · next here =>
        subst here
        exact ⟨rfl, rfl⟩
      · exact ⟨rfl, rfl⟩
    refine .added _ d ⟨?_, ?_, alloc.nodup, alloc.old, ?_, used, ?_⟩ ?_ ?_ ?_
    · rw [links]
      change Linked _ m'.dyn.head _
      rw [dyn]
      exact (h.chain.update alloc.fresh none).snoc (List.nodup_append.1 h.nodup).1 last alloc.fresh
        (Function.update_self d none m.nextOf)
    · exact fun _ => by simp [setSlot, setBlock]
    · intro b inside
      rw [(body b).1, (body b).2]
      exact bounds b inside
    · rw [← content]
      exact List.flatMap_congr fun b _ => by
        rw [DBufBuffer.live, (body b).1, (body b).2]
        rfl
    · rw [(body d).2, made]
      rfl
    · change m'.dyn.length = _
      rw [dyn]
    · intro b inside
      rw [(body b).1, (body b).2, unchanged b inside]
      exact ⟨rfl, rfl⟩

theorem fill_block (d b : BlockId) (buf : CStr) : ((m.fill d buf).block b).start = (m.block b).start ∧
    ((m.fill d buf).block b).data = if b = d then
      (m.block b).data ++ buf.take (chunkOf (m.block b) buf.length) else (m.block b).data := by
  simp only [fill, setBlock_block]
  split
  · next here =>
    subst here
    exact ⟨rfl, rfl⟩
  · exact ⟨rfl, rfl⟩

theorem Stored.fill (h : Stored m ids xs) {d : BlockId} (last : ids.getLast? = some d) (buf : CStr) :
    Stored (m.fill d buf) ids (xs ++ buf.take (chunkOf (m.block d) buf.length)) := by
  have links : (m.fill d buf).nextOf = m.nextOf := nextOf_setBlock rfl
  have inside : d ∈ ids := List.mem_of_getLast? last
  refine ⟨links.symm ▸ h.chain, h.tail, h.nodup, h.old, ?_, h.used, ?_⟩
  · intro b member
    obtain ⟨start, data⟩ := @fill_block m d b buf
    obtain ⟨low, high⟩ := h.bounds b member
    rw [start, data]
    split
    · rw [List.length_append, List.length_take, chunkOf]
      omega
    · exact ⟨low, high⟩
  · obtain ⟨init, rfl⟩ := List.getLast?_eq_some_iff.1 last
    have apart : ∀ b ∈ init, b ≠ d := by
      intro b before same
      have nodup := (List.nodup_append.1 (List.nodup_append.1 h.nodup).1).2.2
      exact nodup b before d (List.mem_singleton_self d) same
    have front : init.flatMap (fun b => ((m.fill d buf).block b).live) =
        init.flatMap (fun b => (m.block b).live) := by
      refine List.flatMap_congr fun b before => ?_
      obtain ⟨start, data⟩ := @fill_block m d b buf
      rw [DBufBuffer.live, start, data, if_neg (apart b before), DBufBuffer.live]
    obtain ⟨start, data⟩ := @fill_block m d d buf
    rw [← h.content, List.flatMap_append, List.flatMap_append, front, List.append_assoc]
    congr 1
    simp only [List.flatMap_cons, List.flatMap_nil, List.append_nil, DBufBuffer.live]
    rw [start, data, if_pos rfl, List.drop_append_of_le_length (h.bounds d inside).1]

theorem Stored.putLoop (fuel : Nat) {m : DbufMemory} {ids : List BlockId} {xs : CStr}
    (h : Stored m ids xs) (solid : Solid m ids) {slot : Slot} (at_ : At ids slot) (buf : CStr)
    (enough : buf.length + (if slot = .tail then 1 else 0) ≤ fuel) :
    ∃ ids', Stored (putLoop fuel slot buf m) ids' (xs ++ buf) ∧
      Solid (putLoop fuel slot buf m) ids' ∧
      (putLoop fuel slot buf m).dyn.length = m.dyn.length := by
  induction fuel generalizing m ids xs slot buf with
  | zero =>
    have empty : buf = [] := List.length_eq_zero_iff.1 (by omega)
    rw [empty, List.append_nil]
    exact ⟨ids, h, solid, rfl⟩
  | succ fuel ih =>
    unfold DbufMemory.putLoop
    by_cases empty : buf = []
    · rw [if_pos empty, empty, List.append_nil]
      exact ⟨ids, h, solid, rfl⟩
    rw [if_neg empty]
    have some : 0 < buf.length := List.length_pos_iff.2 empty
    -- after this turn the rest of the loop hangs off the last block
    have turn : ∀ (m' : DbufMemory) (ids' : List BlockId) (d : BlockId), Stored m' ids' xs →
        ids'.getLast? = Option.some d → (∀ b ∈ ids', b ≠ d → (m'.block b).start < (m'.block b).data.length) →
        ((m'.block d).start < (m'.block d).data.length ∨ 0 < chunkOf (m'.block d) buf.length) →
        buf.length - chunkOf (m'.block d) buf.length ≤ fuel → m'.dyn.length = m.dyn.length →
        ∃ ids'', Stored (DbufMemory.putLoop fuel (.next d)
            (buf.drop (chunkOf (m'.block d) buf.length)) (m'.fill d buf)) ids'' (xs ++ buf) ∧
          Solid (DbufMemory.putLoop fuel (.next d)
            (buf.drop (chunkOf (m'.block d) buf.length)) (m'.fill d buf)) ids'' ∧
          (DbufMemory.putLoop fuel (.next d)
            (buf.drop (chunkOf (m'.block d) buf.length)) (m'.fill d buf)).dyn.length = m.dyn.length := by
      intro m' ids' d stored last others grows room length
      have within : chunkOf (m'.block d) buf.length ≤ buf.length := Nat.min_le_right _ _
      have filled := stored.fill last buf
      have solid' : Solid (m'.fill d buf) ids' := by
        intro b inside
        obtain ⟨start, data⟩ := @fill_block m' d b buf
        rw [start, data]
        split
        · next here =>
          subst here
          rw [List.length_append, List.length_take]
          have low := (stored.bounds b inside).1
          omega
        · next other => exact others b inside other
      obtain ⟨ids'', all, firm, same⟩ := ih filled solid' (show At ids' (.next d) from last)
        (buf.drop (chunkOf (m'.block d) buf.length)) (by simpa using room)
      rw [List.append_assoc, List.take_append_drop] at all
      exact ⟨ids'', all, firm, same.trans length⟩
    have outcome := h.deref at_
    generalize m.deref slot = result at outcome ⊢
    cases outcome with
    | found d atTail last =>
      have inside : d ∈ ids := List.mem_of_getLast? last
      rw [if_pos atTail] at enough
      exact turn m ids d h last (fun b member _ => solid b member) (.inl (solid d inside))
        (by omega) rfl
    | added m' d stored fresh length same =>
      have last : (ids ++ [d]).getLast? = Option.some d := List.getLast?_concat
      have room : 0 < chunkOf (m'.block d) buf.length := by
        rw [chunkOf, fresh, List.length_nil, dbufSize]
        omega
      refine turn m' (ids ++ [d]) d stored last (fun b member other => ?_) (.inr room) ?_ length
      · rcases List.mem_append.1 member with old | new
        · rw [(same b old).1, (same b old).2]
          exact solid b old
        · exact absurd (List.mem_singleton.1 new) other
      · have := enough
        omega

/-- The blocks, the pointers and the length of a buffer with the bytes `xs`. -/
structure Holds (m : DbufMemory) (xs : CStr) : Prop where
  blocks : ∃ ids, Stored m ids xs ∧ Solid m ids
  length : m.dyn.length = xs.length

theorem Stored.ids_eq_nil_iff (h : Stored m ids xs) (solid : Solid m ids) : ids = [] ↔ xs = [] := by
  cases ids with
  | nil => exact iff_of_true rfl h.content.symm
  | cons b ids =>
    refine iff_of_false (List.cons_ne_nil _ _) fun empty => ?_
    have live := solid b List.mem_cons_self
    have content := congrArg List.length (h.content.trans empty)
    simp only [List.flatMap_cons, List.length_append, List.length_nil, DBufBuffer.live,
      List.length_drop] at content
    omega

theorem Holds.put (h : m.Holds xs) (buf : CStr) : (m.dbufPut buf).Holds (xs ++ buf) := by
  obtain ⟨ids, stored, solid⟩ := h.blocks
  have at_ : At ids (if m.dyn.length = 0 then Slot.head else Slot.tail) := by
    rw [h.length]
    split
    · next empty => exact (stored.ids_eq_nil_iff solid).2 (List.length_eq_zero_iff.1 empty)
    · next some =>
      exact fun none => some (List.length_eq_zero_iff.2 ((stored.ids_eq_nil_iff solid).1 none))
  obtain ⟨ids', all, firm, length⟩ := (stored.setLength (m.dyn.length + buf.length)).putLoop
    (buf.length + 1) solid at_ buf (Nat.add_le_add_left (by split <;> simp) _)
  refine ⟨⟨ids', all, firm⟩, ?_⟩
  rw [dbufPut, length, List.length_append, ← h.length]
  rfl

theorem Stored.advance {db : BlockId} {rest : List BlockId} (h : Stored m (db :: rest) xs)
    {chunk : Nat} (within : chunk ≤ (m.block db).live.length) :
    Stored (m.setBlock db { m.block db with start := (m.block db).start + chunk }) (db :: rest)
      (xs.drop chunk) := by
  have links : (m.setBlock db { m.block db with start := (m.block db).start + chunk }).nextOf =
      m.nextOf := nextOf_setBlock rfl
  have apart : ∀ b ∈ rest, b ≠ db := fun b inside same =>
    (List.nodup_cons.1 (List.nodup_append.1 h.nodup).1).1 (same ▸ inside)
  rw [DBufBuffer.live, List.length_drop] at within
  refine ⟨links.symm ▸ h.chain, h.tail, h.nodup, h.old, ?_, h.used, ?_⟩
  · intro b inside
    have bounds := h.bounds b inside
    rw [setBlock_block]
    split
    · next here =>
      subst here
      exact ⟨by dsimp only; omega, bounds.2⟩
    · exact bounds
  · have behind : rest.flatMap (fun b => ((m.setBlock db
        { m.block db with start := (m.block db).start + chunk }).block b).live) =
        rest.flatMap (fun b => (m.block b).live) :=
      List.flatMap_congr fun b inside => by rw [setBlock_block, if_neg (apart b inside)]
    rw [List.flatMap_cons, behind, setBlock_block, if_pos rfl, ← h.content, List.flatMap_cons,
      List.drop_append_of_le_length (by simpa [DBufBuffer.live] using within)]
    simp [DBufBuffer.live, List.drop_drop]

theorem Stored.dropHead {db : BlockId} {rest : List BlockId} (h : Stored m (db :: rest) xs)
    (drained : (m.block db).live = []) : Stored (m.dropHead db) rest xs := by
  obtain ⟨start, chain⟩ := h.chain
  have used := h.used
  have nodup := h.nodup
  have content := h.content
  rw [List.length_cons] at used
  rw [List.flatMap_cons, drained, List.nil_append] at content
  unfold DbufMemory.dropHead dbufFree
  dsimp only
  split
  · refine ⟨chain, fun some => ?_, ?_, fun b inside => ?_, fun b inside => ?_, ?_, content⟩
    · rw [h.tail (List.cons_ne_nil _ _)]
      exact List.getLast?_cons_of_ne_nil some
    · exact (List.nodup_cons.1 nodup).2
    · exact h.old b (List.mem_cons_of_mem db inside)
    · exact h.bounds b (List.mem_cons_of_mem db inside)
    · dsimp only
      omega
  · refine ⟨chain, fun some => ?_, ?_, fun b inside => ?_, fun b inside => ?_, ?_, content⟩
    · rw [h.tail (List.cons_ne_nil _ _)]
      exact List.getLast?_cons_of_ne_nil some
    · exact (List.perm_middle.nodup_iff).2 nodup
    · exact h.old b (List.perm_middle.mem_iff.1 inside)
    · exact h.bounds b (List.mem_cons_of_mem db inside)
    · dsimp only
      omega

@[simp] theorem dropHead_block (db b : BlockId) : (m.dropHead db).block b = m.block b := by
  unfold DbufMemory.dropHead dbufFree
  dsimp only
  split <;> rfl

@[simp] theorem dropHead_length (db : BlockId) : (m.dropHead db).dyn.length = m.dyn.length := by
  unfold DbufMemory.dropHead dbufFree
  dsimp only
  split <;> rfl

theorem Stored.consume {db : BlockId} {rest : List BlockId} (h : Stored m (db :: rest) xs)
    (solid : Solid m (db :: rest)) {chunk : Nat} (within : chunk ≤ (m.block db).live.length) :
    let m' := m.setBlock db { m.block db with start := (m.block db).start + chunk }
    let m' := if (m.block db).start + chunk = (m.block db).data.length then m'.dropHead db else m'
    ∃ ids', Stored m' ids' (xs.drop chunk) ∧ Solid m' ids' ∧ m'.dyn.length = m.dyn.length := by
  have advanced := h.advance within
  have apart : ∀ b ∈ rest, b ≠ db := fun b inside same =>
    (List.nodup_cons.1 (List.nodup_append.1 h.nodup).1).1 (same ▸ inside)
  have bounds := (h.bounds db List.mem_cons_self).1
  rw [DBufBuffer.live, List.length_drop] at within
  dsimp only
  split
  · next drained =>
    refine ⟨rest, advanced.dropHead ?_, fun b inside => ?_, ?_⟩
    · simp [DBufBuffer.live, drained]
    · rw [dropHead_block, setBlock_block, if_neg (apart b inside)]
      exact solid b (List.mem_cons_of_mem db inside)
    · rw [dropHead_length]
      rfl
  · next left =>
    refine ⟨db :: rest, advanced, fun b inside => ?_, rfl⟩
    rw [setBlock_block]
    split
    · dsimp only
      omega
    · exact solid b inside

theorem Stored.deleteLoop (fuel : Nat) {m : DbufMemory} {ids : List BlockId} {xs : CStr}
    (h : Stored m ids xs) (solid : Solid m ids) (length : m.dyn.length = xs.length) {n : Nat}
    (within : n ≤ xs.length) (enough : n ≤ fuel) :
    ∃ ids', Stored (deleteLoop fuel n m) ids' (xs.drop n) ∧ Solid (deleteLoop fuel n m) ids' ∧
      (deleteLoop fuel n m).dyn.length = xs.length - n := by
  induction fuel generalizing m ids xs n with
  | zero =>
    have none : n = 0 := by omega
    subst none
    exact ⟨ids, h, solid, length⟩
  | succ fuel ih =>
    unfold DbufMemory.deleteLoop
    by_cases none : n = 0
    · subst none
      exact ⟨ids, h, solid, length⟩
    rw [if_neg none]
    cases ids with
    | nil =>
      have empty : xs = [] := h.content.symm
      rw [empty] at within
      exact absurd (Nat.le_zero.1 within) none
    | cons db rest =>
      have head : m.dyn.head = some db := h.chain.1
      have live : (m.block db).live.length = (m.block db).data.length - (m.block db).start := by
        rw [DBufBuffer.live, List.length_drop]
      -- a linked block is never empty, so each turn takes something
      have full := solid db List.mem_cons_self
      rw [head]
      dsimp only
      generalize size : min ((m.block db).data.length - (m.block db).start) n = chunk
      -- the chunk is what the block holds, or what is still to go
      have taken : chunk ≤ n := size ▸ Nat.min_le_right _ _
      have some : 0 < chunk := by omega
      have small : chunk ≤ ((m.setLength (m.dyn.length - chunk)).block db).live.length := by
        change chunk ≤ (m.block db).live.length
        omega
      obtain ⟨ids', stored, solid', same⟩ :=
        (h.setLength (m.dyn.length - chunk)).consume solid small
      have rest := ih stored solid' (by rw [same, List.length_drop, ← length]; rfl)
        (by rw [List.length_drop]; omega) (show n - chunk ≤ fuel by omega)
      rw [List.drop_drop, Nat.add_sub_cancel' taken, List.length_drop] at rest
      obtain ⟨ids'', stored'', solid'', left⟩ := rest
      exact ⟨ids'', stored'', solid'', left.trans (by omega)⟩

theorem Stored.clear (h : Stored m [] xs) : m.clearEmpty.Holds xs := by
  have head : m.dyn.head = none := h.chain
  have empty : xs = [] := h.content.symm
  unfold DbufMemory.clearEmpty
  rw [head, empty]
  dsimp only
  refine ⟨⟨[], ⟨head, fun some => absurd rfl some, h.nodup, h.old, h.bounds, h.used, rfl⟩, ?_⟩, rfl⟩
  intro b inside
  cases inside

theorem Stored.clearEmpty (h : Stored m ids xs) (solid : Solid m ids)
    (length : m.dyn.length = xs.length) : m.clearEmpty.Holds xs := by
  cases ids with
  | nil => exact h.clear
  | cons db rest =>
    have head : m.dyn.head = some db := h.chain.1
    unfold DbufMemory.clearEmpty
    rw [head]
    exact ⟨⟨db :: rest, h, solid⟩, length⟩

theorem Holds.delete (h : m.Holds xs) (n : Nat) : (m.dbufDelete n).Holds (xs.drop n) := by
  obtain ⟨ids, stored, solid⟩ := h.blocks
  unfold dbufDelete
  rw [h.length]
  obtain ⟨ids', stored', solid', left⟩ := stored.deleteLoop (min n xs.length) solid h.length
    (Nat.min_le_right _ _) (Nat.le_refl _)
  have same : xs.drop (min n xs.length) = xs.drop n := by
    rcases Nat.le_total n xs.length with le | ge
    · rw [Nat.min_eq_left le]
    · rw [Nat.min_eq_right ge, List.drop_length, List.drop_of_length_le ge]
  rw [same] at stored'
  refine stored'.clearEmpty solid' (left.trans ?_)
  rw [List.length_drop]
  omega

theorem Holds.map (h : m.Holds xs) : m.dbufMap <+: xs ∧ (xs ≠ [] → m.dbufMap ≠ []) := by
  obtain ⟨ids, stored, solid⟩ := h.blocks
  unfold dbufMap
  cases ids with
  | nil =>
    have empty : xs = [] := stored.content.symm
    rw [h.length, empty]
    exact ⟨List.prefix_refl _, fun some => absurd rfl some⟩
  | cons db rest =>
    have head : m.dyn.head = some db := stored.chain.1
    have full := solid db List.mem_cons_self
    have content := stored.content
    rw [List.flatMap_cons] at content
    have some : xs.length ≠ 0 := by
      have size := congrArg List.length content
      rw [List.length_append, DBufBuffer.live, List.length_drop] at size
      omega
    rw [h.length, if_neg some, head]
    dsimp only
    refine ⟨⟨_, content⟩, fun _ empty => ?_⟩
    have none := congrArg List.length empty
    rw [DBufBuffer.live, List.length_drop, List.length_nil] at none
    omega

theorem Holds.getLoop (fuel : Nat) {m : DbufMemory} {xs : CStr} (h : m.Holds xs) {n : Nat}
    (enough : n ≤ fuel) (moved : CStr) :
    (getLoop fuel n moved m).1.Holds (xs.drop n) ∧
      (getLoop fuel n moved m).2 = moved ++ xs.take n := by
  induction fuel generalizing m xs n moved with
  | zero =>
    have none : n = 0 := by omega
    subst none
    exact ⟨h, (List.append_nil moved).symm⟩
  | succ fuel ih =>
    unfold DbufMemory.getLoop
    rw [h.length]
    split
    · next stop =>
      -- the map ends at the end of a block, so an empty one is the end of the queue
      have beyond : xs.length ≤ n ∨ n = 0 := by omega
      cases beyond with
      | inl beyond =>
        have empty : xs.drop n = [] ∧ (xs = [] ∨ n = 0) := by
          refine ⟨List.drop_of_length_le beyond, ?_⟩
          rcases stop with none | none
          · exact .inr none
          · exact .inl (List.length_eq_zero_iff.1 none)
        rcases empty.2 with rfl | rfl
        · exact ⟨by simpa using h, by simp⟩
        · exact ⟨h, (List.append_nil moved).symm⟩
      | inr none =>
        subst none
        exact ⟨h, (List.append_nil moved).symm⟩
    · next going =>
      obtain ⟨front, some⟩ := h.map
      have some : 0 < m.dbufMap.length :=
        List.length_pos_iff.2 (some fun empty => going (.inr (by rw [empty]; rfl)))
      dsimp only
      -- one turn takes what the first block has of it
      generalize size : min m.dbufMap.length n = chunk
      have same : m.dbufMap.take chunk = xs.take chunk := by
        obtain ⟨rest, rfl⟩ := front
        exact (List.take_append_of_le_length (by omega)).symm
      obtain ⟨holds, taken⟩ := ih (h.delete chunk) (show n - chunk ≤ fuel by omega)
        (moved ++ m.dbufMap.take chunk)
      refine ⟨?_, ?_⟩
      · rw [List.drop_drop, Nat.add_sub_cancel' (by omega)] at holds
        exact holds
      · rw [taken, same, List.append_assoc]
        congr 1
        have split : n = chunk + (n - chunk) := by omega
        conv_rhs => rw [split, List.take_add]

theorem Holds.get (h : m.Holds xs) (n : Nat) :
    (m.dbufGet n).1.Holds (xs.drop n) ∧ (m.dbufGet n).2 = xs.take n :=
  h.getLoop n (Nat.le_refl n) []

theorem Stored.flushLoop (fuel : Nat) {m : DbufMemory} {ids : List BlockId} {xs : CStr}
    (h : Stored m ids xs) (solid : Solid m ids) (length : m.dyn.length = xs.length)
    (some : ids ≠ []) (enough : xs.length ≤ fuel) :
    (flushLoop fuel m).Holds (xs.dropWhile isEol) := by
  induction fuel generalizing m ids xs with
  | zero =>
    have empty : xs = [] := List.length_eq_zero_iff.1 (Nat.le_zero.1 enough)
    exact absurd ((h.ids_eq_nil_iff solid).2 empty) some
  | succ fuel ih =>
    unfold DbufMemory.flushLoop
    cases ids with
    | nil => exact absurd rfl some
    | cons db rest =>
      have head : m.dyn.head = Option.some db := h.chain.1
      have full := solid db List.mem_cons_self
      have size : (m.block db).live.length = (m.block db).data.length - (m.block db).start := by
        rw [DBufBuffer.live, List.length_drop]
      have content := h.content
      rw [List.flatMap_cons] at content
      rw [head]
      dsimp only
      cases live : (m.block db).live with
      | nil =>
        rw [live, List.length_nil] at size
        omega
      | cons c left =>
        dsimp only
        rw [live, List.cons_append] at content
        rw [live, List.length_cons] at size
        -- a byte that ends a line is dropped, with the block when it was the last one there
        by_cases eol : isEol c = true
        · have rest_ : xs.dropWhile isEol = (xs.drop 1).dropWhile isEol := by
            rw [← content, List.dropWhile_cons_of_pos eol]
            rfl
          have short : xs.length = (xs.drop 1).length + 1 := by
            rw [← content]
            rfl
          have one : 1 ≤ (m.block db).live.length := by
            rw [live]
            exact Nat.succ_pos _
          have step := h.consume solid one
          dsimp only at step
          simp only [eol, Bool.not_true, Bool.false_eq_true, if_false]
          rw [rest_]
          by_cases more : left ≠ []
          · have some' := List.length_pos_iff.2 more
            have partial_ : (m.block db).start + 1 ≠ (m.block db).data.length := by omega
            rw [if_pos more]
            rw [if_neg partial_] at step
            obtain ⟨ids', stored, solid', same⟩ := step
            have again := stored.setLength (m.dyn.length - 1)
            refine ih again solid' (by change m.dyn.length - 1 = _; omega) ?_ (by omega)
            intro none
            have empty := (stored.ids_eq_nil_iff solid').1 none
            rw [← content] at empty
            exact more (List.append_eq_nil_iff.1 empty).1
          · have none := not_not.1 more
            have drained : (m.block db).start + 1 = (m.block db).data.length := by
              rw [none, List.length_nil] at size
              omega
            rw [if_neg more]
            rw [if_pos drained] at step
            obtain ⟨ids', stored, solid', same⟩ := step
            have length' : ((m.setBlock db { m.block db with start := (m.block db).start + 1 }).dropHead
                db).dyn.length = m.dyn.length := by
              rw [dropHead_length]
              rfl
            generalize (m.setBlock db { m.block db with start := (m.block db).start + 1 }).dropHead db =
              m' at stored solid' length' ⊢
            cases ids' with
            | nil =>
              have start : m'.dyn.head = Option.none := stored.chain
              have empty : xs.drop 1 = [] := stored.content.symm
              have cleared := stored.clear
              rw [empty] at cleared ⊢
              rw [start]
              exact cleared
            | cons b rest =>
              have start : m'.dyn.head = Option.some b := stored.chain.1
              rw [start]
              exact ih (stored.setLength (m'.dyn.length - 1)) solid'
                (by change m'.dyn.length - 1 = _; omega) (List.cons_ne_nil _ _) (by omega)
        · have same : xs.dropWhile isEol = xs := by
            rw [← content, List.dropWhile_cons_of_neg eol]
          rw [Bool.not_eq_true] at eol
          simp only [eol, Bool.not_false, if_true]
          rw [same]
          exact ⟨⟨db :: rest, h, solid⟩, length⟩

theorem Holds.flush (h : m.Holds xs) : m.dbufFlush.Holds (xs.dropWhile isEol) := by
  obtain ⟨ids, stored, solid⟩ := h.blocks
  unfold dbufFlush
  cases ids with
  | nil =>
    have head : m.dyn.head = none := stored.chain
    have empty : xs = [] := stored.content.symm
    subst empty
    rw [head]
    exact h
  | cons db rest =>
    have head : m.dyn.head = some db := stored.chain.1
    rw [head]
    exact stored.flushLoop _ solid h.length (List.cons_ne_nil _ _) (Nat.le_of_eq h.length.symm)

/-- The line in front of the bytes if its end is within `length`. -/
def lineWithin (xs : CStr) (length : Nat) : Option CStr :=
  let window := xs.take length
  let line := window.takeWhile fun c => !isEol c
  if line.length < window.length then some line else none

theorem lineWithin_append (front xs : CStr) (length : Nat) :
    lineWithin (front ++ xs) length =
      if ((front.take length).takeWhile fun c => !isEol c).length < (front.take length).length then
        some ((front.take length).takeWhile fun c => !isEol c)
      else (lineWithin xs (length - front.length)).map ((front.take length) ++ ·) := by
  unfold lineWithin
  dsimp only
  have bound := (List.takeWhile_prefix (l := front.take length) fun c => !isEol c).length_le
  rw [List.take_append, List.takeWhile_append]
  by_cases whole : ((front.take length).takeWhile fun c => !isEol c).length =
      (front.take length).length
  · have through : ¬ ((front.take length).takeWhile fun c => !isEol c).length <
        (front.take length).length := by omega
    rw [if_pos whole, if_neg through]
    simp only [List.length_append, Nat.add_lt_add_iff_left]
    split
    · rfl
    · rfl
  · have less : ((front.take length).takeWhile fun c => !isEol c).length <
        (front.take length).length := by omega
    rw [if_neg whole, if_pos less, if_pos (by rw [List.length_append]; omega)]

theorem scanMsg_eq (fuel : Nat) {p : Option BlockId} {db : BlockId} {rest : List BlockId}
    (chain : Linked m.nextOf p (db :: rest)) (solid : Solid m (db :: rest)) {n : Nat}
    (enough : n ≤ fuel) (copied : CStr) :
    scanMsg m fuel db n copied =
      (lineWithin ((db :: rest).flatMap fun b => (m.block b).live) n).map (copied ++ ·) := by
  induction fuel generalizing p db rest n copied with
  | zero =>
    have none : n = 0 := Nat.le_zero.1 enough
    rw [none]
    rfl
  | succ fuel ih =>
    unfold scanMsg
    -- block by block; a line may end inside one or go on into the next
    by_cases none : n = 0
    · rw [none]
      rfl
    rw [if_neg none, List.flatMap_cons, lineWithin_append]
    dsimp only
    have full := solid db List.mem_cons_self
    have some : 0 < (m.block db).live.length := by
      rw [DBufBuffer.live, List.length_drop]
      omega
    have bound := (List.takeWhile_prefix (l := (m.block db).live.take n) fun c => !isEol c).length_le
    split
    · rfl
    · next whole =>
      have all : (((m.block db).live.take n).takeWhile fun c => !isEol c) = (m.block db).live.take n :=
        (List.takeWhile_prefix _).eq_of_length (by omega)
      rw [all]
      cases rest with
      | nil =>
        have last : (m.block db).next = Option.none := chain.2
        rw [last]
        simp [lineWithin]
      | cons b rest =>
        have link : (m.block db).next = Option.some b := chain.2.1
        have shorter : n - ((m.block db).live.take n).length ≤ fuel := by
          rw [List.length_take]
          omega
        rw [link]
        dsimp only
        rw [ih chain.2 (fun b inside => solid b (List.mem_cons_of_mem db inside)) shorter,
          Option.map_map]
        have left : lineWithin ((b :: rest).flatMap fun b => (m.block b).live)
              (n - ((m.block db).live.take n).length) =
            lineWithin ((b :: rest).flatMap fun b => (m.block b).live)
              (n - (m.block db).live.length) := by
          rw [List.length_take]
          congr 1
          omega
        rw [left]
        congr 1
        funext line
        simp

/-- A message is cut off: the line ends around it go, and nothing else where no line is
complete within `length` bytes. -/
def cutMsg (xs : CStr) (length : Nat) : CStr × CStr :=
  let xs := xs.dropWhile isEol
  match lineWithin xs length with
  | none => (xs, [])
  | some line => ((xs.drop line.length).dropWhile isEol, line)

theorem lineWithin_min (xs : CStr) (length : Nat) :
    lineWithin xs (min length xs.length) = lineWithin xs length := by
  unfold lineWithin
  have same : xs.take (min length xs.length) = xs.take length := by
    rcases Nat.le_total length xs.length with le | ge
    · rw [Nat.min_eq_left le]
    · rw [Nat.min_eq_right ge, List.take_length, List.take_of_length_le ge]
  rw [same]

theorem Holds.getmsg (h : m.Holds xs) (length : Nat) :
    (m.dbufGetmsg length).1.Holds (cutMsg xs length).1 ∧
      (m.dbufGetmsg length).2 = (cutMsg xs length).2 := by
  have flushed := h.flush
  unfold dbufGetmsg cutMsg
  generalize m.dbufFlush = m at flushed
  generalize xs.dropWhile isEol = xs at flushed
  obtain ⟨ids, stored, solid⟩ := flushed.blocks
  dsimp only
  rw [flushed.length]
  cases ids with
  | nil =>
    have empty : xs = [] := stored.content.symm
    subst empty
    have nothing : lineWithin [] length = none := by simp [lineWithin]
    rw [if_pos List.length_nil, nothing]
    exact ⟨flushed, rfl⟩
  | cons db rest =>
    have head : m.dyn.head = some db := stored.chain.1
    have some : xs.length ≠ 0 := by
      intro none
      exact List.cons_ne_nil db rest
        ((stored.ids_eq_nil_iff solid).2 (List.length_eq_zero_iff.1 none))
    rw [if_neg some, head]
    dsimp only
    rw [scanMsg_eq _ stored.chain solid (Nat.min_le_right _ _), stored.content, lineWithin_min]
    cases lineWithin xs length with
    | none => exact ⟨flushed, rfl⟩
    | some line => exact ⟨(flushed.delete line.length).flush, rfl⟩

def blocks (m : DbufMemory) : List BlockId := walk m.nextOf m.nextBlock m.dyn.head

def content (m : DbufMemory) : CStr := m.blocks.flatMap fun b => (m.block b).live

theorem Stored.blocks_eq (h : Stored m ids xs) : m.blocks = ids := by
  have nodup := (List.nodup_append.1 h.nodup).1
  have inside : ids ⊆ List.range m.nextBlock := fun b member =>
    List.mem_range.2 (h.old b (List.mem_append_left _ member))
  have few := (List.subperm_of_subset nodup inside).length_le
  rw [List.length_range] at few
  exact h.chain.walk_eq few

end DbufMemory

/-- `delete` comes after `dbuf_map`. -/
inductive DbufEvent where
  | put (buf : CStr)
  | delete (length : Nat)
  | get (length : Nat)
  | getmsg (length : Nat)
  deriving DecidableEq, Repr

namespace DbufEvent

def run (m : DbufMemory) : DbufEvent → DbufMemory × CStr
  | .put buf => (m.dbufPut buf, [])
  | .delete length => (m.dbufDelete length, [])
  | .get length => m.dbufGet length
  | .getmsg length => m.dbufGetmsg length

def runQueue (xs : CStr) : DbufEvent → CStr × CStr
  | .put buf => (xs ++ buf, [])
  | .delete length => (xs.drop length, [])
  | .get length => (xs.drop length, xs.take length)
  | .getmsg length => DbufMemory.cutMsg xs length

theorem run_holds {m : DbufMemory} {xs : CStr} (h : m.Holds xs) (e : DbufEvent) :
    (e.run m).1.Holds (e.runQueue xs).1 ∧ (e.run m).2 = (e.runQueue xs).2 := by
  cases e with
  | put buf => exact ⟨h.put buf, rfl⟩
  | delete length => exact ⟨h.delete length, rfl⟩
  | get length => exact h.get length
  | getmsg length => exact h.getmsg length

end DbufEvent

def dbufMachine : Machine (DbufMemory × List CStr) DbufEvent where
  step s e := ((e.run s.1).1, s.2 ++ [(e.run s.1).2])

def queueMachine : Machine (CStr × List CStr) DbufEvent where
  step q e := ((e.runQueue q.1).1, q.2 ++ [(e.runQueue q.1).2])

structure DbufMemory.Ready (m : DbufMemory) : Prop where
  empty : m.dyn = { head := none, tail := none, length := 0 }
  nodup : m.freeList.Nodup
  old : ∀ b ∈ m.freeList, b < m.nextBlock

theorem DbufMemory.Ready.holds {m : DbufMemory} (h : m.Ready) : m.Holds [] := by
  have head : m.dyn.head = none := by rw [h.empty]
  have length : m.dyn.length = 0 := by rw [h.empty]
  refine ⟨⟨[], ⟨head, fun some => absurd rfl some, h.nodup, h.old, ?_, Nat.zero_le _, rfl⟩, ?_⟩, length⟩
  · intro b inside
    cases inside
  · intro b inside
    cases inside

/-- What the user of a `struct DBuf` may rely on while it has the bytes `xs`. -/
structure DbufMemory.Shows (m : DbufMemory) (xs : CStr) : Prop where
  content : m.content = xs
  length : m.dyn.length = xs.length
  mapped : m.dbufMap <+: xs ∧ (xs ≠ [] → m.dbufMap ≠ [])
  tail : 0 < m.dyn.length → ∃ d, m.dyn.tail = some d ∧ m.blocks.getLast? = some d ∧
    m.nextOf d = none

theorem DbufMemory.Holds.shows {m : DbufMemory} {xs : CStr} (h : m.Holds xs) : m.Shows xs := by
  obtain ⟨ids, stored, solid⟩ := h.blocks
  have same := stored.blocks_eq
  refine ⟨?_, h.length, h.map, fun filled => ?_⟩
  · rw [DbufMemory.content, same]
    exact stored.content
  · have nonempty : ids ≠ [] := by
      intro none
      have empty := (stored.ids_eq_nil_iff solid).1 none
      rw [h.length, empty] at filled
      exact Nat.lt_irrefl 0 filled
    obtain ⟨d, last⟩ : ∃ d, ids.getLast? = some d := by
      cases last : ids.getLast? with
      | none => exact absurd (List.getLast?_eq_none_iff.1 last) nonempty
      | some d => exact ⟨d, rfl⟩
    exact ⟨d, (stored.tail nonempty).trans last, same ▸ last, stored.chain.next_last last⟩

/-- A `struct DBuf` is a queue of bytes all along every run. -/
theorem dbufMachine_shows {m : DbufMemory} (ready : m.Ready) (es : List DbufEvent) :
    (dbufMachine.run (m, []) es).1.Shows (queueMachine.run ([], []) es).1 ∧
      (dbufMachine.run (m, []) es).2 = (queueMachine.run ([], []) es).2 := by
  have together : (dbufMachine.run (m, []) es).1.Holds (queueMachine.run ([], []) es).1 ∧
      (dbufMachine.run (m, []) es).2 = (queueMachine.run ([], []) es).2 := by
    apply Machine.run_related (R := fun (s : DbufMemory × List CStr) (q : CStr × List CStr) =>
      s.1.Holds q.1 ∧ s.2 = q.2) ?_ ⟨ready.holds, rfl⟩
    rintro ⟨m, outs⟩ ⟨xs, outs'⟩ e ⟨holds, same⟩
    obtain ⟨holds', out⟩ := e.run_holds holds
    exact ⟨holds', congrArg₂ (fun outs out => outs ++ [out]) same out⟩
  exact ⟨together.1.shows, together.2⟩

/-- The text lies in three blocks, of which the delete gives one back. -/
theorem dbuf_three_blocks :
    let m : DbufMemory :=
      { block := fun _ => DbufMemory.freshBlock, freeList := [0], nextBlock := 1, usedCount := 0
        dyn := { head := none, tail := none, length := 0 } }
    let es := [.put (lit "\r\nNICK a\r\nUSER " ++ List.replicate 2100 'x'), .put (lit "\r\nPING"),
      .getmsg 512, .delete 1500, .getmsg 2000]
    (dbufMachine.run (m, []) es).1.content = lit "PING" ∧
      (dbufMachine.run (m, []) es).2 =
        [[], [], lit "NICK a", [], List.replicate 605 'x'] := by
  intro m es
  have ready : m.Ready := ⟨rfl, by decide, by decide⟩
  obtain ⟨shows, outs⟩ := dbufMachine_shows ready es
  exact ⟨shows.content.trans (by decide +kernel), outs.trans (by decide +kernel)⟩

end Ircd
