import Ircd.Lib.EntryPool

/-! The table of the addresses that clients connect from, with how many there are of each.

The entries are allocated once, as many as there can be connections, and those that are not
in use are on a free list. The table is meant to be a function from addresses to counts:
`Counts` says which one, and each call changes it in one place.
-/

set_option autoImplicit false

namespace Ircd

abbrev IpAddr := BitVec 32

def ntohl (x : BitVec 32) : BitVec 32 :=
  x.extractLsb' 0 8 ++ x.extractLsb' 8 8 ++ x.extractLsb' 16 8 ++ x.extractLsb' 24 8

def ipHashSize : Nat := 0x1000

def hashIp (ip : IpAddr) : Nat :=
  let ip := (ntohl ip).toNat
  ((ip >>> 12) + ip) &&& (ipHashSize - 1)

theorem hashIp_lt (ip : IpAddr) : hashIp ip < ipHashSize :=
  Nat.and_lt_two_pow _ (by decide : ipHashSize - 1 < 2 ^ 12)

structure IpEntry where
  ip : IpAddr
  count : Nat
  deriving DecidableEq, Repr

structure IpHash where
  pool : EntryPool Nat Nat
  entry : Nat → IpEntry

namespace IpHash

variable (max : Nat)

/-- The loop of `clear_ip_hash_table`, with `left` entries to go behind `last`. -/
def linkEntries : Nat → Nat → (Nat → Option Nat) → Nat → Option Nat
  | 0, _, next => next
  | left + 1, last, next =>
    linkEntries left (last + 1)
      (Function.update (Function.update next last (some (last + 1))) (last + 1) none)

/-- `clear_ip_hash_table`, in a block with `garbage` in it. -/
def clearIpHashTable (garbage : Nat → Option Nat) (entry : Nat → IpEntry) : IpHash where
  pool :=
    { list := fun _ => none
      next := linkEntries (max - 1) 0 garbage
      free := some 0 }
  entry := entry

def search (t : IpHash) (ipIn : IpAddr) : Option Nat :=
  t.pool.find max (hashIp ipIn) fun ptr => ipIn == (t.entry ptr).ip

/-- `find_or_add_ip`; `none` where it runs out of entries and the server restarts. -/
def findOrAddIp (t : IpHash) (ipIn : IpAddr) : Option (IpHash × Nat) :=
  match t.search max ipIn with
  | some ptr => some (t, ptr)
  | none =>
    (t.pool.take (hashIp ipIn)).map fun (pool, ptr) =>
      ({ pool := pool, entry := Function.update t.entry ptr { ip := ipIn, count := 0 } }, ptr)

def setCount (t : IpHash) (ptr count : Nat) : IpHash :=
  { t with entry := Function.update t.entry ptr { t.entry ptr with count := count } }

def removeOneIp (t : IpHash) (ipIn : IpAddr) : IpHash :=
  match t.search max ipIn with
  | none => t
  | some ptr =>
    let t := if (t.entry ptr).count ≠ 0 then t.setCount ptr ((t.entry ptr).count - 1) else t
    if (t.entry ptr).count = 0 then { t with pool := t.pool.give max (hashIp ipIn) ptr } else t

def stored (t : IpHash) : List Nat :=
  (List.range ipHashSize).flatMap fun k => Chain.walk t.pool.next max (t.pool.list k)

def freeEntries (t : IpHash) : List Nat := Chain.walk t.pool.next max t.pool.free

def countOf (t : IpHash) (ip : IpAddr) : Nat :=
  ((t.search max ip).map fun ptr => (t.entry ptr).count).getD 0

structure Counts (t : IpHash) (owed : IpAddr → Nat) : Prop where
  count : ∀ ip, t.countOf max ip = owed ip
  positive : ∀ ptr ∈ t.stored max, (t.entry ptr).count ≠ 0
  pool : (t.stored max ++ t.freeEntries max).Perm (List.range max)

structure Holds (t : IpHash) (owed : IpAddr → Nat) (entries : List Nat) (chains : Nat → List Nat)
    (cells : List Nat) : Prop where
  pooled : t.pool.Pooled hashIp (fun ptr => (t.entry ptr).ip) (List.range max) entries chains cells
  count : ∀ ptr ∈ entries, (t.entry ptr).count = owed (t.entry ptr).ip
  positive : ∀ ptr ∈ entries, owed (t.entry ptr).ip ≠ 0
  listed : ∀ ip, owed ip ≠ 0 → ∃ ptr ∈ entries, (t.entry ptr).ip = ip
  distinct : ChainTable.Distinct (· == ·) (fun ptr => (t.entry ptr).ip) entries

def addresses : Naming IpAddr Nat where
  same := (· == ·)
  refl := fun _ => beq_self_eq_true _
  symm := fun same => by rwa [beq_iff_eq, eq_comm, ← beq_iff_eq]
  trans := fun same same' => by
    rw [beq_iff_eq] at same same' ⊢
    exact same.trans same'
  hash := hashIp
  congr := fun same => congrArg hashIp (eq_of_beq same)

variable {max} {t : IpHash} {owed : IpAddr → Nat} {entries : List Nat} {chains : Nat → List Nat}
  {cells : List Nat} {ip : IpAddr} {ptr : Nat}

namespace Holds

theorem entries_le (h : t.Holds max owed entries chains cells) : entries.length ≤ max := by
  have short := h.pooled.length_le
  rwa [List.length_range] at short

theorem search_iff (h : t.Holds max owed entries chains cells) :
    t.search max ip = some ptr ↔ ptr ∈ entries ∧ (t.entry ptr).ip = ip := by
  have found := @ChainTable.Files.find_iff _ _ _ t.pool.toChainTable ptr max
    (fun ptr => (t.entry ptr).ip) entries chains addresses h.pooled.files h.distinct h.entries_le ip
  have same : addresses.same ip (t.entry ptr).ip = true ↔ (t.entry ptr).ip = ip := by
    show (ip == (t.entry ptr).ip) = true ↔ _
    rw [beq_iff_eq, eq_comm]
  rwa [same] at found

theorem search_none (h : t.Holds max owed entries chains cells) :
    t.search max ip = none ↔ owed ip = 0 := by
  constructor
  · intro missing
    by_contra some_
    obtain ⟨ptr, inside, same⟩ := h.listed ip some_
    have found := h.search_iff.2 ⟨inside, same⟩
    rw [missing] at found
    cases found
  · intro zero
    cases found : t.search max ip with
    | none => rfl
    | some ptr =>
      obtain ⟨inside, rfl⟩ := h.search_iff.1 found
      exact absurd zero (h.positive ptr inside)

theorem countOf_eq (h : t.Holds max owed entries chains cells) (ip : IpAddr) :
    t.countOf max ip = owed ip := by
  unfold countOf
  cases found : t.search max ip with
  | none => exact (h.search_none.1 found).symm
  | some ptr =>
    obtain ⟨inside, rfl⟩ := h.search_iff.1 found
    exact h.count ptr inside

theorem stored_perm (h : t.Holds max owed entries chains cells) :
    (t.stored max).Perm entries := by
  have walked : ∀ k, Chain.walk t.pool.next max (t.pool.list k) = chains k := fun k =>
    (h.pooled.files.linked k).walk_eq (Nat.le_trans (h.pooled.files.length_le k) h.entries_le)
  unfold stored
  simp only [walked]
  apply (List.perm_ext_iff_of_nodup ?_ h.pooled.entries_nodup).2
  · intro ptr
    rw [List.mem_flatMap]
    constructor
    · rintro ⟨k, -, inside⟩
      exact ((h.pooled.files.filed k ptr).1 inside).1
    · intro inside
      exact ⟨hashIp (t.entry ptr).ip, List.mem_range.2 (hashIp_lt _),
        (h.pooled.files.filed _ ptr).2 ⟨inside, rfl⟩⟩
  · rw [List.nodup_flatMap]
    refine ⟨fun k _ => h.pooled.files.nodup k, List.nodup_range.imp fun {k k'} other => ?_⟩
    intro ptr inside also
    have under := ((h.pooled.files.filed k ptr).1 inside).2
    have under' := ((h.pooled.files.filed k' ptr).1 also).2
    exact other (under.symm.trans under')

theorem counts (h : t.Holds max owed entries chains cells) : t.Counts max owed where
  count := h.countOf_eq
  positive := by
    intro ptr inside
    have inside := h.stored_perm.subset inside
    rw [h.count ptr inside]
    exact h.positive ptr inside
  pool := by
    have fits : cells.length ≤ max := by
      have sum := h.pooled.perm.length_eq
      rw [List.length_append, List.length_range] at sum
      omega
    rw [freeEntries, h.pooled.free.walk_eq fits]
    exact (h.stored_perm.append_right cells).trans h.pooled.perm

end Holds

theorem linked_linkEntries {left last : Nat} {next : Nat → Option Nat}
    (linked : Chain.Linked next (some 0) (List.range (last + 1))) :
    Chain.Linked (linkEntries left last next) (some 0) (List.range (last + 1 + left)) := by
  induction left generalizing last next with
  | zero => exact linked
  | succ left ih =>
    have fresh : last + 1 ∉ List.range (last + 1) := List.not_mem_range_self
    have cleared := linked.update fresh none
    have ends : (List.range (last + 1)).getLast? = some last := by
      rw [List.range_succ, List.getLast?_append_cons]
      rfl
    have longer := cleared.snoc List.nodup_range ends fresh (Function.update_self ..)
    rw [← List.range_succ, Function.update_comm (by omega : last + 1 ≠ last)] at longer
    have whole := ih longer
    rwa [show last + 1 + 1 + left = last + 1 + (left + 1) by omega] at whole

theorem holds_clear (two : 2 ≤ max) (garbage : Nat → Option Nat) (entry : Nat → IpEntry) :
    (clearIpHashTable max garbage entry).Holds max (fun _ => 0) [] (fun _ => [])
      (List.range max) where
  pooled :=
    { files :=
        { linked := fun _ => rfl
          nodup := fun _ => .nil
          filed := fun _ _ => by simp }
      free := by
        obtain ⟨left, rfl⟩ : ∃ left, max = left + 2 := ⟨max - 2, by omega⟩
        have first : Chain.Linked
            (Function.update (Function.update garbage 0 (some 1)) 1 none) (some 0)
            (List.range 2) := by
          refine ⟨rfl, ?_⟩
          rw [Function.update_of_ne (by decide), Function.update_self]
          exact ⟨rfl, Function.update_self ..⟩
        have whole := @linked_linkEntries left 1 _ first
        rwa [show 1 + 1 + left = left + 2 by omega] at whole
      once := List.nodup_range
      perm := List.Perm.refl _ }
  count := fun _ absurdity => by cases absurdity
  positive := fun _ absurdity => by cases absurdity
  listed := fun _ some_ => absurd rfl some_
  distinct := fun _ absurdity => by cases absurdity

namespace Holds

/-- The count of an entry is written, and what is owed for its address with it. -/
theorem setCount (h : t.Holds max owed entries chains cells) (inside : ptr ∈ entries) {n : Nat}
    (some_ : n ≠ 0) :
    (t.setCount ptr n).Holds max (Function.update owed (t.entry ptr).ip n) entries chains
      cells := by
  have ips : ∀ b, ((t.setCount ptr n).entry b).ip = (t.entry b).ip := by
    intro b
    by_cases same : b = ptr
    · subst same
      simp [IpHash.setCount]
    · simp [IpHash.setCount, same]
  have other : ∀ b ∈ entries, b ≠ ptr → (t.entry b).ip ≠ (t.entry ptr).ip := by
    intro b also apart same
    exact apart (h.distinct b also ptr inside (beq_iff_eq.2 same))
  constructor
  · exact h.pooled.congr fun b _ => ips b
  · intro b also
    rw [ips]
    by_cases same : b = ptr
    · subst same
      simp [IpHash.setCount]
    · rw [Function.update_of_ne (other b also same)]
      simp only [IpHash.setCount, Function.update_of_ne same]
      exact h.count b also
  · intro b also
    rw [ips]
    by_cases same : b = ptr
    · subst same
      simpa using some_
    · rw [Function.update_of_ne (other b also same)]
      exact h.positive b also
  · intro ip owes
    by_cases same : ip = (t.entry ptr).ip
    · exact ⟨ptr, inside, (ips ptr).trans same.symm⟩
    · rw [Function.update_of_ne same] at owes
      obtain ⟨b, also, named⟩ := h.listed ip owes
      exact ⟨b, also, (ips b).trans named⟩
  · intro a also b also' same
    simp only [ips] at same
    exact h.distinct a also b also' same

theorem addEntry (h : t.Holds max owed entries chains (ptr :: cells)) (zero : owed ip = 0)
    {n : Nat} (some_ : n ≠ 0) :
    ∃ pool, t.pool.take (hashIp ip) = some (pool, ptr) ∧
      ∃ chains', IpHash.Holds max
        { pool := pool, entry := Function.update t.entry ptr { ip := ip, count := n } }
        (Function.update owed ip n) (ptr :: entries) chains' cells := by
  obtain ⟨taken, chains', pooled⟩ := h.pooled.take ip
  have fresh : ptr ∉ entries := h.pooled.apart List.mem_cons_self
  have apart : ∀ b ∈ entries, b ≠ ptr := by
    rintro b inside rfl
    exact fresh inside
  -- no entry owes for this address yet
  have other : ∀ b ∈ entries, (t.entry b).ip ≠ ip := by
    rintro b inside rfl
    exact h.positive b inside zero
  -- the new entry carries the address, the others carry theirs
  have names : (fun b => (Function.update t.entry ptr { ip := ip, count := n } b).ip) =
      Function.update (fun b => (t.entry b).ip) ptr ip := by
    funext b
    by_cases same : b = ptr
    · subst same
      simp
    · simp [same]
  refine ⟨_, taken, chains', ?_, ?_, ?_, ?_, ?_⟩
  · rw [← names] at pooled
    exact pooled
  · intro b inside
    rcases List.mem_cons.1 inside with rfl | inside
    · simp
    · simp only [Function.update_of_ne (apart b inside), Function.update_of_ne (other b inside)]
      exact h.count b inside
  · intro b inside
    rcases List.mem_cons.1 inside with rfl | inside
    · simpa using some_
    · simp only [Function.update_of_ne (apart b inside), Function.update_of_ne (other b inside)]
      exact h.positive b inside
  · intro x owes
    by_cases same : x = ip
    · exact ⟨ptr, List.mem_cons_self, by simp [same]⟩
    · rw [Function.update_of_ne same] at owes
      obtain ⟨b, inside, named⟩ := h.listed x owes
      refine ⟨b, List.mem_cons_of_mem _ inside, ?_⟩
      simp only [Function.update_of_ne (apart b inside)]
      exact named
  · intro a inside b inside' same
    rw [beq_iff_eq] at same
    rcases List.mem_cons.1 inside with first | first
    · rcases List.mem_cons.1 inside' with second | second
      · rw [first, second]
      · simp only [first, Function.update_self, Function.update_of_ne (apart b second)] at same
        exact absurd same.symm (other b second)
    · rcases List.mem_cons.1 inside' with second | second
      · simp only [second, Function.update_self, Function.update_of_ne (apart a first)] at same
        exact absurd same (other a first)
      · simp only [Function.update_of_ne (apart a first),
          Function.update_of_ne (apart b second)] at same
        exact h.distinct a first b second (beq_iff_eq.2 same)

theorem added (h : t.Holds max owed entries chains cells) (room : owed ip ≠ 0 ∨ cells ≠ []) :
    ∃ t' ptr, t.findOrAddIp max ip = some (t', ptr) ∧ (t'.entry ptr).count = owed ip ∧
      ∃ entries' chains' cells', (t'.setCount ptr (owed ip + 1)).Holds max
        (Function.update owed ip (owed ip + 1)) entries' chains' cells' := by
  unfold findOrAddIp
  cases found : t.search max ip with
  | some ptr =>
    obtain ⟨inside, rfl⟩ := h.search_iff.1 found
    exact ⟨t, ptr, rfl, h.count ptr inside, _, _, _, h.setCount inside (Nat.succ_ne_zero _)⟩
  | none =>
    have zero := h.search_none.1 found
    cases cells with
    | nil => exact absurd zero (room.resolve_right fun some_ => some_ rfl)
    | cons ptr cells =>
      obtain ⟨pool, taken, chains', holds⟩ := h.addEntry zero (Nat.succ_ne_zero (owed ip))
      refine ⟨_, ptr, by rw [taken]; rfl, by simp [zero], ptr :: entries, chains', cells, ?_⟩
      simpa [IpHash.setCount] using holds

theorem dropEntry (h : t.Holds max owed entries chains cells) (inside : ptr ∈ entries)
    (entry : Nat → IpEntry) (same : ∀ b, (entry b).ip = (t.entry b).ip)
    (kept : ∀ b, b ≠ ptr → entry b = t.entry b) :
    ∃ chains', IpHash.Holds max
      { pool := t.pool.give max (hashIp (t.entry ptr).ip) ptr, entry := entry }
      (Function.update owed (t.entry ptr).ip 0) (entries.erase ptr) chains' (ptr :: cells) := by
  obtain ⟨chains', pooled⟩ := h.pooled.give inside (Nat.le_of_eq List.length_range)
  have left : ∀ b, b ∈ entries.erase ptr ↔ b ≠ ptr ∧ b ∈ entries :=
    fun b => h.pooled.entries_nodup.mem_erase_iff
  -- one entry an address, so the others keep what they owe
  have other : ∀ b ∈ entries.erase ptr, (t.entry b).ip ≠ (t.entry ptr).ip := by
    intro b also equal
    obtain ⟨apart, also⟩ := (left b).1 also
    exact apart (h.distinct b also ptr inside (beq_iff_eq.2 equal))
  refine ⟨chains', pooled.congr fun b _ => same b, ?_, ?_, ?_, ?_⟩
  · intro b also
    simp only [same, Function.update_of_ne (other b also)]
    rw [kept b ((left b).1 also).1]
    exact h.count b ((left b).1 also).2
  · intro b also
    simp only [same, Function.update_of_ne (other b also)]
    exact h.positive b ((left b).1 also).2
  · intro x owes
    by_cases equal : x = (t.entry ptr).ip
    · rw [equal, Function.update_self] at owes
      exact absurd rfl owes
    · rw [Function.update_of_ne equal] at owes
      obtain ⟨b, also, named⟩ := h.listed x owes
      have apart : b ≠ ptr := by
        rintro rfl
        exact equal named.symm
      exact ⟨b, (left b).2 ⟨apart, also⟩, (same b).trans named⟩
  · intro a also b also' equal
    simp only [same] at equal
    exact h.distinct a ((left a).1 also).2 b ((left b).1 also').2 equal

theorem removed (h : t.Holds max owed entries chains cells) (owes : owed ip ≠ 0) :
    ∃ entries' chains' cells', (t.removeOneIp max ip).Holds max
      (Function.update owed ip (owed ip - 1)) entries' chains' cells' := by
  unfold removeOneIp
  cases found : t.search max ip with
  | none => exact absurd (h.search_none.1 found) owes
  | some ptr =>
    obtain ⟨inside, rfl⟩ := h.search_iff.1 found
    have count := h.count ptr inside
    have some_ : (t.entry ptr).count ≠ 0 := by rwa [count]
    dsimp only
    rw [if_pos some_]
    have now : ((t.setCount ptr ((t.entry ptr).count - 1)).entry ptr).count =
        owed (t.entry ptr).ip - 1 := by
      simp [IpHash.setCount, count]
    rw [now]
    by_cases last : owed (t.entry ptr).ip - 1 = 0
    · rw [if_pos last, last]
      obtain ⟨chains', holds⟩ := h.dropEntry inside
        (t.setCount ptr ((t.entry ptr).count - 1)).entry (fun b => by
          by_cases same : b = ptr
          · subst same
            simp [IpHash.setCount]
          · simp [IpHash.setCount, same])
        fun b other => Function.update_of_ne other ..
      exact ⟨_, chains', _, holds⟩
    · rw [if_neg last, count]
      exact ⟨_, _, _, h.setCount inside last⟩

end Holds

end IpHash

end Ircd
