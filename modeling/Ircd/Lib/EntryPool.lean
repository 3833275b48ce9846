import Ircd.Lib.ChainTable

/-! Hash tables whose entries come from a pool of a fixed size.

An entry that is not in the table is on a free list, which runs through the same field as
the chains. `Pooled` says that the two together make up the pool.
-/

set_option autoImplicit false

structure EntryPool (K A : Type*) extends ChainTable K A where
  free : Option A

namespace ChainTable

open Chain

variable {K A N : Type*} [DecidableEq K] [DecidableEq A] {t : ChainTable K A} {hash : N → K}
  {name : A → N} {entries : List A} {chains : K → List A} {a b : A} {fuel : Nat}

def setNext (t : ChainTable K A) (a : A) (q : Option A) : ChainTable K A :=
  { t with next := Function.update t.next a q }

omit [DecidableEq K] in
theorem Files.setNext (h : t.Files hash name entries chains) (outside : a ∉ entries)
    (q : Option A) : (t.setNext a q).Files hash name entries chains where
  linked := fun k => (h.linked k).update (fun inside => outside ((h.filed k a).1 inside).1) q
  nodup := h.nodup
  filed := h.filed

theorem Files.del_next (h : t.Files hash name entries chains) (inside : a ∈ entries)
    (enough : entries.length ≤ fuel) (outside : b ∉ entries) :
    (t.del fuel (hash (name a)) a).next b = t.next b := by
  obtain ⟨mid, post, here⟩ := List.append_of_mem ((h.filed (hash (name a)) a).2 ⟨inside, rfl⟩)
  have once := h.nodup (hash (name a))
  have linked := h.linked (hash (name a))
  have short := h.length_le (hash (name a))
  rw [here] at once linked short
  have first : a ∉ mid := fun also =>
    (List.nodup_middle.1 once).notMem (List.mem_append_left _ also)
  have less : mid.length < fuel := by
    rw [List.length_append, List.length_cons] at short
    omega
  rw [ChainTable.del, delFrom_of_mem linked first less, Option.or_none]
  have other : b ≠ a := by
    rintro rfl
    exact outside inside
  simp only [ChainTable.unhook, Function.update_of_ne other]
  apply nextAfter_of_ne
  intro last
  have before : b ∈ chains (hash (name a)) := by
    rw [here]
    exact List.mem_append_left _ (List.mem_of_getLast? last)
  exact outside ((h.filed _ b).1 before).1

end ChainTable

namespace EntryPool

open Chain

variable {K A N : Type*} [DecidableEq K] [DecidableEq A]

/-- The first free entry, put in front of the chain of `k`. -/
def take (t : EntryPool K A) (k : K) : Option (EntryPool K A × A) :=
  t.free.map fun a => ({ toChainTable := t.add k a, free := t.next a }, a)

/-- An entry taken out of the chain of `k` and put in front of the free list. -/
def give (t : EntryPool K A) (fuel : Nat) (k : K) (a : A) : EntryPool K A where
  toChainTable := (t.del fuel k a).setNext a t.free
  free := some a

structure Pooled (t : EntryPool K A) (hash : N → K) (name : A → N) (pool entries : List A)
    (chains : K → List A) (cells : List A) : Prop where
  files : t.Files hash name entries chains
  free : Linked t.next t.free cells
  once : pool.Nodup
  perm : (entries ++ cells).Perm pool

variable {t : EntryPool K A} {hash : N → K} {name : A → N} {pool entries : List A}
  {chains : K → List A} {cells : List A} {a : A} {fuel : Nat}

namespace Pooled

omit [DecidableEq K] [DecidableEq A] in
theorem nodup (h : t.Pooled hash name pool entries chains cells) : (entries ++ cells).Nodup :=
  h.perm.nodup_iff.2 h.once

omit [DecidableEq K] [DecidableEq A] in
theorem entries_nodup (h : t.Pooled hash name pool entries chains cells) : entries.Nodup :=
  (List.nodup_append.1 h.nodup).1

omit [DecidableEq K] [DecidableEq A] in
theorem apart (h : t.Pooled hash name pool entries chains cells) {b : A} (inside : b ∈ cells) :
    b ∉ entries := fun also => (List.nodup_append.1 h.nodup).2.2 b also b inside rfl

omit [DecidableEq K] [DecidableEq A] in
theorem length_le (h : t.Pooled hash name pool entries chains cells) :
    entries.length ≤ pool.length := by
  rw [← h.perm.length_eq, List.length_append]
  exact Nat.le_add_right _ _

theorem take (h : t.Pooled hash name pool entries chains (a :: cells)) (n : N) :
    t.take (hash n) = some ({ toChainTable := t.add (hash n) a, free := t.next a }, a) ∧
      ∃ chains', EntryPool.Pooled { toChainTable := t.add (hash n) a, free := t.next a } hash
        (Function.update name a n) pool (a :: entries) chains' cells := by
  obtain ⟨start, rest⟩ := h.free
  have fresh : a ∉ entries := h.apart List.mem_cons_self
  have named : t.Files hash (Function.update name a n) entries chains := by
    refine h.files.congr (fun b inside => ?_) fun _ => Iff.rfl
    have other : b ≠ a := by
      rintro rfl
      exact fresh inside
    exact Function.update_of_ne other ..
  have added := named.add fresh
  rw [Function.update_self] at added
  have alone : a ∉ cells :=
    (List.nodup_cons.1 (List.nodup_append.1 h.nodup).2.1).1
  refine ⟨by rw [EntryPool.take, start]; rfl, _, added, rest.update alone _, h.once, ?_⟩
  exact List.perm_middle.symm.trans h.perm

theorem give (h : t.Pooled hash name pool entries chains cells) (inside : a ∈ entries)
    (enough : pool.length ≤ fuel) :
    ∃ chains', (t.give fuel (hash (name a)) a).Pooled hash name pool (entries.erase a) chains'
      (a :: cells) := by
  have short : entries.length ≤ fuel := Nat.le_trans h.length_le enough
  obtain ⟨chains', files⟩ := h.files.del h.entries_nodup short
  have gone : a ∉ entries.erase a := h.entries_nodup.not_mem_erase
  have alone : a ∉ cells := fun also => h.apart also inside
  refine ⟨chains', files.setNext gone _, ⟨rfl, ?_⟩, h.once, ?_⟩
  · show Linked (Function.update (t.del fuel (hash (name a)) a).next a t.free)
      (Function.update (t.del fuel (hash (name a)) a).next a t.free a) cells
    rw [Function.update_self]
    refine Linked.update (h.free.congr fun b also => ?_) alone _
    exact h.files.del_next inside short (h.apart also)
  · have moved : (entries.erase a ++ a :: cells).Perm (entries ++ cells) :=
      List.perm_middle.trans ((List.perm_cons_erase inside).symm.append_right cells)
    exact moved.trans h.perm

omit [DecidableEq K] [DecidableEq A] in
theorem congr (h : t.Pooled hash name pool entries chains cells) {name' : A → N}
    (same : ∀ b ∈ entries, name' b = name b) : t.Pooled hash name' pool entries chains cells :=
  { h with files := h.files.congr same fun _ => Iff.rfl }

end Pooled

end EntryPool
