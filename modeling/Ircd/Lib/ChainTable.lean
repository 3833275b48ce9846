import Ircd.Lib.Chain
import Mathlib.Data.List.Perm.Subperm

/-! Hash tables whose entries are chained through a field of their own.

An entry is put in front of the chain of its hash and is looked for by a walk along that
chain, so that a table that holds each entry under the hash of its name is a map from
names to entries.
-/

set_option autoImplicit false

structure ChainTable (K A : Type*) where
  list : K → Option A
  next : A → Option A

structure Naming (N K : Type*) where
  same : N → N → Bool
  refl : ∀ n, same n n
  symm : ∀ {n m}, same n m → same m n
  trans : ∀ {n m o}, same n m → same m o → same n o
  hash : N → K
  congr : ∀ {n m}, same n m → hash n = hash m

namespace ChainTable

open Chain

variable {K A N : Type*} [DecidableEq K] [DecidableEq A]

def empty : ChainTable K A := { list := fun _ => none, next := fun _ => none }

def add (t : ChainTable K A) (k : K) (a : A) : ChainTable K A where
  list := Function.update t.list k (some a)
  next := Function.update t.next a (t.list k)

/-- `a` out of the chain of `k`, where `prev` is the entry before it. -/
def unhook (t : ChainTable K A) (k : K) (prev : Option A) (a : A) : ChainTable K A where
  list := Function.update t.list k (headAfter (t.list k) prev (t.next a))
  next := Function.update (nextAfter t.next prev (t.next a)) a none

/-- The search for `a` from `tmp` on, in at most `fuel` steps. -/
def delFrom (t : ChainTable K A) (k : K) (a : A) : Nat → Option A → Option A → ChainTable K A
  | 0, _, _ => t
  | _ + 1, _, none => t
  | fuel + 1, prev, some tmp =>
    if tmp = a then t.unhook k prev a else t.delFrom k a fuel (some tmp) (t.next tmp)

def del (t : ChainTable K A) (fuel : Nat) (k : K) (a : A) : ChainTable K A :=
  t.delFrom k a fuel none (t.list k)

omit [DecidableEq K] [DecidableEq A] in
/-- The first entry on the chain of `k` that `p` accepts. -/
def find (t : ChainTable K A) (fuel : Nat) (k : K) (p : A → Bool) : Option A :=
  (walk t.next fuel (t.list k)).find? p

def clear (t : ChainTable K A) (a : A) : ChainTable K A :=
  { t with next := Function.update t.next a none }

variable {t : ChainTable K A} {k : K} {a : A} {prev p : Option A} {fuel : Nat}

theorem delFrom_of_notMem {rest : List A} (h : Linked t.next p rest) (outside : a ∉ rest) :
    t.delFrom k a fuel prev p = t := by
  induction rest generalizing p prev fuel with
  | nil =>
    cases h
    cases fuel <;> rfl
  | cons b rest ih =>
    obtain ⟨rfl, behind⟩ := h
    obtain ⟨other, outside⟩ := List.ne_and_not_mem_of_not_mem_cons outside
    cases fuel with
    | zero => rfl
    | succ fuel => rw [delFrom, if_neg other.symm, ih behind outside]

theorem delFrom_of_mem {mid post : List A} (h : Linked t.next p (mid ++ a :: post))
    (first : a ∉ mid) (enough : mid.length < fuel) :
    t.delFrom k a fuel prev p = t.unhook k (mid.getLast?.or prev) a := by
  induction mid generalizing p prev fuel with
  | nil =>
    obtain ⟨rfl, _⟩ := h
    cases fuel with
    | zero => cases enough
    | succ fuel =>
      rw [delFrom, if_pos rfl]
      rfl
  | cons b mid ih =>
    obtain ⟨rfl, behind⟩ := h
    obtain ⟨other, first⟩ := List.ne_and_not_mem_of_not_mem_cons first
    cases fuel with
    | zero => cases enough
    | succ fuel =>
      rw [delFrom, if_neg other.symm, ih behind first (Nat.lt_of_succ_lt_succ enough)]
      cases mid with
      | nil => rfl
      | cons c mid => rw [List.getLast?_cons_cons, List.getLast?_cons]; rfl

theorem length_le_of_lt {list : List Nat} {bound : Nat} (once : list.Nodup)
    (below : ∀ a ∈ list, a < bound) : list.length ≤ bound := by
  have short := (List.subperm_of_subset once fun a inside =>
    List.mem_range.2 (below a inside)).length_le
  rwa [List.length_range] at short

structure Files (t : ChainTable K A) (hash : N → K) (name : A → N) (entries : List A)
    (chains : K → List A) : Prop where
  linked : ∀ k, Linked t.next (t.list k) (chains k)
  nodup : ∀ k, (chains k).Nodup
  filed : ∀ k a, a ∈ chains k ↔ a ∈ entries ∧ hash (name a) = k

variable {hash : N → K} {name name' : A → N} {entries entries' : List A} {chains : K → List A}

omit [DecidableEq K] [DecidableEq A] in
theorem Files.empty : (ChainTable.empty : ChainTable K A).Files hash name [] fun _ => [] where
  linked := fun _ => rfl
  nodup := fun _ => .nil
  filed := fun _ _ => by simp

omit [DecidableEq K] [DecidableEq A] in
theorem Files.congr (h : t.Files hash name entries chains) (same : ∀ a ∈ entries, name' a = name a)
    (members : ∀ a, a ∈ entries' ↔ a ∈ entries) : t.Files hash name' entries' chains where
  linked := h.linked
  nodup := h.nodup
  filed := fun k a => by
    rw [h.filed, members]
    exact and_congr_right fun inside => by rw [same a inside]

omit [DecidableEq K] in
theorem Files.clear (h : t.Files hash name entries chains) (outside : a ∉ entries) :
    (t.clear a).Files hash name entries chains where
  linked := fun k => (h.linked k).update (fun inside => outside ((h.filed k a).1 inside).1) none
  nodup := h.nodup
  filed := h.filed

theorem Files.add (h : t.Files hash name entries chains) (fresh : a ∉ entries) :
    (t.add (hash (name a)) a).Files hash name (a :: entries)
      (Function.update chains (hash (name a)) (a :: chains (hash (name a)))) where
  linked := fun k => by
    have outside : a ∉ chains k := fun inside => fresh ((h.filed k a).1 inside).1
    by_cases same : k = hash (name a)
    · subst same
      simp only [ChainTable.add, Function.update_self]
      exact ⟨rfl, by rw [Function.update_self]; exact (h.linked _).update outside _⟩
    · simp only [ChainTable.add, Function.update_of_ne same]
      exact (h.linked k).update outside _
  nodup := fun k => by
    by_cases same : k = hash (name a)
    · subst same
      rw [Function.update_self]
      exact List.nodup_cons.2 ⟨fun inside => fresh ((h.filed _ a).1 inside).1, h.nodup _⟩
    · rw [Function.update_of_ne same]
      exact h.nodup k
  filed := fun k b => by
    by_cases same : k = hash (name a)
    · subst same
      rw [Function.update_self, List.mem_cons, List.mem_cons, h.filed]
      by_cases this : b = a
      · simp [this]
      · simp [this]
    · rw [Function.update_of_ne same, List.mem_cons, h.filed]
      by_cases this : b = a
      · subst this
        simp [fresh, Ne.symm same]
      · simp [this]

theorem Files.unhook (h : t.Files hash name entries chains) {mid post : List A}
    (here : chains (hash (name a)) = mid ++ a :: post) (nodup : entries.Nodup) :
    (t.unhook (hash (name a)) mid.getLast? a).Files hash name (entries.erase a)
      (Function.update chains (hash (name a)) (mid ++ post)) := by
  have once := h.nodup (hash (name a))
  have linked := h.linked (hash (name a))
  rw [here] at once linked
  have gone : a ∉ mid ++ post := (List.nodup_middle.1 once).notMem
  -- an entry is in one chain, so unlinking it leaves the others alone
  have only : ∀ k b, b ∈ chains k → b ∈ mid ++ a :: post → k = hash (name a) := by
    intro k b inside also
    rw [← here] at also
    exact ((h.filed k b).1 inside).2.symm.trans ((h.filed _ b).1 also).2
  constructor
  · intro k
    by_cases same : k = hash (name a)
    · subst same
      simp only [ChainTable.unhook, Function.update_self]
      exact (linked.unlink once).update gone none
    · simp only [ChainTable.unhook, Function.update_of_ne same]
      have outside : a ∉ chains k := fun inside =>
        same (only k a inside (List.mem_append_right _ List.mem_cons_self))
      refine Linked.update ((h.linked k).congr fun b inside => ?_) outside none
      refine nextAfter_of_ne fun last => same (only k b inside ?_)
      exact List.mem_append_left _ (List.mem_of_getLast? last)
  · intro k
    by_cases same : k = hash (name a)
    · subst same
      rw [Function.update_self]
      exact (List.nodup_middle.1 once).of_cons
    · rw [Function.update_of_ne same]
      exact h.nodup k
  · intro k b
    rw [nodup.mem_erase_iff]
    by_cases same : k = hash (name a)
    · subst same
      rw [Function.update_self]
      constructor
      · intro inside
        have was : b ∈ chains (hash (name a)) := by
          rw [here, List.mem_append, List.mem_cons]
          exact (List.mem_append.1 inside).imp id .inr
        have other : b ≠ a := fun equal => gone (equal ▸ inside)
        exact ⟨⟨other, ((h.filed _ b).1 was).1⟩, ((h.filed _ b).1 was).2⟩
      · rintro ⟨⟨other, inside⟩, under⟩
        have was := (h.filed _ b).2 ⟨inside, under⟩
        rw [here, List.mem_append, List.mem_cons] at was
        rw [List.mem_append]
        exact was.imp id fun h => h.resolve_left other
    · rw [Function.update_of_ne same, h.filed]
      constructor
      · rintro ⟨inside, under⟩
        refine ⟨⟨?_, inside⟩, under⟩
        rintro rfl
        exact same under.symm
      · rintro ⟨⟨_, inside⟩, under⟩
        exact ⟨inside, under⟩

omit [DecidableEq K] [DecidableEq A] in
theorem Files.length_le (h : t.Files hash name entries chains) (k : K) :
    (chains k).length ≤ entries.length :=
  (List.subperm_of_subset (h.nodup k) fun a inside => ((h.filed k a).1 inside).1).length_le

theorem Files.del (h : t.Files hash name entries chains) (nodup : entries.Nodup)
    (enough : entries.length ≤ fuel) :
    ∃ chains', (t.del fuel (hash (name a)) a).Files hash name (entries.erase a) chains' := by
  by_cases inside : a ∈ entries
  · obtain ⟨mid, post, here⟩ := List.append_of_mem ((h.filed (hash (name a)) a).2 ⟨inside, rfl⟩)
    have once := h.nodup (hash (name a))
    have linked := h.linked (hash (name a))
    have short := h.length_le (hash (name a))
    rw [here] at once linked short
    have first : a ∉ mid := fun also =>
      (List.nodup_middle.1 once).notMem (List.mem_append_left _ also)
    have less : mid.length < fuel := by
      rw [List.length_append, List.length_cons] at short
      omega
    have found : t.del fuel (hash (name a)) a = t.unhook (hash (name a)) mid.getLast? a := by
      rw [ChainTable.del, delFrom_of_mem linked first less, Option.or_none]
    exact ⟨_, found ▸ h.unhook here nodup⟩
  · refine ⟨chains, ?_⟩
    have outside : a ∉ chains (hash (name a)) := fun also => inside ((h.filed _ a).1 also).1
    rw [ChainTable.del, delFrom_of_notMem (h.linked _) outside, List.erase_of_not_mem inside]
    exact h

omit [DecidableEq K] [DecidableEq A] in
theorem Files.find_eq (h : t.Files hash name entries chains) (enough : entries.length ≤ fuel)
    (q : A → Bool) : t.find fuel k q = (chains k).find? q := by
  rw [ChainTable.find, (h.linked k).walk_eq (Nat.le_trans (h.length_le k) enough)]

def Distinct (same : N → N → Bool) (name : A → N) (entries : List A) : Prop :=
  ∀ a ∈ entries, ∀ b ∈ entries, same (name a) (name b) → a = b

omit [DecidableEq K] [DecidableEq A] in
theorem Files.find_iff {naming : Naming N K} (h : t.Files naming.hash name entries chains)
    (distinct : Distinct naming.same name entries) (enough : entries.length ≤ fuel) {n : N} :
    t.find fuel (naming.hash n) (fun b => naming.same n (name b)) = some a ↔
      a ∈ entries ∧ naming.same n (name a) := by
  rw [h.find_eq enough]
  constructor
  · intro found
    have inside := List.mem_of_find?_eq_some found
    have equal := List.find?_some found
    exact ⟨((h.filed _ a).1 inside).1, equal⟩
  · rintro ⟨inside, equal⟩
    have here := (h.filed (naming.hash n) a).2 ⟨inside, (naming.congr equal).symm⟩
    cases found : (chains (naming.hash n)).find? fun b => naming.same n (name b) with
    | none => exact absurd equal (List.find?_eq_none.1 found a here)
    | some b =>
      have also := ((h.filed _ b).1 (List.mem_of_find?_eq_some found)).1
      have equal' := List.find?_some found
      rw [distinct b also a inside (naming.trans (naming.symm equal') equal)]

end ChainTable
