import Ircd.Conf.Address
import Ircd.Conf.Subtree
import Ircd.Text.Mask
import Mathlib.Logic.Function.Basic

/-! The tables of `dline_conf.c`: 256 trees, one for each first octet, and beside each an
oracle that has the bits of the addresses in it.
-/

set_option autoImplicit false

namespace Ircd

/-- The fields of a `struct ConfItem` that the tables of bans and I-lines read. -/
structure ConfItem where
  /-- `status & CONF_CLIENT`. -/
  client : Bool
  /-- `status & CONF_KILL`. -/
  kill : Bool
  /-- `flags & CONF_FLAGS_E_LINED`. -/
  eLined : Bool
  ip : Nat
  ipMask : Nat
  host : CStr
  user : CStr
  deriving DecidableEq, Repr

def ConfItem.covers (a : ConfItem) (ip : Nat) : Prop := ip &&& a.ipMask = a.ip &&& a.ipMask

instance (a : ConfItem) (ip : Nat) : Decidable (a.covers ip) :=
  inferInstanceAs (Decidable (_ = _))

structure IpTable where
  tree : Nat → IpSubtree ConfItem
  oracle : Nat → Nat

namespace IpTable

def empty : IpTable := { tree := fun _ => .null, oracle := fun _ => 0 }

def bucket (ip : Nat) : Nat := ip / 2 ^ 24

def setTree (t : IpTable) (b : Nat) (tree : IpSubtree ConfItem) : IpTable :=
  { t with tree := Function.update t.tree b tree }

/-- `oracle[ip >> 24] |= (0xffffffff - mask) + ip`. -/
def consult (t : IpTable) (ip mask : Nat) : IpTable :=
  let bits := t.oracle (bucket ip) ||| (2 ^ 32 - 1 - mask + ip)
  { t with oracle := Function.update t.oracle (bucket ip) bits }

def find (t : IpTable) (ip : Nat) : Option (IpNode ConfItem) := (t.tree (bucket ip)).find ip

/-- The entries of the nodes that `delete_ip_subtree` takes out, and the table without them. -/
def gather (t : IpTable) (rand : Nat → Bool) (ip mask : Nat) : IpTable × List ConfItem :=
  let (tree, d) := (t.tree (bucket ip)).delete rand (ip &&& mask) mask { clist := [], calls := 0 }
  (t.setTree (bucket ip) tree, d.clist)

def gatherDrops (t : IpTable) (rand : Nat → Bool) (ip mask : Nat) : Bool :=
  (t.tree (bucket ip)).deleteDrops rand (ip &&& mask) mask { clist := [], calls := 0 }

def place (t : IpTable) (ip mask : Nat) (clist : List ConfItem) : IpTable :=
  t.setTree (bucket ip) ((t.tree (bucket ip)).insert (newIpSubtree ip mask clist))

def change (t : IpTable) (ip : Nat) (f : List ConfItem → List ConfItem) : IpTable :=
  t.setTree (bucket ip) ((t.tree (bucket ip)).change ip f)

def Holds (t : IpTable) (n : IpNode ConfItem) : Prop := ∃ b, n ∈ (t.tree b).toList

structure Narrow (ip mask : Nat) : Prop where
  aligned : Dyadic.Aligned 32 ip mask
  fine : 2 ^ 32 - 2 ^ 24 ≤ mask

structure Filed (t : IpTable) : Prop where
  ordered : ∀ b, (t.tree b).Ordered
  narrow : ∀ n, t.Holds n → Narrow n.ip n.ipMask
  octet : ∀ b, ∀ n ∈ (t.tree b).toList, bucket n.ip = b

variable {t : IpTable}

/-- What `is_address` makes of an address and a prefix length is aligned once it is masked. -/
theorem aligned_of_masked {ip mask : Nat} (made : ∃ bits, bits ≤ 32 ∧ mask = cidrToBitmask bits)
    (masked : ip &&& mask = ip) : Dyadic.Aligned 32 ip mask := by
  obtain ⟨bits, short, rfl⟩ := made
  have small : ip < 2 ^ 32 := by
    have below : ip &&& cidrToBitmask bits ≤ cidrToBitmask bits := Nat.and_le_right
    have pos := Nat.two_pow_pos (32 - bits)
    rw [masked, cidrToBitmask] at below
    omega
  have aligned := Dyadic.aligned_and (show 32 - bits ≤ 32 by omega) small
  rwa [← cidrToBitmask, masked] at aligned

theorem Narrow.mask_lt {ip mask : Nat} (h : Narrow ip mask) : mask < 2 ^ 32 := by
  obtain ⟨k, hk, mask, -⟩ := h.aligned.mask
  have pos := Nat.two_pow_pos k
  omega

theorem filed_empty : Filed empty where
  ordered := fun _ => ⟨fun _ inside => absurd inside List.not_mem_nil, List.Pairwise.nil⟩
  narrow := by
    rintro n ⟨b, inside⟩
    exact absurd inside List.not_mem_nil
  octet := fun _ _ inside => absurd inside List.not_mem_nil

theorem Narrow.bucket_eq {ip mask x : Nat} (h : Narrow ip mask) (hx : x < 2 ^ 32)
    (inside : x &&& mask = ip) : bucket x = bucket ip :=
  Dyadic.div_eq_of_covers h.aligned hx inside (by decide) h.fine

theorem Filed.mem (h : Filed t) {n : IpNode ConfItem} (held : t.Holds n) :
    n ∈ (t.tree (bucket n.ip)).toList := by
  obtain ⟨b, inside⟩ := held
  rwa [h.octet b n inside]

theorem Filed.mem_of_covers (h : Filed t) {n : IpNode ConfItem} (held : t.Holds n) {x : Nat}
    (hx : x < 2 ^ 32) (covered : n.covers x) : n ∈ (t.tree (bucket x)).toList := by
  rw [(h.narrow n held).bucket_eq hx covered]
  exact h.mem held

theorem find_eq_some_iff (h : Filed t) {x : Nat} (hx : x < 2 ^ 32) (n : IpNode ConfItem) :
    t.find x = some n ↔ t.Holds n ∧ n.covers x := by
  rw [find, IpSubtree.find_eq_some_iff (h.ordered _) hx]
  constructor
  · exact fun found => ⟨⟨_, found.1⟩, found.2⟩
  · exact fun found => ⟨h.mem_of_covers found.1 hx found.2, found.2⟩

theorem find_eq_none_iff (h : Filed t) {x : Nat} (hx : x < 2 ^ 32) :
    t.find x = none ↔ ∀ n, t.Holds n → ¬ n.covers x := by
  constructor
  · intro absent n held covered
    rw [(find_eq_some_iff h hx n).2 ⟨held, covered⟩] at absent
    cases absent
  · intro none
    cases found : t.find x with
    | none => rfl
    | some n =>
      obtain ⟨held, covered⟩ := (find_eq_some_iff h hx n).1 found
      exact absurd covered (none n held)

theorem Filed.unique (h : Filed t) {x : Nat} (hx : x < 2 ^ 32) {n n' : IpNode ConfItem}
    (held : t.Holds n) (held' : t.Holds n') (covered : n.covers x) (covered' : n'.covers x) :
    n = n' := by
  have found := (find_eq_some_iff h hx n).2 ⟨held, covered⟩
  have found' := (find_eq_some_iff h hx n').2 ⟨held', covered'⟩
  exact Option.some.inj (found.symm.trans found')

@[simp] theorem setTree_tree_self (t : IpTable) (b : Nat) (tree : IpSubtree ConfItem) :
    (t.setTree b tree).tree b = tree := Function.update_self ..

theorem setTree_tree_other (t : IpTable) {b b' : Nat} (tree : IpSubtree ConfItem) (other : b' ≠ b) :
    (t.setTree b tree).tree b' = t.tree b' := Function.update_of_ne other ..

@[simp] theorem setTree_oracle (t : IpTable) (b : Nat) (tree : IpSubtree ConfItem) :
    (t.setTree b tree).oracle = t.oracle := rfl

@[simp] theorem consult_tree (t : IpTable) (ip mask : Nat) : (t.consult ip mask).tree = t.tree := rfl

@[simp] theorem holds_consult (t : IpTable) (ip mask : Nat) (n : IpNode ConfItem) :
    (t.consult ip mask).Holds n ↔ t.Holds n := Iff.rfl

theorem filed_consult (h : Filed t) (ip mask : Nat) : Filed (t.consult ip mask) :=
  ⟨h.ordered, h.narrow, h.octet⟩

theorem holds_setTree (h : Filed t) {b : Nat} {tree : IpSubtree ConfItem} (n : IpNode ConfItem) :
    (t.setTree b tree).Holds n ↔ n ∈ tree.toList ∨ t.Holds n ∧ bucket n.ip ≠ b := by
  constructor
  · rintro ⟨b', inside⟩
    by_cases here : b' = b
    · rw [here, setTree_tree_self] at inside
      exact Or.inl inside
    · rw [setTree_tree_other t tree here] at inside
      refine Or.inr ⟨⟨b', inside⟩, ?_⟩
      rwa [h.octet b' n inside]
  · rintro (inside | ⟨held, other⟩)
    · exact ⟨b, by rwa [setTree_tree_self]⟩
    · refine ⟨bucket n.ip, ?_⟩
      rw [setTree_tree_other t tree other]
      exact h.mem held

theorem filed_setTree (h : Filed t) {b : Nat} {tree : IpSubtree ConfItem} (ordered : tree.Ordered)
    (narrow : ∀ n ∈ tree.toList, Narrow n.ip n.ipMask ∧ bucket n.ip = b) :
    Filed (t.setTree b tree) where
  ordered := by
    intro b'
    by_cases here : b' = b
    · rwa [here, setTree_tree_self]
    · rw [setTree_tree_other t tree here]
      exact h.ordered b'
  narrow := by
    intro n held
    cases (holds_setTree h n).1 held with
    | inl inside => exact (narrow n inside).1
    | inr old => exact h.narrow n old.1
  octet := by
    intro b' n inside
    by_cases here : b' = b
    · rw [here, setTree_tree_self] at inside
      rw [here]
      exact (narrow n inside).2
    · rw [setTree_tree_other t tree here] at inside
      exact h.octet b' n inside

def Within (n : IpNode ConfItem) (ip mask : Nat) : Prop := n.ip &&& mask = ip ∧ mask ≤ n.ipMask

theorem removes_iff (n : IpNode ConfItem) (ip mask : Nat) :
    IpSubtree.removes ip mask n = true ↔ Within n ip mask := by
  simp [IpSubtree.removes, Within]

section
variable {ip mask : Nat}

/-- A gathering that loses nothing takes out the nodes in the range and keeps the others. -/
theorem holds_gather (h : Filed t) (range : Narrow ip mask) {rand : Nat → Bool}
    (whole : t.gatherDrops rand ip mask = false) (n : IpNode ConfItem) :
    (t.gather rand ip mask).1.Holds n ↔ t.Holds n ∧ ¬ Within n ip mask := by
  have base := Dyadic.base_covers range.aligned
  have kept := (IpSubtree.delete_spec rand _ _ _ _ whole).1
  simp only [gather]
  rw [holds_setTree h, kept, List.mem_filter, Bool.not_eq_true', Bool.eq_false_iff, ne_eq,
    removes_iff, base]
  constructor
  · rintro (⟨inside, outside⟩ | ⟨held, other⟩)
    · exact ⟨⟨_, inside⟩, outside⟩
    · refine ⟨held, fun within => other ?_⟩
      exact range.bucket_eq (h.narrow n held).aligned.base_lt within.1
  · rintro ⟨held, outside⟩
    by_cases here : bucket n.ip = bucket ip
    · exact Or.inl ⟨here ▸ h.mem held, outside⟩
    · exact Or.inr ⟨held, here⟩

theorem filed_gather (h : Filed t) {rand : Nat → Bool}
    (whole : t.gatherDrops rand ip mask = false) : Filed (t.gather rand ip mask).1 := by
  have kept := (IpSubtree.delete_spec rand _ _ _ _ whole).1
  apply filed_setTree h
  · exact IpSubtree.ordered_delete (h.ordered _) whole
  · intro n inside
    rw [kept] at inside
    have old := (List.mem_filter.1 inside).1
    exact ⟨h.narrow n ⟨_, old⟩, h.octet _ n old⟩

theorem mem_gather (h : Filed t) (range : Narrow ip mask) {rand : Nat → Bool}
    (whole : t.gatherDrops rand ip mask = false) (a : ConfItem) :
    a ∈ (t.gather rand ip mask).2 ↔ ∃ n, t.Holds n ∧ Within n ip mask ∧ a ∈ n.conf := by
  have base := Dyadic.base_covers range.aligned
  have taken := (IpSubtree.delete_spec rand _ _ _ _ whole).2 a
  simp only [gather]
  rw [taken]
  constructor
  · rintro (old | ⟨n, inside, gone, has⟩)
    · cases old
    · rw [removes_iff, base] at gone
      exact ⟨n, ⟨_, inside⟩, gone, has⟩
  · rintro ⟨n, held, within, has⟩
    have here := range.bucket_eq (h.narrow n held).aligned.base_lt within.1
    refine Or.inr ⟨n, here ▸ h.mem held, ?_, has⟩
    rw [removes_iff, base]
    exact within

theorem newIpSubtree_ip (range : Narrow ip mask) (clist : List ConfItem) :
    (newIpSubtree ip mask clist).ip = ip := Dyadic.base_covers range.aligned

theorem holds_place (h : Filed t) (clist : List ConfItem)
    (n : IpNode ConfItem) :
    (t.place ip mask clist).Holds n ↔ n = newIpSubtree ip mask clist ∨ t.Holds n := by
  rw [place, holds_setTree h, IpSubtree.mem_insert]
  constructor
  · rintro ((new | inside) | ⟨held, -⟩)
    · exact Or.inl new
    · exact Or.inr ⟨_, inside⟩
    · exact Or.inr held
  · rintro (new | held)
    · exact Or.inl (Or.inl new)
    · by_cases here : bucket n.ip = bucket ip
      · exact Or.inl (Or.inr (here ▸ h.mem held))
      · exact Or.inr ⟨held, here⟩

theorem filed_place (h : Filed t) (range : Narrow ip mask) (clist : List ConfItem)
    (apart : ∀ n, t.Holds n → n.top < ip ∨ Dyadic.top 32 ip mask < n.ip) :
    Filed (t.place ip mask clist) := by
  have base := newIpSubtree_ip range clist
  apply filed_setTree h
  · apply IpSubtree.ordered_insert (h.ordered _)
    · rw [base]
      exact range.aligned
    · intro n inside
      have last : (newIpSubtree ip mask clist).top = Dyadic.top 32 ip mask := by
        rw [IpNode.top, base]
        rfl
      rw [base, last]
      exact apart n ⟨_, inside⟩
  · intro n inside
    cases IpSubtree.mem_insert.1 inside with
    | inl new =>
      rw [new, base]
      exact ⟨range, rfl⟩
    | inr old => exact ⟨h.narrow n ⟨_, old⟩, h.octet _ n old⟩

/-- What is not in a range, and does not cover its first address from further out, is apart
from it. -/
theorem Filed.apart (h : Filed t) (range : Narrow ip mask) {n : IpNode ConfItem}
    (held : t.Holds n) (outside : ¬ Within n ip mask) (open' : n.covers ip → mask ≤ n.ipMask) :
    n.top < ip ∨ Dyadic.top 32 ip mask < n.ip := by
  have aligned := (h.narrow n held).aligned
  by_cases finer : mask ≤ n.ipMask
  · have apart := Dyadic.disjoint_of_outside range.aligned aligned finer
      fun inside => outside ⟨inside, finer⟩
    exact apart.symm
  · have wider : n.ipMask ≤ mask := by omega
    exact Dyadic.disjoint_of_outside aligned range.aligned wider
      fun covered => finer (open' covered)

theorem replace_spec (h : Filed t) (range : Narrow ip mask) {rand : Nat → Bool}
    (whole : t.gatherDrops rand ip mask = false)
    (open' : ∀ n, t.Holds n → n.covers ip → mask ≤ n.ipMask) (clist : List ConfItem) :
    Filed ((t.gather rand ip mask).1.place ip mask clist) ∧
    ∀ n, ((t.gather rand ip mask).1.place ip mask clist).Holds n ↔
      n = newIpSubtree ip mask clist ∨ t.Holds n ∧ ¬ Within n ip mask := by
  have filed := filed_gather h whole
  constructor
  · apply filed_place filed range
    intro n held
    obtain ⟨old, outside⟩ := (holds_gather h range whole n).1 held
    exact h.apart range old outside (open' n old)
  · intro n
    rw [holds_place filed, holds_gather h range whole]

theorem holds_change (h : Filed t) {x : Nat} (hx : x < 2 ^ 32)
    (f : List ConfItem → List ConfItem) (n : IpNode ConfItem) :
    (t.change x f).Holds n ↔ ∃ old, t.Holds old ∧ IpSubtree.changeAt x f old = n := by
  have range : ∀ n : IpNode ConfItem, (IpSubtree.changeAt x f n).ip = n.ip := by
    intro n
    unfold IpSubtree.changeAt
    split
    · rfl
    · rfl
  rw [change, holds_setTree h, IpSubtree.toList_change (h.ordered _) hx, List.mem_map]
  constructor
  · rintro (⟨old, inside, new⟩ | ⟨held, other⟩)
    · exact ⟨old, ⟨_, inside⟩, new⟩
    · refine ⟨n, held, if_neg fun covered => other ?_⟩
      exact ((h.narrow n held).bucket_eq hx covered).symm
  · rintro ⟨old, held, new⟩
    by_cases here : bucket old.ip = bucket x
    · exact Or.inl ⟨old, here ▸ h.mem held, new⟩
    · have away : ¬ old.covers x := fun covered =>
        here ((h.narrow old held).bucket_eq hx covered).symm
      have same : old = n := by rwa [IpSubtree.changeAt, if_neg away] at new
      exact Or.inr ⟨same ▸ held, same ▸ here⟩

theorem filed_change (h : Filed t) {x : Nat} (hx : x < 2 ^ 32)
    (f : List ConfItem → List ConfItem) : Filed (t.change x f) := by
  have range : ∀ n : IpNode ConfItem, (IpSubtree.changeAt x f n).ip = n.ip ∧
      (IpSubtree.changeAt x f n).ipMask = n.ipMask := by
    intro n
    unfold IpSubtree.changeAt
    split
    · exact ⟨rfl, rfl⟩
    · exact ⟨rfl, rfl⟩
  apply filed_setTree h
  · exact IpSubtree.ordered_change (h.ordered _) hx f
  · intro n inside
    rw [IpSubtree.toList_change (h.ordered _) hx, List.mem_map] at inside
    obtain ⟨old, held, rfl⟩ := inside
    rw [(range old).1, (range old).2]
    exact ⟨h.narrow old ⟨_, held⟩, h.octet _ old held⟩

end

def Admits (t : IpTable) (x : Nat) : Prop := x &&& t.oracle (bucket x) = x

theorem admits_congr {t' : IpTable} (same : t'.oracle = t.oracle) {x : Nat} :
    t'.Admits x ↔ t.Admits x := by
  rw [Admits, Admits, same]

@[simp] theorem admits_setTree {b : Nat} {tree : IpSubtree ConfItem} {x : Nat} :
    (t.setTree b tree).Admits x ↔ t.Admits x := Iff.rfl

theorem admits_consult {ip mask x : Nat} (admitted : t.Admits x) : (t.consult ip mask).Admits x := by
  unfold Admits consult
  by_cases here : bucket x = bucket ip
  · simp only [here, Function.update_self]
    exact Dyadic.and_or_of_and (here ▸ admitted)
  · simp only [Function.update_of_ne here]
    exact admitted

theorem consult_admits (t : IpTable) {ip mask x : Nat} (range : Narrow ip mask) (hx : x < 2 ^ 32)
    (inside : x &&& mask = ip) : (t.consult ip mask).Admits x := by
  have here := range.bucket_eq hx inside
  have last : x &&& (2 ^ 32 - 1 - mask + ip) = x := by
    have admitted := Dyadic.and_top range.aligned hx inside
    rwa [Dyadic.top, Nat.add_comm] at admitted
  unfold Admits consult
  simp only [here, Function.update_self]
  rw [Nat.or_comm]
  exact Dyadic.and_or_of_and last

def HasEntry (t : IpTable) (a : ConfItem) : Prop := ∃ n, t.Holds n ∧ a ∈ n.conf

theorem hasEntry_setTree {b : Nat} {tree : IpSubtree ConfItem} {a : ConfItem}
    (has : (t.setTree b tree).HasEntry a) : t.HasEntry a ∨ ∃ n ∈ tree.toList, a ∈ n.conf := by
  obtain ⟨n, ⟨b', inside⟩, listed⟩ := has
  by_cases here : b' = b
  · rw [here, setTree_tree_self] at inside
    exact Or.inr ⟨n, inside, listed⟩
  · rw [setTree_tree_other t tree here] at inside
    exact Or.inl ⟨n, ⟨b', inside⟩, listed⟩

theorem hasEntry_of_find {x : Nat} {n : IpNode ConfItem} (found : t.find x = some n) {a : ConfItem}
    (listed : a ∈ n.conf) : t.HasEntry a := ⟨n, ⟨_, (IpSubtree.mem_of_find found).1⟩, listed⟩

theorem hasEntry_gather {rand : Nat → Bool} {ip mask : Nat} {a : ConfItem}
    (has : (t.gather rand ip mask).1.HasEntry a ∨ a ∈ (t.gather rand ip mask).2) : t.HasEntry a := by
  obtain ⟨kept, taken⟩ := IpSubtree.mem_delete rand (ip &&& mask) mask (t.tree (bucket ip))
    { clist := [], calls := 0 }
  rcases has with has | listed
  · rcases hasEntry_setTree has with old | ⟨n, inside, listed⟩
    · exact old
    · exact ⟨n, ⟨_, kept n inside⟩, listed⟩
  · rcases taken a listed with none | ⟨n, inside, listed⟩
    · cases none
    · exact ⟨n, ⟨_, inside⟩, listed⟩

theorem hasEntry_place {ip mask : Nat} {clist : List ConfItem} {a : ConfItem}
    (has : (t.place ip mask clist).HasEntry a) : t.HasEntry a ∨ a ∈ clist := by
  rcases hasEntry_setTree has with old | ⟨n, inside, listed⟩
  · exact Or.inl old
  · rcases IpSubtree.mem_insert.1 inside with new | old
    · rw [new] at listed
      exact Or.inr listed
    · exact Or.inl ⟨n, ⟨_, old⟩, listed⟩

theorem hasEntry_change {x : Nat} {f : List ConfItem → List ConfItem} {a : ConfItem}
    (has : (t.change x f).HasEntry a) :
    t.HasEntry a ∨ ∃ clist, (∀ c ∈ clist, t.HasEntry c) ∧ a ∈ f clist := by
  rcases hasEntry_setTree has with old | ⟨n, inside, listed⟩
  · exact Or.inl old
  · obtain ⟨old, held, same | changed⟩ := IpSubtree.mem_change inside
    · exact Or.inl ⟨old, ⟨_, held⟩, same ▸ listed⟩
    · exact Or.inr ⟨old.conf, fun c has => ⟨old, ⟨_, held⟩, has⟩, changed ▸ listed⟩

end IpTable

end Ircd
