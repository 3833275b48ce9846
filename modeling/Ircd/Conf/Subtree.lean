import Ircd.Lib.Dyadic
import Mathlib.Data.List.Perm.Basic

/-! The binary trees of `dline_conf.c`: nodes are address ranges with the entries that
hang below them, ordered by address.

`delete_ip_subtree` puts the inorder predecessor or successor in the place of a node with
two children, as `rand()` falls. What that leaves behind of the child it is taken from is
lost, and `deleteDrops` says when there is anything to lose.
-/

set_option autoImplicit false

namespace Ircd

structure IpNode (α : Type) where
  ip : Nat
  ipMask : Nat
  conf : List α
  deriving DecidableEq, Repr

inductive IpSubtree (α : Type) where
  | null
  | node (data : IpNode α) (left right : IpSubtree α)
  deriving DecidableEq, Repr

variable {α : Type}

def newIpSubtree (ip mask : Nat) (clist : List α) : IpNode α :=
  { ip := ip &&& mask, ipMask := mask, conf := clist }

def IpNode.covers (n : IpNode α) (ip : Nat) : Prop := ip &&& n.ipMask = n.ip

instance (n : IpNode α) (ip : Nat) : Decidable (n.covers ip) :=
  inferInstanceAs (Decidable (_ = _))

def IpNode.top (n : IpNode α) : Nat := Dyadic.top 32 n.ip n.ipMask

namespace IpSubtree

def insert : IpSubtree α → IpNode α → IpSubtree α
  | null, n => node n null null
  | node head left right, n =>
    if head.ip > n.ip then node head (left.insert n) right else node head left (right.insert n)

def find : IpSubtree α → Nat → Option (IpNode α)
  | null, _ => none
  | node cur left right, ip =>
    if cur.ip = ip &&& cur.ipMask then some cur
    else if cur.ip > ip &&& cur.ipMask then left.find ip else right.find ip

/-- The list of the node that `find_ip_subtree` finds, changed in place. -/
def change (ip : Nat) (f : List α → List α) : IpSubtree α → IpSubtree α
  | null => null
  | node cur left right =>
    if cur.ip = ip &&& cur.ipMask then node { cur with conf := f cur.conf } left right
    else if cur.ip > ip &&& cur.ipMask then node cur (left.change ip f) right
    else node cur left (right.change ip f)

/-- The inorder predecessor of a node with the left child `node data left right`, and what
it keeps on its left. -/
def rightmost (data : IpNode α) (left : IpSubtree α) : IpSubtree α → IpNode α × IpSubtree α
  | null => (data, left)
  | node data' left' right' => rightmost data' left' right'

def leftmost (data : IpNode α) (right : IpSubtree α) : IpSubtree α → IpNode α × IpSubtree α
  | null => (data, right)
  | node data' left' right' => leftmost data' right' left'

def behead (coin : Bool) : IpSubtree α → IpSubtree α → IpSubtree α
  | null, right => right
  | left, null => left
  | node ld ll lr, node rd rl rr =>
    if coin then
      let (temp, rest) := rightmost ld ll lr
      node temp rest (node rd rl rr)
    else
      let (temp, rest) := leftmost rd rr rl
      node temp (node ld ll lr) rest

def beheadDrops (coin : Bool) : IpSubtree α → IpSubtree α → Bool
  | null, _ => false
  | _, null => false
  | node _ _ lr, node _ rl _ =>
    match if coin then lr else rl with
    | null => false
    | node .. => true

structure Deletion (α : Type) where
  clist : List α
  calls : Nat

/-- A node that `delete_ip_subtree` takes out: its base is in the range and it is not wider. -/
def removes (ip mask : Nat) (n : IpNode α) : Bool := n.ip &&& mask == ip && !(n.ipMask < mask)

/-- `delete_ip_subtree` with the addresses already masked. -/
def delete (rand : Nat → Bool) (ip mask : Nat) :
    IpSubtree α → Deletion α → IpSubtree α × Deletion α
  | null, d => (null, d)
  | node head left right, d =>
    let (left, d) := left.delete rand ip mask d
    let (right, d) := right.delete rand ip mask d
    if removes ip mask head then
      let clist := head.conf ++ d.clist
      match left, right with
      | node .., node .. => (behead (rand d.calls) left right, { clist, calls := d.calls + 1 })
      | _, _ => (behead true left right, { d with clist })
    else (node head left right, d)

def deleteDrops (rand : Nat → Bool) (ip mask : Nat) : IpSubtree α → Deletion α → Bool
  | null, _ => false
  | node head left right, d =>
    let (left', d') := left.delete rand ip mask d
    let (right', d'') := right.delete rand ip mask d'
    left.deleteDrops rand ip mask d || right.deleteDrops rand ip mask d' ||
      removes ip mask head && beheadDrops (rand d''.calls) left' right'

def toList : IpSubtree α → List (IpNode α)
  | null => []
  | node data left right => left.toList ++ data :: right.toList

def Sorted (ns : List (IpNode α)) : Prop := ns.Pairwise fun a b => a.top < b.ip

structure Ordered (t : IpSubtree α) : Prop where
  aligned : ∀ n ∈ t.toList, Dyadic.Aligned 32 n.ip n.ipMask
  sorted : Sorted t.toList

theorem sorted_middle {l r : List (IpNode α)} {n : IpNode α} :
    Sorted (l ++ n :: r) ↔ Sorted l ∧ Sorted r ∧ (∀ a ∈ l, a.top < n.ip) ∧
      (∀ b ∈ r, n.top < b.ip) ∧ ∀ a ∈ l, ∀ b ∈ r, a.top < b.ip := by
  unfold Sorted
  rw [List.pairwise_append, List.pairwise_cons]
  constructor
  · rintro ⟨left, ⟨after, right⟩, cross⟩
    exact ⟨left, right, fun a inside => cross a inside n List.mem_cons_self, after,
      fun a inside b below => cross a inside b (List.mem_cons_of_mem _ below)⟩
  · rintro ⟨left, right, before, after, cross⟩
    refine ⟨left, ⟨after, right⟩, fun a inside b below => ?_⟩
    cases List.mem_cons.1 below with
    | inl same => exact same ▸ before a inside
    | inr later => exact cross a inside b later

theorem Ordered.left {t : IpSubtree α} {n : IpNode α} {r : IpSubtree α}
    (h : (node n t r).Ordered) : t.Ordered :=
  ⟨fun a inside => h.aligned a (List.mem_append_left _ inside), (sorted_middle.1 h.sorted).1⟩

theorem Ordered.right {t : IpSubtree α} {n : IpNode α} {l : IpSubtree α}
    (h : (node n l t).Ordered) : t.Ordered :=
  ⟨fun a inside => h.aligned a (List.mem_append_right _ (List.mem_cons_of_mem _ inside)),
    (sorted_middle.1 h.sorted).2.1⟩

theorem IpNode.covers_iff {n : IpNode α} (h : Dyadic.Aligned 32 n.ip n.ipMask) {x : Nat}
    (hx : x < 2 ^ 32) : n.covers x ↔ n.ip ≤ x ∧ x ≤ n.top :=
  Dyadic.covers_iff h hx

theorem Ordered.elsewhere {cur : IpNode α} {left right : IpSubtree α}
    (h : (node cur left right).Ordered) {x : Nat} (hx : x < 2 ^ 32) :
    (cur.ip = x &&& cur.ipMask → (∀ n ∈ left.toList, ¬ n.covers x) ∧
      ∀ n ∈ right.toList, ¬ n.covers x) ∧
    (cur.ip > x &&& cur.ipMask → ∀ n ∈ right.toList, ¬ n.covers x) ∧
    (cur.ip < x &&& cur.ipMask → ∀ n ∈ left.toList, ¬ n.covers x) := by
  obtain ⟨-, -, before, after, -⟩ := sorted_middle.1 h.sorted
  have aligned := h.aligned cur (by simp [toList])
  have bounds := IpNode.covers_iff aligned hx
  have order : cur.ip ≤ cur.top := Nat.le_add_right _ _
  have onLeft : ∀ n ∈ left.toList, n.covers x → x < cur.ip := by
    intro n inside covered
    have range := (IpNode.covers_iff (h.left.aligned n inside) hx).1 covered
    have apart := before n inside
    omega
  have onRight : ∀ n ∈ right.toList, n.covers x → cur.top < x := by
    intro n inside covered
    have range := (IpNode.covers_iff (h.right.aligned n inside) hx).1 covered
    have apart := after n inside
    omega
  refine ⟨fun here => ?_, fun small n inside covered => ?_, fun large n inside covered => ?_⟩
  · have within := bounds.1 here.symm
    constructor
    · intro n inside covered
      have below := onLeft n inside covered
      omega
    · intro n inside covered
      have above := onRight n inside covered
      omega
  · -- the masked address is below the base, so the address is
    obtain ⟨k, hk, mask, div⟩ := aligned.mask
    have above := onRight n inside covered
    have monotone : cur.ip &&& cur.ipMask ≤ x &&& cur.ipMask := by
      rw [mask, Dyadic.and_mask hk aligned.base_lt, Dyadic.and_mask hk hx]
      exact Nat.mul_le_mul_right _ (Nat.div_le_div_right (by omega))
    rw [Dyadic.base_covers aligned] at monotone
    omega
  · have below := onLeft n inside covered
    have masked : (x &&& cur.ipMask) ≤ x := Nat.and_le_left
    omega

theorem find_eq_some_iff {t : IpSubtree α} (h : t.Ordered) {x : Nat} (hx : x < 2 ^ 32)
    (n : IpNode α) : t.find x = some n ↔ n ∈ t.toList ∧ n.covers x := by
  induction t with
  | null => simp [find, toList]
  | node cur left right ihl ihr =>
    obtain ⟨whenHere, whenSmall, whenLarge⟩ := h.elsewhere hx
    simp only [find, toList, List.mem_append, List.mem_cons]
    -- the order leaves one side on which the address can still be covered
    by_cases here : cur.ip = x &&& cur.ipMask
    · rw [if_pos here]
      obtain ⟨left, right⟩ := whenHere here
      constructor
      · intro same
        cases same
        exact ⟨Or.inr (Or.inl rfl), here.symm⟩
      · rintro ⟨l | same | r, covered⟩
        · exact absurd covered (left n l)
        · rw [same]
        · exact absurd covered (right n r)
    · rw [if_neg here]
      have outside : ¬ cur.covers x := fun covered => here covered.symm
      by_cases small : cur.ip > x &&& cur.ipMask
      · rw [if_pos small, ihl h.left]
        constructor
        · exact fun found => ⟨Or.inl found.1, found.2⟩
        · rintro ⟨l | same | r, covered⟩
          · exact ⟨l, covered⟩
          · exact absurd (same ▸ covered) outside
          · exact absurd covered (whenSmall small n r)
      · rw [if_neg small, ihr h.right]
        constructor
        · exact fun found => ⟨Or.inr (Or.inr found.1), found.2⟩
        · rintro ⟨l | same | r, covered⟩
          · exact absurd covered (whenLarge (by omega) n l)
          · exact absurd (same ▸ covered) outside
          · exact ⟨r, covered⟩

/-- `n` with its list changed if it covers the address. -/
def changeAt (x : Nat) (f : List α → List α) (n : IpNode α) : IpNode α :=
  if n.covers x then { n with conf := f n.conf } else n

theorem map_changeAt {ns : List (IpNode α)} {x : Nat} (f : List α → List α)
    (none : ∀ n ∈ ns, ¬ n.covers x) : ns.map (changeAt x f) = ns := by
  have same : ∀ n ∈ ns, changeAt x f n = id n := fun n inside => if_neg (none n inside)
  rw [List.map_congr_left same, List.map_id]

theorem toList_change {t : IpSubtree α} (h : t.Ordered) {x : Nat} (hx : x < 2 ^ 32)
    (f : List α → List α) : (t.change x f).toList = t.toList.map (changeAt x f) := by
  induction t with
  | null => rfl
  | node cur left right ihl ihr =>
    obtain ⟨whenHere, whenSmall, whenLarge⟩ := h.elsewhere hx
    simp only [change, toList, List.map_append, List.map_cons]
    by_cases here : cur.ip = x &&& cur.ipMask
    · obtain ⟨onLeft, onRight⟩ := whenHere here
      have inside : changeAt x f cur = { cur with conf := f cur.conf } := if_pos here.symm
      rw [if_pos here, map_changeAt f onLeft, map_changeAt f onRight, toList, inside]
    · have outside : changeAt x f cur = cur := if_neg fun covered => here covered.symm
      rw [if_neg here, outside]
      by_cases small : cur.ip > x &&& cur.ipMask
      · rw [if_pos small, toList, ihl h.left, map_changeAt f (whenSmall small)]
      · rw [if_neg small, toList, ihr h.right, map_changeAt f (whenLarge (by omega))]

theorem ordered_change {t : IpSubtree α} (h : t.Ordered) {x : Nat} (hx : x < 2 ^ 32)
    (f : List α → List α) : (t.change x f).Ordered := by
  have range : ∀ n : IpNode α, (changeAt x f n).ip = n.ip ∧
      (changeAt x f n).ipMask = n.ipMask := by
    intro n
    unfold changeAt
    split
    · exact ⟨rfl, rfl⟩
    · exact ⟨rfl, rfl⟩
  constructor
  · intro n inside
    rw [toList_change h hx, List.mem_map] at inside
    obtain ⟨old, held, rfl⟩ := inside
    rw [(range old).1, (range old).2]
    exact h.aligned old held
  · rw [Sorted, toList_change h hx, List.pairwise_map]
    apply h.sorted.imp
    intro a b apart
    rwa [IpNode.top, (range a).1, (range a).2, (range b).1]

theorem toList_insert (t : IpSubtree α) (n : IpNode α) :
    (t.insert n).toList.Perm (n :: t.toList) := by
  induction t with
  | null => exact .refl _
  | node head left right ihl ihr =>
    simp only [insert]
    split
    · exact ihl.append_right _
    · have moved := (ihr.cons head).append_left left.toList
      have fronted : (left.toList ++ head :: n :: right.toList).Perm
          (n :: (left.toList ++ head :: right.toList)) := by
        simpa using @List.perm_middle _ n (left.toList ++ [head]) right.toList
      exact moved.trans fronted

theorem mem_insert {t : IpSubtree α} {n a : IpNode α} :
    a ∈ (t.insert n).toList ↔ a = n ∨ a ∈ t.toList := by
  rw [(t.toList_insert n).mem_iff, List.mem_cons]

theorem ordered_insert {t : IpSubtree α} (h : t.Ordered) {n : IpNode α}
    (aligned : Dyadic.Aligned 32 n.ip n.ipMask)
    (apart : ∀ a ∈ t.toList, a.top < n.ip ∨ n.top < a.ip) : (t.insert n).Ordered := by
  refine ⟨fun a inside => ?_, ?_⟩
  · cases mem_insert.1 inside with
    | inl same => exact same ▸ aligned
    | inr old => exact h.aligned a old
  · induction t with
    | null => exact List.pairwise_singleton _ _
    | node head left right ihl ihr =>
      obtain ⟨-, -, before, after, cross⟩ := sorted_middle.1 h.sorted
      have order : head.ip ≤ head.top := Nat.le_add_right _ _
      have range : n.ip ≤ n.top := Nat.le_add_right _ _
      -- the new range lies wholly on one side of the head
      have here := apart head (by simp [toList])
      simp only [insert]
      split
      · next small =>
        have below : n.top < head.ip := by omega
        have sorted := ihl h.left fun a inside => apart a (by simp [toList, inside])
        refine sorted_middle.2 ⟨sorted, h.right.sorted, fun a inside => ?_, after,
          fun a inside b later => ?_⟩
        · cases mem_insert.1 inside with
          | inl same => exact same ▸ below
          | inr old => exact before a old
        · cases mem_insert.1 inside with
          | inl same =>
            have next := after b later
            rw [same]
            omega
          | inr old => exact cross a old b later
      · next large =>
        have above : head.top < n.ip := by omega
        have sorted := ihr h.right fun a inside => apart a (by simp [toList, inside])
        refine sorted_middle.2 ⟨h.left.sorted, sorted, before, fun b inside => ?_,
          fun a early b inside => ?_⟩
        · cases mem_insert.1 inside with
          | inl same => exact same ▸ above
          | inr old => exact after b old
        · cases mem_insert.1 inside with
          | inl same =>
            have previous := before a early
            rw [same]
            omega
          | inr old => exact cross a early b old

theorem rightmost_null (data : IpNode α) (left : IpSubtree α) :
    rightmost data left null = (data, left) := rfl

theorem leftmost_null (data : IpNode α) (right : IpSubtree α) :
    leftmost data right null = (data, right) := rfl

/-- A head that is taken off with nothing lost leaves the nodes below it in order. -/
theorem toList_behead {coin : Bool} {left right : IpSubtree α}
    (whole : beheadDrops coin left right = false) :
    (behead coin left right).toList = left.toList ++ right.toList := by
  cases left with
  | null => simp [behead, toList]
  | node ld ll lr =>
    cases right with
    | null => simp [behead, toList]
    | node rd rl rr =>
      cases coin with
      | true =>
        cases lr with
        | node d l r => simp [beheadDrops] at whole
        | null => simp [behead, rightmost_null, toList]
      | false =>
        cases rl with
        | node d l r => simp [beheadDrops] at whole
        | null => simp [behead, leftmost_null, toList]

theorem behead_coin (coin coin' : Bool) {left right : IpSubtree α}
    (one : left = null ∨ right = null) : behead coin left right = behead coin' left right := by
  cases left with
  | null => rfl
  | node ld ll lr =>
    cases right with
    | null => rfl
    | node rd rl rr =>
      cases one with
      | inl absurdity => cases absurdity
      | inr absurdity => cases absurdity

theorem delete_node (rand : Nat → Bool) (ip mask : Nat) (head : IpNode α)
    (left right : IpSubtree α) (d : Deletion α) :
    let l := left.delete rand ip mask d
    let r := right.delete rand ip mask l.2
    (removes ip mask head = false → (node head left right).delete rand ip mask d =
      (node head l.1 r.1, r.2)) ∧
    (removes ip mask head = true →
      ((node head left right).delete rand ip mask d).1 = behead (rand r.2.calls) l.1 r.1 ∧
      ((node head left right).delete rand ip mask d).2.clist = head.conf ++ r.2.clist) := by
  intro l r
  constructor
  · intro keeps
    simp [delete, keeps, l, r]
  · intro goes
    simp only [delete, goes, if_true]
    split
    · exact ⟨rfl, rfl⟩
    · next other =>
      refine ⟨behead_coin _ _ ?_, rfl⟩
      cases left' : l.1 with
      | null => exact Or.inl rfl
      | node ld ll lr =>
        cases right' : r.1 with
        | null => exact Or.inr rfl
        | node rd rl rr => exact absurd right' (other ld ll lr rd rl rr left')

/-- Where nothing is lost, the nodes that a deletion does not remove stay, and the lists
of those that it removes come into `*clist`. -/
theorem delete_spec (rand : Nat → Bool) (ip mask : Nat) (t : IpSubtree α) (d : Deletion α)
    (whole : t.deleteDrops rand ip mask d = false) :
    (t.delete rand ip mask d).1.toList = t.toList.filter (fun n => !removes ip mask n) ∧
    ∀ a, a ∈ (t.delete rand ip mask d).2.clist ↔
      a ∈ d.clist ∨ ∃ n ∈ t.toList, removes ip mask n = true ∧ a ∈ n.conf := by
  induction t generalizing d with
  | null => exact ⟨rfl, fun a => by simp [delete, toList]⟩
  | node head left right ihl ihr =>
    simp only [deleteDrops, Bool.or_eq_false_iff] at whole
    obtain ⟨⟨wholeLeft, wholeRight⟩, wholeHead⟩ := whole
    obtain ⟨keptLeft, fromLeft⟩ := ihl d wholeLeft
    obtain ⟨keptRight, fromRight⟩ := ihr (left.delete rand ip mask d).2 wholeRight
    obtain ⟨stays, goes⟩ := delete_node rand ip mask head left right d
    -- `delete` goes down both sides before it looks at the node itself
    cases removed : removes ip mask head with
    | false =>
      rw [stays removed]
      constructor
      · simp [toList, keptLeft, keptRight, removed]
      · intro a
        rw [fromRight, fromLeft]
        simp only [toList, List.mem_append, List.mem_cons]
        constructor
        · rintro ((old | ⟨n, inside, gone, has⟩) | ⟨n, inside, gone, has⟩)
          · exact Or.inl old
          · exact Or.inr ⟨n, Or.inl inside, gone, has⟩
          · exact Or.inr ⟨n, Or.inr (Or.inr inside), gone, has⟩
        · rintro (old | ⟨n, inside | same | inside, gone, has⟩)
          · exact Or.inl (Or.inl old)
          · exact Or.inl (Or.inr ⟨n, inside, gone, has⟩)
          · rw [same, removed] at gone
            cases gone
          · exact Or.inr ⟨n, inside, gone, has⟩
    | true =>
      obtain ⟨tree, clist⟩ := goes removed
      rw [removed, Bool.true_and] at wholeHead
      rw [tree, clist, toList_behead wholeHead]
      constructor
      · simp [toList, keptLeft, keptRight, removed]
      · intro a
        rw [List.mem_append, fromRight, fromLeft]
        simp only [toList, List.mem_append, List.mem_cons]
        constructor
        · rintro (has | (old | ⟨n, inside, gone, has⟩) | ⟨n, inside, gone, has⟩)
          · exact Or.inr ⟨head, Or.inr (Or.inl rfl), removed, has⟩
          · exact Or.inl old
          · exact Or.inr ⟨n, Or.inl inside, gone, has⟩
          · exact Or.inr ⟨n, Or.inr (Or.inr inside), gone, has⟩
        · rintro (old | ⟨n, inside | same | inside, gone, has⟩)
          · exact Or.inr (Or.inl (Or.inl old))
          · exact Or.inr (Or.inl (Or.inr ⟨n, inside, gone, has⟩))
          · exact Or.inl (same ▸ has)
          · exact Or.inr (Or.inr ⟨n, inside, gone, has⟩)

theorem ordered_delete {rand : Nat → Bool} {ip mask : Nat} {t : IpSubtree α} {d : Deletion α}
    (h : t.Ordered) (whole : t.deleteDrops rand ip mask d = false) :
    (t.delete rand ip mask d).1.Ordered := by
  have kept := (delete_spec rand ip mask t d whole).1
  refine ⟨fun n inside => ?_, ?_⟩
  · rw [kept] at inside
    exact h.aligned n (List.mem_filter.1 inside).1
  · rw [kept]
    exact List.Pairwise.filter _ h.sorted

theorem mem_of_find {t : IpSubtree α} {x : Nat} {n : IpNode α} (found : t.find x = some n) :
    n ∈ t.toList ∧ n.covers x := by
  induction t with
  | null => cases found
  | node cur left right ihl ihr =>
    simp only [find] at found
    simp only [toList, List.mem_append, List.mem_cons]
    split at found
    next here =>
      cases found
      exact ⟨Or.inr (Or.inl rfl), here.symm⟩
    split at found
    · exact ⟨Or.inl (ihl found).1, (ihl found).2⟩
    · exact ⟨Or.inr (Or.inr (ihr found).1), (ihr found).2⟩

theorem mem_change {t : IpSubtree α} {x : Nat} {f : List α → List α} {n : IpNode α}
    (inside : n ∈ (t.change x f).toList) : ∃ old ∈ t.toList, n.conf = old.conf ∨ n.conf = f old.conf := by
  induction t with
  | null => cases inside
  | node cur left right ihl ihr =>
    have whole : ∀ {old}, (old ∈ left.toList ∨ old = cur ∨ old ∈ right.toList) →
        old ∈ (node cur left right).toList := by
      intro old inside
      simpa [toList] using inside
    simp only [change] at inside
    split at inside
    · simp only [toList, List.mem_append, List.mem_cons] at inside
      rcases inside with l | same | r
      · exact ⟨n, whole (Or.inl l), Or.inl rfl⟩
      · exact ⟨cur, whole (Or.inr (Or.inl rfl)), Or.inr (same ▸ rfl)⟩
      · exact ⟨n, whole (Or.inr (Or.inr r)), Or.inl rfl⟩
    split at inside
    · simp only [toList, List.mem_append, List.mem_cons] at inside
      rcases inside with l | same | r
      · obtain ⟨old, held, kept⟩ := ihl l
        exact ⟨old, whole (Or.inl held), kept⟩
      · exact ⟨cur, whole (Or.inr (Or.inl rfl)), Or.inl (same ▸ rfl)⟩
      · exact ⟨n, whole (Or.inr (Or.inr r)), Or.inl rfl⟩
    · simp only [toList, List.mem_append, List.mem_cons] at inside
      rcases inside with l | same | r
      · exact ⟨n, whole (Or.inl l), Or.inl rfl⟩
      · exact ⟨cur, whole (Or.inr (Or.inl rfl)), Or.inl (same ▸ rfl)⟩
      · obtain ⟨old, held, kept⟩ := ihr r
        exact ⟨old, whole (Or.inr (Or.inr held)), kept⟩

theorem mem_rightmost {data : IpNode α} {left right : IpSubtree α} {n : IpNode α}
    (inside : n = (rightmost data left right).1 ∨ n ∈ (rightmost data left right).2.toList) :
    n = data ∨ n ∈ left.toList ∨ n ∈ right.toList := by
  induction right generalizing data left with
  | null =>
    rcases inside with same | l
    · exact Or.inl same
    · exact Or.inr (Or.inl l)
  | node data' left' right' ihl ihr =>
    right
    right
    simp only [toList, List.mem_append, List.mem_cons]
    rcases ihr inside with same | l | r
    · exact Or.inr (Or.inl same)
    · exact Or.inl l
    · exact Or.inr (Or.inr r)

theorem mem_leftmost {data : IpNode α} {left right : IpSubtree α} {n : IpNode α}
    (inside : n = (leftmost data right left).1 ∨ n ∈ (leftmost data right left).2.toList) :
    n = data ∨ n ∈ left.toList ∨ n ∈ right.toList := by
  induction left generalizing data right with
  | null =>
    rcases inside with same | r
    · exact Or.inl same
    · exact Or.inr (Or.inr r)
  | node data' left' right' ihl ihr =>
    right
    left
    simp only [toList, List.mem_append, List.mem_cons]
    rcases ihl inside with same | l | r
    · exact Or.inr (Or.inl same)
    · exact Or.inl l
    · exact Or.inr (Or.inr r)

theorem mem_behead {coin : Bool} {left right : IpSubtree α} {n : IpNode α}
    (inside : n ∈ (behead coin left right).toList) : n ∈ left.toList ∨ n ∈ right.toList := by
  cases left with
  | null => exact Or.inr inside
  | node ld ll lr =>
    cases right with
    | null => exact Or.inl inside
    | node rd rl rr =>
      cases coin with
      | true =>
        have shape : (behead true (node ld ll lr) (node rd rl rr)).toList =
          (rightmost ld ll lr).2.toList ++ (rightmost ld ll lr).1 :: (node rd rl rr).toList := rfl
        rw [shape] at inside
        simp only [toList, List.mem_append, List.mem_cons] at inside ⊢
        have first := @mem_rightmost _ ld ll lr n
        rcases inside with rest | same | r
        · rcases first (Or.inr rest) with same | l | r
          · exact Or.inl (Or.inr (Or.inl same))
          · exact Or.inl (Or.inl l)
          · exact Or.inl (Or.inr (Or.inr r))
        · rcases first (Or.inl same) with same | l | r
          · exact Or.inl (Or.inr (Or.inl same))
          · exact Or.inl (Or.inl l)
          · exact Or.inl (Or.inr (Or.inr r))
        · exact Or.inr r
      | false =>
        have shape : (behead false (node ld ll lr) (node rd rl rr)).toList =
          (node ld ll lr).toList ++ (leftmost rd rr rl).1 :: (leftmost rd rr rl).2.toList := rfl
        rw [shape] at inside
        simp only [toList, List.mem_append, List.mem_cons] at inside ⊢
        have last := @mem_leftmost _ rd rl rr n
        rcases inside with l | same | rest
        · exact Or.inl l
        · rcases last (Or.inl same) with same | l | r
          · exact Or.inr (Or.inr (Or.inl same))
          · exact Or.inr (Or.inl l)
          · exact Or.inr (Or.inr (Or.inr r))
        · rcases last (Or.inr rest) with same | l | r
          · exact Or.inr (Or.inr (Or.inl same))
          · exact Or.inr (Or.inl l)
          · exact Or.inr (Or.inr (Or.inr r))

theorem mem_delete (rand : Nat → Bool) (ip mask : Nat) (t : IpSubtree α) (d : Deletion α) :
    (∀ n ∈ (t.delete rand ip mask d).1.toList, n ∈ t.toList) ∧
    ∀ a ∈ (t.delete rand ip mask d).2.clist, a ∈ d.clist ∨ ∃ n ∈ t.toList, a ∈ n.conf := by
  induction t generalizing d with
  | null => exact ⟨fun _ inside => inside, fun _ inside => Or.inl inside⟩
  | node head left right ihl ihr =>
    obtain ⟨fromLeft, listLeft⟩ := ihl d
    obtain ⟨fromRight, listRight⟩ := ihr (left.delete rand ip mask d).2
    obtain ⟨stays, goes⟩ := delete_node rand ip mask head left right d
    have listed : ∀ a ∈ (right.delete rand ip mask (left.delete rand ip mask d).2).2.clist,
        a ∈ d.clist ∨ ∃ n ∈ (node head left right).toList, a ∈ n.conf := by
      intro a inside
      rcases listRight a inside with later | ⟨n, held, has⟩
      · rcases listLeft a later with before | ⟨n, held, has⟩
        · exact Or.inl before
        · exact Or.inr ⟨n, by simp [toList, held], has⟩
      · exact Or.inr ⟨n, by simp [toList, held], has⟩
    -- a node that goes gives its entries to the list and joins its subtrees
    cases removed : removes ip mask head with
    | false =>
      rw [stays removed]
      refine ⟨fun n inside => ?_, listed⟩
      simp only [toList, List.mem_append, List.mem_cons] at inside ⊢
      rcases inside with l | same | r
      · exact Or.inl (fromLeft n l)
      · exact Or.inr (Or.inl same)
      · exact Or.inr (Or.inr (fromRight n r))
    | true =>
      obtain ⟨tree, clist⟩ := goes removed
      rw [tree, clist]
      constructor
      · intro n inside
        simp only [toList, List.mem_append, List.mem_cons]
        rcases mem_behead inside with l | r
        · exact Or.inl (fromLeft n l)
        · exact Or.inr (Or.inr (fromRight n r))
      · intro a inside
        rcases List.mem_append.1 inside with own | other
        · exact Or.inr ⟨head, by simp [toList], own⟩
        · exact listed a other

end IpSubtree

end Ircd
