import Mathlib.Data.List.Nodup
import Mathlib.Data.List.Perm.Subperm
import Mathlib.Logic.Function.Basic

/-! A tree of named nodes that is kept as parent links and mirrored lists of children.

Nodes are numbered in the order of their creation. A node comes loose, with or without a
name; it is hung below an older node that can have children, and is dropped again once it
has none. `via` is the child of the root that the path from a node to the root leaves
through; it is stored, not computed. `Shape` says that all of these agree, and `Named` that
a name leads to one node at most.
-/

set_option autoImplicit false

namespace Forest

inductive Kind where
  | loose
  | root
  | inner
  | leaf
  deriving DecidableEq, Repr

end Forest

@[ext] structure Forest (K : Type*) where
  root : Nat
  /-- All nodes, the newest first. -/
  nodes : List Nat
  next : Nat
  /-- The nodes that can be found by their names. -/
  table : List Nat
  key : Nat → K
  kind : Nat → Forest.Kind
  parent : Nat → Option Nat
  kids : Forest.Kind → Nat → List Nat
  via : Nat → Nat

namespace Forest

variable {K : Type*}

def enter (f : Forest K) (via : Nat) (name : K) : Forest K :=
  { f with
    nodes := f.next :: f.nodes
    next := f.next + 1
    key := Function.update f.key f.next name
    kind := Function.update f.kind f.next .loose
    parent := Function.update f.parent f.next none
    kids := fun k => Function.update (f.kids k) f.next []
    via := Function.update f.via f.next via }

def label (f : Forest K) (u : Nat) (name : K) : Forest K :=
  { f with
    table := u :: f.table.erase u
    key := Function.update f.key u name }

def rekey (f : Forest K) (u : Nat) (name : K) : Forest K :=
  { f with key := Function.update f.key u name }

def hang (f : Forest K) (u : Nat) (k : Kind) (p : Nat) : Forest K :=
  { f with
    kind := Function.update f.kind u k
    parent := Function.update f.parent u (some p)
    kids := Function.update f.kids k (Function.update (f.kids k) p (u :: f.kids k p)) }

def side (f : Forest K) (u : Nat) : Kind := if f.kind u = .inner then .inner else .leaf

def unlink (f : Forest K) (u : Nat) : Forest K :=
  match f.parent u with
  | none => f
  | some p => { f with
      kids := Function.update f.kids (f.side u)
        (Function.update (f.kids (f.side u)) p ((f.kids (f.side u) p).erase u)) }

def drop (f : Forest K) (u : Nat) : Forest K :=
  if f.kind u = .root then f.unlink u
  else { f.unlink u with nodes := f.nodes.erase u, table := f.table.erase u }

def Hub (f : Forest K) (p : Nat) : Prop := p ∈ f.nodes ∧ (f.kind p = .root ∨ f.kind p = .inner)

structure Shape (f : Forest K) : Prop where
  sorted : f.nodes.Pairwise (· > ·)
  below : ∀ u ∈ f.nodes, u < f.next
  root_listed : f.root ∈ f.nodes
  root_le : ∀ u ∈ f.nodes, f.root ≤ u
  root_iff : ∀ u ∈ f.nodes, f.kind u = .root ↔ u = f.root
  root_via : f.via f.root = f.root
  root_parent : f.parent f.root = none
  loose_iff : ∀ u ∈ f.nodes, u ≠ f.root → (f.kind u = .loose ↔ f.parent u = none)
  hung : ∀ u ∈ f.nodes, ∀ p, f.parent u = some p →
    f.Hub p ∧ p < u ∧ f.via u = if p = f.root then u else f.via p
  kids_iff : ∀ k, ∀ p ∈ f.nodes, ∀ u, u ∈ f.kids k p ↔
    u ∈ f.nodes ∧ f.kind u = k ∧ f.parent u = some p
  kids_nodup : ∀ k, ∀ p ∈ f.nodes, (f.kids k p).Nodup

structure Named (f : Forest K) : Prop where
  nodup : f.table.Nodup
  listed : ∀ u ∈ f.table, u ∈ f.nodes
  placed : ∀ u ∈ f.nodes, f.kind u ≠ .loose → u ∈ f.table
  unique : ∀ u ∈ f.table, ∀ v ∈ f.table, f.key u = f.key v → u = v

structure Ok (f : Forest K) : Prop extends Shape f, Named f

def Bare (f : Forest K) (u : Nat) : Prop := ∀ v ∈ f.nodes, f.parent v ≠ some u

def Free (f : Forest K) (u : Nat) (name : K) : Prop := ∀ v ∈ f.table, v ≠ u → f.key v ≠ name

namespace Shape

variable {f : Forest K} (h : f.Shape)
include h

theorem nodes_nodup : f.nodes.Nodup := h.sorted.imp fun less => Nat.ne_of_gt less

theorem root_kind : f.kind f.root = .root := (h.root_iff f.root h.root_listed).2 rfl

theorem root_hub : f.Hub f.root := ⟨h.root_listed, .inl h.root_kind⟩

theorem not_next {u : Nat} (inside : u ∈ f.nodes) : u ≠ f.next := Nat.ne_of_lt (h.below u inside)

theorem next_notMem : f.next ∉ f.nodes := fun inside => h.not_next inside rfl

theorem not_root_of_parent {v p : Nat} (parent : f.parent v = some p) : v ≠ f.root := by
  rintro rfl
  rw [h.root_parent] at parent
  cases parent

theorem parent_of_placed {u : Nat} (inside : u ∈ f.nodes) (notRoot : u ≠ f.root)
    (placed : f.kind u ≠ .loose) : ∃ p, f.parent u = some p :=
  Option.ne_none_iff_exists'.1 fun none => placed ((h.loose_iff u inside notRoot).2 none)

theorem kind_of_parent {v p : Nat} (inside : v ∈ f.nodes) (parent : f.parent v = some p) :
    f.kind v = .inner ∨ f.kind v = .leaf := by
  have notRoot := h.not_root_of_parent parent
  cases kind : f.kind v with
  | loose =>
    rw [(h.loose_iff v inside notRoot).1 kind] at parent
    cases parent
  | root => exact absurd ((h.root_iff v inside).1 kind) notRoot
  | inner => exact .inl rfl
  | leaf => exact .inr rfl

theorem bare_iff {u : Nat} (inside : u ∈ f.nodes) :
    f.Bare u ↔ f.kids .inner u = [] ∧ f.kids .leaf u = [] := by
  constructor
  · intro bare
    constructor <;>
    · rw [List.eq_nil_iff_forall_not_mem]
      intro v child
      obtain ⟨listed, -, parent⟩ := (h.kids_iff _ u inside v).1 child
      exact bare v listed parent
  · rintro ⟨inner, leaf⟩ v listed parent
    have kid := (h.kids_iff (f.kind v) u inside v).2 ⟨listed, rfl, parent⟩
    rcases h.kind_of_parent listed parent with kind | kind
    · rw [kind, inner] at kid
      exact List.not_mem_nil kid
    · rw [kind, leaf] at kid
      exact List.not_mem_nil kid

theorem bare_of_not_hub {u : Nat} (hub : ¬ f.Hub u) : f.Bare u := fun v listed parent =>
  hub (h.hung v listed u parent).1

theorem kind_ne_root {u : Nat} (listed : u ∈ f.nodes) (below : u ≠ f.root) : f.kind u ≠ .root :=
  fun same => below ((h.root_iff u listed).1 same)

theorem root_last : ∃ rest, f.nodes = rest ++ [f.root] := by
  rcases List.eq_nil_or_concat f.nodes with empty | ⟨rest, last, whole⟩
  · have inside := h.root_listed
    rw [empty] at inside
    cases inside
  · rw [List.concat_eq_append] at whole
    have sorted := h.sorted
    rw [whole, List.pairwise_append] at sorted
    have least := h.root_le last (by simp [whole])
    have inside := h.root_listed
    rw [whole, List.mem_append, List.mem_singleton] at inside
    rcases inside with early | same
    · have older := sorted.2.2 f.root early last (List.mem_singleton_self last)
      exact absurd older (Nat.not_lt.2 least)
    · exact ⟨rest, by rw [whole, same]⟩

end Shape

namespace Shape

variable {f : Forest K} (h : f.Shape)
include h

theorem enter (via : Nat) (name : K) : (f.enter via name).Shape := by
  have fresh : ∀ u ∈ f.nodes, u ≠ f.next := fun u inside => h.not_next inside
  have rootNe := fresh f.root h.root_listed
  constructor
  case sorted => exact List.pairwise_cons.2 ⟨h.below, h.sorted⟩
  case below =>
    intro u inside
    rcases List.mem_cons.1 inside with rfl | old
    · exact Nat.lt_succ_self _
    · exact Nat.lt_succ_of_lt (h.below u old)
  case root_listed => exact List.mem_cons_of_mem _ h.root_listed
  case root_le =>
    intro u inside
    rcases List.mem_cons.1 inside with rfl | old
    · exact Nat.le_of_lt (h.below f.root h.root_listed)
    · exact h.root_le u old
  case root_iff =>
    intro u inside
    rcases List.mem_cons.1 inside with rfl | old
    · simp [Forest.enter, Ne.symm rootNe]
    · simpa [Forest.enter, fresh u old] using h.root_iff u old
  case root_via => simpa [Forest.enter, rootNe] using h.root_via
  case root_parent => simpa [Forest.enter, rootNe] using h.root_parent
  case loose_iff =>
    intro u inside notRoot
    rcases List.mem_cons.1 inside with rfl | old
    · simp [Forest.enter]
    · simpa [Forest.enter, fresh u old] using h.loose_iff u old notRoot
  case hung =>
    intro u inside p parent
    rcases List.mem_cons.1 inside with rfl | old
    · simp [Forest.enter] at parent
    · simp only [Forest.enter, Function.update_of_ne (fresh u old)] at parent
      obtain ⟨hub, less, via'⟩ := h.hung u old p parent
      have other := fresh p hub.1
      refine ⟨⟨List.mem_cons_of_mem _ hub.1, ?_⟩, less, ?_⟩
      · simpa [Forest.enter, other] using hub.2
      · simpa [Forest.enter, fresh u old, other] using via'
  case kids_iff =>
    intro k p inside u
    rcases List.mem_cons.1 inside with rfl | old
    · -- nothing can hang from the new node yet
      simp only [Forest.enter, Function.update_self, List.not_mem_nil, false_iff]
      rintro ⟨listed, -, parent⟩
      rcases List.mem_cons.1 listed with rfl | listed
      · simp at parent
      · rw [Function.update_of_ne (fresh u listed)] at parent
        exact h.next_notMem (h.hung u listed _ parent).1.1
    · have kids := h.kids_iff k p old u
      simp only [Forest.enter, Function.update_of_ne (fresh p old), kids]
      by_cases new : u = f.next
      · subst new
        simp [h.next_notMem]
      · simp [new]
  case kids_nodup =>
    intro k p inside
    rcases List.mem_cons.1 inside with rfl | old
    · simp [Forest.enter]
    · simpa [Forest.enter, fresh p old] using h.kids_nodup k p old

theorem label (u : Nat) (name : K) : (f.label u name).Shape := { h with }

theorem rekey (u : Nat) (name : K) : (f.rekey u name).Shape := { h with }

theorem hang {u p : Nat} {k : Kind} (listed : u ∈ f.nodes) (loose : f.kind u = .loose)
    (inner : k = .inner ∨ k = .leaf) (hub : f.Hub p) (older : p < u)
    (via : f.via u = if p = f.root then u else f.via p) : (f.hang u k p).Shape := by
  have notRoot : u ≠ f.root := by
    rintro rfl
    rw [h.root_kind] at loose
    cases loose
  have parentless := (h.loose_iff u listed notRoot).1 loose
  have kindNe : k ≠ .root ∧ k ≠ .loose := by rcases inner with rfl | rfl <;> simp
  have notHub : ¬ f.Hub u := by
    rintro ⟨-, kind | kind⟩ <;>
    · rw [loose] at kind
      cases kind
  -- a loose node has nothing below it, so no path is cut
  have hubNe : ∀ {q}, f.Hub q → q ≠ u := fun hub same => notHub (same ▸ hub)
  constructor
  case sorted => exact h.sorted
  case below => exact h.below
  case root_listed => exact h.root_listed
  case root_le => exact h.root_le
  case root_iff =>
    intro v inside
    by_cases here : v = u
    · subst here
      simp [Forest.hang, kindNe.1, notRoot]
    · simpa [Forest.hang, here] using h.root_iff v inside
  case root_via => exact h.root_via
  case root_parent => simpa [Forest.hang, Ne.symm notRoot] using h.root_parent
  case loose_iff =>
    intro v inside top
    by_cases here : v = u
    · subst here
      simp [Forest.hang, kindNe.2]
    · simpa [Forest.hang, here] using h.loose_iff v inside top
  case hung =>
    intro v inside q parent
    by_cases here : v = u
    · subst here
      simp only [Forest.hang, Function.update_self, Option.some.injEq] at parent
      subst parent
      exact ⟨⟨hub.1, by simpa [Forest.hang, hubNe hub] using hub.2⟩, older, via⟩
    · simp only [Forest.hang, Function.update_of_ne here] at parent
      obtain ⟨above, less, rest⟩ := h.hung v inside q parent
      exact ⟨⟨above.1, by simpa [Forest.hang, hubNe above] using above.2⟩, less, rest⟩
  case kids_iff =>
    intro k' q inside v
    have kids := h.kids_iff k' q inside v
    by_cases here : v = u
    · subst here
      have absent : v ∉ f.kids k' q := fun kid => by
        have parent := (kids.1 kid).2.2
        rw [parentless] at parent
        cases parent
      -- the two lists of each hub: only the one that the node joins changes
      by_cases side : k' = k <;> by_cases above : q = p
      · simp [Forest.hang, side, above, listed]
      · have absent' : v ∉ f.kids k q := side ▸ absent
        simp [Forest.hang, side, above, Ne.symm above, absent']
      · simp [Forest.hang, side, Ne.symm side, absent]
      · simp [Forest.hang, side, Ne.symm side, absent]
    · by_cases side : k' = k
      · subst side
        by_cases above : q = p
        · subst above
          simpa [Forest.hang, here] using kids
        · simpa [Forest.hang, here, above] using kids
      · simpa [Forest.hang, here, side] using kids
  case kids_nodup =>
    intro k' q inside
    have nodup := h.kids_nodup k' q inside
    by_cases side : k' = k
    · subst side
      by_cases above : q = p
      · subst above
        have absent : u ∉ f.kids k' q := fun kid => by
          have parent := ((h.kids_iff k' q inside u).1 kid).2.2
          rw [parentless] at parent
          cases parent
        simpa [Forest.hang] using ⟨absent, nodup⟩
      · simpa [Forest.hang, above] using nodup
    · simpa [Forest.hang, side] using nodup

end Shape

namespace Named

variable {f : Forest K}

theorem mem_label {u v : Nat} {name : K} (nodup : f.table.Nodup) :
    v ∈ (f.label u name).table ↔ v = u ∨ v ∈ f.table := by
  by_cases here : v = u
  · simp [Forest.label, here]
  · simp [Forest.label, here, nodup.mem_erase_iff]

theorem label (h : f.Named) {u : Nat} {name : K} (listed : u ∈ f.nodes)
    (free : f.Free u name) : (f.label u name).Named := by
  constructor
  case nodup => exact List.nodup_cons.2 ⟨h.nodup.not_mem_erase, h.nodup.erase u⟩
  case listed =>
    intro v inside
    rcases (mem_label h.nodup).1 inside with rfl | old
    · exact listed
    · exact h.listed v old
  case placed => exact fun v inside placed => (mem_label h.nodup).2 (.inr (h.placed v inside placed))
  case unique =>
    intro v inside w inside' same
    simp only [Forest.label] at same
    by_cases first : v = u <;> by_cases second : w = u
    · exact first.trans second.symm
    · subst first
      rw [Function.update_self, Function.update_of_ne second] at same
      have old := ((mem_label h.nodup).1 inside').resolve_left second
      exact absurd same.symm (free w old second)
    · subst second
      rw [Function.update_self, Function.update_of_ne first] at same
      have old := ((mem_label h.nodup).1 inside).resolve_left first
      exact absurd same (free v old first)
    · rw [Function.update_of_ne first, Function.update_of_ne second] at same
      exact h.unique v (((mem_label h.nodup).1 inside).resolve_left first) w
        (((mem_label h.nodup).1 inside').resolve_left second) same

end Named

namespace Ok

variable {f : Forest K} (h : f.Ok)
include h

theorem root_table : f.root ∈ f.table :=
  h.placed f.root h.root_listed (by simp [h.root_kind])

theorem enter (via : Nat) (name : K) : (f.enter via name).Ok := by
  have named : ∀ u ∈ f.table, u ≠ f.next := fun u inside => h.not_next (h.listed u inside)
  refine ⟨h.toShape.enter via name, h.nodup, ?_, ?_, ?_⟩
  · intro u inside
    exact List.mem_cons_of_mem _ (h.listed u inside)
  · intro u inside placed
    rcases List.mem_cons.1 inside with rfl | old
    · simp [Forest.enter] at placed
    · simp only [Forest.enter, Function.update_of_ne (h.not_next old)] at placed
      exact h.placed u old placed
  · intro u inside v inside' same
    simp only [Forest.enter, Function.update_of_ne (named u inside),
      Function.update_of_ne (named v inside')] at same
    exact h.unique u inside v inside' same

theorem label {u : Nat} {name : K} (listed : u ∈ f.nodes) (free : f.Free u name) :
    (f.label u name).Ok := ⟨h.toShape.label u name, h.toNamed.label listed free⟩

theorem rekey {u : Nat} (outside : u ∉ f.table) (name : K) : (f.rekey u name).Ok := by
  have others : ∀ v ∈ f.table, (f.rekey u name).key v = f.key v := by
    intro v inside
    have other : v ≠ u := fun same => outside (same ▸ inside)
    simp [Forest.rekey, other]
  refine ⟨h.toShape.rekey u name, h.nodup, h.listed, h.placed, fun v inside w inside' same => ?_⟩
  rw [others v inside, others w inside'] at same
  exact h.unique v inside w inside' same

theorem hang {u p : Nat} {k : Kind} (named : u ∈ f.table) (loose : f.kind u = .loose)
    (inner : k = .inner ∨ k = .leaf) (hub : f.Hub p) (older : p < u)
    (via : f.via u = if p = f.root then u else f.via p) : (f.hang u k p).Ok where
  toShape := h.toShape.hang (h.listed u named) loose inner hub older via
  nodup := h.nodup
  listed := h.listed
  placed v inside placed := by
    by_cases here : v = u
    · exact here ▸ named
    · simp only [Forest.hang, Function.update_of_ne here] at placed
      exact h.placed v inside placed
  unique := h.unique

end Ok

structure Agree (f f' : Forest K) : Prop where
  root : f'.root = f.root
  nodes : f'.nodes = f.nodes
  next : f'.next = f.next
  table : f'.table = f.table
  key : ∀ u ∈ f.nodes, f'.key u = f.key u
  kind : ∀ u ∈ f.nodes, f'.kind u = f.kind u
  parent : ∀ u ∈ f.nodes, f'.parent u = f.parent u
  kids : ∀ k, ∀ u ∈ f.nodes, f'.kids k u = f.kids k u
  via : ∀ u ∈ f.nodes, f'.via u = f.via u

theorem Shape.agree {f f' : Forest K} (h : f.Shape) (same : Agree f f') : f'.Shape := by
  constructor
  case sorted => exact same.nodes ▸ h.sorted
  case below =>
    rw [same.nodes, same.next]
    exact h.below
  case root_listed =>
    rw [same.nodes, same.root]
    exact h.root_listed
  case root_le =>
    rw [same.nodes, same.root]
    exact h.root_le
  case root_via =>
    rw [same.root, same.via _ h.root_listed]
    exact h.root_via
  case root_parent =>
    rw [same.root, same.parent _ h.root_listed]
    exact h.root_parent
  case root_iff =>
    intro u inside
    rw [same.nodes] at inside
    rw [same.root, same.kind u inside]
    exact h.root_iff u inside
  case loose_iff =>
    intro u inside
    rw [same.nodes] at inside
    rw [same.root, same.kind u inside, same.parent u inside]
    exact h.loose_iff u inside
  case hung =>
    intro u inside p parent
    -- a parent is in the forest, so the two agree on it as well
    rw [same.nodes] at inside
    rw [same.parent u inside] at parent
    obtain ⟨hub, rest⟩ := h.hung u inside p parent
    rw [Hub, same.nodes, same.kind p hub.1, same.via u inside, same.via p hub.1, same.root]
    exact ⟨hub, rest⟩
  case kids_iff =>
    intro k p inside u
    rw [same.nodes] at inside
    rw [same.kids k p inside, h.kids_iff k p inside, same.nodes]
    constructor <;>
    · rintro ⟨listed, kind, parent⟩
      exact ⟨listed, by simpa [same.kind u listed] using kind,
        by simpa [same.parent u listed] using parent⟩
  case kids_nodup =>
    intro k p inside
    rw [same.nodes] at inside
    rw [same.kids k p inside]
    exact h.kids_nodup k p inside

theorem Ok.agree {f f' : Forest K} (h : f.Ok) (same : Agree f f') : f'.Ok where
  toShape := h.toShape.agree same
  nodup := same.table ▸ h.nodup
  listed := by
    rw [same.table, same.nodes]
    exact h.listed
  placed u inside placed := by
    rw [same.nodes] at inside
    rw [same.kind u inside] at placed
    rw [same.table]
    exact h.placed u inside placed
  unique u inside v inside' eq := by
    rw [same.table] at inside inside'
    rw [same.key u (h.listed u inside), same.key v (h.listed v inside')] at eq
    exact h.unique u inside v inside' eq

@[simp] theorem unlink_root (f : Forest K) (u : Nat) : (f.unlink u).root = f.root := by
  unfold unlink
  split <;> rfl

@[simp] theorem unlink_nodes (f : Forest K) (u : Nat) : (f.unlink u).nodes = f.nodes := by
  unfold unlink
  split <;> rfl

@[simp] theorem unlink_table (f : Forest K) (u : Nat) : (f.unlink u).table = f.table := by
  unfold unlink
  split <;> rfl

@[simp] theorem unlink_next (f : Forest K) (u : Nat) : (f.unlink u).next = f.next := by
  unfold unlink
  split <;> rfl

@[simp] theorem unlink_key (f : Forest K) (u : Nat) : (f.unlink u).key = f.key := by
  unfold unlink
  split <;> rfl

@[simp] theorem unlink_kind (f : Forest K) (u : Nat) : (f.unlink u).kind = f.kind := by
  unfold unlink
  split <;> rfl

@[simp] theorem unlink_parent (f : Forest K) (u : Nat) : (f.unlink u).parent = f.parent := by
  unfold unlink
  split <;> rfl

@[simp] theorem unlink_via (f : Forest K) (u : Nat) : (f.unlink u).via = f.via := by
  unfold unlink
  split <;> rfl

structure SameNodes (f f' : Forest K) : Prop where
  root : f'.root = f.root
  next : f'.next = f.next
  key : f'.key = f.key
  kind : f'.kind = f.kind
  parent : f'.parent = f.parent
  via : f'.via = f.via

theorem SameNodes.refl (f : Forest K) : SameNodes f f := ⟨rfl, rfl, rfl, rfl, rfl, rfl⟩

theorem SameNodes.trans {f f' f'' : Forest K} (h : SameNodes f f') (h' : SameNodes f' f'') :
    SameNodes f f'' :=
  ⟨h'.root.trans h.root, h'.next.trans h.next, h'.key.trans h.key, h'.kind.trans h.kind,
    h'.parent.trans h.parent, h'.via.trans h.via⟩

theorem sameNodes_drop (f : Forest K) (u : Nat) : SameNodes f (f.drop u) := by
  unfold drop
  split <;> exact ⟨by simp, by simp, by simp, by simp, by simp, by simp⟩

namespace Shape

variable {f : Forest K} (h : f.Shape) {u : Nat} (listed : u ∈ f.nodes) (below : u ≠ f.root)
include h listed below

theorem drop_nodes : (f.drop u).nodes = f.nodes.erase u := by
  simp [Forest.drop, h.kind_ne_root listed below]

theorem drop_table : (f.drop u).table = f.table.erase u := by
  simp [Forest.drop, h.kind_ne_root listed below]

theorem drop_kids : (f.drop u).kids = (f.unlink u).kids := by
  simp [Forest.drop, h.kind_ne_root listed below]

omit below in
theorem mem_unlink_kids (k : Kind) {p : Nat} (inside : p ∈ f.nodes) (v : Nat) :
    v ∈ (f.unlink u).kids k p ↔ v ∈ f.kids k p ∧ v ≠ u := by
  have kids := fun w => h.kids_iff k p inside w
  have nodup := h.kids_nodup k p inside
  have elsewhere : u ∉ f.kids k p → (v ∈ f.kids k p ↔ v ∈ f.kids k p ∧ v ≠ u) := fun absent =>
    ⟨fun kid => ⟨kid, fun same => absent (same ▸ kid)⟩, And.left⟩
  unfold unlink
  cases parent : f.parent u with
  | none =>
    apply elsewhere
    intro kid
    have found := ((kids u).1 kid).2.2
    rw [parent] at found
    cases found
  | some q =>
    by_cases side : k = f.side u
    · subst side
      by_cases above : p = q
      · subst above
        simp [nodup.mem_erase_iff, and_comm]
      · simp only [Function.update_self, Function.update_of_ne above]
        apply elsewhere
        intro kid
        have found := ((kids u).1 kid).2.2
        rw [parent] at found
        exact above (Option.some.inj found).symm
    · simp only [Function.update_of_ne side]
      apply elsewhere
      intro kid
      apply side
      unfold Forest.side
      rw [← ((kids u).1 kid).2.1]
      rcases h.kind_of_parent listed parent with kind | kind <;> simp [kind]

omit below listed in
theorem nodup_unlink_kids (k : Kind) {p : Nat} (inside : p ∈ f.nodes) :
    ((f.unlink u).kids k p).Nodup := by
  have nodup := h.kids_nodup k p inside
  unfold unlink
  cases f.parent u with
  | none => exact nodup
  | some q =>
    by_cases side : k = f.side u
    · subst side
      by_cases above : p = q
      · subst above
        simpa using nodup.erase u
      · simpa [above] using nodup
    · simpa [side] using nodup

theorem drop (bare : f.Bare u) : (f.drop u).Shape := by
  have same := sameNodes_drop f u
  have nodes := h.drop_nodes listed below
  have inNodes : ∀ v, v ∈ (f.drop u).nodes ↔ v ≠ u ∧ v ∈ f.nodes := fun v => by
    rw [nodes, h.nodes_nodup.mem_erase_iff]
  constructor
  case sorted =>
    rw [nodes]
    exact h.sorted.sublist List.erase_sublist
  case below =>
    intro v inside
    rw [same.next]
    exact h.below v ((inNodes v).1 inside).2
  case root_listed =>
    rw [same.root, inNodes]
    exact ⟨fun root => below root.symm, h.root_listed⟩
  case root_le =>
    intro v inside
    rw [same.root]
    exact h.root_le v ((inNodes v).1 inside).2
  case root_iff =>
    intro v inside
    rw [same.kind, same.root]
    exact h.root_iff v ((inNodes v).1 inside).2
  case root_via =>
    rw [same.via, same.root]
    exact h.root_via
  case root_parent =>
    rw [same.parent, same.root]
    exact h.root_parent
  case loose_iff =>
    intro v inside
    rw [same.root, same.kind, same.parent]
    exact h.loose_iff v ((inNodes v).1 inside).2
  case hung =>
    intro v inside p parent
    have old := ((inNodes v).1 inside).2
    rw [same.parent] at parent
    obtain ⟨hub, less, via⟩ := h.hung v old p parent
    have stays : p ≠ u := fun gone => bare v old (gone ▸ parent)
    refine ⟨⟨(inNodes p).2 ⟨stays, hub.1⟩, ?_⟩, less, ?_⟩
    · rw [same.kind]
      exact hub.2
    · rw [same.via, same.root]
      exact via
  case kids_iff =>
    intro k p inside v
    have old := ((inNodes p).1 inside).2
    rw [h.drop_kids listed below, h.mem_unlink_kids listed k old, h.kids_iff k p old, inNodes,
      same.kind, same.parent]
    tauto
  case kids_nodup =>
    intro k p inside
    rw [h.drop_kids listed below]
    exact h.nodup_unlink_kids k ((inNodes p).1 inside).2

end Shape

namespace Ok

variable {f : Forest K} (h : f.Ok) {u : Nat} (listed : u ∈ f.nodes) (below : u ≠ f.root)
include h listed below

theorem mem_drop_table (v : Nat) : v ∈ (f.drop u).table ↔ v ≠ u ∧ v ∈ f.table := by
  rw [h.drop_table listed below, h.nodup.mem_erase_iff]

theorem mem_drop_nodes (v : Nat) : v ∈ (f.drop u).nodes ↔ v ≠ u ∧ v ∈ f.nodes := by
  rw [h.drop_nodes listed below, h.nodes_nodup.mem_erase_iff]

theorem drop (bare : f.Bare u) : (f.drop u).Ok where
  toShape := h.toShape.drop listed below bare
  nodup := by
    rw [h.drop_table listed below]
    exact h.nodup.erase u
  listed v inside := by
    rw [h.mem_drop_table listed below] at inside
    rw [h.mem_drop_nodes listed below]
    exact ⟨inside.1, h.listed v inside.2⟩
  placed v inside placed := by
    rw [h.mem_drop_nodes listed below] at inside
    rw [(sameNodes_drop f u).kind] at placed
    rw [h.mem_drop_table listed below]
    exact ⟨inside.1, h.placed v inside.2 placed⟩
  unique v inside w inside' same := by
    rw [h.mem_drop_table listed below] at inside inside'
    rw [(sameNodes_drop f u).key] at same
    exact h.unique v inside.2 w inside'.2 same

end Ok

theorem Shape.agree_drop_hang {f : Forest K} (h : f.Shape) {u p : Nat} {k : Kind}
    (listed : u ∈ f.nodes) (notRoot : u ≠ f.root) (loose : f.kind u = .loose)
    (inner : k = .inner ∨ k = .leaf) : Agree (f.drop u) ((f.hang u k p).drop u) := by
  have parent := (h.loose_iff u listed notRoot).1 loose
  have side : (f.hang u k p).side u = k := by
    rcases inner with rfl | rfl <;> simp [side, Forest.hang]
  have before : f.drop u = { f with nodes := f.nodes.erase u, table := f.table.erase u } := by
    simp [Forest.drop, unlink, parent, loose]
  have kindNe : k ≠ .root := by rcases inner with rfl | rfl <;> simp
  have after : (f.hang u k p).drop u = { f.hang u k p with
      nodes := f.nodes.erase u, table := f.table.erase u, kids := f.kids } := by
    unfold Forest.drop unlink
    rw [side]
    simp [Forest.hang, kindNe]
  have other : ∀ v ∈ f.nodes.erase u, v ≠ u := fun v inside same =>
    h.nodes_nodup.not_mem_erase (same ▸ inside)
  rw [before, after]
  constructor
  case kind | parent =>
    intro v inside
    simp [Forest.hang, other v inside]
  all_goals first | rfl | exact fun _ _ => rfl | exact fun _ _ _ => rfl

theorem Shape.agree_drop_kind {f : Forest K} (h : f.Shape) {u : Nat} {k : Kind}
    (listed : u ∈ f.nodes) (notRoot : u ≠ f.root) (loose : f.kind u = .loose)
    (kindNe : k ≠ .root) :
    Agree (f.drop u) ({ f with kind := Function.update f.kind u k }.drop u) := by
  have parent := (h.loose_iff u listed notRoot).1 loose
  have other : ∀ v ∈ f.nodes.erase u, v ≠ u := fun v inside same =>
    h.nodes_nodup.not_mem_erase (same ▸ inside)
  simp only [Forest.drop, unlink, parent, loose, Function.update_self, kindNe, reduceCtorEq,
    if_false]
  constructor
  case kind =>
    intro v inside
    simp [other v inside]
  all_goals first | rfl | exact fun _ _ => rfl | exact fun _ _ _ => rfl

inductive Below (f : Forest K) (u : Nat) : Nat → Prop where
  | child {v : Nat} (parent : f.parent v = some u) : Below f u v
  | step {p v : Nat} (above : Below f u p) (parent : f.parent v = some p) : Below f u v

namespace Below

variable {f f' : Forest K} {u v w : Nat}

theorem congr (below : f.Below u v) (same : f'.parent = f.parent) : f'.Below u v := by
  induction below with
  | child parent => exact .child (same ▸ parent)
  | step _ parent ih => exact .step ih (same ▸ parent)

theorem trans (below : f.Below u v) (below' : f.Below v w) : f.Below u w := by
  induction below' with
  | child parent => exact .step below parent
  | step _ parent ih => exact .step ih parent

/-- Whatever has a path up to `u` is younger and leaves the root on the same side. -/
theorem of_shape (h : f.Shape) (below : f.Below u v) (listed : v ∈ f.nodes) :
    f.Hub u ∧ u < v ∧ (u ≠ f.root → f.via v = f.via u) := by
  induction below with
  | @child v parent =>
    obtain ⟨hub, less, via⟩ := h.hung v listed u parent
    exact ⟨hub, less, fun below => by rw [via, if_neg below]⟩
  | @step p v _ parent ih =>
    obtain ⟨hub, less, via⟩ := h.hung v listed p parent
    obtain ⟨hub', less', via'⟩ := ih hub.1
    refine ⟨hub', Nat.lt_trans less' less, fun below => ?_⟩
    have notRoot : p ≠ f.root := by
      rintro rfl
      exact Nat.not_lt.2 (h.root_le u hub'.1) less'
    rw [via, if_neg notRoot, via' below]

end Below

theorem Shape.not_below_of_bare {f : Forest K} (h : f.Shape) {u v : Nat} (bare : f.Bare u)
    (listed : v ∈ f.nodes) : ¬ f.Below u v := by
  intro below
  induction below with
  | child parent => exact bare _ listed parent
  | @step p v _ parent ih => exact ih (h.hung v listed p parent).1.1

def Within (f : Forest K) (u v : Nat) : Prop := v = u ∨ f.Below u v

theorem below_iff_child {f : Forest K} {u v : Nat} :
    f.Below u v ↔ ∃ w, f.parent w = some u ∧ f.Within w v := by
  constructor
  · intro below
    induction below with
    | @child v parent => exact ⟨v, parent, .inl rfl⟩
    | step _ parent ih =>
      obtain ⟨w, top, rfl | below⟩ := ih
      · exact ⟨_, top, .inr (.child parent)⟩
      · exact ⟨w, top, .inr (.step below parent)⟩
  · rintro ⟨w, parent, rfl | below⟩
    · exact .child parent
    · exact (Below.child parent).trans below

theorem Below.comparable {f : Forest K} {a b v : Nat} (below : f.Below a v)
    (within : f.Within b v) : f.Within a b ∨ f.Within b a := by
  induction below with
  | child parent =>
    rcases within with rfl | below'
    · exact .inl (.inr (.child parent))
    · cases below' with
      | child parent' => exact .inl (.inl (Option.some.inj (parent'.symm.trans parent)))
      | step above parent' =>
        obtain rfl := Option.some.inj (parent'.symm.trans parent)
        exact .inr (.inr above)
  | step above parent ih =>
    rcases within with rfl | below'
    · exact .inl (.inr (.step above parent))
    · cases below' with
      | child parent' =>
        obtain rfl := Option.some.inj (parent'.symm.trans parent)
        exact .inl (.inr above)
      | step above' parent' =>
        obtain rfl := Option.some.inj (parent'.symm.trans parent)
        exact ih (.inr above')

theorem Shape.not_within_parent {f : Forest K} (h : f.Shape) {u w : Nat} (listed : w ∈ f.nodes)
    (parent : f.parent w = some u) : ¬ f.Within w u := by
  obtain ⟨hub, older, -⟩ := h.hung w listed u parent
  rintro (rfl | below)
  · exact Nat.lt_irrefl u older
  · exact Nat.lt_asymm older (below.of_shape h hub.1).2.1

theorem Shape.child_unique {f : Forest K} (h : f.Shape) {u v w w' : Nat} (listed : w ∈ f.nodes)
    (listed' : w' ∈ f.nodes) (parent : f.parent w = some u) (parent' : f.parent w' = some u)
    (within : f.Within w v) (within' : f.Within w' v) : w = w' := by
  -- one child would be below the other, and so would their parent
  have apart : ∀ {a b : Nat}, a ∈ f.nodes → f.parent a = some u → f.parent b = some u →
      f.Within a b → a = b := by
    intro a b listed parent parent' under
    rcases under with rfl | below
    · rfl
    · cases below with
      | child same =>
        obtain rfl := Option.some.inj (same.symm.trans parent')
        exact absurd (.inl rfl) (h.not_within_parent listed parent)
      | step above same =>
        obtain rfl := Option.some.inj (same.symm.trans parent')
        exact absurd (.inr above) (h.not_within_parent listed parent)
  have either : f.Within w w' ∨ f.Within w' w := by
    rcases within with rfl | below
    · exact .inr within'
    · exact below.comparable within'
  rcases either with under | under
  · exact apart listed parent parent' under
  · exact (apart listed' parent' parent under).symm

structure Pruned (f f' : Forest K) (u : Nat) : Prop where
  ok : f'.Ok
  same : SameNodes f f'
  kept : ∀ v ∈ f'.nodes, v ∈ f.nodes
  gone : ∀ v ∈ f.nodes, v ∉ f'.nodes → f.Below u v
  bare : f'.Bare u
  table : ∀ v, v ∈ f'.table ↔ v ∈ f.table ∧ v ∈ f'.nodes

theorem Pruned.refl {f : Forest K} {u : Nat} (h : f.Ok) (bare : f.Bare u) : Pruned f f u :=
  ⟨h, .refl f, fun _ inside => inside, fun _ inside gone => absurd inside gone, bare,
    fun v => ⟨fun named => ⟨named, h.listed v named⟩, And.left⟩⟩

namespace Ok

variable {f : Forest K}

/-- A child `v` of `u` goes after what was below it, and then the rest below `u`. -/
theorem pruned_step (h : f.Ok) {f' f'' : Forest K} {u v : Nat} (child : f.parent v = some u)
    (first : Pruned f f' v) (stays : v ∈ f'.nodes) (rest : Pruned (f'.drop v) f'' u) :
    Pruned f f'' u := by
  have notRoot : v ≠ f'.root := by
    rw [first.same.root]
    exact h.not_root_of_parent child
  have same := first.same.trans (sameNodes_drop f' v)
  have nodes := first.ok.mem_drop_nodes stays notRoot
  constructor
  case ok => exact rest.ok
  case same => exact same.trans rest.same
  case kept => exact fun w inside => first.kept w ((nodes w).1 (rest.kept w inside)).2
  case gone =>
    intro w inside gone
    by_cases here : w = v
    · exact here ▸ .child child
    · by_cases early : w ∈ f'.nodes
      · have below := rest.gone w ((nodes w).2 ⟨here, early⟩) gone
        exact below.congr same.parent.symm
      · exact (Below.child child).trans (first.gone w inside early)
  case bare => exact rest.bare
  case table =>
    intro w
    rw [rest.table, first.ok.mem_drop_table stays notRoot, first.table]
    constructor
    · rintro ⟨⟨-, named, -⟩, inside⟩
      exact ⟨named, inside⟩
    · rintro ⟨named, inside⟩
      have before := (nodes w).1 (rest.kept w inside)
      exact ⟨⟨before.1, named, before.2⟩, inside⟩

theorem younger_lt (nodes : List Nat) {u v : Nat} (inside : v ∈ nodes) (younger : u < v) :
    (nodes.filter (v < ·)).length < (nodes.filter (u < ·)).length := by
  have sub : (nodes.filter (v < ·)).Sublist (nodes.filter (u < ·)) :=
    List.monotone_filter_right nodes fun w less => by
      simp only [decide_eq_true_eq] at less ⊢
      exact Nat.lt_trans younger less
  have mem : v ∈ nodes.filter (u < ·) := List.mem_filter.2 ⟨inside, by simpa using younger⟩
  apply Nat.lt_of_le_of_ne sub.length_le
  intro same
  rw [← sub.eq_of_length same] at mem
  simp at mem

/-- Once nothing is below the child `v` of `u`, it can be dropped, and less is left. -/
theorem drop_child (h : f.Ok) {f' : Forest K} {u v : Nat} (child : f.parent v = some u)
    (listed : v ∈ f.nodes) (first : Pruned f f' v) :
    v ∈ f'.nodes ∧ (f'.drop v).Ok ∧ u ∈ (f'.drop v).nodes ∧
      ((f'.drop v).nodes.filter (u < ·)).length < (f.nodes.filter (u < ·)).length := by
  obtain ⟨hub, younger, -⟩ := h.hung v listed u child
  have stays : v ∈ f'.nodes := by
    by_contra gone
    exact Nat.lt_irrefl v ((first.gone v listed gone).of_shape h.toShape listed).2.1
  have stays' : u ∈ f'.nodes := by
    by_contra gone
    have below := first.gone u hub.1 gone
    exact Nat.lt_asymm younger (below.of_shape h.toShape hub.1).2.1
  have notRoot : v ≠ f'.root := by
    rw [first.same.root]
    exact h.not_root_of_parent child
  have nodes := first.ok.mem_drop_nodes stays notRoot
  refine ⟨stays, first.ok.drop stays notRoot first.bare, ?_, ?_⟩
  · exact (nodes u).2 ⟨Nat.ne_of_lt younger, stays'⟩
  · have mem : v ∈ f.nodes.filter (u < ·) :=
      List.mem_filter.2 ⟨listed, by simpa using younger⟩
    have sub : (f'.drop v).nodes.filter (u < ·) ⊆ (f.nodes.filter (u < ·)).erase v := by
      intro w kept
      obtain ⟨inside, less⟩ := List.mem_filter.1 kept
      obtain ⟨other, old⟩ := (nodes w).1 inside
      exact (List.mem_erase_of_ne other).2 (List.mem_filter.2 ⟨first.kept w old, less⟩)
    have nodup : ((f'.drop v).nodes.filter (u < ·)).Nodup := by
      rw [first.ok.drop_nodes stays notRoot]
      exact (first.ok.nodes_nodup.erase v).filter _
    have shorter := (List.subperm_of_subset nodup sub).length_le
    rw [List.length_erase_of_mem mem] at shorter
    have pos := List.length_pos_of_mem mem
    omega

end Ok

theorem Pruned.gone_iff {f f' : Forest K} {u v : Nat} (pruned : Pruned f f' u)
    (listed : v ∈ f.nodes) (h : f.Shape) : v ∉ f'.nodes ↔ f.Below u v := by
  refine ⟨pruned.gone v listed, fun below => ?_⟩
  induction below with
  | @child v parent =>
    intro stays
    exact pruned.bare v stays (pruned.same.parent ▸ parent)
  | @step p v _ parent ih =>
    intro stays
    -- the parent has not gone either, as something hangs from it
    have parent' : f'.parent v = some p := pruned.same.parent ▸ parent
    exact ih (h.hung v listed p parent).1.1 (pruned.ok.hung v stays p parent').1.1

theorem Pruned.kids_iff {f f' : Forest K} {u p v : Nat} (pruned : Pruned f f' u) (h : f.Shape)
    (k : Kind) (inside : p ∈ f'.nodes) : v ∈ f'.kids k p ↔ v ∈ f.kids k p ∧ v ∈ f'.nodes := by
  rw [pruned.ok.kids_iff k p inside, h.kids_iff k p (pruned.kept p inside), pruned.same.kind,
    pruned.same.parent]
  constructor
  · rintro ⟨listed, rest⟩
    exact ⟨⟨pruned.kept v listed, rest⟩, listed⟩
  · rintro ⟨⟨-, rest⟩, listed⟩
    exact ⟨listed, rest⟩

structure Cut (f f' : Forest K) (u : Nat) : Prop where
  ok : f'.Ok
  same : SameNodes f f'
  nodes_iff : ∀ v, v ∈ f'.nodes ↔ v ∈ f.nodes ∧ v ≠ u ∧ ¬ f.Below u v
  table_iff : ∀ v, v ∈ f'.table ↔ v ∈ f.table ∧ v ∈ f'.nodes
  kids_iff : ∀ k, ∀ p ∈ f'.nodes, ∀ v, v ∈ f'.kids k p ↔ v ∈ f.kids k p ∧ v ∈ f'.nodes

theorem Pruned.stays {f f' : Forest K} {u : Nat} (pruned : Pruned f f' u) (h : f.Shape)
    (listed : u ∈ f.nodes) : u ∈ f'.nodes := by
  by_contra gone
  exact Nat.lt_irrefl u ((pruned.gone u listed gone).of_shape h listed).2.1

theorem Pruned.cut {f f' : Forest K} {u : Nat} (pruned : Pruned f f' u) (h : f.Ok)
    (listed : u ∈ f.nodes) (notRoot : u ≠ f.root) : Cut f (f'.drop u) u := by
  have stays := pruned.stays h.toShape listed
  have notRoot' : u ≠ f'.root := by rwa [pruned.same.root]
  have nodes := pruned.ok.mem_drop_nodes stays notRoot'
  have ok := pruned.ok.drop stays notRoot' pruned.bare
  constructor
  case ok => exact ok
  case same => exact pruned.same.trans (sameNodes_drop f' u)
  case nodes_iff =>
    intro v
    rw [nodes]
    constructor
    · rintro ⟨other, inside⟩
      have before := pruned.kept v inside
      exact ⟨before, other, fun below => (pruned.gone_iff before h.toShape).2 below inside⟩
    · rintro ⟨before, other, above⟩
      exact ⟨other, by_contra fun gone => above (pruned.gone v before gone)⟩
  case table_iff =>
    intro v
    rw [pruned.ok.mem_drop_table stays notRoot', pruned.table, nodes]
    tauto
  case kids_iff =>
    intro k p inside v
    have old := (nodes p).1 inside
    rw [ok.kids_iff k p inside, nodes, (sameNodes_drop f' u).kind, (sameNodes_drop f' u).parent]
    have kids := pruned.kids_iff (v := v) h.toShape k old.2
    have kids' := pruned.ok.kids_iff k p old.2 v
    tauto

def up (f : Forest K) : Nat → Nat → Option Nat
  | 0, u => some u
  | k + 1, u => (f.parent u).bind (f.up k)

theorem Below.up {f : Forest K} {u v : Nat} (below : f.Below u v) : ∃ k, f.up k v = some u := by
  induction below with
  | child parent => exact ⟨1, by rw [Forest.up, parent]; rfl⟩
  | step _ parent ih =>
    obtain ⟨k, path⟩ := ih
    exact ⟨k + 1, by rw [Forest.up, parent, Option.bind_some, path]⟩

theorem Shape.path {f : Forest K} (h : f.Shape) {u : Nat} (listed : u ∈ f.nodes)
    (placed : f.kind u ≠ .loose) (notRoot : u ≠ f.root) :
    ∃ k, f.up k u = some (f.via u) ∧ f.up (k + 1) u = some f.root ∧ f.via u ∈ f.nodes ∧
      f.via u ≠ f.root ∧ f.parent (f.via u) = some f.root := by
  induction u using Nat.strongRecOn with
  | ind u ih =>
    obtain ⟨p, parent⟩ := h.parent_of_placed listed notRoot placed
    obtain ⟨hub, less, via⟩ := h.hung u listed p parent
    by_cases direct : p = f.root
    · subst direct
      rw [if_pos rfl] at via
      refine ⟨0, by rw [via]; rfl, ?_, by rwa [via], by rwa [via], by rw [via, parent]⟩
      simp [up, parent]
    · rw [if_neg direct] at via
      have placed' : f.kind p ≠ .loose := by rcases hub.2 with kind | kind <;> simp [kind]
      obtain ⟨k, last, top, rest⟩ := ih p less hub.1 placed' direct
      refine ⟨k + 1, ?_, ?_, by rwa [via]⟩
      · rw [up, parent, Option.bind_some, last, via]
      · rw [up, parent, Option.bind_some, top]

theorem Shape.below_via {f : Forest K} (h : f.Shape) {u : Nat} (listed : u ∈ f.nodes)
    (placed : f.kind u ≠ .loose) (notRoot : u ≠ f.root) (other : u ≠ f.via u) :
    f.Below (f.via u) u := by
  induction u using Nat.strongRecOn with
  | ind u ih =>
    obtain ⟨p, parent⟩ := h.parent_of_placed listed notRoot placed
    obtain ⟨hub, less, via⟩ := h.hung u listed p parent
    by_cases direct : p = f.root
    · rw [if_pos direct] at via
      exact absurd via.symm other
    · rw [if_neg direct] at via
      have placed' : f.kind p ≠ .loose := by rcases hub.2 with kind | kind <;> simp [kind]
      by_cases last : p = f.via p
      · exact .child (by rw [via, ← last, parent])
      · have below := ih p less hub.1 placed' direct last
        exact .step (via ▸ below) parent

end Forest
