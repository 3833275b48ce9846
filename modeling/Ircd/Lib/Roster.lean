import Mathlib.Data.List.Nodup
import Mathlib.Logic.Function.Basic

/-! Rosters: groups and their members kept as two mirrored families of lists.

Each group lists its members and counts them, each user lists its groups and counts
them, and the groups themselves are on one list, in the buckets of a table under
their keys, and in a count. `Mirror` says that all of these agree; the four edits
below are the only ones that a program needs to keep it.
-/

set_option autoImplicit false

structure Roster (U C H : Type*) where
  members : C → List U
  size : C → Int
  groups : U → List C
  joined : U → Int
  list : List C
  bucket : H → List C
  key : C → H
  count : Int

namespace Roster

variable {U C H : Type*} [DecidableEq U] [DecidableEq C] [DecidableEq H]

def join (r : Roster U C H) (u : U) (c : C) : Roster U C H :=
  { r with
    members := Function.update r.members c (u :: r.members c)
    size := Function.update r.size c (r.size c + 1)
    groups := Function.update r.groups u (c :: r.groups u)
    joined := Function.update r.joined u (r.joined u + 1) }

def leave (r : Roster U C H) (u : U) (c : C) : Roster U C H :=
  { r with
    members := Function.update r.members c ((r.members c).erase u)
    size := Function.update r.size c (r.size c - 1)
    groups := Function.update r.groups u ((r.groups u).erase c)
    joined := Function.update r.joined u (r.joined u - 1) }

def enlist (r : Roster U C H) (c : C) (k : H) : Roster U C H :=
  { r with
    members := Function.update r.members c []
    size := Function.update r.size c 0
    list := c :: r.list
    bucket := Function.update r.bucket k (c :: r.bucket k)
    key := Function.update r.key c k
    count := r.count + 1 }

def delist (r : Roster U C H) (c : C) : Roster U C H :=
  { r with
    list := r.list.erase c
    bucket := Function.update r.bucket (r.key c) ((r.bucket (r.key c)).erase c)
    count := r.count - 1 }

structure Mirror (r : Roster U C H) : Prop where
  member_iff : ∀ u c, u ∈ r.members c ↔ c ∈ r.groups u
  members_nodup : ∀ c, (r.members c).Nodup
  groups_nodup : ∀ u, (r.groups u).Nodup
  size_eq : ∀ c, r.size c = (r.members c).length
  joined_eq : ∀ u, r.joined u = (r.groups u).length
  listed : ∀ u c, u ∈ r.members c → c ∈ r.list
  list_nodup : r.list.Nodup
  bucket_nodup : ∀ h, (r.bucket h).Nodup
  bucket_iff : ∀ h c, c ∈ r.bucket h ↔ c ∈ r.list ∧ r.key c = h
  count_eq : r.count = r.list.length

namespace Mirror

variable {r : Roster U C H}

omit [DecidableEq U] [DecidableEq C] [DecidableEq H] in
theorem not_mem_groups (h : r.Mirror) {u : U} {c : C} (outside : c ∉ r.list) : c ∉ r.groups u :=
  fun inside => outside (h.listed u c ((h.member_iff u c).2 inside))

omit [DecidableEq H] in
theorem join (h : r.Mirror) {u : U} {c : C} (inList : c ∈ r.list) (new : u ∉ r.members c) :
    (r.join u c).Mirror := by
  have new' : c ∉ r.groups u := fun inside => new ((h.member_iff u c).2 inside)
  refine ⟨fun v d => ?_, fun d => ?_, fun v => ?_, fun d => ?_, fun v => ?_, fun v d => ?_,
    h.list_nodup, h.bucket_nodup, h.bucket_iff, h.count_eq⟩
  · have old := h.member_iff v d
    by_cases user : v = u <;> by_cases group : d = c <;>
      simp_all [Roster.join]
  · by_cases group : d = c
    · subst group
      simpa [Roster.join] using ⟨new, h.members_nodup d⟩
    · simpa [Roster.join, group] using h.members_nodup d
  · by_cases user : v = u
    · subst user
      simpa [Roster.join] using ⟨new', h.groups_nodup v⟩
    · simpa [Roster.join, user] using h.groups_nodup v
  · by_cases group : d = c
    · subst group
      simp [Roster.join, h.size_eq]
    · simpa [Roster.join, group] using h.size_eq d
  · by_cases user : v = u
    · subst user
      simp [Roster.join, h.joined_eq]
    · simpa [Roster.join, user] using h.joined_eq v
  · intro inside
    by_cases group : d = c
    · exact group ▸ inList
    · exact h.listed v d (by simpa [Roster.join, group] using inside)

omit [DecidableEq H] in
theorem leave (h : r.Mirror) {u : U} {c : C} (member : u ∈ r.members c) : (r.leave u c).Mirror := by
  have member' : c ∈ r.groups u := (h.member_iff u c).1 member
  refine ⟨fun v d => ?_, fun d => ?_, fun v => ?_, fun d => ?_, fun v => ?_, fun v d => ?_,
    h.list_nodup, h.bucket_nodup, h.bucket_iff, h.count_eq⟩
  · have old := h.member_iff v d
    by_cases user : v = u <;> by_cases group : d = c <;>
      simp_all [Roster.leave, (h.members_nodup c).mem_erase_iff,
        (h.groups_nodup u).mem_erase_iff]
  · by_cases group : d = c
    · subst group
      simpa [Roster.leave] using (h.members_nodup d).erase u
    · simpa [Roster.leave, group] using h.members_nodup d
  · by_cases user : v = u
    · subst user
      simpa [Roster.leave] using (h.groups_nodup v).erase c
    · simpa [Roster.leave, user] using h.groups_nodup v
  · by_cases group : d = c
    · subst group
      have length := List.length_erase_of_mem member
      have pos := List.length_pos_of_mem member
      simp only [Roster.leave, Function.update_self, h.size_eq]
      omega
    · simpa [Roster.leave, group] using h.size_eq d
  · by_cases user : v = u
    · subst user
      have length := List.length_erase_of_mem member'
      have pos := List.length_pos_of_mem member'
      simp only [Roster.leave, Function.update_self, h.joined_eq]
      omega
    · simpa [Roster.leave, user] using h.joined_eq v
  · intro inside
    by_cases group : d = c
    · subst group
      exact h.listed u d member
    · exact h.listed v d (by simpa [Roster.leave, group] using inside)

omit [DecidableEq U] in
theorem enlist (h : r.Mirror) {c : C} (outside : c ∉ r.list) (k : H) : (r.enlist c k).Mirror := by
  have nobody : r.members c = [] := by
    apply List.eq_nil_iff_forall_not_mem.2
    intro u inside
    exact outside (h.listed u c inside)
  have absent : ∀ h', c ∉ r.bucket h' := fun h' inside => outside ((h.bucket_iff h' c).1 inside).1
  have same : ∀ d, (r.enlist c k).members d = r.members d := by
    intro d
    by_cases group : d = c
    · subst group
      simp [Roster.enlist, nobody]
    · simp [Roster.enlist, group]
  refine ⟨fun v d => ?_, fun d => ?_, h.groups_nodup, fun d => ?_, h.joined_eq, fun v d => ?_, ?_,
    fun h' => ?_, fun h' d => ?_, ?_⟩
  · rw [same]
    exact h.member_iff v d
  · rw [same]
    exact h.members_nodup d
  · rw [same]
    by_cases group : d = c
    · subst group
      simp [Roster.enlist, nobody]
    · simpa [Roster.enlist, group] using h.size_eq d
  · rw [same]
    intro inside
    exact List.mem_cons_of_mem _ (h.listed v d inside)
  · exact List.nodup_cons.2 ⟨outside, h.list_nodup⟩
  · by_cases here : h' = k
    · subst here
      simpa [Roster.enlist] using ⟨absent h', h.bucket_nodup h'⟩
    · simpa [Roster.enlist, here] using h.bucket_nodup h'
  · have old := h.bucket_iff h' d
    by_cases group : d = c
    · subst group
      have away : d ∉ r.bucket h' := absent h'
      by_cases here : h' = k
      · simp [Roster.enlist, here]
      · simp [Roster.enlist, here, away, Ne.symm here]
    · by_cases here : h' = k
      · subst here
        simp [Roster.enlist, group, old]
      · simp [Roster.enlist, group, here, old]
  · simp [Roster.enlist, h.count_eq]

omit [DecidableEq U] in
theorem delist (h : r.Mirror) {c : C} (inList : c ∈ r.list) (nobody : r.members c = []) :
    (r.delist c).Mirror := by
  refine ⟨h.member_iff, h.members_nodup, h.groups_nodup, h.size_eq, h.joined_eq, fun v d => ?_,
    h.list_nodup.erase c, fun h' => ?_, fun h' d => ?_, ?_⟩
  · intro inside
    have other : d ≠ c := by
      rintro rfl
      have absurdity : v ∈ r.members d := inside
      rw [nobody] at absurdity
      cases absurdity
    exact (List.mem_erase_of_ne other).2 (h.listed v d inside)
  · by_cases here : h' = r.key c
    · subst here
      simpa [Roster.delist] using (h.bucket_nodup _).erase c
    · simpa [Roster.delist, here] using h.bucket_nodup h'
  · have old := h.bucket_iff h' d
    by_cases here : h' = r.key c
    · subst here
      simp only [Roster.delist, Function.update_self, (h.bucket_nodup _).mem_erase_iff,
        h.list_nodup.mem_erase_iff, old]
      tauto
    · have other : d = c → r.key d ≠ h' := by
        rintro rfl same
        exact here same.symm
      simp only [Roster.delist, Function.update_of_ne here, h.list_nodup.mem_erase_iff, old]
      tauto
  · have length := List.length_erase_of_mem inList
    have pos := List.length_pos_of_mem inList
    simp only [Roster.delist, h.count_eq]
    omega

end Mirror

end Roster
