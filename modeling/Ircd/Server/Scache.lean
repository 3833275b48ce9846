import Ircd.Channel.Store
import Mathlib.Logic.Function.Basic

/-! `scache.c`: the server names are kept once, and the users point at them.

The lookup compares the whole of a name, but an entry has room for `HOSTLEN` characters of
it only.
-/

set_option autoImplicit false

namespace Ircd

def scacheHashSize : Nat := 257

structure ScacheEntry where
  ptr : Nat
  name : CStr
  deriving DecidableEq, Repr

structure Scache where
  chain : Nat → List ScacheEntry
  brk : Nat

namespace Scache

def cleared : Scache := { chain := fun _ => [], brk := 0 }

def hash (name : CStr) : Nat :=
  name.foldl (fun hashValue c => hashValue + (toLower c).toNat) 0 % scacheHashSize

def link (s : Scache) (hashIndex : Nat) (e : ScacheEntry) : Scache :=
  { chain := Function.update s.chain hashIndex (e :: s.chain hashIndex), brk := s.brk + 1 }

theorem mem_link (s : Scache) (hashIndex h : Nat) (e e' : ScacheEntry) :
    e' ∈ (s.link hashIndex e).chain h ↔ (h = hashIndex ∧ e' = e) ∨ e' ∈ s.chain h := by
  by_cases here : h = hashIndex
  · subst here
    simp [link]
  · simp [link, here]

def findOrAdd (s : Scache) (name : CStr) : Scache × ScacheEntry :=
  let hashIndex := hash name
  match (s.chain hashIndex).find? fun e => irccmp e.name name == .eq with
  | some e => (s, e)
  | none =>
    let e := { ptr := s.brk, name := strncpyIrc name hostLen }
    (s.link hashIndex e, e)

def calls (s : Scache) : List CStr → Scache × List ScacheEntry
  | [] => (s, [])
  | name :: rest =>
    let called := s.findOrAdd name
    let later := called.1.calls rest
    (later.1, called.2 :: later.2)

def Stores (s : Scache) (e : ScacheEntry) : Prop := ∃ hashIndex, e ∈ s.chain hashIndex

def OneEach (s : Scache) : Prop :=
  ∀ e e', s.Stores e → s.Stores e' → irccmp e.name e'.name = .eq → e = e'

/-- The calls return stored names that are those of the arguments, the same entry for the
same name, and at no time is a name stored twice. -/
structure Canonical (names : List CStr) : Prop where
  stored : ∀ name e, (name, e) ∈ names.zip (cleared.calls names).2 →
    (cleared.calls names).1.Stores e ∧ irccmp e.name name = .eq
  same : ∀ name e name' e', (name, e) ∈ names.zip (cleared.calls names).2 →
    (name', e') ∈ names.zip (cleared.calls names).2 → irccmp name name' = .eq → e = e'
  oneEach : ∀ earlier, earlier <+: names → (cleared.calls earlier).1.OneEach

theorem hash_congr {name name' : CStr} (same : irccmp name name' = .eq) : hash name = hash name' := by
  have sum : ∀ (s : CStr) (acc : Nat),
      s.foldl (fun hashValue c => hashValue + (toLower c).toNat) acc =
        (s.map toLower).foldl (fun hashValue c => hashValue + c.toNat) acc := by
    intro s acc
    rw [List.foldl_map]
  rw [hash, hash, sum, sum, map_toLower_eq same]

structure Sorted (s : Scache) : Prop where
  hashed : ∀ hashIndex, ∀ e ∈ s.chain hashIndex, hash e.name = hashIndex
  once : ∀ hashIndex, ∀ e ∈ s.chain hashIndex, ∀ e' ∈ s.chain hashIndex,
    irccmp e.name e'.name = .eq → e = e'

theorem sorted_cleared : cleared.Sorted where
  hashed _ _ inside := absurd inside List.not_mem_nil
  once _ _ inside := absurd inside List.not_mem_nil

theorem Sorted.oneEach {s : Scache} (sorted : s.Sorted) : s.OneEach := by
  intro e e' ⟨h, here⟩ ⟨h', there⟩ same
  have chain : h = h' := by
    rw [← sorted.hashed h e here, ← sorted.hashed h' e' there, hash_congr same]
  subst chain
  exact sorted.once h e here e' there same

theorem findOrAdd_cases (s : Scache) (name : CStr) :
    (∃ e, e ∈ s.chain (hash name) ∧ irccmp e.name name = .eq ∧ s.findOrAdd name = (s, e)) ∨
    (∀ e ∈ s.chain (hash name), irccmp e.name name ≠ .eq) ∧
      s.findOrAdd name =
        (s.link (hash name) { ptr := s.brk, name := strncpyIrc name hostLen },
          { ptr := s.brk, name := strncpyIrc name hostLen }) := by
  cases found : (s.chain (hash name)).find? fun e => irccmp e.name name == .eq with
  | some e =>
    have hit : irccmp e.name name = .eq := by
      have test := List.find?_some found
      rwa [beq_iff_eq] at test
    have called : s.findOrAdd name = (s, e) := by
      simp only [findOrAdd, found]
    exact .inl ⟨e, List.mem_of_find?_eq_some found, hit, called⟩
  | none =>
    refine .inr ⟨fun e inside same => ?_, ?_⟩
    · have test := List.find?_eq_none.mp found e inside
      rw [same] at test
      exact test rfl
    · simp only [findOrAdd, found]

/-- What one call does: the entry of the name is there afterwards, and all others stay. -/
theorem Sorted.findOrAdd {s : Scache} (sorted : s.Sorted) {name : CStr}
    (fits : name.length ≤ hostLen) :
    (s.findOrAdd name).1.Sorted ∧ (s.findOrAdd name).1.Stores (s.findOrAdd name).2 ∧
      irccmp (s.findOrAdd name).2.name name = .eq ∧
      ∀ e, s.Stores e → (s.findOrAdd name).1.Stores e := by
  rcases findOrAdd_cases s name with ⟨e, inside, hit, called⟩ | ⟨absent, called⟩
  · rw [called]
    exact ⟨sorted, ⟨_, inside⟩, hit, fun _ kept => kept⟩
  · have whole : strncpyIrc name hostLen = name := List.take_of_length_le fits
    rw [called, whole]
    refine ⟨⟨?_, ?_⟩, ⟨hash name, ?_⟩, irccmp_self name, ?_⟩
    · intro h e inside
      rcases (mem_link _ _ _ _ _).mp inside with ⟨rfl, rfl⟩ | old
      · rfl
      · exact sorted.hashed h e old
    · intro h e inside e' inside' same
      rcases (mem_link _ _ _ _ _).mp inside with ⟨rfl, rfl⟩ | old <;>
        rcases (mem_link _ _ _ _ _).mp inside' with ⟨here, rfl⟩ | old'
      · rfl
      · exact absurd (irccmp_comm same) (absent e' old')
      · subst here
        exact absurd same (absent e old)
      · exact sorted.once h e old e' old' same
    · exact (mem_link _ _ _ _ _).mpr (.inl ⟨rfl, rfl⟩)
    · intro e ⟨h, inside⟩
      exact ⟨h, (mem_link _ _ _ _ _).mpr (.inr inside)⟩

theorem Sorted.calls {s : Scache} (sorted : s.Sorted) {names : List CStr}
    (fit : ∀ name ∈ names, name.length ≤ hostLen) :
    (s.calls names).1.Sorted ∧ (∀ e, s.Stores e → (s.calls names).1.Stores e) ∧
      ∀ name e, (name, e) ∈ names.zip (s.calls names).2 →
        (s.calls names).1.Stores e ∧ irccmp e.name name = .eq := by
  induction names generalizing s with
  | nil => exact ⟨sorted, fun _ kept => kept, fun _ _ inside => absurd inside List.not_mem_nil⟩
  | cons name rest ih =>
    obtain ⟨after, here, equal, kept⟩ := sorted.findOrAdd (fit name List.mem_cons_self)
    obtain ⟨last, stay, later⟩ := ih after fun n inside => fit n (List.mem_cons_of_mem name inside)
    refine ⟨last, fun e old => stay e (kept e old), fun n e inside => ?_⟩
    rcases List.mem_cons.mp inside with first | inside
    · cases first
      exact ⟨stay _ here, equal⟩
    · exact later n e inside

def Short (s : Scache) : Prop := ∀ e, s.Stores e → e.name.length ≤ hostLen

theorem Short.findOrAdd {s : Scache} (short : s.Short) (name : CStr) :
    (s.findOrAdd name).1.Short := by
  rcases findOrAdd_cases s name with ⟨e, _, _, called⟩ | ⟨_, called⟩
  · rwa [called]
  · rw [called]
    intro e ⟨h, inside⟩
    rcases (mem_link _ _ _ _ _).mp inside with ⟨_, rfl⟩ | old
    · exact List.length_take_le hostLen name
    · exact short e ⟨h, old⟩

theorem Short.calls {s : Scache} (short : s.Short) (names : List CStr) :
    (s.calls names).1.Short := by
  induction names generalizing s with
  | nil => exact short
  | cons name rest ih => exact ih (short.findOrAdd name)

theorem exists_returned {names : List CStr} {name : CStr} (inside : name ∈ names) (s : Scache) :
    ∃ e, (name, e) ∈ names.zip (s.calls names).2 := by
  induction names generalizing s with
  | nil => cases inside
  | cons first rest ih =>
    rcases List.mem_cons.mp inside with rfl | later
    · exact ⟨_, List.mem_cons_self⟩
    · obtain ⟨e, returned⟩ := ih later (s.findOrAdd first).1
      exact ⟨e, List.mem_cons_of_mem _ returned⟩

/-- `find_or_add` is canonical on the names that fit in an entry, and on no others. -/
theorem canonical_iff (names : List CStr) :
    Canonical names ↔ ∀ name ∈ names, name.length ≤ hostLen := by
  constructor
  · intro canonical name inside
    have short : cleared.Short := fun e ⟨_, stored⟩ => absurd stored List.not_mem_nil
    obtain ⟨e, returned⟩ := exists_returned inside cleared
    obtain ⟨stored, equal⟩ := canonical.stored name e returned
    rw [← irccmp_length equal]
    exact short.calls names e stored
  · intro fit
    obtain ⟨sorted, _, returned⟩ := sorted_cleared.calls fit
    refine ⟨returned, fun name e name' e' here there same => ?_, fun earlier front => ?_⟩
    · obtain ⟨stored, equal⟩ := returned name e here
      obtain ⟨stored', equal'⟩ := returned name' e' there
      exact sorted.oneEach e e' stored stored'
        (irccmp_trans equal (irccmp_trans same (irccmp_comm equal')))
    · exact (sorted_cleared.calls fun name inside => fit name (front.subset inside)).1.oneEach

def longServer : CStr := List.replicate 64 'a'

theorem longServer_not_canonical :
    ¬ Canonical [longServer, longServer] ∧ ¬ (cleared.calls [longServer, longServer]).1.OneEach := by
  have twice : (cleared.calls [longServer, longServer]).2 =
      [⟨0, longServer.take 63⟩, ⟨1, longServer.take 63⟩] := by decide
  have both : ∀ e ∈ (cleared.calls [longServer, longServer]).2,
      (cleared.calls [longServer, longServer]).1.Stores e := by
    intro e inside
    exact ⟨hash longServer, by revert e; decide⟩
  have double : ¬ (cleared.calls [longServer, longServer]).1.OneEach := by
    intro once
    rw [twice] at both
    have same := once _ _ (both _ List.mem_cons_self)
      (both _ (List.mem_cons_of_mem _ List.mem_cons_self)) (irccmp_self _)
    exact absurd same (by decide)
  exact ⟨fun canonical => double (canonical.oneEach _ (List.prefix_refl _)), double⟩

end Scache

end Ircd
