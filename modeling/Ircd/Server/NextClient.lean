import Ircd.Server.NameRuns
import Ircd.Text.Mask

/-! `next_client`: the callers' loop over the clients that a name or a mask stands for.

A name that the hash table has is not looked for in the list, so that the place in the list
jumps. What ends the loop behind such a client is the test whether it comes right before.
-/

set_option autoImplicit false

namespace Ircd

open Chain

/-- The list with the pointers between its clients, and the table that only has clients of
the list. -/
structure ClientList where
  names : ClientNames
  next : ClientId → Option ClientId
  prev : ClientId → Option ClientId
  linked : Double next prev names.globalClientList.head? names.globalClientList
  once : names.globalClientList.Nodup
  made : ∀ u ∈ names.globalClientList, u < names.nextClient
  listed : ∀ {name : CStr} {u : ClientId},
    names.hashFindClient name = some u → u ∈ names.globalClientList

namespace ClientList

def clients (s : ClientList) : List ClientId := s.names.globalClientList

def head (s : ClientList) : Option ClientId := s.clients.head?

/-- `find_client`, which hands back `cptr` where there is none of this name. -/
def findClient (s : ClientList) (ch : CStr) (cptr : Option ClientId) : Option ClientId :=
  (s.names.hashFindClient ch).or cptr

def meant (s : ClientList) (hits : CStr → Bool) (u : ClientId) : Bool := hits (s.names.nameOf u)

/-- The loop along the list, which ends at the first client with a name that `hits`. -/
def scan (s : ClientList) (hits : CStr → Bool) (next : Option ClientId) : Option ClientId :=
  (walk s.next s.names.nextClient next).find? (s.meant hits)

/-- `next_client` and `next_client_double`, which differ in the test. -/
def nextMatching (s : ClientList) (hits : CStr → Bool) (ch : CStr) (tmp : Option ClientId) :
    Option ClientId :=
  let next := s.findClient ch tmp
  if tmp.any fun tmp => s.prev tmp = next then none
  else if next ≠ tmp then next
  else s.scan hits next

def matchesEither (ch name : CStr) : Bool := matchMask ch name || matchMask name ch

def nextClient (s : ClientList) (next : Option ClientId) (ch : CStr) : Option ClientId :=
  s.nextMatching (matchMask ch) ch next

def nextClientDouble (s : ClientList) (next : Option ClientId) (ch : CStr) : Option ClientId :=
  s.nextMatching (matchesEither ch) ch next

/-- `for (x = client; x = next_client(x, mask); x = x->next)`: the clients that it comes to
when it ends within so many turns. -/
def enumerate (s : ClientList) (nextClient : Option ClientId → Option ClientId) :
    Nat → Option ClientId → Option (List ClientId)
  | 0, _ => none
  | turns + 1, x =>
    match nextClient x with
    | none => some []
    | some x => (s.enumerate nextClient turns (s.next x)).map (x :: ·)

/-- The loop over the whole list ends, comes to every client that is meant and to none twice. -/
def Enumerates (s : ClientList) (nextClient : Option ClientId → Option ClientId)
    (hits : CStr → Bool) : Prop :=
  ∃ turns visited, s.enumerate nextClient turns s.head = some visited ∧ visited.Nodup ∧
    ∀ u ∈ s.clients, s.meant hits u = true → u ∈ visited

/-- There is no client of that name, or it is not the last of the list and the only one that is
meant. Where it is the first and not meant itself, one client may be meant. -/
def Enumerable (s : ClientList) (hits : CStr → Bool) (ch : CStr) : Prop :=
  match s.names.hashFindClient ch with
  | none => True
  | some x =>
    if s.head = some x ∧ s.meant hits x = false then
      (s.clients.filter (s.meant hits)).length ≤ 1
    else s.clients.getLast? ≠ some x ∧ ∀ u ∈ s.clients, s.meant hits u = true → u = x

variable {s : ClientList} {hits : CStr → Bool} {ch : CStr} {pre post : List ClientId}

theorem scan_eq (place : s.clients = pre ++ post) :
    s.scan hits post.head? = post.find? (s.meant hits) := by
  have linked : Linked s.next post.head? post := by
    have whole := s.linked.forth
    rw [← clients, place] at whole
    clear place
    generalize (pre ++ post).head? = p at whole
    induction pre generalizing p with
    | nil => exact whole.head?_eq ▸ whole
    | cons u pre ih => exact ih _ whole.2
  have few : post.length ≤ s.names.nextClient := by
    have all := ChainTable.length_le_of_lt s.once s.made
    rw [← clients, place, List.length_append] at all
    omega
  rw [scan, linked.walk_eq few]

theorem next_eq {u : ClientId} (place : s.clients = pre ++ u :: post) : s.next u = post.head? := by
  have linked := s.linked.forth
  rw [← clients, place] at linked
  exact linked.next_eq

theorem prev_eq {u : ClientId} (place : s.clients = pre ++ u :: post) :
    s.prev u = pre.getLast? := by
  have linked := s.linked.back
  rw [← clients, place] at linked
  rw [linked.prev_eq, Option.or_none]

theorem nextMatching_of_none (none : s.names.hashFindClient ch = none)
    (place : s.clients = pre ++ post) :
    s.nextMatching hits ch post.head? = post.find? (s.meant hits) := by
  have onwards : ¬ (post.head?.any fun tmp => s.prev tmp = post.head?) = true := by
    cases post with
    | nil => exact Bool.false_ne_true
    | cons u post =>
      have back := prev_eq place
      intro same
      rw [List.head?_cons, Option.any_some, decide_eq_true_iff, back] at same
      have twice := s.once
      rw [← clients, place] at twice
      have apart := (List.nodup_append.mp twice).2.2 u (List.mem_of_getLast? same) u
        List.mem_cons_self
      exact apart rfl
  simp only [nextMatching, findClient, none, Option.none_or, if_neg onwards]
  rw [if_neg (by simp)]
  exact scan_eq place

variable {x : ClientId}

/-- Where the table has the name, its client comes next, but not right behind itself. -/
theorem nextMatching_of_found (found : s.names.hashFindClient ch = some x)
    (tmp : Option ClientId) :
    s.nextMatching hits ch tmp =
      if tmp.any fun tmp => s.prev tmp = some x then none
      else if tmp = some x then s.scan hits tmp else some x := by
  simp only [nextMatching, findClient, found, Option.some_or]
  split
  · rfl
  · split
    · next apart => rw [if_neg (Ne.symm apart)]
    · next same => rw [if_pos (by simpa using Eq.symm (not_not.mp same)), ← not_not.mp same]

theorem nextMatching_end (found : s.names.hashFindClient ch = some x) :
    s.nextMatching hits ch none = some x := by
  rw [nextMatching_of_found found]
  rfl

theorem nextMatching_behind (found : s.names.hashFindClient ch = some x) {w : ClientId}
    {rest : List ClientId} (place : s.clients = pre ++ x :: w :: rest) :
    s.nextMatching hits ch (some w) = none := by
  have back : s.prev w = some x := by
    have split : s.clients = (pre ++ [x]) ++ w :: rest := by rw [place]; simp
    rw [prev_eq split, List.getLast?_concat]
  rw [nextMatching_of_found found, Option.any_some, decide_eq_true back, if_pos rfl]

theorem nextMatching_elsewhere (found : s.names.hashFindClient ch = some x) {w : ClientId}
    (back : s.prev w ≠ some x) (other : w ≠ x) : s.nextMatching hits ch (some w) = some x := by
  rw [nextMatching_of_found found, Option.any_some, decide_eq_false back,
    if_neg Bool.false_ne_true, if_neg (fun same => other (Option.some.inj same))]

variable {f : Option ClientId → Option ClientId} {turns turns' : Nat} {p : Option ClientId}
  {visited visited' : List ClientId}

theorem enumerate_end (ends : f p = none) : s.enumerate f (turns + 1) p = some [] := by
  rw [enumerate, ends]

theorem enumerate_visit {u : ClientId} (visit : f p = some u) :
    s.enumerate f (turns + 1) p = (s.enumerate f turns (s.next u)).map (u :: ·) := by
  rw [enumerate, visit]

theorem enumerate_unique (ends : s.enumerate f turns p = some visited)
    (ends' : s.enumerate f turns' p = some visited') : visited = visited' := by
  induction turns generalizing turns' p visited visited' with
  | zero => cases ends
  | succ turns ih =>
    cases turns' with
    | zero => cases ends'
    | succ turns' =>
      cases next : f p with
      | none =>
        rw [enumerate_end next] at ends ends'
        cases ends
        cases ends'
        rfl
      | some u =>
        rw [enumerate_visit next, Option.map_eq_some_iff] at ends ends'
        obtain ⟨rest, goes, rfl⟩ := ends
        obtain ⟨rest', goes', rfl⟩ := ends'
        rw [ih goes goes']

theorem enumerates_iff_of_run (ends : s.enumerate f turns s.head = some visited) :
    s.Enumerates f hits ↔ visited.Nodup ∧
      ∀ u ∈ s.clients, s.meant hits u = true → u ∈ visited := by
  constructor
  · rintro ⟨turns', visited', ends', good⟩
    rw [enumerate_unique ends ends']
    exact good
  · exact fun good => ⟨turns, visited, ends, good⟩

/-- Without a client of that name the loop comes to those with a name that is meant. -/
theorem enumerate_scan (none : s.names.hashFindClient ch = none) :
    ∀ (post pre : List ClientId), s.clients = pre ++ post →
    ∃ turns, s.enumerate (s.nextMatching hits ch) turns post.head? =
      some (post.filter (s.meant hits)) := by
  intro post
  induction post with
  | nil =>
    intro pre place
    refine ⟨1, enumerate_end ?_⟩
    rw [nextMatching_of_none none place]
    rfl
  | cons u post ih =>
    intro pre place
    have onwards : s.clients = (pre ++ [u]) ++ post := by rw [place]; simp
    obtain ⟨turns, ends⟩ := ih _ onwards
    have here : s.nextMatching hits ch (u :: post).head? = (u :: post).find? (s.meant hits) :=
      nextMatching_of_none none place
    cases hit : s.meant hits u with
    | true =>
      have visit : s.nextMatching hits ch (u :: post).head? = some u := by
        rw [here, List.find?_cons_of_pos hit]
      refine ⟨turns + 1, ?_⟩
      rw [enumerate_visit visit, next_eq place, ends, List.filter_cons_of_pos hit]
      rfl
    | false =>
      cases turns with
      | zero => cases ends
      | succ turns =>
        have skip : s.nextMatching hits ch (u :: post).head? =
            s.nextMatching hits ch post.head? := by
          rw [here, nextMatching_of_none none onwards, List.find?_cons_of_neg (by simp [hit])]
        refine ⟨turns + 1, ?_⟩
        rw [enumerate, skip, ← enumerate, ends, List.filter_cons_of_neg (by simp [hit])]

/-- Behind the last client of the list the table hands out the same one again. -/
theorem enumerate_circle (found : s.names.hashFindClient ch = some x)
    (place : s.clients = pre ++ [x]) (turns : Nat) :
    s.enumerate (s.nextMatching hits ch) turns none = none := by
  induction turns with
  | zero => rfl
  | succ turns ih =>
    rw [enumerate_visit (nextMatching_end found), next_eq place, List.head?_nil, ih]
    rfl

/-- A name of the table: its client alone, unless it is the first and not meant itself. -/
theorem enumerate_hit (found : s.names.hashFindClient ch = some x)
    (first : s.nextMatching hits ch s.head = some x) {w : ClientId} {rest : List ClientId}
    (place : s.clients = pre ++ x :: w :: rest) :
    s.enumerate (s.nextMatching hits ch) 2 s.head = some [x] := by
  rw [enumerate_visit first, next_eq place, List.head?_cons,
    enumerate_end (nextMatching_behind found place)]
  rfl

theorem nextMatching_first (found : s.names.hashFindClient ch = some x)
    (elsewhere : ¬ (s.head = some x ∧ s.meant hits x = false)) :
    s.nextMatching hits ch s.head = some x := by
  cases clients : s.clients with
  | nil => exact absurd (s.listed found) (by rw [← ClientList.clients, clients]; simp)
  | cons h rest =>
    have head : s.head = some h := by rw [ClientList.head, clients]; rfl
    have place : s.clients = [] ++ h :: rest := clients
    rw [head] at elsewhere ⊢
    by_cases same : h = x
    · cases same
      have hit : s.meant hits x = true := by
        rw [← Bool.not_eq_false]
        exact fun miss => elsewhere ⟨rfl, miss⟩
      have scanned : s.scan hits (x :: rest).head? = _ := scan_eq place
      rw [nextMatching_of_found found, Option.any_some, prev_eq place, List.getLast?_nil]
      simp only [reduceCtorEq, decide_false, Bool.false_eq_true, if_false, if_true]
      rw [List.find?_cons_of_pos hit] at scanned
      exact scanned
    · apply nextMatching_elsewhere found _ same
      rw [prev_eq place]
      simp

/-- The first client of the list has the name and is not meant: the next one that is meant
comes before it, and ends the loop. -/
theorem enumerate_miss (found : s.names.hashFindClient ch = some x)
    (place : s.clients = x :: post) (miss : s.meant hits x = false) :
    s.enumerate (s.nextMatching hits ch) 3 s.head =
      some (((post.find? (s.meant hits)).map fun y => [y, x]).getD []) := by
  have head : s.head = (x :: post).head? := by rw [ClientList.head, place]
  have first : s.nextMatching hits ch s.head = post.find? (s.meant hits) := by
    have start : s.clients = [] ++ x :: post := place
    have scanned : s.scan hits (x :: post).head? = _ := scan_eq start
    rw [head, nextMatching_of_found found, List.head?_cons, Option.any_some, prev_eq start,
      List.getLast?_nil, ← List.head?_cons (a := x) (l := post), scanned,
      List.find?_cons_of_neg (by simp [miss])]
    simp
  cases hit : post.find? (s.meant hits) with
  | none =>
    rw [hit] at first
    exact enumerate_end first
  | some y =>
    rw [hit] at first
    obtain ⟨a, b, between, -⟩ := (List.find?_eq_some_iff_append.mp hit).2
    have at_ : s.clients = (x :: a) ++ y :: b := by rw [place, between]; rfl
    have once := s.once
    rw [← clients, at_] at once
    have second : s.nextMatching hits ch (s.next y) = some x := by
      rw [next_eq at_]
      cases b with
      | nil => exact nextMatching_end found
      | cons z b =>
        have behind : s.clients = ((x :: a) ++ [y]) ++ z :: b := by rw [at_]; simp
        apply nextMatching_elsewhere found
        · rw [prev_eq behind, List.getLast?_concat]
          intro same
          rw [Option.some.inj same] at once
          simp at once
        · intro same
          rw [same] at once
          simp at once
    have third : s.nextMatching hits ch (s.next x) = none := by
      have start : s.clients = [] ++ x :: post := place
      rw [next_eq start]
      cases post with
      | nil => cases hit
      | cons w post => exact nextMatching_behind found start
    rw [enumerate_visit first, enumerate_visit second, enumerate_end third]
    rfl

theorem visited_iff {meant : ClientId → Bool} (once : (x :: post).Nodup) (miss : meant x = false) :
    ((((post.find? meant).map fun y => [y, x]).getD []).Nodup ∧
      ∀ u ∈ x :: post, meant u = true → u ∈ ((post.find? meant).map fun y => [y, x]).getD []) ↔
    (post.filter meant).length ≤ 1 := by
  -- behind the miss the scan meets one match at most before it starts again
  cases hit : post.find? meant with
  | none =>
    have nobody := List.find?_eq_none.mp hit
    have empty : post.filter meant = [] := List.filter_eq_nil_iff.mpr nobody
    rw [empty]
    apply iff_of_true _ (Nat.zero_le 1)
    refine ⟨List.nodup_nil, fun u here hit => ?_⟩
    cases List.mem_cons.mp here with
    | inl same =>
      rw [same, miss] at hit
      cases hit
    | inr behind => exact absurd hit (nobody u behind)
  | some y =>
    obtain ⟨here, a, b, rfl, before⟩ := List.find?_eq_some_iff_append.mp hit
    have others : (a ++ y :: b).filter meant = y :: b.filter meant := by
      have none : a.filter meant = [] := by
        apply List.filter_eq_nil_iff.mpr
        intro u inside
        simpa using before u inside
      rw [List.filter_append, none, List.filter_cons_of_pos here, List.nil_append]
    rw [Option.map_some, Option.getD_some, others, List.length_cons]
    obtain ⟨apart, once⟩ := List.nodup_cons.mp once
    have unlike : y ≠ x := by
      rintro rfl
      exact apart (by simp)
    constructor
    · intro good
      have none : b.filter meant = [] := by
        apply List.filter_eq_nil_iff.mpr
        intro u inside hit
        -- a second match would have to be one of the two that were visited
        have visited := good.2 u (by simp [inside]) hit
        rcases List.mem_pair.mp visited with rfl | rfl
        · exact (List.nodup_cons.mp (List.nodup_append.mp once).2.1).1 inside
        · exact apart (by simp [inside])
      rw [none, List.length_nil]
    · intro few
      have none : b.filter meant = [] := List.length_eq_zero_iff.mp (by omega)
      rw [none] at others
      refine ⟨by simpa using unlike, fun u inside hit => ?_⟩
      cases List.mem_cons.mp inside with
      | inl same => simp [same]
      | inr behind =>
        have found : u ∈ (a ++ y :: b).filter meant := List.mem_filter.mpr ⟨behind, hit⟩
        rw [others, List.mem_singleton] at found
        simp [found]

theorem enumerates_iff_matching (s : ClientList) (hits : CStr → Bool) (ch : CStr) :
    s.Enumerates (s.nextMatching hits ch) hits ↔ s.Enumerable hits ch := by
  unfold Enumerable
  -- no client of that very name: a plain scan. Otherwise the look-up always wins
  cases found : s.names.hashFindClient ch with
  | none =>
    obtain ⟨turns, ends⟩ : ∃ turns, s.enumerate (s.nextMatching hits ch) turns s.head =
        some (s.clients.filter (s.meant hits)) := enumerate_scan found s.clients [] rfl
    have run : s.Enumerates (s.nextMatching hits ch) hits :=
      (enumerates_iff_of_run ends).mpr ⟨s.once.filter _, fun u here hit =>
        List.mem_filter.mpr ⟨here, hit⟩⟩
    exact iff_of_true run trivial
  | some x =>
    have here : x ∈ s.clients := s.listed found
    simp only
    split
    · next first =>
      obtain ⟨head, miss⟩ := first
      obtain ⟨post, place⟩ : ∃ post, s.clients = x :: post := List.head?_eq_some_iff.mp head
      rw [enumerates_iff_of_run (enumerate_miss found place miss), place,
        List.filter_cons_of_neg (by simp [miss])]
      have once := s.once
      rw [← clients, place] at once
      exact visited_iff once miss
    · next elsewhere =>
      have first : s.nextMatching hits ch s.head = some x := nextMatching_first found elsewhere
      obtain ⟨pre, post, place⟩ := List.append_of_mem here
      -- behind the named client the scan starts over: in a circle, or once if it is last
      cases post with
      | nil =>
        apply iff_of_false
        · rintro ⟨turns, visited, ends, -⟩
          cases turns with
          | zero => cases ends
          | succ turns =>
            rw [enumerate_visit first, next_eq place, List.head?_nil,
              enumerate_circle found place] at ends
            cases ends
        · intro good
          exact good.1 (by rw [place, List.getLast?_concat])
      | cons w rest =>
        rw [enumerates_iff_of_run (enumerate_hit found first place)]
        have inner : s.clients.getLast? ≠ some x := by
          intro last
          have once := s.once
          rw [← clients, place] at once
          rw [place, List.getLast?_append, List.getLast?_cons_cons, Option.or_eq_some_iff] at last
          have inside : x ∈ w :: rest := by
            rcases last with last | ⟨empty, -⟩
            · exact List.mem_of_getLast? last
            · cases List.getLast?_eq_none_iff.mp empty
          exact (List.nodup_cons.mp (List.nodup_append.mp once).2.1).1 inside
        constructor
        · exact fun good => ⟨inner, fun u here hit => List.mem_singleton.mp (good.2 u here hit)⟩
        · exact fun good => ⟨List.nodup_singleton x, fun u here hit =>
            List.mem_singleton.mpr (good.2 u here hit)⟩

/-- Both functions, each with its own test. -/
theorem enumerates_iff (s : ClientList) (mask : CStr) :
    (s.Enumerates (fun x => s.nextClient x mask) (matchMask mask) ↔
      s.Enumerable (matchMask mask) mask) ∧
    (s.Enumerates (fun x => s.nextClientDouble x mask) (matchesEither mask) ↔
      s.Enumerable (matchesEither mask) mask) :=
  ⟨enumerates_iff_matching s (matchMask mask) mask,
    enumerates_iff_matching s (matchesEither mask) mask⟩

end ClientList

def aloneInList : ClientList where
  names := (NameTables.startUp (lit "hub") 0).toClientNames
  next := fun _ => none
  prev := fun _ => none
  linked := ⟨⟨rfl, rfl⟩, rfl, trivial⟩
  once := List.nodup_singleton 0
  made := by
    intro u inside
    rw [List.mem_singleton.mp inside]
    exact Nat.zero_lt_one
  listed := by
    intro name u found
    have filed := (NameTables.Filed.startUp (by decide : lit "hub" ≠ []) 0).clients
    exact filed.listed u (filed.find_iff.mp found).1

theorem aloneInList_endless :
    ¬ aloneInList.Enumerates (fun x => aloneInList.nextClient x (lit "hub"))
      (matchMask (lit "hub")) := by
  rintro ⟨turns, visited, ends, -⟩
  have again : ∀ turns p, p = none ∨ p = some 0 → aloneInList.enumerate
      (fun x => aloneInList.nextClient x (lit "hub")) turns p = none := by
    intro turns
    induction turns with
    | zero => exact fun _ _ => rfl
    | succ turns ih =>
      intro p here
      have visit : aloneInList.nextClient p (lit "hub") = some 0 := by
        cases here with
        | inl same => rw [same]; decide +kernel
        | inr same => rw [same]; decide +kernel
      have stuck := ih (aloneInList.next 0) (.inl rfl)
      simp only [ClientList.enumerate, visit, stuck, Option.map_none]
  have stuck := again turns aloneInList.head (.inr rfl)
  rw [stuck] at ends
  cases ends

end Ircd
