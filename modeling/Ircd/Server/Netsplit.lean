import Ircd.Server.NetworkRuns

/-! A netsplit: who goes with a server, and what the links that stay are told of it. -/

set_option autoImplicit false

namespace Ircd

namespace Network

variable {n n' : Network} {u v cptr from_ : ClientId}

/-- `v` is `u`, or `servptr` leads from it to `u`. -/
def Behind (n : Network) (u v : ClientId) : Prop := ∃ k, n.followServptr k v = some u

theorem behind_of_below (below : n.forest.Below u v) : n.Behind u v := by
  obtain ⟨k, path⟩ := below.up
  refine ⟨k, ?_⟩
  rw [followServptr_eq path (Nat.le_refl k), path]

namespace Tree

variable (tree : n.Tree)
include tree

theorem follow_me (k : Nat) : n.followServptr k n.me = some n.me := by
  induction k with
  | zero => rfl
  | succ k ih => rw [followServptr, tree.top, Option.bind_some, ih]

theorem behind_iff (listed : v ∈ n.globalClientList) (notMe : u ≠ n.me) :
    n.Behind u v ↔ v = u ∨ n.forest.Below u v := by
  constructor
  · rintro ⟨k, path⟩
    induction k generalizing v with
    | zero => exact .inl (Option.some.inj path)
    | succ k ih =>
      by_cases top : v = n.me
      · rw [top, tree.follow_me] at path
        exact absurd (Option.some.inj path).symm notMe
      · obtain ⟨p, servptr, rest⟩ := Option.bind_eq_some_iff.1 path
        have parent : n.forest.parent v = some p := by
          have status : (n.client v).status ≠ .me := fun same =>
            top ((tree.status_me_iff listed).1 same)
          simp [forest, status, servptr]
        rcases ih (tree.ok.hung v listed p parent).1.1 rest with rfl | below
        · exact .inr (.child parent)
        · exact .inr (.step below parent)
  · rintro (rfl | below)
    · exact ⟨0, rfl⟩
    · exact behind_of_below below

end Tree

structure SplitOff (n n' : Network) (u : ClientId) : Prop where
  listed : ∀ v, v ∈ n'.globalClientList ↔ v ∈ n.globalClientList ∧ ¬ n.Behind u v
  hashed : ∀ v, v ∈ n'.clients ↔ v ∈ n.clients ∧ ¬ n.Behind u v
  links : ∀ v, v ∈ n'.servCptrList ↔ v ∈ n.servCptrList ∧ ¬ n.Behind u v
  /-- The lists of the servers that stay lose who goes. -/
  servers : ∀ p ∈ n'.globalClientList, ∀ v, v ∈ llist (n'.peer p).serv .inner ↔
    v ∈ llist (n.peer p).serv .inner ∧ ¬ n.Behind u v
  users : ∀ p ∈ n'.globalClientList, ∀ v, v ∈ llist (n'.peer p).serv .leaf ↔
    v ∈ llist (n.peer p).serv .leaf ∧ ¬ n.Behind u v
  /-- So do all channels. -/
  channels : ∀ c v, v ∈ (n'.chan c).memberIds ↔ v ∈ (n.chan c).memberIds ∧ ¬ n.Behind u v
  /-- Whoever stays is as before. -/
  identity : ∀ v ∈ n'.globalClientList, (n'.client v).identity = (n.client v).identity
  servptr : ∀ v ∈ n'.globalClientList, v ≠ n.me → (n'.peer v).servptr = (n.peer v).servptr
  graph : n'.ServerGraph

theorem Exited.splitOff (exited : Exited n n' u) (tree : n.Tree) (sound : n.toTables.Sound)
    (notMe : u ≠ n.me) : SplitOff n n' u := by
  have listed (v : ClientId) :
      v ∈ n'.globalClientList ↔ v ∈ n.globalClientList ∧ ¬ n.Behind u v := by
    rw [exited.mem_iff, and_congr_right_iff]
    intro inside
    rw [tree.behind_iff inside notMe, not_or]
  have kids (k : Forest.Kind) (p : ClientId) (inside : p ∈ n'.globalClientList) (v : ClientId) :
      v ∈ llist (n'.peer p).serv k ↔ v ∈ llist (n.peer p).serv k ∧ ¬ n.Behind u v := by
    have cut : v ∈ llist (n'.peer p).serv k ↔ v ∈ llist (n.peer p).serv k ∧
      v ∈ n'.globalClientList := exited.cut.kids_iff k p inside v
    rw [cut, and_congr_right_iff]
    intro kid
    have here : v ∈ n.globalClientList :=
      ((tree.ok.kids_iff k p (exited.remains.fewer p inside) v).1 kid).1
    rw [listed, and_iff_right here]
  constructor
  case listed => exact listed
  case hashed =>
    intro v
    have cut : v ∈ n'.clients ↔ v ∈ n.clients ∧ v ∈ n'.globalClientList := exited.cut.table_iff v
    rw [cut, and_congr_right_iff]
    intro inside
    have here : v ∈ n.globalClientList := tree.ok.listed v inside
    rw [listed, and_iff_right here]
  case links =>
    intro v
    rw [exited.tree.links, tree.links]
    constructor
    · rintro ⟨inside, status, mine⟩
      rw [exited.remains.status inside] at status
      rw [exited.remains.localFlag inside] at mine
      exact ⟨⟨((listed v).1 inside).1, status, mine⟩, ((listed v).1 inside).2⟩
    · rintro ⟨⟨inside, status, mine⟩, stays⟩
      have inside' := (listed v).2 ⟨inside, stays⟩
      rw [exited.remains.status inside', exited.remains.localFlag inside']
      exact ⟨inside', status, mine⟩
  case servers => exact kids .inner
  case users => exact kids .leaf
  case channels =>
    intro c v
    have sound' := exited.remains.sound sound
    rw [sound'.mem_memberIds_iff, sound.mem_memberIds_iff]
    -- members are users, and users are listed
    have person {m : Network} (tree : m.Tree) (sound : m.toTables.Sound)
        (inside : c ∈ (m.client v).channel) : v ∈ m.globalClientList := by
      by_contra outside
      have nobody : (m.client v).user = false := by
        rw [Bool.eq_false_iff]
        exact fun user => outside ((tree.people v).1 user).1
      rw [sound.outside v nobody] at inside
      cases inside
    constructor
    · intro member
      have inside := person exited.tree sound' member
      rw [exited.remains.groups sound v inside] at member
      exact ⟨member, ((listed v).1 inside).2⟩
    · rintro ⟨member, stays⟩
      rw [exited.remains.groups sound v ((listed v).2 ⟨person tree sound member, stays⟩)]
      exact member
  case identity => exact exited.remains.identity
  case servptr =>
    intro v inside other
    have parent : n'.forest.parent v = n.forest.parent v := congrFun exited.cut.same.parent v
    have top {m : Network} (tree : m.Tree) (inside : v ∈ m.globalClientList) (other : v ≠ m.me) :
        m.forest.parent v = (m.peer v).servptr := by
      have status : (m.client v).status ≠ .me := fun same =>
        other ((tree.status_me_iff inside).1 same)
      simp [forest, status]
    rw [← top exited.tree inside (exited.me.symm ▸ other), parent,
      top tree (exited.remains.fewer v inside) other]
  case graph => exact exited.tree.serverGraph

/-- In every state of every run, `exit_client` takes away exactly the client and all that is
behind it. -/
theorem splitOff_of_run {name : CStr} {now : Int} {es : List NetEvent}
    (steps : netMachine.Meets NetComes (startUp name now) es) {pre : List NetEvent}
    (inside : pre <+: es) {u : ClientId}
    (listed : u ∈ (netMachine.run (startUp name now) pre).globalClientList)
    (notMe : u ≠ (netMachine.run (startUp name now) pre).me) (cptr from_ : ClientId)
    (killed : Bool) (comment : CStr) :
    SplitOff (netMachine.run (startUp name now) pre)
      ((netMachine.run (startUp name now) pre).exitClient cptr u from_ killed comment) u := by
  have sane := sane_of_run steps inside
  exact (exited_exitClient sane.tree listed notMe (fun _ => sane.settled) cptr from_ killed
    comment).splitOff sane.tree sane.sound notMe

theorem splitOff_splitAt :
    SplitOff (netMachine.run (startUp (lit "a.b") 5) (splitRun.take 8))
      ((netMachine.run (startUp (lit "a.b") 5) (splitRun.take 8)).exitClient 2 2 2 false
        (lit "gone")) 2 := by
  have here : 2 ∈ (splitAt 8).globalClientList ∧ 2 ≠ (splitAt 8).me := by decide +kernel
  exact splitOff_of_run meets_splitRun (List.take_prefix 8 splitRun) here.1 here.2 2 2 false
    (lit "gone")

/-- The line tells of `v`. To a link with `CAP_QS` a SQUIT stands for all behind the server. -/
def Covers (n : Network) (qs : Bool) (v : ClientId) : QuitLine → Prop
  | .quit u _ => v = u
  | .squit u _ => v = u ∨ qs = true ∧ n.Behind u v

open Classical in
noncomputable def tellings (n : Network) (qs : Bool) (v : ClientId) (lines : List QuitLine) : Nat :=
  lines.countP fun line => decide (n.Covers qs v line)

def quitLine (n : Network) (comment : CStr) (u : ClientId) : QuitLine :=
  .quit u (':' :: n.nameOf u ++ lit " QUIT :" ++ comment)

def squitLine (n : Network) (u : ClientId) : QuitLine :=
  .squit u (lit "SQUIT " ++ n.nameOf u ++ lit " :" ++ n.meName)

section Tellings

variable {qs : Bool} {comment myname : CStr} {lines lines' : List QuitLine}

theorem tellings_append :
    n.tellings qs v (lines ++ lines') = n.tellings qs v lines + n.tellings qs v lines' :=
  List.countP_append

theorem tellings_squit (told : v = u ∨ qs = true ∧ n.Behind u v) :
    n.tellings qs v [n.squitLine u] = 1 := by
  simp [tellings, Covers, squitLine, told]

theorem tellings_squit_none (untold : ¬ (v = u ∨ qs = true ∧ n.Behind u v)) :
    n.tellings qs v [n.squitLine u] = 0 := by
  have uncovered : ¬ n.Covers qs v (n.squitLine u) := untold
  simp [tellings, uncovered]

theorem tellings_quits (qs : Bool) (comment : CStr) {users : List ClientId} (nodup : users.Nodup) :
    n.tellings qs v (users.map (n.quitLine comment)) = if v ∈ users then 1 else 0 := by
  induction users with
  | nil => rfl
  | cons u rest ih =>
    obtain ⟨new, nodup⟩ := List.nodup_cons.1 nodup
    have first : n.tellings qs v [n.quitLine comment u] = if v = u then 1 else 0 := by
      by_cases here : v = u <;> simp [tellings, Covers, quitLine, here]
    rw [List.map_cons, ← List.singleton_append, tellings_append, first, ih nodup]
    by_cases here : v = u
    · subst here
      simp [new]
    · simp [here]

theorem tellings_flatMap_none {servers : List ClientId} {f : ClientId → List QuitLine}
    (quiet : ∀ s ∈ servers, n.tellings qs v (f s) = 0) :
    n.tellings qs v (servers.flatMap f) = 0 := by
  induction servers with
  | nil => rfl
  | cons s rest ih =>
    rw [List.flatMap_cons, tellings_append, quiet s List.mem_cons_self,
      ih fun s inside => quiet s (List.mem_cons_of_mem _ inside)]

theorem tellings_flatMap {servers : List ClientId} {f : ClientId → List QuitLine} {w : ClientId}
    (nodup : servers.Nodup) (inside : w ∈ servers)
    (others : ∀ s ∈ servers, s ≠ w → n.tellings qs v (f s) = 0) :
    n.tellings qs v (servers.flatMap f) = n.tellings qs v (f w) := by
  induction servers with
  | nil => cases inside
  | cons s rest ih =>
    obtain ⟨new, nodup⟩ := List.nodup_cons.1 nodup
    rw [List.flatMap_cons, tellings_append]
    by_cases here : s = w
    · subst here
      rw [tellings_flatMap_none fun t inside => others t (List.mem_cons_of_mem _ inside) fun same =>
        new (same ▸ inside), Nat.add_zero]
    · rw [others s List.mem_cons_self here, Nat.zero_add]
      exact ih nodup ((List.mem_cons.1 inside).resolve_left (Ne.symm here)) fun t inside =>
        others t (List.mem_cons_of_mem _ inside)

end Tellings

def Hidden (n : Network) (myname : CStr) (u : ClientId) : Prop :=
  (n.client u).isServer = true ∧ matchMask myname (n.nameOf u) = true

/-- The line names the user `v`, or the server `v` that the link knows. -/
def Names (n : Network) (comment myname : CStr) (line : QuitLine) (v : ClientId) : Prop :=
  (n.client v).status = .client ∧ line = n.quitLine comment v ∨
    (n.client v).status = .server ∧ matchMask myname (n.nameOf v) = false ∧ line = n.squitLine v

def TellsOnce (n : Network) (qs : Bool) (myname : CStr) (v : ClientId) (lines : List QuitLine) :
    Prop :=
  n.tellings qs v lines ≤ 1 ∧ (n.tellings qs v lines = 0 → n.Hidden myname v)

theorem recurseSendQuits_succ (n : Network) (qs : Bool) (comment myname : CStr) (fuel : Nat)
    (sptr : ClientId) : n.recurseSendQuits qs comment myname (fuel + 1) sptr =
      let below := (n.forest.kids .leaf sptr).map (n.quitLine comment) ++
        (n.forest.kids .inner sptr).flatMap (n.recurseSendQuits qs comment myname fuel)
      if qs then if matchMask myname (n.nameOf sptr) then below else [n.squitLine sptr]
      else below ++ if matchMask myname (n.nameOf sptr) then [] else [n.squitLine sptr] := rfl

namespace Tree

variable (tree : n.Tree) {qs : Bool} {comment myname : CStr}
include tree

theorem not_below_self (listed : v ∈ n.globalClientList) : ¬ n.forest.Below v v := fun below =>
  Nat.lt_irrefl v (below.of_shape tree.ok.toShape listed).2.1

/-- The users of a server and what its servers tell make up what is below it. -/
theorem tells_kids (qs : Bool) (comment myname : CStr) {f : ClientId → List QuitLine}
    {sptr : ClientId} (listed : sptr ∈ n.globalClientList) (here : v ∈ n.globalClientList)
    (deeper : ∀ w ∈ n.forest.kids .inner sptr,
      (n.forest.Within w v → n.TellsOnce qs myname v (f w)) ∧
        (¬ n.forest.Within w v → n.tellings qs v (f w) = 0)) :
    let lines := (n.forest.kids .leaf sptr).map (n.quitLine comment) ++
      (n.forest.kids .inner sptr).flatMap f
    (n.forest.Below sptr v → n.TellsOnce qs myname v lines) ∧
      (¬ n.forest.Below sptr v → n.tellings qs v lines = 0) := by
  have shape := tree.ok.toShape
  have users := shape.kids_iff .leaf sptr listed
  have servers := shape.kids_iff .inner sptr listed
  have counted := tellings_quits (n := n) (v := v) qs comment
    (shape.kids_nodup .leaf sptr listed)
  simp only
  by_cases user : v ∈ n.forest.kids .leaf sptr
  · -- a user of the server itself
    obtain ⟨-, kind, parent⟩ := (users v).1 user
    rw [if_pos user] at counted
    have quiet := tellings_flatMap_none fun w kid => (deeper w kid).2 fun within => by
      obtain ⟨inside, kind', parent'⟩ := (servers w).1 kid
      obtain rfl := shape.child_unique inside here parent' parent within (.inl rfl)
      rw [kind] at kind'
      cases kind'
    refine ⟨fun _ => ?_, fun above => absurd (.child parent) above⟩
    rw [TellsOnce, tellings_append, counted, quiet]
    exact ⟨Nat.le_refl 1, nofun⟩
  · rw [if_neg user] at counted
    by_cases under : ∃ w ∈ n.forest.kids .inner sptr, n.forest.Within w v
    · -- one server leads to it
      obtain ⟨w, kid, within⟩ := under
      obtain ⟨inside, -, parent⟩ := (servers w).1 kid
      have told := tellings_flatMap (shape.kids_nodup .inner sptr listed) kid
        fun s kid' other => (deeper s kid').2 fun within' => by
          obtain ⟨inside', -, parent'⟩ := (servers s).1 kid'
          exact other (shape.child_unique inside' inside parent' parent within' within)
      have below := Forest.below_iff_child.2 ⟨w, parent, within⟩
      refine ⟨fun _ => ?_, fun above => absurd below above⟩
      rw [TellsOnce, tellings_append, counted, told, Nat.zero_add]
      exact (deeper w kid).1 within
    · -- nothing leads to it
      have quiet := tellings_flatMap_none fun w kid =>
        (deeper w kid).2 fun within => under ⟨w, kid, within⟩
      refine ⟨fun below => ?_, fun _ => by rw [tellings_append, counted, quiet]⟩
      obtain ⟨w, parent, within⟩ := Forest.below_iff_child.1 below
      have inside : w ∈ n.globalClientList := by
        rcases within with rfl | below'
        · exact here
        · exact (below'.of_shape shape here).1.1
      rcases shape.kind_of_parent inside parent with kind | kind
      · exact absurd ⟨w, (servers w).2 ⟨inside, kind, parent⟩, within⟩ under
      · rcases within with rfl | below'
        · exact absurd ((users v).2 ⟨inside, kind, parent⟩) user
        · have hub := (below'.of_shape shape here).1.2
          simp [kind] at hub

theorem tells_recurseSendQuits (fuel : Nat) {sptr : ClientId} (listed : sptr ∈ n.globalClientList)
    (server : (n.client sptr).status = .server)
    (enough : (n.globalClientList.filter (sptr < ·)).length < fuel) (here : v ∈ n.globalClientList) :
    (n.forest.Within sptr v →
      n.TellsOnce qs myname v (n.recurseSendQuits qs comment myname fuel sptr)) ∧
    (¬ n.forest.Within sptr v →
      n.tellings qs v (n.recurseSendQuits qs comment myname fuel sptr) = 0) := by
  induction fuel generalizing sptr with
  | zero => exact absurd enough (Nat.not_lt_zero _)
  | succ fuel ih =>
    have shape := tree.ok.toShape
    have notMe : sptr ≠ n.me := fun top => by
      rw [(tree.status_me_iff listed).2 top] at server
      cases server
    have servers := shape.kids_iff .inner sptr listed
    -- the fuel is enough for each server below
    have kids := tree.tells_kids qs comment myname
      (f := n.recurseSendQuits qs comment myname fuel) listed here fun w kid => by
        obtain ⟨inside, kind, parent⟩ := (servers w).1 kid
        have fewer := Forest.Ok.younger_lt n.globalClientList inside
          (shape.hung w inside sptr parent).2.1
        exact ih inside (kind_eq_inner.1 kind)
          (Nat.lt_of_lt_of_le fewer (Nat.le_of_lt_succ enough))
    have self := tree.not_below_self here
    have behind := tree.behind_iff here notMe
    rw [recurseSendQuits_succ]
    simp only at kids ⊢
    generalize (n.forest.kids .leaf sptr).map (n.quitLine comment) ++
      (n.forest.kids .inner sptr).flatMap (n.recurseSendQuits qs comment myname fuel) = below
      at kids ⊢
    -- a hidden server is passed over, and what hangs from it is told of itself
    have passed (hidden : matchMask myname (n.nameOf sptr) = true) :
        (n.forest.Within sptr v → n.TellsOnce qs myname v below) ∧
          (¬ n.forest.Within sptr v → n.tellings qs v below = 0) := by
      refine ⟨fun within => ?_, fun outside => kids.2 fun under => outside (.inr under)⟩
      rcases within with rfl | under
      · rw [TellsOnce, kids.2 self]
        exact ⟨Nat.zero_le 1, fun _ => ⟨(isServer_iff _).2 server, hidden⟩⟩
      · exact kids.1 under
    by_cases hidden : matchMask myname (n.nameOf sptr) = true
    · rw [if_pos hidden, if_pos hidden, List.append_nil, ite_self]
      exact passed hidden
    · rw [if_neg hidden, if_neg hidden]
      cases qs with
      | true =>
        -- the SQUIT is all there is
        rw [if_pos rfl]
        refine ⟨fun within => ?_, fun outside => tellings_squit_none ?_⟩
        · rw [TellsOnce, tellings_squit (.inr ⟨rfl, behind.2 within⟩)]
          exact ⟨Nat.le_refl 1, nofun⟩
        · rw [behind]
          rintro (itself | ⟨-, within⟩)
          · exact outside (.inl itself)
          · exact outside within
      | false =>
        rw [if_neg Bool.false_ne_true]
        by_cases itself : v = sptr
        · refine ⟨fun _ => ?_, fun outside => absurd (.inl itself) outside⟩
          rw [TellsOnce, tellings_append, tellings_squit (.inl itself), kids.2 (itself ▸ self)]
          exact ⟨Nat.le_refl 1, nofun⟩
        · have none : n.tellings false v [n.squitLine sptr] = 0 := tellings_squit_none (by simpa)
          refine ⟨fun within => ?_, fun outside => ?_⟩
          · rw [TellsOnce, tellings_append, none, Nat.add_zero]
            exact kids.1 (within.resolve_left itself)
          · rw [tellings_append, none, kids.2 fun under => outside (.inr under)]

theorem named_recurseSendQuits (fuel : Nat) {sptr : ClientId} (listed : sptr ∈ n.globalClientList)
    (server : (n.client sptr).status = .server) {line : QuitLine}
    (sent : line ∈ n.recurseSendQuits qs comment myname fuel sptr) :
    ∃ v ∈ n.globalClientList, n.forest.Within sptr v ∧ n.Names comment myname line v := by
  induction fuel generalizing sptr with
  | zero => cases sent
  | succ fuel ih =>
    -- what is told of the users and servers that hang from this one
    have below : line ∈ (n.forest.kids .leaf sptr).map (n.quitLine comment) ++
        (n.forest.kids .inner sptr).flatMap (n.recurseSendQuits qs comment myname fuel) →
        ∃ v ∈ n.globalClientList, n.forest.Within sptr v ∧ n.Names comment myname line v := by
      intro sent
      rcases List.mem_append.1 sent with user | server
      · obtain ⟨v, kid, rfl⟩ := List.mem_map.1 user
        obtain ⟨inside, kind, parent⟩ := (tree.ok.kids_iff .leaf sptr listed v).1 kid
        exact ⟨v, inside, .inr (.child parent), .inl ⟨kind_eq_leaf.1 kind, rfl⟩⟩
      · obtain ⟨w, kid, sent⟩ := List.mem_flatMap.1 server
        obtain ⟨inside, kind, parent⟩ := (tree.ok.kids_iff .inner sptr listed w).1 kid
        obtain ⟨v, inside', within, told⟩ := ih inside (kind_eq_inner.1 kind) sent
        exact ⟨v, inside', .inr (Forest.below_iff_child.2 ⟨w, parent, within⟩), told⟩
    have itself (hidden : ¬ matchMask myname (n.nameOf sptr) = true)
        (sent : line ∈ [n.squitLine sptr]) :
        ∃ v ∈ n.globalClientList, n.forest.Within sptr v ∧ n.Names comment myname line v :=
      ⟨sptr, listed, .inl rfl, .inr ⟨server, Bool.eq_false_iff.2 hidden, List.mem_singleton.1 sent⟩⟩
    rw [recurseSendQuits_succ] at sent
    simp only at sent
    split at sent
    · split at sent
      · exact below sent
      · next hidden => exact itself hidden sent
    · rcases List.mem_append.1 sent with sent | sent
      · exact below sent
      · split at sent
        · cases sent
        · next hidden => exact itself hidden sent

end Tree

def linkName (n : Network) (to_ : ClientId) : CStr :=
  match (n.peer to_).serv.bind Serv.nline with
  | some port => myNameForLink n.meName port
  | none => n.meName

/-- The lines tell of all that is behind `u` and of nothing else. -/
structure QuitsOf (n : Network) (u : ClientId) (qs : Bool) (comment myname : CStr)
    (lines : List QuitLine) : Prop where
  named : ∀ line ∈ lines, ∃ v ∈ n.globalClientList, n.Behind u v ∧ n.Names comment myname line v
  once : ∀ v ∈ n.globalClientList, n.Behind u v → n.TellsOnce qs myname v lines
  others : ∀ v ∈ n.globalClientList, ¬ n.Behind u v → n.tellings qs v lines = 0

theorem Tree.quitsOf {n : Network} (tree : n.Tree) (listed : u ∈ n.globalClientList)
    (server : (n.client u).status = .server) (qs : Bool) (comment myname : CStr) :
    n.QuitsOf u qs comment myname
      (n.recurseSendQuits qs comment myname n.globalClientList.length u) := by
  have notMe : u ≠ n.me := fun top => by
    rw [(tree.status_me_iff listed).2 top] at server
    cases server
  have behind {v : ClientId} (here : v ∈ n.globalClientList) := tree.behind_iff here notMe
  constructor
  case named =>
    intro line sent
    obtain ⟨v, inside, within, named⟩ := tree.named_recurseSendQuits _ listed server sent
    exact ⟨v, inside, (behind inside).2 within, named⟩
  case once =>
    intro v here below
    exact (tree.tells_recurseSendQuits _ listed server (Tree.fuel listed) here).1
      ((behind here).1 below)
  case others =>
    intro v here above
    exact (tree.tells_recurseSendQuits _ listed server (Tree.fuel listed) here).2
      (mt (behind here).2 above)

end Network

/-- A call of a send function that reaches the link `to_`. -/
def Output.reaches (to_ : ClientId) : Output → Bool
  | .one target _ => target == to_
  | .numeric target _ _ => target == to_
  | .names target _ => target == to_
  | .matchServs _ _ _ => true
  | .matchCapServs _ _ _ _ => true
  | .servButone _ _ => true
  | .opsButone _ => true
  | _ => false

namespace Server

def callsTo (s : Server) (to_ : ClientId) : List Output := s.sent.filter (·.reaches to_)

variable {s : Server} {to_ : ClientId}

theorem callsTo_emit (o : Output) : (s.emit o).callsTo to_ =
    s.callsTo to_ ++ if o.reaches to_ then [o] else [] := by
  rw [callsTo, emit, List.filter_append, List.filter_cons, List.filter_nil]
  rfl

theorem sent_touch (s : Server) (c : ChanId) : (s.touch c).sent = s.sent := by
  unfold touch
  split <;> rfl

theorem sent_exitChannels (sptr : ClientId) (cs : List ChanId) (s : Server) :
    (exitChannels sptr cs s).sent = s.sent := by
  induction cs generalizing s with
  | nil => rfl
  | cons c rest ih => exact (ih _).trans (sent_touch s c)

theorem sent_exitInvites (sptr : ClientId) (cs : List ChanId) (s : Server) :
    (exitInvites sptr cs s).sent = s.sent := by
  induction cs generalizing s with
  | nil => rfl
  | cons c rest ih => exact (ih _).trans (sent_touch s c)

/-- The links are not told of a client that goes with its server, nor of a server that is
told of elsewhere. -/
theorem callsTo_exitOneClient (cptr : ClientId) {sptr : ClientId} {killed : Bool} (comment : CStr)
    (silent : killed = true ∨ (s.client sptr).isPerson = false) :
    (s.exitOneClient cptr sptr killed comment).callsTo to_ = s.callsTo to_ := by
  unfold exitOneClient
  simp only
  split
  · rw [callsTo_emit]
    exact List.append_nil _
  · split
    · next person =>
      rw [silent.resolve_right (by simp [person.1]), if_pos rfl]
      unfold callsTo edit
      simp only
      rw [sent_exitInvites, sent_exitChannels]
      exact (callsTo_emit (s := s) _).trans (List.append_nil _)
    · rfl

end Server

namespace Network

variable {n : Network} {u to_ : ClientId}

theorem sent_updateClientExitStats (n : Network) (u : ClientId) :
    (n.updateClientExitStats u).sent = n.sent := by
  unfold updateClientExitStats
  simp only
  split
  · split <;> rfl
  · split <;> rfl

theorem callsTo_exitOneClient_killed (n : Network) (cptr sptr from_ : ClientId) (comment : CStr) :
    (n.exitOneClient cptr sptr from_ true comment).callsTo to_ = n.callsTo to_ := by
  have server := delFromLlist_toServer n sptr
  unfold exitOneClient
  simp only
  generalize n.delFromLlist sptr = m at server ⊢
  split
  · rw [Server.callsTo_exitOneClient cptr comment (.inl rfl), server]
  · rw [Server.callsTo_exitOneClient cptr comment (.inl rfl)]
    simp only [Bool.not_true, Bool.false_eq_true, and_false, if_false]
    rw [Server.callsTo, sent_updateClientExitStats, server]
    rfl

theorem callsTo_recurseRemoveClients (comment : CStr) (fuel : Nat) (n : Network)
    (sptr : ClientId) : (recurseRemoveClients comment fuel n sptr).callsTo to_ = n.callsTo to_ := by
  induction fuel generalizing n sptr with
  | zero => rfl
  | succ fuel ih =>
    unfold recurseRemoveClients
    split
    · rfl
    · split
      · rfl
      · split
        · simp only
          rw [ih, callsTo_exitOneClient_killed, ih]
        · split
          · rw [ih, callsTo_exitOneClient_killed]
          · rfl

theorem callsTo_sendLine (n : Network) (link : ClientId) (text : CStr) :
    (n.sendLine link text).callsTo to_ =
      n.callsTo to_ ++ if link = to_ then [.one to_ text] else [] := by
  rw [sendLine, Server.callsTo_emit]
  by_cases same : link = to_ <;> simp [Output.reaches, same]

theorem callsTo_sendLines {α : Type} (text : α → CStr) (n : Network) (link : ClientId)
    (lines : List α) : (lines.foldl (fun n line => n.sendLine link (text line)) n).callsTo to_ =
      n.callsTo to_ ++ if link = to_ then lines.map (fun line => .one to_ (text line)) else [] := by
  induction lines generalizing n with
  | nil => simp
  | cons line rest ih =>
    rw [List.foldl_cons, ih, callsTo_sendLine]
    by_cases same : link = to_ <;> simp [same]

theorem callsTo_sendQuits (n : Network) (link : ClientId) (lines : List QuitLine) :
    (n.sendQuits link lines).callsTo to_ =
      n.callsTo to_ ++ if link = to_ then lines.map (fun line => .one to_ line.text) else [] :=
  callsTo_sendLines QuitLine.text n link lines

theorem callsTo_tellQuits (m : Network) (lines : ClientId → List QuitLine) {us : List ClientId}
    (nodup : us.Nodup) :
    (us.foldl (fun m link => m.sendQuits link (lines link)) m).callsTo to_ =
      m.callsTo to_ ++ if to_ ∈ us then (lines to_).map (fun line => .one to_ line.text) else [] := by
  induction us generalizing m with
  | nil => simp
  | cons link rest ih =>
    obtain ⟨new, nodup⟩ := List.nodup_cons.1 nodup
    rw [List.foldl_cons, ih _ nodup, callsTo_sendQuits]
    by_cases same : link = to_
    · subst same
      simp [new]
    · simp [same, Ne.symm same]

theorem leaveRoleLists_server (server : (n.client u).isServer = true) :
    ∃ opers, n.leaveRoleLists u = { n with operCptrList := opers } := by
  have noClient : (n.client u).isClient = false := by
    have status := (isServer_iff _).1 server
    simp [Client.isClient, status]
  unfold leaveRoleLists
  simp only
  split
  · exact ⟨n.operCptrList, rfl⟩
  · split
    · exact ⟨n.operCptrList.erase u, by simp [noClient]⟩
    · exact ⟨n.operCptrList, by simp [noClient]⟩

theorem quitsFor_operCptrList (n : Network) (opers : List ClientId) (cptr sptr : ClientId)
    (comment : CStr) (to_ : ClientId) :
    ({ n with operCptrList := opers } : Network).quitsFor cptr sptr comment to_ =
      n.quitsFor cptr sptr comment to_ := by
  have same (qs : Bool) (myname : CStr) (fuel : Nat) :
      ({ n with operCptrList := opers } : Network).recurseSendQuits qs comment myname fuel =
        n.recurseSendQuits qs comment myname fuel := by
    induction fuel with
    | zero => rfl
    | succ fuel ih =>
      funext sptr
      simp only [recurseSendQuits, ih]
  unfold quitsFor
  simp only [same]

theorem quitsFor_sayClosing (n : Network) (u : ClientId) (comment : CStr) (cptr sptr : ClientId)
    (text : CStr) (to_ : ClientId) : (n.sayClosing u comment).quitsFor cptr sptr text to_ =
      n.quitsFor cptr sptr text to_ := by
  unfold sayClosing
  split
  · have same (qs : Bool) (myname : CStr) (fuel : Nat) :
        (n.sendLine u (n.closingText u comment)).recurseSendQuits qs text myname fuel =
          n.recurseSendQuits qs text myname fuel := by
      induction fuel with
      | zero => rfl
      | succ fuel ih =>
        funext sptr
        simp only [recurseSendQuits, ih]
        rfl
    unfold quitsFor
    simp only [same]
    rfl
  · rfl

theorem callsTo_sayClosing (n : Network) (u : ClientId) (comment : CStr) :
    (n.sayClosing u comment).callsTo to_ = n.callsTo to_ ++
      if (n.client u).localFlag = true ∧ u = to_ then [.one to_ (n.closingText u comment)]
      else [] := by
  unfold sayClosing Client.myConnect
  by_cases mine : (n.client u).localFlag = true
  · rw [if_pos mine, callsTo_sendLine]
    by_cases same : u = to_
    · rw [if_pos same, if_pos ⟨mine, same⟩]
    · rw [if_neg same, if_neg fun both => same both.2]
  · rw [if_neg mine, if_neg fun both => mine both.1, List.append_nil]

theorem callsTo_removeDependents (n : Network) (to_ : ClientId) (nodup : n.servCptrList.Nodup)
    (cptr sptr : ClientId) (comment : CStr) :
    (n.removeDependents cptr sptr comment).callsTo to_ = n.callsTo to_ ++
      if to_ ∈ n.servCptrList then
        (n.quitsFor cptr sptr comment to_).map (fun line => .one to_ line.text) else [] := by
  rw [removeDependents, callsTo_recurseRemoveClients]
  exact callsTo_tellQuits n (n.quitsFor cptr sptr comment) nodup

theorem callsTo_exitOneClient_server (server : (n.client u).status = .server)
    (cptr from_ : ClientId) (killed : Bool) (comment : CStr) :
    (n.exitOneClient cptr u from_ killed comment).callsTo to_ = n.callsTo to_ ++
      if (n.client u).from_ = to_ ∧ to_ ≠ u ∧ (n.client to_).isServer = true ∧ to_ ≠ cptr ∧
          killed = false then
        [.one to_ (':' :: n.nameOf from_ ++ lit " SQUIT " ++ n.nameOf u ++ lit " :" ++ comment)]
      else [] := by
  have toServer := delFromLlist_toServer n u
  unfold exitOneClient
  simp only
  generalize n.delFromLlist u = m at toServer ⊢
  rw [← toServer] at server ⊢
  have notMe : (m.client u).status ≠ .me := by simp [server]
  rw [if_neg notMe]
  simp only
  -- a server is no person, so nobody is told of a QUIT
  have last (k : Network) (same : (k.client u).status = .server) :
      ((k.updateClientExitStats u).toServer.exitOneClient cptr u killed comment).callsTo to_ =
        k.callsTo to_ := by
    rw [Server.callsTo_exitOneClient]
    · rw [Server.callsTo, sent_updateClientExitStats]
      rfl
    · obtain ⟨-, -, -, -, client⟩ := toTables_updateClientExitStats k u
      right
      simp [Client.isPerson, Client.isClient, client, same]
  split
  · next goes =>
    rw [last (m.sendLine _ _) server, callsTo_sendLine]
    by_cases way : (m.client u).from_ = to_
    · subst way
      obtain ⟨-, other, up, notFrom, unkilled⟩ := goes
      rw [if_pos rfl, if_pos ⟨rfl, other, up, notFrom, by simpa using unkilled⟩]
      rfl
    · rw [if_neg way, if_neg fun told => way told.1]
  · next stays =>
    rw [last _ server, if_neg, List.append_nil]
    rintro ⟨rfl, other, up, notFrom, unkilled⟩
    exact stays ⟨(isServer_iff _).2 server, other, up, notFrom, by simp [unkilled]⟩

structure LinksTold (n n' : Network) (cptr u from_ : ClientId) (killed : Bool) (comment : CStr) :
    Prop where
  /-- Who does not lie on the way is told of everybody. -/
  others : ∀ to_ ∈ n.servCptrList, to_ ≠ (n.client u).from_ →
    ¬ (to_ = cptr ∧ (n.peer to_).capQs = true) → ∃ lines : List QuitLine,
      n'.callsTo to_ = n.callsTo to_ ++ lines.map (fun line => .one to_ line.text) ∧
        n.QuitsOf u (n.peer to_).capQs (n.splitComment u) (n.linkName to_) lines
  /-- Who told us knows what was behind the server. -/
  source : ∀ to_, to_ ≠ (n.client u).from_ → to_ = cptr → (n.peer to_).capQs = true →
    n'.callsTo to_ = n.callsTo to_
  /-- The SQUIT goes on its way. -/
  way : ∀ to_, to_ = (n.client u).from_ → to_ ≠ u → n'.callsTo to_ = n.callsTo to_ ++
    if to_ ≠ cptr ∧ killed = false then
      [.one to_ (':' :: n.nameOf from_ ++ lit " SQUIT " ++ n.nameOf u ++ lit " :" ++ comment)]
    else []
  /-- A link is told that it is closed, and no more. -/
  itself : (n.client u).localFlag = true →
    n'.callsTo u = n.callsTo u ++ [.one u (n.closingText u comment)]

theorem exitClient_server (tree : n.Tree) (settled : n.Settled) (listed : u ∈ n.globalClientList)
    (server : (n.client u).status = .server) (cptr from_ : ClientId) (killed : Bool)
    (comment : CStr) : n.exitClient cptr u from_ killed comment =
      (((n.leaveRoleLists u).sayClosing u comment).removeDependents cptr u
        (n.splitComment u)).exitOneClient cptr u from_ killed comment := by
  have comment1 : ((n.leaveRoleLists u).sayClosing u comment).splitComment u = n.splitComment u := by
    obtain ⟨opers, left⟩ := leaveRoleLists_server ((isServer_iff _).2 server)
    rw [left, sayClosing]
    split <;> rfl
  have aside := aside_closing n u comment
  rw [exitClient_eq]
  simp only
  generalize (n.leaveRoleLists u).sayClosing u comment = m at comment1 aside ⊢
  have same := aside.graph
  rw [← same.status] at server
  rw [← same.globalClientList] at listed
  rw [if_pos ((isServer_iff _).2 server), ← comment1]
  have notMe : u ≠ m.me := fun top => by
    rw [((same.tree tree).status_me_iff listed).2 top] at server
    cases server
  generalize m.splitComment u = text
  have none := (cleared_removeDependents (same.tree tree) listed notMe cptr text).no_strays
    (same.settled settled)
  split
  · rw [removeStrays_eq_self text none, removeStrays_eq_self text none]
  · rfl

theorem callsTo_exitClient (to_ : ClientId) (tree : n.Tree) (settled : n.Settled)
    (listed : u ∈ n.globalClientList) (server : (n.client u).status = .server)
    (cptr from_ : ClientId) (killed : Bool) (comment : CStr) :
    (n.exitClient cptr u from_ killed comment).callsTo to_ = n.callsTo to_ ++
      (if (n.client u).localFlag = true ∧ u = to_ then [.one to_ (n.closingText u comment)] else []) ++
      (if to_ ∈ n.servCptrList then (n.quitsFor cptr u (n.splitComment u) to_).map
        (fun line => .one to_ line.text) else []) ++
      if (n.client u).from_ = to_ ∧ to_ ≠ u ∧ (n.client to_).isServer = true ∧ to_ ≠ cptr ∧
          killed = false then
        [.one to_ (':' :: n.nameOf from_ ++ lit " SQUIT " ++ n.nameOf u ++ lit " :" ++ comment)]
      else [] := by
  rw [exitClient_server tree settled listed server]
  obtain ⟨opers, left⟩ := leaveRoleLists_server ((isServer_iff _).2 server)
  have aside := aside_closing n u comment
  -- first the ERROR to the link itself, if it is one of ours
  have sent : ((n.leaveRoleLists u).sayClosing u comment).callsTo to_ = n.callsTo to_ ++
      if (n.client u).localFlag = true ∧ u = to_ then [.one to_ (n.closingText u comment)]
      else [] := by
    rw [left]
    exact callsTo_sayClosing { n with operCptrList := opers } u comment
  have quits : ((n.leaveRoleLists u).sayClosing u comment).quitsFor cptr u (n.splitComment u) to_ =
      n.quitsFor cptr u (n.splitComment u) to_ := by
    rw [quitsFor_sayClosing, left, quitsFor_operCptrList]
  generalize (n.leaveRoleLists u).sayClosing u comment = m at aside sent quits ⊢
  have same := aside.graph
  have tree' := same.tree tree
  rw [← same.status] at server
  rw [← same.globalClientList] at listed
  have notMe : u ≠ m.me := fun top => by
    rw [(tree'.status_me_iff listed).2 top] at server
    cases server
  have cleared := cleared_removeDependents tree' listed notMe cptr (n.splitComment u)
  -- then what the others are told of the servers and users behind it
  have split := callsTo_removeDependents m to_ tree'.links_nodup cptr u (n.splitComment u)
  generalize m.removeDependents cptr u (n.splitComment u) = m' at cleared split ⊢
  have stays := cleared.pruned.stays tree'.ok.toShape listed
  -- the ERROR and the removals leave the fields that the last line is made from
  have role (v : ClientId) : (m'.client v).isServer = (n.client v).isServer := by
    simp only [Client.isServer, cleared.status, same.status]
  have from_ : (m'.client u).from_ = (n.client u).from_ := by
    rw [cleared.remains.from_ stays, same.from_]
  have names (v : ClientId) : m'.nameOf v = n.nameOf v := by rw [cleared.nameOf, same.name]
  rw [callsTo_exitOneClient_server (by rw [cleared.status, server]), split, sent, quits, role, from_,
    names, names, same.servCptrList]

theorem linksTold_exitClient (tree : n.Tree) (settled : n.Settled) (listed : u ∈ n.globalClientList)
    (server : (n.client u).status = .server) (cptr from_ : ClientId) (killed : Bool)
    (comment : CStr) :
    LinksTold n (n.exitClient cptr u from_ killed comment) cptr u from_ killed comment := by
  have heard (to_ : ClientId) :=
    callsTo_exitClient to_ tree settled listed server cptr from_ killed comment
  have notMe : u ≠ n.me := fun top => by
    rw [(tree.status_me_iff listed).2 top] at server
    cases server
  have open_ (to_ : ClientId) (off : to_ ≠ (n.client u).from_) :
      ¬ ((n.client u).localFlag = true ∧ u = to_) := by
    rintro ⟨mine, rfl⟩
    exact off ((tree.mine u listed).1 mine).1.symm
  constructor
  case others =>
    intro to_ link off knows
    refine ⟨_, ?_, tree.quitsOf listed server ..⟩
    rw [heard, if_neg (open_ to_ off), List.append_nil, if_pos link,
      if_neg fun told => off told.1.symm, List.append_nil, quitsFor, if_neg]
    · rfl
    · rintro (way | source)
      · exact off way
      · exact knows source
  case source =>
    intro to_ off source capQs
    have quiet : n.quitsFor cptr u (n.splitComment u) to_ = [] := if_pos (.inr ⟨source, capQs⟩)
    rw [heard, if_neg (open_ to_ off), List.append_nil, quiet, List.map_nil, ite_self,
      List.append_nil, if_neg fun told => off told.1.symm, List.append_nil]
  case way =>
    rintro to_ rfl other
    have quiet : n.quitsFor cptr u (n.splitComment u) (n.client u).from_ = [] := if_pos (.inl rfl)
    -- the link that the server is behind is a server itself
    have role := (tree.serverGraph.link u ⟨listed, .inl server⟩).2.2 other
    rw [heard, if_neg fun both => other both.2.symm, List.append_nil, quiet, List.map_nil, ite_self,
      List.append_nil]
    simp [other, role]
  case itself =>
    intro mine
    have direct := ((tree.mine u listed).1 mine).1
    have quiet : n.quitsFor cptr u (n.splitComment u) u = [] := if_pos (.inl direct.symm)
    rw [heard, if_pos ⟨mine, rfl⟩, quiet, List.map_nil, ite_self, List.append_nil,
      if_neg fun told => told.2.1 rfl, List.append_nil]

/-- In every state of every run, the exit of a server tells each link once of everybody who
goes and whom it knows, and of nobody else. -/
theorem linksTold_of_run {name : CStr} {now : Int} {es : List NetEvent}
    (steps : netMachine.Meets NetComes (startUp name now) es) {pre : List NetEvent}
    (inside : pre <+: es) {u : ClientId}
    (listed : u ∈ (netMachine.run (startUp name now) pre).globalClientList)
    (server : ((netMachine.run (startUp name now) pre).client u).status = .server)
    (cptr from_ : ClientId) (killed : Bool) (comment : CStr) :
    LinksTold (netMachine.run (startUp name now) pre)
      ((netMachine.run (startUp name now) pre).exitClient cptr u from_ killed comment) cptr u from_
      killed comment :=
  have sane := sane_of_run steps inside
  linksTold_exitClient sane.tree sane.settled listed server cptr from_ killed comment

/-- Two links more: 5 knows `QS`, and 6 does not. -/
def meshRun : List NetEvent :=
  splitRun.take 8 ++ [.accept, .pass 5 5 [[], lit "pw", lit "TS"],
    .capab 5 [[], lit "QS EX IE"], .server 5 5 [[], lit "east.d", lit "1", lit "East"] openAdmission,
    .accept, .pass 6 6 [[], lit "pw", lit "TS"],
    .server 6 6 [[], lit "west.e", lit "1", lit "West"] openAdmission]

def meshAt (k : Nat) : Network := netMachine.run (startUp (lit "a.b") 5) (meshRun.take k)

theorem meets_meshRun : netMachine.Meets NetComes (startUp (lit "a.b") 5) meshRun := by
  have senders : (meshAt 1).ComesFrom 1 1 ∧ (meshAt 2).ComesFrom 1 1 ∧
      ((meshAt 2).client 1).myConnect = true ∧ (meshAt 4).ComesFrom 2 2 ∧
      (meshAt 5).ComesFrom 2 2 ∧ (((meshAt 5).client 2).isServer = false → 2 ∉ (meshAt 5).clients) ∧
      (meshAt 6).ComesFrom 2 2 ∧ (((meshAt 6).client 2).isServer = false → 2 ∉ (meshAt 6).clients) ∧
      (meshAt 7).ComesFrom 2 3 := by decide +kernel
  have links : (meshAt 9).ComesFrom 5 5 ∧ 5 ∈ (meshAt 10).globalClientList ∧
      (meshAt 11).ComesFrom 5 5 ∧
      (((meshAt 11).client 5).isServer = false → 5 ∉ (meshAt 11).clients) ∧
      (meshAt 13).ComesFrom 6 6 ∧ (meshAt 14).ComesFrom 6 6 ∧
      (((meshAt 14).client 6).isServer = false → 6 ∉ (meshAt 14).clients) := by decide +kernel
  obtain ⟨nick, user, mine, pass, link, unnamed, server, linked, behind⟩ := senders
  obtain ⟨pass₅, capab, link₅, unnamed₅, pass₆, link₆, unnamed₆⟩ := links
  exact ⟨trivial, nick, ⟨user, mine⟩, trivial, pass, ⟨link, unnamed⟩, ⟨server, linked⟩, behind,
    trivial, pass₅, capab, ⟨link₅, unnamed₅⟩, trivial, pass₆, ⟨link₆, unnamed₆⟩, trivial⟩

/-- The exit of `leaf.c` as 5 reports it, and of the link 2 that it is behind. -/
theorem linksTold_meshRun :
    let n := netMachine.run (startUp (lit "a.b") 5) meshRun
    (n.servCptrList = [6, 5, 2] ∧ (n.client 3).from_ = 2 ∧ (n.peer 5).capQs = true) ∧
      LinksTold n (n.exitClient 5 3 5 false (lit "gone")) 5 3 5 false (lit "gone") ∧
      LinksTold n (n.exitClient 2 2 2 false (lit "gone")) 2 2 2 false (lit "gone") := by
  intro n
  have here : n.servCptrList = [6, 5, 2] ∧ (n.client 3).from_ = 2 ∧ (n.peer 5).capQs = true ∧
      3 ∈ n.globalClientList ∧ (n.client 3).status = .server ∧ 2 ∈ n.globalClientList ∧
      (n.client 2).status = .server := by decide +kernel
  obtain ⟨links, from_, qs, leaf, leafServer, hub, hubServer⟩ := here
  exact ⟨⟨links, from_, qs⟩,
    linksTold_of_run meets_meshRun List.prefix_rfl leaf leafServer 5 5 false (lit "gone"),
    linksTold_of_run meets_meshRun List.prefix_rfl hub hubServer 2 2 false (lit "gone")⟩

end Network

end Ircd
