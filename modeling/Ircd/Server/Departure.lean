import Ircd.Server.Graph

/-! `exit_client` takes a client and all that is behind it out of the graph, and nothing
else.
-/

set_option autoImplicit false

namespace Ircd

namespace Server

theorem groups_exitChannels {s : Server} {sptr v : ClientId} (cs : List ChanId) (sound : s.Sound)
    (mine : (s.client sptr).channel = cs) (other : v ≠ sptr) :
    ((exitChannels sptr cs s).client v).channel = (s.client v).channel := by
  induction cs generalizing s with
  | nil => rfl
  | cons c rest ih =>
    have member : sptr ∈ (s.chan c).memberIds := sound.mem_memberIds_iff.2 (by simp [mine])
    have first := Tidy.removeUserFromChannel sound member
    have left : ((s.removeUserFromChannel sptr c).client sptr).channel = rest := by
      rw [removeUserFromChannel_toTables, sound.groups_leave member, if_pos rfl, mine]
      simp
    have others : ((s.removeUserFromChannel sptr c).client v).channel = (s.client v).channel := by
      rw [removeUserFromChannel_toTables, sound.groups_leave member, if_neg other]
    exact (ih (first.sound sound) left).trans others

theorem groups_exitOneClient {s : Server} (sound : s.Sound) (cptr sptr : ClientId) {v : ClientId}
    (killed : Bool) (comment : CStr) (other : v ≠ sptr) :
    ((s.exitOneClient cptr sptr killed comment).client v).channel = (s.client v).channel := by
  have removed : ∀ t : Tables, ((t.removeClientFromList sptr).client v).channel =
      (t.client v).channel := by
    intro t
    unfold Tables.removeClientFromList
    simp only [Function.update_of_ne other]
    split <;> rfl
  unfold exitOneClient
  simp only
  split
  · rfl
  · rw [edit_toTables, removed]
    split
    · generalize sending : (if killed = true then s else
        s.emit (.servButone cptr (':' :: (s.client sptr).name ++ lit " QUIT :" ++ comment))) = s₁
      have sent : s₁.toTables = s.toTables := by
        subst sending
        split <;> rfl
      rw [(exitInvites_alike sptr _ _).1.groups]
      have sound₁ : (s₁.emit (.commonChannels sptr
          (':' :: (s.client sptr).name ++ lit " QUIT :" ++ comment))).Sound := by
        rw [emit_toTables, sent]
        exact sound
      refine (groups_exitChannels _ sound₁ rfl other).trans ?_
      rw [emit_toTables, sent]
    · rfl

end Server

namespace Network

variable {n n' : Network} {u v : ClientId}

structure Remains (n n' : Network) : Prop where
  fewer : ∀ v ∈ n'.globalClientList, v ∈ n.globalClientList
  clients : ∀ v ∈ n'.globalClientList, v ∈ n'.clients ↔ v ∈ n.clients
  identity : ∀ v ∈ n'.globalClientList, (n'.client v).identity = (n.client v).identity
  nicksent : ∀ v, (n'.peer v).nicksent = (n.peer v).nicksent
  nickissent : n'.nickissent = n.nickissent
  sound : n.toTables.Sound → n'.toTables.Sound
  groups : n.toTables.Sound → ∀ v ∈ n'.globalClientList,
    (n'.client v).channel = (n.client v).channel

namespace Remains

theorem refl (n : Network) : Remains n n :=
  ⟨fun _ => id, fun _ _ => Iff.rfl, fun _ _ => rfl, fun _ => rfl, rfl, id, fun _ _ _ => rfl⟩

theorem trans {n'' : Network} (h : Remains n n') (h' : Remains n' n'') : Remains n n'' where
  fewer v inside := h.fewer v (h'.fewer v inside)
  clients v inside := (h'.clients v inside).trans (h.clients v (h'.fewer v inside))
  identity v inside := (h'.identity v inside).trans (h.identity v (h'.fewer v inside))
  nicksent v := (h'.nicksent v).trans (h.nicksent v)
  nickissent := h'.nickissent.trans h.nickissent
  sound sound := h'.sound (h.sound sound)
  groups sound v inside :=
    (h'.groups (h.sound sound) v inside).trans (h.groups sound v (h'.fewer v inside))

variable (h : Remains n n') (inside : v ∈ n'.globalClientList)
include h inside

theorem status : (n'.client v).status = (n.client v).status :=
  (congrArg Client.status (h.identity v inside) :)

theorem from_ : (n'.client v).from_ = (n.client v).from_ :=
  (congrArg Client.from_ (h.identity v inside) :)

theorem localFlag : (n'.client v).localFlag = (n.client v).localFlag :=
  (congrArg Client.localFlag (h.identity v inside) :)

theorem nameOf : n'.nameOf v = n.nameOf v :=
  (congrArg Client.name (h.identity v inside) :)

end Remains

structure Aside (n n' : Network) : Prop where
  graph : SameGraph n n'
  tables : n'.toTables = n.toTables
  nicksent : ∀ v, (n'.peer v).nicksent = (n.peer v).nicksent
  nickissent : n'.nickissent = n.nickissent

namespace Aside

theorem remains (h : Aside n n') : Remains n n' where
  fewer v inside := h.graph.globalClientList ▸ inside
  clients v _ := by rw [h.graph.clients]
  identity v _ := by rw [h.tables]
  nicksent := h.nicksent
  nickissent := h.nickissent
  sound sound := h.tables ▸ sound
  groups _ v _ := by rw [h.tables]

theorem refl (n : Network) : Aside n n := ⟨.refl n, rfl, fun _ => rfl, rfl⟩

theorem sendLine (n : Network) (u : ClientId) (text : CStr) : Aside n (n.sendLine u text) :=
  ⟨.sendLine n u text, rfl, fun _ => rfl, rfl⟩

theorem trans {n'' : Network} (h : Aside n n') (h' : Aside n' n'') : Aside n n'' where
  graph := h.graph.trans h'.graph
  tables := h'.tables.trans h.tables
  nicksent v := (h'.nicksent v).trans (h.nicksent v)
  nickissent := h'.nickissent.trans h.nickissent

theorem counters (n : Network) (opers : List ClientId) (first : Option ClientId)
    (count : Counter) :
    Aside n { n with operCptrList := opers, localCptrList := first, count := count } := by
  refine ⟨?_, rfl, fun _ => rfl, rfl⟩
  constructor <;> first | rfl | exact fun _ => rfl | exact fun _ => id

theorem setPeer {p : Peer} (servptr : p.servptr = (n.peer u).servptr)
    (serv : p.serv = (n.peer u).serv) (nicksent : p.nicksent = (n.peer u).nicksent) :
    Aside n (n.setPeer u p) := by
  refine ⟨.setPeer servptr (by rw [serv]) (by simp [serv]), rfl, fun v => ?_, rfl⟩
  by_cases here : v = u
  · subst here
    simpa [Network.setPeer] using nicksent
  · simp [Network.setPeer, here]

theorem closeUp (n : Network) (u : ClientId) (previous next : Option ClientId) :
    Aside n (match previous with
      | some p => n.setPeer p { n.peer p with nextLocalClient := next }
      | none => if n.localCptrList = some u then { n with localCptrList := next } else n) := by
  cases previous with
  | some p => exact .setPeer rfl rfl rfl
  | none =>
    simp only
    split
    · exact .counters n n.operCptrList next n.count
    · exact .refl n

theorem closeBack (n : Network) (previous next : Option ClientId) :
    Aside n (match next with
      | some q => n.setPeer q { n.peer q with previousLocalClient := previous }
      | none => n) := by
  cases next with
  | some q => exact .setPeer rfl rfl rfl
  | none => exact .refl n

end Aside

structure Departed (n n' : Network) (u : ClientId) : Prop where
  forest : n'.forest = n.forest.drop u
  tables : n.toTables.Exited n'.toTables u
  serv : ∀ v, (n.peer v).serv.isSome = true → (n'.peer v).serv.isSome = true
  servptr : ∀ v, (n'.peer v).servptr = (n.peer v).servptr
  nicksent : ∀ v, (n'.peer v).nicksent = (n.peer v).nicksent
  nickissent : n'.nickissent = n.nickissent
  sound : n.toTables.Sound → n'.toTables.Sound
  groups : n.toTables.Sound → ∀ v, v ≠ u → (n'.client v).channel = (n.client v).channel

theorem sameGraph_updateClientExitStats (n : Network) (u : ClientId) :
    SameGraph n (n.updateClientExitStats u) := by
  unfold updateClientExitStats
  simp only
  split
  · split <;> (constructor <;> first | rfl | exact fun _ => rfl | exact fun _ => id)
  · split <;> (constructor <;> first | rfl | exact fun _ => rfl | exact fun _ => id)

theorem toTables_updateClientExitStats (n : Network) (u : ClientId) :
    let t := (n.updateClientExitStats u).toTables
    t.me = n.me ∧ t.clients = n.clients ∧ t.servCptrList = n.servCptrList ∧
      t.currentTime = n.currentTime ∧ t.client = n.client := by
  unfold updateClientExitStats
  simp only
  split
  · split <;> exact ⟨rfl, rfl, rfl, rfl, rfl⟩
  · split <;> exact ⟨rfl, rfl, rfl, rfl, rfl⟩

theorem peer_updateClientExitStats (n : Network) (u : ClientId) :
    (n.updateClientExitStats u).peer = n.peer ∧
      (n.updateClientExitStats u).nickissent = n.nickissent := by
  unfold updateClientExitStats
  simp only
  split
  · split <;> exact ⟨rfl, rfl⟩
  · split <;> exact ⟨rfl, rfl⟩

theorem keeps_updateClientExitStats (n : Network) (u : ClientId) :
    n.toTables.Keeps (n.updateClientExitStats u).toTables := by
  unfold updateClientExitStats
  simp only
  split
  · split <;> exact .directory rfl rfl rfl rfl (fun sound => sound.outside) fun sound => sound.proper
  · split <;> exact .directory rfl rfl rfl rfl (fun sound => sound.outside) fun sound => sound.proper

theorem delFromLlist_toServer (n : Network) (u : ClientId) :
    (n.delFromLlist u).toServer = n.toServer := by
  unfold delFromLlist
  cases (n.peer u).servptr with
  | none => rfl
  | some p =>
    cases serv : (n.peer p).serv with
    | none => simp only [serv]
    | some sv =>
      simp only [serv]
      split <;> rfl

structure KeepsPeer (p p' : Peer) : Prop where
  servptr : p'.servptr = p.servptr
  nicksent : p'.nicksent = p.nicksent
  serv : p.serv.isSome = true → p'.serv.isSome = true

theorem keepsPeer_setServ (n : Network) (p : ClientId) (sv : Serv) (v : ClientId) :
    KeepsPeer (n.peer v) ((n.setServ p sv).peer v) := by
  by_cases here : v = p
  · subst here
    exact ⟨by simp [setServ, setPeer], by simp [setServ, setPeer], by simp [setServ, setPeer]⟩
  · simp only [setServ, setPeer, Function.update_of_ne here]
    exact ⟨rfl, rfl, id⟩

theorem keepsPeer_delFromLlist (n : Network) (u v : ClientId) :
    KeepsPeer (n.peer v) ((n.delFromLlist u).peer v) := by
  unfold delFromLlist
  cases (n.peer u).servptr with
  | none => exact ⟨rfl, rfl, id⟩
  | some p =>
    cases serv : (n.peer p).serv with
    | none =>
      simp only [serv]
      exact ⟨rfl, rfl, id⟩
    | some sv =>
      simp only [serv]
      split <;> exact keepsPeer_setServ n p _ v

theorem delFromLlist_nickissent (n : Network) (u : ClientId) :
    (n.delFromLlist u).nickissent = n.nickissent := by
  unfold delFromLlist
  split
  · rfl
  · split
    · rfl
    · split <;> rfl

/-- The end of `exit_one_client`, once the client is off its list and its SQUIT is sent. -/
theorem departed_of_unlinked (cptr : ClientId) {sptr : ClientId} (killed : Bool)
    (comment : CStr) (notMe : (n.client sptr).status ≠ .me)
    (lists : n'.forest = n.forest.unlink sptr) (tables : n'.toTables = n.toTables)
    (peer : ∀ v, KeepsPeer (n.peer v) (n'.peer v)) (mark : n'.nickissent = n.nickissent) :
    let n' := n'.updateClientExitStats sptr
    Departed n { n' with
      toServer := n'.toServer.exitOneClient cptr sptr killed comment
      globalClientList := n'.globalClientList.erase sptr } sptr := by
  have same := sameGraph_updateClientExitStats n' sptr
  obtain ⟨me, clients, links, currentTime, client⟩ := toTables_updateClientExitStats n' sptr
  obtain ⟨peers, marks⟩ := peer_updateClientExitStats n' sptr
  have keeps := keeps_updateClientExitStats n' sptr
  simp only
  generalize n'.updateClientExitStats sptr = m at *
  rw [tables] at me clients links currentTime client keeps
  replace peer : ∀ v, KeepsPeer (n.peer v) (m.peer v) := fun v => peers ▸ peer v
  have notMe' : (m.client sptr).status ≠ .me := by rwa [client]
  have exited := Server.exited_exitOneClient m.toServer cptr sptr killed comment notMe'
  have left := keeps_exitOneClient m.toServer cptr sptr killed comment
  have groups := fun sound v => Server.groups_exitOneClient (s := m.toServer) (v := v)
    sound cptr sptr killed comment
  generalize m.toServer.exitOneClient cptr sptr killed comment = s at exited left groups ⊢
  have exited' : n.toTables.Exited s.toTables sptr := by
    refine ⟨exited.me.trans me, ?_, ?_, exited.currentTime.trans currentTime, fun v => ?_⟩
    · rw [exited.clients, clients]
    · rw [exited.servCptrList, links]
    · rw [exited.identity, client]
  have forest : m.forest = n.forest.unlink sptr := same.forest.trans lists
  have notRoot : n.forest.kind sptr ≠ .root := by
    simpa [Network.forest, kind_eq_root] using notMe
  refine ⟨?_, exited', fun v => (peer v).serv, fun v => (peer v).servptr, fun v => (peer v).nicksent,
    marks.trans mark, fun sound => left.sound (keeps.sound sound), fun sound v other => ?_⟩
  case refine_2 => rw [groups (keeps.sound sound) v other, client]
  rw [Forest.drop, if_neg notRoot, ← forest]
  -- what the graph reads of the other clients is as before
  refine Forest.ext ?_ ?_ rfl ?_ ?_ ?_ ?_ rfl ?_
  · exact exited.me
  · have nodes : m.globalClientList = n.globalClientList := by
      have all := congrArg Forest.nodes forest
      rwa [Forest.unlink_nodes] at all
    exact congrArg (List.erase · sptr) nodes
  · exact exited'.clients
  · funext v
    simp only [Network.forest, exited.nameOf]
  · funext v
    simp only [Network.forest, exited.status]
  · funext v
    simp only [Network.forest, exited.status]
  · funext v
    simp only [Network.forest, exited.from_]

theorem departed_exitOneClient (n : Network) (cptr : ClientId) {sptr : ClientId}
    (from_ : ClientId) (killed : Bool) (comment : CStr) (notMe : (n.client sptr).status ≠ .me) :
    Departed n (n.exitOneClient cptr sptr from_ killed comment) sptr := by
  have server := delFromLlist_toServer n sptr
  have lists := forest_delFromLlist n notMe
  have peer := keepsPeer_delFromLlist n sptr
  have mark := delFromLlist_nickissent n sptr
  unfold exitOneClient
  simp only
  generalize n.delFromLlist sptr = m at server lists peer mark ⊢
  have tables : m.toTables = n.toTables := congrArg Server.toTables server
  have notMe' : (m.client sptr).status ≠ .me := by rwa [tables]
  rw [if_neg notMe']
  split
  · exact departed_of_unlinked cptr killed comment notMe lists tables peer mark
  · exact departed_of_unlinked cptr killed comment notMe lists tables peer mark

namespace Departed

variable (gone : Departed n n' u)
include gone

theorem me : n'.me = n.me := gone.tables.me

theorem mem_globalClientList (tree : n.Tree) (listed : u ∈ n.globalClientList) (notMe : u ≠ n.me)
    (w : ClientId) : w ∈ n'.globalClientList ↔ w ≠ u ∧ w ∈ n.globalClientList := by
  have nodes := tree.ok.mem_drop_nodes listed notMe w
  rwa [← gone.forest] at nodes

theorem tree (tree : n.Tree) (listed : u ∈ n.globalClientList) (notMe : u ≠ n.me)
    (bare : n.forest.Bare u) : n'.Tree := by
  have inside := gone.mem_globalClientList tree listed notMe
  have tables := gone.tables
  constructor
  case ok =>
    rw [gone.forest]
    exact tree.ok.drop listed notMe bare
  case top =>
    rw [gone.servptr, tables.me]
    exact tree.top
  case mine =>
    intro w here
    rw [tables.localFlag, tables.from_, tables.me]
    exact tree.mine w ((inside w).1 here).2
  case serv =>
    intro w here status
    rw [tables.status] at status
    exact gone.serv w (tree.serv w ((inside w).1 here).2 status)
  case people =>
    intro w
    rw [tables.user, tables.status, inside]
    by_cases this : w = u
    · simp [this]
    · simpa [this] using tree.people w
  case links =>
    intro w
    rw [tables.servCptrList, tree.links_nodup.mem_erase_iff, tree.links, inside, tables.status,
      tables.localFlag, and_assoc]
  case links_nodup =>
    rw [tables.servCptrList]
    exact tree.links_nodup.erase u

theorem remains (tree : n.Tree) (listed : u ∈ n.globalClientList) (notMe : u ≠ n.me) :
    Remains n n' where
  fewer v inside := ((gone.mem_globalClientList tree listed notMe v).1 inside).2
  clients v inside := by
    have other := ((gone.mem_globalClientList tree listed notMe v).1 inside).1
    rw [gone.tables.clients, List.mem_erase_of_ne other]
  identity v inside := by
    have other := ((gone.mem_globalClientList tree listed notMe v).1 inside).1
    rw [gone.tables.identity, if_neg other]
  nicksent := gone.nicksent
  nickissent := gone.nickissent
  sound := gone.sound
  groups sound v inside :=
    gone.groups sound v ((gone.mem_globalClientList tree listed notMe v).1 inside).1

end Departed

namespace Tree

variable (tree : n.Tree)
include tree

theorem status_me_iff (listed : u ∈ n.globalClientList) :
    (n.client u).status = .me ↔ u = n.me := by
  rw [← kind_eq_root]
  exact tree.ok.root_iff u listed

theorem mem_llist_iff (listed : u ∈ n.globalClientList) {k : Forest.Kind} (hung : k ≠ .root) :
    v ∈ llist (n.peer u).serv k ↔
      v ∈ n.globalClientList ∧ (n.client v).status.kind = k ∧ (n.peer v).servptr = some u := by
  refine (tree.ok.kids_iff k u listed v).trans
    (and_congr_right fun _ => and_congr_right fun kind => ?_)
  -- only the root has no parent in the tree
  have notMe : (n.client v).status ≠ .me := fun top => by
    have root : (n.client v).status.kind = .root := kind_eq_root.2 top
    exact hung (kind.symm.trans root)
  simp only [forest, if_neg notMe]

theorem mem_servers_iff (listed : u ∈ n.globalClientList) {sv : Serv}
    (serv : (n.peer u).serv = some sv) : v ∈ sv.servers ↔
      v ∈ n.globalClientList ∧ (n.client v).status = .server ∧ (n.peer v).servptr = some u := by
  have kids := tree.mem_llist_iff (v := v) listed (k := .inner) (by decide)
  simpa only [llist, serv, Option.map_some, Option.getD_some, kind_eq_inner] using kids

theorem mem_users_iff (listed : u ∈ n.globalClientList) {sv : Serv}
    (serv : (n.peer u).serv = some sv) : v ∈ sv.users ↔
      v ∈ n.globalClientList ∧ (n.client v).status = .client ∧ (n.peer v).servptr = some u := by
  have kids := tree.mem_llist_iff (v := v) listed (k := .leaf) (by decide)
  simpa only [llist, serv, Option.map_some, Option.getD_some, kind_eq_leaf] using kids

end Tree

structure Cleared (n n' : Network) (u : ClientId) : Prop where
  pruned : Forest.Pruned n.forest n'.forest u
  tree : n'.Tree
  status : ∀ v, (n'.client v).status = (n.client v).status
  nameOf : ∀ v, n'.nameOf v = n.nameOf v
  remains : Remains n n'

theorem Cleared.refl (tree : n.Tree) (bare : n.forest.Bare u) : Cleared n n u :=
  ⟨.refl tree.ok bare, tree, fun _ => rfl, fun _ => rfl, .refl n⟩

theorem cleared_recurseRemoveClients (comment : CStr) (fuel : Nat) {n : Network} (tree : n.Tree)
    {u : ClientId} (listed : u ∈ n.globalClientList) (notMe : u ≠ n.me)
    (enough : (n.globalClientList.filter (u < ·)).length < fuel) :
    Cleared n (recurseRemoveClients comment fuel n u) u := by
  induction fuel generalizing n u with
  | zero => exact absurd enough (Nat.not_lt_zero _)
  | succ fuel ih =>
    have status : (n.client u).status ≠ .me := fun same => notMe ((tree.status_me_iff listed).1 same)
    rw [recurseRemoveClients, if_neg status]
    -- a child that nothing is below any more goes, and then the rest
    have go : ∀ {m : Network} {v : ClientId} (text : CStr), v ∈ n.globalClientList →
        n.forest.parent v = some u → Cleared n m v →
        Cleared n (recurseRemoveClients comment fuel (m.exitOneClient m.me v m.me true text) u)
          u := by
      intro m v text inside parent first
      have notRoot : v ≠ n.me := tree.ok.not_root_of_parent parent
      have notMe' : (m.client v).status ≠ .me := by
        rw [first.status]
        exact fun same => notRoot ((tree.status_me_iff inside).1 same)
      have gone := departed_exitOneClient m m.me m.me true text notMe'
      generalize m.exitOneClient m.me v m.me true text = m' at gone
      obtain ⟨stays, -, inside', less⟩ := tree.ok.drop_child parent inside first.pruned
      rw [← gone.forest] at inside' less
      have root : m.me = n.me := first.pruned.same.root
      have tree' := gone.tree first.tree stays (root ▸ notRoot) first.pruned.bare
      have rest := ih tree' inside' (by rwa [gone.me, root])
        (Nat.lt_of_lt_of_le less (Nat.le_of_lt_succ enough))
      refine ⟨tree.ok.pruned_step parent first.pruned stays (gone.forest ▸ rest.pruned), rest.tree,
        fun w => ?_, fun w => ?_, ?_⟩
      · rw [rest.status, gone.tables.status, first.status]
      · rw [rest.nameOf, gone.tables.nameOf, first.nameOf]
      · have left := gone.remains first.tree stays (root ▸ notRoot)
        exact (first.remains.trans left).trans rest.remains
    cases serv : (n.peer u).serv with
    | none =>
      have bare := (tree.ok.bare_iff listed).2 (by simp [forest, llist, serv])
      exact .refl tree bare
    | some sv =>
      cases servers : sv.servers with
      | cons v rest =>
        have kid := (tree.ok.kids_iff .inner u listed v).1 (by simp [forest, llist, serv, servers])
        have younger := (tree.ok.hung v kid.1 u kid.2.2).2.1
        have fewer := Forest.Ok.younger_lt n.globalClientList kid.1 younger
        have first := ih tree kid.1 (tree.ok.not_root_of_parent kid.2.2)
          (Nat.lt_of_lt_of_le fewer (Nat.le_of_lt_succ enough))
        simp only [servers]
        exact go _ kid.1 kid.2.2 first
      | nil =>
        cases users : sv.users with
        | cons v rest =>
          have kid := (tree.ok.kids_iff .leaf u listed v).1 (by simp [forest, llist, serv, users])
          have bare : n.forest.Bare v := tree.ok.bare_of_not_hub fun hub => by
            rcases hub.2 with kind | kind <;>
            · rw [kid.2.1] at kind
              cases kind
          simp only [servers, users]
          exact go _ kid.1 kid.2.2 (.refl tree bare)
        | nil =>
          have bare := (tree.ok.bare_iff listed).2 (by simp [forest, llist, serv, servers, users])
          simp only [servers, users]
          exact .refl tree bare

theorem removeStrays_eq_self {sptr : ClientId} {servers : Bool} (comment : CStr)
    {us : List ClientId} (none : ∀ v ∈ us, v ≠ sptr → (n.client v).from_ ≠ sptr) :
    removeStrays sptr servers comment us n = n := by
  induction us with
  | nil => rfl
  | cons v rest ih =>
    have first := none v List.mem_cons_self
    rw [removeStrays, if_neg fun stray => first stray.1 stray.2.2]
    exact ih fun w inside => none w (List.mem_cons_of_mem _ inside)

theorem Remains.settled (h : Remains n n') (settled : n.Settled) : n'.Settled := by
  intro v inside
  rw [h.status inside, h.from_ inside]
  exact settled v (h.fewer v inside)

theorem Cleared.no_strays (cleared : Cleared n n' u) (settled : n.Settled) :
    ∀ v ∈ n'.globalClientList, v ≠ u → (n'.client v).from_ ≠ u := by
  intro v inside other same
  have shape := cleared.pruned.ok.toShape
  by_cases loose : (n'.client v).status.kind = .loose
  · exact other ((cleared.remains.settled settled v inside loose).symm.trans same)
  · have root : n'.forest.root = n.me := cleared.pruned.same.root
    by_cases top : v = n'.forest.root
    · have via := shape.root_via
      rw [← top] at via
      exact other (via.symm.trans same)
    · have via : n'.forest.via v = u := same
      have below := shape.below_via inside loose top (by rwa [via])
      rw [via] at below
      exact shape.not_below_of_bare cleared.pruned.bare inside below

theorem aside_sendQuits (n : Network) (to_ : ClientId) (lines : List QuitLine) :
    Aside n (n.sendQuits to_ lines) := by
  unfold sendQuits
  induction lines generalizing n with
  | nil => exact .refl n
  | cons line rest ih => exact (Aside.sendLine n to_ line.text).trans (ih _)

theorem aside_leaveRoleLists (n : Network) (u : ClientId) : Aside n (n.leaveRoleLists u) := by
  unfold leaveRoleLists
  simp only
  split
  · exact .refl n
  · generalize opers : (if (n.peer u).umodes.isAnOper = true then
      { n with operCptrList := n.operCptrList.erase u } else n) = m
    have first : Aside n m := by
      subst opers
      split
      · exact .counters n _ n.localCptrList n.count
      · exact .refl n
    split
    · exact first
    · have second := first.trans (.counters m m.operCptrList m.localCptrList
        { m.count with local_ := m.count.local_ - 1 })
      split
      · exact second
      · exact ((second.trans (.closeUp ..)).trans (.closeBack ..)).trans (.setPeer rfl rfl rfl)

theorem aside_sayClosing (n : Network) (u : ClientId) (comment : CStr) :
    Aside n (n.sayClosing u comment) := by
  unfold sayClosing
  split
  · exact .sendLine ..
  · exact .refl n

theorem aside_closing (n : Network) (u : ClientId) (comment : CStr) :
    Aside n ((n.leaveRoleLists u).sayClosing u comment) :=
  (aside_leaveRoleLists n u).trans (aside_sayClosing ..)

structure Exited (n n' : Network) (u : ClientId) : Prop where
  cut : Forest.Cut n.forest n'.forest u
  tree : n'.Tree
  remains : Remains n n'

namespace Exited

variable (h : Exited n n' u)
include h

theorem me : n'.me = n.me := h.cut.same.root

theorem from_ (v : ClientId) : (n'.client v).from_ = (n.client v).from_ :=
  congrFun h.cut.same.via v

theorem key (v : ClientId) : nameKey (n'.nameOf v) = nameKey (n.nameOf v) :=
  congrFun h.cut.same.key v

theorem mem_iff (v : ClientId) :
    v ∈ n'.globalClientList ↔ v ∈ n.globalClientList ∧ v ≠ u ∧ ¬ n.forest.Below u v :=
  h.cut.nodes_iff v

end Exited

theorem Departed.exited (gone : Departed n n' u) (tree : n.Tree) (listed : u ∈ n.globalClientList)
    (notMe : u ≠ n.me) (bare : n.forest.Bare u) : Exited n n' u where
  cut := gone.forest ▸ (Forest.Pruned.refl tree.ok bare).cut tree.ok listed notMe
  tree := gone.tree tree listed notMe bare
  remains := gone.remains tree listed notMe

theorem Cleared.exited {m : Network} (cleared : Cleared n m u) (gone : Departed m n' u)
    (tree : n.Tree) (listed : u ∈ n.globalClientList) (notMe : u ≠ n.me) : Exited n n' u := by
  have stays := cleared.pruned.stays tree.ok.toShape listed
  have notMe' : u ≠ m.me := by rwa [show m.me = n.me from cleared.pruned.same.root]
  exact {
    cut := gone.forest ▸ cleared.pruned.cut tree.ok listed notMe
    tree := gone.tree cleared.tree stays notMe' cleared.pruned.bare
    remains := cleared.remains.trans (gone.remains cleared.tree stays notMe') }

theorem Aside.exited {m : Network} (same : Aside n m) (h : Exited m n' u) : Exited n n' u where
  cut := same.graph.forest ▸ h.cut
  tree := h.tree
  remains := same.remains.trans h.remains

theorem aside_tellQuits (n m : Network) (cptr sptr : ClientId) (comment : CStr)
    (us : List ClientId) :
    Aside m (us.foldl (fun m to_ => m.sendQuits to_ (n.quitsFor cptr sptr comment to_)) m) := by
  induction us generalizing m with
  | nil => exact .refl m
  | cons to_ rest ih => exact (aside_sendQuits m to_ _).trans (ih _)

theorem Tree.fuel {n : Network} (listed : u ∈ n.globalClientList) :
    (n.globalClientList.filter (u < ·)).length < n.globalClientList.length := by
  apply Nat.lt_of_le_of_ne (List.length_filter_le ..)
  intro same
  have all := List.length_filter_eq_length_iff.1 same u listed
  simp at all

theorem cleared_removeDependents (tree : n.Tree) (listed : u ∈ n.globalClientList)
    (notMe : u ≠ n.me) (cptr : ClientId) (comment : CStr) :
    Cleared n (n.removeDependents cptr u comment) u := by
  have aside := aside_tellQuits n n cptr u comment n.servCptrList
  unfold removeDependents
  generalize n.servCptrList.foldl
    (fun m to_ => m.sendQuits to_ (n.quitsFor cptr u comment to_)) n = m at aside
  have told := aside.graph
  have listed' : u ∈ m.globalClientList := by rwa [told.globalClientList]
  have cleared := cleared_recurseRemoveClients comment n.globalClientList.length (told.tree tree)
    listed' (by rwa [told.me]) (by
      rw [told.globalClientList]
      exact Tree.fuel listed)
  exact ⟨told.forest ▸ cleared.pruned, cleared.tree, fun v => (cleared.status v).trans
    (told.status v), fun v => (cleared.nameOf v).trans (told.name v),
      aside.remains.trans cleared.remains⟩

/-- The comment of a netsplit: the server that the split one hung from, and its own name. -/
def splitComment (n : Network) (u : ClientId) : CStr :=
  (match (n.peer u).serv with
    | some sv => sv.up
    | none => lit "<Unknown>") ++ ' ' :: n.nameOf u

theorem exitClient_eq (n : Network) (cptr u from_ : ClientId) (killed : Bool) (comment : CStr) :
    n.exitClient cptr u from_ killed comment =
      let m := (n.leaveRoleLists u).sayClosing u comment
      let text := m.splitComment u
      (if (m.client u).isServer then
        let m := m.removeDependents cptr u text
        if (m.peer u).servptr = some m.me then
          let m := removeStrays u false text m.globalClientList m
          removeStrays u true text m.globalClientList m
        else m
      else m).exitOneClient cptr u from_ killed comment := rfl

theorem exited_exitClient (tree : n.Tree) (listed : u ∈ n.globalClientList) (notMe : u ≠ n.me)
    (settled : (n.client u).isServer = true → n.Settled) (cptr from_ : ClientId) (killed : Bool)
    (comment : CStr) : Exited n (n.exitClient cptr u from_ killed comment) u := by
  have aside := aside_closing n u comment
  rw [exitClient_eq]
  simp only
  generalize (n.leaveRoleLists u).sayClosing u comment = m at aside
  refine aside.exited ?_
  have same := aside.graph
  replace tree := same.tree tree
  replace settled : (m.client u).isServer = true → m.Settled := by
    rw [aside.tables]
    exact fun server => same.settled (settled server)
  replace listed : u ∈ m.globalClientList := by rwa [same.globalClientList]
  replace notMe : u ≠ m.me := by rwa [same.me]
  have status : (m.client u).status ≠ .me := fun top => notMe ((tree.status_me_iff listed).1 top)
  split
  · next server =>
    generalize m.splitComment u = comment1
    have cleared := cleared_removeDependents tree listed notMe cptr comment1
    generalize m.removeDependents cptr u comment1 = m' at cleared
    have none : ∀ v ∈ m'.globalClientList, v ≠ u → (m'.client v).from_ ≠ u :=
      cleared.no_strays (settled server)
    have gone := departed_exitOneClient m' cptr from_ killed comment
      (by rwa [cleared.status])
    split
    · rw [removeStrays_eq_self comment1 none, removeStrays_eq_self comment1 none]
      exact cleared.exited gone tree listed notMe
    · exact cleared.exited gone tree listed notMe
  · next server =>
    -- nothing hangs from a client that is no server
    have bare : m.forest.Bare u := tree.ok.bare_of_not_hub fun hub => by
      rcases hub.2 with kind | kind
      · exact status (kind_eq_root.1 kind)
      · exact server ((isServer_iff _).2 (kind_eq_inner.1 kind))
    exact (departed_exitOneClient m cptr from_ killed comment status).exited tree listed notMe bare

end Network

end Ircd
