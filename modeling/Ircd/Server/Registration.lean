import Ircd.Server.Growth

/-! NICK and USER keep the network sane. -/

set_option autoImplicit false

namespace Ircd

namespace Network

variable {n n' : Network} {u v p cptr sptr : ClientId}

structure Joins (n n' : Network) (u : ClientId) : Prop where
  beside : Beside n n' u
  nodes : n'.globalClientList = n.globalClientList
  clients : n'.clients = n.clients
  links : n'.servCptrList = n.servCptrList
  status : (n'.client u).status = .client
  user : (n'.client u).user = true
  name : n'.nameOf u = n.nameOf u
  from_ : (n'.client u).from_ = (n.client u).from_
  localFlag : (n'.client u).localFlag = (n.client u).localFlag
  nicksent : (n'.peer u).nicksent = (n.peer u).nicksent

theorem Joins.own (h : Joins n n' u) (fit : n.Fit) (listed : u ∈ n.globalClientList)
    (loose : (n.client u).status.kind = .loose) : Own n' u where
  mine _ := by
    rw [h.localFlag, h.from_, h.beside.me]
    exact fit.tree.mine u listed
  serv _ status := by simp [h.status] at status
  people := by simp [h.user, h.status, h.nodes, listed]
  links := by
    rw [h.links, h.nodes, fit.tree.links, h.status]
    refine ⟨fun inside => ?_, fun inside => by simp at inside⟩
    rw [inside.2.1] at loose
    cases loose
  plain inside _ _ := by
    rw [h.clients] at inside
    rw [h.name]
    refine fit.plain u inside ?_ ?_ <;>
    · intro status
      rw [status] at loose
      cases loose
  marks _ := by
    rw [Marks, h.nicksent, h.beside.nickissent]
    exact fit.marks u listed

theorem joins_setRegistered (n : Network) (u : ClientId) (username server : CStr) :
    Joins n (n.setRegistered u username server) u := by
  unfold setRegistered
  simp only
  constructor
  case beside =>
    constructor
    case identity | servptr | serv | nicksent =>
      intro v other
      split <;> simp [setPeer, setCount, Tables.setClient, other]
    all_goals split <;> first | rfl | exact fun _ _ => Iff.rfl
  all_goals split <;> simp [setPeer, setCount, Tables.setClient, Tables.nameOf]

theorem forest_setRegistered (n : Network) (loose : (n.client u).status.kind = .loose)
    (username server : CStr) : (n.setRegistered u username server).forest =
      { n.forest with kind := Function.update n.forest.kind u .leaf } := by
  have notMe : (n.client u).status ≠ .me := fun status => by
    rw [status] at loose
    cases loose
  unfold setRegistered
  simp only
  split
  all_goals
    refine Forest.ext rfl rfl rfl rfl ?_ ?_ ?_ (funext fun k => ?_) ?_
    all_goals
      funext v
      by_cases here : (v : ClientId) = u
    all_goals
      simp [forest, setPeer, setCount, Tables.setClient, Tables.nameOf, Status.kind, here, notMe]

theorem sound_setRegistered (sound : n.toTables.Sound) (named : n.nameOf u ≠ [])
    (username server : CStr) : (n.setRegistered u username server).toTables.Sound := by
  unfold setRegistered
  simp only
  split
  all_goals
    exact sound_write (t := n.toTables) (u := u) sound rfl ⟨rfl, rfl, rfl, rfl⟩ rfl rfl nofun
      ⟨fun _ => ⟨rfl, named⟩, fun _ => rfl⟩

theorem Joins.seat {m : Network} (h : Joins n m u) (beside : Beside m n' u)
    (tables : n'.me = m.me ∧ n'.clients = m.clients ∧ n'.servCptrList = m.servCptrList ∧
      n'.client = m.client)
    (nodes : n'.globalClientList = m.globalClientList)
    (nicksent : (n'.peer u).nicksent = (m.peer u).nicksent) : Joins n n' u := by
  obtain ⟨-, clients, links, client⟩ := tables
  constructor
  case beside => exact h.beside.trans beside
  case nodes => exact nodes.trans h.nodes
  case clients => exact clients.trans h.clients
  case links => exact links.trans h.links
  case nicksent => exact nicksent.trans h.nicksent
  case name => rw [← h.name, Tables.nameOf, client, Tables.nameOf]
  all_goals rw [client]
  case status => exact h.status
  case user => exact h.user
  case from_ => exact h.from_
  case localFlag => exact h.localFlag

theorem joins_seatUser (n : Network) (username server : CStr) :
    Joins n ((n.setRegistered u username server).seatUser u p) u := by
  have first := joins_setRegistered n u username server
  generalize n.setRegistered u username server = m at first
  unfold seatUser
  simp only
  have second := first.seat (beside_setPeer m u { m.peer u with servptr := some p })
    ⟨rfl, rfl, rfl, rfl⟩ rfl (by simp [setPeer])
  generalize m.setPeer u { m.peer u with servptr := some p } = m₁ at second
  have third := beside_addToLlist m₁ u p
  have server := addToLlist_toServer m₁ u p
  have peer := (keepsPeer_addToLlist m₁ u p u).nicksent
  have nodes : (m₁.addToLlist u p).globalClientList = m₁.globalClientList := by
    unfold addToLlist
    split
    · rfl
    · split <;> rfl
  generalize m₁.addToLlist u p = m₂ at third server peer nodes
  have counted : Beside m₂ (m₂.edit fun t => { t with countTotal := t.countTotal + 1 }) u := by
    constructor <;> first | rfl | exact fun _ _ => rfl | exact fun _ _ => Iff.rfl | exact fun _ _ => id
  refine second.seat (third.trans counted) ?_ nodes peer
  rw [← server]
  exact ⟨rfl, rfl, rfl, rfl⟩

theorem forest_seatUser (n : Network) (loose : (n.client u).status.kind = .loose)
    (serv : (n.peer p).serv.isSome = true) (username server : CStr) :
    ((n.setRegistered u username server).seatUser u p).forest = n.forest.hang u .leaf p := by
  have kind := forest_setRegistered n loose username server
  have first := joins_setRegistered n u username server
  have serv' : ((n.setRegistered u username server).peer p).serv.isSome = true := by
    unfold setRegistered
    simp only
    split
    · by_cases here : p = u
      · subst here
        simpa [setPeer, setCount] using serv
      · simpa [setPeer, setCount, here] using serv
    · exact serv
  generalize n.setRegistered u username server = m at kind first serv'
  have parent := forest_setServptr m (u := u) (p := p) (q := { m.peer u with servptr := some p })
    (by simp [first.status]) rfl rfl
  have serv'' : (((m.setPeer u { m.peer u with servptr := some p }).peer p).serv).isSome = true := by
    by_cases here : p = u
    · subst here
      simpa [setPeer] using serv'
    · simpa [setPeer, here] using serv'
  have status : ((m.setPeer u { m.peer u with servptr := some p }).client u).status.kind = .leaf :=
    kind_eq_leaf.2 first.status
  have kids := forest_addToLlist _ status (.inr rfl) serv''
  change ((m.setPeer u { m.peer u with servptr := some p }).addToLlist u p).forest = _
  rw [kids, parent, kind]
  rfl

theorem sound_seatUser (sound : n.toTables.Sound) (u p : ClientId) :
    (n.seatUser u p).toTables.Sound := by
  have server := addToLlist_toServer (n.setPeer u { n.peer u with servptr := some p }) u p
  have keeps : ((n.setPeer u { n.peer u with servptr := some p }).addToLlist u p).toTables.Keeps
      (n.seatUser u p).toTables :=
    .directory rfl rfl rfl rfl (fun sound => sound.outside) fun sound => sound.proper
  exact keeps.sound (congrArg Server.toTables server ▸ sound)

theorem aside_joinLocal (n : Network) (u : ClientId) : Aside n (n.joinLocal u) := by
  have join : ∀ m : Network, Aside m { m.setPeer u { m.peer u with
      previousLocalClient := none, nextLocalClient := m.localCptrList } with
      localCptrList := some u } := by
    intro m
    have links : Aside m (m.setPeer u { m.peer u with
        previousLocalClient := none, nextLocalClient := m.localCptrList }) := .setPeer rfl rfl rfl
    exact links.trans (.counters _ m.operCptrList (some u) m.count)
  unfold joinLocal
  cases n.localCptrList with
  | none => exact join n
  | some first =>
    have back : Aside n (n.setPeer first { n.peer first with previousLocalClient := some u }) :=
      .setPeer rfl rfl rfl
    exact back.trans (join _)

theorem Aside.emit (n : Network) (o : Output) : Aside n (n.emit o) := by
  refine ⟨?_, rfl, fun _ => rfl, rfl⟩
  constructor <;> first | rfl | exact fun _ => rfl | exact fun _ => id

theorem aside_introduceUser (n : Network) (cptr sptr : ClientId) :
    Aside n (n.introduceUser cptr sptr) := by
  unfold introduceUser
  simp only
  split
  · exact (aside_joinLocal n sptr).trans (.emit _ _)
  · exact .emit n _

structure Lands (n n' : Network) (u : ClientId) : Prop where
  beside : Beside n n' u
  fit : n'.Fit
  placed : u ∈ n'.globalClientList → (n'.client u).status = .client

theorem Lands.aside {m : Network} (h : Lands n m u) (aside : Aside m n') : Lands n n' u where
  beside := h.beside.trans (aside.beside u)
  fit := h.fit.aside aside
  placed inside := by
    rw [aside.tables]
    exact h.placed (aside.graph.globalClientList ▸ inside)

theorem hashFindServer_setRegistered (n : Network) (loose : (n.client u).status.kind = .loose)
    (username server host : CStr) :
    (n.setRegistered u username server).hashFindServer host = n.hashFindServer host := by
  have joins := joins_setRegistered n u username server
  refine hashFindServer_congr joins.clients (fun v => ?_) (fun v => ?_) host
  · by_cases here : v = u
    · exact here ▸ joins.name
    · exact joins.beside.nameOf here
  · by_cases here : v = u
    · subst here
      cases status : (n.client v).status <;> simp_all [Client.isServer, joins.status, Status.kind] <;>
        rfl
    · simp only [Client.isServer, joins.beside.status here]

/-- The client can be found by its name, and comes from itself or from a server. -/
theorem lands_placeUser (fit : n.Fit) {server : CStr} (inside : u ∈ n.clients)
    (loose : (n.client u).status.kind = .loose) (named : n.nameOf u ≠ [])
    (older : ∀ p, n.hashFindServer server = some p → p < u)
    (mine : (n.client u).myConnect = true → n.hashFindServer server = some n.me)
    (link : (n.client u).myConnect = false →
      (n.client cptr).isServer = true ∧ (n.client u).from_ = cptr) (username : CStr) :
    Lands n (n.placeUser cptr u username server) u := by
  have listed := fit.tree.ok.listed u inside
  have notMe : u ≠ n.me := by
    rintro rfl
    rw [(fit.tree.status_me_iff listed).2 rfl] at loose
    cases loose
  have registered := joins_setRegistered n u username server
  have sound := sound_setRegistered fit.sound named username server
  have found := hashFindServer_setRegistered n loose username server server
  have kind := forest_setRegistered n loose username server
  have seated := fun p => joins_seatUser (p := p) n (u := u) username server
  have seat := fun p serv => forest_seatUser (p := p) n loose serv username server
  unfold placeUser
  simp only
  rw [found]
  generalize n.setRegistered u username server = m at *
  cases known : n.hashFindServer server with
  | none =>
    have gone := fit.tree.ok.agree_drop_kind (k := .leaf) listed notMe loose (by simp)
    rw [← kind] at gone
    simp only
    have exit := fit_exit_unplaced fit (m := m.sendLine cptr (m.killLine (m.nameOf u)
      (lit "Ghosted, " ++ server ++ lit " doesn't exist")))
      (registered.beside.trans ((Aside.sendLine ..).beside u)) sound registered.status gone listed
      loose registered.links
    exact ⟨(exit _ _ _ _).2.1, (exit _ _ _ _).1, fun inside => absurd inside (exit _ _ _ _).2.2⟩
  | some p =>
    obtain ⟨-, hub⟩ := fit.hub_of_hashFindServer known
    have serv := fit.tree.serv p hub.1 (hub.2.imp kind_eq_root.1 kind_eq_inner.1)
    specialize seated p
    specialize seat p serv
    have sound' := sound_seatUser sound u p
    simp only
    generalize m.seatUser u p = m' at *
    split
    · have gone := fit.tree.ok.agree_drop_hang (p := p) (k := .leaf) listed notMe loose (.inr rfl)
      rw [← seat] at gone
      have exit := fun text => fit_exit_unplaced fit (m := m'.sendLine cptr text)
        (seated.beside.trans ((Aside.sendLine ..).beside u)) sound' seated.status gone listed
        loose seated.links
      exact ⟨(exit _ _ _ _ _).2.1, (exit _ _ _ _ _).1,
        fun inside => absurd inside (exit _ _ _ _ _).2.2⟩
    · next right =>
      -- the server that it names is on the side that the user comes from
      have notHere : p ≠ u := by
        rintro rfl
        rcases hub.2 with kind | kind <;>
        · rw [show n.forest.kind p = .loose from loose] at kind
          cases kind
      have via : n.forest.via u = if p = n.forest.root then u else n.forest.via p := by
        cases connected : (n.client u).myConnect with
        | true =>
          have top := mine connected
          rw [known, Option.some.injEq] at top
          rw [if_pos (show p = n.forest.root from top)]
          exact ((fit.tree.mine u listed).1 connected).1
        | false =>
          obtain ⟨server, from_⟩ := link connected
          have other : cptr ≠ u := by
            rintro rfl
            rw [(isServer_iff _).1 server] at loose
            cases loose
          have same : (n.client p).from_ = (n.client u).from_ := by
            by_contra differs
            refine right ⟨?_, ?_, ?_⟩
            · simpa [Client.myConnect, seated.localFlag] using connected
            · simpa [isServer_iff, seated.beside.status other] using server
            · rwa [seated.beside.from_ notHere, seated.from_]
          have below : p ≠ n.forest.root := by
            rintro rfl
            have top : (n.client n.me).from_ = n.me := fit.tree.ok.root_via
            have me : cptr = n.me := from_.symm.trans (same.symm.trans top)
            have status : (n.client n.me).status = .me :=
              (fit.tree.status_me_iff fit.tree.me_listed).2 rfl
            rw [me, isServer_iff, status] at server
            cases server
          rw [if_neg below]
          exact same.symm
      have ok := fit.tree.ok.hang inside loose (.inr rfl) hub (older p known) via
      rw [← seat] at ok
      have fit' := seated.beside.fit fit notMe ok sound'
        (by rw [seated.links]; exact fit.tree.links_nodup) (seated.own fit listed loose)
      have landed : Lands n m' u := ⟨seated.beside, fit', fun _ => seated.status⟩
      exact landed.aside (aside_introduceUser m' cptr u)

theorem Tree.hashFindServer_eq (tree : n.Tree) {name : CStr} (inside : u ∈ n.clients)
    (role : (n.client u).status = .server ∨ (n.client u).status = .me)
    (same : nameKey name = nameKey (n.nameOf u)) : n.hashFindServer name = some u := by
  unfold Tables.hashFindServer
  cases found : n.clients.find? fun v =>
    ((n.client v).isServer || (n.client v).status == .me) && irccmp name (n.nameOf v) == .eq with
  | none =>
    have none := List.find?_eq_none.1 found u inside
    rcases role with role | role <;>
      simp [role, Client.isServer, (irccmp_eq_iff_nameKey _ _).2 same] at none
  | some v =>
    have first := List.find?_some found
    simp only [Bool.and_eq_true, beq_iff_eq, irccmp_eq_iff_nameKey] at first
    rw [tree.ok.unique u inside v (List.mem_of_find?_eq_some found) (same.symm.trans first.2)]

theorem Tree.hashFindServer_me (tree : n.Tree) : n.hashFindServer n.meName = some n.me :=
  tree.hashFindServer_eq tree.ok.root_table
    (.inr ((tree.status_me_iff tree.me_listed).2 rfl)) rfl

theorem Lands.sane {n₀ : Network} (h : Lands n n' u) (sane : n₀.Sane) (beside : Beside n₀ n u) :
    n'.Sane := by
  refine (beside.trans h.beside).sane sane h.fit (fun inside loose => ?_) (fun inside unknown => ?_)
  · rw [h.placed inside] at loose
    cases loose
  · rw [h.placed inside] at unknown
    cases unknown

theorem Sane.exit_beside {m : Network} (sane : n.Sane) (beside : Beside n m u) (fit : m.Fit)
    (listed : u ∈ m.globalClientList) (notMe : u ≠ n.me)
    (itself : (m.client u).status.kind = .loose → (m.client u).from_ = u)
    (cptr from_ : ClientId) (killed : Bool) (comment : CStr) :
    (m.exitClient cptr u from_ killed comment).Sane := by
  have settled : m.Settled := by
    intro v inside
    by_cases here : v = u
    · exact here ▸ itself
    · rw [beside.status here, beside.from_ here]
      exact sane.settled v ((beside.mem_iff v here).1 inside)
  have notMe' : u ≠ m.me := by rwa [beside.me]
  have exited := exited_exitClient fit.tree listed notMe' (fun _ => settled) cptr from_ killed
    comment
  have remains := exited.remains
  refine ⟨fit.remains exited.tree remains, remains.settled settled, fun v inside => ?_⟩
  have other := ((exited.mem_iff v).1 inside).2.1
  rw [remains.status inside, remains.nameOf inside, remains.clients v inside, beside.status other,
    beside.nameOf other, beside.clients_iff v other]
  exact sane.called v ((beside.mem_iff v other).1 (remains.fewer v inside))

theorem Sane.setClient {m : Network} (sane : n.Sane) (beside : Beside n m u) (fit : m.Fit)
    (notMe : u ≠ n.me) {cl : Client} (same : SamePlace (m.client u) cl)
    (name : u ∈ m.clients → cl.name = m.nameOf u)
    (itself : cl.status.kind = .loose → cl.from_ = u)
    (called : cl.status = .unknown → cl.name ≠ [] → u ∈ m.clients) :
    (m.edit (·.setClient u cl)).Sane := by
  refine (beside.trans (beside_setClient m u cl)).sane sane
    (fit_setClient fit (beside.me ▸ notMe) same name) (fun _ => ?_) (fun _ => ?_)
  · rwa [client_setClient]
  · rwa [Tables.nameOf, client_setClient]

section

variable (sane : n.Sane) (listed : u ∈ n.globalClientList) (notMe : u ≠ n.me)
include sane listed notMe

theorem Sane.write {cl : Client} (same : SamePlace (n.client u) cl)
    (name : cl.name = n.nameOf u) (status : cl.status = (n.client u).status) :
    (n.edit (·.setClient u cl)).Sane := by
  refine sane.setClient ((Aside.refl n).beside u) sane.toFit notMe same (fun _ => name) ?_ ?_
  · rw [same.kind, same.from_]
    exact sane.settled u listed
  · rw [status, name]
    exact sane.called u listed

theorem Sane.setNick {nick : CStr} (free : n.forest.Free u (nameKey nick)) (plain : IsNick nick) :
    (n.setNick u nick).Sane := by
  have fit := fit_setNick sane.toFit listed notMe free plain
  refine (beside_setNick n u nick).sane sane fit (fun _ => ?_) fun _ _ _ => ?_
  · simpa [Network.setNick, Tables.setClient] using sane.settled u listed
  · exact List.mem_cons_self

end

theorem Fit.loose_of_unknown (fit : n.Fit) (listed : u ∈ n.globalClientList)
    (loose : (n.client u).status.kind = .loose) : u ≠ n.me := by
  rintro rfl
  rw [(fit.tree.status_me_iff listed).2 rfl] at loose
  cases loose

theorem Sane.placeLocal (sane : n.Sane) (inside : u ∈ n.clients)
    (loose : (n.client u).status.kind = .loose) (mine : (n.client u).myConnect = true)
    (cptr : ClientId) (username : CStr) : (n.placeUser cptr u username n.meName).Sane := by
  have listed := sane.tree.ok.listed u inside
  have notMe := sane.loose_of_unknown listed loose
  have top := sane.tree.hashFindServer_me
  have named : n.nameOf u ≠ [] := by
    refine (sane.plain u inside ?_ ?_).1 <;>
    · intro status
      rw [status] at loose
      cases loose
  refine Lands.sane (lands_placeUser sane.toFit inside loose named ?_ (fun _ => top) ?_ username)
    sane ((Aside.refl n).beside u)
  · intro p found
    rw [top, Option.some.injEq] at found
    rw [← found]
    exact Nat.lt_of_le_of_ne (sane.tree.ok.root_le u listed) (Ne.symm notMe)
  · intro remote
    rw [mine] at remote
    cases remote

theorem Sane.addHistory (sane : n.Sane) (u : ClientId) (online : Option ClientId) :
    (n.edit (·.addHistory u online)).Sane := by
  have graph : SameGraph n (n.edit (·.addHistory u online)) := by
    constructor <;> first | rfl | exact fun _ => rfl | exact fun _ => id
  have keeps : n.toTables.Keeps (n.toTables.addHistory u online) :=
    .directory rfl rfl rfl rfl (fun sound => sound.outside) fun sound => sound.proper
  exact sane.remains (graph.tree sane.tree) ⟨fun _ => id, fun _ _ => Iff.rfl, fun _ _ => rfl,
    fun _ => rfl, rfl, keeps.sound, fun _ _ _ => rfl⟩

theorem Aside.replyLine (n : Network) (u : ClientId) (number : CStr) (args : List CStr)
    (text : CStr) : Aside n (n.replyLine u number args text) := .sendLine ..

theorem Sane.doUserLocal (sane : n.Sane) (listed : u ∈ n.globalClientList) (notMe : u ≠ n.me)
    (mine : (n.client u).myConnect = true) (username host server realname : CStr)
    (terms : UserTerms) : (n.doUser cptr u username host server realname terms).Sane := by
  unfold doUser
  simp only [mine, Bool.not_true, Bool.false_eq_true, if_false]
  split
  · exact sane.aside (.replyLine ..)
  · next unknown =>
    have info : Aside n (n.setPeer u { n.peer u with info := strncpyIrc realname realLen }) :=
      .setPeer rfl rfl rfl
    have sane' := sane.aside info
    have same : (n.setPeer u { n.peer u with info := strncpyIrc realname realLen }).toServer =
      n.toServer := rfl
    have listed' := info.graph.globalClientList.symm ▸ listed
    generalize n.setPeer u { n.peer u with info := strncpyIrc realname realLen } = m at *
    rw [← same] at mine unknown notMe
    have unknown : (m.client u).status = .unknown := not_not.1 unknown
    split
    · next named =>
      unfold registerUser
      simp only [mine, if_true]
      cases terms.outcome with
      | refused => exact sane'.exit listed' notMe ..
      | held => exact sane'
      | accepted =>
        exact sane'.placeLocal (sane'.called u listed' unknown named) (by simp [unknown, Status.kind])
          mine _ terms.username
    · exact sane'.write listed' notMe (by constructor <;> rfl) rfl rfl

structure Incoming (n n' : Network) (cptr u : ClientId) : Prop where
  beside : Beside n n' u
  fit : n'.Fit
  inside : u ∈ n'.clients
  status : (n'.client u).status = .unknown
  from_ : (n'.client u).from_ = cptr
  remote : (n'.client u).myConnect = false
  newest : ∀ v ∈ n'.globalClientList, v ≤ u

namespace Incoming

variable {m : Network} (h : Incoming n m cptr u)
include h

theorem aside (aside : Aside m n') : Incoming n n' cptr u where
  beside := h.beside.trans (aside.beside u)
  fit := h.fit.aside aside
  inside := by rw [aside.tables]; exact h.inside
  status := by rw [aside.tables]; exact h.status
  from_ := by rw [aside.tables]; exact h.from_
  remote := by rw [aside.tables]; exact h.remote
  newest v inside := h.newest v (aside.graph.globalClientList ▸ inside)

theorem write (cl : Client) (same : SamePlace (m.client u) cl) (name : cl.name = m.nameOf u)
    (status : cl.status = .unknown) : Incoming n (m.edit (·.setClient u cl)) cptr u := by
  have notMe : u ≠ m.me := h.fit.loose_of_unknown (h.fit.tree.ok.listed u h.inside)
    (by simp [h.status, Status.kind])
  constructor
  case beside => exact h.beside.trans (beside_setClient m u cl)
  case fit => exact fit_setClient h.fit notMe same (fun _ => name)
  case inside => exact h.inside
  case newest => exact h.newest
  all_goals rw [client_setClient]
  case status => exact status
  case from_ => exact same.from_.trans h.from_
  case remote =>
    have remote := h.remote
    rw [Client.myConnect] at remote ⊢
    exact same.localFlag.trans remote

theorem setPeer {q : Peer} (servptr : q.servptr = (m.peer u).servptr)
    (serv : q.serv = (m.peer u).serv) (nicksent : q.nicksent = (m.peer u).nicksent) :
    Incoming n (m.setPeer u q) cptr u := h.aside (.setPeer servptr serv nicksent)

theorem registerUser (sane : n.Sane) (server : (m.client cptr).isServer = true)
    (username serverName : CStr) (terms : UserTerms) :
    (m.registerUser cptr u username serverName terms).Sane := by
  unfold Network.registerUser
  simp only [h.remote, Bool.false_eq_true, if_false]
  have loose : (m.client u).status.kind = .loose := by simp [h.status, Status.kind]
  have named : m.nameOf u ≠ [] :=
    (h.fit.plain u h.inside (by simp [h.status]) (by simp [h.status])).1
  refine Lands.sane (lands_placeUser h.fit h.inside loose named ?_ ?_ ?_ username) sane h.beside
  · intro p found
    obtain ⟨-, hub⟩ := h.fit.hub_of_hashFindServer found
    refine Nat.lt_of_le_of_ne (h.newest p hub.1) ?_
    rintro rfl
    rcases hub.2 with kind | kind <;>
    · rw [show m.forest.kind p = .loose from loose] at kind
      cases kind
  · intro mine
    rw [h.remote] at mine
    cases mine
  · exact fun _ => ⟨server, h.from_⟩

theorem doUser (sane : n.Sane) (server : (m.client cptr).isServer = true)
    (username host serverName realname : CStr) (terms : UserTerms) :
    (m.doUser cptr u username host serverName realname terms).Sane := by
  have written := h.write { m.client u with host := strncpyIrc host hostLen }
    (by constructor <;> rfl) rfl h.status
  have link : cptr ≠ u := by
    rintro rfl
    simp [isServer_iff, h.status] at server
  unfold Network.doUser
  simp only [h.remote, Bool.not_false, if_true]
  apply Incoming.registerUser (written.setPeer _ _ _) sane
  · simpa [Network.setPeer, edit, Tables.setClient, link] using server
  all_goals rfl

end Incoming

theorem incoming_makeClient (sane : n.Sane) {nick : CStr} (known : cptr ∈ n.globalClientList)
    (free : n.forest.Free n.nextClient (nameKey nick)) (plain : IsNick nick) :
    Incoming n ((n.makeClient (some cptr)).setNick n.nextClient nick) cptr n.nextClient := by
  have notMe := sane.tree.me_ne_nextClient
  have made := fit_makeClient sane.toFit (some cptr) fun link same =>
    Option.some.inj same ▸ known
  have free' : (n.makeClient (some cptr)).forest.Free n.nextClient (nameKey nick) := by
    rw [forest_makeClient]
    intro v inside other
    simpa [Forest.enter, show v ≠ n.forest.next from other] using free v inside other
  constructor
  case beside => exact (beside_makeClient n (some cptr)).trans (beside_setNick _ _ nick)
  case fit => exact fit_setNick made List.mem_cons_self notMe free' plain
  case inside => exact List.mem_cons_self
  case newest =>
    intro v inside
    rcases List.mem_cons.1 inside with rfl | old
    · exact Nat.le_refl _
    · exact Nat.le_of_lt (sane.tree.ok.below v old)
  all_goals simp [setNick, makeClient, Tables.setClient, Client.zero, Client.myConnect]

theorem Sane.introduceNick (sane : n.Sane) {nick : CStr} (known : cptr ∈ n.globalClientList)
    (server : (n.client cptr).isServer = true) (free : n.forest.Free n.nextClient (nameKey nick))
    (plain : IsNick nick) (parv : List CStr) (newts : Int) (terms : UserTerms) :
    (n.introduceNick cptr parv newts nick terms).Sane := by
  have incoming := incoming_makeClient sane known free plain
  have other : cptr ≠ n.nextClient := fun same => sane.tree.fresh (same ▸ known)
  unfold Network.introduceNick
  simp only
  generalize (n.makeClient (some cptr)).setNick n.nextClient nick = m at *
  have server' : (m.client cptr).isServer = true := by
    rw [isServer_iff, incoming.beside.status other]
    exact (isServer_iff _).1 server
  generalize (parv.getD 4 []).tail.foldl nickLetter (m.count, .none) = given
  have counted : Aside m (m.setCount given.1) := .counters m m.operCptrList m.localCptrList given.1
  have incoming' := incoming.aside counted
  have same : (m.setCount given.1).client = m.client := rfl
  generalize m.setCount given.1 = m₁ at *
  apply Incoming.doUser (incoming'.setPeer _ _ _) sane
  · change (m₁.client cptr).isServer = true
    rwa [same]
  all_goals rfl

theorem placeUser_local (loose : (n.client u).status.kind = .loose)
    (mine : (n.client u).myConnect = true) {server : CStr} (known : n.hashFindServer server = some p)
    (username : CStr) : n.placeUser cptr u username server =
      ((n.setRegistered u username server).seatUser u p).introduceUser cptr u := by
  have seated : (((n.setRegistered u username server).seatUser u p).client u).myConnect = true := by
    rw [Client.myConnect] at mine ⊢
    rwa [(joins_seatUser n username server).localFlag]
  unfold placeUser
  simp only
  rw [hashFindServer_setRegistered n loose, known]
  simp only [seated, Bool.not_true, Bool.false_eq_true, false_and, if_false]

theorem introduceUser_table (n : Network) (cs : List ClientId) (username server : CStr) :
    (((n.edit fun t => { t with clients := cs }).setRegistered u username server).seatUser u
        p).introduceUser cptr u =
      (((n.setRegistered u username server).seatUser u p).introduceUser cptr u).edit
        fun t => { t with clients := cs } := by
  -- none of the three steps reads the hash table
  have hang : ∀ m : Network, (m.edit fun t => { t with clients := cs }).addToLlist u p =
      (m.addToLlist u p).edit fun t => { t with clients := cs } := by
    intro m
    unfold addToLlist
    dsimp only [edit, Server.edit]
    cases (m.peer p).serv with
    | none => rfl
    | some sv =>
      by_cases server : (m.client u).isServer = true
      · simp only [server, if_true]
        rfl
      · simp only [server, Bool.false_eq_true, if_false]
        rfl
  have seat : ∀ m : Network, (m.edit fun t => { t with clients := cs }).seatUser u p =
      (m.seatUser u p).edit fun t => { t with clients := cs } := fun m =>
    congrArg (edit · fun t => { t with countTotal := t.countTotal + 1 })
      (hang (m.setPeer u { m.peer u with servptr := some p }))
  have tell : ∀ m : Network, (m.edit fun t => { t with clients := cs }).introduceUser cptr u =
      (m.introduceUser cptr u).edit fun t => { t with clients := cs } := by
    intro m
    have join : (m.edit fun t => { t with clients := cs }).joinLocal u =
        (m.joinLocal u).edit fun t => { t with clients := cs } := by
      have same : (m.edit fun t => { t with clients := cs }).localCptrList = m.localCptrList := rfl
      unfold joinLocal
      rw [same]
      cases m.localCptrList <;> rfl
    unfold introduceUser
    by_cases mine : (m.client u).myConnect = true
    · have mine' : ((m.edit fun t => { t with clients := cs }).client u).myConnect = true := mine
      simp only [mine, mine', if_true, join]
      rfl
    · have mine' : ¬ ((m.edit fun t => { t with clients := cs }).client u).myConnect = true := mine
      simp only [mine, mine']
      rfl
  have register : (n.edit fun t => { t with clients := cs }).setRegistered u username server =
      (n.setRegistered u username server).edit fun t => { t with clients := cs } := by
    unfold setRegistered
    dsimp only [edit, Server.edit]
    split <;> rfl
  rw [register, seat, tell]

theorem setNick_of_named (n : Network) (u : ClientId) :
    n.setNick u (n.nameOf u) =
      n.edit fun t => { t with clients := u :: n.clients.erase u } := by
  have self : Function.update n.client u { n.client u with name := n.nameOf u } = n.client :=
    Function.update_eq_self u n.client
  unfold setNick Tables.setClient
  dsimp only [edit, Server.edit]
  rw [self]

theorem setNick_named (n : Network) (u : ClientId) (nick : CStr) :
    (n.edit (·.setClient u { n.client u with name := nick })).edit
      (fun t => { t with clients := u :: n.clients.erase u }) = n.setNick u nick := rfl

section

variable (sane : n.Sane) (listed : u ∈ n.globalClientList) (notMe : u ≠ n.me) {nick : CStr}
include sane listed notMe

/-- A connection that has sent USER takes its first name, and is registered before the name
is in the table. -/
theorem Sane.nameMade (mine : (n.client u).myConnect = true)
    (loose : (n.client u).status.kind = .loose) (outside : u ∉ n.clients)
    (free : n.forest.Free u (nameKey nick)) (plain : IsNick nick) (username : CStr)
    (terms : UserTerms) :
    let m := n.edit (·.setClient u { n.client u with name := nick })
    let m' := m.registerUser cptr u username m.meName terms
    (if terms.outcome = .refused then m' else m'.setNick u nick).Sane := by
  have same : SamePlace (n.client u) { n.client u with name := nick } := by constructor <;> rfl
  have fit := fit_setClient sane.toFit notMe same
    fun inside => absurd inside outside
  have beside := beside_setClient n u { n.client u with name := nick }
  have client := client_setClient n u { n.client u with name := nick }
  have later := sane.setNick listed notMe free plain
  have loose' : ((n.setNick u nick).client u).status.kind = .loose := by
    simpa [Network.setNick, Tables.setClient] using loose
  have mine' : ((n.setNick u nick).client u).myConnect = true := by
    simpa [Network.setNick, Tables.setClient, Client.myConnect] using mine
  rw [← setNick_named] at later loose' mine'
  simp only
  have clients : (n.edit (·.setClient u { n.client u with name := nick })).clients = n.clients := rfl
  have nodes : (n.edit (·.setClient u { n.client u with name := nick })).globalClientList =
    n.globalClientList := rfl
  generalize n.edit (·.setClient u { n.client u with name := nick }) = m at *
  have mine₁ : (m.client u).myConnect = true := by
    rw [client]
    exact mine
  have loose₁ : (m.client u).status.kind = .loose := by
    rw [client]
    exact loose
  have named : m.nameOf u = nick := by rw [Tables.nameOf, client]
  unfold registerUser
  simp only [mine₁, if_true]
  cases terms.outcome with
  | refused =>
    refine sane.exit_beside beside fit (nodes ▸ listed) notMe (fun _ => ?_) ..
    rw [client]
    exact sane.settled u listed loose
  | held =>
    simp only [reduceCtorEq, if_false]
    rw [← named, setNick_of_named, clients]
    exact later
  | accepted =>
    simp only [reduceCtorEq, if_false]
    have top := fit.tree.hashFindServer_me
    rw [placeUser_local loose₁ mine₁ top]
    have whole := later.placeLocal List.mem_cons_self loose' mine' cptr terms.username
    have top' := later.tree.hashFindServer_me
    rw [placeUser_local loose' mine' top'] at whole
    change (((((m.edit fun t => { t with clients := u :: n.clients.erase u }).setRegistered u
      terms.username m.meName).seatUser u m.me).introduceUser cptr u).Sane) at whole
    rw [introduceUser_table] at whole
    have joins := joins_seatUser (p := m.me) m (u := u) terms.username m.meName
    generalize (m.setRegistered u terms.username m.meName).seatUser u m.me = m₁ at *
    have aside := aside_introduceUser m₁ cptr u
    generalize m₁.introduceUser cptr u = m₂ at *
    have named₂ : m₂.nameOf u = nick := by rw [aside.tables, joins.name, named]
    rw [← named₂, setNick_of_named, aside.tables, joins.clients, clients]
    exact whole

theorem Sane.firstNick (mine : (n.client u).myConnect = true)
    (loose : (n.client u).status.kind = .loose) (outside : u ∉ n.clients)
    (free : n.forest.Free u (nameKey nick)) (plain : IsNick nick) (terms : UserTerms) :
    (n.firstNick cptr u nick terms).Sane := by
  have stamped : Aside n (n.setPeer u { n.peer u with tsinfo := n.currentTime }) :=
    .setPeer rfl rfl rfl
  unfold Network.firstNick
  simp only
  rw [← stamped.graph.forest] at free
  have same : (n.setPeer u { n.peer u with tsinfo := n.currentTime }).toServer = n.toServer := rfl
  have nodes := stamped.graph.globalClientList
  have sane' := sane.aside stamped
  generalize n.setPeer u { n.peer u with tsinfo := n.currentTime } = m at *
  rw [← same] at mine loose outside notMe
  split
  · exact sane'.setNick (nodes ▸ listed) notMe free plain
  · exact sane'.nameMade (nodes ▸ listed) notMe mine loose outside free plain _ terms

theorem Sane.changeNick (free : n.forest.Free u (nameKey nick)) (plain : IsNick nick)
    (parv0 : CStr) (newts : Int) (terms : UserTerms) :
    (n.changeNick cptr u parv0 newts nick terms).Sane := by
  have stamped : Aside n (if irccmp parv0 nick = .eq then n else n.setPeer u { n.peer u with
      tsinfo := if newts = 0 then n.currentTime else newts }) := by
    split
    · exact .refl n
    · exact .setPeer rfl rfl rfl
  unfold Network.changeNick
  simp only
  rw [← stamped.graph.forest] at free
  replace sane := sane.aside stamped
  replace listed := stamped.graph.globalClientList.symm ▸ listed
  replace notMe := stamped.graph.me.symm ▸ notMe
  generalize (if irccmp parv0 nick = .eq then n else n.setPeer u { n.peer u with
      tsinfo := if newts = 0 then n.currentTime else newts }) = m at *
  split
  · exact sane.aside (.replyLine ..)
  · have told : Aside m (m.emit (.commonChannels u (':' :: parv0 ++ lit " NICK :" ++ nick))) :=
      .emit ..
    rw [← told.graph.forest] at free
    replace sane := sane.aside told
    replace listed := told.graph.globalClientList.symm ▸ listed
    replace notMe := told.graph.me.symm ▸ notMe
    generalize m.emit (.commonChannels u (':' :: parv0 ++ lit " NICK :" ++ nick)) = m₁ at *
    split
    · exact ((sane.addHistory u (some u)).aside (.emit _ _)).setNick listed notMe free plain
    · exact sane.setNick listed notMe free plain

end

/-- A message comes over a connection from a client that it leads to, and never from `me`. -/
structure ComesFrom (n : Network) (cptr sptr : ClientId) : Prop where
  connected : cptr ∈ n.globalClientList
  myConnect : (n.client cptr).localFlag = true
  here : sptr ∈ n.globalClientList
  behind : (n.client sptr).from_ = cptr
  notMe : sptr ≠ n.me

namespace ComesFrom

variable (comes : n.ComesFrom cptr sptr)
include comes

theorem aside (aside : Aside n n') : n'.ComesFrom cptr sptr where
  connected := aside.graph.globalClientList.symm ▸ comes.connected
  myConnect := by rw [aside.tables]; exact comes.myConnect
  here := aside.graph.globalClientList.symm ▸ comes.here
  behind := by rw [aside.tables]; exact comes.behind
  notMe := aside.graph.me.symm ▸ comes.notMe

theorem exited (gone : Exited n n' u) (link : cptr ≠ u ∧ ¬ n.forest.Below u cptr)
    (sender : sptr ≠ u ∧ ¬ n.forest.Below u sptr) : n'.ComesFrom cptr sptr := by
  have connected := (gone.mem_iff cptr).2 ⟨comes.connected, link⟩
  have here := (gone.mem_iff sptr).2 ⟨comes.here, sender⟩
  exact ⟨connected, by rw [gone.remains.localFlag connected, comes.myConnect], here,
    by rw [gone.from_, comes.behind], gone.me ▸ comes.notMe⟩

theorem link (sane : n.Sane) : (n.client cptr).from_ = cptr ∧ cptr ≠ n.me :=
  (sane.tree.mine cptr comes.connected).1 comes.myConnect

theorem itself (sane : n.Sane) (loose : (n.client sptr).status.kind = .loose) : sptr = cptr :=
  (sane.settled sptr comes.here loose).symm.trans comes.behind

theorem below (sane : n.Sane) (other : sptr ≠ cptr) : n.forest.Below cptr sptr := by
  have placed : n.forest.kind sptr ≠ .loose := fun loose => other (comes.itself sane loose)
  have via : n.forest.via sptr = cptr := comes.behind
  have below := sane.tree.ok.below_via comes.here placed comes.notMe (by rwa [via])
  rwa [via] at below

theorem server_of_ne (sane : n.Sane) (other : sptr ≠ cptr) : (n.client cptr).isServer = true := by
  obtain ⟨⟨-, kind⟩, -⟩ := (comes.below sane other).of_shape sane.tree.ok.toShape comes.here
  refine (isServer_iff _).2 (kind_eq_inner.1 (kind.resolve_left fun root => ?_))
  exact (comes.link sane).2 ((sane.tree.ok.root_iff cptr comes.connected).1 root)

theorem server (sane : n.Sane) (server : (n.client sptr).isServer = true) :
    (n.client cptr).isServer = true := by
  by_cases same : sptr = cptr
  · exact same ▸ server
  · exact comes.server_of_ne sane same

end ComesFrom

theorem Sane.nickkilldone (sane : n.Sane) (comes : n.ComesFrom cptr sptr) {nick : CStr}
    (plain : IsNick nick)
    (own : (n.client sptr).isServer = false → n.forest.Free sptr (nameKey nick))
    (fresh : (n.client sptr).isServer = true → n.forest.Free n.nextClient (nameKey nick))
    (parv : List CStr) (newts : Int) (terms : UserTerms) :
    (n.nickkilldone cptr sptr parv newts nick terms).Sane := by
  unfold Network.nickkilldone
  split
  · next server =>
    exact sane.introduceNick comes.connected (comes.server sane server) (fresh server) plain ..
  · next server =>
    have free := own (Bool.eq_false_of_not_eq_true server)
    split
    · exact sane.changeNick comes.here comes.notMe free plain ..
    · next nameless =>
      rw [not_not] at nameless
      have status : (n.client sptr).status ≠ .me := fun status =>
        comes.notMe ((sane.tree.status_me_iff comes.here).1 status)
      -- a user has a name, so this one is not registered
      have loose : (n.client sptr).status.kind = .loose := by
        cases role : (n.client sptr).status with
        | me => exact absurd role status
        | server => exact absurd ((isServer_iff _).2 role) server
        | client =>
          have user := (sane.tree.people sptr).2 ⟨comes.here, role⟩
          exact absurd nameless (sane.sound.person user).2
        | _ => rfl
      have outside : sptr ∉ n.clients := fun inside =>
        (sane.plain sptr inside status (fun role => server ((isServer_iff _).2 role))).1 nameless
      have mine : (n.client sptr).myConnect = true := comes.itself sane loose ▸ comes.myConnect
      exact sane.firstNick comes.here comes.notMe mine loose outside free plain terms

/-- Who has the name and is no server, which `find_server` would have found. -/
structure HasNick (n : Network) (nick : CStr) (acptr : ClientId) : Prop where
  found : n.findClient nick = some acptr
  listed : acptr ∈ n.globalClientList
  notMe : acptr ≠ n.me
  notServer : (n.client acptr).isServer = false

theorem Tree.hasNick (tree : n.Tree) {nick : CStr} {acptr : ClientId}
    (found : n.findClient nick = some acptr) (none : n.hashFindServer nick = none) :
    HasNick n nick acptr := by
  have inside : acptr ∈ n.clients := List.mem_of_find?_eq_some found
  have listed := tree.ok.listed acptr inside
  have name := List.find?_some found
  unfold Tables.hashFindServer at none
  split at none
  · cases none
  · next nobody =>
    have other := List.find?_eq_none.1 nobody acptr inside
    rw [name, Bool.and_true, Bool.or_eq_true, not_or, isServer_iff, beq_iff_eq] at other
    exact ⟨found, listed, fun top => other.2 ((tree.status_me_iff listed).2 top),
      Bool.eq_false_of_not_eq_true fun server => other.1 ((isServer_iff _).1 server)⟩

namespace HasNick

variable {nick : CStr} {acptr : ClientId} (h : HasNick n nick acptr)
include h

theorem aside (aside : Aside n n') : HasNick n' nick acptr where
  found := by rw [aside.tables]; exact h.found
  listed := aside.graph.globalClientList.symm ▸ h.listed
  notMe := aside.graph.me.symm ▸ h.notMe
  notServer := by rw [aside.tables]; exact h.notServer

variable (sane : n.Sane)
include sane

theorem exit (cptr from_ : ClientId) (killed : Bool) (comment : CStr) :
    Exited n (n.exitClient cptr acptr from_ killed comment) acptr :=
  exited_exitClient sane.tree h.listed h.notMe (fun _ => sane.settled) cptr from_ killed comment

theorem not_below (listed : v ∈ n.globalClientList) : ¬ n.forest.Below acptr v := by
  refine sane.tree.ok.not_below_of_bare (sane.tree.ok.bare_of_not_hub fun hub => ?_) listed
  rcases hub.2 with root | inner
  · exact h.notMe ((sane.tree.status_me_iff h.listed).1 (kind_eq_root.1 root))
  · have server := (isServer_iff _).2 (kind_eq_inner.1 inner)
    rw [h.notServer] at server
    cases server

theorem free (gone : Exited n n' acptr) (u : ClientId) : n'.forest.Free u (nameKey nick) := by
  intro v inside _ same
  have listed : v ∈ n'.globalClientList := gone.tree.ok.listed v inside
  have other := ((gone.mem_iff v).1 listed).2.1
  refine sane.tree.free_of_self h.found v ((gone.remains.clients v listed).1 inside) other ?_
  exact (gone.key v).symm.trans same

theorem comes (comes : n.ComesFrom cptr sptr) (other : acptr ≠ sptr)
    (gone : Exited n n' acptr) : n'.ComesFrom cptr sptr := by
  refine comes.exited gone ⟨?_, h.not_below sane comes.connected⟩
    ⟨Ne.symm other, h.not_below sane comes.here⟩
  -- a link with others behind it is a server
  rintro rfl
  exact h.not_below sane comes.here (comes.below sane (Ne.symm other))

theorem replace (comes : n.ComesFrom cptr sptr) (other : acptr ≠ sptr) (plain : IsNick nick)
    (gone : Exited n n' acptr) (parv : List CStr) (newts : Int) (terms : UserTerms) :
    (n'.nickkilldone cptr sptr parv newts nick terms).Sane :=
  (sane.remains gone.tree gone.remains).nickkilldone (h.comes sane comes other gone) plain
    (fun _ => h.free sane gone _) (fun _ => h.free sane gone _) parv newts terms

theorem exitBoth (comes : n.ComesFrom cptr sptr) (other : acptr ≠ sptr) (c c' f f' : ClientId)
    (killed killed' : Bool) (comment comment' : CStr) :
    ((n.exitClient c acptr f killed comment).exitClient c' sptr f' killed' comment').Sane := by
  have gone := h.exit sane c f killed comment
  have comes' := h.comes sane comes other gone
  exact (sane.remains gone.tree gone.remains).exit comes'.here comes'.notMe ..

theorem collide (comes : n.ComesFrom cptr sptr) (other : acptr ≠ sptr) (plain : IsNick nick)
    (parv : List CStr) (newts : Int) (fromTs : Bool) (terms : UserTerms) :
    (n.collide cptr sptr acptr parv newts fromTs nick terms).Sane := by
  unfold Network.collide
  simp only
  split
  · split
    · exact sane
    · exact sane.aside (.replyLine ..)
  · split
    · exact Sane.exit (sane.aside (.emit ..)) h.listed h.notMe ..
    · exact Sane.exit (sane.aside ((Aside.replyLine ..).trans (.emit ..))) h.listed h.notMe ..
  · exact Sane.exit (sane.aside (.emit ..)) comes.here comes.notMe ..
  · have told (x y : Output) (args : List CStr) (text : CStr) :
        Aside n (((n.replyLine acptr (lit "436") args text).emit x).emit y) :=
      ((Aside.replyLine ..).trans (.emit ..)).trans (.emit ..)
    exact (h.aside (told ..)).exitBoth (sane.aside (told ..)) (comes.aside (told ..)) other ..
  · split
    · exact h.replace sane comes other plain (h.exit sane ..) ..
    · have told (x : Output) (args : List CStr) (text : CStr) :
          Aside n ((n.replyLine acptr (lit "436") args text).emit x) := (Aside.replyLine ..).trans (.emit ..)
      exact (h.aside (told ..)).replace (sane.aside (told ..)) (comes.aside (told ..)) other plain
        ((h.aside (told ..)).exit (sane.aside (told ..)) ..) ..

end HasNick

theorem Sane.takeNick (sane : n.Sane) (comes : n.ComesFrom cptr sptr) {nick : CStr}
    (plain : IsNick nick) (parv : List CStr) (newts : Int) (fromTs : Bool) (terms : UserTerms) :
    (n.takeNick cptr sptr parv newts fromTs nick terms).Sane := by
  unfold Network.takeNick
  split
  · split
    · exact sane.aside (.replyLine ..)
    · exact Sane.exit (sane.aside (.sendLine ..)) comes.here comes.notMe ..
  · next nobody =>
    split
    · next none =>
      exact sane.nickkilldone comes plain (fun _ => free_of_none none _)
        (fun _ => free_of_none none _) ..
    · next acptr found =>
      have has := sane.tree.hasNick found nobody
      split
      · next same =>
        subst same
        split
        · refine sane.nickkilldone comes plain (fun _ => sane.tree.free_of_self found)
            (fun server => ?_) ..
          -- a server of that name would have been found before
          rw [has.notServer] at server
          cases server
        · exact sane
      · next other => exact has.collide sane comes other plain ..

theorem Sane.badNick (sane : n.Sane) (comes : n.ComesFrom cptr sptr) (parv0 parv1 nick : CStr) :
    (n.badNick cptr sptr parv0 parv1 nick).Sane := by
  have told : Aside n (n.replyLine sptr (lit "432") [if parv0 = [] then ['*'] else parv0, parv1]
      (lit " :Erroneus Nickname")) := .replyLine ..
  unfold Network.badNick
  simp only
  replace sane := sane.aside told
  replace comes := comes.aside told
  generalize n.replyLine sptr (lit "432") [if parv0 = [] then ['*'] else parv0, parv1]
      (lit " :Erroneus Nickname") = m at *
  split
  · exact sane
  · split
    · exact sane.aside (.sendLine ..)
    · exact Sane.exit (sane.aside ((Aside.sendLine ..).trans (.emit ..))) comes.here comes.notMe ..

theorem isNick_cleanNickName {text : CStr} (given : ClientNames.cleanNickName text ≠ []) :
    IsNick (ClientNames.cleanNickName text) := by
  refine ⟨given, fun c inside => ?_⟩
  unfold ClientNames.cleanNickName at inside
  split at inside
  · cases inside
  · split at inside
    · cases inside
    · exact List.mem_takeWhile_imp inside

theorem Sane.mNick (sane : n.Sane) (comes : n.ComesFrom cptr sptr) (parv : List CStr)
    (terms : UserTerms) : (n.mNick cptr sptr parv terms).Sane := by
  unfold Network.mNick
  simp only
  generalize (if (n.client sptr).myConnect = true then (parv.getD 1 []).takeWhile (· ≠ '~')
    else parv.getD 1 []) = parv1
  split
  · exact sane.aside (.replyLine ..)
  · split
    · exact sane
    · split
      · exact sane
      · split
        · exact sane.badNick comes ..
        · next clean =>
          rw [not_or] at clean
          split
          · exact sane.aside (.replyLine ..)
          · exact sane.takeNick comes (isNick_cleanNickName clean.1) ..

theorem Sane.mUser (sane : n.Sane) (listed : u ∈ n.globalClientList) (notMe : u ≠ n.me)
    (mine : (n.client u).myConnect = true) (parv : List CStr) (terms : UserTerms) :
    (n.mUser cptr u parv terms).Sane := by
  have go : ∀ m : Network, Aside n m → ∀ (over_ : Prop) [Decidable over_] (a b c d : CStr),
      (if over_ then m else m.doUser cptr u a b c d terms).Sane := by
    intro m told over_ _ a b c d
    split
    · exact sane.aside told
    · refine (sane.aside told).doUserLocal ?_ ?_ ?_ ..
      · rwa [told.graph.globalClientList]
      · rwa [told.graph.me]
      · rwa [told.tables]
  unfold Network.mUser
  simp only
  generalize (if 2 < parv.length then (parv.getD 1 []).takeWhile (· ≠ '@')
    else parv.getD 1 []) = username
  refine go _ ?_ ..
  split
  · exact .replyLine ..
  · exact .refl n

end Network

end Ircd
