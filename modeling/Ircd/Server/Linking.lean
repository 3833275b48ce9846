import Ircd.Server.Registration

/-! SERVER keeps the network sane, and so do the connections to other servers. -/

set_option autoImplicit false

namespace Ircd

namespace Network

variable {n n' : Network} {u v p cptr sptr : ClientId} {name : CStr}

structure Linked (n n' : Network) (u p : ClientId) (name : CStr) : Prop where
  beside : Beside n n' u
  forest : n'.forest = (n.forest.label u (nameKey name)).hang u .inner p
  nodes : n'.globalClientList = n.globalClientList
  client : n'.client u = { n.client u with name := name, status := .server }
  serv : (n'.peer u).serv.isSome = true
  links : n'.servCptrList =
    if (n.client u).localFlag = true then u :: n.servCptrList else n.servCptrList
  nicksent : (n'.peer u).nicksent = (n.peer u).nicksent
  sound : n'.toTables.Sound

theorem Linked.fit (h : Linked n n' u p name) (fit : n.Fit) (listed : u ∈ n.globalClientList)
    (loose : (n.client u).status.kind = .loose) (free : n.forest.Free u (nameKey name))
    (hub : n.forest.Hub p) (older : p < u)
    (via : (n.client u).from_ = if p = n.me then u else (n.client p).from_) : n'.Fit := by
  have notMe := fit.loose_of_unknown listed loose
  have ok := (fit.tree.ok.label listed free).hang List.mem_cons_self loose (.inl rfl) hub older via
  rw [← h.forest] at ok
  have nobody : (n.client u).user = false := by
    refine Bool.eq_false_of_not_eq_true fun user => ?_
    rw [((fit.tree.people u).1 user).2] at loose
    cases loose
  -- a connection is on the list of links only once it is a server
  have absent : u ∉ n.servCptrList := fun inside => by
    rw [((fit.tree.links u).1 inside).2.1] at loose
    cases loose
  have nodup : n'.servCptrList.Nodup := by
    rw [h.links]
    split
    · exact List.nodup_cons.2 ⟨absent, fit.tree.links_nodup⟩
    · exact fit.tree.links_nodup
  refine h.beside.fit fit notMe ok h.sound nodup ?_
  constructor
  case mine =>
    intro _
    rw [h.client, h.beside.me]
    exact fit.tree.mine u listed
  case serv => exact fun _ _ => h.serv
  case people => simp [h.client, nobody]
  case links =>
    rw [h.client, h.links, h.nodes]
    by_cases connected : (n.client u).localFlag = true
    · simp [connected, listed]
    · simp [connected, absent]
  case plain => exact fun _ _ server => by simp [h.client] at server
  case marks =>
    intro _
    rw [Marks, h.nicksent, h.beside.nickissent]
    exact fit.marks u listed

theorem forest_setServ_self (n : Network) (sv : Serv)
    (lists : ∀ k, llist (some sv) k = llist (n.peer u).serv k) : (n.setServ u sv).forest = n.forest := by
  rw [forest_setServ]
  refine Forest.ext rfl rfl rfl rfl rfl rfl rfl ?_ rfl
  funext k
  simp only [lists]
  exact Function.update_eq_self u (n.forest.kids k)

theorem forest_addClient (n : Network) {cl : Client} (outside : u ∉ n.clients)
    (notMe : (n.client u).status ≠ .me) (server : cl.status = .server)
    (from_ : cl.from_ = (n.client u).from_) :
    (n.edit (·.addClient u cl)).forest =
      { n.forest.label u (nameKey cl.name) with kind := Function.update n.forest.kind u .inner } := by
  have table : n.forest.table.erase u = n.clients := List.erase_of_not_mem outside
  refine Forest.ext rfl rfl rfl ?_ ?_ ?_ ?_ rfl ?_
  · exact congrArg (u :: ·) table.symm
  all_goals
    funext v
    by_cases here : v = u
    all_goals
      simp [forest, Forest.label, edit, Tables.addClient, Tables.nameOf, Status.kind, here, server,
        from_, notMe]

theorem beside_addClient (n : Network) (u : ClientId) (cl : Client) :
    Beside n (n.edit (·.addClient u cl)) u := by
  constructor
  case clients_iff =>
    intro v other
    exact ⟨fun inside => (List.mem_cons.1 inside).resolve_left other, List.mem_cons_of_mem _⟩
  case links_iff =>
    intro v other
    simp only [edit, Server.edit, Tables.addClient]
    split
    · exact ⟨fun inside => (List.mem_cons.1 inside).resolve_left other, List.mem_cons_of_mem _⟩
    · rfl
  case identity =>
    intro v other
    simp [edit, Tables.addClient, other]
  all_goals first | rfl | exact fun _ _ => rfl | exact fun _ _ => Iff.rfl | exact fun _ _ => id

theorem sound_addClient (fit : n.Fit) (cl : Client) (loose : (n.client u).status.kind = .loose)
    (same : cl.user = (n.client u).user ∧ cl.anOper = (n.client u).anOper ∧
      cl.channel = (n.client u).channel ∧ cl.joined = (n.client u).joined) :
    (n.toTables.addClient u cl).Sound := by
  obtain ⟨user, oper, channel, joined⟩ := same
  have nobody : (n.client u).user = false := by
    refine Bool.eq_false_of_not_eq_true fun user => ?_
    rw [((fit.tree.people u).1 user).2] at loose
    cases loose
  have noOper : (n.client u).anOper = false := by
    refine Bool.eq_false_of_not_eq_true fun oper => ?_
    have client := (fit.sound.proper u).oper oper
    have status : (n.client u).status = .client := by
      simpa [Client.isClient, Client.identity] using client
    rw [status] at loose
    cases loose
  refine sound_write fit.sound rfl ⟨rfl, rfl, rfl, rfl⟩ channel joined (fun _ => ?_) ?_
  · exact channel.trans (fit.sound.outside u nobody)
  · refine ⟨fun person => ?_, fun privileged => ?_⟩
    · change cl.user = true at person
      rw [user, nobody] at person
      cases person
    · change cl.anOper = true at privileged
      rw [oper, noOper] at privileged
      cases privileged

/-- The client is on the list of servers of `p`, and has its own block already or not. -/
structure Hung (n n' : Network) (u p : ClientId) (name : CStr) (cl : Client) : Prop where
  beside : Beside n n' u
  forest : n'.forest = (n.forest.label u (nameKey name)).hang u .inner p
  nodes : n'.globalClientList = n.globalClientList
  tables : n'.toTables = n.toTables.addClient u cl
  nicksent : (n'.peer u).nicksent = (n.peer u).nicksent

theorem addToLlist_globalClientList (n : Network) (u p : ClientId) :
    (n.addToLlist u p).globalClientList = n.globalClientList := by
  unfold addToLlist
  split
  · rfl
  · split <;> rfl

theorem hung_addClient (cl : Client) {q : Peer} (outside : u ∉ n.clients)
    (notMe : (n.client u).status ≠ .me) (server : cl.status = .server)
    (from_ : cl.from_ = (n.client u).from_) (other : p ≠ u)
    (serv : (n.peer p).serv.isSome = true) (servptr : q.servptr = some p)
    (lists : llist q.serv = llist (n.peer u).serv) (nicksent : q.nicksent = (n.peer u).nicksent) :
    Hung n (((n.edit (·.addClient u cl)).setPeer u q).addToLlist u p) u p cl.name cl := by
  have first := beside_addClient n u cl
  have table := forest_addClient n outside notMe server from_
  have status : ((n.edit (·.addClient u cl)).client u).status = .server := by
    simp [edit, Tables.addClient, server]
  have peer : (n.edit (·.addClient u cl)).peer = n.peer := rfl
  have tables : (n.edit (·.addClient u cl)).toTables = n.toTables.addClient u cl := rfl
  have nodes : (n.edit (·.addClient u cl)).globalClientList = n.globalClientList := rfl
  generalize n.edit (·.addClient u cl) = m at *
  have parent := forest_setServptr m (u := u) (q := q) (by simp [status]) servptr
    (by rw [lists, peer])
  have second := beside_setPeer m u q
  have status' : ((m.setPeer u q).client u).status.kind = .inner := kind_eq_inner.2 status
  have serv' : ((m.setPeer u q).peer p).serv.isSome = true := by
    simpa [setPeer, other, peer] using serv
  have kids := forest_addToLlist (m.setPeer u q) status' (.inl rfl) serv'
  have third := beside_addToLlist (m.setPeer u q) u p
  constructor
  case beside => exact (first.trans second).trans third
  case forest =>
    rw [kids, parent, table]
    rfl
  case nodes => exact (addToLlist_globalClientList ..).trans nodes
  case tables => rw [addToLlist_toServer, ← tables]; rfl
  case nicksent =>
    rw [(keepsPeer_addToLlist ..).nicksent]
    simpa [setPeer] using nicksent

theorem linkServer_eq (n : Network) (u : ClientId) (nline : Int) : n.linkServer u nline =
    let m := ((n.edit (·.addClient u { n.client u with status := .server })).setPeer u
      { n.peer u with servptr := some n.me }).addToLlist u n.me
    (m.makeServer u).setServ u
      { (m.peer u).serv.getD Serv.zero with up := m.meName, nline := some nline } := by
  have made (m : Network) : ((m.makeServer u).peer u).serv =
      some ((m.peer u).serv.getD Serv.zero) := by
    simp [makeServer, setServ, setPeer]
  unfold linkServer
  simp only
  -- the block has just been made
  split
  · next none => cases (made _).symm.trans none
  · next sv here =>
    cases Option.some.inj ((made _).symm.trans here)
    rfl

/-- The count of servers is not in the graph. -/
theorem Sane.countUp (sane : n.Sane) : n.countUp.Sane := by
  have graph : SameGraph n n.countUp := by
    constructor <;> first | rfl | exact fun _ => rfl | exact fun _ => id
  have keeps : n.toTables.Keeps n.countUp.toTables :=
    .directory rfl rfl rfl rfl (fun sound => sound.outside) fun sound => sound.proper
  exact ⟨⟨graph.tree sane.tree, sane.plain, keeps.sound sane.sound, sane.mark, sane.marks⟩,
    graph.settled sane.settled, sane.called⟩

theorem linked_linkServer (fit : n.Fit) (listed : u ∈ n.globalClientList)
    (loose : (n.client u).status.kind = .loose) (outside : u ∉ n.clients) (nline : Int) :
    Linked n (n.linkServer u nline) u n.me (n.nameOf u) := by
  have notMe : (n.client u).status ≠ .me := fun status => by
    rw [status] at loose
    cases loose
  have me : n.me ≠ u := Ne.symm (fit.loose_of_unknown listed loose)
  have top := fit.tree.serv n.me fit.tree.me_listed
    (.inl ((fit.tree.status_me_iff fit.tree.me_listed).2 rfl))
  have hung := hung_addClient { n.client u with status := .server }
    (q := { n.peer u with servptr := some n.me }) outside notMe rfl rfl me top rfl rfl rfl
  have sound := sound_addClient fit { n.client u with status := .server } loose
    ⟨rfl, rfl, rfl, rfl⟩
  rw [linkServer_eq]
  simp only
  -- the table entry comes first; the place in the graph is found from what it leaves
  generalize ((n.edit (·.addClient u { n.client u with status := .server })).setPeer u
    { n.peer u with servptr := some n.me }).addToLlist u n.me = m at hung
  have made : ((m.makeServer u).peer u).serv = some ((m.peer u).serv.getD Serv.zero) := by
    simp [makeServer, setServ, setPeer]
  have lists : ∀ k, llist (some ((m.peer u).serv.getD Serv.zero)) k = llist (m.peer u).serv k := by
    intro k
    cases (m.peer u).serv <;> cases k <;> rfl
  have block := forest_setServ_self m _ lists
  have block' := forest_setServ_self (m.makeServer u) (u := u)
    { (m.peer u).serv.getD Serv.zero with up := m.meName, nline := some nline } fun k => by
      rw [made]
      cases k <;> rfl
  constructor
  case beside =>
    have second := beside_setPeer m u { m.peer u with serv := some ((m.peer u).serv.getD Serv.zero) }
    exact (hung.beside.trans second).trans (beside_setPeer (m.makeServer u) u _)
  case forest => exact (block'.trans block).trans hung.forest
  case nodes => exact hung.nodes
  case client =>
    change m.client u = _
    rw [hung.tables]
    simp [Tables.addClient, Tables.nameOf]
  case serv => simp [setServ, setPeer]
  case links =>
    change m.servCptrList = _
    rw [hung.tables]
    simp [Tables.addClient, Client.isServer]
  case nicksent => simpa [setServ, setPeer, makeServer] using hung.nicksent
  case sound =>
    change m.toTables.Sound
    rw [hung.tables]
    exact sound

structure Marked (n n' : Network) : Prop where
  graph : SameGraph n n'
  toServer : n'.toServer = n.toServer
  nickissent : n'.nickissent = n.nickissent
  marks : ∀ v, (n'.peer v).nicksent = (n.peer v).nicksent ∨ (n'.peer v).nicksent = n.nickissent

theorem Marked.refl (n : Network) : Marked n n := ⟨.refl n, rfl, rfl, fun _ => .inl rfl⟩

theorem Marked.trans {n'' : Network} (h : Marked n n') (h' : Marked n' n'') : Marked n n'' where
  graph := h.graph.trans h'.graph
  toServer := h'.toServer.trans h.toServer
  nickissent := h'.nickissent.trans h.nickissent
  marks v := by
    rcases h'.marks v with old | new
    · rw [old]
      exact h.marks v
    · exact .inr (new.trans h.nickissent)

theorem marked_burstNick (cptr : ClientId) (st : Network × List BurstLine) (acptr : ClientId) :
    Marked st.1 (burstNick cptr st acptr).1 ∧
      ((burstNick cptr st acptr).1.peer acptr).nicksent = st.1.nickissent := by
  unfold burstNick
  simp only
  split
  · next sent => exact ⟨.refl st.1, sent⟩
  · refine ⟨⟨.setPeer rfl rfl id, rfl, rfl, fun v => ?_⟩, by simp [setPeer]⟩
    by_cases here : v = acptr
    · subst here
      exact .inr (by simp [setPeer])
    · exact .inl (by simp [setPeer, here])

theorem marked_burstNicks (cptr : ClientId) (st : Network × List BurstLine)
    (us : List ClientId) : Marked st.1 (us.foldl (burstNick cptr) st).1 ∧
      ∀ u ∈ us, ((us.foldl (burstNick cptr) st).1.peer u).nicksent = st.1.nickissent := by
  induction us generalizing st with
  | nil => exact ⟨.refl st.1, fun _ absurdity => absurd absurdity List.not_mem_nil⟩
  | cons u rest ih =>
    obtain ⟨first, mark⟩ := marked_burstNick cptr st u
    obtain ⟨later, marks⟩ := ih (burstNick cptr st u)
    refine ⟨first.trans later, fun v inside => ?_⟩
    rw [List.foldl_cons]
    rcases List.mem_cons.1 inside with rfl | old
    · rcases later.marks v with same | new
      · exact same.trans mark
      · exact new.trans first.nickissent
    · exact (marks v old).trans first.nickissent

theorem marked_burstChannels (cptr : ClientId) (st : Network × List BurstLine)
    (cs : List ChanId) : Marked st.1 (cs.foldl (burstChannel cptr) st).1 := by
  induction cs generalizing st with
  | nil => exact .refl st.1
  | cons c rest ih =>
    exact (marked_burstNicks cptr st (st.1.chan c).memberIds).1.trans (ih (burstChannel cptr st c))

theorem Tree.fromMe_eq (tree : n.Tree) : n.fromMe = n.globalClientList.reverse := by
  obtain ⟨rest, whole⟩ := tree.ok.root_last
  have whole : n.globalClientList = rest ++ [n.me] := whole
  rw [fromMe, whole, List.reverse_append]
  simp

theorem Fit.burst (fit : n.Fit) (cptr : ClientId) (nline : Int) :
    (n.burst cptr nline).1.Fit ∧ SameGraph n (n.burst cptr nline).1 ∧
      (n.burst cptr nline).1.toServer = n.toServer := by
  have turned : SameGraph n { n with nickissent := 3 - n.nickissent } := by
    constructor <;> first | rfl | exact fun _ => rfl | exact fun _ => id
  have mark : 3 - n.nickissent = 1 ∨ 3 - n.nickissent = 2 := by
    rcases fit.mark with one | two <;> omega
  have channels := marked_burstChannels cptr
    ({ n with nickissent := 3 - n.nickissent }, n.burstServers cptr nline) n.channel
  unfold Network.burst
  simp only at channels ⊢
  generalize n.channel.foldl (burstChannel cptr)
    ({ n with nickissent := 3 - n.nickissent }, n.burstServers cptr nline) = st at channels ⊢
  obtain ⟨rest, marks⟩ := marked_burstNicks cptr st st.1.fromMe
  generalize (st.1.fromMe.foldl (burstNick cptr) st).1 = m at rest marks ⊢
  have graph := (turned.trans channels.graph).trans rest.graph
  have server : m.toServer = n.toServer := rest.toServer.trans channels.toServer
  have issent : m.nickissent = 3 - n.nickissent := rest.nickissent.trans channels.nickissent
  refine ⟨⟨graph.tree fit.tree, ?_, ?_, ?_, fun u listed => ?_⟩, graph, server⟩
  · rw [PlainNames, server]
    exact fit.plain
  · rw [server]
    exact fit.sound
  · rwa [issent]
  · have tree := (turned.trans channels.graph).tree fit.tree
    have inside : u ∈ st.1.fromMe := by
      rw [tree.fromMe_eq, List.mem_reverse, ← rest.graph.globalClientList]
      exact listed
    exact .inr ((marks u inside).trans rest.nickissent.symm)

theorem Sane.burst (sane : n.Sane) (cptr : ClientId) (nline : Int) : (n.burst cptr nline).1.Sane := by
  obtain ⟨fit, graph, server⟩ := sane.toFit.burst cptr nline
  refine ⟨fit, graph.settled sane.settled, fun u => ?_⟩
  rw [graph.globalClientList, server]
  exact sane.called u

theorem aside_announceLink (cptr : ClientId) (us : List ClientId) (n : Network) :
    Aside n (announceLink cptr us n) := by
  induction us generalizing n with
  | nil => exact .refl n
  | cons acptr rest ih =>
    have go (hidden : Prop) [Decidable hidden] (text : CStr) :
        Aside n (if hidden then announceLink cptr rest n
          else announceLink cptr rest (n.sendLine acptr text)) := by
      split
      · exact ih n
      · exact (Aside.sendLine ..).trans (ih _)
    exact go _ _

theorem aside_sendBurst (cptr : ClientId) (lines : List BurstLine) (n : Network) :
    Aside n (n.sendBurst cptr lines) := by
  unfold sendBurst
  induction lines generalizing n with
  | nil => exact .refl n
  | cons line rest ih => exact (Aside.sendLine n cptr line.text).trans (ih _)

theorem aside_answer (n : Network) (cptr : ClientId) (nConf : NConf) (cConf : CConf) :
    Aside n (if (n.client cptr).status = .unknown then n.answerServer cptr nConf cConf else n) := by
  unfold answerServer
  simp only
  split
  · split
    · exact .sendLine ..
    · exact (Aside.sendLine ..).trans (.sendLine ..)
  · exact .refl n

/-- A connection on the way through `m_server`, with a name that nobody has. -/
structure Asking (n n' : Network) (u : ClientId) : Prop where
  beside : Beside n n' u
  fit : n'.Fit
  listed : u ∈ n'.globalClientList
  mine : (n'.client u).localFlag = true
  loose : (n'.client u).status.kind = .loose
  outside : u ∉ n'.clients
  free : n'.forest.Free u (nameKey (n'.nameOf u))

namespace Asking

variable {m : Network} (h : Asking n m u)
include h

theorem aside (aside : Aside m n') : Asking n n' u where
  beside := h.beside.trans (aside.beside u)
  fit := h.fit.aside aside
  listed := aside.graph.globalClientList.symm ▸ h.listed
  mine := by rw [aside.tables]; exact h.mine
  loose := by rw [aside.tables]; exact h.loose
  outside := by rw [aside.tables]; exact h.outside
  free := by rw [aside.graph.forest, aside.tables]; exact h.free

theorem notMe : u ≠ n.me := h.beside.me ▸ h.fit.loose_of_unknown h.listed h.loose

variable (sane : n.Sane)
include sane

theorem exit (cptr from_ : ClientId) (killed : Bool) (comment : CStr) :
    (m.exitClient cptr u from_ killed comment).Sane :=
  sane.exit_beside h.beside h.fit h.listed h.notMe
    (fun _ => ((h.fit.tree.mine u h.listed).1 h.mine).1) cptr from_ killed comment

omit sane in
theorem linked (nline : Int) :
    Linked m (m.linkServer u nline) u m.me (m.nameOf u) ∧ (m.linkServer u nline).Fit := by
  have linked := linked_linkServer h.fit h.listed h.loose h.outside nline
  have notMe := h.fit.loose_of_unknown h.listed h.loose
  have itself := ((h.fit.tree.mine u h.listed).1 h.mine).1
  exact ⟨linked, linked.fit h.fit h.listed h.loose h.free h.fit.tree.ok.root_hub
    (Nat.lt_of_le_of_ne (h.fit.tree.ok.root_le u h.listed) (Ne.symm notMe))
    (by rw [if_pos rfl]; exact itself)⟩

theorem establish (nline : Int) : (m.establish u nline).Sane := by
  have asked := h.aside (.sendLine m u (lit "SVINFO 5 3 0 :" ++ formatTime m.currentTime))
  unfold Network.establish
  simp only
  generalize m.sendLine u (lit "SVINFO 5 3 0 :" ++ formatTime m.currentTime) = m₁ at asked ⊢
  obtain ⟨linked, fit⟩ := asked.linked nline
  have status : ((m₁.linkServer u nline).client u).status = .server := by rw [linked.client]
  have sane' : (m₁.linkServer u nline).Sane := by
    refine (asked.beside.trans linked.beside).sane sane fit (fun _ loose => ?_) (fun _ unknown => ?_)
    · rw [status] at loose
      cases loose
    · rw [status] at unknown
      cases unknown
  replace sane' := sane'.countUp
  generalize (m₁.linkServer u nline).countUp = m₂ at sane'
  have told := (sane'.aside (aside_announceLink u m₂.servCptrList m₂)).burst u nline
  generalize (announceLink u m₂.servCptrList m₂).burst u nline = st at told
  exact told.aside ((aside_sendBurst u st.2 st.1).trans (.sendLine ..))

theorem serverEstab (adm : Admission) : (m.serverEstab u adm).Sane := by
  unfold Network.serverEstab
  split
  · exact h.exit sane ..
  · exact h.exit sane ..
  · next nConf cConf _ _ =>
    split
    · exact h.exit sane ..
    · split
      · exact (h.aside (.sendLine ..)).exit sane ..
      · split
        · exact (h.aside (.sendLine ..)).exit sane ..
        · simp only
          split
          · exact (h.aside (aside_answer m u nConf cConf)).exit sane ..
          · exact (h.aside (aside_answer m u nConf cConf)).establish sane _

end Asking

theorem Sane.asking (sane : n.Sane) (listed : u ∈ n.globalClientList)
    (mine : (n.client u).localFlag = true) (loose : (n.client u).status.kind = .loose)
    (outside : u ∉ n.clients) {host : CStr} (free : n.findClient host = none) :
    Asking n (n.edit (·.setClient u { n.client u with name := host })) u := by
  have notMe := sane.loose_of_unknown listed loose
  have client := client_setClient n u { n.client u with name := host }
  have beside := beside_setClient n u { n.client u with name := host }
  refine ⟨beside, ?_, listed, ?_, ?_, outside, fun v inside other => ?_⟩
  · exact fit_setClient sane.toFit notMe (by constructor <;> rfl)
      fun inside => absurd inside outside
  · rw [client]
    exact mine
  · rw [client]
    exact loose
  · rw [Tables.nameOf, client]
    change nameKey (Tables.nameOf _ v) ≠ nameKey host
    rw [beside.nameOf other]
    exact free_of_none free u v inside other

theorem Sane.becomeServer (sane : n.Sane) (listed : u ∈ n.globalClientList)
    (mine : (n.client u).localFlag = true) (outside : u ∉ n.clients) {host : CStr}
    (short : host.length ≤ hostLen) (free : n.findClient host = none) (info : CStr) (hop : Int)
    (adm : Admission) : (n.becomeServer u host info hop adm).Sane := by
  have whole : strncpyIrc host hostLen = host := List.take_of_length_le short
  unfold Network.becomeServer
  split
  · exact sane
  · next status =>
    have status : (n.client u).status = .unknown ∨ (n.client u).status = .handshake := by
      rw [not_and_or, not_not, not_not] at status
      exact status
    have loose : (n.client u).status.kind = .loose := by
      rcases status with status | status <;> simp [status, Status.kind]
    have notMe := sane.loose_of_unknown listed loose
    split
    · exact sane.exit listed notMe ..
    · simp only
      have asking := sane.asking listed mine loose outside free
      rw [whole]
      split
      · refine Asking.serverEstab (n := n) ?_ sane adm
        exact asking.aside (.setPeer rfl rfl rfl)
      · refine Asking.exit (n := n) ?_ sane ..
        exact asking.aside (.setPeer rfl rfl rfl)

theorem linked_addRemoteServer (fit : n.Fit) (known : cptr ∈ n.globalClientList)
    (hub : n.forest.Hub sptr) {host : CStr} (short : host.length ≤ hostLen) (parv0 info : CStr)
    (hop : Int) : Linked (n.makeClient (some cptr)) (n.addRemoteServer cptr sptr parv0 host info hop)
      n.nextClient sptr host := by
  have made := fit_makeClient fit (some cptr) fun link same => Option.some.inj same ▸ known
  have outside : n.nextClient ∉ n.clients := fun inside =>
    fit.tree.fresh (fit.tree.ok.listed _ inside)
  have other : sptr ≠ n.nextClient := fun same => fit.tree.fresh (same ▸ hub.1)
  have serv : (n.peer sptr).serv.isSome = true :=
    fit.tree.serv sptr hub.1 (hub.2.imp kind_eq_root.1 kind_eq_inner.1)
  have whole : strncpyIrc host hostLen = host := List.take_of_length_le short
  unfold addRemoteServer
  simp only
  have block : ((n.makeClient (some cptr)).peer n.nextClient).serv = none := by
    simp [makeClient, Peer.zero]
  have status : ((n.makeClient (some cptr)).client n.nextClient).status = .unknown := by
    simp [makeClient, Tables.setClient, Client.zero]
  have remote : ((n.makeClient (some cptr)).client n.nextClient).localFlag = false := by
    simp [makeClient, Tables.setClient]
  have serv' : ((n.makeClient (some cptr)).peer sptr).serv.isSome = true := by
    simpa [makeClient, other] using serv
  have table : n.nextClient ∉ (n.makeClient (some cptr)).clients := outside
  generalize n.nextClient = u at *
  generalize n.makeClient (some cptr) = m at *
  -- both writes to the block of the new client go to one place
  have once : (m.makeServer u).setPeer u { (m.makeServer u).peer u with
      hopcount := hop
      info := strncpyIrc info realLen
      serv := ((m.makeServer u).peer u).serv.map fun sv => { sv with up := parv0 }
      servptr := some sptr } = m.setPeer u { m.peer u with
        hopcount := hop
        info := strncpyIrc info realLen
        serv := some { Serv.zero with up := parv0 }
        servptr := some sptr } := by
    simp [makeServer, setServ, setPeer, block]
  rw [once]
  have hung := hung_addClient (n := m) (u := u) (p := sptr)
    { m.client u with name := strncpyIrc host hostLen, status := .server }
    (q := { m.peer u with
      hopcount := hop
      info := strncpyIrc info realLen
      serv := some { Serv.zero with up := parv0 }
      servptr := some sptr })
    table (by simp [status]) rfl rfl other serv' rfl
    (by funext k; rw [block]; cases k <;> rfl) rfl
  have sound := sound_addClient (u := u) made
    { m.client u with name := strncpyIrc host hostLen, status := .server }
    (by simp [status, Status.kind]) ⟨rfl, rfl, rfl, rfl⟩
  change Linked m (((m.edit (·.addClient u { m.client u with
    name := strncpyIrc host hostLen, status := .server })).setPeer u { m.peer u with
      hopcount := hop
      info := strncpyIrc info realLen
      serv := some { Serv.zero with up := parv0 }
      servptr := some sptr }).addToLlist u sptr) u sptr host
  have block' : ((((m.edit (·.addClient u { m.client u with
      name := strncpyIrc host hostLen, status := .server })).setPeer u { m.peer u with
      hopcount := hop
      info := strncpyIrc info realLen
      serv := some { Serv.zero with up := parv0 }
      servptr := some sptr }).addToLlist u sptr).peer u).serv.isSome = true := by
    apply (keepsPeer_addToLlist _ u sptr u).serv
    simp [setPeer]
  generalize (((m.edit (·.addClient u { m.client u with
    name := strncpyIrc host hostLen, status := .server })).setPeer u { m.peer u with
      hopcount := hop
      info := strncpyIrc info realLen
      serv := some { Serv.zero with up := parv0 }
      servptr := some sptr }).addToLlist u sptr) = m' at *
  constructor
  case beside => exact hung.beside
  case forest => simpa [whole] using hung.forest
  case nodes => exact hung.nodes
  case client =>
    rw [hung.tables]
    simp [Tables.addClient, whole]
  case serv => exact block'
  case links =>
    rw [hung.tables, remote]
    simp [Tables.addClient, remote]
  case nicksent => exact hung.nicksent
  case sound =>
    rw [hung.tables]
    exact sound

theorem Sane.addRemoteServer (sane : n.Sane) (known : cptr ∈ n.globalClientList)
    (sender : sptr ∈ n.globalClientList) (server : (n.client sptr).isServer = true)
    (behind : (n.client sptr).from_ = cptr) {host : CStr} (short : host.length ≤ hostLen)
    (free : n.findClient host = none) (parv0 info : CStr) (hop : Int) :
    (n.addRemoteServer cptr sptr parv0 host info hop).Sane := by
  have status := (isServer_iff _).1 server
  have hub : n.forest.Hub sptr := ⟨sender, .inr (kind_eq_inner.2 status)⟩
  have made := fit_makeClient sane.toFit (some cptr) fun link same =>
    Option.some.inj same ▸ known
  have beside := beside_makeClient n (some cptr)
  have linked := linked_addRemoteServer sane.toFit known hub short parv0 info hop
  have entered := forest_makeClient n (some cptr)
  have other : sptr ≠ n.nextClient := fun same => sane.tree.fresh (same ▸ sender)
  have notMe : sptr ≠ n.me := fun same => by
    rw [(sane.tree.status_me_iff sender).2 same] at status
    cases status
  have fit := linked.fit made List.mem_cons_self (by simp [makeClient, Tables.setClient, Client.zero,
    Status.kind]) ?_ ?_ (sane.tree.ok.below sptr sender) ?_
  · refine (beside.trans linked.beside).sane sane fit (fun _ loose => ?_) (fun _ unknown => ?_)
    · rw [linked.client] at loose
      cases loose
    · rw [linked.client] at unknown
      cases unknown
  · rw [entered]
    intro v inside new
    simpa [Forest.enter, show v ≠ n.forest.next from new] using
      free_of_none free n.nextClient v inside new
  · rw [entered]
    refine ⟨List.mem_cons_of_mem _ sender, ?_⟩
    simpa [Forest.enter, show sptr ≠ n.forest.next from other] using hub.2
  · rw [beside.from_ other, behind, beside.me, if_neg notMe]
    simp [makeClient, Tables.setClient]

theorem Sane.relayServer (sane : n.Sane) (listed : cptr ∈ n.globalClientList) (notMe : cptr ≠ n.me)
    (acptr : ClientId) (parv0 : CStr) (us : List ClientId) :
    (relayServer cptr acptr parv0 us n).Sane := by
  induction us generalizing n with
  | nil => exact sane
  | cons bcptr rest ih =>
    rw [Network.relayServer]
    split
    · exact ih sane listed notMe
    · split
      · exact sane.exit listed notMe ..
      · split
        · exact ih sane listed notMe
        · exact ih (sane.aside (.sendLine ..)) listed notMe

theorem Sane.introduceServer (sane : n.Sane) (comes : n.ComesFrom cptr sptr)
    (server : (n.client sptr).isServer = true) {host : CStr} (short : host.length ≤ hostLen)
    (free : n.findClient host = none) (parv0 info : CStr) (hop : Int) (adm : Admission) :
    (n.introduceServer cptr sptr parv0 host info hop adm).Sane := by
  have notMe := (comes.link sane).2
  have behindHub : (introduceServer.behindHub n cptr sptr parv0 host info hop adm).Sane := by
    unfold introduceServer.behindHub
    split
    · split
      · exact sane.exit comes.connected notMe ..
      · have added := sane.addRemoteServer comes.connected comes.here server comes.behind short free
          parv0 info hop
        have linked := linked_addRemoteServer sane.toFit comes.connected
          ⟨comes.here, .inr (kind_eq_inner.2 ((isServer_iff _).1 server))⟩ short parv0 info hop
        refine added.countUp.relayServer ?_ ?_ ..
        · change cptr ∈ (n.addRemoteServer ..).globalClientList
          rw [linked.nodes]
          exact List.mem_cons_of_mem _ comes.connected
        · change cptr ≠ (n.addRemoteServer ..).me
          rw [linked.beside.me]
          exact notMe
    · exact sane.exit comes.connected notMe ..
  unfold Network.introduceServer
  split
  · exact sane.aside (.sendLine ..)
  · split
    · split
      · exact Sane.exit (sane.aside (.sendLine ..)) comes.connected notMe ..
      · exact behindHub
    · exact behindHub

theorem aside_exitMe (tree : n.Tree) (cptr from_ : ClientId) (killed : Bool) (comment : CStr) :
    Aside n (n.exitClient cptr n.me from_ killed comment) := by
  have aside := aside_closing n n.me comment
  have status : (n.client n.me).status = .me := (tree.status_me_iff tree.me_listed).2 rfl
  have me := aside.graph.me
  unfold exitClient
  simp only
  replace status :
      (((n.leaveRoleLists n.me).sayClosing n.me comment).client n.me).status = .me := by
    rwa [aside.graph.status]
  generalize n.me = root at *
  generalize (n.leaveRoleLists root).sayClosing root comment = m at *
  replace tree := aside.graph.tree tree
  subst me
  rw [if_neg (by simp [Client.isServer, status])]
  refine aside.trans ?_
  obtain ⟨sv, serv⟩ := Option.isSome_iff_exists.1 (tree.serv m.me tree.me_listed (.inl status))
  -- we are not among our own users, so the removal takes nothing out
  have nobody : m.me ∉ sv.users := fun inside => by
    rw [((tree.mem_users_iff tree.me_listed serv).1 inside).2.1] at status
    cases status
  have kept : m.delFromLlist m.me = m.setServ m.me sv := by
    unfold delFromLlist
    rw [tree.top]
    simp [serv, Client.isServer, status, List.erase_of_not_mem nobody]
  have left : Aside m (m.delFromLlist m.me) := by
    rw [kept]
    exact .setPeer rfl serv.symm rfl
  unfold exitOneClient
  simp only
  replace status : ((m.delFromLlist m.me).client m.me).status = .me := by rwa [left.tables]
  generalize m.me = root at *
  generalize m.delFromLlist root = m' at *
  rw [if_pos status]
  refine left.trans ?_
  have told : m'.toServer.exitOneClient cptr root killed comment =
      m'.toServer.emit (.ops (lit "ERROR: tried to exit me! : " ++ comment)) := by
    simp [Server.exitOneClient, status]
  rw [told]
  exact .emit m' _

theorem Tree.from_link (tree : n.Tree) (hub : n.forest.Hub u) : (n.client u).from_ = n.me ∨
    (n.client u).from_ ∈ n.globalClientList ∧ (n.client u).from_ ≠ n.me ∧
      (n.client (n.client u).from_).from_ = (n.client u).from_ := by
  by_cases top : u = n.me
  · subst top
    exact .inl tree.ok.root_via
  · have placed : n.forest.kind u ≠ .loose := by rcases hub.2 with kind | kind <;> simp [kind]
    obtain ⟨-, -, -, listed, notMe, parent⟩ := tree.ok.path hub.1 placed top
    have via := (tree.ok.hung _ listed _ parent).2.2
    rw [if_pos rfl] at via
    exact .inr ⟨listed, notMe, via⟩

/-- What the name check of `m_server` leaves behind where it goes on. -/
structure Kept (n n' : Network) (cptr sptr : ClientId) (host : CStr) : Prop where
  comes : n'.ComesFrom cptr sptr
  remains : Remains n n'
  elsewhere : ∀ acptr, n.hashFindServer host = some acptr → (n.client acptr).from_ ≠ cptr

theorem Sane.dropYounger (sane : n.Sane) (comes : n.ComesFrom cptr sptr) (host : CStr) :
    (n.dropYounger cptr host).1.Sane ∧
      ((n.dropYounger cptr host).2 = true → Kept n (n.dropYounger cptr host).1 cptr sptr host) := by
  obtain ⟨itself, notMe⟩ := comes.link sane
  unfold Network.dropYounger
  cases found : n.hashFindServer host with
  | none => exact ⟨sane, fun _ => ⟨comes, .refl n, fun _ absurdity => by simp [found] at absurdity⟩⟩
  | some acptr =>
    obtain ⟨-, hub⟩ := sane.toFit.hub_of_hashFindServer found
    have link := sane.tree.from_link hub
    simp only
    generalize bcptr : (if (n.peer (n.client acptr).from_).firsttime < (n.peer cptr).firsttime
      then cptr else (n.client acptr).from_) = dropped
    have told : Aside n (n.sendLine dropped (lit "ERROR :Server " ++ host ++ lit " already exists")) :=
      .sendLine ..
    -- the younger of the two links goes; the message goes on only where that is the other one
    by_cases goesOn : dropped = cptr
    · refine ⟨?_, fun other => absurd goesOn (by simpa using other)⟩
      rw [goesOn] at told ⊢
      exact (sane.aside told).exit comes.connected notMe ..
    · have other : dropped = (n.client acptr).from_ := by
        split at bcptr
        · exact absurd bcptr.symm goesOn
        · exact bcptr.symm
      have elsewhere : ∀ u, n.hashFindServer host = some u → (n.client u).from_ ≠ cptr := by
        intro u same
        rw [found, Option.some.injEq] at same
        rwa [← same, ← other]
      rw [← other] at link
      rcases link with top | ⟨listed, below, via⟩
      · rw [top] at told ⊢
        have aside := told.trans (aside_exitMe (told.graph.tree sane.tree) n.me n.me false
          (lit "Server Exists"))
        exact ⟨sane.aside aside, fun _ => ⟨comes.aside aside, aside.remains, elsewhere⟩⟩
      · -- whatever is below the link that goes comes from it
        have apart : ∀ v ∈ n.globalClientList, (n.client v).from_ = cptr →
            v ≠ dropped ∧ ¬ n.forest.Below dropped v := by
          intro v here behind
          refine ⟨?_, fun lower => ?_⟩
          · rintro rfl
            exact goesOn (via.symm.trans behind)
          · have same := (lower.of_shape sane.tree.ok.toShape here).2.2 below
            exact goesOn (via.symm.trans (same.symm.trans behind))
        have exited := exited_exitClient (told.graph.tree sane.tree)
          (told.graph.globalClientList.symm ▸ listed) (told.graph.me.symm ▸ below)
          (fun _ => told.graph.settled sane.settled) dropped n.me false (lit "Server Exists")
        rw [← told.graph.forest] at apart
        refine ⟨(sane.aside told).remains exited.tree exited.remains, fun _ => ⟨?_,
          told.remains.trans exited.remains, elsewhere⟩⟩
        exact (comes.aside told).exited exited (apart cptr comes.connected itself)
          (apart sptr comes.here comes.behind)

namespace Kept

variable {m : Network} {host : CStr} (kept : Kept n m cptr sptr host)
include kept

theorem other (comes : n.ComesFrom cptr sptr) (sane : n.Sane)
    (anew : (n.client cptr).isServer = false → cptr ∉ n.clients) :
    m.findClient host ≠ some cptr := by
  intro found
  have inside := (kept.remains.clients cptr kept.comes.connected).1 (List.mem_of_find?_eq_some found)
  have name := List.find?_some found
  rw [beq_iff_eq, irccmp_eq_iff_nameKey, kept.remains.nameOf kept.comes.connected] at name
  cases server : (n.client cptr).isServer with
  | false => exact anew server inside
  | true =>
    -- then it would have been the younger link
    have first := sane.tree.hashFindServer_eq inside (.inl ((isServer_iff _).1 server)) name
    exact kept.elsewhere cptr first (comes.link sane).1

end Kept

theorem ComesFrom.role (comes : n.ComesFrom cptr sptr) (sane : n.Sane)
    (server : (n.client cptr).isServer = true) (notPerson : ¬ (n.client sptr).isPerson = true) :
    (n.client sptr).isServer = true := by
  rw [isServer_iff]
  cases role : (n.client sptr).status with
  | server => rfl
  | me => exact absurd ((sane.tree.status_me_iff comes.here).1 role) comes.notMe
  | client =>
    have user := (sane.tree.people sptr).2 ⟨comes.here, role⟩
    exact absurd (by simp [Client.isPerson, Client.isClient, user, role]) notPerson
  | _ =>
    have same := comes.itself sane (by simp [role, Status.kind])
    rw [same, (isServer_iff _).1 server] at role
    cases role

theorem Sane.newServer {m : Network} {host : CStr} (sane' : m.Sane)
    (comes : n.ComesFrom cptr sptr) (sane : n.Sane) (kept : Kept n m cptr sptr host)
    (anew : (n.client cptr).isServer = false → cptr ∉ n.clients)
    (notPerson : ¬ (n.client sptr).isPerson = true) (short : host.length ≤ hostLen)
    (free : m.findClient host = none) (parv0 info : CStr) (hop : Int) (adm : Admission) :
    (mServer.newServer cptr sptr adm m parv0 host info hop).Sane := by
  have here := kept.comes.connected
  have same : (m.client cptr).isServer = (n.client cptr).isServer := by
    rw [Client.isServer, kept.remains.status here, Client.isServer]
  unfold mServer.newServer
  split
  · next server =>
    rw [same] at server
    have sender := (isServer_iff _).1 (comes.role sane server notPerson)
    refine sane'.introduceServer kept.comes ?_ short free ..
    rw [isServer_iff, kept.remains.status kept.comes.here]
    exact sender
  · next server =>
    rw [same] at server
    refine sane'.becomeServer here kept.comes.myConnect (fun inside => ?_) short free ..
    exact anew (Bool.eq_false_of_not_eq_true server) ((kept.remains.clients cptr here).1 inside)

theorem Sane.mServer (sane : n.Sane) (comes : n.ComesFrom cptr sptr)
    (anew : (n.client cptr).isServer = false → cptr ∉ n.clients) (parv : List CStr)
    (adm : Admission) : (n.mServer cptr sptr parv adm).Sane := by
  have notMe := (comes.link sane).2
  have refused (comment : CStr) : (n.refuse cptr comment).Sane :=
    sane.exit comes.connected notMe ..
  have short : ((parv.getD 1 []).take hostLen).length ≤ hostLen := List.length_take_le ..
  unfold Network.mServer
  simp only
  generalize (parv.getD 1 []).take hostLen = host at short ⊢
  split
  · exact sane.aside (.sendLine ..)
  · split
    · split
      · exact sane
      · exact sane.aside (.sendLine ..)
    · next notPerson =>
      split
      · exact refused _
      · split
        · exact refused _
        · split
          · exact refused _
          -- an older link of that name may have gone, but not the one that speaks
          · obtain ⟨sane', goes⟩ := sane.dropYounger comes host
            generalize n.dropYounger cptr host = st at sane' goes ⊢
            split
            · exact sane'
            · next goesOn =>
              have kept := goes (by simpa using goesOn)
              generalize st.1 = m at sane' kept ⊢
              -- the name is free, or another server has it and the link goes
              cases found : m.findClient host with
              | none => exact sane'.newServer comes sane kept anew notPerson short found ..
              | some acptr =>
                simp only
                split
                · exact Sane.exit (sane'.aside (.sendLine ..)) kept.comes.connected
                    (kept.comes.link sane').2 ..
                · next same =>
                  rw [ne_eq, not_not] at same
                  exact absurd (same ▸ found) (kept.other comes sane anew)

end Network

end Ircd
