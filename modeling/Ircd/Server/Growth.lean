import Ircd.Server.Arrival
import Ircd.Server.Departure

/-! How connections, servers and users are added to the graph. -/

set_option autoImplicit false

namespace Ircd

namespace Network

variable {n n' : Network} {u v p cptr sptr : ClientId}

def IsNick (name : CStr) : Prop := name ≠ [] ∧ ∀ c ∈ name, isNickChar c = true

def PlainNames (n : Network) : Prop :=
  ∀ u ∈ n.clients, (n.client u).status ≠ .me → (n.client u).status ≠ .server →
    IsNick (n.nameOf u)

def Marks (n : Network) (u : ClientId) : Prop :=
  (n.peer u).nicksent = 0 ∨ (n.peer u).nicksent = n.nickissent

structure Fit (n : Network) : Prop where
  tree : n.Tree
  plain : n.PlainNames
  sound : n.toTables.Sound
  mark : n.nickissent = 1 ∨ n.nickissent = 2
  marks : ∀ u ∈ n.globalClientList, n.Marks u

structure Sane (n : Network) : Prop extends Fit n where
  settled : n.Settled
  /-- Who has sent NICK and not yet USER can be found. -/
  called : ∀ u ∈ n.globalClientList, (n.client u).status = .unknown → n.nameOf u ≠ [] →
    u ∈ n.clients

theorem Tree.fresh (tree : n.Tree) : n.nextClient ∉ n.globalClientList := tree.ok.next_notMem

theorem Tree.me_listed (tree : n.Tree) : n.me ∈ n.globalClientList := tree.ok.root_listed

theorem Tree.me_ne_nextClient (tree : n.Tree) : n.nextClient ≠ n.me := by
  intro same
  have fresh := tree.fresh
  rw [same] at fresh
  exact fresh tree.me_listed

theorem Remains.plainNames (same : Remains n n') (tree : n'.Tree) (plain : n.PlainNames) : n'.PlainNames := by
  intro u inside
  have listed := tree.ok.listed u inside
  rw [same.status listed, same.nameOf listed]
  exact plain u ((same.clients u listed).1 inside)

theorem Fit.remains (h : n.Fit) (tree : n'.Tree) (same : Remains n n') : n'.Fit where
  tree := tree
  plain := same.plainNames tree h.plain
  sound := same.sound h.sound
  mark := by
    rw [same.nickissent]
    exact h.mark
  marks u inside := by
    rw [Marks, same.nicksent, same.nickissent]
    exact h.marks u (same.fewer u inside)

theorem Fit.aside (h : n.Fit) (aside : Aside n n') : n'.Fit :=
  h.remains (aside.graph.tree h.tree) aside.remains

namespace Sane

variable (h : n.Sane)
include h

theorem remains (tree : n'.Tree) (same : Remains n n') : n'.Sane where
  toFit := h.toFit.remains tree same
  settled := same.settled h.settled
  called u inside := by
    rw [same.status inside, same.nameOf inside, same.clients u inside]
    exact h.called u (same.fewer u inside)

theorem aside (aside : Aside n n') : n'.Sane := h.remains (aside.graph.tree h.tree) aside.remains

theorem exit (listed : u ∈ n.globalClientList) (notMe : u ≠ n.me) (cptr from_ : ClientId)
    (killed : Bool) (comment : CStr) : (n.exitClient cptr u from_ killed comment).Sane := by
  have exited := exited_exitClient h.tree listed notMe (fun _ => h.settled) cptr from_ killed comment
  exact h.remains exited.tree exited.remains

end Sane

structure Beside (n n' : Network) (u : ClientId) : Prop where
  me : n'.me = n.me
  mem_iff : ∀ v, v ≠ u → (v ∈ n'.globalClientList ↔ v ∈ n.globalClientList)
  clients_iff : ∀ v, v ≠ u → (v ∈ n'.clients ↔ v ∈ n.clients)
  links_iff : ∀ v, v ≠ u → (v ∈ n'.servCptrList ↔ v ∈ n.servCptrList)
  identity : ∀ v, v ≠ u → (n'.client v).identity = (n.client v).identity
  servptr : ∀ v, v ≠ u → (n'.peer v).servptr = (n.peer v).servptr
  serv : ∀ v, v ≠ u → (n.peer v).serv.isSome = true → (n'.peer v).serv.isSome = true
  nicksent : ∀ v, v ≠ u → (n'.peer v).nicksent = (n.peer v).nicksent
  nickissent : n'.nickissent = n.nickissent

structure Own (n : Network) (u : ClientId) : Prop where
  mine : u ∈ n.globalClientList →
    ((n.client u).localFlag = true ↔ (n.client u).from_ = u ∧ u ≠ n.me)
  serv : u ∈ n.globalClientList → (n.client u).status = .me ∨ (n.client u).status = .server →
    (n.peer u).serv.isSome = true
  people : (n.client u).user = true ↔ u ∈ n.globalClientList ∧ (n.client u).status = .client
  links : u ∈ n.servCptrList ↔
    u ∈ n.globalClientList ∧ (n.client u).status = .server ∧ (n.client u).localFlag = true
  plain : u ∈ n.clients → (n.client u).status ≠ .me → (n.client u).status ≠ .server →
    IsNick (n.nameOf u)
  marks : u ∈ n.globalClientList → n.Marks u

theorem Fit.own (h : n.Fit) (u : ClientId) : Own n u :=
  ⟨h.tree.mine u, h.tree.serv u, h.tree.people u, h.tree.links u, h.plain u, h.marks u⟩

namespace Beside

variable (h : Beside n n' u)
include h

theorem trans {n'' : Network} (h' : Beside n' n'' u) : Beside n n'' u where
  me := h'.me.trans h.me
  mem_iff v other := (h'.mem_iff v other).trans (h.mem_iff v other)
  clients_iff v other := (h'.clients_iff v other).trans (h.clients_iff v other)
  links_iff v other := (h'.links_iff v other).trans (h.links_iff v other)
  identity v other := (h'.identity v other).trans (h.identity v other)
  servptr v other := (h'.servptr v other).trans (h.servptr v other)
  serv v other some := h'.serv v other (h.serv v other some)
  nicksent v other := (h'.nicksent v other).trans (h.nicksent v other)
  nickissent := h'.nickissent.trans h.nickissent

theorem nameOf {v : ClientId} (other : v ≠ u) : n'.nameOf v = n.nameOf v :=
  (congrArg Client.name (h.identity v other) :)

theorem status {v : ClientId} (other : v ≠ u) : (n'.client v).status = (n.client v).status :=
  (congrArg Client.status (h.identity v other) :)

theorem from_ {v : ClientId} (other : v ≠ u) : (n'.client v).from_ = (n.client v).from_ :=
  (congrArg Client.from_ (h.identity v other) :)

theorem localFlag {v : ClientId} (other : v ≠ u) :
    (n'.client v).localFlag = (n.client v).localFlag :=
  (congrArg Client.localFlag (h.identity v other) :)

theorem user {v : ClientId} (other : v ≠ u) : (n'.client v).user = (n.client v).user :=
  (congrArg Client.user (h.identity v other) :)

theorem fit (fit : n.Fit) (notMe : u ≠ n.me) (ok : n'.forest.Ok) (sound : n'.toTables.Sound)
    (nodup : n'.servCptrList.Nodup) (own : Own n' u) : n'.Fit where
  tree := {
    ok := ok
    top := by
      rw [h.me, h.servptr _ (Ne.symm notMe)]
      exact fit.tree.top
    mine := fun v inside => by
      by_cases here : v = u
      · exact here ▸ own.mine (here ▸ inside)
      · rw [h.localFlag here, h.from_ here, h.me]
        exact fit.tree.mine v ((h.mem_iff v here).1 inside)
    serv := fun v inside status => by
      by_cases here : v = u
      · exact here ▸ own.serv (here ▸ inside) (here ▸ status)
      · rw [h.status here] at status
        exact h.serv v here (fit.tree.serv v ((h.mem_iff v here).1 inside) status)
    people := fun v => by
      by_cases here : v = u
      · exact here ▸ own.people
      · rw [h.user here, h.status here, h.mem_iff v here]
        exact fit.tree.people v
    links := fun v => by
      by_cases here : v = u
      · exact here ▸ own.links
      · rw [h.links_iff v here, h.mem_iff v here, h.status here, h.localFlag here]
        exact fit.tree.links v
    links_nodup := nodup }
  plain v inside := by
    by_cases here : v = u
    · exact here ▸ own.plain (here ▸ inside)
    · rw [h.status here, h.nameOf here]
      exact fit.plain v ((h.clients_iff v here).1 inside)
  sound := sound
  mark := by
    rw [h.nickissent]
    exact fit.mark
  marks v inside := by
    by_cases here : v = u
    · exact here ▸ own.marks (here ▸ inside)
    · rw [Marks, h.nicksent v here, h.nickissent]
      exact fit.marks v ((h.mem_iff v here).1 inside)

theorem sane (sane : n.Sane) (fit : n'.Fit)
    (settled : u ∈ n'.globalClientList → (n'.client u).status.kind = .loose →
      (n'.client u).from_ = u)
    (called : u ∈ n'.globalClientList → (n'.client u).status = .unknown → n'.nameOf u ≠ [] →
      u ∈ n'.clients) : n'.Sane where
  toFit := fit
  settled v inside := by
    by_cases here : v = u
    · exact here ▸ settled (here ▸ inside)
    · rw [h.status here, h.from_ here]
      exact sane.settled v ((h.mem_iff v here).1 inside)
  called v inside := by
    by_cases here : v = u
    · exact here ▸ called (here ▸ inside)
    · rw [h.status here, h.nameOf here, h.clients_iff v here]
      exact sane.called v ((h.mem_iff v here).1 inside)

end Beside

theorem free_of_none {name : CStr} (none : n.findClient name = none) (u : ClientId) :
    n.forest.Free u (nameKey name) := by
  intro v inside _ same
  have found := List.find?_eq_none.1 none v inside
  apply found
  rw [beq_iff_eq, irccmp_eq_iff_nameKey]
  exact same.symm

namespace Tree

variable (tree : n.Tree)
include tree

theorem free_of_self {name : CStr} (found : n.findClient name = some u) :
    n.forest.Free u (nameKey name) := by
  intro v inside other same
  have inside' : u ∈ n.clients := List.mem_of_find?_eq_some found
  have name' := List.find?_some found
  rw [beq_iff_eq, irccmp_eq_iff_nameKey] at name'
  exact other (tree.ok.unique v inside u inside' (same.trans name'))

end Tree

theorem toUpper_eq_star {c : Char} (star : toUpper c = '*') : c = '*' := by
  have code := toNat_toUpper c
  rw [star] at code
  unfold toUpper at star
  split at star
  · next low =>
    rw [if_pos low] at code
    have value : ('*' : Char).toNat = 42 := rfl
    omega
  · exact star

theorem star_mem_of_mask {mask rest name : CStr} (starts : mask = '*' :: rest)
    (same : irccmp mask name = .eq) : '*' ∈ name := by
  rw [irccmp_eq_iff_nameKey, starts, nameKey, nameKey, List.map_cons] at same
  cases name with
  | nil => cases same
  | cons c cs =>
    rw [List.map_cons, List.cons.injEq] at same
    have star : toUpper c = '*' := same.1.symm.trans (by decide)
    exact toUpper_eq_star star ▸ List.mem_cons_self

theorem starts_of_serverMasks {name mask : CStr} (inside : mask ∈ serverMasks name) :
    ∃ rest, mask = '*' :: rest := by
  induction name with
  | nil => cases inside
  | cons c cs ih =>
    rw [serverMasks] at inside
    split at inside
    · rcases List.mem_cons.1 inside with rfl | later
      · exact ⟨_, rfl⟩
      · exact ih later
    · exact ih inside

theorem Fit.hub_of_hashFindServer (h : n.Fit) {name : CStr}
    (found : n.hashFindServer name = some p) : p ∈ n.clients ∧ n.forest.Hub p := by
  have hub : p ∈ n.clients → (n.client p).status = .me ∨ (n.client p).status = .server →
      p ∈ n.clients ∧ n.forest.Hub p := by
    intro inside status
    refine ⟨inside, h.tree.ok.listed p inside, status.imp ?_ ?_⟩
    · exact kind_eq_root.2
    · exact kind_eq_inner.2
  unfold Tables.hashFindServer at found
  split at found
  · next first =>
    cases found
    have kind := List.find?_some first
    simp only [Bool.and_eq_true, Bool.or_eq_true, isServer_iff, beq_iff_eq] at kind
    exact hub (List.mem_of_find?_eq_some first) kind.1.symm
  · unfold Tables.hashFindMaskedServer at found
    split at found
    · cases found
    · obtain ⟨mask, inside, found⟩ := List.exists_of_findSome?_eq_some found
      have listed := List.mem_of_find?_eq_some found
      have name := List.find?_some found
      rw [beq_iff_eq] at name
      obtain ⟨rest, starts⟩ := starts_of_serverMasks inside
      refine hub listed ?_
      by_contra neither
      rw [not_or] at neither
      have nick := (h.plain p listed neither.1 neither.2).2 '*' (star_mem_of_mask starts name)
      exact absurd nick (by decide)

/-- A write to a client that keeps its channels, whatever becomes of the client table. -/
theorem sound_write {t t' : Tables} (sound : t.Sound) {cl : Client}
    (client : t'.client = Function.update t.client u cl)
    (rest : t'.roster = (t.setClient u cl).roster ∧ t'.chan = t.chan ∧ t'.nextChan = t.nextChan ∧
      t'.freed = t.freed)
    (channel : cl.channel = (t.client u).channel) (joined : cl.joined = (t.client u).joined)
    (outside : cl.user = false → cl.channel = []) (proper : cl.identity.Proper) : t'.Sound := by
  refine (Tables.Keeps.directory (rest.1.trans (Tables.roster_setClient channel joined))
    rest.2.1 rest.2.2.1 rest.2.2.2 (fun _ v nobody => ?_) (fun _ v => ?_)).sound sound
  · rw [client] at nobody ⊢
    by_cases here : v = u
    · subst here
      simpa using outside (by simpa using nobody)
    · rw [Function.update_of_ne here] at nobody ⊢
      exact sound.outside v nobody
  · rw [client]
    by_cases here : v = u
    · subst here
      simpa using proper
    · rw [Function.update_of_ne here]
      exact sound.proper v

theorem forest_makeClient (n : Network) (from_ : Option ClientId) :
    (n.makeClient from_).forest =
      n.forest.enter (from_.getD n.nextClient) (nameKey []) := by
  unfold makeClient
  refine Forest.ext rfl rfl rfl rfl ?_ ?_ ?_ ?_ ?_
  all_goals
    funext v
    try funext w
  · by_cases here : v = n.nextClient <;>
      simp [forest, Forest.enter, Tables.nameOf, Tables.setClient, Client.zero, here]
  · by_cases here : v = n.nextClient <;>
      simp [forest, Forest.enter, Tables.setClient, Client.zero, Status.kind, here]
  · by_cases here : v = n.nextClient <;>
      simp [forest, Forest.enter, Tables.setClient, Client.zero, Peer.zero, here]
  · by_cases here : w = n.nextClient
    · cases v <;> simp [forest, Forest.enter, Peer.zero, llist, here]
    · simp [forest, Forest.enter, here]
  · by_cases here : v = n.nextClient <;>
      simp [forest, Forest.enter, Tables.setClient, here]

theorem beside_makeClient (n : Network) (from_ : Option ClientId) :
    Beside n (n.makeClient from_) n.nextClient := by
  constructor
  case me => rfl
  case mem_iff => exact fun v other => ⟨fun inside => (List.mem_cons.1 inside).resolve_left other,
    List.mem_cons_of_mem _⟩
  case clients_iff => exact fun _ _ => Iff.rfl
  case links_iff => exact fun _ _ => Iff.rfl
  case nickissent => rfl
  all_goals
    intro v other
    simp [makeClient, Tables.setClient, other]

theorem fit_makeClient (fit : n.Fit) (from_ : Option ClientId)
    (known : ∀ link, from_ = some link → link ∈ n.globalClientList) :
    (n.makeClient from_).Fit := by
  have fresh := fit.tree.fresh
  have notMe := fit.tree.me_ne_nextClient
  have ok := fit.tree.ok.enter (from_.getD n.nextClient) (nameKey [])
  rw [← forest_makeClient] at ok
  have nobody : (n.client n.nextClient).user = false :=
    Bool.eq_false_of_not_eq_true fun user => fresh ((fit.tree.people _).1 user).1
  have channel := fit.sound.outside n.nextClient nobody
  have joined : (n.client n.nextClient).joined = 0 := by
    have counted := fit.sound.mirror.joined_eq n.nextClient
    simpa [Tables.roster, channel] using counted
  have sound : (n.makeClient from_).toTables.Sound := by
    refine sound_write fit.sound rfl ⟨rfl, rfl, rfl, rfl⟩ channel.symm joined.symm (fun _ => rfl) ?_
    constructor <;>
    · intro set
      simp [Client.identity, Client.zero] at set
  refine (beside_makeClient n from_).fit fit notMe ok sound fit.tree.links_nodup ?_
  constructor
  case mine =>
    intro _
    cases from_ with
    | none => simpa [makeClient, Tables.setClient] using notMe
    | some link =>
      have other : link ≠ n.nextClient := fun same => by
        rw [← same] at fresh
        exact fresh (known link rfl)
      simp [makeClient, Tables.setClient, other]
  case serv => simp [makeClient, Tables.setClient, Client.zero]
  case people => simp [makeClient, Tables.setClient, Client.zero]
  case links =>
    have absent : n.nextClient ∉ n.servCptrList := fun inside =>
      fresh ((fit.tree.links _).1 inside).1
    simpa [makeClient, Tables.setClient, Client.zero] using absent
  case plain =>
    intro inside
    exact absurd (fit.tree.ok.listed _ inside) fresh
  case marks => exact fun _ => .inl (by simp [makeClient, Peer.zero])

structure SamePlace (cl cl' : Client) : Prop where
  kind : cl'.status.kind = cl.status.kind
  from_ : cl'.from_ = cl.from_
  localFlag : cl'.localFlag = cl.localFlag
  user : cl'.user = cl.user
  anOper : cl'.anOper = cl.anOper
  channel : cl'.channel = cl.channel
  joined : cl'.joined = cl.joined

namespace SamePlace

variable {cl cl' : Client} (h : SamePlace cl cl')
include h

theorem me_iff : cl'.status = .me ↔ cl.status = .me := by
  rw [← kind_eq_root, ← kind_eq_root, h.kind]

theorem server_iff : cl'.status = .server ↔ cl.status = .server := by
  rw [← kind_eq_inner, ← kind_eq_inner, h.kind]

theorem client_iff : cl'.status = .client ↔ cl.status = .client := by
  rw [← kind_eq_leaf, ← kind_eq_leaf, h.kind]

theorem proper (proper : cl.Proper) (named : cl.user = true → cl'.name ≠ []) : cl'.Proper where
  person user := by
    rw [h.user] at user
    have client := (proper.person user).1
    exact ⟨by simpa [Client.isClient, h.client_iff] using client, named user⟩
  oper oper := by
    rw [h.anOper] at oper
    simpa [Client.isClient, h.client_iff] using proper.oper oper

end SamePlace

/-- `strncpy_irc` over fields of a client, and the client table after it. -/
def rewrite (n : Network) (u : ClientId) (cl : Client) (clients : List ClientId) : Network :=
  { n with toServer := n.toServer.edit fun t => { t.setClient u cl with clients := clients } }

theorem forest_rewrite {cl : Client} (same : SamePlace (n.client u) cl) (clients : List ClientId) :
    (n.rewrite u cl clients).forest =
      { n.forest.rekey u (nameKey cl.name) with table := clients } := by
  refine Forest.ext rfl rfl rfl rfl ?_ ?_ ?_ rfl ?_
  all_goals
    funext v
    by_cases here : v = u
  · simp [forest, Forest.rekey, rewrite, Tables.setClient, Tables.nameOf, here]
  · simp [forest, Forest.rekey, rewrite, Tables.setClient, Tables.nameOf, here]
  · simpa [forest, Forest.rekey, rewrite, Tables.setClient, here] using same.kind
  · simp [forest, Forest.rekey, rewrite, Tables.setClient, here]
  · simp [forest, Forest.rekey, rewrite, Tables.setClient, here, same.me_iff]
  · simp [forest, Forest.rekey, rewrite, Tables.setClient, here]
  · simpa [forest, Forest.rekey, rewrite, Tables.setClient, here] using same.from_
  · simp [forest, Forest.rekey, rewrite, Tables.setClient, here]

theorem beside_rewrite {cl : Client} (clients : List ClientId)
    (table : ∀ v, v ≠ u → (v ∈ clients ↔ v ∈ n.clients)) :
    Beside n (n.rewrite u cl clients) u := by
  constructor
  case clients_iff => exact table
  case identity =>
    intro v other
    simp [rewrite, Tables.setClient, other]
  all_goals first | rfl | exact fun _ _ => rfl | exact fun _ _ => Iff.rfl | exact fun _ _ => id

theorem fit_rewrite (fit : n.Fit) {cl : Client} (clients : List ClientId) (notMe : u ≠ n.me)
    (same : SamePlace (n.client u) cl) (named : (n.client u).user = true → cl.name ≠ [])
    (table : ∀ v, v ≠ u → (v ∈ clients ↔ v ∈ n.clients))
    (ok : (n.rewrite u cl clients).forest.Ok)
    (plain : u ∈ clients → (n.client u).status ≠ .server → IsNick cl.name) :
    (n.rewrite u cl clients).Fit := by
  have own := fit.own u
  have client : (n.rewrite u cl clients).client u = cl := by simp [rewrite, Tables.setClient]
  have sound : (n.rewrite u cl clients).toTables.Sound := by
    refine sound_write fit.sound rfl ⟨rfl, rfl, rfl, rfl⟩ same.channel same.joined ?_ ?_
    · rw [same.user, same.channel]
      exact fit.sound.outside u
    · have proper : (n.client u).Proper := ⟨(fit.sound.proper u).person, (fit.sound.proper u).oper⟩
      have proper' := same.proper proper named
      exact ⟨proper'.person, proper'.oper⟩
  refine (beside_rewrite clients table).fit fit notMe ok sound fit.tree.links_nodup ?_
  constructor
  case mine =>
    rw [client, same.localFlag, same.from_]
    exact own.mine
  case serv =>
    rw [client, same.me_iff, same.server_iff]
    exact own.serv
  case people =>
    rw [client, same.user, same.client_iff]
    exact own.people
  case links =>
    rw [client, same.server_iff, same.localFlag]
    exact own.links
  case plain =>
    rw [client, ne_eq, ne_eq, same.server_iff, Tables.nameOf, client]
    exact fun inside _ => plain inside
  case marks => exact own.marks

theorem fit_setClient (fit : n.Fit) {cl : Client} (notMe : u ≠ n.me)
    (same : SamePlace (n.client u) cl) (name : u ∈ n.clients → cl.name = n.nameOf u) :
    (n.edit (·.setClient u cl)).Fit := by
  have named : (n.client u).user = true → cl.name ≠ [] := by
    intro user
    have placed := fit.tree.ok.placed u ((fit.tree.people u).1 user).1 (by
      simp [forest, ((fit.tree.people u).1 user).2, Status.kind])
    rw [name placed]
    exact (fit.sound.person user).2
  refine fit_rewrite fit n.clients notMe same named (fun _ _ => Iff.rfl) ?_ ?_
  · rw [forest_rewrite same]
    by_cases inside : u ∈ n.clients
    · have key : nameKey cl.name = n.forest.key u := congrArg nameKey (name inside)
      have self : n.forest.rekey u (nameKey cl.name) = n.forest := by
        rw [Forest.rekey, key, Function.update_eq_self]
      rw [self]
      exact fit.tree.ok
    · exact fit.tree.ok.rekey inside _
  · intro inside server
    rw [name inside]
    exact fit.plain u inside (fun me => notMe
      ((fit.tree.status_me_iff (fit.tree.ok.listed u inside)).1 me)) server

theorem beside_setClient (n : Network) (u : ClientId) (cl : Client) :
    Beside n (n.edit (·.setClient u cl)) u := beside_rewrite n.clients fun _ _ => Iff.rfl

@[simp] theorem client_setClient (n : Network) (u : ClientId) (cl : Client) :
    (n.edit (·.setClient u cl)).client u = cl := Function.update_self ..

theorem fit_setNick (fit : n.Fit) {nick : CStr} (listed : u ∈ n.globalClientList)
    (notMe : u ≠ n.me) (free : n.forest.Free u (nameKey nick)) (plain : IsNick nick) :
    (n.setNick u nick).Fit := by
  have same : SamePlace (n.client u) { n.client u with name := nick } := by constructor <;> rfl
  refine fit_rewrite fit (u :: n.clients.erase u) notMe same (fun _ => plain.1)
    (fun v other => ?_) ?_ (fun _ _ => plain)
  · rw [List.mem_cons, List.mem_erase_of_ne other]
    exact ⟨fun inside => inside.resolve_left other, .inr⟩
  · rw [forest_rewrite same]
    exact fit.tree.ok.label listed free

theorem beside_setNick (n : Network) (u : ClientId) (nick : CStr) :
    Beside n (n.setNick u nick) u :=
  beside_rewrite (u :: n.clients.erase u) fun v other => by
    rw [List.mem_cons, List.mem_erase_of_ne other]
    exact ⟨fun inside => inside.resolve_left other, .inr⟩

theorem Departed.beside (gone : Departed n n' u) : Beside n n' u where
  me := gone.tables.me
  mem_iff v other := by
    have nodes : n'.globalClientList = n.globalClientList.erase u ∨
        n'.globalClientList = n.globalClientList := by
      have all := congrArg Forest.nodes gone.forest
      unfold Forest.drop at all
      split at all
      · exact .inr (all.trans (Forest.unlink_nodes ..))
      · exact .inl all
    rcases nodes with nodes | nodes
    · rw [nodes, List.mem_erase_of_ne other]
    · rw [nodes]
  clients_iff v other := by rw [gone.tables.clients, List.mem_erase_of_ne other]
  links_iff v other := by rw [gone.tables.servCptrList, List.mem_erase_of_ne other]
  identity v other := by rw [gone.tables.identity, if_neg other]
  servptr v _ := gone.servptr v
  serv v _ := gone.serv v
  nicksent v _ := gone.nicksent v
  nickissent := gone.nickissent

theorem Aside.beside (h : Aside n n') (u : ClientId) : Beside n n' u where
  me := h.graph.me
  mem_iff v _ := by rw [h.graph.globalClientList]
  clients_iff v _ := by rw [h.graph.clients]
  links_iff v _ := by rw [h.graph.servCptrList]
  identity v _ := by rw [h.tables]
  servptr v _ := h.graph.servptr v
  serv v _ := h.graph.serv v
  nicksent v _ := h.nicksent v
  nickissent := h.nickissent

/-- The network on the way, with a client that is registered already and not yet in its
place, or in one that it may not have. -/
theorem fit_exit_unplaced (fit : n.Fit) {m : Network} (beside : Beside n m u)
    (sound : m.toTables.Sound) (client : (m.client u).status = .client)
    (gone : Forest.Agree (n.forest.drop u) (m.forest.drop u))
    (listed : u ∈ n.globalClientList) (loose : (n.client u).status.kind = .loose)
    (links : m.servCptrList = n.servCptrList) (cptr from_ : ClientId) (killed : Bool) (comment : CStr) :
    (m.exitClient cptr u from_ killed comment).Fit ∧
      Beside n (m.exitClient cptr u from_ killed comment) u ∧
      u ∉ (m.exitClient cptr u from_ killed comment).globalClientList := by
  have notMe : u ≠ n.me := by
    rintro rfl
    rw [(fit.tree.status_me_iff listed).2 rfl] at loose
    cases loose
  -- nothing hangs from a client without a place
  have bare : n.forest.Bare u := fit.tree.ok.bare_of_not_hub fun hub => by
    rcases hub.2 with kind | kind <;>
    · rw [show n.forest.kind u = .loose from loose] at kind
      cases kind
  have ok := (fit.tree.ok.drop listed notMe bare).agree gone
  have aside := aside_closing m u comment
  unfold exitClient
  simp only
  generalize (m.leaveRoleLists u).sayClosing u comment = m₁ at aside
  have client₁ : (m₁.client u).status = .client := by rwa [aside.graph.status]
  rw [if_neg (by simp [Client.isServer, client₁])]
  have notMe₁ : (m₁.client u).status ≠ .me := by simp [client₁]
  have departed := departed_exitOneClient m₁ cptr from_ killed comment notMe₁
  generalize m₁.exitOneClient cptr u from_ killed comment = m' at departed
  have forest : m'.forest = m.forest.drop u := by rw [departed.forest, aside.graph.forest]
  rw [← forest] at ok gone
  have whole := (beside.trans (aside.beside u)).trans departed.beside
  have outside : u ∉ m'.globalClientList := by
    have nodes := gone.nodes
    rw [fit.tree.ok.drop_nodes listed notMe] at nodes
    rw [show m'.globalClientList = n.globalClientList.erase u from nodes]
    exact fit.tree.ok.nodes_nodup.not_mem_erase
  have links' : m'.servCptrList = n.servCptrList.erase u := by
    rw [departed.tables.servCptrList, aside.graph.servCptrList, links]
  have absent : u ∉ m'.servCptrList := by
    rw [links']
    exact fit.tree.links_nodup.not_mem_erase
  refine ⟨whole.fit fit notMe ok ?_ ?_ ?_, whole, outside⟩
  · exact departed.sound (aside.tables ▸ sound)
  · rw [links']
    exact fit.tree.links_nodup.erase u
  · constructor
    case mine => exact fun inside => absurd inside outside
    case serv => exact fun inside => absurd inside outside
    case people =>
      rw [departed.tables.user, if_pos rfl]
      exact iff_of_false Bool.false_ne_true fun inside => outside inside.1
    case links => exact ⟨fun inside => absurd inside absent, fun inside => absurd inside.1 outside⟩
    case plain => exact fun inside => absurd (ok.listed u inside) outside
    case marks => exact fun inside => absurd inside outside

theorem hashFindServer_congr {t t' : Tables} (clients : t'.clients = t.clients)
    (name : ∀ u, t'.nameOf u = t.nameOf u)
    (server : ∀ u, ((t'.client u).isServer || (t'.client u).status == .me) =
      ((t.client u).isServer || (t.client u).status == .me)) (host : CStr) :
    t'.hashFindServer host = t.hashFindServer host := by
  have find : t'.findClient = t.findClient := by
    funext name'
    unfold Tables.findClient
    rw [clients]
    simp only [name]
  unfold Tables.hashFindServer Tables.hashFindMaskedServer
  rw [clients, find]
  simp only [server, name]

theorem forest_setServptr (n : Network) {q : Peer} (status : (n.client u).status ≠ .me)
    (servptr : q.servptr = some p) (serv : llist q.serv = llist (n.peer u).serv) :
    (n.setPeer u q).forest =
      { n.forest with parent := Function.update n.forest.parent u (some p) } := by
  refine Forest.ext rfl rfl rfl rfl rfl rfl ?_ ?_ rfl
  · funext v
    by_cases here : v = u
    · subst here
      simp [forest, setPeer, status, servptr]
    · simp [forest, setPeer, here]
  · funext k v
    by_cases here : v = u
    · subst here
      simp [forest, setPeer, serv]
    · simp [forest, setPeer, here]

theorem forest_addToLlist (n : Network) {k : Forest.Kind} (kind : (n.client u).status.kind = k)
    (placed : k = .inner ∨ k = .leaf) (serv : (n.peer p).serv.isSome = true) :
    (n.addToLlist u p).forest = { n.forest with
      kids := Function.update n.forest.kids k
        (Function.update (n.forest.kids k) p (u :: n.forest.kids k p)) } := by
  obtain ⟨sv, serv⟩ := Option.isSome_iff_exists.1 serv
  have side : (n.client u).isServer = true ↔ k = .inner := by
    rw [isServer_iff, ← kind_eq_inner, kind]
  unfold addToLlist
  rw [serv]
  simp only [side]
  rcases placed with rfl | rfl
  all_goals
    simp only [if_true, reduceCtorEq, if_false, forest_setServ]
    refine Forest.ext rfl rfl rfl rfl rfl rfl rfl ?_ rfl
    funext k v
    by_cases here : v = p
    · subst here
      cases k <;> simp [forest, llist, serv]
    · cases k <;> simp [forest, here]

theorem addToLlist_toServer (n : Network) (u p : ClientId) :
    (n.addToLlist u p).toServer = n.toServer := by
  unfold addToLlist
  split
  · rfl
  · split <;> rfl

theorem keepsPeer_addToLlist (n : Network) (u p v : ClientId) :
    KeepsPeer (n.peer v) ((n.addToLlist u p).peer v) := by
  unfold addToLlist
  split
  · exact ⟨rfl, rfl, id⟩
  · split <;> exact keepsPeer_setServ n p _ v

theorem beside_addToLlist (n : Network) (u p : ClientId) : Beside n (n.addToLlist u p) u where
  me := by rw [addToLlist_toServer]
  mem_iff v _ := by
    unfold addToLlist
    split
    · rfl
    · split <;> rfl
  clients_iff v _ := by rw [addToLlist_toServer]
  links_iff v _ := by rw [addToLlist_toServer]
  identity v _ := by rw [addToLlist_toServer]
  servptr v _ := (keepsPeer_addToLlist n u p v).servptr
  serv v _ := (keepsPeer_addToLlist n u p v).serv
  nicksent v _ := (keepsPeer_addToLlist n u p v).nicksent
  nickissent := by
    unfold addToLlist
    split
    · rfl
    · split <;> rfl

theorem beside_setPeer (n : Network) (u : ClientId) (q : Peer) : Beside n (n.setPeer u q) u := by
  constructor
  case servptr | serv | nicksent =>
    intro v other
    simp [setPeer, other]
  all_goals first | rfl | exact fun _ _ => rfl | exact fun _ _ => Iff.rfl

end Network

end Ircd
