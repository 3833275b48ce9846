import Ircd.Channel.PartClean
import Ircd.Server.MServer

/-! The server graph of the tables as a forest, and what each edit does to it. -/

set_option autoImplicit false

namespace Ircd

structure Tables.Exited (t t' : Tables) (u : ClientId) : Prop where
  me : t'.me = t.me
  clients : t'.clients = t.clients.erase u
  servCptrList : t'.servCptrList = t.servCptrList.erase u
  currentTime : t'.currentTime = t.currentTime
  identity : ∀ v, (t'.client v).identity =
    if v = u then { (t.client v).identity with user := false } else (t.client v).identity

namespace Tables.Exited

variable {t t' : Tables} {u : ClientId} (h : t.Exited t' u)
include h

theorem nameOf (v : ClientId) : t'.nameOf v = t.nameOf v := by
  have same := congrArg Client.name (h.identity v)
  split at same <;> exact same

theorem status (v : ClientId) : (t'.client v).status = (t.client v).status := by
  have same := congrArg Client.status (h.identity v)
  split at same <;> exact same

theorem from_ (v : ClientId) : (t'.client v).from_ = (t.client v).from_ := by
  have same := congrArg Client.from_ (h.identity v)
  split at same <;> exact same

theorem localFlag (v : ClientId) : (t'.client v).localFlag = (t.client v).localFlag := by
  have same := congrArg Client.localFlag (h.identity v)
  split at same <;> exact same

theorem user (v : ClientId) : (t'.client v).user = if v = u then false else (t.client v).user := by
  have same := congrArg Client.user (h.identity v)
  split at same
  · next here => rw [if_pos here]; exact same
  · next other => rw [if_neg other]; exact same

end Tables.Exited

theorem Tables.exited_removeClientFromList {t t' : Tables} (same : SameDirectory t t')
    (u : ClientId) : t.Exited (t'.removeClientFromList u) u := by
  unfold removeClientFromList
  simp only
  generalize history : (if (t'.client u).isPerson = true then (t'.addHistory u none).offHistory u
    else t') = t''
  have kept : t''.me = t'.me ∧ t''.clients = t'.clients ∧ t''.servCptrList = t'.servCptrList ∧
      t''.currentTime = t'.currentTime ∧ t''.client = t'.client := by
    subst history
    split <;> exact ⟨rfl, rfl, rfl, rfl, rfl⟩
  obtain ⟨me, clients, servCptrList, currentTime, client⟩ := kept
  refine ⟨me.trans same.me, ?_, ?_, currentTime.trans same.currentTime, fun v => ?_⟩
  · rw [clients, same.clients]
  · rw [servCptrList, same.servCptrList]
  · by_cases here : v = u
    · subst here
      simp only [Function.update_self, client, if_true, ← same.identity v]
      rfl
    · simpa [here, client] using same.identity v

namespace Server

theorem sameDirectory_exitChannels (sptr : ClientId) (cs : List ChanId) (s : Server) :
    Tables.SameDirectory s.toTables (exitChannels sptr cs s).toTables := by
  induction cs generalizing s with
  | nil => exact .refl _
  | cons c rest ih =>
    have first := (Tables.removeUserFromChannel_directory s.toTables sptr c).1
    rw [← removeUserFromChannel_toTables] at first
    exact first.trans (ih _)

theorem exited_exitOneClient (s : Server) (cptr sptr : ClientId) (killed : Bool) (comment : CStr)
    (notMe : (s.client sptr).status ≠ .me) :
    s.toTables.Exited (s.exitOneClient cptr sptr killed comment).toTables sptr := by
  unfold exitOneClient
  simp only [notMe, if_false]
  split
  · generalize sending : (if killed then s else _) = s₁
    have sent : s₁.toTables = s.toTables := by
      subst sending
      split <;> rfl
    generalize quitting : s₁.emit _ = s₂
    have quit : s₂.toTables = s.toTables := by
      subst quitting
      exact sent
    have left := sameDirectory_exitChannels sptr (s₂.client sptr).channel s₂
    generalize exitChannels sptr (s₂.client sptr).channel s₂ = s₃ at left ⊢
    rw [quit] at left
    have alike := (exitInvites_alike sptr (s₃.client sptr).invited s₃).1.directory
    exact Tables.exited_removeClientFromList (left.trans alike) sptr
  · exact Tables.exited_removeClientFromList (.refl _) sptr

end Server

def nameKey (name : CStr) : CStr := name.map toUpper

theorem irccmp_eq_iff_nameKey (a b : CStr) : irccmp a b = .eq ↔ nameKey a = nameKey b :=
  irccmp_eq_iff a b

def Status.kind : Status → Forest.Kind
  | .me => .root
  | .server => .inner
  | .client => .leaf
  | _ => .loose

def llist (serv : Option Serv) : Forest.Kind → List ClientId
  | .inner => (serv.map Serv.servers).getD []
  | .leaf => (serv.map Serv.users).getD []
  | _ => []

namespace Network

def forest (n : Network) : Forest CStr where
  root := n.me
  nodes := n.globalClientList
  next := n.nextClient
  table := n.clients
  key u := nameKey (n.nameOf u)
  kind u := (n.client u).status.kind
  parent u := if (n.client u).status = .me then none else (n.peer u).servptr
  kids k p := llist (n.peer p).serv k
  via u := (n.client u).from_

/-- The server graph is a tree, the blocks behind the clients fit their places, and
`serv_cptr_list` holds the links. -/
structure Tree (n : Network) : Prop where
  ok : n.forest.Ok
  top : (n.peer n.me).servptr = some n.me
  mine : ∀ u ∈ n.globalClientList,
    (n.client u).localFlag = true ↔ (n.client u).from_ = u ∧ u ≠ n.me
  serv : ∀ u ∈ n.globalClientList, (n.client u).status = .me ∨ (n.client u).status = .server →
    (n.peer u).serv.isSome = true
  people : ∀ u, (n.client u).user = true ↔
    u ∈ n.globalClientList ∧ (n.client u).status = .client
  links : ∀ u, u ∈ n.servCptrList ↔
    u ∈ n.globalClientList ∧ (n.client u).status = .server ∧ (n.client u).localFlag = true
  links_nodup : n.servCptrList.Nodup

def Settled (n : Network) : Prop :=
  ∀ u ∈ n.globalClientList, (n.client u).status.kind = .loose → (n.client u).from_ = u

structure SameGraph (n n' : Network) : Prop where
  me : n'.me = n.me
  globalClientList : n'.globalClientList = n.globalClientList
  nextClient : n'.nextClient = n.nextClient
  clients : n'.clients = n.clients
  servCptrList : n'.servCptrList = n.servCptrList
  name : ∀ u, n'.nameOf u = n.nameOf u
  status : ∀ u, (n'.client u).status = (n.client u).status
  from_ : ∀ u, (n'.client u).from_ = (n.client u).from_
  localFlag : ∀ u, (n'.client u).localFlag = (n.client u).localFlag
  user : ∀ u, (n'.client u).user = (n.client u).user
  servptr : ∀ u, (n'.peer u).servptr = (n.peer u).servptr
  llist : ∀ u, llist (n'.peer u).serv = llist (n.peer u).serv
  serv : ∀ u, (n.peer u).serv.isSome = true → (n'.peer u).serv.isSome = true

namespace SameGraph

variable {n n' n'' : Network}

theorem refl (n : Network) : SameGraph n n := by
  constructor <;> first | rfl | exact fun _ => rfl | exact fun _ => id

theorem trans (h : SameGraph n n') (h' : SameGraph n' n'') : SameGraph n n'' where
  me := h'.me.trans h.me
  globalClientList := h'.globalClientList.trans h.globalClientList
  nextClient := h'.nextClient.trans h.nextClient
  clients := h'.clients.trans h.clients
  servCptrList := h'.servCptrList.trans h.servCptrList
  name u := (h'.name u).trans (h.name u)
  status u := (h'.status u).trans (h.status u)
  from_ u := (h'.from_ u).trans (h.from_ u)
  localFlag u := (h'.localFlag u).trans (h.localFlag u)
  user u := (h'.user u).trans (h.user u)
  servptr u := (h'.servptr u).trans (h.servptr u)
  llist u := (h'.llist u).trans (h.llist u)
  serv u some := h'.serv u (h.serv u some)

theorem forest (h : SameGraph n n') : n'.forest = n.forest := by
  unfold Network.forest
  simp only [h.me, h.globalClientList, h.nextClient, h.clients, h.name, h.status, h.from_,
    h.servptr, h.llist]

theorem tree (h : SameGraph n n') (tree : n.Tree) : n'.Tree where
  ok := h.forest ▸ tree.ok
  top := by
    rw [h.servptr, h.me]
    exact tree.top
  mine u inside := by
    rw [h.globalClientList] at inside
    rw [h.localFlag, h.from_, h.me]
    exact tree.mine u inside
  serv u inside status := by
    rw [h.globalClientList] at inside
    rw [h.status] at status
    exact h.serv u (tree.serv u inside status)
  people u := by
    rw [h.user, h.globalClientList, h.status]
    exact tree.people u
  links u := by
    rw [h.servCptrList, h.globalClientList, h.status, h.localFlag]
    exact tree.links u
  links_nodup := by
    rw [h.servCptrList]
    exact tree.links_nodup

theorem settled (h : SameGraph n n') (settled : n.Settled) : n'.Settled := by
  intro u inside
  rw [h.globalClientList] at inside
  rw [h.status, h.from_]
  exact settled u inside

theorem sendLine (n : Network) (u : ClientId) (text : CStr) : SameGraph n (n.sendLine u text) := by
  constructor <;> first | rfl | exact fun _ => rfl | exact fun _ => id

theorem channels {n : Network} {s : Server} (same : Tables.SameDirectory n.toTables s.toTables) :
    SameGraph n { n with toServer := s } :=
  ⟨same.me, rfl, rfl, same.clients, same.servCptrList, same.nameOf, same.status, same.from_,
    same.localFlag, same.user, fun _ => rfl, fun _ => rfl, fun _ => id⟩

theorem setPeer {u : ClientId} {p : Peer} (servptr : p.servptr = (n.peer u).servptr)
    (lists : Ircd.llist p.serv = Ircd.llist (n.peer u).serv)
    (serv : (n.peer u).serv.isSome = true → p.serv.isSome = true) :
    SameGraph n (n.setPeer u p) := by
  refine ⟨rfl, rfl, rfl, rfl, rfl, fun _ => rfl, fun _ => rfl, fun _ => rfl, fun _ => rfl,
    fun _ => rfl, fun v => ?_, fun v => ?_, fun v some => ?_⟩ <;> by_cases here : v = u
  · subst here
    simpa [Network.setPeer] using servptr
  · simp [Network.setPeer, here]
  · subst here
    simpa [Network.setPeer] using lists
  · simp [Network.setPeer, here]
  · subst here
    simpa [Network.setPeer] using serv some
  · simpa [Network.setPeer, here] using some

end SameGraph

theorem kind_eq_root {s : Status} : s.kind = .root ↔ s = .me := by cases s <;> simp [Status.kind]

theorem kind_eq_inner {s : Status} : s.kind = .inner ↔ s = .server := by
  cases s <;> simp [Status.kind]

theorem kind_eq_leaf {s : Status} : s.kind = .leaf ↔ s = .client := by
  cases s <;> simp [Status.kind]

theorem isServer_iff (cl : Client) : cl.isServer = true ↔ cl.status = .server := by
  simp [Client.isServer]

theorem forest_setServ (n : Network) (p : ClientId) (sv : Serv) :
    (n.setServ p sv).forest = { n.forest with
      kids := fun k => Function.update (n.forest.kids k) p (llist (some sv) k) } := by
  refine Forest.ext rfl rfl rfl rfl rfl rfl ?_ ?_ rfl
  · funext u
    by_cases here : u = p
    · subst here
      simp [forest, setServ, setPeer]
    · simp [forest, setServ, setPeer, here]
  · funext k u
    by_cases here : u = p
    · subst here
      simp [forest, setServ, setPeer]
    · simp [forest, setServ, setPeer, here]

theorem forest_delFromLlist (n : Network) {u : ClientId} (notMe : (n.client u).status ≠ .me) :
    (n.delFromLlist u).forest = n.forest.unlink u := by
  have parent : n.forest.parent u = (n.peer u).servptr := by simp [forest, notMe]
  unfold delFromLlist Forest.unlink
  rw [parent]
  cases (n.peer u).servptr with
  | none => rfl
  | some p =>
    simp only
    cases serv : (n.peer p).serv with
    | none =>
      refine Forest.ext rfl rfl rfl rfl rfl rfl rfl ?_ rfl
      have empty : ∀ k, n.forest.kids k p = [] := by
        intro k
        cases k <;> simp [forest, llist, serv]
      simp only [empty, List.erase_nil]
      rw [← empty (n.forest.side u), Function.update_eq_self, Function.update_eq_self]
    | some sv =>
      have side : n.forest.side u =
          if (n.client u).isServer = true then .inner else .leaf := by
        simp only [Forest.side, forest, kind_eq_inner, isServer_iff]
      simp only [side]
      split <;>
      · rw [forest_setServ]
        refine Forest.ext rfl rfl rfl rfl rfl rfl rfl ?_ rfl
        funext k v
        by_cases here : v = p
        · subst here
          cases k <;> simp [forest, llist, serv]
        · cases k <;> simp [forest, here]

end Network

end Ircd
