import Ircd.Server.Roles

/-! The three role lists hold whom they should.

`Chains` speaks of the links in memory and `Rolls` of who is on which list; most writes
concern one of the two only.
-/

set_option autoImplicit false

namespace Ircd

open ChainTable

namespace RoleClient

def isLocalUser (cl : RoleClient) : Bool := cl.localFlag && cl.isClient

def isLink (cl : RoleClient) : Bool := cl.localFlag && cl.isServer

def isLocalOper (cl : RoleClient) : Bool := cl.localFlag && cl.isClient && cl.isAnOper

/-- A client has its `struct User`, and a connection no operator modes before it is one. -/
structure Sane (cl : RoleClient) : Prop where
  person : cl.isClient → cl.user
  named : cl.localFlag → cl.isClient → cl.name ≠ []
  plain : cl.localFlag → cl.isClient = false → cl.isAnOper = false

variable {cl : RoleClient}

theorem isLocalUser_eq_false (no : cl.isClient = false) : cl.isLocalUser = false := by
  simp [isLocalUser, no]

theorem isLink_eq_false (no : cl.isServer = false) : cl.isLink = false := by
  simp [isLink, no]

theorem isLocalOper_eq_false (no : cl.isClient = false) : cl.isLocalOper = false := by
  simp [isLocalOper, no]

end RoleClient

namespace Roles

structure Chains (b : Buckets Unit ClientId) (s o : ChainTable Unit ClientId)
    (locals servs opers : List ClientId) : Prop where
  localList : b.Holds fun _ => locals
  servList : ∃ chains, s.Files (fun _ => ()) id servs chains
  operList : ∃ chains, o.Files (fun _ => ()) id opers chains

variable {b : Buckets Unit ClientId} {locals servs opers : List ClientId} {u : ClientId}

theorem leaveLocal_eq (h : b.Holds fun _ => locals) {pre post : List ClientId}
    (here : locals = pre ++ u :: post) : leaveLocal b u = (b.unlink () u).clear u := by
  have double := h.double ()
  rw [here] at double
  have before : b.prev u = pre.getLast? := by rw [double.back.prev_eq, Option.or_none]
  have heads : (b.unlink () u).heads = fun _ =>
      Chain.headAfter (b.heads ()) (b.prev u) (b.next u) := by
    funext k
    exact Function.update_self () _ b.heads
  unfold leaveLocal Buckets.clear
  simp only [heads]
  unfold Buckets.unlink
  cases previous : b.prev u with
  | some p =>
    cases b.next u with
    | some q => rfl
    | none => rfl
  | none =>
    rw [previous] at before
    have first : pre = [] := List.getLast?_eq_none_iff.1 before.symm
    have head : b.heads () = some u := by
      rw [double.forth.head?_eq, first]
      rfl
    simp only [head, if_true]
    cases b.next u with
    | some q => rfl
    | none => rfl

theorem holds_leaveLocal (h : b.Holds fun _ => locals) (inside : u ∈ locals) :
    (leaveLocal b u).Holds fun _ => locals.erase u := by
  obtain ⟨pre, post, here⟩ := List.append_of_mem inside
  have nodup := h.nodup ()
  rw [here] at nodup
  have gone : u ∉ pre ++ post := (List.nodup_middle.1 nodup).notMem
  have first : u ∉ pre := fun also => gone (List.mem_append_left _ also)
  have rest : locals.erase u = pre ++ post := by
    rw [here, List.erase_append_right _ first, List.erase_cons_head]
  have lists : Function.update (fun _ : Unit => locals) () (pre ++ post) =
      fun _ => locals.erase u := by
    funext k
    rw [rest]
    exact Function.update_self ..
  rw [leaveLocal_eq h here, ← lists]
  exact (h.unlink here).clear fun k => by rw [lists, rest]; exact gone

theorem holds_linkLocal (h : b.Holds fun _ => locals) (fresh : u ∉ locals) :
    (b.link () u).Holds fun _ => u :: locals := by
  have lists : Function.update (fun _ : Unit => locals) () (u :: locals) = fun _ => u :: locals := by
    funext k
    exact Function.update_self ..
  exact lists ▸ h.link (k := ()) fun _ => fresh

/-- The lists hold whom they should, apart from what `u` has left already. -/
structure RollsBut (r : Roles) (u : Option ClientId) (locals servs opers : List ClientId) :
    Prop where
  roster : r.globalClientList.Nodup
  made : ∀ v ∈ r.globalClientList, v < r.nextClient
  sane : ∀ v ∈ r.globalClientList, (r.client v).Sane
  master : r.me ∈ r.globalClientList ∧ (r.client r.me).status = .me
  locals_nodup : locals.Nodup
  servs_nodup : servs.Nodup
  opers_nodup : opers.Nodup
  locals_iff : ∀ v, v ∈ locals ↔ some v ≠ u ∧ v ∈ r.globalClientList ∧ (r.client v).isLocalUser
  servs_iff : ∀ v, v ∈ servs ↔ some v ≠ u ∧ v ∈ r.globalClientList ∧ (r.client v).isLink
  opers_iff : ∀ v, v ∈ opers ↔ some v ≠ u ∧ v ∈ r.globalClientList ∧ (r.client v).isLocalOper

variable {r r' : Roles} {w : Option ClientId}

theorem RollsBut.same (h : RollsBut r w locals servs opers) (me : r'.me = r.me)
    (client : r'.client = r.client) (list : r'.globalClientList = r.globalClientList)
    (next : r'.nextClient = r.nextClient) : RollsBut r' w locals servs opers := by
  constructor
  · rw [list]
    exact h.roster
  · rw [list, next]
    exact h.made
  · rw [list, client]
    exact h.sane
  · rw [list, client, me]
    exact h.master
  · exact h.locals_nodup
  · exact h.servs_nodup
  · exact h.opers_nodup
  · rw [list, client]
    exact h.locals_iff
  · rw [list, client]
    exact h.servs_iff
  · rw [list, client]
    exact h.opers_iff

theorem RollsBut.ne_me (h : RollsBut r w locals servs opers) (notMe : (r.client u).status ≠ .me) :
    u ≠ r.me := by
  rintro rfl
  exact notMe h.master.2

theorem RollsBut.rewrite (h : RollsBut r none locals servs opers) {cl : RoleClient}
    {locals' servs' opers' : List ClientId} (here : u ∈ r.globalClientList)
    (notMe : (r.client u).status ≠ .me) (sane : cl.Sane)
    (nodup : locals'.Nodup ∧ servs'.Nodup ∧ opers'.Nodup)
    (self : (u ∈ locals' ↔ cl.isLocalUser) ∧ (u ∈ servs' ↔ cl.isLink) ∧
      (u ∈ opers' ↔ cl.isLocalOper))
    (others : ∀ v, v ≠ u → (v ∈ locals' ↔ v ∈ locals) ∧ (v ∈ servs' ↔ v ∈ servs) ∧
      (v ∈ opers' ↔ v ∈ opers)) :
    RollsBut (r.setClient u cl) none locals' servs' opers' := by
  have cell : ∀ v, (r.setClient u cl).client v = if v = u then cl else r.client v := fun v =>
    Function.update_apply ..
  have list : (r.setClient u cl).globalClientList = r.globalClientList := rfl
  constructor
  · exact h.roster
  · exact h.made
  · intro v inside
    rw [cell]
    split
    · exact sane
    · exact h.sane v inside
  · refine ⟨h.master.1, ?_⟩
    show ((r.setClient u cl).client r.me).status = .me
    rw [cell, if_neg (h.ne_me notMe).symm]
    exact h.master.2
  · exact nodup.1
  · exact nodup.2.1
  · exact nodup.2.2
  · intro v
    rw [cell, list]
    by_cases this : v = u
    · subst this
      simp [self.1, here]
    · rw [if_neg this, (others v this).1]
      exact h.locals_iff v
  · intro v
    rw [cell, list]
    by_cases this : v = u
    · subst this
      simp [self.2.1, here]
    · rw [if_neg this, (others v this).2.1]
      exact h.servs_iff v
  · intro v
    rw [cell, list]
    by_cases this : v = u
    · subst this
      simp [self.2.2, here]
    · rw [if_neg this, (others v this).2.2]
      exact h.opers_iff v

theorem RollsBut.write (h : RollsBut r none locals servs opers) {cl : RoleClient}
    (here : u ∈ r.globalClientList) (notMe : (r.client u).status ≠ .me) (sane : cl.Sane)
    (user : cl.isLocalUser = (r.client u).isLocalUser) (link : cl.isLink = (r.client u).isLink)
    (oper : cl.isLocalOper = (r.client u).isLocalOper) :
    RollsBut (r.setClient u cl) none locals servs opers := by
  refine h.rewrite here notMe sane ⟨h.locals_nodup, h.servs_nodup, h.opers_nodup⟩ ⟨?_, ?_, ?_⟩
    fun v _ => ⟨Iff.rfl, Iff.rfl, Iff.rfl⟩
  · rw [h.locals_iff, user]
    simp [here]
  · rw [h.servs_iff, link]
    simp [here]
  · rw [h.opers_iff, oper]
    simp [here]

theorem RollsBut.makeClient (h : RollsBut r none locals servs opers) (from_ : Option ClientId) :
    RollsBut (r.makeClient from_) none locals servs opers := by
  have fresh : r.nextClient ∉ r.globalClientList := fun inside =>
    Nat.lt_irrefl _ (h.made _ inside)
  have old : ∀ v, v ≠ r.nextClient → (r.makeClient from_).client v = r.client v := fun v other =>
    Function.update_of_ne other ..
  have new : (r.makeClient from_).client r.nextClient =
      { RoleClient.zero with localFlag := from_.isNone, from_ := from_.getD r.nextClient } :=
    Function.update_self ..
  have list : (r.makeClient from_).globalClientList = r.nextClient :: r.globalClientList := rfl
  have places : ∀ {p : RoleClient → Bool} {chain : List ClientId}, (∀ cl, cl.status = .unknown →
      p cl = false) → (∀ v, v ∈ chain ↔ some v ≠ none ∧ v ∈ r.globalClientList ∧ p (r.client v)) →
      ∀ v, v ∈ chain ↔ some v ≠ none ∧ v ∈ (r.makeClient from_).globalClientList ∧
        p ((r.makeClient from_).client v) := by
    intro p chain unknown iff v
    rw [iff, list, List.mem_cons]
    by_cases this : v = r.nextClient
    · subst this
      rw [new]
      simp [fresh, unknown, RoleClient.zero]
    · rw [old v this]
      simp [this]
  constructor
  · exact List.nodup_cons.2 ⟨fresh, h.roster⟩
  · intro v inside
    rcases List.mem_cons.1 inside with rfl | before
    · exact Nat.lt_succ_self _
    · exact Nat.lt_succ_of_lt (h.made v before)
  · intro v inside
    by_cases this : v = r.nextClient
    · rw [this, new]
      exact ⟨nofun, nofun, fun _ _ => rfl⟩
    · rw [old v this]
      exact h.sane v (List.mem_of_ne_of_mem this inside)
  · have other : r.me ≠ r.nextClient := fun same => fresh (same ▸ h.master.1)
    refine ⟨List.mem_cons_of_mem _ h.master.1, ?_⟩
    show ((r.makeClient from_).client r.me).status = .me
    rw [old r.me other]
    exact h.master.2
  · exact h.locals_nodup
  · exact h.servs_nodup
  · exact h.opers_nodup
  · exact places (fun cl unknown => by simp [RoleClient.isLocalUser, RoleClient.isClient, unknown])
      h.locals_iff
  · exact places (fun cl unknown => by simp [RoleClient.isLink, RoleClient.isServer, unknown])
      h.servs_iff
  · exact places (fun cl unknown => by simp [RoleClient.isLocalOper, RoleClient.isClient, unknown])
      h.opers_iff

theorem RollsBut.leave (h : RollsBut r none locals servs opers) (u : ClientId) :
    RollsBut r (some u) (locals.erase u) (servs.erase u) (opers.erase u) where
  roster := h.roster
  made := h.made
  sane := h.sane
  master := h.master
  locals_nodup := h.locals_nodup.erase u
  servs_nodup := h.servs_nodup.erase u
  opers_nodup := h.opers_nodup.erase u
  locals_iff := fun v => by
    rw [h.locals_nodup.mem_erase_iff, h.locals_iff]
    simp
  servs_iff := fun v => by
    rw [h.servs_nodup.mem_erase_iff, h.servs_iff]
    simp
  opers_iff := fun v => by
    rw [h.opers_nodup.mem_erase_iff, h.opers_iff]
    simp

theorem updateClientExitStats_fields :
    (r.updateClientExitStats u).client = r.client ∧ (r.updateClientExitStats u).me = r.me ∧
    (r.updateClientExitStats u).globalClientList = r.globalClientList ∧
    (r.updateClientExitStats u).nextClient = r.nextClient ∧
    (r.updateClientExitStats u).localCptrList = r.localCptrList ∧
    (r.updateClientExitStats u).servCptrList = r.servCptrList ∧
    (r.updateClientExitStats u).operCptrList = r.operCptrList := by
  unfold updateClientExitStats
  dsimp only
  split <;> exact ⟨rfl, rfl, rfl, rfl, rfl, rfl, rfl⟩

/-- What `exit_one_client` leaves of the lists and of who is there. -/
structure Exited (r r' : Roles) (u : ClientId) : Prop where
  me : r'.me = r.me
  nextClient : r'.nextClient = r.nextClient
  localCptrList : r'.localCptrList = r.localCptrList
  servCptrList : r'.servCptrList = r.servCptrList
  operCptrList : r'.operCptrList = r.operCptrList
  globalClientList : r'.globalClientList =
    if (r.client u).status = .me then r.globalClientList else r.globalClientList.erase u
  others : ∀ v, v ≠ u → r'.client v = r.client v
  localFlag : ∀ v, (r'.client v).localFlag = (r.client v).localFlag
  status : ∀ v, (r'.client v).status = (r.client v).status

theorem exited_exitOneClient (r : Roles) (u : ClientId) : Exited r (r.exitOneClient u) u := by
  unfold exitOneClient
  split
  · next stays =>
    refine ⟨rfl, rfl, rfl, rfl, rfl, ?_, fun _ _ => rfl, fun _ => rfl, fun _ => rfl⟩
    split
    · rfl
    · next notMe => exact (List.erase_of_not_mem (stays.resolve_left notMe)).symm
  · next goes =>
    obtain ⟨client, me, list, next, locals, servs, opers⟩ :=
      updateClientExitStats_fields (r := r) (u := u)
    have cell : ∀ v, Function.update (r.updateClientExitStats u).client u
        { (r.updateClientExitStats u).client u with user := false } v =
          if v = u then { r.client u with user := false } else r.client v := by
      intro v
      rw [client]
      exact Function.update_apply ..
    refine ⟨me, next, locals, servs, opers, ?_, fun v other => ?_, fun v => ?_, fun v => ?_⟩
    · rw [if_neg fun isMe => goes (.inl isMe)]
      exact congrArg (·.erase u) list
    · exact (cell v).trans (if_neg other)
    · refine (congrArg RoleClient.localFlag (cell v)).trans ?_
      split
      · next same => rw [same]
      · rfl
    · refine (congrArg RoleClient.status (cell v)).trans ?_
      split
      · next same => rw [same]
      · rfl

theorem Exited.mem_list (h : Exited r r' u) (roster : r.globalClientList.Nodup)
    (notMe : (r.client u).status ≠ .me) {v : ClientId} :
    v ∈ r'.globalClientList ↔ v ≠ u ∧ v ∈ r.globalClientList := by
  rw [h.globalClientList, if_neg notMe, roster.mem_erase_iff]

theorem RollsBut.exited (h : RollsBut r w locals servs opers) (gone : Exited r r' u)
    (off : u ∉ locals ∧ u ∉ servs ∧ u ∉ opers) {w' : Option ClientId}
    (left : ∀ v, v ≠ u → (some v ≠ w' ↔ some v ≠ w)) (notMe : (r.client u).status ≠ .me) :
    RollsBut r' w' locals servs opers := by
  have listed : ∀ v, v ∈ r'.globalClientList ↔ v ≠ u ∧ v ∈ r.globalClientList := fun v =>
    gone.mem_list h.roster notMe
  have places : ∀ {p : RoleClient → Bool} {chain : List ClientId}, u ∉ chain →
      (∀ v, v ∈ chain ↔ some v ≠ w ∧ v ∈ r.globalClientList ∧ p (r.client v)) →
      ∀ v, v ∈ chain ↔ some v ≠ w' ∧ v ∈ r'.globalClientList ∧ p (r'.client v) := by
    intro p chain outside iff v
    rw [listed]
    by_cases this : v = u
    · subst this
      simp [outside]
    · rw [iff, gone.others v this, left v this, and_iff_right this]
  constructor
  · rw [gone.globalClientList, if_neg notMe]
    exact h.roster.erase u
  · intro v inside
    rw [gone.nextClient]
    exact h.made v ((listed v).1 inside).2
  · intro v inside
    obtain ⟨other, here⟩ := (listed v).1 inside
    rw [gone.others v other]
    exact h.sane v here
  · rw [gone.me, gone.status]
    exact ⟨(listed _).2 ⟨(h.ne_me notMe).symm, h.master.1⟩, h.master.2⟩
  · exact h.locals_nodup
  · exact h.servs_nodup
  · exact h.opers_nodup
  · exact places off.1 h.locals_iff
  · exact places off.2.1 h.servs_iff
  · exact places off.2.2 h.opers_iff

theorem leaveRoleLists_fields (r : Roles) (u : ClientId) :
    (r.leaveRoleLists u).client = r.client ∧ (r.leaveRoleLists u).me = r.me ∧
    (r.leaveRoleLists u).globalClientList = r.globalClientList ∧
    (r.leaveRoleLists u).nextClient = r.nextClient ∧
    (r.leaveRoleLists u).localCptrList =
      (if (r.client u).localFlag && (r.client u).isPerson then leaveLocal r.localCptrList u
        else r.localCptrList) ∧
    (r.leaveRoleLists u).servCptrList =
      (if (r.client u).localFlag && (r.client u).isServer then
        r.servCptrList.del r.nextClient () u else r.servCptrList) ∧
    (r.leaveRoleLists u).operCptrList =
      (if (r.client u).localFlag && (r.client u).isAnOper then
        r.operCptrList.del r.nextClient () u else r.operCptrList) := by
  unfold leaveRoleLists
  dsimp only
  cases (r.client u).localFlag
  · exact ⟨rfl, rfl, rfl, rfl, rfl, rfl, rfl⟩
  · cases (r.client u).isAnOper <;> cases (r.client u).isClient <;>
      cases (r.client u).isPerson <;> cases (r.client u).isServer <;>
      exact ⟨rfl, rfl, rfl, rfl, rfl, rfl, rfl⟩

theorem RollsBut.length_le (h : RollsBut r w locals servs opers) {chain : List ClientId}
    (nodup : chain.Nodup) (listed : ∀ v ∈ chain, v ∈ r.globalClientList) :
    chain.length ≤ r.nextClient :=
  length_le_of_lt nodup fun v inside => h.made v (listed v inside)

theorem files_del {t : ChainTable Unit ClientId} {chain : List ClientId} {fuel : Nat}
    (h : ∃ chains, t.Files (fun _ => ()) id chain chains) (nodup : chain.Nodup)
    (enough : chain.length ≤ fuel) :
    ∃ chains, (t.del fuel () u).Files (fun _ => ()) id (chain.erase u) chains := by
  obtain ⟨chains, files⟩ := h
  exact files.del nodup enough

theorem Chains.leave (h : Chains r.localCptrList r.servCptrList r.operCptrList locals servs opers)
    (rolls : RollsBut r none locals servs opers) (here : u ∈ r.globalClientList) :
    Chains (r.leaveRoleLists u).localCptrList (r.leaveRoleLists u).servCptrList
      (r.leaveRoleLists u).operCptrList (locals.erase u) (servs.erase u) (opers.erase u) := by
  obtain ⟨-, -, -, -, local_, serv, oper⟩ := leaveRoleLists_fields r u
  have sane := rolls.sane u here
  constructor
  · rw [local_]
    split
    · next person =>
      have isLocal : (r.client u).isLocalUser = true := by
        simp only [RoleClient.isPerson, Bool.and_eq_true] at person
        simp [RoleClient.isLocalUser, person]
      exact holds_leaveLocal h.localList ((rolls.locals_iff u).2 ⟨nofun, here, isLocal⟩)
    · next nobody =>
      have outside : u ∉ locals := by
        intro inside
        have isLocal := ((rolls.locals_iff u).1 inside).2.2
        simp only [RoleClient.isLocalUser, Bool.and_eq_true] at isLocal
        exact nobody (by simp [RoleClient.isPerson, isLocal, sane.person isLocal.2])
      rw [List.erase_of_not_mem outside]
      exact h.localList
  · rw [serv]
    split
    · have short := rolls.length_le rolls.servs_nodup fun v inside =>
        ((rolls.servs_iff v).1 inside).2.1
      exact files_del h.servList rolls.servs_nodup short
    · next noLink =>
      have outside : u ∉ servs := fun inside => noLink ((rolls.servs_iff u).1 inside).2.2
      rw [List.erase_of_not_mem outside]
      exact h.servList
  · rw [oper]
    split
    · have short := rolls.length_le rolls.opers_nodup fun v inside =>
        ((rolls.opers_iff v).1 inside).2.1
      exact files_del h.operList rolls.opers_nodup short
    · next noOper =>
      have outside : u ∉ opers := by
        intro inside
        have isOper := ((rolls.opers_iff u).1 inside).2.2
        simp only [RoleClient.isLocalOper, Bool.and_eq_true] at isOper
        exact noOper (by simp [isOper])
      rw [List.erase_of_not_mem outside]
      exact h.operList

def Listed (r : Roles) : Prop :=
  ∃ locals servs opers,
    Chains r.localCptrList r.servCptrList r.operCptrList locals servs opers ∧
    RollsBut r none locals servs opers

theorem RollsBut.exitRemote (h : RollsBut r w locals servs opers)
    (remote : (r.client u).localFlag = false) :
    RollsBut (r.exitOneClient u) w locals servs opers := by
  by_cases isMe : (r.client u).status = .me
  · unfold exitOneClient
    rwa [if_pos (.inl isMe)]
  · refine h.exited (exited_exitOneClient r u) ⟨fun inside => ?_, fun inside => ?_,
      fun inside => ?_⟩ (fun _ _ => Iff.rfl) isMe
    · have isLocal := ((h.locals_iff u).1 inside).2.2
      simp [RoleClient.isLocalUser, remote] at isLocal
    · have isLink := ((h.servs_iff u).1 inside).2.2
      simp [RoleClient.isLink, remote] at isLink
    · have isOper := ((h.opers_iff u).1 inside).2.2
      simp [RoleClient.isLocalOper, remote] at isOper

theorem exitBehind_spec {behind : List ClientId} (h : RollsBut r w locals servs opers)
    (remote : ∀ v ∈ behind, (r.client v).localFlag = false) :
    RollsBut (behind.foldl exitOneClient r) w locals servs opers ∧
    (behind.foldl exitOneClient r).localCptrList = r.localCptrList ∧
    (behind.foldl exitOneClient r).servCptrList = r.servCptrList ∧
    (behind.foldl exitOneClient r).operCptrList = r.operCptrList ∧
    (behind.foldl exitOneClient r).nextClient = r.nextClient ∧
    ∀ v, ((behind.foldl exitOneClient r).client v).status = (r.client v).status := by
  induction behind generalizing r with
  | nil => exact ⟨h, rfl, rfl, rfl, rfl, fun _ => rfl⟩
  | cons v behind ih =>
    have gone := exited_exitOneClient r v
    have first := h.exitRemote (remote v List.mem_cons_self)
    obtain ⟨rolls, local_, serv, oper, next, status⟩ := ih first fun x inside => by
      rw [gone.localFlag]
      exact remote x (List.mem_cons_of_mem v inside)
    exact ⟨rolls, local_.trans gone.localCptrList, serv.trans gone.servCptrList,
      oper.trans gone.operCptrList, next.trans gone.nextClient,
      fun x => (status x).trans (gone.status x)⟩

theorem RollsBut.exitSelf (h : RollsBut r (some u) locals servs opers)
    (notMe : (r.client u).status ≠ .me) : RollsBut (r.exitOneClient u) none locals servs opers := by
  refine h.exited (exited_exitOneClient r u) ⟨fun inside => ?_, fun inside => ?_, fun inside => ?_⟩
    (fun v other => ?_) notMe
  · exact ((h.locals_iff u).1 inside).1 rfl
  · exact ((h.servs_iff u).1 inside).1 rfl
  · exact ((h.opers_iff u).1 inside).1 rfl
  · simp [other]

theorem RollsBut.forget (h : RollsBut r (some u) locals servs opers)
    (isMe : (r.client u).status = .me) : RollsBut r none locals servs opers := by
  have places : ∀ {p : RoleClient → Bool} {chain : List ClientId}, p (r.client u) = false →
      (∀ v, v ∈ chain ↔ some v ≠ some u ∧ v ∈ r.globalClientList ∧ p (r.client v)) →
      ∀ v, v ∈ chain ↔ some v ≠ none ∧ v ∈ r.globalClientList ∧ p (r.client v) := by
    intro p chain none iff v
    rw [iff]
    by_cases this : v = u
    · subst this
      simp [none]
    · simp [this]
  exact { h with
    locals_iff := places (by simp [RoleClient.isLocalUser, RoleClient.isClient, isMe]) h.locals_iff
    servs_iff := places (by simp [RoleClient.isLink, RoleClient.isServer, isMe]) h.servs_iff
    opers_iff := places (by simp [RoleClient.isLocalOper, RoleClient.isClient, isMe]) h.opers_iff }

theorem Listed.exitClient (h : Listed r) (u : ClientId) (behind : List ClientId) :
    Listed (r.exitClient u behind) := by
  obtain ⟨locals, servs, opers, chains, rolls⟩ := h
  unfold Roles.exitClient
  split
  · exact ⟨locals, servs, opers, chains, rolls⟩
  next here =>
  have here : u ∈ r.globalClientList := not_not.1 here
  have off := chains.leave rolls here
  have left := rolls.leave u
  obtain ⟨client, me, list, next, -⟩ := leaveRoleLists_fields r u
  have left := left.same me client list next
  generalize r.leaveRoleLists u = r₁ at client off left ⊢
  dsimp only
  -- what is behind a server is remote and on none of the lists
  have gone : ∃ r₂ : Roles, RollsBut r₂ (some u) (locals.erase u) (servs.erase u) (opers.erase u) ∧
      Chains r₂.localCptrList r₂.servCptrList r₂.operCptrList (locals.erase u) (servs.erase u)
        (opers.erase u) ∧ (r₂.client u).status = (r₁.client u).status ∧
      (if (r₁.client u).isServer then
        (behind.filter fun u => !(r₁.client u).localFlag).foldl exitOneClient r₁ else r₁) = r₂ := by
    split
    · have remote : ∀ v ∈ behind.filter fun u => !(r₁.client u).localFlag,
          (r₁.client v).localFlag = false := by
        intro v inside
        simpa using (List.mem_filter.1 inside).2
      obtain ⟨rolls₂, local_, serv, oper, -, status⟩ := exitBehind_spec left remote
      refine ⟨_, rolls₂, ?_, status u, rfl⟩
      rw [local_, serv, oper]
      exact off
    · exact ⟨r₁, left, off, rfl, rfl⟩
  obtain ⟨r₂, rolls₂, chains₂, status, same⟩ := gone
  rw [same]
  by_cases isMe : (r₂.client u).status = .me
  · unfold exitOneClient
    rw [if_pos (.inl isMe)]
    exact ⟨_, _, _, chains₂, rolls₂.forget isMe⟩
  · have exited := exited_exitOneClient r₂ u
    refine ⟨_, _, _, ?_, rolls₂.exitSelf isMe⟩
    rw [exited.localCptrList, exited.servCptrList, exited.operCptrList]
    exact chains₂

theorem Listed.same (h : Listed r) (me : r'.me = r.me) (client : r'.client = r.client)
    (list : r'.globalClientList = r.globalClientList) (next : r'.nextClient = r.nextClient)
    (local_ : r'.localCptrList = r.localCptrList) (serv : r'.servCptrList = r.servCptrList)
    (oper : r'.operCptrList = r.operCptrList) : Listed r' := by
  obtain ⟨locals, servs, opers, chains, rolls⟩ := h
  refine ⟨locals, servs, opers, ?_, rolls.same me client list next⟩
  rw [local_, serv, oper]
  exact chains

theorem Listed.setCount (h : Listed r) (count : Tally) : Listed (r.setCount count) :=
  h.same rfl rfl rfl rfl rfl rfl rfl

theorem recount_fields (r : Roles) : r.recount.me = r.me ∧ r.recount.client = r.client ∧
    r.recount.globalClientList = r.globalClientList ∧ r.recount.nextClient = r.nextClient ∧
    r.recount.localCptrList = r.localCptrList ∧ r.recount.servCptrList = r.servCptrList ∧
    r.recount.operCptrList = r.operCptrList := by
  unfold recount
  split <;> exact ⟨rfl, rfl, rfl, rfl, rfl, rfl, rfl⟩

theorem Listed.recount (h : Listed r) : Listed r.recount := by
  obtain ⟨me, client, list, next, local_, serv, oper⟩ := recount_fields r
  exact h.same me client list next local_ serv oper

theorem Listed.write (h : Listed r) {cl : RoleClient} (here : u ∈ r.globalClientList)
    (notMe : (r.client u).status ≠ .me) (sane : cl.Sane)
    (user : cl.isLocalUser = (r.client u).isLocalUser) (link : cl.isLink = (r.client u).isLink)
    (oper : cl.isLocalOper = (r.client u).isLocalOper) : Listed (r.setClient u cl) := by
  obtain ⟨locals, servs, opers, chains, rolls⟩ := h
  exact ⟨locals, servs, opers, chains, rolls.write here notMe sane user link oper⟩

theorem Listed.sane (h : Listed r) (here : u ∈ r.globalClientList) : (r.client u).Sane := by
  obtain ⟨_, _, _, _, rolls⟩ := h
  exact rolls.sane u here

theorem Listed.writeRemote (h : Listed r) {cl : RoleClient} (here : u ∈ r.globalClientList)
    (notMe : (r.client u).status ≠ .me) (remote : (r.client u).localFlag = false)
    (stays : cl.localFlag = false) (person : cl.isClient → cl.user) :
    Listed (r.setClient u cl) := by
  have off : ¬cl.localFlag := by simp [stays]
  refine h.write here notMe ⟨person, fun isLocal => absurd isLocal off,
    fun isLocal => absurd isLocal off⟩ ?_ ?_ ?_
  · simp [RoleClient.isLocalUser, remote, stays]
  · simp [RoleClient.isLink, remote, stays]
  · simp [RoleClient.isLocalOper, remote, stays]

theorem Listed.makeClient (h : Listed r) (from_ : Option ClientId) :
    Listed (r.makeClient from_) := by
  obtain ⟨locals, servs, opers, chains, rolls⟩ := h
  have fresh : r.nextClient ∉ r.globalClientList := fun inside =>
    Nat.lt_irrefl _ (rolls.made _ inside)
  obtain ⟨serv, servFiles⟩ := chains.servList
  obtain ⟨oper, operFiles⟩ := chains.operList
  refine ⟨locals, servs, opers, ⟨?_, ⟨serv, ?_⟩, ⟨oper, ?_⟩⟩, rolls.makeClient from_⟩
  · exact chains.localList.clear fun _ inside => fresh ((rolls.locals_iff _).1 inside).2.1
  · exact servFiles.clear fun inside => fresh ((rolls.servs_iff _).1 inside).2.1
  · exact operFiles.clear fun inside => fresh ((rolls.opers_iff _).1 inside).2.1

theorem findServer_me (rolls : RollsBut r none locals servs opers) :
    r.findServer (r.nameOf r.me) ≠ none := by
  have accepted : (((r.client r.me).isServer || (r.client r.me).status == .me) &&
      irccmp (r.nameOf r.me) (r.nameOf r.me) == .eq) = true := by
    simp [rolls.master.2]
  unfold findServer
  dsimp only
  split
  · exact Option.some_ne_none _
  · next none => exact absurd accepted (List.find?_eq_none.1 none r.me rolls.master.1)

theorem Listed.enrolLocal (h : Listed r) {cptr : ClientId} {server : CStr}
    (here : u ∈ r.globalClientList) (notMe : (r.client u).status ≠ .me)
    (notServer : (r.client u).isServer = false) (notClient : (r.client u).isClient = false)
    (isLocal : (r.client u).localFlag = true) (user : (r.client u).user = true)
    (named : (r.client u).name ≠ []) (mine : server = r.nameOf r.me) :
    Listed (r.enrolUser cptr u server) := by
  obtain ⟨locals, servs, opers, chains, rolls⟩ := h
  have plain := (rolls.sane u here).plain isLocal notClient
  have off : u ∉ locals ∧ u ∉ servs ∧ u ∉ opers := by
    refine ⟨fun inside => ?_, fun inside => ?_, fun inside => ?_⟩
    · have is := ((rolls.locals_iff u).1 inside).2.2
      simp [RoleClient.isLocalUser, notClient] at is
    · have is := ((rolls.servs_iff u).1 inside).2.2
      simp [RoleClient.isLink, notServer] at is
    · have is := ((rolls.opers_iff u).1 inside).2.2
      simp [RoleClient.isLocalOper, notClient] at is
  have entered : RollsBut (r.setClient u { r.client u with status := .client }) none
      (u :: locals) servs opers := by
    refine rolls.rewrite here notMe ⟨fun _ => user, fun _ _ => named, fun _ no => by cases no⟩
      ⟨List.nodup_cons.2 ⟨off.1, rolls.locals_nodup⟩, rolls.servs_nodup, rolls.opers_nodup⟩
      ⟨?_, ?_, ?_⟩ fun v other => ⟨by simp [other], Iff.rfl, Iff.rfl⟩
    · simp [RoleClient.isLocalUser, RoleClient.isClient, isLocal]
    · simp [off, RoleClient.isLink, RoleClient.isServer]
    · have still : ({ r.client u with status := .client } : RoleClient).isAnOper = false := plain
      simp [off, RoleClient.isLocalOper, still]
  have name : server = (r.setClient u { r.client u with status := .client }).nameOf r.me := by
    rw [mine, nameOf, nameOf]
    exact congrArg RoleClient.name (Function.update_of_ne (rolls.ne_me notMe).symm ..).symm
  have known := findServer_me entered
  have flag : ((r.setClient u { r.client u with status := .client }).client u).localFlag = true := by
    simp [setClient, isLocal]
  have links : Chains (r.setClient u { r.client u with status := .client }).localCptrList
      (r.setClient u { r.client u with status := .client }).servCptrList
      (r.setClient u { r.client u with status := .client }).operCptrList locals servs opers := chains
  have me : (r.setClient u { r.client u with status := .client }).me = r.me := rfl
  unfold Roles.enrolUser
  dsimp only
  generalize r.setClient u { r.client u with status := .client } = r₁
    at entered name known flag links me ⊢
  rw [← me] at name
  rw [← name] at known
  split
  · next ghost => exact absurd ghost known
  · rw [if_pos (by exact flag)]
    let count : Tally := { r₁.count with total := r₁.count.total + 1 }
    have counted : Chains (r₁.setCount count).localCptrList (r₁.setCount count).servCptrList
        (r₁.setCount count).operCptrList locals servs opers := links
    have entered : RollsBut (r₁.setCount count) none (u :: locals) servs opers :=
      entered.same rfl rfl rfl rfl
    generalize r₁.setCount count = r₂ at counted entered ⊢
    obtain ⟨me, client, list, next, local_, serv, oper⟩ := recount_fields r₂
    refine ⟨u :: locals, servs, opers, ⟨?_, ?_, ?_⟩, entered.same me client list next⟩
    · rw [local_]
      exact holds_linkLocal counted.localList off.1
    · exact serv.symm ▸ counted.servList
    · exact oper.symm ▸ counted.operList

theorem Listed.enrolRemote (h : Listed r) {cptr : ClientId} {server : CStr}
    (here : u ∈ r.globalClientList) (notMe : (r.client u).status ≠ .me)
    (remote : (r.client u).localFlag = false) (user : (r.client u).user = true) :
    Listed (r.enrolUser cptr u server) := by
  have entered : Listed (r.setClient u { r.client u with status := .client }) :=
    h.writeRemote here notMe remote remote fun _ => user
  have flag : ((r.setClient u { r.client u with status := .client }).client u).localFlag = false := by
    simp [setClient, remote]
  unfold Roles.enrolUser
  dsimp only
  generalize r.setClient u { r.client u with status := .client } = r₁ at entered flag ⊢
  split
  · exact entered.exitClient u []
  · have counted := entered.setCount { r₁.count with total := r₁.count.total + 1 }
    split
    · next isLocal =>
      have still : (r₁.client u).localFlag = true := isLocal
      rw [flag] at still
      cases still
    · split
      · exact counted.exitClient u []
      · exact counted

theorem Listed.registerUser (h : Listed r) {cptr : ClientId} {server : CStr}
    {outcome : Registration} (here : u ∈ r.globalClientList) (notMe : (r.client u).status ≠ .me)
    (user : (r.client u).user = true)
    (mine : (r.client u).localFlag = true → (r.client u).isServer = false ∧
      (r.client u).isClient = false ∧ (r.client u).name ≠ [] ∧ server = r.nameOf r.me) :
    Listed (r.registerUser cptr u server outcome) := by
  unfold Roles.registerUser
  split
  · next isLocal =>
    obtain ⟨notServer, notClient, named, server⟩ := mine isLocal
    cases outcome with
    | refused => exact h.exitClient u []
    | held => exact h
    | accepted =>
      have plain := (h.sane here).plain isLocal notClient
      have written : Listed (r.setClient u { r.client u with
          umodes := (r.client u).umodes.write .invisible true }) := by
        exact h.write here notMe ⟨fun _ => user, fun _ _ => named, fun _ _ => plain⟩ rfl rfl rfl
      have cell : (r.setClient u { r.client u with
          umodes := (r.client u).umodes.write .invisible true }).client u =
          { r.client u with umodes := (r.client u).umodes.write .invisible true } := by
        simp [setClient]
      have name : (r.setClient u { r.client u with
          umodes := (r.client u).umodes.write .invisible true }).nameOf r.me = r.nameOf r.me := by
        obtain ⟨_, _, _, _, rolls⟩ := h
        exact congrArg RoleClient.name (Function.update_of_ne (rolls.ne_me notMe).symm ..)
      have me : (r.setClient u { r.client u with
          umodes := (r.client u).umodes.write .invisible true }).me = r.me := rfl
      have list : (r.setClient u { r.client u with
          umodes := (r.client u).umodes.write .invisible true }).globalClientList =
          r.globalClientList := rfl
      dsimp only
      generalize r.setClient u { r.client u with
        umodes := (r.client u).umodes.write .invisible true } = r₁ at written cell name me list ⊢
      apply (written.setCount _).enrolLocal
      · exact list.symm ▸ here
      · exact (congrArg RoleClient.status cell).trans_ne notMe
      · exact (congrArg RoleClient.isServer cell).trans notServer
      · exact (congrArg RoleClient.isClient cell).trans notClient
      · exact (congrArg RoleClient.localFlag cell).trans isLocal
      · exact (congrArg RoleClient.user cell).trans user
      · exact (congrArg RoleClient.name cell).trans_ne named
      · exact server.trans (name.symm.trans (congrArg r₁.nameOf me.symm))
  · next remote => exact h.enrolRemote here notMe (by simpa using remote) user

end Roles

end Ircd
