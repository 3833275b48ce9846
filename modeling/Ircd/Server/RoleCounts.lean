import Ircd.Server.RoleRuns
import Mathlib.Data.List.Find

/-! `Count` against a recount of the client list.

For each of its members `CountField.share` is what one client adds, and `CountsBut r d` says by
how much the members are ahead of the list. A write to a client moves `d` by the share that
it changes, a write to `Count` moves it by what is written.
-/

set_option autoImplicit false

namespace Ircd

inductive CountField where
  | total
  | invisi
  | oper
  | local_
  deriving DecidableEq, Repr

def Tally.get (t : Tally) : CountField → Int
  | .total => t.total
  | .invisi => t.invisi
  | .oper => t.oper
  | .local_ => t.local_

namespace CountField

def counts : CountField → RoleClient → Bool
  | .total, cl => cl.isClient
  | .invisi, cl => cl.isClient && cl.umodes .invisible
  | .oper, cl => cl.isClient && cl.isAnOper
  | .local_, cl => cl.isClient && cl.localFlag

def share (k : CountField) (cl : RoleClient) : Int := if k.counts cl then 1 else 0

variable {k : CountField} {cl : RoleClient}

theorem counts_eq_false (no : cl.isClient = false) : k.counts cl = false := by
  cases k <;> simp [counts, no]

theorem share_eq_zero (no : cl.isClient = false) : k.share cl = 0 := by
  rw [share, counts_eq_false no]
  rfl

theorem share_local_remote (remote : cl.localFlag = false) : local_.share cl = 0 := by
  simp [share, counts, remote]

end CountField

namespace Roles

variable {r r' : Roles} {u cptr : ClientId} {d d' : CountField → Int}

/-- The members of `Count` are ahead of a recount by `d`. -/
def CountsBut (r : Roles) (d : CountField → Int) : Prop :=
  ∀ k, r.count.get k = r.census k.counts + d k

theorem CountsBut.congr (h : CountsBut r d) (same : ∀ k, d' k = d k) : CountsBut r d' := by
  intro k
  rw [same]
  exact h k

theorem CountsBut.same (h : CountsBut r d) (count : r'.count = r.count)
    (client : r'.client = r.client) (list : r'.globalClientList = r.globalClientList) :
    CountsBut r' d := by
  intro k
  rw [count, census, list, client]
  exact h k

theorem CountsBut.setCount (h : CountsBut r d) (t : Tally) :
    CountsBut (r.setCount t) fun k => d k + (t.get k - r.count.get k) := by
  intro k
  have before := h k
  have written : (r.setCount t).count.get k = t.get k := rfl
  have census : (r.setCount t).census k.counts = r.census k.counts := rfl
  rw [written, census]
  dsimp only
  omega

theorem census_split (p : RoleClient → Bool) (nodup : r.globalClientList.Nodup)
    (here : u ∈ r.globalClientList) :
    r.census p = (r.globalClientList.erase u).countP (fun v => p (r.client v)) +
      if p (r.client u) then 1 else 0 := by
  obtain ⟨pre, post, list⟩ := List.append_of_mem here
  rw [list] at nodup
  have first : u ∉ pre := fun also =>
    (List.nodup_middle.1 nodup).notMem (List.mem_append_left _ also)
  rw [census, list, List.erase_append_right _ first, List.erase_cons_head, List.countP_append,
    List.countP_append, List.countP_cons]
  omega

theorem CountsBut.setClient (h : CountsBut r d) (cl : RoleClient) (nodup : r.globalClientList.Nodup)
    (here : u ∈ r.globalClientList) :
    CountsBut (r.setClient u cl) fun k => d k + k.share (r.client u) - k.share cl := by
  intro k
  have before := h k
  have count : (r.setClient u cl).count = r.count := rfl
  have list : (r.setClient u cl).globalClientList = r.globalClientList := rfl
  have apart : (r.globalClientList.erase u).countP (fun v => k.counts ((r.setClient u cl).client v)) =
      (r.globalClientList.erase u).countP fun v => k.counts (r.client v) := by
    refine List.countP_congr fun v inside => ?_
    rw [setClient_of_ne r (nodup.mem_erase_iff.1 inside).1]
  rw [census_split k.counts nodup here] at before
  rw [count, census_split k.counts (u := u) (by exact nodup) (by exact here), list, apart,
    setClient_self]
  unfold CountField.share
  push_cast at before ⊢
  omega

theorem CountsBut.rewrite (h : CountsBut r d) {cl : RoleClient} (nodup : r.globalClientList.Nodup)
    (here : u ∈ r.globalClientList) (same : ∀ k : CountField, k.share cl = k.share (r.client u)) :
    CountsBut (r.setClient u cl) d :=
  (h.setClient cl nodup here).congr fun k => by rw [same]; omega

theorem CountsBut.makeClient (h : CountsBut r d) (from_ : Option ClientId)
    (fresh : r.nextClient ∉ r.globalClientList) : CountsBut (r.makeClient from_) d := by
  intro k
  have before := h k
  have count : (r.makeClient from_).count = r.count := rfl
  have list : (r.makeClient from_).globalClientList = r.nextClient :: r.globalClientList := rfl
  have none : k.counts ((r.makeClient from_).client r.nextClient) = false := by
    rw [makeClient_client]
    exact CountField.counts_eq_false rfl
  have others : r.globalClientList.countP (fun v => k.counts ((r.makeClient from_).client v)) =
      r.census k.counts := by
    refine List.countP_congr fun v inside => ?_
    have other : v ≠ r.nextClient := fun same => fresh (same ▸ inside)
    have old : (r.makeClient from_).client v = r.client v := Function.update_of_ne other ..
    rw [old]
  have census : (r.makeClient from_).census k.counts = r.census k.counts := by
    rw [Roles.census, list, List.countP_cons, others, none]
    rfl
  rw [count, census]
  exact before

theorem updateClientExitStats_count (k : CountField) :
    (r.updateClientExitStats u).count.get k =
      r.count.get k - if k = .local_ then 0 else k.share (r.client u) := by
  unfold updateClientExitStats
  dsimp only
  split
  · next isClient =>
    have isClient : (r.client u).isClient = true := isClient
    cases k with
    | total => simp [Roles.setCount, Tally.get, CountField.share, CountField.counts, isClient]
    | invisi =>
      cases mode : (r.client u).umodes .invisible <;>
        simp [Roles.setCount, Tally.get, CountField.share, CountField.counts, isClient, mode]
    | oper =>
      cases mode : (r.client u).isAnOper <;>
        simp [Roles.setCount, Tally.get, CountField.share, CountField.counts, isClient, mode]
    | local_ => simp [Roles.setCount, Tally.get]
  · next notClient =>
    have notClient : (r.client u).isClient = false := by simpa using notClient
    rw [CountField.share_eq_zero notClient]
    simp

theorem CountsBut.exitOne (h : CountsBut r d) (nodup : r.globalClientList.Nodup)
    (here : u ∈ r.globalClientList) (notMe : (r.client u).status ≠ .me) :
    CountsBut (r.exitOneClient u) fun k =>
      d k + if k = .local_ then k.share (r.client u) else 0 := by
  intro k
  have before := h k
  have goes : ¬((r.client u).status = .me ∨ u ∉ r.globalClientList) := by simp [notMe, here]
  have exited := exited_exitOneClient r u
  have count : (r.exitOneClient u).count = (r.updateClientExitStats u).count := by
    rw [exitOneClient, if_neg goes]
  have census : (r.exitOneClient u).census k.counts =
      (r.globalClientList.erase u).countP fun v => k.counts (r.client v) := by
    rw [Roles.census, exited.globalClientList, if_neg notMe]
    refine List.countP_congr fun v inside => ?_
    rw [exited.others v (nodup.mem_erase_iff.1 inside).1]
  rw [census_split k.counts nodup here] at before
  rw [count, updateClientExitStats_count, census, before]
  dsimp only
  by_cases this : k = .local_
  · rw [if_pos this, if_pos this, CountField.share]
    push_cast
    omega
  · rw [if_neg this, if_neg this, CountField.share]
    push_cast
    omega

theorem CountsBut.exitRemote (h : CountsBut r d) (nodup : r.globalClientList.Nodup)
    (remote : (r.client u).localFlag = false) : CountsBut (r.exitOneClient u) d := by
  by_cases stays : (r.client u).status = .me ∨ u ∉ r.globalClientList
  · rw [exitOneClient, if_pos stays]
    exact h
  · have goes := not_or.1 stays
    refine (h.exitOne nodup (not_not.1 goes.2) goes.1).congr fun k => ?_
    split
    · next this => rw [this, CountField.share_local_remote remote, Int.add_zero]
    · rw [Int.add_zero]

theorem nodup_exitOneClient (nodup : r.globalClientList.Nodup) :
    (r.exitOneClient u).globalClientList.Nodup := by
  rw [(exited_exitOneClient r u).globalClientList]
  split
  · exact nodup
  · exact nodup.erase u

theorem CountsBut.exitBehind {behind : List ClientId} (h : CountsBut r d)
    (nodup : r.globalClientList.Nodup) (remote : ∀ v ∈ behind, (r.client v).localFlag = false) :
    CountsBut (behind.foldl exitOneClient r) d ∧
      (behind.foldl exitOneClient r).globalClientList.Nodup ∧
      ∀ v, ((behind.foldl exitOneClient r).client v).status = (r.client v).status := by
  induction behind generalizing r with
  | nil => exact ⟨h, nodup, fun _ => rfl⟩
  | cons v behind ih =>
    have exited := exited_exitOneClient r v
    obtain ⟨counts, rest, status⟩ := ih (h.exitRemote nodup (remote v List.mem_cons_self))
      (nodup_exitOneClient nodup) fun x inside => by
        rw [exited.localFlag]
        exact remote x (List.mem_cons_of_mem v inside)
    exact ⟨counts, rest, fun x => (status x).trans (exited.status x)⟩

theorem leaveRoleLists_count (k : CountField) :
    (r.leaveRoleLists u).count.get k =
      r.count.get k - if k = .local_ then k.share (r.client u) else 0 := by
  have count : (r.leaveRoleLists u).count = if (r.client u).localFlag && (r.client u).isClient then
      { r.count with local_ := r.count.local_ - 1 } else r.count := by
    unfold leaveRoleLists
    dsimp only
    cases (r.client u).localFlag
    · rfl
    · cases (r.client u).isAnOper <;> cases (r.client u).isClient <;>
        cases (r.client u).isPerson <;> cases (r.client u).isServer <;> rfl
  rw [count]
  unfold CountField.share
  cases k with
  | local_ =>
    cases isLocal : (r.client u).localFlag <;> cases isClient : (r.client u).isClient <;>
      simp [Tally.get, CountField.counts, isLocal, isClient]
  | _ => split <;> simp [Tally.get]

theorem CountsBut.leaveRoleLists (h : CountsBut r d) (u : ClientId) :
    CountsBut (r.leaveRoleLists u) fun k =>
      d k - if k = .local_ then k.share (r.client u) else 0 := by
  intro k
  obtain ⟨client, -, list, -⟩ := leaveRoleLists_fields r u
  have census : (r.leaveRoleLists u).census k.counts = r.census k.counts := by
    rw [Roles.census, list, client]
    rfl
  have before := h k
  rw [leaveRoleLists_count, census]
  dsimp only
  omega

theorem CountsBut.exitClient (h : CountsBut r d) (nodup : r.globalClientList.Nodup) (u : ClientId)
    (behind : List ClientId) : CountsBut (r.exitClient u behind) d := by
  unfold Roles.exitClient
  split
  · exact h
  next here =>
  obtain ⟨client, -, list, -⟩ := leaveRoleLists_fields r u
  have left := h.leaveRoleLists u
  rw [← client] at left
  have here : u ∈ (r.leaveRoleLists u).globalClientList := by
    rw [list]
    exact not_not.1 here
  rw [← list] at nodup
  generalize r.leaveRoleLists u = r₁ at left here nodup ⊢
  dsimp only
  split
  · next server =>
    -- a server counts as no client, so its own exit leaves the counts
    have notClient : (r₁.client u).isClient = false := by
      have server : (r₁.client u).status = .server := by
        simpa [RoleClient.isServer] using server
      simp [RoleClient.isClient, server]
    have left : CountsBut r₁ d := left.congr fun k => by
      rw [CountField.share_eq_zero notClient]
      simp
    have distant : ∀ v ∈ behind.filter fun u => !(r₁.client u).localFlag,
        (r₁.client v).localFlag = false := fun v inside => by
      simpa using (List.mem_filter.1 inside).2
    obtain ⟨counts, nodup₂, status⟩ := left.exitBehind nodup distant
    generalize (behind.filter fun u => !(r₁.client u).localFlag).foldl exitOneClient r₁ = r₂
      at counts nodup₂ status ⊢
    have notClient₂ : (r₂.client u).isClient = false := by
      rw [RoleClient.isClient, status]
      exact notClient
    by_cases stays : (r₂.client u).status = .me ∨ u ∉ r₂.globalClientList
    · rw [exitOneClient, if_pos stays]
      exact counts
    · have goes := not_or.1 stays
      refine (counts.exitOne nodup₂ (not_not.1 goes.2) goes.1).congr fun k => ?_
      rw [CountField.share_eq_zero notClient₂]
      simp
  · by_cases isMe : (r₁.client u).status = .me
    · rw [exitOneClient, if_pos (.inl isMe)]
      refine left.congr fun k => ?_
      rw [CountField.share_eq_zero (by simp [RoleClient.isClient, isMe])]
      simp
    · refine (left.exitOne nodup here isMe).congr fun k => ?_
      omega

def Introduced (cl : RoleClient) : Prop :=
  cl.status = .me ∨ cl.status = .server ∨
    cl.status = .client ∧ cl.name ≠ [] ∧ cl.umodes .locop = false

/-- All but `w` are, where they are not connected here. -/
def RemotesBut (r : Roles) (w : Option ClientId) : Prop :=
  ∀ v ∈ r.globalClientList, some v ≠ w → (r.client v).localFlag = false → Introduced (r.client v)

variable {w : Option ClientId}

theorem RemotesBut.same (h : RemotesBut r w) (client : r'.client = r.client)
    (list : r'.globalClientList = r.globalClientList) : RemotesBut r' w := by
  intro v
  rw [client, list]
  exact h v

theorem RemotesBut.but (h : RemotesBut r none) (u : ClientId) : RemotesBut r (some u) :=
  fun v inside _ => h v inside nofun

theorem RemotesBut.setClient (h : RemotesBut r (some u)) (cl : RoleClient) :
    RemotesBut (r.setClient u cl) (some u) := by
  intro v inside other
  have different : v ≠ u := fun same => other (congrArg some same)
  rw [setClient_of_ne r different]
  exact h v inside other

theorem RemotesBut.all (h : RemotesBut r (some u))
    (known : (r.client u).localFlag = false → Introduced (r.client u)) : RemotesBut r none := by
  intro v inside _
  by_cases this : v = u
  · rw [this]
    exact known
  · exact h v inside fun same => this (Option.some.inj same)

theorem RemotesBut.write (h : RemotesBut r none) {cl : RoleClient}
    (known : cl.localFlag = false → Introduced cl) : RemotesBut (r.setClient u cl) none := by
  refine ((h.but u).setClient cl).all ?_
  rw [setClient_self]
  exact known

theorem RemotesBut.makeClient (h : RemotesBut r none) (from_ : Option ClientId) :
    RemotesBut (r.makeClient from_) (some r.nextClient) := by
  intro v inside other
  have different : v ≠ r.nextClient := fun same => other (congrArg some same)
  have old : (r.makeClient from_).client v = r.client v := Function.update_of_ne different ..
  rw [old]
  exact h v (List.mem_of_ne_of_mem different inside) nofun

structure Within (r' r : Roles) : Prop where
  list : ∀ v ∈ r'.globalClientList, v ∈ r.globalClientList
  client : ∀ v ∈ r'.globalClientList, r'.client v = r.client v

theorem Within.trans {r'' : Roles} (h : Within r'' r') (h' : Within r' r) : Within r'' r where
  list := fun v inside => h'.list v (h.list v inside)
  client := fun v inside => (h.client v inside).trans (h'.client v (h.list v inside))

theorem RemotesBut.within (h : RemotesBut r w) (less : Within r' r) : RemotesBut r' w := by
  intro v inside
  rw [less.client v inside]
  exact h v (less.list v inside)

theorem within_exitOneClient (nodup : r.globalClientList.Nodup) (u : ClientId) :
    Within (r.exitOneClient u) r := by
  by_cases stays : (r.client u).status = .me ∨ u ∉ r.globalClientList
  · rw [exitOneClient, if_pos stays]
    exact ⟨fun _ inside => inside, fun _ _ => rfl⟩
  · have exited := exited_exitOneClient r u
    have list : (r.exitOneClient u).globalClientList = r.globalClientList.erase u := by
      rw [exited.globalClientList, if_neg (not_or.1 stays).1]
    constructor
    · intro v inside
      rw [list] at inside
      exact List.mem_of_mem_erase inside
    · intro v inside
      rw [list, nodup.mem_erase_iff] at inside
      exact exited.others v inside.1

theorem within_exitBehind (nodup : r.globalClientList.Nodup) (behind : List ClientId) :
    Within (behind.foldl exitOneClient r) r := by
  induction behind generalizing r with
  | nil => exact ⟨fun _ inside => inside, fun _ _ => rfl⟩
  | cons v behind ih =>
    exact (ih (nodup_exitOneClient nodup)).trans (within_exitOneClient nodup v)

theorem nodup_exitBehind (nodup : r.globalClientList.Nodup) (behind : List ClientId) :
    (behind.foldl exitOneClient r).globalClientList.Nodup := by
  induction behind generalizing r with
  | nil => exact nodup
  | cons v behind ih => exact ih (nodup_exitOneClient nodup)

theorem within_exitClient (nodup : r.globalClientList.Nodup) (u : ClientId)
    (behind : List ClientId) : Within (r.exitClient u behind) r := by
  unfold exitClient
  split
  · exact ⟨fun _ inside => inside, fun _ _ => rfl⟩
  · obtain ⟨client, -, list, -⟩ := leaveRoleLists_fields r u
    have left : Within (r.leaveRoleLists u) r := by
      constructor
      · intro v inside
        rwa [list] at inside
      · intro v _
        rw [client]
    have nodup : (r.leaveRoleLists u).globalClientList.Nodup := by rwa [list]
    generalize r.leaveRoleLists u = r₁ at left nodup ⊢
    dsimp only
    split
    · exact ((within_exitOneClient (nodup_exitBehind nodup _) u).trans
        (within_exitBehind nodup _)).trans left
    · exact (within_exitOneClient nodup u).trans left

theorem findServer_congr (same : ∀ name,
    (r'.globalClientList.find? fun v => ((r'.client v).isServer || (r'.client v).status == .me) &&
      irccmp name (r'.nameOf v) == .eq) =
    r.globalClientList.find? fun v => ((r.client v).isServer || (r.client v).status == .me) &&
      irccmp name (r.nameOf v) == .eq) (server : CStr) :
    r'.findServer server = r.findServer server := by
  unfold findServer
  simp only [same]

theorem findServer_setClient {cl : RoleClient} (was : (r.client u).isServer = false)
    (notMe : (r.client u).status ≠ .me) (is : cl.isServer = false) (still : cl.status ≠ .me)
    (server : CStr) : (r.setClient u cl).findServer server = r.findServer server := by
  apply findServer_congr
  intro name
  apply List.find?_congr
  intro v _
  by_cases this : v = u
  · subst this
    rw [setClient_self, was, is, beq_false_of_ne notMe, beq_false_of_ne still]
    rfl
  · rw [nameOf, nameOf, setClient_of_ne r this]

theorem findServer_makeClient (from_ : Option ClientId) (fresh : r.nextClient ∉ r.globalClientList)
    (server : CStr) : (r.makeClient from_).findServer server = r.findServer server := by
  refine findServer_congr (fun name => ?_) server
  have list : (r.makeClient from_).globalClientList = r.nextClient :: r.globalClientList := rfl
  rw [list, List.find?_cons_of_neg]
  · refine List.find?_congr fun v inside => ?_
    have other : v ≠ r.nextClient := fun same => fresh (same ▸ inside)
    have old : (r.makeClient from_).client v = r.client v := Function.update_of_ne other ..
    rw [nameOf, nameOf, old]
  · rw [makeClient_client]
    simp [RoleClient.isServer, RoleClient.zero]

theorem CountsBut.recount (h : CountsBut r fun _ => 0) : CountsBut r.recount fun _ => 0 := by
  unfold Roles.recount
  split
  · intro k
    cases k <;> exact (Int.add_zero _).symm
  · exact h

/-- From `SetClient` on, where the counters of the user but the total are written already. -/
theorem CountsBut.enrolUser {server : CStr}
    (h : CountsBut r fun k =>
      if k = .total then 0 else k.share { r.client u with status := .client })
    (nodup : r.globalClientList.Nodup) (here : u ∈ r.globalClientList)
    (notClient : (r.client u).isClient = false) (notServer : (r.client u).isServer = false)
    (notMe : (r.client u).status ≠ .me) (known : r.findServer server ≠ none) :
    CountsBut (r.enrolUser cptr u server) fun _ => 0 := by
  have entered := h.setClient { r.client u with status := .client } nodup here
  have same : (r.setClient u { r.client u with status := .client }).findServer server =
      r.findServer server :=
    findServer_setClient notServer notMe rfl (show Status.client ≠ .me from nofun) server
  have list : (r.setClient u { r.client u with status := .client }).globalClientList =
    r.globalClientList := rfl
  rw [← same] at known
  rw [← list] at nodup
  have entered : CountsBut (r.setClient u { r.client u with status := .client }) fun k =>
      if k = .total then -1 else 0 := by
    refine entered.congr fun k => ?_
    rw [CountField.share_eq_zero notClient]
    split
    · next this => rw [this]; rfl
    · omega
  unfold Roles.enrolUser
  dsimp only
  generalize r.setClient u { r.client u with status := .client } = r₁ at entered known nodup ⊢
  split
  · next ghost => exact absurd ghost known
  · have counted : CountsBut (r₁.setCount { r₁.count with total := r₁.count.total + 1 })
        fun _ => 0 := by
      refine (entered.setCount _).congr fun k => ?_
      cases k <;> simp [Tally.get]
    split
    · exact counted.recount.same rfl rfl rfl
    · split
      · exact counted.exitClient nodup u []
      · exact counted

theorem RemotesBut.recount (h : RemotesBut r w) : RemotesBut r.recount w := by
  obtain ⟨-, client, list, -⟩ := recount_fields r
  exact h.same client list

theorem RemotesBut.enrolUser {server : CStr} (h : RemotesBut r (some u))
    (nodup : r.globalClientList.Nodup)
    (known : (r.client u).localFlag = false →
      (r.client u).name ≠ [] ∧ (r.client u).umodes .locop = false) :
    RemotesBut (r.enrolUser cptr u server) none := by
  have entered : RemotesBut (r.setClient u { r.client u with status := .client }) none := by
    refine (h.setClient _).all ?_
    rw [setClient_self]
    exact fun remote => .inr (.inr ⟨rfl, known remote⟩)
  have list : (r.setClient u { r.client u with status := .client }).globalClientList =
    r.globalClientList := rfl
  rw [← list] at nodup
  unfold Roles.enrolUser
  dsimp only
  generalize r.setClient u { r.client u with status := .client } = r₁ at entered nodup ⊢
  split
  · exact entered.within (within_exitClient nodup u [])
  · have counted : RemotesBut (r₁.setCount { r₁.count with total := r₁.count.total + 1 }) none :=
      entered.same rfl rfl
    split
    · exact counted.recount.same rfl rfl
    · split
      · exact counted.within (within_exitClient (by exact nodup) u [])
      · exact counted

structure Steady (r : Roles) : Prop where
  listed : Listed r
  counts : CountsBut r fun _ => 0
  remotes : RemotesBut r none

theorem Listed.nodup (h : Listed r) : r.globalClientList.Nodup := by
  obtain ⟨_, _, _, _, rolls⟩ := h
  exact rolls.roster

theorem Listed.fresh (h : Listed r) : r.nextClient ∉ r.globalClientList := by
  obtain ⟨_, _, _, _, rolls⟩ := h
  exact fun inside => Nat.lt_irrefl _ (rolls.made _ inside)

theorem Listed.findServer_me (h : Listed r) : r.findServer (r.nameOf r.me) ≠ none := by
  obtain ⟨_, _, _, _, rolls⟩ := h
  exact Roles.findServer_me rolls

theorem CountsBut.registerLocal {outcome : Registration} (h : CountsBut r fun _ => 0)
    (listed : Listed r) (here : u ∈ r.globalClientList) (notMe : (r.client u).status ≠ .me)
    (isLocal : (r.client u).localFlag = true) (notClient : (r.client u).isClient = false)
    (notServer : (r.client u).isServer = false) :
    CountsBut (r.registerUser cptr u (r.nameOf r.me) outcome) fun _ => 0 := by
  unfold registerUser
  rw [if_pos isLocal]
  cases outcome with
  | refused => exact h.exitClient listed.nodup u []
  | held => exact h
  | accepted =>
    let cl : RoleClient := { r.client u with
      umodes := (r.client u).umodes.write .invisible true }
    -- a connection is no operator before it is a client
    have plain := (listed.sane here).plain isLocal notClient
    have written : CountsBut (r.setClient u cl) fun _ => 0 :=
      h.rewrite listed.nodup here fun k => by
        rw [CountField.share_eq_zero notClient,
          CountField.share_eq_zero (show cl.isClient = false from notClient)]
    have known : (r.setClient u cl).findServer (r.nameOf r.me) = r.findServer (r.nameOf r.me) :=
      findServer_setClient notServer notMe (show cl.isServer = false from notServer) notMe _
    have cell : (r.setClient u cl).client u = cl := setClient_self ..
    have list : (r.setClient u cl).globalClientList = r.globalClientList := rfl
    dsimp only
    show CountsBut (((r.setClient u cl).setCount _).enrolUser cptr u _) _
    generalize r.setClient u cl = r₁ at written known cell list ⊢
    refine ((written.setCount _).congr fun k => ?_).enrolUser (list.symm ▸ listed.nodup)
      (list.symm ▸ here) ?_ ?_ ?_ ?_
    · have user : ({ (r₁.setCount { r₁.count with
            invisi := r₁.count.invisi + 1, local_ := r₁.count.local_ + 1 }).client u with
          status := .client } : RoleClient) = { cl with status := .client } :=
        congrArg (fun cl : RoleClient => { cl with status := .client }) cell
      have invisible : cl.umodes .invisible = true := by simp [cl, Umodes.write]
      have noOper : cl.isAnOper = false := plain
      dsimp only
      rw [user]
      cases k with
      | total => simp [Tally.get]
      | invisi =>
        simp [Tally.get, CountField.share, CountField.counts, RoleClient.isClient, invisible]
      | oper =>
        have noOper : ({ cl with status := .client } : RoleClient).isAnOper = false := noOper
        simp [Tally.get, CountField.share, CountField.counts, noOper]
      | local_ =>
        have isLocal : cl.localFlag = true := isLocal
        simp [Tally.get, CountField.share, CountField.counts, RoleClient.isClient, isLocal]
    · exact (congrArg RoleClient.isClient cell).trans notClient
    · exact (congrArg RoleClient.isServer cell).trans notServer
    · exact (congrArg RoleClient.status cell).trans_ne notMe
    · exact known.trans_ne listed.findServer_me

theorem RemotesBut.registerLocal {server : CStr} {outcome : Registration} (h : RemotesBut r none)
    (nodup : r.globalClientList.Nodup) (isLocal : (r.client u).localFlag = true) :
    RemotesBut (r.registerUser cptr u server outcome) none := by
  unfold registerUser
  rw [if_pos isLocal]
  cases outcome with
  | refused => exact h.within (within_exitClient nodup u [])
  | held => exact h
  | accepted =>
    let cl : RoleClient := { r.client u with
      umodes := (r.client u).umodes.write .invisible true }
    have here : cl.localFlag ≠ false := by simp [cl, isLocal]
    have written : RemotesBut (r.setClient u cl) none := h.write fun remote => absurd remote here
    have cell : (r.setClient u cl).client u = cl := setClient_self ..
    dsimp only
    show RemotesBut (((r.setClient u cl).setCount _).enrolUser cptr u _) _
    refine RemotesBut.enrolUser ((written.same rfl rfl).but u) (by exact nodup) fun remote => ?_
    exact absurd ((congrArg RoleClient.localFlag cell).symm.trans remote) here

theorem share_makeUser (k : CountField) (cl : RoleClient) :
    k.share { cl with user := true } = k.share cl := by cases k <;> rfl

theorem share_rename (k : CountField) (cl : RoleClient) (name : CStr) :
    k.share { cl with name := name } = k.share cl := by cases k <;> rfl

theorem doUser_local (cptr : ClientId) (server : CStr) (outcome : Registration)
    (isLocal : (r.client u).localFlag = true) :
    r.doUser cptr u server outcome = r.setClient u { r.client u with user := true } ∨
    (r.client u).status = .unknown ∧ r.doUser cptr u server outcome =
      (r.setClient u { r.client u with user := true }).registerUser cptr u
        ((r.setClient u { r.client u with user := true }).nameOf r.me) outcome := by
  have cell : (r.setClient u { r.client u with user := true }).client u =
      { r.client u with user := true } := setClient_self ..
  have me : (r.setClient u { r.client u with user := true }).me = r.me := rfl
  unfold doUser
  dsimp only
  generalize r.setClient u { r.client u with user := true } = r₁ at cell me ⊢
  rw [cell, me]
  simp only [isLocal, Bool.not_true, Bool.false_eq_true, if_false]
  split
  · exact .inl rfl
  · next unknown =>
    split
    · exact .inr ⟨not_not.1 unknown, rfl⟩
    · exact .inl rfl

theorem doUser_remote {server : CStr} {outcome : Registration}
    (remote : (r.client u).localFlag = false) : r.doUser cptr u server outcome =
      (r.setClient u { r.client u with user := true }).enrolUser cptr u server := by
  have cell : (r.setClient u { r.client u with user := true }).client u =
      { r.client u with user := true } := setClient_self ..
  unfold doUser registerUser
  dsimp only
  generalize r.setClient u { r.client u with user := true } = r₁ at cell ⊢
  rw [cell]
  simp [remote]

theorem Steady.doUser {server : CStr} {outcome : Registration} (h : Steady r)
    (here : u ∈ r.globalClientList) (notMe : (r.client u).status ≠ .me)
    (isLocal : (r.client u).localFlag = true) : Steady (r.doUser cptr u server outcome) := by
  let cl : RoleClient := { r.client u with user := true }
  have isLocal₁ : cl.localFlag = true := isLocal
  have listed : Listed (r.setClient u cl) := h.listed.makeUser here notMe
  have counts : CountsBut (r.setClient u cl) fun _ => 0 :=
    h.counts.rewrite h.listed.nodup here fun k => share_makeUser k _
  have remotes : RemotesBut (r.setClient u cl) none :=
    h.remotes.write fun remote => absurd remote (by simp [isLocal₁])
  rcases doUser_local cptr server outcome isLocal with same | ⟨unknown, registers⟩
  · rw [same]
    exact ⟨listed, counts, remotes⟩
  · have unknown : cl.status = .unknown := unknown
    refine ⟨h.listed.doUser here notMe, ?_, ?_⟩
    · rw [registers]
      refine counts.registerLocal listed here ?_ ?_ ?_ ?_
      · rwa [setClient_self]
      · rwa [setClient_self]
      · rw [setClient_self]
        simp [RoleClient.isClient, unknown]
      · rw [setClient_self]
        simp [RoleClient.isServer, unknown]
    · rw [registers]
      refine remotes.registerLocal h.listed.nodup ?_
      rwa [setClient_self]

theorem Steady.ghost {server : CStr} {outcome : Registration} (h : Steady r)
    (here : u ∈ r.globalClientList) (remote : (r.client u).localFlag = false)
    (isClient : (r.client u).isClient = true) (ghost : r.findServer server = none) :
    Steady (r.doUser cptr u server outcome) := by
  have status : (r.client u).status = .client := by simpa [RoleClient.isClient] using isClient
  have notMe : (r.client u).status ≠ .me := by simp [status]
  let cl : RoleClient := { r.client u with user := true }
  let entered : RoleClient := { cl with status := .client }
  have twice : (r.setClient u cl).setClient u entered = r.setClient u entered := by
    simp [setClient]
  have same : entered = { r.client u with user := true } := by simp [entered, cl, status]
  have gone : r.doUser cptr u server outcome = (r.setClient u entered).exitClient u [] := by
    rw [doUser_remote remote, enrolUser, setClient_self]
    have found : ((r.setClient u cl).setClient u entered).findServer server = none := by
      rw [twice, findServer_setClient, ghost]
      · simp [RoleClient.isServer, status]
      · exact notMe
      · rfl
      · exact fun is => by cases is
    dsimp only
    rw [found, twice]
  refine ⟨h.listed.doUser here notMe, ?_, ?_⟩
  · rw [gone, same]
    exact (h.counts.rewrite h.listed.nodup here fun k => share_makeUser k _).exitClient
      h.listed.nodup u []
  · rw [gone, same]
    have known := h.remotes u here (Option.some_ne_none u) remote
    have remotes : RemotesBut (r.setClient u cl) none := h.remotes.write fun _ => known
    have nodup : (r.setClient u cl).globalClientList.Nodup := h.listed.nodup
    exact remotes.within (within_exitClient nodup u [])

theorem Steady.changeNick {nick : CStr} {outcome : Registration} (h : Steady r)
    (here : u ∈ r.globalClientList) (notMe : (r.client u).status ≠ .me)
    (notServer : (r.client u).isServer = false) (given : nick ≠ []) :
    Steady (r.changeNick cptr u nick outcome) := by
  let cl : RoleClient := { r.client u with name := nick }
  have listed : Listed (r.setClient u cl) := h.listed.rename here notMe given
  have counts : CountsBut (r.setClient u cl) fun _ => 0 :=
    h.counts.rewrite h.listed.nodup here fun k => share_rename k _ nick
  have introduced : (r.client u).localFlag = false → (r.client u).status = .client ∧
      (r.client u).name ≠ [] ∧ (r.client u).umodes .locop = false := by
    intro remote
    refine ((h.remotes u here nofun remote).resolve_left notMe).resolve_left fun server => ?_
    simp [RoleClient.isServer, server] at notServer
  have remotes : RemotesBut (r.setClient u cl) none := h.remotes.write fun remote =>
    .inr (.inr ⟨(introduced remote).1, given, (introduced remote).2.2⟩)
  have all : Listed (r.changeNick cptr u nick outcome) :=
    h.listed.changeNick here notMe notServer given
  unfold Roles.changeNick at all ⊢
  dsimp only at all ⊢
  split at all
  · next first =>
    -- a user of another server comes with its name
    have isLocal : (r.client u).localFlag = true := by
      by_contra remote
      exact (introduced (by simpa using remote)).2.1 first.1
    have notClient := h.listed.notClient here isLocal first.1
    rw [if_pos first]
    refine ⟨all, counts.registerLocal listed here ?_ ?_ ?_ ?_,
      remotes.registerLocal h.listed.nodup ?_⟩
    · rwa [setClient_self]
    · rwa [setClient_self]
    · rwa [setClient_self]
    · rwa [setClient_self]
    · rwa [setClient_self]
  · next later =>
    rw [if_neg later]
    exact ⟨listed, counts, remotes⟩

theorem umodeOfLetter_invisible {letter : Char} :
    umodeOfLetter letter = some .invisible ↔ letter = 'i' := by
  unfold umodeOfLetter
  split <;> simp_all

theorem umodeOfLetter_oper {letter : Char} : umodeOfLetter letter = some .oper ↔ letter = 'o' := by
  unfold umodeOfLetter
  split <;> simp_all

structure Read (text : CStr) (before after : Tally × Umodes) : Prop where
  total : after.1.total = before.1.total
  invisi : after.1.invisi = before.1.invisi + text.count 'i'
  oper : after.1.oper = before.1.oper + text.count 'o'
  local_ : after.1.local_ = before.1.local_
  invisible : after.2 .invisible = (before.2 .invisible || text.contains 'i')
  isOper : after.2 .oper = (before.2 .oper || text.contains 'o')
  locop : after.2 .locop = before.2 .locop

theorem read_letter (st : Tally × Umodes) (letter : Char) :
    Read [letter] st (introducedLetter st letter) := by
  by_cases isI : letter = 'i'
  · subst isI
    constructor <;> simp [introducedLetter, umodeOfLetter, sendUmodes, Umodes.ofList, Umodes.write]
  by_cases isO : letter = 'o'
  · subst isO
    constructor <;> simp [introducedLetter, umodeOfLetter, sendUmodes, Umodes.ofList, Umodes.write]
  have noI : 'i' ≠ letter := Ne.symm isI
  have noO : 'o' ≠ letter := Ne.symm isO
  have countI : [letter].count 'i' = 0 := by simp [isI]
  have countO : [letter].count 'o' = 0 := by simp [isO]
  unfold introducedLetter
  cases known : umodeOfLetter letter with
  | none => constructor <;> simp [countI, countO, noI, noO]
  | some flag =>
    have notI : flag ≠ .invisible := fun this => isI (umodeOfLetter_invisible.1 (this ▸ known))
    have notO : flag ≠ .oper := fun this => isO (umodeOfLetter_oper.1 (this ▸ known))
    dsimp only
    by_cases sent : sendUmodes flag
    · have notLocop : flag ≠ .locop := by
        rintro rfl
        exact absurd sent (by decide)
      constructor <;> simp [sent, notI, notO, countI, countO, noI, noO, Umodes.write, notI.symm,
        notO.symm, notLocop.symm]
    · constructor <;> simp [sent, notI, notO, countI, countO, noI, noO]

theorem read_letters (text : CStr) (st : Tally × Umodes) :
    Read text st (text.foldl introducedLetter st) := by
  induction text generalizing st with
  | nil => constructor <;> simp
  | cons letter text ih =>
    have first := read_letter st letter
    have rest := ih (introducedLetter st letter)
    rw [List.foldl_cons]
    generalize text.foldl introducedLetter (introducedLetter st letter) = after at rest ⊢
    have split : letter :: text = [letter] ++ text := rfl
    rw [split]
    constructor
    · rw [rest.total, first.total]
    · rw [rest.invisi, first.invisi, List.count_append]
      push_cast
      omega
    · rw [rest.oper, first.oper, List.count_append]
      push_cast
      omega
    · rw [rest.local_, first.local_]
    · rw [rest.invisible, first.invisible, List.contains_append, Bool.or_assoc]
    · rw [rest.isOper, first.isOper, List.contains_append, Bool.or_assoc]
    · rw [rest.locop, first.locop]

theorem count_eq_share {text : CStr} {letter : Char} (once : text.count letter ≤ 1) :
    ((text.count letter : Nat) : Int) = if text.contains letter then 1 else 0 := by
  by_cases inside : letter ∈ text
  · have some : 0 < text.count letter := List.count_pos_iff.2 inside
    rw [if_pos (List.contains_iff_mem.2 inside)]
    omega
  · rw [if_neg fun also => inside (List.contains_iff_mem.1 also), List.count_eq_zero.2 inside]
    rfl

/-- Where no counted letter stands twice, the letters count what the user will have. -/
theorem Read.share {text : CStr} {count : Tally} {after : Tally × Umodes} {cl : RoleClient}
    (read : Read text (count, .none) after) (once : text.count 'i' ≤ 1 ∧ text.count 'o' ≤ 1)
    (remote : cl.localFlag = false) (k : CountField) :
    (if k = .total then 0 else k.share { cl with status := .client, umodes := after.2 }) =
      after.1.get k - count.get k := by
  have isI : after.2 .invisible = text.contains 'i' := read.invisible
  have isO : after.2 .oper = text.contains 'o' := read.isOper
  have noLocop : after.2 .locop = false := read.locop
  cases k with
  | total =>
    have total := read.total
    simp only [Tally.get] at total ⊢
    rw [total]
    simp
  | invisi =>
    have invisi : after.1.invisi = count.invisi + text.count 'i' := read.invisi
    rw [count_eq_share once.1] at invisi
    simp only [Tally.get, CountField.share, CountField.counts, RoleClient.isClient, isI,
      reduceCtorEq, if_false, beq_self_eq_true, Bool.true_and]
    omega
  | oper =>
    have oper : after.1.oper = count.oper + text.count 'o' := read.oper
    rw [count_eq_share once.2] at oper
    simp only [Tally.get, CountField.share, CountField.counts, RoleClient.isClient,
      RoleClient.isAnOper, Umodes.isAnOper, isO, noLocop, Bool.or_false, reduceCtorEq, if_false,
      beq_self_eq_true, Bool.true_and]
    omega
  | local_ =>
    have local_ := read.local_
    simp only [Tally.get] at local_ ⊢
    rw [local_]
    simp [CountField.share, CountField.counts, remote]

/-- A user is introduced whose modes name no mode twice, on a server that is there. -/
theorem Steady.introduceNick (h : Steady r) {nick modes server : CStr} (given : nick ≠ [])
    (once : modes.tail.count 'i' ≤ 1 ∧ modes.tail.count 'o' ≤ 1)
    (known : r.findServer server ≠ none) : Steady (r.introduceNick cptr nick modes server) := by
  have listed : Listed (r.introduceNick cptr nick modes server) :=
    h.listed.introduceNick nick modes server
  have fresh := h.listed.fresh
  have cell := makeClient_client r (some cptr)
  have counts := h.counts.makeClient (some cptr) fresh
  have remotes := h.remotes.makeClient (some cptr)
  have nodup := (h.listed.makeClient (some cptr)).nodup
  have here : r.nextClient ∈ (r.makeClient (some cptr)).globalClientList := List.mem_cons_self
  have same := findServer_makeClient (some cptr) fresh server
  rw [← same] at known
  unfold Roles.introduceNick at listed ⊢
  dsimp only at listed ⊢
  generalize r.makeClient (some cptr) = r₁ at listed cell counts remotes nodup here known ⊢
  have read := read_letters modes.tail (r₁.count, .none)
  generalize modes.tail.foldl introducedLetter (r₁.count, .none) = introduced at listed read ⊢
  generalize r.nextClient = u at listed cell remotes here ⊢
  let cl : RoleClient := { r₁.client u with name := nick, umodes := introduced.2 }
  let user : RoleClient := { cl with user := true }
  have unknown : user.status = .unknown := congrArg RoleClient.status cell
  have remote : user.localFlag = false := congrArg RoleClient.localFlag cell
  have locop : user.umodes .locop = false := read.locop
  have notClient : user.isClient = false := by simp [RoleClient.isClient, unknown]
  have notServer : user.isServer = false := by simp [RoleClient.isServer, unknown]
  have notMe : user.status ≠ .me := by simp [unknown]
  have twice : ((r₁.setCount introduced.1).setClient u cl).setClient u user =
      (r₁.setCount introduced.1).setClient u user := by
    simp [setClient]
  have enrolled : ((r₁.setCount introduced.1).setClient u cl).doUser cptr u server .accepted =
      ((r₁.setCount introduced.1).setClient u user).enrolUser cptr u server := by
    rw [doUser_remote, setClient_self]
    · show (((r₁.setCount introduced.1).setClient u cl).setClient u user).enrolUser _ _ _ = _
      rw [twice]
    · rw [setClient_self]
      exact remote
  have find : ((r₁.setCount introduced.1).setClient u user).findServer server =
      r₁.findServer server := by
    refine (findServer_setClient ?_ ?_ notServer notMe server).trans rfl
    · exact notServer
    · exact notMe
  refine ⟨listed, ?_, ?_⟩
  · show CountsBut (((r₁.setCount introduced.1).setClient u cl).doUser cptr u server .accepted) _
    rw [enrolled]
    refine CountsBut.enrolUser (((counts.setCount introduced.1).rewrite nodup here
      fun k => ?_).congr fun k => ?_) nodup here ?_ ?_ ?_ ?_
    · have before : (r₁.client u).isClient = false := notClient
      rw [CountField.share_eq_zero notClient]
      exact (CountField.share_eq_zero before).symm
    · rw [setClient_self, Int.zero_add]
      exact read.share once remote k
    · rwa [setClient_self]
    · rwa [setClient_self]
    · rwa [setClient_self]
    · rwa [find]
  · show RemotesBut (((r₁.setCount introduced.1).setClient u cl).doUser cptr u server .accepted) _
    rw [enrolled]
    refine RemotesBut.enrolUser (RemotesBut.setClient (remotes.same rfl rfl) user) nodup ?_
    rw [setClient_self]
    exact fun _ => ⟨given, locop⟩

def inv (m : Umodes) : Int := if m .invisible then 1 else 0

/-- Between the letters of a MODE the counters are right but for the invisible mode, which is
looked at after the last one. -/
structure Looping (r : Roles) (cptr u : ClientId) (old : Umodes) : Prop where
  acting : Acting r cptr u
  counts : CountsBut r fun k => if k = .invisi then inv old - inv (r.client u).umodes else 0
  remotes : RemotesBut r none

namespace Looping

variable {old : Umodes}

theorem remote_locop (h : Looping r cptr u old) (remote : (r.client u).localFlag = false) :
    (r.client u).umodes .locop = false := by
  have isClient : (r.client u).status = .client := by
    simpa [RoleClient.isClient] using h.acting.isClient
  rcases h.remotes u h.acting.here (Option.some_ne_none u) remote with me | server | known
  · exact absurd me h.acting.notMe
  · simp [isClient] at server
  · exact known.2.2

theorem write (h : Looping r cptr u old) {cl : RoleClient} (same : Modes (r.client u) cl)
    (acting : Acting r' cptr u) (client : r'.client = (r.setClient u cl).client)
    (list : r'.globalClientList = r.globalClientList)
    (locop : cl.umodes .locop → (r.client u).umodes .locop)
    (count : r'.count = { r.count with
      oper := r.count.oper + CountField.oper.share cl - CountField.oper.share (r.client u) }) :
    Looping r' cptr u old := by
  have cell : r'.client u = cl := by rw [client, setClient_self]
  have isClient := h.acting.isClient
  have still : cl.isClient = true := by
    rw [RoleClient.isClient, same.status]
    exact isClient
  refine ⟨acting, ?_, ?_⟩
  · have counted : CountsBut ((r.setCount r'.count).setClient u cl) fun k =>
        (if k = .invisi then inv old - inv (r.client u).umodes else 0) +
          (r'.count.get k - r.count.get k) + k.share (r.client u) - k.share cl :=
      (h.counts.setCount r'.count).setClient cl h.acting.listed.nodup h.acting.here
    refine (counted.congr fun k => ?_).same rfl client list
    -- only the count of operators is written, and by what the letter changes
    have written : r'.count.get k = r.count.get k +
        if k = .oper then k.share cl - k.share (r.client u) else 0 := by
      rw [count]
      cases k <;> simp [Tally.get]
      omega
    rw [cell, written]
    cases k with
    | total => simp [CountField.share, CountField.counts, isClient, still]
    | invisi =>
      simp only [CountField.share, CountField.counts, isClient, still, Bool.true_and, if_true, inv,
        reduceCtorEq, if_false]
      omega
    | oper =>
      simp only [reduceCtorEq, if_true, if_false]
      omega
    | local_ => simp [CountField.share, CountField.counts, isClient, still, same.localFlag]
  · have written : RemotesBut (r.setClient u cl) none := by
      refine h.remotes.write fun remote => ?_
      rw [same.localFlag] at remote
      have known := h.remotes u h.acting.here (Option.some_ne_none u) remote
      -- a user of another server never gets the mode
      have noLocop : cl.umodes .locop = false := by
        by_contra set
        have before := locop (by simpa using set)
        rw [h.remote_locop remote] at before
        cases before
      unfold Introduced at known ⊢
      rw [same.status, same.name]
      exact known.imp_right (Or.imp_right fun known => ⟨known.1, known.2.1, noLocop⟩)
    exact written.same client list

theorem umodeLetter {st : Roles × Bool} (h : Looping st.1 cptr u old) (letter : Char) :
    Looping (umodeLetter cptr u st letter).1 cptr u old := by
  have acting := h.acting.umodeLetter letter
  have isClient := h.acting.isClient
  rcases umodeLetter_cases cptr u st letter with same | ⟨server, notOper, granted⟩ |
    ⟨isOper, taken⟩ | ⟨flag, value, notOper, notLocop, written⟩
  · rw [same]
    exact h
  · rw [granted] at acting ⊢
    have noLocop := h.remote_locop (h.acting.remote server)
    refine h.write (modes_umodes _ _) acting rfl rfl ?_ ?_
    · simp [Umodes.write]
    · have before : CountField.oper.share (st.1.client u) = 0 := by
        simp [CountField.share, CountField.counts, RoleClient.isAnOper, Umodes.isAnOper, notOper,
          noLocop]
      have after : CountField.oper.share { st.1.client u with
          umodes := (st.1.client u).umodes.write .oper true } = 1 := by
        have isClient : ((st.1.client u).status == .client) = true := isClient
        simp [CountField.share, CountField.counts, RoleClient.isClient, isClient,
          RoleClient.isAnOper, Umodes.isAnOper, Umodes.write]
      rw [before, after, Int.sub_zero]
      rfl
  · rw [taken] at acting ⊢
    obtain ⟨cl, same, umodes, client, list, count⟩ := deoper_spec st.1 u
    refine h.write same acting client list ?_ ?_
    · rw [umodes]
      simp [Umodes.without, operOnlyUmodes, Umodes.ofList]
    · have before : CountField.oper.share (st.1.client u) = 1 := by
        simp [CountField.share, CountField.counts, isClient, isOper]
      have after : CountField.oper.share cl = 0 := by
        simp [CountField.share, CountField.counts, RoleClient.isAnOper, umodes, Umodes.isAnOper,
          Umodes.without, operOnlyUmodes, Umodes.ofList]
      rw [before, after, Int.add_zero]
      exact count
  · rw [written] at acting ⊢
    refine h.write (modes_umodes _ _) acting rfl rfl ?_ ?_
    · simp [Umodes.write, notLocop.symm]
    · have share : CountField.oper.share { st.1.client u with
          umodes := (st.1.client u).umodes.write flag value } =
            CountField.oper.share (st.1.client u) := by
        simp [CountField.share, CountField.counts, RoleClient.isClient, RoleClient.isAnOper,
          Umodes.isAnOper, Umodes.write, notOper.symm, notLocop.symm]
      rw [share, Int.add_sub_cancel]
      rfl

theorem letters (text : CStr) (st : Roles × Bool) (h : Looping st.1 cptr u old) :
    Looping (text.foldl (Roles.umodeLetter cptr u) st).1 cptr u old := by
  induction text generalizing st with
  | nil => exact h
  | cons letter text ih => exact ih _ (h.umodeLetter letter)

theorem repair (h : Looping r cptr u old) (p : Repair) (plain : p.flag ≠ .oper ∧ p.flag ≠ .locop) :
    Looping (repair u r p) cptr u old := by
  have acting := h.acting.repair p plain
  unfold Roles.repair at acting ⊢
  dsimp only at acting ⊢
  split
  · next set =>
    rw [if_pos set] at acting
    refine h.write (modes_umodes _ _) acting rfl rfl ?_ ?_
    · simp [Umodes.write, plain.2.symm]
    · have share : CountField.oper.share { r.client u with
          umodes := (r.client u).umodes.write p.flag false } =
            CountField.oper.share (r.client u) := by
        simp [CountField.share, CountField.counts, RoleClient.isClient, RoleClient.isAnOper,
          Umodes.isAnOper, Umodes.write, plain.1.symm, plain.2.symm]
      rw [share, Int.add_sub_cancel]
      rfl
  · exact h

theorem repairs (list : List Repair) (h : Looping r cptr u old)
    (plain : ∀ p ∈ list, p.flag ≠ .oper ∧ p.flag ≠ .locop) :
    Looping (list.foldl (Roles.repair u) r) cptr u old := by
  induction list generalizing r with
  | nil => exact h
  | cons p list ih =>
    exact ih (h.repair p (plain p List.mem_cons_self)) fun q inside =>
      plain q (List.mem_cons_of_mem p inside)

end Looping

theorem Steady.userMode (h : Steady r) (acting : Acting r cptr u) (modes : List CStr) :
    Steady (r.userMode cptr u modes) := by
  have listed := acting.userMode modes
  have start : Looping r cptr u (r.client u).umodes := by
    refine ⟨acting, h.counts.congr fun k => ?_, h.remotes⟩
    simp
  have done := (start.letters modes.flatten (r, true)).repairs Ircd.repairs (by decide)
  unfold Roles.userMode at listed ⊢
  dsimp only at listed ⊢
  generalize Ircd.repairs.foldl (Roles.repair u)
    (modes.flatten.foldl (Roles.umodeLetter cptr u) (r, true)).1 = r₁ at done listed ⊢
  have settled : ∀ t : Tally, (∀ k : CountField, t.get k - r₁.count.get k =
      if k = .invisi then inv (r₁.client u).umodes - inv (r.client u).umodes else 0) →
      CountsBut (r₁.setCount t) fun _ => 0 := by
    intro t moved
    refine (done.counts.setCount t).congr fun k => ?_
    rw [moved]
    split <;> omega
  have remotes : ∀ t : Tally, RemotesBut (r₁.setCount t) none := fun t => done.remotes.same rfl rfl
  split
  · next on =>
    rw [if_pos on] at listed
    simp only [Bool.and_eq_true, Bool.not_eq_true'] at on
    refine ⟨listed, settled _ fun k => ?_, remotes _⟩
    cases k <;> simp [Tally.get, inv, on]
  · next notOn =>
    rw [if_neg notOn] at listed
    split
    · next off =>
      rw [if_pos off] at listed
      simp only [Bool.and_eq_true, Bool.not_eq_true'] at off
      refine ⟨listed, settled _ fun k => ?_, remotes _⟩
      cases k <;> simp [Tally.get, inv, off]
    · next notOff =>
      rw [if_neg notOff] at listed
      refine ⟨listed, settled r₁.count fun k => ?_, done.remotes⟩
      have same : (r.client u).umodes .invisible = (r₁.client u).umodes .invisible := by
        cases was : (r.client u).umodes .invisible <;>
          cases is : (r₁.client u).umodes .invisible <;> simp [was, is] at notOn notOff ⊢
      simp [inv, same]

theorem Steady.setCount_share (h : Steady r) (count : Tally) (cl : RoleClient)
    (here : u ∈ r.globalClientList) (listed : Listed r')
    (client : r'.client = (r.setClient u cl).client)
    (list : r'.globalClientList = r.globalClientList) (written : r'.count = count)
    (isLocal : cl.localFlag = true) (moved : ∀ k : CountField,
      count.get k - r.count.get k = k.share cl - k.share (r.client u)) : Steady r' := by
  have counted : CountsBut ((r.setCount count).setClient u cl) fun k =>
      0 + (count.get k - r.count.get k) + k.share (r.client u) - k.share cl :=
    (h.counts.setCount count).setClient cl h.listed.nodup here
  have remotes : RemotesBut (r.setClient u cl) none :=
    h.remotes.write fun remote => absurd remote (by simp [isLocal])
  refine ⟨listed, (counted.congr fun k => ?_).same written client list, remotes.same client list⟩
  rw [moved]
  omega

/-- OPER counts where the connection is no link and the flags of the O-line leave the
invisible mode alone. -/
theorem Steady.mOper (h : Steady r) {conf : Option OperConf} (from_ : r.ComesFrom cptr u)
    (known : (r.client cptr).isClient ∨ (r.client cptr).isServer)
    (notLink : ¬((r.client cptr).isServer ∧ (r.client u).umodes .oper = false))
    (visible : (r.client u).isAnOper ∨
      ∀ c, conf = some c → operModes c (r.client u).umodes .invisible =
        (r.client u).umodes .invisible) : Steady (r.mOper cptr u conf) := by
  have listed : Listed (r.mOper cptr u conf) := h.listed.mOper from_ known
  have notLink' : ¬((r.client cptr).isServer ∧ !(r.client u).umodes .oper) := by
    simpa using notLink
  unfold Roles.mOper at listed ⊢
  dsimp only at listed ⊢
  rw [if_neg notLink'] at listed ⊢
  split
  · exact h
  next notOper =>
  rw [if_neg notOper] at listed
  cases conf with
  | none => exact h
  | some conf =>
    have noOper : (r.client u).umodes .oper = false := by
      simp only [RoleClient.isAnOper, Umodes.isAnOper, Bool.or_eq_true, not_or] at notOper
      exact Bool.eq_false_iff.2 notOper.1
    have notServer : ¬(r.client cptr).isServer := fun server => notLink ⟨server, noOper⟩
    have self : u = cptr := from_.sender.resolve_right fun behind => notServer behind.1
    have isClient : (r.client u).isClient = true := self ▸ known.resolve_right notServer
    have isLocal : (r.client u).localFlag = true := self ▸ from_.myConnect
    have same := visible.resolve_left notOper conf rfl
    let cl : RoleClient := { r.client u with
      privs := conf.privs, umodes := operModes conf (r.client u).umodes }
    have still : cl.isClient = true := isClient
    have oper : cl.isAnOper = true := operModes_isAnOper conf (r.client u).umodes
    refine h.setCount_share { r.count with oper := r.count.oper + 1 } cl from_.here listed rfl rfl
      rfl isLocal fun k => ?_
    cases k with
    | total => simp [Tally.get, CountField.share, CountField.counts, isClient, still]
    | invisi =>
      have same : cl.umodes .invisible = (r.client u).umodes .invisible := same
      simp [Tally.get, CountField.share, CountField.counts, isClient, still, same]
    | oper =>
      simp [Tally.get, CountField.share, CountField.counts, isClient, still, oper, notOper]
    | local_ =>
      have same : cl.localFlag = (r.client u).localFlag := rfl
      simp [Tally.get, CountField.share, CountField.counts, isClient, still, same]

theorem Steady.rewrite (h : Steady r) (cl : RoleClient) (here : u ∈ r.globalClientList)
    (was : (r.client u).isClient = false) (is : cl.isClient = false)
    (isLocal : cl.localFlag = true) (listed : Listed r')
    (client : r'.client = (r.setClient u cl).client)
    (list : r'.globalClientList = r.globalClientList) (count : r'.count = r.count) :
    Steady r' := by
  refine h.setCount_share r.count cl here listed client list count isLocal fun k => ?_
  rw [CountField.share_eq_zero was, CountField.share_eq_zero is]
  omega

theorem Steady.accept (h : Steady r) : Steady (r.makeClient none) := by
  refine ⟨h.listed.makeClient none, h.counts.makeClient none h.listed.fresh,
    (h.remotes.makeClient none).all fun remote => ?_⟩
  rw [makeClient_client] at remote
  cases remote

theorem Steady.introduceServer (h : Steady r) (name : CStr) :
    Steady (r.introduceServer cptr name) := by
  have counts := h.counts.makeClient (some cptr) h.listed.fresh
  have nodup := (h.listed.makeClient (some cptr)).nodup
  have cell := makeClient_client r (some cptr)
  refine ⟨h.listed.introduceServer name, counts.rewrite nodup List.mem_cons_self fun k => ?_, ?_⟩
  · rw [CountField.share_eq_zero rfl, cell, CountField.share_eq_zero rfl]
  · refine ((h.remotes.makeClient (some cptr)).setClient _).all fun _ => ?_
    rw [setClient_self]
    exact .inr (.inl rfl)

/-- Where an event does what it should to `Count`. -/
def Counts (r : Roles) : RoleEvent → Prop
  | .user cptr sptr server _ => r.ComesFrom cptr sptr → (r.client sptr).localFlag ∨
      (r.client sptr).isClient ∧ r.findServer server = none
  | .introduce cptr nick modes server =>
    r.ComesFrom cptr cptr ∧ (r.client cptr).isServer ∧ nick ≠ [] →
      (modes.tail.count 'i' ≤ 1 ∧ modes.tail.count 'o' ≤ 1) ∧ r.findServer server ≠ none
  | .oper cptr sptr conf =>
    ¬((r.client cptr).isServer ∧ (r.client sptr).umodes .oper = false) ∧
      ((r.client sptr).isAnOper ∨ conf.all fun c =>
        operModes c (r.client sptr).umodes .invisible == (r.client sptr).umodes .invisible)
  | _ => True

instance (r : Roles) : (e : RoleEvent) → Decidable (r.Counts e)
  | .user _ _ _ _ => inferInstanceAs (Decidable (_ → _))
  | .introduce _ _ _ _ => inferInstanceAs (Decidable (_ → _))
  | .oper _ _ _ => inferInstanceAs (Decidable (_ ∧ _))
  | .accept => isTrue trivial
  | .connectServer _ => isTrue trivial
  | .completed _ => isTrue trivial
  | .nick _ _ _ _ => isTrue trivial
  | .mode _ _ _ => isTrue trivial
  | .linkServer _ _ => isTrue trivial
  | .introduceServer _ _ => isTrue trivial
  | .exit _ _ => isTrue trivial
  | .lusers => isTrue trivial
  | .tick _ => isTrue trivial

theorem Steady.step (h : Steady r) (e : RoleEvent) (ok : r.Counts e) : Steady (r.step e) := by
  cases e with
  | accept => exact h.accept
  | connectServer name =>
    have made := h.accept
    have cell := makeClient_client r none
    refine made.rewrite (u := r.nextClient)
      { (r.makeClient none).client r.nextClient with name := name, status := .connecting }
      List.mem_cons_self ?_ rfl ?_ (h.listed.step (.connectServer name)) rfl rfl rfl
    · rw [cell]
      rfl
    · show ((r.makeClient none).client r.nextClient).localFlag = true
      rw [cell]
      rfl
  | completed u =>
    have listed := h.listed.step (.completed u)
    unfold Roles.step at listed ⊢
    dsimp only at listed ⊢
    split
    · next connecting =>
      rw [if_pos connecting] at listed
      obtain ⟨here, status⟩ := connecting
      have isLocal : (r.client u).localFlag = true := by
        by_contra remote
        have known := h.remotes u here nofun (by simpa using remote)
        simp [Introduced, status] at known
      refine h.rewrite { r.client u with status := .handshake } here ?_ rfl isLocal listed
        rfl rfl rfl
      simp [RoleClient.isClient, status]
    · exact h
  | user cptr sptr server outcome =>
    show Steady (ite _ _ _)
    split
    · next from_ =>
      rcases ok from_ with isLocal | ⟨isClient, ghost⟩
      · exact h.doUser from_.here from_.notMe isLocal
      · cases isLocal : (r.client sptr).localFlag with
        | true => exact h.doUser from_.here from_.notMe isLocal
        | false => exact h.ghost from_.here isLocal isClient ghost
    · exact h
  | nick cptr sptr nick outcome =>
    show Steady (ite _ _ _)
    split
    · next from_ =>
      exact h.changeNick from_.1.here from_.1.notMe (by simpa using from_.2.1) from_.2.2
    · exact h
  | introduce cptr nick modes server =>
    show Steady (ite _ _ _)
    split
    · next link =>
      obtain ⟨once, known⟩ := ok link
      exact h.introduceNick link.2.2 once known
    · exact h
  | mode cptr sptr modes =>
    show Steady (ite _ _ _)
    split
    · next from_ => exact h.userMode (from_.1.acting h.listed from_.2) modes
    · exact h
  | oper cptr sptr conf =>
    show Steady (ite _ _ _)
    split
    · next from_ =>
      refine h.mOper from_.1 from_.2 ok.1 (ok.2.imp_right fun same c given => ?_)
      simpa [given] using same
    · exact h
  | linkServer cptr name =>
    have listed := h.listed.step (.linkServer cptr name)
    unfold Roles.step at listed ⊢
    dsimp only at listed ⊢
    split
    · next from_ =>
      rw [if_pos from_] at listed
      refine h.rewrite { r.client cptr with name := name, status := .server } from_.1.here ?_ rfl
        from_.1.myConnect listed rfl rfl rfl
      rcases from_.2 with status | status <;> simp [RoleClient.isClient, status]
    · exact h
  | introduceServer cptr name =>
    show Steady (ite _ _ _)
    split
    · exact h.introduceServer name
    · exact h
  | exit u behind =>
    exact ⟨h.listed.exitClient u behind, h.counts.exitClient h.listed.nodup u behind,
      h.remotes.within (within_exitClient h.listed.nodup u behind)⟩
  | lusers => exact ⟨h.listed.recount, h.counts.recount, h.remotes.recount⟩
  | tick now => exact ⟨h.listed.step (.tick now), h.counts, h.remotes⟩

theorem steady_startUp (name : CStr) (now : Int) : Steady (startUp name now) := by
  have master : (startUp name now).client 0 =
      { RoleClient.zero with name := name, status := .me } := by simp [startUp]
  refine ⟨listed_startUp name now, fun k => ?_, fun v inside _ _ => ?_⟩
  · have none : (startUp name now).census k.counts = 0 := by
      have no : k.counts ((startUp name now).client 0) = false := by
        rw [master]
        exact CountField.counts_eq_false rfl
      simp only [census]
      show [0].countP (fun u => k.counts ((startUp name now).client u)) = 0
      simp [no]
    rw [none]
    cases k <;> rfl
  · have same : v = 0 := List.mem_singleton.1 inside
    rw [same, master]
    exact .inl rfl

structure CountsExact (r : Roles) : Prop where
  total : r.count.total = r.census RoleClient.isPerson
  invisi : r.count.invisi = r.census fun cl => cl.isPerson && cl.umodes .invisible
  oper : r.count.oper = r.census fun cl => cl.isPerson && (cl.umodes .oper || cl.umodes .locop)
  local_ : r.count.local_ = r.census fun cl => cl.isPerson && cl.localFlag

theorem Steady.countsExact (h : Steady r) : CountsExact r := by
  have person : ∀ v ∈ r.globalClientList, (r.client v).isPerson = (r.client v).isClient := by
    intro v here
    have sane := (h.listed.sane here).person
    cases isClient : (r.client v).isClient with
    | false => simp [RoleClient.isPerson, isClient]
    | true => simp [RoleClient.isPerson, isClient, sane isClient]
  have same : ∀ (k : CountField) (p : RoleClient → Bool), (∀ v ∈ r.globalClientList,
      p (r.client v) = k.counts (r.client v)) → r.count.get k = r.census p := by
    intro k p agree
    rw [h.counts k, Int.add_zero]
    exact congrArg Nat.cast (List.countP_congr fun v here => by rw [agree v here])
  constructor
  · exact same .total _ fun v here => person v here
  · exact same .invisi _ fun v here => by rw [person v here]; rfl
  · exact same .oper _ fun v here => by rw [person v here]; rfl
  · exact same .local_ _ fun v here => by rw [person v here]; rfl

/-- Along a run of events that count as they should, the counters never drift. -/
theorem countsExact_of_counts {name : CStr} {now : Int} {es : List RoleEvent}
    (ok : roleMachine.Meets Counts (startUp name now) es) {pre : List RoleEvent}
    (inside : pre <+: es) : CountsExact (roleMachine.run (startUp name now) pre) :=
  (ok.always (fun _ e h counts => h.step e counts) (steady_startUp name now) inside).countsExact

def countedRun : List RoleEvent :=
  [.accept, .linkServer 1 "a.net".toList,
   .introduce 1 "ann".toList "+io".toList "a.net".toList,
   .accept, .user 3 3 [] .accepted, .nick 3 3 "bob".toList .accepted,
   .mode 3 3 ["+iw-i+i-ii".toList], .mode 1 2 ["-o+o-oo".toList],
   .exit 3 [], .exit 1 [2]]

theorem countsExact_countedRun :
    CountsExact (roleMachine.run (startUp "me.net".toList 1) (countedRun.take 8)) ∧
      (roleMachine.run (startUp "me.net".toList 1) (countedRun.take 8)).count =
        { total := 2, invisi := 1, oper := 0, local_ := 1 } := by
  have ok : roleMachine.Meets Counts (startUp "me.net".toList 1) countedRun := by decide +kernel
  exact ⟨countsExact_of_counts ok (List.take_prefix 8 countedRun), by decide +kernel⟩

def repeatedLetterRun : List RoleEvent :=
  [.accept, .linkServer 1 "a.net".toList,
   .introduce 1 "ann".toList "+ii".toList "a.net".toList]

theorem repeatedLetter_not_countsExact :
    ¬CountsExact (roleMachine.run (startUp "me.net".toList 1) repeatedLetterRun) := fun exact_ =>
  absurd exact_.invisi (by decide +kernel)

end Roles

end Ircd
