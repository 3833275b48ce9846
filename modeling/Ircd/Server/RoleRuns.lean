import Ircd.Lib.Machine
import Ircd.Server.RoleLists

/-! Every message leaves the three role lists as they should be. -/

set_option autoImplicit false

namespace Ircd.Roles

variable {r r' : Roles} {u cptr : ClientId} {locals servs opers : List ClientId}

theorem makeClient_client (r : Roles) (from_ : Option ClientId) :
    (r.makeClient from_).client r.nextClient =
      { RoleClient.zero with localFlag := from_.isNone, from_ := from_.getD r.nextClient } :=
  Function.update_self ..

theorem Listed.makeUser (h : Listed r) (here : u ∈ r.globalClientList)
    (notMe : (r.client u).status ≠ .me) :
    Listed (r.setClient u { r.client u with user := true }) := by
  have sane := h.sane here
  exact h.write here notMe ⟨fun _ => rfl, sane.named, sane.plain⟩ rfl rfl rfl

theorem Listed.doUser (h : Listed r) {server : CStr} {outcome : Registration}
    (here : u ∈ r.globalClientList) (notMe : (r.client u).status ≠ .me) :
    Listed (r.doUser cptr u server outcome) := by
  have written := h.makeUser here notMe
  have cell : (r.setClient u { r.client u with user := true }).client u =
      { r.client u with user := true } := setClient_self ..
  have list : (r.setClient u { r.client u with user := true }).globalClientList =
      r.globalClientList := rfl
  unfold Roles.doUser
  dsimp only
  generalize r.setClient u { r.client u with user := true } = r₁ at written cell list ⊢
  have notMe₁ : (r₁.client u).status ≠ .me := by rw [cell]; exact notMe
  have user : (r₁.client u).user = true := by rw [cell]
  split
  · next remote =>
    refine written.registerUser (list.symm ▸ here) notMe₁ user fun isLocal => ?_
    simp [isLocal] at remote
  · split
    · exact written
    · next unknown =>
      have unknown : (r₁.client u).status = .unknown := not_not.1 unknown
      split
      · next named =>
        refine written.registerUser (list.symm ▸ here) notMe₁ user fun _ => ⟨?_, ?_, named, rfl⟩
        · simp [RoleClient.isServer, unknown]
        · simp [RoleClient.isClient, unknown]
      · exact written

theorem Listed.rename (h : Listed r) {nick : CStr} (here : u ∈ r.globalClientList)
    (notMe : (r.client u).status ≠ .me) (given : nick ≠ []) :
    Listed (r.setClient u { r.client u with name := nick }) := by
  have sane := h.sane here
  exact h.write here notMe ⟨sane.person, fun _ _ => given, sane.plain⟩ rfl rfl rfl

theorem Listed.notClient (h : Listed r) (here : u ∈ r.globalClientList)
    (isLocal : (r.client u).localFlag = true) (nameless : (r.client u).name = []) :
    (r.client u).isClient = false := by
  by_contra isClient
  exact (h.sane here).named isLocal (by simpa using isClient) nameless

theorem Listed.changeNick (h : Listed r) {nick : CStr} {outcome : Registration}
    (here : u ∈ r.globalClientList) (notMe : (r.client u).status ≠ .me)
    (notServer : (r.client u).isServer = false) (given : nick ≠ []) :
    Listed (r.changeNick cptr u nick outcome) := by
  have written := h.rename here notMe given
  have cell : (r.setClient u { r.client u with name := nick }).client u =
      { r.client u with name := nick } := setClient_self ..
  have list : (r.setClient u { r.client u with name := nick }).globalClientList =
      r.globalClientList := rfl
  unfold Roles.changeNick
  dsimp only
  generalize r.setClient u { r.client u with name := nick } = r₁ at written cell list ⊢
  split
  · next first =>
    obtain ⟨nameless, user⟩ := first
    apply written.registerUser (list.symm ▸ here)
    · rw [cell]
      exact notMe
    · rw [cell]
      exact user
    · rw [cell]
      intro isLocal
      exact ⟨notServer, h.notClient here isLocal nameless, given, rfl⟩
  · exact written

theorem Listed.introduceNick (h : Listed r) (nick modes server : CStr) :
    Listed (r.introduceNick cptr nick modes server) := by
  have made := h.makeClient (some cptr)
  have cell := makeClient_client r (some cptr)
  have here : r.nextClient ∈ (r.makeClient (some cptr)).globalClientList := List.mem_cons_self
  unfold Roles.introduceNick
  dsimp only
  generalize r.makeClient (some cptr) = r₁ at made cell here ⊢
  generalize modes.tail.foldl introducedLetter (r₁.count, .none) = introduced
  have counted := made.setCount introduced.1
  have notMe : ((r₁.setCount introduced.1).client r.nextClient).status ≠ .me := by
    show (r₁.client r.nextClient).status ≠ .me
    rw [cell]
    nofun
  have remote : ((r₁.setCount introduced.1).client r.nextClient).localFlag = false := by
    show (r₁.client r.nextClient).localFlag = false
    rw [cell]
    rfl
  have written : Listed ((r₁.setCount introduced.1).setClient r.nextClient
      { (r₁.setCount introduced.1).client r.nextClient with
        name := nick, umodes := introduced.2 }) := by
    refine counted.writeRemote here notMe remote remote fun isClient => ?_
    have unknown : (r₁.client r.nextClient).status = .unknown := by rw [cell]; rfl
    have isClient : (r₁.client r.nextClient).isClient = true := isClient
    simp [RoleClient.isClient, unknown] at isClient
  refine written.doUser here ?_
  rw [setClient_self]
  exact notMe

structure Modes (old cl : RoleClient) : Prop where
  name : cl.name = old.name
  status : cl.status = old.status
  localFlag : cl.localFlag = old.localFlag
  user : cl.user = old.user

theorem modes_umodes (cl : RoleClient) (umodes : Umodes) : Modes cl { cl with umodes := umodes } :=
  ⟨rfl, rfl, rfl, rfl⟩

theorem deoper_spec (r : Roles) (u : ClientId) : ∃ cl, Modes (r.client u) cl ∧
    cl.umodes = (r.client u).umodes.without operOnlyUmodes ∧
    (r.deoper u).client = (r.setClient u cl).client ∧
    (r.deoper u).globalClientList = r.globalClientList ∧
    (r.deoper u).count = { r.count with oper := r.count.oper - 1 } := by
  let cl : RoleClient := { r.client u with
    umodes := (r.client u).umodes.without operOnlyUmodes }
  unfold deoper
  dsimp only
  split
  · exact ⟨{ cl with privs := fun _ => false }, ⟨rfl, rfl, rfl, rfl⟩, rfl, rfl, rfl, rfl⟩
  · exact ⟨cl, ⟨rfl, rfl, rfl, rfl⟩, rfl, rfl, rfl, rfl⟩

/-- What one letter may do: nothing, grant operator status for a server, take it away, or
write another mode. -/
theorem umodeLetter_cases (cptr u : ClientId) (st : Roles × Bool) (letter : Char) :
    (umodeLetter cptr u st letter).1 = st.1 ∨
    ((st.1.client cptr).isServer ∧ (st.1.client u).umodes .oper = false ∧
      (umodeLetter cptr u st letter).1 =
        (st.1.setCount { st.1.count with oper := st.1.count.oper + 1 }).setClient u
          { st.1.client u with umodes := (st.1.client u).umodes.write .oper true }) ∨
    ((st.1.client u).isAnOper ∧ (umodeLetter cptr u st letter).1 = st.1.deoper u) ∨
    ∃ flag value, flag ≠ .oper ∧ flag ≠ .locop ∧ (umodeLetter cptr u st letter).1 =
      st.1.setClient u { st.1.client u with
        umodes := (st.1.client u).umodes.write flag value } := by
  obtain ⟨r, add⟩ := st
  have operLetter : ∀ st' : Roles × Bool, (if add then
      if (r.client cptr).isServer && !(r.client u).umodes .oper then
        ((r.setCount { r.count with oper := r.count.oper + 1 }).setClient u
          { r.client u with umodes := (r.client u).umodes.write .oper true }, true)
      else (r, add)
    else if (r.client u).isAnOper then (r.deoper u, false)
    else (r, add)) = st' → st'.1 = r ∨
      ((r.client cptr).isServer ∧ (r.client u).umodes .oper = false ∧ st'.1 =
        (r.setCount { r.count with oper := r.count.oper + 1 }).setClient u
          { r.client u with umodes := (r.client u).umodes.write .oper true }) ∨
      ((r.client u).isAnOper ∧ st'.1 = r.deoper u) := by
    rintro st' rfl
    split
    · split
      · next server =>
        simp only [Bool.and_eq_true, Bool.not_eq_true'] at server
        exact .inr (.inl ⟨server.1, server.2, rfl⟩)
      · exact .inl rfl
    · split
      · next oper => exact .inr (.inr ⟨oper, rfl⟩)
      · exact .inl rfl
  have wider : ∀ {a b c d : Prop}, a ∨ b ∨ c → a ∨ b ∨ c ∨ d := by
    rintro a b c d (h | h | h)
    · exact .inl h
    · exact .inr (.inl h)
    · exact .inr (.inr (.inl h))
  unfold Roles.umodeLetter
  dsimp only
  split
  · exact .inl rfl
  · exact .inl rfl
  · exact wider (operLetter _ rfl)
  · exact wider (operLetter _ rfl)
  · exact .inl rfl
  · exact .inl rfl
  · exact .inl rfl
  · exact .inl rfl
  · rename_i big small _ _ _ _
    split
    · next flag known =>
      obtain ⟨notOper, notLocop⟩ := Network.umodeOfLetter_plain big small known
      exact .inr (.inr (.inr ⟨flag, add, notOper, notLocop, rfl⟩))
    · exact .inl rfl

structure Acting (r : Roles) (cptr u : ClientId) : Prop where
  listed : Listed r
  here : u ∈ r.globalClientList
  isClient : (r.client u).isClient
  remote : (r.client cptr).isServer → (r.client u).localFlag = false

namespace Acting

theorem notMe (h : Acting r cptr u) : (r.client u).status ≠ .me := by
  have isClient := h.isClient
  simp only [RoleClient.isClient, beq_iff_eq] at isClient
  rw [isClient]
  decide

theorem setCount (h : Acting r cptr u) (count : Tally) : Acting (r.setCount count) cptr u :=
  ⟨h.listed.setCount count, h.here, h.isClient, h.remote⟩

variable {cl : RoleClient}

theorem sane (h : Acting r cptr u) (same : Modes (r.client u) cl) : cl.Sane := by
  have sane := h.listed.sane h.here
  have isClient : cl.isClient = true := by
    rw [RoleClient.isClient, same.status]
    exact h.isClient
  constructor
  · intro _
    rw [same.user]
    exact sane.person h.isClient
  · rw [same.localFlag, same.name]
    exact fun isLocal _ => sane.named isLocal h.isClient
  · intro _ no
    rw [isClient] at no
    cases no

theorem after (h : Acting r cptr u) (same : Modes (r.client u) cl) (client : r'.client =
    (r.setClient u cl).client) (list : r'.globalClientList = r.globalClientList)
    (listed : Listed r') : Acting r' cptr u := by
  have cell : r'.client u = cl := by rw [client, setClient_self]
  refine ⟨listed, list.symm ▸ h.here, ?_, fun isServer => ?_⟩
  · rw [cell, RoleClient.isClient, same.status]
    exact h.isClient
  · rw [cell, same.localFlag]
    apply h.remote
    rw [client] at isServer
    by_cases self : cptr = u
    · rw [self, setClient_self, RoleClient.isServer, same.status] at isServer
      rw [self]
      exact isServer
    · rwa [setClient_of_ne r self] at isServer

theorem write (h : Acting r cptr u) (same : Modes (r.client u) cl)
    (oper : (r.client u).localFlag = false ∨ cl.isAnOper = (r.client u).isAnOper) :
    Acting (r.setClient u cl) cptr u := by
  have isClient : cl.isClient = (r.client u).isClient := by
    rw [RoleClient.isClient, same.status]
    rfl
  refine h.after same rfl rfl (h.listed.write h.here h.notMe (h.sane same) ?_ ?_ ?_)
  · rw [RoleClient.isLocalUser, same.localFlag, isClient]
    rfl
  · rw [RoleClient.isLink, same.localFlag, RoleClient.isServer, same.status]
    rfl
  · rcases oper with remote | oper
    · simp [RoleClient.isLocalOper, same.localFlag, remote]
    · rw [RoleClient.isLocalOper, same.localFlag, isClient, oper]
      rfl

theorem deoper (h : Acting r cptr u) : Acting (r.deoper u) cptr u := by
  have counted := h.setCount { r.count with oper := r.count.oper - 1 }
  have none : ((r.client u).umodes.without operOnlyUmodes).isAnOper = false := by
    simp [Umodes.isAnOper, Umodes.without, operOnlyUmodes, Umodes.ofList]
  unfold Roles.deoper
  dsimp only
  split
  · next isLocal =>
    let cl : RoleClient := { r.client u with
      umodes := (r.client u).umodes.without operOnlyUmodes, privs := fun _ => false }
    have same : Modes (r.client u) cl := ⟨rfl, rfl, rfl, rfl⟩
    obtain ⟨locals, servs, opers, chains, rolls⟩ := h.listed
    have short := rolls.length_le rolls.opers_nodup fun v inside =>
      ((rolls.opers_iff v).1 inside).2.1
    refine counted.after same rfl rfl ⟨locals, servs, opers.erase u,
      ⟨chains.localList, chains.servList, files_del chains.operList rolls.opers_nodup short⟩, ?_⟩
    have entry : ∀ v, v ∈ opers.erase u ↔ v ≠ u ∧ v ∈ opers := fun v =>
      rolls.opers_nodup.mem_erase_iff
    refine (rolls.rewrite h.here h.notMe (h.sane same)
      ⟨rolls.locals_nodup, rolls.servs_nodup, rolls.opers_nodup.erase u⟩ ⟨?_, ?_, ?_⟩
      fun v other => ⟨Iff.rfl, Iff.rfl, by simp [entry, other]⟩).same rfl rfl rfl rfl
    · exact (rolls.locals_iff u).trans
        ⟨fun listed => listed.2.2, fun is => ⟨Option.some_ne_none u, h.here, is⟩⟩
    · exact (rolls.servs_iff u).trans
        ⟨fun listed => listed.2.2, fun is => ⟨Option.some_ne_none u, h.here, is⟩⟩
    · rw [entry]
      simp [RoleClient.isLocalOper, cl, RoleClient.isAnOper, none]
  · next remote =>
    have remote : (r.client u).localFlag = false := by simpa using remote
    exact counted.write ⟨rfl, rfl, rfl, rfl⟩ (.inl remote)

theorem umodeLetter {st : Roles × Bool} (h : Acting st.1 cptr u) (letter : Char) :
    Acting (umodeLetter cptr u st letter).1 cptr u := by
  rcases umodeLetter_cases cptr u st letter with same | ⟨server, _, granted⟩ | ⟨_, taken⟩ |
    ⟨flag, value, notOper, notLocop, written⟩
  · rw [same]
    exact h
  · rw [granted]
    exact (h.setCount _).write ⟨rfl, rfl, rfl, rfl⟩ (.inl (h.remote server))
  · rw [taken]
    exact h.deoper
  · rw [written]
    refine h.write ⟨rfl, rfl, rfl, rfl⟩ (.inr ?_)
    simp [RoleClient.isAnOper, Umodes.isAnOper, Umodes.write, notOper.symm, notLocop.symm]

theorem letters (text : CStr) (st : Roles × Bool) (h : Acting st.1 cptr u) :
    Acting (text.foldl (Roles.umodeLetter cptr u) st).1 cptr u := by
  induction text generalizing st with
  | nil => exact h
  | cons letter text ih => exact ih _ (h.umodeLetter letter)

theorem repair (h : Acting r cptr u) (p : Repair) (plain : p.flag ≠ .oper ∧ p.flag ≠ .locop) :
    Acting (repair u r p) cptr u := by
  unfold Roles.repair
  dsimp only
  split
  · refine h.write ⟨rfl, rfl, rfl, rfl⟩ (.inr ?_)
    simp [RoleClient.isAnOper, Umodes.isAnOper, Umodes.write, plain.1.symm, plain.2.symm]
  · exact h

theorem repairs (list : List Repair) (h : Acting r cptr u)
    (plain : ∀ p ∈ list, p.flag ≠ .oper ∧ p.flag ≠ .locop) :
    Acting (list.foldl (Roles.repair u) r) cptr u := by
  induction list generalizing r with
  | nil => exact h
  | cons p list ih =>
    exact ih (h.repair p (plain p List.mem_cons_self)) fun q inside =>
      plain q (List.mem_cons_of_mem p inside)

theorem userMode (h : Acting r cptr u) (modes : List CStr) :
    Listed (r.userMode cptr u modes) := by
  have done := (h.letters modes.flatten (r, true)).repairs Ircd.repairs (by decide)
  unfold Roles.userMode
  dsimp only
  split
  · exact done.listed.setCount _
  · split
    · exact done.listed.setCount _
    · exact done.listed

end Acting

theorem operModes_isAnOper (conf : OperConf) (m : Umodes) : (operModes conf m).isAnOper = true := by
  unfold operModes
  cases conf.locop with
  | true => cases conf.hold <;> simp [Umodes.isAnOper, Umodes.join, Umodes.write]
  | false =>
    cases conf.hold <;> cases conf.privs .n <;> cases conf.privs .admin <;>
      simp [Umodes.isAnOper, Umodes.join, Umodes.write]

theorem Listed.mOper (h : Listed r) {conf : Option OperConf} (from_ : r.ComesFrom cptr u)
    (known : (r.client cptr).isClient ∨ (r.client cptr).isServer) :
    Listed (r.mOper cptr u conf) := by
  unfold Roles.mOper
  dsimp only
  split
  · exact h.setCount _
  next notServer =>
  split
  · exact h
  next notOper =>
  cases conf with
  | none => exact h
  | some conf =>
    have isOper : ¬(r.client u).umodes .oper := fun oper =>
      notOper (by simp [RoleClient.isAnOper, Umodes.isAnOper, oper])
    have notLink : ¬(r.client cptr).isServer := fun link => notServer ⟨link, by simpa using isOper⟩
    have self : u = cptr := from_.sender.resolve_right fun behind => notLink behind.1
    subst self
    have isClient := known.resolve_right notLink
    have isLocal := from_.myConnect
    obtain ⟨locals, servs, opers, chains, rolls⟩ := h
    have off : u ∉ opers := by
      intro inside
      have is := ((rolls.opers_iff u).1 inside).2.2
      simp [RoleClient.isLocalOper, notOper] at is
    obtain ⟨filed, files⟩ := chains.operList
    refine ⟨locals, servs, u :: opers, ⟨chains.localList, chains.servList, _, files.add off⟩, ?_⟩
    have sane := rolls.sane u from_.here
    refine (rolls.rewrite from_.here from_.notMe
      (show ({ r.client u with
          privs := conf.privs, umodes := operModes conf (r.client u).umodes } : RoleClient).Sane
        from ⟨sane.person, sane.named, fun _ no => ?_⟩)
      ⟨rolls.locals_nodup, rolls.servs_nodup, List.nodup_cons.2 ⟨off, rolls.opers_nodup⟩⟩
      ⟨?_, ?_, ?_⟩ fun v other => ⟨Iff.rfl, Iff.rfl, by simp [other]⟩).same rfl rfl rfl rfl
    · exact absurd isClient (Bool.eq_false_iff.1 no)
    · exact (rolls.locals_iff u).trans ⟨fun listed => listed.2.2,
        fun is => ⟨Option.some_ne_none u, from_.here, is⟩⟩
    · exact (rolls.servs_iff u).trans ⟨fun listed => listed.2.2,
        fun is => ⟨Option.some_ne_none u, from_.here, is⟩⟩
    · have oper := operModes_isAnOper conf (r.client u).umodes
      have isClient : ((r.client u).status == .client) = true := isClient
      simp [RoleClient.isLocalOper, RoleClient.isClient, RoleClient.isAnOper, isLocal, isClient,
        oper]

theorem Listed.linkServer (h : Listed r) (name : CStr) (from_ : r.ComesFrom u u)
    (fresh : (r.client u).status = .unknown ∨ (r.client u).status = .handshake) :
    Listed (r.linkServer u name) := by
  obtain ⟨locals, servs, opers, chains, rolls⟩ := h
  have notClient : (r.client u).isClient = false := by
    rcases fresh with status | status <;> simp [RoleClient.isClient, status]
  have notServer : (r.client u).isServer = false := by
    rcases fresh with status | status <;> simp [RoleClient.isServer, status]
  have off : u ∉ servs := by
    intro inside
    have is := ((rolls.servs_iff u).1 inside).2.2
    simp [RoleClient.isLink, notServer] at is
  obtain ⟨filed, files⟩ := chains.servList
  refine ⟨locals, u :: servs, opers, ⟨chains.localList, ⟨_, files.add off⟩, chains.operList⟩, ?_⟩
  have isLocal := from_.myConnect
  have sane := rolls.sane u from_.here
  refine (rolls.rewrite from_.here from_.notMe
    (show ({ r.client u with name := name, status := .server } : RoleClient).Sane
      from ⟨fun is => (by cases is), fun _ is => (by cases is),
        fun _ _ => sane.plain isLocal notClient⟩)
    ⟨rolls.locals_nodup, List.nodup_cons.2 ⟨off, rolls.servs_nodup⟩, rolls.opers_nodup⟩
    ⟨?_, ?_, ?_⟩ fun v other => ⟨Iff.rfl, by simp [other], Iff.rfl⟩).same rfl rfl rfl rfl
  · rw [rolls.locals_iff, RoleClient.isLocalUser_eq_false notClient,
      RoleClient.isLocalUser_eq_false rfl]
    simp
  · simp [RoleClient.isLink, RoleClient.isServer, isLocal]
  · rw [rolls.opers_iff, RoleClient.isLocalOper_eq_false notClient,
      RoleClient.isLocalOper_eq_false rfl]
    simp

theorem Listed.introduceServer (h : Listed r) (name : CStr) :
    Listed (r.introduceServer cptr name) := by
  have made := h.makeClient (some cptr)
  have cell := makeClient_client r (some cptr)
  refine made.writeRemote List.mem_cons_self ?_ ?_ ?_ nofun
  · rw [cell]
    nofun
  · rw [cell]
    rfl
  · rw [cell]
    rfl

theorem Listed.proceed (h : Listed r) {name : CStr} {status : Status}
    (here : u ∈ r.globalClientList)
    (fresh : (r.client u).status = .unknown ∨ (r.client u).status = .connecting)
    (next : status = .connecting ∨ status = .handshake) :
    Listed (r.setClient u { r.client u with name := name, status := status }) := by
  have sane := h.sane here
  have notClient : (r.client u).isClient = false := by
    rcases fresh with this | this <;> simp [RoleClient.isClient, this]
  have notServer : (r.client u).isServer = false := by
    rcases fresh with this | this <;> simp [RoleClient.isServer, this]
  let cl : RoleClient := { r.client u with name := name, status := status }
  have noClient : cl.isClient = false := by rcases next with rfl | rfl <;> rfl
  have noServer : cl.isServer = false := by rcases next with rfl | rfl <;> rfl
  refine h.write here ?_
    ⟨fun yes => ?_, fun _ yes => ?_, fun isLocal _ => sane.plain isLocal notClient⟩ ?_ ?_ ?_
  · rcases fresh with this | this <;> simp [this]
  · exact absurd yes (Bool.eq_false_iff.1 noClient)
  · exact absurd yes (Bool.eq_false_iff.1 noClient)
  · rw [RoleClient.isLocalUser_eq_false noClient, RoleClient.isLocalUser_eq_false notClient]
  · rw [RoleClient.isLink_eq_false noServer, RoleClient.isLink_eq_false notServer]
  · rw [RoleClient.isLocalOper_eq_false noClient, RoleClient.isLocalOper_eq_false notClient]

theorem ComesFrom.acting (from_ : r.ComesFrom cptr u) (h : Listed r)
    (person : (r.client u).isPerson) : Acting r cptr u := by
  simp only [RoleClient.isPerson, Bool.and_eq_true] at person
  refine ⟨h, from_.here, person.1, fun link => ?_⟩
  rcases from_.sender with rfl | behind
  · have both := person.1
    simp only [RoleClient.isClient, RoleClient.isServer, beq_iff_eq] at both link
    rw [link] at both
    cases both
  · exact behind.2.1

theorem Listed.step (h : Listed r) (e : RoleEvent) : Listed (r.step e) := by
  cases e with
  | accept => exact h.makeClient none
  | connectServer name =>
    refine (h.makeClient none).proceed List.mem_cons_self (.inl ?_) (.inl rfl)
    rw [makeClient_client]
    rfl
  | completed u =>
    show Listed (ite _ _ _)
    split
    · next connecting => exact h.proceed connecting.1 (.inr connecting.2) (.inr rfl)
    · exact h
  | user cptr sptr server outcome =>
    show Listed (ite _ _ _)
    split
    · next from_ => exact h.doUser from_.here from_.notMe
    · exact h
  | nick cptr sptr nick outcome =>
    show Listed (ite _ _ _)
    split
    · next from_ =>
      exact h.changeNick from_.1.here from_.1.notMe (by simpa using from_.2.1) from_.2.2
    · exact h
  | introduce cptr nick modes server =>
    show Listed (ite _ _ _)
    split
    · exact h.introduceNick nick modes server
    · exact h
  | mode cptr sptr modes =>
    show Listed (ite _ _ _)
    split
    · next from_ => exact (from_.1.acting h from_.2).userMode modes
    · exact h
  | oper cptr sptr conf =>
    show Listed (ite _ _ _)
    split
    · next from_ => exact h.mOper from_.1 from_.2
    · exact h
  | linkServer cptr name =>
    show Listed (ite _ _ _)
    split
    · next from_ => exact h.linkServer name from_.1 from_.2
    · exact h
  | introduceServer cptr name =>
    show Listed (ite _ _ _)
    split
    · exact h.introduceServer name
    · exact h
  | exit u behind => exact h.exitClient u behind
  | lusers => exact h.recount
  | tick now => exact h.same rfl rfl rfl rfl rfl rfl rfl

theorem listed_startUp (name : CStr) (now : Int) : Listed (startUp name now) := by
  have alone : ∀ v, v ∈ (startUp name now).globalClientList ↔ v = 0 := fun v => List.mem_singleton
  have master : (startUp name now).client 0 =
      { RoleClient.zero with name := name, status := .me } := by simp [startUp]
  have places : ∀ p : RoleClient → Bool, p { RoleClient.zero with name := name, status := .me } =
      false → ∀ v, v ∈ ([] : List ClientId) ↔ some v ≠ none ∧
        v ∈ (startUp name now).globalClientList ∧ p ((startUp name now).client v) := by
    intro p no v
    rw [alone]
    refine ⟨nofun, fun ⟨_, here, yes⟩ => ?_⟩
    rw [here, master, no] at yes
    cases yes
  refine ⟨[], [], [], ⟨.empty, ⟨_, .empty⟩, ⟨_, .empty⟩⟩, ?_⟩
  refine ⟨List.nodup_singleton 0, ?_, ?_, ⟨List.mem_singleton_self 0, ?_⟩, .nil, .nil, .nil,
    places _ rfl, places _ rfl, places _ rfl⟩
  · intro v inside
    rw [(alone v).1 inside]
    exact Nat.zero_lt_one
  · intro v inside
    rw [(alone v).1 inside, master]
    exact ⟨nofun, nofun, fun _ _ => rfl⟩
  · exact congrArg RoleClient.status master

theorem listed_run (name : CStr) (now : Int) (es : List RoleEvent) :
    Listed (roleMachine.run (startUp name now) es) :=
  Machine.run_keeps (fun _ e h => h.step e) (listed_startUp name now) es

/-- The list from `head` on holds exactly the clients of `p`, each once. -/
structure HoldsExactly (r : Roles) (next : ClientId → Option ClientId) (head : Option ClientId)
    (p : RoleClient → Prop) (list : List ClientId) : Prop where
  linked : Chain.Linked next head list
  once : list.Nodup
  exact_ : ∀ u, u ∈ list ↔ u ∈ r.globalClientList ∧ p (r.client u)

/-- The role lists hold exactly the registered local users, the directly linked servers and
the local users with operator or local operator mode. -/
structure RoleListsExact (r : Roles) : Prop where
  localList : ∃ list, r.HoldsExactly r.localCptrList.next (r.localCptrList.heads ())
    (fun cl => cl.localFlag ∧ cl.isPerson) list ∧
    Chain.Back r.localCptrList.prev none list
  servList : ∃ list, r.HoldsExactly r.servCptrList.next (r.servCptrList.list ())
    (fun cl => cl.localFlag ∧ cl.isServer) list
  operList : ∃ list, r.HoldsExactly r.operCptrList.next (r.operCptrList.list ())
    (fun cl => cl.localFlag ∧ cl.isPerson ∧ (cl.umodes .oper ∨ cl.umodes .locop)) list

theorem filed_exactly {t : ChainTable Unit ClientId} {chain : List ClientId}
    {p : RoleClient → Bool} {q : RoleClient → Prop}
    (files : ∃ chains, t.Files (fun _ => ()) id chain chains)
    (iff : ∀ v, v ∈ chain ↔ some v ≠ none ∧ v ∈ r.globalClientList ∧ p (r.client v))
    (same : ∀ v ∈ r.globalClientList, p (r.client v) ↔ q (r.client v)) :
    ∃ list, r.HoldsExactly t.next (t.list ()) q list := by
  obtain ⟨chains, files⟩ := files
  refine ⟨chains (), files.linked (), files.nodup (), fun u => ?_⟩
  rw [files.filed, iff]
  constructor
  · rintro ⟨⟨-, here, is⟩, -⟩
    exact ⟨here, (same u here).1 is⟩
  · rintro ⟨here, is⟩
    exact ⟨⟨nofun, here, (same u here).2 is⟩, rfl⟩

theorem Listed.listsExact (h : Listed r) : RoleListsExact r := by
  obtain ⟨locals, servs, opers, chains, rolls⟩ := h
  have person : ∀ v ∈ r.globalClientList, (r.client v).isPerson = (r.client v).isClient := by
    intro v here
    have sane := (rolls.sane v here).person
    cases isClient : (r.client v).isClient with
    | false => simp [RoleClient.isPerson, isClient]
    | true => simp [RoleClient.isPerson, isClient, sane isClient]
  constructor
  · have double := chains.localList.double ()
    refine ⟨locals, ⟨double.forth, rolls.locals_nodup, fun u => ?_⟩, double.back⟩
    rw [rolls.locals_iff]
    simp only [ne_eq, reduceCtorEq, not_false_eq_true, true_and, RoleClient.isLocalUser,
      Bool.and_eq_true]
    exact and_congr_right fun here => by rw [person u here]
  · refine filed_exactly chains.servList rolls.servs_iff fun v _ => ?_
    simp [RoleClient.isLink]
  · refine filed_exactly chains.operList rolls.opers_iff fun v here => ?_
    rw [person v here]
    simp [RoleClient.isLocalOper, RoleClient.isAnOper, Umodes.isAnOper, and_assoc]

/-- Between two messages the role lists are exact. -/
theorem roleLists_exact (name : CStr) (now : Int) (es : List RoleEvent) :
    RoleListsExact (roleMachine.run (startUp name now) es) :=
  (listed_run name now es).listsExact

end Ircd.Roles
