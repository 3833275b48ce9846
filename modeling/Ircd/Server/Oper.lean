import Ircd.Conf.Attach
import Ircd.Server.UserMode

/-! OPER and the `-o` that ends it, with the configuration entries of the user.

`m_oper` attaches the O-line to the user, sets its modes, its privileges and two bits that
exempt it from bans, and puts it on the list of operators. The `-o` of `user_mode` goes
through the same things with a list of its own.
-/

set_option autoImplicit false

namespace Ircd

structure Opers where
  net : Network
  confs : ConfTables

structure OperLoop extends UmodeLoop where
  confs : ConfTables

/-- The letters of `oper_privs_as_string`, with and without the privilege; `OPERSPY` is not
defined. -/
def privLetters : List (OperPriv × Char × Char) :=
  [(.admin, 'A', 'a'), (.gline, 'G', 'g'), (.k, 'K', 'k'), (.n, 'N', 'n'),
   (.globalKill, 'O', 'o'), (.remote, 'R', 'r'), (.unkline, 'U', 'u'), (.rehash, 'H', 'h'),
   (.statsphide, 'P', 'p'), (.unidle, 'I', 'i'), (.die, 'D', 'd'), (.ospylog, 'Z', 'z')]

def operPrivsAsString (privs : OperPriv → Bool) : CStr :=
  privLetters.map fun (priv, on, off) => if privs priv then on else off

/-- The modes that the O-line gives, where the user has the privileges `privs`. -/
def Conf.operModes (aconf : Conf) (privs : OperPriv → Bool) (m : Umodes) : Umodes :=
  if aconf.kind = .locop then
    let m := m.write .locop true
    match aconf.hold with
    | some hold => m.join fun f => hold f && allUmodes f
    | none => m.join locopUmodes
  else
    let m := m.write .oper true
    match aconf.hold with
    | some hold =>
      let m := m.join fun f => hold f && allUmodes f
      let m := if privs .n then m else m.write .nchange false
      if privs .admin then m.write .admin false else m
    | none => m.join (if privs .admin then adminUmodes else operUmodes)

namespace Opers

/-- The body of the loop over the letters. An operator of ours that gives up its status
loses the entry at the head of its list. -/
def umodeLetter (cptr sptr : ClientId) (st : OperLoop) (letter : Char) : OperLoop where
  toUmodeLoop := Network.umodeLetter cptr sptr st.toUmodeLoop letter
  confs :=
    if (letter = 'O' ∨ letter = 'o') ∧ !st.add ∧ (st.net.peer sptr).umodes.isAnOper ∧
        (st.net.client sptr).myConnect then
      match (st.confs.attached sptr).head? with
      | some aconf => st.confs.detachConf sptr aconf
      | none => st.confs
    else st.confs

/-- `user_mode`; `args` are the parameters after `parv[0]`. -/
def userMode (o : Opers) (cptr sptr : ClientId) (args : List CStr) : Opers where
  net := o.net.userMode cptr sptr args
  confs :=
    match args with
    | [] => o.confs
    | nick :: modes =>
      if o.net.findPerson nick = some sptr ∧ (o.net.client sptr).isServer = false then
        (modes.flatten.foldl (umodeLetter cptr sptr)
          { net := o.net, add := true, badflag := false, confs := o.confs }).confs
      else o.confs

/-- The entry that `m_oper` looks for, by host name and then by address. -/
def operConf (o : Opers) (cptr sptr : ClientId) (name : CStr) : Option ConfId :=
  let cl := o.net.client sptr
  match o.confs.findOpsConf name cl.username cl.host with
  | some aconf => some aconf
  | none => o.confs.findOpsConf name cl.username (o.net.client cptr).ip

def enroll (o : Opers) (cptr : ClientId) : Opers :=
  let confs := o.confs.setGrants cptr
    { o.confs.grants cptr with eLined := true, exemptGline := true }
  let privs := match (confs.attached cptr).head? with
    | some paconf => fun p => (o.net.peer cptr).privs p || (confs.conf paconf).privs p
    | none => (o.net.peer cptr).privs
  let net := o.net.setCount { o.net.count with oper := o.net.count.oper + 1 }
  { net := { net.setPeer cptr { net.peer cptr with privs := privs } with
      operCptrList := cptr :: net.operCptrList }
    confs }

/-- What `m_oper` does once the O-line is attached. -/
def becomeOper (o : Opers) (cptr sptr : ClientId) (aconf : ConfId) : Opers :=
  let old := (o.net.peer sptr).umodes
  let o := o.enroll cptr
  let conf := o.confs.conf aconf
  let peer := o.net.peer sptr
  let net := o.net.setUmodes sptr (conf.operModes peer.privs peer.umodes)
  let name := net.nameOf sptr
  let net :=
    if conf.hold.isSome then
      net.sendLine sptr (':' :: net.meName ++ lit " NOTICE " ++ name ++
        lit " :*** Oper flags set from conf")
    else net
  let net := net.sendUmodeOut cptr sptr old
  let net := net.sendLine sptr (':' :: net.meName ++ lit " 381 " ++ name ++
    lit " :You have entered... the Twilight Zone!.")
  let net := net.sendLine sptr (':' :: net.meName ++ lit " NOTICE " ++ name ++
    lit " :*** Oper privs are " ++ operPrivsAsString (net.peer sptr).privs)
  { o with net }

/-- `m_oper`; `args` are the parameters after `parv[0]`, and `crypt` is the function of the
C library. -/
def mOper (crypt : CStr → CStr → CStr) (o : Opers) (cptr sptr : ClientId) (args : List CStr) :
    Opers :=
  let name := args.getD 0 []
  let password := args.getD 1 []
  let n := o.net
  let nick := n.nameOf sptr
  if (n.client cptr).isServer = false ∧ (name = [] ∨ password = []) then
    { o with net := n.reply sptr .errNeedMoreParams [lit "OPER"] }
  else if (n.client cptr).isServer ∧ !(n.peer sptr).umodes .oper then
    -- the flag goes to `flags`, where no test of operator status looks
    let n := n.setCount { n.count with oper := n.count.oper + 1 }
    let text := ':' :: nick ++ lit " MODE " ++ nick ++ lit " :+o"
    let told := n.servCptrList.filter (· ≠ cptr)
    { o with net := told.foldl (fun n acptr => n.sendLine acptr text) n }
  else if (n.peer sptr).umodes.isAnOper then
    if (n.client sptr).myConnect then
      { o with net := n.sendLine sptr (':' :: n.meName ++ lit " 381 " ++ nick ++
          lit " :You have entered... the Twilight Zone!.") }
    else o
  else match o.operConf cptr sptr name with
    | none => { o with net := n.sendLine sptr (':' :: n.meName ++ lit " 491 " ++ nick ++
        lit " :Only few of mere mortals may try to enter the twilight zone") }
    | some aconf =>
      let passwd := (o.confs.conf aconf).passwd
      let encr := if passwd = [] then [] else crypt password passwd
      let (confs, refused) := o.confs.attachConf sptr aconf
      if encr = passwd ∧ refused = 0 then
        { o with confs }.becomeOper cptr sptr aconf
      else
        { net := n.sendLine sptr (':' :: n.meName ++ lit " 464 " ++ nick ++
            lit " :Password Incorrect")
          confs := o.confs.detachConf sptr aconf }

end Opers

namespace Network

theorem isAnOper_write (m : Umodes) {flag : Umode} (value : Bool)
    (plain : flag ≠ .oper ∧ flag ≠ .locop) : (m.write flag value).isAnOper = m.isAnOper := by
  simp [Umodes.isAnOper, Umodes.write, plain.1.symm, plain.2.symm]

structure SameRole (u : ClientId) (n n' : Network) : Prop where
  oper : (n'.peer u).umodes.isAnOper = (n.peer u).umodes.isAnOper
  privs : (n'.peer u).privs = (n.peer u).privs
  list : n'.operCptrList = n.operCptrList

namespace SameRole

variable {u : ClientId} {n n' n'' : Network}

theorem of_eq (peer : n'.peer = n.peer) (list : n'.operCptrList = n.operCptrList) :
    SameRole u n n' where
  oper := by rw [peer]
  privs := by rw [peer]
  list := list

theorem trans (h : SameRole u n n') (h' : SameRole u n' n'') : SameRole u n n'' where
  oper := h'.oper.trans h.oper
  privs := h'.privs.trans h.privs
  list := h'.list.trans h.list

theorem setUmodes (u : ClientId) (n : Network) {m : Umodes}
    (oper : m.isAnOper = (n.peer u).umodes.isAnOper) : SameRole u n (n.setUmodes u m) where
  oper := by
    rw [setUmodes_umodes]
    exact oper
  privs := by simp [Network.setUmodes]
  list := rfl

theorem repaired (u : ClientId) (rs : List Repair) (n : Network)
    (plain : ∀ r ∈ rs, r.flag ≠ .oper ∧ r.flag ≠ .locop) :
    SameRole u n (rs.foldl (repair u) n) := by
  induction rs generalizing n with
  | nil => exact .of_eq rfl rfl
  | cons r rs ih =>
    have first : SameRole u n (repair u n r) := by
      unfold repair
      dsimp only
      split
      · have oper := isAnOper_write (n.peer u).umodes false (plain r List.mem_cons_self)
        have told : ∀ text, SameRole u n (n.sendLine u text) := fun _ => .of_eq rfl rfl
        exact (told _).trans (setUmodes u _ oper)
      · exact .of_eq rfl rfl
    exact first.trans (ih _ fun q inside => plain q (List.mem_cons_of_mem r inside))

theorem countInvisible (u : ClientId) (n : Network) (old new : Umodes) :
    SameRole u n (n.countInvisible old new) := by
  unfold Network.countInvisible
  split
  · exact .of_eq rfl rfl
  · split <;> exact .of_eq rfl rfl

theorem sendUmodeOut (u : ClientId) (n : Network) (cptr sptr : ClientId) (old : Umodes) :
    SameRole u n (n.sendUmodeOut cptr sptr old) := by
  have told : ∀ (buf : CStr) (links : List ClientId) (n : Network),
      (links.foldl (tellUmodes cptr sptr buf) n).operCptrList = n.operCptrList := by
    intro buf links
    induction links with
    | nil => exact fun _ => rfl
    | cons acptr links ih =>
      intro n
      have first : (tellUmodes cptr sptr buf n acptr).operCptrList = n.operCptrList := by
        unfold tellUmodes
        split <;> rfl
      exact (ih _).trans first
  refine .of_eq (sendUmodeOut_same n cptr sptr old).peer ?_
  unfold Network.sendUmodeOut
  dsimp only
  split
  · exact told _ _ _
  · exact told _ _ _

theorem changeUmodes (u : ClientId) (n : Network) (modes : List CStr) :
    SameRole u (n.readUmodes u u modes) (n.changeUmodes u u modes) := by
  unfold Network.changeUmodes
  dsimp only
  exact ((repaired u repairs _ (by decide)).trans (.countInvisible u _ _ _)).trans
    (.sendUmodeOut u _ u u _)

end SameRole

structure Plain (n : Network) (u : ClientId) : Prop where
  notOper : (n.peer u).umodes.isAnOper = false
  privs : ∀ priv, (n.peer u).privs priv = false
  offList : u ∉ n.operCptrList

structure Opered (n : Network) (u : ClientId) : Prop where
  oper : (n.peer u).umodes.isAnOper = true
  once : u ∉ n.operCptrList.erase u

theorem SameRole.plain {u : ClientId} {n n' : Network} (h : SameRole u n n') (plain : Plain n u) :
    Plain n' u where
  notOper := h.oper.trans plain.notOper
  privs := fun priv => (congrFun h.privs priv).trans (plain.privs priv)
  offList := by
    rw [h.list]
    exact plain.offList

theorem SameRole.opered {u : ClientId} {n n' : Network} (h : SameRole u n n')
    (opered : Opered n u) : Opered n' u where
  oper := h.oper.trans opered.oper
  once := by
    rw [h.list]
    exact opered.once

theorem Opered.deoper {n : Network} {u : ClientId} (h : Opered n u)
    (mine : (n.client u).myConnect = true) : Plain (n.deoper u) u := by
  have still : ((n.setUmodes u ((n.peer u).umodes.without operOnlyUmodes)).client u).myConnect =
      true := by
    rw [Client.myConnect, (OnlyUmodes.setUmodes u n _).localFlag]
    exact mine
  refine ⟨?_, ?_, ?_⟩
  · rw [deoper_umodes]
    simp [Umodes.isAnOper, Umodes.without, operOnlyUmodes, Umodes.ofList]
  · intro priv
    unfold Network.deoper
    dsimp only [setCount]
    rw [if_pos still]
    simp [dropPrivs]
  · unfold Network.deoper
    dsimp only [setCount]
    rw [if_pos still]
    exact h.once

def Deopers (n : Network) (u : ClientId) (add : Bool) (letter : Char) : Prop :=
  (letter = 'O' ∨ letter = 'o') ∧ !add ∧ (n.peer u).umodes.isAnOper ∧ (n.client u).myConnect

theorem umodeLetter_role {u : ClientId} {st : UmodeLoop} {letter : Char}
    (person : LocalUser st.net u) :
    (Deopers st.net u st.add letter → (umodeLetter u u st letter).net = st.net.deoper u) ∧
      (¬ Deopers st.net u st.add letter → SameRole u st.net (umodeLetter u u st letter).net) := by
  have mine : (st.net.client u).isServer = false := by
    have client := person.client
    simp only [Client.isClient, beq_iff_eq] at client
    simp [Client.isServer, client]
  have connected : (st.net.client u).myConnect = true := person.localFlag
  -- o and O: nothing is gained by a client, and an operator can be undone
  have operLetter : ∀ n' : Network, (if st.add then
      if (st.net.client u).isServer && !(st.net.peer u).umodes .oper then
        { st with
          net := (st.net.setCount { st.net.count with oper := st.net.count.oper + 1 }).setUmodes
            u ((st.net.peer u).umodes.write .oper true) }
      else st
    else if (st.net.peer u).umodes.isAnOper then { st with net := st.net.deoper u }
    else st).net = n' → (st.add = false ∧ (st.net.peer u).umodes.isAnOper = true →
        n' = st.net.deoper u) ∧
      (¬ (st.add = false ∧ (st.net.peer u).umodes.isAnOper = true) → SameRole u st.net n') := by
    rintro n' rfl
    cases add : st.add with
    | true => simpa [mine] using SameRole.of_eq rfl rfl
    | false =>
      cases oper : (st.net.peer u).umodes.isAnOper with
      | true => simp
      | false => simpa using SameRole.of_eq rfl rfl
  unfold umodeLetter
  dsimp only
  split
  · exact ⟨fun removes => by simp [Deopers] at removes, fun _ => .of_eq rfl rfl⟩
  · exact ⟨fun removes => by simp [Deopers] at removes, fun _ => .of_eq rfl rfl⟩
  · have read := operLetter _ rfl
    simpa [Deopers, connected] using read
  · have read := operLetter _ rfl
    simpa [Deopers, connected] using read
  · exact ⟨fun removes => by simp [Deopers] at removes, fun _ => .of_eq rfl rfl⟩
  · exact ⟨fun removes => by simp [Deopers] at removes, fun _ => .of_eq rfl rfl⟩
  · exact ⟨fun removes => by simp [Deopers] at removes, fun _ => .of_eq rfl rfl⟩
  · exact ⟨fun removes => by simp [Deopers] at removes, fun _ => .of_eq rfl rfl⟩
  -- the letters of the table: none of them is one of the two
  · rename_i big small _ _ _ _
    refine ⟨fun removes => ?_, fun _ => ?_⟩
    · rcases removes.1 with rfl | rfl
      · exact absurd rfl big
      · exact absurd rfl small
    · split
      · next flag known => exact .setUmodes u _ (isAnOper_write _ _ (umodeOfLetter_plain big small known))
      · split
        · exact .of_eq rfl rfl
        · exact .of_eq rfl rfl

end Network

namespace Opers

/-- The user is an operator by the entry at the head of its list, or none at all; `cs` are the
entries that it had before. -/
def Session (n : Network) (t : ConfTables) (u : ClientId) (cs : List ConfId) : Prop :=
  n.Plain u ∧ t.attached u = cs ∨ n.Opered u ∧ ∃ c, t.attached u = c :: cs

theorem Session.sameRole {n n' : Network} {t : ConfTables} {u : ClientId} {cs : List ConfId}
    (h : Session n t u cs) (same : n.SameRole u n') : Session n' t u cs := by
  rcases h with ⟨plain, list⟩ | ⟨opered, list⟩
  · exact .inl ⟨same.plain plain, list⟩
  · exact .inr ⟨same.opered opered, list⟩

/-- The text takes operator status away; `add` is the sign that it starts with. -/
def removesOper : Bool → CStr → Bool
  | _, [] => false
  | add, letter :: text =>
    if letter = '+' then removesOper true text
    else if letter = '-' then removesOper false text
    else (!add && (letter == 'o' || letter == 'O')) || removesOper add text

structure Held (u : ClientId) (cs : List ConfId) (st st' : OperLoop) : Prop where
  person : st'.net.LocalUser u
  session : Session st'.net st'.confs u cs
  grants : st'.confs.grants = st.confs.grants
  plain : st.net.Plain u → st'.net.Plain u

theorem umodeLetter_held {u : ClientId} {cs : List ConfId} {st : OperLoop} (letter : Char)
    (person : st.net.LocalUser u) (session : Session st.net st.confs u cs) :
    Held u cs st (umodeLetter u u st letter) ∧
      (st.add = false ∧ (letter = 'o' ∨ letter = 'O') →
        (umodeLetter u u st letter).net.Plain u) := by
  obtain ⟨lost, kept⟩ := Network.umodeLetter_role person
  have person' : (Network.umodeLetter u u st.toUmodeLoop letter).net.LocalUser u :=
    (Network.OnlyUmodes.umodeLetter u st.toUmodeLoop letter).localUser person
  have connected : (st.net.client u).myConnect = true := person.localFlag
  -- the letter undoes the operator, and the O-line goes with it
  by_cases removes : Network.Deopers st.net u st.add letter
  · rcases session with ⟨plain, -⟩ | ⟨opered, c, list⟩
    · cases removes.2.2.1.symm.trans plain.notOper
    · have plain := opered.deoper connected
      rw [← lost removes] at plain
      have confs : (umodeLetter u u st letter).confs = st.confs.detachConf u c := by
        have removes := removes
        unfold Network.Deopers at removes
        simp only [umodeLetter, list, List.head?_cons]
        exact if_pos removes
      have attached : (umodeLetter u u st letter).confs.attached u = cs := by
        rw [confs, ConfTables.detachConf_attached, Function.update_self, list,
          List.erase_cons_head]
      refine ⟨⟨person', .inl ⟨plain, attached⟩, ?_, fun _ => plain⟩, fun _ => plain⟩
      rw [confs, ConfTables.detachConf_grants]
  · have same := kept removes
    have confs : (umodeLetter u u st letter).confs = st.confs := by
      have removes := removes
      unfold Network.Deopers at removes
      exact if_neg removes
    refine ⟨⟨person', ?_, by rw [confs], same.plain⟩, ?_⟩
    · rw [confs]
      exact session.sameRole same
    · rintro ⟨minus, one⟩
      rcases session with ⟨plain, -⟩ | ⟨opered, -⟩
      · exact same.plain plain
      · exact absurd ⟨one.symm, by simp [minus], opered.oper, connected⟩ removes

theorem umodeLetter_add (cptr sptr : ClientId) (st : OperLoop) (letter : Char) :
    (umodeLetter cptr sptr st letter).add =
      if letter = '+' then true else if letter = '-' then false else st.add := by
  simp only [umodeLetter]
  unfold Network.umodeLetter
  dsimp only
  split
  · rfl
  · rfl
  · split
    · split <;> rfl
    · split <;> rfl
  · split
    · split <;> rfl
    · split <;> rfl
  · rfl
  · rfl
  · rfl
  · rfl
  · rename_i plus minus _ _ _ _ _ _
    rw [if_neg plus, if_neg minus]
    split
    · rfl
    · split <;> rfl

theorem letters_held {u : ClientId} {cs : List ConfId} (text : CStr) (st : OperLoop)
    (person : st.net.LocalUser u) (session : Session st.net st.confs u cs) :
    Held u cs st (text.foldl (umodeLetter u u) st) ∧
      (removesOper st.add text = true → (text.foldl (umodeLetter u u) st).net.Plain u) := by
  induction text generalizing st with
  | nil => exact ⟨⟨person, session, rfl, id⟩, nofun⟩
  | cons letter text ih =>
    obtain ⟨held, removed⟩ := umodeLetter_held letter person session
    obtain ⟨rest, later⟩ := ih (umodeLetter u u st letter) held.person held.session
    refine ⟨⟨rest.person, rest.session, rest.grants.trans held.grants,
      fun plain => rest.plain (held.plain plain)⟩, fun removes => ?_⟩
    rw [umodeLetter_add] at later
    unfold removesOper at removes
    split at removes
    · next plus => exact later (by rwa [if_pos plus])
    · next notPlus =>
      split at removes
      · next minus => exact later (by rwa [if_neg notPlus, if_pos minus])
      · next notMinus =>
        rw [if_neg notPlus, if_neg notMinus] at later
        simp only [Bool.or_eq_true, Bool.and_eq_true, Bool.not_eq_true', beq_iff_eq] at removes
        rcases removes with now | removes
        · exact rest.plain (removed now)
        · exact later removes

theorem letters_net (cptr sptr : ClientId) (text : CStr) (st : OperLoop) :
    (text.foldl (umodeLetter cptr sptr) st).toUmodeLoop =
      text.foldl (Network.umodeLetter cptr sptr) st.toUmodeLoop := by
  induction text generalizing st with
  | nil => rfl
  | cons letter text ih => exact ih (umodeLetter cptr sptr st letter)

structure Holds (o : Opers) (u : ClientId) (cs : List ConfId) : Prop where
  person : o.net.LocalUser u
  session : Session o.net o.confs u cs

def operLetters : List Umode := [.oper, .locop, .nchange, .admin, .ospylog, .statsphide, .unidle]

theorem changeUmodes_restricted {n : Network} {u : ClientId} (modes : List CStr)
    (person : n.LocalUser u) (plain : (n.readUmodes u u modes).Plain u) {flag : Umode}
    (one : flag ∈ operLetters) : ((n.changeUmodes u u modes).peer u).umodes flag = false := by
  have person' := (Network.readUmodes_only n u u modes).localUser person
  have after := (Network.SameRole.changeUmodes u n modes).plain plain
  have status := after.notOper
  simp only [Umodes.isAnOper, Bool.or_eq_false_iff] at status
  have restricted : ∀ r ∈ repairs, ((n.changeUmodes u u modes).peer u).umodes r.flag = false := by
    intro r tested
    cases set : ((n.changeUmodes u u modes).peer u).umodes r.flag with
    | false => rfl
    | true =>
      rw [(Network.changeUmodes_same n u u modes).peer] at set
      have granted := Network.repaired_restricts u repairs tested _ person'.localFlag set
      cases granted.symm.trans (plain.privs r.priv)
  simp only [operLetters, List.mem_cons, List.not_mem_nil, or_false] at one
  rcases one with rfl | rfl | rfl | rfl | rfl | rfl | rfl
  · exact status.1
  · exact status.2
  · exact restricted _ (List.mem_of_getElem? (i := 0) rfl)
  · exact restricted _ (List.mem_of_getElem? (i := 1) rfl)
  · exact restricted _ (List.mem_of_getElem? (i := 2) rfl)
  · exact restricted _ (List.mem_of_getElem? (i := 3) rfl)
  · exact restricted _ (List.mem_of_getElem? (i := 4) rfl)

theorem userMode_reads {n : Network} {u : ClientId} {nick : CStr} {modes : List CStr}
    (person : n.LocalUser u) (named : n.findPerson nick = some u) :
    n.userMode u u (nick :: modes) =
      if modes = [] then n.reply u .rplUmodeIs [Network.umodeLetters (n.peer u).umodes]
      else n.changeUmodes u u modes := by
  have client := person.client
  simp only [Client.isClient, beq_iff_eq] at client
  simp [Network.userMode, named, Client.isServer, client]

theorem userMode_other {n : Network} {u : ClientId} {nick : CStr} (modes : List CStr)
    (other : n.findPerson nick ≠ some u) : n.SameRole u (n.userMode u u (nick :: modes)) := by
  unfold Network.userMode
  dsimp only
  split
  · split
    · exact .of_eq rfl rfl
    · exact .of_eq rfl rfl
  · next acptr found =>
    have apart : u ≠ acptr := by
      rintro rfl
      exact other found
    rw [if_pos (.inr (.inl apart))]
    split
    · exact .of_eq rfl rfl
    · exact .of_eq rfl rfl

theorem Holds.userMode {o : Opers} {u : ClientId} {cs : List ConfId} (h : Holds o u cs)
    (args : List CStr) :
    Holds (o.userMode u u args) u cs ∧
      (o.userMode u u args).confs.grants = o.confs.grants ∧
      (o.net.Plain u → (o.userMode u u args).net.Plain u) := by
  have person := (Network.userMode_noGain h.person h.person.from_ args).1
  cases args with
  | nil =>
    have same : o.net.SameRole u (o.userMode u u []).net := .of_eq rfl rfl
    exact ⟨⟨person, h.session.sameRole same⟩, rfl, same.plain⟩
  | cons nick modes =>
    -- MODE for another nick reads no letter
    by_cases named : o.net.findPerson nick = some u
    · have client := h.person.client
      simp only [Client.isClient, beq_iff_eq] at client
      have notServer : (o.net.client u).isServer = false := by
        simp [Client.isServer, client]
      let st : OperLoop := { net := o.net, add := true, badflag := false, confs := o.confs }
      obtain ⟨held, -⟩ := letters_held modes.flatten st h.person h.session
      have net := letters_net u u modes.flatten st
      have confs : (o.userMode u u (nick :: modes)).confs =
          (modes.flatten.foldl (umodeLetter u u) st).confs := if_pos ⟨named, notServer⟩
      -- what follows the letters changes no role
      have same : (modes.flatten.foldl (umodeLetter u u) st).net.SameRole u
          (o.userMode u u (nick :: modes)).net := by
        rw [Opers.userMode, userMode_reads h.person named]
        split
        · next none =>
          subst none
          exact .of_eq rfl rfl
        · refine .trans ?_ (Network.SameRole.changeUmodes u o.net modes)
          unfold Network.readUmodes
          dsimp only
          rw [← congrArg UmodeLoop.net net]
          split
          · exact .of_eq rfl rfl
          · exact .of_eq rfl rfl
      refine ⟨⟨person, ?_⟩, ?_, fun plain => same.plain (held.plain plain)⟩
      · rw [confs]
        exact held.session.sameRole same
      · rw [confs]
        exact held.grants
    · have confs : (o.userMode u u (nick :: modes)).confs = o.confs :=
        if_neg fun reads => named reads.1
      have same := userMode_other modes named
      refine ⟨⟨person, ?_⟩, by rw [confs], same.plain⟩
      rw [confs]
      exact h.session.sameRole same

theorem Holds.deopered {o : Opers} {u : ClientId} {cs : List ConfId} (h : Holds o u cs)
    {nick : CStr} {modes : List CStr} (named : o.net.findPerson nick = some u)
    (removes : removesOper true modes.flatten = true) :
    (o.userMode u u (nick :: modes)).net.Plain u ∧
      ∀ flag ∈ operLetters,
        ((o.userMode u u (nick :: modes)).net.peer u).umodes flag = false := by
  let st : OperLoop := { net := o.net, add := true, badflag := false, confs := o.confs }
  obtain ⟨-, removed⟩ := letters_held modes.flatten st h.person h.session
  have net := letters_net u u modes.flatten st
  have some : modes ≠ [] := by
    rintro rfl
    cases removes
  have plain : (o.net.readUmodes u u modes).Plain u := by
    have plain := removed removes
    unfold Network.readUmodes
    dsimp only
    rw [← congrArg UmodeLoop.net net]
    have told : ∀ (n : Network) num, n.SameRole u (n.reply u num []) := fun _ _ => .of_eq rfl rfl
    split
    · exact (told _ _).plain plain
    · exact plain
  have read := (userMode_reads h.person named).trans (if_neg some)
  rw [Opers.userMode, read]
  exact ⟨(Network.SameRole.changeUmodes u o.net modes).plain plain,
    fun flag one => changeUmodes_restricted modes h.person plain one⟩

theorem operModes_isAnOper (aconf : Conf) (privs : OperPriv → Bool) (m : Umodes) :
    (aconf.operModes privs m).isAnOper = true := by
  unfold Conf.operModes
  split
  · dsimp only
    split <;> simp [Umodes.isAnOper, Umodes.join, Umodes.write]
  · dsimp only
    split
    · split <;> split <;> simp [Umodes.isAnOper, Umodes.join, Umodes.write]
    · split <;> simp [Umodes.isAnOper, Umodes.join, Umodes.write]

structure Promoted (o o' : Opers) (u : ClientId) : Prop where
  person : o'.net.LocalUser u
  opered : o'.net.Opered u
  confs : o'.confs =
    o.confs.setGrants u { o.confs.grants u with eLined := true, exemptGline := true }

theorem becomeOper_promotes {o : Opers} {u : ClientId} (person : o.net.LocalUser u)
    (plain : o.net.Plain u) (aconf : ConfId) : Promoted o (o.becomeOper u u aconf) u := by
  have enrolled : (o.enroll u).net.LocalUser u := ⟨person.client, person.localFlag, person.from_⟩
  have list : (o.enroll u).net.operCptrList = u :: o.net.operCptrList := rfl
  unfold becomeOper
  dsimp only
  generalize o.net.peer u = peer
  have confs : (o.enroll u).confs =
    o.confs.setGrants u { o.confs.grants u with eLined := true, exemptGline := true } := rfl
  generalize o.enroll u = e at enrolled list confs ⊢
  generalize modes : (e.confs.conf aconf).operModes (e.net.peer u).privs (e.net.peer u).umodes = m
  have status : m.isAnOper = true := by
    rw [← modes]
    exact operModes_isAnOper _ _ _
  have set := (Network.OnlyUmodes.setUmodes u e.net m).localUser enrolled
  -- on the list and with the mode; the rest of the function only sends
  have opered : (e.net.setUmodes u m).Opered u := by
    refine ⟨by rw [Network.setUmodes_umodes]; exact status, ?_⟩
    have kept : (e.net.setUmodes u m).operCptrList = u :: o.net.operCptrList := list
    rw [kept, List.erase_cons_head]
    exact plain.offList
  generalize e.net.setUmodes u m = n at set opered ⊢
  have said : ∀ (n : Network) text, n.LocalUser u → n.Opered u →
      (n.sendLine u text).LocalUser u ∧ (n.sendLine u text).Opered u := by
    intro n text person opered
    have same : n.SameRole u (n.sendLine u text) := .of_eq rfl rfl
    exact ⟨(Network.OnlyUmodes.sendLine u n u text).localUser person, same.opered opered⟩
  have told : ∀ (n : Network) old, n.LocalUser u → n.Opered u →
      (n.sendUmodeOut u u old).LocalUser u ∧ (n.sendUmodeOut u u old).Opered u := by
    intro n old person opered
    exact ⟨((Network.sendUmodeOut_same n u u old).onlyUmodes u).localUser person,
      (Network.SameRole.sendUmodeOut u n u u old).opered opered⟩
  have first : ∀ text, (if (e.confs.conf aconf).hold.isSome then n.sendLine u text
      else n).LocalUser u ∧ (if (e.confs.conf aconf).hold.isSome then n.sendLine u text
      else n).Opered u := by
    intro text
    split
    · exact said n text set opered
    · exact ⟨set, opered⟩
  obtain ⟨person₁, opered₁⟩ := first (':' :: n.meName ++ lit " NOTICE " ++ n.nameOf u ++
    lit " :*** Oper flags set from conf")
  obtain ⟨person₂, opered₂⟩ := told _ peer.umodes person₁ opered₁
  obtain ⟨person₃, opered₃⟩ := said _ _ person₂ opered₂
  obtain ⟨person₄, opered₄⟩ := said _ _ person₃ opered₃
  exact ⟨person₄, opered₄, confs⟩

theorem operConf_kind {o : Opers} {cptr sptr : ClientId} {name : CStr} {aconf : ConfId}
    (found : o.operConf cptr sptr name = some aconf) : (o.confs.conf aconf).kind ≠ .client := by
  have ops : ∀ user host, o.confs.findOpsConf name user host = some aconf →
      (o.confs.conf aconf).kind ≠ .client := by
    intro user host found isClient
    have accepted := List.find?_some found
    simp [isClient, ConfStatus.ops] at accepted
  unfold operConf at found
  dsimp only at found
  split at found
  · next byHost =>
    cases found
    exact ops _ _ byHost
  · exact ops _ _ found

/-- OPER from a user that is no operator: it stays plain, or its O-line was attached. -/
theorem mOper_plain (crypt : CStr → CStr → CStr) {o : Opers} {u : ClientId}
    (person : o.net.LocalUser u) (plain : o.net.Plain u) (args : List CStr) :
    let o' := o.mOper crypt u u args
    (o'.net.LocalUser u ∧ o'.net.Plain u ∧ o'.confs.grants = o.confs.grants) ∨
      ∃ aconf t, Promoted { o with confs := t } o' u ∧ t.grants = o.confs.grants ∧
        t.attached u = aconf :: o.confs.attached u := by
  have client := person.client
  simp only [Client.isClient, beq_iff_eq] at client
  have notServer : (o.net.client u).isServer = false := by
    simp [Client.isServer, client]
  have said : ∀ text, (o.net.sendLine u text).LocalUser u ∧ (o.net.sendLine u text).Plain u := by
    intro text
    have same : o.net.SameRole u (o.net.sendLine u text) := .of_eq rfl rfl
    exact ⟨(Network.OnlyUmodes.sendLine u o.net u text).localUser person, same.plain plain⟩
  intro o'
  have result : o' = o.mOper crypt u u args := rfl
  unfold mOper at result
  simp only [notServer, true_and, Bool.false_eq_true, false_and, if_false, plain.notOper] at result
  split at result
  · left
    have same : o.net.SameRole u o'.net := by
      rw [result]
      exact .of_eq rfl rfl
    refine ⟨?_, same.plain plain, by rw [result]⟩
    rw [result]
    exact (Network.OnlyUmodes.reply u o.net u _ _).localUser person
  · split at result
    · left
      rw [result]
      exact ⟨(said _).1, (said _).2, rfl⟩
    · next aconf found =>
      generalize (if (o.confs.conf aconf).passwd = [] then []
        else crypt (args.getD 1 []) (o.confs.conf aconf).passwd) = encr at result
      split at result
      · next accepted =>
        right
        rw [result]
        refine ⟨aconf, (o.confs.attachConf u aconf).1, ?_, ?_, ?_⟩
        · exact becomeOper_promotes (o := { o with confs := (o.confs.attachConf u aconf).1 })
            person plain aconf
        · exact ConfTables.attachConf_grants (operConf_kind found)
        · rw [ConfTables.attachConf_attached accepted.2, Function.update_self]
      · left
        rw [result]
        exact ⟨(said _).1, (said _).2, ConfTables.detachConf_grants _ _ _⟩

inductive OperCommand where
  | mode (args : List CStr)
  | oper (args : List CStr)
  deriving DecidableEq, Repr

/-- A command of the user `u`; `args` are the parameters after `parv[0]`. -/
def command (crypt : CStr → CStr → CStr) (u : ClientId) (o : Opers) : OperCommand → Opers
  | .mode args => o.userMode u u args
  | .oper args => o.mOper crypt u u args

theorem mOper_opered (crypt : CStr → CStr → CStr) {o : Opers} {u : ClientId}
    (person : o.net.LocalUser u) (opered : o.net.Opered u) (args : List CStr) :
    (o.mOper crypt u u args).confs = o.confs ∧
      (o.mOper crypt u u args).net.LocalUser u ∧ o.net.SameRole u (o.mOper crypt u u args).net := by
  have client := person.client
  simp only [Client.isClient, beq_iff_eq] at client
  have notServer : (o.net.client u).isServer = false := by
    simp [Client.isServer, client]
  have connected : (o.net.client u).myConnect = true := person.localFlag
  unfold mOper
  simp only [notServer, true_and, Bool.false_eq_true, false_and, if_false, opered.oper, connected,
    if_true]
  split
  · exact ⟨rfl, (Network.OnlyUmodes.reply u o.net u _ _).localUser person, .of_eq rfl rfl⟩
  · exact ⟨rfl, (Network.OnlyUmodes.sendLine u o.net u _).localUser person, .of_eq rfl rfl⟩

theorem Holds.command (crypt : CStr → CStr → CStr) {o : Opers} {u : ClientId} {cs : List ConfId}
    (h : Holds o u cs) (cmd : OperCommand) : ∃ cs', Holds (o.command crypt u cmd) u cs' := by
  cases cmd with
  | mode args => exact ⟨cs, (h.userMode args).1⟩
  | oper args =>
    rcases h.session with ⟨plain, -⟩ | ⟨opered, list⟩
    · rcases mOper_plain crypt h.person plain args with ⟨person, still, -⟩ | promoted
      · exact ⟨_, person, .inl ⟨still, rfl⟩⟩
      · obtain ⟨aconf, t, promoted, -, list⟩ := promoted
        refine ⟨o.confs.attached u, promoted.person, .inr ⟨promoted.opered, aconf, ?_⟩⟩
        change (o.mOper crypt u u args).confs.attached u = _
        rw [promoted.confs]
        exact list
    · obtain ⟨confs, person, same⟩ := mOper_opered crypt h.person opered args
      refine ⟨cs, person, .inr ⟨same.opered opered, ?_⟩⟩
      change ∃ c, (o.mOper crypt u u args).confs.attached u = _
      rw [confs]
      exact list

theorem Holds.commands (crypt : CStr → CStr → CStr) {o : Opers} {u : ClientId} {cs : List ConfId}
    (h : Holds o u cs) (cmds : List OperCommand) :
    ∃ cs', Holds (cmds.foldl (Opers.command crypt u) o) u cs' := by
  induction cmds generalizing o cs with
  | nil => exact ⟨cs, h⟩
  | cons cmd cmds ih =>
    obtain ⟨_, held⟩ := h.command crypt cmd
    exact ih held

theorem Holds.userModes {o : Opers} {u : ClientId} {cs : List ConfId} (h : Holds o u cs)
    (argss : List (List CStr)) :
    Holds (argss.foldl (Opers.userMode · u u) o) u cs ∧
      (argss.foldl (Opers.userMode · u u) o).confs.grants = o.confs.grants := by
  induction argss generalizing o with
  | nil => exact ⟨h, rfl⟩
  | cons args argss ih =>
    obtain ⟨held, grants, -⟩ := h.userMode args
    obtain ⟨rest, same⟩ := ih held
    exact ⟨rest, same.trans grants⟩

/-- Nothing is left of what the user was given between `o` and `o'`. -/
structure TakenBack (o o' : Opers) (u : ClientId) : Prop where
  confs : o'.confs.attached u = o.confs.attached u
  privs : (o'.net.peer u).privs = (o.net.peer u).privs
  eLined : (o'.confs.grants u).eLined = (o.confs.grants u).eLined
  exemptGline : (o'.confs.grants u).exemptGline = (o.confs.grants u).exemptGline
  umodes : ∀ flag ∈ operLetters, (o'.net.peer u).umodes flag = false
  offList : u ∉ o'.net.operCptrList

/-- A user that becomes an operator and gives it up again is left with the two bits that
exempt it from bans: all is taken back exactly where it had both before. -/
theorem takenBack_iff (crypt : CStr → CStr → CStr) (o : Opers) (u : ClientId)
    (person : o.net.LocalUser u) (plain : o.net.Plain u) (before : List OperCommand)
    (oper : List CStr) (after : List (List CStr)) (nick : CStr) (modes : List CStr) :
    let s := before.foldl (command crypt u) o
    let s' := s.mOper crypt u u oper
    let s'' := after.foldl (userMode · u u) s'
    (s.net.peer u).umodes.isAnOper = false → (s'.net.peer u).umodes.isAnOper = true →
    s''.net.findPerson nick = some u → removesOper true modes.flatten = true →
    (TakenBack s (s''.userMode u u (nick :: modes)) u ↔
      (s.confs.grants u).eLined = true ∧ (s.confs.grants u).exemptGline = true) := by
  intro s s' s'' notOper isOper named removes
  have start : Holds o u (o.confs.attached u) := ⟨person, .inl ⟨plain, rfl⟩⟩
  obtain ⟨cs, held⟩ := start.commands crypt before
  have plain : s.net.Plain u := by
    rcases held.session with ⟨plain, -⟩ | ⟨opered, -⟩
    · exact plain
    · cases notOper.symm.trans opered.oper
  rcases mOper_plain crypt held.person plain oper with ⟨-, still, -⟩ | promoted
  · cases still.notOper.symm.trans isOper
  · obtain ⟨aconf, t, promoted, sameGrants, list⟩ := promoted
    have held' : Holds s' u (s.confs.attached u) := by
      refine ⟨promoted.person, .inr ⟨promoted.opered, aconf, ?_⟩⟩
      rw [promoted.confs]
      exact list
    have granted : s'.confs.grants u =
        { s.confs.grants u with eLined := true, exemptGline := true } := by
      rw [promoted.confs]
      simp [ConfTables.setGrants, sameGrants, s]
    obtain ⟨held'', same⟩ := held'.userModes after
    obtain ⟨last, same', -⟩ := held''.userMode (nick :: modes)
    obtain ⟨gone, cleared⟩ := held''.deopered named removes
    have bits : (s''.userMode u u (nick :: modes)).confs.grants u =
        { s.confs.grants u with eLined := true, exemptGline := true } := by
      rw [same', same]
      exact granted
    have attached : (s''.userMode u u (nick :: modes)).confs.attached u = s.confs.attached u := by
      rcases last.session with ⟨-, list⟩ | ⟨opered, -⟩
      · exact list
      · cases gone.notOper.symm.trans opered.oper
    have privs : ((s''.userMode u u (nick :: modes)).net.peer u).privs = (s.net.peer u).privs := by
      funext priv
      rw [gone.privs priv, plain.privs priv]
    constructor
    · intro taken
      have first := taken.eLined
      have second := taken.exemptGline
      rw [bits] at first second
      exact ⟨first.symm, second.symm⟩
    · rintro ⟨eLined, exemptGline⟩
      refine ⟨attached, privs, ?_, ?_, cleared, gone.offList⟩
      · rw [bits, eLined]
      · rw [bits, exemptGline]

def twoLines (exempt : Bool) : ConfTables where
  conf := fun
    | 0 => { kind := .client, illegal := false, fLined := false, clients := 1, name := none,
             host := some (lit "*"), user := lit "*", passwd := [], privs := fun _ => false,
             hold := none, cClass := some 0 }
    | _ => { kind := .operator, illegal := false, fLined := false, clients := 0,
             name := some (lit "root"), host := some (lit "*"), user := lit "*",
             passwd := lit "secret", privs := fun priv => priv == .n || priv == .k,
             hold := none, cClass := some 0 }
  cls := fun _ => { type := 1, maxLinks := 10, links := 1 }
  configItemList := [1]
  attached := fun _ => [0]
  grants := fun _ => { eLined := exempt, fLined := false, exemptGline := exempt }
  freedConfs := []
  freedClasses := []

def alice (exempt : Bool) : Opers where
  net :=
    let n := (Network.startUp (lit "irc.example.net") 1000).makeClient none
    n.edit (·.addClient 1
      { n.client 1 with name := lit "alice", status := .client, user := true })
  confs := twoLines exempt

/-- A build without `CRYPT_OPER_PASSWORD` compares the password itself. -/
def plainPasswd (password _ : CStr) : CStr := password

/-- A MODE, the OPER with the right password, another MODE, and the `-o`. -/
def aliceRun (exempt : Bool) : Opers × Opers × Opers :=
  let s := [OperCommand.mode [lit "alice", lit "+iw"]].foldl (command plainPasswd 1) (alice exempt)
  let s' := s.mOper plainPasswd 1 1 [lit "root", lit "secret"]
  let s'' := [[lit "alice", lit "+nx"]].foldl (userMode · 1 1) s'
  (s, s', s'')

theorem takenBack_alice :
    let (s, _, s'') := aliceRun true
    TakenBack s (s''.userMode 1 1 [lit "alice", lit "-w", lit "+x-ox+n"]) 1 :=
  (takenBack_iff plainPasswd (alice true) 1
    { client := by decide, localFlag := by decide, from_ := by decide }
    { notOper := by decide, privs := fun _ => rfl, offList := by decide }
    [.mode [lit "alice", lit "+iw"]] [lit "root", lit "secret"] [[lit "alice", lit "+nx"]]
    (lit "alice") [lit "-w", lit "+x-ox+n"] (by decide +kernel) (by decide +kernel)
    (by decide +kernel) (by decide +kernel)).2 (by decide +kernel)

theorem alice_stays_exempt :
    let (s, s', s'') := aliceRun false
    (alice false).net.LocalUser 1 ∧ (alice false).net.Plain 1 ∧
      (s.net.peer 1).umodes.isAnOper = false ∧ (s'.net.peer 1).umodes.isAnOper = true ∧
      s''.net.findPerson (lit "alice") = some 1 ∧ removesOper true (lit "-o") = true ∧
      ¬ TakenBack s (s''.userMode 1 1 [lit "alice", lit "-o"]) 1 := by
  refine ⟨{ client := by decide, localFlag := by decide, from_ := by decide },
    { notOper := by decide, privs := fun _ => rfl, offList := by decide }, by decide +kernel,
    by decide +kernel, by decide +kernel, by decide +kernel, fun taken => ?_⟩
  have bit := taken.eLined
  revert bit
  decide +kernel

end Opers

end Ircd
