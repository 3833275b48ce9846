import Ircd.Lib.Buckets
import Ircd.Server.NameTable
import Ircd.Server.UserMode

/-! Who is counted and who is on the three role lists: `register_user`, `nickkilldone`,
`user_mode`, `m_oper`, `server_estab` and `exit_client`, with the four members of `Count`.

`local_cptr_list` is linked both ways, `serv_cptr_list` and `oper_cptr_list` one way.
-/

set_option autoImplicit false

namespace Ircd

/-- The fields of `struct Client` that decide on counters and lists. -/
structure RoleClient where
  name : CStr
  status : Status
  localFlag : Bool
  from_ : ClientId
  user : Bool
  umodes : Umodes
  privs : OperPriv → Bool

def RoleClient.zero : RoleClient where
  name := []
  status := .unknown
  localFlag := false
  from_ := 0
  user := false
  umodes := .none
  privs := fun _ => false

namespace RoleClient

def isServer (cl : RoleClient) : Bool := cl.status == .server

def isClient (cl : RoleClient) : Bool := cl.status == .client

def isPerson (cl : RoleClient) : Bool := cl.isClient && cl.user

def isAnOper (cl : RoleClient) : Bool := cl.umodes.isAnOper

end RoleClient

structure Tally where
  total : Int
  invisi : Int
  oper : Int
  local_ : Int
  deriving DecidableEq, Repr

structure Roles where
  me : ClientId
  currentTime : Int
  client : ClientId → RoleClient
  globalClientList : List ClientId
  /-- The address that `make_client` gives out next. -/
  nextClient : ClientId
  count : Tally
  /-- `last_time` of `show_lusers`. -/
  lastTime : Int
  localCptrList : Buckets Unit ClientId
  servCptrList : ChainTable Unit ClientId
  operCptrList : ChainTable Unit ClientId

def lusersCacheTime : Int := 180

namespace Roles

def nameOf (r : Roles) (u : ClientId) : CStr := (r.client u).name

def setClient (r : Roles) (u : ClientId) (cl : RoleClient) : Roles :=
  { r with client := Function.update r.client u cl }

def setCount (r : Roles) (count : Tally) : Roles := { r with count := count }

@[simp] theorem setClient_self (r : Roles) (u : ClientId) (cl : RoleClient) :
    (r.setClient u cl).client u = cl := Function.update_self ..

theorem setClient_of_ne (r : Roles) {u v : ClientId} (other : v ≠ u) (cl : RoleClient) :
    (r.setClient u cl).client v = r.client v := Function.update_of_ne other ..

/-- `find_server`; only a server has a star in its name. -/
def findServer (r : Roles) (name : CStr) : Option ClientId :=
  let search (name : CStr) : Option ClientId := r.globalClientList.find? fun u =>
    ((r.client u).isServer || (r.client u).status == .me) && irccmp name (r.nameOf u) == .eq
  match search name with
  | some u => some u
  | none =>
    if name.head? = some '*' ∨ name.head? = some '.' then none
    else (serverMasks (name.take hostLen)).findSome? search

/-- The number of clients on the list that `p` accepts. -/
def census (r : Roles) (p : RoleClient → Bool) : Nat :=
  r.globalClientList.countP fun u => p (r.client u)

/-- The recount of `show_lusers`, which corrects the counters. -/
def recount (r : Roles) : Roles :=
  if r.lastTime + lusersCacheTime < r.currentTime then
    { r with
      lastTime := r.currentTime
      count := {
        total := r.census RoleClient.isClient
        invisi := r.census fun cl => cl.isClient && cl.umodes .invisible
        oper := r.census fun cl => cl.isClient && cl.isAnOper
        local_ := r.census fun cl => cl.isClient && cl.localFlag } }
  else r

def makeClient (r : Roles) (from_ : Option ClientId) : Roles :=
  let u := r.nextClient
  { r with
    client := Function.update r.client u
      { RoleClient.zero with localFlag := from_.isNone, from_ := from_.getD u }
    globalClientList := u :: r.globalClientList
    nextClient := u + 1
    localCptrList := r.localCptrList.clear u
    servCptrList := r.servCptrList.clear u
    operCptrList := r.operCptrList.clear u }

def leaveLocal (b : Buckets Unit ClientId) (sptr : ClientId) : Buckets Unit ClientId :=
  let previous := b.prev sptr
  let next := b.next sptr
  let b := match previous with
    | some p => { b with next := Function.update b.next p next }
    | none => if b.heads () = some sptr then { b with heads := fun _ => next } else b
  let b := match next with
    | some q => { b with prev := Function.update b.prev q previous }
    | none => b
  b.clear sptr

/-- The first part of `exit_client`, for a connection of this server. -/
def leaveRoleLists (r : Roles) (sptr : ClientId) : Roles :=
  let cl := r.client sptr
  if !cl.localFlag then r
  else
    let r := if cl.isAnOper then { r with operCptrList := r.operCptrList.del r.nextClient () sptr }
      else r
    let r := if cl.isClient then r.setCount { r.count with local_ := r.count.local_ - 1 } else r
    let r := if cl.isPerson then { r with localCptrList := leaveLocal r.localCptrList sptr } else r
    if cl.isServer then { r with servCptrList := r.servCptrList.del r.nextClient () sptr } else r

def updateClientExitStats (r : Roles) (u : ClientId) : Roles :=
  let cl := r.client u
  if cl.isClient then
    r.setCount { r.count with
      total := r.count.total - 1
      oper := if cl.isAnOper then r.count.oper - 1 else r.count.oper
      invisi := if cl.umodes .invisible then r.count.invisi - 1 else r.count.invisi }
  else r

/-- `exit_one_client`; a client that is not on the list any more has left already. -/
def exitOneClient (r : Roles) (sptr : ClientId) : Roles :=
  if (r.client sptr).status = .me ∨ sptr ∉ r.globalClientList then r
  else
    let r := r.updateClientExitStats sptr
    { r with
      client := Function.update r.client sptr { r.client sptr with user := false }
      globalClientList := r.globalClientList.erase sptr }

/-- `exit_client`; `behind` are the remote clients that depend on a server. -/
def exitClient (r : Roles) (sptr : ClientId) (behind : List ClientId) : Roles :=
  if sptr ∉ r.globalClientList then r
  else
    let r := r.leaveRoleLists sptr
    let r :=
      if (r.client sptr).isServer then
        (behind.filter fun u => !(r.client u).localFlag).foldl exitOneClient r
      else r
    r.exitOneClient sptr

/-- `register_user` from `SetClient` on; `server` is `user->server`. -/
def enrolUser (r : Roles) (cptr sptr : ClientId) (server : CStr) : Roles :=
  let r := r.setClient sptr { r.client sptr with status := .client }
  match r.findServer server with
  | none => r.exitClient sptr []
  | some servptr =>
    let r := r.setCount { r.count with total := r.count.total + 1 }
    if (r.client sptr).localFlag then
      let r := r.recount
      { r with localCptrList := r.localCptrList.link () sptr }
    else if (r.client cptr).isServer ∧ (r.client servptr).from_ ≠ (r.client sptr).from_ then
      r.exitClient sptr []
    else r

def registerUser (r : Roles) (cptr sptr : ClientId) (server : CStr) (outcome : Registration) :
    Roles :=
  if (r.client sptr).localFlag then
    match outcome with
    | .refused => r.exitClient sptr []
    | .held => r
    | .accepted =>
      -- `FLAGS_INVISIBLE` is set, so the test of `IsInvisible` that follows holds
      let cl := r.client sptr
      let r := r.setClient sptr { cl with umodes := cl.umodes.write .invisible true }
      let r := r.setCount { r.count with
        invisi := r.count.invisi + 1
        local_ := r.count.local_ + 1 }
      r.enrolUser cptr sptr server
  else r.enrolUser cptr sptr server

def doUser (r : Roles) (cptr sptr : ClientId) (server : CStr) (outcome : Registration) : Roles :=
  let r := r.setClient sptr { r.client sptr with user := true }
  if !(r.client sptr).localFlag then r.registerUser cptr sptr server outcome
  else if (r.client sptr).status ≠ .unknown then r
  else if r.nameOf sptr ≠ [] then r.registerUser cptr sptr (r.nameOf r.me) outcome
  else r

def changeNick (r : Roles) (cptr sptr : ClientId) (nick : CStr) (outcome : Registration) : Roles :=
  let cl := r.client sptr
  let r := r.setClient sptr { cl with name := nick }
  if cl.name = [] ∧ cl.user then r.registerUser cptr sptr (r.nameOf r.me) outcome else r

def introducedLetter (st : Tally × Umodes) (letter : Char) : Tally × Umodes :=
  match umodeOfLetter letter with
  | none => st
  | some flag =>
    ({ st.1 with
        invisi := if flag = .invisible then st.1.invisi + 1 else st.1.invisi
        oper := if flag = .oper then st.1.oper + 1 else st.1.oper },
      if sendUmodes flag then st.2.write flag true else st.2)

/-- A server introduces a user; `modes` is `parv[4]`. -/
def introduceNick (r : Roles) (cptr : ClientId) (nick modes server : CStr) : Roles :=
  let u := r.nextClient
  let r := r.makeClient (some cptr)
  let (count, umodes) := modes.tail.foldl introducedLetter (r.count, .none)
  let r := r.setCount count
  let r := r.setClient u { r.client u with name := nick, umodes := umodes }
  r.doUser cptr u server .accepted

def deoper (r : Roles) (sptr : ClientId) : Roles :=
  let cl := r.client sptr
  let r := r.setCount { r.count with oper := r.count.oper - 1 }
  let umodes := cl.umodes.without operOnlyUmodes
  if cl.localFlag then
    let r := r.setClient sptr { cl with umodes := umodes, privs := fun _ => false }
    { r with operCptrList := r.operCptrList.del r.nextClient () sptr }
  else r.setClient sptr { cl with umodes := umodes }

/-- The body of the loop of `user_mode` over the letters; `st.2` is `what == MODE_ADD`. -/
def umodeLetter (cptr sptr : ClientId) (st : Roles × Bool) (letter : Char) : Roles × Bool :=
  let r := st.1
  let cl := r.client sptr
  match letter with
  | '+' => (r, true)
  | '-' => (r, false)
  | 'O' | 'o' =>
    if st.2 then
      if (r.client cptr).isServer && !cl.umodes .oper then
        let r := r.setCount { r.count with oper := r.count.oper + 1 }
        (r.setClient sptr { cl with umodes := cl.umodes.write .oper true }, true)
      else st
    else if cl.isAnOper then (r.deoper sptr, false)
    else st
  | ' ' | '\n' | '\r' | '\t' => st
  | letter =>
    match umodeOfLetter letter with
    | some flag => (r.setClient sptr { cl with umodes := cl.umodes.write flag st.2 }, st.2)
    | none => st

def repair (sptr : ClientId) (r : Roles) (p : Repair) : Roles :=
  let cl := r.client sptr
  if cl.umodes p.flag && !cl.privs p.priv && (!p.mineOnly || cl.localFlag) then
    r.setClient sptr { cl with umodes := cl.umodes.write p.flag false }
  else r

/-- `user_mode` for a user that changes its own modes. -/
def userMode (r : Roles) (cptr sptr : ClientId) (modes : List CStr) : Roles :=
  let old := (r.client sptr).umodes
  let r := (modes.flatten.foldl (umodeLetter cptr sptr) (r, true)).1
  let r := repairs.foldl (repair sptr) r
  let new := (r.client sptr).umodes
  if !old .invisible && new .invisible then
    r.setCount { r.count with invisi := r.count.invisi + 1 }
  else if old .invisible && !new .invisible then
    r.setCount { r.count with invisi := r.count.invisi - 1 }
  else r

structure OperConf where
  /-- `CONF_LOCOP` -/
  locop : Bool
  /-- `aconf->hold`, where it is not zero. -/
  hold : Option Umodes
  privs : OperPriv → Bool

def operModes (conf : OperConf) (m : Umodes) : Umodes :=
  if conf.locop then
    let m := m.write .locop true
    match conf.hold with
    | some hold => m.join fun f => hold f && allUmodes f
    | none => m.join locopUmodes
  else
    let m := m.write .oper true
    match conf.hold with
    | some hold =>
      let m := m.join fun f => hold f && allUmodes f
      let m := if conf.privs .n then m else m.write .nchange false
      if conf.privs .admin then m.write .admin false else m
    | none => m.join (if conf.privs .admin then adminUmodes else operUmodes)

def mOper (r : Roles) (cptr sptr : ClientId) (conf : Option OperConf) : Roles :=
  let cl := r.client sptr
  if (r.client cptr).isServer ∧ !cl.umodes .oper then
    -- the flag goes to `flags`, where no test of operator status looks
    r.setCount { r.count with oper := r.count.oper + 1 }
  else if cl.isAnOper then r
  else match conf with
    | none => r
    | some conf =>
      let r := r.setCount { r.count with oper := r.count.oper + 1 }
      let r := { r with operCptrList := r.operCptrList.add () cptr }
      r.setClient sptr { cl with privs := conf.privs, umodes := operModes conf cl.umodes }

def linkServer (r : Roles) (cptr : ClientId) (name : CStr) : Roles :=
  let r := r.setClient cptr { r.client cptr with name := name, status := .server }
  { r with servCptrList := r.servCptrList.add () cptr }

def introduceServer (r : Roles) (cptr : ClientId) (name : CStr) : Roles :=
  let u := r.nextClient
  let r := r.makeClient (some cptr)
  r.setClient u { r.client u with name := name, status := .server }

def startUp (name : CStr) (now : Int) : Roles where
  me := 0
  currentTime := now
  client := Function.update (fun _ => RoleClient.zero) 0
    { RoleClient.zero with name := name, status := .me }
  globalClientList := [0]
  nextClient := 1
  count := { total := 0, invisi := 0, oper := 0, local_ := 0 }
  lastTime := 0
  localCptrList := Buckets.empty
  servCptrList := ChainTable.empty
  operCptrList := ChainTable.empty

/-- A message comes over a connection: from the connection itself, or where it is a link from
a client behind it. -/
structure ComesFrom (r : Roles) (cptr sptr : ClientId) : Prop where
  connected : cptr ∈ r.globalClientList
  myConnect : (r.client cptr).localFlag
  here : sptr ∈ r.globalClientList
  notMe : (r.client sptr).status ≠ .me
  sender : sptr = cptr ∨
    (r.client cptr).isServer ∧ (r.client sptr).localFlag = false ∧ (r.client sptr).from_ = cptr

instance (r : Roles) (cptr sptr : ClientId) : Decidable (r.ComesFrom cptr sptr) :=
  decidable_of_iff (cptr ∈ r.globalClientList ∧ (r.client cptr).localFlag ∧
    sptr ∈ r.globalClientList ∧ (r.client sptr).status ≠ .me ∧ (sptr = cptr ∨
      (r.client cptr).isServer ∧ (r.client sptr).localFlag = false ∧
        (r.client sptr).from_ = cptr))
    ⟨fun ⟨a, b, c, d, e⟩ => ⟨a, b, c, d, e⟩, fun ⟨a, b, c, d, e⟩ => ⟨a, b, c, d, e⟩⟩

end Roles

inductive RoleEvent where
  /-- `add_connection` -/
  | accept
  | connectServer (name : CStr)
  /-- `completed_connection` -/
  | completed (u : ClientId)
  | user (cptr sptr : ClientId) (server : CStr) (outcome : Registration)
  | nick (cptr sptr : ClientId) (nick : CStr) (outcome : Registration)
  | introduce (cptr : ClientId) (nick modes server : CStr)
  | mode (cptr sptr : ClientId) (modes : List CStr)
  | oper (cptr sptr : ClientId) (conf : Option Roles.OperConf)
  | linkServer (cptr : ClientId) (name : CStr)
  | introduceServer (cptr : ClientId) (name : CStr)
  /-- Any exit, a refused handshake among them. -/
  | exit (u : ClientId) (behind : List ClientId)
  | lusers
  | tick (now : Int)

namespace Roles

def step (r : Roles) : RoleEvent → Roles
  | .accept => r.makeClient none
  | .connectServer name =>
    let u := r.nextClient
    let r := r.makeClient none
    r.setClient u { r.client u with name := name, status := .connecting }
  | .completed u =>
    if u ∈ r.globalClientList ∧ (r.client u).status = .connecting then
      r.setClient u { r.client u with status := .handshake }
    else r
  | .user cptr sptr server outcome =>
    if r.ComesFrom cptr sptr then r.doUser cptr sptr server outcome else r
  | .nick cptr sptr nick outcome =>
    if r.ComesFrom cptr sptr ∧ !(r.client sptr).isServer ∧ nick ≠ [] then
      r.changeNick cptr sptr nick outcome
    else r
  | .introduce cptr nick modes server =>
    if r.ComesFrom cptr cptr ∧ (r.client cptr).isServer ∧ nick ≠ [] then
      r.introduceNick cptr nick modes server
    else r
  | .mode cptr sptr modes =>
    if r.ComesFrom cptr sptr ∧ (r.client sptr).isPerson then r.userMode cptr sptr modes else r
  | .oper cptr sptr conf =>
    if r.ComesFrom cptr sptr ∧ ((r.client cptr).isClient ∨ (r.client cptr).isServer) then
      r.mOper cptr sptr conf
    else r
  | .linkServer cptr name =>
    if r.ComesFrom cptr cptr ∧
        ((r.client cptr).status = .unknown ∨ (r.client cptr).status = .handshake) then
      r.linkServer cptr name
    else r
  | .introduceServer cptr name =>
    if r.ComesFrom cptr cptr ∧ (r.client cptr).isServer then r.introduceServer cptr name else r
  | .exit u behind => r.exitClient u behind
  | .lusers => r.recount
  | .tick now => { r with currentTime := now }

end Roles

def roleMachine : Machine Roles RoleEvent := { step := Roles.step }

end Ircd
