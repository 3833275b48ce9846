import Ircd.Lib.ChainTable
import Ircd.Lib.Machine
import Ircd.Server.MServer

/-! The two name tables of `hash.c` and the functions that keep them: `m_nick`, `m_server`,
`exit_one_client`, `get_channel` and `sub1_from_channel`.

A table holds the chains of its buckets, linked through `hnext` and `hnextch`. A walk takes
at most as many steps as blocks were ever handed out, and a longer one goes in a circle.
-/

set_option autoImplicit false

namespace Ircd

def uMax : Nat := 65536

def hashNickName (name : CStr) : Nat :=
  (name.foldl (fun h c => (16 * h + 2 ^ 32 - (h + (toLower c).toNat) % 2 ^ 32) % 2 ^ 32) 0) % uMax

theorem hashNickName_congr {name name' : CStr} (h : irccmp name name' = .eq) :
    hashNickName name = hashNickName name' := by
  have folded : ∀ s : CStr, hashNickName s =
      ((s.map toLower).foldl (fun h c => (16 * h + 2 ^ 32 - (h + c.toNat) % 2 ^ 32) % 2 ^ 32) 0) %
        uMax := by
    intro s
    rw [List.foldl_map]
    rfl
  rw [folded, folded, map_toLower_eq h]

def ircNaming (hash : CStr → Nat)
    (congr : ∀ {n m : CStr}, irccmp n m = .eq → hash n = hash m) : Naming CStr Nat where
  same := fun n m => irccmp n m == .eq
  refl := fun n => by rw [irccmp_self]; rfl
  symm := fun h => beq_iff_eq.2 (irccmp_comm (beq_iff_eq.1 h))
  trans := fun h h' => beq_iff_eq.2 (irccmp_trans (beq_iff_eq.1 h) (beq_iff_eq.1 h'))
  hash := hash
  congr := fun h => congr (beq_iff_eq.1 h)

def clientNaming : Naming CStr Nat := ircNaming hashNickName hashNickName_congr

def channelNaming : Naming CStr Nat := ircNaming hashChannelName hashChannelName_congr

/-- The fields of `struct Client` that the callers of the client table read. -/
structure NamedClient where
  name : CStr
  username : CStr
  host : CStr
  status : Status
  localFlag : Bool
  from_ : ClientId
  user : Bool
  tsinfo : Int
  firsttime : Int
  deriving DecidableEq, Repr

def NamedClient.zero : NamedClient where
  name := []
  username := []
  host := []
  status := .unknown
  localFlag := false
  from_ := 0
  user := false
  tsinfo := 0
  firsttime := 0

def NamedClient.isServer (cl : NamedClient) : Bool := cl.status == .server

def NamedClient.isPerson (cl : NamedClient) : Bool := cl.status == .client && cl.user

def NamedClient.doesTs (cl : NamedClient) : Bool := cl.tsinfo == tsDoests

/-- A client behind a link, or a connection that has its name by NICK or SERVER: where this
server opens the connection, `name` is the one of the C-line at first. -/
def NamedClient.HoldsName (cl : NamedClient) : Prop :=
  cl.localFlag = false ∨ cl.name ≠ [] ∧ cl.status ≠ .connecting ∧ cl.status ≠ .handshake

structure NamedChannel where
  chname : CStr
  users : Int
  juped : Bool
  deriving DecidableEq, Repr

/-- How `register_user` ends. -/
inductive Registration where
  /-- The user has to leave. -/
  | refused
  /-- A banned user that waits for its exit. -/
  | held
  | accepted
  deriving DecidableEq, Repr

structure ClientNames where
  me : ClientId
  currentTime : Int
  clientTable : ChainTable Nat ClientId
  client : ClientId → NamedClient
  globalClientList : List ClientId
  /-- The address that `make_client` gives out next. -/
  nextClient : ClientId
  /-- The clients that a caller has put into the table and none has taken out since. No
  code reads it: it is what the table stands for. -/
  entered : List ClientId

structure ChannelNames where
  channelTable : ChainTable Nat ChanId
  chan : ChanId → NamedChannel
  channel : List ChanId
  nextChan : ChanId

structure NameTables extends ClientNames, ChannelNames

namespace ClientNames

def nameOf (t : ClientNames) (u : ClientId) : CStr := (t.client u).name

def setClient (t : ClientNames) (u : ClientId) (cl : NamedClient) : ClientNames :=
  { t with client := Function.update t.client u cl }

def addToClientHashTable (t : ClientNames) (name : CStr) (u : ClientId) : ClientNames :=
  { t with
    clientTable := t.clientTable.add (hashNickName name) u
    entered := u :: t.entered }

def delFromClientHashTable (t : ClientNames) (name : CStr) (u : ClientId) : ClientNames :=
  { t with
    clientTable := t.clientTable.del t.nextClient (hashNickName name) u
    entered := t.entered.erase u }

def hashFindClient (t : ClientNames) (name : CStr) : Option ClientId :=
  t.clientTable.find t.nextClient (hashNickName name) fun u => irccmp name (t.nameOf u) == .eq

def hashFindMaskedServer (t : ClientNames) (name : CStr) : Option ClientId :=
  if name.head? = some '*' ∨ name.head? = some '.' then none
  else (serverMasks (name.take hostLen)).findSome? t.hashFindClient

def hashFindServer (t : ClientNames) (name : CStr) : Option ClientId :=
  match t.clientTable.find t.nextClient (hashNickName name) fun u =>
    ((t.client u).isServer || (t.client u).status == .me) && irccmp name (t.nameOf u) == .eq with
  | some u => some u
  | none => t.hashFindMaskedServer name

def makeClient (t : ClientNames) (from_ : Option ClientId) : ClientNames :=
  let u := t.nextClient
  { t with
    clientTable := t.clientTable.clear u
    client := Function.update t.client u { NamedClient.zero with
      username := lit "unknown"
      localFlag := from_.isNone
      from_ := from_.getD u
      firsttime := if from_.isNone then t.currentTime else 0 }
    globalClientList := u :: t.globalClientList
    nextClient := u + 1 }

/-- `connect_server` gives the connection the name of its C-line. -/
def connectServer (t : ClientNames) (name : CStr) : ClientNames :=
  let u := t.nextClient
  let t := t.makeClient none
  t.setClient u { t.client u with name := strncpyIrc name hostLen, status := .connecting }

def exitOneClient (t : ClientNames) (sptr : ClientId) : ClientNames :=
  if (t.client sptr).status = .me then t
  else
    let t := t.delFromClientHashTable (t.nameOf sptr) sptr
    { t with globalClientList := t.globalClientList.erase sptr }

/-- `exit_client`: where `sptr` is a server, what is behind it goes first. -/
def exitClient (t : ClientNames) (sptr : ClientId) (behind : List ClientId) : ClientNames :=
  (behind ++ [sptr]).foldl exitOneClient t

/-- `m_pass`; the password is not modelled. -/
def mPass (t : ClientNames) (cptr sptr : ClientId) (parv : List CStr) : ClientNames :=
  let cl := t.client cptr
  if parv.getD 1 [] = [] then t
  else if !(t.client sptr).localFlag ∨ cl.status ≠ .unknown ∧ cl.status ≠ .handshake then t
  else if 2 < parv.length ∧ irccmp (parv.getD 2 []) (lit "TS") = .eq ∧ cl.tsinfo = 0 then
    t.setClient cptr { cl with tsinfo := tsDoests }
  else t

structure NickVerdict where
  /-- `find_q_line` quarantines the nick. -/
  quarantined : Bool
  tooFast : Bool
  outcome : Registration
  /-- The clients that go with a sender that is a server. -/
  behind : List ClientId
  deriving DecidableEq, Repr

/-- `register_user`, up to `SetClient` or the exit of the user. -/
def registerUser (t : ClientNames) (sptr : ClientId) : Registration → ClientNames
  | .refused => t.exitClient sptr []
  | .held => t
  | .accepted => t.setClient sptr { t.client sptr with status := .client }

def doUser (t : ClientNames) (sptr : ClientId) (username host : CStr) (outcome : Registration) :
    ClientNames :=
  let t := t.setClient sptr { t.client sptr with user := true }
  if !(t.client sptr).localFlag then
    let t := t.setClient sptr { t.client sptr with
      username := strncpyIrc username userLen
      host := strncpyIrc host hostLen }
    t.registerUser sptr outcome
  else if (t.client sptr).status ≠ .unknown then t
  else if t.nameOf sptr ≠ [] then t.registerUser sptr outcome
  else t.setClient sptr { t.client sptr with username := strncpyIrc username userLen }

def setNick (t : ClientNames) (sptr : ClientId) (nick : CStr) : ClientNames :=
  let t := if t.nameOf sptr ≠ [] then t.delFromClientHashTable (t.nameOf sptr) sptr else t
  let t := t.setClient sptr { t.client sptr with name := nick }
  t.addToClientHashTable nick sptr

def introduceNick (t : ClientNames) (cptr : ClientId) (parv : List CStr) (newts : Int)
    (nick : CStr) (outcome : Registration) : ClientNames :=
  let u := t.nextClient
  let t := t.makeClient (some cptr)
  let t := t.setClient u { t.client u with
    name := nick
    tsinfo := if newts = 0 then t.currentTime else newts }
  let t := t.addToClientHashTable nick u
  t.doUser u (parv.getD 5 []) (parv.getD 6 []) outcome

def nickkilldone (t : ClientNames) (cptr sptr : ClientId) (parv : List CStr) (newts : Int)
    (nick : CStr) (v : NickVerdict) : ClientNames :=
  let cl := t.client sptr
  if cl.isServer then t.introduceNick cptr parv newts nick v.outcome
  else if cl.name ≠ [] then
    let tsinfo := if newts = 0 then t.currentTime else newts
    let t :=
      if irccmp (parv.getD 0 []) nick = .eq then t
      else t.setClient sptr { cl with tsinfo := tsinfo }
    if cl.localFlag ∧ cl.status = .client ∧ v.tooFast then t else t.setNick sptr nick
  else
    let t := t.setClient sptr { cl with name := nick, tsinfo := t.currentTime }
    if !cl.user then t.setNick sptr nick
    else if v.outcome = .refused then t.registerUser sptr .refused
    else (t.registerUser sptr v.outcome).setNick sptr nick

/-- `clean_nick_name`, with the empty name for a length of zero. -/
def cleanNickName (nick : CStr) : CStr :=
  match nick with
  | [] => []
  | c :: _ => if c = '-' ∨ isDigit c then [] else nick.takeWhile isNickChar

def nickTs (sptr cptr : NamedClient) (parv : List CStr) : Int × Nat :=
  if !sptr.isServer ∧ cptr.isServer ∧ 2 < parv.length then (atol (parv.getD 2 []), parv.length)
  else if sptr.isServer ∧ 3 < parv.length then (atol (parv.getD 3 []), parv.length)
  else (0, 2)

/-- What `m_nick` does about another client of the name. -/
inductive Collision where
  | ignore
  | killOld
  | killNew
  | killBoth
  /-- The old client is killed and the new name is taken. -/
  | replace
  deriving DecidableEq, Repr

def nickCollision (acptr sptr cptr : NamedClient) (newts : Int) (fromTs : Bool)
    (parv : List CStr) : Collision :=
  if acptr.status = .unknown ∧ acptr.localFlag then .replace
  else if acptr.status = .unknown ∧ fromTs ∧ !acptr.user then .killOld
  else if !cptr.isServer then .ignore
  else if sptr.isServer then
    if newts = 0 ∨ acptr.tsinfo = 0 ∨ newts = acptr.tsinfo then .killOld
    else
      let sameuser : Bool := fromTs && acptr.user &&
        irccmp acptr.username (parv.getD 5 []) == .eq && irccmp acptr.host (parv.getD 6 []) == .eq
      if sameuser ∧ newts < acptr.tsinfo ∨ !sameuser ∧ acptr.tsinfo < newts then .ignore
      else .replace
  else if newts = 0 ∨ acptr.tsinfo = 0 ∨ newts = acptr.tsinfo ∨ !sptr.user then .killBoth
  else
    let sameuser : Bool :=
      irccmp acptr.username sptr.username == .eq && irccmp acptr.host sptr.host == .eq
    if sameuser ∧ newts < acptr.tsinfo ∨ !sameuser ∧ acptr.tsinfo < newts then .killNew
    else .replace

def takeNick (t : ClientNames) (cptr sptr : ClientId) (parv : List CStr) (newts : Int)
    (fromTs : Bool) (nick : CStr) (v : NickVerdict) : ClientNames :=
  match t.hashFindServer nick with
  | some _ => if (t.client sptr).localFlag then t else t.exitClient sptr v.behind
  | none =>
    match t.hashFindClient nick with
    | none => t.nickkilldone cptr sptr parv newts nick v
    | some acptr =>
      if acptr = sptr then
        if t.nameOf acptr ≠ nick then t.nickkilldone cptr sptr parv newts nick v else t
      else
        match nickCollision (t.client acptr) (t.client sptr) (t.client cptr) newts fromTs parv with
        | .ignore => t
        | .killOld => t.exitClient acptr []
        | .killNew => t.exitClient sptr []
        | .killBoth => (t.exitClient acptr []).exitClient sptr []
        | .replace => (t.exitClient acptr []).nickkilldone cptr sptr parv newts nick v

def mNick (t : ClientNames) (cptr sptr : ClientId) (parv : List CStr) (v : NickVerdict) :
    ClientNames :=
  if parv.length < 2 then t
  else
    let (newts, parc) := nickTs (t.client sptr) (t.client cptr) parv
    let host := parv.getD 6 []
    if (t.client sptr).isServer ∧ parc < 9 then t
    else if 7 ≤ parc ∧ '.' ∉ host ∧ ':' ∉ host then t
    else
      let parv1 := parv.getD 1 []
      let parv1 := if (t.client sptr).localFlag then parv1.takeWhile (· ≠ '~') else parv1
      let nick := cleanNickName (strncpyIrc parv1 nickLen)
      if nick = [] ∨ (t.client cptr).isServer ∧ nick ≠ parv1 then
        if (t.client cptr).isServer ∧ sptr ≠ cptr then t.exitClient sptr v.behind else t
      else if (t.client sptr).localFlag ∧ !(t.client sptr).isServer ∧ v.quarantined then t
      else t.takeNick cptr sptr parv newts (6 < parc) nick v

/-- The parameters as `parse` hands them on: a client cannot give its own name as another. -/
def senderFirst (t : ClientNames) (sptr : ClientId) (parv : List CStr) : List CStr :=
  if (t.client sptr).localFlag ∧ !(t.client sptr).isServer then t.nameOf sptr :: parv.tail else parv

structure ServerVerdict where
  /-- The clients behind the connection, and behind the link that it takes the place of. -/
  behind : List ClientId
  behindOther : List ClientId
  /-- Another link has lost its N-line. -/
  lostNLine : Bool
  deriving DecidableEq, Repr

inductive Gate where
  | done
  | introduce
  | become
  deriving DecidableEq, Repr

def serverHost (parv : List CStr) : CStr := (parv.getD 1 []).take hostLen

/-- `m_server` once no server of the name is left. -/
def newServerGate (t : ClientNames) (cptr : ClientId) (host : CStr) (v : ServerVerdict) :
    ClientNames × Gate :=
  match t.hashFindClient host with
  | some acptr => if acptr ≠ cptr then (t.exitClient cptr v.behind, .done) else admitted
  | none => admitted
where
  admitted : ClientNames × Gate :=
    if (t.client cptr).isServer then (t, .introduce)
    else if (t.client cptr).status ≠ .unknown ∧ (t.client cptr).status ≠ .handshake then (t, .done)
    else if !(t.client cptr).doesTs then (t.exitClient cptr v.behind, .done)
    else (t, .become)

def serverGate (t : ClientNames) (cptr sptr : ClientId) (parv : List CStr) (adm : Admission)
    (v : ServerVerdict) : ClientNames × Gate :=
  if parv.length < 2 ∨ parv.getD 1 [] = [] then (t, .done)
  else
    let host := serverHost parv
    if (t.client sptr).isPerson then (t, .done)
    else if '.' ∉ host ∨ !host.all isServChar then (t.exitClient cptr v.behind, .done)
    else if !(t.client cptr).isServer ∧ !adm.nLine then (t.exitClient cptr v.behind, .done)
    else if (t.client cptr).localFlag ∧ !adm.autoconn then (t.exitClient cptr v.behind, .done)
    else
      match t.hashFindServer host with
      | none => t.newServerGate cptr host v
      | some acptr =>
        let from_ := (t.client acptr).from_
        if (t.client from_).firsttime < (t.client cptr).firsttime ∨ from_ = cptr then
          (t.exitClient cptr v.behind, .done)
        else
          -- `cptr` is not behind the link that goes
          let t := t.exitClient from_ (v.behindOther.filter (· ≠ cptr))
          t.newServerGate cptr host v

def introduceServer (t : ClientNames) (cptr : ClientId) (host : CStr) (parv : List CStr)
    (adm : Admission) (v : ServerVerdict) : ClientNames :=
  let (hop, info) := serverParams parv
  if info = [] then t
  else if (adm.leaf.any fun port => port = 0 ∨ port < hop) then t.exitClient cptr v.behind
  else if (adm.hub.all fun port => port ≠ 0 ∧ port < hop) then t.exitClient cptr v.behind
  else
    let u := t.nextClient
    let t := t.makeClient (some cptr)
    let t := t.setClient u { t.client u with name := strncpyIrc host hostLen, status := .server }
    let t := t.addToClientHashTable (t.nameOf u) u
    if v.lostNLine then t.exitClient cptr v.behind else t

/-- Whether `server_estab` sends the connection away. -/
def estabRefuses (t : ClientNames) (cptr : ClientId) (adm : Admission) : Bool :=
  match adm.nConf, adm.cConf with
  | some nConf, some cConf =>
    (nConf.passwd ≠ [] ∧ nConf.passwd ≠ adm.passwd) ∨
    (!adm.isHub ∧ ∃ u ∈ t.globalClientList, (t.client u).isServer ∧ (t.client u).localFlag) ∨
    ((t.client cptr).status ≠ .unknown ∧ !matchMask nConf.user (t.client cptr).username) ∨
    (adm.capZip ∧ cConf.zipLink ∧ !adm.zipInit)
  | _, _ => true

/-- A connection becomes a link: `strncpy_irc(cptr->name, host, HOSTLEN)` up to the end of
`server_estab`. -/
def becomeServer (t : ClientNames) (cptr : ClientId) (host : CStr) (adm : Admission)
    (v : ServerVerdict) : ClientNames :=
  let t := t.setClient cptr { t.client cptr with name := strncpyIrc host hostLen }
  if !adm.checked ∨ t.estabRefuses cptr adm then t.exitClient cptr v.behind
  else
    let t := t.setClient cptr { t.client cptr with status := .server }
    t.addToClientHashTable (t.nameOf cptr) cptr

def mServer (t : ClientNames) (cptr sptr : ClientId) (parv : List CStr) (adm : Admission)
    (v : ServerVerdict) : ClientNames :=
  match t.serverGate cptr sptr parv adm v with
  | (t, .done) => t
  | (t, .introduce) => t.introduceServer cptr (serverHost parv) parv adm v
  | (t, .become) => t.becomeServer cptr (serverHost parv) adm v

/-- A message comes over a connection from a client that it leads to, and never from `me`. -/
structure ComesFrom (t : ClientNames) (cptr sptr : ClientId) : Prop where
  connected : cptr ∈ t.globalClientList
  myConnect : (t.client cptr).localFlag
  itself : (t.client cptr).from_ = cptr
  here : sptr ∈ t.globalClientList
  behind : (t.client sptr).from_ = cptr
  notMe : (t.client sptr).status ≠ .me

instance (t : ClientNames) (cptr sptr : ClientId) : Decidable (t.ComesFrom cptr sptr) :=
  decidable_of_iff (cptr ∈ t.globalClientList ∧ (t.client cptr).localFlag ∧
    (t.client cptr).from_ = cptr ∧ sptr ∈ t.globalClientList ∧ (t.client sptr).from_ = cptr ∧
    (t.client sptr).status ≠ .me)
    ⟨fun ⟨a, b, c, d, e, f⟩ => ⟨a, b, c, d, e, f⟩, fun ⟨a, b, c, d, e, f⟩ => ⟨a, b, c, d, e, f⟩⟩

end ClientNames

namespace ChannelNames

def chnameOf (t : ChannelNames) (c : ChanId) : CStr := (t.chan c).chname

def setChan (t : ChannelNames) (c : ChanId) (ch : NamedChannel) : ChannelNames :=
  { t with chan := Function.update t.chan c ch }

def addToChannelHashTable (t : ChannelNames) (name : CStr) (c : ChanId) : ChannelNames :=
  { t with channelTable := t.channelTable.add (hashChannelName name) c }

def delFromChannelHashTable (t : ChannelNames) (name : CStr) (c : ChanId) : ChannelNames :=
  { t with channelTable := t.channelTable.del t.nextChan (hashChannelName name) c }

def hashFindChannel (t : ChannelNames) (name : CStr) : Option ChanId :=
  t.channelTable.find t.nextChan (hashChannelName name) fun c =>
    irccmp name (t.chnameOf c) == .eq

def createChannel (t : ChannelNames) (chname : CStr) (juped : Bool) : ChannelNames :=
  let c := t.nextChan
  let t := { t with
    channelTable := t.channelTable.clear c
    chan := Function.update t.chan c { chname := chname, users := 0, juped := juped }
    channel := c :: t.channel
    nextChan := c + 1 }
  t.addToChannelHashTable chname c

/-- `get_channel` cuts the name for a client of its own. -/
def getChannel (t : ChannelNames) (mine : Bool) (chname : CStr) (create : Bool) : ChannelNames :=
  if chname = [] then t
  else
    let chname := if mine ∧ channelLen < chname.length then chname.take channelLen else chname
    match t.hashFindChannel chname with
    | some _ => t
    | none => if create then t.createChannel chname false else t

/-- A Q-line for a channel, as `initconf` reads it. -/
def jupeChannel (t : ChannelNames) (name : CStr) : ChannelNames :=
  if name.head? ≠ some '#' then t
  else match t.hashFindChannel name with
    | some c => t.setChan c { t.chan c with juped := true }
    | none => t.createChannel name true

def sub1FromChannel (t : ChannelNames) (c : ChanId) : ChannelNames :=
  let users := (t.chan c).users - 1
  if users ≤ 0 then
    let t := t.setChan c { t.chan c with users := 0 }
    if (t.chan c).juped then t
    else
      let t := { t with channel := t.channel.erase c }
      t.delFromChannelHashTable (t.chnameOf c) c
  else t.setChan c { t.chan c with users := users }

end ChannelNames

namespace NameTables

def startUp (name : CStr) (now : Int) : NameTables where
  toClientNames := ClientNames.addToClientHashTable {
    me := 0
    currentTime := now
    clientTable := ChainTable.empty
    client := Function.update (fun _ => NamedClient.zero) 0
      { NamedClient.zero with name := name, status := .me, firsttime := now }
    globalClientList := [0]
    nextClient := 1
    entered := [] } name 0
  channelTable := ChainTable.empty
  chan := fun _ => { chname := [], users := 0, juped := false }
  channel := []
  nextChan := 0

end NameTables

inductive NameEvent where
  /-- `add_connection` -/
  | accept
  | pass (cptr sptr : ClientId) (parv : List CStr)
  | connectServer (name : CStr)
  /-- `completed_connection` -/
  | completed (u : ClientId)
  | nick (cptr sptr : ClientId) (parv : List CStr) (v : ClientNames.NickVerdict)
  | user (sptr : ClientId) (username host : CStr) (outcome : Registration)
  | server (cptr sptr : ClientId) (parv : List CStr) (adm : Admission)
    (v : ClientNames.ServerVerdict)
  | exit (u : ClientId) (behind : List ClientId)
  | getChannel (cptr : ClientId) (chname : CStr) (create : Bool)
  | jupe (name : CStr)
  /-- `add_user_to_channel` -/
  | addUser (c : ChanId)
  | sub1 (c : ChanId)
  | tick (now : Int)

namespace NameTables

def editClients (t : NameTables) (f : ClientNames → ClientNames) : NameTables :=
  { t with toClientNames := f t.toClientNames }

def editChannels (t : NameTables) (f : ChannelNames → ChannelNames) : NameTables :=
  { t with toChannelNames := f t.toChannelNames }

def step (t : NameTables) : NameEvent → NameTables
  | .accept => t.editClients (·.makeClient none)
  | .connectServer name =>
    if t.hashFindServer name = none then t.editClients (·.connectServer name) else t
  | .completed u =>
    if (t.client u).status = .connecting then
      t.editClients (·.setClient u { t.client u with status := .handshake })
    else t
  | .pass cptr sptr parv =>
    if t.ComesFrom cptr sptr then t.editClients (·.mPass cptr sptr parv) else t
  | .nick cptr sptr parv v =>
    if t.ComesFrom cptr sptr then
      t.editClients fun t => t.mNick cptr sptr (t.senderFirst sptr parv) v
    else t
  | .user sptr username host outcome =>
    if t.ComesFrom (t.client sptr).from_ sptr then
      t.editClients (·.doUser sptr username host outcome)
    else t
  | .server cptr sptr parv adm v =>
    if t.ComesFrom cptr sptr then t.editClients (·.mServer cptr sptr parv adm v) else t
  | .exit u behind => t.editClients (·.exitClient u behind)
  | .getChannel cptr chname create =>
    let mine : Bool := (t.client cptr).localFlag && (t.client cptr).status == .client
    t.editChannels (·.getChannel mine chname create)
  | .jupe name => t.editChannels (·.jupeChannel name)
  | .addUser c =>
    if c ∈ t.channel then
      t.editChannels (·.setChan c { t.chan c with users := (t.chan c).users + 1 })
    else t
  | .sub1 c => if c ∈ t.channel then t.editChannels (·.sub1FromChannel c) else t
  | .tick now => t.editClients fun t => { t with currentTime := now }

end NameTables

def nameMachine : Machine NameTables NameEvent := { step := NameTables.step }

end Ircd
