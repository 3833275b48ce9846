import Ircd.Channel.Part
import Ircd.Lib.Forest
import Ircd.Server.Umode

/-! The network as one server knows it: `struct Server`, the client lists and `exit_client`.

A client's place is `servptr`, the server that it is on or behind, and the two lists of
that server mirror it. `from` is the link that the client is reached through. Local users
are also on `local_cptr_list` and operators on `oper_cptr_list`.
-/

set_option autoImplicit false

namespace Ircd

/-- `struct Server`: what a client has that is a server or is to become one. -/
structure Serv where
  up : CStr
  servers : List ClientId
  users : List ClientId
  /-- The port of the N-line, by which the link masks our name. -/
  nline : Option Int
  deriving DecidableEq, Repr

def Serv.zero : Serv := { up := [], servers := [], users := [], nline := none }

/-- The fields of `struct Client` that the network layer reads besides. -/
structure Peer where
  firsttime : Int
  hopcount : Int
  tsinfo : Int
  info : CStr
  umodes : Umodes
  privs : OperPriv → Bool
  /-- `CAP_CAP` and `CAP_QS` -/
  capCap : Bool
  capQs : Bool
  servptr : Option ClientId
  serv : Option Serv
  nicksent : Nat
  nextLocalClient : Option ClientId
  previousLocalClient : Option ClientId

def Peer.zero : Peer where
  firsttime := 0
  hopcount := 0
  tsinfo := 0
  info := []
  umodes := .none
  privs := fun _ => false
  capCap := false
  capQs := false
  servptr := none
  serv := none
  nicksent := 0
  nextLocalClient := none
  previousLocalClient := none

/-- The members of `Count` that the network layer keeps besides `server` and `total`. -/
structure Counter where
  invisi : Int
  oper : Int
  local_ : Int
  deriving DecidableEq, Repr

structure Network extends Server where
  peer : ClientId → Peer
  /-- `GlobalClientList`, which starts at the newest client; `me` is its last. -/
  globalClientList : List ClientId
  /-- The address that `make_client` gives out next. -/
  nextClient : ClientId
  /-- The mark of the last connect burst. -/
  nickissent : Nat
  count : Counter
  localCptrList : Option ClientId
  operCptrList : List ClientId

/-- `TS_DOESTS`, which PASS puts where the timestamp is to be. -/
def tsDoests : Int := 0x20000000

def realLen : Nat := 50

def isNickChar (c : Char) : Bool :=
  isDigit c || c == '-' || (0x41 ≤ c.toNat && c.toNat ≤ 0x7d)

def isServChar (c : Char) : Bool := isNickChar c || c == '*' || c == '.'

/-- `my_name_for_link` behind the first `count` labels. -/
def afterLabels : Nat → CStr → Option CStr
  | 0, name => some name
  | count + 1, name =>
    match name.tail.dropWhile (· ≠ '.') with
    | [] => none
    | name => afterLabels count name

def myNameForLink (name : CStr) (port : Int) : CStr :=
  if port ≤ 0 ∨ 5 < port then name
  else match afterLabels port.toNat name with
    | none => name
    | some rest => '*' :: rest.take (hostLen - 1)

/-- The masks that `hash_find_masked_server` tries: from each dot on, with a star for
what is before it. -/
def serverMasks : CStr → List CStr
  | [] => []
  | c :: rest => if c = '.' then ('*' :: c :: rest) :: serverMasks rest else serverMasks rest

namespace Tables

def hashFindMaskedServer (t : Tables) (name : CStr) : Option ClientId :=
  if name.head? = some '*' ∨ name.head? = some '.' then none
  else (serverMasks (name.take hostLen)).findSome? t.findClient

/-- `hash_find_server`, which is also `find_server`. -/
def hashFindServer (t : Tables) (name : CStr) : Option ClientId :=
  match t.clients.find? fun u =>
    ((t.client u).isServer || (t.client u).status == .me) && irccmp name (t.nameOf u) == .eq with
  | some u => some u
  | none => t.hashFindMaskedServer name

end Tables

namespace Network

/-- The server `name` as `main` starts it; `me.servptr` is `me` itself. -/
def startUp (name : CStr) (now : Int) : Network where
  toServer := Server.startUp name now
  peer := Function.update (fun _ => Peer.zero) 0
    { Peer.zero with firsttime := now, servptr := some 0, serv := some { Serv.zero with up := name } }
  globalClientList := [0]
  nextClient := 1
  nickissent := 1
  count := { invisi := 0, oper := 0, local_ := 0 }
  localCptrList := none
  operCptrList := []

def edit (n : Network) (f : Tables → Tables) : Network := { n with toServer := n.toServer.edit f }

def setPeer (n : Network) (u : ClientId) (p : Peer) : Network :=
  { n with peer := Function.update n.peer u p }

/-- A write to the `struct Server` of a client that has one. -/
def setServ (n : Network) (u : ClientId) (sv : Serv) : Network :=
  n.setPeer u { n.peer u with serv := some sv }

/-- A write to `umodes`; the channel code has its own copy of `IsAnOper`. -/
def setUmodes (n : Network) (u : ClientId) (m : Umodes) : Network :=
  { n with
    toServer := n.toServer.edit (·.setClient u { n.client u with anOper := m.isAnOper })
    peer := Function.update n.peer u { n.peer u with umodes := m } }

def setCount (n : Network) (count : Counter) : Network := { n with count := count }

def sendLine (n : Network) (u : ClientId) (text : CStr) : Network :=
  { n with toServer := n.toServer.emit (.one u text) }

/-- `make_client` and `add_client_to_list`: a local client comes from itself. -/
def makeClient (n : Network) (from_ : Option ClientId) : Network :=
  let u := n.nextClient
  let cl := { Client.zero with
    localFlag := from_.isNone, from_ := from_.getD u, username := lit "unknown" }
  let firsttime := if from_.isNone then n.currentTime else 0
  { n with
    toServer := n.toServer.edit (·.setClient u cl)
    peer := Function.update n.peer u { Peer.zero with firsttime := firsttime }
    globalClientList := u :: n.globalClientList
    nextClient := u + 1 }

/-- `make_server`, where the client has no `struct Server` yet. -/
def makeServer (n : Network) (u : ClientId) : Network :=
  n.setServ u ((n.peer u).serv.getD Serv.zero)

/-- `add_client_to_llist` on one of the two lists of `servptr`. -/
def addToLlist (n : Network) (u servptr : ClientId) : Network :=
  match (n.peer servptr).serv with
  | none => n
  | some sv =>
    if (n.client u).isServer then n.setServ servptr { sv with servers := u :: sv.servers }
    else n.setServ servptr { sv with users := u :: sv.users }

/-- `del_client_from_llist` on the list that `exit_one_client` looks in. -/
def delFromLlist (n : Network) (u : ClientId) : Network :=
  match (n.peer u).servptr with
  | none => n
  | some servptr =>
    match (n.peer servptr).serv with
    | none => n
    | some sv =>
      if (n.client u).isServer then
        n.setServ servptr { sv with servers := sv.servers.erase u }
      else n.setServ servptr { sv with users := sv.users.erase u }

def updateClientExitStats (n : Network) (u : ClientId) : Network :=
  let cl := n.client u
  let m := (n.peer u).umodes
  if cl.isServer then
    let n := n.edit fun t => { t with countServer := t.countServer - 1 }
    if n.splitDelay ≠ 0 ∧ n.countServer < n.splitNum then
      n.edit fun t => { t with serverWasSplit := true, serverSplitTime := t.currentTime }
    else n
  else if cl.isClient then
    let n := n.edit fun t => { t with countTotal := t.countTotal - 1 }
    n.setCount { n.count with
      oper := if m.isAnOper then n.count.oper - 1 else n.count.oper
      invisi := if m .invisible then n.count.invisi - 1 else n.count.invisi }
  else n

/-- `exit_one_client`; `killed` is `FLAGS_KILLED`. A link that closed has no `from`. -/
def exitOneClient (n : Network) (cptr sptr from_ : ClientId) (killed : Bool) (comment : CStr) :
    Network :=
  let n := n.delFromLlist sptr
  let cl := n.client sptr
  if cl.status = .me then
    { n with toServer := n.toServer.exitOneClient cptr sptr killed comment }
  else
    let acptr := cl.from_
    let n :=
      if cl.isServer ∧ acptr ≠ sptr ∧ (n.client acptr).isServer ∧ acptr ≠ cptr ∧ !killed then
        n.sendLine acptr
          (':' :: n.nameOf from_ ++ lit " SQUIT " ++ cl.name ++ lit " :" ++ comment)
      else n
    let n := n.updateClientExitStats sptr
    { n with
      toServer := n.toServer.exitOneClient cptr sptr killed comment
      globalClientList := n.globalClientList.erase sptr }

/-- `recurse_remove_clients`, in turns of its two loops. -/
def recurseRemoveClients (comment : CStr) : Nat → Network → ClientId → Network
  | 0, n, _ => n
  | fuel + 1, n, sptr =>
    if (n.client sptr).status = .me then n
    else match (n.peer sptr).serv with
      | none => n
      | some sv =>
        match sv.servers with
        | acptr :: _ =>
          let n := recurseRemoveClients comment fuel n acptr
          let n := n.exitOneClient n.me acptr n.me true n.meName
          recurseRemoveClients comment fuel n sptr
        | [] =>
          match sv.users with
          | acptr :: _ =>
            recurseRemoveClients comment fuel (n.exitOneClient n.me acptr n.me true comment) sptr
          | [] => n

/-- One of the two loops of `exit_client` over the clients that still come from a closed
link. The link itself has lost its `from` by then. -/
def removeStrays (sptr : ClientId) (servers : Bool) (comment : CStr) :
    List ClientId → Network → Network
  | [], n => n
  | acptr :: rest, n =>
    let cl := n.client acptr
    let n :=
      if acptr ≠ sptr ∧ cl.isServer = servers ∧ cl.from_ = sptr then
        n.exitOneClient n.me acptr n.me false (if servers then n.meName else comment)
      else n
    removeStrays sptr servers comment rest n

/-- The first part of `exit_client`, for a connection of this server: it leaves the lists
of operators and of local users. -/
def leaveRoleLists (n : Network) (sptr : ClientId) : Network :=
  if !(n.client sptr).myConnect then n
  else
    let n :=
      if (n.peer sptr).umodes.isAnOper then
        { n with operCptrList := n.operCptrList.erase sptr }
      else n
    if !(n.client sptr).isClient then n
    else
      let n := n.setCount { n.count with local_ := n.count.local_ - 1 }
      if !(n.client sptr).isPerson then n
      else
        let next := (n.peer sptr).nextLocalClient
        let previous := (n.peer sptr).previousLocalClient
        let n := match previous with
          | some p => n.setPeer p { n.peer p with nextLocalClient := next }
          | none => if n.localCptrList = some sptr then { n with localCptrList := next } else n
        let n := match next with
          | some q => n.setPeer q { n.peer q with previousLocalClient := previous }
          | none => n
        n.setPeer sptr { n.peer sptr with previousLocalClient := none, nextLocalClient := none }

/-- `get_client_name` of a connection of this server, as `HIDE_SERVERS_IPS` has it. -/
def clientName (n : Network) (u : ClientId) (showIp : Bool) : CStr :=
  let cl := n.client u
  if irccmp cl.name cl.host = .eq then cl.name
  else
    let hidden : Bool :=
      !showIp || cl.isServer || cl.status == .handshake || cl.status == .connecting
    cl.name ++ '[' :: cl.username ++ '@' ::
      (if hidden then lit "255.255.255.255" else cl.ip) ++ lit "]"

def closingText (n : Network) (sptr : ClientId) (comment : CStr) : CStr :=
  lit "ERROR :Closing Link: " ++ n.clientName sptr (n.client sptr).isClient ++ lit " (" ++
    comment ++ lit ")"

/-- A connection of this server is told that it goes, then `close_connection`. -/
def sayClosing (n : Network) (sptr : ClientId) (comment : CStr) : Network :=
  if (n.client sptr).myConnect then n.sendLine sptr (n.closingText sptr comment) else n

/-- A line of `recurse_send_quits`, with the client that it names. -/
inductive QuitLine where
  | quit (u : ClientId) (text : CStr)
  | squit (u : ClientId) (text : CStr)
  deriving DecidableEq, Repr

def QuitLine.text : QuitLine → CStr
  | .quit _ text => text
  | .squit _ text => text

/-- `recurse_send_quits` to a link that knows us as `myname`; `qs` is its `CAP_QS`. -/
def recurseSendQuits (n : Network) (qs : Bool) (comment myname : CStr) :
    Nat → ClientId → List QuitLine
  | 0, _ => []
  | fuel + 1, sptr =>
    let servers := ((n.peer sptr).serv.map Serv.servers).getD []
    let users := ((n.peer sptr).serv.map Serv.users).getD []
    let below :=
      users.map (fun acptr => .quit acptr (':' :: n.nameOf acptr ++ lit " QUIT :" ++ comment)) ++
        servers.flatMap (n.recurseSendQuits qs comment myname fuel)
    let squit := QuitLine.squit sptr
      (lit "SQUIT " ++ n.nameOf sptr ++ lit " :" ++ n.meName)
    let hidden := matchMask myname (n.nameOf sptr)
    if qs then if hidden then below else [squit]
    else below ++ if hidden then [] else [squit]

/-- What `remove_dependents` sends to the link `to_` about the server `sptr`. -/
def quitsFor (n : Network) (cptr sptr : ClientId) (comment : CStr) (to_ : ClientId) :
    List QuitLine :=
  if to_ = (n.client sptr).from_ ∨ to_ = cptr ∧ (n.peer to_).capQs then []
  else
    let myname := match (n.peer to_).serv.bind Serv.nline with
      | some port => myNameForLink n.meName port
      | none => n.meName
    n.recurseSendQuits (n.peer to_).capQs comment myname n.globalClientList.length sptr

def sendQuits (n : Network) (to_ : ClientId) (lines : List QuitLine) : Network :=
  lines.foldl (fun n line => n.sendLine to_ line.text) n

def removeDependents (n : Network) (cptr sptr : ClientId) (comment : CStr) : Network :=
  let sent := n.servCptrList.foldl
    (fun m to_ => m.sendQuits to_ (n.quitsFor cptr sptr comment to_)) n
  recurseRemoveClients comment n.globalClientList.length sent sptr

def exitClient (n : Network) (cptr sptr from_ : ClientId) (killed : Bool) (comment : CStr) :
    Network :=
  let n := (n.leaveRoleLists sptr).sayClosing sptr comment
  let n :=
    if (n.client sptr).isServer then
      let up := match (n.peer sptr).serv with
        | some sv => sv.up
        | none => lit "<Unknown>"
      let comment1 := up ++ ' ' :: n.nameOf sptr
      let n := n.removeDependents cptr sptr comment1
      if (n.peer sptr).servptr = some n.me then
        let n := removeStrays sptr false comment1 n.globalClientList n
        removeStrays sptr true comment1 n.globalClientList n
      else n
    else n
  n.exitOneClient cptr sptr from_ killed comment

end Network

end Ircd
