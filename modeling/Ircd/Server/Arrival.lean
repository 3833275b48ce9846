import Ircd.Server.NameTable

/-! How clients come into the network: connections, and users by NICK and USER.

`m_nick`, `nickkilldone`, `do_user` and `register_user` are here with the graph that they
write to; the name tables alone are in the model of `hash.c`. What the configuration and
the history of a connection decide comes in as one record.
-/

set_option autoImplicit false

namespace Ircd

structure UserTerms where
  /-- `find_q_line` quarantines the nick. -/
  quarantined : Bool
  tooFast : Bool
  /-- The sender, and the other client of the name, have sent USER before. -/
  made : Bool
  otherMade : Bool
  /-- How `register_user` judges a user of this server, and the comment where it refuses. -/
  outcome : Registration
  reason : CStr
  /-- The user name that it settles on. -/
  username : CStr
  deriving DecidableEq, Repr

namespace Network

/-- `release_auth_client`: the connection is put on the client list. -/
def accept (n : Network) : Network := n.makeClient none

/-- `connect_server` for a C-line of that name, once the socket is there. -/
def connectServer (n : Network) (name : CStr) : Network :=
  match n.hashFindServer name with
  | some _ => n
  | none =>
    let u := n.nextClient
    let n := n.makeClient none
    let n := { n with toServer := n.toServer.edit (·.setClient u
      { n.client u with name := strncpyIrc name hostLen, status := .connecting }) }
    n.setServ u { Serv.zero with up := n.meName }

/-- `completed_connection`; without its lines the connection is closed. -/
def completedConnection (n : Network) (cptr : ClientId) (cConf : Option CConf)
    (nConf : Option NConf) : Network :=
  if (n.client cptr).status ≠ .connecting then n
  else match cConf, nConf with
    | some cConf, some nConf =>
      let n := { n with toServer := n.toServer.edit (·.setClient cptr
        { n.client cptr with status := .handshake }) }
      n.answerServer cptr nConf cConf
    | _, _ => n.exitClient cptr cptr n.me false (lit "Lost C/N Line")

def killLine (n : Network) (victim path : CStr) : CStr :=
  ':' :: n.meName ++ lit " KILL " ++ victim ++ lit " :" ++ n.meName ++ lit " (" ++ path ++ [')']

def emit (n : Network) (o : Output) : Network := { n with toServer := n.toServer.emit o }

def replyLine (n : Network) (u : ClientId) (number : CStr) (args : List CStr) (text : CStr) : Network :=
  n.sendLine u (':' :: n.meName ++ ' ' :: number ++ args.flatMap (' ' :: ·) ++ text)

def joinLocal (n : Network) (u : ClientId) : Network :=
  let n := match n.localCptrList with
    | some first => n.setPeer first { n.peer first with previousLocalClient := some u }
    | none => n
  let n := n.setPeer u
    { n.peer u with previousLocalClient := none, nextLocalClient := n.localCptrList }
  { n with localCptrList := some u }

/-- The end of `register_user`: the other servers are told. -/
def introduceUser (n : Network) (cptr sptr : ClientId) : Network :=
  let cl := n.client sptr
  let p := n.peer sptr
  let sent := umodeBuf cl.myClient .none p.umodes sendUmodes
  let ubuf := if sent = [] then ['+'] else sent
  let n := if cl.myConnect then n.joinLocal sptr else n
  n.emit (.servButone cptr (lit "NICK " ++ cl.name ++ ' ' :: formatD (p.hopcount + 1) ++
    ' ' :: formatTime p.tsinfo ++ ' ' :: ubuf ++ ' ' :: cl.username ++ ' ' :: cl.host ++
    ' ' :: cl.userServer ++ lit " :" ++ p.info))

/-- `SetClient`, and the counts that a user of this server changes before. -/
def setRegistered (n : Network) (sptr : ClientId) (username server : CStr) : Network :=
  let cl := n.client sptr
  let m := Function.update (n.peer sptr).umodes .invisible true
  let n :=
    if cl.myConnect then
      let n := n.setPeer sptr { n.peer sptr with umodes := m }
      n.setCount { n.count with invisi := n.count.invisi + 1, local_ := n.count.local_ + 1 }
    else n
  { n with toServer := n.toServer.edit (·.setClient sptr { cl with
    username := strncpyIrc username userLen
    status := .client
    user := true
    userServer := server
    anOper := (n.peer sptr).umodes.isAnOper }) }

def seatUser (n : Network) (sptr servptr : ClientId) : Network :=
  let n := n.setPeer sptr { n.peer sptr with servptr := some servptr }
  let n := n.addToLlist sptr servptr
  n.edit fun t => { t with countTotal := t.countTotal + 1 }

def placeUser (n : Network) (cptr sptr : ClientId) (username server : CStr) : Network :=
  let n := n.setRegistered sptr username server
  let name := n.nameOf sptr
  match n.hashFindServer server with
  | none =>
    let n := n.sendLine cptr (n.killLine name (lit "Ghosted, " ++ server ++ lit " doesn't exist"))
    n.exitClient n.me sptr n.me true (lit "Ghost")
  | some servptr =>
    let n := n.seatUser sptr servptr
    -- a server may name its own side of the network only
    let from_ := (n.client servptr).from_
    if !(n.client sptr).myConnect ∧ (n.client cptr).isServer ∧ from_ ≠ (n.client sptr).from_ then
      let n := n.sendLine cptr (n.killLine name (server ++ lit " != " ++ n.nameOf from_ ++
        '[' :: (n.client from_).host ++ lit "] USER from wrong direction"))
      n.exitClient sptr sptr n.me true (lit "USER server wrong direction")
    else n.introduceUser cptr sptr

def registerUser (n : Network) (cptr sptr : ClientId) (username server : CStr)
    (terms : UserTerms) : Network :=
  if (n.client sptr).myConnect then
    match terms.outcome with
    | .refused => n.exitClient cptr sptr n.me false terms.reason
    | .held => n
    | .accepted => n.placeUser cptr sptr terms.username server
  else n.placeUser cptr sptr username server

def doUser (n : Network) (cptr sptr : ClientId) (username host server realname : CStr)
    (terms : UserTerms) : Network :=
  let info := strncpyIrc realname realLen
  if !(n.client sptr).myConnect then
    let n := { n with toServer := n.toServer.edit (·.setClient sptr
      { n.client sptr with host := strncpyIrc host hostLen }) }
    let n := n.setPeer sptr { n.peer sptr with info := info }
    n.registerUser cptr sptr username server terms
  else if (n.client sptr).status ≠ .unknown then
    n.replyLine sptr (lit "462") [n.nameOf sptr] (lit " :You may not reregister")
  else
    let n := n.setPeer sptr { n.peer sptr with info := info }
    if n.nameOf sptr ≠ [] then n.registerUser cptr sptr username n.meName terms
    else { n with toServer := n.toServer.edit (·.setClient sptr
      { n.client sptr with username := strncpyIrc username userLen }) }

/-- `m_user`; what comes after an `@` of the user name is cut. -/
def mUser (n : Network) (cptr sptr : ClientId) (parv : List CStr) (terms : UserTerms) : Network :=
  let username := parv.getD 1 []
  let username := if 2 < parv.length then username.takeWhile (· ≠ '@') else username
  let host := parv.getD 2 []
  let server := parv.getD 3 []
  let realname := parv.getD 4 []
  let lacks := username = [] ∨ host = [] ∨ server = [] ∨ realname = []
  let n :=
    if lacks then n.replyLine sptr (lit "461") [if parv.getD 0 [] = [] then ['*'] else parv.getD 0 [],
      lit "USER"] (lit " :Not enough parameters")
    else n
  if lacks ∧ !(n.client cptr).isServer then n
  else
    let given (text default : CStr) : CStr := if text = [] then default else text
    n.doUser cptr sptr (given username (lit "<bad-boy>")) (given host (lit "<nohost>"))
      (given server (lit "<noserver>")) (given realname (lit "<bad-realname>")) terms

/-- The end of `nickkilldone`, where the client has a name. -/
def setNick (n : Network) (sptr : ClientId) (nick : CStr) : Network :=
  { n with toServer := n.toServer.edit fun t => { t.setClient sptr { t.client sptr with
      name := nick } with
    clients := sptr :: t.clients.erase sptr } }

def nickLetter (st : Counter × Umodes) (letter : Char) : Counter × Umodes :=
  match umodeOfLetter letter with
  | none => st
  | some flag =>
    ({ st.1 with
        invisi := if flag = .invisible then st.1.invisi + 1 else st.1.invisi
        oper := if flag = .oper then st.1.oper + 1 else st.1.oper },
      if sendUmodes flag then Function.update st.2 flag true else st.2)

def introduceNick (n : Network) (cptr : ClientId) (parv : List CStr) (newts : Int) (nick : CStr)
    (terms : UserTerms) : Network :=
  let u := n.nextClient
  let n := (n.makeClient (some cptr)).setNick u nick
  let (count, umodes) := (parv.getD 4 []).tail.foldl nickLetter (n.count, .none)
  let n := n.setCount count
  let n := n.setPeer u { n.peer u with
    hopcount := atoi (parv.getD 2 [])
    tsinfo := if newts = 0 then n.currentTime else newts
    umodes := umodes }
  n.doUser cptr u (parv.getD 5 []) (parv.getD 6 []) (parv.getD 7 []) (parv.getD 8 []) terms

def changeNick (n : Network) (cptr sptr : ClientId) (parv0 : CStr) (newts : Int) (nick : CStr)
    (terms : UserTerms) : Network :=
  let cl := n.client sptr
  let tsinfo := if newts = 0 then n.currentTime else newts
  let n :=
    if irccmp parv0 nick = .eq then n
    else n.setPeer sptr { n.peer sptr with tsinfo := tsinfo }
  if cl.myConnect ∧ cl.isClient ∧ terms.tooFast then
    n.replyLine sptr (lit "438") [cl.name, cl.name, nick]
      (lit " :Nick change too fast. Please wait 20 seconds.")
  else
    let n := n.emit (.commonChannels sptr (':' :: parv0 ++ lit " NICK :" ++ nick))
    let n :=
      if cl.user ∨ terms.made then
        (n.edit (·.addHistory sptr (some sptr))).emit (.servButone cptr
          (':' :: parv0 ++ lit " NICK " ++ nick ++ lit " :" ++ formatTime (n.peer sptr).tsinfo))
      else n
    n.setNick sptr nick

def firstNick (n : Network) (cptr sptr : ClientId) (nick : CStr) (terms : UserTerms) : Network :=
  let n := n.setPeer sptr { n.peer sptr with tsinfo := n.currentTime }
  if !terms.made then n.setNick sptr nick
  else
    let username := (n.client sptr).username
    let n := { n with toServer := n.toServer.edit (·.setClient sptr
      { n.client sptr with name := nick }) }
    let n' := n.registerUser cptr sptr username n.meName terms
    if terms.outcome = .refused then n' else n'.setNick sptr nick

def nickkilldone (n : Network) (cptr sptr : ClientId) (parv : List CStr) (newts : Int)
    (nick : CStr) (terms : UserTerms) : Network :=
  if (n.client sptr).isServer then n.introduceNick cptr parv newts nick terms
  else if (n.client sptr).name ≠ [] then
    n.changeNick cptr sptr (parv.getD 0 []) newts nick terms
  else n.firstNick cptr sptr nick terms

/-- A client as the rules on collisions read it; `made` is its `struct User`. -/
def named (n : Network) (u : ClientId) (made : Bool) : NamedClient where
  name := n.nameOf u
  username := (n.client u).username
  host := (n.client u).host
  status := (n.client u).status
  localFlag := (n.client u).localFlag
  from_ := (n.client u).from_
  user := (n.client u).user || made
  tsinfo := (n.peer u).tsinfo
  firsttime := (n.peer u).firsttime

def collide (n : Network) (cptr sptr acptr : ClientId) (parv : List CStr) (newts : Int)
    (fromTs : Bool) (nick : CStr) (terms : UserTerms) : Network :=
  let name := n.nameOf acptr
  let other := n.nameOf (n.client acptr).from_
  let link := n.nameOf cptr
  let old := n.killLine (n.nameOf sptr) (other ++ '(' :: name ++ lit ") <- " ++ link)
  let killed (n : Network) : Network :=
    n.replyLine acptr (lit "436") [name, name] (lit " :Nickname collision KILL")
  match ClientNames.nickCollision (n.named acptr terms.otherMade) (n.named sptr terms.made)
      (n.named cptr false) newts fromTs parv with
  | .ignore =>
    if (n.client cptr).isServer then n
    else n.replyLine sptr (lit "433") [if parv.getD 0 [] = [] then ['*'] else parv.getD 0 [], nick]
      (lit " :Nickname is already in use.")
  | .killOld =>
    if (n.client acptr).status = .unknown ∧ fromTs ∧ !(n.named acptr terms.otherMade).user then
      let path := other ++ lit "(NOUSER) <- " ++ parv.getD 1 [] ++ '!' :: parv.getD 5 [] ++
        '@' :: parv.getD 6 []
      let text := n.killLine name path ++ lit "(TS:" ++ link ++ [')']
      (n.emit (.servButone n.me text)).exitClient cptr acptr n.me true
        (lit "Got TS NICK before Non-TS USER")
    else
      let n := (killed n).emit (.servButone n.me (n.killLine name (other ++ lit " <- " ++ link)))
      n.exitClient cptr acptr n.me true (lit "Nick collision")
  | .killNew =>
    let sameuser : Bool := irccmp (n.client acptr).username (n.client sptr).username == .eq &&
      irccmp (n.client acptr).host (n.client sptr).host == .eq
    (n.emit (.servButone cptr old)).exitClient cptr sptr n.me true
      (if sameuser then lit "Nick collision(old)" else lit "Nick collision(new)")
  | .killBoth =>
    let n := (killed n).emit (.servButone n.me old)
    let n := n.emit (.servButone n.me
      (n.killLine name (other ++ lit " <- " ++ link ++ '(' :: n.nameOf sptr ++ [')'])))
    let n := n.exitClient n.me acptr n.me true (lit "Nick collision(new)")
    n.exitClient cptr sptr n.me true (lit "Nick collision(old)")
  | .replace =>
    if (n.client acptr).status = .unknown ∧ (n.client acptr).myConnect then
      let n := n.exitClient n.me acptr n.me false (lit "Overridden")
      n.nickkilldone cptr sptr parv newts nick terms
    else
      let n := (killed n).emit (.servButone sptr (n.killLine name (other ++ lit " <- " ++ link)))
      let n := n.exitClient cptr acptr n.me true (lit "Nick collision")
      n.nickkilldone cptr sptr parv newts nick terms

def takeNick (n : Network) (cptr sptr : ClientId) (parv : List CStr) (newts : Int)
    (fromTs : Bool) (nick : CStr) (terms : UserTerms) : Network :=
  match n.hashFindServer nick with
  | some acptr =>
    if (n.client sptr).myConnect then
      n.replyLine sptr (lit "433") [if parv.getD 0 [] = [] then ['*'] else parv.getD 0 [], nick]
        (lit " :Nickname is already in use.")
    else
      let n := n.sendLine cptr (n.killLine (n.nameOf sptr)
        (n.nameOf (n.client acptr).from_ ++ lit " <- " ++ n.nameOf cptr))
      n.exitClient cptr sptr n.me true (lit "Nick/Server collision")
  | none =>
    match n.findClient nick with
    | none => n.nickkilldone cptr sptr parv newts nick terms
    | some acptr =>
      if acptr = sptr then
        if n.nameOf acptr ≠ nick then n.nickkilldone cptr sptr parv newts nick terms else n
      else n.collide cptr sptr acptr parv newts fromTs nick terms

def badNick (n : Network) (cptr sptr : ClientId) (parv0 parv1 nick : CStr) : Network :=
  let n := n.replyLine sptr (lit "432") [if parv0 = [] then ['*'] else parv0, parv1]
    (lit " :Erroneus Nickname")
  if !(n.client cptr).isServer then n
  else
    let n := n.sendLine cptr
      (n.killLine parv1 (parv1 ++ lit " <- " ++ nick ++ '[' :: n.nameOf cptr ++ [']']))
    if sptr = cptr then n
    else
      let at_ := if (n.client sptr).user then (n.client sptr).userServer else n.nameOf cptr
      let n := n.emit (.servButone cptr (n.killLine parv0 (n.nameOf cptr ++ lit " <- " ++ parv0 ++
        '!' :: (n.client sptr).username ++ '@' :: at_)))
      n.exitClient cptr sptr n.me true (lit "BadNick")

def mNick (n : Network) (cptr sptr : ClientId) (parv : List CStr) (terms : UserTerms) : Network :=
  let parv0 := parv.getD 0 []
  if parv.length < 2 then
    n.replyLine sptr (lit "431") [parv0] (lit " :No nickname given")
  else
    let (newts, parc) := ClientNames.nickTs (n.named sptr false) (n.named cptr false) parv
    let host := parv.getD 6 []
    if (n.client sptr).isServer ∧ parc < 9 then n
    else if 7 ≤ parc ∧ '.' ∉ host ∧ ':' ∉ host then n
    else
      let parv1 := parv.getD 1 []
      let parv1 := if (n.client sptr).myConnect then parv1.takeWhile (· ≠ '~') else parv1
      let nick := ClientNames.cleanNickName (strncpyIrc parv1 nickLen)
      if nick = [] ∨ (n.client cptr).isServer ∧ nick ≠ parv1 then
        n.badNick cptr sptr parv0 parv1 nick
      else if (n.client sptr).myConnect ∧ !(n.client sptr).isServer ∧
          !(n.peer sptr).umodes.isAnOper ∧ terms.quarantined then
        n.replyLine sptr (lit "432") [parv0, parv1] (lit " :Erroneus Nickname")
      else n.takeNick cptr sptr parv newts (6 < parc) nick terms

end Network

end Ircd
