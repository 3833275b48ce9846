import Ircd.Server.Burst

/-! `m_server` and `server_estab`: a new server behind a link, and a connection that
becomes a link.

What the configuration holds on a name, and the password and `CAP_ZIP` of the connection,
come in as one record. PASS and CAPAB set the rest of what SERVER asks for.
-/

set_option autoImplicit false

namespace Ircd

structure NConf where
  passwd : CStr
  user : CStr
  port : Int
  deriving DecidableEq, Repr

structure CConf where
  passwd : CStr
  zipLink : Bool
  deriving DecidableEq, Repr

structure Admission where
  /-- `find_conf_by_name` has an N-line for the name. -/
  nLine : Bool
  autoconn : Bool
  /-- The ports of the L-line and of the H-line that the link has for the name. -/
  leaf : Option Int
  hub : Option Int
  /-- What `check_server` returns. -/
  checked : Bool
  /-- The lines that `server_estab` finds. -/
  nConf : Option NConf
  cConf : Option CConf
  /-- The password that the connection sent. -/
  passwd : CStr
  /-- Whether the server was compiled as a `HUB`. -/
  isHub : Bool
  capZip : Bool
  /-- `zip_init` did not fail. -/
  zipInit : Bool
  deriving DecidableEq, Repr

def serverParams (parv : List CStr) : Int × CStr :=
  let second := parv.getD 2 []
  let third := parv.getD 3 []
  if 3 < parv.length ∧ atoi second ≠ 0 then (atoi second, strncpyIrc third realLen)
  else if 2 < parv.length then
    let info := strncpyIrc second realLen
    if 3 < parv.length ∧ info.length < realLen - 2 then
      (0, info ++ ' ' :: third.take (realLen - info.length - 2))
    else (0, info)
  else (0, [])

namespace Network

/-- `Count.server++`. -/
def countUp (n : Network) : Network := n.edit fun t => { t with countServer := t.countServer + 1 }

/-- The new link as the tables show it: `SetServer` up to `cptr->serv->nline`. -/
def linkServer (n : Network) (cptr : ClientId) (nline : Int) : Network :=
  let n := { n with
    toServer := n.toServer.edit (·.addClient cptr { n.client cptr with status := .server }) }
  let n := n.setPeer cptr { n.peer cptr with servptr := some n.me }
  let n := n.addToLlist cptr n.me
  let n := n.makeServer cptr
  match (n.peer cptr).serv with
  | none => n
  | some sv => n.setServ cptr { sv with up := n.meName, nline := some nline }

def announceLink (cptr : ClientId) : List ClientId → Network → Network
  | [], n => n
  | acptr :: rest, n =>
    let hidden : Bool := match (n.peer acptr).serv.bind Serv.nline with
      | some port => matchMask (myNameForLink n.meName port) (n.nameOf cptr)
      | none => false
    if acptr = cptr ∨ hidden then announceLink cptr rest n
    else
      announceLink cptr rest (n.sendLine acptr
        (':' :: n.meName ++ lit " SERVER " ++ n.nameOf cptr ++ lit " 2 :" ++ (n.peer cptr).info))

def sendBurst (n : Network) (cptr : ClientId) (lines : List BurstLine) : Network :=
  lines.foldl (fun n line => n.sendLine cptr line.text) n

/-- The last part of `server_estab`, once nothing refuses the link. -/
def establish (n : Network) (cptr : ClientId) (nline : Int) : Network :=
  let n := n.sendLine cptr (lit "SVINFO 5 3 0 :" ++ formatTime n.currentTime)
  let n := (n.linkServer cptr nline).countUp
  let n := announceLink cptr n.servCptrList n
  let (n, lines) := n.burst cptr nline
  let n := n.sendBurst cptr lines
  n.sendLine cptr (lit "PING :" ++ n.meName)

def refuse (n : Network) (cptr : ClientId) (comment : CStr) : Network :=
  n.exitClient cptr cptr cptr false comment

/-- `m_pass`; the password comes in with the SERVER. -/
def mPass (n : Network) (cptr sptr : ClientId) (parv : List CStr) : Network :=
  let status := (n.client cptr).status
  if parv.getD 1 [] = [] then
    n.sendLine cptr (':' :: n.meName ++ lit " 461 " ++ parv.getD 0 [] ++
      lit " PASS :Not enough parameters")
  else if !(n.client sptr).myConnect ∨ status ≠ .unknown ∧ status ≠ .handshake then
    n.sendLine cptr (':' :: n.meName ++ lit " 462 " ++ parv.getD 0 [] ++
      lit " :You may not reregister")
  else if 2 < parv.length ∧ irccmp (parv.getD 2 []) (lit "TS") = .eq ∧
      (n.peer cptr).tsinfo = 0 then
    n.setPeer cptr { n.peer cptr with tsinfo := tsDoests }
  else n

/-- `m_capab`, with the capabilities that the network and the channels read. -/
def mCapab (n : Network) (cptr : ClientId) (parv : List CStr) : Network :=
  let cl := n.client cptr
  if cl.status ≠ .unknown ∧ cl.status ≠ .handshake ∨ parv.length < 2 then n
  else if (n.peer cptr).capCap then n.refuse cptr (lit "CAPAB received twice")
  else
    let caps := tokens (· == ' ') (parv.getD 1 [])
    let n := n.edit (·.setClient cptr { cl with
      capEx := caps.contains (lit "EX")
      capIe := caps.contains (lit "IE") })
    n.setPeer cptr { n.peer cptr with capCap := true, capQs := caps.contains (lit "QS") }

def answerServer (n : Network) (cptr : ClientId) (nConf : NConf) (cConf : CConf) : Network :=
  let n := if cConf.passwd = [] then n
    else n.sendLine cptr (lit "PASS " ++ cConf.passwd ++ lit " :TS")
  n.sendLine cptr (lit "SERVER " ++ myNameForLink n.meName nConf.port ++ lit " 1 :" ++
    if (n.peer n.me).info = [] then lit "IRCers United" else (n.peer n.me).info)

def serverEstab (n : Network) (cptr : ClientId) (adm : Admission) : Network :=
  match adm.nConf, adm.cConf with
  | none, _ => n.refuse cptr (lit "No N line for server")
  | some _, none => n.refuse cptr (lit "No C line for server")
  | some nConf, some cConf =>
    if nConf.passwd ≠ [] ∧ nConf.passwd ≠ adm.passwd then n.refuse cptr (lit "Bad Password")
    else if !adm.isHub ∧ n.servCptrList ≠ [] then
      (n.sendLine cptr (lit "ERROR :I'm a leaf not a hub")).refuse cptr (lit "I'm a leaf")
    else if (n.client cptr).status ≠ .unknown ∧ !matchMask nConf.user (n.client cptr).username then
      (n.sendLine cptr (lit "ERROR :No Username Match")).refuse cptr (lit "Bad User")
    else
      let n := if (n.client cptr).status = .unknown then n.answerServer cptr nConf cConf else n
      if adm.capZip ∧ cConf.zipLink ∧ !adm.zipInit then
        n.exitClient cptr cptr n.me false (lit "zip_init() failed")
      else n.establish cptr nConf.port

/-- The other links are told of a server behind `cptr`. -/
def relayServer (cptr acptr : ClientId) (parv0 : CStr) : List ClientId → Network → Network
  | [], n => n
  | bcptr :: rest, n =>
    if bcptr = cptr then relayServer cptr acptr parv0 rest n
    else
      match (n.peer bcptr).serv.bind Serv.nline with
      | none => n.refuse cptr (lit "Lost N line")
      | some port =>
        if matchMask (myNameForLink n.meName port) (n.nameOf acptr) then
          relayServer cptr acptr parv0 rest n
        else
          relayServer cptr acptr parv0 rest (n.sendLine bcptr
            (':' :: parv0 ++ lit " SERVER " ++ n.nameOf acptr ++
              ' ' :: formatD ((n.peer acptr).hopcount + 1) ++ lit " :" ++ (n.peer acptr).info))

/-- The record of a server behind a link: `make_client` up to `add_client_to_llist`. -/
def addRemoteServer (n : Network) (cptr sptr : ClientId) (parv0 host info : CStr) (hop : Int) :
    Network :=
  let acptr := n.nextClient
  let n := (n.makeClient (some cptr)).makeServer acptr
  let n := n.setPeer acptr { n.peer acptr with
    hopcount := hop
    info := strncpyIrc info realLen
    serv := (n.peer acptr).serv.map fun sv => { sv with up := parv0 }
    servptr := some sptr }
  let n := { n with toServer := n.toServer.edit (·.addClient acptr { n.client acptr with
    name := strncpyIrc host hostLen
    status := .server }) }
  n.addToLlist acptr sptr

def introduceServer (n : Network) (cptr sptr : ClientId) (parv0 host info : CStr) (hop : Int)
    (adm : Admission) : Network :=
  if info = [] then n.sendLine cptr (lit "ERROR :No server info specified for " ++ host)
  else
    match adm.leaf with
    | some port =>
      if port = 0 ∨ port < hop then
        (n.sendLine cptr (lit "ERROR :Leaf-only link, sorry.")).refuse cptr (lit "Leaf Only")
      else behindHub
    | none => behindHub
where
  behindHub : Network :=
    match adm.hub with
    | some port =>
      if port ≠ 0 ∧ port < hop then n.refuse cptr (lit "Too many servers")
      else
        let acptr := n.nextClient
        let n := (n.addRemoteServer cptr sptr parv0 host info hop).countUp
        relayServer cptr acptr parv0 n.servCptrList n
    | none => n.refuse cptr (lit "Too many servers")

def becomeServer (n : Network) (cptr : ClientId) (host info : CStr) (hop : Int)
    (adm : Admission) : Network :=
  if (n.client cptr).status ≠ .unknown ∧ (n.client cptr).status ≠ .handshake then n
  else if (n.peer cptr).tsinfo ≠ tsDoests then n.refuse cptr (lit "Non-TS server")
  else
    let n := { n with
      toServer := n.toServer.edit (·.setClient cptr
        { n.client cptr with name := strncpyIrc host hostLen }) }
    let n := n.setPeer cptr { n.peer cptr with
      info := strncpyIrc (if info = [] then n.meName else info) realLen
      hopcount := hop }
    if adm.checked then n.serverEstab cptr adm
    else n.refuse cptr (lit "No C/N conf lines")

/-- A server of that name is known: the younger of the two links goes. `false` where that
is `cptr` itself. -/
def dropYounger (n : Network) (cptr : ClientId) (host : CStr) : Network × Bool :=
  match n.hashFindServer host with
  | none => (n, true)
  | some acptr =>
    let from_ := (n.client acptr).from_
    let bcptr := if (n.peer from_).firsttime < (n.peer cptr).firsttime then cptr else from_
    let n := n.sendLine bcptr (lit "ERROR :Server " ++ host ++ lit " already exists")
    (n.exitClient bcptr bcptr n.me false (lit "Server Exists"), bcptr ≠ cptr)

def mServer (n : Network) (cptr sptr : ClientId) (parv : List CStr) (adm : Admission) : Network :=
  if parv.length < 2 ∨ parv.getD 1 [] = [] then n.sendLine cptr (lit "ERROR :No servername")
  else
    let parv0 := parv.getD 0 []
    let (hop, info) := serverParams parv
    let host := (parv.getD 1 []).take hostLen
    if (n.client sptr).isPerson then
      if (n.client cptr).isServer then n
      else n.sendLine sptr
        (':' :: n.meName ++ lit " 421 " ++ parv0 ++ lit " SERVER :Unknown command")
    else if '.' ∉ host ∨ !host.all isServChar then n.refuse cptr (lit "Bogus server name")
    else if !(n.client cptr).isServer ∧ !adm.nLine then n.refuse cptr (lit "NO N line")
    else if (n.client cptr).myConnect ∧ !adm.autoconn then n.refuse cptr (lit "AUTOCONNS off")
    else
      let (n, goesOn) := n.dropYounger cptr host
      if !goesOn then n
      else
        match n.findClient host with
        | some acptr =>
          if acptr ≠ cptr then
            (n.sendLine cptr (lit "ERROR :Nickname " ++ host ++ lit " already exists!")).refuse
              cptr (lit "Nick as Server")
          else newServer n parv0 host info hop
        | none => newServer n parv0 host info hop
where
  newServer (n : Network) (parv0 host info : CStr) (hop : Int) : Network :=
    if (n.client cptr).isServer then n.introduceServer cptr sptr parv0 host info hop adm
    else n.becomeServer cptr host info hop adm

end Network

end Ircd
