import Ircd.Server.Network
import Ircd.Channel.Sjoin

/-! The connect burst of `server_estab`: the lines that tell a new link what we know.

Servers go first, in the order of the client list. Then come the channels, each after
those of its members that have not been sent yet, and last the clients on no channel;
`nicksent` keeps the mark of the burst that sent a client.
-/

set_option autoImplicit false

namespace Ircd

/-- A line of the burst, with the clients that it introduces. -/
inductive BurstLine where
  | server (u : ClientId) (text : CStr)
  | nick (u : ClientId) (text : CStr)
  | sjoin (c : ChanId) (us : List ClientId) (text : CStr)
  | mode (c : ChanId) (text : CStr)
  deriving DecidableEq, Repr

def BurstLine.text : BurstLine → CStr
  | .server _ text => text
  | .nick _ text => text
  | .sjoin _ _ text => text
  | .mode _ text => text

def Channel.sjoinMembers (ch : Channel) : List Member :=
  match ch.members.find? (·.flags.chanop) with
  | some anop => anop :: ch.members.eraseP (·.flags.chanop)
  | none => ch.members

def sjoinName (nameOf : ClientId → CStr) (l : Member) : CStr :=
  (if l.flags.chanop then ['@'] else []) ++ (if l.flags.voice then ['+'] else []) ++
    nameOf l.cptr ++ [' ']

/-- The loop over the members: `buf` is the line so far, which names `us`. The check for
the last blank looks at the terminator, so the blank stays. -/
def sjoinLines (nameOf : ClientId → CStr) (c : ChanId) (header : CStr) :
    CStr → List ClientId → List Member → List BurstLine
  | buf, us, [] => if us = [] then [] else [.sjoin c us buf]
  | buf, us, l :: rest =>
    let buf := buf ++ sjoinName nameOf l
    let us := us ++ [l.cptr]
    if bufSize - 80 < buf.length then
      .sjoin c us buf :: sjoinLines nameOf c header header [] rest
    else sjoinLines nameOf c header buf us rest

/-- `send_mode_list` and the line that is left over at its end. -/
def modeListLines (start : CStr) (flag : Char) : CStr → CStr → Nat → List CStr → List CStr
  | modebuf, parabuf, _, [] =>
    if 1 < modebuf.length ∨ parabuf ≠ [] then [start ++ modebuf ++ ' ' :: parabuf] else []
  | modebuf, parabuf, count, name :: rest =>
    let fits := parabuf.length + name.length + 10 < modeBufLen
    let full := !decide fits && parabuf ≠ []
    let modebuf := if fits then modebuf ++ [flag] else modebuf
    let parabuf := if fits then parabuf ++ ' ' :: name else parabuf
    let count := if fits then count + 1 else count
    if full ∨ count = 3 then
      (start ++ modebuf ++ ' ' :: parabuf) ::
        (if count = 3 then modeListLines start flag ['+'] [] 0 rest
        else modeListLines start flag ['+', flag] name 0 rest)
    else modeListLines start flag modebuf parabuf count rest

namespace Tables

def sendChannelModes (t : Tables) (cptr : ClientId) (c : ChanId) : List BurstLine :=
  let ch := t.chan c
  if ch.chname.head? ≠ some '#' then []
  else
    let (modebuf, parabuf) := channelModes t cptr c
    let parabuf := if parabuf = [] then [] else parabuf ++ [' ']
    let start := ':' :: t.meName ++ lit " SJOIN " ++ formatTime ch.channelts ++ ' ' :: ch.chname
    let first := start ++ ' ' :: modebuf ++ ' ' :: parabuf ++ [':']
    let mode := ':' :: t.meName ++ lit " MODE " ++ ch.chname ++ [' ']
    let modes (flag : Char) (list : List Ban) : List BurstLine :=
      (modeListLines mode flag ['+'] [] 0 (list.map Ban.banstr)).map (.mode c)
    sjoinLines t.nameOf c (start ++ lit " 0 :") first [] ch.sjoinMembers ++
      modes 'b' ch.banlist ++
      (if !(t.client cptr).capEx then []
      else modes 'e' ch.exceptlist ++
        if !(t.client cptr).capIe then [] else modes 'I' ch.invexlist)

end Tables

namespace Network

/-- `for (acptr = &me; acptr; acptr = acptr->prev)`. -/
def fromMe (n : Network) : List ClientId :=
  n.globalClientList.reverse.dropWhile (· ≠ n.me)

def serverLine (n : Network) (u : ClientId) : CStr :=
  let up := match (n.peer u).serv with
    | some sv => sv.up
    | none => []
  ':' :: up ++ lit " SERVER " ++ n.nameOf u ++ ' ' :: formatD ((n.peer u).hopcount + 1) ++
    lit " :" ++ (n.peer u).info

def burstServers (n : Network) (cptr : ClientId) (nline : Int) : List BurstLine :=
  n.fromMe.filterMap fun acptr =>
    if (n.client acptr).from_ = cptr then none
    else if (n.client acptr).isServer then
      if matchMask (myNameForLink n.meName nline) (n.nameOf acptr) then none
      else some (.server acptr (n.serverLine acptr))
    else none

def sendnickTs (n : Network) (acptr : ClientId) : List BurstLine :=
  let cl := n.client acptr
  let p := n.peer acptr
  if cl.isPerson then
    let sent := umodeBuf cl.myClient .none p.umodes sendUmodes
    let ubuf := if sent = [] then ['+'] else sent
    [.nick acptr (lit "NICK " ++ cl.name ++ ' ' :: formatD (p.hopcount + 1) ++
      ' ' :: formatTime p.tsinfo ++ ' ' :: ubuf ++ ' ' :: cl.username ++ ' ' :: cl.host ++
      ' ' :: cl.userServer ++ lit " :" ++ p.info)]
  else []

def burstNick (cptr : ClientId) (st : Network × List BurstLine) (acptr : ClientId) :
    Network × List BurstLine :=
  let (n, lines) := st
  if (n.peer acptr).nicksent = n.nickissent then (n, lines)
  else
    let n := n.setPeer acptr { n.peer acptr with nicksent := n.nickissent }
    (n, if (n.client acptr).from_ ≠ cptr then lines ++ n.sendnickTs acptr else lines)

def burstChannel (cptr : ClientId) (st : Network × List BurstLine) (c : ChanId) :
    Network × List BurstLine :=
  let (n, lines) := (st.1.chan c).memberIds.foldl (burstNick cptr) st
  (n, lines ++ n.sendChannelModes cptr c)

/-- The whole burst to `cptr`, whose N-line has the port `nline`. -/
def burst (n : Network) (cptr : ClientId) (nline : Int) : Network × List BurstLine :=
  let servers := n.burstServers cptr nline
  let n := { n with nickissent := 3 - n.nickissent }
  let st := n.channel.foldl (burstChannel cptr) (n, servers)
  st.1.fromMe.foldl (burstNick cptr) st

end Network

end Ircd
