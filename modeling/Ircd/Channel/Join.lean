import Ircd.Channel.Store

/-! `m_join`: who may enter a channel, the two passes over the channel list and
`JOIN 0`.

An element of the list ends with `continue` or lets the loop go on with its
variables, so each stage of an element returns `Except`: the error carries the
variables of an element that is over.
-/

set_option autoImplicit false

namespace Ircd

def operSpamCountdown : Int := 5
def joinLeaveCountExpireTime : Int := 120

def isComma (c : Char) : Bool := c == ','

def isJoinZero (name : CStr) : Bool := name.head? == some '0' && atoi name == 0

def Client.userHost (cl : Client) : CStr := makeNickUserHost cl.name cl.username cl.host
def Client.userIp (cl : Client) : CStr := makeNickUserHost cl.name cl.username cl.ip

def Client.matchesList (cl : Client) (list : List Ban) : Bool :=
  list.any fun ban => matchMask ban.banstr cl.userHost || matchMask ban.banstr cl.userIp

inductive BanStatus where
  | clear
  | banned
  | exempt
  deriving DecidableEq, Repr

def isBanned (cl : Client) (ch : Channel) : BanStatus :=
  if !cl.isPerson then .clear
  else if cl.matchesList ch.banlist then
    if cl.matchesList ch.exceptlist then .exempt else .banned
  else .clear

def isInvex (cl : Client) (ch : Channel) : Bool := cl.isPerson && cl.matchesList ch.invexlist

/-- `can_join`: the reply that refuses, or `none` together with `flags`. -/
def canJoin (cl : Client) (ch : Channel) (c : ChanId) (key : Option CStr) (flags : MemberFlags) :
    Option Numeric × MemberFlags :=
  if ch.juped then (some .errUnavailResource, flags)
  else
    let status := isBanned cl ch
    if status = .banned then (some .errBannedFromChan, flags)
    else
      let flags := { flags with exception := flags.exception || status == .exempt }
      if ch.mode.mode .modeInviteOnly ∧ !isInvex cl ch ∧ c ∉ cl.invited then
        (some .errInviteOnlyChan, flags)
      else if ch.mode.key ≠ [] ∧ (key.getD [] = [] ∨ irccmp ch.mode.key (key.getD []) ≠ .eq) then
        (some .errBadChannelKey, flags)
      else if ch.mode.limit ≠ 0 ∧ ch.users ≥ ch.mode.limit then (some .errChannelIsFull, flags)
      else (none, flags)

namespace Server

def canJoin (s : Server) (sptr : ClientId) (c : ChanId) (key : Option CStr) (flags : MemberFlags) :
    Server × Option Numeric × MemberFlags :=
  let s := s.touch c
  let cl := s.client sptr
  let ch := s.chan c
  let s :=
    if ch.juped then
      s.emit (.opsSpy (lit "User " ++ cl.name ++ lit " (" ++ cl.username ++ '@' :: cl.host ++
        lit ") is attempting to join locally juped channel " ++ ch.chname))
    else s
  (s, Ircd.canJoin cl ch c key flags)

def checkStillSplit (s : Server) : Server :=
  if s.serverSplitTime + s.splitDelay < s.currentTime then
    if s.countServer ≥ s.splitNum ∧ s.gotServerPong ∧ s.countTotal ≥ s.splitUsers then
      let s := s.edit fun t => { t with serverWasSplit := false, coldStart := false }
      s.emit (.ops (lit "Net Rejoined, split-mode deactivated"))
    else
      s.edit fun t => { t with serverSplitTime := t.currentTime, serverWasSplit := true }
  else s

def editClient (s : Server) (u : ClientId) (f : Client → Client) : Server :=
  s.edit fun t => t.setClient u (f (t.client u))

def leaveAccounting (s : Server) (sptr : ClientId) : Server :=
  let cl := s.client sptr
  if s.spamNum ≠ 0 ∧ cl.joinLeaveCount ≥ s.spamNum then
    let s := s.emit (.opsBots (lit "User " ++ cl.name ++ lit " (" ++ cl.username ++ '@' :: cl.host ++
      lit ") is a possible spambot"))
    s.editClient sptr fun cl => { cl with operWarnCountDown := operSpamCountdown }
  else
    let delta := s.currentTime - cl.lastLeaveTime
    let count :=
      if delta > joinLeaveCountExpireTime then
        let decrement := delta / joinLeaveCountExpireTime
        if decrement > cl.joinLeaveCount then 0 else cl.joinLeaveCount - decrement
      else if s.currentTime - cl.lastJoinTime < s.spamTime then cl.joinLeaveCount + 1
      else cl.joinLeaveCount
    s.editClient sptr fun cl =>
      { cl with joinLeaveCount := count, lastLeaveTime := s.currentTime }

end Server

structure JoinList where
  srv : Server
  jbuf : CStr
  i : Nat

def jbufRoom (i : Nat) : Nat := ((bufSize - 1 - i : Int) % 2 ^ 64).toNat

def JoinList.append (st : JoinList) (name : CStr) : JoinList :=
  let jbuf := if st.jbuf ≠ [] then st.jbuf ++ [','] else st.jbuf
  { st with jbuf := jbuf ++ name.take (jbufRoom st.i), i := st.i + name.length + 1 }

def JoinList.element (st : JoinList) (sptr : ClientId) (parv0 name : CStr) : JoinList :=
  let cl := st.srv.client sptr
  if !checkChannelName name then
    { st with srv := st.srv.sendtoOne sptr .errBadChanName [parv0, name] }
  else if isLocalName name ∧ !cl.myConnect then st
  else if isJoinZero name then ({ st with jbuf := [] } : JoinList).append name
  else if !isChannelName name then
    if cl.myClient then { st with srv := st.srv.sendtoOne sptr .errNoSuchChannel [parv0, name] }
    else st
  else st.append name

def joinList (s : Server) (sptr : ClientId) (parv0 names : CStr) : JoinList :=
  (tokens isComma names).foldl (fun st name => st.element sptr parv0 name)
    { srv := s, jbuf := [], i := 0 }

/-- The variables of the second loop. `chptr` survives from one element to the
next; `returned` is set by a `return`. -/
structure JoinLoop where
  srv : Server
  chptr : Option ChanId
  flags : MemberFlags
  keys : List CStr
  successfulJoinCount : Nat
  returned : Bool

namespace JoinLoop

def send (st : JoinLoop) (sptr : ClientId) (num : Numeric) (args : List CStr) : JoinLoop :=
  { st with srv := st.srv.sendtoOne sptr num args }

def stop (st : JoinLoop) : JoinLoop := { st with returned := true }

/-- `if (successful_join_count) sptr->last_join_time = CurrentTime`. -/
def noteJoinTime (st : JoinLoop) (sptr : ClientId) : JoinLoop :=
  if st.successfulJoinCount ≠ 0 then
    { st with srv := st.srv.editClient sptr fun cl =>
        { cl with lastJoinTime := st.srv.currentTime } }
  else st

def failedJoin (st : JoinLoop) : JoinLoop :=
  { st with successfulJoinCount := st.successfulJoinCount - 1 }

/-- The loop that leaves every channel of the client; `chptr` ends as the last one. -/
def leaveAll (sptr : ClientId) (parv0 : CStr) : List ChanId → JoinLoop → JoinLoop
  | [], st => st
  | c :: rest, st =>
    let srv := st.srv.sendtoChannelButserv c sptr
      (':' :: parv0 ++ lit " PART " ++ (st.srv.chan c).chname ++ lit " :")
    leaveAll sptr parv0 rest { st with srv := srv.removeUserFromChannel sptr c, chptr := some c }

def joinZero (st : JoinLoop) (cptr sptr : ClientId) (parv0 : CStr) : JoinLoop :=
  if (st.srv.client sptr).channel = [] then st
  else
    let st := leaveAll sptr parv0 (st.srv.client sptr).channel st
    let cl := st.srv.client sptr
    let srv := if cl.myConnect ∧ !cl.isAnOper then st.srv.leaveAccounting sptr else st.srv
    { st with srv := srv.sendtoMatchServs none cptr (':' :: parv0 ++ lit " JOIN 0") }

def splitRefuses (s : Server) (sptr : ClientId) (name : CStr) : Bool :=
  !(s.client sptr).isAnOper && s.serverWasSplit && (s.client sptr).myClient && !isLocalName name

/-- Whether the channel of a local client exists is decided by the name as it was given. -/
def localLookup (st : JoinLoop) (sptr : ClientId) (parv0 name : CStr) : Except JoinLoop JoinLoop :=
  match st.srv.hashFindChannel name with
  | some c => .ok { st with chptr := some c, flags := MemberFlags.none }
  | none =>
    if splitRefuses st.srv sptr name then
      .error (({ st with chptr := none } : JoinLoop).send sptr .errUnavailResource [parv0, name])
    else .ok { st with chptr := none, flags := { MemberFlags.none with chanop := true } }

def tooManyChannels (cl : Client) : Bool :=
  cl.joined ≥ maxChannelsPerUser && (!cl.isAnOper || cl.joined ≥ maxChannelsPerUser * 3)

def isSpambot (s : Server) (sptr : ClientId) : Bool :=
  s.spamNum ≠ 0 && (s.client sptr).joinLeaveCount ≥ s.spamNum

def warnSpambot (s : Server) (sptr : ClientId) (name : CStr) : Server :=
  let cl := s.client sptr
  let count := if cl.operWarnCountDown > 0 then cl.operWarnCountDown - 1 else 0
  if count = 0 then
    (s.emit (.opsBots (lit "User " ++ cl.name ++ lit " (" ++ cl.username ++ '@' :: cl.host ++
      lit ") trying to join " ++ name ++ lit " is a possible spambot"))).editClient sptr
        fun cl => { cl with operWarnCountDown := operSpamCountdown }
  else s.editClient sptr fun cl => { cl with operWarnCountDown := count }

def countJoin (st : JoinLoop) : JoinLoop :=
  if st.flags = MemberFlags.none then
    { st with successfulJoinCount := st.successfulJoinCount + 1 }
  else st

def localLimits (st : JoinLoop) (sptr : ClientId) (parv0 name : CStr) : Except JoinLoop JoinLoop :=
  if tooManyChannels (st.srv.client sptr) then
    .error (((st.send sptr .errTooManyChannels [parv0, name]).noteJoinTime sptr).stop)
  else if isSpambot st.srv sptr then
    .error ({ st.countJoin with srv := warnSpambot st.srv sptr name } : JoinLoop).stop
  else .ok st.countJoin

def remoteLookup (st : JoinLoop) (sptr : ClientId) (name : CStr) : JoinLoop :=
  if (st.srv.hashFindChannel name).isNone then
    { st with srv := st.srv.emit (.tsWarn (lit "User on " ++ (st.srv.client sptr).userServer ++
        lit " remotely JOINing new channel")) }
  else st

/-- `if (!chptr) chptr = get_channel(...)`, with the name as it is left. -/
def ensureChannel (st : JoinLoop) (sptr : ClientId) (name : CStr) : JoinLoop × CStr :=
  match st.chptr with
  | some _ => (st, name)
  | none =>
    let (srv, chptr) := st.srv.getChannel sptr name true
    ({ st with srv := srv, chptr := chptr }, st.srv.channelNameFor sptr name)

def checkMember (st : JoinLoop) (sptr : ClientId) (parv0 name : CStr) :
    Except JoinLoop (JoinLoop × ChanId) :=
  match st.chptr with
  | none => .error (st.send sptr .errUnavailResource [parv0, name]).failedJoin
  | some c => if st.srv.isMember sptr c then .error st else .ok (st, c)

/-- The variable `key`, a NULL once the keys have run out. -/
def key (st : JoinLoop) : Option CStr := st.keys.head?

def checkCanJoin (st : JoinLoop) (sptr : ClientId) (c : ChanId) (parv0 name : CStr) :
    Except JoinLoop JoinLoop :=
  if (st.srv.client sptr).myConnect then
    let (srv, refusal, flags) := st.srv.canJoin sptr c st.key st.flags
    let st := { st with srv := srv, flags := flags }
    match refusal with
    | some num => .error (st.send sptr num [parv0, name]).failedJoin
    | none => .ok st
  else .ok st

end JoinLoop

namespace Server

def announceJoin (s : Server) (cptr sptr : ClientId) (c : ChanId) (flags : MemberFlags)
    (parv0 name : CStr) : Server :=
  let cl := s.client sptr
  if cl.myClient ∧ flags.chanop then
    let s := s.setChan c { s.chan c with channelts := s.currentTime }
    s.sendtoMatchServs (some c) cptr (':' :: s.meName ++ lit " SJOIN " ++
      formatTime s.currentTime ++ ' ' :: name ++ lit " + :@" ++ parv0)
  else if cl.myClient then
    s.sendtoMatchServs (some c) cptr (':' :: s.meName ++ lit " SJOIN " ++
      formatTime (s.chan c).channelts ++ ' ' :: name ++ lit " + :" ++ parv0)
  else s.sendtoMatchServs (some c) cptr (':' :: parv0 ++ lit " JOIN :" ++ name)

/-- `+nt` on a channel that a local client has just opened. -/
def firstModes (s : Server) (sptr : ClientId) (c : ChanId) : Server :=
  let ch := s.chan c
  let s := s.setChan c { ch with mode := (ch.mode.set .modeTopicLimit).set .modeNoPrivMsgs }
  let text := ':' :: s.meName ++ lit " MODE " ++ ch.chname ++ lit " +nt"
  (s.sendtoChannelButserv c sptr text).sendtoMatchServs (some c) sptr text

def sendTopic (s : Server) (sptr : ClientId) (c : ChanId) (parv0 name : CStr) : Server :=
  let ch := s.chan c
  if ch.topic ≠ [] then
    (s.sendtoOne sptr .rplTopic [parv0, name, ch.topic]).sendtoOne sptr .rplTopicWhoTime
      [parv0, name, ch.topicNick, formatTime ch.topicTime]
  else s

def greet (s : Server) (cptr sptr : ClientId) (c : ChanId) (flags : MemberFlags)
    (parv0 name : CStr) : Server :=
  let s := s.announceJoin cptr sptr c flags parv0 name
  let s := s.sendtoChannelButserv c sptr (':' :: parv0 ++ lit " JOIN :" ++ name)
  if (s.client sptr).myClient then
    let s := if flags.chanop then s.firstModes sptr c else s
    let s := s.delInvite sptr c
    (s.sendTopic sptr c parv0 name).emit (.names sptr name)
  else s

def enterChannel (s : Server) (cptr sptr : ClientId) (c : ChanId) (flags : MemberFlags)
    (parv0 name : CStr) : Server :=
  (s.addUserToChannel c sptr flags).greet cptr sptr c flags parv0 name

end Server

namespace JoinLoop

def lookup (st : JoinLoop) (sptr : ClientId) (parv0 name : CStr) : Except JoinLoop JoinLoop :=
  if (st.srv.client sptr).myConnect then
    (st.localLookup sptr parv0 name).bind fun st => st.localLimits sptr parv0 name
  else .ok (st.remoteLookup sptr name)

def joinBlock (st : JoinLoop) (cptr sptr : ClientId) (parv0 name : CStr) :
    Except JoinLoop JoinLoop := do
  let (st, c) ← st.checkMember sptr parv0 name
  let st ← st.checkCanJoin sptr c parv0 name
  .ok { st with srv := st.srv.enterChannel cptr sptr c st.flags parv0 name }

def joinChannel (st : JoinLoop) (cptr sptr : ClientId) (parv0 name : CStr) :
    Except JoinLoop JoinLoop :=
  let (st, name) := st.ensureChannel sptr name
  st.joinBlock cptr sptr parv0 name

def body (st : JoinLoop) (cptr sptr : ClientId) (parv0 name : CStr) : Except JoinLoop JoinLoop :=
  (st.lookup sptr parv0 name).bind fun st => st.joinChannel cptr sptr parv0 name

def ended : Except JoinLoop JoinLoop → JoinLoop
  | .error st => st
  | .ok st => st

def element (st : JoinLoop) (cptr sptr : ClientId) (parv0 name : CStr) : JoinLoop :=
  if st.returned then st
  else
    let st :=
      if isJoinZero name then st.joinZero cptr sptr parv0 else ended (st.body cptr sptr parv0 name)
    { st with keys := st.keys.tail }

def elements (st : JoinLoop) (cptr sptr : ClientId) (parv0 : CStr) (names : List CStr) : JoinLoop :=
  names.foldl (fun st name => st.element cptr sptr parv0 name) st

end JoinLoop

def mJoin (s : Server) (cptr sptr : ClientId) (parv : List CStr) : Server :=
  let parv0 := parv.getD 0 []
  if !(s.client sptr).user then s
  else if parv.length < 2 ∨ parv.getD 1 [] = [] then
    s.sendtoOne sptr .errNeedMoreParams [parv0, lit "JOIN"]
  else
    let s := if s.serverWasSplit then s.checkStillSplit else s
    let list := joinList s sptr parv0 (parv.getD 1 [])
    let st : JoinLoop :=
      { srv := list.srv
        chptr := none
        flags := MemberFlags.none
        keys := if parv.length > 2 then tokens isComma (parv.getD 2 []) else []
        successfulJoinCount := 0
        returned := false }
    let st := st.elements cptr sptr parv0 (tokens isComma list.jbuf)
    if st.returned then st.srv
    else if (st.srv.client sptr).myConnect then (st.noteJoinTime sptr).srv
    else st.srv

end Ircd
