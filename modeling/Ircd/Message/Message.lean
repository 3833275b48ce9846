import Ircd.Channel.Join
import Ircd.Message.Flud

/-! `m_message.c`: `PRIVMSG` and `NOTICE` to a list of targets.

The loop carries one variable from target to target, `type`; `Flow` says whether a
target goes on to the next one or makes the whole command return.
-/

set_option autoImplicit false

namespace Ircd

def maxJoinLeaveCount : Int := 25

/-- What is the same for all targets of one command; `text` is `parv[2]`, empty
where it is missing. -/
structure MessageCall where
  cptr : ClientId
  sptr : ClientId
  parv0 : CStr
  text : CStr
  notice : Bool

def MessageCall.cmd (call : MessageCall) : CStr :=
  if call.notice then lit "NOTICE" else lit "PRIVMSG"

def MessageCall.line (call : MessageCall) (source nick : CStr) : CStr :=
  lit ":" ++ source ++ lit " " ++ call.cmd ++ lit " " ++ nick ++ lit " :" ++ call.text

def canonizeFrom (kept : List CStr) : List CStr → List CStr
  | [] => []
  | s :: rest =>
    if kept.any fun t => irccmp s t == .eq then canonizeFrom kept rest
    else s :: canonizeFrom (kept ++ [s]) rest

def distinctTargets (list : CStr) : List CStr := canonizeFrom [] (tokens isComma list)

def canonize (buffer : CStr) : CStr := [','].intercalate (distinctTargets buffer)

/-- The scan of `check_for_ctcp`; `action` while it is behind `\001ACTION`. -/
def ctcpScan (action : Bool) : CStr → Bool
  | [] => false
  | c :: rest =>
    if c = '\x01' then
      if action then ctcpScan false rest
      else if irccmp (rest.take 6) (lit "ACTION") = .eq then ctcpScan true rest
      else true
    else ctcpScan action rest

def checkForCtcp (str : CStr) : Bool := ctcpScan false str

def Tables.canSend (t : Tables) (cptr : ClientId) (chptr : ChanId) : Bool :=
  let ch := t.chan chptr
  if (t.client cptr).myClient && ch.juped then false
  else if ch.mode.mode .modeModerated && !(ch.isChanOp cptr || ch.hasVoice cptr) then false
  else !(ch.mode.mode .modeNoPrivMsgs && (ch.findUserLink cptr).isNone)

def Tables.findPerson (t : Tables) (name : CStr) : Option ClientId :=
  (t.findClient name).filter fun u => (t.client u).isPerson

/-- The loop of `hash_find_masked_server`: `*` and the rest from each dot on. -/
def Tables.maskedServer (t : Tables) : CStr → Option ClientId
  | [] => none
  | c :: rest =>
    if c = '.' then
      match t.findClient ('*' :: c :: rest) with
      | some server => some server
      | none => t.maskedServer rest
    else t.maskedServer rest

def Tables.findServer (t : Tables) (name : CStr) : Option ClientId :=
  let plain := t.clients.find? fun u =>
    ((t.client u).isServer || (t.client u).status == .me) && irccmp name (t.nameOf u) == .eq
  match plain with
  | some server => some server
  | none =>
    if name.head? = some '*' ∨ name.head? = some '.' then none
    else t.maskedServer (name.take hostLen)

/-- `find_userhost`: the last local client that matches, and how many do. -/
def Tables.findUserhost (t : Tables) (user : CStr) (host : Option CStr) : Option ClientId × Nat :=
  let hits := t.clients.filter fun u =>
    (t.client u).myClient && (host.all fun h => matchMask h (t.client u).host) &&
      irccmp (collapse user) (t.client u).username == .eq
  (hits.getLast?, hits.length)

inductive Flow where
  | next (type : MessageType)
  | stop (code : Int)
  deriving DecidableEq, Repr

namespace MessageState

/-- A numeric to the sender, which begins with `me.name` and `parv[0]`. -/
def reply (s : MessageState) (call : MessageCall) (num : MessageNumeric) (args : List CStr) :
    MessageState :=
  s.emit (.reply num (s.world.meName :: call.parv0 :: args))

def topLevel (nick : CStr) : Option CStr :=
  if '.' ∈ nick then some (nick.reverse.takeWhile (· != '.')).reverse else none

def sendOperSpecial (s : MessageState) (call : MessageCall) (nick : CStr) : MessageState :=
  let name := s.world.nameOf call.sptr
  let one := if (s.world.client call.cptr).isServer then some call.cptr else none
  match topLevel nick with
  | none => s.emit (.reply .errNoTopLevel [s.world.meName, name, nick])
  | some top =>
    if '*' ∈ top ∨ '?' ∈ top then s.emit (.reply .errWildTopLevel [s.world.meName, name, nick])
    else
      match nick with
      | '$' :: '$' :: mask => s.emit (.matchButone one mask .matchServer (call.line name nick))
      | '$' :: '#' :: mask => s.emit (.matchButone one mask .matchHost (call.line name nick))
      | '$' :: mask => s.emit (.matchButone one mask .matchServer (call.line name nick))
      | '#' :: mask => s.emit (.matchButone one mask .matchHost (call.line name nick))
      | _ => s

/-- The `FLUD` block of a message to a channel, whose verdict nobody reads. -/
def countFlud (s : MessageState) (call : MessageCall) (chptr : ChanId) : MessageState :=
  if !call.notice && checkForCtcp call.text then (s.checkForFlud call.sptr (.channel chptr)).1
  else s

def sendToChannel (s : MessageState) (call : MessageCall) (nick : CStr) (chptr : ChanId) :
    MessageState :=
  let s := s.countFlud call chptr
  if s.world.canSend call.sptr chptr then
    s.emit (.channelButone chptr call.cptr (call.line call.parv0 nick))
  else if !call.notice then s.reply call .errCannotSendToChan [nick]
  else s

/-- `type` and `nick` past the second prefix character. -/
def stripPrefix (type : MessageType) (nick : CStr) : MessageType × CStr :=
  match nick with
  | _ :: c :: rest => if c = '@' ∨ c = '+' then (.chanopVoice, '@' :: rest) else (type, nick)
  | _ => (type, nick)

def sendToType (s : MessageState) (call : MessageCall) (type : MessageType) (nick : CStr) :
    MessageState × Flow :=
  let (type, nick) := stripPrefix type nick
  if nick = [] then (s.reply call .errNoRecipient [call.cmd], .stop (-1))
  else if !(s.world.client call.sptr).isPerson then (s, .stop (-1))
  else
    match s.world.hashFindChannel nick.tail with
    | none => (s.reply call .errNoSuchNick [nick], .next type)
    | some chptr =>
      let s := s.countFlud call chptr
      let ch := s.world.chan chptr
      if !ch.isChanOp call.sptr && !ch.hasVoice call.sptr then
        (if !call.notice then s.reply call .errCannotSendToChan [nick] else s, .next type)
      else
        (s.emit (.channelType chptr call.cptr type nick.tail call.cmd call.text), .stop 0)

def fludGate (s : MessageState) (call : MessageCall) (acptr : ClientId) : MessageState × Bool :=
  if !call.notice && (s.world.client acptr).myConnect && checkForCtcp call.text then
    s.checkForFlud call.sptr (.client acptr)
  else (s, false)

def deliver (s : MessageState) (call : MessageCall) (nick : CStr) (acptr : ClientId) :
    MessageState :=
  let s :=
    match s.world.away acptr with
    | some away =>
      if !call.notice && (s.world.client call.sptr).myConnect then
        s.reply call .rplAway [s.world.nameOf acptr, away]
      else s
    | none => s
  s.emit (.prefixOne acptr (call.line call.parv0 nick))

def sendToPerson (s : MessageState) (call : MessageCall) (nick : CStr) (acptr : ClientId) :
    MessageState × Flow :=
  match s.fludGate call acptr with
  | (s, true) => (s, .stop 0)
  | (s, false) =>
    match s.droneGate call.sptr acptr with
    | (s, true) => (s, .stop 0)
    | (s, false) => (s.deliver call nick acptr, .next .none)

/-- `user[%host]@server`, and any other target that is left. `collapse` shortens
the user part where it stands, so that `nick` ends there. -/
def sendToUserHost (s : MessageState) (call : MessageCall) (nick : CStr) : MessageState :=
  let oper := (s.world.client call.sptr).isAnOper
  let server := if '@' ∈ nick then s.world.findServer (nick.dropWhile (· != '@')).tail else none
  match server with
  | none => s.reply call .errNoSuchNick [nick]
  | some acptr =>
    if '%' ∈ nick ∧ !oper then s.reply call .errNoSuchNick [nick]
    else if (s.world.client acptr).status != .me then
      s.emit (.serverOne acptr (call.line call.parv0 nick))
    else
      let user := nick.takeWhile (· != '@')
      if irccmp user (lit "opers") = .eq ∧ oper then
        s.emit (.opers (lit "To opers: From " ++ s.world.nameOf call.sptr ++ lit ": " ++ call.text))
      else
        let name := user.takeWhile (· != '%')
        let host := if '%' ∈ user then some (user.dropWhile (· != '%')).tail else none
        let nick := if collapse name = name then nick else collapse name
        match s.world.findUserhost name host with
        | (some acptr, 1) => s.emit (.prefixOne acptr (call.line call.parv0 nick))
        | (some _, _) => if !call.notice then s.reply call .errTooManyTargets [nick] else s
        | (none, _) => s.reply call .errNoSuchNick [nick]

end MessageState

/-- An operator's `#` target that is not a channel of its own. -/
def MessageWorld.operSpecial (w : MessageWorld) (sptr : ClientId) (nick : CStr) : Bool :=
  (w.client sptr).isAnOper && nick.head? == some '#' &&
    (w.hashFindChannel nick).all fun chptr => !w.isMember sptr chptr

def MessageWorld.targetChannel (w : MessageWorld) (sptr : ClientId) (nick : CStr) :
    Option ChanId :=
  if nick.head?.any isChanPrefix && (w.client sptr).isPerson then w.hashFindChannel nick else none

def MessageType.scan (type : MessageType) (nick : CStr) : MessageType :=
  if nick.head? = some '@' then .chanop else if nick.head? = some '+' then .chanopVoice else type

namespace MessageState

def oneTarget (s : MessageState) (call : MessageCall) (type : MessageType) (nick : CStr) :
    MessageState × Flow :=
  if s.world.operSpecial call.sptr nick then (s.sendOperSpecial call nick, .next type)
  else
    match s.world.targetChannel call.sptr nick with
    | some chptr => (s.sendToChannel call nick chptr, .next type)
    | none =>
      let type := type.scan nick
      if type ≠ .none then s.sendToType call type nick
      else
        match s.world.findPerson nick with
        | some acptr => s.sendToPerson call nick acptr
        | none =>
          if nick.head? = some '$' then
            if !(s.world.client call.sptr).isAnOper then
              (s.reply call .errNoSuchNick [nick], .stop (-1))
            else (s.sendOperSpecial call nick, .next .none)
          else (s.sendToUserHost call nick, .next .none)

def walkTargets (call : MessageCall) (type : MessageType) (s : MessageState) :
    List CStr → MessageState × Int
  | [] => (s, 0)
  | nick :: rest =>
    match s.oneTarget call type nick with
    | (s, .next type) => s.walkTargets call type rest
    | (s, .stop code) => (s, code)

/-- `m_message`, with its return value; `parv1` is the receiver list. -/
def mMessage (s : MessageState) (call : MessageCall) (parv1 : CStr) : MessageState × Int :=
  let sender := s.world.client call.sptr
  if parv1 = [] then (s.reply call .errNoRecipient [call.cmd], -1)
  else if call.text = [] then (s.reply call .errNoTextToSend [], -1)
  else if sender.myConnect then
    if sender.joinLeaveCount ≥ maxJoinLeaveCount then (s, 0)
    else s.walkTargets call .none (tokens isComma (canonize parv1))
  else s.walkTargets call .none (tokens isComma parv1)

end MessageState

end Ircd
