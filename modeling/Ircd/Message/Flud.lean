import Ircd.Channel.Store

/-! `flud.c` and the drone counter of `m_message.c`: what a server remembers about
who messages whom.

A client and a channel keep the same two fields, so the functions of `flud.c` take
the one that is fluded as a `Fludee`.
-/

set_option autoImplicit false

namespace Ircd

/-- The replies of `s_err.c` that `m_message` sends. -/
inductive MessageNumeric where
  | errNoRecipient
  | errNoTextToSend
  | errCannotSendToChan
  | errNoSuchNick
  | errTooManyTargets
  | errNoTopLevel
  | errWildTopLevel
  | rplAway
  deriving DecidableEq, Repr

/-- The variable `type`: 0, `MODE_CHANOP` or `MODE_CHANOP|MODE_VOICE`. -/
inductive MessageType where
  | none
  | chanop
  | chanopVoice
  deriving DecidableEq, Repr

inductive MatchWhat where
  | matchServer
  | matchHost
  deriving DecidableEq, Repr

/-- One call of a send function: the deliveries, the replies to the sender and,
last, what the flood protections say. -/
inductive Sent where
  | channelButone (chptr : ChanId) (one : ClientId) (text : CStr)
  | channelType (chptr : ChanId) (one : ClientId) (type : MessageType) (nick cmd message : CStr)
  | prefixOne (acptr : ClientId) (text : CStr)
  | serverOne (acptr : ClientId) (text : CStr)
  | matchButone (one : Option ClientId) (mask : CStr) (what : MatchWhat) (text : CStr)
  | opers (text : CStr)
  | reply (num : MessageNumeric) (args : List CStr)
  | notice (acptr : ClientId) (text : CStr)
  | channelNotice (chptr : ChanId) (text : CStr)
  | ops (text : CStr)
  deriving DecidableEq, Repr

def Sent.isAnswer : Sent → Bool
  | .notice _ _ | .channelNotice _ _ | .ops _ => false
  | _ => true

structure Fludbot where
  fluder : ClientId
  count : Int
  firstMsg : Int
  lastMsg : Int
  deriving DecidableEq, Repr

inductive Fludee where
  | client (cptr : ClientId)
  | channel (chptr : ChanId)
  deriving DecidableEq, Repr

structure Drone where
  firstReceivedMessageTime : Int
  receivedNumberOfPrivmsgs : Int
  droneNoticed : Int
  deriving DecidableEq, Repr

/-- What a message reads and never writes. `queue` is what a call of a send
function makes of the lengths of the send queues: how much of a line waits there
is up to `send.c` and the sockets. -/
structure MessageWorld extends Tables where
  /-- `time(&now)`. -/
  now : Int
  fludBlock : Int
  fludNum : Int
  fludTime : Int
  droneTime : Int
  droneCount : Int
  getSendq : ClientId → Int
  away : ClientId → Option CStr
  queue : Sent → (ClientId → Int) → ClientId → Int

structure MessageState where
  world : MessageWorld
  fludblock : Fludee → Int
  fluders : Fludee → List Fludbot
  fludees : ClientId → List Fludee
  isFlud : Nat
  drone : ClientId → Drone
  /-- `DBufLength(&acptr->sendQ)`. -/
  sendQ : ClientId → Int
  sent : List Sent

namespace MessageState

def emit (s : MessageState) (o : Sent) : MessageState :=
  { s with sendQ := s.world.queue o s.sendQ, sent := s.sent ++ [o] }

def emitAll (s : MessageState) (os : List Sent) : MessageState := os.foldl emit s

def answers (s : MessageState) : List Sent := s.sent.filter Sent.isAnswer

def fludeeName (t : Tables) : Fludee → CStr
  | .client u => t.nameOf u
  | .channel c => (t.chan c).chname

def announceFluder (t : Tables) (target : Fludee) (fluder : ClientId) : Sent :=
  .ops (lit "Flooder " ++ t.nameOf fluder ++ lit " [" ++ (t.client fluder).username ++ lit "@" ++
    (t.client fluder).host ++ lit "] on " ++ (t.client fluder).userServer ++ lit " target: " ++
    fludeeName t target)

def fludNotice (t : Tables) (target : Fludee) : Sent :=
  let text := lit ":" ++ t.meName ++ lit " NOTICE " ++ fludeeName t target ++
    lit " :*** Notice -- Server flood protection activated for " ++ fludeeName t target
  match target with
  | .client u => .notice u text
  | .channel c => .channelNotice c text

def collectGarbage (s : MessageState) (target : Fludee) : MessageState :=
  let stale := fun bot : Fludbot => decide (bot.lastMsg < s.world.now - s.world.fludTime)
  let gone := ((s.fluders target).filter stale).map Fludbot.fluder
  { s with
    fluders := Function.update s.fluders target ((s.fluders target).filter (!stale ·))
    fludees := fun u =>
      if u ∈ gone then (s.fludees u).filter (· != target) else s.fludees u }

def fludBlocking (s : MessageState) (target : Fludee) : Bool :=
  s.fludblock target > s.world.now - s.world.fludBlock

def sweepFlud (s : MessageState) (target : Fludee) : MessageState :=
  if s.fludBlocking target then s else s.collectGarbage target

/-- The pass over the list: `last_msg` and `count` of the fluder. -/
def recount (s : MessageState) (fluder : ClientId) (target : Fludee) : List Fludbot :=
  (s.fluders target).map fun bot =>
    if bot.fluder = fluder then { bot with count := bot.count + 1, lastMsg := s.world.now } else bot

/-- The messages of the last `FLUDTIME` seconds, an older fluder counting once. -/
def fludCount (s : MessageState) (bots : List Fludbot) : Int :=
  (bots.map fun bot =>
    if bot.firstMsg < s.world.now - s.world.fludTime then 1 else bot.count).sum

def setFluders (s : MessageState) (target : Fludee) (bots : List Fludbot)
    (fludees : ClientId → List Fludee) : MessageState :=
  { s with fluders := Function.update s.fluders target bots, fludees := fludees }

def recordFlud (s : MessageState) (fluder : ClientId) (target : Fludee) (blocking : Bool) :
    MessageState × Int :=
  let bots := s.recount fluder target
  let count := s.fludCount bots
  if bots.any fun bot : Fludbot => bot.fluder == fluder then (s.setFluders target bots s.fludees, count)
  else
    let bot := { fluder := fluder, count := 1, firstMsg := s.world.now, lastMsg := s.world.now }
    let s := s.setFluders target (bot :: bots)
      (Function.update s.fludees fluder (target :: s.fludees fluder))
    (if blocking then s.emit (announceFluder s.world.toTables target fluder) else s, count + 1)

def tripFlud (s : MessageState) (target : Fludee) : MessageState :=
  ({ s with isFlud := s.isFlud + 1 }.emit (fludNotice s.world.toTables target)).emitAll
    ((s.fluders target).map fun bot : Fludbot =>
      announceFluder s.world.toTables target bot.fluder)

/-- `check_for_flud`, with its return value; its callers ask for a local client first. -/
def checkForFlud (s : MessageState) (fluder : ClientId) (target : Fludee) :
    MessageState × Bool :=
  if s.world.fludBlock = 0 then (s, false)
  else
    let blocking := s.fludBlocking target
    let (s, count) := (s.sweepFlud target).recordFlud fluder target blocking
    let trips := !blocking && decide (count > s.world.fludNum)
    let s := if trips then s.tripFlud target else s
    if blocking || trips then
      ({ s with fludblock := Function.update s.fludblock target s.world.now }, true)
    else (s, false)

def droneWarning (t : Tables) (sptr acptr : ClientId) : Sent :=
  .ops (lit "Possible Drone Flooder " ++ t.nameOf sptr ++ lit " [" ++ (t.client sptr).username ++
    lit "@" ++ (t.client sptr).host ++ lit "] on " ++ (t.client sptr).userServer ++
    lit " target: " ++ t.nameOf acptr)

def droneNotice (t : Tables) (acptr : ClientId) (what : String) : Sent :=
  .notice acptr (lit ":" ++ t.meName ++ lit " NOTICE " ++ t.nameOf acptr ++
    lit " :*** Notice -- Server drone flood protection " ++ lit what ++ lit " for " ++
    t.nameOf acptr)

def setDrone (s : MessageState) (acptr : ClientId) (d : Drone) : MessageState :=
  { s with drone := Function.update s.drone acptr d }

def setNoticed (s : MessageState) (acptr : ClientId) (n : Int) : MessageState :=
  s.setDrone acptr { s.drone acptr with droneNoticed := n }

/-! The three steps of the "tiny FSM". -/

def droneWarn (s : MessageState) (sptr acptr : ClientId) : MessageState :=
  if (s.drone acptr).droneNoticed = 0 then
    (s.emit (droneWarning s.world.toTables sptr acptr)).setNoticed acptr 1
  else s

def droneActivate (s : MessageState) (acptr : ClientId) : MessageState :=
  if s.sendQ acptr > (s.world.getSendq acptr).tdiv 2 ∧ (s.drone acptr).droneNoticed = 1 then
    ((s.emit (.ops (lit "ANTI_DRONE_FLOOD SendQ protection activated for " ++
      s.world.nameOf acptr))).emit
        (droneNotice s.world.toTables acptr "activated")).setNoticed acptr 2
  else s

def droneDeactivate (s : MessageState) (acptr : ClientId) : MessageState :=
  if s.sendQ acptr ≤ (s.world.getSendq acptr).tdiv 4 ∧ (s.drone acptr).droneNoticed = 2 then
    (s.emit (droneNotice s.world.toTables acptr "de-activated")).setNoticed acptr 1
  else s

def droneOver (s : MessageState) (sptr acptr : ClientId) : MessageState :=
  ((s.droneWarn sptr acptr).droneActivate acptr).droneDeactivate acptr

/-- `ANTI_DRONE_FLOOD`; true where the message is thrown away. -/
def droneGate (s : MessageState) (sptr acptr : ClientId) : MessageState × Bool :=
  let sender := s.world.client sptr
  if (s.world.client acptr).myConnect && sender.isClient && !sender.isAnOper &&
      s.world.droneTime != 0 then
    let d := s.drone acptr
    if d.firstReceivedMessageTime + s.world.droneTime < s.world.currentTime then
      (s.setDrone acptr
        { firstReceivedMessageTime := s.world.currentTime
          receivedNumberOfPrivmsgs := 1
          droneNoticed := 0 }, false)
    else if d.receivedNumberOfPrivmsgs > s.world.droneCount then
      let s := s.droneOver sptr acptr
      (s, (s.drone acptr).droneNoticed > 1)
    else
      (s.setDrone acptr { d with receivedNumberOfPrivmsgs := d.receivedNumberOfPrivmsgs + 1 }, false)
  else (s, false)

end MessageState

end Ircd
