import Ircd.Text.Mask
import Ircd.Text.Number
import Mathlib.Logic.Function.Basic

/-! The data model of `channel.c`: channels, clients and the tables of one server.

Clients and channels are addresses into two heaps. The block of a channel that
`sub1_from_channel` has freed keeps its last contents and its address is not
given out again; `freed` says which blocks these are and `danglingUses` records
each later access to one of them.
-/

set_option autoImplicit false

namespace Ircd

abbrev ClientId := Nat
abbrev ChanId := Nat

/-- The simple channel modes, the `MODE_*` bits without a parameter. -/
inductive ModeFlag where
  | modePrivate
  | modeSecret
  | modeModerated
  | modeTopicLimit
  | modeInviteOnly
  | modeNoPrivMsgs
  deriving DecidableEq, Repr

structure Mode where
  mode : ModeFlag → Bool
  limit : Int
  key : CStr

def Mode.zero : Mode := { mode := fun _ => false, limit := 0, key := [] }

def Mode.set (mode : Mode) (f : ModeFlag) : Mode :=
  { mode with mode := Function.update mode.mode f true }

structure MemberFlags where
  chanop : Bool
  voice : Bool
  deopped : Bool
  exception : Bool
  deriving DecidableEq, Repr

def MemberFlags.none : MemberFlags :=
  { chanop := false, voice := false, deopped := false, exception := false }

structure Member where
  cptr : ClientId
  flags : MemberFlags
  deriving DecidableEq, Repr

structure Ban where
  banstr : CStr
  who : CStr
  time : Int
  deriving DecidableEq, Repr

structure Channel where
  chname : CStr
  mode : Mode
  topic : CStr
  topicNick : CStr
  topicTime : Int
  users : Int
  members : List Member
  invites : List ClientId
  banlist : List Ban
  exceptlist : List Ban
  invexlist : List Ban
  numBed : Int
  juped : Bool
  channelts : Int

def Channel.zero : Channel where
  chname := []
  mode := Mode.zero
  topic := []
  topicNick := []
  topicTime := 0
  users := 0
  members := []
  invites := []
  banlist := []
  exceptlist := []
  invexlist := []
  numBed := 0
  juped := false
  channelts := 0

def Channel.memberIds (ch : Channel) : List ClientId := ch.members.map Member.cptr

inductive Status where
  | connecting
  | handshake
  | me
  | unknown
  | server
  | client
  deriving DecidableEq, Repr

/-- The fields of `struct Client` that the channel code reads; `user` says
whether the pointer is set and `channel`, `joined`, `invited` are fields of the
`struct User` behind it. -/
structure Client where
  name : CStr
  username : CStr
  host : CStr
  ip : CStr
  status : Status
  localFlag : Bool
  anOper : Bool
  from_ : ClientId
  capEx : Bool
  capIe : Bool
  user : Bool
  userServer : CStr
  channel : List ChanId
  joined : Int
  invited : List ChanId
  lastJoinTime : Int
  lastLeaveTime : Int
  joinLeaveCount : Int
  operWarnCountDown : Int

def Client.zero : Client where
  name := []
  username := []
  host := []
  ip := []
  status := .unknown
  localFlag := false
  anOper := false
  from_ := 0
  capEx := false
  capIe := false
  user := false
  userServer := []
  channel := []
  joined := 0
  invited := []
  lastJoinTime := 0
  lastLeaveTime := 0
  joinLeaveCount := 0
  operWarnCountDown := 0

def Client.isServer (c : Client) : Bool := c.status == .server
def Client.isClient (c : Client) : Bool := c.status == .client
def Client.isPerson (c : Client) : Bool := c.isClient && c.user
def Client.myConnect (c : Client) : Bool := c.localFlag
def Client.myClient (c : Client) : Bool := c.myConnect && c.isClient
def Client.isAnOper (c : Client) : Bool := c.anOper

/-- An entry of the nick history; `online` is null once the client has left. -/
structure Whowas where
  name : CStr
  logoff : Int
  online : Option ClientId
  deriving DecidableEq, Repr

/-- The replies of `s_err.c` that the channel code and `user_mode` send. -/
inductive Numeric where
  | errNoSuchNick
  | errNoSuchChannel
  | errNeedMoreParams
  | errBadChanName
  | errUnavailResource
  | errTooManyChannels
  | errBannedFromChan
  | errInviteOnlyChan
  | errBadChannelKey
  | errChannelIsFull
  | errNotOnChannel
  | errUserNotInChannel
  | errChanOPrivsNeeded
  | errUnknownMode
  | errKeySet
  | errBanListFull
  | rplTopic
  | rplTopicWhoTime
  | rplBanList
  | rplEndOfBanList
  | rplExceptList
  | rplEndOfExceptList
  | rplInvexList
  | rplEndOfInvexList
  | rplChannelModeIs
  | rplCreationTime
  | errUsersDontMatch
  | errUmodeUnknownFlag
  | rplUmodeIs
  deriving DecidableEq, Repr

/-- `CAP_EX` and `CAP_IE`. -/
inductive Capability where
  | capEx
  | capIe
  deriving DecidableEq, Repr

inductive Output where
  | one (target : ClientId) (text : CStr)
  | numeric (target : ClientId) (num : Numeric) (args : List CStr)
  | channelButserv (chname : CStr) (source : ClientId) (text : CStr)
  | channelChanopsButserv (chname : CStr) (source : ClientId) (text : CStr)
  | matchServs (chname : Option CStr) (but : ClientId) (text : CStr)
  | matchCapServs (chname : CStr) (but : ClientId) (cap : Capability) (text : CStr)
  | servButone (but : ClientId) (text : CStr)
  | commonChannels (source : ClientId) (text : CStr)
  | realops (text : CStr)
  | ops (text : CStr)
  | opsSpy (text : CStr)
  | opsBots (text : CStr)
  | opsButone (text : CStr)
  | tsWarn (text : CStr)
  | names (target : ClientId) (chname : CStr)
  deriving DecidableEq, Repr

structure Tables where
  me : ClientId
  currentTime : Int
  client : ClientId → Client
  /-- The client hash table, the newest entry of each name first. -/
  clients : List ClientId
  /-- The nick history, newest first. -/
  whowas : List Whowas
  servCptrList : List ClientId
  chan : ChanId → Channel
  /-- The global channel list. -/
  channel : List ChanId
  channelTable : Nat → List ChanId
  countChan : Int
  nextChan : ChanId
  freed : ChanId → Bool
  serverWasSplit : Bool
  serverSplitTime : Int
  splitDelay : Int
  splitNum : Int
  splitUsers : Int
  gotServerPong : Bool
  coldStart : Bool
  countServer : Int
  countTotal : Int
  maxBans : Int
  spamNum : Int
  spamTime : Int

structure Server extends Tables where
  /-- The calls of send functions, in order. -/
  sent : List Output
  danglingUses : List ChanId

namespace Tables

def setChan (t : Tables) (c : ChanId) (ch : Channel) : Tables :=
  { t with chan := Function.update t.chan c ch }

def setClient (t : Tables) (u : ClientId) (cl : Client) : Tables :=
  { t with client := Function.update t.client u cl }

def nameOf (t : Tables) (u : ClientId) : CStr := (t.client u).name

def meName (t : Tables) : CStr := t.nameOf t.me

/-- A client that registers: `add_client_to_list` and `add_to_client_hash_table`,
and the list of server links where it is one. -/
def addClient (t : Tables) (u : ClientId) (cl : Client) : Tables :=
  { t with
    client := Function.update t.client u cl
    clients := u :: t.clients
    servCptrList := if cl.isServer && cl.localFlag then u :: t.servCptrList else t.servCptrList }

end Tables

namespace Server

def emit (s : Server) (o : Output) : Server := { s with sent := s.sent ++ [o] }

def touch (s : Server) (c : ChanId) : Server :=
  if s.freed c then { s with danglingUses := s.danglingUses ++ [c] } else s

def edit (s : Server) (f : Tables → Tables) : Server := { s with toTables := f s.toTables }

def setChan (s : Server) (c : ChanId) (ch : Channel) : Server := s.edit (·.setChan c ch)

@[simp] theorem emit_toTables (s : Server) (o : Output) : (s.emit o).toTables = s.toTables := rfl

@[simp] theorem touch_toTables (s : Server) (c : ChanId) : (s.touch c).toTables = s.toTables := by
  unfold touch
  split <;> rfl

theorem touch_sent (s : Server) (c : ChanId) : (s.touch c).sent = s.sent := by
  unfold touch
  split <;> rfl

@[simp] theorem edit_toTables (s : Server) (f : Tables → Tables) :
    (s.edit f).toTables = f s.toTables := rfl

@[simp] theorem setChan_toTables (s : Server) (c : ChanId) (ch : Channel) :
    (s.setChan c ch).toTables = s.toTables.setChan c ch := rfl

/-- The server `name` as `main` starts it, with the options of the default `config.h`. -/
def startUp (name : CStr) (now : Int) : Server where
  me := 0
  currentTime := now
  client := Function.update (fun _ => Client.zero) 0
    { Client.zero with name := name, status := .me }
  clients := [0]
  whowas := []
  servCptrList := []
  chan := fun _ => Channel.zero
  channel := []
  channelTable := fun _ => []
  countChan := 0
  nextChan := 0
  freed := fun _ => false
  serverWasSplit := true
  serverSplitTime := now
  splitDelay := 60
  splitNum := 5
  splitUsers := 15000
  gotServerPong := false
  coldStart := true
  countServer := 1
  countTotal := 0
  maxBans := 100
  spamNum := 25
  spamTime := 60
  sent := []
  danglingUses := []

end Server

end Ircd
