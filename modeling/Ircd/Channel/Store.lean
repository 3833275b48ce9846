import Ircd.Channel.State

/-! Lookup, creation and destruction of channels, and the two mirrored lists
that `add_user_to_channel` and `remove_user_from_channel` keep.
-/

set_option autoImplicit false

namespace Ircd

def channelLen : Nat := 200
def keyLen : Nat := 23
def nickLen : Nat := 9
def userLen : Nat := 10
def hostLen : Nat := 63
def topicLen : Nat := 120
def bufSize : Nat := 512
def modeBufLen : Nat := 200
def maxModeParams : Nat := 4
def maxChannelsPerUser : Int := 20
def killChaseTimeLimit : Int := 90
def chMax : Nat := 16384

def hashChannelName (name : CStr) : Nat :=
  (name.foldl (fun h c => (16 * h + 2 ^ 32 - (h + (toLower c).toNat) % 2 ^ 32) % 2 ^ 32) 0) % chMax

theorem hashChannelName_congr {name name' : CStr} (h : irccmp name name' = .eq) :
    hashChannelName name = hashChannelName name' := by
  have folded : ∀ s : CStr, hashChannelName s =
      ((s.map toLower).foldl (fun h c => (16 * h + 2 ^ 32 - (h + c.toNat) % 2 ^ 32) % 2 ^ 32) 0) %
        chMax := by
    intro s
    rw [List.foldl_map]
    rfl
  rw [folded, folded, map_toLower_eq h]

def isChannelName (name : CStr) : Bool :=
  match name with
  | c :: _ => isChanPrefix c
  | [] => false

def checkChannelName (name : CStr) : Bool := name.all isChanChar

def isLocalName (name : CStr) : Bool := name.head? == some '&'

def makeNickUserHost (nick name host : CStr) : CStr :=
  nick.take nickLen ++ '!' :: name.take userLen ++ '@' :: host.take hostLen

namespace Tables

def hashFindChannel (t : Tables) (name : CStr) : Option ChanId :=
  (t.channelTable (hashChannelName name)).find? fun c => irccmp name (t.chan c).chname == .eq

theorem hashFindChannel_congr_name (t : Tables) {name name' : CStr}
    (h : irccmp name name' = .eq) : t.hashFindChannel name = t.hashFindChannel name' := by
  have same : ∀ s : CStr, irccmp name s = .eq ↔ irccmp name' s = .eq := fun s =>
    ⟨irccmp_trans (irccmp_comm h), irccmp_trans h⟩
  unfold hashFindChannel
  rw [hashChannelName_congr h]
  congr 1
  funext c
  rw [Bool.eq_iff_iff, beq_iff_eq, beq_iff_eq]
  exact same _

def findClient (t : Tables) (name : CStr) : Option ClientId :=
  t.clients.find? fun u => irccmp name (t.nameOf u) == .eq

def getHistory (t : Tables) (nick : CStr) (timelimit : Int) : Option ClientId :=
  let timelimit := t.currentTime - timelimit
  match t.whowas.find? fun w => irccmp nick w.name == .eq && !(w.logoff < timelimit) with
  | some w => w.online
  | none => none

/-- The lookup of `find_chasing`: a client by its name or by one that it had in
the last 90 seconds. -/
def chase (t : Tables) (user : CStr) : Option ClientId :=
  match t.findClient user with
  | some who => some who
  | none => t.getHistory user killChaseTimeLimit

/-- `IsMember`, which reads the list of the client. -/
def isMember (t : Tables) (u : ClientId) (c : ChanId) : Bool :=
  (t.client u).user && (t.client u).channel.contains c

end Tables

def Channel.findUserLink (ch : Channel) (u : ClientId) : Option Member :=
  ch.members.find? fun link => link.cptr == u

def Channel.isChanOp (ch : Channel) (u : ClientId) : Bool :=
  match ch.findUserLink u with
  | some link => link.flags.chanop
  | none => false

def Channel.isDeopped (ch : Channel) (u : ClientId) : Bool :=
  match ch.findUserLink u with
  | some link => link.flags.deopped
  | none => false

def Channel.hasVoice (ch : Channel) (u : ClientId) : Bool :=
  match ch.findUserLink u with
  | some link => link.flags.voice
  | none => false

def freshChannel (chname : CStr) (now : Int) : Channel :=
  { Channel.zero with chname := chname, channelts := now }

/-- `free_bans_exceptions_denies` drops two of the three lists. -/
def Channel.freeBansExceptionsDenies (ch : Channel) : Channel :=
  { ch with banlist := [], exceptlist := [], numBed := 0 }

namespace Tables

def addToChannelHashTable (t : Tables) (name : CStr) (c : ChanId) : Tables :=
  let h := hashChannelName name
  { t with channelTable := Function.update t.channelTable h (c :: t.channelTable h) }

def delFromChannelHashTable (t : Tables) (name : CStr) (c : ChanId) : Tables :=
  let h := hashChannelName name
  { t with channelTable := Function.update t.channelTable h ((t.channelTable h).erase c) }

/-- The block that `get_channel` allocates and links in. -/
def createChannel (t : Tables) (chname : CStr) : Tables :=
  let c := t.nextChan
  let t := { t with nextChan := c + 1, channel := c :: t.channel, countChan := t.countChan + 1 }
  (t.setChan c (freshChannel chname t.currentTime)).addToChannelHashTable chname c

/-- What `sub1_from_channel` does to unlink and free a block. -/
def destroyChannel (t : Tables) (c : ChanId) : Tables :=
  let t := t.setChan c (t.chan c).freeBansExceptionsDenies
  let t := { t with
    channel := t.channel.erase c
    freed := Function.update t.freed c true
    countChan := t.countChan - 1 }
  t.delFromChannelHashTable (t.chan c).chname c

def delInvite (t : Tables) (u : ClientId) (c : ChanId) : Tables :=
  let t := t.setChan c { t.chan c with invites := (t.chan c).invites.erase u }
  t.setClient u { t.client u with invited := (t.client u).invited.erase c }

/-- `while ((tmp = chptr->invites)) del_invite(tmp->value.cptr, chptr)`: each turn
unlinks the head of the list. -/
def delInvites (t : Tables) (c : ChanId) : List ClientId → Tables
  | [] => t
  | u :: rest => (t.delInvite u c).delInvites c rest

def sub1FromChannel (t : Tables) (c : ChanId) : Tables :=
  let users := (t.chan c).users - 1
  if users ≤ 0 then
    let t := t.setChan c { t.chan c with users := 0 }
    let t := t.delInvites c (t.chan c).invites
    if (t.chan c).juped then t else t.destroyChannel c
  else t.setChan c { t.chan c with users := users }

def addUserToChannel (t : Tables) (c : ChanId) (who : ClientId) (flags : MemberFlags) : Tables :=
  if (t.client who).user then
    let t := t.setChan c { t.chan c with
      members := { cptr := who, flags := flags } :: (t.chan c).members
      users := (t.chan c).users + 1 }
    t.setClient who { t.client who with
      channel := c :: (t.client who).channel
      joined := (t.client who).joined + 1 }
  else t

def removeUserFromChannel (t : Tables) (sptr : ClientId) (c : ChanId) : Tables :=
  let t := t.setChan c { t.chan c with
    members := (t.chan c).members.eraseP fun link => link.cptr == sptr }
  let t := t.setClient sptr { t.client sptr with
    channel := (t.client sptr).channel.erase c
    joined := (t.client sptr).joined - 1 }
  t.sub1FromChannel c

/-- What the clients of this server see behind the name of a user. -/
def prefixHost (t : Tables) (source : ClientId) : CStr :=
  let cl := t.client source
  if cl.isPerson then
    (if cl.username ≠ [] then '!' :: cl.username else []) ++
      if cl.host ≠ [] then '@' :: cl.host else []
  else []

/-- A line as `vsendto_prefix_one` writes it for a client of this server. Its first word is
the name that every caller passes as the first argument of the pattern. -/
def prefixed (t : Tables) (source : ClientId) (line : CStr) : CStr :=
  let par := line.tail.takeWhile (· != ' ')
  let sender :=
    if irccmp par (t.nameOf source) = .eq then t.nameOf source ++ t.prefixHost source else par
  ':' :: sender ++ line.tail.dropWhile (· != ' ')

/-- The `outbuf` that `vsendto_prefix_one` sends, before its `\r\n`. -/
def outbuf (t : Tables) (source : ClientId) (line : CStr) : CStr :=
  (t.prefixed source line).take (bufSize - 2)

theorem length_prefixed_le (t : Tables) (source : ClientId) (line : CStr) :
    (t.prefixed source (':' :: line)).length ≤
      line.length + 1 + (t.prefixHost source).length := by
  have whole : (line.takeWhile (· != ' ')).length + (line.dropWhile (· != ' ')).length =
      line.length := by
    rw [← List.length_append, List.takeWhile_append_dropWhile]
  unfold prefixed
  dsimp only [List.tail_cons]
  split
  · next same =>
    have length := congrArg List.length ((irccmp_eq_iff _ _).1 same)
    rw [List.length_map, List.length_map] at length
    simp only [List.length_append, List.length_cons]
    omega
  · simp only [List.length_append, List.length_cons]
    omega

end Tables

namespace Server

def sendtoOne (s : Server) (u : ClientId) (num : Numeric) (args : List CStr) : Server :=
  s.emit (.numeric u num (s.meName :: args))

/-- `sendto_channel_butserv`, which walks the members. -/
def sendtoChannelButserv (s : Server) (c : ChanId) (source : ClientId) (text : CStr) : Server :=
  (s.touch c).emit (.channelButserv (s.chan c).chname source text)

/-- `sendto_match_servs`: nothing leaves the server about a `&` channel. -/
def sendtoMatchServs (s : Server) (chptr : Option ChanId) (cptr : ClientId) (text : CStr) :
    Server :=
  match chptr with
  | none => s.emit (.matchServs none cptr text)
  | some c =>
    if isLocalName (s.chan c).chname then s.touch c
    else (s.touch c).emit (.matchServs (some (s.chan c).chname) cptr text)

def findChasing (s : Server) (sptr : ClientId) (user : CStr) : Server × Option ClientId :=
  match s.chase user with
  | some who => (s, some who)
  | none => (s.sendtoOne sptr .errNoSuchNick [s.nameOf sptr, user], none)

/-- The name as `get_channel` leaves it in the caller's buffer: it cuts the name
of a local client at `CHANNELLEN`. -/
def channelNameFor (s : Server) (cptr : ClientId) (chname : CStr) : CStr :=
  if (s.client cptr).myClient ∧ chname.length > channelLen then chname.take channelLen else chname

def getChannel (s : Server) (cptr : ClientId) (chname : CStr) (create : Bool) :
    Server × Option ChanId :=
  if chname = [] then (s, none)
  else
    let chname := s.channelNameFor cptr chname
    match s.hashFindChannel chname with
    | some c => (s, some c)
    | none => if create then (s.edit (·.createChannel chname), some s.nextChan) else (s, none)

def delInvite (s : Server) (u : ClientId) (c : ChanId) : Server :=
  (s.touch c).edit (·.delInvite u c)

def addUserToChannel (s : Server) (c : ChanId) (who : ClientId) (flags : MemberFlags) : Server :=
  if (s.client who).user then (s.touch c).edit (·.addUserToChannel c who flags) else s

def removeUserFromChannel (s : Server) (sptr : ClientId) (c : ChanId) : Server :=
  (s.touch c).edit (·.removeUserFromChannel sptr c)

section Tables

variable (s : Server)

@[simp] theorem sendtoOne_toTables (u : ClientId) (num : Numeric) (args : List CStr) :
    (s.sendtoOne u num args).toTables = s.toTables := rfl

@[simp] theorem sendtoChannelButserv_toTables (c : ChanId) (source : ClientId) (text : CStr) :
    (s.sendtoChannelButserv c source text).toTables = s.toTables := by
  simp [sendtoChannelButserv]

@[simp] theorem sendtoMatchServs_toTables (chptr : Option ChanId) (cptr : ClientId) (text : CStr) :
    (s.sendtoMatchServs chptr cptr text).toTables = s.toTables := by
  unfold sendtoMatchServs
  split
  · rfl
  · split <;> simp

@[simp] theorem findChasing_toTables (sptr : ClientId) (user : CStr) :
    (s.findChasing sptr user).1.toTables = s.toTables := by
  unfold findChasing
  split <;> rfl

@[simp] theorem findChasing_snd (sptr : ClientId) (user : CStr) :
    (s.findChasing sptr user).2 = s.chase user := by
  unfold findChasing
  split <;> simp [*]

@[simp] theorem addUserToChannel_toTables (c : ChanId) (who : ClientId) (flags : MemberFlags) :
    (s.addUserToChannel c who flags).toTables = s.toTables.addUserToChannel c who flags := by
  unfold addUserToChannel
  split
  · simp
  · next h => simp [Tables.addUserToChannel, h]

@[simp] theorem removeUserFromChannel_toTables (sptr : ClientId) (c : ChanId) :
    (s.removeUserFromChannel sptr c).toTables = s.toTables.removeUserFromChannel sptr c := by
  simp [removeUserFromChannel]

@[simp] theorem delInvite_toTables (u : ClientId) (c : ChanId) :
    (s.delInvite u c).toTables = s.toTables.delInvite u c := by
  simp [delInvite]

end Tables

end Server

end Ircd
