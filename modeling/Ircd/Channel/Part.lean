import Ircd.Channel.Join

/-! The ways out of a channel: `m_part`, `m_kick` and the exit of a client. -/

set_option autoImplicit false

namespace Ircd

/-- One channel of the list; `get_channel` may have cut its name. -/
def partChannel (s : Server) (cptr sptr : ClientId) (parv0 message name : CStr) : Server :=
  let cut := s.channelNameFor sptr name
  match s.getChannel sptr name false with
  | (s, none) => s.sendtoOne sptr .errNoSuchChannel [parv0, cut]
  | (s, some c) =>
    if !s.isMember sptr c then s.sendtoOne sptr .errNotOnChannel [parv0, cut]
    else
      let text := ':' :: parv0 ++ lit " PART " ++ cut ++ lit " :" ++ message
      let s := s.sendtoMatchServs (some c) cptr text
      let s := s.sendtoChannelButserv c sptr text
      s.removeUserFromChannel sptr c

def mPart (s : Server) (cptr sptr : ClientId) (parv : List CStr) : Server :=
  let parv0 := parv.getD 0 []
  if parv.length < 2 ∨ parv.getD 1 [] = [] then
    s.sendtoOne sptr .errNeedMoreParams [parv0, lit "PART"]
  else
    let names := tokens isComma (parv.getD 1 [])
    let cl := s.client sptr
    let s := if names ≠ [] ∧ cl.myConnect ∧ !cl.isAnOper then s.leaveAccounting sptr else s
    let message := if parv.length = 3 then parv.getD 2 [] else []
    names.foldl (fun s name => partChannel s cptr sptr parv0 message name) s

def upToComma (s : CStr) : CStr := s.takeWhile fun c => !isComma c

/-- A kick of `who`, once the kicker has been let through. -/
def kickMember (s : Server) (cptr sptr : ClientId) (c : ChanId) (who : ClientId)
    (parv0 name user comment : CStr) : Server :=
  if s.isMember who c then
    let text := ':' :: parv0 ++ lit " KICK " ++ name ++ ' ' :: s.nameOf who ++ lit " :" ++ comment
    let s := s.sendtoChannelButserv c sptr text
    let s := s.sendtoMatchServs (some c) cptr text
    s.removeUserFromChannel who c
  else s.sendtoOne sptr .errUserNotInChannel [parv0, user, name]

def mKick (s : Server) (cptr sptr : ClientId) (parv : List CStr) : Server :=
  let parv0 := parv.getD 0 []
  if parv.length < 3 ∨ parv.getD 2 [] = [] then
    s.sendtoOne sptr .errNeedMoreParams [parv0, lit "KICK"]
  else
    let cl := s.client sptr
    let s :=
      if cl.isServer then
        s.emit (.ops (lit "KICK from " ++ parv0 ++ lit " for " ++ parv.getD 1 [] ++
          ' ' :: parv.getD 2 []))
      else s
    let comment := (if parv.getD 3 [] = [] then parv0 else parv.getD 3 []).take topicLen
    let name := upToComma (parv.getD 1 [])
    let cut := s.channelNameFor sptr name
    match s.getChannel sptr name false with
    | (s, none) => s.sendtoOne sptr .errNoSuchChannel [parv0, cut]
    | (s, some c) =>
      let s := s.touch c
      let ch := s.chan c
      if !cl.isServer ∧ !ch.isChanOp sptr ∧ (cl.myConnect ∨ ch.channelts = 0) then
        s.sendtoOne sptr .errChanOPrivsNeeded [parv0, ch.chname]
      else
        let user := upToComma (parv.getD 2 [])
        match s.findChasing sptr user with
        | (s, none) => s
        | (s, some who) => kickMember s cptr sptr c who parv0 cut user comment

def nicknameHistoryLength : Nat := 15000

namespace Tables

/-- `add_history`: the ring buffer forgets its oldest entry. -/
def addHistory (t : Tables) (u : ClientId) (online : Option ClientId) : Tables :=
  let entry : Whowas :=
    { name := strncpyIrc (t.nameOf u) nickLen, logoff := t.currentTime, online := online }
  { t with whowas := (entry :: t.whowas).take nicknameHistoryLength }

def offHistory (t : Tables) (u : ClientId) : Tables :=
  { t with whowas := t.whowas.map fun w =>
      if w.online = some u then { w with online := none } else w }

def removeClientFromList (t : Tables) (u : ClientId) : Tables :=
  let t := if (t.client u).isPerson then (t.addHistory u none).offHistory u else t
  { t with
    clients := t.clients.erase u
    servCptrList := t.servCptrList.erase u
    client := Function.update t.client u { t.client u with user := false } }

/-- `while ((lp = sptr->user->invited)) del_invite(sptr, lp->value.chptr)`. -/
def clearInvited (t : Tables) (u : ClientId) : List ChanId → Tables
  | [] => t
  | c :: rest => (t.delInvite u c).clearInvited u rest

end Tables

namespace Server

def exitChannels (sptr : ClientId) : List ChanId → Server → Server
  | [], s => s
  | c :: rest, s => exitChannels sptr rest (s.removeUserFromChannel sptr c)

def exitInvites (sptr : ClientId) : List ChanId → Server → Server
  | [], s => s
  | c :: rest, s => exitInvites sptr rest (s.delInvite sptr c)

/-- `exit_one_client`, after the clients that depend on a server have exited. -/
def exitOneClient (s : Server) (cptr sptr : ClientId) (killed : Bool) (comment : CStr) : Server :=
  let cl := s.client sptr
  if cl.status = .me then s.emit (.ops (lit "ERROR: tried to exit me! : " ++ comment))
  else
    let s :=
      if cl.isPerson ∧ cl.name ≠ [] then
        let text := ':' :: cl.name ++ lit " QUIT :" ++ comment
        let s := if killed then s else s.emit (.servButone cptr text)
        let s := s.emit (.commonChannels sptr text)
        let s := exitChannels sptr (s.client sptr).channel s
        exitInvites sptr (s.client sptr).invited s
      else s
    s.edit (·.removeClientFromList sptr)

end Server

namespace Tables

/-- `clear_juped_channels` for one name of the old Q-lines. -/
def clearJupe (t : Tables) (name : CStr) : Tables :=
  if name.head? = some '#' then
    match t.hashFindChannel name with
    | some c => t.setChan c { t.chan c with juped := false }
    | none => t
  else t

/-- A Q-line for a channel as `initconf` reads it: the channel is marked, or made
as an empty place holder. -/
def jupeChannel (t : Tables) (name reason : CStr) : Tables :=
  if name.head? = some '#' then
    let (t, c) :=
      match t.hashFindChannel name with
      | some c => (t, c)
      | none => (t.createChannel name, t.nextChan)
    let t := t.setChan c { t.chan c with juped := true }
    if reason ≠ [] then t.setChan c { t.chan c with topic := strncpyIrc reason topicLen } else t
  else t

def rehashJupes (t : Tables) (old : List CStr) (new : List (CStr × CStr)) : Tables :=
  new.foldl (fun t q => t.jupeChannel q.1 q.2) (old.foldl (fun t name => t.clearJupe name) t)

end Tables

end Ircd
