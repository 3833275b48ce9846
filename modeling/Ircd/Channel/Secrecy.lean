import Ircd.Channel.Names
import Ircd.Text.Format

/-! What NAMES, WHO, WHOIS, LIST and TOPIC answer, and that none of it tells of a secret channel
that the requester is not on.

The requester would be answered the same if the channel had another name, topic or other
members. Its own request may tell two names apart, so it has to match both or neither.
-/

set_option autoImplicit false

namespace Ircd

/-- `hunt_server`, which reads the clients only. -/
inductive HuntResult where
  | isMe
  | pass
  | noSuch
  deriving DecidableEq, Repr

structure QueryNet extends Network where
  /-- `user->away` -/
  away : ClientId → Option CStr
  /-- `user->last` -/
  last : ClientId → Int
  doingList : ClientId → Bool
  listprogress : ClientId → Option Nat
  listprogress2 : ClientId → Nat
  /-- `last_used` of `m_list` and of `m_whois`. -/
  listUsed : Int
  whoisUsed : Int

inductive InfoRequest where
  | names (para : Option CStr)
  | who (mask : Option CStr) (oper : Bool)
  | whois (nick : Option CStr) (server : Option (CStr × HuntResult))
  | list (name : Option CStr)
  | topic (name topic : Option CStr)

namespace QueryNet

variable (n : QueryNet)

def isAnOper (u : ClientId) : Bool := (n.peer u).umodes.isAnOper

/-- `sendto_one` to the requester with the server's name and the requester's in front. -/
def reply (sptr : ClientId) (num : InfoNumeric) (args : List CStr) : InfoReply :=
  { num := num, args := n.meName :: n.nameOf sptr :: args }

def doWho (sptr acptr : ClientId) (repchan : Option ChanId) (lp : Option Member) : InfoReply :=
  let cl := n.client acptr
  let lp := lp.or (repchan.bind fun c => (n.chan c).findUserLink acptr)
  let status := (if (n.away acptr).isSome then 'G' else 'H') ::
    (if n.isAnOper acptr then ['*'] else []) ++ lp.elim [] fun lp => Network.memberMark lp.flags
  n.reply sptr .rplWhoReply
    [repchan.elim ['*'] fun c => (n.chan c).chname, cl.username, cl.host, cl.userServer, cl.name,
      status, decimalInt (n.peer acptr).hopcount, (n.peer acptr).info]

def whoChannel (sptr : ClientId) (oper : Bool) (c : ChanId) : List InfoReply :=
  let member := n.isMember sptr c
  if member || !n.secretChannel c then
    ((n.chan c).members.filter fun lp =>
      !(oper && !n.isAnOper lp.cptr) && !(n.isInvisible lp.cptr && !member)).map fun lp =>
        n.doWho sptr lp.cptr (some c) (some lp)
  else []

/-- The channel that a user is shown on, `ch2ptr`. -/
def whoRepchan (sptr acptr : ClientId) : Option ChanId :=
  (n.client acptr).channel.find? fun c =>
    n.isMember sptr c || !n.isInvisible acptr && n.pubChannel c

def showPerson (sptr acptr : ClientId) : Bool :=
  let cl := n.client acptr
  (n.whoRepchan sptr acptr).isSome ||
    cl.channel.any (fun c => n.hiddenChannel c && !n.secretChannel c && !n.isInvisible acptr) ||
    cl.channel.isEmpty && !n.isInvisible acptr

def maxMatches : Nat := 500

def whoMask (sptr : ClientId) (oper : Bool) (mask : CStr) : List InfoReply :=
  let shown := n.globalClientList.filter fun acptr =>
    let cl := n.client acptr
    cl.isPerson && !(oper && !n.isAnOper acptr) && n.showPerson sptr acptr &&
      (matchMask mask cl.name || matchMask mask cl.username || matchMask mask cl.host ||
        matchMask mask cl.userServer || matchMask mask (n.peer acptr).info)
  (shown.take maxMatches).map fun acptr => n.doWho sptr acptr (n.whoRepchan sptr acptr) none

def myChannel (sptr : ClientId) : Option ChanId :=
  let cl := n.client sptr
  if cl.user then cl.channel.head? else none

/-- `channame`; there is none where WHO is done at once. -/
def whoName (sptr : ClientId) (mask : CStr) : Option CStr :=
  if mask = [] then none
  else if mask = ['*'] then (n.myChannel sptr).map fun c => (n.chan c).chname
  else some mask

def mWho (sptr : ClientId) (parv1 : Option CStr) (oper : Bool) : List InfoReply :=
  let mask := (parv1.map collapse).getD []
  let shown :=
    match n.whoName sptr mask with
    | none => []
    | some channame =>
      if isChannelName channame then
        (n.hashFindChannel channame).elim [] (n.whoChannel sptr oper)
      else
        match (n.findClient mask).filter fun acptr =>
            (n.client acptr).isPerson && (!oper || n.isAnOper acptr) with
        | some acptr => [n.doWho sptr acptr (n.whoRepchan sptr acptr) none]
        | none => n.whoMask sptr oper mask
  shown ++ [n.reply sptr .rplEndOfWho [if mask = [] then ['*'] else mask]]

/-- One channel more in the line of a user's channels, and the line before it if that is full. -/
def addChannel (sptr acptr : ClientId) (name : CStr) (st : CStr × List InfoReply) (c : ChanId) :
    CStr × List InfoReply :=
  let chptr := n.chan c
  let mlen := n.meName.length + (n.nameOf sptr).length + 6 + name.length
  let st :=
    if bufSize < st.1.length + chptr.chname.length + 4 + mlen then
      ([], st.2 ++ [n.reply sptr .rplWhoIsChannels [name, st.1]])
    else st
  let mark := (chptr.findUserLink acptr).elim [] fun lp => Network.memberMark lp.flags
  (st.1 ++ mark ++ chptr.chname ++ [' '], st.2)

def whoisChannels (sptr acptr : ClientId) (name : CStr) : List InfoReply :=
  let st := ((n.client acptr).channel.filter (n.showChannel sptr)).foldl
    (n.addChannel sptr acptr name) ([], [])
  if st.1 = [] then st.2 else st.2 ++ [n.reply sptr .rplWhoIsChannels [name, st.1]]

def whoisWait : Int := 1

def whoisUser (sptr acptr : ClientId) (nick : CStr) : List InfoReply :=
  let cl := n.client acptr
  let name := if cl.name = [] then ['?'] else cl.name
  let server := (n.hashFindServer cl.userServer).elim (lit "*Not On This Net*") fun a2cptr =>
    (n.peer a2cptr).info
  [n.reply sptr .rplWhoIsUser [name, cl.username, cl.host, (n.peer acptr).info]] ++
    n.whoisChannels sptr acptr name ++
    [n.reply sptr .rplWhoIsServer [name, cl.userServer, server]] ++
    ((n.away acptr).elim [] fun away => [n.reply sptr .rplAway [name, away]]) ++
    (if n.isAnOper acptr then [n.reply sptr .rplWhoIsOperator [name]] else []) ++
    (if cl.myConnect then
      [n.reply sptr .rplWhoIsIdle [name, decimalInt (n.currentTime - n.last acptr),
        decimalInt (n.peer acptr).firsttime]]
    else []) ++
    [n.reply sptr .rplEndOfWhoIs [nick]]

/-- `m_whois`; `server` is `parv[1]` where there are two parameters. -/
def mWhois (sptr : ClientId) (parv : Option CStr) (server : Option (CStr × HuntResult)) :
    List InfoReply :=
  match parv, server with
  | none, _ => [n.reply sptr .errNoNicknameGiven []]
  | some _, some (_, .pass) => []
  | some _, some (server, .noSuch) => [n.reply sptr .errNoSuchServer [server]]
  | some given, _ =>
    if !n.isAnOper sptr && !(n.client sptr).myConnect &&
        n.currentTime < n.whoisUsed + whoisWait then
      []
    else
      let nick := collapse (given.takeWhile (· != ','))
      match n.findClient nick with
      | none => [n.reply sptr .errNoSuchNick [nick]]
      | some acptr =>
        if !(n.client acptr).isPerson then [n.reply sptr .rplEndOfWhoIs [nick]]
        else n.whoisUser sptr acptr nick

def listsChannel (sptr : ClientId) (c : ChanId) : Bool :=
  (n.client sptr).user && !(n.secretChannel c && !n.isMember sptr c)

def rplList (sptr : ClientId) (c : ChanId) : InfoReply :=
  let chptr := n.chan c
  n.reply sptr .rplList [if n.showChannel sptr c then chptr.chname else ['*'],
    decimalInt chptr.users, if n.showChannel sptr c then chptr.topic else []]

/-- Replies up to the one with which the send queue pops, behind those that were sent. -/
def sendUntil (popped : List InfoReply → Bool) (sent : List InfoReply) :
    List InfoReply → List InfoReply
  | [] => sent
  | r :: rs => if popped (sent ++ [r]) then sent ++ [r] else sendUntil popped (sent ++ [r]) rs

def listFrom (i j : Nat) : List ChanId :=
  (n.channelTable i).drop j ++ (List.range' (i + 1) (chMax - (i + 1))).flatMap n.channelTable

def listRest (popped : List InfoReply → Bool) (sptr : ClientId) (sent : List InfoReply)
    (i j : Nat) : List InfoReply :=
  sendUntil popped sent (((n.listFrom i j).filter (n.listsChannel sptr)).map (n.rplList sptr) ++
    [n.reply sptr .rplListEnd []])

def listNamed (sptr : ClientId) (name : CStr) : List InfoReply :=
  (n.hashFindChannel name).elim [] fun c =>
    if n.showChannel sptr c && (n.client sptr).user then
      [n.reply sptr .rplList [name, decimalInt (n.chan c).users, (n.chan c).topic]]
    else []

def listWait : Int := 10

/-- `m_list`; whether `IsSendqPopped` holds behind some lines is left to `popped`. -/
def mList (popped : List InfoReply → Bool) (sptr : ClientId) (parv1 : Option CStr) :
    List InfoReply :=
  if !(n.client sptr).myConnect then []
  else if !n.isAnOper sptr && n.currentTime < n.listUsed + listWait && !n.doingList sptr then
    [n.reply sptr .rplLoad2Hi []]
  else if n.doingList sptr then
    match n.listprogress sptr with
    | none => [n.reply sptr .rplListEnd []]
    | some i => n.listRest popped sptr [] i (n.listprogress2 sptr)
  else
    let start := n.reply sptr .rplListStart []
    let given := parv1.getD []
    if given = [] then n.listRest popped sptr [start] 0 0
    else
      [start] ++ n.listNamed sptr (given.takeWhile (· != ',')) ++ [n.reply sptr .rplListEnd []]

def topicOf (sptr : ClientId) (c : ChanId) (topic : Option CStr) : List InfoReply :=
  let chptr := n.chan c
  match topic with
  | some topic =>
    if !chptr.mode.mode .modeTopicLimit || chptr.isChanOp sptr then
      -- the requester is one of the members that are told
      if (n.client sptr).myConnect then
        [{ num := .topicLine, args := [n.nameOf sptr, chptr.chname, topic.take topicLen] }]
      else []
    else [n.reply sptr .errChanOPrivsNeeded [chptr.chname]]
  | none =>
    if chptr.topic = [] then [n.reply sptr .rplNoTopic [chptr.chname]]
    else [n.reply sptr .rplTopic [chptr.chname, chptr.topic],
      n.reply sptr .rplTopicWhoTime [chptr.chname, chptr.topicNick, decimalInt chptr.topicTime]]

def mTopic (sptr : ClientId) (parv1 topic : Option CStr) : List InfoReply :=
  match parv1 with
  | none => [n.reply sptr .errNeedMoreParams [lit "TOPIC"]]
  | some given =>
    let name := given.takeWhile (· != ',')
    if !isChannelName name then [n.reply sptr .errNoSuchChannel [name]]
    else
      match n.hashFindChannel name with
      | none => [n.reply sptr .errNoSuchChannel [name]]
      | some c =>
        if !n.isMember sptr c then [n.reply sptr .errNotOnChannel [name]]
        else n.topicOf sptr c topic

def replies (popped : List InfoReply → Bool) (sptr : ClientId) : InfoRequest → List InfoReply
  | .names para => n.mNames sptr para
  | .who mask oper => n.mWho sptr mask oper
  | .whois nick server => n.mWhois sptr nick server
  | .list name => n.mList popped sptr name
  | .topic name topic => n.mTopic sptr name topic

def looksUp (sptr : ClientId) : InfoRequest → Option CStr
  | .names para => para.map fun given => given.takeWhile (· != ',')
  | .who mask _ => n.whoName sptr ((mask.map collapse).getD [])
  | .whois _ _ => none
  | .list name => name.map fun given => given.takeWhile (· != ',')
  | .topic name _ => name.map fun given => given.takeWhile (· != ',')

/-- Another channel in the place of `c`, and other users on it. -/
def reblock (c : ChanId) (ch : Channel) (channels : ClientId → List ChanId) : QueryNet :=
  { n with
    chan := Function.update n.chan c ch
    client := fun u => { n.client u with channel := channels u } }

/-- Whether it is told of a user without `c` that the user is on a channel: the sweep of
NAMES and a mask of WHO go by nothing else. -/
def placed (sptr : ClientId) (c : ChanId) (u : ClientId) : Prop :=
  n.isInvisible u = true ∨ ∃ d ∈ (n.client u).channel,
    d ≠ c ∧ (n.secretChannel d = true ∨ n.showChannel sptr d = true)

/-- What the requester may not be told apart: `c` is secret before and after, and not the
requester's channel. -/
structure Hides (sptr : ClientId) (c : ChanId) (ch : Channel)
    (channels : ClientId → List ChanId) : Prop where
  secret : n.secretChannel c = true
  still : ch.mode.mode .modeSecret = true
  stranger : c ∉ (n.client sptr).channel
  outside : c ∉ channels sptr
  others : ∀ u, (channels u).filter (· != c) = (n.client u).channel.filter (· != c)
  joined : ∀ u, (c ∈ channels u ↔ c ∈ (n.client u).channel) ∨ n.placed sptr c u

section Hides

variable {n : QueryNet} {sptr : ClientId} {c : ChanId} {ch : Channel}
  {channels : ClientId → List ChanId}

theorem chan_reblock {d : ChanId} (other : d ≠ c) :
    (n.reblock c ch channels).chan d = n.chan d := by
  rw [reblock]
  exact Function.update_of_ne other ch n.chan

theorem chan_reblock_self : (n.reblock c ch channels).chan c = ch := by
  rw [reblock]
  exact Function.update_self c ch n.chan

/-- A name that matches the old name and the new one, or neither, finds the same channel. -/
theorem hashFindChannel_reblock {name : CStr}
    (alike : irccmp name (n.chan c).chname = .eq ↔ irccmp name ch.chname = .eq) :
    (n.reblock c ch channels).hashFindChannel name = n.hashFindChannel name := by
  have tests : (fun d => irccmp name ((n.reblock c ch channels).chan d).chname == .eq) =
      fun d => irccmp name (n.chan d).chname == .eq := by
    funext d
    by_cases same : d = c
    · rw [same, chan_reblock_self, Bool.eq_iff_iff, beq_iff_eq, beq_iff_eq]
      exact alike.symm
    · rw [chan_reblock same]
  unfold Tables.hashFindChannel
  rw [tests]
  rfl

@[simp] theorem reblock_channel : (n.reblock c ch channels).channel = n.channel := rfl

@[simp] theorem reblock_meName : (n.reblock c ch channels).meName = n.meName := rfl

@[simp] theorem reblock_nameOf (u : ClientId) :
    (n.reblock c ch channels).nameOf u = n.nameOf u := rfl

@[simp] theorem reblock_client (u : ClientId) :
    (n.reblock c ch channels).client u = { n.client u with channel := channels u } := rfl

@[simp] theorem reblock_isPerson (u : ClientId) :
    ((n.reblock c ch channels).client u).isPerson = (n.client u).isPerson := rfl

@[simp] theorem reblock_myConnect (u : ClientId) :
    ((n.reblock c ch channels).client u).myConnect = (n.client u).myConnect := rfl

@[simp] theorem reblock_isInvisible (u : ClientId) :
    (n.reblock c ch channels).isInvisible u = n.isInvisible u := rfl

@[simp] theorem reblock_isAnOper (u : ClientId) :
    (n.reblock c ch channels).isAnOper u = n.isAnOper u := rfl

@[simp] theorem reblock_findClient (name : CStr) :
    (n.reblock c ch channels).findClient name = n.findClient name := rfl

theorem doWho_reblock {d : Option ChanId} (other : ∀ e ∈ d, e ≠ c) (acptr : ClientId)
    (lp : Option Member) :
    (n.reblock c ch channels).doWho sptr acptr d lp = n.doWho sptr acptr d lp := by
  cases d with
  | none => rfl
  | some d =>
    unfold QueryNet.doWho
    simp only [Option.bind_some, Option.elim_some]
    rw [chan_reblock (other d rfl)]
    rfl

theorem reblock_reply (num : InfoNumeric) (args : List CStr) :
    (n.reblock c ch channels).reply sptr num args = n.reply sptr num args := rfl

theorem topicOf_reblock {d : ChanId} (other : d ≠ c) (topic : Option CStr) :
    (n.reblock c ch channels).topicOf sptr d topic = n.topicOf sptr d topic := by
  unfold QueryNet.topicOf
  simp only [chan_reblock other, reblock_reply, reblock_nameOf, reblock_myConnect]

variable (h : n.Hides sptr c ch channels)
include h

theorem Hides.isMember_self : n.isMember sptr c = false := by
  unfold Tables.isMember
  rw [Bool.and_eq_false_iff]
  exact .inr (by simpa using h.stranger)

theorem Hides.channels_self : channels sptr = (n.client sptr).channel := by
  have same := h.others sptr
  rwa [List.filter_eq_self.2 fun d inside => by simpa using ne_of_mem_of_not_mem inside h.outside,
    List.filter_eq_self.2 fun d inside => by
      simpa using ne_of_mem_of_not_mem inside h.stranger] at same

theorem Hides.isMember (d : ChanId) :
    (n.reblock c ch channels).isMember sptr d = n.isMember sptr d := by
  change ((n.client sptr).user && (channels sptr).contains d) = n.isMember sptr d
  rw [h.channels_self]
  rfl

theorem Hides.secretChannel (d : ChanId) :
    (n.reblock c ch channels).secretChannel d = n.secretChannel d := by
  by_cases same : d = c
  · rw [same, h.secret, Tables.secretChannel, chan_reblock_self]
    exact h.still
  · rw [Tables.secretChannel, chan_reblock same]
    rfl

theorem Hides.not_pubChannel : n.pubChannel c = false := by
  have secret := h.secret
  rw [Tables.secretChannel] at secret
  rw [Tables.pubChannel, secret, Bool.not_true, Bool.and_false]

theorem Hides.pubChannel (d : ChanId) :
    (n.reblock c ch channels).pubChannel d = n.pubChannel d := by
  by_cases same : d = c
  · rw [same, h.not_pubChannel, Tables.pubChannel, chan_reblock_self, h.still, Bool.not_true,
      Bool.and_false]
  · rw [Tables.pubChannel, chan_reblock same]
    rfl

theorem Hides.showChannel (d : ChanId) :
    (n.reblock c ch channels).showChannel sptr d = n.showChannel sptr d := by
  rw [Tables.showChannel, h.pubChannel, h.isMember]
  rfl

theorem Hides.shows : (n.reblock c ch channels).showChannel sptr = n.showChannel sptr := by
  funext d
  exact h.showChannel d

theorem Hides.not_showChannel : n.showChannel sptr c = false := by
  rw [Tables.showChannel, h.not_pubChannel, h.isMember_self]
  rfl

theorem Hides.ne_of_showChannel {d : ChanId} (shown : n.showChannel sptr d = true) : d ≠ c := by
  rintro rfl
  rw [h.not_showChannel] at shown
  cases shown

theorem Hides.filter_channels {p : ChanId → Bool} (fails : p c = false) (u : ClientId) :
    (channels u).filter p = (n.client u).channel.filter p := by
  have narrow : ∀ l : List ChanId, l.filter p = (l.filter (· != c)).filter p := by
    intro l
    rw [List.filter_filter]
    apply List.filter_congr
    intro d _
    by_cases same : d = c
    · rw [same, fails, Bool.false_and]
    · simp [same]
  rw [narrow, h.others, ← narrow]

theorem Hides.mem_channels {d : ChanId} (other : d ≠ c) (u : ClientId) :
    d ∈ channels u ↔ d ∈ (n.client u).channel := by
  have same := congrArg (d ∈ ·) (h.others u)
  simpa [other] using same

theorem Hides.any_channels {p : ChanId → Bool} {u : ClientId}
    (agree : p c = true → (c ∈ channels u ↔ c ∈ (n.client u).channel)) :
    (channels u).any p = (n.client u).channel.any p := by
  have inside : ∀ d, p d = true → (d ∈ channels u ↔ d ∈ (n.client u).channel) := by
    intro d holds
    by_cases same : d = c
    · rw [same]
      exact agree (same ▸ holds)
    · exact h.mem_channels same u
  rw [Bool.eq_iff_iff, List.any_eq_true, List.any_eq_true]
  constructor
  · rintro ⟨d, member, holds⟩
    exact ⟨d, (inside d holds).1 member, holds⟩
  · rintro ⟨d, member, holds⟩
    exact ⟨d, (inside d holds).2 member, holds⟩

theorem Hides.isEmpty_channels (u : ClientId) :
    ((channels u).isEmpty && !n.isInvisible u) =
      ((n.client u).channel.isEmpty && !n.isInvisible u) := by
  rcases h.joined u with agree | invisible | ⟨d, inside, other, -⟩
  · have none : channels u = [] ↔ (n.client u).channel = [] := by
      have same : ∀ d, d ∈ channels u ↔ d ∈ (n.client u).channel := by
        intro d
        by_cases this : d = c
        · rw [this]
          exact agree
        · exact h.mem_channels this u
      simp only [List.eq_nil_iff_forall_not_mem, same]
    congr 1
    rw [Bool.eq_iff_iff, List.isEmpty_iff, List.isEmpty_iff]
    exact none
  · rw [invisible, Bool.not_true, Bool.and_false, Bool.and_false]
  · have here := List.ne_nil_of_mem inside
    have there := List.ne_nil_of_mem ((h.mem_channels other u).2 inside)
    rw [List.isEmpty_eq_false_iff.2 here, List.isEmpty_eq_false_iff.2 there]

theorem Hides.find_channels {p : ChanId → Bool} (fails : p c = false) (u : ClientId) :
    (channels u).find? p = (n.client u).channel.find? p := by
  rw [← List.head?_filter, ← List.head?_filter, h.filter_channels fails]

theorem Hides.namesHead {d : ChanId} (other : d ≠ c) :
    (n.reblock c ch channels).namesHead d = n.namesHead d := by
  unfold Network.namesHead
  rw [h.pubChannel, h.secretChannel, chan_reblock other]

theorem Hides.namesMember {d : ChanId} (other : d ≠ c) :
    (n.reblock c ch channels).namesMember sptr d = n.namesMember sptr d := by
  funext st lp
  unfold Network.namesMember
  rw [h.isMember, h.namesHead other]
  rfl

theorem Hides.channelNames {d : ChanId} (other : d ≠ c) :
    (n.reblock c ch channels).channelNames sptr d = n.channelNames sptr d := by
  unfold Network.channelNames
  rw [h.namesHead other, h.namesMember other, chan_reblock other]
  rfl

/-- The sweep passes over a user on `c` whom it does not pass over otherwise, so such a user
stays where it is. -/
theorem Hides.sweeps : (n.reblock c ch channels).sweeps sptr = n.sweeps sptr := by
  funext u
  have shown : (fun d => (n.reblock c ch channels).pubChannel d ||
      (n.reblock c ch channels).isMember sptr d) = n.showChannel sptr := by
    funext d
    rw [h.pubChannel, h.isMember]
    rfl
  have secret : (n.reblock c ch channels).secretChannel = n.secretChannel := by
    funext d
    exact h.secretChannel d
  have seen := h.any_channels (p := n.showChannel sptr) (u := u) fun holds =>
    absurd rfl (h.ne_of_showChannel holds)
  change ((n.client u).isPerson && !n.isInvisible u &&
      !((channels u).any fun d => (n.reblock c ch channels).pubChannel d ||
        (n.reblock c ch channels).isMember sptr d) &&
      !((channels u).any (n.reblock c ch channels).secretChannel)) =
    ((n.client u).isPerson && !n.isInvisible u &&
      !((n.client u).channel.any (n.showChannel sptr)) &&
      !((n.client u).channel.any n.secretChannel))
  rw [shown, secret, seen]
  rcases h.joined u with agree | invisible | ⟨d, inside, other, holds | holds⟩
  · rw [h.any_channels fun _ => agree]
  · rw [invisible]
    simp only [Bool.not_true, Bool.and_false, Bool.false_and]
  · have here : (n.client u).channel.any n.secretChannel = true :=
      List.any_eq_true.2 ⟨d, inside, holds⟩
    have there : (channels u).any n.secretChannel = true :=
      List.any_eq_true.2 ⟨d, (h.mem_channels other u).2 inside, holds⟩
    rw [here, there]
  · have here : (n.client u).channel.any (n.showChannel sptr) = true :=
      List.any_eq_true.2 ⟨d, inside, holds⟩
    rw [here]
    simp only [Bool.not_true, Bool.and_false, Bool.false_and]

theorem Hides.sweptNames : (n.reblock c ch channels).sweptNames sptr = n.sweptNames sptr := by
  unfold Network.sweptNames
  rw [h.sweeps]
  rfl

theorem Hides.mNames {para : Option CStr}
    (alike : ∀ name, n.looksUp sptr (.names para) = some name →
      (irccmp name (n.chan c).chname = .eq ↔ irccmp name ch.chname = .eq)) :
    (n.reblock c ch channels).mNames sptr para = n.mNames sptr para := by
  have lines : ∀ p : ChanId → Bool, (∀ d, p d = true → n.showChannel sptr d = true) →
      (n.channel.filter p).flatMap ((n.reblock c ch channels).channelNames sptr) =
        (n.channel.filter p).flatMap (n.channelNames sptr) := by
    intro p passes
    apply List.flatMap_congr
    intro d member
    exact h.channelNames (h.ne_of_showChannel (passes d (List.mem_filter.1 member).2))
  unfold Network.mNames
  simp only [reblock_channel, reblock_meName, reblock_nameOf, reblock_myConnect, h.shows,
    h.sweptNames]
  rw [lines _ fun d shown => shown]
  cases para with
  | none => rfl
  | some given =>
    have found : (n.reblock c ch channels).hashFindChannel (given.takeWhile (· != ',')) =
        n.hashFindChannel (given.takeWhile (· != ',')) := hashFindChannel_reblock (alike _ rfl)
    simp only [Option.getD_some, found]
    rw [lines _ fun d shown => (Bool.and_eq_true_iff.1 shown).2]

theorem Hides.whoChannel (oper : Bool) (d : ChanId) :
    (n.reblock c ch channels).whoChannel sptr oper d = n.whoChannel sptr oper d := by
  unfold QueryNet.whoChannel
  simp only [h.isMember, h.secretChannel, reblock_isAnOper, reblock_isInvisible]
  by_cases same : d = c
  · rw [same, h.isMember_self, h.secret]
    rfl
  · rw [chan_reblock same]
    have who : ∀ lp : Member, (n.reblock c ch channels).doWho sptr lp.cptr (some d) (some lp) =
        n.doWho sptr lp.cptr (some d) (some lp) := fun lp =>
      doWho_reblock (fun e is => Option.some.inj is ▸ same) lp.cptr (some lp)
    simp only [who]

theorem Hides.whoRepchan (acptr : ClientId) :
    (n.reblock c ch channels).whoRepchan sptr acptr = n.whoRepchan sptr acptr := by
  unfold QueryNet.whoRepchan
  simp only [h.isMember, h.pubChannel, reblock_isInvisible]
  apply h.find_channels
  rw [h.isMember_self, h.not_pubChannel, Bool.and_false, Bool.false_or]

theorem Hides.ne_of_whoRepchan {acptr : ClientId} : ∀ d ∈ n.whoRepchan sptr acptr, d ≠ c := by
  rintro d found rfl
  have passes := List.find?_some found
  rw [h.isMember_self, h.not_pubChannel, Bool.and_false, Bool.false_or] at passes
  cases passes

theorem Hides.doWho (acptr : ClientId) :
    (n.reblock c ch channels).doWho sptr acptr (n.whoRepchan sptr acptr) none =
      n.doWho sptr acptr (n.whoRepchan sptr acptr) none :=
  doWho_reblock h.ne_of_whoRepchan acptr none

theorem Hides.showPerson (acptr : ClientId) :
    (n.reblock c ch channels).showPerson sptr acptr = n.showPerson sptr acptr := by
  have hidden : (fun d => (n.reblock c ch channels).hiddenChannel d &&
      !(n.reblock c ch channels).secretChannel d && !n.isInvisible acptr) =
      fun d => n.hiddenChannel d && !n.secretChannel d && !n.isInvisible acptr := by
    funext d
    rw [h.secretChannel]
    by_cases same : d = c
    · rw [same, h.secret, Bool.not_true, Bool.and_false, Bool.and_false]
    · rw [Tables.hiddenChannel, chan_reblock same]
      rfl
  have only := h.any_channels (u := acptr)
    (p := fun d => n.hiddenChannel d && !n.secretChannel d && !n.isInvisible acptr) fun holds => by
      rw [h.secret] at holds
      simp at holds
  unfold QueryNet.showPerson
  simp only [h.whoRepchan, reblock_isInvisible, hidden, reblock_client, only]
  rw [h.isEmpty_channels]

theorem Hides.whoMask (oper : Bool) (mask : CStr) :
    (n.reblock c ch channels).whoMask sptr oper mask = n.whoMask sptr oper mask := by
  unfold QueryNet.whoMask
  simp only [h.showPerson, h.whoRepchan, h.doWho, reblock_isPerson, reblock_isAnOper]
  rfl

theorem Hides.whoName (mask : CStr) :
    (n.reblock c ch channels).whoName sptr mask = n.whoName sptr mask := by
  have mine : (n.reblock c ch channels).myChannel sptr = n.myChannel sptr := by
    unfold QueryNet.myChannel
    simp only [reblock_client, h.channels_self]
  unfold QueryNet.whoName
  rw [mine]
  cases first : n.myChannel sptr with
  | none => rfl
  | some d =>
    have inside : d ∈ (n.client sptr).channel := by
      unfold QueryNet.myChannel at first
      dsimp only at first
      split at first
      · exact List.mem_of_head? first
      · cases first
    have other : d ≠ c := ne_of_mem_of_not_mem inside h.stranger
    simp only [Option.map_some, chan_reblock other]

theorem Hides.mWho {parv1 : Option CStr} {oper : Bool}
    (alike : ∀ name, n.looksUp sptr (.who parv1 oper) = some name →
      (irccmp name (n.chan c).chname = .eq ↔ irccmp name ch.chname = .eq)) :
    (n.reblock c ch channels).mWho sptr parv1 oper = n.mWho sptr parv1 oper := by
  unfold QueryNet.looksUp at alike
  have users : (n.reblock c ch channels).whoChannel sptr oper = n.whoChannel sptr oper := by
    funext d
    exact h.whoChannel oper d
  unfold QueryNet.mWho
  simp only [h.whoName, h.whoMask, h.whoRepchan, h.doWho, users, reblock_findClient,
    reblock_isPerson, reblock_isAnOper, reblock_reply]
  cases asked : n.whoName sptr ((parv1.map collapse).getD []) with
  | none => rfl
  | some name => simp only [hashFindChannel_reblock (alike name asked)]

theorem Hides.whoisChannels (acptr : ClientId) (name : CStr) :
    (n.reblock c ch channels).whoisChannels sptr acptr name =
      n.whoisChannels sptr acptr name := by
  have line : ((n.client acptr).channel.filter (n.showChannel sptr)).foldl
      ((n.reblock c ch channels).addChannel sptr acptr name) ([], []) =
      ((n.client acptr).channel.filter (n.showChannel sptr)).foldl
        (n.addChannel sptr acptr name) ([], []) := by
    apply List.foldl_ext
    intro st d member
    have other := h.ne_of_showChannel (List.mem_filter.1 member).2
    unfold QueryNet.addChannel
    simp only [chan_reblock other, reblock_meName, reblock_nameOf, reblock_reply]
  unfold QueryNet.whoisChannels
  simp only [h.shows, reblock_client, h.filter_channels h.not_showChannel, line, reblock_reply]

theorem Hides.mWhois (parv : Option CStr) (server : Option (CStr × HuntResult)) :
    (n.reblock c ch channels).mWhois sptr parv server = n.mWhois sptr parv server := by
  have user : ∀ acptr nick, (n.reblock c ch channels).whoisUser sptr acptr nick =
      n.whoisUser sptr acptr nick := by
    intro acptr nick
    unfold QueryNet.whoisUser
    simp only [h.whoisChannels]
    rfl
  unfold QueryNet.mWhois
  simp only [user, reblock_findClient, reblock_isPerson, reblock_isAnOper, reblock_reply,
    reblock_myConnect]
  rfl

theorem Hides.listsChannel :
    (n.reblock c ch channels).listsChannel sptr = n.listsChannel sptr := by
  funext d
  unfold QueryNet.listsChannel
  rw [h.secretChannel, h.isMember]
  rfl

theorem Hides.rplList {d : ChanId} (other : d ≠ c) :
    (n.reblock c ch channels).rplList sptr d = n.rplList sptr d := by
  unfold QueryNet.rplList
  simp only [chan_reblock other, h.showChannel, reblock_reply]

theorem Hides.listRest (popped : List InfoReply → Bool) (sent : List InfoReply) (i j : Nat) :
    (n.reblock c ch channels).listRest popped sptr sent i j =
      n.listRest popped sptr sent i j := by
  have lines : ((n.listFrom i j).filter (n.listsChannel sptr)).map
      ((n.reblock c ch channels).rplList sptr) =
      ((n.listFrom i j).filter (n.listsChannel sptr)).map (n.rplList sptr) := by
    apply List.map_congr_left
    intro d member
    apply h.rplList
    rintro rfl
    have listed := (List.mem_filter.1 member).2
    rw [QueryNet.listsChannel, h.secret, h.isMember_self] at listed
    simp at listed
  unfold QueryNet.listRest
  rw [h.listsChannel, reblock_reply]
  exact congrArg (fun shown => sendUntil popped sent (shown ++ [n.reply sptr .rplListEnd []])) lines

theorem Hides.listNamed {name : CStr}
    (alike : irccmp name (n.chan c).chname = .eq ↔ irccmp name ch.chname = .eq) :
    (n.reblock c ch channels).listNamed sptr name = n.listNamed sptr name := by
  unfold QueryNet.listNamed
  rw [hashFindChannel_reblock alike]
  cases n.hashFindChannel name with
  | none => rfl
  | some d =>
    simp only [Option.elim_some]
    rw [h.showChannel]
    by_cases same : d = c
    · rw [same, h.not_showChannel]
      rfl
    · rw [chan_reblock same]
      rfl

theorem Hides.mList (popped : List InfoReply → Bool) {parv1 : Option CStr}
    (alike : ∀ name, n.looksUp sptr (.list parv1) = some name →
      (irccmp name (n.chan c).chname = .eq ↔ irccmp name ch.chname = .eq)) :
    (n.reblock c ch channels).mList popped sptr parv1 = n.mList popped sptr parv1 := by
  unfold QueryNet.mList
  cases parv1 with
  | none =>
    simp only [h.listRest]
    rfl
  | some given =>
    simp only [Option.getD_some, h.listRest, h.listNamed (alike _ rfl)]
    rfl

theorem Hides.mTopic {parv1 : Option CStr} (topic : Option CStr)
    (alike : ∀ name, n.looksUp sptr (.topic parv1 topic) = some name →
      (irccmp name (n.chan c).chname = .eq ↔ irccmp name ch.chname = .eq)) :
    (n.reblock c ch channels).mTopic sptr parv1 topic = n.mTopic sptr parv1 topic := by
  cases parv1 with
  | none => rfl
  | some given =>
    have found : (n.reblock c ch channels).hashFindChannel (given.takeWhile (· != ',')) =
        n.hashFindChannel (given.takeWhile (· != ',')) := hashFindChannel_reblock (alike _ rfl)
    unfold QueryNet.mTopic
    simp only [found, reblock_reply, h.isMember]
    split
    · rfl
    · cases n.hashFindChannel (given.takeWhile (· != ',')) with
      | none => rfl
      | some d =>
        simp only
        split
        · rfl
        · next member =>
          apply topicOf_reblock
          rintro rfl
          exact member (by rw [h.isMember_self]; rfl)

end Hides

/-- What a requester is sent tells nothing about a secret channel that it is not on: not its
name, not its topic, not who is on it or how many. -/
theorem replies_reblock (n : QueryNet) {sptr : ClientId} {c : ChanId} {ch : Channel}
    {channels : ClientId → List ChanId} (h : n.Hides sptr c ch channels)
    (popped : List InfoReply → Bool) (q : InfoRequest)
    (alike : ∀ name, n.looksUp sptr q = some name →
      (irccmp name (n.chan c).chname = .eq ↔ irccmp name ch.chname = .eq)) :
    (n.reblock c ch channels).replies popped sptr q = n.replies popped sptr q := by
  cases q with
  | names para => exact h.mNames alike
  | who mask oper => exact h.mWho alike
  | whois nick server => exact h.mWhois nick server
  | list name => exact h.mList popped alike
  | topic name topic => exact h.mTopic topic alike

end QueryNet

/-! Anna is alone on `#c`, which is secret, and olly asks for the names there. -/

def secretServer : Server :=
  networkServer.setChan 0 { networkServer.chan 0 with
    mode := (networkServer.chan 0).mode.set .modeSecret, topic := lit "plans" }

def secretNet : QueryNet where
  toNetwork := namesNetwork secretServer
  away := fun _ => none
  last := fun _ => 0
  doingList := fun _ => false
  listprogress := fun _ => none
  listprogress2 := fun _ => 0
  listUsed := 0
  whoisUsed := 0

def emptySecret : Channel :=
  { Channel.zero with chname := lit "#C", mode := Mode.zero.set .modeSecret }

theorem secretNet_hides :
    secretNet.Hides 3 0 emptySecret fun u => (secretNet.client u).channel where
  secret := by decide +kernel
  still := by decide +kernel
  stranger := by decide +kernel
  outside := by decide +kernel
  others := fun _ => rfl
  joined := fun _ => .inl Iff.rfl

theorem replies_reblock_olly :
    (secretNet.reblock 0 emptySecret fun u => (secretNet.client u).channel).replies
      (fun _ => false) 3 (.names (some (lit "#c"))) =
    secretNet.replies (fun _ => false) 3 (.names (some (lit "#c"))) := by
  apply secretNet.replies_reblock secretNet_hides
  intro name asked
  cases asked
  decide +kernel

end Ircd
