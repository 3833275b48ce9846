import Ircd.Message.Broadcast
import Ircd.Message.FludMirror
import Ircd.Message.Targets
import Mathlib.Data.List.FinRange

/-! Messages to the ops, or to the ops and the voiced, of a channel: one server at a time and
then over the tree of servers.

A server tells by the target of the message which members it is for, sends it to those of
its own and passes it on over each link with such a member behind it. The prefix character
that it passes on is `@` whichever it has read.
-/

set_option autoImplicit false

namespace Ircd

def MemberFlags.has (flags : MemberFlags) : MessageType → Bool
  | .none => false
  | .chanop => flags.chanop
  | .chanopVoice => flags.chanop || flags.voice

def MessageType.charType : MessageType → Char
  | .none => '+'
  | .chanop => '@'
  | .chanopVoice => '@'

structure TypedLine where
  cmd : CStr
  target : CStr
  message : CStr
  deriving DecidableEq, Repr

namespace SendState

variable {w : Nat}

/-- What the loop of `sendto_channel_type` does for a member. -/
def typeTurn (s : SendState w) (t : Tables) (one : ClientId) (type : MessageType) (lp : Member) :
    Turn :=
  let acptr := t.client lp.cptr
  if !lp.flags.has type then .skip
  else if acptr.from_ = one then .skip
  else if acptr.myConnect ∧ acptr.isClient then .send
  else if !s.capChw acptr.from_ then .send
  else .sendOnce

/-- The line for a member: as it came for a client of this server, and a notice over a link, to
the member itself where the server at the other end knows no prefixes. -/
def typeText (s : SendState w) (t : Tables) (type : MessageType) (nick cmd message : CStr)
    (lp : Member) : TypedLine :=
  let acptr := t.client lp.cptr
  if acptr.myConnect ∧ acptr.isClient then
    { cmd := cmd, target := type.charType :: nick, message := message }
  else if !s.capChw acptr.from_ then
    { cmd := lit "NOTICE", target := acptr.name, message := message }
  else { cmd := lit "NOTICE", target := type.charType :: nick, message := message }

def sendtoChannelType (s : SendState w) (t : Tables) (one from_ : ClientId) (chptr : ChanId)
    (type : MessageType) (nick cmd message : CStr) : SendState w × List (SentLine TypedLine) :=
  let serial := s.currentSerial + 1
  let (sentalong, sent) := Marks.walk (s.typeTurn t one type)
    (fun lp => s.fd (t.client lp.cptr).from_) serial s.sentalong (t.chan chptr).members
  ({ s with sentalong := sentalong, currentSerial := serial },
    sent.map fun lp => t.vsendtoPrefixOne lp.cptr from_ (s.typeText t type nick cmd message lp))

end SendState

structure SiteState (w : Nat) where
  msg : MessageState
  send : SendState w

namespace SiteState

variable {w : Nat}

def tables (here : SiteState w) : Tables := here.msg.world.toTables

/-- The lines that `PRIVMSG` or `NOTICE` to a target sends to the members of a channel. -/
def typedLines (here : SiteState w) (call : MessageCall) (target : CStr) :
    List (SentLine TypedLine) :=
  ((here.msg.mMessage call target).1.answers.drop here.msg.answers.length).flatMap fun
    | .channelType chptr one type nick cmd message =>
      (here.send.sendtoChannelType here.tables one call.sptr chptr type nick cmd message).2
    | _ => []

end SiteState

def SentLine.readBy {τ : Type} (t : Tables) : SentLine τ → Option ClientId
  | .line to_ _ => if (t.client to_).myConnect then some to_ else none
  | _ => none

def SentLine.carries {τ : Type} (t : Tables) (link : ClientId) : SentLine τ → Option τ
  | .line to_ text =>
    if !(t.client to_).myConnect ∧ (t.client to_).from_ = link then some text else none
  | _ => none

/-- A server and the servers behind its links, but for the one that the message comes from:
`link` is how it knows each of them and `up` how it is known there. -/
inductive Site (w : Nat) where
  | server (here : SiteState w) (n : Nat) (link up : Fin n → ClientId) (child : Fin n → Site w)

namespace Site

variable {w : Nat}

def here : Site w → SiteState w
  | .server here _ _ _ _ => here

def callOf (t : Tables) (cptr : ClientId) (nick : CStr) (line : TypedLine) : Option MessageCall :=
  (t.findClient nick).map fun sptr =>
    { cptr := cptr
      sptr := sptr
      parv0 := nick
      text := line.message
      notice := line.cmd == lit "NOTICE" }

/-- The nicks of the clients that read the message, once for each line that they are sent. -/
def readers : Site w → MessageCall → CStr → List CStr
  | .server here n link up child, call, target =>
    let lines := here.typedLines call target
    let nick := here.tables.nameOf call.sptr
    (lines.filterMap (·.readBy here.tables)).map here.tables.nameOf ++
      (List.finRange n).flatMap fun i =>
        (lines.filterMap (·.carries here.tables (link i))).flatMap fun line =>
          match callOf (child i).here.tables (up i) nick line with
          | none => []
          | some call => (child i).readers call line.target

def users (name : CStr) : Site w → List (CStr × MemberFlags)
  | .server here n _ _ child =>
    (match here.tables.hashFindChannel name with
      | none => []
      | some c =>
        ((here.tables.chan c).members.filter fun lp => (here.tables.client lp.cptr).myConnect).map
          fun lp => (here.tables.nameOf lp.cptr, lp.flags)) ++
      (List.finRange n).flatMap fun i => (child i).users name

end Site

/-- What a server knows of the channel, of the sender and of the servers behind its links, where
`users i` are the members on those behind `link i`. -/
structure SiteState.Knows {w n : Nat} (here : SiteState w) (name nick : CStr)
    (flags : MemberFlags) (one sptr : ClientId) (link : Fin n → ClientId)
    (users : Fin n → List (CStr × MemberFlags)) (c : ChanId) : Prop where
  channel : here.tables.hashFindChannel name = some c
  nodup : (here.tables.chan c).memberIds.Nodup
  connected : Connected here.tables here.send.fd
  links : ∀ u ∈ (here.tables.chan c).memberIds,
    (here.tables.client u).from_ ≠ one → 0 ≤ here.send.fd (here.tables.client u).from_
  sender : { cptr := sptr, flags := flags : Member } ∈ (here.tables.chan c).members
  nick : here.tables.nameOf sptr = nick
  chw : ∀ i, here.send.capChw (link i) = true
  server : ∀ i, (here.tables.client (link i)).isServer = true
  distinct : Function.Injective link
  other : ∀ i, link i ≠ one
  /-- A remote member is behind a link or where the message comes from. -/
  behind : ∀ u ∈ (here.tables.chan c).memberIds, (here.tables.client u).myConnect = false →
    (here.tables.client u).from_ = one ∨ ∃ i, (here.tables.client u).from_ = link i
  users : ∀ i, (((here.tables.chan c).members.filter fun lp =>
      !(here.tables.client lp.cptr).myConnect && (here.tables.client lp.cptr).from_ == link i).map
    fun lp => (here.tables.nameOf lp.cptr, lp.flags)).Perm (users i)

structure TypedTarget (char : Char) (name : CStr) (type : MessageType) : Prop where
  scanned : char = '@' ∧ type = .chanop ∨ char = '+' ∧ type = .chanopVoice
  channel : isChannelName name = true
  plain : ∀ c ∈ name, isComma c = false

namespace TypedTarget

variable {char : Char} {name : CStr} {type : MessageType} (target : TypedTarget char name type)
include target

theorem scan_eq : MessageType.scan .none (char :: name) = type := by
  rcases target.scanned with ⟨rfl, rfl⟩ | ⟨rfl, rfl⟩
  · rfl
  · rfl

theorem type_ne : type ≠ .none := by
  rcases target.scanned with ⟨-, rfl⟩ | ⟨-, rfl⟩
  · decide
  · decide

theorem charType_eq : type.charType = '@' := by
  rcases target.scanned with ⟨-, rfl⟩ | ⟨-, rfl⟩
  · rfl
  · rfl

theorem head_ne : char ≠ '#' ∧ isChanPrefix char = false := by
  rcases target.scanned with ⟨rfl, -⟩ | ⟨rfl, -⟩
  · decide
  · decide

theorem tokens_eq : tokens isComma (char :: name) = [char :: name] := by
  have plain : ∀ c ∈ char :: name, isComma c = false := by
    intro c inside
    rcases List.mem_cons.1 inside with rfl | inside
    · rcases target.scanned with ⟨rfl, -⟩ | ⟨rfl, -⟩
      · rfl
      · rfl
    · exact target.plain c inside
  have one := @tokensFrom_of_no_sep isComma [] _ plain
  simpa [tokens] using one

theorem canonize_eq : canonize (char :: name) = char :: name := by
  simp [canonize, distinctTargets, target.tokens_eq, canonizeFrom, List.intercalate]

theorem stripPrefix_eq : MessageState.stripPrefix type (char :: name) = (type, char :: name) := by
  have channel := target.channel
  cases name with
  | nil => cases channel
  | cons c rest =>
    have other : ¬ (c = '@' ∨ c = '+') := by
      rintro (rfl | rfl)
      · cases channel
      · cases channel
    show (if c = '@' ∨ c = '+' then _ else _) = _
    rw [if_neg other]

theorem relayed : TypedTarget type.charType name .chanop where
  scanned := Or.inl ⟨target.charType_eq, rfl⟩
  channel := target.channel
  plain := target.plain

end TypedTarget

theorem filterMap_ite {α β : Type} (p : α → Prop) [DecidablePred p] (f : α → β) (xs : List α) :
    (xs.filterMap fun x => if p x then some (f x) else none) = (xs.filter fun x => p x).map f := by
  induction xs with
  | nil => rfl
  | cons x xs ih =>
    by_cases here : p x
    · simp [here, ih]
    · simp [here, ih]

theorem findUserLink_of_mem {ch : Channel} (nodup : ch.memberIds.Nodup) {lp : Member}
    (inside : lp ∈ ch.members) : ch.findUserLink lp.cptr = some lp := by
  unfold Channel.findUserLink
  unfold Channel.memberIds at nodup
  revert inside nodup
  induction ch.members with
  | nil => exact fun _ absurdity => by cases absurdity
  | cons head rest ih =>
    intro nodup inside
    rw [List.map_cons, List.nodup_cons] at nodup
    rcases List.mem_cons.1 inside with rfl | later
    · simp
    · have other : head.cptr ≠ lp.cptr := fun same =>
        nodup.1 (same ▸ List.mem_map_of_mem later)
      rw [List.find?_cons_of_neg (by simpa using other)]
      exact ih nodup.2 later

namespace SiteState

variable {w n : Nat} {here : SiteState w} {name nick : CStr} {flags : MemberFlags}
  {link : Fin n → ClientId} {users : Fin n → List (CStr × MemberFlags)} {c : ChanId}
  {call : MessageCall} {char : Char} {type : MessageType}

/-- A message that is not refused on the spot: it has a text, and its sender is none of those
that are taken for spambots. -/
structure Passes (here : SiteState w) (call : MessageCall) : Prop where
  text : call.text ≠ []
  calm : (here.tables.client call.sptr).myConnect = true →
    (here.tables.client call.sptr).joinLeaveCount < maxJoinLeaveCount

theorem mMessage_one (target : TypedTarget char name type) (passes : here.Passes call) :
    (here.msg.mMessage call (char :: name)).1 =
      (here.msg.oneTarget call .none (char :: name)).1 := by
  have walk : (here.msg.walkTargets call .none [char :: name]).1 =
      (here.msg.oneTarget call .none (char :: name)).1 := by
    unfold MessageState.walkTargets
    cases here.msg.oneTarget call .none (char :: name) with
    | mk s flow =>
      cases flow with
      | next type => rfl
      | stop code => rfl
  unfold MessageState.mMessage
  simp only [List.cons_ne_nil, if_false, passes.text]
  split
  · next mine =>
    have calm : ¬ maxJoinLeaveCount ≤ (here.msg.world.client call.sptr).joinLeaveCount :=
      Int.not_le.2 (passes.calm mine)
    rw [if_neg calm, target.canonize_eq, target.tokens_eq]
    exact walk
  · rw [target.tokens_eq]
    exact walk

/-- A message to the ops or the voiced of a channel that is let through is one call of
`sendto_channel_type`. -/
theorem typedLines_eq (knows : here.Knows name nick flags call.cptr call.sptr link users c)
    (target : TypedTarget char name type) (passes : here.Passes call)
    (privileged : flags.chanop = true ∨ flags.voice = true) :
    here.typedLines call (char :: name) =
      (here.send.sendtoChannelType here.tables call.cptr call.sptr c type name call.cmd
        call.text).2 := by
  obtain ⟨head, notPrefix⟩ := target.head_ne
  have member : call.sptr ∈ (here.tables.chan c).memberIds :=
    List.mem_map_of_mem knows.sender
  have person : (here.msg.world.client call.sptr).isPerson = true :=
    knows.connected.person c _ member
  have own := findUserLink_of_mem knows.nodup knows.sender
  have may : ((here.msg.world.chan c).isChanOp call.sptr ||
      (here.msg.world.chan c).hasVoice call.sptr) = true := by
    have op : (here.msg.world.chan c).isChanOp call.sptr = flags.chanop := by
      unfold Channel.isChanOp
      rw [show (here.msg.world.chan c).findUserLink call.sptr = _ from own]
    have voiced : (here.msg.world.chan c).hasVoice call.sptr = flags.voice := by
      unfold Channel.hasVoice
      rw [show (here.msg.world.chan c).findUserLink call.sptr = _ from own]
    rw [op, voiced, Bool.or_eq_true]
    exact privileged
  have channel : here.msg.world.hashFindChannel name = some c := knows.channel
  have special : here.msg.world.operSpecial call.sptr (char :: name) = false := by
    simp [MessageWorld.operSpecial, head]
  have plain : here.msg.world.targetChannel call.sptr (char :: name) = none := by
    simp [MessageWorld.targetChannel, notPrefix]
  have counted : (here.msg.countFlud call c).world = here.msg.world :=
    (here.msg.countFlud_kept call.sptr call c).world
  have refused : (!(here.msg.world.chan c).isChanOp call.sptr &&
      !(here.msg.world.chan c).hasVoice call.sptr) = false := by
    rw [← Bool.not_or, may]
    rfl
  -- the only answer of the target is the call itself
  have answers : (here.msg.mMessage call (char :: name)).1.answers =
      here.msg.answers ++ [.channelType c call.cptr type name call.cmd call.text] := by
    rw [mMessage_one target passes]
    unfold MessageState.oneTarget
    rw [special, plain]
    simp only [Bool.false_eq_true, if_false, target.scan_eq, target.type_ne, ne_eq,
      not_false_eq_true, if_true]
    unfold MessageState.sendToType
    rw [target.stripPrefix_eq]
    simp only [List.cons_ne_nil, if_false, person, Bool.not_true, Bool.false_eq_true, List.tail_cons,
      channel, counted, refused]
    rw [MessageState.answers_emit, MessageState.countFlud_answers]
    rfl
  unfold typedLines
  rw [answers, List.drop_left]
  simp

/-- The members that `sendto_channel_type` sends for. -/
def typeSent (here : SiteState w) (one : ClientId) (c : ChanId) (type : MessageType) :
    List Member :=
  (Marks.walk (here.send.typeTurn here.tables one type)
    (fun lp => here.send.fd (here.tables.client lp.cptr).from_) (here.send.currentSerial + 1)
    here.send.sentalong (here.tables.chan c).members).2

theorem typeTurn_sent {s : SendState w} {t : Tables} {one : ClientId} {lp : Member}
    (sent : s.typeTurn t one type lp ≠ .skip) :
    lp.flags.has type = true ∧ (t.client lp.cptr).from_ ≠ one := by
  unfold SendState.typeTurn at sent
  constructor
  · by_contra none
    exact sent (by simp [none])
  · intro same
    apply sent
    simp [same]

def Unmarked (here : SiteState w) (link : ClientId) : Prop :=
  here.send.sentalong (here.send.fd link) ≠ here.send.currentSerial + 1

instance (here : SiteState w) (link : ClientId) : Decidable (here.Unmarked link) :=
  inferInstanceAs (Decidable (_ ≠ _))

theorem of_mem_typeSent {one : ClientId} {lp : Member} (sent : lp ∈ here.typeSent one c type) :
    lp ∈ (here.tables.chan c).members ∧ lp.flags.has type = true ∧
      (here.tables.client lp.cptr).from_ ≠ one := by
  obtain ⟨member, turn⟩ := Marks.of_mem_walk sent
  exact ⟨member, typeTurn_sent turn⟩

theorem typeLines_eq {one sptr : ClientId}
    (route : (here.tables.client sptr).myClient = true ∨ (here.tables.client sptr).from_ = one)
    (cmd message : CStr) :
    (here.send.sendtoChannelType here.tables one sptr c type name cmd message).2 =
      (here.typeSent one c type).map fun lp =>
        .line lp.cptr (here.send.typeText here.tables type name cmd message lp) := by
  apply List.map_congr_left
  intro lp inside
  obtain ⟨-, -, apart⟩ := of_mem_typeSent inside
  unfold Tables.vsendtoPrefixOne
  rw [if_neg]
  rintro ⟨away, -, same⟩
  cases route with
  | inl mine => simp [mine] at away
  | inr link => exact apart (same.trans link)

section

variable {one sptr : ClientId} (knows : here.Knows name nick flags one sptr link users c)
include knows

theorem Knows.client {lp : Member} (member : lp ∈ (here.tables.chan c).members) :
    (here.tables.client lp.cptr).isClient = true := by
  have person := knows.connected.person c lp.cptr (List.mem_map_of_mem member)
  simp only [Client.isPerson, Bool.and_eq_true] at person
  exact person.1

theorem Knows.typeTurn_mine {lp : Member} (member : lp ∈ (here.tables.chan c).members)
    (mine : (here.tables.client lp.cptr).myConnect = true) :
    here.send.typeTurn here.tables one type lp =
      if lp.flags.has type = true ∧ lp.cptr ≠ one then .send else .skip := by
  have own := knows.connected.mine lp.cptr mine
  have client := knows.client member
  unfold SendState.typeTurn
  by_cases has : lp.flags.has type = true
  · by_cases here_ : lp.cptr = one
    · rw [here_] at own
      simp [has, own, here_]
    · simp [has, own, here_, mine, client]
  · simp [has]

theorem Knows.away_of_link {lp : Member} (member : lp ∈ (here.tables.chan c).members) {i : Fin n}
    (behind : (here.tables.client lp.cptr).from_ = link i) :
    (here.tables.client lp.cptr).myConnect = false := by
  cases mine : (here.tables.client lp.cptr).myConnect with
  | false => rfl
  | true =>
    have own := knows.connected.mine lp.cptr mine
    have server := knows.server i
    have client := knows.client member
    rw [← behind, own] at server
    have status : (here.tables.client lp.cptr).status = .server := by
      simpa [Client.isServer] using server
    simp [Client.isClient, status] at client

theorem Knows.typeTurn_link {lp : Member} (member : lp ∈ (here.tables.chan c).members) {i : Fin n}
    (behind : (here.tables.client lp.cptr).from_ = link i) :
    here.send.typeTurn here.tables one type lp =
      if lp.flags.has type then .sendOnce else .skip := by
  have away := knows.away_of_link member behind
  unfold SendState.typeTurn
  cases has : lp.flags.has type with
  | false => simp
  | true => simp [behind, knows.other i, away, knows.chw i]

/-- The clients of this server that read the message: those that it is for, the sender apart. -/
theorem Knows.readers_eq (type : MessageType)
    (route : (here.tables.client sptr).myClient = true ∨ (here.tables.client sptr).from_ = one)
    (cmd message : CStr) :
    (here.send.sendtoChannelType here.tables one sptr c type name cmd message).2.filterMap
        (·.readBy here.tables) =
      ((here.tables.chan c).members.filter fun lp => (here.tables.client lp.cptr).myConnect &&
        (lp.flags.has type && lp.cptr != one)).map Member.cptr := by
  rw [typeLines_eq route, List.filterMap_map]
  have each : (SentLine.readBy here.tables ∘ fun lp : Member =>
      SentLine.line lp.cptr (here.send.typeText here.tables type name cmd message lp)) =
        fun lp => if (here.tables.client lp.cptr).myConnect then some lp.cptr else none := rfl
  have walked := @Marks.filter_walk Member Int (BitVec w) _ _
    (here.send.typeTurn here.tables one type)
    (fun lp => here.send.fd (here.tables.client lp.cptr).from_) (here.send.currentSerial + 1)
    here.send.sentalong (here.tables.chan c).members
    (fun lp => (here.tables.client lp.cptr).myConnect) (by
      intro lp member mine
      rw [knows.typeTurn_mine member mine]
      split <;> exact fun absurdity => by cases absurdity)
  rw [each, filterMap_ite, typeSent]
  simp only [Bool.decide_eq_true]
  rw [walked]
  congr 1
  apply List.filter_congr
  intro lp member
  cases mine : (here.tables.client lp.cptr).myConnect with
  | false => simp
  | true =>
    rw [knows.typeTurn_mine member mine]
    by_cases wanted : lp.flags.has type = true ∧ lp.cptr ≠ one
    · simp [wanted]
    · simp only [wanted, if_false, ne_eq, not_true_eq_false, and_false, decide_false,
        Bool.true_and]
      symm
      simpa using wanted

/-- What goes out over a link: the message once, for the ops, if the link is not marked and
has a member behind it that the message is for. -/
theorem Knows.carries_eq (target : TypedTarget char name type)
    (route : (here.tables.client sptr).myClient = true ∨ (here.tables.client sptr).from_ = one)
    (cmd message : CStr) (i : Fin n) :
    (here.send.sendtoChannelType here.tables one sptr c type name cmd message).2.filterMap
        (·.carries here.tables (link i)) =
      if here.Unmarked (link i) ∧ (users i).any fun x => x.2.has type then
        [{ cmd := lit "NOTICE", target := '@' :: name, message := message }]
      else [] := by
  set line : TypedLine := { cmd := lit "NOTICE", target := '@' :: name, message := message }
    with passedOn
  have behind : ∀ lp ∈ here.typeSent one c type,
      (!(here.tables.client lp.cptr).myConnect ∧ (here.tables.client lp.cptr).from_ = link i ↔
        here.send.fd (here.tables.client lp.cptr).from_ = here.send.fd (link i)) := by
    intro lp sent
    obtain ⟨member, -, apart⟩ := of_mem_typeSent sent
    have open_ := knows.links lp.cptr (List.mem_map_of_mem member) apart
    constructor
    · exact fun both => congrArg here.send.fd both.2
    · intro same
      have link := knows.connected.fd_inj _ _ open_ same
      exact ⟨by simp [knows.away_of_link member link], link⟩
  have text : ∀ lp ∈ here.typeSent one c type,
      (SentLine.carries here.tables (link i) (.line lp.cptr
        (here.send.typeText here.tables type name cmd message lp))) =
          if here.send.fd (here.tables.client lp.cptr).from_ = here.send.fd (link i) then some line
          else none := by
    intro lp sent
    show (if _ ∧ _ then some _ else none) = _
    by_cases same : here.send.fd (here.tables.client lp.cptr).from_ = here.send.fd (link i)
    · have both := (behind lp sent).2 same
      have away : (here.tables.client lp.cptr).myConnect = false := by simpa using both.1
      rw [if_pos both, if_pos same, passedOn, ← target.charType_eq]
      simp [SendState.typeText, away, both.2, knows.chw i]
    · rw [if_neg same, if_neg fun both => same ((behind lp sent).1 both)]
  -- over one link goes the first that is not marked, however many members are behind it
  have walked := @Marks.length_walk Member Int (BitVec w) _ _
    (here.send.typeTurn here.tables one type)
    (fun lp => here.send.fd (here.tables.client lp.cptr).from_) (here.send.currentSerial + 1)
    here.send.sentalong (here.tables.chan c).members (here.send.fd (link i)) (by
      intro lp member same
      by_cases skipped : here.send.typeTurn here.tables one type lp = .skip
      · exact Or.inl skipped
      · have open_ := knows.links lp.cptr (List.mem_map_of_mem member) (typeTurn_sent skipped).2
        have link := knows.connected.fd_inj _ _ open_ same
        rw [knows.typeTurn_link member link]
        split
        · exact Or.inr rfl
        · exact Or.inl rfl)
  have wanted : (∃ lp ∈ (here.tables.chan c).members,
      here.send.fd (here.tables.client lp.cptr).from_ = here.send.fd (link i) ∧
        here.send.typeTurn here.tables one type lp = .sendOnce) ↔
      ((users i).any fun x => x.2.has type) = true := by
    rw [List.any_eq_true]
    constructor
    · rintro ⟨lp, member, same, turn⟩
      obtain ⟨has, apart⟩ := typeTurn_sent (s := here.send) (by rw [turn]; decide)
      have open_ := knows.links lp.cptr (List.mem_map_of_mem member) apart
      have link := knows.connected.fd_inj _ _ open_ same
      refine ⟨_, (knows.users i).subset (List.mem_map_of_mem (List.mem_filter.2 ⟨member, ?_⟩)), has⟩
      simp [link, knows.away_of_link member link]
    · rintro ⟨x, inside, has⟩
      obtain ⟨lp, listed, rfl⟩ := List.mem_map.1 ((knows.users i).symm.subset inside)
      obtain ⟨member, both⟩ := List.mem_filter.1 listed
      have link : (here.tables.client lp.cptr).from_ = link i := by
        simp only [Bool.and_eq_true, beq_iff_eq] at both
        exact both.2
      refine ⟨lp, member, congrArg here.send.fd link, ?_⟩
      rw [knows.typeTurn_link member link, if_pos has]
  rw [typeLines_eq route, List.filterMap_map]
  have each : (here.typeSent one c type).filterMap (SentLine.carries here.tables (link i) ∘
      fun lp => .line lp.cptr (here.send.typeText here.tables type name cmd message lp)) =
        ((here.typeSent one c type).filter fun lp =>
          here.send.fd (here.tables.client lp.cptr).from_ = here.send.fd (link i)).map
            fun _ => line := by
    rw [← filterMap_ite]
    exact List.filterMap_congr text
  rw [each, List.map_const', typeSent, walked]
  by_cases sends : here.Unmarked (link i) ∧ ((users i).any fun x => x.2.has type) = true
  · rw [if_pos sends, if_pos ⟨sends.1, wanted.2 sends.2⟩, List.replicate_one]
  · rw [if_neg sends, if_neg fun both => sends ⟨both.1, wanted.1 both.2⟩, List.replicate_zero]

end

end SiteState

theorem sublist_append_eq_iff {α : Type} {as as' bs bs' : List α} (left : as.Sublist as')
    (right : bs.Sublist bs') : as ++ bs = as' ++ bs' ↔ as = as' ∧ bs = bs' := by
  constructor
  · intro same
    have lengths : as.length + bs.length = as'.length + bs'.length := by
      rw [← List.length_append, ← List.length_append, same]
    have first := left.length_le
    have second := right.length_le
    exact ⟨left.eq_of_length (by omega), right.eq_of_length (by omega)⟩
  · rintro ⟨rfl, rfl⟩
    rfl

theorem sublist_flatMap {α β : Type} {f g : α → List β} {xs : List α}
    (part : ∀ x ∈ xs, (f x).Sublist (g x)) : (xs.flatMap f).Sublist (xs.flatMap g) := by
  induction xs with
  | nil => exact List.Sublist.refl _
  | cons x xs ih =>
    rw [List.flatMap_cons, List.flatMap_cons]
    exact (part x List.mem_cons_self).append
      (ih fun y later => part y (List.mem_cons_of_mem x later))

theorem sublist_flatMap_eq_iff {α β : Type} {f g : α → List β} {xs : List α}
    (part : ∀ x ∈ xs, (f x).Sublist (g x)) :
    xs.flatMap f = xs.flatMap g ↔ ∀ x ∈ xs, f x = g x := by
  induction xs with
  | nil => simp
  | cons x xs ih =>
    have rest : ∀ y ∈ xs, (f y).Sublist (g y) := fun y later =>
      part y (List.mem_cons_of_mem x later)
    rw [List.flatMap_cons, List.flatMap_cons, List.forall_mem_cons, ← ih rest]
    exact sublist_append_eq_iff (part x List.mem_cons_self) (sublist_flatMap rest)

theorem map_filter_sublist {α β : Type} {f : α → β} {p q : α → Bool}
    (weaker : ∀ x, p x = true → q x = true) (xs : List α) :
    ((xs.filter p).map f).Sublist ((xs.filter q).map f) :=
  (List.monotone_filter_right xs weaker).map f

theorem map_filter_eq_iff {α β : Type} {f : α → β} {p q : α → Bool}
    (weaker : ∀ x, p x = true → q x = true) (xs : List α) :
    (xs.filter p).map f = (xs.filter q).map f ↔ ∀ x ∈ xs, q x = true → p x = true := by
  constructor
  · intro same x inside wanted
    have lengths : (xs.filter p).length = (xs.filter q).length := by
      simpa using congrArg List.length same
    have equal := (List.monotone_filter_right xs weaker).eq_of_length lengths
    have kept : x ∈ xs.filter p := equal ▸ List.mem_filter.2 ⟨inside, wanted⟩
    exact (List.mem_filter.1 kept).2
  · intro each
    congr 1
    apply List.filter_congr
    intro x inside
    rw [Bool.eq_iff_iff]
    exact ⟨weaker x, each x inside⟩

namespace Site

variable {w : Nat} {name nick : CStr} {flags : MemberFlags}

def farUsers (name : CStr) : Site w → List (CStr × MemberFlags)
  | .server _ n _ _ child => (List.finRange n).flatMap fun i => (child i).users name

/-- Each server of the tree knows the channel and the sender, from the one that the message
comes from on. -/
def InStep (name nick : CStr) (flags : MemberFlags) : Site w → ClientId → ClientId → Prop
  | .server here _ link up child, one, sptr =>
    (∃ c, here.Knows name nick flags one sptr link (fun i => (child i).users name) c) ∧
      ∀ i, ∃ sptr', (child i).here.tables.findClient nick = some sptr' ∧
        ((child i).here.tables.client sptr').from_ = up i ∧
        ((child i).here.tables.client (up i)).isServer = true ∧
        (child i).InStep name nick flags (up i) sptr'

/-- The nicks that the message gets to: a link with a member behind it that it is for is given
it for the ops. -/
def reached (name : CStr) : Site w → MessageType → ClientId → List CStr
  | .server here n link up child, type, one =>
    (match here.tables.hashFindChannel name with
      | none => []
      | some c =>
        ((here.tables.chan c).members.filter fun lp => (here.tables.client lp.cptr).myConnect &&
          (lp.flags.has type && lp.cptr != one)).map fun lp => here.tables.nameOf lp.cptr) ++
      (List.finRange n).flatMap fun i =>
        if here.Unmarked (link i) ∧ ((child i).users name).any fun x => x.2.has type then
          (child i).reached name .chanop (up i)
        else []

def wanted (name : CStr) (type : MessageType) (site : Site w) : List CStr :=
  ((site.users name).filter fun x => x.2.has type).map Prod.fst

def audience (name : CStr) (type : MessageType) (nick : CStr) (site : Site w) : List CStr :=
  ((site.users name).filter fun x => x.2.has type && x.1 != nick).map Prod.fst

def Clear (name : CStr) : Site w → MessageType → Prop
  | .server here _ link _ child, type => ∀ i,
    (∃ x ∈ (child i).users name, x.2.has type = true) →
      here.Unmarked (link i) ∧ (child i).Clear name .chanop

theorem InStep.away {site : Site w} {one sptr : ClientId} (inStep : site.InStep name nick flags one sptr)
    (behind : (site.here.tables.client sptr).from_ = one)
    (server : (site.here.tables.client one).isServer = true) :
    (site.here.tables.client sptr).myConnect = false := by
  obtain ⟨here, n, link, up, child⟩ := site
  obtain ⟨⟨c, knows⟩, -⟩ := inStep
  cases mine : (here.tables.client sptr).myConnect with
  | false => exact mine
  | true =>
    have own := knows.connected.mine sptr mine
    have client : (here.tables.client sptr).isClient = true := knows.client knows.sender
    have same : sptr = one := own.symm.trans behind
    have status : (here.tables.client one).status = .server := by
      have server : (here.tables.client one).isServer = true := server
      simpa [Client.isServer] using server
    rw [← same] at status
    simp [Client.isClient, status] at client

theorem readers_eq {site : Site w} {call : MessageCall} {char : Char} {type : MessageType}
    (inStep : site.InStep name nick flags call.cptr call.sptr)
    (route : (site.here.tables.client call.sptr).myClient = true ∨
      (site.here.tables.client call.sptr).from_ = call.cptr)
    (passes : site.here.Passes call) (target : TypedTarget char name type)
    (privileged : flags.chanop = true ∨ flags.voice = true) :
    site.readers call (char :: name) = site.reached name type call.cptr := by
  induction site generalizing call char type with
  | server here n link up child ih =>
    obtain ⟨⟨c, knows⟩, next⟩ := inStep
    have lines := SiteState.typedLines_eq knows target passes privileged
    have mine := knows.readers_eq type route call.cmd call.text
    have carried := knows.carries_eq target route call.cmd call.text
    unfold readers reached
    rw [lines, knows.channel, knows.nick]
    dsimp only
    rw [mine, List.map_map]
    congr 1
    apply congrArg (List.flatMap · (List.finRange n))
    funext i
    obtain ⟨sptr, known, behind, server, later⟩ := next i
    rw [carried i]
    split
    · have text : call.text ≠ [] := passes.text
      -- the line goes on with the letter the server reads, so the induction is on the tree
      have onward := @ih i
        { cptr := up i
          sptr := sptr
          parv0 := nick
          text := call.text
          notice := lit "NOTICE" == lit "NOTICE" } type.charType .chanop later (Or.inr behind)
        ⟨text, fun mine => by rw [later.away behind server] at mine; cases mine⟩ target.relayed
      rw [target.charType_eq] at onward
      simp only [List.flatMap_cons, List.flatMap_nil, List.append_nil, callOf, known,
        Option.map_some]
      exact onward
    · rfl

theorem has_of_chanop {type : MessageType} (some_ : type ≠ .none) (x : CStr × MemberFlags)
    (op : x.2.has .chanop = true) : x.2.has type = true := by
  cases type with
  | none => exact absurd rfl some_
  | chanop => exact op
  | chanopVoice => exact Bool.or_eq_true_iff.2 (Or.inl op)

/-- What gets over a link is part of what is wanted behind it, and all of it where the link is
free, every member there that the message is for is an op and none is missed further on. -/
theorem overLink {site : Site w} {type : MessageType} {one : ClientId} {free : Prop} [Decidable free]
    (some_ : type ≠ .none)
    (part : (site.reached name .chanop one).Sublist (site.wanted name .chanop))
    (whole : site.reached name .chanop one = site.wanted name .chanop ↔ site.Clear name .chanop) :
    (if free ∧ (site.users name).any fun x => x.2.has type then site.reached name .chanop one
      else []).Sublist (site.wanted name type) ∧
    ((if free ∧ (site.users name).any fun x => x.2.has type then site.reached name .chanop one
      else []) = site.wanted name type ↔
      ((∃ x ∈ site.users name, x.2.has type = true) → free ∧ site.Clear name .chanop) ∧
        ∀ x ∈ site.users name, x.2.has type = true → x.2.has .chanop = true) := by
  have ops : (site.wanted name .chanop).Sublist (site.wanted name type) :=
    map_filter_sublist (has_of_chanop some_) _
  have opsAll : site.wanted name .chanop = site.wanted name type ↔ _ :=
    map_filter_eq_iff (has_of_chanop some_) _
  have present : ((site.users name).any fun x => x.2.has type) = true ↔
      ∃ x ∈ site.users name, x.2.has type = true := List.any_eq_true
  have nobody : site.wanted name type = [] ↔ ¬ ∃ x ∈ site.users name, x.2.has type = true := by
    simp [wanted]
  by_cases sends : free ∧ ((site.users name).any fun x => x.2.has type) = true
  · rw [if_pos sends]
    refine ⟨part.trans ops, ?_⟩
    rw [← opsAll, ← whole]
    constructor
    · intro same
      have between : site.reached name .chanop one = site.wanted name .chanop :=
        part.eq_of_length_le (same ▸ ops.length_le)
      exact ⟨fun _ => ⟨sends.1, between⟩, between ▸ same⟩
    · rintro ⟨clear, equal⟩
      exact (clear (present.1 sends.2)).2.trans equal
  · rw [if_neg sends]
    refine ⟨List.nil_sublist _, ?_⟩
    rw [eq_comm, nobody]
    constructor
    · intro none
      exact ⟨fun one => absurd one none, fun x inside has => absurd ⟨x, inside, has⟩ none⟩
    · rintro ⟨clear, -⟩ one
      exact sends ⟨(clear one).1, present.2 one⟩

theorem wanted_server {here : SiteState w} {n : Nat} {link up : Fin n → ClientId}
    {child : Fin n → Site w} {c : ChanId} (channel : here.tables.hashFindChannel name = some c)
    (type : MessageType) :
    (Site.server here n link up child).wanted name type =
      (((here.tables.chan c).members.filter fun lp => (here.tables.client lp.cptr).myConnect &&
        lp.flags.has type).map fun lp => here.tables.nameOf lp.cptr) ++
      (List.finRange n).flatMap fun i => (child i).wanted name type := by
  unfold wanted
  rw [users, channel, List.filter_append, List.map_append, List.filter_map, List.map_map,
    List.filter_filter, List.filter_flatMap, List.map_flatMap]
  refine congrArg (· ++ _) (congrArg (List.map _) (List.filter_congr fun lp _ => ?_))
  exact Bool.and_comm _ _

/-- Behind a server, the message gets to none but those that it is for, and to all of them where
the links are free. -/
theorem reached_ops {site : Site w} {one sptr : ClientId}
    (inStep : site.InStep name nick flags one sptr)
    (server : (site.here.tables.client one).isServer = true) :
    (site.reached name .chanop one).Sublist (site.wanted name .chanop) ∧
      (site.reached name .chanop one = site.wanted name .chanop ↔ site.Clear name .chanop) := by
  induction site generalizing one sptr with
  | server here n link up child ih =>
    obtain ⟨⟨c, knows⟩, next⟩ := inStep
    have own : ((here.tables.chan c).members.filter fun lp =>
        (here.tables.client lp.cptr).myConnect && (lp.flags.has .chanop && lp.cptr != one)) =
          (here.tables.chan c).members.filter fun lp =>
            (here.tables.client lp.cptr).myConnect && lp.flags.has .chanop := by
      apply List.filter_congr
      intro lp member
      have client : (here.tables.client lp.cptr).isClient = true := knows.client member
      have other : (lp.cptr != one) = true := by
        rw [bne_iff_ne]
        intro same
        have status : (here.tables.client lp.cptr).status = .server := by
          have server : (here.tables.client one).isServer = true := server
          rw [same]
          simpa [Client.isServer] using server
        simp [Client.isClient, status] at client
      rw [other, Bool.and_true]
    -- the sites behind each link, by induction on the tree
    have below : ∀ i, ((child i).reached name .chanop (up i)).Sublist ((child i).wanted name .chanop)
        ∧ ((child i).reached name .chanop (up i) = (child i).wanted name .chanop ↔
          (child i).Clear name .chanop) := by
      intro i
      obtain ⟨sptr', -, -, server, later⟩ := next i
      exact ih i later server
    have each := fun i => @overLink w name (child i) .chanop (up i) (here.Unmarked (link i)) _
      (by decide) (below i).1 (below i).2
    rw [wanted_server knows.channel, reached, knows.channel]
    dsimp only
    rw [own]
    constructor
    · exact (List.Sublist.refl _).append (sublist_flatMap fun i _ => (each i).1)
    · rw [sublist_append_eq_iff (List.Sublist.refl _) (sublist_flatMap fun i _ => (each i).1),
        sublist_flatMap_eq_iff fun i _ => (each i).1]
      unfold Clear
      constructor
      · rintro ⟨-, all⟩ i
        exact ((each i).2.1 (all i (List.mem_finRange i))).1
      · intro clear
        exact ⟨rfl, fun i _ => (each i).2.2 ⟨clear i, fun x _ op => op⟩⟩

/-- Where the sender is, the audience: the others of this server, and all that is wanted behind
each link. -/
theorem audience_server {here : SiteState w} {n : Nat} {link up : Fin n → ClientId}
    {child : Fin n → Site w} {c : ChanId} {sptr : ClientId} {type : MessageType}
    (knows : here.Knows name nick flags sptr sptr link (fun i => (child i).users name) c)
    (mine : (here.tables.client sptr).myConnect = true)
    (distinct : (((Site.server here n link up child).users name).map Prod.fst).Nodup) :
    (Site.server here n link up child).audience name type nick =
      (((here.tables.chan c).members.filter fun lp => (here.tables.client lp.cptr).myConnect &&
        (lp.flags.has type && lp.cptr != sptr)).map fun lp => here.tables.nameOf lp.cptr) ++
      (List.finRange n).flatMap fun i => (child i).wanted name type := by
  have named : here.tables.nameOf sptr = nick := knows.nick
  unfold audience wanted
  rw [users, knows.channel] at distinct ⊢
  rw [List.map_append, List.map_map, List.nodup_append] at distinct
  obtain ⟨own, -, apart⟩ := distinct
  have sender : nick ∈ ((here.tables.chan c).members.filter fun lp =>
      (here.tables.client lp.cptr).myConnect).map
        (Prod.fst ∘ fun lp => (here.tables.nameOf lp.cptr, lp.flags)) :=
    List.mem_map.2 ⟨_, List.mem_filter.2 ⟨knows.sender, mine⟩, named⟩
  rw [List.filter_append, List.map_append, List.filter_map, List.map_map, List.filter_filter,
    List.filter_flatMap, List.map_flatMap]
  congr 1
  · refine congrArg (List.map _) (List.filter_congr fun lp member => ?_)
    cases local_ : (here.tables.client lp.cptr).myConnect with
    | false => simp
    | true =>
      have same : here.tables.nameOf lp.cptr = nick ↔ lp.cptr = sptr := by
        constructor
        · intro same
          have equal := List.inj_on_of_nodup_map own
            (List.mem_filter.2 ⟨member, local_⟩) (List.mem_filter.2 ⟨knows.sender, mine⟩)
            (same.trans named.symm)
          exact congrArg Member.cptr equal
        · rintro equal
          rw [equal, named]
      simp [Function.comp, bne, beq_eq_decide, same]
  · apply congrArg (List.flatMap · (List.finRange n))
    funext i
    refine congrArg (List.map _) (List.filter_congr fun x inside => ?_)
    have other : x.1 ≠ nick := by
      rintro rfl
      exact apart _ sender x.1 (List.mem_map_of_mem (List.mem_flatMap.2
        ⟨i, List.mem_finRange i, inside⟩)) rfl
    simp [other]

/-- What is missed on the other servers where the message is for the voiced too: those who are
not ops. -/
theorem farOps_iff {site : Site w} {char : Char} {type : MessageType}
    (target : TypedTarget char name type) :
    (∀ x ∈ site.farUsers name, x.2.has type = true → x.2.has .chanop = true) ↔
      char = '@' ∨ ∀ x ∈ site.farUsers name, x.2.voice = true → x.2.chanop = true := by
  rcases target.scanned with ⟨rfl, rfl⟩ | ⟨rfl, rfl⟩
  · simp
  · have other : ¬ '+' = '@' := by decide
    rw [or_iff_right other]
    constructor
    · intro ops x inside voiced
      exact ops x inside (Bool.or_eq_true_iff.2 (Or.inr voiced))
    · intro ops x inside has
      rcases Bool.or_eq_true_iff.1 has with op | voiced
      · exact op
      · exact ops x inside voiced

/-- A message to the ops, or the ops and the voiced, of a channel reaches each of them once and
nobody else exactly when it is for the ops, or each voiced member on another server is an op
too, and no link that it has to go over carries the next serial. -/
theorem readers_audience_iff {site : Site w} {call : MessageCall} {char : Char}
    {type : MessageType} (inStep : site.InStep name nick flags call.cptr call.sptr)
    (own : call.cptr = call.sptr)
    (mine : (site.here.tables.client call.sptr).myConnect = true)
    (distinct : ((site.users name).map Prod.fst).Nodup)
    (passes : site.here.Passes call) (target : TypedTarget char name type)
    (privileged : flags.chanop = true ∨ flags.voice = true) :
    (site.readers call (char :: name)).Perm (site.audience name type nick) ↔
      (char = '@' ∨ ∀ x ∈ site.farUsers name, x.2.voice = true → x.2.chanop = true) ∧
        site.Clear name type := by
  rw [← farOps_iff target]
  obtain ⟨here, n, link, up, child⟩ := site
  have route : (here.tables.client call.sptr).myClient = true ∨
      (here.tables.client call.sptr).from_ = call.cptr := by
    obtain ⟨⟨c, knows⟩, -⟩ := inStep
    exact Or.inr ((knows.connected.mine _ mine).trans own.symm)
  rw [readers_eq inStep route passes target privileged]
  obtain ⟨⟨c, knows⟩, next⟩ := inStep
  rw [own] at knows ⊢
  have below : ∀ i, ((child i).reached name .chanop (up i)).Sublist ((child i).wanted name .chanop)
      ∧ ((child i).reached name .chanop (up i) = (child i).wanted name .chanop ↔
        (child i).Clear name .chanop) := by
    intro i
    obtain ⟨sptr', -, -, server, later⟩ := next i
    exact reached_ops later server
  have each := fun i => @overLink w name (child i) type (up i) (here.Unmarked (link i)) _
    target.type_ne (below i).1 (below i).2
  rw [audience_server knows mine distinct, reached, knows.channel]
  dsimp only
  have part := @sublist_flatMap _ _ _ _ (List.finRange n) fun i _ => (each i).1
  -- nobody is reached who is not meant, so the two lists differ only in who is missing
  have perm : ∀ {xs ys : List CStr}, xs.Sublist ys → (xs.Perm ys ↔ xs = ys) := by
    intro xs ys inside
    constructor
    · exact fun same => inside.eq_of_length same.length_eq
    · rintro rfl
      exact List.Perm.refl _
  rw [perm ((List.Sublist.refl _).append part),
    sublist_append_eq_iff (List.Sublist.refl _) part, sublist_flatMap_eq_iff fun i _ => (each i).1]
  constructor
  · rintro ⟨-, all⟩
    constructor
    · intro x far has
      obtain ⟨i, -, inside⟩ := List.mem_flatMap.1 far
      exact ((each i).2.1 (all i (List.mem_finRange i))).2 x inside has
    · exact fun i => ((each i).2.1 (all i (List.mem_finRange i))).1
  · rintro ⟨ops, clear⟩
    refine ⟨rfl, fun i _ => (each i).2.2 ⟨clear i, fun x inside has => ?_⟩⟩
    exact ops x (List.mem_flatMap.2 ⟨i, List.mem_finRange i, inside⟩) has

end Site

def pairServer (own far : CStr) (ownFlags farFlags : MemberFlags) : SiteState 32 where
  msg :=
    { world := { FludHeap.calmWorld with toTables := pairTables own far ownFlags farFlags }
      fludblock := fun _ => 0
      fluders := fun _ => []
      fludees := fun _ => []
      isFlud := 0
      drone := fun _ => ⟨0, 0, 0⟩
      sendQ := fun _ => 0
      sent := [] }
  send := { SendState.startUp 32 with fd := relayFd, capChw := fun _ => true }

def twoServers (ollys annas : MemberFlags) : Site 32 :=
  .server (pairServer (lit "olly") (lit "anna") ollys annas) 1 (fun _ => 1) (fun _ => 1) fun _ =>
    .server (pairServer (lit "anna") (lit "olly") annas ollys) 0 Fin.elim0 Fin.elim0 Fin.elim0

theorem pairServer_knows {n : Nat} {own far nick : CStr} {ownFlags farFlags flags : MemberFlags}
    {one sptr : ClientId} {link : Fin n → ClientId} {users : Fin n → List (CStr × MemberFlags)}
    (sender : sptr = 3 ∧ flags = ownFlags ∧ nick = own ∨ sptr = 2 ∧ flags = farFlags ∧ nick = far)
    (links : ∀ i, link i = 1) (side : n = 1 ∧ one = 3 ∨ n = 0 ∧ one = 1)
    (behind : ∀ i, users i = [(far, farFlags)]) :
    (pairServer own far ownFlags farFlags).Knows (lit "#c") nick flags one sptr link users 0 where
  channel := rfl
  nodup := by
    show ((pairTables own far ownFlags farFlags).chan 0).memberIds.Nodup
    rw [pairTables_members]
    decide
  connected := pairTables_connected own far ownFlags farFlags
  links u inside _ := by
    have inside : u ∈ ((pairTables own far ownFlags farFlags).chan 0).memberIds := inside
    rw [pairTables_members] at inside
    simp only [if_true, List.mem_cons, List.not_mem_nil, or_false] at inside
    rcases inside with rfl | rfl
    · exact Int.natCast_nonneg 5
    · exact Int.natCast_nonneg 4
  sender := by
    rcases sender with ⟨rfl, rfl, -⟩ | ⟨rfl, rfl, -⟩
    · exact List.mem_cons_self
    · exact List.mem_cons_of_mem _ List.mem_cons_self
  nick := by
    rcases sender with ⟨rfl, -, rfl⟩ | ⟨rfl, -, rfl⟩
    · rfl
    · rfl
  chw _ := rfl
  server i := by
    rw [links i]
    rfl
  distinct i j _ := by omega
  other i := by
    rw [links i]
    rcases side with ⟨-, rfl⟩ | ⟨rfl, -⟩
    · decide
    · exact i.elim0
  behind u inside away := by
    have inside : u ∈ ((pairTables own far ownFlags farFlags).chan 0).memberIds := inside
    rw [pairTables_members] at inside
    simp only [if_true, List.mem_cons, List.not_mem_nil, or_false] at inside
    rcases inside with rfl | rfl
    · cases away
    · rcases side with ⟨rfl, -⟩ | ⟨-, rfl⟩
      · exact Or.inr ⟨0, (links 0).symm⟩
      · exact Or.inl rfl
  users i := by
    rw [links i, behind i]
    exact List.Perm.refl [(far, farFlags)]

theorem twoServers_inStep (ollys annas : MemberFlags) :
    (twoServers ollys annas).InStep (lit "#c") (lit "olly") ollys 3 3 := by
  refine ⟨⟨0, ?_⟩, fun i => ⟨2, rfl, rfl, rfl, ⟨0, ?_⟩, fun i => i.elim0⟩⟩
  · exact pairServer_knows (Or.inl ⟨rfl, rfl, rfl⟩) (fun _ => rfl) (Or.inl ⟨rfl, rfl⟩)
      fun _ => rfl
  · exact pairServer_knows (Or.inr ⟨rfl, rfl, rfl⟩) (fun i => i.elim0) (Or.inr ⟨rfl, rfl⟩)
      fun i => i.elim0

def ollyCall : MessageCall where
  cptr := 3
  sptr := 3
  parv0 := lit "olly"
  text := lit "hi"
  notice := false

def voiced : MemberFlags := { MemberFlags.none with voice := true }
def opped : MemberFlags := { MemberFlags.none with chanop := true }

/-- What olly says to the voiced of `#c` is passed on for the ops, and anna never reads it. -/
theorem twoServers_misses :
    (twoServers opped voiced).InStep (lit "#c") (lit "olly") opped ollyCall.cptr ollyCall.sptr ∧
      (twoServers opped voiced).here.Passes ollyCall ∧
      TypedTarget '+' (lit "#c") .chanopVoice ∧
      ¬ ((twoServers opped voiced).readers ollyCall ('+' :: lit "#c")).Perm
        ((twoServers opped voiced).audience (lit "#c") .chanopVoice (lit "olly")) := by
  refine ⟨twoServers_inStep _ _, ⟨by decide, fun _ => by decide⟩, ⟨by decide, rfl, by decide⟩, ?_⟩
  have readers : (twoServers opped voiced).readers ollyCall ('+' :: lit "#c") = [] := by
    decide +kernel
  have audience : (twoServers opped voiced).audience (lit "#c") .chanopVoice (lit "olly") =
      [lit "anna"] := by
    decide +kernel
  rw [readers, audience]
  exact fun same => absurd same.length_eq (by decide)

theorem twoServers_reached :
    ((twoServers opped opped).readers ollyCall ('@' :: lit "#c")).Perm
        ((twoServers opped opped).audience (lit "#c") .chanop (lit "olly")) ↔
      ('@' = '@' ∨ ∀ x ∈ (twoServers opped opped).farUsers (lit "#c"),
        x.2.voice = true → x.2.chanop = true) ∧
        (twoServers opped opped).Clear (lit "#c") .chanop :=
  Site.readers_audience_iff (twoServers_inStep opped opped) rfl rfl (by decide +kernel)
    ⟨by decide, fun _ => by decide⟩ ⟨by decide, rfl, by decide⟩ (Or.inl rfl)

end Ircd
