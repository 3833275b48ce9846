import Ircd.Channel.Membership
import Ircd.Lib.Marks
import Ircd.Message.Message

/-! The broadcasts of `send.c` that walk the members of a channel.

`sentalong` holds for each file descriptor the serial of the last broadcast that went out
over it. The serial is an `unsigned long` of `w` bits and starts again at 0.
-/

set_option autoImplicit false

namespace Ircd

/-- What the send functions need to know of the connections, and the statics of `send.c`. -/
structure SendState (w : Nat) where
  fd : ClientId → Int
  capChw : ClientId → Bool
  sentalong : Int → BitVec w
  currentSerial : BitVec w

/-- What `vsendto_prefix_one` does: it sends a line, or finds that the line would go back to
where it came from, and drops it or kills the recipient. -/
inductive SentLine (τ : Type) where
  | line (to_ : ClientId) (text : τ)
  | fakeDirection (to_ : ClientId)
  | ghosted (to_ : ClientId)
  deriving DecidableEq, Repr

section

variable {w : Nat} {τ : Type}

def Tables.vsendtoPrefixOne (t : Tables) (to_ from_ : ClientId) (text : τ) : SentLine τ :=
  if !(t.client from_).myClient ∧ (t.client to_).isPerson ∧
      (t.client to_).from_ = (t.client from_).from_ then
    if (t.client from_).isServer then .fakeDirection to_ else .ghosted to_
  else .line to_ text

namespace SendState

/-- What the loop of `sendto_channel_butone` does for a member. -/
def butoneTurn (t : Tables) (one : Option ClientId) (acptr : ClientId) : Turn :=
  if some (t.client acptr).from_ = one then .skip
  else if (t.client acptr).myConnect ∧ (t.client acptr).isClient then .sendMark
  else .sendOnce

def sendtoChannelButone (s : SendState w) (t : Tables) (one : Option ClientId)
    (from_ : ClientId) (chptr : ChanId) (text : τ) : SendState w × List (SentLine τ) :=
  let serial := s.currentSerial + 1
  let (sentalong, sent) := Marks.walk (butoneTurn t one)
    (fun acptr => s.fd (t.client acptr).from_) serial s.sentalong (t.chan chptr).memberIds
  ({ s with sentalong := sentalong, currentSerial := serial },
    sent.map fun acptr => t.vsendtoPrefixOne acptr from_ text)

/-- What the inner loop of `sendto_common_channels` does for a member. -/
def commonTurn (s : SendState w) (t : Tables) (cptr : ClientId) : Turn :=
  if !(t.client cptr).myConnect ∨ s.fd cptr < 0 then .skip else .sendOnce

/-- The members that the two loops of `sendto_common_channels` come by. -/
def commonMembers (t : Tables) (user : ClientId) : List ClientId :=
  if (t.client user).user then
    (t.client user).channel.flatMap fun chptr => (t.chan chptr).memberIds
  else []

def sendtoCommonChannels (s : SendState w) (t : Tables) (user : ClientId) (text : τ) :
    SendState w × List (SentLine τ) :=
  let serial := s.currentSerial + 1
  let sentalong :=
    if s.fd user ≥ 0 then Function.update s.sentalong (s.fd user) serial else s.sentalong
  let (sentalong, sent) :=
    Marks.walk (s.commonTurn t) s.fd serial sentalong (commonMembers t user)
  let self := if (t.client user).myConnect then [t.vsendtoPrefixOne user user text] else []
  ({ s with sentalong := sentalong, currentSerial := serial },
    (sent.map fun cptr => t.vsendtoPrefixOne cptr user text) ++ self)

end SendState

/-- A line that goes out over the connection `link`. -/
def SentLine.reaches (t : Tables) (link : ClientId) : SentLine τ → Bool
  | .line to_ _ => (t.client to_).from_ == link
  | _ => false

/-- The connections of the members of channels: a client of this server is its own, any other
is behind a server link, and open connections have descriptors of their own. -/
structure Connected (t : Tables) (fd : ClientId → Int) : Prop where
  person : ∀ c, ∀ u ∈ (t.chan c).memberIds, (t.client u).isPerson = true
  mine : ∀ u, (t.client u).myConnect = true → (t.client u).from_ = u
  behind : ∀ c, ∀ u ∈ (t.chan c).memberIds, (t.client u).myConnect = false →
    (t.client (t.client u).from_).isServer = true
  fd_inj : ∀ u v, 0 ≤ fd u → fd u = fd v → u = v
  remote : ∀ u, (t.client u).myConnect = false → fd u < 0

/-- Each client of this server on the channel is sent one line, and so is each link with a
member behind it, `one` apart; nothing else is sent. -/
structure ChannelDelivery (t : Tables) (one : Option ClientId) (chptr : ChanId)
    (out : List (SentLine τ)) : Prop where
  mine : ∀ u ∈ (t.chan chptr).memberIds, (t.client u).myConnect = true → some u ≠ one →
    out.countP (·.reaches t u) = 1
  link : ∀ u ∈ (t.chan chptr).memberIds, (t.client u).myConnect = false →
    some (t.client u).from_ ≠ one → out.countP (·.reaches t (t.client u).from_) = 1
  other : ∀ k, some k = one ∨ (∀ u ∈ (t.chan chptr).memberIds, (t.client u).from_ ≠ k) →
    out.countP (·.reaches t k) = 0

def Tables.Share (t : Tables) (u v : ClientId) : Prop :=
  ∃ c ∈ (t.client u).channel, v ∈ (t.chan c).memberIds

/-- Each client of this server that shares a channel with `user` is sent one line, and nobody
else but `user` itself. -/
structure CommonDelivery (t : Tables) (user : ClientId) (out : List (SentLine τ)) : Prop where
  shares : ∀ v, (t.client v).myConnect = true → t.Share user v → out.countP (·.reaches t v) = 1
  other : ∀ v, ¬ ((t.client v).myConnect = true ∧ (v = user ∨ t.Share user v)) →
    out.countP (·.reaches t v) = 0

theorem Connected.own {t : Tables} {fd : ClientId → Int} (connected : Connected t fd)
    {chptr : ChanId} {u v : ClientId} (member : u ∈ (t.chan chptr).memberIds)
    (member' : v ∈ (t.chan chptr).memberIds) (same : (t.client v).from_ = u) : v = u := by
  cases mine : (t.client v).myConnect with
  | true => exact (connected.mine v mine).symm.trans same
  | false =>
    have server := connected.behind chptr v member' mine
    have person := connected.person chptr u member
    rw [same] at server
    have status : (t.client u).status = .server := by simpa [Client.isServer] using server
    simp [Client.isPerson, Client.isClient, status] at person

theorem Connected.away {t : Tables} {fd : ClientId → Int} (connected : Connected t fd)
    {chptr : ChanId} {u v : ClientId} (member : u ∈ (t.chan chptr).memberIds)
    (remote : (t.client u).myConnect = false) (member' : v ∈ (t.chan chptr).memberIds)
    (same : (t.client v).from_ = (t.client u).from_) : (t.client v).myConnect = false := by
  cases mine : (t.client v).myConnect with
  | false => rfl
  | true =>
    have server := connected.behind chptr u member remote
    have person := connected.person chptr v member'
    rw [← same, connected.mine v mine] at server
    have status : (t.client v).status = .server := by simpa [Client.isServer] using server
    simp [Client.isPerson, Client.isClient, status] at person

theorem countP_lines (t : Tables) (lines : List ClientId) (text : τ) (link : ClientId) :
    (lines.map fun u => SentLine.line u text).countP (·.reaches t link) =
      (lines.filter fun u => (t.client u).from_ = link).length := by
  rw [List.countP_map, List.countP_eq_length_filter]
  congr 1

namespace SendState

variable {s : SendState w} {t : Tables} {one : Option ClientId} {from_ user : ClientId}
  {chptr : ChanId}

theorem butoneTurn_sent {u : ClientId} (sent : butoneTurn t one u ≠ .skip) :
    some (t.client u).from_ ≠ one := by
  intro same
  exact sent (if_pos same)

/-- A line does not go back where it came from if `one` is the link that it came from. -/
theorem vsendtoPrefixOne_butone
    (route : (t.client from_).myClient = true ∨ one = some (t.client from_).from_) {u : ClientId}
    (apart : some (t.client u).from_ ≠ one) (text : τ) :
    t.vsendtoPrefixOne u from_ text = .line u text := by
  unfold Tables.vsendtoPrefixOne
  rw [if_neg]
  rintro ⟨away, -, same⟩
  cases route with
  | inl mine => simp [mine] at away
  | inr link => exact apart (link ▸ congrArg some same)

def butoneSent (s : SendState w) (t : Tables) (one : Option ClientId) (chptr : ChanId) :
    List ClientId :=
  (Marks.walk (butoneTurn t one) (fun acptr => s.fd (t.client acptr).from_) (s.currentSerial + 1)
    s.sentalong (t.chan chptr).memberIds).2

theorem butone_lines
    (route : (t.client from_).myClient = true ∨ one = some (t.client from_).from_) (text : τ) :
    (s.sendtoChannelButone t one from_ chptr text).2 =
      (s.butoneSent t one chptr).map fun u => .line u text := by
  apply List.map_congr_left
  intro u inside
  exact vsendtoPrefixOne_butone route (butoneTurn_sent (Marks.of_mem_walk inside).2) text

section

variable (connected : Connected t s.fd)
  (opened : ∀ u ∈ (t.chan chptr).memberIds, some (t.client u).from_ ≠ one →
    0 ≤ s.fd (t.client u).from_)
include connected opened

theorem butoneSent_slot (link : ClientId) :
    (s.butoneSent t one chptr).filter (fun u => (t.client u).from_ = link) =
      (s.butoneSent t one chptr).filter fun u => s.fd (t.client u).from_ = s.fd link := by
  apply List.filter_congr
  intro u inside
  obtain ⟨member, turn⟩ := Marks.of_mem_walk inside
  have slot : (t.client u).from_ = link ↔ s.fd (t.client u).from_ = s.fd link :=
    ⟨congrArg s.fd, connected.fd_inj _ _ (opened u member (butoneTurn_sent turn))⟩
  exact decide_eq_decide.2 slot

theorem butoneSent_mine (nodup : (t.chan chptr).memberIds.Nodup) {u : ClientId}
    (member : u ∈ (t.chan chptr).memberIds) (mine : (t.client u).myConnect = true)
    (apart : some u ≠ one) :
    ((s.butoneSent t one chptr).filter fun v => (t.client v).from_ = u).length = 1 := by
  have own := connected.mine u mine
  have open_ : 0 ≤ s.fd u := by
    have open_ := opened u member (own.symm ▸ apart)
    rwa [own] at open_
  -- no other member is reached over the descriptor of a client of ours
  have alone : ∀ v ∈ (t.chan chptr).memberIds, s.fd (t.client v).from_ = s.fd u → v = u :=
    fun v member' same =>
      connected.own member member' (connected.fd_inj _ _ open_ same.symm).symm
  have turn : butoneTurn t one u = .sendMark := by
    have client : (t.client u).isClient = true := by
      have person := connected.person chptr u member
      simp only [Client.isPerson, Bool.and_eq_true] at person
      exact person.1
    unfold butoneTurn
    rw [own, if_neg apart, if_pos ⟨mine, client⟩]
  have walked := @Marks.filter_walk ClientId Int (BitVec w) _ _ (butoneTurn t one)
    (fun acptr => s.fd (t.client acptr).from_) (s.currentSerial + 1) s.sentalong
    (t.chan chptr).memberIds (fun v => s.fd (t.client v).from_ = s.fd u) (by
      intro v member' same
      rw [alone v member' (of_decide_eq_true same), turn]
      exact fun absurdity => by cases absurdity)
  rw [butoneSent_slot connected opened, butoneSent, walked, ← List.countP_eq_length_filter]
  have only : (t.chan chptr).memberIds.countP
      (fun v => decide (s.fd (t.client v).from_ = s.fd u) ∧ butoneTurn t one v ≠ .skip) =
        (t.chan chptr).memberIds.count u := by
    apply List.countP_congr
    intro v member'
    simp only [decide_eq_true_eq, beq_iff_eq]
    constructor
    · exact fun both => alone v member' both.1
    · rintro rfl
      exact ⟨by rw [own], by simp [turn]⟩
  rw [only]
  exact List.count_eq_one_of_mem nodup member

theorem butoneSent_link {u : ClientId} (member : u ∈ (t.chan chptr).memberIds)
    (remote : (t.client u).myConnect = false) (apart : some (t.client u).from_ ≠ one) :
    ((s.butoneSent t one chptr).filter fun v => (t.client v).from_ = (t.client u).from_).length =
      if s.sentalong (s.fd (t.client u).from_) ≠ s.currentSerial + 1 then 1 else 0 := by
  have open_ := opened u member apart
  have away : ∀ v ∈ (t.chan chptr).memberIds,
      s.fd (t.client v).from_ = s.fd (t.client u).from_ → (t.client v).myConnect = false :=
    fun v member' same =>
      connected.away member remote member' (connected.fd_inj _ _ open_ same.symm).symm
  have turn : butoneTurn t one u = .sendOnce := by
    unfold butoneTurn
    rw [if_neg apart, if_neg]
    simp [remote]
  have walked := @Marks.length_walk ClientId Int (BitVec w) _ _ (butoneTurn t one)
    (fun acptr => s.fd (t.client acptr).from_) (s.currentSerial + 1) s.sentalong
    (t.chan chptr).memberIds (s.fd (t.client u).from_) (by
      intro v member' same
      unfold butoneTurn
      split
      · exact Or.inl rfl
      · rw [if_neg (by simp [away v member' same])]
        exact Or.inr rfl)
  rw [butoneSent_slot connected opened, butoneSent, walked]
  have some : ∃ v ∈ (t.chan chptr).memberIds,
      s.fd (t.client v).from_ = s.fd (t.client u).from_ ∧ butoneTurn t one v = .sendOnce :=
    ⟨u, member, rfl, turn⟩
  simp only [some, and_true]

/-- The broadcast is delivered but for links whose descriptor carries its serial already. -/
theorem channelDelivery_iff (mirror : MembershipMirror t)
    (route : (t.client from_).myClient = true ∨ one = some (t.client from_).from_) (text : τ) :
    ChannelDelivery t one chptr (s.sendtoChannelButone t one from_ chptr text).2 ↔
      ∀ u ∈ (t.chan chptr).memberIds, (t.client u).myConnect = false →
        some (t.client u).from_ ≠ one →
          s.sentalong (s.fd (t.client u).from_) ≠ s.currentSerial + 1 := by
  rw [butone_lines route]
  constructor
  · intro delivery u member remote apart marked
    have one := delivery.link u member remote apart
    rw [countP_lines, butoneSent_link connected opened member remote apart, if_neg (by simp [marked])]
      at one
    cases one
  · intro clear
    refine ⟨fun u member mine apart => ?_, fun u member remote apart => ?_, fun k nobody => ?_⟩
    · rw [countP_lines]
      exact butoneSent_mine connected opened (mirror.members_nodup chptr) member mine apart
    · rw [countP_lines, butoneSent_link connected opened member remote apart,
        if_pos (clear u member remote apart)]
    · rw [countP_lines, List.length_eq_zero_iff, List.filter_eq_nil_iff]
      intro u inside same
      have here : (t.client u).from_ = k := by simpa using same
      obtain ⟨member, turn⟩ := Marks.of_mem_walk inside
      cases nobody with
      | inl skipped => exact butoneTurn_sent turn (here ▸ skipped)
      | inr none => exact none u member here

end

/-- The marks with which the loops of `sendto_common_channels` start. -/
def commonMarks (s : SendState w) (user : ClientId) : Int → BitVec w :=
  if s.fd user ≥ 0 then Function.update s.sentalong (s.fd user) (s.currentSerial + 1)
  else s.sentalong

def commonSent (s : SendState w) (t : Tables) (user : ClientId) : List ClientId :=
  (Marks.walk (s.commonTurn t) s.fd (s.currentSerial + 1) (s.commonMarks user)
    (commonMembers t user)).2

theorem mem_commonMembers (mirror : MembershipMirror t) (connected : Connected t s.fd)
    {v : ClientId} : v ∈ commonMembers t user ↔ t.Share user v := by
  unfold commonMembers Tables.Share
  split
  · rw [List.mem_flatMap]
  · next nobody =>
    refine iff_of_false List.not_mem_nil ?_
    rintro ⟨c, inside, -⟩
    have person := connected.person c user ((mirror.member_iff user c).2 inside)
    simp only [Client.isPerson, Bool.and_eq_true] at person
    exact nobody person.2

theorem commonTurn_sent {v : ClientId} (sent : s.commonTurn t v ≠ .skip) :
    (t.client v).myConnect = true ∧ 0 ≤ s.fd v := by
  unfold commonTurn at sent
  split at sent
  · exact absurd rfl sent
  · next open_ =>
    rw [not_or, Bool.not_eq_true'] at open_
    exact ⟨by simpa using open_.1, Int.not_lt.1 open_.2⟩

theorem commonTurn_eq (v : ClientId) : s.commonTurn t v = .skip ∨ s.commonTurn t v = .sendOnce := by
  unfold commonTurn
  split
  · exact Or.inl rfl
  · exact Or.inr rfl

theorem commonSent_length (connected : Connected t s.fd) (v : ClientId) :
    ((s.commonSent t user).filter fun x => (t.client x).from_ = v).length =
      if s.commonMarks user (s.fd v) ≠ s.currentSerial + 1 ∧ v ∈ commonMembers t user ∧
        s.commonTurn t v = .sendOnce then 1 else 0 := by
  have slot : (s.commonSent t user).filter (fun x => (t.client x).from_ = v) =
      (s.commonSent t user).filter fun x => s.fd x = s.fd v := by
    apply List.filter_congr
    intro x inside
    obtain ⟨mine, open_⟩ := commonTurn_sent (Marks.of_mem_walk inside).2
    apply decide_eq_decide.2
    rw [connected.mine x mine]
    exact ⟨congrArg s.fd, connected.fd_inj x v open_⟩
  have walked := @Marks.length_walk ClientId Int (BitVec w) _ _ (s.commonTurn t) s.fd
    (s.currentSerial + 1) (s.commonMarks user) (commonMembers t user) (s.fd v)
    fun x _ _ => s.commonTurn_eq x
  rw [slot, commonSent, walked]
  congr 1
  apply propext
  apply and_congr_right'
  constructor
  · rintro ⟨x, member, same, turn⟩
    have here := connected.fd_inj x v (commonTurn_sent (by rw [turn]; decide)).2 same
    subst here
    exact ⟨member, turn⟩
  · rintro ⟨member, turn⟩
    exact ⟨v, member, rfl, turn⟩

section

variable (mirror : MembershipMirror t) (connected : Connected t s.fd)
include mirror connected

theorem common_lines (text : τ) :
    (s.sendtoCommonChannels t user text).2 =
      (s.commonSent t user ++ if (t.client user).myConnect then [user] else []).map
        fun u => .line u text := by
  -- only a line to the link of its own sender is held back
  have other : ∀ v ∈ s.commonSent t user, t.vsendtoPrefixOne v user text = .line v text := by
    intro v inside
    obtain ⟨member, turn⟩ := Marks.of_mem_walk inside
    obtain ⟨c, listed, member'⟩ := (mem_commonMembers mirror connected).1 member
    have user' := (mirror.member_iff user c).2 listed
    obtain ⟨mine, -⟩ := commonTurn_sent turn
    unfold Tables.vsendtoPrefixOne
    rw [if_neg]
    rintro ⟨away, -, same⟩
    rw [connected.mine v mine] at same
    have here := connected.own member' user' same.symm
    have person := connected.person c user user'
    simp only [Client.isPerson, Bool.and_eq_true] at person
    rw [here] at person
    simp [here, Client.myClient, mine, person.1] at away
  have self : ∀ v, v = user → (t.client user).myConnect = true →
      t.vsendtoPrefixOne v user text = .line v text := by
    rintro v rfl mine
    unfold Tables.vsendtoPrefixOne
    rw [if_neg]
    rintro ⟨away, person, -⟩
    simp only [Client.isPerson, Bool.and_eq_true] at person
    simp [Client.myClient, mine, person.1] at away
  rw [List.map_append]
  have front : (s.commonSent t user).map (fun v => t.vsendtoPrefixOne v user text) =
      (s.commonSent t user).map fun u => .line u text := List.map_congr_left other
  have back : (if (t.client user).myConnect then [t.vsendtoPrefixOne user user text] else []) =
      (if (t.client user).myConnect then [user] else []).map fun u => SentLine.line u text := by
    split
    · next mine => simp [self user rfl mine]
    · rfl
  rw [← front, ← back]
  rfl

/-- The broadcast is delivered but for clients whose descriptor carries its serial already. -/
theorem commonDelivery_iff
    (opened : ∀ v, (t.client v).myConnect = true → t.Share user v → v ≠ user → 0 ≤ s.fd v)
    (text : τ) :
    CommonDelivery t user (s.sendtoCommonChannels t user text).2 ↔
      ∀ v, (t.client v).myConnect = true → t.Share user v → v ≠ user →
        s.sentalong (s.fd v) ≠ s.currentSerial + 1 := by
  have marks : ∀ v, 0 ≤ s.fd v → v ≠ user →
      s.commonMarks user (s.fd v) = s.sentalong (s.fd v) := by
    intro v open_ other
    unfold commonMarks
    split
    · apply Function.update_of_ne
      exact fun same => other (connected.fd_inj v user open_ same)
    · rfl
  -- a client on several channels is met several times, and the mark of its descriptor lets
  -- one turn through
  have loops : ∀ v, (t.client v).myConnect = true → t.Share user v → v ≠ user →
      ((s.commonSent t user).filter fun x => (t.client x).from_ = v).length =
        if s.sentalong (s.fd v) ≠ s.currentSerial + 1 then 1 else 0 := by
    intro v mine share other
    have open_ := opened v mine share other
    have turn : s.commonTurn t v = .sendOnce := by
      unfold commonTurn
      rw [if_neg]
      rintro (away | closed)
      · simp [mine] at away
      · exact absurd open_ (Int.not_le.2 closed)
    have member := (mem_commonMembers mirror connected).2 share
    rw [commonSent_length connected, marks v open_ other]
    simp only [member, turn, and_true]
  -- the user gets its copy outside the loops
  have own : ((s.commonSent t user).filter fun x => (t.client x).from_ = user).length = 0 := by
    rw [commonSent_length connected, if_neg]
    rintro ⟨unmarked, -, turn⟩
    have open_ := (commonTurn_sent (by rw [turn]; decide)).2
    apply unmarked
    unfold commonMarks
    rw [if_pos open_, Function.update_self]
  have self : ∀ v, ((if (t.client user).myConnect then [user] else []).filter fun x =>
      (t.client x).from_ = v).length =
        if (t.client user).myConnect = true ∧ v = user then 1 else 0 := by
    intro v
    cases mine : (t.client user).myConnect with
    | false => simp
    | true =>
      have from_ := connected.mine user mine
      by_cases here : v = user
      · simp [from_, here]
      · simp [from_, here, Ne.symm here]
  have count : ∀ v, ((s.sendtoCommonChannels t user text).2.countP (·.reaches t v)) =
      ((s.commonSent t user).filter fun x => (t.client x).from_ = v).length +
        if (t.client user).myConnect = true ∧ v = user then 1 else 0 := by
    intro v
    rw [common_lines mirror connected, countP_lines, List.filter_append, List.length_append, self]
  constructor
  · intro delivery v mine share other marked
    have one := delivery.shares v mine share
    rw [count, loops v mine share other, if_neg (by simp [marked]), if_neg (by simp [other])] at one
    cases one
  · intro clear
    refine ⟨fun v mine share => ?_, fun v nobody => ?_⟩
    · rw [count]
      by_cases here : v = user
      · subst here
        rw [own, if_pos ⟨mine, rfl⟩]
      · rw [loops v mine share here, if_pos (clear v mine share here), if_neg (by simp [here])]
    · rw [count, commonSent_length connected, if_neg, if_neg]
      · rintro ⟨mine, here⟩
        exact nobody ⟨here ▸ mine, Or.inl here⟩
      · rintro ⟨-, member, turn⟩
        have share := (mem_commonMembers mirror connected).1 member
        exact nobody ⟨(commonTurn_sent (by rw [turn]; decide)).1, Or.inr share⟩

end

/-- Both broadcasts are delivered exactly where no descriptor that they need carries the next
serial. -/
theorem broadcasts_delivered_iff (mirror : MembershipMirror t) (connected : Connected t s.fd)
    (route : (t.client from_).myClient = true ∨ one = some (t.client from_).from_)
    (links : ∀ u ∈ (t.chan chptr).memberIds, some (t.client u).from_ ≠ one →
      0 ≤ s.fd (t.client u).from_)
    (clients : ∀ v, (t.client v).myConnect = true → t.Share user v → v ≠ user → 0 ≤ s.fd v)
    (text : τ) :
    (ChannelDelivery t one chptr (s.sendtoChannelButone t one from_ chptr text).2 ↔
      ∀ u ∈ (t.chan chptr).memberIds, (t.client u).myConnect = false →
        some (t.client u).from_ ≠ one →
          s.sentalong (s.fd (t.client u).from_) ≠ s.currentSerial + 1) ∧
    (CommonDelivery t user (s.sendtoCommonChannels t user text).2 ↔
      ∀ v, (t.client v).myConnect = true → t.Share user v → v ≠ user →
        s.sentalong (s.fd v) ≠ s.currentSerial + 1) :=
  ⟨channelDelivery_iff connected links mirror route text,
    commonDelivery_iff mirror connected clients text⟩

end SendState

end

/-- The broadcasts, and the connections that come and go between them. -/
inductive BroadcastEvent where
  | channelButone (t : Tables) (one : Option ClientId) (chptr : ChanId)
  | commonChannels (t : Tables) (user : ClientId)
  | rewire (fd : ClientId → Int) (capChw : ClientId → Bool)

namespace SendState

variable {w : Nat}

def event (s : SendState w) : BroadcastEvent → SendState w
  | .channelButone t one chptr => (s.sendtoChannelButone t one t.me chptr ()).1
  | .commonChannels t user => (s.sendtoCommonChannels t user ()).1
  | .rewire fd capChw => { s with fd := fd, capChw := capChw }

def machine (w : Nat) : Machine (SendState w) BroadcastEvent := { step := event }

def startUp (w : Nat) : SendState w where
  fd := fun _ => -1
  capChw := fun _ => false
  sentalong := fun _ => 0
  currentSerial := 0

end SendState

/-! A server with a link, and with one member of `#c` of its own and one behind the link. -/

def pairTables (own far : CStr) (ownFlags farFlags : MemberFlags) : Tables :=
  let t := (Server.startUp (lit "irc.net") 100000).toTables
  let t := ((t.addClient 1 linkOne).addClient 2 { anna with name := far }).addClient 3
    { olly with name := own }
  ((t.createChannel (lit "#c")).addUserToChannel 0 2 farFlags).addUserToChannel 0 3 ownFlags

def relayFd (u : ClientId) : Int := if u = 1 then 4 else if u = 3 then 5 else -1

section

variable (own far : CStr) (ownFlags farFlags : MemberFlags)

theorem pairTables_members (c : ChanId) :
    ((pairTables own far ownFlags farFlags).chan c).memberIds = if c = 0 then [3, 2] else [] := by
  cases c with
  | zero => rfl
  | succ c => rfl

theorem pairTables_connected : Connected (pairTables own far ownFlags farFlags) relayFd where
  person c u inside := by
    rw [pairTables_members] at inside
    split at inside
    · simp only [List.mem_cons, List.not_mem_nil, or_false] at inside
      rcases inside with rfl | rfl
      · rfl
      · rfl
    · cases inside
  mine u mine := by
    rcases u with _ | _ | _ | _ | u
    · cases mine
    · rfl
    · cases mine
    · rfl
    · cases mine
  behind c u inside remote := by
    rw [pairTables_members] at inside
    split at inside
    · simp only [List.mem_cons, List.not_mem_nil, or_false] at inside
      rcases inside with rfl | rfl
      · cases remote
      · rfl
    · cases inside
  fd_inj u v open_ same := by
    unfold relayFd at open_ same
    split_ifs at open_ same <;> simp_all
  remote u away := by
    rcases u with _ | _ | _ | _ | u
    · decide
    · cases away
    · decide
    · cases away
    · have other : u + 4 ≠ 1 ∧ u + 4 ≠ 3 := by omega
      rw [relayFd, if_neg other.1, if_neg other.2]
      decide

end

def relayTables : Tables :=
  let t := (Server.startUp (lit "irc.net") 100000).toTables
  let t := ((t.addClient 1 linkOne).addClient 2 anna).addClient 3 olly
  ((t.createChannel (lit "#c")).addUserToChannel 0 2 MemberFlags.none).addUserToChannel 0 3
    MemberFlags.none

theorem relayTables_members (c : ChanId) :
    (relayTables.chan c).memberIds = if c = 0 then [3, 2] else [] := by
  cases c with
  | zero => rfl
  | succ c => rfl

theorem relayTables_sound : relayTables.Sound := by
  have started := sound_startUp (lit "irc.net") 100000
  have one := (@keeps_connect _ 1 linkOne ⟨rfl, rfl, rfl, by decide, by decide⟩).sound started
  have two := (@keeps_connect _ 2 anna ⟨rfl, rfl, rfl, by decide, by decide⟩).sound one
  have three := (@keeps_connect _ 3 olly ⟨rfl, rfl, rfl, by decide, by decide⟩).sound two
  have made := @Tables.Sound.create _ three (lit "#c") rfl
  have entered := @Tables.Sound.enter _ made 0 2 MemberFlags.none (by decide) rfl (by decide)
  exact @Tables.Sound.enter _ entered 0 3 MemberFlags.none (by decide) rfl (by decide)

theorem relayTables_connected : Connected relayTables relayFd :=
  pairTables_connected (lit "olly") (lit "anna") MemberFlags.none MemberFlags.none

namespace SendState

def idle : BroadcastEvent := .channelButone relayTables none 1

theorem run_idle {w : Nat} (s : SendState w) (n : Nat) :
    (machine w).run s (List.replicate n idle) =
      { s with currentSerial := s.currentSerial + BitVec.ofNat w n } := by
  induction n generalizing s with
  | zero => simp
  | succ n ih =>
    have one : s.event idle = { s with currentSerial := s.currentSerial + 1 } := rfl
    rw [List.replicate_succ, Machine.run_cons]
    show (machine w).run (s.event idle) _ = _
    rw [one, ih]
    have sum : s.currentSerial + 1 + BitVec.ofNat w n = s.currentSerial + BitVec.ofNat w (n + 1) := by
      rw [BitVec.add_assoc, Nat.add_comm n 1, BitVec.ofNat_add]
      rfl
    simp only [sum]

/-- The process after `2 ^ 32 - 1` broadcasts, none of which went over the link. -/
def lateState : SendState 32 :=
  (machine 32).run (startUp 32)
    (List.replicate (2 ^ 32 - 1) idle ++ [.rewire relayFd fun _ => true])

theorem lateState_eq :
    lateState = { startUp 32 with
      fd := relayFd
      capChw := fun _ => true
      currentSerial := 0 - 1 } := by
  unfold lateState
  rw [Machine.run_append, run_idle]
  have last : (0 : BitVec 32) + BitVec.ofNat 32 (2 ^ 32 - 1) = 0 - 1 := by decide
  simp only [startUp, last]
  rfl

/-- Where an `unsigned long` has 32 bits, the next serial is 0, which the link carries from the
start: olly's line does not reach the server that anna is on. -/
theorem lateState_misses :
    MembershipMirror relayTables ∧ Connected relayTables lateState.fd ∧
      ¬ ChannelDelivery relayTables (some 3) 0
        (lateState.sendtoChannelButone relayTables (some 3) 3 0 ()).2 := by
  rw [lateState_eq]
  refine ⟨relayTables_sound.membershipMirror, relayTables_connected, fun delivery => ?_⟩
  have link := delivery.link 2 (by decide) rfl (by decide)
  revert link
  decide

theorem relayTables_delivered :
    let s : SendState 32 := { startUp 32 with fd := relayFd, capChw := fun _ => true }
    (ChannelDelivery relayTables (some 3) 0
        (s.sendtoChannelButone relayTables (some 3) 3 0 ()).2 ↔
      ∀ u ∈ (relayTables.chan 0).memberIds, (relayTables.client u).myConnect = false →
        some (relayTables.client u).from_ ≠ some 3 →
          s.sentalong (s.fd (relayTables.client u).from_) ≠ s.currentSerial + 1) ∧
    (CommonDelivery relayTables 2 (s.sendtoCommonChannels relayTables 2 ()).2 ↔
      ∀ v, (relayTables.client v).myConnect = true → relayTables.Share 2 v → v ≠ 2 →
        s.sentalong (s.fd v) ≠ s.currentSerial + 1) := by
  intro s
  apply broadcasts_delivered_iff relayTables_sound.membershipMirror relayTables_connected
  · exact Or.inl rfl
  · decide
  · rintro v mine ⟨c, -, inside⟩ -
    rw [relayTables_members] at inside
    split at inside
    · simp only [List.mem_cons, List.not_mem_nil, or_false] at inside
      rcases inside with rfl | rfl
      · decide
      · cases mine
    · cases inside

end SendState

end Ircd
