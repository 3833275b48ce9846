import Ircd.Lib.Roster
import Ircd.Channel.Part
import Ircd.Channel.Members

/-! The membership lists, the channel list and the channel table as a roster, and
what each edit of the tables does to it.

`Sound` is the state that every command is entitled to: the roster is mirrored, the
channels on the list are allocated blocks and only registered clients have channels.
-/

set_option autoImplicit false

namespace Ircd

namespace Tables

def roster (t : Tables) : Roster ClientId ChanId Nat where
  members c := (t.chan c).memberIds
  size c := (t.chan c).users
  groups u := (t.client u).channel
  joined u := (t.client u).joined
  list := t.channel
  bucket := t.channelTable
  key c := hashChannelName (t.chan c).chname
  count := t.countChan

structure SameRoll (ch ch' : Channel) : Prop where
  memberIds : ch'.memberIds = ch.memberIds
  users : ch'.users = ch.users
  chname : ch'.chname = ch.chname

theorem roster_setChan {t : Tables} {c : ChanId} {ch : Channel} (h : SameRoll (t.chan c) ch) :
    (t.setChan c ch).roster = t.roster := by
  unfold roster setChan
  simp only [Roster.mk.injEq, and_true, true_and]
  refine ⟨?_, ?_, ?_⟩ <;> funext d <;> by_cases here : d = c
  · subst here; simpa using h.memberIds
  · simp [here]
  · subst here; simpa using h.users
  · simp [here]
  · subst here; simp [h.chname]
  · simp [here]

theorem roster_setClient {t : Tables} {u : ClientId} {cl : Client}
    (channel : cl.channel = (t.client u).channel) (joined : cl.joined = (t.client u).joined) :
    (t.setClient u cl).roster = t.roster := by
  unfold roster setClient
  simp only [Roster.mk.injEq, and_true, true_and]
  refine ⟨?_, ?_⟩ <;> funext v <;> by_cases here : v = u
  · subst here; simpa using channel
  · simp [here]
  · subst here; simpa using joined
  · simp [here]

@[simp] theorem roster_delInvite (t : Tables) (u : ClientId) (c : ChanId) :
    (t.delInvite u c).roster = t.roster := by
  have chan := @roster_setChan t c { t.chan c with invites := (t.chan c).invites.erase u }
    ⟨rfl, rfl, rfl⟩
  have client := @roster_setClient
    (t.setChan c { t.chan c with invites := (t.chan c).invites.erase u }) u
    { t.client u with invited := (t.client u).invited.erase c } rfl rfl
  exact client.trans chan

@[simp] theorem roster_delInvites (t : Tables) (c : ChanId) (us : List ClientId) :
    (t.delInvites c us).roster = t.roster := by
  induction us generalizing t with
  | nil => rfl
  | cons u us ih => rw [delInvites, ih, roster_delInvite]

theorem roster_createChannel (t : Tables) (name : CStr) :
    (t.createChannel name).roster = t.roster.enlist t.nextChan (hashChannelName name) := by
  unfold roster createChannel addToChannelHashTable setChan Roster.enlist
  simp only [Roster.mk.injEq, and_true, true_and]
  refine ⟨?_, ?_, ?_⟩ <;> funext d <;> by_cases here : d = t.nextChan <;>
    simp [here, freshChannel, Channel.zero, Channel.memberIds]

theorem roster_destroyChannel (t : Tables) (c : ChanId) :
    (t.destroyChannel c).roster = t.roster.delist c := by
  have bans := @roster_setChan t c (t.chan c).freeBansExceptionsDenies ⟨rfl, rfl, rfl⟩
  rw [← bans]
  rfl

theorem roster_addUserToChannel {t : Tables} {who : ClientId} (user : (t.client who).user = true)
    (c : ChanId) (flags : MemberFlags) :
    (t.addUserToChannel c who flags).roster = t.roster.join who c := by
  unfold addUserToChannel
  rw [if_pos user]
  unfold roster setClient setChan Roster.join
  simp only [Roster.mk.injEq, and_true, true_and]
  refine ⟨?_, ?_, ?_, ?_, ?_⟩
  · funext d
    by_cases here : d = c
    · subst here; simp [Channel.memberIds]
    · simp [here]
  · funext d
    by_cases here : d = c <;> simp [here]
  · funext v
    by_cases here : v = who <;> simp [here]
  · funext v
    by_cases here : v = who <;> simp [here]
  · funext d
    by_cases here : d = c <;> simp [here]

end Tables

theorem map_eraseP_cptr (links : List Member) (u : ClientId) :
    (links.eraseP fun link => link.cptr == u).map Member.cptr = (links.map Member.cptr).erase u := by
  induction links with
  | nil => rfl
  | cons link links ih =>
    by_cases same : link.cptr = u
    · simp [same]
    · simp [same, ih]

namespace Tables

/-- The lists without the member, before `sub1_from_channel`. -/
def unlinkMember (t : Tables) (sptr : ClientId) (c : ChanId) : Tables :=
  let t := t.setChan c { t.chan c with
    members := (t.chan c).members.eraseP fun link => link.cptr == sptr }
  t.setClient sptr { t.client sptr with
    channel := (t.client sptr).channel.erase c
    joined := (t.client sptr).joined - 1 }

theorem removeUserFromChannel_eq (t : Tables) (sptr : ClientId) (c : ChanId) :
    t.removeUserFromChannel sptr c = (t.unlinkMember sptr c).sub1FromChannel c := rfl

theorem unlinkMember_chan (t : Tables) (sptr : ClientId) (c : ChanId) :
    (t.unlinkMember sptr c).chan c = { t.chan c with
      members := (t.chan c).members.eraseP fun link => link.cptr == sptr } := by
  simp [unlinkMember, setClient, setChan]

theorem roster_unlinkMember (t : Tables) (sptr : ClientId) (c : ChanId) (n : Int) :
    { (t.unlinkMember sptr c).roster with
      size := Function.update t.roster.size c n } =
      { t.roster.leave sptr c with size := Function.update t.roster.size c n } := by
  unfold roster unlinkMember setClient setChan Roster.leave
  simp only [Roster.mk.injEq, and_true, true_and]
  refine ⟨?_, ?_, ?_, ?_⟩
  · funext d
    by_cases here : d = c
    · subst here; simp [Channel.memberIds, map_eraseP_cptr]
    · simp [here]
  · funext v
    by_cases here : v = sptr <;> simp [here]
  · funext v
    by_cases here : v = sptr <;> simp [here]
  · funext d
    by_cases here : d = c <;> simp [here]

theorem roster_setUsers (t : Tables) (c : ChanId) (n : Int) :
    (t.setChan c { t.chan c with users := n }).roster =
      { t.roster with size := Function.update t.roster.size c n } := by
  unfold roster setChan
  simp only [Roster.mk.injEq, and_true, true_and]
  refine ⟨?_, ?_, ?_⟩
  · funext d
    by_cases here : d = c
    · subst here; simp [Channel.memberIds]
    · simp [here]
  · funext d
    by_cases here : d = c <;> simp [here]
  · funext d
    by_cases here : d = c <;> simp [here]

theorem roster_removeUserFromChannel {t : Tables} (h : t.roster.Mirror) {sptr : ClientId}
    {c : ChanId} (member : sptr ∈ (t.chan c).memberIds) :
    (t.removeUserFromChannel sptr c).roster =
      if (t.chan c).users = 1 ∧ (t.chan c).juped = false then
        (t.roster.leave sptr c).delist c
      else t.roster.leave sptr c := by
  have counted : (t.chan c).users = (t.chan c).memberIds.length := h.size_eq c
  have pos := List.length_pos_of_mem member
  have before := unlinkMember_chan t sptr c
  have users : ((t.unlinkMember sptr c).chan c).users = (t.chan c).users := by rw [before]
  have juped : ((t.unlinkMember sptr c).chan c).juped = (t.chan c).juped := by rw [before]
  have stored : ∀ n, n = (t.chan c).users - 1 →
      ((t.unlinkMember sptr c).setChan c
        { (t.unlinkMember sptr c).chan c with users := n }).roster = t.roster.leave sptr c := by
    intro n same
    have sizes : (t.unlinkMember sptr c).roster.size = t.roster.size := by
      funext d
      by_cases here : d = c
      · subst here
        exact users
      · simp [roster, unlinkMember, setClient, setChan, here]
    rw [roster_setUsers, sizes, roster_unlinkMember, same]
    rfl
  rw [removeUserFromChannel_eq, sub1FromChannel]
  simp only [users]
  by_cases last : (t.chan c).users = 1
  -- the count falls to zero: the invites go first, then the channel if it is not juped
  · rw [if_pos (by omega)]
    have invites := fun us => roster_delInvites ((t.unlinkMember sptr c).setChan c
      { (t.unlinkMember sptr c).chan c with users := 0 }) c us
    have jupedAfter : ∀ us (t' : Tables), ((t'.delInvites c us).chan c).juped = (t'.chan c).juped := by
      intro us
      induction us with
      | nil => intro t'; rfl
      | cons u us ih =>
        intro t'
        rw [delInvites, ih]
        simp [delInvite, setClient, setChan]
    have jupedHere : (((t.unlinkMember sptr c).setChan c
        { (t.unlinkMember sptr c).chan c with users := 0 }).chan c).juped = (t.chan c).juped := by
      simp [setChan, juped]
    rw [jupedAfter, jupedHere]
    cases known : (t.chan c).juped with
    | true =>
      rw [if_pos rfl, if_neg (by simp), invites, stored 0 (by omega)]
    | false =>
      rw [if_neg (by simp), if_pos ⟨last, rfl⟩, roster_destroyChannel, invites, stored 0 (by omega)]
  · rw [if_neg (by omega), if_neg (fun both => last both.1)]
    exact stored _ rfl

end Tables

end Ircd
