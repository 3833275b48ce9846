import Ircd.Channel.Store

/-! Members of a channel as a partial map, and what the edits of the member lists
leave alone.

No edit of a channel touches what the server knows of its clients by name; two
tables that agree in that are said to have the same directory.
-/

set_option autoImplicit false

namespace Ircd

def Channel.flagsOf (ch : Channel) (u : ClientId) : Option MemberFlags :=
  (ch.findUserLink u).map Member.flags

theorem Channel.flagsOf_eq_none (ch : Channel) (u : ClientId) :
    ch.flagsOf u = none ↔ u ∉ ch.memberIds := by
  simp only [flagsOf, findUserLink, Option.map_eq_none_iff, List.find?_eq_none, memberIds,
    List.mem_map, not_exists, not_and]
  constructor
  · intro absent link member same
    exact absent link member (by simp [same])
  · intro absent link member same
    exact absent link member (by simpa using same)

theorem Channel.flagsOf_isSome (ch : Channel) (u : ClientId) :
    (ch.flagsOf u).isSome = true ↔ u ∈ ch.memberIds := by
  rw [Option.isSome_iff_ne_none, ne_eq, flagsOf_eq_none, not_not]

theorem Channel.flagsOf_cons {ch ch' : Channel} {link : Member}
    (members : ch'.members = link :: ch.members) (u : ClientId) :
    ch'.flagsOf u = if link.cptr = u then some link.flags else ch.flagsOf u := by
  unfold flagsOf findUserLink
  rw [members]
  simp only [List.find?_cons]
  by_cases same : link.cptr = u
  · simp [same]
  · have differs : (link.cptr == u) = false := by simpa using same
    simp [same, differs]

def Client.identity (cl : Client) : Client :=
  { cl with
    channel := []
    joined := 0
    invited := []
    lastJoinTime := 0
    lastLeaveTime := 0
    joinLeaveCount := 0
    operWarnCountDown := 0 }

namespace Tables

structure SameDirectory (t t' : Tables) : Prop where
  me : t'.me = t.me
  clients : t'.clients = t.clients
  whowas : t'.whowas = t.whowas
  servCptrList : t'.servCptrList = t.servCptrList
  currentTime : t'.currentTime = t.currentTime
  maxBans : t'.maxBans = t.maxBans
  identity : ∀ u, (t'.client u).identity = (t.client u).identity

namespace SameDirectory

variable {t t' t'' : Tables}

theorem refl (t : Tables) : SameDirectory t t := ⟨rfl, rfl, rfl, rfl, rfl, rfl, fun _ => rfl⟩

theorem trans (h : SameDirectory t t') (h' : SameDirectory t' t'') : SameDirectory t t'' where
  me := h'.me.trans h.me
  clients := h'.clients.trans h.clients
  whowas := h'.whowas.trans h.whowas
  servCptrList := h'.servCptrList.trans h.servCptrList
  currentTime := h'.currentTime.trans h.currentTime
  maxBans := h'.maxBans.trans h.maxBans
  identity u := (h'.identity u).trans (h.identity u)

variable (h : SameDirectory t t')
include h

theorem nameOf (u : ClientId) : t'.nameOf u = t.nameOf u :=
  (congrArg Client.name (h.identity u) :)

theorem from_ (u : ClientId) : (t'.client u).from_ = (t.client u).from_ :=
  (congrArg Client.from_ (h.identity u) :)

theorem user (u : ClientId) : (t'.client u).user = (t.client u).user :=
  (congrArg Client.user (h.identity u) :)

theorem status (u : ClientId) : (t'.client u).status = (t.client u).status :=
  (congrArg Client.status (h.identity u) :)

theorem localFlag (u : ClientId) : (t'.client u).localFlag = (t.client u).localFlag :=
  (congrArg Client.localFlag (h.identity u) :)

theorem myConnect (u : ClientId) : (t'.client u).myConnect = (t.client u).myConnect :=
  h.localFlag u

theorem findClient (name : CStr) : t'.findClient name = t.findClient name := by
  have names : t'.nameOf = t.nameOf := funext h.nameOf
  simp only [Tables.findClient, h.clients, names]

theorem chase (name : CStr) : t'.chase name = t.chase name := by
  simp only [Tables.chase, Tables.getHistory, h.findClient, h.whowas, h.currentTime]

end SameDirectory

theorem sameDirectory_setChan (t : Tables) (c : ChanId) (ch : Channel) :
    SameDirectory t (t.setChan c ch) := ⟨rfl, rfl, rfl, rfl, rfl, rfl, fun _ => rfl⟩

theorem sameDirectory_createChannel (t : Tables) (name : CStr) :
    SameDirectory t (t.createChannel name) := ⟨rfl, rfl, rfl, rfl, rfl, rfl, fun _ => rfl⟩

theorem sameDirectory_setClient (t : Tables) (u : ClientId) (cl : Client)
    (same : cl.identity = (t.client u).identity) : SameDirectory t (t.setClient u cl) := by
  refine ⟨rfl, rfl, rfl, rfl, rfl, rfl, fun v => ?_⟩
  by_cases here : v = u
  · subst here
    simpa [setClient] using same
  · simp [setClient, here]

theorem sameDirectory_addUserToChannel (t : Tables) (c : ChanId) (who : ClientId)
    (flags : MemberFlags) : SameDirectory t (t.addUserToChannel c who flags) := by
  unfold addUserToChannel
  split
  · exact (sameDirectory_setChan t c _).trans (sameDirectory_setClient _ _ _ rfl)
  · exact .refl t

theorem addUserToChannel_chan (t : Tables) (c c' : ChanId) (who : ClientId) (flags : MemberFlags) :
    (t.addUserToChannel c who flags).chan c' =
      if c' = c ∧ (t.client who).user then
        { t.chan c with
          members := { cptr := who, flags := flags } :: (t.chan c).members
          users := (t.chan c).users + 1 }
      else t.chan c' := by
  unfold addUserToChannel
  by_cases user : (t.client who).user <;> by_cases same : c' = c <;>
    simp [user, same, setClient, setChan]

theorem addUserToChannel_flagsOf (t : Tables) (c : ChanId) (who : ClientId) (flags : MemberFlags)
    (u : ClientId) : ((t.addUserToChannel c who flags).chan c).flagsOf u =
      if who = u ∧ (t.client who).user then some flags else (t.chan c).flagsOf u := by
  rw [addUserToChannel_chan]
  by_cases user : (t.client who).user
  · rw [if_pos ⟨rfl, user⟩]
    by_cases same : who = u
    · rw [if_pos ⟨same, user⟩, Channel.flagsOf_cons rfl, if_pos same]
    · rw [if_neg (fun both => same both.1), Channel.flagsOf_cons rfl, if_neg same]
  · rw [if_neg (fun both => user both.2), if_neg (fun both => user both.2)]

theorem addUserToChannel_isMember (t : Tables) (c c' : ChanId) (who u : ClientId)
    (flags : MemberFlags) :
    (t.addUserToChannel c who flags).isMember u c' =
      (t.isMember u c' || (decide (u = who ∧ c' = c) && (t.client who).user)) := by
  unfold addUserToChannel isMember
  by_cases user : (t.client who).user
  · by_cases same : u = who
    · subst same
      by_cases here : c' = c <;> simp [user, here, setClient, setChan]
    · simp [user, same, setClient, setChan]
  · simp [user]

def Mirrored (t : Tables) (c : ChanId) : Prop :=
  ∀ u, t.isMember u c = true ↔ u ∈ (t.chan c).memberIds

theorem Mirrored.flagsOf_eq_none {t : Tables} {c : ChanId} (h : t.Mirrored c) (u : ClientId) :
    (t.chan c).flagsOf u = none ↔ t.isMember u c = false := by
  rw [Channel.flagsOf_eq_none, ← h u, Bool.not_eq_true]

theorem Mirrored.addUserToChannel {t : Tables} {c : ChanId} (h : t.Mirrored c) (who : ClientId)
    (flags : MemberFlags) : (t.addUserToChannel c who flags).Mirrored c := by
  intro u
  rw [addUserToChannel_isMember, addUserToChannel_chan]
  by_cases user : (t.client who).user
  · rw [if_pos ⟨rfl, user⟩]
    simp [Channel.memberIds, user, h u, or_comm]
  · simp [user, h u]

structure SameSettings (ch ch' : Channel) : Prop where
  chname : ch'.chname = ch.chname
  mode : ch'.mode = ch.mode
  channelts : ch'.channelts = ch.channelts
  juped : ch'.juped = ch.juped

structure SameChannels (t t' : Tables) : Prop where
  settings : ∀ c, SameSettings (t.chan c) (t'.chan c)
  channelTable : t'.channelTable = t.channelTable
  channel : t'.channel = t.channel

namespace SameChannels

variable {t t' t'' : Tables}

theorem refl (t : Tables) : SameChannels t t := ⟨fun _ => ⟨rfl, rfl, rfl, rfl⟩, rfl, rfl⟩

theorem trans (h : SameChannels t t') (h' : SameChannels t' t'') : SameChannels t t'' := by
  refine ⟨fun c => ?_, h'.channelTable.trans h.channelTable, h'.channel.trans h.channel⟩
  exact ⟨(h'.settings c).chname.trans (h.settings c).chname,
    (h'.settings c).mode.trans (h.settings c).mode,
    (h'.settings c).channelts.trans (h.settings c).channelts,
    (h'.settings c).juped.trans (h.settings c).juped⟩

end SameChannels

theorem hashFindChannel_congr {t t' : Tables} (table : t'.channelTable = t.channelTable)
    (names : ∀ c, (t'.chan c).chname = (t.chan c).chname) (name : CStr) :
    t'.hashFindChannel name = t.hashFindChannel name := by
  simp only [hashFindChannel, table, names]

theorem SameChannels.hashFindChannel {t t' : Tables} (h : SameChannels t t') (name : CStr) :
    t'.hashFindChannel name = t.hashFindChannel name :=
  hashFindChannel_congr h.channelTable (fun c => (h.settings c).chname) name

theorem sameChannels_addUserToChannel (t : Tables) (c : ChanId) (who : ClientId)
    (flags : MemberFlags) : SameChannels t (t.addUserToChannel c who flags) := by
  refine ⟨fun c' => ?_, ?_, ?_⟩
  · rw [addUserToChannel_chan]
    split
    · next here => rw [here.1]; exact ⟨rfl, rfl, rfl, rfl⟩
    · exact ⟨rfl, rfl, rfl, rfl⟩
  · unfold addUserToChannel
    split <;> rfl
  · unfold addUserToChannel
    split <;> rfl

end Tables

end Ircd
