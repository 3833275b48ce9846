import Ircd.Channel.Mirror
import Ircd.Channel.Mode
import Mathlib.Logic.Relation

/-! The edits of the tables that the commands are made of.

A command on channels is a list of the edits below, each made under the guard that it
names. What a run keeps is proved of one edit at a time: `Sound`, which every command
needs and keeps, and `Settled`, which all edits but the creation of a channel keep.
-/

set_option autoImplicit false

namespace Ircd

structure Client.Proper (cl : Client) : Prop where
  person : cl.user = true → cl.isClient = true ∧ cl.name ≠ []
  oper : cl.anOper = true → cl.isClient = true

namespace Tables

structure Alike (t t' : Tables) : Prop where
  directory : SameDirectory t t'
  roster : t'.roster = t.roster
  chname : ∀ c, (t'.chan c).chname = (t.chan c).chname
  nextChan : t'.nextChan = t.nextChan
  freed : t'.freed = t.freed

namespace Alike

variable {t t' t'' : Tables}

theorem refl (t : Tables) : Alike t t := ⟨.refl t, rfl, fun _ => rfl, rfl, rfl⟩

theorem trans (h : Alike t t') (h' : Alike t' t'') : Alike t t'' where
  directory := h.directory.trans h'.directory
  roster := h'.roster.trans h.roster
  chname c := (h'.chname c).trans (h.chname c)
  nextChan := h'.nextChan.trans h.nextChan
  freed := h'.freed.trans h.freed

theorem setChan {c : ChanId} {ch : Channel} (h : SameRoll (t.chan c) ch) :
    Alike t (t.setChan c ch) := by
  refine ⟨sameDirectory_setChan t c ch, roster_setChan h, fun d => ?_, rfl, rfl⟩
  by_cases here : d = c
  · subst here
    simpa [Tables.setChan] using h.chname
  · simp [Tables.setChan, here]

theorem setClient {u : ClientId} {cl : Client} (channel : cl.channel = (t.client u).channel)
    (joined : cl.joined = (t.client u).joined)
    (identity : cl.identity = (t.client u).identity) : Alike t (t.setClient u cl) :=
  ⟨sameDirectory_setClient t u cl identity, roster_setClient channel joined, fun _ => rfl, rfl, rfl⟩

theorem delInvite (t : Tables) (u : ClientId) (c : ChanId) : Alike t (t.delInvite u c) := by
  have chan : Alike t (t.setChan c { t.chan c with invites := (t.chan c).invites.erase u }) :=
    setChan ⟨rfl, rfl, rfl⟩
  apply chan.trans
  exact setClient rfl rfl rfl

theorem delInvites (t : Tables) (c : ChanId) (us : List ClientId) :
    Alike t (t.delInvites c us) := by
  induction us generalizing t with
  | nil => exact .refl t
  | cons u us ih => exact (delInvite t u c).trans (ih _)

theorem channel (h : Alike t t') : t'.channel = t.channel := congrArg Roster.list h.roster

theorem memberIds (h : Alike t t') (c : ChanId) :
    (t'.chan c).memberIds = (t.chan c).memberIds :=
  congrFun (congrArg Roster.members h.roster) c

theorem groups (h : Alike t t') (u : ClientId) :
    (t'.client u).channel = (t.client u).channel :=
  congrFun (congrArg Roster.groups h.roster) u

theorem hashFindChannel (h : Alike t t') (name : CStr) :
    t'.hashFindChannel name = t.hashFindChannel name :=
  hashFindChannel_congr (congrArg Roster.bucket h.roster) h.chname name

end Alike

structure Sound (t : Tables) : Prop where
  mirror : t.roster.Mirror
  named : ∀ c ∈ t.channel, t.hashFindChannel (t.chan c).chname = some c
  allocated : ∀ c ∈ t.channel, c < t.nextChan
  live : ∀ c ∈ t.channel, t.freed c = false
  unborn : ∀ c, t.nextChan ≤ c → t.freed c = false
  outside : ∀ u, (t.client u).user = false → (t.client u).channel = []
  proper : ∀ u, (t.client u).identity.Proper

namespace Sound

variable {t t' : Tables} (h : t.Sound)
include h

theorem alike (same : Alike t t') : t'.Sound where
  mirror := same.roster ▸ h.mirror
  named c listed := by
    rw [same.chname, same.hashFindChannel]
    exact h.named c (same.channel ▸ listed)
  allocated c listed := by
    rw [same.nextChan]
    exact h.allocated c (same.channel ▸ listed)
  live c listed := by
    rw [same.freed]
    exact h.live c (same.channel ▸ listed)
  unborn c := by
    rw [same.nextChan, same.freed]
    exact h.unborn c
  outside u nobody := by
    rw [same.groups]
    exact h.outside u (same.directory.user u ▸ nobody)
  proper u := by
    rw [same.directory.identity]
    exact h.proper u

theorem person {u : ClientId} (user : (t.client u).user = true) :
    (t.client u).isClient = true ∧ (t.client u).name ≠ [] :=
  (h.proper u).person user

theorem oper {u : ClientId} (anOper : (t.client u).isAnOper = true) :
    (t.client u).isClient = true :=
  (h.proper u).oper anOper

theorem listed_of_found {name : CStr} {c : ChanId} (found : t.hashFindChannel name = some c) :
    c ∈ t.channel :=
  ((h.mirror.bucket_iff _ c).1 (List.mem_of_find?_eq_some found)).1

theorem listed_of_member {u : ClientId} {c : ChanId} (member : u ∈ (t.chan c).memberIds) :
    c ∈ t.channel :=
  h.mirror.listed u c member

theorem mem_memberIds_iff {u : ClientId} {c : ChanId} :
    u ∈ (t.chan c).memberIds ↔ c ∈ (t.client u).channel :=
  h.mirror.member_iff u c

theorem isMember_iff {u : ClientId} {c : ChanId} :
    t.isMember u c = true ↔ u ∈ (t.chan c).memberIds := by
  rw [h.mem_memberIds_iff]
  unfold isMember
  cases user : (t.client u).user with
  | true => simp
  | false => simp [h.outside u user]

theorem users_eq (c : ChanId) : (t.chan c).users = (t.chan c).memberIds.length :=
  h.mirror.size_eq c

theorem next_unlisted : t.nextChan ∉ t.channel :=
  fun listed => Nat.lt_irrefl _ (h.allocated _ listed)

end Sound

def Settled (t : Tables) (c : ChanId) : Prop :=
  c ∈ t.channel → (t.chan c).memberIds ≠ [] ∨ (t.chan c).juped = true

def KeepsJupes (t t' : Tables) (c : ChanId) : Prop :=
  (t.chan c).juped = true → (t'.chan c).juped = true ∨ (t.chan c).memberIds ≠ []

inductive Edit : Tables → Tables → Prop where
  | settings {t t' : Tables} (alike : Alike t t') (jupes : ∀ c, KeepsJupes t t' c) : Edit t t'
  | create {t : Tables} {name : CStr} (absent : t.hashFindChannel name = none) :
      Edit t (t.createChannel name)
  | enter {t : Tables} {c : ChanId} {who : ClientId} (flags : MemberFlags)
      (listed : c ∈ t.channel) (user : (t.client who).user = true)
      (new : who ∉ (t.chan c).memberIds) : Edit t (t.addUserToChannel c who flags)
  | leave {t : Tables} {c : ChanId} {who : ClientId} (member : who ∈ (t.chan c).memberIds) :
      Edit t (t.removeUserFromChannel who c)
  | unlink {t t' : Tables} {c : ChanId} (alike : Alike t t')
      (jupes : ∀ c', c' ≠ c → KeepsJupes t t' c') (listed : c ∈ t.channel)
      (empty : (t.chan c).memberIds = []) : Edit t (t'.unlinkChannel c)

abbrev Edits : Tables → Tables → Prop := Relation.ReflTransGen Edit

/-- The count that `sub1_from_channel` stores and the invitations it drops. -/
def emptied (t : Tables) (c : ChanId) : Tables :=
  let t := t.setChan c { t.chan c with users := 0 }
  t.delInvites c (t.chan c).invites

def label (t : Tables) (c : ChanId) : CStr × Bool := ((t.chan c).chname, (t.chan c).juped)

theorem label_setChan {t : Tables} {c : ChanId} {ch : Channel} (chname : ch.chname = (t.chan c).chname)
    (juped : ch.juped = (t.chan c).juped) (c' : ChanId) : (t.setChan c ch).label c' = t.label c' := by
  by_cases here : c' = c
  · subst here
    simp [label, setChan, chname, juped]
  · simp [label, setChan, here]

theorem delInvite_label (t : Tables) (u : ClientId) (c c' : ChanId) :
    (t.delInvite u c).label c' = t.label c' := by
  have chan := @label_setChan t c { t.chan c with invites := (t.chan c).invites.erase u } rfl rfl c'
  exact chan

theorem delInvites_label (t : Tables) (c c' : ChanId) (us : List ClientId) :
    (t.delInvites c us).label c' = t.label c' := by
  induction us generalizing t with
  | nil => rfl
  | cons u us ih => rw [delInvites, ih, delInvite_label]

theorem delInvite_juped (t : Tables) (u : ClientId) (c c' : ChanId) :
    ((t.delInvite u c).chan c').juped = (t.chan c').juped :=
  congrArg Prod.snd (t.delInvite_label u c c')

theorem sub1FromChannel_eq (t : Tables) (c : ChanId) :
    t.sub1FromChannel c =
      if (t.chan c).users - 1 ≤ 0 then
        if ((t.emptied c).chan c).juped then t.emptied c else (t.emptied c).destroyChannel c
      else t.setChan c { t.chan c with users := (t.chan c).users - 1 } := rfl

theorem emptied_label (t : Tables) (c c' : ChanId) : (t.emptied c).label c' = t.label c' := by
  unfold emptied
  rw [delInvites_label]
  exact @label_setChan t c { t.chan c with users := 0 } rfl rfl c'

theorem destroyChannel_label (t : Tables) (c c' : ChanId) :
    (t.destroyChannel c).label c' = t.label c' := by
  have chan := @label_setChan t c (t.chan c).freeBansExceptionsDenies rfl rfl c'
  exact chan

theorem sub1FromChannel_label (t : Tables) (c c' : ChanId) :
    (t.sub1FromChannel c).label c' = t.label c' := by
  rw [sub1FromChannel_eq]
  split
  · split
    · exact emptied_label t c c'
    · rw [destroyChannel_label, emptied_label]
  · exact @label_setChan t c { t.chan c with users := (t.chan c).users - 1 } rfl rfl c'

theorem removeUserFromChannel_label (t : Tables) (who : ClientId) (c c' : ChanId) :
    (t.removeUserFromChannel who c).label c' = t.label c' := by
  rw [removeUserFromChannel_eq, sub1FromChannel_label]
  exact @label_setChan t c { t.chan c with
    members := (t.chan c).members.eraseP fun link => link.cptr == who } rfl rfl c'

theorem emptied_juped (t : Tables) (c c' : ChanId) :
    ((t.emptied c).chan c').juped = (t.chan c').juped := congrArg Prod.snd (t.emptied_label c c')

theorem removeUserFromChannel_juped (t : Tables) (who : ClientId) (c c' : ChanId) :
    ((t.removeUserFromChannel who c).chan c').juped = (t.chan c').juped :=
  congrArg Prod.snd (t.removeUserFromChannel_label who c c')

theorem removeUserFromChannel_chname (t : Tables) (who : ClientId) (c c' : ChanId) :
    ((t.removeUserFromChannel who c).chan c').chname = (t.chan c').chname :=
  congrArg Prod.fst (t.removeUserFromChannel_label who c c')

theorem emptied_directory (t : Tables) (c : ChanId) :
    SameDirectory t (t.emptied c) ∧ (t.emptied c).nextChan = t.nextChan ∧
      (t.emptied c).freed = t.freed := by
  have invites := Alike.delInvites (t.setChan c { t.chan c with users := 0 }) c
    ((t.setChan c { t.chan c with users := 0 }).chan c).invites
  exact ⟨(sameDirectory_setChan t c _).trans invites.directory, invites.nextChan, invites.freed⟩

/-- Of the directory and the allocator a member that leaves changes at most whether the
block is free. -/
theorem removeUserFromChannel_directory (t : Tables) (who : ClientId) (c : ChanId) :
    SameDirectory t (t.removeUserFromChannel who c) ∧
      (t.removeUserFromChannel who c).nextChan = t.nextChan ∧
      ∀ c', c' ≠ c → (t.removeUserFromChannel who c).freed c' = t.freed c' := by
  have unlinked : SameDirectory t (t.unlinkMember who c) :=
    (sameDirectory_setChan t c _).trans (sameDirectory_setClient _ _ _ rfl)
  rw [removeUserFromChannel_eq, sub1FromChannel_eq]
  obtain ⟨directory, nextChan, freed⟩ := emptied_directory (t.unlinkMember who c) c
  split
  · split
    · exact ⟨unlinked.trans directory, nextChan, fun c' _ => congrFun freed c'⟩
    · refine ⟨(unlinked.trans directory).trans ?_, nextChan, fun c' other => ?_⟩
      · exact ⟨rfl, rfl, rfl, rfl, rfl, rfl, fun _ => rfl⟩
      · have kept : ((t.unlinkMember who c).emptied c).freed c' = t.freed c' := congrFun freed c'
        simpa [destroyChannel, delFromChannelHashTable, setChan, other] using kept
  · exact ⟨unlinked.trans (sameDirectory_setChan _ _ _), rfl, fun _ _ => rfl⟩

theorem removeUserFromChannel_freed {t : Tables} {who : ClientId} {c : ChanId}
    (more : (t.chan c).users ≠ 1 ∨ (t.chan c).juped = true) (counted : 0 < (t.chan c).users) :
    (t.removeUserFromChannel who c).freed = t.freed := by
  have before := unlinkMember_chan t who c
  have users : ((t.unlinkMember who c).chan c).users = (t.chan c).users := by rw [before]
  have juped : ((t.unlinkMember who c).chan c).juped = (t.chan c).juped := by rw [before]
  rw [removeUserFromChannel_eq, sub1FromChannel_eq, emptied_juped, users, juped]
  split
  · next last =>
    rw [if_pos (more.resolve_left (by omega))]
    exact (emptied_directory (t.unlinkMember who c) c).2.2
  · rfl

namespace Edit

variable {t t' : Tables}

theorem directory (h : Edit t t') : SameDirectory t t' := by
  cases h with
  | settings alike => exact alike.directory
  | create => exact sameDirectory_createChannel t _
  | enter flags => exact sameDirectory_addUserToChannel t _ _ flags
  | leave => exact (removeUserFromChannel_directory t _ _).1
  | unlink alike =>
    exact alike.directory.trans ⟨rfl, rfl, rfl, rfl, rfl, rfl, fun _ => rfl⟩

end Edit

theorem Edits.directory {t t' : Tables} (h : Edits t t') : SameDirectory t t' := by
  induction h with
  | refl => exact .refl _
  | tail _ step ih => exact ih.trans step.directory

/-! Lookups that succeed are not disturbed by the creation or the end of another channel. -/

theorem find?_congr_mem {α : Type} {p q : α → Bool} {l : List α} (same : ∀ x ∈ l, p x = q x) :
    l.find? p = l.find? q := by
  induction l with
  | nil => rfl
  | cons x l ih =>
    have rest := ih fun y inside => same y (List.mem_cons_of_mem _ inside)
    simp only [List.find?_cons, same x List.mem_cons_self, rest]

/-- A lookup that succeeds is not disturbed by the creation of another channel. -/
theorem Sound.hashFindChannel_create {t : Tables} (h : t.Sound) {name other : CStr} {c : ChanId}
    (absent : t.hashFindChannel other = none) (found : t.hashFindChannel name = some c) :
    (t.createChannel other).hashFindChannel name = some c := by
  have differs : irccmp name other ≠ .eq := by
    intro same
    rw [t.hashFindChannel_congr_name same, absent] at found
    cases found
  have old : ∀ d ∈ t.channelTable (hashChannelName name),
      (irccmp name ((t.createChannel other).chan d).chname == .eq) =
        (irccmp name (t.chan d).chname == .eq) := by
    intro d inside
    have listed : d ∈ t.channel := ((h.mirror.bucket_iff _ d).1 inside).1
    have born : d ≠ t.nextChan := Nat.ne_of_lt (h.allocated d listed)
    simp [createChannel, addToChannelHashTable, setChan, born]
  have rest : (t.channelTable (hashChannelName name)).find?
      (fun d => irccmp name ((t.createChannel other).chan d).chname == .eq) = some c := by
    rw [← found, Tables.hashFindChannel, find?_congr_mem old]
  unfold Tables.hashFindChannel
  by_cases bucket : hashChannelName name = hashChannelName other
  · have table : (t.createChannel other).channelTable (hashChannelName name) =
        t.nextChan :: t.channelTable (hashChannelName name) := by
      simp [createChannel, addToChannelHashTable, setChan, bucket]
    have fresh : ((t.createChannel other).chan t.nextChan).chname = other := by
      simp [createChannel, addToChannelHashTable, setChan, freshChannel]
    rw [table, List.find?_cons, fresh]
    have skip : (irccmp name other == .eq) = false := by simpa using differs
    rw [skip]
    exact rest
  · have table : (t.createChannel other).channelTable (hashChannelName name) =
        t.channelTable (hashChannelName name) := by
      simp [createChannel, addToChannelHashTable, setChan, bucket]
    rw [table]
    exact rest

theorem find?_erase_of_ne {p : ChanId → Bool} {l : List ChanId} {c d : ChanId}
    (found : l.find? p = some d) (other : d ≠ c) : (l.erase c).find? p = some d := by
  induction l with
  | nil => cases found
  | cons x l ih =>
    rw [List.find?_cons] at found
    by_cases same : x = c
    · rw [same, List.erase_cons_head]
      cases hit : p x with
      | true =>
        rw [hit] at found
        cases found
        exact absurd same other
      | false =>
        rw [hit] at found
        exact found
    · rw [List.erase_cons_tail (by simpa using same), List.find?_cons]
      cases hit : p x with
      | true =>
        rw [hit] at found
        exact found
      | false =>
        rw [hit] at found
        exact ih found

theorem hashFindChannel_delist {t t' : Tables} {c : ChanId}
    (table : t'.channelTable = (t.roster.delist c).bucket)
    (names : ∀ d, (t'.chan d).chname = (t.chan d).chname) {name : CStr} {d : ChanId}
    (found : t.hashFindChannel name = some d) (other : d ≠ c) :
    t'.hashFindChannel name = some d := by
  unfold Tables.hashFindChannel at found ⊢
  simp only [names]
  rw [table]
  by_cases bucket : hashChannelName name = hashChannelName (t.chan c).chname
  · have erased : (t.roster.delist c).bucket (hashChannelName name) =
        (t.channelTable (hashChannelName name)).erase c := by
      simp [Roster.delist, Tables.roster, bucket]
    rw [erased]
    exact find?_erase_of_ne found other
  · have kept : (t.roster.delist c).bucket (hashChannelName name) =
        t.channelTable (hashChannelName name) := by
      simp [Roster.delist, Tables.roster, bucket]
    rw [kept]
    exact found

theorem hashFindChannel_created (t : Tables) (name : CStr) :
    (t.createChannel name).hashFindChannel name = some t.nextChan := by
  have fresh : ((t.createChannel name).chan t.nextChan).chname = name := by
    simp [createChannel, addToChannelHashTable, setChan, freshChannel]
  unfold Tables.hashFindChannel
  have table : (t.createChannel name).channelTable (hashChannelName name) =
      t.nextChan :: t.channelTable (hashChannelName name) := by
    simp [createChannel, addToChannelHashTable, setChan]
  rw [table, List.find?_cons, fresh, irccmp_self]
  rfl

namespace Sound

variable {t t' : Tables} (h : t.Sound)
include h

theorem create {name : CStr} (absent : t.hashFindChannel name = none) :
    (t.createChannel name).Sound where
  mirror := by
    rw [roster_createChannel]
    exact h.mirror.enlist h.next_unlisted _
  named c listed := by
    have cases : c = t.nextChan ∨ c ∈ t.channel := List.mem_cons.1 listed
    by_cases new : c = t.nextChan
    · subst new
      have fresh : ((t.createChannel name).chan t.nextChan).chname = name := by
        simp [createChannel, addToChannelHashTable, setChan, freshChannel]
      rw [fresh]
      exact t.hashFindChannel_created name
    · have same : (t.createChannel name).chan c = t.chan c := by
        simp [createChannel, addToChannelHashTable, setChan, new]
      rw [same]
      exact h.hashFindChannel_create absent (h.named c (cases.resolve_left new))
  allocated c listed := by
    have cases : c = t.nextChan ∨ c ∈ t.channel := List.mem_cons.1 listed
    show c < t.nextChan + 1
    cases cases with
    | inl new => exact Nat.lt_succ_of_le (Nat.le_of_eq new)
    | inr old => exact Nat.lt_succ_of_lt (h.allocated c old)
  live c listed := by
    have cases : c = t.nextChan ∨ c ∈ t.channel := List.mem_cons.1 listed
    cases cases with
    | inl new => exact h.unborn c new.ge
    | inr old => exact h.live c old
  unborn c later := h.unborn c (Nat.le_of_succ_le later)
  outside := h.outside
  proper := h.proper

theorem enter {c : ChanId} {who : ClientId} (flags : MemberFlags) (listed : c ∈ t.channel)
    (user : (t.client who).user = true) (new : who ∉ (t.chan c).memberIds) :
    (t.addUserToChannel c who flags).Sound := by
  have roster := roster_addUserToChannel user c flags
  have directory := sameDirectory_addUserToChannel t c who flags
  have channel : (t.addUserToChannel c who flags).channel = t.channel :=
    congrArg Roster.list roster
  have nextChan : (t.addUserToChannel c who flags).nextChan = t.nextChan := by
    rw [addUserToChannel, if_pos user]
    rfl
  have freed : (t.addUserToChannel c who flags).freed = t.freed := by
    rw [addUserToChannel, if_pos user]
    rfl
  constructor
  · rw [roster]
    exact h.mirror.join listed new
  · intro d inList
    have same := sameChannels_addUserToChannel t c who flags
    rw [(same.settings d).chname, same.hashFindChannel]
    exact h.named d (channel ▸ inList)
  · rw [channel, nextChan]
    exact h.allocated
  · rw [channel, freed]
    exact h.live
  · rw [nextChan, freed]
    exact h.unborn
  · intro u nobody
    have before : (t.client u).user = false := directory.user u ▸ nobody
    have other : u ≠ who := by
      rintro rfl
      rw [user] at before
      cases before
    have groups : ((t.addUserToChannel c who flags).client u).channel = (t.client u).channel := by
      have joined := congrFun (congrArg Roster.groups roster) u
      simpa [Roster.join, roster, Tables.roster, other] using joined
    rw [groups]
    exact h.outside u before
  · intro u
    rw [directory.identity]
    exact h.proper u

theorem groups_leave {c : ChanId} {who : ClientId} (member : who ∈ (t.chan c).memberIds)
    (u : ClientId) : ((t.removeUserFromChannel who c).client u).channel =
      if u = who then (t.client who).channel.erase c else (t.client u).channel := by
  have left := congrFun (congrArg Roster.groups (roster_removeUserFromChannel h.mirror member)) u
  have groups : (t.removeUserFromChannel who c).roster.groups u =
      if u = who then (t.roster.groups who).erase c else t.roster.groups u := by
    rw [left]
    split <;> by_cases same : u = who <;> simp [Roster.leave, Roster.delist, same]
  exact groups

theorem leave {c : ChanId} {who : ClientId} (member : who ∈ (t.chan c).memberIds) :
    (t.removeUserFromChannel who c).Sound := by
  have roster := roster_removeUserFromChannel h.mirror member
  have listed := h.listed_of_member member
  have counted := h.users_eq c
  have pos := List.length_pos_of_mem member
  obtain ⟨directory, nextChan, freed⟩ := removeUserFromChannel_directory t who c
  have proper : ∀ u, ((t.removeUserFromChannel who c).client u).identity.Proper := by
    intro u
    rw [directory.identity]
    exact h.proper u
  have outside : ∀ u, ((t.removeUserFromChannel who c).client u).user = false →
      ((t.removeUserFromChannel who c).client u).channel = [] := by
    intro u nobody
    have before := h.outside u (directory.user u ▸ nobody)
    rw [h.groups_leave member]
    split
    · next same => rw [same] at before; rw [before]; rfl
    · exact before
  have left := h.mirror.leave member
  -- the last member takes the channel with it, unless the channel is juped
  by_cases last : (t.chan c).users = 1 ∧ (t.chan c).juped = false
  · rw [if_pos last] at roster
    have nobody : (t.roster.leave who c).members c = [] := by
      have size := left.size_eq c
      have one : (t.roster.leave who c).size c = 0 := by
        simp [Roster.leave, Tables.roster, last.1]
      rw [one] at size
      exact List.eq_nil_of_length_eq_zero (by omega)
    have channel : (t.removeUserFromChannel who c).channel = t.channel.erase c :=
      congrArg Roster.list roster
    have others : ∀ d ∈ t.channel.erase c, d ≠ c ∧ d ∈ t.channel := fun d rest =>
      h.mirror.list_nodup.mem_erase_iff.1 rest
    refine ⟨?_, fun d rest => ?_, fun d rest => ?_, fun d rest => ?_, fun d later => ?_, outside,
      proper⟩
    · rw [roster]
      exact left.delist listed nobody
    · have other := others d (channel ▸ rest)
      rw [removeUserFromChannel_chname]
      exact hashFindChannel_delist (congrArg Roster.bucket roster)
        (t.removeUserFromChannel_chname who c) (h.named d other.2) other.1
    · rw [nextChan]
      exact h.allocated d (others d (channel ▸ rest)).2
    · have other := others d (channel ▸ rest)
      rw [freed d other.1]
      exact h.live d other.2
    -- an identity that is not in use yet is not that of the channel that goes
    · have later' : t.nextChan ≤ d := nextChan ▸ later
      have other : d ≠ c := Nat.ne_of_gt (Nat.lt_of_lt_of_le (h.allocated c listed) later')
      rw [freed d other]
      exact h.unborn d later'
  · rw [if_neg last] at roster
    have channel : (t.removeUserFromChannel who c).channel = t.channel :=
      congrArg Roster.list roster
    have kept : (t.removeUserFromChannel who c).freed = t.freed := by
      apply removeUserFromChannel_freed
      · cases juped : (t.chan c).juped with
        | true => exact Or.inr rfl
        | false => exact Or.inl fun one => last ⟨one, juped⟩
      · omega
    refine ⟨?_, fun d rest => ?_, ?_, ?_, ?_, outside, proper⟩
    · rw [roster]
      exact left
    · rw [removeUserFromChannel_chname, hashFindChannel_congr (congrArg Roster.bucket roster)
        (t.removeUserFromChannel_chname who c)]
      exact h.named d (channel ▸ rest)
    · rw [channel, nextChan]
      exact h.allocated
    · rw [channel, kept]
      exact h.live
    · rw [nextChan, kept]
      exact h.unborn

theorem unlink {c : ChanId} (alike : Alike t t') (listed : c ∈ t.channel)
    (empty : (t.chan c).memberIds = []) : (t'.unlinkChannel c).Sound := by
  have sound := h.alike alike
  have listed' : c ∈ t'.channel := alike.channel ▸ listed
  have empty' : t'.roster.members c = [] := (alike.memberIds c).trans empty
  have others : ∀ d ∈ t'.channel.erase c, d ≠ c ∧ d ∈ t'.channel := fun d rest =>
    sound.mirror.list_nodup.mem_erase_iff.1 rest
  have freed : ∀ d, d ≠ c → (t'.unlinkChannel c).freed d = t'.freed d := fun d other => by
    simp [unlinkChannel, delFromChannelHashTable, other]
  refine ⟨?_, fun d rest => ?_, fun d rest => ?_, fun d rest => ?_, fun d later => ?_,
    sound.outside, sound.proper⟩
  · exact sound.mirror.delist listed' empty'
  · have other := others d rest
    exact @hashFindChannel_delist t' (t'.unlinkChannel c) c rfl (fun _ => rfl) _ _
      (sound.named d other.2) other.1
  · exact sound.allocated d (others d rest).2
  · rw [freed d (others d rest).1]
    exact sound.live d (others d rest).2
  · have later' : t'.nextChan ≤ d := later
    have other : d ≠ c := Nat.ne_of_gt (Nat.lt_of_lt_of_le (sound.allocated c listed') later')
    rw [freed d other]
    exact sound.unborn d later'

theorem edit (step : Edit t t') : t'.Sound := by
  cases step with
  | settings alike => exact h.alike alike
  | create absent => exact h.create absent
  | enter flags listed user new => exact h.enter flags listed user new
  | leave member => exact h.leave member
  | unlink alike _ listed empty => exact h.unlink alike listed empty

theorem edits (steps : Edits t t') : t'.Sound := by
  induction steps with
  | refl => exact h
  | tail _ step ih => exact ih.edit step

theorem settled_edit (step : Edit t t') {c : ChanId} (settled : t.Settled c)
    (old : c < t.nextChan) : t'.Settled c := by
  cases step with
  | settings alike jupes =>
    intro listed
    rw [alike.memberIds]
    cases settled (alike.channel ▸ listed) with
    | inl members => exact Or.inl members
    | inr juped => exact (jupes c juped).symm
  | @create name absent =>
    intro listed
    have other : c ≠ t.nextChan := Nat.ne_of_lt old
    have listed' : c ∈ t.channel := (List.mem_cons.1 listed).resolve_left other
    have same : (t.createChannel name).chan c = t.chan c := by
      simp [createChannel, addToChannelHashTable, setChan, other]
    rw [same]
    exact settled listed'
  | @enter d who flags inList user new =>
    intro listed
    have channel : c ∈ t.channel := by
      have list : (t.addUserToChannel d who flags).channel = t.channel :=
        congrArg Roster.list (roster_addUserToChannel user d flags)
      exact list ▸ listed
    rw [addUserToChannel_chan]
    split
    · exact Or.inl (by simp [Channel.memberIds])
    · exact settled channel
  -- the channel that is left is settled because it keeps a member or is juped; had it been
  -- neither, it would be off the list
  | @leave d who member =>
    intro listed
    have roster := roster_removeUserFromChannel h.mirror member
    have members := congrFun (congrArg Roster.members roster) c
    have list := congrArg Roster.list roster
    have juped := removeUserFromChannel_juped t who d c
    rw [juped]
    by_cases here : c = d
    · subst here
      by_cases last : (t.chan c).users = 1 ∧ (t.chan c).juped = false
      · rw [if_pos last] at list
        have erased : (t.removeUserFromChannel who c).channel = t.channel.erase c := list
        have gone : c ∈ t.channel.erase c := erased ▸ listed
        exact absurd rfl (h.mirror.list_nodup.mem_erase_iff.1 gone).1
      · rw [if_neg last] at members
        have left : ((t.removeUserFromChannel who c).chan c).memberIds =
            ((t.chan c).memberIds).erase who := by
          refine members.trans ?_
          simp [Roster.leave, Tables.roster]
        have length := List.length_erase_of_mem member
        have counted := h.users_eq c
        by_cases one : (t.chan c).users = 1
        · exact Or.inr (Bool.eq_true_of_not_eq_false fun off => last ⟨one, off⟩)
        · refine Or.inl fun none => ?_
          rw [← left, none] at length
          have pos := List.length_pos_of_mem member
          simp only [List.length_nil] at length
          omega
    · have same : ((t.removeUserFromChannel who d).chan c).memberIds = (t.chan c).memberIds := by
        refine members.trans ?_
        split <;> simp [Roster.leave, Roster.delist, Tables.roster, here]
      have listed' : c ∈ t.channel := by
        have in' : c ∈ (t.removeUserFromChannel who d).roster.list := listed
        rw [roster] at in'
        split at in'
        · exact List.mem_of_mem_erase in'
        · exact in'
      rw [same]
      exact settled listed'
  | @unlink t₁ d alike jupes inList empty =>
    intro listed
    have sound := h.alike alike
    have both : c ≠ d ∧ c ∈ t₁.channel := sound.mirror.list_nodup.mem_erase_iff.1 listed
    have same : (t₁.chan c).memberIds = (t.chan c).memberIds := alike.memberIds c
    show (t₁.chan c).memberIds ≠ [] ∨ _
    rw [same]
    cases settled (alike.channel ▸ both.2) with
    | inl members => exact Or.inl members
    | inr juped => exact (jupes c both.1 juped).symm

end Sound

theorem Sound.settled_step {t t' : Tables} (h : t.Sound) (step : Edit t t')
    (old : t'.nextChan = t.nextChan) {c : ChanId} (settled : t.Settled c) : t'.Settled c := by
  by_cases allocated : c < t.nextChan
  · exact h.settled_edit step settled allocated
  · intro listed
    have allocated' := (h.edit step).allocated c listed
    exact absurd (old ▸ allocated') allocated

theorem Sound.settled_create {t : Tables} (h : t.Sound) {name : CStr}
    (absent : t.hashFindChannel name = none) {c : ChanId} (other : c ≠ t.nextChan)
    (settled : t.Settled c) : (t.createChannel name).Settled c := by
  by_cases old : c < t.nextChan
  · exact h.settled_edit (.create absent) settled old
  · intro listed
    have cases : c = t.nextChan ∨ c ∈ t.channel := List.mem_cons.1 listed
    exact absurd (h.allocated c (cases.resolve_left other)) old

def Frees (t : Tables) (c : ChanId) : Prop := (t.chan c).users = 1 ∧ (t.chan c).juped = false

instance (t : Tables) (c : ChanId) : Decidable (t.Frees c) := by
  unfold Frees
  infer_instance

theorem freed_removeUserFromChannel {t : Tables} {who : ClientId} {c : ChanId}
    (last : t.Frees c) : (t.removeUserFromChannel who c).freed c = true := by
  have before := unlinkMember_chan t who c
  have users : ((t.unlinkMember who c).chan c).users = 1 := by rw [before]; exact last.1
  have juped : ((t.unlinkMember who c).chan c).juped = false := by rw [before]; exact last.2
  rw [removeUserFromChannel_eq, sub1FromChannel_eq, emptied_juped, users, juped]
  simp [destroyChannel, delFromChannelHashTable, setChan]

namespace Sound

variable {t : Tables} (h : t.Sound) {who : ClientId} {c : ChanId}
  (member : who ∈ (t.chan c).memberIds)
include h member

theorem listed_leave (more : ¬ t.Frees c) : c ∈ (t.removeUserFromChannel who c).channel := by
  have roster := roster_removeUserFromChannel h.mirror member
  have more' : ¬ ((t.chan c).users = 1 ∧ (t.chan c).juped = false) := more
  rw [if_neg more'] at roster
  have channel : (t.removeUserFromChannel who c).channel = t.channel := congrArg Roster.list roster
  exact channel ▸ h.listed_of_member member

theorem frees_leave {d : ChanId} (other : d ≠ c) :
    (t.removeUserFromChannel who c).Frees d ↔ t.Frees d := by
  have roster := roster_removeUserFromChannel h.mirror member
  have users : ((t.removeUserFromChannel who c).chan d).users = (t.chan d).users := by
    refine (congrFun (congrArg Roster.size roster) d).trans ?_
    split <;> simp [Roster.leave, Roster.delist, Tables.roster, other]
  unfold Frees
  rw [users, removeUserFromChannel_juped]

end Sound

end Tables

end Ircd
