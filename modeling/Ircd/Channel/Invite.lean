import Ircd.Channel.Edit

/-! `add_invite`, and the two lists of an invitation.

A channel lists the clients that it invites and each of these lists the channel. Of the
edits of the tables most leave both lists alone; the others are followed one at a time.
-/

set_option autoImplicit false

namespace Ircd

namespace Tables

/-- The eviction in `add_invite`: the oldest invitation of a client that has too many. -/
def evictInvite (t : Tables) (u : ClientId) : Tables :=
  match (t.client u).invited with
  | [] => t
  | oldest :: rest =>
    if ((oldest :: rest).length : Int) ≥ maxChannelsPerUser then t.delInvite u oldest else t

def addInvite (t : Tables) (u : ClientId) (c : ChanId) : Tables :=
  let t := (t.delInvite u c).evictInvite u
  let t := t.setChan c { t.chan c with invites := u :: (t.chan c).invites }
  t.setClient u { t.client u with invited := (t.client u).invited ++ [c] }

structure Invited (t : Tables) : Prop where
  mirror : ∀ u c, u ∈ (t.chan c).invites ↔ c ∈ (t.client u).invited
  invites_nodup : ∀ c, (t.chan c).invites.Nodup
  invited_nodup : ∀ u, (t.client u).invited.Nodup
  limit : ∀ u, ((t.client u).invited.length : Int) ≤ maxChannelsPerUser
  listed : ∀ u, ∀ c ∈ (t.client u).invited, c ∈ t.channel
  person : ∀ u, (t.client u).invited ≠ [] →
    (t.client u).isPerson = true ∧ (t.client u).name ≠ []
  allocated : ∀ c ∈ t.channel, c < t.nextChan

structure SameInvites (t t' : Tables) : Prop where
  invites : ∀ c, (t'.chan c).invites = (t.chan c).invites
  invited : ∀ u, (t'.client u).invited = (t.client u).invited
  isPerson : ∀ u, (t'.client u).isPerson = (t.client u).isPerson
  name : ∀ u, (t'.client u).name = (t.client u).name
  channel : t'.channel = t.channel
  nextChan : t'.nextChan = t.nextChan

namespace SameInvites

variable {t t' t'' : Tables}

theorem refl (t : Tables) : SameInvites t t :=
  ⟨fun _ => rfl, fun _ => rfl, fun _ => rfl, fun _ => rfl, rfl, rfl⟩

theorem trans (h : SameInvites t t') (h' : SameInvites t' t'') : SameInvites t t'' where
  invites := fun c => (h'.invites c).trans (h.invites c)
  invited := fun u => (h'.invited u).trans (h.invited u)
  isPerson := fun u => (h'.isPerson u).trans (h.isPerson u)
  name := fun u => (h'.name u).trans (h.name u)
  channel := h'.channel.trans h.channel
  nextChan := h'.nextChan.trans h.nextChan

theorem invited_of (h : SameInvites t t') (inv : t.Invited) : t'.Invited where
  mirror := fun u c => by rw [h.invites, h.invited]; exact inv.mirror u c
  invites_nodup := fun c => by rw [h.invites]; exact inv.invites_nodup c
  invited_nodup := fun u => by rw [h.invited]; exact inv.invited_nodup u
  limit := fun u => by rw [h.invited]; exact inv.limit u
  listed := fun u => by rw [h.invited, h.channel]; exact inv.listed u
  person := fun u => by rw [h.invited, h.isPerson, h.name]; exact inv.person u
  allocated := by rw [h.channel, h.nextChan]; exact inv.allocated

theorem setChan {c : ChanId} {ch : Channel} (invites : ch.invites = (t.chan c).invites) :
    SameInvites t (t.setChan c ch) where
  invites := fun d => by
    by_cases here : d = c
    · subst here
      simpa [Tables.setChan] using invites
    · simp [Tables.setChan, here]
  invited := fun _ => rfl
  isPerson := fun _ => rfl
  name := fun _ => rfl
  channel := rfl
  nextChan := rfl

theorem setClient {u : ClientId} {cl : Client} (invited : cl.invited = (t.client u).invited)
    (isPerson : cl.isPerson = (t.client u).isPerson) (name : cl.name = (t.client u).name) :
    SameInvites t (t.setClient u cl) where
  invites := fun _ => rfl
  invited := fun v => by
    by_cases here : v = u
    · subst here
      simpa [Tables.setClient] using invited
    · simp [Tables.setClient, here]
  isPerson := fun v => by
    by_cases here : v = u
    · subst here
      simpa [Tables.setClient] using isPerson
    · simp [Tables.setClient, here]
  name := fun v => by
    by_cases here : v = u
    · subst here
      simpa [Tables.setClient] using name
    · simp [Tables.setClient, here]
  channel := rfl
  nextChan := rfl

theorem addUserToChannel (t : Tables) (c : ChanId) (who : ClientId) (flags : MemberFlags) :
    SameInvites t (t.addUserToChannel c who flags) := by
  unfold Tables.addUserToChannel
  split
  · have entered := @setChan t c { t.chan c with
      members := { cptr := who, flags := flags } :: (t.chan c).members
      users := (t.chan c).users + 1 } rfl
    exact entered.trans (setClient rfl rfl rfl)
  · exact refl t

theorem unlinkMember (t : Tables) (who : ClientId) (c : ChanId) :
    SameInvites t (t.unlinkMember who c) := by
  have left := @setChan t c { t.chan c with
    members := (t.chan c).members.eraseP fun link => link.cptr == who } rfl
  exact left.trans (setClient rfl rfl rfl)

end SameInvites

theorem delInvite_invites (t : Tables) (u : ClientId) (c d : ChanId) :
    ((t.delInvite u c).chan d).invites =
      if d = c then (t.chan c).invites.erase u else (t.chan d).invites := by
  by_cases here : d = c
  · subst here
    simp [delInvite, setChan, setClient]
  · simp [delInvite, setChan, setClient, here]

theorem delInvite_invited (t : Tables) (u v : ClientId) (c : ChanId) :
    ((t.delInvite u c).client v).invited =
      if v = u then (t.client u).invited.erase c else (t.client v).invited := by
  by_cases here : v = u
  · subst here
    simp [delInvite, setChan, setClient]
  · simp [delInvite, setChan, setClient, here]

theorem delInvite_client (t : Tables) (u v : ClientId) (c : ChanId) :
    ((t.delInvite u c).client v).isPerson = (t.client v).isPerson ∧
      ((t.delInvite u c).client v).name = (t.client v).name := by
  by_cases here : v = u
  · subst here
    simp [delInvite, setChan, setClient, Client.isPerson, Client.isClient]
  · simp [delInvite, setChan, setClient, here]

theorem Invited.delInvite {t : Tables} (inv : t.Invited) (u : ClientId) (c : ChanId) :
    (t.delInvite u c).Invited where
  mirror := fun v d => by
    have old := inv.mirror v d
    rw [delInvite_invites, delInvite_invited]
    -- the pair taken out, and pairs that share one side of it or none
    by_cases group : d = c <;> by_cases user : v = u <;>
      simp_all [(inv.invites_nodup c).mem_erase_iff, (inv.invited_nodup u).mem_erase_iff]
  invites_nodup := fun d => by
    rw [delInvite_invites]
    split
    · exact (inv.invites_nodup c).erase u
    · exact inv.invites_nodup d
  invited_nodup := fun v => by
    rw [delInvite_invited]
    split
    · exact (inv.invited_nodup u).erase c
    · exact inv.invited_nodup v
  limit := fun v => by
    rw [delInvite_invited]
    split
    · have shorter := (List.erase_sublist (a := c) (l := (t.client u).invited)).length_le
      have limit := inv.limit u
      omega
    · exact inv.limit v
  listed := fun v d inside => by
    rw [delInvite_invited] at inside
    split at inside
    · exact inv.listed u d (List.mem_of_mem_erase inside)
    · exact inv.listed v d inside
  person := fun v some => by
    rw [(delInvite_client t u v c).1, (delInvite_client t u v c).2]
    apply inv.person v
    rw [delInvite_invited] at some
    split at some
    · next same =>
      subst same
      intro none
      rw [none] at some
      exact some rfl
    · exact some
  allocated := inv.allocated

theorem Invited.evictInvite {t : Tables} (inv : t.Invited) (u : ClientId) :
    (t.evictInvite u).Invited ∧ ∀ c, ((t.evictInvite u).chan c).invites ⊆ (t.chan c).invites := by
  unfold Tables.evictInvite
  split
  · exact ⟨inv, fun _ => List.Subset.refl _⟩
  · split
    · refine ⟨inv.delInvite u _, fun c => ?_⟩
      rw [delInvite_invites]
      split
      · next same =>
        subst same
        exact List.erase_subset
      · exact List.Subset.refl _
    · exact ⟨inv, fun _ => List.Subset.refl _⟩

theorem Invited.room {t : Tables} (inv : t.Invited) (u : ClientId) :
    (((t.evictInvite u).client u).invited.length : Int) < maxChannelsPerUser := by
  have limit := inv.limit u
  unfold Tables.evictInvite
  split
  · next none =>
    rw [none]
    decide
  · next oldest rest some =>
    rw [some] at limit
    split
    · rw [delInvite_invited, if_pos rfl, some, List.erase_cons_head]
      simp only [List.length_cons] at limit
      omega
    · next fewer =>
      rw [some]
      omega

theorem evictInvite_client (t : Tables) (u v : ClientId) :
    ((t.evictInvite u).client v).isPerson = (t.client v).isPerson ∧
      ((t.evictInvite u).client v).name = (t.client v).name := by
  unfold Tables.evictInvite
  split
  · exact ⟨rfl, rfl⟩
  · split
    · exact delInvite_client t u v _
    · exact ⟨rfl, rfl⟩

theorem evictInvite_channel (t : Tables) (u : ClientId) :
    (t.evictInvite u).channel = t.channel ∧ (t.evictInvite u).nextChan = t.nextChan := by
  unfold Tables.evictInvite
  split
  · exact ⟨rfl, rfl⟩
  · split <;> exact ⟨rfl, rfl⟩

theorem Invited.addInvite {t : Tables} (inv : t.Invited) {u : ClientId} {c : ChanId}
    (person : (t.client u).isPerson = true) (named : (t.client u).name ≠ [])
    (listed : c ∈ t.channel) : (t.addInvite u c).Invited := by
  have deleted := inv.delInvite u c
  have absent : u ∉ ((t.delInvite u c).chan c).invites := by
    rw [delInvite_invites, if_pos rfl]
    exact (inv.invites_nodup c).not_mem_erase
  obtain ⟨evicted, fewer⟩ := deleted.evictInvite u
  have room := deleted.room u
  have client : (((t.delInvite u c).evictInvite u).client u).isPerson = true ∧
      (((t.delInvite u c).evictInvite u).client u).name ≠ [] := by
    have same := evictInvite_client (t.delInvite u c) u u
    have same' := delInvite_client t u u c
    rw [same.1, same.2, same'.1, same'.2]
    exact ⟨person, named⟩
  have channel : c ∈ ((t.delInvite u c).evictInvite u).channel := by
    rw [(evictInvite_channel _ u).1]
    exact listed
  -- the pair is new on both sides, so neither list gets it twice
  have outside : u ∉ (((t.delInvite u c).evictInvite u).chan c).invites :=
    fun inside => absent (fewer c inside)
  unfold Tables.addInvite
  generalize (t.delInvite u c).evictInvite u = m at evicted room client channel outside ⊢
  have outside' : c ∉ (m.client u).invited := fun inside => outside ((evicted.mirror u c).2 inside)
  have invites : ∀ d, (((m.setChan c { m.chan c with invites := u :: (m.chan c).invites }).setClient
      u { m.client u with invited := (m.client u).invited ++ [c] }).chan d).invites =
        if d = c then u :: (m.chan c).invites else (m.chan d).invites := by
    intro d
    by_cases here : d = c
    · subst here
      simp [setChan, setClient]
    · simp [setChan, setClient, here]
  have invited : ∀ v, (((m.setChan c { m.chan c with invites := u :: (m.chan c).invites }).setClient
      u { m.client u with invited := (m.client u).invited ++ [c] }).client v).invited =
        if v = u then (m.client u).invited ++ [c] else (m.client v).invited := by
    intro v
    by_cases here : v = u
    · subst here
      simp [setChan, setClient]
    · simp [setChan, setClient, here]
  have identity : ∀ v, (((m.setChan c { m.chan c with invites := u :: (m.chan c).invites }).setClient
      u { m.client u with invited := (m.client u).invited ++ [c] }).client v).isPerson =
        (m.client v).isPerson ∧ (((m.setChan c { m.chan c with
          invites := u :: (m.chan c).invites }).setClient u { m.client u with
            invited := (m.client u).invited ++ [c] }).client v).name = (m.client v).name := by
    intro v
    by_cases here : v = u
    · subst here
      simp [setChan, setClient, Client.isPerson, Client.isClient]
    · simp [setChan, setClient, here]
  refine ⟨fun v d => ?_, fun d => ?_, fun v => ?_, fun v => ?_, fun v d inside => ?_,
    fun v some => ?_, evicted.allocated⟩
  · refine (iff_of_eq (congrArg (v ∈ ·) (invites d))).trans
      (Iff.trans ?_ (iff_of_eq (congrArg (d ∈ ·) (invited v))).symm)
    -- the two lists grow by the same pair
    have old := evicted.mirror v d
    by_cases group : d = c <;> by_cases user : v = u <;> simp_all
  · refine (congrArg List.Nodup (invites d)).mpr ?_
    split
    · exact List.nodup_cons.2 ⟨outside, evicted.invites_nodup c⟩
    · exact evicted.invites_nodup d
  · refine (congrArg List.Nodup (invited v)).mpr ?_
    split
    · exact List.nodup_append.2 ⟨evicted.invited_nodup u, by simp, by
        rintro a among b last rfl
        exact outside' (List.mem_singleton.1 last ▸ among)⟩
    · exact evicted.invited_nodup v
  · refine (congrArg (fun l => (l.length : Int) ≤ maxChannelsPerUser) (invited v)).mpr ?_
    split
    · simp only [List.length_append, List.length_singleton]
      omega
    · exact evicted.limit v
  · have among := (congrArg (d ∈ ·) (invited v)).mp inside
    split at among
    · rcases List.mem_append.1 among with old | new
      · exact evicted.listed u d old
      · rw [List.mem_singleton.1 new]
        exact channel
    · exact evicted.listed v d among
  · refine (congrArg₂ (fun p n => p = true ∧ n ≠ []) (identity v).1 (identity v).2).mpr ?_
    by_cases same : v = u
    · subst same
      exact client
    · refine evicted.person v ?_
      have list := (invited v).symm
      rw [if_neg same] at list
      rw [list]
      exact some

theorem Invited.delInvites {t : Tables} (inv : t.Invited) (c : ChanId) (us : List ClientId) :
    (t.delInvites c us).Invited := by
  induction us generalizing t with
  | nil => exact inv
  | cons u us ih => exact ih (inv.delInvite u c)

theorem delInvites_invites {t : Tables} {c : ChanId} {us : List ClientId}
    (all : (t.chan c).invites = us) : ((t.delInvites c us).chan c).invites = [] := by
  induction us generalizing t with
  | nil => exact all
  | cons u us ih =>
    apply ih
    rw [delInvite_invites, if_pos rfl, all, List.erase_cons_head]

theorem Invited.uninvites {t t' : Tables} (inv : t.Invited) {c : ChanId}
    {gone rest : List ClientId} (all : gone ++ rest = (t.chan c).invites)
    (invites : ∀ d, (t'.chan d).invites = if d = c then rest else (t.chan d).invites)
    (invited : ∀ u, (t'.client u).invited =
      if u ∈ gone then (t.client u).invited.erase c else (t.client u).invited)
    (client : ∀ u, (t'.client u).isPerson = (t.client u).isPerson ∧
      (t'.client u).name = (t.client u).name)
    (channel : t'.channel = t.channel) (nextChan : t'.nextChan = t.nextChan) : t'.Invited := by
  -- who has gone from the list of the channel has lost it from his own
  have nodup : (gone ++ rest).Nodup := all ▸ inv.invites_nodup c
  have fewer : ∀ u, (t'.client u).invited.Sublist (t.client u).invited := by
    intro u
    rw [invited]
    split
    · exact List.erase_sublist
    · exact List.Sublist.refl _
  refine ⟨fun u d => ?_, fun d => ?_, fun u => (inv.invited_nodup u).sublist (fewer u), fun u => ?_,
    fun u d inside => ?_, fun u some => ?_, ?_⟩
  · have old := inv.mirror u d
    have distinct := (List.nodup_append.1 nodup).2.2
    rw [invites, invited]
    by_cases here : d = c
    · subst here
      rw [if_pos rfl]
      rw [← all, List.mem_append] at old
      split
      · next out =>
        rw [(inv.invited_nodup u).mem_erase_iff]
        exact iff_of_false (fun kept => distinct u out u kept rfl) fun kept => kept.1 rfl
      · next stays =>
        rw [← old]
        exact ⟨Or.inr, fun either => either.resolve_left stays⟩
    · rw [if_neg here, old]
      split
      · rw [List.mem_erase_of_ne here]
      · exact Iff.rfl
  · rw [invites]
    split
    · exact (List.nodup_append.1 nodup).2.1
    · exact inv.invites_nodup d
  · have shorter := (fewer u).length_le
    have limit := inv.limit u
    omega
  · rw [channel]
    exact inv.listed u d ((fewer u).subset inside)
  · rw [(client u).1, (client u).2]
    apply inv.person u
    intro none
    have empty := fewer u
    rw [none] at empty
    exact some (List.sublist_nil.1 empty)
  · rw [channel, nextChan]
    exact inv.allocated

theorem Invited.delist {t t' : Tables} (inv : t.Invited) {c : ChanId}
    (nobody : (t.chan c).invites = []) (invites : ∀ d, (t'.chan d).invites = (t.chan d).invites)
    (client : t'.client = t.client) (channel : t'.channel = t.channel.erase c)
    (nextChan : t'.nextChan = t.nextChan) : t'.Invited where
  mirror := fun u d => by rw [invites, client]; exact inv.mirror u d
  invites_nodup := fun d => by rw [invites]; exact inv.invites_nodup d
  invited_nodup := fun u => by rw [client]; exact inv.invited_nodup u
  limit := fun u => by rw [client]; exact inv.limit u
  listed := fun u d inside => by
    rw [client] at inside
    have other : d ≠ c := by
      rintro rfl
      have back := (inv.mirror u d).2 inside
      rw [nobody] at back
      cases back
    rw [channel]
    exact (List.mem_erase_of_ne other).2 (inv.listed u d inside)
  person := fun u => by rw [client]; exact inv.person u
  allocated := fun d inside => by
    rw [channel] at inside
    rw [nextChan]
    exact inv.allocated d (List.mem_of_mem_erase inside)

theorem Invited.destroyChannel {t : Tables} (inv : t.Invited) {c : ChanId}
    (nobody : (t.chan c).invites = []) : (t.destroyChannel c).Invited := by
  have freed : SameInvites t (t.setChan c (t.chan c).freeBansExceptionsDenies) := .setChan rfl
  refine (freed.invited_of inv).delist (c := c) ?_ (fun _ => rfl) rfl rfl rfl
  rw [freed.invites]
  exact nobody

theorem Invited.sub1FromChannel {t : Tables} (inv : t.Invited) (c : ChanId) :
    (t.sub1FromChannel c).Invited := by
  rw [sub1FromChannel_eq]
  have counted : ∀ n, (t.setChan c { t.chan c with users := n }).Invited := by
    intro n
    have same := @SameInvites.setChan t c { t.chan c with users := n } rfl
    exact same.invited_of inv
  split
  · have emptied : (t.emptied c).Invited := (counted 0).delInvites c _
    split
    · exact emptied
    · exact emptied.destroyChannel (delInvites_invites rfl)
  · exact counted _

theorem Invited.removeUserFromChannel {t : Tables} (inv : t.Invited) (who : ClientId)
    (c : ChanId) : (t.removeUserFromChannel who c).Invited :=
  ((SameInvites.unlinkMember t who c).invited_of inv).sub1FromChannel c

theorem Invited.createChannel {t : Tables} (inv : t.Invited) (name : CStr) :
    (t.createChannel name).Invited := by
  have nobody : (t.chan t.nextChan).invites = [] := by
    apply List.eq_nil_iff_forall_not_mem.2
    intro u inside
    have listed := inv.listed u _ ((inv.mirror u _).1 inside)
    exact Nat.lt_irrefl _ (inv.allocated _ listed)
  have invites : ∀ d, ((t.createChannel name).chan d).invites = (t.chan d).invites := by
    intro d
    by_cases here : d = t.nextChan
    · subst here
      simp [Tables.createChannel, addToChannelHashTable, setChan, freshChannel, Channel.zero, nobody]
    · simp [Tables.createChannel, addToChannelHashTable, setChan, here]
  refine ⟨fun u d => ?_, fun d => ?_, inv.invited_nodup, inv.limit, fun u d inside => ?_,
    inv.person, fun d inside => ?_⟩
  · rw [invites]
    exact inv.mirror u d
  · rw [invites]
    exact inv.invites_nodup d
  · exact List.mem_cons_of_mem _ (inv.listed u d inside)
  · rcases List.mem_cons.1 inside with rfl | old
    · exact Nat.lt_succ_self _
    · exact Nat.lt_succ_of_lt (inv.allocated d old)

theorem Invited.replace {t t' : Tables} (inv : t.Invited) {u : ClientId} {cl : Client}
    (nowhere : (t.client u).invited = []) (fresh : cl.invited = [])
    (client : t'.client = Function.update t.client u cl) (chan : t'.chan = t.chan)
    (channel : t'.channel = t.channel) (nextChan : t'.nextChan = t.nextChan) : t'.Invited := by
  have invited : ∀ v, (t'.client v).invited = (t.client v).invited := by
    intro v
    rw [client]
    by_cases here : v = u
    · subst here
      rw [Function.update_self, fresh, nowhere]
    · rw [Function.update_of_ne here]
  refine ⟨fun v d => ?_, fun d => ?_, fun v => ?_, fun v => ?_, fun v => ?_, fun v some => ?_, ?_⟩
  · rw [chan, invited]
    exact inv.mirror v d
  · rw [chan]
    exact inv.invites_nodup d
  · rw [invited]
    exact inv.invited_nodup v
  · rw [invited]
    exact inv.limit v
  · rw [invited, channel]
    exact inv.listed v
  · rw [invited] at some
    have other : v ≠ u := by
      rintro rfl
      exact some nowhere
    rw [client, Function.update_of_ne other]
    exact inv.person v some
  · rw [channel, nextChan]
    exact inv.allocated

theorem Invited.nowhere {t : Tables} (inv : t.Invited) {u : ClientId}
    (outside : (t.client u).isPerson = false ∨ (t.client u).name = []) :
    (t.client u).invited = [] := by
  by_contra some
  have person := inv.person u some
  rcases outside with other | unnamed
  · rw [person.1] at other
    cases other
  · exact person.2 unnamed

theorem Invited.removeClientFromList {t : Tables} (inv : t.Invited) {u : ClientId}
    (nowhere : (t.client u).invited = []) : (t.removeClientFromList u).Invited := by
  unfold Tables.removeClientFromList
  dsimp only
  have history : ∀ m : Tables, (m = if (t.client u).isPerson = true
      then (t.addHistory u none).offHistory u else t) →
      m.client = t.client ∧ m.chan = t.chan ∧ m.channel = t.channel ∧ m.nextChan = t.nextChan := by
    rintro m rfl
    split <;> exact ⟨rfl, rfl, rfl, rfl⟩
  generalize noted : (if (t.client u).isPerson = true then (t.addHistory u none).offHistory u
    else t) = m
  obtain ⟨client, chan, channel, nextChan⟩ := history m noted.symm
  have fresh : ({ m.client u with user := false } : Client).invited = [] := by
    rw [client]
    exact nowhere
  exact inv.replace nowhere fresh (by rw [client]) chan channel nextChan

end Tables

end Ircd
