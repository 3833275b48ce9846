import Ircd.Channel.Lifetime

/-! The mirrored membership lists and the channels on the list, in every state of a run.

Both follow from what one event keeps: the lists from `Sound`, the channels from
`Settled`, which an SJOIN without accepted nicks and a dropped Q-line can break.
-/

set_option autoImplicit false

namespace Ircd

open Server

structure MembershipMirror (t : Tables) : Prop where
  member_iff : ∀ u c, u ∈ (t.chan c).memberIds ↔ c ∈ (t.client u).channel
  /-- The entries of a client's list are channels. -/
  listed : ∀ u, ∀ c ∈ (t.client u).channel, c ∈ t.channel
  members_nodup : ∀ c, (t.chan c).memberIds.Nodup
  channel_nodup : ∀ u, (t.client u).channel.Nodup
  users_eq : ∀ c, (t.chan c).users = (t.chan c).members.length
  joined_eq : ∀ u, (t.client u).joined = (t.client u).channel.length
  list_nodup : t.channel.Nodup
  /-- A block is in the bucket of its own name, once, and in no other. -/
  hashed : ∀ h c, (t.channelTable h).count c =
    if c ∈ t.channel ∧ hashChannelName (t.chan c).chname = h then 1 else 0
  found : ∀ c ∈ t.channel, t.hashFindChannel (t.chan c).chname = some c
  countChan_eq : t.countChan = t.channel.length

theorem Tables.Sound.membershipMirror {t : Tables} (h : t.Sound) : MembershipMirror t where
  member_iff := h.mirror.member_iff
  listed u c inside := h.listed_of_member (h.mem_memberIds_iff.2 inside)
  members_nodup := h.mirror.members_nodup
  channel_nodup := h.mirror.groups_nodup
  users_eq c := by
    have counted := h.users_eq c
    simpa [Channel.memberIds] using counted
  joined_eq := h.mirror.joined_eq
  list_nodup := h.mirror.list_nodup
  hashed bucket c := by
    have inside : c ∈ t.channelTable bucket ↔
        c ∈ t.channel ∧ hashChannelName (t.chan c).chname = bucket := h.mirror.bucket_iff bucket c
    split
    · next here => exact List.count_eq_one_of_mem (h.mirror.bucket_nodup bucket) (inside.2 here)
    · next away => exact List.count_eq_zero_of_not_mem fun there => away (inside.1 there)
  found := h.named
  countChan_eq := h.mirror.count_eq

theorem membershipMirror_of_run {name : CStr} {now : Int} {es : List Event}
    (steps : machine.Meets Step (startUp name now) es) :
    ∀ pre, pre <+: es → MembershipMirror (machine.run (startUp name now) pre).toTables :=
  fun _ inside => (sound_run steps inside).membershipMirror

/-- The operator's `-jj` unlinks the block of the juped channel twice, and `Count.chan`
is one short. -/
theorem membershipMirror_broken :
    machine.Meets (fun s e => e.Comes s.toTables) (startUp (lit "irc.net") 100000)
      (network ++ [.command .mode 3 3 [lit "olly", lit "#jupe", lit "-jj"]]) ∧
    ¬ MembershipMirror (machine.run (startUp (lit "irc.net") 100000)
      (network ++ [.command .mode 3 3 [lit "olly", lit "#jupe", lit "-jj"]])).toTables := by
  constructor
  · have steps := network_steps.mono fun _ _ step => step.1
    exact ⟨steps.1, steps.2.1, steps.2.2.1, steps.2.2.2.1, steps.2.2.2.2.1, fun _ => rfl, trivial⟩
  · intro mirror
    have counted := mirror.countChan_eq
    revert counted
    decide +kernel

theorem network_membershipMirror :
    MembershipMirror (machine.run (startUp (lit "irc.net") 100000) network).toTables :=
  membershipMirror_of_run network_steps network (List.prefix_refl _)

structure PeopledStep (s : Server) (e : Event) : Prop where
  step : Step s e
  peopled : ¬ e.Orphans s
  rejuped : ¬ e.Unjupes s

theorem peopled_of_run {name : CStr} {now : Int} {es : List Event}
    (steps : machine.Meets PeopledStep (startUp name now) es) :
    ∀ pre, pre <+: es → ∀ c ∈ (machine.run (startUp name now) pre).channel,
      ((machine.run (startUp name now) pre).chan c).members ≠ [] ∨
        ((machine.run (startUp name now) pre).chan c).juped = true := by
  intro pre inside c listed
  have both := steps.always
    (I := fun s : Server => s.Sound ∧ ∀ c, s.Settled c)
    (fun s e both step => ⟨sound_event both.1 step.step.1 step.step.2,
      settled_event both.1 step.step.1 step.step.2 step.peopled step.rejuped both.2⟩)
    ⟨sound_startUp name now, fun c absurdity => by cases absurdity⟩ inside
  cases both.2 c listed with
  | inl members => exact Or.inl fun none => members (by simp [Channel.memberIds, none])
  | inr juped => exact Or.inr juped

def orphanSjoin : List Event :=
  [.connect 1 linkOne, .command .sjoin 1 1 [lit "one.net", lit "10", lit "#c", lit "+", lit "@zoe"]]

def droppedJupe : List Event :=
  [.rehash [] [(lit "#jupe", lit "closed")], .rehash [lit "#jupe"] []]

theorem empty_channel_survives :
    (machine.Meets (fun s e => e.Comes s.toTables) (startUp (lit "irc.net") 100000) orphanSjoin ∧
      ¬ ∀ c ∈ (machine.run (startUp (lit "irc.net") 100000) orphanSjoin).channel,
        ((machine.run (startUp (lit "irc.net") 100000) orphanSjoin).chan c).members ≠ [] ∨
          ((machine.run (startUp (lit "irc.net") 100000) orphanSjoin).chan c).juped = true) ∧
    (machine.Meets (fun s e => e.Comes s.toTables) (startUp (lit "irc.net") 100000) droppedJupe ∧
      ¬ ∀ c ∈ (machine.run (startUp (lit "irc.net") 100000) droppedJupe).channel,
        ((machine.run (startUp (lit "irc.net") 100000) droppedJupe).chan c).members ≠ [] ∨
          ((machine.run (startUp (lit "irc.net") 100000) droppedJupe).chan c).juped = true) := by
  refine ⟨⟨⟨⟨rfl, rfl, rfl, ?_⟩, fun _ => rfl, trivial⟩, ?_⟩, ⟨trivial, trivial, trivial⟩, ?_⟩
  · exact ⟨by decide, by decide⟩
  · decide +kernel
  · decide +kernel

theorem network_peopled :
    ((machine.run (startUp (lit "irc.net") 100000) network).chan 0).members ≠ [] ∨
      ((machine.run (startUp (lit "irc.net") 100000) network).chan 0).juped = true := by
  refine peopled_of_run ?_ network (List.prefix_refl _) 0 (by decide +kernel)
  obtain ⟨first, second, third, fourth, fifth, -⟩ := network_steps
  refine ⟨⟨first, id, id⟩, ⟨second, id, id⟩, ⟨third, id, id⟩, ⟨fourth, ?_, id⟩, ⟨fifth, id, ?_⟩,
    trivial⟩
  · -- anna is known behind the link
    rintro ⟨req, parsed, -, nobody⟩
    apply nobody
    have nicks : req.nicks = lit "@anna" := by
      cases parsed
      rfl
    refine ⟨lit "@anna", ?_, 2, rfl, rfl⟩
    rw [nicks]
    decide
  · intro dropped
    apply dropped
    intro name absurdity
    cases absurdity

end Ircd
