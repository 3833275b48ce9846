import Ircd.Channel.Runs

/-! What a local client can take over with a JOIN: the ops and the TS of a channel that
has members.

Whether the channel exists is decided by the name as it was given, and `get_channel` then
cuts the name, so that a name that is too long can bring the client to a channel whose
existence nothing has checked.
-/

set_option autoImplicit false

namespace Ircd

theorem Client.myConnect_of_myClient {cl : Client} (mine : cl.myClient = true) :
    cl.myConnect = true := by
  simp only [Client.myClient, Bool.and_eq_true] at mine
  exact mine.1

theorem Client.myClient_of_identity {cl cl' : Client} (same : cl'.identity = cl.identity) :
    cl'.myClient = cl.myClient := by
  have status : cl'.status = cl.status := (congrArg Client.status same :)
  have localFlag : cl'.localFlag = cl.localFlag := (congrArg Client.localFlag same :)
  simp only [Client.myClient, Client.isClient, Client.myConnect, status, localFlag]

namespace Tables

def membersOf (t : Tables) (c : ChanId) : List Member :=
  if c < t.nextChan then (t.chan c).members else []

theorem membersOf_setChan {t : Tables} {c : ChanId} {ch : Channel}
    (members : ch.members = (t.chan c).members) (d : ChanId) :
    (t.setChan c ch).membersOf d = t.membersOf d := by
  by_cases here : d = c
  · subst here
    simp [membersOf, setChan, members]
  · simp [membersOf, setChan, here]

def opsOf (t : Tables) (u : ClientId) (c : ChanId) : Nat :=
  (t.membersOf c).countP fun link => link.cptr == u && link.flags.chanop

/-- On no channel that had members does the client come to be an op, and none of them
gets another TS. -/
structure NoTakeover (u : ClientId) (t t' : Tables) : Prop where
  opsOf : ∀ c, t.membersOf c ≠ [] → t'.opsOf u c ≤ t.opsOf u c
  channelts : ∀ c, t.membersOf c ≠ [] → (t'.chan c).channelts = (t.chan c).channelts

/-- The channels of `P` keep their members and their TS, and clients are who they were. -/
structure Steady (P : ChanId → Prop) (t t' : Tables) : Prop where
  membersOf : ∀ c, P c → t'.membersOf c = t.membersOf c
  channelts : ∀ c, P c → (t'.chan c).channelts = (t.chan c).channelts
  identity : ∀ u, (t'.client u).identity = (t.client u).identity

abbrev Calm : Tables → Tables → Prop := Steady fun _ => True

namespace Steady

variable {P Q : ChanId → Prop} {t t' t'' : Tables}

theorem refl (t : Tables) : Steady P t t := ⟨fun _ _ => rfl, fun _ _ => rfl, fun _ => rfl⟩

theorem trans (h : Steady P t t') (h' : Steady P t' t'') : Steady P t t'' where
  membersOf c inside := (h'.membersOf c inside).trans (h.membersOf c inside)
  channelts c inside := (h'.channelts c inside).trans (h.channelts c inside)
  identity u := (h'.identity u).trans (h.identity u)

theorem mono (h : Steady Q t t') (sub : ∀ c, P c → Q c) : Steady P t t' where
  membersOf c inside := h.membersOf c (sub c inside)
  channelts c inside := h.channelts c (sub c inside)
  identity := h.identity

theorem of_calm (h : Calm t t') : Steady P t t' := h.mono fun _ _ => trivial

theorem noTakeover (h : Steady P t t') (all : ∀ c, t.membersOf c ≠ [] → P c) (u : ClientId) :
    NoTakeover u t t' := by
  constructor
  · intro c some
    apply Nat.le_of_eq
    rw [Tables.opsOf, h.membersOf c (all c some), Tables.opsOf]
  · intro c some
    exact h.channelts c (all c some)

theorem setChan {c : ChanId} {ch : Channel} (members : ch.members = (t.chan c).members)
    (channelts : P c → ch.channelts = (t.chan c).channelts) : Steady P t (t.setChan c ch) := by
  refine ⟨fun d _ => membersOf_setChan members d, fun d inside => ?_, fun _ => rfl⟩
  by_cases here : d = c
  · subst here
    simpa [Tables.setChan] using channelts inside
  · simp [Tables.setChan, here]

theorem setClient {u : ClientId} {cl : Client} (identity : cl.identity = (t.client u).identity) :
    Steady P t (t.setClient u cl) :=
  ⟨fun _ _ => rfl, fun _ _ => rfl, (sameDirectory_setClient t u cl identity).identity⟩

theorem delInvite (t : Tables) (u : ClientId) (c : ChanId) : Steady P t (t.delInvite u c) := by
  have chan : Steady P t (t.setChan c { t.chan c with invites := (t.chan c).invites.erase u }) :=
    setChan rfl fun _ => rfl
  apply chan.trans
  exact setClient rfl

theorem delInvites (t : Tables) (c : ChanId) (us : List ClientId) :
    Steady P t (t.delInvites c us) := by
  induction us generalizing t with
  | nil => exact .refl t
  | cons u us ih => exact (delInvite t u c).trans (ih _)

theorem destroyChannel (t : Tables) (c : ChanId) : Steady P t (t.destroyChannel c) := by
  have bans : Steady P t (t.setChan c (t.chan c).freeBansExceptionsDenies) :=
    setChan rfl fun _ => rfl
  exact bans.trans ⟨fun _ _ => rfl, fun _ _ => rfl, fun _ => rfl⟩

theorem sub1FromChannel (t : Tables) (c : ChanId) : Steady P t (t.sub1FromChannel c) := by
  rw [sub1FromChannel_eq]
  have counted : ∀ n, Steady P t (t.setChan c { t.chan c with users := n }) :=
    fun n => setChan rfl fun _ => rfl
  split
  · have emptied : Steady P t (t.emptied c) := (counted 0).trans (delInvites _ _ _)
    split
    · exact emptied
    · exact emptied.trans (destroyChannel _ c)
  · exact counted _

theorem createChannel (t : Tables) (name : CStr) :
    Steady (fun c => c ≠ t.nextChan) t (t.createChannel name) := by
  refine ⟨fun c other => ?_, fun c other => ?_, fun _ => rfl⟩
  · have bound : c < t.nextChan + 1 ↔ c < t.nextChan :=
      ⟨fun h => Nat.lt_of_le_of_ne (Nat.le_of_lt_succ h) other, Nat.lt_succ_of_lt⟩
    simp [Tables.membersOf, Tables.createChannel, addToChannelHashTable, Tables.setChan, other,
      bound]
  · simp [Tables.createChannel, addToChannelHashTable, Tables.setChan, other]

end Steady

structure Departs (t t' : Tables) : Prop where
  membersOf : ∀ c, (t'.membersOf c).Sublist (t.membersOf c)
  channelts : ∀ c, (t'.chan c).channelts = (t.chan c).channelts
  identity : ∀ u, (t'.client u).identity = (t.client u).identity

namespace Departs

variable {t t' t'' : Tables}

theorem of_calm (h : Calm t t') : Departs t t' where
  membersOf c := (h.membersOf c trivial).symm ▸ List.Sublist.refl _
  channelts c := h.channelts c trivial
  identity := h.identity

theorem trans (h : Departs t t') (h' : Departs t' t'') : Departs t t'' where
  membersOf c := (h'.membersOf c).trans (h.membersOf c)
  channelts c := (h'.channelts c).trans (h.channelts c)
  identity u := (h'.identity u).trans (h.identity u)

theorem noTakeover (h : Departs t t') (u : ClientId) : NoTakeover u t t' where
  opsOf c _ := (h.membersOf c).countP_le
  channelts c _ := h.channelts c

theorem removeUserFromChannel (t : Tables) (who : ClientId) (c : ChanId) :
    Departs t (t.removeUserFromChannel who c) := by
  rw [removeUserFromChannel_eq]
  have unlinked : Departs t (t.unlinkMember who c) := by
    refine ⟨fun d => ?_, fun d => ?_, fun u => ?_⟩
    · by_cases here : d = c
      · subst here
        unfold Tables.membersOf
        split
        · rw [if_pos (show d < t.nextChan by assumption), unlinkMember_chan]
          exact List.eraseP_sublist
        · exact List.nil_sublist _
      · simp [Tables.membersOf, unlinkMember, Tables.setClient, Tables.setChan, here]
    · by_cases here : d = c
      · subst here
        rw [unlinkMember_chan]
      · simp [unlinkMember, Tables.setClient, Tables.setChan, here]
    · have leaver : SameDirectory t (t.unlinkMember who c) :=
        (sameDirectory_setChan t c _).trans (sameDirectory_setClient _ _ _ rfl)
      exact leaver.identity u
  exact unlinked.trans (.of_calm (Steady.sub1FromChannel _ c))

end Departs

/-- A client comes to a channel with the flags `flags`; with `chanop` among them the
channel may get another TS. -/
structure Entered (u : ClientId) (c : ChanId) (flags : MemberFlags) (t t' : Tables) : Prop where
  others : Steady (fun d => d ≠ c) t t'
  membersOf : c < t.nextChan → t'.membersOf c = ⟨u, flags⟩ :: t.membersOf c
  channelts : flags.chanop = false → (t'.chan c).channelts = (t.chan c).channelts

namespace Entered

variable {u : ClientId} {c : ChanId} {flags : MemberFlags} {t t' t'' : Tables}

theorem trans_steady (h : Entered u c flags t t') (others : Steady (fun d => d ≠ c) t' t'')
    (membersOf : t''.membersOf c = t'.membersOf c)
    (channelts : flags.chanop = false → (t''.chan c).channelts = (t'.chan c).channelts) :
    Entered u c flags t t'' where
  others := h.others.trans others
  membersOf old := membersOf.trans (h.membersOf old)
  channelts noOp := (channelts noOp).trans (h.channelts noOp)

theorem trans_calm (h : Entered u c flags t t') (calm : Calm t' t'') : Entered u c flags t t'' :=
  h.trans_steady (.of_calm calm) (calm.membersOf c trivial) fun _ => calm.channelts c trivial

theorem addUserToChannel (user : (t.client u).user = true) (c : ChanId) (flags : MemberFlags) :
    Entered u c flags t (t.addUserToChannel c u flags) := by
  have same : (t.addUserToChannel c u flags).nextChan = t.nextChan := by
    simp [Tables.addUserToChannel, user, Tables.setClient, Tables.setChan]
  refine ⟨⟨fun d other => ?_, fun d other => ?_, ?_⟩, fun old => ?_, fun _ => ?_⟩
  · simp [Tables.membersOf, same, addUserToChannel_chan, other]
  · rw [addUserToChannel_chan, if_neg fun both => other both.1]
  · exact (sameDirectory_addUserToChannel t c u flags).identity
  · rw [Tables.membersOf, same, if_pos old, addUserToChannel_chan, if_pos ⟨rfl, user⟩,
      Tables.membersOf, if_pos old]
  · rw [addUserToChannel_chan, if_pos ⟨rfl, user⟩]

/-- An entry without ops, or to a channel without members, takes nothing over. -/
theorem noTakeover (h : Entered u c flags t t')
    (harmless : flags.chanop = false ∨ t.membersOf c = []) : NoTakeover u t t' := by
  have apart : ∀ d, d ≠ c → t'.opsOf u d ≤ t.opsOf u d ∧
      (t'.chan d).channelts = (t.chan d).channelts := by
    intro d other
    refine ⟨Nat.le_of_eq ?_, h.others.channelts d other⟩
    rw [Tables.opsOf, h.others.membersOf d other, Tables.opsOf]
  have here : t.membersOf c ≠ [] → t'.opsOf u c ≤ t.opsOf u c ∧
      (t'.chan c).channelts = (t.chan c).channelts := by
    intro some
    have noOp := harmless.resolve_right some
    have old : c < t.nextChan := by
      apply Decidable.byContradiction
      intro unborn
      exact some (if_neg unborn)
    refine ⟨Nat.le_of_eq ?_, h.channelts noOp⟩
    rw [Tables.opsOf, h.membersOf old]
    simp [noOp, Tables.opsOf]
  constructor
  · intro d some
    by_cases same : d = c
    · subst same
      exact (here some).1
    · exact (apart d same).1
  · intro d some
    by_cases same : d = c
    · subst same
      exact (here some).2
    · exact (apart d same).2

theorem takesOver (h : Entered u c flags t t') (chanop : flags.chanop = true)
    (some : t.membersOf c ≠ []) : ¬ NoTakeover u t t' := by
  intro harmless
  have old : c < t.nextChan := by
    apply Decidable.byContradiction
    intro unborn
    exact some (if_neg unborn)
  have counted := harmless.opsOf c some
  rw [Tables.opsOf, h.membersOf old, List.countP_cons_of_pos (by simp [chanop])] at counted
  exact Nat.not_succ_le_self _ counted

end Entered

end Tables

namespace Server

open Tables

variable {s : Server} {c : ChanId}

theorem calm_same {s' : Server} (h : s'.toTables = s.toTables) :
    Calm s.toTables s'.toTables := h ▸ .refl _

theorem calm_editClient (s : Server) (u : ClientId) (f : Client → Client)
    (identity : ∀ cl, (f cl).identity = cl.identity) :
    Calm s.toTables (s.editClient u f).toTables := .setClient (identity _)

theorem calm_leaveAccounting (s : Server) (sptr : ClientId) :
    Calm s.toTables (s.leaveAccounting sptr).toTables := by
  unfold leaveAccounting
  simp only
  split
  · generalize Output.opsBots _ = o
    exact calm_editClient (s.emit o) sptr (fun cl =>
      { cl with operWarnCountDown := operSpamCountdown }) fun _ => rfl
  · generalize (if s.currentTime - (s.client sptr).lastLeaveTime > _ then _ else _ : Int) = count
    exact calm_editClient s sptr (fun cl =>
      { cl with joinLeaveCount := count, lastLeaveTime := s.currentTime }) fun _ => rfl

theorem calm_firstModes (s : Server) (sptr : ClientId) (c : ChanId) :
    Calm s.toTables (s.firstModes sptr c).toTables := by
  unfold firstModes
  simp only [sendtoMatchServs_toTables, sendtoChannelButserv_toTables, setChan_toTables]
  exact .setChan rfl fun _ => rfl

theorem announceJoin_steady (cptr sptr : ClientId) (c : ChanId) (flags : MemberFlags)
    (parv0 name : CStr) :
    Steady (fun d => d ≠ c ∨ flags.chanop = false) s.toTables
      (s.announceJoin cptr sptr c flags parv0 name).toTables ∧
    (s.announceJoin cptr sptr c flags parv0 name).membersOf c = s.membersOf c := by
  unfold announceJoin
  simp only
  split
  · next both =>
    simp only [sendtoMatchServs_toTables, setChan_toTables]
    constructor
    · refine Steady.setChan (by rfl) fun harmless => ?_
      cases harmless with
      | inl other => exact absurd rfl other
      | inr noOp => exact absurd both.2 (by simp [noOp])
    · exact membersOf_setChan (by rfl) c
  · split <;> rw [sendtoMatchServs_toTables] <;> exact ⟨.refl _, rfl⟩

theorem entered_enterChannel {sptr : ClientId} (user : (s.client sptr).user = true)
    (cptr : ClientId) (c : ChanId) (flags : MemberFlags) (parv0 name : CStr) :
    Entered sptr c flags s.toTables (s.enterChannel cptr sptr c flags parv0 name).toTables := by
  have added : Entered sptr c flags s.toTables (s.addUserToChannel c sptr flags).toTables :=
    s.addUserToChannel_toTables c sptr flags ▸ .addUserToChannel user c flags
  unfold enterChannel greet
  generalize s.addUserToChannel c sptr flags = s₁ at added ⊢
  simp only
  obtain ⟨steady, members⟩ := announceJoin_steady (s := s₁) cptr sptr c flags parv0 name
  have announced := added.trans_steady (steady.mono fun d other => Or.inl other) members
    fun noOp => steady.channelts c (Or.inr noOp)
  generalize s₁.announceJoin cptr sptr c flags parv0 name = s₂ at announced ⊢
  have shown : Calm s₂.toTables (s₂.sendtoChannelButserv c sptr
      (':' :: parv0 ++ lit " JOIN :" ++ name)).toTables := calm_same (by simp)
  generalize s₂.sendtoChannelButserv c sptr _ = s₃ at shown ⊢
  apply (announced.trans_calm shown).trans_calm
  split
  · generalize opened : (if flags.chanop then s₃.firstModes sptr c else s₃) = s₄
    have modes : Calm s₃.toTables s₄.toTables := by
      subst opened
      split
      · exact s₃.calm_firstModes sptr c
      · exact .refl _
    have uninvited : Calm s₄.toTables (s₄.delInvite sptr c).toTables :=
      s₄.delInvite_toTables sptr c ▸ .delInvite _ sptr c
    exact modes.trans (uninvited.trans (calm_same (by rw [emit_toTables, sendTopic_toTables])))
  · exact .refl _

end Server

namespace JoinLoop

open Server Tables

variable {st st' : JoinLoop} {sptr : ClientId}

theorem calm_noteJoinTime (st : JoinLoop) (sptr : ClientId) :
    Calm st.srv.toTables (st.noteJoinTime sptr).srv.toTables := by
  unfold noteJoinTime
  split
  · exact calm_editClient _ sptr (fun cl => { cl with lastJoinTime := st.srv.currentTime })
      fun _ => rfl
  · exact .refl _

theorem calm_warnSpambot (s : Server) (sptr : ClientId) (name : CStr) :
    Calm s.toTables (warnSpambot s sptr name).toTables := by
  unfold warnSpambot
  simp only
  generalize (if (s.client sptr).operWarnCountDown > 0 then _ else (0 : Int)) = count
  split
  · generalize Output.opsBots _ = o
    exact calm_editClient (s.emit o) sptr (fun cl =>
      { cl with operWarnCountDown := operSpamCountdown }) fun _ => rfl
  · exact calm_editClient s sptr (fun cl => { cl with operWarnCountDown := count }) fun _ => rfl

theorem departs_leaveAll (sptr : ClientId) (parv0 : CStr) (cs : List ChanId) (st : JoinLoop) :
    Departs st.srv.toTables (leaveAll sptr parv0 cs st).srv.toTables := by
  induction cs generalizing st with
  | nil => exact .of_calm (.refl _)
  | cons c rest ih =>
    rw [leaveAll]
    generalize shown : st.srv.sendtoChannelButserv c sptr _ = srv
    have same : srv.toTables = st.srv.toTables := by
      subst shown
      simp
    have removed : Departs st.srv.toTables (srv.removeUserFromChannel sptr c).toTables := by
      rw [removeUserFromChannel_toTables, same]
      exact .removeUserFromChannel _ sptr c
    exact removed.trans (ih { st with srv := srv.removeUserFromChannel sptr c, chptr := some c })

theorem departs_joinZero (st : JoinLoop) (cptr sptr : ClientId) (parv0 : CStr) :
    Departs st.srv.toTables (st.joinZero cptr sptr parv0).srv.toTables := by
  unfold joinZero
  split
  · exact .of_calm (.refl _)
  · have left := departs_leaveAll sptr parv0 (st.srv.client sptr).channel st
    simp only
    generalize leaveAll sptr parv0 (st.srv.client sptr).channel st = st₁ at left ⊢
    rw [sendtoMatchServs_toTables]
    apply left.trans
    split
    · exact .of_calm (st₁.srv.calm_leaveAccounting sptr)
    · exact .of_calm (.refl _)

theorem localLookup_none {parv0 name : CStr} (absent : st.srv.hashFindChannel name = none) :
    st.localLookup sptr parv0 name =
      if splitRefuses st.srv sptr name then
        .error (({ st with chptr := none } : JoinLoop).send sptr .errUnavailResource [parv0, name])
      else .ok { st with chptr := none, flags := { MemberFlags.none with chanop := true } } := by
  simp [localLookup, absent]

theorem localLookup_some {parv0 name : CStr} {c : ChanId}
    (found : st.srv.hashFindChannel name = some c) :
    st.localLookup sptr parv0 name = .ok { st with chptr := some c, flags := MemberFlags.none } := by
  simp [localLookup, found]

theorem localLimits_spec (st : JoinLoop) (sptr : ClientId) (parv0 name : CStr) :
    if tooManyChannels (st.srv.client sptr) = false ∧ isSpambot st.srv sptr = false then
      st.localLimits sptr parv0 name = .ok st.countJoin
    else ∃ st', st.localLimits sptr parv0 name = .error st' ∧ Calm st.srv.toTables st'.srv.toTables := by
  unfold localLimits
  cases tooManyChannels (st.srv.client sptr) with
  | true =>
    exact ⟨_, rfl, calm_noteJoinTime (st.send sptr .errTooManyChannels [parv0, name]) sptr⟩
  | false =>
    cases isSpambot st.srv sptr with
    | true => exact ⟨_, rfl, calm_warnSpambot st.srv sptr name⟩
    | false => rfl

theorem countJoin_flags (st : JoinLoop) :
    st.countJoin.flags = st.flags ∧ st.countJoin.keys = st.keys := by
  unfold countJoin
  split <;> exact ⟨rfl, rfl⟩

theorem canJoin_flags (cl : Client) (ch : Channel) (c : ChanId) (key : Option CStr)
    (flags : MemberFlags) : (Ircd.canJoin cl ch c key flags).2.chanop = flags.chanop := by
  unfold Ircd.canJoin
  split
  · rfl
  · simp only
    split
    · rfl
    · split
      · rfl
      · split
        · rfl
        · split <;> rfl

/-- The client passes `can_join`, and the channel is not one of its own. -/
def Enterable (st : JoinLoop) (sptr : ClientId) (c : ChanId) : Prop :=
  st.srv.isMember sptr c = false ∧
    (Ircd.canJoin (st.srv.client sptr) (st.srv.chan c) c st.key st.flags).1 = none

theorem checkCanJoin_local (connect : (st.srv.client sptr).myConnect = true) (c : ChanId)
    (parv0 name : CStr) :
    if (Ircd.canJoin (st.srv.client sptr) (st.srv.chan c) c st.key st.flags).1 = none then
      ∃ st', st.checkCanJoin sptr c parv0 name = .ok st' ∧ st'.srv.toTables = st.srv.toTables ∧
        st'.flags.chanop = st.flags.chanop
    else ∃ st', st.checkCanJoin sptr c parv0 name = .error st' ∧
      st'.srv.toTables = st.srv.toTables := by
  have tables := st.srv.canJoin_toTables sptr c st.key st.flags
  have kept := canJoin_flags (st.srv.client sptr) (st.srv.chan c) c st.key st.flags
  have rule : (st.srv.canJoin sptr c st.key st.flags).2 =
      Ircd.canJoin (st.srv.client sptr) (st.srv.chan c) c st.key st.flags := by
    simp [Server.canJoin]
  unfold checkCanJoin
  rw [if_pos connect]
  simp only [rule]
  cases refusal : (Ircd.canJoin (st.srv.client sptr) (st.srv.chan c) c st.key st.flags).1 with
  | none => exact ⟨_, rfl, tables, kept⟩
  | some num => exact ⟨_, rfl, tables⟩

theorem joinBlock_local (mine : (st.srv.client sptr).myClient = true)
    (user : (st.srv.client sptr).user = true) {c : ChanId} (block : st.chptr = some c)
    (cptr : ClientId) (parv0 name : CStr) :
    (¬ st.Enterable sptr c ∧
      Calm st.srv.toTables (ended (st.joinBlock cptr sptr parv0 name)).srv.toTables) ∨
    (st.Enterable sptr c ∧ ∃ flags : MemberFlags, flags.chanop = st.flags.chanop ∧
      Entered sptr c flags st.srv.toTables
        (ended (st.joinBlock cptr sptr parv0 name)).srv.toTables) := by
  have connect := Client.myConnect_of_myClient mine
  cases member : st.srv.isMember sptr c with
  | true =>
    refine Or.inl ⟨fun enterable => by simp [enterable.1] at member, ?_⟩
    simp only [joinBlock, checkMember, block, member, if_true]
    exact .refl _
  | false =>
    have result : st.joinBlock cptr sptr parv0 name = (do
        let st' ← st.checkCanJoin sptr c parv0 name
        .ok { st' with srv := st'.srv.enterChannel cptr sptr c st'.flags parv0 name }) := by
      simp only [joinBlock, checkMember, block, member]
      rfl
    rw [result]
    have checked := checkCanJoin_local connect c parv0 name
    split at checked
    · next allowed =>
      obtain ⟨st₁, ok, tables, chanop⟩ := checked
      refine Or.inr ⟨⟨member, allowed⟩, st₁.flags, chanop, ?_⟩
      rw [ok, ← tables]
      exact entered_enterChannel (tables ▸ user) cptr c st₁.flags parv0 name
    · next refused =>
      obtain ⟨st₁, error, tables⟩ := checked
      refine Or.inl ⟨fun enterable => refused enterable.2, ?_⟩
      rw [error]
      exact calm_same tables

/-- A new name that `get_channel` cuts to the one of a channel with members, which the
client is then let into. -/
structure TakesOver (st : JoinLoop) (sptr : ClientId) (name : CStr) : Prop where
  running : st.returned = false
  nonzero : isJoinZero name = false
  absent : st.srv.hashFindChannel name = none
  open_ : splitRefuses st.srv sptr name = false
  room : tooManyChannels (st.srv.client sptr) = false
  trusted : isSpambot st.srv sptr = false
  long : channelLen < name.length
  found : ∃ c, st.srv.hashFindChannel (name.take channelLen) = some c ∧
    st.srv.membersOf c ≠ [] ∧ st.srv.isMember sptr c = false ∧
    (Ircd.canJoin (st.srv.client sptr) (st.srv.chan c) c st.key
      { MemberFlags.none with chanop := true }).1 = none

theorem body_existing (mine : (st.srv.client sptr).myClient = true)
    (user : (st.srv.client sptr).user = true) {name : CStr} {c : ChanId}
    (found : st.srv.hashFindChannel name = some c) (cptr : ClientId) (parv0 : CStr) :
    NoTakeover sptr st.srv.toTables (ended (st.body cptr sptr parv0 name)).srv.toTables := by
  have connect := Client.myConnect_of_myClient mine
  set st₁ : JoinLoop := { st with chptr := some c, flags := MemberFlags.none } with looked
  have lookup : st.lookup sptr parv0 name = st₁.localLimits sptr parv0 name := by
    simp only [JoinLoop.lookup, connect, if_true, localLookup_some found]
    rfl
  unfold body
  rw [lookup]
  have limits := st₁.localLimits_spec sptr parv0 name
  split at limits
  · rw [limits]
    have same : st₁.countJoin.srv = st.srv := (countJoin_srv st₁).1
    have block : st₁.countJoin.chptr = some c := (countJoin_srv st₁).2
    have channel : st₁.countJoin.joinChannel cptr sptr parv0 name =
        st₁.countJoin.joinBlock cptr sptr parv0 name := by
      simp [joinChannel, ensureChannel, block]
    show NoTakeover sptr _ (ended (st₁.countJoin.joinChannel cptr sptr parv0 name)).srv.toTables
    rw [channel, ← same]
    obtain ⟨-, calm⟩ | ⟨-, flags, chanop, entered⟩ :=
      joinBlock_local (same ▸ mine) (same ▸ user) block cptr parv0 name
    · exact calm.noTakeover (fun _ _ => trivial) sptr
    · apply entered.noTakeover
      left
      rw [chanop, (countJoin_flags st₁).1]
      rfl
  · obtain ⟨st₂, error, calm⟩ := limits
    rw [error]
    exact calm.noTakeover (fun _ _ => trivial) sptr

theorem joinChannel_absent (mine : (st.srv.client sptr).myClient = true)
    (user : (st.srv.client sptr).user = true) {name : CStr}
    (absent : st.srv.hashFindChannel name = none) (block : st.chptr = none)
    (chanop : st.flags.chanop = true) (cptr : ClientId) (parv0 : CStr) :
    NoTakeover sptr st.srv.toTables (ended (st.joinChannel cptr sptr parv0 name)).srv.toTables ↔
      ¬ (channelLen < name.length ∧ ∃ c, st.srv.hashFindChannel (name.take channelLen) = some c ∧
        st.srv.membersOf c ≠ [] ∧ st.Enterable sptr c) := by
  have cut : st.srv.channelNameFor sptr name =
      if channelLen < name.length then name.take channelLen else name := by
    simp [channelNameFor, mine]
  unfold joinChannel ensureChannel
  simp only [block]
  -- `get_channel` cuts the name, so it may come to a channel that the look-up missed
  obtain ⟨empty, none⟩ | ⟨c, found, some⟩ | ⟨new, created⟩ := getChannel_true st.srv sptr name
  · rw [none]
    refine iff_of_true ?_ ?_
    · exact (calm_same rfl).noTakeover (fun _ _ => trivial) sptr
    · rintro ⟨long, -⟩
      simp [empty] at long
  · rw [some]
    have long : channelLen < name.length := by
      apply Decidable.byContradiction
      intro short
      rw [cut, if_neg short, absent] at found
      cases found
    rw [cut, if_pos long] at found
    set st₁ : JoinLoop := { st with chptr := Option.some c } with given
    show NoTakeover sptr st₁.srv.toTables (ended (st₁.joinBlock cptr sptr parv0 _)).srv.toTables ↔ _
    have same : (∃ c, st.srv.hashFindChannel (name.take channelLen) = Option.some c ∧
        st.srv.membersOf c ≠ [] ∧ st.Enterable sptr c) ↔
          st₁.srv.membersOf c ≠ [] ∧ st₁.Enterable sptr c := by
      rw [found]
      constructor
      · rintro ⟨d, here, rest⟩
        cases here
        exact rest
      · exact fun rest => ⟨c, rfl, rest⟩
    rw [same]
    obtain ⟨refused, calm⟩ | ⟨enterable, flags, kept, entered⟩ :=
      @joinBlock_local st₁ sptr mine user c rfl cptr parv0 (st.srv.channelNameFor sptr name)
    · exact iff_of_true (calm.noTakeover (fun _ _ => trivial) sptr) fun all => refused all.2.2
    · constructor
      · rintro harmless ⟨-, some, -⟩
        exact entered.takesOver (kept.trans chanop) some harmless
      · intro harmless
        apply entered.noTakeover
        right
        apply Decidable.byContradiction
        exact fun some => harmless ⟨long, some, enterable⟩
  · rw [created]
    refine iff_of_true ?_ ?_
    · have opened : Steady (fun d => d ≠ st.srv.nextChan) st.srv.toTables
          (st.srv.edit (·.createChannel (st.srv.channelNameFor sptr name))).toTables :=
        .createChannel _ _
      set st₁ : JoinLoop := { st with
        srv := st.srv.edit (·.createChannel (st.srv.channelNameFor sptr name))
        chptr := Option.some st.srv.nextChan } with made
      have known : (st₁.srv.client sptr) = st.srv.client sptr := rfl
      -- a channel that was just made has no members to take anything from
      have result : Steady (fun d => d ≠ st.srv.nextChan) st₁.srv.toTables
          (ended (st₁.joinBlock cptr sptr parv0 (st.srv.channelNameFor sptr name))).srv.toTables := by
        obtain ⟨-, calm⟩ | ⟨-, flags, -, entered⟩ := @joinBlock_local st₁ sptr (known ▸ mine)
          (known ▸ user) st.srv.nextChan rfl cptr parv0 (st.srv.channelNameFor sptr name)
        · exact .of_calm calm
        · exact entered.others
      refine (opened.trans result).noTakeover (fun d some same => ?_) sptr
      apply some
      rw [same]
      exact if_neg (Nat.lt_irrefl _)
    · rintro ⟨long, c, found, -⟩
      rw [cut, if_pos long, found] at new
      cases new

theorem body_absent_iff (mine : (st.srv.client sptr).myClient = true)
    (user : (st.srv.client sptr).user = true) (running : st.returned = false) {name : CStr}
    (nonzero : isJoinZero name = false) (absent : st.srv.hashFindChannel name = none)
    (cptr : ClientId) (parv0 : CStr) :
    NoTakeover sptr st.srv.toTables (ended (st.body cptr sptr parv0 name)).srv.toTables ↔
      ¬ st.TakesOver sptr name := by
  have connect := Client.myConnect_of_myClient mine
  unfold body JoinLoop.lookup
  rw [if_pos connect, localLookup_none absent]
  -- the split refuses the name before anything is done
  cases open_ : splitRefuses st.srv sptr name with
  | true =>
    refine iff_of_true ?_ fun takes => by simp [takes.open_] at open_
    exact (calm_same rfl).noTakeover (fun _ _ => trivial) sptr
  | false =>
    set st₁ : JoinLoop :=
      { st with chptr := none, flags := { MemberFlags.none with chanop := true } } with looked
    show NoTakeover sptr st.srv.toTables (ended ((st₁.localLimits sptr parv0 name).bind fun st =>
      st.joinChannel cptr sptr parv0 name)).srv.toTables ↔ _
    have limits := st₁.localLimits_spec sptr parv0 name
    -- the limits of the client, and then the entry into the new channel
    split at limits
    · next within =>
      rw [limits]
      obtain ⟨same, block⟩ := countJoin_srv st₁
      obtain ⟨flags, keys⟩ := countJoin_flags st₁
      have key : st₁.countJoin.key = st₁.key := congrArg List.head? keys
      show NoTakeover sptr _ (ended (st₁.countJoin.joinChannel cptr sptr parv0 name)).srv.toTables ↔ _
      have entry := @joinChannel_absent st₁.countJoin sptr (same ▸ mine) (same ▸ user) name
        (same ▸ absent) block (by rw [flags]) cptr parv0
      rw [same] at entry
      rw [entry]
      unfold Enterable
      rw [same, flags, key]
      constructor
      · exact fun harmless takes => harmless ⟨takes.long, takes.found⟩
      · exact fun harmless both =>
          harmless ⟨running, nonzero, absent, open_, within.1, within.2, both.1, both.2⟩
    · next beyond =>
      obtain ⟨st₂, error, calm⟩ := limits
      rw [error]
      refine iff_of_true ?_ fun takes => beyond ⟨takes.room, takes.trusted⟩
      exact calm.noTakeover (fun _ _ => trivial) sptr

theorem element_noTakeover_iff (mine : (st.srv.client sptr).myClient = true)
    (user : (st.srv.client sptr).user = true) (cptr : ClientId) (parv0 name : CStr) :
    NoTakeover sptr st.srv.toTables (st.element cptr sptr parv0 name).srv.toTables ↔
      ¬ st.TakesOver sptr name := by
  cases running : st.returned with
  | true =>
    rw [element_of_returned running]
    refine iff_of_true ?_ fun takes => by simp [takes.running] at running
    exact (Steady.refl (P := fun _ => True) _).noTakeover (fun _ _ => trivial) sptr
  | false =>
    cases nonzero : isJoinZero name with
    | true =>
      rw [(element_zero running nonzero cptr sptr parv0).1]
      refine iff_of_true ?_ fun takes => by simp [takes.nonzero] at nonzero
      exact (departs_joinZero st cptr sptr parv0).noTakeover sptr
    | false =>
      rw [(element_body running nonzero cptr sptr parv0).1]
      cases found : st.srv.hashFindChannel name with
      | none => exact body_absent_iff mine user running nonzero found cptr parv0
      | some c =>
        refine iff_of_true (body_existing mine user found cptr parv0) fun takes => ?_
        simp [takes.absent] at found

/-! An element leaves the clients who they were, so that the next one is again about a
local client. -/

theorem lookup_local (mine : (st.srv.client sptr).myClient = true) (parv0 name : CStr) :
    match st.lookup sptr parv0 name with
    | .error st' => Calm st.srv.toTables st'.srv.toTables
    | .ok st' => st'.srv = st.srv := by
  have connect := Client.myConnect_of_myClient mine
  have limits : ∀ st₁ : JoinLoop, st₁.srv = st.srv →
      match st₁.localLimits sptr parv0 name with
      | .error st' => Calm st.srv.toTables st'.srv.toTables
      | .ok st' => st'.srv = st.srv := by
    intro st₁ same
    have spec := st₁.localLimits_spec sptr parv0 name
    split at spec
    · rw [spec]
      exact (countJoin_srv st₁).1.trans same
    · obtain ⟨st₂, error, calm⟩ := spec
      rw [error]
      exact same ▸ calm
  unfold JoinLoop.lookup
  rw [if_pos connect]
  -- the limits are the same for a channel that is there and for one that is not
  cases found : st.srv.hashFindChannel name with
  | some c =>
    rw [localLookup_some found]
    exact limits _ rfl
  | none =>
    rw [localLookup_none found]
    split
    · next error =>
      split at error
      · cases error
        exact calm_same rfl
      · have spec := limits { st with
          chptr := none, flags := { MemberFlags.none with chanop := true } } rfl
        rw [show localLimits { st with
          chptr := none, flags := { MemberFlags.none with chanop := true } } sptr parv0 name =
            .error _ from error] at spec
        exact spec
    · next ok =>
      split at ok
      · cases ok
      · have spec := limits { st with
          chptr := none, flags := { MemberFlags.none with chanop := true } } rfl
        rw [show localLimits { st with
          chptr := none, flags := { MemberFlags.none with chanop := true } } sptr parv0 name =
            .ok _ from ok] at spec
        exact spec

theorem joinBlock_identity (mine : (st.srv.client sptr).myClient = true)
    (user : (st.srv.client sptr).user = true) (cptr : ClientId) (parv0 name : CStr) (u : ClientId) :
    ((ended (st.joinBlock cptr sptr parv0 name)).srv.client u).identity =
      (st.srv.client u).identity := by
  cases block : st.chptr with
  | none =>
    simp only [joinBlock, checkMember, block]
    rfl
  | some c =>
    obtain ⟨-, calm⟩ | ⟨-, flags, -, entered⟩ := joinBlock_local mine user block cptr parv0 name
    · exact calm.identity u
    · exact entered.others.identity u

theorem joinChannel_identity (mine : (st.srv.client sptr).myClient = true)
    (user : (st.srv.client sptr).user = true) (cptr : ClientId) (parv0 name : CStr) (u : ClientId) :
    ((ended (st.joinChannel cptr sptr parv0 name)).srv.client u).identity =
      (st.srv.client u).identity := by
  have clients : (st.ensureChannel sptr name).1.srv.client = st.srv.client := by
    unfold ensureChannel
    cases st.chptr with
    | some c => rfl
    | none =>
      simp only
      obtain ⟨-, none⟩ | ⟨c, -, some⟩ | ⟨-, created⟩ := getChannel_true st.srv sptr name
      · rw [none]
      · rw [some]
      · rw [created]
        rfl
  have entered := @joinBlock_identity (st.ensureChannel sptr name).1 sptr (clients ▸ mine)
    (clients ▸ user) cptr parv0 (st.ensureChannel sptr name).2 u
  rw [clients] at entered
  exact entered

theorem element_identity (mine : (st.srv.client sptr).myClient = true)
    (user : (st.srv.client sptr).user = true) (cptr : ClientId) (parv0 name : CStr) (u : ClientId) :
    ((st.element cptr sptr parv0 name).srv.client u).identity = (st.srv.client u).identity := by
  cases running : st.returned with
  | true => rw [element_of_returned running]
  | false =>
    cases nonzero : isJoinZero name with
    | true =>
      rw [(element_zero running nonzero cptr sptr parv0).1]
      exact (departs_joinZero st cptr sptr parv0).identity u
    | false =>
      rw [(element_body running nonzero cptr sptr parv0).1, body]
      have looked := lookup_local mine parv0 name
      cases result : st.lookup sptr parv0 name with
      | error st₁ =>
        rw [result] at looked
        exact looked.identity u
      | ok st₁ =>
        rw [result] at looked
        have entered := @joinChannel_identity st₁ sptr (looked ▸ mine) (looked ▸ user) cptr parv0
          name u
        rw [looked] at entered
        exact entered

theorem elements_identity (mine : (st.srv.client sptr).myClient = true)
    (user : (st.srv.client sptr).user = true) (cptr : ClientId) (parv0 : CStr)
    (names : List CStr) :
    ((st.elements cptr sptr parv0 names).srv.client sptr).identity =
      (st.srv.client sptr).identity := by
  induction names generalizing st with
  | nil => rfl
  | cons name names ih =>
    have first := element_identity mine user cptr parv0 name sptr
    have mine₁ : ((st.element cptr sptr parv0 name).srv.client sptr).myClient = true :=
      (Client.myClient_of_identity first).trans mine
    have user₁ : ((st.element cptr sptr parv0 name).srv.client sptr).user = true :=
      (congrArg Client.user first :).trans user
    exact (ih mine₁ user₁).trans first

end JoinLoop

def joinElements (s : Server) (sptr : ClientId) (parv : List CStr) : List CStr :=
  if !(s.client sptr).user then []
  else if parv.length < 2 ∨ parv.getD 1 [] = [] then []
  else joinNames (joinServer s) sptr parv

/-- The loop of the second pass after the elements `names`. -/
def joinAfter (s : Server) (cptr sptr : ClientId) (parv names : List CStr) : JoinLoop :=
  (joinStart (joinServer s) sptr parv).elements cptr sptr (parv.getD 0 []) names

/-- A JOIN takes no channel over: none of its elements does, and nothing happens to the
channels before the first of them and after the last. -/
structure JoinTakesNothing (s : Server) (cptr sptr : ClientId) (parv : List CStr) : Prop where
  before : Tables.NoTakeover sptr s.toTables (joinAfter s cptr sptr parv []).srv.toTables
  element : ∀ pre name post, joinElements s sptr parv = pre ++ name :: post →
    Tables.NoTakeover sptr (joinAfter s cptr sptr parv pre).srv.toTables
      (joinAfter s cptr sptr parv (pre ++ [name])).srv.toTables
  after : Tables.NoTakeover sptr
    (joinAfter s cptr sptr parv (joinElements s sptr parv)).srv.toTables
    (mJoin s cptr sptr parv).toTables

section

open Tables Server JoinLoop

variable {s : Server} {sptr : ClientId}

theorem joinAfter_concat (cptr : ClientId) (parv pre : List CStr) (name : CStr) :
    joinAfter s cptr sptr parv (pre ++ [name]) =
      (joinAfter s cptr sptr parv pre).element cptr sptr (parv.getD 0 []) name := by
  simp [joinAfter, JoinLoop.elements]

theorem calm_joinServer (s : Server) : Calm s.toTables (joinServer s).toTables := by
  obtain ⟨alike, -, chan, client⟩ := joinServer_spec s
  refine ⟨fun c _ => ?_, fun c _ => ?_, fun u => ?_⟩
  · rw [membersOf, membersOf, alike.nextChan, chan]
  · rw [chan]
  · rw [client]

theorem calm_joinStart (s : Server) (cptr sptr : ClientId) (parv : List CStr) :
    Calm s.toTables (joinAfter s cptr sptr parv []).srv.toTables := by
  have list := (joinList_sends (joinServer s) sptr (parv.getD 0 []) (parv.getD 1 [])).1
  exact (calm_joinServer s).trans (calm_same list)

theorem calm_mJoin_end (s : Server) (cptr sptr : ClientId) (parv : List CStr) :
    Calm (joinAfter s cptr sptr parv (joinElements s sptr parv)).srv.toTables
        (mJoin s cptr sptr parv).toTables ∨
      joinElements s sptr parv = [] ∧ (mJoin s cptr sptr parv).toTables = s.toTables := by
  rw [mJoin_eq, joinElements]
  split
  · exact Or.inr ⟨rfl, rfl⟩
  split
  · exact Or.inr ⟨rfl, rfl⟩
  left
  simp only [joinAfter]
  split
  · exact .refl _
  split
  · exact calm_noteJoinTime _ sptr
  · exact .refl _

theorem mJoin_takesNothing_iff (mine : (s.client sptr).myClient = true) (cptr : ClientId)
    (parv : List CStr) :
    JoinTakesNothing s cptr sptr parv ↔
      ∀ pre name post, joinElements s sptr parv = pre ++ name :: post →
        ¬ (joinAfter s cptr sptr parv pre).TakesOver sptr name := by
  have one : ∀ pre name post, joinElements s sptr parv = pre ++ name :: post →
      (NoTakeover sptr (joinAfter s cptr sptr parv pre).srv.toTables
        (joinAfter s cptr sptr parv (pre ++ [name])).srv.toTables ↔
          ¬ (joinAfter s cptr sptr parv pre).TakesOver sptr name) := by
    intro pre name post split
    have user : (s.client sptr).user = true := by
      apply Decidable.byContradiction
      intro nobody
      have none : joinElements s sptr parv = [] := by simp [joinElements, nobody]
      rw [none] at split
      exact absurd (congrArg List.length split) (by simp)
    have client : (joinStart (joinServer s) sptr parv).srv.client = s.client := by
      have list := (joinList_sends (joinServer s) sptr (parv.getD 0 []) (parv.getD 1 [])).1
      exact (congrArg Tables.client list).trans (joinServer_spec s).2.2.2
    have same : ((joinAfter s cptr sptr parv pre).srv.client sptr).identity =
        (s.client sptr).identity := by
      rw [← client]
      exact elements_identity (client ▸ mine) (client ▸ user) cptr _ pre
    rw [joinAfter_concat]
    apply element_noTakeover_iff
    · exact (Client.myClient_of_identity same).trans mine
    · exact (congrArg Client.user same :).trans user
  constructor
  · intro nothing pre name post split
    exact (one pre name post split).1 (nothing.element pre name post split)
  · intro harmless
    refine ⟨?_, fun pre name post split => (one pre name post split).2 (harmless _ _ _ split), ?_⟩
    · exact (calm_joinStart s cptr sptr parv).noTakeover (fun _ _ => trivial) sptr
    · cases calm_mJoin_end s cptr sptr parv with
      | inl calm => exact calm.noTakeover (fun _ _ => trivial) sptr
      | inr refused =>
        obtain ⟨none, same⟩ := refused
        have calm := calm_joinStart s cptr sptr parv
        rw [none, same]
        -- what was read off the start is true backwards as well
        refine ⟨fun c some => ?_, fun c some => ?_⟩
        · rw [opsOf, opsOf, calm.membersOf c trivial]
        · exact (calm.channelts c trivial).symm

end

/-! A channel with the longest name there is, and a name that is one character longer. -/

def cara : Client :=
  { Client.zero with
    name := lit "cara", username := lit "c", host := lit "irc.org", status := .client, from_ := 1
    localFlag := true, user := true, userServer := lit "irc.net" }

def dora : Client :=
  { Client.zero with
    name := lit "dora", username := lit "d", host := lit "irc.org", status := .client, from_ := 2
    localFlag := true, user := true, userServer := lit "irc.net" }

def longName : CStr := '&' :: List.replicate 199 'a'

def longNetwork : List Event :=
  [.connect 1 cara, .connect 2 dora, .command .join 1 1 [lit "cara", longName]]

def longServer : Server := Server.machine.run (Server.startUp (lit "irc.net") 100000) longNetwork

theorem longServer_taken_over :
    (longServer.client 2).myClient = true ∧
      ¬ JoinTakesNothing longServer 2 2 [lit "dora", longName ++ ['a']] := by
  constructor
  · decide +kernel
  · intro nothing
    have ops := (nothing.element [] (longName ++ ['a']) [] (by decide +kernel)).opsOf 0
      (by decide +kernel)
    revert ops
    decide +kernel

theorem longServer_takesNothing_iff :
    JoinTakesNothing longServer 2 2 [lit "dora", longName] ↔
      ∀ pre name post, joinElements longServer 2 [lit "dora", longName] = pre ++ name :: post →
        ¬ (joinAfter longServer 2 2 [lit "dora", longName] pre).TakesOver 2 name :=
  mJoin_takesNothing_iff (by decide +kernel) 2 _

end Ircd
