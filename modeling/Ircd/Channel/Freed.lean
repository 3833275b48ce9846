import Ircd.Channel.SjoinClean
import Ircd.Channel.ModeClean

/-! When a command uses a channel that it has destroyed.

`m_part`, `m_kick` and `m_sjoin` never do. `m_join` does for a client of another server
whose `JOIN 0` frees the last channel that it leaves, where another name follows; a MODE
does where an operator takes the jupe off an empty channel and the letters after that
`-j` ask for something that reads the block.
-/

set_option autoImplicit false

namespace Ircd

namespace Server

def Grows (s s' : Server) : Prop := s.danglingUses <+: s'.danglingUses

namespace Grows

variable {s s' s'' : Server}

theorem trans (h : Grows s s') (h' : Grows s' s'') : Grows s s'' := List.IsPrefix.trans h h'

theorem same (uses : s'.danglingUses = s.danglingUses) : Grows s s' := by
  unfold Grows
  exact uses ▸ List.prefix_refl s.danglingUses

theorem refl (s : Server) : Grows s s := same rfl

theorem touch (s : Server) (c : ChanId) : Grows s (s.touch c) := by
  unfold Server.touch
  split
  · exact List.prefix_append ..
  · exact .refl s

theorem sendtoChannelButserv (c : ChanId) (source : ClientId) (text : CStr) :
    Grows s (s.sendtoChannelButserv c source text) := touch s c

theorem sendtoMatchServs (chptr : Option ChanId) (cptr : ClientId) (text : CStr) :
    Grows s (s.sendtoMatchServs chptr cptr text) := by
  unfold Server.sendtoMatchServs
  split
  · exact same rfl
  · split
    · exact touch s _
    · exact touch s _

theorem addUserToChannel (c : ChanId) (who : ClientId) (flags : MemberFlags) :
    Grows s (s.addUserToChannel c who flags) := by
  unfold Server.addUserToChannel
  split
  · exact touch s c
  · exact .refl s

theorem canJoin (sptr : ClientId) (c : ChanId) (key : Option CStr) (flags : MemberFlags) :
    Grows s (s.canJoin sptr c key flags).1 := by
  unfold Server.canJoin
  simp only
  split
  · exact touch s c
  · exact touch s c

theorem announceJoin (cptr sptr : ClientId) (c : ChanId) (flags : MemberFlags)
    (parv0 name : CStr) : Grows s (s.announceJoin cptr sptr c flags parv0 name) := by
  unfold Server.announceJoin
  simp only
  split
  · have stamped : Grows s (s.setChan c { s.chan c with channelts := s.currentTime }) := same rfl
    exact stamped.trans (sendtoMatchServs ..)
  · split <;> exact sendtoMatchServs ..

theorem firstModes (sptr : ClientId) (c : ChanId) : Grows s (s.firstModes sptr c) := by
  unfold Server.firstModes
  simp only
  generalize edited : s.setChan c _ = s₁
  have modes : Grows s s₁ := by
    subst edited
    exact same rfl
  exact modes.trans ((sendtoChannelButserv ..).trans (sendtoMatchServs ..))

theorem greet (cptr sptr : ClientId) (c : ChanId) (flags : MemberFlags) (parv0 name : CStr) :
    Grows s (s.greet cptr sptr c flags parv0 name) := by
  unfold Server.greet
  simp only
  have announced := @announceJoin s cptr sptr c flags parv0 name
  generalize s.announceJoin cptr sptr c flags parv0 name = s₀ at announced ⊢
  have shown := @sendtoChannelButserv s₀ c sptr (':' :: parv0 ++ lit " JOIN :" ++ name)
  refine announced.trans (shown.trans ?_)
  generalize s₀.sendtoChannelButserv c sptr _ = s₁
  split
  · generalize opened : (if flags.chanop then s₁.firstModes sptr c else s₁) = s₂
    have modes : Grows s₁ s₂ := by
      subst opened
      split
      · exact firstModes sptr c
      · exact .refl s₁
    have uninvited : Grows s₂ (s₂.delInvite sptr c) := touch s₂ c
    refine modes.trans (uninvited.trans (same ?_))
    unfold Server.sendTopic
    simp only
    split <;> rfl
  · exact .refl s₁

theorem enterChannel_freed {c : ChanId} (freed : s.freed c = true) {sptr : ClientId}
    (user : (s.client sptr).user = true) (cptr : ClientId) (flags : MemberFlags)
    (parv0 name : CStr) :
    (s.danglingUses ++ [c]) <+: (s.enterChannel cptr sptr c flags parv0 name).danglingUses := by
  have added : (s.addUserToChannel c sptr flags).danglingUses = s.danglingUses ++ [c] := by
    simp [Server.addUserToChannel, user, Server.touch, freed]
  rw [← added]
  exact @greet (s.addUserToChannel c sptr flags) cptr sptr c flags parv0 name

theorem removeUserFromChannel (who : ClientId) (c : ChanId) :
    Grows s (s.removeUserFromChannel who c) := touch s c

theorem leaveAccounting (sptr : ClientId) : Grows s (s.leaveAccounting sptr) := by
  unfold Server.leaveAccounting
  simp only
  split <;> exact same rfl

end Grows

end Server

namespace JoinLoop

open Server

variable {st : JoinLoop}

theorem grows_leaveAll (sptr : ClientId) (parv0 : CStr) (cs : List ChanId) (st : JoinLoop) :
    Grows st.srv (leaveAll sptr parv0 cs st).srv := by
  induction cs generalizing st with
  | nil => exact .refl _
  | cons c rest ih =>
    have shown := @Grows.sendtoChannelButserv st.srv c sptr
      (':' :: parv0 ++ lit " PART " ++ (st.srv.chan c).chname ++ lit " :")
    rw [leaveAll]
    generalize st.srv.sendtoChannelButserv c sptr _ = srv at shown ⊢
    have removed := @Grows.removeUserFromChannel srv sptr c
    exact shown.trans (removed.trans (ih { st with
      srv := srv.removeUserFromChannel sptr c
      chptr := some c }))

theorem grows_joinZero (st : JoinLoop) (cptr sptr : ClientId) (parv0 : CStr) :
    Grows st.srv (st.joinZero cptr sptr parv0).srv := by
  unfold joinZero
  split
  · exact .refl _
  · simp only
    have left := grows_leaveAll sptr parv0 (st.srv.client sptr).channel st
    generalize leaveAll sptr parv0 (st.srv.client sptr).channel st = st₁ at left ⊢
    refine left.trans (Grows.trans ?_ (.sendtoMatchServs ..))
    split
    · exact .leaveAccounting sptr
    · exact .refl _

theorem localLimits_uses (st : JoinLoop) (sptr : ClientId) (parv0 name : CStr) :
    (ended (st.localLimits sptr parv0 name)).srv.danglingUses = st.srv.danglingUses := by
  unfold localLimits
  split
  · unfold noteJoinTime
    split <;> rfl
  split
  · show (warnSpambot st.srv sptr name).danglingUses = _
    unfold warnSpambot
    simp only
    generalize (if (st.srv.client sptr).operWarnCountDown > 0 then _ else (0 : Int)) = count
    split <;> rfl
  · exact congrArg Server.danglingUses st.countJoin_srv.1

theorem grows_lookup (st : JoinLoop) (sptr : ClientId) (parv0 name : CStr) :
    Grows st.srv (ended (st.lookup sptr parv0 name)).srv := by
  apply Grows.same
  unfold lookup
  split
  · cases looked : st.localLookup sptr parv0 name with
    | ok st₁ =>
      have same := (localLookup_ok looked).1
      refine (st₁.localLimits_uses sptr parv0 name).trans ?_
      rw [same]
    | error st₁ =>
      unfold localLookup at looked
      split at looked
      · cases looked
      · split at looked
        · cases looked
          rfl
        · cases looked
  · exact (st.remoteLookup_spec sptr name).2.1

theorem grows_joinBlock (st : JoinLoop) (cptr sptr : ClientId) (parv0 name : CStr) :
    Grows st.srv (ended (st.joinBlock cptr sptr parv0 name)).srv := by
  unfold joinBlock checkMember
  cases block : st.chptr with
  | none => exact .same rfl
  | some c =>
    by_cases member : st.srv.isMember sptr c = true
    · simp only [member, if_true]
      exact .refl _
    · simp only [member]
      show Grows st.srv (ended (do
        let st' ← st.checkCanJoin sptr c parv0 name
        .ok { st' with srv := st'.srv.enterChannel cptr sptr c st'.flags parv0 name })).srv
      unfold checkCanJoin
      split
      · have checked := @Grows.canJoin st.srv sptr c st.key st.flags
        simp only
        split
        · exact checked
        · exact checked.trans ((Grows.addUserToChannel ..).trans (.greet ..))
      · exact (Grows.addUserToChannel ..).trans (.greet ..)

theorem grows_body (st : JoinLoop) (cptr sptr : ClientId) (parv0 name : CStr) :
    Grows st.srv (ended (st.body cptr sptr parv0 name)).srv := by
  have looked := st.grows_lookup sptr parv0 name
  unfold body
  cases result : st.lookup sptr parv0 name with
  | error st₁ =>
    rw [result] at looked
    exact looked
  | ok st₁ =>
    rw [result] at looked
    have ensured : Grows st₁.srv (st₁.ensureChannel sptr name).1.srv := ?_
    · exact looked.trans (ensured.trans (grows_joinBlock ..))
    unfold ensureChannel
    cases block : st₁.chptr with
    | some c => exact .refl _
    | none =>
      simp only
      obtain ⟨-, none⟩ | ⟨c, -, some⟩ | ⟨-, created⟩ := getChannel_true st₁.srv sptr name
      · rw [none]
        exact .refl _
      · rw [some]
        exact .refl _
      · rw [created]
        exact .same rfl

theorem grows_elements (cptr sptr : ClientId) (parv0 : CStr) (names : List CStr) (st : JoinLoop) :
    Grows st.srv (st.elements cptr sptr parv0 names).srv := by
  unfold elements
  induction names generalizing st with
  | nil => exact .refl _
  | cons name names ih =>
    have first : Grows st.srv (st.element cptr sptr parv0 name).srv := ?_
    · exact first.trans (ih _)
    unfold element
    split
    · exact .refl _
    · simp only
      split
      · exact st.grows_joinZero cptr sptr parv0
      · exact st.grows_body cptr sptr parv0 name

/-- A client of another server enters the free block that `chptr` still points to. -/
theorem body_freed {sptr : ClientId} (remote : (st.srv.client sptr).myConnect = false)
    (user : (st.srv.client sptr).user = true) (left : (st.srv.client sptr).channel = [])
    {c : ChanId} (block : st.chptr = some c) (freed : st.srv.freed c = true) (cptr : ClientId)
    (parv0 name : CStr) :
    (st.srv.danglingUses ++ [c]) <+: (ended (st.body cptr sptr parv0 name)).srv.danglingUses := by
  obtain ⟨tables, uses, chptr⟩ := st.remoteLookup_spec sptr name
  have looked : st.body cptr sptr parv0 name =
      (st.remoteLookup sptr name).joinChannel cptr sptr parv0 name := by
    simp [body, lookup, remote, Except.bind]
  rw [looked, ← uses]
  rw [← tables] at remote user left freed
  rw [← chptr] at block
  generalize st.remoteLookup sptr name = st₁ at remote user left freed block
  have ensured : st₁.ensureChannel sptr name = (st₁, name) := by simp [ensureChannel, block]
  have outside : st₁.srv.isMember sptr c = false := by simp [Tables.isMember, left]
  have member : st₁.checkMember sptr parv0 name = .ok (st₁, c) := by
    simp [checkMember, block, outside]
  have allowed : st₁.checkCanJoin sptr c parv0 name = .ok st₁ := by simp [checkCanJoin, remote]
  have entered : st₁.joinChannel cptr sptr parv0 name =
      .ok { st₁ with srv := st₁.srv.enterChannel cptr sptr c st₁.flags parv0 name } := by
    simp only [joinChannel, ensured, joinBlock, member]
    show (do
      let st' ← st₁.checkCanJoin sptr c parv0 name
      .ok { st' with srv := st'.srv.enterChannel cptr sptr c st'.flags parv0 name }) = _
    rw [allowed]
    rfl
  rw [entered]
  exact Grows.enterChannel_freed freed user cptr st₁.flags parv0 name

theorem leaveAll_returned (sptr : ClientId) (parv0 : CStr) (cs : List ChanId) (st : JoinLoop) :
    (leaveAll sptr parv0 cs st).returned = st.returned := by
  induction cs generalizing st with
  | nil => rfl
  | cons c cs ih => exact ih _

theorem joinZero_returned (st : JoinLoop) (cptr sptr : ClientId) (parv0 : CStr) :
    (st.joinZero cptr sptr parv0).returned = st.returned := by
  unfold joinZero
  split
  · rfl
  · exact leaveAll_returned ..

theorem elements_freed {sptr : ClientId} (ready : st.Ready sptr) (running : st.returned = false)
    (frees : ZeroFrees st.srv.toTables sptr) {zero next : CStr} (isZero : isJoinZero zero = true)
    (nonzero : isJoinZero next = false) (rest : List CStr) (cptr : ClientId) (parv0 : CStr) :
    ∃ c, (st.srv.danglingUses ++ [c]) <+:
      (st.elements cptr sptr parv0 (zero :: next :: rest)).srv.danglingUses := by
  obtain ⟨remote, c, last, frees⟩ := frees
  obtain ⟨tidy, left, final⟩ := joinZero_spec ready.sound cptr sptr parv0
  rw [last] at final
  obtain ⟨block, freed⟩ := final
  rw [if_pos frees] at freed
  obtain ⟨srv, chptr⟩ := element_zero running isZero cptr sptr parv0
  have running₁ : (st.element cptr sptr parv0 zero).returned = false := by
    have kept := st.joinZero_returned cptr sptr parv0
    simp [element, running, isZero, kept]
  rw [← srv] at tidy left freed
  rw [← chptr] at block
  have later := grows_elements cptr sptr parv0 rest
    ((st.element cptr sptr parv0 zero).element cptr sptr parv0 next)
  show ∃ c, (st.srv.danglingUses ++ [c]) <+: (((st.element cptr sptr parv0 zero).element cptr sptr
    parv0 next).elements cptr sptr parv0 rest).srv.danglingUses
  generalize st.element cptr sptr parv0 zero = st₁ at *
  have remote₁ : (st₁.srv.client sptr).myConnect = false :=
    tidy.directory.myConnect sptr ▸ remote
  have user₁ : (st₁.srv.client sptr).user = true := tidy.directory.user sptr ▸ ready.user
  have used := body_freed remote₁ user₁ left block freed cptr parv0 next
  rw [← (element_body running₁ nonzero cptr sptr parv0).1, tidy.danglingUses] at used
  exact ⟨c, used.trans later⟩

end JoinLoop

section

open Server JoinLoop

variable {s : Server}

theorem joinNames_of_no_list (s : Server) (sptr : ClientId) {parv : List CStr}
    (none : parv.length < 2 ∨ parv.getD 1 [] = []) : joinNames s sptr parv = [] := by
  have empty : parv.getD 1 [] = [] := by
    cases none with
    | inl short => simp [List.getElem?_eq_none (Nat.le_of_lt_succ short)]
    | inr empty => exact empty
  simp only [joinNames, empty]
  rfl

theorem mJoin_uses_iff (sound : s.Sound) (cptr sptr : ClientId) (parv : List CStr) :
    (mJoin s cptr sptr parv).danglingUses = s.danglingUses ↔ ¬ JoinUsesFreed s sptr parv := by
  constructor
  -- the `0` frees the last channel of the client and `chptr` keeps it; the next name reads it,
  -- and no later step takes that use back
  · rintro same ⟨⟨zero, next, rest, names, isZero⟩, remote, c, last, frees⟩
    have user : (s.client sptr).user = true := by
      cases known : (s.client sptr).user with
      | true => rfl
      | false =>
        rw [sound.outside sptr known] at last
        cases last
    have given : ¬ (parv.length < 2 ∨ parv.getD 1 [] = []) := fun none => by
      rw [joinNames_of_no_list s sptr none] at names
      cases names
    obtain ⟨alike, uses, chan, client⟩ := joinServer_spec s
    have sound₁ := (tidy_joinServer sound).sound sound
    have user₁ : ((joinServer s).client sptr).user = true := client ▸ user
    obtain ⟨first, ready⟩ := ready_joinStart sound₁ user₁ parv
    have tables : (joinStart (joinServer s) sptr parv).srv.toTables = (joinServer s).toTables :=
      (joinList_sends ..).1
    have nonzero : isJoinZero next = false := by
      have tail := joinList_tail s sptr (parv.getD 0 []) (parv.getD 1 []) next
      apply tail
      rw [show tokens isComma (joinList s sptr (parv.getD 0 []) (parv.getD 1 [])).jbuf =
        joinNames s sptr parv from rfl, names]
      exact List.mem_cons_self
    have freesHere : ZeroFrees (joinStart (joinServer s) sptr parv).srv.toTables sptr := by
      rw [tables]
      refine ⟨client ▸ remote, c, client ▸ last, ?_⟩
      unfold Tables.Frees at frees ⊢
      rwa [chan]
    obtain ⟨d, used⟩ := elements_freed ready rfl freesHere isZero nonzero rest cptr (parv.getD 0 [])
    rw [first.danglingUses, uses] at used
    rw [mJoin_eq, if_neg (by simp [user]), if_neg given, joinNames_congr client, names] at same
    simp only at same
    generalize (joinStart (joinServer s) sptr parv).elements cptr sptr (parv.getD 0 [])
      (zero :: next :: rest) = st at same used
    have final : st.srv.danglingUses = s.danglingUses := by
      split at same
      · exact same
      split at same
      · unfold noteJoinTime at same
        split at same <;> exact same
      · exact same
    rw [final] at used
    have longer := used.length_le
    simp only [List.length_append, List.length_singleton] at longer
    omega
  · exact fun safe => (tidy_mJoin sound cptr sptr parv safe).danglingUses

end

end Ircd
