import Ircd.Channel.Freed

/-! Relations between the tables before and after a command.

`m_join`, `m_part`, `m_kick` and `m_sjoin` are made of a few edits of the tables. A relation
that is a preorder and holds across each of the edits is a `Frame`, and holds across the
commands.
-/

set_option autoImplicit false

namespace Ircd

class Frame (R : Tables → Tables → Prop) : Prop where
  refl : ∀ t, R t t
  trans : ∀ {t t' t''}, R t t' → R t' t'' → R t t''
  /-- The variables of split mode. -/
  settings : ∀ {t t' : Tables}, t.Alike t' → t'.chan = t.chan → t'.client = t.client → R t t'
  /-- The modes of a channel, its timestamp and the flags of its members. -/
  dress : ∀ (t : Tables) (c : ChanId) (mode : Mode) (channelts : Int) (members : List Member),
    R t (t.setChan c
      { t.chan c with mode := mode, channelts := channelts, members := members })
  /-- The counters of a client. -/
  editClient : ∀ (t : Tables) (u : ClientId) (cl : Client), cl.invited = (t.client u).invited →
    cl.isPerson = (t.client u).isPerson → cl.name = (t.client u).name → R t (t.setClient u cl)
  delInvite : ∀ (t : Tables) (u : ClientId) (c : ChanId), R t (t.delInvite u c)
  addUserToChannel : ∀ (t : Tables) (c : ChanId) (who : ClientId) (flags : MemberFlags),
    R t (t.addUserToChannel c who flags)
  removeUserFromChannel : ∀ (t : Tables) (who : ClientId) (c : ChanId),
    R t (t.removeUserFromChannel who c)
  createChannel : ∀ (t : Tables) (name : CStr), R t (t.createChannel name)

structure Over (R : Tables → Tables → Prop) (s s' : Server) : Prop where
  keeps : R s.toTables s'.toTables

open Server

namespace Over

variable {R : Tables → Tables → Prop} [Frame R] {s s' s'' : Server}

theorem trans (h : Over R s s') (h' : Over R s' s'') : Over R s s'' :=
  ⟨Frame.trans h.keeps h'.keeps⟩

theorem same (tables : s'.toTables = s.toTables) : Over R s s' := by
  constructor
  rw [tables]
  exact Frame.refl _

theorem refl (s : Server) : Over R s s := same rfl

theorem dress (c : ChanId) (mode : Mode) (channelts : Int) (members : List Member) :
    Over R s (s.setChan c
      { s.chan c with mode := mode, channelts := channelts, members := members }) :=
  ⟨Frame.dress _ _ _ _ _⟩

theorem editClient (u : ClientId) (f : Client → Client)
    (invited : ∀ cl, (f cl).invited = cl.invited) (isPerson : ∀ cl, (f cl).isPerson = cl.isPerson)
    (name : ∀ cl, (f cl).name = cl.name) : Over R s (s.editClient u f) :=
  ⟨Frame.editClient _ _ _ (invited _) (isPerson _) (name _)⟩

theorem delInvite (u : ClientId) (c : ChanId) : Over R s (s.delInvite u c) := by
  constructor
  rw [delInvite_toTables]
  exact Frame.delInvite _ _ _

theorem addUserToChannel (c : ChanId) (who : ClientId) (flags : MemberFlags) :
    Over R s (s.addUserToChannel c who flags) := by
  constructor
  rw [addUserToChannel_toTables]
  exact Frame.addUserToChannel _ _ _ _

theorem removeUserFromChannel (who : ClientId) (c : ChanId) :
    Over R s (s.removeUserFromChannel who c) := by
  constructor
  rw [removeUserFromChannel_toTables]
  exact Frame.removeUserFromChannel _ _ _

theorem sendtoChannelButserv (c : ChanId) (source : ClientId) (text : CStr) :
    Over R s (s.sendtoChannelButserv c source text) := same (by simp)

theorem sendtoMatchServs (chptr : Option ChanId) (cptr : ClientId) (text : CStr) :
    Over R s (s.sendtoMatchServs chptr cptr text) := same (by simp)

theorem getChannel (cptr : ClientId) (chname : CStr) (create : Bool) :
    Over R s (s.getChannel cptr chname create).1 := by
  unfold Server.getChannel
  split
  · exact refl s
  · dsimp only
    split
    · exact refl s
    · split
      · exact ⟨Frame.createChannel _ _⟩
      · exact refl s

theorem leaveAccounting (sptr : ClientId) : Over R s (s.leaveAccounting sptr) := by
  unfold Server.leaveAccounting
  dsimp only
  split
  · have warned : Over R s (s.emit (.opsBots (lit "User " ++ (s.client sptr).name ++ lit " (" ++
      (s.client sptr).username ++ '@' :: (s.client sptr).host ++
        lit ") is a possible spambot"))) := same rfl
    exact warned.trans (editClient sptr _ (fun _ => rfl) (fun _ => rfl) (fun _ => rfl))
  · exact editClient sptr _ (fun _ => rfl) (fun _ => rfl) (fun _ => rfl)

theorem partChannel (cptr sptr : ClientId) (parv0 message name : CStr) :
    Over R s (partChannel s cptr sptr parv0 message name) := by
  unfold Ircd.partChannel
  dsimp only
  have looked : Over R s _ := getChannel sptr name false
  split
  · next s₁ found =>
    rw [found] at looked
    exact looked.trans (same rfl)
  · next s₁ c found =>
    rw [found] at looked
    apply looked.trans
    split
    · exact same rfl
    · exact (sendtoMatchServs ..).trans
        ((sendtoChannelButserv ..).trans (removeUserFromChannel ..))

theorem mPart (cptr sptr : ClientId) (parv : List CStr) :
    Over R s (mPart s cptr sptr parv) := by
  have parts : ∀ (names : List CStr) (s : Server) (parv0 message : CStr), Over R s
      (names.foldl (fun s name => Ircd.partChannel s cptr sptr parv0 message name) s) := by
    intro names
    induction names with
    | nil => exact fun s _ _ => refl s
    | cons name names ih => exact fun s _ _ => (partChannel ..).trans (ih _ _ _)
  unfold Ircd.mPart
  dsimp only
  split
  · exact same rfl
  · refine Over.trans ?_ (parts _ _ _ _)
    split
    · exact leaveAccounting sptr
    · exact refl s

theorem kickMember (cptr sptr : ClientId) (c : ChanId) (who : ClientId)
    (parv0 name user comment : CStr) :
    Over R s (kickMember s cptr sptr c who parv0 name user comment) := by
  unfold Ircd.kickMember
  split
  · exact (sendtoChannelButserv ..).trans
      ((sendtoMatchServs ..).trans (removeUserFromChannel ..))
  · exact same rfl

theorem mKick (cptr sptr : ClientId) (parv : List CStr) :
    Over R s (mKick s cptr sptr parv) := by
  unfold Ircd.mKick
  dsimp only
  split
  · exact same rfl
  generalize noticed : (if (s.client sptr).isServer = true then _ else s) = s₁
  have notice : Over R s s₁ := by
    subst noticed
    split <;> exact same rfl
  apply notice.trans
  have looked : Over R s₁ _ := getChannel sptr (upToComma (parv.getD 1 [])) false
  split
  · next s₂ found =>
    rw [found] at looked
    exact looked.trans (same rfl)
  · next s₂ c found =>
    rw [found] at looked
    apply looked.trans
    split
    · exact same (by simp)
    · split
      · next s₃ chased =>
        refine same ?_
        have tables := congrArg (fun p : Server × Option ClientId => p.1.toTables) chased
        simpa using tables.symm
      · next s₃ who chased =>
        have tables := congrArg (fun p : Server × Option ClientId => p.1.toTables) chased
        have chase : Over R s₂ s₃ := same (by simpa using tables.symm)
        exact chase.trans (kickMember ..)

theorem sjoinSendit (sptr : ClientId) (c : ChanId) (sender : CStr) (b : ModeBuf) :
    Over R s (s.sjoinSendit sptr c sender b) := sendtoChannelButserv ..

theorem sjoinFlush (sptr : ClientId) (c : ChanId) (sender : CStr) (restart b : ModeBuf) :
    Over R s (s.sjoinFlush sptr c sender restart b).1 := by
  unfold Server.sjoinFlush
  split
  · exact sjoinSendit ..
  · exact refl s

theorem sjoinTakeFlag (sptr : ClientId) (c : ChanId) (sender : CStr) (has : Bool) (letter : Char)
    (name : CStr) (b : ModeBuf) :
    Over R s (s.sjoinTakeFlag sptr c sender has letter name b).1 := by
  unfold Server.sjoinTakeFlag
  split
  · exact sjoinFlush ..
  · exact refl s

theorem sjoinTakeFlags (sptr : ClientId) (c : ChanId) (sender : CStr) (links : List Member)
    (s : Server) (b : ModeBuf) :
    Over R s (Server.sjoinTakeFlags sptr c sender links s b).1 := by
  induction links generalizing s b with
  | nil => exact refl s
  | cons link links ih =>
    unfold Server.sjoinTakeFlags
    exact (sjoinTakeFlag ..).trans ((sjoinTakeFlag ..).trans (ih _ _))

theorem sjoinTsZero (sptr : ClientId) (c : ChanId) (req : SjoinRequest) (isnew : Bool) :
    Over R s (s.sjoinTsZero sptr c req isnew) := by
  unfold Server.sjoinTsZero
  dsimp only
  split
  · exact same (by simp)
  · exact refl s

theorem sjoinModeChanges (sptr : ClientId) (c : ChanId) (req : SjoinRequest) (ts : SjoinTs)
    (oldts : Int) : Over R s (s.sjoinModeChanges sptr c req ts oldts) := by
  unfold Server.sjoinModeChanges
  dsimp only
  have merged : Over R s (s.setChan c { s.chan c with
      mode := sjoinMerge ts (s.chan c).mode req.mode, channelts := ts.channelts }) := dress _ _ _ _
  generalize s.setChan c _ = s₁ at merged ⊢
  apply merged.trans
  have sent : ∀ (s : Server) (b : ModeBuf),
      Over R s (if b.mbuf ≠ [] then s.sjoinSendit sptr c req.sender b else s) := by
    intro s b
    split
    · exact sjoinSendit ..
    · exact refl s
  split
  · exact sent _ _
  · refine Over.trans ?_ (sent _ _)
    have taken : Over R s₁ _ := sjoinTakeFlags sptr c req.sender (s₁.chan c).members s₁
      { sjoinModeBuf (s.chan c).mode (sjoinMerge ts (s.chan c).mode req.mode) with what := none }
    generalize Server.sjoinTakeFlags sptr c req.sender _ s₁ _ = p at taken ⊢
    have wiped : Over R p.1 (p.1.setChan c (p.1.chan c).wipeFlags) := dress _ _ _ _
    exact taken.trans (wiped.trans (sendtoChannelButserv ..))

theorem giveFlag (st : SjoinLoop) (sptr : ClientId) (c : ChanId) (sender : CStr) (has : Bool)
    (letter : Char) (name : CStr) :
    Over R st.srv (st.giveFlag sptr c sender has letter name).srv := by
  unfold SjoinLoop.giveFlag
  split
  · exact sjoinFlush ..
  · exact refl _

theorem admitClient (st : SjoinLoop) (sptr : ClientId) (c : ChanId) (req : SjoinRequest)
    (keepNewModes : Bool) (s0 : CStr) (acptr : ClientId) :
    Over R st.srv (st.admitClient sptr c req keepNewModes s0 acptr).srv := by
  unfold SjoinLoop.admitClient
  dsimp only
  refine Over.trans ?_ ((giveFlag ..).trans (giveFlag ..))
  dsimp only
  split
  · exact refl _
  · exact (addUserToChannel ..).trans (sendtoChannelButserv ..)

theorem nick (st : SjoinLoop) (cptr sptr : ClientId) (c : ChanId) (req : SjoinRequest)
    (keepNewModes : Bool) (s0 : CStr) :
    Over R st.srv (st.nick cptr sptr c req keepNewModes s0).srv := by
  unfold SjoinLoop.nick
  have tables : (st.srv.findChasing sptr (stripPrefixes s0)).1.toTables = st.srv.toTables := by simp
  split
  · next srv chased =>
    rw [chased] at tables
    exact same tables
  · next srv acptr chased =>
    rw [chased] at tables
    have looked : Over R st.srv srv := same tables
    split
    · exact looked
    · exact looked.trans (admitClient { st with srv := srv } ..)

theorem sjoinChannel (cptr sptr : ClientId) (c : ChanId) (req : SjoinRequest) (isnew : Bool) :
    Over R s (s.sjoinChannel cptr sptr c req isnew) := by
  have nicks : ∀ (names : List CStr) (st : SjoinLoop) (keepNewModes : Bool), Over R st.srv
      (names.foldl (fun st s0 => st.nick cptr sptr c req keepNewModes s0) st).srv := by
    intro names
    induction names with
    | nil => exact fun st _ => refl _
    | cons s0 names ih => exact fun st keep => (nick ..).trans (ih _ _)
  have relayed : ∀ (header : CStr) (st : SjoinLoop),
      Over R st.srv (Server.sjoinRelay cptr sptr c req header st) := by
    intro header st
    unfold Server.sjoinRelay
    dsimp only
    have shown : Over R st.srv
        (if st.buf.pargs ≠ 0 then st.srv.sjoinSendit sptr c req.sender st.buf else st.srv) := by
      split
      · exact sjoinSendit ..
      · exact refl _
    generalize (if st.buf.pargs ≠ 0 then st.srv.sjoinSendit sptr c req.sender st.buf
      else st.srv) = s₁ at shown ⊢
    apply shown.trans
    split
    · exact sendtoMatchServs ..
    · exact refl _
  unfold Server.sjoinChannel Server.sjoinNicks
  dsimp only
  refine (sjoinTsZero sptr c req isnew).trans ?_
  refine (sjoinModeChanges sptr c req (s.sjoinTsOf c req isnew) (s.chan c).channelts).trans ?_
  generalize Server.sjoinModeChanges _ sptr c req _ _ = s₁
  have entered := nicks (tokens isBlank req.nicks)
    { srv := s₁, text := [], people := 0, buf := ModeBuf.plus }
  exact (entered _).trans (relayed _ _)

theorem mSjoin (cptr sptr : ClientId) (parv : List CStr) :
    Over R s (mSjoin s cptr sptr parv) := by
  unfold Ircd.mSjoin
  split
  · exact refl s
  · next req parsed =>
    unfold Server.sjoinRun
    dsimp only
    have looked : Over R s _ := getChannel sptr req.name true
    split
    · next s₁ c found =>
      rw [found] at looked
      exact looked.trans (sjoinChannel ..)
    · next s₁ found =>
      rw [found] at looked
      exact looked

theorem canJoin (sptr : ClientId) (c : ChanId) (key : Option CStr) (flags : MemberFlags) :
    Over R s (s.canJoin sptr c key flags).1 := by
  unfold Server.canJoin
  dsimp only
  split <;> exact same (by simp)

theorem announceJoin (cptr sptr : ClientId) (c : ChanId) (flags : MemberFlags)
    (parv0 name : CStr) : Over R s (s.announceJoin cptr sptr c flags parv0 name) := by
  unfold Server.announceJoin
  dsimp only
  split
  · have stamped : Over R s (s.setChan c { s.chan c with channelts := s.currentTime }) :=
      dress _ _ _ _
    exact stamped.trans (sendtoMatchServs ..)
  · split <;> exact sendtoMatchServs ..

theorem firstModes (sptr : ClientId) (c : ChanId) : Over R s (s.firstModes sptr c) := by
  unfold Server.firstModes
  dsimp only
  have modes : Over R s (s.setChan c { s.chan c with
      mode := ((s.chan c).mode.set .modeTopicLimit).set .modeNoPrivMsgs }) := dress _ _ _ _
  generalize s.setChan c _ = s₁ at modes ⊢
  exact modes.trans ((sendtoChannelButserv ..).trans (sendtoMatchServs ..))

theorem enterChannel (cptr sptr : ClientId) (c : ChanId) (flags : MemberFlags)
    (parv0 name : CStr) : Over R s (s.enterChannel cptr sptr c flags parv0 name) := by
  unfold Server.enterChannel Server.greet
  dsimp only
  refine (addUserToChannel c sptr flags).trans ?_
  refine (announceJoin cptr sptr c flags parv0 name).trans ?_
  refine (sendtoChannelButserv c sptr (':' :: parv0 ++ lit " JOIN :" ++ name)).trans ?_
  generalize Server.sendtoChannelButserv _ c sptr _ = s₁
  split
  · generalize opened : (if flags.chanop = true then s₁.firstModes sptr c else s₁) = s₂
    have modes : Over R s₁ s₂ := by
      subst opened
      split
      · exact firstModes sptr c
      · exact refl s₁
    refine modes.trans ((delInvite sptr c).trans (same ?_))
    unfold Server.sendTopic
    dsimp only
    split <;> rfl
  · exact refl s₁

open JoinLoop in
theorem leaveAll (sptr : ClientId) (parv0 : CStr) (cs : List ChanId) (st : JoinLoop) :
    Over R st.srv (leaveAll sptr parv0 cs st).srv := by
  induction cs generalizing st with
  | nil => exact refl _
  | cons c rest ih =>
    rw [JoinLoop.leaveAll]
    exact (sendtoChannelButserv ..).trans ((removeUserFromChannel ..).trans (ih { st with
      srv := _
      chptr := some c }))

theorem joinZero (st : JoinLoop) (cptr sptr : ClientId) (parv0 : CStr) :
    Over R st.srv (st.joinZero cptr sptr parv0).srv := by
  unfold JoinLoop.joinZero
  split
  · exact refl _
  · simp only
    have left : Over R st.srv _ := leaveAll sptr parv0 (st.srv.client sptr).channel st
    generalize JoinLoop.leaveAll sptr parv0 (st.srv.client sptr).channel st = st₁ at left ⊢
    refine left.trans (Over.trans ?_ (sendtoMatchServs ..))
    split
    · exact leaveAccounting sptr
    · exact refl _

theorem noteJoinTime (st : JoinLoop) (sptr : ClientId) :
    Over R st.srv (st.noteJoinTime sptr).srv := by
  unfold JoinLoop.noteJoinTime
  split
  · exact editClient sptr (fun cl => { cl with lastJoinTime := st.srv.currentTime })
      (fun _ => rfl) (fun _ => rfl) (fun _ => rfl)
  · exact refl _

theorem warnSpambot (sptr : ClientId) (name : CStr) :
    Over R s (JoinLoop.warnSpambot s sptr name) := by
  unfold JoinLoop.warnSpambot
  simp only
  generalize (if (s.client sptr).operWarnCountDown > 0 then _ else (0 : Int)) = count
  split
  · generalize Output.opsBots _ = warning
    have warned : Over R s (s.emit warning) := same rfl
    exact warned.trans (editClient sptr _ (fun _ => rfl) (fun _ => rfl) (fun _ => rfl))
  · exact editClient sptr _ (fun _ => rfl) (fun _ => rfl) (fun _ => rfl)

theorem localLimits (st : JoinLoop) (sptr : ClientId) (parv0 name : CStr) :
    Over R st.srv (JoinLoop.ended (st.localLimits sptr parv0 name)).srv := by
  unfold JoinLoop.localLimits
  split
  · have told : Over R st.srv (st.send sptr .errTooManyChannels [parv0, name]).srv :=
      same rfl
    exact told.trans (noteJoinTime _ sptr)
  split
  · exact warnSpambot sptr name
  · exact same (congrArg Server.toTables st.countJoin_srv.1)

theorem lookup (st : JoinLoop) (sptr : ClientId) (parv0 name : CStr) :
    Over R st.srv (JoinLoop.ended (st.lookup sptr parv0 name)).srv := by
  unfold JoinLoop.lookup
  split
  · cases looked : st.localLookup sptr parv0 name with
    | ok st₁ =>
      have limits : Over R st₁.srv _ := localLimits st₁ sptr parv0 name
      rw [(JoinLoop.localLookup_ok looked).1] at limits
      exact limits
    | error st₁ =>
      unfold JoinLoop.localLookup at looked
      split at looked
      · cases looked
      · split at looked
        · cases looked
          exact same rfl
        · cases looked
  · exact same (st.remoteLookup_spec sptr name).1

theorem joinBlock (st : JoinLoop) (cptr sptr : ClientId) (parv0 name : CStr) :
    Over R st.srv (JoinLoop.ended (st.joinBlock cptr sptr parv0 name)).srv := by
  unfold JoinLoop.joinBlock JoinLoop.checkMember
  cases block : st.chptr with
  | none => exact same rfl
  | some c =>
    by_cases member : st.srv.isMember sptr c = true
    · simp only [member, if_true]
      exact refl _
    · simp only [member]
      show Over R st.srv (JoinLoop.ended (do
        let st' ← st.checkCanJoin sptr c parv0 name
        .ok { st' with srv := st'.srv.enterChannel cptr sptr c st'.flags parv0 name })).srv
      unfold JoinLoop.checkCanJoin
      split
      · have checked : Over R st.srv _ := canJoin sptr c st.keys.head? st.flags
        simp only
        split
        · exact checked.trans (same rfl)
        · exact checked.trans (enterChannel ..)
      · exact enterChannel ..

theorem body (st : JoinLoop) (cptr sptr : ClientId) (parv0 name : CStr) :
    Over R st.srv (JoinLoop.ended (st.body cptr sptr parv0 name)).srv := by
  have looked : Over R st.srv _ := lookup st sptr parv0 name
  unfold JoinLoop.body
  cases result : st.lookup sptr parv0 name with
  | error st₁ =>
    rw [result] at looked
    exact looked
  | ok st₁ =>
    rw [result] at looked
    have ensured : Over R st₁.srv (st₁.ensureChannel sptr name).1.srv := by
      unfold JoinLoop.ensureChannel
      cases block : st₁.chptr with
      | some c => exact refl _
      | none => exact getChannel ..
    exact looked.trans (ensured.trans (joinBlock ..))

theorem elements (cptr sptr : ClientId) (parv0 : CStr) (names : List CStr) (st : JoinLoop) :
    Over R st.srv (st.elements cptr sptr parv0 names).srv := by
  unfold JoinLoop.elements
  induction names generalizing st with
  | nil => exact refl _
  | cons name names ih =>
    have first : Over R st.srv (st.element cptr sptr parv0 name).srv := by
      unfold JoinLoop.element
      split
      · exact refl _
      · simp only
        split
        · exact joinZero st cptr sptr parv0
        · exact body st cptr sptr parv0 name
    exact first.trans (ih _)

theorem joinStart (parv : List CStr) (sptr : ClientId) :
    Over R s (joinStart (joinServer s) sptr parv).srv := by
  obtain ⟨settings, -, chan, client⟩ := joinServer_spec s
  have tables : (Ircd.joinStart (joinServer s) sptr parv).srv.toTables = (joinServer s).toTables :=
    (joinList_sends ..).1
  have started : Over R s (joinServer s) := ⟨Frame.settings settings chan client⟩
  exact started.trans (same tables)

theorem mJoin (cptr sptr : ClientId) (parv : List CStr) :
    Over R s (mJoin s cptr sptr parv) := by
  rw [mJoin_eq]
  split
  · exact refl s
  split
  · exact same rfl
  have entered : Over R s _ := (joinStart parv sptr).trans (elements cptr sptr (parv.getD 0 [])
    (joinNames (joinServer s) sptr parv) (Ircd.joinStart (joinServer s) sptr parv))
  simp only
  generalize (Ircd.joinStart (joinServer s) sptr parv).elements cptr sptr (parv.getD 0 [])
    (joinNames (joinServer s) sptr parv) = st at entered ⊢
  split
  · exact entered
  split
  · exact entered.trans (noteJoinTime st sptr)
  · exact entered

theorem exitChannels (sptr : ClientId) (cs : List ChanId) (s : Server) :
    Over R s (exitChannels sptr cs s) := by
  induction cs generalizing s with
  | nil => exact refl s
  | cons c cs ih => exact (removeUserFromChannel sptr c).trans (ih _)

theorem exitInvites (sptr : ClientId) (cs : List ChanId) (s : Server) :
    Over R s (exitInvites sptr cs s) := by
  induction cs generalizing s with
  | nil => exact refl s
  | cons c cs ih => exact (delInvite sptr c).trans (ih _)

end Over

end Ircd
