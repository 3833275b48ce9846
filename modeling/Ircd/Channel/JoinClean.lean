import Ircd.Channel.Clean
import Ircd.Channel.PartClean

/-! `m_join` stage by stage: an element of the list is tidy, and what it leaves in
`chptr` is what the next element has to be able to use.
-/

set_option autoImplicit false

namespace Ircd

theorem JoinList.element_sends (st : JoinList) (sptr : ClientId) (parv0 name : CStr) :
    (st.element sptr parv0 name).srv.toTables = st.srv.toTables ∧
      (st.element sptr parv0 name).srv.danglingUses = st.srv.danglingUses := by
  unfold JoinList.element
  simp only
  split
  · exact ⟨rfl, rfl⟩
  split
  · exact ⟨rfl, rfl⟩
  split
  · exact ⟨rfl, rfl⟩
  split
  · split <;> exact ⟨rfl, rfl⟩
  · exact ⟨rfl, rfl⟩

theorem joinList_sends (s : Server) (sptr : ClientId) (parv0 names : CStr) :
    (joinList s sptr parv0 names).srv.toTables = s.toTables ∧
      (joinList s sptr parv0 names).srv.danglingUses = s.danglingUses := by
  unfold joinList
  suffices run : ∀ (toks : List CStr) (st : JoinList),
      (toks.foldl (fun st name => st.element sptr parv0 name) st).srv.toTables = st.srv.toTables ∧
        (toks.foldl (fun st name => st.element sptr parv0 name) st).srv.danglingUses =
          st.srv.danglingUses from run _ _
  intro toks
  induction toks with
  | nil => exact fun st => ⟨rfl, rfl⟩
  | cons name toks ih =>
    intro st
    obtain ⟨tables, uses⟩ := ih (st.element sptr parv0 name)
    obtain ⟨tables', uses'⟩ := st.element_sends sptr parv0 name
    exact ⟨tables.trans tables', uses.trans uses'⟩

theorem isJoinZero_of_isChannelName {name : CStr} (n : Nat) (h : isChannelName name = true) :
    isJoinZero (name.take n) = false := by
  cases name with
  | nil => cases h
  | cons c rest =>
    cases n with
    | zero => rfl
    | succ n =>
      have other : c ≠ '0' := by
        rintro rfl
        exact absurd h (by simp [isChannelName, isChanPrefix])
      simp [isJoinZero, other]

/-- A `0` clears what stood before it, so that only the first name of the rebuilt list
can be one. -/
theorem joinList_tail (s : Server) (sptr : ClientId) (parv0 names : CStr) :
    ∀ name ∈ (tokens isComma (joinList s sptr parv0 names).jbuf).tail, isJoinZero name = false := by
  have comma : isComma ',' = true := rfl
  have step : ∀ (st : JoinList) (name : CStr), (∀ c ∈ name, isComma c = false) →
      (∀ n ∈ (tokens isComma st.jbuf).tail, isJoinZero n = false) →
        ∀ n ∈ (tokens isComma (st.element sptr parv0 name).jbuf).tail, isJoinZero n = false := by
    intro st name plain before
    have short : ∀ m, tokens isComma (name.take m) =
        if name.take m = [] then [] else [name.take m] := by
      intro m
      have clean : ∀ c ∈ name.take m, isComma c = false :=
        fun c inside => plain c (List.mem_of_mem_take inside)
      simpa [tokens] using @tokensFrom_of_no_sep isComma [] _ clean
    unfold JoinList.element
    simp only
    split
    · exact before
    split
    · exact before
    split
    -- a `0` starts the buffer again, so it stands first
    · next zero =>
      intro n inside
      simp only [JoinList.append, ne_eq, not_true_eq_false, if_false, List.nil_append] at inside
      rw [short] at inside
      split at inside <;> cases inside
    split
    · split <;> exact before
    next named =>
      have channel : isChannelName name = true := by simpa using named
      intro n inside
      simp only [JoinList.append] at inside
      by_cases empty : st.jbuf = []
      · simp only [empty, ne_eq, not_true_eq_false, if_false, List.nil_append] at inside
        rw [short] at inside
        split at inside <;> cases inside
      · simp only [empty, ne_eq, not_false_eq_true, if_true, List.append_assoc,
          List.singleton_append] at inside
        rw [tokens, tokensFrom_append isComma ',' comma] at inside
        have parts : n ∈ (tokens isComma st.jbuf).tail ∨
            n ∈ tokens isComma (name.take (jbufRoom st.i)) := by
          unfold tokens
          revert inside
          cases tokensFrom isComma [] st.jbuf with
          | nil => exact fun inside => Or.inr (List.mem_of_mem_tail inside)
          | cons first rest => exact fun inside => List.mem_append.1 inside
        cases parts with
        | inl old => exact before n old
        | inr new =>
          rw [short] at new
          split at new
          · cases new
          · rw [List.mem_singleton.1 new]
            exact isJoinZero_of_isChannelName _ channel
  -- by induction on the names, from the empty buffer
  have run : ∀ (toks : List CStr), (∀ name ∈ toks, ∀ c ∈ name, isComma c = false) →
      ∀ st : JoinList, (∀ n ∈ (tokens isComma st.jbuf).tail, isJoinZero n = false) →
        ∀ n ∈ (tokens isComma
          (toks.foldl (fun st name => st.element sptr parv0 name) st).jbuf).tail,
          isJoinZero n = false := by
    intro toks
    induction toks with
    | nil => exact fun _ _ before => before
    | cons name toks ih =>
      intro plain st before
      exact ih (fun n inside => plain n (List.mem_cons_of_mem _ inside)) _
        (step st name (plain name List.mem_cons_self) before)
  apply run
  · exact fun name inside => not_sep_of_mem_tokens inside
  · intro n inside
    cases inside

namespace Server

variable {s : Server} {c : ChanId}

theorem canJoin_toTables (s : Server) (sptr : ClientId) (c : ChanId) (key : Option CStr)
    (flags : MemberFlags) : (s.canJoin sptr c key flags).1.toTables = s.toTables := by
  unfold canJoin
  simp only
  split <;> simp

theorem tidy_canJoin (live : s.freed c = false) (sptr : ClientId) (key : Option CStr)
    (flags : MemberFlags) : Tidy s (s.canJoin sptr c key flags).1 := by
  apply Tidy.same (s.canJoin_toTables sptr c key flags)
  unfold canJoin
  simp only [s.touch_of_live live]
  split <;> rfl

theorem tidy_announceJoin (sound : s.Sound) (listed : c ∈ s.channel) (cptr sptr : ClientId)
    (flags : MemberFlags) (parv0 name : CStr) :
    Tidy s (s.announceJoin cptr sptr c flags parv0 name) ∧
      c ∈ (s.announceJoin cptr sptr c flags parv0 name).channel := by
  have live := sound.live c listed
  unfold announceJoin
  simp only
  split
  · have stamped : Tidy s (s.setChan c { s.chan c with channelts := s.currentTime }) :=
      .setChan sound ⟨rfl, rfl, rfl⟩ Or.inl
    refine ⟨stamped.trans (.sendtoMatchServs ?_ _ _), ?_⟩
    · exact live
    · rw [sendtoMatchServs_toTables]
      exact listed
  · split
    · exact ⟨.sendtoMatchServs live .., by simpa using listed⟩
    · exact ⟨.sendtoMatchServs live .., by simpa using listed⟩

theorem tidy_firstModes (sound : s.Sound) (listed : c ∈ s.channel) (sptr : ClientId) :
    Tidy s (s.firstModes sptr c) ∧ c ∈ (s.firstModes sptr c).channel := by
  have live := sound.live c listed
  unfold firstModes
  simp only
  generalize edited : s.setChan c _ = s'
  have modes : Tidy s s' := by
    subst edited
    exact .setChan sound ⟨rfl, rfl, rfl⟩ Or.inl
  have listed' : c ∈ s'.channel := by
    subst edited
    exact listed
  have live' := (modes.sound sound).live c listed'
  refine ⟨modes.trans (.trans (.sendtoChannelButserv live' _ _) (.sendtoMatchServs ?_ _ _)),
    by simpa using listed'⟩
  simpa using live'

theorem tidy_sendTopic (s : Server) (sptr : ClientId) (c : ChanId) (parv0 name : CStr) :
    Tidy s (s.sendTopic sptr c parv0 name) := by
  unfold sendTopic
  simp only
  split
  · exact (Tidy.sendtoOne ..).trans (.sendtoOne ..)
  · exact .refl s

theorem sendTopic_toTables (s : Server) (sptr : ClientId) (c : ChanId) (parv0 name : CStr) :
    (s.sendTopic sptr c parv0 name).toTables = s.toTables := by
  unfold sendTopic
  simp only
  split <;> rfl

theorem tidy_greet (sound : s.Sound) (listed : c ∈ s.channel) (cptr sptr : ClientId)
    (flags : MemberFlags) (parv0 name : CStr) : Tidy s (s.greet cptr sptr c flags parv0 name) := by
  unfold greet
  simp only
  obtain ⟨announced, listed₁⟩ := tidy_announceJoin sound listed cptr sptr flags parv0 name
  generalize s.announceJoin cptr sptr c flags parv0 name = s₁ at announced listed₁ ⊢
  have sound₁ := announced.sound sound
  have shown : Tidy s₁ (s₁.sendtoChannelButserv c sptr (':' :: parv0 ++ lit " JOIN :" ++ name)) :=
    .sendtoChannelButserv (sound₁.live c listed₁) _ _
  have listed₂ : c ∈ (s₁.sendtoChannelButserv c sptr
      (':' :: parv0 ++ lit " JOIN :" ++ name)).channel := by simpa using listed₁
  generalize s₁.sendtoChannelButserv c sptr _ = s₂ at shown listed₂ ⊢
  have sound₂ := shown.sound sound₁
  refine announced.trans (shown.trans ?_)
  split
  · generalize opened : (if flags.chanop then s₂.firstModes sptr c else s₂) = s₃
    have modes : Tidy s₂ s₃ ∧ c ∈ s₃.channel := by
      subst opened
      split
      · exact tidy_firstModes sound₂ listed₂ sptr
      · exact ⟨.refl s₂, listed₂⟩
    have sound₃ := modes.1.sound sound₂
    have uninvited := Tidy.delInvite sound₃ (sound₃.live c modes.2) sptr
    exact modes.1.trans (uninvited.trans ((tidy_sendTopic ..).trans (.emit _)))
  · exact .refl s₂

theorem tidy_enterChannel (sound : s.Sound) (listed : c ∈ s.channel) {sptr : ClientId}
    (new : sptr ∉ (s.chan c).memberIds) (cptr : ClientId) (flags : MemberFlags)
    (parv0 name : CStr) : Tidy s (s.enterChannel cptr sptr c flags parv0 name) := by
  have added := Tidy.addUserToChannel sound flags listed new
  refine added.trans (tidy_greet (added.sound sound) ?_ ..)
  have directory : (s.addUserToChannel c sptr flags).channel = s.channel := by
    rw [addUserToChannel_toTables, Tables.addUserToChannel]
    split <;> rfl
  exact directory ▸ listed

/-! An entry changes no list but those of the member. -/

theorem announceJoin_channel (s : Server) (cptr sptr : ClientId) (c : ChanId)
    (flags : MemberFlags) (parv0 name : CStr) :
    (s.announceJoin cptr sptr c flags parv0 name).channel = s.channel := by
  unfold announceJoin
  simp only
  split
  · rw [sendtoMatchServs_toTables]
    rfl
  · split <;> rw [sendtoMatchServs_toTables]

theorem firstModes_channel (s : Server) (sptr : ClientId) (c : ChanId) :
    (s.firstModes sptr c).channel = s.channel := by
  unfold firstModes
  rw [sendtoMatchServs_toTables, sendtoChannelButserv_toTables]
  rfl

theorem greet_channel (s : Server) (cptr sptr : ClientId) (c : ChanId) (flags : MemberFlags)
    (parv0 name : CStr) : (s.greet cptr sptr c flags parv0 name).channel = s.channel := by
  unfold greet
  simp only
  have announced := s.announceJoin_channel cptr sptr c flags parv0 name
  generalize s.announceJoin cptr sptr c flags parv0 name = s₁ at announced ⊢
  have shown : (s₁.sendtoChannelButserv c sptr (':' :: parv0 ++ lit " JOIN :" ++ name)).channel =
      s₁.channel := by rw [sendtoChannelButserv_toTables]
  generalize s₁.sendtoChannelButserv c sptr _ = s₂ at shown ⊢
  split
  · generalize opened : (if flags.chanop then s₂.firstModes sptr c else s₂) = s₃
    have modes : s₃.channel = s₂.channel := by
      subst opened
      split
      · exact s₂.firstModes_channel sptr c
      · rfl
    rw [emit_toTables, (sendTopic_toTables ..), delInvite_toTables]
    exact modes.trans (shown.trans announced)
  · exact shown.trans announced

theorem enterChannel_channel (s : Server) (cptr sptr : ClientId) (c : ChanId)
    (flags : MemberFlags) (parv0 name : CStr) :
    (s.enterChannel cptr sptr c flags parv0 name).channel = s.channel := by
  unfold enterChannel
  rw [greet_channel, addUserToChannel_toTables, Tables.addUserToChannel]
  split <;> rfl

theorem settled_enterChannel (sound : s.Sound) (listed : c ∈ s.channel) {sptr : ClientId}
    (new : sptr ∉ (s.chan c).memberIds) (user : (s.client sptr).user = true) (cptr : ClientId)
    (flags : MemberFlags) (parv0 name : CStr) :
    (s.enterChannel cptr sptr c flags parv0 name).Settled c := by
  have added := Tidy.addUserToChannel sound flags listed new
  have directory : (s.addUserToChannel c sptr flags).channel = s.channel := by
    rw [addUserToChannel_toTables, Tables.addUserToChannel]
    split <;> rfl
  refine (tidy_greet (added.sound sound) (directory ▸ listed) ..).settled c fun _ => Or.inl ?_
  rw [addUserToChannel_toTables, Tables.addUserToChannel_chan, if_pos ⟨rfl, user⟩]
  simp [Channel.memberIds]

end Server

namespace JoinLoop

open Server

variable {st st' : JoinLoop} {sptr : ClientId}

/-- What an element needs of the loop: the block in `chptr`, which only a remote client
takes over from the element before, is on the list. -/
structure Ready (st : JoinLoop) (sptr : ClientId) : Prop where
  sound : st.srv.Sound
  user : (st.srv.client sptr).user = true
  chptr : (st.srv.client sptr).myConnect = false → ∀ c, st.chptr = some c → c ∈ st.srv.channel

theorem tidy_noteJoinTime (sound : st.srv.Sound) (sptr : ClientId) :
    Tidy st.srv (st.noteJoinTime sptr).srv := by
  unfold noteJoinTime
  split
  · exact .editClient sound sptr (fun cl => { cl with lastJoinTime := st.srv.currentTime })
      (fun _ => rfl) (fun _ => rfl) (fun _ => rfl)
  · exact .refl _

theorem localLookup_ok {parv0 name : CStr} (h : st.localLookup sptr parv0 name = .ok st') :
    st'.srv = st.srv ∧ st'.chptr = st.srv.hashFindChannel name := by
  unfold localLookup at h
  cases found : st.srv.hashFindChannel name with
  | some c =>
    simp only [found] at h
    cases h
    exact ⟨rfl, rfl⟩
  | none =>
    simp only [found] at h
    split at h
    · cases h
    · cases h
      exact ⟨rfl, rfl⟩

theorem localLookup_error {parv0 name : CStr} (h : st.localLookup sptr parv0 name = .error st') :
    Tidy st.srv st'.srv := by
  unfold localLookup at h
  cases found : st.srv.hashFindChannel name with
  | some c =>
    simp only [found] at h
    cases h
  | none =>
    simp only [found] at h
    split at h
    · cases h
      exact .sendtoOne ..
    · cases h

theorem countJoin_srv (st : JoinLoop) : st.countJoin.srv = st.srv ∧ st.countJoin.chptr = st.chptr := by
  unfold countJoin
  split <;> exact ⟨rfl, rfl⟩

theorem tidy_warnSpambot {s : Server} (sound : s.Sound) (sptr : ClientId) (name : CStr) :
    Tidy s (warnSpambot s sptr name) := by
  unfold warnSpambot
  simp only
  generalize (if (s.client sptr).operWarnCountDown > 0 then _ else (0 : Int)) = count
  split
  · generalize warning : Output.opsBots _ = o
    have warned : Tidy s (s.emit o) := .emit o
    exact warned.trans (.editClient (warned.sound sound) _ _ (fun _ => rfl) (fun _ => rfl)
      (fun _ => rfl))
  · exact .editClient sound sptr (fun cl => { cl with operWarnCountDown := count })
      (fun _ => rfl) (fun _ => rfl) (fun _ => rfl)

theorem localLimits_ok {parv0 name : CStr} (h : st.localLimits sptr parv0 name = .ok st') :
    st'.srv = st.srv ∧ st'.chptr = st.chptr := by
  unfold localLimits at h
  split at h
  · cases h
  · split at h
    · cases h
    · cases h
      exact countJoin_srv st

theorem localLimits_error (sound : st.srv.Sound) {parv0 name : CStr}
    (h : st.localLimits sptr parv0 name = .error st') : Tidy st.srv st'.srv := by
  unfold localLimits at h
  split at h
  · cases h
    have refused : Tidy st.srv (st.send sptr .errTooManyChannels [parv0, name]).srv :=
      .sendtoOne ..
    exact refused.trans (tidy_noteJoinTime (refused.sound sound) sptr)
  · split at h
    · cases h
      exact tidy_warnSpambot sound sptr name
    · cases h

theorem remoteLookup_spec (st : JoinLoop) (sptr : ClientId) (name : CStr) :
    (st.remoteLookup sptr name).srv.toTables = st.srv.toTables ∧
      (st.remoteLookup sptr name).srv.danglingUses = st.srv.danglingUses ∧
      (st.remoteLookup sptr name).chptr = st.chptr := by
  unfold remoteLookup
  split <;> exact ⟨rfl, rfl, rfl⟩

/-- Before the channel is looked at the tables stay as they were, unless the element is over. -/
theorem lookup_ok (ready : st.Ready sptr) {parv0 name : CStr}
    (h : st.lookup sptr parv0 name = .ok st') :
    st'.srv.toTables = st.srv.toTables ∧ st'.srv.danglingUses = st.srv.danglingUses ∧
      ∀ c, st'.chptr = some c → c ∈ st.srv.channel := by
  unfold lookup at h
  split at h
  · cases looked : st.localLookup sptr parv0 name with
    | error st₁ =>
      rw [looked] at h
      cases h
    | ok st₁ =>
      rw [looked] at h
      obtain ⟨srv₁, chptr₁⟩ := localLookup_ok looked
      obtain ⟨srv, chptr⟩ := localLimits_ok (show st₁.localLimits sptr parv0 name = .ok st' from h)
      rw [srv, srv₁, chptr, chptr₁]
      exact ⟨rfl, rfl, fun c found => ready.sound.listed_of_found found⟩
  · next remote =>
    cases h
    obtain ⟨tables, uses, chptr⟩ := st.remoteLookup_spec sptr name
    rw [chptr]
    exact ⟨tables, uses, ready.chptr (Bool.eq_false_of_not_eq_true remote)⟩

theorem lookup_error (sound : st.srv.Sound) {parv0 name : CStr}
    (h : st.lookup sptr parv0 name = .error st') : Tidy st.srv st'.srv := by
  unfold lookup at h
  split at h
  · cases looked : st.localLookup sptr parv0 name with
    | error st₁ =>
      rw [looked] at h
      cases h
      exact localLookup_error looked
    | ok st₁ =>
      rw [looked] at h
      obtain ⟨srv₁, -⟩ := localLookup_ok looked
      have sound₁ : st₁.srv.Sound := by rwa [srv₁]
      have limits := localLimits_error sound₁
        (show st₁.localLimits sptr parv0 name = .error st' from h)
      rwa [srv₁] at limits
  · cases h

theorem checkCanJoin_ok {c : ChanId} (live : st.srv.freed c = false) {parv0 name : CStr}
    (h : st.checkCanJoin sptr c parv0 name = .ok st') :
    st'.srv.toTables = st.srv.toTables ∧ st'.srv.danglingUses = st.srv.danglingUses := by
  unfold checkCanJoin at h
  split at h
  · simp only at h
    split at h
    · cases h
    · cases h
      exact ⟨st.srv.canJoin_toTables sptr c st.key st.flags,
        (tidy_canJoin live sptr st.key st.flags).danglingUses⟩
  · cases h
    exact ⟨rfl, rfl⟩

theorem checkCanJoin_error {c : ChanId} (live : st.srv.freed c = false) {parv0 name : CStr}
    (h : st.checkCanJoin sptr c parv0 name = .error st') : Tidy st.srv st'.srv := by
  unfold checkCanJoin at h
  split at h
  · simp only at h
    split at h
    · cases h
      exact (tidy_canJoin live sptr st.key st.flags).trans (.sendtoOne ..)
    · cases h
  · cases h

theorem tidy_joinBlock (sound : st.srv.Sound) (listed : ∀ c, st.chptr = some c → c ∈ st.srv.channel)
    (cptr sptr : ClientId) (parv0 name : CStr) :
    Tidy st.srv (ended (st.joinBlock cptr sptr parv0 name)).srv := by
  unfold joinBlock checkMember
  cases block : st.chptr with
  | none => exact .sendtoOne ..
  | some c =>
    have inList := listed c block
    have live := sound.live c inList
    by_cases member : st.srv.isMember sptr c = true
    · simp only [member, if_true]
      exact .refl _
    · have new : sptr ∉ (st.srv.chan c).memberIds := fun inside =>
        member (sound.isMember_iff.2 inside)
      simp only [member]
      show Tidy st.srv (ended (do
        let st' ← st.checkCanJoin sptr c parv0 name
        .ok { st' with srv := st'.srv.enterChannel cptr sptr c st'.flags parv0 name })).srv
      cases allowed : st.checkCanJoin sptr c parv0 name with
      | error st₁ => exact checkCanJoin_error live allowed
      | ok st₁ =>
        obtain ⟨tables, uses⟩ := checkCanJoin_ok live allowed
        have checked : Tidy st.srv st₁.srv := .same tables uses
        refine checked.trans (tidy_enterChannel (checked.sound sound) ?_ ?_ ..)
        · exact tables ▸ inList
        · exact tables ▸ new

theorem getChannel_true (s : Server) (sptr : ClientId) (name : CStr) :
    name = [] ∧ s.getChannel sptr name true = (s, none) ∨
      (∃ c, s.hashFindChannel (s.channelNameFor sptr name) = some c ∧
        s.getChannel sptr name true = (s, some c)) ∨
      s.hashFindChannel (s.channelNameFor sptr name) = none ∧
        s.getChannel sptr name true =
          (s.edit (·.createChannel (s.channelNameFor sptr name)), some s.nextChan) := by
  unfold getChannel
  split
  · next empty => exact Or.inl ⟨empty, rfl⟩
  · cases found : s.hashFindChannel (s.channelNameFor sptr name) with
    | some c => exact Or.inr (Or.inl ⟨c, rfl, by simp [found]⟩)
    | none => exact Or.inr (Or.inr ⟨rfl, by simp [found]⟩)

theorem canJoin_fresh (cl : Client) (c : ChanId) (name : CStr) (now : Int) (key : Option CStr)
    (flags : MemberFlags) : (Ircd.canJoin cl (freshChannel name now) c key flags).1 = none := by
  have clear : isBanned cl (freshChannel name now) = .clear := by
    unfold isBanned
    split
    · rfl
    · rfl
  unfold Ircd.canJoin
  simp only [clear]
  simp [freshChannel, Channel.zero, Mode.zero]

theorem createChannel_fresh (t : Tables) (name : CStr) :
    (t.createChannel name).chan t.nextChan = freshChannel name t.currentTime := by
  simp [Tables.createChannel, Tables.addToChannelHashTable, Tables.setChan]

theorem checkCanJoin_fresh {c : ChanId} (live : st.srv.freed c = false) {name' : CStr} {now : Int}
    (fresh : st.srv.chan c = freshChannel name' now) (sptr : ClientId) (parv0 name : CStr) :
    ∃ st', st.checkCanJoin sptr c parv0 name = .ok st' ∧ st'.srv.toTables = st.srv.toTables ∧
      st'.srv.danglingUses = st.srv.danglingUses := by
  cases checked : st.checkCanJoin sptr c parv0 name with
  | ok st' =>
    obtain ⟨tables, uses⟩ := checkCanJoin_ok live checked
    exact ⟨st', rfl, tables, uses⟩
  | error st' =>
    unfold checkCanJoin at checked
    split at checked
    · have allowed : (st.srv.canJoin sptr c st.key st.flags).2.1 = none := by
        have rule := canJoin_fresh (st.srv.client sptr) c name' now st.key st.flags
        simpa [Server.canJoin, fresh] using rule
      simp only [allowed] at checked
      cases checked
    · cases checked

theorem tidy_joinCreated (sound : st.srv.Sound) (user : (st.srv.client sptr).user = true)
    {chname : CStr} (absent : st.srv.hashFindChannel chname = none) (cptr : ClientId)
    (parv0 name : CStr) :
    Tidy st.srv (ended (({ st with
      srv := st.srv.edit (·.createChannel chname)
      chptr := some st.srv.nextChan } : JoinLoop).joinBlock cptr sptr parv0 name)).srv := by
  set st₁ : JoinLoop := { st with
    srv := st.srv.edit (·.createChannel chname)
    chptr := some st.srv.nextChan } with opened
  set c := st.srv.nextChan with hc
  have created : Clean st.srv st₁.srv := Clean.createChannel absent
  have sound₁ := created.sound sound
  have listed : c ∈ st₁.srv.channel := List.mem_cons_self
  have fresh : st₁.srv.chan c = freshChannel chname st.srv.currentTime :=
    createChannel_fresh st.srv.toTables chname
  have live := sound₁.live c listed
  have new : sptr ∉ (st₁.srv.chan c).memberIds := by
    rw [fresh]
    simp [freshChannel, Channel.zero, Channel.memberIds]
  have outside : st₁.srv.isMember sptr c = false :=
    Bool.eq_false_of_not_eq_true fun member => new (sound₁.isMember_iff.1 member)
  -- no mode, key, limit or ban stands in the way of a channel that is new
  obtain ⟨st₂, allowed, tables, uses⟩ := checkCanJoin_fresh live fresh sptr parv0 name
  have checked : Tidy st₁.srv st₂.srv := .same tables uses
  have sound₂ := checked.sound sound₁
  have listed₂ : c ∈ st₂.srv.channel := tables ▸ listed
  have new₂ : sptr ∉ (st₂.srv.chan c).memberIds := tables ▸ new
  have user₂ : (st₂.srv.client sptr).user = true := tables ▸ user
  have entered := tidy_enterChannel sound₂ listed₂ new₂ cptr st₂.flags parv0 name
  have result : ended (st₁.joinBlock cptr sptr parv0 name) =
      { st₂ with srv := st₂.srv.enterChannel cptr sptr c st₂.flags parv0 name } := by
    have member : st₁.checkMember sptr parv0 name = .ok (st₁, c) := by
      have block : st₁.chptr = some c := rfl
      simp [checkMember, block, outside]
    simp only [joinBlock, member]
    show ended (do
      let st' ← st₁.checkCanJoin sptr c parv0 name
      .ok { st' with srv := st'.srv.enterChannel cptr sptr c st'.flags parv0 name }) = _
    rw [allowed]
    rfl
  rw [result]
  -- only the new channel can be empty between the steps, and it gets its member at the end
  refine ⟨created.trans (checked.toClean.trans entered.toClean), fun d settled => ?_⟩
  by_cases here : d = c
  · rw [here]
    exact settled_enterChannel sound₂ listed₂ new₂ user₂ cptr st₂.flags parv0 name
  · have before : st₁.srv.Settled d := sound.settled_create absent here settled
    exact entered.settled d (checked.settled d before)

theorem tidy_joinChannel (sound : st.srv.Sound) (user : (st.srv.client sptr).user = true)
    (listed : ∀ c, st.chptr = some c → c ∈ st.srv.channel) (cptr : ClientId) (parv0 name : CStr) :
    Tidy st.srv (ended (st.joinChannel cptr sptr parv0 name)).srv := by
  unfold joinChannel ensureChannel
  cases block : st.chptr with
  | some c => exact tidy_joinBlock sound listed ..
  | none =>
    simp only
    obtain ⟨-, none⟩ | ⟨c, found, some⟩ | ⟨absent, created⟩ := getChannel_true st.srv sptr name
    · rw [none]
      apply @tidy_joinBlock { st with srv := st.srv, chptr := Option.none } sound
      intro c absurdity
      cases absurdity
    · rw [some]
      apply @tidy_joinBlock { st with srv := st.srv, chptr := Option.some c } sound
      intro d same
      cases same
      exact sound.listed_of_found found
    · rw [created]
      exact tidy_joinCreated sound user absent ..

theorem tidy_body (ready : st.Ready sptr) (cptr : ClientId) (parv0 name : CStr) :
    Tidy st.srv (ended (st.body cptr sptr parv0 name)).srv := by
  unfold body
  cases looked : st.lookup sptr parv0 name with
  | error st₁ => exact lookup_error ready.sound looked
  | ok st₁ =>
    obtain ⟨tables, uses, chptr⟩ := lookup_ok ready looked
    have first : Tidy st.srv st₁.srv := .same tables uses
    refine first.trans (tidy_joinChannel (first.sound ready.sound) ?_ ?_ ..)
    · exact tables ▸ ready.user
    · exact tables ▸ chptr

/-- What a loop that has left every channel holds in `chptr`: its last channel, which is
free or still on the list. -/
def Left (t : Tables) (c : ChanId) (st : JoinLoop) : Prop :=
  st.chptr = some c ∧ if t.Frees c then st.srv.freed c = true else c ∈ st.srv.channel

theorem leaveAll_spec (sptr : ClientId) (parv0 : CStr) (cs : List ChanId) (sound : st.srv.Sound)
    (mine : (st.srv.client sptr).channel = cs) :
    Tidy st.srv (leaveAll sptr parv0 cs st).srv ∧
      ((leaveAll sptr parv0 cs st).srv.client sptr).channel = [] ∧
      match cs.getLast? with
      | none => leaveAll sptr parv0 cs st = st
      | some c => Left st.srv.toTables c (leaveAll sptr parv0 cs st) := by
  induction cs generalizing st with
  | nil => exact ⟨.refl _, mine, rfl⟩
  | cons c rest ih =>
    have member : sptr ∈ (st.srv.chan c).memberIds :=
      sound.mem_memberIds_iff.2 (by simp [mine])
    have live := sound.live c (sound.listed_of_member member)
    have nodup : (c :: rest).Nodup := mine ▸ sound.mirror.groups_nodup sptr
    have shown : Tidy st.srv (st.srv.sendtoChannelButserv c sptr
        (':' :: parv0 ++ lit " PART " ++ (st.srv.chan c).chname ++ lit " :")) :=
      .sendtoChannelButserv live _ _
    have same : (st.srv.sendtoChannelButserv c sptr
        (':' :: parv0 ++ lit " PART " ++ (st.srv.chan c).chname ++ lit " :")).toTables =
        st.srv.toTables := by simp
    rw [leaveAll]
    generalize st.srv.sendtoChannelButserv c sptr _ = srv at shown same ⊢
    have sound₁ := shown.sound sound
    have member₁ : sptr ∈ (srv.chan c).memberIds := same ▸ member
    have removed := Tidy.removeUserFromChannel sound₁ member₁
    have left : ((srv.removeUserFromChannel sptr c).client sptr).channel = rest := by
      rw [removeUserFromChannel_toTables, sound₁.groups_leave member₁, if_pos rfl, same, mine]
      simp
    -- the rest of the list is what the client is still on
    obtain ⟨others, none, last⟩ := @ih { st with
      srv := srv.removeUserFromChannel sptr c
      chptr := some c } (removed.sound sound₁) left
    refine ⟨shown.trans (removed.trans others), none, ?_⟩
    cases rest with
    | nil =>
      refine ⟨rfl, ?_⟩
      show if st.srv.Frees c then (srv.removeUserFromChannel sptr c).freed c = true
        else c ∈ (srv.removeUserFromChannel sptr c).channel
      rw [← same, removeUserFromChannel_toTables]
      split
      · next frees => exact Tables.freed_removeUserFromChannel frees
      · next more => exact sound₁.listed_leave member₁ more
    | cons d rest =>
      rw [List.getLast?_cons_cons]
      cases final : (d :: rest).getLast? with
      | none => simp at final
      | some e =>
        rw [final] at last
        have inside : e ∈ d :: rest := List.mem_of_getLast? final
        -- `chptr` is the last channel of the list; what was left before it does not touch it
        have other : e ≠ c := by
          rintro rfl
          exact (List.nodup_cons.1 nodup).1 inside
        have kept : (srv.removeUserFromChannel sptr c).Frees e ↔ st.srv.Frees e := by
          rw [removeUserFromChannel_toTables, sound₁.frees_leave member₁ other, same]
        refine ⟨last.1, ?_⟩
        have result := last.2
        simp only [kept] at result
        exact result

theorem joinZero_spec (sound : st.srv.Sound) (cptr sptr : ClientId) (parv0 : CStr) :
    Tidy st.srv (st.joinZero cptr sptr parv0).srv ∧
      ((st.joinZero cptr sptr parv0).srv.client sptr).channel = [] ∧
      match (st.srv.client sptr).channel.getLast? with
      | none => st.joinZero cptr sptr parv0 = st
      | some c => Left st.srv.toTables c (st.joinZero cptr sptr parv0) := by
  unfold joinZero
  split
  · next none =>
    rw [none]
    exact ⟨.refl _, rfl, rfl⟩
  · obtain ⟨left, none, last⟩ := leaveAll_spec sptr parv0 _ sound rfl
    simp only
    generalize leaveAll sptr parv0 (st.srv.client sptr).channel st = st₁ at left none last ⊢
    have sound₁ := left.sound sound
    generalize accounted : (if (st₁.srv.client sptr).myConnect = true ∧
      (!(st₁.srv.client sptr).isAnOper) = true then st₁.srv.leaveAccounting sptr else st₁.srv) = srv
    -- the accounting of drones touches counters only
    have counted : Tidy st₁.srv srv ∧ Tables.Alike st₁.srv.toTables srv.toTables := by
      subst accounted
      split
      · exact ⟨tidy_leaveAccounting sound₁ sptr, leaveAccounting_alike st₁.srv sptr⟩
      · exact ⟨.refl _, .refl _⟩
    refine ⟨left.trans (counted.1.trans (.emit _)), ?_, ?_⟩
    · exact (counted.2.groups sptr).trans none
    -- the block left last is the one that `chptr` still points at
    · cases final : (st.srv.client sptr).channel.getLast? with
      | none => simp_all
      | some c =>
        rw [final] at last
        refine ⟨last.1, ?_⟩
        have result := last.2
        split
        · next frees =>
          rw [if_pos frees] at result
          exact (congrFun counted.2.freed c).trans result
        · next more =>
          rw [if_neg more] at result
          exact counted.2.channel ▸ result

theorem element_of_returned (h : st.returned = true) (cptr sptr : ClientId) (parv0 name : CStr) :
    st.element cptr sptr parv0 name = st := by
  simp [element, h]

theorem element_zero (h : st.returned = false) {name : CStr} (zero : isJoinZero name = true)
    (cptr sptr : ClientId) (parv0 : CStr) :
    (st.element cptr sptr parv0 name).srv = (st.joinZero cptr sptr parv0).srv ∧
      (st.element cptr sptr parv0 name).chptr = (st.joinZero cptr sptr parv0).chptr := by
  simp [element, h, zero]

theorem element_body (h : st.returned = false) {name : CStr} (nonzero : isJoinZero name = false)
    (cptr sptr : ClientId) (parv0 : CStr) :
    (st.element cptr sptr parv0 name).srv = (ended (st.body cptr sptr parv0 name)).srv ∧
      (st.element cptr sptr parv0 name).chptr = (ended (st.body cptr sptr parv0 name)).chptr := by
  simp [element, h, nonzero]

/-- After its stages a block is still the one in `chptr`, and on the list if it was. -/
theorem joinBlock_chptr (st : JoinLoop) (cptr sptr : ClientId) (parv0 name : CStr) :
    (ended (st.joinBlock cptr sptr parv0 name)).chptr = st.chptr ∧
      (ended (st.joinBlock cptr sptr parv0 name)).srv.channel = st.srv.channel := by
  unfold joinBlock checkMember
  cases block : st.chptr with
  | none => exact ⟨block, rfl⟩
  | some c =>
    by_cases member : st.srv.isMember sptr c = true
    · simp only [member, if_true]
      exact ⟨block, rfl⟩
    · simp only [member]
      show (ended (do
        let st' ← st.checkCanJoin sptr c parv0 name
        .ok { st' with srv := st'.srv.enterChannel cptr sptr c st'.flags parv0 name })).chptr = _ ∧
          (ended (do
        let st' ← st.checkCanJoin sptr c parv0 name
        .ok { st' with srv := st'.srv.enterChannel cptr sptr c st'.flags parv0 name })).srv.channel = _
      have tables := st.srv.canJoin_toTables sptr c st.key st.flags
      cases allowed : st.checkCanJoin sptr c parv0 name with
      | error st₁ =>
        unfold checkCanJoin at allowed
        split at allowed
        · simp only at allowed
          split at allowed
          · cases allowed
            exact ⟨block, congrArg Tables.channel tables⟩
          · cases allowed
        · cases allowed
      | ok st₁ =>
        show st₁.chptr = _ ∧ (st₁.srv.enterChannel cptr sptr c st₁.flags parv0 name).channel = _
        rw [enterChannel_channel]
        unfold checkCanJoin at allowed
        split at allowed
        · simp only at allowed
          split at allowed
          · cases allowed
          · cases allowed
            exact ⟨block, congrArg Tables.channel tables⟩
        · cases allowed
          exact ⟨block, rfl⟩

theorem body_remote (ready : st.Ready sptr) (remote : (st.srv.client sptr).myConnect = false)
    (cptr : ClientId) (parv0 name : CStr) :
    ∀ c, (ended (st.body cptr sptr parv0 name)).chptr = some c →
      c ∈ (ended (st.body cptr sptr parv0 name)).srv.channel := by
  obtain ⟨tables, -, chptr⟩ := st.remoteLookup_spec sptr name
  have looked : st.body cptr sptr parv0 name =
      (st.remoteLookup sptr name).joinChannel cptr sptr parv0 name := by
    simp [body, lookup, remote, Except.bind]
  rw [looked, joinChannel]
  intro c
  obtain ⟨chptr', channel'⟩ := joinBlock_chptr ((st.remoteLookup sptr name).ensureChannel sptr name).1
    cptr sptr parv0 ((st.remoteLookup sptr name).ensureChannel sptr name).2
  show (ended (((st.remoteLookup sptr name).ensureChannel sptr name).1.joinBlock cptr sptr parv0
    ((st.remoteLookup sptr name).ensureChannel sptr name).2)).chptr = some c → c ∈ (ended
      (((st.remoteLookup sptr name).ensureChannel sptr name).1.joinBlock cptr sptr parv0
        ((st.remoteLookup sptr name).ensureChannel sptr name).2)).srv.channel
  rw [chptr', channel']
  unfold ensureChannel
  -- a block kept from before, or what `get_channel` says now
  cases block : (st.remoteLookup sptr name).chptr with
  | some d =>
    intro same
    rw [tables]
    exact ready.chptr remote c (chptr ▸ same)
  | none =>
    simp only
    obtain ⟨-, none⟩ | ⟨d, found, some⟩ | ⟨-, created⟩ :=
      getChannel_true (st.remoteLookup sptr name).srv sptr name
    · rw [none]
      intro absurdity
      cases absurdity
    · rw [some]
      intro same
      cases same
      exact (tables ▸ ready.sound : (st.remoteLookup sptr name).srv.Sound).listed_of_found found
    · rw [created]
      intro same
      cases same
      exact List.mem_cons_self

theorem ready_of_tidy (ready : st.Ready sptr) (tidy : Tidy st.srv st'.srv)
    (chptr : (st.srv.client sptr).myConnect = false → ∀ c, st'.chptr = some c →
      c ∈ st'.srv.channel) : st'.Ready sptr where
  sound := tidy.sound ready.sound
  user := tidy.directory.user sptr ▸ ready.user
  chptr remote := chptr (tidy.directory.myConnect sptr ▸ remote)

theorem tidy_element_body (ready : st.Ready sptr) {name : CStr} (nonzero : isJoinZero name = false)
    (cptr : ClientId) (parv0 : CStr) :
    Tidy st.srv (st.element cptr sptr parv0 name).srv ∧
      (st.element cptr sptr parv0 name).Ready sptr := by
  cases ended : st.returned with
  | true =>
    rw [element_of_returned ended]
    exact ⟨.refl _, ready⟩
  | false =>
    obtain ⟨srv, chptr⟩ := element_body ended nonzero cptr sptr parv0
    have tidy := tidy_body ready cptr parv0 name
    rw [← srv] at tidy
    refine ⟨tidy, ready_of_tidy ready tidy fun remote c => ?_⟩
    rw [srv, chptr]
    exact body_remote ready remote cptr parv0 name c

theorem tidy_elements (ready : st.Ready sptr) (cptr : ClientId) (parv0 : CStr) (names : List CStr)
    (nonzero : ∀ name ∈ names, isJoinZero name = false) :
    Tidy st.srv (st.elements cptr sptr parv0 names).srv ∧
      (st.elements cptr sptr parv0 names).Ready sptr := by
  induction names generalizing st with
  | nil => exact ⟨.refl _, ready⟩
  | cons name names ih =>
    obtain ⟨first, ready₁⟩ := tidy_element_body ready (nonzero name List.mem_cons_self) cptr parv0
    obtain ⟨rest, ready₂⟩ := ih ready₁ fun n inside => nonzero n (List.mem_cons_of_mem _ inside)
    exact ⟨first.trans rest, ready₂⟩

/-- `JOIN 0` from another server has freed the last channel that it left. -/
def ZeroFrees (t : Tables) (sptr : ClientId) : Prop :=
  (t.client sptr).myConnect = false ∧ ∃ c, (t.client sptr).channel.getLast? = some c ∧ t.Frees c

theorem tidy_element_zero (ready : st.Ready sptr) {name : CStr} (zero : isJoinZero name = true)
    (cptr : ClientId) (parv0 : CStr) :
    Tidy st.srv (st.element cptr sptr parv0 name).srv ∧
      (¬ ZeroFrees st.srv.toTables sptr → (st.element cptr sptr parv0 name).Ready sptr) := by
  cases ended : st.returned with
  | true =>
    rw [element_of_returned ended]
    exact ⟨.refl _, fun _ => ready⟩
  | false =>
    obtain ⟨srv, chptr⟩ := element_zero ended zero cptr sptr parv0
    obtain ⟨tidy, -, last⟩ := joinZero_spec ready.sound cptr sptr parv0
    have same := tidy
    rw [← srv] at same
    refine ⟨same, fun stays => ready_of_tidy ready same fun remote c => ?_⟩
    rw [srv, chptr]
    cases final : (st.srv.client sptr).channel.getLast? with
    | none =>
      rw [final] at last
      rw [last]
      exact ready.chptr remote c
    | some d =>
      rw [final] at last
      have more : ¬ st.srv.Frees d := fun frees => stays ⟨remote, d, final, frees⟩
      obtain ⟨block, result⟩ := last
      rw [if_neg more] at result
      intro same
      cases block.symm.trans same
      exact result

theorem tidy_names (ready : st.Ready sptr) (cptr : ClientId) (parv0 : CStr) (names : List CStr)
    (nonzero : ∀ name ∈ names.tail, isJoinZero name = false)
    (stays : ∀ zero next rest, names = zero :: next :: rest → isJoinZero zero = true →
      ¬ ZeroFrees st.srv.toTables sptr) :
    Tidy st.srv (st.elements cptr sptr parv0 names).srv := by
  cases names with
  | nil => exact .refl _
  | cons name rest =>
    cases zero : isJoinZero name with
    | false =>
      obtain ⟨first, ready₁⟩ := tidy_element_body ready zero cptr parv0
      exact first.trans (tidy_elements ready₁ cptr parv0 rest nonzero).1
    | true =>
      obtain ⟨first, ready₁⟩ := tidy_element_zero ready zero cptr parv0
      cases rest with
      | nil => exact first
      | cons next rest =>
        have ready₂ := ready₁ (stays name next rest rfl zero)
        exact first.trans (tidy_elements ready₂ cptr parv0 (next :: rest) nonzero).1

end JoinLoop

namespace Server

variable {s : Server}

theorem checkStillSplit_alike (s : Server) :
    Tables.Alike s.toTables s.checkStillSplit.toTables ∧
      s.checkStillSplit.danglingUses = s.danglingUses ∧ s.checkStillSplit.chan = s.chan ∧
      s.checkStillSplit.client = s.client := by
  unfold checkStillSplit
  split
  · split
    · exact ⟨⟨⟨rfl, rfl, rfl, rfl, rfl, rfl, fun _ => rfl⟩, rfl, fun _ => rfl, rfl, rfl⟩, rfl, rfl, rfl⟩
    · exact ⟨⟨⟨rfl, rfl, rfl, rfl, rfl, rfl, fun _ => rfl⟩, rfl, fun _ => rfl, rfl, rfl⟩, rfl, rfl, rfl⟩
  · exact ⟨.refl _, rfl, rfl, rfl⟩

end Server

def joinNames (s : Server) (sptr : ClientId) (parv : List CStr) : List CStr :=
  tokens isComma (joinList s sptr (parv.getD 0 []) (parv.getD 1 [])).jbuf

def joinStart (s : Server) (sptr : ClientId) (parv : List CStr) : JoinLoop where
  srv := (joinList s sptr (parv.getD 0 []) (parv.getD 1 [])).srv
  chptr := none
  flags := MemberFlags.none
  keys := if parv.length > 2 then tokens isComma (parv.getD 2 []) else []
  successfulJoinCount := 0
  returned := false

def joinServer (s : Server) : Server := if s.serverWasSplit then s.checkStillSplit else s

theorem mJoin_eq (s : Server) (cptr sptr : ClientId) (parv : List CStr) :
    mJoin s cptr sptr parv =
      if !(s.client sptr).user then s
      else if parv.length < 2 ∨ parv.getD 1 [] = [] then
        s.sendtoOne sptr .errNeedMoreParams [parv.getD 0 [], lit "JOIN"]
      else
        let st := (joinStart (joinServer s) sptr parv).elements cptr sptr (parv.getD 0 [])
          (joinNames (joinServer s) sptr parv)
        if st.returned then st.srv
        else if (st.srv.client sptr).myConnect then (st.noteJoinTime sptr).srv
        else st.srv := rfl

theorem joinNames_congr {s s' : Server} (client : s'.client = s.client) (sptr : ClientId)
    (parv : List CStr) : joinNames s' sptr parv = joinNames s sptr parv := by
  have step : ∀ (st st' : JoinList) (parv0 name : CStr), st'.jbuf = st.jbuf → st'.i = st.i →
      st'.srv.client = st.srv.client →
        (st'.element sptr parv0 name).jbuf = (st.element sptr parv0 name).jbuf ∧
          (st'.element sptr parv0 name).i = (st.element sptr parv0 name).i := by
    intro st st' parv0 name jbuf i client
    unfold JoinList.element
    rw [client]
    simp only
    split
    · exact ⟨jbuf, i⟩
    split
    · exact ⟨jbuf, i⟩
    split
    · simp [JoinList.append, i]
    split
    · split <;> exact ⟨jbuf, i⟩
    · simp [JoinList.append, jbuf, i]
  have run : ∀ (toks : List CStr) (st st' : JoinList) (parv0 : CStr), st'.jbuf = st.jbuf →
      st'.i = st.i → st'.srv.client = st.srv.client →
        (toks.foldl (fun st name => st.element sptr parv0 name) st').jbuf =
          (toks.foldl (fun st name => st.element sptr parv0 name) st).jbuf := by
    intro toks
    induction toks with
    | nil => exact fun _ _ _ jbuf _ _ => jbuf
    | cons name toks ih =>
      intro st st' parv0 jbuf i client
      obtain ⟨jbuf', i'⟩ := step st st' parv0 name jbuf i client
      apply ih _ _ _ jbuf' i'
      rw [(st'.element_sends sptr parv0 name).1, (st.element_sends sptr parv0 name).1]
      exact client
  unfold joinNames joinList
  rw [run _ { srv := s, jbuf := [], i := 0 } { srv := s', jbuf := [], i := 0 } _ rfl rfl client]

/-- A JOIN from another server uses a freed block: a `0` is followed by a name, and the
last channel that the `0` leaves is gone. -/
def JoinUsesFreed (s : Server) (sptr : ClientId) (parv : List CStr) : Prop :=
  (∃ zero next rest, joinNames s sptr parv = zero :: next :: rest ∧ isJoinZero zero = true) ∧
    JoinLoop.ZeroFrees s.toTables sptr

section

variable {s : Server}

open Server

theorem joinServer_spec (s : Server) :
    Tables.Alike s.toTables (joinServer s).toTables ∧
      (joinServer s).danglingUses = s.danglingUses ∧ (joinServer s).chan = s.chan ∧
      (joinServer s).client = s.client := by
  unfold joinServer
  split
  · exact s.checkStillSplit_alike
  · exact ⟨.refl _, rfl, rfl, rfl⟩

theorem tidy_joinServer (sound : s.Sound) : Tidy s (joinServer s) := by
  obtain ⟨alike, uses, chan, -⟩ := joinServer_spec s
  refine .settings sound alike (fun c juped => Or.inl ?_) uses
  exact chan ▸ juped

theorem ready_joinStart (sound : s.Sound) {sptr : ClientId} (user : (s.client sptr).user = true)
    (parv : List CStr) : Tidy s (joinStart s sptr parv).srv ∧
      (joinStart s sptr parv).Ready sptr := by
  obtain ⟨tables, uses⟩ := joinList_sends s sptr (parv.getD 0 []) (parv.getD 1 [])
  have tidy : Tidy s (joinStart s sptr parv).srv := .same tables uses
  refine ⟨tidy, tidy.sound sound, tables ▸ user, fun _ c absurdity => ?_⟩
  cases absurdity

theorem tidy_mJoin (sound : s.Sound) (cptr sptr : ClientId) (parv : List CStr)
    (safe : ¬ JoinUsesFreed s sptr parv) : Tidy s (mJoin s cptr sptr parv) := by
  rw [mJoin_eq]
  split
  · exact .refl s
  next registered =>
  split
  · exact .sendtoOne ..
  have user : (s.client sptr).user = true := by simpa using registered
  obtain ⟨alike, -, chan, client⟩ := joinServer_spec s
  have split₁ := tidy_joinServer sound
  obtain ⟨first, ready⟩ := ready_joinStart (split₁.sound sound) (client ▸ user) parv
  have tables : (joinStart (joinServer s) sptr parv).srv.toTables = (joinServer s).toTables :=
    (joinList_sends ..).1
  have names : joinNames (joinServer s) sptr parv = joinNames s sptr parv :=
    joinNames_congr client sptr parv
  have list := JoinLoop.tidy_names ready cptr (parv.getD 0 []) (joinNames (joinServer s) sptr parv)
    (joinList_tail _ _ _ _) (by
      rintro zero next rest same isZero ⟨remote, c, last, frees⟩
      rw [tables] at remote last frees
      refine safe ⟨⟨zero, next, rest, names ▸ same, isZero⟩, ?_, c, ?_, ?_⟩
      · rwa [client] at remote
      · rwa [client] at last
      · unfold Tables.Frees at frees ⊢
        rwa [chan] at frees)
  simp only
  generalize (joinStart (joinServer s) sptr parv).elements cptr sptr _ _ = st at list ⊢
  have all := split₁.trans (first.trans list)
  split
  · exact all
  split
  · exact all.trans (JoinLoop.tidy_noteJoinTime (all.sound sound) sptr)
  · exact all

end

end Ircd
