import Ircd.Channel.Clean

/-! What the letters of a MODE do to the roster: nothing, but for `j`.

Every other letter is `Quiet`. A `-j` on an empty channel frees its block, and from then
on each access to the block counts as a use of a freed one.
-/

set_option autoImplicit false

namespace Ircd

theorem editLink_cptr (u : ClientId) (f : MemberFlags → MemberFlags) (links : List Member) :
    (editLink u f links).map Member.cptr = links.map Member.cptr := by
  induction links with
  | nil => rfl
  | cons link links ih =>
    simp only [editLink]
    split
    · rfl
    · simp only [List.map_cons, ih]

namespace ModeLoop

structure Quiet (st st' : ModeLoop) : Prop where
  memberIds : st'.ch.memberIds = st.ch.memberIds
  users : st'.ch.users = st.ch.users
  chname : st'.ch.chname = st.ch.chname
  juped : st'.ch.juped = st.ch.juped
  destroyed : st'.destroyed = st.destroyed
  uses : st.destroyed = 0 → st'.dangling = st.dangling
  grows : st.dangling ≤ st'.dangling
  invites : st'.uninvited ++ st'.ch.invites = st.uninvited ++ st.ch.invites
  uninvited : st.ch.invites = [] → st'.ch.invites = []

namespace Quiet

variable {env : ModeEnv} {st st' st'' : ModeLoop}

theorem trans (h : Quiet st st') (h' : Quiet st' st'') : Quiet st st'' where
  memberIds := h'.memberIds.trans h.memberIds
  users := h'.users.trans h.users
  chname := h'.chname.trans h.chname
  juped := h'.juped.trans h.juped
  destroyed := h'.destroyed.trans h.destroyed
  uses none := (h'.uses (h.destroyed.trans none)).trans (h.uses none)
  grows := Nat.le_trans h.grows h'.grows
  invites := h'.invites.trans h.invites
  uninvited none := h'.uninvited (h.uninvited none)

theorem fields (memberIds : st'.ch.memberIds = st.ch.memberIds) (users : st'.ch.users = st.ch.users)
    (chname : st'.ch.chname = st.ch.chname) (juped : st'.ch.juped = st.ch.juped)
    (destroyed : st'.destroyed = st.destroyed) (dangling : st'.dangling = st.dangling)
    (invites : st'.ch.invites = st.ch.invites) (uninvited : st'.uninvited = st.uninvited) :
    Quiet st st' :=
  ⟨memberIds, users, chname, juped, destroyed, fun _ => dangling, dangling.ge,
    by rw [invites, uninvited], fun none => invites.trans none⟩

theorem same (ch : st'.ch = st.ch) (destroyed : st'.destroyed = st.destroyed)
    (dangling : st'.dangling = st.dangling) (uninvited : st'.uninvited = st.uninvited) :
    Quiet st st' :=
  fields (by rw [ch]) (by rw [ch]) (by rw [ch]) (by rw [ch]) destroyed dangling (by rw [ch])
    uninvited

theorem refl (st : ModeLoop) : Quiet st st := same rfl rfl rfl rfl

theorem touch (st : ModeLoop) : Quiet st st.touch := by
  unfold ModeLoop.touch
  split
  · next gone => exact ⟨rfl, rfl, rfl, rfl, rfl, fun none => absurd none gone, Nat.le_succ _, rfl, id⟩
  · exact .refl st

theorem touch_ch (st : ModeLoop) : st.touch.ch = st.ch := by
  unfold ModeLoop.touch
  split <;> rfl

theorem written {ch : Channel} (memberIds : ch.memberIds = st.ch.memberIds)
    (users : ch.users = st.ch.users) (chname : ch.chname = st.ch.chname)
    (juped : ch.juped = st.ch.juped) (invites : ch.invites = st.ch.invites) :
    Quiet st.touch { st.touch with ch := ch } := by
  rw [← touch_ch st] at memberIds users chname juped invites
  exact fields memberIds users chname juped rfl rfl invites rfl

theorem noOps (env : ModeEnv) (st : ModeLoop) : Quiet st (st.noOps env) := by
  unfold ModeLoop.noOps
  split
  · exact (touch st).trans (same rfl rfl rfl rfl)
  · exact .refl st

theorem sendLine (env : ModeEnv) (st : ModeLoop) (text : CStr) : Quiet st (st.sendLine env text) := by
  unfold ModeLoop.sendLine
  simp only
  split
  · exact (touch st).trans (same rfl rfl rfl rfl)
  · exact (touch st).trans (same rfl rfl rfl rfl)

theorem changeMember (env : ModeEnv) (st : ModeLoop) (letter : Char) (who : ClientId) (arg : CStr) :
    Quiet st (st.changeMember env letter who arg) := by
  unfold ModeLoop.changeMember
  split
  · exact (touch st).trans (same rfl rfl rfl rfl)
  · simp only
    generalize marked : (if env.isdeop = true ∧ letter = 'o' ∧ st.whatt = .add then
      { st.touch with ch := st.ch.editFlags who MemberFlags.markDeopped } else st) = st₁
    have first : Quiet st st₁ := by
      subst marked
      split
      · exact (touch st).trans (written (editLink_cptr ..) rfl rfl rfl rfl)
      · exact .refl st
    apply first.trans
    split
    · exact .noOps env st₁
    · split
      · exact .refl st₁
      · exact (touch st₁).trans (fields (editLink_cptr ..) rfl rfl rfl rfl rfl rfl rfl)

theorem memberLetter (env : ModeEnv) (st : ModeLoop) (letter : Char) :
    Quiet st (st.memberLetter env letter) := by
  unfold ModeLoop.memberLetter
  split
  · simp only
    split
    · exact same rfl rfl rfl rfl
    · exact (touch st).trans (same rfl rfl rfl rfl)
  split
  · exact .refl st
  split
  · exact .refl st
  next para rest params =>
    simp only
    have eaten : Quiet st st.eat := same rfl rfl rfl rfl
    split
    · exact eaten
    split
    · exact eaten.trans (same rfl rfl rfl rfl)
    split
    · exact eaten
    split
    · split
      · exact eaten.trans ((touch _).trans (same rfl rfl rfl rfl))
      · exact eaten
    split
    · exact eaten
    · exact eaten.trans (.changeMember ..)

theorem changeKey (env : ModeEnv) (st : ModeLoop) (arg : CStr) : Quiet st (st.changeKey env arg) := by
  unfold ModeLoop.changeKey
  simp only
  split
  · split
    · exact .touch st
    · generalize removed : (if st.ch.mode.key ≠ [] then st.touch.removeOldKey env else st.touch) = st₁
      have first : Quiet st st₁ := by
        subst removed
        split
        · exact (touch st).trans (.sendLine ..)
        · exact .touch st
      exact first.trans (fields rfl rfl rfl rfl rfl rfl rfl rfl)
  · split
    · exact .touch st
    · exact (touch st).trans (fields rfl rfl rfl rfl rfl rfl rfl rfl)

theorem keyLetter (env : ModeEnv) (st : ModeLoop) : Quiet st (st.keyLetter env) := by
  unfold ModeLoop.keyLetter
  split
  · exact .refl st
  cases taken : st.keyArgument env with
  | none => exact .refl st
  | some p =>
    obtain ⟨arg, st₁⟩ := p
    have eaten : Quiet st st₁ := by
      unfold ModeLoop.keyArgument at taken
      split at taken
      · split at taken
        · cases taken
          exact .refl st
        · cases taken
      · simp only at taken
        split at taken
        · cases taken
          exact same rfl rfl rfl rfl
        · cases taken
          exact same rfl rfl rfl rfl
    simp only
    have noted : Quiet st { st₁ with keychange := true } := eaten.trans (same rfl rfl rfl rfl)
    split
    · exact eaten
    split
    · exact noted
    split
    · exact noted.trans (.noOps ..)
    split
    · exact noted
    · exact noted.trans (.changeKey ..)

theorem setRplSent (st : ModeLoop) (kind : ListKind) : Quiet st (st.setRplSent kind) := by
  cases kind <;> exact same rfl rfl rfl rfl

theorem showList (env : ModeEnv) (st : ModeLoop) (kind : ListKind) :
    Quiet st (st.showList env kind) := by
  unfold ModeLoop.showList
  split
  · exact .refl st
  · simp only
    have shown : Quiet st (st.setRplSent kind).touch := (setRplSent st kind).trans (.touch _)
    generalize (st.setRplSent kind).touch = st₁ at shown ⊢
    split
    · have replies : ∀ (bans : List Ban) (st₂ : ModeLoop), Quiet st₂ (bans.foldl (fun st ban =>
          st.reply env env.cptr (ModeLoop.listReply kind).1
            [st.ch.chname, ban.banstr, ban.who, formatTime ban.time]) st₂) := by
        intro bans
        induction bans with
        | nil => exact fun st₂ => .refl st₂
        | cons ban bans ih =>
          intro st₂
          have one : Quiet st₂ (st₂.reply env env.cptr (ModeLoop.listReply kind).1
            [st₂.ch.chname, ban.banstr, ban.who, formatTime ban.time]) := same rfl rfl rfl rfl
          exact one.trans (ih _)
      exact shown.trans ((replies (st₁.ch.maskList kind) st₁).trans (same rfl rfl rfl rfl))
    · exact shown.trans (same rfl rfl rfl rfl)

theorem setMaskList_fields (ch : Channel) (kind : ListKind) (list : List Ban) :
    (ch.setMaskList kind list).memberIds = ch.memberIds ∧
      (ch.setMaskList kind list).users = ch.users ∧
      (ch.setMaskList kind list).chname = ch.chname ∧
      (ch.setMaskList kind list).juped = ch.juped ∧
      (ch.setMaskList kind list).invites = ch.invites := by
  cases kind <;> exact ⟨rfl, rfl, rfl, rfl, rfl⟩

theorem delId_fields (ch : Channel) (banid : CStr) (kind : ListKind) :
    (delId ch banid kind).memberIds = ch.memberIds ∧ (delId ch banid kind).users = ch.users ∧
      (delId ch banid kind).chname = ch.chname ∧ (delId ch banid kind).juped = ch.juped ∧
      (delId ch banid kind).invites = ch.invites := by
  unfold delId
  simp only
  split
  · exact setMaskList_fields ch kind _
  · exact ⟨rfl, rfl, rfl, rfl, rfl⟩

theorem addId_fields {cl : Client} {maxBans now : Int} {ch ch' : Channel} {banid : CStr}
    {kind : ListKind} (h : addId cl maxBans now ch banid kind = .added ch') :
    ch'.memberIds = ch.memberIds ∧ ch'.users = ch.users ∧ ch'.chname = ch.chname ∧
      ch'.juped = ch.juped ∧ ch'.invites = ch.invites := by
  unfold addId at h
  split at h
  · cases h
  · simp only at h
    split at h
    · split at h
      · cases h
      · cases h
        exact setMaskList_fields ch kind _
    · split at h
      · cases h
      · cases h
        exact setMaskList_fields ch kind _

theorem writeMask (st : ModeLoop) (kind : ListKind) (entry : ModeEntry) :
    Quiet st (st.writeMask kind entry) := by
  cases kind <;> exact same rfl rfl rfl rfl

theorem changeMask (env : ModeEnv) (st : ModeLoop) (kind : ListKind) (arg : CStr) :
    Quiet st (st.changeMask env kind arg) := by
  unfold ModeLoop.changeMask
  simp only
  split
  · exact .refl st
  have touched := touch st
  split
  · cases added : addId env.source env.tables.maxBans env.tables.currentTime st.ch arg kind with
    | full => exact touched.trans (same rfl rfl rfl rfl)
    | duplicate => exact touched
    | added ch =>
      obtain ⟨memberIds, users, chname, juped, invites⟩ := addId_fields added
      have changed : Quiet st { st.touch with ch := ch } :=
        touched.trans (written memberIds users chname juped invites)
      exact changed.trans ((writeMask _ _ _).trans (same rfl rfl rfl rfl))
  · obtain ⟨memberIds, users, chname, juped, invites⟩ := delId_fields st.ch arg kind
    have changed : Quiet st { st.touch with ch := delId st.ch arg kind } :=
      touched.trans (written memberIds users chname juped invites)
    exact changed.trans ((writeMask _ _ _).trans (same rfl rfl rfl rfl))

theorem maskLetter (env : ModeEnv) (st : ModeLoop) (kind : ListKind) :
    Quiet st (st.maskLetter env kind) := by
  unfold ModeLoop.maskLetter
  split
  · exact .showList ..
  split
  · exact .showList ..
  next para rest params =>
    simp only
    have eaten : Quiet st st.eat := same rfl rfl rfl rfl
    split
    · exact eaten
    split
    · exact eaten.trans (.noOps ..)
    split
    · exact same rfl rfl rfl rfl
    generalize (if env.myClient = true then collapse (prettyMask (checkString para))
      else checkString para) = arg
    split
    · exact same rfl rfl rfl rfl
    · exact eaten.trans (.changeMask ..)

theorem limitLetter (env : ModeEnv) (st : ModeLoop) : Quiet st (st.limitLetter env) := by
  unfold ModeLoop.limitLetter
  split
  · exact .refl st
  split
  · split <;> exact same rfl rfl rfl rfl
  split
  · split <;> exact same rfl rfl rfl rfl
  simp only
  have noted : Quiet st { st with limitset := true } := same rfl rfl rfl rfl
  split
  · split
    · split
      · exact same rfl rfl rfl rfl
      · exact noted
    · have eaten : Quiet st ({ st with limitset := true } : ModeLoop).eat := same rfl rfl rfl rfl
      split
      · exact eaten
      split
      · exact eaten
      · exact eaten.trans ((touch _).trans (fields rfl rfl rfl rfl rfl rfl rfl rfl))
  · exact noted.trans ((touch _).trans (fields rfl rfl rfl rfl rfl rfl rfl rfl))

theorem changeFlag (env : ModeEnv) (st : ModeLoop) (f : ModeFlag) (letter : Char) :
    Quiet st (st.changeFlag env f letter) := by
  unfold ModeLoop.changeFlag
  split
  · exact .refl st
  simp only
  generalize noting : (if env.myClient = true then
    { st with done := Function.update st.done f true } else st) = st₁
  have noted : Quiet st st₁ := by
    subst noting
    split <;> exact same rfl rfl rfl rfl
  apply noted.trans
  split
  · exact .refl st₁
  split
  · exact (touch st₁).trans (fields rfl rfl rfl rfl rfl rfl rfl rfl)
  · generalize dropping : (if f = .modeInviteOnly then st₁.touch.dropInvites else st₁.touch) = st₂
    have dropped : Quiet st₁ st₂ := by
      subst dropping
      split
      · exact (touch st₁).trans ⟨rfl, rfl, rfl, rfl, rfl, fun _ => rfl, Nat.le_refl _,
          List.append_nil _, fun _ => rfl⟩
      · exact .touch st₁
    exact dropped.trans (fields rfl rfl rfl rfl rfl rfl rfl rfl)

theorem flagLetter (env : ModeEnv) (st : ModeLoop) (f : ModeFlag) (letter : Char) :
    Quiet st (st.flagLetter env f letter) := by
  unfold ModeLoop.flagLetter
  split
  · exact .noOps ..
  · exact .changeFlag ..

theorem inviteLetter (env : ModeEnv) (st : ModeLoop) : Quiet st (st.inviteLetter env) := by
  unfold ModeLoop.inviteLetter
  split
  · exact .refl st
  · exact .flagLetter ..

theorem unknownLetter (env : ModeEnv) (st : ModeLoop) (c : Char) :
    Quiet st (st.unknownLetter env c) := by
  unfold ModeLoop.unknownLetter
  split
  · exact .refl st
  · split
    · exact same rfl rfl rfl rfl
    · exact .refl st

theorem letter (env : ModeEnv) (st : ModeLoop) {c : Char} (other : c ≠ 'j') :
    Quiet st (st.letter env c) := by
  unfold ModeLoop.letter
  split
  · exact same rfl rfl rfl rfl
  · exact same rfl rfl rfl rfl
  · exact same rfl rfl rfl rfl
  · exact .memberLetter ..
  · exact .memberLetter ..
  · exact .keyLetter ..
  · exact .maskLetter ..
  · exact .maskLetter ..
  · exact .maskLetter ..
  · exact .limitLetter ..
  · exact .inviteLetter ..
  · exact absurd rfl other
  · exact .flagLetter ..
  · exact .flagLetter ..
  · exact .flagLetter ..
  · exact .flagLetter ..
  · exact .flagLetter ..
  · exact .unknownLetter ..

theorem sendCapLine (env : ModeEnv) (st : ModeLoop) (cap : Capability) (line : ModeLine) :
    Quiet st (st.sendCapLine env cap line) := by
  unfold ModeLoop.sendCapLine
  split
  · simp only
    split
    · exact (touch st).trans (same rfl rfl rfl rfl)
    · exact (touch st).trans (same rfl rfl rfl rfl)
  · exact .refl st

theorem sendLines (env : ModeEnv) (st : ModeLoop) : Quiet st (st.sendLines env) := by
  unfold ModeLoop.sendLines
  simp only
  generalize sent : (if st.modeLine.modebuf ≠ [] then _ else st) = st₁
  have first : Quiet st st₁ := by
    subst sent
    split
    · exact .sendLine ..
    · exact .refl st
  exact first.trans ((sendCapLine ..).trans (.sendCapLine ..))

end Quiet

/-- What the loop keeps of the channel `ch` that it started on. Each `-j` past the first
that frees the block is itself a use of the freed block. -/
structure Kept (ch : Channel) (st : ModeLoop) : Prop where
  memberIds : st.ch.memberIds = ch.memberIds
  users : st.ch.users = ch.users
  chname : st.ch.chname = ch.chname
  emptied : st.destroyed ≠ 0 → ch.users = 0
  jupes : ch.juped = true → st.destroyed = 0 → st.ch.juped = true ∨ ch.users ≠ 0
  once : st.destroyed ≤ st.dangling + 1
  calm : st.destroyed = 0 → st.dangling = 0

namespace Kept

variable {env : ModeEnv} {ch : Channel} {st st' : ModeLoop}

theorem start (ch : Channel) (parv : List CStr) : Kept ch (modeStart ch parv) where
  memberIds := rfl
  users := rfl
  chname := rfl
  emptied absurdity := absurd rfl absurdity
  jupes juped _ := Or.inl juped
  once := Nat.zero_le _
  calm _ := rfl

theorem quiet (h : Kept ch st) (step : Quiet st st') : Kept ch st' where
  memberIds := step.memberIds.trans h.memberIds
  users := step.users.trans h.users
  chname := step.chname.trans h.chname
  emptied gone := h.emptied (step.destroyed ▸ gone)
  jupes juped none := by
    rw [step.juped]
    exact h.jupes juped (step.destroyed ▸ none)
  once := by
    have := h.once
    have := step.grows
    rw [step.destroyed]
    omega
  calm none := by
    have none' : st.destroyed = 0 := step.destroyed ▸ none
    rw [step.uses none', h.calm none']

theorem jupeLetter (h : Kept ch st) (env : ModeEnv) : Kept ch (st.jupeLetter env) := by
  unfold ModeLoop.jupeLetter
  simp only
  split
  · have touched := h.quiet (Quiet.touch st)
    split
    · exact ⟨touched.memberIds, touched.users, touched.chname, touched.emptied,
        fun _ _ => Or.inl rfl, touched.once, touched.calm⟩
    · split
      -- an empty juped channel dies under the loop
      · next empty =>
        have zero : ch.users = 0 := touched.users ▸ empty
        unfold ModeLoop.sub1
        simp only
        split
        · refine ⟨touched.memberIds, zero.symm, touched.chname, fun _ => zero, ?_, ?_, ?_⟩
          · intro _ absurdity
            cases absurdity
          · -- an access before the block goes, counted once it is gone
            show st.touch.destroyed + 1 ≤ st.touch.dangling + 1
            unfold ModeLoop.touch
            split
            · have := h.once
              show st.destroyed + 1 ≤ st.dangling + 1 + 1
              omega
            · next first =>
              have none : st.destroyed = 0 := by simpa using first
              omega
          · intro absurdity
            cases absurdity
        -- no member is left, so one fewer is none too
        · next more =>
          have users : st.touch.ch.users = 0 := touched.users.trans zero
          refine absurd ?_ more
          show st.touch.ch.users - 1 ≤ 0
          omega
      · next members =>
        refine ⟨touched.memberIds, touched.users, touched.chname, touched.emptied,
          fun _ _ => Or.inr ?_, touched.once, touched.calm⟩
        exact touched.users ▸ members
    · exact h
  · exact h

theorem letter (h : Kept ch st) (env : ModeEnv) (c : Char) : Kept ch (st.letter env c) := by
  by_cases jupe : c = 'j'
  · subst jupe
    exact h.jupeLetter env
  · exact h.quiet (Quiet.letter env st jupe)

theorem letters (h : Kept ch st) (env : ModeEnv) (curr : CStr) : Kept ch (st.letters env curr) := by
  unfold ModeLoop.letters
  induction curr generalizing st with
  | nil => exact h
  | cons c curr ih => exact ih (h.letter env c)

theorem strings (h : Kept ch st) (env : ModeEnv) (n : Nat) : Kept ch (ModeLoop.strings env n st) := by
  induction n generalizing st with
  | zero => exact h
  | succ n ih =>
    unfold ModeLoop.strings
    split
    · exact h
    · have eaten : Kept ch st.eat := h.quiet (Quiet.same rfl rfl rfl rfl)
      exact ih (eaten.letters env _)

theorem modeRun (env : ModeEnv) (parv : List CStr) :
    Kept (env.tables.chan env.chan) (modeRun env parv) :=
  ((start _ parv).strings env parv.length).quiet (Quiet.sendLines env _)

end Kept

end ModeLoop

namespace Tables

def commitBlock (t : Tables) (c : ChanId) (st : ModeLoop) : Tables :=
  st.uninvited.foldl (fun t u => t.uninvite c u) (t.setChan c st.ch)

theorem commitMode_eq (t : Tables) (c : ChanId) (st : ModeLoop) :
    t.commitMode c st = (List.replicate st.destroyed c).foldl unlinkChannel (t.commitBlock c st) :=
  rfl

theorem uninvites_alike (t : Tables) (c : ChanId) (us : List ClientId) :
    Alike t (us.foldl (fun t u => t.uninvite c u) t) ∧
      (us.foldl (fun t u => t.uninvite c u) t).chan = t.chan := by
  induction us generalizing t with
  | nil => exact ⟨.refl t, rfl⟩
  | cons u us ih =>
    obtain ⟨alike, chan⟩ := ih (t.uninvite c u)
    have first : Alike t (t.uninvite c u) := .setClient rfl rfl rfl
    exact ⟨first.trans alike, chan⟩

theorem commitBlock_alike {t : Tables} {c : ChanId} {st : ModeLoop}
    (kept : ModeLoop.Kept (t.chan c) st) :
    Alike t (t.commitBlock c st) ∧ (t.commitBlock c st).chan = Function.update t.chan c st.ch := by
  have block : Alike t (t.setChan c st.ch) := .setChan ⟨kept.memberIds, kept.users, kept.chname⟩
  obtain ⟨alike, chan⟩ := uninvites_alike (t.setChan c st.ch) c st.uninvited
  exact ⟨block.trans alike, chan⟩

end Tables

namespace Server

variable {s : Server}

theorem edit_setChannelMode (sound : s.Sound) {c : ChanId} (listed : c ∈ s.channel)
    (cptr sptr : ClientId) (parv : List CStr)
    (once : (modeRun (modeEnv s.toTables cptr sptr c) parv).destroyed ≤ 1) :
    Tables.Edit s.toTables (s.setChannelMode cptr sptr c parv).toTables ∧
      (s.setChannelMode cptr sptr c parv).nextChan = s.nextChan := by
  have kept : ModeLoop.Kept (s.chan c) (modeRun (modeEnv s.toTables cptr sptr c) parv) :=
    ModeLoop.Kept.modeRun (modeEnv s.toTables cptr sptr c) parv
  unfold setChannelMode
  simp only [s.touch_of_live (sound.live c listed)]
  generalize modeRun (modeEnv s.toTables cptr sptr c) parv = st at kept once
  obtain ⟨alike, chan⟩ := Tables.commitBlock_alike kept
  have counted := sound.users_eq c
  have others : ∀ c', c' ≠ c → Tables.KeepsJupes s.toTables (s.commitBlock c st) c' := by
    intro c' other juped
    rw [chan]
    simpa [other] using Or.inl juped
  -- the block is written back, and unlinked if `-j` gave it up
  by_cases none : st.destroyed = 0
  · have commit : s.commitMode c st = s.commitBlock c st := by
      rw [Tables.commitMode_eq, none]
      rfl
    rw [commit]
    refine ⟨.settings alike fun c' => ?_, alike.nextChan⟩
    by_cases here : c' = c
    · subst here
      intro juped
      rw [chan]
      cases kept.jupes juped none with
      | inl still => exact Or.inl (by simpa using still)
      | inr members =>
        refine Or.inr fun empty => members ?_
        rw [counted, empty]
        rfl
    · exact others c' here
  · have one : st.destroyed = 1 := by omega
    have commit : s.commitMode c st = (s.commitBlock c st).unlinkChannel c := by
      rw [Tables.commitMode_eq, one]
      rfl
    have empty : (s.chan c).memberIds = [] := by
      have zero := kept.emptied none
      exact List.eq_nil_of_length_eq_zero (by omega)
    rw [commit]
    exact ⟨.unlink alike others listed empty, alike.nextChan⟩

theorem setChannelMode_uses (sound : s.Sound) {c : ChanId} (listed : c ∈ s.channel)
    (cptr sptr : ClientId) (parv : List CStr) :
    (s.setChannelMode cptr sptr c parv).danglingUses = s.danglingUses ↔
      (modeRun (modeEnv s.toTables cptr sptr c) parv).dangling = 0 := by
  unfold setChannelMode
  simp [s.touch_of_live (sound.live c listed)]

end Server

/-- The channel and the parameters that reach `set_channel_mode`. -/
def modeTarget (t : Tables) (parv : List CStr) : Option (ChanId × List CStr) :=
  let name := parv.getD 1 []
  if parv.length < 3 ∨ !isChannelName name ∨ !checkChannelName name then none
  else (t.hashFindChannel name).map fun c => (c, parv.drop 2)

theorem mMode_target {s : Server} {cptr sptr : ClientId} {parv : List CStr} {c : ChanId}
    {modes : List CStr} (h : modeTarget s.toTables parv = some (c, modes)) :
    mMode s cptr sptr parv = s.setChannelMode cptr sptr c modes := by
  unfold modeTarget at h
  simp only at h
  split at h
  · cases h
  next checks =>
  simp only [not_or, Nat.not_lt, Bool.not_eq_true', Bool.not_eq_false] at checks
  cases found : s.hashFindChannel (parv.getD 1 []) with
  | none =>
    rw [found] at h
    cases h
  | some d =>
    rw [found] at h
    cases h
    unfold mMode
    simp only
    rw [if_neg (by omega), if_neg (by simpa using checks.2.1), if_neg (by simpa using checks.2.2)]
    simp only [found]
    rw [if_neg (by omega)]

theorem mMode_reply {s : Server} {parv : List CStr} (h : modeTarget s.toTables parv = none)
    (cptr sptr : ClientId) : (mMode s cptr sptr parv).toTables = s.toTables ∧
      (mMode s cptr sptr parv).danglingUses = s.danglingUses := by
  unfold mMode
  simp only
  split
  · exact ⟨rfl, rfl⟩
  split
  · exact ⟨rfl, rfl⟩
  split
  · exact ⟨rfl, rfl⟩
  next named checked =>
  cases found : s.hashFindChannel (parv.getD 1 []) with
  | none => exact ⟨rfl, rfl⟩
  | some c =>
    simp only
    split
    · exact ⟨rfl, rfl⟩
    · next many =>
      unfold modeTarget at h
      simp only at h
      rw [if_neg (by simp_all), found] at h
      cases h

end Ircd
