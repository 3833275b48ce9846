import Ircd.Channel.Frames
import Ircd.Channel.Invite
import Ircd.Channel.Lifetime

/-! The invitations along a run: no command, no exit and no rehash leaves half of one.

None of this needs a sound state. The stages of a command keep the two lists whether
or not they use a freed block.
-/

set_option autoImplicit false

namespace Ircd

def Tables.KeepsInvited (t t' : Tables) : Prop := t.Invited → t'.Invited

instance : Frame Tables.KeepsInvited where
  refl _ := id
  trans h h' inv := h' (h inv)
  settings alike chan client := Tables.SameInvites.invited_of {
    invites := fun c => by rw [chan]
    invited := fun u => by rw [client]
    isPerson := fun u => by rw [client]
    name := fun u => by rw [client]
    channel := congrArg Roster.list alike.roster
    nextChan := alike.nextChan }
  dress t c mode channelts members :=
    (@Tables.SameInvites.setChan t c
      { t.chan c with mode := mode, channelts := channelts, members := members } rfl).invited_of
  editClient _ _ _ invited isPerson name :=
    (Tables.SameInvites.setClient invited isPerson name).invited_of
  delInvite _ u c inv := inv.delInvite u c
  addUserToChannel t c who flags := (Tables.SameInvites.addUserToChannel t c who flags).invited_of
  removeUserFromChannel _ who c inv := inv.removeUserFromChannel who c
  createChannel _ name inv := inv.createChannel name

/-- The invitations of the channel `ch` that a MODE started on: those it has taken back and
those that are left. A freed block has none left. -/
structure ModeLoop.Uninvites (ch : Channel) (st : ModeLoop) : Prop where
  all : st.uninvited ++ st.ch.invites = ch.invites
  closed : st.destroyed ≠ 0 → st.ch.invites = []

namespace ModeLoop.Uninvites

variable {env : ModeEnv} {ch : Channel} {st st' : ModeLoop}

theorem start (ch : Channel) (parv : List CStr) : Uninvites ch (modeStart ch parv) where
  all := rfl
  closed absurdity := absurd rfl absurdity

theorem quiet (h : Uninvites ch st) (step : Quiet st st') : Uninvites ch st' where
  all := step.invites.trans h.all
  closed gone := step.uninvited (h.closed (step.destroyed ▸ gone))

theorem sub1 (h : Uninvites ch st) : Uninvites ch st.sub1 := by
  unfold ModeLoop.sub1
  simp only
  split
  · refine ⟨?_, fun _ => rfl⟩
    show (st.uninvited ++ st.ch.invites) ++ [] = ch.invites
    rw [List.append_nil]
    exact h.all
  · exact ⟨h.all, h.closed⟩

theorem jupeLetter (h : Uninvites ch st) (env : ModeEnv) : Uninvites ch (st.jupeLetter env) := by
  unfold ModeLoop.jupeLetter
  simp only
  split
  · have touched := h.quiet (Quiet.touch st)
    split
    · exact ⟨touched.all, touched.closed⟩
    · split
      · exact sub1 ⟨touched.all, touched.closed⟩
      · exact ⟨touched.all, touched.closed⟩
    · exact h
  · exact h

theorem letter (h : Uninvites ch st) (env : ModeEnv) (c : Char) :
    Uninvites ch (st.letter env c) := by
  by_cases jupe : c = 'j'
  · subst jupe
    exact h.jupeLetter env
  · exact h.quiet (Quiet.letter env st jupe)

theorem letters (h : Uninvites ch st) (env : ModeEnv) (curr : CStr) :
    Uninvites ch (st.letters env curr) := by
  unfold ModeLoop.letters
  induction curr generalizing st with
  | nil => exact h
  | cons c curr ih => exact ih (h.letter env c)

theorem strings (h : Uninvites ch st) (env : ModeEnv) (n : Nat) :
    Uninvites ch (ModeLoop.strings env n st) := by
  induction n generalizing st with
  | zero => exact h
  | succ n ih =>
    unfold ModeLoop.strings
    split
    · exact h
    · have eaten : Uninvites ch st.eat := ⟨h.all, h.closed⟩
      exact ih (eaten.letters env _)

theorem modeRun (env : ModeEnv) (parv : List CStr) :
    Uninvites (env.tables.chan env.chan) (modeRun env parv) :=
  ((start _ parv).strings env parv.length).quiet (Quiet.sendLines env _)

end ModeLoop.Uninvites

namespace Tables

theorem uninvites_client (t : Tables) (c : ChanId) {us : List ClientId} (once : us.Nodup)
    (u : ClientId) :
    ((us.foldl (fun t u => t.uninvite c u) t).client u).invited =
        (if u ∈ us then (t.client u).invited.erase c else (t.client u).invited) ∧
      ((us.foldl (fun t u => t.uninvite c u) t).client u).isPerson = (t.client u).isPerson ∧
      ((us.foldl (fun t u => t.uninvite c u) t).client u).name = (t.client u).name := by
  induction us generalizing t with
  | nil => exact ⟨rfl, rfl, rfl⟩
  | cons v us ih =>
    obtain ⟨outside, once⟩ := List.nodup_cons.1 once
    obtain ⟨invited, isPerson, name⟩ := ih (t.uninvite c v) once
    rw [List.foldl_cons, invited, isPerson, name]
    by_cases here : u = v
    · subst here
      simp [uninvite, setClient, outside, Client.isPerson, Client.isClient]
    · simp [uninvite, setClient, here]

theorem Invited.commitMode {t : Tables} (inv : t.Invited) {c : ChanId} {st : ModeLoop}
    (taken : ModeLoop.Uninvites (t.chan c) st) : (t.commitMode c st).Invited := by
  have once : st.uninvited.Nodup := by
    have nodup := inv.invites_nodup c
    rw [← taken.all] at nodup
    exact (List.nodup_append.1 nodup).1
  have chan := (uninvites_alike (t.setChan c st.ch) c st.uninvited).2
  have alike := (uninvites_alike (t.setChan c st.ch) c st.uninvited).1
  have client := uninvites_client (t.setChan c st.ch) c once
  have block : (t.commitBlock c st).Invited := by
    refine inv.uninvites taken.all (fun d => ?_) (fun u => (client u).1) (fun u => (client u).2)
      (congrArg Roster.list alike.roster) alike.nextChan
    show ((st.uninvited.foldl (fun t u => t.uninvite c u) (t.setChan c st.ch)).chan d).invites = _
    rw [chan]
    by_cases here : d = c
    · subst here
      simp [setChan]
    · simp [setChan, here]
  have nobody : st.destroyed ≠ 0 → ((t.commitBlock c st).chan c).invites = [] := by
    intro gone
    show ((st.uninvited.foldl (fun t u => t.uninvite c u) (t.setChan c st.ch)).chan c).invites = _
    rw [chan]
    simpa [setChan] using taken.closed gone
  rw [commitMode_eq]
  generalize t.commitBlock c st = m at block nobody
  cases frees : st.destroyed with
  | zero => exact block
  | succ n =>
    -- the block is unlinked once for each `-j`; it stays without invitations
    have none := nobody (by omega)
    clear nobody
    have unlinks : ∀ (n : Nat) (m : Tables), m.Invited → (m.chan c).invites = [] →
        ((List.replicate n c).foldl unlinkChannel m).Invited := by
      intro n
      induction n with
      | zero => exact fun m inv _ => inv
      | succ n ih =>
        intro m inv none
        have delisted : (m.unlinkChannel c).Invited :=
          inv.delist none (fun _ => rfl) rfl rfl rfl
        exact ih _ delisted none
    exact unlinks (n + 1) m block none

end Tables

namespace Server

variable {s : Server}

theorem invited_mMode (inv : s.toTables.Invited) (cptr sptr : ClientId) (parv : List CStr) :
    (mMode s cptr sptr parv).toTables.Invited := by
  cases target : modeTarget s.toTables parv with
  | none =>
    rw [(mMode_reply target cptr sptr).1]
    exact inv
  | some p =>
    obtain ⟨c, modes⟩ := p
    rw [mMode_target target]
    unfold setChannelMode
    simp only [touch_toTables]
    exact inv.commitMode (ModeLoop.Uninvites.modeRun (modeEnv s.toTables cptr sptr c) modes)

theorem exitInvites_invited (sptr : ClientId) (cs : List ChanId) (s : Server)
    (all : (s.client sptr).invited = cs) :
    ((exitInvites sptr cs s).client sptr).invited = [] := by
  induction cs generalizing s with
  | nil => exact all
  | cons c cs ih =>
    apply ih
    rw [delInvite_toTables, Tables.delInvite_invited, if_pos rfl, all, List.erase_cons_head]

theorem invited_exitOneClient (inv : s.toTables.Invited) (cptr sptr : ClientId) (killed : Bool)
    (comment : CStr) : (s.exitOneClient cptr sptr killed comment).toTables.Invited := by
  unfold Server.exitOneClient
  dsimp only
  split
  · exact inv
  generalize left : (if (s.client sptr).isPerson = true ∧ (s.client sptr).name ≠ [] then _ else s)
    = s₁
  show (s₁.toTables.removeClientFromList sptr).Invited
  by_cases person : (s.client sptr).isPerson = true ∧ (s.client sptr).name ≠ []
  · rw [if_pos person] at left
    subst left
    generalize told : (Server.emit (if killed = true then s else _) _) = s₂
    have tables : s₂.toTables = s.toTables := by
      subst told
      split <;> rfl
    have out : Over Tables.KeepsInvited s₂ _ := Over.exitChannels sptr (s₂.client sptr).channel s₂
    have gone := out.keeps (tables ▸ inv)
    generalize Server.exitChannels sptr (s₂.client sptr).channel s₂ = s₃ at gone ⊢
    have nowhere := exitInvites_invited sptr (s₃.client sptr).invited s₃ rfl
    have uninvited : Over Tables.KeepsInvited s₃ _ :=
      Over.exitInvites sptr (s₃.client sptr).invited s₃
    exact (uninvited.keeps gone).removeClientFromList nowhere
  · rw [if_neg person] at left
    subst left
    apply inv.removeClientFromList
    apply inv.nowhere
    cases known : (s.client sptr).isPerson with
    | false => exact Or.inl rfl
    | true => exact Or.inr (by simpa [known] using person)

end Server

namespace Tables

variable {t : Tables}

theorem Invited.clearJupe (inv : t.Invited) (name : CStr) : (t.clearJupe name).Invited := by
  unfold Tables.clearJupe
  split
  · split
    · have cleared := fun c => @SameInvites.setChan t c { t.chan c with juped := false } rfl
      exact (cleared _).invited_of inv
    · exact inv
  · exact inv

theorem Invited.jupeChannel (inv : t.Invited) (name reason : CStr) :
    (t.jupeChannel name reason).Invited := by
  have marked : ∀ (m : Tables) (c : ChanId), m.Invited →
      (let m' := m.setChan c { m.chan c with juped := true }
      if reason ≠ [] then m'.setChan c { m'.chan c with topic := strncpyIrc reason topicLen }
      else m').Invited := by
    intro m c inv
    have juped := (@SameInvites.setChan m c { m.chan c with juped := true } rfl).invited_of inv
    generalize m.setChan c { m.chan c with juped := true } = m' at juped ⊢
    dsimp only
    split
    · exact (@SameInvites.setChan m' c
        { m'.chan c with topic := strncpyIrc reason topicLen } rfl).invited_of juped
    · exact juped
  unfold Tables.jupeChannel
  split
  · cases found : t.hashFindChannel name with
    | some c => exact marked t c inv
    | none => exact marked (t.createChannel name) t.nextChan (inv.createChannel name)
  · exact inv

theorem Invited.rehashJupes (inv : t.Invited) (old : List CStr) (new : List (CStr × CStr)) :
    (t.rehashJupes old new).Invited := by
  have clears : ∀ (old : List CStr) (t : Tables), t.Invited →
      (old.foldl (fun t name => t.clearJupe name) t).Invited := by
    intro old
    induction old with
    | nil => exact fun _ inv => inv
    | cons name old ih => exact fun _ inv => ih _ (inv.clearJupe name)
  have jupes : ∀ (new : List (CStr × CStr)) (t : Tables), t.Invited →
      (new.foldl (fun t q => t.jupeChannel q.1 q.2) t).Invited := by
    intro new
    induction new with
    | nil => exact fun _ inv => inv
    | cons q new ih => exact fun _ inv => ih _ (inv.jupeChannel q.1 q.2)
  exact jupes new _ (clears old t inv)

theorem Invited.rename (inv : t.Invited) (u : ClientId) {nick : CStr} (named : nick ≠ []) :
    (t.setClient u { t.client u with name := nick }).Invited := by
  have invited : ∀ v,
      ((t.setClient u { t.client u with name := nick }).client v).invited =
        (t.client v).invited := by
    intro v
    by_cases here : v = u
    · subst here
      simp [setClient]
    · simp [setClient, here]
  refine ⟨fun v d => ?_, inv.invites_nodup, fun v => ?_, fun v => ?_, fun v => ?_, fun v some => ?_,
    inv.allocated⟩
  · rw [invited]
    exact inv.mirror v d
  · rw [invited]
    exact inv.invited_nodup v
  · rw [invited]
    exact inv.limit v
  · rw [invited]
    exact inv.listed v
  · rw [invited] at some
    obtain ⟨person, old⟩ := inv.person v some
    by_cases here : v = u
    · subst here
      have kept : ((t.setClient v { t.client v with name := nick }).client v).isPerson =
          (t.client v).isPerson := by
        simp [setClient, Client.isPerson, Client.isClient]
      exact ⟨kept.trans person, by simpa [setClient] using named⟩
    · simpa [setClient, here] using And.intro person old

end Tables

inductive InviteEvent where
  | base (e : Event)
  | addInvite (u : ClientId) (c : ChanId)
  | delInvite (u : ClientId) (c : ChanId)

/-- A new client has no invitations and `m_invite` looks up a person and a channel. -/
def InviteEvent.Comes (t : Tables) : InviteEvent → Prop
  | .base (.connect u cl) => (t.client u).user = false ∧ cl.invited = []
  | .base (.rename _ nick) => nick ≠ []
  | .addInvite u c => (t.client u).isPerson = true ∧ (t.client u).name ≠ [] ∧ c ∈ t.channel
  | _ => True

instance (t : Tables) : (e : InviteEvent) → Decidable (e.Comes t)
  | .base (.connect u cl) =>
    inferInstanceAs (Decidable ((t.client u).user = false ∧ cl.invited = []))
  | .base (.rename _ nick) => inferInstanceAs (Decidable (nick ≠ []))
  | .base (.tick _) => isTrue trivial
  | .base (.split _) => isTrue trivial
  | .base (.command _ _ _ _) => isTrue trivial
  | .base (.exit _ _ _ _) => isTrue trivial
  | .base (.rehash _ _) => isTrue trivial
  | .addInvite u c =>
    inferInstanceAs (Decidable
      ((t.client u).isPerson = true ∧ (t.client u).name ≠ [] ∧ c ∈ t.channel))
  | .delInvite _ _ => isTrue trivial

namespace Server

def inviteEvent (s : Server) : InviteEvent → Server
  | .base e => s.event e
  | .addInvite u c => s.edit (·.addInvite u c)
  | .delInvite u c => s.edit (·.delInvite u c)

def inviteMachine : Machine Server InviteEvent := { step := inviteEvent }

theorem invited_command {s : Server} (inv : s.toTables.Invited) (cmd : Command) (cptr sptr : ClientId)
    (parv : List CStr) : (cmd.run s cptr sptr parv).toTables.Invited := by
  have keeps {s' : Server} (carried : Over Tables.KeepsInvited s s') : s'.toTables.Invited :=
    carried.keeps inv
  cases cmd with
  | join => exact keeps (Over.mJoin cptr sptr parv)
  | part => exact keeps (Over.mPart cptr sptr parv)
  | kick => exact keeps (Over.mKick cptr sptr parv)
  | sjoin => exact keeps (Over.mSjoin cptr sptr parv)
  | mode => exact invited_mMode inv cptr sptr parv

theorem invited_event {s : Server} (inv : s.toTables.Invited) {e : InviteEvent}
    (comes : e.Comes s.toTables) : (s.inviteEvent e).toTables.Invited := by
  cases e with
  | base e =>
    cases e with
    | connect u cl =>
      obtain ⟨unused, fresh⟩ := comes
      have outside : (s.client u).isPerson = false := by
        simp [Client.isPerson, unused]
      exact inv.replace (inv.nowhere (Or.inl outside)) fresh rfl rfl rfl rfl
    | rename u nick => exact inv.rename u comes
    | tick now =>
      have ticked : Tables.SameInvites s.toTables { s.toTables with currentTime := now } :=
        ⟨fun _ => rfl, fun _ => rfl, fun _ => rfl, fun _ => rfl, rfl, rfl⟩
      exact ticked.invited_of inv
    | split split =>
      have same : Tables.SameInvites s.toTables (s.toTables.setSplit split) :=
        ⟨fun _ => rfl, fun _ => rfl, fun _ => rfl, fun _ => rfl, rfl, rfl⟩
      exact same.invited_of inv
    | command cmd cptr sptr parv => exact invited_command inv cmd cptr sptr parv
    | exit cptr sptr killed comment => exact invited_exitOneClient inv cptr sptr killed comment
    | rehash old new => exact inv.rehashJupes old new
  | addInvite u c => exact inv.addInvite comes.1 comes.2.1 comes.2.2
  | delInvite u c => exact inv.delInvite u c

theorem invited_startUp (name : CStr) (now : Int) : (startUp name now).toTables.Invited := by
  have nowhere : ∀ u, ((startUp name now).client u).invited = [] := by
    intro u
    by_cases here : u = 0 <;> simp [startUp, here, Client.zero]
  have nobody : ∀ c, ((startUp name now).chan c).invites = [] := fun _ => rfl
  refine ⟨fun u c => ?_, fun c => ?_, fun u => ?_, fun u => ?_, fun u c inside => ?_,
    fun u some => ?_, fun c listed => ?_⟩
  · show u ∈ ((startUp name now).chan c).invites ↔ c ∈ ((startUp name now).client u).invited
    rw [nowhere, nobody]
    simp
  · exact List.nodup_nil
  · show ((startUp name now).client u).invited.Nodup
    rw [nowhere]
    exact List.nodup_nil
  · show (((startUp name now).client u).invited.length : Int) ≤ maxChannelsPerUser
    rw [nowhere]
    decide
  · have absurdity : c ∈ ((startUp name now).client u).invited := inside
    rw [nowhere] at absurdity
    cases absurdity
  · exact absurd (nowhere u) some
  · cases listed

/-- Along every run the channels and the clients list each other's invitations, once each,
and no client has more of them than it may be on channels. -/
theorem invited_always {name : CStr} {now : Int} {es : List InviteEvent}
    (comes : inviteMachine.Meets (fun s e => e.Comes s.toTables) (startUp name now) es) :
    let s := inviteMachine.run (startUp name now) es
    (∀ c u, c ∈ (s.client u).invited ↔ u ∈ (s.chan c).invites) ∧
      (∀ c, (s.chan c).invites.Nodup) ∧ (∀ u, (s.client u).invited.Nodup) ∧
      (∀ u, ((s.client u).invited.length : Int) ≤ maxChannelsPerUser) ∧
      ∀ u, ∀ c ∈ (s.client u).invited, c ∈ s.channel := by
  have inv : (inviteMachine.run (startUp name now) es).toTables.Invited :=
    comes.keeps (fun _ _ inv comes => invited_event inv comes) (invited_startUp name now)
  exact ⟨fun c u => (inv.mirror u c).symm, inv.invites_nodup, inv.invited_nodup, inv.limit,
    inv.listed⟩

def invitedRun : List InviteEvent :=
  network.map .base ++
    [.addInvite 3 0, .delInvite 3 0, .addInvite 3 0,
      .base (.command .join 3 3 [lit "olly", lit "#c"])]

theorem invited_always_network :
    let s := inviteMachine.run (startUp (lit "irc.net") 100000) invitedRun
    (∀ c u, c ∈ (s.client u).invited ↔ u ∈ (s.chan c).invites) ∧
      (∀ c, (s.chan c).invites.Nodup) ∧ (∀ u, (s.client u).invited.Nodup) ∧
      (∀ u, ((s.client u).invited.length : Int) ≤ maxChannelsPerUser) ∧
      ∀ u, ∀ c ∈ (s.client u).invited, c ∈ s.channel :=
  invited_always (by decide +kernel)

end Server

end Ircd
