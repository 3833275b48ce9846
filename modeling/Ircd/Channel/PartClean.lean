import Ircd.Channel.Clean
import Ircd.Channel.Part

/-! `m_part`, `m_kick` and the exit of a client use no freed block and leave no channel
unsettled; what a rehash does to the juped channels.
-/

set_option autoImplicit false

namespace Ircd

open Server

theorem getChannel_false (s : Server) (cptr : ClientId) (name : CStr) :
    s.getChannel cptr name false =
      (s, if name = [] then none else s.hashFindChannel (s.channelNameFor cptr name)) := by
  unfold getChannel
  split
  · rfl
  · simp only [Bool.false_eq_true, if_false]
    split <;> simp [*]

variable {s : Server}

theorem tidy_partChannel (sound : s.Sound) (cptr sptr : ClientId) (parv0 message name : CStr) :
    Tidy s (partChannel s cptr sptr parv0 message name) := by
  unfold partChannel
  rw [getChannel_false]
  by_cases named : name = []
  · simpa [named] using Tidy.sendtoOne ..
  simp only [named, if_false]
  cases found : s.hashFindChannel (s.channelNameFor sptr name) with
  | none => exact .sendtoOne ..
  | some c =>
    simp only
    split
    · exact .sendtoOne ..
    · next member =>
      have live := sound.live c (sound.listed_of_found found)
      have inside : sptr ∈ (s.chan c).memberIds := sound.isMember_iff.1 (by simpa using member)
      have relayed := Tidy.sendtoMatchServs live cptr
        (':' :: parv0 ++ lit " PART " ++ s.channelNameFor sptr name ++ lit " :" ++ message)
      refine relayed.trans (.trans (.sendtoChannelButserv ?_ _ _) (.removeUserFromChannel ?_ ?_))
      · simpa using live
      · simpa using sound
      · simpa using inside

theorem tidy_leaveAccounting (sound : s.Sound) (sptr : ClientId) :
    Tidy s (s.leaveAccounting sptr) := by
  unfold leaveAccounting
  simp only
  split
  · have warned := @Tidy.emit s (.opsBots (lit "User " ++ (s.client sptr).name ++ lit " (" ++
      (s.client sptr).username ++ '@' :: (s.client sptr).host ++ lit ") is a possible spambot"))
    exact warned.trans (.editClient (warned.sound sound) _ _ (fun _ => rfl) (fun _ => rfl)
      (fun _ => rfl))
  · exact .editClient sound _ _ (fun _ => rfl) (fun _ => rfl) (fun _ => rfl)

theorem leaveAccounting_alike (s : Server) (sptr : ClientId) :
    Tables.Alike s.toTables (s.leaveAccounting sptr).toTables := by
  unfold leaveAccounting
  simp only
  split <;> exact .setClient rfl rfl rfl

theorem tidy_partChannels (sound : s.Sound) (cptr sptr : ClientId) (parv0 message : CStr)
    (names : List CStr) :
    Tidy s (names.foldl (fun s name => partChannel s cptr sptr parv0 message name) s) := by
  induction names generalizing s with
  | nil => exact .refl s
  | cons name names ih =>
    have first := tidy_partChannel sound cptr sptr parv0 message name
    exact first.trans (ih (first.sound sound))

theorem tidy_mPart (sound : s.Sound) (cptr sptr : ClientId) (parv : List CStr) :
    Tidy s (mPart s cptr sptr parv) := by
  unfold mPart
  simp only
  split
  · exact .sendtoOne ..
  · generalize accounted : (if tokens isComma (parv.getD 1 []) ≠ [] ∧
      (s.client sptr).myConnect = true ∧ (!(s.client sptr).isAnOper) = true then
        s.leaveAccounting sptr else s) = s'
    have counted : Tidy s s' := by
      subst accounted
      split
      · exact tidy_leaveAccounting sound sptr
      · exact .refl s
    exact counted.trans (tidy_partChannels (counted.sound sound) ..)

theorem tidy_kickMember (sound : s.Sound) {c : ChanId} (listed : c ∈ s.channel)
    (cptr sptr who : ClientId) (parv0 name user comment : CStr) :
    Tidy s (kickMember s cptr sptr c who parv0 name user comment) := by
  unfold kickMember
  split
  · next member =>
    have live := sound.live c listed
    refine (Tidy.sendtoChannelButserv live _ _).trans
      (.trans (.sendtoMatchServs ?_ _ _) (.removeUserFromChannel ?_ ?_))
    · simpa using live
    · simpa using sound
    · simpa using sound.isMember_iff.1 member
  · exact .sendtoOne ..

theorem tidy_mKick (sound : s.Sound) (cptr sptr : ClientId) (parv : List CStr) :
    Tidy s (mKick s cptr sptr parv) := by
  unfold mKick
  simp only
  split
  · exact .sendtoOne ..
  -- the notice about a server that kicks
  generalize noticed : (if (s.client sptr).isServer = true then _ else s) = s'
  have notice : Tidy s s' := by
    subst noticed
    split
    · exact .emit _
    · exact .refl s
  apply notice.trans
  replace sound := notice.sound sound
  rw [getChannel_false]
  generalize upToComma (parv.getD 1 []) = name
  by_cases named : name = []
  · simpa [named] using Tidy.sendtoOne ..
  simp only [named, if_false]
  cases found : s'.hashFindChannel (s'.channelNameFor sptr name) with
  | none => exact .sendtoOne ..
  | some c =>
    have listed := sound.listed_of_found found
    simp only [s'.touch_of_live (sound.live c listed)]
    split
    · exact .sendtoOne ..
    · have chased : Tidy s' (s'.findChasing sptr (upToComma (parv.getD 2 []))).1 :=
        .same (by simp) (by simp)
      cases chase : s'.findChasing sptr (upToComma (parv.getD 2 [])) with
      | mk s'' who =>
        rw [chase] at chased
        have tables : s''.toTables = s'.toTables := by
          have same := s'.findChasing_toTables sptr (upToComma (parv.getD 2 []))
          rwa [chase] at same
        cases who with
        | none => exact chased
        | some who =>
          exact chased.trans (tidy_kickMember (chased.sound sound) (tables ▸ listed) ..)

theorem tidy_exitChannels (sptr : ClientId) (cs : List ChanId) (sound : s.Sound)
    (mine : (s.client sptr).channel = cs) :
    Tidy s (exitChannels sptr cs s) ∧ ((exitChannels sptr cs s).client sptr).channel = [] := by
  induction cs generalizing s with
  | nil => exact ⟨.refl s, mine⟩
  | cons c rest ih =>
    have member : sptr ∈ (s.chan c).memberIds := sound.mem_memberIds_iff.2 (by simp [mine])
    have first := Tidy.removeUserFromChannel sound member
    have left : ((s.removeUserFromChannel sptr c).client sptr).channel = rest := by
      rw [removeUserFromChannel_toTables, sound.groups_leave member, if_pos rfl, mine]
      simp
    obtain ⟨others, none⟩ := ih (first.sound sound) left
    exact ⟨first.trans others, none⟩

theorem exitInvites_alike (sptr : ClientId) (cs : List ChanId) (s : Server) :
    Tables.Alike s.toTables (exitInvites sptr cs s).toTables ∧
      ∀ c, ((exitInvites sptr cs s).chan c).juped = (s.chan c).juped := by
  induction cs generalizing s with
  | nil => exact ⟨.refl _, fun _ => rfl⟩
  | cons c rest ih =>
    obtain ⟨alike, juped⟩ := ih (s.delInvite sptr c)
    rw [delInvite_toTables] at alike
    refine ⟨(Tables.Alike.delInvite s.toTables sptr c).trans alike, fun c' => ?_⟩
    refine (juped c').trans ?_
    rw [delInvite_toTables]
    exact Tables.delInvite_juped s.toTables sptr c c'

structure Tables.Keeps (t t' : Tables) : Prop where
  sound : t.Sound → t'.Sound
  settled : t.Sound → (∀ c, t.Settled c) → ∀ c, t'.Settled c

theorem Tables.Keeps.directory {t t' : Tables} (roster : t'.roster = t.roster)
    (chan : t'.chan = t.chan) (nextChan : t'.nextChan = t.nextChan) (freed : t'.freed = t.freed)
    (outside : t.Sound → ∀ u, (t'.client u).user = false → (t'.client u).channel = [])
    (proper : t.Sound → ∀ u, (t'.client u).identity.Proper) : t.Keeps t' := by
  have channel : t'.channel = t.channel := congrArg Roster.list roster
  refine ⟨fun sound => ⟨?_, ?_, ?_, ?_, ?_, outside sound, proper sound⟩,
    fun _ settled c listed => ?_⟩
  · rw [roster]
    exact sound.mirror
  · intro c listed
    rw [hashFindChannel_congr (congrArg Roster.bucket roster) (fun c => by rw [chan]), chan]
    exact sound.named c (channel ▸ listed)
  · rw [channel, nextChan]
    exact sound.allocated
  · rw [channel, freed]
    exact sound.live
  · rw [nextChan, freed]
    exact sound.unborn
  · rw [chan]
    exact settled c (channel ▸ listed)

theorem Tables.keeps_removeClientFromList {t : Tables} {u : ClientId}
    (alone : t.Sound → (t.client u).channel = []) : t.Keeps (t.removeClientFromList u) := by
  unfold removeClientFromList
  simp only
  generalize history : (if (t.client u).isPerson = true then (t.addHistory u none).offHistory u
    else t) = t'
  have same : t'.roster = t.roster ∧ t'.chan = t.chan ∧ t'.nextChan = t.nextChan ∧
      t'.freed = t.freed ∧ t'.client = t.client := by
    subst history
    split <;> exact ⟨rfl, rfl, rfl, rfl, rfl⟩
  obtain ⟨roster, chan, nextChan, freed, client⟩ := same
  refine .directory ?_ chan nextChan freed (fun sound v nobody => ?_) (fun sound v => ?_)
  · rw [← roster]
    unfold Tables.roster
    simp only [Roster.mk.injEq, and_true, true_and]
    refine ⟨?_, ?_⟩ <;> funext v <;> by_cases here : v = u <;> simp [here]
  · by_cases here : v = u
    · subst here
      simpa [client] using alone sound
    · simp only [Function.update_of_ne here, client] at nobody ⊢
      exact sound.outside v nobody
  · by_cases here : v = u
    · subst here
      simp only [Function.update_self, client]
      exact ⟨fun absurdity => (Bool.false_ne_true absurdity).elim, (sound.proper v).oper⟩
    · simpa [here, client] using sound.proper v

theorem keeps_exitOneClient (s : Server) (cptr sptr : ClientId) (killed : Bool) (comment : CStr) :
    s.toTables.Keeps (s.exitOneClient cptr sptr killed comment).toTables := by
  unfold exitOneClient
  simp only
  split
  · exact ⟨id, fun _ => id⟩
  split
  -- the lines leave the tables; then the channels, the invitations, the client
  · generalize sending : (if killed then s else _) = s₁
    have sent : s₁.toTables = s.toTables := by
      subst sending
      split <;> rfl
    generalize quitting : s₁.emit _ = s₂
    have quit : s₂.toTables = s.toTables := by
      subst quitting
      exact sent
    rw [← quit]
    have left : s₂.Sound → Tidy s₂ (exitChannels sptr (s₂.client sptr).channel s₂) ∧
        ((exitChannels sptr (s₂.client sptr).channel s₂).client sptr).channel = [] :=
      fun sound => tidy_exitChannels sptr _ sound rfl
    generalize exitChannels sptr (s₂.client sptr).channel s₂ = s₃ at left ⊢
    obtain ⟨alike, juped⟩ := exitInvites_alike sptr (s₃.client sptr).invited s₃
    generalize exitInvites sptr (s₃.client sptr).invited s₃ = s₄ at alike juped ⊢
    constructor
    · intro sound
      have sound₃ := (left sound).1.sound sound
      refine (Tables.keeps_removeClientFromList fun _ => ?_).sound (sound₃.alike alike)
      exact (alike.groups sptr).trans (left sound).2
    · intro sound settled
      have sound₃ := (left sound).1.sound sound
      have sound₄ := sound₃.alike alike
      -- an invitation is on no member list
      have settled₄ : ∀ c, s₄.Settled c := by
        intro c listed
        have before := (left sound).1.settled c (settled c) (alike.channel ▸ listed)
        rwa [← alike.memberIds, ← juped] at before
      refine (Tables.keeps_removeClientFromList fun _ => ?_).settled sound₄ settled₄
      exact (alike.groups sptr).trans (left sound).2
  · next nobody =>
    refine Tables.keeps_removeClientFromList fun sound => ?_
    refine sound.outside sptr (Bool.eq_false_of_not_eq_true fun user => nobody ?_)
    have person := sound.person user
    exact ⟨by simp [Client.isPerson, person.1, user], person.2⟩

namespace Tables

variable {t : Tables}

theorem alike_setJuped (t : Tables) (c : ChanId) (on : Bool) :
    Alike t (t.setChan c { t.chan c with juped := on }) := .setChan ⟨rfl, rfl, rfl⟩

theorem clearJupe_cases (t : Tables) (name : CStr) :
    t.clearJupe name = t ∨ ∃ c, t.hashFindChannel name = some c ∧ name.head? = some '#' ∧
      t.clearJupe name = t.setChan c { t.chan c with juped := false } := by
  unfold clearJupe
  split
  · next sharp =>
    cases found : t.hashFindChannel name with
    | none => exact Or.inl rfl
    | some c => exact Or.inr ⟨c, rfl, sharp, rfl⟩
  · exact Or.inl rfl

theorem clearJupes_spec (t : Tables) (old : List CStr) :
    let t' := old.foldl (fun t name => t.clearJupe name) t
    Alike t t' ∧ (∀ name, t'.hashFindChannel name = t.hashFindChannel name) ∧
      ∀ c, (t.chan c).juped = true → (t'.chan c).juped = true ∨
        ∃ name ∈ old, name.head? = some '#' ∧ t.hashFindChannel name = some c := by
  induction old generalizing t with
  | nil => exact ⟨.refl t, fun _ => rfl, fun c juped => Or.inl juped⟩
  | cons name old ih =>
    obtain ⟨alike, lookups, jupes⟩ := ih (t.clearJupe name)
    simp only [List.foldl_cons]
    have first : Alike t (t.clearJupe name) ∧
        (∀ n, (t.clearJupe name).hashFindChannel n = t.hashFindChannel n) ∧
        ∀ c, (t.chan c).juped = true → ((t.clearJupe name).chan c).juped = true ∨
          name.head? = some '#' ∧ t.hashFindChannel name = some c := by
      obtain same | ⟨c, found, sharp, same⟩ := t.clearJupe_cases name
      · rw [same]
        exact ⟨.refl t, fun _ => rfl, fun c juped => Or.inl juped⟩
      · rw [same]
        have step := alike_setJuped t c false
        refine ⟨step, step.hashFindChannel, fun c' juped => ?_⟩
        by_cases here : c' = c
        · subst here
          exact Or.inr ⟨sharp, found⟩
        · exact Or.inl (by simpa [setChan, here] using juped)
    refine ⟨first.1.trans alike, fun n => (lookups n).trans (first.2.1 n), fun c juped => ?_⟩
    cases first.2.2 c juped with
    | inr named => exact Or.inr ⟨name, List.mem_cons_self, named⟩
    | inl kept =>
      cases jupes c kept with
      | inl kept' => exact Or.inl kept'
      | inr named =>
        obtain ⟨n, inOld, sharp, found⟩ := named
        exact Or.inr ⟨n, List.mem_cons_of_mem _ inOld, sharp, (first.2.1 n) ▸ found⟩

structure Juping (t t' : Tables) (name : CStr) : Prop where
  sound : t'.Sound
  lookups : ∀ n c, t.hashFindChannel n = some c → t'.hashFindChannel n = some c
  juped : ∀ c, name.head? = some '#' → t.hashFindChannel name = some c →
    (t'.chan c).juped = true
  settled : ∀ c, t.Settled c → t'.Settled c

theorem Sound.juped (h : t.Sound) {c : ChanId} {ch : Channel} (roll : SameRoll (t.chan c) ch)
    (juped : ch.juped = true) :
    (t.setChan c ch).Sound ∧ (∀ n, (t.setChan c ch).hashFindChannel n = t.hashFindChannel n) ∧
      (∀ d, t.Settled d → (t.setChan c ch).Settled d) ∧ (t.setChan c ch).Settled c := by
  have alike : Alike t (t.setChan c ch) := .setChan roll
  have itself : (t.setChan c ch).Settled c := fun _ => Or.inr (by simpa [setChan] using juped)
  refine ⟨h.alike alike, alike.hashFindChannel, fun d settled => ?_, itself⟩
  by_cases here : d = c
  · rw [here]
    exact itself
  · intro listed
    have before := settled listed
    simpa [setChan, here] using before

theorem Sound.jupeChannel (h : t.Sound) (name reason : CStr) :
    Juping t (t.jupeChannel name reason) name := by
  unfold Tables.jupeChannel
  split
  · next sharp =>
    -- both writes to the block in one
    have write : ∀ (t : Tables) (c : ChanId),
        (let t := t.setChan c { t.chan c with juped := true }
          if reason ≠ [] then t.setChan c { t.chan c with topic := strncpyIrc reason topicLen }
          else t) = t.setChan c { t.chan c with
            juped := true
            topic := if reason ≠ [] then strncpyIrc reason topicLen else (t.chan c).topic } := by
      intro t c
      by_cases given : reason = [] <;> simp [given, setChan]
    cases found : t.hashFindChannel name with
    | some c =>
      simp only [write]
      obtain ⟨sound, lookups, settled, -⟩ := @Sound.juped t h c { t.chan c with
        juped := true
        topic := if reason ≠ [] then strncpyIrc reason topicLen else (t.chan c).topic }
        ⟨rfl, rfl, rfl⟩ rfl
      refine ⟨sound, fun n d there => (lookups n).trans there, fun d _ there => ?_, settled⟩
      cases found.symm.trans there
      simp [setChan]
    | none =>
      simp only [write]
      obtain ⟨sound, lookups, settled, itself⟩ := @Sound.juped _ (h.create found) t.nextChan
        { (t.createChannel name).chan t.nextChan with
          juped := true
          topic := if reason ≠ [] then strncpyIrc reason topicLen
            else ((t.createChannel name).chan t.nextChan).topic } ⟨rfl, rfl, rfl⟩ rfl
      refine ⟨sound, fun n d there => (lookups n).trans (h.hashFindChannel_create found there),
        fun d _ there => ?_, fun d before => ?_⟩
      · cases found.symm.trans there
      · by_cases new : d = t.nextChan
        · rw [new]
          exact itself
        · apply settled d
          intro listed
          have old : d ∈ t.channel := (List.mem_cons.1 listed).resolve_left new
          have same : (t.createChannel name).chan d = t.chan d := by
            simp [createChannel, addToChannelHashTable, setChan, new]
          rw [same]
          exact before old
  · next sharp =>
    exact ⟨h, fun _ _ => id, fun _ there => absurd there sharp, fun _ => id⟩

def Rejuped (t : Tables) (old : List CStr) (new : List (CStr × CStr)) : Prop :=
  ∀ name ∈ old, name.head? = some '#' → ∀ c, t.hashFindChannel name = some c →
    (t.chan c).memberIds = [] →
      ∃ q ∈ new, q.1.head? = some '#' ∧ t.hashFindChannel q.1 = some c

theorem Sound.jupeChannels (h : t.Sound) (new : List (CStr × CStr))
    (settled : ∀ c, t.Settled c ∨
      ∃ q ∈ new, q.1.head? = some '#' ∧ t.hashFindChannel q.1 = some c) :
    ∀ c, (new.foldl (fun t q => t.jupeChannel q.1 q.2) t).Settled c := by
  induction new generalizing t with
  | nil =>
    intro c
    cases settled c with
    | inl done => exact done
    | inr absurdity => obtain ⟨q, inside, -⟩ := absurdity; cases inside
  | cons q new ih =>
    have step := h.jupeChannel q.1 q.2
    apply ih step.sound
    intro c
    cases settled c with
    | inl done => exact Or.inl (step.settled c done)
    | inr due =>
      obtain ⟨p, inside, sharp, found⟩ := due
      cases List.mem_cons.1 inside with
      | inl first =>
        subst first
        exact Or.inl fun _ => Or.inr (step.juped c sharp found)
      | inr later => exact Or.inr ⟨p, later, sharp, step.lookups p.1 c found⟩

theorem Sound.rehashJupes (h : t.Sound) (old : List CStr) (new : List (CStr × CStr)) :
    (t.rehashJupes old new).Sound := by
  unfold Tables.rehashJupes
  have cleared := h.alike (t.clearJupes_spec old).1
  generalize old.foldl (fun t name => t.clearJupe name) t = t' at cleared ⊢
  induction new generalizing t' with
  | nil => exact cleared
  | cons q new ih => exact ih _ (cleared.jupeChannel q.1 q.2).sound

theorem Sound.settled_rehashJupes (h : t.Sound) {old : List CStr} {new : List (CStr × CStr)}
    (rejuped : t.Rejuped old new) (settled : ∀ c, t.Settled c) :
    ∀ c, (t.rehashJupes old new).Settled c := by
  obtain ⟨alike, lookups, jupes⟩ := t.clearJupes_spec old
  refine (h.alike alike).jupeChannels new fun c => ?_
  by_cases listed : c ∈ t.channel
  · cases settled c listed with
    | inl members =>
      refine Or.inl fun _ => Or.inl ?_
      rwa [alike.memberIds]
    | inr juped =>
      cases jupes c juped with
      | inl kept => exact Or.inl fun _ => Or.inr kept
      | inr named =>
        obtain ⟨name, inOld, sharp, found⟩ := named
        by_cases empty : (t.chan c).memberIds = []
        · obtain ⟨q, inNew, sharp', found'⟩ := rejuped name inOld sharp c found empty
          exact Or.inr ⟨q, inNew, sharp', (lookups q.1).trans found'⟩
        · refine Or.inl fun _ => Or.inl ?_
          rwa [alike.memberIds]
  · exact Or.inl fun listed' => absurd (alike.channel ▸ listed') listed

end Tables

end Ircd
