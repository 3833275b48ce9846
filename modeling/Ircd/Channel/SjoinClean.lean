import Ircd.Channel.Clean
import Ircd.Channel.SjoinEffect
import Ircd.Channel.JoinClean

/-! `m_sjoin` as edits: it touches the block of its own channel only, and it leaves that
channel unsettled exactly when it has made it and lets nobody in.
-/

set_option autoImplicit false

namespace Ircd

namespace Server

/-- A stage that touches no block but that of `c`, and frees none. -/
structure Within (c : ChanId) (s s' : Server) : Prop where
  freed : s'.freed = s.freed
  uses : s.freed c = false → s'.danglingUses = s.danglingUses

namespace Within

variable {c : ChanId} {s s' s'' : Server}

theorem refl (c : ChanId) (s : Server) : Within c s s := ⟨rfl, fun _ => rfl⟩

theorem trans (h : Within c s s') (h' : Within c s' s'') : Within c s s'' where
  freed := h'.freed.trans h.freed
  uses live := (h'.uses (h.freed ▸ live)).trans (h.uses live)

theorem emit (o : Output) : Within c s (s.emit o) := ⟨rfl, fun _ => rfl⟩

theorem setChan (d : ChanId) (ch : Channel) : Within c s (s.setChan d ch) := ⟨rfl, fun _ => rfl⟩

theorem sendtoChannelButserv (source : ClientId) (text : CStr) :
    Within c s (s.sendtoChannelButserv c source text) :=
  ⟨by rw [sendtoChannelButserv_toTables], fun live => s.sendtoChannelButserv_danglingUses live ..⟩

theorem sendtoMatchServs (cptr : ClientId) (text : CStr) :
    Within c s (s.sendtoMatchServs (some c) cptr text) :=
  ⟨by rw [sendtoMatchServs_toTables], fun live => s.sendtoMatchServs_danglingUses live ..⟩

theorem addUserToChannel (who : ClientId) (flags : MemberFlags) :
    Within c s (s.addUserToChannel c who flags) := by
  constructor
  · rw [addUserToChannel_toTables, Tables.addUserToChannel]
    split <;> rfl
  · intro live
    unfold Server.addUserToChannel
    rw [s.touch_of_live live]
    split <;> rfl

theorem sjoinFlush (sptr : ClientId) (sender : CStr) (restart b : ModeBuf) :
    Within c s (s.sjoinFlush sptr c sender restart b).1 := by
  unfold Server.sjoinFlush
  split
  · exact .sendtoChannelButserv ..
  · exact .refl c s

theorem sjoinTakeFlag (sptr : ClientId) (sender : CStr) (has : Bool) (letter : Char) (name : CStr)
    (b : ModeBuf) : Within c s (s.sjoinTakeFlag sptr c sender has letter name b).1 := by
  unfold Server.sjoinTakeFlag
  split
  · exact .sjoinFlush ..
  · exact .refl c s

theorem sjoinTakeFlags (sptr : ClientId) (sender : CStr) (links : List Member) (s : Server)
    (b : ModeBuf) : Within c s (sjoinTakeFlags sptr c sender links s b).1 := by
  induction links generalizing s b with
  | nil => exact .refl c s
  | cons link links ih => exact (sjoinTakeFlag ..).trans ((sjoinTakeFlag ..).trans (ih _ _))

theorem sjoinTsZero (sptr : ClientId) (req : SjoinRequest) (isnew : Bool) :
    Within c s (s.sjoinTsZero sptr c req isnew) := by
  unfold Server.sjoinTsZero
  simp only
  split
  · exact (sendtoChannelButserv ..).trans (.emit _)
  · exact .refl c s

theorem sjoinModeChanges (sptr : ClientId) (req : SjoinRequest) (ts : SjoinTs) (oldts : Int) :
    Within c s (s.sjoinModeChanges sptr c req ts oldts) := by
  unfold Server.sjoinModeChanges
  simp only
  generalize stored : s.setChan c _ = s₁
  have first : Within c s s₁ := stored ▸ .setChan ..
  cases ts.keepOurModes with
  | true =>
    simp only [if_true]
    split
    · exact first.trans (.sendtoChannelButserv ..)
    · exact first
  | false =>
    simp only [Bool.false_eq_true, if_false]
    have taken := @sjoinTakeFlags c sptr req.sender (s₁.chan c).members s₁
      { sjoinModeBuf (s.chan c).mode (sjoinMerge ts (s.chan c).mode req.mode) with what := none }
    generalize Server.sjoinTakeFlags sptr c req.sender (s₁.chan c).members s₁ _ = p at taken ⊢
    have told := first.trans (taken.trans ((setChan c (p.1.chan c).wipeFlags).trans
      (@sendtoChannelButserv c (p.1.setChan c (p.1.chan c).wipeFlags) (p.1.setChan c (p.1.chan c).wipeFlags).me
        (':' :: (p.1.setChan c (p.1.chan c).wipeFlags).meName ++ lit " NOTICE " ++
          ((p.1.setChan c (p.1.chan c).wipeFlags).chan c).chname ++
          lit " :*** Notice -- TS for " ++
          ((p.1.setChan c (p.1.chan c).wipeFlags).chan c).chname ++ lit " changed from " ++
          formatTime oldts ++ lit " to " ++ formatTime req.newts))))
    split
    · exact told.trans (.sendtoChannelButserv ..)
    · exact told

theorem giveFlag (st : SjoinLoop) (sptr : ClientId) (sender : CStr) (has : Bool) (letter : Char)
    (name : CStr) : Within c st.srv (st.giveFlag sptr c sender has letter name).srv := by
  unfold SjoinLoop.giveFlag
  split
  · exact .sjoinFlush ..
  · exact .refl c _

theorem admitClient (st : SjoinLoop) (sptr : ClientId) (req : SjoinRequest) (keepNewModes : Bool)
    (s0 : CStr) (acptr : ClientId) :
    Within c st.srv (st.admitClient sptr c req keepNewModes s0 acptr).srv := by
  unfold SjoinLoop.admitClient
  simp only
  generalize entered : (if st.srv.isMember acptr c then st.srv else _) = srv
  have entry : Within c st.srv srv := by
    subst entered
    split
    · exact .refl c _
    · exact (addUserToChannel ..).trans (.sendtoChannelButserv ..)
  have opped := @giveFlag c { st with
    srv := srv
    people := st.people + 1
    text := st.text ++ (if keepNewModes then s0 else stripPrefixes s0) ++ [' '] } sptr req.sender
      (sjoinNickFlags keepNewModes s0).chanop 'o' (stripPrefixes s0)
  exact entry.trans (opped.trans (giveFlag ..))

theorem nick (st : SjoinLoop) (cptr sptr : ClientId) (req : SjoinRequest) (keepNewModes : Bool)
    (s0 : CStr) : Within c st.srv (st.nick cptr sptr c req keepNewModes s0).srv := by
  unfold SjoinLoop.nick
  have chased : Within c st.srv (st.srv.findChasing sptr (stripPrefixes s0)).1 :=
    ⟨by rw [findChasing_toTables], fun _ => findChasing_danglingUses ..⟩
  cases found : st.srv.findChasing sptr (stripPrefixes s0) with
  | mk srv acptr =>
    rw [found] at chased
    cases acptr with
    | none => exact chased
    | some acptr =>
      simp only
      split
      · exact chased
      · exact chased.trans (admitClient ({ st with srv := srv } : SjoinLoop) ..)

theorem sjoinNicks (cptr sptr : ClientId) (req : SjoinRequest) (keepNewModes : Bool) :
    Within c s (s.sjoinNicks cptr sptr c req keepNewModes).srv := by
  unfold Server.sjoinNicks
  suffices run : ∀ (toks : List CStr) (st : SjoinLoop), Within c st.srv
      (toks.foldl (fun st s0 => st.nick cptr sptr c req keepNewModes s0) st).srv from
      run _ { srv := s, text := [], people := 0, buf := ModeBuf.plus }
  intro toks
  induction toks with
  | nil => exact fun st => .refl c _
  | cons s0 toks ih => exact fun st => (nick ..).trans (ih _)

theorem sjoinRelay (cptr sptr : ClientId) (req : SjoinRequest) (header : CStr) (st : SjoinLoop) :
    Within c st.srv (sjoinRelay cptr sptr c req header st) := by
  unfold Server.sjoinRelay
  simp only
  generalize sent : (if st.buf.pargs ≠ 0 then st.srv.sjoinSendit sptr c req.sender st.buf
    else st.srv) = s₁
  have last : Within c st.srv s₁ := by
    subst sent
    split
    · exact .sendtoChannelButserv ..
    · exact .refl c _
  split
  · exact last.trans (.sendtoMatchServs ..)
  · exact last

theorem sjoinChannel (cptr sptr : ClientId) (req : SjoinRequest) (isnew : Bool) :
    Within c s (s.sjoinChannel cptr sptr c req isnew) := by
  have zero := @sjoinTsZero c s sptr req isnew
  have modes := @sjoinModeChanges c (s.sjoinTsZero sptr c req isnew) sptr req
    (s.sjoinTsOf c req isnew) (s.chan c).channelts
  have nicks := @sjoinNicks c ((s.sjoinTsZero sptr c req isnew).sjoinModeChanges sptr c
    req (s.sjoinTsOf c req isnew) (s.chan c).channelts) cptr sptr req
      (s.sjoinTsOf c req isnew).keepNewModes
  exact zero.trans (modes.trans (nicks.trans (.sjoinRelay ..)))

end Within

end Server

namespace Tables

variable {t : Tables} {c : ChanId}

theorem sameRoll_sjoinDecided (ch : Channel) (ts : SjoinTs) (new : Mode) :
    SameRoll ch (sjoinDecided ch ts new) := by
  unfold sjoinDecided
  cases ts.keepOurModes with
  | true => exact ⟨rfl, rfl, rfl⟩
  | false =>
    refine ⟨?_, rfl, rfl⟩
    simp only [Channel.wipeFlags, Channel.memberIds, Bool.false_eq_true, if_false, List.map_map]
    rfl

theorem keepsJupes_sjoinDecided (t : Tables) (c c' : ChanId) (ts : SjoinTs) (new : Mode) :
    KeepsJupes t (t.setChan c (sjoinDecided (t.chan c) ts new)) c' := by
  intro juped
  by_cases here : c' = c
  · subst here
    have same := (sjoinDecided_settings (t.chan c') ts new).2.1
    simpa [setChan, same] using Or.inl juped
  · simpa [setChan, here] using Or.inl juped

theorem admitNick_cases (t : Tables) (cptr : ClientId) (c : ChanId) (keepNewModes : Bool)
    (s0 : CStr) : t.admitNick cptr c keepNewModes s0 = t ∨
      ∃ a, (t.client a).user = true ∧ t.isMember a c = false ∧
        t.admitNick cptr c keepNewModes s0 =
          t.addUserToChannel c a (sjoinNickFlags keepNewModes s0) := by
  unfold admitNick
  split
  · next a found =>
    split
    · exact Or.inl rfl
    · next outside =>
      cases user : (t.client a).user with
      | true => exact Or.inr ⟨a, user, Bool.eq_false_of_not_eq_true outside, rfl⟩
      | false => exact Or.inl (by simp [addUserToChannel, user])
  · exact Or.inl rfl

theorem edits_admitNicks (sound : t.Sound) (listed : c ∈ t.channel) (cptr : ClientId)
    (keepNewModes : Bool) (toks : List CStr) :
    Edits t (t.admitNicks cptr c keepNewModes toks) ∧
      ∀ d, t.Settled d → (t.admitNicks cptr c keepNewModes toks).Settled d := by
  induction toks generalizing t with
  | nil => exact ⟨.refl, fun _ => id⟩
  | cons s0 toks ih =>
    simp only [admitNicks, List.foldl_cons]
    obtain same | ⟨a, user, outside, same⟩ := t.admitNick_cases cptr c keepNewModes s0
    · rw [same]
      exact ih sound listed
    · rw [same]
      have new : a ∉ (t.chan c).memberIds := fun inside => by
        rw [← sound.isMember_iff, outside] at inside
        cases inside
      have step : Edit t (t.addUserToChannel c a (sjoinNickFlags keepNewModes s0)) :=
        .enter _ listed user new
      have blocks : (t.addUserToChannel c a (sjoinNickFlags keepNewModes s0)).channel = t.channel ∧
          (t.addUserToChannel c a (sjoinNickFlags keepNewModes s0)).nextChan = t.nextChan := by
        rw [addUserToChannel, if_pos user]
        exact ⟨rfl, rfl⟩
      obtain ⟨rest, kept⟩ := ih (sound.edit step) (blocks.1 ▸ listed)
      refine ⟨.head step rest, fun d settled => kept d ?_⟩
      exact sound.settled_step step blocks.2 settled

theorem edits_sjoinChannel (sound : t.Sound) (listed : c ∈ t.channel) (cptr : ClientId)
    (req : SjoinRequest) (isnew : Bool) :
    Edits t (t.sjoinChannel cptr c req isnew) ∧
      ∀ d, t.Settled d → (t.sjoinChannel cptr c req isnew).Settled d := by
  unfold sjoinChannel
  simp only
  generalize t.sjoinTsOf c req isnew = ts
  have alike : Alike t (t.setChan c (sjoinDecided (t.chan c) ts req.mode)) :=
    .setChan (sameRoll_sjoinDecided (t.chan c) ts req.mode)
  have step : Edit t (t.setChan c (sjoinDecided (t.chan c) ts req.mode)) :=
    .settings alike fun d => keepsJupes_sjoinDecided t c d ts req.mode
  obtain ⟨rest, kept⟩ := edits_admitNicks (sound.edit step) (alike.channel ▸ listed) cptr
    ts.keepNewModes (tokens isBlank req.nicks)
  refine ⟨.head step rest, fun d settled => kept d ?_⟩
  exact sound.settled_step step alike.nextChan settled

def Accepts (t : Tables) (cptr : ClientId) (req : SjoinRequest) : Prop :=
  ∃ s0 ∈ tokens isBlank req.nicks, ∃ a, t.resolveNick cptr s0 = some a ∧
    (t.client a).user = true

theorem memberIds_sjoinChannel (sound : t.Sound) {cptr : ClientId} {req : SjoinRequest}
    (accepts : t.Accepts cptr req) (isnew : Bool) :
    ((t.sjoinChannel cptr c req isnew).chan c).memberIds ≠ [] := by
  obtain ⟨s0, inside, a, found, user⟩ := accepts
  have outcome := sjoinChannel_outcome cptr c (fun u => sound.isMember_iff) req isnew
  have arrives : t.arrivals cptr (t.sjoinTsOf c req isnew).keepNewModes req a ≠ none := by
    intro none
    have each := List.findSome?_eq_none_iff.1 none s0 inside
    simp [arrival, found, user] at each
  have flags := outcome.flags a
  have member : a ∈ ((t.sjoinChannel cptr c req isnew).chan c).memberIds := by
    rw [← Channel.flagsOf_isSome, flags, Option.isSome_or, Bool.or_eq_true]
    exact Or.inr (Option.isSome_iff_ne_none.2 arrives)
  exact List.ne_nil_of_mem member

end Tables

def SjoinOrphans (t : Tables) (cptr sptr : ClientId) (parv : List CStr) : Prop :=
  ∃ req, parseSjoin t sptr parv = some req ∧ t.hashFindChannel req.name = none ∧
    ¬ t.Accepts cptr req

open Server

variable {s : Server}

theorem sjoinRun_cases (s : Server) (cptr sptr : ClientId) {req : SjoinRequest}
    (server : (s.client sptr).isClient = false) (named : req.name ≠ []) :
    (∃ c, s.hashFindChannel req.name = some c ∧
      s.sjoinRun cptr sptr req = s.sjoinChannel cptr sptr c req false) ∨
    s.hashFindChannel req.name = none ∧
      s.sjoinRun cptr sptr req = (s.edit (·.createChannel req.name)).sjoinChannel cptr sptr
        s.nextChan req true := by
  have uncut : s.channelNameFor sptr req.name = req.name := by
    simp [channelNameFor, Client.myClient, server]
  unfold sjoinRun getChannel
  rw [if_neg named]
  simp only [uncut]
  cases found : s.hashFindChannel req.name with
  | some c => exact Or.inl ⟨c, rfl, by simp⟩
  | none => exact Or.inr ⟨rfl, by simp⟩

theorem tidy_sjoinChannel (sound : s.Sound) {c : ChanId} (listed : c ∈ s.channel)
    (cptr sptr : ClientId) (req : SjoinRequest) (isnew : Bool) :
    Tidy s (s.sjoinChannel cptr sptr c req isnew) := by
  obtain ⟨edits, settled⟩ := Tables.edits_sjoinChannel sound listed cptr req isnew
  have uses := (Within.sjoinChannel (s := s) cptr sptr req isnew).uses (sound.live c listed)
  rw [← s.sjoinChannel_toTables cptr sptr c req isnew] at edits settled
  exact ⟨⟨edits, uses⟩, settled⟩

theorem clean_mSjoin (sound : s.Sound) (cptr sptr : ClientId) (parv : List CStr) :
    Clean s (mSjoin s cptr sptr parv) ∧
      (¬ SjoinOrphans s.toTables cptr sptr parv → Tidy s (mSjoin s cptr sptr parv)) := by
  unfold mSjoin
  cases parsed : parseSjoin s.toTables sptr parv with
  | none => exact ⟨(Tidy.refl s).toClean, fun _ => .refl s⟩
  | some req =>
    obtain ⟨server, named⟩ := parseSjoin_sender parsed
    simp only
    obtain ⟨c, found, run⟩ | ⟨absent, run⟩ := sjoinRun_cases s cptr sptr server named
    · rw [run]
      have tidy := tidy_sjoinChannel sound (sound.listed_of_found found) cptr sptr req false
      exact ⟨tidy.toClean, fun _ => tidy⟩
    · rw [run]
      have created := Clean.createChannel absent
      have sound₁ := created.sound sound
      have listed : s.nextChan ∈ (s.edit (·.createChannel req.name)).channel :=
        List.mem_cons_self
      have tidy := tidy_sjoinChannel sound₁ listed cptr sptr req true
      have clean := created.trans tidy.toClean
      refine ⟨clean, fun accepted => ⟨clean, fun d settled => ?_⟩⟩
      have accepts : s.Accepts cptr req :=
        Classical.not_not.1 fun nobody => accepted ⟨req, parsed, absent, nobody⟩
      by_cases here : d = s.nextChan
      · rw [here]
        refine fun _ => Or.inl ?_
        rw [sjoinChannel_toTables]
        exact Tables.memberIds_sjoinChannel sound₁ accepts true
      · apply tidy.settled
        exact sound.settled_create absent here settled

end Ircd
