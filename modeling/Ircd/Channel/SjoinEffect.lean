import Ircd.Channel.Sjoin
import Ircd.Channel.Members

/-! What `m_sjoin` does to the tables, apart from what it sends.

`admitNick` is one turn of the nick loop as an edit of the tables; `flagsOf` reads
a channel as a partial map from clients to their flags, and the whole nick list
extends that map by the first token of each client that was not in it.
-/

set_option autoImplicit false

namespace Ircd

theorem Channel.flagsOf_wipeFlags (ch : Channel) (u : ClientId) :
    ch.wipeFlags.flagsOf u = (ch.flagsOf u).map MemberFlags.wipe := by
  simp only [flagsOf, findUserLink, wipeFlags, List.find?_map, Option.map_map]
  rfl

namespace Tables

/-- The client behind `cptr` that a token of the nick list names. -/
def resolveNick (t : Tables) (cptr : ClientId) (s0 : CStr) : Option ClientId :=
  match t.chase (stripPrefixes s0) with
  | some a => if (t.client a).from_ = cptr then some a else none
  | none => none

def admitNick (t : Tables) (cptr : ClientId) (c : ChanId) (keepNewModes : Bool) (s0 : CStr) :
    Tables :=
  match t.resolveNick cptr s0 with
  | some a =>
    if t.isMember a c then t else t.addUserToChannel c a (sjoinNickFlags keepNewModes s0)
  | none => t

def admitNicks (t : Tables) (cptr : ClientId) (c : ChanId) (keepNewModes : Bool)
    (toks : List CStr) : Tables :=
  toks.foldl (fun t s0 => t.admitNick cptr c keepNewModes s0) t

def sjoinDecided (ch : Channel) (ts : SjoinTs) (new : Mode) : Channel :=
  let ch := { ch with mode := sjoinMerge ts ch.mode new, channelts := ts.channelts }
  if ts.keepOurModes then ch else ch.wipeFlags

def sjoinTsOf (t : Tables) (c : ChanId) (req : SjoinRequest) (isnew : Bool) : SjoinTs :=
  sjoinTs isnew req.newts (t.chan c).channelts (t.chan c).juped (t.chan c).users

def sjoinChannel (t : Tables) (cptr : ClientId) (c : ChanId) (req : SjoinRequest) (isnew : Bool) :
    Tables :=
  let ts := t.sjoinTsOf c req isnew
  (t.setChan c (sjoinDecided (t.chan c) ts req.mode)).admitNicks cptr c ts.keepNewModes
    (tokens isBlank req.nicks)

def sjoinTarget (t : Tables) (name : CStr) : Tables × ChanId :=
  match t.hashFindChannel name with
  | some c => (t, c)
  | none => (t.createChannel name, t.nextChan)

def sjoinRun (t : Tables) (cptr : ClientId) (req : SjoinRequest) : Tables :=
  let (t', c) := t.sjoinTarget req.name
  t'.sjoinChannel cptr c req (t.hashFindChannel req.name).isNone

end Tables

namespace Server

variable (s : Server) (cptr sptr : ClientId) (c : ChanId)

@[simp] theorem sjoinSendit_toTables (sender : CStr) (b : ModeBuf) :
    (s.sjoinSendit sptr c sender b).toTables = s.toTables := by
  simp [sjoinSendit]

@[simp] theorem sjoinFlush_toTables (sender : CStr) (restart b : ModeBuf) :
    (s.sjoinFlush sptr c sender restart b).1.toTables = s.toTables := by
  unfold sjoinFlush
  split <;> simp

@[simp] theorem sjoinTakeFlag_toTables (sender : CStr) (has : Bool) (letter : Char) (name : CStr)
    (b : ModeBuf) : (s.sjoinTakeFlag sptr c sender has letter name b).1.toTables = s.toTables := by
  unfold sjoinTakeFlag
  split <;> simp

@[simp] theorem sjoinTakeFlags_toTables (sender : CStr) (links : List Member) (b : ModeBuf) :
    (sjoinTakeFlags sptr c sender links s b).1.toTables = s.toTables := by
  induction links generalizing s b with
  | nil => rfl
  | cons link links ih => simp only [sjoinTakeFlags, ih, sjoinTakeFlag_toTables]

@[simp] theorem sjoinTsZero_toTables (req : SjoinRequest) (isnew : Bool) :
    (s.sjoinTsZero sptr c req isnew).toTables = s.toTables := by
  unfold sjoinTsZero
  simp only
  split <;> simp

@[simp] theorem sjoinRelay_toTables (req : SjoinRequest) (header : CStr) (st : SjoinLoop) :
    (sjoinRelay cptr sptr c req header st).toTables = st.srv.toTables := by
  unfold sjoinRelay
  simp only
  split <;> split <;> simp

theorem sjoinModeChanges_toTables (req : SjoinRequest) (ts : SjoinTs) (oldts : Int) :
    (s.sjoinModeChanges sptr c req ts oldts).toTables =
      s.toTables.setChan c (Tables.sjoinDecided (s.chan c) ts req.mode) := by
  unfold sjoinModeChanges Tables.sjoinDecided
  cases ts.keepOurModes with
  | true => simp only [if_true]; split <;> simp
  | false =>
    simp only [Bool.false_eq_true, if_false]
    split <;> simp [Tables.setChan]

end Server

namespace SjoinLoop

variable (st : SjoinLoop) (cptr sptr : ClientId) (c : ChanId)

@[simp] theorem giveFlag_toTables (sender : CStr) (has : Bool) (letter : Char) (name : CStr) :
    (st.giveFlag sptr c sender has letter name).srv.toTables = st.srv.toTables := by
  unfold giveFlag
  split <;> simp

theorem nick_toTables (req : SjoinRequest) (keepNewModes : Bool) (s0 : CStr) :
    (st.nick cptr sptr c req keepNewModes s0).srv.toTables =
      st.srv.toTables.admitNick cptr c keepNewModes s0 := by
  unfold nick Tables.admitNick Tables.resolveNick Server.findChasing
  cases found : st.srv.chase (stripPrefixes s0) with
  | none => simp
  | some a =>
    simp only
    by_cases behind : (st.srv.client a).from_ = cptr
    · simp only [behind, ne_eq, not_true_eq_false, if_false, if_true, admitClient, giveFlag_toTables]
      split <;> simp
    · simp [behind]

end SjoinLoop

namespace Server

variable (s : Server) (cptr sptr : ClientId) (c : ChanId)

theorem sjoinNicks_toTables (req : SjoinRequest) (keepNewModes : Bool) :
    (s.sjoinNicks cptr sptr c req keepNewModes).srv.toTables =
      s.toTables.admitNicks cptr c keepNewModes (tokens isBlank req.nicks) := by
  suffices run : ∀ (toks : List CStr) (st : SjoinLoop),
      (toks.foldl (fun st s0 => st.nick cptr sptr c req keepNewModes s0) st).srv.toTables =
        st.srv.toTables.admitNicks cptr c keepNewModes toks from run _ _
  intro toks
  induction toks with
  | nil => intro st; rfl
  | cons s0 toks ih =>
    intro st
    simp only [List.foldl_cons, Tables.admitNicks]
    rw [ih, SjoinLoop.nick_toTables]
    rfl

theorem sjoinChannel_toTables (req : SjoinRequest) (isnew : Bool) :
    (s.sjoinChannel cptr sptr c req isnew).toTables =
      s.toTables.sjoinChannel cptr c req isnew := by
  simp only [sjoinChannel, sjoinRelay_toTables, sjoinNicks_toTables, sjoinModeChanges_toTables,
    sjoinTsZero_toTables]
  rfl

/-- A server is not cut its channel names, so the lookup and the creation of an
SJOIN use the name of the line. -/
theorem sjoinRun_toTables (req : SjoinRequest) (server : (s.client sptr).isClient = false)
    (named : req.name ≠ []) :
    (s.sjoinRun cptr sptr req).toTables = s.toTables.sjoinRun cptr req := by
  have uncut : s.channelNameFor sptr req.name = req.name := by
    simp [channelNameFor, Client.myClient, server]
  unfold sjoinRun Tables.sjoinRun Tables.sjoinTarget getChannel
  rw [if_neg named]
  simp only [uncut]
  cases found : s.hashFindChannel req.name with
  | none => simp [sjoinChannel_toTables]
  | some c => simp [sjoinChannel_toTables]

end Server

theorem parseSjoin_sender {t : Tables} {sptr : ClientId} {parv : List CStr} {req : SjoinRequest}
    (h : parseSjoin t sptr parv = some req) :
    (t.client sptr).isClient = false ∧ req.name ≠ [] := by
  unfold parseSjoin at h
  split at h
  · cases h
  next accepted =>
  split at h
  · cases h
  next prefixed =>
  split at h
  · cases h
  split at h
  · cases h
  split at h
  · cases h
  · cases h
    refine ⟨by simpa using fun client => accepted (Or.inl client), ?_⟩
    intro empty
    have nameless : paramAt parv 2 = [] := empty
    simp [nameless, isChannelName] at prefixed

theorem mSjoin_toTables (s : Server) (cptr sptr : ClientId) (parv : List CStr) :
    (mSjoin s cptr sptr parv).toTables =
      match parseSjoin s.toTables sptr parv with
      | none => s.toTables
      | some req => s.toTables.sjoinRun cptr req := by
  unfold mSjoin
  cases parsed : parseSjoin s.toTables sptr parv with
  | none => rfl
  | some req =>
    obtain ⟨server, named⟩ := parseSjoin_sender parsed
    exact s.sjoinRun_toTables cptr sptr req server named

namespace Tables

variable {t t' : Tables} (cptr : ClientId) (c : ChanId) (keepNewModes : Bool)

def arrival (t : Tables) (cptr : ClientId) (keepNewModes : Bool) (u : ClientId) (s0 : CStr) :
    Option MemberFlags :=
  if t.resolveNick cptr s0 = some u ∧ (t.client u).user then
    some (sjoinNickFlags keepNewModes s0)
  else none

theorem SameDirectory.resolveNick (h : SameDirectory t t') (s0 : CStr) :
    t'.resolveNick cptr s0 = t.resolveNick cptr s0 := by
  simp only [Tables.resolveNick, h.chase, h.from_]

theorem SameDirectory.arrival (h : SameDirectory t t') (u : ClientId) (s0 : CStr) :
    t'.arrival cptr keepNewModes u s0 = t.arrival cptr keepNewModes u s0 := by
  simp only [Tables.arrival, h.resolveNick, h.user]

theorem sameDirectory_admitNick (t : Tables) (s0 : CStr) :
    SameDirectory t (t.admitNick cptr c keepNewModes s0) := by
  unfold admitNick
  split
  · split
    · exact .refl t
    · exact sameDirectory_addUserToChannel ..
  · exact .refl t

theorem sameChannels_admitNick (t : Tables) (s0 : CStr) :
    SameChannels t (t.admitNick cptr c keepNewModes s0) := by
  unfold admitNick
  split
  · split
    · exact .refl t
    · exact sameChannels_addUserToChannel ..
  · exact .refl t

theorem sameChannels_admitNicks (t : Tables) (toks : List CStr) :
    SameChannels t (t.admitNicks cptr c keepNewModes toks) := by
  induction toks generalizing t with
  | nil => exact .refl t
  | cons s0 toks ih =>
    exact (sameChannels_admitNick cptr c keepNewModes t s0).trans
      (ih (t.admitNick cptr c keepNewModes s0))

theorem Mirrored.admitNick (h : t.Mirrored c) (s0 : CStr) :
    (t.admitNick cptr c keepNewModes s0).Mirrored c := by
  unfold Tables.admitNick
  split
  · split
    · exact h
    · exact h.addUserToChannel _ _
  · exact h

theorem Mirrored.admitNick_flagsOf (h : t.Mirrored c) (s0 : CStr) (u : ClientId) :
    ((t.admitNick cptr c keepNewModes s0).chan c).flagsOf u =
      ((t.chan c).flagsOf u).or (t.arrival cptr keepNewModes u s0) := by
  unfold Tables.admitNick Tables.arrival
  cases found : t.resolveNick cptr s0 with
  | none => simp
  | some a =>
    simp only [Option.some.injEq]
    by_cases member : t.isMember a c = true
    · rw [if_pos member]
      by_cases same : a = u
      · subst same
        have present := (Channel.flagsOf_isSome _ _).2 ((h a).1 member)
        obtain ⟨fl, known⟩ := Option.isSome_iff_exists.1 present
        simp [known]
      · simp [same]
    · rw [if_neg member, addUserToChannel_flagsOf]
      by_cases same : a = u
      · subst same
        have absent := (h.flagsOf_eq_none a).2 (Bool.eq_false_iff.2 member)
        simp [absent]
      · simp [same]

theorem admitNicks_spec (h : t.Mirrored c) (toks : List CStr) :
    SameDirectory t (t.admitNicks cptr c keepNewModes toks) ∧
      SameChannels t (t.admitNicks cptr c keepNewModes toks) ∧
      (t.admitNicks cptr c keepNewModes toks).Mirrored c ∧
      ∀ u, ((t.admitNicks cptr c keepNewModes toks).chan c).flagsOf u =
        ((t.chan c).flagsOf u).or (toks.findSome? (t.arrival cptr keepNewModes u)) := by
  induction toks generalizing t with
  | nil => exact ⟨.refl t, .refl t, h, fun u => by simp [admitNicks]⟩
  | cons s0 toks ih =>
    have directory := sameDirectory_admitNick cptr c keepNewModes t s0
    have channels := sameChannels_admitNick cptr c keepNewModes t s0
    obtain ⟨directory', channels', mirrored, flags⟩ := ih (h.admitNick cptr c keepNewModes s0)
    refine ⟨directory.trans directory', channels.trans channels', mirrored, fun u => ?_⟩
    have arrivals : (t.admitNick cptr c keepNewModes s0).arrival cptr keepNewModes u =
        t.arrival cptr keepNewModes u := funext (directory.arrival cptr keepNewModes u)
    have step := flags u
    rw [arrivals, h.admitNick_flagsOf] at step
    simp only [admitNicks, List.foldl_cons] at step ⊢
    rw [step, Option.or_assoc, List.findSome?_cons]
    cases t.arrival cptr keepNewModes u s0 <;> rfl

def arrivals (t : Tables) (cptr : ClientId) (keepNewModes : Bool) (req : SjoinRequest)
    (u : ClientId) : Option MemberFlags :=
  (tokens isBlank req.nicks).findSome? (t.arrival cptr keepNewModes u)

/-- What `m_sjoin` leaves behind on a channel whose two sides agreed before. -/
structure SjoinOutcome (t t' : Tables) (cptr : ClientId) (c : ChanId) (req : SjoinRequest)
    (ts : SjoinTs) : Prop where
  directory : SameDirectory t t'
  mirrored : t'.Mirrored c
  channelTable : t'.channelTable = t.channelTable
  chname : ∀ c', (t'.chan c').chname = (t.chan c').chname
  juped : (t'.chan c).juped = (t.chan c).juped
  channelts : (t'.chan c).channelts = ts.channelts
  mode : (t'.chan c).mode = sjoinMerge ts (t.chan c).mode req.mode
  flags : ∀ u, (t'.chan c).flagsOf u =
    (if ts.keepOurModes then (t.chan c).flagsOf u
      else ((t.chan c).flagsOf u).map MemberFlags.wipe).or
      (t.arrivals cptr ts.keepNewModes req u)

theorem setChan_chan (t : Tables) (c c' : ChanId) (ch : Channel) :
    (t.setChan c ch).chan c' = if c' = c then ch else t.chan c' := by
  simp only [setChan, Function.update_apply]

theorem sjoinDecided_settings (ch : Channel) (ts : SjoinTs) (new : Mode) :
    (sjoinDecided ch ts new).chname = ch.chname ∧ (sjoinDecided ch ts new).juped = ch.juped ∧
      (sjoinDecided ch ts new).channelts = ts.channelts ∧
      (sjoinDecided ch ts new).mode = sjoinMerge ts ch.mode new := by
  unfold sjoinDecided
  cases ts.keepOurModes <;> exact ⟨rfl, rfl, rfl, rfl⟩

theorem sjoinDecided_flagsOf (ch : Channel) (ts : SjoinTs) (new : Mode) (u : ClientId) :
    (sjoinDecided ch ts new).flagsOf u =
      if ts.keepOurModes then ch.flagsOf u else (ch.flagsOf u).map MemberFlags.wipe := by
  unfold sjoinDecided
  cases ts.keepOurModes with
  | true => rfl
  | false => exact Channel.flagsOf_wipeFlags _ u

theorem sjoinChannel_outcome (h : t.Mirrored c) (req : SjoinRequest) (isnew : Bool) :
    SjoinOutcome t (t.sjoinChannel cptr c req isnew) cptr c req (t.sjoinTsOf c req isnew) := by
  set ts := t.sjoinTsOf c req isnew with hts
  set decided := sjoinDecided (t.chan c) ts req.mode with hdecided
  have directory := sameDirectory_setChan t c decided
  -- first the old flags, wiped if our side loses
  have flags : ∀ u, ((t.setChan c decided).chan c).flagsOf u =
      if ts.keepOurModes then (t.chan c).flagsOf u
      else ((t.chan c).flagsOf u).map MemberFlags.wipe := by
    intro u
    rw [setChan_chan, if_pos rfl, hdecided, sjoinDecided_flagsOf]
  have mirrored : (t.setChan c decided).Mirrored c := by
    intro u
    rw [← Channel.flagsOf_isSome, flags]
    have before := (h u).trans (Channel.flagsOf_isSome _ u).symm
    split
    · exact before
    · rw [Option.isSome_map]
      exact before
  -- then the nicks, one after the other
  obtain ⟨directory', channels, mirrored', arrived⟩ :=
    admitNicks_spec cptr c ts.keepNewModes mirrored (tokens isBlank req.nicks)
  obtain ⟨chname, juped, channelts, mode⟩ := sjoinDecided_settings (t.chan c) ts req.mode
  have here : (t.setChan c decided).chan c = decided := by rw [setChan_chan, if_pos rfl]
  have arrival : ∀ u, (t.setChan c decided).arrival cptr ts.keepNewModes u =
      t.arrival cptr ts.keepNewModes u :=
    fun u => funext (directory.arrival cptr ts.keepNewModes u)
  refine ⟨directory.trans directory', mirrored', channels.channelTable, fun c' => ?_, ?_, ?_, ?_,
    fun u => ?_⟩
  · refine (channels.settings c').chname.trans ?_
    rw [setChan_chan]
    split
    · next same => rw [same]; exact chname
    · rfl
  · rw [sjoinChannel, (channels.settings c).juped, here]
    exact juped
  · rw [sjoinChannel, (channels.settings c).channelts, here]
    exact channelts
  · rw [sjoinChannel, (channels.settings c).mode, here]
    exact mode
  · rw [sjoinChannel, arrived u, flags u, arrival u]
    rfl

end Tables

end Ircd
