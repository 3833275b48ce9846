import Ircd.Channel.SjoinEffect
import Ircd.Lib.Stamped
import Mathlib

/-! SJOIN as a merge of stamped values.

The TS of a channel is a stamp on its modes, its ops and its voices, and an SJOIN is
another such value: `m_sjoin` computes the merge of the two. The members themselves
are never taken away. A channel that an SJOIN creates starts from the modes that
`memset` left, whose limit is 0.
-/

set_option autoImplicit false

namespace Ircd

abbrev SjoinValue := (ModeFlag → Bool) × Int × CStr × Set ClientId × Set ClientId

def Mode.value (mode : Mode) (ops voices : Set ClientId) : SjoinValue :=
  (mode.mode, mode.limit, mode.key, ops, voices)

def flagged (flags : ClientId → Option MemberFlags) (p : MemberFlags → Bool) : Set ClientId :=
  { u | ∃ fl, flags u = some fl ∧ p fl = true }

def stampedBy (ts : Int) (mode : Mode) (flags : ClientId → Option MemberFlags) :
    Stamped Int SjoinValue :=
  ⟨ts, mode.value (flagged flags MemberFlags.chanop) (flagged flags MemberFlags.voice)⟩

structure ChannelView where
  stamped : Stamped Int SjoinValue
  members : Set ClientId

def Channel.view (ch : Channel) : ChannelView where
  stamped := stampedBy ch.channelts ch.mode ch.flagsOf
  members := { u | (ch.flagsOf u).isSome }

def Tables.channelView (t : Tables) (name : CStr) : Option ChannelView :=
  (t.hashFindChannel name).map fun c => (t.chan c).view

def Tables.requestView (t : Tables) (cptr : ClientId) (req : SjoinRequest) : ChannelView where
  stamped := stampedBy req.newts req.mode (t.arrivals cptr true req)
  members := { u | (t.arrivals cptr true req u).isSome }

namespace ChannelView

noncomputable def merge (x y : ChannelView) : ChannelView :=
  ⟨x.stamped.merge y.stamped, x.members ∪ y.members⟩

theorem ext {x y : ChannelView} (stamped : x.stamped = y.stamped) (members : x.members = y.members) :
    x = y := by
  cases x
  cases y
  simp only at stamped members
  rw [stamped, members]

end ChannelView

theorem MemberFlags.wipe_chanop (flags : MemberFlags) : flags.wipe.chanop = false := rfl
theorem MemberFlags.wipe_voice (flags : MemberFlags) : flags.wipe.voice = false := rfl

theorem flagged_or (f g : ClientId → Option MemberFlags) (p : MemberFlags → Bool)
    (apart : ∀ u, (f u).isSome → g u = none) :
    flagged (fun u => (f u).or (g u)) p = flagged f p ∪ flagged g p := by
  ext u
  simp only [flagged, Set.mem_ofPred_eq, Set.mem_union]
  have apart := apart u
  cases known : f u with
  | none => simp
  | some fl => simp [apart (by simp [known])]

theorem flagged_map_wipe (f : ClientId → Option MemberFlags) {p : MemberFlags → Bool}
    (lost : ∀ fl : MemberFlags, p fl.wipe = false) :
    flagged (fun u => (f u).map MemberFlags.wipe) p = ∅ := by
  ext u
  simp only [flagged, Set.mem_ofPred_eq, Option.map_eq_some_iff, Set.mem_empty_iff_false, iff_false]
  rintro ⟨fl, ⟨old, _, rfl⟩, has⟩
  rw [lost] at has
  cases has

namespace Tables

variable (t : Tables) (cptr : ClientId) (req : SjoinRequest)

theorem arrivals_map (keepNewModes : Bool) (u : ClientId) :
    t.arrivals cptr keepNewModes req u =
      ((tokens isBlank req.nicks).find? fun s0 =>
        decide (t.resolveNick cptr s0 = some u ∧ (t.client u).user = true)).map
          (sjoinNickFlags keepNewModes) := by
  unfold arrivals arrival
  induction tokens isBlank req.nicks with
  | nil => rfl
  | cons s0 toks ih =>
    rw [List.findSome?_cons, List.find?_cons]
    by_cases here : t.resolveNick cptr s0 = some u ∧ (t.client u).user = true
    · simp [here]
    · simp only [here, if_false, decide_false]
      exact ih

theorem arrivals_isSome (keepNewModes : Bool) (u : ClientId) :
    (t.arrivals cptr keepNewModes req u).isSome = (t.arrivals cptr true req u).isSome := by
  rw [arrivals_map, arrivals_map, Option.isSome_map, Option.isSome_map]

theorem flagged_arrivals_false {p : MemberFlags → Bool}
    (lost : ∀ s0, p (sjoinNickFlags false s0) = false) :
    flagged (t.arrivals cptr false req) p = ∅ := by
  ext u
  simp only [flagged, Set.mem_ofPred_eq, arrivals_map, Option.map_eq_some_iff,
    Set.mem_empty_iff_false, iff_false]
  rintro ⟨fl, ⟨s0, _, rfl⟩, has⟩
  rw [lost] at has
  cases has

end Tables

theorem flagged_congr {f g : ClientId → Option MemberFlags} (same : ∀ u, f u = g u)
    (p : MemberFlags → Bool) : flagged f p = flagged g p := by
  rw [funext same]

namespace Tables

variable {t : Tables} (cptr : ClientId) {c : ChanId} (req : SjoinRequest)

theorem members_after {t' : Tables} {ts : SjoinTs} (h : SjoinOutcome t t' cptr c req ts) :
    (t'.chan c).view.members = (t.chan c).view.members ∪ (t.requestView cptr req).members := by
  ext u
  simp only [Channel.view, requestView, Set.mem_ofPred_eq, Set.mem_union, h.flags,
    Option.isSome_or, Bool.or_eq_true, arrivals_isSome t cptr req ts.keepNewModes]
  split
  · rfl
  · rw [Option.isSome_map]

theorem sup_value (old new : Mode) (ts : SjoinTs) (ours : ts.keepOurModes = true)
    (theirs : ts.keepNewModes = true) (f g : ClientId → Option MemberFlags)
    (apart : ∀ u, (f u).isSome → g u = none) :
    (sjoinMerge ts old new).value (flagged (fun u => (f u).or (g u)) MemberFlags.chanop)
        (flagged (fun u => (f u).or (g u)) MemberFlags.voice) =
      old.value (flagged f MemberFlags.chanop) (flagged f MemberFlags.voice) ⊔
        new.value (flagged g MemberFlags.chanop) (flagged g MemberFlags.voice) := by
  rw [flagged_or f g _ apart, flagged_or f g _ apart]
  unfold sjoinMerge
  simp only [ours, theirs, Bool.not_true, Bool.false_eq_true, if_false, if_true, Mode.value]
  refine Prod.ext ?_ (Prod.ext ?_ (Prod.ext ?_ rfl))
  · funext f
    exact Bool.or_comm _ _
  · change (if old.limit > new.limit then old.limit else new.limit) = max old.limit new.limit
    split
    · next above => exact (max_eq_left above.le).symm
    · next below => exact (max_eq_right (not_lt.1 below)).symm
  · change (if new.key < old.key then old.key else new.key) = max old.key new.key
    split
    · next above => exact (max_eq_left above.le).symm
    · next below => exact (max_eq_right (not_lt.1 below)).symm

theorem sjoinChannel_merge (h : t.Mirrored c) (pos : 0 < req.newts) (pos' : 0 < (t.chan c).channelts)
    (unjuped : (t.chan c).juped = false)
    (apart : ∀ u, ((t.chan c).flagsOf u).isSome → t.arrivals cptr true req u = none) :
    ((t.sjoinChannel cptr c req false).chan c).view =
      (t.chan c).view.merge (t.requestView cptr req) := by
  have outcome := sjoinChannel_outcome cptr c h req false
  refine ChannelView.ext ?_ (members_after cptr req outcome)
  have stamped : ((t.sjoinChannel cptr c req false).chan c).view.stamped =
      stampedBy (t.sjoinTsOf c req false).channelts
        (sjoinMerge (t.sjoinTsOf c req false) (t.chan c).mode req.mode)
        ((t.sjoinChannel cptr c req false).chan c).flagsOf := by
    simp only [Channel.view, outcome.channelts, outcome.mode]
  rw [stamped, stampedBy, flagged_congr outcome.flags, flagged_congr outcome.flags]
  simp only [ChannelView.merge, Channel.view, requestView, stampedBy]
  have zero : ¬(req.newts = 0 ∨ (t.chan c).channelts = 0) := by omega
  rcases lt_trichotomy (t.chan c).channelts req.newts with older | same | newer
  · -- our channel is older: our modes stay, and nobody arrives with flags
    have ts : t.sjoinTsOf c req false =
        { channelts := (t.chan c).channelts, tstosend := (t.chan c).channelts,
          keepOurModes := true, keepNewModes := false } := by
      rw [sjoinTsOf, sjoinTs, if_neg Bool.false_ne_true, if_neg zero, if_neg older.ne',
        if_neg (not_lt.2 older.le), if_neg (by simp [unjuped])]
    have others : ∀ u, ((t.chan c).flagsOf u).isSome → t.arrivals cptr false req u = none := by
      intro u present
      have none := apart u present
      rw [arrivals_map, Option.map_eq_none_iff] at none ⊢
      exact none
    rw [Stamped.merge_of_lt (by exact older), ts]
    simp only [if_true, sjoinMerge, Bool.not_false]
    rw [flagged_or _ _ _ others, flagged_or _ _ _ others,
      flagged_arrivals_false t cptr req (fun _ => rfl),
      flagged_arrivals_false t cptr req (fun _ => rfl), Set.union_empty, Set.union_empty]
  · have ts : t.sjoinTsOf c req false =
        { channelts := (t.chan c).channelts, tstosend := (t.chan c).channelts,
          keepOurModes := true, keepNewModes := true } := by
      rw [sjoinTsOf, sjoinTs, if_neg Bool.false_ne_true, if_neg zero, if_pos same.symm]
    rw [Stamped.merge_of_eq (by exact same), ts]
    simp only [if_true]
    rw [sup_value _ _ _ rfl rfl _ _ apart]
  · -- theirs is older: our modes and flags are gone
    have ts : t.sjoinTsOf c req false =
        { channelts := req.newts, tstosend := req.newts,
          keepOurModes := false, keepNewModes := true } := by
      rw [sjoinTsOf, sjoinTs, if_neg Bool.false_ne_true, if_neg zero, if_neg newer.ne,
        if_pos newer]
    rw [Stamped.merge_of_gt (by exact newer), ts]
    simp only [Bool.false_eq_true, if_false, sjoinMerge, Bool.not_true]
    have wiped : ∀ u, (((t.chan c).flagsOf u).map MemberFlags.wipe).isSome →
        t.arrivals cptr true req u = none := by
      intro u present
      rw [Option.isSome_map] at present
      exact apart u present
    rw [flagged_or _ _ _ wiped, flagged_or _ _ _ wiped,
      flagged_map_wipe _ MemberFlags.wipe_chanop, flagged_map_wipe _ MemberFlags.wipe_voice,
      Set.empty_union, Set.empty_union]

def freshValue : SjoinValue := Mode.zero.value ∅ ∅

theorem sjoinChannel_first (h : t.Mirrored c) (mode : (t.chan c).mode = Mode.zero)
    (empty : ∀ u, (t.chan c).flagsOf u = none) :
    ((t.sjoinChannel cptr c req true).chan c).view =
      ⟨(t.requestView cptr req).stamped.start freshValue, (t.requestView cptr req).members⟩ := by
  have outcome := sjoinChannel_outcome cptr c h req true
  refine ChannelView.ext ?_ ?_
  · have ts : t.sjoinTsOf c req true =
        { channelts := req.newts, tstosend := req.newts,
          keepOurModes := true, keepNewModes := true } := rfl
    have nobody : ∀ u, ((t.chan c).flagsOf u).isSome → t.arrivals cptr true req u = none := by
      intro u present
      rw [empty u] at present
      cases present
    have noFlag : ∀ p : MemberFlags → Bool, flagged (t.chan c).flagsOf p = ∅ := by
      intro p
      ext u
      simp [flagged, empty u]
    have value := sup_value (t.chan c).mode req.mode (t.sjoinTsOf c req true)
      (by rw [ts]) (by rw [ts]) (t.chan c).flagsOf (t.arrivals cptr true req) nobody
    rw [noFlag, noFlag, mode] at value
    refine Stamped.ext ?_ ?_
    · change ((t.sjoinChannel cptr c req true).chan c).channelts = req.newts
      rw [outcome.channelts, ts]
    · change ((t.sjoinChannel cptr c req true).chan c).mode.value _ _ = freshValue ⊔ _
      rw [outcome.mode, flagged_congr outcome.flags, flagged_congr outcome.flags, mode]
      exact value
  · rw [members_after cptr req outcome]
    ext u
    simp [Channel.view, empty u]

theorem SameDirectory.parseSjoin {t' : Tables} (h : SameDirectory t t') (sptr : ClientId)
    (parv : List CStr) : Ircd.parseSjoin t' sptr parv = Ircd.parseSjoin t sptr parv := by
  unfold Ircd.parseSjoin Client.isClient
  rw [h.status]

theorem SameDirectory.arrivals {t' : Tables} (h : SameDirectory t t') (keepNewModes : Bool) :
    t'.arrivals cptr keepNewModes req = t.arrivals cptr keepNewModes req := by
  funext u
  have arrival : t'.arrival cptr keepNewModes u = t.arrival cptr keepNewModes u :=
    funext (h.arrival cptr keepNewModes u)
  rw [Tables.arrivals, Tables.arrivals, arrival]

theorem SameDirectory.requestView {t' : Tables} (h : SameDirectory t t') :
    t'.requestView cptr req = t.requestView cptr req := by
  unfold Tables.requestView
  rw [h.arrivals cptr req true]

end Tables

structure SjoinMessage where
  cptr : ClientId
  sptr : ClientId
  parv : List CStr

def mSjoins (s : Server) (msgs : List SjoinMessage) : Server :=
  msgs.foldl (fun s m => mSjoin s m.cptr m.sptr m.parv) s

namespace Tables

/-- What `m_sjoin` merges for a message; a message it does not accept is ignored. -/
def messageView (t : Tables) (m : SjoinMessage) : Option ChannelView :=
  (parseSjoin t m.sptr m.parv).map (t.requestView m.cptr)

theorem SameDirectory.messageView {t t' : Tables} (h : SameDirectory t t') :
    t'.messageView = t.messageView := by
  funext m
  unfold Tables.messageView
  rw [h.parseSjoin]
  congr 1
  funext req
  exact h.requestView m.cptr req

/-- The messages are about the channel `name` and have a positive TS. -/
def AboutChannel (t : Tables) (name : CStr) (m : SjoinMessage) : Prop :=
  ∀ req, parseSjoin t m.sptr m.parv = some req → 0 < req.newts ∧ irccmp name req.name = .eq

def Apart (t : Tables) (m m' : SjoinMessage) : Prop :=
  ∀ v v', t.messageView m = some v → t.messageView m' = some v' → Disjoint v.members v'.members

structure Serving (t : Tables) (name : CStr) (c : ChanId) (v : ChannelView) : Prop where
  found : t.hashFindChannel name = some c
  mirrored : t.Mirrored c
  unjuped : (t.chan c).juped = false
  positive : 0 < (t.chan c).channelts
  view : (t.chan c).view = v

variable {t : Tables} {name : CStr}

theorem Serving.message {c : ChanId} {v : ChannelView} (serving : t.Serving name c v)
    {s : Server} (tables : s.toTables = t) {m : SjoinMessage} (about : t.AboutChannel name m)
    (apart : ∀ w, t.messageView m = some w → Disjoint v.members w.members) :
    SameDirectory t (mSjoin s m.cptr m.sptr m.parv).toTables ∧
      (mSjoin s m.cptr m.sptr m.parv).toTables.Serving name c
        ((t.messageView m).toList.foldl ChannelView.merge v) := by
  rw [mSjoin_toTables, tables, messageView]
  cases parsed : parseSjoin t m.sptr m.parv with
  | none => exact ⟨.refl t, serving⟩
  | some req =>
    obtain ⟨positive, sameName⟩ := about req parsed
    have found : t.hashFindChannel req.name = some c := by
      rw [← t.hashFindChannel_congr_name sameName, serving.found]
    have nobody : ∀ u, ((t.chan c).flagsOf u).isSome → t.arrivals m.cptr true req u = none := by
      intro u present
      have disjoint := apart (t.requestView m.cptr req) (by rw [messageView, parsed]; rfl)
      rw [← serving.view] at disjoint
      by_contra arrives
      exact Set.disjoint_left.1 disjoint present (Option.isSome_iff_ne_none.2 arrives)
    have outcome := sjoinChannel_outcome m.cptr c serving.mirrored req false
    have merged := sjoinChannel_merge m.cptr req serving.mirrored positive serving.positive
      serving.unjuped nobody
    simp only [sjoinRun, sjoinTarget, found, Option.isNone_some]
    refine ⟨outcome.directory, ?_, outcome.mirrored, outcome.juped.trans serving.unjuped, ?_, ?_⟩
    · rw [hashFindChannel_congr outcome.channelTable outcome.chname, serving.found]
    · have stamp := congrArg (fun v : ChannelView => v.stamped.stamp) merged
      change ((t.sjoinChannel m.cptr c req false).chan c).channelts =
        ((t.chan c).view.stamped.merge (t.requestView m.cptr req).stamped).stamp at stamp
      rw [stamp, Stamped.stamp_merge]
      exact lt_min serving.positive positive
    · rw [merged, serving.view]
      rfl

theorem Serving.messages {c : ChanId} {v : ChannelView} (serving : t.Serving name c v)
    {s : Server} (tables : s.toTables = t) {msgs : List SjoinMessage}
    (about : ∀ m ∈ msgs, t.AboutChannel name m) (apart : msgs.Pairwise t.Apart)
    (away : ∀ m ∈ msgs, ∀ w, t.messageView m = some w → Disjoint v.members w.members) :
    (mSjoins s msgs).toTables.Serving name c
      ((msgs.filterMap t.messageView).foldl ChannelView.merge v) := by
  induction msgs generalizing t s v with
  | nil => rw [← tables] at serving; exact serving
  | cons m msgs ih =>
    obtain ⟨apartHead, apartTail⟩ := List.pairwise_cons.1 apart
    obtain ⟨directory, next⟩ := serving.message tables (about m (List.mem_cons_self ..))
      (away m (List.mem_cons_self ..))
    have views := directory.messageView
    -- no SJOIN changes the directory, so the later lines mean what they meant
    have about' : ∀ m' ∈ msgs, (mSjoin s m.cptr m.sptr m.parv).toTables.AboutChannel name m' := by
      intro m' member req parsed
      rw [directory.parseSjoin] at parsed
      exact about m' (List.mem_cons_of_mem _ member) req parsed
    have apart' : msgs.Pairwise (mSjoin s m.cptr m.sptr m.parv).toTables.Apart := by
      refine apartTail.imp fun {a b} disjoint => ?_
      unfold Apart
      rw [views]
      exact disjoint
    have run := ih next rfl about' apart' (by
      rw [views]
      intro m' member w known
      cases first : t.messageView m with
      | none => exact away m' (List.mem_cons_of_mem _ member) w known
      | some v' =>
        refine Set.disjoint_union_left.2 ⟨away m' (List.mem_cons_of_mem _ member) w known, ?_⟩
        exact apartHead m' member v' w first known)
    rw [views] at run
    have fold : ((m :: msgs).filterMap t.messageView).foldl ChannelView.merge v =
        (msgs.filterMap t.messageView).foldl ChannelView.merge
          ((t.messageView m).toList.foldl ChannelView.merge v) := by
      rw [List.filterMap_cons]
      cases t.messageView m <;> rfl
    rw [fold]
    exact run

theorem createChannel_chan (t : Tables) (name : CStr) (c : ChanId) :
    (t.createChannel name).chan c =
      if c = t.nextChan then freshChannel name t.currentTime else t.chan c := by
  simp only [createChannel, addToChannelHashTable, setChan, Function.update_apply]

theorem createChannel_find (t : Tables) {name chname : CStr} (same : irccmp name chname = .eq) :
    (t.createChannel chname).hashFindChannel name = some t.nextChan := by
  unfold hashFindChannel
  have bucket : (t.createChannel chname).channelTable (hashChannelName name) =
      t.nextChan :: t.channelTable (hashChannelName name) := by
    rw [hashChannelName_congr same]
    simp [createChannel, addToChannelHashTable, setChan]
  rw [bucket, List.find?_cons_of_pos]
  rw [createChannel_chan, if_pos rfl, beq_iff_eq]
  exact same

theorem serving_first {s : Server} (tables : s.toTables = t) (absent : t.hashFindChannel name = none)
    (fresh : ∀ u, t.isMember u t.nextChan = false) {m : SjoinMessage}
    (about : t.AboutChannel name m) {v : ChannelView} (taken : t.messageView m = some v) :
    SameDirectory t (mSjoin s m.cptr m.sptr m.parv).toTables ∧
      (mSjoin s m.cptr m.sptr m.parv).toTables.Serving name t.nextChan
        ⟨v.stamped.start freshValue, v.members⟩ := by
  obtain ⟨req, parsed, rfl⟩ := Option.map_eq_some_iff.1 taken
  obtain ⟨positive, sameName⟩ := about req parsed
  have missing : t.hashFindChannel req.name = none := by
    rw [← t.hashFindChannel_congr_name sameName, absent]
  rw [mSjoin_toTables, tables, parsed]
  simp only [sjoinRun, sjoinTarget, missing, Option.isNone_none]
  have here : (t.createChannel req.name).chan t.nextChan =
      freshChannel req.name t.currentTime := by
    rw [createChannel_chan, if_pos rfl]
  have mirrored : (t.createChannel req.name).Mirrored t.nextChan := by
    intro u
    rw [here]
    have outside : (t.createChannel req.name).isMember u t.nextChan = false := fresh u
    simp [outside, freshChannel, Channel.zero, Channel.memberIds]
  have outcome := sjoinChannel_outcome m.cptr t.nextChan mirrored req true
  have directory := sameDirectory_createChannel t req.name
  refine ⟨directory.trans outcome.directory, ?_, outcome.mirrored, ?_, ?_, ?_⟩
  · rw [hashFindChannel_congr outcome.channelTable outcome.chname, createChannel_find t sameName]
  · rw [outcome.juped, here]
    rfl
  · rw [outcome.channelts]
    exact positive
  · rw [sjoinChannel_first m.cptr req mirrored (by rw [here]; rfl) (fun u => by rw [here]; rfl),
      directory.requestView m.cptr req]

/-- The merge of the accepted messages into a channel that starts from `memset`. -/
noncomputable def mergedViews : List ChannelView → Option ChannelView
  | [] => none
  | v :: vs => some (vs.foldl ChannelView.merge ⟨v.stamped.start freshValue, v.members⟩)

theorem mSjoins_channelView (s : Server) (absent : s.hashFindChannel name = none)
    (fresh : ∀ u, s.isMember u s.nextChan = false) {msgs : List SjoinMessage}
    (about : ∀ m ∈ msgs, s.AboutChannel name m) (apart : msgs.Pairwise s.Apart) :
    (mSjoins s msgs).channelView name = mergedViews (msgs.filterMap s.messageView) := by
  induction msgs with
  | nil =>
    change s.channelView name = none
    rw [channelView, absent, Option.map_none]
  | cons m msgs ih =>
    obtain ⟨apartHead, apartTail⟩ := List.pairwise_cons.1 apart
    have aboutTail : ∀ m' ∈ msgs, s.AboutChannel name m' := fun m' member =>
      about m' (List.mem_cons_of_mem _ member)
    rw [List.filterMap_cons]
    cases taken : s.messageView m with
    | none =>
      -- a line that does not parse leaves the channel unmade
      have ignored : mSjoin s m.cptr m.sptr m.parv = s := by
        have rejected : parseSjoin s.toTables m.sptr m.parv = none :=
          Option.map_eq_none_iff.1 taken
        rw [mSjoin, rejected]
      have unfolded : mSjoins s (m :: msgs) = mSjoins (mSjoin s m.cptr m.sptr m.parv) msgs := rfl
      rw [unfolded, ignored]
      exact ih aboutTail apartTail
    | some v =>
      obtain ⟨directory, serving⟩ :=
        serving_first rfl absent fresh (about m (List.mem_cons_self ..)) taken
      have views := directory.messageView
      have about' : ∀ m' ∈ msgs,
          (mSjoin s m.cptr m.sptr m.parv).toTables.AboutChannel name m' := by
        intro m' member req parsed
        rw [directory.parseSjoin] at parsed
        exact aboutTail m' member req parsed
      have run := serving.messages rfl about' (by unfold Apart; rw [views]; exact apartTail)
        (by rw [views]; exact fun m' member w known => apartHead m' member v w taken known)
      have unfolded : mSjoins s (m :: msgs) = mSjoins (mSjoin s m.cptr m.sptr m.parv) msgs := rfl
      rw [unfolded, channelView, run.found, Option.map_some, run.view, views, mergedViews]

end Tables

theorem foldl_merge_stamped (v : ChannelView) (vs : List ChannelView) :
    (vs.foldl ChannelView.merge v).stamped = Stamped.mergeAll v.stamped (vs.map (·.stamped)) := by
  induction vs generalizing v with
  | nil => rfl
  | cons w vs ih => exact ih _

theorem foldl_merge_members (v : ChannelView) (vs : List ChannelView) (u : ClientId) :
    u ∈ (vs.foldl ChannelView.merge v).members ↔ ∃ w ∈ v :: vs, u ∈ w.members := by
  induction vs generalizing v with
  | nil => simp
  | cons w vs ih =>
    rw [List.foldl_cons, ih]
    simp only [ChannelView.merge, List.mem_cons, exists_eq_or_imp, Set.mem_union, or_assoc]

/-- Two orders of the same views end in one view exactly when the stamped parts do. -/
theorem mergedViews_eq_iff {vs ws : List ChannelView} (perm : vs.Perm ws) :
    Tables.mergedViews vs = Tables.mergedViews ws ↔
      Stamped.arrive Tables.freshValue (vs.map (·.stamped)) =
        Stamped.arrive Tables.freshValue (ws.map (·.stamped)) := by
  cases vs with
  | nil => rw [perm.symm.eq_nil]; simp
  | cons v vs =>
    cases ws with
    | nil => exact absurd perm.eq_nil (by simp)
    | cons w ws =>
      simp only [Tables.mergedViews, List.map_cons, Stamped.arrive, Option.some.injEq]
      have stamped : ∀ (x : ChannelView) (xs : List ChannelView),
          (xs.foldl ChannelView.merge
            ⟨x.stamped.start Tables.freshValue, x.members⟩).stamped =
          Stamped.mergeAll (x.stamped.start Tables.freshValue) (xs.map (·.stamped)) :=
        fun x xs => foldl_merge_stamped _ xs
      constructor
      · intro same
        rw [← stamped, ← stamped, same]
      · intro same
        rw [← stamped, ← stamped] at same
        refine ChannelView.ext same ?_
        ext u
        have members : ∀ (x : ChannelView) (xs : List ChannelView),
            u ∈ (xs.foldl ChannelView.merge
              ⟨x.stamped.start Tables.freshValue, x.members⟩).members ↔
            ∃ y ∈ x :: xs, u ∈ y.members := by
          intro x xs
          rw [foldl_merge_members]
          simp only [List.mem_cons, exists_eq_or_imp]
        rw [members, members]
        exact exists_congr fun x => and_congr_left' perm.mem_iff

/-- The default of a fresh channel is below a value exactly when its limit is not negative. -/
theorem freshValue_le_iff (v : SjoinValue) : Tables.freshValue ≤ v ↔ 0 ≤ v.2.1 := by
  constructor
  · intro below
    exact below.2.1
  · intro limit
    refine ⟨fun f => Bool.false_le _, limit, ?_, Set.empty_subset _, Set.empty_subset _⟩
    exact not_lt.1 (List.not_lt_nil _)

def Tables.OneTs (t : Tables) (msgs : List SjoinMessage) : Prop :=
  ∀ m ∈ msgs, ∀ m' ∈ msgs, ∀ req req', parseSjoin t m.sptr m.parv = some req →
    parseSjoin t m'.sptr m'.parv = some req' → req.newts = req'.newts

def Tables.OldestLimit (t : Tables) (msgs : List SjoinMessage) : Prop :=
  ∃ m ∈ msgs, ∃ req, parseSjoin t m.sptr m.parv = some req ∧ 0 ≤ req.mode.limit ∧
    ∀ m' ∈ msgs, ∀ req', parseSjoin t m'.sptr m'.parv = some req' → req.newts ≤ req'.newts

/-- SJOINs for a new channel end in one view whatever their order exactly when they
have one TS or the oldest of them do not all set a negative limit: the first SJOIN
is merged into the limit 0 that `memset` left, an older one replaces it. -/
theorem mSjoins_order_independent_iff (s : Server) (name : CStr) (msgs : List SjoinMessage)
    (absent : s.hashFindChannel name = none)
    (fresh : ∀ u, s.isMember u s.nextChan = false)
    (about : ∀ m ∈ msgs, s.AboutChannel name m) (apart : msgs.Pairwise s.Apart) :
    (∀ msgs' : List SjoinMessage, msgs'.Perm msgs →
      (mSjoins s msgs').channelView name = (mSjoins s msgs).channelView name) ↔
      s.OneTs msgs ∨ s.OldestLimit msgs := by
  have symmetric : ∀ {m m' : SjoinMessage}, s.Apart m m' → s.Apart m' m :=
    fun disjoint v v' known known' => (disjoint v' v known' known).symm
  have result : ∀ msgs' : List SjoinMessage, msgs'.Perm msgs →
      ((mSjoins s msgs').channelView name = (mSjoins s msgs).channelView name ↔
        Stamped.arrive Tables.freshValue
            (msgs'.filterMap fun m => (s.messageView m).map (·.stamped)) =
          Stamped.arrive Tables.freshValue
            (msgs.filterMap fun m => (s.messageView m).map (·.stamped))) := by
    intro msgs' perm
    rw [Tables.mSjoins_channelView s absent fresh about apart,
      Tables.mSjoins_channelView s absent fresh (fun m member => about m (perm.subset member))
        (perm.symm.pairwise apart symmetric),
      mergedViews_eq_iff (perm.filterMap _), List.map_filterMap, List.map_filterMap]
  have reduced : (∀ msgs' : List SjoinMessage, msgs'.Perm msgs →
      (mSjoins s msgs').channelView name = (mSjoins s msgs).channelView name) ↔
      ∀ msgs' : List SjoinMessage, msgs'.Perm msgs →
        Stamped.arrive Tables.freshValue
            (msgs'.filterMap fun m => (s.messageView m).map (·.stamped)) =
          Stamped.arrive Tables.freshValue
            (msgs.filterMap fun m => (s.messageView m).map (·.stamped)) :=
    forall_congr' fun msgs' => forall_congr' fun perm => result msgs' perm
  -- the view of the channel is the merge of the requests, so only the order of merging is left
  rw [reduced]
  have view : ∀ m req, parseSjoin s.toTables m.sptr m.parv = some req →
      (s.messageView m).map (·.stamped) = some (s.requestView m.cptr req).stamped := by
    intro m req parsed
    rw [Tables.messageView, parsed]
    rfl
  have request : ∀ y ∈ msgs.filterMap (fun m => (s.messageView m).map (·.stamped)),
      ∃ m ∈ msgs, ∃ req, parseSjoin s.toTables m.sptr m.parv = some req ∧
        y = (s.requestView m.cptr req).stamped := by
    intro y member
    obtain ⟨m, hm, known⟩ := List.mem_filterMap.1 member
    rw [Tables.messageView, Option.map_map] at known
    obtain ⟨req, parsed, rfl⟩ := Option.map_eq_some_iff.1 known
    exact ⟨m, hm, req, parsed, rfl⟩
  have stamped : ∀ m ∈ msgs, ∀ req, parseSjoin s.toTables m.sptr m.parv = some req →
      (s.requestView m.cptr req).stamped ∈
        msgs.filterMap (fun m => (s.messageView m).map (·.stamped)) :=
    fun m hm req parsed => List.mem_filterMap.2 ⟨m, hm, view m req parsed⟩
  -- no message is accepted, or the first accepted one makes the channel
  cases taken : msgs.filterMap (fun m => (s.messageView m).map (·.stamped)) with
  | nil =>
    have nothing : ∀ m ∈ msgs, ∀ req, parseSjoin s.toTables m.sptr m.parv ≠ some req := by
      intro m hm req parsed
      have member := stamped m hm req parsed
      rw [taken] at member
      cases member
    refine iff_of_true (fun msgs' perm => ?_) (Or.inl fun m hm _ _ req _ parsed =>
      absurd parsed (nothing m hm req))
    have none := perm.filterMap fun m => (s.messageView m).map (·.stamped)
    rw [taken] at none
    rw [none.eq_nil]
  | cons x xs =>
    rw [taken] at request stamped
    rw [← taken, Stamped.arrive_perm_iff _ Tables.freshValue taken, freshValue_le_iff]
    refine or_congr ?_ ?_
    -- one stamp for all of them, or a limit that the oldest one keeps
    · constructor
      · intro same m hm m' hm' req req' parsed parsed'
        exact same _ (stamped m hm req parsed) _ (stamped m' hm' req' parsed')
      · intro same y hy z hz
        obtain ⟨m, hm, req, parsed, rfl⟩ := request y hy
        obtain ⟨m', hm', req', parsed', rfl⟩ := request z hz
        exact same m hm m' hm' req req' parsed parsed'
    · have prime : ∀ v w : SjoinValue, 0 ≤ (v ⊔ w).2.1 ↔ 0 ≤ v.2.1 ∨ 0 ≤ w.2.1 :=
        fun v w => le_max_iff
      refine (@Stamped.value_mergeAll_iff _ _ _ _ (fun v : SjoinValue => 0 ≤ v.2.1) prime x xs).trans
        ?_
      constructor
      · rintro ⟨y, hy, lowest, limit⟩
        obtain ⟨m, hm, req, parsed, rfl⟩ := request y hy
        refine ⟨m, hm, req, parsed, limit, fun m' hm' req' parsed' => ?_⟩
        exact lowest.le.trans (Stamped.stamp_mergeAll_le x xs _ (stamped m' hm' req' parsed'))
      · rintro ⟨m, hm, req, parsed, limit, lowest⟩
        refine ⟨_, stamped m hm req parsed, le_antisymm ?_ ?_, limit⟩
        · obtain ⟨y, hy, same⟩ := Stamped.exists_stamp_mergeAll x xs
          obtain ⟨m', hm', req', parsed', rfl⟩ := request y hy
          rw [same]
          exact lowest m' hm' req' parsed'
        · exact Stamped.stamp_mergeAll_le x xs _ (stamped m hm req parsed)

def twoLinks : Server :=
  let link (name : CStr) (u : ClientId) : Client :=
    { Client.zero with name := name, status := .server, localFlag := true, from_ := u }
  let remote (name : CStr) (u : ClientId) : Client :=
    { Client.zero with name := name, status := .client, user := true, from_ := u }
  ((((Server.startUp "hub.net".toList 1000).edit (·.addClient 1 (link "one.net".toList 1))).edit
    (·.addClient 2 (remote "anna".toList 1))).edit
    (·.addClient 3 (link "two.net".toList 3))).edit
    (·.addClient 4 (remote "bert".toList 3))

def olderSjoin : SjoinMessage where
  cptr := 1
  sptr := 1
  parv := ["one.net".toList, "10".toList, "#c".toList, "+l".toList, "-5".toList, "@anna".toList]

def newerSjoin : SjoinMessage where
  cptr := 3
  sptr := 3
  parv := ["two.net".toList, "20".toList, "#c".toList, "+".toList, "@bert".toList]

theorem parse_olderSjoin : parseSjoin twoLinks.toTables 1 olderSjoin.parv =
    some { sender := "one.net".toList, newts := 10, name := "#c".toList, letters := "+l".toList,
           mode := { Mode.zero with limit := -5 }, nicks := "@anna".toList } := by
  rfl

theorem parse_newerSjoin : parseSjoin twoLinks.toTables 3 newerSjoin.parv =
    some { sender := "two.net".toList, newts := 20, name := "#c".toList, letters := "+".toList,
           mode := Mode.zero, nicks := "@bert".toList } := by
  rfl

theorem twoLinks_messages {m : SjoinMessage} (member : m ∈ [olderSjoin, newerSjoin]) :
    (m = olderSjoin ∨ m = newerSjoin) := by
  simpa using member

theorem twoLinks_about : ∀ m ∈ [olderSjoin, newerSjoin], twoLinks.AboutChannel "#c".toList m := by
  intro m member req parsed
  rcases twoLinks_messages member with rfl | rfl
  · cases parse_olderSjoin.symm.trans parsed
    exact ⟨by decide, by decide⟩
  · cases parse_newerSjoin.symm.trans parsed
    exact ⟨by decide, by decide⟩

theorem requestView_members_single {t : Tables} {cptr a : ClientId} {req : SjoinRequest}
    {s0 : CStr} (one : tokens isBlank req.nicks = [s0]) (known : t.resolveNick cptr s0 = some a) :
    (t.requestView cptr req).members ⊆ {a} := by
  intro u inside
  have arrives : (t.arrivals cptr true req u).isSome = true := inside
  simp only [Tables.arrivals, one, List.findSome?_cons, List.findSome?_nil, Tables.arrival, known,
    Option.some.injEq] at arrives
  by_contra other
  rw [if_neg (fun both => other both.1.symm)] at arrives
  cases arrives

theorem twoLinks_apart : [olderSjoin, newerSjoin].Pairwise twoLinks.Apart := by
  refine List.pairwise_pair.2 fun v w older newer => ?_
  obtain ⟨req, parsed, rfl⟩ := Option.map_eq_some_iff.1 older
  obtain ⟨req', parsed', rfl⟩ := Option.map_eq_some_iff.1 newer
  cases parse_olderSjoin.symm.trans parsed
  cases parse_newerSjoin.symm.trans parsed'
  refine Set.disjoint_of_subset (requestView_members_single rfl rfl)
    (requestView_members_single rfl rfl) ?_
  exact Set.disjoint_singleton.2 (by decide)

def Tables.KnownNicks (t : Tables) (m : SjoinMessage) : Prop :=
  ∀ req, parseSjoin t m.sptr m.parv = some req → ∀ s0 ∈ tokens isBlank req.nicks,
    ∃ u, t.resolveNick m.cptr s0 = some u ∧ (t.client u).user = true

theorem twoLinks_order_dependent :
    twoLinks.hashFindChannel "#c".toList = none ∧
      (∀ m ∈ [olderSjoin, newerSjoin],
        twoLinks.AboutChannel "#c".toList m ∧ twoLinks.KnownNicks m) ∧
      [olderSjoin, newerSjoin].Pairwise twoLinks.Apart ∧
      (mSjoins twoLinks [newerSjoin, olderSjoin]).channelView "#c".toList ≠
        (mSjoins twoLinks [olderSjoin, newerSjoin]).channelView "#c".toList := by
  refine ⟨by decide, fun m member => ⟨twoLinks_about m member, ?_⟩, twoLinks_apart, ?_⟩
  · intro req parsed s0 token
    rcases twoLinks_messages member with rfl | rfl
    · cases parse_olderSjoin.symm.trans parsed
      cases List.mem_singleton.1 (show s0 ∈ ["@anna".toList] from token)
      exact ⟨2, rfl, rfl⟩
    · cases parse_newerSjoin.symm.trans parsed
      cases List.mem_singleton.1 (show s0 ∈ ["@bert".toList] from token)
      exact ⟨4, rfl, rfl⟩
  · intro same
    have limits := congrArg (Option.map fun v : ChannelView => v.stamped.value.2.1) same
    have second : ((mSjoins twoLinks [newerSjoin, olderSjoin]).channelView "#c".toList).map
        (fun v : ChannelView => v.stamped.value.2.1) = some (-5) := by
      decide +kernel
    have first : ((mSjoins twoLinks [olderSjoin, newerSjoin]).channelView "#c".toList).map
        (fun v : ChannelView => v.stamped.value.2.1) = some 0 := by
      decide +kernel
    rw [second, first] at limits
    cases limits

theorem twoLinks_order_independent_iff :
    (∀ msgs' : List SjoinMessage, msgs'.Perm [olderSjoin, newerSjoin] →
      (mSjoins twoLinks msgs').channelView "#c".toList =
        (mSjoins twoLinks [olderSjoin, newerSjoin]).channelView "#c".toList) ↔
      twoLinks.OneTs [olderSjoin, newerSjoin] ∨ twoLinks.OldestLimit [olderSjoin, newerSjoin] :=
  mSjoins_order_independent_iff twoLinks "#c".toList [olderSjoin, newerSjoin] rfl
    (fun u => by
      by_cases me : u = 0
      · subst me; rfl
      by_cases one : u = 1
      · subst one; rfl
      by_cases two : u = 2
      · subst two; rfl
      by_cases three : u = 3
      · subst three; rfl
      by_cases four : u = 4
      · subst four; rfl
      simp [Tables.isMember, twoLinks, Tables.addClient, Server.edit, Server.startUp, me, one, two,
        three, four, Client.zero])
    twoLinks_about twoLinks_apart

end Ircd
