import Ircd.Channel.SjoinView
import Ircd.Channel.Lifetime

/-! When the view of the local members stays in step with an SJOIN.

A nick that the view holds and no member of the channel will ever have keeps the view
astray to the end of the line, so the first token that announces what is not so decides.
-/

set_option autoImplicit false

namespace Ircd

namespace Tables

/-- The nicks of the members whose flags satisfy `p`. -/
def nicks (t : Tables) (c : ChanId) (p : MemberFlags → Bool) : Finset CStr :=
  (((t.chan c).members.filter fun link => p link.flags).map fun link =>
    foldNick (t.nameOf link.cptr)).toFinset

def localView (t : Tables) (c : ChanId) : LocalView where
  mode := (t.chan c).mode
  members := t.nicks c fun _ => true
  ops := t.nicks c MemberFlags.chanop
  voices := t.nicks c MemberFlags.voice

theorem mem_nicks {t : Tables} {c : ChanId} {p : MemberFlags → Bool} {x : CStr} :
    x ∈ t.nicks c p ↔
      ∃ link ∈ (t.chan c).members, p link.flags = true ∧ foldNick (t.nameOf link.cptr) = x := by
  simp only [nicks, List.mem_toFinset, List.mem_map, List.mem_filter, and_assoc]

end Tables

section Taken

open Server

variable (t : Tables) (links : List Member) (w : LocalView)

theorem takenFrom_same : (takenFrom t links w).mode = w.mode ∧
    (takenFrom t links w).members = w.members := by
  induction links generalizing w with
  | nil => exact ⟨rfl, rfl⟩
  | cons link links ih =>
    obtain ⟨mode, members⟩ := ih (let w :=
      if link.flags.chanop then w.setOp false (t.nameOf link.cptr) else w
      if link.flags.voice then w.setVoice false (t.nameOf link.cptr) else w)
    refine ⟨mode.trans ?_, members.trans ?_⟩ <;>
      cases link.flags.chanop <;> cases link.flags.voice <;> rfl

theorem mem_takenFrom_ops {x : CStr} : x ∈ (takenFrom t links w).ops ↔
    x ∈ w.ops ∧ ∀ link ∈ links, link.flags.chanop = true → foldNick (t.nameOf link.cptr) ≠ x := by
  induction links generalizing w with
  | nil => simp [takenFrom]
  | cons link links ih =>
    rw [takenFrom, List.foldl_cons, ← takenFrom, ih, List.forall_mem_cons]
    have erased : ∀ a : CStr, (x ≠ a ∧ x ∈ w.ops) ↔ (x ∈ w.ops ∧ a ≠ x) := fun a =>
      ⟨fun both => ⟨both.2, both.1.symm⟩, fun both => ⟨both.2.symm, both.1⟩⟩
    cases link.flags.chanop <;> cases link.flags.voice <;>
      simp [LocalView.setOp, LocalView.setVoice, erased, and_assoc]

theorem mem_takenFrom_voices {x : CStr} : x ∈ (takenFrom t links w).voices ↔
    x ∈ w.voices ∧ ∀ link ∈ links, link.flags.voice = true → foldNick (t.nameOf link.cptr) ≠ x := by
  induction links generalizing w with
  | nil => simp [takenFrom]
  | cons link links ih =>
    rw [takenFrom, List.foldl_cons, ← takenFrom, ih, List.forall_mem_cons]
    have erased : ∀ a : CStr, (x ≠ a ∧ x ∈ w.voices) ↔ (x ∈ w.voices ∧ a ≠ x) := fun a =>
      ⟨fun both => ⟨both.2, both.1.symm⟩, fun both => ⟨both.2.symm, both.1⟩⟩
    cases link.flags.chanop <;> cases link.flags.voice <;>
      simp [LocalView.setOp, LocalView.setVoice, erased, and_assoc]

theorem decidedView_localView (t : Tables) (c : ChanId) (req : SjoinRequest) (ts : SjoinTs) :
    decidedView t c req ts (t.localView c) =
      (t.setChan c (Tables.sjoinDecided (t.chan c) ts req.mode)).localView c := by
  have here : (t.setChan c (Tables.sjoinDecided (t.chan c) ts req.mode)).chan c =
      Tables.sjoinDecided (t.chan c) ts req.mode := by rw [Tables.setChan_chan, if_pos rfl]
  have nameOf : (t.setChan c (Tables.sjoinDecided (t.chan c) ts req.mode)).nameOf = t.nameOf := rfl
  unfold decidedView Tables.localView Tables.nicks
  rw [here, nameOf]
  unfold Tables.sjoinDecided
  cases ts.keepOurModes with
  | true => rfl
  | false =>
    simp only [Bool.false_eq_true, if_false]
    -- our side lost: the line of `-o` and `-v` names all who had either
    generalize hview : (LocalView.mk (sjoinMerge ts (t.chan c).mode req.mode) _ _ _) = v
    obtain ⟨mode, members⟩ := takenFrom_same t (t.chan c).members v
    refine LocalView.ext (mode.trans ?_) (members.trans ?_) ?_ ?_
    · rw [← hview]
      rfl
    · rw [← hview]
      simp [Channel.wipeFlags, Function.comp_def]
    · ext x
      rw [mem_takenFrom_ops, ← hview]
      simp only [Channel.wipeFlags, MemberFlags.wipe, List.mem_toFinset, List.mem_map,
        List.mem_filter, ne_eq]
      constructor
      · rintro ⟨⟨link, ⟨inside, flagged⟩, named⟩, none⟩
        exact absurd named (none link inside flagged)
      · rintro ⟨link, ⟨⟨old, _, rfl⟩, flagged⟩, _⟩
        cases flagged
    · ext x
      rw [mem_takenFrom_voices, ← hview]
      simp only [Channel.wipeFlags, MemberFlags.wipe, List.mem_toFinset, List.mem_map,
        List.mem_filter, ne_eq]
      constructor
      · rintro ⟨⟨link, ⟨inside, flagged⟩, named⟩, none⟩
        exact absurd named (none link inside flagged)
      · rintro ⟨link, ⟨⟨old, _, rfl⟩, flagged⟩, _⟩
        cases flagged

end Taken

namespace Tables

structure Known (t : Tables) (c : ChanId) : Prop where
  mirrored : t.Mirrored c
  nodup : (t.chan c).memberIds.Nodup
  listed : ∀ u ∈ (t.chan c).memberIds, u ∈ t.clients
  apart : ∀ u ∈ t.clients, ∀ v ∈ t.clients, irccmp (t.nameOf u) (t.nameOf v) = .eq → u = v
  chased : ∀ nick a, t.chase nick = some a → a ∈ t.clients

/-- What a token announces is so: a new member is a user that goes by this nick, and a
member, `held` giving its flags, has the flags of the token already. -/
def TrueNick (t : Tables) (cptr : ClientId) (keepNewModes : Bool)
    (held : ClientId → Option MemberFlags) (s0 : CStr) : Prop :=
  ∀ a, t.resolveNick cptr s0 = some a →
    let fl := sjoinNickFlags keepNewModes s0
    let named := irccmp (stripPrefixes s0) (t.nameOf a) = .eq
    match held a with
    | none => (t.client a).user = true ∧ named
    | some old =>
      (fl.chanop = true → named ∧ old.chanop = true) ∧ (fl.voice = true → named ∧ old.voice = true)

variable {t : Tables} {cptr : ClientId} {c : ChanId} {keepNewModes : Bool} {s0 : CStr}

theorem foldNick_eq_iff {a b : CStr} : foldNick a = foldNick b ↔ irccmp a b = .eq :=
  (irccmp_eq_iff a b).symm

theorem flagsOf_of_nodup {ch : Channel} (nodup : ch.memberIds.Nodup) {link : Member}
    (inside : link ∈ ch.members) : ch.flagsOf link.cptr = some link.flags := by
  have found : ∀ links : List Member, (links.map Member.cptr).Nodup → link ∈ links →
      links.find? (fun other => other.cptr == link.cptr) = some link := by
    intro links nodup inside
    induction links with
    | nil => cases inside
    | cons first links ih =>
      obtain ⟨fresh, nodup⟩ := List.nodup_cons.1 nodup
      rcases List.mem_cons.1 inside with rfl | later
      · rw [List.find?_cons_of_pos (by simp)]
      · have other : first.cptr ≠ link.cptr := fun same =>
          fresh (same ▸ List.mem_map_of_mem later)
        rw [List.find?_cons_of_neg (by simpa using other)]
        exact ih nodup later
  rw [Channel.flagsOf, Channel.findUserLink, found ch.members nodup inside]
  rfl

theorem Known.flagsOf (known : t.Known c) {link : Member} (inside : link ∈ (t.chan c).members) :
    (t.chan c).flagsOf link.cptr = some link.flags := flagsOf_of_nodup known.nodup inside

theorem memberIds_addUserToChannel (a : ClientId) (fl : MemberFlags)
    (user : (t.client a).user = true) :
    ((t.addUserToChannel c a fl).chan c).memberIds = a :: (t.chan c).memberIds := by
  rw [addUserToChannel_chan, if_pos ⟨rfl, user⟩]
  rfl

theorem resolveNick_eq_some {a : ClientId} (found : t.resolveNick cptr s0 = some a) :
    t.chase (stripPrefixes s0) = some a := by
  unfold resolveNick at found
  cases chased : t.chase (stripPrefixes s0) with
  | none => simp [chased] at found
  | some b =>
    simp only [chased] at found
    split at found
    · exact found
    · cases found

theorem Known.admitNick (known : t.Known c) (cptr : ClientId) (keepNewModes : Bool) (s0 : CStr) :
    (t.admitNick cptr c keepNewModes s0).Known c := by
  have directory := sameDirectory_admitNick cptr c keepNewModes t s0
  -- a nick adds one member or none
  have members : ((t.admitNick cptr c keepNewModes s0).chan c).memberIds = (t.chan c).memberIds ∨
      ∃ a, a ∈ t.clients ∧ a ∉ (t.chan c).memberIds ∧
        ((t.admitNick cptr c keepNewModes s0).chan c).memberIds = a :: (t.chan c).memberIds := by
    unfold Tables.admitNick
    cases found : t.resolveNick cptr s0 with
    | none => exact .inl rfl
    | some a =>
      dsimp only
      split
      · exact .inl rfl
      · next outside =>
        by_cases user : (t.client a).user = true
        · exact .inr ⟨a, known.chased _ a (resolveNick_eq_some found),
            fun member => outside ((known.mirrored a).2 member), memberIds_addUserToChannel a _ user⟩
        · rw [addUserToChannel_chan, if_neg fun both => user both.2]
          exact .inl rfl
  have nameOf := directory.nameOf
  refine ⟨known.mirrored.admitNick cptr c keepNewModes s0, ?_, ?_, ?_, ?_⟩
  · rcases members with same | ⟨a, _, fresh, grown⟩
    · rw [same]
      exact known.nodup
    · rw [grown]
      exact List.nodup_cons.2 ⟨fresh, known.nodup⟩
  · intro u member
    rw [directory.clients]
    rcases members with same | ⟨a, listed, _, grown⟩
    · exact known.listed u (same ▸ member)
    · rw [grown] at member
      rcases List.mem_cons.1 member with rfl | old
      · exact listed
      · exact known.listed u old
  · intro u hu v hv same
    rw [directory.clients] at hu hv
    rw [nameOf, nameOf] at same
    exact known.apart u hu v hv same
  · intro nick a found
    rw [directory.chase] at found
    rw [directory.clients]
    exact known.chased nick a found

/-- No member has the nick `x` with the flag `p`, nor will have it. -/
def Stuck (t : Tables) (c : ChanId) (p : MemberFlags → Bool) (x : CStr) : Prop :=
  ∀ u ∈ t.clients, foldNick (t.nameOf u) = x →
    (∃ fl, (t.chan c).flagsOf u = some fl ∧ p fl = false) ∨
      ((t.client u).user = false ∧ (t.chan c).flagsOf u = none)

def Astray (t : Tables) (c : ChanId) (v : LocalView) : Prop :=
  (∃ x ∈ v.members, t.Stuck c (fun _ => true) x) ∨ (∃ x ∈ v.ops, t.Stuck c MemberFlags.chanop x) ∨
    ∃ x ∈ v.voices, t.Stuck c MemberFlags.voice x

theorem Stuck.not_mem {p : MemberFlags → Bool} {x : CStr} (stuck : t.Stuck c p x)
    (known : t.Known c) : x ∉ t.nicks c p := by
  intro inside
  obtain ⟨link, member, flagged, named⟩ := mem_nicks.1 inside
  have flags := known.flagsOf member
  have listed := known.listed link.cptr (List.mem_map_of_mem member)
  rcases stuck link.cptr listed named with ⟨fl, held, without⟩ | ⟨_, absent⟩
  · rw [flags] at held
    cases held
    rw [without] at flagged
    cases flagged
  · rw [flags] at absent
    cases absent

theorem Astray.ne {v : LocalView} (astray : t.Astray c v) (known : t.Known c) :
    v ≠ t.localView c := by
  rintro rfl
  rcases astray with ⟨x, inside, stuck⟩ | ⟨x, inside, stuck⟩ | ⟨x, inside, stuck⟩ <;>
    exact stuck.not_mem known inside

theorem Stuck.admitNick {p : MemberFlags → Bool} {x : CStr} (stuck : t.Stuck c p x)
    (known : t.Known c) (cptr : ClientId) (keepNewModes : Bool) (s0 : CStr) :
    (t.admitNick cptr c keepNewModes s0).Stuck c p x := by
  have directory := sameDirectory_admitNick cptr c keepNewModes t s0
  intro u listed named
  rw [directory.clients] at listed
  rw [directory.nameOf] at named
  rw [known.mirrored.admitNick_flagsOf, directory.user]
  rcases stuck u listed named with ⟨fl, held, without⟩ | ⟨nobody, absent⟩
  · exact .inl ⟨fl, by rw [held]; rfl, without⟩
  · refine .inr ⟨nobody, ?_⟩
    rw [absent, arrival, if_neg fun both => by rw [nobody] at both; cases both.2]
    rfl

theorem announced_grows (v : LocalView) : v.members ⊆ (t.announced cptr c keepNewModes v s0).members ∧
    v.ops ⊆ (t.announced cptr c keepNewModes v s0).ops ∧
    v.voices ⊆ (t.announced cptr c keepNewModes v s0).voices := by
  unfold announced
  cases t.resolveNick cptr s0 with
  | none => exact ⟨subset_rfl, subset_rfl, subset_rfl⟩
  | some a =>
    dsimp only
    cases t.isMember a c <;> cases (sjoinNickFlags keepNewModes s0).chanop <;>
      cases (sjoinNickFlags keepNewModes s0).voice <;>
      simp [LocalView.join, LocalView.setOp, LocalView.setVoice, Finset.subset_insert]

theorem Astray.step {v : LocalView} (astray : t.Astray c v) (known : t.Known c) :
    (t.admitNick cptr c keepNewModes s0).Astray c (t.announced cptr c keepNewModes v s0) := by
  obtain ⟨members, ops, voices⟩ := @announced_grows t cptr c keepNewModes s0 v
  rcases astray with ⟨x, inside, stuck⟩ | ⟨x, inside, stuck⟩ | ⟨x, inside, stuck⟩
  · exact .inl ⟨x, members inside, stuck.admitNick known cptr keepNewModes s0⟩
  · exact .inr (.inl ⟨x, ops inside, stuck.admitNick known cptr keepNewModes s0⟩)
  · exact .inr (.inr ⟨x, voices inside, stuck.admitNick known cptr keepNewModes s0⟩)

theorem nicks_addUserToChannel (a : ClientId) (fl : MemberFlags)
    (user : (t.client a).user = true) (p : MemberFlags → Bool) :
    (t.addUserToChannel c a fl).nicks c p =
      if p fl then insert (foldNick (t.nameOf a)) (t.nicks c p) else t.nicks c p := by
  have nameOf : (t.addUserToChannel c a fl).nameOf = t.nameOf :=
    funext (sameDirectory_addUserToChannel t c a fl).nameOf
  have members : ((t.addUserToChannel c a fl).chan c).members =
      { cptr := a, flags := fl } :: (t.chan c).members := by
    rw [addUserToChannel_chan, if_pos ⟨rfl, user⟩]
  rw [nicks, members, nameOf, List.filter_cons]
  dsimp only
  split
  · rw [List.map_cons, List.toFinset_cons]
    rfl
  · rfl

theorem link_of_flagsOf {ch : Channel} {u : ClientId} {fl : MemberFlags}
    (held : ch.flagsOf u = some fl) : ∃ link ∈ ch.members, link.cptr = u ∧ link.flags = fl := by
  obtain ⟨link, found, flags⟩ := Option.map_eq_some_iff.1 held
  exact ⟨link, List.mem_of_find?_eq_some found, by simpa using List.find?_some found, flags⟩

theorem TrueNick.step (true_ : t.TrueNick cptr keepNewModes (t.chan c).flagsOf s0)
    (known : t.Known c) :
    t.announced cptr c keepNewModes (t.localView c) s0 =
      (t.admitNick cptr c keepNewModes s0).localView c := by
  unfold announced Tables.admitNick
  cases found : t.resolveNick cptr s0 with
  | none => rfl
  | some a =>
    have honest := true_ a found
    dsimp only at honest ⊢
    -- a nick that is new is announced as joining, one that is there as opped or voiced
    cases held : (t.chan c).flagsOf a with
    | none =>
      rw [held] at honest
      obtain ⟨user, named⟩ := honest
      have outside : t.isMember a c = false := (known.mirrored.flagsOf_eq_none a).1 held
      have fold : foldNick (stripPrefixes s0) = foldNick (t.nameOf a) := foldNick_eq_iff.2 named
      have settings := (sameChannels_addUserToChannel t c a (sjoinNickFlags keepNewModes s0)).settings c
      rw [outside]
      simp only [Bool.false_eq_true, if_false]
      refine LocalView.ext ?_ ?_ ?_ ?_
      · rw [localView, localView, settings.mode]
        cases (sjoinNickFlags keepNewModes s0).chanop <;>
          cases (sjoinNickFlags keepNewModes s0).voice <;> rfl
      · rw [localView, localView]
        dsimp only
        rw [nicks_addUserToChannel a _ user, if_pos rfl, ← fold]
        cases (sjoinNickFlags keepNewModes s0).chanop <;>
          cases (sjoinNickFlags keepNewModes s0).voice <;> rfl
      · rw [localView, localView]
        dsimp only
        rw [nicks_addUserToChannel a _ user, ← fold]
        cases (sjoinNickFlags keepNewModes s0).chanop <;>
          cases (sjoinNickFlags keepNewModes s0).voice <;> rfl
      · rw [localView, localView]
        dsimp only
        rw [nicks_addUserToChannel a _ user, ← fold]
        cases (sjoinNickFlags keepNewModes s0).chanop <;>
          cases (sjoinNickFlags keepNewModes s0).voice <;> rfl
    | some old =>
      rw [held] at honest
      obtain ⟨op, voice⟩ := honest
      have member : t.isMember a c = true := by
        rw [known.mirrored a, ← Channel.flagsOf_isSome, held]
        rfl
      have has : ∀ p : MemberFlags → Bool, irccmp (stripPrefixes s0) (t.nameOf a) = .eq →
          p old = true → foldNick (stripPrefixes s0) ∈ t.nicks c p := by
        intro p named flagged
        obtain ⟨link, inside, same, flags⟩ := link_of_flagsOf held
        refine mem_nicks.2 ⟨link, inside, flags ▸ flagged, ?_⟩
        rw [same]
        exact (foldNick_eq_iff.2 named).symm
      rw [member]
      simp only [if_true]
      have opped : (if (sjoinNickFlags keepNewModes s0).chanop then
          (t.localView c).setOp true (stripPrefixes s0) else t.localView c) = t.localView c := by
        split
        · next flagged =>
          have known : foldNick (stripPrefixes s0) ∈ (t.localView c).ops :=
            has MemberFlags.chanop (op flagged).1 (op flagged).2
          exact LocalView.ext rfl rfl (Finset.insert_eq_of_mem known) rfl
        · rfl
      rw [opped]
      split
      · next flagged =>
        have known : foldNick (stripPrefixes s0) ∈ (t.localView c).voices :=
          has MemberFlags.voice (voice flagged).1 (voice flagged).2
        exact LocalView.ext rfl rfl rfl (Finset.insert_eq_of_mem known)
      · rfl

/-- The nick of a client is the only name by which the server finds it at once. -/
theorem unnamed_of_chase {nick : CStr} {a : ClientId} (found : t.chase nick = some a)
    (other : irccmp nick (t.nameOf a) ≠ .eq) :
    ∀ u ∈ t.clients, foldNick (t.nameOf u) ≠ foldNick nick := by
  intro u listed same
  unfold chase at found
  cases here : t.findClient nick with
  | none =>
    rw [findClient, List.find?_eq_none] at here
    exact here u listed (beq_iff_eq.2 (irccmp_comm (foldNick_eq_iff.1 same)))
  | some b =>
    rw [here] at found
    cases found
    unfold findClient at here
    exact other (by simpa using List.find?_some here)

theorem announced_shows (v : LocalView) {a : ClientId} (found : t.resolveNick cptr s0 = some a) :
    (t.isMember a c = false →
        foldNick (stripPrefixes s0) ∈ (t.announced cptr c keepNewModes v s0).members) ∧
      ((sjoinNickFlags keepNewModes s0).chanop = true →
        foldNick (stripPrefixes s0) ∈ (t.announced cptr c keepNewModes v s0).ops) ∧
      ((sjoinNickFlags keepNewModes s0).voice = true →
        foldNick (stripPrefixes s0) ∈ (t.announced cptr c keepNewModes v s0).voices) := by
  unfold announced
  rw [found]
  dsimp only
  cases (sjoinNickFlags keepNewModes s0).chanop <;>
    cases (sjoinNickFlags keepNewModes s0).voice <;> cases t.isMember a c <;>
    simp [LocalView.join, LocalView.setOp, LocalView.setVoice]

theorem astray_of_not_trueNick (false_ : ¬ t.TrueNick cptr keepNewModes (t.chan c).flagsOf s0)
    (known : t.Known c) (v : LocalView) :
    (t.admitNick cptr c keepNewModes s0).Astray c (t.announced cptr c keepNewModes v s0) := by
  obtain ⟨a, wrong⟩ := not_forall.1 false_
  obtain ⟨found, dishonest⟩ := Classical.not_imp.1 wrong
  have chased := resolveNick_eq_some found
  have listed := known.chased _ a chased
  have directory := sameDirectory_admitNick cptr c keepNewModes t s0
  obtain ⟨joins, ops, voices⟩ := @announced_shows t cptr c keepNewModes s0 v a found
  have sole : ∀ {p : MemberFlags → Bool}, (irccmp (stripPrefixes s0) (t.nameOf a) = .eq →
      (∃ fl, (t.chan c).flagsOf a = some fl ∧ p fl = false) ∨
        ((t.client a).user = false ∧ (t.chan c).flagsOf a = none)) →
      t.Stuck c p (foldNick (stripPrefixes s0)) := by
    intro p here u inside same
    -- a name that is not the one the server knows is found by chasing, and belongs to nobody
    by_cases named : irccmp (stripPrefixes s0) (t.nameOf a) = .eq
    · have one : irccmp (t.nameOf u) (t.nameOf a) = .eq :=
        irccmp_trans (foldNick_eq_iff.1 same) named
      rw [known.apart u inside a listed one]
      exact here named
    · exact absurd same (unnamed_of_chase chased named u inside)
  -- what the line says and the tables do not have is stuck in the view
  cases held : (t.chan c).flagsOf a with
  | none =>
    rw [held] at dishonest
    dsimp only at dishonest
    have outside : t.isMember a c = false := (known.mirrored.flagsOf_eq_none a).1 held
    have stuck : t.Stuck c (fun _ => true) (foldNick (stripPrefixes s0)) := by
      apply sole
      intro named
      exact .inr ⟨Bool.eq_false_iff.2 fun user => dishonest ⟨user, named⟩, held⟩
    exact .inl ⟨_, joins outside, stuck.admitNick known cptr keepNewModes s0⟩
  | some old =>
    rw [held] at dishonest
    dsimp only at dishonest
    have lacks : ∀ p : MemberFlags → Bool,
        ¬ (irccmp (stripPrefixes s0) (t.nameOf a) = .eq ∧ p old = true) →
        t.Stuck c p (foldNick (stripPrefixes s0)) := by
      intro p without
      apply sole
      exact fun named => .inl ⟨old, held, Bool.eq_false_iff.2 fun flagged => without ⟨named, flagged⟩⟩
    rcases not_and_or.1 dishonest with badOp | badVoice
    · obtain ⟨flagged, without⟩ := Classical.not_imp.1 badOp
      exact .inr (.inl ⟨_, ops flagged,
        (lacks MemberFlags.chanop without).admitNick known cptr keepNewModes s0⟩)
    · obtain ⟨flagged, without⟩ := Classical.not_imp.1 badVoice
      exact .inr (.inr ⟨_, voices flagged,
        (lacks MemberFlags.voice without).admitNick known cptr keepNewModes s0⟩)

/-- Every token announces what is so, `held` being the flags of the members by then. -/
def TrueNicks (t : Tables) (cptr : ClientId) (keepNewModes : Bool) :
    (ClientId → Option MemberFlags) → List CStr → Prop
  | _, [] => True
  | held, s0 :: toks =>
    t.TrueNick cptr keepNewModes held s0 ∧
      t.TrueNicks cptr keepNewModes (fun u => (held u).or (t.arrival cptr keepNewModes u s0)) toks

instance (t : Tables) (cptr : ClientId) (keepNewModes : Bool)
    (held : ClientId → Option MemberFlags) (s0 : CStr) :
    Decidable (t.TrueNick cptr keepNewModes held s0) :=
  match found : t.resolveNick cptr s0 with
  | none => isTrue fun a other => by rw [found] at other; cases other
  | some a => match flags : held a with
    | none => decidable_of_iff ((t.client a).user = true ∧
        irccmp (stripPrefixes s0) (t.nameOf a) = .eq) <| by
          simp [TrueNick, found, flags]
    | some old => decidable_of_iff
        (((sjoinNickFlags keepNewModes s0).chanop = true →
            irccmp (stripPrefixes s0) (t.nameOf a) = .eq ∧ old.chanop = true) ∧
          ((sjoinNickFlags keepNewModes s0).voice = true →
            irccmp (stripPrefixes s0) (t.nameOf a) = .eq ∧ old.voice = true)) <| by
          simp [TrueNick, found, flags]

instance decidableTrueNicks (t : Tables) (cptr : ClientId) (keepNewModes : Bool) :
    (held : ClientId → Option MemberFlags) → (toks : List CStr) →
      Decidable (t.TrueNicks cptr keepNewModes held toks)
  | _, [] => isTrue trivial
  | held, s0 :: toks =>
    let arrive := fun u => (held u).or (t.arrival cptr keepNewModes u s0)
    match decidableTrueNicks t cptr keepNewModes arrive toks with
    | isTrue rest =>
      if here : t.TrueNick cptr keepNewModes held s0 then isTrue ⟨here, rest⟩
      else isFalse fun both => here both.1
    | isFalse rest => isFalse fun both => rest both.2

theorem SameDirectory.trueNick {t' : Tables} (h : SameDirectory t t')
    (held : ClientId → Option MemberFlags) :
    t'.TrueNick cptr keepNewModes held s0 ↔ t.TrueNick cptr keepNewModes held s0 := by
  simp only [TrueNick, h.resolveNick, h.user, h.nameOf]

theorem SameDirectory.trueNicks {t' : Tables} (h : SameDirectory t t')
    (held : ClientId → Option MemberFlags) (toks : List CStr) :
    t'.TrueNicks cptr keepNewModes held toks ↔ t.TrueNicks cptr keepNewModes held toks := by
  induction toks generalizing held with
  | nil => rfl
  | cons s0 toks ih =>
    have arrivals : ∀ u, t'.arrival cptr keepNewModes u s0 = t.arrival cptr keepNewModes u s0 :=
      fun u => h.arrival cptr keepNewModes u s0
    simp only [TrueNicks, h.trueNick, ih, arrivals]

theorem astray_announcedAll {toks : List CStr} {t : Tables} {v : LocalView}
    (astray : t.Astray c v) (known : t.Known c) :
    t.announcedAll cptr c keepNewModes v toks ≠
      (t.admitNicks cptr c keepNewModes toks).localView c := by
  induction toks generalizing t v with
  | nil => exact astray.ne known
  | cons s0 toks ih => exact ih (astray.step known) (known.admitNick cptr keepNewModes s0)

/-- The announcements of the nick list keep the view in step just where each is true. -/
theorem announcedAll_localView_iff {toks : List CStr} {t : Tables} (known : t.Known c) :
    t.announcedAll cptr c keepNewModes (t.localView c) toks =
        (t.admitNicks cptr c keepNewModes toks).localView c ↔
      t.TrueNicks cptr keepNewModes (t.chan c).flagsOf toks := by
  induction toks generalizing t with
  | nil => simp [announcedAll, admitNicks, TrueNicks]
  | cons s0 toks ih =>
    have after := known.admitNick cptr keepNewModes s0
    have flags : ((t.admitNick cptr c keepNewModes s0).chan c).flagsOf =
        fun u => ((t.chan c).flagsOf u).or (t.arrival cptr keepNewModes u s0) :=
      funext (known.mirrored.admitNick_flagsOf cptr c keepNewModes s0)
    rw [announcedAll, TrueNicks]
    by_cases honest : t.TrueNick cptr keepNewModes (t.chan c).flagsOf s0
    · have rest := @ih (t.admitNick cptr c keepNewModes s0) after
      rw [flags, (sameDirectory_admitNick cptr c keepNewModes t s0).trueNicks] at rest
      rw [honest.step known, iff_true_intro honest, true_and]
      exact rest
    · have astray := astray_of_not_trueNick honest known (t.localView c)
      exact iff_of_false (astray_announcedAll astray after) fun both => honest both.1

/-- What holds of the tables of a server: `parse` lets no blank into a name or a host, and
neither a nick nor a server's name holds the marks of a source. -/
structure Orderly (t : Tables) : Prop where
  sound : t.Sound
  me : isBlankFree t.meName ∧ isBlankFree (t.prefixHost t.me)
  names : ∀ u ∈ t.clients, IsWord (t.nameOf u) ∧ PlainNick (t.nameOf u)
  hosts : ∀ u ∈ t.clients, isBlankFree (t.prefixHost u)
  apart : ∀ u ∈ t.clients, ∀ v ∈ t.clients, irccmp (t.nameOf u) (t.nameOf v) = .eq → u = v
  members : ∀ c, ∀ u ∈ (t.chan c).memberIds, u ∈ t.clients
  history : ∀ w ∈ t.whowas, w.name ≠ [] ∧ PlainNick w.name ∧ ∀ a, w.online = some a → a ∈ t.clients

namespace Orderly

variable {t : Tables} (h : t.Orderly)
include h

theorem create {name : CStr} (absent : t.hashFindChannel name = none) :
    (t.createChannel name).Orderly := by
  have chan : ∀ c, (t.createChannel name).chan c =
      if c = t.nextChan then freshChannel name t.currentTime else t.chan c := by
    intro c
    by_cases new : c = t.nextChan <;> simp [createChannel, addToChannelHashTable, setChan, new]
  refine ⟨h.sound.create absent, h.me, h.names, h.hosts, h.apart, fun c u member => ?_, h.history⟩
  rw [chan] at member
  split at member
  · cases member
  · exact h.members c u member

theorem chased {nick : CStr} {a : ClientId} (found : t.chase nick = some a) :
    a ∈ t.clients ∧ nick ≠ [] ∧ PlainNick nick := by
  unfold chase at found
  cases here : t.findClient nick with
  | some b =>
    rw [here] at found
    cases found
    unfold findClient at here
    have listed := List.mem_of_find?_eq_some here
    have named : irccmp (t.nameOf a) nick = .eq :=
      irccmp_comm (by simpa using List.find?_some here)
    refine ⟨listed, ?_, plainNick_of_irccmp named (h.names a listed).2⟩
    rintro rfl
    exact (h.names a listed).1.1 (by simpa [irccmp_eq_iff] using named)
  | none =>
    simp only [here, getHistory] at found
    split at found
    · next w entry =>
      obtain ⟨named, plain, online⟩ := h.history w (List.mem_of_find?_eq_some entry)
      have same := List.find?_some entry
      simp only [Bool.and_eq_true, beq_iff_eq] at same
      refine ⟨online a found, ?_, plainNick_of_irccmp (irccmp_comm same.1) plain⟩
      rintro rfl
      have empty := (irccmp_eq_iff _ _).1 same.1
      exact named (by simpa using empty)
    · cases found

theorem known (c : ChanId) : t.Known c where
  mirrored _ := h.sound.isMember_iff
  nodup := h.sound.mirror.members_nodup c
  listed := h.members c
  apart := h.apart
  chased _ _ found := (h.chased found).1

end Orderly

end Tables

/-- `parse` cuts the parameters at blanks; only the last one may hold some. -/
def Worded (parv : List CStr) : Prop := ∀ p ∈ parv.dropLast, isBlankFree p

instance (parv : List CStr) : Decidable (Worded parv) :=
  inferInstanceAs (Decidable (∀ p ∈ parv.dropLast, ∀ c ∈ p, isBlank c = false))

theorem Worded.paramAt {parv : List CStr} (worded : Worded parv) {i : Nat}
    (before : i + 1 < parv.length) : isBlankFree (paramAt parv i) := by
  have here : i < parv.dropLast.length := by simp; omega
  have same : Ircd.paramAt parv i = parv.dropLast[i] := by
    rw [Ircd.paramAt, List.getD_eq_getElem?_getD, List.getElem?_eq_getElem (by omega),
      List.getElem_dropLast]
    rfl
  rw [same]
  exact worded _ (List.getElem_mem here)

theorem sjoinModes_legible {parv : List CStr} (worded : Worded parv) {letters : CStr}
    {mode mode' : Mode} {args args' : Nat} (read : sjoinModes parv letters mode args = some (mode', args'))
    (key : isBlankFree mode.key) (limit : -(2 ^ 31) ≤ mode.limit ∧ mode.limit < 2 ^ 31) :
    isBlankFree mode'.key ∧ -(2 ^ 31) ≤ mode'.limit ∧ mode'.limit < 2 ^ 31 := by
  fun_induction sjoinModes parv letters mode args with
  | case1 mode args =>
    cases read
    exact ⟨key, limit⟩
  | case2 => cases read
  | case3 letters mode args more ih =>
    have here : isBlankFree (paramAt parv (4 + args)) := worded.paramAt (by omega)
    exact ih read (fun c inside => here c (List.mem_of_mem_take inside)) limit
  | case4 => cases read
  | case5 letters mode args more ih =>
    have low := Int.le_bmod (x := strtol (paramAt parv (4 + args))) (m := 2 ^ 32) (by decide)
    have high := Int.bmod_lt (x := strtol (paramAt parv (4 + args))) (m := 2 ^ 32) (by decide)
    exact ih read key (by simp only [atoi]; omega)
  | case6 c letters mode args notKey notLimit f known ih => exact ih read key limit
  | case7 c letters mode args notKey notLimit unknown ih => exact ih read key limit

theorem parseSjoin_legible {t : Tables} {sptr : ClientId} {parv : List CStr} {req : SjoinRequest}
    (worded : Worded parv) (accepted : parseSjoin t sptr parv = some req) :
    isBlankFree req.sender ∧ isBlankFree req.name ∧ isBlankFree req.mode.key ∧
      -(2 ^ 31) ≤ req.mode.limit ∧ req.mode.limit < 2 ^ 31 := by
  unfold parseSjoin at accepted
  split at accepted
  · cases accepted
  next enough =>
  have long : 5 ≤ parv.length := by
    by_contra short
    exact enough (.inr (by omega))
  split at accepted
  · cases accepted
  split at accepted
  · cases accepted
  split at accepted
  · cases accepted
  split at accepted
  · cases accepted
  · next mode args read =>
    cases accepted
    obtain ⟨key, limit⟩ := sjoinModes_legible worded read (fun c inside => by cases inside)
      (by simp [Mode.zero])
    exact ⟨worded.paramAt (by omega), worded.paramAt (by omega), key, limit⟩

/-- The lines of a command as the local members of `chname` hear them. -/
def Server.heard (s s' : Server) (chname : CStr) (v : LocalView) : LocalView :=
  (s'.sent.drop s.sent.length).foldl (LocalView.watch s.toTables chname) v

/-- None of its JOIN and MODE lines loses a word to the cut. -/
def Server.HeardWhole (s s' : Server) (chname : CStr) : Prop :=
  ∀ o ∈ s'.sent.drop s.sent.length, o.Whole s.toTables chname

instance (s s' : Server) (chname : CStr) : Decidable (s.HeardWhole s' chname) :=
  inferInstanceAs (Decidable (∀ o ∈ s'.sent.drop s.sent.length, o.Whole s.toTables chname))

theorem Server.Shows.heard {chname : CStr} {s s' : Server} {v v' : LocalView}
    (shows : Server.Shows s.toTables chname s s' v v') (whole : s.HeardWhole s' chname) :
    s.heard s' chname v = v' := by
  obtain ⟨outs, sent, seen⟩ := shows
  unfold Server.HeardWhole at whole
  rw [sent, List.drop_left] at whole
  rw [Server.heard, sent, List.drop_left, seen whole]

def Tables.sjoinHeld (t : Tables) (c : ChanId) (ts : SjoinTs) (u : ClientId) :
    Option MemberFlags :=
  if ts.keepOurModes then (t.chan c).flagsOf u else ((t.chan c).flagsOf u).map MemberFlags.wipe

theorem Tables.Known.decided {t : Tables} {c : ChanId} (known : t.Known c) (ts : SjoinTs)
    (new : Mode) : (t.setChan c (Tables.sjoinDecided (t.chan c) ts new)).Known c := by
  have here : (t.setChan c (Tables.sjoinDecided (t.chan c) ts new)).chan c =
      Tables.sjoinDecided (t.chan c) ts new := by rw [Tables.setChan_chan, if_pos rfl]
  have members : (Tables.sjoinDecided (t.chan c) ts new).memberIds = (t.chan c).memberIds := by
    unfold Tables.sjoinDecided
    cases ts.keepOurModes with
    | true => rfl
    | false => simp [Channel.memberIds, Channel.wipeFlags, Function.comp_def]
  refine ⟨fun u => ?_, ?_, ?_, known.apart, known.chased⟩
  · rw [here, members]
    exact known.mirrored u
  · rw [here, members]
    exact known.nodup
  · rw [here, members]
    exact known.listed

theorem sjoinChannel_localView_iff {s : Server} {c : ChanId} {req : SjoinRequest}
    {cptr sptr : ClientId} {isnew : Bool} (known : s.toTables.Known c)
    (legible : Server.Legible s.toTables sptr c req)
    (keyTold : Server.KeyTold s.toTables c req (s.sjoinTsOf c req isnew))
    (whole : s.HeardWhole (s.sjoinChannel cptr sptr c req isnew) (s.chan c).chname) :
    s.heard (s.sjoinChannel cptr sptr c req isnew) (s.chan c).chname (s.toTables.localView c) =
        (s.sjoinChannel cptr sptr c req isnew).toTables.localView c ↔
      s.toTables.TrueNicks cptr (s.sjoinTsOf c req isnew).keepNewModes
        (s.toTables.sjoinHeld c (s.sjoinTsOf c req isnew)) (tokens isBlank req.nicks) := by
  have shows := Server.shows_sjoinChannel (v := s.toTables.localView c) legible keyTold rfl cptr
  rw [shows.heard whole, decidedView_localView, Server.sjoinChannel_toTables]
  have ts : s.toTables.sjoinTsOf c req isnew = s.sjoinTsOf c req isnew := rfl
  rw [Tables.sjoinChannel, ts]
  generalize s.sjoinTsOf c req isnew = ts
  have decided := known.decided ts req.mode
  have held : ((s.toTables.setChan c (Tables.sjoinDecided (s.chan c) ts req.mode)).chan c).flagsOf =
      s.toTables.sjoinHeld c ts := by
    funext u
    rw [Tables.setChan_chan, if_pos rfl, Tables.sjoinDecided_flagsOf]
    rfl
  have iff := @Tables.announcedAll_localView_iff cptr c ts.keepNewModes (tokens isBlank req.nicks) _
    decided
  rw [held, (Tables.sameDirectory_setChan s.toTables c _).trueNicks] at iff
  exact iff

theorem prefixHost_of_not_client {t : Tables} {u : ClientId} (other : (t.client u).isClient = false) :
    t.prefixHost u = [] := by
  simp [Tables.prefixHost, Client.isPerson, other]

def listening : List Event := network ++ [.command .join 3 3 [lit "olly", lit "#c"]]

def listeningServer : Server := Server.machine.run (Server.startUp (lit "irc.net") 100000) listening

theorem networkServer_orderly : networkServer.toTables.Orderly where
  sound := networkServer_sound
  me := by decide +kernel
  names := by decide +kernel
  hosts := by decide +kernel
  apart := by decide +kernel
  members c := by
    match c with
    | 0 => decide +kernel
    | 1 => decide +kernel
    | n + 2 =>
      have nobody : (networkServer.chan (n + 2)).memberIds = [] := by rfl
      exact fun u inside => absurd inside (nobody ▸ List.not_mem_nil)
  history w inside := by cases inside

end Ircd
