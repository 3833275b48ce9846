import Ircd.Channel.Bans
import Ircd.Channel.Frames
import Ircd.Channel.Lifetime
import Ircd.Channel.ModeParams

/-! The accounting of the three lists of masks along a run: `num_bed` and their lengths,
masks that are there twice, and the limit of a local client.

A property of the lists that additions and deletions keep is one that every event keeps:
the other commands leave the lists of a channel as they are, or free the block, or start a
new one. Nothing is said of freed blocks, which are no channels any more.
-/

set_option autoImplicit false

namespace Ircd

structure Books where
  banlist : List Ban
  exceptlist : List Ban
  invexlist : List Ban
  numBed : Int

namespace Channel

def books (ch : Channel) : Books where
  banlist := ch.banlist
  exceptlist := ch.exceptlist
  invexlist := ch.invexlist
  numBed := ch.numBed

def masks (ch : Channel) : Nat :=
  ch.banlist.length + ch.exceptlist.length + ch.invexlist.length

def Counted (ch : Channel) : Prop := ch.numBed = ch.masks

def Distinct (ch : Channel) : Prop :=
  ∀ kind, (ch.maskList kind).Pairwise fun ban ban' => irccmp ban.banstr ban'.banstr ≠ .eq

variable {ch ch' : Channel}

theorem maskList_of_books (same : ch'.books = ch.books) (kind : ListKind) :
    ch'.maskList kind = ch.maskList kind := by
  cases kind with
  | ban => exact congrArg Books.banlist same
  | exception => exact congrArg Books.exceptlist same
  | invex => exact congrArg Books.invexlist same

theorem masks_of_books (same : ch'.books = ch.books) : ch'.masks = ch.masks := by
  have bans : ch'.banlist = ch.banlist := congrArg Books.banlist same
  have exceptions : ch'.exceptlist = ch.exceptlist := congrArg Books.exceptlist same
  have invexes : ch'.invexlist = ch.invexlist := congrArg Books.invexlist same
  rw [masks, masks, bans, exceptions, invexes]

def others (ch : Channel) : ListKind → Nat
  | .ban => ch.exceptlist.length + ch.invexlist.length
  | .exception => ch.banlist.length + ch.invexlist.length
  | .invex => ch.banlist.length + ch.exceptlist.length

theorem masks_eq (ch : Channel) (kind : ListKind) :
    ch.masks = (ch.maskList kind).length + ch.others kind := by
  cases kind with
  | ban => exact Nat.add_assoc _ _ _
  | exception =>
    simp only [masks, maskList, others]
    omega
  | invex =>
    simp only [masks, maskList, others]
    omega

def relist (ch : Channel) (kind : ListKind) (list : List Ban) (n : Int) : Channel :=
  { ch.setMaskList kind list with numBed := n }

@[simp] theorem relist_numBed (ch : Channel) (kind : ListKind) (list : List Ban) (n : Int) :
    (ch.relist kind list n).numBed = n := rfl

theorem relist_maskList (ch : Channel) (kind other : ListKind) (list : List Ban) (n : Int) :
    (ch.relist kind list n).maskList other =
      if other = kind then list else ch.maskList other := by
  cases kind <;> cases other <;> rfl

theorem relist_masks (ch : Channel) (kind : ListKind) (list : List Ban) (n : Int) :
    (ch.relist kind list n).masks = list.length + ch.others kind := by
  rw [masks_eq _ kind, relist_maskList, if_pos rfl]
  cases kind <;> rfl

end Channel

def entered (cl : Client) (banid : CStr) : CStr := if cl.myClient then collapse banid else banid

variable {cl : Client} {maxBans now : Int} {ch ch' : Channel} {banid : CStr} {kind : ListKind}

theorem addId_added (added : addId cl maxBans now ch banid kind = .added ch') :
    (cl.myClient = true → ch.numBed < maxBans) ∧
      duplicateMask cl (ch.maskList kind) (entered cl banid) = false ∧
      ch' = ch.relist kind ({ banstr := entered cl banid, who := cl.who, time := now } ::
        ch.maskList kind) (ch.numBed + 1) := by
  have unfolded : addId cl maxBans now ch banid kind =
      if !cl.isServer ∧ ch.numBed ≥ maxBans ∧ cl.myClient then .full
      else if duplicateMask cl (ch.maskList kind) (entered cl banid) then .duplicate
      else .added (ch.relist kind ({ banstr := entered cl banid, who := cl.who, time := now } ::
        ch.maskList kind) (ch.numBed + 1)) := rfl
  rw [unfolded] at added
  split at added
  · cases added
  next room =>
  split at added
  · cases added
  next fresh =>
  refine ⟨fun mine => ?_, Bool.eq_false_of_not_eq_true fresh, (AddId.added.inj added).symm⟩
  have person : cl.isServer = false := by
    have status : cl.status = .client := by
      simpa [Client.isClient] using (Bool.and_eq_true_iff.mp mine).2
    simp [Client.isServer, status]
  apply Int.not_le.mp
  intro full
  exact room ⟨by simp [person], full, mine⟩

/-- Where a local client adds a mask that is there already, `match` finds it so. -/
def Noticed (cl : Client) (maxBans : Int) (ch : Channel) (banid : CStr) (kind : ListKind) : Prop :=
  cl.myClient = true → ch.numBed < maxBans →
    (∃ ban ∈ ch.maskList kind, irccmp ban.banstr (collapse banid) = .eq) →
    ∃ ban ∈ ch.maskList kind, matchMask ban.banstr (collapse banid) = true

theorem addId_fresh (noticed : Noticed cl maxBans ch banid kind)
    (added : addId cl maxBans now ch banid kind = .added ch') :
    ∀ ban ∈ ch.maskList kind, irccmp ban.banstr (entered cl banid) ≠ .eq := by
  obtain ⟨room, unmatched, -⟩ := addId_added added
  intro ban inside same
  rw [duplicateMask, List.any_eq_false] at unmatched
  cases mine : cl.myClient with
  | false =>
    have other := unmatched ban inside
    rw [mine] at other
    simp [same] at other
  | true =>
    have final : entered cl banid = collapse banid := if_pos mine
    rw [final] at same unmatched
    obtain ⟨found, listed, matched⟩ := noticed mine (room mine) ⟨ban, inside, same⟩
    have other := unmatched found listed
    rw [mine] at other
    exact other matched

/-- What additions under `ok` and all deletions keep of the lists. -/
structure Lasts (ok : Client → Int → Channel → CStr → ListKind → Prop) (P : Channel → Prop) :
    Prop where
  same : ∀ {ch ch' : Channel}, ch'.books = ch.books → P ch → P ch'
  empty : P Channel.zero
  addId : ∀ {cl : Client} {maxBans now : Int} {ch ch' : Channel} {banid : CStr} {kind : ListKind},
    ok cl maxBans ch banid kind → addId cl maxBans now ch banid kind = .added ch' → P ch → P ch'
  delId : ∀ {ch : Channel} (banid : CStr) (kind : ListKind), P ch → P (delId ch banid kind)

theorem delId_masks (ch : Channel) (banid : CStr) (kind : ListKind) :
    delId ch banid kind = ch ∨
      (delId ch banid kind).numBed = (if ch.numBed > 0 then ch.numBed - 1 else 0) ∧
      (delId ch banid kind).masks + 1 = ch.masks ∧
      ∀ other, ((delId ch banid kind).maskList other).Sublist (ch.maskList other) := by
  generalize test : (fun ban : Ban => irccmp banid ban.banstr == .eq) = hit
  have unfolded : delId ch banid kind = if (ch.maskList kind).any hit then
      ch.relist kind ((ch.maskList kind).eraseP hit)
        (if ch.numBed > 0 then ch.numBed - 1 else 0)
      else ch := by
    subst test
    rfl
  rw [unfolded]
  split
  next some =>
    refine Or.inr ⟨rfl, ?_, fun other => ?_⟩
    · obtain ⟨ban, inside, same⟩ := List.any_eq_true.mp some
      have shorter := List.length_eraseP_of_mem inside same
      have pos := List.length_pos_of_mem inside
      rw [Channel.relist_masks, ch.masks_eq kind, shorter]
      omega
    · rw [Channel.relist_maskList]
      split
      next here =>
        subst here
        exact List.eraseP_sublist
      next => exact List.Sublist.refl _
  · exact Or.inl rfl

namespace Channel

theorem counted_lasts : Lasts (fun _ _ _ _ _ => True) Counted where
  same {ch ch'} same counted := by
    have numBed : ch'.numBed = ch.numBed := congrArg Books.numBed same
    rw [Counted, masks_of_books same, numBed]
    exact counted
  empty := rfl
  addId {cl maxBans now ch ch' banid kind} _ added counted := by
    obtain ⟨-, -, rfl⟩ := addId_added added
    rw [Counted] at counted
    rw [Counted, relist_numBed, relist_masks, counted, ch.masks_eq kind, List.length_cons]
    omega
  delId {ch} banid kind counted := by
    obtain same | ⟨numBed, fewer, -⟩ := delId_masks ch banid kind
    · rw [same]
      exact counted
    · rw [Counted] at counted ⊢
      rw [numBed, counted]
      split <;> omega

theorem distinct_lasts : Lasts Noticed Distinct where
  same {ch ch'} same distinct kind := by
    rw [maskList_of_books same]
    exact distinct kind
  empty kind := by cases kind <;> exact List.Pairwise.nil
  addId {cl maxBans now ch ch' banid kind} noticed added distinct other := by
    have fresh := addId_fresh noticed added
    obtain ⟨-, -, rfl⟩ := addId_added added
    rw [relist_maskList]
    split
    · apply List.pairwise_cons.mpr
      refine ⟨fun ban inside same => ?_, distinct kind⟩
      exact fresh ban inside (irccmp_comm same)
    · exact distinct other
  delId {ch} banid kind distinct other := by
    obtain same | ⟨-, -, sublist⟩ := delId_masks ch banid kind
    · rw [same]
      exact distinct other
    · exact (distinct other).sublist (sublist other)

theorem limited_lasts (n : Int) (room : 0 ≤ n) :
    Lasts (fun cl maxBans _ _ _ => cl.myClient = true ∧ maxBans ≤ n)
      (fun ch => ch.Counted ∧ (ch.masks : Int) ≤ n) where
  same {ch ch'} same := by
    rintro ⟨counted, le⟩
    refine ⟨counted_lasts.same same counted, ?_⟩
    rw [masks_of_books same]
    exact le
  empty := ⟨rfl, room⟩
  addId {cl maxBans now ch ch' banid kind} := by
    rintro ⟨mine, le⟩ added ⟨counted, -⟩
    have after := counted_lasts.addId trivial added counted
    refine ⟨after, ?_⟩
    obtain ⟨free, -, rfl⟩ := addId_added added
    have less := free mine
    rw [Counted, relist_numBed] at after
    omega
  delId {ch} banid kind := by
    rintro ⟨counted, le⟩
    refine ⟨counted_lasts.delId banid kind counted, ?_⟩
    obtain same | ⟨-, fewer, -⟩ := delId_masks ch banid kind
    · rw [same]
      exact le
    · omega

end Channel

namespace ModeLoop

variable (env : ModeEnv) (st : ModeLoop)

/-- The mask that `case 'b':`, `case 'e':` or `case 'I':` comes to, where it does. -/
def maskGiven (kind : ListKind) : Option CStr :=
  if st.whatt = .query then none
  else
    match st.parv with
    | [] => none
    | para :: _ =>
      let arg := checkString para
      if env.myClient ∧ st.opcnt ≥ maxModeParams then none
      else if !env.isok then none
      else if kind = .ban ∧ env.myClient ∧ arg.head? = some ':' ∧ st.whatt = .add then none
      else
        let arg := if env.myClient then collapse (prettyMask arg) else arg
        if kind ≠ .ban ∧ arg.head? = some ':' then none else some arg

@[simp] theorem touch_books : st.touch.ch.books = st.ch.books := by rw [Quiet.touch_ch]

@[simp] theorem eat_books : st.eat.ch.books = st.ch.books := rfl

@[simp] theorem reply_books (u : ClientId) (num : Numeric) (args : List CStr) :
    (st.reply env u num args).ch.books = st.ch.books := rfl

@[simp] theorem noOps_books : (st.noOps env).ch.books = st.ch.books := by
  unfold noOps
  split
  · exact st.touch_books
  · rfl

@[simp] theorem sendLine_books (text : CStr) : (st.sendLine env text).ch.books = st.ch.books := by
  unfold sendLine
  dsimp only
  split <;> exact st.touch_books

theorem changeMember_books (letter : Char) (who : ClientId) (arg : CStr) :
    (st.changeMember env letter who arg).ch.books = st.ch.books := by
  unfold changeMember
  split
  · exact st.touch_books
  · dsimp only
    generalize marked : (if env.isdeop = true ∧ letter = 'o' ∧ st.whatt = .add then
      { st.touch with ch := st.ch.editFlags who MemberFlags.markDeopped } else st) = st₁
    have first : st₁.ch.books = st.ch.books := by
      subst marked
      split <;> rfl
    rw [← first]
    split
    · exact st₁.noOps_books env
    · split
      · rfl
      · exact st₁.touch_books

theorem memberLetter_books (letter : Char) :
    (st.memberLetter env letter).ch.books = st.ch.books := by
  unfold memberLetter
  split
  · dsimp only
    split
    · rfl
    · exact st.touch_books
  split
  · rfl
  split
  · rfl
  dsimp only
  split
  · rfl
  split
  · rfl
  split
  · rfl
  split
  · split
    · exact st.eat.touch_books
    · rfl
  split
  · rfl
  · exact st.eat.changeMember_books env letter _ _

theorem changeKey_books (arg : CStr) : (st.changeKey env arg).ch.books = st.ch.books := by
  unfold changeKey
  dsimp only
  split
  · split
    · exact st.touch_books
    · generalize removed : (if st.ch.mode.key ≠ [] then st.touch.removeOldKey env
        else st.touch) = st₁
      have first : st₁.ch.books = st.ch.books := by
        subst removed
        split <;> simp [removeOldKey]
      exact first
  · split
    · exact st.touch_books
    · exact st.touch_books

theorem keyGiven_books (arg : CStr) : (st.keyGiven env arg).ch.books = st.ch.books := by
  unfold keyGiven
  split
  · rfl
  · dsimp only
    split
    · rfl
    · split
      · exact noOps_books env _
      · split
        · rfl
        · exact changeKey_books env _ _

theorem keyLetter_books : (st.keyLetter env).ch.books = st.ch.books := by
  rw [keyLetter_eq]
  split
  · rfl
  · cases taken : st.keyArgument env with
    | none => rfl
    | some p =>
      obtain ⟨arg, st₁⟩ := p
      have eaten : st₁.ch.books = st.ch.books := by
        unfold keyArgument at taken
        split at taken
        · split at taken
          · cases taken
            rfl
          · cases taken
        · dsimp only at taken
          split at taken <;> cases taken <;> rfl
      exact (st₁.keyGiven_books env arg).trans eaten

@[simp] theorem showList_books (kind : ListKind) :
    (st.showList env kind).ch.books = st.ch.books := by
  have replies (bans : List Ban) (st : ModeLoop) : (bans.foldl (fun st ban =>
      st.reply env env.cptr (listReply kind).1
        [st.ch.chname, ban.banstr, ban.who, formatTime ban.time]) st).ch.books = st.ch.books := by
    induction bans generalizing st with
    | nil => rfl
    | cons ban bans ih => exact ih _
  have shown : (st.setRplSent kind).touch.ch.books = st.ch.books := by
    rw [touch_books]
    cases kind <;> rfl
  unfold showList
  split
  · rfl
  · dsimp only
    split
    · rw [reply_books, replies, shown]
    · exact shown

theorem limitLetter_books : (st.limitLetter env).ch.books = st.ch.books := by
  unfold limitLetter
  split
  · rfl
  split
  · split <;> rfl
  split
  · split <;> rfl
  dsimp only
  split
  · split
    · split <;> rfl
    · split
      · rfl
      · split
        · rfl
        · exact touch_books _
  · exact touch_books _

theorem changeFlag_books (f : ModeFlag) (letter : Char) :
    (st.changeFlag env f letter).ch.books = st.ch.books := by
  unfold changeFlag
  split
  · rfl
  · dsimp only
    generalize marked : (if env.myClient = true then
      { st with done := Function.update st.done f true } else st) = st₁
    have first : st₁.ch.books = st.ch.books := by
      subst marked
      split <;> rfl
    rw [← first]
    split
    · rfl
    · split
      · exact st₁.touch_books
      · split <;> exact st₁.touch_books

theorem flagLetter_books (f : ModeFlag) (letter : Char) :
    (st.flagLetter env f letter).ch.books = st.ch.books := by
  unfold flagLetter
  split
  · exact st.noOps_books env
  · exact st.changeFlag_books env f letter

theorem inviteLetter_books : (st.inviteLetter env).ch.books = st.ch.books := by
  unfold inviteLetter
  split
  · rfl
  · exact st.flagLetter_books env _ _

theorem jupeLetter_books :
    (st.jupeLetter env).destroyed ≠ 0 ∨ (st.jupeLetter env).ch.books = st.ch.books ∧
      (st.jupeLetter env).destroyed = st.destroyed := by
  have kept (o : Output) : (st.touch.emit o).ch.books = st.ch.books ∧
      (st.touch.emit o).destroyed = st.destroyed :=
    ⟨st.touch_books, (Quiet.touch st).destroyed⟩
  unfold jupeLetter
  dsimp only
  split
  · split
    · exact Or.inr (kept _)
    · split
      · unfold sub1
        dsimp only
        split
        · exact Or.inl (Nat.succ_ne_zero _)
        · exact Or.inr (kept _)
      · exact Or.inr (kept _)
    · exact Or.inr ⟨rfl, rfl⟩
  · exact Or.inr ⟨rfl, rfl⟩

theorem unknownLetter_books (c : Char) : (st.unknownLetter env c).ch.books = st.ch.books := by
  unfold unknownLetter
  split
  · rfl
  · split <;> rfl

inductive Turns (c : Char) (st' : ModeLoop) : Prop where
  | quiet (books : st'.ch.books = st.ch.books)
  | adds (kind : ListKind) (mask : CStr) (letter : c = maskLetterOf kind)
      (given : st.maskGiven env kind = some mask) (add : st.whatt = .add)
      (fits : st.fits mask.length = true)
      (added : addId env.source env.tables.maxBans env.tables.currentTime st.ch mask kind =
        .added st'.ch)
  | deletes (kind : ListKind) (mask : CStr) (deleted : st'.ch = delId st.ch mask kind)

theorem maskLetter_turns (kind : ListKind) :
    Turns env st (maskLetterOf kind) (st.maskLetter env kind) := by
  -- the only place where a list is written; every other way out leaves the books as they are
  have changes (mask : CStr) (given : st.maskGiven env kind = some mask) :
      Turns env st (maskLetterOf kind) (st.eat.changeMask env kind mask) := by
    unfold changeMask
    dsimp only
    split
    · exact .quiet rfl
    next room =>
    have fits : st.fits mask.length = true := by
      have len : st.eat.fits mask.length = st.fits mask.length := rfl
      rw [← len]
      simpa using room
    split
    next add =>
      have taken : addId env.source env.tables.maxBans env.tables.currentTime st.eat.ch mask kind =
        addId env.source env.tables.maxBans env.tables.currentTime st.ch mask kind := rfl
      split
      · exact .quiet st.eat.touch_books
      · exact .quiet st.eat.touch_books
      next ch added =>
        refine .adds kind mask rfl given add fits ?_
        rw [← taken, added]
        cases kind <;> rfl
    · refine .deletes kind mask ?_
      cases kind <;> rfl
  -- `maskGiven` repeats the tests of the letter, so each test that is passed here is passed there
  unfold maskGiven at changes
  unfold maskLetter
  by_cases query : st.whatt = .query
  · rw [if_pos query]
    exact .quiet (st.showList_books env kind)
  rw [if_neg query] at changes ⊢
  cases left : st.parv with
  | nil => exact .quiet (st.showList_books env kind)
  | cons para rest =>
    rw [left] at changes
    dsimp only at changes ⊢
    have opcnt : st.eat.opcnt = st.opcnt := rfl
    have whatt : st.eat.whatt = st.whatt := rfl
    rw [opcnt, whatt]
    split
    · exact .quiet rfl
    next few =>
    rw [if_neg few] at changes
    split
    · exact .quiet (st.eat.noOps_books env)
    next ok =>
    rw [if_neg ok] at changes
    split
    · exact .quiet rfl
    next colon =>
    rw [if_neg colon] at changes
    generalize (if env.myClient = true then collapse (prettyMask (checkString para))
      else checkString para) = mask at changes ⊢
    split
    · exact .quiet rfl
    next plain =>
    rw [if_neg plain] at changes
    exact changes _ rfl

theorem letter_turns (c : Char) :
    (st.letter env c).destroyed ≠ 0 ∨
      Turns env st c (st.letter env c) ∧ (st.letter env c).destroyed = st.destroyed := by
  by_cases jupe : c = 'j'
  · subst jupe
    obtain gone | ⟨same, kept⟩ := st.jupeLetter_books env
    · exact Or.inl gone
    · exact Or.inr ⟨.quiet same, kept⟩
  refine Or.inr ⟨?_, (Quiet.letter env st jupe).destroyed⟩
  unfold letter
  split
  · exact .quiet rfl
  · exact .quiet rfl
  · exact .quiet rfl
  · exact .quiet (st.memberLetter_books env 'o')
  · exact .quiet (st.memberLetter_books env 'v')
  · exact .quiet (st.keyLetter_books env)
  · exact st.maskLetter_turns env .exception
  · exact st.maskLetter_turns env .invex
  · exact st.maskLetter_turns env .ban
  · exact .quiet (st.limitLetter_books env)
  · exact .quiet (st.inviteLetter_books env)
  · exact absurd rfl jupe
  · exact .quiet (st.flagLetter_books env _ _)
  · exact .quiet (st.flagLetter_books env _ _)
  · exact .quiet (st.flagLetter_books env _ _)
  · exact .quiet (st.flagLetter_books env _ _)
  · exact .quiet (st.flagLetter_books env _ _)
  · exact .quiet (st.unknownLetter_books env c)

theorem sendCapLine_books (cap : Capability) (line : ModeLine) :
    (st.sendCapLine env cap line).ch.books = st.ch.books ∧
      (st.sendCapLine env cap line).destroyed = st.destroyed := by
  refine ⟨?_, (Quiet.sendCapLine env st cap line).destroyed⟩
  unfold sendCapLine
  split
  · dsimp only
    split <;> exact st.touch_books
  · rfl

theorem sendLines_books : (st.sendLines env).ch.books = st.ch.books ∧
    (st.sendLines env).destroyed = st.destroyed := by
  refine ⟨?_, (Quiet.sendLines env st).destroyed⟩
  unfold sendLines
  dsimp only
  rw [(sendCapLine_books env _ .capIe _).1, (sendCapLine_books env _ .capEx _).1]
  split
  · exact st.sendLine_books env _
  · rfl

end ModeLoop

namespace ModeScan

/-- `ok` is true of every mask that the letters of a MODE add. -/
def Allows (ok : Client → Int → Channel → CStr → ListKind → Prop) (env : ModeEnv)
    (params : List CStr) (s : ModeScan) : Prop :=
  ∀ s', Passes env params s s' → ∀ kind curr mask, s'.curr = ModeLoop.maskLetterOf kind :: curr →
    s'.loop.whatt = .add → s'.loop.maskGiven env kind = some mask →
    s'.loop.fits mask.length = true → s'.loop.destroyed = 0 →
    ok env.source env.tables.maxBans s'.loop.ch mask kind

variable {ok : Client → Int → Channel → CStr → ListKind → Prop} {P : Channel → Prop}
  {env : ModeEnv} {params : List CStr} {s s' : ModeScan}

def Stands (P : Channel → Prop) (s : ModeScan) : Prop := s.loop.destroyed ≠ 0 ∨ P s.loop.ch

theorem passes_stands (lasts : Lasts ok P) (allows : Allows ok env params s)
    (start : Stands P s) (passes : Passes env params s s') : Stands P s' := by
  induction passes with
  | here => exact start
  | @next s₁ s₂ before turn ih =>
    rcases step_cases turn with ⟨-, -, rfl⟩ | ⟨c, curr, left, rfl⟩
    · exact ih
    · obtain gone | ⟨turns, destroyed⟩ := s₁.loop.letter_turns env c
      · exact Or.inl gone
      · by_cases gone : s₁.loop.destroyed ≠ 0
        · left
          rw [destroyed]
          exact gone
        have live : s₁.loop.destroyed = 0 := by omega
        have holds : P s₁.loop.ch := ih.resolve_left gone
        right
        cases turns with
        | quiet books => exact lasts.same books holds
        | adds kind mask letter given add fits added =>
          subst letter
          have allowed := allows s₁ before kind curr mask left add given fits live
          exact lasts.addId allowed added holds
        | deletes kind mask deleted =>
          dsimp only
          rw [deleted]
          exact lasts.delId mask kind holds

end ModeScan

namespace Tables

variable {ok : Client → Int → Channel → CStr → ListKind → Prop} {P : Channel → Prop}

theorem commitMode_chan (t : Tables) (c : ChanId) (st : ModeLoop) :
    (t.commitMode c st).chan = Function.update t.chan c st.ch ∧
      (t.commitMode c st).freed =
        if st.destroyed = 0 then t.freed else Function.update t.freed c true := by
  obtain ⟨alike, chan⟩ := uninvites_alike (t.setChan c st.ch) c st.uninvited
  have unlinks : ∀ (n : Nat) (m : Tables),
      ((List.replicate n c).foldl unlinkChannel m).chan = m.chan ∧
      ((List.replicate n c).foldl unlinkChannel m).freed =
        if n = 0 then m.freed else Function.update m.freed c true := by
    intro n
    induction n with
    | zero => exact fun m => ⟨rfl, rfl⟩
    | succ n ih =>
      intro m
      obtain ⟨chan, freed⟩ := ih (m.unlinkChannel c)
      refine ⟨chan, ?_⟩
      rw [List.replicate_succ, List.foldl_cons, freed, if_neg (Nat.succ_ne_zero n)]
      have unlinked : (m.unlinkChannel c).freed = Function.update m.freed c true := rfl
      rw [unlinked]
      split
      · rfl
      · exact Function.update_idem ..
  rw [commitMode_eq]
  obtain ⟨same, freed⟩ := unlinks st.destroyed (t.commitBlock c st)
  refine ⟨same.trans chan, freed.trans ?_⟩
  have block : (t.commitBlock c st).freed = t.freed := alike.freed
  rw [block]

/-- The channels that are left had been there with the lists as they are, or are new. -/
def KeepsBooks (t t' : Tables) : Prop :=
  ∀ c, t'.freed c = false → t.freed c = false ∧
    ((t'.chan c).books = (t.chan c).books ∨ (t'.chan c).books = Channel.zero.books)

/-- The channels that are left had been there, and `P` stays true of each of them. -/
def Lasting (P : Channel → Prop) (t t' : Tables) : Prop :=
  ∀ c, t'.freed c = false → t.freed c = false ∧ (P (t.chan c) → P (t'.chan c))

theorem KeepsBooks.lasting {t t' : Tables} (keeps : t.KeepsBooks t') (lasts : Lasts ok P) :
    t.Lasting P t' := by
  intro c live
  obtain ⟨before, books⟩ := keeps c live
  refine ⟨before, fun holds => ?_⟩
  rcases books with same | none
  · exact lasts.same same holds
  · exact lasts.same none lasts.empty

theorem KeepsBooks.setChan {t : Tables} {c : ChanId} {ch : Channel}
    (same : ch.books = (t.chan c).books) : t.KeepsBooks (t.setChan c ch) := by
  intro d live
  refine ⟨live, Or.inl ?_⟩
  by_cases here : d = c
  · subst here
    simp only [Tables.setChan, Function.update_self]
    exact same
  · simp [Tables.setChan, here]

theorem KeepsBooks.same {t t' : Tables} (chan : t'.chan = t.chan) (freed : t'.freed = t.freed) :
    t.KeepsBooks t' := by
  intro c live
  rw [chan]
  rw [freed] at live
  exact ⟨live, Or.inl rfl⟩

theorem KeepsBooks.trans {t t' t'' : Tables} (h : t.KeepsBooks t') (h' : t'.KeepsBooks t'') :
    t.KeepsBooks t'' := by
  intro c live
  obtain ⟨between, books'⟩ := h' c live
  obtain ⟨before, books⟩ := h c between
  refine ⟨before, ?_⟩
  rcases books' with same | none
  · rw [same]
    exact books
  · exact Or.inr none

theorem keepsBooks_delInvite (t : Tables) (u : ClientId) (c : ChanId) :
    t.KeepsBooks (t.delInvite u c) := by
  have taken : t.KeepsBooks (t.setChan c
      { t.chan c with invites := (t.chan c).invites.erase u }) := .setChan rfl
  exact taken.trans (.same rfl rfl)

theorem keepsBooks_destroyChannel (t : Tables) (c : ChanId) :
    t.KeepsBooks (t.destroyChannel c) := by
  intro d live
  have freed : (t.destroyChannel c).freed = Function.update t.freed c true := rfl
  have chan : (t.destroyChannel c).chan =
      Function.update t.chan c (t.chan c).freeBansExceptionsDenies := rfl
  rw [freed] at live
  by_cases here : d = c
  · subst here
    rw [Function.update_self] at live
    cases live
  · rw [Function.update_of_ne here] at live
    rw [chan, Function.update_of_ne here]
    exact ⟨live, Or.inl rfl⟩

theorem keepsBooks_sub1FromChannel (t : Tables) (c : ChanId) :
    t.KeepsBooks (t.sub1FromChannel c) := by
  have taken : ∀ (us : List ClientId) (t : Tables), t.KeepsBooks (t.delInvites c us) := by
    intro us
    induction us with
    | nil => exact fun t => .same rfl rfl
    | cons u us ih => exact fun t => (keepsBooks_delInvite t u c).trans (ih _)
  have emptied : t.KeepsBooks (t.emptied c) := by
    have counted : t.KeepsBooks (t.setChan c { t.chan c with users := 0 }) := .setChan rfl
    exact counted.trans (taken _ _)
  rw [sub1FromChannel_eq]
  split
  · split
    · exact emptied
    · exact emptied.trans (keepsBooks_destroyChannel _ c)
  · exact .setChan rfl

theorem keepsBooks_createChannel (t : Tables) (name : CStr) :
    t.KeepsBooks (t.createChannel name) := by
  intro c live
  have chan : (t.createChannel name).chan =
      Function.update t.chan t.nextChan (freshChannel name t.currentTime) := rfl
  rw [chan]
  refine ⟨live, ?_⟩
  by_cases here : c = t.nextChan
  · subst here
    rw [Function.update_self]
    exact Or.inr rfl
  · rw [Function.update_of_ne here]
    exact Or.inl rfl

instance : Frame KeepsBooks where
  refl _ := .same rfl rfl
  trans h h' := h.trans h'
  settings alike chan _ := .same chan alike.freed
  dress _ _ _ _ _ := .setChan rfl
  editClient _ _ _ _ _ _ := .same rfl rfl
  delInvite := keepsBooks_delInvite
  addUserToChannel t c who flags := by
    unfold Tables.addUserToChannel
    split
    · have entered : t.KeepsBooks (t.setChan c { t.chan c with
          members := { cptr := who, flags := flags } :: (t.chan c).members
          users := (t.chan c).users + 1 }) := .setChan rfl
      exact entered.trans (.same rfl rfl)
    · exact .same rfl rfl
  removeUserFromChannel t who c := by
    have left : t.KeepsBooks (t.setChan c { t.chan c with
        members := (t.chan c).members.eraseP fun link => link.cptr == who }) := .setChan rfl
    have outside : t.KeepsBooks (t.unlinkMember who c) := left.trans (.same rfl rfl)
    rw [removeUserFromChannel_eq]
    exact outside.trans (keepsBooks_sub1FromChannel _ c)
  createChannel := keepsBooks_createChannel

theorem keepsBooks_clearJupe (t : Tables) (name : CStr) : t.KeepsBooks (t.clearJupe name) := by
  unfold clearJupe
  split
  · split
    · exact .setChan rfl
    · exact .same rfl rfl
  · exact .same rfl rfl

theorem keepsBooks_jupeChannel (t : Tables) (name reason : CStr) :
    t.KeepsBooks (t.jupeChannel name reason) := by
  have marked : ∀ (m : Tables) (c : ChanId),
      let m' := m.setChan c { m.chan c with juped := true }
      m.KeepsBooks (if reason ≠ [] then
        m'.setChan c { m'.chan c with topic := strncpyIrc reason topicLen } else m') := by
    intro m c
    have juped : m.KeepsBooks (m.setChan c { m.chan c with juped := true }) := .setChan rfl
    dsimp only
    split
    · exact juped.trans (.setChan rfl)
    · exact juped
  unfold jupeChannel
  split
  · cases found : t.hashFindChannel name with
    | some c => exact marked t c
    | none => exact (keepsBooks_createChannel t name).trans (marked _ t.nextChan)
  · exact .same rfl rfl

theorem keepsBooks_rehashJupes (t : Tables) (old : List CStr) (new : List (CStr × CStr)) :
    t.KeepsBooks (t.rehashJupes old new) := by
  have clears : ∀ (old : List CStr) (t : Tables),
      t.KeepsBooks (old.foldl (fun t name => t.clearJupe name) t) := by
    intro old
    induction old with
    | nil => exact fun t => .same rfl rfl
    | cons name old ih => exact fun t => (keepsBooks_clearJupe t name).trans (ih _)
  have jupes : ∀ (new : List (CStr × CStr)) (t : Tables),
      t.KeepsBooks (new.foldl (fun t q => t.jupeChannel q.1 q.2) t) := by
    intro new
    induction new with
    | nil => exact fun t => .same rfl rfl
    | cons q new ih => exact fun t => (keepsBooks_jupeChannel t q.1 q.2).trans (ih _)
  exact (clears old t).trans (jupes new _)

end Tables

theorem keepsBooks_exitOneClient (s : Server) (cptr sptr : ClientId) (killed : Bool)
    (comment : CStr) : s.toTables.KeepsBooks (s.exitOneClient cptr sptr killed comment).toTables := by
  have unlisted (t : Tables) : t.KeepsBooks (t.removeClientFromList sptr) := by
    unfold Tables.removeClientFromList
    dsimp only
    split <;> exact .same rfl rfl
  unfold Server.exitOneClient
  dsimp only
  split
  · exact .same rfl rfl
  refine Tables.KeepsBooks.trans ?_ (unlisted _)
  split
  · generalize told : (Server.emit (if killed = true then s else _) _) = s₁
    have tables : s₁.toTables = s.toTables := by
      subst told
      split <;> rfl
    have out : Over Tables.KeepsBooks s₁ _ := Over.exitChannels sptr (s₁.client sptr).channel s₁
    generalize Server.exitChannels sptr (s₁.client sptr).channel s₁ = s₂ at out ⊢
    have uninvited : Over Tables.KeepsBooks s₂ _ :=
      Over.exitInvites sptr (s₂.client sptr).invited s₂
    rw [← tables]
    exact (out.trans uninvited).keeps
  · exact .same rfl rfl

inductive BanEvent where
  | base (e : Event)
  | addId (u : ClientId) (c : ChanId) (banid : CStr) (kind : ListKind)
  | delId (c : ChanId) (banid : CStr) (kind : ListKind)

/-- `ok` is true of every mask that the event adds to a channel. -/
def BanEvent.Allows (ok : Client → Int → Channel → CStr → ListKind → Prop) (s : Server) :
    BanEvent → Prop
  | .base (.command .mode cptr sptr parv) =>
    ∀ c mode args, modeTarget s.toTables parv = some (c, mode :: args) →
      ModeScan.Allows ok (modeEnv s.toTables cptr sptr c) (mode :: args)
        (ModeScan.start (s.chan c) mode args)
  | .addId u c banid kind => s.freed c = false → ok (s.client u) s.maxBans (s.chan c) banid kind
  | _ => True

def BanEvent.FromLocal (s : Server) : BanEvent → Prop
  | .base (.command .mode _ sptr _) => (s.client sptr).myClient = true
  | .addId u _ _ _ => (s.client u).myClient = true
  | _ => True

namespace Server

def banEvent (s : Server) : BanEvent → Server
  | .base e => s.event e
  | .addId u c banid kind =>
    match addId (s.client u) s.maxBans s.currentTime (s.chan c) banid kind with
    | .full => s.sendtoOne u .errBanListFull [s.nameOf u, (s.chan c).chname, banid]
    | .duplicate => s
    | .added ch => s.setChan c ch
  | .delId c banid kind => s.setChan c (delId (s.chan c) banid kind)

def banMachine : Machine Server BanEvent := { step := banEvent }

variable {ok : Client → Int → Channel → CStr → ListKind → Prop} {P : Channel → Prop} {s : Server}

theorem lasting_mMode (lasts : Lasts ok P) {cptr sptr : ClientId} {parv : List CStr}
    (allows : BanEvent.Allows ok s (.base (.command .mode cptr sptr parv))) :
    s.toTables.Lasting P (mMode s cptr sptr parv).toTables := by
  cases target : modeTarget s.toTables parv with
  | none =>
    rw [(mMode_reply target cptr sptr).1]
    exact fun c live => ⟨live, id⟩
  | some p =>
    obtain ⟨c, modes⟩ := p
    rw [mMode_target target]
    unfold setChannelMode
    simp only [touch_toTables]
    generalize run : modeRun (modeEnv s.toTables cptr sptr c) modes = st
    -- what the loop does to the books, for a live block; the lines come after it
    have stands : P (s.chan c) → st.destroyed ≠ 0 ∨ P st.ch := by
      intro holds
      subst run
      cases modes with
      | nil =>
        obtain ⟨books, destroyed⟩ := ModeLoop.sendLines_books (modeEnv s.toTables cptr sptr c)
          (modeStart (s.chan c) [])
        exact Or.inr (lasts.same books holds)
      | cons mode args =>
        obtain ⟨last, ends, same⟩ := ModeScan.ends_modeRun (modeEnv s.toTables cptr sptr c) mode args
        have passes := ModeScan.Passes.here.to_end ends
        have stands := ModeScan.passes_stands lasts (allows c mode args target) (Or.inr holds) passes
        obtain ⟨books, destroyed⟩ :=
          last.loop.sendLines_books (modeEnv s.toTables cptr sptr c)
        rw [← same, destroyed]
        exact stands.imp_right (lasts.same books)
    obtain ⟨chan, freed⟩ := s.toTables.commitMode_chan c st
    intro d live
    rw [freed] at live
    rw [chan]
    -- only the block of the MODE is written back
    by_cases here : d = c
    · subst here
      rw [Function.update_self]
      split at live
      next none => exact ⟨live, fun holds => (stands holds).resolve_left (by omega)⟩
      next => simp at live
    · rw [Function.update_of_ne here]
      split at live
      · exact ⟨live, id⟩
      · rw [Function.update_of_ne here] at live
        exact ⟨live, id⟩

theorem lasting_command (lasts : Lasts ok P) {cmd : Command} {cptr sptr : ClientId}
    {parv : List CStr} (allows : BanEvent.Allows ok s (.base (.command cmd cptr sptr parv))) :
    s.toTables.Lasting P (cmd.run s cptr sptr parv).toTables := by
  have keeps {s' : Server} (carried : Over Tables.KeepsBooks s s') :
      s.toTables.Lasting P s'.toTables := carried.keeps.lasting lasts
  cases cmd with
  | join => exact keeps (Over.mJoin cptr sptr parv)
  | part => exact keeps (Over.mPart cptr sptr parv)
  | kick => exact keeps (Over.mKick cptr sptr parv)
  | sjoin => exact keeps (Over.mSjoin cptr sptr parv)
  | mode => exact lasting_mMode lasts allows

theorem lasting_setChan {t : Tables} {c : ChanId} {ch : Channel}
    (holds : t.freed c = false → P (t.chan c) → P ch) : t.Lasting P (t.setChan c ch) := by
  intro d live
  refine ⟨live, ?_⟩
  by_cases here : d = c
  · subst here
    simp only [Tables.setChan, Function.update_self]
    exact holds live
  · simp [Tables.setChan, here]

theorem lasting_banEvent (lasts : Lasts ok P) {e : BanEvent} (allows : e.Allows ok s) :
    s.toTables.Lasting P (s.banEvent e).toTables := by
  have keeps {t : Tables} (books : s.toTables.KeepsBooks t) : s.toTables.Lasting P t :=
    books.lasting lasts
  cases e with
  | base e =>
    cases e with
    | connect u cl => exact keeps (.same rfl rfl)
    | rename u nick => exact keeps (.same rfl rfl)
    | tick now => exact keeps (.same rfl rfl)
    | split split => exact keeps (.same rfl rfl)
    | command cmd cptr sptr parv => exact lasting_command lasts allows
    | exit cptr sptr killed comment =>
      exact keeps (keepsBooks_exitOneClient s cptr sptr killed comment)
    | rehash old new => exact keeps (Tables.keepsBooks_rehashJupes s.toTables old new)
  | addId u c banid kind =>
    unfold banEvent
    dsimp only
    split
    · exact keeps (.same rfl rfl)
    · exact keeps (.same rfl rfl)
    next ch added => exact lasting_setChan fun live => lasts.addId (allows live) added
  | delId c banid kind => exact lasting_setChan fun _ => lasts.delId banid kind

theorem lasting_run (lasts : Lasts ok P) {name : CStr} {now : Int} {es : List BanEvent}
    (allows : banMachine.Meets (fun s e => e.Allows ok s) (startUp name now) es) :
    ∀ c, (banMachine.run (startUp name now) es).freed c = false →
      P ((banMachine.run (startUp name now) es).chan c) := by
  apply allows.keeps (I := fun s => ∀ c, s.freed c = false → P (s.chan c))
  · intro s e holds allows c live
    obtain ⟨before, after⟩ := lasting_banEvent lasts allows c live
    exact after (holds c before)
  · exact fun _ _ => lasts.empty

theorem allows_all (s : Server) (e : BanEvent) : e.Allows (fun _ _ _ _ _ => True) s := by
  unfold BanEvent.Allows
  split
  · exact fun _ _ _ _ _ _ _ _ _ _ _ _ _ _ => trivial
  · exact fun _ => trivial
  · trivial

theorem counted_run (name : CStr) (now : Int) (es : List BanEvent) (c : ChanId)
    (live : (banMachine.run (startUp name now) es).freed c = false) :
    ((banMachine.run (startUp name now) es).chan c).Counted := by
  have allows : ∀ (es : List BanEvent) (s : Server),
      banMachine.Meets (fun s e => e.Allows (fun _ _ _ _ _ => True) s) s es := by
    intro es
    induction es with
    | nil => exact fun _ => trivial
    | cons e es ih => exact fun s => ⟨allows_all s e, ih _⟩
  exact lasting_run Channel.counted_lasts (allows es _) c live

theorem limited_event {e : BanEvent} (here : e.FromLocal s) {c : ChanId}
    (live : (s.banEvent e).freed c = false) (counted : s.freed c = false → (s.chan c).Counted) :
    (((s.banEvent e).chan c).masks : Int) ≤ max ((s.chan c).masks : Int) s.maxBans := by
  have room : (0 : Int) ≤ max ((s.chan c).masks : Int) s.maxBans :=
    Int.le_trans (Int.natCast_nonneg _) (Int.le_max_left _ _)
  have allows : e.Allows (fun cl maxBans _ _ _ => cl.myClient = true ∧
      maxBans ≤ max ((s.chan c).masks : Int) s.maxBans) s := by
    unfold BanEvent.FromLocal at here
    unfold BanEvent.Allows
    split
    · exact fun _ _ _ _ _ _ _ _ _ _ _ _ _ _ => ⟨here, Int.le_max_right _ _⟩
    · exact fun _ => ⟨here, Int.le_max_right _ _⟩
    · trivial
  obtain ⟨before, after⟩ := lasting_banEvent (Channel.limited_lasts _ room) allows c live
  exact (after ⟨counted before, Int.le_max_left _ _⟩).2

/-- Along every run `num_bed` is the sum of the lengths of the three lists, and no event but
the modes of a server or of a client of another one brings this sum over the limit. No list
holds a mask twice, if `match` has found each mask that a local client added again. -/
theorem masks_accounted (name : CStr) (now : Int) (es : List BanEvent)
    (noticed : banMachine.Meets (fun s e => e.Allows Noticed s) (startUp name now) es) :
    let s := banMachine.run (startUp name now) es
    (∀ c, s.freed c = false → (s.chan c).Counted ∧ (s.chan c).Distinct) ∧
      ∀ e : BanEvent, e.FromLocal s → ∀ c, (s.banEvent e).freed c = false →
        (((s.banEvent e).chan c).masks : Int) ≤ max ((s.chan c).masks : Int) s.maxBans := by
  constructor
  · intro c live
    exact ⟨counted_run name now es c live, lasting_run Channel.distinct_lasts noticed c live⟩
  · intro e here c live
    exact limited_event here live (counted_run name now es c)

instance (cl : Client) (maxBans : Int) (ch : Channel) (banid : CStr) (kind : ListKind) :
    Decidable (Noticed cl maxBans ch banid kind) :=
  inferInstanceAs (Decidable (_ → _ → _ → _))

def bannedRun : List BanEvent :=
  network.map .base ++
    [.addId 1 0 (lit "x!*@*") .ban, .addId 3 0 (lit "**!o@*") .ban,
      .addId 3 0 (lit "*!o@*") .ban, .addId 3 0 (lit "*!o@*") .exception,
      .delId 0 (lit "X!*@*") .ban, .base (.command .part 1 2 [lit "anna", lit "#c"])]

theorem masks_accounted_network :
    let s := banMachine.run (startUp (lit "irc.net") 100000) bannedRun
    (∀ c, s.freed c = false → (s.chan c).Counted ∧ (s.chan c).Distinct) ∧
      ∀ e : BanEvent, e.FromLocal s → ∀ c, (s.banEvent e).freed c = false →
        (((s.banEvent e).chan c).masks : Int) ≤ max ((s.chan c).masks : Int) s.maxBans := by
  apply masks_accounted
  refine ⟨trivial, trivial, trivial, trivial, trivial, fun _ => ?_, fun _ => ?_, fun _ => ?_,
    fun _ => ?_, trivial, trivial, trivial⟩
  · decide +kernel
  · decide +kernel
  · decide +kernel
  · decide +kernel

def unfoundMask : CStr :=
  lit "x!y@" ++ (List.replicate 15 ['*', '?']).flatten ++ '*' :: (List.replicate 31 '?' ++ ['X'])

def bannedTwice : List BanEvent :=
  network.map .base ++
    [.base (.command .join 3 3 [lit "olly", lit "#d"]),
      .base (.command .mode 3 3 [lit "olly", lit "#d", lit "+b", unfoundMask]),
      .base (.command .mode 3 3 [lit "olly", lit "#d", lit "+b", unfoundMask])]

theorem bannedTwice_twice :
    let s := banMachine.run (startUp (lit "irc.net") 100000) bannedTwice
    s.freed 2 = false ∧ ((s.chan 2).banlist.map Ban.banstr = [unfoundMask, unfoundMask]) ∧
      ¬ (s.chan 2).Distinct := by
  have masks : ((banMachine.run (startUp (lit "irc.net") 100000) bannedTwice).chan 2).banlist.map
      Ban.banstr = [unfoundMask, unfoundMask] := by decide +kernel
  refine ⟨by decide +kernel, masks, fun distinct => ?_⟩
  have bans := distinct .ban
  have apart : ([unfoundMask, unfoundMask] : List CStr).Pairwise fun m m' => irccmp m m' ≠ .eq := by
    rw [← masks]
    exact List.pairwise_map.mpr bans
  have different := List.rel_of_pairwise_cons apart (List.mem_singleton.mpr rfl)
  exact different (irccmp_self unfoundMask)

end Server

end Ircd
