import Ircd.Channel.BanRuns
import Ircd.Server.MaskLines

/-! Setting a ban and taking it off again, and the normal form of a mask.

`pretty_mask` splits at the first `!` and at the last `@` behind it. The parts that it joins
are cut to their fields and have none of the other separator, so that the result is split at
the same places.
-/

set_option autoImplicit false

namespace Ircd

def Checked (s : CStr) : Prop := s ≠ [] ∧ ∀ c ∈ s, isSpace c = false

theorem checked_star : Checked ['*'] := ⟨List.cons_ne_nil _ _, by decide⟩

theorem checkString_of_checked {s : CStr} (checked : Checked s) : checkString s = s := by
  rw [checkString, if_neg checked.1]
  exact List.takeWhile_eq_self_iff.mpr fun c inside => by rw [checked.2 c inside, Bool.not_false]

theorem checked_append {s t : CStr} (first : Checked s) (second : Checked t) {c : Char}
    (plain : isSpace c = false) : Checked (s ++ c :: t) := by
  refine ⟨List.append_ne_nil_of_left_ne_nil first.1 _, fun d inside => ?_⟩
  rcases List.mem_append.mp inside with inside | inside
  · exact first.2 d inside
  · rcases List.mem_cons.mp inside with rfl | inside
    · exact plain
    · exact second.2 d inside

structure MaskParts (nick user host : CStr) : Prop where
  named : Checked nick
  logged : Checked user
  hosted : Checked host
  bang : '!' ∉ nick
  at_ : '@' ∉ host

theorem splitFirstBang_eq {nick : CStr} (bang : '!' ∉ nick) (rest : CStr) :
    splitFirstBang (nick ++ '!' :: rest) = (nick, some rest) := by
  have there : '!' ∈ nick ++ '!' :: rest := List.mem_append_right nick List.mem_cons_self
  have before : ∀ c ∈ nick, (c != '!') = true := by
    intro c inside
    exact bne_iff_ne.mpr fun same => bang (same ▸ inside)
  rw [splitFirstBang, if_pos there, List.takeWhile_append_of_pos before,
    List.dropWhile_append_of_pos before]
  simp

theorem splitLastAt_eq {host : CStr} (at_ : '@' ∉ host) (user : CStr) :
    splitLastAt (user ++ '@' :: host) = (user, some host) := by
  have there : '@' ∈ user ++ '@' :: host := List.mem_append_right user List.mem_cons_self
  have behind : ∀ c ∈ host.reverse, (c != '@') = true := by
    intro c inside
    exact bne_iff_ne.mpr fun same => at_ (same ▸ List.mem_reverse.mp inside)
  have found : ((user ++ '@' :: host).reverse.takeWhile (· != '@')).reverse = host := by
    rw [List.reverse_append, List.reverse_cons, List.append_assoc,
      List.takeWhile_append_of_pos behind]
    simp
  simp only [splitLastAt, if_pos there, found]
  have left : (user ++ '@' :: host).length - host.length - 1 = user.length := by
    rw [List.length_append, List.length_cons]
    omega
  rw [left, List.take_left]

theorem prettyMask_join {nick user host : CStr} (parts : MaskParts nick user host) :
    prettyMask (nick ++ '!' :: user ++ '@' :: host) = makeNickUserHost nick user host := by
  have whole : nick ++ '!' :: user ++ '@' :: host = nick ++ '!' :: (user ++ '@' :: host) := by
    rw [List.append_assoc, List.cons_append]
  simp only [prettyMask, whole, splitFirstBang_eq parts.bang, splitLastAt_eq parts.at_,
    checkStringOpt, checkString_of_checked parts.named, checkString_of_checked parts.logged,
    checkString_of_checked parts.hosted]

theorem checked_checkString {s : CStr} (spaceless : ∀ c ∈ s, isSpace c = false) :
    Checked (checkString s) := by
  rw [checkString]
  split
  · exact checked_star
  · next some =>
    have whole : s.takeWhile (fun c => !isSpace c) = s :=
      List.takeWhile_eq_self_iff.mpr fun c inside => by rw [spaceless c inside, Bool.not_false]
    rw [whole]
    exact ⟨some, spaceless⟩

theorem checkString_subset (s : CStr) : ∀ c ∈ checkString s, c = '*' ∨ c ∈ s := by
  intro c inside
  rw [checkString] at inside
  split at inside
  · exact .inl (List.mem_singleton.mp inside)
  · exact .inr ((List.takeWhile_sublist _).subset inside)

theorem spaceless_checkString (s : CStr) : ∀ c ∈ checkString s, isSpace c = false := by
  intro c inside
  rw [checkString] at inside
  split at inside
  · exact checked_star.2 c inside
  · have kept := List.mem_takeWhile_imp inside
    rwa [Bool.not_eq_true'] at kept

theorem splitFirstBang_cases (s : CStr) :
    (∃ nick rest, splitFirstBang s = (nick, some rest) ∧ s = nick ++ '!' :: rest ∧ '!' ∉ nick) ∨
      splitFirstBang s = (s, none) ∧ '!' ∉ s := by
  by_cases there : '!' ∈ s
  · obtain ⟨nick, rest, split, bang⟩ := List.eq_append_cons_of_mem there
    rw [split]
    exact .inl ⟨nick, rest, splitFirstBang_eq bang rest, rfl, bang⟩
  · exact .inr ⟨if_neg there, there⟩

theorem splitLastAt_cases (s : CStr) :
    (∃ user host, splitLastAt s = (user, some host) ∧ s = user ++ '@' :: host ∧ '@' ∉ host) ∨
      splitLastAt s = (s, none) ∧ '@' ∉ s := by
  by_cases there : '@' ∈ s
  · obtain ⟨front, back, split, at_⟩ := List.eq_append_cons_of_mem (List.mem_reverse.mpr there)
    have parts : s = back.reverse ++ '@' :: front.reverse := by
      rw [← List.reverse_reverse s, split, List.reverse_append, List.reverse_cons,
        List.append_assoc, List.singleton_append]
    have clean : '@' ∉ front.reverse := fun inside => at_ (List.mem_reverse.mp inside)
    rw [parts]
    exact .inl ⟨_, _, splitLastAt_eq clean _, rfl, clean⟩
  · exact .inr ⟨if_neg there, there⟩

theorem not_mem_checkString {c : Char} (plain : c ≠ '*') {s : CStr} (clean : c ∉ s) :
    c ∉ checkString s := fun inside => (checkString_subset s c inside).elim plain clean

theorem prettyMask_parts {mask : CStr} (spaceless : ∀ c ∈ mask, isSpace c = false) :
    ∃ nick user host, MaskParts nick user host ∧
      prettyMask mask = makeNickUserHost nick user host := by
  have star := checked_star
  have noBang : '!' ∉ ['*'] := by decide
  have noAt : '@' ∉ ['*'] := by decide
  rcases splitFirstBang_cases mask with ⟨nick, rest, bang, rfl, front⟩ | ⟨bang, front⟩
  · have nickChecked : Checked (checkString nick) := checked_checkString fun c inside =>
      spaceless c (List.mem_append_left _ inside)
    have restSpaceless : ∀ c ∈ rest, isSpace c = false := fun c inside =>
      spaceless c (List.mem_append_right _ (List.mem_cons_of_mem _ inside))
    have nickClean := not_mem_checkString (by decide) front
    rcases splitLastAt_cases rest with ⟨user, host, at_, rfl, back⟩ | ⟨at_, back⟩
    · have userChecked : Checked (checkString user) := checked_checkString fun c inside =>
        restSpaceless c (List.mem_append_left _ inside)
      have hostChecked : Checked (checkString host) := checked_checkString fun c inside =>
        restSpaceless c (List.mem_append_right _ (List.mem_cons_of_mem _ inside))
      refine ⟨_, _, _, ⟨nickChecked, userChecked, hostChecked, nickClean,
        not_mem_checkString (by decide) back⟩, ?_⟩
      simp only [prettyMask, bang, at_, checkStringOpt]
    · refine ⟨_, _, _, ⟨nickChecked, checked_checkString restSpaceless, star, nickClean, noAt⟩, ?_⟩
      simp only [prettyMask, bang, at_, checkStringOpt]
  -- no `!`: the mask is user@host, a host, or a nick
  · rcases splitLastAt_cases mask with ⟨user, host, at_, rfl, back⟩ | ⟨at_, back⟩
    · have userChecked : Checked (checkString user) := checked_checkString fun c inside =>
        spaceless c (List.mem_append_left _ inside)
      have hostChecked : Checked (checkString host) := checked_checkString fun c inside =>
        spaceless c (List.mem_append_right _ (List.mem_cons_of_mem _ inside))
      refine ⟨_, _, _, ⟨star, userChecked, hostChecked, noBang,
        not_mem_checkString (by decide) back⟩, ?_⟩
      simp only [prettyMask, bang, at_]
    · have checked := checked_checkString spaceless
      by_cases dot : '.' ∈ mask
      · refine ⟨_, _, _, ⟨star, star, checked, noBang, not_mem_checkString (by decide) back⟩, ?_⟩
        simp only [prettyMask, bang, at_, if_pos dot]
      · refine ⟨_, _, _, ⟨checked, star, star, not_mem_checkString (by decide) front, noAt⟩, ?_⟩
        simp only [prettyMask, bang, at_, if_neg dot]

theorem collapse_append {c : Char} (plain : c ≠ '*') (s t : CStr) :
    collapse (s ++ c :: t) = collapse s ++ c :: collapse t := by
  induction s using collapse.induct with
  | case1 => exact collapse_plain plain t
  | case2 d =>
    by_cases star : d = '*'
    · subst star
      have apart : collapse ('*' :: c :: t) = '*' :: collapse (c :: t) :=
        if_neg fun both => plain both.2
      rw [List.singleton_append, apart, collapse_plain plain]
      rfl
    · rw [List.singleton_append, collapse_plain star, collapse_plain plain]
      rfl
  | case3 d e rest stars ih =>
    rw [List.cons_append, List.cons_append, collapse_stars stars, collapse_stars stars]
    exact ih
  | case4 d e rest stars ih =>
    rw [List.cons_append, List.cons_append, collapse_apart stars, collapse_apart stars,
      List.cons_append, ← ih]
    rfl

def trimmed (n : Nat) (s : CStr) : CStr := collapse (s.take n)

theorem trimmed_subset (n : Nat) (s : CStr) : trimmed n s ⊆ s :=
  List.Subset.trans (collapse_subset _) (List.take_subset n s)

theorem checked_trimmed {n : Nat} (room : 0 < n) {s : CStr} (checked : Checked s) :
    Checked (trimmed n s) := by
  refine ⟨fun empty => ?_, fun c inside => checked.2 c (trimmed_subset n s inside)⟩
  have head := head?_collapse (s.take n)
  obtain ⟨c, rest, rfl⟩ := List.exists_cons_of_ne_nil checked.1
  obtain ⟨k, rfl⟩ := Nat.exists_eq_succ_of_ne_zero (Nat.ne_of_gt room)
  rw [trimmed] at empty
  rw [empty, List.take_succ_cons] at head
  cases head

theorem trimmed_length (n : Nat) (s : CStr) : (trimmed n s).length ≤ n :=
  (collapse_length_le _).trans (List.length_take_le n s)

theorem trimmed_trimmed (n : Nat) (s : CStr) : trimmed n (trimmed n s) = trimmed n s := by
  have short : (trimmed n s).take n = trimmed n s := List.take_of_length_le (trimmed_length n s)
  rw [trimmed, short]
  exact collapse_of_collapsed (collapsed_collapse _)

theorem collapse_makeNickUserHost (nick user host : CStr) :
    collapse (makeNickUserHost nick user host) =
      trimmed nickLen nick ++ '!' :: trimmed userLen user ++ '@' :: trimmed hostLen host := by
  rw [makeNickUserHost, collapse_append (by decide), collapse_append (by decide)]
  rfl

theorem MaskParts.trimmed {nick user host : CStr} (parts : MaskParts nick user host) :
    MaskParts (trimmed nickLen nick) (trimmed userLen user) (trimmed hostLen host) where
  named := checked_trimmed (by decide) parts.named
  logged := checked_trimmed (by decide) parts.logged
  hosted := checked_trimmed (by decide) parts.hosted
  bang inside := parts.bang (trimmed_subset _ _ inside)
  at_ inside := parts.at_ (trimmed_subset _ _ inside)

def normalMask (mask : CStr) : CStr := collapse (prettyMask mask)

structure NormalMask (mask : CStr) : Prop where
  checked : Checked mask
  short : mask.length ≤ nickLen + userLen + hostLen + 2
  collapsed : collapse mask = mask
  again : normalMask mask = mask

theorem normalMask_normal {mask : CStr} (spaceless : ∀ c ∈ mask, isSpace c = false) :
    NormalMask (normalMask mask) := by
  obtain ⟨nick, user, host, parts, joined⟩ := prettyMask_parts spaceless
  have whole : normalMask mask =
      trimmed nickLen nick ++ '!' :: trimmed userLen user ++ '@' :: trimmed hostLen host := by
    rw [normalMask, joined, collapse_makeNickUserHost]
  have trim := parts.trimmed
  rw [whole]
  refine ⟨?_, ?_, ?_, ?_⟩
  · exact checked_append (checked_append trim.named trim.logged (by decide)) trim.hosted (by decide)
  · have nickShort := trimmed_length nickLen nick
    have userShort := trimmed_length userLen user
    have hostShort := trimmed_length hostLen host
    simp only [List.length_append, List.length_cons]
    omega
  · rw [← collapse_makeNickUserHost]
    exact collapse_of_collapsed (collapsed_collapse _)
  · rw [normalMask, prettyMask_join trim, collapse_makeNickUserHost, trimmed_trimmed,
      trimmed_trimmed, trimmed_trimmed]

namespace ModeLoop

variable {env : ModeEnv} {st st' st'' : ModeLoop}

structure SameChange (st st' : ModeLoop) : Prop where
  ch : st'.ch = st.ch
  uninvited : st'.uninvited = st.uninvited
  destroyed : st'.destroyed = st.destroyed

namespace SameChange

theorem refl (st : ModeLoop) : SameChange st st := ⟨rfl, rfl, rfl⟩

theorem trans (h : SameChange st st') (h' : SameChange st' st'') : SameChange st st'' :=
  ⟨h'.ch.trans h.ch, h'.uninvited.trans h.uninvited, h'.destroyed.trans h.destroyed⟩

theorem touch (st : ModeLoop) : SameChange st st.touch := by
  unfold ModeLoop.touch
  split
  · exact ⟨rfl, rfl, rfl⟩
  · exact refl st

theorem emit (st : ModeLoop) (o : Output) : SameChange st (st.emit o) := ⟨rfl, rfl, rfl⟩

theorem noOps (env : ModeEnv) (st : ModeLoop) : SameChange st (st.noOps env) := by
  unfold ModeLoop.noOps
  split
  · have replied : SameChange st.touch { st.touch.reply env env.sptr .errChanOPrivsNeeded
        [st.ch.chname] with errNoOps := true } := ⟨rfl, rfl, rfl⟩
    exact (touch st).trans replied
  · exact refl st

theorem sendLine (env : ModeEnv) (st : ModeLoop) (text : CStr) :
    SameChange st (st.sendLine env text) := by
  unfold ModeLoop.sendLine
  dsimp only
  split
  · exact (touch st).trans (emit _ _)
  · exact ((touch st).trans (emit _ _)).trans (emit _ _)

theorem sendCapLine (env : ModeEnv) (st : ModeLoop) (cap : Capability) (line : ModeLine) :
    SameChange st (st.sendCapLine env cap line) := by
  unfold ModeLoop.sendCapLine
  split
  · dsimp only
    split
    · exact (touch st).trans (emit _ _)
    · exact ((touch st).trans (emit _ _)).trans (emit _ _)
  · exact refl st

theorem sendLines (env : ModeEnv) (st : ModeLoop) : SameChange st (st.sendLines env) := by
  unfold ModeLoop.sendLines
  dsimp only
  apply SameChange.trans _ (sendCapLine env _ .capIe _)
  apply SameChange.trans _ (sendCapLine env _ .capEx _)
  split
  · exact sendLine env st _
  · exact refl st

end SameChange

end ModeLoop

/-- What a local client's `MODE +b mask` or `MODE -b mask` makes of the channel. -/
def banChange (env : ModeEnv) (whatt : What) (ch : Channel) (mask : CStr) : Channel :=
  let arg := checkString mask
  if !env.isok then ch
  else if arg.head? = some ':' ∧ whatt = .add then ch
  else if whatt = .add then
    match addId env.source env.tables.maxBans env.tables.currentTime ch (normalMask arg) .ban with
    | .added ch' => ch'
    | _ => ch
  else delId ch (normalMask arg) .ban

def banModes (whatt : What) : CStr := [whatt.plus, 'b']

theorem normalMask_fits (mask : CStr) : (normalMask (checkString mask)).length + 2 < modeBufLen := by
  have short := (normalMask_normal (spaceless_checkString mask)).short
  have room : nickLen + userLen + hostLen + 2 + 2 < modeBufLen := by decide
  omega

namespace ModeLoop

variable {env : ModeEnv} {st : ModeLoop} {mask : CStr}

theorem maskLetter_first (mine : env.myClient = true) (signed : st.whatt ≠ .query)
    (left : st.parv = [mask]) (first : st.opcnt = 0) :
    st.maskLetter env .ban =
      if !env.isok then st.eat.noOps env
      else if (checkString mask).head? = some ':' ∧ st.whatt = .add then st.eat.eat
      else st.eat.changeMask env .ban (normalMask (checkString mask)) := by
  have opcnt : st.eat.opcnt = 0 := first
  have whatt : st.eat.whatt = st.whatt := rfl
  have few : ¬ (true = true ∧ (0 : Nat) ≥ maxModeParams) := fun full => absurd full.2 (by decide)
  have ban : ∀ c : Prop, ¬ (ListKind.ban ≠ .ban ∧ c) := fun c other => other.1 rfl
  rw [maskLetter, if_neg signed, left]
  dsimp only
  rw [opcnt, whatt, mine, if_neg few, if_neg (ban _)]
  simp only [true_and, if_true, normalMask]

theorem changeMask_ban (fits : st.fits mask.length = true) (intact : st.destroyed = 0) :
    SameChange
        { st with
          ch := if st.whatt = .add then
              match addId env.source env.tables.maxBans env.tables.currentTime st.ch mask .ban with
              | .added ch' => ch'
              | _ => st.ch
            else delId st.ch mask .ban }
        (st.changeMask env .ban mask) ∧ (st.changeMask env .ban mask).parv = st.parv := by
  have here : st.touch = st := if_neg fun gone => gone intact
  have room : ¬ (!st.fits mask.length) = true := by
    rw [fits]
    decide
  rw [changeMask, if_neg room, here]
  by_cases add : st.whatt = .add
  · rw [if_pos add, if_pos add]
    cases addId env.source env.tables.maxBans env.tables.currentTime st.ch mask .ban <;>
      exact ⟨⟨rfl, rfl, rfl⟩, rfl⟩
  · rw [if_neg add, if_neg add]
    exact ⟨⟨rfl, rfl, rfl⟩, rfl⟩

theorem maskLetter_ban (mine : env.myClient = true) (signed : st.whatt ≠ .query)
    (left : st.parv = [mask]) (first : st.opcnt = 0) (empty : st.len = 0)
    (intact : st.destroyed = 0) :
    SameChange { st with ch := banChange env st.whatt st.ch mask } (st.maskLetter env .ban) ∧
      (st.maskLetter env .ban).parv = [] := by
  have eaten : st.eat.parv = [] := by rw [eat, left, List.tail_cons]
  rw [maskLetter_first mine signed left first, banChange]
  cases allowed : env.isok with
  | false =>
    simp only [Bool.not_false, if_true]
    have refused := SameChange.noOps env st.eat
    exact ⟨⟨refused.ch, refused.uninvited, refused.destroyed⟩, (noOps_parv env st.eat).trans eaten⟩
  | true =>
    simp only [Bool.not_true, Bool.false_eq_true, if_false]
    by_cases colon : (checkString mask).head? = some ':' ∧ st.whatt = .add
    · rw [if_pos colon, if_pos colon]
      refine ⟨⟨rfl, rfl, rfl⟩, ?_⟩
      rw [eat, eaten, List.tail_nil]
    · rw [if_neg colon, if_neg colon]
      have fits : st.eat.fits (normalMask (checkString mask)).length = true := by
        have room := normalMask_fits mask
        have fresh : st.eat.len = 0 := empty
        rw [ModeLoop.fits, fresh, Nat.zero_add]
        exact decide_eq_true room
      obtain ⟨changed, parv⟩ := @changeMask_ban env st.eat _ fits intact
      exact ⟨⟨changed.ch, changed.uninvited, changed.destroyed⟩, parv.trans eaten⟩

end ModeLoop

theorem modeRun_ban {env : ModeEnv} (mine : env.myClient = true) {whatt : What}
    (signed : whatt ≠ .query) (mask : CStr) :
    (modeRun env [banModes whatt, mask]).ch =
        banChange env whatt (env.tables.chan env.chan) mask ∧
      (modeRun env [banModes whatt, mask]).uninvited = [] ∧
      (modeRun env [banModes whatt, mask]).destroyed = 0 := by
  generalize opened : modeStart (env.tables.chan env.chan) [banModes whatt, mask] = start
  have fresh : start.ch = env.tables.chan env.chan ∧ start.parv = [banModes whatt, mask] ∧
      start.opcnt = 0 ∧ start.len = 0 ∧ start.destroyed = 0 ∧ start.uninvited = [] := by
    subst opened
    exact ⟨rfl, rfl, rfl, rfl, rfl, rfl⟩
  obtain ⟨ch, parv, opcnt, len, destroyed, uninvited⟩ := fresh
  have sign : start.eat.letter env whatt.plus = { start.eat with whatt := whatt } := by
    cases whatt with
    | add => rfl
    | del => rfl
    | query => exact absurd rfl signed
  have left : start.eat.parv = [mask] := by rw [ModeLoop.eat, parv, List.tail_cons]
  -- the one letter adds or removes the ban; the lines change no channel
  have turn := @ModeLoop.maskLetter_ban env { start.eat with whatt := whatt } mask mine signed left
    opcnt len destroyed
  have strings : start.strings env 2 = ({ start.eat with whatt := whatt }).maskLetter env .ban := by
    rw [ModeLoop.strings, parv]
    dsimp only
    rw [ModeLoop.letters, banModes, List.foldl_cons, List.foldl_cons, List.foldl_nil, sign]
    have letter : ModeLoop.letter env { start.eat with whatt := whatt } 'b' =
        ({ start.eat with whatt := whatt }).maskLetter env .ban := rfl
    rw [letter, ModeLoop.strings, turn.2]
  have sent := ModeLoop.SameChange.sendLines env (start.strings env 2)
  have run : modeRun env [banModes whatt, mask] = (start.strings env 2).sendLines env := by
    rw [modeRun, opened]
    rfl
  rw [run]
  rw [strings] at sent ⊢
  have whole := turn.1.trans sent
  refine ⟨whole.ch.trans ?_, whole.uninvited.trans uninvited, whole.destroyed.trans destroyed⟩
  rw [← ch]
  rfl

namespace Server

variable {s : Server} {cptr sptr : ClientId} {c : ChanId}

/-- A MODE that takes no invitation back and frees no channel leaves the other tables. -/
theorem setChannelMode_chan {parv : List CStr} {ch : Channel}
    (run : (modeRun (modeEnv s.toTables cptr sptr c) parv).ch = ch ∧
      (modeRun (modeEnv s.toTables cptr sptr c) parv).uninvited = [] ∧
      (modeRun (modeEnv s.toTables cptr sptr c) parv).destroyed = 0) :
    (s.setChannelMode cptr sptr c parv).toTables = s.toTables.setChan c ch := by
  obtain ⟨rfl, uninvited, destroyed⟩ := run
  unfold setChannelMode
  dsimp only
  rw [touch_toTables, Tables.commitMode, uninvited, destroyed]
  rfl

/-- `MODE chan +b mask` or `MODE chan -b mask` of a client. -/
def modeBan (s : Server) (cptr sptr : ClientId) (parv0 chan : CStr) (whatt : What) (mask : CStr) :
    Server :=
  mMode s cptr sptr [parv0, chan, banModes whatt, mask]

theorem modeBan_toTables (mine : (s.client sptr).myClient = true) {chan : CStr}
    (named : isChannelName chan = true) (checked : checkChannelName chan = true)
    (found : s.hashFindChannel chan = some c) {whatt : What} (signed : whatt ≠ .query)
    (parv0 mask : CStr) :
    (s.modeBan cptr sptr parv0 chan whatt mask).toTables =
      s.toTables.setChan c (banChange (modeEnv s.toTables cptr sptr c) whatt (s.chan c) mask) := by
  have command : s.modeBan cptr sptr parv0 chan whatt mask =
      s.setChannelMode cptr sptr c [banModes whatt, mask] := by
    simp [modeBan, mMode, named, checked, found]
  rw [command]
  exact setChannelMode_chan (@modeRun_ban (modeEnv s.toTables cptr sptr c) mine whatt signed mask)

/-- Where the command adds to the list of a channel, it has found it, and the source may
change its modes. -/
theorem modeBan_adds (mine : (s.client sptr).myClient = true) {parv0 chan mask : CStr} {ban : Ban}
    (adds : ((s.modeBan cptr sptr parv0 chan .add mask).chan c).banlist =
      ban :: (s.chan c).banlist) :
    isChannelName chan = true ∧ checkChannelName chan = true ∧ s.hashFindChannel chan = some c ∧
      (modeEnv s.toTables cptr sptr c).isok = true ∧
      ban.banstr = normalMask (checkString mask) ∧
      (s.modeBan cptr sptr parv0 chan .add mask).toTables = s.toTables.setChan c
        ((s.chan c).relist .ban (ban :: (s.chan c).banlist) ((s.chan c).numBed + 1)) := by
  have same : ∀ {t : Tables}, (s.modeBan cptr sptr parv0 chan .add mask).toTables = t →
      (t.chan c).banlist = (s.chan c).banlist → False := by
    intro t whole kept
    rw [whole, kept] at adds
    exact List.cons_ne_self ban _ adds.symm
  by_cases named : isChannelName chan = true
  case neg =>
    apply (same _ rfl).elim
    simp [modeBan, mMode, named]
  by_cases checked : checkChannelName chan = true
  case neg =>
    apply (same _ rfl).elim
    simp [modeBan, mMode, named, checked]
  cases found : s.hashFindChannel chan with
  | none =>
    apply (same _ rfl).elim
    simp [modeBan, mMode, named, checked, found]
  | some d =>
    have whole := @modeBan_toTables s cptr sptr d mine chan named checked found .add
      (by decide) parv0 mask
    by_cases here : d = c
    case neg =>
      apply (same whole _).elim
      rw [Tables.setChan]
      simp [Ne.symm here]
    subst here
    have at_c : ∀ ch, ((s.toTables.setChan d ch).chan d) = ch := fun ch => by simp [Tables.setChan]
    -- wherever the list does not grow, the hypothesis fails
    have stays : ∀ ch, banChange (modeEnv s.toTables cptr sptr d) .add (s.chan d) mask = ch →
        ch.banlist = (s.chan d).banlist → False := by
      intro ch change kept
      apply same whole
      rw [at_c, change, kept]
    cases allowed : (modeEnv s.toTables cptr sptr d).isok with
    | false =>
      apply (stays (s.chan d) _ rfl).elim
      simp [banChange, allowed]
    | true =>
      by_cases colon : (checkString mask).head? = some ':'
      case pos =>
        apply (stays (s.chan d) _ rfl).elim
        simp [banChange, allowed, colon]
      have change : banChange (modeEnv s.toTables cptr sptr d) .add (s.chan d) mask =
          match addId (s.client sptr) s.maxBans s.currentTime (s.chan d)
            (normalMask (checkString mask)) .ban with
          | .added ch' => ch'
          | _ => s.chan d := by
        rw [banChange, allowed]
        simp only [Bool.not_true, Bool.false_eq_true, if_false, and_true, if_neg colon, if_true]
        rfl
      cases entry : addId (s.client sptr) s.maxBans s.currentTime (s.chan d)
          (normalMask (checkString mask)) .ban with
      | full =>
        rw [entry] at change
        exact (stays _ change rfl).elim
      | duplicate =>
        rw [entry] at change
        exact (stays _ change rfl).elim
      | added ch' =>
        rw [entry] at change
        obtain ⟨-, -, made⟩ := addId_added entry
        rw [whole, change, at_c, made] at adds
        have first := (List.cons.inj adds).1
        have normal := normalMask_normal (spaceless_checkString mask)
        have text : ban.banstr = normalMask (checkString mask) := by
          rw [← first]
          simp only [entered, mine, if_true]
          exact normal.collapsed
        refine ⟨named, checked, rfl, rfl, text, ?_⟩
        rw [whole, change, made, ← first]
        rfl

/-- Taking off the mask at the head of the list leaves the list and the counter behind it. -/
theorem delId_head {ch : Channel} {ban : Ban} {n : Int} (count : 0 ≤ n) {banid : CStr}
    (same : irccmp banid ban.banstr = .eq) {rest : List Ban} :
    (delId (ch.relist .ban (ban :: rest) (n + 1)) banid .ban).banlist = rest ∧
      (delId (ch.relist .ban (ban :: rest) (n + 1)) banid .ban).numBed = n := by
  have hit : (irccmp banid ban.banstr == .eq) = true := beq_iff_eq.mpr same
  have list : (ch.relist .ban (ban :: rest) (n + 1)).maskList .ban = ban :: rest := rfl
  have more : n + 1 > 0 := by omega
  have there : (ban :: rest).any (fun ban => irccmp banid ban.banstr == .eq) = true := by
    rw [List.any_cons, hit, Bool.true_or]
  simp only [delId, list, there, if_true]
  have gone : (ban :: rest).eraseP (fun ban => irccmp banid ban.banstr == .eq) = rest :=
    @List.eraseP_cons_of_pos _ ban rest (fun ban => irccmp banid ban.banstr == .eq) hit
  refine ⟨gone, (if_pos more).trans ?_⟩
  rw [Channel.relist_numBed]
  omega

/-- A ban that a local client has added goes with the string that set it and with the mask
as it is stored, and leaves the list and `num_bed` as they were; and the normal form of a mask
is one. -/
theorem modeBan_inverse (mine : (s.client sptr).myClient = true)
    (count : 0 ≤ (s.chan c).numBed) {parv0 chan mask : CStr} {ban : Ban}
    (adds : ((s.modeBan cptr sptr parv0 chan .add mask).chan c).banlist =
      ban :: (s.chan c).banlist) :
    (∀ given, given = mask ∨ given = ban.banstr →
      let s' := (s.modeBan cptr sptr parv0 chan .add mask).modeBan cptr sptr parv0 chan .del given
      (s'.chan c).banlist = (s.chan c).banlist ∧ (s'.chan c).numBed = (s.chan c).numBed) ∧
    ∀ m : CStr, (∀ c ∈ m, isSpace c = false) → normalMask (normalMask m) = normalMask m := by
  refine ⟨?_, fun m spaceless => (normalMask_normal spaceless).again⟩
  obtain ⟨named, checked, found, allowed, text, after⟩ := modeBan_adds mine adds
  have normal := normalMask_normal (spaceless_checkString mask)
  generalize s.modeBan cptr sptr parv0 chan .add mask = s₁ at after ⊢
  intro given which
  -- both spellings of the mask come to the text that was stored
  have comes : normalMask (checkString given) = ban.banstr := by
    rcases which with rfl | rfl
    · exact text.symm
    · rw [text, checkString_of_checked normal.checked, normal.again]
  have mine₁ : (s₁.client sptr).myClient = true := by
    rw [after]
    exact mine
  have found₁ : s₁.hashFindChannel chan = some c := by
    have names : ∀ d, (s₁.chan d).chname = (s.chan d).chname := by
      intro d
      rw [after]
      by_cases here : d = c
      · subst here
        simp [Tables.setChan, Channel.relist, Channel.setMaskList]
      · simp [Tables.setChan, here]
    have table : s₁.channelTable = s.channelTable := by
      rw [after]
      rfl
    rw [Tables.hashFindChannel_congr table names, found]
  have chan₁ : s₁.chan c =
      (s.chan c).relist .ban (ban :: (s.chan c).banlist) ((s.chan c).numBed + 1) := by
    rw [after]
    simp [Tables.setChan]
  have allowed₁ : (modeEnv s₁.toTables cptr sptr c).isok = true := by
    rw [← allowed, after]
    simp only [modeEnv, Tables.setChan, Function.update_self]
    rfl
  have whole := @modeBan_toTables s₁ cptr sptr c mine₁ chan named checked found₁ .del (by decide)
    parv0 given
  have change : banChange (modeEnv s₁.toTables cptr sptr c) .del (s₁.chan c) given =
      delId (s₁.chan c) ban.banstr .ban := by
    rw [banChange, allowed₁, comes]
    simp
  have self : irccmp ban.banstr ban.banstr = .eq := irccmp_self _
  have undone := @delId_head (s.chan c) ban (s.chan c).numBed count ban.banstr self
    (s.chan c).banlist
  rw [← chan₁] at undone
  intro s'
  have block : s'.chan c = delId (s₁.chan c) ban.banstr .ban := by
    rw [whole, change]
    simp [Tables.setChan]
  rw [block]
  exact undone

def ollysServer : Server := Command.join.run networkServer 3 3 [lit "olly", lit "#d"]

theorem modeBan_inverse_olly :
    (∀ given, given = lit "Joe@*.mit.edu" ∨ given = lit "*!Joe@*.mit.edu" →
      let s' := (ollysServer.modeBan 3 3 (lit "olly") (lit "#d") .add (lit "Joe@*.mit.edu")).modeBan
        3 3 (lit "olly") (lit "#d") .del given
      (s'.chan 2).banlist = (ollysServer.chan 2).banlist ∧
        (s'.chan 2).numBed = (ollysServer.chan 2).numBed) ∧
    ∀ m : CStr, (∀ c ∈ m, isSpace c = false) → normalMask (normalMask m) = normalMask m :=
  @modeBan_inverse ollysServer 3 3 2 (by decide +kernel) (by decide +kernel)
    (lit "olly") (lit "#d") (lit "Joe@*.mit.edu")
    { banstr := lit "*!Joe@*.mit.edu", who := lit "olly!o@irc.org", time := 100000 }
    (by decide +kernel)

end Server

end Ircd
