import Ircd.Channel.LocalView

/-! What the local members of a channel see of an SJOIN, where no line loses a word. -/

set_option autoImplicit false

namespace Ircd

section Lines

variable {v v' : LocalView} {chname : CStr} {t : Tables} {source : ClientId}

theorem isWord_colon {s : CStr} (h : isBlankFree s) : IsWord (':' :: s) := by
  refine ⟨List.cons_ne_nil _ _, fun c inside => ?_⟩
  cases List.mem_cons.1 inside with
  | inl colon => rw [colon]; rfl
  | inr rest => exact h c rest

theorem isWord_lit {s : String} (h : (s.toList ≠ [] ∧ ∀ c ∈ s.toList, isBlank c = false)) :
    IsWord (lit s) := h

/-- Neither `clean_nick_name` nor `m_server` lets the two marks of a source through. -/
def PlainNick (s : CStr) : Prop := ∀ c ∈ s, c ≠ '!' ∧ c ≠ '@'

instance (s : CStr) : Decidable (PlainNick s) :=
  inferInstanceAs (Decidable (∀ c ∈ s, c ≠ '!' ∧ c ≠ '@'))

/-- A character below the letters is in both of two equal names or in neither. -/
theorem mem_of_irccmp {a b : CStr} (same : irccmp a b = .eq) {d : Char} (low : d.toNat ≤ 64)
    (inside : d ∈ b) : d ∈ a := by
  have folded : toUpper d = d := by
    apply Char.toNat_inj.mp
    rw [toNat_toUpper, if_neg (by omega)]
  have upper : d ∈ a.map toUpper := by
    rw [(irccmp_eq_iff a b).1 same]
    exact List.mem_map.2 ⟨d, inside, folded⟩
  obtain ⟨e, member, code⟩ := List.mem_map.1 upper
  have code := congrArg Char.toNat code
  rw [toNat_toUpper] at code
  have plain : e = d := by
    apply Char.toNat_inj.mp
    split at code
    · omega
    · exact code
  rwa [← plain]

theorem isBlankFree_of_irccmp {a b : CStr} (same : irccmp a b = .eq) (free : isBlankFree a) :
    isBlankFree b := by
  intro d inside
  by_contra blank
  have space : d = ' ' := by simpa [isBlank] using blank
  have there := free ' ' (mem_of_irccmp same (by decide) (space ▸ inside))
  cases there

theorem plainNick_of_irccmp {a b : CStr} (same : irccmp a b = .eq) (plain : PlainNick a) :
    PlainNick b := by
  intro d inside
  constructor
  · rintro rfl
    exact (plain _ (mem_of_irccmp same (by decide) inside)).1 rfl
  · rintro rfl
    exact (plain _ (mem_of_irccmp same (by decide) inside)).2 rfl

/-- The source that the clients of this server read, for the sender in a pattern. -/
def Tables.senderOf (t : Tables) (source : ClientId) (par : CStr) : CStr :=
  if irccmp par (t.nameOf source) = .eq then t.nameOf source ++ t.prefixHost source else par

theorem prefixed_eq {par : CStr} (free : isBlankFree par) (rest : CStr) :
    t.prefixed source (':' :: par ++ ' ' :: rest) =
      (':' :: t.senderOf source par) ++ ' ' :: rest := by
  have word : ∀ c ∈ par, (c != ' ') = true := fun c inside => by
    have blank := free c inside
    simpa [isBlank] using blank
  have tail : (':' :: par ++ ' ' :: rest).tail = par ++ ' ' :: rest := rfl
  have first : (par ++ ' ' :: rest).takeWhile (· != ' ') = par := by
    rw [List.takeWhile_append_of_pos word]
    simp
  have second : (par ++ ' ' :: rest).dropWhile (· != ' ') = ' ' :: rest := by
    rw [List.dropWhile_append_of_pos word]
    simp
  unfold Tables.prefixed Tables.senderOf
  rw [tail]
  dsimp only
  rw [first, second]

theorem isBlankFree_senderOf {par : CStr} (free : isBlankFree par)
    (host : isBlankFree (t.prefixHost source)) : isBlankFree (t.senderOf source par) := by
  unfold Tables.senderOf
  split
  · next same => exact isBlankFree_append (isBlankFree_of_irccmp same free) host
  · exact free

theorem nickOf_senderOf {par : CStr} (plain : PlainNick par) :
    foldNick (nickOf (':' :: t.senderOf source par)) = foldNick par := by
  have whole {name : CStr} (plain : PlainNick name) :
      ∀ c ∈ name, (c != '!' && c != '@') = true := fun c inside => by
    simpa using plain c inside
  unfold nickOf Tables.senderOf
  rw [List.tail_cons]
  split
  · next same =>
    have marked : (t.prefixHost source).takeWhile (fun c => c != '!' && c != '@') = [] := by
      unfold Tables.prefixHost
      dsimp only
      split
      · split
        · rfl
        · split <;> rfl
      · rfl
    rw [List.takeWhile_append_of_pos (whole (plainNick_of_irccmp same plain)), marked,
      List.append_nil]
    exact ((irccmp_eq_iff _ _).1 same).symm
  · rw [List.takeWhile_eq_self_iff.2 (whole plain)]

theorem Output.Whole.words_eq {line : CStr} (whole : (Output.channelButserv chname source line).Whole t chname)
    (change : isChange (words (t.prefixed source line)) = true) :
    words (t.outbuf source line) = words (t.prefixed source line) := by
  apply whole (source, line)
  · simp [Output.butserv]
  · exact change

theorem hear_congr {a b : CStr} (same : words a = words b) : v.hear chname a = v.hear chname b := by
  unfold LocalView.hear
  rw [same]

theorem hear_mode {b : ModeBuf} {plus : Bool} (tells : b.Tells plus v v') (some : b.mbuf ≠ [])
    {sender : CStr} (senderWord : isBlankFree sender) (chan : IsWord chname)
    (host : isBlankFree (t.prefixHost source))
    (whole : (Output.channelButserv chname source
      (':' :: sender ++ lit " MODE " ++ chname ++ ' ' :: b.mbuf ++ ' ' :: b.parabuf)).Whole t chname) :
    v.hear chname (t.outbuf source
      (':' :: sender ++ lit " MODE " ++ chname ++ ' ' :: b.mbuf ++ ' ' :: b.parabuf)) = v' := by
  obtain ⟨args, para, isWords, reads⟩ := tells.args
  have spelt : ':' :: sender ++ lit " MODE " ++ chname ++ ' ' :: b.mbuf ++ ' ' :: b.parabuf =
      (':' :: sender) ++ ' ' :: (lit "MODE" ++ ' ' :: (chname ++ ' ' :: (b.mbuf ++
        ' ' :: b.parabuf))) := by
    simp [lit]
  rw [spelt] at whole ⊢
  have line : words (t.prefixed source ((':' :: sender) ++ ' ' :: (lit "MODE" ++ ' ' :: (chname ++
      ' ' :: (b.mbuf ++ ' ' :: b.parabuf))))) =
      (':' :: t.senderOf source sender) :: lit "MODE" :: chname :: b.mbuf :: args := by
    rw [prefixed_eq senderWord, words_cons (isWord_colon (isBlankFree_senderOf senderWord host)),
      words_cons (isWord_lit (by decide)), words_cons chan, words_cons ⟨some, tells.blankFree⟩, para,
      words_flatMap isWords]
  have shown := reads []
  rw [List.append_nil] at shown
  have notJoin : lit "MODE" ≠ lit "JOIN" := by decide
  rw [hear_congr (whole.words_eq (by rw [line]; rfl))]
  unfold LocalView.hear
  rw [line]
  simp only [irccmp_self, notJoin, false_and, if_false, and_true, if_true, shown]

theorem hear_join {nick chan : CStr} (nickWord : isBlankFree nick) (plain : PlainNick nick)
    (chanWord : isBlankFree chan) (same : irccmp chan chname = .eq)
    (host : isBlankFree (t.prefixHost source))
    (whole : (Output.channelButserv chname source
      (':' :: nick ++ lit " JOIN :" ++ chan)).Whole t chname) :
    v.hear chname (t.outbuf source (':' :: nick ++ lit " JOIN :" ++ chan)) = v.join nick := by
  have spelt : ':' :: nick ++ lit " JOIN :" ++ chan =
      (':' :: nick) ++ ' ' :: (lit "JOIN" ++ ' ' :: (':' :: chan)) := by
    simp [lit]
  rw [spelt] at whole ⊢
  have line : words (t.prefixed source ((':' :: nick) ++ ' ' :: (lit "JOIN" ++ ' ' :: (':' :: chan)))) =
      [':' :: t.senderOf source nick, lit "JOIN", ':' :: chan] := by
    rw [prefixed_eq nickWord, words_cons (isWord_colon (isBlankFree_senderOf nickWord host)),
      words_cons (isWord_lit (by decide)), words_of_isWord (isWord_colon chanWord)]
  rw [hear_congr (whole.words_eq (by rw [line]; rfl))]
  unfold LocalView.hear LocalView.join
  rw [line]
  simp only [unColon, List.head?_cons, if_true, List.tail_cons, same, and_self,
    nickOf_senderOf plain]

theorem hear_short {line : CStr} {a b : CStr}
    (few : words line = [] ∨ words line = [a] ∨ words line = [a, b]) : v.hear chname line = v := by
  unfold LocalView.hear
  rcases few with none | one | two
  · rw [none]
  · rw [one]
  · rw [two]

/-- The rest of a line that is no JOIN or MODE tells nothing, wherever it is cut. -/
theorem hear_other {source command rest : CStr} (n : Nat) (sourceWord : IsWord source)
    (commandWord : IsWord command) (notJoin : command ≠ lit "JOIN") (notMode : command ≠ lit "MODE") :
    v.hear chname ((source ++ ' ' :: (command ++ ' ' :: rest)).take n) = v := by
  have short {word : CStr} (h : isBlankFree word) : words word = [] ∨ words word = [word] := by
    by_cases empty : word = []
    · exact Or.inl (by rw [empty]; rfl)
    · exact Or.inr (words_of_isWord ⟨empty, h⟩)
  rw [List.take_append]
  cases beyond : n - source.length with
  | zero =>
    rw [List.take_zero, List.append_nil]
    have free : isBlankFree (source.take n) := fun c inside =>
      sourceWord.2 c (List.mem_of_mem_take inside)
    exact hear_short (b := []) ((short free).imp_right Or.inl)
  | succ m =>
    rw [List.take_of_length_le (by omega), List.take_succ_cons, List.take_append]
    cases later : m - command.length with
    | zero =>
      rw [List.take_zero, List.append_nil]
      have free : isBlankFree (command.take m) := fun c inside =>
        commandWord.2 c (List.mem_of_mem_take inside)
      apply hear_short (a := source) (b := command.take m)
      rw [words_cons sourceWord]
      rcases short free with none | one
      · exact Or.inr (Or.inl (by rw [none]))
      · exact Or.inr (Or.inr (by rw [one]))
    | succ k =>
      rw [List.take_of_length_le (by omega), List.take_succ_cons]
      unfold LocalView.hear
      rw [words_cons sourceWord, words_cons commandWord]
      cases words (rest.take k) with
      | nil => rfl
      | cons chan rest => simp only [notJoin, notMode, false_and, if_false]

end Lines

def Tables.announced (t : Tables) (cptr : ClientId) (c : ChanId) (keepNewModes : Bool)
    (v : LocalView) (s0 : CStr) : LocalView :=
  match t.resolveNick cptr s0 with
  | none => v
  | some a =>
    let nick := stripPrefixes s0
    let fl := sjoinNickFlags keepNewModes s0
    let v := if t.isMember a c then v else v.join nick
    let v := if fl.chanop then v.setOp true nick else v
    if fl.voice then v.setVoice true nick else v

def Tables.announcedAll (t : Tables) (cptr : ClientId) (c : ChanId) (keepNewModes : Bool)
    (v : LocalView) : List CStr → LocalView
  | [] => v
  | s0 :: toks =>
    (t.admitNick cptr c keepNewModes s0).announcedAll cptr c keepNewModes
      (t.announced cptr c keepNewModes v s0) toks

namespace Server

/-- Between the two servers the lines for the members of `chname`, if they come whole, take
`v` to `v'`. -/
def Shows (t : Tables) (chname : CStr) (s s' : Server) (v v' : LocalView) : Prop :=
  ∃ outs, s'.sent = s.sent ++ outs ∧
    ((∀ o ∈ outs, o.Whole t chname) → outs.foldl (LocalView.watch t chname) v = v')

namespace Shows

variable {t : Tables} {chname : CStr} {s s' s'' : Server} {v v' v'' : LocalView}

theorem of_sent (same : s'.sent = s.sent) : Shows t chname s s' v v :=
  ⟨[], by rw [same, List.append_nil], fun _ => rfl⟩

theorem trans (first : Shows t chname s s' v v') (second : Shows t chname s' s'' v' v'') :
    Shows t chname s s'' v v'' := by
  obtain ⟨outs, sent, seen⟩ := first
  obtain ⟨outs', sent', seen'⟩ := second
  refine ⟨outs ++ outs', ?_, fun whole => ?_⟩
  · rw [sent', sent, List.append_assoc]
  · obtain ⟨before, after⟩ := List.forall_mem_append.1 whole
    rw [List.foldl_append, seen before, seen' after]

theorem emit (s : Server) {o : Output} (seen : o.Whole t chname → v.watch t chname o = v') :
    Shows t chname s (s.emit o) v v' :=
  ⟨[o], rfl, fun whole => seen (whole o List.mem_cons_self)⟩

theorem butserv {c : ChanId} (named : (s.chan c).chname = chname) {source : ClientId}
    {line : CStr} (hears : (Output.channelButserv chname source line).Whole t chname →
      v.hear chname (t.outbuf source line) = v') :
    Shows t chname s (s.sendtoChannelButserv c source line) v v' := by
  refine (of_sent (Server.touch_sent s c)).trans ?_
  rw [← named] at hears ⊢
  apply emit (s.touch c)
  intro whole
  rw [LocalView.watch, if_pos rfl, hears whole]

theorem elsewhere {o : Output} (quiet : ∀ v : LocalView, v.watch t chname o = v) :
    Shows t chname s (s.emit o) v v := emit s fun _ => quiet v

theorem matchServs (c : ChanId) (cptr : ClientId) (line : CStr) :
    Shows t chname s (s.sendtoMatchServs (some c) cptr line) v v := by
  unfold sendtoMatchServs
  dsimp only
  split
  · exact of_sent (Server.touch_sent s c)
  · exact (of_sent (Server.touch_sent s c)).trans (elsewhere fun _ => rfl)

theorem notice {c : ChanId} (named : (s.chan c).chname = chname) {source : ClientId}
    (me : isBlankFree s.meName) (host : isBlankFree (t.prefixHost source)) {line : CStr}
    (text : CStr) (spelt : line = ':' :: s.meName ++ lit " NOTICE " ++ text) :
    Shows t chname s (s.sendtoChannelButserv c source line) v v := by
  have cut : line = (':' :: s.meName) ++ ' ' :: (lit "NOTICE" ++ ' ' :: text) := by
    simp [lit, spelt]
  apply butserv named
  intro _
  unfold Tables.outbuf
  rw [cut, prefixed_eq me]
  exact hear_other _ (isWord_colon (isBlankFree_senderOf me host)) (isWord_lit (by decide))
    (by decide) (by decide)

end Shows

/-- The lines since `s` and the buffer that waits take `v` to `w`. -/
def Pends (t : Tables) (chname : CStr) (s s' : Server) (b : ModeBuf) (v w : LocalView) : Prop :=
  ∃ plus u, Shows t chname s s' v u ∧ b.Tells plus u w

section Sending

variable {t : Tables} {chname sender : CStr} {s s' : Server} {c : ChanId} {sptr : ClientId}
  {b : ModeBuf} {v w : LocalView}

theorem Pends.sendit (pends : Pends t chname s s' b v w) (named : (s'.chan c).chname = chname)
    (senderWord : isBlankFree sender) (chan : IsWord chname)
    (host : isBlankFree (t.prefixHost sptr)) (some : b.mbuf ≠ []) : Shows t chname s (s'.sjoinSendit sptr c sender b) v w := by
  obtain ⟨plus, u, shows, tells⟩ := pends
  refine shows.trans (Shows.butserv named ?_)
  rw [named]
  exact hear_mode tells some senderWord chan host

theorem Pends.flush (pends : Pends t chname s s' b v w) (named : (s'.chan c).chname = chname)
    (senderWord : isBlankFree sender) (chan : IsWord chname)
    (host : isBlankFree (t.prefixHost sptr)) (some : b.mbuf ≠ [])
    {restart : ModeBuf} {plus : Bool} (restarts : restart.Tells plus w w) :
    Pends t chname s (s'.sjoinFlush sptr c sender restart b).1
      (s'.sjoinFlush sptr c sender restart b).2 v w := by
  unfold sjoinFlush
  split
  · exact ⟨plus, w, pends.sendit named senderWord chan host some, restarts⟩
  · exact pends

theorem para_mbuf (b : ModeBuf) (on : Bool) (letter : Char) (arg : CStr) :
    ((b.letter on letter).para arg).mbuf ≠ [] := by
  unfold ModeBuf.letter
  split <;> simp [ModeBuf.para]

theorem Pends.takeFlag (pends : Pends t chname s s' b v w) (named : (s'.chan c).chname = chname)
    (senderWord : isBlankFree sender) (chan : IsWord chname)
    (host : isBlankFree (t.prefixHost sptr)) (has : Bool) {letter : Char}
    {name : CStr} (isWord : IsWord name) {take : LocalView → LocalView}
    (blankFree : isBlank letter = false)
    (reads : ∀ w more, ModeReader.letter ⟨false, name :: more, w⟩ letter = ⟨false, more, take w⟩) :
    Pends t chname s (s'.sjoinTakeFlag sptr c sender has letter name b).1
      (s'.sjoinTakeFlag sptr c sender has letter name b).2 v (if has then take w else w) := by
  unfold sjoinTakeFlag
  cases has with
  | false => exact pends
  | true =>
    obtain ⟨plus, u, shows, tells⟩ := pends
    have taken := (tells.letter_para false blankFree isWord (reads w)).1
    have longer : Pends t chname s s' ((b.letter false letter).para name) v (take w) :=
      ⟨false, u, shows, taken⟩
    exact longer.flush named senderWord chan host (para_mbuf b false letter name)
      (ModeBuf.Tells.empty _)

def takenFrom (t : Tables) (links : List Member) (w : LocalView) : LocalView :=
  links.foldl (fun w link =>
    let w := if link.flags.chanop then w.setOp false (t.nameOf link.cptr) else w
    if link.flags.voice then w.setVoice false (t.nameOf link.cptr) else w) w

theorem Pends.takeFlags {links : List Member} (pends : Pends t chname s s' b v w)
    (named : (s'.chan c).chname = chname) (senderWord : isBlankFree sender) (chan : IsWord chname)
    (host : isBlankFree (t.prefixHost sptr))
    (names : ∀ link ∈ links, IsWord (s'.nameOf link.cptr)) :
    Pends t chname s (sjoinTakeFlags sptr c sender links s' b).1
      (sjoinTakeFlags sptr c sender links s' b).2 v (takenFrom s'.toTables links w) := by
  induction links generalizing s' b w with
  | nil => exact pends
  | cons link links ih =>
    have name := names link List.mem_cons_self
    have first := pends.takeFlag named senderWord chan host link.flags.chanop name rfl
      (fun w more => ModeReader.op w _ more false)
    have tables := sjoinTakeFlag_toTables s' sptr c sender link.flags.chanop 'o'
      (s'.nameOf link.cptr) b
    have name' : IsWord ((s'.sjoinTakeFlag sptr c sender link.flags.chanop 'o'
        (s'.nameOf link.cptr) b).1.nameOf link.cptr) := by rwa [tables]
    have second := first.takeFlag (by rwa [tables]) senderWord chan host link.flags.voice name' rfl
      (fun w more => ModeReader.voice w _ more false)
    have rest := ih second (by simpa using named)
      (fun other inside => by simpa using names other (List.mem_cons_of_mem _ inside))
    simpa [sjoinTakeFlags, takenFrom] using rest

theorem tells_plus (w : LocalView) : ModeBuf.plus.Tells true w w where
  args := ⟨[], rfl, by simp, fun _ => rfl⟩
  sign _ signed := (Option.some_ne_none _ signed.symm).elim
  blankFree := by simp [isBlankFree, ModeBuf.plus, isBlank]

/-- The buffer of the nick list: it stays under its plus, and holds a letter for every
argument. -/
structure Gives (t : Tables) (chname : CStr) (s s' : Server) (b : ModeBuf) (v w : LocalView) : Prop where
  pends : ∃ u, Shows t chname s s' v u ∧ b.Tells true u w
  unsigned : b.what = none
  begun : b.mbuf ≠ []
  idle : b.pargs = 0 → b.mbuf = ['+']

theorem Gives.giveFlag {st : SjoinLoop} (gives : Gives t chname s st.srv st.buf v w)
    (named : (st.srv.chan c).chname = chname) (senderWord : isBlankFree sender)
    (chan : IsWord chname) (host : isBlankFree (t.prefixHost sptr)) (has : Bool) {letter : Char}
    {name : CStr} (isWord : has = true → IsWord name) {give : LocalView → LocalView}
    (blankFree : isBlank letter = false)
    (reads : ∀ w more, ModeReader.letter ⟨true, name :: more, w⟩ letter = ⟨true, more, give w⟩) :
    Gives t chname s (st.giveFlag sptr c sender has letter name).srv
      (st.giveFlag sptr c sender has letter name).buf v (if has then give w else w) := by
  unfold SjoinLoop.giveFlag
  cases has with
  | false => exact gives
  | true =>
    obtain ⟨u, shows, tells⟩ := gives.pends
    have signed : ({ st.buf with what := some true } : ModeBuf).Tells true u w :=
      tells.relabel fun _ same => Option.some.inj same
    have given := (signed.letter_para true blankFree (isWord rfl) (reads w)).1.reset
    have same : ({ (({ st.buf with what := some true } : ModeBuf).letter true letter).para name with
        what := none } : ModeBuf) =
        ({ st.buf with mbuf := st.buf.mbuf ++ [letter] } : ModeBuf).para name := by
      simp [ModeBuf.letter, ModeBuf.para, gives.unsigned]
    rw [same] at given
    have longer : Pends t chname s st.srv
        (({ st.buf with mbuf := st.buf.mbuf ++ [letter] } : ModeBuf).para name) v (give w) :=
      ⟨true, u, shows, given⟩
    have some : (({ st.buf with mbuf := st.buf.mbuf ++ [letter] } : ModeBuf).para name).mbuf ≠ [] := by
      simp [ModeBuf.para]
    simp only [if_true, sjoinFlush]
    split
    · exact ⟨⟨_, longer.sendit named senderWord chan host some, tells_plus _⟩, rfl,
        List.cons_ne_nil _ _, fun _ => rfl⟩
    · refine ⟨⟨u, shows, given⟩, gives.unsigned, some, fun none => ?_⟩
      exact absurd none (Nat.succ_ne_zero _)

theorem Shows.addUserToChannel (s : Server) (c : ChanId) (who : ClientId) (flags : MemberFlags) :
    Shows t chname s (s.addUserToChannel c who flags) v v := by
  apply Shows.of_sent
  unfold Server.addUserToChannel
  split
  · exact Server.touch_sent s c
  · rfl

theorem Gives.admitClient {st : SjoinLoop} {req : SjoinRequest}
    (gives : Gives t chname s st.srv st.buf v w) (named : (st.srv.chan c).chname = chname)
    (senderWord : isBlankFree req.sender) (chan : IsWord chname)
    (host : isBlankFree (t.prefixHost sptr))
    (same : irccmp req.name chname = .eq) (nameWord : isBlankFree req.name) {s0 : CStr}
    (nickWord : IsWord (stripPrefixes s0)) (plain : PlainNick (stripPrefixes s0)) {a : ClientId}
    (userHost : isBlankFree (t.prefixHost a)) (keepNewModes : Bool) :
    Gives t chname s (st.admitClient sptr c req keepNewModes s0 a).srv
      (st.admitClient sptr c req keepNewModes s0 a).buf v
      (let fl := sjoinNickFlags keepNewModes s0
       let w := if st.srv.isMember a c then w else w.join (stripPrefixes s0)
       let w := if fl.chanop then w.setOp true (stripPrefixes s0) else w
       if fl.voice then w.setVoice true (stripPrefixes s0) else w) := by
  obtain ⟨u, shows, tells⟩ := gives.pends
  unfold SjoinLoop.admitClient
  dsimp only
  generalize hjoined : (if st.srv.isMember a c then st.srv else
    (st.srv.addUserToChannel c a (sjoinNickFlags keepNewModes s0)).sendtoChannelButserv c a
      (':' :: stripPrefixes s0 ++ lit " JOIN :" ++ req.name)) = joined
  have named' : (joined.chan c).chname = chname := by
    rw [← hjoined]
    split
    · exact named
    · rw [sendtoChannelButserv_toTables, addUserToChannel_toTables]
      exact (((Tables.sameChannels_addUserToChannel st.srv.toTables c a _).settings c).chname).trans
        named
  -- the JOIN is seen before the modes, and by the client that joins as well
  have entered : Gives t chname s joined st.buf v
      (if st.srv.isMember a c then w else w.join (stripPrefixes s0)) := by
    rw [← hjoined]
    refine ⟨?_, gives.unsigned, gives.begun, gives.idle⟩
    split
    · exact ⟨u, shows, tells⟩
    · refine ⟨u.join (stripPrefixes s0), ?_, tells.join _⟩
      have added := shows.trans (Shows.addUserToChannel st.srv c a
        (sjoinNickFlags keepNewModes s0))
      refine added.trans (Shows.butserv ?_ (hear_join nickWord.2 plain nameWord same userHost))
      rw [addUserToChannel_toTables]
      exact (((Tables.sameChannels_addUserToChannel st.srv.toTables c a _).settings c).chname).trans
        named
  generalize hentered : ({ st with
    srv := joined
    people := st.people + 1
    text := st.text ++ (if keepNewModes then s0 else stripPrefixes s0) ++ [' '] } : SjoinLoop) = st₁
  have entered₁ : Gives t chname s st₁.srv st₁.buf v
      (if st.srv.isMember a c then w else w.join (stripPrefixes s0)) := by
    rw [← hentered]
    exact entered
  have named₁ : (st₁.srv.chan c).chname = chname := by
    rw [← hentered]
    exact named'
  have op := entered₁.giveFlag named₁ senderWord chan host
    (sjoinNickFlags keepNewModes s0).chanop (fun _ => nickWord) rfl
    (fun w more => ModeReader.op w _ more true)
  have named₂ : ((st₁.giveFlag sptr c req.sender (sjoinNickFlags keepNewModes s0).chanop 'o'
      (stripPrefixes s0)).srv.chan c).chname = chname := by
    rwa [SjoinLoop.giveFlag_toTables]
  exact op.giveFlag named₂ senderWord chan host (sjoinNickFlags keepNewModes s0).voice
    (fun _ => nickWord) rfl (fun w more => ModeReader.voice w _ more true)

/-- Who is found by a nick, now or before, has words for a host, and the nick is one. -/
def Chased (t u : Tables) : Prop :=
  ∀ nick a, u.chase nick = some a → nick ≠ [] ∧ PlainNick nick ∧ isBlankFree (t.prefixHost a)

theorem Gives.nick {st : SjoinLoop} (cptr : ClientId) {req : SjoinRequest}
    (gives : Gives t chname s st.srv st.buf v w) (named : (st.srv.chan c).chname = chname)
    (senderWord : isBlankFree req.sender) (chan : IsWord chname)
    (host : isBlankFree (t.prefixHost sptr))
    (same : irccmp req.name chname = .eq) (nameWord : isBlankFree req.name) {s0 : CStr}
    (tokenWord : isBlankFree s0) (chased : Chased t st.srv.toTables) (keepNewModes : Bool) :
    Gives t chname s (st.nick cptr sptr c req keepNewModes s0).srv
      (st.nick cptr sptr c req keepNewModes s0).buf v
      (st.srv.toTables.announced cptr c keepNewModes w s0) := by
  have nickWord : isBlankFree (stripPrefixes s0) := fun d inside =>
    tokenWord d ((List.dropWhile_sublist _).subset inside)
  unfold SjoinLoop.nick Server.findChasing Tables.announced Tables.resolveNick
  cases found : st.srv.chase (stripPrefixes s0) with
  | none =>
    obtain ⟨u, shows, tells⟩ := gives.pends
    exact ⟨⟨u, shows.trans (Shows.elsewhere fun _ => rfl), tells⟩, gives.unsigned, gives.begun,
      gives.idle⟩
  | some a =>
    obtain ⟨some, plain, userHost⟩ := chased _ a found
    have isWord : IsWord (stripPrefixes s0) := ⟨some, nickWord⟩
    simp only
    by_cases behind : (st.srv.client a).from_ = cptr
    · rw [if_neg (not_not.2 behind), if_pos behind]
      exact gives.admitClient named senderWord chan host same nameWord isWord plain userHost
        keepNewModes
    · rw [if_pos behind, if_neg behind]
      exact gives

theorem Gives.nicks (cptr : ClientId) {req : SjoinRequest} (senderWord : isBlankFree req.sender)
    (chan : IsWord chname) (host : isBlankFree (t.prefixHost sptr)) (same : irccmp req.name chname = .eq) (nameWord : isBlankFree req.name)
    (keepNewModes : Bool) {toks : List CStr} (tokenWords : ∀ s0 ∈ toks, isBlankFree s0)
    {st : SjoinLoop} (gives : Gives t chname s st.srv st.buf v w)
    (named : (st.srv.chan c).chname = chname)
    (chased : Chased t st.srv.toTables) :
    Gives t chname s (toks.foldl (fun st s0 => st.nick cptr sptr c req keepNewModes s0) st).srv
      (toks.foldl (fun st s0 => st.nick cptr sptr c req keepNewModes s0) st).buf v
      (st.srv.toTables.announcedAll cptr c keepNewModes w toks) := by
  induction toks generalizing st w with
  | nil => exact gives
  | cons s0 toks ih =>
    have next := gives.nick cptr named senderWord chan host same nameWord
      (tokenWords s0 List.mem_cons_self) chased keepNewModes
    have tables := st.nick_toTables cptr sptr c req keepNewModes s0
    rw [List.foldl_cons, Tables.announcedAll, ← tables]
    refine ih (fun other inside => tokenWords other (List.mem_cons_of_mem _ inside)) next ?_ ?_
    · rw [tables]
      exact (((Tables.sameChannels_admitNick cptr c keepNewModes st.srv.toTables s0).settings
        c).chname).trans named
    · intro nick a found
      rw [tables, (Tables.sameDirectory_admitNick cptr c keepNewModes st.srv.toTables s0).chase] at found
      exact chased nick a found

theorem Gives.relay {st : SjoinLoop} {cptr : ClientId} {req : SjoinRequest}
    (gives : Gives t chname s st.srv st.buf v w) (named : (st.srv.chan c).chname = chname)
    (senderWord : isBlankFree req.sender) (chan : IsWord chname)
    (host : isBlankFree (t.prefixHost sptr)) (header : CStr) :
    Shows t chname s (sjoinRelay cptr sptr c req header st) v w := by
  have flushed : Shows t chname s
      (if st.buf.pargs ≠ 0 then st.srv.sjoinSendit sptr c req.sender st.buf else st.srv) v w := by
    obtain ⟨u, shows, tells⟩ := gives.pends
    split
    · have pends : Pends t chname s st.srv st.buf v w := ⟨true, u, shows, tells⟩
      exact pends.sendit named senderWord chan host gives.begun
    · next idle =>
      obtain ⟨args, _, _, reads⟩ := tells.args
      have done := reads []
      rw [gives.idle (not_not.1 idle)] at done
      have unchanged : u = w := congrArg ModeReader.view done
      rwa [← unchanged]
  unfold sjoinRelay
  dsimp only
  split
  · exact flushed.trans (Shows.matchServs c cptr _)
  · exact flushed

theorem shows_sjoinModeChanges {req : SjoinRequest} (mode : v.mode = (s.chan c).mode)
    (named : (s.chan c).chname = chname) (senderWord : isBlankFree req.sender)
    (chan : IsWord chname) (host : isBlankFree (t.prefixHost sptr)) (me : isBlankFree s.meName)
    (meHost : isBlankFree (t.prefixHost s.me))
    (names : ∀ link ∈ (s.chan c).members, IsWord (s.nameOf link.cptr)) (ts : SjoinTs)
    (oldKey : (s.chan c).mode.key ≠ [] → (sjoinMerge ts (s.chan c).mode req.mode).key = [] →
      isBlankFree (s.chan c).mode.key) (newKey : isBlankFree req.mode.key)
    (limit : -(2 ^ 31) ≤ req.mode.limit ∧ req.mode.limit < 2 ^ 31) (oldts : Int) :
    Shows t chname s (s.sjoinModeChanges sptr c req ts oldts) v
      (let v := { v with mode := sjoinMerge ts (s.chan c).mode req.mode }
       if ts.keepOurModes then v else takenFrom s.toTables (s.chan c).members v) := by
  -- what the merge writes into key and limit comes from the request
  have merged : ((s.chan c).mode.key ≠ (sjoinMerge ts (s.chan c).mode req.mode).key →
        (sjoinMerge ts (s.chan c).mode req.mode).key = req.mode.key) ∧
      ((s.chan c).mode.limit ≠ (sjoinMerge ts (s.chan c).mode req.mode).limit →
        (sjoinMerge ts (s.chan c).mode req.mode).limit = req.mode.limit) := by
    unfold sjoinMerge
    split
    · exact ⟨fun other => absurd rfl other, fun other => absurd rfl other⟩
    · split
      · refine ⟨fun other => ?_, fun other => ?_⟩
        · dsimp only at other ⊢
          split
          · next less => exact absurd (if_pos less).symm other
          · rfl
        · dsimp only at other ⊢
          split
          · next more => exact absurd (if_pos more).symm other
          · rfl
      · exact ⟨fun _ => rfl, fun _ => rfl⟩
  obtain ⟨plus, tells⟩ := ModeBuf.Tells.sjoinModeBuf mode oldKey
    (fun other => by rw [merged.1 other]; exact newKey)
    (fun other => by rw [merged.2 other]; exact limit)
  unfold sjoinModeChanges
  dsimp only
  generalize sjoinMerge ts (s.chan c).mode req.mode = new at tells
  generalize sjoinModeBuf (s.chan c).mode new = b at tells
  generalize hchanged : s.setChan c { s.chan c with mode := new, channelts := ts.channelts } =
    changed
  have set : Shows t chname s changed v v := by
    rw [← hchanged]
    exact Shows.of_sent rfl
  have tables : changed.toTables =
      s.toTables.setChan c { s.chan c with mode := new, channelts := ts.channelts } := by
    rw [← hchanged, setChan_toTables]
  have named' : (changed.chan c).chname = chname := by
    rw [tables, Tables.setChan_chan, if_pos rfl]
    exact named
  -- our modes stay and theirs are added, or the channel starts again from theirs
  cases ts.keepOurModes with
  | true =>
    simp only [if_true]
    split
    · next some => exact Pends.sendit ⟨plus, v, set, tells⟩ named' senderWord chan host some
    · next none =>
      rw [tells.same_of_empty (not_not.1 none)]
      exact set
  | false =>
    simp only [Bool.false_eq_true, if_false]
    have members : (changed.chan c).members = (s.chan c).members := by
      rw [tables, Tables.setChan_chan, if_pos rfl]
    have nameOf : changed.nameOf = s.nameOf := by
      funext u
      rw [tables]
      rfl
    have taken := Pends.takeFlags (c := c) ⟨plus, v, set, tells.reset⟩ named' senderWord chan host
      (show ∀ link ∈ (changed.chan c).members, IsWord (changed.nameOf link.cptr) by
        rwa [members, nameOf])
    have same : takenFrom changed.toTables (changed.chan c).members { v with mode := new } =
        takenFrom s.toTables (s.chan c).members { v with mode := new } := by
      rw [members, takenFrom, takenFrom, nameOf]
    rw [same] at taken
    have tables' := sjoinTakeFlags_toTables changed sptr c req.sender (changed.chan c).members
      { b with what := none }
    generalize sjoinTakeFlags sptr c req.sender (changed.chan c).members changed
      { b with what := none } = r at taken tables'
    obtain ⟨plus', u, shows, tells'⟩ := taken
    have wiped : Shows t chname s (r.1.setChan c (r.1.chan c).wipeFlags) v u :=
      shows.trans (Shows.of_sent rfl)
    have named'' : ((r.1.setChan c (r.1.chan c).wipeFlags).chan c).chname = chname := by
      rw [setChan_toTables, Tables.setChan_chan, if_pos rfl, tables']
      exact named'
    have meName : (r.1.setChan c (r.1.chan c).wipeFlags).meName = s.meName := by
      rw [setChan_toTables, tables', tables]
      rfl
    have me_ : (r.1.setChan c (r.1.chan c).wipeFlags).me = s.me := by
      rw [setChan_toTables, tables', tables]
      rfl
    -- the notice goes out between the flags that are taken and the modes that are sent
    generalize r.1.setChan c (r.1.chan c).wipeFlags = after at wiped named'' meName me_
    have told : Shows t chname s (after.sendtoChannelButserv c after.me
        (':' :: after.meName ++ lit " NOTICE " ++ (after.chan c).chname ++
          lit " :*** Notice -- TS for " ++ (after.chan c).chname ++ lit " changed from " ++
          formatTime oldts ++ lit " to " ++ formatTime req.newts)) v u := by
      refine wiped.trans (Shows.notice named'' (by rwa [meName]) (by rwa [me_]) ((after.chan c).chname ++
        lit " :*** Notice -- TS for " ++ (after.chan c).chname ++ lit " changed from " ++
        formatTime oldts ++ lit " to " ++ formatTime req.newts) ?_)
      simp only [List.append_assoc]
    split
    · next some =>
      have named₃ : ∀ line, ((after.sendtoChannelButserv c after.me line).chan c).chname = chname := by
        intro line
        rw [sendtoChannelButserv_toTables]
        exact named''
      exact Pends.sendit ⟨plus', u, told, tells'⟩ (named₃ _) senderWord chan host some
    · next none =>
      rw [tells'.same_of_empty (not_not.1 none)]
      exact told

theorem shows_sjoinTsZero (req : SjoinRequest) (named : (s.chan c).chname = chname)
    (me : isBlankFree s.meName) (meHost : isBlankFree (t.prefixHost s.me)) (isnew : Bool) :
    Shows t chname s (s.sjoinTsZero sptr c req isnew) v v := by
  unfold sjoinTsZero
  dsimp only
  split
  · have told : Shows t chname s (s.sendtoChannelButserv c s.me
        (':' :: s.meName ++ lit " NOTICE " ++ (s.chan c).chname ++ lit " :*** Notice -- TS for " ++
          (s.chan c).chname ++ lit " changed from " ++ formatTime (s.chan c).channelts ++
          lit " to 0")) v v := by
      refine Shows.notice named me meHost ((s.chan c).chname ++ lit " :*** Notice -- TS for " ++
        (s.chan c).chname ++ lit " changed from " ++ formatTime (s.chan c).channelts ++
        lit " to 0") ?_
      simp only [List.append_assoc]
    exact told.trans (Shows.elsewhere fun _ => rfl)
  · exact Shows.of_sent rfl

structure Legible (t : Tables) (sptr : ClientId) (c : ChanId) (req : SjoinRequest) : Prop where
  sender : isBlankFree req.sender
  host : isBlankFree (t.prefixHost sptr)
  name : isBlankFree req.name
  same : irccmp req.name (t.chan c).chname = .eq
  chan : IsWord (t.chan c).chname
  me : isBlankFree t.meName
  meHost : isBlankFree (t.prefixHost t.me)
  names : ∀ u ∈ (t.chan c).memberIds, IsWord (t.nameOf u)
  newKey : isBlankFree req.mode.key
  limit : -(2 ^ 31) ≤ req.mode.limit ∧ req.mode.limit < 2 ^ 31
  chased : Chased t t

/-- A key that is taken away is one word. -/
def KeyTold (t : Tables) (c : ChanId) (req : SjoinRequest) (ts : SjoinTs) : Prop :=
  (t.chan c).mode.key ≠ [] → (sjoinMerge ts (t.chan c).mode req.mode).key = [] →
    isBlankFree (t.chan c).mode.key

instance (t : Tables) (c : ChanId) (req : SjoinRequest) (ts : SjoinTs) :
    Decidable (KeyTold t c req ts) :=
  inferInstanceAs (Decidable (_ → _ → isBlankFree _))

def decidedView (t : Tables) (c : ChanId) (req : SjoinRequest) (ts : SjoinTs) (v : LocalView) :
    LocalView :=
  let v := { v with mode := sjoinMerge ts (t.chan c).mode req.mode }
  if ts.keepOurModes then v else takenFrom t (t.chan c).members v

theorem shows_sjoinChannel {req : SjoinRequest} {isnew : Bool}
    (legible : Legible s.toTables sptr c req)
    (keyTold : KeyTold s.toTables c req (s.sjoinTsOf c req isnew))
    (mode : v.mode = (s.chan c).mode) (cptr : ClientId) :
    Shows s.toTables (s.chan c).chname s (s.sjoinChannel cptr sptr c req isnew) v
      ((s.setChan c (Tables.sjoinDecided (s.chan c) (s.sjoinTsOf c req isnew)
        req.mode)).toTables.announcedAll cptr c (s.sjoinTsOf c req isnew).keepNewModes
        (decidedView s.toTables c req (s.sjoinTsOf c req isnew) v) (tokens isBlank req.nicks)) := by
  unfold sjoinChannel
  dsimp only
  generalize s.sjoinTsOf c req isnew = ts at keyTold ⊢
  generalize (s.chan c).channelts = oldts
  have zeroed : Shows s.toTables (s.chan c).chname s (s.sjoinTsZero sptr c req isnew) v v :=
    shows_sjoinTsZero req rfl legible.me legible.meHost isnew
  have tables := s.sjoinTsZero_toTables sptr c req isnew
  generalize s.sjoinTsZero sptr c req isnew = s₁ at zeroed tables
  have names : ∀ link ∈ (s₁.chan c).members, IsWord (s₁.nameOf link.cptr) := by
    intro link inside
    rw [tables] at inside ⊢
    exact legible.names link.cptr (List.mem_map_of_mem inside)
  have changed : Shows s.toTables (s.chan c).chname s₁ (s₁.sjoinModeChanges sptr c req ts oldts) v
      (decidedView s₁.toTables c req ts v) :=
    shows_sjoinModeChanges (by rw [tables]; exact mode) (by rw [tables]) legible.sender
      legible.chan legible.host (by rw [tables]; exact legible.me)
      (by rw [tables]; exact legible.meHost) names ts (by rw [tables]; exact keyTold)
      legible.newKey legible.limit oldts
  have tables₂ := s₁.sjoinModeChanges_toTables sptr c req ts oldts
  generalize s₁.sjoinModeChanges sptr c req ts oldts = s₂ at changed tables₂
  rw [tables] at changed tables₂
  have named₂ : (s₂.chan c).chname = (s.chan c).chname := by
    rw [tables₂, Tables.setChan_chan, if_pos rfl]
    exact (Tables.sjoinDecided_settings (s.chan c) ts req.mode).1
  -- from here on the buffer holds what has been granted and not sent yet
  have start : Gives s.toTables (s.chan c).chname s s₂ ModeBuf.plus v
      (decidedView s.toTables c req ts v) :=
    ⟨⟨_, zeroed.trans changed, tells_plus _⟩, rfl, List.cons_ne_nil _ _, fun _ => rfl⟩
  have chased : Chased s.toTables s₂.toTables := by
    intro nick a found
    rw [tables₂, (Tables.sameDirectory_setChan s.toTables c _).chase] at found
    exact legible.chased nick a found
  generalize hbegun : ({ srv := s₂, text := [], people := 0, buf := ModeBuf.plus } : SjoinLoop) =
    begun
  have srv : begun.srv = s₂ := by rw [← hbegun]
  have buf : begun.buf = ModeBuf.plus := by rw [← hbegun]
  rw [← srv, ← buf] at start
  rw [← srv] at named₂ chased
  have tokenWords : ∀ s0 ∈ tokens isBlank req.nicks, isBlankFree s0 :=
    fun s0 inside => not_sep_of_mem_tokens inside
  have walked := start.nicks cptr legible.sender legible.chan legible.host legible.same
    legible.name ts.keepNewModes tokenWords named₂ chased
  have nicks : (s₂.sjoinNicks cptr sptr c req ts.keepNewModes) =
      (tokens isBlank req.nicks).foldl
        (fun st s0 => st.nick cptr sptr c req ts.keepNewModes s0) begun := by
    rw [← hbegun]
    rfl
  have named₃ : ((s₂.sjoinNicks cptr sptr c req ts.keepNewModes).srv.chan c).chname =
      (s.chan c).chname := by
    rw [sjoinNicks_toTables, ← srv]
    exact ((Tables.sameChannels_admitNicks cptr c ts.keepNewModes begun.srv.toTables
      (tokens isBlank req.nicks)).settings c).chname.trans named₂
  rw [← nicks, srv, tables₂] at walked
  exact walked.relay named₃ legible.sender legible.chan legible.host _

end Sending

end Server

end Ircd
