import Ircd.Channel.ModeClean
import Ircd.Channel.ModeQuery
import Ircd.Text.Glob

/-! The buffers of `set_channel_mode`.

They are in bounds exactly if each letter `HasRoom`, which is not what the code asks. `len`
is meant to count what goes into `modebuf` and `parabuf`. It counts a parameter as it was
typed, and a `-l` not at all: `Accounted` says that a letter writes no more than is counted
for it, and under it the buffers have room. The lines made of them have room where the names
leave `modeChars` characters, which is more than `len` may grow to: the letters of parameters
are not counted either.
-/

set_option autoImplicit false

namespace Ircd

def ModeLine.paras (line : ModeLine) : Nat := line.countP fun e => e.para.isSome

def ModeEntry.room (entry : ModeEntry) : Nat := entry.para.elim 0 fun arg => arg.length + 1

theorem ModeLine.parabuf_concat (line : ModeLine) (entry : ModeEntry) :
    ModeLine.parabuf (line ++ [entry]) =
      line.parabuf ++ entry.para.elim [] fun arg => arg ++ [' '] := by
  unfold ModeLine.parabuf
  rw [List.flatMap_append, List.flatMap_singleton]
  cases entry.para <;> rfl

theorem ModeLine.length_parabuf_concat (line : ModeLine) (entry : ModeEntry) :
    (ModeLine.parabuf (line ++ [entry])).length = line.parabuf.length + entry.room := by
  rw [ModeLine.parabuf_concat, List.length_append]
  unfold ModeEntry.room
  cases entry.para <;> simp

theorem ModeLine.paras_concat (line : ModeLine) (entry : ModeEntry) :
    ModeLine.paras (line ++ [entry]) = line.paras + if entry.para.isSome then 1 else 0 := by
  unfold ModeLine.paras
  rw [List.countP_append, List.countP_singleton]

/-- The three pairs of buffers hold what was written to them, terminators included;
`modebuf` before `collapse_signs`. -/
structure ModeLine.Fits (line : ModeLine) : Prop where
  modebuf : 2 * line.length + 1 ≤ modeBufLen
  parabuf : line.parabuf.length + 1 ≤ modeBufLen

/-- The longest of the copies of a line: its clients read it with the host of the source. -/
def Output.relayText (t : Tables) : Output → Option CStr
  | .channelButserv _ source text => some (t.prefixed source text)
  | .channelChanopsButserv _ source text => some (t.prefixed source text)
  | .matchServs _ _ text => some text
  | .matchCapServs _ _ _ text => some text
  | .servButone _ text => some text
  | _ => none

/-- `\r\n` goes with a line, and the whole has 512 characters at most. -/
def Output.ShortLine (t : Tables) (o : Output) : Prop :=
  ∀ text, o.relayText t = some text → text.length + 2 ≤ bufSize

/-- How a line of the command begins for the clients of this server. -/
def ModeEnv.head (env : ModeEnv) : CStr :=
  env.tables.prefixed env.sptr (':' :: (env.source.name ++ lit " MODE "))

/-- How long the source of a line of the command gets. -/
def ModeEnv.senderLen (env : ModeEnv) : Nat :=
  env.source.name.length + (env.tables.prefixHost env.sptr).length

namespace Tables

theorem prefixed_append (t : Tables) (source : ClientId) {line : CStr} (blank : ' ' ∈ line)
    (rest : CStr) :
    t.prefixed source (':' :: (line ++ rest)) = t.prefixed source (':' :: line) ++ rest := by
  have stops : ¬ ∀ c ∈ line, (c != ' ') = true := by
    intro free
    exact absurd (free ' ' blank) (by decide)
  have par : (line ++ rest).takeWhile (· != ' ') = line.takeWhile (· != ' ') := by
    rw [List.takeWhile_append, if_neg]
    intro whole
    apply stops
    rw [← List.takeWhile_eq_self_iff]
    exact (List.takeWhile_prefix _).eq_of_length whole
  have words : (line ++ rest).dropWhile (· != ' ') = line.dropWhile (· != ' ') ++ rest := by
    rw [List.dropWhile_append, if_neg]
    intro none
    apply stops
    rw [← List.dropWhile_eq_nil_iff]
    exact List.isEmpty_iff.mp none
  unfold prefixed
  dsimp only [List.tail_cons]
  rw [par, words]
  simp only [List.cons_append, List.append_assoc]

theorem length_le_prefixed (t : Tables) (source : ClientId) (line : CStr) :
    line.length + 1 ≤ (t.prefixed source (':' :: line)).length := by
  have whole : (line.takeWhile (· != ' ')).length + (line.dropWhile (· != ' ')).length =
      line.length := by
    rw [← List.length_append, List.takeWhile_append_dropWhile]
  unfold prefixed
  dsimp only [List.tail_cons]
  split
  · next same =>
    have length := congrArg List.length ((irccmp_eq_iff _ _).1 same)
    rw [List.length_map, List.length_map] at length
    simp only [List.length_append, List.length_cons]
    omega
  · simp only [List.length_append, List.length_cons]
    omega

end Tables

namespace ModeLoop

/-- The changes, the characters of their parameters, and the parameters, in the three
pairs of buffers together. -/
def changes (st : ModeLoop) : Nat :=
  st.modeLine.length + st.newLine.length + st.newLine2.length

def paraChars (st : ModeLoop) : Nat :=
  st.modeLine.parabuf.length + st.newLine.parabuf.length + st.newLine2.parabuf.length

def paraCount (st : ModeLoop) : Nat :=
  st.modeLine.paras + st.newLine.paras + st.newLine2.paras

/-- The pair of buffers that the masks of a list go to; all the rest goes with the bans. -/
def lineOf (st : ModeLoop) : ListKind → ModeLine
  | .ban => st.modeLine
  | .exception => st.newLine
  | .invex => st.newLine2

/-- The line that is made of two buffers has at most 510 characters, with the host of the
source, as its clients here read it. -/
def ShortLine (env : ModeEnv) (st : ModeLoop) (modebuf parabuf : CStr) : Prop :=
  env.head.length + st.ch.chname.length + 1 + modebuf.length + 1 + parabuf.length + 2 ≤ bufSize

/-- Where a new key replaces the old one, the line of the `-k` is a legal one. -/
def RemovalFits (env : ModeEnv) (st : ModeLoop) (c : Char) : Prop :=
  c = 'k' → env.isok = true → st.whatt = .add → st.keychange = false →
    ∀ arg rest, st.keyArgument env = some (arg, rest) → arg ≠ [] →
      st.fits (arg.take keyLen).length = true → st.ch.mode.key ≠ [] →
        st.ch.mode.key ≠ arg.take keyLen → st.ShortLine env (lit "-k") st.ch.mode.key

/-- The check that is missing, in the state before the letter: what it is about to append
has room in its pair of buffers, and in the line. -/
structure HasRoom (env : ModeEnv) (st : ModeLoop) (c : Char) : Prop where
  buffers : ∀ kind entry, (st.letter env c).lineOf kind = st.lineOf kind ++ [entry] →
    ModeLine.Fits (st.lineOf kind ++ [entry])
  line : ∀ kind entry, (st.letter env c).lineOf kind = st.lineOf kind ++ [entry] →
    st.ShortLine env (ModeLine.modebuf (st.lineOf kind ++ [entry]))
      (ModeLine.parabuf (st.lineOf kind ++ [entry]))
  oldKey : RemovalFits env st c

/-- A letter writes no more than is counted for it, in the state before it. `few` says
that the command has so few letters that they cannot fill a `modebuf`. -/
structure Accounted (env : ModeEnv) (few : Prop) (st : ModeLoop) (c : Char) : Prop where
  /-- The client found is not called by a longer name than the one given. -/
  member : c = 'o' ∨ c = 'v' → env.isok = true → st.whatt ≠ .query →
    ∀ para rest, st.parv = para :: rest → st.fits (checkString para).length = true →
      ∀ who, env.tables.chase (checkString para) = some who →
        env.tables.isMember who env.chan = true →
          (env.tables.nameOf who).length ≤ (checkString para).length ∧
            (checkString para = [] → few)
  /-- `-k *` comes with a key that is no longer than the `*`. -/
  key : c = 'k' → env.isok = true → st.whatt = .del → st.keychange = false →
    (∀ para rest, st.parv = para :: rest → checkString para = ['*']) → st.fits 1 = true →
      st.ch.mode.key.length ≤ 1
  oldKey : RemovalFits env st c
  /-- `-l` is not counted at all. -/
  limit : c = 'l' → env.isok = true → st.whatt = .del → st.limitset = false → few
  /-- The two characters of an empty mask are counted as one. -/
  mask : c = 'b' ∨ c = 'e' ∨ c = 'I' → env.isok = true → st.whatt ≠ .query →
    ∀ para rest, st.parv = para :: rest →
      (if env.myClient then collapse (prettyMask (checkString para)) else checkString para) = [] →
        few

/-- What a step adds to the buffers and to `len`, and what it keeps of the rest. `legal`
says that the line of a `-k` is one. -/
structure Adds (env : ModeEnv) (legal : Prop) (st st' : ModeLoop)
    (changes paraChars paraCount len : Nat) : Prop where
  changes : st'.changes = st.changes + changes
  paraChars : st'.paraChars = st.paraChars + paraChars
  paraCount : st'.paraCount = st.paraCount + paraCount
  len : st'.len = st.len + len
  keychange : st.keychange = true → st'.keychange = true
  limitset : st.limitset = true → st'.limitset = true
  chname : st'.ch.chname = st.ch.chname
  out : legal → (∀ o ∈ st.out, o.ShortLine env.tables) → ∀ o ∈ st'.out, o.ShortLine env.tables
  lines : ∀ kind, st.lineOf kind <+: st'.lineOf kind
  sent : ∀ o ∈ st.out, o ∈ st'.out

namespace Adds

variable {env : ModeEnv} {legal : Prop} {st st' st'' : ModeLoop} {m p k l m' p' k' l' : Nat}

theorem same (lines : ∀ kind, st'.lineOf kind = st.lineOf kind) (len : st'.len = st.len)
    (keychange : st.keychange = true → st'.keychange = true)
    (limitset : st.limitset = true → st'.limitset = true) (chname : st'.ch.chname = st.ch.chname)
    (out : st'.out = st.out) : Adds env legal st st' 0 0 0 0 := by
  have modeLine : st'.modeLine = st.modeLine := lines .ban
  have newLine : st'.newLine = st.newLine := lines .exception
  have newLine2 : st'.newLine2 = st.newLine2 := lines .invex
  refine ⟨?_, ?_, ?_, len, keychange, limitset, chname, ?_, ?_, ?_⟩
  · rw [ModeLoop.changes, modeLine, newLine, newLine2]
    rfl
  · rw [ModeLoop.paraChars, modeLine, newLine, newLine2]
    rfl
  · rw [ModeLoop.paraCount, modeLine, newLine, newLine2]
    rfl
  · rw [out]
    exact fun _ => id
  · exact fun kind => (lines kind) ▸ List.prefix_rfl
  · rw [out]
    exact fun _ => id

theorem refl (env : ModeEnv) (st : ModeLoop) : Adds env legal st st 0 0 0 0 :=
  same (fun _ => rfl) rfl id id rfl rfl

theorem trans (h : Adds env legal st st' m p k l) (h' : Adds env legal st' st'' m' p' k' l') :
    Adds env legal st st'' (m + m') (p + p') (k + k') (l + l') where
  changes := by rw [h'.changes, h.changes, Nat.add_assoc]
  paraChars := by rw [h'.paraChars, h.paraChars, Nat.add_assoc]
  paraCount := by rw [h'.paraCount, h.paraCount, Nat.add_assoc]
  len := by rw [h'.len, h.len, Nat.add_assoc]
  keychange := fun set => h'.keychange (h.keychange set)
  limitset := fun set => h'.limitset (h.limitset set)
  chname := h'.chname.trans h.chname
  out := fun legal out => h'.out legal (h.out legal out)
  lines := fun kind => (h.lines kind).trans (h'.lines kind)
  sent := fun o inside => h'.sent o (h.sent o inside)

theorem after (h : Adds env legal st st' 0 0 0 0) (h' : Adds env legal st' st'' m p k l) :
    Adds env legal st st'' m p k l := by
  have both := h.trans h'
  rwa [Nat.zero_add, Nat.zero_add, Nat.zero_add, Nat.zero_add] at both

theorem touch (st : ModeLoop) : Adds env legal st st.touch 0 0 0 0 := by
  unfold ModeLoop.touch
  split
  · exact Adds.same (fun _ => rfl) rfl id id rfl rfl
  · exact refl env st

theorem eat (st : ModeLoop) : Adds env legal st st.eat 0 0 0 0 :=
  Adds.same (fun _ => rfl) rfl id id rfl rfl

theorem emit (st : ModeLoop) {o : Output} (short : legal → o.ShortLine env.tables) :
    Adds env legal st (st.emit o) 0 0 0 0 where
  changes := rfl
  paraChars := rfl
  paraCount := rfl
  len := rfl
  keychange := id
  limitset := id
  chname := rfl
  out := by
    intro legal out o' inside
    rcases List.mem_append.mp inside with old | new
    · exact out o' old
    · rw [List.mem_singleton.mp new]
      exact short legal
  lines := fun _ => List.prefix_rfl
  sent := fun _ => List.mem_append_left _

theorem emit_private (st : ModeLoop) {o : Output} (notRelayed : o.relayText env.tables = none) :
    Adds env legal st (st.emit o) 0 0 0 0 := by
  apply emit st
  intro _ text relayed
  rw [notRelayed] at relayed
  cases relayed

theorem reply (st : ModeLoop) (u : ClientId) (num : Numeric) (args : List CStr) :
    Adds env legal st (st.reply env u num args) 0 0 0 0 :=
  emit_private st rfl

theorem noOps (st : ModeLoop) : Adds env legal st (st.noOps env) 0 0 0 0 := by
  unfold ModeLoop.noOps
  split
  · have told : Adds env legal st (st.touch.reply env env.sptr .errChanOPrivsNeeded [st.ch.chname])
        0 0 0 0 := (touch st).trans (reply st.touch env.sptr _ _)
    exact told.after (Adds.same (fun _ => rfl) rfl id id rfl rfl)
  · exact refl env st

theorem write (st : ModeLoop) (plus letter : Char) (para : Option CStr) :
    Adds env legal st (st.write plus letter para) 1
      (ModeEntry.room { plus := plus, letter := letter, para := para })
      (if para.isSome then 1 else 0) 0 where
  changes := by
    simp only [ModeLoop.changes, ModeLoop.write, List.length_append, List.length_singleton]
    omega
  paraChars := by
    simp only [ModeLoop.paraChars, ModeLoop.write, ModeLine.length_parabuf_concat]
    omega
  paraCount := by
    simp only [ModeLoop.paraCount, ModeLoop.write, ModeLine.paras_concat]
    omega
  len := rfl
  keychange := id
  limitset := id
  chname := rfl
  out := fun _ => id
  lines := by
    intro kind
    cases kind with
    | ban => exact List.prefix_append _ _
    | exception => exact List.prefix_rfl
    | invex => exact List.prefix_rfl
  sent := fun _ => id

theorem writeMask (st : ModeLoop) (kind : ListKind) (entry : ModeEntry) :
    Adds env legal st (st.writeMask kind entry) 1 entry.room
      (if entry.para.isSome then 1 else 0) 0 where
  changes := by
    cases kind
    all_goals
      simp only [ModeLoop.changes, ModeLoop.writeMask, List.length_append, List.length_singleton]
      omega
  paraChars := by
    cases kind
    all_goals
      simp only [ModeLoop.paraChars, ModeLoop.writeMask, ModeLine.length_parabuf_concat]
      omega
  paraCount := by
    cases kind
    all_goals
      simp only [ModeLoop.paraCount, ModeLoop.writeMask, ModeLine.paras_concat]
      omega
  len := by cases kind <;> rfl
  keychange := by cases kind <;> exact id
  limitset := by cases kind <;> exact id
  chname := by cases kind <;> rfl
  out := by cases kind <;> exact fun _ => id
  lines := by
    intro other
    cases kind <;> cases other
    all_goals first | exact List.prefix_append _ _ | exact List.prefix_rfl
  sent := by cases kind <;> exact fun _ => id

theorem edit (st : ModeLoop) {ch : Channel} (chname : ch.chname = st.ch.chname) :
    Adds env legal st { st with ch := ch } 0 0 0 0 where
  changes := rfl
  paraChars := rfl
  paraCount := rfl
  len := rfl
  keychange := id
  limitset := id
  chname := chname
  out := fun _ => id
  lines := fun _ => List.prefix_rfl
  sent := fun _ => id

theorem setRplSent (st : ModeLoop) (kind : ListKind) :
    Adds env legal st (st.setRplSent kind) 0 0 0 0 := by
  cases kind <;> exact Adds.same (fun _ => rfl) rfl id id rfl rfl

theorem showList (st : ModeLoop) (kind : ListKind) :
    Adds env legal st (st.showList env kind) 0 0 0 0 := by
  have replies (bans : List Ban) (st : ModeLoop) : Adds env legal st (bans.foldl (fun st ban =>
      st.reply env env.cptr (listReply kind).1
        [st.ch.chname, ban.banstr, ban.who, formatTime ban.time]) st) 0 0 0 0 := by
    induction bans generalizing st with
    | nil => exact refl env st
    | cons ban bans ih => exact (reply st _ _ _).trans (ih _)
  have read : Adds env legal st (st.setRplSent kind).touch 0 0 0 0 :=
    (setRplSent st kind).trans (touch (st.setRplSent kind))
  unfold ModeLoop.showList
  split
  · exact refl env st
  · dsimp only
    split
    · exact (read.trans (replies _ _)).trans (reply _ _ _ _)
    · exact read.trans (reply _ _ _ _)

theorem written (st : ModeLoop) (plus letter : Char) (arg : CStr) (n opcnt : Nat) {ch : Channel}
    (chname : ch.chname = st.ch.chname) :
    Adds env legal st { st.write plus letter (some arg) with
      len := st.len + n, opcnt := opcnt, ch := ch } 1 (arg.length + 1) 1 n := by
  have line : Adds env legal st (st.write plus letter (some arg)) 1 (arg.length + 1) 1 0 :=
    write st plus letter (some arg)
  exact ⟨line.changes, line.paraChars, line.paraCount, rfl, id, id, chname, fun _ => id,
    line.lines, fun _ => id⟩

theorem writtenMask (st : ModeLoop) (kind : ListKind) (plus letter : Char) (arg : CStr)
    (n opcnt : Nat) :
    Adds env legal st { st.writeMask kind { plus := plus, letter := letter, para := some arg } with
      len := (st.writeMask kind { plus := plus, letter := letter, para := some arg }).len + n
      opcnt := opcnt } 1 (arg.length + 1) 1 n := by
  have line : Adds env legal st
      (st.writeMask kind { plus := plus, letter := letter, para := some arg }) 1
      (arg.length + 1) 1 0 :=
    writeMask st kind { plus := plus, letter := letter, para := some arg }
  exact ⟨line.changes, line.paraChars, line.paraCount, by rw [line.len, Nat.add_zero],
    line.keychange, line.limitset, line.chname, line.out, line.lines, line.sent⟩

end Adds

/-- The most that a letter writes of its parameter, a mask or the digits of a limit
included. -/
def paraSize (para : CStr) : Nat :=
  max (checkString para).length (max (prettyMask (checkString para)).length 12)

/-- What a turn costs, where `counted` says that it is counted. -/
inductive Spends (env : ModeEnv) (few legal counted : Prop) (st st' : ModeLoop) : Prop where
  | blank (adds : Adds env legal st st' 0 0 0 0)
  | flag (adds : Adds env legal st st' 1 0 0 2) (room : st.fits 0 = true)
  | para (n w : Nat) (adds : Adds env legal st st' 1 (w + 1) 1 (n + 1)) (room : st.fits n = true)
      (less : counted → w ≤ n) (some : counted → n = 0 → few)
      (paid : (∃ para, st.parv = para :: st'.parv ∧ n ≤ paraSize para) ∨
      st.keychange = false ∧ st'.keychange = true ∧ n ≤ 1)
  | limit (adds : Adds env legal st st' 1 0 0 0) (first : st.limitset = false)
      (set : st'.limitset = true) (few : counted → few)

section

variable {env : ModeEnv} {few legal counted : Prop} {st st' : ModeLoop}

theorem fits_congr (len : st'.len = st.len) (n : Nat) : st'.fits n = st.fits n := by
  rw [fits, fits, len]

theorem changeMember_adds (env : ModeEnv) (st : ModeLoop) (letter : Char) (who : ClientId)
    (arg : CStr) :
    Adds env legal st (st.changeMember env letter who arg) 0 0 0 0 ∨
    (env.isok = true ∧ st.fits arg.length = true ∧
      Adds env legal st (st.changeMember env letter who arg) 1 ((env.tables.nameOf who).length + 1) 1
        (arg.length + 1)) := by
  unfold changeMember
  split
  · exact Or.inl ((Adds.touch st).trans (Adds.emit_private st.touch rfl))
  · dsimp only
    have marked : Adds env legal st
        (if env.isdeop ∧ letter = 'o' ∧ st.whatt = .add then
          { st.touch with ch := st.ch.editFlags who MemberFlags.markDeopped } else st) 0 0 0 0 ∧
        (if env.isdeop ∧ letter = 'o' ∧ st.whatt = .add then
          { st.touch with ch := st.ch.editFlags who MemberFlags.markDeopped } else st).len =
            st.len := by
      split
      · constructor
        · exact (Adds.touch st).trans (Adds.edit st.touch (by rw [Quiet.touch_ch]; rfl))
        · exact (Adds.touch st : Adds env legal st st.touch 0 0 0 0).len
      · exact ⟨Adds.refl env st, rfl⟩
    generalize (if env.isdeop ∧ letter = 'o' ∧ st.whatt = .add then
      { st.touch with ch := st.ch.editFlags who MemberFlags.markDeopped } else st) = st' at marked ⊢
    split
    · exact Or.inl (marked.1.trans (Adds.noOps st'))
    · next allowed =>
      split
      · exact Or.inl marked.1
      · next room =>
        refine Or.inr ⟨by simpa using allowed, ?_, ?_⟩
        · rw [← fits_congr marked.2]
          simpa using room
        · apply marked.1.after
          apply (Adds.touch st').after
          exact Adds.written st'.touch _ letter _ (arg.length + 1) _ (by rfl)

theorem text_eq (env : ModeEnv) (st : ModeLoop) (modebuf parabuf : CStr) :
    st.text env modebuf parabuf = ':' :: (env.source.name ++ lit " MODE " ++
      (st.ch.chname ++ ' ' :: modebuf ++ ' ' :: parabuf)) := by
  simp [text]

/-- With the host of the source and without it. -/
def ShortText (env : ModeEnv) (text : CStr) : Prop :=
  (env.tables.prefixed env.sptr text).length + 2 ≤ bufSize ∧ text.length + 2 ≤ bufSize

theorem length_prefixed_text (env : ModeEnv) (st : ModeLoop) (modebuf parabuf : CStr) :
    (env.tables.prefixed env.sptr (st.text env modebuf parabuf)).length =
      env.head.length + st.ch.chname.length + 1 + modebuf.length + 1 + parabuf.length := by
  have blank : ' ' ∈ env.source.name ++ lit " MODE " :=
    List.mem_append_right _ (by decide : ' ' ∈ lit " MODE ")
  rw [text_eq, Tables.prefixed_append _ _ blank]
  simp only [List.length_append, List.length_cons, ModeEnv.head]
  omega

theorem shortText_iff (st : ModeLoop) (modebuf parabuf : CStr) :
    (env.tables.prefixed env.sptr (st.text env modebuf parabuf)).length + 2 ≤ bufSize ↔
      st.ShortLine env modebuf parabuf := by
  rw [length_prefixed_text, ShortLine]

theorem ShortLine.text {st : ModeLoop} {modebuf parabuf : CStr}
    (short : st.ShortLine env modebuf parabuf) : ShortText env (st.text env modebuf parabuf) := by
  have seen := (shortText_iff st modebuf parabuf).mpr short
  refine ⟨seen, ?_⟩
  -- the copy without the host is no longer
  rw [text_eq] at seen ⊢
  rw [List.length_cons]
  have longer := env.tables.length_le_prefixed env.sptr (env.source.name ++ lit " MODE " ++
    (st.ch.chname ++ ' ' :: modebuf ++ ' ' :: parabuf))
  omega

theorem length_head_le (env : ModeEnv) : env.head.length ≤ env.senderLen + 7 := by
  have less := env.tables.length_prefixed_le env.sptr (env.source.name ++ lit " MODE ")
  have mode : (lit " MODE ").length = 6 := rfl
  rw [List.length_append, mode] at less
  unfold ModeEnv.head ModeEnv.senderLen
  omega

theorem sendLine_adds (st : ModeLoop) {line : CStr} (short : legal → ShortText env line) :
    Adds env legal st (st.sendLine env line) 0 0 0 0 := by
  have first : Adds env legal st (st.touch.emit (.channelButserv st.ch.chname env.sptr line))
      0 0 0 0 := by
    apply (Adds.touch st).after
    apply Adds.emit
    intro allowed text relayed
    rw [← Option.some.inj relayed]
    exact (short allowed).1
  unfold sendLine
  dsimp only
  split
  · exact first
  · apply first.after
    apply Adds.emit
    intro allowed text relayed
    rw [← Option.some.inj relayed]
    exact (short allowed).2

theorem changeKey_adds (st : ModeLoop) (arg : CStr)
    (removal : legal → st.whatt = .add → st.ch.mode.key ≠ [] → st.ch.mode.key ≠ arg →
      st.ShortLine env (lit "-k") st.ch.mode.key) :
    Adds env legal st (st.changeKey env arg) 0 0 0 0 ∨
    ∃ w, Adds env legal st (st.changeKey env arg) 1 (w + 1) 1 (arg.length + 1) ∧
      (w = arg.length ∨ st.whatt ≠ .add ∧ arg = ['*'] ∧ w = st.ch.mode.key.length) := by
  have touched : Adds env legal st st.touch 0 0 0 0 := Adds.touch st
  have kept : st.touch.ch = st.ch := Quiet.touch_ch st
  unfold changeKey
  dsimp only
  split
  · next add =>
    split
    · exact Or.inl touched
    · next other =>
      right
      refine ⟨arg.length, ?_, Or.inl rfl⟩
      have removed : Adds env legal st
          (if st.ch.mode.key ≠ [] then st.touch.removeOldKey env else st.touch) 0 0 0 0 := by
        split
        · next some =>
          apply touched.after
          apply sendLine_adds
          intro allowed
          apply ShortLine.text
          rw [ShortLine, kept]
          exact removal allowed add some fun same => other ⟨some, same⟩
        · exact touched
      apply removed.after
      exact Adds.written _ '+' 'k' arg (arg.length + 1) _ rfl
  · next del =>
    split
    · exact Or.inl touched
    next other =>
      right
      refine ⟨st.ch.mode.key.length, ?_, ?_⟩
      · apply touched.after
        exact Adds.written _ '-' 'k' st.ch.mode.key (arg.length + 1) _ rfl
      · by_cases star : arg = ['*']
        · exact Or.inr ⟨del, star, rfl⟩
        · left
          by_contra longer
          apply other
          refine ⟨star, fun same => longer ?_⟩
          rw [same]

theorem memberLetter_spends {letter : Char} (letters : letter = 'o' ∨ letter = 'v')
    (env : ModeEnv) (few legal : Prop) (st : ModeLoop) :
    Spends env few legal (Accounted env few st letter) st (st.memberLetter env letter) := by
  unfold memberLetter
  split
  · dsimp only
    apply Spends.blank
    split
    · exact Adds.eat st
    · have told : Adds env legal st (st.touch.reply env env.sptr .errNotOnChannel [st.ch.chname])
          0 0 0 0 := (Adds.touch st).trans (Adds.reply st.touch env.sptr _ _)
      exact told.after (Adds.same (fun _ => rfl) rfl id id rfl rfl)
  split
  · exact Spends.blank (Adds.refl env st)
  next query =>
  cases left : st.parv with
  | nil => exact Spends.blank (Adds.refl env st)
  | cons para rest =>
    dsimp only
    have eaten : Adds env legal st st.eat 0 0 0 0 := Adds.eat st
    split
    · exact Spends.blank eaten
    cases found : env.tables.chase (checkString para) with
    | none => exact Spends.blank (eaten.trans (Adds.reply st.eat _ _ _))
    | some who =>
      dsimp only
      split
      · exact Spends.blank eaten
      split
      · split
        · exact Spends.blank (eaten.trans ((Adds.touch st.eat).trans (Adds.reply st.eat.touch _ _ _)))
        · exact Spends.blank eaten
      next member =>
      split
      · exact Spends.blank eaten
      rcases changeMember_adds env st.eat letter who (checkString para) with blank | ⟨ok, room, adds⟩
      · exact Spends.blank (eaten.trans blank)
      · have isMember : env.tables.isMember who env.chan = true := by simpa using member
        have known (counted : Accounted env few st letter) :=
          counted.member letters ok query para rest left room who found isMember
        apply Spends.para _ _ (eaten.after adds) room fun counted => (known counted).1
        · intro counted none
          exact (known counted).2 (List.eq_nil_of_length_eq_zero none)
        · refine Or.inl ⟨para, ?_, Nat.le_max_left _ _⟩
          rw [changeMember_parv, eat_parv, left, List.tail_cons]

/-- The argument of a `-k` must be counted, or be `*` with a key no longer than that. -/
theorem keyGiven_spends (env : ModeEnv) (st : ModeLoop) (arg : CStr)
    (starred : counted → env.isok = true → st.whatt ≠ .add → st.keychange = false → arg = ['*'] →
      st.fits 1 = true → st.ch.mode.key.length ≤ 1)
    (removal : legal → env.isok = true → st.whatt = .add → st.keychange = false → arg ≠ [] →
      st.fits (arg.take keyLen).length = true → st.ch.mode.key ≠ [] →
        st.ch.mode.key ≠ arg.take keyLen → st.ShortLine env (lit "-k") st.ch.mode.key) :
    Adds env legal st (st.keyGiven env arg) 0 0 0 0 ∨
    ∃ n w, Adds env legal st (st.keyGiven env arg) 1 (w + 1) 1 (n + 1) ∧ st.fits n = true ∧
      (counted → w ≤ n) ∧ n ≠ 0 ∧ n ≤ arg.length ∧ st.keychange = false ∧ (st.keyGiven env arg).keychange = true := by
  unfold keyGiven
  split
  · exact Or.inl (Adds.refl env st)
  next fresh =>
  have fresh : st.keychange = false := by simpa using fresh
  dsimp only
  have marked : Adds env legal st { st with keychange := true } 0 0 0 0 :=
    Adds.same (fun _ => rfl) rfl (fun _ => rfl) id rfl rfl
  split
  · exact Or.inl marked
  next some =>
  split
  · exact Or.inl (marked.trans (Adds.noOps _))
  next allowed =>
  have allowed : env.isok = true := by simpa using allowed
  split
  · exact Or.inl marked
  next room =>
  have room : st.fits (arg.take keyLen).length = true := by
    have fits : ({ st with keychange := true } : ModeLoop).fits (arg.take keyLen).length = true := by
      simpa using room
    rwa [fits_congr rfl] at fits
  have nonempty : (arg.take keyLen).length ≠ 0 := by
    cases arg with
    | nil => exact absurd rfl some
    | cons c arg => simp [keyLen]
  -- a `-k` that is written as `*` counts the key that was taken off
  rcases changeKey_adds { st with keychange := true } (arg.take keyLen)
    (fun short add => removal short allowed add fresh some room) with blank | ⟨w, adds, same⟩
  · exact Or.inl (marked.trans blank)
  · refine Or.inr ⟨_, w, marked.after adds, room, ?_, nonempty, ?_, fresh, adds.keychange rfl⟩
    · intro accounted
      rcases same with plain | ⟨del, star, written⟩
      · exact Nat.le_of_eq plain
      · have whole : arg = ['*'] := by
          have length := congrArg List.length star
          rw [List.length_take, List.length_singleton] at length
          have short : arg.length ≤ keyLen := by
            unfold keyLen at length ⊢
            omega
          rwa [List.take_of_length_le short] at star
        rw [star] at room ⊢
        rw [written]
        exact starred accounted allowed del fresh whole room
    · rw [List.length_take]
      exact Nat.min_le_right _ _

theorem keyArgument_length (para : CStr) :
    (fixKey (checkString para)).length ≤ (checkString para).length ∧
      (fixKeyOld (checkString para)).length ≤ (checkString para).length := by
  constructor
  · exact (List.length_filter_le _ _).trans (List.length_map sevenBit).le
  · have less := (List.takeWhile_sublist (fun c : Char => c.toNat != 0)
      (l := ((checkString para).map sevenBit).filter fun c => c != '\n' && c != ':')).length_le
    exact less.trans ((List.length_filter_le _ _).trans (List.length_map sevenBit).le)

theorem keyLetter_spends (env : ModeEnv) (few : Prop) (st : ModeLoop) :
    Spends env few (RemovalFits env st 'k') (Accounted env few st 'k') st (st.keyLetter env) := by
  rw [keyLetter_eq]
  split
  · exact Spends.blank (Adds.refl env st)
  next query =>
  have del (notAdd : st.whatt ≠ .add) : st.whatt = .del := by
    cases what : st.whatt with
    | add => exact absurd what notAdd
    | del => rfl
    | query => exact absurd what query
  have removal := fun legal : RemovalFits env st 'k' => legal rfl
  unfold keyArgument at removal ⊢
  cases left : st.parv with
  | nil =>
    rw [left] at removal
    -- without an argument `-k` goes on with `*`, and `+k` does nothing
    by_cases isDel : st.whatt = .del
    · simp only [if_pos isDel]
      have given : (st.keyGiven env ['*']).parv = st.parv := keyGiven_parv env st _
      rcases keyGiven_spends env st ['*'] (by
        intro (counted : Accounted env few st 'k') allowed _ fresh _ room
        apply counted.key rfl allowed isDel fresh _ room
        intro para rest given
        rw [left] at given
        cases given) (by
        intro (_ : RemovalFits env st 'k') _ add
        rw [isDel] at add
        cases add) with blank | ⟨n, w, adds, room, less, some, short, fresh, set⟩
      · exact Spends.blank blank
      · exact Spends.para n w adds room less (fun _ none => absurd none some)
          (Or.inr ⟨fresh, set, short⟩)
    · simp only [if_neg isDel]
      exact Spends.blank (Adds.refl env st)
  | cons para rest =>
    rw [left] at removal
    have first : Adds env (RemovalFits env st 'k') st st.eat 0 0 0 0 := Adds.eat st
    -- both signs read the argument alike; they differ in how it is fixed
    have eaten (arg : CStr) (isDel : st.whatt = .del → arg = checkString para)
        (known : st.whatt = .add → (if st.whatt = .del then some (checkString para, st.eat) else
          some (if env.myClient then fixKey (checkString para) else fixKeyOld (checkString para),
            st.eat)) = some (arg, st.eat))
        (size : arg.length ≤ (checkString para).length) :
        Spends env few (RemovalFits env st 'k') (Accounted env few st 'k') st
          (st.eat.keyGiven env arg) := by
      have parv : (st.eat.keyGiven env arg).parv = rest := by
        rw [keyGiven_parv, eat_parv, left, List.tail_cons]
      rcases keyGiven_spends env st.eat arg (by
        intro (counted : Accounted env few st 'k') allowed notAdd fresh star room
        apply counted.key rfl allowed (del notAdd) fresh _ room
        intro para' rest' same
        rw [left] at same
        rw [← (List.cons.inj same).1, ← isDel (del notAdd), star]) (by
        intro legal allowed add fresh some room
        exact removal legal allowed add fresh arg st.eat (known add) some room) with
        blank | ⟨n, w, adds, room, less, some, short, fresh, set⟩
      · exact Spends.blank (first.trans blank)
      · refine Spends.para n w (first.after adds) room less (fun _ none => absurd none some)
          (Or.inl ⟨para, by rw [parv, left], ?_⟩)
        exact (short.trans size).trans (Nat.le_max_left _ _)
    by_cases isDel : st.whatt = .del
    · simp only [if_pos isDel]
      apply eaten _ (fun _ => rfl) _ (Nat.le_refl _)
      intro add
      rw [isDel] at add
      cases add
    · simp only [if_neg isDel]
      apply eaten _ (fun same => absurd same isDel) (fun _ => if_neg isDel)
      split
      · exact (keyArgument_length para).1
      · exact (keyArgument_length para).2

theorem addId_names {cl : Client} {maxBans now : Int} {ch ch' : Channel} {banid : CStr}
    {kind : ListKind} (added : addId cl maxBans now ch banid kind = .added ch') :
    ch'.chname = ch.chname := by
  unfold addId at added
  split at added
  · cases added
  · dsimp only at added
    generalize (if cl.myClient then collapse banid else banid) = mask at added
    split at added
    · cases added
    · cases added
      cases kind <;> rfl

theorem delId_names (ch : Channel) (banid : CStr) (kind : ListKind) :
    (delId ch banid kind).chname = ch.chname := by
  unfold delId
  dsimp only
  split
  · cases kind <;> rfl
  · rfl

theorem changeMask_adds (env : ModeEnv) (st : ModeLoop) (kind : ListKind) (arg : CStr) :
    Adds env legal st (st.changeMask env kind arg) 0 0 0 0 ∨
    (st.fits arg.length = true ∧
      Adds env legal st (st.changeMask env kind arg) 1 (arg.length + 1) 1 (arg.length + 1)) := by
  have touched : Adds env legal st st.touch 0 0 0 0 := Adds.touch st
  have kept : st.touch.ch = st.ch := Quiet.touch_ch st
  unfold changeMask
  dsimp only
  split
  · exact Or.inl (Adds.refl env st)
  next room =>
  have room : st.fits arg.length = true := by simpa using room
  split
  · cases result : addId env.source env.tables.maxBans env.tables.currentTime st.ch arg kind with
    | full => exact Or.inl (touched.trans (Adds.reply _ _ _ _))
    | duplicate => exact Or.inl touched
    | added ch =>
      have chname := addId_names result
      refine Or.inr ⟨room, ?_⟩
      apply touched.after
      apply (Adds.edit st.touch (chname.trans (congrArg Channel.chname kept).symm)).after
      exact Adds.writtenMask _ kind _ (maskLetterOf kind) arg (arg.length + 1) _
  · have chname := delId_names st.ch arg kind
    refine Or.inr ⟨room, ?_⟩
    apply touched.after
    apply (Adds.edit st.touch (chname.trans (congrArg Channel.chname kept).symm)).after
    exact Adds.writtenMask _ kind _ (maskLetterOf kind) arg (arg.length + 1) _

theorem maskLetter_spends {c : Char} {kind : ListKind} (letters : c = 'b' ∨ c = 'e' ∨ c = 'I')
    (env : ModeEnv) (few legal : Prop) (st : ModeLoop) :
    Spends env few legal (Accounted env few st c) st (st.maskLetter env kind) := by
  unfold maskLetter
  split
  · exact Spends.blank (Adds.showList st kind)
  next query =>
  cases left : st.parv with
  | nil => exact Spends.blank (Adds.showList st kind)
  | cons para rest =>
    dsimp only
    have eaten : Adds env legal st st.eat 0 0 0 0 := Adds.eat st
    split
    · exact Spends.blank eaten
    split
    · exact Spends.blank (eaten.trans (Adds.noOps _))
    next allowed =>
    split
    · exact Spends.blank (eaten.trans (Adds.eat _))
    have empty := fun counted : Accounted env few st c =>
      counted.mask letters (by simpa using allowed) query para rest left
    have size : (if env.myClient then collapse (prettyMask (checkString para))
        else checkString para).length ≤ paraSize para := by
      unfold paraSize
      split
      · have collapsed := collapse_length_le (prettyMask (checkString para))
        omega
      · omega
    generalize (if env.myClient then collapse (prettyMask (checkString para))
      else checkString para) = mask at empty size ⊢
    split
    · exact Spends.blank (eaten.trans (Adds.eat _))
    rcases changeMask_adds env st.eat kind mask with blank | ⟨room, adds⟩
    · exact Spends.blank (eaten.trans blank)
    · apply Spends.para _ _ (eaten.after adds) room fun _ => Nat.le_refl _
      · intro counted none
        exact empty counted (List.eq_nil_of_length_eq_zero none)
      · refine Or.inl ⟨para, ?_, size⟩
        rw [changeMask_parv, eat_parv, left, List.tail_cons]

/-- An `l` that is let through, once `limitset` is marked. -/
def limitGiven (env : ModeEnv) (st : ModeLoop) : ModeLoop :=
  if st.whatt = .add then
    match st.parv with
    | [] => if env.myClient then st.reply env env.sptr .errNeedMoreParams [lit "MODE +l"] else st
    | para :: _ =>
      let st := st.eat
      let nusers := atoi (checkString para)
      if nusers ≤ 0 then st
      else
        let arg := formatD nusers
        if !st.fits arg.length then st
        else
          let st := st.touch.write '+' 'l' (some arg)
          { st with
            len := st.len + arg.length + 1
            ch := { st.ch with mode := { st.ch.mode with limit := nusers } } }
  else
    let st := st.touch.write '-' 'l' none
    { st with ch := { st.ch with mode := { st.ch.mode with limit := 0 } } }

theorem limitLetter_eq (env : ModeEnv) (st : ModeLoop) : st.limitLetter env =
    if st.whatt = .query then st
    else if !env.isok then (if st.whatt = .add then st.eat else st)
    else if st.limitset then (if st.whatt = .add then st.eat else st)
    else limitGiven env { st with limitset := true } := rfl

theorem formatD_ne_nil {v : Int} (positive : 0 < v) (small : v < 2 ^ 31) : formatD v ≠ [] := by
  unfold formatD
  rw [if_neg (by omega), if_neg (by omega)]
  exact dropWhile_zero_ne_nil (by omega) (by omega)

theorem length_formatD_le {v : Int} (positive : 0 < v) : (formatD v).length ≤ 12 := by
  unfold formatD
  rw [if_neg (by omega), if_neg (by omega)]
  exact (List.dropWhile_sublist _).length_le.trans (length_padded 12 _).le

theorem atoi_lt (s : CStr) : atoi s < 2 ^ 31 := by
  have bound : (strtol s).bmod (2 ^ 32) < ((2 ^ 32 : Nat) + 1 : Int) / 2 :=
    Int.bmod_lt (by decide)
  unfold atoi
  omega

theorem limitGiven_adds (env : ModeEnv) (st : ModeLoop) :
    Adds env legal st (limitGiven env st) 0 0 0 0 ∨
    (∃ n, n ≠ 0 ∧ st.fits n = true ∧ Adds env legal st (limitGiven env st) 1 (n + 1) 1 (n + 1) ∧
      ∃ para, st.parv = para :: (limitGiven env st).parv ∧ n ≤ paraSize para) ∨
    (st.whatt ≠ .add ∧ Adds env legal st (limitGiven env st) 1 0 0 0) := by
  unfold limitGiven
  split
  · cases left : st.parv with
    | nil =>
      left
      dsimp only
      split
      · exact Adds.reply st _ _ _
      · exact Adds.refl env st
    | cons para rest =>
      dsimp only
      have eaten : Adds env legal st st.eat 0 0 0 0 := Adds.eat st
      split
      · exact Or.inl eaten
      next positive =>
      split
      · exact Or.inl eaten
      next room =>
      have room : st.eat.fits (formatD (atoi (checkString para))).length = true := by
        simpa using room
      right
      left
      have some := formatD_ne_nil (Int.not_le.mp positive) (atoi_lt (checkString para))
      refine ⟨(formatD (atoi (checkString para))).length, ?_, room, ?_, ?_⟩
      · exact fun none => some (List.eq_nil_of_length_eq_zero none)
      · apply eaten.after
        apply (Adds.touch st.eat).after
        exact Adds.written st.eat.touch '+' 'l' _ (_ + 1) _ rfl
      · refine ⟨para, ?_, ?_⟩
        · rw [write_parv, touch_parv, eat_parv, left, List.tail_cons]
        · have digits := length_formatD_le (v := atoi (checkString para)) (by omega)
          unfold paraSize
          omega
  · next del =>
    right
    right
    refine ⟨del, ?_⟩
    apply (Adds.touch st).after
    have line : Adds env legal st.touch (st.touch.write '-' 'l' none) 1 0 0 0 := Adds.write _ _ _ _
    exact ⟨line.changes, line.paraChars, line.paraCount, line.len, id, id, rfl, fun _ => id,
      line.lines, fun _ => id⟩

theorem limitLetter_spends (env : ModeEnv) (few legal : Prop) (st : ModeLoop) :
    Spends env few legal (Accounted env few st 'l') st (st.limitLetter env) := by
  have passed : Spends env few legal (Accounted env few st 'l') st (if st.whatt = .add then st.eat else st) := by
    split
    · exact Spends.blank (Adds.eat st)
    · exact Spends.blank (Adds.refl env st)
  rw [limitLetter_eq]
  split
  · exact Spends.blank (Adds.refl env st)
  next query =>
  split
  · exact passed
  next allowed =>
  split
  · exact passed
  next fresh =>
  have fresh : st.limitset = false := by simpa using fresh
  have marked : Adds env legal st { st with limitset := true } 0 0 0 0 :=
    Adds.same (fun _ => rfl) rfl id (fun _ => rfl) rfl rfl
  rcases limitGiven_adds env { st with limitset := true } with
    blank | ⟨n, some, room, adds, para, taken, size⟩ | ⟨del, adds⟩
  · exact Spends.blank (marked.trans blank)
  · exact Spends.para n n (marked.after adds) room (fun _ => Nat.le_refl n)
      (fun _ none => absurd none some)
      (Or.inl ⟨para, taken, size⟩)
  · have isDel : st.whatt = .del := by
      cases what : st.whatt with
      | add => exact absurd what del
      | del => rfl
      | query => exact absurd what query
    apply Spends.limit (marked.after adds) fresh (adds.limitset rfl)
    exact fun counted => counted.limit rfl (by simpa using allowed) isDel fresh

theorem changeFlag_spends (env : ModeEnv) (st : ModeLoop) (f : ModeFlag) (letter : Char) :
    Spends env few legal counted st (st.changeFlag env f letter) := by
  unfold changeFlag
  split
  · exact Spends.blank (Adds.refl env st)
  dsimp only
  have marked : Adds env legal st (if env.myClient then
      { st with done := Function.update st.done f true } else st) 0 0 0 0 := by
    split
    · exact Adds.same (fun _ => rfl) rfl id id rfl rfl
    · exact Adds.refl env st
  generalize (if env.myClient then
    { st with done := Function.update st.done f true } else st) = st' at marked ⊢
  split
  · exact Spends.blank marked
  next room =>
  have room : st.fits 0 = true := by
    rw [← fits_congr marked.len]
    simpa using room
  have flagged (st : ModeLoop) (on : Bool) (plus : Char) : Adds env legal st
      { (st.setFlag f on).write plus letter none with
        len := ((st.setFlag f on).write plus letter none).len + 2 } 1 0 0 2 := by
    have line : Adds env legal (st.setFlag f on) ((st.setFlag f on).write plus letter none) 1 0 0 0 :=
      Adds.write _ _ _ _
    have set : Adds env legal st (st.setFlag f on) 0 0 0 0 := Adds.edit st rfl
    have both := set.after line
    exact ⟨both.changes, both.paraChars, both.paraCount, rfl, both.keychange, both.limitset,
      both.chname, both.out, both.lines, both.sent⟩
  split
  · exact Spends.flag (marked.after ((Adds.touch st').after (flagged _ _ _))) room
  · have dropped : Adds env legal st'
        (if f = .modeInviteOnly then st'.touch.dropInvites else st'.touch) 0 0 0 0 := by
      split
      · apply (Adds.touch st').after
        exact Adds.same (fun _ => rfl) rfl id id rfl rfl
      · exact Adds.touch st'
    exact Spends.flag (marked.after (dropped.after (flagged _ _ _))) room

theorem flagLetter_spends (env : ModeEnv) (st : ModeLoop) (f : ModeFlag) (letter : Char) :
    Spends env few legal counted st (st.flagLetter env f letter) := by
  unfold flagLetter
  split
  · exact Spends.blank (Adds.noOps st)
  · exact changeFlag_spends env st f letter

theorem inviteLetter_spends (env : ModeEnv) (st : ModeLoop) :
    Spends env few legal counted st (st.inviteLetter env) := by
  unfold inviteLetter
  split
  · exact Spends.blank (Adds.refl env st)
  · exact flagLetter_spends env st .modeInviteOnly 'i'

theorem sub1_adds (env : ModeEnv) (st : ModeLoop) : Adds env legal st st.sub1 0 0 0 0 := by
  unfold sub1
  dsimp only
  split
  · exact Adds.same (fun _ => rfl) rfl id id rfl rfl
  · exact Adds.edit st rfl

theorem jupeLetter_spends (env : ModeEnv) (st : ModeLoop) :
    Spends env few legal counted st (st.jupeLetter env) := by
  have told (text : CStr) (ch : Channel) (chname : ch.chname = st.touch.ch.chname) :
      Adds env legal st { st.touch.emit (.realops text) with ch := ch } 0 0 0 0 := by
    have sent : Adds env legal st (st.touch.emit (.realops text)) 0 0 0 0 :=
      (Adds.touch st).trans (Adds.emit_private st.touch rfl)
    exact sent.trans (Adds.edit (st.touch.emit (.realops text)) chname)
  apply Spends.blank
  unfold jupeLetter
  dsimp only
  split
  · split
    · exact told _ _ rfl
    · split
      · have unjuped := told (env.source.name ++ '!' :: env.source.username ++
          '@' :: env.source.host ++ lit " locally " ++ lit "unjuping" ++ lit " channel " ++
          st.ch.chname) { st.touch.ch with juped := false } rfl
        exact unjuped.after (sub1_adds env _)
      · exact told _ _ rfl
    · exact Adds.refl env st
  · exact Adds.refl env st

theorem unknownLetter_spends (env : ModeEnv) (st : ModeLoop) (c : Char) :
    Spends env few legal counted st (st.unknownLetter env c) := by
  apply Spends.blank
  unfold unknownLetter
  split
  · exact Adds.refl env st
  · split
    · have told : Adds env legal st (st.reply env env.sptr .errUnknownMode [[c]]) 0 0 0 0 :=
        Adds.reply st _ _ _
      exact told.after (Adds.same (fun _ => rfl) rfl id id rfl rfl)
    · exact Adds.refl env st

theorem letter_spends (env : ModeEnv) (few : Prop) (st : ModeLoop) (c : Char) :
    Spends env few (RemovalFits env st c) (Accounted env few st c) st (st.letter env c) := by
  have sign {legal counted : Prop} (what : What) :
      Spends env few legal counted st { st with whatt := what } :=
    Spends.blank (Adds.same (fun _ => rfl) rfl id id rfl rfl)
  unfold letter
  split
  · exact sign .add
  · exact sign .del
  · exact sign .query
  · exact memberLetter_spends (Or.inl rfl) env few _ st
  · exact memberLetter_spends (Or.inr rfl) env few _ st
  · exact keyLetter_spends env few st
  · exact maskLetter_spends (Or.inr (Or.inl rfl)) env few _ st
  · exact maskLetter_spends (Or.inr (Or.inr rfl)) env few _ st
  · exact maskLetter_spends (Or.inl rfl) env few _ st
  · exact limitLetter_spends env few _ st
  · exact inviteLetter_spends env st
  · exact jupeLetter_spends env st
  · exact flagLetter_spends env st .modeModerated 'm'
  · exact flagLetter_spends env st .modeNoPrivMsgs 'n'
  · exact flagLetter_spends env st .modePrivate 'p'
  · exact flagLetter_spends env st .modeSecret 's'
  · exact flagLetter_spends env st .modeTopicLimit 't'
  · exact unknownLetter_spends env st _

end

end ModeLoop

def letterCount (s : CStr) : Nat := s.countP fun c => (signOf c).isNone

/-- So few letters that two characters for each leave room in a `modebuf`. -/
def FewLetters (params : List CStr) : Prop := letterCount params.flatten < 100

theorem letterCount_flatten_drop_le (params : List CStr) {i j : Nat} (le : i ≤ j) :
    letterCount (params.drop j).flatten ≤ letterCount (params.drop i).flatten := by
  obtain ⟨k, rfl⟩ := Nat.exists_eq_add_of_le le
  have split := List.take_append_drop k (params.drop i)
  rw [List.drop_drop] at split
  rw [← split, List.flatten_append, letterCount, letterCount, List.countP_append]
  exact Nat.le_add_left _ _

def parvSize (parv : List CStr) : Nat := (parv.map fun para => ModeLoop.paraSize para + 1).sum

theorem parvSize_drop_le (params : List CStr) {i j : Nat} (le : i ≤ j) :
    parvSize (params.drop j) ≤ parvSize (params.drop i) := by
  obtain ⟨k, rfl⟩ := Nat.exists_eq_add_of_le le
  have split := List.take_append_drop k (params.drop i)
  rw [List.drop_drop] at split
  rw [← split, parvSize, parvSize, List.map_append, List.sum_append]
  exact Nat.le_add_left _ _

/-- What goes into the buffers at most: `len` leaves out the two characters of each letter
that comes with a parameter and of a `-l`; a short command has no more than its letters
and parameters. -/
def modeChars (mode : CStr) (args : List CStr) : Nat :=
  min (203 + 2 * args.length) (2 * letterCount (mode :: args).flatten + parvSize args + 2)

/-- `len` covers what is in the buffers, as far as it is meant to. -/
structure Budget (env : ModeEnv) (mode : CStr) (args : List CStr) (s : ModeScan) : Prop where
  paired : Paired (mode :: args) s.cursor s.loop
  chname : s.loop.ch.chname = (env.tables.chan env.chan).chname
  out : ∀ o ∈ s.loop.out, o.ShortLine env.tables
  len : s.loop.len < modeBufLen
  chars : s.loop.paraChars ≤ s.loop.len
  signs : FewLetters (mode :: args) ∨ 2 * s.loop.changes ≤ s.loop.len
  /-- The signs and letters of parameters are not in `len`, nor is a `-l`. -/
  both : 2 * s.loop.changes + s.loop.paraChars ≤
    s.loop.len + 2 * s.loop.paraCount + if s.loop.limitset then 2 else 0
  /-- All but one `-k` come with a parameter. -/
  count : s.loop.paraCount + s.loop.parv.length ≤ args.length + if s.loop.keychange then 1 else 0
  letters : s.loop.changes + letterCount s.curr + letterCount s.loop.parv.flatten ≤
    letterCount (mode :: args).flatten
  typed : s.loop.paraChars + parvSize s.loop.parv ≤
    parvSize args + if s.loop.keychange then 2 else 0

namespace Budget

variable {env : ModeEnv} {mode : CStr} {args : List CStr} {s s' : ModeScan}

theorem start (env : ModeEnv) (mode : CStr) (args : List CStr) :
    Budget env mode args (ModeScan.start (env.tables.chan env.chan) mode args) where
  paired := Paired.start _ mode args
  chname := rfl
  out := by
    intro o inside
    cases inside
  len := Nat.zero_lt_succ _
  chars := Nat.le_refl _
  signs := Or.inr (Nat.le_refl _)
  both := Nat.le_refl _
  count := Nat.le_of_eq (Nat.zero_add _)
  letters := by
    rw [List.flatten_cons, letterCount, letterCount, letterCount, List.countP_append]
    exact Nat.le_of_eq (by simp [ModeScan.start, modeStart, ModeLoop.changes])
  typed := Nat.le_of_eq (by
    simp [ModeScan.start, modeStart, ModeLoop.paraChars, ModeLine.parabuf])

theorem fewer (h : Budget env mode args s) (turn : s.step env (mode :: args) = some s') :
    s'.loop.parv.length ≤ s.loop.parv.length ∧
    letterCount s'.loop.parv.flatten ≤ letterCount s.loop.parv.flatten ∧
    parvSize s'.loop.parv ≤ parvSize s.loop.parv := by
  have after := ModeScan.step_paired turn h.paired
  have forward := (ModeScan.step_advances turn).forward
  rw [after.parv, h.paired.parv]
  constructor
  · rw [List.length_drop, List.length_drop]
    omega
  · exact ⟨letterCount_flatten_drop_le _ forward, parvSize_drop_le _ forward⟩

theorem spend (h : Budget env mode args s) (turn : s.step env (mode :: args) = some s')
    {legal : Prop} (holds : legal) {m p k l : Nat}
    (adds : ModeLoop.Adds env legal s.loop s'.loop m p k l)
    (room : s.loop.len + l < modeBufLen) (chars : p ≤ l)
    (signs : FewLetters (mode :: args) ∨ 2 * m ≤ l)
    (both : 2 * m + p + (if s.loop.limitset then 2 else 0) ≤
      l + 2 * k + if s'.loop.limitset then 2 else 0)
    (count : k + s'.loop.parv.length + (if s.loop.keychange then 1 else 0) ≤
      s.loop.parv.length + if s'.loop.keychange then 1 else 0)
    (letters : m + letterCount s'.curr + letterCount s'.loop.parv.flatten ≤
      letterCount s.curr + letterCount s.loop.parv.flatten)
    (typed : p + parvSize s'.loop.parv + (if s.loop.keychange then 2 else 0) ≤
      parvSize s.loop.parv + if s'.loop.keychange then 2 else 0) : Budget env mode args s' where
  -- each clause is a sum that the turn moves from one side to the other
  paired := ModeScan.step_paired turn h.paired
  chname := adds.chname.trans h.chname
  out := adds.out holds h.out
  len := by
    rw [adds.len]
    exact room
  chars := by
    have before := h.chars
    rw [adds.paraChars, adds.len]
    omega
  signs := by
    rw [adds.changes, adds.len]
    rcases h.signs with few | before
    · exact Or.inl few
    · rcases signs with few | now
      · exact Or.inl few
      · right
        omega
  both := by
    have before := h.both
    rw [adds.changes, adds.paraChars, adds.paraCount, adds.len]
    omega
  count := by
    have before := h.count
    rw [adds.paraCount]
    omega
  letters := by
    have before := h.letters
    rw [adds.changes]
    omega
  typed := by
    have before := h.typed
    rw [adds.paraChars]
    omega

theorem limitset_le (adds : s.loop.limitset = true → s'.loop.limitset = true) :
    (if s.loop.limitset then 2 else 0) ≤ if s'.loop.limitset then 2 else 0 := by
  split
  · next set => rw [if_pos (adds set)]
  · exact Nat.zero_le _

theorem keychange_le (adds : s.loop.keychange = true → s'.loop.keychange = true) (n : Nat) :
    (if s.loop.keychange then n else 0) ≤ if s'.loop.keychange then n else 0 := by
  split
  · next set => rw [if_pos (adds set)]
  · exact Nat.zero_le _

theorem blank (h : Budget env mode args s) (turn : s.step env (mode :: args) = some s')
    {legal : Prop} (holds : legal) (adds : ModeLoop.Adds env legal s.loop s'.loop 0 0 0 0)
    (letters : letterCount s'.curr + letterCount s'.loop.parv.flatten ≤
      letterCount s.curr + letterCount s.loop.parv.flatten) : Budget env mode args s' := by
  have limitset := limitset_le adds.limitset
  have keychange := keychange_le adds.keychange
  obtain ⟨fewer, -, sizes⟩ := h.fewer turn
  apply h.spend turn holds adds h.len (Nat.le_refl 0) (Or.inr (Nat.le_refl 0))
  · omega
  · have one := keychange 1
    omega
  · omega
  · have two := keychange 2
    omega

theorem string (h : Budget env mode args s) (turn : s.step env (mode :: args) = some s')
    (ended : s.curr = []) : Budget env mode args s' := by
  rcases ModeScan.step_cases turn with ⟨-, some, same⟩ | ⟨c, curr, inside, -⟩
  · have left := h.paired.parv
    rw [h.paired.inStep.drop_cons some] at left
    apply h.blank turn trivial
    · rw [same]
      exact ModeLoop.Adds.eat s.loop
    · rw [same, left, ended, ModeLoop.eat_parv, left, List.tail_cons, List.flatten_cons,
        letterCount, letterCount, letterCount, letterCount, List.countP_append]
      exact Nat.le_add_left _ _
  · rw [ended] at inside
    cases inside

theorem letter (h : Budget env mode args s) {c : Char} {curr : CStr} (here : s.curr = c :: curr)
    (counted : ModeLoop.Accounted env (FewLetters (mode :: args)) s.loop c)
    (turn : s.step env (mode :: args) = some s') : Budget env mode args s' := by
  have same : s' = {
      loop := s.loop.letter env c
      curr := curr
      cursor := s.cursor.letter env (mode :: args) s.loop c } := by
    rw [ModeScan.step, here] at turn
    exact (Option.some.inj turn).symm
  obtain ⟨shorter, fewer, sizes⟩ := h.fewer turn
  have loop : s'.loop = s.loop.letter env c := by rw [same]
  have rest : s'.curr = curr := by rw [same]
  have total := h.letters
  -- a sign costs nothing; what a letter costs is said by `letter_spends`
  cases sign : signOf c with
  | some what =>
    have none : letterCount s.curr = letterCount curr := by
      rw [here, letterCount, List.countP_cons, sign]
      rfl
    apply h.blank turn trivial
    · rw [loop, (ModeLoop.letter_sign env s.loop sign).1]
      exact ModeLoop.Adds.same (fun _ => rfl) rfl id id rfl rfl
    · rw [rest, none]
      omega
  | none =>
    have one : letterCount s.curr = letterCount curr + 1 := by
      rw [here, letterCount, List.countP_cons, sign]
      rfl
    have spends := ModeLoop.letter_spends env (FewLetters (mode :: args)) s.loop c
    rw [← loop] at spends
    cases spends with
    | blank adds =>
      apply h.blank turn counted.oldKey adds
      rw [rest]
      omega
    | flag adds room =>
      have limitset := limitset_le adds.limitset
      have keychange := keychange_le adds.keychange 1
      have keychange' := keychange_le adds.keychange 2
      have room : s.loop.len + 0 + 2 < modeBufLen := of_decide_eq_true room
      apply h.spend turn counted.oldKey adds room (Nat.zero_le _) (Or.inr (Nat.le_refl _))
      · omega
      · omega
      · rw [rest]
        omega
      · omega
    | para n w adds room less some paid =>
      have less := less counted
      have limitset := limitset_le adds.limitset
      have keychange := keychange_le adds.keychange 1
      have keychange' := keychange_le adds.keychange 2
      have room : s.loop.len + n + 2 < modeBufLen := of_decide_eq_true room
      apply h.spend turn counted.oldKey adds (by omega) (by omega)
      · by_cases empty : n = 0
        · exact Or.inl (some counted empty)
        · right
          omega
      · omega
      -- a parameter is paid for by an argument that was taken, or by the one key change
      · rcases paid with ⟨para, taken, -⟩ | ⟨before, after, -⟩
        · rw [taken, List.length_cons]
          omega
        · rw [if_neg (by rw [before]; exact Bool.false_ne_true), if_pos after]
          omega
      · rw [rest]
        omega
      · rcases paid with ⟨para, taken, size⟩ | ⟨before, after, one⟩
        · have cons : parvSize s.loop.parv =
              ModeLoop.paraSize para + 1 + parvSize s'.loop.parv := by rw [taken]; rfl
          omega
        · rw [if_neg (by rw [before]; exact Bool.false_ne_true), if_pos after]
          omega
    -- the limit is written at the end of the turn, out of the room that was kept for it
    | limit adds first set few =>
      have keychange := keychange_le adds.keychange 1
      have keychange' := keychange_le adds.keychange 2
      apply h.spend turn counted.oldKey adds h.len (Nat.le_refl 0) (Or.inl (few counted))
      · rw [if_neg (by rw [first]; exact Bool.false_ne_true), if_pos set]
      · omega
      · rw [rest]
        omega
      · omega

theorem fits (h : Budget env mode args s) :
    s.loop.modeLine.Fits ∧ s.loop.newLine.Fits ∧ s.loop.newLine2.Fits := by
  have len := h.len
  have chars := h.chars
  have signs : 2 * s.loop.changes + 1 ≤ modeBufLen := by
    rcases h.signs with few | counted
    · have letters := h.letters
      unfold FewLetters at few
      unfold modeBufLen
      omega
    · omega
  unfold ModeLoop.paraChars at chars
  unfold ModeLoop.changes at signs
  refine ⟨⟨?_, ?_⟩, ⟨?_, ?_⟩, ⟨?_, ?_⟩⟩
  all_goals omega

end Budget

/-- What holds of each letter that the loop reads, in the state before it. -/
def ModeScan.EachLetter (env : ModeEnv) (mode : CStr) (args : List CStr)
    (holds : ModeLoop → Char → Prop) : Prop :=
  ∀ s, ModeScan.Passes env (mode :: args)
      (ModeScan.start (env.tables.chan env.chan) mode args) s →
    ∀ c rest, s.curr = c :: rest → holds s.loop c

theorem collapseSignsFrom_length_le (plus : Option Char) (s : CStr) :
    (collapseSignsFrom plus s).length ≤ s.length := by
  induction s generalizing plus with
  | nil => exact Nat.le_refl _
  | cons c s ih =>
    rw [collapseSignsFrom]
    split
    · exact Nat.le_succ_of_le (ih _)
    · exact Nat.succ_le_succ (ih _)

theorem length_modebuf_le (line : ModeLine) : line.modebuf.length ≤ 2 * line.length := by
  have signs : (line.flatMap fun e => [e.plus, e.letter]).length = 2 * line.length := by
    induction line with
    | nil => rfl
    | cons entry line ih =>
      rw [List.flatMap_cons, List.length_append, ih, List.length_cons, List.length_cons,
        List.length_cons, List.length_nil]
      omega
  rw [← signs]
  exact collapseSignsFrom_length_le none _

theorem collapseSignsFrom_append (plus : Option Char) (s more : CStr) :
    collapseSignsFrom plus s <+: collapseSignsFrom plus (s ++ more) := by
  induction s generalizing plus with
  | nil => exact List.nil_prefix
  | cons c s ih =>
    rw [List.cons_append, collapseSignsFrom, collapseSignsFrom]
    split
    · exact ih _
    · exact (List.prefix_cons_inj c).mpr (ih _)

namespace ModeLoop

variable {env : ModeEnv} {legal : Prop} {st st' : ModeLoop}

theorem ShortLine.congr (chname : st'.ch.chname = st.ch.chname) (modebuf parabuf : CStr) :
    st'.ShortLine env modebuf parabuf ↔ st.ShortLine env modebuf parabuf := by
  rw [ShortLine, ShortLine, chname]

/-- A line that goes on was no longer before. -/
theorem ShortLine.of_prefix {line line' : ModeLine} (more : line <+: line')
    (short : st.ShortLine env line'.modebuf line'.parabuf) :
    st.ShortLine env line.modebuf line.parabuf := by
  obtain ⟨rest, rfl⟩ := more
  have letters : (ModeLine.modebuf line).length ≤ (ModeLine.modebuf (line ++ rest)).length := by
    unfold ModeLine.modebuf collapseSigns
    rw [List.flatMap_append]
    exact (collapseSignsFrom_append _ _ _).length_le
  have paras : (ModeLine.parabuf line).length ≤ (ModeLine.parabuf (line ++ rest)).length := by
    unfold ModeLine.parabuf
    rw [List.flatMap_append, List.length_append]
    exact Nat.le_add_right _ _
  unfold ShortLine at short ⊢
  omega

theorem emit_short_iff (st : ModeLoop) (o : Output) :
    (∀ o' ∈ (st.emit o).out, o'.ShortLine env.tables) ↔
      (∀ o' ∈ st.out, o'.ShortLine env.tables) ∧ o.ShortLine env.tables := by
  unfold emit
  dsimp only
  rw [List.forall_mem_append, List.forall_mem_singleton]

theorem butserv_short_iff (st : ModeLoop) (chname modebuf parabuf : CStr) :
    (Output.channelButserv chname env.sptr (st.text env modebuf parabuf)).ShortLine env.tables ↔
      st.ShortLine env modebuf parabuf := by
  rw [← shortText_iff]
  constructor
  · intro short
    exact short _ rfl
  · intro short text relayed
    rw [← Option.some.inj relayed]
    exact short

theorem sendLine_short_iff (st : ModeLoop) (modebuf parabuf : CStr) :
    (∀ o ∈ (st.sendLine env (st.text env modebuf parabuf)).out, o.ShortLine env.tables) ↔
      (∀ o ∈ st.out, o.ShortLine env.tables) ∧ st.ShortLine env modebuf parabuf := by
  unfold sendLine
  dsimp only
  split
  · rw [emit_short_iff, butserv_short_iff, touch_out]
  · rw [emit_short_iff, emit_short_iff, butserv_short_iff, touch_out, and_iff_left_iff_imp]
    -- the servers get the line as it is, and that is no longer
    intro short text relayed
    rw [← Option.some.inj relayed]
    exact short.2.text.2

theorem sendCapLine_short_iff (env : ModeEnv) (st : ModeLoop) (cap : Capability) (line : ModeLine) :
    (∀ o ∈ (st.sendCapLine env cap line).out, o.ShortLine env.tables) ↔
      (∀ o ∈ st.out, o.ShortLine env.tables) ∧
        (line ≠ [] → st.ShortLine env line.modebuf line.parabuf) := by
  by_cases some : line = []
  · rw [some, sendCapLine_nil]
    exact ⟨fun short => ⟨short, fun some => absurd rfl some⟩, And.left⟩
  · unfold sendCapLine
    rw [if_pos (modebuf_ne_nil some)]
    dsimp only
    split
    · rw [emit_short_iff, butserv_short_iff, touch_out]
      exact and_congr_right fun _ => ⟨fun short _ => short, fun short => short some⟩
    · rw [emit_short_iff, emit_short_iff, butserv_short_iff, touch_out]
      constructor
      · exact fun short => ⟨short.1.1, fun _ => short.1.2⟩
      · intro short
        refine ⟨⟨short.1, short.2 some⟩, ?_⟩
        intro text relayed
        rw [← Option.some.inj relayed]
        exact (short.2 some).text.2

theorem sendCapLine_lines (env : ModeEnv) (st : ModeLoop) (cap : Capability) (line : ModeLine) :
    (st.sendCapLine env cap line).ch = st.ch ∧
      (st.sendCapLine env cap line).newLine2 = st.newLine2 := by
  have touched : st.touch.ch = st.ch ∧ st.touch.newLine2 = st.newLine2 := by
    unfold touch
    split <;> exact ⟨rfl, rfl⟩
  unfold sendCapLine
  dsimp only
  split
  · split <;> exact touched
  · exact ⟨rfl, rfl⟩

theorem sendLine_lines (env : ModeEnv) (st : ModeLoop) (line : CStr) :
    (st.sendLine env line).ch = st.ch ∧ (st.sendLine env line).newLine = st.newLine ∧
      (st.sendLine env line).newLine2 = st.newLine2 := by
  have touched : st.touch.ch = st.ch ∧ st.touch.newLine = st.newLine ∧
      st.touch.newLine2 = st.newLine2 := by
    unfold touch
    split <;> exact ⟨rfl, rfl, rfl⟩
  unfold sendLine
  dsimp only
  split <;> exact touched

theorem sendLines_short_iff (env : ModeEnv) (st : ModeLoop) :
    (∀ o ∈ (st.sendLines env).out, o.ShortLine env.tables) ↔
      (∀ o ∈ st.out, o.ShortLine env.tables) ∧
        ∀ kind, st.lineOf kind ≠ [] →
          st.ShortLine env (st.lineOf kind).modebuf (st.lineOf kind).parabuf := by
  unfold sendLines
  generalize modes : (if st.modeLine.modebuf ≠ [] then
    st.sendLine env (st.text env st.modeLine.modebuf st.modeLine.parabuf) else st) = st'
  have first : ((∀ o ∈ st'.out, o.ShortLine env.tables) ↔
        (∀ o ∈ st.out, o.ShortLine env.tables) ∧
          (st.modeLine ≠ [] → st.ShortLine env st.modeLine.modebuf st.modeLine.parabuf)) ∧
      st'.ch = st.ch ∧ st'.newLine = st.newLine ∧ st'.newLine2 = st.newLine2 := by
    subst modes
    by_cases some : st.modeLine = []
    · rw [some, if_neg (fun written => written rfl)]
      exact ⟨⟨fun short => ⟨short, fun some => absurd rfl some⟩, And.left⟩, rfl, rfl, rfl⟩
    · rw [if_pos (modebuf_ne_nil some), sendLine_short_iff]
      exact ⟨and_congr_right fun _ => ⟨fun short _ => short, fun short => short some⟩,
        sendLine_lines env st _⟩
  obtain ⟨short, ch, newLine, newLine2⟩ := first
  dsimp only
  have second := sendCapLine_short_iff env st' .capEx st'.newLine
  have kept := sendCapLine_lines env st' .capEx st'.newLine
  generalize st'.sendCapLine env .capEx st'.newLine = st'' at second kept ⊢
  -- each line is judged by itself: none of them changes the name or another line
  rw [sendCapLine_short_iff, second, short, kept.2, newLine2, newLine,
    ShortLine.congr (congrArg Channel.chname (kept.1.trans ch)),
    ShortLine.congr (congrArg Channel.chname ch)]
  constructor
  · rintro ⟨⟨⟨out, ban⟩, exception⟩, invex⟩
    exact ⟨out, fun kind => by cases kind <;> assumption⟩
  · rintro ⟨out, lines⟩
    exact ⟨⟨⟨out, lines .ban⟩, lines .exception⟩, lines .invex⟩

theorem Spends.adds {few counted : Prop} (h : Spends env few legal counted st st') :
    ∃ m p k l, m ≤ 1 ∧ Adds env legal st st' m p k l := by
  cases h with
  | blank adds => exact ⟨_, _, _, _, Nat.zero_le 1, adds⟩
  | flag adds => exact ⟨_, _, _, _, Nat.le_refl 1, adds⟩
  | para n w adds => exact ⟨_, _, _, _, Nat.le_refl 1, adds⟩
  | limit adds => exact ⟨_, _, _, _, Nat.le_refl 1, adds⟩

theorem Adds.line_cases {m p k l : Nat} (h : Adds env legal st st' m p k l) (one : m ≤ 1)
    (kind : ListKind) :
    st'.lineOf kind = st.lineOf kind ∨ ∃ entry, st'.lineOf kind = st.lineOf kind ++ [entry] := by
  have total := h.changes
  have ban := (h.lines .ban).length_le
  have exception := (h.lines .exception).length_le
  have invex := (h.lines .invex).length_le
  have short : (st'.lineOf kind).length ≤ (st.lineOf kind).length + 1 := by
    unfold ModeLoop.changes at total
    unfold lineOf at ban exception invex ⊢
    cases kind <;> dsimp only at * <;> omega
  obtain ⟨rest, same⟩ := h.lines kind
  rw [← same, List.length_append] at short
  cases rest with
  | nil => exact Or.inl (by rw [← same, List.append_nil])
  | cons entry rest =>
    have none : rest = [] := by
      apply List.eq_nil_of_length_eq_zero
      rw [List.length_cons] at short
      omega
    exact Or.inr ⟨entry, by rw [← same, none]⟩

end ModeLoop

namespace Budget

variable {env : ModeEnv} {mode : CStr} {args : List CStr} {s : ModeScan}

/-- The names leave room for the lines that the command can make. -/
def RoomyNames (env : ModeEnv) (mode : CStr) (args : List CStr) : Prop :=
  env.senderLen + (env.tables.chan env.chan).chname.length + modeChars mode args + 9 + 2 ≤ bufSize

instance (env : ModeEnv) (mode : CStr) (args : List CStr) : Decidable (RoomyNames env mode args) :=
  inferInstanceAs (Decidable (_ ≤ _))

theorem written_le (h : Budget env mode args s) :
    2 * s.loop.changes + s.loop.paraChars ≤ modeChars mode args := by
  have len := h.len
  have both := h.both
  have count := h.count
  have letters := h.letters
  have typed := h.typed
  have limit : (if s.loop.limitset then 2 else 0) ≤ 2 := by split <;> omega
  have key : (if s.loop.keychange then 1 else 0) ≤ 1 := by split <;> omega
  have alone : (if s.loop.keychange then 2 else 0) ≤ 2 := by split <;> omega
  unfold modeBufLen at len
  apply Nat.le_min.mpr
  constructor
  · omega
  · omega

theorem sendLines (h : Budget env mode args s) (room : RoomyNames env mode args) :
    ∀ o ∈ (s.loop.sendLines env).out, o.ShortLine env.tables := by
  apply (ModeLoop.sendLines_short_iff env s.loop).mpr
  refine ⟨h.out, fun kind _ => ?_⟩
  have written := h.written_le
  have modebuf := length_modebuf_le (s.loop.lineOf kind)
  have inside : 2 * (s.loop.lineOf kind).length + (s.loop.lineOf kind).parabuf.length ≤
      2 * s.loop.changes + s.loop.paraChars := by
    unfold ModeLoop.changes ModeLoop.paraChars ModeLoop.lineOf
    cases kind <;> dsimp only <;> omega
  have head := ModeLoop.length_head_le env
  unfold RoomyNames at room
  unfold ModeLoop.ShortLine
  rw [h.chname]
  omega

theorem passes
    (counted : ModeScan.EachLetter env mode args (ModeLoop.Accounted env (FewLetters (mode :: args))))
    (h : ModeScan.Passes env (mode :: args)
      (ModeScan.start (env.tables.chan env.chan) mode args) s) : Budget env mode args s := by
  induction h with
  | here => exact start env mode args
  | @next s s' before turn ih =>
    cases here : s.curr with
    | nil => exact ih.string turn here
    | cons c curr => exact ih.letter here (counted s before c curr here) turn

end Budget

theorem ModeLoop.keyArgument_rest {env : ModeEnv} {st rest : ModeLoop} {arg : CStr}
    (argument : st.keyArgument env = some (arg, rest)) : rest = st ∨ rest = st.eat := by
  unfold keyArgument at argument
  split at argument
  · split at argument
    · exact Or.inl (Prod.mk.inj (Option.some.inj argument)).2.symm
    · cases argument
  · dsimp only at argument
    split at argument
    · exact Or.inr (Prod.mk.inj (Option.some.inj argument)).2.symm
    · exact Or.inr (Prod.mk.inj (Option.some.inj argument)).2.symm

theorem ModeLoop.removeOldKey_sends (env : ModeEnv) (st : ModeLoop) :
    .channelButserv st.ch.chname env.sptr (st.text env (lit "-k") st.ch.mode.key) ∈
      (st.removeOldKey env).out := by
  have sent : .channelButserv st.ch.chname env.sptr (st.text env (lit "-k") st.ch.mode.key) ∈
      (st.touch.emit (.channelButserv st.touch.ch.chname env.sptr
        (st.text env (lit "-k") st.ch.mode.key))).out := by
    rw [Quiet.touch_ch]
    exact List.mem_append_right _ (List.mem_singleton_self _)
  unfold removeOldKey sendLine
  dsimp only
  rw [Quiet.touch_ch] at sent
  split
  · exact sent
  · exact List.mem_append_left _ sent

/-- A key that is replaced is taken off in a line of its own. -/
theorem ModeLoop.changeKey_sends (env : ModeEnv) (st : ModeLoop) {arg : CStr}
    (add : st.whatt = .add) (old : st.ch.mode.key ≠ []) (other : st.ch.mode.key ≠ arg) :
    .channelButserv st.ch.chname env.sptr (st.text env (lit "-k") st.ch.mode.key) ∈
      (st.changeKey env arg).out := by
  have sent := removeOldKey_sends env st.touch
  rw [text, Quiet.touch_ch, ← text] at sent
  unfold changeKey
  dsimp only
  rw [if_pos add, if_neg fun same => other same.2, if_pos old]
  exact sent

theorem ModeLoop.keyLetter_sends {env : ModeEnv} {st rest : ModeLoop} {arg : CStr}
    (allowed : env.isok = true) (add : st.whatt = .add) (fresh : st.keychange = false)
    (argument : st.keyArgument env = some (arg, rest)) (some : arg ≠ [])
    (room : st.fits (arg.take keyLen).length = true) (old : st.ch.mode.key ≠ [])
    (other : st.ch.mode.key ≠ arg.take keyLen) :
    .channelButserv st.ch.chname env.sptr (st.text env (lit "-k") st.ch.mode.key) ∈
      (st.keyLetter env).out := by
  have same : rest.ch = st.ch ∧ rest.whatt = .add ∧ rest.keychange = false ∧ rest.len = st.len := by
    rcases keyArgument_rest argument with rfl | rfl <;> exact ⟨rfl, add, fresh, rfl⟩
  obtain ⟨ch, add', fresh', len⟩ := same
  have room' : ({ rest with keychange := true } : ModeLoop).fits (arg.take keyLen).length = true :=
    (fits_congr len _).trans room
  unfold keyLetter
  rw [if_neg (by rw [add]; decide), argument]
  dsimp only
  rw [if_neg (by rw [fresh']; decide), if_neg some, if_neg (by rw [allowed]; decide),
    if_neg (by rw [room']; decide)]
  rw [← ch] at old other
  have sent := changeKey_sends env { rest with keychange := true } add' old other
  rw [text] at sent ⊢
  rw [← ch]
  exact sent

namespace ModeScan

variable {env : ModeEnv} {params : List CStr} {s s' last : ModeScan}

theorem Ends.of_passes (h : Passes env params s s') (ends : Ends env params s last) :
    Ends env params s' last := by
  induction h with
  | here => exact ends
  | next before turn ih =>
    cases ih with
    | done stop =>
      rw [stop] at turn
      cases turn
    | next turn' rest =>
      rw [turn'] at turn
      rwa [← Option.some.inj turn]

/-- Buffers are only appended to, and what was sent is sent. -/
theorem Ends.grows (ends : Ends env params s last) :
    (∀ kind, s.loop.lineOf kind <+: last.loop.lineOf kind) ∧
      last.loop.ch.chname = s.loop.ch.chname ∧ ∀ o ∈ s.loop.out, o ∈ last.loop.out := by
  induction ends with
  | done => exact ⟨fun _ => List.prefix_rfl, rfl, fun _ => id⟩
  | next turn _ ih =>
    obtain ⟨lines, chname, sent⟩ := ih
    rcases step_cases turn with ⟨-, -, rfl⟩ | ⟨c, curr, -, rfl⟩
    · exact ⟨lines, chname, sent⟩
    · obtain ⟨m, p, k, l, -, adds⟩ := (ModeLoop.letter_spends env True _ c).adds
      exact ⟨fun kind => (adds.lines kind).trans (lines kind), chname.trans adds.chname,
        fun o inside => sent o (adds.sent o inside)⟩

/-- The buffers and the lines made of them are in bounds, and the lines that went out. -/
structure Roomy (env : ModeEnv) (st : ModeLoop) : Prop where
  fits : ∀ kind, (st.lineOf kind).Fits
  lines : ∀ kind, st.lineOf kind ≠ [] →
    st.ShortLine env (st.lineOf kind).modebuf (st.lineOf kind).parabuf
  out : ∀ o ∈ st.out, o.ShortLine env.tables

theorem Roomy.letter {st : ModeLoop} (h : Roomy env st) {c : Char}
    (room : ModeLoop.HasRoom env st c) : Roomy env (st.letter env c) := by
  obtain ⟨m, p, k, l, one, adds⟩ := (ModeLoop.letter_spends env True st c).adds
  refine ⟨fun kind => ?_, fun kind some => ?_, adds.out room.oldKey h.out⟩
  · rcases adds.line_cases one kind with same | ⟨entry, appended⟩
    · rw [same]
      exact h.fits kind
    · rw [appended]
      exact room.buffers kind entry appended
  · rw [ModeLoop.ShortLine.congr adds.chname]
    rcases adds.line_cases one kind with same | ⟨entry, appended⟩
    · rw [same] at some ⊢
      exact h.lines kind some
    · rw [appended]
      exact room.line kind entry appended

theorem Roomy.passes {mode : CStr} {args : List CStr}
    (room : EachLetter env mode args (ModeLoop.HasRoom env))
    (h : Passes env (mode :: args) (start (env.tables.chan env.chan) mode args) s) :
    Roomy env s.loop := by
  induction h with
  | here =>
    have none (kind : ListKind) :
        (start (env.tables.chan env.chan) mode args).loop.lineOf kind = [] := by
      cases kind <;> rfl
    refine ⟨fun kind => ?_, fun kind some => absurd (none kind) some, fun o inside => ?_⟩
    · rw [none kind]
      exact ⟨by decide, by decide⟩
    · cases inside
  | @next s s' before turn ih =>
    rcases step_cases turn with ⟨-, -, rfl⟩ | ⟨c, curr, here, rfl⟩
    · exact ⟨ih.fits, ih.lines, ih.out⟩
    · exact ih.letter (room s before c curr here)

/-- The buffers hold what is written in every state, and all lines are legal ones, exactly
if each letter finds room. -/
theorem roomy_iff (env : ModeEnv) (mode : CStr) (args : List CStr) :
    ((∀ s, Passes env (mode :: args) (start (env.tables.chan env.chan) mode args) s →
        s.loop.modeLine.Fits ∧ s.loop.newLine.Fits ∧ s.loop.newLine2.Fits) ∧
      ∀ o ∈ (modeRun env (mode :: args)).out, o.ShortLine env.tables) ↔
    EachLetter env mode args (ModeLoop.HasRoom env) := by
  obtain ⟨last, ends, run⟩ := ends_modeRun env mode args
  rw [← run, ModeLoop.sendLines_short_iff]
  constructor
  · rintro ⟨fits, out, lines⟩ s before c curr here
    have turn : s.step env (mode :: args) = some {
        loop := s.loop.letter env c
        curr := curr
        cursor := s.cursor.letter env (mode :: args) s.loop c } := by
      rw [step, here]
    obtain ⟨more, chname, sent⟩ := (ends.of_passes (before.next turn)).grows
    have same := (ends.of_passes before).grows.2.1
    refine ⟨fun kind entry appended => ?_, fun kind entry appended => ?_, ?_⟩
    · rw [← appended]
      obtain ⟨modes, new, new2⟩ := fits _ (before.next turn)
      cases kind <;> assumption
    · rw [← appended, ← ModeLoop.ShortLine.congr same]
      -- the line goes on from here, and in the end it is short
      apply ModeLoop.ShortLine.of_prefix (more kind)
      apply lines
      intro none
      have whole := more kind
      dsimp only at whole
      rw [none, appended, List.prefix_nil] at whole
      exact absurd whole (List.append_ne_nil_of_right_ne_nil _ (List.cons_ne_nil _ _))
    · rintro rfl allowed add fresh arg rest argument some room old other
      rw [← ModeLoop.butserv_short_iff]
      apply out
      apply sent
      exact ModeLoop.keyLetter_sends allowed add fresh argument some room old other
  · intro room
    refine ⟨fun s passes => ?_, ?_⟩
    · have fits := (Roomy.passes room passes).fits
      exact ⟨fits .ban, fits .exception, fits .invex⟩
    · have roomy := Roomy.passes room (Passes.here.to_end ends)
      exact ⟨roomy.out, roomy.lines⟩

end ModeScan

def uncounted (c : Char) : Bool := ['o', 'v', 'k', 'l', 'b', 'e', 'I'].contains c

theorem ModeLoop.accounted_of_counted {env : ModeEnv} {few : Prop} {st : ModeLoop} {c : Char}
    (counted : uncounted c = false) : Accounted env few st c where
  member := by
    rintro (rfl | rfl)
    · cases counted
    · cases counted
  key := by
    rintro rfl
    cases counted
  oldKey := by
    rintro rfl
    cases counted
  limit := by
    rintro rfl
    cases counted
  mask := by
    rintro (rfl | rfl | rfl)
    · cases counted
    · cases counted
    · cases counted

theorem ModeScan.Passes.letters {env : ModeEnv} {ch : Channel} {mode : CStr} {args : List CStr}
    {s : ModeScan} (h : Passes env (mode :: args) (start ch mode args) s) :
    ∀ c ∈ s.curr, c ∈ (mode :: args).flatten := by
  induction h with
  | here => exact fun c inside => List.mem_flatten.mpr ⟨mode, List.mem_cons_self, inside⟩
  | @next s s' before turn ih =>
    rcases step_cases turn with ⟨-, -, rfl⟩ | ⟨d, curr, here, rfl⟩
    · intro c inside
      dsimp only at inside
      rw [List.getD_eq_getElem?_getD] at inside
      cases string : (mode :: args)[s.cursor.parv]? with
      | none =>
        rw [string] at inside
        cases inside
      | some curr =>
        rw [string] at inside
        exact List.mem_flatten.mpr ⟨curr, List.mem_of_getElem? string, inside⟩
    · intro c inside
      apply ih
      rw [here]
      exact List.mem_cons_of_mem d inside

namespace ModeScan

def turns (env : ModeEnv) (params : List CStr) : Nat → ModeScan → ModeScan
  | 0, s => s
  | n + 1, s => match s.step env params with
    | some s' => turns env params n s'
    | none => s

theorem Passes.turns {env : ModeEnv} {params : List CStr} {s s' : ModeScan} (n : Nat)
    (h : Passes env params s s') : Passes env params s (s'.turns env params n) := by
  induction n generalizing s' with
  | zero => exact h
  | succ n ih =>
    rw [ModeScan.turns]
    cases turn : s'.step env params with
    | none => exact h
    | some s'' => exact ih (h.next turn)

end ModeScan

/-- 99 flags and a `-l`, which fill a `modebuf` before its terminator is written. -/
def overfull : CStr := '+' :: List.replicate 99 'm' ++ lit "-l"

end Ircd
