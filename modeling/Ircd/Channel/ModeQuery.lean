import Ircd.Channel.Lifetime
import Ircd.Channel.ModeParams

/-! Modes under `=`.

The cases of `set_channel_mode` test for a query each in its own way, and those of `m`,
`n`, `p`, `s` and `t` not at all: what is not `MODE_ADD` takes the mode off there. The
other letters leave a channel as it is.
-/

set_option autoImplicit false

namespace Ircd

def Output.relays : Output → Bool
  | .channelButserv _ _ _ => true
  | .channelChanopsButserv _ _ _ => true
  | .matchServs _ _ _ => true
  | .matchCapServs _ _ _ _ => true
  | .servButone _ _ => true
  | _ => false

def signOf : Char → Option What
  | '+' => some .add
  | '-' => some .del
  | '=' => some .query
  | _ => none

def What.after (what : What) (c : Char) : What := (signOf c).getD what

def Queries : What → CStr → Prop
  | _, [] => True
  | what, c :: cs => ((signOf c).isSome ∨ what = .query) ∧ Queries (what.after c) cs

instance Queries.decidable : (what : What) → (cs : CStr) → Decidable (Queries what cs)
  | _, [] => isTrue trivial
  | what, c :: cs => @instDecidableAnd _ _ _ (Queries.decidable (what.after c) cs)

theorem Queries.append {what : What} {cs ds : CStr} (h : Queries what (cs ++ ds)) :
    Queries what cs ∧ Queries (cs.foldl What.after what) ds := by
  induction cs generalizing what with
  | nil => exact ⟨trivial, h⟩
  | cons c cs ih => exact ⟨⟨h.1, (ih h.2).1⟩, (ih h.2).2⟩

def namesMember (c : Char) : Bool := c == 'o' || c == 'v'

/-- The characters that a query comes to: every parameter is a string of letters, but
those lost at `o` and `v`. -/
def queryLetters (outside : Bool) : Nat → List CStr → CStr
  | 0, _ => []
  | _ + 1, [] => []
  | n + 1, curr :: rest =>
    curr ++ queryLetters outside n (if outside then rest.drop (curr.countP namesMember) else rest)

def forgetsQuery (c : Char) : Bool := ['m', 'n', 'p', 's', 't'].contains c

theorem forgetsQuery_other {c : Char} (forgets : forgetsQuery c = true) :
    signOf c = none ∧ namesMember c = false := by
  have member : c ∈ ['m', 'n', 'p', 's', 't'] := List.contains_iff_mem.mp forgets
  simp only [List.mem_cons, List.not_mem_nil, or_false] at member
  rcases member with rfl | rfl | rfl | rfl | rfl <;> exact ⟨rfl, rfl⟩

def ModeEnv.outside (env : ModeEnv) : Bool :=
  env.myClient && !env.tables.isMember env.sptr env.chan

namespace ModeLoop

structure Spared (st st' : ModeLoop) : Prop where
  ch : st'.ch = st.ch
  uninvited : st'.uninvited = st.uninvited
  destroyed : st'.destroyed = st.destroyed
  len : st'.len = st.len
  done : st'.done = st.done
  modeLine : st'.modeLine = st.modeLine
  newLine : st'.newLine = st.newLine
  newLine2 : st'.newLine2 = st.newLine2
  out : st'.out.filter Output.relays = st.out.filter Output.relays

namespace Spared

variable {st st' st'' : ModeLoop}

theorem refl (st : ModeLoop) : Spared st st := ⟨rfl, rfl, rfl, rfl, rfl, rfl, rfl, rfl, rfl⟩

theorem trans (h : Spared st st') (h' : Spared st' st'') : Spared st st'' where
  ch := h'.ch.trans h.ch
  uninvited := h'.uninvited.trans h.uninvited
  destroyed := h'.destroyed.trans h.destroyed
  len := h'.len.trans h.len
  done := h'.done.trans h.done
  modeLine := h'.modeLine.trans h.modeLine
  newLine := h'.newLine.trans h.newLine
  newLine2 := h'.newLine2.trans h.newLine2
  out := h'.out.trans h.out

end Spared

structure Asked (st st' : ModeLoop) : Prop extends Spared st st' where
  whatt : st'.whatt = st.whatt

namespace Asked

variable {st st' st'' : ModeLoop}

theorem trans (h : Asked st st') (h' : Asked st' st'') : Asked st st'' :=
  ⟨h.toSpared.trans h'.toSpared, h'.whatt.trans h.whatt⟩

theorem refl (st : ModeLoop) : Asked st st := ⟨Spared.refl st, rfl⟩

theorem touch (st : ModeLoop) : Asked st st.touch := by
  unfold ModeLoop.touch
  split
  · exact ⟨⟨rfl, rfl, rfl, rfl, rfl, rfl, rfl, rfl, rfl⟩, rfl⟩
  · exact refl st

theorem eat (st : ModeLoop) : Asked st st.eat :=
  ⟨⟨rfl, rfl, rfl, rfl, rfl, rfl, rfl, rfl, rfl⟩, rfl⟩

variable (env : ModeEnv)

theorem reply (st : ModeLoop) (u : ClientId) (num : Numeric) (args : List CStr) :
    Asked st (st.reply env u num args) where
  ch := rfl
  uninvited := rfl
  destroyed := rfl
  len := rfl
  done := rfl
  modeLine := rfl
  newLine := rfl
  newLine2 := rfl
  out := by
    rw [ModeLoop.reply, ModeLoop.emit, List.filter_append]
    exact List.append_nil _
  whatt := rfl

theorem noOps (st : ModeLoop) : Asked st (st.noOps env) := by
  unfold ModeLoop.noOps
  split
  · have told := (touch st).trans (reply env st.touch env.sptr .errChanOPrivsNeeded [st.ch.chname])
    exact ⟨⟨told.ch, told.uninvited, told.destroyed, told.len, told.done, told.modeLine,
      told.newLine, told.newLine2, told.out⟩, told.whatt⟩
  · exact refl st

theorem setRplSent (st : ModeLoop) (kind : ListKind) : Asked st (st.setRplSent kind) := by
  cases kind <;> exact ⟨⟨rfl, rfl, rfl, rfl, rfl, rfl, rfl, rfl, rfl⟩, rfl⟩

theorem showList (st : ModeLoop) (kind : ListKind) : Asked st (st.showList env kind) := by
  have replies (bans : List Ban) (st : ModeLoop) : Asked st (bans.foldl (fun st ban =>
      st.reply env env.cptr (listReply kind).1
        [st.ch.chname, ban.banstr, ban.who, formatTime ban.time]) st) := by
    induction bans generalizing st with
    | nil => exact refl st
    | cons ban bans ih => exact (reply env st _ _ _).trans (ih _)
  have read := (setRplSent st kind).trans (touch _)
  unfold ModeLoop.showList
  split
  · exact refl st
  · dsimp only
    split
    · exact (read.trans (replies _ _)).trans (reply env _ _ _ _)
    · exact read.trans (reply env _ _ _ _)

theorem memberLetter {st : ModeLoop} (query : st.whatt = .query) (letter : Char) :
    Asked st (st.memberLetter env letter) := by
  unfold ModeLoop.memberLetter
  split
  · dsimp only
    split
    · exact eat st
    · have told := (touch st).trans (reply env st.touch env.sptr .errNotOnChannel [st.ch.chname])
      exact ⟨⟨told.ch, told.uninvited, told.destroyed, told.len, told.done, told.modeLine,
        told.newLine, told.newLine2, told.out⟩, told.whatt⟩
  · exact refl st

theorem jupeLetter {st : ModeLoop} (query : st.whatt = .query) : Asked st (st.jupeLetter env) := by
  unfold ModeLoop.jupeLetter
  dsimp only
  rw [query]
  split <;> exact refl st

end Asked

variable {env : ModeEnv} {st : ModeLoop} {c : Char}

theorem letter_flag (env : ModeEnv) (st : ModeLoop) (forgets : forgetsQuery c = true) :
    ∃ f, f ≠ .modeInviteOnly ∧ st.letter env c = st.flagLetter env f c := by
  have member : c ∈ ['m', 'n', 'p', 's', 't'] := List.contains_iff_mem.mp forgets
  simp only [List.mem_cons, List.not_mem_nil, or_false] at member
  rcases member with rfl | rfl | rfl | rfl | rfl
  · exact ⟨.modeModerated, by decide, rfl⟩
  · exact ⟨.modeNoPrivMsgs, by decide, rfl⟩
  · exact ⟨.modePrivate, by decide, rfl⟩
  · exact ⟨.modeSecret, by decide, rfl⟩
  · exact ⟨.modeTopicLimit, by decide, rfl⟩

theorem letter_asked (query : st.whatt = .query) (plain : signOf c = none)
    (knows : forgetsQuery c = false) : Asked st (st.letter env c) := by
  unfold letter
  split
  · cases plain
  · cases plain
  · cases plain
  · exact Asked.memberLetter env query 'o'
  · exact Asked.memberLetter env query 'v'
  · rw [keyLetter, if_pos query]
    exact Asked.refl st
  · rw [maskLetter, if_pos query]
    exact Asked.showList env st .exception
  · rw [maskLetter, if_pos query]
    exact Asked.showList env st .invex
  · rw [maskLetter, if_pos query]
    exact Asked.showList env st .ban
  · rw [limitLetter, if_pos query]
    exact Asked.refl st
  · rw [inviteLetter, if_pos query]
    exact Asked.refl st
  · exact Asked.jupeLetter env query
  · cases knows
  · cases knows
  · cases knows
  · cases knows
  · cases knows
  · rw [unknownLetter, if_pos query]
    exact Asked.refl st

theorem letter_barred (query : st.whatt = .query) (plain : signOf c = none)
    (barred : env.isok = false) : Asked st (st.letter env c) := by
  cases forgets : forgetsQuery c with
  | false => exact letter_asked query plain forgets
  | true =>
    obtain ⟨f, -, same⟩ := letter_flag env st forgets
    rw [same, flagLetter, if_pos (by rw [barred]; rfl)]
    exact Asked.noOps env st

structure Marked (st st' : ModeLoop) : Prop where
  whatt : st'.whatt = st.whatt
  len : st'.len = st.len
  modeLine : st'.modeLine = st.modeLine

theorem changeFlag_query (env : ModeEnv) (query : st.whatt = .query) {f : ModeFlag}
    (other : f ≠ .modeInviteOnly) (letter : Char) :
    (st.changeFlag env f letter).whatt = .query ∧
    (st.modeLine ≠ [] → (st.changeFlag env f letter).modeLine ≠ []) ∧
    (st.len = 0 → st.done f = false → (st.changeFlag env f letter).modeLine ≠ []) := by
  unfold changeFlag
  by_cases again : env.myClient ∧ st.done f
  · rw [if_pos again]
    refine ⟨query, id, fun _ fresh => ?_⟩
    rw [fresh] at again
    cases again.2
  rw [if_neg again]
  dsimp only
  have marked : Marked st (if env.myClient then
      { st with done := Function.update st.done f true } else st) := by
    split <;> exact ⟨rfl, rfl, rfl⟩
  generalize (if env.myClient then
    { st with done := Function.update st.done f true } else st) = st' at marked ⊢
  have query' := marked.whatt.trans query
  by_cases full : !st'.fits 0
  · rw [if_pos full]
    refine ⟨query', fun some => marked.modeLine ▸ some, fun zero _ => ?_⟩
    simp [fits, marked.len, zero, modeBufLen] at full
  · rw [if_neg full, query', if_neg (by decide : What.query ≠ .add), if_neg other]
    have written : ((st'.touch.setFlag f false).write '-' letter none).modeLine ≠ [] :=
      List.append_ne_nil_of_right_ne_nil _ (List.cons_ne_nil _ _)
    refine ⟨?_, fun _ => written, fun _ _ => written⟩
    exact (Asked.touch st').whatt.trans query'

theorem memberLetter_query (query : st.whatt = .query) (letter : Char) :
    (st.memberLetter env letter).parv = if env.outside then st.parv.tail else st.parv := by
  have same : env.outside = true ↔ env.myClient ∧ !env.tables.isMember env.sptr env.chan :=
    Bool.and_eq_true_iff
  unfold memberLetter
  by_cases out : env.myClient ∧ !env.tables.isMember env.sptr env.chan
  · rw [if_pos out, if_pos (same.mpr out)]
    dsimp only
    rw [eat_parv]
    split
    · rfl
    · exact congrArg List.tail st.touch_parv
  · rw [if_neg out, if_pos query, if_neg (mt same.mp out)]

theorem letter_query (env : ModeEnv) (st : ModeLoop) (query : st.whatt = .query) (plain : signOf c = none) :
    (st.letter env c).whatt = .query ∧
    (st.letter env c).parv =
      if env.outside && namesMember c then st.parv.tail else st.parv := by
  -- a flag letter is set although it was asked; the sign stays a question all the same
  cases forgets : forgetsQuery c with
  | true =>
    obtain ⟨f, other, same⟩ := letter_flag env st forgets
    rw [same, (forgetsQuery_other forgets).2, Bool.and_false, flagLetter_parv]
    constructor
    · unfold flagLetter
      split
      · exact (Asked.noOps env st).whatt.trans query
      · exact (changeFlag_query env query other c).1
    · rfl
  | false =>
    refine ⟨(letter_asked query plain forgets).whatt.trans query, ?_⟩
    -- apart from o and v, no letter takes an argument from a question
    have stays (other : namesMember c = false) (same : (st.letter env c).parv = st.parv) :
        (st.letter env c).parv =
          if env.outside && namesMember c then st.parv.tail else st.parv := by
      rw [same, other, Bool.and_false]
      rfl
    by_cases o : c = 'o'
    · subst o
      rw [show namesMember 'o' = true from rfl, Bool.and_true]
      exact memberLetter_query query 'o'
    by_cases v : c = 'v'
    · subst v
      rw [show namesMember 'v' = true from rfl, Bool.and_true]
      exact memberLetter_query query 'v'
    apply stays
    · simp [namesMember, o, v]
    unfold letter
    split
    any_goals contradiction
    · rw [keyLetter, if_pos query]
    · rw [maskLetter, if_pos query, showList_parv]
    · rw [maskLetter, if_pos query, showList_parv]
    · rw [maskLetter, if_pos query, showList_parv]
    · rw [limitLetter, if_pos query]
    · rw [inviteLetter, if_pos query]
    · exact st.jupeLetter_parv env
    · rw [unknownLetter, if_pos query]

theorem letter_sign (env : ModeEnv) (st : ModeLoop) {what : What} (isSign : signOf c = some what) :
    st.letter env c = { st with whatt := what } ∧ namesMember c = false := by
  unfold signOf at isSign
  split at isSign
  · cases isSign
    exact ⟨rfl, rfl⟩
  · cases isSign
    exact ⟨rfl, rfl⟩
  · cases isSign
    exact ⟨rfl, rfl⟩
  · cases isSign

theorem letter_reads (env : ModeEnv) (st : ModeLoop) (queries : (signOf c).isSome ∨ st.whatt = .query) :
    (st.letter env c).whatt = st.whatt.after c ∧
    (st.letter env c).parv =
      if env.outside && namesMember c then st.parv.tail else st.parv := by
  cases sign : signOf c with
  | some what =>
    obtain ⟨same, other⟩ := letter_sign env st sign
    rw [same, other, Bool.and_false, What.after, sign]
    exact ⟨rfl, rfl⟩
  | none =>
    have query : st.whatt = .query := by
      rw [sign] at queries
      exact queries.resolve_left Bool.false_ne_true
    have reads := letter_query env st query sign
    rw [What.after, sign]
    exact ⟨reads.1.trans query.symm, reads.2⟩

theorem letters_reads (env : ModeEnv) (st : ModeLoop) {curr : CStr} (queries : Queries st.whatt curr) :
    (st.letters env curr).whatt = curr.foldl What.after st.whatt ∧
    (st.letters env curr).parv =
      if env.outside then st.parv.drop (curr.countP namesMember) else st.parv := by
  induction curr generalizing st with
  | nil => simp [letters]
  | cons c curr ih =>
    have head := letter_reads env st queries.1
    have tail : Queries (st.letter env c).whatt curr := by
      rw [head.1]
      exact queries.2
    have rest := ih _ tail
    rw [letters, List.foldl_cons]
    refine ⟨rest.1.trans (by rw [head.1]; rfl), rest.2.trans ?_⟩
    rw [head.2, List.countP_cons]
    cases env.outside with
    | false => rfl
    | true =>
      cases namesMember c with
      | false => rfl
      | true => simp [List.drop_tail]

theorem letter_spared (env : ModeEnv) (st : ModeLoop) (queries : (signOf c).isSome ∨ st.whatt = .query)
    (safe : env.isok = false ∨ forgetsQuery c = false) : Spared st (st.letter env c) := by
  cases sign : signOf c with
  | some what =>
    rw [(letter_sign env st sign).1]
    exact ⟨rfl, rfl, rfl, rfl, rfl, rfl, rfl, rfl, rfl⟩
  | none =>
    have query : st.whatt = .query := by
      rw [sign] at queries
      exact queries.resolve_left Bool.false_ne_true
    rcases safe with barred | knows
    · exact (letter_barred query sign barred).toSpared
    · exact (letter_asked query sign knows).toSpared

theorem letters_spared (env : ModeEnv) (st : ModeLoop) {curr : CStr} (queries : Queries st.whatt curr)
    (safe : env.isok = false ∨ ∀ c ∈ curr, forgetsQuery c = false) :
    Spared st (st.letters env curr) := by
  induction curr generalizing st with
  | nil => exact Spared.refl st
  | cons c curr ih =>
    have head : Spared st (st.letter env c) :=
      letter_spared env st queries.1 (safe.imp_right fun all => all c List.mem_cons_self)
    apply head.trans
    apply ih
    · rw [(letter_reads env st queries.1).1]
      exact queries.2
    · exact safe.imp_right fun all x inside => all x (List.mem_cons_of_mem c inside)

theorem strings_spared (n : Nat) {st : ModeLoop}
    (queries : Queries st.whatt (queryLetters env.outside n st.parv))
    (safe : env.isok = false ∨
      ∀ c ∈ queryLetters env.outside n st.parv, forgetsQuery c = false) :
    Spared st (strings env n st) := by
  induction n generalizing st with
  | zero => exact Spared.refl st
  | succ n ih =>
    cases left : st.parv with
    | nil =>
      rw [strings, left]
      exact Spared.refl st
    | cons curr rest =>
      rw [left] at queries safe
      obtain ⟨head, tail⟩ := queries.append
      have reads := letters_reads env st.eat head
      have parv : (st.eat.letters env curr).parv =
          if env.outside then rest.drop (curr.countP namesMember) else rest := by
        rw [reads.2, eat_parv, left]
        rfl
      rw [strings, left]
      have now : Spared st (st.eat.letters env curr) := by
        apply (Asked.eat st).toSpared.trans
        apply letters_spared env st.eat head
        exact safe.imp_right fun all c inside => all c (List.mem_append_left _ inside)
      apply now.trans
      apply ih
      · rw [reads.1, parv]
        exact tail
      · rw [parv]
        exact safe.imp_right fun all c inside => all c (List.mem_append_right _ inside)

theorem letter_kept (queries : (signOf c).isSome ∨ st.whatt = .query) (some : st.modeLine ≠ []) :
    (st.letter env c).modeLine ≠ [] := by
  cases forgets : forgetsQuery c with
  | false => exact (letter_spared env st queries (Or.inr forgets)).modeLine ▸ some
  | true =>
    obtain ⟨f, other, same⟩ := letter_flag env st forgets
    have query : st.whatt = .query := by
      rw [(forgetsQuery_other forgets).1] at queries
      exact queries.resolve_left Bool.false_ne_true
    rw [same, flagLetter]
    split
    · exact (Asked.noOps env st).modeLine ▸ some
    · exact (changeFlag_query env query other c).2.1 some

theorem letters_kept {curr : CStr} (queries : Queries st.whatt curr) (some : st.modeLine ≠ []) :
    (st.letters env curr).modeLine ≠ [] := by
  induction curr generalizing st with
  | nil => exact some
  | cons c curr ih =>
    apply ih
    · rw [(letter_reads env st queries.1).1]
      exact queries.2
    · exact letter_kept queries.1 some

theorem strings_kept (n : Nat) {st : ModeLoop}
    (queries : Queries st.whatt (queryLetters env.outside n st.parv)) (some : st.modeLine ≠ []) :
    (strings env n st).modeLine ≠ [] := by
  induction n generalizing st with
  | zero => exact some
  | succ n ih =>
    cases left : st.parv with
    | nil =>
      rw [strings, left]
      exact some
    | cons curr rest =>
      rw [left] at queries
      obtain ⟨head, tail⟩ := queries.append
      have reads := letters_reads env st.eat head
      rw [strings, left]
      apply ih
      · rw [reads.1, reads.2, eat_parv, left]
        exact tail
      · exact letters_kept head some

theorem letters_written {curr : CStr} (allowed : env.isok = true)
    (queries : Queries st.whatt curr) (forgets : ∃ c ∈ curr, forgetsQuery c = true)
    (empty : st.len = 0) (fresh : ∀ f, st.done f = false) :
    (st.letters env curr).modeLine ≠ [] := by
  induction curr generalizing st with
  | nil =>
    obtain ⟨c, inside, -⟩ := forgets
    cases inside
  | cons c curr ih =>
    have tail : Queries (st.letter env c).whatt curr := by
      rw [(letter_reads env st queries.1).1]
      exact queries.2
    -- the letter itself is answered, or it spares the buffer for a later one
    cases now : forgetsQuery c with
    | true =>
      apply letters_kept tail
      obtain ⟨f, other, same⟩ := letter_flag env st now
      have query : st.whatt = .query := by
        have sign := queries.1
        rw [(forgetsQuery_other now).1] at sign
        exact sign.resolve_left Bool.false_ne_true
      rw [same, flagLetter, allowed]
      exact (changeFlag_query env query other c).2.2 empty (fresh f)
    | false =>
      have head := letter_spared env st queries.1 (Or.inr now)
      apply ih tail
      · obtain ⟨x, inside, forgets⟩ := forgets
        rcases List.mem_cons.mp inside with rfl | later
        · rw [now] at forgets
          cases forgets
        · exact ⟨x, later, forgets⟩
      · exact head.len.trans empty
      · intro f
        rw [head.done]
        exact fresh f

theorem strings_written (n : Nat) {st : ModeLoop} (allowed : env.isok = true)
    (queries : Queries st.whatt (queryLetters env.outside n st.parv))
    (forgets : ∃ c ∈ queryLetters env.outside n st.parv, forgetsQuery c = true)
    (empty : st.len = 0) (fresh : ∀ f, st.done f = false) :
    (strings env n st).modeLine ≠ [] := by
  induction n generalizing st with
  | zero =>
    obtain ⟨c, inside, -⟩ := forgets
    cases inside
  | succ n ih =>
    cases left : st.parv with
    | nil =>
      rw [left] at forgets
      obtain ⟨c, inside, -⟩ := forgets
      cases inside
    | cons curr rest =>
      rw [left] at queries forgets
      obtain ⟨head, tail⟩ := queries.append
      have reads := letters_reads env st.eat head
      have later : Queries (st.eat.letters env curr).whatt
          (queryLetters env.outside n (st.eat.letters env curr).parv) := by
        rw [reads.1, reads.2, eat_parv, left]
        exact tail
      rw [strings, left]
      -- the letter is in this word, or the induction finds it in a later one
      by_cases here : ∃ c ∈ curr, forgetsQuery c = true
      · exact strings_kept n later (letters_written allowed head here empty fresh)
      · have none (c : Char) (inside : c ∈ curr) : forgetsQuery c = false := by
          apply Bool.eq_false_iff.mpr
          intro forgets
          exact here ⟨c, inside, forgets⟩
        have spared := letters_spared env st.eat head (Or.inr none)
        apply ih later
        · obtain ⟨c, inside, forgets⟩ := forgets
          rcases List.mem_append.mp inside with now | behind
          · exact absurd ⟨c, now, forgets⟩ here
          · refine ⟨c, ?_, forgets⟩
            rw [reads.2, eat_parv, left]
            exact behind
        · exact spared.len.trans empty
        · intro f
          rw [spared.done]
          exact fresh f

theorem modebuf_ne_nil {line : ModeLine} (some : line ≠ []) : line.modebuf ≠ [] := by
  cases line with
  | nil => exact absurd rfl some
  | cons entry line =>
    rw [ModeLine.modebuf, List.flatMap_cons, List.cons_append, collapseSigns, collapseSignsFrom,
      if_neg (Option.some_ne_none _)]
    exact List.cons_ne_nil _ _

theorem sendCapLine_nil (env : ModeEnv) (st : ModeLoop) (cap : Capability) :
    st.sendCapLine env cap [] = st := by
  unfold sendCapLine
  exact if_neg (fun some => some rfl)

theorem sendLines_nil (env : ModeEnv) {st : ModeLoop} (line : st.modeLine = [])
    (new : st.newLine = []) (new2 : st.newLine2 = []) : st.sendLines env = st := by
  unfold sendLines
  rw [line, if_neg (fun some => some rfl)]
  dsimp only
  rw [new, sendCapLine_nil, new2, sendCapLine_nil]

theorem touch_out (st : ModeLoop) : st.touch.out = st.out := by
  unfold touch
  split <;> rfl

theorem sendCapLine_out (env : ModeEnv) (st : ModeLoop) (cap : Capability) (line : ModeLine)
    {o : Output} (inside : o ∈ st.out) : o ∈ (st.sendCapLine env cap line).out := by
  unfold sendCapLine
  dsimp only
  split
  · split
    · rw [emit, touch_out]
      exact List.mem_append_left _ inside
    · rw [emit, emit, touch_out]
      exact List.mem_append_left _ (List.mem_append_left _ inside)
  · exact inside

theorem sendLines_relays (env : ModeEnv) {st : ModeLoop} (line : st.modeLine ≠ []) :
    ∃ o ∈ (st.sendLines env).out, o.relays = true := by
  have first : .channelButserv st.ch.chname env.sptr
      (st.text env st.modeLine.modebuf st.modeLine.parabuf) ∈
      (st.sendLine env (st.text env st.modeLine.modebuf st.modeLine.parabuf)).out := by
    unfold sendLine
    dsimp only
    split
    · exact List.mem_append_right _ List.mem_cons_self
    · exact List.mem_append_left _ (List.mem_append_right _ List.mem_cons_self)
  unfold sendLines
  rw [if_pos (modebuf_ne_nil line)]
  exact ⟨_, sendCapLine_out env _ _ _ (sendCapLine_out env _ _ _ first), rfl⟩

end ModeLoop

/-- What a query leaves alone: the modes with key and limit, the members with their
flags, the lists and the invitations; and nobody is told of a change. -/
structure Unasked (s s' : Server) (c : ChanId) : Prop where
  mode : (s'.chan c).mode = (s.chan c).mode
  members : (s'.chan c).members = (s.chan c).members
  banlist : (s'.chan c).banlist = (s.chan c).banlist
  exceptlist : (s'.chan c).exceptlist = (s.chan c).exceptlist
  invexlist : (s'.chan c).invexlist = (s.chan c).invexlist
  invites : (s'.chan c).invites = (s.chan c).invites
  told : ∀ o ∈ s'.sent.drop s.sent.length, o.relays = false

theorem setChannelMode_told (s : Server) (cptr sptr : ClientId) (c : ChanId) (parv : List CStr) :
    (s.setChannelMode cptr sptr c parv).sent.drop s.sent.length =
      (modeRun (modeEnv s.toTables cptr sptr c) parv).out := by
  unfold Server.setChannelMode
  dsimp only
  rw [Server.touch_sent]
  exact List.drop_left

/-- A query from a source that may change modes leaves the channel alone if and only if
`m`, `n`, `p`, `s` and `t` are not among its letters. -/
theorem setChannelMode_query (s : Server) (cptr sptr : ClientId) (c : ChanId) (parv : List CStr)
    (queries : Queries .add
      (queryLetters (modeEnv s.toTables cptr sptr c).outside parv.length parv)) :
    Unasked s (s.setChannelMode cptr sptr c parv) c ↔
      (modeEnv s.toTables cptr sptr c).isok = false ∨
      ∀ x ∈ queryLetters (modeEnv s.toTables cptr sptr c).outside parv.length parv,
        forgetsQuery x = false := by
  generalize isEnv : modeEnv s.toTables cptr sptr c = env at queries ⊢
  have chan : env.tables.chan env.chan = s.chan c := by rw [← isEnv]; rfl
  constructor
  · intro unasked
    cases allowed : env.isok with
    | false => exact Or.inl rfl
    | true =>
      right
      -- one of the five letters writes a change, and a change that is written is sent
      intro x inside
      by_contra forgets
      have written : (ModeLoop.strings env parv.length
          (modeStart (s.chan c) parv)).modeLine ≠ [] :=
        ModeLoop.strings_written parv.length allowed queries
          ⟨x, inside, Bool.eq_true_of_not_eq_false forgets⟩ rfl (fun _ => rfl)
      obtain ⟨o, sent, relays⟩ := ModeLoop.sendLines_relays env written
      have quiet := unasked.told o
      rw [setChannelMode_told, isEnv, modeRun, chan] at quiet
      rw [quiet sent] at relays
      cases relays
  · intro safe
    -- no other letter of a query touches the channel or the line
    have spared : ModeLoop.Spared (modeStart (s.chan c) parv)
        (ModeLoop.strings env parv.length (modeStart (s.chan c) parv)) :=
      ModeLoop.strings_spared parv.length queries safe
    have run : modeRun env parv =
        ModeLoop.strings env parv.length (modeStart (s.chan c) parv) := by
      rw [modeRun, chan]
      exact ModeLoop.sendLines_nil env spared.modeLine spared.newLine spared.newLine2
    have after : (s.setChannelMode cptr sptr c parv).chan c = s.chan c := by
      unfold Server.setChannelMode
      dsimp only
      rw [isEnv, run, Tables.commitMode, spared.uninvited, spared.destroyed, spared.ch]
      simp [modeStart, Tables.setChan]
    have told : ∀ o ∈ (s.setChannelMode cptr sptr c parv).sent.drop s.sent.length,
        o.relays = false := by
      intro o sent
      rw [setChannelMode_told, isEnv, run] at sent
      by_contra relays
      have kept : o ∈ (ModeLoop.strings env parv.length
          (modeStart (s.chan c) parv)).out.filter Output.relays :=
        List.mem_filter.mpr ⟨sent, Bool.eq_true_of_not_eq_false relays⟩
      rw [spared.out] at kept
      cases kept
    refine ⟨?_, ?_, ?_, ?_, ?_, ?_, told⟩
    all_goals rw [after]

def quietServer : Server := networkServer.setChannelMode 1 2 0 [lit "+n"]

theorem quietServer_query :
    Unasked quietServer (quietServer.setChannelMode 1 2 0 [lit "=bikeo", lit "olly"]) 0 ↔
      (modeEnv quietServer.toTables 1 2 0).isok = false ∨
      ∀ x ∈ lit "=bikeoolly", forgetsQuery x = false :=
  setChannelMode_query quietServer 1 2 0 [lit "=bikeo", lit "olly"] (by decide +kernel)

theorem quietServer_forgets :
    Queries .add (queryLetters (modeEnv quietServer.toTables 1 2 0).outside 1 [lit "=n"]) ∧
    (quietServer.chan 0).mode.mode .modeNoPrivMsgs = true ∧
    ((quietServer.setChannelMode 1 2 0 [lit "=n"]).chan 0).mode.mode .modeNoPrivMsgs = false ∧
    .channelButserv (lit "#c") 2 (lit ":anna MODE #c -n ") ∈
      (quietServer.setChannelMode 1 2 0 [lit "=n"]).sent.drop quietServer.sent.length ∧
    ¬ Unasked quietServer (quietServer.setChannelMode 1 2 0 [lit "=n"]) 0 := by
  have on : (quietServer.chan 0).mode.mode .modeNoPrivMsgs = true := by decide +kernel
  have off : ((quietServer.setChannelMode 1 2 0 [lit "=n"]).chan 0).mode.mode .modeNoPrivMsgs =
      false := by decide +kernel
  refine ⟨by decide +kernel, on, off, by decide +kernel, fun unasked => ?_⟩
  rw [unasked.mode, on] at off
  cases off

end Ircd
