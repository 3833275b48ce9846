import Ircd.Channel.ModeClean

/-! The letters that an operator outside an empty channel can make read its block.

Nothing that such an operator asks for is let through but the jupe, so the letters can be
read without the channel: `operReports` lists what each of them asks of the block, and
a use of the freed block can be told from that list.
-/

set_option autoImplicit false

namespace Ircd

/-- What a letter asks of the block of a channel that nobody is in. An error and a list
are sent once a command, `j` is obeyed each time. -/
inductive Report where
  | notOnChannel
  | noOps
  | list (kind : ListKind)
  | jupe
  | unjupe
  deriving DecidableEq, Repr

def Report.obeyed : Report → Bool
  | .jupe => true
  | .unjupe => true
  | _ => false

structure OperRead where
  what : What
  parv : List CStr
  keychange : Bool
  reports : List Report

namespace OperRead

def report (r : OperRead) (x : Report) : OperRead := { r with reports := r.reports ++ [x] }

def eat (r : OperRead) : OperRead := { r with parv := r.parv.tail }

def key (r : OperRead) (arg : CStr) : OperRead :=
  if r.keychange then r
  else if arg = [] then { r with keychange := true }
  else ({ r with keychange := true } : OperRead).report .noOps

def keyLetter (r : OperRead) : OperRead :=
  match r.what, r.parv with
  | .query, _ => r
  | .add, [] => r
  | .add, para :: _ => r.eat.key (fixKey (checkString para))
  | .del, [] => r.key ['*']
  | .del, para :: _ => r.eat.key (checkString para)

def maskLetter (r : OperRead) (kind : ListKind) : OperRead :=
  if r.what = .query ∨ r.parv = [] then r.report (.list kind) else r.eat.report .noOps

def letter (r : OperRead) (c : Char) : OperRead :=
  match c with
  | '+' => { r with what := .add }
  | '-' => { r with what := .del }
  | '=' => { r with what := .query }
  | 'o' => r.eat.report .notOnChannel
  | 'v' => r.eat.report .notOnChannel
  | 'k' => r.keyLetter
  | 'e' => r.maskLetter .exception
  | 'I' => r.maskLetter .invex
  | 'b' => r.maskLetter .ban
  | 'l' => if r.what = .add then r.eat else r
  | 'i' => if r.what = .query then r else r.report .noOps
  | 'j' =>
    match r.what with
    | .add => r.report .jupe
    | .del => r.report .unjupe
    | .query => r
  | 'm' => r.report .noOps
  | 'n' => r.report .noOps
  | 'p' => r.report .noOps
  | 's' => r.report .noOps
  | 't' => r.report .noOps
  | _ => r

def letters (r : OperRead) (curr : CStr) : OperRead := curr.foldl letter r

def strings : Nat → OperRead → OperRead
  | 0, r => r
  | n + 1, r =>
    match r.parv with
    | [] => r
    | curr :: _ => strings n (r.eat.letters curr)

end OperRead

def operReports (parv : List CStr) : List Report :=
  (OperRead.strings parv.length
    { what := .add, parv := parv, keychange := false, reports := [] }).reports

/-- Some letter after a `-j` is obeyed or reports for the first time. -/
def ReportsFreed (rs : List Report) : Prop :=
  ∃ pre post, rs = pre ++ .unjupe :: post ∧ ∃ r ∈ post, r.obeyed = true ∨ r ∉ pre

theorem reportsFreed_append (rs : List Report) (x : Report) :
    ReportsFreed (rs ++ [x]) ↔
      ReportsFreed rs ∨ (.unjupe ∈ rs ∧ (x.obeyed = true ∨ x ∉ rs)) := by
  constructor
  · rintro ⟨pre, post, same, r, inside, asks⟩
    obtain none | ⟨post, last, rfl⟩ := List.eq_nil_or_concat post
    · rw [none] at inside
      cases inside
    · rw [List.concat_eq_append, ← List.cons_append, ← List.append_assoc] at same
      obtain ⟨rfl, single⟩ := List.append_inj' same rfl
      cases single
      rw [List.concat_eq_append, List.mem_append, List.mem_singleton] at inside
      cases inside with
      | inl old => exact Or.inl ⟨pre, post, rfl, r, old, asks⟩
      | inr new =>
        subst new
        by_cases seen : r ∈ post
        · exact Or.inl ⟨pre, post, rfl, r, seen, asks⟩
        · refine Or.inr ⟨by simp, ?_⟩
          cases asks with
          | inl obeyed => exact Or.inl obeyed
          | inr first =>
            by_cases unjupe : r = .unjupe
            · exact Or.inl (by rw [unjupe]; rfl)
            · exact Or.inr (by simp [first, unjupe, seen])
  · rintro (⟨pre, post, rfl, r, inside, asks⟩ | ⟨unjupe, asks⟩)
    · exact ⟨pre, post ++ [x], by simp, r, List.mem_append_left _ inside, asks⟩
    · obtain ⟨pre, post, rfl⟩ := List.append_of_mem unjupe
      refine ⟨pre, post ++ [x], by simp, x, by simp, ?_⟩
      cases asks with
      | inl obeyed => exact Or.inl obeyed
      | inr first => exact Or.inr fun inside => first (List.mem_append_left _ inside)

namespace ModeLoop

structure OperOutside (env : ModeEnv) : Prop where
  client : env.myClient = true
  connect : env.source.myConnect = true
  oper : env.source.isAnOper = true
  outside : env.tables.isMember env.sptr env.chan = false
  isok : env.isok = false

def sent (st : ModeLoop) : Report → Bool
  | .notOnChannel => st.errNotOnChannel
  | .noOps => st.errNoOps
  | .list kind => st.rplSent kind
  | .jupe => false
  | .unjupe => false

structure Reads (st : ModeLoop) (r : OperRead) : Prop where
  what : st.whatt = r.what
  parv : st.parv = r.parv
  keychange : st.keychange = r.keychange
  opcnt : st.opcnt = 0
  users : st.ch.users = 0
  lines : st.modeLine = [] ∧ st.newLine = [] ∧ st.newLine2 = []
  sent : ∀ x, x.obeyed = false → (st.sent x = true ↔ x ∈ r.reports)
  destroyed : st.destroyed = r.reports.count .unjupe
  dangling : st.dangling ≠ 0 ↔ ReportsFreed r.reports

structure Asks (st st' : ModeLoop) (x : Report) : Prop where
  opcnt : st'.opcnt = st.opcnt
  users : st.ch.users = 0 → st'.ch.users = 0
  lines : st'.modeLine = st.modeLine ∧ st'.newLine = st.newLine ∧ st'.newLine2 = st.newLine2
  sent : ∀ y, y.obeyed = false → st'.sent y = (st.sent y || decide (y = x))
  destroyed : st'.destroyed = st.destroyed + if x = .unjupe then 1 else 0
  dangling : st'.dangling =
    if st.destroyed ≠ 0 ∧ st.sent x = false then st.dangling + 1 else st.dangling

namespace Reads

variable {env : ModeEnv} {st st' : ModeLoop} {r r' : OperRead}

theorem report {x : Report} (h : Reads st r) (asks : Asks st st' x) (what : st'.whatt = r'.what)
    (parv : st'.parv = r'.parv) (keychange : st'.keychange = r'.keychange)
    (reports : r'.reports = r.reports) : Reads st' (r'.report x) := by
  refine ⟨what, parv, keychange, asks.opcnt.trans h.opcnt, asks.users h.users, ?_, fun y plain => ?_,
    ?_, ?_⟩
  · obtain ⟨modes, exceptions, invites⟩ := asks.lines
    rw [modes, exceptions, invites]
    exact h.lines
  · rw [asks.sent y plain, Bool.or_eq_true, decide_eq_true_eq, h.sent y plain]
    simp [OperRead.report, reports]
  · rw [asks.destroyed, h.destroyed]
    simp [OperRead.report, reports, List.count_append, List.count_singleton]
  · have gone : st.destroyed ≠ 0 ↔ .unjupe ∈ r.reports := by
      rw [h.destroyed, ne_eq, List.count_eq_zero, not_not]
    have first : st.sent x = false ↔ x.obeyed = true ∨ x ∉ r.reports := by
      cases obeyed : x.obeyed with
      | true =>
        cases x <;> cases obeyed <;> simp [ModeLoop.sent]
      | false =>
        rw [← Bool.not_eq_true, h.sent x obeyed]
        simp
    simp only [OperRead.report, reports]
    rw [reportsFreed_append, asks.dangling, ← gone, ← first]
    split
    · next used =>
      simp [used.1, used.2]
    · next unused =>
      rw [h.dangling]
      constructor
      · exact Or.inl
      · rintro (before | used)
        · exact before
        · exact absurd used unused

theorem silent (h : Reads st r) (ch : st'.ch = st.ch) (opcnt : st'.opcnt = st.opcnt)
    (lines : st'.modeLine = st.modeLine ∧ st'.newLine = st.newLine ∧ st'.newLine2 = st.newLine2)
    (sent : st'.sent = st.sent) (destroyed : st'.destroyed = st.destroyed)
    (dangling : st'.dangling = st.dangling) (what : st'.whatt = r'.what)
    (parv : st'.parv = r'.parv) (keychange : st'.keychange = r'.keychange)
    (reports : r'.reports = r.reports) : Reads st' r' := by
  refine ⟨what, parv, keychange, opcnt.trans h.opcnt, ch ▸ h.users, ?_, ?_, ?_, ?_⟩
  · obtain ⟨modes, exceptions, invites⟩ := lines
    rw [modes, exceptions, invites]
    exact h.lines
  · rw [sent, reports]
    exact h.sent
  · rw [destroyed, reports]
    exact h.destroyed
  · rw [dangling, reports]
    exact h.dangling

end Reads

section

variable {env : ModeEnv} {st : ModeLoop} {r : OperRead}

theorem touch_eq (st : ModeLoop) :
    st.touch = { st with
      dangling := if st.destroyed ≠ 0 then st.dangling + 1 else st.dangling } := by
  unfold touch
  split <;> rfl

theorem asks_first {st st' : ModeLoop} {x : Report} (plain : x.obeyed = false)
    (first : st.sent x = false) (opcnt : st'.opcnt = st.opcnt) (ch : st'.ch = st.ch)
    (lines : st'.modeLine = st.modeLine ∧ st'.newLine = st.newLine ∧ st'.newLine2 = st.newLine2)
    (sent : ∀ y, y.obeyed = false → st'.sent y = (st.sent y || decide (y = x)))
    (destroyed : st'.destroyed = st.destroyed)
    (dangling : st'.dangling = if st.destroyed ≠ 0 then st.dangling + 1 else st.dangling) :
    Asks st st' x := by
  have other : x ≠ .unjupe := by
    rintro rfl
    cases plain
  refine ⟨opcnt, fun users => ch ▸ users, lines, sent, ?_, ?_⟩
  · rw [destroyed, if_neg other]
    rfl
  · rw [dangling]
    simp [first]

theorem asks_again {st st' : ModeLoop} {x : Report} (plain : x.obeyed = false)
    (before : st.sent x = true) (opcnt : st'.opcnt = st.opcnt) (ch : st'.ch = st.ch)
    (lines : st'.modeLine = st.modeLine ∧ st'.newLine = st.newLine ∧ st'.newLine2 = st.newLine2)
    (sent : st'.sent = st.sent) (destroyed : st'.destroyed = st.destroyed)
    (dangling : st'.dangling = st.dangling) : Asks st st' x := by
  have other : x ≠ .unjupe := by
    rintro rfl
    cases plain
  refine ⟨opcnt, fun users => ch ▸ users, lines, fun y _ => ?_, ?_, ?_⟩
  · rw [sent]
    by_cases same : y = x
    · rw [same, before]
      simp
    · simp [same]
  · rw [destroyed, if_neg other]
    rfl
  · rw [dangling]
    simp [before]

theorem asks_noOps (out : OperOutside env) (st : ModeLoop) : Asks st (st.noOps env) .noOps := by
  unfold noOps
  cases before : st.errNoOps with
  | true =>
    rw [if_neg (by simp)]
    exact asks_again rfl before rfl rfl ⟨rfl, rfl, rfl⟩ rfl rfl rfl
  | false =>
    rw [if_pos (by simp [out.client]), touch_eq]
    refine asks_first rfl before rfl rfl ⟨rfl, rfl, rfl⟩ (fun y plain => ?_) rfl rfl
    cases y with
    | noOps => simp [sent]
    | notOnChannel => simp [sent, reply, emit]
    | list kind => cases kind <;> simp [sent, rplSent, reply, emit]
    | jupe => cases plain
    | unjupe => cases plain

theorem noOps_reads (env : ModeEnv) (st : ModeLoop) :
    (st.noOps env).whatt = st.whatt ∧ (st.noOps env).parv = st.parv ∧
      (st.noOps env).keychange = st.keychange := by
  unfold noOps touch
  split
  · split <;> exact ⟨rfl, rfl, rfl⟩
  · exact ⟨rfl, rfl, rfl⟩

theorem Reads.refused (h : Reads st r) (out : OperOutside env) :
    Reads (st.noOps env) (r.report .noOps) := by
  obtain ⟨what, parv, keychange⟩ := st.noOps_reads env
  exact h.report (asks_noOps out st) (what.trans h.what) (parv.trans h.parv)
    (keychange.trans h.keychange) rfl

theorem Reads.eat (h : Reads st r) : Reads st.eat r.eat := by
  refine h.silent rfl rfl ⟨rfl, rfl, rfl⟩ rfl rfl rfl h.what ?_ h.keychange rfl
  exact congrArg List.tail h.parv

theorem Reads.memberLetter (h : Reads st r) (out : OperOutside env) (letter : Char) :
    Reads (st.memberLetter env letter) (r.eat.report .notOnChannel) := by
  unfold ModeLoop.memberLetter
  rw [if_pos ⟨out.client, by simp [out.outside]⟩]
  cases before : st.errNotOnChannel with
  | true =>
    simp only [if_true]
    refine h.report (asks_again rfl before rfl rfl ⟨rfl, rfl, rfl⟩ rfl rfl rfl) ?_ ?_ ?_ rfl
    · exact h.what
    · exact congrArg List.tail h.parv
    · exact h.keychange
  | false =>
    simp only [Bool.false_eq_true, if_false]
    rw [touch_eq]
    refine h.report (asks_first rfl before rfl rfl ⟨rfl, rfl, rfl⟩ (fun y plain => ?_) rfl rfl)
      ?_ ?_ ?_ rfl
    · cases y with
      | notOnChannel => simp [ModeLoop.sent, ModeLoop.eat]
      | noOps => simp [ModeLoop.sent, reply, emit, ModeLoop.eat]
      | list kind => cases kind <;> simp [ModeLoop.sent, rplSent, reply, emit, ModeLoop.eat]
      | jupe => cases plain
      | unjupe => cases plain
    · exact h.what
    · exact congrArg List.tail h.parv
    · exact h.keychange

theorem Reads.key (h : Reads st r) (out : OperOutside env) (arg : CStr) :
    Reads (if st.keychange then st
      else
        let st := { st with keychange := true }
        if arg = [] then st
        else if !env.isok then st.noOps env
        else
          let arg := arg.take keyLen
          if !st.fits arg.length then st else st.changeKey env arg) (r.key arg) := by
  unfold OperRead.key
  rw [h.keychange]
  split
  · exact h
  · have noted : Reads { st with keychange := true } { r with keychange := true } :=
      h.silent rfl rfl ⟨rfl, rfl, rfl⟩ rfl rfl rfl h.what h.parv rfl rfl
    simp only
    split
    · exact noted
    · rw [if_pos (by simp [out.isok])]
      exact noted.refused out

theorem Reads.keyLetter (h : Reads st r) (out : OperOutside env) :
    Reads (st.keyLetter env) r.keyLetter := by
  unfold ModeLoop.keyLetter OperRead.keyLetter
  have what := h.what
  have parv := h.parv
  cases dir : r.what with
  | query =>
    rw [if_pos (what.trans dir)]
    exact h
  | add =>
    rw [if_neg (by simp [what, dir])]
    cases params : r.parv with
    | nil =>
      have taken : st.keyArgument env = none := by simp [keyArgument, parv, params, what, dir]
      simp only [taken]
      exact h
    | cons para rest =>
      have taken : st.keyArgument env = some (fixKey (checkString para), st.eat) := by
        simp [keyArgument, parv, params, what, dir, out.client]
      simp only [taken]
      exact h.eat.key out (fixKey (checkString para))
  | del =>
    rw [if_neg (by simp [what, dir])]
    cases params : r.parv with
    | nil =>
      have taken : st.keyArgument env = some (['*'], st) := by
        simp [keyArgument, parv, params, what, dir]
      simp only [taken]
      exact h.key out ['*']
    | cons para rest =>
      have taken : st.keyArgument env = some (checkString para, st.eat) := by
        simp [keyArgument, parv, params, what, dir]
      simp only [taken]
      exact h.eat.key out (checkString para)

theorem replies_same (env : ModeEnv) (kind : ListKind) (bans : List Ban) (st : ModeLoop) :
    ∃ out, bans.foldl (fun st ban => st.reply env env.cptr (listReply kind).1
      [st.ch.chname, ban.banstr, ban.who, formatTime ban.time]) st = { st with out := out } := by
  induction bans generalizing st with
  | nil => exact ⟨st.out, rfl⟩
  | cons ban bans ih =>
    obtain ⟨out, same⟩ := ih (st.reply env env.cptr (listReply kind).1
      [st.ch.chname, ban.banstr, ban.who, formatTime ban.time])
    exact ⟨out, same⟩

theorem Reads.showList (h : Reads st r) (out : OperOutside env) (kind : ListKind) :
    Reads (st.showList env kind) (r.report (.list kind)) := by
  unfold ModeLoop.showList
  cases before : st.rplSent kind with
  | true =>
    rw [if_pos (by simp)]
    exact h.report (asks_again rfl before rfl rfl ⟨rfl, rfl, rfl⟩ rfl rfl rfl) h.what h.parv
      h.keychange rfl
  | false =>
    rw [if_neg (by simp [out.client])]
    have sent : ∀ o : List Output, Reads { (st.setRplSent kind).touch with out := o }
        (r.report (.list kind)) := by
      intro o
      rw [touch_eq]
      refine h.report (asks_first rfl before ?_ ?_ ?_ (fun y plain => ?_) ?_ ?_) ?_ ?_ ?_ rfl
      · cases kind <;> rfl
      · cases kind <;> rfl
      · cases kind <;> exact ⟨rfl, rfl, rfl⟩
      · cases y with
        | notOnChannel => cases kind <;> simp [ModeLoop.sent, setRplSent]
        | noOps => cases kind <;> simp [ModeLoop.sent, setRplSent]
        | list kind' => cases kind <;> cases kind' <;> simp [ModeLoop.sent, setRplSent, rplSent]
        | jupe => cases plain
        | unjupe => cases plain
      · cases kind <;> rfl
      · cases kind <;> rfl
      · cases kind <;> exact h.what
      · cases kind <;> exact h.parv
      · cases kind <;> exact h.keychange
    simp only
    split
    · obtain ⟨o, same⟩ := replies_same env kind ((st.setRplSent kind).touch.ch.maskList kind)
        (st.setRplSent kind).touch
      rw [same]
      exact sent _
    · exact sent _

theorem Reads.maskLetter (h : Reads st r) (out : OperOutside env) (kind : ListKind) :
    Reads (st.maskLetter env kind) (r.maskLetter kind) := by
  unfold ModeLoop.maskLetter OperRead.maskLetter
  rw [h.what, h.parv]
  by_cases query : r.what = .query
  · rw [if_pos query, if_pos (Or.inl query)]
    exact h.showList out kind
  · rw [if_neg query]
    cases params : r.parv with
    | nil =>
      rw [if_pos (Or.inr rfl)]
      exact h.showList out kind
    | cons para rest =>
      rw [if_neg (by simp [query])]
      simp only
      have few : ¬ (env.myClient = true ∧ st.eat.opcnt ≥ maxModeParams) := by
        have none : st.eat.opcnt = 0 := h.opcnt
        rw [none]
        simp [maxModeParams]
      rw [if_neg few, if_pos (by simp [out.isok])]
      exact h.eat.refused out

theorem Reads.limitLetter (h : Reads st r) (out : OperOutside env) :
    Reads (st.limitLetter env) (if r.what = .add then r.eat else r) := by
  unfold ModeLoop.limitLetter
  rw [h.what]
  by_cases query : r.what = .query
  · rw [if_pos query, if_neg (by simp [query])]
    exact h
  · rw [if_neg query, if_pos (by simp [out.isok])]
    split
    · exact h.eat
    · exact h

theorem Reads.jupeLetter (h : Reads st r) (out : OperOutside env) :
    Reads (st.jupeLetter env) (r.letter 'j') := by
  have always : ∀ (st : ModeLoop) (y : Report), y.obeyed = false → ∀ x : Report, x.obeyed = true →
      st.sent y = (st.sent y || decide (y = x)) := by
    intro st y plain x obeyed
    have other : y ≠ x := by
      rintro rfl
      rw [plain] at obeyed
      cases obeyed
    simp [other]
  unfold ModeLoop.jupeLetter
  have letter : r.letter 'j' = match r.what with
      | .add => r.report .jupe
      | .del => r.report .unjupe
      | .query => r := rfl
  rw [letter, ← h.what]
  simp only
  rw [if_pos ⟨out.connect, out.oper⟩]
  cases dir : st.whatt with
  | query => exact h
  | add =>
    simp only [touch_eq]
    refine h.report ⟨rfl, id, ⟨rfl, rfl, rfl⟩, fun y plain => ?_, ?_, ?_⟩ h.what h.parv
      h.keychange rfl
    · exact always st y plain _ rfl
    · simp [emit]
    · simp [ModeLoop.sent, emit]
  | del =>
    simp only [touch_eq, emit]
    rw [if_pos h.users, sub1]
    simp only
    rw [if_pos (by rw [h.users]; decide)]
    refine h.report ⟨rfl, fun _ => rfl, ⟨rfl, rfl, rfl⟩, fun y plain => ?_, ?_, ?_⟩
      h.what h.parv h.keychange rfl
    · exact always st y plain _ rfl
    · simp
    · simp [ModeLoop.sent, dropInvites]

theorem Reads.unknownLetter (h : Reads st r) (env : ModeEnv) (c : Char) :
    Reads (st.unknownLetter env c) r := by
  unfold ModeLoop.unknownLetter
  split
  · exact h
  · split
    · exact h.silent rfl rfl ⟨rfl, rfl, rfl⟩ rfl rfl rfl h.what h.parv h.keychange rfl
    · exact h

theorem Reads.flagLetter (h : Reads st r) (out : OperOutside env) (f : ModeFlag) (letter : Char) :
    Reads (st.flagLetter env f letter) (r.report .noOps) := by
  unfold ModeLoop.flagLetter
  rw [if_pos (by simp [out.isok])]
  exact h.refused out

theorem Reads.letter (h : Reads st r) (out : OperOutside env) (c : Char) :
    Reads (st.letter env c) (r.letter c) := by
  unfold ModeLoop.letter
  split
  · exact h.silent rfl rfl ⟨rfl, rfl, rfl⟩ rfl rfl rfl rfl h.parv h.keychange rfl
  · exact h.silent rfl rfl ⟨rfl, rfl, rfl⟩ rfl rfl rfl rfl h.parv h.keychange rfl
  · exact h.silent rfl rfl ⟨rfl, rfl, rfl⟩ rfl rfl rfl rfl h.parv h.keychange rfl
  · exact h.memberLetter out 'o'
  · exact h.memberLetter out 'v'
  · exact h.keyLetter out
  · exact h.maskLetter out .exception
  · exact h.maskLetter out .invex
  · exact h.maskLetter out .ban
  · exact h.limitLetter out
  · unfold ModeLoop.inviteLetter
    have letter : r.letter 'i' = if r.what = .query then r else r.report .noOps := rfl
    rw [letter, ← h.what]
    split
    · exact h
    · exact h.flagLetter out .modeInviteOnly 'i'
  · exact h.jupeLetter out
  · exact h.flagLetter out .modeModerated 'm'
  · exact h.flagLetter out .modeNoPrivMsgs 'n'
  · exact h.flagLetter out .modePrivate 'p'
  · exact h.flagLetter out .modeSecret 's'
  · exact h.flagLetter out .modeTopicLimit 't'
  · have unread : r.letter c = r := by
      unfold OperRead.letter
      split <;> first | rfl | simp_all
    rw [unread]
    exact h.unknownLetter env c

theorem Reads.letters (h : Reads st r) (out : OperOutside env) (curr : CStr) :
    Reads (st.letters env curr) (r.letters curr) := by
  unfold ModeLoop.letters OperRead.letters
  induction curr generalizing st r with
  | nil => exact h
  | cons c curr ih => exact ih (h.letter out c)

theorem Reads.strings (h : Reads st r) (out : OperOutside env) (n : Nat) :
    Reads (ModeLoop.strings env n st) (OperRead.strings n r) := by
  induction n generalizing st r with
  | zero => exact h
  | succ n ih =>
    unfold ModeLoop.strings OperRead.strings
    rw [h.parv]
    cases params : r.parv with
    | nil => exact h
    | cons curr rest => exact ih (h.eat.letters out curr)

theorem Reads.start (ch : Channel) (empty : ch.users = 0) (parv : List CStr) :
    Reads (modeStart ch parv) { what := .add, parv := parv, keychange := false, reports := [] } := by
  refine ⟨rfl, rfl, rfl, rfl, empty, ⟨rfl, rfl, rfl⟩, fun x plain => ?_, rfl, ?_⟩
  · cases x with
    | list kind => cases kind <;> simp [ModeLoop.sent, rplSent, modeStart]
    | _ => simp [ModeLoop.sent, modeStart]
  · constructor
    · intro absurdity
      exact absurd rfl absurdity
    · rintro ⟨pre, post, same, -⟩
      cases pre <;> cases same

theorem modeRun_reads (out : OperOutside env) (empty : (env.tables.chan env.chan).users = 0)
    (parv : List CStr) :
    (modeRun env parv).destroyed = (operReports parv).count .unjupe ∧
      ((modeRun env parv).dangling ≠ 0 ↔ ReportsFreed (operReports parv)) := by
  have reads := (Reads.start _ empty parv).strings out parv.length
  have nothing : modeRun env parv =
      ModeLoop.strings env parv.length (modeStart (env.tables.chan env.chan) parv) := by
    obtain ⟨modes, exceptions, invites⟩ := reads.lines
    unfold modeRun
    simp [sendLines, sendCapLine, modes, exceptions, invites, ModeLine.modebuf, collapseSigns,
      collapseSignsFrom]
  rw [nothing]
  exact ⟨reads.destroyed, reads.dangling⟩

end

theorem destroyed_of_not_oper {env : ModeEnv}
    (other : ¬ (env.source.myConnect = true ∧ env.source.isAnOper = true)) (parv : List CStr) :
    (modeRun env parv).destroyed = 0 := by
  have letter : ∀ (st : ModeLoop) (c : Char), st.destroyed = 0 → (st.letter env c).destroyed = 0 := by
    intro st c none
    by_cases jupe : c = 'j'
    · subst jupe
      show (st.jupeLetter env).destroyed = 0
      unfold jupeLetter
      simp only
      rw [if_neg other]
      exact none
    · exact (Quiet.letter env st jupe).destroyed.trans none
  have letters : ∀ (curr : CStr) (st : ModeLoop), st.destroyed = 0 →
      (st.letters env curr).destroyed = 0 := by
    intro curr
    unfold ModeLoop.letters
    induction curr with
    | nil => exact fun _ none => none
    | cons c curr ih => exact fun st none => ih _ (letter st c none)
  have strings : ∀ (n : Nat) (st : ModeLoop), st.destroyed = 0 →
      (ModeLoop.strings env n st).destroyed = 0 := by
    intro n
    induction n with
    | zero => exact fun _ none => none
    | succ n ih =>
      intro st none
      unfold ModeLoop.strings
      split
      · exact none
      · exact ih _ (letters _ st.eat none)
  exact (Quiet.sendLines env _).destroyed.trans (strings _ _ rfl)

theorem destroyed_of_members {env : ModeEnv} (members : (env.tables.chan env.chan).users ≠ 0)
    (parv : List CStr) : (modeRun env parv).destroyed = 0 := by
  have kept := Kept.modeRun env parv
  by_contra gone
  exact members (kept.emptied gone)

end ModeLoop

end Ircd
