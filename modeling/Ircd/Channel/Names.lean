import Ircd.Channel.Lifetime
import Ircd.Channel.LocalView
import Ircd.Lib.Packing
import Ircd.Server.Network
import Mathlib.Algebra.Order.BigOperators.Group.List

/-! `m_names`: the members of a channel in as many `RPL_NAMREPLY` lines as they take.

The loop keeps the length of its buffer in `idx` and starts a new line when another nick may
not fit; `sendto_one` cuts what is longer than 510 characters.
-/

set_option autoImplicit false

namespace Ircd

inductive InfoNumeric where
  | rplAway
  | rplLoad2Hi
  | rplWhoIsUser
  | rplWhoIsServer
  | rplWhoIsOperator
  | rplEndOfWho
  | rplWhoIsIdle
  | rplEndOfWhoIs
  | rplWhoIsChannels
  | rplListStart
  | rplList
  | rplListEnd
  | rplNoTopic
  | rplTopic
  | rplTopicWhoTime
  | rplWhoReply
  | rplNamReply
  | rplEndOfNames
  | errNoSuchNick
  | errNoSuchChannel
  | errTooManyTargets
  | errNoNicknameGiven
  | errNotOnChannel
  | errNeedMoreParams
  | errBadChanName
  | errChanOPrivsNeeded
  | errNoSuchServer
  /-- `":%s TOPIC %s :%s"` -/
  | topicLine
  deriving DecidableEq, Repr

structure InfoReply where
  num : InfoNumeric
  args : List CStr
  deriving DecidableEq, Repr

/-- The longest line that `vsendto_one` leaves as it is. -/
def lineMax : Nat := 510

namespace Tables

def pubChannel (t : Tables) (c : ChanId) : Bool :=
  !(t.chan c).mode.mode .modePrivate && !(t.chan c).mode.mode .modeSecret

def secretChannel (t : Tables) (c : ChanId) : Bool := (t.chan c).mode.mode .modeSecret

def hiddenChannel (t : Tables) (c : ChanId) : Bool := (t.chan c).mode.mode .modePrivate

def showChannel (t : Tables) (v : ClientId) (c : ChanId) : Bool :=
  t.pubChannel c || t.isMember v c

end Tables

namespace Network

def isInvisible (n : Network) (u : ClientId) : Bool := (n.peer u).umodes .invisible

def namesMlen (n : Network) : Nat := n.meName.length + nickLen + 7

/-- The start of the buffer, with the length that `idx` has there. -/
def namesHead (n : Network) (c : ChanId) : CStr :=
  let sign := if n.pubChannel c then '=' else if n.secretChannel c then '@' else '*'
  sign :: ' ' :: (n.chan c).chname ++ [' ', ':']

def memberMark (flags : MemberFlags) : CStr :=
  if flags.chanop then ['@'] else if flags.voice then ['+'] else []

/-- The variables of the loop over the members; `out` are the buffers that were sent. -/
structure NamesLoop where
  buf : CStr
  idx : Nat
  flag : Bool
  out : List CStr

/-- A nick behind its mark, and the line if it is full; `head` is the start of each line. -/
def addName (mlen : Nat) (head mark name : CStr) (st : NamesLoop) : NamesLoop :=
  let buf := st.buf ++ mark ++ name.take nickLen ++ [' ']
  let idx := st.idx + mark.length + (name.length + 1)
  if bufSize - 3 < mlen + idx + nickLen then
    { buf := head, idx := head.length, flag := false, out := st.out ++ [buf] }
  else { st with buf := buf, idx := idx, flag := true }

def namesMember (n : Network) (sptr : ClientId) (c : ChanId) (st : NamesLoop) (lp : Member) :
    NamesLoop :=
  if n.isInvisible lp.cptr && !n.isMember sptr c then st
  else addName n.namesMlen (n.namesHead c) (memberMark lp.flags) (n.nameOf lp.cptr) st

def NamesLoop.bufs (st : NamesLoop) : List CStr := if st.flag then st.out ++ [st.buf] else st.out

def namReply (n : Network) (sptr : ClientId) (buf : CStr) : InfoReply :=
  { num := .rplNamReply, args := [n.meName, n.nameOf sptr, buf] }

def channelNames (n : Network) (sptr : ClientId) (c : ChanId) : List InfoReply :=
  let head := n.namesHead c
  let st := (n.chan c).members.foldl (n.namesMember sptr c)
    { buf := head, idx := head.length, flag := true, out := [] }
  st.bufs.map (n.namReply sptr)

def sweeps (n : Network) (sptr c2ptr : ClientId) : Bool :=
  let cl := n.client c2ptr
  cl.isPerson && !n.isInvisible c2ptr &&
    !(cl.channel.any fun c => n.pubChannel c || n.isMember sptr c) &&
    !(cl.channel.any n.secretChannel)

def sweptNames (n : Network) (sptr : ClientId) : List InfoReply :=
  let head := lit "* * :"
  let st := (n.globalClientList.filter (n.sweeps sptr)).foldl
    (fun st c2ptr => addName n.namesMlen head [] (n.nameOf c2ptr) st)
    { buf := head, idx := head.length, flag := false, out := [] }
  st.bufs.map (n.namReply sptr)

/-- `m_names`; `para` is `parv[1]`, and `parv[0]` is the nick of the sender. -/
def mNames (n : Network) (sptr : ClientId) (para : Option CStr) : List InfoReply :=
  let reply (num : InfoNumeric) (args : List CStr) : InfoReply :=
    { num := num, args := n.meName :: n.nameOf sptr :: args }
  if !(n.client sptr).myConnect then []
  else
    let given := para.getD []
    if 1 < given.count ',' then [reply .errTooManyTargets [lit "NAMES", lit "1"]]
    else
      let name := given.takeWhile (· != ',')
      if !checkChannelName name then [reply .errBadChanName [name]]
      else if name = [] then
        -- all the channels, and then everybody else
        (n.channel.filter (n.showChannel sptr)).flatMap (n.channelNames sptr) ++
          n.sweptNames sptr ++ [reply .rplEndOfNames [lit "*"]]
      else
        (n.channel.filter fun c =>
          some c == n.hashFindChannel name && n.showChannel sptr c).flatMap (n.channelNames sptr) ++
          [reply .rplEndOfNames [name]]

def joinNames (names : List CStr) : CStr := names.flatMap (· ++ [' '])

@[simp] theorem joinNames_append (names names' : List CStr) :
    joinNames (names ++ names') = joinNames names ++ joinNames names' := List.flatMap_append

@[simp] theorem joinNames_singleton (name : CStr) : joinNames [name] = name ++ [' '] :=
  List.append_nil _

def namesFull (mlen : Nat) (head : CStr) (names : List CStr) : Bool :=
  decide (bufSize - 3 < mlen + (head ++ joinNames names).length + nickLen)

structure NamesLoop.Packs (head : CStr) (st : NamesLoop) (p : Packing CStr) : Prop where
  buf : st.buf = head ++ joinNames p.current
  idx : st.idx = st.buf.length
  flag : st.flag = false → p.current = []
  out : st.out = p.closed.map fun names => head ++ joinNames names

theorem addName_packs {mlen : Nat} {head mark name : CStr} {st : NamesLoop} {p : Packing CStr}
    (h : st.Packs head p) (short : name.length ≤ nickLen) :
    (addName mlen head mark name st).Packs head (p.add (namesFull mlen head) (mark ++ name)) := by
  have buf : st.buf ++ mark ++ name.take nickLen ++ [' '] =
      head ++ joinNames (p.current ++ [mark ++ name]) := by
    rw [h.buf, List.take_of_length_le short, joinNames_append, joinNames_singleton]
    simp only [List.append_assoc]
  have idx : st.idx + mark.length + (name.length + 1) =
      (head ++ joinNames (p.current ++ [mark ++ name])).length := by
    rw [h.idx, h.buf, joinNames_append, joinNames_singleton]
    simp only [List.length_append, List.length_singleton]
    omega
  unfold addName Packing.add namesFull
  dsimp only
  rw [buf, idx]
  by_cases full : bufSize - 3 < mlen + (head ++ joinNames (p.current ++ [mark ++ name])).length +
      nickLen
  · rw [if_pos full, if_pos (decide_eq_true full)]
    constructor
    · exact (List.append_nil head).symm
    · rfl
    · exact fun _ => rfl
    · rw [List.map_append, h.out]
      rfl
  · rw [if_neg full, if_neg (by simpa using full)]
    exact ⟨rfl, rfl, nofun, h.out⟩

theorem NamesLoop.Packs.bufs {head : CStr} {st : NamesLoop} {p : Packing CStr}
    (h : st.Packs head p) :
    ∃ rest, (rest = [] ∧ p.current = [] ∨ rest = [p.current]) ∧
      st.bufs = (p.closed ++ rest).map fun names => head ++ joinNames names := by
  unfold NamesLoop.bufs
  split
  · exact ⟨[p.current], .inr rfl, by rw [h.out, h.buf, List.map_append]; rfl⟩
  · next unset =>
    have none := h.flag (Bool.eq_false_iff.2 unset)
    exact ⟨[], .inl ⟨rfl, none⟩, by rw [h.out, List.append_nil]⟩

variable (n : Network)

def maySee (sptr : ClientId) (c : ChanId) : List Member :=
  (n.chan c).members.filter fun lp => n.isMember sptr c || !n.isInvisible lp.cptr

def nameEntry (lp : Member) : CStr := memberMark lp.flags ++ n.nameOf lp.cptr

theorem namesLoop_packs {sptr : ClientId} {c : ChanId} (members : List Member)
    (short : ∀ lp ∈ members, (n.nameOf lp.cptr).length ≤ nickLen) {st : NamesLoop}
    {p : Packing CStr} (h : st.Packs (n.namesHead c) p) :
    (members.foldl (n.namesMember sptr c) st).Packs (n.namesHead c)
      (((members.filter fun lp => n.isMember sptr c || !n.isInvisible lp.cptr).map
        n.nameEntry).foldl (Packing.add (namesFull n.namesMlen (n.namesHead c))) p) := by
  induction members generalizing st p with
  | nil => exact h
  | cons lp members ih =>
    have rest : ∀ lp ∈ members, (n.nameOf lp.cptr).length ≤ nickLen := fun lp' inside =>
      short lp' (List.mem_cons_of_mem lp inside)
    rw [List.foldl_cons, List.filter_cons]
    cases hidden : n.isInvisible lp.cptr && !n.isMember sptr c with
    | true =>
      have unseen : (n.isMember sptr c || !n.isInvisible lp.cptr) = false := by
        rw [Bool.and_eq_true, Bool.not_eq_true'] at hidden
        rw [hidden.1, hidden.2]
        rfl
      rw [namesMember, if_pos hidden, unseen]
      exact ih rest h
    | false =>
      have seen : (n.isMember sptr c || !n.isInvisible lp.cptr) = true := by
        cases isMember : n.isMember sptr c <;> cases isInvisible : n.isInvisible lp.cptr <;>
          simp_all
      rw [namesMember, if_neg (by simp [hidden]), seen, if_pos rfl, List.map_cons, List.foldl_cons]
      exact ih rest (addName_packs h (short lp List.mem_cons_self))

def Tight (full : List CStr → Bool) (names : List CStr) : Prop :=
  names = [] ∨ full names = false ∨
    ∃ front last, names = front ++ [last] ∧ (front = [] ∨ full front = false)

theorem channelNames_packs (sptr : ClientId) (c : ChanId)
    (short : ∀ lp ∈ (n.chan c).members, (n.nameOf lp.cptr).length ≤ nickLen) :
    ∃ groups : List (List CStr), groups.flatten = (n.maySee sptr c).map n.nameEntry ∧
      n.channelNames sptr c =
        groups.map (fun names => n.namReply sptr (n.namesHead c ++ joinNames names)) ∧
      ∀ names ∈ groups, Tight (namesFull n.namesMlen (n.namesHead c)) names := by
  let full := namesFull n.namesMlen (n.namesHead c)
  let p := ((n.maySee sptr c).map n.nameEntry).foldl (Packing.add full) .empty
  have packs : ((n.chan c).members.foldl (n.namesMember sptr c)
      { buf := n.namesHead c, idx := (n.namesHead c).length, flag := true, out := [] }).Packs
      (n.namesHead c) p :=
    n.namesLoop_packs _ short ⟨(List.append_nil _).symm, rfl, fun _ => rfl, rfl⟩
  have items : p.items = (n.maySee sptr c).map n.nameEntry := Packing.items_addAll full _ .empty
  have tight : p.Tight full := Packing.Tight.addAll _ .empty
  obtain ⟨rest, last, bufs⟩ := packs.bufs
  refine ⟨p.closed ++ rest, ?_, ?_, ?_⟩
  · rw [← items, Packing.items, List.flatten_append]
    rcases last with ⟨rfl, none⟩ | rfl
    · rw [none]
      rfl
    · simp
  · rw [channelNames, bufs, List.map_map]
    rfl
  · intro names inside
    rcases List.mem_append.1 inside with closed | current
    · exact .inr (.inr (tight.closed names closed))
    · rcases last with ⟨rfl, -⟩ | rfl
      · cases current
      · rw [List.mem_singleton.1 current]
        rcases tight.current with none | room
        · exact .inl none
        · exact .inr (.inl room)

/-- A line up to its names, as `RPL_NAMREPLY` has it. -/
def namesHeader (sptr : ClientId) (c : ChanId) : CStr :=
  ':' :: n.meName ++ lit " 353 " ++ n.nameOf sptr ++ ' ' :: n.namesHead c

def readNames (header : CStr) (r : InfoReply) : List CStr :=
  match r.num, r.args with
  | .rplNamReply, [me, nick, buf] =>
    let line := (':' :: me ++ lit " 353 " ++ nick ++ ' ' :: buf).take lineMax
    if header.isPrefixOf line then words (line.drop header.length) else []
  | _, _ => []

end Network

def ink (s : CStr) : Nat := s.countP fun c => !isBlank c

theorem ink_append (s t : CStr) : ink (s ++ t) = ink s + ink t := List.countP_append

theorem tokensFrom_ink (current s : CStr) (h : isBlankFree current) :
    ((tokensFrom isBlank current s).map List.length).sum = current.length + ink s := by
  induction s generalizing current with
  | nil =>
    rw [tokensFrom]
    split
    · next none => simp [none, ink]
    · simp [ink]
  | cons c s ih =>
    rw [tokensFrom]
    cases blank : isBlank c with
    | true =>
      have same : ink (c :: s) = ink s := by simp [ink, blank]
      have rest := ih [] fun _ no => by cases no
      rw [if_pos rfl, same]
      split
      · next none =>
        rw [rest, none]
      · rw [List.map_cons, List.sum_cons, rest, List.length_reverse, List.length_nil, Nat.zero_add]
    | false =>
      have more : ink (c :: s) = ink s + 1 := by simp [ink, blank]
      rw [if_neg (by decide), ih (c :: current) fun d inside => by
        rcases List.mem_cons.1 inside with rfl | old
        · exact blank
        · exact h d old]
      rw [List.length_cons, more]
      omega

theorem words_ink (s : CStr) : ((words s).map List.length).sum = ink s := by
  have none : isBlankFree [] := fun _ no => by cases no
  rw [words, tokens, tokensFrom_ink [] s none, List.length_nil, Nat.zero_add]

theorem ink_joinNames {names : List CStr} (h : ∀ name ∈ names, IsWord name) :
    ink (Network.joinNames names) = (names.map List.length).sum := by
  rw [← words_ink, Network.joinNames, words_flatMap h]

theorem ink_take_le (s : CStr) (k : Nat) : ink (s.take k) ≤ ink s :=
  (List.take_sublist k s).countP_le

theorem words_joinNames_last {front : List CStr} {last : CStr}
    (h : ∀ name ∈ front, IsWord name) (word : IsWord last) :
    words (Network.joinNames front ++ last) = front ++ [last] := by
  induction front with
  | nil => exact words_of_isWord word
  | cons name front ih =>
    have rest := ih fun other inside => h other (List.mem_cons_of_mem name inside)
    have first : Network.joinNames (name :: front) ++ last =
        name ++ ' ' :: (Network.joinNames front ++ last) := by
      simp [Network.joinNames]
    rw [first, words_cons (h name List.mem_cons_self), rest, List.cons_append]

theorem words_take {names : List CStr} (h : ∀ name ∈ names, IsWord name) {k : Nat}
    (fits : (Network.joinNames names).length ≤ k + 1) :
    words ((Network.joinNames names).take k) = names := by
  rcases List.eq_nil_or_concat' names with rfl | ⟨front, last, rfl⟩
  · rw [Network.joinNames, List.flatMap_nil, List.take_nil]
    rfl
  · rcases Nat.lt_or_eq_of_le fits with room | cut
    · rw [List.take_of_length_le (Nat.le_of_lt_succ room)]
      exact words_flatMap h
    · rw [Network.joinNames_append, Network.joinNames_singleton, ← List.append_assoc] at cut ⊢
      rw [List.length_append, List.length_singleton] at cut
      rw [← Nat.succ.inj cut, List.take_left]
      exact words_joinNames_last (fun name inside => h name (List.mem_append_left _ inside))
        (h last (List.mem_append_right _ (List.mem_singleton_self last)))

theorem ink_take_lt {names : List CStr} (h : ∀ name ∈ names, IsWord name) (some_ : names ≠ [])
    {k : Nat} (long : k + 1 < (Network.joinNames names).length) :
    ink ((Network.joinNames names).take k) < ink (Network.joinNames names) := by
  rcases List.eq_nil_or_concat' names with none | ⟨front, last, rfl⟩
  · exact absurd none some_
  have word := h last (List.mem_append_right _ (List.mem_singleton_self last))
  rcases List.eq_nil_or_concat' last with none | ⟨start, c, rfl⟩
  · exact absurd none word.1
  have inked : isBlank c = false :=
    word.2 c (List.mem_append_right _ (List.mem_singleton_self c))
  -- the last character that is no blank stands behind the cut
  have split : Network.joinNames (front ++ [start ++ [c]]) =
      (Network.joinNames front ++ start) ++ [c, ' '] := by
    rw [Network.joinNames_append, Network.joinNames_singleton]
    simp
  rw [split, List.length_append] at long
  have before : k ≤ (Network.joinNames front ++ start).length := by
    simp only [List.length_cons, List.length_nil] at long
    omega
  have one : ink [c, ' '] = 1 := by
    have blank : isBlank ' ' = true := rfl
    simp [ink, inked, blank]
  rw [split, List.take_append_of_le_length before, ink_append, one]
  exact Nat.lt_succ_of_le (ink_take_le _ k)

namespace Network

variable (n : Network) {sptr : ClientId} {c d : ChanId}

theorem readNames_namReply (header buf : CStr) : readNames header (n.namReply sptr buf) =
    if header.isPrefixOf
      ((':' :: n.meName ++ lit " 353 " ++ n.nameOf sptr ++ ' ' :: buf).take lineMax) then
      words (((':' :: n.meName ++ lit " 353 " ++ n.nameOf sptr ++ ' ' :: buf).take lineMax).drop
        header.length)
    else [] := rfl

theorem readNames_own (names : List CStr) :
    readNames (n.namesHeader sptr c) (n.namReply sptr (n.namesHead c ++ joinNames names)) =
      if (n.namesHeader sptr c).length ≤ lineMax then
        words ((joinNames names).take (lineMax - (n.namesHeader sptr c).length))
      else [] := by
  have whole : ':' :: n.meName ++ lit " 353 " ++ n.nameOf sptr ++
      ' ' :: (n.namesHead c ++ joinNames names) = n.namesHeader sptr c ++ joinNames names := by
    simp [namesHeader]
  rw [readNames_namReply, whole]
  generalize n.namesHeader sptr c = header
  by_cases room : header.length ≤ lineMax
  · have cut : (header ++ joinNames names).take lineMax =
        header ++ (joinNames names).take (lineMax - header.length) := by
      rw [List.take_append, List.take_of_length_le room]
    rw [if_pos room, cut, if_pos (List.isPrefixOf_iff_prefix.2 (List.prefix_append _ _)),
      List.drop_left]
  · have longer : ¬header <+: (header ++ joinNames names).take lineMax := by
      intro inside
      have short := inside.length_le
      rw [List.length_take] at short
      omega
    rw [if_neg room, if_neg fun inside => longer (List.isPrefixOf_iff_prefix.1 inside)]

theorem readNames_start (sign sign' : Char) {name name' : CStr} (rest : CStr)
    (free : isBlankFree name) (free' : isBlankFree name') (apart : name ≠ name') (start : CStr)
    (k : Nat) :
    ¬(start ++ sign :: ' ' :: name ++ [' ', ':']) <+:
      (start ++ sign' :: ' ' :: name' ++ ' ' :: rest).take k := by
  have word : ∀ {s t : CStr}, isBlankFree s →
      (s ++ ' ' :: t).takeWhile (fun c => !isBlank c) = s := by
    intro s t blankFree
    rw [List.takeWhile_append_of_pos fun c inside => by rw [blankFree c inside]; rfl]
    simp [isBlank]
  intro inside
  have inside := inside.trans (List.take_prefix k _)
  rw [List.append_assoc, List.append_assoc, List.prefix_append_right_inj] at inside
  obtain ⟨t, same⟩ := inside
  have same : name ++ ' ' :: (':' :: t) = name' ++ ' ' :: rest := by
    have tails := (List.cons.inj (List.cons.inj same).2).2
    simpa using tails
  have names := congrArg (List.takeWhile fun c => !isBlank c) same
  rw [word free, word free'] at names
  exact apart names

/-- What keeps the replies apart: no two channels share a name, and names and nicks are
words; a nick is no longer than `NICKLEN`. -/
structure WellNamed : Prop where
  channels : (n.channel.map fun c => (n.chan c).chname).Nodup
  plain : ∀ c ∈ n.channel, isBlankFree (n.chan c).chname ∧ (n.chan c).chname ≠ ['*']
  nicks : ∀ c ∈ n.channel, ∀ lp ∈ (n.chan c).members,
    IsWord (n.nameOf lp.cptr) ∧ (n.nameOf lp.cptr).length ≤ nickLen

variable {n}

theorem WellNamed.readNames_other (h : n.WellNamed) (here : c ∈ n.channel)
    (here' : d ∈ n.channel) (other : d ≠ c) (rest : CStr) :
    readNames (n.namesHeader sptr c) (n.namReply sptr (n.namesHead d ++ rest)) = [] := by
  have apart : (n.chan c).chname ≠ (n.chan d).chname := fun same =>
    other (List.inj_on_of_nodup_map h.channels here' here same.symm)
  have start := readNames_start
    (if n.pubChannel c then '=' else if n.secretChannel c then '@' else '*')
    (if n.pubChannel d then '=' else if n.secretChannel d then '@' else '*')
    (':' :: rest) (h.plain c here).1 (h.plain d here').1 apart
    (':' :: n.meName ++ lit " 353 " ++ n.nameOf sptr ++ [' ']) lineMax
  rw [readNames_namReply, if_neg]
  rw [List.isPrefixOf_iff_prefix]
  simpa [namesHeader, namesHead] using start

theorem WellNamed.readNames_swept (h : n.WellNamed) (here : c ∈ n.channel) (rest : CStr) :
    readNames (n.namesHeader sptr c) (n.namReply sptr (lit "* * :" ++ rest)) = [] := by
  have start := readNames_start
    (if n.pubChannel c then '=' else if n.secretChannel c then '@' else '*') '*' (':' :: rest)
    (h.plain c here).1 (by decide) (h.plain c here).2
    (':' :: n.meName ++ lit " 353 " ++ n.nameOf sptr ++ [' ']) lineMax
  rw [readNames_namReply, if_neg]
  rw [List.isPrefixOf_iff_prefix]
  simpa [namesHeader, namesHead, lit] using start

theorem nameEntry_isWord {lp : Member} (word : IsWord (n.nameOf lp.cptr)) :
    IsWord (n.nameEntry lp) := by
  have mark : isBlankFree (memberMark lp.flags) := by
    unfold memberMark
    split
    · decide
    · split
      · decide
      · decide
  refine ⟨fun none => word.1 (List.append_eq_nil_iff.1 none).2, isBlankFree_append mark word.2⟩

def namesWidth (names : List CStr) : Nat := (names.map List.length).sum

theorem namesWidth_flatten (groups : List (List CStr)) :
    namesWidth groups.flatten = (groups.map namesWidth).sum := by
  rw [namesWidth, List.map_flatten, List.sum_flatten, List.map_map]
  rfl

theorem length_lt_joinNames {name : CStr} {names : List CStr} (inside : name ∈ names) :
    name.length < (joinNames names).length := by
  have piece := (List.sublist_flatten_of_mem
    (List.mem_map_of_mem (f := (· ++ [' '])) inside)).length_le
  rw [List.length_append, List.length_singleton] at piece
  rwa [joinNames, List.flatMap_def]

section Own

variable {names : List CStr} (wordy : ∀ name ∈ names, IsWord name)

include wordy in
theorem readNames_whole (fits : names ≠ [] →
      (n.namesHeader sptr c).length + (joinNames names).length ≤ lineMax + 1) :
    readNames (n.namesHeader sptr c) (n.namReply sptr (n.namesHead c ++ joinNames names)) =
      names := by
  rw [readNames_own]
  rcases eq_or_ne names [] with rfl | some_
  · rw [joinNames, List.flatMap_nil, List.take_nil]
    split
    · rfl
    · rfl
  · have fits := fits some_
    obtain ⟨name, inside⟩ := List.exists_mem_of_ne_nil names some_
    have long := length_lt_joinNames inside
    rw [if_pos (by omega)]
    exact words_take wordy (by omega)

include wordy in
theorem readNames_le :
    namesWidth (readNames (n.namesHeader sptr c)
      (n.namReply sptr (n.namesHead c ++ joinNames names))) ≤ namesWidth names := by
  rw [readNames_own]
  split
  · rw [namesWidth, words_ink, namesWidth, ← ink_joinNames wordy]
    exact ink_take_le _ _
  · exact Nat.zero_le _

include wordy in
theorem readNames_lt (some_ : names ≠ [])
    (long : lineMax + 1 < (n.namesHeader sptr c).length + (joinNames names).length) :
    namesWidth (readNames (n.namesHeader sptr c)
      (n.namReply sptr (n.namesHead c ++ joinNames names))) < namesWidth names := by
  rw [readNames_own]
  split
  · rw [namesWidth, words_ink, namesWidth, ← ink_joinNames wordy]
    exact ink_take_lt wordy some_ (by omega)
  · obtain ⟨name, inside⟩ := List.exists_mem_of_ne_nil names some_
    have letters := List.length_pos_iff.2 (wordy name inside).1
    have two := length_lt_joinNames inside
    have inked := ink_take_lt wordy some_ (k := 0) (by omega)
    rw [ink_joinNames wordy] at inked
    exact Nat.zero_lt_of_lt inked

end Own

/-- The names read off the lines are all that were put into them exactly where each line, its
last blank apart, is not longer than it may be. -/
theorem readNames_groups {groups : List (List CStr)}
    (wordy : ∀ names ∈ groups, ∀ name ∈ names, IsWord name) :
    ((groups.map fun names => n.namReply sptr (n.namesHead c ++ joinNames names)).flatMap
      (readNames (n.namesHeader sptr c)) = groups.flatten) ↔
      ∀ names ∈ groups, names ≠ [] →
        (n.namesHeader sptr c).length + (joinNames names).length ≤ lineMax + 1 := by
  rw [List.flatMap_map, List.flatMap_def]
  constructor
  · intro same names inside some_
    by_contra long
    have widths := congrArg namesWidth same
    rw [namesWidth_flatten, namesWidth_flatten, List.map_map] at widths
    apply Nat.ne_of_lt _ widths
    apply List.sum_lt_sum
    · exact fun names inside => readNames_le (wordy names inside)
    · exact ⟨names, inside, readNames_lt (wordy names inside) some_ (not_le.1 long)⟩
  · intro fits
    apply congrArg List.flatten
    apply (List.map_congr_left _).trans (List.map_id groups)
    exact fun names inside => readNames_whole (wordy names inside) (fits names inside)

theorem namesHeader_length : (n.namesHeader sptr c).length =
    n.meName.length + (n.nameOf sptr).length + (n.chan c).chname.length + 11 := by
  simp [namesHeader, namesHead, lit]
  omega

/-- A line of several names has room for all of them: it was not full before the last. -/
theorem tight_fits {names : List CStr} (nick : (n.nameOf sptr).length ≤ nickLen)
    (tight : Tight (namesFull n.namesMlen (n.namesHead c)) names)
    (entries : ∀ name ∈ names, name.length ≤ nickLen + 1 ∧
      (n.namesHeader sptr c).length + name.length ≤ lineMax) (some_ : names ≠ []) :
    (n.namesHeader sptr c).length + (joinNames names).length ≤ lineMax + 1 := by
  have head : (n.namesHead c).length = (n.chan c).chname.length + 4 := by
    simp [namesHead]
  have roomy : ∀ front, namesFull n.namesMlen (n.namesHead c) front = false →
      (n.namesHeader sptr c).length + (joinNames front).length ≤ 500 := by
    intro front room
    have room := of_decide_eq_false room
    rw [List.length_append, head, namesMlen] at room
    rw [namesHeader_length]
    simp only [bufSize, nickLen] at room nick
    omega
  rcases tight with none | room | ⟨front, last, rfl, alone | room⟩
  · exact absurd none some_
  · have short := roomy names room
    simp only [lineMax]
    omega
  · have fits := (entries last (by simp)).2
    rw [alone, List.nil_append, joinNames_singleton, List.length_append, List.length_singleton]
    omega
  · have short := roomy front room
    have fits := (entries last (by simp)).1
    rw [joinNames_append, joinNames_singleton, List.length_append, List.length_append,
      List.length_singleton]
    simp only [nickLen] at fits
    simp only [lineMax]
    omega

/-- A client is read every member it may see, each once and whole, exactly where each would
have room on a line of its own. -/
theorem WellNamed.readNames_channel (h : n.WellNamed) (here : c ∈ n.channel)
    (nick : (n.nameOf sptr).length ≤ nickLen) :
    ((n.channelNames sptr c).flatMap (readNames (n.namesHeader sptr c)) =
      (n.maySee sptr c).map n.nameEntry) ↔
      ∀ lp ∈ n.maySee sptr c, n.meName.length + (n.nameOf sptr).length +
        (n.chan c).chname.length + 11 + (n.nameEntry lp).length ≤ lineMax := by
  -- the lines are groups of the members in their order, each as full as it may be
  obtain ⟨groups, all, lines, tight⟩ := n.channelNames_packs sptr c
    fun lp member => (h.nicks c here lp member).2
  have entry : ∀ names ∈ groups, ∀ name ∈ names,
      ∃ lp ∈ n.maySee sptr c, n.nameEntry lp = name := by
    intro names inside name member
    have shown : name ∈ (n.maySee sptr c).map n.nameEntry := by
      rw [← all]
      exact List.mem_flatten.2 ⟨names, inside, member⟩
    exact List.mem_map.1 shown
  have nicks : ∀ lp ∈ n.maySee sptr c,
      IsWord (n.nameEntry lp) ∧ (n.nameEntry lp).length ≤ nickLen + 1 := by
    intro lp seen
    have facts := h.nicks c here lp (List.mem_of_mem_filter seen)
    refine ⟨nameEntry_isWord facts.1, ?_⟩
    have mark : (memberMark lp.flags).length ≤ 1 := by
      unfold memberMark
      split
      · exact Nat.le_refl 1
      · split
        · exact Nat.le_refl 1
        · exact Nat.zero_le 1
    rw [nameEntry, List.length_append]
    omega
  have wordy : ∀ names ∈ groups, ∀ name ∈ names, IsWord name := by
    intro names inside name member
    obtain ⟨lp, seen, rfl⟩ := entry names inside name member
    exact (nicks lp seen).1
  rw [lines, ← all, readNames_groups wordy]
  constructor
  -- a member stands in some line, which is no shorter than one of its own
  · intro fits lp seen
    have shown : n.nameEntry lp ∈ groups.flatten := by
      rw [all]
      exact List.mem_map_of_mem seen
    obtain ⟨names, inside, member⟩ := List.mem_flatten.1 shown
    have line := fits names inside (List.ne_nil_of_mem member)
    have long := length_lt_joinNames member
    rw [namesHeader_length] at line
    omega
  · intro room names inside some_
    apply tight_fits nick (tight names inside) _ some_
    intro name member
    obtain ⟨lp, seen, rfl⟩ := entry names inside name member
    rw [namesHeader_length]
    exact ⟨(nicks lp seen).2, room lp seen⟩

def Asks (n : Network) (para : Option CStr) (c : ChanId) : Prop :=
  let given := para.getD []
  let name := given.takeWhile (· != ',')
  given.count ',' ≤ 1 ∧ checkChannelName name = true ∧
    (name = [] ∨ n.hashFindChannel name = some c)

theorem flatMap_only {α β : Type*} {f : α → List β} {l : List α} (nodup : l.Nodup) {a : α}
    (inside : a ∈ l) (others : ∀ b ∈ l, b ≠ a → f b = []) : l.flatMap f = f a := by
  induction l with
  | nil => cases inside
  | cons b l ih =>
    obtain ⟨fresh, nodup⟩ := List.nodup_cons.1 nodup
    rw [List.flatMap_cons]
    rcases List.mem_cons.1 inside with rfl | later
    · have rest : l.flatMap f = [] := by
        rw [List.flatMap_eq_nil_iff]
        exact fun d member => others d (List.mem_cons_of_mem _ member) fun same =>
          fresh (same ▸ member)
      rw [rest, List.append_nil]
    · have first : f b = [] := others b List.mem_cons_self fun same => fresh (same ▸ later)
      rw [first, List.nil_append]
      exact ih nodup later fun d member => others d (List.mem_cons_of_mem _ member)

theorem WellNamed.readNames_channels (h : n.WellNamed) (here : c ∈ n.channel)
    {cs : List ChanId} (sub : cs.Sublist n.channel) (inside : c ∈ cs) :
    (cs.flatMap (n.channelNames sptr)).flatMap (readNames (n.namesHeader sptr c)) =
      (n.channelNames sptr c).flatMap (readNames (n.namesHeader sptr c)) := by
  rw [List.flatMap_assoc]
  apply flatMap_only ((h.channels.of_map).sublist sub) inside
  intro d member other
  have there := sub.subset member
  obtain ⟨groups, -, lines, -⟩ := n.channelNames_packs sptr d
    fun lp member => (h.nicks d there lp member).2
  rw [lines, List.flatMap_eq_nil_iff]
  intro r line
  obtain ⟨names, -, rfl⟩ := List.mem_map.1 line
  exact h.readNames_other here there other _

structure NamesLoop.Begins (head : CStr) (st : NamesLoop) : Prop where
  buf : ∃ rest, st.buf = head ++ rest
  out : ∀ buf ∈ st.out, ∃ rest, buf = head ++ rest

theorem NamesLoop.Begins.addName {head : CStr} {st : NamesLoop} (h : st.Begins head) (mlen : Nat)
    (mark name : CStr) : (addName mlen head mark name st).Begins head := by
  obtain ⟨rest, buf⟩ := h.buf
  have longer : ∃ rest, st.buf ++ mark ++ name.take nickLen ++ [' '] = head ++ rest :=
    ⟨rest ++ mark ++ name.take nickLen ++ [' '], by rw [buf]; simp⟩
  unfold Network.addName
  dsimp only
  split
  · refine ⟨⟨[], (List.append_nil head).symm⟩, fun sent inside => ?_⟩
    rcases List.mem_append.1 inside with old | new
    · exact h.out sent old
    · rw [List.mem_singleton.1 new]
      exact longer
  · exact ⟨longer, h.out⟩

theorem WellNamed.readNames_sweptNames (h : n.WellNamed) (here : c ∈ n.channel) :
    (n.sweptNames sptr).flatMap (readNames (n.namesHeader sptr c)) = [] := by
  have begins : ∀ (us : List ClientId) (st : NamesLoop), st.Begins (lit "* * :") →
      (us.foldl (fun st c2ptr => addName n.namesMlen (lit "* * :") [] (n.nameOf c2ptr) st)
        st).Begins (lit "* * :") := by
    intro us
    induction us with
    | nil => exact fun _ start => start
    | cons u us ih => exact fun st start => ih _ (start.addName n.namesMlen [] (n.nameOf u))
  have done := begins (n.globalClientList.filter (n.sweeps sptr))
    { buf := lit "* * :", idx := (lit "* * :").length, flag := false, out := [] }
    ⟨⟨[], rfl⟩, nofun⟩
  rw [sweptNames, List.flatMap_eq_nil_iff]
  intro r inside
  obtain ⟨buf, sent, rfl⟩ := List.mem_map.1 inside
  obtain ⟨rest, rfl⟩ : ∃ rest, buf = lit "* * :" ++ rest := by
    unfold NamesLoop.bufs at sent
    split at sent
    · rcases List.mem_append.1 sent with old | new
      · exact done.out buf old
      · rw [List.mem_singleton.1 new]
        exact done.buf
    · exact done.out buf sent
  exact h.readNames_swept here rest

/-- For every channel that is shown to a user who asks for it. -/
theorem names_whole_iff (n : Network) (h : n.WellNamed) {sptr : ClientId} {c : ChanId}
    {para : Option CStr} (mine : (n.client sptr).myConnect = true)
    (nick : (n.nameOf sptr).length ≤ nickLen) (here : c ∈ n.channel)
    (shown : n.showChannel sptr c = true) (asks : n.Asks para c) :
    ((n.mNames sptr para).flatMap (readNames (n.namesHeader sptr c)) =
      (n.maySee sptr c).map n.nameEntry) ↔
      ∀ lp ∈ n.maySee sptr c, n.meName.length + (n.nameOf sptr).length +
        (n.chan c).chname.length + 11 + (n.nameEntry lp).length ≤ lineMax := by
  obtain ⟨commas, valid, target⟩ := asks
  rw [← h.readNames_channel here nick, mNames, if_neg (by simp [mine])]
  dsimp only
  rw [if_neg (by omega), if_neg (by simp [valid])]
  split
  · have member : c ∈ n.channel.filter (n.showChannel sptr) :=
      List.mem_filter.2 ⟨here, shown⟩
    rw [List.flatMap_append, List.flatMap_append,
      h.readNames_channels here List.filter_sublist member, h.readNames_sweptNames here]
    simp [readNames]
  · next some_ =>
    have found := target.resolve_left some_
    have member : c ∈ n.channel.filter fun c =>
        some c == n.hashFindChannel ((para.getD []).takeWhile (· != ',')) &&
          n.showChannel sptr c := by
      rw [List.mem_filter, found, shown]
      exact ⟨here, by simp⟩
    rw [List.flatMap_append, h.readNames_channels here List.filter_sublist member]
    simp [readNames]

end Network

/-! Olly asks for the names on `#c`, where she is with anna and bob, and on a channel with a
long name. -/

def namesNetwork (s : Server) : Network :=
  { Network.startUp (lit "irc.net") 100000 with toServer := s, globalClientList := s.clients }

def crowdedServer : Server :=
  mSjoin (Command.join.run
    (networkServer.edit (·.addClient 4 { anna with name := lit "bob" })) 3 3 [lit "olly", lit "#c"])
    1 1 [lit "one.net", lit "10", lit "#c", lit "+", lit "+bob"]

theorem crowdedServer_wellNamed : (namesNetwork crowdedServer).WellNamed where
  channels := by decide +kernel
  plain := by decide +kernel
  nicks := by
    unfold IsWord isBlankFree
    decide +kernel

theorem names_whole_iff_crowd :
    ((namesNetwork crowdedServer).mNames 3 (some (lit "#c"))).flatMap
      (Network.readNames ((namesNetwork crowdedServer).namesHeader 3 0)) =
      [lit "+bob", lit "olly", lit "@anna"] := by
  have asks : (namesNetwork crowdedServer).Asks (some (lit "#c")) 0 :=
    ⟨by decide +kernel, by decide +kernel, .inr (by decide +kernel)⟩
  have visible : (namesNetwork crowdedServer).showChannel 3 0 = true := by decide +kernel
  have shown := (Network.names_whole_iff (namesNetwork crowdedServer) crowdedServer_wellNamed
    (by decide +kernel) (by decide +kernel) (by decide +kernel) visible asks).2
    (by decide +kernel)
  rw [shown]
  decide +kernel

def longChannel : CStr := '#' :: List.replicate 483 'x'

def longNamesServer : Server :=
  mSjoin networkServer 1 1 [lit "one.net", lit "10", longChannel, lit "+", lit "@anna"]

theorem longNames_cut :
    (namesNetwork longNamesServer).WellNamed ∧
      (namesNetwork longNamesServer).showChannel 3 2 = true ∧
      ((namesNetwork longNamesServer).mNames 3 none).flatMap
        (Network.readNames ((namesNetwork longNamesServer).namesHeader 3 2)) ≠
      ((namesNetwork longNamesServer).maySee 3 2).map (namesNetwork longNamesServer).nameEntry := by
  refine ⟨⟨by decide +kernel, by decide +kernel, ?_⟩, by decide +kernel, by decide +kernel⟩
  unfold IsWord isBlankFree
  decide +kernel

end Ircd
