import Ircd.Channel.Lifetime
import Ircd.Channel.SjoinClean
import Ircd.Net.Send
import Mathlib.Data.List.TakeWhile

/-! The line of an SJOIN for the other servers, and the buffer it is written to.

The modes in it are those of the channel after the merge, so that it may be longer than the
line that came in; nothing looks at the size of `sjbuf`.
-/

set_option autoImplicit false

namespace Ircd

/-- `t` as an index into `sjbuf`, and the number of characters from its start that have been
written to. -/
structure RelayBuf where
  t : Nat
  written : Nat
  deriving DecidableEq, Repr

namespace RelayBuf

def start : RelayBuf := { t := 0, written := 1 }

def print (b : RelayBuf) (text : CStr) : RelayBuf where
  t := b.t + (cString text).length
  written := max b.written (b.t + text.length + 1)

/-- `strcpy(t, nick); t += strlen(t); *t++ = ' ';`. -/
def enter (b : RelayBuf) (nick : CStr) : RelayBuf where
  t := b.t + nick.length + 1
  written := max b.written (b.t + nick.length + 1)

end RelayBuf

def relayedNick (keepNewModes : Bool) (s0 : CStr) : CStr :=
  if keepNewModes then s0 else stripPrefixes s0

structure RelayLoop where
  loop : SjoinLoop
  buf : RelayBuf

def RelayLoop.nick (st : RelayLoop) (cptr sptr : ClientId) (c : ChanId) (req : SjoinRequest)
    (keepNewModes : Bool) (s0 : CStr) : RelayLoop where
  loop := st.loop.nick cptr sptr c req keepNewModes s0
  buf :=
    match st.loop.srv.chase (stripPrefixes s0) with
    | none => st.buf
    | some acptr =>
      if (st.loop.srv.client acptr).from_ ≠ cptr then st.buf
      else st.buf.enter (relayedNick keepNewModes s0)

namespace Server

/-- The writes of `m_sjoin` once the channel has been looked up. -/
def sjoinChannelWrites (s : Server) (cptr sptr : ClientId) (c : ChanId) (req : SjoinRequest)
    (isnew : Bool) : RelayBuf :=
  let oldts := (s.chan c).channelts
  let ts := s.sjoinTsOf c req isnew
  let s := s.sjoinTsZero sptr c req isnew
  let s := s.sjoinModeChanges sptr c req ts oldts
  let b := RelayBuf.start.print (s.sjoinHeader sptr c req ts)
  let st : RelayLoop :=
    { loop := { srv := s, text := [], people := 0, buf := ModeBuf.plus }, buf := b }
  ((tokens isBlank req.nicks).foldl
    (fun st s0 => RelayLoop.nick st cptr sptr c req ts.keepNewModes s0) st).buf

def sjoinRunWrites (s : Server) (cptr sptr : ClientId) (req : SjoinRequest) : RelayBuf :=
  let isnew := (s.hashFindChannel req.name).isNone
  match s.getChannel sptr req.name true with
  | (s, some c) => s.sjoinChannelWrites cptr sptr c req isnew
  | (_, none) => RelayBuf.start

end Server

/-- The characters that an SJOIN writes to `sjbuf`. -/
def sjoinWritten (s : Server) (cptr sptr : ClientId) (parv : List CStr) : Nat :=
  match parseSjoin s.toTables sptr parv with
  | none => RelayBuf.start.written
  | some req => (s.sjoinRunWrites cptr sptr req).written

def serverLines (out : List Output) : List CStr :=
  out.filterMap fun o => match o with
    | .matchServs _ _ text => some text
    | _ => none

def SentWhole (line : CStr) : Prop := endLine line = line ++ lit "\r\n"

namespace SjoinRequest

variable (req : SjoinRequest)

def Older (ch : Channel) : Prop := req.newts ≠ 0 ∧ ch.channelts ≠ 0 ∧ req.newts < ch.channelts

def Newer (ch : Channel) : Prop :=
  req.newts ≠ 0 ∧ ch.channelts ≠ 0 ∧ ch.channelts < req.newts ∧ ¬ (ch.juped = true ∧ ch.users = 0)

instance (ch : Channel) : Decidable (req.Older ch) :=
  inferInstanceAs (Decidable (_ ∧ _ ∧ _))

instance (ch : Channel) : Decidable (req.Newer ch) :=
  inferInstanceAs (Decidable (_ ∧ _ ∧ _ ∧ _))

/-- The TS that goes out, by that of the channel before the command, if there was one. -/
def stamp : Option Channel → Int
  | none => req.newts
  | some ch =>
    if req.newts = 0 ∨ ch.channelts = 0 then 0
    else if req.Newer ch then ch.channelts
    else req.newts

def stampLength (before : Option Channel) : Nat :=
  if req.stamp before % 2 ^ 64 = 0 then 1
  else if req.stamp before % 2 ^ 64 ≤ 999999999 then 9
  else 10

/-- Its first character, which stands for all digits before the last nine, is the
terminator. -/
def StampCut (before : Option Channel) : Prop :=
  999999999 < req.stamp before % 2 ^ 64 ∧
    (48 + req.stamp before % 2 ^ 64 / 1000000000) % 256 = 0

def Modeless : Option Channel → Prop
  | none => req.letters.head? = some '0'
  | some ch => req.letters.head? = some '0' ∨ req.Newer ch

def flagAfter (before : Option Channel) (f : ModeFlag) : Bool :=
  match before with
  | none => req.mode.mode f
  | some ch => req.mode.mode f || (!decide (req.Older ch) && ch.mode.mode f)

def limitAfter : Option Channel → Int
  | none => max 0 req.mode.limit
  | some ch => if req.Older ch then req.mode.limit else max ch.mode.limit req.mode.limit

def keyAfter : Option Channel → CStr
  | none => req.mode.key
  | some ch => if req.Older ch ∨ ¬ req.mode.key < ch.mode.key then req.mode.key else ch.mode.key

instance (before : Option Channel) : Decidable (req.StampCut before) :=
  inferInstanceAs (Decidable (_ ∧ _))

instance : (before : Option Channel) → Decidable (req.Modeless before)
  | none => inferInstanceAs (Decidable (_ = _))
  | some _ => inferInstanceAs (Decidable (_ ∨ _))

def modesLength (before : Option Channel) (sees : Bool) : Nat :=
  if req.Modeless before then 2
  else
    2 + channelModesFlags.countP (fun f => req.flagAfter before f.1) +
      (if req.limitAfter before = 0 then 0
        else if sees then (formatD (req.limitAfter before)).length + 2 else 1) +
      (if req.keyAfter before = [] then 0
        else if sees then (req.keyAfter before).length + 1 else 1)

def headerLength (before : Option Channel) (sees : Bool) : Nat :=
  req.sender.length + req.stampLength before + req.name.length + req.modesLength before sees + 12

def accepted (t : Tables) (cptr : ClientId) : List CStr :=
  (tokens isBlank req.nicks).filter fun s0 => (t.resolveNick cptr s0).isSome

/-- The nicks in the line, each with what separates it from the next. A prefix is left
out where the channel has a better claim. -/
def nicksLength (t : Tables) (cptr : ClientId) (before : Option Channel) : Nat :=
  ((req.accepted t cptr).map fun s0 =>
    (relayedNick (!before.any fun ch => decide (req.Newer ch)) s0).length + 1).sum

def nicksFrom (before : Option Channel) (sees : Bool) : Nat :=
  if req.StampCut before then req.sender.length + 8 else req.headerLength before sees

/-- `sjbuf` has room for the header with its terminator, and for the nicks with one character
to spare. -/
structure HasRoom (t : Tables) (cptr : ClientId) (before : Option Channel) (sees : Bool) : Prop where
  header : req.headerLength before sees + 1 ≤ bufSize
  nicks : req.accepted t cptr ≠ [] →
    req.nicksFrom before sees + req.nicksLength t cptr before + 1 ≤ bufSize

end SjoinRequest

namespace Tables

def channelBefore (t : Tables) (name : CStr) : Option Channel :=
  (t.hashFindChannel name).map t.chan

/-- Whether the parameters of the modes are shown to the sender, as they are to a server. -/
def sjoinSight (t : Tables) (sptr : ClientId) (name : CStr) : Bool :=
  t.isMember sptr ((t.hashFindChannel name).getD t.nextChan) || (t.client sptr).isServer

end Tables

def SjoinHasRoom (t : Tables) (cptr sptr : ClientId) (parv : List CStr) : Prop :=
  ∀ req, parseSjoin t sptr parv = some req →
    req.HasRoom t cptr (t.channelBefore req.name) (t.sjoinSight sptr req.name)

namespace NulFree

theorem digits {width n : Nat} : NulFree (padded width n) := by
  intro c inside nul
  have digit := isDigit_of_mem_padded inside
  rw [nul] at digit
  exact absurd digit (by decide)

theorem formatD (v : Int) : NulFree (formatD v) := by
  have tail (n : Nat) : NulFree ((padded 12 n).dropWhile (· == '0')) :=
    fun c inside => digits c ((List.dropWhile_suffix _).subset inside)
  unfold Ircd.formatD
  split
  · decide
  · split
    · exact cons (by decide) (tail _)
    · exact tail _

end NulFree

theorem formatLu_cases (v : Nat) :
    v = 0 ∧ formatLu v = ['0'] ∨
    v ≠ 0 ∧ v ≤ 999999999 ∧ formatLu v = padded 9 v ∨
    999999999 < v ∧ formatLu v =
      Char.ofNat ((48 + v / 1000000000) % 256) :: padded 9 (v % 1000000000) := by
  unfold formatLu
  split
  next zero => exact Or.inl ⟨zero, rfl⟩
  next some =>
    split
    next long => exact Or.inr (Or.inr ⟨long, rfl⟩)
    next short => exact Or.inr (Or.inl ⟨some, by omega, rfl⟩)

theorem ofNat_eq_nul {n : Nat} (byte : n < 256) : Char.ofNat n = '\x00' ↔ n = 0 := by
  have nat : (Char.ofNat n).toNat = n := toNat_ofNat (by omega)
  constructor
  · intro nul
    rw [nul] at nat
    exact nat.symm
  · rintro rfl
    rfl

/-- The channel that an SJOIN finds, or the block that it has made. -/
inductive Found (ch : Channel) : Bool → Option Channel → Prop where
  | there : Found ch false (some ch)
  | fresh (mode : ch.mode = Mode.zero) : Found ch true none

namespace SjoinRequest

variable {req : SjoinRequest} {ch : Channel} {isnew : Bool} {before : Option Channel}

theorem stamp_length (req : SjoinRequest) (before : Option Channel) :
    (formatTime (req.stamp before)).length = req.stampLength before := by
  unfold formatTime stampLength
  generalize req.stamp before = ts
  have pos : 0 ≤ ts % 2 ^ 64 := Int.emod_nonneg _ (by decide)
  rcases formatLu_cases (ts % 2 ^ 64).toNat with ⟨zero, text⟩ | ⟨some, short, text⟩ | ⟨long, text⟩
  · rw [text, if_pos (by omega)]
    rfl
  · rw [text, if_neg (by omega), if_pos (by omega), length_padded]
  · rw [text, if_neg (by omega), if_neg (by omega), List.length_cons, length_padded]

theorem stamp_cut (req : SjoinRequest) (before : Option Channel) :
    (req.StampCut before → ∃ rest, formatTime (req.stamp before) = '\x00' :: rest) ∧
      (¬ req.StampCut before → NulFree (formatTime (req.stamp before))) := by
  unfold formatTime StampCut
  generalize req.stamp before = ts
  have pos : 0 ≤ ts % 2 ^ 64 := Int.emod_nonneg _ (by decide)
  have value : ((ts % 2 ^ 64).toNat : Int) = ts % 2 ^ 64 := Int.toNat_of_nonneg pos
  generalize (ts % 2 ^ 64).toNat = v at value ⊢
  rw [← value]
  rcases formatLu_cases v with ⟨zero, text⟩ | ⟨some, short, text⟩ | ⟨long, text⟩
  · rw [text]
    exact ⟨fun cut => absurd cut.1 (by omega), fun _ => by decide⟩
  · rw [text]
    exact ⟨fun cut => absurd cut.1 (by omega), fun _ => NulFree.digits⟩
  · rw [text]
    have byte := @ofNat_eq_nul ((48 + v / 1000000000) % 256) (by omega)
    constructor
    · rintro ⟨-, nul⟩
      rw [byte.mpr (by omega)]
      exact ⟨_, rfl⟩
    · intro whole
      apply NulFree.cons _ NulFree.digits
      intro nul
      have zero := byte.mp nul
      exact whole ⟨by omega, by omega⟩

theorem nicksFrom_le (req : SjoinRequest) (before : Option Channel) (sees : Bool) :
    req.nicksFrom before sees ≤ req.headerLength before sees + 1 := by
  unfold nicksFrom
  split
  · unfold headerLength
    omega
  · exact Nat.le_succ _

theorem sjoinTs_stamp (found : Found ch isnew before) :
    (sjoinTs isnew req.newts ch.channelts ch.juped ch.users).tstosend = req.stamp before ∧
      (sjoinTs isnew req.newts ch.channelts ch.juped ch.users).keepNewModes =
        !before.any fun ch => decide (req.Newer ch) := by
  cases found with
  | fresh mode => exact ⟨rfl, rfl⟩
  | there =>
    simp only [sjoinTs, stamp, Option.any_some, Bool.false_eq_true, if_false]
    by_cases zero : req.newts = 0 ∨ ch.channelts = 0
    · have older : ¬ req.Newer ch := fun newer => zero.elim newer.1 newer.2.1
      simp [zero, older]
    rw [if_neg zero, if_neg zero]
    have some := not_or.mp zero
    by_cases newer : req.Newer ch
    · have less := newer.2.2.1
      rw [if_neg (by omega), if_neg (by omega), if_neg newer.2.2.2]
      simp [newer]
    · rw [if_neg newer]
      by_cases same : req.newts = ch.channelts
      · simp [same, newer]
      by_cases less : req.newts < ch.channelts
      · simp [same, less, newer]
      have empty : ch.juped = true ∧ ch.users = 0 := by
        by_contra people
        exact newer ⟨some.1, some.2, by omega, people⟩
      simp [same, less, newer, empty]

theorem sjoinMerge_after (found : Found ch isnew before)
    (keep : (sjoinTs isnew req.newts ch.channelts ch.juped ch.users).keepNewModes = true) :
    (∀ f, (sjoinMerge (sjoinTs isnew req.newts ch.channelts ch.juped ch.users) ch.mode
        req.mode).mode f = req.flagAfter before f) ∧
      (sjoinMerge (sjoinTs isnew req.newts ch.channelts ch.juped ch.users) ch.mode
        req.mode).limit = req.limitAfter before ∧
      (sjoinMerge (sjoinTs isnew req.newts ch.channelts ch.juped ch.users) ch.mode
        req.mode).key = req.keyAfter before := by
  cases found with
  | fresh mode =>
    rw [mode]
    refine ⟨fun f => ?_, ?_, ?_⟩
    · simp [sjoinMerge, sjoinTs, flagAfter, Mode.zero]
    · simp only [sjoinMerge, sjoinTs, limitAfter, Mode.zero, if_true, Bool.not_true,
        Bool.false_eq_true, if_false]
      omega
    · simp [sjoinMerge, sjoinTs, keyAfter, Mode.zero]
  | there =>
    -- our modes go exactly when the line is older and both timestamps are given
    have ours : (sjoinTs false req.newts ch.channelts ch.juped ch.users).keepOurModes =
        !decide (req.Older ch) := by
      unfold sjoinTs
      simp only [Bool.false_eq_true, if_false]
      by_cases zero : req.newts = 0 ∨ ch.channelts = 0
      · have older : ¬ req.Older ch := fun older => zero.elim older.1 older.2.1
        simp [zero, older]
      rw [if_neg zero]
      have some := not_or.mp zero
      by_cases older : req.Older ch
      · rw [if_neg (fun same => by have less := older.2.2; omega), if_pos older.2.2]
        simp [older]
      · have more : ¬ req.newts < ch.channelts := fun less => older ⟨some.1, some.2, less⟩
        rw [if_neg more]
        split
        · simp [older]
        · split <;> simp [older]
    simp only [sjoinMerge, keep, ours, flagAfter, limitAfter, keyAfter]
    by_cases older : req.Older ch
    · simp [older]
    · simp only [older, decide_false, Bool.not_false, Bool.not_true, Bool.false_eq_true, if_true,
        if_false, Bool.true_and, false_or]
      refine ⟨fun _ => trivial, by omega, ?_⟩
      -- of two keys the greater stays
      by_cases less : req.mode.key < ch.mode.key
      · rw [if_pos less, if_neg (not_not.mpr less)]
      · rw [if_neg less, if_pos less]

end SjoinRequest

theorem channelModes_length {t : Tables} {sptr : ClientId} {c : ChanId} {sees : Bool}
    (sight : (t.isMember sptr c || (t.client sptr).isServer) = sees) :
    (channelModes t sptr c).1.length + 1 + (channelModes t sptr c).2.length =
      2 + channelModesFlags.countP (fun f => (t.chan c).mode.mode f.1) +
        (if (t.chan c).mode.limit = 0 then 0
          else if sees then (formatD (t.chan c).mode.limit).length + 2 else 1) +
        (if (t.chan c).mode.key = [] then 0
          else if sees then (t.chan c).mode.key.length + 1 else 1) := by
  unfold channelModes
  dsimp only
  rw [sight]
  have letters : ((channelModesFlags.filter fun f => (t.chan c).mode.mode f.1).map
      Prod.snd).length = channelModesFlags.countP (fun f => (t.chan c).mode.mode f.1) := by
    rw [List.length_map, ← List.countP_eq_length_filter]
  generalize (t.chan c).mode.limit = limit
  generalize (t.chan c).mode.key = key
  by_cases unlimited : limit = 0 <;> by_cases keyless : key = [] <;> cases sees <;>
    simp [unlimited, keyless, letters] <;> omega

theorem nulFree_channelModes {t : Tables} {sptr : ClientId} {c : ChanId}
    (key : NulFree (t.chan c).mode.key) :
    NulFree (channelModes t sptr c).1 ∧ NulFree (channelModes t sptr c).2 := by
  unfold channelModes
  dsimp only
  constructor
  · have letters : NulFree ((channelModesFlags.filter fun f => (t.chan c).mode.mode f.1).map
        Prod.snd) := by
      intro l inside
      obtain ⟨f, kept, rfl⟩ := List.mem_map.mp inside
      have all : ∀ f ∈ channelModesFlags, f.2 ≠ '\x00' := by decide
      exact all f (List.mem_filter.mp kept).1
    refine ((NulFree.cons (by decide) letters).append ?_).append ?_
    · split <;> decide
    · split <;> decide
  · apply NulFree.append
    · split
      · exact (NulFree.formatD _).append (by decide)
      · exact fun _ absurdity => by cases absurdity
    · split
      · exact key
      · exact fun _ absurdity => by cases absurdity

namespace Server

variable {s : Server} {cptr sptr : ClientId} {c : ChanId} {req : SjoinRequest} {isnew : Bool}
  {before : Option Channel}

def decided (s : Server) (sptr : ClientId) (c : ChanId) (req : SjoinRequest) (isnew : Bool) :
    Server :=
  (s.sjoinTsZero sptr c req isnew).sjoinModeChanges sptr c req (s.sjoinTsOf c req isnew)
    (s.chan c).channelts

theorem decided_toTables : (s.decided sptr c req isnew).toTables =
    s.toTables.setChan c (Tables.sjoinDecided (s.chan c) (s.sjoinTsOf c req isnew) req.mode) := by
  unfold decided
  rw [sjoinModeChanges_toTables, sjoinTsZero_toTables]

theorem decided_mode : ((s.decided sptr c req isnew).chan c).mode =
    sjoinMerge (s.sjoinTsOf c req isnew) (s.chan c).mode req.mode := by
  rw [decided_toTables]
  simp only [Tables.setChan, Function.update_self]
  exact (Tables.sjoinDecided_settings _ _ _).2.2.2

theorem modeless_iff (found : Found (s.chan c) isnew before) :
    (req.letters.head? ≠ some '0' ∧ (s.sjoinTsOf c req isnew).keepNewModes = true) ↔
      ¬ req.Modeless before := by
  have keep : (s.sjoinTsOf c req isnew).keepNewModes = _ := (SjoinRequest.sjoinTs_stamp found).2
  rw [keep]
  cases found with
  | there => simp [SjoinRequest.Modeless]
  | fresh => simp [SjoinRequest.Modeless]

theorem header_length (found : Found (s.chan c) isnew before) {sees : Bool}
    (sight : (s.isMember sptr c || (s.client sptr).isServer) = sees) :
    ((s.decided sptr c req isnew).sjoinHeader sptr c req (s.sjoinTsOf c req isnew)).length =
      req.headerLength before sees := by
  have stamp : (s.sjoinTsOf c req isnew).tstosend = _ := (SjoinRequest.sjoinTs_stamp found).1
  have modes : (if req.letters.head? ≠ some '0' ∧ (s.sjoinTsOf c req isnew).keepNewModes = true
      then channelModes (s.decided sptr c req isnew).toTables sptr c else (['0'], [])).1.length +
      1 + (if req.letters.head? ≠ some '0' ∧ (s.sjoinTsOf c req isnew).keepNewModes = true
      then channelModes (s.decided sptr c req isnew).toTables sptr c else (['0'], [])).2.length =
      req.modesLength before sees := by
    unfold SjoinRequest.modesLength
    by_cases modeless : req.Modeless before
    · rw [if_neg (fun asked => (modeless_iff found).mp asked modeless), if_pos modeless]
      rfl
    · have asked := (modeless_iff found).mpr modeless
      rw [if_pos asked, if_neg modeless]
      have sight' : ((s.decided sptr c req isnew).isMember sptr c ||
          ((s.decided sptr c req isnew).client sptr).isServer) = sees := by
        rw [decided_toTables]
        exact sight
      rw [channelModes_length sight', decided_mode]
      obtain ⟨flags, limit, key⟩ := SjoinRequest.sjoinMerge_after found asked.2
      have merged : sjoinMerge (s.sjoinTsOf c req isnew) (s.chan c).mode req.mode = sjoinMerge
        (sjoinTs isnew req.newts (s.chan c).channelts (s.chan c).juped (s.chan c).users)
        (s.chan c).mode req.mode := rfl
      simp only [merged, limit, key, flags]
  unfold sjoinHeader SjoinRequest.headerLength
  generalize (if req.letters.head? ≠ some '0' ∧ (s.sjoinTsOf c req isnew).keepNewModes = true
    then channelModes (s.decided sptr c req isnew).toTables sptr c else (['0'], [])) = both at modes ⊢
  have seven : (lit " SJOIN ").length = 7 := rfl
  have two : (lit " :").length = 2 := rfl
  simp only [List.length_append, List.length_cons, stamp, SjoinRequest.stamp_length, seven, two]
  omega

theorem nulFree_merge {ts : SjoinTs} {old new : Mode} (oldKey : NulFree old.key)
    (newKey : NulFree new.key) : NulFree (sjoinMerge ts old new).key := by
  unfold sjoinMerge
  split
  · exact oldKey
  · split
    · dsimp only
      split
      · exact oldKey
      · exact newKey
    · exact newKey

theorem header_end (found : Found (s.chan c) isnew before) {sees : Bool}
    (sight : (s.isMember sptr c || (s.client sptr).isServer) = sees)
    (sender : NulFree req.sender) (name : NulFree req.name) (oldKey : NulFree (s.chan c).mode.key)
    (newKey : NulFree req.mode.key) :
    (cString ((s.decided sptr c req isnew).sjoinHeader sptr c req
      (s.sjoinTsOf c req isnew))).length = req.nicksFrom before sees := by
  have stamp : (s.sjoinTsOf c req isnew).tstosend = _ := (SjoinRequest.sjoinTs_stamp found).1
  obtain ⟨cut, whole⟩ := req.stamp_cut before
  have front : NulFree (':' :: req.sender ++ lit " SJOIN ") :=
    (NulFree.cons (by decide) sender).append (by decide)
  unfold SjoinRequest.nicksFrom
  -- a stamp that was cut ends in a NUL, and what is appended behind it is not seen
  by_cases stampCut : req.StampCut before
  · rw [if_pos stampCut]
    obtain ⟨rest, nul⟩ := cut stampCut
    unfold sjoinHeader
    dsimp only
    rw [stamp, nul]
    simp only [List.append_assoc, List.cons_append]
    rw [← List.cons_append, ← List.append_assoc, NulFree.cString_append front]
    have seven : (lit " SJOIN ").length = 7 := rfl
    simp only [List.length_append, List.length_cons, seven]
  · rw [if_neg stampCut, ← header_length found sight]
    apply congrArg List.length
    apply NulFree.cString
    have modes : NulFree (if req.letters.head? ≠ some '0' ∧
        (s.sjoinTsOf c req isnew).keepNewModes = true
        then channelModes (s.decided sptr c req isnew).toTables sptr c else (['0'], [])).1 ∧
        NulFree (if req.letters.head? ≠ some '0' ∧ (s.sjoinTsOf c req isnew).keepNewModes = true
        then channelModes (s.decided sptr c req isnew).toTables sptr c else (['0'], [])).2 := by
      split
      · apply nulFree_channelModes
        rw [decided_mode]
        exact nulFree_merge oldKey newKey
      · exact ⟨by decide, by decide⟩
    unfold sjoinHeader
    rw [stamp]
    generalize (if req.letters.head? ≠ some '0' ∧ (s.sjoinTsOf c req isnew).keepNewModes = true
      then channelModes (s.decided sptr c req isnew).toTables sptr c
      else (['0'], [])) = both at modes ⊢
    -- without the cut there is no NUL in any part
    have named := (front.append (whole stampCut)).append (NulFree.cons (by decide : ' ' ≠ '\x00') name)
    have lettered := named.append (NulFree.cons (by decide : ' ' ≠ '\x00') modes.1)
    have full := lettered.append (NulFree.cons (by decide : ' ' ≠ '\x00') modes.2)
    exact full.append (by decide)

end Server

section Nicks

variable {cptr sptr : ClientId} {c : ChanId} {req : SjoinRequest} {keep : Bool}

theorem nick_text (st : SjoinLoop) (s0 : CStr) :
    (st.nick cptr sptr c req keep s0).text =
        st.text ++ (if (st.srv.resolveNick cptr s0).isSome then relayedNick keep s0 ++ [' '] else []) ∧
      (st.nick cptr sptr c req keep s0).people =
        st.people + if (st.srv.resolveNick cptr s0).isSome then 1 else 0 := by
  have given (st : SjoinLoop) (sender : CStr) (has : Bool) (letter : Char) (name : CStr) :
      (st.giveFlag sptr c sender has letter name).text = st.text ∧
        (st.giveFlag sptr c sender has letter name).people = st.people := by
    unfold SjoinLoop.giveFlag
    split <;> exact ⟨rfl, rfl⟩
  unfold SjoinLoop.nick Tables.resolveNick Server.findChasing
  cases found : st.srv.chase (stripPrefixes s0) with
  | none => exact ⟨(List.append_nil _).symm, rfl⟩
  | some a =>
    dsimp only
    by_cases behind : (st.srv.client a).from_ = cptr
    · simp only [behind, ne_eq, not_true_eq_false, if_false, if_true, Option.isSome_some]
      unfold SjoinLoop.admitClient
      dsimp only
      rw [(given _ _ _ _ _).1, (given _ _ _ _ _).1, (given _ _ _ _ _).2, (given _ _ _ _ _).2]
      exact ⟨List.append_assoc _ _ _, rfl⟩
    · simp [behind]

theorem relayLoop_buf (st : RelayLoop) (s0 : CStr) :
    (st.nick cptr sptr c req keep s0).buf =
      if (st.loop.srv.resolveNick cptr s0).isSome then st.buf.enter (relayedNick keep s0)
      else st.buf := by
  unfold RelayLoop.nick Tables.resolveNick
  cases found : st.loop.srv.chase (stripPrefixes s0) with
  | none => rfl
  | some a =>
    dsimp only
    by_cases behind : (st.loop.srv.client a).from_ = cptr
    · simp [behind]
    · simp [behind]

structure Relays (t : Tables) (cptr : ClientId) (keep : Bool) (toks : List CStr)
    (st st' : RelayLoop) : Prop where
  text : st'.loop.text = st.loop.text ++
    (toks.filter fun s0 => (t.resolveNick cptr s0).isSome).flatMap fun s0 => relayedNick keep s0 ++ [' ']
  people : st'.loop.people =
    st.loop.people + (toks.filter fun s0 => (t.resolveNick cptr s0).isSome).length
  buf : st'.buf = (toks.filter fun s0 => (t.resolveNick cptr s0).isSome).foldl
    (fun b s0 => b.enter (relayedNick keep s0)) st.buf

theorem relayLoop_run {t : Tables} (toks : List CStr) (st : RelayLoop)
    (directory : Tables.SameDirectory t st.loop.srv.toTables) :
    let st' := toks.foldl (fun st s0 => RelayLoop.nick st cptr sptr c req keep s0) st
    Relays t cptr keep toks st st' ∧
      st'.loop = toks.foldl (fun st s0 => st.nick cptr sptr c req keep s0) st.loop := by
  induction toks generalizing st with
  | nil => exact ⟨⟨(List.append_nil _).symm, rfl, rfl⟩, rfl⟩
  | cons s0 toks ih =>
    -- a nick that has been admitted changes no directory, so the next look-up is as before
    have after : Tables.SameDirectory t (st.nick cptr sptr c req keep s0).loop.srv.toTables := by
      show Tables.SameDirectory t (st.loop.nick cptr sptr c req keep s0).srv.toTables
      rw [SjoinLoop.nick_toTables]
      exact directory.trans (Tables.sameDirectory_admitNick ..)
    obtain ⟨rest, loop⟩ := ih _ after
    obtain ⟨text, people⟩ := @nick_text cptr sptr c req keep st.loop s0
    have buf := @relayLoop_buf cptr sptr c req keep st s0
    have same : st.loop.srv.resolveNick cptr s0 = t.resolveNick cptr s0 :=
      Tables.SameDirectory.resolveNick cptr directory s0
    rw [same] at text people buf
    have first : (st.nick cptr sptr c req keep s0).loop = st.loop.nick cptr sptr c req keep s0 := rfl
    refine ⟨?_, loop⟩
    rw [List.foldl_cons]
    have written := rest.text
    have counted := rest.people
    have writes := rest.buf
    rw [first, text] at written
    rw [first, people] at counted
    rw [buf] at writes
    -- a nick that is not found, or is behind another link, is neither printed nor counted
    by_cases accepted : (t.resolveNick cptr s0).isSome = true
    · have taken : (s0 :: toks).filter (fun s0 => (t.resolveNick cptr s0).isSome) =
          s0 :: toks.filter fun s0 => (t.resolveNick cptr s0).isSome :=
        List.filter_cons_of_pos accepted
      simp only [accepted, if_true] at written counted writes
      refine ⟨?_, ?_, ?_⟩
      · rw [written, taken, List.flatMap_cons, List.append_assoc]
      · rw [counted, taken, List.length_cons]
        omega
      · rw [writes, taken, List.foldl_cons]
    · have left : (s0 :: toks).filter (fun s0 => (t.resolveNick cptr s0).isSome) =
          toks.filter fun s0 => (t.resolveNick cptr s0).isSome :=
        List.filter_cons_of_neg accepted
      simp only [accepted, Bool.false_eq_true, if_false, List.append_nil, Nat.add_zero]
        at written counted writes
      refine ⟨?_, ?_, ?_⟩
      · rw [written, left]
      · rw [counted, left]
      · rw [writes, left]

end Nicks

theorem enter_all (nicks : List CStr) (b : RelayBuf) (inside : b.t ≤ b.written) :
    (nicks.foldl RelayBuf.enter b).written =
      max b.written (b.t + (nicks.map fun nick => nick.length + 1).sum) := by
  induction nicks generalizing b with
  | nil =>
    simp only [List.foldl_nil, List.map_nil, List.sum_nil]
    omega
  | cons nick nicks ih =>
    have more : (b.enter nick).t ≤ (b.enter nick).written := Nat.le_max_right _ _
    rw [List.foldl_cons, ih _ more, List.map_cons, List.sum_cons]
    simp only [RelayBuf.enter]
    omega

structure Mute (s s' : Server) : Prop where
  tells : ∃ out, s'.sent = s.sent ++ out ∧ serverLines out = []

namespace Mute

variable {s s' s'' : Server}

theorem same (sent : s'.sent = s.sent) : Mute s s' :=
  ⟨[], by rw [sent, List.append_nil], rfl⟩

theorem emit {o : Output} (other : serverLines [o] = []) : Mute s (s.emit o) := ⟨[o], rfl, other⟩

theorem trans (h : Mute s s') (h' : Mute s' s'') : Mute s s'' := by
  obtain ⟨out, sent, none⟩ := h
  obtain ⟨out', sent', none'⟩ := h'
  refine ⟨out ++ out', by rw [sent', sent, List.append_assoc], ?_⟩
  rw [serverLines, List.filterMap_append]
  exact List.append_eq_nil_iff.mpr ⟨none, none'⟩

theorem butserv (c : ChanId) (source : ClientId) (text : CStr) :
    Mute s (s.sendtoChannelButserv c source text) := by
  have touched : Mute s (s.touch c) := same (Server.touch_sent s c)
  exact touched.trans (emit rfl)

theorem sjoinFlush (sptr : ClientId) (c : ChanId) (sender : CStr) (restart b : ModeBuf) :
    Mute s (s.sjoinFlush sptr c sender restart b).1 := by
  unfold Server.sjoinFlush
  split
  · exact butserv ..
  · exact same rfl

theorem sjoinTakeFlag (sptr : ClientId) (c : ChanId) (sender : CStr) (has : Bool) (letter : Char)
    (name : CStr) (b : ModeBuf) : Mute s (s.sjoinTakeFlag sptr c sender has letter name b).1 := by
  unfold Server.sjoinTakeFlag
  split
  · exact sjoinFlush ..
  · exact same rfl

theorem sjoinTakeFlags (sptr : ClientId) (c : ChanId) (sender : CStr) (links : List Member)
    (s : Server) (b : ModeBuf) : Mute s (Server.sjoinTakeFlags sptr c sender links s b).1 := by
  induction links generalizing s b with
  | nil => exact same rfl
  | cons link links ih =>
    unfold Server.sjoinTakeFlags
    exact (sjoinTakeFlag ..).trans ((sjoinTakeFlag ..).trans (ih _ _))

theorem sjoinTsZero (sptr : ClientId) (c : ChanId) (req : SjoinRequest) (isnew : Bool) :
    Mute s (s.sjoinTsZero sptr c req isnew) := by
  unfold Server.sjoinTsZero
  dsimp only
  split
  · exact (butserv ..).trans (emit rfl)
  · exact same rfl

theorem sjoinModeChanges (sptr : ClientId) (c : ChanId) (req : SjoinRequest) (ts : SjoinTs)
    (oldts : Int) : Mute s (s.sjoinModeChanges sptr c req ts oldts) := by
  unfold Server.sjoinModeChanges
  dsimp only
  have shown (s : Server) (b : ModeBuf) :
      Mute s (if b.mbuf ≠ [] then s.sjoinSendit sptr c req.sender b else s) := by
    split
    · exact butserv ..
    · exact same rfl
  have written (s : Server) (ch : Channel) : Mute s (s.setChan c ch) := same rfl
  split
  · exact (written _ _).trans (shown _ _)
  · refine Mute.trans ?_ (shown _ _)
    exact (written _ _).trans ((sjoinTakeFlags ..).trans ((written _ _).trans (butserv ..)))

theorem giveFlag (st : SjoinLoop) (sptr : ClientId) (c : ChanId) (sender : CStr) (has : Bool)
    (letter : Char) (name : CStr) :
    Mute st.srv (st.giveFlag sptr c sender has letter name).srv := by
  unfold SjoinLoop.giveFlag
  split
  · exact sjoinFlush ..
  · exact same rfl

theorem nick (st : SjoinLoop) (cptr sptr : ClientId) (c : ChanId) (req : SjoinRequest)
    (keep : Bool) (s0 : CStr) : Mute st.srv (st.nick cptr sptr c req keep s0).srv := by
  unfold SjoinLoop.nick Server.findChasing
  cases found : st.srv.chase (stripPrefixes s0) with
  | none => exact emit rfl
  | some a =>
    dsimp only
    split
    · exact same rfl
    · unfold SjoinLoop.admitClient
      dsimp only
      refine Mute.trans ?_ ((giveFlag ..).trans (giveFlag ..))
      dsimp only
      split
      · exact same rfl
      · refine Mute.trans ?_ (butserv ..)
        unfold Server.addUserToChannel
        split
        · exact same (Server.touch_sent _ _)
        · exact same rfl

theorem nicks (cptr sptr : ClientId) (c : ChanId) (req : SjoinRequest) (keep : Bool)
    (toks : List CStr) (st : SjoinLoop) :
    Mute st.srv (toks.foldl (fun st s0 => st.nick cptr sptr c req keep s0) st).srv := by
  induction toks generalizing st with
  | nil => exact same rfl
  | cons s0 toks ih => exact (nick ..).trans (ih _)

theorem sjoinHeard (cptr sptr : ClientId) (c : ChanId) (req : SjoinRequest) (header : CStr)
    (st : SjoinLoop) (elsewhere : isLocalName (st.srv.chan c).chname = false) :
    ∃ out, (Server.sjoinRelay cptr sptr c req header st).sent = st.srv.sent ++ out ∧
      serverLines out =
        if st.people = 0 then [] else [cString header ++ st.text.dropLast] := by
  unfold Server.sjoinRelay
  dsimp only
  generalize shown : (if st.buf.pargs ≠ 0 then st.srv.sjoinSendit sptr c req.sender st.buf
    else st.srv) = s₁
  have quiet : Mute st.srv s₁ := by
    subst shown
    split
    · exact butserv ..
    · exact same rfl
  have named : (s₁.chan c).chname = (st.srv.chan c).chname := by
    subst shown
    split <;> simp
  obtain ⟨out, sent, none⟩ := quiet.tells
  by_cases nobody : st.people = 0
  · rw [if_neg (not_not.mpr nobody), if_pos nobody]
    exact ⟨out, sent, none⟩
  · rw [if_pos nobody, if_neg nobody]
    refine ⟨out ++ [.matchServs (some (s₁.chan c).chname) cptr
      (cString header ++ st.text.dropLast)], ?_, ?_⟩
    · unfold Server.sendtoMatchServs
      rw [← named] at elsewhere
      simp only [elsewhere, Bool.false_eq_true, if_false, Server.emit, Server.touch_sent, sent]
      rw [List.append_assoc]
    · rw [serverLines, List.filterMap_append]
      exact congrArg (· ++ _) none

end Mute

section Command

variable {s : Server} {t : Tables} {cptr sptr : ClientId} {c : ChanId} {req : SjoinRequest}
  {isnew : Bool} {before : Option Channel}

theorem sjoinChannelWrites_eq (s : Server) (cptr sptr : ClientId) (c : ChanId) (req : SjoinRequest)
    (isnew : Bool) : s.sjoinChannelWrites cptr sptr c req isnew =
      ((tokens isBlank req.nicks).foldl
        (fun st s0 => RelayLoop.nick st cptr sptr c req (s.sjoinTsOf c req isnew).keepNewModes s0)
        { loop := { srv := s.decided sptr c req isnew, text := [], people := 0, buf := ModeBuf.plus }
          buf := RelayBuf.start.print ((s.decided sptr c req isnew).sjoinHeader sptr c req
            (s.sjoinTsOf c req isnew)) }).buf := rfl

theorem sjoinChannel_eq (s : Server) (cptr sptr : ClientId) (c : ChanId) (req : SjoinRequest)
    (isnew : Bool) : s.sjoinChannel cptr sptr c req isnew =
      Server.sjoinRelay cptr sptr c req
        ((s.decided sptr c req isnew).sjoinHeader sptr c req (s.sjoinTsOf c req isnew))
        ((s.decided sptr c req isnew).sjoinNicks cptr sptr c req
          (s.sjoinTsOf c req isnew).keepNewModes) := rfl

theorem nicksLength_eq (found : Found (s.chan c) isnew before) :
    ((req.accepted t cptr).map fun s0 =>
      (relayedNick (s.sjoinTsOf c req isnew).keepNewModes s0).length + 1).sum =
      req.nicksLength t cptr before := by
  have keep : (s.sjoinTsOf c req isnew).keepNewModes = _ := (SjoinRequest.sjoinTs_stamp found).2
  rw [keep]
  rfl

theorem decided_directory (directory : Tables.SameDirectory t s.toTables) :
    Tables.SameDirectory t (s.decided sptr c req isnew).toTables := by
  rw [Server.decided_toTables]
  exact directory.trans (Tables.sameDirectory_setChan _ _ _)

variable (directory : Tables.SameDirectory t s.toTables) (found : Found (s.chan c) isnew before)
  {sees : Bool} (sight : (s.isMember sptr c || (s.client sptr).isServer) = sees)
  (sender : NulFree req.sender) (name : NulFree req.name) (oldKey : NulFree (s.chan c).mode.key)
  (newKey : NulFree req.mode.key)

include directory found sight sender name oldKey newKey

theorem sjoinChannel_written :
    (s.sjoinChannelWrites cptr sptr c req isnew).written =
      max (req.headerLength before sees + 1)
        (req.nicksFrom before sees + req.nicksLength t cptr before) := by
  have header : ((s.decided sptr c req isnew).sjoinHeader sptr c req
      (s.sjoinTsOf c req isnew)).length = req.headerLength before sees :=
    Server.header_length found sight
  have cut := Server.header_end found sight sender name oldKey newKey
  rw [sjoinChannelWrites_eq]
  generalize (s.decided sptr c req isnew).sjoinHeader sptr c req (s.sjoinTsOf c req isnew) = text
    at header cut ⊢
  obtain ⟨relays, -⟩ := @relayLoop_run cptr sptr c req (s.sjoinTsOf c req isnew).keepNewModes t
    (tokens isBlank req.nicks)
    { loop := { srv := s.decided sptr c req isnew, text := [], people := 0, buf := ModeBuf.plus }
      buf := RelayBuf.start.print text } (decided_directory directory)
  have begins : (RelayBuf.start.print text).t = req.nicksFrom before sees :=
    (Nat.zero_add _).trans cut
  have filled : (RelayBuf.start.print text).written = req.headerLength before sees + 1 := by
    simp only [RelayBuf.print, RelayBuf.start, header]
    omega
  -- the NUL is written behind the header, so the nicks start no later
  have inside : (RelayBuf.start.print text).t ≤ (RelayBuf.start.print text).written := by
    have shorter : (cString text).length ≤ text.length :=
      (List.takeWhile_prefix _).length_le
    rw [begins, filled]
    omega
  have entered := enter_all ((req.accepted t cptr).map fun s0 =>
    relayedNick (s.sjoinTsOf c req isnew).keepNewModes s0) _ inside
  rw [List.foldl_map, List.map_map, begins, filled] at entered
  have lengths := @nicksLength_eq s t cptr c req isnew before found
  have sums : ((req.accepted t cptr).map ((fun nick : CStr => nick.length + 1) ∘
      relayedNick (s.sjoinTsOf c req isnew).keepNewModes)).sum = req.nicksLength t cptr before :=
    lengths
  rw [← sums, ← entered]
  exact congrArg RelayBuf.written relays.buf

theorem sjoinChannel_heard (elsewhere : isLocalName (s.chan c).chname = false) :
    ∃ out, (s.sjoinChannel cptr sptr c req isnew).sent = s.sent ++ out ∧
      (req.accepted t cptr = [] → serverLines out = []) ∧
      (req.accepted t cptr ≠ [] → ∃ line, serverLines out = [line] ∧
        line.length + 1 = req.nicksFrom before sees + req.nicksLength t cptr before) := by
  have cut := Server.header_end found sight sender name oldKey newKey
  rw [sjoinChannel_eq]
  generalize (s.decided sptr c req isnew).sjoinHeader sptr c req (s.sjoinTsOf c req isnew) = text
    at cut ⊢
  obtain ⟨relays, loop⟩ := @relayLoop_run cptr sptr c req (s.sjoinTsOf c req isnew).keepNewModes t
    (tokens isBlank req.nicks)
    { loop := { srv := s.decided sptr c req isnew, text := [], people := 0, buf := ModeBuf.plus }
      buf := RelayBuf.start.print text } (decided_directory directory)
  have written : ((s.decided sptr c req isnew).sjoinNicks cptr sptr c req
      (s.sjoinTsOf c req isnew).keepNewModes).text = (req.accepted t cptr).flatMap fun s0 =>
        relayedNick (s.sjoinTsOf c req isnew).keepNewModes s0 ++ [' '] :=
    (congrArg SjoinLoop.text loop).symm.trans (relays.text.trans (List.nil_append _))
  have counted : ((s.decided sptr c req isnew).sjoinNicks cptr sptr c req
      (s.sjoinTsOf c req isnew).keepNewModes).people = (req.accepted t cptr).length :=
    (congrArg SjoinLoop.people loop).symm.trans (relays.people.trans (Nat.zero_add _))
  have entered : Mute (s.decided sptr c req isnew)
      ((s.decided sptr c req isnew).sjoinNicks cptr sptr c req
        (s.sjoinTsOf c req isnew).keepNewModes).srv :=
    Mute.nicks cptr sptr c req (s.sjoinTsOf c req isnew).keepNewModes (tokens isBlank req.nicks)
      { srv := s.decided sptr c req isnew, text := [], people := 0, buf := ModeBuf.plus }
  have named : (((s.decided sptr c req isnew).sjoinNicks cptr sptr c req
      (s.sjoinTsOf c req isnew).keepNewModes).srv.chan c).chname = (s.chan c).chname := by
    rw [Server.sjoinNicks_toTables]
    have same := (Tables.sameChannels_admitNicks cptr c (s.sjoinTsOf c req isnew).keepNewModes
      (s.decided sptr c req isnew).toTables (tokens isBlank req.nicks)).settings c
    rw [same.chname, Server.decided_toTables]
    simp only [Tables.setChan, Function.update_self]
    exact (Tables.sjoinDecided_settings _ _ _).1
  have lengths := @nicksLength_eq s t cptr c req isnew before found
  generalize (s.decided sptr c req isnew).sjoinNicks cptr sptr c req
    (s.sjoinTsOf c req isnew).keepNewModes = st at written counted entered named ⊢
  have decides : Mute s (s.decided sptr c req isnew) :=
    (Mute.sjoinTsZero sptr c req isnew).trans (Mute.sjoinModeChanges ..)
  -- nothing goes to the servers before the line itself
  obtain ⟨first, sent, none⟩ := (decides.trans entered).tells
  rw [← named] at elsewhere
  obtain ⟨last, relayed, lines⟩ := Mute.sjoinHeard cptr sptr c req text st elsewhere
  refine ⟨first ++ last, by rw [relayed, sent, List.append_assoc], ?_, ?_⟩
  · intro nobody
    rw [nobody, List.length_nil] at counted
    rw [serverLines, List.filterMap_append, ← serverLines, ← serverLines, none, lines,
      if_pos counted, List.append_nil]
  · intro somebody
    have people : st.people ≠ 0 := by
      rw [counted]
      exact fun zero => somebody (List.eq_nil_of_length_eq_zero zero)
    -- the blank behind the last nick is cut off
    refine ⟨cString text ++ st.text.dropLast, ?_, ?_⟩
    · rw [serverLines, List.filterMap_append, ← serverLines, ← serverLines, none, lines,
        if_neg people, List.nil_append]
    · have length : st.text.length = req.nicksLength t cptr before := by
        rw [written, List.length_flatMap, ← lengths]
        simp only [List.length_append, List.length_singleton]
      have some : 0 < st.text.length := by
        obtain ⟨s0, rest, cons⟩ := List.exists_cons_of_ne_nil somebody
        rw [written, cons]
        simp
      rw [List.length_append, List.length_dropLast, cut, ← length]
      omega

end Command

theorem sentWhole_iff (line : CStr) : SentWhole line ↔ line.length ≤ 510 := by
  rw [SentWhole, endLine, List.append_left_inj, List.take_eq_self_iff]

theorem sjoinChannel_fits_iff {s s' : Server} {cptr sptr : ClientId} {c : ChanId}
    {req : SjoinRequest} {isnew : Bool} {before : Option Channel} {sees : Bool}
    (sent : s'.sent = s.sent) (directory : Tables.SameDirectory s.toTables s'.toTables)
    (found : Found (s'.chan c) isnew before)
    (sight : (s'.isMember sptr c || (s'.client sptr).isServer) = sees)
    (sender : NulFree req.sender) (name : NulFree req.name) (oldKey : NulFree (s'.chan c).mode.key)
    (newKey : NulFree req.mode.key) (elsewhere : isLocalName (s'.chan c).chname = false) :
    ((s'.sjoinChannelWrites cptr sptr c req isnew).written ≤ bufSize ∧
      ∀ line ∈ serverLines ((s'.sjoinChannel cptr sptr c req isnew).sent.drop s.sent.length),
        SentWhole line) ↔
      req.HasRoom s.toTables cptr before sees := by
  have written := @sjoinChannel_written s' s.toTables cptr sptr c req isnew before directory
    found sees sight sender name oldKey newKey
  obtain ⟨out, told, silent, heard⟩ := @sjoinChannel_heard s' s.toTables cptr sptr c req isnew
    before directory found sees sight sender name oldKey newKey elsewhere
  rw [written, told, sent, List.drop_left]
  have size : bufSize = 512 := rfl
  constructor
  · rintro ⟨room, whole⟩
    refine ⟨by omega, fun some => ?_⟩
    obtain ⟨line, only, length⟩ := heard some
    have inside : line ∈ serverLines out := by
      rw [only]
      exact List.mem_singleton_self _
    have short := (sentWhole_iff line).mp (whole line inside)
    omega
  · rintro ⟨header, nicks⟩
    -- with nobody accepted no line is sent and only the buffer counts
    by_cases nobody : req.accepted s.toTables cptr = []
    · have none : req.nicksLength s.toTables cptr before = 0 := by
        rw [SjoinRequest.nicksLength, nobody]
        rfl
      have early := req.nicksFrom_le before sees
      refine ⟨by omega, ?_⟩
      rw [silent nobody]
      exact fun line absurdity => by cases absurdity
    · have room := nicks nobody
      obtain ⟨line, only, length⟩ := heard nobody
      refine ⟨by omega, ?_⟩
      rw [only]
      intro line' inside
      rw [List.mem_singleton.mp inside]
      apply (sentWhole_iff line).mpr
      omega

theorem isLocalName_congr {name name' : CStr} (same : irccmp name name' = .eq) :
    isLocalName name = isLocalName name' := by
  have heads := congrArg List.head? ((irccmp_eq_iff _ _).mp same)
  rw [List.head?_map, List.head?_map] at heads
  have ampersand {c : Char} (upper : toUpper c = '&') : c = '&' := by
    have code := congrArg Char.toNat upper
    have amp : ('&' : Char).toNat = 38 := rfl
    rw [toNat_toUpper, amp] at code
    apply Char.toNat_inj.mp
    rw [amp]
    split at code <;> omega
  have one {a b : Option Char} (same : a.map toUpper = b.map toUpper) (amp : a = some '&') :
      b = some '&' := by
    subst amp
    obtain ⟨c, rfl, upper⟩ := Option.map_eq_some_iff.mp same.symm
    rw [ampersand (upper.trans (by decide))]
  rw [isLocalName, isLocalName, Bool.eq_iff_iff, beq_iff_eq, beq_iff_eq]
  exact ⟨one heads, one heads.symm⟩

theorem nulFree_param {parv : List CStr} (strings : ∀ para ∈ parv, NulFree para) (i : Nat) :
    NulFree (paramAt parv i) := by
  unfold paramAt
  rw [List.getD_eq_getElem?_getD]
  cases there : parv[i]? with
  | none => exact fun c absurdity => by cases absurdity
  | some para => exact strings para (List.mem_of_getElem? there)

theorem nulFree_sjoinModes {parv : List CStr} (strings : ∀ para ∈ parv, NulFree para)
    {letters : CStr} {mode mode' : Mode} {args args' : Nat} (key : NulFree mode.key)
    (parsed : sjoinModes parv letters mode args = some (mode', args')) : NulFree mode'.key := by
  induction letters generalizing mode args with
  | nil =>
    cases parsed
    exact key
  | cons c letters ih =>
    unfold sjoinModes at parsed
    split at parsed
    next absurdity => cases absurdity
    next same =>
      cases same
      split at parsed
      · cases parsed
      · exact ih (fun c inside => nulFree_param strings _ c (List.mem_of_mem_take inside)) parsed
    next same =>
      cases same
      split at parsed
      · cases parsed
      · apply ih _ parsed
        exact key
    next same =>
      cases same
      split at parsed
      · apply ih _ parsed
        exact key
      · exact ih key parsed

theorem parseSjoin_strings {t : Tables} {sptr : ClientId} {parv : List CStr} {req : SjoinRequest}
    (strings : ∀ para ∈ parv, NulFree para) (parsed : parseSjoin t sptr parv = some req) :
    NulFree req.sender ∧ NulFree req.name ∧ NulFree req.mode.key ∧ isLocalName req.name = false := by
  unfold parseSjoin at parsed
  split at parsed
  · cases parsed
  split at parsed
  · cases parsed
  split at parsed
  · cases parsed
  split at parsed
  · cases parsed
  next elsewhere =>
  split at parsed
  · cases parsed
  next mode args letters =>
    cases parsed
    have keyless : NulFree Mode.zero.key := fun c absurdity => by cases absurdity
    exact ⟨nulFree_param strings 0, nulFree_param strings 2, nulFree_sjoinModes strings keyless letters,
      Bool.eq_false_of_not_eq_true elsewhere⟩

/-- An SJOIN stays inside `sjbuf`, and what goes out of it is sent whole, if and only if the
merged line has room. -/
theorem mSjoin_fits_iff (s : Server) (cptr sptr : ClientId) (parv : List CStr)
    (strings : ∀ para ∈ parv, NulFree para) (keys : ∀ c, NulFree (s.chan c).mode.key) :
    (sjoinWritten s cptr sptr parv ≤ bufSize ∧
      ∀ line ∈ serverLines ((mSjoin s cptr sptr parv).sent.drop s.sent.length), SentWhole line) ↔
    SjoinHasRoom s.toTables cptr sptr parv := by
  -- a request that is refused writes nothing
  cases parsed : parseSjoin s.toTables sptr parv with
  | none =>
    have written : sjoinWritten s cptr sptr parv = 1 := by
      rw [sjoinWritten, parsed]
      rfl
    have same : mSjoin s cptr sptr parv = s := by
      rw [mSjoin, parsed]
    rw [written, same, List.drop_length]
    refine iff_of_true ⟨by decide, fun line inside => by cases inside⟩ ?_
    intro req some
    rw [parsed] at some
    cases some
  | some req =>
    obtain ⟨server, named⟩ := parseSjoin_sender parsed
    obtain ⟨sender, name, newKey, elsewhere⟩ := parseSjoin_strings strings parsed
    have one : SjoinHasRoom s.toTables cptr sptr parv ↔ req.HasRoom s.toTables cptr
        (s.channelBefore req.name) (s.sjoinSight sptr req.name) := by
      constructor
      · exact fun room => room req parsed
      · intro room req' same
        rw [parsed] at same
        cases same
        exact room
    have written : sjoinWritten s cptr sptr parv = (s.sjoinRunWrites cptr sptr req).written := by
      rw [sjoinWritten, parsed]
    have runs : mSjoin s cptr sptr parv = s.sjoinRun cptr sptr req := by
      rw [mSjoin, parsed]
    have uncut : s.channelNameFor sptr req.name = req.name := by
      simp [Server.channelNameFor, Client.myClient, server]
    have looked : s.getChannel sptr req.name true = (s.hashFindChannel req.name).elim
        (s.edit (·.createChannel req.name), some s.nextChan) fun c => (s, some c) := by
      unfold Server.getChannel
      rw [if_neg named]
      dsimp only
      rw [uncut]
      cases s.hashFindChannel req.name <;> rfl
    rw [one, written, runs]
    unfold Server.sjoinRunWrites Server.sjoinRun Tables.channelBefore Tables.sjoinSight
    rw [looked]
    cases found : s.hashFindChannel req.name with
    | some c =>
      have listed : irccmp req.name (s.chan c).chname = .eq := by
        simpa using List.find?_some found
      exact sjoinChannel_fits_iff rfl (.refl _) .there rfl sender name (keys c) newKey
        ((isLocalName_congr listed).symm.trans elsewhere)
    | none =>
      have block : (s.edit (·.createChannel req.name)).chan s.nextChan =
          freshChannel req.name s.currentTime := Function.update_self ..
      have directory : Tables.SameDirectory s.toTables
          (s.edit (·.createChannel req.name)).toTables :=
        Tables.sameDirectory_createChannel _ _
      refine sjoinChannel_fits_iff rfl directory ?_ rfl sender name ?_ newKey ?_
      · exact .fresh (congrArg Channel.mode block)
      · rw [block]
        exact fun c absurdity => by cases absurdity
      · rw [block]
        exact elsewhere

def linkedServer : Server :=
  ((Server.startUp (lit "irc.net") 100000).edit (·.addClient 1 linkOne)).edit (·.addClient 2 anna)

def threeNicks : List CStr :=
  [lit "one.net", lit "1000000000", lit "#d", lit "+ntlk", lit "5", lit "sesame", lit "@anna +bob @+cid"]

def threeServer : Server :=
  (linkedServer.edit (·.addClient 3 { anna with name := lit "bob" })).edit
    (·.addClient 4 { anna with name := lit "cid" })

theorem threeServer_fits_iff :
    (sjoinWritten threeServer 1 1 threeNicks ≤ bufSize ∧
      ∀ line ∈ serverLines ((mSjoin threeServer 1 1 threeNicks).sent.drop threeServer.sent.length),
        SentWhole line) ↔
    SjoinHasRoom threeServer.toTables 1 1 threeNicks := by
  apply mSjoin_fits_iff
  · decide
  · intro c x inside
    cases inside

instance (line : CStr) : Decidable (SentWhole line) := inferInstanceAs (Decidable (_ = _))

/-- anna is on `#d`, which has a limit and a long key. -/
def keyedLink : Server :=
  mSjoin linkedServer 1 1 [lit "one.net", lit "1000000000", lit "#d", lit "+lk", lit "100",
    lit "abcdefghijklmnopqrstuvw", lit "anna"]

def annas : CStr := (List.replicate 94 (lit "anna ")).flatten ++ lit "anna"

theorem keyedLink_overflows :
    (lit ":one.net SJOIN 1000000000 #d + :" ++ annas).length = 506 ∧
      sjoinWritten keyedLink 1 1 [lit "one.net", lit "1000000000", lit "#d", lit "+", annas] = 537 ∧
      ¬ ∀ line ∈ serverLines ((mSjoin keyedLink 1 1
        [lit "one.net", lit "1000000000", lit "#d", lit "+", annas]).sent.drop
          keyedLink.sent.length), SentWhole line := by
  refine ⟨?_, ?_, ?_⟩
  · decide +kernel
  · decide +kernel
  · decide +kernel

end Ircd
