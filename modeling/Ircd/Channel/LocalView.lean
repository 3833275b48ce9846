import Ircd.Channel.SjoinEffect
import Mathlib.Data.Finset.Image

/-! A channel as a local member sees it, kept up to date from the JOIN and MODE lines.

The member knows the others by nick, so the sets hold nicks in upper case. A line is read
back from its words, as far as it got through the cut; `ModeBuf.Tells` says what a mode buffer
makes a reader do.
-/

set_option autoImplicit false

namespace Ircd

def isBlankFree (s : CStr) : Prop := ∀ c ∈ s, isBlank c = false

def IsWord (s : CStr) : Prop := s ≠ [] ∧ isBlankFree s

instance (s : CStr) : Decidable (isBlankFree s) :=
  inferInstanceAs (Decidable (∀ c ∈ s, isBlank c = false))

instance (s : CStr) : Decidable (IsWord s) :=
  inferInstanceAs (Decidable (s ≠ [] ∧ isBlankFree s))

def words (line : CStr) : List CStr := tokens isBlank line

theorem words_cons {word rest : CStr} (h : IsWord word) :
    words (word ++ ' ' :: rest) = word :: words rest := by
  have whole : tokensFrom isBlank [] word = if [].reverse ++ word = [] then [] else
      [[].reverse ++ word] := tokensFrom_of_no_sep h.2
  rw [words, tokens, tokensFrom_append isBlank ' ' rfl, whole, List.reverse_nil, List.nil_append,
    if_neg h.1]
  rfl

theorem words_of_isWord {word : CStr} (h : IsWord word) : words word = [word] := by
  have whole : tokensFrom isBlank [] word = if [].reverse ++ word = [] then [] else
      [[].reverse ++ word] := tokensFrom_of_no_sep h.2
  rw [words, tokens, whole, List.reverse_nil, List.nil_append, if_neg h.1]

theorem words_flatMap {args : List CStr} (h : ∀ a ∈ args, IsWord a) :
    words (args.flatMap (· ++ [' '])) = args := by
  induction args with
  | nil => rfl
  | cons a args ih =>
    have rest := ih fun b inside => h b (List.mem_cons_of_mem _ inside)
    rw [List.flatMap_cons, List.append_assoc, List.singleton_append,
      words_cons (h a List.mem_cons_self), rest]

theorem isBlankFree_append {a b : CStr} (ha : isBlankFree a) (hb : isBlankFree b) :
    isBlankFree (a ++ b) := by
  intro c inside
  cases List.mem_append.1 inside with
  | inl left => exact ha c left
  | inr right => exact hb c right

def foldNick (nick : CStr) : CStr := nick.map toUpper

@[ext]
structure LocalView where
  mode : Mode
  members : Finset CStr
  ops : Finset CStr
  voices : Finset CStr

namespace LocalView

variable (v : LocalView)

def setFlag (f : ModeFlag) (on : Bool) : LocalView :=
  { v with mode := { v.mode with mode := Function.update v.mode.mode f on } }

def setFlags (modes : ModeFlag → Bool) : LocalView := { v with mode := { v.mode with mode := modes } }

def setLimit (n : Int) : LocalView := { v with mode := { v.mode with limit := n } }

def setKey (key : CStr) : LocalView := { v with mode := { v.mode with key := key } }

def setOp (on : Bool) (nick : CStr) : LocalView :=
  { v with ops := if on then insert (foldNick nick) v.ops else v.ops.erase (foldNick nick) }

def setVoice (on : Bool) (nick : CStr) : LocalView :=
  { v with voices := if on then insert (foldNick nick) v.voices else v.voices.erase (foldNick nick) }

def join (nick : CStr) : LocalView := { v with members := insert (foldNick nick) v.members }

end LocalView

structure ModeReader where
  plus : Bool
  args : List CStr
  view : LocalView

namespace ModeReader

def withArg (r : ModeReader) (f : LocalView → CStr → LocalView) : ModeReader :=
  match r.args with
  | [] => r
  | a :: args => { r with args := args, view := f r.view a }

def letter (r : ModeReader) (c : Char) : ModeReader :=
  if c = '+' then { r with plus := true }
  else if c = '-' then { r with plus := false }
  else if c = 'o' then r.withArg fun v a => v.setOp r.plus a
  else if c = 'v' then r.withArg fun v a => v.setVoice r.plus a
  else if c = 'k' then r.withArg fun v a => v.setKey (if r.plus then a else [])
  else if c = 'l' then
    if r.plus then r.withArg fun v a => v.setLimit (atoi a) else { r with view := r.view.setLimit 0 }
  else
    match modeOfLetter c with
    | some f => { r with view := r.view.setFlag f r.plus }
    | none => r

section Letters

variable (v : LocalView) (arg : CStr) (more : List CStr) (on : Bool)

theorem limit_off : letter ⟨false, more, v⟩ 'l' = ⟨false, more, v.setLimit 0⟩ := rfl

theorem limit_on : letter ⟨true, arg :: more, v⟩ 'l' = ⟨true, more, v.setLimit (atoi arg)⟩ := rfl

theorem key_off : letter ⟨false, arg :: more, v⟩ 'k' = ⟨false, more, v.setKey []⟩ := rfl

theorem key_on : letter ⟨true, arg :: more, v⟩ 'k' = ⟨true, more, v.setKey arg⟩ := rfl

theorem op : letter ⟨on, arg :: more, v⟩ 'o' = ⟨on, more, v.setOp on arg⟩ := rfl

theorem voice : letter ⟨on, arg :: more, v⟩ 'v' = ⟨on, more, v.setVoice on arg⟩ := rfl

end Letters

def read (r : ModeReader) (letters : CStr) : ModeReader := letters.foldl letter r

/-- Modes and members do not meet, so a JOIN may come before the letters or behind them. -/
def join (r : ModeReader) (nick : CStr) : ModeReader := { r with view := r.view.join nick }

theorem letter_join (r : ModeReader) (nick : CStr) (c : Char) :
    (r.join nick).letter c = (r.letter c).join nick := by
  have withArg : ∀ f : LocalView → CStr → LocalView,
      (∀ v a, f (v.join nick) a = (f v a).join nick) →
      (r.join nick).withArg f = (r.withArg f).join nick := by
    intro f commutes
    unfold ModeReader.withArg
    rw [show (r.join nick).args = r.args from rfl]
    cases r.args with
    | nil => rfl
    | cons a args =>
      show (⟨r.plus, args, f (r.view.join nick) a⟩ : ModeReader) = ⟨r.plus, args, _⟩
      rw [commutes]
  unfold letter
  rw [show (r.join nick).plus = r.plus from rfl]
  split
  · rfl
  split
  · rfl
  split
  · exact withArg _ fun _ _ => rfl
  split
  · exact withArg _ fun _ _ => rfl
  split
  · exact withArg _ fun _ _ => rfl
  split
  · split
    · exact withArg _ fun _ _ => rfl
    · rfl
  · cases modeOfLetter c <;> rfl

theorem read_join (r : ModeReader) (nick letters : CStr) :
    (r.join nick).read letters = (r.read letters).join nick := by
  induction letters generalizing r with
  | nil => rfl
  | cons c letters ih =>
    show ((r.join nick).letter c).read letters = _
    rw [letter_join, ih]
    rfl

theorem read_append (r : ModeReader) (a b : CStr) : r.read (a ++ b) = (r.read a).read b :=
  List.foldl_append

end ModeReader

def unColon (param : CStr) : CStr := if param.head? = some ':' then param.tail else param

/-- The nick of a source, which may go on with the user and the host. -/
def nickOf (source : CStr) : CStr := source.tail.takeWhile fun c => c != '!' && c != '@'

/-- A line that the members of the channel `chname` receive; any other line of the channel
tells nothing about its state. -/
def LocalView.hear (v : LocalView) (chname line : CStr) : LocalView :=
  match words line with
  | source :: command :: chan :: rest =>
    if command = lit "JOIN" ∧ irccmp (unColon chan) chname = .eq then
      v.join (nickOf source)
    else if command = lit "MODE" ∧ irccmp chan chname = .eq then
      match rest with
      | letters :: args => (ModeReader.read ⟨true, args, v⟩ letters).view
      | [] => v
    else v
  | _ => v

def LocalView.watch (t : Tables) (chname : CStr) (v : LocalView) : Output → LocalView
  | .channelButserv name source line =>
    if name = chname then v.hear chname (t.outbuf source line) else v
  | _ => v

def isChange : List CStr → Bool
  | _ :: command :: _ => command == lit "JOIN" || command == lit "MODE"
  | _ => false

def Output.butserv (chname : CStr) : Output → Option (ClientId × CStr)
  | .channelButserv name source line => if name = chname then some (source, line) else none
  | _ => none

/-- The cut at 510 characters takes no word of a JOIN or MODE line, nor a part of one. -/
def Output.Whole (t : Tables) (chname : CStr) (o : Output) : Prop :=
  ∀ line ∈ o.butserv chname, isChange (words (t.prefixed line.1 line.2)) = true →
    words (t.outbuf line.1 line.2) = words (t.prefixed line.1 line.2)

instance (t : Tables) (chname : CStr) (o : Output) : Decidable (o.Whole t chname) :=
  inferInstanceAs (Decidable (∀ line ∈ o.butserv chname,
    isChange (words (t.prefixed line.1 line.2)) = true →
      words (t.outbuf line.1 line.2) = words (t.prefixed line.1 line.2)))

/-- The buffer takes `v` to `v'` and ends under the sign `plus`, whatever arguments follow. -/
structure ModeBuf.Tells (b : ModeBuf) (plus : Bool) (v v' : LocalView) : Prop where
  args : ∃ args, b.parabuf = args.flatMap (· ++ [' ']) ∧ (∀ a ∈ args, IsWord a) ∧
    ∀ more, ModeReader.read ⟨true, args ++ more, v⟩ b.mbuf = ⟨plus, more, v'⟩
  sign : ∀ p, b.what = some p → plus = p
  blankFree : isBlankFree b.mbuf

namespace ModeBuf.Tells

variable {b : ModeBuf} {plus : Bool} {v v' : LocalView}

theorem empty (v : LocalView) : ModeBuf.empty.Tells true v v where
  args := ⟨[], rfl, by simp, fun _ => rfl⟩
  sign _ signed := by cases signed
  blankFree := by simp [isBlankFree, ModeBuf.empty]

theorem same_of_empty (h : b.Tells plus v v') (nothing : b.mbuf = []) : v' = v := by
  obtain ⟨args, _, _, reads⟩ := h.args
  have done := reads []
  rw [nothing] at done
  exact (congrArg ModeReader.view done).symm

/-- The sign that the buffer remembers may be forgotten, or set to the one it ended with. -/
theorem relabel (h : b.Tells plus v v') {what : Option Bool} (sign : ∀ p, what = some p → plus = p) :
    ({ b with what := what } : ModeBuf).Tells plus v v' :=
  ⟨h.args, sign, h.blankFree⟩

theorem reset (h : b.Tells plus v v') : ({ b with what := none } : ModeBuf).Tells plus v v' :=
  h.relabel fun _ signed => (Option.some_ne_none _ signed.symm).elim

theorem join (h : b.Tells plus v v') (nick : CStr) : b.Tells plus (v.join nick) (v'.join nick) := by
  obtain ⟨args, para, isWord, reads⟩ := h.args
  refine ⟨⟨args, para, isWord, fun more => ?_⟩, h.sign, h.blankFree⟩
  have read := ModeReader.read_join ⟨true, args ++ more, v⟩ nick b.mbuf
  rw [reads] at read
  exact read

theorem letter (h : b.Tells plus v v') (on : Bool) {c : Char} {v'' : LocalView}
    (blankFree : isBlank c = false)
    (reads : ∀ more, ModeReader.letter ⟨on, more, v'⟩ c = ⟨on, more, v''⟩) :
    (b.letter on c).Tells on v v'' ∧ (b.letter on c).what = some on := by
  obtain ⟨args, para, isWord, before⟩ := h.args
  unfold ModeBuf.letter
  by_cases signed : b.what = some on
  · rw [if_pos signed]
    have same : plus = on := h.sign on signed
    refine ⟨⟨⟨args, para, isWord, fun more => ?_⟩, fun p sign => ?_, ?_⟩, signed⟩
    · rw [ModeReader.read_append, before, same]
      exact reads more
    · exact Option.some.inj (signed.symm.trans sign)
    · exact isBlankFree_append h.blankFree (by simpa [isBlankFree] using blankFree)
  · rw [if_neg signed]
    refine ⟨⟨⟨args, para, isWord, fun more => ?_⟩, fun p sign => Option.some.inj sign, ?_⟩, rfl⟩
    · have signs : ModeReader.letter ⟨plus, more, v'⟩ (if on then '+' else '-') =
          ⟨on, more, v'⟩ := by
        cases on <;> rfl
      rw [ModeReader.read_append, before]
      exact (congrArg (ModeReader.letter · c) signs).trans (reads more)
    · refine isBlankFree_append h.blankFree ?_
      intro d inside
      rcases List.mem_cons.1 inside with rfl | later
      · cases on <;> rfl
      · rwa [List.mem_singleton.1 later]

theorem letter_para (h : b.Tells plus v v') (on : Bool) {c : Char} {arg : CStr} {v'' : LocalView}
    (blankFree : isBlank c = false) (isWord : IsWord arg)
    (reads : ∀ more, ModeReader.letter ⟨on, arg :: more, v'⟩ c = ⟨on, more, v''⟩) :
    ((b.letter on c).para arg).Tells on v v'' ∧ ((b.letter on c).para arg).what = some on := by
  obtain ⟨args, para, words, before⟩ := h.args
  have grown : ∀ a ∈ args ++ [arg], IsWord a := by
    intro a inside
    cases List.mem_append.1 inside with
    | inl old => exact words a old
    | inr new => rwa [List.mem_singleton.1 new]
  unfold ModeBuf.letter
  -- the sign stands already, or it is written before the letter
  by_cases signed : b.what = some on
  · rw [if_pos signed]
    have same : plus = on := h.sign on signed
    refine ⟨⟨⟨args ++ [arg], ?_, grown, fun more => ?_⟩, fun p sign => ?_, ?_⟩, signed⟩
    · simp [ModeBuf.para, para]
    · rw [List.append_assoc]
      show ModeReader.read _ (b.mbuf ++ [c]) = _
      rw [ModeReader.read_append, before, same]
      exact reads more
    · exact Option.some.inj (signed.symm.trans sign)
    · exact isBlankFree_append h.blankFree (by simpa [isBlankFree] using blankFree)
  · rw [if_neg signed]
    refine ⟨⟨⟨args ++ [arg], ?_, grown, fun more => ?_⟩, fun p sign => Option.some.inj sign, ?_⟩, rfl⟩
    · simp [ModeBuf.para, para]
    · have signs : ModeReader.letter ⟨plus, arg :: more, v'⟩ (if on then '+' else '-') =
          ⟨on, arg :: more, v'⟩ := by
        cases on <;> rfl
      rw [List.append_assoc]
      show ModeReader.read _ (b.mbuf ++ [if on then '+' else '-', c]) = _
      rw [ModeReader.read_append, before]
      exact (congrArg (ModeReader.letter · c) signs).trans (reads more)
    · refine isBlankFree_append h.blankFree ?_
      intro d inside
      rcases List.mem_cons.1 inside with rfl | later
      · cases on <;> rfl
      · rwa [List.mem_singleton.1 later]

end ModeBuf.Tells

def Lettered (f : ModeFlag × Char) : Prop :=
  isBlank f.2 = false ∧ ∀ (on : Bool) (more : List CStr) (v : LocalView),
    ModeReader.letter ⟨on, more, v⟩ f.2 = ⟨on, more, v.setFlag f.1 on⟩

theorem lettered_sjoinFlags : ∀ f ∈ sjoinFlags, Lettered f := by
  intro f inside
  simp only [sjoinFlags, List.mem_cons, List.not_mem_nil, or_false] at inside
  rcases inside with rfl | rfl | rfl | rfl | rfl | rfl <;> exact ⟨rfl, fun _ _ _ => rfl⟩

theorem isBlank_of_isDigit {c : Char} (h : isDigit c = true) : isBlank c = false := by
  rw [isBlank, beq_eq_false_iff_ne]
  rintro rfl
  cases h

theorem isWord_formatD {v : Int} (h : -(2 ^ 31) ≤ v) (h' : v < 2 ^ 31) : IsWord (formatD v) := by
  have digits : isBlankFree ((padded 12 v.natAbs).dropWhile (· == '0')) := fun c inside =>
    isBlank_of_isDigit (isDigit_of_mem_padded ((List.dropWhile_sublist _).subset inside))
  unfold formatD
  split
  · exact ⟨List.cons_ne_nil _ _, by simp [isBlankFree, isBlank]⟩
  · next nonzero =>
    have some : (padded 12 v.natAbs).dropWhile (· == '0') ≠ [] :=
      dropWhile_zero_ne_nil (by omega) (by omega)
    split
    · refine ⟨List.cons_ne_nil _ _, fun c inside => ?_⟩
      cases List.mem_cons.1 inside with
      | inl sign => rw [sign]; rfl
      | inr digit => exact digits c digit
    · exact ⟨some, digits⟩

namespace ModeBuf.Tells

variable {b : ModeBuf} {plus : Bool} {v v' : LocalView}

/-- The view once the flags that `new` has over `old` are switched. -/
def switched (old new : Mode) (on : Bool) (v : LocalView) : LocalView :=
  sjoinFlags.foldl (fun v f => if new.mode f.1 && !old.mode f.1 then v.setFlag f.1 on else v) v

theorem flags (h : b.Tells plus v v') (old new : Mode) (on : Bool) :
    ∃ plus', (ModeBuf.flags old new on b).Tells plus' v (switched old new on v') := by
  suffices run : ∀ (list : List (ModeFlag × Char)), (∀ f ∈ list, Lettered f) →
      ∀ (b : ModeBuf) (plus : Bool) (v' : LocalView), b.Tells plus v v' →
      ∃ plus', (list.foldl (fun b f => if new.mode f.1 && !old.mode f.1 then b.letter on f.2 else b)
        b).Tells plus' v (list.foldl
          (fun v f => if new.mode f.1 && !old.mode f.1 then v.setFlag f.1 on else v) v') from
    run sjoinFlags lettered_sjoinFlags b plus v' h
  intro list
  induction list with
  | nil => exact fun _ b plus v' h => ⟨plus, h⟩
  | cons f list ih =>
    intro known b plus v' h
    have rest := ih fun g inside => known g (List.mem_cons_of_mem _ inside)
    simp only [List.foldl_cons]
    by_cases changes : (new.mode f.1 && !old.mode f.1) = true
    · rw [if_pos changes, if_pos changes]
      obtain ⟨blankFree, reads⟩ := known f List.mem_cons_self
      exact rest _ _ _ (h.letter on blankFree fun more => reads on more v').1
    · rw [if_neg changes, if_neg changes]
      exact rest b plus v' h

theorem switched_eq (old new : Mode) (on : Bool) (v : LocalView) :
    switched old new on v =
      v.setFlags fun f => if new.mode f && !old.mode f then on else v.mode.mode f := by
  -- the letters differ, so each of them sets its own flag once
  have run : ∀ (list : List (ModeFlag × Char)) (v : LocalView),
      list.foldl (fun v f => if new.mode f.1 && !old.mode f.1 then v.setFlag f.1 on else v) v =
        v.setFlags fun f => if f ∈ list.map Prod.fst ∧ (new.mode f && !old.mode f) = true then on
          else v.mode.mode f := by
    intro list
    induction list with
    | nil => intro v; simp [LocalView.setFlags]
    | cons g list ih =>
      intro v
      have later : ∀ f, f ≠ g.1 →
          (f ∈ (g :: list).map Prod.fst ↔ f ∈ list.map Prod.fst) := by
        intro f other
        rw [List.map_cons, List.mem_cons]
        exact or_iff_right other
      rw [List.foldl_cons, ih]
      by_cases changes : (new.mode g.1 && !old.mode g.1) = true
      · rw [if_pos changes]
        refine congrArg v.setFlags (funext fun f => ?_)
        by_cases same : f = g.1
        · subst same
          simp [changes, LocalView.setFlag]
        · simp only [LocalView.setFlag, Function.update_of_ne same, later f same]
      · rw [if_neg changes]
        refine congrArg v.setFlags (funext fun f => ?_)
        by_cases same : f = g.1
        · subst same
          simp [changes]
        · simp only [later f same]
  have all : ∀ f : ModeFlag, f ∈ sjoinFlags.map Prod.fst := by
    intro f
    cases f <;> decide
  rw [switched, run]
  simp only [all, true_and]

theorem switched_twice (old new : Mode) (v : LocalView) (mode : v.mode = old) :
    switched new old false (switched old new true v) = v.setFlags new.mode := by
  rw [switched_eq, switched_eq]
  refine congrArg v.setFlags (funext fun f => ?_)
  simp only [LocalView.setFlags, mode]
  cases old.mode f <;> cases new.mode f <;> rfl

theorem when (h : b.Tells plus v v') {p : Prop} [Decidable p] {b' : ModeBuf} {v'' : LocalView}
    (step : p → ∃ plus', b'.Tells plus' v v'') :
    ∃ plus', (if p then b' else b).Tells plus' v (if p then v'' else v') := by
  split
  · next holds => exact step holds
  · exact ⟨plus, h⟩

theorem sjoinModeBuf {old new : Mode} {v : LocalView} (mode : v.mode = old)
    (oldKey : old.key ≠ [] → new.key = [] → isBlankFree old.key)
    (newKey : old.key ≠ new.key → isBlankFree new.key)
    (limit : old.limit ≠ new.limit → -(2 ^ 31) ≤ new.limit ∧ new.limit < 2 ^ 31) :
    ∃ plus, (Ircd.sjoinModeBuf old new).Tells plus v { v with mode := new } := by
  obtain ⟨_, first⟩ := (ModeBuf.Tells.empty v).flags old new true
  obtain ⟨_, flags⟩ := first.flags new old false
  rw [switched_twice old new v mode] at flags
  obtain ⟨_, unlimited⟩ := flags.when (p := old.limit ≠ 0 ∧ new.limit = 0) fun _ =>
    ⟨false, (flags.letter false rfl (ModeReader.limit_off _)).1⟩
  obtain ⟨_, unlocked⟩ := unlimited.when (p := old.key ≠ [] ∧ new.key = []) fun gone =>
    ⟨false, (unlimited.letter_para false rfl ⟨gone.1, oldKey gone.1 gone.2⟩ (ModeReader.key_off _ _)).1⟩
  obtain ⟨_, limited⟩ := unlocked.when (p := new.limit ≠ 0 ∧ old.limit ≠ new.limit) fun other =>
    ⟨true, (unlocked.letter_para true rfl (isWord_formatD (limit other.2).1 (limit other.2).2)
      (ModeReader.limit_on _ _)).1⟩
  obtain ⟨plus, locked⟩ := limited.when (p := new.key ≠ [] ∧ old.key ≠ new.key) fun other =>
    ⟨true, (limited.letter_para true rfl ⟨other.1, newKey other.2⟩ (ModeReader.key_on _ _)).1⟩
  have limitSeen : (if new.limit ≠ 0 ∧ old.limit ≠ new.limit then atoi (formatD new.limit)
      else if old.limit ≠ 0 ∧ new.limit = 0 then 0 else old.limit) = new.limit := by
    split
    · next other => exact atoi_formatD (limit other.2).1 (limit other.2).2
    · split <;> omega
  have keySeen : (if new.key ≠ [] ∧ old.key ≠ new.key then new.key
      else if old.key ≠ [] ∧ new.key = [] then [] else old.key) = new.key := by
    by_cases unset : new.key = []
    · by_cases was : old.key = [] <;> simp [unset, was]
    · by_cases same : old.key = new.key <;> simp [unset, same]
  have seen : { v with mode := new } =
      { v with mode := { mode := new.mode
                         limit := if new.limit ≠ 0 ∧ old.limit ≠ new.limit then
                             atoi (formatD new.limit)
                           else if old.limit ≠ 0 ∧ new.limit = 0 then 0 else old.limit
                         key := if new.key ≠ [] ∧ old.key ≠ new.key then new.key
                           else if old.key ≠ [] ∧ new.key = [] then [] else old.key } } := by
    rw [limitSeen, keySeen]
  refine ⟨plus, ?_⟩
  rw [seen, Ircd.sjoinModeBuf]
  convert locked using 1
  subst mode
  split_ifs <;> rfl

end ModeBuf.Tells

end Ircd
