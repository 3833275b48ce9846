import Ircd.Channel.Lifetime
import Ircd.Message.Canonize
import Ircd.Message.MessageTree

/-! `parse`: a line is taken apart in its buffer and handed to the handler of its command.

The blanks behind the command and behind each parameter are overwritten with NULs, and
`para` points into the buffer. A prefix counts on a server link only.
-/

set_option autoImplicit false

namespace Ircd

open CMem

def maxPara : Nat := 15

/-- What a handler gets: `para[0]`, the other pointers of `para` into the buffer, and `parc`. -/
structure Handed where
  from_ : ClientId
  para0 : CStr
  parc : Nat
  para : Nat → Option Nat
  mem : List Char

/-- The strings behind `para[1]` to `para[parc - 1]`. -/
def Handed.params (h : Handed) : List (Option CStr) :=
  (List.range (h.parc - 1)).map fun k => (h.para (k + 1)).map (cAt h.mem)

/-- What `parse` does with a line. -/
inductive ParseOutcome where
  | dead
  | unknownPrefix (sender : CStr)
  | wrongDirection (from_ : ClientId)
  | empty
  | unknownCommand (command : CStr)
  /-- `para` is full; this does not happen. -/
  | overflow
  | doNumeric (numeric : CStr) (h : Handed)
  | handler (mptr : MessageEntry) (h : Handed)
  /-- `ERR_NOTREGISTERED`, or nothing at all on a link that is being made. -/
  | notRegistered
  | listBlocked

def skipSpaces (mem : List Char) (ch : Nat) : Nat :=
  ch + ((cAt mem ch).takeWhile (· == ' ')).length

def wordEnd (mem : List Char) (ch : Nat) : Nat :=
  ch + ((cAt mem ch).takeWhile (· != ' ')).length

def blankSpaces : Nat → List Char → Nat → List Char × Nat
  | 0, mem, s => (mem, s)
  | fuel + 1, mem, s =>
    if mem[s]? = some ' ' then blankSpaces fuel (mem.set s '\x00') (s + 1) else (mem, s)

/-- The prefix and what is behind it; `sender` has room for `HOSTLEN` characters. -/
def cutPrefix (mem : List Char) (ch : Nat) : Option CStr × Nat :=
  if (cAt mem ch).head? = some ':' then
    let stop := wordEnd mem (ch + 1)
    (some (((cAt mem (ch + 1)).takeWhile (· != ' ')).take hostLen), skipSpaces mem stop)
  else (none, ch)

/-- Whether the command at `ch` is a numeric, the buffer when a NUL ends it, and the start of
the parameters. -/
def cutCommand (mem : List Char) (ch : Nat) : Bool × List Char × Option Nat :=
  if mem[ch + 3]? = some ' ' ∧
      (mem[ch]?.any isDigit && mem[ch + 1]?.any isDigit && mem[ch + 2]?.any isDigit) = true then
    (true, mem.set (ch + 3) '\x00', some (ch + 4))
  else
    let s := wordEnd mem ch
    if cAt mem s = [] then (false, mem, none) else (false, mem.set s '\x00', some (s + 1))

/-- The loop over the parameters, where `para` has `slots` free slots from `i` on that leave
one for the NULL. -/
def paramLoop (paramcount : Nat) : Nat → List Char → Nat → Nat → (Nat → Option Nat) →
    Option (List Char × Nat × (Nat → Option Nat))
  | 0, _, _, _, _ => none
  | slots + 1, mem, s, i, para =>
    let (mem, s) := blankSpaces mem.length mem s
    match cAt mem s with
    | [] => some (mem, i, para)
    | c :: _ =>
      if c = ':' then some (mem, i + 1, Function.update para i (some (s + 1)))
      else
        let para := Function.update para i (some s)
        -- The last parameter takes the rest of the line.
        if paramcount ≤ i + 1 then some (mem, i + 1, para)
        else paramLoop paramcount slots mem (wordEnd mem s) (i + 1) para

def takeParams (paramcount : Nat) (mem : List Char) (s : Option Nat) (para : Nat → Option Nat) :
    Option (List Char × Nat × (Nat → Option Nat)) :=
  let loop :=
    match s with
    | none => some (mem, 1, para)
    | some s => paramLoop (min paramcount maxPara) (maxPara - 1) mem s 1 para
  loop.map fun (mem, i, para) => (mem, i, Function.update para i none)

/-- The client that the line is from, where there is one, and `para[0]`. -/
def originOf (t : Tables) (cptr : ClientId) (sender : Option CStr) :
    ParseOutcome ⊕ (ClientId × CStr) :=
  match sender with
  | none => .inr (cptr, t.nameOf cptr)
  | some sender =>
    if sender ≠ [] ∧ (t.client cptr).isServer = true then
      let named := (t.findClient sender).filter fun u => matchMask (t.nameOf u) sender
      match named.or (t.findServer sender) with
      | none => .inl (.unknownPrefix sender)
      | some u => if (t.client u).from_ ≠ cptr then .inl (.wrongDirection u) else .inr (u, sender)
    else .inr (cptr, t.nameOf cptr)

def callHandler (t : Tables) (doingList : Bool) (cptr : ClientId) (mptr : MessageEntry)
    (h : Handed) : ParseOutcome :=
  let registered := (t.client cptr).isServer || (t.client cptr).isClient
  if !registered && !mptr.allowUnregisteredUse then .notRegistered
  else if doingList && !mptr.isList then .listBlocked
  else .handler mptr h

/-- `parse` of the line at `pbuffer`, where `para` is as the last call left it. -/
def parse (t : Tables) (msgTreeRoot : MessageTree) (dead doingList : Bool) (cptr : ClientId)
    (para : Nat → Option Nat) (mem : List Char) (pbuffer : Nat) : ParseOutcome :=
  if dead then .dead
  else
    let (sender, ch) := cutPrefix mem (skipSpaces mem pbuffer)
    match originOf t cptr sender with
    | .inl refused => refused
    | .inr (from_, para0) =>
      if cAt mem ch = [] then .empty
      else
        let (isNumeric, mem, s) := cutCommand mem ch
        if isNumeric then
          match takeParams maxPara mem s para with
          | none => .overflow
          | some (mem, parc, para) => .doNumeric (cAt mem ch) ⟨from_, para0, parc, para, mem⟩
        else
          match treeParse msgTreeRoot (cAt mem ch) with
          | none => .unknownCommand (cAt mem ch)
          | some mptr =>
            match takeParams mptr.parameters mem s para with
            | none => .overflow
            | some (mem, parc, para) =>
              callHandler t doingList cptr mptr ⟨from_, para0, parc, para, mem⟩

def IsField (s : CStr) : Prop := s ≠ [] ∧ ∀ c ∈ s, c ≠ ' '

/-- What may follow the command, where `n` parameters are allowed: middles, and a trailing
one behind a colon or where it is the last that is allowed. -/
inductive Params : Nat → CStr → List CStr → Prop
  | nothing (n k : Nat) : Params n (List.replicate k ' ') []
  | trailing (n k : Nat) (text : CStr) :
      Params (n + 1) (List.replicate (k + 1) ' ' ++ ':' :: text) [text]
  | last (k : Nat) {c : Char} (text : CStr) (first : c ≠ ' ' ∧ c ≠ ':') :
      Params 1 (List.replicate (k + 1) ' ' ++ c :: text) [c :: text]
  | middle {n : Nat} (k : Nat) {middle rest : CStr} {params : List CStr} (word : IsField middle)
      (plain : middle.head? ≠ some ':') (more : Params (n + 1) rest params) :
      Params (n + 2) (List.replicate (k + 1) ' ' ++ (middle ++ rest)) (middle :: params)

structure Line where
  origin : Option CStr
  command : CStr
  params : List CStr

inductive Derives (allowed : CStr → Nat) : CStr → Line → Prop
  | bare (k : Nat) {command rest : CStr} {params : List CStr} (word : IsField command)
      (plain : command.head? ≠ some ':') (more : Params (allowed command) rest params) :
      Derives allowed (List.replicate k ' ' ++ (command ++ rest)) ⟨none, command, params⟩
  | prefixed (k j : Nat) {origin command rest : CStr} {params : List CStr}
      (free : ∀ c ∈ origin, c ≠ ' ') (word : IsField command)
      (more : Params (allowed command) rest params) :
      Derives allowed
        (List.replicate k ' ' ++ ':' :: (origin ++ (List.replicate (j + 1) ' ' ++
          (command ++ rest))))
        ⟨some origin, command, params⟩

theorem Params.head {n : Nat} {text : CStr} {params : List CStr} (h : Params n text params) :
    text.head? = none ∨ text.head? = some ' ' := by
  cases h with
  | nothing n k => cases k <;> simp [List.replicate_succ]
  | trailing n k text => exact .inr rfl
  | last k text first => exact .inr rfl
  | middle k word plain more => exact .inr rfl

theorem Params.eq_nil {n : Nat} {text : CStr} {params : List CStr} (h : Params n text params)
    (none : text = []) : params = [] := by
  cases h with
  | nothing => rfl
  | trailing => simp at none
  | last => simp at none
  | middle => simp at none

theorem Params.length_le {n : Nat} {text : CStr} {params : List CStr} (h : Params n text params) :
    params.length ≤ n := by
  induction h with
  | nothing => exact Nat.zero_le _
  | trailing => exact Nat.succ_le_succ (Nat.zero_le _)
  | last => exact Nat.le_refl 1
  | middle k word plain more ih => exact Nat.succ_le_succ ih

section Words

variable {word rest core : CStr} {k : Nat}

theorem takeWhile_word (free : ∀ c ∈ word, c ≠ ' ')
    (ends : rest.head? = none ∨ rest.head? = some ' ') :
    (word ++ rest).takeWhile (· != ' ') = word := by
  have all : ∀ c ∈ word, (c != ' ') = true := fun c inside => bne_iff_ne.mpr (free c inside)
  rw [List.takeWhile_append_of_pos all]
  cases rest with
  | nil => simp
  | cons c rest => cases ends <;> simp_all

theorem dropWhile_word (free : ∀ c ∈ word, c ≠ ' ')
    (ends : rest.head? = none ∨ rest.head? = some ' ') :
    (word ++ rest).dropWhile (· != ' ') = rest := by
  have whole := List.takeWhile_append_dropWhile (p := fun c : Char => c != ' ') (l := word ++ rest)
  rw [takeWhile_word free ends] at whole
  exact List.append_cancel_left whole

theorem dropWhile_spaces (starts : core.head? ≠ some ' ') :
    (List.replicate k ' ' ++ core).dropWhile (· == ' ') = core := by
  induction k with
  | zero =>
    cases core with
    | nil => rfl
    | cons c core =>
      have other : c ≠ ' ' := fun same => starts (congrArg some same)
      simp [other]
  | succ k ih => simpa [List.replicate_succ] using ih

theorem eq_spaces (s : CStr) :
    ∃ k, s = List.replicate k ' ' ++ s.dropWhile (· == ' ') := by
  refine ⟨(s.takeWhile (· == ' ')).length, ?_⟩
  have blanks : s.takeWhile (· == ' ') = List.replicate (s.takeWhile (· == ' ')).length ' ' := by
    rw [List.eq_replicate_iff]
    exact ⟨rfl, fun c inside =>
      beq_iff_eq.mp (List.mem_takeWhile_imp (p := fun d : Char => d == ' ') inside)⟩
  rw [← blanks, List.takeWhile_append_dropWhile]

theorem head_dropWhile_spaces (s : CStr) : (s.dropWhile (· == ' ')).head? ≠ some ' ' := by
  intro starts
  have stop := List.head?_dropWhile_not (fun c : Char => c == ' ') s
  rw [starts] at stop
  cases stop

theorem head_dropWhile_word (s : CStr) : (s.dropWhile (· != ' ')).head? = none ∨
    (s.dropWhile (· != ' ')).head? = some ' ' := by
  have stop := List.head?_dropWhile_not (fun c : Char => c != ' ') s
  cases first : (s.dropWhile (· != ' ')).head? with
  | none => exact .inl rfl
  | some c =>
    rw [first] at stop
    exact .inr (congrArg some (by simpa using stop))

theorem spaces_of_text {x : CStr} (starts : core.head? ≠ some ' ')
    (text : x = List.replicate k ' ' ++ core ∨ ' ' :: x = List.replicate k ' ' ++ core) :
    ∃ j, x = List.replicate j ' ' ++ core := by
  cases text with
  | inl same => exact ⟨k, same⟩
  | inr shifted =>
    cases k with
    | zero =>
      rw [List.replicate_zero, List.nil_append] at shifted
      exact absurd (by rw [← shifted]; rfl) starts
    | succ k => exact ⟨k, (List.cons.inj shifted).2⟩

end Words

section Buffer

variable {mem mem' : List Char} {pos : Nat}

theorem cAt_of_char {c : Char} (here : mem[pos]? = some c) (text : c ≠ '\x00') :
    cAt mem pos = c :: cAt mem (pos + 1) := by
  obtain ⟨inside, same⟩ := List.getElem?_eq_some_iff.mp here
  rw [cAt, List.drop_eq_getElem_cons inside, same, cString, List.takeWhile_cons,
    if_pos (bne_iff_ne.mpr text)]
  rfl

theorem cAt_of_nul (here : mem[pos]? = some '\x00') : cAt mem pos = [] := by
  obtain ⟨inside, same⟩ := List.getElem?_eq_some_iff.mp here
  rw [cAt, List.drop_eq_getElem_cons inside, same, cString, List.takeWhile_cons]
  rfl

theorem char_of_cAt {c : Char} {rest : CStr} (text : cAt mem pos = c :: rest) :
    c ≠ '\x00' ∧ cAt mem (pos + 1) = rest := by
  have inside : c ∈ cAt mem pos := by
    rw [text]
    exact List.mem_cons_self
  have nonNul := List.mem_takeWhile_imp (p := fun d : Char => d != '\x00') inside
  have split := cAt_of_char (getElem?_of_cAt text) (bne_iff_ne.mp nonNul)
  rw [text] at split
  exact ⟨bne_iff_ne.mp nonNul, (List.cons.inj split).2.symm⟩

theorem cAt_of_agree {word rest : CStr} (text : cAt mem pos = word ++ rest)
    (agree : ∀ q, pos ≤ q → q < pos + word.length → mem'[q]? = mem[q]?) :
    cAt mem' pos = word ++ cAt mem' (pos + word.length) := by
  induction word generalizing pos with
  | nil => rfl
  | cons c word ih =>
    rw [List.cons_append] at text
    obtain ⟨nonNul, next⟩ := char_of_cAt text
    rw [List.length_cons] at agree
    have here : mem'[pos]? = some c :=
      (agree pos (Nat.le_refl _) (by omega)).trans (getElem?_of_cAt text)
    have later := ih next fun q from_ until_ => agree q (by omega) (by omega)
    rw [cAt_of_char here nonNul, later, List.length_cons, List.cons_append,
      Nat.add_right_comm pos 1 word.length, Nat.add_assoc]

theorem cAt_word {word rest : CStr} (text : cAt mem pos = word ++ rest) :
    cAt mem (pos + word.length) = rest := by
  have inside : word.length ≤ (cAt mem pos).length := by
    rw [text, List.length_append]
    omega
  rw [cAt_add inside, text, List.drop_left]

theorem wordEnd_eq {word rest : CStr} (text : cAt mem pos = word ++ rest)
    (free : ∀ c ∈ word, c ≠ ' ') (ends : rest.head? = none ∨ rest.head? = some ' ') :
    wordEnd mem pos = pos + word.length := by
  rw [wordEnd, text, takeWhile_word free ends]

theorem blankSpaces_eq {k fuel : Nat} {core : CStr}
    (text : cAt mem pos = List.replicate k ' ' ++ core) (starts : core.head? ≠ some ' ')
    (enough : k ≤ fuel) :
    ∃ mem', blankSpaces fuel mem pos = (mem', pos + k) ∧ cAt mem' (pos + k) = core ∧
      (∀ q, q < pos → mem'[q]? = mem[q]?) ∧
      ∀ q, pos ≤ q → q < pos + k → mem'[q]? = some '\x00' := by
  induction k generalizing mem pos fuel with
  | zero =>
    rw [List.replicate_zero, List.nil_append] at text
    -- the loop stands on the first character that is no blank
    have stops : ¬ mem[pos]? = some ' ' := by
      intro here
      have blank := cAt_of_char here (by decide)
      rw [text] at blank
      exact starts (congrArg List.head? blank)
    refine ⟨mem, ?_, text, fun q before => rfl, fun q from_ until_ => ?_⟩
    · cases fuel with
      | zero => rfl
      | succ fuel => rw [blankSpaces, if_neg stops, Nat.add_zero]
    · omega
  | succ k ih =>
    cases fuel with
    | zero => cases enough
    | succ fuel =>
      rw [List.replicate_succ, List.cons_append] at text
      have here := getElem?_of_cAt text
      obtain ⟨inside, -⟩ := List.getElem?_eq_some_iff.mp here
      -- the blank becomes a NUL behind which the walk goes on
      have next : cAt (mem.set pos '\x00') (pos + 1) = List.replicate k ' ' ++ core := by
        rw [cAt_set_of_lt (Nat.lt_succ_self pos)]
        exact (char_of_cAt text).2
      obtain ⟨mem', blanked, left, before, nuls⟩ := ih next (Nat.le_of_succ_le_succ enough)
      have shift : pos + 1 + k = pos + (k + 1) := by omega
      rw [shift] at blanked left
      refine ⟨mem', ?_, left, fun q early => ?_, fun q from_ until_ => ?_⟩
      · rw [blankSpaces, if_pos here]
        exact blanked
      · rw [before q (by omega), List.getElem?_set_ne (by omega)]
      · by_cases first : q = pos
        · subst first
          rw [before q (Nat.lt_succ_self q), List.getElem?_set_self inside]
        · exact nuls q (by omega) (by omega)

theorem length_cAt_le : (cAt mem pos).length ≤ mem.length := by
  have inside : (cAt mem pos).length ≤ (mem.drop pos).length := (List.takeWhile_sublist _).length_le
  rw [List.length_drop] at inside
  omega

theorem blankSpaces_text {k : Nat} {core : CStr}
    (text : cAt mem pos = List.replicate k ' ' ++ core) (starts : core.head? ≠ some ' ') :
    ∃ mem', blankSpaces mem.length mem pos = (mem', pos + k) ∧ cAt mem' (pos + k) = core ∧
      (∀ q, q < pos → mem'[q]? = mem[q]?) ∧
      ∀ q, pos ≤ q → q < pos + k → mem'[q]? = some '\x00' := by
  apply blankSpaces_eq text starts
  have length : (cAt mem pos).length ≤ mem.length := length_cAt_le
  rw [text, List.length_append, List.length_replicate] at length
  omega

end Buffer

/-- The buffer and `para` after the loop has taken `params` from `s` on, with `para[i]` the
first slot that it wrote. -/
structure Takes (mem : List Char) (s i : Nat) (para : Nat → Option Nat) (params : List CStr)
    (mem' : List Char) (para' : Nat → Option Nat) : Prop where
  before : ∀ q, q < s → mem'[q]? = mem[q]?
  ends : (cAt mem s).head? = none ∨ (cAt mem s).head? = some ' ' → cAt mem' s = []
  kept : ∀ j, j < i → para' j = para j
  strings : ∀ k, k < params.length → (para' (i + k)).map (cAt mem') = params[k]?

/-- The loop takes what the grammar says, where `n` is what `paramcount` leaves. -/
theorem paramLoop_takes {n : Nat} {text : CStr} {params : List CStr} (h : Params n text params)
    {mem : List Char} {s i paramcount slots : Nat} {para : Nat → Option Nat}
    (count : n = max 1 (paramcount - i)) (room : n ≤ slots)
    (start : cAt mem s = text ∨ ' ' :: cAt mem s = text) :
    ∃ mem' para', paramLoop paramcount slots mem s i para = some (mem', i + params.length, para') ∧
      Takes mem s i para params mem' para' := by
  obtain ⟨slots, rfl⟩ : ∃ m, slots = m + 1 := ⟨slots - 1, by omega⟩
  -- one turn of the loop for each case of the grammar
  induction h generalizing mem s i para slots with
  | nothing n k =>
    rw [← List.append_nil (List.replicate k ' ')] at start
    obtain ⟨j, spaces⟩ := spaces_of_text (by simp) start
    obtain ⟨mem', blanked, left, before, nuls⟩ := blankSpaces_text spaces (by simp)
    refine ⟨mem', para, ?_, before, fun _ => ?_, fun _ _ => rfl, fun k none => ?_⟩
    · rw [paramLoop, blanked]
      simp only [left]
      rfl
    · cases j with
      | zero => exact left
      | succ j => exact cAt_of_nul (nuls s (Nat.le_refl _) (by omega))
    · cases none
  | trailing n k text =>
    have other : (':' :: text).head? ≠ some ' ' := by simp
    obtain ⟨j, spaces⟩ := spaces_of_text other start
    obtain ⟨mem', blanked, left, before, nuls⟩ := blankSpaces_text spaces other
    refine ⟨mem', Function.update para i (some (s + j + 1)), ?_, before, fun begins => ?_,
      fun m early => Function.update_of_ne (by omega) .., fun k first => ?_⟩
    · rw [paramLoop, blanked]
      simp only [left, if_true, List.length_singleton]
    · cases j with
      | zero =>
        rw [spaces] at begins
        simp at begins
      | succ j => exact cAt_of_nul (nuls s (Nat.le_refl _) (by omega))
    · obtain rfl := Nat.lt_one_iff.mp first
      rw [Nat.add_zero i, Function.update_self, Option.map_some, (char_of_cAt left).2]
      rfl
  | @last k c text first =>
    have other : (c :: text).head? ≠ some ' ' := by simpa using first.1
    obtain ⟨j, spaces⟩ := spaces_of_text other start
    obtain ⟨mem', blanked, left, before, nuls⟩ := blankSpaces_text spaces other
    have full : paramcount ≤ i + 1 := by omega
    refine ⟨mem', Function.update para i (some (s + j)), ?_, before, fun begins => ?_,
      fun m early => Function.update_of_ne (by omega) .., fun k only => ?_⟩
    · rw [paramLoop, blanked]
      simp only [left, if_neg first.2, if_pos full, List.length_singleton]
    · cases j with
      | zero =>
        rw [spaces] at begins
        simp [first.1] at begins
      | succ j => exact cAt_of_nul (nuls s (Nat.le_refl _) (by omega))
    · obtain rfl := Nat.lt_one_iff.mp only
      rw [Nat.add_zero i, Function.update_self, Option.map_some, left]
      rfl
  | @middle n k middle rest params word plain more ih =>
    obtain ⟨c, tail, split⟩ := List.exists_cons_of_ne_nil word.1
    have notBlank : c ≠ ' ' := word.2 c (by rw [split]; exact List.mem_cons_self)
    have notColon : c ≠ ':' := by
      rintro rfl
      rw [split] at plain
      exact plain rfl
    have other : (middle ++ rest).head? ≠ some ' ' := by
      rw [split]
      simpa using notBlank
    obtain ⟨j, spaces⟩ := spaces_of_text other start
    obtain ⟨mem1, blanked, left, before, nuls⟩ := blankSpaces_text spaces other
    -- the word is not the last that may be taken, so the loop goes on behind it
    have goesOn : ¬ paramcount ≤ i + 1 := by omega
    have stop := wordEnd_eq left word.2 more.head
    have atStop : cAt mem1 (s + j + middle.length) = rest := cAt_word left
    obtain ⟨slots, rfl⟩ : ∃ m, slots = m + 1 := ⟨slots - 1, by omega⟩
    have nextCount : n + 1 = max 1 (paramcount - (i + 1)) := by omega
    have nextRoom : n + 1 ≤ slots + 1 := by omega
    obtain ⟨mem', para', looped, takes⟩ : ∃ mem' para',
        paramLoop paramcount (slots + 1) mem1 (s + j + middle.length) (i + 1)
          (Function.update para i (some (s + j))) = some (mem', i + 1 + params.length, para') ∧
        Takes mem1 (s + j + middle.length) (i + 1) (Function.update para i (some (s + j))) params
          mem' para' := ih nextCount (.inl atStop) slots nextRoom
    have long : 0 < middle.length := List.length_pos_iff.mpr word.1
    -- the terminator behind the word is written by the next turn
    have ended : cAt mem' (s + j + middle.length) = [] := by
      apply takes.ends
      rw [atStop]
      exact more.head
    have string : cAt mem' (s + j) = middle := by
      have same : ∀ q, s + j ≤ q → q < s + j + middle.length → mem'[q]? = mem1[q]? :=
        fun q _ until_ => takes.before q until_
      have agree := cAt_of_agree left same
      rwa [ended, List.append_nil] at agree
    refine ⟨mem', para', ?_, fun q early => ?_, fun begins => ?_, fun m early => ?_,
      fun k few => ?_⟩
    · rw [paramLoop, blanked]
      simp only [left]
      rw [split, List.cons_append]
      simp only [if_neg notColon, if_neg goesOn]
      rw [stop, looped, List.length_cons, Nat.add_assoc, Nat.add_comm 1]
    · exact (takes.before q (by omega)).trans (before q early)
    · cases j with
      | zero =>
        rw [spaces, split] at begins
        simp [notBlank] at begins
      | succ j =>
        apply cAt_of_nul
        rw [takes.before s (by omega)]
        exact nuls s (Nat.le_refl _) (by omega)
    · rw [takes.kept m (by omega), Function.update_of_ne (by omega)]
    · cases k with
      | zero =>
        rw [Nat.add_zero, takes.kept i (Nat.lt_succ_self i), Function.update_self,
          Option.map_some, string]
        rfl
      | succ k =>
        have later := takes.strings k (Nat.lt_of_succ_lt_succ few)
        rw [Nat.add_right_comm, Nat.add_assoc] at later
        rw [later]
        rfl

theorem takeParams_takes {n : Nat} {rest : CStr} {params : List CStr} (h : Params n rest params)
    {mem : List Char} {s : Option Nat} {paramcount : Nat} (para : Nat → Option Nat)
    (count : n = max 1 (min paramcount maxPara - 1))
    (start : s = none ∧ rest = [] ∨ ∃ p, s = some p ∧ ' ' :: cAt mem p = rest) :
    ∃ mem' para', takeParams paramcount mem s para = some (mem', params.length + 1, para') ∧
      (∀ p q, s = some p → q < p → mem'[q]? = mem[q]?) ∧ (s = none → mem' = mem) ∧
      para' (params.length + 1) = none ∧
      ∀ k, k < params.length → (para' (k + 1)).map (cAt mem') = params[k]? := by
  rcases start with ⟨rfl, rfl⟩ | ⟨p, rfl, text⟩
  · obtain rfl := h.eq_nil rfl
    exact ⟨mem, Function.update para 1 none, rfl, fun p q same => absurd same.symm (by simp),
      fun _ => rfl, Function.update_self .., fun k few => absurd few (Nat.not_lt_zero k)⟩
  · have room : n ≤ maxPara - 1 := by
      rw [count, maxPara]
      omega
    obtain ⟨mem', para', looped, takes⟩ : ∃ mem' para',
        paramLoop (min paramcount maxPara) (maxPara - 1) mem p 1 para =
          some (mem', 1 + params.length, para') ∧ Takes mem p 1 para params mem' para' :=
      paramLoop_takes h count room (.inr text)
    have slot : 1 + params.length = params.length + 1 := Nat.add_comm ..
    rw [slot] at looped
    refine ⟨mem', Function.update para' (params.length + 1) none, ?_, fun p' q same early => ?_,
      fun same => absurd same (by simp), Function.update_self .., fun k few => ?_⟩
    · simp only [takeParams, looped]
      rfl
    · obtain rfl := Option.some.inj same
      exact takes.before q early
    · rw [Function.update_of_ne (by omega), Nat.add_comm k 1]
      exact takes.strings k few

theorem Params.total (n : Nat) (text : CStr)
    (starts : text.head? = none ∨ text.head? = some ' ') :
    ∃ params, Params (n + 1) text params := by
  induction size : text.length using Nat.strong_induction_on generalizing n text with
  | _ size_ ih =>
    obtain ⟨k, spaces⟩ := eq_spaces text
    have first := head_dropWhile_spaces text
    generalize text.dropWhile (· == ' ') = core at spaces first
    subst spaces
    cases core with
    | nil =>
      rw [List.append_nil]
      exact ⟨[], .nothing (n + 1) k⟩
    | cons c core =>
      have notBlank : c ≠ ' ' := fun same => first (congrArg some same)
      cases k with
      | zero =>
        simp [notBlank] at starts
      | succ k =>
        -- a colon takes the rest; so does the last place in the array
        by_cases colon : c = ':'
        · subst colon
          exact ⟨[core], .trailing n k core⟩
        · cases n with
          | zero => exact ⟨[c :: core], .last k core ⟨notBlank, colon⟩⟩
          | succ n =>
            have whole := List.takeWhile_append_dropWhile (p := fun d : Char => d != ' ')
              (l := c :: core)
            have begins : (c :: core).takeWhile (· != ' ') = c :: core.takeWhile (· != ' ') := by
              rw [List.takeWhile_cons, if_pos (bne_iff_ne.mpr notBlank)]
            have word : IsField ((c :: core).takeWhile (· != ' ')) := by
              refine ⟨by rw [begins]; exact List.cons_ne_nil _ _, fun d inside => ?_⟩
              exact bne_iff_ne.mp (List.mem_takeWhile_imp (p := fun e : Char => e != ' ') inside)
            have restStarts := head_dropWhile_word (c :: core)
            -- a word is not empty, so less text is left for the next parameter
            have shorter : ((c :: core).dropWhile (· != ' ')).length < size_ := by
              have total := congrArg List.length whole
              rw [List.length_append, begins, List.length_cons] at total
              rw [← size, List.length_append, List.length_replicate]
              omega
            obtain ⟨params, more⟩ := ih _ shorter n _ restStarts rfl
            have plain : ((c :: core).takeWhile (· != ' ')).head? ≠ some ':' := by
              rw [begins]
              exact fun same => colon (Option.some.inj same)
            have built := Params.middle k word plain more
            rw [whole] at built
            exact ⟨_, built⟩

def readOrigin (text : CStr) : Option CStr :=
  let core := text.dropWhile (· == ' ')
  if core.head? = some ':' then some (core.tail.takeWhile (· != ' ')) else none

def readBody (text : CStr) : CStr :=
  let core := text.dropWhile (· == ' ')
  if core.head? = some ':' then (core.tail.dropWhile (· != ' ')).dropWhile (· == ' ') else core

def readCommand (text : CStr) : CStr := (readBody text).takeWhile (· != ' ')

def readRest (text : CStr) : CStr := (readBody text).dropWhile (· != ' ')

theorem head_readBody (text : CStr) : (readBody text).head? ≠ some ' ' := by
  unfold readBody
  dsimp only
  split <;> exact head_dropWhile_spaces _

theorem readCommand_word {text : CStr} (nonblank : readBody text ≠ []) :
    IsField (readCommand text) := by
  have first := head_readBody text
  unfold readCommand
  refine ⟨fun none => ?_, fun c inside => ?_⟩
  · cases body : readBody text with
    | nil => exact nonblank body
    | cons c rest =>
      rw [body] at none first
      have notBlank : c ≠ ' ' := fun same => first (congrArg some same)
      rw [List.takeWhile_cons, if_pos (bne_iff_ne.mpr notBlank)] at none
      cases none
  · exact bne_iff_ne.mp (List.mem_takeWhile_imp (p := fun d : Char => d != ' ') inside)

theorem readCommand_append (text : CStr) : readCommand text ++ readRest text = readBody text :=
  List.takeWhile_append_dropWhile

/-- The lines of the grammar are those with a command, and their parts can be read off. -/
theorem derives_iff {allowed : CStr → Nat} {text : CStr} {line : Line} :
    Derives allowed text line ↔ line.origin = readOrigin text ∧ line.command = readCommand text ∧
      readBody text ≠ [] ∧ Params (allowed line.command) (readRest text) line.params := by
  constructor
  · intro h
    cases h with
    | @bare k command rest params word plain more =>
      obtain ⟨c, tail, split⟩ := List.exists_cons_of_ne_nil word.1
      have notBlank : c ≠ ' ' := word.2 c (by rw [split]; exact List.mem_cons_self)
      have starts : (command ++ rest).head? ≠ some ' ' := by
        rw [split]
        simpa using notBlank
      have notColon : ¬ (command ++ rest).head? = some ':' := by
        rw [split] at plain ⊢
        exact plain
      have body : readBody (List.replicate k ' ' ++ (command ++ rest)) = command ++ rest := by
        rw [readBody, dropWhile_spaces starts]
        exact if_neg notColon
      refine ⟨?_, ?_, ?_, ?_⟩
      · rw [readOrigin, dropWhile_spaces starts]
        exact (if_neg notColon).symm
      · rw [readCommand, body, takeWhile_word word.2 more.head]
      · rw [body, split]
        exact List.cons_ne_nil _ _
      · rwa [readRest, body, dropWhile_word word.2 more.head]
    | @prefixed k j origin command rest params free word more =>
      obtain ⟨c, tail, split⟩ := List.exists_cons_of_ne_nil word.1
      have notBlank : c ≠ ' ' := word.2 c (by rw [split]; exact List.mem_cons_self)
      have starts : (command ++ rest).head? ≠ some ' ' := by
        rw [split]
        simpa using notBlank
      have blank : (List.replicate (j + 1) ' ' ++ (command ++ rest)).head? = none ∨
          (List.replicate (j + 1) ' ' ++ (command ++ rest)).head? = some ' ' := .inr rfl
      have colon : (':' :: (origin ++ (List.replicate (j + 1) ' ' ++ (command ++ rest)))).head? ≠
          some ' ' := by simp
      have body : readBody (List.replicate k ' ' ++ ':' :: (origin ++
          (List.replicate (j + 1) ' ' ++ (command ++ rest)))) = command ++ rest := by
        rw [readBody, dropWhile_spaces colon]
        simp only [List.head?_cons, if_true, List.tail_cons]
        rw [dropWhile_word free blank, dropWhile_spaces starts]
      refine ⟨?_, ?_, ?_, ?_⟩
      · rw [readOrigin, dropWhile_spaces colon]
        simp only [List.head?_cons, if_true, List.tail_cons]
        rw [takeWhile_word free blank]
      · rw [readCommand, body, takeWhile_word word.2 more.head]
      · rw [body, split]
        exact List.cons_ne_nil _ _
      · rwa [readRest, body, dropWhile_word word.2 more.head]
  · rintro ⟨origin, command, nonblank, more⟩
    obtain ⟨o, com, params⟩ := line
    dsimp only at origin command more
    subst origin command
    have word := readCommand_word nonblank
    have whole := readCommand_append text
    obtain ⟨k, spaces⟩ := eq_spaces text
    by_cases colon : (text.dropWhile (· == ' ')).head? = some ':'
    · obtain ⟨tail, core⟩ : ∃ tail, text.dropWhile (· == ' ') = ':' :: tail := by
        cases core : text.dropWhile (· == ' ') with
        | nil => rw [core] at colon; cases colon
        | cons c tail =>
          rw [core] at colon
          exact ⟨tail, congrArg (· :: tail) (Option.some.inj colon)⟩
      have from_ : readOrigin text = some (tail.takeWhile (· != ' ')) := by
        rw [readOrigin, core]
        rfl
      have body : readBody text = (tail.dropWhile (· != ' ')).dropWhile (· == ' ') := by
        rw [readBody, core]
        rfl
      obtain ⟨j, gap⟩ := eq_spaces (tail.dropWhile (· != ' '))
      have free : ∀ c ∈ tail.takeWhile (· != ' '), c ≠ ' ' := fun c inside =>
        bne_iff_ne.mp (List.mem_takeWhile_imp (p := fun d : Char => d != ' ') inside)
      have split := List.takeWhile_append_dropWhile (p := fun d : Char => d != ' ') (l := tail)
      rw [← body, ← whole] at gap
      cases j with
      | zero =>
        -- Without a blank behind the prefix there is no command.
        have first := head_dropWhile_word tail
        rw [gap, List.replicate_zero, List.nil_append, whole] at first
        cases first with
        | inl none => exact absurd (List.head?_eq_none_iff.mp none) nonblank
        | inr blank => exact absurd blank (head_readBody text)
      | succ j =>
        have rebuilt : List.replicate k ' ' ++ ':' :: (tail.takeWhile (· != ' ') ++
            (List.replicate (j + 1) ' ' ++ (readCommand text ++ readRest text))) = text := by
          rw [← gap, split, ← core, ← spaces]
        have made := Derives.prefixed k j free word more
        rw [rebuilt] at made
        rwa [from_]
    · have from_ : readOrigin text = none := by
        rw [readOrigin]
        exact if_neg colon
      have body : readBody text = text.dropWhile (· == ' ') := by
        rw [readBody]
        exact if_neg colon
      have plain : (readCommand text).head? ≠ some ':' := by
        intro starts
        rw [← body, ← whole, List.head?_append, starts] at colon
        exact colon rfl
      have made := Derives.bare k word plain more
      rw [whole, body, ← spaces] at made
      rwa [from_]

def isNumericWord (command : CStr) : Bool := command.length == 3 && command.all isDigit

section Pointers

variable {mem : List Char} {pbuffer ch : Nat}

theorem cAt_skipSpaces (mem : List Char) (ch : Nat) :
    cAt mem (skipSpaces mem ch) = (cAt mem ch).dropWhile (· == ' ') := by
  rw [skipSpaces, cAt_add (List.takeWhile_sublist _).length_le, drop_takeWhile]

theorem cAt_wordEnd (mem : List Char) (ch : Nat) :
    cAt mem (wordEnd mem ch) = (cAt mem ch).dropWhile (· != ' ') := by
  rw [wordEnd, cAt_add (List.takeWhile_sublist _).length_le, drop_takeWhile]

theorem cutPrefix_reads (mem : List Char) (pbuffer : Nat) :
    let cut := cutPrefix mem (skipSpaces mem pbuffer)
    cut.1 = (readOrigin (cAt mem pbuffer)).map (·.take hostLen) ∧
      cAt mem cut.2 = readBody (cAt mem pbuffer) := by
  have core := cAt_skipSpaces mem pbuffer
  unfold cutPrefix readOrigin readBody
  rw [core]
  split
  · next colon =>
    obtain ⟨tail, split⟩ : ∃ tail, cAt mem (skipSpaces mem pbuffer) = ':' :: tail := by
      cases text : cAt mem (skipSpaces mem pbuffer) with
      | nil => rw [← core, text] at colon; cases colon
      | cons c tail =>
        rw [← core, text] at colon
        exact ⟨tail, congrArg (· :: tail) (Option.some.inj colon)⟩
    have behind := (char_of_cAt split).2
    rw [split] at core
    dsimp only
    rw [← core, List.tail_cons, behind, cAt_skipSpaces, cAt_wordEnd, behind]
    exact ⟨rfl, rfl⟩
  · next plain =>
    dsimp only
    rw [if_neg plain, if_neg plain]
    exact ⟨rfl, core⟩

theorem digits_of_numeric {command : CStr} (numeric : isNumericWord command = true) :
    ∃ a b c, command = [a, b, c] ∧ isDigit a = true ∧ isDigit b = true ∧ isDigit c = true := by
  rw [isNumericWord, Bool.and_eq_true, beq_iff_eq] at numeric
  obtain ⟨a, b, c, rfl⟩ := List.length_eq_three.mp numeric.1
  simpa using numeric.2

theorem digit_ne {c : Char} (digit : isDigit c = true) : c ≠ ' ' ∧ c ≠ '\x00' := by
  constructor
  · rintro rfl
    revert digit
    decide
  · rintro rfl
    revert digit
    decide

theorem numeric_at {command tail : CStr} (text : cAt mem ch = command ++ ' ' :: tail)
    (free : ∀ c ∈ command, c ≠ ' ') :
    (mem[ch + 3]? = some ' ' ∧
      (mem[ch]?.any isDigit && mem[ch + 1]?.any isDigit && mem[ch + 2]?.any isDigit) = true) ↔
      isNumericWord command = true := by
  constructor
  · rintro ⟨blank, digits⟩
    simp only [Bool.and_eq_true, Option.any_eq_true] at digits
    obtain ⟨⟨⟨a, atA, digitA⟩, b, atB, digitB⟩, c, atC, digitC⟩ := digits
    have whole : cAt mem ch = [a, b, c] ++ ' ' :: cAt mem (ch + 4) := by
      rw [cAt_of_char atA (digit_ne digitA).2, cAt_of_char atB (digit_ne digitB).2,
        cAt_of_char atC (digit_ne digitC).2, cAt_of_char blank (by decide)]
      rfl
    have others : ∀ d ∈ [a, b, c], d ≠ ' ' := by
      simpa using ⟨(digit_ne digitA).1, (digit_ne digitB).1, (digit_ne digitC).1⟩
    have same := congrArg (List.takeWhile (· != ' ')) (text.symm.trans whole)
    rw [takeWhile_word free (.inr rfl), takeWhile_word others (.inr rfl)] at same
    rw [same, isNumericWord]
    simp [digitA, digitB, digitC]
  · intro numeric
    obtain ⟨a, b, c, rfl, digitA, digitB, digitC⟩ := digits_of_numeric numeric
    have second := (char_of_cAt text).2
    have third := (char_of_cAt second).2
    have fourth := (char_of_cAt third).2
    refine ⟨getElem?_of_cAt fourth, ?_⟩
    rw [getElem?_of_cAt text, getElem?_of_cAt second, getElem?_of_cAt third]
    simp [digitA, digitB, digitC]

theorem cutCommand_reads {command rest : CStr} (text : cAt mem ch = command ++ rest)
    (word : IsField command) (starts : rest.head? = none ∨ rest.head? = some ' ') :
    ∃ mem' s, cutCommand mem ch = (isNumericWord command && !rest.isEmpty, mem', s) ∧
      cAt mem' ch = command ∧
      (s = none ∧ rest = [] ∨ ∃ p, s = some p ∧ ' ' :: cAt mem' p = rest ∧
        p = ch + command.length + 1 ∧ mem'[ch + command.length]? = some '\x00') := by
  have stop := wordEnd_eq text word.2 starts
  have atStop := cAt_word text
  -- without a blank behind it even three digits are no numeric
  cases rest with
  | nil =>
    have plain : ¬ (mem[ch + 3]? = some ' ' ∧
        (mem[ch]?.any isDigit && mem[ch + 1]?.any isDigit && mem[ch + 2]?.any isDigit) = true) := by
      rintro ⟨blank, digits⟩
      simp only [Bool.and_eq_true, Option.any_eq_true] at digits
      obtain ⟨⟨⟨a, atA, digitA⟩, b, atB, digitB⟩, c, atC, digitC⟩ := digits
      have whole := cAt_of_char atA (digit_ne digitA).2
      rw [cAt_of_char atB (digit_ne digitB).2, cAt_of_char atC (digit_ne digitC).2,
        cAt_of_char blank (by decide), text, List.append_nil] at whole
      exact word.2 ' ' (by rw [whole]; simp) rfl
    refine ⟨mem, none, ?_, by rw [text, List.append_nil], .inl ⟨rfl, rfl⟩⟩
    rw [cutCommand, if_neg plain, stop, if_pos atStop, List.isEmpty_nil, Bool.not_true,
      Bool.and_false]
  | cons c tail =>
    obtain rfl : c = ' ' := by
      cases starts with
      | inl none => cases none
      | inr blank => exact Option.some.inj blank
    have inside : command.length < (cAt mem ch).length := by
      rw [text, List.length_append, List.length_cons]
      omega
    obtain ⟨stored, -⟩ := List.getElem?_eq_some_iff.mp (getElem?_of_cAt atStop)
    have behind : cAt (mem.set (ch + command.length) '\x00') (ch + command.length + 1) = tail := by
      rw [cAt_set_of_lt (Nat.lt_succ_self _)]
      exact (char_of_cAt atStop).2
    refine ⟨mem.set (ch + command.length) '\x00', some (ch + command.length + 1), ?_, ?_,
      .inr ⟨_, rfl, by rw [behind], rfl, List.getElem?_set_self stored⟩⟩
    · rw [cutCommand]
      split
      · next numeric =>
        have digits := (numeric_at text word.2).mp numeric
        obtain ⟨a, b, c, rfl, -⟩ := digits_of_numeric digits
        rw [digits]
        rfl
      · next plain =>
        have other : isNumericWord command = false := by
          cases digits : isNumericWord command with
          | false => rfl
          | true => exact absurd ((numeric_at text word.2).mpr digits) plain
        rw [stop, if_neg (by rw [atStop]; exact List.cons_ne_nil _ _), other, Bool.false_and]
    · rw [cAt_set_nul inside, text, List.take_left]

end Pointers

section Handing

variable (t : Tables) (msgTreeRoot : MessageTree) (doingList : Bool) (cptr : ClientId)
  (para : Nat → Option Nat) (mem : List Char) (pbuffer : Nat)

/-- How many parameters the command may have: one slot of `para` is `para[0]`, and a single
parameter is always taken. -/
def allowedParams (command : CStr) : Nat :=
  if isNumericWord command then maxPara - 1
  else
    match treeParse msgTreeRoot command with
    | some mptr => max 1 (min mptr.parameters maxPara - 1)
    | none => maxPara - 1

/-- The prefix counts if it comes from a server and is not empty, as far as `sender` holds it. -/
def Line.para0 (line : Line) : CStr :=
  match line.origin with
  | some origin =>
    if origin ≠ [] ∧ (t.client cptr).isServer = true then origin.take hostLen else t.nameOf cptr
  | none => t.nameOf cptr

structure Handed.Agrees (h : Handed) (line : Line) : Prop where
  para0 : h.para0 = line.para0 t cptr
  params : h.params = line.params.map some
  count : h.parc = line.params.length + 1
  bounded : h.parc ≤ maxPara
  ended : h.para h.parc = none

def ParseOutcome.handed : ParseOutcome → Option Handed
  | .doNumeric _ h => some h
  | .handler _ h => some h
  | _ => none

def ParseOutcome.IsFor (command : CStr) : ParseOutcome → Prop
  | .doNumeric numeric _ => numeric = command ∧ isNumericWord command = true
  | .handler mptr _ => treeParse msgTreeRoot command = some mptr
  | _ => False

variable {t cptr}

theorem originOf_para0 {line : Line} {from_ : ClientId} {para0 : CStr}
    (origin : originOf t cptr (line.origin.map (·.take hostLen)) = .inr (from_, para0)) :
    para0 = line.para0 t cptr := by
  unfold originOf at origin
  unfold Line.para0
  cases named : line.origin with
  | none =>
    rw [named] at origin
    exact (congrArg Prod.snd (Sum.inr.inj origin)).symm
  | some sender =>
    rw [named] at origin
    simp only [Option.map_some] at origin ⊢
    have empty : sender.take hostLen ≠ [] ↔ sender ≠ [] := by
      cases sender with
      | nil => simp
      | cons c sender => simp [hostLen]
    split at origin
    · next counts =>
      rw [if_pos ⟨empty.mp counts.1, counts.2⟩]
      split at origin
      · cases origin
      · split at origin
        · cases origin
        · exact (congrArg Prod.snd (Sum.inr.inj origin)).symm
    · next ignored =>
      rw [if_neg fun counts => ignored ⟨empty.mpr counts.1, counts.2⟩]
      exact (congrArg Prod.snd (Sum.inr.inj origin)).symm

theorem params_of_strings {h : Handed} {params : List CStr} (count : h.parc = params.length + 1)
    (strings : ∀ k, k < params.length → (h.para (k + 1)).map (cAt h.mem) = params[k]?) :
    h.params = params.map some := by
  apply List.ext_getElem?
  intro k
  rw [Handed.params, count, Nat.add_sub_cancel, List.getElem?_map, List.getElem?_map]
  by_cases inside : k < params.length
  · rw [List.getElem?_range inside, List.getElem?_eq_getElem inside]
    simp only [Option.map_some]
    rw [strings k inside, List.getElem?_eq_getElem inside]
  · have outside := not_lt.mp inside
    rw [List.getElem?_eq_none (by simpa using outside), List.getElem?_eq_none outside]
    rfl

theorem originOf_refused {sender : Option CStr} {refused : ParseOutcome}
    (origin : originOf t cptr sender = .inl refused) : refused.handed = none := by
  unfold originOf at origin
  split at origin
  · cases origin
  · dsimp only at origin
    split at origin
    · split at origin
      · cases origin
        rfl
      · split at origin
        · cases origin
          rfl
        · cases origin
    · cases origin

theorem treeParse_numeric {command : CStr} (numeric : isNumericWord command = true) :
    treeParse msgTreeRoot command = none := by
  obtain ⟨a, b, c, rfl, digit, -⟩ := digits_of_numeric numeric
  cases msgTreeRoot with
  | null => rfl
  | node final pointers =>
    have masked : clearBit5 a < 'A' := by
      rw [isDigit, Bool.and_eq_true, decide_eq_true_eq, decide_eq_true_eq, Char.le_def,
        Char.le_def, UInt32.le_iff_toNat_le, UInt32.le_iff_toNat_le] at digit
      have low : 48 ≤ a.toNat ∧ a.toNat ≤ 57 := digit
      rw [clearBit5, Char.lt_def, UInt32.lt_iff_toNat_lt]
      change (Char.ofNat _).toNat < 65
      rw [toNat_ofNat (by omega)]
      omega
    rw [treeParse_cons, if_pos (.inl masked)]

theorem Params.unique {n : Nat} {rest : CStr} {params params' : List CStr}
    (h : Params n rest params) (h' : Params n rest params') {paramcount : Nat}
    (count : n = max 1 (min paramcount maxPara - 1)) {mem : List Char} {s : Option Nat}
    (start : s = none ∧ rest = [] ∨ ∃ p, s = some p ∧ ' ' :: cAt mem p = rest) :
    params = params' := by
  obtain ⟨mem1, para1, taken, -, -, -, strings⟩ := takeParams_takes h (fun _ => none) count start
  obtain ⟨mem2, para2, taken', -, -, -, strings'⟩ :=
    takeParams_takes h' (fun _ => none) count start
  rw [taken] at taken'
  obtain ⟨rfl, slots⟩ := Prod.mk.inj (Option.some.inj taken')
  obtain ⟨size, rfl⟩ := Prod.mk.inj slots
  have lengths : params.length = params'.length := Nat.succ.inj size
  apply List.ext_getElem?
  intro k
  by_cases inside : k < params.length
  · rw [← strings k inside, ← strings' k (lengths ▸ inside)]
  · rw [List.getElem?_eq_none (not_lt.mp inside),
      List.getElem?_eq_none (lengths ▸ not_lt.mp inside)]

theorem parse_reads {line : Line}
    (derived : Derives (allowedParams msgTreeRoot) (cAt mem pbuffer) line)
    {from_ : ClientId} {para0 : CStr}
    (origin : originOf t cptr (line.origin.map (·.take hostLen)) = .inr (from_, para0)) :
    ∃ h : Handed, h.from_ = from_ ∧ h.Agrees t cptr line ∧
      (∀ line', Derives (allowedParams msgTreeRoot) (cAt mem pbuffer) line' → line' = line) ∧
      parse t msgTreeRoot false doingList cptr para mem pbuffer =
        if isNumericWord line.command && !(readRest (cAt mem pbuffer)).isEmpty then
          .doNumeric line.command h
        else
          match treeParse msgTreeRoot line.command with
          | none => .unknownCommand line.command
          | some mptr => callHandler t doingList cptr mptr h := by
  obtain ⟨named, command, nonblank, more⟩ := derives_iff.mp derived
  obtain ⟨sender, atBody⟩ := cutPrefix_reads mem pbuffer
  have text : cAt mem (cutPrefix mem (skipSpaces mem pbuffer)).2 =
      line.command ++ readRest (cAt mem pbuffer) := by
    rw [atBody, command, readCommand_append]
  obtain ⟨mem1, s, cut, word, start⟩ :=
    cutCommand_reads text (command ▸ readCommand_word nonblank) (head_dropWhile_word _)
  have start' : s = none ∧ readRest (cAt mem pbuffer) = [] ∨
      ∃ p, s = some p ∧ ' ' :: cAt mem1 p = readRest (cAt mem pbuffer) := by
    rcases start with none | ⟨p, at_, tail, -⟩
    · exact .inl none
    · exact .inr ⟨p, at_, tail⟩
  -- What `paramcount` is when the loop starts.
  obtain ⟨paramcount, count, numeric, entry⟩ : ∃ paramcount,
      allowedParams msgTreeRoot line.command = max 1 (min paramcount maxPara - 1) ∧
      (isNumericWord line.command = true → paramcount = maxPara) ∧
      ∀ mptr, treeParse msgTreeRoot line.command = some mptr → paramcount = mptr.parameters := by
    unfold allowedParams
    cases digits : isNumericWord line.command with
    | true =>
      refine ⟨maxPara, rfl, fun _ => rfl, fun mptr found => ?_⟩
      rw [treeParse_numeric msgTreeRoot digits] at found
      cases found
    | false =>
      cases found : treeParse msgTreeRoot line.command with
      | none =>
        exact ⟨maxPara, rfl, fun same => absurd same Bool.false_ne_true,
          fun mptr same => absurd same.symm (Option.some_ne_none mptr)⟩
      | some mptr =>
        exact ⟨mptr.parameters, rfl, fun same => absurd same Bool.false_ne_true,
          fun other same => congrArg MessageEntry.parameters (Option.some.inj same)⟩
  obtain ⟨mem', para', taken, before, -, ended, strings⟩ :=
    takeParams_takes more para count start'
  have few := more.length_le
  have bounded : line.params.length + 1 ≤ maxPara := by
    rw [count] at few
    simp only [maxPara] at few ⊢
    omega
  refine ⟨⟨from_, para0, line.params.length + 1, para', mem'⟩, rfl, ?_, ?_, ?_⟩
  · exact {
      para0 := originOf_para0 origin
      params := params_of_strings rfl strings
      count := rfl
      bounded := bounded
      ended := ended }
  · intro line' derived'
    obtain ⟨named', command', -, more'⟩ := derives_iff.mp derived'
    rw [command', ← command] at more'
    have same := more.unique more' count start'
    obtain ⟨o, com, params⟩ := line
    obtain ⟨o', com', params'⟩ := line'
    dsimp only at named named' command command' same
    rw [named, named', command, command', same]
  · have something : cAt mem (cutPrefix mem (skipSpaces mem pbuffer)).2 ≠ [] := atBody ▸ nonblank
    rw [parse, if_neg Bool.false_ne_true]
    dsimp only
    rw [sender, ← named, origin]
    dsimp only
    rw [if_neg something, cut]
    dsimp only
    split
    · next isNumeric =>
      rw [Bool.and_eq_true] at isNumeric
      rw [numeric isNumeric.1] at taken
      rw [taken]
      have ends : cAt mem' (cutPrefix mem (skipSpaces mem pbuffer)).2 = line.command := by
        rcases start with ⟨-, none⟩ | ⟨p, at_, -, place, nul⟩
        · rw [none] at isNumeric
          cases isNumeric.2
        · have same : ∀ q, (cutPrefix mem (skipSpaces mem pbuffer)).2 ≤ q →
              q < (cutPrefix mem (skipSpaces mem pbuffer)).2 + line.command.length →
              mem'[q]? = mem1[q]? := fun q _ until_ => before p q at_ (by omega)
          have agree := cAt_of_agree (word.trans (List.append_nil _).symm) same
          rwa [cAt_of_nul ((before p _ at_ (by omega)).trans nul), List.append_nil] at agree
      dsimp only
      rw [ends]
    · rw [word]
      cases found : treeParse msgTreeRoot line.command with
      | none => rfl
      | some mptr =>
        dsimp only
        rw [← entry mptr found, taken]

def callable (t : Tables) (doingList : Bool) (cptr : ClientId) (mptr : MessageEntry) : Bool :=
  ((t.client cptr).isServer || (t.client cptr).isClient || mptr.allowUnregisteredUse) &&
    (!doingList || mptr.isList)

theorem callHandler_handed {mptr : MessageEntry} {h h' : Handed}
    (handed : (callHandler t doingList cptr mptr h).handed = some h') :
    h' = h ∧ callHandler t doingList cptr mptr h = .handler mptr h := by
  unfold callHandler at handed ⊢
  dsimp only at handed ⊢
  split
  · next refused =>
    rw [if_pos refused] at handed
    cases handed
  · next registered =>
    rw [if_neg registered] at handed
    split
    · next blocked =>
      rw [if_pos blocked] at handed
      cases handed
    · next free =>
      rw [if_neg free] at handed
      exact ⟨(Option.some.inj handed).symm, rfl⟩

theorem callHandler_callable {mptr : MessageEntry} (h : Handed)
    (call : callable t doingList cptr mptr = true) :
    callHandler t doingList cptr mptr h = .handler mptr h := by
  rw [callable, Bool.and_eq_true] at call
  have registered : (!((t.client cptr).isServer || (t.client cptr).isClient) &&
      !mptr.allowUnregisteredUse) = false := by
    rw [← Bool.not_or, call.1, Bool.not_true]
  have free : (doingList && !mptr.isList) = false := by
    rw [← Bool.not_not (b := doingList), ← Bool.not_or, call.2, Bool.not_true]
  rw [callHandler, registered, if_neg Bool.false_ne_true, free, if_neg Bool.false_ne_true]

/-- What reaches a handler are the parts of the one line of the grammar that stands in the
buffer, and each line whose command and origin are known and let through reaches it. -/
theorem parse_agrees (t : Tables) (msgTreeRoot : MessageTree) (dead doingList : Bool)
    (cptr : ClientId) (para : Nat → Option Nat) (mem : List Char) (pbuffer : Nat) :
    (∀ h, (parse t msgTreeRoot dead doingList cptr para mem pbuffer).handed = some h →
      ∃ line, Derives (allowedParams msgTreeRoot) (cAt mem pbuffer) line ∧
        (∀ line', Derives (allowedParams msgTreeRoot) (cAt mem pbuffer) line' → line' = line) ∧
        (parse t msgTreeRoot dead doingList cptr para mem pbuffer).IsFor msgTreeRoot line.command ∧
        h.Agrees t cptr line) ∧
    ∀ (line : Line) (from_ : ClientId) (para0 : CStr) (mptr : MessageEntry),
      Derives (allowedParams msgTreeRoot) (cAt mem pbuffer) line → dead = false →
      originOf t cptr (line.origin.map (·.take hostLen)) = .inr (from_, para0) →
      treeParse msgTreeRoot line.command = some mptr → callable t doingList cptr mptr = true →
      ∃ h, parse t msgTreeRoot dead doingList cptr para mem pbuffer = .handler mptr h ∧
        h.Agrees t cptr line := by
  constructor
  · intro h handed
    cases dead with
    | true => cases handed
    | false =>
      obtain ⟨sender, atBody⟩ := cutPrefix_reads mem pbuffer
      cases origin : originOf t cptr ((readOrigin (cAt mem pbuffer)).map (·.take hostLen)) with
      | inl refused =>
        rw [parse, if_neg Bool.false_ne_true] at handed
        dsimp only at handed
        rw [sender, origin] at handed
        rw [originOf_refused origin] at handed
        cases handed
      | inr accepted =>
        obtain ⟨from_, para0⟩ := accepted
        -- an empty body is dropped; any other is a line of the grammar
        by_cases nonblank : readBody (cAt mem pbuffer) = []
        · rw [parse, if_neg Bool.false_ne_true] at handed
          dsimp only at handed
          rw [sender, origin] at handed
          dsimp only at handed
          rw [if_pos (atBody.trans nonblank)] at handed
          cases handed
        · have positive : 0 < allowedParams msgTreeRoot (readCommand (cAt mem pbuffer)) := by
            unfold allowedParams
            split
            · decide
            · split
              · omega
              · decide
          obtain ⟨params, more⟩ := Params.total
            (allowedParams msgTreeRoot (readCommand (cAt mem pbuffer)) - 1)
            (readRest (cAt mem pbuffer)) (head_dropWhile_word _)
          rw [Nat.sub_add_cancel positive] at more
          have derived : Derives (allowedParams msgTreeRoot) (cAt mem pbuffer)
              ⟨readOrigin (cAt mem pbuffer), readCommand (cAt mem pbuffer), params⟩ :=
            derives_iff.mpr ⟨rfl, rfl, nonblank, more⟩
          obtain ⟨h', -, agrees, only, reads⟩ :=
            parse_reads msgTreeRoot doingList para mem pbuffer derived origin
          refine ⟨_, derived, only, ?_⟩
          rw [reads] at handed ⊢
          split at handed
          · next isNumeric =>
            rw [if_pos isNumeric]
            rw [Bool.and_eq_true] at isNumeric
            obtain rfl := Option.some.inj handed
            exact ⟨⟨rfl, isNumeric.1⟩, agrees⟩
          · next notNumeric =>
            rw [if_neg notNumeric]
            cases found : treeParse msgTreeRoot (readCommand (cAt mem pbuffer)) with
            | none =>
              rw [found] at handed
              cases handed
            | some mptr =>
              rw [found] at handed
              obtain ⟨rfl, called⟩ := callHandler_handed doingList handed
              dsimp only
              rw [called]
              exact ⟨found, agrees⟩
  · intro line from_ para0 mptr derived alive origin found call
    subst alive
    obtain ⟨h, -, agrees, -, reads⟩ :=
      parse_reads msgTreeRoot doingList para mem pbuffer derived origin
    refine ⟨h, ?_, agrees⟩
    -- a word of digits is in no message tree
    have word : isNumericWord line.command = false := by
      cases digits : isNumericWord line.command with
      | false => rfl
      | true =>
        rw [treeParse_numeric msgTreeRoot digits] at found
        cases found
    rw [reads, word, Bool.false_and, if_neg Bool.false_ne_true, found]
    exact callHandler_callable doingList h call

end Handing

def chatEntry (cmd : CStr) : MessageEntry :=
  { cmd := cmd, parameters := maxPara, allowUnregisteredUse := false, isList := false }

def chatTree : MessageTree :=
  (doMsgTree newprefRoom [] [chatEntry (lit "NICK"), chatEntry (lit "PRIVMSG")]).elim .null Prod.fst

/-- A line behind blanks, with runs of them, as `dopacket` leaves it in its buffer. -/
def chatLine : List Char := lit "  :anna  privmsg   olly  :hello  there" ++ '\x00' :: lit "stale"

theorem parse_agrees_chatLine :
    ∃ h line, (parse networkServer.toTables chatTree false false 1 (fun _ => some 0) chatLine
        0).handed = some h ∧ Derives (allowedParams chatTree) (cAt chatLine 0) line ∧
      h.Agrees networkServer.toTables 1 line ∧ h.para0 = lit "anna" ∧
      h.params = [some (lit "olly"), some (lit "hello  there")] := by
  have given : ((parse networkServer.toTables chatTree false false 1 (fun _ => some 0) chatLine
      0).handed.map fun h => (h.para0, h.params)) =
      some (lit "anna", [some (lit "olly"), some (lit "hello  there")]) := by decide +kernel
  obtain ⟨h, handed, parts⟩ := Option.map_eq_some_iff.mp given
  obtain ⟨line, derived, -, -, agrees⟩ := (parse_agrees networkServer.toTables chatTree false
    false 1 (fun _ => some 0) chatLine 0).1 h handed
  obtain ⟨para0, params⟩ := Prod.mk.inj parts
  exact ⟨h, line, handed, derived, agrees, para0, params⟩

def spoofedLine : List Char := lit ":anna PRIVMSG bob :hi" ++ ['\x00']

theorem spoofedLine_from_olly :
    Derives (allowedParams chatTree) (cAt spoofedLine 0)
        ⟨some (lit "anna"), lit "PRIVMSG", [lit "bob", lit "hi"]⟩ ∧
      (parse networkServer.toTables chatTree false false 3 (fun _ => none) spoofedLine 0).handed.map
        Handed.para0 = some (lit "olly") := by
  constructor
  · apply derives_iff.mpr
    refine ⟨by decide +kernel, by decide +kernel, by decide +kernel, ?_⟩
    have allowed : allowedParams chatTree (lit "PRIVMSG") = 14 := by decide +kernel
    have rest : readRest (cAt spoofedLine 0) =
        List.replicate 1 ' ' ++ (lit "bob" ++ (List.replicate 1 ' ' ++ ':' :: lit "hi")) := by
      decide +kernel
    have word : IsField (lit "bob") := ⟨by decide, by decide⟩
    rw [allowed, rest]
    exact .middle 0 word (by decide) (.trailing 12 0 (lit "hi"))
  · decide +kernel

end Ircd
