import Ircd.Channel.Store
import Ircd.Net.Send
import Ircd.Server.NameTable
import Ircd.Text.Format

/-! MAP: `dump_map` draws the tree of servers into one static buffer, a line at a time.

The buffer is memory from `buf` on. A write past its `BUFSIZE` bytes ends the run of the model.
-/

set_option autoImplicit false

namespace Ircd

/-- A list of servers, linked through `lnext`, each with its `serv->servers`. -/
inductive ServerLinks where
  | nil
  | server (name : CStr) (usercnt : Int) (servers lnext : ServerLinks)

structure MapState where
  buf : Nat → Char
  sent : List CStr

/-- What a MAP reads besides the tree: `me.name` and `cptr->name`, as long as the field has room
for, and ` [Users: %d (%1.1f%%)]` of a count, as `snprintf` prints it. -/
structure MapEnv where
  me : CStr
  nick : CStr
  me_short : me.length ≤ hostLen
  nick_short : nick.length ≤ hostLen
  users : Int → CStr

namespace MapState

def store (s : MapState) (p : Nat) (c : Char) : Option MapState :=
  if p < bufSize then some { s with buf := Function.update s.buf p c } else none

def storeAll (s : MapState) (p : Nat) : CStr → Option MapState
  | [] => some s
  | c :: rest => (s.store p c).bind fun s => s.storeAll (p + 1) rest

/-- The end of the string at `buf + p`, where it has one in `buf`. -/
def strEnd (s : MapState) (p : Nat) : Option Nat :=
  (List.range' p (bufSize - p)).find? fun i => s.buf i == '\x00'

def strncat (s : MapState) (p : Nat) (src : CStr) (n : Nat) : Option MapState :=
  (s.strEnd p).bind fun e => s.storeAll e (src.take n ++ ['\x00'])

/-- `snprintf(buf + p, n, ..)` that prints `text`. -/
def snprintf (s : MapState) (p n : Nat) (text : CStr) : Option MapState :=
  if n = 0 then some s else s.storeAll p (text.take (n - 1) ++ ['\x00'])

def text (s : MapState) (n : Nat) : CStr := (List.range n).map s.buf

/-- `sendto_one(cptr, form_str(RPL_MAP), me.name, cptr->name, buf)` -/
def sendMap (s : MapState) (header : CStr) : Option MapState :=
  (s.strEnd 0).map fun e => { s with sent := s.sent ++ [endLine (header ++ s.text e)] }

def redraw (s : MapState) (p : Nat) : Option MapState :=
  if p > 3 then
    (s.store (p - 2) ' ').bind fun s =>
      if s.buf (p - 3) = '`' then s.store (p - 3) ' ' else some s
  else some s

end MapState

namespace ServerLinks

def isNil : ServerLinks → Bool
  | nil => true
  | server .. => false

end ServerLinks

namespace MapEnv

variable (env : MapEnv)

def header : CStr := ':' :: env.me ++ lit " 015 " ++ env.nick ++ lit " :"

def dumpServer (p : Nat) (name : CStr) (usercnt : Int) (servers : ServerLinks) (s : MapState) :
    Option MapState :=
  (s.store p '\x00').bind fun s =>
  (s.strncat p name (bufSize - p)).bind fun s =>
  (s.strEnd 0).bind fun len =>
  (s.store len ' ').bind fun s =>
  (s.snprintf len (bufSize - len) (env.users usercnt)).bind fun s =>
  (s.sendMap env.header).bind fun s =>
  if servers.isNil then some s else s.redraw p

def branch (p : Nat) (lnext : ServerLinks) (s : MapState) : Option MapState :=
  (s.store p ' ').bind fun s =>
  (s.store (p + 1) (if lnext.isNil then '`' else '|')).bind fun s =>
  (s.store (p + 2) '-').bind fun s =>
  s.store (p + 3) ' '

def dumpServers (p : Nat) : ServerLinks → MapState → Option MapState
  | .nil, s => some s
  | .server name usercnt servers lnext, s =>
    (branch p lnext s).bind fun s =>
    (env.dumpServer (p + 4) name usercnt servers s).bind fun s =>
    (dumpServers (p + 4) servers s).bind fun s =>
    dumpServers p lnext s

def dumpMap (p : Nat) (name : CStr) (usercnt : Int) (servers : ServerLinks) (s : MapState) :
    Option MapState :=
  (env.dumpServer p name usercnt servers s).bind (env.dumpServers p servers)

def mMap (usercnt : Int) (servers : ServerLinks) (s : MapState) : Option MapState :=
  (s.store 0 '\x00').bind fun s => (env.dumpMap 0 env.me usercnt servers s).map fun s =>
    { s with sent := s.sent ++ [endLine (':' :: env.me ++ lit " 017 " ++ env.nick ++
      lit " :End of /MAP")] }

end MapEnv

def overlay (buf : Nat → Char) (p : Nat) (cs : CStr) (i : Nat) : Char :=
  if p ≤ i then (cs[i - p]?).getD (buf i) else buf i

theorem overlay_of_lt {buf : Nat → Char} {p i : Nat} {cs : CStr} (before : i < p) :
    overlay buf p cs i = buf i :=
  if_neg (by omega)

theorem overlay_at {buf : Nat → Char} {p i : Nat} {cs : CStr} {c : Char}
    (inside : cs[i]? = some c) : overlay buf p cs (p + i) = c := by
  rw [overlay, if_pos (by omega), Nat.add_sub_cancel_left, inside, Option.getD_some]

namespace MapState

variable {s : MapState} {p : Nat}

theorem storeAll_eq (cs : CStr) (room : p + cs.length ≤ bufSize) :
    s.storeAll p cs = some { s with buf := overlay s.buf p cs } := by
  induction cs generalizing s p with
  | nil =>
    have same : overlay s.buf p [] = s.buf := by
      funext i
      simp [overlay]
    rw [storeAll, same]
  | cons c rest ih =>
    rw [List.length_cons] at room
    rw [storeAll, store, if_pos (by omega), Option.bind_some, ih (by omega)]
    congr 2
    funext i
    dsimp only
    by_cases behind : p + 1 ≤ i
    · have index : i - p = i - (p + 1) + 1 := by omega
      have other : i ≠ p := by omega
      rw [overlay, if_pos behind, overlay, if_pos (by omega), index, List.getElem?_cons_succ,
        Function.update_of_ne other]
    · rw [overlay_of_lt (by omega)]
      by_cases here : i = p
      · subst here
        rw [Function.update_self]
        have first : overlay s.buf i (c :: rest) (i + 0) = c := overlay_at rfl
        exact first.symm
      · rw [Function.update_of_ne here, overlay_of_lt (by omega)]

theorem storeAll_eq_none {cs : CStr} (some_ : cs ≠ []) (beyond : bufSize < p + cs.length) :
    s.storeAll p cs = none := by
  induction cs generalizing s p with
  | nil => exact absurd rfl some_
  | cons c rest ih =>
    rw [List.length_cons] at beyond
    rw [storeAll, store]
    by_cases room : p < bufSize
    · rw [if_pos room, Option.bind_some]
      apply ih _ (by omega)
      intro empty
      rw [empty, List.length_nil] at beyond
      omega
    · rw [if_neg room]
      rfl

theorem strEnd_eq {e : Nat} (from_ : p ≤ e) (inside : e < bufSize) (ends : s.buf e = '\x00')
    (before : ∀ i, p ≤ i → i < e → s.buf i ≠ '\x00') : s.strEnd p = some e := by
  have split : List.range' p (bufSize - p) =
      List.range' p (e - p) ++ e :: List.range' (e + 1) (bufSize - e - 1) := by
    have parts : bufSize - p = (e - p) + (1 + (bufSize - e - 1)) := by omega
    rw [parts, ← List.range'_append_1, ← List.range'_append_1]
    have start : p + (e - p) = e := by omega
    rw [start]
    rfl
  rw [strEnd, split, List.find?_append, List.find?_eq_none.mpr, Option.none_or,
    List.find?_cons_of_pos (by simp [ends])]
  intro i inside
  rw [List.mem_range'_1] at inside
  simpa using before i inside.1 (by omega)

theorem text_add (n k : Nat) :
    s.text (n + k) = s.text n ++ (List.range k).map fun i => s.buf (n + i) := by
  rw [text, text, List.range_add, List.map_append, List.map_map]
  rfl

/-- Where a terminator is behind the first bytes, the string ends behind them. -/
theorem strEnd_ge {n j : Nat} (inside : j < bufSize) (ends : s.buf j = '\x00')
    (before : ∀ i < n, s.buf i ≠ '\x00') : ∃ e, s.strEnd 0 = some e ∧ n ≤ e := by
  cases found : s.strEnd 0 with
  | none =>
    have nowhere := List.find?_eq_none.mp found j (by rw [List.mem_range'_1]; omega)
    rw [ends] at nowhere
    exact absurd rfl nowhere
  | some e =>
    refine ⟨e, rfl, ?_⟩
    have end_ : s.buf e = '\x00' := by
      unfold strEnd at found
      have hit := List.find?_some found
      exact beq_iff_eq.mp hit
    by_contra early
    exact before e (by omega) end_

end MapState

structure AcceptedName (name : CStr) : Prop where
  dotted : '.' ∈ name
  clean : name.all isServChar = true

instance (name : CStr) : Decidable (AcceptedName name) :=
  decidable_of_iff ('.' ∈ name ∧ name.all isServChar = true)
    ⟨fun ⟨dotted, clean⟩ => ⟨dotted, clean⟩, fun ⟨dotted, clean⟩ => ⟨dotted, clean⟩⟩

theorem AcceptedName.notMem {name : CStr} (h : AcceptedName name) {c : Char}
    (bad : isServChar c = false) : c ∉ name := by
  intro inside
  have good := List.all_eq_true.mp h.clean c inside
  rw [bad] at good
  cases good

def isBranch (c : Char) : Bool := c == ' ' || c == '|' || c == '`' || c == '-'

theorem infix_split {c : Char} {name a b : CStr} (inside : name <:+: a ++ c :: b)
    (without : c ∉ name) : name <:+: a ∨ name <:+: b := by
  obtain ⟨front, back, whole⟩ := inside
  rw [List.append_assoc, List.append_eq_append_iff] at whole
  rcases whole with ⟨more, rfl, rest⟩ | ⟨more, rfl, rest⟩
  · -- the name starts in `a`
    rw [List.append_eq_append_iff] at rest
    rcases rest with ⟨gap, rfl, -⟩ | ⟨gap, rfl, rest⟩
    · exact .inl ⟨front, gap, by simp⟩
    · cases gap with
      | nil => exact .inl ⟨front, [], by simp⟩
      | cons d gap =>
        cases rest
        exact absurd (by simp) without
  · cases more with
    | nil =>
      cases name with
      | nil => exact .inl (List.nil_infix)
      | cons d name =>
        cases rest
        exact absurd List.mem_cons_self without
    | cons d more =>
      cases rest
      exact .inr ⟨more, back, by simp⟩

/-- A line that is cut after `n` characters has the name in it where the name is not cut. -/
theorem infix_cut_iff {art name rest : CStr} {n : Nat} (branches : ∀ c ∈ art, isBranch c = true)
    (last : art ≠ [] → art.getLast? = some ' ')
    (shape : AcceptedName name ∨ art.length + name.length ≤ n) :
    name <:+: (art ++ name ++ rest).take n ++ lit "\r\n" ↔ art.length + name.length ≤ n := by
  constructor
  · intro shown
    by_contra cut
    have accepted := shape.resolve_right cut
    have outside : ∀ {part : CStr}, (∀ c ∈ part, isBranch c = true) → ¬ name <:+: part := by
      intro part branches inside
      have dot := branches '.' (inside.subset accepted.dotted)
      cases dot
    have tail : ¬ name <:+: ['\n'] := by
      intro inside
      have dot := inside.subset accepted.dotted
      revert dot
      decide
    have text := (infix_split shown (accepted.notMem (by decide))).resolve_right tail
    rw [List.take_append_of_le_length (by rw [List.length_append]; omega)] at text
    by_cases early : n ≤ art.length
    · rw [List.take_append_of_le_length early] at text
      exact outside (fun c inside => branches c (List.mem_of_mem_take inside)) text
    · rw [List.take_append, List.take_of_length_le (by omega)] at text
      have short : ¬ name <:+: name.take (n - art.length) := by
        intro inside
        have le := inside.length_le
        rw [List.length_take] at le
        omega
      cases art using List.reverseRecOn with
      | nil => exact short text
      | append_singleton art c =>
        have blank : c = ' ' := by simpa using last (by simp)
        subst blank
        rw [List.append_assoc, List.singleton_append] at text
        rcases infix_split text (accepted.notMem (by decide)) with inside | inside
        · exact outside (fun c inside => branches c (by simp [inside])) inside
        · exact short inside
  · intro fits
    rw [List.take_append, List.take_of_length_le (by rw [List.length_append]; omega)]
    exact ⟨art, rest.take (n - (art ++ name).length) ++ lit "\r\n", by
      simp only [List.append_assoc]⟩

/-- The first bytes of `buf` are branches, of four bytes each. -/
def Drawn (buf : Nat → Char) (p : Nat) : Prop :=
  ∀ i < p, isBranch (buf i) = true ∧ (i % 4 = 3 → buf i = ' ')

theorem Drawn.mono {buf : Nat → Char} {p q : Nat} (drawn : Drawn buf q) (le : p ≤ q) :
    Drawn buf p :=
  fun i before => drawn i (by omega)

theorem Drawn.congr {buf buf' : Nat → Char} {p : Nat} (drawn : Drawn buf p)
    (same : ∀ i < p, buf' i = buf i) : Drawn buf' p := by
  intro i before
  rw [same i before]
  exact drawn i before

theorem Drawn.ne_zero {buf : Nat → Char} {p i : Nat} (drawn : Drawn buf p) (before : i < p) :
    buf i ≠ '\x00' := by
  intro zero
  have branch := (drawn i before).1
  rw [zero] at branch
  cases branch

namespace MapEnv

variable {env : MapEnv} {s : MapState} {name : CStr} {usercnt : Int}
  {servers links : ServerLinks} {depth : Nat}

def Shows (env : MapEnv) (name line : CStr) : Prop := name <:+: line.drop env.header.length

def Fits (env : MapEnv) (place : Nat × CStr) : Prop :=
  env.header.length + 4 * place.1 + place.2.length ≤ 510

theorem length_header : env.header.length = env.me.length + env.nick.length + 8 := by
  have mid : (lit " 015 ").length = 5 := rfl
  have last : (lit " :").length = 2 := rfl
  simp only [header, List.length_append, List.length_cons, mid, last]
  omega

theorem header_short : env.header.length ≤ 134 := by
  have me := env.me_short
  have nick := env.nick_short
  rw [length_header]
  simp only [hostLen] at me nick
  omega

theorem writeName (drawn : Drawn s.buf (4 * depth)) (plain : '\x00' ∉ name)
    (room : 4 * depth + name.length < bufSize) :
    ∃ s', ((s.store (4 * depth) '\x00').bind fun s =>
        s.strncat (4 * depth) name (bufSize - 4 * depth)) = some s' ∧
      s'.sent = s.sent ∧ (∀ i < 4 * depth, s'.buf i = s.buf i) ∧
      (∀ i c, name[i]? = some c → s'.buf (4 * depth + i) = c) ∧
      s'.strEnd 0 = some (4 * depth + name.length) := by
  set p := 4 * depth with hp
  set s₁ : MapState := { s with buf := Function.update s.buf p '\x00' } with h₁
  -- the NUL just stored is where `strncat` starts
  have start : s₁.strEnd p = some p :=
    MapState.strEnd_eq (Nat.le_refl p) (by omega) (Function.update_self _ _ _) (by omega)
  have all : name.take (bufSize - p) = name := List.take_of_length_le (by omega)
  set s₂ : MapState := { s₁ with buf := overlay s₁.buf p (name ++ ['\x00']) } with h₂
  have front : ∀ i < p, s₂.buf i = s.buf i := by
    intro i before
    have other : i ≠ p := by omega
    exact (overlay_of_lt before).trans (Function.update_of_ne other _ _)
  have middle : ∀ i c, name[i]? = some c → s₂.buf (p + i) = c := by
    intro i c here
    apply overlay_at
    rw [List.getElem?_append_left (List.getElem?_eq_some_iff.mp here).1]
    exact here
  refine ⟨s₂, ?_, rfl, front, middle, ?_⟩
  · rw [MapState.store, if_pos (by omega), Option.bind_some, MapState.strncat, start,
      Option.bind_some, all, MapState.storeAll_eq _ (by simp; omega)]
  · apply MapState.strEnd_eq (Nat.zero_le _) room
    · exact overlay_at (by simp)
    · intro i _ before
      by_cases art : i < p
      · rw [front i art]
        exact drawn.ne_zero art
      · have inside : i - p < name.length := by omega
        have here := middle (i - p) name[i - p] (List.getElem?_eq_getElem inside)
        rw [Nat.add_sub_cancel' (by omega)] at here
        rw [here]
        intro zero
        exact plain (zero ▸ List.getElem_mem inside)

theorem writeName_none (s : MapState) (name : CStr) (depth : Nat)
    (beyond : bufSize ≤ 4 * depth + name.length) :
    ((s.store (4 * depth) '\x00').bind fun s =>
      s.strncat (4 * depth) name (bufSize - 4 * depth)) = none := by
  set p := 4 * depth
  rw [MapState.store]
  by_cases room : p < bufSize
  · have start : MapState.strEnd { s with buf := Function.update s.buf p '\x00' } p = some p :=
      MapState.strEnd_eq (Nat.le_refl p) room (Function.update_self _ _ _) (by omega)
    rw [if_pos room, Option.bind_some, MapState.strncat, start, Option.bind_some]
    apply MapState.storeAll_eq_none (by simp)
    rw [List.length_append, List.length_take, List.length_singleton]
    omega
  · rw [if_neg room]
    rfl

theorem sendLine (usercnt : Int) (drawn : Drawn s.buf (4 * depth))
    (text : ∀ i c, name[i]? = some c → s.buf (4 * depth + i) = c) (plain : '\x00' ∉ name)
    (ends : s.strEnd 0 = some (4 * depth + name.length))
    (room : 4 * depth + name.length < bufSize)
    (shape : AcceptedName name ∨ env.Fits (depth, name)) :
    ∃ s' line, ((s.strEnd 0).bind fun len =>
        (s.store len ' ').bind fun s =>
        (s.snprintf len (bufSize - len) (env.users usercnt)).bind fun s =>
        s.sendMap env.header) = some s' ∧
      s'.sent = s.sent ++ [line] ∧ (∀ i < 4 * depth, s'.buf i = s.buf i) ∧
      (env.Shows name line ↔ env.Fits (depth, name)) := by
  set p := 4 * depth with hp
  set len := p + name.length with hlen
  set s₁ : MapState := { s with buf := Function.update s.buf len ' ' } with h₁
  set users := (env.users usercnt).take (bufSize - len - 1) ++ ['\x00'] with husers
  have fits : len + users.length ≤ bufSize := by
    rw [husers, List.length_append, List.length_take, List.length_singleton]
    omega
  set s₂ : MapState := { s₁ with buf := overlay s₁.buf len users } with h₂
  have front : ∀ i < len, s₂.buf i = s.buf i := by
    intro i before
    have other : i ≠ len := by omega
    exact (overlay_of_lt before).trans (Function.update_of_ne other _ _)
  -- the bytes before the end are those of the branches and of the name
  have before : ∀ i < len, s₂.buf i ≠ '\x00' := by
    intro i inside
    rw [front i inside]
    by_cases art : i < p
    · exact drawn.ne_zero art
    · have here := text (i - p) name[i - p] (List.getElem?_eq_getElem (by omega))
      rw [Nat.add_sub_cancel' (by omega)] at here
      rw [here]
      intro zero
      exact plain (zero ▸ List.getElem_mem _)
  obtain ⟨e, stop, behind⟩ : ∃ e, s₂.strEnd 0 = some e ∧ len ≤ e := by
    have last : users[users.length - 1]? = some '\x00' := by simp [husers]
    have some_ : 0 < users.length := by simp [husers]
    have zero : s₂.buf (len + (users.length - 1)) = '\x00' := overlay_at last
    exact MapState.strEnd_ge (by omega) zero before
  refine ⟨{ s₂ with sent := s.sent ++ [endLine (env.header ++ s₂.text e)] }, _, ?_, rfl, ?_, ?_⟩
  · rw [ends, Option.bind_some, MapState.store, if_pos room, Option.bind_some, MapState.snprintf,
      if_neg (by omega), MapState.storeAll_eq _ fits, Option.bind_some, MapState.sendMap, stop]
    rfl
  · intro i inside
    exact front i (by omega)
  · have shown : s₂.text e = s₂.text p ++ name ++
        (List.range (e - len)).map fun i => s₂.buf (len + i) := by
      have part : e = p + name.length + (e - len) := by omega
      have middle : ((List.range name.length).map fun i => s₂.buf (p + i)) = name := by
        apply List.ext_getElem (by simp)
        intro i h h'
        rw [List.getElem_map, List.getElem_range, front _ (by omega)]
        exact text i _ (List.getElem?_eq_getElem h')
      conv => lhs; rw [part, MapState.text_add, MapState.text_add, middle]
    have art : (s₂.text p).length = p := by simp [MapState.text]
    have short := env.header_short
    have line : (endLine (env.header ++ s₂.text e)).drop env.header.length =
        (s₂.text e).take (510 - env.header.length) ++ lit "\r\n" := by
      rw [endLine, List.take_append, List.take_of_length_le (by omega), List.append_assoc,
        List.drop_left]
    have branches : ∀ c ∈ s₂.text p, isBranch c = true := by
      intro c inside
      obtain ⟨i, index, rfl⟩ := List.mem_map.mp inside
      rw [List.mem_range] at index
      rw [front i (by omega)]
      exact (drawn i index).1
    have last : s₂.text p ≠ [] → (s₂.text p).getLast? = some ' ' := by
      intro some_
      have pos : 0 < p := by
        rw [← art]
        exact List.length_pos_iff.mpr some_
      rw [List.getLast?_eq_getElem?, art, MapState.text, List.getElem?_map,
        List.getElem?_range (by omega), Option.map_some, front _ (by omega)]
      exact congrArg some ((drawn (p - 1) (by omega)).2 (by omega))
    have room_iff : env.Fits (depth, name) ↔
        (s₂.text p).length + name.length ≤ 510 - env.header.length := by
      rw [art, Fits]
      dsimp only
      omega
    rw [room_iff] at shape ⊢
    rw [Shows, line, shown]
    exact infix_cut_iff branches last shape

theorem redraw_drawn (drawn : Drawn s.buf (4 * depth)) (room : 4 * depth < bufSize) :
    ∃ s', s.redraw (4 * depth) = some s' ∧ s'.sent = s.sent ∧ Drawn s'.buf (4 * depth) := by
  have blank : ∀ {buf : Nat → Char} (q : Nat), Drawn buf (4 * depth) →
      Drawn (Function.update buf q ' ') (4 * depth) := by
    intro buf q drawn i before
    by_cases here : i = q
    · rw [here, Function.update_self]
      exact ⟨rfl, fun _ => rfl⟩
    · rw [Function.update_of_ne here]
      exact drawn i before
  unfold MapState.redraw
  split
  · have second := blank (4 * depth - 2) drawn
    rw [MapState.store, if_pos (by omega), Option.bind_some]
    split
    · refine ⟨_, if_pos (by omega), rfl, blank _ second⟩
    · exact ⟨_, rfl, rfl, second⟩
  · exact ⟨s, rfl, rfl, drawn⟩

theorem dumpServer_spec (usercnt : Int) (servers : ServerLinks)
    (drawn : Drawn s.buf (4 * depth)) (plain : '\x00' ∉ name)
    (shape : AcceptedName name ∨ env.Fits (depth, name)) :
    (∃ s' line, env.dumpServer (4 * depth) name usercnt servers s = some s' ∧
      s'.sent = s.sent ++ [line] ∧ Drawn s'.buf (4 * depth) ∧
      (env.Shows name line ↔ env.Fits (depth, name))) ∨
    env.dumpServer (4 * depth) name usercnt servers s = none ∧ ¬ env.Fits (depth, name) := by
  -- the name is written behind the branches; without room it runs over the buffer
  by_cases room : 4 * depth + name.length < bufSize
  · obtain ⟨s₁, named, sent₁, front₁, text, ends⟩ := writeName drawn plain room
    obtain ⟨s₂, line, lined, sent₂, front₂, shows_⟩ :=
      sendLine usercnt (drawn.congr front₁) text plain ends room shape
    have drawn₂ := (drawn.congr front₁).congr front₂
    have whole : env.dumpServer (4 * depth) name usercnt servers s =
        if servers.isNil then some s₂ else s₂.redraw (4 * depth) := by
      -- the writes before the line and those of the line, each as one step
      have tail : ∀ f : MapState → Option MapState,
          ((s.store (4 * depth) '\x00').bind fun s =>
            (s.strncat (4 * depth) name (bufSize - 4 * depth)).bind f) = f s₁ := by
        intro f
        rw [← Option.bind_assoc, named, Option.bind_some]
      have rest : ∀ f : MapState → Option MapState,
          ((s₁.strEnd 0).bind fun len => (s₁.store len ' ').bind fun s =>
            (s.snprintf len (bufSize - len) (env.users usercnt)).bind fun s =>
            (s.sendMap env.header).bind f) = f s₂ := by
        intro f
        simp only [← Option.bind_assoc] at lined ⊢
        rw [lined, Option.bind_some]
      rw [dumpServer, tail, rest]
    rw [whole]
    left
    -- what was drawn for this server is drawn over for those below it
    cases servers with
    | nil => exact ⟨s₂, line, rfl, by rw [sent₂, sent₁], drawn₂, shows_⟩
    | server name usercnt servers lnext =>
      obtain ⟨s₃, redrawn, sent₃, drawn₃⟩ := redraw_drawn drawn₂ (by omega)
      exact ⟨s₃, line, redrawn, by rw [sent₃, sent₂, sent₁], drawn₃, shows_⟩
  · right
    have beyond := writeName_none s name depth (by omega)
    constructor
    · rw [dumpServer, ← Option.bind_assoc, beyond, Option.bind_none]
    · intro fits
      unfold Fits at fits
      have size : bufSize = 512 := rfl
      dsimp only at fits
      omega

theorem branch_drawn (links : ServerLinks) (drawn : Drawn s.buf (4 * depth))
    (room : 4 * depth + 3 < bufSize) :
    ∃ s', branch (4 * depth) links s = some s' ∧ s'.sent = s.sent ∧
      Drawn s'.buf (4 * (depth + 1)) := by
  have bar : isBranch (if links.isNil = true then '`' else '|') = true := by
    cases links <;> rfl
  unfold branch
  generalize (if links.isNil = true then '`' else '|') = bar at *
  rw [MapState.store, if_pos (by omega), Option.bind_some, MapState.store, if_pos (by omega),
    Option.bind_some, MapState.store, if_pos (by omega), Option.bind_some, MapState.store,
    if_pos room]
  refine ⟨_, rfl, rfl, ?_⟩
  intro i inside
  dsimp only
  by_cases fourth : i = 4 * depth + 3
  · rw [fourth, Function.update_self]
    exact ⟨rfl, fun _ => rfl⟩
  · have order : ¬ i % 4 = 3 ∨ i < 4 * depth := by omega
    rw [Function.update_of_ne fourth]
    by_cases third : i = 4 * depth + 2
    · rw [third, Function.update_self]
      exact ⟨rfl, by omega⟩
    · rw [Function.update_of_ne third]
      by_cases second : i = 4 * depth + 1
      · rw [second, Function.update_self]
        exact ⟨by assumption, by omega⟩
      · rw [Function.update_of_ne second]
        by_cases first : i = 4 * depth
        · rw [first, Function.update_self]
          exact ⟨rfl, fun _ => rfl⟩
        · rw [Function.update_of_ne first]
          exact drawn i (by omega)

theorem branch_none (room : ¬ 4 * depth + 3 < bufSize) : branch (4 * depth) links s = none := by
  simp [branch, MapState.store, room]

end MapEnv

/-- The servers of a list and those behind them, in the order of the lines, each with its
distance from `me`. -/
def ServerLinks.places : ServerLinks → Nat → List (Nat × CStr)
  | .nil, _ => []
  | .server name _ servers lnext, depth =>
    (depth, name) :: (servers.places (depth + 1) ++ lnext.places depth)

namespace MapEnv

variable {env : MapEnv} {s s' s'' : MapState} {name : CStr} {usercnt : Int}
  {servers links : ServerLinks} {depth p : Nat} {places places' : List (Nat × CStr)}

structure Served (env : MapEnv) (s s' : MapState) (lines : List CStr)
    (places : List (Nat × CStr)) : Prop where
  sent : s'.sent = s.sent ++ lines
  each : List.Forall₂ (fun place line => env.Shows place.2 line ↔ env.Fits place) places lines

theorem Served.append {lines lines' : List CStr} (h : env.Served s s' lines places)
    (h' : env.Served s' s'' lines' places') :
    env.Served s s'' (lines ++ lines') (places ++ places') where
  sent := by rw [h'.sent, h.sent, List.append_assoc]
  each := List.rel_append h.each h'.each

/-- What comes of drawing the servers of a list: a line for each of them, with the branches left
of it in place, or a write past the buffer, where one of the names does not fit. -/
def Outcome (env : MapEnv) (s : MapState) (p : Nat) (places : List (Nat × CStr))
    (result : Option MapState) : Prop :=
  (∃ s' lines, result = some s' ∧ env.Served s s' lines places ∧ Drawn s'.buf p) ∨
    result = none ∧ ∃ place ∈ places, ¬ env.Fits place

theorem Outcome.congr {result : Option MapState} (h : env.Outcome s' p places result)
    (same : s'.sent = s.sent) : env.Outcome s p places result := by
  rcases h with ⟨s'', lines, done, served, drawn⟩ | fails
  · exact .inl ⟨s'', lines, done, ⟨served.sent.trans (congrArg (· ++ lines) same), served.each⟩,
      drawn⟩
  · exact .inr fails

theorem Outcome.bind {result : Option MapState} {next : MapState → Option MapState} {q : Nat}
    (h : env.Outcome s q places result)
    (onwards : ∀ s', Drawn s'.buf q → env.Outcome s' p places' (next s')) :
    env.Outcome s p (places ++ places') (result.bind next) := by
  rcases h with ⟨s', lines, rfl, served, drawn⟩ | ⟨rfl, place, inside, cut⟩
  · rcases onwards s' drawn with ⟨s'', lines', done, served', drawn'⟩ | ⟨done, place, inside, cut⟩
    · exact .inl ⟨s'', lines ++ lines', done, served.append served', drawn'⟩
    · exact .inr ⟨done, place, List.mem_append_right places inside, cut⟩
  · exact .inr ⟨rfl, place, List.mem_append_left places' inside, cut⟩

theorem dumpServer_outcome (drawn : Drawn s.buf (4 * depth)) (plain : '\x00' ∉ name)
    (shape : AcceptedName name ∨ env.Fits (depth, name)) :
    env.Outcome s (4 * depth) [(depth, name)]
      (env.dumpServer (4 * depth) name usercnt servers s) := by
  rcases dumpServer_spec usercnt servers drawn plain shape with
    ⟨s', line, done, sent, drawn', shows_⟩ | ⟨done, cut⟩
  · exact .inl ⟨s', [line], done, ⟨sent, .cons shows_ .nil⟩, drawn'⟩
  · exact .inr ⟨done, _, List.mem_singleton_self _, cut⟩

theorem dumpServers_outcome (links : ServerLinks) (drawn : Drawn s.buf (4 * depth))
    (accepted : ∀ place ∈ links.places (depth + 1), AcceptedName place.2) :
    env.Outcome s (4 * depth) (links.places (depth + 1))
      (env.dumpServers (4 * depth) links s) := by
  induction links generalizing s depth with
  | nil => exact .inl ⟨s, [], rfl, ⟨(List.append_nil _).symm, .nil⟩, drawn⟩
  | server name usercnt servers lnext behind after =>
    rw [ServerLinks.places] at accepted ⊢
    rw [dumpServers]
    have own : AcceptedName name := accepted _ List.mem_cons_self
    by_cases room : 4 * depth + 3 < bufSize
    · obtain ⟨s₁, branched, sent₁, drawn₁⟩ := branch_drawn lnext drawn room
      rw [branched, Option.bind_some]
      have first : env.Outcome s₁ (4 * (depth + 1)) [(depth + 1, name)]
          (env.dumpServer (4 * (depth + 1)) name usercnt servers s₁) :=
        dumpServer_outcome drawn₁ (own.notMem (by decide)) (.inl own)
      have rest : ∀ s₂ : MapState, Drawn s₂.buf (4 * (depth + 1)) →
          env.Outcome s₂ (4 * depth) (servers.places (depth + 1 + 1) ++ lnext.places (depth + 1))
            ((env.dumpServers (4 * (depth + 1)) servers s₂).bind
              (env.dumpServers (4 * depth) lnext)) := by
        intro s₂ drawn₂
        apply (behind drawn₂ fun place inside => accepted place (by simp [inside])).bind
        intro s₃ drawn₃
        exact after (drawn₃.mono (by omega)) fun place inside => accepted place (by simp [inside])
      exact (first.bind rest).congr sent₁
    · rw [branch_none room]
      refine .inr ⟨rfl, _, List.mem_cons_self, fun fits => ?_⟩
      have size : bufSize = 512 := rfl
      unfold Fits at fits
      dsimp only at fits
      omega

/-- The tree is drawn inside the buffer, with one line for each server, in which its name
stands. -/
def Complete (env : MapEnv) (places : List (Nat × CStr)) (s : MapState)
    (result : Option MapState) : Prop :=
  ∃ s' lines, result = some s' ∧ s'.sent = s.sent ++ lines ∧
    List.Forall₂ (fun place line => env.Shows place.2 line) places lines

theorem shown_iff_fit {lines : List CStr}
    (each : List.Forall₂ (fun place line => env.Shows place.2 line ↔ env.Fits place) places lines) :
    List.Forall₂ (fun place line => env.Shows place.2 line) places lines ↔
      ∀ place ∈ places, env.Fits place := by
  induction each with
  | nil => exact iff_of_true .nil fun place inside => by cases inside
  | cons first _ ih => rw [List.forall₂_cons, List.forall_mem_cons, first, ih]

theorem Outcome.complete_iff {result : Option MapState} (h : env.Outcome s p places result) :
    env.Complete places s result ↔ ∀ place ∈ places, env.Fits place := by
  rcases h with ⟨s', lines, rfl, served, -⟩ | ⟨rfl, place, inside, cut⟩
  · rw [← shown_iff_fit served.each]
    constructor
    · rintro ⟨s'', lines', same, sent, shown⟩
      cases same
      rw [served.sent, List.append_cancel_left_eq] at sent
      rwa [sent]
    · exact fun shown => ⟨s', lines, rfl, served.sent, shown⟩
  · apply iff_of_false
    · rintro ⟨s', lines, done, -⟩
      cases done
    · exact fun fits => cut (fits place inside)

theorem dumpMap_outcome (env : MapEnv) (usercnt : Int) (servers : ServerLinks) (s : MapState)
    (plain : '\x00' ∉ env.me) (accepted : ∀ place ∈ servers.places 1, AcceptedName place.2) :
    env.Outcome s (4 * 0) ((0, env.me) :: servers.places 1)
      (env.dumpMap 0 env.me usercnt servers s) := by
  have own : env.Fits (0, env.me) := by
    have short := env.header_short
    have me := env.me_short
    have host : hostLen = 63 := rfl
    unfold Fits
    dsimp only
    omega
  have drawn : Drawn s.buf (4 * 0) := fun i before => by omega
  have root : env.Outcome s (4 * 0) [(0, env.me)]
      (env.dumpServer (4 * 0) env.me usercnt servers s) :=
    dumpServer_outcome drawn plain (.inr own)
  exact root.bind fun s' drawn' => dumpServers_outcome servers drawn' accepted

/-- MAP is complete and stays in its buffer exactly where every server is near enough for its
name: 510 characters have room for the two names of the numeric and the eight that belong to
it, four for each server on the way and the name. -/
theorem dumpMap_complete_iff (env : MapEnv) (usercnt : Int) (servers : ServerLinks) (s : MapState)
    (plain : '\x00' ∉ env.me) (accepted : ∀ place ∈ servers.places 1, AcceptedName place.2) :
    env.Complete ((0, env.me) :: servers.places 1) s (env.dumpMap 0 env.me usercnt servers s) ↔
      ∀ place ∈ servers.places 1,
        env.me.length + env.nick.length + 8 + 4 * place.1 + place.2.length ≤ 510 := by
  have found := (dumpMap_outcome env usercnt servers s plain accepted).complete_iff
  rw [List.forall_mem_cons] at found
  simp only [Fits, length_header] at found
  have me := env.me_short
  have nick := env.nick_short
  have host : hostLen = 63 := rfl
  exact found.trans (and_iff_right (by omega))

end MapEnv

/-- The user `olly` of `a.net` asks, when each count is printed in the same way. -/
def ollyAsks : MapEnv where
  me := lit "a.net"
  nick := lit "olly"
  me_short := by decide
  nick_short := by decide
  users := fun _ => lit " [Users: 1 (33.3%)]"

def freshMap : MapState where
  buf := fun _ => '\x00'
  sent := []

def threeServers : ServerLinks :=
  .server (lit "b.net") 1 (.server (lit "c.net") 1 .nil .nil)
    (.server (lit "d.net") 1 .nil .nil)

theorem dumpMap_complete_three :
    ollyAsks.Complete ((0, lit "a.net") :: threeServers.places 1) freshMap
      (ollyAsks.dumpMap 0 (lit "a.net") 1 threeServers freshMap) :=
  (ollyAsks.dumpMap_complete_iff 1 threeServers freshMap (by decide) (by decide)).mpr (by decide)

def serverChain : Nat → ServerLinks
  | 0 => .nil
  | n + 1 => .server ('s' :: decimal n ++ lit ".net") 1 (serverChain n) .nil

theorem dumpMap_incomplete_chain :
    (∀ place ∈ (serverChain 130).places 1, AcceptedName place.2) ∧
    ¬ ollyAsks.Complete ((0, lit "a.net") :: (serverChain 130).places 1) freshMap
      (ollyAsks.dumpMap 0 (lit "a.net") 1 (serverChain 130) freshMap) := by
  have accepted : ∀ place ∈ (serverChain 130).places 1, AcceptedName place.2 := by
    decide +kernel
  refine ⟨accepted, fun complete => ?_⟩
  have fit := ((ollyAsks.dumpMap_outcome 1 (serverChain 130) freshMap (by decide)
    accepted).complete_iff.mp complete) (130, lit "s0.net") (by decide +kernel)
  revert fit
  unfold MapEnv.Fits
  decide

end Ircd
