import Ircd.Channel.Store
import Ircd.Conf.MtrieSound

/-! The memory under the trie: `tokenized_host`, which a host is cut up in, and `dns_stack`,
which its pieces are popped from.

A write past `tokenized_host`, a push on the full stack and a pop off the empty one end the
run of the model.
-/

set_option autoImplicit false

namespace Ircd

def maxTldStack : Nat := 100

/-- The `tokenized_host` of a caller, and `dns_stack` with its pointers into it as offsets. What
is popped stays on the stack above its pointer. -/
structure Tokens where
  tokenizedHost : Nat → Char
  dnsStack : Nat → Nat
  stackPointer : Nat

namespace Tokens

def put (t : Tokens) (d : Nat) (c : Char) : Tokens :=
  { t with tokenizedHost := Function.update t.tokenizedHost d c }

def write (t : Tokens) (d : Nat) (c : Char) : Option Tokens :=
  if d < hostLen + 1 then some (t.put d c) else none

def push (t : Tokens) (tokenized : Nat) : Option Tokens :=
  if t.stackPointer < maxTldStack then
    some { t with
      dnsStack := Function.update t.dnsStack t.stackPointer tokenized
      stackPointer := t.stackPointer + 1 }
  else none

def pieceAt (t : Tokens) (p : Nat) : CStr :=
  ((List.range' p (hostLen + 1 - p)).map t.tokenizedHost).takeWhile (· ≠ '\x00')

def pop (t : Tokens) : Option (CStr × Tokens) :=
  match t.stackPointer with
  | 0 => none
  | sp + 1 => some (t.pieceAt (t.dnsStack sp), { t with stackPointer := sp })

def pieces (t : Tokens) : Nat → List CStr
  | 0 => []
  | sp + 1 => t.pieceAt (t.dnsStack sp) :: t.pieces sp

def tokenizeLoop : CStr → Nat → Nat → Tokens → Option Tokens
  | [], d, tokenized, t => (t.write d '\x00').bind (·.push tokenized)
  | c :: p, d, tokenized, t =>
    if c = '.' then
      (t.write d '\x00').bind fun t => (t.push tokenized).bind (tokenizeLoop p (d + 1) (d + 1))
    else (t.write d c).bind (tokenizeLoop p (d + 1) tokenized)

/-- `stack_pointer = 0; tokenize_and_stack(tokenized_host, host)` -/
def stackHost (t : Tokens) (host : CStr) : Option Tokens :=
  ({ t with stackPointer := 0 }.write 0 '\x00').bind (tokenizeLoop host 0 0)

end Tokens

/-- The results 0, -2 and -1 of `sortable`. -/
inductive SortableCode where
  | unsortable
  | wild
  | stacked
  deriving DecidableEq, Repr

def bytesFrom (p : CStr) (behind : Nat → Char) (i : Nat) : Char :=
  if i < p.length then p.getD i '\x00'
  else if i = p.length then '\x00'
  else behind (i - p.length - 1)

namespace Tokens

/-- States 1 and 2 of `sortable`, which do the same, when so many turns are left. -/
def sortableLoop (p : Nat → Char) : Nat → Nat → Nat → Tokens → Option (SortableCode × Tokens)
  | 0, _, _, _ => none
  | turns + 1, d, tokenized, t =>
    let c := p d
    if c = '\x00' then
      (t.write d '\x00').bind fun t => (t.push tokenized).map fun t => (.stacked, t)
    else if c = '*' then some (.unsortable, t)
    else if c = '.' then
      (t.write d '\x00').bind fun t =>
        (t.push tokenized).bind (sortableLoop p turns (d + 1) (d + 1))
    else (t.write d c).bind (sortableLoop p turns (d + 1) tokenized)

/-- `stack_pointer = 0; sortable(tokenized_host, p)`. State 0 goes past the first character
whatever it is, and past the end of an empty string. A turn for each byte of `tokenized_host`
is enough: the last of them ends the loop or the run. -/
def sortable (t : Tokens) (p : CStr) (behind : Nat → Char) : Option (SortableCode × Tokens) :=
  let t := { t with stackPointer := 0 }
  if '?' ∈ p then some (.unsortable, t)
  else if p = ['*'] then some (.wild, t)
  else
    (t.write 0 (bytesFrom p behind 0)).bind
      (sortableLoop (bytesFrom p behind) (hostLen + 1) 1 0)

end Tokens

def tryFirst {α : Type} (q : α → Bool) (f : α → Option α) : List α → Option (List α)
  | [] => some []
  | a :: rest =>
    if q a then (f a).map (· :: rest) else (tryFirst q f rest).map (a :: ·)

/-- `create_sub_mtrie` on the stack below a pointer. -/
def createStacked (t : Tokens) (flags : ConfKind) (aconf : ConfItem) :
    Nat → DomainLevel → Option DomainLevel
  | 0, _ => none
  | sp + 1, level =>
    let piece := t.pieceAt (t.dnsStack sp)
    let level := findOrAddHostPiece level flags piece
    if sp = 0 then some (modifyFrom (isPiece piece) (findOrAddUserPiece flags aconf piece) level)
    else
      tryFirst (isPiece piece)
        (fun p => (createStacked t flags aconf sp p.nextLevel).map (.mk p.data ·)) level

/-- `last_found_iline_aconf`, and `first_kline_trie_list` with `saved_stack_pointer`. -/
structure StackSearch where
  lastFoundIline : Option ConfItem
  firstKline : Option (DomainLevel × Nat)

/-- `find_sub_mtrie` on the stack below a pointer. -/
def findStacked (t : Tokens) (host user : CStr) (flags : ConfKind) :
    Nat → DomainLevel → StackSearch → Option (Option ConfItem × StackSearch)
  | 0, _, _ => none
  | sp + 1, level, s =>
    let piece := t.pieceAt (t.dnsStack sp)
    let aconf := findWildHostPiece level flags piece user
    if flags = .kill ∧ aconf.any ConfItem.kill then some (aconf, s)
    else
      let s := if flags = .kill then s else { s with lastFoundIline := aconf.or s.lastFoundIline }
      match findHostPiece level flags piece with
      | [] => some (if flags = .kill then none else s.lastFoundIline, s)
      | curPiece :: siblings =>
        let s := if curPiece.data.kill ∧ s.firstKline.isNone then
          { s with firstKline := some (level, sp + 1) } else s
        let aconfUser := findUserPiece flags piece user (curPiece :: siblings)
        if sp = 0 then some (aconfUser.or s.lastFoundIline, s)
        else if curPiece.nextLevel ≠ [] then
          findStacked t host user flags sp curPiece.nextLevel s
        else if aconfUser.any (fun a => matchMask a.host host) then some (aconfUser, s)
        else some ((findWildHostPiece level flags piece user).or s.lastFoundIline, s)

namespace Mtrie

/-- What `add_mtrie_conf_entry` does with a mask that `sortable` does not take apart. -/
def addUnsortable (s : Mtrie) (aconf : ConfItem) : Mtrie :=
  if aconf.client then
    if s.unsortableListIlines.any (·.sameMask aconf.host aconf.user) then s
    else { s with unsortableListIlines := aconf :: s.unsortableListIlines }
  else s.addUnsortableKline aconf

def addWildCard (s : Mtrie) (aconf : ConfItem) : Mtrie :=
  if aconf.client then
    match s.findWildCardIline aconf.user with
    | some found =>
      if irccmp aconf.user found.user = .eq then s
      else { s with wildCardIlines := aconf :: s.wildCardIlines }
    | none => { s with wildCardIlines := aconf :: s.wildCardIlines }
  else s.addUnsortableKline aconf

/-- `add_mtrie_conf_entry`, with the bytes behind `aconf->host`. -/
def addStacked (s : Mtrie) (t : Tokens) (rand : Nat → Bool) (aconf : ConfItem) (flags : ConfKind)
    (behind : Nat → Char) : Option Mtrie :=
  match isAddress aconf.host, aconf.kill with
  | some (ipHost, ipMask), true =>
    let aconf := { aconf with ip := ipHost &&& ipMask, ipMask }
    some { s with ipKlines := addIpKline s.ipKlines rand aconf }
  | _, _ =>
    (t.sortable aconf.host behind).bind fun (code, t) =>
      match code with
      | .unsortable => some (s.addUnsortable aconf)
      | .wild => some (s.addWildCard aconf)
      | .stacked =>
        (createStacked t flags aconf t.stackPointer s.trieList).map fun level =>
          { s with trieList := level }

/-- The first search of `find_matching_mtrie_conf`, with the stack as it was before. -/
def searchIline (s : Mtrie) (t : Tokens) (host user : CStr) :
    Option (Option ConfItem × Tokens × StackSearch) :=
  let start : StackSearch := { lastFoundIline := none, firstKline := none }
  if s.trieList ≠ [] then
    (t.stackHost host).bind fun t =>
      (findStacked t host user .client t.stackPointer s.trieList start).map fun (found, search) =>
        (found, t, search)
  else some (none, t, start)

/-- The I-line that it takes where the trie has found `inTrie`. -/
def chooseIline (s : Mtrie) (host user : CStr) (ip : Nat) (inTrie : Option ConfItem) :
    Option ConfItem :=
  match inTrie.filter ConfItem.eLined with
  | some exempt => some exempt
  | none =>
    let byIp := if inTrie.isNone ∧ ip ≠ 0 then s.findMatchingIpILine user ip else none
    match byIp.filter ConfItem.eLined with
    | some exempt => some exempt
    | none => ((s.lookInUnsortableIlines host user).or (inTrie.or byIp)).or
        (s.findWildCardIline user)

def searchKline (s : Mtrie) (t : Tokens) (host user : CStr) (search : StackSearch) :
    Option (Option ConfItem) :=
  if s.trieList ≠ [] then
    match search.firstKline with
    | some (level, saved) => (findStacked t host user .kill saved level search).map (·.1)
    | none => (findStacked t host user .kill t.stackPointer s.trieList search).map (·.1)
  else some none

def findStackedConf (s : Mtrie) (t : Tokens) (host user : CStr) (ip : Nat) :
    Option (Option ConfItem) :=
  match (s.lookInUnsortableIlines host user).filter ConfItem.eLined with
  | some exempt => some (some exempt)
  | none =>
    (s.searchIline t host user).bind fun (inTrie, t, search) =>
      match s.chooseIline host user ip inTrie with
      | none => some none
      | some iline =>
        if iline.eLined then some (some iline)
        else
          (s.searchKline t host user search).map fun inTrie =>
            ((inTrie.or (s.lookInUnsortableKlines host user)).or
              (matchIpKline s.ipKlines ip (some user))).or (some iline)

def klineLevel (level : DomainLevel) (piece : CStr) : Option DomainLevel :=
  match findHostPiece level .kill piece with
  | [] => none
  | curPiece :: _ =>
    if curPiece.data.kill ∧ curPiece.nextLevel ≠ [] then some curPiece.nextLevel else none

/-- `report_matching_host_klines` up to the reports: the level that is reported. -/
def reportMatchingHostKlines (s : Mtrie) (t : Tokens) (host : CStr) :
    Option (Option DomainLevel) :=
  if hostLen < host.length then some none
  else if (isAddress host).isSome then some none
  else
    (t.stackHost host).bind fun t =>
      t.pop.bind fun (piece, t) =>
        match klineLevel s.trieList piece with
        | none => some none
        | some level => t.pop.bind fun (piece, _) => some (klineLevel level piece)

end Mtrie

variable {t : Tokens} {flags : ConfKind} {aconf : ConfItem} {host user : CStr}
  {level : DomainLevel} {sp : Nat}

theorem pieces_eq_nil : t.pieces sp = [] ↔ sp = 0 := by
  cases sp with
  | zero => exact iff_of_true rfl rfl
  | succ sp => exact iff_of_false (List.cons_ne_nil _ _) (Nat.succ_ne_zero sp)

theorem tryFirst_eq {α : Type} {q : α → Bool} {f : α → Option α} {g : α → α}
    (same : ∀ a, f a = some (g a)) (l : List α) : tryFirst q f l = some (modifyFirst q g l) := by
  induction l with
  | nil => rfl
  | cons a rest ih =>
    rw [tryFirst, modifyFirst]
    cases q a with
    | true =>
      rw [if_pos rfl, if_pos rfl, same, Option.map_some]
    | false =>
      rw [if_neg Bool.false_ne_true, if_neg Bool.false_ne_true, ih, Option.map_some]

theorem createStacked_eq (sp : Nat) (level : DomainLevel) :
    createStacked t flags aconf (sp + 1) level =
      some (createSubMtrie flags aconf (t.pieces (sp + 1)) level) := by
  induction sp generalizing level with
  | zero =>
    rw [createStacked, Tokens.pieces, createSubMtrie]
    rfl
  | succ sp ih =>
    rw [createStacked, if_neg (Nat.succ_ne_zero sp), Tokens.pieces, createSubMtrie,
      if_neg (by rw [pieces_eq_nil]; exact Nat.succ_ne_zero sp)]
    apply tryFirst_eq
    intro p
    rw [ih, Option.map_some]

namespace StackSearch

variable {s : StackSearch}

def search (s : StackSearch) (t : Tokens) : Search where
  lastFoundIline := s.lastFoundIline
  firstKline := s.firstKline.map fun saved => (saved.1, t.pieces saved.2)

def Restarts (s : StackSearch) : Prop := ∀ saved, s.firstKline = some saved → saved.2 ≠ 0

end StackSearch

def SearchAgrees (t : Tokens) (host user : CStr) (flags : ConfKind) (sp : Nat)
    (level : DomainLevel) (s : StackSearch) : Prop :=
  ∃ found s', findStacked t host user flags sp level s = some (found, s') ∧
    findSubMtrie host user flags (t.pieces sp) level (s.search t) = (found, s'.search t) ∧
    s'.Restarts

/-- One level: a piece is popped, and another level is entered only if there is one more. -/
theorem searchAgrees_step {s : StackSearch} (restarts : s.Restarts)
    (onwards : sp ≠ 0 → ∀ (level : DomainLevel) (s : StackSearch), s.Restarts →
      SearchAgrees t host user flags sp level s) :
    SearchAgrees t host user flags (sp + 1) level s := by
  unfold SearchAgrees
  rw [Tokens.pieces, findStacked, findSubMtrie]
  dsimp only
  generalize top : t.pieceAt (t.dnsStack sp) = piece
  by_cases hit : flags = .kill ∧ (findWildHostPiece level flags piece user).any ConfItem.kill
  · rw [if_pos hit, if_pos hit]
    exact ⟨_, s, rfl, rfl, restarts⟩
  · rw [if_neg hit, if_neg hit]
    generalize found : findWildHostPiece level flags piece user = aconf
    -- the I-line found so far
    obtain ⟨s₁, same₁, search₁, restarts₁⟩ : ∃ s₁ : StackSearch,
        (if flags = .kill then s else { s with lastFoundIline := aconf.or s.lastFoundIline }) =
          s₁ ∧
        (if flags = .kill then s.search t else
          { s.search t with lastFoundIline := aconf.or (s.search t).lastFoundIline }) =
            s₁.search t ∧ s₁.Restarts := by
      by_cases kill : flags = .kill
      · rw [if_pos kill, if_pos kill]
        exact ⟨s, rfl, rfl, restarts⟩
      · rw [if_neg kill, if_neg kill]
        exact ⟨_, rfl, rfl, restarts⟩
    rw [same₁, search₁]
    cases findHostPiece level flags piece with
    | nil => exact ⟨_, s₁, rfl, rfl, restarts₁⟩
    | cons curPiece siblings =>
      dsimp only
      -- the place where the search for a K-line starts
      obtain ⟨s₂, same₂, search₂, restarts₂⟩ : ∃ s₂ : StackSearch,
          (if curPiece.data.kill = true ∧ s₁.firstKline.isNone = true then
            { s₁ with firstKline := some (level, sp + 1) } else s₁) = s₂ ∧
          (if curPiece.data.kill = true ∧ (s₁.search t).firstKline.isNone = true then
            { s₁.search t with firstKline := some (level, piece :: t.pieces sp) }
            else s₁.search t) = s₂.search t ∧ s₂.Restarts := by
        have none : (s₁.search t).firstKline.isNone = s₁.firstKline.isNone := Option.isNone_map
        rw [none]
        by_cases first : curPiece.data.kill = true ∧ s₁.firstKline.isNone = true
        · rw [if_pos first, if_pos first]
          refine ⟨_, rfl, ?_, ?_⟩
          · rw [StackSearch.search, StackSearch.search, Option.map_some, Tokens.pieces, top]
          · intro saved same
            cases same
            exact Nat.succ_ne_zero sp
        · rw [if_neg first, if_neg first]
          exact ⟨s₁, rfl, rfl, restarts₁⟩
      rw [same₂, search₂]
      by_cases bottom : sp = 0
      · rw [if_pos bottom, if_pos (pieces_eq_nil.mpr bottom)]
        exact ⟨_, s₂, rfl, rfl, restarts₂⟩
      · rw [if_neg bottom, if_neg (mt pieces_eq_nil.mp bottom)]
        by_cases deeper : curPiece.nextLevel ≠ []
        · rw [if_pos deeper, if_pos deeper]
          exact onwards bottom curPiece.nextLevel s₂ restarts₂
        · rw [if_neg deeper, if_neg deeper]
          split
          · exact ⟨_, s₂, rfl, rfl, restarts₂⟩
          · exact ⟨_, s₂, rfl, rfl, restarts₂⟩

/-- `find_sub_mtrie` pops a piece while there is one, and saves no pointer to an empty stack. -/
theorem findStacked_agrees (some_ : sp ≠ 0) (level : DomainLevel) (s : StackSearch)
    (restarts : s.Restarts) : SearchAgrees t host user flags sp level s := by
  induction sp generalizing level s with
  | zero => exact absurd rfl some_
  | succ sp ih => exact searchAgrees_step restarts ih

namespace Tokens

/-- A tokenizer at `d`, which has copied `cur` since the last dot. The pieces before end in
`tokenized_host`. -/
structure Cutting (t : Tokens) (d tokenized : Nat) (cur : CStr) : Prop where
  ends : tokenized + cur.length = d
  copied : ∀ i c, cur[i]? = some c → t.tokenizedHost (tokenized + i) = c
  plain : '\x00' ∉ cur
  closed : ∀ k < t.stackPointer, ∃ e, t.dnsStack k ≤ e ∧ e < d ∧ t.tokenizedHost e = '\x00'
  few : t.stackPointer ≤ d

variable {t t' : Tokens} {d tokenized : Nat} {cur : CStr}

theorem pieceAt_congr {p e : Nat} (from_ : p ≤ e) (before : e < d) (room : d ≤ hostLen + 1)
    (ends : t.tokenizedHost e = '\x00')
    (same : ∀ i < d, t'.tokenizedHost i = t.tokenizedHost i) : t'.pieceAt p = t.pieceAt p := by
  have split : List.range' p (hostLen + 1 - p) =
      List.range' p (e + 1 - p) ++ List.range' (e + 1) (hostLen - e) := by
    have parts : hostLen + 1 - p = (e + 1 - p) + (hostLen - e) := by omega
    rw [parts, ← List.range'_append_1]
    have start : p + (e + 1 - p) = e + 1 := by omega
    rw [start]
  have early : ∀ {front back : CStr}, '\x00' ∈ front →
      (front ++ back).takeWhile (· ≠ '\x00') = front.takeWhile (· ≠ '\x00') := by
    intro front back inside
    rw [List.takeWhile_append, if_neg]
    intro full
    have whole := (List.takeWhile_prefix (p := (· ≠ '\x00')) (l := front)).eq_of_length full
    have zero := List.takeWhile_eq_self_iff.mp whole '\x00' inside
    simp at zero
  have front : (List.range' p (e + 1 - p)).map t'.tokenizedHost =
      (List.range' p (e + 1 - p)).map t.tokenizedHost := by
    apply List.map_congr_left
    intro i inside
    rw [List.mem_range'_1] at inside
    exact same i (by omega)
  have inside : '\x00' ∈ (List.range' p (e + 1 - p)).map t.tokenizedHost :=
    List.mem_map.mpr ⟨e, List.mem_range'_1.mpr (by omega), ends⟩
  rw [pieceAt, pieceAt, split, List.map_append, List.map_append, early (front ▸ inside),
    early inside, front]

theorem pieceAt_eq {p : Nat} (copied : ∀ i c, cur[i]? = some c → t.tokenizedHost (p + i) = c)
    (plain : '\x00' ∉ cur) (room : p + cur.length ≤ hostLen)
    (ends : t.tokenizedHost (p + cur.length) = '\x00') : t.pieceAt p = cur := by
  have split : List.range' p (hostLen + 1 - p) =
      List.range' p cur.length ++ (p + cur.length) ::
        List.range' (p + cur.length + 1) (hostLen - (p + cur.length)) := by
    have parts : hostLen + 1 - p = cur.length + (1 + (hostLen - (p + cur.length))) := by omega
    rw [parts, ← List.range'_append_1, ← List.range'_append_1]
    rfl
  have front : (List.range' p cur.length).map t.tokenizedHost = cur := by
    apply List.ext_getElem (by simp)
    intro i h h'
    rw [List.getElem_map, List.getElem_range', one_mul]
    exact copied i _ (List.getElem?_eq_getElem h')
  rw [pieceAt, split, List.map_append, List.map_cons, front, ends,
    List.takeWhile_append_of_pos]
  · rw [List.takeWhile_cons_of_neg (by simp), List.append_nil]
  · intro c inside
    have other : c ≠ '\x00' := fun zero => plain (zero ▸ inside)
    exact decide_eq_true other

theorem Cutting.pieces_congr (h : Cutting t d tokenized cur) (room : d ≤ hostLen + 1)
    (same : ∀ i < d, t'.tokenizedHost i = t.tokenizedHost i)
    (stack : ∀ k < t.stackPointer, t'.dnsStack k = t.dnsStack k) (n : Nat)
    (below : n ≤ t.stackPointer) : t'.pieces n = t.pieces n := by
  induction n with
  | zero => rfl
  | succ n ih =>
    obtain ⟨e, from_, before, ends⟩ := h.closed n below
    rw [pieces, pieces, ih (by omega), stack n below, pieceAt_congr from_ before room ends same]

theorem write_eq (c : Char) (room : d ≤ hostLen) : t.write d c = some (t.put d c) :=
  if_pos (by omega)

theorem write_eq_none (c : Char) (full : hostLen < d) : t.write d c = none := if_neg (by omega)

theorem put_other (t : Tokens) (c : Char) {i : Nat} (other : i ≠ d) :
    (t.put d c).tokenizedHost i = t.tokenizedHost i :=
  Function.update_of_ne other _ _

theorem put_here (t : Tokens) (d : Nat) (c : Char) : (t.put d c).tokenizedHost d = c :=
  Function.update_self _ _ _

theorem Cutting.pieces_put (h : Cutting t d tokenized cur) (room : d ≤ hostLen) (c : Char) :
    (t.put d c).pieces t.stackPointer = t.pieces t.stackPointer := by
  have same : ∀ i < d, (t.put d c).tokenizedHost i = t.tokenizedHost i :=
    fun i before => t.put_other c (by omega)
  exact h.pieces_congr (by omega) same (fun _ _ => rfl) _ (Nat.le_refl _)

theorem Cutting.copy (h : Cutting t d tokenized cur) {c : Char} (plain : c ≠ '\x00') :
    Cutting (t.put d c) (d + 1) tokenized (cur ++ [c]) where
  ends := by
    rw [List.length_append, List.length_singleton]
    have ends := h.ends
    omega
  copied := by
    intro i c' here
    have ends := h.ends
    by_cases last : i < cur.length
    · rw [List.getElem?_append_left last] at here
      exact (t.put_other c (by omega)).trans (h.copied i c' here)
    · rw [List.getElem?_append_right (by omega)] at here
      obtain ⟨first, rfl⟩ := List.getElem?_eq_some_iff.mp here
      rw [List.length_singleton] at first
      have here : tokenized + i = d := by omega
      rw [here, put_here]
      simp
  plain := by
    rw [List.mem_append, List.mem_singleton, not_or]
    exact ⟨h.plain, plain.symm⟩
  closed := by
    intro k below
    obtain ⟨e, from_, before, zero⟩ := h.closed k below
    exact ⟨e, from_, by omega, (t.put_other c (by omega)).trans zero⟩
  few := h.few.trans (Nat.le_succ d)

theorem cut_some (few : t.stackPointer ≤ d) (room : d ≤ hostLen) (tokenized : Nat) :
    (t.write d '\x00').bind (·.push tokenized) = some { t.put d '\x00' with
      dnsStack := Function.update t.dnsStack t.stackPointer tokenized
      stackPointer := t.stackPointer + 1 } := by
  have bound : t.stackPointer < maxTldStack := by
    have host : hostLen = 63 := rfl
    have stack : maxTldStack = 100 := rfl
    omega
  rw [write_eq _ room, Option.bind_some]
  exact if_pos bound

theorem Cutting.cut (h : Cutting t d tokenized cur) (room : d ≤ hostLen) :
    ∃ t', (t.write d '\x00').bind (·.push tokenized) = some t' ∧
      Cutting t' (d + 1) (d + 1) [] ∧ t'.stackPointer = t.stackPointer + 1 ∧
      t'.pieces t'.stackPointer = cur :: t.pieces t.stackPointer := by
  have few := h.few
  have ends := h.ends
  refine ⟨_, cut_some few room tokenized, ?_, rfl, ?_⟩
  · refine ⟨rfl, fun i c none => ?_, List.not_mem_nil, ?_, ?_⟩
    · cases none
    · intro k below
      dsimp only at below ⊢
      by_cases last : k = t.stackPointer
      · refine ⟨d, ?_, Nat.lt_succ_self d, t.put_here d '\x00'⟩
        rw [last, Function.update_self]
        omega
      · obtain ⟨e, from_, before, zero⟩ := h.closed k (by omega)
        refine ⟨e, ?_, by omega, (t.put_other '\x00' (by omega)).trans zero⟩
        rw [Function.update_of_ne last]
        exact from_
    · dsimp only
      omega
  · rw [pieces]
    congr 1
    · dsimp only
      rw [Function.update_self]
      apply pieceAt_eq _ h.plain (by omega)
      · rw [ends]
        exact t.put_here d '\x00'
      · intro i c here
        have inside := (List.getElem?_eq_some_iff.mp here).1
        exact (t.put_other '\x00' (by omega)).trans (h.copied i c here)
    · apply h.pieces_congr (by omega) _ _ _ (Nat.le_refl _)
      · exact fun i before => t.put_other '\x00' (by omega)
      · intro k below
        have other : k ≠ t.stackPointer := by omega
        exact Function.update_of_ne other _ _

def joinFirst (cur : CStr) : List CStr → List CStr
  | [] => [cur]
  | piece :: more => (cur ++ piece) :: more

theorem joinFirst_nil {l : List CStr} (some_ : l ≠ []) : joinFirst [] l = l := by
  cases l with
  | nil => exact absurd rfl some_
  | cons piece more => rfl

theorem joinFirst_dot (cur p : CStr) :
    joinFirst cur (splitDots ('.' :: p)) = cur :: splitDots p := by
  rw [splitDots, if_pos rfl, joinFirst, List.append_nil]

theorem joinFirst_plain {c : Char} (plain : c ≠ '.') (cur p : CStr) :
    joinFirst cur (splitDots (c :: p)) = joinFirst (cur ++ [c]) (splitDots p) := by
  rw [splitDots, if_neg plain]
  cases pieces : splitDots p with
  | nil => exact absurd pieces (splitDots_ne_nil p)
  | cons piece more =>
    simp only [joinFirst, List.append_assoc, List.singleton_append]

/-- `tokenize_and_stack` from `d` on: the pieces of the rest are pushed on top. -/
theorem tokenizeLoop_eq (p : CStr) (h : Cutting t d tokenized cur) (plain : '\x00' ∉ p)
    (room : d + p.length ≤ hostLen) :
    ∃ t', tokenizeLoop p d tokenized t = some t' ∧ t'.stackPointer ≠ 0 ∧
      t'.pieces t'.stackPointer =
        (joinFirst cur (splitDots p)).reverse ++ t.pieces t.stackPointer := by
  induction p generalizing d tokenized cur t with
  | nil =>
    obtain ⟨t', pushed, -, pointer, pieces⟩ := h.cut room
    refine ⟨t', pushed, by omega, ?_⟩
    rw [pieces, splitDots, joinFirst, List.append_nil]
    rfl
  | cons c p ih =>
    rw [List.mem_cons, not_or] at plain
    rw [List.length_cons] at room
    rw [tokenizeLoop]
    by_cases dot : c = '.'
    · obtain ⟨t₁, pushed, cutting, -, pieces⟩ := h.cut (by omega)
      obtain ⟨t', done, some_, all⟩ := ih cutting plain.2 (by omega)
      refine ⟨t', ?_, some_, ?_⟩
      · rw [if_pos dot, ← Option.bind_assoc, pushed, Option.bind_some, done]
      · rw [all, pieces, dot, joinFirst_dot, joinFirst_nil (splitDots_ne_nil p),
          List.reverse_cons, List.append_assoc]
        rfl
    · obtain ⟨t', done, some_, all⟩ := ih (h.copy (Ne.symm plain.1)) plain.2 (by omega)
      refine ⟨t', ?_, some_, ?_⟩
      · rw [if_neg dot, write_eq _ (by omega), Option.bind_some, done]
      · rw [all, joinFirst_plain dot]
        exact congrArg _ (h.pieces_put (by omega) c)

theorem tokenizeLoop_none (p : CStr) (long : hostLen < d + p.length) :
    tokenizeLoop p d tokenized t = none := by
  induction p generalizing d tokenized t with
  | nil =>
    rw [tokenizeLoop, write_eq_none _ (by simpa using long)]
    rfl
  | cons c p ih =>
    rw [List.length_cons] at long
    have fails : tokenizeLoop p (d + 1) tokenized = fun _ => none := by
      funext t
      exact ih (by omega)
    have fails' : tokenizeLoop p (d + 1) (d + 1) = fun _ => none := by
      funext t
      exact ih (by omega)
    rw [tokenizeLoop, fails, fails']
    simp

theorem cutting_start (t : Tokens) : Cutting { t with stackPointer := 0 } 0 0 [] where
  ends := rfl
  copied := fun i c none => by cases none
  plain := List.not_mem_nil
  closed := fun k below => absurd below (Nat.not_lt_zero k)
  few := Nat.le_refl 0

/-- `tokenize_and_stack` stays inside `tokenized_host` for a host of `HOSTLEN` characters at most,
and its pieces are those of the host. -/
theorem stackHost_eq (t : Tokens) {host : CStr} (plain : '\x00' ∉ host)
    (short : host.length ≤ hostLen) :
    ∃ t', t.stackHost host = some t' ∧ t'.stackPointer ≠ 0 ∧
      t'.pieces t'.stackPointer = tokenizeAndStack host := by
  have start : Cutting ({ t with stackPointer := 0 }.put 0 '\x00') 0 0 [] :=
    { cutting_start t with copied := fun i c none => by cases none
                           closed := fun k below => absurd below (Nat.not_lt_zero k) }
  obtain ⟨t', done, some_, pieces⟩ := tokenizeLoop_eq host start plain (by omega)
  refine ⟨t', ?_, some_, ?_⟩
  · rw [stackHost, write_eq _ (Nat.zero_le _), Option.bind_some, done]
  · rw [pieces, joinFirst_nil (splitDots_ne_nil host)]
    exact List.append_nil _

theorem stackHost_none (t : Tokens) {host : CStr} (long : hostLen < host.length) :
    t.stackHost host = none := by
  rw [stackHost, write_eq _ (Nat.zero_le _), Option.bind_some]
  exact tokenizeLoop_none host (by omega)

variable {p : Nat → Char} {turns : Nat}

/-- Where `sortable` stops inside `tokenized_host`: at a star, or at the end of the string where
there is a byte left for it. -/
def StopsAt (p : Nat → Char) (i : Nat) : Prop :=
  p i = '*' ∧ i ≤ hostLen + 1 ∨ p i = '\x00' ∧ i ≤ hostLen

theorem sortableLoop_isSome (few : t.stackPointer ≤ d) (rest : turns + d = hostLen + 2) :
    (sortableLoop p turns d tokenized t).isSome = true ↔ ∃ i, d ≤ i ∧ StopsAt p i := by
  induction turns generalizing d tokenized t with
  | zero =>
    apply iff_of_false Bool.false_ne_true
    rintro ⟨i, from_, stop⟩
    rcases stop with ⟨-, before⟩ | ⟨-, before⟩
    · omega
    · omega
  | succ turns ih =>
    -- the copy runs until a `*` or the terminator, or over the end of its buffer
    have onwards : ¬ StopsAt p d → ((∃ i, d ≤ i ∧ StopsAt p i) ↔ ∃ i, d + 1 ≤ i ∧ StopsAt p i) := by
      intro other
      constructor
      · rintro ⟨i, from_, stop⟩
        have apart : i ≠ d := fun same => other (same ▸ stop)
        exact ⟨i, by omega, stop⟩
      · rintro ⟨i, from_, stop⟩
        exact ⟨i, by omega, stop⟩
    rw [sortableLoop]
    by_cases zero : p d = '\x00'
    · rw [if_pos zero]
      by_cases room : d ≤ hostLen
      · have pushed := cut_some few room tokenized
        rw [write_eq _ room, Option.bind_some] at pushed ⊢
        rw [pushed]
        exact iff_of_true rfl ⟨d, Nat.le_refl d, .inr ⟨zero, room⟩⟩
      · rw [write_eq_none _ (by omega)]
        apply iff_of_false Bool.false_ne_true
        rintro ⟨i, from_, ⟨star, before⟩ | ⟨-, before⟩⟩
        · have here : i = d := by omega
          rw [here, zero] at star
          cases star
        · omega
    · rw [if_neg zero]
      by_cases star : p d = '*'
      · rw [if_pos star]
        exact iff_of_true rfl ⟨d, Nat.le_refl d, .inl ⟨star, by omega⟩⟩
      · rw [if_neg star]
        have other : ¬ StopsAt p d := by
          rintro (⟨same, -⟩ | ⟨same, -⟩)
          · exact star same
          · exact zero same
        rw [onwards other]
        by_cases room : d ≤ hostLen
        · split
          · rw [← Option.bind_assoc, cut_some few room, Option.bind_some]
            exact ih (Nat.succ_le_succ few) (by omega)
          · rw [write_eq _ room, Option.bind_some]
            exact ih (Nat.le_succ_of_le few) (by omega)
        · rw [write_eq_none _ (by omega), write_eq_none _ (by omega)]
          apply iff_of_false
          · split
            · exact Bool.false_ne_true
            · exact Bool.false_ne_true
          · rintro ⟨i, from_, ⟨-, before⟩ | ⟨-, before⟩⟩
            · omega
            · omega

theorem push_some {t' : Tokens} (pushed : t.push tokenized = some t') : t'.stackPointer ≠ 0 := by
  unfold push at pushed
  split at pushed
  · cases pushed
    exact Nat.succ_ne_zero _
  · cases pushed

theorem sortableLoop_some {t' : Tokens}
    (done : sortableLoop p turns d tokenized t = some (.stacked, t')) : t'.stackPointer ≠ 0 := by
  induction turns generalizing d tokenized t with
  | zero => cases done
  | succ turns ih =>
    rw [sortableLoop] at done
    split at done
    · obtain ⟨t₁, -, done⟩ := Option.bind_eq_some_iff.mp done
      obtain ⟨t₂, pushed, same⟩ := Option.map_eq_some_iff.mp done
      cases same
      exact push_some pushed
    · split at done
      · cases done
      · split at done
        · obtain ⟨t₁, -, done⟩ := Option.bind_eq_some_iff.mp done
          obtain ⟨t₂, -, done⟩ := Option.bind_eq_some_iff.mp done
          exact ih done
        · obtain ⟨t₁, -, done⟩ := Option.bind_eq_some_iff.mp done
          exact ih done

end Tokens

section

variable {behind : Nat → Char} {i : Nat}

theorem bytesFrom_lt {c : Char} (inside : host[i]? = some c) : bytesFrom host behind i = c := by
  obtain ⟨before, rfl⟩ := List.getElem?_eq_some_iff.mp inside
  rw [bytesFrom, if_pos before, List.getD_eq_getElem _ _ before]

theorem bytesFrom_end : bytesFrom host behind host.length = '\x00' := by
  rw [bytesFrom, if_neg (Nat.lt_irrefl _), if_pos rfl]

/-- A mask that is not empty ends the loop inside `tokenized_host` where it is short enough, or a
star ends it before. -/
theorem stopsAt_iff (some_ : host ≠ []) (plain : '\x00' ∉ host) :
    (∃ i, 1 ≤ i ∧ Tokens.StopsAt (bytesFrom host behind) i) ↔
      host.length ≤ hostLen ∨ '*' ∈ (host.take (hostLen + 2)).tail := by
  have star_iff : '*' ∈ (host.take (hostLen + 2)).tail ↔
      ∃ i, 1 ≤ i ∧ i ≤ hostLen + 1 ∧ host[i]? = some '*' := by
    rw [List.mem_iff_getElem?]
    constructor
    · rintro ⟨i, here⟩
      rw [List.getElem?_tail] at here
      have before : i + 1 < hostLen + 2 := by
        by_contra far
        rw [List.getElem?_take_eq_none (by omega)] at here
        cases here
      rw [List.getElem?_take_of_lt before] at here
      exact ⟨i + 1, by omega, by omega, here⟩
    · rintro ⟨i, from_, before, here⟩
      refine ⟨i - 1, ?_⟩
      rw [List.getElem?_tail, Nat.sub_add_cancel from_, List.getElem?_take_of_lt (by omega)]
      exact here
  rw [star_iff]
  constructor
  · rintro ⟨i, from_, stop⟩
    by_cases inside : i < host.length
    · have here : host[i]? = some host[i] := List.getElem?_eq_getElem inside
      rcases stop with ⟨star, before⟩ | ⟨zero, -⟩
      · rw [bytesFrom_lt here] at star
        exact .inr ⟨i, from_, before, star ▸ here⟩
      · rw [bytesFrom_lt here] at zero
        exact absurd (zero ▸ List.getElem_mem inside) plain
    · left
      rcases stop with ⟨star, before⟩ | ⟨-, before⟩
      · have other : i ≠ host.length := by
          rintro rfl
          rw [bytesFrom_end] at star
          cases star
        omega
      · omega
  · rintro (short | ⟨i, from_, before, here⟩)
    · exact ⟨host.length, List.length_pos_iff.mpr some_, .inr ⟨bytesFrom_end, short⟩⟩
    · exact ⟨i, from_, .inl ⟨bytesFrom_lt here, before⟩⟩

theorem stopsAt_empty_iff :
    (∃ i, 1 ≤ i ∧ Tokens.StopsAt (bytesFrom [] behind) i) ↔
      ∃ j, behind j = '*' ∧ j ≤ hostLen ∨ behind j = '\x00' ∧ j < hostLen := by
  have byte : ∀ j, bytesFrom [] behind (j + 1) = behind j := fun j => rfl
  constructor
  · rintro ⟨i, from_, stop⟩
    obtain ⟨j, rfl⟩ : ∃ j, i = j + 1 := ⟨i - 1, by omega⟩
    rw [Tokens.StopsAt, byte] at stop
    refine ⟨j, stop.imp (fun star => ⟨star.1, by omega⟩) fun zero => ⟨zero.1, by omega⟩⟩
  · rintro ⟨j, stop⟩
    refine ⟨j + 1, by omega, ?_⟩
    rw [Tokens.StopsAt, byte]
    exact stop.imp (fun star => ⟨star.1, by omega⟩) fun zero => ⟨zero.1, by omega⟩

theorem sortable_isSome (t : Tokens) : (t.sortable host behind).isSome = true ↔
    '?' ∈ host ∨ host = ['*'] ∨ ∃ i, 1 ≤ i ∧ Tokens.StopsAt (bytesFrom host behind) i := by
  unfold Tokens.sortable
  dsimp only
  by_cases question : '?' ∈ host
  · rw [if_pos question]
    exact iff_of_true rfl (.inl question)
  · rw [if_neg question, or_iff_right question]
    by_cases wild : host = ['*']
    · rw [if_pos wild]
      exact iff_of_true rfl (.inl wild)
    · rw [if_neg wild, or_iff_right wild, Tokens.write_eq _ (Nat.zero_le _), Option.bind_some]
      exact Tokens.sortableLoop_isSome (Nat.zero_le 1) rfl

theorem sortable_some {t t' : Tokens} (done : t.sortable host behind = some (.stacked, t')) :
    t'.stackPointer ≠ 0 := by
  unfold Tokens.sortable at done
  dsimp only at done
  split at done
  · cases done
  · split at done
    · cases done
    · obtain ⟨t₁, -, done⟩ := Option.bind_eq_some_iff.mp done
      exact Tokens.sortableLoop_some done

end

namespace Mtrie

variable {s : Mtrie} {rand : Nat → Bool} {behind : Nat → Char} {ip : Nat}

def IsAddressKline (aconf : ConfItem) : Prop :=
  (isAddress aconf.host).isSome = true ∧ aconf.kill = true

theorem addStacked_isSome (t : Tokens) :
    (s.addStacked t rand aconf flags behind).isSome = true ↔
      IsAddressKline aconf ∨ (t.sortable aconf.host behind).isSome = true := by
  have stacked : ((t.sortable aconf.host behind).bind fun (code, t) =>
      match code with
      | .unsortable => some (s.addUnsortable aconf)
      | .wild => some (s.addWildCard aconf)
      | .stacked =>
        (createStacked t flags aconf t.stackPointer s.trieList).map fun level =>
          { s with trieList := level }).isSome = (t.sortable aconf.host behind).isSome := by
    cases done : t.sortable aconf.host behind with
    | none => rfl
    | some result =>
      obtain ⟨code, t'⟩ := result
      cases code with
      | unsortable => rfl
      | wild => rfl
      | stacked =>
        obtain ⟨sp, pointer⟩ := Nat.exists_eq_succ_of_ne_zero (sortable_some done)
        rw [Option.bind_some]
        dsimp only
        rw [pointer, createStacked_eq]
        rfl
  unfold addStacked IsAddressKline
  cases isAddress aconf.host with
  | none => simpa using congrArg (· = true) stacked
  | some address =>
    cases aconf.kill with
    | false => simpa using congrArg (· = true) stacked
    | true => simp

def firstSearch (s : Mtrie) (host user : CStr) : Option ConfItem × Search :=
  if s.trieList ≠ [] then
    findSubMtrie host user .client (tokenizeAndStack host) s.trieList
      { lastFoundIline := none, firstKline := none }
  else (none, { lastFoundIline := none, firstKline := none })

theorem findIline_of_exempt (ip : Nat) {exempt : ConfItem}
    (found : (s.lookInUnsortableIlines host user).filter ConfItem.eLined = some exempt) :
    (s.findIline host user ip).1 = some exempt := by
  unfold findIline
  dsimp only
  rw [found]

theorem findIline_of_none
    (missed : (s.lookInUnsortableIlines host user).filter ConfItem.eLined = none) :
    s.findIline host user ip = (s.chooseIline host user ip (s.firstSearch host user).1,
      (s.firstSearch host user).2) := by
  have first : (if s.trieList ≠ [] then
      findSubMtrie host user .client (tokenizeAndStack host) s.trieList
        { lastFoundIline := none, firstKline := none }
    else (none, { lastFoundIline := none, firstKline := none })) = s.firstSearch host user := rfl
  unfold findIline chooseIline
  dsimp only
  rw [missed, first]
  dsimp only
  cases (s.firstSearch host user).1.filter ConfItem.eLined with
  | some exempt => rfl
  | none =>
    dsimp only
    generalize (if (s.firstSearch host user).1.isNone = true ∧ ip ≠ 0 then
      s.findMatchingIpILine user ip else none) = byIp
    cases byIp.filter ConfItem.eLined with
    | some exempt => rfl
    | none => rfl

theorem searchIline_eq (t : Tokens) (user : CStr) (plain : '\x00' ∉ host)
    (short : s.trieList ≠ [] → host.length ≤ hostLen) :
    ∃ inTrie t' search, s.searchIline t host user = some (inTrie, t', search) ∧
      s.firstSearch host user = (inTrie, search.search t') ∧ search.Restarts ∧
      (s.trieList ≠ [] → t'.stackPointer ≠ 0 ∧
        t'.pieces t'.stackPointer = tokenizeAndStack host) := by
  have start : StackSearch.Restarts { lastFoundIline := none, firstKline := none } := by
    intro saved none
    cases none
  unfold searchIline firstSearch
  by_cases empty : s.trieList ≠ []
  · rw [if_pos empty, if_pos empty]
    obtain ⟨t', stacked, some_, pieces⟩ := t.stackHost_eq plain (short empty)
    obtain ⟨found, search, done, agrees, restarts⟩ :
        SearchAgrees t' host user .client t'.stackPointer s.trieList
          { lastFoundIline := none, firstKline := none } :=
      findStacked_agrees some_ s.trieList _ start
    rw [pieces] at agrees
    refine ⟨found, t', search, ?_, agrees, restarts, fun _ => ⟨some_, pieces⟩⟩
    dsimp only
    rw [stacked, Option.bind_some, done, Option.map_some]
  · rw [if_neg empty, if_neg empty]
    exact ⟨none, t, _, rfl, rfl, start, fun some_ => absurd some_ empty⟩

theorem searchKline_eq {t : Tokens} {search : StackSearch} (restarts : search.Restarts)
    (stack : s.trieList ≠ [] → t.stackPointer ≠ 0 ∧
      t.pieces t.stackPointer = tokenizeAndStack host) :
    s.searchKline t host user search = some (if s.trieList ≠ [] then
      match (search.search t).firstKline with
      | some (level, stack) => (findSubMtrie host user .kill stack level (search.search t)).1
      | none =>
        (findSubMtrie host user .kill (tokenizeAndStack host) s.trieList (search.search t)).1
      else none) := by
  unfold searchKline
  by_cases empty : s.trieList ≠ []
  · rw [if_pos empty, if_pos empty]
    obtain ⟨some_, pieces⟩ := stack empty
    have first : (search.search t).firstKline =
        search.firstKline.map fun saved => (saved.1, t.pieces saved.2) := rfl
    rw [first]
    -- from the place saved with the last K-line, or from the top
    cases saved : search.firstKline with
    | none =>
      obtain ⟨found, search', done, agrees, -⟩ :
          SearchAgrees t host user .kill t.stackPointer s.trieList search :=
        findStacked_agrees some_ s.trieList search restarts
      rw [pieces] at agrees
      dsimp only
      rw [done, Option.map_some, Option.map_none]
      dsimp only
      rw [agrees]
    | some place =>
      obtain ⟨level, pointer⟩ := place
      obtain ⟨found, search', done, agrees, -⟩ :
          SearchAgrees t host user .kill pointer level search :=
        findStacked_agrees (restarts _ saved) level search restarts
      dsimp only
      rw [done, Option.map_some, Option.map_some]
      dsimp only
      rw [agrees]
  · rw [if_neg empty, if_neg empty]

/-- `find_matching_mtrie_conf` returns before it cuts up the host, or has no trie to look in. -/
def LooksAway (s : Mtrie) (host user : CStr) : Prop :=
  ((s.lookInUnsortableIlines host user).filter ConfItem.eLined).isSome = true ∨ s.trieList = []

instance (s : Mtrie) (host user : CStr) : Decidable (LooksAway s host user) :=
  inferInstanceAs (Decidable (_ ∨ _))

/-- For a host that fits, `find_matching_mtrie_conf` finds on the stack what it finds on pieces. -/
theorem findStackedConf_eq (t : Tokens) (plain : '\x00' ∉ host)
    (short : LooksAway s host user ∨ host.length ≤ hostLen) :
    s.findStackedConf t host user ip = some (s.findMatchingMtrieConf host user ip) := by
  unfold findStackedConf findMatchingMtrieConf
  cases exempt : (s.lookInUnsortableIlines host user).filter ConfItem.eLined with
  | some found =>
    have lined : found.eLined = true := (Option.filter_eq_some_iff.mp exempt).2
    have chosen := findIline_of_exempt ip exempt
    generalize s.findIline host user ip = result at chosen ⊢
    obtain ⟨iline, search⟩ := result
    obtain rfl : iline = some found := chosen
    dsimp only
    rw [if_pos lined]
  | none =>
    have fits : s.trieList ≠ [] → host.length ≤ hostLen := by
      intro some_
      refine short.resolve_left fun away => ?_
      rw [LooksAway, exempt] at away
      exact away.elim Bool.false_ne_true some_
    obtain ⟨inTrie, t', search, done, agrees, restarts, stack⟩ :=
      searchIline_eq t user plain fits
    rw [findIline_of_none exempt, agrees, done, Option.bind_some]
    dsimp only
    cases s.chooseIline host user ip inTrie with
    | none => rfl
    | some iline =>
      dsimp only
      cases iline.eLined with
      | true => rfl
      | false =>
        rw [if_neg Bool.false_ne_true, if_neg Bool.false_ne_true,
          searchKline_eq restarts stack, Option.map_some]
        rfl

theorem findStackedConf_none (t : Tokens) (looks : ¬ LooksAway s host user)
    (long : hostLen < host.length) : s.findStackedConf t host user ip = none := by
  rw [LooksAway, not_or] at looks
  have missed : (s.lookInUnsortableIlines host user).filter ConfItem.eLined = none := by
    rw [← Option.isNone_iff_eq_none, ← Option.not_isSome]
    simpa using looks.1
  unfold findStackedConf searchIline
  dsimp only
  rw [missed, if_pos looks.2, Tokens.stackHost_none t long]
  rfl

/-- `report_matching_host_klines` pops no more than there is: not where the host does not get to
the stack, has a dot, or has no level of K-lines below it. -/
def Reportable (s : Mtrie) (host : CStr) : Prop :=
  hostLen < host.length ∨ (isAddress host).isSome = true ∨ '.' ∈ host ∨
    klineLevel s.trieList host = none

instance (s : Mtrie) (host : CStr) : Decidable (Reportable s host) :=
  inferInstanceAs (Decidable (_ ∨ _ ∨ _ ∨ _))

theorem splitDots_of_plain {p : CStr} (plain : '.' ∉ p) : splitDots p = [p] := by
  induction p with
  | nil => rfl
  | cons c p ih =>
    rw [List.mem_cons, not_or] at plain
    rw [splitDots, if_neg (Ne.symm plain.1), ih plain.2]

theorem length_splitDots_of_dot {p : CStr} (dot : '.' ∈ p) : 1 < (splitDots p).length := by
  induction p with
  | nil => cases dot
  | cons c p ih =>
    by_cases first : c = '.'
    · rw [splitDots, if_pos first, List.length_cons]
      have some_ := List.length_pos_iff.mpr (splitDots_ne_nil p)
      omega
    · have more := ih ((List.mem_cons.mp dot).resolve_left (Ne.symm first))
      rw [splitDots, if_neg first]
      cases pieces : splitDots p with
      | nil => exact absurd pieces (splitDots_ne_nil p)
      | cons piece rest =>
        rw [pieces] at more
        exact more

theorem length_pieces (t : Tokens) (n : Nat) : (t.pieces n).length = n := by
  induction n with
  | zero => rfl
  | succ n ih => rw [Tokens.pieces, List.length_cons, ih]

theorem report_isSome (t : Tokens) (plain : '\x00' ∉ host) :
    (s.reportMatchingHostKlines t host).isSome = true ↔ Reportable s host := by
  unfold reportMatchingHostKlines Reportable
  by_cases long : hostLen < host.length
  · rw [if_pos long]
    exact iff_of_true rfl (.inl long)
  · rw [if_neg long, or_iff_right long]
    by_cases address : (isAddress host).isSome = true
    · rw [if_pos address]
      exact iff_of_true rfl (.inl address)
    · rw [if_neg address, or_iff_right address]
      obtain ⟨t', stacked, some_, pieces⟩ := t.stackHost_eq plain (Nat.not_lt.mp long)
      obtain ⟨sp, pointer⟩ := Nat.exists_eq_succ_of_ne_zero some_
      rw [pointer, Tokens.pieces] at pieces
      -- the first pop is the last piece of the name
      have popped : t'.pop =
          some (t'.pieceAt (t'.dnsStack sp), { t' with stackPointer := sp }) := by
        rw [Tokens.pop, pointer]
      rw [stacked, Option.bind_some, popped, Option.bind_some]
      dsimp only
      by_cases dot : '.' ∈ host
      · -- there is a second piece
        have more := length_splitDots_of_dot dot
        have count := congrArg List.length pieces
        rw [tokenizeAndStack, List.length_reverse, List.length_cons, length_pieces] at count
        obtain ⟨sp', rfl⟩ := Nat.exists_eq_succ_of_ne_zero (by omega : sp ≠ 0)
        apply iff_of_true _ (.inl dot)
        cases klineLevel s.trieList (t'.pieceAt (t'.dnsStack (sp' + 1))) with
        | none => rfl
        | some level => rfl
      · rw [or_iff_right dot]
        rw [tokenizeAndStack, splitDots_of_plain dot, List.reverse_singleton] at pieces
        obtain ⟨piece, rest⟩ := List.cons.inj pieces
        have bottom := pieces_eq_nil.mp rest
        subst bottom
        rw [piece]
        cases klineLevel s.trieList host with
        | none => exact iff_of_true rfl rfl
        | some level => exact iff_of_false Bool.false_ne_true (Option.some_ne_none level)

end Mtrie

/-- A call into the trie: an entry is added, with the bytes behind its host mask in memory, or
looked for, or the K-lines of a domain are reported. -/
inductive TrieCall where
  | add (rand : Nat → Bool) (aconf : ConfItem) (flags : ConfKind) (behind : Nat → Char)
  | find (host user : CStr) (ip : Nat)
  | report (host : CStr)

namespace TrieCall

def given : TrieCall → CStr
  | .add _ aconf _ _ => aconf.host
  | .find host _ _ => host
  | .report host => host

/-- The call writes inside `tokenized_host`, pushes on a stack that is not full and pops from one
that is not empty. -/
def InBounds (s : Mtrie) (t : Tokens) : TrieCall → Prop
  | .add rand aconf flags behind => (s.addStacked t rand aconf flags behind).isSome = true
  | .find host user ip => (s.findStackedConf t host user ip).isSome = true
  | .report host => (s.reportMatchingHostKlines t host).isSome = true

/-- A mask that `sortable` turns down before it writes, or that is short enough or has a star
early enough. Of an empty one it reads what is behind it in memory. -/
def MaskFits (host : CStr) (behind : Nat → Char) : Prop :=
  '?' ∈ host ∨ host = ['*'] ∨
    if host = [] then ∃ j, behind j = '*' ∧ j ≤ hostLen ∨ behind j = '\x00' ∧ j < hostLen
    else host.length ≤ hostLen ∨ '*' ∈ (host.take (hostLen + 2)).tail

def Fits (s : Mtrie) : TrieCall → Prop
  | .add _ aconf _ behind => Mtrie.IsAddressKline aconf ∨ MaskFits aconf.host behind
  | .find host user _ => s.LooksAway host user ∨ host.length ≤ hostLen
  | .report host => s.Reportable host

end TrieCall

/-- A call stays in bounds exactly where its host fits: on any trie, whatever an earlier call has
left on the stack. -/
theorem trieCall_inBounds_iff (s : Mtrie) (t : Tokens) (call : TrieCall)
    (plain : '\x00' ∉ call.given) : call.InBounds s t ↔ call.Fits s := by
  cases call with
  | add rand aconf flags behind =>
    rw [TrieCall.InBounds, TrieCall.Fits, Mtrie.addStacked_isSome, sortable_isSome,
      TrieCall.MaskFits]
    by_cases empty : aconf.host = []
    · rw [if_pos empty, empty, stopsAt_empty_iff]
    · rw [if_neg empty, stopsAt_iff empty plain]
  | find host user ip =>
    have plain : '\x00' ∉ host := plain
    rw [TrieCall.InBounds, TrieCall.Fits]
    by_cases fits : s.LooksAway host user ∨ host.length ≤ hostLen
    · rw [Mtrie.findStackedConf_eq t plain fits]
      exact iff_of_true rfl fits
    · have cut := not_or.mp fits
      rw [Mtrie.findStackedConf_none t cut.1 (Nat.not_le.mp cut.2)]
      exact iff_of_false Bool.false_ne_true fits
  | report host => exact Mtrie.report_isSome t plain

def joeTrie : Mtrie :=
  Mtrie.empty.addMtrieConfEntry (fun _ => true) (confLine .kill "joe" "foo.com") .kill

def noTokens : Tokens where
  tokenizedHost := fun _ => '\x00'
  dnsStack := fun _ => 0
  stackPointer := 0

theorem trieCall_inBounds_foo :
    (TrieCall.find (lit "www.foo.com") (lit "joe") 0).InBounds joeTrie noTokens :=
  (trieCall_inBounds_iff joeTrie noTokens (.find (lit "www.foo.com") (lit "joe") 0)
    (by decide)).mpr (.inr (by decide))

/-- TESTLINE for a host of 64 characters, a K-line for one, and `STATS K` for `com`. -/
theorem trieCall_outOfBounds :
    ¬ (TrieCall.find (List.replicate 64 'a') (lit "joe") 0).InBounds joeTrie noTokens ∧
    ¬ (TrieCall.add (fun _ => true) { confLine .kill "joe" "" with host := List.replicate 64 'a' }
      .kill fun _ => '\x00').InBounds joeTrie noTokens ∧
    ¬ (TrieCall.report (lit "com")).InBounds joeTrie noTokens := by
  refine ⟨?_, ?_, ?_⟩
  · rw [TrieCall.InBounds, Mtrie.findStackedConf_none noTokens (by decide +kernel) (by decide)]
    exact Bool.false_ne_true
  · rw [TrieCall.InBounds, Mtrie.addStacked_isSome, sortable_isSome,
      stopsAt_iff (by decide) (by decide)]
    unfold Mtrie.IsAddressKline
    decide +kernel
  · rw [TrieCall.InBounds, Mtrie.report_isSome noTokens (by decide)]
    decide +kernel

end Ircd
