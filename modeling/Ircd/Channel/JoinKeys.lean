import Ircd.Channel.Lifetime
import Ircd.Channel.RemoteJoin

/-! The keys of a JOIN and the channels they are for.

The first pass of `m_join` drops names and `strtoken` drops empty elements of both lists,
so that the second pass pairs a channel with the key of its rank among what is left.
`keptNames` keeps for each name the position at which it was typed.
-/

set_option autoImplicit false

namespace Ircd

def listElements (s : CStr) : List CStr := s.splitOnP isComma

def isWord (s : CStr) : Bool := s != []

@[simp] theorem isWord_nil : isWord [] = false := rfl

@[simp] theorem isWord_concat (s : CStr) (c : Char) : isWord (s ++ [c]) = true := by
  cases s <;> rfl

theorem tokens_eq_split (fs : Char → Bool) (s : CStr) :
    tokens fs s = (s.splitOnP fs).filter isWord := by
  have begun (current : CStr) : tokensFrom fs current s =
      ((s.splitOnP fs).modifyHead (current.reverse ++ ·)).filter isWord := by
    induction s generalizing current with
    | nil =>
      cases current with
      | nil => rfl
      | cons c current => simp [tokensFrom]
    | cons c s ih =>
      obtain ⟨head, tail, pieces⟩ := List.exists_cons_of_ne_nil (List.splitOnP_ne_nil fs s)
      rw [tokensFrom, List.splitOnP_cons_eq_if_modifyHead]
      cases sep : fs c with
      | true =>
        have rest := ih []
        cases current with
        | nil => simp [rest, pieces]
        | cons d current => simp [rest, pieces]
      | false =>
        have rest := ih (c :: current)
        simp [rest, pieces]
  obtain ⟨head, tail, pieces⟩ := List.exists_cons_of_ne_nil (List.splitOnP_ne_nil fs s)
  rw [tokens, begun, pieces]
  rfl

theorem joinRoom_listElements (s : CStr) : joinRoom (listElements s) = s.length + 1 := by
  unfold joinRoom listElements
  induction s with
  | nil => rfl
  | cons c s ih =>
    rw [List.splitOnP_cons_eq_if_modifyHead]
    obtain ⟨head, tail, pieces⟩ := List.exists_cons_of_ne_nil (List.splitOnP_ne_nil isComma s)
    rw [pieces] at ih ⊢
    simp only [List.map_cons, List.sum_cons] at ih
    split
    · simp only [List.map_cons, List.sum_cons, List.length_nil, List.length_cons]
      omega
    · simp only [List.modifyHead_cons, List.map_cons, List.sum_cons, List.length_cons]
      omega

theorem no_comma_listElements {s name : CStr} (inside : name ∈ listElements s) :
    ∀ c ∈ name, isComma c = false := by
  intro c member
  have some : isWord name = true := by
    cases name with
    | nil => cases member
    | cons d name => rfl
  have token : name ∈ tokens isComma s := by
    rw [tokens_eq_split]
    exact List.mem_filter.mpr ⟨inside, some⟩
  exact not_sep_of_mem_tokens token c member

theorem tokens_commaList_words {names : List CStr}
    (plain : ∀ name ∈ names, name ≠ [] ∧ ∀ c ∈ name, isComma c = false) :
    tokens isComma (commaList names) = names := by
  induction names with
  | nil => rfl
  | cons name rest ih =>
    obtain ⟨some, clean⟩ := plain name List.mem_cons_self
    have first : tokens isComma name = [name] := by
      rw [tokens, tokensFrom_of_no_sep clean]
      exact if_neg some
    have others := ih fun n inside => plain n (List.mem_cons_of_mem _ inside)
    by_cases last : rest = []
    · rw [last, commaList_single, first]
    · rw [commaList_cons name last, tokens, tokensFrom_append isComma ',' rfl]
      exact congrArg₂ (· ++ ·) first others

theorem commaList_append (names : List CStr) (name : CStr) :
    commaList (names ++ [name]) =
      if names = [] then name else commaList names ++ ',' :: name := by
  induction names with
  | nil => exact commaList_single name
  | cons first rest ih =>
    have more : rest ++ [name] ≠ [] := by simp
    rw [List.cons_append, commaList_cons first more, ih, if_neg (List.cons_ne_nil _ _)]
    by_cases last : rest = []
    · rw [if_pos last, last, commaList_single]
    · rw [if_neg last, commaList_cons first last, List.append_assoc, List.cons_append]

/-- What the first pass makes of an element and its position, `kept` being what it has
kept so far. -/
def keepName (cl : Client) (kept : List (CStr × Nat)) (typed : CStr × Nat) : List (CStr × Nat) :=
  if typed.1 = [] ∨ !checkChannelName typed.1 ∨ (isLocalName typed.1 ∧ !cl.myConnect) then kept
  else if isJoinZero typed.1 then [typed]
  else if !isChannelName typed.1 then kept
  else kept ++ [typed]

/-- The names that the second pass runs through, with the positions at which they were
typed. -/
def keptNames (cl : Client) (names : CStr) : List (CStr × Nat) :=
  (listElements names).zipIdx.foldl (keepName cl) []

/-- The first pass as far as it has come: `jbuf` lists what is kept, and there is room
for the rest. -/
structure Keeps (cl : Client) (sptr : ClientId) (kept : List (CStr × Nat)) (room : Nat)
    (st : JoinList) : Prop where
  client : st.srv.client sptr = cl
  jbuf : st.jbuf = commaList (kept.map Prod.fst)
  plain : ∀ name ∈ kept.map Prod.fst, name ≠ [] ∧ ∀ c ∈ name, isComma c = false
  room : st.i + room ≤ bufSize

namespace Keeps

variable {cl : Client} {sptr : ClientId} {kept : List (CStr × Nat)} {room : Nat} {st : JoinList}

theorem jbuf_eq_nil_iff (h : Keeps cl sptr kept room st) :
    st.jbuf = [] ↔ kept.map Prod.fst = [] := by
  have tokens := tokens_commaList_words h.plain
  rw [← h.jbuf] at tokens
  constructor
  · intro empty
    rw [empty] at tokens
    exact tokens.symm
  · intro none
    rw [h.jbuf, none]
    rfl

theorem less (h : Keeps cl sptr kept room st) {left : Nat} (le : left ≤ room) :
    Keeps cl sptr kept left st where
  client := h.client
  jbuf := h.jbuf
  plain := h.plain
  room := by
    have room := h.room
    omega

theorem append (h : Keeps cl sptr kept room st) {name : CStr} (some : name ≠ [])
    (clean : ∀ c ∈ name, isComma c = false) {left : Nat} (fits : name.length + 1 + left ≤ room)
    (p : Nat) : Keeps cl sptr (kept ++ [(name, p)]) left (st.append name) where
  client := h.client
  jbuf := by
    have whole : name.take (jbufRoom st.i) = name := by
      apply List.take_of_length_le
      have room := h.room
      unfold jbufRoom bufSize at *
      omega
    simp only [JoinList.append, whole, List.map_append, List.map_cons, List.map_nil]
    rw [commaList_append]
    by_cases none : kept.map Prod.fst = []
    · rw [if_pos none, if_neg (not_not.mpr (h.jbuf_eq_nil_iff.mpr none)),
        h.jbuf_eq_nil_iff.mpr none, List.nil_append]
    · rw [if_neg none, if_pos (mt h.jbuf_eq_nil_iff.mp none), h.jbuf, List.append_assoc,
        List.singleton_append]
  plain := by
    intro other inside
    rw [List.map_append, List.mem_append] at inside
    rcases inside with old | new
    · exact h.plain other old
    · rw [List.mem_singleton.mp new]
      exact ⟨some, clean⟩
  room := by
    have room := h.room
    simp only [JoinList.append]
    omega

theorem element (h : Keeps cl sptr kept room st) {name : CStr} (some : name ≠ [])
    (clean : ∀ c ∈ name, isComma c = false) {left : Nat} (fits : name.length + 1 + left ≤ room)
    (p : Nat) (parv0 : CStr) :
    Keeps cl sptr (keepName cl kept (name, p)) left (st.element sptr parv0 name) := by
  have stays : Keeps cl sptr kept left st := h.less (by omega)
  unfold keepName JoinList.element
  rw [h.client]
  dsimp only
  by_cases bad : !checkChannelName name
  · rw [if_pos bad, if_pos (Or.inr (Or.inl bad))]
    exact ⟨stays.client, stays.jbuf, stays.plain, stays.room⟩
  rw [if_neg bad]
  by_cases elsewhere : isLocalName name ∧ !cl.myConnect
  · rw [if_pos elsewhere, if_pos (Or.inr (Or.inr elsewhere))]
    exact stays
  have given : ¬ (name = [] ∨ !checkChannelName name ∨ isLocalName name ∧ !cl.myConnect) := by
    rintro (none | other | other)
    · exact some none
    · exact bad other
    · exact elsewhere other
  rw [if_neg elsewhere, if_neg given]
  by_cases zero : isJoinZero name
  · rw [if_pos zero, if_pos zero]
    have cleared : Keeps cl sptr [] room { st with jbuf := [] } :=
      ⟨h.client, rfl, fun _ absurdity => (by cases absurdity), h.room⟩
    exact cleared.append some clean fits p
  rw [if_neg zero, if_neg zero]
  by_cases other : !isChannelName name
  · rw [if_pos other, if_pos other]
    split
    · exact ⟨stays.client, stays.jbuf, stays.plain, stays.room⟩
    · exact stays
  · rw [if_neg other, if_neg other]
    exact h.append some clean fits p

/-- The first pass over a list: the tokens against the elements with their positions. -/
theorem elements (parv0 : CStr) {names : List CStr}
    (clean : ∀ name ∈ names, ∀ c ∈ name, isComma c = false) (n : Nat)
    (h : Keeps cl sptr kept (joinRoom names) st) :
    Keeps cl sptr ((names.zipIdx n).foldl (keepName cl) kept) 0
      ((names.filter isWord).foldl (fun st name => st.element sptr parv0 name) st) := by
  induction names generalizing n kept st with
  | nil => exact h
  | cons name names ih =>
    have later := fun other (inside : other ∈ names) => clean other (List.mem_cons_of_mem _ inside)
    have room : joinRoom (name :: names) = name.length + 1 + joinRoom names := by
      simp [joinRoom]
    rw [List.zipIdx_cons, List.foldl_cons]
    by_cases none : name = []
    · subst none
      exact ih later (n + 1) (h.less (by omega))
    · have word : isWord name = true := by simpa [isWord] using none
      rw [List.filter_cons, if_pos word, List.foldl_cons]
      apply ih later (n + 1)
      exact h.element none (clean name List.mem_cons_self) (Nat.le_of_eq room.symm) n parv0

end Keeps

theorem joinNames_eq_keptNames (s : Server) (sptr : ClientId) (parv : List CStr)
    (fits : (parv.getD 1 []).length < bufSize) :
    joinNames s sptr parv = (keptNames (s.client sptr) (parv.getD 1 [])).map Prod.fst := by
  have start : Keeps (s.client sptr) sptr [] (joinRoom (listElements (parv.getD 1 [])))
      { srv := s, jbuf := [], i := 0 } := by
    refine ⟨rfl, rfl, fun _ absurdity => (by cases absurdity), ?_⟩
    rw [joinRoom_listElements]
    dsimp only
    omega
  have done := Keeps.elements (parv.getD 0 []) (fun name inside => no_comma_listElements inside) 0
    start
  unfold joinNames joinList
  rw [tokens_eq_split isComma (parv.getD 1 [])]
  exact (congrArg (tokens isComma) done.jbuf).trans (tokens_commaList_words done.plain)

namespace JoinLoop

variable (st : JoinLoop) (cptr sptr : ClientId) (parv0 name : CStr)

/-- The key that `can_join` is given for a name, where the second pass calls it. -/
def canJoinKey : Option (Option CStr) :=
  if st.returned ∨ isJoinZero name then none
  else
    match st.lookup sptr parv0 name with
    | .error _ => none
    | .ok st =>
      let (st, name) := st.ensureChannel sptr name
      match st.checkMember sptr parv0 name with
      | .error _ => none
      | .ok (st, _) => if (st.srv.client sptr).myConnect then some st.key else none

theorem leaveAll_keys (cs : List ChanId) : (leaveAll sptr parv0 cs st).keys = st.keys := by
  induction cs generalizing st with
  | nil => rfl
  | cons c cs ih => exact ih _

theorem joinZero_keys : (st.joinZero cptr sptr parv0).keys = st.keys := by
  unfold joinZero
  split
  · rfl
  · exact leaveAll_keys st sptr parv0 _

theorem countJoin_keys : st.countJoin.keys = st.keys := by
  unfold countJoin
  split <;> rfl

theorem noteJoinTime_keys : (st.noteJoinTime sptr).keys = st.keys := by
  unfold noteJoinTime
  split <;> rfl

theorem localLimits_keys : (ended (st.localLimits sptr parv0 name)).keys = st.keys := by
  unfold localLimits
  split
  · exact noteJoinTime_keys _ sptr
  · split
    · exact st.countJoin_keys
    · exact st.countJoin_keys

theorem lookup_keys : (ended (st.lookup sptr parv0 name)).keys = st.keys := by
  unfold lookup
  split
  · unfold localLookup
    split
    · exact localLimits_keys _ sptr parv0 name
    · split
      · rfl
      · exact localLimits_keys _ sptr parv0 name
  · unfold remoteLookup ended
    dsimp only
    split <;> rfl

theorem ensureChannel_keys : (st.ensureChannel sptr name).1.keys = st.keys := by
  unfold ensureChannel
  split <;> rfl

theorem checkMember_keys {st' : JoinLoop} {c : ChanId}
    (passed : st.checkMember sptr parv0 name = .ok (st', c)) : st' = st := by
  unfold checkMember at passed
  split at passed
  · cases passed
  · split at passed
    · cases passed
    · cases passed
      rfl

theorem canJoinKey_eq {key : Option CStr} (given : st.canJoinKey sptr parv0 name = some key) :
    st.returned = false ∧ key = st.keys.head? := by
  unfold canJoinKey at given
  split at given
  · cases given
  next going =>
  have going : st.returned = false := by
    apply Bool.eq_false_iff.mpr
    intro returned
    exact going (Or.inl returned)
  refine ⟨going, ?_⟩
  -- nothing before the key is taken touches the list of keys
  have keys := st.lookup_keys sptr parv0 name
  cases looked : st.lookup sptr parv0 name with
  | error st' =>
    rw [looked] at given
    cases given
  | ok st' =>
    rw [looked] at given keys
    have ensured := st'.ensureChannel_keys sptr name
    dsimp only at given
    generalize st'.ensureChannel sptr name = block at given ensured
    obtain ⟨st₁, name₁⟩ := block
    dsimp only at given ensured
    cases member : st₁.checkMember sptr parv0 name₁ with
    | error st₂ =>
      rw [member] at given
      cases given
    | ok entry =>
      rw [member] at given
      obtain ⟨st₂, c⟩ := entry
      dsimp only at given
      rw [checkMember_keys st₁ sptr parv0 name₁ member] at given
      split at given
      · have head : st₁.keys.head? = key := Option.some.inj given
        rw [← head, ensured]
        exact congrArg List.head? keys
      · cases given

theorem checkCanJoin_keys (c : ChanId) :
    (ended (st.checkCanJoin sptr c parv0 name)).keys = st.keys := by
  unfold checkCanJoin
  split
  · dsimp only
    split <;> rfl
  · rfl

theorem joinBlock_keys : (ended (st.joinBlock cptr sptr parv0 name)).keys = st.keys := by
  unfold joinBlock
  cases member : st.checkMember sptr parv0 name with
  | error st' =>
    unfold checkMember at member
    split at member
    · cases member
      rfl
    · split at member
      · cases member
        rfl
      · cases member
  | ok entry =>
    obtain ⟨st', c⟩ := entry
    have same := checkMember_keys st sptr parv0 name member
    subst same
    have checked := st'.checkCanJoin_keys sptr parv0 name c
    show (ended ((st'.checkCanJoin sptr c parv0 name).bind fun st =>
      .ok { st with srv := st.srv.enterChannel cptr sptr c st.flags parv0 name })).keys = _
    cases entered : st'.checkCanJoin sptr c parv0 name with
    | error st₁ =>
      rw [entered] at checked
      exact checked
    | ok st₁ =>
      rw [entered] at checked
      exact checked

theorem body_keys : (ended (st.body cptr sptr parv0 name)).keys = st.keys := by
  have keys := st.lookup_keys sptr parv0 name
  unfold body
  cases looked : st.lookup sptr parv0 name with
  | error st' =>
    rw [looked] at keys
    exact keys
  | ok st' =>
    rw [looked] at keys
    have block := joinBlock_keys (st'.ensureChannel sptr name).1 cptr sptr parv0
      (st'.ensureChannel sptr name).2
    exact (block.trans (st'.ensureChannel_keys sptr name)).trans keys

theorem element_keys (going : st.returned = false) :
    (st.element cptr sptr parv0 name).keys = st.keys.tail := by
  unfold element
  rw [if_neg (by rw [going]; exact Bool.false_ne_true)]
  dsimp only
  split
  · rw [joinZero_keys]
  · rw [body_keys]

theorem elements_keys (names : List CStr)
    (going : (st.elements cptr sptr parv0 names).returned = false) :
    (st.elements cptr sptr parv0 names).keys = st.keys.drop names.length := by
  induction names generalizing st with
  | nil => rfl
  | cons name names ih =>
    have ended (st : JoinLoop) (returned : st.returned = true) (names : List CStr) :
        st.elements cptr sptr parv0 names = st := by
      induction names with
      | nil => rfl
      | cons name names ih =>
        have same : st.element cptr sptr parv0 name = st := if_pos returned
        rw [elements, List.foldl_cons, same]
        exact ih
    cases returned : st.returned with
    | true =>
      rw [ended st returned] at going
      rw [returned] at going
      cases going
    | false =>
      have rest := ih (st.element cptr sptr parv0 name) going
      rw [element_keys st cptr sptr parv0 name returned, List.drop_tail] at rest
      exact rest

end JoinLoop

def joinAt (s : Server) (cptr sptr : ClientId) (parv : List CStr) (j : Nat) : JoinLoop :=
  (joinStart (joinServer s) sptr parv).elements cptr sptr (parv.getD 0 [])
    ((joinNames (joinServer s) sptr parv).take j)

/-- The key that the `j`-th name of the second pass is checked against, if it is. -/
def checkedKey (s : Server) (cptr sptr : ClientId) (parv : List CStr) (j : Nat) (name : CStr) :
    Option (Option CStr) :=
  if !(s.client sptr).user ∨ parv.length < 2 ∨ parv.getD 1 [] = [] then none
  else (joinAt s cptr sptr parv j).canJoinKey sptr (parv.getD 0 []) name

def typedKey (parv : List CStr) (p : Nat) : CStr :=
  if parv.length > 2 then (listElements (parv.getD 2 [])).getD p [] else []

def rankedKey (parv : List CStr) (j : Nat) : CStr :=
  if parv.length > 2 then (tokens isComma (parv.getD 2 [])).getD j [] else []

def KeysPaired (s : Server) (cptr sptr : ClientId) (parv : List CStr) : Prop :=
  ∀ j name p, (keptNames (s.client sptr) (parv.getD 1 []))[j]? = some (name, p) →
    ∀ key, checkedKey s cptr sptr parv j name = some key → key.getD [] = typedKey parv p

theorem checkedKey_eq {s : Server} {cptr sptr : ClientId} {parv : List CStr} {j : Nat}
    {name : CStr} {key : Option CStr} (inside : j ≤ (joinNames (joinServer s) sptr parv).length)
    (given : checkedKey s cptr sptr parv j name = some key) :
    key.getD [] = rankedKey parv j := by
  unfold checkedKey at given
  split at given
  · cases given
  obtain ⟨going, head⟩ := JoinLoop.canJoinKey_eq _ _ _ _ given
  have keys : (joinAt s cptr sptr parv j).keys =
      (joinStart (joinServer s) sptr parv).keys.drop j := by
    have drop := JoinLoop.elements_keys _ cptr sptr _ _ going
    rwa [List.length_take, Nat.min_eq_left inside] at drop
  rw [head, keys, List.head?_drop]
  unfold joinStart rankedKey
  dsimp only
  split
  · exact (List.getD_eq_getElem?_getD ..).symm
  · rfl

/-- The second pass runs through the names that are kept, and their keys are right if and
only if for each that is checked the key of its rank is the one typed at its position. -/
theorem keysPaired_iff (s : Server) (cptr sptr : ClientId) (parv : List CStr)
    (fits : (parv.getD 1 []).length < bufSize) :
    joinNames (joinServer s) sptr parv =
      (keptNames (s.client sptr) (parv.getD 1 [])).map Prod.fst ∧
    (KeysPaired s cptr sptr parv ↔
      ∀ j name p, (keptNames (s.client sptr) (parv.getD 1 []))[j]? = some (name, p) →
        (checkedKey s cptr sptr parv j name).isSome → rankedKey parv j = typedKey parv p) := by
  have names : joinNames (joinServer s) sptr parv =
      (keptNames (s.client sptr) (parv.getD 1 [])).map Prod.fst := by
    have list := joinNames_eq_keptNames (joinServer s) sptr parv fits
    rwa [(joinServer_spec s).2.2.2] at list
  have inside (j : Nat) (typed : CStr × Nat)
      (here : (keptNames (s.client sptr) (parv.getD 1 []))[j]? = some typed) :
      j ≤ (joinNames (joinServer s) sptr parv).length := by
    rw [names, List.length_map]
    exact Nat.le_of_lt (List.getElem?_eq_some_iff.mp here).1
  refine ⟨names, fun paired j name p here checked => ?_, fun same j name p here key given => ?_⟩
  · obtain ⟨key, given⟩ := Option.isSome_iff_exists.mp checked
    rw [← checkedKey_eq (inside j _ here) given]
    exact paired j name p here key given
  · rw [checkedKey_eq (inside j _ here) given]
    exact same j name p here (by rw [given]; rfl)

theorem rankedKey_of_whole {parv : List CStr}
    (whole : ∀ key ∈ listElements (parv.getD 2 []), key ≠ []) (j : Nat) :
    rankedKey parv j = typedKey parv j := by
  have all : (listElements (parv.getD 2 [])).filter isWord = listElements (parv.getD 2 []) := by
    apply List.filter_eq_self.mpr
    intro key inside
    exact bne_iff_ne.mpr (whole key inside)
  rw [rankedKey, typedKey, tokens_eq_split]
  exact congrArg (fun keys : List CStr => if parv.length > 2 then keys.getD j [] else []) all

def keyedServer : Server := networkServer.setChannelMode 1 2 0 [lit "+k", lit "two"]

theorem keyedServer_pairs :
    KeysPaired keyedServer 3 3 [lit "olly", lit "#d,#c", lit "one,two"] := by
  apply (keysPaired_iff keyedServer 3 3 [lit "olly", lit "#d,#c", lit "one,two"] (by decide)).2.mpr
  intro j name p here _
  have kept : keptNames (keyedServer.client 3) (lit "#d,#c") = [(lit "#d", 0), (lit "#c", 1)] := by
    decide +kernel
  have same : p = j := by
    have place : [(lit "#d", 0), (lit "#c", 1)][j]? = some (name, p) := kept ▸ here
    match j with
    | 0 => exact (Prod.mk.inj (Option.some.inj place)).2.symm
    | 1 => exact (Prod.mk.inj (Option.some.inj place)).2.symm
    | j + 2 => cases place
  rw [same]
  exact rankedKey_of_whole (by decide) j

/-- `x` is no channel, and `#c` is not entered with the key that stands for it. -/
theorem keyedServer_shifted :
    typedKey [lit "olly", lit "x,#c", lit "one,two"] 1 = lit "two" ∧
    (keptNames (keyedServer.client 3) (lit "x,#c"))[0]? = some (lit "#c", 1) ∧
    checkedKey keyedServer 3 3 [lit "olly", lit "x,#c", lit "one,two"] 0 (lit "#c") =
      some (some (lit "one")) ∧
    (Command.join.run keyedServer 3 3 [lit "olly", lit "x,#c", lit "one,two"]).sent.getLast? =
      some (.numeric 3 .errBadChannelKey [lit "irc.net", lit "olly", lit "#c"]) ∧
    (Command.join.run keyedServer 3 3 [lit "olly", lit "#c", lit "two"]).toTables.isMember 3 0 ∧
    ¬ KeysPaired keyedServer 3 3 [lit "olly", lit "x,#c", lit "one,two"] := by
  have typed : typedKey [lit "olly", lit "x,#c", lit "one,two"] 1 = lit "two" := by decide +kernel
  have kept : (keptNames (keyedServer.client 3) (lit "x,#c"))[0]? = some (lit "#c", 1) := by
    decide +kernel
  have checked : checkedKey keyedServer 3 3 [lit "olly", lit "x,#c", lit "one,two"] 0 (lit "#c") =
      some (some (lit "one")) := by decide +kernel
  refine ⟨typed, kept, checked, by decide +kernel, by decide +kernel, fun paired => ?_⟩
  have same := paired 0 (lit "#c") 1 kept _ checked
  rw [typed] at same
  exact absurd same (by decide)

end Ircd
