import Ircd.Text.CString

/-! The mask routines of `match.c`.

`match` is a loop of at most 512 turns over two cursors and the two positions
saved at the last `*`; a cursor is the rest of the string from it.
-/

set_option autoImplicit false

namespace Ircd

def collapse : CStr → CStr
  | [] => []
  | [c] => [c]
  | c :: d :: rest => if c = '*' ∧ d = '*' then collapse (d :: rest) else c :: collapse (d :: rest)

theorem collapse_stars {c d : Char} (stars : c = '*' ∧ d = '*') (rest : CStr) :
    collapse (c :: d :: rest) = collapse (d :: rest) := by
  rw [collapse, if_pos stars]

theorem collapse_apart {c d : Char} (apart : ¬ (c = '*' ∧ d = '*')) (rest : CStr) :
    collapse (c :: d :: rest) = c :: collapse (d :: rest) := by
  rw [collapse, if_neg apart]

structure MatchState where
  m : CStr
  n : CStr
  ma : CStr
  na : CStr
  wild : Bool
  deriving DecidableEq, Repr

/-- The backward scan at the end of the mask: past trailing `?` it finds a `*`
that is not the first character. -/
def endsInStar (mask : CStr) : Bool :=
  match mask.reverse.dropWhile (· == '?') with
  | '*' :: _ :: _ => true
  | _ => false

def MatchState.star (s : MatchState) : MatchState :=
  match s.m with
  | '*' :: _ =>
    let m := s.m.dropWhile (· == '*')
    { m, n := s.n, ma := m, na := s.n, wild := true }
  | _ => s

def MatchState.backtrack (s : MatchState) : MatchState :=
  { s with m := s.ma, n := s.na.tail, na := s.na.tail }

def MatchState.compare (s : MatchState) : Option MatchState :=
  let m := s.m.headD '\x00'
  let n := s.n.headD '\x00'
  if toLower m ≠ toLower n ∧ m ≠ '?' then
    if s.wild then some s.backtrack else none
  else some { s with m := s.m.tail, n := s.n.tail }

/-- The rest of the loop when `calls` turns are left. -/
def matchLoop (mask : CStr) : Nat → MatchState → Bool
  | 0, _ => false
  | calls + 1, s =>
    let s := s.star
    let continueWith (s : MatchState) : Bool :=
      match s.compare with
      | none => false
      | some s => matchLoop mask calls s
    match s.m, s.n with
    | [], [] => true
    | [], _ :: _ =>
      if endsInStar mask then true
      else if s.wild then continueWith s.backtrack else false
    | m@(_ :: _), [] => (m.dropWhile (· == '*')).isEmpty
    | _ :: _, _ :: _ => continueWith s

def matchMaxCalls : Nat := 512

def matchMask (mask name : CStr) : Bool :=
  matchLoop mask matchMaxCalls { m := mask, n := name, ma := mask, na := name, wild := false }

theorem matchLoop_star_turn (calls : Nat) (c : Char) (n na : CStr) :
    ∃ rest, rest <:+ na.tail ∧
      matchLoop ['*'] (calls + 1) { m := [], n := c :: n, ma := [], na, wild := true } =
        matchLoop ['*'] calls { m := [], n := na.tail.tail, ma := [], na := rest, wild := true } ∧
      na.tail.tail <:+ rest := by
  have turn : matchLoop ['*'] (calls + 1) { m := [], n := c :: n, ma := [], na, wild := true } =
      match MatchState.compare { m := [], n := na.tail, ma := [], na := na.tail, wild := true } with
      | none => false
      | some s => matchLoop ['*'] calls s := rfl
  rw [turn]
  by_cases same : toLower '\x00' ≠ toLower (na.tail.headD '\x00')
  · refine ⟨na.tail.tail, List.tail_suffix _, ?_, List.suffix_refl _⟩
    have compared : MatchState.compare
        { m := [], n := na.tail, ma := [], na := na.tail, wild := true } =
          some { m := [], n := na.tail.tail, ma := [], na := na.tail.tail, wild := true } :=
      if_pos ⟨same, by simp⟩
    rw [compared]
  · refine ⟨na.tail, List.suffix_refl _, ?_, List.tail_suffix _⟩
    have compared : MatchState.compare
        { m := [], n := na.tail, ma := [], na := na.tail, wild := true } =
          some { m := [], n := na.tail.tail, ma := [], na := na.tail, wild := true } :=
      if_neg fun differ => same differ.1
    rw [compared]

theorem matchLoop_star (calls : Nat) (n na : CStr) (rest : n <:+ na) (enough : na.length < calls) :
    matchLoop ['*'] calls { m := [], n, ma := [], na, wild := true } = true := by
  induction calls generalizing n na with
  | zero => omega
  | succ calls ih =>
    cases n with
    | nil => rfl
    | cons c n =>
      obtain ⟨na', shorter, turn, inside⟩ := matchLoop_star_turn calls c n na
      rw [turn]
      apply ih _ _ inside
      have le := rest.length_le
      have le' := shorter.length_le
      simp only [List.length_tail, List.length_cons] at le le'
      omega

theorem matchMask_star {name : CStr} (fits : name.length < matchMaxCalls) :
    matchMask ['*'] name = true := by
  cases name with
  | nil => rfl
  | cons c n =>
    obtain ⟨na', shorter, turn, inside⟩ := matchLoop_star_turn 511 c n (c :: n)
    have first : matchMask ['*'] (c :: n) = matchLoop ['*'] (511 + 1)
        { m := [], n := c :: n, ma := [], na := c :: n, wild := true } := rfl
    rw [first, turn]
    apply matchLoop_star _ _ _ inside
    have le := shorter.length_le
    simp only [List.tail_cons] at le
    simp only [matchMaxCalls, List.length_cons] at fits
    omega

structure MatchState.Like (s s' : MatchState) : Prop where
  m : s'.m = s.m
  ma : s'.ma = s.ma
  wild : s'.wild = s.wild
  n : s'.n.map toLower = s.n.map toLower
  na : s'.na.map toLower = s.na.map toLower

namespace MatchState.Like

variable {s s' : MatchState}

theorem star (like : s.Like s') : s.star.Like s'.star := by
  obtain ⟨m, n, ma, na, wild⟩ := s
  obtain ⟨m', n', ma', na', wild'⟩ := s'
  obtain ⟨rfl, rfl, rfl, names, saved⟩ := like
  unfold MatchState.star
  dsimp only
  split
  · exact ⟨rfl, rfl, rfl, names, names⟩
  · exact ⟨rfl, rfl, rfl, names, saved⟩

theorem backtrack (like : s.Like s') : s.backtrack.Like s'.backtrack where
  m := like.ma
  ma := like.ma
  wild := like.wild
  n := by simp only [MatchState.backtrack, List.map_tail, like.na]
  na := by simp only [MatchState.backtrack, List.map_tail, like.na]

theorem head_eq {n n' : CStr} (same : n'.map toLower = n.map toLower) :
    toLower (n'.headD '\x00') = toLower (n.headD '\x00') := by
  cases n with
  | nil =>
    cases n' with
    | nil => rfl
    | cons c n' => cases same
  | cons c n =>
    cases n' with
    | nil => cases same
    | cons c' n' => exact (List.cons.inj same).1

theorem compare (like : s.Like s') : (s.compare = none ∧ s'.compare = none) ∨
    ∃ t t', s.compare = some t ∧ s'.compare = some t' ∧ t.Like t' := by
  have heads := head_eq like.n
  unfold MatchState.compare
  simp only [like.m, heads, like.wild]
  split
  · split
    · exact Or.inr ⟨_, _, rfl, rfl, like.backtrack⟩
    · exact Or.inl ⟨rfl, rfl⟩
  · refine Or.inr ⟨_, _, rfl, rfl, rfl, like.ma, rfl, ?_, like.na⟩
    simp only [List.map_tail, like.n]

end MatchState.Like

theorem matchLoop_congr (mask : CStr) (calls : Nat) {s s' : MatchState} (like : s.Like s') :
    matchLoop mask calls s' = matchLoop mask calls s := by
  induction calls generalizing s s' with
  | zero => rfl
  | succ calls ih =>
    have go : ∀ {t t' : MatchState}, t.Like t' →
        (match t'.compare with
          | none => false
          | some t' => matchLoop mask calls t') =
        match t.compare with
          | none => false
          | some t => matchLoop mask calls t := by
      intro t t' like
      rcases like.compare with ⟨none, none'⟩ | ⟨u, u', some, some', next⟩
      · rw [none, none']
      · rw [some, some']
        exact ih next
    have starred := like.star
    unfold matchLoop
    dsimp only
    generalize s.star = t at starred ⊢
    generalize s'.star = t' at starred ⊢
    obtain ⟨m, n, ma, na, wild⟩ := t
    obtain ⟨m', n', ma', na', wild'⟩ := t'
    have names : n'.map toLower = n.map toLower := starred.n
    have wilds : wild' = wild := starred.wild
    obtain rfl : m' = m := starred.m
    cases m' with
    | nil =>
      cases n with
      | nil =>
        cases n' with
        | nil => rfl
        | cons c' n' => cases names
      | cons c n =>
        cases n' with
        | nil => cases names
        | cons c' n' =>
          dsimp only
          rw [go starred.backtrack, wilds]
    | cons d m =>
      cases n with
      | nil =>
        cases n' with
        | nil => rfl
        | cons c' n' => cases names
      | cons c n =>
        cases n' with
        | nil => cases names
        | cons c' n' => exact go starred

theorem matchMask_congr (mask : CStr) {name name' : CStr} (same : irccmp name name' = .eq) :
    matchMask mask name' = matchMask mask name :=
  matchLoop_congr mask _
    ⟨rfl, rfl, rfl, (map_toLower_eq same).symm, (map_toLower_eq same).symm⟩

example : matchMask "*!*@*.edu".toList "Nick!user@cs.MIT.edu".toList = true := by decide

end Ircd
