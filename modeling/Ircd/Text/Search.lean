import Ircd.Text.Glob
import Mathlib.Data.List.Forall2
import Mathlib.Tactic.Ring

/-! How long `match` takes to say yes.

A name that a mask matches is found by the search of `match` if nothing stops it: what the
mask asks of the rest of the name after its last `*` so far is never lost by a step. A turn
either compares one more character or gives up one start in the name, so that the turns are
bounded by the starts and by the longest part of the mask between two `*`.
-/

set_option autoImplicit false

namespace Ircd

/-- What a turn of the loop of `match` leads to: an answer, or the next turn. -/
def MatchState.turn (mask : CStr) (s : MatchState) : Bool ⊕ MatchState :=
  let s := s.star
  let next (s : MatchState) : Bool ⊕ MatchState :=
    match s.compare with
    | none => .inl false
    | some s => .inr s
  match s.m, s.n with
  | [], [] => .inl true
  | [], _ :: _ =>
    if endsInStar mask then .inl true
    else if s.wild then next s.backtrack else .inl false
  | m@(_ :: _), [] => .inl (m.dropWhile (· == '*')).isEmpty
  | _ :: _, _ :: _ => next s

theorem matchLoop_succ (mask : CStr) (calls : Nat) (s : MatchState) :
    matchLoop mask (calls + 1) s =
      match s.turn mask with
      | .inl answer => answer
      | .inr s' => matchLoop mask calls s' := by
  unfold MatchState.turn
  rw [matchLoop]
  dsimp only
  generalize s.star = t
  obtain ⟨m, n, ma, na, wild⟩ := t
  cases m with
  | nil =>
    cases n with
    | nil => rfl
    | cons d n =>
      dsimp only
      split
      · rfl
      · split
        · cases (MatchState.backtrack ⟨[], d :: n, ma, na, wild⟩).compare <;> rfl
        · rfl
  | cons c m =>
    cases n with
    | nil => rfl
    | cons d n =>
      dsimp only
      cases (MatchState.compare ⟨c :: m, d :: n, ma, na, wild⟩) <;> rfl

/-- The search says yes in its `turns`-th turn from here, if nothing stops it before. -/
inductive Accepts (mask : CStr) : MatchState → Nat → Prop where
  | now {s : MatchState} (yes : s.turn mask = .inl true) : Accepts mask s 1
  | later {s s' : MatchState} {turns : Nat} (next : s.turn mask = .inr s')
      (rest : Accepts mask s' turns) : Accepts mask s (turns + 1)

theorem Accepts.matchLoop_iff {mask : CStr} {s : MatchState} {turns : Nat}
    (h : Accepts mask s turns) (calls : Nat) : matchLoop mask calls s = true ↔ turns ≤ calls := by
  induction h generalizing calls with
  | now yes =>
    cases calls with
    | zero => simp [matchLoop]
    | succ calls =>
      rw [matchLoop_succ, yes]
      simp
  | later next rest ih =>
    cases calls with
    | zero => simp [matchLoop]
    | succ calls =>
      rw [matchLoop_succ, next]
      dsimp only
      rw [ih]
      omega

namespace Glob

variable {m n : CStr}

theorem countP_le (h : Glob m n) : m.countP (· != '*') ≤ n.length := by
  induction h with
  | nil => exact Nat.le_refl 0
  | star extra _ ih =>
    rw [List.countP_cons_of_neg (by simp), List.length_append]
    omega
  | any c _ ih =>
    rw [List.countP_cons_of_pos (by decide), List.length_cons]
    omega
  | @same m n c d eq _ ih =>
    rw [List.countP_cons, List.length_cons]
    split <;> omega

end Glob

/-- A part of a mask without `*` against as many characters of a name. -/
structure Abreast (w v : CStr) : Prop where
  plain : ∀ c ∈ w, c ≠ '*'
  pairs : List.Forall₂ (fun c d => toLower c = toLower d ∨ c = '?') w v

namespace Abreast

variable {w v m n : CStr}

theorem nil : Abreast [] [] := ⟨fun _ inside => (by cases inside), List.Forall₂.nil⟩

theorem length_eq (h : Abreast w v) : w.length = v.length := h.pairs.length_eq

theorem snoc (h : Abreast w v) {c d : Char} (plain : c ≠ '*')
    (agree : toLower c = toLower d ∨ c = '?') : Abreast (w ++ [c]) (v ++ [d]) where
  plain e inside := by
    rcases List.mem_append.1 inside with inside | inside
    · exact h.plain e inside
    · exact List.mem_singleton.1 inside ▸ plain
  pairs := List.rel_append h.pairs (List.Forall₂.cons agree List.Forall₂.nil)

theorem countP (h : Abreast w v) : w.countP (· != '*') = v.length := by
  rw [← h.length_eq, List.countP_eq_length]
  exact fun c inside => bne_iff_ne.2 (h.plain c inside)

theorem rest (h : Abreast w v) (whole : Glob (w ++ m) (v ++ n)) : Glob m n := by
  obtain ⟨plain, pairs⟩ := h
  induction pairs with
  | nil => exact whole
  | @cons c d w v agree pairs ih =>
    obtain ⟨e, n', same, -, rest⟩ := Glob.of_cons (plain c List.mem_cons_self) whole
    obtain ⟨-, rfl⟩ := List.cons.inj same
    exact ih rest fun e inside => plain e (List.mem_cons_of_mem c inside)

/-- The first place in the name where a part fits leaves the most for what comes after
the next `*`. -/
theorem leftmost (h : Abreast w v) (whole : Glob ('*' :: w ++ '*' :: m) (v ++ n)) :
    Glob ('*' :: m) n := by
  obtain ⟨front, back, same, first, last⟩ := Glob.split whole
  have long : v.length ≤ front.length := by
    have count := first.countP_le
    rw [List.countP_cons_of_neg (by simp), h.countP] at count
    exact count
  obtain ⟨more, rfl⟩ : ∃ more, front = v ++ more := by
    have taken := congrArg (List.take v.length) same
    rw [List.take_left, List.take_append_of_le_length long] at taken
    refine ⟨front.drop v.length, ?_⟩
    calc front = front.take v.length ++ front.drop v.length := (List.take_append_drop _ _).symm
      _ = v ++ front.drop v.length := by rw [← taken]
  rw [List.append_assoc] at same
  rw [List.append_cancel_left same]
  exact last.prepend more

end Abreast

def longestRun : CStr → Nat
  | [] => 0
  | c :: m => max ((c :: m).takeWhile (· != '*')).length (longestRun m)

/-- The longest part of a mask without `*` past the first `*`. -/
def longestPart (mask : CStr) : Nat := longestRun (mask.dropWhile (· != '*'))

theorem le_longestRun {m tail : CStr} (suffix : tail <:+ m) :
    (tail.takeWhile (· != '*')).length ≤ longestRun m := by
  induction m with
  | nil =>
    rw [List.suffix_nil.1 suffix]
    exact Nat.le_refl 0
  | cons c m ih =>
    rcases List.suffix_cons_iff.1 suffix with rfl | suffix
    · exact Nat.le_max_left _ _
    · exact Nat.le_trans (ih suffix) (Nat.le_max_right _ _)

theorem suffix_past_star {mask tail : CStr} (suffix : '*' :: tail <:+ mask) :
    '*' :: tail <:+ mask.dropWhile (· != '*') := by
  induction mask with
  | nil => cases List.suffix_nil.1 suffix
  | cons c mask ih =>
    by_cases star : c = '*'
    · subst star
      exact suffix
    · have other : (c != '*') = true := bne_iff_ne.2 star
      have step : (c :: mask).dropWhile (· != '*') = mask.dropWhile (· != '*') :=
        List.dropWhile_cons_of_pos other
      rw [step]
      rcases List.suffix_cons_iff.1 suffix with same | suffix
      · exact absurd (List.cons.inj same).1.symm star
      · exact ih suffix

theorem Abreast.length_le {mask w v m : CStr} (h : Abreast w v)
    (suffix : w ++ m <:+ mask.dropWhile (· != '*')) : w.length ≤ longestPart mask := by
  refine Nat.le_trans ?_ (le_longestRun suffix)
  have all : w.takeWhile (· != '*') = w := by
    rw [List.takeWhile_eq_self_iff]
    exact fun c inside => bne_iff_ne.2 (h.plain c inside)
  have head : (w ++ m).takeWhile (· != '*') = w ++ m.takeWhile (· != '*') :=
    List.takeWhile_append_of_pos fun c inside => bne_iff_ne.2 (h.plain c inside)
  rw [head, List.length_append]
  omega

/-- The search is on its way to a yes, and the turns that it takes at most: each start in the
name costs one for each character that is compared and one to give it up. -/
inductive Seeks (mask : CStr) : MatchState → Nat → Prop where
  | plain {m n ma na : CStr} (left : Glob m n) (inside : m <:+ mask) :
      Seeks mask { m, n, ma, na, wild := false } ((n.length + 1) * (longestPart mask + 1))
  | saved {w m v n : CStr} (left : Glob ('*' :: w ++ m) (v ++ n)) (past : Abreast w v)
      (inside : '*' :: w ++ m <:+ mask) :
      Seeks mask { m, n, ma := w ++ m, na := v ++ n, wild := true }
        ((v.length + n.length + 1) * (longestPart mask + 1) - w.length)
  /-- The mask is at its end behind a `*`. -/
  | open {n na : CStr} (rest : n <:+ na) :
      Seeks mask { m := [], n, ma := [], na, wild := true }
        ((na.length + 1) * (longestPart mask + 1))

theorem MatchState.star_cons (m n ma na : CStr) (wild : Bool) :
    MatchState.star { m := '*' :: m, n, ma, na, wild } =
      { m := m.dropWhile (· == '*'), n, ma := m.dropWhile (· == '*'), na := n, wild := true } :=
  rfl

theorem MatchState.star_of_plain {s : MatchState} (plain : s.m.head? ≠ some '*') : s.star = s := by
  unfold MatchState.star
  split
  · next same =>
    rw [same] at plain
    exact absurd rfl plain
  · rfl

theorem head?_dropWhile_star (m : CStr) : (m.dropWhile (· == '*')).head? ≠ some '*' := by
  induction m with
  | nil => simp
  | cons c m ih =>
    by_cases star : c = '*'
    · subst star
      exact ih
    · have other : (c == '*') = false := by simp [star]
      simp [List.dropWhile, other, star]

theorem star_dropWhile_suffix {mask m : CStr} (inside : '*' :: m <:+ mask) :
    '*' :: m.dropWhile (· == '*') <:+ mask := by
  induction m with
  | nil => exact inside
  | cons c m ih =>
    by_cases star : c = '*'
    · subst star
      exact ih ((List.suffix_cons '*' _).trans inside)
    · have other : (c == '*') = false := by simp [star]
      simpa [List.dropWhile, other] using inside

variable {mask : CStr} {s : MatchState} {turns : Nat}

theorem Seeks.fresh {m n : CStr} (left : Glob ('*' :: m) n) (inside : '*' :: m <:+ mask) :
    Seeks mask { m, n, ma := m, na := n, wild := true }
      ((n.length + 1) * (longestPart mask + 1)) := by
  have start := Seeks.saved (w := []) (v := []) left Abreast.nil inside
  simpa using start

theorem Seeks.skip {m n : CStr} (left : Glob ('*' :: m) n) (inside : '*' :: m <:+ mask) :
    Seeks mask
      { m := m.dropWhile (· == '*'), n, ma := m.dropWhile (· == '*'), na := n, wild := true }
      ((n.length + 1) * (longestPart mask + 1)) :=
  fresh (Glob.star_dropWhile_iff.2 left) (star_dropWhile_suffix inside)

theorem Seeks.star (h : Seeks mask s turns) :
    ∃ turns' ≤ turns, Seeks mask s.star turns' ∧ s.star.m.head? ≠ some '*' := by
  cases h with
  | @plain m n ma na left inside =>
    by_cases star : m.head? = some '*'
    · obtain ⟨m, rfl⟩ := List.head?_eq_some_iff.1 star
      rw [MatchState.star_cons]
      exact ⟨_, Nat.le_refl _, skip left inside, head?_dropWhile_star m⟩
    · rw [MatchState.star_of_plain star]
      exact ⟨_, Nat.le_refl _, .plain left inside, star⟩
  | @saved w m v n left past inside =>
    by_cases star : m.head? = some '*'
    · obtain ⟨m, rfl⟩ := List.head?_eq_some_iff.1 star
      rw [MatchState.star_cons]
      have later : '*' :: m <:+ mask := (List.suffix_append ('*' :: w) _).trans inside
      refine ⟨_, ?_, skip (past.leftmost left) later, head?_dropWhile_star m⟩
      -- the characters passed pay for the new start
      have short := past.length_le (m := '*' :: m)
        ((List.suffix_cons '*' _).trans (suffix_past_star inside))
      rw [past.length_eq] at short ⊢
      have paid : v.length ≤ v.length * (longestPart mask + 1) := Nat.le_mul_of_pos_right _ (by omega)
      have sum : (v.length + n.length + 1) * (longestPart mask + 1) =
          v.length * (longestPart mask + 1) + (n.length + 1) * (longestPart mask + 1) := by ring
      omega
    · rw [MatchState.star_of_plain star]
      exact ⟨_, Nat.le_refl _, .saved left past inside, star⟩
  | «open» rest => exact ⟨_, Nat.le_refl _, .open rest, by simp [MatchState.star]⟩

theorem Seeks.again {a : Char} {w m v n : CStr} {x : Char}
    (left : Glob ('*' :: w ++ a :: m) (v ++ x :: n)) (past : Abreast w v)
    (inside : '*' :: w ++ a :: m <:+ mask) (plain : a ≠ '*') (differ : toLower a ≠ toLower x)
    (fixed : a ≠ '?') :
    Seeks mask
      { m := w ++ a :: m, n := (v ++ x :: n).tail, ma := w ++ a :: m, na := (v ++ x :: n).tail,
        wild := true } ((v.length + n.length + 1) * (longestPart mask + 1)) := by
  have later : Glob ('*' :: (w ++ a :: m)) (v ++ x :: n).tail := by
    cases whole : v ++ x :: n with
    | nil => simp at whole
    | cons d rest =>
      rw [whole] at left
      rcases Glob.of_stars left with here | later
      · rw [← whole] at here
        obtain ⟨e, n', same, agree, -⟩ := Glob.of_cons plain (past.rest here)
        obtain ⟨rfl, -⟩ := List.cons.inj same
        exact absurd agree (by simp [differ, fixed])
      · exact later
  have length : (v ++ x :: n).tail.length = v.length + n.length := by simp
  rw [← length]
  exact fresh later inside

theorem Seeks.compare {a : Char} {w m v n : CStr} {x : Char}
    (left : Glob ('*' :: w ++ a :: m) (v ++ x :: n)) (past : Abreast w v)
    (inside : '*' :: w ++ a :: m <:+ mask) (plain : a ≠ '*') :
    ∃ s' turns', MatchState.compare
        { m := a :: m, n := x :: n, ma := w ++ a :: m, na := v ++ x :: n, wild := true } = some s' ∧
      Seeks mask s' turns' ∧
      turns' < (v.length + (n.length + 1) + 1) * (longestPart mask + 1) - w.length := by
  have short : w.length + 1 ≤ longestPart mask := by
    have next := (past.snoc plain (Or.inl (rfl : toLower a = toLower a))).length_le
      (m := m) (by
        rw [List.append_assoc]
        exact (List.suffix_cons '*' _).trans (suffix_past_star inside))
    simpa using next
  have total : (v.length + (n.length + 1) + 1) * (longestPart mask + 1) =
      (v.length + n.length + 1) * (longestPart mask + 1) + (longestPart mask + 1) := by ring
  unfold MatchState.compare
  simp only [List.headD_cons, List.tail_cons]
  split
  · next differ =>
    refine ⟨_, _, rfl, again left past inside plain differ.1 differ.2, ?_⟩
    omega
  · next agree =>
    have agree : toLower a = toLower x ∨ a = '?' := by
      by_cases same : toLower a = toLower x
      · exact Or.inl same
      · exact Or.inr (not_not.1 fun fixed => agree ⟨same, fixed⟩)
    have next : Seeks mask
        { m, n, ma := (w ++ [a]) ++ m, na := (v ++ [x]) ++ n, wild := true } _ :=
      .saved (by simpa using left) (past.snoc plain agree) (by simpa using inside)
    refine ⟨_, _, rfl, by simpa using next, ?_⟩
    have grown : v.length + 1 + n.length + 1 = v.length + (n.length + 1) + 1 := by omega
    rw [grown]
    omega

theorem Seeks.pos (h : Seeks mask s turns) : 0 < turns := by
  cases h with
  | plain left inside => exact Nat.mul_pos (Nat.succ_pos _) (Nat.succ_pos _)
  | @saved w m v n left past inside =>
    have short := past.length_le (m := m)
      ((List.suffix_cons '*' _).trans (suffix_past_star inside))
    have one : longestPart mask + 1 ≤ (v.length + n.length + 1) * (longestPart mask + 1) :=
      Nat.le_mul_of_pos_left _ (Nat.succ_pos _)
    omega
  | «open» rest => exact Nat.mul_pos (Nat.succ_pos _) (Nat.succ_pos _)

def Closer (mask : CStr) (turns : Nat) : Bool ⊕ MatchState → Prop
  | .inl answer => answer = true
  | .inr s => ∃ turns' < turns, Seeks mask s turns'

theorem Closer.of_compare {t : MatchState} (step : ∃ s' turns', t.compare = some s' ∧
    Seeks mask s' turns' ∧ turns' < turns) :
    Closer mask turns (match t.compare with
      | none => .inl false
      | some s => .inr s) := by
  obtain ⟨s', turns', next, seeks, less⟩ := step
  rw [next]
  exact ⟨turns', less, seeks⟩

theorem Seeks.compare_open {d : Char} {n na : CStr} (rest : d :: n <:+ na) :
    ∃ s' turns', MatchState.compare
        { m := [], n := na.tail, ma := [], na := na.tail, wild := true } = some s' ∧
      Seeks mask s' turns' ∧ turns' < (na.length + 1) * (longestPart mask + 1) := by
  have long := rest.length_le
  rw [List.length_cons] at long
  have fewer : ∀ k, k < na.length →
      (k + 1) * (longestPart mask + 1) < (na.length + 1) * (longestPart mask + 1) := fun k less =>
    Nat.mul_lt_mul_of_pos_right (by omega) (Nat.succ_pos _)
  unfold MatchState.compare
  dsimp only
  split
  · refine ⟨_, _, rfl, .open (List.suffix_refl _), ?_⟩
    apply fewer
    simp only [List.length_tail]
    omega
  · refine ⟨_, _, rfl, .open (List.tail_suffix _), ?_⟩
    apply fewer
    simp only [List.length_tail]
    omega

theorem Abreast.compare_end {w v n : CStr} {d : Char} (past : Abreast w v)
    (left : Glob ('*' :: w ++ []) (v ++ d :: n)) (inside : '*' :: w ++ [] <:+ mask) :
    ∃ s' turns', MatchState.compare (MatchState.backtrack
        { m := [], n := d :: n, ma := w ++ [], na := v ++ d :: n, wild := true }) = some s' ∧
      Seeks mask s' turns' ∧
      turns' < (v.length + (d :: n).length + 1) * (longestPart mask + 1) - w.length := by
  have short := past.length_le (m := [])
    ((List.suffix_cons '*' _).trans (suffix_past_star inside))
  cases v with
  | nil =>
    obtain rfl : w = [] := List.eq_nil_of_length_eq_zero past.length_eq
    obtain ⟨s', turns', next, seeks, less⟩ :=
      Seeks.compare_open (List.suffix_refl (d :: n))
    refine ⟨s', turns', next, seeks, ?_⟩
    simpa using less
  | cons b v =>
    cases w with
    | nil => cases past.length_eq
    | cons a w =>
      have later : Glob ('*' :: a :: w) (v ++ d :: n) := by
        rw [List.append_nil] at left
        rcases Glob.of_stars left with here | later
        · have rest : Glob [] (d :: n) := past.rest (by rwa [List.append_nil])
          cases rest
        · exact later
      rw [List.append_nil] at inside ⊢
      have length : (v ++ d :: n).length = v.length + (d :: n).length := List.length_append
      cases whole : v ++ d :: n with
      | nil => simp at whole
      | cons x rest =>
        rw [whole] at later length
        obtain ⟨s', turns', next, seeks, less⟩ := Seeks.compare (w := []) (v := []) later
          Abreast.nil inside (past.plain a List.mem_cons_self)
        refine ⟨s', turns', ?_, seeks, Nat.lt_of_lt_of_le less ?_⟩
        · simp only [MatchState.backtrack, List.cons_append, List.tail_cons, whole]
          exact next
        · simp only [List.length_cons, List.length_nil] at length short ⊢
          have total : (v.length + 1 + (n.length + 1) + 1) * (longestPart mask + 1) =
              (0 + (rest.length + 1) + 1) * (longestPart mask + 1) + (longestPart mask + 1) := by
            rw [length]
            ring
          omega

theorem Seeks.turn (h : Seeks mask s turns) : Closer mask turns (s.turn mask) := by
  obtain ⟨turns', le, h, plain⟩ := h.star
  have closer : Closer mask turns' (s.turn mask) := by
    unfold MatchState.turn
    dsimp only
    generalize s.star = t at h plain ⊢
    cases h with
    | @plain m n ma na left inside =>
      cases m with
      | nil =>
        cases left
        exact rfl
      | cons c m =>
        have fixed : c ≠ '*' := fun star => plain (by rw [star]; rfl)
        obtain ⟨d, n, rfl, agree, rest⟩ := left.of_cons fixed
        refine Closer.of_compare ⟨{ m, n, ma, na, wild := false }, _, ?_,
          .plain rest ((List.suffix_cons c m).trans inside), ?_⟩
        · have equal : ¬ (toLower c ≠ toLower d ∧ c ≠ '?') := fun differ =>
            agree.elim differ.1 differ.2
          exact if_neg equal
        · exact Nat.mul_lt_mul_of_pos_right (Nat.lt_succ_self _) (Nat.succ_pos _)
    | @saved w m v n left past inside =>
      cases m with
      | nil =>
        cases n with
        | nil => exact rfl
        | cons d n =>
          dsimp only
          split
          · exact rfl
          · exact Closer.of_compare (past.compare_end left inside)
      | cons c m =>
        have fixed : c ≠ '*' := fun star => plain (by rw [star]; rfl)
        cases n with
        | nil =>
          -- the part that is passed and this character are more than the name has left
          have count := left.countP_le
          have here : (c :: m).countP (· != '*') = m.countP (· != '*') + 1 :=
            List.countP_cons_of_pos (bne_iff_ne.2 fixed)
          rw [List.cons_append, List.countP_cons_of_neg (by simp), List.countP_append,
            past.countP, here, List.append_nil] at count
          omega
        | cons d n => exact Closer.of_compare (compare left past inside fixed)
    | @«open» n na rest =>
      cases n with
      | nil => exact rfl
      | cons d n =>
        dsimp only
        split
        · exact rfl
        · exact Closer.of_compare (compare_open rest)
  cases answer : s.turn mask with
  | inl answer' => rwa [answer] at closer
  | inr s' =>
    rw [answer] at closer
    obtain ⟨fewer, less, seeks⟩ := closer
    exact ⟨fewer, Nat.lt_of_lt_of_le less le, seeks⟩

theorem Seeks.accepts (h : Seeks mask s turns) : ∃ used ≤ turns, Accepts mask s used := by
  induction turns using Nat.strongRecOn generalizing s with
  | ind turns ih =>
    have closer := h.turn
    have pos := h.pos
    cases next : s.turn mask with
    | inl answer =>
      rw [next] at closer
      exact ⟨1, pos, .now (by rw [next, show answer = true from closer])⟩
    | inr s' =>
      rw [next] at closer
      obtain ⟨turns', less, seeks⟩ := closer
      obtain ⟨used, le, accepts⟩ := ih turns' less seeks
      exact ⟨used + 1, by omega, .later next accepts⟩

def MatchState.start (mask name : CStr) : MatchState :=
  { m := mask, n := name, ma := mask, na := name, wild := false }

theorem Glob.accepts {mask name : CStr} (h : Glob mask name) :
    ∃ used ≤ (name.length + 1) * (longestPart mask + 1),
      Accepts mask (.start mask name) used :=
  (Seeks.plain h (List.suffix_refl mask)).accepts

theorem matchMask_iff {mask name : CStr} {turns : Nat}
    (accepts : Accepts mask (.start mask name) turns) :
    matchMask mask name = true ↔ turns ≤ matchMaxCalls :=
  accepts.matchLoop_iff matchMaxCalls

theorem Glob.matchMask {mask name : CStr} (h : Glob mask name)
    (short : (name.length + 1) * (longestPart mask + 1) ≤ matchMaxCalls) :
    matchMask mask name = true := by
  obtain ⟨turns, le, accepts⟩ := h.accepts
  exact (matchMask_iff accepts).2 (Nat.le_trans le short)

/-- Where `match` says yes the name belongs to what the mask means. -/
theorem matchMask_yes {mask name : CStr} (yes : matchMask mask name = true) : Glob mask name :=
  matchMask_sound yes

theorem matchMask_yes_edu :
    Glob (lit "*!*@*.edu") (lit "Nick!user@cs.MIT.edu") :=
  matchMask_yes (by decide +kernel)

/-- A name that a mask means is found after some number of turns, which the starts in the name
and the longest part of the mask bound, and `match` says yes exactly if it may take them. -/
theorem matchMask_found {mask name : CStr} (member : Glob mask name) :
    ∃ turns, Accepts mask (.start mask name) turns ∧
      turns ≤ (name.length + 1) * (longestPart mask + 1) ∧
      (matchMask mask name = true ↔ turns ≤ matchMaxCalls) := by
  obtain ⟨turns, le, accepts⟩ := member.accepts
  exact ⟨turns, accepts, le, matchMask_iff accepts⟩

theorem glob_host (front tail : CStr) :
    Glob (lit "*!*@*" ++ tail) (lit "n!u@" ++ (front ++ tail)) := by
  have host : Glob ('*' :: tail) (front ++ tail) := (Glob.of_map_toLower rfl).star front
  exact ((((host.same rfl).star (lit "u")).same rfl).star (lit "n"))

theorem matchMask_found_edu :
    ∃ turns, Accepts (lit "*!*@*.edu") (.start (lit "*!*@*.edu") (lit "n!u@mit.edu")) turns ∧
      turns ≤ 12 * 5 ∧
      (matchMask (lit "*!*@*.edu") (lit "n!u@mit.edu") = true ↔ turns ≤ 512) :=
  matchMask_found (glob_host (lit "mit") (lit ".edu"))

def longHost : CStr := List.replicate 62 'a' ++ ['b']

def longHostMask : CStr := lit "*!*@*" ++ (List.replicate 20 'a' ++ ['b'])

theorem longHost_missed :
    Glob longHostMask (lit "n!u@" ++ longHost) ∧ (lit "n!u@" ++ longHost).length ≤ 9 + 10 + 63 + 6 ∧
      matchMask longHostMask (lit "n!u@" ++ longHost) = false := by
  refine ⟨?_, by decide, by decide +kernel⟩
  have same : longHost = List.replicate 42 'a' ++ (List.replicate 20 'a' ++ ['b']) := by decide
  rw [same]
  exact glob_host _ _

end Ircd
