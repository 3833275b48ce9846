import Ircd.Text.Mask
import Mathlib.Data.List.TakeWhile

/-! What the masks of `match.c` mean, and that `match` only says yes to a name that the mask
matches.

It may say no to one: it gives up after 512 turns.
-/

set_option autoImplicit false

namespace Ircd

/-- What masks mean: `*` stands for any characters and `?` for one, and case is ignored. -/
inductive Glob : CStr → CStr → Prop where
  | nil : Glob [] []
  | star {m n : CStr} (extra : CStr) : Glob m n → Glob ('*' :: m) (extra ++ n)
  | any {m n : CStr} (c : Char) : Glob m n → Glob ('?' :: m) (c :: n)
  | same {m n : CStr} {c d : Char} : toLower c = toLower d → Glob m n → Glob (c :: m) (d :: n)

namespace Glob

theorem append {m n m' n' : CStr} (h : Glob m n) (h' : Glob m' n') : Glob (m ++ m') (n ++ n') := by
  induction h with
  | nil => exact h'
  | star extra _ ih =>
    rw [List.append_assoc]
    exact ih.star extra
  | any c _ ih => exact ih.any c
  | same eq _ ih => exact ih.same eq

theorem of_map_toLower {m n : CStr} (h : m.map toLower = n.map toLower) : Glob m n := by
  induction m generalizing n with
  | nil =>
    cases n with
    | nil => exact nil
    | cons d n => cases h
  | cons c m ih =>
    cases n with
    | nil => cases h
    | cons d n =>
      obtain ⟨head, tail⟩ := List.cons.inj h
      exact (ih tail).same head

theorem prepend {m n : CStr} (h : Glob ('*' :: m) n) (front : CStr) : Glob ('*' :: m) (front ++ n) := by
  cases h with
  | star extra rest =>
    rw [← List.append_assoc]
    exact rest.star (front ++ extra)
  | same eq rest =>
    rename_i n d
    have moved := rest.star (front ++ [d])
    rwa [List.append_assoc, List.singleton_append] at moved

theorem toLower_star {c : Char} : toLower c = '*' ↔ c = '*' := by
  constructor
  · intro low
    have code := congrArg Char.toNat low
    rw [toNat_toLower, show '*'.toNat = 42 from rfl] at code
    apply Char.toNat_inj.mp
    rw [show '*'.toNat = 42 from rfl]
    split at code
    · omega
    · exact code
  · rintro rfl
    rfl

theorem toLower_question {c : Char} : toLower c = '?' ↔ c = '?' := by
  constructor
  · intro low
    have code := congrArg Char.toNat low
    rw [toNat_toLower, show '?'.toNat = 63 from rfl] at code
    apply Char.toNat_inj.mp
    rw [show '?'.toNat = 63 from rfl]
    split at code
    · omega
    · exact code
  · rintro rfl
    rfl

theorem congr {m m' n : CStr} (h : Glob m n) (same : m.map toLower = m'.map toLower) : Glob m' n := by
  induction h generalizing m' with
  | nil =>
    cases m' with
    | nil => exact nil
    | cons c m' => cases same
  | star extra _ ih =>
    cases m' with
    | nil => cases same
    | cons c m' =>
      obtain ⟨head, tail⟩ := List.cons.inj same
      rw [toLower_star.1 head.symm]
      exact (ih tail).star extra
  | any d _ ih =>
    cases m' with
    | nil => cases same
    | cons c m' =>
      obtain ⟨head, tail⟩ := List.cons.inj same
      rw [toLower_question.1 head.symm]
      exact (ih tail).any d
  | same eq _ ih =>
    cases m' with
    | nil => cases same
    | cons c m' =>
      obtain ⟨head, tail⟩ := List.cons.inj same
      exact (ih tail).same (head.symm.trans eq)

section

variable {m n : CStr}

theorem of_stars {c : Char} {d : CStr} (h : Glob ('*' :: m) (c :: d)) :
    Glob m (c :: d) ∨ Glob ('*' :: m) d := by
  generalize whole : c :: d = n at h
  cases h with
  | star extra rest =>
    cases extra with
    | nil => exact Or.inl rest
    | cons e extra =>
      obtain ⟨-, rfl⟩ := List.cons.inj whole
      exact Or.inr (rest.star extra)
  | same eq rest =>
    obtain ⟨-, rfl⟩ := List.cons.inj whole
    exact Or.inr (rest.star [])

theorem star_star_iff : Glob ('*' :: '*' :: m) n ↔ Glob ('*' :: m) n := by
  constructor
  · intro h
    cases h with
    | star extra rest => exact rest.prepend extra
    | @same _ n _ d eq rest => exact rest.prepend [d]
  · intro h
    exact h.star []

theorem star_dropWhile_iff : Glob ('*' :: m.dropWhile (· == '*')) n ↔ Glob ('*' :: m) n := by
  induction m with
  | nil => exact Iff.rfl
  | cons c m ih =>
    by_cases star : c = '*'
    · subst star
      rw [star_star_iff]
      exact ih
    · have other : (c == '*') = false := by simp [star]
      simp [List.dropWhile, other]

end

theorem of_cons {c : Char} {m n : CStr} (plain : c ≠ '*') (h : Glob (c :: m) n) :
    ∃ d n', n = d :: n' ∧ (toLower c = toLower d ∨ c = '?') ∧ Glob m n' := by
  cases h with
  | star extra rest => exact absurd rfl plain
  | any d rest => exact ⟨d, _, rfl, Or.inr rfl, rest⟩
  | same eq rest => exact ⟨_, _, rfl, Or.inl eq, rest⟩

theorem star_all (n : CStr) : Glob ['*'] n := by
  have all := nil.star n
  rwa [List.append_nil] at all

theorem stars {m : CStr} (h : ∀ c ∈ m, c = '*') : Glob m [] := by
  induction m with
  | nil => exact nil
  | cons c m ih =>
    rw [h c List.mem_cons_self]
    exact (ih fun d inside => h d (List.mem_cons_of_mem _ inside)).star []

theorem map_toLower_of_literal {m n : CStr} (h : Glob m n) (plain : ∀ c ∈ m, c ≠ '*' ∧ c ≠ '?') :
    m.map toLower = n.map toLower := by
  induction h with
  | nil => rfl
  | star extra _ _ => exact absurd rfl (plain '*' List.mem_cons_self).1
  | any c _ _ => exact absurd rfl (plain '?' List.mem_cons_self).2
  | same eq _ ih =>
    rw [List.map_cons, List.map_cons, eq, ih fun c inside => plain c (List.mem_cons_of_mem _ inside)]

theorem split {a b n : CStr} (h : Glob (a ++ b) n) :
    ∃ n₁ n₂, n = n₁ ++ n₂ ∧ Glob a n₁ ∧ Glob b n₂ := by
  induction a generalizing n with
  | nil => exact ⟨[], n, rfl, nil, h⟩
  | cons c a ih =>
    rw [List.cons_append] at h
    cases h with
    | star extra rest =>
      obtain ⟨n₁, n₂, rfl, first, last⟩ := ih rest
      exact ⟨extra ++ n₁, n₂, by rw [List.append_assoc], first.star extra, last⟩
    | any d rest =>
      obtain ⟨n₁, n₂, rfl, first, last⟩ := ih rest
      exact ⟨d :: n₁, n₂, rfl, first.any d, last⟩
    | same eq rest =>
      obtain ⟨n₁, n₂, rfl, first, last⟩ := ih rest
      exact ⟨_ :: n₁, n₂, rfl, first.same eq, last⟩

theorem questions_iff {k : Nat} {n : CStr} : Glob (List.replicate k '?') n ↔ n.length = k := by
  induction k generalizing n with
  | zero =>
    constructor
    · intro h
      cases h
      rfl
    · intro h
      rw [List.length_eq_zero_iff.1 h]
      exact nil
  | succ k ih =>
    rw [List.replicate_succ]
    constructor
    · intro h
      cases h with
      | any c rest => rw [List.length_cons, ih.1 rest]
      | same eq rest => rw [List.length_cons, ih.1 rest]
    · intro h
      cases n with
      | nil => cases h
      | cons c n => exact (ih.2 (Nat.succ.inj h)).any c

theorem extend {a n : CStr} {k : Nat} (h : Glob (a ++ '*' :: List.replicate k '?') n) (more : CStr) :
    Glob (a ++ '*' :: List.replicate k '?') (n ++ more) := by
  obtain ⟨n₁, n₂, rfl, first, last⟩ := h.split
  have long : k ≤ n₂.length := by
    cases last with
    | star extra rest =>
      rw [List.length_append, questions_iff.1 rest]
      exact Nat.le_add_left _ _
    | same eq rest =>
      rw [List.length_cons, questions_iff.1 rest]
      exact Nat.le_succ _
  rw [List.append_assoc]
  apply first.append
  have cut := List.take_append_drop ((n₂ ++ more).length - k) (n₂ ++ more)
  rw [← cut]
  apply star
  rw [questions_iff, List.length_drop]
  simp only [List.length_append]
  omega

end Glob

theorem collapse_plain {c : Char} (plain : c ≠ '*') (rest : CStr) :
    collapse (c :: rest) = c :: collapse rest := by
  cases rest with
  | nil => rfl
  | cons d rest => exact collapse_apart (fun stars => plain stars.1) rest

theorem collapse_length_le (pattern : CStr) : (collapse pattern).length ≤ pattern.length := by
  induction pattern using collapse.induct with
  | case1 => exact Nat.le_refl _
  | case2 c => exact Nat.le_refl _
  | case3 c d rest stars ih =>
    rw [collapse_stars stars]
    exact Nat.le_succ_of_le ih
  | case4 c d rest stars ih =>
    rw [collapse_apart stars]
    exact Nat.succ_le_succ ih

theorem head?_collapse (pattern : CStr) : (collapse pattern).head? = pattern.head? := by
  induction pattern using collapse.induct with
  | case1 => rfl
  | case2 c => rfl
  | case3 c d rest stars ih =>
    rw [collapse_stars stars, ih, stars.1, stars.2]
    rfl
  | case4 c d rest stars ih =>
    rw [collapse_apart stars]
    rfl

def Collapsed (pattern : CStr) : Prop := pattern.IsChain fun c d => ¬ (c = '*' ∧ d = '*')

theorem collapsed_collapse (pattern : CStr) : Collapsed (collapse pattern) := by
  induction pattern using collapse.induct with
  | case1 => exact List.IsChain.nil
  | case2 c => exact List.IsChain.singleton c
  | case3 c d rest stars ih =>
    rw [collapse_stars stars]
    exact ih
  | case4 c d rest stars ih =>
    rw [collapse_apart stars]
    have head := head?_collapse (d :: rest)
    unfold Collapsed at ih ⊢
    cases next : collapse (d :: rest) with
    | nil => exact List.IsChain.singleton c
    | cons e more =>
      rw [next] at ih head
      obtain rfl : e = d := Option.some.inj head
      exact List.isChain_cons_cons.2 ⟨stars, ih⟩

theorem collapse_of_collapsed {pattern : CStr} (collapsed : Collapsed pattern) :
    collapse pattern = pattern := by
  induction pattern using collapse.induct with
  | case1 => rfl
  | case2 c => rfl
  | case3 c d rest stars ih =>
    have apart := (List.isChain_cons_cons.1 collapsed).1
    exact absurd stars apart
  | case4 c d rest stars ih =>
    rw [collapse_apart stars, ih (List.isChain_cons_cons.1 collapsed).2]

theorem Glob.cons_congr {c : Char} {m m' : CStr} (same : ∀ n, Glob m n ↔ Glob m' n) (n : CStr) :
    Glob (c :: m) n ↔ Glob (c :: m') n := by
  have half : ∀ {m m' : CStr}, (∀ n, Glob m n → Glob m' n) → Glob (c :: m) n → Glob (c :: m') n := by
    intro m m' into h
    cases h with
    | star extra rest => exact (into _ rest).star extra
    | any d rest => exact (into _ rest).any d
    | same eq rest => exact (into _ rest).same eq
  exact ⟨half fun n => (same n).1, half fun n => (same n).2⟩

theorem glob_collapse_iff (pattern n : CStr) : Glob (collapse pattern) n ↔ Glob pattern n := by
  induction pattern using collapse.induct generalizing n with
  | case1 => exact Iff.rfl
  | case2 c => exact Iff.rfl
  | case3 c d rest stars ih =>
    obtain ⟨rfl, rfl⟩ := stars
    rw [collapse_stars ⟨rfl, rfl⟩, ih]
    exact Glob.star_star_iff.symm
  | case4 c d rest stars ih =>
    rw [collapse_apart stars]
    exact Glob.cons_congr ih n

/-- `collapse` keeps what a mask means, leaves no two stars together, makes no mask longer and
changes nothing the second time. -/
theorem collapse_preserves (pattern : CStr) :
    (∀ n, Glob (collapse pattern) n ↔ Glob pattern n) ∧ Collapsed (collapse pattern) ∧
      (collapse pattern).length ≤ pattern.length ∧
      collapse (collapse pattern) = collapse pattern :=
  ⟨glob_collapse_iff pattern, collapsed_collapse pattern, collapse_length_le pattern,
    collapse_of_collapsed (collapsed_collapse pattern)⟩

/-- The first mask matches the text of the second without a `?` on a `*` of it. -/
inductive Covers : CStr → CStr → Prop where
  | nil : Covers [] []
  | star {m m' : CStr} (extra : CStr) : Covers m m' → Covers ('*' :: m) (extra ++ m')
  | any {m m' : CStr} {c : Char} : c ≠ '*' → Covers m m' → Covers ('?' :: m) (c :: m')
  | same {m m' : CStr} {c d : Char} : toLower c = toLower d → d ≠ '*' → d ≠ '?' → Covers m m' →
      Covers (c :: m) (d :: m')

theorem Covers.glob {m m' n : CStr} (covers : Covers m m') (h : Glob m' n) : Glob m n := by
  induction covers generalizing n with
  | nil => exact h
  | star extra _ ih =>
    obtain ⟨front, back, rfl, -, last⟩ := h.split
    exact (ih last).star front
  | any plain _ ih =>
    obtain ⟨d, n, rfl, -, rest⟩ := h.of_cons plain
    exact (ih rest).any d
  | same eq plain fixed _ ih =>
    obtain ⟨e, n, rfl, agree, rest⟩ := h.of_cons plain
    exact (ih rest).same (eq.trans (agree.resolve_right fixed))

theorem Covers.of_glob {m m' : CStr} (h : Glob m m') (fixed : '?' ∉ m) : Covers m m' := by
  induction h with
  | nil => exact nil
  | star extra _ ih => exact (ih fun inside => fixed (List.mem_cons_of_mem _ inside)).star extra
  | any c _ _ => exact absurd List.mem_cons_self fixed
  | @same m n c d eq _ ih =>
    have rest := ih fun inside => fixed (List.mem_cons_of_mem _ inside)
    by_cases star : d = '*'
    · subst star
      rw [Glob.toLower_star.1 eq]
      exact rest.star ['*']
    · refine rest.same eq star fun question => fixed ?_
      rw [question] at eq
      rw [Glob.toLower_question.1 eq]
      exact List.mem_cons_self

/-- Where the loop of `match` stands: what it has passed matches, and so does what lies
before the last `*` with any characters after it. -/
structure MatchState.Right (mask name : CStr) (s : MatchState) : Prop where
  passed : ∃ m n, mask = m ++ s.m ∧ name = n ++ s.n ∧ Glob m n
  saved : s.wild = true → ∃ m n, mask = m ++ s.ma ∧ name = n ++ s.na ∧ ∀ extra, Glob m (n ++ extra)
  level : s.wild = true → ∃ k, k ≤ s.ma.length ∧ k ≤ s.na.length ∧ s.m = s.ma.drop k ∧
    s.n = s.na.drop k

section
variable {mask name : CStr} {s : MatchState}

theorem MatchState.Right.star (h : s.Right mask name) : s.star.Right mask name := by
  obtain ⟨m, n, ma, na, wild⟩ := s
  cases m with
  | nil => exact h
  | cons c m =>
    by_cases first : c = '*'
    · subst first
      obtain ⟨pre, front, rfl, rfl, passed⟩ := h.passed
      have stars : ∀ c ∈ ('*' :: m).takeWhile (· == '*'), c = '*' := by
        intro c inside
        have all : (('*' :: m).takeWhile (· == '*')).all (· == '*') = true := List.all_takeWhile
        exact beq_iff_eq.1 (List.all_eq_true.1 all c inside)
      have split : '*' :: m = ('*' :: m).takeWhile (· == '*') ++ ('*' :: m).dropWhile (· == '*') :=
        List.takeWhile_append_dropWhile.symm
      -- a run of stars may stand for nothing
      have through : Glob (pre ++ ('*' :: m).takeWhile (· == '*')) front := by
        have skipped := passed.append (Glob.stars stars)
        rwa [List.append_nil] at skipped
      have whole : pre ++ '*' :: m = (pre ++ ('*' :: m).takeWhile (· == '*')) ++
          ('*' :: m).dropWhile (· == '*') := by
        rw [List.append_assoc, ← split]
      refine ⟨⟨_, _, whole, rfl, through⟩, fun _ => ⟨_, _, whole, rfl, fun extra => ?_⟩, fun _ => ?_⟩
      · apply passed.append
        have first : ('*' :: m).takeWhile (· == '*') = '*' :: m.takeWhile (· == '*') := rfl
        have rest := (Glob.stars fun c inside => stars c (first ▸ List.mem_cons_of_mem _ inside))
        rw [first]
        have all := rest.star extra
        rwa [List.append_nil] at all
      · exact ⟨0, Nat.zero_le _, Nat.zero_le _, rfl, rfl⟩
    · have same : MatchState.star ⟨c :: m, n, ma, na, wild⟩ = ⟨c :: m, n, ma, na, wild⟩ := by
        unfold MatchState.star
        split
        · next heq => exact absurd (List.cons.inj heq).1 first
        · rfl
      rw [same]
      exact h

theorem MatchState.Right.backtrack (h : s.Right mask name) (wild : s.wild = true) (more : s.na ≠ []) :
    s.backtrack.Right mask name := by
  obtain ⟨m, n, ma, na, w⟩ := s
  obtain ⟨pre, front, atMask, atName, saved⟩ := h.saved wild
  cases na with
  | nil => exact absurd rfl more
  | cons c na =>
    have moved : name = (front ++ [c]) ++ na := by
      rw [atName, List.append_assoc]
      rfl
    refine ⟨⟨pre, front ++ [c], atMask, moved, saved [c]⟩, fun _ =>
      ⟨pre, front ++ [c], atMask, moved, fun extra => ?_⟩, fun _ => ⟨0, Nat.zero_le _, Nat.zero_le _, rfl, rfl⟩⟩
    rw [List.append_assoc]
    exact saved ([c] ++ extra)

theorem MatchState.Right.compare (h : s.Right mask name) (onMask : s.m ≠ []) (onName : s.n ≠ [])
    {s' : MatchState} (next : s.compare = some s') : s'.Right mask name := by
  obtain ⟨m, n, ma, na, wild⟩ := s
  simp only [MatchState.compare] at next
  split at next
  next differ =>
    split at next
    next saved =>
      cases next
      apply h.backtrack saved
      rintro rfl
      obtain ⟨k, -, -, -, atName⟩ := h.level saved
      simp only [List.drop_nil] at atName
      exact onName atName
    · cases next
  next agree =>
    cases next
    obtain ⟨pre, front, rfl, rfl, passed⟩ := h.passed
    cases m with
    | nil => exact absurd rfl onMask
    | cons c m =>
      cases n with
      | nil => exact absurd rfl onName
      | cons d n =>
        have one : Glob [c] [d] := by
          by_cases any : c = '?'
          · rw [any]
            exact Glob.nil.any d
          · exact Glob.nil.same (not_not.1 fun differ => agree ⟨differ, any⟩)
        refine ⟨⟨pre ++ [c], front ++ [d], by simp, by simp, passed.append one⟩, ?_, ?_⟩
        · exact h.saved
        · intro saved
          obtain ⟨k, left, left', atMask, atName⟩ := h.level saved
          have more : k < ma.length := by
            by_contra short
            rw [List.drop_eq_nil_of_le (Nat.le_of_not_lt short)] at atMask
            cases atMask
          have more' : k < na.length := by
            by_contra short
            rw [List.drop_eq_nil_of_le (Nat.le_of_not_lt short)] at atName
            cases atName
          refine ⟨k + 1, more, more', ?_, ?_⟩
          · simp only [List.tail_cons]
            rw [← List.tail_drop, ← atMask, List.tail_cons]
          · simp only [List.tail_cons]
            rw [← List.tail_drop, ← atName, List.tail_cons]

end

theorem endsInStar_eq {mask : CStr} (h : endsInStar mask = true) :
    ∃ pre k, mask = pre ++ '*' :: List.replicate k '?' := by
  unfold endsInStar at h
  split at h
  next c rest heq =>
    have parts := List.takeWhile_append_dropWhile (p := (· == '?')) (l := mask.reverse)
    rw [heq] at parts
    have questions : mask.reverse.takeWhile (· == '?') =
        List.replicate (mask.reverse.takeWhile (· == '?')).length '?' := by
      apply List.eq_replicate_iff.2
      refine ⟨rfl, fun d inside => ?_⟩
      have all : (mask.reverse.takeWhile (· == '?')).all (· == '?') = true := List.all_takeWhile
      exact beq_iff_eq.1 (List.all_eq_true.1 all d inside)
    refine ⟨(c :: rest).reverse, (mask.reverse.takeWhile (· == '?')).length, ?_⟩
    have whole := congrArg List.reverse parts
    rw [List.reverse_reverse, questions] at whole
    rw [← whole]
    simp
  · cases h

theorem matchLoop_sound {mask name : CStr} (calls : Nat) (s : MatchState)
    (h : s.Right mask name) (matched : matchLoop mask calls s = true) : Glob mask name := by
  induction calls generalizing s with
  | zero => cases matched
  | succ calls ih =>
    have h' := h.star
    have continued : ∀ t s' : MatchState, t.Right mask name → t.m ≠ [] → t.n ≠ [] →
        t.compare = some s' → matchLoop mask calls s' = true → Glob mask name :=
      fun t s' right onMask onName next => ih s' (right.compare onMask onName next)
    simp only [matchLoop] at matched
    split at matched
    next atMask atName =>
      obtain ⟨pre, front, hm, hn, passed⟩ := h'.passed
      rw [hm, hn, atMask, atName, List.append_nil, List.append_nil]
      exact passed
    next c n atMask atName =>
      obtain ⟨pre, front, hm, hn, passed⟩ := h'.passed
      split at matched
      next open' =>
        obtain ⟨lead, k, ends⟩ := endsInStar_eq open'
        rw [atMask, List.append_nil] at hm
        rw [hn, ends]
        apply Glob.extend
        rw [← ends, hm]
        exact passed
      split at matched
      next wild =>
        obtain ⟨k, left, left', hma, hna⟩ := h'.level wild
        have finished : s.star.ma.length ≤ k := by
          rw [atMask] at hma
          exact List.drop_eq_nil_iff.1 hma.symm
        have further : k < s.star.na.length := by
          by_contra short
          rw [List.drop_eq_nil_of_le (by omega), atName] at hna
          cases hna
        have more : s.star.na ≠ [] := fun none => by
          rw [none] at further
          exact absurd further (Nat.not_lt_zero _)
        by_cases ends : s.star.ma = []
        · -- the mask ends behind a `*`
          obtain ⟨pre, front, atMask, atName, saved⟩ := h'.saved wild
          rw [atMask, atName, ends, List.append_nil]
          exact saved _
        · split at matched
          · cases matched
          next s' next =>
          apply continued _ s' (h'.backtrack wild more) ends _ next matched
          intro none
          have lengths := congrArg List.length none
          simp only [MatchState.backtrack, List.length_tail, List.length_nil] at lengths
          have nonempty := List.length_pos_of_ne_nil ends
          omega
      · cases matched
    next c m atMask atName =>
      obtain ⟨pre, front, hm, hn, passed⟩ := h'.passed
      rw [hm, hn, atMask, atName]
      apply passed.append
      apply Glob.stars
      rw [List.isEmpty_iff, List.dropWhile_eq_nil_iff] at matched
      exact fun d inside => beq_iff_eq.1 (matched d inside)
    next c m d n atMask atName =>
      split at matched
      · cases matched
      next s' next =>
      exact continued _ s' h' (by simp [atMask]) (by simp [atName]) next matched

theorem matchMask_sound {mask name : CStr} (matched : matchMask mask name = true) :
    Glob mask name := by
  apply matchLoop_sound _ _ _ matched
  refine ⟨⟨[], [], rfl, rfl, Glob.nil⟩, ?_, ?_⟩
  · intro wild
    cases wild
  · intro wild
    cases wild

end Ircd
