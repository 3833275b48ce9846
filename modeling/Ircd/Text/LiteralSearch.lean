import Ircd.Text.Search

/-! How long `match` takes to find a text without wildcards at the end of a name.

Each start in the name costs one turn and the characters that agree there. A text that starts
with a dot agrees nowhere but at the dots of the name, and with few dots of its own only up
to the next of them.
-/

set_option autoImplicit false

namespace Ircd

def Literal (s : CStr) : Prop := ∀ c ∈ s, c ≠ '*' ∧ c ≠ '?'

instance (s : CStr) : Decidable (Literal s) :=
  inferInstanceAs (Decidable (∀ c ∈ s, c ≠ '*' ∧ c ≠ '?'))

theorem Literal.sublist {s t : CStr} (literal : Literal s) (part : t ⊆ s) : Literal t :=
  fun c inside => literal c (part inside)

/-- `front ++ s` is searched for `s`, and at a start `t` no more than `cap t` characters
agree. -/
def searchCost (cap : CStr → Nat) (s : CStr) : CStr → Nat
  | [] => s.length + 1
  | c :: front => 1 + cap (c :: front ++ s) + searchCost cap s front

/-- At most `cap t` characters of `s` agree with the front of `t`. -/
def Caps (cap : CStr → Nat) (s : CStr) : Prop :=
  ∀ w m v n, s = w ++ m → w.map toLower = v.map toLower → w.length ≤ cap (v ++ n)

section

variable {cap : CStr → Nat} {mask s front w v : CStr} {t : MatchState} {turns : Nat}

/-- The search stands behind `w` in the text and behind `v` in the name, and a yes is at most
`turns` turns away. -/
structure Within (cap : CStr → Nat) (s front w v : CStr) (t : MatchState) (turns : Nat) :
    Prop where
  text : s = w ++ t.m
  name : front ++ s = v ++ t.n
  agree : w.map toLower = v.map toLower
  ma : t.ma = s
  na : t.na = front ++ s
  wild : t.wild = true
  enough : searchCost cap s front ≤ turns + w.length

namespace Within

theorem agreed (h : Within cap s front w v t turns) : w.length = v.length := by
  have lengths := congrArg List.length h.agree
  rwa [List.length_map, List.length_map] at lengths

theorem length_eq (h : Within cap s front w v t turns) :
    t.m.length + front.length = t.n.length := by
  have lengths := congrArg List.length h.name
  have parts := congrArg List.length h.text
  have same := h.agreed
  rw [List.length_append, List.length_append] at lengths
  rw [List.length_append] at parts
  omega

theorem last (h : Within cap s [] w v t turns) : t.m = t.n := by
  have name := h.name
  rw [List.nil_append] at name
  exact (List.append_inj (h.text.symm.trans name) h.agreed).2

theorem paid (caps : Caps cap s) {c : Char} (h : Within cap s (c :: front) w v t turns) :
    searchCost cap s front < turns := by
  have bound := caps w t.m v t.n h.text h.agree
  have enough := h.enough
  rw [← h.name] at bound
  rw [searchCost] at enough
  omega

theorem pos (caps : Caps cap s) (h : Within cap s front w v t turns) : 0 < turns := by
  cases front with
  | nil =>
    have enough := h.enough
    have parts := congrArg List.length h.text
    rw [List.length_append] at parts
    rw [searchCost] at enough
    omega
  | cons c front =>
    have less := h.paid caps
    omega

theorem backtrack (caps : Caps cap s) {c : Char} (h : Within cap s (c :: front) w v t turns) :
    Within cap s front [] [] t.backtrack (turns - 1) := by
  have less := h.paid caps
  have na : t.na.tail = front ++ s := by rw [h.na, List.cons_append, List.tail_cons]
  have enough : searchCost cap s front ≤ turns - 1 + 0 := by omega
  exact ⟨h.ma.symm, na.symm, rfl, h.ma, na, h.wild, enough⟩

theorem advance {a x : Char} {m n : CStr} (h : Within cap s front w v t turns) (pos : 0 < turns)
    (onText : t.m = a :: m) (onName : t.n = x :: n) (same : toLower a = toLower x) :
    Within cap s front (w ++ [a]) (v ++ [x]) { t with m := m, n := n } (turns - 1) where
  text := by rw [h.text, onText, List.append_assoc, List.singleton_append]
  name := by rw [h.name, onName, List.append_assoc, List.singleton_append]
  agree := by rw [List.map_append, List.map_append, h.agree, List.map_singleton,
    List.map_singleton, same]
  ma := h.ma
  na := h.na
  wild := h.wild
  enough := by
    have enough := h.enough
    rw [List.length_append, List.length_singleton]
    omega

theorem compare (caps : Caps cap s) (literal : Literal s) (h : Within cap s front w v t turns)
    (more : t.m ≠ []) :
    ∃ front' w' v' t', t.compare = some t' ∧ Within cap s front' w' v' t' (turns - 1) := by
  obtain ⟨a, m, onText⟩ := List.exists_cons_of_ne_nil more
  have lengths := h.length_eq
  rw [onText, List.length_cons] at lengths
  have left : t.n ≠ [] := List.ne_nil_of_length_pos (by omega)
  obtain ⟨x, n, onName⟩ := List.exists_cons_of_ne_nil left
  have inside : a ∈ s := by
    rw [h.text, onText]
    exact List.mem_append_right w List.mem_cons_self
  by_cases same : toLower a = toLower x
  · refine ⟨front, w ++ [a], v ++ [x], _, ?_, h.advance (h.pos caps) onText onName same⟩
    rw [MatchState.compare, onText, onName]
    exact if_neg fun differ => differ.1 same
  · cases front with
    | nil =>
      have rest := h.last
      rw [onText, onName] at rest
      exact absurd (congrArg toLower (List.cons.inj rest).1) same
    | cons c front =>
      refine ⟨front, [], [], t.backtrack, ?_, h.backtrack caps⟩
      rw [MatchState.compare, onText, onName]
      exact (if_pos ⟨same, (literal a inside).2⟩).trans (if_pos h.wild)

end Within

theorem endsInStar_literal (literal : Literal s) : endsInStar ('*' :: s) = false := by
  have plain : ∀ c ∈ s.reverse, c ≠ '*' ∧ c ≠ '?' := fun c inside =>
    literal c (List.mem_reverse.mp inside)
  rw [endsInStar, List.reverse_cons]
  cases back : s.reverse with
  | nil => rfl
  | cons c rest =>
    rw [back] at plain
    obtain ⟨star, question⟩ := plain c List.mem_cons_self
    have kept : ¬ (c == '?') = true := by rwa [beq_iff_eq]
    rw [List.cons_append, @List.dropWhile_cons_of_neg Char (· == '?') c _ kept]
    split
    · next same => exact absurd (List.cons.inj same).1 star
    · rfl

theorem Within.accepts (caps : Caps cap s) (literal : Literal s) (some : s ≠ [])
    (h : Within cap s front w v t turns) :
    ∃ used ≤ turns, Accepts ('*' :: s) t used := by
  induction turns using Nat.strong_induction_on generalizing front w v t with
  | _ turns ih =>
    have pos := h.pos caps
    have plain : t.m.head? ≠ Option.some '*' := by
      intro star
      obtain ⟨m, onText⟩ := List.head?_eq_some_iff.mp star
      have inside : '*' ∈ s := by
        rw [h.text, onText]
        exact List.mem_append_right w List.mem_cons_self
      exact (literal '*' inside).1 rfl
    -- The star is behind the search, so that a turn compares, or ends it.
    have unstarred : t.star = t := MatchState.star_of_plain plain
    have onward : ∀ t', t.turn ('*' :: s) = .inr t' → ∀ front' w' v' less,
        less < turns → Within cap s front' w' v' t' less →
        ∃ used ≤ turns, Accepts ('*' :: s) t used := by
      intro t' next front' w' v' less fewer within
      obtain ⟨used, le, accepts⟩ := ih less fewer within
      exact ⟨used + 1, by omega, .later next accepts⟩
    cases onText : t.m with
    | nil =>
      cases onName : t.n with
      | nil =>
        refine ⟨1, pos, .now ?_⟩
        rw [MatchState.turn, unstarred, onText, onName]
      | cons x n =>
        have lengths := h.length_eq
        rw [onText, onName, List.length_nil, List.length_cons] at lengths
        cases front with
        | nil =>
          rw [List.length_nil] at lengths
          omega
        | cons c front =>
          have moved := h.backtrack caps
          have restarted : t.backtrack.m ≠ [] := by
            rw [MatchState.backtrack, h.ma]
            exact some
          obtain ⟨front', w', v', t', next, within⟩ := moved.compare caps literal restarted
          refine onward t' ?_ front' w' v' _ ?_ within
          · rw [MatchState.turn, unstarred, onText, onName]
            simp only [endsInStar_literal literal, h.wild, next, if_true, Bool.false_eq_true,
              if_false]
          · omega
    | cons a m =>
      have more : t.m ≠ [] := by
        rw [onText]
        exact List.cons_ne_nil a m
      have lengths := h.length_eq
      cases onName : t.n with
      | nil =>
        rw [onText, onName, List.length_nil, List.length_cons] at lengths
        omega
      | cons x n =>
        obtain ⟨front', w', v', t', next, within⟩ := h.compare caps literal more
        refine onward t' ?_ front' w' v' _ ?_ within
        · rw [MatchState.turn, unstarred, onText, onName]
          simp only [next]
        · omega

/-- A text at the end of the name is found behind a `*` for the cost of the starts before. -/
theorem matchMask_star_literal (caps : Caps cap s) (literal : Literal s) (some : s ≠ [])
    (cheap : searchCost cap s front ≤ matchMaxCalls) :
    matchMask ('*' :: s) (front ++ s) = true := by
  obtain ⟨a, rest, rfl⟩ := List.exists_cons_of_ne_nil some
  have plain : a ≠ '*' := (literal a List.mem_cons_self).1
  have within : Within cap (a :: rest) front [] []
      ⟨a :: rest, front ++ a :: rest, a :: rest, front ++ a :: rest, true⟩ matchMaxCalls :=
    ⟨rfl, rfl, rfl, rfl, rfl, rfl, cheap⟩
  obtain ⟨used, le, accepts⟩ := within.accepts caps literal some
  have start : MatchState.star
      ⟨'*' :: a :: rest, front ++ a :: rest, '*' :: a :: rest, front ++ a :: rest, false⟩ =
        ⟨a :: rest, front ++ a :: rest, a :: rest, front ++ a :: rest, true⟩ := by
    rw [MatchState.star_cons, List.dropWhile_cons_of_neg (by rwa [beq_iff_eq])]
  have behind : MatchState.star ⟨a :: rest, front ++ a :: rest, a :: rest, front ++ a :: rest, true⟩ =
      ⟨a :: rest, front ++ a :: rest, a :: rest, front ++ a :: rest, true⟩ :=
    MatchState.star_of_plain fun star => plain (Option.some.inj star)
  have same : ∀ calls, matchLoop ('*' :: a :: rest) calls
      ⟨'*' :: a :: rest, front ++ a :: rest, '*' :: a :: rest, front ++ a :: rest, false⟩ =
        matchLoop ('*' :: a :: rest) calls
          ⟨a :: rest, front ++ a :: rest, a :: rest, front ++ a :: rest, true⟩ := by
    intro calls
    cases calls with
    | zero => rfl
    | succ calls => rw [matchLoop, matchLoop, start, behind]
  rw [matchMask, same]
  exact (accepts.matchLoop_iff matchMaxCalls).mpr le

end

/-- The characters of a name before the dot that follows `dots` of them. -/
def reach : Nat → CStr → Nat
  | _, [] => 0
  | 0, c :: s => if c = '.' then 0 else 1 + reach 0 s
  | dots + 1, c :: s => if c = '.' then 1 + reach dots s else 1 + reach (dots + 1) s

/-- Where a text with a dot in front and `dots` more can agree at all, and how far. -/
def dotCap (dots : Nat) (t : CStr) : Nat := if t.head? = some '.' then reach (dots + 1) t else 0

theorem reach_le_length (dots : Nat) (s : CStr) : reach dots s ≤ s.length := by
  induction s generalizing dots with
  | nil =>
    rw [reach]
    exact Nat.zero_le _
  | cons c s ih =>
    have here := ih dots
    cases dots with
    | zero =>
      rw [reach, List.length_cons]
      split <;> omega
    | succ dots =>
      have fewer := ih dots
      rw [reach, List.length_cons]
      split <;> omega

theorem le_reach {dots : Nat} {v : CStr} (few : v.count '.' ≤ dots) (n : CStr) :
    v.length ≤ reach dots (v ++ n) := by
  induction v generalizing dots with
  | nil => exact Nat.zero_le _
  | cons c v ih =>
    by_cases dot : c = '.'
    · subst dot
      rw [List.count_cons_self] at few
      cases dots with
      | zero => omega
      | succ dots =>
        have rest := @ih dots (by omega)
        rw [List.cons_append, reach, if_pos rfl, List.length_cons]
        omega
    · rw [List.count_cons_of_ne dot] at few
      have rest := ih few
      cases dots with
      | zero =>
        rw [List.cons_append, reach, if_neg dot, List.length_cons]
        omega
      | succ dots =>
        rw [List.cons_append, reach, if_neg dot, List.length_cons]
        omega

theorem toLower_dot {c : Char} : toLower c = '.' ↔ c = '.' := by
  constructor
  · intro low
    have code := congrArg Char.toNat low
    rw [toNat_toLower, show '.'.toNat = 46 from rfl] at code
    apply Char.toNat_inj.mp
    rw [show '.'.toNat = 46 from rfl]
    split at code
    · omega
    · exact code
  · rintro rfl
    rfl

theorem count_dot_congr {w v : CStr} (agree : w.map toLower = v.map toLower) :
    w.count '.' = v.count '.' := by
  induction w generalizing v with
  | nil =>
    cases v with
    | nil => rfl
    | cons d v => cases agree
  | cons c w ih =>
    cases v with
    | nil => cases agree
    | cons d v =>
      obtain ⟨head, tail⟩ := List.cons.inj agree
      have dots : c = '.' ↔ d = '.' := by rw [← toLower_dot, head, toLower_dot]
      rw [List.count_cons, List.count_cons, ih tail]
      simp only [beq_iff_eq, dots]

theorem caps_dot {s : CStr} {dots : Nat} (few : s.count '.' ≤ dots) :
    Caps (dotCap dots) ('.' :: s) := by
  intro w m v n text agree
  cases w with
  | nil => exact Nat.zero_le _
  | cons c w =>
    obtain ⟨head, tail⟩ := List.cons.inj text
    subst head
    have parts : s = w ++ m := tail
    rw [parts, List.count_append] at few
    cases v with
    | nil => cases agree
    | cons d v =>
      have dot : d = '.' := toLower_dot.mp (List.cons.inj agree).1.symm
      have lengths := congrArg List.length agree
      rw [List.length_map, List.length_map] at lengths
      have count : (d :: v).count '.' ≤ dots + 1 := by
        rw [← count_dot_congr agree, List.count_cons_self]
        omega
      rw [lengths, dotCap, List.cons_append, List.head?_cons, dot, if_pos rfl, ← List.cons_append,
        ← dot]
      exact le_reach count n

/-- Each character of the name lies within the reach of at most three dots before it. -/
theorem searchCost_dots {s : CStr} (front : CStr) :
    searchCost (dotCap 2) s front + reach 0 (front ++ s) + reach 1 (front ++ s) +
      reach 2 (front ++ s) ≤ 4 * (front.length + s.length) + 1 := by
  induction front with
  | nil =>
    have none := reach_le_length 0 s
    have one := reach_le_length 1 s
    have two := reach_le_length 2 s
    rw [searchCost, List.nil_append, List.length_nil]
    omega
  | cons c front ih =>
    rw [searchCost, dotCap, List.cons_append, List.head?_cons, List.length_cons]
    by_cases dot : c = '.'
    · subst dot
      rw [if_pos rfl, reach, reach, reach, reach, if_pos rfl, if_pos rfl, if_pos rfl, if_pos rfl]
      omega
    · have other : ¬ some c = some '.' := fun same => dot (Option.some.inj same)
      rw [if_neg other, reach, reach, reach, if_neg dot, if_neg dot, if_neg dot]
      simp only [Nat.reduceAdd]
      omega

/-- A host name is found by a part of it from a dot on, with at most two dots more. -/
theorem matchMask_domain {front s : CStr} (literal : Literal s) (few : s.count '.' ≤ 2)
    (short : front.length + s.length < 127) :
    matchMask ('*' :: '.' :: s) (front ++ '.' :: s) = true := by
  have cost := @searchCost_dots ('.' :: s) front
  have dotted : Literal ('.' :: s) := by
    intro c inside
    rcases List.mem_cons.mp inside with rfl | inside
    · decide
    · exact literal c inside
  apply matchMask_star_literal (caps_dot few) dotted (List.cons_ne_nil _ _)
  rw [List.length_cons] at cost
  rw [matchMaxCalls]
  omega

end Ircd
