import Mathlib.Logic.Basic

/-! Votes that must differ in two respects.

Who votes is known by two marks, and of the votes that count no two agree in either. One
that keeps the first vote, and each later one that agrees with no vote that is kept, misses
three that differ only where some vote agrees in one mark with one and in the other with
another.
-/

set_option autoImplicit false

structure Marking (V : Type*) where
  left : V → V → Prop
  right : V → V → Prop
  left_symm : ∀ {v w}, left v w → left w v
  left_trans : ∀ {u v w}, left u v → left v w → left u w
  right_symm : ∀ {v w}, right v w → right w v
  right_trans : ∀ {u v w}, right u v → right v w → right u w

namespace Marking

variable {V : Type*} (m : Marking V)

def Clash (v w : V) : Prop := m.left v w ∨ m.right v w

structure Triple (ballot : V → Prop) (a b c : V) : Prop where
  cast : ballot a ∧ ballot b ∧ ballot c
  first : ¬ m.Clash a b
  second : ¬ m.Clash a c
  third : ¬ m.Clash b c

structure Split (v w u : V) : Prop where
  left : m.left v w
  notRight : ¬ m.right v w
  right : m.right v u
  notLeft : ¬ m.left v u

variable {m} {ballot : V → Prop} {v w a b c k : V}

theorem Clash.congr_left (clash : m.Clash v w) (left : m.left a v) (right : m.right a v) :
    m.Clash a w :=
  clash.imp (m.left_trans left) (m.right_trans right)

/-- Two votes that differ in both marks do not clash with a third that is not split. -/
theorem clash_of_common (whole : ∀ v w u, ballot v → ballot w → ballot u → ¬ m.Split v w u)
    (castK : ballot k) (castA : ballot a) (castB : ballot b) (clashA : m.Clash k a)
    (clashB : m.Clash k b) : m.Clash a b := by
  rcases clashA with leftA | rightA
  · rcases clashB with leftB | rightB
    · exact Or.inl (m.left_trans (m.left_symm leftA) leftB)
    · by_cases rightA : m.right k a
      · exact Or.inr (m.right_trans (m.right_symm rightA) rightB)
      · by_cases leftB : m.left k b
        · exact Or.inl (m.left_trans (m.left_symm leftA) leftB)
        · exact absurd ⟨leftA, rightA, rightB, leftB⟩ (whole k a b castK castA castB)
  · rcases clashB with leftB | rightB
    · by_cases leftA : m.left k a
      · exact Or.inl (m.left_trans (m.left_symm leftA) leftB)
      · by_cases rightB : m.right k b
        · exact Or.inr (m.right_trans (m.right_symm rightA) rightB)
        · exact absurd ⟨leftB, rightB, rightA, leftA⟩ (whole k b a castK castB castA)
    · exact Or.inr (m.right_trans (m.right_symm rightA) rightB)

theorem no_triple (whole : ∀ v w u, ballot v → ballot w → ballot u → ¬ m.Split v w u)
    (castV : ballot v) (castW : ballot w)
    (turnedAway : ∀ u, ballot u → m.Clash v u ∨ m.Clash w u) : ¬ m.Triple ballot a b c := by
  rintro ⟨⟨castA, castB, castC⟩, first, second, third⟩
  have apart := @clash_of_common V m ballot
  rcases turnedAway a castA with va | wa
  · rcases turnedAway b castB with vb | wb
    · exact first (apart whole castV castA castB va vb)
    · rcases turnedAway c castC with vc | wc
      · exact second (apart whole castV castA castC va vc)
      · exact third (apart whole castW castB castC wb wc)
  · rcases turnedAway b castB with vb | wb
    · rcases turnedAway c castC with vc | wc
      · exact third (apart whole castV castB castC vb vc)
      · exact second (apart whole castW castA castC wa wc)
    · exact first (apart whole castW castA castB wa wb)

end Marking
