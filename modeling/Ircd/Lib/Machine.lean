import Mathlib.Data.List.Infix

/-! Runs of a deterministic machine and the properties that hold all along them.

`Meets` says that each event of a run comes in a state that allows it; what such an
event keeps, the run keeps.
-/

set_option autoImplicit false

structure Machine (S E : Type*) where
  step : S → E → S

namespace Machine

variable {S E : Type*}

def run (m : Machine S E) (s : S) (es : List E) : S := es.foldl m.step s

def Meets (m : Machine S E) (ok : S → E → Prop) : S → List E → Prop
  | _, [] => True
  | s, e :: es => ok s e ∧ Meets m ok (m.step s e) es

instance decidableMeets (m : Machine S E) (ok : S → E → Prop) [∀ s e, Decidable (ok s e)] :
    (s : S) → (es : List E) → Decidable (m.Meets ok s es)
  | _, [] => isTrue trivial
  | s, e :: es => @instDecidableAnd _ _ _ (decidableMeets m ok (m.step s e) es)

variable (m : Machine S E)

@[simp] theorem run_nil (s : S) : m.run s [] = s := rfl

@[simp] theorem run_cons (s : S) (e : E) (es : List E) :
    m.run s (e :: es) = m.run (m.step s e) es := rfl

theorem run_append (s : S) (es es' : List E) : m.run s (es ++ es') = m.run (m.run s es) es' :=
  List.foldl_append

variable {m} {ok ok' : S → E → Prop} {I : S → Prop} {s : S} {es : List E}

theorem Meets.mono (h : m.Meets ok s es) (weaker : ∀ s e, ok s e → ok' s e) :
    m.Meets ok' s es := by
  induction es generalizing s with
  | nil => trivial
  | cons e es ih => exact ⟨weaker s e h.1, ih h.2⟩

theorem Meets.of_prefix (h : m.Meets ok s es) {pre : List E} (inside : pre <+: es) :
    m.Meets ok s pre := by
  induction pre generalizing s es with
  | nil => trivial
  | cons e pre ih =>
    obtain ⟨rest, rfl⟩ := inside
    exact ⟨h.1, ih h.2 (List.prefix_append pre rest)⟩

theorem Meets.of_suffix {pre : List E} (h : m.Meets ok s (pre ++ es)) :
    m.Meets ok (m.run s pre) es := by
  induction pre generalizing s with
  | nil => exact h
  | cons e pre ih => exact ih h.2

theorem Meets.append {pre : List E} (h : m.Meets ok s pre) (h' : m.Meets ok (m.run s pre) es) :
    m.Meets ok s (pre ++ es) := by
  induction pre generalizing s with
  | nil => exact h'
  | cons e pre ih => exact ⟨h.1, ih h.2 h'⟩

theorem run_keeps (keep : ∀ s e, I s → I (m.step s e)) (start : I s) (es : List E) :
    I (m.run s es) := by
  induction es generalizing s with
  | nil => exact start
  | cons e es ih => exact ih (keep s e start)

theorem Meets.keeps (h : m.Meets ok s es) (keep : ∀ s e, I s → ok s e → I (m.step s e))
    (start : I s) : I (m.run s es) := by
  induction es generalizing s with
  | nil => exact start
  | cons e es ih => exact ih h.2 (keep s e start h.1)

theorem Meets.records {J : S → List E → Prop} {p : List E} (h : m.Meets ok s es)
    (keep : ∀ s past e, J s past → ok s e → J (m.step s e) (past ++ [e])) (start : J s p) :
    J (m.run s es) (p ++ es) := by
  induction es generalizing s p with
  | nil => simpa using start
  | cons e es ih =>
    have next := ih h.2 (keep s p e start h.1)
    rwa [List.append_assoc] at next

theorem Meets.always (h : m.Meets ok s es) (keep : ∀ s e, I s → ok s e → I (m.step s e))
    (start : I s) {pre : List E} (inside : pre <+: es) : I (m.run s pre) :=
  (h.of_prefix inside).keeps keep start

theorem run_related {T : Type*} {m : Machine S E} {n : Machine T E} {R : S → T → Prop}
    (keep : ∀ s t e, R s t → R (m.step s e) (n.step t e)) {s : S} {t : T} (start : R s t)
    (es : List E) : R (m.run s es) (n.run t es) := by
  induction es generalizing s t with
  | nil => exact start
  | cons e es ih => exact ih (keep s t e start)

end Machine
