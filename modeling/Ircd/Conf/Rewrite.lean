import Ircd.Conf.File

/-! How UNKLINE and UNDLINE rewrite a ban file: each line is copied to a temporary file or
left out, and the temporary file then takes the place of the original.

`flush_write` closes both files when a write fails. A run that goes on to use one of them
has no meaning in C and ends here as an error.
-/

set_option autoImplicit false

namespace Ircd

structure LineVerdict where
  keep : Bool
  /-- The line is the ban that is asked for. -/
  paired : Bool
  notices : List CStr
  deriving DecidableEq, Repr

inductive Misuse where
  | useAfterClose
  deriving DecidableEq, Repr

/-- The variables of the loop; `temp` is the temporary file while it exists. -/
structure Rewrite where
  temp : Option CStr
  closed : Bool
  writes : Nat
  pairme : Bool
  notices : List CStr
  returned : Bool
  deriving DecidableEq, Repr

def Rewrite.start : Rewrite where
  temp := some []
  closed := false
  writes := 0
  pairme := false
  notices := []
  returned := false

namespace Rewrite

/-- `flush_write`, which returns `YES` after an error and `NO` otherwise. -/
def flushWrite (st : Rewrite) (write : Nat → WriteResult) (unable buf : CStr) : Rewrite × Int :=
  let r := write st.writes
  let st := { st with temp := st.temp.map (· ++ r.taken buf), writes := st.writes + 1 }
  match r with
  | .failed => ({ st with closed := true, temp := none, notices := st.notices ++ [unable] }, 1)
  | .wrote _ => (st, 0)

def judge (st : Rewrite) (v : LineVerdict) : Rewrite :=
  { st with pairme := st.pairme || v.paired, notices := st.notices ++ v.notices }

/-- The loop over the lines that `fbgets` has still to read; each turn begins with a read,
and so does the end. -/
def run (verdict : CStr → LineVerdict) (write : Nat → WriteResult) (unable : CStr) :
    List CStr → Rewrite → Except Misuse Rewrite
  | [], st => if st.closed then .error .useAfterClose else .ok st
  | buf :: lines, st =>
    if st.closed then .error .useAfterClose
    else
      let v := verdict buf
      let st := st.judge v
      if v.keep then
        let (st, result) := st.flushWrite write unable buf
        -- the callers take a negative result for an error
        if result < 0 then .ok { st with returned := true }
        else run verdict write unable lines st
      else run verdict write unable lines st

end Rewrite

/-- The original after the loop: a `rename` that finds no temporary file changes nothing. -/
def renamed (temp file : Option CStr) : Option CStr := temp.or file

/-- What is asked of a command on a ban file: it uses no closed file, and the original is
replaced if every kept line has been written and is as it was otherwise. `kept` is `none`
where the command never comes to the lines. -/
structure Atomic (write : Nat → WriteResult) (file : Option CStr) (kept : Option (List CStr))
    (after : Option CStr) : Prop where
  untouched : kept = none → after = file
  replaced : ∀ lines, kept = some lines →
    (∀ i line, lines[i]? = some line → (write i).Complete line) → after = some lines.flatten
  original : ∀ lines, kept = some lines →
    (∃ i line, lines[i]? = some line ∧ ¬ (write i).Complete line) → after = file

def AllWritten (write : Nat → WriteResult) (kept : Option (List CStr)) : Prop :=
  ∀ lines, kept = some lines → ∀ i line, lines[i]? = some line → (write i).Complete line

namespace Rewrite

variable {verdict : CStr → LineVerdict} {write : Nat → WriteResult} {unable : CStr}

def keptLines (verdict : CStr → LineVerdict) (lines : List CStr) : List CStr :=
  lines.filter fun line => (verdict line).keep

def WrittenFrom (write : Nat → WriteResult) (n : Nat) (lines : List CStr) : Prop :=
  ∀ i line, lines[i]? = some line → (write (n + i)).Complete line

theorem writtenFrom_cons (n : Nat) (line : CStr) (lines : List CStr) :
    WrittenFrom write n (line :: lines) ↔
      (write n).Complete line ∧ WrittenFrom write (n + 1) lines := by
  constructor
  · intro all
    refine ⟨all 0 line rfl, fun i l inside => ?_⟩
    have shifted := all (i + 1) l inside
    rwa [show n + (i + 1) = n + 1 + i by omega] at shifted
  · rintro ⟨first, rest⟩ i l inside
    cases i with
    | zero =>
      cases inside
      exact first
    | succ i =>
      have shifted := rest i l inside
      rwa [show n + 1 + i = n + (i + 1) by omega] at shifted

/-- What a whole run of the loop leaves: with every write complete the kept lines are in
the temporary file, and otherwise a closed file is used or the temporary file is short. -/
structure RunSpec (result : Except Misuse Rewrite) (st : Rewrite) (write : Nat → WriteResult)
    (out : CStr) (kept : List CStr) : Prop where
  written : WrittenFrom write st.writes kept →
    ∃ st', result = .ok st' ∧ st'.returned = st.returned ∧ st'.temp = some (out ++ kept.flatten)
  short : ¬ WrittenFrom write st.writes kept → result = .error .useAfterClose ∨
    ∃ st' out', result = .ok st' ∧ st'.returned = st.returned ∧ st'.temp = some out' ∧
      out'.length < out.length + kept.flatten.length

theorem run_closed (lines : List CStr) {st : Rewrite} (closed : st.closed = true) :
    run verdict write unable lines st = .error .useAfterClose := by
  cases lines <;> simp [run, closed]

theorem run_spec (lines : List CStr) (st : Rewrite) (out : CStr) (opened : st.closed = false)
    (temp : st.temp = some out) :
    RunSpec (run verdict write unable lines st) st write out (keptLines verdict lines) := by
  induction lines generalizing st out with
  | nil =>
    have none : WrittenFrom write st.writes (keptLines verdict []) := by
      intro i line inside
      cases inside
    refine ⟨fun _ => ⟨st, by simp [run, opened], rfl, by simp [keptLines, temp]⟩, fun some => ?_⟩
    exact absurd none some
  | cons buf lines ih =>
    have step : run verdict write unable (buf :: lines) st =
        if (verdict buf).keep then
          let r := (st.judge (verdict buf)).flushWrite write unable buf
          if r.2 < 0 then .ok { r.1 with returned := true }
          else run verdict write unable lines r.1
        else run verdict write unable lines (st.judge (verdict buf)) := by
      simp [run, opened]
    rw [step]
    cases keep : (verdict buf).keep with
    | false =>
      have same : keptLines verdict (buf :: lines) = keptLines verdict lines := by
        simp [keptLines, keep]
      rw [same, if_neg Bool.false_ne_true]
      have rest := ih (st.judge (verdict buf)) out opened temp
      exact ⟨rest.written, rest.short⟩
    | true =>
      have more : keptLines verdict (buf :: lines) = buf :: keptLines verdict lines := by
        simp [keptLines, keep]
      rw [more]
      simp only [if_true]
      cases result : write st.writes with
      | failed =>
        -- the loop goes on and reads from a closed file
        have flushed : (st.judge (verdict buf)).flushWrite write unable buf =
            ({ st.judge (verdict buf) with
                temp := none, writes := st.writes + 1, closed := true
                notices := (st.judge (verdict buf)).notices ++ [unable] }, 1) := by
          simp [flushWrite, judge, result]
        rw [flushed]
        constructor
        · intro all
          have first := ((writtenFrom_cons _ _ _).1 all).1
          rw [result] at first
          exact first.elim
        · exact fun _ => Or.inl (run_closed lines rfl)
      | wrote n =>
        have flushed : (st.judge (verdict buf)).flushWrite write unable buf =
            ({ st.judge (verdict buf) with
                temp := some (out ++ buf.take n), writes := st.writes + 1 }, 0) := by
          simp [flushWrite, judge, result, temp, WriteResult.taken]
        rw [flushed]
        simp only [Int.lt_irrefl, if_false]
        have later := ih { st.judge (verdict buf) with
          temp := some (out ++ buf.take n), writes := st.writes + 1 } (out ++ buf.take n) opened rfl
        constructor
        · intro all
          obtain ⟨first, rest⟩ := (writtenFrom_cons _ _ _).1 all
          rw [result] at first
          have whole : buf.take n = buf := List.take_of_length_le first
          obtain ⟨st', ended, returned, temp'⟩ := later.written rest
          refine ⟨st', ended, returned, ?_⟩
          rw [temp', whole]
          simp
        · intro short
          by_cases rest : WrittenFrom write (st.writes + 1) (keptLines verdict lines)
          · -- this line is the one that is cut
            have cut : ¬ buf.length ≤ n := by
              intro first
              apply short
              rw [writtenFrom_cons, result]
              exact ⟨first, rest⟩
            obtain ⟨st', ended, returned, temp'⟩ := later.written rest
            refine Or.inr ⟨st', _, ended, returned, temp', ?_⟩
            simp only [List.flatten_cons, List.length_append, List.length_take]
            omega
          · cases later.short rest with
            | inl misuse => exact Or.inl misuse
            | inr ended =>
              obtain ⟨st', out', ended, returned, temp', short⟩ := ended
              refine Or.inr ⟨st', out', ended, returned, temp', ?_⟩
              simp only [List.flatten_cons, List.length_append, List.length_take] at short ⊢
              omega

end Rewrite

end Ircd
