import Ircd.Channel.BanRuns
import Ircd.Server.Burst

/-! The MODE lines of the burst: what `send_mode_list` makes of a list of masks.

A line is sent when its third parameter is in or when the next one does not fit; that one
opens the line that follows. The parameters of a line are the words of `parabuf`.
-/

set_option autoImplicit false

namespace Ircd

/-- A mask that `set_channel_mode` stores, from a client or from a server. -/
structure StorableMask where
  text : CStr
  short : text.length + 2 < modeBufLen
  blankless : ∀ c ∈ text, c ≠ ' '

def Blankless (s : CStr) : Prop := ∀ c ∈ s, c ≠ ' '

theorem collapse_subset (s : CStr) : collapse s ⊆ s := by
  induction s using collapse.induct with
  | case1 => exact List.Subset.refl _
  | case2 c => exact List.Subset.refl _
  | case3 c d rest stars ih =>
    rw [collapse_stars stars]
    exact List.Subset.trans ih (List.subset_cons_self _ _)
  | case4 c d rest stars ih =>
    rw [collapse_apart stars]
    exact List.cons_subset_cons _ ih

/-- The two buffers at the end of a turn of `send_mode_list`, and whether they are sent then. -/
structure ModeTurn where
  modebuf : CStr
  parabuf : CStr
  sent : Bool
  deriving DecidableEq, Repr

namespace ModeTurn

/-- The words of `parabuf`: a parameter each for who reads the line. -/
def params (turn : ModeTurn) : List CStr := tokens (fun c => c == ' ') turn.parabuf

def line (start : CStr) (turn : ModeTurn) : CStr := start ++ turn.modebuf ++ ' ' :: turn.parabuf

end ModeTurn

/-- The turns of `send_mode_list`, and last what the caller finds in the buffers. -/
def modeListTurns (flag : Char) : CStr → CStr → Nat → List CStr → List ModeTurn
  | modebuf, parabuf, _, [] =>
    [{ modebuf, parabuf, sent := decide (1 < modebuf.length ∨ parabuf ≠ []) }]
  | modebuf, parabuf, count, name :: rest =>
    let fits := parabuf.length + name.length + 10 < modeBufLen
    let full := !decide fits && parabuf ≠ []
    let modebuf := if fits then modebuf ++ [flag] else modebuf
    let parabuf := if fits then parabuf ++ ' ' :: name else parabuf
    let count := if fits then count + 1 else count
    if full ∨ count = 3 then
      { modebuf, parabuf, sent := true } ::
        (if count = 3 then modeListTurns flag ['+'] [] 0 rest
        else modeListTurns flag ['+', flag] name 0 rest)
    else { modebuf, parabuf, sent := false } :: modeListTurns flag modebuf parabuf count rest

def sentTurns (flag : Char) (masks : List CStr) : List ModeTurn :=
  (modeListTurns flag ['+'] [] 0 masks).filter ModeTurn.sent

theorem modeListLines_eq (start : CStr) (flag : Char) (masks : List CStr) :
    ∀ (modebuf parabuf : CStr) (count : Nat),
    modeListLines start flag modebuf parabuf count masks =
      ((modeListTurns flag modebuf parabuf count masks).filter ModeTurn.sent).map
        (ModeTurn.line start) := by
  induction masks with
  | nil =>
    intro modebuf parabuf count
    rw [modeListLines, modeListTurns]
    by_cases left : 1 < modebuf.length ∨ parabuf ≠ []
    · rw [if_pos left, List.filter_cons_of_pos (by simpa using left)]
      rfl
    · rw [if_neg left, List.filter_cons_of_neg (by simpa using left)]
      rfl
  | cons name rest ih =>
    intro modebuf parabuf count
    rw [modeListLines, modeListTurns]
    generalize (if parabuf.length + name.length + 10 < modeBufLen then modebuf ++ [flag]
      else modebuf) = modebuf'
    generalize (if parabuf.length + name.length + 10 < modeBufLen then parabuf ++ ' ' :: name
      else parabuf) = parabuf'
    generalize (if parabuf.length + name.length + 10 < modeBufLen then count + 1
      else count) = count'
    split
    · rw [List.filter_cons_of_pos rfl, List.map_cons]
      congr 1
      split
      · exact ih ..
      · exact ih ..
    · rw [List.filter_cons_of_neg (by simp)]
      exact ih ..

/-- The masks that get into a line, where `len` characters and `count` letters are in it. -/
def enteredMasks : Nat → Nat → List CStr → List CStr
  | _, _, [] => []
  | len, count, name :: rest =>
    if len + name.length + 10 < modeBufLen then
      name :: (if count = 2 then enteredMasks 0 0 rest
        else enteredMasks (len + 1 + name.length) (count + 1) rest)
    else if len = 0 then enteredMasks 0 count rest
    else name :: enteredMasks name.length 0 rest

def NoneLost : Nat → Nat → List CStr → Prop
  | _, _, [] => True
  | len, count, name :: rest =>
    if len + name.length + 10 < modeBufLen then
      if count = 2 then NoneLost 0 0 rest else NoneLost (len + 1 + name.length) (count + 1) rest
    else len ≠ 0 ∧ NoneLost name.length 0 rest

instance decidableNoneLost : ∀ (len count : Nat) (masks : List CStr), Decidable (NoneLost len count masks)
  | _, _, [] => .isTrue trivial
  | len, count, name :: rest =>
    have := decidableNoneLost 0 0 rest
    have := decidableNoneLost (len + 1 + name.length) (count + 1) rest
    have := decidableNoneLost name.length 0 rest
    inferInstanceAs (Decidable (ite _ (ite _ _ _) (_ ∧ _)))

theorem enteredMasks_length (masks : List CStr) : ∀ len count : Nat,
    (enteredMasks len count masks).length ≤ masks.length := by
  induction masks with
  | nil => exact fun _ _ => le_rfl
  | cons name rest ih =>
    intro len count
    rw [enteredMasks]
    split
    · rw [List.length_cons, List.length_cons]
      split
      · exact Nat.succ_le_succ (ih 0 0)
      · exact Nat.succ_le_succ (ih _ _)
    · split
      · exact (ih 0 count).trans (Nat.le_succ _)
      · exact Nat.succ_le_succ (ih _ _)

theorem enteredMasks_eq_iff (masks : List CStr) : ∀ len count : Nat,
    enteredMasks len count masks = masks ↔ NoneLost len count masks := by
  induction masks with
  | nil => exact fun _ _ => iff_of_true rfl trivial
  | cons name rest ih =>
    intro len count
    rw [enteredMasks, NoneLost]
    split
    · rw [List.cons_inj_right]
      split
      · exact ih 0 0
      · exact ih _ _
    · by_cases empty : len = 0
      · rw [if_pos empty]
        apply iff_of_false
        · intro same
          have counted := congrArg List.length same
          have fewer := enteredMasks_length rest 0 count
          rw [List.length_cons] at counted
          omega
        · exact fun lost => lost.1 empty
      · rw [if_neg empty, List.cons_inj_right]
        exact (ih _ _).trans (and_iff_right empty).symm

structure Filling (flag : Char) (modebuf parabuf : CStr) (count : Nat) : Prop where
  letters : modebuf = '+' :: List.replicate (tokens (fun c => c == ' ') parabuf).length flag
  few : (tokens (fun c => c == ' ') parabuf).length ≤ count + 1
  unsent : count ≤ 2
  short : parabuf.length < modeBufLen

theorem filling_empty (flag : Char) : Filling flag ['+'] [] 0 where
  letters := rfl
  few := Nat.zero_le _
  unsent := Nat.zero_le _
  short := Nat.zero_lt_succ _

theorem words_of_mask {name : CStr} (blankless : Blankless name) (nonempty : name ≠ []) :
    tokens (fun c => c == ' ') name = [name] := by
  have plain : ∀ c ∈ name, (c == ' ') = false := fun c inside =>
    beq_eq_false_iff_ne.mpr (blankless c inside)
  rw [tokens, tokensFrom_of_no_sep plain, List.reverse_nil, List.nil_append, if_neg nonempty]

theorem words_append {name : CStr} (blankless : Blankless name) (nonempty : name ≠ [])
    (parabuf : CStr) : tokens (fun c => c == ' ') (parabuf ++ ' ' :: name) =
      tokens (fun c => c == ' ') parabuf ++ [name] := by
  rw [tokens, tokensFrom_append _ _ rfl, ← tokens, ← tokens, words_of_mask blankless nonempty]

theorem filling_carried (flag : Char) {name : CStr} (blankless : Blankless name)
    (nonempty : name ≠ []) (short : name.length + 2 < modeBufLen) :
    Filling flag ['+', flag] name 0 := by
  have words := words_of_mask blankless nonempty
  refine ⟨?_, ?_, Nat.zero_le _, by omega⟩
  · rw [words]
    rfl
  · rw [words]
    exact le_rfl

structure Proper (flag : Char) (turn : ModeTurn) : Prop where
  letters : turn.modebuf = '+' :: List.replicate turn.params.length flag
  few : turn.params.length ≤ maxModeParams
  short : turn.parabuf.length < modeBufLen

theorem Filling.proper {flag : Char} {modebuf parabuf : CStr} {count : Nat}
    (h : Filling flag modebuf parabuf count) (sent : Bool) :
    Proper flag { modebuf, parabuf, sent } where
  letters := h.letters
  few := by
    have few := h.few
    have unsent := h.unsent
    simp only [ModeTurn.params, maxModeParams]
    omega
  short := h.short

theorem Proper.letters_short {flag : Char} {turn : ModeTurn} (h : Proper flag turn) :
    turn.modebuf.length < modeBufLen := by
  have few := h.few
  rw [h.letters, List.length_cons, List.length_replicate]
  simp only [maxModeParams] at few
  simp only [modeBufLen]
  omega

/-- Every turn keeps the letters and the parameters in step, and what is sent has the masks
that got into a line, in their order. -/
theorem turns_filling (flag : Char) (masks : List CStr) : ∀ (modebuf parabuf : CStr) (count : Nat),
    (∀ name ∈ masks, Blankless name ∧ name ≠ [] ∧ name.length + 2 < modeBufLen) →
    Filling flag modebuf parabuf count →
    (∀ turn ∈ modeListTurns flag modebuf parabuf count masks, Proper flag turn) ∧
      ((modeListTurns flag modebuf parabuf count masks).filter ModeTurn.sent).flatMap
          ModeTurn.params =
        tokens (fun c => c == ' ') parabuf ++ enteredMasks parabuf.length count masks := by
  induction masks with
  | nil =>
    intro modebuf parabuf count _ h
    rw [modeListTurns, enteredMasks, List.append_nil]
    refine ⟨fun turn inside => ?_, ?_⟩
    · rw [List.mem_singleton.mp inside]
      exact h.proper _
    · by_cases left : 1 < modebuf.length ∨ parabuf ≠ []
      · rw [List.filter_cons_of_pos (by simpa using left)]
        simp [ModeTurn.params]
      · have nothing : parabuf = [] := not_not.mp (not_or.mp left).2
        rw [List.filter_cons_of_neg (by simpa using left), nothing]
        rfl
  | cons name rest ih =>
    intro modebuf parabuf count masks h
    obtain ⟨blankless, nonempty, short⟩ := masks name List.mem_cons_self
    have others := fun other inside => masks other (List.mem_cons_of_mem name inside)
    rw [modeListTurns, enteredMasks]
    -- the mask has room in the line under way, or the line goes out and another is begun
    by_cases fits : parabuf.length + name.length + 10 < modeBufLen
    · simp only [fits, if_true, decide_true, Bool.not_true, Bool.false_and, Bool.false_eq_true,
        false_or]
      have words := words_append blankless nonempty parabuf
      have letters : modebuf ++ [flag] = '+' ::
          List.replicate (tokens (fun c => c == ' ') (parabuf ++ ' ' :: name)).length flag := by
        rw [words, List.length_append, h.letters, List.cons_append]
        simp [List.replicate_succ']
      have size : (parabuf ++ ' ' :: name).length = parabuf.length + 1 + name.length := by
        rw [List.length_append, List.length_cons]
        omega
      have few := h.few
      have unsent := h.unsent
      -- the fourth mask ends the line
      by_cases third : count = 2
      · -- The third letter sends the line, and the next one is empty.
        obtain ⟨proper, sent⟩ := ih ['+'] [] 0 others (filling_empty flag)
        rw [if_pos (by omega), if_pos (by omega), if_pos third]
        refine ⟨fun turn inside => ?_, ?_⟩
        · cases List.mem_cons.mp inside with
          | inl here =>
            rw [here]
            refine ⟨letters, ?_, by rw [size]; omega⟩
            rw [ModeTurn.params, words, List.length_append, maxModeParams]
            simp only [List.length_singleton]
            omega
          | inr later => exact proper turn later
        · rw [List.filter_cons_of_pos rfl, List.flatMap_cons, sent, ModeTurn.params, words,
            List.append_assoc]
          rfl
      · have next : Filling flag (modebuf ++ [flag]) (parabuf ++ ' ' :: name) (count + 1) := by
          refine ⟨letters, ?_, by omega, by rw [size]; omega⟩
          rw [words, List.length_append, List.length_singleton]
          omega
        obtain ⟨proper, sent⟩ := ih _ _ _ others next
        rw [if_neg (by omega), if_neg third]
        refine ⟨fun turn inside => ?_, ?_⟩
        · cases List.mem_cons.mp inside with
          | inl here =>
            rw [here]
            exact next.proper false
          | inr later => exact proper turn later
        · rw [List.filter_cons_of_neg (by simp), sent, words, size, List.append_assoc]
          rfl
    · have apart : count ≠ 3 := by
        have unsent := h.unsent
        omega
      simp only [fits, if_false, decide_false, Bool.not_false, Bool.true_and, decide_eq_true_eq,
        apart, or_false]
      by_cases empty : parabuf = []
      · -- The mask is in none of the two buffers.
        obtain ⟨proper, sent⟩ := ih _ _ _ others h
        rw [if_neg (not_not.mpr empty), if_pos (by rw [empty]; rfl)]
        refine ⟨fun turn inside => ?_, ?_⟩
        · cases List.mem_cons.mp inside with
          | inl here =>
            rw [here]
            exact h.proper false
          | inr later => exact proper turn later
        · rw [List.filter_cons_of_neg (by simp), sent, empty]
          rfl
      · have some : parabuf.length ≠ 0 := fun none => empty (List.length_eq_zero_iff.mp none)
        obtain ⟨proper, sent⟩ := ih _ _ _ others (filling_carried flag blankless nonempty short)
        rw [if_pos empty, if_neg some]
        refine ⟨fun turn inside => ?_, ?_⟩
        · cases List.mem_cons.mp inside with
          | inl here =>
            rw [here]
            exact h.proper true
          | inr later => exact proper turn later
        · rw [List.filter_cons_of_pos rfl, List.flatMap_cons, sent,
            words_of_mask blankless nonempty]
          rfl

/-- The lines have every mask once and in order, as many letters as parameters, not more than
a line may have, and the buffers hold them. -/
structure SendsOnce (flag : Char) (masks : List CStr) : Prop where
  lines : ∀ start, modeListLines start flag ['+'] [] 0 masks =
    (sentTurns flag masks).map (ModeTurn.line start)
  once : (sentTurns flag masks).flatMap ModeTurn.params = masks
  letters : ∀ turn ∈ sentTurns flag masks,
    turn.modebuf = '+' :: List.replicate turn.params.length flag ∧
      turn.params.length ≤ maxModeParams
  inside : ∀ turn ∈ modeListTurns flag ['+'] [] 0 masks,
    turn.modebuf.length < modeBufLen ∧ turn.parabuf.length < modeBufLen

theorem sendsOnce_iff (flag : Char) (masks : List StorableMask) :
    SendsOnce flag (masks.map StorableMask.text) ↔
      (∀ mask ∈ masks, mask.text ≠ []) ∧ NoneLost 0 0 (masks.map StorableMask.text) := by
  by_cases nonempty : ∀ mask ∈ masks, mask.text ≠ []
  · have given : ∀ name ∈ masks.map StorableMask.text,
        Blankless name ∧ name ≠ [] ∧ name.length + 2 < modeBufLen := by
      intro name inside
      obtain ⟨mask, here, rfl⟩ := List.mem_map.mp inside
      exact ⟨mask.blankless, nonempty mask here, mask.short⟩
    obtain ⟨proper, sent⟩ := turns_filling flag _ ['+'] [] 0 given (filling_empty flag)
    rw [and_iff_right nonempty, ← enteredMasks_eq_iff]
    constructor
    · exact fun sends => sent.symm.trans sends.once
    · intro all
      refine ⟨fun start => modeListLines_eq start flag _ _ _ _, sent.trans all, ?_, ?_⟩
      · intro turn inside
        have fair := proper turn (List.mem_filter.mp inside).1
        exact ⟨fair.letters, fair.few⟩
      · exact fun turn inside => ⟨(proper turn inside).letters_short, (proper turn inside).short⟩
  · apply iff_of_false
    · -- An empty mask is no word of a line.
      intro sends
      apply nonempty
      intro mask here empty
      have inside : mask.text ∈ (sentTurns flag (masks.map StorableMask.text)).flatMap
          ModeTurn.params := by
        rw [sends.once]
        exact List.mem_map_of_mem here
      obtain ⟨turn, -, word⟩ := List.mem_flatMap.mp inside
      exact tokensFrom_ne_nil word empty
    · exact fun good => nonempty good.1

def StorableMask.run (c : Char) (plain : c ≠ ' ') (n : Nat) (short : n + 2 < modeBufLen) :
    StorableMask where
  text := List.replicate n c
  short := by rwa [List.length_replicate]
  blankless := by
    intro d inside
    rwa [List.eq_of_mem_replicate inside]

/-- Five masks, of which the second and the fifth begin a line. -/
theorem fiveMasks_sent : SendsOnce 'b'
    ([.run 'v' (by decide) 150 (by decide), .run 'w' (by decide) 100 (by decide),
      .run 'x' (by decide) 40 (by decide), .run 'y' (by decide) 20 (by decide),
      .run 'z' (by decide) 197 (by decide)].map StorableMask.text) := by
  apply (sendsOnce_iff 'b' _).mpr
  exact ⟨by decide +kernel, by decide +kernel⟩

def longMask : StorableMask where
  text := List.replicate 190 'x'
  short := by
    rw [List.length_replicate]
    decide
  blankless := by
    intro c inside
    rw [List.eq_of_mem_replicate inside]
    decide

theorem longMask_unsent :
    modeListLines (lit ":hub MODE #c ") 'b' ['+'] [] 0 [longMask.text] = [] ∧
      ¬ SendsOnce 'b' [longMask.text] := by
  constructor
  · decide +kernel
  · intro sends
    have nothing : (sentTurns 'b' [longMask.text]).flatMap ModeTurn.params = [] := by
      decide +kernel
    rw [sends.once] at nothing
    cases nothing

end Ircd
