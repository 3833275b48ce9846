import Ircd.Channel.Mode

/-! The cursor of `set_channel_mode` over its parameters.

The source counts what is left in `parc` and points at the next parameter with `parv`,
each advanced on its own. `ModeScan` runs the letters with both, and records every index
that is read; the list of parameters in `ModeLoop` is the one `parv` points into.
-/

set_option autoImplicit false

namespace Ircd

/-- `parc`, `parv` as an index into the parameters, and the indices read so far. -/
structure Cursor where
  parc : Int
  parv : Nat
  reads : List Nat
  deriving DecidableEq, Repr

namespace Cursor

variable (cur : Cursor)

def miss : Cursor := { cur with parc := cur.parc - 1 }

def skip : Cursor := { cur with parc := cur.parc - 1, parv := cur.parv + 1 }

def read : Cursor :=
  { parc := cur.parc - 1
    parv := cur.parv + 1
    reads := cur.reads ++ [cur.parv] }

def take : Cursor := if cur.parc ≤ 0 then cur.miss else cur.read

def memberLetter (env : ModeEnv) (st : ModeLoop) : Cursor :=
  if env.myClient ∧ !env.tables.isMember env.sptr env.chan then cur.skip
  else if st.whatt = .query then cur
  else cur.take

def keyLetter (st : ModeLoop) : Cursor := if st.whatt = .query then cur else cur.take

/-- `case 'b':`, `case 'e':` and `case 'I':`; a mask with a leading colon takes the
parameter after it along. -/
def maskLetter (env : ModeEnv) (params : List CStr) (st : ModeLoop) (kind : ListKind) : Cursor :=
  if st.whatt = .query then cur
  else if cur.parc ≤ 0 then cur.miss
  else
    let arg := checkString (params.getD cur.parv [])
    let cur := cur.read
    if env.myClient ∧ st.opcnt ≥ maxModeParams then cur
    else if !env.isok then cur
    else if kind = .ban ∧ env.myClient ∧ arg.head? = some ':' ∧ st.whatt = .add then cur.skip
    else
      let arg := if env.myClient then collapse (prettyMask arg) else arg
      if kind ≠ .ban ∧ arg.head? = some ':' then cur.skip else cur

def limitLetter (env : ModeEnv) (st : ModeLoop) : Cursor :=
  if st.whatt = .query then cur
  else if !env.isok ∨ st.limitset then
    -- `whatt == MODE_ADD && parc-- > 0`
    if st.whatt = .add then (if 0 < cur.parc then cur.skip else cur.miss) else cur
  else if st.whatt = .add then cur.take
  else cur

def letter (env : ModeEnv) (params : List CStr) (st : ModeLoop) (c : Char) : Cursor :=
  match c with
  | 'o' => cur.memberLetter env st
  | 'v' => cur.memberLetter env st
  | 'k' => cur.keyLetter st
  | 'e' => cur.maskLetter env params st .exception
  | 'I' => cur.maskLetter env params st .invex
  | 'b' => cur.maskLetter env params st .ban
  | 'l' => cur.limitLetter env st
  | _ => cur

end Cursor

structure ModeScan where
  loop : ModeLoop
  curr : CStr
  cursor : Cursor

namespace ModeScan

/-- Before the loop: `curr` is `parv[0]`, and the cursor is past it. -/
def start (ch : Channel) (mode : CStr) (args : List CStr) : ModeScan where
  loop := modeStart ch args
  curr := mode
  cursor := { parc := args.length, parv := 1, reads := [0] }

/-- A turn of `for ( ; ; )`, none where it breaks. -/
def step (env : ModeEnv) (params : List CStr) (s : ModeScan) : Option ModeScan :=
  match s.curr with
  | [] =>
    if 0 < s.cursor.parc then
      some {
        loop := s.loop.eat
        curr := params.getD s.cursor.parv []
        cursor := s.cursor.read }
    else none
  | c :: curr =>
    some {
      loop := s.loop.letter env c
      curr := curr
      cursor := s.cursor.letter env params s.loop c }

/-- The loop breaks in `last`. -/
inductive Ends (env : ModeEnv) (params : List CStr) : ModeScan → ModeScan → Prop where
  | done {s : ModeScan} (stop : s.step env params = none) : Ends env params s s
  | next {s s' last : ModeScan} (turn : s.step env params = some s')
      (rest : Ends env params s' last) : Ends env params s last

/-- The loop passes through `s'`. -/
inductive Passes (env : ModeEnv) (params : List CStr) (s : ModeScan) : ModeScan → Prop where
  | here : Passes env params s s
  | next {s' s'' : ModeScan} (before : Passes env params s s')
      (turn : s'.step env params = some s'') : Passes env params s s''

end ModeScan

namespace ModeLoop

variable (env : ModeEnv) (st : ModeLoop)

@[simp] theorem touch_parv : st.touch.parv = st.parv := by
  unfold touch
  split <;> rfl

@[simp] theorem reply_parv (u : ClientId) (num : Numeric) (args : List CStr) :
    (st.reply env u num args).parv = st.parv := rfl

@[simp] theorem eat_parv : st.eat.parv = st.parv.tail := rfl

@[simp] theorem noOps_parv : (st.noOps env).parv = st.parv := by
  unfold noOps
  split
  · exact st.touch_parv
  · rfl

@[simp] theorem write_parv (plus letter : Char) (para : Option CStr) :
    (st.write plus letter para).parv = st.parv := rfl

@[simp] theorem sendLine_parv (text : CStr) : (st.sendLine env text).parv = st.parv := by
  unfold sendLine
  dsimp only
  split <;> exact st.touch_parv

theorem changeMember_parv (letter : Char) (who : ClientId) (arg : CStr) :
    (st.changeMember env letter who arg).parv = st.parv := by
  unfold changeMember
  split
  · exact st.touch_parv
  · dsimp only
    by_cases deop : env.isdeop ∧ letter = 'o' ∧ st.whatt = .add
    · rw [if_pos deop]
      split
      · simp
      · split <;> simp
    · rw [if_neg deop]
      split
      · simp
      · split <;> simp

theorem changeKey_parv (arg : CStr) : (st.changeKey env arg).parv = st.parv := by
  unfold changeKey
  dsimp only
  split
  · split
    · exact st.touch_parv
    · split <;> simp [removeOldKey]
  · split <;> simp

def keyGiven (arg : CStr) : ModeLoop :=
  if st.keychange then st
  else
    let st := { st with keychange := true }
    if arg = [] then st
    else if !env.isok then st.noOps env
    else
      let arg := arg.take keyLen
      if !st.fits arg.length then st else st.changeKey env arg

theorem keyLetter_eq : st.keyLetter env = if st.whatt = .query then st else
    match st.keyArgument env with
    | none => st
    | some (arg, st) => st.keyGiven env arg := rfl

theorem keyGiven_parv (arg : CStr) : (st.keyGiven env arg).parv = st.parv := by
  unfold keyGiven
  split
  · rfl
  · dsimp only
    split
    · rfl
    · split
      · exact noOps_parv env _
      · split
        · rfl
        · exact changeKey_parv env _ _

@[simp] theorem setRplSent_parv (kind : ListKind) : (st.setRplSent kind).parv = st.parv := by
  cases kind <;> rfl

@[simp] theorem showList_parv (kind : ListKind) : (st.showList env kind).parv = st.parv := by
  have replies (bans : List Ban) (st : ModeLoop) : (bans.foldl (fun st ban =>
      st.reply env env.cptr (listReply kind).1
        [st.ch.chname, ban.banstr, ban.who, formatTime ban.time]) st).parv = st.parv := by
    induction bans generalizing st with
    | nil => rfl
    | cons ban bans ih => exact ih _
  unfold showList
  split
  · rfl
  · dsimp only
    split
    · rw [reply_parv, replies]
      simp
    · simp

@[simp] theorem writeMask_parv (kind : ListKind) (entry : ModeEntry) :
    (st.writeMask kind entry).parv = st.parv := by
  cases kind <;> rfl

@[simp] theorem changeMask_parv (kind : ListKind) (arg : CStr) :
    (st.changeMask env kind arg).parv = st.parv := by
  unfold changeMask
  dsimp only
  split
  · rfl
  · split
    · split <;> simp
    · simp

theorem changeFlag_parv (f : ModeFlag) (letter : Char) :
    (st.changeFlag env f letter).parv = st.parv := by
  unfold changeFlag
  split
  · rfl
  · dsimp only
    by_cases mine : env.myClient = true
    · rw [if_pos mine]
      split
      · rfl
      · split
        · simp [setFlag]
        · split <;> simp [setFlag, dropInvites]
    · rw [if_neg mine]
      split
      · rfl
      · split
        · simp [setFlag]
        · split <;> simp [setFlag, dropInvites]

theorem flagLetter_parv (f : ModeFlag) (letter : Char) :
    (st.flagLetter env f letter).parv = st.parv := by
  unfold flagLetter
  split
  · exact st.noOps_parv env
  · exact st.changeFlag_parv env f letter

theorem inviteLetter_parv : (st.inviteLetter env).parv = st.parv := by
  unfold inviteLetter
  split
  · rfl
  · exact st.flagLetter_parv env _ _

theorem jupeLetter_parv : (st.jupeLetter env).parv = st.parv := by
  unfold jupeLetter
  dsimp only
  split
  · split
    · exact st.touch_parv
    · split
      · unfold sub1
        dsimp only
        split <;> simp [dropInvites, emit]
      · exact st.touch_parv
    · rfl
  · rfl

theorem unknownLetter_parv (c : Char) : (st.unknownLetter env c).parv = st.parv := by
  unfold unknownLetter
  split
  · rfl
  · split <;> rfl

end ModeLoop

/-- The count and the pointer agree until the parameters are used up, and what was read
lies behind the pointer. -/
structure InStep (params : List CStr) (cur : Cursor) : Prop where
  window : 0 < cur.parc ∧ cur.parv + cur.parc = params.length ∨
    cur.parc ≤ 0 ∧ params.length ≤ cur.parv
  behind : ∀ i ∈ cur.reads, i < cur.parv ∧ i < params.length
  order : cur.reads.Pairwise (· < ·)

namespace InStep

variable {params : List CStr} {cur : Cursor}

theorem miss (h : InStep params cur) (none : cur.parc ≤ 0) : InStep params cur.miss where
  window := by
    have window := h.window
    simp only [Cursor.miss]
    omega
  behind := h.behind
  order := h.order

theorem skip (h : InStep params cur) : InStep params cur.skip where
  window := by
    have window := h.window
    simp only [Cursor.skip]
    omega
  behind := by
    intro i read
    have behind := h.behind i read
    simp only [Cursor.skip]
    omega
  order := h.order

theorem inside (h : InStep params cur) (some : 0 < cur.parc) : cur.parv < params.length := by
  have window := h.window
  omega

theorem read (h : InStep params cur) (some : 0 < cur.parc) : InStep params cur.read where
  window := by
    have window := h.window
    simp only [Cursor.read]
    omega
  behind := by
    intro i read
    have inside := h.inside some
    rcases List.mem_append.mp read with old | new
    · have behind := h.behind i old
      simp only [Cursor.read]
      omega
    · rw [List.mem_singleton.mp new]
      exact ⟨Nat.lt_succ_self _, inside⟩
  order := by
    apply List.pairwise_append.mpr
    refine ⟨h.order, List.pairwise_singleton _ _, fun i read j last => ?_⟩
    rw [List.mem_singleton.mp last]
    exact (h.behind i read).1

theorem drop_nil_iff (h : InStep params cur) : params.drop cur.parv = [] ↔ cur.parc ≤ 0 := by
  have window := h.window
  rw [List.drop_eq_nil_iff]
  omega

theorem drop_cons (h : InStep params cur) (some : 0 < cur.parc) :
    params.drop cur.parv = params.getD cur.parv [] :: params.drop (cur.parv + 1) := by
  have inside := h.inside some
  rw [List.drop_eq_getElem_cons inside, List.getD_eq_getElem?_getD,
    List.getElem?_eq_getElem inside, Option.getD_some]

end InStep

structure Paired (params : List CStr) (cur : Cursor) (st : ModeLoop) : Prop where
  inStep : InStep params cur
  parv : st.parv = params.drop cur.parv

namespace Paired

variable {params : List CStr} {cur : Cursor} {st st' : ModeLoop}

theorem same (h : Paired params cur st) (parv : st'.parv = st.parv) : Paired params cur st' :=
  ⟨h.inStep, parv.trans h.parv⟩

theorem skip (h : Paired params cur st) (parv : st'.parv = st.parv.tail) :
    Paired params cur.skip st' where
  inStep := h.inStep.skip
  parv := by rw [parv, h.parv, List.tail_drop, Cursor.skip]

theorem read (h : Paired params cur st) (some : 0 < cur.parc) (parv : st'.parv = st.parv.tail) :
    Paired params cur.read st' where
  inStep := h.inStep.read some
  parv := by rw [parv, h.parv, List.tail_drop, Cursor.read]

theorem miss (h : Paired params cur st) (none : cur.parc ≤ 0) (parv : st'.parv = st.parv) :
    Paired params cur.miss st' where
  inStep := h.inStep.miss none
  parv := parv.trans h.parv

theorem nil_iff (h : Paired params cur st) : st.parv = [] ↔ cur.parc ≤ 0 := by
  rw [h.parv]
  exact h.inStep.drop_nil_iff

theorem head (h : Paired params cur st) {para : CStr} {rest : List CStr}
    (left : st.parv = para :: rest) :
    0 < cur.parc ∧ para = params.getD cur.parv [] ∧ st.parv.tail = rest := by
  have some : 0 < cur.parc := by
    apply Int.not_le.mp
    intro none
    rw [h.nil_iff.mpr none] at left
    cases left
  have list := h.parv
  rw [h.inStep.drop_cons some, left] at list
  exact ⟨some, (List.cons.inj list).1, congrArg List.tail left⟩

theorem start (ch : Channel) (mode : CStr) (args : List CStr) :
    Paired (mode :: args) (ModeScan.start ch mode args).cursor (modeStart ch args) where
  inStep := {
    window := by
      simp only [ModeScan.start, List.length_cons]
      omega
    behind := by simp [ModeScan.start]
    order := List.pairwise_singleton _ _ }
  parv := rfl

variable (env : ModeEnv)

theorem memberLetter (h : Paired params cur st) (letter : Char) :
    Paired params (cur.memberLetter env st) (st.memberLetter env letter) := by
  unfold Cursor.memberLetter ModeLoop.memberLetter
  -- from outside the word is passed over; a question leaves it
  by_cases outside : env.myClient ∧ !env.tables.isMember env.sptr env.chan
  · rw [if_pos outside, if_pos outside]
    apply h.skip
    dsimp only
    rw [ModeLoop.eat_parv]
    split
    · rfl
    · exact congrArg List.tail (by simp)
  rw [if_neg outside, if_neg outside]
  by_cases query : st.whatt = .query
  · rw [if_pos query, if_pos query]
    exact h
  rw [if_neg query, if_neg query]
  cases left : st.parv with
  | nil =>
    have none := h.nil_iff.mp left
    rw [Cursor.take, if_pos none]
    exact h.miss none rfl
  | cons para rest =>
    have some := (h.head left).1
    rw [Cursor.take, if_neg (Int.not_le.mpr some)]
    apply h.read some
    dsimp only
    split
    · rfl
    · split
      · rfl
      · split
        · rfl
        · split
          · split <;> simp
          · split
            · rfl
            · exact ModeLoop.changeMember_parv env _ letter _ _

theorem keyLetter (h : Paired params cur st) :
    Paired params (cur.keyLetter st) (st.keyLetter env) := by
  rw [ModeLoop.keyLetter_eq]
  unfold Cursor.keyLetter
  by_cases query : st.whatt = .query
  · rw [if_pos query, if_pos query]
    exact h
  rw [if_neg query, if_neg query]
  unfold ModeLoop.keyArgument
  cases left : st.parv with
  | nil =>
    have none := h.nil_iff.mp left
    rw [Cursor.take, if_pos none]
    by_cases del : st.whatt = .del
    · simp only [if_pos del]
      exact h.miss none (st.keyGiven_parv env ['*'])
    · simp only [if_neg del]
      exact h.miss none rfl
  | cons para rest =>
    have some := (h.head left).1
    rw [Cursor.take, if_neg (Int.not_le.mpr some)]
    by_cases del : st.whatt = .del
    · simp only [if_pos del]
      exact h.read some (st.eat.keyGiven_parv env _)
    · simp only [if_neg del]
      exact h.read some (st.eat.keyGiven_parv env _)

theorem maskLetter (h : Paired params cur st) (kind : ListKind) :
    Paired params (cur.maskLetter env params st kind) (st.maskLetter env kind) := by
  unfold Cursor.maskLetter ModeLoop.maskLetter
  by_cases query : st.whatt = .query
  · rw [if_pos query, if_pos query]
    exact h.same (st.showList_parv env kind)
  rw [if_neg query, if_neg query]
  cases left : st.parv with
  | nil =>
    have none := h.nil_iff.mp left
    rw [if_pos none]
    exact h.miss none (st.showList_parv env kind)
  | cons para rest =>
    obtain ⟨some, same, tail⟩ := h.head left
    rw [if_neg (Int.not_le.mpr some), ← same]
    have taken : Paired params cur.read st.eat := h.read some rfl
    dsimp only
    have opcnt : st.eat.opcnt = st.opcnt := rfl
    have whatt : st.eat.whatt = st.whatt := rfl
    rw [opcnt, whatt]
    split
    · exact taken
    · split
      · exact taken.same (st.eat.noOps_parv env)
      · split
        · exact taken.skip rfl
        · generalize (if env.myClient then collapse (prettyMask (checkString para))
            else checkString para) = mask
          split
          · exact taken.skip rfl
          · exact taken.same (st.eat.changeMask_parv env kind mask)

theorem limitLetter (h : Paired params cur st) :
    Paired params (cur.limitLetter env st) (st.limitLetter env) := by
  -- an argument that is counted and stepped over
  have passed : Paired params
      (if st.whatt = .add then (if 0 < cur.parc then cur.skip else cur.miss) else cur)
      (if st.whatt = .add then st.eat else st) := by
    split
    · split
      · exact h.skip rfl
      next none =>
        have none := Int.not_lt.mp none
        apply h.miss none
        rw [ModeLoop.eat_parv, h.nil_iff.mpr none, List.tail_nil]
    · exact h
  unfold Cursor.limitLetter ModeLoop.limitLetter
  by_cases query : st.whatt = .query
  · rw [if_pos query, if_pos query]
    exact h
  rw [if_neg query, if_neg query]
  by_cases barred : !env.isok
  · rw [if_pos (Or.inl barred), if_pos barred]
    exact passed
  rw [if_neg barred]
  by_cases again : st.limitset
  · rw [if_pos (Or.inr again), if_pos again]
    exact passed
  rw [if_neg (not_or.mpr ⟨barred, again⟩), if_neg again]
  dsimp only
  by_cases add : st.whatt = .add
  · rw [if_pos add, if_pos add]
    cases left : st.parv with
    | nil =>
      have none := h.nil_iff.mp left
      rw [Cursor.take, if_pos none]
      apply h.miss none
      rw [left]
      dsimp only
      split <;> rfl
    | cons para rest =>
      have some := (h.head left).1
      rw [Cursor.take, if_neg (Int.not_le.mpr some)]
      apply h.read some
      rw [left]
      dsimp only
      split
      · rfl
      · split
        · rfl
        · simp
  · rw [if_neg add, if_neg add]
    exact h.same (by simp)

theorem letter (h : Paired params cur st) (c : Char) :
    Paired params (cur.letter env params st c) (st.letter env c) := by
  unfold Cursor.letter ModeLoop.letter
  split
  · exact h.memberLetter env 'o'
  · exact h.memberLetter env 'v'
  · exact h.keyLetter env
  · exact h.maskLetter env .exception
  · exact h.maskLetter env .invex
  · exact h.maskLetter env .ban
  · exact h.limitLetter env
  · split
    any_goals contradiction
    · exact h.same rfl
    · exact h.same rfl
    · exact h.same rfl
    · exact h.same (st.inviteLetter_parv env)
    · exact h.same (st.jupeLetter_parv env)
    · exact h.same (st.flagLetter_parv env _ _)
    · exact h.same (st.flagLetter_parv env _ _)
    · exact h.same (st.flagLetter_parv env _ _)
    · exact h.same (st.flagLetter_parv env _ _)
    · exact h.same (st.flagLetter_parv env _ _)
    · exact h.same (st.unknownLetter_parv env c)

end Paired

structure Advances (cur cur' : Cursor) : Prop where
  forward : cur.parv ≤ cur'.parv
  reads : cur'.reads = cur.reads ∨ cur'.reads = cur.reads ++ [cur.parv]

namespace Advances

variable (cur : Cursor)

theorem stay : Advances cur cur := ⟨Nat.le_refl _, Or.inl rfl⟩

theorem miss : Advances cur cur.miss := ⟨Nat.le_refl _, Or.inl rfl⟩

theorem skip : Advances cur cur.skip := ⟨Nat.le_succ _, Or.inl rfl⟩

theorem read : Advances cur cur.read := ⟨Nat.le_succ _, Or.inr rfl⟩

theorem read_skip : Advances cur cur.read.skip :=
  ⟨Nat.le_add_right cur.parv 2, Or.inr rfl⟩

theorem take : Advances cur cur.take := by
  unfold Cursor.take
  split
  · exact miss cur
  · exact read cur

theorem maskLetter (env : ModeEnv) (params : List CStr) (st : ModeLoop) (kind : ListKind) :
    Advances cur (cur.maskLetter env params st kind) := by
  unfold Cursor.maskLetter
  split
  · exact stay cur
  · split
    · exact miss cur
    · dsimp only
      split
      · exact read cur
      · split
        · exact read cur
        · split
          · exact read_skip cur
          · generalize (if env.myClient then
              collapse (prettyMask (checkString (params.getD cur.parv [])))
              else checkString (params.getD cur.parv [])) = mask
            split
            · exact read_skip cur
            · exact read cur

theorem limitLetter (env : ModeEnv) (st : ModeLoop) : Advances cur (cur.limitLetter env st) := by
  unfold Cursor.limitLetter
  split
  · exact stay cur
  · split
    · split
      · split
        · exact skip cur
        · exact miss cur
      · exact stay cur
    · split
      · exact take cur
      · exact stay cur

theorem letter (env : ModeEnv) (params : List CStr) (st : ModeLoop) (c : Char) :
    Advances cur (cur.letter env params st c) := by
  have member : Advances cur (cur.memberLetter env st) := by
    unfold Cursor.memberLetter
    split
    · exact skip cur
    · split
      · exact stay cur
      · exact take cur
  unfold Cursor.letter
  split
  · exact member
  · exact member
  · unfold Cursor.keyLetter
    split
    · exact stay cur
    · exact take cur
  · exact maskLetter cur env params st .exception
  · exact maskLetter cur env params st .invex
  · exact maskLetter cur env params st .ban
  · exact limitLetter cur env st
  · exact stay cur

end Advances

namespace ModeScan

variable {env : ModeEnv} {params : List CStr} {s s' last : ModeScan}

theorem step_cases (turn : s.step env params = some s') :
    (s.curr = [] ∧ 0 < s.cursor.parc ∧ s' = {
      loop := s.loop.eat
      curr := params.getD s.cursor.parv []
      cursor := s.cursor.read }) ∨
    ∃ c curr, s.curr = c :: curr ∧ s' = {
      loop := s.loop.letter env c
      curr := curr
      cursor := s.cursor.letter env params s.loop c } := by
  unfold step at turn
  cases left : s.curr with
  | nil =>
    rw [left] at turn
    by_cases some : 0 < s.cursor.parc
    · rw [if_pos some] at turn
      exact Or.inl ⟨rfl, some, (Option.some.inj turn).symm⟩
    · rw [if_neg some] at turn
      cases turn
  | cons c curr =>
    rw [left] at turn
    exact Or.inr ⟨c, curr, rfl, (Option.some.inj turn).symm⟩

theorem step_paired (turn : s.step env params = some s') (h : Paired params s.cursor s.loop) :
    Paired params s'.cursor s'.loop := by
  rcases step_cases turn with ⟨-, some, rfl⟩ | ⟨c, curr, -, rfl⟩
  · exact h.read some rfl
  · exact h.letter env c

theorem step_advances (turn : s.step env params = some s') : Advances s.cursor s'.cursor := by
  rcases step_cases turn with ⟨-, -, rfl⟩ | ⟨c, curr, -, rfl⟩
  · exact Advances.read s.cursor
  · exact Advances.letter s.cursor env params s.loop c

theorem Passes.paired (h : Passes env params s s') (start : Paired params s.cursor s.loop) :
    Paired params s'.cursor s'.loop := by
  induction h with
  | here => exact start
  | next _ turn ih => exact step_paired turn ih

theorem ends_letters {n : Nat}
    (next : ∀ s : ModeScan, Paired params s.cursor s.loop → s.curr = [] →
      params.length - s.cursor.parv ≤ n → ∃ last, Ends env params s last)
    (s : ModeScan) (h : Paired params s.cursor s.loop) (left : params.length - s.cursor.parv ≤ n) :
    ∃ last, Ends env params s last := by
  obtain ⟨loop, curr, cursor⟩ := s
  induction curr generalizing loop cursor with
  | nil => exact next _ h rfl left
  | cons c curr ih =>
    have forward := (Advances.letter cursor env params loop c).forward
    have fewer : params.length - (cursor.letter env params loop c).parv ≤ n := by
      dsimp only at left
      omega
    obtain ⟨last, rest⟩ := ih _ _ (h.letter env c) fewer
    exact ⟨last, Ends.next rfl rest⟩

/-- The loop breaks: a string gets shorter with each letter, and each string takes a
parameter. -/
theorem ends (n : Nat) (s : ModeScan) (h : Paired params s.cursor s.loop)
    (left : params.length - s.cursor.parv ≤ n) : ∃ last, Ends env params s last := by
  induction n generalizing s with
  | zero =>
    apply ends_letters (n := 0) _ s h left
    intro s h ended left
    have none : ¬0 < s.cursor.parc := by
      intro some
      have inside := h.inStep.inside some
      omega
    exact ⟨s, Ends.done (by rw [step, ended]; exact if_neg none)⟩
  | succ n ih =>
    apply ends_letters (n := n + 1) _ s h left
    intro s h ended left
    by_cases some : 0 < s.cursor.parc
    · have turn : s.step env params = Option.some {
          loop := s.loop.eat
          curr := params.getD s.cursor.parv []
          cursor := s.cursor.read } := by
        rw [step, ended]
        exact if_pos some
      have fewer : params.length - s.cursor.read.parv ≤ n := by
        simp only [Cursor.read]
        omega
      obtain ⟨last, rest⟩ := ih _ (step_paired turn h) fewer
      exact ⟨last, Ends.next turn rest⟩
    · exact ⟨s, Ends.done (by rw [step, ended]; exact if_neg some)⟩

theorem Ends.loop_eq (h : Ends env params s last) (start : Paired params s.cursor s.loop) {n : Nat}
    (enough : s.loop.parv.length ≤ n) :
    last.loop = ModeLoop.strings env n (s.loop.letters env s.curr) := by
  induction h generalizing n with
  | @done s stop =>
    unfold step at stop
    -- the walk stops at the end of a string with nothing left to take
    cases ended : s.curr with
    | nil =>
      rw [ended] at stop
      have none : s.loop.parv = [] := by
        apply start.nil_iff.mpr
        apply Int.not_lt.mp
        intro some
        rw [if_pos some] at stop
        cases stop
      cases n with
      | zero => rfl
      | succ n => rw [ModeLoop.letters, List.foldl_nil, ModeLoop.strings, none]
    | cons c curr =>
      rw [ended] at stop
      cases stop
  | @next s s' last turn rest ih =>
    have after := step_paired turn start
    -- a turn takes the next string or reads the next letter of this one
    rcases step_cases turn with ⟨ended, some, rfl⟩ | ⟨c, curr, inside, rfl⟩
    · have left := start.parv
      rw [start.inStep.drop_cons some] at left
      cases n with
      | zero =>
        rw [left] at enough
        cases enough
      | succ n =>
        have fewer : s.loop.eat.parv.length ≤ n := by
          rw [ModeLoop.eat_parv, List.length_tail]
          omega
        rw [ih after fewer, ended, ModeLoop.letters, ModeLoop.letters, List.foldl_nil,
          ModeLoop.strings, left]
        rfl
    · have forward := (Advances.letter s.cursor env params s.loop c).forward
      have fewer : (s.loop.letter env c).parv.length ≤ n := by
        rw [after.parv, List.length_drop]
        rw [start.parv, List.length_drop] at enough
        dsimp only
        omega
      rw [ih after fewer, inside]
      rfl

theorem Passes.to_end (h : Passes env params s s') (ends : Ends env params s' last) :
    Passes env params s last := by
  induction ends with
  | done => exact h
  | next turn _ ih => exact ih (h.next turn)

theorem ends_modeRun (env : ModeEnv) (mode : CStr) (args : List CStr) :
    ∃ last, Ends env (mode :: args) (start (env.tables.chan env.chan) mode args) last ∧
      last.loop.sendLines env = modeRun env (mode :: args) := by
  have paired := Paired.start (env.tables.chan env.chan) mode args
  obtain ⟨last, comes⟩ := ends _ _ paired (Nat.le_refl _)
  refine ⟨last, comes, ?_⟩
  rw [comes.loop_eq paired (Nat.le_refl args.length)]
  rfl

end ModeScan

/-- For every channel, every source and every vector of parameters the loop comes to its
end, with the result that `modeRun` works out. On the way no index is read that is not a
parameter's, no parameter twice or out of order, and none that was passed over before. -/
theorem setChannelMode_inStep (t : Tables) (cptr sptr : ClientId) (c : ChanId) (mode : CStr)
    (args : List CStr) :
    (∃ last, ModeScan.Ends (modeEnv t cptr sptr c) (mode :: args)
        (ModeScan.start (t.chan c) mode args) last ∧
      last.loop.sendLines (modeEnv t cptr sptr c) =
        modeRun (modeEnv t cptr sptr c) (mode :: args)) ∧
    ∀ s, ModeScan.Passes (modeEnv t cptr sptr c) (mode :: args)
        (ModeScan.start (t.chan c) mode args) s →
      (∀ i ∈ s.cursor.reads, i < (mode :: args).length) ∧
      s.cursor.reads.Pairwise (· < ·) ∧
      s.loop.parv = (mode :: args).drop s.cursor.parv ∧
      ∀ s', s.step (modeEnv t cptr sptr c) (mode :: args) = some s' →
        Advances s.cursor s'.cursor := by
  have start := Paired.start (t.chan c) mode args
  constructor
  · exact ModeScan.ends_modeRun (modeEnv t cptr sptr c) mode args
  · intro s passes
    have paired := passes.paired start
    exact ⟨fun i read => (paired.inStep.behind i read).2, paired.inStep.order, paired.parv,
      fun s' turn => ModeScan.step_advances turn⟩

end Ircd
