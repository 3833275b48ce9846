import Ircd.Message.Lists

/-! `canonize` as it works on its buffers.

The list is taken apart by a `strtoken` that ends each token with a NUL in the place of the
comma. What is kept so far stands in a static buffer, which a second `strtoken` takes apart
for every element; each comma that this one overwrites is put back before it goes on.
-/

set_option autoImplicit false

namespace Ircd

namespace CMem

def cAt (mem : List Char) (pos : Nat) : CStr := cString (mem.drop pos)

/-- `strtoken(&save, str, ",")`, where `pos` is `str` or else what `save` holds: the buffer,
the token and the new `save`. -/
def strtoken (mem : List Char) (pos : Option Nat) : List Char × Option Nat × Option Nat :=
  match pos with
  | none => (mem, none, none)
  | some pos =>
    let start := pos + ((cAt mem pos).takeWhile isComma).length
    if cAt mem start = [] then (mem, none, none)
    else
      let stop := start + ((cAt mem start).takeWhile fun c => !isComma c).length
      if cAt mem stop = [] then (mem, some start, none)
      else (mem.set stop '\x00', some start, some (stop + 1))

def restore (mem : List Char) : Option Nat → List Char
  | none => mem
  | some p2 => mem.set (p2 - 1) ','

def strcpy (mem : List Char) (pos : Nat) (str : CStr) : Option (List Char) :=
  if pos + str.length < mem.length then
    some (mem.take pos ++ str ++ '\x00' :: mem.drop (pos + str.length + 1))
  else none

/-- The inner loop: the buffer, `p2` and `t` when it ends. -/
def findKept (s : CStr) : Nat → List Char → Option Nat →
    Option (List Char × Option Nat × Option Nat)
  | 0, _, _ => none
  | fuel + 1, cbuf, p2 =>
    match strtoken cbuf p2 with
    | (cbuf, none, p2) => some (cbuf, p2, none)
    | (cbuf, some t, p2) =>
      if irccmp s (cAt cbuf t) = .eq then some (cbuf, p2, some t)
      else findKept s fuel (restore cbuf p2) p2

def lookFor (l : Bool) (s : CStr) (cbuf : List Char) :
    Option (List Char × Option Nat × Option Nat) :=
  if l then findKept s (cbuf.length + 1) cbuf (some 0) else some (cbuf, none, none)

/-- The outer loop: `p` walks over the list, `cp` is where the next element goes and `l` says
that there was one. -/
def walk : Nat → List Char → Option Nat → List Char → Nat → Bool → Option (List Char)
  | 0, _, _, _, _, _ => none
  | fuel + 1, buffer, p, cbuf, cp, l =>
    match strtoken buffer p with
    | (_, none, _) => some cbuf
    | (buffer, some s, p) => do
      let str := cAt buffer s
      let (cbuf, p2, t) ← lookFor l str cbuf
      if t = none then
        let cbuf ← strcpy (if l then cbuf.set (cp - 1) ',' else cbuf) cp str
        let cp := match p with
          | some p => cp + (p - s)
          | none => cp
        walk fuel buffer p cbuf cp true
      else walk fuel buffer p (restore cbuf p2) cp l

/-- `canonize(buffer)`, where the static buffer is as the call before left it. -/
def canonize (cbuf buffer : List Char) : Option CStr :=
  (walk (buffer.length + 1) buffer (some 0) (cbuf.set 0 '\x00') 0 false).map cString

variable {mem : List Char} {pos : Nat}

theorem cAt_add {k : Nat} (inside : k ≤ (cAt mem pos).length) :
    cAt mem (pos + k) = (cAt mem pos).drop k := by
  have split : ∀ (m : List Char) (k : Nat), k ≤ (cString m).length →
      cString (m.drop k) = (cString m).drop k := by
    intro m
    induction m with
    | nil => simp [cString]
    | cons c m ih =>
      intro k inside
      cases k with
      | zero => rfl
      | succ k =>
        by_cases nul : c = '\x00'
        · simp [cString, nul] at inside
        · have whole : cString (c :: m) = c :: cString m := by
            simp [cString, nul]
          rw [whole] at inside ⊢
          exact ih k (by simpa using inside)
  unfold cAt at inside ⊢
  rw [← List.drop_drop]
  exact split _ k inside

theorem getElem?_of_cAt {c : Char} {rest : CStr} (text : cAt mem pos = c :: rest) :
    mem[pos]? = some c := by
  have first : (mem.drop pos).head? = some c := by
    unfold cAt cString at text
    cases dropped : mem.drop pos with
    | nil => simp [dropped] at text
    | cons d m =>
      rw [dropped, List.takeWhile_cons] at text
      split at text
      · cases text
        rfl
      · cases text
  rwa [List.head?_drop] at first

theorem cAt_set_of_lt {i : Nat} {c : Char} (before : i < pos) :
    cAt (mem.set i c) pos = cAt mem pos := by
  rw [cAt, List.drop_set_of_lt before, cAt]

theorem cAt_set_nul {k : Nat} (inside : k < (cAt mem pos).length) :
    cAt (mem.set (pos + k) '\x00') pos = (cAt mem pos).take k := by
  have cut : ∀ (m : List Char) (k : Nat), k < (cString m).length →
      cString (m.set k '\x00') = (cString m).take k := by
    intro m
    induction m with
    | nil => simp [cString]
    | cons c m ih =>
      intro k inside
      by_cases nul : c = '\x00'
      · simp [cString, nul] at inside
      · have whole : cString (c :: m) = c :: cString m := by
          simp [cString, nul]
        rw [whole] at inside ⊢
        cases k with
        | zero => simp [cString]
        | succ k =>
          have rest := ih k (by simpa using inside)
          have next : cString (c :: m.set k '\x00') = c :: cString (m.set k '\x00') := by
            simp [cString, nul]
          rw [List.set_cons_succ, next, rest]
          rfl
  unfold cAt at inside ⊢
  rw [List.drop_set, if_neg (by omega), Nat.add_sub_cancel_left]
  exact cut _ k inside

theorem tokens_dropWhile (s : CStr) :
    tokens isComma (s.dropWhile isComma) = tokens isComma s := by
  induction s with
  | nil => rfl
  | cons c s ih =>
    rw [List.dropWhile_cons]
    split
    · next comma =>
      rw [ih]
      simp [tokens, tokensFrom, comma]
    · rfl

theorem tokens_eq_cons {s : CStr} (some : s ≠ []) (first : s.takeWhile isComma = []) :
    s.takeWhile (fun c => !isComma c) ≠ [] ∧
      tokens isComma s = s.takeWhile (fun c => !isComma c) ::
        tokens isComma (s.dropWhile fun c => !isComma c).tail := by
  have target : IsTarget (s.takeWhile fun c => !isComma c) := by
    refine ⟨?_, fun c inside => ?_⟩
    · cases s with
      | nil => exact absurd rfl some
      | cons c s =>
        rw [List.takeWhile_cons] at first ⊢
        cases comma : isComma c with
        | true => simp [comma] at first
        | false => simp
    · have all := List.all_eq_true.1 (List.all_takeWhile (p := fun c => !isComma c)) c inside
      simpa using all
  refine ⟨target.1, ?_⟩
  have whole : s.takeWhile (fun c => !isComma c) ++ s.dropWhile (fun c => !isComma c) = s :=
    List.takeWhile_append_dropWhile
  cases rest : s.dropWhile fun c => !isComma c with
  | nil =>
    rw [rest, List.append_nil] at whole
    rw [List.tail_nil]
    conv_lhs => rw [← whole]
    exact tokens_of_isTarget target
  | cons c rest' =>
    have comma : isComma c = true := by
      have head := List.head?_dropWhile_not (fun c => !isComma c) s
      rw [rest] at head
      simpa using head
    rw [rest] at whole
    conv_lhs => rw [← whole]
    rw [tokens, tokensFrom_append isComma c comma, ← tokens, tokens_of_isTarget target]
    rfl

theorem take_takeWhile (p : Char → Bool) (s : CStr) :
    s.take (s.takeWhile p).length = s.takeWhile p :=
  (List.prefix_iff_eq_take.mp (List.takeWhile_prefix p)).symm

theorem drop_takeWhile (p : Char → Bool) (s : CStr) :
    s.drop (s.takeWhile p).length = s.dropWhile p := by
  calc s.drop (s.takeWhile p).length
      = (s.takeWhile p ++ s.dropWhile p).drop (s.takeWhile p).length := by
        rw [List.takeWhile_append_dropWhile]
    _ = s.dropWhile p := List.drop_left

theorem takeWhile_dropWhile (p : Char → Bool) (s : CStr) :
    (s.dropWhile p).takeWhile p = [] := by
  cases rest : s.dropWhile p with
  | nil => rfl
  | cons c rest =>
    have stop := List.head?_dropWhile_not p s
    rw [rest] at stop
    have here : p c = false := by simpa using stop
    simp [here]

/-- The tokens that are still to come, where `save` is at `p`. -/
def tokensAt (mem : List Char) : Option Nat → List CStr
  | none => []
  | some pos => tokens isComma (cAt mem pos)

/-- What a call of `strtoken` that finds a token leaves: the token at `t`, the others behind
the new `save`, and a comma to put back. -/
structure Splits (mem mem' : List Char) (tok : CStr) (rest : List CStr) (t : Nat)
    (p' : Option Nat) : Prop where
  text : cAt mem' t = tok
  later : tokensAt mem' p' = rest
  unread : tokensAt mem p' = rest
  back : restore mem' p' = mem
  next : ∀ p2 ∈ p', p2 = t + tok.length + 1

theorem strtoken_nil {p : Option Nat} (empty : tokensAt mem p = []) :
    strtoken mem p = (mem, none, none) := by
  cases p with
  | none => rfl
  | some pos =>
    have skipped : cAt mem (pos + ((cAt mem pos).takeWhile isComma).length) =
        (cAt mem pos).dropWhile isComma := by
      rw [cAt_add (List.takeWhile_sublist _).length_le, drop_takeWhile]
    have nothing : (cAt mem pos).dropWhile isComma = [] := by
      by_contra something
      have first : ((cAt mem pos).dropWhile isComma).takeWhile isComma = [] :=
        takeWhile_dropWhile _ _
      have more := (tokens_eq_cons something first).2
      rw [tokens_dropWhile] at more
      exact List.cons_ne_nil _ _ (more.symm.trans empty)
    simp only [strtoken, skipped, nothing, if_true]

theorem strtoken_cons {p : Option Nat} {tok : CStr} {rest : List CStr}
    (more : tokensAt mem p = tok :: rest) :
    ∃ mem' t p', strtoken mem p = (mem', some t, p') ∧ Splits mem mem' tok rest t p' := by
  cases p with
  | none => cases more
  | some pos =>
    have skipped : cAt mem (pos + ((cAt mem pos).takeWhile isComma).length) =
        (cAt mem pos).dropWhile isComma := by
      rw [cAt_add (List.takeWhile_sublist _).length_le, drop_takeWhile]
    simp only [strtoken]
    generalize pos + ((cAt mem pos).takeWhile isComma).length = start at skipped ⊢
    have first : (cAt mem start).takeWhile isComma = [] := by
      rw [skipped]
      exact takeWhile_dropWhile _ _
    have total : tokens isComma (cAt mem start) = tok :: rest := by
      rw [skipped, tokens_dropWhile]
      exact more
    have something : cAt mem start ≠ [] := by
      intro nothing
      rw [nothing] at total
      cases total
    obtain ⟨-, split⟩ := tokens_eq_cons something first
    obtain ⟨same, others⟩ := List.cons.inj (total.symm.trans split)
    have inside : tok.length ≤ (cAt mem start).length := by
      rw [same]
      exact (List.takeWhile_sublist _).length_le
    have behind : cAt mem (start + tok.length) =
        (cAt mem start).dropWhile fun c => !isComma c := by
      rw [cAt_add inside, same, drop_takeWhile]
    rw [if_neg something, ← same]
    -- the token ends with the text, or at a comma that becomes a terminator
    by_cases ends : cAt mem (start + tok.length) = []
    · rw [if_pos ends]
      rw [behind] at ends
      have all : (cAt mem start).takeWhile (fun c => !isComma c) = cAt mem start := by
        have whole := List.takeWhile_append_dropWhile (p := fun c => !isComma c)
          (l := cAt mem start)
        rwa [ends, List.append_nil] at whole
      have last : ([] : List CStr) = rest := by
        rw [others, ends]
        rfl
      exact ⟨mem, start, none, rfl, same ▸ all.symm, last, last, rfl, by simp⟩
    · rw [if_neg ends]
      obtain ⟨c, tail, comes⟩ := List.exists_cons_of_ne_nil ends
      have comma : c = ',' := by
        have head := List.head?_dropWhile_not (fun c => !isComma c) (cAt mem start)
        rw [← behind, comes] at head
        simpa [isComma] using head
      have strict : tok.length < (cAt mem start).length := by
        apply lt_of_le_of_ne inside
        intro full
        rw [cAt_add inside, full, List.drop_length] at ends
        exact ends rfl
      have beyond : cAt mem (start + tok.length + 1) = tail := by
        have one : 1 ≤ (cAt mem (start + tok.length)).length := by
          rw [comes]
          simp
        rw [cAt_add one, comes]
        rfl
      have unread : tokensAt mem (some (start + tok.length + 1)) = rest := by
        rw [tokensAt, beyond, others, ← behind, comes]
        rfl
      refine ⟨_, start, _, rfl, ?_, ?_, unread, ?_, by simp⟩
      · rw [cAt_set_nul strict, same, take_takeWhile]
      · rw [tokensAt, cAt_set_of_lt (Nat.lt_succ_self _)]
        exact unread
      -- the comma is put back where the terminator stands
      · obtain ⟨stored, holds⟩ := List.getElem?_eq_some_iff.mp (getElem?_of_cAt comes)
        rw [restore, Nat.add_sub_cancel, List.set_set, ← comma, ← holds]
        exact List.set_getElem_self stored

theorem length_tokensFrom (current s : CStr) :
    (tokensFrom isComma current s).length ≤ s.length + current.length := by
  induction s generalizing current with
  | nil =>
    cases current with
    | nil => simp [tokensFrom]
    | cons c current => simp [tokensFrom]
  | cons c s ih =>
    have fresh := ih []
    have longer := ih (c :: current)
    rw [List.length_nil] at fresh
    rw [List.length_cons] at longer
    rw [tokensFrom, List.length_cons]
    split
    · split
      · omega
      · next some =>
        have counted := List.length_pos_iff.mpr some
        rw [List.length_cons]
        omega
    · omega

theorem length_tokensAt (mem : List Char) (p : Option Nat) :
    (tokensAt mem p).length ≤ mem.length := by
  cases p with
  | none => exact Nat.zero_le _
  | some pos =>
    have few := length_tokensFrom [] (cAt mem pos)
    have inside : (cAt mem pos).length ≤ (mem.drop pos).length :=
      (List.takeWhile_sublist _).length_le
    rw [List.length_drop] at inside
    rw [List.length_nil] at few
    rw [tokensAt, tokens]
    omega

/-- An element that is not kept yet is compared with every token, and the buffer is as before. -/
theorem findKept_fresh {s : CStr} {cbuf : List Char} {p : Option Nat} {toks : List CStr}
    (left : tokensAt cbuf p = toks) {fuel : Nat} (enough : toks.length < fuel)
    (fresh : (toks.any fun t => irccmp s t == .eq) = false) :
    findKept s fuel cbuf p = some (cbuf, none, none) := by
  induction toks generalizing fuel p with
  | nil =>
    cases fuel with
    | zero => cases enough
    | succ fuel => rw [findKept, strtoken_nil left]
  | cons tok rest ih =>
    cases fuel with
    | zero => cases enough
    | succ fuel =>
      obtain ⟨cbuf', t, p', cut, splits⟩ := strtoken_cons left
      rw [List.any_cons, Bool.or_eq_false_iff] at fresh
      have unlike : irccmp s tok ≠ .eq := beq_eq_false_iff_ne.mp fresh.1
      rw [findKept, cut]
      simp only
      rw [splits.text, if_neg unlike, splits.back]
      exact ih splits.unread (Nat.lt_of_succ_lt_succ enough) fresh.2

/-- An element that is kept already ends the loop, and one comma is still to be put back. -/
theorem findKept_known {s : CStr} {cbuf : List Char} {p : Option Nat} {toks : List CStr}
    (left : tokensAt cbuf p = toks) {fuel : Nat} (enough : toks.length < fuel)
    (known : (toks.any fun t => irccmp s t == .eq) = true) :
    ∃ cbuf' p2 t, findKept s fuel cbuf p = some (cbuf', p2, some t) ∧ restore cbuf' p2 = cbuf := by
  induction toks generalizing fuel p with
  | nil => cases known
  | cons tok rest ih =>
    cases fuel with
    | zero => cases enough
    | succ fuel =>
      obtain ⟨cbuf', t, p', cut, splits⟩ := strtoken_cons left
      rw [findKept, cut]
      simp only
      rw [splits.text]
      by_cases same : irccmp s tok = .eq
      · rw [if_pos same]
        exact ⟨cbuf', p', t, rfl, splits.back⟩
      · rw [List.any_cons, beq_eq_false_iff_ne.mpr same, Bool.false_or] at known
        rw [if_neg same, splits.back]
        exact ih splits.unread (Nat.lt_of_succ_lt_succ enough) known

/-- The static buffer while `kept` is in it: where the next element goes matters only while
there is one. -/
structure Holds (cbuf : List Char) (cp : Nat) (l : Bool) (kept toks : List CStr) : Prop where
  text : cAt cbuf 0 = [','].intercalate kept
  targets : ∀ name ∈ kept, IsTarget name
  flag : l = true ↔ kept ≠ []
  behind : toks ≠ [] → cp = if kept = [] then 0 else ([','].intercalate kept).length + 1

theorem intercalate_snoc (kept : List CStr) (tok : CStr) :
    [','].intercalate (kept ++ [tok]) =
      if kept = [] then tok else [','].intercalate kept ++ ',' :: tok := by
  induction kept with
  | nil => simp [List.intercalate]
  | cons first kept ih =>
    cases kept with
    | nil => simp [List.intercalate]
    | cons second kept =>
      have longer : ∀ others : List CStr, [','].intercalate (first :: second :: others) =
          first ++ ',' :: [','].intercalate (second :: others) := by
        intro others
        simp [List.intercalate]
      rw [List.cons_append, List.cons_append, longer, ← List.cons_append, ih, longer]
      simp

theorem nulFree_cAt (mem : List Char) (pos : Nat) : NulFree (cAt mem pos) := by
  intro c inside
  exact bne_iff_ne.mp (List.mem_takeWhile_imp (p := fun c => c != '\x00') inside)

theorem strcpy_text {mem : List Char} {done str : CStr} {pos : Nat}
    (room : pos + str.length < mem.length) (before : mem.take pos = done)
    (clean : NulFree (done ++ str)) :
    ∃ mem', strcpy mem pos str = some mem' ∧ mem'.length = mem.length ∧
      cAt mem' 0 = done ++ str := by
  refine ⟨_, if_pos room, ?_, ?_⟩
  · simp only [List.length_append, List.length_cons, List.length_take, List.length_drop]
    omega
  · rw [before, cAt, List.drop_zero]
    exact clean.cString_append _

theorem take_of_cAt {mem : List Char} {text : CStr} (holds : cAt mem 0 = text) :
    mem.take text.length = text := by
  rw [← holds, cAt, List.drop_zero]
  exact take_takeWhile _ mem

theorem Holds.copies {cbuf : List Char} {cp : Nat} {l : Bool} {kept rest : List CStr} {tok : CStr}
    (h : Holds cbuf cp l kept (tok :: rest)) (clean : NulFree tok)
    (room : ([','].intercalate (kept ++ [tok])).length < cbuf.length) :
    ∃ cbuf', strcpy (if l then cbuf.set (cp - 1) ',' else cbuf) cp tok = some cbuf' ∧
      cbuf'.length = cbuf.length ∧ cAt cbuf' 0 = [','].intercalate (kept ++ [tok]) := by
  have place := h.behind (List.cons_ne_nil _ _)
  rw [intercalate_snoc] at room ⊢
  by_cases empty : kept = []
  · have fresh : l = false := by
      rw [← Bool.not_eq_true]
      exact fun some => h.flag.mp some empty
    rw [if_pos empty] at place room ⊢
    rw [fresh, if_neg Bool.false_ne_true, place]
    exact strcpy_text (by omega) rfl clean
  · rw [if_neg empty] at place room ⊢
    rw [List.length_append, List.length_cons] at room
    rw [if_pos (h.flag.mpr empty)]
    have kept' := nulFree_cAt cbuf 0
    rw [h.text] at kept'
    have joined : (cbuf.set (cp - 1) ',').take cp = [','].intercalate kept ++ [','] := by
      rw [place, Nat.add_sub_cancel, List.take_add_one, List.take_set_of_le le_rfl,
        take_of_cAt h.text, List.getElem?_set_self (by omega)]
      rfl
    have all : NulFree ([','].intercalate kept ++ [','] ++ tok) :=
      (kept'.append (NulFree.cons (by decide) (fun c inside => by cases inside))).append clean
    have space : cp + tok.length < (cbuf.set (cp - 1) ',').length := by
      rw [List.length_set]
      omega
    have copied := strcpy_text space joined all
    rwa [List.length_set, List.append_assoc] at copied

theorem length_intercalate_le (kept more : List CStr) :
    ([','].intercalate kept).length ≤ ([','].intercalate (kept ++ more)).length := by
  induction more generalizing kept with
  | nil => rw [List.append_nil]
  | cons tok more ih =>
    have next : ([','].intercalate kept).length ≤ ([','].intercalate (kept ++ [tok])).length := by
      rw [intercalate_snoc]
      split
      · next empty =>
        rw [empty]
        exact Nat.zero_le _
      · rw [List.length_append]
        omega
    have all := ih (kept ++ [tok])
    rw [List.append_assoc] at all
    exact next.trans all

/-- The outer loop leaves what was kept and every further element that is not kept yet. -/
theorem walk_holds (toks : List CStr) : ∀ (fuel : Nat) (buffer : List Char) (p : Option Nat)
    (cbuf : List Char) (cp : Nat) (l : Bool) (kept : List CStr),
    tokensAt buffer p = toks → toks.length < fuel →
    Holds cbuf cp l kept toks →
    ([','].intercalate (kept ++ canonizeFrom kept toks)).length < cbuf.length →
    ∃ cbuf', walk fuel buffer p cbuf cp l = some cbuf' ∧
      cAt cbuf' 0 = [','].intercalate (kept ++ canonizeFrom kept toks) := by
  induction toks with
  | nil =>
    intro fuel buffer p cbuf cp l kept left enough h _
    cases fuel with
    | zero => cases enough
    | succ fuel =>
      refine ⟨cbuf, ?_, ?_⟩
      · rw [walk, strtoken_nil left]
      · rw [canonizeFrom, List.append_nil]
        exact h.text
  | cons tok rest ih =>
    intro fuel buffer p cbuf cp l kept left enough h room
    cases fuel with
    | zero => cases enough
    | succ fuel =>
      have enough' := Nat.lt_of_succ_lt_succ enough
      obtain ⟨buffer', s, p', cut, splits⟩ := strtoken_cons left
      have target : IsTarget tok := by
        cases p with
        | none => cases left
        | some pos => exact isTarget_of_mem_tokens (left ▸ List.mem_cons_self)
      have found : tokensAt cbuf (some 0) = kept := by
        rw [tokensAt, h.text]
        exact tokens_intercalate h.targets
      have counted := length_tokensAt cbuf (some 0)
      rw [found] at counted
      rw [walk, cut]
      simp only [splits.text]
      -- an element that is kept already is only walked over; the pointer behind the last one stays
      cases known : kept.any fun t => irccmp tok t == .eq with
      | true =>
        have some : l = true := by
          apply h.flag.mpr
          intro empty
          rw [empty] at known
          cases known
        obtain ⟨cbuf', p2, t, ends, back⟩ :=
          findKept_known found (Nat.lt_succ_of_le counted) known
        have same : canonizeFrom kept (tok :: rest) = canonizeFrom kept rest := by
          rw [canonizeFrom, if_pos known]
        rw [same] at room ⊢
        rw [lookFor, if_pos some, ends]
        simp only [Option.bind_eq_bind, Option.bind_some, reduceCtorEq, if_false, back]
        refine ih fuel buffer' p' cbuf cp l kept splits.later enough' ?_ room
        exact { h with behind := fun _ => h.behind (List.cons_ne_nil _ _) }
      | false =>
        have more : canonizeFrom kept (tok :: rest) = tok :: canonizeFrom (kept ++ [tok]) rest := by
          rw [canonizeFrom, if_neg (by rw [known]; exact Bool.false_ne_true)]
        have longer : kept ++ canonizeFrom kept (tok :: rest) =
            kept ++ [tok] ++ canonizeFrom (kept ++ [tok]) rest := by
          rw [more, List.append_assoc]
          rfl
        rw [longer] at room ⊢
        -- nothing is found, and the buffer of the inner walk is as it was
        have searched : lookFor l tok cbuf = some (cbuf, none, none) := by
          unfold lookFor
          split
          · exact findKept_fresh found (Nat.lt_succ_of_le counted) known
          · rfl
        obtain ⟨cbuf', copied, size, text⟩ :=
          h.copies (splits.text ▸ nulFree_cAt buffer' s) ((length_intercalate_le _ _).trans_lt room)
        rw [searched]
        simp only [Option.bind_eq_bind, Option.bind_some, if_true]
        rw [copied]
        refine ih fuel buffer' p' cbuf' _ true (kept ++ [tok]) splits.later enough' ?_
          (size.symm ▸ room)
        refine ⟨text, ?_, ?_, ?_⟩
        · intro name inside
          cases List.mem_append.mp inside with
          | inl old => exact h.targets name old
          | inr new => exact List.mem_singleton.mp new ▸ target
        · simp
        · intro further
          have place := h.behind (List.cons_ne_nil _ _)
          cases p' with
          | none => exact absurd splits.later.symm further
          | some p2 =>
            have next := splits.next p2 rfl
            rw [if_neg (by simp), intercalate_snoc, next, place]
            simp only
            split
            · omega
            · rw [List.length_append, List.length_cons]
              omega

/-- What `canonize` leaves in its buffer, for every text that the call before left in it. -/
theorem canonize_eq (cbuf buffer : List Char)
    (room : (Ircd.canonize (cString buffer)).length < cbuf.length) :
    canonize cbuf buffer = some (Ircd.canonize (cString buffer)) := by
  have start : tokensAt buffer (some 0) = tokens isComma (cString buffer) := by
    rw [tokensAt, cAt, List.drop_zero]
  have few := length_tokensAt buffer (some 0)
  rw [start] at few
  have empty : Holds (cbuf.set 0 '\x00') 0 false [] (tokens isComma (cString buffer)) := by
    refine ⟨?_, by simp, by simp, fun _ => rfl⟩
    cases cbuf with
    | nil => cases room
    | cons c cbuf => rfl
  obtain ⟨cbuf', ends, text⟩ := walk_holds (tokens isComma (cString buffer)) (buffer.length + 1)
    buffer (some 0) (cbuf.set 0 '\x00') 0 false [] start (Nat.lt_succ_of_le few) empty
    (by rwa [List.length_set, List.nil_append])
  rw [canonize, ends]
  rw [cAt, List.drop_zero, List.nil_append] at text
  exact congrArg some text

/-- The names without each that is the same as an earlier one, where `earlier` come before. -/
def removeRepeats (earlier : List CStr) : List CStr → List CStr
  | [] => []
  | s :: rest =>
    if earlier.any fun t => irccmp s t == .eq then removeRepeats (earlier ++ [s]) rest
    else s :: removeRepeats (earlier ++ [s]) rest

def elements (list : CStr) : List CStr := (list.splitOn ',').filter fun s => s ≠ []

theorem any_irccmp {s t : CStr} (same : irccmp s t = .eq) (names : List CStr) :
    (names.any fun u => irccmp s u == .eq) = names.any fun u => irccmp t u == .eq := by
  congr 1
  funext u
  have alike : irccmp s u = .eq ↔ irccmp t u = .eq :=
    ⟨irccmp_trans (irccmp_comm same), irccmp_trans same⟩
  rw [Bool.eq_iff_iff, beq_iff_eq, beq_iff_eq]
  exact alike

/-- Looking among those that were kept finds what looking among all earlier ones finds. -/
theorem canonizeFrom_eq (names : List CStr) : ∀ earlier kept : List CStr,
    (∀ s, (earlier.any fun t => irccmp s t == .eq) = kept.any fun t => irccmp s t == .eq) →
    canonizeFrom kept names = removeRepeats earlier names := by
  induction names with
  | nil => exact fun _ _ _ => rfl
  | cons s rest ih =>
    intro earlier kept alike
    rw [canonizeFrom, removeRepeats, alike s]
    split
    · next known =>
      apply ih
      intro u
      rw [List.any_append, alike u, List.any_cons, List.any_nil, Bool.or_false]
      cases same : irccmp u s == .eq with
      | false => rw [Bool.or_false]
      | true => rw [any_irccmp (beq_iff_eq.mp same), known, Bool.or_true]
    · congr 1
      apply ih
      intro u
      rw [List.any_append, List.any_append, alike u]

theorem tokens_eq_elements (list : CStr) : tokens isComma list = elements list := by
  have run : ∀ (s current : CStr), tokensFrom isComma current s =
      (s.splitOnPPrepend isComma current).filter fun s => s ≠ [] := by
    intro s
    induction s with
    | nil =>
      intro current
      rw [tokensFrom, List.splitOnPPrepend_nil]
      cases current with
      | nil => rfl
      | cons c current => simp
    | cons c s ih =>
      intro current
      rw [tokensFrom]
      cases comma : isComma c with
      | true =>
        rw [if_pos rfl, List.splitOnPPrepend_cons_pos comma, List.filter_cons, ih,
          List.splitOnPPrepend_nil_right]
        cases current with
        | nil => rfl
        | cons d current => simp
      | false =>
        rw [if_neg Bool.false_ne_true, List.splitOnPPrepend_cons_neg comma, ih]
  rw [tokens, run, elements, List.splitOn_eq_splitOnP, List.splitOnPPrepend_nil_right]
  rfl

theorem canonize_eq_removeRepeats (list : CStr) :
    Ircd.canonize list = [','].intercalate (removeRepeats [] (elements list)) := by
  rw [Ircd.canonize, distinctTargets, canonizeFrom_eq _ [] [] (fun _ => rfl), tokens_eq_elements]

theorem canonize_canonize (list : CStr) :
    Ircd.canonize (Ircd.canonize list) = Ircd.canonize list := by
  have again : distinctTargets (Ircd.canonize list) = distinctTargets list := by
    rw [distinctTargets, tokens_canonize]
    apply canonizeFrom_of_distinct (canonizeFrom_distinct [] _)
    intro nick _ other inside
    cases inside
  rw [Ircd.canonize, again, ← Ircd.canonize]

/-- The elements that are not empty lose their repeats, and nothing is left to lose. -/
theorem canonize_removes (cbuf buffer : List Char) (static : cbuf.length = bufSize)
    (fits : ([','].intercalate (removeRepeats [] (elements (cString buffer)))).length < bufSize) :
    canonize cbuf buffer =
        some ([','].intercalate (removeRepeats [] (elements (cString buffer)))) ∧
      ∀ cbuf' buffer', cbuf'.length = bufSize → canonize cbuf buffer = some (cString buffer') →
        canonize cbuf' buffer' = canonize cbuf buffer := by
  rw [← canonize_eq_removeRepeats] at fits ⊢
  have first := canonize_eq cbuf buffer (static ▸ fits)
  refine ⟨first, fun cbuf' buffer' static' given => ?_⟩
  have same : cString buffer' = Ircd.canonize (cString buffer) :=
    Option.some.inj (given.symm.trans first)
  have stable := canonize_canonize (cString buffer)
  have second := canonize_eq cbuf' buffer' (by rw [same, stable, static']; exact fits)
  rw [second, first, same, stable]

theorem canonize_removes_case :
    canonize (List.replicate 512 'x') (lit "#a,#b,,#A,#c") = some (lit "#a,#b,#c") := by
  have removed := canonize_removes (List.replicate 512 'x') (lit "#a,#b,,#A,#c")
    List.length_replicate
    (by decide +kernel)
  have text : [','].intercalate (removeRepeats [] (elements (cString (lit "#a,#b,,#A,#c")))) =
      lit "#a,#b,#c" := by decide +kernel
  rw [text] at removed
  exact removed.1

/-- An empty element goes too, and a list that does not fit is written past the buffer. -/
theorem empty_element_removed :
    canonize (List.replicate 512 'x') (lit "#a,,#b") ≠
        some ([','].intercalate (removeRepeats [] ((lit "#a,,#b").splitOn ','))) ∧
      canonize (List.replicate 512 'x') (List.replicate 512 'a') = none := by
  decide +kernel

end CMem

end Ircd
