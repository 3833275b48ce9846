import Ircd.Text.CString

/-! The tree of the commands of `parse.c`, built from the sorted message table.

A node stands for the letters on the way to it. It is final for a command when the rest of
its name is all that can follow there, or when the name ends at the node and longer ones go
on from it.
-/

set_option autoImplicit false

namespace Ircd

/-- An entry of `msgtab`, as far as it decides which handler gets what. -/
structure MessageEntry where
  cmd : CStr
  parameters : Nat
  allowUnregisteredUse : Bool
  /-- `func == m_list`. -/
  isList : Bool
  deriving DecidableEq, Repr

/-- `final` and `msg`; `msg` is only set when `final` is not NULL. -/
inductive FinalCase where
  | null
  /-- `(void *)1`. -/
  | one (msg : MessageEntry)
  | suffix (final : CStr) (msg : MessageEntry)

/-- `MESSAGE_TREE`, with the pointers by their letters. -/
inductive MessageTree where
  | null
  | node (final : FinalCase) (pointers : Char → MessageTree)

def alphabet : List Char := "ABCDEFGHIJKLMNOPQRSTUVWXYZ".toList

/-- `strncmp(mptr->cmd, prefix, lp)` is 0 for the entry that `mptr` is at, if it is at one. -/
def sharesPrefix (pre : CStr) (mptr : List MessageEntry) : Bool :=
  mptr.head?.any fun m => pre.isPrefixOf m.cmd

/-- The loop over the letters; `child` is the recursive call. -/
def letterLoop (child : CStr → List MessageEntry → Option (MessageTree × List MessageEntry))
    (pre : CStr) : List Char → (Char → MessageTree) → List MessageEntry →
      Option ((Char → MessageTree) × List MessageEntry)
  | [], pointers, mptr => some (pointers, mptr)
  | c :: letters, pointers, mptr =>
    match mptr with
    | [] => none
    | m :: _ =>
      if m.cmd[pre.length]? = some c then
        match child (pre ++ [c]) mptr with
        | none => none
        | some (mtree1, mptr) =>
          let pointers := Function.update pointers c mtree1
          -- The letters behind this one keep the NULL that they start with.
          if sharesPrefix pre mptr then letterLoop child pre letters pointers mptr
          else some (pointers, mptr)
      else letterLoop child pre letters pointers mptr

def msgNode (child : CStr → List MessageEntry → Option (MessageTree × List MessageEntry))
    (pre : CStr) : List MessageEntry → Option (MessageTree × List MessageEntry)
  | [] => none
  | m :: rest =>
    if pre.isPrefixOf m.cmd then
      if sharesPrefix pre rest then
        let equal := irccmp m.cmd pre == .eq
        let final := if equal then .one m else .null
        (letterLoop child pre alphabet (fun _ => .null) (if equal then rest else m :: rest)).map
          fun loop => (.node final loop.1, loop.2)
      else some (.node (.suffix (m.cmd.drop pre.length) m) fun _ => .null, rest)
    else none

/-- `do_msg_tree`, where `newpref` has `room` characters left for those of the prefix. It
has no result where it would write past the end of `newpref`, or ends the server. -/
def doMsgTree : Nat → CStr → List MessageEntry → Option (MessageTree × List MessageEntry)
  | 0 => msgNode fun _ _ => none
  | room + 1 => msgNode (doMsgTree room)

def newprefRoom : Nat := 63

/-- `mcmp(m1, m2) <= 0`, by which `qsort` puts the entries in order. -/
def mcmp (m1 m2 : MessageEntry) : Bool := decide (m1.cmd ≤ m2.cmd)

/-- `init_tree_parse`: an entry that is left ends the server. -/
def initTreeParse (table : List MessageEntry) : Option MessageTree :=
  match doMsgTree newprefRoom [] (table.mergeSort mcmp) with
  | some (msgTreeRoot, []) => some msgTreeRoot
  | _ => none

def clearBit5 (r : Char) : Char := Char.ofNat (r.toNat - r.toNat / 32 % 2 * 32)

def treeParse : MessageTree → CStr → Option MessageEntry
  | _, [] => none
  | .null, _ :: _ => none
  | .node _ pointers, c :: cmd =>
    let r := clearBit5 c
    if r < 'A' ∨ 'Z' < r then none
    else
      match pointers r with
      | .null => none
      | .node (.one msg) pointers =>
        if cmd = [] then some msg else treeParse (.node (.one msg) pointers) cmd
      | .node (.suffix final msg) pointers =>
        if irccmp final cmd = .eq then some msg
        else treeParse (.node (.suffix final msg) pointers) cmd
      | .node .null pointers => treeParse (.node .null pointers) cmd

def IsCapital (c : Char) : Prop := 0x41 ≤ c.toNat ∧ c.toNat ≤ 0x5a

theorem isCapital_iff (c : Char) : IsCapital c ↔ ¬ (c < 'A' ∨ 'Z' < c) := by
  rw [Char.lt_def, Char.lt_def, UInt32.lt_iff_toNat_lt, UInt32.lt_iff_toNat_lt, IsCapital]
  change _ ↔ ¬ (c.toNat < 65 ∨ 90 < c.toNat)
  omega

theorem toUpper_capital {c : Char} (capital : IsCapital c) : toUpper c = c := by
  obtain ⟨low, high⟩ := capital
  rw [toUpper, if_neg (by omega)]

theorem clearBit5_eq_iff {c d : Char} (capital : IsCapital d) :
    clearBit5 c = d ↔ toUpper c = d := by
  obtain ⟨low, high⟩ := capital
  rw [← Char.toNat_inj, ← Char.toNat_inj, toNat_toUpper]
  by_cases small : c.toNat < 0xd800
  · rw [clearBit5, toNat_ofNat (by omega)]
    split <;> omega
  · have large : (clearBit5 c).toNat = 0 ∨ 0xd7e0 ≤ (clearBit5 c).toNat := by
      rw [clearBit5]
      by_cases valid : (c.toNat - c.toNat / 32 % 2 * 32).isValidChar
      · right
        rw [Char.ofNat, dif_pos valid]
        change 0xd7e0 ≤ c.toNat - c.toNat / 32 % 2 * 32
        omega
      · left
        rw [Char.ofNat, dif_neg valid]
        rfl
    split <;> omega

theorem mem_alphabet {c : Char} : c ∈ alphabet ↔ IsCapital c := by
  have all : ∀ d ∈ alphabet, 0x41 ≤ d.toNat ∧ d.toNat ≤ 0x5a := by decide
  have each : ∀ n < 26, Char.ofNat (0x41 + n) ∈ alphabet := by decide
  constructor
  · exact all c
  · intro ⟨low, high⟩
    have inside := each (c.toNat - 0x41) (by omega)
    rwa [Nat.add_sub_cancel' low, Char.ofNat_toNat] at inside

theorem alphabet_ascending : alphabet.Pairwise (· < ·) := by decide

theorem irccmp_append_left (pre s t : CStr) :
    irccmp (pre ++ s) (pre ++ t) = .eq ↔ irccmp s t = .eq := by
  rw [irccmp_eq_iff, irccmp_eq_iff, List.map_append, List.map_append, List.append_cancel_left_eq]

theorem letter_eq {pre s cmd : CStr} {x e : Char} (letter : pre ++ [x] <+: s)
    (capital : IsCapital x) (wanted : IsCapital e) (same : irccmp s (pre ++ e :: cmd) = .eq) : x = e := by
  obtain ⟨rest, rfl⟩ := letter
  rw [List.append_assoc, irccmp_append_left, irccmp_eq_iff, List.singleton_append, List.map_cons,
    List.map_cons, toUpper_capital capital, toUpper_capital wanted] at same
  exact (List.cons.inj same).1

/-- Of two sorted names with one prefix the later one goes on with no smaller letter. -/
theorem letter_le {pre a b : CStr} {x y : Char} (first : pre ++ [x] <+: a)
    (second : pre ++ [y] <+: b) (sorted : a < b) : x ≤ y := by
  obtain ⟨s, rfl⟩ := first
  obtain ⟨t, rfl⟩ := second
  rw [List.append_assoc, List.append_assoc] at sorted
  by_contra greater
  have other : [y] ++ t < [x] ++ s := List.cons_lt_cons_iff.mpr (.inl (not_le.mp greater))
  exact lt_asymm sorted (List.append_left_lt other)

/-- The rest of `tree_parse` at a node that a letter has led to. -/
def MessageTree.enter : MessageTree → CStr → Option MessageEntry
  | .null, _ => none
  | .node (.one msg) pointers, cmd =>
    if cmd = [] then some msg else treeParse (.node (.one msg) pointers) cmd
  | .node (.suffix final msg) pointers, cmd =>
    if irccmp final cmd = .eq then some msg else treeParse (.node (.suffix final msg) pointers) cmd
  | .node .null pointers, cmd => treeParse (.node .null pointers) cmd

theorem treeParse_cons (final : FinalCase) (pointers : Char → MessageTree) (c : Char) (cmd : CStr) :
    treeParse (.node final pointers) (c :: cmd) =
      if clearBit5 c < 'A' ∨ 'Z' < clearBit5 c then none
      else (pointers (clearBit5 c)).enter cmd := by
  rw [treeParse]
  split
  · rfl
  · unfold MessageTree.enter
    cases pointers (clearBit5 c) with
    | null => rfl
    | node final pointers => cases final <;> rfl

def MessageTree.Serves (t : MessageTree) (pre : CStr) (group : List MessageEntry) : Prop :=
  ∀ cmd m, t.enter cmd = some m ↔ m ∈ group ∧ irccmp m.cmd (pre ++ cmd) = .eq

def Branches (pointers : Char → MessageTree) (pre : CStr) (letters : List Char)
    (group : List MessageEntry) : Prop :=
  ∀ c ∈ letters, ∀ cmd m,
    (pointers c).enter cmd = some m ↔ m ∈ group ∧ irccmp m.cmd (pre ++ c :: cmd) = .eq

def GoesOn (pre : CStr) (letters : List Char) (group : List MessageEntry) : Prop :=
  ∀ m ∈ group, ∃ c ∈ letters, pre ++ [c] <+: m.cmd

theorem Branches.treeParse_iff {pointers : Char → MessageTree} {pre : CStr}
    {group : List MessageEntry} (branches : Branches pointers pre alphabet group)
    (goesOn : GoesOn pre alphabet group) (final : FinalCase) (cmd : CStr) (m : MessageEntry) :
    treeParse (.node final pointers) cmd = some m ↔
      m ∈ group ∧ irccmp m.cmd (pre ++ cmd) = .eq := by
  cases cmd with
  | nil =>
    -- no command of the group ends here
    have ends : ¬ (m ∈ group ∧ irccmp m.cmd (pre ++ []) = .eq) := by
      intro ⟨inside, same⟩
      obtain ⟨c, -, more, named⟩ := goesOn m inside
      have lengths := irccmp_length same
      rw [← named] at lengths
      simp at lengths
    exact iff_of_false (Option.some_ne_none m).symm ends
  | cons c cmd =>
    rw [treeParse_cons]
    split
    · next outside =>
      have missed : ¬ (m ∈ group ∧ irccmp m.cmd (pre ++ c :: cmd) = .eq) := by
        intro ⟨inside, same⟩
        obtain ⟨d, letter, more, named⟩ := goesOn m inside
        have capital := mem_alphabet.mp letter
        rw [← named, List.append_assoc, irccmp_append_left, irccmp_eq_iff, List.singleton_append,
          List.map_cons, List.map_cons, toUpper_capital capital] at same
        -- clearing bit 5 gives a capital only from its own letter, of either case
        have masked := (clearBit5_eq_iff capital).mpr (List.cons.inj same).1.symm
        rw [masked] at outside
        exact (isCapital_iff d).mp capital outside
      exact iff_of_false (Option.some_ne_none m).symm missed
    · next within =>
      have capital := (isCapital_iff _).mpr within
      have upper : toUpper c = clearBit5 c := (clearBit5_eq_iff capital).mp rfl
      have same : irccmp m.cmd (pre ++ clearBit5 c :: cmd) = .eq ↔
          irccmp m.cmd (pre ++ c :: cmd) = .eq := by
        simp only [irccmp_eq_iff, List.map_append, List.map_cons, toUpper_capital capital, upper]
      rw [branches (clearBit5 c) (mem_alphabet.mpr capital), same]

/-- Entries that can be given a node: they begin with its letters, sorted by their names,
and no two agree in all the letters that `newpref` has room for. -/
structure Grouped (pre : CStr) (group : List MessageEntry) : Prop where
  starts : ∀ m ∈ group, pre <+: m.cmd
  sorted : group.Pairwise fun m1 m2 => m1.cmd < m2.cmd
  capital : ∀ m ∈ group, ∀ c ∈ m.cmd, IsCapital c
  roomy : group.Pairwise fun m1 m2 => m1.cmd.take newprefRoom ≠ m2.cmd.take newprefRoom

namespace Grouped

variable {pre : CStr} {group : List MessageEntry}

theorem sublist (h : Grouped pre group) {some_ : List MessageEntry} (sub : some_.Sublist group) :
    Grouped pre some_ where
  starts := fun m inside => h.starts m (sub.subset inside)
  sorted := h.sorted.sublist sub
  capital := fun m inside => h.capital m (sub.subset inside)
  roomy := h.roomy.sublist sub

theorem deeper (h : Grouped pre group) {c : Char} (more : ∀ m ∈ group, pre ++ [c] <+: m.cmd) :
    Grouped (pre ++ [c]) group where
  starts := more
  sorted := h.sorted
  capital := h.capital
  roomy := h.roomy

theorem letter_capital (h : Grouped pre group) {m : MessageEntry} (inside : m ∈ group) {c : Char}
    (letter : pre ++ [c] <+: m.cmd) : IsCapital c :=
  h.capital m inside c (letter.subset (List.mem_append_right pre (List.mem_singleton_self c)))

theorem goes_on_with (h : Grouped pre group) {m : MessageEntry} (inside : m ∈ group) {x e : Char}
    (letter : pre ++ [x] <+: m.cmd) (wanted : IsCapital e) {cmd : CStr}
    (same : irccmp m.cmd (pre ++ e :: cmd) = .eq) : x = e :=
  letter_eq letter (h.letter_capital inside letter) wanted same

end Grouped

theorem next_letter {pre s : CStr} {c d : Char} (letter : pre ++ [d] <+: s) :
    s[pre.length]? = some c ↔ d = c := by
  obtain ⟨rest, rfl⟩ := letter
  rw [List.append_assoc, List.getElem?_append_right (Nat.le_refl _), Nat.sub_self]
  exact Option.some_inj

theorem prefix_letter_eq {pre s : CStr} {c d : Char} (first : pre ++ [c] <+: s)
    (second : pre ++ [d] <+: s) : c = d :=
  (next_letter first).mp ((next_letter second).mpr rfl)

def ChildServes (child : CStr → List MessageEntry → Option (MessageTree × List MessageEntry))
    (pre : CStr) : Prop :=
  ∀ (c : Char) (group rest : List MessageEntry), Grouped (pre ++ [c]) group → group ≠ [] →
    sharesPrefix (pre ++ [c]) rest = false →
    ∃ t, child (pre ++ [c]) (group ++ rest) = some (t, rest) ∧ t.Serves (pre ++ [c]) group

theorem sharesPrefix_deeper {pre : CStr} {rest : List MessageEntry}
    (ends : sharesPrefix pre rest = false) (c : Char) : sharesPrefix (pre ++ [c]) rest = false := by
  cases rest with
  | nil => rfl
  | cons m rest =>
    simp only [sharesPrefix, List.head?_cons, Option.any_some] at ends ⊢
    by_contra more
    rw [Bool.not_eq_false, List.isPrefixOf_iff_prefix] at more
    have shorter : pre <+: m.cmd := (List.prefix_append pre [c]).trans more
    rw [List.isPrefixOf_iff_prefix.mpr shorter] at ends
    cases ends

theorem Grouped.split_first {pre : CStr} {group : List MessageEntry} (h : Grouped pre group)
    {c : Char} {letters : List Char} (least : ∀ d ∈ letters, c < d)
    (goesOn : GoesOn pre (c :: letters) group) :
    ∃ first later, group = first ++ later ∧ (∀ m ∈ first, pre ++ [c] <+: m.cmd) ∧
      GoesOn pre letters later := by
  induction group with
  | nil =>
    refine ⟨[], [], rfl, fun m inside => ?_, fun m inside => ?_⟩
    · cases inside
    · cases inside
  | cons m group ih =>
    obtain ⟨d, among, letter⟩ := goesOn m List.mem_cons_self
    have tailGoesOn : GoesOn pre (c :: letters) group :=
      fun k inside => goesOn k (List.mem_cons_of_mem m inside)
    cases List.mem_cons.mp among with
    | inl same =>
      subst same
      obtain ⟨first, later, rfl, firsts, laters⟩ :=
        ih (h.sublist (List.sublist_cons_self m group)) tailGoesOn
      refine ⟨m :: first, later, rfl, fun k inside => ?_, laters⟩
      cases List.mem_cons.mp inside with
      | inl same => exact same ▸ letter
      | inr deeper => exact firsts k deeper
    | inr greater =>
      -- From here on every entry comes behind `m` and has no smaller letter.
      refine ⟨[], m :: group, rfl, fun k inside => absurd inside List.not_mem_nil,
        fun k inside => ?_⟩
      cases List.mem_cons.mp inside with
      | inl same => exact same ▸ ⟨d, greater, letter⟩
      | inr behind =>
        obtain ⟨e, among, other⟩ := tailGoesOn k behind
        cases List.mem_cons.mp among with
        | inl same =>
          subst same
          have order := letter_le letter other ((List.pairwise_cons.mp h.sorted).1 k behind)
          exact absurd (least d greater) (not_lt.mpr order)
        | inr inside => exact ⟨e, inside, other⟩

theorem letterLoop_branches
    {child : CStr → List MessageEntry → Option (MessageTree × List MessageEntry)} {pre : CStr}
    (serves : ChildServes child pre) {letters : List Char} (ascending : letters.Pairwise (· < ·))
    (capitals : ∀ c ∈ letters, IsCapital c) {group rest : List MessageEntry}
    {pointers : Char → MessageTree} (h : Grouped pre group) (nonempty : group ≠ [])
    (goesOn : GoesOn pre letters group) (ends : sharesPrefix pre rest = false)
    (fresh : ∀ c ∈ letters, pointers c = .null) :
    ∃ pointers', letterLoop child pre letters pointers (group ++ rest) = some (pointers', rest) ∧
      (∀ c, c ∉ letters → pointers' c = pointers c) ∧ Branches pointers' pre letters group := by
  induction letters generalizing group pointers with
  | nil =>
    obtain ⟨m, inside⟩ := List.exists_mem_of_ne_nil group nonempty
    obtain ⟨c, none, -⟩ := goesOn m inside
    cases none
  | cons c letters ih =>
    obtain ⟨least, ascending⟩ := List.pairwise_cons.mp ascending
    have notLater : c ∉ letters := fun inside => lt_irrefl c (least c inside)
    have laterCapitals : ∀ d ∈ letters, IsCapital d :=
      fun d inside => capitals d (List.mem_cons_of_mem c inside)
    have laterFresh : ∀ d ∈ letters, pointers d = .null :=
      fun d inside => fresh d (List.mem_cons_of_mem c inside)
    obtain ⟨first, later, rfl, firsts, laters⟩ := h.split_first least goesOn
    have firstGroup := (h.sublist (List.sublist_append_left first later)).deeper firsts
    have laterGroup := h.sublist (List.sublist_append_right first later)
    -- A later entry is not found behind `c`, nor a first one behind a later letter.
    have apart : ∀ {m : MessageEntry} {cmd : CStr}, m ∈ later →
        ¬ irccmp m.cmd (pre ++ c :: cmd) = .eq := by
      intro m cmd inside same
      obtain ⟨d, among, letter⟩ := laters m inside
      have equal := laterGroup.goes_on_with inside letter (capitals c List.mem_cons_self) same
      exact notLater (equal ▸ among)
    have apart' : ∀ {m : MessageEntry} {e : Char} {cmd : CStr}, m ∈ first → e ∈ letters →
        ¬ irccmp m.cmd (pre ++ e :: cmd) = .eq := by
      intro m e cmd inside among same
      have equal := h.goes_on_with (List.mem_append_left later inside) (firsts m inside)
        (laterCapitals e among) same
      exact notLater (equal ▸ among)
    cases first with
    | nil =>
      cases later with
      | nil => exact absurd rfl nonempty
      | cons m later =>
        obtain ⟨d, among, letter⟩ := laters m List.mem_cons_self
        have other : ¬ m.cmd[pre.length]? = some c := by
          rw [next_letter letter]
          rintro rfl
          exact notLater among
        obtain ⟨pointers', built, kept, branches⟩ :=
          ih ascending laterCapitals laterGroup (List.cons_ne_nil m later) laters laterFresh
        refine ⟨pointers', ?_, fun d outside => ?_, fun d inside cmd k => ?_⟩
        · rw [List.nil_append, List.cons_append, letterLoop, if_neg other]
          exact built
        · exact kept d fun inside => outside (List.mem_cons_of_mem c inside)
        · cases List.mem_cons.mp inside with
          | inl same =>
            subst same
            rw [kept d notLater, fresh d List.mem_cons_self]
            exact iff_of_false (Option.some_ne_none k).symm fun found => apart found.1 found.2
          | inr behind => exact branches d behind cmd k
    | cons m first =>
      have letter : m.cmd[pre.length]? = some c :=
        (next_letter (firsts m List.mem_cons_self)).mpr rfl
      have nextEnds : sharesPrefix (pre ++ [c]) (later ++ rest) = false := by
        cases later with
        | nil => exact sharesPrefix_deeper ends c
        | cons n later =>
          obtain ⟨d, among, other⟩ := laters n List.mem_cons_self
          by_contra more
          simp only [sharesPrefix, List.cons_append, List.head?_cons, Option.any_some,
            Bool.not_eq_false, List.isPrefixOf_iff_prefix] at more
          exact notLater (prefix_letter_eq other more ▸ among)
      obtain ⟨t, child_eq, served⟩ :=
        serves c (m :: first) (later ++ rest) firstGroup (List.cons_ne_nil m first) nextEnds
      have atFirst : ∀ (cmd : CStr) (k : MessageEntry), t.enter cmd = some k ↔
          k ∈ (m :: first) ++ later ∧ irccmp k.cmd (pre ++ c :: cmd) = .eq := by
        intro cmd k
        rw [served cmd k, List.append_assoc, List.singleton_append, List.mem_append]
        constructor
        · exact fun found => ⟨.inl found.1, found.2⟩
        · exact fun found => ⟨found.1.resolve_right fun inside => apart inside found.2, found.2⟩
      cases later with
      | nil =>
        refine ⟨Function.update pointers c t, ?_, fun d outside => ?_, fun d inside cmd k => ?_⟩
        · rw [List.append_assoc, List.cons_append, letterLoop, if_pos letter, ← List.cons_append,
            child_eq]
          dsimp only
          rw [List.nil_append, ends]
          rfl
        · have other : d ≠ c := fun same => outside (same ▸ List.mem_cons_self)
          exact Function.update_of_ne other ..
        · by_cases same : d = c
          · subst same
            rw [Function.update_self]
            exact atFirst cmd k
          · have among : d ∈ letters := (List.mem_cons.mp inside).resolve_left same
            rw [Function.update_of_ne same, laterFresh d among, List.append_nil]
            exact iff_of_false (Option.some_ne_none k).symm fun found =>
              apart' found.1 among found.2
      | cons n later =>
        have shares : sharesPrefix pre (n :: later ++ rest) = true := by
          have starts := laterGroup.starts n List.mem_cons_self
          exact List.isPrefixOf_iff_prefix.mpr starts
        have updated : ∀ d ∈ letters, Function.update pointers c t d = .null := by
          intro d inside
          have other : d ≠ c := fun same => notLater (same ▸ inside)
          rw [Function.update_of_ne other, laterFresh d inside]
        obtain ⟨pointers', built, kept, branches⟩ :=
          ih ascending laterCapitals laterGroup (List.cons_ne_nil n later) laters updated
        refine ⟨pointers', ?_, fun d outside => ?_, fun d inside cmd k => ?_⟩
        · rw [List.append_assoc, List.cons_append, letterLoop, if_pos letter, ← List.cons_append,
            child_eq]
          dsimp only
          rw [if_pos shares]
          exact built
        · have other : d ≠ c := fun same => outside (same ▸ List.mem_cons_self)
          rw [kept d fun inside => outside (List.mem_cons_of_mem c inside),
            Function.update_of_ne other]
        · cases List.mem_cons.mp inside with
          | inl same =>
            subst same
            rw [kept d notLater, Function.update_self]
            exact atFirst cmd k
          | inr behind =>
            rw [branches d behind cmd k, List.mem_append]
            constructor
            · exact fun found => ⟨.inr found.1, found.2⟩
            · exact fun found =>
                ⟨found.1.resolve_left fun inside => apart' inside behind found.2, found.2⟩

theorem alphabet_branches
    {child : CStr → List MessageEntry → Option (MessageTree × List MessageEntry)} {pre : CStr}
    (serves : ChildServes child pre) {group rest : List MessageEntry} (h : Grouped pre group)
    (nonempty : group ≠ []) (goesOn : GoesOn pre alphabet group)
    (ends : sharesPrefix pre rest = false) :
    ∃ pointers, letterLoop child pre alphabet (fun _ => .null) (group ++ rest) =
        some (pointers, rest) ∧ Branches pointers pre alphabet group := by
  have fresh : ∀ c ∈ alphabet, (fun _ : Char => MessageTree.null) c = .null := fun _ _ => rfl
  obtain ⟨pointers, built, -, branches⟩ := letterLoop_branches serves alphabet_ascending
    (fun c inside => mem_alphabet.mp inside) h nonempty goesOn ends fresh
  exact ⟨pointers, built, branches⟩

theorem leaf_serves {pre : CStr} {m : MessageEntry} (starts : pre <+: m.cmd) :
    (MessageTree.node (.suffix (m.cmd.drop pre.length) m) fun _ => .null).Serves pre [m] := by
  obtain ⟨more, named⟩ := starts
  have dropped : m.cmd.drop pre.length = more := by rw [← named, List.drop_left]
  intro cmd k
  have dead : treeParse (.node (.suffix more m) fun _ => .null) cmd = none := by
    cases cmd with
    | nil => rfl
    | cons c cmd =>
      rw [treeParse_cons]
      split <;> rfl
  rw [dropped, MessageTree.enter, dead, List.mem_singleton]
  constructor
  · intro found
    split at found
    · next same =>
      obtain rfl := Option.some.inj found
      exact ⟨rfl, by rwa [← named, irccmp_append_left]⟩
    · cases found
  · rintro ⟨rfl, same⟩
    rw [← named, irccmp_append_left] at same
    rw [if_pos same]

theorem goesOn_alphabet {pre : CStr} {group : List MessageEntry} (h : Grouped pre group)
    (longer : ∀ m ∈ group, m.cmd ≠ pre) : GoesOn pre alphabet group := by
  intro m inside
  obtain ⟨more, named⟩ := h.starts m inside
  cases more with
  | nil => exact absurd (by rw [← named, List.append_nil]) (longer m inside)
  | cons c more =>
    have letter : pre ++ [c] <+: m.cmd := ⟨more, by rw [← named, List.append_assoc]; rfl⟩
    exact ⟨c, mem_alphabet.mpr (h.letter_capital inside letter), letter⟩

/-- A node that several entries share: with the entry that ends here, if there is one, taken
out, the others are found behind their letters. -/
theorem msgNode_serves
    {child : CStr → List MessageEntry → Option (MessageTree × List MessageEntry)} {pre : CStr}
    (serves : ChildServes child pre) {m n : MessageEntry} {group rest : List MessageEntry}
    (h : Grouped pre (m :: n :: group)) (ends : sharesPrefix pre rest = false) :
    ∃ final pointers,
      msgNode child pre (m :: n :: group ++ rest) = some (.node final pointers, rest) ∧
      (MessageTree.node final pointers).Serves pre (m :: n :: group) ∧
      (m.cmd ≠ pre → final = .null) := by
  have starts := List.isPrefixOf_iff_prefix.mpr (h.starts m List.mem_cons_self)
  have next : sharesPrefix pre (n :: group ++ rest) = true :=
    List.isPrefixOf_iff_prefix.mpr (h.starts n (List.mem_cons_of_mem m List.mem_cons_self))
  have tail := h.sublist (List.sublist_cons_self m (n :: group))
  have smaller : ∀ k ∈ n :: group, m.cmd < k.cmd := (List.pairwise_cons.mp h.sorted).1
  by_cases same : irccmp m.cmd pre = .eq
  · have exact_ : m.cmd = pre := by
      obtain ⟨more, named⟩ := h.starts m List.mem_cons_self
      have lengths := irccmp_length same
      rw [← named, List.length_append] at lengths
      have nothing : more = [] := List.length_eq_zero_iff.mp (by omega)
      rw [← named, nothing, List.append_nil]
    have longer : ∀ k ∈ n :: group, k.cmd ≠ pre := by
      intro k inside equal
      have order := smaller k inside
      rw [exact_, equal] at order
      exact lt_irrefl pre order
    have goesOn := goesOn_alphabet tail longer
    obtain ⟨pointers, built, branches⟩ :=
      alphabet_branches serves tail (List.cons_ne_nil n group) goesOn ends
    refine ⟨.one m, pointers, ?_, fun cmd k => ?_, fun other => absurd exact_ other⟩
    · rw [List.cons_append, msgNode, if_pos starts, if_pos next]
      simp only [same, beq_self_eq_true, if_true, built]
      rfl
    · rw [MessageTree.enter, List.mem_cons]
      cases cmd with
      | nil =>
        rw [if_pos rfl, List.append_nil]
        constructor
        · intro found
          obtain rfl := Option.some.inj found
          exact ⟨.inl rfl, same⟩
        · rintro ⟨rfl | inside, equal⟩
          · rfl
          · obtain ⟨c, -, letter⟩ := goesOn k inside
            have lengths := irccmp_length equal
            have more := letter.length_le
            rw [List.length_append, List.length_singleton] at more
            omega
      | cons c cmd =>
        rw [if_neg (List.cons_ne_nil c cmd), branches.treeParse_iff goesOn]
        have notThis : ¬ (k = m ∧ irccmp k.cmd (pre ++ c :: cmd) = .eq) := by
          rintro ⟨rfl, equal⟩
          have lengths := irccmp_length equal
          rw [exact_, List.length_append, List.length_cons] at lengths
          omega
        tauto
  · have longer : ∀ k ∈ m :: n :: group, k.cmd ≠ pre := by
      intro k inside equal
      cases List.mem_cons.mp inside with
      | inl first =>
        subst first
        exact same (equal ▸ irccmp_self _)
      | inr behind =>
        -- A longer name does not come before its own prefix.
        obtain ⟨more, named⟩ := h.starts m List.mem_cons_self
        have order := smaller k behind
        rw [equal, ← named] at order
        exact absurd order (List.not_lt.mpr List.le_append_left)
    have goesOn := goesOn_alphabet h longer
    obtain ⟨pointers, built, branches⟩ :=
      alphabet_branches serves h (List.cons_ne_nil m _) goesOn ends
    refine ⟨.null, pointers, ?_, fun cmd k => ?_, fun _ => rfl⟩
    · have differ : (irccmp m.cmd pre == .eq) = false := beq_eq_false_iff_ne.mpr same
      rw [List.cons_append, msgNode, if_pos starts, if_pos next]
      simp only [differ, Bool.false_eq_true, if_false]
      rw [← List.cons_append, built]
      rfl
    · exact branches.treeParse_iff goesOn .null cmd k

/-- `do_msg_tree` takes the entries of the prefix off the table and makes their node. -/
theorem doMsgTree_serves {room : Nat} {pre : CStr} (width : pre.length + room = newprefRoom)
    {group rest : List MessageEntry} (h : Grouped pre group) (nonempty : group ≠ [])
    (ends : sharesPrefix pre rest = false) :
    ∃ t, doMsgTree room pre (group ++ rest) = some (t, rest) ∧ t.Serves pre group := by
  induction room generalizing pre group rest with
  | zero =>
    cases group with
    | nil => exact absurd rfl nonempty
    | cons m group =>
      have starts := h.starts m List.mem_cons_self
      cases group with
      | nil =>
        refine ⟨_, ?_, leaf_serves starts⟩
        rw [doMsgTree, List.cons_append, msgNode, if_pos (List.isPrefixOf_iff_prefix.mpr starts)]
        simp only [List.nil_append, ends, Bool.false_eq_true, if_false]
      | cons n group =>
        -- Two names that both begin with all of `newpref`.
        have whole : ∀ {s : CStr}, pre <+: s → s.take newprefRoom = pre := by
          intro s begins
          rw [← width, Nat.add_zero]
          exact (List.prefix_iff_eq_take.mp begins).symm
        have agree := (whole starts).trans
          (whole (h.starts n (List.mem_cons_of_mem m List.mem_cons_self))).symm
        exact absurd agree ((List.pairwise_cons.mp h.roomy).1 n List.mem_cons_self)
  | succ room ih =>
    cases group with
    | nil => exact absurd rfl nonempty
    | cons m group =>
      have starts := h.starts m List.mem_cons_self
      cases group with
      | nil =>
        refine ⟨_, ?_, leaf_serves starts⟩
        rw [doMsgTree, List.cons_append, msgNode, if_pos (List.isPrefixOf_iff_prefix.mpr starts)]
        simp only [List.nil_append, ends, Bool.false_eq_true, if_false]
      | cons n group =>
        have serves : ChildServes (doMsgTree room) pre := by
          intro c group' rest' grouped some_ ends'
          apply ih _ grouped some_ ends'
          rw [List.length_append, List.length_singleton]
          omega
        obtain ⟨final, pointers, built, served, -⟩ := msgNode_serves serves h ends
        exact ⟨_, built, served⟩

structure MessageTable where
  entries : List MessageEntry
  two : 2 ≤ entries.length
  distinct : (entries.map MessageEntry.cmd).Nodup
  named : ∀ m ∈ entries, m.cmd ≠ []
  capital : ∀ m ∈ entries, ∀ c ∈ m.cmd, IsCapital c

namespace MessageTable

/-- No two names agree in all the letters that `newpref` has room for. -/
def Roomy (table : MessageTable) : Prop :=
  table.entries.Pairwise fun m1 m2 => m1.cmd.take newprefRoom ≠ m2.cmd.take newprefRoom

instance (table : MessageTable) : Decidable table.Roomy :=
  inferInstanceAs (Decidable (List.Pairwise _ _))

theorem grouped {table : MessageTable} (roomy : table.Roomy) :
    Grouped [] (table.entries.mergeSort mcmp) := by
  have perm := List.mergeSort_perm table.entries mcmp
  have trans_ : ∀ a b c : MessageEntry, mcmp a b = true → mcmp b c = true → mcmp a c = true := by
    intro a b c first second
    exact decide_eq_true ((of_decide_eq_true first).trans (of_decide_eq_true second))
  have total : ∀ a b : MessageEntry, (mcmp a b || mcmp b a) = true := by
    intro a b
    rw [Bool.or_eq_true]
    exact (le_total a.cmd b.cmd).imp decide_eq_true decide_eq_true
  have distinct : (table.entries.mergeSort mcmp).Pairwise fun m1 m2 => m1.cmd ≠ m2.cmd :=
    List.pairwise_map.mp ((perm.map MessageEntry.cmd).nodup_iff.mpr table.distinct)
  have ordered := (List.pairwise_mergeSort trans_ total table.entries).and distinct
  exact {
    starts := fun m _ => List.nil_prefix
    sorted := ordered.imp fun both => lt_of_le_of_ne (of_decide_eq_true both.1) both.2
    capital := fun m inside => table.capital m (perm.subset inside)
    roomy := (perm.pairwise_iff fun apart => apart.symm).mpr roomy }

/-- `tree_parse` finds each command by its name, whatever the case, and nothing else. -/
theorem treeParse_exact (table : MessageTable) (roomy : table.Roomy) :
    ∃ msgTreeRoot, initTreeParse table.entries = some msgTreeRoot ∧
      ∀ (cmd : CStr) (m : MessageEntry), treeParse msgTreeRoot cmd = some m ↔
        m ∈ table.entries ∧ irccmp m.cmd cmd = .eq := by
  have perm := List.mergeSort_perm table.entries mcmp
  have group := grouped roomy
  have long : 2 ≤ (table.entries.mergeSort mcmp).length := perm.length_eq ▸ table.two
  have inTable : ∀ m : MessageEntry, m ∈ table.entries.mergeSort mcmp ↔ m ∈ table.entries :=
    fun m => perm.mem_iff
  unfold initTreeParse
  generalize table.entries.mergeSort mcmp = sorted at group long inTable
  match sorted, long with
  | m :: n :: rest, _ =>
    have serves : ChildServes (doMsgTree 62) [] := fun c group' rest' grouped some_ ends' =>
      doMsgTree_serves rfl grouped some_ ends'
    have ends : sharesPrefix [] [] = false := rfl
    obtain ⟨final, pointers, built, served, null⟩ := msgNode_serves serves group ends
    have nonempty : m.cmd ≠ [] := table.named m ((inTable m).mp List.mem_cons_self)
    rw [List.append_nil] at built
    have root : doMsgTree newprefRoom [] (m :: n :: rest) = some (.node final pointers, []) := built
    rw [root]
    refine ⟨.node final pointers, rfl, fun cmd k => ?_⟩
    rw [← inTable k, null nonempty]
    have answers := served cmd k
    rwa [null nonempty, MessageTree.enter, List.nil_append] at answers

def namedEntry (cmd : CStr) : MessageEntry :=
  { cmd := cmd, parameters := 15, allowUnregisteredUse := false, isList := false }

def operTable : MessageTable where
  entries := [namedEntry (lit "OPERWALL"), namedEntry (lit "NICK"), namedEntry (lit "OPER")]
  two := by decide
  distinct := by decide
  named := by decide
  capital := by unfold IsCapital; decide

theorem treeParse_exact_operTable :
    ∃ msgTreeRoot, initTreeParse operTable.entries = some msgTreeRoot ∧
      treeParse msgTreeRoot (lit "oper") = some (namedEntry (lit "OPER")) ∧
      treeParse msgTreeRoot (lit "OperWall") = some (namedEntry (lit "OPERWALL")) ∧
      treeParse msgTreeRoot (lit "OPERW") = none := by
  obtain ⟨msgTreeRoot, built, found⟩ := operTable.treeParse_exact (by decide)
  refine ⟨msgTreeRoot, built, (found _ _).mpr (by decide), (found _ _).mpr (by decide), ?_⟩
  rw [Option.eq_none_iff_forall_ne_some]
  intro m hit
  obtain ⟨inside, same⟩ := (found _ _).mp hit
  have differ : ∀ m ∈ operTable.entries, irccmp m.cmd (lit "OPERW") ≠ .eq := by decide
  exact differ m inside same

def longTable : MessageTable where
  entries := [namedEntry (List.replicate 63 'A' ++ lit "A"),
    namedEntry (List.replicate 63 'A' ++ lit "B")]
  two := by decide
  distinct := by decide
  named := by decide
  capital := by unfold IsCapital; decide

theorem longTable_overflows : initTreeParse longTable.entries = none := by
  have sorted : longTable.entries.mergeSort mcmp = longTable.entries :=
    List.mergeSort_of_pairwise (by decide +kernel)
  rw [initTreeParse, sorted]
  decide +kernel

end MessageTable

end Ircd
