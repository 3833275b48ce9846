import Ircd.Conf.HostMask

/-! Soundness of the trie: what `find_matching_mtrie_conf` returns was put in and matches.

An entry is sound where the pieces down to it are those of its own mask. The loop that
looks for a place for an entry can leave it on a sibling of another name, and the list that
is searched for wildcards has the pieces that begin with `j` as well.
-/

set_option autoImplicit false

namespace Ircd

def ConfItem.line (a : ConfItem) : ConfItem := { a with client := false, kill := false }

@[simp] theorem line_mark (a : ConfItem) (flags : ConfKind) : (a.mark flags).line = a.line := by
  cases flags with
  | client => rfl
  | kill => rfl

@[simp] theorem host_mark (a : ConfItem) (flags : ConfKind) : (a.mark flags).host = a.host := by
  cases flags with
  | client => rfl
  | kill => rfl

@[simp] theorem user_mark (a : ConfItem) (flags : ConfKind) : (a.mark flags).user = a.user := by
  cases flags with
  | client => rfl
  | kill => rfl

structure Seated (lines : List ConfItem) (path : List CStr) (a : ConfItem) : Prop where
  known : a.line ∈ lines
  path : ∃ pieces, sortable a.host = .stacked pieces ∧ SamePieces pieces path

inductive TrieSound (lines : List ConfItem) : List CStr → DomainLevel → Prop where
  | intro {path : List CStr} {level : DomainLevel}
    (conf : ∀ p ∈ level, ∀ a, p.data.conf = some a → Seated lines (path ++ [p.hostPiece]) a)
    (wild : ∀ p ∈ level, ∀ a, p.data.wildConf = some a →
      Seated lines (path ++ [p.hostPiece]) a ∧ a.user = lit "*")
    (below : ∀ p ∈ level, TrieSound lines (path ++ [p.hostPiece]) p.nextLevel) :
    TrieSound lines path level

structure PieceSound (lines : List ConfItem) (path : List CStr) (p : DomainPiece) : Prop where
  conf : ∀ a, p.data.conf = some a → Seated lines (path ++ [p.hostPiece]) a
  wild : ∀ a, p.data.wildConf = some a → Seated lines (path ++ [p.hostPiece]) a ∧ a.user = lit "*"
  below : TrieSound lines (path ++ [p.hostPiece]) p.nextLevel

section
variable {lines : List ConfItem} {path : List CStr} {level : DomainLevel}

theorem trieSound_iff : TrieSound lines path level ↔ ∀ p ∈ level, PieceSound lines path p := by
  constructor
  · rintro ⟨conf, wild, below⟩ p inside
    exact ⟨conf p inside, wild p inside, below p inside⟩
  · intro h
    exact ⟨fun p inside => (h p inside).conf, fun p inside => (h p inside).wild,
      fun p inside => (h p inside).below⟩

theorem trieSound_nil : TrieSound lines path [] :=
  trieSound_iff.2 fun _ inside => absurd inside List.not_mem_nil

theorem Seated.mono {lines' : List ConfItem} {a : ConfItem} (h : Seated lines path a)
    (more : ∀ l ∈ lines, l ∈ lines') : Seated lines' path a := ⟨more _ h.known, h.path⟩

theorem TrieSound.mono {lines' : List ConfItem} (h : TrieSound lines path level)
    (more : ∀ l ∈ lines, l ∈ lines') : TrieSound lines' path level := by
  induction h with
  | intro conf wild below ih =>
    exact ⟨fun p inside a has => (conf p inside a has).mono more,
      fun p inside a has => ⟨(wild p inside a has).1.mono more, (wild p inside a has).2⟩, ih⟩

theorem Seated.of_same {a b : ConfItem} (h : Seated lines path a) (line : b.line = a.line)
    (host : b.host = a.host) : Seated lines path b := ⟨line ▸ h.known, host ▸ h.path⟩

theorem PieceSound.setConf {p : DomainPiece} (h : PieceSound lines path p) {a : ConfItem}
    (seated : Seated lines (path ++ [p.hostPiece]) a) : PieceSound lines path (p.setConf a) where
  conf := by
    intro b has
    cases has
    exact seated
  wild := h.wild
  below := h.below

theorem PieceSound.setWildConf {p : DomainPiece} (h : PieceSound lines path p) {a : ConfItem}
    (seated : Seated lines (path ++ [p.hostPiece]) a) (any : a.user = lit "*") :
    PieceSound lines path (p.setWildConf a) where
  conf := h.conf
  wild := by
    intro b has
    cases has
    exact ⟨seated, any⟩
  below := h.below

theorem PieceSound.mark {p : DomainPiece} (h : PieceSound lines path p) (flags : ConfKind) :
    PieceSound lines path (p.mark flags) := by
  cases flags with
  | client => exact ⟨h.conf, h.wild, h.below⟩
  | kill => exact ⟨h.conf, h.wild, h.below⟩

theorem PieceSound.clearKill {p : DomainPiece} (h : PieceSound lines path p) :
    PieceSound lines path p.clearKill := ⟨h.conf, h.wild, h.below⟩

theorem pieceSound_blank (hostPiece : CStr) : PieceSound lines path (DomainPiece.blank hostPiece) where
  conf := by
    intro a has
    cases has
  wild := by
    intro a has
    cases has
  below := trieSound_nil

end

section
variable {α : Type} {q : α → Bool}

theorem mem_modifyFirst {f : α → α} {l : List α} {x : α} (inside : x ∈ modifyFirst q f l) :
    x ∈ l ∨ ∃ a, l.find? q = some a ∧ x = f a := by
  induction l with
  | nil => cases inside
  | cons a rest ih =>
    simp only [modifyFirst] at inside
    cases here : q a with
    | true =>
      rw [here, if_pos rfl] at inside
      rcases List.mem_cons.1 inside with new | old
      · exact Or.inr ⟨a, List.find?_cons_of_pos here, new⟩
      · exact Or.inl (List.mem_cons_of_mem _ old)
    | false =>
      rw [here, if_neg (by decide)] at inside
      have notHere : ¬ q a = true := by simp [here]
      rcases List.mem_cons.1 inside with same | later
      · exact Or.inl (same ▸ List.mem_cons_self)
      · rcases ih later with old | ⟨b, found, new⟩
        · exact Or.inl (List.mem_cons_of_mem _ old)
        · exact Or.inr ⟨b, by rw [List.find?_cons_of_neg notHere, found], new⟩

theorem mem_modifyFrom {f : List α → List α} {l : List α} {x : α} (inside : x ∈ modifyFrom q f l) :
    x ∈ l ∨ x ∈ f (l.dropWhile fun a => !q a) := by
  induction l with
  | nil => cases inside
  | cons a rest ih =>
    simp only [modifyFrom] at inside
    cases here : q a with
    | true =>
      rw [here, if_pos rfl] at inside
      rw [List.dropWhile_cons_of_neg (by simp [here])]
      exact Or.inr inside
    | false =>
      rw [here, if_neg (by decide)] at inside
      rw [List.dropWhile_cons_of_pos (by simp [here])]
      rcases List.mem_cons.1 inside with same | later
      · exact Or.inl (same ▸ List.mem_cons_self)
      · rcases ih later with old | new
        · exact Or.inl (List.mem_cons_of_mem _ old)
        · exact Or.inr new

end

/-- The sibling that the loop of `find_or_add_user_piece` gives the new entry to: one that
has none, or whose I-line goes for a K-line of the same user. -/
def seat (flags : ConfKind) (aconf : ConfItem) (hostPiece : CStr) : List DomainPiece → Option DomainPiece
  | [] => none
  | ptr :: rest =>
    if !sameList ptr hostPiece then seat flags aconf hostPiece rest
    else
      match ptr.data.conf with
      | none => some ptr
      | some found =>
        if matchMask ptr.hostPiece hostPiece && irccmp found.user aconf.user == .eq then
          if found.client && !found.eLined && flags == .kill then some ptr else none
        else seat flags aconf hostPiece rest

def OwnSeat (flags : ConfKind) (aconf : ConfItem) (hostPiece : CStr) (list : List DomainPiece) : Prop :=
  ∀ ptr, seat flags aconf hostPiece list = some ptr → irccmp ptr.hostPiece hostPiece = .eq

/-- The condition on an entry for the trie: where it comes to its own piece, and is not the
`*@` entry of a literal one, it keeps to its own name. -/
def FitsTrie (flags : ConfKind) (aconf : ConfItem) : List CStr → DomainLevel → Prop
  | [], _ => True
  | piece :: rest, level =>
    let level := findOrAddHostPiece level flags piece
    if rest = [] then
      aconf.user = lit "*" ∧ piece.head? ≠ some '*' ∨
        OwnSeat flags aconf piece (level.dropWhile fun p => !isPiece piece p)
    else ∀ p, level.find? (isPiece piece) = some p → FitsTrie flags aconf rest p.nextLevel

section
variable {lines : List ConfItem} {path : List CStr} {flags : ConfKind} {aconf : ConfItem}

theorem Seated.at_piece {piece : CStr} {p : DomainPiece} {rest : List CStr}
    (seated : Seated lines (path ++ piece :: rest) aconf) (same : irccmp p.hostPiece piece = .eq) :
    Seated lines ((path ++ [p.hostPiece]) ++ rest) aconf := by
  obtain ⟨pieces, sorted, spelt⟩ := seated.path
  refine ⟨seated.known, pieces, sorted, ?_⟩
  have swapped : SamePieces (path ++ ([piece] ++ rest)) (path ++ ([p.hostPiece] ++ rest)) :=
    (samePieces_refl path).append
      ((samePieces_singleton (irccmp_comm same)).append (samePieces_refl rest))
  rw [List.append_assoc]
  exact spelt.trans swapped

theorem trieSound_findOrAddHostPiece {level : DomainLevel} (h : TrieSound lines path level)
    (piece : CStr) : TrieSound lines path (findOrAddHostPiece level flags piece) := by
  rw [trieSound_iff] at h ⊢
  intro p inside
  unfold findOrAddHostPiece at inside
  split at inside
  · rcases mem_modifyFirst inside with old | ⟨a, found, new⟩
    · exact h p old
    · rw [new]
      exact (h a (List.mem_of_find?_eq_some found)).mark flags
  · rcases List.mem_append.1 inside with old | new
    · exact h p old
    · rw [List.mem_singleton.1 new]
      exact (pieceSound_blank piece).mark flags

theorem seated_meetFound {found : ConfItem} {here : List CStr} (old : Seated lines here found)
    (new : found.client = true → found.eLined = false → flags = .kill → Seated lines here aconf) :
    Seated lines here (meetFound flags aconf found).1 := by
  have cleared : ∀ k, Seated lines here { found.mark k with kill := false } := fun k =>
    old.of_same (line_mark found k) (host_mark found k)
  have marked : ∀ k, Seated lines here (found.mark k) := fun k =>
    old.of_same (line_mark found k) (host_mark found k)
  -- the exempt entry stays; a second K-line takes the seat of a plain I-line only
  cases exempt : found.eLined with
  | true =>
    cases flags with
    | client =>
      have result : (meetFound .client aconf found).1 = { found.mark .client with kill := false } := by
        simp [meetFound, ConfItem.mark, exempt]
      rw [result]
      exact cleared .client
    | kill =>
      have result : (meetFound .kill aconf found).1 = { found.mark .kill with kill := false } := by
        simp [meetFound, ConfItem.mark, exempt]
      rw [result]
      exact cleared .kill
  | false =>
    cases flags with
    | client =>
      have result : (meetFound .client aconf found).1 = found.mark .client := by
        simp [meetFound, ConfItem.mark, exempt]
      rw [result]
      exact marked .client
    | kill =>
      cases client : found.client with
      | true =>
        have result : (meetFound .kill aconf found).1 = aconf := by
          simp [meetFound, ConfItem.mark, exempt, client]
        rw [result]
        exact new client exempt rfl
      | false =>
        have result : (meetFound .kill aconf found).1 = found.mark .kill := by
          simp [meetFound, ConfItem.mark, exempt, client]
        rw [result]
        exact marked .kill

theorem pieceSound_seatUser {hostPiece : CStr} {list : List DomainPiece}
    (h : ∀ p ∈ list, PieceSound lines path p)
    (seated : Seated lines (path ++ [hostPiece]) aconf)
    (own : OwnSeat flags aconf hostPiece list) :
    ∀ p ∈ (seatUser flags aconf hostPiece list).1, PieceSound lines path p := by
  have there : ∀ ptr : DomainPiece, irccmp ptr.hostPiece hostPiece = .eq →
      Seated lines (path ++ [ptr.hostPiece]) aconf := by
    intro ptr same
    have moved : Seated lines (path ++ [ptr.hostPiece] ++ []) aconf := seated.at_piece same
    rwa [List.append_nil] at moved
  induction list with
  | nil =>
    intro p inside
    rw [List.mem_singleton.1 inside]
    exact (pieceSound_blank hostPiece).setConf seated
  | cons ptr rest ih =>
    have first := h ptr List.mem_cons_self
    have others : ∀ p ∈ rest, PieceSound lines path p := fun p inside =>
      h p (List.mem_cons_of_mem _ inside)
    simp only [seatUser]
    by_cases away : (!sameList ptr hostPiece) = true
    · rw [if_pos away]
      have own' : OwnSeat flags aconf hostPiece rest := by
        intro p found
        apply own
        rw [seat, if_pos away, found]
      intro p inside
      rcases List.mem_cons.1 inside with same | later
      · exact same ▸ first
      · exact ih others own' p later
    -- the piece has the host of the new entry: it is taken, shared or passed over
    · rw [if_neg away]
      cases held : ptr.data.conf with
      | none =>
        have mine := there ptr (own ptr (by rw [seat, if_neg away, held]))
        intro p inside
        rcases List.mem_cons.1 inside with same | later
        · rw [same]
          exact first.setConf (mine.of_same (line_mark aconf flags) (host_mark aconf flags))
        · exact others p later
      | some found =>
        -- an entry for the same user is joined with the new one; any other sends it on
        by_cases met : (matchMask ptr.hostPiece hostPiece && irccmp found.user aconf.user == .eq) = true
        · simp only [met, if_true]
          intro p inside
          rcases List.mem_cons.1 inside with same | later
          · rw [same]
            apply first.setConf
            apply seated_meetFound (first.conf found held)
            intro client plain kill
            apply there
            apply own
            rw [seat, if_neg away, held]
            simp [met, client, plain, kill]
          · exact others p later
        · simp only [met, if_false, Bool.false_eq_true]
          have own' : OwnSeat flags aconf hostPiece rest := by
            intro p found'
            apply own
            rw [seat, if_neg away, held]
            simp only [met, if_false, Bool.false_eq_true]
            exact found'
          intro p inside
          rcases List.mem_cons.1 inside with same | later
          · exact same ▸ first
          · exact ih others own' p later

theorem pieceSound_seatWild {p : DomainPiece} (h : PieceSound lines path p)
    (seated : Seated lines (path ++ [p.hostPiece]) aconf) (any : aconf.user = lit "*") :
    PieceSound lines path (seatWild flags aconf p) := by
  unfold seatWild
  cases held : p.data.wildConf with
  | none =>
    apply PieceSound.mark
    apply h.setWildConf (seated.of_same (line_mark aconf flags) (host_mark aconf flags))
    rw [user_mark, any]
  | some found =>
    obtain ⟨there, all⟩ := h.wild found held
    simp only
    split
    · have cleared : Seated lines (path ++ [p.hostPiece]) { found.mark flags with kill := false } :=
        there.of_same (line_mark found flags) (host_mark found flags)
      apply PieceSound.clearKill
      apply PieceSound.mark
      apply h.setWildConf cleared
      rw [← all, ← user_mark found flags]
    · cases flags with
      | client =>
        apply PieceSound.mark
        apply h.setWildConf (there.of_same (line_mark found .client) (host_mark found .client))
        rw [user_mark, all]
      | kill =>
        apply PieceSound.mark
        exact h.setWildConf seated any

theorem pieceSound_findOrAddUserPiece {hostPiece : CStr} {list : List DomainPiece}
    (h : ∀ p ∈ list, PieceSound lines path p) (seated : Seated lines (path ++ [hostPiece]) aconf)
    (head : ∀ p, list.head? = some p → irccmp p.hostPiece hostPiece = .eq)
    (own : aconf.user = lit "*" ∧ hostPiece.head? ≠ some '*' ∨ OwnSeat flags aconf hostPiece list) :
    ∀ p ∈ findOrAddUserPiece flags aconf hostPiece list, PieceSound lines path p := by
  cases list with
  | nil =>
    intro p inside
    cases inside
  | cons piece later =>
    simp only [findOrAddUserPiece]
    by_cases wild : aconf.user = lit "*" ∧ hostPiece.head? ≠ some '*'
    · rw [if_pos wild]
      have moved : Seated lines (path ++ [piece.hostPiece] ++ []) aconf :=
        seated.at_piece (head piece rfl)
      rw [List.append_nil] at moved
      intro p inside
      rcases List.mem_cons.1 inside with first | rest
      · rw [first]
        exact pieceSound_seatWild (h piece List.mem_cons_self) moved wild.1
      · exact h p (List.mem_cons_of_mem _ rest)
    · rw [if_neg wild]
      have all := pieceSound_seatUser h seated (own.resolve_left wild)
      split
      next first siblings seats =>
        rw [seats] at all
        intro p inside
        rcases List.mem_cons.1 inside with same | rest
        · rw [same]
          exact (all first List.mem_cons_self).clearKill
        · exact all p (List.mem_cons_of_mem _ rest)
      next siblings clear _ seats =>
        rw [seats] at all
        exact all

theorem trieSound_createSubMtrie {stack : List CStr} {level : DomainLevel}
    (h : TrieSound lines path level) (seated : Seated lines (path ++ stack) aconf)
    (fits : FitsTrie flags aconf stack level) :
    TrieSound lines path (createSubMtrie flags aconf stack level) := by
  induction stack generalizing path level with
  | nil => exact h
  | cons piece rest ih =>
    have h' : TrieSound lines path (findOrAddHostPiece level flags piece) :=
      trieSound_findOrAddHostPiece h piece
    simp only [FitsTrie] at fits
    simp only [createSubMtrie]
    generalize findOrAddHostPiece level flags piece = level' at h' fits
    have sound := trieSound_iff.1 h'
    -- the last piece takes the entry; another piece leads one level down
    by_cases last : rest = []
    · rw [if_pos last] at fits ⊢
      subst last
      apply trieSound_iff.2
      intro p inside
      rcases mem_modifyFrom inside with old | new
      · exact sound p old
      · refine pieceSound_findOrAddUserPiece ?_ seated ?_ fits p new
        · intro q within
          exact sound q (List.dropWhile_sublist _ |>.subset within)
        · intro q first
          have named := List.head?_dropWhile_not (fun p => !isPiece piece p) level'
          rw [first] at named
          simp only [isPiece, Bool.not_eq_false', Bool.and_eq_true, beq_iff_eq] at named
          exact named.2
    · rw [if_neg last] at fits ⊢
      apply trieSound_iff.2
      intro p inside
      rcases mem_modifyFirst inside with old | ⟨q, found, new⟩
      · exact sound p old
      · have within := sound q (List.mem_of_find?_eq_some found)
        have named := List.find?_some found
        simp only [isPiece, Bool.and_eq_true, beq_iff_eq] at named
        rw [new]
        refine ⟨within.conf, within.wild, ?_⟩
        exact ih within.below (seated.at_piece named.2) (fits q found)

end

/-- A mask that begins like `*` in the index of a level without a wildcard, for a domain that
the host lies below. -/
def Shadowed (mask host : CStr) : Prop :=
  pindex mask = pindex (lit "*") ∧ mask.head? ≠ some '*' ∧
    ∃ pieces more, sortable mask = .stacked pieces ∧ more ≠ [] ∧
      SamePieces (tokenizeAndStack host) (pieces ++ more)

structure Good (lines : List ConfItem) (host user : CStr) (a : ConfItem) : Prop where
  known : a.line ∈ lines
  user : Glob a.user user
  host : Glob a.host host

theorem pindex_eq {p q : CStr} (same : p.map toLower = q.map toLower) : pindex p = pindex q := by
  cases p with
  | nil =>
    cases q with
    | nil => rfl
    | cons d q => cases same
  | cons c p =>
    cases q with
    | nil => cases same
    | cons d q =>
      have code := congrArg Char.toNat (List.cons.inj same).1
      rw [toNat_toLower, toNat_toLower] at code
      unfold pindex
      simp only [List.headD_cons]
      split at code
      · split at code
        · omega
        · omega
      · split at code
        · omega
        · omega

theorem head_eq_star {p q : CStr} (same : p.map toLower = q.map toLower) (star : p.head? = some '*') :
    q.head? = some '*' := by
  cases p with
  | nil => cases star
  | cons c p =>
    cases star
    cases q with
    | nil => cases same
    | cons d q =>
      have low := (List.cons.inj same).1
      rw [Glob.toLower_star.1 low.symm]
      rfl

theorem literal_of_same {p q : CStr} (same : p.map toLower = q.map toLower)
    (plain : ∀ c ∈ p, c ≠ '*' ∧ c ≠ '?') : ∀ c ∈ q, c ≠ '*' ∧ c ≠ '?' := by
  intro c inside
  have low : toLower c ∈ p.map toLower := same ▸ List.mem_map_of_mem inside
  obtain ⟨d, within, equal⟩ := List.mem_map.1 low
  obtain ⟨noStar, noQuestion⟩ := plain d within
  constructor
  · rintro rfl
    exact noStar (Glob.toLower_star.1 equal)
  · rintro rfl
    exact noQuestion (Glob.toLower_question.1 equal)

section
variable {lines : List ConfItem} {host user : CStr}

/-- An entry on a piece that matches the host's piece matches the host, where the host ends
there or the piece is in the list of the wildcards. -/
theorem glob_of_seated {path path' more : List CStr} {hostPiece t : CStr} {a : ConfItem}
    (seated : Seated lines (path ++ [hostPiece]) a)
    (hostIs : tokenizeAndStack host = path' ++ t :: more) (same : SamePieces path path')
    (matched : Glob hostPiece t)
    (rest : more = [] ∨ pindex hostPiece = pindex (lit "*") ∧ ¬ Shadowed a.host host) :
    Glob a.host host := by
  obtain ⟨pieces, sorted, spelt⟩ := seated.path
  have nonempty : a.host ≠ [] := by
    intro empty
    rw [empty] at sorted
    cases sorted
    have lengths := congrArg List.length spelt
    simp at lengths
  obtain ⟨whole, noQuestion, noStar, path₀, piece₀, rfl, head⟩ := sortable_stacked nonempty sorted
  have maskIs : a.host.map toLower = (unstack (path ++ [hostPiece])).map toLower := by
    rw [← whole]
    exact unstack_same spelt
  have hostIs' : host = unstack (path' ++ t :: more) := by
    rw [← hostIs, unstack_tokenizeAndStack]
  apply glob_of_pieces maskIs hostIs' same matched
  by_cases star : hostPiece.head? = some '*'
  · exact Or.inr star
  · refine Or.inl ?_
    by_contra longer
    obtain ⟨listed, unshadowed⟩ := rest.resolve_left longer
    apply unshadowed
    -- the piece is a literal one that begins like a wildcard
    rw [SamePieces, List.map_append, List.map_append] at spelt
    obtain ⟨paths, last⟩ := List.append_inj' spelt rfl
    have last' : piece₀.map toLower = hostPiece.map toLower := (List.cons.inj last).1
    have indexed : pindex a.host = pindex piece₀ := by
      unfold pindex
      rw [List.headD_eq_head?_getD, List.headD_eq_head?_getD, head]
    have noStarHead : a.host.head? ≠ some '*' := fun begins =>
      star (head_eq_star last' (head.trans begins))
    have literal : ∀ c ∈ piece₀, c ≠ '*' ∧ c ≠ '?' := by
      intro c inside
      have within : c ∈ a.host := by
        rw [← whole, unstack_append (by simp)]
        exact List.mem_append_left _ inside
      constructor
      · rintro rfl
        cases mask : a.host with
        | nil => exact nonempty mask
        | cons d tail =>
          rw [mask] at within noStarHead noStar
          rcases List.mem_cons.1 within with first | later
          · exact noStarHead (first ▸ rfl)
          · exact noStar later
      · rintro rfl
        exact noQuestion within
    have exact' := Glob.map_toLower_of_literal matched (literal_of_same last' literal)
    refine ⟨indexed.trans ((pindex_eq last').trans listed), noStarHead, path₀ ++ [piece₀], more, sorted,
      longer, ?_⟩
    rw [hostIs, ← List.append_cons]
    have paths' : SamePieces path' path₀ := same.symm.trans paths.symm
    apply paths'.append
    have one : SamePieces [t] [piece₀] := by
      rw [SamePieces, List.map_singleton, List.map_singleton, last', exact']
    exact one.append (samePieces_refl more)

theorem scanWild_mem {flags : ConfKind} {hostPiece : CStr} {list : List DomainPiece} {a : ConfItem}
    (found : scanWild flags hostPiece user list = some a) :
    ∃ p ∈ list, matchMask p.hostPiece hostPiece = true ∧
      (p.data.conf = some a ∧ matchMask a.user user = true ∨ p.data.wildConf = some a) := by
  unfold scanWild at found
  split at found
  next wild last =>
    cases found
    obtain ⟨p, inside, hit⟩ := List.mem_filterMap.1 (List.mem_of_getLast? last)
    obtain ⟨held, fits⟩ := Option.filter_eq_some_iff.1 hit
    rw [Bool.and_eq_true] at fits
    exact ⟨p, inside, fits.2, Or.inr held⟩
  · obtain ⟨p, inside, hit⟩ := List.mem_filterMap.1 (List.mem_of_getLast? found)
    obtain ⟨held, fits⟩ := Option.filter_eq_some_iff.1 hit
    rw [Bool.and_eq_true, Bool.and_eq_true] at fits
    exact ⟨p, inside, fits.1.2, Or.inl ⟨held, fits.2⟩⟩

theorem wildLoop_mem {flags : ConfKind} {hostPiece : CStr} {a : ConfItem} (list : List DomainPiece)
    (before : Option ConfItem) (found : wildLoop flags hostPiece user before list = some a) :
    before = some a ∨ ∃ p ∈ list, matchMask p.hostPiece hostPiece = true ∧
      (p.data.conf = some a ∧ matchMask a.user user = true ∨ p.data.wildConf = some a) := by
  induction list generalizing before with
  | nil => exact Or.inl found
  | cons ptr rest ih =>
    simp only [wildLoop] at found
    split at found
    · rcases ih _ found with here | ⟨p, inside, hit⟩
      · exact Or.inr (scanWild_mem here)
      · exact Or.inr ⟨p, List.mem_cons_of_mem _ inside, hit⟩
    · rcases ih _ found with here | ⟨p, inside, hit⟩
      · exact Or.inl here
      · exact Or.inr ⟨p, List.mem_cons_of_mem _ inside, hit⟩

theorem findWildHostPiece_mem {flags : ConfKind} {level : DomainLevel} {hostPiece : CStr}
    {a : ConfItem} (found : findWildHostPiece level flags hostPiece user = some a) :
    ∃ p ∈ level, pindex p.hostPiece = pindex (lit "*") ∧ matchMask p.hostPiece hostPiece = true ∧
      (p.data.conf = some a ∧ matchMask a.user user = true ∨ p.data.wildConf = some a) := by
  rcases wildLoop_mem _ _ found with none | ⟨p, inside, hit⟩
  · cases none
  · obtain ⟨within, listed⟩ := List.mem_filter.1 inside
    exact ⟨p, within, beq_iff_eq.1 listed, hit⟩

theorem findUserPiece_mem {flags : ConfKind} {hostPiece : CStr} {list : List DomainPiece}
    {a : ConfItem} (found : findUserPiece flags hostPiece user list = some a) :
    (∃ p, list.head? = some p ∧ p.data.wildConf = some a) ∨
      ∃ p ∈ list, p.data.conf = some a ∧ matchMask p.hostPiece hostPiece = true ∧
        matchMask a.user user = true := by
  cases list with
  | nil => cases found
  | cons piece later =>
    simp only [findUserPiece] at found
    split at found
    next wild held =>
      cases found
      exact Or.inl ⟨piece, rfl, held⟩
    · obtain ⟨p, inside, hit⟩ := List.mem_filterMap.1 (List.mem_of_getLast? found)
      obtain ⟨held, fits⟩ := Option.filter_eq_some_iff.1 hit
      simp only [Bool.and_eq_true] at fits
      exact Or.inr ⟨p, inside, held, fits.1.1.2, fits.2⟩

structure Standing (lines : List ConfItem) (host : CStr) (stack : List CStr) (level : DomainLevel) :
    Prop where
  at_ : ∃ path path', TrieSound lines path level ∧ tokenizeAndStack host = path' ++ stack ∧
    SamePieces path path'

structure SearchSound (lines : List ConfItem) (host user : CStr) (s : Search) : Prop where
  iline : ∀ a, s.lastFoundIline = some a → Good lines host user a
  kline : ∀ level stack, s.firstKline = some (level, stack) → Standing lines host stack level

structure Askable (lines : List ConfItem) (host user : CStr) : Prop where
  cleanHost : '\x00' ∉ host
  cleanUser : '\x00' ∉ user
  unshadowed : ∀ a ∈ lines, ¬ Shadowed a.host host

theorem good_findWildHostPiece (ask : Askable lines host user) {flags : ConfKind} {piece : CStr} {rest : List CStr}
    {level : DomainLevel} (standing : Standing lines host (piece :: rest) level) {a : ConfItem}
    (found : findWildHostPiece level flags piece user = some a) : Good lines host user a := by
  obtain ⟨path, path', sound, hostIs, same⟩ := standing.at_
  obtain ⟨p, inside, listed, matched, hit⟩ := findWildHostPiece_mem found
  have within := trieSound_iff.1 sound p inside
  have matched' := matchMask_sound matched
  have seated : Seated lines (path ++ [p.hostPiece]) a ∧ Glob a.user user := by
    rcases hit with ⟨held, fits⟩ | held
    · exact ⟨within.conf a held, matchMask_sound fits⟩
    · obtain ⟨seated, any⟩ := within.wild a held
      exact ⟨seated, any ▸ Glob.star_all user⟩
  refine ⟨seated.1.known, seated.2, ?_⟩
  exact glob_of_seated seated.1 hostIs same matched'
    (Or.inr ⟨listed, ask.unshadowed a.line seated.1.known⟩)

/-- What is found at the host's own piece matches, and so does what passes the test of the
whole host further up. -/
theorem good_findUserPiece {flags : ConfKind} {piece : CStr} {rest : List CStr}
    {level : DomainLevel} (standing : Standing lines host (piece :: rest) level) {a : ConfItem}
    (found : findUserPiece flags piece user (findHostPiece level flags piece) = some a)
    (whole : rest = [] ∨ matchMask a.host host = true) : Good lines host user a := by
  obtain ⟨path, path', sound, hostIs, same⟩ := standing.at_
  have sublist : ∀ p ∈ findHostPiece level flags piece, PieceSound lines path p := fun p inside =>
    trieSound_iff.1 sound p ((List.dropWhile_sublist _).subset inside)
  have seated : ∃ p : DomainPiece, (irccmp p.hostPiece piece = .eq ∨ matchMask p.hostPiece piece = true) ∧
      Seated lines (path ++ [p.hostPiece]) a ∧ Glob a.user user := by
    rcases findUserPiece_mem found with ⟨p, first, held⟩ | ⟨p, inside, held, matched, fits⟩
    · have named := List.head?_dropWhile_not (fun p => !(isPiece piece p && p.has flags)) level
      rw [findHostPiece] at first
      rw [first] at named
      simp only [isPiece, Bool.not_eq_false', Bool.and_eq_true, beq_iff_eq] at named
      obtain ⟨seated, any⟩ := (sublist p (List.mem_of_head? first)).wild a held
      exact ⟨p, Or.inl named.1.2, seated, any ▸ Glob.star_all user⟩
    · exact ⟨p, Or.inr matched, (sublist p inside).conf a held, matchMask_sound fits⟩
  obtain ⟨p, matched, seated, fits⟩ := seated
  refine ⟨seated.known, fits, ?_⟩
  rcases whole with last | whole
  · have piece' : Glob p.hostPiece piece := by
      rcases matched with equal | matched
      · exact Glob.of_map_toLower (map_toLower_eq equal)
      · exact matchMask_sound matched
    exact glob_of_seated seated hostIs same piece' (Or.inl last)
  · exact matchMask_sound whole

theorem standing_next {flags : ConfKind} {piece : CStr} {rest : List CStr} {level : DomainLevel}
    (standing : Standing lines host (piece :: rest) level) {p : DomainPiece} {later : List DomainPiece}
    (found : findHostPiece level flags piece = p :: later) : Standing lines host rest p.nextLevel := by
  obtain ⟨path, path', sound, hostIs, same⟩ := standing.at_
  have named := List.head?_dropWhile_not (fun p => !(isPiece piece p && p.has flags)) level
  rw [← findHostPiece, found] at named
  simp only [List.head?_cons, isPiece, Bool.not_eq_false', Bool.and_eq_true, beq_iff_eq] at named
  have inside : p ∈ level := (List.dropWhile_sublist _).subset (by
    rw [← findHostPiece, found]
    exact List.mem_cons_self)
  refine ⟨path ++ [p.hostPiece], path' ++ [piece], (trieSound_iff.1 sound p inside).below, ?_, ?_⟩
  · rw [hostIs, List.append_assoc, List.singleton_append]
  · exact same.append (samePieces_singleton named.1.2)

theorem good_findSubMtrie (ask : Askable lines host user) {flags : ConfKind} {stack : List CStr} {level : DomainLevel} {s : Search}
    (standing : Standing lines host stack level) (h : SearchSound lines host user s) :
    (∀ a, (findSubMtrie host user flags stack level s).1 = some a → Good lines host user a) ∧
      SearchSound lines host user (findSubMtrie host user flags stack level s).2 := by
  induction stack generalizing level s with
  | nil =>
    refine ⟨fun a found => ?_, h⟩
    cases found
  | cons piece rest ih =>
    have wild : ∀ {k : ConfKind} {a : ConfItem}, findWildHostPiece level k piece user = some a →
        Good lines host user a := good_findWildHostPiece ask standing
    have carried : ∀ {s : Search} {found : Option ConfItem}, SearchSound lines host user s →
        (∀ a, found = some a → Good lines host user a) →
        ∀ a, found.or s.lastFoundIline = some a → Good lines host user a := by
      intro s found h good a result
      rcases Option.or_eq_some_iff.1 result with here | ⟨-, last⟩
      · exact good a here
      · exact h.iline a last
    have hit : ∀ {found : Option ConfItem} {p : ConfItem → Bool}, found.any p = true →
        ∃ a, found = some a ∧ p a = true := fun any => (Option.any_eq_true _ _).1 any
    simp only [findSubMtrie]
    split
    · exact ⟨fun a found => wild found, h⟩
    -- a wild entry of this level is kept for later, unless a K-line is wanted
    have h' : SearchSound lines host user (if flags = .kill then s else
        { s with lastFoundIline := (findWildHostPiece level flags piece user).or s.lastFoundIline }) := by
      split
      · exact h
      · exact ⟨carried h fun a found => wild found, h.kline⟩
    generalize (if flags = .kill then s else
        { s with lastFoundIline := (findWildHostPiece level flags piece user).or s.lastFoundIline }) =
          s' at h'
    split
    · refine ⟨fun a found => ?_, h'⟩
      simp only at found
      split at found
      · cases found
      · exact h'.iline a found
    next curPiece siblings curIs =>
      -- the first piece with a K-line is remembered with its level, to come back to
      have h'' : SearchSound lines host user (if curPiece.data.kill = true ∧ s'.firstKline.isNone = true
          then { s' with firstKline := some (level, piece :: rest) } else s') := by
        split
        · refine ⟨h'.iline, fun level' stack' first => ?_⟩
          cases first
          exact standing
        · exact h'
      generalize (if curPiece.data.kill = true ∧ s'.firstKline.isNone = true
          then { s' with firstKline := some (level, piece :: rest) } else s') = s'' at h''
      rw [← curIs]
      split
      -- at the end of the stack, then one level down, then a piece for the whole rest
      next last =>
        exact ⟨carried h'' fun a found => good_findUserPiece standing found (Or.inl last), h''⟩
      split
      · exact ih (standing_next standing curIs) h''
      split
      next whole =>
        refine ⟨fun a found => ?_, h''⟩
        obtain ⟨b, same, matched⟩ := hit whole
        have equal : b = a := Option.some.inj (same.symm.trans found)
        exact good_findUserPiece standing found (Or.inr (equal ▸ matched))
      · exact ⟨carried h'' fun a found => wild found, h''⟩

end

/-- Everything that is kept was put in, by host or by address, and in the trie it is where it
belongs. -/
structure MtrieSound (lines addresses : List ConfItem) (s : Mtrie) : Prop where
  trie : TrieSound lines [] s.trieList
  ilines : ∀ a ∈ s.unsortableListIlines, a.line ∈ lines
  klines : ∀ a ∈ s.unsortableListKlines, a.line ∈ lines
  wild : ∀ a ∈ s.wildCardIlines, a.line ∈ lines ∧ a.host = lit "*"
  ipIlines : ∀ a ∈ s.ipILines, a.line ∈ addresses
  ipKlines : ∀ a, s.ipKlines.HasEntry a → a.line ∈ addresses

def Answers (lines addresses : List ConfItem) (host user : CStr) (ip : Nat) (a : ConfItem) : Prop :=
  Glob a.user user ∧
    (a.line ∈ lines ∧ Glob a.host host ∨ a.line ∈ addresses ∧ ip &&& a.ipMask = a.ip)

section
variable {lines addresses : List ConfItem} {s : Mtrie} {host user : CStr} {ip : Nat}

theorem Good.answers {a : ConfItem} (h : Good lines host user a) : Answers lines addresses host user ip a :=
  ⟨h.user, Or.inl ⟨h.known, h.host⟩⟩

theorem answers_unsortable {list : List ConfItem}
    (known : ∀ a ∈ list, a.line ∈ lines) {a : ConfItem}
    (found : list.find? (·.matchesClient host user) = some a) : Answers lines addresses host user ip a := by
  have matched := List.find?_some found
  simp only [ConfItem.matchesClient, Bool.and_eq_true] at matched
  exact ⟨matchMask_sound matched.2, Or.inl
    ⟨known a (List.mem_of_find?_eq_some found), matchMask_sound matched.1⟩⟩

theorem searchSound_start : SearchSound lines host user { lastFoundIline := none, firstKline := none } where
  iline := by
    intro a found
    cases found
  kline := by
    intro level stack first
    cases first

theorem standing_start (h : MtrieSound lines addresses s) :
    Standing lines host (tokenizeAndStack host) s.trieList :=
  ⟨[], [], h.trie, rfl, rfl⟩

theorem good_inTrie (h : MtrieSound lines addresses s) (ask : Askable lines host user) :
    let start : Search := { lastFoundIline := none, firstKline := none }
    let r := if s.trieList ≠ [] then
      findSubMtrie host user .client (tokenizeAndStack host) s.trieList start else (none, start)
    (∀ a, r.1 = some a → Good lines host user a) ∧ SearchSound lines host user r.2 := by
  intro start r
  have searched := @good_findSubMtrie lines host user ask .client _ _ _ (standing_start h)
    searchSound_start
  by_cases some : s.trieList ≠ []
  · simp only [r, if_pos some]
    exact searched
  · simp only [r, if_neg some]
    refine ⟨fun a found => ?_, searchSound_start⟩
    cases found

theorem answers_findIline (h : MtrieSound lines addresses s) (ask : Askable lines host user) :
    (∀ a, (s.findIline host user ip).1 = some a → Answers lines addresses host user ip a) ∧
      SearchSound lines host user (s.findIline host user ip).2 := by
  obtain ⟨inTrie, search⟩ := good_inTrie h ask
  have unsortable : ∀ a, s.lookInUnsortableIlines host user = some a → Answers lines addresses host user ip a :=
    fun a found => answers_unsortable h.ilines found
  have byIp : ∀ a, s.findMatchingIpILine user ip = some a → Answers lines addresses host user ip a := by
    intro a found
    have matched := List.find?_some found
    simp only [Bool.and_eq_true, beq_iff_eq] at matched
    exact ⟨matchMask_sound matched.2,
      Or.inr ⟨h.ipIlines a (List.mem_of_find?_eq_some found), matched.1⟩⟩
  have wild : ∀ a, s.findWildCardIline user = some a → Answers lines addresses host user ip a := by
    intro a found
    have inside := List.mem_of_find?_eq_some found
    have matched : matchMask a.user user = true :=
      List.find?_some (p := fun a : ConfItem => matchMask a.user user) found
    refine ⟨matchMask_sound matched, Or.inl ⟨(h.wild a inside).1, ?_⟩⟩
    rw [(h.wild a inside).2]
    exact Glob.star_all host
  simp only [Mtrie.findIline]
  generalize (if s.trieList ≠ [] then findSubMtrie host user .client (tokenizeAndStack host)
    s.trieList { lastFoundIline := none, firstKline := none }
    else (none, { lastFoundIline := none, firstKline := none })) = r at inTrie search
  have byIp' : ∀ a, (if r.1.isNone = true ∧ ip ≠ 0 then s.findMatchingIpILine user ip else none) =
      some a → Answers lines addresses host user ip a := by
    intro a found
    split at found
    · exact byIp a found
    · cases found
  -- the four sources in their order: an exempt entry of an earlier one ends the search
  split
  next exempt found =>
    refine ⟨fun a same => ?_, searchSound_start⟩
    cases same
    exact unsortable _ (Option.filter_eq_some_iff.1 found).1
  split
  next exempt found =>
    refine ⟨fun a same => ?_, search⟩
    cases same
    exact (inTrie _ (Option.filter_eq_some_iff.1 found).1).answers
  split
  next exempt found =>
    refine ⟨fun a same => ?_, search⟩
    cases same
    exact byIp' _ (Option.filter_eq_some_iff.1 found).1
  · refine ⟨fun a found => ?_, search⟩
    rcases Option.or_eq_some_iff.1 found with first | ⟨-, last⟩
    · rcases Option.or_eq_some_iff.1 first with here | ⟨-, next⟩
      · exact unsortable a here
      · rcases Option.or_eq_some_iff.1 next with here | ⟨-, there⟩
        · exact (inTrie a here).answers
        · exact byIp' a there
    · exact wild a last

theorem answers_findKline (h : MtrieSound lines addresses s) (ask : Askable lines host user) {search : Search}
    (sound : SearchSound lines host user search) {a : ConfItem}
    (found : s.findKline host user ip search = some a) : Answers lines addresses host user ip a := by
  simp only [Mtrie.findKline] at found
  rcases Option.or_eq_some_iff.1 found with first | ⟨-, last⟩
  · rcases Option.or_eq_some_iff.1 first with here | ⟨-, unsortable⟩
    · split at here
      · split at here
        next level stack saved =>
          exact ((good_findSubMtrie ask (sound.kline level stack saved) sound).1 a here).answers
        · exact ((good_findSubMtrie ask (standing_start h) sound).1 a here).answers
      · cases here
    · exact answers_unsortable h.klines unsortable
  · simp only [matchIpKline] at last
    split at last
    · cases last
    split at last
    · cases last
    next node held =>
      rcases scanIpKlines_sound _ _ last with none | ⟨listed, covered, matched⟩
      · cases none
      · exact ⟨matchMask_sound matched,
          Or.inr ⟨h.ipKlines a (IpTable.hasEntry_of_find held listed), covered⟩⟩

/-- What `find_matching_mtrie_conf` returns from a sound state matches the client. -/
theorem answers_findMatchingMtrieConf (h : MtrieSound lines addresses s) (ask : Askable lines host user)
    {a : ConfItem} (found : s.findMatchingMtrieConf host user ip = some a) :
    Answers lines addresses host user ip a := by
  obtain ⟨iline, search⟩ := @answers_findIline lines addresses s host user ip h ask
  simp only [Mtrie.findMatchingMtrieConf] at found
  split at found
  · cases found
  next b search' result =>
    rw [result] at iline search
    split at found
    · cases found
      exact iline a rfl
    · rcases Option.or_eq_some_iff.1 found with kline | ⟨-, same⟩
      · exact answers_findKline h ask search kline
      · cases same
        exact iline a rfl

end

/-- The insertions: `add_mtrie_conf_entry`, `add_ip_Iline` and `add_ip_Kline`. -/
inductive MtrieEvent where
  | entry (aconf : ConfItem) (flags : ConfKind) (rand : Nat → Bool)
  | ipIline (aconf : ConfItem)
  | ipKline (aconf : ConfItem) (rand : Nat → Bool)

def mtrieMachine : Machine Mtrie MtrieEvent where
  step
    | s, .entry aconf flags rand => s.addMtrieConfEntry rand aconf flags
    | s, .ipIline aconf => s.addIpIline aconf
    | s, .ipKline aconf rand => { s with ipKlines := addIpKline s.ipKlines rand aconf }

def fullMask (aconf : ConfItem) : ConfItem :=
  if aconf.ipMask = 0 then { aconf with ipMask := 2 ^ 32 - 1 } else aconf

/-- A K-line on an address goes to the table of addresses, and so do the other two kinds. -/
def MtrieEvent.byAddress : MtrieEvent → Bool
  | .entry aconf _ _ => (isAddress aconf.host).isSome && aconf.kill
  | _ => true

def MtrieEvent.inserted : MtrieEvent → ConfItem
  | .entry aconf _ _ =>
    match isAddress aconf.host, aconf.kill with
    | some (ipHost, ipMask), true => fullMask { aconf with ip := ipHost &&& ipMask, ipMask }
    | _, _ => aconf
  | .ipIline aconf => aconf
  | .ipKline aconf _ => fullMask aconf

/-- The condition on an insertion: the mask of an I-line is not empty, for `sortable` would
read past its end, and an entry that goes into the trie keeps to its own name. -/
def FitsMtrie (s : Mtrie) : MtrieEvent → Prop
  | .entry aconf flags rand => (aconf.kill = false → aconf.host ≠ []) ∧
      ((MtrieEvent.entry aconf flags rand).byAddress = false →
        ∀ pieces, sortable aconf.host = .stacked pieces → FitsTrie flags aconf pieces s.trieList)
  | _ => True

theorem MtrieSound.mono {lines lines' addresses addresses' : List ConfItem} {s : Mtrie}
    (h : MtrieSound lines addresses s) (more : ∀ l ∈ lines, l ∈ lines')
    (more' : ∀ l ∈ addresses, l ∈ addresses') : MtrieSound lines' addresses' s where
  trie := h.trie.mono more
  ilines := fun a inside => more _ (h.ilines a inside)
  klines := fun a inside => more _ (h.klines a inside)
  wild := fun a inside => ⟨more _ (h.wild a inside).1, (h.wild a inside).2⟩
  ipIlines := fun a inside => more' _ (h.ipIlines a inside)
  ipKlines := fun a has => more' _ (h.ipKlines a has)

theorem sortable_wild {mask : CStr} (h : sortable mask = .wild) : mask = lit "*" := by
  unfold sortable at h
  split at h
  · cases h
  split at h
  next star => exact star
  split at h
  · cases h
  split at h
  · cases h
  · split at h
    · cases h
    · cases h

section
variable {lines addresses : List ConfItem} {s : Mtrie}

theorem mtrieSound_ipKline (h : MtrieSound lines addresses s) {aconf : ConfItem}
    (known : (fullMask aconf).line ∈ addresses) (rand : Nat → Bool) :
    MtrieSound lines addresses { s with ipKlines := addIpKline s.ipKlines rand aconf } where
  trie := h.trie
  ilines := h.ilines
  klines := h.klines
  wild := h.wild
  ipIlines := h.ipIlines
  ipKlines := by
    intro a has
    rcases hasEntry_addIpKline has with old | new
    · exact h.ipKlines a old
    · rw [new]
      exact known

theorem mtrieSound_addUnsortableKline (h : MtrieSound lines addresses s) {aconf : ConfItem}
    (known : aconf.line ∈ lines) : MtrieSound lines addresses (s.addUnsortableKline aconf) := by
  unfold Mtrie.addUnsortableKline
  split
  · exact h
  · refine ⟨h.trie, h.ilines, ?_, h.wild, h.ipIlines, h.ipKlines⟩
    intro a inside
    rcases List.mem_cons.1 inside with new | old
    · exact new ▸ known
    · exact h.klines a old

theorem mtrieSound_entry (h : MtrieSound lines addresses s) {aconf : ConfItem} {flags : ConfKind}
    {rand : Nat → Bool}
    (known : ∀ byAddress, (MtrieEvent.entry aconf flags rand).byAddress = byAddress →
      (MtrieEvent.entry aconf flags rand).inserted.line ∈ if byAddress then addresses else lines)
    (fits : FitsMtrie s (.entry aconf flags rand)) :
    MtrieSound lines addresses (s.addMtrieConfEntry rand aconf flags) := by
  simp only [Mtrie.addMtrieConfEntry]
  split
  next ipHost ipMask address kill =>
    have filed : (MtrieEvent.entry aconf flags rand).inserted =
        fullMask { aconf with ip := ipHost &&& ipMask, ipMask } := by
      simp only [MtrieEvent.inserted, address, kill]
    have known' := known true (by simp [MtrieEvent.byAddress, address, kill])
    rw [filed, if_pos rfl] at known'
    exact mtrieSound_ipKline h known' rand
  next other =>
    have byHost : (MtrieEvent.entry aconf flags rand).byAddress = false := by
      cases address : isAddress aconf.host with
      | none => simp [MtrieEvent.byAddress, address]
      | some found =>
        cases kill : aconf.kill with
        | false => simp [MtrieEvent.byAddress, kill]
        | true => exact absurd kill (other found.1 found.2 address)
    have filed : (MtrieEvent.entry aconf flags rand).inserted = aconf := by
      simp only [MtrieEvent.inserted]
    have known' := known false byHost
    rw [filed, if_neg (by decide)] at known'
    -- by the kind of mask: not sortable, a `*` alone, or the pieces of a host
    split
    · split
      · split
        · exact h
        · refine ⟨h.trie, ?_, h.klines, h.wild, h.ipIlines, h.ipKlines⟩
          intro a inside
          rcases List.mem_cons.1 inside with new | old
          · exact new ▸ known'
          · exact h.ilines a old
      · exact mtrieSound_addUnsortableKline h known'
    next wild =>
      have pushed : MtrieSound lines addresses { s with wildCardIlines := aconf :: s.wildCardIlines } := by
        refine ⟨h.trie, h.ilines, h.klines, ?_, h.ipIlines, h.ipKlines⟩
        intro a inside
        rcases List.mem_cons.1 inside with new | old
        · exact new ▸ ⟨known', sortable_wild wild⟩
        · exact h.wild a old
      split
      · split
        · split
          · exact h
          · exact pushed
        · exact pushed
      · exact mtrieSound_addUnsortableKline h known'
    next pieces sorted =>
      refine ⟨?_, h.ilines, h.klines, h.wild, h.ipIlines, h.ipKlines⟩
      exact trieSound_createSubMtrie h.trie ⟨known', pieces, sorted, rfl⟩ (fits.2 byHost pieces sorted)

end

def insertedLines (byAddress : Bool) (es : List MtrieEvent) : List ConfItem :=
  (es.filter fun e => e.byAddress == byAddress).map fun e => e.inserted.line

theorem mem_insertedLines {byAddress : Bool} {es : List MtrieEvent} {l : ConfItem} :
    l ∈ insertedLines byAddress es ↔ ∃ e ∈ es, e.byAddress = byAddress ∧ e.inserted.line = l := by
  simp [insertedLines, and_assoc]

theorem mtrieSound_empty : MtrieSound [] [] Mtrie.empty where
  trie := trieSound_nil
  ilines := fun _ inside => absurd inside List.not_mem_nil
  klines := fun _ inside => absurd inside List.not_mem_nil
  wild := fun _ inside => absurd inside List.not_mem_nil
  ipIlines := fun _ inside => absurd inside List.not_mem_nil
  ipKlines := by
    rintro a ⟨n, ⟨b, inside⟩, -⟩
    cases inside

theorem mtrieSound_run {es : List MtrieEvent} (meets : mtrieMachine.Meets FitsMtrie Mtrie.empty es) :
    MtrieSound (insertedLines false es) (insertedLines true es)
      (mtrieMachine.run Mtrie.empty es) := by
  apply meets.records (p := [])
    (J := fun s past => MtrieSound (insertedLines false past) (insertedLines true past) s)
  · intro s past e sound fits
    have grows : ∀ byAddress, ∀ l ∈ insertedLines byAddress past,
        l ∈ insertedLines byAddress (past ++ [e]) := by
      intro byAddress l inside
      obtain ⟨e', before, kind, same⟩ := mem_insertedLines.1 inside
      exact mem_insertedLines.2 ⟨e', List.mem_append_left _ before, kind, same⟩
    have more := sound.mono (grows false) (grows true)
    have known : ∀ byAddress, e.byAddress = byAddress →
        e.inserted.line ∈ insertedLines byAddress (past ++ [e]) := fun byAddress kind =>
      mem_insertedLines.2 ⟨e, List.mem_append_right _ List.mem_cons_self, kind, rfl⟩
    cases e with
    | entry aconf flags rand =>
      apply mtrieSound_entry more _ fits
      intro byAddress kind
      cases byAddress with
      | true => exact known true kind
      | false => exact known false kind
    | ipIline aconf =>
      refine ⟨more.trie, more.ilines, more.klines, more.wild, ?_, more.ipKlines⟩
      intro a inside
      rcases List.mem_cons.1 inside with new | old
      · exact new ▸ known true rfl
      · exact more.ipIlines a old
    | ipKline aconf rand => exact mtrieSound_ipKline more (known true rfl) rand
  · exact mtrieSound_empty

/-- In every run of entries that keep to their own names, for every client whose host no line
shadows, what `find_matching_mtrie_conf` returns was put in and matches. -/
theorem findMatchingMtrieConf_of_run {es : List MtrieEvent}
    (meets : mtrieMachine.Meets FitsMtrie Mtrie.empty es) {host user : CStr}
    (ask : Askable (insertedLines false es) host user) (ip : Nat) {a : ConfItem}
    (found : (mtrieMachine.run Mtrie.empty es).findMatchingMtrieConf host user ip = some a) :
    Glob a.user user ∧ ∃ e ∈ es, a.line = e.inserted.line ∧
      if e.byAddress then ip &&& a.ipMask = a.ip else Glob a.host host := by
  obtain ⟨users, byHost | byAddress⟩ := answers_findMatchingMtrieConf (mtrieSound_run meets) ask found
  · obtain ⟨e, inside, kind, same⟩ := mem_insertedLines.1 byHost.1
    refine ⟨users, e, inside, same.symm, ?_⟩
    rw [kind]
    exact byHost.2
  · obtain ⟨e, inside, kind, same⟩ := mem_insertedLines.1 byAddress.1
    refine ⟨users, e, inside, same.symm, ?_⟩
    rw [kind]
    exact byAddress.2

def confLine (flags : ConfKind) (user host : String) : ConfItem where
  client := flags == .client
  kill := flags == .kill
  eLined := false
  ip := 0
  ipMask := 0
  host := lit host
  user := lit user

def lineEvent (flags : ConfKind) (user host : String) : MtrieEvent :=
  .entry (confLine flags user host) flags fun _ => true

instance (flags : ConfKind) (aconf : ConfItem) (hostPiece : CStr) (list : List DomainPiece) :
    Decidable (OwnSeat flags aconf hostPiece list) :=
  inferInstanceAs (Decidable (∀ ptr ∈ seat flags aconf hostPiece list,
    irccmp ptr.hostPiece hostPiece = .eq))

instance decidableFitsTrie (flags : ConfKind) (aconf : ConfItem) :
    ∀ (pieces : List CStr) (level : DomainLevel), Decidable (FitsTrie flags aconf pieces level)
  | [], _ => .isTrue trivial
  | piece :: rest, level =>
    have := fun p : DomainPiece => decidableFitsTrie flags aconf rest p.nextLevel
    inferInstanceAs (Decidable (ite (rest = []) _
      (∀ p ∈ (findOrAddHostPiece level flags piece).find? (isPiece piece),
        FitsTrie flags aconf rest p.nextLevel)))

instance (s : Mtrie) : (e : MtrieEvent) → Decidable (FitsMtrie s e)
  | .entry aconf flags rand =>
    have : Decidable (∀ pieces, sortable aconf.host = .stacked pieces →
        FitsTrie flags aconf pieces s.trieList) :=
      match sortable aconf.host with
      | .unsortable => .isTrue fun _ sorted => by cases sorted
      | .wild => .isTrue fun _ sorted => by cases sorted
      | .stacked pieces => decidable_of_iff (FitsTrie flags aconf pieces s.trieList)
          ⟨fun fits _ sorted => by cases sorted; exact fits, fun all => all pieces rfl⟩
    decidable_of_iff ((aconf.kill || !aconf.host.isEmpty) = true ∧
        ((MtrieEvent.entry aconf flags rand).byAddress = true ∨
          ∀ pieces, sortable aconf.host = .stacked pieces →
            FitsTrie flags aconf pieces s.trieList)) (by
      simp only [FitsMtrie, ← Bool.not_eq_true, Decidable.imp_iff_not_or, not_not]
      simp)
  | .ipIline _ => .isTrue trivial
  | .ipKline _ _ => .isTrue trivial

/-- Wildcards above, beside and below each other, I-lines and K-lines mixed. -/
def wildLines : List MtrieEvent :=
  [lineEvent .client "*" "*.com", lineEvent .kill "*" "*.bad.com", lineEvent .client "joe*" "foo.com",
   lineEvent .client "*" "www.foo.com", lineEvent .kill "eve" "*.foo.com",
   lineEvent .kill "joe" "bad.*.com"]

theorem findMatchingMtrieConf_wild :
    Glob (lit "eve") (lit "eve") ∧ ∃ e ∈ wildLines,
      (confLine .kill "eve" "*.foo.com").line = e.inserted.line ∧
        if e.byAddress then 0 &&& 0 = 0 else Glob (lit "*.foo.com") (lit "www.foo.com") := by
  apply @findMatchingMtrieConf_of_run wildLines _ (lit "www.foo.com") (lit "eve") _ 0
    (confLine .kill "eve" "*.foo.com")
  · decide +kernel
  · decide +kernel
  · refine ⟨by decide, by decide, ?_⟩
    have open_ : ∀ a ∈ insertedLines false wildLines,
        ¬ (pindex a.host = pindex (lit "*") ∧ a.host.head? ≠ some '*') := by decide +kernel
    rintro a inside ⟨listed, literal, -⟩
    exact open_ a inside ⟨listed, literal⟩

theorem jones_below_jones : ¬ ∀ (es : List MtrieEvent) (host user : CStr) (ip : Nat) (a : ConfItem),
    '\x00' ∉ host → '\x00' ∉ user →
    (mtrieMachine.run Mtrie.empty es).findMatchingMtrieConf host user ip = some a →
    Glob a.user user ∧ ∃ e ∈ es, a.line = e.inserted.line ∧
      if e.byAddress then ip &&& a.ipMask = a.ip else Glob a.host host := by
  intro claimed
  obtain ⟨-, e, inside, -, matched⟩ := claimed
    [lineEvent .client "*" "*.com", lineEvent .kill "*" "jones.com"] (lit "a.jones.com") (lit "joe") 1
    (confLine .kill "*" "jones.com") (by decide) (by decide) (by decide +kernel)
  have byHost : e.byAddress = false := by
    rcases List.mem_cons.1 inside with first | later
    · rw [first]
      decide
    · rw [List.mem_singleton.1 later]
      decide
  rw [byHost, if_neg (by decide)] at matched
  have equal := Glob.map_toLower_of_literal matched (by decide)
  revert equal
  decide

end Ircd
