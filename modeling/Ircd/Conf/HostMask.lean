import Ircd.Conf.Mtrie
import Ircd.Text.Glob

/-! Host masks and their pieces: when the pieces match, the masks match. -/

set_option autoImplicit false

namespace Ircd

def unstack : List CStr → CStr
  | [] => []
  | [piece] => piece
  | piece :: rest => unstack rest ++ '.' :: piece

def domainOf : List CStr → CStr
  | [] => []
  | piece :: rest => domainOf rest ++ '.' :: piece

def SamePieces (a b : List CStr) : Prop := a.map (·.map toLower) = b.map (·.map toLower)

theorem samePieces_refl (a : List CStr) : SamePieces a a := rfl

theorem SamePieces.append {a b a' b' : List CStr} (h : SamePieces a b) (h' : SamePieces a' b') :
    SamePieces (a ++ a') (b ++ b') := by
  rw [SamePieces, List.map_append, List.map_append, h, h']

theorem samePieces_singleton {p q : CStr} (h : irccmp p q = .eq) : SamePieces [p] [q] := by
  rw [SamePieces, List.map_singleton, List.map_singleton, map_toLower_eq h]

theorem unstack_append {path more : List CStr} (some : more ≠ []) :
    unstack (path ++ more) = unstack more ++ domainOf path := by
  induction path with
  | nil => rw [domainOf, List.nil_append, List.append_nil]
  | cons piece rest ih =>
    have nonempty : rest ++ more ≠ [] := List.append_ne_nil_of_right_ne_nil rest some
    obtain ⟨first, others, split⟩ := List.exists_cons_of_ne_nil nonempty
    have step : unstack (piece :: (rest ++ more)) = unstack (rest ++ more) ++ '.' :: piece := by
      rw [split]
      rfl
    rw [List.cons_append, step, ih, domainOf, List.append_assoc]

theorem splitDots_ne_nil (s : CStr) : splitDots s ≠ [] := by
  cases s with
  | nil => simp [splitDots]
  | cons c rest =>
    simp only [splitDots]
    split
    · simp
    · split
      · simp
      · simp

theorem unstack_cons {pieces : List CStr} (c : Char) (piece : CStr) :
    unstack (pieces ++ [c :: piece]) = c :: unstack (pieces ++ [piece]) := by
  rw [unstack_append (by simp), unstack_append (by simp)]
  rfl

theorem domainOf_eq {pieces : List CStr} (some : pieces ≠ []) :
    domainOf pieces = '.' :: unstack pieces := by
  induction pieces with
  | nil => exact absurd rfl some
  | cons piece rest ih =>
    cases rest with
    | nil => rfl
    | cons next more =>
      rw [domainOf, ih (List.cons_ne_nil _ _)]
      rfl

theorem unstack_splitDots (s : CStr) : unstack (splitDots s).reverse = s := by
  induction s with
  | nil => rfl
  | cons c rest ih =>
    simp only [splitDots]
    split
    next dot =>
      have some : (splitDots rest).reverse ≠ [] := by simp [splitDots_ne_nil]
      rw [dot, List.reverse_cons, unstack_append (by simp), domainOf_eq some, ih]
      rfl
    next other =>
      split
      next empty => exact absurd empty (splitDots_ne_nil rest)
      next piece more split =>
        rw [split, List.reverse_cons] at ih
        rw [List.reverse_cons, unstack_cons, ih]

theorem unstack_tokenizeAndStack (host : CStr) : unstack (tokenizeAndStack host) = host :=
  unstack_splitDots host

/-- A sortable mask: its pieces make it up, the last of them begins as it does, and a
wildcard can only be its first character. -/
theorem sortable_stacked {mask : CStr} {pieces : List CStr} (nonempty : mask ≠ [])
    (sorted : sortable mask = .stacked pieces) :
    unstack pieces = mask ∧ '?' ∉ mask ∧ '*' ∉ mask.tail ∧
      ∃ path piece, pieces = path ++ [piece] ∧ piece.head? = mask.head? := by
  cases mask with
  | nil => exact absurd rfl nonempty
  | cons c rest =>
    simp only [sortable] at sorted
    split at sorted
    · cases sorted
    next noQuestion =>
    split at sorted
    · cases sorted
    split at sorted
    · cases sorted
    next noStar =>
      split at sorted
      next empty => exact absurd empty (splitDots_ne_nil rest)
      next piece more split =>
        cases sorted
        rw [List.reverse_cons]
        refine ⟨?_, noQuestion, noStar, more.reverse, c :: piece, rfl, rfl⟩
        have rejoined := unstack_splitDots rest
        rw [split, List.reverse_cons] at rejoined
        rw [unstack_cons, rejoined]

theorem domainOf_same {a b : List CStr} (same : SamePieces a b) :
    (domainOf a).map toLower = (domainOf b).map toLower := by
  induction a generalizing b with
  | nil =>
    cases b with
    | nil => rfl
    | cons q b => cases same
  | cons p a ih =>
    cases b with
    | nil => cases same
    | cons q b =>
      obtain ⟨head, tail⟩ := List.cons.inj same
      simp only [domainOf, List.map_append, List.map_cons]
      have low : p.map toLower = q.map toLower := head
      rw [ih tail, low]

theorem unstack_same {a b : List CStr} (same : SamePieces a b) :
    (unstack a).map toLower = (unstack b).map toLower := by
  cases a with
  | nil =>
    cases b with
    | nil => rfl
    | cons q b => cases same
  | cons p a =>
    cases b with
    | nil => cases same
    | cons q b =>
      have dotted := domainOf_same same
      rw [domainOf_eq (List.cons_ne_nil p a), domainOf_eq (List.cons_ne_nil q b)] at dotted
      exact (List.cons.inj dotted).2

/-- A mask whose domain is the host's and whose last piece matches there matches the host, if
there is nothing more in the host or the mask begins with `*`. -/
theorem glob_of_pieces {mask host piece t : CStr} {path path' more : List CStr}
    (maskIs : (mask.map toLower) = (unstack (path ++ [piece])).map toLower)
    (hostIs : host = unstack (path' ++ t :: more)) (same : SamePieces path path')
    (matched : Glob piece t) (rest : more = [] ∨ piece.head? = some '*') : Glob mask host := by
  have last : Glob piece (unstack (t :: more)) := by
    cases more with
    | nil => exact matched
    | cons next others =>
      have star := rest.resolve_left (List.cons_ne_nil next others)
      cases piece with
      | nil => cases star
      | cons c piece =>
        cases star
        have longer := matched.prepend (unstack (next :: others) ++ ['.'])
        rwa [List.append_assoc] at longer
  have domain : Glob (domainOf path) (domainOf path') := Glob.of_map_toLower (domainOf_same same)
  have whole : Glob (unstack (path ++ [piece])) host := by
    rw [hostIs, unstack_append (by simp), unstack_append (by simp)]
    exact last.append domain
  exact whole.congr maskIs.symm

end Ircd
