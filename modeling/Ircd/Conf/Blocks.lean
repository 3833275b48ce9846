import Ircd.Conf.File

/-! `fbfill` and `fbgets` of `fileio.c` on the blocks that `read` returns.

The buffer is filled again where it is found empty: before a line, behind a CR and behind
every other character of the line.
-/

set_option autoImplicit false

namespace Ircd

/-- What a `read` before the end of the file returns. -/
abbrev ReadBlock := { block : CStr // block ≠ [] }

/-- An `FBFILE`: the bytes from `ptr` to `endp`, the blocks that are still to be read, and
`FB_EOF`. -/
structure FileBuf where
  ahead : CStr
  reads : List ReadBlock
  eof : Bool

namespace FileBuf

def fdbopen (reads : List ReadBlock) : FileBuf := { ahead := [], reads, eof := false }

/-- `fbfill`, with whether it has returned more than 0. -/
def fbfill (fb : FileBuf) : FileBuf × Bool :=
  if fb.eof then (fb, false)
  else
    match fb.reads with
    | [] => ({ fb with eof := true }, false)
    | block :: reads => ({ fb with ahead := block.val, reads }, true)

def more (fb : FileBuf) : FileBuf × Bool := if fb.ahead ≠ [] then (fb, true) else fb.fbfill

/-- The loop of `fbgets` with room for `n` more bytes; `none` is a read at `endp`. -/
def line : Nat → FileBuf → Option (CStr × FileBuf)
  | 0, fb => some ([], fb)
  | n + 1, fb =>
    match fb.ahead with
    | [] => none
    | c :: ahead =>
      let fb := { fb with ahead }
      if c = '\n' then some (['\n'], fb)
      else if c = '\r' then
        match fb.more with
        | (fb, true) =>
          -- An LF may be the first byte of the next block.
          if fb.ahead.head? = some '\n' then some (['\n'], { fb with ahead := fb.ahead.tail })
          else some (['\n'], fb)
        | (fb, false) => some (['\n'], fb)
      else
        match fb.more with
        | (fb, true) => (line n fb).map fun r => (c :: r.1, r.2)
        | (fb, false) => some ([c], fb)

def room (len : Nat) : Nat := (len + (2 ^ 64 - 1)) % 2 ^ 64

/-- `fbgets`: the bytes before the terminator, or the null pointer. -/
def fbgets (len : Nat) (fb : FileBuf) : Option (Option CStr × FileBuf) :=
  match fb.more with
  | (fb, true) => (line (room len) fb).map fun r => (some r.1, r.2)
  | (fb, false) => some (none, fb)

def calls (len : Nat) : Nat → FileBuf → Option (List (Option CStr) × FileBuf)
  | 0, fb => some ([], fb)
  | count + 1, fb =>
    (fbgets len fb).bind fun r => (calls len count r.2).map fun later => (r.1 :: later.1, later.2)

def unread (fb : FileBuf) : CStr := fb.ahead ++ (fb.reads.map Subtype.val).flatten

def Sound (fb : FileBuf) : Prop := fb.eof = true → fb.reads = []

theorem more_spec {fb : FileBuf} (sound : fb.Sound) :
    fb.more.1.Sound ∧ fb.more.1.unread = fb.unread ∧
      (if fb.more.2 then fb.more.1.ahead ≠ [] else fb.unread = []) := by
  obtain ⟨ahead, reads, eof⟩ := fb
  by_cases some : ahead = []
  · subst some
    cases eof with
    | true =>
      have none : reads = [] := sound rfl
      subst none
      exact ⟨sound, rfl, rfl⟩
    | false =>
      cases reads with
      | nil => exact ⟨fun _ => rfl, rfl, rfl⟩
      | cons block reads => exact ⟨fun eof => absurd eof Bool.false_ne_true, rfl, block.property⟩
  · have kept : FileBuf.more ⟨ahead, reads, eof⟩ = (⟨ahead, reads, eof⟩, true) := if_pos some
    rw [kept]
    exact ⟨sound, rfl, some⟩

theorem more_true {fb fb' : FileBuf} (sound : fb.Sound) (more : fb.more = (fb', true)) :
    fb'.Sound ∧ fb'.unread = fb.unread ∧ fb'.ahead ≠ [] := by
  have spec := more_spec sound
  rw [more] at spec
  exact spec

theorem more_false {fb fb' : FileBuf} (sound : fb.Sound) (more : fb.more = (fb', false)) :
    fb'.Sound ∧ fb'.unread = [] ∧ fb.unread = [] := by
  have spec := more_spec sound
  rw [more] at spec
  exact ⟨spec.1, spec.2.1.trans spec.2.2, spec.2.2⟩

theorem line_eq (n : Nat) {fb : FileBuf} (sound : fb.Sound) (started : fb.ahead ≠ []) :
    ∃ fb', fb.line n = some ((fbgetsLoop n fb.unread).1, fb') ∧ fb'.Sound ∧
      fb'.unread = (fbgetsLoop n fb.unread).2 := by
  induction n generalizing fb with
  | zero => exact ⟨fb, rfl, sound, rfl⟩
  | succ n ih =>
    obtain ⟨c, ahead, front⟩ := List.exists_cons_of_ne_nil started
    obtain ⟨_, reads, eof⟩ := fb
    subst front
    have still : Sound ⟨ahead, reads, eof⟩ := sound
    have whole : unread ⟨c :: ahead, reads, eof⟩ = c :: unread ⟨ahead, reads, eof⟩ := rfl
    rw [whole, line]
    dsimp only
    -- what is read ahead may end at any byte, also between a CR and its LF
    by_cases lf : c = '\n'
    · rw [if_pos lf]
      simp only [fbgetsLoop, if_pos lf]
      exact ⟨_, rfl, still, rfl⟩
    · rw [if_neg lf]
      by_cases cr : c = '\r'
      · rw [if_pos cr]
        simp only [fbgetsLoop, if_neg lf, if_pos cr]
        cases filled : FileBuf.more ⟨ahead, reads, eof⟩ with
        | mk fb' answer =>
          cases answer with
          | false =>
            obtain ⟨sound', empty', empty⟩ := more_false still filled
            rw [empty]
            exact ⟨fb', rfl, sound', empty'⟩
          | true =>
            obtain ⟨sound', same, some⟩ := more_true still filled
            obtain ⟨d, rest, first⟩ := List.exists_cons_of_ne_nil some
            rw [← same, unread, first, List.cons_append]
            dsimp only
            by_cases swallowed : d = '\n'
            · subst swallowed
              rw [first]
              exact ⟨_, rfl, sound', rfl⟩
            -- the CR ends the line and the byte behind it is left for the next
            · have kept : ¬ fb'.ahead.head? = Option.some '\n' := by
                rw [first, List.head?_cons]
                exact fun same => swallowed (Option.some.inj same)
              rw [if_neg kept]
              refine ⟨fb', ?_, sound', ?_⟩
              · split
                · next same => exact absurd (List.cons.inj same).1 swallowed
                · rfl
              · rw [unread, first, List.cons_append]
                split
                · next same => exact absurd (List.cons.inj same).1 swallowed
                · rfl
      · rw [if_neg cr]
        simp only [fbgetsLoop, if_neg lf, if_neg cr]
        cases filled : FileBuf.more ⟨ahead, reads, eof⟩ with
        | mk fb' answer =>
          cases answer with
          | false =>
            obtain ⟨sound', empty', empty⟩ := more_false still filled
            have nothing : fbgetsLoop n [] = ([], []) := by
              cases n <;> rfl
            rw [empty, nothing]
            exact ⟨fb', rfl, sound', empty'⟩
          | true =>
            obtain ⟨sound', same, some⟩ := more_true still filled
            obtain ⟨fb'', read, sound'', left⟩ := ih sound' some
            rw [same] at read left
            refine ⟨fb'', ?_, sound'', left⟩
            dsimp only
            rw [read, Option.map_some]

end FileBuf

def endsLine (c : Char) : Bool := c == '\n' || c == '\r'

/-- The characters before the end of the first line, `n` at most. -/
def lineText (n : Nat) (file : CStr) : CStr := (file.take n).takeWhile fun c => !endsLine c

/-- The first line of a file as it stands there: up to an LF, a CR LF or a CR, or `n`
characters. -/
def filePiece (n : Nat) (file : CStr) : CStr :=
  let text := lineText n file
  if text.length = n then text
  else
    match file.drop text.length with
    | '\r' :: '\n' :: _ => text ++ ['\r', '\n']
    | c :: _ => text ++ [c]
    | [] => text

def asLf : CStr → CStr
  | [] => []
  | ['\r'] => ['\n']
  | ['\r', '\n'] => ['\n']
  | c :: rest => c :: asLf rest

def filePieces (n : Nat) : Nat → CStr → List CStr × CStr
  | 0, file => ([], file)
  | count + 1, file =>
    let piece := filePiece n file
    let later := filePieces n count (file.drop piece.length)
    (piece :: later.1, later.2)

def splitFile (n : Nat) : Nat → CStr → List (Option CStr)
  | 0, _ => []
  | count + 1, file =>
    let piece := filePiece n file
    (if file = [] then none else some (asLf piece)) ::
      splitFile n count (file.drop piece.length)

theorem lineText_nil (n : Nat) : lineText n [] = [] := by
  rw [lineText, List.take_nil, List.takeWhile_nil]

theorem lineText_end {c : Char} (ends : endsLine c = true) (n : Nat) (rest : CStr) :
    lineText (n + 1) (c :: rest) = [] := by
  rw [lineText, List.take_succ_cons, List.takeWhile_cons, ends]
  rfl

theorem lineText_cons {c : Char} (plain : endsLine c = false) (n : Nat) (rest : CStr) :
    lineText (n + 1) (c :: rest) = c :: lineText n rest := by
  rw [lineText, List.take_succ_cons, List.takeWhile_cons, plain]
  rfl

theorem filePiece_zero (file : CStr) : filePiece 0 file = [] := rfl

theorem filePiece_nil (n : Nat) : filePiece n [] = [] := by
  simp only [filePiece, lineText_nil]
  split <;> rfl

theorem filePiece_cons {c : Char} (plain : endsLine c = false) (n : Nat) (rest : CStr) :
    filePiece (n + 1) (c :: rest) = c :: filePiece n rest := by
  simp only [filePiece, lineText_cons plain, List.length_cons, Nat.add_right_cancel_iff,
    List.drop_succ_cons]
  by_cases full : (lineText n rest).length = n
  · rw [if_pos full, if_pos full]
  · rw [if_neg full, if_neg full]
    split <;> rfl

theorem filePiece_end {c : Char} (ends : endsLine c = true) (n : Nat) (rest : CStr) :
    filePiece (n + 1) (c :: rest) =
      if c = '\r' ∧ rest.head? = some '\n' then ['\r', '\n'] else [c] := by
  simp only [filePiece, lineText_end ends, List.length_nil, List.drop_zero, List.nil_append]
  rw [if_neg (Nat.succ_ne_zero n).symm]
  cases rest with
  | nil =>
    rw [if_neg fun both => by cases both.2]
    split
    · next same => cases (List.cons.inj same).2
    · next same => rw [(List.cons.inj same).1]
    · next same => cases same
  | cons d rest =>
    rw [List.head?_cons]
    by_cases both : c = '\r' ∧ d = '\n'
    · obtain ⟨rfl, rfl⟩ := both
      rfl
    · have apart : ¬ (c = '\r' ∧ some d = some '\n') := fun same =>
        both ⟨same.1, Option.some.inj same.2⟩
      rw [if_neg apart]
      split
      · next same =>
        obtain ⟨first, second⟩ := List.cons.inj same
        exact absurd ⟨first, (List.cons.inj second).1⟩ both
      · next same => rw [(List.cons.inj same).1]
      · next same => cases same

theorem asLf_cons {c : Char} (plain : c ≠ '\r') (rest : CStr) : asLf (c :: rest) = c :: asLf rest := by
  rw [asLf]
  · exact fun same => absurd same plain
  · exact fun same => absurd same plain

theorem fbgetsLoop_eq (n : Nat) (file : CStr) :
    fbgetsLoop n file = (asLf (filePiece n file), file.drop (filePiece n file).length) := by
  induction n generalizing file with
  | zero =>
    rw [filePiece_zero]
    rfl
  | succ n ih =>
    cases file with
    | nil =>
      rw [filePiece_nil]
      rfl
    | cons c rest =>
      rw [fbgetsLoop.eq_def]
      dsimp only
      by_cases lf : c = '\n'
      · subst lf
        rw [filePiece_end rfl]
        rfl
      · rw [if_neg lf]
        -- a CR ends the line, and takes an LF right behind it
        by_cases cr : c = '\r'
        · subst cr
          rw [if_pos rfl, filePiece_end rfl]
          split
          · rfl
          · next other =>
            have alone : ¬ ('\r' = '\r' ∧ rest.head? = some '\n') := by
              intro both
              obtain ⟨rest', same⟩ := List.head?_eq_some_iff.mp both.2
              exact other rest' same
            rw [if_neg alone]
            rfl
        · have plain : endsLine c = false := by
            rw [endsLine, Bool.or_eq_false_iff, beq_eq_false_iff_ne, beq_eq_false_iff_ne]
            exact ⟨lf, cr⟩
          rw [if_neg cr, filePiece_cons plain, ih rest, asLf_cons cr]
          rfl

theorem filePiece_prefixed (n : Nat) (file : CStr) :
    filePiece n file ++ file.drop (filePiece n file).length = file := by
  induction n generalizing file with
  | zero => rfl
  | succ n ih =>
    cases file with
    | nil =>
      rw [filePiece_nil]
      rfl
    | cons c rest =>
      cases ends : endsLine c with
      | false =>
        rw [filePiece_cons ends, List.length_cons, List.drop_succ_cons, List.cons_append, ih]
      | true =>
        rw [filePiece_end ends]
        split
        · next both =>
          obtain ⟨rest', rfl⟩ := List.head?_eq_some_iff.mp both.2
          rw [both.1]
          rfl
        · rfl

/-- The pieces and the rest are the file: nothing is lost and nothing comes twice. -/
theorem filePieces_flatten (n count : Nat) (file : CStr) :
    (filePieces n count file).1.flatten ++ (filePieces n count file).2 = file := by
  induction count generalizing file with
  | zero => rfl
  | succ count ih =>
    rw [filePieces, List.flatten_cons, List.append_assoc, ih, filePiece_prefixed]

namespace FileBuf

theorem room_eq {len : Nat} (some : 0 < len) (word : len < 2 ^ 64) : room len = len - 1 := by
  rw [room]
  omega

theorem fbgets_eq {len : Nat} (some : 0 < len) (word : len < 2 ^ 64) {fb : FileBuf}
    (sound : fb.Sound) :
    ∃ fb', fb.fbgets len = Option.some (if fb.unread = [] then none
        else Option.some (asLf (filePiece (len - 1) fb.unread)), fb') ∧
      fb'.Sound ∧ fb'.unread = fb.unread.drop (filePiece (len - 1) fb.unread).length := by
  rw [fbgets]
  cases filled : fb.more with
  | mk fb' answer =>
    cases answer with
    | false =>
      obtain ⟨sound', empty', empty⟩ := more_false sound filled
      rw [empty, if_pos rfl, filePiece_nil]
      exact ⟨fb', rfl, sound', empty'⟩
    | true =>
      obtain ⟨sound', same, ahead⟩ := more_true sound filled
      have left : fb.unread ≠ [] := by
        rw [← same, unread]
        exact List.append_ne_nil_of_left_ne_nil ahead _
      obtain ⟨fb'', read, sound'', rest⟩ := line_eq (len - 1) sound' ahead
      rw [same, fbgetsLoop_eq] at read rest
      refine ⟨fb'', ?_, sound'', rest⟩
      dsimp only
      rw [room_eq some word, read, if_neg left, Option.map_some]

theorem calls_spec {len : Nat} (some : 0 < len) (word : len < 2 ^ 64) (count : Nat) {fb : FileBuf}
    (sound : fb.Sound) :
    ∃ fb', fb.calls len count = Option.some (splitFile (len - 1) count fb.unread, fb') ∧
      fb'.unread = (filePieces (len - 1) count fb.unread).2 := by
  induction count generalizing fb with
  | zero => exact ⟨fb, rfl, rfl⟩
  | succ count ih =>
    obtain ⟨next, called, sound', left⟩ := fbgets_eq some word sound
    obtain ⟨last, later, rest⟩ := ih sound'
    rw [left] at later rest
    refine ⟨last, ?_, rest⟩
    rw [calls, called, Option.bind_some, later, Option.map_some, splitFile]

/-- The strings that repeated calls of `fbgets` return are those of the reference, however
`read` has split the file, and what they have taken and what is left make up the file. -/
theorem calls_eq_reference {len : Nat} (some : 0 < len) (word : len < 2 ^ 64)
    (reads : List ReadBlock) (count : Nat) :
    ∃ fb, (fdbopen reads).calls len count =
        Option.some (splitFile (len - 1) count (reads.map Subtype.val).flatten, fb) ∧
      (filePieces (len - 1) count (reads.map Subtype.val).flatten).1.flatten ++ fb.unread =
        (reads.map Subtype.val).flatten := by
  have fresh : (fdbopen reads).Sound := fun eof => absurd eof Bool.false_ne_true
  obtain ⟨fb, called, left⟩ := calls_spec some word count fresh
  refine ⟨fb, called, ?_⟩
  rw [left]
  exact filePieces_flatten (len - 1) count _

def splitCr : List ReadBlock := [⟨lit "K:a\r", by decide⟩, ⟨lit "\nK:b\n", by decide⟩]

theorem calls_splitCr :
    ∃ fb, (fdbopen splitCr).calls 512 3 =
        some (splitFile 511 3 (splitCr.map Subtype.val).flatten, fb) ∧
      (filePieces 511 3 (splitCr.map Subtype.val).flatten).1.flatten ++ fb.unread =
        (splitCr.map Subtype.val).flatten :=
  calls_eq_reference (by decide) (by decide) splitCr 3

example : splitFile 511 3 (lit "K:a\r\nK:b\n") = [some (lit "K:a\n"), some (lit "K:b\n"), none] := by
  decide

end FileBuf

end Ircd
