import Ircd.Lib.Inflate
import Ircd.Net.Packet

/-! Whether a ziplink carries the lines of a plain link.

`Inflates` is what `zlib.h` says of `inflate`. `unzip_packet` copes with all that a read
inflates to as long as `unzipbuf` has room for it.
-/

set_option autoImplicit false

namespace Ircd

/-- `inflate` gives out the bytes that `decoded` makes of its input, each once and in order,
and stops for want of input or of room. -/
structure Inflates {Z : Type} (inflate : Z → CStr → Nat → Inflated Z) (decoded : CStr → CStr)
    (consumed : Z → CStr) (produced : Z → Nat) : Prop where
  grows : ∀ a b, decoded a <+: decoded (a ++ b)
  input : ∀ z buffer n,
    consumed (inflate z buffer n).zin ++ (inflate z buffer n).availIn = consumed z ++ buffer
  output : ∀ z buffer n, produced z ≤ (decoded (consumed z)).length →
    (decoded (consumed (inflate z buffer n).zin)).take
        (produced z + (inflate z buffer n).out.length) =
      (decoded (consumed z)).take (produced z) ++ (inflate z buffer n).out
  total : ∀ z buffer n, produced (inflate z buffer n).zin =
    produced z + (inflate z buffer n).out.length
  within : ∀ z buffer n, produced z ≤ (decoded (consumed z)).length →
    produced (inflate z buffer n).zin ≤ (decoded (consumed (inflate z buffer n).zin)).length
  room : ∀ z buffer n, (inflate z buffer n).out.length ≤ n
  all : ∀ z buffer n, (inflate z buffer n).out.length < n → (inflate z buffer n).availIn = [] ∧
    produced (inflate z buffer n).zin = (decoded (consumed (inflate z buffer n).zin)).length
  progress : ∀ z buffer n, 0 < n → buffer ≠ [] ∨ (inflate z buffer n).out ≠ [] →
    (inflate z buffer n).result = .ok
  starved : ∀ z n, (inflate z [] n).out = [] → (inflate z [] n).result = .bufError

def completesLine (buffer more : CStr) : Bool :=
  if buffer = [] then (more.dropWhile isEol).any isEol else more.any isEol

namespace Link

variable {W Z : Type} (env : LinkEnv W Z)

def readUnzipped (l : Link W Z) (buffer : CStr) : Link W Z :=
  let r := env.inflate l.zin buffer unzipBufferSize
  (feed env true r.out { l with zin := r.zin, zipFirst := false }).link

def readsUnzipped : Link W Z → List CStr → Link W Z
  | l, [] => l
  | l, buffer :: more => if l.exited then l else readsUnzipped (l.readUnzipped env buffer) more

/-- No read inflates to more than `unzipbuf` holds, up to the end of the client. -/
def Fits : Link W Z → List CStr → Prop
  | _, [] => True
  | l, buffer :: more =>
    l.exited = true ∨ (env.inflate l.zin buffer unzipBufferSize).availIn = [] ∧
      Fits (l.readUnzipped env buffer) more

structure Settled (p : W → Prop) : Prop where
  stays : ∀ w line, p w → p (env.parse w line).1
  never : ∀ w line deadSocket, p w → (env.parse w line).2 ≠ .running deadSocket true

variable {env}

structure Zipped (p : W → Prop) (l : Link W Z) : Prop where
  zip : l.zip = true
  alive : l.exited = false
  world : p l.world

structure Kept (p : W → Prop) (l l' : Link W Z) : Prop where
  zin : l'.zin = l.zin
  zip : l'.zip = l.zip
  zipFirst : l'.zipFirst = l.zipFirst
  world : l'.exited = false → p l'.world

variable {p : W → Prop} (settled : Settled env p)
include settled

theorem kept_handOver {l : Link W Z} (world : p l.world) : Kept p l (l.handOver env) := by
  have stays := settled.stays l.world l.buffer world
  have never := fun dead => settled.never l.world l.buffer dead world
  unfold Link.handOver
  generalize env.parse l.world l.buffer = result at stays never
  obtain ⟨w, result⟩ := result
  cases result with
  | clientExited => exact ⟨rfl, rfl, rfl, fun alive => by cases alive⟩
  | running dead starts =>
    have off : starts = false := by
      cases starts with
      | false => rfl
      | true => exact absurd rfl (never dead)
    subst off
    dsimp only
    split
    · exact ⟨rfl, Bool.or_false _, Bool.or_false _, fun alive => by cases alive⟩
    · exact ⟨rfl, Bool.or_false _, Bool.or_false _, fun _ => stays⟩

theorem kept_feed (bytes : CStr) {l : Link W Z} (alive : l.exited = false) (world : p l.world) :
    Kept p l (feed env true bytes l).link := by
  induction bytes generalizing l with
  | nil => exact ⟨rfl, rfl, rfl, fun _ => world⟩
  | cons g bytes ih =>
    rw [feed]
    split
    · split
      · exact ih alive world
      · have handed := kept_handOver settled world
        dsimp only
        cases exited : (l.handOver env).exited with
        | true =>
          rw [if_pos rfl]
          exact handed
        | false =>
          simp only [Bool.not_true, Bool.and_false, Bool.false_and, Bool.false_eq_true, if_false]
          have rest := ih exited (handed.world exited)
          exact ⟨rest.zin.trans handed.zin, rest.zip.trans handed.zip,
            rest.zipFirst.trans handed.zipFirst, rest.world⟩
    · split
      · have rest := @ih { l with buffer := l.buffer ++ [g] } alive world
        exact ⟨rest.zin, rest.zip, rest.zipFirst, rest.world⟩
      · exact ih alive world

omit settled

theorem feed_true_append (a b : CStr) {l : Link W Z} (alive : l.exited = false) :
    (feed env true (a ++ b) l).link =
      if (feed env true a l).link.exited then (feed env true a l).link
      else (feed env true b (feed env true a l).link).link := by
  rw [feed_append a b (.inl rfl)]
  have well := @feed_well W Z env true a l alive (.inl rfl)
  generalize feed env true a l = fed at well ⊢
  cases well with
  | done l alive stays => simp [Fed.link, alive]
  | clientExited l gone => simp [Fed.link, gone]

variable {decoded : CStr → CStr} {consumed : Z → CStr} {produced : Z → Nat}

theorem dopacket_zipped (inflates : Inflates env.inflate decoded consumed produced) {l : Link W Z}
    (zipped : Zipped p l) {buffer : CStr} (zipFirst : l.zipFirst = false) :
    l.dopacket env buffer = if (env.inflate l.zin buffer unzipBufferSize).availIn = [] then
      .ok (l.readUnzipped env buffer) else .error .overread := by
  have ch2 : (if l.zipFirst then skipEol buffer else buffer) = buffer := by
    rw [zipFirst]
    rfl
  have positive : 0 < unzipBufferSize := by decide
  have room := inflates.room l.zin buffer unzipBufferSize
  have all := inflates.all l.zin buffer unzipBufferSize
  have progress := inflates.progress l.zin buffer unzipBufferSize positive
  have starved : buffer = [] → (env.inflate l.zin buffer unzipBufferSize).out = [] →
      (env.inflate l.zin buffer unzipBufferSize).result = .bufError := by
    rintro rfl
    exact inflates.starved l.zin unzipBufferSize
  unfold dopacket
  rw [ch2]
  dsimp only
  rw [zipped.zip, if_pos rfl]
  unfold takeUnzipped unzipPacket readUnzipped
  dsimp only
  rw [zipped.zip]
  generalize env.inflate l.zin buffer unzipBufferSize = r at room all progress starved ⊢
  -- all of the input is taken, or the output buffer is full
  by_cases whole : r.availIn = []
  · rw [if_pos whole]
    by_cases nothing : buffer = [] ∧ r.out = []
    · -- there was nothing to inflate
      have short : ¬ ([] : CStr).length = unzipBufferSize := by decide
      simp only [starved nothing.1 nothing.2, nothing.1, nothing.2, if_neg short]
      rfl
    · have ok : r.result = .ok := progress (by
        by_contra none
        rw [not_or, not_not, not_not] at none
        exact nothing none)
      have long : ¬ ((r.out.length : Int) = -1) := by omega
      simp only [ok, whole, bind, Except.bind, if_neg long, ne_eq, not_true_eq_false, if_false]
      cases feed env true r.out _ <;> rfl
  · have full : r.out.length = unzipBufferSize := by
      by_contra less
      exact whole (all (by omega)).1
    have some : r.out ≠ [] := by
      intro none
      rw [none, List.length_nil] at full
      omega
    simp [progress (.inr some), whole, full, bind, Except.bind]

structure Alike (l l' : Link W Z) : Prop where
  world : l.world = l'.world
  buffer : l.buffer = l'.buffer
  lines : l.lines = l'.lines
  exited : l.exited = l'.exited

theorem Alike.handOver {l l' : Link W Z} (h : Alike l l') :
    Alike (l.handOver env) (l'.handOver env) := by
  unfold Link.handOver
  rw [h.world, h.buffer, h.lines]
  generalize env.parse l'.world l'.buffer = result
  obtain ⟨w, result⟩ := result
  cases result with
  | clientExited => exact ⟨rfl, rfl, rfl, rfl⟩
  | running dead starts =>
    cases dead with
    | false => exact ⟨rfl, rfl, rfl, h.exited⟩
    | true => exact ⟨rfl, rfl, rfl, rfl⟩

theorem Alike.feed {l l' : Link W Z} (h : Alike l l') (bytes : CStr) :
    Alike (feed env true bytes l).link (feed env true bytes l').link := by
  induction bytes generalizing l l' with
  | nil => exact h
  | cons g bytes ih =>
    rw [Link.feed, Link.feed, h.buffer]
    split
    · split
      · exact ih h
      · have handed : Alike (l.handOver env) (l'.handOver env) := h.handOver
        dsimp only
        rw [← handed.exited]
        split
        · exact handed
        · simp only [Bool.not_true, Bool.and_false, Bool.false_and, Bool.false_eq_true, if_false]
          exact ih handed
    · split
      · exact ih ⟨h.world, rfl, h.lines, h.exited⟩
      · exact ih h

theorem lines_handOver (l : Link W Z) : (l.handOver env).lines = l.lines ++ [l.buffer] := by
  unfold Link.handOver
  generalize env.parse l.world l.buffer = result
  obtain ⟨w, result⟩ := result
  cases result with
  | clientExited => rfl
  | running dead starts => cases dead <;> rfl

theorem lines_feed (bytes : CStr) (l : Link W Z) :
    l.lines <+: (feed env true bytes l).link.lines := by
  induction bytes generalizing l with
  | nil => exact List.prefix_refl _
  | cons g bytes ih =>
    rw [Link.feed]
    have handed : l.lines <+: (l.handOver env).lines := by
      rw [lines_handOver]
      exact List.prefix_append _ _
    split
    · split
      · exact ih l
      · dsimp only
        split
        · exact handed
        · simp only [Bool.not_true, Bool.and_false, Bool.false_and, Bool.false_eq_true, if_false]
          exact handed.trans (ih _)
    · split
      · exact ih { l with buffer := l.buffer ++ [g] }
      · exact ih l

theorem lines_feed_eq_iff (bytes : CStr) (l : Link W Z) :
    (feed env true bytes l).link.lines = l.lines ↔ completesLine l.buffer bytes = false := by
  induction bytes generalizing l with
  | nil => simp [feed, Fed.link, completesLine]
  | cons g bytes ih =>
    rw [Link.feed]
    -- a line is handed over at its end, unless nothing stands before it
    by_cases eol : isEol g = true
    · rw [if_pos eol]
      by_cases empty : l.buffer = []
      · rw [if_pos empty, ih]
        simp [completesLine, empty, eol]
      · rw [if_neg empty]
        refine iff_of_false (fun same => ?_) (by simp [completesLine, empty, eol])
        have longer : (l.handOver env).lines <+:
            (if (l.handOver env).exited then Fed.clientExited (l.handOver env)
              else if (l.handOver env).zip && !true && !bytes.isEmpty then
                .unzip bytes (l.handOver env)
              else feed env true bytes (l.handOver env)).link.lines := by
          split
          · exact List.prefix_refl _
          · simp only [Bool.not_true, Bool.and_false, Bool.false_and, Bool.false_eq_true, if_false]
            exact lines_feed bytes _
        have size := longer.length_le
        rw [lines_handOver, List.length_append] at size
        have equal := congrArg List.length same
        dsimp only at equal
        simp only [List.length_singleton] at size
        omega
    · rw [if_neg eol]
      have more : ∀ l' : Link W Z, l'.lines = l.lines →
          (completesLine l'.buffer bytes = completesLine l.buffer (g :: bytes)) →
          ((feed env true bytes l').link.lines = l.lines ↔
            completesLine l.buffer (g :: bytes) = false) := by
        intro l' lines completes
        rw [← lines, ih l', completes]
      split
      · refine more { l with buffer := l.buffer ++ [g] } rfl ?_
        simp [completesLine, eol]
      · next long =>
        have some : l.buffer ≠ [] := by
          intro none
          rw [none] at long
          exact long (by decide)
        refine more l rfl ?_
        simp [completesLine, some, eol]

section

variable (settled : Settled env p) (inflates : Inflates env.inflate decoded consumed produced)
include settled

theorem kept_readUnzipped {l : Link W Z} (zipped : Zipped p l) (buffer : CStr) :
    Kept p { l with zin := (env.inflate l.zin buffer unzipBufferSize).zin, zipFirst := false }
      (l.readUnzipped env buffer) :=
  kept_feed settled _ zipped.alive zipped.world

include inflates

theorem reads_zipped (rs : List CStr) {l : Link W Z} (zip : l.zip = true)
    (world : l.exited = false → p l.world) (zipFirst : l.zipFirst = false) :
    (Fits env l rs → l.reads env rs = .ok (readsUnzipped env l rs)) ∧
      (¬ Fits env l rs → l.reads env rs = .error .overread) := by
  induction rs generalizing l with
  | nil => exact ⟨fun _ => rfl, fun no => absurd trivial no⟩
  | cons buffer more ih =>
    cases exited : l.exited with
    | true =>
      have stop : l.reads env (buffer :: more) = .ok l := by rw [reads, if_pos exited]
      constructor
      · intro _
        rw [stop, readsUnzipped, if_pos exited]
      · intro no
        exact absurd (.inl exited) no
    | false =>
      have zipped : Zipped p l := ⟨zip, exited, world exited⟩
      have kept := kept_readUnzipped settled zipped buffer
      have rest := ih (kept.zip.trans zip) kept.world kept.zipFirst
      have one := @dopacket_zipped _ _ _ _ _ _ _ inflates l zipped buffer zipFirst
      have alive : ¬ l.exited = true := by simp [exited]
      rw [reads, if_neg alive, one, readsUnzipped, if_neg alive, Fits]
      -- `unzip_packet` must take all of the read; what is left over is read past
      by_cases whole : (env.inflate l.zin buffer unzipBufferSize).availIn = []
      · rw [if_pos whole]
        constructor
        · intro fits
          exact rest.1 (fits.resolve_left alive).2
        · intro no
          exact rest.2 fun fits => no (.inr ⟨whole, fits⟩)
      · rw [if_neg whole]
        constructor
        · intro fits
          exact absurd (fits.resolve_left alive).1 whole
        · intro _
          rfl

/-- What `parse` has seen is the beginning of the decoded stream, and on a link that is alive
it is all that zlib has given out. -/
theorem readsUnzipped_alike (rs : List CStr) {l start : Link W Z} (zip : l.zip = true)
    (world : l.exited = false → p l.world) (alive : start.exited = false)
    (out : produced l.zin ≤ (decoded (consumed l.zin)).length)
    (alike : Alike l (feed env true ((decoded (consumed l.zin)).take (produced l.zin)) start).link)
    (fits : Fits env l rs) :
    ∃ given rest, decoded (consumed l.zin ++ rs.flatten) = given ++ rest ∧
      Alike (readsUnzipped env l rs) (feed env true given start).link ∧
      ((readsUnzipped env l rs).exited = false →
        rest = (decoded (consumed l.zin ++ rs.flatten)).drop
          (produced (readsUnzipped env l rs).zin)) := by
  induction rs generalizing l with
  | nil =>
    refine ⟨_, _, ?_, alike, fun _ => rfl⟩
    rw [readsUnzipped, List.flatten_nil, List.append_nil, List.take_append_drop]
  | cons buffer more ih =>
    cases exited : l.exited with
    | true =>
      obtain ⟨later, longer⟩ := inflates.grows (consumed l.zin) (buffer :: more).flatten
      rw [readsUnzipped, if_pos exited, exited]
      refine ⟨_, (decoded (consumed l.zin)).drop (produced l.zin) ++ later, ?_, alike, fun on => by
        cases on⟩
      rw [← List.append_assoc, List.take_append_drop, longer]
    | false =>
      have running : ¬ l.exited = true := by simp [exited]
      obtain ⟨whole, fits⟩ := fits.resolve_left running
      have zipped : Zipped p l := ⟨zip, exited, world exited⟩
      have kept := kept_readUnzipped settled zipped buffer
      have within := inflates.within l.zin buffer unzipBufferSize out
      have output := inflates.output l.zin buffer unzipBufferSize out
      have total := inflates.total l.zin buffer unzipBufferSize
      have input := inflates.input l.zin buffer unzipBufferSize
      rw [whole, List.append_nil] at input
      have zin : (l.readUnzipped env buffer).zin =
        (env.inflate l.zin buffer unzipBufferSize).zin := kept.zin
      -- what comes out now is the next piece of the text, so the two feeds go on together
      have next : Alike (l.readUnzipped env buffer) (feed env true
          ((decoded (consumed (l.readUnzipped env buffer).zin)).take
            (produced (l.readUnzipped env buffer).zin)) start).link := by
        have gone : (feed env true ((decoded (consumed l.zin)).take (produced l.zin))
            start).link.exited = false := alike.exited.symm.trans exited
        rw [zin, total, output, feed_true_append _ _ alive, if_neg (by simp [gone])]
        have same : Alike { l with
            zin := (env.inflate l.zin buffer unzipBufferSize).zin, zipFirst := false }
            (feed env true ((decoded (consumed l.zin)).take (produced l.zin)) start).link :=
          ⟨alike.world, alike.buffer, alike.lines, alike.exited⟩
        exact same.feed _
      have rest := ih (kept.zip.trans zip) kept.world (by rw [zin]; exact within) next fits
      rw [readsUnzipped, if_neg running, List.flatten_cons, ← List.append_assoc, ← input, ← zin]
      exact rest

end

/-- The reads that follow the switch, when `rest` is what its own read has left. -/
def afterSwitch (rest : CStr) (more : List CStr) : List CStr :=
  if rest = [] then more else rest :: more

def compressed : List CStr → List CStr
  | [] => []
  | buffer :: more => skipEol buffer :: more

theorem flatten_compressed {rs : List CStr} (some : ∀ buffer ∈ rs, buffer ≠ []) {tail comp : CStr}
    (stream : rs.flatten = tail ++ comp) (eol : tail = [] ∨ ∃ c, isEol c = true ∧ tail = [c])
    (header : ∀ c ∈ comp.head?, isEol c = false) : (compressed rs).flatten = comp := by
  cases rs with
  | nil =>
    obtain ⟨_, none⟩ := List.append_eq_nil_iff.mp stream.symm
    exact none.symm
  | cons buffer more =>
    cases buffer with
    | nil => exact absurd rfl (some [] List.mem_cons_self)
    | cons c rest =>
      rw [compressed, skipEol, List.flatten_cons]
      rw [List.flatten_cons, List.cons_append] at stream
      obtain rfl | ⟨e, isE, rfl⟩ := eol
      · rw [List.nil_append] at stream
        have plain : isEol c = false := header c (by rw [← stream]; rfl)
        rw [plain, if_neg Bool.false_ne_true, ← stream, List.cons_append]
      · obtain ⟨rfl, rest⟩ := List.cons.inj stream
        rw [if_pos isE]
        exact rest

theorem handOver_zipFirst {l : Link W Z} (same : l.zip = l.zipFirst) :
    (l.handOver env).zip = (l.handOver env).zipFirst := by
  unfold Link.handOver
  generalize env.parse l.world l.buffer = result
  obtain ⟨w, result⟩ := result
  cases result with
  | clientExited => exact same
  | running dead starts => cases dead <;> exact congrArg (· || starts) same

theorem feed_false_append (a b : CStr) {l : Link W Z} (zip : l.zip = false) :
    feed env false (a ++ b) l =
      match feed env false a l with
      | .done l => if l.zip && !b.isEmpty then .unzip b l else feed env false b l
      | .clientExited l => .clientExited l
      | .unzip rest l => .unzip (rest ++ b) l := by
  induction a generalizing l with
  | nil => simp [feed, zip]
  | cons g a ih =>
    rw [List.cons_append, feed, feed]
    by_cases eol : isEol g = true
    · simp only [eol, if_true]
      by_cases empty : l.buffer = []
      · simp only [empty, if_true]
        exact ih zip
      · simp only [empty, if_false]
        cases exited : (l.handOver env).exited with
        | true => rfl
        | false =>
          cases on : (l.handOver env).zip with
          | false =>
            simp only [Bool.false_and, Bool.false_eq_true, if_false]
            exact ih on
          | true =>
            cases a with
            | nil => simp [feed, on]
            | cons h a => simp
    · simp only [eol, Bool.false_eq_true, if_false]
      split
      · exact @ih { l with buffer := l.buffer ++ [g] } zip
      · exact ih zip

theorem feed_done (bytes : CStr) {l l' : Link W Z} (done : feed env false bytes l = .done l')
    (alive : l.exited = false) (same : l.zip = l.zipFirst) :
    l'.exited = false ∧ l'.zip = l'.zipFirst := by
  induction bytes generalizing l with
  | nil =>
    cases done
    exact ⟨alive, same⟩
  | cons g bytes ih =>
    rw [feed] at done
    split at done
    · split at done
      · exact ih done alive same
      · dsimp only at done
        split at done
        · cases done
        · next running =>
          split at done
          · cases done
          · exact ih done (by simpa using running) (handOver_zipFirst same)
    · split at done
      · exact @ih { l with buffer := l.buffer ++ [g] } done alive same
      · exact ih done alive same

theorem dopacket_zipFirst (l : Link W Z) (zipFirst : l.zipFirst = true) (buffer : CStr) :
    l.dopacket env buffer = { l with zipFirst := false }.dopacket env (skipEol buffer) := by
  unfold dopacket
  rw [zipFirst]
  rfl

theorem reads_zipFirst {l : Link W Z} (zipFirst : l.zipFirst = true) (alive : l.exited = false)
    {rs : List CStr} (some : rs ≠ []) :
    l.reads env rs = { l with zipFirst := false }.reads env (compressed rs) := by
  cases rs with
  | nil => exact absurd rfl some
  | cons buffer more =>
    have running : ¬ l.exited = true := by simp [alive]
    rw [compressed, reads, reads, if_neg running, if_neg running, dopacket_zipFirst l zipFirst]

theorem dopacket_unzipped {l : Link W Z} (plain : Plain l) (buffer : CStr) :
    l.dopacket env buffer =
      match feed env false buffer l with
      | .done l => .ok l
      | .clientExited l => .ok l
      | .unzip rest l => { l with zipFirst := false }.takeUnzipped env (skipEol rest) := by
  obtain ⟨zip, zipFirst⟩ := plain
  cases l with
  | mk world buffer' zip' zipFirst' capZip zin lines exited =>
    dsimp only at zip zipFirst
    subst zip zipFirst
    rfl

/-- However the reads cut the handshake, the link that it leaves reads on from there. -/
theorem reads_switch {before : List CStr} {b rest : CStr} {more : List CStr} {l start : Link W Z}
    (plain : Plain l) (alive : l.exited = false) (some : b ≠ [])
    (hello : feed env false (before.flatten ++ b) l = .done start) (zip : start.zip = true) :
    l.reads env (before ++ (b ++ rest) :: more) = start.reads env (afterSwitch rest more) := by
  induction before generalizing l with
  | nil =>
    have running : ¬ l.exited = true := by simp [alive]
    rw [List.flatten_nil, List.nil_append] at hello
    obtain ⟨on, first⟩ := feed_done b hello alive (plain.zip.trans plain.zipFirst.symm)
    have zipFirst : start.zipFirst = true := first.symm.trans zip
    have whole := @feed_false_append _ _ env b rest l plain.zip
    rw [hello] at whole
    dsimp only at whole
    rw [zip] at whole
    rw [List.nil_append, reads, if_neg running, afterSwitch, dopacket_unzipped plain]
    cases rest with
    | nil =>
      rw [whole]
      rfl
    | cons c rest =>
      have cut : feed env false (b ++ c :: rest) l = .unzip (c :: rest) start :=
        whole.trans (if_pos rfl)
      have one : start.dopacket env (c :: rest) =
          { start with zipFirst := false }.takeUnzipped env (skipEol (c :: rest)) := by
        unfold dopacket
        simp [zip, zipFirst]
      rw [cut, if_neg (List.cons_ne_nil _ _), reads, if_neg (by simp [on]), one]
  | cons a before ih =>
    have running : ¬ l.exited = true := by simp [alive]
    rw [List.flatten_cons, List.append_assoc] at hello
    have whole := @feed_false_append _ _ env a (before.flatten ++ b) l plain.zip
    have left : (before.flatten ++ b).isEmpty = false := by
      cases b with
      | nil => exact absurd rfl some
      | cons c b => simp
    rw [hello] at whole
    rw [List.cons_append, reads, if_neg running, dopacket_unzipped plain]
    -- before the handshake is whole no line of it can end the client or begin to zip
    cases first : feed env false a l with
    | clientExited l' =>
      rw [first] at whole
      cases whole
    | unzip rest l' =>
      rw [first] at whole
      cases whole
    | done l' =>
      rw [first] at whole
      dsimp only at whole
      obtain ⟨alive', same⟩ := feed_done a first alive (plain.zip.trans plain.zipFirst.symm)
      cases off : l'.zip with
      | true =>
        rw [left, off] at whole
        cases whole
      | false =>
        rw [off] at whole
        exact ih ⟨off, same.symm.trans off⟩ alive' whole.symm

def unzipped (l : Link W Z) : Link W Z := { l with zip := false, zipFirst := false }

section

variable (settled : Settled env p)
include settled

theorem plain_handOver {l : Link W Z} (world : p l.world) (plain : Plain l) :
    Plain (l.handOver env) := by
  have kept := kept_handOver settled world
  exact ⟨kept.zip.trans plain.zip, kept.zipFirst.trans plain.zipFirst⟩

theorem Alike.feed_plain (bytes : CStr) {l l' : Link W Z} (h : Alike l l') (world : p l.world)
    (plain : Plain l') :
    Alike (Link.feed env true bytes l).link (Link.feed env false bytes l').link ∧
      ∀ rest l'', Link.feed env false bytes l' ≠ .unzip rest l'' := by
  induction bytes generalizing l l' with
  | nil => exact ⟨h, fun _ _ no => by cases no⟩
  | cons g bytes ih =>
    rw [Link.feed, Link.feed, h.buffer]
    split
    · split
      · exact ih h world plain
      · have handed : Alike (l.handOver env) (l'.handOver env) := h.handOver
        have kept := kept_handOver settled world
        have plain' := plain_handOver settled (h.world ▸ world) plain
        dsimp only
        rw [← handed.exited]
        cases exited : (l.handOver env).exited with
        | true =>
          rw [if_pos rfl, if_pos rfl]
          exact ⟨handed, fun _ _ no => by cases no⟩
        | false =>
          simp only [plain'.zip, Bool.not_true, Bool.and_false, Bool.false_and, Bool.false_eq_true,
            if_false]
          exact ih handed (kept.world exited) plain'
    · split
      · exact ih ⟨h.world, rfl, h.lines, h.exited⟩ world ⟨plain.zip, plain.zipFirst⟩
      · exact ih h world plain

theorem dopacket_plainly {l : Link W Z} (world : p l.world) (bytes : CStr) :
    ∃ l', (unzipped l).dopacket env bytes = .ok l' ∧
      l'.lines = (feed env true bytes l).link.lines := by
  have plain : Plain (unzipped l) := ⟨rfl, rfl⟩
  have same : Alike l (unzipped l) := ⟨rfl, rfl, rfl, rfl⟩
  obtain ⟨alike, straight⟩ := same.feed_plain settled bytes world plain
  rw [dopacket_unzipped plain]
  cases run : feed env false bytes (unzipped l) with
  | done l' =>
    rw [run] at alike
    exact ⟨l', rfl, alike.lines.symm⟩
  | clientExited l' =>
    rw [run] at alike
    exact ⟨l', rfl, alike.lines.symm⟩
  | unzip rest l' => exact absurd run (straight rest l')

end

def Flushed (decoded : CStr → CStr) (produced : Z → Nat) (comp : CStr) (l : Link W Z) : Prop :=
  l.exited = true ∨ completesLine l.buffer ((decoded comp).drop (produced l.zin)) = false

theorem reads_zipped_iff (settled : Settled env p)
    (inflates : Inflates env.inflate decoded consumed produced) {l : Link W Z}
    (zipped : Zipped p l) (zipFirst : l.zipFirst = false)
    (fresh : consumed l.zin = [] ∧ produced l.zin = 0) (rs : List CStr) :
    (∃ last, l.reads env rs = .ok last ∧
        last.lines = (feed env true (decoded rs.flatten) l).link.lines) ↔
      Fits env l rs ∧ Flushed decoded produced rs.flatten (readsUnzipped env l rs) := by
  obtain ⟨goes, stops⟩ :=
    reads_zipped settled inflates rs zipped.zip (fun _ => zipped.world) zipFirst
  by_cases fits : Fits env l rs
  · have begin : Alike l (feed env true
        ((decoded (consumed l.zin)).take (produced l.zin)) l).link := by
      rw [fresh.2, List.take_zero]
      exact ⟨rfl, rfl, rfl, rfl⟩
    obtain ⟨given, rest, whole, alike, left⟩ := readsUnzipped_alike settled inflates rs zipped.zip
      (fun _ => zipped.world) zipped.alive (by omega) begin fits
    rw [fresh.1, List.nil_append] at whole left
    rw [goes fits, whole, feed_true_append _ _ zipped.alive, ← alike.exited, Flushed]
    cases exited : (readsUnzipped env l rs).exited with
    | true =>
      rw [if_pos rfl]
      exact iff_of_true ⟨_, rfl, alike.lines⟩ ⟨fits, .inl rfl⟩
    | false =>
      rw [if_neg Bool.false_ne_true, ← left exited, alike.buffer, ← @lines_feed_eq_iff _ _ env]
      constructor
      · rintro ⟨last, same, lines⟩
        cases same
        exact ⟨fits, .inr (lines.symm.trans alike.lines)⟩
      · rintro ⟨_, flushed⟩
        have lines := flushed.resolve_left Bool.false_ne_true
        exact ⟨_, rfl, alike.lines.trans lines.symm⟩
  · rw [stops fits]
    refine iff_of_false ?_ fun both => fits both.1
    rintro ⟨last, no, _⟩
    cases no

end Link

/-- A stream of `zlib`: what it has taken, and how much of its text it has given out. -/
structure ZStream {S : Type} (d : Decoder S Char Char) where
  input : CStr
  given : Nat
  within : given ≤ (d.decode input).length

namespace ZStream

variable {S : Type} {d : Decoder S Char Char}

def fresh : ZStream d := { input := [], given := 0, within := Nat.zero_le _ }

/-- The input that is taken: up to the first byte that makes more than there is room for. -/
def taken (z : ZStream d) (buffer : CStr) (room : Nat) : CStr :=
  d.pull (z.given + room) z.input buffer

def out (z : ZStream d) (buffer : CStr) (room : Nat) : CStr :=
  ((d.decode (z.input ++ z.taken buffer room)).drop z.given).take room

theorem given_le (z : ZStream d) (more : CStr) : z.given ≤ (d.decode (z.input ++ more)).length :=
  z.within.trans (d.decode_prefix z.input more).length_le

theorem length_out (z : ZStream d) (buffer : CStr) (room : Nat) : (z.out buffer room).length =
    min room ((d.decode (z.input ++ z.taken buffer room)).length - z.given) := by
  rw [out, List.length_take, List.length_drop]

def inflate (z : ZStream d) (buffer : CStr) (room : Nat) : Inflated (ZStream d) where
  zin :=
    { input := z.input ++ z.taken buffer room
      given := z.given + (z.out buffer room).length
      within := by
        have before := z.given_le (z.taken buffer room)
        have size := z.length_out buffer room
        omega }
  availIn := buffer.drop (z.taken buffer room).length
  out := z.out buffer room
  result := if z.taken buffer room = [] ∧ z.out buffer room = [] then .bufError else .ok

/-- Where there is room left, all of the input has been taken and all of its text is out. -/
theorem out_short (z : ZStream d) {buffer : CStr} {room : Nat}
    (less : (z.out buffer room).length < room) : z.taken buffer room = buffer ∧
      z.given + (z.out buffer room).length = (d.decode (z.input ++ buffer)).length := by
  have before := z.given_le (z.taken buffer room)
  have size := z.length_out buffer room
  have all : z.taken buffer room = buffer := by
    apply Decoder.pull_of_le
    change (d.decode (z.input ++ z.taken buffer room)).length ≤ _
    omega
  rw [all] at before size
  exact ⟨all, by omega⟩

/-- Where the first bytes make more than there is room for, what follows them is left. -/
theorem availIn_inflate_ne (z : ZStream d) {first rest : CStr} {room : Nat} (some : rest ≠ [])
    (full : z.given + room < (d.decode (z.input ++ first)).length) :
    (z.inflate (first ++ rest) room).availIn ≠ [] := by
  have few : (d.pull (z.given + room) z.input (first ++ rest)).length ≤ first.length :=
    Decoder.length_pull_le full
  have more := List.length_pos_iff.2 some
  intro whole
  have all := List.drop_eq_nil_iff.1 whole
  rw [List.length_append] at all
  rw [taken] at all
  omega

theorem inflates : Inflates (@inflate S d) d.decode ZStream.input ZStream.given where
  grows a b := d.decode_prefix a b
  input z buffer n := by
    simp only [inflate]
    rw [List.append_assoc]
    exact congrArg (z.input ++ ·) (Decoder.pull_append_drop z.input buffer)
  output z buffer n _ := by
    have before : (d.decode z.input).take z.given =
        (d.decode (z.input ++ z.taken buffer n)).take z.given := by
      obtain ⟨rest, more⟩ := d.decode_prefix z.input (z.taken buffer n)
      rw [← more, List.take_append_of_le_length z.within]
    simp only [inflate]
    rw [before, List.take_add, length_out]
    congr 1
    rw [out, List.take_eq_take_iff, List.length_drop]
    omega
  total z buffer n := rfl
  within z buffer n _ := (z.inflate buffer n).zin.within
  room z buffer n := by
    simp only [inflate]
    rw [length_out]
    exact Nat.min_le_left _ _
  all z buffer n less := by
    obtain ⟨all, out⟩ := z.out_short less
    simp only [inflate]
    rw [all] at *
    exact ⟨List.drop_length, out⟩
  progress z buffer n room some := by
    simp only [inflate] at some ⊢
    refine if_neg fun nothing => ?_
    -- nothing given with room left means that all of the input was taken
    have less : (z.out buffer n).length < n := by
      rw [nothing.2]
      exact room
    obtain ⟨all, -⟩ := z.out_short less
    exact some.elim (absurd (all.symm.trans nothing.1)) (absurd nothing.2)
  starved z n none := by
    have empty : z.out [] n = [] := none
    simp [inflate, empty, taken, Decoder.pull]

end ZStream

abbrev InflateStream := ZStream Deflate.inflater

def zippingEnv : LinkEnv Bool InflateStream where
  parse w line := if w = false ∧ line = lit "SERVER" then (true, .running false true)
    else (w, .running false false)
  exitClient := id
  inflate := ZStream.inflate

def zippingLink : Link Bool InflateStream where
  world := false
  buffer := []
  zip := false
  zipFirst := false
  capZip := true
  zin := .fresh
  lines := []
  exited := false

def zippedLink : Link Bool InflateStream :=
  { zippingLink with world := true, zip := true, zipFirst := true, lines := [lit "SERVER"] }

theorem zippingEnv_settled : Link.Settled zippingEnv (· = true) where
  stays w line on := by
    subst on
    rfl
  never w line dead on no := by
    subst on
    cases no

theorem zippingLink_hello :
    Link.feed zippingEnv false (lit "SERVER\r") zippingLink = .done zippedLink := by
  rfl

def bytesOf (codes : List Nat) : CStr := codes.map Char.ofNat

/-- Two lines and a part of one, as `deflate` compresses them. -/
def deflatedPings : CStr := bytesOf [0x78, 0x5e, 0x0a, 0xf0, 0xf4, 0x73, 0x57, 0xb0, 0x4a, 0xe4, 0xe5,
  0x0a, 0x00, 0x33, 0x92, 0x80, 0x0c, 0x80, 0x00]

/-- An `x` and many ends of lines, as `deflate` begins to compress them. -/
def deflatedLines (n : Nat) : CStr :=
  bytesOf [0x78, 0x01, 0xaa, 0xe0, 0x1a] ++ (List.replicate n (bytesOf [0x05, 0xa3, 0x60, 0x14, 0x8c,
    0x82, 0x51, 0x30, 0x0a, 0x46, 0xc1, 0x28, 0x18])).flatten

theorem inflate_deflatedLines (n : Nat) : Deflate.inflater.decode (deflatedLines n) =
    'x' :: '\n' :: List.replicate (n * 2064) '\n' := by
  have opening : Deflate.tokens.run Deflate.tokens.start (bytesOf [0x78, 0x01, 0xaa, 0xe0, 0x1a]) =
      ((.codes false, [true, true, false, false, false]), [.literal 'x', .literal '\n']) := by
    decide +kernel
  -- thirteen bytes are eight copies, and the bits that are left over are the same again
  have again : Deflate.tokens.run (.codes false, [true, true, false, false, false])
      (bytesOf [0x05, 0xa3, 0x60, 0x14, 0x8c, 0x82, 0x51, 0x30, 0x0a, 0x46, 0xc1, 0x28, 0x18]) =
      ((.codes false, [true, true, false, false, false]), List.replicate 8 (.copy 258 1)) := by
    decide +kernel
  have tokens : Deflate.tokens.decode (deflatedLines n) =
      [.literal 'x', .literal '\n'] ++ List.replicate (n * 8) (.copy 258 1) := by
    rw [Decoder.decode, deflatedLines, Decoder.run_append, opening, Decoder.run_replicate _ again,
      List.flatten_replicate_replicate]
  obtain ⟨window, copies⟩ := Deflate.run_copies (n * 8) 258 '\n' ['x']
  rw [Deflate.inflater, Decoder.decode_comp, tokens, Decoder.decode, Decoder.run_append]
  change 'x' :: '\n' :: (Deflate.text.run (some ['\n', 'x']) _).2 = _
  rw [copies, Nat.mul_assoc]

def manyLines : CStr := deflatedLines 73

end Ircd
