import Ircd.Net.Dbuf

/-! `packet.c` and `unzip_packet` of `s_zip.c`: what arrives on a server link is cut into
lines.

`parse` and zlib stand outside. A link keeps the bytes of a line that has not ended yet, so
a read may end anywhere.
-/

set_option autoImplicit false

namespace Ircd

/-- What `parse` leaves behind: no client, or a socket that may be dead and a link that it
may have begun to zip. -/
inductive ParseResult where
  | clientExited
  | running (deadSocket startsZip : Bool)
  deriving DecidableEq, Repr

/-- The results of `inflate` that `unzip_packet` tells apart. -/
inductive ZResult where
  | ok
  | bufError
  | dataError
  | otherError
  deriving DecidableEq, Repr

/-- The stream after a call of `inflate`, the input that is left and what came out. -/
structure Inflated (Z : Type) where
  zin : Z
  availIn : CStr
  out : CStr
  result : ZResult

structure LinkEnv (W Z : Type) where
  parse : W → CStr → W × ParseResult
  exitClient : W → W
  inflate : Z → CStr → Nat → Inflated Z

/-- A directly linked client; `buffer` has the `count` bytes of the line under way, and
`lines` what has been handed to `parse`. -/
structure Link (W Z : Type) where
  world : W
  buffer : CStr
  zip : Bool
  zipFirst : Bool
  capZip : Bool
  zin : Z
  lines : List CStr
  exited : Bool

def clientBufsize : Nat := 512

/-- `UNZIP_BUFFER_SIZE`: six times `ZIP_MAXIMUM + READBUF_SIZE`. -/
def unzipBufferSize : Nat := 6 * (8192 + 16384)

inductive LinkFault where
  /-- `zin->next_out[0]` behind a full `unzipbuf`. -/
  | overread
  /-- The null pointer that `unzip_packet` returns with a length. -/
  | nullRead
  deriving DecidableEq, Repr

namespace Link

variable {W Z : Type}

/-- How the loop over a buffer ends; at `unzip` the rest is compressed. -/
inductive Fed (W Z : Type) where
  | done (l : Link W Z)
  | clientExited (l : Link W Z)
  | unzip (rest : CStr) (l : Link W Z)

def exit (env : LinkEnv W Z) (l : Link W Z) : Link W Z :=
  { l with world := env.exitClient l.world, exited := true }

def handOver (env : LinkEnv W Z) (l : Link W Z) : Link W Z :=
  let (world, result) := env.parse l.world l.buffer
  let l := { l with world, buffer := [], lines := l.lines ++ [l.buffer] }
  match result with
  | .clientExited => { l with exited := true }
  | .running deadSocket startsZip =>
    let l := { l with zip := l.zip || startsZip, zipFirst := l.zipFirst || startsZip }
    if deadSocket then l.exit env else l

/-- The loop of `dopacket` over the bytes of a buffer. -/
def feed (env : LinkEnv W Z) (zipped : Bool) : CStr → Link W Z → Fed W Z
  | [], l => .done l
  | g :: rest, l =>
    if isEol g then
      if l.buffer = [] then feed env zipped rest l
      else
        let l := l.handOver env
        if l.exited then .clientExited l
        else if l.zip && !zipped && !rest.isEmpty then .unzip rest l
        else feed env zipped rest l
    -- there is always room for the null
    else if l.buffer.length < clientBufsize - 1 then
      feed env zipped rest { l with buffer := l.buffer ++ [g] }
    else feed env zipped rest l

structure Unzipped where
  data : Option CStr
  length : Int
  deriving DecidableEq, Repr

/-- `unzip_packet` on a buffer. Only the branch that reads behind a full `unzipbuf` puts
anything into `zip->inbuf`, so none is carried over. -/
def unzipPacket (env : LinkEnv W Z) (l : Link W Z) (buffer : CStr) :
    Except LinkFault (Link W Z × Unzipped) :=
  let r := env.inflate l.zin buffer unzipBufferSize
  let l := { l with zin := r.zin }
  match r.result with
  | .ok =>
    if r.availIn ≠ [] then
      if r.out.length = unzipBufferSize then .error .overread
      else .ok (l, { data := none, length := -1 })
    else .ok (l, { data := some r.out, length := r.out.length })
  | .bufError =>
    if r.out.length = unzipBufferSize then .ok (l, { data := none, length := -1 })
    else .ok (l, { data := none, length := buffer.length })
  | .dataError =>
    if l.capZip ∧ buffer.take 6 = lit "ERROR " then
      .ok ({ l with zip := false, capZip := false }, { data := some buffer, length := buffer.length })
    else .ok (l, { data := none, length := -1 })
  | .otherError => .ok (l, { data := none, length := -1 })

def skipEol : CStr → CStr
  | [] => []
  | c :: rest => if isEol c then rest else c :: rest

/-- What `unzip_packet` has returned is read as lines. -/
def takeUnzipped (env : LinkEnv W Z) (l : Link W Z) (buffer : CStr) :
    Except LinkFault (Link W Z) := do
  let (l, u) ← l.unzipPacket env buffer
  if u.length = -1 then .ok (l.exit env)
  else
    match u.data with
    | none => if u.length = 0 then .ok l else .error .nullRead
    | some data =>
      match feed env true data l with
      | .done l => .ok l
      | .clientExited l => .ok l
      | .unzip _ l => .ok l

def dopacket (env : LinkEnv W Z) (l : Link W Z) (buffer : CStr) : Except LinkFault (Link W Z) :=
  let ch2 := if l.zipFirst then skipEol buffer else buffer
  let l := { l with zipFirst := false }
  if l.zip then l.takeUnzipped env ch2
  else
    match feed env false ch2 l with
    | .done l => .ok l
    | .clientExited l => .ok l
    | .unzip rest l => { l with zipFirst := false }.takeUnzipped env (skipEol rest)

def reads (env : LinkEnv W Z) : Link W Z → List CStr → Except LinkFault (Link W Z)
  | l, [] => .ok l
  | l, buffer :: more =>
    if l.exited then .ok l
    else do
      let l ← l.dopacket env buffer
      l.reads env more

/-- Nothing that `parse` does makes this a zipped link. -/
def NeverZips (env : LinkEnv W Z) : Prop :=
  ∀ w line deadSocket, (env.parse w line).2 ≠ .running deadSocket true

structure Plain (l : Link W Z) : Prop where
  zip : l.zip = false
  zipFirst : l.zipFirst = false

def Fed.link : Fed W Z → Link W Z
  | .done l => l
  | .clientExited l => l
  | .unzip _ l => l

variable {env : LinkEnv W Z}

theorem Plain.handOver (never : NeverZips env) {l : Link W Z} (plain : Plain l) :
    Plain (l.handOver env) := by
  have unzipped := never l.world l.buffer
  unfold Link.handOver
  generalize env.parse l.world l.buffer = result at unzipped
  obtain ⟨world, result⟩ := result
  cases result with
  | clientExited => exact ⟨plain.zip, plain.zipFirst⟩
  | running deadSocket startsZip =>
    have off : startsZip = false := by
      cases startsZip with
      | false => rfl
      | true => exact absurd rfl (unzipped deadSocket)
    subst off
    dsimp only
    split
    · exact ⟨by simp [exit, plain.zip], by simp [exit, plain.zipFirst]⟩
    · exact ⟨by simp [plain.zip], by simp [plain.zipFirst]⟩

/-- The loop over two pieces is the loop over the first and then over the second. -/
theorem feed_append {zipped : Bool} (a b : CStr) {l : Link W Z}
    (stays : zipped = true ∨ NeverZips env ∧ Plain l) :
    feed env zipped (a ++ b) l =
      match feed env zipped a l with
      | .done l => feed env zipped b l
      | .clientExited l => .clientExited l
      | .unzip rest l => .unzip (rest ++ b) l := by
  induction a generalizing l with
  | nil => rfl
  | cons g a ih =>
    rw [List.cons_append, feed, feed]
    by_cases eol : isEol g = true
    · simp only [eol, if_true]
      by_cases empty : l.buffer = []
      · simp only [empty, if_true]
        exact ih stays
      · simp only [empty, if_false]
        have stays' : zipped = true ∨ NeverZips env ∧ Plain (l.handOver env) :=
          stays.imp id fun both => ⟨both.1, both.2.handOver both.1⟩
        cases exited : (l.handOver env).exited with
        | true => rfl
        | false =>
          have straight : ((l.handOver env).zip && !zipped) = false := by
            rcases stays' with rfl | ⟨_, plain⟩
            · simp
            · simp [plain.zip]
          simp only [straight, Bool.false_and, Bool.false_eq_true, if_false]
          exact ih stays'
    · simp only [eol, Bool.false_eq_true, if_false]
      split
      · refine ih (stays.imp id fun both => ⟨both.1, ⟨both.2.zip, both.2.zipFirst⟩⟩)
      · exact ih stays

inductive FedWell (env : LinkEnv W Z) (zipped : Bool) : Fed W Z → Prop where
  | done (l : Link W Z) (alive : l.exited = false)
      (stays : zipped = true ∨ NeverZips env ∧ Plain l) : FedWell env zipped (.done l)
  | clientExited (l : Link W Z) (gone : l.exited = true) : FedWell env zipped (.clientExited l)

theorem feed_well {zipped : Bool} (bytes : CStr) {l : Link W Z} (alive : l.exited = false)
    (stays : zipped = true ∨ NeverZips env ∧ Plain l) : FedWell env zipped (feed env zipped bytes l) := by
  induction bytes generalizing l with
  | nil => exact .done l alive stays
  | cons g bytes ih =>
    rw [feed]
    split
    · split
      · exact ih alive stays
      · have stays' : zipped = true ∨ NeverZips env ∧ Plain (l.handOver env) :=
          stays.imp id fun both => ⟨both.1, both.2.handOver both.1⟩
        dsimp only
        cases exited : (l.handOver env).exited with
        | true =>
          rw [if_pos rfl]
          exact .clientExited _ exited
        | false =>
          have straight : ((l.handOver env).zip && !zipped) = false := by
            rcases stays' with rfl | ⟨_, plain⟩
            · simp
            · simp [plain.zip]
          simp only [straight, Bool.false_and, Bool.false_eq_true, if_false]
          exact ih exited stays'
    · split
      · exact ih alive (stays.imp id fun both => ⟨both.1, ⟨both.2.zip, both.2.zipFirst⟩⟩)
      · exact ih alive stays

theorem dopacket_plain (never : NeverZips env) {l : Link W Z} (plain : Plain l)
    (alive : l.exited = false) (buffer : CStr) :
    l.dopacket env buffer = .ok (feed env false buffer l).link := by
  have well := @feed_well W Z env false buffer l alive (.inr ⟨never, plain⟩)
  obtain ⟨zip, zipFirst⟩ := plain
  cases l with
  | mk world count zip' zipFirst' capZip zin lines exited =>
    dsimp only at zip zipFirst
    subst zip zipFirst
    unfold dopacket
    simp only [Bool.false_eq_true, if_false]
    generalize feed env false buffer _ = fed at well
    cases well with
    | done l alive stays => rfl
    | clientExited l gone => rfl

theorem reads_plain (never : NeverZips env) {l : Link W Z} (plain : Plain l)
    (alive : l.exited = false) (rs : List CStr) :
    l.reads env rs = .ok (feed env false rs.flatten l).link := by
  induction rs generalizing l with
  | nil => rfl
  | cons buffer rs ih =>
    have one := dopacket_plain never plain alive buffer
    rw [reads, if_neg (by simp [alive]), one, List.flatten_cons, feed_append _ _ (.inr ⟨never, plain⟩)]
    have well := @feed_well W Z env false buffer l alive (.inr ⟨never, plain⟩)
    generalize feed env false buffer l = fed at well
    cases well with
    | done l alive stays =>
      obtain ⟨_, plain⟩ := stays.resolve_left Bool.false_ne_true
      exact ih plain alive
    | clientExited l gone =>
      cases rs with
      | nil => rfl
      | cons buffer rs =>
        change reads env l (buffer :: rs) = _
        rw [reads, if_pos gone]
        rfl

/-- However the stream is cut into reads, `parse` sees the same lines and the same part of a
line is left. -/
theorem reads_cut (never : NeverZips env) {l : Link W Z} (plain : Plain l) {rs rs' : List CStr}
    (same : rs.flatten = rs'.flatten) :
    l.reads env rs = l.reads env rs' ∧ ∃ l', l.reads env rs = .ok l' := by
  cases alive : l.exited with
  | true =>
    have stop : ∀ rs : List CStr, l.reads env rs = .ok l := by
      intro rs
      cases rs with
      | nil => rfl
      | cons buffer rs => rw [reads, if_pos alive]
    exact ⟨(stop rs).trans (stop rs').symm, l, stop rs⟩
  | false =>
    have cut := reads_plain never plain alive
    exact ⟨by rw [cut, cut, same], _, cut rs⟩

end Link

def quietEnv : LinkEnv Unit Unit where
  parse _ _ := ((), .running false false)
  exitClient := id
  inflate _ _ _ := { zin := (), availIn := [], out := [], result := .bufError }

def quietLink : Link Unit Unit where
  world := ()
  buffer := []
  zip := false
  zipFirst := false
  capZip := false
  zin := ()
  lines := []
  exited := false

theorem quietLink_cut :
    quietLink.reads quietEnv [lit "PING a\r", lit "\nPI", lit "NG b\r\nX"] =
      quietLink.reads quietEnv [lit "PING a\r\nPING b\r\nX"] :=
  (Link.reads_cut (fun _ _ _ same => by cases same) ⟨rfl, rfl⟩ (by rfl)).1

end Ircd
