import Ircd.Channel.State
import Ircd.Conf.File
import Ircd.Lib.Machine
import Ircd.Text.Number

/-! `m_kline.c`: permanent K- and D-lines and the list of those that wait for a lock.

A line that is accepted while its file is locked goes onto `PendingLines`; the next
command that finds its own file unlocked writes the whole list. What has become of a line
is read off the files: `asked` are the lines that the commands of a run have to bring there.
-/

set_option autoImplicit false

namespace Ircd

/-- `KLINE_TYPE` and `DLINE_TYPE`. -/
inductive BanType where
  | kline
  | dline
  deriving DecidableEq, Repr

structure BanLine where
  type : BanType
  user : CStr
  host : CStr
  reason : CStr
  operReason : Option CStr
  when_ : CStr
  deriving DecidableEq, Repr

structure PendingLine where
  line : BanLine
  sptr : ClientId
  deriving DecidableEq, Repr

inductive KlineOutput where
  | realops (text : CStr)
  | notice (sptr : ClientId) (text : CStr)
  deriving DecidableEq, Repr

/-- How the system answers when a line is written: `open`, then a `write` for the comment
and one for the line. -/
inductive DiskAnswer where
  | openFailed (error : CStr)
  | opened (comment entry : WriteResult)
  deriving DecidableEq, Repr

structure KlineState where
  klinefile : CStr
  dlinefile : CStr
  files : CStr → CStr
  /-- The contents of `filename.lock`. -/
  locks : CStr → Option CStr
  /-- `kill(pid, SIGCHLD) == 0`. -/
  running : Int → Bool
  clients : List ClientId
  client : ClientId → Client
  /-- `PendingLines`, newest first. -/
  pending : List PendingLine
  rehashes : Nat
  rehashed : Bool
  dlineInProgress : Bool
  /-- The clients read after they have exited. -/
  danglingUses : List ClientId
  sent : List KlineOutput

def BanLine.comment (line : BanLine) (cl : Client) : CStr :=
  let source := '#' :: cl.name ++ '!' :: cl.username ++ '@' :: cl.host
  match line.type, line.operReason with
  | .kline, some operReason => source ++ lit " K'd: " ++ line.user ++ '@' :: line.host ++
      ':' :: line.reason ++ '|' :: operReason ++ ['\n']
  | .kline, none => source ++ lit " K'd: " ++ line.user ++ '@' :: line.host ++
      ':' :: line.reason ++ ['\n']
  | .dline, some operReason => source ++ lit " D'd: " ++ line.host ++ ':' :: line.reason ++
      '|' :: operReason ++ lit " (" ++ line.when_ ++ lit ")\n"
  | .dline, none => source ++ lit " D'd: " ++ line.host ++ ':' :: line.reason ++
      lit " (" ++ line.when_ ++ lit ")\n"

def BanLine.entry (line : BanLine) : CStr :=
  match line.type, line.operReason with
  | .kline, some operReason => lit "K:" ++ line.host ++ ':' :: line.reason ++ lit " (" ++
      line.when_ ++ lit ") |" ++ operReason ++ ':' :: line.user ++ ['\n']
  | .kline, none => lit "K:" ++ line.host ++ ':' :: line.reason ++ lit " (" ++ line.when_ ++
      lit "):" ++ line.user ++ ['\n']
  | .dline, _ => lit "D:" ++ line.host ++ ':' :: line.reason ++ lit " (" ++ line.when_ ++ lit ")\n"

namespace KlineState

def getConfName (s : KlineState) : BanType → CStr
  | .kline => s.klinefile
  | .dline => s.dlinefile

def emit (s : KlineState) (o : KlineOutput) : KlineState := { s with sent := s.sent ++ [o] }

def lockHeld (s : KlineState) (lock : CStr) : Bool :=
  match fbgets 1023 lock with
  | none => false
  | some (buffer, _) => s.running (atoi (cString buffer))

def locked (s : KlineState) (filename : CStr) : Bool := (s.locks filename).any s.lockHeld

/-- `LockedFile`: an outdated lock file is deleted. -/
def lockedFile (s : KlineState) (filename : CStr) : KlineState × Bool :=
  if s.locked filename then (s, true)
  else ({ s with locks := Function.update s.locks filename none }, false)

/-- `safe_write`, which is content with a part of the buffer. -/
def safeWrite (s : KlineState) (filename : CStr) (r : WriteResult) (buffer : CStr) :
    KlineState × Bool :=
  let s := { s with
    files := Function.update s.files filename (s.files filename ++ r.taken buffer) }
  if r.taken buffer = [] then
    (s.emit (.realops (lit "*** Problem writing to " ++ filename)), false)
  else (s, true)

/-- `WriteKline` and `WriteDline`; the client is read for the comment. -/
def writeLine (s : KlineState) (filename : CStr) (p : PendingLine) (answer : DiskAnswer) :
    KlineState :=
  match answer with
  | .openFailed error => s.emit (.realops (lit "Error opening " ++ filename ++ lit ": " ++ error))
  | .opened comment entry =>
    let s := if p.sptr ∈ s.clients then s else { s with danglingUses := s.danglingUses ++ [p.sptr] }
    let header := p.line.comment (s.client p.sptr)
    let (s, ok) := s.safeWrite filename comment header
    if ok then (s.safeWrite filename entry p.line.entry).1 else s

/-- `WritePendingLines`, with the answers for the lines in turn. -/
def writePendings (filename : CStr) : List PendingLine → (Nat → DiskAnswer) → KlineState → KlineState
  | [], _, s => s
  | p :: rest, answer, s =>
    writePendings filename rest (fun n => answer (n + 1)) (s.writeLine filename p (answer 0))

def writePendingLines (s : KlineState) (filename : CStr) (answer : Nat → DiskAnswer) :
    KlineState :=
  let s := writePendings filename s.pending answer s
  { s with pending := [], rehashes := s.rehashes + 1, rehashed := true }

/-- An accepted line waits for its file, or it is written after all that have waited. -/
def settleLine (s : KlineState) (p : PendingLine) (mask kind : CStr) (answer : Nat → DiskAnswer) :
    KlineState × Bool :=
  let filename := s.getConfName p.line.type
  let (s, held) := s.lockedFile filename
  if held then
    ({ s with pending := p :: s.pending }.emit (.notice p.sptr (lit "Added " ++ kind ++ lit " [" ++
      mask ++ lit "] (config file write delayed)")), false)
  else
    let count := s.pending.length
    let s := if s.pending = [] then s else s.writePendingLines filename answer
    let s := s.emit (.notice p.sptr (lit "Added " ++ kind ++ lit " [" ++ mask ++ lit "] to " ++
      filename))
    (s.writeLine filename p (answer count), true)

/-- What `m_kline` and `m_dline` do with a permanent line once they have accepted it. -/
def acceptLine (s : KlineState) (sptr : ClientId) (line : BanLine) (mask kind : CStr)
    (answer : Nat → DiskAnswer) : KlineState × Bool :=
  let s' := s.emit (.realops ((s.client sptr).name ++ lit " added " ++ kind ++ lit " for [" ++
    mask ++ lit "] [" ++ line.reason ++ lit "]"))
  s'.settleLine { line := line, sptr := sptr } mask kind answer

def mKline (s : KlineState) (sptr : ClientId) (user host reason : CStr) (operReason : Option CStr)
    (when_ : CStr) (answer : Nat → DiskAnswer) : KlineState :=
  let line := { type := .kline, user := user, host := host, reason := reason,
                operReason := operReason, when_ := when_ }
  let (s, done) := s.acceptLine sptr line (user ++ '@' :: host) (lit "K-Line") answer
  if done then { s with rehashed := true, dlineInProgress := false } else s

def mDline (s : KlineState) (sptr : ClientId) (host reason : CStr) (operReason : Option CStr)
    (when_ : CStr) (answer : Nat → DiskAnswer) : KlineState :=
  let line := { type := .dline, user := [], host := host, reason := reason,
                operReason := operReason, when_ := when_ }
  let (s, done) := s.acceptLine sptr line host (lit "D-Line") answer
  if done then { s with rehashed := true, dlineInProgress := true } else s

end KlineState

inductive KlineEvent where
  | kline (sptr : ClientId) (user host reason : CStr) (operReason : Option CStr) (when_ : CStr)
      (answer : Nat → DiskAnswer)
  | dline (sptr : ClientId) (host reason : CStr) (operReason : Option CStr) (when_ : CStr)
      (answer : Nat → DiskAnswer)
  | lock (filename : CStr) (content : Option CStr)
  | processes (running : Int → Bool)
  | connect (u : ClientId) (cl : Client)
  | exit (u : ClientId)

namespace KlineState

def event (s : KlineState) : KlineEvent → KlineState
  | .kline sptr user host reason operReason when_ answer =>
    s.mKline sptr user host reason operReason when_ answer
  | .dline sptr host reason operReason when_ answer =>
    s.mDline sptr host reason operReason when_ answer
  | .lock filename content => { s with locks := Function.update s.locks filename content }
  | .processes running => { s with running := running }
  | .connect u cl =>
    { s with clients := u :: s.clients, client := Function.update s.client u cl }
  | .exit u => { s with clients := s.clients.filter (· != u) }

def klineMachine : Machine KlineState KlineEvent := { step := event }

end KlineState

structure BanRequest where
  sptr : ClientId
  line : BanLine
  answer : Nat → DiskAnswer

def KlineEvent.request : KlineEvent → Option BanRequest
  | .kline sptr user host reason operReason when_ answer => some
    { sptr := sptr, answer := answer
      line := { type := .kline, user := user, host := host, reason := reason,
                operReason := operReason, when_ := when_ } }
  | .dline sptr host reason operReason when_ answer => some
    { sptr := sptr, answer := answer
      line := { type := .dline, user := [], host := host, reason := reason,
                operReason := operReason, when_ := when_ } }
  | _ => none

def KlineEvent.Comes (s : KlineState) (e : KlineEvent) : Prop :=
  match e with
  | .connect u _ => u ∉ s.clients
  | e => ∀ r ∈ e.request, r.sptr ∈ s.clients

def DiskAnswer.Complete (answer : DiskAnswer) (comment entry : CStr) : Prop :=
  match answer with
  | .openFailed _ => False
  | .opened first second => first.Complete comment ∧ second.Complete entry

instance (answer : DiskAnswer) (comment entry : CStr) :
    Decidable (answer.Complete comment entry) := by
  unfold DiskAnswer.Complete
  cases answer <;> infer_instance

namespace KlineState

def Takes (s : KlineState) (p : PendingLine) (answer : DiskAnswer) : Prop :=
  answer.Complete (p.line.comment (s.client p.sptr)) p.line.entry

instance (s : KlineState) (p : PendingLine) (answer : DiskAnswer) :
    Decidable (s.Takes p answer) := inferInstanceAs (Decidable (DiskAnswer.Complete ..))

/-- The bytes that `writeLine` adds to its file. -/
def put (s : KlineState) (p : PendingLine) : DiskAnswer → CStr
  | .openFailed _ => []
  | .opened comment entry =>
    let header := comment.taken (p.line.comment (s.client p.sptr))
    if header = [] then [] else header ++ entry.taken p.line.entry

def puts (s : KlineState) : List PendingLine → (Nat → DiskAnswer) → CStr
  | [], _ => []
  | p :: rest, answer => s.put p (answer 0) ++ s.puts rest fun n => answer (n + 1)

/-- The comment and the line, as they are to stand in the file. -/
def text (s : KlineState) (p : PendingLine) : CStr :=
  p.line.comment (s.client p.sptr) ++ p.line.entry

/-- All that the pending lines read is as before. -/
structure SameBooks (s s' : KlineState) : Prop where
  klinefile : s'.klinefile = s.klinefile
  dlinefile : s'.dlinefile = s.dlinefile
  clients : s'.clients = s.clients
  client : s'.client = s.client

theorem getConfName_congr {s s' : KlineState} (klinefile : s'.klinefile = s.klinefile)
    (dlinefile : s'.dlinefile = s.dlinefile) : s'.getConfName = s.getConfName := by
  funext type
  cases type
  · exact klinefile
  · exact dlinefile

theorem text_congr {s s' : KlineState} (client : s'.client = s.client) : s'.text = s.text := by
  funext p
  rw [text, text, client]

theorem put_congr {s s' : KlineState} (client : s'.client = s.client) (p : PendingLine)
    (answer : DiskAnswer) : s'.put p answer = s.put p answer := by
  unfold put
  rw [client]

theorem puts_congr {s s' : KlineState} (client : s'.client = s.client) (ps : List PendingLine)
    (answer : Nat → DiskAnswer) : s'.puts ps answer = s.puts ps answer := by
  induction ps generalizing answer with
  | nil => rfl
  | cons p rest ih => rw [puts, puts, ih, put_congr client]

namespace SameBooks

variable {s s' s'' : KlineState}

theorem refl (s : KlineState) : SameBooks s s := ⟨rfl, rfl, rfl, rfl⟩

theorem trans (h : SameBooks s s') (h' : SameBooks s' s'') : SameBooks s s'' :=
  ⟨h'.klinefile.trans h.klinefile, h'.dlinefile.trans h.dlinefile, h'.clients.trans h.clients,
    h'.client.trans h.client⟩

end SameBooks

/-- A write to one file. -/
structure Appends (s s' : KlineState) (filename text : CStr) : Prop where
  books : SameBooks s s'
  pending : s'.pending = s.pending
  files : s'.files = Function.update s.files filename (s.files filename ++ text)

namespace Appends

variable {s s' s'' : KlineState} {filename text text' : CStr}

theorem nothing (books : SameBooks s s') (pending : s'.pending = s.pending)
    (files : s'.files = s.files) : Appends s s' filename [] := by
  refine ⟨books, pending, ?_⟩
  rw [files, List.append_nil, Function.update_eq_self]

theorem trans (h : Appends s s' filename text) (h' : Appends s' s'' filename text') :
    Appends s s'' filename (text ++ text') := by
  refine ⟨h.books.trans h'.books, h'.pending.trans h.pending, ?_⟩
  rw [h'.files, h.files, Function.update_self, Function.update_idem, List.append_assoc]

end Appends

theorem appends_safeWrite (s : KlineState) (filename : CStr) (r : WriteResult) (buffer : CStr) :
    Appends s (s.safeWrite filename r buffer).1 filename (r.taken buffer) ∧
      ((s.safeWrite filename r buffer).2 = true ↔ r.taken buffer ≠ []) := by
  unfold safeWrite
  dsimp only
  split
  · next none => exact ⟨⟨⟨rfl, rfl, rfl, rfl⟩, rfl, rfl⟩, by simp [none]⟩
  · next some => exact ⟨⟨⟨rfl, rfl, rfl, rfl⟩, rfl, rfl⟩, by simp [some]⟩

theorem appends_writeLine (s : KlineState) (filename : CStr) (p : PendingLine)
    (answer : DiskAnswer) :
    Appends s (s.writeLine filename p answer) filename (s.put p answer) := by
  cases answer with
  | openFailed error => exact .nothing ⟨rfl, rfl, rfl, rfl⟩ rfl rfl
  | opened comment entry =>
    unfold writeLine put
    dsimp only
    generalize read : (if p.sptr ∈ s.clients then s else _) = s₁
    have before : Appends s s₁ filename [] := by
      subst read
      split
      · exact .nothing (.refl s) rfl rfl
      · exact .nothing ⟨rfl, rfl, rfl, rfl⟩ rfl rfl
    rw [before.books.client]
    generalize p.line.comment (s.client p.sptr) = header
    obtain ⟨first, wrote⟩ := appends_safeWrite s₁ filename comment header
    have first := before.trans first
    rw [List.nil_append] at first
    generalize s₁.safeWrite filename comment header = w at first wrote ⊢
    obtain ⟨s₂, ok⟩ := w
    dsimp only at first wrote ⊢
    by_cases none : comment.taken header = []
    · have failed : ok = false := Bool.eq_false_of_not_eq_true fun yes => wrote.1 yes none
      rw [if_pos none, failed, if_neg Bool.false_ne_true, ← none]
      exact first
    · rw [if_neg none, if_pos (wrote.2 none)]
      exact first.trans (appends_safeWrite s₂ filename entry p.line.entry).1

theorem appends_writePendings (filename : CStr) (ps : List PendingLine)
    (answer : Nat → DiskAnswer) (s : KlineState) :
    Appends s (writePendings filename ps answer s) filename (s.puts ps answer) := by
  induction ps generalizing s answer with
  | nil => exact .nothing (.refl s) rfl rfl
  | cons p rest ih =>
    have first := s.appends_writeLine filename p (answer 0)
    have later := ih (fun n => answer (n + 1)) (s.writeLine filename p (answer 0))
    rw [puts_congr first.books.client] at later
    exact first.trans later

def lineOf (r : BanRequest) : PendingLine := { line := r.line, sptr := r.sptr }

/-- A command: its line waits, or all that has waited is written to its file, and the line
behind that. -/
structure Accepted (s s' : KlineState) (r : BanRequest) : Prop where
  books : SameBooks s s'
  waits : s.locked (s.getConfName r.line.type) = true →
    s'.pending = lineOf r :: s.pending ∧ s'.files = s.files
  flushes : s.locked (s.getConfName r.line.type) = false →
    s'.pending = [] ∧ s'.files = Function.update s.files (s.getConfName r.line.type)
      (s.files (s.getConfName r.line.type) ++
        (s.puts s.pending r.answer ++ s.put (lineOf r) (r.answer s.pending.length)))

theorem settleLine_spec (s : KlineState) (r : BanRequest) (mask kind : CStr) :
    s.Accepted (s.settleLine (lineOf r) mask kind r.answer).1 r := by
  unfold settleLine lockedFile
  dsimp only [lineOf]
  generalize named : s.getConfName r.line.type = filename
  -- a locked file keeps the line waiting; a free one takes the waiting lines first
  cases held : s.locked filename with
  | true =>
    rw [if_pos rfl]
    dsimp only
    rw [if_pos rfl]
    refine ⟨⟨rfl, rfl, rfl, rfl⟩, fun _ => ⟨rfl, rfl⟩, fun free => ?_⟩
    rw [named, held] at free
    cases free
  | false =>
    rw [if_neg Bool.false_ne_true]
    dsimp only
    rw [if_neg Bool.false_ne_true]
    dsimp only
    generalize flushed : (if s.pending = [] then _ else _) = s₂
    have flush : SameBooks s s₂ ∧ s₂.pending = [] ∧
        s₂.files = Function.update s.files filename
          (s.files filename ++ s.puts s.pending r.answer) := by
      subst flushed
      split
      · next none =>
        refine ⟨⟨rfl, rfl, rfl, rfl⟩, none, ?_⟩
        rw [none, puts, List.append_nil, Function.update_eq_self]
      · have wrote := appends_writePendings filename s.pending r.answer
          { s with locks := Function.update s.locks filename none }
        have client : { s with locks := Function.update s.locks filename none }.client = s.client :=
          rfl
        rw [puts_congr client] at wrote
        exact ⟨⟨wrote.books.klinefile, wrote.books.dlinefile, wrote.books.clients,
          wrote.books.client⟩, rfl, wrote.files⟩
    obtain ⟨books, pending, files⟩ := flush
    clear flushed
    generalize noticed : s₂.emit _ = s₃
    have same : Appends s₂ s₃ filename [] := by
      subst noticed
      exact .nothing ⟨rfl, rfl, rfl, rfl⟩ rfl rfl
    have own := s₃.appends_writeLine filename (lineOf r) (r.answer s.pending.length)
    have whole := same.trans own
    refine ⟨books.trans whole.books, fun waits => ?_, fun _ => ⟨whole.pending.trans pending, ?_⟩⟩
    · rw [named, held] at waits
      cases waits
    · rw [named]
      refine whole.files.trans ?_
      rw [files, put_congr (books.trans same.books).client, List.nil_append, Function.update_self, Function.update_idem,
        List.append_assoc]

theorem acceptLine_spec (s : KlineState) (r : BanRequest) (mask kind : CStr) :
    s.Accepted (s.acceptLine r.sptr r.line mask kind r.answer).1 r := by
  unfold acceptLine
  generalize KlineOutput.realops _ = o
  have client : (s.emit o).client = s.client := rfl
  obtain ⟨books, waits, flushes⟩ := settleLine_spec (s.emit o) r mask kind
  rw [puts_congr client, put_congr client] at flushes
  exact ⟨⟨books.klinefile, books.dlinefile, books.clients, books.client⟩, waits, flushes⟩

theorem event_spec (s : KlineState) {e : KlineEvent} {r : BanRequest} (asks : e.request = some r) :
    s.Accepted (s.event e) r := by
  cases e with
  | kline sptr user host reason operReason when_ answer =>
    cases asks
    have spec := s.acceptLine_spec
      { sptr := sptr, answer := answer
        line := { type := .kline, user := user, host := host, reason := reason,
                  operReason := operReason, when_ := when_ } } (user ++ '@' :: host) (lit "K-Line")
    unfold event mKline
    dsimp only
    split
    · obtain ⟨⟨klinefile, dlinefile, clients, client⟩, waits, flushes⟩ := spec
      exact ⟨⟨klinefile, dlinefile, clients, client⟩, waits, flushes⟩
    · exact spec
  | dline sptr host reason operReason when_ answer =>
    cases asks
    have spec := s.acceptLine_spec
      { sptr := sptr, answer := answer
        line := { type := .dline, user := [], host := host, reason := reason,
                  operReason := operReason, when_ := when_ } } host (lit "D-Line")
    unfold event mDline
    dsimp only
    split
    · obtain ⟨⟨klinefile, dlinefile, clients, client⟩, waits, flushes⟩ := spec
      exact ⟨⟨klinefile, dlinefile, clients, client⟩, waits, flushes⟩
    · exact spec
  | lock filename content => cases asks
  | processes running => cases asks
  | connect u cl => cases asks
  | exit u => cases asks

/-- What an accepted line has to bring to the file of its type. -/
structure Due where
  type : BanType
  text : CStr
  deriving DecidableEq, Repr

def due (s : KlineState) (p : PendingLine) : Due := { type := p.line.type, text := s.text p }

/-- The lines that the commands of a run have accepted. -/
def asked : KlineState → List KlineEvent → List Due
  | _, [] => []
  | s, e :: es => (e.request.map fun r => s.due (lineOf r)).toList ++ asked (s.event e) es

/-- The bytes of those that belong to the file. -/
def share (s : KlineState) (filename : CStr) (dues : List Due) : CStr :=
  (dues.filter fun d => s.getConfName d.type = filename).flatMap Due.text

/-- Each accepted line is written once or waits once, each file holds just what it held and the
lines of its type that are written, and whoever has asked for what waits is still there. -/
structure Delivered (files : CStr → CStr) (dues : List Due) (s : KlineState) : Prop where
  once : ∃ done : List Due, (done ++ s.pending.map s.due).Perm dues ∧
    ∀ filename, s.files filename = files filename ++ s.share filename done
  alive : ∀ p ∈ s.pending, p.sptr ∈ s.clients

/-- A command that finds its file unlocked first writes all that waits, each line to the
file of its type. -/
def FlushesOwn (s : KlineState) (e : KlineEvent) : Prop :=
  ∀ r ∈ e.request, s.locked (s.getConfName r.line.type) = false →
    ∀ filename, (s.event e).files filename =
      s.files filename ++ s.share filename ((s.pending ++ [lineOf r]).map s.due)

/-- Nobody leaves who has asked for a line that waits, and a command that finds its file
unlocked finds none waiting for another file and a disk that takes all lines whole. -/
def Safe (s : KlineState) (e : KlineEvent) : Prop :=
  match e with
  | .exit u => ∀ p ∈ s.pending, p.sptr ≠ u
  | e => ∀ r ∈ e.request, s.locked (s.getConfName r.line.type) = false →
    (∀ p ∈ s.pending, s.getConfName p.line.type = s.getConfName r.line.type) ∧
      (∀ i p, s.pending[i]? = some p → s.Takes p (r.answer i)) ∧
      s.Takes (lineOf r) (r.answer s.pending.length)

theorem comment_ne_nil (line : BanLine) (cl : Client) : line.comment cl ≠ [] := by
  unfold BanLine.comment
  split <;> simp

theorem entry_ne_nil (line : BanLine) : line.entry ≠ [] := by
  unfold BanLine.entry
  split <;> simp [lit]

theorem length_taken_le (r : WriteResult) (buffer : CStr) :
    (r.taken buffer).length ≤ buffer.length := by
  cases r with
  | failed => exact Nat.zero_le _
  | wrote n => exact List.length_take_le' n buffer

theorem complete_iff {r : WriteResult} {buffer : CStr} (some : buffer ≠ []) :
    r.Complete buffer ↔ (r.taken buffer).length = buffer.length := by
  cases r with
  | failed => exact iff_of_false id fun same => some (List.length_eq_zero_iff.1 same.symm)
  | wrote n =>
    simp only [WriteResult.Complete, WriteResult.taken, List.length_take]
    omega

theorem taken_of_complete {r : WriteResult} {buffer : CStr} (complete : r.Complete buffer) :
    r.taken buffer = buffer := by
  cases r with
  | failed => exact complete.elim
  | wrote n => exact List.take_of_length_le complete

section

variable {s s' : KlineState} {r : BanRequest}

theorem put_of_takes {p : PendingLine} {answer : DiskAnswer} (takes : s.Takes p answer) :
    s.put p answer = s.text p := by
  cases answer with
  | openFailed error => exact takes.elim
  | opened comment entry =>
    obtain ⟨first, second⟩ := takes
    unfold put text
    simp only [taken_of_complete first, taken_of_complete second, comment_ne_nil, if_false]

/-- The length alone tells whether the disk has taken a line. -/
theorem length_put (p : PendingLine) (answer : DiskAnswer) :
    (s.put p answer).length ≤ (s.text p).length ∧
      ((s.put p answer).length = (s.text p).length → s.Takes p answer) := by
  have header := List.length_pos_of_ne_nil (comment_ne_nil p.line (s.client p.sptr))
  have entry := List.length_pos_of_ne_nil (entry_ne_nil p.line)
  cases answer with
  | openFailed error =>
    refine ⟨Nat.zero_le _, fun same => ?_⟩
    simp only [put, text, List.length_nil, List.length_append] at same
    omega
  | opened first second =>
    have fits := length_taken_le first (p.line.comment (s.client p.sptr))
    have fits' := length_taken_le second p.line.entry
    simp only [put, text, List.length_append]
    split
    · refine ⟨Nat.zero_le _, fun same => ?_⟩
      simp only [List.length_nil] at same
      omega
    · rw [List.length_append]
      refine ⟨by omega, fun same => ⟨?_, ?_⟩⟩
      · exact (complete_iff (comment_ne_nil _ _)).2 (by omega)
      · exact (complete_iff (entry_ne_nil _)).2 (by omega)

theorem puts_of_takes (ps : List PendingLine) (answer : Nat → DiskAnswer)
    (takes : ∀ i p, ps[i]? = some p → s.Takes p (answer i)) :
    s.puts ps answer = ps.flatMap s.text := by
  induction ps generalizing answer with
  | nil => rfl
  | cons p rest ih =>
    rw [puts, put_of_takes (takes 0 p rfl), List.flatMap_cons,
      ih (fun n => answer (n + 1)) fun i q found => takes (i + 1) q found]

theorem length_puts (ps : List PendingLine) (answer : Nat → DiskAnswer) :
    (s.puts ps answer).length ≤ (ps.flatMap s.text).length ∧
      ((s.puts ps answer).length = (ps.flatMap s.text).length →
        ∀ i p, ps[i]? = some p → s.Takes p (answer i)) := by
  induction ps generalizing answer with
  | nil => exact ⟨Nat.le_refl _, fun _ i p found => by cases i <;> cases found⟩
  | cons p rest ih =>
    obtain ⟨first, whole⟩ := s.length_put p (answer 0)
    obtain ⟨later, all⟩ := ih fun n => answer (n + 1)
    simp only [puts, List.flatMap_cons, List.length_append]
    refine ⟨by omega, fun same i q found => ?_⟩
    cases i with
    | zero =>
      cases found
      exact whole (by omega)
    | succ i => exact all (by omega) i q found

theorem share_append (filename : CStr) (dues dues' : List Due) :
    s.share filename (dues ++ dues') = s.share filename dues ++ s.share filename dues' := by
  simp [share]

theorem share_own {filename : CStr} {ps : List PendingLine}
    (own : ∀ p ∈ ps, s.getConfName p.line.type = filename) :
    s.share filename (ps.map s.due) = ps.flatMap s.text := by
  have all : (ps.map s.due).filter (fun d => s.getConfName d.type = filename) = ps.map s.due := by
    rw [List.filter_eq_self]
    intro d inside
    obtain ⟨p, here, rfl⟩ := List.mem_map.1 inside
    exact decide_eq_true (own p here)
  rw [share, all, List.flatMap_map]
  rfl

theorem share_other {filename : CStr} {ps : List PendingLine} :
    s.share filename (ps.map s.due) = [] ↔ ∀ p ∈ ps, s.getConfName p.line.type ≠ filename := by
  have some (p : PendingLine) : s.text p ≠ [] := by simp [text, comment_ne_nil]
  simp only [share, List.flatMap_eq_nil_iff, List.mem_filter, List.mem_map, decide_eq_true_eq]
  constructor
  · intro none p inside same
    exact some p (none (s.due p) ⟨⟨p, inside, rfl⟩, same⟩)
  · rintro none d ⟨⟨p, inside, rfl⟩, same⟩
    exact absurd same (none p inside)

/-- A command that finds its file unlocked brings every line where it belongs exactly if it is
safe. -/
theorem flushes_iff (done : s.Accepted s' r)
    (free : s.locked (s.getConfName r.line.type) = false) :
    (∀ filename, s'.files filename =
        s.files filename ++ s.share filename ((s.pending ++ [lineOf r]).map s.due)) ↔
      (∀ p ∈ s.pending, s.getConfName p.line.type = s.getConfName r.line.type) ∧
        (∀ i p, s.pending[i]? = some p → s.Takes p (r.answer i)) ∧
        s.Takes (lineOf r) (r.answer s.pending.length) := by
  obtain ⟨-, files⟩ := done.flushes free
  generalize file : s.getConfName r.line.type = filename at files
  have member {p : PendingLine} : p ∈ s.pending ++ [lineOf r] ↔ p ∈ s.pending ∨ p = lineOf r := by
    simp
  constructor
  · intro written
    have own : ∀ p ∈ s.pending, s.getConfName p.line.type = filename := by
      intro p inside
      by_contra other
      have here := written (s.getConfName p.line.type)
      rw [files, Function.update_of_ne other, List.self_eq_append_right, share_other] at here
      exact here p (member.2 (.inl inside)) rfl
    have all : ∀ p ∈ s.pending ++ [lineOf r], s.getConfName p.line.type = filename := by
      intro p inside
      rcases member.1 inside with old | rfl
      · exact own p old
      · exact file
    have grown := written filename
    rw [files, Function.update_self, List.append_right_inj, share_own all, List.flatMap_append,
      List.flatMap_singleton] at grown
    have lengths := congrArg List.length grown
    obtain ⟨most, taken⟩ := s.length_puts s.pending r.answer
    obtain ⟨most', taken'⟩ := s.length_put (lineOf r) (r.answer s.pending.length)
    simp only [List.length_append] at lengths
    exact ⟨own, taken (by omega), taken' (by omega)⟩
  · rintro ⟨own, taken, taken'⟩ name
    have all : ∀ p ∈ s.pending ++ [lineOf r], s.getConfName p.line.type = filename := by
      intro p inside
      rcases member.1 inside with old | rfl
      · exact own p old
      · exact file
    by_cases here : name = filename
    · subst here
      rw [files, Function.update_self, share_own all, puts_of_takes _ _ taken, put_of_takes taken',
        List.flatMap_append, List.flatMap_singleton]
    · have apart := share_other.2 fun p inside same => here (same.symm.trans (all p inside))
      rw [files, Function.update_of_ne here, apart, List.append_nil]

variable {files : CStr → CStr} {dues : List Due}

theorem share_congr (names : s'.getConfName = s.getConfName) (filename : CStr) (dues : List Due) :
    s'.share filename dues = s.share filename dues := by
  rw [share, share, names]

theorem due_congr (client : s'.client = s.client) : s'.due = s.due := by
  funext p
  rw [due, due, text_congr client]

theorem delivered_accepted (delivered : s.Delivered files dues) (done : s.Accepted s' r)
    (here : r.sptr ∈ s.clients)
    (flushes : s.locked (s.getConfName r.line.type) = false → ∀ filename, s'.files filename =
      s.files filename ++ s.share filename ((s.pending ++ [lineOf r]).map s.due)) :
    s'.Delivered files (dues ++ [s.due (lineOf r)]) := by
  obtain ⟨⟨written, all, contents⟩, alive⟩ := delivered
  have names := getConfName_congr done.books.klinefile done.books.dlinefile
  have due := due_congr done.books.client
  cases held : s.locked (s.getConfName r.line.type) with
  | true =>
    obtain ⟨pending, same⟩ := done.waits held
    refine ⟨⟨written, ?_, fun filename => ?_⟩, fun p inside => ?_⟩
    · rw [pending, due, List.map_cons]
      exact List.perm_middle.trans (((all.cons _).trans (List.perm_append_singleton _ _).symm))
    · rw [same, share_congr names]
      exact contents filename
    · rw [pending] at inside
      rw [done.books.clients]
      rcases List.mem_cons.1 inside with rfl | old
      · exact here
      · exact alive p old
  | false =>
    obtain ⟨pending, -⟩ := done.flushes held
    refine ⟨⟨written ++ (s.pending ++ [lineOf r]).map s.due, ?_, fun filename => ?_⟩,
      fun p inside => ?_⟩
    · rw [pending, List.map_nil, List.append_nil, List.map_append, ← List.append_assoc]
      exact all.append_right _
    · rw [flushes held, contents, share_congr names, share_append, List.append_assoc]
    · rw [pending] at inside
      cases inside

end

theorem delivered_quiet {s : KlineState} {files : CStr → CStr} {dues : List Due}
    (delivered : s.Delivered files dues) {e : KlineEvent} (quiet : e.request = none)
    (comes : e.Comes s) (alive : ∀ p ∈ s.pending, p.sptr ∈ (s.event e).clients) :
    (s.event e).Delivered files dues := by
  obtain ⟨⟨done, all, contents⟩, here⟩ := delivered
  have same : (s.event e).pending = s.pending ∧ (s.event e).files = s.files ∧
      (s.event e).getConfName = s.getConfName := by
    cases e with
    | kline sptr user host reason operReason when_ answer => cases quiet
    | dline sptr host reason operReason when_ answer => cases quiet
    | lock filename content => exact ⟨rfl, rfl, getConfName_congr rfl rfl⟩
    | processes running => exact ⟨rfl, rfl, getConfName_congr rfl rfl⟩
    | connect u cl => exact ⟨rfl, rfl, getConfName_congr rfl rfl⟩
    | exit u => exact ⟨rfl, rfl, getConfName_congr rfl rfl⟩
  obtain ⟨pending, kept, names⟩ := same
  -- a new client takes the place of nobody who has asked for a line
  have due : s.pending.map (s.event e).due = s.pending.map s.due := by
    apply List.map_congr_left
    intro p inside
    have client : (s.event e).client p.sptr = s.client p.sptr := by
      cases e with
      | kline sptr user host reason operReason when_ answer => cases quiet
      | dline sptr host reason operReason when_ answer => cases quiet
      | lock filename content => rfl
      | processes running => rfl
      | connect u cl =>
        have other : p.sptr ≠ u := fun same => comes (same ▸ here p inside)
        exact Function.update_of_ne other ..
      | exit u => rfl
    rw [KlineState.due, KlineState.due, text, text, client]
  refine ⟨⟨done, ?_, fun filename => ?_⟩, ?_⟩
  · rw [pending, due]
    exact all
  · rw [kept, share_congr names]
    exact contents filename
  · rw [pending]
    exact alive

theorem delivered_event_iff {s : KlineState} {files : CStr → CStr} {dues : List Due}
    (delivered : s.Delivered files dues) {e : KlineEvent} (comes : e.Comes s) :
    (s.event e).Delivered files (dues ++ (e.request.map fun r => s.due (lineOf r)).toList) ∧
      s.FlushesOwn e ↔ s.Safe e := by
  cases asks : e.request with
  | some r =>
    have done := s.event_spec asks
    have here : r.sptr ∈ s.clients := by
      cases e <;> cases asks <;> exact comes _ rfl
    have single : ∀ P : BanRequest → Prop, (∀ r' ∈ some r, P r') ↔ P r := by
      intro P
      simp
    have safe : s.Safe e ↔ (s.locked (s.getConfName r.line.type) = false →
        (∀ p ∈ s.pending, s.getConfName p.line.type = s.getConfName r.line.type) ∧
          (∀ i p, s.pending[i]? = some p → s.Takes p (r.answer i)) ∧
          s.Takes (lineOf r) (r.answer s.pending.length)) := by
      cases e <;> cases asks <;> exact single _
    have flushes : s.FlushesOwn e ↔ (s.locked (s.getConfName r.line.type) = false →
        ∀ filename, (s.event e).files filename =
          s.files filename ++ s.share filename ((s.pending ++ [lineOf r]).map s.due)) := by
      unfold FlushesOwn
      rw [asks]
      exact single _
    rw [safe, flushes]
    constructor
    · rintro ⟨-, own⟩ free
      exact (flushes_iff done free).1 (own free)
    · intro safe
      have own := fun free => (flushes_iff done free).2 (safe free)
      exact ⟨delivered_accepted delivered done here own, own⟩
  | none =>
    have flushes : s.FlushesOwn e := by
      intro r absurdity
      rw [asks] at absurdity
      cases absurdity
    rw [and_iff_left flushes, Option.map_none, Option.toList_none, List.append_nil]
    have quiet := delivered_quiet delivered asks comes
    -- of the events without a line only an exit can break the promise: the waiting line points
    -- at the operator
    cases e with
    | kline sptr user host reason operReason when_ answer => cases asks
    | dline sptr host reason operReason when_ answer => cases asks
    | lock filename content => exact iff_of_true (quiet delivered.alive) fun r no => by cases no
    | processes running => exact iff_of_true (quiet delivered.alive) fun r no => by cases no
    | connect u cl =>
      exact iff_of_true (quiet fun p inside => List.mem_cons_of_mem _ (delivered.alive p inside))
        fun r no => by cases no
    | exit u =>
      constructor
      · intro after p inside same
        have still : p.sptr ∈ s.clients.filter (· != u) := after.alive p inside
        rw [List.mem_filter, bne_iff_ne] at still
        exact still.2 same
      · intro safe
        refine quiet fun p inside => ?_
        show p.sptr ∈ s.clients.filter (· != u)
        rw [List.mem_filter, bne_iff_ne]
        exact ⟨delivered.alive p inside, safe p inside⟩

def startUp (klinefile dlinefile : CStr) (files : CStr → CStr) : KlineState where
  klinefile := klinefile
  dlinefile := dlinefile
  files := files
  locks := fun _ => none
  running := fun _ => false
  clients := []
  client := fun _ => Client.zero
  pending := []
  rehashes := 0
  rehashed := false
  dlineInProgress := false
  danglingUses := []
  sent := []

/-- Delayed lines are neither lost nor misplaced all along a run exactly if no step of it
meets an operator who leaves while his line waits, a line that waits for another file than
the one that is written, or a disk that does not take a line. -/
theorem delivered_iff_safe {klinefile dlinefile : CStr} {files : CStr → CStr}
    {es : List KlineEvent}
    (comes : klineMachine.Meets (fun s e => e.Comes s) (startUp klinefile dlinefile files) es) :
    ((∀ pre, pre <+: es → Delivered files (asked (startUp klinefile dlinefile files) pre)
        (klineMachine.run (startUp klinefile dlinefile files) pre)) ∧
      ∀ pre e, pre ++ [e] <+: es →
        (klineMachine.run (startUp klinefile dlinefile files) pre).FlushesOwn e) ↔
      klineMachine.Meets Safe (startUp klinefile dlinefile files) es := by
  have delivered : (startUp klinefile dlinefile files).Delivered files [] :=
    ⟨⟨[], .refl _, fun _ => (List.append_nil _).symm⟩, fun p absurdity => by cases absurdity⟩
  -- the induction needs the dues of what came before
  suffices general : ∀ (dues : List Due) (s : KlineState), s.Delivered files dues →
      klineMachine.Meets (fun s e => e.Comes s) s es →
      (((∀ pre, pre <+: es → Delivered files (dues ++ asked s pre) (klineMachine.run s pre)) ∧
        ∀ pre e, pre ++ [e] <+: es → (klineMachine.run s pre).FlushesOwn e) ↔
        klineMachine.Meets Safe s es) by
    have whole := general [] _ delivered comes
    simp only [List.nil_append] at whole
    exact whole
  clear delivered comes
  induction es with
  | nil =>
    intro dues s delivered _
    refine iff_of_true ⟨fun pre inside => ?_, fun pre e inside => ?_⟩ trivial
    · rw [List.prefix_nil.1 inside, asked, List.append_nil]
      exact delivered
    · have short := inside.length_le
      simp at short
  | cons e es ih =>
    intro dues s delivered comes
    have one := delivered_event_iff delivered comes.1
    constructor
    · rintro ⟨always, flushes⟩
      have first := always [e] ⟨es, rfl⟩
      rw [asked, asked, List.append_nil] at first
      have safe := one.1 ⟨first, flushes [] e ⟨es, rfl⟩⟩
      refine ⟨safe, (ih _ _ first comes.2).1 ⟨fun pre inside => ?_, fun pre e' inside => ?_⟩⟩
      · have later := always (e :: pre) (List.cons_prefix_cons.2 ⟨rfl, inside⟩)
        rw [asked, ← List.append_assoc] at later
        exact later
      · exact flushes (e :: pre) e' (List.cons_prefix_cons.2 ⟨rfl, inside⟩)
    · rintro ⟨safe, later⟩
      obtain ⟨after, first⟩ := one.2 safe
      obtain ⟨always, flushes⟩ := (ih _ _ after comes.2).2 later
      constructor
      · intro pre inside
        cases pre with
        | nil =>
          rw [asked, List.append_nil]
          exact delivered
        | cons e' pre =>
          obtain ⟨rfl, begins⟩ := List.cons_prefix_cons.1 inside
          rw [asked, ← List.append_assoc]
          exact always pre begins
      · intro pre e' inside
        cases pre with
        | nil =>
          obtain ⟨rfl, -⟩ := List.cons_prefix_cons.1 inside
          exact first
        | cons e'' pre =>
          obtain ⟨rfl, begins⟩ := List.cons_prefix_cons.1 inside
          exact flushes pre e' begins

def goodDisk : Nat → DiskAnswer := fun _ => .opened (.wrote 1024) (.wrote 1024)

/-- An operator asks for a K-line while an editor holds the lock of the K-line file. -/
def delayedKline : List KlineEvent :=
  [.connect 1 { Client.zero with name := lit "olly", username := lit "o", host := lit "irc.org" },
    .processes fun pid => pid == 4711,
    .lock (lit "kline.conf") (some (lit "4711\n")),
    .kline 1 (lit "*") (lit "bad.org") (lit "spam") none (lit "1999/3/1") goodDisk]

def delayedDline : KlineEvent :=
  .dline 1 (lit "10.0.0.0/24") (lit "spam") none (lit "1999/3/1") goodDisk

def banStart : KlineState := startUp (lit "kline.conf") (lit "dline.conf") fun _ => []

theorem comes_delayed :
    klineMachine.Meets (fun s e => e.Comes s) banStart (delayedKline ++ [delayedDline]) := by
  refine ⟨?_, ?_, ?_, ?_, ?_, trivial⟩
  · show 1 ∉ ([] : List Nat)
    decide
  · exact fun r no => by cases no
  · exact fun r no => by cases no
  · rintro r ⟨⟩
    show 1 ∈ ([1] : List Nat)
    decide
  · rintro r ⟨⟩
    show 1 ∈ (klineMachine.run banStart delayedKline).clients
    decide +kernel

/-- Once the lock is gone the next K-line brings both to their file. -/
def unlockedKline : List KlineEvent :=
  delayedKline ++ [.lock (lit "kline.conf") none,
    .kline 1 (lit "*") (lit "worse.org") (lit "spam") none (lit "1999/3/1") goodDisk]

theorem safe_unlockedKline : klineMachine.Meets Safe banStart unlockedKline := by
  have all : ∀ p ∈ (klineMachine.run banStart (delayedKline ++
      [.lock (lit "kline.conf") none])).pending,
      (klineMachine.run banStart (delayedKline ++ [.lock (lit "kline.conf") none])).Takes p
        (goodDisk 0) := by decide +kernel
  refine ⟨?_, ?_, ?_, ?_, ?_, ?_, trivial⟩
  · exact fun r no => by cases no
  · exact fun r no => by cases no
  · exact fun r no => by cases no
  · rintro r ⟨⟩ unlocked
    exact absurd unlocked (by decide +kernel)
  · exact fun r no => by cases no
  · rintro r ⟨⟩ -
    refine ⟨by decide +kernel, fun i p waits => ?_, by decide +kernel⟩
    exact all p (List.mem_of_getElem? waits)

theorem delivered_unlockedKline :
    (∀ pre, pre <+: unlockedKline → Delivered (fun _ => []) (asked banStart pre)
        (klineMachine.run banStart pre)) ∧
      ∀ pre e, pre ++ [e] <+: unlockedKline → (klineMachine.run banStart pre).FlushesOwn e := by
  have comes : klineMachine.Meets (fun s e => e.Comes s) banStart unlockedKline := by
    refine ⟨?_, ?_, ?_, ?_, ?_, ?_, trivial⟩
    · show 1 ∉ ([] : List Nat)
      decide
    · exact fun r no => by cases no
    · exact fun r no => by cases no
    · rintro r ⟨⟩
      show 1 ∈ ([1] : List Nat)
      decide
    · exact fun r no => by cases no
    · rintro r ⟨⟩
      show 1 ∈ (klineMachine.run banStart delayedKline).clients
      decide +kernel
  exact (delivered_iff_safe comes).2 safe_unlockedKline

/-- The next command is a DLINE: the K-line is nowhere. -/
theorem dline_misplaces :
    klineMachine.Meets (fun s e => e.Comes s) banStart (delayedKline ++ [delayedDline]) ∧
      ¬ Delivered (fun _ => []) (asked banStart (delayedKline ++ [delayedDline]))
        (klineMachine.run banStart (delayedKline ++ [delayedDline])) := by
  refine ⟨comes_delayed, fun delivered => ?_⟩
  obtain ⟨⟨done, all, contents⟩, -⟩ := delivered
  have pending : (klineMachine.run banStart (delayedKline ++ [delayedDline])).pending = [] := by
    decide +kernel
  have empty : (klineMachine.run banStart (delayedKline ++ [delayedDline])).files
      (lit "kline.conf") = [] := by decide +kernel
  have named : (klineMachine.run banStart (delayedKline ++ [delayedDline])).getConfName .kline =
      lit "kline.conf" := by decide +kernel
  have due : ∃ d ∈ asked banStart (delayedKline ++ [delayedDline]),
      d.type = .kline ∧ d.text ≠ [] := by decide +kernel
  obtain ⟨d, wanted, type, some⟩ := due
  rw [pending, List.map_nil, List.append_nil] at all
  have none := contents (lit "kline.conf")
  rw [empty, List.nil_append] at none
  have inside : d ∈ done.filter fun d =>
      (klineMachine.run banStart (delayedKline ++ [delayedDline])).getConfName d.type =
        lit "kline.conf" :=
    List.mem_filter.2 ⟨all.mem_iff.2 wanted, decide_eq_true (type ▸ named)⟩
  exact some (List.flatMap_eq_nil_iff.1 none.symm d inside)

end KlineState

end Ircd
