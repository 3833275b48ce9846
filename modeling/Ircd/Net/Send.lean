import Ircd.Channel.State
import Ircd.Net.Dbuf
import Mathlib.Data.List.Flatten

/-! `send_message` and `send_queued` of `send.c`, `zip_buffer` of `s_zip.c` and `m_list`.

The four call one another: `send_queued` goes back to `m_list` when a blocked listing has
drained, and every line of the listing may call `send_queued`. The socket and zlib stand
outside. `none` is a run that has used up its fuel.
-/

set_option autoImplicit false

namespace Ircd

/-- What is passed to `send_message`: the lines of `m_list`, or any other. -/
inductive Reply where
  | load2hi
  | listStart
  | list (chname : CStr) (users : Int) (topic : CStr)
  | listEnd
  | other (msg : CStr)
  deriving DecidableEq, Repr

def Reply.other? : Reply → Option CStr
  | .other msg => some msg
  | _ => none

/-- How `vsendto_one` ends a line of at most 512 bytes. -/
def endLine (line : CStr) : CStr := line.take 510 ++ lit "\r\n"

def Reply.text (me name : CStr) : Reply → CStr
  | .load2hi => endLine (lit ":" ++ me ++ lit " 263 " ++ name ++
      lit " :Server load is temporarily too heavy. Please wait a while and try again.")
  | .listStart => endLine (lit ":" ++ me ++ lit " 321 " ++ name ++ lit " Channel :Users  Name")
  | .list chname users topic =>
    endLine (lit ":" ++ me ++ lit " 322 " ++ name ++ lit " " ++ chname ++ lit " " ++
      formatD users ++ lit " :" ++ topic)
  | .listEnd => endLine (lit ":" ++ me ++ lit " 323 " ++ name ++ lit " :End of /LIST")
  | .other msg => msg

/-- A call of `send_message`, and what the limit check sees. -/
structure Passed where
  reply : Reply
  overLimit : Bool
  doingList : Bool
  deriving DecidableEq, Repr

def Passed.popped (e : Passed) : Bool := e.overLimit && e.doingList

structure ChannelBlock where
  list : List Channel
  links : Nat
  counted : links = list.length

/-- The stream after `deflate`, the input that is left, the output, and whether the result
is `Z_OK`. -/
structure Deflated (Z : Type) where
  zout : Z
  availIn : CStr
  out : CStr
  ok : Bool

/-- The world around one directly linked client. `sptr->user`, the name and the membership
of the client stay as they are. -/
structure SendEnv (W Z : Type) where
  me : CStr
  name : CStr
  self : ClientId
  user : Bool
  isServer : W → Bool
  isClient : W → Bool
  isAnOper : W → Bool
  getSendq : W → Nat
  currentTime : W → Int
  /-- `deliver_it`, with the number of bytes written if there is no error. -/
  deliverIt : W → (str : CStr) → W × Option (Fin (str.length + 1))
  deflate : Z → CStr → Deflated Z

/-- The output side of the client. `outbuf` has the `outcount` bytes that wait for `deflate`;
`listprogress` is `none` where the source has -1. `fault` says that `outbuf` has been written
over its end or that a null pointer was read, `delivered` and `passed` are what the socket
has taken and what has come. -/
structure Outlet (W Z : Type) where
  world : W
  sendQ : DbufMemory
  dead : Bool
  sendqex : Bool
  doingList : Bool
  sendqPop : Bool
  lastsq : Int
  listprogress : Option Nat
  listprogress2 : Nat
  zip : Bool
  zout : Z
  outbuf : CStr
  cburst : Bool
  lastUsed : Int
  channels : List ChannelBlock
  fault : Bool
  delivered : CStr
  passed : List Passed

def zipMinimum : Nat := 4096

def zipMaximum : Nat := 8192

def paceWait : Int := 10

def toShort (n : Nat) : Int := (n : Int).bmod (2 ^ 16)

namespace Outlet

variable {W Z : Type}

def sendqLength (s : Outlet W Z) : Nat := s.sendQ.dyn.length

/-- `dead_link`: the receive queue is not modelled. -/
def deadLink (s : Outlet W Z) : Outlet W Z :=
  { s with dead := true, sendQ := s.sendQ.dbufDelete s.sendqLength }

def put (s : Outlet W Z) (msg : CStr) : Outlet W Z :=
  { s with sendQ := s.sendQ.dbufPut msg }

variable (env : SendEnv W Z)

/-- `zip_buffer`: what it returns, `none` for a fatal error. -/
def zipBuffer (s : Outlet W Z) (buffer : CStr) (flush : Bool) : Outlet W Z × Option CStr :=
  let outbuf := s.outbuf ++ buffer
  let s := { s with outbuf, fault := s.fault || zipMaximum < outbuf.length }
  if !flush && (outbuf.length < zipMinimum || outbuf.length < zipMaximum - bufsize && s.cburst) then
    (s, some [])
  else
    let r := env.deflate s.zout outbuf
    let s := { s with zout := r.zout }
    if r.ok then ({ s with outbuf := [] }, some r.out) else (s, none)

/-- The message goes into the queue, or on its way through `outbuf`. -/
def enqueue (s : Outlet W Z) (msg : CStr) : Outlet W Z :=
  if s.zip then
    match s.zipBuffer env msg false with
    | (s, none) => { s with fault := true }
    | (s, some msg) => if msg = [] then s else s.put msg
  else s.put msg

def overLimit (s : Outlet W Z) : Bool := env.getSendq s.world < s.sendqLength

def record (s : Outlet W Z) (reply : Reply) : Outlet W Z :=
  { s with passed := s.passed ++
      [{ reply, overLimit := s.overLimit env, doingList := s.doingList }] }

def timeToSend (s : Outlet W Z) : Bool :=
  let sqInK : Int := s.sendqLength / 1024
  if env.isServer s.world then s.lastsq < sqInK else s.lastsq + 4 < sqInK

/-- `send_message`, where `queued` is `send_queued`. -/
def sendMessage (queued : Outlet W Z → Option (Outlet W Z)) (s : Outlet W Z) (reply : Reply) :
    Option (Outlet W Z) :=
  if s.dead then some s
  else if s.overLimit env then
    if s.doingList then some { s with sendqPop := true }
    else some { s with sendqex := s.sendqex || env.isClient s.world }.deadLink
  else
    let s := s.enqueue env (reply.text env.me env.name)
    if s.timeToSend env then queued s else some s

/-- A call of `send_message`, which is noted before it is made. -/
def call (queued : Outlet W Z → Option (Outlet W Z)) (s : Outlet W Z) (reply : Reply) :
    Option (Outlet W Z) :=
  (s.record env reply).sendMessage env queued reply

def isMember (chptr : Channel) : Bool := env.user && chptr.memberIds.contains env.self

def lists (chptr : Channel) : Bool :=
  env.user && !(chptr.mode.mode .modeSecret && !isMember env chptr)

def showChannel (chptr : Channel) : Bool :=
  !(chptr.mode.mode .modePrivate || chptr.mode.mode .modeSecret) || isMember env chptr

def rplList (chptr : Channel) : Reply :=
  .list (if showChannel env chptr then chptr.chname else lit "*") chptr.users
    (if showChannel env chptr then chptr.topic else [])

/-- The loop over the chain of bucket `i` from its entry `j` on, and whether it stopped
because the queue popped. -/
def listBlock (queued : Outlet W Z → Option (Outlet W Z)) (i progress2 : Nat) :
    Nat → List Channel → Outlet W Z → Option (Outlet W Z × Bool)
  | _, [], s => some (s, false)
  | j, chptr :: chain, s =>
    if j < progress2 then listBlock queued i progress2 (j + 1) chain s
    else if !lists env chptr then listBlock queued i progress2 (j + 1) chain s
    else do
      let s ← s.call env queued (rplList env chptr)
      if s.sendqPop then some ({ s with listprogress := some i, listprogress2 := j }, true)
      else listBlock queued i progress2 (j + 1) chain s

/-- The loop over the buckets from `i` on. Only a listing that resumes winds up to
`listprogress2`. -/
def listBlocks (queued : Outlet W Z → Option (Outlet W Z)) (resumes : Bool) :
    Nat → List ChannelBlock → Outlet W Z → Option (Outlet W Z × Bool)
  | _, [], s => some (s, false)
  | i, block :: blocks, s => do
    let progress2 := if resumes then s.listprogress2 else 0
    let (s, popped) ← listBlock env queued i progress2 0 (block.list.take block.links) s
    if popped then some (s, true)
    else
      listBlocks queued resumes (i + 1) blocks
        (if resumes then { s with listprogress2 := 0 } else s)

def listFinish (queued : Outlet W Z → Option (Outlet W Z)) (s : Outlet W Z) :
    Option (Outlet W Z) := do
  let s ← s.call env queued .listEnd
  if s.sendqPop then some { s with listprogress := none } else some { s with doingList := false }

def listResume (queued : Outlet W Z → Option (Outlet W Z)) (s : Outlet W Z) :
    Option (Outlet W Z) :=
  match s.listprogress with
  | none => listFinish env queued s
  | some i => do
    let (s, popped) ← listBlocks env queued true i (s.channels.drop i) s
    if popped then some s else listFinish env queued s

def listAll (queued : Outlet W Z → Option (Outlet W Z)) (s : Outlet W Z) :
    Option (Outlet W Z) := do
  let s := { s with doingList := true, sendqPop := false }
  let (s, popped) ← listBlocks env queued false 0 s.channels s
  if popped then some s else listFinish env queued s

def findChannel (channels : List ChannelBlock) (name : CStr) : Option Channel :=
  (channels.flatMap ChannelBlock.list).find? fun chptr => irccmp name chptr.chname = .eq

def listNamed (queued : Outlet W Z → Option (Outlet W Z)) (name : CStr) (s : Outlet W Z) :
    Option (Outlet W Z) :=
  match findChannel s.channels name with
  | none => some s
  | some chptr =>
    if showChannel env chptr && env.user then
      s.call env queued (.list name chptr.users chptr.topic)
    else some s

def listOne (queued : Outlet W Z → Option (Outlet W Z)) (name : CStr) (s : Outlet W Z) :
    Option (Outlet W Z) := do
  let s ← listNamed env queued name s
  s.call env queued .listEnd

def tooSoon (s : Outlet W Z) : Bool :=
  !env.isAnOper s.world && env.currentTime s.world < s.lastUsed + paceWait && !s.doingList

def useList (s : Outlet W Z) : Outlet W Z :=
  if env.isAnOper s.world then s else { s with lastUsed := env.currentTime s.world }

/-- `m_list`; an absent or empty `parv[1]` asks for all the channels. -/
def mList (queued : Outlet W Z → Option (Outlet W Z)) (parv1 : CStr) (s : Outlet W Z) :
    Option (Outlet W Z) :=
  if s.tooSoon env then s.call env queued .load2hi
  else if s.doingList then listResume env queued (s.useList env)
  else do
    let s ← (s.useList env).call env queued .listStart
    if parv1 = [] then listAll env queued s
    else listOne env queued (parv1.takeWhile (· != ',')) s

/-- All that waits in `outbuf` goes into the queue, and then on to `next`. -/
def flushOut (next : Outlet W Z → Option (Outlet W Z)) (s : Outlet W Z) : Option (Outlet W Z) :=
  match s.zipBuffer env [] true with
  | (s, none) => some s.deadLink
  | (s, some msg) => next (s.put msg)

/-- `send_queued` up to its loop, which is `drain`; `more` says that something is left in
`outbuf`. -/
def sendQueuedWith (drain : Bool → Outlet W Z → Option (Outlet W Z)) (s : Outlet W Z) :
    Option (Outlet W Z) :=
  if s.dead then some s
  else if s.zip && !s.outbuf.isEmpty then
    if 0 < s.sendqLength then drain true s else s.flushOut env (drain false)
  else drain false s

def deliver (s : Outlet W Z) (world : W) (rlen : Nat) : Outlet W Z :=
  let sendQ := s.sendQ.dbufDelete rlen
  { s with
    world
    delivered := s.delivered ++ s.sendQ.dbufMap.take rlen
    sendQ
    lastsq := toShort (sendQ.dyn.length / 1024) }

def relist (queued : Outlet W Z → Option (Outlet W Z)) (s : Outlet W Z) : Option (Outlet W Z) :=
  if s.sendqPop && s.sendqLength == 0 then mList env queued [] { s with sendqPop := false }
  else some s

def drain : Nat → Bool → Outlet W Z → Option (Outlet W Z)
  | 0, _, _ => none
  | fuel + 1, more, s =>
    if s.sendqLength = 0 then some s
    else
      match env.deliverIt s.world s.sendQ.dbufMap with
      | (world, none) => some { s with world }.deadLink
      | (world, some rlen) => do
        let full : Bool := s.sendQ.dbufMap.length ≤ rlen
        let s ← relist env (sendQueuedWith env (drain fuel)) (s.deliver world rlen)
        if !full then some s
        else if s.sendqLength = 0 ∧ more then s.flushOut env (drain fuel false)
        else drain fuel more s

def sendQueued (fuel : Nat) (s : Outlet W Z) : Option (Outlet W Z) :=
  sendQueuedWith env (drain env fuel) s

end Outlet

/-- What happens to the client between two turns of the main loop: a message for it, a chance
to write, a `LIST` of its own, a change of the channel table, time and other clients' `LIST`s,
and the beginning and the end of a connect burst. -/
inductive SendEvent (W : Type) where
  | message (msg : CStr)
  | queued
  | list (parv1 : CStr)
  | channels (channels : List ChannelBlock)
  | elsewhere (world : W) (lastUsed : Int)
  | burst (cburst : Bool)

def SendEvent.messages {W : Type} : SendEvent W → List CStr
  | .message msg => [msg]
  | _ => []

namespace Outlet

variable {W Z : Type} (env : SendEnv W Z)

def handle (fuel : Nat) (s : Outlet W Z) : SendEvent W → Option (Outlet W Z)
  | .message msg => s.call env (sendQueued env fuel) (.other msg)
  | .queued => s.sendQueued env fuel
  | .list parv1 => s.mList env (sendQueued env fuel) parv1
  | .channels channels => some { s with channels }
  | .elsewhere world lastUsed => some { s with world, lastUsed }
  | .burst cburst => some { s with cburst }

def run (fuel : Nat) : Outlet W Z → List (SendEvent W) → Option (Outlet W Z)
  | s, [] => some s
  | s, e :: es => do
    let s ← s.handle env fuel e
    run fuel s es

def new (world : W) (zout : Z) (channels : List ChannelBlock) : Outlet W Z where
  world := world
  sendQ :=
    { block := fun _ => DbufMemory.freshBlock, freeList := [], nextBlock := 0, usedCount := 0
      dyn := { head := none, tail := none, length := 0 } }
  dead := false
  sendqex := false
  doingList := false
  sendqPop := false
  lastsq := 0
  listprogress := some 0
  listprogress2 := 0
  zip := false
  zout := zout
  outbuf := []
  cburst := false
  lastUsed := 0
  channels := channels
  fault := false
  delivered := []
  passed := []

structure Fresh (s : Outlet W Z) : Prop where
  sendQ : s.sendQ.Ready
  dead : s.dead = false
  doingList : s.doingList = false
  sendqPop : s.sendqPop = false
  outbuf : s.outbuf = []
  fault : s.fault = false
  delivered : s.delivered = []
  passed : s.passed = []

def taken (s : Outlet W Z) : CStr :=
  ((s.passed.filter fun e => !e.popped).map fun e => e.reply.text env.me env.name).flatten

/-- A function that may run out of fuel keeps `P`. -/
def Keeps (P : Outlet W Z → Prop) (f : Outlet W Z → Option (Outlet W Z)) : Prop :=
  ∀ s s', P s → f s = some s' → P s'

/-- `P` stays through one turn of the loop of `send_queued`, through a write error and
through the flush of `outbuf`. -/
structure Drains (ziplink : Bool) (P : Outlet W Z → Prop) : Prop where
  zip : ∀ s, P s → s.zip = ziplink
  turn : ∀ fuel, Keeps P (sendQueued env fuel) → ∀ s world (rlen : Fin (s.sendQ.dbufMap.length + 1)),
    P s → s.sendqLength ≠ 0 → ∀ s', relist env (sendQueued env fuel) (s.deliver world rlen) = some s' →
    P s'
  writeError : ∀ s world, P s → P { s with world }.deadLink
  flushed : ziplink = true → ∀ s, P s → ∀ s' msg, s.zipBuffer env [] true = (s', some msg) →
    P (s'.put msg)
  unflushed : ziplink = true → ∀ s, P s → ∀ s', s.zipBuffer env [] true = (s', none) → P s'.deadLink

variable {env} {ziplink : Bool} {P : Outlet W Z → Prop}

theorem Drains.flushOut (drains : Drains env ziplink P) (zips : ziplink = true)
    {next : Outlet W Z → Option (Outlet W Z)} (keeps : Keeps P next) :
    Keeps P (Outlet.flushOut env next) := by
  intro s s' before run
  unfold Outlet.flushOut at run
  cases zipped : s.zipBuffer env [] true with
  | mk s₁ msg =>
    rw [zipped] at run
    cases msg with
    | none =>
      cases run
      exact drains.unflushed zips s before _ zipped
    | some msg => exact keeps _ _ (drains.flushed zips s before _ _ zipped) run

theorem Drains.sendQueuedWith (drains : Drains env ziplink P)
    {drain : Bool → Outlet W Z → Option (Outlet W Z)}
    (keeps : ∀ more, (more = true → ziplink = true) → Keeps P (drain more)) :
    Keeps P (Outlet.sendQueuedWith env drain) := by
  intro s s' before run
  unfold Outlet.sendQueuedWith at run
  split at run
  · cases run
    exact before
  · split at run
    · next waits =>
      have zips : ziplink = true := by
        rw [← drains.zip s before]
        exact (Bool.and_eq_true_iff.mp waits).1
      split at run
      · exact keeps true (fun _ => zips) s s' before run
      · exact drains.flushOut zips (keeps false fun _ => zips) s s' before run
    · exact keeps false (fun no => by cases no) s s' before run

/-- The loop of `send_queued`, and with it `send_queued` and all that it calls. -/
theorem Drains.drain (drains : Drains env ziplink P) (fuel : Nat) (more : Bool)
    (zips : more = true → ziplink = true) : Keeps P (Outlet.drain env fuel more) := by
  induction fuel generalizing more with
  | zero =>
    intro s s' _ run
    cases run
  | succ fuel ih =>
    intro s s' before run
    rw [Outlet.drain] at run
    split at run
    · cases run
      exact before
    · next filled =>
      split at run
      · cases run
        exact drains.writeError s _ before
      · next world rlen _ =>
        have inner := drains.sendQueuedWith fun more zips => ih more zips
        cases turn : relist env (Outlet.sendQueuedWith env (Outlet.drain env fuel))
            (s.deliver world rlen) with
        | none =>
          rw [turn] at run
          cases run
        | some s₁ =>
          have after := drains.turn fuel inner s world rlen before filled s₁ turn
          rw [turn] at run
          simp only [Option.bind_eq_bind, Option.bind_some] at run
          split at run
          · cases run
            exact after
          · split at run
            · next left =>
              have zips := zips left.2
              exact drains.flushOut zips (ih false fun _ => zips) s₁ s' after run
            · exact ih more zips s₁ s' after run

theorem Drains.sendQueued (drains : Drains env ziplink P) (fuel : Nat) :
    Keeps P (Outlet.sendQueued env fuel) :=
  drains.sendQueuedWith fun more zips => drains.drain fuel more zips

/-- `P` stays through each way that `send_message` takes with a message, short of
`send_queued`. -/
structure Sends (env : SendEnv W Z) (P : Outlet W Z → Prop) (reply : Reply) : Prop where
  dead : ∀ s, P s → s.dead = true → P (s.record env reply)
  taken : ∀ s, P s → s.dead = false → s.overLimit env = false →
    P ((s.record env reply).enqueue env (reply.text env.me env.name))
  popped : ∀ s, P s → s.dead = false → s.overLimit env = true → s.doingList = true →
    P { s.record env reply with sendqPop := true }
  refused : ∀ s, P s → s.dead = false → s.overLimit env = true → s.doingList = false →
    P { s.record env reply with sendqex := s.sendqex || env.isClient s.world }.deadLink

/-- `P` stays through what `m_list` does to the flags and to its position. -/
structure Lists (env : SendEnv W Z) (P : Outlet W Z → Prop) : Prop where
  sends : ∀ reply, reply.other? = none → Sends env P reply
  start : ∀ s, P s → P { s with doingList := true, sendqPop := false }
  clear : ∀ s, P s → P { s with sendqPop := false }
  finish : ∀ s, P s → s.sendqPop = false → P { s with doingList := false }
  seat : ∀ s i j, P s → P { s with listprogress := i, listprogress2 := j }
  used : ∀ s now, P s → P { s with lastUsed := now }

theorem Sends.call {reply : Reply} (sends : Sends env P reply)
    {queued : Outlet W Z → Option (Outlet W Z)} (keeps : Keeps P queued) :
    Keeps P fun s => s.call env queued reply := by
  intro s s' before run
  dsimp only at run
  unfold Outlet.call sendMessage at run
  split at run
  · next gone =>
    cases run
    exact sends.dead s before gone
  · next alive =>
    have alive : s.dead = false := Bool.eq_false_of_not_eq_true alive
    split at run
    · next exceeds =>
      split at run
      · next doing =>
        cases run
        exact sends.popped s before alive exceeds doing
      · next idle =>
        cases run
        exact sends.refused s before alive exceeds (Bool.eq_false_of_not_eq_true idle)
    · next within =>
      have after := sends.taken s before alive (Bool.eq_false_of_not_eq_true within)
      dsimp only at run
      split at run
      · exact keeps _ _ after run
      · cases run
        exact after

section

variable (lists : Lists env P) {queued : Outlet W Z → Option (Outlet W Z)}
  (keeps : Keeps P queued)
include lists keeps

theorem Lists.listBlock (i progress2 : Nat) (chain : List Channel) (j : Nat) {s s' : Outlet W Z}
    {popped : Bool} (before : P s)
    (run : Outlet.listBlock env queued i progress2 j chain s = some (s', popped)) : P s' := by
  induction chain generalizing j s with
  | nil =>
    cases run
    exact before
  | cons chptr chain ih =>
    rw [Outlet.listBlock] at run
    split at run
    · exact ih (j + 1) before run
    · split at run
      · exact ih (j + 1) before run
      · obtain ⟨s₁, sent, run⟩ := Option.bind_eq_some_iff.mp run
        have after := (lists.sends _ rfl).call keeps s s₁ before sent
        split at run
        · cases run
          exact lists.seat s₁ _ _ after
        · exact ih (j + 1) after run

theorem Lists.listBlocks (resumes : Bool) (blocks : List ChannelBlock) (i : Nat)
    {s s' : Outlet W Z} {popped : Bool} (before : P s)
    (run : Outlet.listBlocks env queued resumes i blocks s = some (s', popped)) : P s' := by
  induction blocks generalizing i s with
  | nil =>
    cases run
    exact before
  | cons block blocks ih =>
    rw [Outlet.listBlocks] at run
    obtain ⟨⟨s₁, popped₁⟩, sent, run⟩ := Option.bind_eq_some_iff.mp run
    have after := lists.listBlock keeps i _ _ 0 before sent
    dsimp only at run
    split at run
    · cases run
      exact after
    · split at run
      · exact ih (i + 1) (lists.seat s₁ _ _ after) run
      · exact ih (i + 1) after run

theorem Lists.listFinish : Keeps P (Outlet.listFinish env queued) := by
  intro s s' before run
  unfold Outlet.listFinish at run
  obtain ⟨s₁, sent, run⟩ := Option.bind_eq_some_iff.mp run
  have after := (lists.sends _ rfl).call keeps s s₁ before sent
  split at run
  · cases run
    exact lists.seat s₁ _ _ after
  · next clear =>
    cases run
    exact lists.finish s₁ after (Bool.eq_false_of_not_eq_true clear)

theorem Lists.listResume : Keeps P (Outlet.listResume env queued) := by
  intro s s' before run
  unfold Outlet.listResume at run
  split at run
  · exact lists.listFinish keeps s s' before run
  · obtain ⟨⟨s₁, popped⟩, sent, run⟩ := Option.bind_eq_some_iff.mp run
    have after := lists.listBlocks keeps _ _ _ before sent
    dsimp only at run
    split at run
    · cases run
      exact after
    · exact lists.listFinish keeps s₁ s' after run

theorem Lists.listAll : Keeps P (Outlet.listAll env queued) := by
  intro s s' before run
  unfold Outlet.listAll at run
  obtain ⟨⟨s₁, popped⟩, sent, run⟩ := Option.bind_eq_some_iff.mp run
  have after := lists.listBlocks keeps _ _ _ (lists.start s before) sent
  dsimp only at run
  split at run
  · cases run
    exact after
  · exact lists.listFinish keeps s₁ s' after run

theorem Lists.listNamed (name : CStr) : Keeps P (Outlet.listNamed env queued name) := by
  intro s s' before run
  unfold Outlet.listNamed at run
  split at run
  · cases run
    exact before
  · split at run
    · exact (lists.sends _ rfl).call keeps s s' before run
    · cases run
      exact before

theorem Lists.listOne (name : CStr) : Keeps P (Outlet.listOne env queued name) := by
  intro s s' before run
  unfold Outlet.listOne at run
  obtain ⟨s₁, sent, run⟩ := Option.bind_eq_some_iff.mp run
  exact (lists.sends _ rfl).call keeps s₁ s' (lists.listNamed keeps name s s₁ before sent) run

theorem Lists.mList (parv1 : CStr) : Keeps P (Outlet.mList env queued parv1) := by
  intro s s' before run
  have used : P (s.useList env) := by
    unfold useList
    split
    · exact before
    · exact lists.used s _ before
  unfold Outlet.mList at run
  split at run
  · exact (lists.sends _ rfl).call keeps s s' before run
  · split at run
    · exact lists.listResume keeps _ s' used run
    · obtain ⟨s₁, sent, run⟩ := Option.bind_eq_some_iff.mp run
      have after := (lists.sends _ rfl).call keeps _ s₁ used sent
      split at run
      · exact lists.listAll keeps s₁ s' after run
      · exact lists.listOne keeps _ s₁ s' after run

theorem Lists.relist : Keeps P (Outlet.relist env queued) := by
  intro s s' before run
  unfold Outlet.relist at run
  split at run
  · exact lists.mList keeps _ _ s' (lists.clear s before) run
  · cases run
    exact before

end

/-- A rule for the loop where one turn is the socket's part and then the listing's. -/
theorem Drains.of_lists (zip : ∀ s, P s → s.zip = ziplink) (lists : Lists env P)
    (deliver : ∀ s world (rlen : Nat), P s → rlen ≤ s.sendQ.dbufMap.length →
      P (s.deliver world rlen))
    (writeError : ∀ s world, P s → P { s with world }.deadLink)
    (flushed : ziplink = true → ∀ s, P s → ∀ s' msg, s.zipBuffer env [] true = (s', some msg) →
      P (s'.put msg))
    (unflushed : ziplink = true → ∀ s, P s → ∀ s', s.zipBuffer env [] true = (s', none) →
      P s'.deadLink) : Drains env ziplink P where
  zip := zip
  turn _ keeps s world rlen before _ s' run :=
    lists.relist keeps _ s' (deliver s world rlen before (Nat.lt_succ_iff.mp rlen.isLt)) run
  writeError := writeError
  flushed := flushed
  unflushed := unflushed

theorem Lists.handle (lists : Lists env P) (other : ∀ msg, Sends env P (.other msg))
    (drains : Drains env ziplink P)
    (channels : ∀ s t, P s → P { s with channels := t })
    (elsewhere : ∀ s w t, P s → P { s with world := w, lastUsed := t })
    (burst : ∀ s b, P s → P { s with cburst := b }) (fuel : Nat) (e : SendEvent W) :
    Keeps P fun s => s.handle env fuel e := by
  have queued := drains.sendQueued fuel
  intro s s' before run
  cases e with
  | message msg => exact (other msg).call queued s s' before run
  | queued => exact queued s s' before run
  | list parv1 => exact lists.mList queued parv1 s s' before run
  | channels t =>
    cases run
    exact channels s t before
  | elsewhere w t =>
    cases run
    exact elsewhere s w t before
  | burst b =>
    cases run
    exact burst s b before

theorem run_keeps {fuel : Nat} {ok : SendEvent W → Prop}
    (keeps : ∀ e, ok e → Keeps P fun s => s.handle env fuel e) (es : List (SendEvent W))
    (all : ∀ e ∈ es, ok e) : Keeps P fun s => s.run env fuel es := by
  intro s s' before run
  induction es generalizing s with
  | nil =>
    cases run
    exact before
  | cons e es ih =>
    obtain ⟨s₁, handled, run⟩ := Option.bind_eq_some_iff.mp run
    have after := keeps e (all e List.mem_cons_self) s s₁ before handled
    exact ih (fun e mem => all e (List.mem_cons_of_mem _ mem)) s₁ after run

end Outlet

end Ircd
