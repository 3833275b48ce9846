import Ircd.Conf.File
import Ircd.Net.Dbuf

/-! Flood control: the clock `since` of a client, which `parse` puts forward, `read_packet`
brings up to the time and `parse_client_queued` compares with it.

The client is a local one that is not a server, from its first visit by `read_message` on.
The rest of the server stands outside.
-/

set_option autoImplicit false

namespace Ircd

/-- The world around a client: its flags, the table of commands with their flags, what `parse`
does with a line beyond its effect on `since`, and whether the client is gone then. -/
structure FloodEnv (W : Type) where
  isDead : W → Bool
  isPerson : W → Bool
  isAnOper : W → Bool
  canFlood : W → Bool
  sendQ : W → Bool
  treeParse : CStr → Option Nat
  parseRest : W → CStr → W × Bool
  sendQueued : W → W
  exitClient : W → W

/-- A throttled command in `parse`: the time, and `since` before it. -/
structure Throttled where
  time : Int
  since : Int
  deriving DecidableEq, Repr

/-- The fields of a client that flood control works on. `executed` are the throttled commands
so far, `visited` is the time of the last visit of `read_message`, and `skipped` says that it
ended with the write, or with a read that would block, and did not look at the queue. -/
structure FloodClient (W : Type) where
  world : W
  recvQ : CStr
  noNewLine : Bool
  since : Int
  lasttime : Int
  receiveM : Nat
  currentTime : Int
  exited : Bool
  executed : List Throttled
  visited : Int
  skipped : Bool

def readbufSize : Nat := 16384

def clientFlood : Nat := 2560

def sbsdMaxClient : Nat := 6090

/-- The line in `parse` behind blanks and a prefix. -/
def skipPrefix (pbuffer : CStr) : CStr :=
  match pbuffer.dropWhile (· == ' ') with
  | ':' :: rest => (rest.dropWhile (· != ' ')).dropWhile (· == ' ')
  | ch => ch

def isNumeric : CStr → Bool
  | a :: b :: c :: ' ' :: _ => isDigit a && isDigit b && isDigit c
  | _ => false

namespace FloodClient

variable {W : Type}

def exit (env : FloodEnv W) (c : FloodClient W) : FloodClient W :=
  { c with world := env.exitClient c.world, exited := true }

def throttledLength (env : FloodEnv W) (pbuffer : CStr) : Option Nat :=
  let ch := skipPrefix pbuffer
  if ch = [] ∨ isNumeric ch then none
  else
    let (command, length) :=
      match cutAt ' ' ch with
      | some (command, rest) => (command, rest.length)
      | none => (ch, ch.length)
    match env.treeParse command with
    | none => none
    | some flags => if flags % 2 = 1 then some length else none

def throttle (env : FloodEnv W) (c : FloodClient W) (i : Nat) : FloodClient W :=
  let charge : Nat :=
    if env.isAnOper c.world || env.canFlood c.world then if c.receiveM % 5 = 0 then 0 else 1
    else 2 + i / 120
  { c with
    since := c.since + charge
    executed := c.executed ++ [{ time := c.currentTime, since := c.since }] }

def parse (env : FloodEnv W) (c : FloodClient W) (pbuffer : CStr) : FloodClient W × Bool :=
  if env.isDead c.world then (c, false)
  else
    let c :=
      match throttledLength env pbuffer with
      | none => c
      | some i => c.throttle env i
    let (world, clientExited) := env.parseRest c.world pbuffer
    ({ c with world }, clientExited)

def clientDopacket (env : FloodEnv W) (c : FloodClient W) (buffer : CStr) : FloodClient W :=
  let (c, clientExited) :=
    { c with receiveM := c.receiveM + 1 }.parse env ((cString buffer).take bufsize)
  if clientExited then { c with exited := true }
  else if env.isDead c.world then c.exit env
  else c

/-- The loop of `parse_client_queued`; each turn takes at least one byte. -/
def parseLoop (env : FloodEnv W) : Nat → FloodClient W → FloodClient W
  | 0, c => c
  | fuel + 1, c =>
    if c.recvQ = [] ∨ c.noNewLine = true ∨ 10 ≤ c.since - c.currentTime then c
    else
      let (recvQ, readBuf) := DbufMemory.cutMsg c.recvQ readbufSize
      let c := { c with recvQ }
      if readBuf = [] then
        if c.recvQ.length < 510 then { c with noNewLine := true } else { c with recvQ := [] }
      else
        let c := c.clientDopacket env readBuf
        if c.exited then c else parseLoop env fuel c

def parseClientQueued (env : FloodEnv W) (c : FloodClient W) : FloodClient W :=
  parseLoop env c.recvQ.length c

/-- `read_packet`, with the bytes that `recv` gives: none at the end or on an error, and
nothing at all if it would block. -/
def readPacket (env : FloodEnv W) (c : FloodClient W) (recv : Option CStr) : FloodClient W :=
  if env.isPerson c.world = true ∧ sbsdMaxClient < c.recvQ.length then c.exit env
  else
    match recv with
    | none => { c with skipped := true }
    | some [] => c.exit env
    | some (b :: bytes) =>
      let c := { c with
        lasttime := c.currentTime
        since := max c.since c.currentTime
        noNewLine := false
        recvQ := c.recvQ ++ b :: bytes }
      if env.isPerson c.world = true ∧ env.isAnOper c.world = false ∧
          clientFlood < c.recvQ.length then c.exit env
      else c.parseClientQueued env

structure Visit where
  time : Int
  writable : Bool
  readable : Option (Option CStr)

def beforeSelect (env : FloodEnv W) (c : FloodClient W) : FloodClient W :=
  if c.recvQ.length < 4088 then c else c.parseClientQueued env

/-- `select`: the time of the visit, and whether it will be a write. -/
def select (env : FloodEnv W) (c : FloodClient W) (v : Visit) : FloodClient W :=
  { c with
    currentTime := v.time
    visited := v.time
    skipped := v.writable && env.sendQ c.world }

def readMessage (env : FloodEnv W) (c : FloodClient W) (v : Visit) : FloodClient W :=
  let reads := c.recvQ.length < 4088
  let c := c.beforeSelect env
  if c.exited then c
  else
    let c := c.select env v
    if c.skipped then
      let c := { c with world := env.sendQueued c.world }
      if env.isDead c.world then c.exit env else c
    else
      match (if reads then v.readable else none) with
      | some recv => c.readPacket env recv
      | none => if c.noNewLine then c else c.parseClientQueued env

/-- What happens to a client: a visit, the clock, and what others do to its world, which may
clear its queue. -/
inductive FloodEvent (W : Type) where
  | visit (v : Visit)
  | clock (time : Int)
  | others (world : W) (clear : Bool)

def handle (env : FloodEnv W) (c : FloodClient W) : FloodEvent W → FloodClient W
  | .visit v => if c.exited then c else c.readMessage env v
  | .clock time => { c with currentTime := time }
  | .others world clear => { c with world, recvQ := if clear then [] else c.recvQ }

def machine (env : FloodEnv W) : Machine (FloodClient W) (FloodEvent W) := ⟨handle env⟩

def Regular (c : FloodClient W) : FloodEvent W → Prop
  | .visit v => c.currentTime ≤ v.time ∧ v.time ≤ c.visited + 1
  | .clock time => c.currentTime ≤ time
  | .others _ _ => True

instance (c : FloodClient W) (e : FloodEvent W) : Decidable (c.Regular e) :=
  match e with
  | .visit v => inferInstanceAs (Decidable (c.currentTime ≤ v.time ∧ v.time ≤ c.visited + 1))
  | .clock time => inferInstanceAs (Decidable (c.currentTime ≤ time))
  | .others _ _ => isTrue trivial

/-- After visits that did not look at the queue, the lines in it wait for a read, unless `since`
is not behind the clock. -/
def Prompt (env : FloodEnv W) (c : FloodClient W) : FloodEvent W → Prop
  | .visit v => c.skipped = true → c.recvQ ≠ [] → c.noNewLine = false →
      if c.recvQ.length < 4088 then
        (v.writable && env.sendQ c.world) = true ∨ v.readable ≠ none ∨ v.time ≤ c.since
      else c.currentTime ≤ c.since
  | _ => True

instance (env : FloodEnv W) (c : FloodClient W) (e : FloodEvent W) : Decidable (c.Prompt env e) :=
  match e with
  | .visit v => inferInstanceAs (Decidable (c.skipped = true → c.recvQ ≠ [] → c.noNewLine = false →
      if c.recvQ.length < 4088 then
        (v.writable && env.sendQ c.world) = true ∨ v.readable ≠ none ∨ v.time ≤ c.since
      else c.currentTime ≤ c.since))
  | .clock _ => isTrue trivial
  | .others _ _ => isTrue trivial

structure Fresh (c : FloodClient W) : Prop where
  recvQ : c.recvQ = []
  executed : c.executed = []
  visited : c.visited = c.currentTime

/-- The throttled commands from `a` on within `t` seconds. -/
def executedWithin (c : FloodClient W) (a : Int) (t : Nat) : List Throttled :=
  c.executed.filter fun e => a ≤ e.time ∧ e.time ≤ a + t

/-- The commands were executed when `since` was less than ten seconds ahead of the clock and not
behind it, and each has been charged two seconds. -/
structure Spaced (c : FloodClient W) : Prop where
  apart : c.executed.Pairwise fun x y => x.since + 2 ≤ y.since
  inTime : ∀ x ∈ c.executed, x.time ≤ x.since ∧ x.since < x.time + 10
  charged : ∀ x ∈ c.executed, x.since + 2 ≤ c.since

variable {c c' : FloodClient W} {env : FloodEnv W}

theorem length_of_apart {l : List Throttled} (apart : l.Pairwise fun x y => x.since + 2 ≤ y.since)
    {lo hi : Int} (room : lo ≤ hi + 2) (inside : ∀ x ∈ l, lo ≤ x.since ∧ x.since ≤ hi) :
    2 * (l.length : Int) ≤ hi - lo + 2 := by
  induction l generalizing lo with
  | nil =>
    rw [List.length_nil]
    omega
  | cons x l ih =>
    obtain ⟨first, apart⟩ := List.pairwise_cons.1 apart
    obtain ⟨low, high⟩ := inside x List.mem_cons_self
    have rest := ih apart (by omega) fun y there =>
      ⟨first y there, (inside y (List.mem_cons_of_mem x there)).2⟩
    rw [List.length_cons]
    omega

theorem Spaced.window (h : Spaced c) (a : Int) (t : Nat) :
    (c.executedWithin a t).length ≤ (t + 10) / 2 + 1 := by
  have apart := h.apart.sublist
    (List.filter_sublist (p := fun e : Throttled => a ≤ e.time ∧ e.time ≤ a + t))
  have spread : 2 * ((c.executed.filter fun e : Throttled =>
      a ≤ e.time ∧ e.time ≤ a + t).length : Int) ≤ a + t + 9 - a + 2 :=
    length_of_apart apart (by omega) fun x there => by
    obtain ⟨inside, within⟩ := List.mem_filter.1 there
    have bounds := of_decide_eq_true within
    have inTime := h.inTime x inside
    omega
  change (List.filter _ c.executed).length ≤ _
  omega

/-- What `parse` changes beyond the world: it may charge the client. -/
structure Charged (c c' : FloodClient W) : Prop where
  recvQ : c'.recvQ = c.recvQ
  noNewLine : c'.noNewLine = c.noNewLine
  currentTime : c'.currentTime = c.currentTime
  visited : c'.visited = c.visited
  skipped : c'.skipped = c.skipped
  since : c.since ≤ c'.since
  spaced : c'.Spaced

def Plain (env : FloodEnv W) : Prop :=
  ∀ w, env.isAnOper w = false ∧ env.canFlood w = false

theorem Charged.throttle (plain : Plain env) (h : c.Spaced) (late : c.currentTime ≤ c.since)
    (early : c.since < c.currentTime + 10) (i : Nat) : Charged c (c.throttle env i) := by
  obtain ⟨user, counted⟩ := plain c.world
  have paid : (c.throttle env i).since = c.since + (2 + i / 120 : Nat) := by
    simp only [FloodClient.throttle, user, counted, Bool.or_self, Bool.false_eq_true, ite_false]
  refine ⟨rfl, rfl, rfl, rfl, rfl, by rw [paid]; omega, ?_, fun x there => ?_, fun x there => ?_⟩
  · refine List.pairwise_append.2 ⟨h.apart, List.pairwise_singleton _ _, fun x there y last => ?_⟩
    rw [List.mem_singleton.1 last]
    exact h.charged x there
  · rcases List.mem_append.1 there with there | last
    · exact h.inTime x there
    · rw [List.mem_singleton.1 last]
      exact ⟨late, early⟩
  · rw [paid]
    rcases List.mem_append.1 there with there | last
    · have before := h.charged x there
      omega
    · rw [List.mem_singleton.1 last]
      change c.since + 2 ≤ _
      omega

theorem Charged.around (h : Charged c c') (world : W) (exited : Bool) (receiveM : Nat) :
    Charged c { c' with world, exited, receiveM } where
  recvQ := h.recvQ
  noNewLine := h.noNewLine
  currentTime := h.currentTime
  visited := h.visited
  skipped := h.skipped
  since := h.since
  spaced := ⟨h.spaced.apart, h.spaced.inTime, h.spaced.charged⟩

theorem Charged.parse (plain : Plain env) (h : c.Spaced) (late : c.currentTime ≤ c.since)
    (early : c.since < c.currentTime + 10) (pbuffer : CStr) :
    Charged c (c.parse env pbuffer).1 := by
  have free : Charged c c := ⟨rfl, rfl, rfl, rfl, rfl, Int.le_refl _, h⟩
  unfold FloodClient.parse
  split
  next => exact free
  next =>
    cases throttledLength env pbuffer with
    | none => exact free.around _ c.exited c.receiveM
    | some i =>
      exact (Charged.throttle plain h late early i).around _ (c.throttle env i).exited
        (c.throttle env i).receiveM

theorem Charged.clientDopacket (plain : Plain env) (h : c.Spaced) (late : c.currentTime ≤ c.since)
    (early : c.since < c.currentTime + 10) (buffer : CStr) :
    Charged c (c.clientDopacket env buffer) := by
  have counted : FloodClient.Spaced { c with receiveM := c.receiveM + 1 } :=
    ⟨h.apart, h.inTime, h.charged⟩
  have parsed := Charged.parse plain counted late early ((cString buffer).take bufsize)
  have whole : Charged c
      (FloodClient.parse env { c with receiveM := c.receiveM + 1 }
        ((cString buffer).take bufsize)).1 :=
    ⟨parsed.recvQ, parsed.noNewLine, parsed.currentTime, parsed.visited, parsed.skipped,
      parsed.since, parsed.spaced⟩
  unfold FloodClient.clientDopacket
  dsimp only
  split
  next => exact whole.around _ true _
  next =>
    split
    next => exact whole.around _ true _
    next => exact whole

theorem cutMsg_shorter {xs : CStr} {n : Nat} (some : (DbufMemory.cutMsg xs n).2 ≠ []) :
    (DbufMemory.cutMsg xs n).1.length < xs.length := by
  unfold DbufMemory.cutMsg at some ⊢
  dsimp only at some ⊢
  have flushed := (List.dropWhile_suffix (l := xs) isEol).length_le
  cases line : DbufMemory.lineWithin (xs.dropWhile isEol) n with
  | none =>
    rw [line] at some
    exact absurd rfl some
  | some text =>
    rw [line] at some
    have inside : text.length ≤ (xs.dropWhile isEol).length := by
      unfold DbufMemory.lineWithin at line
      dsimp only at line
      split at line
      next =>
        cases line
        exact (List.takeWhile_prefix _).length_le.trans (List.take_prefix _ _).length_le
      next => cases line
    have long : 0 < text.length := List.length_pos_of_ne_nil some
    have tail := (List.dropWhile_suffix (l := (xs.dropWhile isEol).drop text.length) isEol).length_le
    rw [List.length_drop] at tail
    dsimp only
    omega

/-- There is nothing for `parse_client_queued` to do until the time `t + 10`. -/
def IdleUntil (c : FloodClient W) (t : Int) : Prop :=
  c.exited = true ∨ c.recvQ = [] ∨ c.noNewLine = true ∨ t + 10 ≤ c.since

structure Parsed (c c' : FloodClient W) : Prop where
  currentTime : c'.currentTime = c.currentTime
  visited : c'.visited = c.visited
  skipped : c'.skipped = c.skipped
  since : c.since ≤ c'.since
  spaced : c'.Spaced
  idle : c'.IdleUntil c.currentTime

theorem Charged.parsed {d : FloodClient W} (charged : Charged c c') (parsed : Parsed c' d) :
    Parsed c d where
  currentTime := parsed.currentTime.trans charged.currentTime
  visited := parsed.visited.trans charged.visited
  skipped := parsed.skipped.trans charged.skipped
  since := Int.le_trans charged.since parsed.since
  spaced := parsed.spaced
  idle := charged.currentTime ▸ parsed.idle

/-- The loop of `parse_client_queued`, where `since` is not behind the clock. -/
theorem parseLoop_parsed (plain : Plain env) (fuel : Nat) {c : FloodClient W}
    (enough : c.recvQ.length ≤ fuel) (h : c.Spaced)
    (late : c.recvQ ≠ [] → c.noNewLine = false → c.currentTime ≤ c.since) :
    Parsed c (parseLoop env fuel c) := by
  induction fuel generalizing c with
  | zero =>
    have empty := List.length_eq_zero_iff.1 (Nat.le_zero.1 enough)
    exact ⟨rfl, rfl, rfl, Int.le_refl _, h, .inr (.inl empty)⟩
  | succ fuel ih =>
    rw [parseLoop]
    split
    next done =>
      refine ⟨rfl, rfl, rfl, Int.le_refl _, h, .inr ?_⟩
      exact done.imp id (Or.imp id fun ahead => by omega)
    next going =>
      rw [not_or, not_or, Bool.not_eq_true] at going
      obtain ⟨queued, newLine, early⟩ := going
      -- the penalty is paid at each message, so `since` stays near the clock
      have late := late queued newLine
      have early : c.since < c.currentTime + 10 := by omega
      have rest : FloodClient.Spaced { c with recvQ := (DbufMemory.cutMsg c.recvQ readbufSize).1 } :=
        ⟨h.apart, h.inTime, h.charged⟩
      dsimp only
      split
      next =>
        split
        next =>
          exact ⟨rfl, rfl, rfl, Int.le_refl _, ⟨h.apart, h.inTime, h.charged⟩,
            .inr (.inr (.inl rfl))⟩
        next =>
          exact ⟨rfl, rfl, rfl, Int.le_refl _, ⟨h.apart, h.inTime, h.charged⟩, .inr (.inl rfl)⟩
      next line =>
        have charged := Charged.clientDopacket plain rest late early
          (DbufMemory.cutMsg c.recvQ readbufSize).2
        split
        next exited =>
          exact ⟨charged.currentTime, charged.visited, charged.skipped, charged.since,
            charged.spaced, .inl exited⟩
        next =>
          have shorter := cutMsg_shorter line
          have less : (clientDopacket env
              { c with recvQ := (DbufMemory.cutMsg c.recvQ readbufSize).1 }
              (DbufMemory.cutMsg c.recvQ readbufSize).2).recvQ.length ≤ fuel := by
            rw [charged.recvQ]
            exact Nat.le_of_lt_succ (shorter.trans_le enough)
          have after := charged.parsed (ih less charged.spaced fun _ _ => by
            rw [charged.currentTime]
            exact Int.le_trans late charged.since)
          exact ⟨after.currentTime, after.visited, after.skipped, after.since, after.spaced,
            after.idle⟩

theorem parseClientQueued_parsed (plain : Plain env) (h : c.Spaced)
    (late : c.recvQ ≠ [] → c.noNewLine = false → c.currentTime ≤ c.since) :
    Parsed c (c.parseClientQueued env) :=
  parseLoop_parsed plain c.recvQ.length le_rfl h late

/-- What holds between the events: a visit that looked at the queue has left nothing to do for
ten seconds. -/
structure Calm (c : FloodClient W) : Prop where
  spaced : c.Spaced
  seen : c.visited ≤ c.currentTime
  idle : c.skipped = false → c.IdleUntil c.visited

theorem Fresh.calm (h : c.Fresh) : c.Calm := by
  refine ⟨⟨?_, ?_, ?_⟩, Int.le_of_eq h.visited, fun _ => .inr (.inl h.recvQ)⟩
  · rw [h.executed]
    exact .nil
  · rw [h.executed]
    exact fun x none => absurd none List.not_mem_nil
  · rw [h.executed]
    exact fun x none => absurd none List.not_mem_nil

theorem exit_calm (h : c.Spaced) (seen : c.visited ≤ c.currentTime) : (c.exit env).Calm :=
  ⟨⟨h.apart, h.inTime, h.charged⟩, seen, fun _ => .inl rfl⟩

theorem Parsed.calm (h : Parsed c c') (same : c.visited = c.currentTime) : c'.Calm := by
  have visited := h.visited.trans same
  refine ⟨h.spaced, Int.le_of_eq (visited.trans h.currentTime.symm), fun _ => ?_⟩
  rw [visited]
  exact h.idle

theorem readPacket_calm (plain : Plain env) (h : c.Spaced) (same : c.visited = c.currentTime)
    (recv : Option CStr) : (c.readPacket env recv).Calm := by
  unfold readPacket
  split
  next => exact exit_calm h (Int.le_of_eq same)
  next =>
    split
    next => exact ⟨⟨h.apart, h.inTime, h.charged⟩, Int.le_of_eq same, fun looked => by cases looked⟩
    next => exact exit_calm h (Int.le_of_eq same)
    next b bytes =>
      have caught : FloodClient.Spaced { c with
          lasttime := c.currentTime
          since := max c.since c.currentTime
          noNewLine := false
          recvQ := c.recvQ ++ b :: bytes } :=
        ⟨h.apart, h.inTime, fun x there => Int.le_trans (h.charged x there) (Int.le_max_left _ _)⟩
      dsimp only
      split
      next => exact exit_calm caught (Int.le_of_eq same)
      next =>
        exact (parseClientQueued_parsed plain caught fun _ _ => Int.le_max_right _ _).calm same

/-- The part before `select`: what is queued then can be read at the time of the visit. -/
theorem beforeSelect_calm (plain : Plain env) (h : c.Calm) (alive : c.exited = false) {v : Visit}
    (regular : c.Regular (.visit v)) (prompt : c.Prompt env (.visit v)) :
    (c.beforeSelect env).Spaced ∧ (c.beforeSelect env).visited ≤ (c.beforeSelect env).currentTime ∧
      ((c.beforeSelect env).exited = false →
      (c.beforeSelect env).recvQ ≠ [] → (c.beforeSelect env).noNewLine = false →
      (v.writable && env.sendQ (c.beforeSelect env).world) = false →
      (if c.recvQ.length < 4088 then v.readable else none) = none →
      v.time ≤ (c.beforeSelect env).since) := by
  obtain ⟨forward, soon⟩ := regular
  have seen := h.seen
  unfold beforeSelect
  -- the queue is parsed in the loop over the clients if it is long, and left for later otherwise
  split
  next short =>
    refine ⟨h.spaced, seen, fun _ queued newLine writes unread => ?_⟩
    cases skipped : c.skipped with
    | true =>
      have inTime := prompt skipped queued newLine
      rw [if_pos short, writes] at inTime
      exact (inTime.resolve_left Bool.false_ne_true).resolve_left fun other => other unread
    | false =>
      rcases h.idle skipped with gone | empty | waiting | ahead
      · rw [alive] at gone
        cases gone
      · exact absurd empty queued
      · rw [newLine] at waiting
        cases waiting
      · omega
  next long =>
    have parsed : Parsed c (c.parseClientQueued env) :=
      parseClientQueued_parsed plain h.spaced fun queued newLine => by
        cases skipped : c.skipped with
        | true =>
          have inTime := prompt skipped queued newLine
          rwa [if_neg long] at inTime
        | false =>
          rcases h.idle skipped with gone | empty | waiting | ahead
          · rw [alive] at gone
            cases gone
          · exact absurd empty queued
          · rw [newLine] at waiting
            cases waiting
          · omega
    refine ⟨parsed.spaced, by rw [parsed.visited, parsed.currentTime]; exact seen,
      fun alive queued newLine _ _ => ?_⟩
    rcases parsed.idle with gone | empty | waiting | ahead
    · rw [alive] at gone
      cases gone
    · exact absurd empty queued
    · rw [newLine] at waiting
      cases waiting
    · omega

theorem readMessage_calm (plain : Plain env) (h : c.Calm) (alive : c.exited = false) {v : Visit}
    (regular : c.Regular (.visit v)) (prompt : c.Prompt env (.visit v)) :
    (c.readMessage env v).Calm := by
  obtain ⟨before, seen, inTime⟩ := beforeSelect_calm plain h alive regular prompt
  have spaced : ((c.beforeSelect env).select env v).Spaced :=
    ⟨before.apart, before.inTime, before.charged⟩
  unfold readMessage
  dsimp only
  split
  next gone => exact ⟨before, seen, fun _ => .inl gone⟩
  next running =>
    have inTime := inTime (Bool.not_eq_true _ ▸ running)
    split
    next writes =>
      split
      next => exact exit_calm ⟨spaced.apart, spaced.inTime, spaced.charged⟩ (Int.le_refl _)
      next =>
        refine ⟨⟨spaced.apart, spaced.inTime, spaced.charged⟩, Int.le_refl _, fun looked => ?_⟩
        exact absurd (writes.symm.trans looked) (by decide)
    next unwritten =>
      split
      next recv _ => exact readPacket_calm plain spaced rfl recv
      next unread =>
        split
        next newLine => exact ⟨spaced, Int.le_refl _, fun _ => .inr (.inr (.inl newLine))⟩
        next =>
          have parsed := parseClientQueued_parsed plain spaced fun queued newLine =>
            inTime queued newLine (Bool.not_eq_true _ ▸ unwritten) unread
          exact parsed.calm rfl

theorem step_calm (plain : Plain env) (h : c.Calm) {e : FloodEvent W} (regular : c.Regular e)
    (prompt : c.Prompt env e) : ((machine env).step c e).Calm := by
  cases e with
  | visit v =>
    change (if c.exited then c else c.readMessage env v).Calm
    split
    next => exact h
    next alive => exact readMessage_calm plain h (Bool.not_eq_true _ ▸ alive) regular prompt
  | clock time =>
    exact ⟨⟨h.spaced.apart, h.spaced.inTime, h.spaced.charged⟩, Int.le_trans h.seen regular,
      h.idle⟩
  | others world clear =>
    refine ⟨⟨h.spaced.apart, h.spaced.inTime, h.spaced.charged⟩, h.seen, fun looked => ?_⟩
    rcases h.idle looked with gone | empty | waiting | ahead
    · exact .inl gone
    · refine .inr (.inl ?_)
      change (if clear then [] else c.recvQ) = []
      rw [empty, ite_self]
    · exact .inr (.inr (.inl waiting))
    · exact .inr (.inr (.inr ahead))

/-- Over any run in which lines that were left in the queue by such visits are not parsed with a
`since` that has fallen behind: no more commands within `t` seconds than flood control allows. -/
theorem executed_bounded (plain : Plain env) (fresh : c.Fresh) {es : List (FloodEvent W)}
    (run : (machine env).Meets (fun c e => c.Regular e ∧ c.Prompt env e) c es) (a : Int) (t : Nat) :
    (((machine env).run c es).executedWithin a t).length ≤ (t + 10) / 2 + 1 := by
  have calm := run.keeps (I := Calm) (fun _ _ h ok => step_calm plain h ok.1 ok.2) fresh.calm
  exact calm.spaced.window a t

/-- A client whose commands are all throttled and that always has something to be sent. -/
def floodEnv : FloodEnv Unit where
  isDead _ := false
  isPerson _ := true
  isAnOper _ := false
  canFlood _ := false
  sendQ _ := true
  treeParse _ := some 1
  parseRest _ _ := ((), false)
  sendQueued := id
  exitClient := id

def floodClient : FloodClient Unit where
  world := ()
  recvQ := []
  noNewLine := false
  since := 0
  lasttime := 0
  receiveM := 0
  currentTime := 0
  exited := false
  executed := []
  visited := 0
  skipped := false

def dozen : Visit :=
  { time := 0, writable := false
    readable := some (some (List.replicate 12 (lit "AWAY\n")).flatten) }

def calmVisits : List (FloodEvent Unit) :=
  [.visit dozen, .visit { time := 1, writable := true, readable := none },
    .visit { time := 2, writable := false, readable := none }]

theorem calmVisits_bounded :
    (((machine floodEnv).run floodClient calmVisits).executedWithin 0 2).length ≤ 7 :=
  executed_bounded (fun _ => ⟨rfl, rfl⟩) ⟨rfl, rfl, rfl⟩ (by decide +kernel) 0 2

def busyVisits : List (FloodEvent Unit) :=
  .visit dozen ::
    ((List.range 12).map fun i =>
      .visit { time := i + 1, writable := true, readable := none }) ++
    [.visit { time := 13, writable := false, readable := none }]

theorem busyVisits_flood : ¬ ∀ es : List (FloodEvent Unit),
    (machine floodEnv).Meets Regular floodClient es → ∀ (a : Int) (t : Nat),
      (((machine floodEnv).run floodClient es).executedWithin a t).length ≤ (t + 10) / 2 + 1 := by
  intro bounded
  have few := bounded busyVisits (by decide +kernel) 13 0
  revert few
  decide +kernel

end FloodClient

end Ircd
