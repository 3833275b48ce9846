import Ircd.Net.SendReturns

/-! A ziplink carries every message: `outbuf` collects them, `deflate` gets all of it, and
`send_queued` leaves nothing behind in it.
-/

set_option autoImplicit false

namespace Ircd

/-- `deflate` with `Z_PARTIAL_FLUSH`: it takes all its input, and what it has made so far
inflates to what it has been given so far. -/
structure Deflates {Z : Type} (deflate : Z → CStr → Deflated Z) (inflated : CStr → CStr)
    (given made : Z → CStr) : Prop where
  ok : ∀ z buffer, buffer ≠ [] → (deflate z buffer).ok = true
  consumes : ∀ z buffer, buffer ≠ [] → (deflate z buffer).availIn = []
  takes : ∀ z buffer, buffer ≠ [] → given (deflate z buffer).zout = given z ++ buffer
  makes : ∀ z buffer, buffer ≠ [] →
    made (deflate z buffer).zout = made z ++ (deflate z buffer).out
  inflates : ∀ z, inflated (made z) = given z

namespace Outlet

variable {W Z : Type} {env : SendEnv W Z}

structure Switched (s : Outlet W Z) : Prop where
  zip : s.zip = true
  sendQ : ∃ xs, s.sendQ.Holds xs
  dead : s.dead = false
  doingList : s.doingList = false
  sendqPop : s.sendqPop = false
  outbuf : s.outbuf = []
  fault : s.fault = false
  delivered : s.delivered = []
  passed : s.passed = []

def messages (env : SendEnv W Z) (s : Outlet W Z) : CStr :=
  (s.passed.map fun e => e.reply.text env.me env.name).flatten

/-- The stream is behind the bytes `before` that went out as they were. -/
structure Packed (env : SendEnv W Z) (given made : Z → CStr) (before : CStr) (s : Outlet W Z) :
    Prop where
  zip : s.zip = true
  doingList : s.doingList = false
  sendqPop : s.sendqPop = false
  fault : s.fault = false
  room : s.outbuf.length < zipMaximum - bufsize
  queue : ∃ xs, s.sendQ.Holds xs ∧ (s.dead = false → s.delivered ++ xs = before ++ made s.zout)
  stream : s.dead = false → given s.zout ++ s.outbuf = s.messages env

/-- What `send_message` is called with, since `vsendto_one` and `vsendto_prefix_one` cut lines
at 512 bytes; no `LIST`. -/
def Framed : SendEvent W → Prop
  | .message msg => msg.length ≤ bufsize
  | .list _ => False
  | _ => True

variable {inflated : CStr → CStr} {given made : Z → CStr} {before : CStr}

theorem Packed.deadLink {s : Outlet W Z} (h : Packed env given made before s) :
    Packed env given made before s.deadLink := by
  obtain ⟨xs, holds, _⟩ := h.queue
  exact ⟨h.zip, h.doingList, h.sendqPop, h.fault, h.room, ⟨_, holds.delete _, fun no => by cases no⟩,
    fun no => by cases no⟩

theorem Packed.deliver {s : Outlet W Z} (h : Packed env given made before s) (world : W)
    {rlen : Nat} (within : rlen ≤ s.sendQ.dbufMap.length) :
    Packed env given made before (s.deliver world rlen) := by
  obtain ⟨xs, holds, same⟩ := h.queue
  refine ⟨h.zip, h.doingList, h.sendqPop, h.fault, h.room, ⟨_, holds.delete rlen, fun alive => ?_⟩,
    h.stream⟩
  obtain ⟨rest, whole⟩ := holds.map.1
  have front : s.sendQ.dbufMap.take rlen = xs.take rlen := by
    rw [← whole, List.take_append_of_le_length within]
  calc s.delivered ++ s.sendQ.dbufMap.take rlen ++ xs.drop rlen
      = s.delivered ++ (xs.take rlen ++ xs.drop rlen) := by rw [front, List.append_assoc]
    _ = before ++ made s.zout := by rw [List.take_append_drop, same alive]

theorem zipBuffer_waits {s : Outlet W Z} {buffer : CStr}
    (waits : ((s.outbuf ++ buffer).length < zipMinimum ||
      (s.outbuf ++ buffer).length < zipMaximum - bufsize && s.cburst) = true) :
    s.zipBuffer env buffer false = ({ s with
      outbuf := s.outbuf ++ buffer
      fault := s.fault || decide (zipMaximum < (s.outbuf ++ buffer).length) }, some []) := by
  unfold zipBuffer
  dsimp only
  rw [waits]
  rfl

theorem zipBuffer_deflates {s : Outlet W Z} {buffer : CStr} {flush : Bool}
    (goes : flush = true ∨ ((s.outbuf ++ buffer).length < zipMinimum ||
      (s.outbuf ++ buffer).length < zipMaximum - bufsize && s.cburst) = false)
    (ok : (env.deflate s.zout (s.outbuf ++ buffer)).ok = true) :
    s.zipBuffer env buffer flush = ({ s with
      outbuf := []
      zout := (env.deflate s.zout (s.outbuf ++ buffer)).zout
      fault := s.fault || decide (zipMaximum < (s.outbuf ++ buffer).length) },
      some (env.deflate s.zout (s.outbuf ++ buffer)).out) := by
  have straight : (!flush && ((s.outbuf ++ buffer).length < zipMinimum ||
      (s.outbuf ++ buffer).length < zipMaximum - bufsize && s.cburst)) = false := by
    obtain rfl | more := goes
    · rfl
    · rw [more, Bool.and_false]
  unfold zipBuffer
  dsimp only
  rw [straight, ok]
  rfl

theorem Packed.deflated (deflates : Deflates env.deflate inflated given made) {s t : Outlet W Z}
    {buffer : CStr} (h : Packed env given made before s) (short : buffer.length ≤ bufsize)
    (some : s.outbuf ++ buffer ≠ []) (zip : t.zip = s.zip) (doingList : t.doingList = s.doingList)
    (sendqPop : t.sendqPop = s.sendqPop) (dead : t.dead = s.dead)
    (outbuf : t.outbuf = []) (zout : t.zout = (env.deflate s.zout (s.outbuf ++ buffer)).zout)
    (fault : t.fault = (s.fault || decide (zipMaximum < (s.outbuf ++ buffer).length)))
    (delivered : t.delivered = s.delivered)
    (messages : t.messages env = s.messages env ++ buffer)
    (queue : ∀ xs, s.sendQ.Holds xs →
      t.sendQ.Holds (xs ++ (env.deflate s.zout (s.outbuf ++ buffer)).out)) :
    Packed env given made before t := by
  have room := h.room
  have size : (s.outbuf ++ buffer).length = s.outbuf.length + buffer.length := List.length_append
  have inside : decide (zipMaximum < (s.outbuf ++ buffer).length) = false :=
    decide_eq_false (by unfold zipMaximum bufsize at *; omega)
  have takes := deflates.takes s.zout _ some
  have makes := deflates.makes s.zout _ some
  obtain ⟨xs, holds, same⟩ := h.queue
  refine ⟨zip.trans h.zip, doingList.trans h.doingList, sendqPop.trans h.sendqPop, ?_, ?_,
    ⟨_, queue xs holds, fun alive => ?_⟩, fun alive => ?_⟩
  · rw [fault, h.fault, inside]
    rfl
  · rw [outbuf]
    exact Nat.lt_of_le_of_lt (Nat.zero_le _) room
  · rw [delivered, zout, makes, ← List.append_assoc, same (dead.symm.trans alive),
      List.append_assoc]
  · rw [outbuf, zout, takes, List.append_nil, messages, ← List.append_assoc,
      h.stream (dead.symm.trans alive)]

theorem Packed.flush (deflates : Deflates env.deflate inflated given made) {s : Outlet W Z}
    (h : Packed env given made before s) (waits : s.outbuf ≠ []) :
    ∃ s' msg, s.zipBuffer env [] true = (s', some msg) ∧ s'.dead = s.dead ∧ s'.outbuf = [] ∧
      Packed env given made before (s'.put msg) := by
  have some : s.outbuf ++ [] ≠ [] := by rwa [List.append_nil]
  have zipped := @zipBuffer_deflates _ _ env s [] true (.inl rfl) (deflates.ok s.zout _ some)
  refine ⟨_, _, zipped, rfl, rfl, ?_⟩
  exact h.deflated deflates (Nat.zero_le _) some rfl rfl rfl rfl rfl rfl rfl rfl
    (List.append_nil _).symm fun xs holds => holds.put _

theorem messages_record (s : Outlet W Z) (reply : Reply) :
    (s.record env reply).messages env = s.messages env ++ reply.text env.me env.name := by
  unfold messages record
  simp

theorem Packed.enqueue (deflates : Deflates env.deflate inflated given made) {s : Outlet W Z}
    (h : Packed env given made before s) {reply : Reply}
    (short : (reply.text env.me env.name).length ≤ bufsize) :
    Packed env given made before
      ((s.record env reply).enqueue env (reply.text env.me env.name)) := by
  have record := @messages_record _ _ env s reply
  generalize reply.text env.me env.name = msg at short record
  have zip : (s.record env reply).zip = true := h.zip
  unfold Outlet.enqueue
  rw [zip, if_pos rfl]
  cases waits : ((s.outbuf ++ msg).length < zipMinimum ||
      (s.outbuf ++ msg).length < zipMaximum - bufsize && s.cburst : Bool) with
  | true =>
    -- it stays in `outbuf`
    rw [@zipBuffer_waits _ _ env (s.record env reply) msg waits]
    have room := h.room
    have size : (s.outbuf ++ msg).length = s.outbuf.length + msg.length := List.length_append
    have inside : decide (zipMaximum < (s.outbuf ++ msg).length) = false :=
      decide_eq_false (by unfold zipMaximum bufsize at *; omega)
    have clean : (s.fault || decide (zipMaximum < (s.outbuf ++ msg).length)) = false := by
      rw [h.fault, inside]
      rfl
    refine ⟨h.zip, h.doingList, h.sendqPop, clean, ?_, h.queue, fun alive => ?_⟩
    · change (s.outbuf ++ msg).length < zipMaximum - bufsize
      simp only [Bool.or_eq_true, decide_eq_true_eq, Bool.and_eq_true] at waits
      unfold zipMinimum zipMaximum bufsize at *
      omega
    · exact (List.append_assoc _ _ _).symm.trans
        ((congrArg (· ++ msg) (h.stream alive)).trans record.symm)
  | false =>
    have some : s.outbuf ++ msg ≠ [] := by
      intro none
      rw [none] at waits
      cases waits
    rw [@zipBuffer_deflates _ _ env (s.record env reply) msg false (.inr waits)
      (deflates.ok s.zout _ some)]
    dsimp only
    split
    · next none =>
      refine h.deflated deflates short some rfl rfl rfl rfl rfl rfl rfl rfl record fun xs holds => ?_
      have nothing : (env.deflate s.zout (s.outbuf ++ msg)).out = [] := none
      rw [nothing, List.append_nil]
      exact holds
    · exact h.deflated deflates short some rfl rfl rfl rfl rfl rfl rfl rfl record
        fun xs holds => holds.put _

theorem Packed.drain (deflates : Deflates env.deflate inflated given made) (fuel : Nat)
    {more : Bool} {s s' : Outlet W Z} (h : Packed env given made before s) (alive : s.dead = false)
    (waits : more = true ↔ s.outbuf ≠ []) (filled : more = true → s.sendqLength ≠ 0)
    (run : Outlet.drain env fuel more s = some s') :
    Packed env given made before s' ∧
      (s'.dead = false → s'.sendqLength = 0 → s'.outbuf = []) := by
  induction fuel generalizing more s with
  | zero => cases run
  | succ fuel ih =>
    rw [Outlet.drain] at run
    -- one turn writes a piece of the queue; when all is out, what is kept for zlib goes in
    split at run
    · next empty =>
      cases run
      refine ⟨h, fun _ _ => ?_⟩
      by_contra some
      exact filled (waits.mpr some) empty
    · next nonempty =>
      split at run
      · next world _ =>
        cases run
        have dead : Packed env given made before { s with world }.deadLink :=
          Packed.deadLink ⟨h.zip, h.doingList, h.sendqPop, h.fault, h.room, h.queue, h.stream⟩
        exact ⟨dead, fun no => by cases no⟩
      · next world rlen _ =>
        have within : rlen ≤ s.sendQ.dbufMap.length := Nat.lt_succ_iff.mp rlen.isLt
        have after := h.deliver world within
        have still : (s.deliver world rlen).sendqPop = false := after.sendqPop
        rw [relist_clear still] at run
        simp only [Option.bind_eq_bind, Option.bind_some] at run
        split at run
        · next part =>
          cases run
          refine ⟨after, fun _ empty => ?_⟩
          obtain ⟨xs, holds, _⟩ := h.queue
          have left : (s.deliver world rlen).sendqLength = (xs.drop rlen).length :=
            (holds.delete rlen).length
          have mapped := holds.map.1.length_le
          have less : (rlen : Nat) < s.sendQ.dbufMap.length := by simpa using part
          rw [empty, List.length_drop] at left
          omega
        · split at run
          · next last =>
            have some : (s.deliver world rlen).outbuf ≠ [] := waits.mp last.2
            obtain ⟨s₁, msg, zipped, dead, none, flushed⟩ := after.flush deflates some
            unfold Outlet.flushOut at run
            rw [zipped] at run
            have alive₁ : (s₁.put msg).dead = false := dead.trans alive
            have none₁ : (s₁.put msg).outbuf = [] := none
            -- the buffer is empty now, so this happens once
            exact ih flushed alive₁ (by simp [none₁]) (fun no => by cases no) run
          · next on =>
            exact ih after alive waits (fun yes empty => on ⟨empty, yes⟩) run

theorem Packed.sendQueued (deflates : Deflates env.deflate inflated given made) (fuel : Nat)
    {s s' : Outlet W Z} (h : Packed env given made before s)
    (run : s.sendQueued env fuel = some s') :
    Packed env given made before s' ∧
      (s'.dead = false → s'.sendqLength = 0 → s'.outbuf = []) := by
  unfold Outlet.sendQueued sendQueuedWith at run
  split at run
  · next dead =>
    cases run
    exact ⟨h, fun alive => absurd (dead.symm.trans alive) (by decide)⟩
  · next alive =>
    have alive := Bool.eq_false_of_not_eq_true alive
    split at run
    · next waits =>
      have some : s.outbuf ≠ [] := by
        intro none
        rw [none, h.zip] at waits
        cases waits
      split at run
      · next filled =>
        exact h.drain deflates fuel alive (iff_of_true rfl some) (fun _ => by omega) run
      · obtain ⟨s₁, msg, zipped, dead, none, flushed⟩ := h.flush deflates some
        unfold flushOut at run
        rw [zipped] at run
        have alive₁ : (s₁.put msg).dead = false := dead.trans alive
        have none₁ : (s₁.put msg).outbuf = [] := none
        exact flushed.drain deflates fuel alive₁ (by simp [none₁]) (fun no => by cases no) run
    · next none =>
      have none : s.outbuf = [] := by simpa [h.zip] using none
      exact h.drain deflates fuel alive (by simp [none]) (fun no => by cases no) run

theorem Packed.call (deflates : Deflates env.deflate inflated given made) (fuel : Nat)
    {s s' : Outlet W Z} (h : Packed env given made before s) {reply : Reply}
    (short : (reply.text env.me env.name).length ≤ bufsize)
    (run : s.call env (Outlet.sendQueued env fuel) reply = some s') :
    Packed env given made before s' := by
  unfold Outlet.call sendMessage at run
  split at run
  · next gone =>
    cases run
    have dead : s.dead = true := gone
    refine ⟨h.zip, h.doingList, h.sendqPop, h.fault, h.room, ?_, fun alive => ?_⟩
    · exact h.queue.imp fun xs ⟨holds, same⟩ => ⟨holds, same⟩
    · exact absurd (dead.symm.trans alive) (by decide)
  · split at run
    · split at run
      · next doing => exact absurd (h.doingList.symm.trans doing) (by decide)
      · cases run
        obtain ⟨xs, holds, _⟩ := h.queue
        exact ⟨h.zip, h.doingList, h.sendqPop, h.fault, h.room,
          ⟨_, holds.delete _, fun no => by cases no⟩, fun no => by cases no⟩
    · have after := h.enqueue deflates short
      dsimp only at run
      split at run
      · exact (after.sendQueued deflates fuel run).1
      · cases run
        exact after

theorem packed_handle (deflates : Deflates env.deflate inflated given made) (fuel : Nat)
    (e : SendEvent W) (framed : Framed e) :
    Keeps (Packed env given made before) fun s => s.handle env fuel e := by
  intro s s' h run
  cases e with
  | message msg =>
    have short : (Reply.text env.me env.name (.other msg)).length ≤ bufsize := framed
    exact h.call deflates fuel short run
  | queued => exact (h.sendQueued deflates fuel run).1
  | list parv1 => exact framed.elim
  | channels _ =>
    cases run
    exact ⟨h.zip, h.doingList, h.sendqPop, h.fault, h.room, h.queue, h.stream⟩
  | elsewhere _ _ =>
    cases run
    exact ⟨h.zip, h.doingList, h.sendqPop, h.fault, h.room, h.queue, h.stream⟩
  | burst _ =>
    cases run
    exact ⟨h.zip, h.doingList, h.sendqPop, h.fault, h.room, h.queue, h.stream⟩

theorem messages_handle (fuel : Nat) {e : SendEvent W} (framed : Framed e) {s s' : Outlet W Z}
    (h : Packed env given made before s) (run : s.handle env fuel e = some s') :
    s'.messages env = s.messages env ++ e.messages.flatten := by
  cases e with
  | message msg =>
    have record := @messages_record _ _ env s (.other msg)
    have noted : s'.passed = (s.record env (.other msg)).passed := by
      cases call_sent (quiet_sendQueued fuel) (.inl h.sendqPop) run with
      | dead _ => rfl
      | popped _ doing => exact absurd (h.doingList.symm.trans doing) (by decide)
      | refused _ => rfl
      | taken _ _ frame => exact frame.passed
    have same : s'.messages env = (s.record env (.other msg)).messages env := by
      rw [messages, messages, noted]
    rw [same, record]
    simp [SendEvent.messages, Reply.text]
  | queued =>
    have noted := (frame_sendQueued fuel h.sendqPop run).passed
    rw [messages, noted]
    exact (List.append_nil _).symm
  | list _ => exact framed.elim
  | channels _ | elsewhere _ _ | burst _ =>
    cases run
    exact (List.append_nil _).symm

/-- On a ziplink all that is noted are the messages of the events. -/
theorem messages_run (deflates : Deflates env.deflate inflated given made) (fuel : Nat)
    (es : List (SendEvent W)) (framed : ∀ e ∈ es, Framed e) {s s' : Outlet W Z}
    (h : Packed env given made before s) (run : s.run env fuel es = some s') :
    s'.messages env = s.messages env ++ (es.flatMap SendEvent.messages).flatten := by
  induction es generalizing s with
  | nil =>
    cases run
    exact (List.append_nil _).symm
  | cons e es ih =>
    obtain ⟨s₁, handled, run⟩ := Option.bind_eq_some_iff.mp run
    have here := framed e List.mem_cons_self
    have after := packed_handle deflates fuel e here s s₁ h handled
    rw [ih (fun e mem => framed e (List.mem_cons_of_mem _ mem)) after run,
      messages_handle fuel here h handled, List.flatMap_cons, List.flatten_append,
      List.append_assoc]

theorem Switched.packed {s : Outlet W Z} (switched : Switched s)
    (fresh : given s.zout = [] ∧ made s.zout = []) :
    Packed env given made s.sendQ.content s := by
  obtain ⟨xs, holds⟩ := switched.sendQ
  refine ⟨switched.zip, switched.doingList, switched.sendqPop, switched.fault, ?_,
    ⟨xs, holds, fun _ => ?_⟩, fun _ => ?_⟩
  · rw [switched.outbuf]
    decide
  · rw [switched.delivered, fresh.2, holds.shows.content, List.append_nil, List.nil_append]
  · rw [fresh.1, switched.outbuf, messages, switched.passed]
    rfl

theorem Switched.sound {s : Outlet W Z} (switched : Switched s) : Sound true s :=
  ⟨switched.zip, switched.sendQ, fun pop => by
    rw [switched.sendqPop] at pop
    cases pop⟩

/-- The states in which `send_queued` is called: between two events, or by `send_message`. -/
inductive Calls (env : SendEnv W Z) (s : Outlet W Z) : Outlet W Z → Prop where
  | direct : Calls env s s
  | nested (msg : CStr) (short : msg.length ≤ bufsize) (alive : s.dead = false)
      (within : s.overLimit env = false) : Calls env s ((s.record env (.other msg)).enqueue env msg)

end Outlet

theorem copied_lt (n : Nat) (str : CStr) : min n str.length < str.length + 1 :=
  Nat.lt_succ_of_le (Nat.min_le_right n str.length)

def copyEnv : SendEnv (List Nat) CStr where
  me := lit "irc"
  name := lit "hub"
  self := 0
  user := false
  isServer _ := true
  isClient _ := false
  isAnOper _ := false
  getSendq _ := 1000
  currentTime _ := 100
  deliverIt w str := (w.tail, some (w.head?.elim ⟨0, str.length.succ_pos⟩ fun n =>
    ⟨min n str.length, copied_lt n str⟩))
  deflate z buffer := { zout := z ++ buffer, availIn := [], out := buffer, ok := true }

theorem copyEnv_deflates : Deflates copyEnv.deflate id id id :=
  ⟨fun _ _ _ => rfl, fun _ _ _ => rfl, fun _ _ _ => rfl, fun _ _ _ => rfl, fun _ => rfl⟩

def copyOutlet (world : List Nat) : Outlet (List Nat) CStr :=
  { Outlet.new world [] [] with zip := true }

theorem copyOutlet_switched (world : List Nat) : Outlet.Switched (copyOutlet world) := by
  have ready : (copyOutlet world).sendQ.Ready := ⟨rfl, List.nodup_nil, fun _ no => by cases no⟩
  exact ⟨rfl, ⟨[], ready.holds⟩, rfl, rfl, rfl, rfl, rfl, rfl, rfl⟩

def copiedNicks : List (SendEvent (List Nat)) :=
  [.burst true, .message (lit "NICK a\r\n"), .queued, .burst false, .message (lit "NICK b\r\n")]

end Ircd
