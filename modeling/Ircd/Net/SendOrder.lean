import Ircd.Net.SendReturns

/-! Nothing is lost or reordered on its way to the socket, except what `send_message` pops.
-/

set_option autoImplicit false

namespace Ircd

namespace Outlet

variable {W Z : Type} {env : SendEnv W Z}

structure InOrder (env : SendEnv W Z) (s : Outlet W Z) : Prop where
  zip : s.zip = false
  queue : ∃ xs, s.sendQ.Holds xs ∧ (s.dead = false → s.delivered ++ xs = s.taken env)

theorem taken_record (s : Outlet W Z) (reply : Reply) :
    (s.record env reply).taken env = s.taken env ++
      if s.overLimit env && s.doingList then [] else reply.text env.me env.name := by
  unfold taken record
  rw [List.filter_append, List.map_append, List.flatten_append]
  congr 1
  generalize s.overLimit env = exceeds
  generalize s.doingList = doing
  cases exceeds <;> cases doing <;> simp [Passed.popped]

theorem InOrder.deadLink {s : Outlet W Z} (h : InOrder env s) : InOrder env s.deadLink := by
  obtain ⟨xs, holds, _⟩ := h.queue
  exact ⟨h.zip, _, holds.delete _, fun alive => by cases alive⟩

theorem InOrder.deliver {s : Outlet W Z} (h : InOrder env s) (world : W) {rlen : Nat}
    (within : rlen ≤ s.sendQ.dbufMap.length) : InOrder env (s.deliver world rlen) := by
  obtain ⟨xs, holds, same⟩ := h.queue
  refine ⟨h.zip, _, holds.delete rlen, fun alive => ?_⟩
  obtain ⟨rest, whole⟩ := holds.map.1
  have front : s.sendQ.dbufMap.take rlen = xs.take rlen := by
    rw [← whole, List.take_append_of_le_length within]
  calc s.delivered ++ s.sendQ.dbufMap.take rlen ++ xs.drop rlen
      = s.delivered ++ (xs.take rlen ++ xs.drop rlen) := by rw [front, List.append_assoc]
    _ = s.taken env := by rw [List.take_append_drop, same alive]

theorem inOrder_sends (reply : Reply) : Sends env (InOrder env) reply where
  dead s h gone := ⟨h.zip, h.queue.imp fun xs ⟨holds, _⟩ =>
    ⟨holds, fun alive => absurd (gone.symm.trans alive) (by decide)⟩⟩
  taken s h alive within := by
    obtain ⟨xs, holds, same⟩ := h.queue
    have zip : (s.record env reply).zip = false := h.zip
    have put : (s.record env reply).enqueue env (reply.text env.me env.name) =
        (s.record env reply).put (reply.text env.me env.name) := by
      unfold Outlet.enqueue
      rw [zip]
      rfl
    rw [put]
    refine ⟨h.zip, _, holds.put _, fun _ => ?_⟩
    have record := @taken_record _ _ env s reply
    rw [within] at record
    exact ((List.append_assoc _ _ _).symm.trans (congrArg (· ++ _) (same alive))).trans record.symm
  popped s h _ exceeds doing := by
    obtain ⟨xs, holds, same⟩ := h.queue
    refine ⟨h.zip, xs, holds, fun alive => (same alive).trans ?_⟩
    have record := @taken_record _ _ env s reply
    rw [exceeds, doing] at record
    exact (record.trans (List.append_nil _)).symm
  refused s h _ _ _ := by
    obtain ⟨xs, holds, _⟩ := h.queue
    exact ⟨h.zip, _, holds.delete _, fun alive => by cases alive⟩

theorem inOrder_lists : Lists env (InOrder env) where
  sends reply _ := inOrder_sends reply
  start _ h := ⟨h.zip, h.queue⟩
  clear _ h := ⟨h.zip, h.queue⟩
  finish _ h _ := ⟨h.zip, h.queue⟩
  seat _ _ _ h := ⟨h.zip, h.queue⟩
  used _ _ h := ⟨h.zip, h.queue⟩

theorem inOrder_drains : Drains env false (InOrder env) :=
  .of_lists (fun _ h => h.zip) inOrder_lists (fun _ world _ h within => h.deliver world within)
    (fun s world h => InOrder.deadLink (s := { s with world }) ⟨h.zip, h.queue⟩)
    (fun no => by cases no) (fun no => by cases no)

theorem inOrder_run (fuel : Nat) (es : List (SendEvent W)) :
    Keeps (InOrder env) fun s => s.run env fuel es :=
  @run_keeps _ _ _ _ fuel (fun _ => True) (fun e _ => inOrder_lists.handle (fun _ => inOrder_sends _)
    inOrder_drains
    (fun _ _ h => ⟨h.zip, h.queue⟩) (fun _ _ _ h => ⟨h.zip, h.queue⟩)
    (fun _ _ h => ⟨h.zip, h.queue⟩) fuel e) es fun _ _ => trivial

theorem Fresh.inOrder {s : Outlet W Z} (fresh : Fresh s) (zip : s.zip = false) :
    InOrder env s := by
  refine ⟨zip, [], fresh.sendQ.holds, fun _ => ?_⟩
  rw [fresh.delivered, taken, fresh.passed]
  rfl

theorem InOrder.content {s : Outlet W Z} (h : InOrder env s) (alive : s.dead = false) :
    s.delivered ++ s.sendQ.content = s.taken env := by
  obtain ⟨xs, holds, same⟩ := h.queue
  rw [holds.shows.content, same alive]

/-- The messages that are noted, without the lines of `m_list`. -/
def others (s : Outlet W Z) : List CStr := s.passed.filterMap (·.reply.other?)

structure Noted (xs : List CStr) (s : Outlet W Z) : Prop where
  zip : s.zip = false
  others : s.others = xs

theorem Noted.frame {xs : List CStr} {s s' : Outlet W Z} (h : Noted xs s) (frame : Frame s s') :
    Noted xs s' := by
  refine ⟨frame.zip.trans h.zip, ?_⟩
  rw [Outlet.others, frame.passed]
  exact h.others

theorem others_record (s : Outlet W Z) (reply : Reply) :
    (s.record env reply).others = s.others ++ reply.other?.toList := by
  unfold others record
  rw [List.filterMap_append]
  cases reply <;> rfl

theorem noted_lists (xs : List CStr) : Lists env (Noted (W := W) (Z := Z) xs) where
  sends reply line := by
    have record (s : Outlet W Z) (h : Noted xs s) : Noted xs (s.record env reply) := by
      refine ⟨h.zip, ?_⟩
      rw [others_record, line, h.others]
      exact List.append_nil xs
    exact
      { dead := fun s h _ => record s h
        taken := fun s h _ _ => (record s h).frame (frame_enqueue ..)
        popped := fun s h _ _ _ => ⟨h.zip, (record s h).others⟩
        refused := fun s h _ _ _ => ⟨h.zip, (record s h).others⟩ }
  start _ h := ⟨h.zip, h.others⟩
  clear _ h := ⟨h.zip, h.others⟩
  finish _ h _ := ⟨h.zip, h.others⟩
  seat _ _ _ h := ⟨h.zip, h.others⟩
  used _ _ h := ⟨h.zip, h.others⟩

theorem noted_drains (xs : List CStr) : Drains env false (Noted (W := W) (Z := Z) xs) :=
  .of_lists (fun _ h => h.zip) (noted_lists xs) (fun _ _ _ h _ => ⟨h.zip, h.others⟩)
    (fun _ _ h => ⟨h.zip, h.others⟩) (fun no => by cases no) (fun no => by cases no)

theorem Noted.handle {xs : List CStr} {fuel : Nat} {s s' : Outlet W Z} (h : Noted xs s)
    (e : SendEvent W) (run : s.handle env fuel e = some s') : Noted (xs ++ e.messages) s' := by
  have still (t : Outlet W Z) (same : Noted xs t) : Noted (xs ++ []) t := by
    rwa [List.append_nil]
  cases e with
  | message msg =>
    have record : Noted (xs ++ [msg]) (s.record env (.other msg)) := by
      refine ⟨h.zip, ?_⟩
      rw [others_record, h.others]
      rfl
    change (s.record env (.other msg)).sendMessage env _ _ = _ at run
    generalize s.record env (.other msg) = t at record run
    unfold sendMessage at run
    split at run
    · cases run
      exact record
    · split at run
      · split at run <;>
        · cases run
          exact ⟨record.zip, record.others⟩
      · have after := record.frame (@frame_enqueue _ _ env t (Reply.text env.me env.name (.other msg)))
        dsimp only at run
        split at run
        · exact (noted_drains _).sendQueued fuel _ _ after run
        · cases run
          exact after
  | queued => exact still s' ((noted_drains xs).sendQueued fuel s s' h run)
  | list parv1 =>
    exact still s' ((noted_lists xs).mList ((noted_drains xs).sendQueued fuel) parv1 s s' h run)
  | channels _ | elsewhere _ _ | burst _ =>
    cases run
    exact still _ ⟨h.zip, h.others⟩

theorem Noted.run {xs : List CStr} {fuel : Nat} (es : List (SendEvent W)) {s s' : Outlet W Z}
    (h : Noted xs s) (run : s.run env fuel es = some s') :
    Noted (xs ++ es.flatMap SendEvent.messages) s' := by
  induction es generalizing s xs with
  | nil =>
    cases run
    rwa [List.flatMap_nil, List.append_nil]
  | cons e es ih =>
    obtain ⟨s₁, handled, run⟩ := Option.bind_eq_some_iff.mp run
    rw [List.flatMap_cons, ← List.append_assoc]
    exact ih (h.handle e handled) run

/-- Besides the lines of `m_list` the messages of the events are passed to `send_message`, in
order, and on a live link the bytes written and the bytes queued are those that have not been
popped. -/
theorem delivered_in_order {s : Outlet W Z} (fresh : Fresh s) (zip : s.zip = false)
    (es : List (SendEvent W)) :
    (∃ fuel s', s.run env fuel es = some s') ∧
      ∀ fuel s', s.run env fuel es = some s' →
        s'.others = es.flatMap SendEvent.messages ∧
          (s'.dead = false → s'.delivered ++ s'.sendQ.content = s'.taken env) := by
  refine ⟨run_returns fresh.sound es, fun fuel s' run => ⟨?_, fun alive => ?_⟩⟩
  · have start : Noted [] s := ⟨zip, by rw [others, fresh.passed]; rfl⟩
    exact (start.run es run).others
  · exact (inOrder_run fuel es s s' (fresh.inOrder zip) run).content alive

end Outlet

def pipeEnv : SendEnv (List Nat) Unit where
  me := lit "irc"
  name := lit "a"
  self := 0
  user := true
  isServer _ := false
  isClient _ := true
  isAnOper _ := false
  getSendq _ := 40
  currentTime _ := 100
  deliverIt w str :=
    match w with
    | [] => ([], some 0)
    | n :: w => (w, some ⟨min n str.length, by omega⟩)
  deflate z _ := { zout := z, availIn := [], out := [], ok := false }

def namedChannel (name : CStr) : Channel := { Channel.zero with chname := name, users := 1 }

def pipeOutlet (world : List Nat) : Outlet (List Nat) Unit :=
  .new world ()
    [{ list := [namedChannel (lit "#a"), namedChannel (lit "#b")], links := 2, counted := rfl }]

theorem pipeOutlet_fresh (world : List Nat) : Outlet.Fresh (pipeOutlet world) :=
  ⟨⟨rfl, List.nodup_nil, fun _ no => by cases no⟩, rfl, rfl, rfl, rfl, rfl, rfl, rfl⟩

def twoNotices : List (SendEvent (List Nat)) :=
  [.message (lit "NOTICE a :x\r\n"), .queued, .message (lit "NOTICE a :y\r\n")]

theorem twoNotices_in_order :
    ∃ s', (pipeOutlet [7]).run pipeEnv 3 twoNotices = some s' ∧ s'.delivered = lit "NOTICE " ∧
      s'.delivered ++ s'.sendQ.content = s'.taken pipeEnv := by
  refine ⟨_, rfl, by decide +kernel, ?_⟩
  exact ((Outlet.delivered_in_order (pipeOutlet_fresh [7]) rfl twoNotices).2 3 _ rfl).2
    (by decide +kernel)

/-- `LIST` blocks in front of `#b`, and the notice of another user is popped too. -/
theorem notice_popped :
    ∃ s', (pipeOutlet []).run pipeEnv 3 [.list [], .message (lit "NOTICE a :x\r\n")] = some s' ∧
      s'.dead = false ∧ s'.delivered ++ s'.sendQ.content ≠
        (s'.passed.map fun e => e.reply.text pipeEnv.me pipeEnv.name).flatten := by
  refine ⟨_, rfl, by decide +kernel, by decide +kernel⟩

end Ircd
