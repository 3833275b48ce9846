import Ircd.Net.Send

/-! What `m_list` sends: each line of the listing once, up to the place that it saves.

While `SendqPop` is clear, or the queue is over its limit, the loops send the lines in the
order of the table and stop in front of the first that is popped; `pending` are the lines
from there on.
-/

set_option autoImplicit false

namespace Ircd

def Reply.isListing : Reply → Bool
  | .listStart => true
  | .list _ _ _ => true
  | .listEnd => true
  | .load2hi => false
  | .other _ => false

namespace Outlet

variable {W Z : Type} (env : SendEnv W Z)

def listed (s : Outlet W Z) : List Reply :=
  ((s.passed.filter fun e => !e.popped).map Passed.reply).filter Reply.isListing

def blockLines (k : Nat) (chain : List Channel) : List Reply :=
  ((chain.drop k).filter (lists env)).map (rplList env)

def blocksLines (blocks : List ChannelBlock) : List Reply :=
  blocks.flatMap fun block => blockLines env 0 block.list

/-- The lines of a table from entry `k` of bucket `i` on. -/
def linesFrom (channels : List ChannelBlock) (i k : Nat) : List Reply :=
  match channels.drop i with
  | [] => []
  | block :: later => blockLines env k block.list ++ blocksLines env later

def pending (s : Outlet W Z) : List Reply :=
  match s.listprogress with
  | none => []
  | some i => linesFrom env s.channels i s.listprogress2

variable {env}

theorem listed_record (s : Outlet W Z) (reply : Reply) :
    (s.record env reply).listed = s.listed ++
      if s.overLimit env && s.doingList || !reply.isListing then [] else [reply] := by
  unfold listed record
  rw [List.filter_append, List.map_append, List.filter_append]
  congr 1
  generalize s.overLimit env = exceeds
  generalize s.doingList = doing
  cases exceeds <;> cases doing <;> cases listing : reply.isListing <;> simp [Passed.popped, listing]

structure Frame (s s' : Outlet W Z) : Prop where
  doingList : s'.doingList = s.doingList
  sendqPop : s'.sendqPop = s.sendqPop
  listprogress : s'.listprogress = s.listprogress
  listprogress2 : s'.listprogress2 = s.listprogress2
  channels : s'.channels = s.channels
  passed : s'.passed = s.passed
  zip : s'.zip = s.zip
  dead : s.dead = true → s'.dead = true

theorem Frame.refl (s : Outlet W Z) : Frame s s := ⟨rfl, rfl, rfl, rfl, rfl, rfl, rfl, id⟩

theorem Frame.trans {s s' s'' : Outlet W Z} (h : Frame s s') (h' : Frame s' s'') : Frame s s'' :=
  ⟨h'.doingList.trans h.doingList, h'.sendqPop.trans h.sendqPop,
    h'.listprogress.trans h.listprogress, h'.listprogress2.trans h.listprogress2,
    h'.channels.trans h.channels, h'.passed.trans h.passed, h'.zip.trans h.zip,
    fun gone => h'.dead (h.dead gone)⟩

theorem zipBuffer_frame (s : Outlet W Z) (buffer : CStr) (flush : Bool) :
    ∃ outbuf zout fault, (s.zipBuffer env buffer flush).1 = { s with outbuf, zout, fault } := by
  unfold zipBuffer
  dsimp only
  split
  · exact ⟨_, _, _, rfl⟩
  · split <;> exact ⟨_, _, _, rfl⟩

theorem frame_deadLink (s : Outlet W Z) : Frame s s.deadLink :=
  ⟨rfl, rfl, rfl, rfl, rfl, rfl, rfl, fun _ => rfl⟩

theorem frame_zipBuffer {s s' : Outlet W Z} {buffer : CStr} {flush : Bool} {msg : Option CStr}
    (zipped : s.zipBuffer env buffer flush = (s', msg)) : Frame s s' := by
  obtain ⟨outbuf, zout, fault, same⟩ := @zipBuffer_frame _ _ env s buffer flush
  rw [zipped] at same
  dsimp only at same
  subst same
  exact ⟨rfl, rfl, rfl, rfl, rfl, rfl, rfl, id⟩

theorem frame_enqueue (s : Outlet W Z) (msg : CStr) : Frame s (s.enqueue env msg) := by
  unfold enqueue
  split
  · cases zipped : s.zipBuffer env msg false with
    | mk s₁ out =>
      have frame := frame_zipBuffer zipped
      cases out with
      | none => exact ⟨frame.1, frame.2, frame.3, frame.4, frame.5, frame.6, frame.7, frame.8⟩
      | some out =>
        dsimp only
        split
        · exact frame
        · exact ⟨frame.1, frame.2, frame.3, frame.4, frame.5, frame.6, frame.7, frame.8⟩
  · exact ⟨rfl, rfl, rfl, rfl, rfl, rfl, rfl, id⟩

theorem relist_clear {queued : Outlet W Z → Option (Outlet W Z)} {s : Outlet W Z}
    (clear : s.sendqPop = false) : relist env queued s = some s := by
  unfold relist
  rw [clear]
  rfl

theorem frame_drains {s : Outlet W Z} (clear : s.sendqPop = false) :
    Drains env s.zip (Frame s) where
  zip _ frame := frame.zip
  turn _ _ s' world rlen frame _ s'' run := by
    have still : (s'.deliver world rlen).sendqPop = false := frame.sendqPop.trans clear
    rw [relist_clear still] at run
    cases run
    exact frame.trans ⟨rfl, rfl, rfl, rfl, rfl, rfl, rfl, id⟩
  writeError s' world frame := frame.trans ⟨rfl, rfl, rfl, rfl, rfl, rfl, rfl, fun _ => rfl⟩
  flushed _ s' frame s'' msg zipped :=
    (frame.trans (frame_zipBuffer zipped)).trans ⟨rfl, rfl, rfl, rfl, rfl, rfl, rfl, id⟩
  unflushed _ s' frame s'' zipped :=
    (frame.trans (frame_zipBuffer zipped)).trans (frame_deadLink s'')

theorem frame_sendQueued (fuel : Nat) {s s' : Outlet W Z} (clear : s.sendqPop = false)
    (run : s.sendQueued env fuel = some s') : Frame s s' :=
  (frame_drains clear).sendQueued fuel s s' (.refl s) run

def Quiet (queued : Outlet W Z → Option (Outlet W Z)) : Prop :=
  ∀ s s', s.sendqPop = false → queued s = some s' → Frame s s'

theorem quiet_sendQueued (fuel : Nat) : Quiet (sendQueued env fuel) :=
  fun _ _ clear run => frame_sendQueued fuel clear run

def Ready (env : SendEnv W Z) (s : Outlet W Z) : Prop :=
  s.sendqPop = false ∨ s.overLimit env = true

/-- The ways of `send_message`. -/
inductive Sent (env : SendEnv W Z) (s : Outlet W Z) (reply : Reply) : Outlet W Z → Prop where
  | dead (gone : s.dead = true) : Sent env s reply (s.record env reply)
  | popped (exceeds : s.overLimit env = true) (doing : s.doingList = true) :
      Sent env s reply { s.record env reply with sendqPop := true }
  | refused (idle : s.doingList = false) :
      Sent env s reply { s.record env reply with
        sendqex := s.sendqex || env.isClient s.world }.deadLink
  | taken (s' : Outlet W Z) (within : s.overLimit env = false)
      (frame : Frame (s.record env reply) s') : Sent env s reply s'

theorem call_sent {queued : Outlet W Z → Option (Outlet W Z)} (quiet : Quiet queued)
    {s s' : Outlet W Z} (ready : Ready env s) {reply : Reply}
    (run : s.call env queued reply = some s') : Sent env s reply s' := by
  unfold call sendMessage at run
  split at run
  · next gone =>
    cases run
    exact .dead gone
  · split at run
    · next exceeds =>
      split at run
      · next doing =>
        cases run
        exact .popped exceeds doing
      · next idle =>
        cases run
        exact .refused (Bool.eq_false_of_not_eq_true idle)
    · next within =>
      have clear : s.sendqPop = false := ready.resolve_right within
      have put := @frame_enqueue _ _ env (s.record env reply) (reply.text env.me env.name)
      have within := Bool.eq_false_of_not_eq_true within
      dsimp only at run
      split at run
      · exact .taken s' within (put.trans (quiet _ _ (put.sendqPop.trans clear) run))
      · cases run
        exact .taken _ within put

structure Passing (env : SendEnv W Z) (s : Outlet W Z) (sent : List Reply) (s' : Outlet W Z) :
    Prop where
  doingList : s'.doingList = true
  channels : s'.channels = s.channels
  zip : s'.zip = s.zip
  dead : s.dead = true → s'.dead = true
  listed : s'.dead = false → s'.listed = s.listed ++ sent
  idle : sent = [] → s'.overLimit env = s.overLimit env

theorem Passing.refl {s : Outlet W Z} (doing : s.doingList = true) : Passing env s [] s :=
  ⟨doing, rfl, rfl, id, fun _ => (List.append_nil _).symm, fun _ => rfl⟩

theorem Passing.trans {s s' s'' : Outlet W Z} {sent sent' : List Reply}
    (h : Passing env s sent s') (h' : Passing env s' sent' s'') :
    Passing env s (sent ++ sent') s'' := by
  refine ⟨h'.doingList, h'.channels.trans h.channels, h'.zip.trans h.zip,
    fun gone => h'.dead (h.dead gone), fun alive => ?_, fun none => ?_⟩
  · have before : s'.dead = false :=
      Bool.eq_false_of_not_eq_true fun gone => by simp [h'.dead gone] at alive
    rw [h'.listed alive, h.listed before, List.append_assoc]
  · obtain ⟨none, none'⟩ := List.append_eq_nil_iff.mp none
    exact (h'.idle none').trans (h.idle none)

theorem Passing.seat {s s' : Outlet W Z} {sent : List Reply} (h : Passing env s sent s')
    (i : Option Nat) (j : Nat) :
    Passing env s sent { s' with listprogress := i, listprogress2 := j } :=
  ⟨h.doingList, h.channels, h.zip, h.dead, h.listed, h.idle⟩

inductive Line (env : SendEnv W Z) (s : Outlet W Z) (reply : Reply) (s' : Outlet W Z) : Prop where
  | popped (exceeds : s.overLimit env = true) (pop : s'.sendqPop = true)
      (filled : s'.sendqLength ≠ 0) (passing : Passing env s [] s') : Line env s reply s'
  | taken (before : s.sendqPop = false) (clear : s'.sendqPop = false)
      (passing : Passing env s [reply] s')
      (seat : s'.listprogress = s.listprogress ∧ s'.listprogress2 = s.listprogress2) :
      Line env s reply s'

theorem overLimit_filled {s : Outlet W Z} (exceeds : s.overLimit env = true) : s.sendqLength ≠ 0 := by
  have more : env.getSendq s.world < s.sendqLength := of_decide_eq_true exceeds
  omega

theorem Sent.line {s s' : Outlet W Z} {reply : Reply} (sent : Sent env s reply s')
    (ready : Ready env s) (doing : s.doingList = true) (listing : reply.isListing = true) :
    Line env s reply s' := by
  cases sent with
  | dead gone =>
    cases pop : s.sendqPop with
    | true =>
      have exceeds := ready.resolve_left (by simp [pop])
      have filled : (s.record env reply).sendqLength ≠ 0 := overLimit_filled (s := s) exceeds
      exact .popped exceeds pop filled
        ⟨doing, rfl, rfl, id, fun alive => absurd (gone.symm.trans alive) (by decide), fun _ => rfl⟩
    | false =>
      exact .taken pop pop
        ⟨doing, rfl, rfl, id, fun alive => absurd (gone.symm.trans alive) (by decide), fun none => by cases none⟩
        ⟨rfl, rfl⟩
  | popped exceeds _ =>
    refine .popped exceeds rfl (overLimit_filled (s := s) exceeds) ⟨doing, rfl, rfl, id, fun _ => ?_,
      fun _ => rfl⟩
    have record := @listed_record _ _ env s reply
    rw [exceeds, doing] at record
    exact record
  | refused idle =>
    rw [doing] at idle
    cases idle
  | taken s' within frame =>
    have clear := ready.resolve_right (by simp [within])
    refine .taken clear (frame.sendqPop.trans clear) ⟨frame.doingList.trans doing, frame.channels,
      frame.zip, frame.dead, fun _ => ?_, fun none => by cases none⟩
      ⟨frame.listprogress, frame.listprogress2⟩
    have record := @listed_record _ _ env s reply
    rw [within, listing] at record
    have same : s'.listed = (s.record env reply).listed := by rw [listed, listed, frame.passed]
    exact same.trans record

/-- How a loop of `m_list` over the lines `lines` goes. -/
inductive Walked (env : SendEnv W Z) (s : Outlet W Z) (lines : List Reply) (s' : Outlet W Z) :
    Bool → Prop where
  | through (passing : Passing env s lines s') (pop : s'.sendqPop = s.sendqPop)
      (seat : s'.listprogress = s.listprogress) (blocked : s.sendqPop = true → lines = []) :
      Walked env s lines s' false
  | popped (sent : List Reply) (passing : Passing env s sent s') (pop : s'.sendqPop = true)
      (filled : s'.sendqLength ≠ 0) (left : lines = sent ++ pending env s')
      (first : sent = [] → s.overLimit env = true) : Walked env s lines s' true

theorem Walked.ready {s s' : Outlet W Z} {lines : List Reply} (walked : Walked env s lines s' false)
    (ready : Ready env s) : Ready env s' := by
  cases walked with
  | through passing pop _ blocked =>
    cases before : s.sendqPop with
    | false => exact .inl (pop.trans before)
    | true =>
      have exceeds := ready.resolve_left (by simp [before])
      exact .inr ((passing.idle (blocked before)).trans exceeds)

theorem Walked.then {s s' s'' : Outlet W Z} {lines lines' : List Reply} {popped : Bool}
    (first : Walked env s lines s' false) (second : Walked env s' lines' s'' popped) :
    Walked env s (lines ++ lines') s'' popped := by
  cases first with
  | through passing pop seat blocked =>
    cases second with
    | through passing' pop' seat' blocked' =>
      refine .through (passing.trans passing') (pop'.trans pop) (seat'.trans seat) fun before => ?_
      rw [blocked before, blocked' (pop.trans before)]
      rfl
    | popped sent passing' pop' filled left exceeds =>
      refine .popped (lines ++ sent) (passing.trans passing') pop' filled ?_ fun none => ?_
      · rw [left, List.append_assoc]
      · obtain ⟨none, none'⟩ := List.append_eq_nil_iff.mp none
        exact (passing.idle none).symm.trans (exceeds none')

/-- How far a listing with the lines `lines` to go has come. -/
inductive Resumed (env : SendEnv W Z) (s : Outlet W Z) (lines : List Reply) (s' : Outlet W Z) :
    Prop where
  | ended (idle : s'.doingList = false) (clear : s'.sendqPop = false) (zip : s'.zip = s.zip)
      (dead : s.dead = true → s'.dead = true)
      (listed : s'.dead = false → s'.listed = s.listed ++ (lines ++ [.listEnd])) :
      Resumed env s lines s'
  | blocked (sent : List Reply) (passing : Passing env s sent s') (pop : s'.sendqPop = true)
      (filled : s'.sendqLength ≠ 0) (left : lines = sent ++ pending env s')
      (first : sent = [] → s.overLimit env = true) : Resumed env s lines s'

theorem Walked.finish {s s' s'' : Outlet W Z} {lines : List Reply}
    (walked : Walked env s lines s' false) (finish : Resumed env s' [] s'') :
    Resumed env s lines s'' := by
  cases walked with
  | through passing _ _ _ =>
    cases finish with
    | ended idle clear zip dead listed =>
      refine .ended idle clear (zip.trans passing.zip) (fun gone => dead (passing.dead gone))
        fun alive => ?_
      have before : s'.dead = false :=
        Bool.eq_false_of_not_eq_true fun gone => by simp [dead gone] at alive
      rw [listed alive, passing.listed before, List.append_assoc]
      rfl
    | blocked sent passing' pop filled left first =>
      obtain ⟨none, none'⟩ := List.append_eq_nil_iff.mp left.symm
      refine .blocked (lines ++ sent) (passing.trans passing') pop filled ?_ fun empty => ?_
      · rw [none', none]
        simp
      · obtain ⟨empty, empty'⟩ := List.append_eq_nil_iff.mp empty
        exact (passing.idle empty).symm.trans (first empty')

theorem mList_doing {s : Outlet W Z} (doing : s.doingList = true) (parv1 : CStr) :
    ∃ now, ∀ queued, mList env queued parv1 s = listResume env queued { s with lastUsed := now } := by
  have late : s.tooSoon env = false := by
    unfold tooSoon
    rw [doing, Bool.not_true, Bool.and_false]
  have used : ∃ now, s.useList env = { s with lastUsed := now } := by
    unfold useList
    split
    · exact ⟨s.lastUsed, rfl⟩
    · exact ⟨_, rfl⟩
  obtain ⟨now, used⟩ := used
  refine ⟨now, fun queued => ?_⟩
  unfold mList
  rw [late, if_neg Bool.false_ne_true, if_pos doing, used]

theorem relist_again {s : Outlet W Z} (pop : s.sendqPop = true) (doing : s.doingList = true)
    (empty : s.sendqLength = 0) : ∃ now, ∀ queued, relist env queued s =
      listResume env queued { s with sendqPop := false, lastUsed := now } := by
  obtain ⟨now, resume⟩ := @mList_doing _ _ env { s with sendqPop := false } doing []
  refine ⟨now, fun queued => ?_⟩
  unfold relist
  rw [pop, empty]
  exact resume queued

section

variable {queued : Outlet W Z → Option (Outlet W Z)} (quiet : Quiet queued)
include quiet

theorem listBlock_walked {channels later : List ChannelBlock} {i : Nat} {block : ChannelBlock}
    (here : channels.drop i = block :: later) (progress2 : Nat) (chain : List Channel) (j : Nat)
    (at_ : block.list.drop j = chain) {s s' : Outlet W Z} {popped : Bool}
    (table : s.channels = channels) (ready : Ready env s) (doing : s.doingList = true)
    (run : listBlock env queued i progress2 j chain s = some (s', popped)) :
    (popped = false ∧ Walked env s (blockLines env (max progress2 j) block.list) s' false ∧
        s'.listprogress2 = s.listprogress2) ∨
      popped = true ∧ Walked env s
        (blockLines env (max progress2 j) block.list ++ blocksLines env later) s' true := by
  induction chain generalizing j s with
  | nil =>
    cases run
    have none : blockLines env (max progress2 j) block.list = [] := by
      have short := List.drop_eq_nil_iff.mp at_
      rw [blockLines, List.drop_eq_nil_of_le (by omega)]
      rfl
    rw [none]
    exact .inl ⟨rfl, .through (.refl doing) rfl rfl fun _ => rfl, rfl⟩
  | cons chptr chain ih =>
    have next : block.list.drop (j + 1) = chain := by
      rw [← List.drop_drop, at_]
      rfl
    rw [listBlock] at run
    -- a channel before the place that was saved has been listed
    split at run
    · next skipped =>
      have same : max progress2 (j + 1) = max progress2 j := by omega
      rw [← same]
      exact ih (j + 1) next table ready doing run
    · next reached =>
      have here' : max progress2 j = j := by omega
      have after : max progress2 (j + 1) = j + 1 := by omega
      rw [here']
      split at run
      · next hidden =>
        have same : blockLines env j block.list = blockLines env (j + 1) block.list := by
          have hidden : lists env chptr = false := by simpa using hidden
          rw [blockLines, blockLines, at_, next, List.filter_cons, hidden]
          rfl
        rw [same, ← after]
        exact ih (j + 1) next table ready doing run
      · next shown =>
        have shown : lists env chptr = true := by simpa using shown
        have lines : blockLines env j block.list =
            rplList env chptr :: blockLines env (j + 1) block.list := by
          rw [blockLines, blockLines, at_, next, List.filter_cons, shown]
          rfl
        obtain ⟨s₁, sent, run⟩ := Option.bind_eq_some_iff.mp run
        have line := (call_sent quiet ready sent).line ready doing rfl
        -- the line fills the queue and the place is saved, or the walk goes on
        cases line with
        | popped exceeds pop filled passing =>
          rw [if_pos pop] at run
          cases run
          refine .inr ⟨rfl, .popped [] (passing.seat _ _) pop filled ?_ fun _ => exceeds⟩
          have seat : pending env { s₁ with listprogress := some i, listprogress2 := j } =
              linesFrom env s₁.channels i j := rfl
          rw [seat, passing.channels, table, linesFrom, here]
          rfl
        | taken before clear passing seat =>
          rw [if_neg (by simp [clear])] at run
          have ready₁ : Ready env s₁ := .inl clear
          have rest := ih (j + 1) next (passing.channels.trans table) ready₁ passing.doingList run
          rw [after] at rest
          rw [lines]
          obtain ⟨rfl, walked, seat₂⟩ | ⟨rfl, walked⟩ := rest
          · cases walked with
            | through passing' pop seat' _ =>
              exact .inl ⟨rfl, .through (passing.trans passing')
                ((pop.trans clear).trans before.symm) (seat'.trans seat.1)
                (fun no => by simp [before] at no), seat₂.trans seat.2⟩
          · cases walked with
            | popped sent' passing' pop filled left _ =>
              refine .inr ⟨rfl, .popped (rplList env chptr :: sent') (passing.trans passing') pop
                filled ?_ fun no => by cases no⟩
              rw [List.cons_append, left]
              rfl

theorem listBlocks_walked {channels : List ChannelBlock} (resumes : Bool)
    (blocks : List ChannelBlock) (i : Nat) (at_ : channels.drop i = blocks) {s s' : Outlet W Z}
    {popped : Bool} (table : s.channels = channels) (ready : Ready env s)
    (doing : s.doingList = true)
    (run : listBlocks env queued resumes i blocks s = some (s', popped)) :
    Walked env s (linesFrom env channels i (if resumes then s.listprogress2 else 0)) s' popped := by
  induction blocks generalizing i s with
  | nil =>
    cases run
    rw [linesFrom, at_]
    exact .through (.refl doing) rfl rfl fun _ => rfl
  | cons block later ih =>
    have next : channels.drop (i + 1) = later := by
      rw [← List.drop_drop, at_]
      rfl
    rw [listBlocks] at run
    obtain ⟨⟨s₁, popped₁⟩, walk, run⟩ := Option.bind_eq_some_iff.mp run
    rw [block.counted, List.take_length] at walk
    have first := listBlock_walked quiet at_ _ block.list 0 rfl table ready doing walk
    rw [Nat.max_zero] at first
    rw [linesFrom, at_]
    dsimp only at run ⊢
    -- the block was passed, or the queue filled and the walk ended in it
    obtain ⟨rfl, walked, _⟩ | ⟨rfl, walked⟩ := first
    · rw [if_neg Bool.false_ne_true] at run
      have tail : blocksLines env later = linesFrom env channels (i + 1) 0 := by
        rw [linesFrom, next]
        cases later <;> rfl
      cases walked with
      | through passing pop seat blocked =>
        rw [tail]
        -- a walk that resumed starts the next block from its first channel
        cases resumes with
        | false =>
          have walked := Walked.through passing pop seat blocked
          exact walked.then (ih (i + 1) next (passing.channels.trans table) (walked.ready ready)
            passing.doingList run)
        | true =>
          have walked : Walked env s _ { s₁ with listprogress2 := 0 } false :=
            .through (passing.seat s₁.listprogress 0) pop seat blocked
          exact walked.then (@ih (i + 1) next { s₁ with listprogress2 := 0 }
            (passing.channels.trans table) (walked.ready ready) passing.doingList run)
    · cases run
      exact walked

theorem listFinish_resumed {s s' : Outlet W Z} (ready : Ready env s) (doing : s.doingList = true)
    (run : listFinish env queued s = some s') : Resumed env s [] s' := by
  unfold listFinish at run
  obtain ⟨s₁, sent, run⟩ := Option.bind_eq_some_iff.mp run
  have line := (call_sent quiet ready sent).line ready doing rfl
  cases line with
  | popped exceeds pop filled passing =>
    rw [if_pos pop] at run
    cases run
    exact .blocked [] (passing.seat none s₁.listprogress2) pop filled rfl fun _ => exceeds
  | taken before clear passing _ =>
    rw [if_neg (by simp [clear])] at run
    cases run
    exact .ended rfl clear passing.zip passing.dead passing.listed

theorem unlessPopped_resumed {s s₁ s' : Outlet W Z} {lines : List Reply} {popped : Bool}
    (walked : Walked env s lines s₁ popped) (ready : Ready env s)
    (run : (if popped then some s₁ else listFinish env queued s₁) = some s') :
    Resumed env s lines s' := by
  cases walked with
  | through passing pop seat blocked =>
    have walked := Walked.through passing pop seat blocked
    exact walked.finish (listFinish_resumed quiet (walked.ready ready) passing.doingList run)
  | popped sent passing pop filled left first =>
    cases run
    exact .blocked sent passing pop filled left first

theorem listResume_resumed {s s' : Outlet W Z} (ready : Ready env s) (doing : s.doingList = true)
    (run : listResume env queued s = some s') : Resumed env s (pending env s) s' := by
  unfold listResume at run
  unfold pending
  cases seat : s.listprogress with
  | none =>
    rw [seat] at run
    exact listFinish_resumed quiet ready doing run
  | some i =>
    rw [seat] at run
    obtain ⟨⟨s₁, popped⟩, walk, run⟩ := Option.bind_eq_some_iff.mp run
    have walked := listBlocks_walked quiet true _ i rfl rfl ready doing walk
    exact unlessPopped_resumed quiet walked ready run

theorem listAll_resumed {s s' : Outlet W Z} (run : listAll env queued s = some s') :
    Resumed env { s with doingList := true, sendqPop := false } (blocksLines env s.channels) s' := by
  unfold listAll at run
  obtain ⟨⟨s₁, popped⟩, walk, run⟩ := Option.bind_eq_some_iff.mp run
  have walked : Walked env { s with doingList := true, sendqPop := false }
      (linesFrom env s.channels 0 (if false then s.listprogress2 else 0)) s₁ popped :=
    listBlocks_walked quiet false s.channels 0 rfl rfl (.inl rfl) rfl walk
  have all : linesFrom env s.channels 0 0 = blocksLines env s.channels := by
    rw [linesFrom, List.drop_zero]
    cases s.channels <;> rfl
  rw [if_neg Bool.false_ne_true, all] at walked
  exact unlessPopped_resumed quiet walked (.inl rfl) run

theorem relist_resumed {s s' : Outlet W Z} (pop : s.sendqPop = true) (doing : s.doingList = true)
    (empty : s.sendqLength = 0) (run : relist env queued s = some s') :
    Resumed env s (pending env s) s' := by
  obtain ⟨now, again⟩ := @relist_again _ _ env s pop doing empty
  rw [again] at run
  have resumed := @listResume_resumed _ _ env queued quiet
    { s with sendqPop := false, lastUsed := now } s' (.inl rfl) doing run
  cases resumed with
  | ended idle clear zip dead listed => exact .ended idle clear zip dead listed
  | blocked sent passing pop filled left first =>
    exact .blocked sent ⟨passing.1, passing.2, passing.3, passing.4, passing.5, passing.6⟩ pop
      filled left first

end

end Outlet

end Ircd
