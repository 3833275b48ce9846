import Ircd.Net.SendOrder

/-! A blocked `LIST` resumes where it stopped.

`SendqPop` stays set while the listing is blocked, also when part of the queue has been
written. A `LIST` of the client itself that comes then takes the flag for a line that has
just been popped; the run lemma leaves those out.
-/

set_option autoImplicit false

namespace Ircd

namespace Outlet

variable {W Z : Type} {env : SendEnv W Z}

def Gone (ziplink : Bool) (s : Outlet W Z) : Prop := s.dead = true ∧ s.zip = ziplink

theorem gone_lists (ziplink : Bool) : Lists env (Gone (W := W) (Z := Z) ziplink) where
  sends _ _ :=
    { dead := fun _ gone _ => gone
      taken := fun _ gone alive _ => absurd (gone.1.symm.trans alive) (by decide)
      popped := fun _ gone alive _ _ => absurd (gone.1.symm.trans alive) (by decide)
      refused := fun _ gone alive _ _ => absurd (gone.1.symm.trans alive) (by decide) }
  start _ gone := gone
  clear _ gone := gone
  finish _ gone _ := gone
  seat _ _ _ gone := gone
  used _ _ gone := gone

theorem gone_drains (ziplink : Bool) : Drains env ziplink (Gone (W := W) (Z := Z) ziplink) :=
  .of_lists (fun _ gone => gone.2) (gone_lists ziplink) (fun _ _ _ gone _ => gone)
    (fun _ _ gone => ⟨rfl, gone.2⟩)
    (fun _ _ gone _ _ zipped =>
      ⟨(frame_zipBuffer zipped).dead gone.1, (frame_zipBuffer zipped).zip.trans gone.2⟩)
    fun _ _ gone _ zipped => ⟨rfl, (frame_zipBuffer zipped).zip.trans gone.2⟩

/-- The listing `lines` is on its way, behind the lines `past`. -/
inductive Phase (env : SendEnv W Z) (past lines : List Reply) (s : Outlet W Z) : Prop where
  | dead (gone : s.dead = true)
  | blocked (doing : s.doingList = true) (pop : s.sendqPop = true) (filled : s.sendqLength ≠ 0)
      (listed : s.listed ++ pending env s = past ++ lines)
  | ended (idle : s.doingList = false) (clear : s.sendqPop = false)
      (listed : s.listed = past ++ (lines ++ [.listEnd]))

structure Underway (env : SendEnv W Z) (past lines : List Reply) (s : Outlet W Z) : Prop where
  sound : Sound false s
  phase : Phase env past lines s

variable {past lines : List Reply}

theorem Resumed.phase {s s' : Outlet W Z} {left : List Reply} (resumed : Resumed env s left s')
    (before : s.listed ++ left = past ++ lines) : Phase env past lines s' := by
  cases gone : s'.dead with
  | true => exact .dead gone
  | false =>
    cases resumed with
    | ended idle clear _ _ listed =>
      refine .ended idle clear ?_
      rw [listed gone, ← List.append_assoc, before, List.append_assoc]
    | blocked sent passing pop filled rest _ =>
      refine .blocked passing.doingList pop filled ?_
      rw [passing.listed gone, List.append_assoc, ← rest, before]

theorem relist_filled {queued : Outlet W Z → Option (Outlet W Z)} {s : Outlet W Z}
    (filled : s.sendqLength ≠ 0) : relist env queued s = some s := by
  unfold relist
  rw [if_neg (by simp [filled])]

theorem underway_drains : Drains env false (Underway env past lines) where
  zip _ h := h.sound.zip
  turn fuel _ s world rlen h _ s' run := by
    have sound := h.sound.deliver world rlen
    refine ⟨sound_lists.relist (sound_drains.sendQueued fuel) _ s' sound run, ?_⟩
    cases h.phase with
    | dead gone =>
      have gone : Gone false (s.deliver world rlen) := ⟨gone, sound.zip⟩
      exact .dead ((gone_lists false).relist ((gone_drains false).sendQueued fuel) _ s' gone run).1
    | blocked doing pop _ listed =>
      have pop : (s.deliver world rlen).sendqPop = true := pop
      by_cases empty : (s.deliver world rlen).sendqLength = 0
      · exact (relist_resumed (quiet_sendQueued fuel) pop doing empty run).phase listed
      · rw [relist_filled empty] at run
        cases run
        exact .blocked doing pop empty listed
    | ended idle clear listed =>
      have still : (s.deliver world rlen).sendqPop = false := clear
      rw [relist_clear still] at run
      cases run
      exact .ended idle clear listed
  writeError s world h :=
    ⟨Sound.deadLink (s := { s with world }) ⟨h.sound.zip, h.sound.queue, h.sound.doing⟩, .dead rfl⟩
  flushed no := by cases no
  unflushed no := by cases no

theorem underway_sends {reply : Reply} (other : reply.isListing = false) :
    Sends env (Underway env past lines) reply where
  dead s h gone := ⟨(sound_sends reply).dead s h.sound gone, .dead gone⟩
  taken s h alive within := by
    have record : (s.record env reply).listed = s.listed := by
      rw [listed_record, other, Bool.not_false, Bool.or_true, if_pos rfl, List.append_nil]
    have put : (s.record env reply).enqueue env (reply.text env.me env.name) =
        (s.record env reply).put (reply.text env.me env.name) := by
      unfold enqueue
      have zip : (s.record env reply).zip = false := h.sound.zip
      rw [zip]
      rfl
    refine ⟨(sound_sends reply).taken s h.sound alive within, ?_⟩
    rw [put]
    cases h.phase with
    | dead gone => exact absurd (gone.symm.trans alive) (by decide)
    | blocked doing pop filled listed =>
      obtain ⟨xs, holds⟩ := h.sound.queue
      have before : s.sendqLength = xs.length := holds.length
      have after : ((s.record env reply).put (reply.text env.me env.name)).sendqLength = _ :=
        (holds.put (reply.text env.me env.name)).length
      refine .blocked doing pop ?_ ((congrArg (· ++ _) record).trans listed)
      rw [after, List.length_append]
      omega
    | ended idle clear listed => exact .ended idle clear (record.trans listed)
  popped s h alive exceeds doing := by
    have record : (s.record env reply).listed = s.listed := by
      rw [listed_record, other, Bool.not_false, Bool.or_true, if_pos rfl, List.append_nil]
    refine ⟨(sound_sends reply).popped s h.sound alive exceeds doing, ?_⟩
    cases h.phase with
    | dead gone => exact absurd (gone.symm.trans alive) (by decide)
    | blocked doing pop filled listed =>
      exact .blocked doing rfl filled ((congrArg (· ++ _) record).trans listed)
    | ended idle _ _ => exact absurd (idle.symm.trans doing) (by decide)
  refused s h alive exceeds idle :=
    ⟨(sound_sends reply).refused s h.sound alive exceeds idle, .dead rfl⟩

theorem underway_resume {fuel : Nat} {s s' : Outlet W Z} {parv1 : CStr}
    (h : Underway env past lines s) (doing : s.doingList = true) (exceeds : s.overLimit env = true)
    (run : s.mList env (sendQueued env fuel) parv1 = some s') : Underway env past lines s' := by
  refine ⟨sound_lists.mList (sound_drains.sendQueued fuel) parv1 s s' h.sound run, ?_⟩
  cases h.phase with
  | dead gone =>
    exact .dead ((gone_lists false).mList ((gone_drains false).sendQueued fuel) parv1 s s'
      ⟨gone, h.sound.zip⟩ run).1
  | blocked _ _ _ listed =>
    obtain ⟨now, resume⟩ := @mList_doing _ _ env s doing parv1
    rw [resume] at run
    have ready : Ready env { s with lastUsed := now } := .inr exceeds
    exact (listResume_resumed (quiet_sendQueued fuel) ready doing run).phase listed
  | ended idle _ _ => exact absurd (idle.symm.trans doing) (by decide)

theorem underway_start {fuel : Nat} {s s' : Outlet W Z} (sound : Sound false s)
    (idle : s.doingList = false) (paced : s.tooSoon env = false)
    (run : s.mList env (sendQueued env fuel) [] = some s') :
    Underway env (s.listed ++ [.listStart]) (blocksLines env s.channels) s' := by
  refine ⟨sound_lists.mList (sound_drains.sendQueued fuel) [] s s' sound run, ?_⟩
  have clear : s.sendqPop = false :=
    Bool.eq_false_of_not_eq_true fun pop => absurd (idle.symm.trans (sound.doing pop)) (by decide)
  obtain ⟨now, used⟩ : ∃ now, s.useList env = { s with lastUsed := now } := by
    unfold useList
    split
    · exact ⟨s.lastUsed, rfl⟩
    · exact ⟨_, rfl⟩
  unfold mList at run
  rw [paced, idle, if_neg Bool.false_ne_true, if_neg Bool.false_ne_true, used] at run
  obtain ⟨s₁, sent, run⟩ := Option.bind_eq_some_iff.mp run
  have timed : Sound false { s with lastUsed := now } := ⟨sound.zip, sound.queue, sound.doing⟩
  have sound₁ : Sound false s₁ :=
    (sound_sends _).call (sound_drains.sendQueued fuel) _ s₁ timed sent
  have ready : Ready env { s with lastUsed := now } := .inl clear
  have gone : s₁.dead = true → s'.dead = true := fun gone =>
    ((gone_lists false).listAll ((gone_drains false).sendQueued fuel) s₁ s' ⟨gone, sound₁.zip⟩ run).1
  cases call_sent (quiet_sendQueued fuel) ready sent with
  | dead dead => exact .dead (gone dead)
  | popped _ doing => exact absurd (idle.symm.trans doing) (by decide)
  | refused _ => exact .dead (gone rfl)
  | taken _ within frame =>
    have record := @listed_record _ _ env { s with lastUsed := now } .listStart
    rw [within] at record
    have same : s₁.listed = s.listed ++ [.listStart] := by
      rw [listed, frame.passed]
      exact record
    have channels : s₁.channels = s.channels := frame.channels
    rw [← same, ← channels]
    exact (listAll_resumed (quiet_sendQueued fuel) run).phase rfl

/-- An event that a listing which is under way copes with: the channel table stays, and a
`LIST` of the client finds the queue over its limit. -/
def Patient (env : SendEnv W Z) (s : Outlet W Z) : SendEvent W → Prop
  | .list _ => s.doingList = true ∧ s.overLimit env = true
  | .channels _ => s.doingList = false
  | _ => True

def PatientRun (env : SendEnv W Z) (fuel : Nat) : Outlet W Z → List (SendEvent W) → Prop
  | _, [] => True
  | s, e :: es => Patient env s e ∧ ∀ s', s.handle env fuel e = some s' → PatientRun env fuel s' es

theorem underway_handle {fuel : Nat} {s s' : Outlet W Z} {e : SendEvent W}
    (h : Underway env past lines s) (patient : Patient env s e)
    (run : s.handle env fuel e = some s') : Underway env past lines s' := by
  cases e with
  | message msg =>
    exact (underway_sends rfl).call (underway_drains.sendQueued fuel) s s' h run
  | queued => exact underway_drains.sendQueued fuel s s' h run
  | list parv1 => exact underway_resume h patient.1 patient.2 run
  | channels t =>
    refine ⟨handle_sound fuel (.channels t) s s' h.sound run, ?_⟩
    cases run
    cases h.phase with
    | dead gone => exact .dead gone
    | blocked doing _ _ _ => exact absurd (patient.symm.trans doing) (by decide)
    | ended idle clear listed => exact .ended idle clear listed
  | elsewhere world lastUsed =>
    refine ⟨handle_sound fuel (.elsewhere world lastUsed) s s' h.sound run, ?_⟩
    cases run
    cases h.phase with
    | dead gone => exact .dead gone
    | blocked doing pop filled listed => exact .blocked doing pop filled listed
    | ended idle clear listed => exact .ended idle clear listed
  | burst cburst =>
    refine ⟨handle_sound fuel (.burst cburst) s s' h.sound run, ?_⟩
    cases run
    cases h.phase with
    | dead gone => exact .dead gone
    | blocked doing pop filled listed => exact .blocked doing pop filled listed
    | ended idle clear listed => exact .ended idle clear listed

theorem underway_run {fuel : Nat} (es : List (SendEvent W)) {s s' : Outlet W Z}
    (h : Underway env past lines s) (patient : PatientRun env fuel s es)
    (run : s.run env fuel es = some s') : Underway env past lines s' := by
  induction es generalizing s with
  | nil =>
    cases run
    exact h
  | cons e es ih =>
    obtain ⟨s₁, handled, run⟩ := Option.bind_eq_some_iff.mp run
    exact ih (underway_handle h patient.1 handled) (patient.2 s₁ handled) run

def visible (env : SendEnv W Z) (s : Outlet W Z) : List Channel :=
  (s.channels.flatMap ChannelBlock.list).filter (lists env)

theorem blocksLines_eq (s : Outlet W Z) :
    blocksLines env s.channels = (s.visible env).map (rplList env) := by
  unfold blocksLines visible blockLines
  rw [List.filter_flatMap, List.map_flatMap]
  rfl

/-- Once the client has received all that is queued for it, it has a line for every visible
channel, once and in the order of the table, and then the end of the listing. -/
theorem list_resumes {s₀ s : Outlet W Z} (fresh : Fresh s₀) (zip : s₀.zip = false)
    {fuel₀ : Nat} {before : List (SendEvent W)} (reached : s₀.run env fuel₀ before = some s)
    (idle : s.doingList = false) (paced : s.tooSoon env = false) (after : List (SendEvent W)) :
    (∃ fuel s', s.run env fuel (.list [] :: after) = some s') ∧
      ∀ fuel s₁ s', s.handle env fuel (.list []) = some s₁ → PatientRun env fuel s₁ after →
        s₁.run env fuel after = some s' → s'.dead = false → s'.sendqLength = 0 →
          s'.listed = s.listed ++ .listStart :: (s.visible env).map (rplList env) ++ [.listEnd] ∧
            s'.delivered = s'.taken env ∧ s'.doingList = false := by
  have sound : Sound false s := zip ▸ run_sound fuel₀ before s₀ s fresh.sound reached
  refine ⟨run_returns sound _, fun fuel s₁ s' start patient run alive empty => ?_⟩
  have inOrder := inOrder_run fuel₀ before s₀ s (fresh.inOrder zip) reached
  have whole : s.run env fuel (.list [] :: after) = some s' :=
    Option.bind_eq_some_iff.mpr ⟨s₁, start, run⟩
  have last := inOrder_run fuel (.list [] :: after) s s' inOrder whole
  have under := underway_run after (underway_start sound idle paced start) patient run
  have drained : s'.delivered = s'.taken env := by
    obtain ⟨xs, holds, same⟩ := last.queue
    have none : xs = [] := List.length_eq_zero_iff.mp (holds.length.symm.trans empty)
    rw [← same alive, none, List.append_nil]
  cases under.phase with
  | dead gone => exact absurd (gone.symm.trans alive) (by decide)
  | blocked _ _ filled _ => exact absurd empty filled
  | ended idle _ listed =>
    refine ⟨?_, drained, idle⟩
    rw [listed, blocksLines_eq]
    simp

end Outlet

theorem list_twice :
    ∃ s', (pipeOutlet [1000, 1000]).run pipeEnv 4 [.list [], .list [], .queued] = some s' ∧
      s'.listed = [] ++ .listStart ::
        ((pipeOutlet [1000, 1000]).visible pipeEnv).map (Outlet.rplList pipeEnv) ++ [.listEnd] := by
  have every := (@Outlet.list_resumes _ _ pipeEnv _ (pipeOutlet [1000, 1000]) (pipeOutlet_fresh _)
    rfl 4 [] rfl rfl (by decide) [.list [], .queued]).2
  have whole := every 4 _ _ rfl ⟨⟨rfl, by decide +kernel⟩, fun _ _ => ⟨trivial, fun _ _ => trivial⟩⟩
    rfl (by decide +kernel) (by decide +kernel)
  exact ⟨_, rfl, whole.1⟩

/-- A second `LIST` after a part of the queue has been written: `#b` comes twice. -/
theorem list_too_early :
    ∃ s', (pipeOutlet [45, 1000, 1000]).run pipeEnv 4 [.list [], .queued, .list [], .queued] =
        some s' ∧
      s'.dead = false ∧ s'.sendqLength = 0 ∧ s'.delivered = s'.taken pipeEnv ∧
      s'.listed = [.listStart, .list (lit "#a") 1 [], .list (lit "#b") 1 [], .list (lit "#b") 1 [],
        .listEnd] ∧
      ((pipeOutlet [45, 1000, 1000]).visible pipeEnv).map (Outlet.rplList pipeEnv) =
        [.list (lit "#a") 1 [], .list (lit "#b") 1 []] := by
  exact ⟨_, rfl, by decide +kernel, by decide +kernel, by decide +kernel, by decide +kernel,
    by decide +kernel⟩

end Ircd
