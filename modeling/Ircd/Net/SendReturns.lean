import Ircd.Net.Listing

/-! `send_queued` and `m_list` return: some fuel is enough for every run.

A call without `SendqPop` only drains the queue. With it, each time that the queue runs
empty the listing goes on, and gets further.
-/

set_option autoImplicit false

namespace Ircd

namespace Outlet

variable {W Z : Type} {env : SendEnv W Z}

def Extends {α β : Type} (f g : α → Option β) : Prop := ∀ a b, f a = some b → g a = some b

theorem Extends.bind {α β γ : Type} {f g : α → Option β} {k l : β → Option γ} (h : Extends f g)
    (h' : Extends k l) : Extends (fun a => f a >>= k) fun a => g a >>= l := by
  intro a c run
  obtain ⟨b, first, second⟩ := Option.bind_eq_some_iff.mp run
  exact Option.bind_eq_some_iff.mpr ⟨b, h a b first, h' b c second⟩

section

variable {queued queued' : Outlet W Z → Option (Outlet W Z)} (more : Extends queued queued')
include more

theorem Extends.call (reply : Reply) :
    Extends (fun s : Outlet W Z => s.call env queued reply)
      fun s => s.call env queued' reply := by
  intro s s' run
  dsimp only at run ⊢
  unfold Outlet.call sendMessage at run ⊢
  split
  · next dead => rwa [if_pos dead] at run
  · next alive =>
    rw [if_neg alive] at run
    split
    · next exceeds => rwa [if_pos exceeds] at run
    · next within =>
      rw [if_neg within] at run
      dsimp only at run ⊢
      split
      · next time =>
        rw [if_pos time] at run
        exact more _ _ run
      · next early => rwa [if_neg early] at run

theorem Extends.listBlock (i progress2 : Nat) (chain : List Channel) (j : Nat) :
    Extends (Outlet.listBlock env queued i progress2 j chain)
      (Outlet.listBlock env queued' i progress2 j chain) := by
  induction chain generalizing j with
  | nil => exact fun _ _ run => run
  | cons chptr chain ih =>
    intro s s' run
    rw [Outlet.listBlock] at run ⊢
    split
    · next skipped =>
      rw [if_pos skipped] at run
      exact ih (j + 1) s s' run
    · next reached =>
      rw [if_neg reached] at run
      split
      · next hidden =>
        rw [if_pos hidden] at run
        exact ih (j + 1) s s' run
      · next shown =>
        rw [if_neg shown] at run
        refine (more.call (rplList env chptr)).bind ?_ s s' run
        intro s₁ s₂ run
        dsimp only at run ⊢
        split
        · next popped => rwa [if_pos popped] at run
        · next on =>
          rw [if_neg on] at run
          exact ih (j + 1) s₁ s₂ run

theorem Extends.listBlocks (resumes : Bool) (blocks : List ChannelBlock) (i : Nat) :
    Extends (Outlet.listBlocks env queued resumes i blocks)
      (Outlet.listBlocks env queued' resumes i blocks) := by
  induction blocks generalizing i with
  | nil => exact fun _ _ run => run
  | cons block blocks ih =>
    intro s s' run
    rw [Outlet.listBlocks] at run ⊢
    refine (more.listBlock i _ _ 0).bind ?_ s s' run
    rintro ⟨s₁, popped⟩ s₂ run
    cases popped with
    | true => exact run
    | false => exact ih (i + 1) _ s₂ run

theorem Extends.listFinish :
    Extends (Outlet.listFinish env queued) (Outlet.listFinish env queued') :=
  (more.call .listEnd).bind fun _ _ run => run

theorem Extends.unlessPopped : Extends
    (fun r : Outlet W Z × Bool => if r.2 then some r.1 else Outlet.listFinish env queued r.1)
    fun r => if r.2 then some r.1 else Outlet.listFinish env queued' r.1 := by
  rintro ⟨s, popped⟩ s' run
  cases popped with
  | true => exact run
  | false => exact more.listFinish s s' run

theorem Extends.listResume :
    Extends (Outlet.listResume env queued) (Outlet.listResume env queued') := by
  intro s s' run
  unfold Outlet.listResume at run ⊢
  cases seat : s.listprogress with
  | none =>
    rw [seat] at run
    exact more.listFinish s s' run
  | some i =>
    rw [seat] at run
    exact (more.listBlocks true _ i).bind more.unlessPopped s s' run

theorem Extends.listAll : Extends (Outlet.listAll env queued) (Outlet.listAll env queued') :=
  fun s s' run => (more.listBlocks false s.channels 0).bind more.unlessPopped _ s' run

theorem Extends.listNamed (name : CStr) :
    Extends (Outlet.listNamed env queued name) (Outlet.listNamed env queued' name) := by
  intro s s' run
  unfold Outlet.listNamed at run ⊢
  cases found : findChannel s.channels name with
  | none =>
    rw [found] at run
    exact run
  | some chptr =>
    rw [found] at run
    dsimp only at run ⊢
    split
    · next shown =>
      rw [if_pos shown] at run
      exact more.call _ s s' run
    · next hidden => rwa [if_neg hidden] at run

theorem Extends.mList (parv1 : CStr) :
    Extends (Outlet.mList env queued parv1) (Outlet.mList env queued' parv1) := by
  intro s s' run
  unfold Outlet.mList at run ⊢
  split
  · next soon =>
    rw [if_pos soon] at run
    exact more.call _ s s' run
  · next late =>
    rw [if_neg late] at run
    split
    · next doing =>
      rw [if_pos doing] at run
      exact more.listResume _ s' run
    · next idle =>
      rw [if_neg idle] at run
      refine (more.call .listStart).bind ?_ _ s' run
      intro s₁ s₂ run
      dsimp only at run ⊢
      split
      · next every =>
        rw [if_pos every] at run
        exact more.listAll s₁ s₂ run
      · next one =>
        rw [if_neg one] at run
        exact (more.listNamed _).bind (more.call .listEnd) s₁ s₂ run

theorem Extends.relist : Extends (Outlet.relist env queued) (Outlet.relist env queued') := by
  intro s s' run
  unfold Outlet.relist at run ⊢
  split
  · next again =>
    rw [if_pos again] at run
    exact more.mList [] _ s' run
  · next exceeds => rwa [if_neg exceeds] at run

theorem Extends.flushOut :
    Extends (Outlet.flushOut env queued) (Outlet.flushOut env queued') := by
  intro s s' run
  unfold Outlet.flushOut at run ⊢
  cases zipped : s.zipBuffer env [] true with
  | mk s₁ msg =>
    rw [zipped] at run
    cases msg with
    | none => exact run
    | some msg => exact more _ _ run

end

theorem Extends.sendQueuedWith {drain drain' : Bool → Outlet W Z → Option (Outlet W Z)}
    (more : ∀ b, Extends (drain b) (drain' b)) :
    Extends (Outlet.sendQueuedWith env drain) (Outlet.sendQueuedWith env drain') := by
  intro s s' run
  unfold Outlet.sendQueuedWith at run ⊢
  split
  · next dead => rwa [if_pos dead] at run
  · next alive =>
    rw [if_neg alive] at run
    split
    · next waits =>
      rw [if_pos waits] at run
      split
      · next filled =>
        rw [if_pos filled] at run
        exact more true s s' run
      · next empty =>
        rw [if_neg empty] at run
        exact (more false).flushOut s s' run
    · next plain =>
      rw [if_neg plain] at run
      exact more false s s' run

theorem drain_succ (fuel : Nat) (more : Bool) :
    Extends (Outlet.drain env fuel more) (Outlet.drain env (fuel + 1) more) := by
  induction fuel generalizing more with
  | zero =>
    intro s s' run
    cases run
  | succ fuel ih =>
    intro s s' run
    rw [Outlet.drain] at run ⊢
    split
    · next empty => rwa [if_pos empty] at run
    · next filled =>
      rw [if_neg filled] at run
      split
      · next world err =>
        rw [err] at run
        exact run
      · next world rlen sent =>
        rw [sent] at run
        refine (Extends.sendQueuedWith ih).relist.bind ?_ _ s' run
        intro s₁ s₂ run
        dsimp only at run ⊢
        split
        · next part => rwa [if_pos part] at run
        · next whole =>
          rw [if_neg whole] at run
          split
          · next left =>
            rw [if_pos left] at run
            exact (ih false).flushOut s₁ s₂ run
          · next on =>
            rw [if_neg on] at run
            exact ih more s₁ s₂ run

theorem drain_le {fuel fuel' : Nat} (le : fuel ≤ fuel') (more : Bool) :
    Extends (Outlet.drain env fuel more) (Outlet.drain env fuel' more) := by
  induction le with
  | refl => exact fun _ _ run => run
  | step _ ih => exact fun s s' run => drain_succ _ more s s' (ih s s' run)

theorem sendQueued_le {fuel fuel' : Nat} (le : fuel ≤ fuel') :
    Extends (Outlet.sendQueued env fuel) (Outlet.sendQueued env fuel') :=
  Extends.sendQueuedWith fun more => drain_le le more

structure Sound (ziplink : Bool) (s : Outlet W Z) : Prop where
  zip : s.zip = ziplink
  queue : ∃ xs, s.sendQ.Holds xs
  doing : s.sendqPop = true → s.doingList = true

variable {ziplink : Bool}

theorem Sound.put {s : Outlet W Z} (h : Sound ziplink s) (msg : CStr) : Sound ziplink (s.put msg) := by
  obtain ⟨xs, holds⟩ := h.queue
  exact ⟨h.zip, ⟨_, holds.put msg⟩, h.doing⟩

theorem Sound.deadLink {s : Outlet W Z} (h : Sound ziplink s) : Sound ziplink s.deadLink := by
  obtain ⟨xs, holds⟩ := h.queue
  exact ⟨h.zip, ⟨_, holds.delete _⟩, h.doing⟩

theorem Sound.deliver {s : Outlet W Z} (h : Sound ziplink s) (world : W) (rlen : Nat) :
    Sound ziplink (s.deliver world rlen) := by
  obtain ⟨xs, holds⟩ := h.queue
  exact ⟨h.zip, ⟨_, holds.delete rlen⟩, h.doing⟩

theorem Sound.zipBuffer {s s' : Outlet W Z} (h : Sound ziplink s) {buffer : CStr} {flush : Bool}
    {msg : Option CStr} (zipped : s.zipBuffer env buffer flush = (s', msg)) : Sound ziplink s' := by
  obtain ⟨outbuf, zout, fault, same⟩ := @zipBuffer_frame _ _ env s buffer flush
  rw [zipped] at same
  dsimp only at same
  subst same
  exact ⟨h.zip, h.queue, h.doing⟩

theorem Sound.enqueue {s : Outlet W Z} (h : Sound ziplink s) (msg : CStr) :
    Sound ziplink (s.enqueue env msg) := by
  unfold Outlet.enqueue
  split
  · cases zipped : s.zipBuffer env msg false with
    | mk s₁ out =>
      have after := h.zipBuffer zipped
      cases out with
      | none => exact ⟨after.zip, after.queue, after.doing⟩
      | some out =>
        dsimp only
        split
        · exact after
        · exact after.put out
  · exact h.put msg

theorem sound_sends (reply : Reply) : Sends env (Sound (W := W) (Z := Z) ziplink) reply where
  dead s h _ := ⟨h.zip, h.queue, h.doing⟩
  taken s h _ _ := Sound.enqueue (s := s.record env reply) ⟨h.zip, h.queue, h.doing⟩ _
  popped s h _ _ doing := ⟨h.zip, h.queue, fun _ => doing⟩
  refused s h _ _ _ := by
    obtain ⟨xs, holds⟩ := h.queue
    exact ⟨h.zip, ⟨_, holds.delete _⟩, h.doing⟩

theorem sound_lists : Lists env (Sound (W := W) (Z := Z) ziplink) where
  sends reply _ := sound_sends reply
  start s h := ⟨h.zip, h.queue, fun no => by cases no⟩
  clear s h := ⟨h.zip, h.queue, fun no => by cases no⟩
  finish s h clear := ⟨h.zip, h.queue, fun no => by
    rw [clear] at no
    cases no⟩
  seat s _ _ h := ⟨h.zip, h.queue, h.doing⟩
  used s _ h := ⟨h.zip, h.queue, h.doing⟩

theorem sound_drains : Drains env ziplink (Sound (W := W) (Z := Z) ziplink) :=
  .of_lists (fun _ h => h.zip) sound_lists (fun _ world rlen h _ => h.deliver world rlen)
    (fun s world h => Sound.deadLink (s := { s with world }) ⟨h.zip, h.queue, h.doing⟩)
    (fun _ _ h _ msg zipped => (h.zipBuffer zipped).put msg)
    fun _ _ h _ zipped => (h.zipBuffer zipped).deadLink

theorem Fresh.sound {s : Outlet W Z} (fresh : Fresh s) : Sound s.zip s :=
  ⟨rfl, ⟨[], fresh.sendQ.holds⟩, fun pop => by
    rw [fresh.sendqPop] at pop
    cases pop⟩

theorem deliver_shorter {s : Outlet W Z} (h : Sound ziplink s) (filled : s.sendqLength ≠ 0)
    (world : W) {rlen : Nat} (whole : s.sendQ.dbufMap.length ≤ rlen) :
    (s.deliver world rlen).sendqLength < s.sendqLength := by
  obtain ⟨xs, holds⟩ := h.queue
  have length : s.sendqLength = xs.length := holds.length
  have after : (s.deliver world rlen).sendqLength = (xs.drop rlen).length :=
    (holds.delete rlen).length
  have mapped := holds.map.2 (List.ne_nil_of_length_pos (by omega))
  have positive := List.length_pos_of_ne_nil mapped
  rw [after, length, List.length_drop]
  omega

def toList (env : SendEnv W Z) (s : Outlet W Z) : Nat :=
  if s.sendqPop then (pending env s).length + 1 else 0

def Advances (env : SendEnv W Z) (ziplink : Bool) : Prop :=
  ∀ s : Outlet W Z, Sound ziplink s → s.sendqPop = true → s.sendqLength = 0 →
    ∃ fuel s', relist env (sendQueued env fuel) s = some s' ∧ toList env s' < toList env s

theorem toList_frame {s s' : Outlet W Z} (frame : Frame s s') : toList env s' = toList env s := by
  unfold toList pending
  rw [frame.sendqPop, frame.listprogress, frame.listprogress2, frame.channels]

theorem turn_returns {s : Outlet W Z} (sound : Sound ziplink s)
    (advances : s.sendqPop = true → Advances env ziplink) :
    ∃ fuel s', relist env (sendQueued env fuel) s = some s' ∧ Sound ziplink s' ∧
      (s'.sendqPop = true → Advances env ziplink) ∧ (s' = s ∨ toList env s' < toList env s) := by
  cases pop : s.sendqPop with
  | false =>
    refine ⟨0, s, relist_clear pop, sound, fun no => ?_, .inl rfl⟩
    rw [pop] at no
    cases no
  | true =>
    by_cases empty : s.sendqLength = 0
    · obtain ⟨fuel, s', again, less⟩ := advances pop s sound pop empty
      have after := sound_lists.relist (sound_drains.sendQueued fuel) s s' sound again
      exact ⟨fuel, s', again, after, fun _ => advances pop, .inr less⟩
    · refine ⟨0, s, ?_, sound, advances, .inl rfl⟩
      unfold relist
      rw [pop, if_neg (by simpa using empty)]

theorem drain_returns (n : Nat) : ∀ (more : Bool) (s : Outlet W Z), Sound ziplink s →
    (s.sendqPop = true → Advances env ziplink) → 2 * toList env s + more.toNat = n →
    ∃ fuel s', drain env fuel more s = some s' := by
  induction n using Nat.strong_induction_on with
  | _ n ih =>
    intro more s
    induction len : s.sendqLength using Nat.strong_induction_on generalizing s with
    | _ length shorter =>
      intro sound advances size
      by_cases empty : s.sendqLength = 0
      · exact ⟨1, s, by rw [Outlet.drain, if_pos empty]⟩
      cases sent : env.deliverIt s.world s.sendQ.dbufMap with
      | mk world written =>
        cases written with
        | none => exact ⟨1, _, by rw [Outlet.drain, if_neg empty, sent]⟩
        | some rlen =>
          have kept : toList env (s.deliver world rlen) = toList env s := rfl
          obtain ⟨fuel, s₂, again, sound₂, advances₂, moved⟩ :=
            turn_returns (sound.deliver world rlen) advances
          -- the first turn with enough fuel for it and for what follows
          have first : ∀ fuel', fuel ≤ fuel' →
              relist env (sendQueuedWith env (drain env fuel')) (s.deliver world rlen) = some s₂ :=
            fun fuel' le => (sendQueued_le le).relist _ _ again
          by_cases whole : s.sendQ.dbufMap.length ≤ rlen
          · by_cases left : s₂.sendqLength = 0 ∧ more = true
            · have flushing : more.toNat = 1 := by rw [left.2]; rfl
              have less : toList env s₂ ≤ toList env s := by
                obtain rfl | less := moved
                · omega
                · omega
              cases zipped : s₂.zipBuffer env [] true with
              | mk s₃ msg =>
                cases msg with
                | none =>
                  refine ⟨fuel + 1, s₃.deadLink, ?_⟩
                  rw [Outlet.drain, if_neg empty, sent]
                  dsimp only
                  rw [first fuel (Nat.le_refl _)]
                  simp [whole, left, Outlet.flushOut, zipped]
                | some msg =>
                  have put : toList env (s₃.put msg) = toList env s₃ := rfl
                  have same : toList env s₃ = toList env s₂ := toList_frame (frame_zipBuffer zipped)
                  have pop : (s₃.put msg).sendqPop = s₂.sendqPop :=
                    (frame_zipBuffer zipped).sendqPop
                  obtain ⟨fuel₂, s₄, rest⟩ := ih (2 * toList env (s₃.put msg)) (by omega) false
                    (s₃.put msg) ((sound₂.zipBuffer zipped).put msg)
                    (fun on => advances₂ (pop.symm.trans on)) rfl
                  refine ⟨max fuel fuel₂ + 1, s₄, ?_⟩
                  rw [Outlet.drain, if_neg empty, sent]
                  dsimp only
                  rw [first _ (Nat.le_max_left _ _)]
                  simp [whole, left, Outlet.flushOut, zipped, drain_le (Nat.le_max_right fuel fuel₂)
                    false _ _ rest]
            · have rest : ∃ fuel₂ s₄, drain env fuel₂ more s₂ = some s₄ := by
                obtain rfl | less := moved
                · have less := deliver_shorter sound empty world whole
                  exact shorter _ (by omega) _ rfl sound₂ advances₂ (by omega)
                · exact ih _ (by omega) more s₂ sound₂ advances₂ rfl
              obtain ⟨fuel₂, s₄, rest⟩ := rest
              refine ⟨max fuel fuel₂ + 1, s₄, ?_⟩
              rw [Outlet.drain, if_neg empty, sent]
              dsimp only
              rw [first _ (Nat.le_max_left _ _)]
              simp [whole, left, drain_le (Nat.le_max_right fuel fuel₂) more _ _ rest]
          · refine ⟨fuel + 1, s₂, ?_⟩
            rw [Outlet.drain, if_neg empty, sent]
            dsimp only
            rw [first fuel (Nat.le_refl _)]
            simp [whole]

theorem sendQueued_returns {s : Outlet W Z} (sound : Sound ziplink s)
    (advances : s.sendqPop = true → Advances env ziplink) :
    ∃ fuel s', sendQueued env fuel s = some s' := by
  have drains := fun more => drain_returns _ more s sound advances rfl
  unfold sendQueued sendQueuedWith
  by_cases dead : s.dead = true
  · exact ⟨0, s, if_pos dead⟩
  simp only [if_neg dead]
  by_cases waits : (s.zip && !s.outbuf.isEmpty) = true
  · simp only [if_pos waits]
    by_cases filled : 0 < s.sendqLength
    · simp only [if_pos filled]
      exact drains true
    · simp only [if_neg filled]
      unfold flushOut
      cases zipped : s.zipBuffer env [] true with
      | mk s₁ msg =>
        cases msg with
        | none => exact ⟨0, _, rfl⟩
        | some msg =>
          have pop : (s₁.put msg).sendqPop = s.sendqPop := (frame_zipBuffer zipped).sendqPop
          exact drain_returns _ false (s₁.put msg) ((sound.zipBuffer zipped).put msg)
            (fun on => advances (pop.symm.trans on)) rfl
  · simp only [if_neg waits]
    exact drains false

theorem sendMessage_returns {s : Outlet W Z} (sound : Sound ziplink s)
    (advances : s.sendqPop = true → Advances env ziplink) (reply : Reply) :
    ∃ fuel s', s.sendMessage env (sendQueued env fuel) reply = some s' := by
  unfold sendMessage
  by_cases dead : s.dead = true
  · exact ⟨0, s, if_pos dead⟩
  simp only [if_neg dead]
  by_cases exceeds : s.overLimit env = true
  · simp only [if_pos exceeds]
    split
    · exact ⟨0, _, rfl⟩
    · exact ⟨0, _, rfl⟩
  · simp only [if_neg exceeds]
    have put := @Sound.enqueue _ _ env _ s sound (reply.text env.me env.name)
    have frame := @frame_enqueue _ _ env s (reply.text env.me env.name)
    split
    · exact sendQueued_returns put fun on => advances (frame.sendqPop.symm.trans on)
    · exact ⟨0, _, rfl⟩

theorem call_returns {s : Outlet W Z} (sound : Sound ziplink s)
    (advances : s.sendqPop = true → Advances env ziplink) (reply : Reply) :
    ∃ fuel s', s.call env (sendQueued env fuel) reply = some s' :=
  sendMessage_returns (s := s.record env reply) ⟨sound.zip, sound.queue, sound.doing⟩ advances reply

/-- A loop goes on only where the queue has not popped, so the first line decides. -/
theorem listBlock_returns (i progress2 : Nat) (chain : List Channel) (j : Nat) {s : Outlet W Z}
    (sound : Sound ziplink s) (advances : s.sendqPop = true → Advances env ziplink) :
    ∃ fuel s' popped, listBlock env (sendQueued env fuel) i progress2 j chain s = some (s', popped) ∧
      (popped = false → s'.sendqPop = true → Advances env ziplink) := by
  induction chain generalizing j s with
  | nil => exact ⟨0, s, false, rfl, fun _ => advances⟩
  | cons chptr chain ih =>
    simp only [listBlock]
    by_cases skipped : j < progress2
    · simp only [if_pos skipped]
      exact ih (j + 1) sound advances
    simp only [if_neg skipped]
    by_cases hidden : (!lists env chptr) = true
    · simp only [if_pos hidden]
      exact ih (j + 1) sound advances
    simp only [if_neg hidden]
    obtain ⟨fuel, s₁, sent⟩ := call_returns sound advances (rplList env chptr)
    have after := (sound_sends _).call (sound_drains.sendQueued fuel) s s₁ sound sent
    by_cases pop : s₁.sendqPop = true
    · refine ⟨fuel, { s₁ with listprogress := some i, listprogress2 := j }, true, ?_,
        fun no => by cases no⟩
      exact Option.bind_eq_some_iff.mpr ⟨s₁, sent, if_pos pop⟩
    · obtain ⟨fuel₂, s₂, popped, rest, next⟩ := ih (j + 1) after fun on => absurd on pop
      refine ⟨max fuel fuel₂, s₂, popped, ?_, next⟩
      have sent := (sendQueued_le (Nat.le_max_left fuel fuel₂)).call _ s s₁ sent
      have rest := (sendQueued_le (Nat.le_max_right fuel fuel₂)).listBlock _ _ _ _ _ _ rest
      exact Option.bind_eq_some_iff.mpr ⟨s₁, sent, (if_neg pop).trans rest⟩

theorem listBlocks_returns (resumes : Bool) (blocks : List ChannelBlock) (i : Nat)
    {s : Outlet W Z} (sound : Sound ziplink s)
    (advances : s.sendqPop = true → Advances env ziplink) :
    ∃ fuel s' popped, listBlocks env (sendQueued env fuel) resumes i blocks s = some (s', popped) ∧
      (popped = false → s'.sendqPop = true → Advances env ziplink) := by
  induction blocks generalizing i s with
  | nil => exact ⟨0, s, false, rfl, fun _ => advances⟩
  | cons block blocks ih =>
    simp only [listBlocks]
    obtain ⟨fuel, s₁, popped, walk, next⟩ := listBlock_returns i
      (if resumes then s.listprogress2 else 0) (block.list.take block.links) 0 sound advances
    have after := sound_lists.listBlock (sound_drains.sendQueued fuel) _ _ _ _ sound walk
    cases popped with
    | true =>
      exact ⟨fuel, s₁, true, Option.bind_eq_some_iff.mpr ⟨_, walk, rfl⟩, fun no => by cases no⟩
    | false =>
      have seated : Sound ziplink (if resumes then { s₁ with listprogress2 := 0 } else s₁) := by
        split
        · exact ⟨after.zip, after.queue, after.doing⟩
        · exact after
      have still : (if resumes then { s₁ with listprogress2 := 0 } else s₁).sendqPop =
          s₁.sendqPop := by
        split <;> rfl
      obtain ⟨fuel₂, s₂, popped, rest, next⟩ :=
        ih (i + 1) seated fun on => next rfl (still.symm.trans on)
      refine ⟨max fuel fuel₂, s₂, popped, ?_, next⟩
      have walk := (sendQueued_le (Nat.le_max_left fuel fuel₂)).listBlock _ _ _ _ _ _ walk
      have rest := (sendQueued_le (Nat.le_max_right fuel fuel₂)).listBlocks _ _ _ _ _ rest
      exact Option.bind_eq_some_iff.mpr ⟨_, walk, rest⟩

theorem listFinish_returns {s : Outlet W Z} (sound : Sound ziplink s)
    (advances : s.sendqPop = true → Advances env ziplink) :
    ∃ fuel s', listFinish env (sendQueued env fuel) s = some s' := by
  obtain ⟨fuel, s₁, sent⟩ := call_returns sound advances .listEnd
  by_cases pop : s₁.sendqPop = true
  · exact ⟨fuel, _, Option.bind_eq_some_iff.mpr ⟨s₁, sent, if_pos pop⟩⟩
  · exact ⟨fuel, _, Option.bind_eq_some_iff.mpr ⟨s₁, sent, if_neg pop⟩⟩

theorem walk_returns (resumes : Bool) (blocks : List ChannelBlock) (i : Nat) {s : Outlet W Z}
    (sound : Sound ziplink s) (advances : s.sendqPop = true → Advances env ziplink) :
    ∃ fuel s', (listBlocks env (sendQueued env fuel) resumes i blocks s >>= fun r =>
      if r.2 then some r.1 else listFinish env (sendQueued env fuel) r.1) = some s' := by
  obtain ⟨fuel, s₁, popped, walk, next⟩ := listBlocks_returns resumes blocks i sound advances
  have after := sound_lists.listBlocks (sound_drains.sendQueued fuel) _ _ _ sound walk
  cases popped with
  | true => exact ⟨fuel, s₁, Option.bind_eq_some_iff.mpr ⟨_, walk, rfl⟩⟩
  | false =>
    obtain ⟨fuel₂, s₂, rest⟩ := listFinish_returns after (next rfl)
    refine ⟨max fuel fuel₂, s₂, ?_⟩
    have walk := (sendQueued_le (Nat.le_max_left fuel fuel₂)).listBlocks _ _ _ _ _ walk
    have rest := (sendQueued_le (Nat.le_max_right fuel fuel₂)).listFinish _ _ rest
    exact Option.bind_eq_some_iff.mpr ⟨_, walk, rest⟩

theorem listResume_returns {s : Outlet W Z} (sound : Sound ziplink s)
    (advances : s.sendqPop = true → Advances env ziplink) :
    ∃ fuel s', listResume env (sendQueued env fuel) s = some s' := by
  unfold listResume
  cases s.listprogress with
  | none => exact listFinish_returns sound advances
  | some i => exact walk_returns true _ i sound advances

theorem advances : Advances env ziplink := by
  intro s sound pop empty
  have doing := sound.doing pop
  obtain ⟨now, again⟩ := @relist_again _ _ env s pop doing empty
  have cleared : Sound ziplink { s with sendqPop := false, lastUsed := now } :=
    ⟨sound.zip, sound.queue, fun no => by cases no⟩
  obtain ⟨fuel, s', resumed⟩ := @listResume_returns _ _ env _ _ cleared fun no => by cases no
  rw [← again] at resumed
  refine ⟨fuel, s', resumed, ?_⟩
  have far := relist_resumed (fun s s' clear run => frame_sendQueued fuel clear run) pop doing empty
    resumed
  unfold toList
  rw [if_pos pop]
  cases far with
  | ended idle clear _ _ _ =>
    rw [if_neg (by simp [clear])]
    omega
  | blocked sent passing pop' filled left first =>
    have some : sent ≠ [] := by
      intro none
      exact overLimit_filled (first none) empty
    have positive := List.length_pos_of_ne_nil some
    rw [if_pos pop', left, List.length_append]
    omega

theorem mList_returns {s : Outlet W Z} (sound : Sound ziplink s) (parv1 : CStr) :
    ∃ fuel s', mList env (sendQueued env fuel) parv1 s = some s' := by
  have used : Sound ziplink (s.useList env) := by
    unfold useList
    split
    · exact sound
    · exact ⟨sound.zip, sound.queue, sound.doing⟩
  have far : ∀ s : Outlet W Z, s.sendqPop = true → Advances env ziplink := fun _ _ => advances
  unfold mList
  split
  · exact call_returns sound (far s) _
  · split
    · exact listResume_returns used (far _)
    · obtain ⟨fuel, s₁, sent⟩ := call_returns used (far _) .listStart
      have after := (sound_sends _).call (sound_drains.sendQueued fuel) _ _ used sent
      -- the list itself and its end, each with fuel enough of its own
      have rest : ∃ fuel s', (if parv1 = [] then listAll env (sendQueued env fuel) s₁
          else listOne env (sendQueued env fuel) (parv1.takeWhile (· != ',')) s₁) = some s' := by
        split
        · exact walk_returns false _ 0 ⟨after.zip, after.queue, fun no => by cases no⟩ (far _)
        · have named : ∃ fuel s₂, listNamed env (sendQueued env fuel)
              (parv1.takeWhile (· != ',')) s₁ = some s₂ := by
            unfold listNamed
            split
            · exact ⟨0, s₁, rfl⟩
            · split
              · exact call_returns after (far _) _
              · exact ⟨0, s₁, rfl⟩
          obtain ⟨fuel₂, s₂, named⟩ := named
          have after₂ := sound_lists.listNamed (sound_drains.sendQueued fuel₂) _ _ _ after named
          obtain ⟨fuel₃, s₃, last⟩ := call_returns after₂ (far _) .listEnd
          have named := (sendQueued_le (Nat.le_max_left fuel₂ fuel₃)).listNamed _ _ _ named
          have last := (sendQueued_le (Nat.le_max_right fuel₂ fuel₃)).call _ _ _ last
          exact ⟨_, s₃, Option.bind_eq_some_iff.mpr ⟨s₂, named, last⟩⟩
      obtain ⟨fuel₂, s₂, rest⟩ := rest
      have sent := (sendQueued_le (Nat.le_max_left fuel fuel₂)).call _ _ _ sent
      refine ⟨max fuel fuel₂, s₂, Option.bind_eq_some_iff.mpr ⟨s₁, sent, ?_⟩⟩
      -- more fuel than needed gives the same state
      have more := @sendQueued_le _ _ env _ _ (Nat.le_max_right fuel fuel₂)
      split
      · next every =>
        rw [if_pos every] at rest
        exact more.listAll _ _ rest
      · next one =>
        rw [if_neg one] at rest
        exact (more.listNamed _).bind (more.call .listEnd) _ _ rest

theorem handle_le {fuel fuel' : Nat} (le : fuel ≤ fuel') (e : SendEvent W) :
    Extends (fun s : Outlet W Z => s.handle env fuel e) fun s => s.handle env fuel' e := by
  cases e with
  | message msg => exact Extends.call (sendQueued_le le) _
  | queued => exact sendQueued_le le
  | list parv1 => exact (sendQueued_le le).mList parv1
  | channels _ => exact fun _ _ run => run
  | elsewhere _ _ => exact fun _ _ run => run
  | burst _ => exact fun _ _ run => run

theorem run_le {fuel fuel' : Nat} (le : fuel ≤ fuel') (es : List (SendEvent W)) :
    Extends (fun s : Outlet W Z => s.run env fuel es) fun s => s.run env fuel' es := by
  induction es with
  | nil => exact fun _ _ run => run
  | cons e es ih => exact (handle_le le e).bind ih

theorem handle_sound (fuel : Nat) (e : SendEvent W) :
    Keeps (Sound (W := W) (Z := Z) ziplink) fun s => s.handle env fuel e :=
  sound_lists.handle (fun _ => sound_sends _) sound_drains (fun _ _ h => ⟨h.zip, h.queue, h.doing⟩)
    (fun _ _ _ h => ⟨h.zip, h.queue, h.doing⟩) (fun _ _ h => ⟨h.zip, h.queue, h.doing⟩) fuel e

theorem run_sound (fuel : Nat) (es : List (SendEvent W)) :
    Keeps (Sound (W := W) (Z := Z) ziplink) fun s => s.run env fuel es :=
  @run_keeps _ _ _ _ fuel (fun _ => True) (fun e _ => handle_sound fuel e) es fun _ _ => trivial

theorem handle_returns {s : Outlet W Z} (sound : Sound ziplink s) (e : SendEvent W) :
    ∃ fuel s', s.handle env fuel e = some s' := by
  cases e with
  | message msg => exact call_returns sound (fun _ => advances) _
  | queued => exact sendQueued_returns sound fun _ => advances
  | list parv1 => exact mList_returns sound parv1
  | channels _ => exact ⟨0, _, rfl⟩
  | elsewhere _ _ => exact ⟨0, _, rfl⟩
  | burst _ => exact ⟨0, _, rfl⟩

theorem run_returns {s : Outlet W Z} (sound : Sound ziplink s) (es : List (SendEvent W)) :
    ∃ fuel s', s.run env fuel es = some s' := by
  induction es generalizing s with
  | nil => exact ⟨0, s, rfl⟩
  | cons e es ih =>
    obtain ⟨fuel, s₁, handled⟩ := handle_returns sound e
    obtain ⟨fuel₂, s₂, rest⟩ := ih (handle_sound fuel e s s₁ sound handled)
    have handled := handle_le (Nat.le_max_left fuel fuel₂) e s s₁ handled
    have rest := run_le (Nat.le_max_right fuel fuel₂) es s₁ s₂ rest
    exact ⟨_, s₂, Option.bind_eq_some_iff.mpr ⟨s₁, handled, rest⟩⟩

end Outlet

end Ircd
