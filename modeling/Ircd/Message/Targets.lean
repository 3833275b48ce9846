import Ircd.Message.Message

/-! The targets of one `PRIVMSG` or `NOTICE`: what each is answered, alone and in a list.

The answers of two states are compared by what each adds (`SameAnswers`), and what a
target leaves alone for the targets behind it is `Kept`.
-/

set_option autoImplicit false

namespace Ircd

namespace MessageState

@[simp] theorem emit_world (s : MessageState) (o : Sent) : (s.emit o).world = s.world := rfl

@[simp] theorem emit_drone (s : MessageState) (o : Sent) : (s.emit o).drone = s.drone := rfl

@[simp] theorem setNoticed_world (s : MessageState) (acptr : ClientId) (n : Int) :
    (s.setNoticed acptr n).world = s.world := rfl

@[simp] theorem setNoticed_sendQ (s : MessageState) (acptr : ClientId) (n : Int) :
    (s.setNoticed acptr n).sendQ = s.sendQ := rfl

theorem answers_emit (s : MessageState) (o : Sent) :
    (s.emit o).answers = s.answers ++ [o].filter Sent.isAnswer := by
  simp [answers, emit]

theorem answers_emit_quiet (s : MessageState) {o : Sent} (quiet : o.isAnswer = false) :
    (s.emit o).answers = s.answers := by
  simp [answers_emit, quiet]

def SameAnswers (s r s' r' : MessageState) : Prop :=
  ∃ out, r.answers = s.answers ++ out ∧ r'.answers = s'.answers ++ out

namespace SameAnswers

theorem quiet {s r s' r' : MessageState} (left : r.answers = s.answers)
    (right : r'.answers = s'.answers) : SameAnswers s r s' r' :=
  ⟨[], by simpa using left, by simpa using right⟩

theorem emit (s s' : MessageState) (o : Sent) : SameAnswers s (s.emit o) s' (s'.emit o) :=
  ⟨[o].filter Sent.isAnswer, answers_emit s o, answers_emit s' o⟩

theorem trans {s m r s' m' r' : MessageState} (first : SameAnswers s m s' m')
    (second : SameAnswers m r m' r') : SameAnswers s r s' r' := by
  obtain ⟨out, left, right⟩ := first
  obtain ⟨out', left', right'⟩ := second
  refine ⟨out ++ out', ?_, ?_⟩
  · rw [left', left, List.append_assoc]
  · rw [right', right, List.append_assoc]

theorem reply {s s' : MessageState} (world : s.world = s'.world) (call : MessageCall)
    (num : MessageNumeric) (args : List CStr) :
    SameAnswers s (s.reply call num args) s' (s'.reply call num args) := by
  simp only [MessageState.reply, world]
  exact emit s s' _

end SameAnswers

theorem sendOperSpecial_same {s s' : MessageState} (world : s.world = s'.world)
    (call : MessageCall) (nick : CStr) :
    SameAnswers s (s.sendOperSpecial call nick) s' (s'.sendOperSpecial call nick) := by
  simp only [sendOperSpecial, world]
  cases topLevel nick with
  | none => exact .emit s s' _
  | some top =>
    simp only
    split
    · exact .emit s s' _
    · split
      · exact .emit s s' _
      · exact .emit s s' _
      · exact .emit s s' _
      · exact .emit s s' _
      · exact .quiet rfl rfl

theorem sendToUserHost_same {s s' : MessageState} (world : s.world = s'.world)
    (call : MessageCall) (nick : CStr) :
    SameAnswers s (s.sendToUserHost call nick) s' (s'.sendToUserHost call nick) := by
  simp only [sendToUserHost, world]
  split
  · exact .reply world call _ _
  · split
    · exact .reply world call _ _
    · split
      · exact .emit s s' _
      · split
        · exact .emit s s' _
        · split
          · exact .emit s s' _
          · split
            · exact .reply world call _ _
            · exact .quiet rfl rfl
          · exact .reply world call _ _

theorem deliver_same {s s' : MessageState} (world : s.world = s'.world) (call : MessageCall)
    (nick : CStr) (acptr : ClientId) :
    SameAnswers s (s.deliver call nick acptr) s' (s'.deliver call nick acptr) := by
  simp only [deliver, world]
  refine SameAnswers.trans ?_ (.emit _ _ _)
  split
  · split
    · exact .reply world call _ _
    · exact .quiet rfl rfl
  · exact .quiet rfl rfl

/-- Nothing that a message reads about `v` differs, the send queues apart. -/
structure Kept (v : ClientId) (s r : MessageState) : Prop where
  world : r.world = s.world
  fludblock : r.fludblock (.client v) = s.fludblock (.client v)
  fluders : r.fluders (.client v) = s.fluders (.client v)
  drone : r.drone v = s.drone v

namespace Kept

theorem refl (v : ClientId) (s : MessageState) : Kept v s s := ⟨rfl, rfl, rfl, rfl⟩

theorem trans {v : ClientId} {s m r : MessageState} (first : Kept v s m) (second : Kept v m r) :
    Kept v s r where
  world := second.world.trans first.world
  fludblock := second.fludblock.trans first.fludblock
  fluders := second.fluders.trans first.fluders
  drone := second.drone.trans first.drone

theorem emit (v : ClientId) (s : MessageState) (o : Sent) : Kept v s (s.emit o) :=
  ⟨rfl, rfl, rfl, rfl⟩

end Kept

theorem fludNotice_quiet (t : Tables) (target : Fludee) :
    (fludNotice t target).isAnswer = false := by
  cases target <;> rfl

/-- The writes of `check_for_flud` for one target: what each keeps, the whole keeps. -/
structure FludWrites (target : Fludee) (P : MessageState → Prop) : Prop where
  garbage : ∀ s, P s → P (s.collectGarbage target)
  setFluders : ∀ s bots fludees, P s → P (s.setFluders target bots fludees)
  count : ∀ s n, P s → P { s with isFlud := n }
  block : ∀ s n, P s → P { s with fludblock := Function.update s.fludblock target n }
  emit : ∀ s o, o.isAnswer = false → P s → P (s.emit o)

namespace FludWrites

variable {target : Fludee} {P : MessageState → Prop}

theorem emitAll (keeps : FludWrites target P) {os : List Sent}
    (quiet : ∀ o ∈ os, o.isAnswer = false) {s : MessageState} (holds : P s) : P (s.emitAll os) := by
  induction os generalizing s with
  | nil => exact holds
  | cons o os ih =>
    have first : P (s.emit o) := keeps.emit s o (quiet o List.mem_cons_self) holds
    exact ih (fun o' inside => quiet o' (List.mem_cons_of_mem _ inside)) first

theorem sweepFlud (keeps : FludWrites target P) {s : MessageState} (holds : P s) :
    P (s.sweepFlud target) := by
  unfold MessageState.sweepFlud
  split
  · exact holds
  · exact keeps.garbage s holds

theorem recordFlud (keeps : FludWrites target P) {s : MessageState} (holds : P s)
    (fluder : ClientId) (blocking : Bool) : P (s.recordFlud fluder target blocking).1 := by
  unfold MessageState.recordFlud
  dsimp only
  split
  · exact keeps.setFluders s _ _ holds
  · have recorded := keeps.setFluders s
      ({ fluder := fluder, count := 1, firstMsg := s.world.now, lastMsg := s.world.now } ::
        s.recount fluder target)
      (Function.update s.fludees fluder (target :: s.fludees fluder)) holds
    split
    · exact keeps.emit _ _ rfl recorded
    · exact recorded

theorem tripFlud (keeps : FludWrites target P) {s : MessageState} (holds : P s) :
    P (s.tripFlud target) := by
  have told := keeps.emit _ (fludNotice s.world.toTables target) (fludNotice_quiet _ _)
    (keeps.count s (s.isFlud + 1) holds)
  refine keeps.emitAll (fun o inside => ?_) told
  obtain ⟨bot, _, rfl⟩ := List.mem_map.1 inside
  rfl

theorem checkForFlud (keeps : FludWrites target P) {s : MessageState} (holds : P s)
    (fluder : ClientId) : P (s.checkForFlud fluder target).1 := by
  unfold MessageState.checkForFlud
  dsimp only
  split
  · exact holds
  · generalize s.fludBlocking target = blocking
    have recorded := keeps.recordFlud (keeps.sweepFlud holds) fluder blocking
    generalize (s.sweepFlud target).recordFlud fluder target blocking = found at recorded
    generalize (!blocking && decide (found.2 > found.1.world.fludNum)) = trips
    have tripped : P (if trips then found.1.tripFlud target else found.1) := by
      split
      · exact keeps.tripFlud recorded
      · exact recorded
    split
    · exact keeps.block _ _ tripped
    · exact tripped

end FludWrites

theorem checkForFlud_kept {v : ClientId} {target : Fludee} (other : Fludee.client v ≠ target)
    (s : MessageState) (fluder : ClientId) : Kept v s (s.checkForFlud fluder target).1 := by
  have keeps : FludWrites target (Kept v s) :=
    { garbage := fun _ kept => kept.trans ⟨rfl, rfl, Function.update_of_ne other _ _, rfl⟩
      setFluders := fun _ _ _ kept => kept.trans ⟨rfl, rfl, Function.update_of_ne other _ _, rfl⟩
      count := fun _ _ kept => kept.trans ⟨rfl, rfl, rfl, rfl⟩
      block := fun _ _ kept => kept.trans ⟨rfl, Function.update_of_ne other _ _, rfl, rfl⟩
      emit := fun _ o _ kept => kept.trans (.emit v _ o) }
  exact keeps.checkForFlud (.refl v s) fluder

theorem checkForFlud_world (s : MessageState) (fluder : ClientId) (target : Fludee) :
    (s.checkForFlud fluder target).1.world = s.world :=
  FludWrites.checkForFlud (P := fun r => r.world = s.world)
    ⟨fun _ => id, fun _ _ _ => id, fun _ _ => id, fun _ _ => id, fun _ _ _ => id⟩ rfl fluder

theorem checkForFlud_drone (s : MessageState) (fluder : ClientId) (target : Fludee) :
    (s.checkForFlud fluder target).1.drone = s.drone :=
  FludWrites.checkForFlud (P := fun r => r.drone = s.drone)
    ⟨fun _ => id, fun _ _ _ => id, fun _ _ => id, fun _ _ => id, fun _ _ _ => id⟩ rfl fluder

theorem checkForFlud_answers (s : MessageState) (fluder : ClientId) (target : Fludee) :
    (s.checkForFlud fluder target).1.answers = s.answers :=
  FludWrites.checkForFlud (P := fun r => r.answers = s.answers)
    ⟨fun _ => id, fun _ _ _ => id, fun _ _ => id, fun _ _ => id,
      fun _ _ quiet same => (answers_emit_quiet _ quiet).trans same⟩ rfl fluder

theorem sweepFlud_world (s : MessageState) (target : Fludee) :
    (s.sweepFlud target).world = s.world := by
  unfold sweepFlud
  split <;> rfl

theorem recordFlud_world (s : MessageState) (fluder : ClientId) (target : Fludee)
    (blocking : Bool) : (s.recordFlud fluder target blocking).1.world = s.world := by
  unfold recordFlud
  dsimp only
  split
  · rfl
  · split <;> rfl

theorem checkForFlud_verdict {s s' : MessageState} {target : Fludee} (world : s.world = s'.world)
    (block : s.fludblock target = s'.fludblock target)
    (fluders : s.fluders target = s'.fluders target) (fluder : ClientId) :
    (s.checkForFlud fluder target).2 = (s'.checkForFlud fluder target).2 := by
  have blocking : s.fludBlocking target = s'.fludBlocking target := by
    simp only [fludBlocking, world, block]
  have swept : (s.sweepFlud target).fluders target = (s'.sweepFlud target).fluders target := by
    simp only [sweepFlud, blocking]
    split
    · exact fluders
    · simp only [collectGarbage, Function.update_self, fluders, world]
  have bots : (s.sweepFlud target).recount fluder target =
      (s'.sweepFlud target).recount fluder target := by
    simp only [recount, swept, sweepFlud_world, world]
  have count : ((s.sweepFlud target).recordFlud fluder target (s'.fludBlocking target)).2 =
      ((s'.sweepFlud target).recordFlud fluder target (s'.fludBlocking target)).2 := by
    simp only [recordFlud, bots, fludCount, sweepFlud_world, world]
    split <;> rfl
  simp only [checkForFlud, blocking, world, count, recordFlud_world, sweepFlud_world]
  split
  · rfl
  · split <;> rfl

theorem checkForFlud_sendQ {s : MessageState} {target : Fludee} {fluder : ClientId}
    (passes : (s.checkForFlud fluder target).2 = false) :
    (s.checkForFlud fluder target).1.sendQ = s.sendQ := by
  revert passes
  simp only [checkForFlud]
  split
  · exact fun _ => rfl
  · split
    · exact fun blocked => absurd blocked (by simp)
    · next quiet =>
      intro _
      obtain ⟨calm, below⟩ := Bool.or_eq_false_iff.1 (Bool.not_eq_true _ ▸ quiet)
      rw [below]
      have swept : (s.sweepFlud target).sendQ = s.sendQ := by
        unfold sweepFlud
        split <;> rfl
      rw [if_neg Bool.false_ne_true, calm, ← swept]
      unfold recordFlud
      dsimp only
      split <;> rfl

theorem countFlud_answers (s : MessageState) (call : MessageCall) (chptr : ChanId) :
    (s.countFlud call chptr).answers = s.answers := by
  unfold countFlud
  split
  · exact checkForFlud_answers s _ _
  · rfl

theorem countFlud_kept (v : ClientId) (s : MessageState) (call : MessageCall) (chptr : ChanId) :
    Kept v s (s.countFlud call chptr) := by
  unfold countFlud
  split
  · exact checkForFlud_kept (fun same => Fludee.noConfusion same) s _
  · exact .refl v s

theorem fludGate_answers (s : MessageState) (call : MessageCall) (acptr : ClientId) :
    (s.fludGate call acptr).1.answers = s.answers := by
  unfold fludGate
  split
  · exact checkForFlud_answers s _ _
  · rfl

theorem fludGate_world (s : MessageState) (call : MessageCall) (acptr : ClientId) :
    (s.fludGate call acptr).1.world = s.world := by
  unfold fludGate
  split
  · exact checkForFlud_world s _ _
  · rfl

theorem fludGate_drone (s : MessageState) (call : MessageCall) (acptr : ClientId) :
    (s.fludGate call acptr).1.drone = s.drone := by
  unfold fludGate
  split
  · exact checkForFlud_drone s _ _
  · rfl

theorem fludGate_kept {v acptr : ClientId} (other : v ≠ acptr) (s : MessageState)
    (call : MessageCall) : Kept v s (s.fludGate call acptr).1 := by
  unfold fludGate
  split
  · exact checkForFlud_kept (fun same => other (Fludee.client.inj same)) s _
  · exact .refl v s

theorem fludGate_sendQ {s : MessageState} {call : MessageCall} {acptr : ClientId}
    (passes : (s.fludGate call acptr).2 = false) :
    (s.fludGate call acptr).1.sendQ = s.sendQ := by
  unfold fludGate at passes ⊢
  split
  · next counts => exact checkForFlud_sendQ (by rwa [if_pos counts] at passes)
  · rfl

theorem fludGate_verdict {s s' : MessageState} {acptr : ClientId} (kept : Kept acptr s s')
    (call : MessageCall) : (s'.fludGate call acptr).2 = (s.fludGate call acptr).2 := by
  simp only [fludGate, kept.world]
  split
  · exact checkForFlud_verdict kept.world kept.fludblock kept.fluders _
  · rfl

structure SameQueues (acptr : ClientId) (s s' : MessageState) : Prop where
  world : s.world = s'.world
  sendQ : s.sendQ = s'.sendQ
  drone : s.drone acptr = s'.drone acptr

theorem SameQueues.emit {acptr : ClientId} {s s' : MessageState} (same : SameQueues acptr s s')
    (o : Sent) : SameQueues acptr (s.emit o) (s'.emit o) where
  world := same.world
  sendQ := by simp only [MessageState.emit, same.world, same.sendQ]
  drone := same.drone

theorem SameQueues.setNoticed {acptr : ClientId} {s s' : MessageState}
    (same : SameQueues acptr s s') (n : Int) :
    SameQueues acptr (s.setNoticed acptr n) (s'.setNoticed acptr n) where
  world := same.world
  sendQ := same.sendQ
  drone := by simp only [MessageState.setNoticed, setDrone, Function.update_self, same.drone]

theorem SameQueues.droneOver {acptr : ClientId} {s s' : MessageState}
    (same : SameQueues acptr s s') (sptr : ClientId) :
    SameQueues acptr (s.droneOver sptr acptr) (s'.droneOver sptr acptr) := by
  have warned : SameQueues acptr (s.droneWarn sptr acptr) (s'.droneWarn sptr acptr) := by
    simp only [droneWarn, same.drone, same.world]
    split
    · exact (same.emit _).setNoticed 1
    · exact same
  have activated : ∀ m m', SameQueues acptr m m' →
      SameQueues acptr (m.droneActivate acptr) (m'.droneActivate acptr) := by
    intro m m' same
    simp only [droneActivate, same.drone, same.world, same.sendQ]
    split
    · exact ((same.emit _).emit _).setNoticed 2
    · exact same
  have deactivated : ∀ m m', SameQueues acptr m m' →
      SameQueues acptr (m.droneDeactivate acptr) (m'.droneDeactivate acptr) := by
    intro m m' same
    simp only [droneDeactivate, same.drone, same.world, same.sendQ]
    split
    · exact (same.emit _).setNoticed 1
    · exact same
  exact deactivated _ _ (activated _ _ warned)

structure Quiet (acptr : ClientId) (s r : MessageState) : Prop where
  answers : r.answers = s.answers
  kept : ∀ v, v ≠ acptr → Kept v s r

theorem Quiet.refl (acptr : ClientId) (s : MessageState) : Quiet acptr s s :=
  ⟨rfl, fun v _ => .refl v s⟩

theorem Quiet.emit {acptr : ClientId} {s r : MessageState} (quiet : Quiet acptr s r) {o : Sent}
    (silent : o.isAnswer = false) : Quiet acptr s (r.emit o) :=
  ⟨(answers_emit_quiet r silent).trans quiet.answers,
    fun v other => (quiet.kept v other).trans (.emit v r o)⟩

theorem Quiet.setDrone {acptr : ClientId} {s r : MessageState} (quiet : Quiet acptr s r)
    (d : Drone) : Quiet acptr s (r.setDrone acptr d) :=
  ⟨quiet.answers, fun v other => (quiet.kept v other).trans
    ⟨rfl, rfl, rfl, Function.update_of_ne other _ _⟩⟩

theorem droneOver_quiet (s : MessageState) (sptr acptr : ClientId) :
    Quiet acptr s (s.droneOver sptr acptr) := by
  have warned : Quiet acptr s (s.droneWarn sptr acptr) := by
    unfold droneWarn
    split
    · exact ((Quiet.refl acptr s).emit rfl).setDrone _
    · exact .refl acptr s
  have activated : ∀ m, Quiet acptr s m → Quiet acptr s (m.droneActivate acptr) := by
    intro m quiet
    unfold droneActivate
    split
    · exact ((quiet.emit rfl).emit rfl).setDrone _
    · exact quiet
  have deactivated : ∀ m, Quiet acptr s m → Quiet acptr s (m.droneDeactivate acptr) := by
    intro m quiet
    unfold droneDeactivate
    split
    · exact (quiet.emit rfl).setDrone _
    · exact quiet
  exact deactivated _ (activated _ warned)

theorem droneGate_quiet (s : MessageState) (sptr acptr : ClientId) :
    Quiet acptr s (s.droneGate sptr acptr).1 := by
  have start := Quiet.refl acptr s
  unfold droneGate
  dsimp only
  split
  · split
    · exact start.setDrone _
    · split
      · exact droneOver_quiet s sptr acptr
      · exact start.setDrone _
  · exact start

/-- The verdict hangs on the counter of the target and on the send queues. -/
theorem droneGate_verdict {s s' : MessageState} {sptr acptr : ClientId}
    (same : SameQueues acptr s s') :
    (s.droneGate sptr acptr).2 = (s'.droneGate sptr acptr).2 := by
  simp only [droneGate, same.world, same.drone]
  split
  · split
    · rfl
    · split
      · simp only [(same.droneOver sptr).drone]
      · rfl
  · rfl

end MessageState

def prefixed (nick : CStr) : Bool := nick.head? == some '@' || nick.head? == some '+'

/-- A target that is answered before the variable `type` is looked at. -/
def MessageWorld.settled (w : MessageWorld) (sptr : ClientId) (nick : CStr) : Bool :=
  w.operSpecial sptr nick || (w.targetChannel sptr nick).isSome

def MessageWorld.mayPrefix (w : MessageWorld) (sptr : ClientId) (chptr : ChanId) : Bool :=
  (w.chan chptr).isChanOp sptr || (w.chan chptr).hasVoice sptr

def MessageWorld.prefixChannel (w : MessageWorld) (nick : CStr) : Option ChanId :=
  w.hashFindChannel (MessageState.stripPrefix .none nick).2.tail

/-- A target that is nobody's name under either reading, with prefix characters or without. -/
def MessageWorld.namesNothing (w : MessageWorld) (sptr : ClientId) (nick : CStr) : Bool :=
  (w.client sptr).isPerson && (w.findPerson nick).isNone && nick.head? != some '$' &&
    (if '@' ∈ nick then w.findServer (nick.dropWhile (· != '@')).tail else none).isNone &&
    (MessageState.stripPrefix .none nick).2 == nick && (w.hashFindChannel nick.tail).isNone

def MessageWorld.readsAlike (w : MessageWorld) (sptr : ClientId) (seen : Bool) (nick : CStr) :
    Bool :=
  !seen || w.settled sptr nick || prefixed nick || w.namesNothing sptr nick

theorem scan_of_prefixed {nick : CStr} (h : prefixed nick = true) (type : MessageType) :
    type.scan nick = MessageType.none.scan nick ∧ type.scan nick ≠ .none := by
  simp only [prefixed, Bool.or_eq_true, beq_iff_eq] at h
  cases h with
  | inl at_ => simp [MessageType.scan, at_]
  | inr plus => simp [MessageType.scan, plus]

theorem scan_of_not_prefixed {nick : CStr} (h : prefixed nick = false) (type : MessageType) :
    type.scan nick = type := by
  simp only [prefixed, Bool.or_eq_false_iff, beq_eq_false_iff_ne] at h
  simp [MessageType.scan, h.1, h.2]

namespace MessageState

theorem stripPrefix_nick (type : MessageType) (nick : CStr) :
    (stripPrefix type nick).2 = (stripPrefix .none nick).2 := by
  unfold stripPrefix
  split
  · split <;> rfl
  · rfl

theorem stripPrefix_type {type : MessageType} (typed : type ≠ .none) (nick : CStr) :
    (stripPrefix type nick).1 ≠ .none := by
  unfold stripPrefix
  split
  · split
    · exact MessageType.noConfusion
    · exact typed
  · exact typed

def ends (s : MessageState) (call : MessageCall) (nick : CStr) : Bool :=
  let w := s.world
  if w.settled call.sptr nick then false
  else if prefixed nick then
    !(w.client call.sptr).isPerson || (w.prefixChannel nick).any (w.mayPrefix call.sptr)
  else
    match w.findPerson nick with
    | some acptr => (s.fludGate call acptr).2 || (s.droneGate call.sptr acptr).2
    | none => nick.head? == some '$' && !(w.client call.sptr).isAnOper

def silent (s : MessageState) (call : MessageCall) (nick : CStr) : Bool :=
  let w := s.world
  if w.operSpecial call.sptr nick then false
  else
    match w.targetChannel call.sptr nick with
    | some chptr => call.notice && !w.canSend call.sptr chptr
    | none =>
      if prefixed nick then
        !(w.client call.sptr).isPerson ||
          call.notice && (w.prefixChannel nick).any (!w.mayPrefix call.sptr ·)
      else
        match w.findPerson nick with
        | some acptr => (s.fludGate call acptr).2 || (s.droneGate call.sptr acptr).2
        | none => false

/-- The verdict on a nick in the state `m` is that of the state before the command. -/
def sameVerdict (s m : MessageState) (call : MessageCall) (nick : CStr) : Bool :=
  (s.world.findPerson nick).all fun acptr =>
    (m.droneGate call.sptr acptr).2 == (s.droneGate call.sptr acptr).2

theorem sendToChannel_same {s s' : MessageState} (world : s.world = s'.world)
    (call : MessageCall) (nick : CStr) (chptr : ChanId) :
    SameAnswers s (s.sendToChannel call nick chptr) s' (s'.sendToChannel call nick chptr) := by
  have counted := SameAnswers.quiet (countFlud_answers s call chptr)
    (countFlud_answers s' call chptr)
  have left : (s.countFlud call chptr).world = s.world := (countFlud_kept 0 s call chptr).world
  have right : (s'.countFlud call chptr).world = s'.world := (countFlud_kept 0 s' call chptr).world
  refine counted.trans ?_
  simp only [sendToChannel, left, right, world]
  split
  · exact .emit _ _ _
  · split
    · exact .reply (by rw [left, right, world]) call _ _
    · exact .quiet rfl rfl

theorem sendToType_same {s s' : MessageState} (world : s.world = s'.world)
    (call : MessageCall) (type : MessageType) (nick : CStr) :
    SameAnswers s (s.sendToType call type nick).1 s' (s'.sendToType call type nick).1 := by
  simp only [sendToType, world]
  split
  · exact .reply world call _ _
  · split
    · exact .quiet rfl rfl
    · split
      · exact .reply world call _ _
      · next chptr _ =>
        have counted := SameAnswers.quiet (countFlud_answers s call chptr)
          (countFlud_answers s' call chptr)
        have left := (countFlud_kept 0 s call chptr).world
        have right := (countFlud_kept 0 s' call chptr).world
        simp only [left, right, world]
        split
        · refine counted.trans ?_
          split
          · exact .reply (by rw [left, right, world]) call _ _
          · exact .quiet rfl rfl
        · exact counted.trans (.emit _ _ _)

theorem passes_iff {s s' : MessageState} {c : MessageCall} {acptr : ClientId}
    (kept : Kept acptr s' s)
    (same : (s.droneGate c.sptr acptr).2 = (s'.droneGate c.sptr acptr).2) :
    (s.fludGate c acptr).2 = (s'.fludGate c acptr).2 ∧
      ((s'.fludGate c acptr).2 = false →
        ((s.fludGate c acptr).1.droneGate c.sptr acptr).2 =
          (s'.droneGate c.sptr acptr).2) := by
  have verdict : (s.fludGate c acptr).2 = (s'.fludGate c acptr).2 :=
    fludGate_verdict kept c
  refine ⟨verdict, fun passes => Eq.trans ?_ same⟩
  exact droneGate_verdict
    ⟨fludGate_world .., fludGate_sendQ (verdict.trans passes), by rw [fludGate_drone]⟩

theorem sendToPerson_eq (s : MessageState) (call : MessageCall) (nick : CStr) (acptr : ClientId) :
    s.sendToPerson call nick acptr =
      if (s.fludGate call acptr).2 then ((s.fludGate call acptr).1, .stop 0)
      else if ((s.fludGate call acptr).1.droneGate call.sptr acptr).2 then
        (((s.fludGate call acptr).1.droneGate call.sptr acptr).1, .stop 0)
      else
        (((s.fludGate call acptr).1.droneGate call.sptr acptr).1.deliver call nick acptr,
          .next .none) := by
  unfold sendToPerson
  cases fludGate s call acptr with
  | mk gated flud =>
    cases flud with
    | true => rfl
    | false =>
      dsimp only
      cases droneGate gated call.sptr acptr with
      | mk passed drone => cases drone <;> rfl

theorem gates_answers (s : MessageState) (call : MessageCall) (acptr : ClientId) :
    ((s.fludGate call acptr).1.droneGate call.sptr acptr).1.answers = s.answers :=
  (droneGate_quiet _ _ _).answers.trans (fludGate_answers s call acptr)

theorem gates_world (s : MessageState) (call : MessageCall) (acptr : ClientId) :
    ((s.fludGate call acptr).1.droneGate call.sptr acptr).1.world = s.world := by
  have passed := (droneGate_quiet (s.fludGate call acptr).1 call.sptr acptr).kept (acptr + 1)
    (Nat.succ_ne_self acptr)
  rw [passed.world, fludGate_world]

theorem sendToPerson_same {s s' : MessageState} {call : MessageCall} {acptr : ClientId}
    (kept : Kept acptr s' s)
    (same : (s.droneGate call.sptr acptr).2 = (s'.droneGate call.sptr acptr).2) (nick : CStr) :
    SameAnswers s (s.sendToPerson call nick acptr).1 s' (s'.sendToPerson call nick acptr).1 := by
  obtain ⟨flud, drone⟩ := passes_iff kept same
  obtain ⟨_, drone'⟩ := passes_iff (c := call) (Kept.refl acptr s') rfl
  rw [sendToPerson_eq, sendToPerson_eq, flud]
  cases blocked : (s'.fludGate call acptr).2 with
  | true => exact .quiet (fludGate_answers s call acptr) (fludGate_answers s' call acptr)
  | false =>
    rw [drone blocked, drone' blocked]
    have gated := SameAnswers.quiet (gates_answers s call acptr) (gates_answers s' call acptr)
    cases (s'.droneGate call.sptr acptr).2 with
    | true => exact gated
    | false =>
      refine gated.trans (deliver_same ?_ call nick acptr)
      rw [gates_world, gates_world, kept.world]

theorem sendToPerson_flow {s s' : MessageState} {call : MessageCall} {acptr : ClientId}
    (kept : Kept acptr s' s)
    (same : (s.droneGate call.sptr acptr).2 = (s'.droneGate call.sptr acptr).2) (nick : CStr) :
    (s.sendToPerson call nick acptr).2 =
      if (s'.fludGate call acptr).2 || (s'.droneGate call.sptr acptr).2 then .stop 0
      else .next .none := by
  obtain ⟨flud, drone⟩ := passes_iff kept same
  rw [sendToPerson_eq, flud]
  cases blocked : (s'.fludGate call acptr).2 with
  | true => rfl
  | false =>
    rw [drone blocked]
    cases (s'.droneGate call.sptr acptr).2 <;> rfl

theorem sendToPerson_blocked {s : MessageState} {call : MessageCall} {acptr : ClientId}
    (blocked : ((s.fludGate call acptr).2 || (s.droneGate call.sptr acptr).2) = true)
    (nick : CStr) : (s.sendToPerson call nick acptr).1.answers = s.answers := by
  obtain ⟨_, drone⟩ := passes_iff (c := call) (Kept.refl acptr s) rfl
  rw [sendToPerson_eq]
  cases flud : (s.fludGate call acptr).2 with
  | true => exact fludGate_answers s call acptr
  | false =>
    rw [flud, Bool.false_or] at blocked
    rw [drone flud, blocked]
    exact gates_answers s call acptr

structure Fresh (s s' : MessageState) (call : MessageCall) (nick : CStr) : Prop where
  world : s.world = s'.world
  kept : ∀ acptr, s'.world.findPerson nick = some acptr → Kept acptr s' s
  verdict : ∀ acptr, s'.world.findPerson nick = some acptr →
    (s.droneGate call.sptr acptr).2 = (s'.droneGate call.sptr acptr).2

theorem Fresh.refl (s : MessageState) (call : MessageCall) (nick : CStr) : Fresh s s call nick :=
  ⟨rfl, fun acptr _ => .refl acptr s, fun _ _ => rfl⟩

/-- A name of nothing is answered alike by the block `if(type)` and by the end of the loop. -/
theorem namesNothing_same {s s' : MessageState} {call : MessageCall} {type : MessageType}
    {nick : CStr} (world : s.world = s'.world) (nonempty : nick ≠ [])
    (nothing : s'.world.namesNothing call.sptr nick = true) :
    SameAnswers s (s.sendToType call type nick).1 s' (s'.sendToUserHost call nick) := by
  simp only [MessageWorld.namesNothing, Bool.and_eq_true, Option.isNone_iff_eq_none, beq_iff_eq]
    at nothing
  obtain ⟨⟨⟨⟨⟨person, _⟩, _⟩, server⟩, plain⟩, channel⟩ := nothing
  have nick_eq : (stripPrefix type nick).2 = nick := (stripPrefix_nick type nick).trans plain
  have left : (s.sendToType call type nick).1 = s.reply call .errNoSuchNick [nick] := by
    simp only [sendToType, nick_eq, world, person, channel, Bool.not_true, Bool.false_eq_true,
      if_false, if_neg nonempty]
  have right : s'.sendToUserHost call nick = s'.reply call .errNoSuchNick [nick] := by
    simp only [sendToUserHost, server]
  rw [left, right]
  exact .reply world call _ _

theorem oneTarget_same {s s' : MessageState} {call : MessageCall} {type : MessageType}
    {nick : CStr} (fresh : Fresh s s' call nick) (nonempty : nick ≠ [])
    (alike : s'.world.readsAlike call.sptr (type != .none) nick = true) :
    SameAnswers s (s.oneTarget call type nick).1 s' (s'.oneTarget call .none nick).1 := by
  have world := fresh.world
  unfold oneTarget
  rw [world]
  -- the tests in the order of the loop; each takes the target or hands it to the next
  cases special : s'.world.operSpecial call.sptr nick with
  | true => exact sendOperSpecial_same world call nick
  | false =>
    simp only [Bool.false_eq_true, if_false]
    cases channel : s'.world.targetChannel call.sptr nick with
    | some chptr => exact sendToChannel_same world call nick chptr
    | none =>
      simp only
      cases pre : prefixed nick with
      | true =>
        have scanned := scan_of_prefixed pre type
        rw [if_pos scanned.2, if_pos (scan_of_prefixed pre .none).2, scanned.1]
        exact sendToType_same world call _ nick
      | false =>
        rw [scan_of_not_prefixed pre, scan_of_not_prefixed pre,
          if_neg (not_not.2 (rfl : MessageType.none = .none))]
        by_cases typed : type = .none
        · rw [if_neg (not_not.2 typed)]
          cases found : s'.world.findPerson nick with
          | some acptr =>
            exact sendToPerson_same (fresh.kept acptr found) (fresh.verdict acptr found) nick
          | none =>
            simp only
            split
            · split
              · exact .reply world call _ _
              · exact sendOperSpecial_same world call nick
            · exact sendToUserHost_same world call nick
        -- the type is left over from an earlier target, so the name must mean nothing to either
        · have nothing : s'.world.namesNothing call.sptr nick = true := by
            simpa [MessageWorld.readsAlike, typed, pre, MessageWorld.settled, special, channel]
              using alike
          have lost : s'.world.findPerson nick = none ∧ nick.head? ≠ some '$' := by
            simp only [MessageWorld.namesNothing, Bool.and_eq_true, Option.isNone_iff_eq_none,
              bne_iff_ne] at nothing
            exact ⟨nothing.1.1.1.1.2, nothing.1.1.1.2⟩
          rw [if_pos typed, lost.1]
          simp only [if_neg lost.2]
          exact namesNothing_same world nonempty nothing

/-- Where a target is read alike, the loop goes on in the same state. -/
theorem oneTarget_alone {m : MessageState} {call : MessageCall} {type : MessageType} {nick : CStr}
    (nonempty : nick ≠ []) (alike : m.world.readsAlike call.sptr (type != .none) nick = true) :
    (m.oneTarget call type nick).1 = (m.oneTarget call .none nick).1 := by
  unfold oneTarget
  cases special : m.world.operSpecial call.sptr nick with
  | true => rfl
  | false =>
    simp only [Bool.false_eq_true, if_false]
    cases channel : m.world.targetChannel call.sptr nick with
    | some chptr => rfl
    | none =>
      cases pre : prefixed nick with
      | true => rw [(scan_of_prefixed pre type).1]
      | false =>
        rw [scan_of_not_prefixed pre, scan_of_not_prefixed pre]
        by_cases typed : type = .none
        · rw [typed]
        · have nothing : m.world.namesNothing call.sptr nick = true := by
            simpa [MessageWorld.readsAlike, typed, pre, MessageWorld.settled, special, channel]
              using alike
          simp only [MessageWorld.namesNothing, Bool.and_eq_true, Option.isNone_iff_eq_none,
            beq_iff_eq, bne_iff_ne] at nothing
          obtain ⟨⟨⟨⟨⟨person, nobody⟩, dollar⟩, server⟩, plain⟩, channel⟩ := nothing
          have shown : (stripPrefix type nick).2 = nick := (stripPrefix_nick type nick).trans plain
          have left : (m.sendToType call type nick).1 = m.reply call .errNoSuchNick [nick] := by
            simp only [sendToType, shown, person, channel, Bool.not_true, Bool.false_eq_true,
              if_false, if_neg nonempty]
          have right : m.sendToUserHost call nick = m.reply call .errNoSuchNick [nick] := by
            simp only [sendToUserHost, server]
          simp only [if_pos typed, left, nobody, dollar, right, ne_eq, not_true_eq_false, if_false]

def seenAfter (w : MessageWorld) (sptr : ClientId) (seen : Bool) (nick : CStr) : Bool :=
  seen || !w.settled sptr nick && prefixed nick

theorem sendToType_flow {s : MessageState} {c : MessageCall} {type : MessageType} {nick : CStr}
    (typed : type ≠ .none) (nonempty : (stripPrefix type nick).2 ≠ []) :
    (∃ code, (s.sendToType c type nick).2 = .stop code ∧
        (!(s.world.client c.sptr).isPerson ||
          (s.world.prefixChannel nick).any (s.world.mayPrefix c.sptr)) = true) ∨
      (∃ next, next ≠ .none ∧ (s.sendToType c type nick).2 = .next next ∧
        (!(s.world.client c.sptr).isPerson ||
          (s.world.prefixChannel nick).any (s.world.mayPrefix c.sptr)) = false) := by
  have stays := stripPrefix_type typed nick
  have channel : s.world.prefixChannel nick =
      s.world.hashFindChannel (stripPrefix type nick).2.tail := by
    rw [MessageWorld.prefixChannel, stripPrefix_nick type]
  rw [channel]
  simp only [sendToType, if_neg nonempty]
  cases person : (s.world.client c.sptr).isPerson with
  | false => exact .inl ⟨-1, rfl, rfl⟩
  | true =>
    simp only [Bool.not_true, Bool.false_eq_true, if_false, Bool.false_or]
    cases s.world.hashFindChannel (stripPrefix type nick).2.tail with
    | none => exact .inr ⟨_, stays, rfl, rfl⟩
    | some chptr =>
      have world : (s.countFlud c chptr).world = s.world := (countFlud_kept 0 s c chptr).world
      simp only [world, Option.any_some, MessageWorld.mayPrefix]
      cases (s.world.chan chptr).isChanOp c.sptr with
      | true => exact .inl ⟨0, rfl, rfl⟩
      | false =>
        cases (s.world.chan chptr).hasVoice c.sptr with
        | true => exact .inl ⟨0, rfl, rfl⟩
        | false => exact .inr ⟨_, stays, rfl, rfl⟩

theorem stripPrefix_nonempty {t : MessageType} {nick : CStr} (nonempty : nick ≠ []) :
    (stripPrefix t nick).2 ≠ [] := by
  unfold stripPrefix
  split
  · split
    · exact List.cons_ne_nil _ _
    · exact nonempty
  · exact nonempty

theorem ends_of_settled {s : MessageState} {call : MessageCall} {nick : CStr}
    (settled : s.world.settled call.sptr nick = true) : s.ends call nick = false := by
  simp only [ends, settled, if_true]

theorem ends_of_prefixed {s : MessageState} {call : MessageCall} {nick : CStr}
    (settled : s.world.settled call.sptr nick = false) (pre : prefixed nick = true) :
    s.ends call nick = (!(s.world.client call.sptr).isPerson ||
      (s.world.prefixChannel nick).any (s.world.mayPrefix call.sptr)) := by
  simp only [ends, settled, pre, Bool.false_eq_true, if_false, if_true]

theorem ends_of_plain {s : MessageState} {call : MessageCall} {nick : CStr}
    (settled : s.world.settled call.sptr nick = false) (pre : prefixed nick = false) :
    s.ends call nick =
      match s.world.findPerson nick with
      | some acptr => (s.fludGate call acptr).2 || (s.droneGate call.sptr acptr).2
      | none => nick.head? == some '$' && !(s.world.client call.sptr).isAnOper := by
  simp only [ends, settled, pre, Bool.false_eq_true, if_false]

/-- The targets that make the command return are those of `ends`; any other goes on, and
`type` is still unset unless a prefix has been seen. -/
theorem oneTarget_flow {s s' : MessageState} {call : MessageCall} {type : MessageType}
    {nick : CStr} (fresh : Fresh s s' call nick) (nonempty : nick ≠ [])
    (alike : s'.world.readsAlike call.sptr (type != .none) nick = true) :
    (∃ code, (s.oneTarget call type nick).2 = .stop code ∧ s'.ends call nick = true) ∨
      (∃ next, (s.oneTarget call type nick).2 = .next next ∧ s'.ends call nick = false ∧
        (next != .none) = seenAfter s'.world call.sptr (type != .none) nick) := by
  have world := fresh.world
  unfold oneTarget seenAfter
  rw [world]
  cases special : s'.world.operSpecial call.sptr nick with
  | true =>
    have settled : s'.world.settled call.sptr nick = true := by
      rw [MessageWorld.settled, special, Bool.true_or]
    exact .inr ⟨type, rfl, ends_of_settled settled, by rw [settled]; simp⟩
  | false =>
    simp only [Bool.false_eq_true, if_false]
    cases channel : s'.world.targetChannel call.sptr nick with
    | some chptr =>
      have settled : s'.world.settled call.sptr nick = true := by
        rw [MessageWorld.settled, special, channel, Option.isSome_some, Bool.or_true]
      exact .inr ⟨type, rfl, ends_of_settled settled, by rw [settled]; simp⟩
    | none =>
      have settled : s'.world.settled call.sptr nick = false := by
        rw [MessageWorld.settled, special, channel, Option.isSome_none, Bool.or_false]
      rw [settled]
      simp only [Bool.not_false, Bool.true_and]
      cases pre : prefixed nick with
      | true =>
        have typed := (scan_of_prefixed pre type).2
        rw [if_pos typed, ends_of_prefixed settled pre]
        have flow := sendToType_flow (s := s) (c := call) typed (stripPrefix_nonempty nonempty)
        rw [world] at flow
        rcases flow with ⟨code, stops, ending⟩ | ⟨next, stays, goes, passing⟩
        · exact .inl ⟨code, stops, ending⟩
        · exact .inr ⟨next, goes, passing, by simpa using stays⟩
      | false =>
        rw [scan_of_not_prefixed pre, ends_of_plain settled pre]
        simp only [Bool.or_false]
        -- a target without a prefix is typed only by what came before it
        by_cases typed : type = .none
        · rw [if_neg (not_not.2 typed), typed]
          cases found : s'.world.findPerson nick with
          | some acptr =>
            simp only
            rw [sendToPerson_flow (fresh.kept acptr found) (fresh.verdict acptr found) nick]
            cases (s'.fludGate call acptr).2 || (s'.droneGate call.sptr acptr).2 with
            | true => exact .inl ⟨0, rfl, rfl⟩
            | false => exact .inr ⟨.none, rfl, rfl, rfl⟩
          | none =>
            simp only
            by_cases dollar : nick.head? = some '$'
            · simp only [dollar, if_true, beq_self_eq_true, Bool.true_and]
              cases (s'.world.client call.sptr).isAnOper with
              | true => exact .inr ⟨.none, rfl, rfl, rfl⟩
              | false => exact .inl ⟨-1, rfl, rfl⟩
            · rw [if_neg dollar, beq_eq_false_iff_ne.2 dollar, Bool.false_and]
              exact .inr ⟨.none, rfl, rfl, rfl⟩
        · have nothing : s'.world.namesNothing call.sptr nick = true := by
            simpa [MessageWorld.readsAlike, typed, pre, settled] using alike
          simp only [MessageWorld.namesNothing, Bool.and_eq_true, Option.isNone_iff_eq_none,
            beq_iff_eq, bne_iff_ne] at nothing
          obtain ⟨⟨⟨⟨⟨person, nobody⟩, dollar⟩, _⟩, plain⟩, channel⟩ := nothing
          have shown : (stripPrefix type nick).2 = nick := (stripPrefix_nick type nick).trans plain
          have flow : (s.sendToType call type nick).2 = .next (stripPrefix type nick).1 := by
            simp only [sendToType, shown, world, person, channel, Bool.not_true,
              Bool.false_eq_true, if_false, if_neg nonempty]
          rw [if_pos typed, flow, nobody]
          have stays := stripPrefix_type typed nick
          refine .inr ⟨_, rfl, ?_, ?_⟩
          · simp only [beq_eq_false_iff_ne.2 dollar, Bool.false_and]
          · rw [bne_iff_ne.2 stays, bne_iff_ne.2 typed]

theorem sendToType_silent {s : MessageState} {call : MessageCall} {type : MessageType}
    {nick : CStr} (nonempty : nick ≠ [])
    (silent : (!(s.world.client call.sptr).isPerson ||
      call.notice && (s.world.prefixChannel nick).any (!s.world.mayPrefix call.sptr ·)) = true) :
    (s.sendToType call type nick).1.answers = s.answers := by
  have channel : s.world.prefixChannel nick =
      s.world.hashFindChannel (stripPrefix type nick).2.tail := by
    rw [MessageWorld.prefixChannel, stripPrefix_nick type]
  rw [channel] at silent
  simp only [sendToType, if_neg (stripPrefix_nonempty (t := type) nonempty)]
  cases person : (s.world.client call.sptr).isPerson with
  | false => rfl
  | true =>
    simp only [person, Bool.not_true, Bool.false_or, Bool.false_eq_true, if_false] at silent ⊢
    obtain ⟨notice, refused⟩ := (Bool.and_eq_true _ _).mp silent
    cases found : s.world.hashFindChannel (stripPrefix type nick).2.tail with
    | none => simp [found] at refused
    | some chptr =>
      have world : (s.countFlud call chptr).world = s.world := (countFlud_kept 0 s call chptr).world
      simp only [found, Option.any_some, MessageWorld.mayPrefix, Bool.not_or] at refused
      simp only [world, refused, if_true, notice, Bool.not_true, Bool.false_eq_true, if_false]
      exact countFlud_answers s call chptr

theorem oneTarget_silent {s : MessageState} {call : MessageCall} {nick : CStr}
    (silent : s.silent call nick = true) (nonempty : nick ≠ []) :
    (s.oneTarget call .none nick).1.answers = s.answers := by
  unfold MessageState.silent at silent
  unfold oneTarget
  cases special : s.world.operSpecial call.sptr nick with
  | true => simp [special] at silent
  | false =>
    simp only [special, Bool.false_eq_true, if_false] at silent ⊢
    cases channel : s.world.targetChannel call.sptr nick with
    | some chptr =>
      simp only [channel, Bool.and_eq_true, Bool.not_eq_true'] at silent
      obtain ⟨notice, refused⟩ := silent
      have world : (s.countFlud call chptr).world = s.world := (countFlud_kept 0 s call chptr).world
      simp only [sendToChannel, world, refused, notice, Bool.false_eq_true, if_false, Bool.not_true]
      exact countFlud_answers s call chptr
    | none =>
      simp only [channel] at silent ⊢
      cases pre : prefixed nick with
      | true =>
        simp only [pre, if_true] at silent
        have typed := (scan_of_prefixed pre .none).2
        rw [if_pos typed]
        exact sendToType_silent nonempty silent
      | false =>
        simp only [pre, Bool.false_eq_true, if_false] at silent
        rw [scan_of_not_prefixed pre, if_neg (not_not.2 rfl)]
        cases found : s.world.findPerson nick with
        | none => simp [found] at silent
        | some acptr =>
          simp only [found] at silent
          exact sendToPerson_blocked silent nick

theorem reply_kept (v : ClientId) (s : MessageState) (call : MessageCall) (num : MessageNumeric)
    (args : List CStr) : Kept v s (s.reply call num args) := .emit v s _

theorem sendOperSpecial_kept (v : ClientId) (s : MessageState) (call : MessageCall)
    (nick : CStr) : Kept v s (s.sendOperSpecial call nick) := by
  simp only [sendOperSpecial]
  split
  · exact .emit v s _
  · split
    · exact .emit v s _
    · split
      · exact .emit v s _
      · exact .emit v s _
      · exact .emit v s _
      · exact .emit v s _
      · exact .refl v s

theorem sendToChannel_kept (v : ClientId) (s : MessageState) (call : MessageCall) (nick : CStr)
    (chptr : ChanId) : Kept v s (s.sendToChannel call nick chptr) := by
  have counted := countFlud_kept v s call chptr
  simp only [sendToChannel]
  split
  · exact counted.trans (.emit v _ _)
  · split
    · exact counted.trans (reply_kept v _ call _ _)
    · exact counted

theorem sendToType_kept (v : ClientId) (s : MessageState) (call : MessageCall)
    (type : MessageType) (nick : CStr) : Kept v s (s.sendToType call type nick).1 := by
  simp only [sendToType]
  split
  · exact reply_kept v s call _ _
  · split
    · exact .refl v s
    · split
      · exact reply_kept v s call _ _
      · next chptr _ =>
        have counted := countFlud_kept v s call chptr
        split
        · split
          · exact counted.trans (reply_kept v _ call _ _)
          · exact counted
        · exact counted.trans (.emit v _ _)

theorem sendToUserHost_kept (v : ClientId) (s : MessageState) (call : MessageCall)
    (nick : CStr) : Kept v s (s.sendToUserHost call nick) := by
  simp only [sendToUserHost]
  split
  · exact reply_kept v s call _ _
  · split
    · exact reply_kept v s call _ _
    · split
      · exact .emit v s _
      · split
        · exact .emit v s _
        · split
          · exact .emit v s _
          · split
            · exact reply_kept v s call _ _
            · exact .refl v s
          · exact reply_kept v s call _ _

theorem deliver_kept (v : ClientId) (s : MessageState) (call : MessageCall) (nick : CStr)
    (acptr : ClientId) : Kept v s (s.deliver call nick acptr) := by
  simp only [deliver]
  split
  · split
    · exact (reply_kept v s call _ _).trans (.emit v _ _)
    · exact .emit v s _
  · exact .emit v s _

theorem sendToPerson_kept {v acptr : ClientId} (other : v ≠ acptr) (s : MessageState)
    (call : MessageCall) (nick : CStr) : Kept v s (s.sendToPerson call nick acptr).1 := by
  have flud := fludGate_kept other s call
  have gates := flud.trans ((droneGate_quiet _ call.sptr acptr).kept v other)
  rw [sendToPerson_eq]
  split
  · exact flud
  · split
    · exact gates
    · exact gates.trans (deliver_kept v _ call nick acptr)

theorem oneTarget_kept {s : MessageState} {nick : CStr} {v : ClientId}
    (other : s.world.findPerson nick ≠ some v) (call : MessageCall) (type : MessageType) :
    Kept v s (s.oneTarget call type nick).1 := by
  unfold oneTarget
  split
  · exact sendOperSpecial_kept v s call nick
  · split
    · exact sendToChannel_kept v s call nick _
    · dsimp only
      split
      · exact sendToType_kept v s call _ nick
      · split
        · next acptr found =>
          have apart : v ≠ acptr := fun same => other (same ▸ found)
          exact sendToPerson_kept apart s call nick
        · split
          · split
            · exact reply_kept v s call _ _
            · exact sendOperSpecial_kept v s call nick
          · exact sendToUserHost_kept v s call nick

end MessageState

end Ircd
