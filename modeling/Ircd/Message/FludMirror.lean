import Ircd.Channel.Edit
import Ircd.Lib.Machine
import Ircd.Message.Flud

/-! The blocks of `flud.c`: the records on the list of a target, the links on the list of a
fluder, and what is left of both when a client or a channel goes.

A block that has been freed keeps its number and what was last written to it, so a list
that still begins with it can be told from one that does not.
-/

set_option autoImplicit false

namespace Ircd

structure FludHeap where
  world : MessageWorld
  bot : Nat → Fludbot
  freedBot : Nat → Bool
  nextBot : Nat
  link : Nat → Fludee
  freedLink : Nat → Bool
  nextLink : Nat
  fludblock : Fludee → Int
  fluders : Fludee → List Nat
  fludees : ClientId → List Nat
  isFlud : Nat
  sent : List Sent

namespace FludHeap

def emit (h : FludHeap) (o : Sent) : FludHeap := { h with sent := h.sent ++ [o] }

def edit (h : FludHeap) (f : Tables → Tables) : FludHeap :=
  { h with world := { h.world with toTables := f h.world.toTables } }

def setFluders (h : FludHeap) (target : Fludee) (bots : List Nat) : FludHeap :=
  { h with fluders := Function.update h.fluders target bots }

def setFludees (h : FludHeap) (u : ClientId) (links : List Nat) : FludHeap :=
  { h with fludees := Function.update h.fludees u links }

def freeBot (h : FludHeap) (b : Nat) : FludHeap :=
  { h with freedBot := Function.update h.freedBot b true }

def freeLink (h : FludHeap) (l : Nat) : FludHeap :=
  { h with freedLink := Function.update h.freedLink l true }

def removeFluderReference (h : FludHeap) (target : Fludee) (fluder : ClientId) : FludHeap :=
  { h with
    fluders := Function.update h.fluders target
      ((h.fluders target).filter fun b => (h.bot b).fluder != fluder)
    freedBot := fun b =>
      h.freedBot b || decide (b ∈ h.fluders target) && (h.bot b).fluder == fluder }

def removeFludeeReference (h : FludHeap) (u : ClientId) (fludee : Fludee) : FludHeap :=
  { h with
    fludees := Function.update h.fludees u ((h.fludees u).filter fun l => h.link l != fludee)
    freedLink := fun l =>
      h.freedLink l || decide (l ∈ h.fludees u) && h.link l == fludee }

def blocking (h : FludHeap) (target : Fludee) : Bool :=
  h.fludblock target > h.world.now - h.world.fludBlock

def dropBot (h : FludHeap) (target : Fludee) (b : Nat) : FludHeap :=
  let h := h.removeFludeeReference (h.bot b).fluder target
  (h.setFluders target ((h.fluders target).erase b)).freeBot b

def collectGarbage (target : Fludee) : List Nat → FludHeap → FludHeap
  | [], h => h
  | b :: rest, h =>
    collectGarbage target rest
      (if (h.bot b).lastMsg < h.world.now - h.world.fludTime then h.dropBot target b else h)

/-- The pass over the list: `last_msg` and `count` of the fluder. -/
def recount (h : FludHeap) (fluder : ClientId) (target : Fludee) : FludHeap :=
  { h with bot := fun b =>
      if b ∈ h.fluders target ∧ (h.bot b).fluder = fluder then
        { h.bot b with count := (h.bot b).count + 1, lastMsg := h.world.now }
      else h.bot b }

/-- The messages of the last `FLUDTIME` seconds, an older fluder counting once. -/
def fludCount (h : FludHeap) (target : Fludee) : Int :=
  ((h.fluders target).map fun b =>
    if (h.bot b).firstMsg < h.world.now - h.world.fludTime then 1 else (h.bot b).count).sum

def newFluder (h : FludHeap) (fluder : ClientId) (target : Fludee) : FludHeap :=
  { h with
    bot := Function.update h.bot h.nextBot
      { fluder := fluder, count := 1, firstMsg := h.world.now, lastMsg := h.world.now }
    nextBot := h.nextBot + 1
    fluders := Function.update h.fluders target (h.nextBot :: h.fluders target)
    link := Function.update h.link h.nextLink target
    nextLink := h.nextLink + 1
    fludees := Function.update h.fludees fluder (h.nextLink :: h.fludees fluder) }

def isFluder (h : FludHeap) (fluder : ClientId) (target : Fludee) : Bool :=
  (h.fluders target).any fun b => (h.bot b).fluder == fluder

def recordFlud (h : FludHeap) (fluder : ClientId) (target : Fludee) (blocking : Bool) :
    FludHeap × Int :=
  let h := h.recount fluder target
  let count := h.fludCount target
  if h.isFluder fluder target then (h, count)
  else
    let h := h.newFluder fluder target
    (if blocking then h.emit (MessageState.announceFluder h.world.toTables target fluder) else h,
      count + 1)

def tripFlud (h : FludHeap) (target : Fludee) : FludHeap :=
  { h with
    isFlud := h.isFlud + 1
    sent := h.sent ++ MessageState.fludNotice h.world.toTables target ::
      (h.fluders target).map fun b =>
        MessageState.announceFluder h.world.toTables target (h.bot b).fluder }

def notLocal (h : FludHeap) : Fludee → Bool
  | .client u => !(h.world.client u).myConnect
  | .channel _ => false

def checkForFlud (h : FludHeap) (fluder : ClientId) (target : Fludee) : FludHeap × Bool :=
  if h.world.fludBlock = 0 then (h, false)
  else if h.notLocal target then
    (h.emit (.ops (lit "check_for_flud() called for non-local client")), false)
  else
    let blocking := h.blocking target
    let h := if blocking then h else collectGarbage target (h.fluders target) h
    let (h, count) := h.recordFlud fluder target blocking
    let trips := !blocking && decide (count > h.world.fludNum)
    let h := if trips then h.tripFlud target else h
    if blocking || trips then
      ({ h with fludblock := Function.update h.fludblock target h.world.now }, true)
    else (h, false)

def freeBots (target : Fludee) : List Nat → FludHeap → FludHeap
  | [], h => h
  | b :: rest, h =>
    freeBots target rest ((h.removeFludeeReference (h.bot b).fluder target).freeBot b)

/-- `free_fluders`, which leaves the head of the list as it is. -/
def freeFluders (h : FludHeap) (target : Fludee) : FludHeap :=
  if h.notLocal target then h else freeBots target (h.fluders target) h

def freeLinks (badguy : ClientId) : List Nat → FludHeap → FludHeap
  | [], h => h
  | l :: rest, h =>
    let unlinked :=
      if h.notLocal (h.link l) then
        h.emit (.ops (lit "free_fludees() encountered non-local client"))
      else h.removeFluderReference (h.link l) badguy
    freeLinks badguy rest (unlinked.freeLink l)

def freeFludees (h : FludHeap) (badguy : ClientId) : FludHeap :=
  freeLinks badguy (h.fludees badguy) h

/-- `remove_client_from_list`, with the part of `release_client_state` under `FLUD`. -/
def removeClientFromList (h : FludHeap) (u : ClientId) : FludHeap :=
  let h := if (h.world.client u).myConnect then h.freeFluders (.client u) else h
  (h.freeFludees u).edit (·.removeClientFromList u)

/-- `sub1_from_channel`: the last member of a channel takes its fluders along, and the
channel too unless it is juped. -/
def sub1FromChannel (h : FludHeap) (c : ChanId) : FludHeap :=
  let emptied := decide ((h.world.chan c).users - 1 ≤ 0)
  let h := if emptied then h.freeFluders (.channel c) else h
  h.edit (·.sub1FromChannel c)

def makeClient (h : FludHeap) (u : ClientId) (cl : Client) : FludHeap :=
  { ((h.setFluders (.client u) []).setFludees u []).edit (·.addClient u cl) with
    fludblock := Function.update h.fludblock (.client u) 0 }

def createChannel (h : FludHeap) (name : CStr) : FludHeap :=
  { (h.setFluders (.channel h.world.nextChan) []).edit (·.createChannel name) with
    fludblock := Function.update h.fludblock (.channel h.world.nextChan) 0 }

def Live (h : FludHeap) : Fludee → Prop
  | .client u => u ∈ h.world.clients
  | .channel c => c ∈ h.world.channel

/-- Each record on the list of a target belongs to a client that lists the target, each link
leads to a target that has a record for it, and neither is on a list once it is freed. -/
structure Mirrored (h : FludHeap) : Prop where
  fluders : ∀ target, h.Live target → ∀ b ∈ h.fluders target,
    h.freedBot b = false ∧ (h.bot b).fluder ∈ h.world.clients ∧
      ∃ l ∈ h.fludees (h.bot b).fluder, h.link l = target
  fludees : ∀ u ∈ h.world.clients, ∀ l ∈ h.fludees u,
    h.freedLink l = false ∧ h.Live (h.link l) ∧
      ∃ b ∈ h.fluders (h.link l), (h.bot b).fluder = u

def who (h : FludHeap) (target : Fludee) : List ClientId :=
  (h.fluders target).map fun b => (h.bot b).fluder

def targets (h : FludHeap) (u : ClientId) : List Fludee := (h.fludees u).map h.link

/-- What every step keeps: the mirror, one record for each pair, blocks of their own for
each list, and lists of clients and channels without repetition. -/
structure Wired (h : FludHeap) : Prop where
  clients : h.world.clients.Nodup
  channel : h.world.channel.Nodup
  allocated : ∀ c ∈ h.world.channel, c < h.world.nextChan
  whoNodup : ∀ target, h.Live target → (h.who target).Nodup
  targetsNodup : ∀ u ∈ h.world.clients, (h.targets u).Nodup
  bots : ∀ target, h.Live target → ∀ b ∈ h.fluders target, h.freedBot b = false ∧ b < h.nextBot
  links : ∀ u ∈ h.world.clients, ∀ l ∈ h.fludees u, h.freedLink l = false ∧ l < h.nextLink
  botOwner : ∀ target target', h.Live target → h.Live target' →
    ∀ b ∈ h.fluders target, b ∈ h.fluders target' → target' = target
  linkOwner : ∀ u ∈ h.world.clients, ∀ u' ∈ h.world.clients,
    ∀ l ∈ h.fludees u, l ∈ h.fludees u' → u' = u
  freshBot : ∀ b, h.nextBot ≤ b → h.freedBot b = false
  freshLink : ∀ l, h.nextLink ≤ l → h.freedLink l = false
  mirror : ∀ target, h.Live target → ∀ u ∈ h.who target,
    u ∈ h.world.clients ∧ target ∈ h.targets u
  back : ∀ u ∈ h.world.clients, ∀ target ∈ h.targets u, h.Live target ∧ u ∈ h.who target
  remote : ∀ target, h.Live target → h.notLocal target = true → h.fluders target = []

namespace Wired

variable {h h' : FludHeap}

theorem mirrored (wired : h.Wired) : h.Mirrored where
  fluders := fun target live b inside => by
    obtain ⟨client, listed⟩ := wired.mirror target live _ (List.mem_map_of_mem inside)
    obtain ⟨l, among, leads⟩ := List.mem_map.1 listed
    exact ⟨(wired.bots target live b inside).1, client, l, among, leads⟩
  fludees := fun u client l inside => by
    obtain ⟨live, listed⟩ := wired.back u client _ (List.mem_map_of_mem inside)
    obtain ⟨b, among, owner⟩ := List.mem_map.1 listed
    exact ⟨(wired.links u client l inside).1, live, b, among, owner⟩

theorem unpair (wired : h.Wired) {target : Fludee} {u : ClientId} (live : h.Live target)
    (client : u ∈ h.world.clients) (world : h'.world = h.world)
    (bot : h'.bot = h.bot) (nextBot : h'.nextBot = h.nextBot) (link : h'.link = h.link)
    (nextLink : h'.nextLink = h.nextLink)
    (fluders : h'.fluders = Function.update h.fluders target
      ((h.fluders target).filter fun b => (h.bot b).fluder != u))
    (fludees : h'.fludees = Function.update h.fludees u
      ((h.fludees u).filter fun l => h.link l != target))
    (freedBot : ∀ b, h'.freedBot b = true →
      h.freedBot b = true ∨ b ∈ h.fluders target ∧ (h.bot b).fluder = u)
    (freedLink : ∀ l, h'.freedLink l = true →
      h.freedLink l = true ∨ l ∈ h.fludees u ∧ h.link l = target) : h'.Wired := by
  have lives : ∀ t, h'.Live t ↔ h.Live t := by
    intro t
    cases t <;> simp only [Live, world]
  have fewerBots : ∀ t, (h'.fluders t).Sublist (h.fluders t) := by
    intro t
    rw [fluders]
    by_cases here : t = target
    · subst here
      rw [Function.update_self]
      exact List.filter_sublist
    · rw [Function.update_of_ne here]
  have fewerLinks : ∀ v, (h'.fludees v).Sublist (h.fludees v) := by
    intro v
    rw [fludees]
    by_cases here : v = u
    · subst here
      rw [Function.update_self]
      exact List.filter_sublist
    · rw [Function.update_of_ne here]
  -- the two lists lose the same pair
  have who : ∀ t v, v ∈ h'.who t ↔ v ∈ h.who t ∧ ¬ (t = target ∧ v = u) := by
    intro t v
    unfold FludHeap.who
    rw [fluders, bot]
    by_cases here : t = target
    · subst here
      simp only [Function.update_self, List.mem_map, List.mem_filter, bne_iff_ne, true_and]
      constructor
      · rintro ⟨b, ⟨inside, other⟩, rfl⟩
        exact ⟨⟨b, inside, rfl⟩, other⟩
      · rintro ⟨⟨b, inside, rfl⟩, other⟩
        exact ⟨b, ⟨inside, other⟩, rfl⟩
    · simp [here]
  have targets : ∀ v t, t ∈ h'.targets v ↔ t ∈ h.targets v ∧ ¬ (t = target ∧ v = u) := by
    intro v t
    unfold FludHeap.targets
    rw [fludees, link]
    by_cases here : v = u
    · subst here
      simp only [Function.update_self, List.mem_map, List.mem_filter, bne_iff_ne, and_true]
      constructor
      · rintro ⟨l, ⟨inside, other⟩, rfl⟩
        exact ⟨⟨l, inside, rfl⟩, other⟩
      · rintro ⟨⟨l, inside, rfl⟩, other⟩
        exact ⟨l, ⟨inside, other⟩, rfl⟩
    · simp [here]
  refine ⟨?_, ?_, ?_, fun t alive => ?_, fun v alive => ?_, fun t alive b inside => ?_,
    fun v alive l inside => ?_, fun t t' alive alive' b inside inside' => ?_,
    fun v alive v' alive' l inside inside' => ?_, fun b after => ?_, fun l after => ?_,
    fun t alive v inside => ?_, fun v alive t inside => ?_, fun t alive remote => ?_⟩
  · rw [world]
    exact wired.clients
  · rw [world]
    exact wired.channel
  · rw [world]
    exact wired.allocated
  · unfold FludHeap.who
    rw [bot]
    exact (wired.whoNodup t ((lives t).1 alive)).sublist ((fewerBots t).map _)
  · unfold FludHeap.targets
    rw [link]
    exact (wired.targetsNodup v (world ▸ alive)).sublist ((fewerLinks v).map _)
  · have old := wired.bots t ((lives t).1 alive) b ((fewerBots t).subset inside)
    refine ⟨?_, nextBot ▸ old.2⟩
    cases freed : h'.freedBot b with
    | false => rfl
    | true =>
      -- a block that is freed now was in the list that it has just left
      rcases freedBot b freed with before | ⟨among, owner⟩
      · rw [old.1] at before
        cases before
      · have same := wired.botOwner target t live ((lives t).1 alive) b among
          ((fewerBots t).subset inside)
        subst same
        rw [fluders, Function.update_self] at inside
        simp [owner] at inside
  · have old := wired.links v (world ▸ alive) l ((fewerLinks v).subset inside)
    refine ⟨?_, nextLink ▸ old.2⟩
    cases freed : h'.freedLink l with
    | false => rfl
    | true =>
      rcases freedLink l freed with before | ⟨among, leads⟩
      · rw [old.1] at before
        cases before
      · have same := wired.linkOwner u client v (world ▸ alive) l among
          ((fewerLinks v).subset inside)
        subst same
        rw [fludees, Function.update_self] at inside
        simp [leads] at inside
  · exact wired.botOwner t t' ((lives t).1 alive) ((lives t').1 alive') b
      ((fewerBots t).subset inside) ((fewerBots t').subset inside')
  · exact wired.linkOwner v (world ▸ alive) v' (world ▸ alive') l
      ((fewerLinks v).subset inside) ((fewerLinks v').subset inside')
  · rw [nextBot] at after
    have old := wired.freshBot b after
    cases freed : h'.freedBot b with
    | false => rfl
    | true =>
      rcases freedBot b freed with before | ⟨among, -⟩
      · rw [old] at before
        cases before
      · exact absurd (wired.bots target live b among).2 (Nat.not_lt.2 after)
  · rw [nextLink] at after
    have old := wired.freshLink l after
    cases freed : h'.freedLink l with
    | false => rfl
    | true =>
      rcases freedLink l freed with before | ⟨among, -⟩
      · rw [old] at before
        cases before
      · exact absurd (wired.links u client l among).2 (Nat.not_lt.2 after)
  · obtain ⟨old, other⟩ := (who t v).1 inside
    obtain ⟨still, listed⟩ := wired.mirror t ((lives t).1 alive) v old
    exact ⟨world ▸ still, (targets v t).2 ⟨listed, other⟩⟩
  · obtain ⟨old, other⟩ := (targets v t).1 inside
    obtain ⟨still, listed⟩ := wired.back v (world ▸ alive) t old
    exact ⟨(lives t).2 still, (who t v).2 ⟨listed, other⟩⟩
  · have none : h.fluders t = [] := by
      apply wired.remote t ((lives t).1 alive)
      cases t with
      | client v => simpa only [notLocal, world] using remote
      | channel c => cases remote
    have empty := fewerBots t
    rw [none] at empty
    exact List.sublist_nil.1 empty

theorem alike (wired : h.Wired) (world : h'.world = h.world)
    (owner : ∀ b, (h'.bot b).fluder = (h.bot b).fluder) (nextBot : h'.nextBot = h.nextBot)
    (link : h'.link = h.link) (nextLink : h'.nextLink = h.nextLink)
    (fluders : h'.fluders = h.fluders) (fludees : h'.fludees = h.fludees)
    (freedBot : h'.freedBot = h.freedBot) (freedLink : h'.freedLink = h.freedLink) : h'.Wired := by
  have lives : ∀ t, h'.Live t ↔ h.Live t := by
    intro t
    cases t <;> simp only [Live, world]
  have who : h'.who = h.who := by
    funext t
    simp only [FludHeap.who, fluders, owner]
  have targets : h'.targets = h.targets := by
    funext u
    simp only [FludHeap.targets, fludees, link]
  have notLocal : h'.notLocal = h.notLocal := by
    funext t
    cases t <;> simp only [FludHeap.notLocal, world]
  constructor
  · rw [world]; exact wired.clients
  · rw [world]; exact wired.channel
  · rw [world]; exact wired.allocated
  · simpa only [lives, who] using wired.whoNodup
  · simpa only [world, targets] using wired.targetsNodup
  · simpa only [lives, fluders, freedBot, nextBot] using wired.bots
  · simpa only [world, fludees, freedLink, nextLink] using wired.links
  · simpa only [lives, fluders] using wired.botOwner
  · simpa only [world, fludees] using wired.linkOwner
  · simpa only [nextBot, freedBot] using wired.freshBot
  · simpa only [nextLink, freedLink] using wired.freshLink
  · simpa only [lives, who, world, targets] using wired.mirror
  · simpa only [lives, who, world, targets] using wired.back
  · simpa only [lives, notLocal, fluders] using wired.remote

theorem erase_eq (wired : h.Wired) {target : Fludee} (live : h.Live target) {b : Nat}
    (inside : b ∈ h.fluders target) :
    (h.fluders target).erase b =
      (h.fluders target).filter fun b' => (h.bot b').fluder != (h.bot b).fluder := by
  have once := wired.whoNodup target live
  rw [(List.Nodup.of_map _ once).erase_eq_filter]
  apply List.filter_congr
  intro b' among
  have same : b' = b ↔ (h.bot b').fluder = (h.bot b).fluder :=
    ⟨fun same => same ▸ rfl, fun owner => List.inj_on_of_nodup_map once among inside owner⟩
  rw [Bool.eq_iff_iff, bne_iff_ne, bne_iff_ne]
  exact not_congr same

theorem dropBot (wired : h.Wired) {target : Fludee} (live : h.Live target) {b : Nat}
    (inside : b ∈ h.fluders target) : (h.dropBot target b).Wired := by
  have client := (wired.mirror target live _ (List.mem_map_of_mem inside)).1
  refine wired.unpair live client rfl rfl rfl rfl rfl ?_ rfl (fun b' freed => ?_)
    (fun l freed => ?_)
  · rw [← wired.erase_eq live inside]
    rfl
  · by_cases here : b' = b
    · subst here
      exact Or.inr ⟨inside, rfl⟩
    · have old : Function.update h.freedBot b true b' = true := freed
      rw [Function.update_of_ne here] at old
      exact Or.inl old
  · have either : (h.freedLink l || decide (l ∈ h.fludees (h.bot b).fluder) &&
      h.link l == target) = true := freed
    simpa using either

theorem collectGarbage {target : Fludee} {bots : List Nat} (wired : h.Wired)
    (live : h.Live target) (once : bots.Nodup) (inside : ∀ b ∈ bots, b ∈ h.fluders target) :
    (collectGarbage target bots h).Wired ∧
      (FludHeap.collectGarbage target bots h).world = h.world := by
  induction bots generalizing h with
  | nil => exact ⟨wired, rfl⟩
  | cons b rest ih =>
    obtain ⟨outside, once⟩ := List.nodup_cons.1 once
    unfold FludHeap.collectGarbage
    split
    · have dropped := wired.dropBot live (inside b List.mem_cons_self)
      have others : ∀ b' ∈ rest, b' ∈ (h.dropBot target b).fluders target := by
        intro b' among
        have other : b' ≠ b := by
          rintro rfl
          exact outside among
        show b' ∈ Function.update h.fluders target ((h.fluders target).erase b) target
        rw [Function.update_self]
        exact (List.mem_erase_of_ne other).2 (inside b' (List.mem_cons_of_mem _ among))
      have alive : (h.dropBot target b).Live target := by
        cases target <;> exact live
      exact ih dropped alive once others
    · exact ih wired live once fun b' among => inside b' (List.mem_cons_of_mem _ among)

theorem recount (wired : h.Wired) (fluder : ClientId) (target : Fludee) :
    (h.recount fluder target).Wired := by
  refine wired.alike rfl (fun b => ?_) rfl rfl rfl rfl rfl rfl rfl
  unfold FludHeap.recount
  dsimp only
  split <;> rfl

theorem isFluder_iff (h : FludHeap) (fluder : ClientId) (target : Fludee) :
    h.isFluder fluder target = true ↔ fluder ∈ h.who target := by
  unfold FludHeap.isFluder FludHeap.who
  simp [List.any_eq_true, List.mem_map]

theorem newFluder (wired : h.Wired) {fluder : ClientId} {target : Fludee}
    (client : fluder ∈ h.world.clients) (live : h.Live target) (here : h.notLocal target = false)
    (outside : fluder ∉ h.who target) : (h.newFluder fluder target).Wired := by
  have unlisted : target ∉ h.targets fluder := fun listed =>
    outside (wired.back fluder client target listed).2
  -- the new blocks are in no list yet
  have oldBot : ∀ t, h.Live t → ∀ b ∈ h.fluders t, b ≠ h.nextBot := by
    rintro t alive b inside rfl
    exact Nat.lt_irrefl _ (wired.bots t alive _ inside).2
  have oldLink : ∀ u ∈ h.world.clients, ∀ l ∈ h.fludees u, l ≠ h.nextLink := by
    rintro u alive l inside rfl
    exact Nat.lt_irrefl _ (wired.links u alive _ inside).2
  have fluders : ∀ t, (h.newFluder fluder target).fluders t =
      if t = target then h.nextBot :: h.fluders target else h.fluders t := by
    intro t
    by_cases same : t = target
    · subst same
      simp [FludHeap.newFluder]
    · simp [FludHeap.newFluder, same]
  have fludees : ∀ u, (h.newFluder fluder target).fludees u =
      if u = fluder then h.nextLink :: h.fludees fluder else h.fludees u := by
    intro u
    by_cases same : u = fluder
    · subst same
      simp [FludHeap.newFluder]
    · simp [FludHeap.newFluder, same]
  have kept : ∀ t, h.Live t →
      ((h.fluders t).map fun b => ((h.newFluder fluder target).bot b).fluder) = h.who t := by
    intro t alive
    apply List.map_congr_left
    intro b inside
    simp [FludHeap.newFluder, oldBot t alive b inside]
  have leads : ∀ u ∈ h.world.clients,
      (h.fludees u).map (h.newFluder fluder target).link = h.targets u := by
    intro u alive
    apply List.map_congr_left
    intro l inside
    simp [FludHeap.newFluder, oldLink u alive l inside]
  have who : ∀ t, h.Live t → (h.newFluder fluder target).who t =
      if t = target then fluder :: h.who target else h.who t := by
    intro t alive
    unfold FludHeap.who
    rw [fluders]
    split
    · rw [List.map_cons, kept target live]
      simp [FludHeap.newFluder, FludHeap.who]
    · exact kept t alive
  have targets : ∀ u ∈ h.world.clients, (h.newFluder fluder target).targets u =
      if u = fluder then target :: h.targets fluder else h.targets u := by
    intro u alive
    unfold FludHeap.targets
    rw [fludees]
    split
    · rw [List.map_cons, leads fluder client]
      simp [FludHeap.newFluder, FludHeap.targets]
    · exact leads u alive
  have lives : ∀ t, (h.newFluder fluder target).Live t ↔ h.Live t := by
    intro t
    cases t <;> exact Iff.rfl
  refine ⟨wired.clients, wired.channel, wired.allocated, fun t alive => ?_, fun u alive => ?_,
    fun t alive b inside => ?_, fun u alive l inside => ?_,
    fun t t' alive alive' b inside inside' => ?_, fun u alive u' alive' l inside inside' => ?_,
    fun b after => ?_, fun l after => ?_, fun t alive u inside => ?_, fun u alive t inside => ?_,
    fun t alive remote => ?_⟩
  · rw [lives] at alive
    rw [who t alive]
    split
    · exact List.nodup_cons.2 ⟨outside, wired.whoNodup target live⟩
    · exact wired.whoNodup t alive
  · have alive : u ∈ h.world.clients := alive
    rw [targets u alive]
    split
    · exact List.nodup_cons.2 ⟨unlisted, wired.targetsNodup fluder client⟩
    · exact wired.targetsNodup u alive
  · rw [lives] at alive
    rw [fluders] at inside
    have old : ∀ t, h.Live t → b ∈ h.fluders t → h.freedBot b = false ∧ b < h.nextBot + 1 :=
      fun t alive inside =>
        ⟨(wired.bots t alive b inside).1, Nat.lt_succ_of_lt (wired.bots t alive b inside).2⟩
    split at inside
    · rcases List.mem_cons.1 inside with rfl | among
      · exact ⟨wired.freshBot _ (Nat.le_refl _), Nat.lt_succ_self _⟩
      · exact old target live among
    · exact old t alive inside
  · have alive : u ∈ h.world.clients := alive
    rw [fludees] at inside
    have old : ∀ u ∈ h.world.clients, l ∈ h.fludees u →
        h.freedLink l = false ∧ l < h.nextLink + 1 := fun u alive inside =>
      ⟨(wired.links u alive l inside).1, Nat.lt_succ_of_lt (wired.links u alive l inside).2⟩
    split at inside
    · rcases List.mem_cons.1 inside with rfl | among
      · exact ⟨wired.freshLink _ (Nat.le_refl _), Nat.lt_succ_self _⟩
      · exact old fluder client among
    · exact old u alive inside
  -- the new block is in the one list that it was put into
  · rw [lives] at alive alive'
    rw [fluders] at inside inside'
    have fresh := fun t alive => (oldBot t alive _ · rfl)
    grind [wired.botOwner]
  · have alive : u ∈ h.world.clients := alive
    have alive' : u' ∈ h.world.clients := alive'
    rw [fludees] at inside inside'
    have fresh := fun u alive => (oldLink u alive _ · rfl)
    grind [wired.linkOwner]
  · exact wired.freshBot b (Nat.le_of_succ_le after)
  · exact wired.freshLink l (Nat.le_of_succ_le after)
  · rw [lives] at alive
    rw [who t alive] at inside
    split at inside
    · next same =>
      subst same
      rcases List.mem_cons.1 inside with rfl | among
      · refine ⟨client, ?_⟩
        rw [targets u client, if_pos rfl]
        exact List.mem_cons_self
      · obtain ⟨known, listed⟩ := wired.mirror t live u among
        refine ⟨known, ?_⟩
        rw [targets u known]
        split
        · next same =>
          subst same
          exact List.mem_cons_of_mem _ listed
        · exact listed
    · obtain ⟨known, listed⟩ := wired.mirror t alive u inside
      refine ⟨known, ?_⟩
      rw [targets u known]
      split
      · next same =>
        subst same
        exact List.mem_cons_of_mem _ listed
      · exact listed
  · have alive : u ∈ h.world.clients := alive
    rw [targets u alive] at inside
    have old : t ∈ h.targets u →
        (h.newFluder fluder target).Live t ∧ u ∈ (h.newFluder fluder target).who t := by
      intro listed
      obtain ⟨known, among⟩ := wired.back u alive t listed
      refine ⟨(lives t).2 known, ?_⟩
      rw [who t known]
      split
      · next same =>
        subst same
        exact List.mem_cons_of_mem _ among
      · exact among
    split at inside
    · next same =>
      subst same
      rcases List.mem_cons.1 inside with rfl | listed
      · refine ⟨(lives t).2 live, ?_⟩
        rw [who t live, if_pos rfl]
        exact List.mem_cons_self
      · exact old listed
    · exact old inside
  · rw [lives] at alive
    rw [fluders]
    have far : h.notLocal t = true := by
      cases t <;> exact remote
    split
    · next same =>
      subst same
      rw [here] at far
      cases far
    · exact wired.remote t alive far

theorem recordFlud (wired : h.Wired) {fluder : ClientId} {target : Fludee}
    (client : fluder ∈ h.world.clients) (live : h.Live target) (here : h.notLocal target = false)
    (blocking : Bool) : (h.recordFlud fluder target blocking).1.Wired := by
  have counted := wired.recount fluder target
  unfold FludHeap.recordFlud
  dsimp only
  split
  · exact counted
  · next missing =>
    have outside : fluder ∉ (h.recount fluder target).who target := fun inside =>
      missing ((isFluder_iff _ fluder target).2 inside)
    have alive : (h.recount fluder target).Live target := by
      cases target <;> exact live
    have near : (h.recount fluder target).notLocal target = false := by
      cases target <;> exact here
    have made := counted.newFluder client alive near outside
    dsimp only
    split
    · exact made.alike rfl (fun _ => rfl) rfl rfl rfl rfl rfl rfl rfl
    · exact made

theorem checkForFlud (wired : h.Wired) {fluder : ClientId} {target : Fludee}
    (client : fluder ∈ h.world.clients) (live : h.Live target) :
    (h.checkForFlud fluder target).1.Wired := by
  unfold FludHeap.checkForFlud
  split
  · exact wired
  cases near : h.notLocal target with
  | true => exact wired.alike rfl (fun _ => rfl) rfl rfl rfl rfl rfl rfl rfl
  | false =>
    rw [if_neg Bool.false_ne_true]
    dsimp only
    generalize swept : (if h.blocking target = true then h else _) = h₁
    have clean : h₁.Wired ∧ h₁.world = h.world := by
      subst swept
      split
      · exact ⟨wired, rfl⟩
      · exact wired.collectGarbage live (List.Nodup.of_map _ (wired.whoNodup target live))
          fun _ inside => inside
    obtain ⟨wired₁, world⟩ := clean
    have live₁ : h₁.Live target := by
      cases target <;> simpa only [Live, world] using live
    have near₁ : h₁.notLocal target = false := by
      rw [← near]
      cases target <;> simp only [notLocal, world]
    have recorded := wired₁.recordFlud (world ▸ client) live₁ near₁ (h.blocking target)
    generalize h₁.recordFlud fluder target (h.blocking target) = p at recorded
    generalize tripped : (if (!h.blocking target && _) = true then p.1.tripFlud target else p.1) = h₂
    have alarmed : h₂.Wired := by
      subst tripped
      split
      · exact recorded.alike rfl (fun _ => rfl) rfl rfl rfl rfl rfl rfl rfl
      · exact recorded
    split
    · exact alarmed.alike rfl (fun _ => rfl) rfl rfl rfl rfl rfl rfl rfl
    · exact alarmed

theorem freeBots_frame (target : Fludee) (bots : List Nat) (h : FludHeap) :
    (freeBots target bots h).world = h.world ∧ (freeBots target bots h).fluders = h.fluders ∧
      (freeBots target bots h).bot = h.bot ∧
      ∀ b, (freeBots target bots h).freedBot b = true ↔ h.freedBot b = true ∨ b ∈ bots := by
  induction bots generalizing h with
  | nil => exact ⟨rfl, rfl, rfl, fun b => by simp [freeBots]⟩
  | cons b rest ih =>
    obtain ⟨world, fluders, bot, freed⟩ :=
      ih ((h.removeFludeeReference (h.bot b).fluder target).freeBot b)
    refine ⟨world, fluders, bot, fun b' => ?_⟩
    rw [freeBots, freed, List.mem_cons]
    by_cases here : b' = b
    · subst here
      simp [freeBot]
    · simp [freeBot, removeFludeeReference, here]

theorem freeBots {target : Fludee} {bots : List Nat} (wired : (h.setFluders target bots).Wired)
    (live : h.Live target) :
    ((freeBots target bots h).setFluders target []).Wired := by
  induction bots generalizing h with
  | nil => exact wired
  | cons b rest ih =>
    have inside : b ∈ (h.setFluders target (b :: rest)).fluders target := by
      simp [FludHeap.setFluders]
    have alive : (h.setFluders target (b :: rest)).Live target := by
      cases target <;> exact live
    have dropped := wired.dropBot alive inside
    have next : (h.setFluders target (b :: rest)).dropBot target b =
        ((h.removeFludeeReference (h.bot b).fluder target).freeBot b).setFluders target rest := by
      simp [FludHeap.dropBot, FludHeap.setFluders, FludHeap.freeBot, removeFludeeReference]
      rfl
    rw [next] at dropped
    refine ih dropped ?_
    cases target <;> exact live

theorem freeLinks_frame (u : ClientId) (ls : List Nat) (h : FludHeap) :
    (freeLinks u ls h).world = h.world := by
  induction ls generalizing h with
  | nil => rfl
  | cons l rest ih =>
    rw [freeLinks, ih]
    split <;> rfl

theorem freeLinks {u : ClientId} {ls : List Nat} (wired : (h.setFludees u ls).Wired)
    (client : u ∈ h.world.clients) :
    ((freeLinks u ls h).setFludees u []).Wired := by
  induction ls generalizing h with
  | nil => exact wired
  | cons l rest ih =>
    have listed : h.link l ∈ (h.setFludees u (l :: rest)).targets u := by
      simp [FludHeap.targets, setFludees]
    obtain ⟨live, among⟩ := wired.back u client _ listed
    -- a target of another server keeps no bots, so this one cannot be among them
    have near : h.notLocal (h.link l) = false := by
      apply Bool.eq_false_of_not_eq_true
      intro far
      have remote : (h.setFludees u (l :: rest)).notLocal (h.link l) = true := by
        revert far
        cases h.link l <;> exact id
      have none : h.fluders (h.link l) = [] := wired.remote _ live remote
      have absurdity : u ∈ (h.fluders (h.link l)).map fun b => (h.bot b).fluder := among
      rw [none] at absurdity
      cases absurdity
    have once : (h.link l :: rest.map h.link).Nodup := by
      have nodup := wired.targetsNodup u client
      simpa [FludHeap.targets, setFludees] using nodup
    -- the list names a target once, so its removal leaves the rest of the list
    have kept : rest.filter (fun l' => h.link l' != h.link l) = rest := by
      apply List.filter_eq_self.2
      intro l' inside
      rw [bne_iff_ne]
      intro same
      exact (List.nodup_cons.1 once).1 (same ▸ List.mem_map_of_mem inside)
    rw [FludHeap.freeLinks, if_neg (by simp [near])]
    refine ih (h := (h.removeFluderReference (h.link l) u).freeLink l) ?_ client
    refine wired.unpair live client rfl rfl rfl rfl rfl rfl ?_
      (fun b freed => ?_) (fun l' freed => ?_)
    · simp [setFludees, removeFluderReference, FludHeap.freeLink, kept]
    · have either : (h.freedBot b || decide (b ∈ h.fluders (h.link l)) &&
        (h.bot b).fluder == u) = true := freed
      simpa [setFludees] using either
    · by_cases here : l' = l
      · subst here
        exact Or.inr ⟨by simp [setFludees], rfl⟩
      · have old : Function.update h.freedLink l true l' = true := freed
        rw [Function.update_of_ne here] at old
        exact Or.inl old

/-- Clients and channels come with empty lists and go once their lists are empty. -/
theorem relive (wired : h.Wired) (bot : h'.bot = h.bot) (nextBot : h'.nextBot = h.nextBot)
    (link : h'.link = h.link) (nextLink : h'.nextLink = h.nextLink)
    (freedBot : h'.freedBot = h.freedBot) (freedLink : h'.freedLink = h.freedLink)
    (clients : h'.world.clients.Nodup) (channel : h'.world.channel.Nodup)
    (allocated : ∀ c ∈ h'.world.channel, c < h'.world.nextChan)
    (fluders : ∀ t, h'.Live t → h.Live t ∧ h'.fluders t = h.fluders t ∧
      h'.notLocal t = h.notLocal t ∨ h'.fluders t = [])
    (fludees : ∀ u ∈ h'.world.clients, u ∈ h.world.clients ∧ h'.fludees u = h.fludees u ∨
      h'.fludees u = [])
    (goneTarget : ∀ t, h.Live t → h'.Live t ∧ h'.fluders t = h.fluders t ∨ h.fluders t = [])
    (goneClient : ∀ u ∈ h.world.clients,
      u ∈ h'.world.clients ∧ h'.fludees u = h.fludees u ∨ h.fludees u = []) : h'.Wired := by
  have who : ∀ t, h'.fluders t = h.fluders t → h'.who t = h.who t := by
    intro t same
    simp only [FludHeap.who, same, bot]
  have targets : ∀ u, h'.fludees u = h.fludees u → h'.targets u = h.targets u := by
    intro u same
    simp only [FludHeap.targets, same, link]
  -- whatever is on a list in the new state was there in the old one
  have oldBot : ∀ t, h'.Live t → ∀ b ∈ h'.fluders t, h.Live t ∧ h'.fluders t = h.fluders t := by
    intro t alive b inside
    rcases fluders t alive with old | none
    · exact ⟨old.1, old.2.1⟩
    · rw [none] at inside
      cases inside
  have oldLink : ∀ u ∈ h'.world.clients, ∀ l ∈ h'.fludees u,
      u ∈ h.world.clients ∧ h'.fludees u = h.fludees u := by
    intro u alive l inside
    rcases fludees u alive with old | none
    · exact old
    · rw [none] at inside
      cases inside
  refine ⟨clients, channel, allocated, fun t alive => ?_, fun u alive => ?_,
    fun t alive b inside => ?_, fun u alive l inside => ?_,
    fun t t' alive alive' b inside inside' => ?_, fun u alive u' alive' l inside inside' => ?_,
    ?_, ?_, fun t alive u inside => ?_, fun u alive t inside => ?_, fun t alive remote => ?_⟩
  · rcases fluders t alive with old | none
    · rw [who t old.2.1]
      exact wired.whoNodup t old.1
    · simp [FludHeap.who, none]
  · rcases fludees u alive with old | none
    · rw [targets u old.2]
      exact wired.targetsNodup u old.1
    · simp [FludHeap.targets, none]
  · obtain ⟨known, same⟩ := oldBot t alive b inside
    rw [freedBot, nextBot]
    exact wired.bots t known b (same ▸ inside)
  · obtain ⟨known, same⟩ := oldLink u alive l inside
    rw [freedLink, nextLink]
    exact wired.links u known l (same ▸ inside)
  · obtain ⟨known, same⟩ := oldBot t alive b inside
    obtain ⟨known', same'⟩ := oldBot t' alive' b inside'
    exact wired.botOwner t t' known known' b (same ▸ inside) (same' ▸ inside')
  · obtain ⟨known, same⟩ := oldLink u alive l inside
    obtain ⟨known', same'⟩ := oldLink u' alive' l inside'
    exact wired.linkOwner u known u' known' l (same ▸ inside) (same' ▸ inside')
  · rw [nextBot, freedBot]
    exact wired.freshBot
  · rw [nextLink, freedLink]
    exact wired.freshLink
  · obtain ⟨b, among, -⟩ := List.mem_map.1 inside
    obtain ⟨known, same⟩ := oldBot t alive b among
    rw [who t same] at inside
    obtain ⟨client, listed⟩ := wired.mirror t known u inside
    rcases goneClient u client with still | none
    · rw [targets u still.2]
      exact ⟨still.1, listed⟩
    · simp [FludHeap.targets, none] at listed
  · obtain ⟨l, among, -⟩ := List.mem_map.1 inside
    obtain ⟨known, same⟩ := oldLink u alive l among
    rw [targets u same] at inside
    obtain ⟨live, listed⟩ := wired.back u known t inside
    rcases goneTarget t live with still | none
    · rw [who t still.2]
      exact ⟨still.1, listed⟩
    · simp [FludHeap.who, none] at listed
  · rcases fluders t alive with old | none
    · rw [old.2.1]
      exact wired.remote t old.1 (old.2.2 ▸ remote)
    · exact none

end Wired

end FludHeap

theorem Tables.sub1FromChannel_lists (t : Tables) (c : ChanId) :
    (t.sub1FromChannel c).clients = t.clients ∧
      (∀ u, ((t.sub1FromChannel c).client u).myConnect = (t.client u).myConnect) ∧
      (t.sub1FromChannel c).nextChan = t.nextChan ∧
      (t.sub1FromChannel c).channel =
        if (t.chan c).users - 1 ≤ 0 ∧ (t.chan c).juped = false then t.channel.erase c
        else t.channel := by
  have invites := Alike.delInvites (t.setChan c { t.chan c with users := 0 }) c
    ((t.setChan c { t.chan c with users := 0 }).chan c).invites
  have same : (t.emptied c).channel = t.channel := congrArg Roster.list invites.roster
  rw [sub1FromChannel_eq, emptied_juped]
  by_cases empties : (t.chan c).users - 1 ≤ 0
  · rw [if_pos empties]
    cases juped : (t.chan c).juped with
    | true =>
      refine ⟨invites.directory.clients, invites.directory.myConnect, invites.nextChan, ?_⟩
      simpa using same
    | false =>
      refine ⟨invites.directory.clients, invites.directory.myConnect, invites.nextChan, ?_⟩
      have erased : ((t.emptied c).destroyChannel c).channel = (t.emptied c).channel.erase c := rfl
      simp only [Bool.false_eq_true, if_false, and_true]
      rw [erased, same, if_pos empties]
  · rw [if_neg empties]
    refine ⟨rfl, fun _ => rfl, rfl, ?_⟩
    simp [empties, setChan]

theorem Tables.removeClientFromList_lists (t : Tables) (u : ClientId) :
    (t.removeClientFromList u).clients = t.clients.erase u ∧
      (∀ v, ((t.removeClientFromList u).client v).myConnect = (t.client v).myConnect) ∧
      (t.removeClientFromList u).nextChan = t.nextChan ∧
      (t.removeClientFromList u).channel = t.channel := by
  unfold removeClientFromList
  dsimp only
  generalize noted : (if (t.client u).isPerson = true then (t.addHistory u none).offHistory u
    else t) = m
  have history : m.clients = t.clients ∧ m.client = t.client ∧ m.nextChan = t.nextChan ∧
      m.channel = t.channel := by
    subst noted
    split <;> exact ⟨rfl, rfl, rfl, rfl⟩
  obtain ⟨clients, client, nextChan, channel⟩ := history
  refine ⟨by rw [clients], fun v => ?_, nextChan, channel⟩
  by_cases here : v = u
  · subst here
    rw [Function.update_self, client]
    rfl
  · rw [Function.update_of_ne here, client]

namespace FludHeap

namespace Wired

variable {h h' : FludHeap}

theorem freeLinks_setFluders (u : ClientId) (target : Fludee) (ls : List Nat) (h : FludHeap)
    (other : ∀ l ∈ ls, h.link l ≠ target) :
    FludHeap.freeLinks u ls (h.setFluders target []) =
      (FludHeap.freeLinks u ls h).setFluders target [] := by
  induction ls generalizing h with
  | nil => rfl
  | cons l rest ih =>
    have apart := other l List.mem_cons_self
    have near : (h.setFluders target []).notLocal (h.link l) = h.notLocal (h.link l) := by
      cases h.link l <;> rfl
    have removed : (h.setFluders target []).removeFluderReference (h.link l) u =
        (h.removeFluderReference (h.link l) u).setFluders target [] := by
      simp [removeFluderReference, FludHeap.setFluders, Function.update_comm apart.symm,
        Function.update_of_ne apart]
    have value : (h.setFluders target []).link l = h.link l := rfl
    rw [FludHeap.freeLinks, FludHeap.freeLinks, value, near, removed]
    have later : ∀ l' ∈ rest, h.link l' ≠ target := fun l' inside =>
      other l' (List.mem_cons_of_mem _ inside)
    split
    · exact ih ((h.emit _).freeLink l) later
    · exact ih ((h.removeFluderReference (h.link l) u).freeLink l) later

/-- Once the fluders of a target are freed, the target counts as one without any. -/
theorem freeFluders (wired : h.Wired) {target : Fludee} (live : h.Live target) :
    ((h.freeFluders target).setFluders target []).Wired := by
  have start : (h.setFluders target (h.fluders target)) = h := by
    simp [FludHeap.setFluders]
  unfold FludHeap.freeFluders
  cases far : h.notLocal target with
  | true =>
    have none := wired.remote target live far
    rw [none] at start
    rw [if_pos rfl, start]
    exact wired
  | false => exact Wired.freeBots (start.symm ▸ wired) live

theorem removeClientFromList (wired : h.Wired) {u : ClientId} (client : u ∈ h.world.clients) :
    (h.removeClientFromList u).Wired := by
  have live : h.Live (.client u) := client
  unfold FludHeap.removeClientFromList
  dsimp only
  generalize freed : (if (h.world.client u).myConnect = true then h.freeFluders (.client u) else h)
    = h₁
  -- a remote client has no list of fluders to free
  have emptied : (h₁.setFluders (.client u) []).Wired ∧ h₁.world = h.world := by
    subst freed
    split
    · refine ⟨wired.freeFluders live, ?_⟩
      unfold FludHeap.freeFluders
      split
      · rfl
      · exact (freeBots_frame ..).1
    · next remote =>
      have none := wired.remote (.client u) live (by simpa [notLocal] using remote)
      have same : h.setFluders (.client u) [] = h := by
        simp [FludHeap.setFluders, ← none]
      exact ⟨same.symm ▸ wired, rfl⟩
  obtain ⟨wired₁, world₁⟩ := emptied
  have client₁ : u ∈ (h₁.setFluders (.client u) []).world.clients := by
    show u ∈ h₁.world.clients
    rwa [world₁]
  -- its own list is empty by now, so none of its links leads back to it
  have apart : ∀ l ∈ h₁.fludees u, h₁.link l ≠ .client u := by
    intro l inside same
    have listed : h₁.link l ∈ (h₁.setFluders (.client u) []).targets u :=
      List.mem_map_of_mem (f := h₁.link) inside
    have back := (wired₁.back u client₁ _ listed).2
    rw [same] at back
    simp [FludHeap.who, FludHeap.setFluders] at back
  have whole : (h₁.setFluders (.client u) []).setFludees u (h₁.fludees u) =
      h₁.setFluders (.client u) [] := by
    simp [setFludees, FludHeap.setFluders]
  have unlinked := Wired.freeLinks (whole.symm ▸ wired₁) client₁
  rw [freeLinks_setFluders u (.client u) _ h₁ apart] at unlinked
  unfold FludHeap.freeFludees
  have world := freeLinks_frame u (h₁.fludees u) h₁
  rw [world₁] at world
  generalize FludHeap.freeLinks u (h₁.fludees u) h₁ = h₂ at unlinked world
  obtain ⟨clients, myConnect, nextChan, channel⟩ :=
    Tables.removeClientFromList_lists h₂.world.toTables u
  have erased : ∀ v, v ∈ h₂.world.clients.erase u ↔ v ≠ u ∧ v ∈ h₂.world.clients := fun v =>
    unlinked.clients.mem_erase_iff
  have notLocal : ∀ t, (h₂.edit (·.removeClientFromList u)).notLocal t = h₂.notLocal t := by
    intro t
    cases t with
    | client v =>
      show (!((h₂.world.toTables.removeClientFromList u).client v).myConnect) = _
      rw [myConnect]
      rfl
    | channel c => rfl
  have lives : ∀ t, (h₂.edit (·.removeClientFromList u)).Live t ↔ t ≠ .client u ∧ h₂.Live t := by
    intro t
    cases t with
    | client v =>
      show v ∈ (h₂.world.toTables.removeClientFromList u).clients ↔ _
      rw [clients, erased]
      simp [Live]
    | channel c =>
      show c ∈ (h₂.world.toTables.removeClientFromList u).channel ↔ _
      rw [channel]
      simp [Live]
  -- what is alive afterwards was alive before, and its lists are as they were
  refine unlinked.relive rfl rfl rfl rfl rfl rfl ?_ ?_ ?_
    (fun t alive => ?_) (fun v alive => ?_) (fun t alive => ?_) (fun v alive => ?_)
  · show (h₂.world.toTables.removeClientFromList u).clients.Nodup
    rw [clients]
    exact unlinked.clients.erase u
  · show (h₂.world.toTables.removeClientFromList u).channel.Nodup
    rw [channel]
    exact unlinked.channel
  · show ∀ c ∈ (h₂.world.toTables.removeClientFromList u).channel,
      c < (h₂.world.toTables.removeClientFromList u).nextChan
    rw [channel, nextChan]
    exact unlinked.allocated
  · obtain ⟨other, alive⟩ := (lives t).1 alive
    refine Or.inl ⟨?_, ?_, ?_⟩
    · cases t <;> exact alive
    · simp [FludHeap.setFluders, setFludees, FludHeap.edit, other]
    · rw [notLocal]
      cases t <;> rfl
  · have among : v ∈ (h₂.world.toTables.removeClientFromList u).clients := alive
    rw [clients, erased] at among
    exact Or.inl ⟨among.2, by simp [FludHeap.setFluders, setFludees, FludHeap.edit, among.1]⟩
  · by_cases other : t = .client u
    · subst other
      exact Or.inr (by simp [FludHeap.setFluders, setFludees])
    · refine Or.inl ⟨(lives t).2 ⟨other, ?_⟩, ?_⟩
      · cases t <;> exact alive
      · simp [FludHeap.setFluders, setFludees, FludHeap.edit, other]
  · by_cases other : v = u
    · subst other
      exact Or.inr (by simp [FludHeap.setFluders, setFludees])
    · refine Or.inl ⟨?_, by simp [FludHeap.setFluders, setFludees, FludHeap.edit, other]⟩
      show v ∈ (h₂.world.toTables.removeClientFromList u).clients
      rw [clients, erased]
      exact ⟨other, alive⟩

theorem sub1FromChannel (wired : h.Wired) {c : ChanId} (live : c ∈ h.world.channel)
    (safe : ¬ ((h.world.chan c).users - 1 ≤ 0 ∧ (h.world.chan c).juped = true ∧
      h.fluders (.channel c) ≠ [])) : (h.sub1FromChannel c).Wired := by
  unfold FludHeap.sub1FromChannel
  dsimp only
  generalize freed : (if decide ((h.world.chan c).users - 1 ≤ 0) = true
    then h.freeFluders (.channel c) else h) = h₁
  have frame : h₁.world = h.world ∧ h₁.fluders = h.fluders := by
    subst freed
    split
    · exact ⟨(freeBots_frame ..).1, (freeBots_frame ..).2.1⟩
    · exact ⟨rfl, rfl⟩
  obtain ⟨clients, myConnect, nextChan, channel⟩ :=
    Tables.sub1FromChannel_lists h₁.world.toTables c
  have notLocal : ∀ t, (h₁.edit (·.sub1FromChannel c)).notLocal t = h₁.notLocal t := by
    intro t
    cases t with
    | client v =>
      show (!((h₁.world.toTables.sub1FromChannel c).client v).myConnect) = _
      rw [myConnect]
      rfl
    | channel c => rfl
  by_cases empties : (h.world.chan c).users - 1 ≤ 0
  · have emptied : (h₁.setFluders (.channel c) []).Wired := by
      rw [if_pos (decide_eq_true empties)] at freed
      subst freed
      exact wired.freeFluders live
    have lives : ∀ t, t ≠ .channel c →
        ((h₁.edit (·.sub1FromChannel c)).Live t ↔ h₁.Live t) := by
      intro t other
      cases t with
      | client v =>
        show v ∈ (h₁.world.toTables.sub1FromChannel c).clients ↔ _
        rw [clients]
        rfl
      | channel d =>
        have apart : d ≠ c := fun same => other (congrArg Fludee.channel same)
        show d ∈ (h₁.world.toTables.sub1FromChannel c).channel ↔ d ∈ h₁.world.channel
        rw [channel]
        split
        · exact List.mem_erase_of_ne apart
        · exact Iff.rfl
    -- the channel has gone or it has had no fluders
    have dead : (h₁.edit (·.sub1FromChannel c)).Live (.channel c) →
        h₁.fluders (.channel c) = [] := by
      intro alive
      have among : c ∈ (h₁.world.toTables.sub1FromChannel c).channel := alive
      rw [channel, frame.1] at among
      rw [frame.2]
      cases juped : (h.world.chan c).juped with
      | true => exact Classical.not_not.1 fun some => safe ⟨empties, juped, some⟩
      | false =>
        rw [if_pos ⟨empties, juped⟩] at among
        exact absurd among wired.channel.not_mem_erase
    refine emptied.relive rfl rfl rfl rfl rfl rfl ?_ ?_ ?_
      (fun t alive => ?_) (fun v alive => ?_) (fun t alive => ?_) (fun v alive => ?_)
    · show (h₁.world.toTables.sub1FromChannel c).clients.Nodup
      rw [clients]
      exact emptied.clients
    · show (h₁.world.toTables.sub1FromChannel c).channel.Nodup
      rw [channel]
      split
      · exact emptied.channel.erase c
      · exact emptied.channel
    · show ∀ d ∈ (h₁.world.toTables.sub1FromChannel c).channel,
        d < (h₁.world.toTables.sub1FromChannel c).nextChan
      rw [channel, nextChan]
      intro d among
      split at among
      · exact emptied.allocated d (List.mem_of_mem_erase among)
      · exact emptied.allocated d among
    · by_cases other : t = .channel c
      · subst other
        exact Or.inr (dead alive)
      · refine Or.inl ⟨?_, ?_, ?_⟩
        · have old := (lives t other).1 alive
          cases t <;> exact old
        · simp [FludHeap.setFluders, FludHeap.edit, other]
        · rw [notLocal]
          cases t <;> rfl
    · have among : v ∈ (h₁.world.toTables.sub1FromChannel c).clients := alive
      rw [clients] at among
      exact Or.inl ⟨among, rfl⟩
    · by_cases other : t = .channel c
      · subst other
        exact Or.inr (by simp [FludHeap.setFluders])
      · have old : h₁.Live t := by
          cases t <;> exact alive
        exact Or.inl ⟨(lives t other).2 old, by simp [FludHeap.setFluders, FludHeap.edit, other]⟩
    · refine Or.inl ⟨?_, rfl⟩
      show v ∈ (h₁.world.toTables.sub1FromChannel c).clients
      rw [clients]
      exact alive
  · rw [if_neg (by simpa using empties)] at freed
    subst freed
    rw [if_neg fun gone => empties gone.1] at channel
    have lives : ∀ t, (h.edit (·.sub1FromChannel c)).Live t ↔ h.Live t := by
      intro t
      cases t with
      | client v =>
        show v ∈ (h.world.toTables.sub1FromChannel c).clients ↔ _
        rw [clients]
        rfl
      | channel d =>
        show d ∈ (h.world.toTables.sub1FromChannel c).channel ↔ _
        rw [channel]
        rfl
    have same : ∀ v, v ∈ (h.edit (·.sub1FromChannel c)).world.clients ↔ v ∈ h.world.clients :=
      fun v => lives (.client v)
    refine wired.relive rfl rfl rfl rfl rfl rfl ?_ ?_ ?_
      (fun t alive => Or.inl ⟨(lives t).1 alive, rfl, notLocal t⟩)
      (fun v alive => Or.inl ⟨(same v).1 alive, rfl⟩)
      (fun t alive => Or.inl ⟨(lives t).2 alive, rfl⟩)
      (fun v alive => Or.inl ⟨(same v).2 alive, rfl⟩)
    · show (h.world.toTables.sub1FromChannel c).clients.Nodup
      rw [clients]
      exact wired.clients
    · show (h.world.toTables.sub1FromChannel c).channel.Nodup
      rw [channel]
      exact wired.channel
    · show ∀ d ∈ (h.world.toTables.sub1FromChannel c).channel,
        d < (h.world.toTables.sub1FromChannel c).nextChan
      rw [channel, nextChan]
      exact wired.allocated

theorem makeClient (wired : h.Wired) {u : ClientId} (unused : u ∉ h.world.clients)
    (cl : Client) : (h.makeClient u cl).Wired := by
  have lives : ∀ t, t ≠ .client u → ((h.makeClient u cl).Live t ↔ h.Live t) := by
    intro t other
    cases t with
    | client v =>
      have apart : v ≠ u := fun same => other (congrArg Fludee.client same)
      show v ∈ u :: h.world.clients ↔ v ∈ h.world.clients
      simp [apart]
    | channel c => exact Iff.rfl
  refine wired.relive rfl rfl rfl rfl rfl rfl ?_ wired.channel
    wired.allocated (fun t alive => ?_) (fun v alive => ?_) (fun t alive => ?_) (fun v alive => ?_)
  · exact List.nodup_cons.2 ⟨unused, wired.clients⟩
  · by_cases other : t = .client u
    · subst other
      exact Or.inr (by simp [FludHeap.makeClient, FludHeap.edit, FludHeap.setFluders, setFludees])
    · refine Or.inl ⟨(lives t other).1 alive, ?_, ?_⟩
      · simp [FludHeap.makeClient, FludHeap.edit, FludHeap.setFluders, setFludees, other]
      · cases t with
        | client v =>
          have apart : v ≠ u := fun same => other (congrArg Fludee.client same)
          simp [FludHeap.makeClient, FludHeap.edit, FludHeap.setFluders, setFludees, notLocal,
            Tables.addClient, apart]
        | channel c => rfl
  · rcases List.mem_cons.1 (show v ∈ u :: h.world.clients from alive) with rfl | old
    · exact Or.inr (by simp [FludHeap.makeClient, FludHeap.edit, FludHeap.setFluders, setFludees])
    · have apart : v ≠ u := by
        rintro rfl
        exact unused old
      refine Or.inl ⟨old, ?_⟩
      simp [FludHeap.makeClient, FludHeap.edit, FludHeap.setFluders, setFludees, apart]
  · have other : t ≠ .client u := by
      rintro rfl
      exact unused alive
    refine Or.inl ⟨(lives t other).2 alive, ?_⟩
    simp [FludHeap.makeClient, FludHeap.edit, FludHeap.setFluders, setFludees, other]
  · have apart : v ≠ u := by
      rintro rfl
      exact unused alive
    refine Or.inl ⟨List.mem_cons_of_mem _ alive, ?_⟩
    simp [FludHeap.makeClient, FludHeap.edit, FludHeap.setFluders, setFludees, apart]

theorem createChannel (wired : h.Wired) (name : CStr) : (h.createChannel name).Wired := by
  have unused : h.world.nextChan ∉ h.world.channel := fun inside =>
    Nat.lt_irrefl _ (wired.allocated _ inside)
  have lives : ∀ t, t ≠ .channel h.world.nextChan →
      ((h.createChannel name).Live t ↔ h.Live t) := by
    intro t other
    cases t with
    | client v => exact Iff.rfl
    | channel c =>
      have apart : c ≠ h.world.nextChan := fun same => other (congrArg Fludee.channel same)
      show c ∈ h.world.nextChan :: h.world.channel ↔ c ∈ h.world.channel
      simp [apart]
  refine wired.relive rfl rfl rfl rfl rfl rfl wired.clients ?_
    (fun c inside => ?_) (fun t alive => ?_) (fun v alive => Or.inl ⟨alive, rfl⟩)
    (fun t alive => ?_) (fun v alive => Or.inl ⟨alive, rfl⟩)
  · exact List.nodup_cons.2 ⟨unused, wired.channel⟩
  · show c < h.world.nextChan + 1
    rcases List.mem_cons.1 (show c ∈ h.world.nextChan :: h.world.channel from inside) with rfl | old
    · exact Nat.lt_succ_self _
    · exact Nat.lt_succ_of_lt (wired.allocated c old)
  · by_cases other : t = .channel h.world.nextChan
    · subst other
      exact Or.inr (by simp [FludHeap.createChannel, FludHeap.edit, FludHeap.setFluders])
    · refine Or.inl ⟨(lives t other).1 alive, ?_, ?_⟩
      · simp [FludHeap.createChannel, FludHeap.edit, FludHeap.setFluders, other]
      · cases t <;> rfl
  · have other : t ≠ .channel h.world.nextChan := by
      rintro rfl
      exact unused alive
    refine Or.inl ⟨(lives t other).2 alive, ?_⟩
    simp [FludHeap.createChannel, FludHeap.edit, FludHeap.setFluders, other]

end Wired

def startUp (w : MessageWorld) (name : CStr) (now : Int) : FludHeap where
  world := { w with toTables := (Server.startUp name now).toTables }
  bot := fun _ => { fluder := 0, count := 0, firstMsg := 0, lastMsg := 0 }
  freedBot := fun _ => false
  nextBot := 0
  link := fun _ => .client 0
  freedLink := fun _ => false
  nextLink := 0
  fludblock := fun _ => 0
  fluders := fun _ => []
  fludees := fun _ => []
  isFlud := 0
  sent := []

theorem wired_startUp (w : MessageWorld) (name : CStr) (now : Int) :
    (startUp w name now).Wired := by
  refine ⟨?_, List.nodup_nil, ?_, fun _ _ => List.nodup_nil, fun _ _ => List.nodup_nil, ?_, ?_, ?_,
    ?_, fun _ _ => rfl, fun _ _ => rfl, ?_, ?_, fun _ _ _ => rfl⟩
  · exact List.nodup_singleton 0
  all_goals intros; contradiction

end FludHeap

/-- Clients and channels come, message and go; `elsewhere` is whatever else the server does,
which moves the time, members and modes and no client or channel. -/
inductive FludEvent where
  | makeClient (u : ClientId) (cl : Client)
  | createChannel (name : CStr)
  | elsewhere (f : MessageWorld → MessageWorld)
  | checkForFlud (fluder : ClientId) (target : Fludee)
  | removeClientFromList (u : ClientId)
  | sub1FromChannel (c : ChanId)

structure MessageWorld.SameLive (w w' : MessageWorld) : Prop where
  clients : w'.clients = w.clients
  channel : w'.channel = w.channel
  nextChan : w'.nextChan = w.nextChan
  myConnect : ∀ u, (w'.client u).myConnect = (w.client u).myConnect

def FludEvent.Comes (h : FludHeap) : FludEvent → Prop
  | .makeClient u _ => u ∉ h.world.clients
  | .createChannel _ => True
  | .elsewhere f => h.world.SameLive (f h.world)
  | .checkForFlud fluder target => fluder ∈ h.world.clients ∧ h.Live target
  | .removeClientFromList u => u ∈ h.world.clients
  | .sub1FromChannel c => c ∈ h.world.channel

def FludEvent.Strands (h : FludHeap) : FludEvent → Prop
  | .sub1FromChannel c =>
    (h.world.chan c).users - 1 ≤ 0 ∧ (h.world.chan c).juped = true ∧ h.fluders (.channel c) ≠ []
  | _ => False

namespace FludHeap

def event (h : FludHeap) : FludEvent → FludHeap
  | .makeClient u cl => h.makeClient u cl
  | .createChannel name => h.createChannel name
  | .elsewhere f => { h with world := f h.world }
  | .checkForFlud fluder target => (h.checkForFlud fluder target).1
  | .removeClientFromList u => h.removeClientFromList u
  | .sub1FromChannel c => h.sub1FromChannel c

def fludMachine : Machine FludHeap FludEvent := { step := event }

theorem Wired.elsewhere {h : FludHeap} (wired : h.Wired) {w : MessageWorld}
    (same : h.world.SameLive w) : ({ h with world := w } : FludHeap).Wired := by
  have lives : ∀ t, ({ h with world := w } : FludHeap).Live t ↔ h.Live t := by
    intro t
    cases t <;> simp only [Live, same.clients, same.channel]
  have client : ∀ v, v ∈ w.clients ↔ v ∈ h.world.clients := fun v => lives (.client v)
  have near : ∀ t, ({ h with world := w } : FludHeap).notLocal t = h.notLocal t := by
    intro t
    cases t <;> simp only [notLocal, same.myConnect]
  refine wired.relive rfl rfl rfl rfl rfl rfl ?_ ?_ ?_
    (fun t alive => Or.inl ⟨(lives t).1 alive, rfl, near t⟩)
    (fun v alive => Or.inl ⟨(client v).1 alive, rfl⟩)
    (fun t alive => Or.inl ⟨(lives t).2 alive, rfl⟩)
    (fun v alive => Or.inl ⟨(client v).2 alive, rfl⟩)
  · show w.clients.Nodup
    rw [same.clients]
    exact wired.clients
  · show w.channel.Nodup
    rw [same.channel]
    exact wired.channel
  · show ∀ c ∈ w.channel, c < w.nextChan
    rw [same.channel, same.nextChan]
    exact wired.allocated

theorem wired_event {h : FludHeap} (wired : h.Wired) {e : FludEvent} (comes : e.Comes h)
    (safe : ¬ e.Strands h) : (h.event e).Wired := by
  cases e with
  | makeClient u cl => exact wired.makeClient comes cl
  | createChannel name => exact wired.createChannel name
  | elsewhere f => exact wired.elsewhere comes
  | checkForFlud fluder target => exact wired.checkForFlud comes.1 comes.2
  | removeClientFromList u => exact wired.removeClientFromList comes
  | sub1FromChannel c => exact wired.sub1FromChannel comes safe

theorem not_mirrored_of_strands {h : FludHeap} {e : FludEvent} (comes : e.Comes h)
    (strands : e.Strands h) : ¬ (h.event e).Mirrored := by
  cases e with
  | sub1FromChannel c =>
    obtain ⟨empties, juped, some⟩ := strands
    obtain ⟨b, inside⟩ := List.exists_mem_of_ne_nil _ some
    have freed : h.event (.sub1FromChannel c) =
        (freeBots (.channel c) (h.fluders (.channel c)) h).edit (·.sub1FromChannel c) := by
      show h.sub1FromChannel c = _
      unfold sub1FromChannel freeFluders
      dsimp only
      rw [if_pos (decide_eq_true empties)]
      rfl
    obtain ⟨world, fluders, -, bots⟩ := Wired.freeBots_frame (.channel c) (h.fluders (.channel c)) h
    intro mirrored
    rw [freed] at mirrored
    have live : ((freeBots (.channel c) (h.fluders (.channel c)) h).edit
        (·.sub1FromChannel c)).Live (.channel c) := by
      show c ∈ (Tables.sub1FromChannel _ c).channel
      rw [world, (Tables.sub1FromChannel_lists h.world.toTables c).2.2.2,
        if_neg fun gone => by simp [juped] at gone]
      exact comes
    have still := (mirrored.fluders (.channel c) live b (by
      show b ∈ (freeBots (.channel c) (h.fluders (.channel c)) h).fluders (.channel c)
      rw [fluders]
      exact inside)).1
    have gone := (bots b).2 (Or.inr inside)
    exact Bool.false_ne_true (still.symm.trans gone)
  | _ => exact strands.elim

/-- The lists mirror each other all along a run exactly if no juped channel empties while
it still has fluders. -/
theorem mirrored_iff_not_strands {w : MessageWorld} {name : CStr} {now : Int}
    {es : List FludEvent}
    (comes : fludMachine.Meets (fun h e => e.Comes h) (startUp w name now) es) :
    (∀ pre, pre <+: es → (fludMachine.run (startUp w name now) pre).Mirrored) ↔
      fludMachine.Meets (fun h e => ¬ e.Strands h) (startUp w name now) es := by
  have wired := wired_startUp w name now
  generalize startUp w name now = h at comes wired ⊢
  induction es generalizing h with
  | nil =>
    refine iff_of_true (fun pre inside => ?_) trivial
    rw [List.prefix_nil.1 inside]
    exact wired.mirrored
  | cons e es ih =>
    constructor
    · intro mirrored
      have safe : ¬ e.Strands h := fun strands =>
        not_mirrored_of_strands comes.1 strands (mirrored [e] ⟨es, rfl⟩)
      have next := wired_event wired comes.1 safe
      refine ⟨safe, (ih _ comes.2 next).1 fun pre inside => ?_⟩
      exact mirrored (e :: pre) (List.cons_prefix_cons.2 ⟨rfl, inside⟩)
    · rintro ⟨safe, later⟩ pre inside
      cases pre with
      | nil => exact wired.mirrored
      | cons e' pre =>
        obtain ⟨rfl, begins⟩ := List.cons_prefix_cons.1 inside
        exact (ih _ comes.2 (wired_event wired comes.1 safe)).2 later pre begins

def calmWorld : MessageWorld where
  toTables := (Server.startUp (lit "irc.net") 100000).toTables
  now := 100000
  fludBlock := 15
  fludNum := 4
  fludTime := 3
  droneTime := 0
  droneCount := 0
  getSendq := fun _ => 0
  away := fun _ => none
  queue := fun _ sendQ => sendQ

/-- A local client opens `#a`, an operator jupes it and the client, still on it, sends it a
CTCP. Then it leaves. -/
def strandedRun : List FludEvent :=
  [.makeClient 1 { Client.zero with name := lit "anna", localFlag := true, status := .client },
    .createChannel (lit "#a"),
    .elsewhere fun w => { w with
      toTables := w.toTables.setChan 0 { w.chan 0 with users := 1, juped := true } },
    .checkForFlud 1 (.channel 0)]

theorem strandedRun_comes : fludMachine.Meets (fun h e => e.Comes h)
    (startUp calmWorld (lit "irc.net") 100000) strandedRun := by
  refine ⟨?_, trivial, ⟨rfl, rfl, rfl, fun _ => rfl⟩, ⟨?_, ?_⟩, trivial⟩
  · show 1 ∉ ([0] : List Nat)
    decide
  · show 1 ∈ ([1, 0] : List Nat)
    decide
  · show 0 ∈ ([0] : List Nat)
    decide

theorem mirrored_strandedRun :
    (∀ pre, pre <+: strandedRun → (fludMachine.run
        (startUp calmWorld (lit "irc.net") 100000) pre).Mirrored) ↔
      fludMachine.Meets (fun h e => ¬ e.Strands h) (startUp calmWorld (lit "irc.net") 100000)
        strandedRun :=
  mirrored_iff_not_strands strandedRun_comes

def flooded : FludHeap := fludMachine.run (startUp calmWorld (lit "irc.net") 100000) strandedRun

theorem flooded_listed : 0 ∈ flooded.world.channel := by decide +kernel

/-- After the last member has left, the list of `#a` begins with a freed record. -/
theorem stranded_not_mirrored :
    fludMachine.Meets (fun h e => e.Comes h) (startUp calmWorld (lit "irc.net") 100000)
        (strandedRun ++ [.sub1FromChannel 0]) ∧
      ¬ (fludMachine.run (startUp calmWorld (lit "irc.net") 100000)
        (strandedRun ++ [.sub1FromChannel 0])).Mirrored := by
  have leaves : FludEvent.Comes flooded (.sub1FromChannel 0) := flooded_listed
  refine ⟨strandedRun_comes.append ⟨leaves, trivial⟩, ?_⟩
  rw [Machine.run_append]
  refine not_mirrored_of_strands (e := .sub1FromChannel 0) leaves ⟨?_, ?_, ?_⟩
  · decide +kernel
  · decide +kernel
  · decide +kernel

end FludHeap

end Ircd
