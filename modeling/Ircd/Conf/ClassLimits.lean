import Ircd.Conf.Attach

/-! What a client has from the classes of its entries: `get_client_class` and `get_sendq`
of `class.c`.

Both walk over `cptr->confs`. The first keeps the greatest class number that it has seen;
the second compares every class with the same lowest number, so the last class decides.
-/

set_option autoImplicit false

namespace Ircd

def badClientClass : Int := -3

def maxSendqLength : Int := 15000000

/-- The tables with `maxSendq` of the classes and `IsMe` of the clients. -/
structure ClassTables extends ConfTables where
  maxSendq : ClassId → Int
  isMe : ClientId → Bool

namespace ClassTables

variable {t : ClassTables} {cptr : ClientId}

def getClientClass (t : ClassTables) (acptr : ClientId) : Int :=
  if t.isMe acptr then badClientClass
  else (t.attached acptr).foldl (fun retc c =>
    match (t.conf c).cClass with
    | none => retc
    | some cl => if (t.cls cl).type > retc then (t.cls cl).type else retc) badClientClass

def getSendq (t : ClassTables) (cptr : ClientId) : Int :=
  if t.isMe cptr then maxSendqLength
  else (t.attached cptr).foldl (fun sendq c =>
    match (t.conf c).cClass with
    | none => sendq
    -- `retc` is compared here as in `get_client_class`, but never set
    | some cl => if (t.cls cl).type > badClientClass then t.maxSendq cl else sendq) maxSendqLength

def classesOf (t : ClassTables) (cptr : ClientId) : List ClassId :=
  (t.attached cptr).filterMap fun c => (t.conf c).cClass

/-- The limit is that of an attached class with the number of the client's class, or the
default where no entry has a class. -/
def SendqFollowsClass (t : ClassTables) (cptr : ClientId) : Prop :=
  if t.classesOf cptr = [] then t.getSendq cptr = maxSendqLength
  else ∃ k ∈ t.classesOf cptr,
    (t.cls k).type = t.getClientClass cptr ∧ t.maxSendq k = t.getSendq cptr

theorem foldl_classes {σ : Type*} (f : σ → ClassId → σ) (s : σ) :
    (t.attached cptr).foldl (fun s c =>
      match (t.conf c).cClass with
      | none => s
      | some cl => f s cl) s = (t.classesOf cptr).foldl f s := by
  unfold classesOf
  generalize t.attached cptr = confs
  induction confs generalizing s with
  | nil => rfl
  | cons c confs ih =>
    rw [List.foldl_cons, ih, List.filterMap_cons]
    cases (t.conf c).cClass <;> rfl

theorem foldl_type_spec (ks : List ClassId) (retc : Int) :
    let top := ks.foldl (fun retc k =>
      if (t.cls k).type > retc then (t.cls k).type else retc) retc
    retc ≤ top ∧ (∀ k ∈ ks, (t.cls k).type ≤ top) ∧
      (top = retc ∨ ∃ k ∈ ks, (t.cls k).type = top) := by
  induction ks generalizing retc with
  | nil => exact ⟨Int.le_refl _, fun k absurdity => (by cases absurdity), .inl rfl⟩
  | cons k ks ih =>
    have step : retc ≤ (if (t.cls k).type > retc then (t.cls k).type else retc) ∧
        (t.cls k).type ≤ (if (t.cls k).type > retc then (t.cls k).type else retc) := by
      split <;> omega
    obtain ⟨above, all, from_⟩ := ih (if (t.cls k).type > retc then (t.cls k).type else retc)
    rw [List.foldl_cons]
    refine ⟨Int.le_trans step.1 above, ?_, ?_⟩
    · intro j inside
      rcases List.mem_cons.1 inside with rfl | later
      · exact Int.le_trans step.2 above
      · exact all j later
    · rcases from_ with kept | ⟨j, later, equal⟩
      · rw [kept]
        split
        · exact .inr ⟨k, List.mem_cons_self, rfl⟩
        · exact .inl rfl
      · exact .inr ⟨j, List.mem_cons_of_mem k later, equal⟩

theorem foldl_sendq (ks : List ClassId) (sendq : Int) :
    ks.foldl (fun sendq k =>
      if (t.cls k).type > badClientClass then t.maxSendq k else sendq) sendq =
      (((ks.filter fun k => (t.cls k).type > badClientClass).getLast?).map t.maxSendq).getD
        sendq := by
  induction ks generalizing sendq with
  | nil => rfl
  | cons k ks ih =>
    rw [List.foldl_cons, ih]
    by_cases known : (t.cls k).type > badClientClass
    · rw [if_pos known, List.filter_cons_of_pos (by simpa using known), List.getLast?_cons]
      cases (ks.filter fun k => (t.cls k).type > badClientClass).getLast? <;> rfl
    · rw [if_neg known, List.filter_cons_of_neg (by simpa using known)]

/-- The limit of the last attached class, which the numbers of the others do not change. -/
def lastSendq (t : ClassTables) (cptr : ClientId) : Int :=
  ((((t.classesOf cptr).filter fun k => (t.cls k).type > badClientClass).getLast?).map
    t.maxSendq).getD maxSendqLength

theorem getSendq_eq (notMe : t.isMe cptr = false) : t.getSendq cptr = t.lastSendq cptr := by
  rw [getSendq, if_neg (by simp [notMe])]
  exact (foldl_classes _ _).trans (foldl_sendq _ _)

theorem getClientClass_spec (notMe : t.isMe cptr = false) :
    badClientClass ≤ t.getClientClass cptr ∧
      (∀ k ∈ t.classesOf cptr, (t.cls k).type ≤ t.getClientClass cptr) ∧
      (t.getClientClass cptr = badClientClass ∨
        ∃ k ∈ t.classesOf cptr, (t.cls k).type = t.getClientClass cptr) := by
  have walk : t.getClientClass cptr = (t.classesOf cptr).foldl (fun retc k =>
      if (t.cls k).type > retc then (t.cls k).type else retc) badClientClass := by
    rw [getClientClass, if_neg (by simp [notMe])]
    exact foldl_classes _ _
  rw [walk]
  exact foldl_type_spec _ _

def LastIsTop (t : ClassTables) (cptr : ClientId) : Prop :=
  t.classesOf cptr = [] ∨
  if t.isMe cptr then
    ∃ k ∈ t.classesOf cptr, (t.cls k).type = badClientClass ∧ t.maxSendq k = maxSendqLength
  else
    ∃ top ∈ t.classesOf cptr, badClientClass ≤ (t.cls top).type ∧
      (∀ k ∈ t.classesOf cptr, (t.cls k).type ≤ (t.cls top).type) ∧
      t.maxSendq top = t.lastSendq cptr

theorem sendqFollowsClass_iff (t : ClassTables) (cptr : ClientId) :
    t.SendqFollowsClass cptr ↔ t.LastIsTop cptr := by
  unfold SendqFollowsClass LastIsTop
  by_cases none : t.classesOf cptr = []
  · rw [if_pos none]
    refine iff_of_true ?_ (.inl none)
    unfold getSendq
    split
    · rfl
    · exact (foldl_classes _ _).trans (by rw [none]; rfl)
  rw [if_neg none, or_iff_right none]
  cases me : t.isMe cptr with
  | true =>
    rw [if_pos rfl, getClientClass, getSendq, if_pos me, if_pos me]
  | false =>
    rw [if_neg Bool.false_ne_true, getSendq_eq me]
    obtain ⟨above, all, from_⟩ := getClientClass_spec me
    constructor
    · rintro ⟨k, inside, number, limit⟩
      refine ⟨k, inside, number ▸ above, ?_, limit⟩
      intro j among
      rw [number]
      exact all j among
    · rintro ⟨top, inside, notBad, greatest, limit⟩
      refine ⟨top, inside, ?_, limit⟩
      apply Int.le_antisymm (all top inside)
      rcases from_ with lowest | ⟨k, among, number⟩
      · rw [lowest]
        exact notBad
      · rw [← number]
        exact greatest k among

def twoClasses : ClassTables where
  conf c :=
    { kind := .client, illegal := false, fLined := false, clients := 1, name := none
      host := none, user := lit "*", passwd := [], privs := fun _ => false, hold := none
      cClass := some c }
  cls k := { type := if k = 0 then 10 else 2, maxLinks := 100, links := 1 }
  configItemList := [0, 1]
  attached _ := [0, 1]
  grants _ := ⟨false, false, false⟩
  freedConfs := []
  freedClasses := []
  maxSendq k := if k = 0 then 9000000 else 100000
  isMe _ := false

theorem twoClasses_lower : twoClasses.getClientClass 1 = 10 ∧ twoClasses.getSendq 1 = 100000 ∧
    ¬ twoClasses.SendqFollowsClass 1 := by
  refine ⟨by decide, by decide, ?_⟩
  unfold SendqFollowsClass
  rw [if_neg (by decide)]
  decide

end ClassTables

end Ircd
