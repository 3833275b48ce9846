import Ircd.Conf.IpTable
import Ircd.Lib.Machine

/-! D-lines and their exceptions: `add_Dline`, `add_dline` and `match_Dline` of
`dline_conf.c`.

The list of a node begins with its D-line. The exceptions whose first address is in the node
follow it, and those of no node wait among the leftovers.
-/

set_option autoImplicit false

namespace Ircd

structure DlineTable where
  table : IpTable
  leftover : List ConfItem

def hangIn (conf : ConfItem) : List ConfItem → List ConfItem
  | [] => [conf]
  | d :: rest => d :: conf :: rest

def addLittleDline (s : DlineTable) (confPtr : ConfItem) : DlineTable :=
  let conf := { confPtr with eLined := true }
  match s.table.find conf.ip with
  | none => { s with leftover := conf :: s.leftover }
  | some _ => { s with table := s.table.change conf.ip (hangIn conf) }

def rescanDlines (t : IpTable) : List ConfItem → IpTable × List ConfItem
  | [] => (t, [])
  | s :: rest =>
    let (t, rest) := rescanDlines t rest
    match t.find s.ip with
    | some _ => ((addLittleDline { table := t, leftover := rest } s).table, rest)
    | none => (t, s :: rest)

def findException (leftover : List ConfItem) (ip : Nat) : Option ConfItem :=
  leftover.find? fun scan => scan.ip == ip &&& scan.ipMask

def trimDlines (cl : List ConfItem) : List ConfItem := cl.filter ConfItem.eLined

def addDline (s : DlineTable) (rand : Nat → Bool) (confPtr : ConfItem) : DlineTable :=
  let conf := if confPtr.ipMask = 0 then { confPtr with ipMask := 2 ^ 32 - 1 } else confPtr
  let broader := (s.table.find conf.ip).any fun node => node.ipMask ≤ conf.ipMask
  if broader then s
  else if (findException s.leftover conf.ip).isSome then s
  else
    let (t, clist) := (s.table.consult conf.ip conf.ipMask).gather rand conf.ip conf.ipMask
    let t := t.place conf.ip conf.ipMask (conf :: trimDlines clist)
    let (t, leftover) := rescanDlines t s.leftover
    { table := t, leftover }

def matchDline (s : DlineTable) (ip : Nat) : Option ConfItem :=
  if s.table.oracle (IpTable.bucket ip) &&& ip ≠ ip then none
  else
    match s.table.find ip with
    | none => none
    | some node =>
      match node.conf.find? fun scan => scan.eLined && scan.ip == ip &&& scan.ipMask with
      | some scan => some scan
      | none =>
        match node.conf with
        | [] => none
        | conf :: _ => if conf.ip &&& conf.ipMask = ip &&& conf.ipMask then some conf else none

/-- A D-line or, with `CONF_FLAGS_E_LINED`, an exception on what `is_address` produces, and the
outcomes of `rand()` while it is added. -/
structure DlineEntry where
  conf : ConfItem
  rand : Nat → Bool
  mask : ∃ bits, bits ≤ 32 ∧ conf.ipMask = cidrToBitmask bits

def dlineMachine : Machine DlineTable DlineEntry where
  step s e := if e.conf.eLined then addLittleDline s e.conf else addDline s e.rand e.conf

def DlineTable.empty : DlineTable := { table := IpTable.empty, leftover := [] }

def rescanned (leftover : List ConfItem) (n : IpNode ConfItem) : IpNode ConfItem :=
  { n with conf := leftover.foldr (fun x c => if n.covers x.ip then hangIn x c else c) n.conf }

theorem mem_hangIn {x a : ConfItem} {c : List ConfItem} : a ∈ hangIn x c ↔ a = x ∨ a ∈ c := by
  cases c with
  | nil => simp [hangIn]
  | cons d rest =>
    simp only [hangIn, List.mem_cons]
    exact or_left_comm

theorem mem_rescanned {leftover : List ConfItem} {n : IpNode ConfItem} {a : ConfItem} :
    a ∈ (rescanned leftover n).conf ↔ a ∈ n.conf ∨ a ∈ leftover ∧ n.covers a.ip := by
  induction leftover with
  | nil => simp [rescanned]
  | cons x rest ih =>
    simp only [rescanned, List.foldr_cons, List.mem_cons] at ih ⊢
    by_cases covered : n.covers x.ip
    · rw [if_pos covered, mem_hangIn, ih]
      constructor
      · rintro (same | old | placed)
        · exact Or.inr ⟨Or.inl same, same ▸ covered⟩
        · exact Or.inl old
        · exact Or.inr ⟨Or.inr placed.1, placed.2⟩
      · rintro (old | ⟨same | inside, covered'⟩)
        · exact Or.inr (Or.inl old)
        · exact Or.inl same
        · exact Or.inr (Or.inr ⟨inside, covered'⟩)
    · rw [if_neg covered, ih]
      constructor
      · rintro (old | placed)
        · exact Or.inl old
        · exact Or.inr ⟨Or.inr placed.1, placed.2⟩
      · rintro (old | ⟨same | inside, covered'⟩)
        · exact Or.inl old
        · exact absurd (same ▸ covered') covered
        · exact Or.inr ⟨inside, covered'⟩

theorem head_rescanned (leftover : List ConfItem) {n : IpNode ConfItem} {d : ConfItem}
    (head : n.conf.head? = some d) : (rescanned leftover n).conf.head? = some d := by
  induction leftover with
  | nil => exact head
  | cons x rest ih =>
    simp only [rescanned, List.foldr_cons] at ih ⊢
    split
    · revert ih
      generalize List.foldr _ n.conf rest = c
      intro ih
      cases c with
      | nil => cases ih
      | cons d' c => exact ih
    · exact ih

theorem rescanned_cons (x : ConfItem) (rest : List ConfItem) (n : IpNode ConfItem) :
    rescanned (x :: rest) n =
      IpSubtree.changeAt x.ip (hangIn x) (rescanned rest n) := by
  unfold IpSubtree.changeAt
  by_cases covered : n.covers x.ip
  · have covered' : (rescanned rest n).covers x.ip := covered
    rw [if_pos covered']
    simp [rescanned, covered]
  · have covered' : ¬ (rescanned rest n).covers x.ip := covered
    rw [if_neg covered']
    simp [rescanned, covered]

theorem addLittleDline_eLined (s : DlineTable) {x : ConfItem} (exempt : x.eLined = true) :
    addLittleDline s x = match s.table.find x.ip with
      | none => { s with leftover := x :: s.leftover }
      | some _ => { s with table := s.table.change x.ip (hangIn x) } := by
  obtain ⟨client, kill, eLined, ip, ipMask, host, user⟩ := x
  cases exempt
  rfl

theorem rescanDlines_spec {t : IpTable} (h : IpTable.Filed t) (leftover : List ConfItem)
    (fine : ∀ x ∈ leftover, x.eLined = true ∧ x.ip < 2 ^ 32) :
    IpTable.Filed (rescanDlines t leftover).1 ∧
    (∀ n', (rescanDlines t leftover).1.Holds n' ↔
      ∃ n, t.Holds n ∧ rescanned leftover n = n') ∧
    (rescanDlines t leftover).1.oracle = t.oracle ∧
    ∀ x, x ∈ (rescanDlines t leftover).2 ↔ x ∈ leftover ∧ t.find x.ip = none := by
  induction leftover with
  | nil =>
    refine ⟨h, fun n' => ?_, rfl, by simp [rescanDlines]⟩
    constructor
    · exact fun held => ⟨n', held, rfl⟩
    · rintro ⟨n, held, rfl⟩
      exact held
  | cons s rest ih =>
    obtain ⟨filed, holds, oracle, waits⟩ := ih fun x inside => fine x (List.mem_cons_of_mem _ inside)
    obtain ⟨exempt, small⟩ := fine s List.mem_cons_self
    -- the exceptions that were put in before this one move no node
    have sameFind : (rescanDlines t rest).1.find s.ip = none ↔ t.find s.ip = none := by
      rw [IpTable.find_eq_none_iff filed small, IpTable.find_eq_none_iff h small]
      constructor
      · intro uncovered n held
        exact uncovered (rescanned rest n) ((holds _).2 ⟨n, held, rfl⟩)
      · intro uncovered n' held'
        obtain ⟨n, before, rfl⟩ := (holds n').1 held'
        exact uncovered n before
    simp only [rescanDlines]
    -- an exception waits on where no node has its first address
    cases found : (rescanDlines t rest).1.find s.ip with
    | none =>
      have uncovered := (IpTable.find_eq_none_iff h small).1 (sameFind.1 found)
      refine ⟨filed, fun n' => ?_, oracle, fun x => ?_⟩
      · rw [holds]
        constructor
        · rintro ⟨n, held, rfl⟩
          have away : ¬ (rescanned rest n).covers s.ip := uncovered n held
          exact ⟨n, held, by rw [rescanned_cons, IpSubtree.changeAt, if_neg away]⟩
        · rintro ⟨n, held, rfl⟩
          have away : ¬ (rescanned rest n).covers s.ip := uncovered n held
          exact ⟨n, held, by rw [rescanned_cons, IpSubtree.changeAt, if_neg away]⟩
      · rw [List.mem_cons, waits]
        constructor
        · rintro (same | waiting)
          · exact ⟨List.mem_cons.2 (Or.inl same), same ▸ sameFind.1 found⟩
          · exact ⟨List.mem_cons_of_mem _ waiting.1, waiting.2⟩
        · rintro ⟨inside, absent⟩
          rcases List.mem_cons.1 inside with same | inside
          · exact Or.inl same
          · exact Or.inr ⟨inside, absent⟩
    | some node =>
      have present : t.find s.ip ≠ none := fun absent => by
        rw [sameFind.2 absent] at found
        cases found
      rw [addLittleDline_eLined _ exempt]
      simp only [found]
      refine ⟨IpTable.filed_change filed small _, fun n' => ?_, oracle, fun x => ?_⟩
      · rw [IpTable.holds_change filed small]
        constructor
        · rintro ⟨old, held, rfl⟩
          obtain ⟨n, before, rfl⟩ := (holds old).1 held
          exact ⟨n, before, rescanned_cons s rest n⟩
        · rintro ⟨n, held, rfl⟩
          exact ⟨rescanned rest n, (holds _).2 ⟨n, held, rfl⟩, (rescanned_cons s rest n).symm⟩
      · rw [waits]
        constructor
        · exact fun waiting => ⟨List.mem_cons_of_mem _ waiting.1, waiting.2⟩
        · rintro ⟨inside, absent⟩
          rcases List.mem_cons.1 inside with same | inside
          · exact absurd (same ▸ absent) present
          · exact ⟨inside, absent⟩

/-- `x`, an exception, and the node have an address in common. -/
def Meets (x : ConfItem) (n : IpNode ConfItem) : Prop := n.covers x.ip ∨ x.covers n.ip

structure DlineNode (es : List ConfItem) (n : IpNode ConfItem) : Prop where
  head : ∃ d ∈ es, n.conf.head? = some d ∧ d.eLined = false ∧ d.ip = n.ip ∧ d.ipMask = n.ipMask
  exceptions : ∀ x ∈ n.conf, x.eLined = true → x ∈ es ∧ n.covers x.ip

structure DlinesRight (s : DlineTable) (es : List ConfItem) : Prop where
  filed : IpTable.Filed s.table
  aligned : ∀ x ∈ es, x.eLined = true → Dyadic.Aligned 32 x.ip x.ipMask
  node : ∀ n, s.table.Holds n → DlineNode es n
  covered : ∀ d ∈ es, d.eLined = false → ∀ ip < 2 ^ 32, d.covers ip →
    ∃ n, s.table.Holds n ∧ n.covers ip
  leftover : ∀ x ∈ s.leftover, x ∈ es ∧ x.eLined = true
  placed : ∀ x ∈ es, x.eLined = true → x ∈ s.leftover ∨ ∃ n, s.table.Holds n ∧ x ∈ n.conf
  hung : ∀ x ∈ es, x.eLined = true → ∀ n, s.table.Holds n → Meets x n → x ∈ n.conf
  admits : ∀ n, s.table.Holds n → ∀ ip < 2 ^ 32, n.covers ip → s.table.Admits ip

def Broader (s : DlineTable) (conf : ConfItem) : Prop :=
  ∃ node, s.table.find conf.ip = some node ∧ node.ipMask ≤ conf.ipMask

/-- What a D-line needs to be added as it should be: its address is masked with at least
eight bits, no node gets lost, and it has no exception that waits or hangs elsewhere. -/
structure FitsDline (s : DlineTable) (e : DlineEntry) : Prop where
  long : 2 ^ 32 - 2 ^ 24 ≤ e.conf.ipMask
  masked : e.conf.ip &&& e.conf.ipMask = e.conf.ip
  whole : s.table.gatherDrops e.rand e.conf.ip e.conf.ipMask = false
  waiting : ∀ x ∈ s.leftover, ¬ x.covers e.conf.ip
  elsewhere : ∀ n, s.table.Holds n → ∀ x ∈ n.conf, x.eLined = true → x.covers e.conf.ip →
    IpTable.Within n e.conf.ip e.conf.ipMask

/-- The same for an exception: its address is masked and it is not wider than a D-line that
does not have its first address. -/
structure FitsException (s : DlineTable) (e : DlineEntry) : Prop where
  masked : e.conf.ip &&& e.conf.ipMask = e.conf.ip
  alone : ∀ n, s.table.Holds n → e.conf.covers n.ip → n.covers e.conf.ip

structure FitsDlines (s : DlineTable) (e : DlineEntry) : Prop where
  small : e.conf.ip < 2 ^ 32
  dline : e.conf.eLined = false → e.conf.ipMask ≠ 0 ∧ (Broader s e.conf ∨ FitsDline s e)
  exception : e.conf.eLined = true → FitsException s e

section
variable {s : DlineTable} {es : List ConfItem} {e : DlineEntry}

theorem DlineNode.rescanned {es' : List ConfItem} {n : IpNode ConfItem} (h : DlineNode es n)
    {leftover : List ConfItem} (more : ∀ a ∈ es, a ∈ es') (fine : ∀ a ∈ leftover, a ∈ es') :
    DlineNode es' (rescanned leftover n) := by
  obtain ⟨d, inside, head, exempt, ip, ipMask⟩ := h.head
  refine ⟨⟨d, more d inside, head_rescanned leftover head, exempt, ip, ipMask⟩, ?_⟩
  intro a listed exempt
  rcases mem_rescanned.1 listed with old | ⟨waited, covered⟩
  · obtain ⟨known, covered⟩ := h.exceptions a old exempt
    exact ⟨more a known, covered⟩
  · exact ⟨fine a waited, covered⟩

theorem DlineNode.mono {n : IpNode ConfItem} (h : DlineNode es n) (x : ConfItem) :
    DlineNode (x :: es) n :=
  @DlineNode.rescanned es (x :: es) n h [] (fun _ inside => List.mem_cons_of_mem _ inside)
    (fun _ inside => absurd inside List.not_mem_nil)

theorem dlinesRight_exception (h : DlinesRight s es) (exempt : e.conf.eLined = true)
    (fits : FitsException s e) : DlinesRight (addLittleDline s e.conf) (e.conf :: es) := by
  have range := IpTable.aligned_of_masked e.mask fits.masked
  have covers : ∀ n, s.table.Holds n → Meets e.conf n → n.covers e.conf.ip := by
    intro n held meets
    rcases meets with begins | wider
    · exact begins
    · exact fits.alone n held wider
  have aligned : ∀ x ∈ e.conf :: es, x.eLined = true → Dyadic.Aligned 32 x.ip x.ipMask := by
    intro x inside exempt
    rcases List.mem_cons.1 inside with new | old
    · exact new ▸ range
    · exact h.aligned x old exempt
  have dlines : ∀ d ∈ e.conf :: es, d.eLined = false → d ∈ es := by
    intro d inside plain
    rcases List.mem_cons.1 inside with new | old
    · rw [new, exempt] at plain
      cases plain
    · exact old
  rw [addLittleDline_eLined s exempt]
  cases found : s.table.find e.conf.ip with
  | none =>
    have uncovered := (IpTable.find_eq_none_iff h.filed range.base_lt).1 found
    refine ⟨h.filed, aligned, ?_, ?_, ?_, ?_, ?_, h.admits⟩
    · exact fun n held => (h.node n held).mono e.conf
    · exact fun d inside plain => h.covered d (dlines d inside plain) plain
    · intro x inside
      rcases List.mem_cons.1 inside with new | old
      · rw [new]
        exact ⟨List.mem_cons_self, exempt⟩
      · exact ⟨List.mem_cons_of_mem _ (h.leftover x old).1, (h.leftover x old).2⟩
    · intro x inside exempt
      rcases List.mem_cons.1 inside with new | old
      · exact Or.inl (List.mem_cons.2 (Or.inl new))
      · rcases h.placed x old exempt with waits | hangs
        · exact Or.inl (List.mem_cons_of_mem _ waits)
        · exact Or.inr hangs
    · intro x inside exempt n held meets
      rcases List.mem_cons.1 inside with new | old
      · exact absurd (covers n held (new ▸ meets)) (uncovered n held)
      · exact h.hung x old exempt n held meets
  | some node =>
    have placing := IpTable.holds_change h.filed range.base_lt (hangIn e.conf)
    -- each node of the new table is an old one after the exception has been placed
    have holds : ∀ n', (s.table.change e.conf.ip (hangIn e.conf)).Holds n' ↔
        ∃ n, s.table.Holds n ∧ rescanned [e.conf] n = n' := by
      intro n'
      rw [placing]
      constructor
      · rintro ⟨n, held, same⟩
        exact ⟨n, held, by rw [rescanned_cons]; exact same⟩
      · rintro ⟨n, held, same⟩
        exact ⟨n, held, by rw [rescanned_cons] at same; exact same⟩
    refine ⟨IpTable.filed_change h.filed range.base_lt _, aligned, ?_, ?_, ?_, ?_, ?_, ?_⟩
    · intro n' held'
      obtain ⟨n, held, rfl⟩ := (holds n').1 held'
      apply (h.node n held).rescanned (fun a inside => List.mem_cons_of_mem _ inside)
      intro a inside
      rw [List.mem_singleton.1 inside]
      exact List.mem_cons_self
    · intro d inside plain ip small covered
      obtain ⟨n, held, has⟩ := h.covered d (dlines d inside plain) plain ip small covered
      exact ⟨rescanned [e.conf] n, (holds _).2 ⟨n, held, rfl⟩, has⟩
    · intro x inside
      exact ⟨List.mem_cons_of_mem _ (h.leftover x inside).1, (h.leftover x inside).2⟩
    · intro x inside exempt
      rcases List.mem_cons.1 inside with new | old
      · obtain ⟨held, covered⟩ := (IpTable.find_eq_some_iff h.filed range.base_lt node).1 found
        refine Or.inr ⟨rescanned [e.conf] node, (holds _).2 ⟨node, held, rfl⟩, ?_⟩
        exact mem_rescanned.2 (Or.inr ⟨List.mem_singleton.2 new, new ▸ covered⟩)
      · rcases h.placed x old exempt with waits | ⟨n, held, hangs⟩
        · exact Or.inl waits
        · refine Or.inr ⟨rescanned [e.conf] n, (holds _).2 ⟨n, held, rfl⟩, ?_⟩
          exact mem_rescanned.2 (Or.inl hangs)
    · intro x inside exempt n' held' meets
      obtain ⟨n, held, rfl⟩ := (holds n').1 held'
      have meets' : Meets x n := meets
      rcases List.mem_cons.1 inside with new | old
      · have covered := covers n held (new ▸ meets')
        exact mem_rescanned.2 (Or.inr ⟨List.mem_singleton.2 new, new ▸ covered⟩)
      · exact mem_rescanned.2 (Or.inl (h.hung x old exempt n held meets'))
    · intro n' held' ip small covered
      obtain ⟨n, held, rfl⟩ := (holds n').1 held'
      exact h.admits n held ip small covered

theorem dlinesRight_broader (h : DlinesRight s es) (plain : e.conf.eLined = false)
    (small : e.conf.ip < 2 ^ 32) (broader : Broader s e.conf) :
    DlinesRight s (e.conf :: es) := by
  obtain ⟨node, found, wider⟩ := broader
  obtain ⟨held, based⟩ := (IpTable.find_eq_some_iff h.filed small node).1 found
  have exceptions : ∀ x ∈ e.conf :: es, x.eLined = true → x ∈ es := by
    intro x inside exempt
    rcases List.mem_cons.1 inside with new | old
    · rw [new, plain] at exempt
      cases exempt
    · exact old
  refine ⟨h.filed, fun x inside exempt => h.aligned x (exceptions x inside exempt) exempt, ?_, ?_, ?_,
    fun x inside exempt => h.placed x (exceptions x inside exempt) exempt,
    fun x inside exempt => h.hung x (exceptions x inside exempt) exempt, h.admits⟩
  · exact fun n held => (h.node n held).mono e.conf
  · intro d inside plain ip small' covered
    rcases List.mem_cons.1 inside with new | old
    · refine ⟨node, held, ?_⟩
      obtain ⟨bits, short, mask⟩ := e.mask
      obtain ⟨k, hk, mask', -⟩ := (h.filed.narrow node held).aligned.mask
      rw [mask, mask', cidrToBitmask] at wider
      have absorbed := fun x => Dyadic.and_and_wider (x := x) hk (Nat.sub_le 32 bits) wider
      rw [new, ConfItem.covers, mask, cidrToBitmask] at covered
      have same := congrArg (· &&& (2 ^ 32 - 2 ^ k)) covered
      simp only [absorbed] at same
      rw [IpNode.covers, mask', same, ← mask']
      exact based
    · exact h.covered d old plain ip small' covered
  · exact fun x inside => ⟨List.mem_cons_of_mem _ (h.leftover x inside).1, (h.leftover x inside).2⟩

/-- The nodes before the leftovers are placed: the new one and those outside its range. -/
def Kept (s : DlineTable) (e : DlineEntry) (clist : List ConfItem) (n : IpNode ConfItem) : Prop :=
  n = newIpSubtree e.conf.ip e.conf.ipMask clist ∨
    s.table.Holds n ∧ ¬ IpTable.Within n e.conf.ip e.conf.ipMask

structure Added (s s' : DlineTable) (e : DlineEntry) (clist : List ConfItem) : Prop where
  filed : IpTable.Filed s'.table
  head : clist.head? = some e.conf
  listed : ∀ a, a ∈ clist ↔ a = e.conf ∨ (∃ n, s.table.Holds n ∧
    IpTable.Within n e.conf.ip e.conf.ipMask ∧ a ∈ n.conf) ∧ a.eLined = true
  holds : ∀ n', s'.table.Holds n' ↔ ∃ n, Kept s e clist n ∧ rescanned s.leftover n = n'
  unique : ∀ n n' x, Kept s e clist n → Kept s e clist n' → x < 2 ^ 32 → n.covers x → n'.covers x →
    n = n'
  oracle : s'.table.oracle = (s.table.consult e.conf.ip e.conf.ipMask).oracle
  fewer : ∀ x ∈ s'.leftover, x ∈ s.leftover
  waits : ∀ x ∈ s.leftover, (∀ n, Kept s e clist n → ¬ n.covers x.ip) → x ∈ s'.leftover

theorem addDline_spec (h : DlinesRight s es) (narrower : ¬ Broader s e.conf) (fits : FitsDline s e) :
    ∃ clist, Added s (addDline s e.rand e.conf) e clist := by
  have range : IpTable.Narrow e.conf.ip e.conf.ipMask :=
    ⟨IpTable.aligned_of_masked e.mask fits.masked, fits.long⟩
  have small := range.aligned.base_lt
  have positive : e.conf.ipMask ≠ 0 := by
    have long := fits.long
    omega
  -- the two early ways out of `add_dline` are shut by the hypotheses
  have notBroader : ¬ ((s.table.find e.conf.ip).any fun node => node.ipMask ≤ e.conf.ipMask) = true := by
    intro broader
    obtain ⟨node, found, wider⟩ := (Option.any_eq_true _ _).1 broader
    exact narrower ⟨node, found, of_decide_eq_true wider⟩
  have noException : ¬ (findException s.leftover e.conf.ip).isSome = true := by
    intro waits
    obtain ⟨x, found⟩ := Option.isSome_iff_exists.1 waits
    have inside := List.mem_of_find?_eq_some found
    have based := List.find?_some found
    apply fits.waiting x inside
    have aligned := h.aligned x (h.leftover x inside).1 (h.leftover x inside).2
    rw [ConfItem.covers, Dyadic.base_covers aligned]
    exact (beq_iff_eq.1 based).symm
  have filed := IpTable.filed_consult h.filed e.conf.ip e.conf.ipMask
  have whole : (s.table.consult e.conf.ip e.conf.ipMask).gatherDrops e.rand e.conf.ip
    e.conf.ipMask = false := fits.whole
  have open' : ∀ n, s.table.Holds n → n.covers e.conf.ip → e.conf.ipMask ≤ n.ipMask := by
    intro n held covered
    have found := (IpTable.find_eq_some_iff h.filed small n).2 ⟨held, covered⟩
    have finer : ¬ n.ipMask ≤ e.conf.ipMask := fun wider => narrower ⟨n, found, wider⟩
    omega
  obtain ⟨clist, hclist⟩ : ∃ clist, clist = e.conf :: trimDlines
    ((s.table.consult e.conf.ip e.conf.ipMask).gather e.rand e.conf.ip e.conf.ipMask).2 := ⟨_, rfl⟩
  -- the new node takes the place of those in its range, and then the leftover exceptions
  -- are tried again
  obtain ⟨filed', holds⟩ := IpTable.replace_spec filed range whole open' clist
  obtain ⟨filed'', holds', oracle, waits⟩ := rescanDlines_spec filed' s.leftover (by
    intro x inside
    obtain ⟨known, exempt⟩ := h.leftover x inside
    exact ⟨exempt, (h.aligned x known exempt).base_lt⟩)
  refine ⟨clist, ?_⟩
  simp only [addDline, if_neg positive, if_neg notBroader, if_neg noException, ← hclist]
  refine ⟨filed'', by rw [hclist]; rfl, ?_, ?_, ?_, oracle, ?_, ?_⟩
  · intro a
    rw [hclist, List.mem_cons, trimDlines, List.mem_filter, IpTable.mem_gather filed range whole]
    exact Iff.rfl
  · intro n'
    rw [holds']
    constructor
    · rintro ⟨n, held, same⟩
      exact ⟨n, (holds n).1 held, same⟩
    · rintro ⟨n, kept, same⟩
      exact ⟨n, (holds n).2 kept, same⟩
  · intro n n' x kept kept' hx covered covered'
    exact filed'.unique hx ((holds n).2 kept) ((holds n').2 kept') covered covered'
  · exact fun x waiting => ((waits x).1 waiting).1
  · intro x waited uncovered
    obtain ⟨known, exempt⟩ := h.leftover x waited
    refine (waits x).2 ⟨waited, ?_⟩
    rw [IpTable.find_eq_none_iff filed' (h.aligned x known exempt).base_lt]
    exact fun n held => uncovered n ((holds n).1 held)

/-- The other D-lines: the node of the new one takes the place of those in its range. -/
theorem dlinesRight_new (h : DlinesRight s es) (plain : e.conf.eLined = false)
    (narrower : ¬ Broader s e.conf) (fits : FitsDline s e) :
    DlinesRight (addDline s e.rand e.conf) (e.conf :: es) := by
  have range : IpTable.Narrow e.conf.ip e.conf.ipMask :=
    ⟨IpTable.aligned_of_masked e.mask fits.masked, fits.long⟩
  obtain ⟨clist, added⟩ := addDline_spec h narrower fits
  obtain ⟨s', hs'⟩ : ∃ s', s' = addDline s e.rand e.conf := ⟨_, rfl⟩
  rw [← hs'] at added ⊢
  have base : (newIpSubtree e.conf.ip e.conf.ipMask clist).ip = e.conf.ip :=
    IpTable.newIpSubtree_ip range _
  have exceptions : ∀ x ∈ e.conf :: es, x.eLined = true → x ∈ es := by
    intro x inside exempt
    rcases List.mem_cons.1 inside with new | old
    · rw [new, plain] at exempt
      cases exempt
    · exact old
  -- what a node in the range covers, the new node covers
  have inherits : ∀ n, s.table.Holds n → IpTable.Within n e.conf.ip e.conf.ipMask → ∀ x < 2 ^ 32,
      n.covers x → (newIpSubtree e.conf.ip e.conf.ipMask clist).covers x := by
    intro n held within x hx covered
    rw [IpNode.covers, base]
    exact Dyadic.covers_trans range.aligned (h.filed.narrow n held).aligned within.2 within.1 hx
      covered
  have remains : ∀ n, s.table.Holds n → ∃ n', Kept s e clist n' ∧
      (∀ x < 2 ^ 32, n.covers x → n'.covers x) ∧ ∀ a ∈ n.conf, a.eLined = true → a ∈ n'.conf := by
    intro n held
    by_cases within : IpTable.Within n e.conf.ip e.conf.ipMask
    · refine ⟨newIpSubtree e.conf.ip e.conf.ipMask clist, Or.inl rfl, inherits n held within, ?_⟩
      exact fun a inside exempt => (added.listed a).2 (Or.inr ⟨⟨n, held, within, inside⟩, exempt⟩)
    · exact ⟨n, Or.inr ⟨held, within⟩, fun _ _ covered => covered, fun _ inside _ => inside⟩
  refine ⟨added.filed, fun x inside exempt => h.aligned x (exceptions x inside exempt) exempt,
    ?_, ?_, ?_, ?_, ?_, ?_⟩
  · intro n' held'
    obtain ⟨n, kept, rfl⟩ := (added.holds n').1 held'
    have waited : ∀ a ∈ s.leftover, a ∈ e.conf :: es := fun a inside =>
      List.mem_cons_of_mem _ (h.leftover a inside).1
    rcases kept with new | ⟨held, -⟩
    · have fresh : DlineNode (e.conf :: es) n := by
        rw [new]
        refine ⟨⟨e.conf, List.mem_cons_self, added.head, plain, base.symm, rfl⟩, ?_⟩
        intro x listed exempt
        rcases (added.listed x).1 listed with same | ⟨⟨m, held, within, inside⟩, -⟩
        · rw [same, plain] at exempt
          cases exempt
        · obtain ⟨known, covered⟩ := (h.node m held).exceptions x inside exempt
          have small := (h.aligned x known exempt).base_lt
          exact ⟨List.mem_cons_of_mem _ known, inherits m held within x.ip small covered⟩
      exact fresh.rescanned (fun _ inside => inside) waited
    · exact (h.node n held).rescanned (fun _ inside => List.mem_cons_of_mem _ inside) waited
  · intro d inside plain x hx covered
    rcases List.mem_cons.1 inside with new | old
    · refine ⟨rescanned s.leftover (newIpSubtree e.conf.ip e.conf.ipMask clist),
        (added.holds _).2 ⟨_, Or.inl rfl, rfl⟩, ?_⟩
      show (newIpSubtree e.conf.ip e.conf.ipMask clist).covers x
      rw [IpNode.covers, base]
      rw [new, ConfItem.covers, fits.masked] at covered
      exact covered
    · obtain ⟨n, held, has⟩ := h.covered d old plain x hx covered
      obtain ⟨n', kept, covers, -⟩ := remains n held
      exact ⟨rescanned s.leftover n', (added.holds _).2 ⟨n', kept, rfl⟩, covers x hx has⟩
  · intro x inside
    obtain ⟨known, exempt⟩ := h.leftover x (added.fewer x inside)
    exact ⟨List.mem_cons_of_mem _ known, exempt⟩
  · intro x inside exempt
    have old := exceptions x inside exempt
    rcases h.placed x old exempt with waited | ⟨n, held, hangs⟩
    · by_cases found : ∃ n, Kept s e clist n ∧ n.covers x.ip
      · obtain ⟨n, kept, covered⟩ := found
        refine Or.inr ⟨rescanned s.leftover n, (added.holds _).2 ⟨n, kept, rfl⟩, ?_⟩
        exact mem_rescanned.2 (Or.inr ⟨waited, covered⟩)
      · exact Or.inl (added.waits x waited fun n kept covered => found ⟨n, kept, covered⟩)
    · obtain ⟨n', kept, -, lists⟩ := remains n held
      refine Or.inr ⟨rescanned s.leftover n', (added.holds _).2 ⟨n', kept, rfl⟩, ?_⟩
      exact mem_rescanned.2 (Or.inl (lists x hangs exempt))
  · intro x inside exempt n'' held'' meets
    have old := exceptions x inside exempt
    obtain ⟨n, kept, rfl⟩ := (added.holds n'').1 held''
    have meets' : Meets x n := meets
    apply mem_rescanned.2
    rcases kept with new | ⟨held, -⟩
    · have begins : x.covers n.ip → x.covers e.conf.ip := by
        rw [new, base]
        exact id
      rcases h.placed x old exempt with waited | ⟨m, held, hangs⟩
      · -- it waited, so it does not cover the new D-line
        rcases meets' with covered | wider
        · exact Or.inr ⟨waited, covered⟩
        · exact absurd (begins wider) (fits.waiting x waited)
      · obtain ⟨m', kept', covers, lists⟩ := remains m held
        left
        rcases meets' with covered | wider
        · -- it hangs in a node that covers its first address, which is the new one
          have small := (h.aligned x old exempt).base_lt
          have own := ((h.node m held).exceptions x hangs exempt).2
          have same := added.unique n m' x.ip (Or.inl new) kept' small covered
            (covers x.ip small own)
          rw [same]
          exact lists x hangs exempt
        · have within := fits.elsewhere m held x hangs exempt (begins wider)
          rw [new]
          exact (added.listed x).2 (Or.inr ⟨⟨m, held, within, hangs⟩, exempt⟩)
    · exact Or.inl (h.hung x old exempt n held meets')
  · intro n' held' x hx covered
    obtain ⟨n, kept, rfl⟩ := (added.holds n').1 held'
    have covered' : n.covers x := covered
    rw [IpTable.admits_congr added.oracle]
    rcases kept with new | ⟨held, -⟩
    · rw [new, IpNode.covers, base] at covered'
      exact IpTable.consult_admits _ range hx covered'
    · exact IpTable.admits_consult (h.admits n held x hx covered')

theorem dlinesRight_step (h : DlinesRight s es) (fits : FitsDlines s e) :
    DlinesRight (dlineMachine.step s e) (e.conf :: es) := by
  simp only [dlineMachine]
  cases exempt : e.conf.eLined with
  | true =>
    rw [if_pos rfl]
    exact dlinesRight_exception h exempt (fits.exception exempt)
  | false =>
    rw [if_neg (by decide)]
    obtain ⟨positive, fits'⟩ := fits.dline exempt
    by_cases broader : Broader s e.conf
    · have unchanged : addDline s e.rand e.conf = s := by
        obtain ⟨node, found, wider⟩ := broader
        have any : ((s.table.find e.conf.ip).any fun node => node.ipMask ≤ e.conf.ipMask) = true := by
          rw [found]
          exact decide_eq_true wider
        simp only [addDline, if_neg positive, if_pos any]
      rw [unchanged]
      exact dlinesRight_broader h exempt fits.small broader
    · exact dlinesRight_new h exempt broader (fits'.resolve_left broader)

theorem matchDline_spec (h : DlinesRight s es) {ip : Nat} (hip : ip < 2 ^ 32) :
    ((∃ d ∈ es, d.eLined = false ∧ d.covers ip) ∧ (∃ x ∈ es, x.eLined = true ∧ x.covers ip) ∧
      ∃ a, matchDline s ip = some a ∧ a.eLined = true) ∨
    ((∃ d ∈ es, d.eLined = false ∧ d.covers ip) ∧ (¬ ∃ x ∈ es, x.eLined = true ∧ x.covers ip) ∧
      ∃ a, matchDline s ip = some a ∧ a.eLined = false) ∨
    ((¬ ∃ d ∈ es, d.eLined = false ∧ d.covers ip) ∧ matchDline s ip = none) := by
  by_cases banned : ∃ d ∈ es, d.eLined = false ∧ d.covers ip
  · obtain ⟨d, inside, plain, covered⟩ := banned
    obtain ⟨n, held, has⟩ := h.covered d inside plain ip hip covered
    have admitted := h.admits n held ip hip has
    obtain ⟨head, known, first, exempt, headIp, headMask⟩ := (h.node n held).head
    obtain ⟨rest, list⟩ : ∃ rest, n.conf = head :: rest := List.head?_eq_some_iff.1 first
    have answer : matchDline s ip =
        match n.conf.find? fun scan => scan.eLined && scan.ip == ip &&& scan.ipMask with
        | some scan => some scan
        | none =>
          if head.ip &&& head.ipMask = ip &&& head.ipMask then some head else none := by
      simp only [matchDline]
      rw [if_neg (by rw [Nat.and_comm]; exact not_not.2 admitted),
        (IpTable.find_eq_some_iff h.filed hip n).2 ⟨held, has⟩]
      simp only [list]
    -- every exception that meets the node hangs in its list, so the scan finds it there
    by_cases spared : ∃ x ∈ es, x.eLined = true ∧ x.covers ip
    · refine Or.inl ⟨⟨d, inside, plain, covered⟩, spared, ?_⟩
      obtain ⟨x, inside', exempt', covered'⟩ := spared
      have aligned := h.aligned x inside' exempt'
      rw [ConfItem.covers, Dyadic.base_covers aligned] at covered'
      have meets : Meets x n := by
        have based := Dyadic.base_of_common (h.filed.narrow n held).aligned aligned hip has covered'
        rwa [Meets, ConfItem.covers, Dyadic.base_covers aligned]
      have hangs := h.hung x inside' exempt' n held meets
      have found : (n.conf.find? fun scan => scan.eLined && scan.ip == ip &&& scan.ipMask).isSome := by
        rw [List.find?_isSome]
        exact ⟨x, hangs, by simp [exempt', covered']⟩
      obtain ⟨a, found⟩ := Option.isSome_iff_exists.1 found
      have exempt'' := List.find?_some found
      rw [Bool.and_eq_true] at exempt''
      rw [answer, found]
      exact ⟨a, rfl, exempt''.1⟩
    · refine Or.inr (Or.inl ⟨⟨d, inside, plain, covered⟩, spared, head, ?_, exempt⟩)
      have unfound : (n.conf.find? fun scan => scan.eLined && scan.ip == ip &&& scan.ipMask) = none := by
        rw [List.find?_eq_none]
        intro x listed both
        rw [Bool.and_eq_true, beq_iff_eq] at both
        obtain ⟨known, -⟩ := (h.node n held).exceptions x listed both.1
        apply spared
        refine ⟨x, known, both.1, ?_⟩
        rw [ConfItem.covers, Dyadic.base_covers (h.aligned x known both.1)]
        exact both.2.symm
      rw [answer, unfound]
      apply if_pos
      have aligned := (h.filed.narrow n held).aligned
      rw [headIp, headMask, Dyadic.base_covers aligned]
      exact has.symm
  · refine Or.inr (Or.inr ⟨banned, ?_⟩)
    simp only [matchDline]
    split
    · rfl
    · cases found : s.table.find ip with
      | none => rfl
      | some n =>
        obtain ⟨held, has⟩ := (IpTable.find_eq_some_iff h.filed hip n).1 found
        obtain ⟨head, known, -, exempt, headIp, headMask⟩ := (h.node n held).head
        exfalso
        apply banned
        refine ⟨head, known, exempt, ?_⟩
        rw [ConfItem.covers, headIp, headMask, Dyadic.base_covers (h.filed.narrow n held).aligned]
        exact has

end

theorem dlinesRight_empty : DlinesRight DlineTable.empty [] where
  filed := IpTable.filed_empty
  aligned := fun _ inside => absurd inside List.not_mem_nil
  node := by
    rintro n ⟨b, inside⟩
    exact absurd inside List.not_mem_nil
  covered := fun _ inside => absurd inside List.not_mem_nil
  leftover := fun _ inside => absurd inside List.not_mem_nil
  placed := fun _ inside => absurd inside List.not_mem_nil
  hung := fun _ inside => absurd inside List.not_mem_nil
  admits := by
    rintro n ⟨b, inside⟩
    exact absurd inside List.not_mem_nil

theorem dlinesRight_run {es : List DlineEntry}
    (meets : dlineMachine.Meets FitsDlines DlineTable.empty es) :
    DlinesRight (dlineMachine.run DlineTable.empty es) (es.map DlineEntry.conf).reverse := by
  apply meets.records (J := fun s past => DlinesRight s (past.map DlineEntry.conf).reverse)
    (p := [])
  · intro s past e holds fits
    rw [List.map_append, List.reverse_append]
    exact dlinesRight_step holds fits
  · exact dlinesRight_empty

/-- Some D-line or, for `exempt`, some exception of the run covers the address. -/
def SomeCovers (es : List DlineEntry) (exempt : Bool) (ip : Nat) : Prop :=
  ∃ e ∈ es, e.conf.eLined = exempt ∧ e.conf.covers ip

/-- In every run of D-lines and exceptions that are added as they should be, the table
answers as a scan of all of them does. -/
theorem matchDline_of_run {es : List DlineEntry}
    (meets : dlineMachine.Meets FitsDlines DlineTable.empty es) {ip : Nat} (hip : ip < 2 ^ 32) :
    let answer := matchDline (dlineMachine.run DlineTable.empty es) ip
    ((∃ a, answer = some a ∧ a.eLined = true) ↔
      SomeCovers es false ip ∧ SomeCovers es true ip) ∧
    ((∃ a, answer = some a ∧ a.eLined = false) ↔
      SomeCovers es false ip ∧ ¬ SomeCovers es true ip) ∧
    (answer = none ↔ ¬ SomeCovers es false ip) := by
  intro answer
  have covers : ∀ exempt, (∃ a ∈ (es.map DlineEntry.conf).reverse, a.eLined = exempt ∧
      a.covers ip) ↔ SomeCovers es exempt ip := by
    intro exempt
    simp [SomeCovers]
  rcases matchDline_spec (dlinesRight_run meets) hip with
    ⟨banned, spared, a, found, exempt⟩ | ⟨banned, spared, a, found, exempt⟩ | ⟨banned, found⟩
  · rw [covers] at banned spared
    simp [answer, found, exempt, banned, spared]
  · rw [covers] at banned spared
    simp [answer, found, exempt, banned, spared]
  · rw [covers] at banned
    simp [answer, found, banned]

/-- A D-line or an exception on the first `bits` bits of an address. -/
def dlineOn (ip bits : Nat) (exempt : Bool) (short : bits ≤ 32) : DlineEntry where
  conf := { client := false, kill := false, eLined := exempt, ip,
            ipMask := cidrToBitmask bits, host := [], user := [] }
  rand := fun _ => true
  mask := ⟨bits, short, rfl⟩

def sparedDline : List DlineEntry :=
  [dlineOn 0x0a010000 16 false (by decide), dlineOn 0x0a010200 24 true (by decide)]

theorem sparedDline_meets : dlineMachine.Meets FitsDlines DlineTable.empty sparedDline := by
  have first : FitsDlines DlineTable.empty (dlineOn 0x0a010000 16 false (by decide)) := by
    refine ⟨by decide, fun _ => ⟨by decide, Or.inr ⟨by decide, by decide, by decide, ?_, ?_⟩⟩, ?_⟩
    · intro x inside
      cases inside
    · rintro n ⟨b, inside⟩
      cases inside
    · intro exempt
      cases exempt
  have filed := (dlinesRight_step dlinesRight_empty first).filed
  have tree : (dlineMachine.step DlineTable.empty
      (dlineOn 0x0a010000 16 false (by decide))).table.tree 10 = .node ⟨0x0a010000, cidrToBitmask 16,
        [(dlineOn 0x0a010000 16 false (by decide)).conf]⟩ .null .null := by decide +kernel
  refine ⟨first, ⟨by decide, ?_, fun _ => ⟨by decide, ?_⟩⟩, trivial⟩
  · intro plain
    cases plain
  · intro n held covered
    -- the only node has the exception's first address
    have range : IpTable.Narrow 0x0a010200 (cidrToBitmask 24) :=
      ⟨IpTable.aligned_of_masked ⟨24, by decide, rfl⟩ (by decide), by decide⟩
    have octet := range.bucket_eq (filed.narrow n held).aligned.base_lt covered
    have inside := filed.mem held
    rw [octet, show IpTable.bucket 0x0a010200 = 10 by decide, tree] at inside
    rw [List.mem_singleton.1 inside]
    decide

theorem matchDline_spared :
    let answer := matchDline (dlineMachine.run DlineTable.empty sparedDline) 0x0a010203
    ((∃ a, answer = some a ∧ a.eLined = true) ↔
      SomeCovers sparedDline false 0x0a010203 ∧ SomeCovers sparedDline true 0x0a010203) ∧
    ((∃ a, answer = some a ∧ a.eLined = false) ↔
      SomeCovers sparedDline false 0x0a010203 ∧ ¬ SomeCovers sparedDline true 0x0a010203) ∧
    (answer = none ↔ ¬ SomeCovers sparedDline false 0x0a010203) :=
  matchDline_of_run sparedDline_meets (by decide)

/-- `D:10.0.0.0/8` is thrown away for the exception of `10.0.0.0/16`, which does not cover
it. -/
theorem dline_thrown_away : ¬ ∀ (es : List DlineEntry) (ip : Nat), ip < 2 ^ 32 →
    let answer := matchDline (dlineMachine.run DlineTable.empty es) ip
    ((∃ a, answer = some a ∧ a.eLined = true) ↔
      SomeCovers es false ip ∧ SomeCovers es true ip) ∧
    ((∃ a, answer = some a ∧ a.eLined = false) ↔
      SomeCovers es false ip ∧ ¬ SomeCovers es true ip) ∧
    (answer = none ↔ ¬ SomeCovers es false ip) := by
  intro claimed
  have both := claimed [dlineOn 0x0a000000 16 true (by decide), dlineOn 0x0a000000 8 false (by decide)]
    0x0a010203 (by decide)
  have banned : SomeCovers [dlineOn 0x0a000000 16 true (by decide),
      dlineOn 0x0a000000 8 false (by decide)] false 0x0a010203 :=
    ⟨dlineOn 0x0a000000 8 false (by decide), by simp, rfl, by decide⟩
  apply both.2.2.1 _ banned
  decide +kernel

end Ircd
