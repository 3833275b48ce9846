import Ircd.Conf.IpTable
import Ircd.Lib.Machine

/-! K-lines on addresses: `add_ip_Kline` and `match_ip_Kline` of `dline_conf.c`.

The list of a node has the K-lines whose first address was found in it. An entry that is
left out or taken out must be served by another one: the same or a more general user mask on
a range that has the entry's.
-/

set_option autoImplicit false

namespace Ircd

/-- An `unsigned long` that goes through an `int` argument and is compared as
`unsigned long` again. -/
def throughInt (mask : Nat) : Nat := if mask < 2 ^ 31 then mask else mask + (2 ^ 64 - 2 ^ 32)

def trimIpKlines (cl : List ConfItem) (mask : Nat) : List ConfItem :=
  cl.filter fun c => c.eLined || !(c.ipMask ≥ throughInt mask)

/-- A `*@` K-line or E-line of the list that is more general than the mask. -/
def moreGeneral (mask : Nat) (scan : ConfItem) : Bool :=
  (scan.kill || scan.eLined) && scan.user == lit "*" && decide (scan.ipMask < mask)

def addIpKline (t : IpTable) (rand : Nat → Bool) (confPtr : ConfItem) : IpTable :=
  let conf := if confPtr.ipMask = 0 then { confPtr with ipMask := 2 ^ 32 - 1 } else confPtr
  match t.find conf.ip with
  | none =>
    let (t, clist) := (t.consult conf.ip conf.ipMask).gather rand conf.ip conf.ipMask
    let clist := if conf.user = lit "*" then trimIpKlines clist 0 else clist
    t.place conf.ip conf.ipMask (conf :: clist)
  | some node =>
    if node.conf.any (moreGeneral conf.ipMask) then t
    else
      let keep := if conf.user = lit "*" then (trimIpKlines · conf.ipMask) else id
      (t.consult conf.ip conf.ipMask).change conf.ip fun clist => conf :: keep clist

/-- The loop of `match_ip_Kline` over a list; `iWins` is `winnertype == 'I'`. -/
def scanIpKlines (ip : Nat) (name : CStr) (winner : Option ConfItem) (iWins : Bool) :
    List ConfItem → Option ConfItem
  | [] => winner
  | scan :: rest =>
    if scan.ip ≠ ip &&& scan.ipMask then scanIpKlines ip name winner iWins rest
    else if scan.eLined ∧ matchMask scan.user name then some scan
    else if scan.kill ∧ matchMask scan.user name then scanIpKlines ip name (some scan) false rest
    else if scan.client ∧ matchMask scan.user name ∧ iWins then
      match winner with
      | some champ =>
        if scan.ipMask ≤ champ.ipMask then scanIpKlines ip name winner iWins rest
        else scanIpKlines ip name (some scan) iWins rest
      | none => scanIpKlines ip name (some scan) iWins rest
    else scanIpKlines ip name winner iWins rest

def matchIpKline (t : IpTable) (ip : Nat) (name : Option CStr) : Option ConfItem :=
  if t.oracle (IpTable.bucket ip) &&& ip ≠ ip then none
  else
    match t.find ip with
    | none => none
    | some node =>
      match name with
      | none => none
      | some name => scanIpKlines ip name none true node.conf

/-- What the scan returns is an entry of the list for the address and the name. -/
theorem scanIpKlines_sound {ip : Nat} {name : CStr} {iWins : Bool} {a : ConfItem}
    (cl : List ConfItem) (winner : Option ConfItem)
    (found : scanIpKlines ip name winner iWins cl = some a) :
    winner = some a ∨ a ∈ cl ∧ ip &&& a.ipMask = a.ip ∧ matchMask a.user name = true := by
  induction cl generalizing winner iWins with
  | nil => exact Or.inl found
  | cons scan rest ih =>
    have later : ∀ {w : Option ConfItem} {i : Bool}, scanIpKlines ip name w i rest = some a →
        w = some a ∨ a ∈ scan :: rest ∧ ip &&& a.ipMask = a.ip ∧ matchMask a.user name = true := by
      intro w i found
      cases ih w found with
      | inl same => exact Or.inl same
      | inr inside => exact Or.inr ⟨List.mem_cons_of_mem _ inside.1, inside.2⟩
    simp only [scanIpKlines] at found
    split at found
    · exact later found
    next here =>
    have own : matchMask scan.user name = true → scan = a →
        a ∈ scan :: rest ∧ ip &&& a.ipMask = a.ip ∧ matchMask a.user name = true := by
      intro matched same
      subst same
      exact ⟨List.mem_cons_self, (not_not.1 here).symm, matched⟩
    split at found
    next exempt => exact Or.inr (own exempt.2 (Option.some.inj found))
    split at found
    next killed =>
      cases later found with
      | inl same => exact Or.inr (own killed.2 (Option.some.inj same))
      | inr inside => exact Or.inr inside
    split at found
    next admitted =>
      have won : scanIpKlines ip name (some scan) iWins rest = some a →
          winner = some a ∨
            a ∈ scan :: rest ∧ ip &&& a.ipMask = a.ip ∧ matchMask a.user name = true := by
        intro found
        cases later found with
        | inl same => exact Or.inr (own admitted.2.1 (Option.some.inj same))
        | inr inside => exact Or.inr inside
      split at found
      · split at found
        · exact later found
        · exact won found
      · exact won found
    · exact later found

theorem hasEntry_addIpKline {t : IpTable} {rand : Nat → Bool} {conf a : ConfItem}
    (has : (addIpKline t rand conf).HasEntry a) : t.HasEntry a ∨
      a = if conf.ipMask = 0 then { conf with ipMask := 2 ^ 32 - 1 } else conf := by
  simp only [addIpKline] at has
  generalize (if conf.ipMask = 0 then { conf with ipMask := 2 ^ 32 - 1 } else conf) = conf at has ⊢
  split at has
  · rcases IpTable.hasEntry_place has with old | listed
    · exact Or.inl (IpTable.hasEntry_gather (Or.inl old))
    · rcases List.mem_cons.1 listed with new | rest
      · exact Or.inr new
      · left
        apply IpTable.hasEntry_gather (t := t.consult conf.ip conf.ipMask)
        right
        split at rest
        · exact (List.mem_filter.1 rest).1
        · exact rest
  · split at has
    · exact Or.inl has
    · rcases IpTable.hasEntry_change has with old | ⟨clist, held, listed⟩
      · exact Or.inl old
      · rcases List.mem_cons.1 listed with new | rest
        · exact Or.inr new
        · left
          apply held
          split at rest
          · exact (List.mem_filter.1 rest).1
          · exact rest

/-- A K-line as `is_address` and the callers of `add_ip_Kline` make them, and the outcomes
of `rand()` while it is added. -/
structure IpKlineEntry where
  conf : ConfItem
  rand : Nat → Bool
  kline : conf.kill = true ∧ conf.eLined = false ∧ conf.client = false
  mask : ∃ bits, bits ≤ 32 ∧ conf.ipMask = cidrToBitmask bits

def ConfItem.bans (k : ConfItem) (ip : Nat) (name : CStr) : Prop :=
  k.covers ip ∧ matchMask k.user name = true

structure Serves (c k : ConfItem) : Prop where
  wider : c.ipMask ≤ k.ipMask
  inside : k.ip &&& c.ipMask = c.ip
  user : c.user = lit "*" ∨ c.user = k.user

theorem Serves.refl {k : ConfItem} (masked : k.ip &&& k.ipMask = k.ip) : Serves k k :=
  ⟨Nat.le_refl _, masked, Or.inr rfl⟩

abbrev ConfItem.Narrow (k : ConfItem) : Prop := IpTable.Narrow k.ip k.ipMask

theorem ConfItem.covers_iff {k : ConfItem} (h : k.Narrow) (ip : Nat) :
    k.covers ip ↔ ip &&& k.ipMask = k.ip := by
  unfold ConfItem.covers
  rw [Dyadic.base_covers h.aligned]

theorem Serves.covers {c k : ConfItem} (h : Serves c k) (hc : c.Narrow) (hk : k.Narrow) {x : Nat}
    (hx : x < 2 ^ 32) (covered : k.covers x) : c.covers x := by
  rw [ConfItem.covers_iff hk] at covered
  rw [ConfItem.covers_iff hc]
  exact Dyadic.covers_trans hc.aligned hk.aligned h.wider h.inside hx covered

theorem Serves.trans {a b c : ConfItem} (hab : Serves a b) (hbc : Serves b c) (ha : a.Narrow)
    (hb : b.Narrow) (hc : c.Narrow) : Serves a c := by
  have base : b.covers c.ip := (ConfItem.covers_iff hb _).2 hbc.inside
  refine ⟨hab.wider.trans hbc.wider, ?_, ?_⟩
  · exact (ConfItem.covers_iff ha _).1 (hab.covers ha hb hc.aligned.base_lt base)
  · cases hab.user with
    | inl star => exact Or.inl star
    | inr same => exact same ▸ hbc.user

/-- The table after the K-lines `ks`: each entry is one of them in a node that has its
range, and each K-line is served. -/
structure KlineTable (t : IpTable) (ks : List ConfItem) : Prop where
  filed : IpTable.Filed t
  narrow : ∀ k ∈ ks, k.kill = true ∧ k.eLined = false ∧ k.Narrow
  sound : ∀ n, t.Holds n → ∀ c ∈ n.conf, c ∈ ks ∧ n.ipMask ≤ c.ipMask ∧ c.ip &&& n.ipMask = n.ip
  served : ∀ k ∈ ks, ∃ n, t.Holds n ∧ ∃ c ∈ n.conf, Serves c k
  admits : ∀ n, t.Holds n → ∀ c ∈ n.conf, ∀ x < 2 ^ 32, c.covers x → t.Admits x

/-- A K-line that is added as it should be: its address is masked with at least eight bits, no
node gets lost, the node that has its first address is not narrower, and where it is left
out for a more general entry of that node, one there serves it. -/
structure FitsKlines (t : IpTable) (e : IpKlineEntry) : Prop where
  long : 2 ^ 32 - 2 ^ 24 ≤ e.conf.ipMask
  masked : e.conf.ip &&& e.conf.ipMask = e.conf.ip
  whole : t.find e.conf.ip = none → t.gatherDrops e.rand e.conf.ip e.conf.ipMask = false
  room : ∀ node, t.find e.conf.ip = some node → node.ipMask ≤ e.conf.ipMask
  general : ∀ node, t.find e.conf.ip = some node →
    node.conf.any (moreGeneral e.conf.ipMask) = true → ∃ scan ∈ node.conf, Serves scan e.conf

instance (c k : ConfItem) : Decidable (Serves c k) :=
  decidable_of_iff (c.ipMask ≤ k.ipMask ∧ k.ip &&& c.ipMask = c.ip ∧
    (c.user = lit "*" ∨ c.user = k.user)) ⟨fun h => ⟨h.1, h.2.1, h.2.2⟩, fun h => ⟨h.1, h.2, h.3⟩⟩

instance (t : IpTable) (e : IpKlineEntry) : Decidable (FitsKlines t e) :=
  decidable_of_iff (2 ^ 32 - 2 ^ 24 ≤ e.conf.ipMask ∧ e.conf.ip &&& e.conf.ipMask = e.conf.ip ∧
      (t.find e.conf.ip = none → t.gatherDrops e.rand e.conf.ip e.conf.ipMask = false) ∧
      ∀ node ∈ t.find e.conf.ip, node.ipMask ≤ e.conf.ipMask ∧
        (node.conf.any (moreGeneral e.conf.ipMask) = true →
          ∃ scan ∈ node.conf, Serves scan e.conf))
    ⟨fun h => ⟨h.1, h.2.1, h.2.2.1, fun node found => (h.2.2.2 node found).1,
        fun node found => (h.2.2.2 node found).2⟩,
      fun h => ⟨h.long, h.masked, h.whole, fun node found =>
        ⟨h.room node found, h.general node found⟩⟩⟩

theorem trimIpKlines_subset {cl : List ConfItem} {mask : Nat} {c : ConfItem}
    (kept : c ∈ trimIpKlines cl mask) : c ∈ cl := (List.mem_filter.1 kept).1

/-- A mask of at least one bit goes through `int` as a number that no mask reaches. -/
theorem trimIpKlines_long {cl : List ConfItem} {mask : Nat} (long : 2 ^ 31 ≤ mask)
    (masks : ∀ c ∈ cl, c.ipMask < 2 ^ 32) : trimIpKlines cl mask = cl := by
  apply List.filter_eq_self.2
  intro c inside
  have small := masks c inside
  have large : ¬ mask < 2 ^ 31 := by omega
  have below : ¬ c.ipMask ≥ throughInt mask := by
    unfold throughInt
    rw [if_neg large]
    omega
  simp [below]

theorem FitsKlines.narrow {t : IpTable} {e : IpKlineEntry} (h : FitsKlines t e) :
    e.conf.Narrow := ⟨IpTable.aligned_of_masked e.mask h.masked, h.long⟩

section
variable {t : IpTable} {ks : List ConfItem} {e : IpKlineEntry}

theorem addIpKline_eq (h : FitsKlines t e) : addIpKline t e.rand e.conf =
    match t.find e.conf.ip with
    | none =>
      let gathered := (t.consult e.conf.ip e.conf.ipMask).gather e.rand e.conf.ip e.conf.ipMask
      let clist := if e.conf.user = lit "*" then trimIpKlines gathered.2 0 else gathered.2
      gathered.1.place e.conf.ip e.conf.ipMask (e.conf :: clist)
    | some node =>
      if node.conf.any (moreGeneral e.conf.ipMask) then t
      else
        let keep := if e.conf.user = lit "*" then (trimIpKlines · e.conf.ipMask) else id
        (t.consult e.conf.ip e.conf.ipMask).change e.conf.ip fun clist => e.conf :: keep clist := by
  have positive : e.conf.ipMask ≠ 0 := by
    have long := h.long
    omega
  simp only [addIpKline, if_neg positive]

theorem narrow_cons (h : KlineTable t ks) (fits : FitsKlines t e) :
    ∀ k ∈ e.conf :: ks, k.kill = true ∧ k.eLined = false ∧ k.Narrow := by
  intro k inside
  cases List.mem_cons.1 inside with
  | inl new => exact new ▸ ⟨e.kline.1, e.kline.2.1, fits.narrow⟩
  | inr old => exact h.narrow k old

theorem klineTable_new (h : KlineTable t ks) (fits : FitsKlines t e)
    (absent : t.find e.conf.ip = none) :
    KlineTable (addIpKline t e.rand e.conf) (e.conf :: ks) := by
  have range := fits.narrow
  have whole := fits.whole absent
  have uncovered := (IpTable.find_eq_none_iff h.filed range.aligned.base_lt).1 absent
  have filed := IpTable.filed_consult h.filed e.conf.ip e.conf.ipMask
  rw [addIpKline_eq fits, absent]
  simp only
  -- the entries of the nodes that are taken out, less those that are trimmed
  obtain ⟨clist, trimmed⟩ : ∃ clist, clist = if e.conf.user = lit "*" then
      trimIpKlines ((t.consult e.conf.ip e.conf.ipMask).gather e.rand e.conf.ip e.conf.ipMask).2 0
      else ((t.consult e.conf.ip e.conf.ipMask).gather e.rand e.conf.ip e.conf.ipMask).2 := ⟨_, rfl⟩
  rw [← trimmed]
  have taken : ∀ c ∈ clist, ∃ n, t.Holds n ∧ IpTable.Within n e.conf.ip e.conf.ipMask ∧
      c ∈ n.conf := by
    intro c inside
    apply (IpTable.mem_gather filed range whole c).1
    rw [trimmed] at inside
    split at inside
    · exact trimIpKlines_subset inside
    · exact inside
  have lost : ∀ n, t.Holds n → IpTable.Within n e.conf.ip e.conf.ipMask → ∀ c ∈ n.conf,
      c ∈ clist ∨ e.conf.user = lit "*" := by
    intro n held within c inside
    by_cases star : e.conf.user = lit "*"
    · exact Or.inr star
    · rw [trimmed, if_neg star]
      exact Or.inl ((IpTable.mem_gather filed range whole c).2 ⟨n, held, within, inside⟩)
  have own : ∀ n, t.Holds n → IpTable.Within n e.conf.ip e.conf.ipMask → ∀ c ∈ n.conf,
      c ∈ ks ∧ e.conf.ipMask ≤ c.ipMask ∧ c.ip &&& e.conf.ipMask = e.conf.ip := by
    intro n held within c inside
    obtain ⟨known, finer, based⟩ := h.sound n held c inside
    have aligned := (h.filed.narrow n held).aligned
    refine ⟨known, within.2.trans finer, ?_⟩
    exact Dyadic.covers_trans range.aligned aligned within.2 within.1
      (h.narrow c known).2.2.aligned.base_lt based
  obtain ⟨filed', holds⟩ := IpTable.replace_spec filed range whole
    (fun n held covered => absurd covered (uncovered n held)) (e.conf :: clist)
  have new : (newIpSubtree e.conf.ip e.conf.ipMask (e.conf :: clist)).ip = e.conf.ip :=
    IpTable.newIpSubtree_ip range _
  refine ⟨filed', narrow_cons h fits, ?_, ?_, ?_⟩
  · intro n held c inside
    rcases (holds n).1 held with same | ⟨old, -⟩
    · rw [same] at inside ⊢
      rw [new]
      rcases List.mem_cons.1 inside with first | rest
      · rw [first]
        exact ⟨List.mem_cons_self, Nat.le_refl _, fits.masked⟩
      · obtain ⟨n', held', within, inside'⟩ := taken c rest
        obtain ⟨known, finer, based⟩ := own n' held' within c inside'
        exact ⟨List.mem_cons_of_mem _ known, finer, based⟩
    · obtain ⟨known, finer, based⟩ := h.sound n old c inside
      exact ⟨List.mem_cons_of_mem _ known, finer, based⟩
  · have newest : ∃ n, (((t.consult e.conf.ip e.conf.ipMask).gather e.rand e.conf.ip
        e.conf.ipMask).1.place e.conf.ip e.conf.ipMask (e.conf :: clist)).Holds n ∧
        n.conf = e.conf :: clist := ⟨_, (holds _).2 (Or.inl rfl), rfl⟩
    intro k inside
    rcases List.mem_cons.1 inside with first | earlier
    · obtain ⟨n, held, conf⟩ := newest
      rw [first]
      exact ⟨n, held, e.conf, conf ▸ List.mem_cons_self, Serves.refl fits.masked⟩
    · obtain ⟨n, held, c, listed, serves⟩ := h.served k earlier
      by_cases within : IpTable.Within n e.conf.ip e.conf.ipMask
      · obtain ⟨n', held', conf⟩ := newest
        rcases lost n held within c listed with kept | star
        · exact ⟨n', held', c, conf ▸ List.mem_cons_of_mem _ kept, serves⟩
        · obtain ⟨known, finer, based⟩ := own n held within c listed
          have instead : Serves e.conf c := ⟨finer, based, Or.inl star⟩
          refine ⟨n', held', e.conf, conf ▸ List.mem_cons_self, ?_⟩
          exact instead.trans serves range (h.narrow c known).2.2 (h.narrow k earlier).2.2
      · exact ⟨n, (holds n).2 (Or.inr ⟨held, within⟩), c, listed, serves⟩
  · intro n held c inside x hx covered
    have before : ∀ n, t.Holds n → c ∈ n.conf →
        ((t.consult e.conf.ip e.conf.ipMask)).Admits x := fun n held inside =>
      IpTable.admits_consult (h.admits n held c inside x hx covered)
    show (t.consult e.conf.ip e.conf.ipMask).Admits x
    rcases (holds n).1 held with same | ⟨old, -⟩
    · rw [same] at inside
      rcases List.mem_cons.1 inside with first | rest
      · rw [first, ConfItem.covers_iff range] at covered
        exact IpTable.consult_admits t range hx covered
      · obtain ⟨n', held', -, inside'⟩ := taken c rest
        exact before n' held' inside'
    · exact before n old inside

/-- A K-line whose first address is in a node goes into its list, or is left out for a more
general one. -/
theorem klineTable_listed (h : KlineTable t ks) (fits : FitsKlines t e)
    {node : IpNode ConfItem} (found : t.find e.conf.ip = some node) :
    KlineTable (addIpKline t e.rand e.conf) (e.conf :: ks) := by
  have range := fits.narrow
  have wider := fits.room node found
  obtain ⟨heldNode, based⟩ := (IpTable.find_eq_some_iff h.filed range.aligned.base_lt node).1 found
  have known : ∀ {n : IpNode ConfItem} {c : ConfItem}, t.Holds n → c ∈ n.conf →
      c ∈ e.conf :: ks ∧ n.ipMask ≤ c.ipMask ∧ c.ip &&& n.ipMask = n.ip := by
    intro n c held inside
    obtain ⟨known, finer, inRange⟩ := h.sound n held c inside
    exact ⟨List.mem_cons_of_mem _ known, finer, inRange⟩
  rw [addIpKline_eq fits, found]
  simp only
  by_cases general : node.conf.any (moreGeneral e.conf.ipMask) = true
  · rw [if_pos general]
    refine ⟨h.filed, narrow_cons h fits, fun n held c inside => known held inside, ?_, h.admits⟩
    intro k inside
    rcases List.mem_cons.1 inside with first | earlier
    · rw [first]
      exact ⟨node, heldNode, fits.general node found general⟩
    · exact h.served k earlier
  · rw [if_neg general]
    have untrimmed : trimIpKlines node.conf e.conf.ipMask = node.conf := by
      apply trimIpKlines_long
      · have long := fits.long
        omega
      · intro c inside
        exact (h.narrow c (h.sound node heldNode c inside).1).2.2.mask_lt
    obtain ⟨keep, keeping⟩ : ∃ keep : List ConfItem → List ConfItem,
        keep = if e.conf.user = lit "*" then (trimIpKlines · e.conf.ipMask) else id := ⟨_, rfl⟩
    have kept : keep node.conf = node.conf := by
      rw [keeping]
      split
      · exact untrimmed
      · rfl
    rw [← keeping]
    have filed := IpTable.filed_consult h.filed e.conf.ip e.conf.ipMask
    have changed := IpTable.holds_change filed range.aligned.base_lt fun clist => e.conf :: keep clist
    have here : IpSubtree.changeAt e.conf.ip (fun clist => e.conf :: keep clist) node =
        { node with conf := e.conf :: node.conf } := by
      rw [IpSubtree.changeAt, if_pos based, kept]
    -- every other node stays as it is
    have holds : ∀ n, ((t.consult e.conf.ip e.conf.ipMask).change e.conf.ip
        fun clist => e.conf :: keep clist).Holds n →
        n = { node with conf := e.conf :: node.conf } ∨ t.Holds n := by
      intro n held
      obtain ⟨old, heldOld, rfl⟩ := (changed n).1 held
      by_cases covered : old.covers e.conf.ip
      · have same := h.filed.unique range.aligned.base_lt heldOld heldNode covered based
        rw [same]
        exact Or.inl here
      · rw [IpSubtree.changeAt, if_neg covered]
        exact Or.inr heldOld
    have newest := (changed _).2 ⟨node, heldNode, here⟩
    refine ⟨IpTable.filed_change filed range.aligned.base_lt _, narrow_cons h fits, ?_, ?_, ?_⟩
    · intro n held c inside
      rcases holds n held with same | old
      · rw [same] at inside ⊢
        rcases List.mem_cons.1 inside with first | rest
        · rw [first]
          exact ⟨List.mem_cons_self, wider, based⟩
        · exact known (n := node) heldNode rest
      · exact known old inside
    · intro k inside
      rcases List.mem_cons.1 inside with first | earlier
      · rw [first]
        exact ⟨_, newest, e.conf, List.mem_cons_self, Serves.refl fits.masked⟩
      · obtain ⟨n, held, c, listed, serves⟩ := h.served k earlier
        by_cases covered : n.covers e.conf.ip
        · have same := h.filed.unique range.aligned.base_lt held heldNode covered based
          exact ⟨_, newest, c, List.mem_cons_of_mem _ (same ▸ listed), serves⟩
        · refine ⟨n, (changed n).2 ⟨n, held, ?_⟩, c, listed, serves⟩
          rw [IpSubtree.changeAt, if_neg covered]
    · intro n held c inside x hx covered
      show (t.consult e.conf.ip e.conf.ipMask).Admits x
      rcases holds n held with same | old
      · rw [same] at inside
        rcases List.mem_cons.1 inside with first | rest
        · rw [first, ConfItem.covers_iff range] at covered
          exact IpTable.consult_admits t range hx covered
        · exact IpTable.admits_consult (h.admits node heldNode c rest x hx covered)
      · exact IpTable.admits_consult (h.admits n old c inside x hx covered)

theorem klineTable_add (h : KlineTable t ks) (fits : FitsKlines t e) :
    KlineTable (addIpKline t e.rand e.conf) (e.conf :: ks) := by
  cases found : t.find e.conf.ip with
  | none => exact klineTable_new h fits found
  | some node => exact klineTable_listed h fits found

end

def ipKlineMachine : Machine IpTable IpKlineEntry where
  step t e := addIpKline t e.rand e.conf

theorem klineTable_empty : KlineTable IpTable.empty [] where
  filed := IpTable.filed_empty
  narrow := fun _ inside => absurd inside List.not_mem_nil
  sound := by
    rintro n ⟨b, inside⟩
    exact absurd inside List.not_mem_nil
  served := fun _ inside => absurd inside List.not_mem_nil
  admits := by
    rintro n ⟨b, inside⟩
    exact absurd inside List.not_mem_nil

theorem klineTable_run {es : List IpKlineEntry}
    (meets : ipKlineMachine.Meets FitsKlines IpTable.empty es) :
    KlineTable (ipKlineMachine.run IpTable.empty es) ((es.map IpKlineEntry.conf).reverse) := by
  apply meets.records (J := fun t past => KlineTable t (past.map IpKlineEntry.conf).reverse)
    (p := [])
  · intro t past e holds fits
    rw [List.map_append, List.reverse_append]
    exact klineTable_add holds fits
  · exact klineTable_empty

theorem scanIpKlines_complete {ip : Nat} {name : CStr} {iWins : Bool} (cl : List ConfItem)
    (klines : ∀ c ∈ cl, c.kill = true) (winner : Option ConfItem)
    (hit : winner.isSome ∨ ∃ c ∈ cl, ip &&& c.ipMask = c.ip ∧ matchMask c.user name = true) :
    (scanIpKlines ip name winner iWins cl).isSome := by
  induction cl generalizing winner iWins with
  | nil =>
    rcases hit with won | ⟨c, inside, -⟩
    · exact won
    · exact absurd inside List.not_mem_nil
  | cons scan rest ih =>
    have rest' : ∀ (w : Option ConfItem) (i : Bool), w.isSome ∨
        (∃ c ∈ rest, ip &&& c.ipMask = c.ip ∧ matchMask c.user name = true) →
          (scanIpKlines ip name w i rest).isSome :=
      fun w _ => ih (fun c inside => klines c (List.mem_cons_of_mem _ inside)) w
    have kill := klines scan List.mem_cons_self
    simp only [scanIpKlines]
    -- an entry that bans or exempts wins; what is passed over is not the hit
    by_cases bans : scan.ip = ip &&& scan.ipMask ∧ matchMask scan.user name = true
    · rw [if_neg (not_not.2 bans.1)]
      by_cases exempt : scan.eLined = true
      · rw [if_pos ⟨exempt, bans.2⟩]
        rfl
      · rw [if_neg fun both => exempt both.1, if_pos ⟨kill, bans.2⟩]
        exact rest' (some scan) false (Or.inl rfl)
    · have later : winner.isSome ∨
          ∃ c ∈ rest, ip &&& c.ipMask = c.ip ∧ matchMask c.user name = true := by
        rcases hit with won | ⟨c, inside, covered, matched⟩
        · exact Or.inl won
        · rcases List.mem_cons.1 inside with same | inside
          · exact absurd ⟨same ▸ covered.symm, same ▸ matched⟩ bans
          · exact Or.inr ⟨c, inside, covered, matched⟩
      split
      · exact rest' _ _ later
      next here =>
        have unmatched : ¬ matchMask scan.user name = true := fun matched =>
          bans ⟨not_not.1 here, matched⟩
        rw [if_neg fun both => unmatched both.2, if_neg fun both => unmatched both.2,
          if_neg fun both => unmatched both.2.1]
        exact rest' _ _ later

/-- In every run of K-lines that are added as they should be, the table answers as a scan
of all of them does. -/
theorem matchIpKline_of_run {es : List IpKlineEntry}
    (meets : ipKlineMachine.Meets FitsKlines IpTable.empty es) {ip : Nat} (hip : ip < 2 ^ 32)
    {name : CStr} (short : name.length < matchMaxCalls) :
    let answer := matchIpKline (ipKlineMachine.run IpTable.empty es) ip (some name)
    (answer.isSome ↔ ∃ e ∈ es, e.conf.bans ip name) ∧
    ∀ k, answer = some k → ∃ e ∈ es, e.conf = k ∧ k.bans ip name := by
  have table := klineTable_run meets
  generalize ipKlineMachine.run IpTable.empty es = t at table
  have inserted : ∀ {k}, k ∈ (es.map IpKlineEntry.conf).reverse → ∃ e ∈ es, e.conf = k := by
    intro k inside
    simpa using inside
  have sound : ∀ k, matchIpKline t ip (some name) = some k →
      ∃ e ∈ es, e.conf = k ∧ k.bans ip name := by
    intro k answer
    simp only [matchIpKline] at answer
    split at answer
    · cases answer
    split at answer
    · cases answer
    next node found =>
      have held := ((IpTable.find_eq_some_iff table.filed hip node).1 found).1
      rcases scanIpKlines_sound _ _ answer with none | ⟨listed, covered, matched⟩
      · cases none
      · have known := (table.sound node held k listed).1
        have narrow := (table.narrow k known).2.2
        obtain ⟨e, inside, same⟩ := inserted known
        exact ⟨e, inside, same, (ConfItem.covers_iff narrow ip).2 covered, matched⟩
  refine ⟨⟨fun answered => ?_, ?_⟩, sound⟩
  · obtain ⟨k, answer⟩ := Option.isSome_iff_exists.1 answered
    obtain ⟨e, inside, same, banned⟩ := sound k answer
    exact ⟨e, inside, same ▸ banned⟩
  · rintro ⟨e, inside, covered, matched⟩
    have known : e.conf ∈ (es.map IpKlineEntry.conf).reverse :=
      List.mem_reverse.2 (List.mem_map_of_mem inside)
    obtain ⟨node, held, c, listed, serves⟩ := table.served e.conf known
    obtain ⟨known', finer, based⟩ := table.sound node held c listed
    have narrow := (table.narrow c known').2.2
    have covers := serves.covers narrow (table.narrow _ known).2.2 hip covered
    have covers' := (ConfItem.covers_iff narrow ip).1 covers
    have inNode : node.covers ip := Dyadic.covers_trans (table.filed.narrow node held).aligned
      narrow.aligned finer based hip covers'
    have admitted := table.admits node held c listed ip hip covers
    have user : matchMask c.user name = true := by
      rcases serves.user with star | same
      · rw [star]
        exact matchMask_star short
      · rw [same]
        exact matched
    simp only [matchIpKline]
    rw [if_neg (by rw [Nat.and_comm]; exact not_not.2 admitted),
      (IpTable.find_eq_some_iff table.filed hip node).2 ⟨held, inNode⟩]
    apply scanIpKlines_complete _ _ _ (Or.inr ⟨c, listed, covers', user⟩)
    intro c' listed'
    exact (table.narrow c' (table.sound node held c' listed').1).1

/-- A K-line on the first `bits` bits of an address. -/
def klineOn (ip bits : Nat) (user : String) (short : bits ≤ 32) : IpKlineEntry where
  conf := { client := false, kill := true, eLined := false, ip,
            ipMask := cidrToBitmask bits, host := [], user := lit user }
  rand := fun _ => true
  kline := ⟨rfl, rfl, rfl⟩
  mask := ⟨bits, short, rfl⟩

theorem short16 : 16 ≤ 32 := by decide

theorem short24 : 24 ≤ 32 := by decide

theorem short25 : 25 ≤ 32 := by decide

/-- The last one is left out: of the two general entries only the first has its address. -/
def nestedKlines : List IpKlineEntry :=
  [klineOn 0x0a010000 16 "a" short16, klineOn 0x0a010200 24 "*" short24,
    klineOn 0x0a010300 24 "*" short24, klineOn 0x0a010280 25 "b" short25]

theorem nestedKlines_meets : ipKlineMachine.Meets FitsKlines IpTable.empty nestedKlines :=
  ⟨by decide, by decide +kernel, by decide +kernel, by decide +kernel, trivial⟩

theorem matchIpKline_nested :
    let answer := matchIpKline (ipKlineMachine.run IpTable.empty nestedKlines) 0x0a010203
      (some (lit "b"))
    (answer.isSome ↔ ∃ e ∈ nestedKlines, e.conf.bans 0x0a010203 (lit "b")) ∧
    ∀ k, answer = some k → ∃ e ∈ nestedKlines, e.conf = k ∧ k.bans 0x0a010203 (lit "b") :=
  matchIpKline_of_run nestedKlines_meets (by decide) (by decide)

/-- `*@10.2.3.0/24` is left out for `*@10.1.0.0/16`, which is found in the same list. -/
theorem ip_kline_left_out : ¬ ∀ (es : List IpKlineEntry) (ip : Nat) (name : CStr),
    ip < 2 ^ 32 → name.length < matchMaxCalls →
    let answer := matchIpKline (ipKlineMachine.run IpTable.empty es) ip (some name)
    (answer.isSome ↔ ∃ e ∈ es, e.conf.bans ip name) ∧
    ∀ k, answer = some k → ∃ e ∈ es, e.conf = k ∧ k.bans ip name := by
  intro claimed
  have both := claimed
    [klineOn 0x0a000000 8 "a" (by decide), klineOn 0x0a010000 16 "*" (by decide),
      klineOn 0x0a020300 24 "*" (by decide)] 0x0a020304 (lit "b") (by decide) (by decide)
  have answered := both.1.2 ⟨klineOn 0x0a020300 24 "*" (by decide), by simp, by decide, by decide⟩
  revert answered
  decide +kernel

end Ircd
