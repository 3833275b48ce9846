import Ircd.Conf.Gline
import Mathlib.Data.List.Pairwise

/-! When three votes place a G-line, over runs.

The requests are recorded as they come. A G-line is due where three of them that have not
expired are for the mask, from three servers and by three opers; it is placed exactly when
it is due if each request `Fits` what was asked before it.
-/

set_option autoImplicit false

namespace Ircd

namespace GlineRequest

def SameMask (r r' : GlineRequest) : Prop :=
  irccmp r.user r'.user = .eq ∧ irccmp r.host r'.host = .eq

def SameOper (r r' : GlineRequest) : Prop :=
  irccmp r.operUser r'.operUser = .eq ∧ irccmp r.operHost r'.operHost = .eq

def SameServer (r r' : GlineRequest) : Prop := irccmp r.operServer r'.operServer = .eq

def Unexpired (r : GlineRequest) (now : Int) : Prop := now < r.time + glinePendingExpire

instance (r r' : GlineRequest) : Decidable (r.SameMask r') := inferInstanceAs (Decidable (_ ∧ _))
instance (r r' : GlineRequest) : Decidable (r.SameOper r') := inferInstanceAs (Decidable (_ ∧ _))
instance (r r' : GlineRequest) : Decidable (r.SameServer r') :=
  inferInstanceAs (Decidable (_ = _))
instance (r : GlineRequest) (now : Int) : Decidable (r.Unexpired now) :=
  inferInstanceAs (Decidable (_ < _))

theorem SameMask.refl (r : GlineRequest) : r.SameMask r := ⟨irccmp_self _, irccmp_self _⟩

variable {r r' r'' : GlineRequest}

theorem SameMask.symm (h : r.SameMask r') : r'.SameMask r := ⟨irccmp_comm h.1, irccmp_comm h.2⟩

theorem SameMask.trans (h : r.SameMask r') (h' : r'.SameMask r'') : r.SameMask r'' :=
  ⟨irccmp_trans h.1 h'.1, irccmp_trans h.2 h'.2⟩

def marking : Marking GlineRequest where
  left := SameOper
  right := SameServer
  left_symm h := ⟨irccmp_comm h.1, irccmp_comm h.2⟩
  left_trans h h' := ⟨irccmp_trans h.1 h'.1, irccmp_trans h.2 h'.2⟩
  right_symm h := irccmp_comm h
  right_trans h h' := irccmp_trans h h'

theorem clash_self (r : GlineRequest) : marking.Clash r r :=
  Or.inl ⟨irccmp_self _, irccmp_self _⟩

end GlineRequest

open GlineRequest

structure PastRequest where
  request : GlineRequest
  covered : Bool
  deriving DecidableEq, Repr

structure GlineWorld where
  state : GlineState
  past : List PastRequest

def Gline.inForce (glines : List Gline) (now : Int) (host name : CStr) : Bool :=
  glines.any fun g => decide (now < g.hold) && g.covers host name

structure Gline.Purged (now : Int) (glines rest : List Gline) : Prop where
  part : rest.Sublist glines
  kept : ∀ g ∈ glines, now < g.hold → g ∈ rest

namespace Gline

variable {now : Int} {host name : CStr} {glines rest rest' : List Gline}

theorem Purged.refl (now : Int) (glines : List Gline) : Purged now glines glines :=
  ⟨List.Sublist.refl _, fun _ inside _ => inside⟩

theorem Purged.trans (h : Purged now glines rest) (h' : Purged now rest rest') :
    Purged now glines rest' :=
  ⟨h'.part.trans h.part, fun g inside later => h'.kept g (h.kept g inside later) later⟩

theorem inForce_iff : inForce glines now host name = true ↔
    ∃ g ∈ glines, now < g.hold ∧ g.covers host name = true := by
  simp [inForce]

theorem Purged.inForce_eq (h : Purged now glines rest) (host name : CStr) :
    inForce rest now host name = inForce glines now host name := by
  rw [Bool.eq_iff_iff, inForce_iff, inForce_iff]
  constructor
  · rintro ⟨g, inside, later, covers⟩
    exact ⟨g, h.part.subset inside, later, covers⟩
  · rintro ⟨g, inside, later, covers⟩
    exact ⟨g, h.kept g inside later, later, covers⟩

theorem findIsGlined_eq (now : Int) (host name : CStr) (glines : List Gline) :
    (findIsGlined now host name glines).1 = inForce glines now host name ∧
      Purged now glines (findIsGlined now host name glines).2 := by
  induction glines with
  | nil => exact ⟨rfl, Purged.refl _ _⟩
  | cons g glines ih =>
    unfold findIsGlined
    split
    · next expired =>
      have dead : ¬ now < g.hold := Int.not_lt.2 expired
      constructor
      · rw [ih.1]
        simp [inForce, dead]
      · refine ⟨ih.2.part.cons g, fun g' inside later => ?_⟩
        rcases List.mem_cons.1 inside with rfl | inside
        · exact absurd later dead
        · exact ih.2.kept g' inside later
    · next expired =>
      have alive : now < g.hold := Int.not_le.1 expired
      split
      · next covers => exact ⟨by simp [inForce, alive, covers], Purged.refl _ _⟩
      · next covers =>
        constructor
        · dsimp only
          rw [ih.1]
          simp [inForce, covers]
        · refine ⟨ih.2.part.cons_cons g, fun g' inside later => ?_⟩
          rcases List.mem_cons.1 inside with rfl | inside
          · exact List.mem_cons_self
          · exact List.mem_cons_of_mem g (ih.2.kept g' inside later)

theorem covers_congr (g : Gline) {r r' : GlineRequest} (same : r.SameMask r') :
    g.covers r'.host r'.user = g.covers r.host r.user := by
  unfold covers
  rw [matchMask_congr g.name same.1, matchMask_congr g.host same.2]

end Gline

namespace GlinePending

def first (p : GlinePending) : GlineRequest where
  operUser := p.operUser1
  operHost := p.operHost1
  operServer := p.operServer1
  user := p.user
  host := p.host
  time := p.lastGlineTime

def second (p : GlinePending) : GlineRequest where
  operUser := p.operUser2
  operHost := p.operHost2
  operServer := p.operServer2
  user := p.user
  host := p.host
  time := p.lastGlineTime

def live (glines : List Gline) (now : Int) (p : GlinePending) : Bool :=
  decide (now < p.lastGlineTime + glinePendingExpire) && !Gline.inForce glines now p.host p.user

end GlinePending

theorem expirePendingGlines_eq (now : Int) (glines : List Gline) (pending : List GlinePending) :
    (expirePendingGlines now glines pending).2 = pending.filter (GlinePending.live glines now) ∧
      Gline.Purged now glines (expirePendingGlines now glines pending).1 := by
  induction pending generalizing glines with
  | nil => exact ⟨rfl, Gline.Purged.refl _ _⟩
  | cons p pending ih =>
    unfold expirePendingGlines
    split
    · next expired =>
      have dead : ¬ now < p.lastGlineTime + glinePendingExpire := Int.not_lt.2 expired
      obtain ⟨list, purged⟩ := ih glines
      refine ⟨?_, purged⟩
      rw [list, List.filter_cons_of_neg]
      simp [GlinePending.live, dead]
    · next expired =>
      have alive : now < p.lastGlineTime + glinePendingExpire := Int.not_le.1 expired
      obtain ⟨found, purged⟩ := Gline.findIsGlined_eq now p.host p.user glines
      obtain ⟨list, purged'⟩ := ih (findIsGlined now p.host p.user glines).2
      have same : GlinePending.live (findIsGlined now p.host p.user glines).2 now =
          GlinePending.live glines now := by
        funext q
        unfold GlinePending.live
        rw [purged.inForce_eq]
      rw [same] at list
      dsimp only
      rw [found]
      split
      · next served =>
        refine ⟨?_, purged.trans purged'⟩
        rw [list, List.filter_cons_of_neg]
        simp [GlinePending.live, served]
      · next served =>
        refine ⟨?_, purged.trans purged'⟩
        dsimp only
        rw [list, List.filter_cons_of_pos]
        simp [GlinePending.live, alive, served]

theorem findOrAdd_eq {scache : List CStr} {name : CStr} (fits : name.length ≤ hostLen) :
    irccmp (findOrAdd scache name).2 name = .eq := by
  unfold findOrAdd
  cases found : scache.find? fun n => irccmp n name == .eq with
  | some n => simpa using List.find?_some found
  | none =>
    dsimp only
    rw [strncpyIrc, List.take_of_length_le fits]
    exact irccmp_self name

namespace GlineState

def seconded (p : GlinePending) (r : GlineRequest) (server : CStr) : GlinePending :=
  { p with
    operUser2 := strncpyIrc r.operUser userLen
    operHost2 := strncpyIrc r.operHost hostLen
    operServer2 := server
    lastGlineTime := r.time }

/-- What a request does to the entries that are left, and whether the G-line is placed. -/
inductive Turn (r : GlineRequest) (pending : List GlinePending) (covered : Bool) :
    List GlinePending → Bool → Prop where
  | fresh {server : CStr} (named : irccmp server r.operServer = .eq)
      (alone : ∀ p ∈ pending, ¬ p.first.SameMask r) :
      Turn r pending covered (newPending r server :: pending) false
  | voted {p : GlinePending} (inside : p ∈ pending) (mask : p.first.SameMask r)
      (clash : marking.Clash p.first r ∨ p.operUser2 ≠ [] ∧ marking.Clash p.second r) :
      Turn r pending covered pending false
  | second {pre post : List GlinePending} {p : GlinePending} {server : CStr}
      (split : pending = pre ++ p :: post) (mask : p.first.SameMask r)
      (named : irccmp server r.operServer = .eq) (single : p.operUser2 = [])
      (apart : ¬ marking.Clash p.first r) :
      Turn r pending covered (pre ++ seconded p r server :: post) false
  | third {p : GlinePending} (inside : p ∈ pending) (mask : p.first.SameMask r)
      (double : p.operUser2 ≠ []) (apart : ¬ marking.Clash p.first r)
      (apart' : ¬ marking.Clash p.second r) : Turn r pending covered pending !covered

variable {r : GlineRequest} {server : CStr} {pending : List GlinePending}

theorem ballots_none (none : ballots r server pending = none) :
    ∀ p ∈ pending, ¬ p.first.SameMask r := by
  induction pending with
  | nil => exact fun _ absurdity => by cases absurdity
  | cons q pending ih =>
    unfold ballots at none
    split at none
    · split at none
      · cases none
      · cases none
    · next other =>
      rw [Option.map_eq_none_iff] at none
      intro p inside
      rcases List.mem_cons.1 inside with rfl | inside
      · exact other
      · exact ih none p inside

theorem ballots_some {pending' : List GlinePending} {vote : Ballot}
    (found : ballots r server pending = some (pending', vote)) :
    ∃ pre p post, pending = pre ++ p :: post ∧ p.first.SameMask r ∧ vote = ballot p r server ∧
      (vote = .second (seconded p r server) → pending' = pre ++ seconded p r server :: post) := by
  induction pending generalizing pending' with
  | nil => cases found
  | cons q pending ih =>
    unfold ballots at found
    split at found
    · next mask =>
      refine ⟨[], q, pending, rfl, mask, ?_⟩
      split at found
      · next p' cast =>
        obtain ⟨rfl, rfl⟩ := Prod.mk.inj (Option.some.inj found)
        refine ⟨cast.symm, fun same => ?_⟩
        rw [Ballot.second.inj same]
        rfl
      · next cast =>
        obtain ⟨rfl, rfl⟩ := Prod.mk.inj (Option.some.inj found)
        exact ⟨rfl, fun same => absurd same (cast _)⟩
    · rw [Option.map_eq_some_iff] at found
      obtain ⟨⟨rest, vote'⟩, found, same⟩ := found
      obtain ⟨rfl, rfl⟩ := Prod.mk.inj same
      obtain ⟨pre, p, post, split, mask, cast, put⟩ := ih found
      refine ⟨q :: pre, p, post, by rw [split, List.cons_append], mask, cast, fun same => ?_⟩
      rw [put same, List.cons_append]

theorem ballot_cases (p : GlinePending) (r : GlineRequest) (server : CStr) :
    (ballot p r server = .voted ∧
      (marking.Clash p.first r ∨ p.operUser2 ≠ [] ∧ marking.Clash p.second r)) ∨
    (ballot p r server = .second (seconded p r server) ∧ p.operUser2 = [] ∧
      ¬ marking.Clash p.first r) ∨
    (ballot p r server = .third ∧ p.operUser2 ≠ [] ∧ ¬ marking.Clash p.first r ∧
      ¬ marking.Clash p.second r) := by
  unfold ballot
  split
  · next clash => exact Or.inl ⟨rfl, Or.inl clash⟩
  · next apart =>
    split
    · next double =>
      split
      · next clash => exact Or.inl ⟨rfl, Or.inr ⟨double, clash⟩⟩
      · next apart' => exact Or.inr (Or.inr ⟨rfl, double, apart, apart'⟩)
    · next single => exact Or.inr (Or.inl ⟨rfl, not_not.1 single, apart⟩)

/-- The step of the lists: the entries that have expired or been served go, and the request takes
its turn with those that are left. -/
theorem majorityGline_turn (s : GlineState) {r : GlineRequest}
    (fits : r.operServer.length ≤ hostLen) :
    Turn r (s.pendingGlines.filter (GlinePending.live s.glines r.time)) (s.covered r)
      (s.majorityGline r).1.pendingGlines (s.majorityGline r).2 ∧
    Gline.Purged r.time s.glines (s.majorityGline r).1.glines := by
  unfold majorityGline
  by_cases empty : s.pendingGlines = []
  · rw [if_pos empty]
    refine ⟨?_, Gline.Purged.refl _ _⟩
    have turn := @Turn.fresh r [] (s.covered r) (findOrAdd s.scache r.operServer).2
      (findOrAdd_eq fits) fun _ absurdity => by cases absurdity
    simpa only [addNewMajorityGline, empty, List.filter_nil] using turn
  · rw [if_neg empty]
    obtain ⟨list, purged⟩ := expirePendingGlines_eq r.time s.glines s.pendingGlines
    rw [← list]
    generalize expirePendingGlines r.time s.glines s.pendingGlines = left at purged ⊢
    obtain ⟨glines, pending⟩ := left
    dsimp only at purged ⊢
    have named := @findOrAdd_eq s.scache r.operServer fits
    cases found : ballots r (findOrAdd s.scache r.operServer).2 pending with
    | none => exact ⟨Turn.fresh named (ballots_none found), purged⟩
    | some result =>
      obtain ⟨pending', vote⟩ := result
      obtain ⟨pre, p, post, split, mask, cast, put⟩ := ballots_some found
      have inside : p ∈ pending := split ▸ List.mem_append_right _ List.mem_cons_self
      rcases ballot_cases p r (findOrAdd s.scache r.operServer).2 with
        ⟨voted, clash⟩ | ⟨second, single, apart⟩ | ⟨third, double, apart, apart'⟩
      · obtain rfl : vote = .voted := cast.trans voted
        exact ⟨Turn.voted inside mask clash, purged⟩
      · obtain rfl : vote = .second _ := cast.trans second
        obtain rfl := put rfl
        exact ⟨Turn.second split mask named single apart, purged⟩
      · obtain rfl : vote = .third := cast.trans third
        obtain ⟨served, purged'⟩ := Gline.findIsGlined_eq r.time r.host r.user glines
        have same : (findIsGlined r.time r.host r.user glines).1 = s.covered r := by
          rw [served, purged.inForce_eq]
          rfl
        dsimp only
        rw [same]
        exact ⟨Turn.third inside mask double apart apart', purged.trans purged'⟩

def gline (r : GlineRequest) : Gline :=
  { name := r.user, host := r.host, hold := r.time + glineTime }

theorem mGline_turn (s : GlineState) {r : GlineRequest} (fits : r.operServer.length ≤ hostLen) :
    Turn r (s.pendingGlines.filter (GlinePending.live s.glines r.time)) (s.covered r)
      (s.mGline r).1.pendingGlines (s.mGline r).2 ∧
    ∃ glines, Gline.Purged r.time s.glines glines ∧
      (s.mGline r).1.glines = if (s.mGline r).2 then gline r :: glines else glines := by
  obtain ⟨turn, purged⟩ := s.majorityGline_turn fits
  unfold mGline
  generalize s.majorityGline r = result at turn purged ⊢
  obtain ⟨s', placed⟩ := result
  cases placed with
  | false => exact ⟨turn, s'.glines, purged, rfl⟩
  | true => exact ⟨turn, s'.glines, purged, rfl⟩

end GlineState

namespace GlineWorld

def ask (w : GlineWorld) (r : GlineRequest) : GlineWorld where
  state := (w.state.mGline r).1
  past := { request := r, covered := w.state.covered r } :: w.past

def event (w : GlineWorld) (e : Int × GlineCommand) : GlineWorld :=
  match e.2.request e.1 with
  | none => w
  | some r => w.ask r

def machine : Machine GlineWorld (Int × GlineCommand) where
  step := event

def startUp (scache : List CStr) : GlineWorld where
  state := { pendingGlines := [], glines := [], scache := scache }
  past := []

/-- A request for the mask of `r`, that of `r` among them, that has not expired. -/
def Vote (w : GlineWorld) (r q : GlineRequest) : Prop :=
  (q = r ∨ ∃ p ∈ w.past, p.request = q) ∧ q.SameMask r ∧ q.Unexpired r.time

def Due (w : GlineWorld) (r : GlineRequest) : Prop := ∃ a b c, marking.Triple (w.Vote r) a b c

/-- The requests for the mask of `r` that have not expired when it comes. -/
def Standing (w : GlineWorld) (r : GlineRequest) (p : PastRequest) : Prop :=
  p ∈ w.past ∧ p.request.SameMask r ∧ p.request.Unexpired r.time

structure Fits (w : GlineWorld) (r : GlineRequest) : Prop where
  /-- Each name fits its buffer, and an oper has a username. -/
  names : r.operUser.length ≤ userLen ∧ r.operHost.length ≤ hostLen ∧
    r.operServer.length ≤ hostLen ∧ r.user.length ≤ userLen ∧ r.host.length ≤ hostLen
  named : r.operUser ≠ []
  /-- The clock does not go back. -/
  clock : ∀ p ∈ w.past, p.request.time ≤ r.time
  /-- Requests for a mask come within ten minutes of the first, or ten minutes after the last. -/
  rounds : ∀ p ∈ w.past, ∀ q ∈ w.past, p.request.SameMask r → q.request.SameMask r →
    p.request.Unexpired q.request.time → q.request.Unexpired r.time →
      p.request.Unexpired r.time
  /-- No request for the mask has its oper in common with one and its server with another. -/
  whole : ∀ a b c, w.Vote r a → w.Vote r b → w.Vote r c → ¬ marking.Split a b c
  /-- A mask that was covered when it was asked for is still covered. -/
  cover : ∀ p, w.Standing r p → p.covered = true → w.state.covered r = true
  /-- The mask is matched by itself. -/
  self : matchMask r.user r.user = true ∧ matchMask r.host r.host = true

structure Counts (w : GlineWorld) (m : GlineRequest) (q : PastRequest) : Prop where
  inside : q ∈ w.past
  mask : q.request.SameMask m
  recent : ∀ p ∈ w.past, p.request.SameMask m → q.request.Unexpired p.request.time

/-- As long as the request counts, a G-line that covered it or that was placed since does. -/
inductive Spent (w : GlineWorld) (p : PastRequest) : Prop where
  | before (covered : p.covered = true)
  | served {g : Gline} (inside : g ∈ w.state.glines)
      (covers : g.covers p.request.host p.request.user = true)
      (lasts : p.request.time + glinePendingExpire ≤ g.hold)
  | elapsed {z : PastRequest} (inside : z ∈ w.past)
      (late : p.request.time + glinePendingExpire ≤ z.request.time)

/-- The entry for the mask holds two requests that leave no third, or one twice that leaves no
second. -/
structure Held (w : GlineWorld) (m : GlineRequest) (p : GlinePending) (v u : PastRequest) :
    Prop where
  inside : p ∈ w.state.pendingGlines
  mask : p.first.SameMask m
  counts : w.Counts m v ∧ w.Counts m u
  first : marking.left p.first v.request ∧ marking.right p.first v.request
  single : p.operUser2 = [] → u = v
  second : p.operUser2 ≠ [] → marking.left p.second u.request ∧ marking.right p.second u.request ∧
    ¬ marking.Clash v.request u.request
  dated : p.lastGlineTime = u.request.time
  turnedAway : ∀ z, w.Counts m z →
    marking.Clash v.request z.request ∨ marking.Clash u.request z.request

structure Tracked (w : GlineWorld) : Prop where
  unique : w.state.pendingGlines.Pairwise fun p q => ¬ p.first.SameMask q.first
  dated : ∀ p ∈ w.state.pendingGlines, ∃ q ∈ w.past, q.request.SameMask p.first ∧
    q.request.time = p.lastGlineTime
  placed : ∀ g ∈ w.state.glines, ∀ q ∈ w.past, g.covers q.request.host q.request.user = true →
    q.covered = true ∨ g.hold ≤ q.request.time ∨
      q.request.time + glinePendingExpire ≤ g.hold
  kept : ∀ m q, w.Counts m q → (∃ p, w.Counts m p ∧ w.Spent p) ∨ ∃ p v u, w.Held m p v u

variable {w : GlineWorld} {r : GlineRequest} {p q : PastRequest}

theorem Standing.counts (standing : w.Standing r q) (fits : w.Fits r) : w.Counts r q where
  inside := standing.1
  mask := standing.2.1
  recent p inside _ := lt_of_le_of_lt (fits.clock p inside) standing.2.2

theorem Counts.standing (counts : w.Counts r p) (fits : w.Fits r) (standing : w.Standing r q) :
    w.Standing r p :=
  ⟨counts.inside, counts.mask,
    fits.rounds p counts.inside q standing.1 counts.mask standing.2.1
      (counts.recent q standing.1 standing.2.1) standing.2.2⟩

/-- The G-line of a request that is spent is in force while the request stands. -/
theorem Spent.covered (spent : w.Spent p) (fits : w.Fits r) (standing : w.Standing r p) :
    w.state.covered r = true := by
  have unexpired : r.time < p.request.time + glinePendingExpire := standing.2.2
  cases spent with
  | before covered => exact fits.cover p standing covered
  | @served g inside covers lasts =>
    rw [← g.covers_congr standing.2.1] at covers
    exact Gline.inForce_iff.2 ⟨g, inside, lt_of_lt_of_le unexpired lasts, covers⟩
  | @elapsed z inside late =>
    have earlier := fits.clock z inside
    omega

theorem Tracked.held (tracked : w.Tracked) (fits : w.Fits r) (standing : w.Standing r q)
    (bare : w.state.covered r = false) : ∃ p v u, w.Held r p v u := by
  rcases tracked.kept r q (standing.counts fits) with ⟨p, counts, spent⟩ | held
  · have covered := spent.covered fits (counts.standing fits standing)
    rw [bare] at covered
    cases covered
  · exact held

theorem Vote.standing {a : GlineRequest} (vote : w.Vote r a) :
    a = r ∨ ∃ p, w.Standing r p ∧ p.request = a := by
  obtain ⟨rfl | ⟨p, inside, rfl⟩, mask, unexpired⟩ := vote
  · exact Or.inl rfl
  · exact Or.inr ⟨p, ⟨inside, mask, unexpired⟩, rfl⟩

theorem Standing.vote (standing : w.Standing r p) : w.Vote r p.request :=
  ⟨Or.inr ⟨p, standing.1, rfl⟩, standing.2⟩

theorem vote_self (w : GlineWorld) (r : GlineRequest) : w.Vote r r :=
  ⟨Or.inl rfl, SameMask.refl r, by simp [Unexpired, glinePendingExpire]⟩

theorem Due.standing (due : w.Due r) : ∃ q, w.Standing r q := by
  obtain ⟨a, b, c, triple⟩ := due
  rcases triple.cast.1.standing with first | ⟨p, standing, -⟩
  · rcases triple.cast.2.1.standing with second | ⟨p, standing, -⟩
    · have apart := triple.first
      rw [first, second] at apart
      exact absurd (clash_self r) apart
    · exact ⟨p, standing⟩
  · exact ⟨p, standing⟩

theorem not_due (fits : w.Fits r) {a b : GlineRequest} (voteA : w.Vote r a) (voteB : w.Vote r b)
    (turnedAway : ∀ q, w.Standing r q → marking.Clash a q.request ∨ marking.Clash b q.request)
    (clash : marking.Clash a r ∨ marking.Clash b r) : ¬ w.Due r := by
  rintro ⟨x, y, z, triple⟩
  refine Marking.no_triple fits.whole voteA voteB (fun u vote => ?_) triple
  rcases vote.standing with rfl | ⟨q, standing, rfl⟩
  · exact clash
  · exact turnedAway q standing

/-- What a request finds whose mask is not covered, and what it makes of it. -/
inductive Finds (w : GlineWorld) (r : GlineRequest) (pending : List GlinePending) :
    List GlinePending → Bool → Prop where
  | fresh {server : CStr} (named : irccmp server r.operServer = .eq)
      (first : ∀ q, ¬ w.Standing r q) :
      Finds w r pending (GlineState.newPending r server :: pending) false
  | voted {e : GlinePending} {v u : PastRequest} (held : w.Held r e v u) (inside : e ∈ pending)
      (clash : marking.Clash v.request r ∨ marking.Clash u.request r) :
      Finds w r pending pending false
  | second {pre post : List GlinePending} {e : GlinePending} {v : PastRequest} {server : CStr}
      (split : pending = pre ++ e :: post) (held : w.Held r e v v)
      (named : irccmp server r.operServer = .eq) (apart : ¬ marking.Clash v.request r) :
      Finds w r pending (pre ++ GlineState.seconded e r server :: post) false
  | third {e : GlinePending} {v u : PastRequest} (held : w.Held r e v u) (inside : e ∈ pending)
      (apart : ¬ marking.Clash v.request r) (apart' : ¬ marking.Clash u.request r)
      (different : ¬ marking.Clash v.request u.request) :
      Finds w r pending pending true

def leftOver (w : GlineWorld) (r : GlineRequest) : List GlinePending :=
  w.state.pendingGlines.filter (GlinePending.live w.state.glines r.time)

theorem Tracked.standing (tracked : w.Tracked) {e : GlinePending} (inside : e ∈ w.leftOver r)
    (mask : e.first.SameMask r) : ∃ q, w.Standing r q := by
  obtain ⟨inside, live⟩ := List.mem_filter.1 inside
  obtain ⟨q, past, same, time⟩ := tracked.dated e inside
  have unexpired : r.time < e.lastGlineTime + glinePendingExpire := by
    simp only [GlinePending.live, Bool.and_eq_true, decide_eq_true_eq] at live
    exact live.1
  exact ⟨q, past, same.trans mask, show r.time < _ by rw [time]; exact unexpired⟩

variable {e : GlinePending} {v u : PastRequest}

theorem Held.leftOver (held : w.Held r e v u) (fits : w.Fits r) (standing : w.Standing r q)
    (bare : w.state.covered r = false) : e ∈ w.leftOver r := by
  have unexpired : r.time < u.request.time + glinePendingExpire :=
    (held.counts.2.standing fits standing).2.2
  have served : Gline.inForce w.state.glines r.time e.host e.user = false := by
    rw [← bare]
    unfold Gline.inForce GlineState.covered
    congr 1
    funext g
    have same := g.covers_congr held.mask
    rw [show g.covers e.host e.user = g.covers r.host r.user from same.symm]
  refine List.mem_filter.2 ⟨held.inside, ?_⟩
  simp [GlinePending.live, held.dated, unexpired, served]

theorem Tracked.entry (tracked : w.Tracked) {e' : GlinePending} (inside : e ∈ w.leftOver r)
    (held : w.Held r e' v u) (mask : e.first.SameMask r) : e = e' := by
  have symmetric : Std.Symm fun p q : GlinePending => ¬ p.first.SameMask q.first :=
    ⟨fun p q apart same => apart same.symm⟩
  by_contra different
  exact tracked.unique.forall (List.mem_filter.1 inside).1 held.inside different
    (mask.trans held.mask.symm)

theorem Tracked.finds (tracked : w.Tracked) (fits : w.Fits r)
    (bare : w.state.covered r = false) :
    w.Finds r (w.leftOver r) (w.state.mGline r).1.pendingGlines (w.state.mGline r).2 := by
  obtain ⟨turn, -⟩ := w.state.mGline_turn fits.names.2.2.1
  rw [bare] at turn
  generalize (w.state.mGline r).2 = placed, (w.state.mGline r).1.pendingGlines = left at turn ⊢
  change GlineState.Turn r (w.leftOver r) false left placed at turn
  -- one case for each way the loop over the pending G-lines ends
  cases turn with
  | fresh named alone =>
    refine Finds.fresh named fun q standing => ?_
    obtain ⟨e, v, u, held⟩ := tracked.held fits standing bare
    exact alone e (held.leftOver fits standing bare) held.mask
  | @voted e inside mask clash =>
    obtain ⟨q, standing⟩ := tracked.standing inside mask
    obtain ⟨e', v, u, held⟩ := tracked.held fits standing bare
    obtain rfl := tracked.entry inside held mask
    refine Finds.voted held inside ?_
    rcases clash with clash | ⟨double, clash⟩
    · have same := held.first
      exact Or.inl (clash.congr_left (marking.left_symm same.1) (marking.right_symm same.2))
    · have same := held.second double
      exact Or.inr (clash.congr_left (marking.left_symm same.1) (marking.right_symm same.2.1))
  | @second pre post e server split mask named single apart =>
    have inside : e ∈ w.leftOver r := split ▸ List.mem_append_right _ List.mem_cons_self
    obtain ⟨q, standing⟩ := tracked.standing inside mask
    obtain ⟨e', v, u, held⟩ := tracked.held fits standing bare
    obtain rfl := tracked.entry inside held mask
    obtain rfl := held.single single
    exact Finds.second split held named fun clash =>
      apart (clash.congr_left held.first.1 held.first.2)
  | @third e inside mask double apart apart' =>
    obtain ⟨q, standing⟩ := tracked.standing inside mask
    obtain ⟨e', v, u, held⟩ := tracked.held fits standing bare
    obtain rfl := tracked.entry inside held mask
    have second := held.second double
    exact Finds.third held inside (fun clash => apart (clash.congr_left held.first.1 held.first.2))
      (fun clash => apart' (clash.congr_left second.1 second.2.1)) second.2.2

theorem Tracked.decided (tracked : w.Tracked) (fits : w.Fits r) :
    (w.state.mGline r).2 = true ↔ w.state.covered r = false ∧ w.Due r := by
  cases bare : w.state.covered r with
  | true =>
    obtain ⟨turn, -⟩ := w.state.mGline_turn fits.names.2.2.1
    rw [bare] at turn
    generalize (w.state.mGline r).2 = placed, (w.state.mGline r).1.pendingGlines = left at turn
    cases turn <;> simp
  | false =>
    have finds := tracked.finds fits bare
    generalize (w.state.mGline r).2 = placed, (w.state.mGline r).1.pendingGlines = left at finds
    -- only the third vote places the G-line, and only then are there three
    cases finds with
    | fresh named first =>
      have nothing : ¬ w.Due r := fun due => due.standing.elim first
      simp [nothing]
    | @voted e v u held inside clash =>
      have nothing : ¬ w.Due r := fun due => by
        obtain ⟨q, standing⟩ := due.standing
        exact not_due fits (held.counts.1.standing fits standing).vote
          (held.counts.2.standing fits standing).vote
          (fun z standing => held.turnedAway z (standing.counts fits)) clash due
      simp [nothing]
    | @second pre post e v server split held named apart =>
      have nothing : ¬ w.Due r := fun due => by
        obtain ⟨q, standing⟩ := due.standing
        refine not_due fits (held.counts.1.standing fits standing).vote (vote_self w r)
          (fun z standing => ?_) (Or.inr (clash_self r)) due
        exact Or.inl ((held.turnedAway z (standing.counts fits)).elim id id)
      simp [nothing]
    | @third e v u held inside apart apart' different =>
      have due : w.Due r := by
        obtain ⟨q, standing⟩ := tracked.standing inside held.mask
        have voteV := (held.counts.1.standing fits standing).vote
        have voteU := (held.counts.2.standing fits standing).vote
        exact ⟨v.request, u.request, r, ⟨voteV, voteU, vote_self w r⟩, different, apart, apart'⟩
      simp [due]

instance (r r' : GlineRequest) : Decidable (marking.left r r') :=
  inferInstanceAs (Decidable (r.SameOper r'))

instance (r r' : GlineRequest) : Decidable (marking.right r r') :=
  inferInstanceAs (Decidable (r.SameServer r'))

instance (a b : GlineRequest) : Decidable (marking.Clash a b) := inferInstanceAs (Decidable (_ ∨ _))

instance (a b c : GlineRequest) : Decidable (marking.Split a b c) :=
  decidable_of_iff (marking.left a b ∧ ¬ marking.right a b ∧ marking.right a c ∧
      ¬ marking.left a c)
    ⟨fun h => ⟨h.1, h.2.1, h.2.2.1, h.2.2.2⟩, fun h => ⟨h.left, h.notRight, h.right, h.notLeft⟩⟩

def votes (w : GlineWorld) (r : GlineRequest) : List GlineRequest :=
  (r :: w.past.map (·.request)).filter fun q => decide (q.SameMask r ∧ q.Unexpired r.time)

theorem mem_votes {a : GlineRequest} : a ∈ w.votes r ↔ w.Vote r a := by
  simp [votes, Vote]

instance (w : GlineWorld) (r : GlineRequest) : Decidable (w.Due r) :=
  decidable_of_iff (∃ a ∈ w.votes r, ∃ b ∈ w.votes r, ∃ c ∈ w.votes r,
      ¬ marking.Clash a b ∧ ¬ marking.Clash a c ∧ ¬ marking.Clash b c) <| by
    simp only [mem_votes]
    constructor
    · rintro ⟨a, voteA, b, voteB, c, voteC, first, second, third⟩
      exact ⟨a, b, c, ⟨voteA, voteB, voteC⟩, first, second, third⟩
    · rintro ⟨a, b, c, ⟨voteA, voteB, voteC⟩, first, second, third⟩
      exact ⟨a, voteA, b, voteB, c, voteC, first, second, third⟩

instance (w : GlineWorld) (r : GlineRequest) (p : PastRequest) : Decidable (w.Standing r p) :=
  inferInstanceAs (Decidable (_ ∧ _ ∧ _))

instance (w : GlineWorld) (r : GlineRequest) : Decidable (w.Fits r) :=
  decidable_of_iff
    ((r.operUser.length ≤ userLen ∧ r.operHost.length ≤ hostLen ∧
        r.operServer.length ≤ hostLen ∧ r.user.length ≤ userLen ∧ r.host.length ≤ hostLen) ∧
      r.operUser ≠ [] ∧ (∀ p ∈ w.past, p.request.time ≤ r.time) ∧
      (∀ p ∈ w.past, ∀ q ∈ w.past, p.request.SameMask r → q.request.SameMask r →
        p.request.Unexpired q.request.time → q.request.Unexpired r.time →
          p.request.Unexpired r.time) ∧
      (∀ a ∈ w.votes r, ∀ b ∈ w.votes r, ∀ c ∈ w.votes r, ¬ marking.Split a b c) ∧
      (∀ p ∈ w.past, w.Standing r p → p.covered = true → w.state.covered r = true) ∧
      matchMask r.user r.user = true ∧ matchMask r.host r.host = true) <| by
    simp only [mem_votes]
    constructor
    · rintro ⟨names, named, clock, rounds, whole, cover, self⟩
      exact ⟨names, named, clock, rounds, fun a b c ha hb hc => whole a ha b hb c hc,
        fun p standing => cover p standing.1 standing, self⟩
    · rintro ⟨names, named, clock, rounds, whole, cover, self⟩
      exact ⟨names, named, clock, rounds, fun a ha b hb c hc => whole a b c ha hb hc,
        fun p _ standing => cover p standing, self⟩

theorem newPending_first (fits : w.Fits r) (server : CStr) :
    (GlineState.newPending r server).first = { r with operServer := server } := by
  obtain ⟨user, host, -, mask, hostMask⟩ := fits.names
  simp [GlineState.newPending, GlinePending.first, strncpyIrc, List.take_of_length_le, *]

theorem seconded_second (fits : w.Fits r) (e : GlinePending) (server : CStr) :
    marking.left (GlineState.seconded e r server).second r := by
  obtain ⟨user, host, -, -, -⟩ := fits.names
  have left : SameOper (GlineState.seconded e r server).second r := by
    simp [GlineState.seconded, GlinePending.second, strncpyIrc, List.take_of_length_le, SameOper,
      irccmp_self, *]
  exact left

theorem others {pending left : List GlinePending} {covered placed : Bool}
    (turn : GlineState.Turn r pending covered left placed) (inside : e ∈ pending)
    (other : ¬ e.first.SameMask r) : e ∈ left := by
  cases turn with
  | fresh => exact List.mem_cons_of_mem _ inside
  | voted => exact inside
  | @second pre post e' server split mask =>
    subst split
    rcases List.mem_append.1 inside with inside | inside
    · exact List.mem_append_left _ inside
    · rcases List.mem_cons.1 inside with same | inside
      · exact absurd (same ▸ mask) other
      · exact List.mem_append_right _ (List.mem_cons_of_mem _ inside)
  | third => exact inside

/-- An entry after the request was there before it, or is for its mask and has its time. -/
theorem origin {pending left : List GlinePending} {covered placed : Bool} (fits : w.Fits r)
    (turn : GlineState.Turn r pending covered left placed) (inside : e ∈ left) :
    e ∈ pending ∨ r.SameMask e.first ∧ r.time = e.lastGlineTime := by
  cases turn with
  | @fresh server =>
    rcases List.mem_cons.1 inside with rfl | inside
    · refine Or.inr ⟨?_, rfl⟩
      rw [newPending_first fits]
      exact SameMask.refl r
    · exact Or.inl inside
  | voted => exact Or.inl inside
  | @second pre post e' server split mask =>
    rw [split]
    rcases List.mem_append.1 inside with inside | inside
    · exact Or.inl (List.mem_append_left _ inside)
    · rcases List.mem_cons.1 inside with rfl | inside
      · exact Or.inr ⟨mask.symm, rfl⟩
      · exact Or.inl (List.mem_append_right _ (List.mem_cons_of_mem _ inside))
  | third => exact Or.inl inside

theorem unique_turn {pending left : List GlinePending} {covered placed : Bool} (fits : w.Fits r)
    (turn : GlineState.Turn r pending covered left placed)
    (unique : pending.Pairwise fun p q => ¬ p.first.SameMask q.first) :
    left.Pairwise fun p q => ¬ p.first.SameMask q.first := by
  cases turn with
  | fresh named alone =>
    refine List.pairwise_cons.2 ⟨fun q inside same => ?_, unique⟩
    rw [newPending_first fits] at same
    exact alone q inside same.symm
  | voted => exact unique
  | @second pre post e server split =>
    subst split
    rw [List.pairwise_append, List.pairwise_cons] at unique ⊢
    obtain ⟨before, ⟨this, after⟩, between⟩ := unique
    refine ⟨before, ⟨this, after⟩, fun p inPre q inPost => ?_⟩
    rcases List.mem_cons.1 inPost with rfl | inPost
    · exact between p inPre e List.mem_cons_self
    · exact between p inPre q (List.mem_cons_of_mem _ inPost)
  | third => exact unique

def asked (w : GlineWorld) (r : GlineRequest) : PastRequest where
  request := r
  covered := w.state.covered r

theorem glines_ask (fits : w.Fits r) {g : Gline} (inside : g ∈ w.state.glines)
    (later : r.time < g.hold) : g ∈ (w.ask r).state.glines := by
  obtain ⟨-, glines, purged, list⟩ := w.state.mGline_turn fits.names.2.2.1
  have stays := purged.kept g inside later
  change g ∈ (w.state.mGline r).1.glines
  rw [list]
  split
  · exact List.mem_cons_of_mem _ stays
  · exact stays

theorem glines_of_ask (fits : w.Fits r) {g : Gline} (inside : g ∈ (w.ask r).state.glines) :
    g ∈ w.state.glines ∨ g = GlineState.gline r := by
  obtain ⟨-, glines, purged, list⟩ := w.state.mGline_turn fits.names.2.2.1
  change g ∈ (w.state.mGline r).1.glines at inside
  rw [list] at inside
  split at inside
  · rcases List.mem_cons.1 inside with new | inside
    · exact Or.inr new
    · exact Or.inl (purged.part.subset inside)
  · exact Or.inl (purged.part.subset inside)

theorem gline_ask (fits : w.Fits r) (placed : (w.state.mGline r).2 = true) :
    GlineState.gline r ∈ (w.ask r).state.glines := by
  obtain ⟨-, glines, purged, list⟩ := w.state.mGline_turn fits.names.2.2.1
  change _ ∈ (w.state.mGline r).1.glines
  rw [list, if_pos placed]
  exact List.mem_cons_self

variable {m m' : GlineRequest}

theorem Counts.congr (counts : w.Counts m q) (same : m.SameMask m') : w.Counts m' q where
  inside := counts.inside
  mask := counts.mask.trans same
  recent p inside mask := counts.recent p inside (mask.trans same.symm)

theorem Held.congr (held : w.Held m e v u) (same : m.SameMask m') : w.Held m' e v u :=
  { held with
    mask := held.mask.trans same
    counts := ⟨held.counts.1.congr same, held.counts.2.congr same⟩
    turnedAway := fun z counts => held.turnedAway z (counts.congr same.symm) }

theorem Counts.ask (counts : w.Counts m q)
    (unexpired : r.SameMask m → q.request.Unexpired r.time) : (w.ask r).Counts m q where
  inside := List.mem_cons_of_mem _ counts.inside
  mask := counts.mask
  recent p inside mask := by
    rcases List.mem_cons.1 inside with rfl | inside
    · exact unexpired mask
    · exact counts.recent p inside mask

theorem Counts.of_ask (counts : (w.ask r).Counts m q) :
    q = w.asked r ∧ r.SameMask m ∨
      w.Counts m q ∧ (r.SameMask m → q.request.Unexpired r.time) := by
  rcases List.mem_cons.1 counts.inside with new | inside
  · refine Or.inl ⟨new, ?_⟩
    have mask := counts.mask
    rwa [new] at mask
  · exact Or.inr ⟨⟨inside, counts.mask,
      fun p inside => counts.recent p (List.mem_cons_of_mem _ inside)⟩,
      fun mask => counts.recent _ List.mem_cons_self mask⟩

theorem counts_asked (fits : w.Fits r) : (w.ask r).Counts r (w.asked r) where
  inside := List.mem_cons_self
  mask := SameMask.refl r
  recent p inside _ := by
    rcases List.mem_cons.1 inside with rfl | inside
    · exact (vote_self w r).2.2
    · exact lt_of_le_of_lt (fits.clock p inside) (vote_self w r).2.2

theorem Standing.ask (standing : w.Standing r q) (fits : w.Fits r) : (w.ask r).Counts r q :=
  (standing.counts fits).ask fun _ => standing.2.2

/-- Of the requests for the mask those count afterwards that stand, and the new one. -/
theorem Counts.standing_or (counts : (w.ask r).Counts r q) :
    q = w.asked r ∨ w.Standing r q := by
  rcases counts.of_ask with ⟨new, -⟩ | ⟨counts, unexpired⟩
  · exact Or.inl new
  · exact Or.inr ⟨counts.inside, counts.mask, unexpired (SameMask.refl r)⟩

theorem Spent.ask (spent : w.Spent p) (fits : w.Fits r) : (w.ask r).Spent p := by
  cases spent with
  | before covered => exact .before covered
  | @served g inside covers lasts =>
    by_cases later : r.time < g.hold
    · exact .served (glines_ask fits inside later) covers lasts
    · have late : p.request.time + glinePendingExpire ≤ r.time := by omega
      exact .elapsed (z := w.asked r) List.mem_cons_self late
  | elapsed inside late => exact .elapsed (List.mem_cons_of_mem _ inside) late

/-- What is known of another mask stays known: an entry goes with the requests that are in it. -/
theorem Tracked.kept_other (tracked : w.Tracked) (fits : w.Fits r) (other : ¬ r.SameMask m)
    (counts : w.Counts m q) : (∃ p, (w.ask r).Counts m p ∧ (w.ask r).Spent p) ∨
      ∃ e v u, (w.ask r).Held m e v u := by
  obtain ⟨turn, -⟩ := w.state.mGline_turn fits.names.2.2.1
  rcases tracked.kept m q counts with ⟨p, counts, spent⟩ | ⟨e, v, u, held⟩
  · exact Or.inl ⟨p, counts.ask fun same => absurd same other, spent.ask fits⟩
  · have countsV := held.counts.1.ask (r := r) fun same => absurd same other
    have countsU := held.counts.2.ask (r := r) fun same => absurd same other
    by_cases unexpired : r.time < e.lastGlineTime + glinePendingExpire
    · cases served : Gline.inForce w.state.glines r.time e.host e.user with
      | false =>
        have left : e ∈ w.leftOver r := by
          refine List.mem_filter.2 ⟨held.inside, ?_⟩
          simp [GlinePending.live, unexpired, served]
        refine Or.inr ⟨e, v, u, { held with
          inside := others turn left fun same => other (same.symm.trans held.mask)
          counts := ⟨countsV, countsU⟩
          turnedAway := fun z counts => ?_ }⟩
        rcases counts.of_ask with ⟨-, same⟩ | ⟨counts, -⟩
        · exact absurd same other
        · exact held.turnedAway z counts
      | true =>
        obtain ⟨g, inside, later, covers⟩ := Gline.inForce_iff.1 served
        have coversU : g.covers u.request.host u.request.user = true := by
          rw [← covers]
          exact g.covers_congr (held.mask.trans held.counts.2.mask.symm)
        refine Or.inl ⟨u, countsU, ?_⟩
        have earlier := fits.clock u held.counts.2.inside
        rcases tracked.placed g inside u held.counts.2.inside coversU with covered | elapsed | lasts
        · exact .before covered
        · omega
        · exact .served (glines_ask fits inside later) coversU lasts
    · have late : u.request.time + glinePendingExpire ≤ r.time := by
        rw [← held.dated]
        omega
      exact Or.inl ⟨u, countsU, .elapsed (z := w.asked r) List.mem_cons_self late⟩

theorem Tracked.kept_same (tracked : w.Tracked) (fits : w.Fits r) :
    (∃ p, (w.ask r).Counts r p ∧ (w.ask r).Spent p) ∨ ∃ e v u, (w.ask r).Held r e v u := by
  -- a mask that has a G-line already needs no vote
  cases bare : w.state.covered r with
  | true => exact Or.inl ⟨w.asked r, counts_asked fits, .before bare⟩
  | false =>
    have finds := tracked.finds fits bare
    have gline := @gline_ask w r fits
    generalize placing : (w.state.mGline r).2 = placed at finds gline
    generalize list : (w.state.mGline r).1.pendingGlines = left at finds
    change (w.ask r).state.pendingGlines = left at list
    -- what `mGline` did with the request: a new entry, a vote that is not counted, the second
    -- or the third
    cases finds with
    | @fresh server named first =>
      have held : (w.ask r).Held r (GlineState.newPending r server) (w.asked r) (w.asked r) :=
        { inside := by rw [list]; exact List.mem_cons_self
          mask := by rw [newPending_first fits]; exact SameMask.refl r
          counts := ⟨counts_asked fits, counts_asked fits⟩
          first := by
            rw [newPending_first fits]
            exact ⟨⟨irccmp_self _, irccmp_self _⟩, named⟩
          single := fun _ => rfl
          second := fun double => absurd rfl double
          dated := rfl
          turnedAway := fun z counts => by
            rcases counts.standing_or with rfl | standing
            · exact Or.inl (clash_self r)
            · exact absurd standing (first z) }
      exact Or.inr ⟨_, _, _, held⟩
    | @voted e v u held inside clash =>
      obtain ⟨q, standing⟩ := tracked.standing inside held.mask
      have again : (w.ask r).Held r e v u :=
        { held with
          inside := by rw [list]; exact inside
          counts := ⟨(held.counts.1.standing fits standing).ask fits,
            (held.counts.2.standing fits standing).ask fits⟩
          turnedAway := fun z counts => by
            rcases counts.standing_or with rfl | standing
            · exact clash
            · exact held.turnedAway z (standing.counts fits) }
      exact Or.inr ⟨_, _, _, again⟩
    | @second pre post e v server split held named apart =>
      have inside : e ∈ w.leftOver r := split ▸ List.mem_append_right _ List.mem_cons_self
      obtain ⟨q, standing⟩ := tracked.standing inside held.mask
      have next : (w.ask r).Held r (GlineState.seconded e r server) v (w.asked r) :=
        { inside := by rw [list]; exact List.mem_append_right _ List.mem_cons_self
          mask := held.mask
          counts := ⟨(held.counts.1.standing fits standing).ask fits, counts_asked fits⟩
          first := held.first
          single := fun single => by
            have whole : strncpyIrc r.operUser userLen = r.operUser :=
              List.take_of_length_le fits.names.1
            exact absurd (whole.symm.trans single) fits.named
          second := fun _ => ⟨seconded_second fits e server, named, apart⟩
          dated := rfl
          turnedAway := fun z counts => by
            rcases counts.standing_or with rfl | standing
            · exact Or.inr (clash_self r)
            · exact Or.inl ((held.turnedAway z (standing.counts fits)).elim id id) }
      exact Or.inr ⟨_, _, _, next⟩
    | @third e v u held inside apart apart' different =>
      have covers : (GlineState.gline r).covers r.host r.user = true := by
        simp [GlineState.gline, Gline.covers, fits.self]
      have lasts : r.time + glinePendingExpire ≤ (GlineState.gline r).hold := by
        simp [GlineState.gline, glinePendingExpire, glineTime]
      exact Or.inl ⟨w.asked r, counts_asked fits, .served (gline rfl) covers lasts⟩

theorem Tracked.ask (tracked : w.Tracked) (fits : w.Fits r) : (w.ask r).Tracked where
  unique := by
    obtain ⟨turn, -⟩ := w.state.mGline_turn fits.names.2.2.1
    exact unique_turn fits turn (tracked.unique.filter _)
  dated e inside := by
    obtain ⟨turn, -⟩ := w.state.mGline_turn fits.names.2.2.1
    rcases origin fits turn inside with inside | ⟨mask, time⟩
    · obtain ⟨q, past, mask, time⟩ := tracked.dated e (List.mem_filter.1 inside).1
      exact ⟨q, List.mem_cons_of_mem _ past, mask, time⟩
    · exact ⟨w.asked r, List.mem_cons_self, mask, time⟩
  placed g inside q past covers := by
    rcases glines_of_ask fits inside with inside | rfl
    · rcases List.mem_cons.1 past with rfl | past
      · by_cases later : r.time < g.hold
        · exact Or.inl (Gline.inForce_iff.2 ⟨g, inside, later, covers⟩)
        · exact Or.inr (Or.inl (Int.not_lt.1 later))
      · exact tracked.placed g inside q past covers
    · have earlier : q.request.time ≤ r.time := by
        rcases List.mem_cons.1 past with rfl | past
        · exact le_refl _
        · exact fits.clock q past
      refine Or.inr (Or.inr ?_)
      simp only [GlineState.gline, glinePendingExpire, glineTime]
      omega
  kept m q counts := by
    by_cases same : r.SameMask m
    · rcases tracked.kept_same fits with ⟨p, counts, spent⟩ | ⟨e, v, u, held⟩
      · exact Or.inl ⟨p, counts.congr same, spent⟩
      · exact Or.inr ⟨e, v, u, held.congr same⟩
    · rcases counts.of_ask with ⟨-, mask⟩ | ⟨counts, -⟩
      · exact absurd mask same
      · exact tracked.kept_other fits same counts

theorem tracked_startUp (scache : List CStr) : (startUp scache).Tracked where
  unique := List.Pairwise.nil
  dated _ absurdity := by cases absurdity
  placed _ absurdity := by cases absurdity
  kept _ _ counts := by cases counts.inside

theorem Tracked.event (tracked : w.Tracked) {e : Int × GlineCommand}
    (fits : ∀ r ∈ e.2.request e.1, w.Fits r) : (w.event e).Tracked := by
  unfold GlineWorld.event
  cases admitted : e.2.request e.1 with
  | none => exact tracked
  | some r => exact tracked.ask (fits r admitted)

/-- Over any run whose requests fit, a request places the G-line exactly when its mask is not
covered by one in force and three votes for it are from different servers and by different
opers. -/
theorem placed_iff {scache : List CStr} {es : List (Int × GlineCommand)}
    {e : Int × GlineCommand} {r : GlineRequest} (admitted : e.2.request e.1 = some r)
    (fits : machine.Meets (fun w e => ∀ r ∈ e.2.request e.1, w.Fits r) (startUp scache)
      (es ++ [e])) :
    ((machine.run (startUp scache) es).state.mGline r).2 = true ↔
      (machine.run (startUp scache) es).state.covered r = false ∧
        (machine.run (startUp scache) es).Due r := by
  have before := fits.of_prefix (List.prefix_append es [e])
  have tracked := before.keeps (fun w e tracked fits => Tracked.event tracked fits)
    (tracked_startUp scache)
  exact tracked.decided (fits.of_suffix.1 r admitted)

/-! Four opers ask for one mask over links. -/

def overLink (time : Int) (oper server host : CStr) : Int × GlineCommand :=
  (time, .link true
    [lit "oper", oper, lit "staff.net", server, lit "*", host, lit "spam"])

def agreed : List (Int × GlineCommand) :=
  [overLink 100 (lit "ann") (lit "one.net") (lit "*.bad.example"),
    overLink 101 (lit "bob") (lit "two.net") (lit "*.bad.example")]

def agreedThird : GlineRequest where
  operUser := lit "cid"
  operHost := lit "staff.net"
  operServer := lit "three.net"
  user := lit "*"
  host := lit "*.bad.example"
  time := 102

theorem agreed_placed :
    ((machine.run (startUp []) agreed).state.mGline agreedThird).2 = true ↔
      (machine.run (startUp []) agreed).state.covered agreedThird = false ∧
        (machine.run (startUp []) agreed).Due agreedThird :=
  placed_iff (e := overLink 102 (lit "cid") (lit "three.net") (lit "*.bad.example"))
    (by decide +kernel) (by decide +kernel)

example : ((machine.run (startUp []) agreed).state.mGline agreedThird).2 = true := by
  decide +kernel

/-- The second request has the server of the first and the third its oper, so that neither is
kept, and the fourth is the second vote. -/
def crossed : List (Int × GlineCommand) :=
  [overLink 100 (lit "ann") (lit "one.net") (lit "*.bad.example"),
    overLink 101 (lit "bob") (lit "one.net") (lit "*.bad.example"),
    overLink 102 (lit "ann") (lit "two.net") (lit "*.bad.example")]

theorem crossed_missed :
    (overLink 102 (lit "cid") (lit "three.net") (lit "*.bad.example")).2.request 102 =
      some agreedThird ∧
    (machine.run (startUp []) crossed).state.covered agreedThird = false ∧
    (machine.run (startUp []) crossed).Due agreedThird ∧
    ((machine.run (startUp []) crossed).state.mGline agreedThird).2 = false := by
  decide +kernel

end GlineWorld

end Ircd
