import Ircd.Channel.Part
import Ircd.Lib.Buckets
import Ircd.Lib.Machine
import Mathlib.Data.List.Find

/-! `m_whowas.c`: the ring of the nick history, its hash table and the lists of the clients.

A slot is on the list of its bucket and, while its client is online, on the list of that
client. The ring writes over its oldest slot, which leaves both lists first. `Channel.Part`
has the history as a list of entries, newest first; the ring refines it.
-/

set_option autoImplicit false

namespace Ircd

def wwMax : Nat := 65536

def hashWhowasName (name : CStr) : Nat :=
  (name.foldl (fun h c => (16 * h + 2 ^ 32 - (h + (toLower c).toNat) % 2 ^ 32) % 2 ^ 32) 0) % wwMax

theorem hashWhowasName_congr {name name' : CStr} (h : irccmp name name' = .eq) :
    hashWhowasName name = hashWhowasName name' := by
  have folded : ∀ s : CStr, hashWhowasName s =
      ((s.map toLower).foldl (fun h c => (16 * h + 2 ^ 32 - (h + c.toNat) % 2 ^ 32) % 2 ^ 32) 0) %
        wwMax := by
    intro s
    rw [List.foldl_map]
    rfl
  rw [folded, folded, map_toLower_eq h]

/-- An element of `WHOWAS` without its four links; `hashv` is -1 in an unused one. -/
structure WhowasSlot where
  hashv : Option Nat
  name : CStr
  username : CStr
  hostname : CStr
  servername : CStr
  realname : CStr
  logoff : Int
  online : Option ClientId
  deriving DecidableEq, Repr

def WhowasSlot.zero : WhowasSlot where
  hashv := none
  name := []
  username := []
  hostname := []
  servername := []
  realname := []
  logoff := 0
  online := none

structure WhowasRing where
  slot : Nat → WhowasSlot
  /-- `WHOWASHASH` with `next` and `prev`. -/
  hash : Buckets Nat Nat
  /-- The `whowas` of the clients with `cnext` and `cprev`. -/
  clist : Buckets ClientId Nat
  whowasNext : Nat

namespace WhowasRing

def init : WhowasRing :=
  { slot := fun _ => WhowasSlot.zero, hash := .empty, clist := .empty, whowasNext := 0 }

/-- The first part of `add_history`: a used slot leaves its lists. -/
def evict (r : WhowasRing) (who : Nat) : WhowasRing :=
  match (r.slot who).hashv with
  | none => r
  | some hashv =>
    let r := match (r.slot who).online with
      | some cptr => { r with clist := r.clist.unlink cptr who }
      | none => r
    { r with hash := r.hash.unlink hashv who }

/-- `add_history` of the client `cptr`; `info` is its real name. -/
def addHistory (r : WhowasRing) (now : Int) (cptr : ClientId) (cl : Client) (info : CStr)
    (online : Bool) : WhowasRing :=
  let who := r.whowasNext
  let r := r.evict who
  let hashv := hashWhowasName cl.name
  let entry : WhowasSlot :=
    { hashv := some hashv
      name := strncpyIrc cl.name nickLen
      username := cl.username
      hostname := cl.host
      servername := cl.userServer
      realname := info
      logoff := now
      online := if online then some cptr else none }
  { slot := Function.update r.slot who entry
    hash := r.hash.link hashv who
    clist := if online then r.clist.link cptr who else r.clist
    whowasNext := if who + 1 = nicknameHistoryLength then 0 else who + 1 }

/-- The loop of `off_history`, from the slot `temp` on. -/
def offHistoryFrom (cptr : ClientId) : Nat → Option Nat → WhowasRing → WhowasRing
  | 0, _, r => r
  | _ + 1, none, r => r
  | fuel + 1, some temp, r =>
    let next := r.clist.next temp
    offHistoryFrom cptr fuel next
      { r with
        slot := Function.update r.slot temp { r.slot temp with online := none }
        clist := r.clist.unlink cptr temp }

def offHistory (r : WhowasRing) (cptr : ClientId) : WhowasRing :=
  offHistoryFrom cptr nicknameHistoryLength (r.clist.heads cptr) r

/-- The loop of `get_history`, from the slot `temp` on. -/
def getHistoryFrom (r : WhowasRing) (nick : CStr) (timelimit : Int) :
    Nat → Option Nat → Option ClientId
  | 0, _ => none
  | _ + 1, none => none
  | fuel + 1, some temp =>
    if irccmp nick (r.slot temp).name ≠ .eq ∨ (r.slot temp).logoff < timelimit then
      r.getHistoryFrom nick timelimit fuel (r.hash.next temp)
    else (r.slot temp).online

def getHistory (r : WhowasRing) (now : Int) (nick : CStr) (timelimit : Int) : Option ClientId :=
  r.getHistoryFrom nick (now - timelimit) nicknameHistoryLength
    (r.hash.heads (hashWhowasName nick))

def bucket (r : WhowasRing) (hashv : Nat) : List Nat := r.hash.cells nicknameHistoryLength hashv

def whowas (r : WhowasRing) (cptr : ClientId) : List Nat :=
  r.clist.cells nicknameHistoryLength cptr

/-- The slot that was written `i` turns before the last one. -/
def turn (size whowasNext i : Nat) : Nat :=
  if i < whowasNext then whowasNext - 1 - i else whowasNext + size - 1 - i

/-- The last `count` slots that were written, newest first. -/
def before (size whowasNext count : Nat) : List Nat :=
  (List.range count).map (turn size whowasNext)

section Order

variable {size whowasNext count : Nat}

theorem length_before : (before size whowasNext count).length = count := by
  simp [before]

theorem lt_of_mem_before (inside : whowasNext < size) {s : Nat}
    (among : s ∈ before size whowasNext count) : s < size := by
  obtain ⟨i, -, rfl⟩ := List.mem_map.1 among
  unfold turn
  split <;> omega

theorem nodup_before (_ : whowasNext < size) (fits : count ≤ size) :
    (before size whowasNext count).Nodup := by
  refine List.Nodup.map_on (fun i small j small' same => ?_) List.nodup_range
  rw [List.mem_range] at small small'
  unfold turn at same
  split at same <;> split at same <;> omega

theorem before_full (_ : whowasNext < size) :
    before size whowasNext size = before size whowasNext (size - 1) ++ [whowasNext] := by
  obtain ⟨last, rfl⟩ : ∃ last, size = last + 1 := ⟨size - 1, by omega⟩
  have oldest : turn (last + 1) whowasNext last = whowasNext := by
    unfold turn
    split <;> omega
  rw [before, List.range_succ, List.map_append, List.map_singleton, oldest]
  rfl

theorem not_mem_before (_ : whowasNext < size) (fewer : count < size) :
    whowasNext ∉ before size whowasNext count := by
  intro among
  obtain ⟨i, small, same⟩ := List.mem_map.1 among
  rw [List.mem_range] at small
  unfold turn at same
  split at same <;> omega

theorem before_succ (_ : whowasNext < size) (fewer : count < size) :
    before size (if whowasNext + 1 = size then 0 else whowasNext + 1) (count + 1) =
      whowasNext :: before size whowasNext count := by
  have first : turn size (if whowasNext + 1 = size then 0 else whowasNext + 1) 0 = whowasNext := by
    unfold turn
    split <;> split <;> omega
  rw [before, List.range_succ_eq_map, List.map_cons, List.map_map, first]
  refine congrArg _ (List.map_congr_left fun i small => ?_)
  rw [List.mem_range] at small
  simp only [Function.comp, turn]
  split <;> split <;> split <;> omega

end Order

def inBucket (slot : Nat → WhowasSlot) (slots : List Nat) (hashv : Nat) : List Nat :=
  slots.filter fun s => (slot s).hashv = some hashv

def ofClient (slot : Nat → WhowasSlot) (slots : List Nat) (cptr : ClientId) : List Nat :=
  slots.filter fun s => (slot s).online = some cptr

def age (r : WhowasRing) (count : Nat) : List Nat :=
  before nicknameHistoryLength r.whowasNext count

/-- A ring whose last `count` slots are in use: each is on the list of its bucket and, with
`online`, on that of its client, all in their order. -/
structure Ordered (r : WhowasRing) (count : Nat) : Prop where
  inside : r.whowasNext < nicknameHistoryLength
  fits : count ≤ nicknameHistoryLength
  used : ∀ s < nicknameHistoryLength, (r.slot s).hashv ≠ none ↔ s ∈ r.age count
  hash : r.hash.Holds (inBucket r.slot (r.age count))
  clist : r.clist.Holds (ofClient r.slot (r.age count))

theorem nodup_age {r : WhowasRing} {count : Nat} (h : r.Ordered count) : (r.age count).Nodup :=
  nodup_before h.inside h.fits

theorem update_filter {K : Type*} [DecidableEq K] {key : Nat → Option K} {rest : List Nat}
    {who : Nat} {k : K} (here : key who = some k) :
    Function.update (fun k => (rest ++ [who]).filter fun s => key s = some k) k
        (rest.filter (fun s => key s = some k) ++ []) =
      fun k => rest.filter fun s => key s = some k := by
  funext k'
  by_cases same : k' = k
  · subst same
    rw [Function.update_self, List.append_nil]
  · have other : key who ≠ some k' := by
      rw [here]
      exact fun equal => same (Option.some.inj equal).symm
    rw [Function.update_of_ne same, List.filter_append]
    simp [other]

theorem filter_snoc {K : Type*} [DecidableEq K] {key : Nat → Option K} {rest : List Nat}
    {who : Nat} (none : key who = none) :
    (fun k => (rest ++ [who]).filter fun s => key s = some k) =
      fun k => rest.filter fun s => key s = some k := by
  funext k
  rw [List.filter_append]
  simp [none]

theorem Ordered.evict {r : WhowasRing} {count : Nat} (h : r.Ordered count) :
    let rest := r.age (min count (nicknameHistoryLength - 1))
    (r.evict r.whowasNext).hash.Holds (inBucket r.slot rest) ∧
      (r.evict r.whowasNext).clist.Holds (ofClient r.slot rest) := by
  have inside := h.inside
  have fits := h.fits
  have known := h.used _ h.inside
  by_cases full : count = nicknameHistoryLength
  · subst full
    have whole : r.age nicknameHistoryLength =
        r.age (nicknameHistoryLength - 1) ++ [r.whowasNext] := before_full h.inside
    have most : min nicknameHistoryLength (nicknameHistoryLength - 1) =
        nicknameHistoryLength - 1 := Nat.min_eq_right (Nat.sub_le _ _)
    have hash := h.hash
    have clist := h.clist
    rw [whole] at hash clist known
    rw [most]
    generalize r.age (nicknameHistoryLength - 1) = rest at *
    have inUse : (r.slot r.whowasNext).hashv ≠ none := known.2 (by simp)
    obtain ⟨hashv, bucket⟩ := Option.ne_none_iff_exists'.1 inUse
    have hashed : (r.hash.unlink hashv r.whowasNext).Holds (inBucket r.slot rest) := by
      have last : inBucket r.slot (rest ++ [r.whowasNext]) hashv =
          inBucket r.slot rest hashv ++ r.whowasNext :: [] := by
        simp [inBucket, bucket]
      have gone := hash.unlink last
      unfold inBucket at gone ⊢
      rwa [update_filter bucket] at gone
    cases online : (r.slot r.whowasNext).online with
    | none =>
      simp only [WhowasRing.evict, bucket, online]
      refine ⟨hashed, ?_⟩
      unfold ofClient at clist ⊢
      rwa [filter_snoc online] at clist
    | some cptr =>
      simp only [WhowasRing.evict, bucket, online]
      refine ⟨hashed, ?_⟩
      have last : ofClient r.slot (rest ++ [r.whowasNext]) cptr =
          ofClient r.slot rest cptr ++ r.whowasNext :: [] := by
        simp [ofClient, online]
      have gone := clist.unlink last
      unfold ofClient at gone ⊢
      rwa [update_filter online] at gone
  · have fewer : count ≤ nicknameHistoryLength - 1 := by omega
    have unused : (r.slot r.whowasNext).hashv = none := by
      by_contra inUse
      exact not_mem_before h.inside (by omega) (known.1 inUse)
    simp only [WhowasRing.evict, unused, Nat.min_eq_left fewer]
    exact ⟨h.hash, h.clist⟩

theorem evict_slot (r : WhowasRing) (who : Nat) : (r.evict who).slot = r.slot := by
  unfold WhowasRing.evict
  split
  · rfl
  · split <;> rfl

theorem filter_update {K : Type*} [DecidableEq K] {key : WhowasSlot → Option K}
    {slot : Nat → WhowasSlot} {rest : List Nat} {who : Nat} (outside : who ∉ rest)
    (entry : WhowasSlot) (k : K) :
    rest.filter (fun s => key (Function.update slot who entry s) = some k) =
      rest.filter fun s => key (slot s) = some k := by
  refine List.filter_congr fun s among => ?_
  have other : s ≠ who := fun same => outside (same ▸ among)
  rw [Function.update_of_ne other]

theorem Ordered.mem_rest {r : WhowasRing} {count : Nat} (h : r.Ordered count) {s : Nat}
    (other : s ≠ r.whowasNext) :
    s ∈ r.age (min count (nicknameHistoryLength - 1)) ↔ s ∈ r.age count := by
  have fits := h.fits
  by_cases full : count = nicknameHistoryLength
  · subst full
    have whole : r.age nicknameHistoryLength =
        r.age (nicknameHistoryLength - 1) ++ [r.whowasNext] := before_full h.inside
    rw [whole, Nat.min_eq_right (Nat.sub_le _ _), List.mem_append, List.mem_singleton]
    exact ⟨.inl, fun either => either.resolve_right other⟩
  · rw [Nat.min_eq_left (by omega)]

theorem filter_cons_update {K : Type*} [DecidableEq K] {key : WhowasSlot → Option K}
    {slot : Nat → WhowasSlot} {rest : List Nat} {who : Nat} (outside : who ∉ rest)
    {entry : WhowasSlot} {k : K} (here : key entry = some k) :
    (fun k => (who :: rest).filter fun s => key (Function.update slot who entry s) = some k) =
      Function.update (fun k => rest.filter fun s => key (slot s) = some k) k
        (who :: rest.filter fun s => key (slot s) = some k) := by
  funext k'
  rw [List.filter_cons, Function.update_self, here, filter_update outside]
  by_cases same : k' = k
  · subst same
    rw [Function.update_self]
    simp
  · rw [Function.update_of_ne same]
    have apart : ¬k = k' := fun equal => same equal.symm
    simp [apart]

theorem Ordered.addHistory {r : WhowasRing} {count : Nat} (h : r.Ordered count) (now : Int)
    (cptr : ClientId) (cl : Client) (info : CStr) (online : Bool) :
    (r.addHistory now cptr cl info online).Ordered
        (min count (nicknameHistoryLength - 1) + 1) ∧
      (r.addHistory now cptr cl info online).age (min count (nicknameHistoryLength - 1) + 1) =
        r.whowasNext :: r.age (min count (nicknameHistoryLength - 1)) := by
  have evicted := h.evict
  have inside := h.inside
  have fits := h.fits
  have known := h.used
  have fewer : min count (nicknameHistoryLength - 1) < nicknameHistoryLength := by omega
  have outside : r.whowasNext ∉ r.age (min count (nicknameHistoryLength - 1)) :=
    not_mem_before inside fewer
  have order : (r.addHistory now cptr cl info online).age
      (min count (nicknameHistoryLength - 1) + 1) =
        r.whowasNext :: r.age (min count (nicknameHistoryLength - 1)) := before_succ inside fewer
  refine ⟨⟨?_, by omega, fun s small => ?_, ?_, ?_⟩, order⟩
  · simp only [WhowasRing.addHistory]
    split <;> omega
  · rw [order, List.mem_cons]
    simp only [WhowasRing.addHistory, evict_slot]
    by_cases same : s = r.whowasNext
    · subst same
      simp
    · rw [Function.update_of_ne same, known s small, h.mem_rest same]
      simp [same]
  · rw [order]
    simp only [WhowasRing.addHistory, evict_slot]
    unfold inBucket
    rw [@filter_cons_update _ _ WhowasSlot.hashv _ _ _ outside _ _ rfl]
    refine evicted.1.link fun hashv among => outside ?_
    exact (List.mem_filter.1 among).1
  · rw [order]
    simp only [WhowasRing.addHistory, evict_slot]
    unfold ofClient
    cases online with
    | true =>
      simp only [if_true]
      rw [@filter_cons_update _ _ WhowasSlot.online _ _ _ outside _ _ rfl]
      refine evicted.2.link fun c among => outside ?_
      exact (List.mem_filter.1 among).1
    | false =>
      simp only [Bool.false_eq_true, if_false]
      convert evicted.2 using 1
      funext c
      rw [List.filter_cons, Function.update_self, filter_update outside]
      simp [ofClient]

def clearOnline (r : WhowasRing) (cptr : ClientId) (temp : Nat) : WhowasRing :=
  { r with
    slot := Function.update r.slot temp { r.slot temp with online := none }
    clist := r.clist.unlink cptr temp }

theorem Ordered.clearOnline {r : WhowasRing} {count : Nat} (h : r.Ordered count) {cptr : ClientId}
    {temp : Nat} {left : List Nat} (here : ofClient r.slot (r.age count) cptr = temp :: left) :
    (r.clearOnline cptr temp).Ordered count ∧
      ofClient (r.clearOnline cptr temp).slot (r.age count) cptr = left ∧
      (r.clearOnline cptr temp).clist.heads cptr = r.clist.next temp := by
  have nodup : (temp :: left).Nodup := here ▸ (nodup_age h).filter _
  have mine : (r.slot temp).online = some cptr := by
    have among : temp ∈ ofClient r.slot (r.age count) cptr := here ▸ List.mem_cons_self
    simpa using (List.mem_filter.1 among).2
  have hashv : ∀ s, ((r.clearOnline cptr temp).slot s).hashv = (r.slot s).hashv := by
    intro s
    simp only [WhowasRing.clearOnline, Function.update_apply]
    split <;> simp [*]
  have mineLeft : ofClient (r.clearOnline cptr temp).slot (r.age count) cptr = left := by
    have both : ∀ s, decide (((r.clearOnline cptr temp).slot s).online = some cptr) =
        (decide (s ≠ temp) && decide ((r.slot s).online = some cptr)) := by
      intro s
      simp only [WhowasRing.clearOnline, Function.update_apply]
      by_cases same : s = temp <;> simp [same]
    unfold ofClient at here ⊢
    simp only [both]
    rw [← List.filter_filter, here, List.filter_cons]
    have others : left.filter (fun s => decide (s ≠ temp)) = left := by
      refine List.filter_eq_self.2 fun s among => ?_
      have apart : s ≠ temp := fun same => (List.nodup_cons.1 nodup).1 (same ▸ among)
      simp [apart]
    simpa using others
  refine ⟨⟨h.inside, h.fits, fun s small => ?_, ?_, ?_⟩, mineLeft, ?_⟩
  · rw [hashv]
    exact h.used s small
  · have same : inBucket (r.clearOnline cptr temp).slot ((r.clearOnline cptr temp).age count) =
        inBucket r.slot (r.age count) := by
      funext k
      simp only [inBucket, hashv]
      rfl
    rw [same]
    exact h.hash
  · have gone : (r.clist.unlink cptr temp).Holds (Function.update _ cptr ([] ++ left)) :=
      h.clist.unlink here
    have lists : ofClient (r.clearOnline cptr temp).slot ((r.clearOnline cptr temp).age count) =
        Function.update (ofClient r.slot (r.age count)) cptr ([] ++ left) := by
      funext c
      by_cases same : c = cptr
      · subst same
        rw [Function.update_self]
        exact mineLeft
      · rw [Function.update_of_ne same]
        refine List.filter_congr fun s _ => ?_
        simp only [WhowasRing.clearOnline, Function.update_apply]
        by_cases first : s = temp
        · have other : ¬cptr = c := fun equal => same equal.symm
          simp [first, mine, other]
        · simp [first]
    rw [lists]
    exact gone
  · have before : r.clist.prev temp = none := by
      have double := h.clist.double cptr
      rw [here] at double
      exact double.back.1
    simp only [WhowasRing.clearOnline, Buckets.unlink, Function.update_self, before,
      Chain.headAfter]

theorem Ordered.offHistoryFrom {cptr : ClientId} {left : List Nat} {fuel : Nat}
    (enough : left.length ≤ fuel) {r : WhowasRing} {count : Nat} (h : r.Ordered count)
    (here : ofClient r.slot (r.age count) cptr = left) :
    let r' := WhowasRing.offHistoryFrom cptr fuel (r.clist.heads cptr) r
    r'.Ordered count ∧ r'.whowasNext = r.whowasNext ∧ ∀ s, r'.slot s =
      if s ∈ left then { r.slot s with online := none } else r.slot s := by
  induction left generalizing r fuel with
  | nil =>
    have empty : r.clist.heads cptr = none := by rw [h.clist.head_eq, here, List.head?_nil]
    rw [empty]
    cases fuel with
    | zero => exact ⟨h, rfl, fun s => by simp [WhowasRing.offHistoryFrom]⟩
    | succ fuel => exact ⟨h, rfl, fun s => by simp [WhowasRing.offHistoryFrom]⟩
  | cons temp left ih =>
    have first : r.clist.heads cptr = some temp := by
      rw [h.clist.head_eq, here, List.head?_cons]
    rw [first]
    cases fuel with
    | zero => cases enough
    | succ fuel =>
      obtain ⟨cleared, rest, next⟩ := h.clearOnline here
      have later := ih (Nat.le_of_succ_le_succ enough) cleared rest
      rw [next] at later
      refine ⟨later.1, later.2.1, fun s => ?_⟩
      refine (later.2.2 s).trans ?_
      simp only [WhowasRing.clearOnline, Function.update_apply, List.mem_cons]
      by_cases same : s = temp
      · by_cases again : s ∈ left <;> simp [same]
      · simp [same]

theorem Ordered.offHistory {r : WhowasRing} {count : Nat} (h : r.Ordered count) (cptr : ClientId) :
    (r.offHistory cptr).Ordered count ∧ (r.offHistory cptr).whowasNext = r.whowasNext ∧
      ∀ s, (r.offHistory cptr).slot s =
        if s ∈ ofClient r.slot (r.age count) cptr then { r.slot s with online := none }
        else r.slot s := by
  have fits := h.fits
  have fewer : (ofClient r.slot (r.age count) cptr).length ≤ nicknameHistoryLength := by
    have sub := List.length_filter_le (fun s => decide ((r.slot s).online = some cptr))
      (r.age count)
    have all : (r.age count).length = count := length_before
    unfold ofClient
    omega
  exact h.offHistoryFrom fewer rfl

theorem getHistoryFrom_eq {r : WhowasRing} {nick : CStr} {timelimit : Int} {fuel : Nat}
    {cells : List Nat} {p : Option Nat} (linked : Chain.Linked r.hash.next p cells)
    (enough : cells.length ≤ fuel) :
    r.getHistoryFrom nick timelimit fuel p =
      (cells.find? fun s => irccmp nick (r.slot s).name == .eq &&
        !decide ((r.slot s).logoff < timelimit)).bind fun s => (r.slot s).online := by
  induction cells generalizing p fuel with
  | nil =>
    cases linked
    cases fuel <;> rfl
  | cons temp cells ih =>
    obtain ⟨rfl, rest⟩ := linked
    cases fuel with
    | zero => cases enough
    | succ fuel =>
      have later := ih rest (Nat.le_of_succ_le_succ enough)
      rw [WhowasRing.getHistoryFrom, List.find?_cons]
      by_cases other : irccmp nick (r.slot temp).name = .eq
      · by_cases old : (r.slot temp).logoff < timelimit
        · simp [old, later]
        · simp [other, old]
      · have unlike : (irccmp nick (r.slot temp).name == .eq) = false := by simpa using other
        simp [other, unlike, later]

def entryOf (w : WhowasSlot) : Whowas := { name := w.name, logoff := w.logoff, online := w.online }

end WhowasRing

/-- A call of `add_history` or of `off_history`. -/
inductive WhowasCall where
  | addHistory (now : Int) (cptr : ClientId) (cl : Client) (info : CStr) (online : Bool)
  | offHistory (cptr : ClientId)

namespace History

def add (h : List Whowas) (now : Int) (cptr : ClientId) (name : CStr) (online : Bool) :
    List Whowas :=
  let entry : Whowas := { name := strncpyIrc name nickLen, logoff := now,
                          online := if online then some cptr else none }
  (entry :: h).take nicknameHistoryLength

def off (h : List Whowas) (cptr : ClientId) : List Whowas :=
  h.map fun w => if w.online = some cptr then { w with online := none } else w

def newest (h : List Whowas) (now : Int) (nick : CStr) (timelimit : Int) : Option Whowas :=
  h.find? fun w => irccmp nick w.name == .eq && !decide (w.logoff < now - timelimit)

end History

def whowasMachine : Machine WhowasRing WhowasCall where
  step r
    | .addHistory now cptr cl info online => r.addHistory now cptr cl info online
    | .offHistory cptr => r.offHistory cptr

def historyMachine : Machine (List Whowas) WhowasCall where
  step h
    | .addHistory now cptr cl _ online => History.add h now cptr cl.name online
    | .offHistory cptr => History.off h cptr

/-- The name of a client that enters the history hashes like what the slot holds of it; so
does every name of at most `NICKLEN` characters. -/
def WhowasCall.Fits : WhowasCall → Prop
  | .addHistory _ _ cl _ _ => hashWhowasName cl.name = hashWhowasName (strncpyIrc cl.name nickLen)
  | .offHistory _ => True

instance : DecidablePred WhowasCall.Fits
  | .addHistory .. => inferInstanceAs (Decidable (_ = _))
  | .offHistory _ => isTrue trivial

namespace WhowasRing

/-- What the ring promises: each used slot is on the list of the bucket of its name and on
no other, it has an `online` where it is on the list of that client, `off_history` leaves
nothing that refers to its client, and a lookup gives what the newest fitting entry says. -/
structure Intact (r : WhowasRing) (h : List Whowas) : Prop where
  bucket : ∀ s < nicknameHistoryLength, (r.slot s).hashv ≠ none →
    ∀ hashv, s ∈ r.bucket hashv ↔ hashv = hashWhowasName (r.slot s).name
  double : ∀ hashv, (r.bucket hashv).Nodup ∧
    Chain.Double r.hash.next r.hash.prev (r.hash.heads hashv) (r.bucket hashv)
  online : ∀ s < nicknameHistoryLength, ∀ cptr,
    (r.slot s).online = some cptr ↔ s ∈ r.whowas cptr
  cdouble : ∀ cptr, (r.whowas cptr).Nodup ∧
    Chain.Double r.clist.next r.clist.prev (r.clist.heads cptr) (r.whowas cptr)
  off : ∀ cptr, ∀ s < nicknameHistoryLength, ((r.offHistory cptr).slot s).online ≠ some cptr
  get : ∀ now nick timelimit, r.getHistory now nick timelimit =
    (History.newest h now nick timelimit).bind Whowas.online

structure Shows (r : WhowasRing) (h : List Whowas) (count : Nat) : Prop where
  ordered : r.Ordered count
  entries : h = (r.age count).map fun s => entryOf (r.slot s)
  idle : ∀ s < nicknameHistoryLength, (r.slot s).hashv = none → (r.slot s).online = none

def Named (r : WhowasRing) : Prop :=
  ∀ s hashv, (r.slot s).hashv = some hashv → hashv = hashWhowasName (r.slot s).name

theorem Shows.init : init.Shows [] 0 where
  ordered :=
    { inside := by decide
      fits := Nat.zero_le _
      used := fun s _ => by simp [WhowasRing.init, WhowasSlot.zero, age, before]
      hash := Buckets.Holds.empty
      clist := Buckets.Holds.empty }
  entries := rfl
  idle := fun _ _ _ => rfl

section

variable {r : WhowasRing} {h : List Whowas} {count : Nat}

theorem Shows.addHistory (shows : r.Shows h count) (now : Int) (cptr : ClientId) (cl : Client)
    (info : CStr) (online : Bool) :
    (r.addHistory now cptr cl info online).Shows (History.add h now cptr cl.name online)
      (min count (nicknameHistoryLength - 1) + 1) := by
  obtain ⟨ordered, order⟩ := shows.ordered.addHistory now cptr cl info online
  have inside := shows.ordered.inside
  have fits := shows.ordered.fits
  refine ⟨ordered, ?_, fun s small unused => ?_⟩
  · have outside : r.whowasNext ∉ r.age (min count (nicknameHistoryLength - 1)) :=
      not_mem_before inside (by omega)
    have older : (r.age (min count (nicknameHistoryLength - 1))).map
        (fun s => entryOf ((r.addHistory now cptr cl info online).slot s)) =
        h.take (nicknameHistoryLength - 1) := by
      have same : ∀ s ∈ r.age (min count (nicknameHistoryLength - 1)),
          entryOf ((r.addHistory now cptr cl info online).slot s) = entryOf (r.slot s) := by
        intro s among
        have other : s ≠ r.whowasNext := fun equal => outside (equal ▸ among)
        simp only [WhowasRing.addHistory, evict_slot, Function.update_of_ne other]
      rw [List.map_congr_left same, shows.entries, ← List.map_take]
      unfold age before
      rw [← List.map_take, List.take_range, Nat.min_comm]
    have entry : entryOf ((r.addHistory now cptr cl info online).slot r.whowasNext) =
        { name := strncpyIrc cl.name nickLen, logoff := now,
          online := if online then some cptr else none } := by
      simp [WhowasRing.addHistory, entryOf]
    rw [order, List.map_cons, older, entry]
    rfl
  · simp only [WhowasRing.addHistory, evict_slot] at unused ⊢
    by_cases same : s = r.whowasNext
    · subst same
      simp at unused
    · rw [Function.update_of_ne same] at unused ⊢
      exact shows.idle s small unused

theorem Shows.offHistory (shows : r.Shows h count) (cptr : ClientId) :
    (r.offHistory cptr).Shows (History.off h cptr) count := by
  obtain ⟨ordered, next, slot⟩ := shows.ordered.offHistory cptr
  refine ⟨ordered, ?_, fun s small unused => ?_⟩
  · have order : (r.offHistory cptr).age count = r.age count := by
      unfold age
      rw [next]
    rw [order, shows.entries, History.off, List.map_map]
    refine List.map_congr_left fun s among => ?_
    simp only [Function.comp, slot, ofClient, List.mem_filter, among, true_and, decide_eq_true_eq]
    by_cases mine : (r.slot s).online = some cptr
    · simp [mine, entryOf]
    · simp [mine, entryOf]
  · rw [slot] at unused ⊢
    by_cases mine : s ∈ ofClient r.slot (r.age count) cptr
    · simp [mine]
    · rw [if_neg mine] at unused ⊢
      exact shows.idle s small unused

theorem Named.addHistory (named : r.Named) {now : Int} {cptr : ClientId} {cl : Client}
    {info : CStr} {online : Bool} (fits : (WhowasCall.addHistory now cptr cl info online).Fits) :
    (r.addHistory now cptr cl info online).Named := by
  intro s hashv used
  simp only [WhowasRing.addHistory, evict_slot] at used ⊢
  by_cases same : s = r.whowasNext
  · subst same
    rw [Function.update_self] at used ⊢
    exact (Option.some.inj used).symm.trans fits
  · rw [Function.update_of_ne same] at used ⊢
    exact named s hashv used

theorem Named.offHistory (named : r.Named) (shows : r.Shows h count) (cptr : ClientId) :
    (r.offHistory cptr).Named := by
  intro s hashv used
  rw [(shows.ordered.offHistory cptr).2.2] at used ⊢
  by_cases mine : s ∈ ofClient r.slot (r.age count) cptr
  · rw [if_pos mine] at used ⊢
    exact named s hashv used
  · rw [if_neg mine] at used ⊢
    exact named s hashv used

theorem Ordered.filter_fits (ordered : r.Ordered count) (p : Nat → Bool) :
    ((r.age count).filter p).length ≤ nicknameHistoryLength := by
  have sub := List.length_filter_le p (r.age count)
  have all : (r.age count).length = count := length_before
  have fits := ordered.fits
  omega

theorem Ordered.bucket_eq (ordered : r.Ordered count) (hashv : Nat) :
    r.bucket hashv = inBucket r.slot (r.age count) hashv :=
  ordered.hash.cells_eq (ordered.filter_fits _)

theorem Ordered.whowas_eq (ordered : r.Ordered count) (cptr : ClientId) :
    r.whowas cptr = ofClient r.slot (r.age count) cptr :=
  ordered.clist.cells_eq (ordered.filter_fits _)

theorem Shows.mem_age (shows : r.Shows h count) {s : Nat} (small : s < nicknameHistoryLength)
    {cptr : ClientId} (online : (r.slot s).online = some cptr) : s ∈ r.age count := by
  refine (shows.ordered.used s small).1 fun unused => ?_
  rw [shows.idle s small unused] at online
  cases online

theorem Shows.getHistory (shows : r.Shows h count) (named : r.Named) (now : Int) (nick : CStr)
    (timelimit : Int) : r.getHistory now nick timelimit =
      (History.newest h now nick timelimit).bind Whowas.online := by
  have ordered := shows.ordered
  have linked := (ordered.hash.double (hashWhowasName nick)).forth
  -- a slot of this name is in the bucket that is searched
  have searched : ∀ s ∈ r.age count,
      (decide ((r.slot s).hashv = some (hashWhowasName nick)) &&
        (irccmp nick (r.slot s).name == .eq && !decide ((r.slot s).logoff < now - timelimit))) =
      (irccmp nick (r.slot s).name == .eq && !decide ((r.slot s).logoff < now - timelimit)) := by
    intro s among
    cases like : (irccmp nick (r.slot s).name == .eq) with
    | false => simp
    | true =>
      have used := (ordered.used s (lt_of_mem_before ordered.inside among)).2 among
      obtain ⟨own, known⟩ := Option.ne_none_iff_exists'.1 used
      have same := hashWhowasName_congr (beq_iff_eq.1 like)
      rw [known, named s own known, same]
      simp
  have found := List.find?_congr searched
  unfold WhowasRing.getHistory History.newest
  rw [getHistoryFrom_eq linked (ordered.filter_fits _), inBucket, List.find?_filter]
  simp only [Bool.decide_and, Bool.decide_eq_true]
  rw [found, shows.entries, List.find?_map, Option.bind_map]
  rfl

theorem Shows.intact (shows : r.Shows h count) (named : r.Named) : r.Intact h where
  bucket := fun s small used hashv => by
    rw [shows.ordered.bucket_eq, inBucket, List.mem_filter, decide_eq_true_eq]
    have among := (shows.ordered.used s small).1 used
    obtain ⟨own, known⟩ := Option.ne_none_iff_exists'.1 used
    rw [known, ← named s own known, Option.some_inj]
    exact ⟨fun both => both.2.symm, fun same => ⟨among, same.symm⟩⟩
  double := fun hashv => by
    rw [shows.ordered.bucket_eq]
    exact ⟨shows.ordered.hash.nodup hashv, shows.ordered.hash.double hashv⟩
  online := fun s small cptr => by
    rw [shows.ordered.whowas_eq, ofClient, List.mem_filter, decide_eq_true_eq]
    exact ⟨fun online => ⟨shows.mem_age small online, online⟩, And.right⟩
  cdouble := fun cptr => by
    rw [shows.ordered.whowas_eq]
    exact ⟨shows.ordered.clist.nodup cptr, shows.ordered.clist.double cptr⟩
  off := fun cptr s small online => by
    rw [(shows.ordered.offHistory cptr).2.2] at online
    by_cases mine : s ∈ ofClient r.slot (r.age count) cptr
    · simp [mine] at online
    · rw [if_neg mine] at online
      exact mine (List.mem_filter.2 ⟨shows.mem_age small online, by simpa using online⟩)
  get := shows.getHistory named

end

theorem shows_step {r : WhowasRing} {h : List Whowas} {count : Nat} (shows : r.Shows h count)
    (call : WhowasCall) :
    ∃ count', (whowasMachine.step r call).Shows (historyMachine.step h call) count' := by
  cases call with
  | addHistory now cptr cl info online => exact ⟨_, shows.addHistory now cptr cl info online⟩
  | offHistory cptr => exact ⟨count, shows.offHistory cptr⟩

theorem shows_run (calls : List WhowasCall) :
    ∃ count, (whowasMachine.run init calls).Shows (historyMachine.run [] calls) count := by
  refine Machine.run_related (R := fun r h => ∃ count, Shows r h count) ?_ ⟨0, Shows.init⟩ calls
  rintro r h call ⟨count, shows⟩
  exact shows_step shows call

theorem named_run {calls : List WhowasCall} (fits : ∀ call ∈ calls, call.Fits) :
    (whowasMachine.run init calls).Named := by
  induction calls using List.reverseRecOn with
  | nil => exact fun s hashv used => nomatch used
  | append_singleton calls call ih =>
    have named := ih fun other among => fits other (List.mem_append_left _ among)
    have last := fits call (List.mem_append_right _ List.mem_cons_self)
    obtain ⟨count, shows⟩ := shows_run calls
    rw [Machine.run_append]
    cases call with
    | addHistory now cptr cl info online => exact named.addHistory last
    | offHistory cptr => exact named.offHistory shows cptr

theorem fits_of_intact {r : WhowasRing} {h : List Whowas} {count : Nat} (shows : r.Shows h count)
    {call : WhowasCall}
    (intact : (whowasMachine.step r call).Intact (historyMachine.step h call)) : call.Fits := by
  cases call with
  | offHistory cptr => trivial
  | addHistory now cptr cl info online =>
    have after := (shows.addHistory now cptr cl info online).ordered
    have order := (shows.ordered.addHistory now cptr cl info online).2
    have written : (r.addHistory now cptr cl info online).slot r.whowasNext =
        { hashv := some (hashWhowasName cl.name), name := strncpyIrc cl.name nickLen,
          username := cl.username, hostname := cl.host, servername := cl.userServer,
          realname := info, logoff := now, online := if online then some cptr else none } := by
      simp [WhowasRing.addHistory]
    have linked : r.whowasNext ∈
        (r.addHistory now cptr cl info online).bucket (hashWhowasName cl.name) := by
      rw [after.bucket_eq, inBucket, order]
      simp [written]
    have own := (intact.bucket r.whowasNext shows.ordered.inside
      (by change ((r.addHistory now cptr cl info online).slot r.whowasNext).hashv ≠ none
          simp [written]) _).1 linked
    refine own.trans ?_
    change hashWhowasName ((r.addHistory now cptr cl info online).slot r.whowasNext).name = _
    rw [written]

/-- The ring is what it promises to be all along a run exactly if the names that enter it
hash like what the slots hold of them. -/
theorem intact_iff_fits (calls : List WhowasCall) :
    (∀ pre, pre <+: calls →
        (whowasMachine.run init pre).Intact (historyMachine.run [] pre)) ↔
      ∀ call ∈ calls, call.Fits := by
  refine ⟨fun intact call among => ?_, fun fits pre inside => ?_⟩
  · obtain ⟨pre, post, rfl⟩ := List.append_of_mem among
    obtain ⟨count, shows⟩ := shows_run pre
    have after := intact (pre ++ [call]) ⟨post, by simp⟩
    rw [Machine.run_append, Machine.run_append] at after
    exact fits_of_intact shows after
  · obtain ⟨count, shows⟩ := shows_run pre
    exact shows.intact (named_run fun call among => fits call (inside.subset among))

/-- A connection that we opened has the name of its server; when it sends USER and NICK in
place of SERVER, that name enters the history. -/
def longNameCall : WhowasCall :=
  .addHistory 1000 5 { Client.zero with name := lit "hub.example.net", status := .handshake } []
    true

theorem long_name_not_intact :
    ¬ (whowasMachine.run init [longNameCall]).Intact (historyMachine.run [] [longNameCall]) := by
  intro intact
  have found := intact.get 1000 (lit "hub.examp") 60
  have missed : (whowasMachine.run init [longNameCall]).getHistory 1000 (lit "hub.examp") 60 =
      none := by decide +kernel
  have newest : (History.newest (historyMachine.run [] [longNameCall]) 1000 (lit "hub.examp")
      60).bind Whowas.online = some 5 := by decide +kernel
  rw [missed, newest] at found
  cases found

end WhowasRing

end Ircd
