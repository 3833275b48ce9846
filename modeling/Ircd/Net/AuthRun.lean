import Ircd.Net.Auth
import Mathlib.Data.List.Perm.Lattice

/-! Every connecting client leaves the auth stage exactly once.

`Threaded` says that the requests in use are those of the two lists and some that are on
their way between them. What a handler does concerns one request and its client, `Only`;
the lists, the queries of the resolver and the count of releases are then kept one by one.
-/

set_option autoImplicit false

namespace Ircd

def AuthRequest.body (r : AuthRequest) : AuthRequest := { r with next := none, prev := none }

theorem AuthRequest.same {r r' : AuthRequest} (body : r'.body = r.body) {T : Type}
    (field : AuthRequest → T) (kept : ∀ r : AuthRequest, field r.body = field r := by
      intro r
      rfl) : field r' = field r := by
  rw [← kept r', body, kept]

/-- Which list a request belongs to: its ident query is active, or only the resolver is. -/
def AuthRequest.Fits (r : AuthRequest) : AuthList → Prop
  | .poll => r.doingAuth = true
  | .incomplete => r.doingAuth = false ∧ r.dnsPending = true

namespace AuthState

variable {s s' s'' : AuthState} {a b : AuthId} {list : AuthList}

theorem touch_of_live (live : a ∈ s.live) : s.touch a = s := by
  have seen : s.live.contains a = true := List.contains_iff_mem.2 live
  rw [touch, seen, Bool.not_true, Bool.or_false]

section SetRequest

variable {r : AuthRequest}

@[simp] theorem setRequest_self : (s.setRequest a r).request a = r := Function.update_self ..

theorem setRequest_of_ne (other : b ≠ a) : (s.setRequest a r).request b = s.request b :=
  Function.update_of_ne other ..

@[simp] theorem setRequest_head : (s.setRequest a r).head = s.head := by
  funext list
  cases list <;> rfl

theorem setRequest_fault (live : a ∈ s.live) : (s.setRequest a r).fault = s.fault := by
  have same : (s.touch a).fault = s.fault := by rw [touch_of_live live]
  exact same

theorem setRequest_field {T : Type} (field : AuthRequest → T) :
    (fun b => field ((s.setRequest a r).request b)) =
      Function.update (fun b => field (s.request b)) a (field r) := by
  funext b
  by_cases same : b = a
  · rw [same, setRequest_self, Function.update_self]
  · rw [setRequest_of_ne same, Function.update_of_ne same]

end SetRequest

theorem setHead_head {p : Option AuthId} :
    (s.setHead list p).head = Function.update s.head list p := by
  funext other
  cases list <;> cases other <;> rfl

@[simp] theorem setHead_request {p : Option AuthId} : (s.setHead list p).request = s.request := by
  cases list <;> rfl

@[simp] theorem setHead_fault {p : Option AuthId} : (s.setHead list p).fault = s.fault := by
  cases list <;> rfl

structure Relinked (s s' : AuthState) : Prop where
  body : ∀ b, (s'.request b).body = (s.request b).body
  live : s'.live = s.live
  client : s'.client = s.client
  started : s'.started = s.started
  dnsQuery : s'.dnsQuery = s.dnsQuery
  outstanding : s'.outstanding = s.outstanding
  currentTime : s'.currentTime = s.currentTime

theorem Relinked.refl (s : AuthState) : s.Relinked s := ⟨fun _ => rfl, rfl, rfl, rfl, rfl, rfl, rfl⟩

theorem Relinked.trans (first : s.Relinked s') (second : s'.Relinked s'') : s.Relinked s'' where
  body b := (second.body b).trans (first.body b)
  live := second.live.trans first.live
  client := second.client.trans first.client
  started := second.started.trans first.started
  dnsQuery := second.dnsQuery.trans first.dnsQuery
  outstanding := second.outstanding.trans first.outstanding
  currentTime := second.currentTime.trans first.currentTime

theorem touch_relinked : s.Relinked (s.touch a) := ⟨fun _ => rfl, rfl, rfl, rfl, rfl, rfl, rfl⟩

theorem setHead_relinked {p : Option AuthId} : s.Relinked (s.setHead list p) := by
  cases list <;> exact ⟨fun _ => rfl, rfl, rfl, rfl, rfl, rfl, rfl⟩

theorem setRequest_relinked {r : AuthRequest} (same : r.body = (s.request a).body) :
    s.Relinked (s.setRequest a r) := by
  refine ⟨fun b => ?_, rfl, rfl, rfl, rfl, rfl, rfl⟩
  by_cases here : b = a
  · rw [here, setRequest_self, same]
  · rw [setRequest_of_ne here]

theorem setPrev_relinked {p q : Option AuthId} : s.Relinked (s.setPrev p q) := by
  cases p with
  | none => exact .refl s
  | some b => exact setRequest_relinked rfl

theorem setPrev_next {p q : Option AuthId} :
    (fun b => ((s.setPrev p q).request b).next) = fun b => (s.request b).next := by
  cases p with
  | none => rfl
  | some b =>
    rw [setPrev, setRequest_field AuthRequest.next]
    exact Function.update_eq_self b _

theorem setPrev_prev {p q : Option AuthId} :
    (fun b => ((s.setPrev p q).request b).prev) =
      Chain.prevAfter (fun b => (s.request b).prev) q p := by
  cases p with
  | none => rfl
  | some b => rw [setPrev, setRequest_field AuthRequest.prev]; rfl

@[simp] theorem setPrev_head {p q : Option AuthId} : (s.setPrev p q).head = s.head := by
  cases p with
  | none => rfl
  | some b => exact setRequest_head

theorem setPrev_fault {p q : Option AuthId} (live : ∀ b, p = some b → b ∈ s.live) :
    (s.setPrev p q).fault = s.fault := by
  cases p with
  | none => rfl
  | some b => exact setRequest_fault (live b rfl)

theorem unlinkAuthRequest_of_first (first : (s.request a).prev = none) :
    s.unlinkAuthRequest a list =
      ((s.touch a).setPrev (s.request a).next none).setHead list (s.request a).next := by
  have same : ((s.touch a).request a).prev = none := first
  unfold unlinkAuthRequest
  simp only [same]
  rfl

theorem unlinkAuthRequest_of_later (later : (s.request a).prev = some b) :
    s.unlinkAuthRequest a list =
      ((s.touch a).setPrev (s.request a).next (some b)).setRequest b
        { ((s.touch a).setPrev (s.request a).next (some b)).request b with
          next := (s.request a).next } := by
  have same : ((s.touch a).request a).prev = some b := later
  unfold unlinkAuthRequest
  simp only [same]
  rfl

theorem unlinkAuthRequest_relinked (s : AuthState) (a : AuthId) (list : AuthList) :
    s.Relinked (s.unlinkAuthRequest a list) := by
  have first := touch_relinked (s := s) (a := a)
  cases prev : (s.request a).prev with
  | none =>
    rw [unlinkAuthRequest_of_first prev]
    exact (first.trans setPrev_relinked).trans setHead_relinked
  | some p =>
    rw [unlinkAuthRequest_of_later prev]
    exact (first.trans setPrev_relinked).trans (setRequest_relinked rfl)

theorem unlinkAuthRequest_next :
    (fun b => ((s.unlinkAuthRequest a list).request b).next) =
      Chain.nextAfter (fun b => (s.request b).next) (s.request a).prev (s.request a).next := by
  cases prev : (s.request a).prev with
  | none =>
    rw [unlinkAuthRequest_of_first prev, setHead_request, setPrev_next]
    rfl
  | some p =>
    rw [unlinkAuthRequest_of_later prev, setRequest_field AuthRequest.next, setPrev_next]
    rfl

theorem unlinkAuthRequest_prev :
    (fun b => ((s.unlinkAuthRequest a list).request b).prev) =
      Chain.prevAfter (fun b => (s.request b).prev) (s.request a).prev (s.request a).next := by
  cases prev : (s.request a).prev with
  | none =>
    rw [unlinkAuthRequest_of_first prev, setHead_request, setPrev_prev]
    rfl
  | some p =>
    rw [unlinkAuthRequest_of_later prev, setRequest_field AuthRequest.prev]
    exact (Function.update_eq_self p _).trans setPrev_prev

theorem unlinkAuthRequest_head :
    (s.unlinkAuthRequest a list).head = Function.update s.head list
      (Chain.headAfter (s.head list) (s.request a).prev (s.request a).next) := by
  have same : (s.touch a).head = s.head := by
    funext other
    cases other <;> rfl
  cases prev : (s.request a).prev with
  | none =>
    rw [unlinkAuthRequest_of_first prev, setHead_head, setPrev_head, same]
    rfl
  | some p =>
    rw [unlinkAuthRequest_of_later prev, setRequest_head, setPrev_head, same]
    exact (Function.update_eq_self list _).symm

theorem unlinkAuthRequest_fault (live : a ∈ s.live)
    (next : ∀ b, (s.request a).next = some b → b ∈ s.live)
    (prev : ∀ b, (s.request a).prev = some b → b ∈ s.live) :
    (s.unlinkAuthRequest a list).fault = s.fault := by
  have before (q : Option AuthId) : ((s.touch a).setPrev (s.request a).next q).fault = s.fault := by
    rw [touch_of_live live]
    exact setPrev_fault next
  cases at_ : (s.request a).prev with
  | none => rw [unlinkAuthRequest_of_first at_, setHead_fault, before]
  | some p =>
    have same := (touch_relinked (s := s) (a := a)).trans
      (setPrev_relinked (p := (s.request a).next) (q := some p))
    rw [unlinkAuthRequest_of_later at_, setRequest_fault (same.live ▸ prev p at_), before]

theorem linkAuthRequest_relinked (s : AuthState) (a : AuthId) (list : AuthList) :
    s.Relinked (s.linkAuthRequest a list) := by
  have first : s.Relinked (s.setRequest a { s.request a with prev := none, next := s.head list }) :=
    setRequest_relinked rfl
  exact (first.trans setPrev_relinked).trans setHead_relinked

theorem linkAuthRequest_next :
    (fun b => ((s.linkAuthRequest a list).request b).next) =
      Function.update (fun b => (s.request b).next) a (s.head list) := by
  rw [linkAuthRequest, setHead_request, setPrev_next, setRequest_field AuthRequest.next]

theorem linkAuthRequest_prev :
    (fun b => ((s.linkAuthRequest a list).request b).prev) =
      Chain.prevFront (fun b => (s.request b).prev) a (s.head list) := by
  rw [linkAuthRequest, setHead_request, setPrev_prev, setRequest_field AuthRequest.prev]
  cases s.head list <;> rfl

theorem linkAuthRequest_head :
    (s.linkAuthRequest a list).head = Function.update s.head list (some a) := by
  rw [linkAuthRequest, setHead_head, setPrev_head, setRequest_head]

theorem linkAuthRequest_fault (live : a ∈ s.live)
    (first : ∀ b, s.head list = some b → b ∈ s.live) :
    (s.linkAuthRequest a list).fault = s.fault := by
  have written : (s.setRequest a
      { s.request a with prev := none, next := s.head list }).fault = s.fault :=
    setRequest_fault live
  rw [linkAuthRequest, setHead_fault, ← written]
  exact setPrev_fault first

structure Threaded (s : AuthState) (loose : List AuthId) (lists : AuthList → List AuthId) :
    Prop where
  sound : s.fault = false
  nodup : s.live.Nodup
  perm : s.live.Perm (loose ++ (lists .poll ++ lists .incomplete))
  double : ∀ list, Chain.Double (fun b => (s.request b).next) (fun b => (s.request b).prev)
    (s.head list) (lists list)

variable {base : AuthClientId → Nat} {loose : List AuthId} {lists : AuthList → List AuthId} {pre post : List AuthId}

theorem Threaded.live (h : s.Threaded loose lists) (inside : a ∈ lists list) : a ∈ s.live := by
  rw [h.perm.mem_iff]
  cases list with
  | poll => exact List.mem_append_right _ (List.mem_append_left _ inside)
  | incomplete => exact List.mem_append_right _ (List.mem_append_right _ inside)

theorem Threaded.distinct (h : s.Threaded loose lists) :
    (loose ++ (lists .poll ++ lists .incomplete)).Nodup :=
  h.perm.nodup_iff.1 h.nodup

theorem Threaded.list_nodup (h : s.Threaded loose lists) (list : AuthList) :
    (lists list).Nodup := by
  have both := (List.nodup_append.1 h.distinct).2.1
  cases list with
  | poll => exact (List.nodup_append.1 both).1
  | incomplete => exact (List.nodup_append.1 both).2.1

theorem Threaded.apart (h : s.Threaded loose lists) {other : AuthList} (inside : a ∈ lists list)
    (there : a ∈ lists other) : list = other := by
  have both := (List.nodup_append.1 h.distinct).2.1
  have never := (List.nodup_append.1 both).2.2
  cases list with
  | poll =>
    cases other with
    | poll => rfl
    | incomplete => exact absurd rfl (never a inside a there)
  | incomplete =>
    cases other with
    | poll => exact absurd rfl (never a there a inside)
    | incomplete => rfl

theorem Threaded.not_loose (h : s.Threaded loose lists) (inside : a ∈ lists list) :
    a ∉ loose := by
  intro there
  have never := (List.nodup_append.1 h.distinct).2.2 a there
  cases list with
  | poll => exact never a (List.mem_append_left _ inside) rfl
  | incomplete => exact never a (List.mem_append_right _ inside) rfl

theorem Threaded.congr (h : s.Threaded loose lists)
    (next : ∀ b, (s'.request b).next = (s.request b).next)
    (prev : ∀ b, (s'.request b).prev = (s.request b).prev) (head : s'.head = s.head)
    (live : s'.live = s.live) (fault : s'.fault = s.fault) : s'.Threaded loose lists where
  sound := fault.trans h.sound
  nodup := live ▸ h.nodup
  perm := live ▸ h.perm
  double list := by
    rw [head]
    exact (h.double list).congr (fun b _ => next b) fun b _ => prev b

theorem Threaded.setRequest (h : s.Threaded loose lists) (live : a ∈ s.live) {r : AuthRequest}
    (next : r.next = (s.request a).next) (prev : r.prev = (s.request a).prev) :
    (s.setRequest a r).Threaded loose lists := by
  have kept {T : Type} (field : AuthRequest → T) (same : field r = field (s.request a))
      (b : AuthId) : field ((s.setRequest a r).request b) = field (s.request b) := by
    have written := congrFun (setRequest_field (s := s) (a := a) (r := r) field) b
    rw [written, same]
    exact congrFun (Function.update_eq_self a fun b => field (s.request b)) b
  exact h.congr (kept AuthRequest.next next) (kept AuthRequest.prev prev) setRequest_head rfl
    (setRequest_fault live)

theorem Threaded.freeAuthRequest (h : s.Threaded (a :: loose) lists) :
    (s.freeAuthRequest a).Threaded loose lists := by
  have live : a ∈ s.live := h.perm.mem_iff.2 (List.mem_append_left _ List.mem_cons_self)
  have gone := h.perm.erase a
  rw [List.cons_append, List.erase_cons_head] at gone
  have same : (s.touch a).fault = s.fault := by rw [touch_of_live live]
  exact ⟨same.trans h.sound, h.nodup.erase a, gone, h.double⟩

theorem Threaded.makeAuthRequest (h : s.Threaded loose lists) (fresh : a ∉ s.live)
    (client : AuthClientId) : (s.makeAuthRequest client a).Threaded (a :: loose) lists := by
  refine ⟨h.sound, List.nodup_cons.2 ⟨fresh, h.nodup⟩, h.perm.cons a, fun list => ?_⟩
  have other {b : AuthId} (inside : b ∈ lists list) : b ≠ a := by
    rintro rfl
    exact fresh (h.live inside)
  exact (h.double list).congr
    (fun b inside => congrArg AuthRequest.next (Function.update_of_ne (other inside) ..))
    fun b inside => congrArg AuthRequest.prev (Function.update_of_ne (other inside) ..)

theorem perm_update (loose : List AuthId) (lists : AuthList → List AuthId) (list : AuthList)
    (a : AuthId) :
    (loose ++ (Function.update lists list (a :: lists list) .poll ++
        Function.update lists list (a :: lists list) .incomplete)).Perm
      (a :: (loose ++ (lists .poll ++ lists .incomplete))) := by
  cases list with
  | poll => exact List.perm_middle
  | incomplete =>
    rw [← List.append_assoc, ← List.append_assoc]
    exact List.perm_middle

theorem Threaded.linkAuthRequest (h : s.Threaded (a :: loose) lists) (list : AuthList) :
    (s.linkAuthRequest a list).Threaded loose
      (Function.update lists list (a :: lists list)) := by
  have live : a ∈ s.live := h.perm.mem_iff.2 (List.mem_append_left _ List.mem_cons_self)
  have fresh {other : AuthList} : a ∉ lists other := fun inside =>
    h.not_loose inside List.mem_cons_self
  have kept := linkAuthRequest_relinked s a list
  refine ⟨?_, kept.live ▸ h.nodup, ?_, fun other => ?_⟩
  · rw [linkAuthRequest_fault live, h.sound]
    intro b first
    rw [(h.double list).forth.head?_eq] at first
    exact h.live (List.mem_of_mem_head? first)
  · rw [kept.live]
    exact h.perm.trans (perm_update loose lists list a).symm
  · rw [linkAuthRequest_next, linkAuthRequest_prev, linkAuthRequest_head]
    by_cases here : other = list
    · subst here
      rw [Function.update_self, Function.update_self]
      exact (h.double other).link (h.list_nodup other) fresh
    · rw [Function.update_of_ne here, Function.update_of_ne here]
      have new {b : AuthId} (inside : b ∈ lists other) : b ≠ a := by
        rintro rfl
        exact fresh inside
      refine (h.double other).congr (fun b inside => Function.update_of_ne (new inside) ..)
        fun b inside => Chain.prevFront_of_ne (new inside) fun first => here ?_
      rw [(h.double list).forth.head?_eq] at first
      exact h.apart inside (List.mem_of_mem_head? first)

theorem Threaded.unlinkAuthRequest (h : s.Threaded loose lists)
    (here : lists list = pre ++ a :: post) :
    (s.unlinkAuthRequest a list).Threaded (a :: loose)
      (Function.update lists list (pre ++ post)) := by
  have inside : a ∈ lists list := here ▸ List.mem_append_right pre List.mem_cons_self
  have double := h.double list
  have distinct := h.list_nodup list
  rw [here] at double distinct
  have after : (s.request a).next = post.head? := double.forth.next_eq
  have before : (s.request a).prev = pre.getLast? := by
    rw [double.back.prev_eq, Option.or_none]
  -- both neighbours are in the same list, so the other list is not touched
  have nextInside {b : AuthId} (next : (s.request a).next = some b) : b ∈ lists list := by
    rw [after] at next
    rw [here]
    exact List.mem_append_right pre (List.mem_cons_of_mem a (List.mem_of_mem_head? next))
  have prevInside {b : AuthId} (prev : (s.request a).prev = some b) : b ∈ lists list := by
    rw [before] at prev
    rw [here]
    exact List.mem_append_left _ (List.mem_of_getLast? prev)
  have kept := unlinkAuthRequest_relinked s a list
  refine ⟨?_, kept.live ▸ h.nodup, ?_, fun other => ?_⟩
  · rw [unlinkAuthRequest_fault (h.live inside) (fun b next => h.live (nextInside next))
      fun b prev => h.live (prevInside prev), h.sound]
  · rw [kept.live]
    refine h.perm.trans ?_
    cases list with
    | poll =>
      rw [here]
      change (loose ++ (pre ++ a :: post ++ _)).Perm (a :: (loose ++ (pre ++ post ++ _)))
      rw [List.append_assoc, ← List.append_assoc, List.append_assoc pre, ← List.append_assoc loose]
      exact List.perm_middle
    | incomplete =>
      rw [here]
      change (loose ++ (_ ++ (pre ++ a :: post))).Perm (a :: (loose ++ (_ ++ (pre ++ post))))
      simp only [← List.append_assoc]
      exact List.perm_middle
  · rw [unlinkAuthRequest_next, unlinkAuthRequest_prev, unlinkAuthRequest_head]
    by_cases same : other = list
    · subst same
      rw [Function.update_self, Function.update_self]
      exact double.unlink distinct
    · rw [Function.update_of_ne same, Function.update_of_ne same]
      exact (h.double other).congr
        (fun b there => Chain.nextAfter_of_ne fun prev => same (h.apart there (prevInside prev)))
        fun b there => Chain.prevAfter_of_ne fun next => same (h.apart there (nextInside next))

structure Only (a : AuthId) (s s' : AuthState) : Prop where
  owner : (s'.request a).client = (s.request a).client
  timeout : (s'.request a).timeout = (s.request a).timeout
  others : ∀ b, b ≠ a → (s'.request b).body = (s.request b).body
  clients : ∀ c, c ≠ (s.request a).client → s'.client c = s.client c
  started : s'.started = s.started
  currentTime : s'.currentTime = s.currentTime

theorem Only.refl (a : AuthId) (s : AuthState) : Only a s s :=
  ⟨rfl, rfl, fun _ _ => rfl, fun _ _ => rfl, rfl, rfl⟩

theorem Only.trans (first : Only a s s') (second : Only a s' s'') : Only a s s'' where
  owner := second.owner.trans first.owner
  timeout := second.timeout.trans first.timeout
  others b other := (second.others b other).trans (first.others b other)
  clients c other := (second.clients c (first.owner ▸ other)).trans (first.clients c other)
  started := second.started.trans first.started
  currentTime := second.currentTime.trans first.currentTime

theorem Relinked.only (h : s.Relinked s') : Only a s s' where
  owner := AuthRequest.same (h.body a) AuthRequest.client
  timeout := AuthRequest.same (h.body a) AuthRequest.timeout
  others b _ := h.body b
  clients c _ := congrFun h.client c
  started := h.started
  currentTime := h.currentTime

theorem setRequest_only {r : AuthRequest} (owner : r.client = (s.request a).client)
    (timeout : r.timeout = (s.request a).timeout) : Only a s (s.setRequest a r) where
  owner := by rw [setRequest_self, owner]
  timeout := by rw [setRequest_self, timeout]
  others b other := by rw [setRequest_of_ne other]
  clients _ _ := rfl
  started := rfl
  currentTime := rfl

theorem setClient_only {c : AuthClientId} (owner : c = (s.request a).client) {cl : AuthClient} :
    Only a s (s.setClient c cl) := by
  refine ⟨rfl, rfl, fun _ _ => rfl, fun d other => ?_, rfl, rfl⟩
  rw [← owner] at other
  exact Function.update_of_ne other ..

theorem freeAuthRequest_only : Only a s (s.freeAuthRequest a) :=
  ⟨rfl, rfl, fun _ _ => rfl, fun _ _ => rfl, rfl, rfl⟩

theorem Only.owners (h : Only a s s') (b : AuthId) :
    (s'.request b).client = (s.request b).client := by
  by_cases here : b = a
  · rw [here, h.owner]
  · exact AuthRequest.same (h.others b here) AuthRequest.client

/-- Each client has been released once, or has one request that is still in use. `base` is an
earlier count. -/
structure Accounted (s : AuthState) (base : AuthClientId → Nat) : Prop where
  base : ∀ c, base c ≤ (s.client c).released
  started : ∀ a ∈ s.live, (s.request a).client ∈ s.started
  single : ∀ a ∈ s.live, ∀ b ∈ s.live, (s.request a).client = (s.request b).client → a = b
  waiting : ∀ a ∈ s.live, (s.client (s.request a).client).released = 0
  released : ∀ c ∈ s.started, (∀ a ∈ s.live, (s.request a).client ≠ c) →
    (s.client c).released = 1
  unknown : ∀ c, c ∉ s.started → (s.client c).released = 0

theorem Accounted.stay (h : s.Accounted base) (only : Only a s s') (live : ∀ b, b ∈ s'.live ↔ b ∈ s.live)
    (count : (s'.client (s.request a).client).released =
      (s.client (s.request a).client).released) : s'.Accounted base := by
  have same (c : AuthClientId) : (s'.client c).released = (s.client c).released := by
    by_cases owner : c = (s.request a).client
    · rw [owner, count]
    · rw [only.clients c owner]
  refine ⟨fun c => ?_, fun b there => ?_, fun b there d also equal => ?_, fun b there => ?_,
    fun c started none => ?_, fun c unknown => ?_⟩
  · rw [same]
    exact h.base c
  · rw [only.owners, only.started]
    exact h.started b ((live b).1 there)
  · rw [only.owners, only.owners] at equal
    exact h.single b ((live b).1 there) d ((live d).1 also) equal
  · rw [same, only.owners]
    exact h.waiting b ((live b).1 there)
  · rw [same]
    refine h.released c (only.started ▸ started) fun b there => ?_
    rw [← only.owners]
    exact none b ((live b).2 there)
  · rw [same]
    exact h.unknown c (only.started ▸ unknown)

theorem Accounted.leave (h : s.Accounted base) (only : Only a s s') (inside : a ∈ s.live)
    (live : ∀ b, b ∈ s'.live ↔ b ∈ s.live ∧ b ≠ a)
    (count : (s'.client (s.request a).client).released =
      (s.client (s.request a).client).released + 1) : s'.Accounted base := by
  refine ⟨fun c => ?_, fun b there => ?_, fun b there d also equal => ?_, fun b there => ?_,
    fun c started none => ?_, fun c unknown => ?_⟩
  · by_cases owner : c = (s.request a).client
    · rw [owner, count]
      exact Nat.le_succ_of_le (h.base _)
    · rw [only.clients c owner]
      exact h.base c
  · rw [only.owners, only.started]
    exact h.started b ((live b).1 there).1
  · rw [only.owners, only.owners] at equal
    exact h.single b ((live b).1 there).1 d ((live d).1 also).1 equal
  · obtain ⟨known, other⟩ := (live b).1 there
    have apart : (s.request b).client ≠ (s.request a).client := fun same =>
      other (h.single b known a inside same)
    rw [only.owners, only.clients _ apart]
    exact h.waiting b known
  · by_cases owner : c = (s.request a).client
    · rw [owner, count, h.waiting a inside]
    · rw [only.clients c owner]
      refine h.released c (only.started ▸ started) fun b there same => ?_
      have other : b ≠ a := by
        rintro rfl
        exact owner same.symm
      exact none b ((live b).2 ⟨there, other⟩) ((only.owners b).trans same)
  · have unknown : c ∉ s.started := only.started ▸ unknown
    have other : c ≠ (s.request a).client := by
      rintro rfl
      exact unknown (h.started a inside)
    rw [only.clients c other]
    exact h.unknown c unknown

structure Resolving (s : AuthState) : Prop where
  nodup : s.outstanding.Nodup
  asked : ∀ a ∈ s.live, (s.request a).dnsPending = true →
    ∃ q ∈ s.outstanding, (s.dnsQuery q).ptr = a
  refers : ∀ q ∈ s.outstanding, (s.dnsQuery q).ptr ∈ s.live ∧
    (s.request (s.dnsQuery q).ptr).dnsPending = true ∧
    (s.client (s.request (s.dnsQuery q).ptr).client).dnsQuery = some q ∧
    (s.dnsQuery q).query = true

theorem Resolving.keep (h : s.Resolving) (only : Only a s s')
    (live : ∀ b, b ∈ s'.live ↔ b ∈ s.live) (outstanding : s'.outstanding = s.outstanding)
    (queries : s'.dnsQuery = s.dnsQuery)
    (pending : (s'.request a).dnsPending = (s.request a).dnsPending)
    (query : (s'.client (s.request a).client).dnsQuery =
      (s.client (s.request a).client).dnsQuery) : s'.Resolving := by
  have pendings (b : AuthId) : (s'.request b).dnsPending = (s.request b).dnsPending := by
    by_cases here : b = a
    · rw [here, pending]
    · exact AuthRequest.same (only.others b here) AuthRequest.dnsPending
  have asks (c : AuthClientId) : (s'.client c).dnsQuery = (s.client c).dnsQuery := by
    by_cases owner : c = (s.request a).client
    · rw [owner, query]
    · rw [only.clients c owner]
  refine ⟨outstanding ▸ h.nodup, fun b there waits => ?_, fun q open_ => ?_⟩
  · rw [outstanding, queries]
    exact h.asked b ((live b).1 there) (pendings b ▸ waits)
  · rw [queries, live, pendings, asks, only.owners]
    exact h.refers q (outstanding ▸ open_)

/-- A request stops waiting: nothing in the hands of the resolver refers to it any more. -/
theorem Resolving.settle (h : s.Resolving) (accounted : s.Accounted base) (only : Only a s s')
    (inside : a ∈ s.live) (live : ∀ b, b ≠ a → (b ∈ s'.live ↔ b ∈ s.live))
    (nodup : s'.outstanding.Nodup)
    (out : ∀ q, q ∈ s'.outstanding ↔ q ∈ s.outstanding ∧ (s.dnsQuery q).ptr ≠ a)
    (queries : ∀ q ∈ s'.outstanding, s'.dnsQuery q = s.dnsQuery q)
    (settled : a ∈ s'.live → (s'.request a).dnsPending = false) : s'.Resolving := by
  refine ⟨nodup, fun b there waits => ?_, fun q open_ => ?_⟩
  · have other : b ≠ a := by
      rintro rfl
      rw [settled there] at waits
      cases waits
    rw [AuthRequest.same (only.others b other) AuthRequest.dnsPending] at waits
    obtain ⟨q, open_, refers⟩ := h.asked b ((live b other).1 there) waits
    have still : q ∈ s'.outstanding := (out q).2 ⟨open_, refers ▸ other⟩
    exact ⟨q, still, (queries q still).symm ▸ refers⟩
  · obtain ⟨before, other⟩ := (out q).1 open_
    obtain ⟨there, waits, asks, active⟩ := h.refers q before
    have apart : (s.request (s.dnsQuery q).ptr).client ≠ (s.request a).client := fun same =>
      other (accounted.single _ there a inside same)
    rw [queries q open_, live _ other, only.owners, only.clients _ apart]
    exact ⟨there, (AuthRequest.same (only.others _ other) AuthRequest.dnsPending).trans waits, asks,
      active⟩

structure Holds (s : AuthState) (base : AuthClientId → Nat) (lists : AuthList → List AuthId) : Prop where
  threaded : s.Threaded [] lists
  sorted : ∀ list, ∀ b ∈ lists list, (s.request b).Fits list
  accounted : s.Accounted base
  resolving : s.Resolving

theorem Threaded.mem_live (h : s.Threaded [] lists) (b : AuthId) :
    b ∈ s.live ↔ ∃ list, b ∈ lists list := by
  rw [h.perm.mem_iff, List.nil_append, List.mem_append]
  constructor
  · rintro (poll | incomplete)
    · exact ⟨.poll, poll⟩
    · exact ⟨.incomplete, incomplete⟩
  · rintro ⟨list, inside⟩
    cases list with
    | poll => exact .inl inside
    | incomplete => exact .inr inside

theorem Threaded.mem_without (h : s.Threaded loose lists) (here : lists list = pre ++ a :: post)
    (other : AuthList) (b : AuthId) :
    b ∈ Function.update lists list (pre ++ post) other ↔ b ∈ lists other ∧ b ≠ a := by
  have inside : a ∈ lists list := here ▸ List.mem_append_right pre List.mem_cons_self
  by_cases same : other = list
  · have outside : a ∉ pre ++ post :=
      (List.nodup_cons.1 (List.nodup_middle.1 (here ▸ h.list_nodup list))).1
    rw [same, Function.update_self, here]
    constructor
    · intro there
      have apart : b ≠ a := by
        rintro rfl
        exact outside there
      exact ⟨List.perm_middle.mem_iff.2 (List.mem_cons_of_mem a there), apart⟩
    · rintro ⟨there, apart⟩
      exact List.mem_of_ne_of_mem apart (List.perm_middle.mem_iff.1 there)
  · rw [Function.update_of_ne same]
    refine ⟨fun there => ⟨there, ?_⟩, fun there => there.1⟩
    rintro rfl
    exact same (h.apart there inside)

theorem Only.fits (h : Only a s s') {b : AuthId} (other : b ≠ a) :
    (s'.request b).Fits list ↔ (s.request b).Fits list :=
  iff_of_eq (AuthRequest.same (h.others b other) fun r => r.Fits list)

theorem Holds.leaves (h : s.Holds base lists) (here : lists list = pre ++ a :: post)
    (only : Only a s s') (threaded : s'.Threaded [] (Function.update lists list (pre ++ post)))
    (count : (s'.client (s.request a).client).released =
      (s.client (s.request a).client).released + 1)
    (nodup : s'.outstanding.Nodup)
    (out : ∀ q, q ∈ s'.outstanding ↔ q ∈ s.outstanding ∧ (s.dnsQuery q).ptr ≠ a)
    (queries : ∀ q ∈ s'.outstanding, s'.dnsQuery q = s.dnsQuery q) :
    s'.Holds base (Function.update lists list (pre ++ post)) := by
  have live (b : AuthId) : b ∈ s'.live ↔ b ∈ s.live ∧ b ≠ a := by
    simp only [threaded.mem_live, h.threaded.mem_live, h.threaded.mem_without here,
      exists_and_right]
  have inside : a ∈ s.live :=
    h.threaded.live (here ▸ List.mem_append_right pre List.mem_cons_self)
  refine ⟨threaded, fun other b there => ?_, h.accounted.leave only inside live count,
    h.resolving.settle h.accounted only inside (fun b apart => ?_) nodup out queries
      fun there => absurd rfl ((live a).1 there).2⟩
  · obtain ⟨there, apart⟩ := (h.threaded.mem_without here other b).1 there
    exact (only.fits apart).2 (h.sorted other b there)
  · rw [live, and_iff_left apart]

theorem Holds.moves (h : s.Holds base lists) {lists' : AuthList → List AuthId} (only : Only a s s')
    (threaded : s'.Threaded [] lists') (live : ∀ b, b ∈ s'.live ↔ b ∈ s.live)
    (others : ∀ list b, b ≠ a → b ∈ lists' list → b ∈ lists list)
    (fits : ∀ list, a ∈ lists' list → (s'.request a).Fits list)
    (count : (s'.client (s.request a).client).released =
      (s.client (s.request a).client).released) (resolving : s'.Resolving) :
    s'.Holds base lists' := by
  refine ⟨threaded, fun list b there => ?_, h.accounted.stay only live count, resolving⟩
  by_cases same : b = a
  · subst same
    exact fits list there
  · exact (only.fits same).2 (h.sorted list b (others list b same there))

/-- A handler at work: links, blocks and resolver are as before, and so is what the others know
of the request and its client. -/
structure Quiet (a : AuthId) (s s' : AuthState) : Prop extends Only a s s' where
  next : ∀ b, (s'.request b).next = (s.request b).next
  prev : ∀ b, (s'.request b).prev = (s.request b).prev
  head : s'.head = s.head
  live : s'.live = s.live
  fault : s'.fault = s.fault
  outstanding : s'.outstanding = s.outstanding
  dnsQuery : s'.dnsQuery = s.dnsQuery
  pending : (s'.request a).dnsPending = (s.request a).dnsPending
  released : (s'.client (s.request a).client).released =
    (s.client (s.request a).client).released
  asks : (s'.client (s.request a).client).dnsQuery = (s.client (s.request a).client).dnsQuery

theorem Quiet.refl (a : AuthId) (s : AuthState) : Quiet a s s :=
  ⟨.refl a s, fun _ => rfl, fun _ => rfl, rfl, rfl, rfl, rfl, rfl, rfl, rfl, rfl⟩

theorem Quiet.trans (first : Quiet a s s') (second : Quiet a s' s'') : Quiet a s s'' where
  toOnly := first.toOnly.trans second.toOnly
  next b := (second.next b).trans (first.next b)
  prev b := (second.prev b).trans (first.prev b)
  head := second.head.trans first.head
  live := second.live.trans first.live
  fault := second.fault.trans first.fault
  outstanding := second.outstanding.trans first.outstanding
  dnsQuery := second.dnsQuery.trans first.dnsQuery
  pending := second.pending.trans first.pending
  released := (first.owner ▸ second.released).trans first.released
  asks := (first.owner ▸ second.asks).trans first.asks

theorem setRequest_quiet {r : AuthRequest} (live : a ∈ s.live)
    (same : r.next = (s.request a).next ∧ r.prev = (s.request a).prev ∧
      r.client = (s.request a).client ∧ r.timeout = (s.request a).timeout ∧
      r.dnsPending = (s.request a).dnsPending) : Quiet a s (s.setRequest a r) := by
  obtain ⟨next, prev, owner, timeout, pending⟩ := same
  have kept {T : Type} (field : AuthRequest → T) (same : field r = field (s.request a))
      (b : AuthId) : field ((s.setRequest a r).request b) = field (s.request b) := by
    by_cases here : b = a
    · rw [here, setRequest_self, same]
    · rw [setRequest_of_ne here]
  exact ⟨setRequest_only owner timeout, kept AuthRequest.next next, kept AuthRequest.prev prev,
    setRequest_head, rfl, setRequest_fault live, rfl, rfl, kept AuthRequest.dnsPending pending a,
    rfl, rfl⟩

theorem setClient_quiet {c : AuthClientId} {cl : AuthClient} (owner : c = (s.request a).client)
    (released : cl.released = (s.client c).released) (asks : cl.dnsQuery = (s.client c).dnsQuery) :
    Quiet a s (s.setClient c cl) := by
  have head : (s.setClient c cl).head = s.head := by
    funext list
    cases list <;> rfl
  subst owner
  refine ⟨setClient_only rfl, fun _ => rfl, fun _ => rfl, head, rfl, rfl, rfl, rfl, rfl, ?_, ?_⟩
  · exact (congrArg AuthClient.released (Function.update_self ..)).trans released
  · exact (congrArg AuthClient.dnsQuery (Function.update_self ..)).trans asks

theorem sendheader_quiet {c : AuthClientId} (owner : c = (s.request a).client) (r : ReportType) :
    Quiet a s (s.sendheader c r) :=
  setClient_quiet owner rfl rfl

theorem Quiet.threaded (h : Quiet a s s') (threaded : s.Threaded loose lists) :
    s'.Threaded loose lists :=
  threaded.congr h.next h.prev h.head h.live h.fault

theorem Quiet.resolving (h : Quiet a s s') (resolving : s.Resolving) : s'.Resolving :=
  resolving.keep h.toOnly (fun b => by rw [h.live]) h.outstanding h.dnsQuery h.pending h.asks

theorem Relinked.resolving (h : s.Relinked s') (resolving : s.Resolving) : s'.Resolving :=
  resolving.keep (a := 0) h.only (fun b => by rw [h.live]) h.outstanding h.dnsQuery
    (AuthRequest.same (h.body 0) AuthRequest.dnsPending) (by rw [h.client])

theorem Resolving.unasked (h : s.Resolving) (idle : (s.request a).dnsPending = false)
    (q : QueryId) : q ∈ s.outstanding ↔ q ∈ s.outstanding ∧ (s.dnsQuery q).ptr ≠ a := by
  refine ⟨fun open_ => ⟨open_, ?_⟩, fun open_ => open_.1⟩
  rintro rfl
  have waits := (h.refers q open_).2.1
  rw [idle] at waits
  cases waits

theorem setPrev_setClient {c : AuthClientId} {cl : AuthClient} {p q : Option AuthId} :
    (s.setClient c cl).setPrev p q = (s.setPrev p q).setClient c cl := by
  cases p <;> rfl

theorem unlinkAuthRequest_setClient {c : AuthClientId} {cl : AuthClient} :
    (s.setClient c cl).unlinkAuthRequest a list = (s.unlinkAuthRequest a list).setClient c cl := by
  have touched : (s.setClient c cl).touch a = (s.touch a).setClient c cl := rfl
  have same : (s.setClient c cl).request = s.request := rfl
  cases prev : (s.request a).prev with
  | none =>
    rw [unlinkAuthRequest_of_first prev, unlinkAuthRequest_of_first (s := s.setClient c cl) prev,
      touched, setPrev_setClient, same]
    cases list <;> rfl
  | some p =>
    rw [unlinkAuthRequest_of_later prev, unlinkAuthRequest_of_later (s := s.setClient c cl) prev,
      touched, setPrev_setClient, same]
    rfl

theorem finish_eq : s.finish a list =
    ((s.unlinkAuthRequest a list).releaseAuthClient (s.request a).client).freeAuthRequest a := by
  have same := (unlinkAuthRequest_relinked s a list).client
  rw [finish, releaseAuthClient, unlinkAuthRequest_setClient, releaseAuthClient, same]

theorem finish_only (s : AuthState) (a : AuthId) (list : AuthList) : Only a s (s.finish a list) := by
  have first : Only a s (s.unlinkAuthRequest a list) :=
    (unlinkAuthRequest_relinked s a list).only
  rw [finish_eq]
  exact (first.trans (setClient_only first.owner.symm)).trans freeAuthRequest_only

theorem finish_outstanding : (s.finish a list).outstanding = s.outstanding := by
  rw [finish_eq]
  exact (unlinkAuthRequest_relinked s a list).outstanding

theorem finish_dnsQuery : (s.finish a list).dnsQuery = s.dnsQuery := by
  rw [finish_eq]
  exact (unlinkAuthRequest_relinked s a list).dnsQuery

theorem finish_released (s : AuthState) (a : AuthId) (list : AuthList) :
    ((s.finish a list).client (s.request a).client).released =
    (s.client (s.request a).client).released + 1 := by
  have same := (unlinkAuthRequest_relinked s a list).client
  rw [finish_eq, ← same]
  simp only [freeAuthRequest, releaseAuthClient, setClient, touch, Function.update_self]

theorem Threaded.finish (h : s.Threaded loose lists) (here : lists list = pre ++ a :: post) :
    (s.finish a list).Threaded loose (Function.update lists list (pre ++ post)) := by
  have without := h.unlinkAuthRequest here
  have released : ((s.unlinkAuthRequest a list).releaseAuthClient
      (s.request a).client).Threaded (a :: loose) (Function.update lists list (pre ++ post)) := by
    refine without.congr (fun _ => rfl) (fun _ => rfl) ?_ rfl rfl
    funext other
    cases other <;> rfl
  rw [finish_eq]
  exact released.freeAuthRequest

structure Settled (a : AuthId) (lists : AuthList → List AuthId) (s s' : AuthState) : Prop
    extends Only a s s' where
  threaded : s'.Threaded [] lists
  released : (s'.client (s.request a).client).released =
    (s.client (s.request a).client).released
  nodup : s'.outstanding.Nodup
  out : ∀ q, q ∈ s'.outstanding ↔ q ∈ s.outstanding ∧ (s.dnsQuery q).ptr ≠ a
  queries : ∀ q ∈ s'.outstanding, s'.dnsQuery q = s.dnsQuery q

theorem Settled.setRequest (h : Settled a lists s s') (inside : a ∈ lists list) {r : AuthRequest}
    (same : r.next = (s'.request a).next ∧ r.prev = (s'.request a).prev ∧
      r.client = (s'.request a).client ∧ r.timeout = (s'.request a).timeout) :
    Settled a lists s (s'.setRequest a r) where
  toOnly := h.toOnly.trans (setRequest_only same.2.2.1 same.2.2.2)
  threaded := h.threaded.setRequest (h.threaded.live inside) same.1 same.2.1
  released := h.released
  nodup := h.nodup
  out := h.out
  queries := h.queries

theorem Settled.setClient (h : Settled a lists s s') {c : AuthClientId} {cl : AuthClient}
    (owner : c = (s'.request a).client) (released : cl.released = (s'.client c).released) :
    Settled a lists s (s'.setClient c cl) := by
  have only : Only a s' (s'.setClient c cl) := setClient_only owner
  have head : (s'.setClient c cl).head = s'.head := by
    funext list
    cases list <;> rfl
  have count : ((s'.setClient c cl).client c).released = (s'.client c).released := by
    simp only [AuthState.setClient, Function.update_self, released]
  rw [h.owner] at owner
  subst owner
  exact ⟨h.toOnly.trans only, h.threaded.congr (fun _ => rfl) (fun _ => rfl) head rfl rfl,
    count.trans h.released, h.nodup, h.out, h.queries⟩

theorem Settled.sendheader (h : Settled a lists s s') {c : AuthClientId}
    (owner : c = (s'.request a).client) (r : ReportType) :
    Settled a lists s (s'.sendheader c r) :=
  h.setClient owner rfl

theorem Quiet.settled (h : s.Holds base lists) (quiet : Quiet a s s')
    (idle : (s.request a).dnsPending = false) : Settled a lists s s' where
  toOnly := quiet.toOnly
  threaded := quiet.threaded h.threaded
  released := quiet.released
  nodup := quiet.outstanding ▸ h.resolving.nodup
  out q := by
    rw [quiet.outstanding]
    exact h.resolving.unasked idle q
  queries q _ := by rw [quiet.dnsQuery]

theorem Quiet.withdraw (h : s.Holds base lists) (quiet : Quiet a s s') {q : QueryId}
    (open_ : q ∈ s.outstanding) (refers : (s.dnsQuery q).ptr = a) (r : DnsQuery) :
    Settled a lists s { s' with
      outstanding := s'.outstanding.erase q
      dnsQuery := Function.update s'.dnsQuery q r } where
  toOnly := ⟨quiet.owner, quiet.timeout, quiet.others, quiet.clients, quiet.started,
    quiet.currentTime⟩
  threaded := (quiet.threaded h.threaded).congr (fun _ => rfl) (fun _ => rfl)
    (by funext list; cases list <;> rfl) rfl rfl
  released := quiet.released
  nodup := (quiet.outstanding ▸ h.resolving.nodup).erase q
  out p := by
    change p ∈ s'.outstanding.erase q ↔ _
    rw [quiet.outstanding, h.resolving.nodup.mem_erase_iff, and_comm]
    refine and_congr_right fun inside => not_congr ⟨fun same => same ▸ refers, fun same => ?_⟩
    -- the client has one query
    have mine := (h.resolving.refers q open_).2.2.1
    have other := (h.resolving.refers p inside).2.2.1
    rw [refers] at mine
    rw [same, mine] at other
    exact (Option.some.inj other).symm
  queries p inside := by
    have other : p ≠ q := by
      rintro rfl
      have before : s'.outstanding.Nodup := quiet.outstanding ▸ h.resolving.nodup
      exact (before.mem_erase_iff.1 inside).1 rfl
    exact (Function.update_of_ne other ..).trans (congrFun quiet.dnsQuery p)

theorem Settled.finish (settled : Settled a lists s s') (h : s.Holds base lists)
    (here : lists list = pre ++ a :: post) :
    (s'.finish a list).Holds base (Function.update lists list (pre ++ post)) := by
  have count := finish_released s' a list
  rw [settled.owner, settled.released] at count
  apply h.leaves here (settled.toOnly.trans (finish_only s' a list)) (settled.threaded.finish here) count
  · rw [finish_outstanding]
    exact settled.nodup
  · rw [finish_outstanding]
    exact settled.out
  · rw [finish_outstanding, finish_dnsQuery]
    exact settled.queries

theorem Holds.leavePoll (h : s.Holds base lists) (here : lists .poll = pre ++ a :: post)
    (quiet : Quiet a s s') (idle : (s'.request a).doingAuth = false) :
    ∃ lists', lists' .poll = pre ++ post ∧ (s'.leavePoll a).Holds base lists' := by
  have unlinked := unlinkAuthRequest_relinked s' a .poll
  have same := AuthRequest.same (unlinked.body a) AuthRequest.dnsPending
  have owner := AuthRequest.same (unlinked.body a) AuthRequest.client
  cases waits : (s'.request a).dnsPending with
  | false =>
    have gone : s'.leavePoll a = s'.finish a .poll := by
      simp only [AuthState.leavePoll, same, waits, owner, finish_eq, Bool.false_eq_true, ite_false]
    refine ⟨Function.update lists .poll (pre ++ post), Function.update_self .., ?_⟩
    rw [gone]
    exact (quiet.settled h (quiet.pending ▸ waits)).finish h here
  | true =>
    have moved : s'.leavePoll a =
        (s'.unlinkAuthRequest a .poll).linkAuthRequest a .incomplete := by
      simp only [AuthState.leavePoll, same, waits, ite_true]
    have relinked := unlinked.trans
      (linkAuthRequest_relinked (s'.unlinkAuthRequest a .poll) a .incomplete)
    have threaded := ((quiet.threaded h.threaded).unlinkAuthRequest here).linkAuthRequest .incomplete
    rw [moved]
    refine ⟨_, rfl, h.moves (quiet.toOnly.trans relinked.only) threaded
      (fun b => by rw [relinked.live, quiet.live]) (fun list b other there => ?_)
      (fun list there => ?_) ?_ (relinked.resolving (quiet.resolving h.resolving))⟩
    · cases list with
      | poll => exact ((h.threaded.mem_without here .poll b).1 there).1
      | incomplete => exact List.mem_of_ne_of_mem other there
    · cases list with
      | poll => exact absurd rfl ((h.threaded.mem_without here .poll a).1 there).2
      | incomplete =>
        exact ⟨(AuthRequest.same (relinked.body a) AuthRequest.doingAuth).trans idle,
          (AuthRequest.same (relinked.body a) AuthRequest.dnsPending).trans waits⟩
    · rw [relinked.client, quiet.released]

theorem clearAuth_quiet (live : a ∈ s.live) : Quiet a s (s.clearAuth a) :=
  setRequest_quiet live ⟨rfl, rfl, rfl, rfl, rfl⟩

theorem clearAuth_idle : ((s.clearAuth a).request a).doingAuth = false := by
  rw [clearAuth, setRequest_self]
  rfl

theorem Holds.authError (h : s.Holds base lists) (here : lists .poll = pre ++ a :: post) :
    ∃ lists', lists' .poll = pre ++ post ∧ (s.authError a).Holds base lists' := by
  have live : a ∈ s.live :=
    h.threaded.live (here ▸ List.mem_append_right pre List.mem_cons_self)
  have quiet := (clearAuth_quiet live).trans (sendheader_quiet rfl .failId)
  exact h.leavePoll here quiet clearAuth_idle

theorem Holds.tookReply (h : s.Holds base lists) (here : lists .poll = pre ++ a :: post)
    (ident : Option CStr) :
    ∃ lists', lists' .poll = pre ++ post ∧ (s.tookReply a ident).Holds base lists' := by
  have live : a ∈ s.live :=
    h.threaded.live (here ▸ List.mem_append_right pre List.mem_cons_self)
  cases ident with
  | none =>
    have first := clearAuth_quiet live
    exact h.leavePoll here (first.trans (setClient_quiet first.owner.symm rfl rfl)) clearAuth_idle
  | some user =>
    have first : Quiet a s (s.setClient (s.request a).client
        { s.client (s.request a).client with username := takeIdent user }) :=
      setClient_quiet rfl rfl rfl
    have second := first.trans (clearAuth_quiet (first.live ▸ live))
    have third := second.trans (sendheader_quiet second.owner.symm .finId)
    exact h.leavePoll here (third.trans (setClient_quiet third.owner.symm rfl rfl)) clearAuth_idle

/-- The turn of a request in `read_message`: the requests behind it stay where they are. -/
theorem Holds.authTurn (h : s.Holds base lists) (here : lists .poll = pre ++ a :: post)
    (ready : Option AuthReady) : ∃ pre' lists', lists' .poll = pre' ++ post ∧
      (s.authTurn a ready).Holds base lists' := by
  have stays : ∃ pre' lists', lists' .poll = pre' ++ post ∧ s.Holds base lists' :=
    ⟨pre ++ [a], lists, by rw [here, List.append_assoc, List.singleton_append], h⟩
  cases ready with
  | none => exact stays
  | some ready =>
    unfold AuthState.authTurn
    dsimp only
    split
    next =>
      cases ready.write with
      | nameError => exact ⟨pre, h.authError here⟩
      | sendError => exact ⟨pre, h.authError here⟩
      | again => exact stays
      | sent =>
        have inside : a ∈ lists .poll := here ▸ List.mem_append_right pre List.mem_cons_self
        have quiet : Quiet a s (s.sendAuthQuery a .sent) :=
          setRequest_quiet (h.threaded.live inside) ⟨rfl, rfl, rfl, rfl, rfl⟩
        have asked : ((s.sendAuthQuery a .sent).request a).doingAuth = true := by
          rw [sendAuthQuery, setRequest_self]
          rfl
        refine ⟨pre ++ [a], lists, by rw [here, List.append_assoc, List.singleton_append],
          h.moves quiet.toOnly (quiet.threaded h.threaded) (fun b => by rw [quiet.live])
            (fun _ _ _ there => there) (fun list there => ?_) quiet.released
            (quiet.resolving h.resolving)⟩
        rw [← h.threaded.apart inside there]
        exact asked
    next =>
      cases ready.read with
      | data buf => exact ⟨pre, h.tookReply here (getValidIdent buf)⟩
      | closed => exact ⟨pre, h.tookReply here none⟩
      | again => exact stays

theorem Holds.overList {turn : AuthState → AuthId → AuthState}
    (J : AuthState → (AuthList → List AuthId) → List AuthId → Prop)
    (step : ∀ (s : AuthState) (lists : AuthList → List AuthId) (pre : List AuthId) (a : AuthId)
      (post : List AuthId), s.Holds base lists → lists list = pre ++ a :: post → J s lists pre →
      ∃ pre' lists', lists' list = pre' ++ post ∧ (turn s a).Holds base lists' ∧
        J (turn s a) lists' pre')
    (pre : List AuthId) (h : s.Holds base lists) (here : lists list = pre ++ post)
    (start : J s lists pre) {fuel : Nat} (enough : post.length ≤ fuel) :
    ∃ lists', (overList turn fuel post.head? s).Holds base lists' ∧
      J (overList turn fuel post.head? s) lists' (lists' list) := by
  induction post generalizing s lists pre fuel with
  | nil =>
    have done : AuthState.overList turn fuel none s = s := by cases fuel <;> rfl
    rw [List.append_nil] at here
    rw [List.head?_nil, done]
    exact ⟨lists, h, here ▸ start⟩
  | cons a post ih =>
    cases fuel with
    | zero => cases enough
    | succ fuel =>
      have live : a ∈ s.live :=
        h.threaded.live (here ▸ List.mem_append_right pre List.mem_cons_self)
      have next : (s.request a).next = post.head? :=
        (here ▸ (h.threaded.double list).forth).next_eq
      obtain ⟨pre', lists', here', h', start'⟩ := step s lists pre a post h here start
      rw [List.head?_cons, AuthState.overList, touch_of_live live, next]
      exact ih pre' h' here' start' (Nat.le_of_succ_le_succ enough)

theorem Holds.length_le (h : s.Holds base lists) (list : AuthList) :
    (lists list).length ≤ s.live.length + 1 := by
  have total := h.threaded.perm.length_eq
  rw [List.nil_append, List.length_append] at total
  cases list with
  | poll => omega
  | incomplete => omega

theorem Holds.readMessage (h : s.Holds base lists) (ready : AuthId → Option AuthReady) :
    ∃ lists', (s.readMessage ready).Holds base lists' := by
  have first : s.authPollList = (lists .poll).head? :=
    (h.threaded.double .poll).forth.head?_eq
  rw [AuthState.readMessage, first]
  obtain ⟨lists', after, _⟩ := Holds.overList (fun _ _ _ => True)
    (fun s lists pre a post h here _ => by
      obtain ⟨pre', lists', here', h'⟩ := h.authTurn here (ready a)
      exact ⟨pre', lists', here', h', trivial⟩)
    [] h rfl trivial (h.length_le .poll)
  exact ⟨lists', after⟩

theorem deleteAdnsQueries_settled (h : s.Holds base lists) (inside : a ∈ s.live) (quiet : Quiet a s s')
    (waits : (s.request a).dnsPending = true) :
    Settled a lists s (s'.deleteAdnsQueries (s.request a).client) := by
  obtain ⟨q, open_, refers⟩ := h.resolving.asked a inside waits
  obtain ⟨_, _, asks, active⟩ := h.resolving.refers q open_
  rw [refers] at asks
  have asked : (s'.client (s.request a).client).dnsQuery = some q := quiet.asks.trans asks
  have running : (s'.dnsQuery q).query = true := by rw [quiet.dnsQuery, active]
  have settled := quiet.withdraw h open_ refers { s'.dnsQuery q with query := false }
  unfold deleteAdnsQueries
  rw [asked]
  simp only [running, ite_true]
  exact settled

/-- A request that times out in `timeout_auth_queries` is let go of and ends. -/
theorem timeoutPoll_ends (h : s.Holds base lists) (there : a ∈ lists .poll) (now : Int)
    (late : (s.request a).timeout < s.currentTime) :
    ∃ t, Settled a lists s t ∧ s.timeoutPoll now a = t.finish a .poll := by
  have quiet : Quiet a s (s.sendheader (s.request a).client .failId) := sendheader_quiet rfl .failId
  unfold timeoutPoll
  simp only [late, ite_true]
  refine ⟨_, ?_, rfl⟩
  cases waits : (s.request a).dnsPending with
  | false =>
    have idle : ((s.sendheader (s.request a).client .failId).request a).dnsPending = false := waits
    simp only [idle, Bool.false_eq_true, ite_false]
    exact (quiet.settled h waits).setClient rfl rfl
  | true =>
    have asked : ((s.sendheader (s.request a).client .failId).request a).dnsPending = true := waits
    simp only [asked, ite_true]
    have settled := deleteAdnsQueries_settled h (h.threaded.live there) quiet waits
    have told := settled.sendheader settled.owner.symm .failDns
    exact told.setClient told.owner.symm rfl

theorem timeoutIncomplete_ends (h : s.Holds base lists) (there : a ∈ lists .incomplete) (now : Int)
    (late : (s.request a).timeout < s.currentTime) :
    ∃ t, Settled a lists s t ∧ s.timeoutIncomplete now a = t.finish a .incomplete := by
  have settled := deleteAdnsQueries_settled h (h.threaded.live there) (.refl a s)
    (h.sorted .incomplete a there).2
  have told := settled.sendheader settled.owner.symm .failDns
  unfold timeoutIncomplete
  simp only [late, ite_true]
  refine ⟨_, ?_, rfl⟩
  exact told.setClient told.owner.symm rfl

structure Left (s s' : AuthState) : Prop where
  live : ∀ b ∈ s'.live, b ∈ s.live
  owner : ∀ b, (s'.request b).client = (s.request b).client
  timeout : ∀ b, (s'.request b).timeout = (s.request b).timeout
  started : s'.started = s.started
  currentTime : s'.currentTime = s.currentTime

theorem Left.trans (first : Left s s') (second : Left s' s'') : Left s s'' where
  live b there := first.live b (second.live b there)
  owner b := (second.owner b).trans (first.owner b)
  timeout b := (second.timeout b).trans (first.timeout b)
  started := second.started.trans first.started
  currentTime := second.currentTime.trans first.currentTime

theorem Settled.left (settled : Settled a lists s s') (h : s.Holds base lists)
    (here : lists list = pre ++ a :: post) : Left s (s'.finish a list) := by
  have only := settled.toOnly.trans (finish_only s' a list)
  have after := (settled.finish h here).threaded
  refine ⟨fun b there => ?_, only.owners, fun b => ?_, only.started, only.currentTime⟩
  · obtain ⟨other, inside⟩ := (after.mem_live b).1 there
    exact h.threaded.live ((h.threaded.mem_without here other b).1 inside).1
  · by_cases same : b = a
    · rw [same, only.timeout]
    · exact AuthRequest.same (only.others b same) AuthRequest.timeout

theorem Holds.expire (list : AuthList) (turn : AuthState → AuthId → AuthState)
    (ends : ∀ (s : AuthState) (lists : AuthList → List AuthId) (a : AuthId), s.Holds base lists →
      a ∈ lists list → (s.request a).timeout < s.currentTime →
      ∃ t, Settled a lists s t ∧ turn s a = t.finish a list)
    (waits : ∀ (s : AuthState) (a : AuthId), ¬ (s.request a).timeout < s.currentTime →
      turn s a = s)
    (h : s.Holds base lists) :
    ∃ lists', (AuthState.overList turn (s.live.length + 1) (s.head list) s).Holds base lists' ∧
      Left s (AuthState.overList turn (s.live.length + 1) (s.head list) s) ∧
      (∀ b ∈ lists' list, s.currentTime ≤ (s.request b).timeout) ∧
      ∀ other, other ≠ list → lists' other = lists other := by
  rw [(h.threaded.double list).forth.head?_eq]
  refine Holds.overList (fun t lists' pre => Left s t ∧
    (∀ b ∈ pre, s.currentTime ≤ (s.request b).timeout) ∧
    ∀ other, other ≠ list → lists' other = lists other) ?_ [] h rfl
    ⟨⟨fun _ there => there, fun _ => rfl, fun _ => rfl, rfl, rfl⟩,
      fun b none => absurd none List.not_mem_nil, fun _ _ => rfl⟩ (h.length_le list)
  intro t lists' pre a post h' here ⟨left, seen, others⟩
  have there : a ∈ lists' list := here ▸ List.mem_append_right pre List.mem_cons_self
  -- a turn takes the request out of the list, or it stays and is not due
  by_cases late : (t.request a).timeout < t.currentTime
  · obtain ⟨u, settled, gone⟩ := ends t lists' a h' there late
    refine ⟨pre, Function.update lists' list (pre ++ post), Function.update_self .., ?_, ?_, seen,
      fun other apart => ?_⟩
    · rw [gone]
      exact settled.finish h' here
    · rw [gone]
      exact left.trans (settled.left h' here)
    · rw [Function.update_of_ne apart]
      exact others other apart
  · rw [waits t a late]
    refine ⟨pre ++ [a], lists', by rw [here, List.append_assoc, List.singleton_append], h', left,
      fun b inside => ?_, others⟩
    rcases List.mem_append.1 inside with before | last
    · exact seen b before
    · rw [List.mem_singleton.1 last]
      rw [left.timeout, left.currentTime] at late
      exact not_lt.1 late

theorem Holds.timeoutAuthQueries (h : s.Holds base lists) (now : Int) :
    ∃ lists', (s.timeoutAuthQueries now).Holds base lists' ∧ Left s (s.timeoutAuthQueries now) ∧
      ∀ b ∈ (s.timeoutAuthQueries now).live, s.currentTime ≤ (s.request b).timeout := by
  obtain ⟨lists', first, left, polled, same⟩ := h.expire .poll (AuthState.timeoutPoll now)
    (fun s lists a h there => timeoutPoll_ends h there now)
    fun s a early => by simp only [AuthState.timeoutPoll, early, ite_false]
  obtain ⟨lists'', second, left', waited, same'⟩ := first.expire .incomplete
    (AuthState.timeoutIncomplete now)
    (fun s lists a h there => timeoutIncomplete_ends h there now)
    fun s a early => by simp only [AuthState.timeoutIncomplete, early, ite_false]
  refine ⟨lists'', second, left.trans left', fun b there => ?_⟩
  obtain ⟨list, inside⟩ := (second.threaded.mem_live b).1 there
  cases list with
  | poll => exact polled b (same' .poll (by decide) ▸ inside)
  | incomplete =>
    have early := waited b inside
    rwa [left.timeout, left.currentTime] at early

theorem tookAnswer_request {c : AuthClientId} {reply : Option CStr} :
    (s.tookAnswer c reply).request = s.request := by
  unfold tookAnswer
  split
  next => split <;> rfl
  next => rfl

theorem Settled.tookAnswer (h : Settled a lists s s') {c : AuthClientId}
    (owner : c = (s'.request a).client) (reply : Option CStr) :
    Settled a lists s (s'.tookAnswer c reply) := by
  unfold AuthState.tookAnswer
  split
  next host =>
    split
    next =>
      have named : Settled a lists s (s'.setClient c { s'.client c with host }) :=
        h.setClient owner rfl
      exact named.sendheader owner .finDns
    next => exact h.sendheader owner .hostTooLong
  next =>
    have named : Settled a lists s (s'.setClient c
        { s'.client c with host := (s'.client c).sockhost }) :=
      h.setClient owner rfl
    exact named.sendheader owner .failDns

theorem Settled.authDnsCallback (settled : Settled a lists s s') (inside : a ∈ lists list)
    (reply : Option CStr) : ∃ t, Settled a lists s t ∧
      (t.request a = { s'.request a with dnsPending := false }) ∧
      s'.authDnsCallback a reply =
        if (t.request a).doingAuth then t else t.finish a .incomplete := by
  have ended : Settled a lists s (s'.setRequest a { s'.request a with dnsPending := false }) :=
    settled.setRequest inside ⟨rfl, rfl, rfl, rfl⟩
  have told := ended.tookAnswer rfl reply
  refine ⟨_, ?_, ?_, rfl⟩
  · refine told.setClient ?_ rfl
    rw [tookAnswer_request]
  · change (AuthState.tookAnswer _ _ reply).request a = _
    rw [tookAnswer_request, setRequest_self]

theorem Holds.dnsDoCallback (h : s.Holds base lists) {q : QueryId} (open_ : q ∈ s.outstanding)
    (reply : Option CStr) : ∃ lists', (s.dnsDoCallback q reply).Holds base lists' := by
  obtain ⟨live, waits, _⟩ := h.resolving.refers q open_
  obtain ⟨list, inside⟩ := (h.threaded.mem_live _).1 live
  have taken := (Quiet.refl (s.dnsQuery q).ptr s).withdraw h open_ rfl
    { s.dnsQuery q with query := false }
  obtain ⟨t, settled, same, ends⟩ := taken.authDnsCallback inside reply
  have told : s.dnsDoCallback q reply = (if (t.request (s.dnsQuery q).ptr).doingAuth then t
      else t.finish (s.dnsQuery q).ptr .incomplete) := by
    rw [← ends, AuthState.dnsDoCallback]
    simp only [Function.update_self]
  have active : (t.request (s.dnsQuery q).ptr).doingAuth =
      (s.request (s.dnsQuery q).ptr).doingAuth := by
    rw [same]
    rfl
  rw [told, active]
  have fits := h.sorted list _ inside
  cases list with
  | poll =>
    have doing : (s.request (s.dnsQuery q).ptr).doingAuth = true := fits
    rw [doing, if_pos rfl]
    have idle : (t.request (s.dnsQuery q).ptr).dnsPending = false := by rw [same]
    have alive (b : AuthId) : b ∈ t.live ↔ b ∈ s.live := by
      rw [settled.threaded.mem_live, h.threaded.mem_live]
    refine ⟨lists, h.moves settled.toOnly settled.threaded alive (fun _ _ _ there => there)
      (fun list there => ?_) settled.released
      (h.resolving.settle h.accounted settled.toOnly live (fun b _ => alive b) settled.nodup
        settled.out settled.queries fun _ => idle)⟩
    rw [← h.threaded.apart inside there]
    exact active.trans doing
  | incomplete =>
    rw [fits.1, if_neg Bool.false_ne_true]
    obtain ⟨pre, post, here⟩ := List.append_of_mem inside
    exact ⟨_, settled.finish h here⟩

structure Begun (client : AuthClientId) (a : AuthId) (q : QueryId) (submitted : Bool)
    (lists : AuthList → List AuthId) (s s' : AuthState) : Prop where
  threaded : s'.Threaded [a] lists
  mine : (s'.request a).client = client
  others : ∀ b, b ≠ a → (s'.request b).body = (s.request b).body
  clients : ∀ c, c ≠ client → s'.client c = s.client c
  released : (s'.client client).released = (s.client client).released
  asks : (s'.client client).dnsQuery = some q
  started : s'.started = client :: s.started
  outstanding : s'.outstanding = if submitted then q :: s.outstanding else s.outstanding
  dnsQuery : s'.dnsQuery = Function.update s.dnsQuery q { ptr := a, query := submitted }
  pending : (s'.request a).dnsPending = submitted

variable {client : AuthClientId} {q : QueryId} {submitted : Bool}

theorem Begun.quiet (h : Begun client a q submitted lists s s') (quiet : Quiet a s' s'') :
    Begun client a q submitted lists s s'' := by
  have mine := h.mine
  refine ⟨quiet.threaded h.threaded, quiet.owner.trans mine,
    fun b other => (quiet.others b other).trans (h.others b other),
    fun c other => (quiet.clients c (mine ▸ other)).trans (h.clients c other), ?_, ?_,
    quiet.started.trans h.started, quiet.outstanding.trans h.outstanding,
    quiet.dnsQuery.trans h.dnsQuery, quiet.pending.trans h.pending⟩
  · rw [← h.released, ← mine]
    exact quiet.released
  · rw [← h.asks, ← mine]
    exact quiet.asks

theorem askResolver_blank : (s.askResolver client a q false).request a =
    { next := none, prev := none, client, authConnecting := false, authPending := false
      dnsPending := false, fd := -1, timeout := s.currentTime + authConnectTimeout } :=
  Function.update_self ..

theorem askResolver_marked : (s.askResolver client a q true).request a =
    { (s.askResolver client a q false).request a with dnsPending := true } :=
  Function.update_self ..

theorem askResolver_begun (h : s.Holds base lists) (fresh : a ∉ s.live) :
    Begun client a q submitted lists s (s.askResolver client a q submitted) := by
  have made := h.threaded.makeAuthRequest fresh client
  have here : (s.askResolver client a q false).client client =
      { s.client client with
        dnsQuery := some q, notices := (s.client client).notices ++ [.doDns] } := by
    simp [askResolver, sendheader, setClient, makeAuthRequest]
  have first : Begun client a q false lists s (s.askResolver client a q false) := by
    refine ⟨made.congr (fun _ => rfl) (fun _ => rfl) ?_ rfl rfl, ?_, fun b other => ?_,
      fun c other => ?_, ?_, ?_, rfl, rfl, rfl, ?_⟩
    · funext list
      cases list <;> rfl
    · rw [askResolver_blank]
    · exact congrArg AuthRequest.body (Function.update_of_ne other ..)
    · exact (Function.update_of_ne other ..).trans (Function.update_of_ne other ..)
    · rw [here]
    · rw [here]
    · rw [askResolver_blank]
  cases submitted with
  | false => exact first
  | true =>
    -- the same, and the mark that the query is out
    have live : a ∈ (s.askResolver client a q true).live := List.mem_cons_self
    have asked : { s.askResolver client a q false with
        dnsQuery := (s.askResolver client a q true).dnsQuery
        outstanding := q :: s.outstanding }.Threaded [a] lists :=
      first.threaded.congr (fun _ => rfl) (fun _ => rfl)
        (by funext list; cases list <;> rfl) rfl rfl
    refine ⟨asked.setRequest live rfl rfl, ?_, fun b other => ?_, first.clients, first.released,
      first.asks, rfl, rfl, rfl, ?_⟩
    · rw [askResolver_marked, askResolver_blank]
    · exact (congrArg AuthRequest.body (Function.update_of_ne other ..)).trans
        (first.others b other)
    · rw [askResolver_marked]

theorem startAuthQuery_quiet (live : a ∈ s.live) (start : QueryStart) :
    Quiet a s (s.startAuthQuery a start).1 := by
  cases start with
  | noSocket => exact .refl a s
  | tooManyFds => exact .refl a s
  | blocking => exact sendheader_quiet rfl .doId
  | notBound => exact sendheader_quiet rfl .doId
  | notConnected => exact (sendheader_quiet rfl .doId).trans (sendheader_quiet rfl .failId)
  | connecting fd =>
    refine (sendheader_quiet rfl .doId).trans ?_
    exact setRequest_quiet live ⟨rfl, rfl, rfl, rfl, rfl⟩

theorem startAuthQuery_doing (idle : (s.request a).doingAuth = false) (start : QueryStart) :
    ((s.startAuthQuery a start).1.request a).doingAuth = (s.startAuthQuery a start).2 := by
  cases start with
  | connecting fd =>
    rw [startAuthQuery, setRequest_self]
    exact Bool.or_true _
  | _ => exact idle

theorem askResolver_idle :
    ((s.askResolver client a q submitted).request a).doingAuth = false := by
  cases submitted with
  | false => rw [askResolver_blank]; rfl
  | true => rw [askResolver_marked, askResolver_blank]; rfl

theorem Begun.owners (h : Begun client a q submitted lists s s') {b : AuthId} (other : b ≠ a) :
    (s'.request b).client = (s.request b).client :=
  AuthRequest.same (h.others b other) AuthRequest.client

theorem Accounted.enter (h : s.Accounted base) (begun : Begun client a q submitted lists s s')
    (new : client ∉ s.started) (fresh : a ∉ s.live)
    (live : ∀ b, b ∈ s'.live ↔ b = a ∨ b ∈ s.live) : s'.Accounted base := by
  -- the requests that were alive belong to other clients
  have known {b : AuthId} (there : b ∈ s.live) : b ≠ a ∧ (s.request b).client ≠ client := by
    refine ⟨fun same => fresh (same ▸ there), fun same => new (same ▸ h.started b there)⟩
  refine ⟨fun c => ?_, fun b there => ?_, fun b there d also equal => ?_, fun b there => ?_,
    fun c started none => ?_, fun c unknown => ?_⟩
  · by_cases owner : c = client
    · rw [owner, begun.released]
      exact h.base client
    · rw [begun.clients c owner]
      exact h.base c
  · rw [begun.started]
    rcases (live b).1 there with rfl | there
    · rw [begun.mine]
      exact List.mem_cons_self
    · rw [begun.owners (known there).1]
      exact List.mem_cons_of_mem client (h.started b there)
  · rcases (live b).1 there with rfl | there
    · rcases (live d).1 also with rfl | also
      · rfl
      · rw [begun.mine, begun.owners (known also).1] at equal
        exact absurd equal.symm (known also).2
    · rcases (live d).1 also with rfl | also
      · rw [begun.mine, begun.owners (known there).1] at equal
        exact absurd equal (known there).2
      · rw [begun.owners (known there).1, begun.owners (known also).1] at equal
        exact h.single b there d also equal
  · rcases (live b).1 there with rfl | there
    · rw [begun.mine, begun.released]
      exact h.unknown client new
    · rw [begun.owners (known there).1, begun.clients _ (known there).2]
      exact h.waiting b there
  · have other : c ≠ client := fun same =>
      none a ((live a).2 (.inl rfl)) (same ▸ begun.mine)
    rw [begun.started] at started
    rw [begun.clients c other]
    refine h.released c (List.mem_of_ne_of_mem other started) fun b there same => ?_
    exact none b ((live b).2 (.inr there)) ((begun.owners (known there).1).trans same)
  · rw [begun.started] at unknown
    rw [begun.clients c (List.ne_of_not_mem_cons unknown)]
    exact h.unknown c (List.not_mem_of_not_mem_cons unknown)

theorem Resolving.enter (h : s.Resolving) (accounted : s.Accounted base)
    (begun : Begun client a q submitted lists s s') (new : client ∉ s.started)
    (fresh : a ∉ s.live) (unused : q ∉ s.outstanding)
    (live : ∀ b, b ∈ s'.live ↔ b = a ∨ b ∈ s.live) : s'.Resolving := by
  have known {b : AuthId} (there : b ∈ s.live) : b ≠ a ∧ (s.request b).client ≠ client := by
    refine ⟨fun same => fresh (same ▸ there), fun same => new (same ▸ accounted.started b there)⟩
  have queries {p : QueryId} (open_ : p ∈ s.outstanding) : s'.dnsQuery p = s.dnsQuery p := by
    have other : p ≠ q := fun same => unused (same ▸ open_)
    rw [begun.dnsQuery, Function.update_of_ne other]
  have still {p : QueryId} (open_ : p ∈ s.outstanding) : p ∈ s'.outstanding := by
    rw [begun.outstanding]
    split
    next => exact List.mem_cons_of_mem q open_
    next => exact open_
  have older {p : QueryId} (open_ : p ∈ s.outstanding) : (s'.dnsQuery p).ptr ∈ s'.live ∧
      (s'.request (s'.dnsQuery p).ptr).dnsPending = true ∧
      (s'.client (s'.request (s'.dnsQuery p).ptr).client).dnsQuery = some p ∧
      (s'.dnsQuery p).query = true := by
    obtain ⟨there, waits, asks, active⟩ := h.refers p open_
    obtain ⟨other, apart⟩ := known there
    rw [queries open_, begun.owners other, begun.clients _ apart]
    exact ⟨(live _).2 (.inr there),
      (AuthRequest.same (begun.others _ other) AuthRequest.dnsPending).trans waits, asks, active⟩
  have newer : s'.dnsQuery q = { ptr := a, query := submitted } := by
    rw [begun.dnsQuery, Function.update_self]
  -- the new request has the new query, and the older ones keep theirs
  refine ⟨?_, fun b there waits => ?_, fun p open_ => ?_⟩
  · rw [begun.outstanding]
    split
    next => exact List.nodup_cons.2 ⟨unused, h.nodup⟩
    next => exact h.nodup
  · rcases (live b).1 there with rfl | there
    · rw [begun.pending] at waits
      refine ⟨q, ?_, by rw [newer]⟩
      rw [begun.outstanding, waits, if_pos rfl]
      exact List.mem_cons_self
    · rw [AuthRequest.same (begun.others b (known there).1) AuthRequest.dnsPending] at waits
      obtain ⟨p, open_, refers⟩ := h.asked b there waits
      exact ⟨p, still open_, by rw [queries open_, refers]⟩
  · have inside := open_
    rw [begun.outstanding] at inside
    split at inside
    next asked =>
      rcases List.mem_cons.1 inside with rfl | inside
      · rw [newer, begun.mine, begun.pending]
        exact ⟨(live a).2 (.inl rfl), asked, begun.asks, asked⟩
      · exact older inside
    next => exact older inside

theorem Relinked.accounted (h : s.Relinked s') (accounted : s.Accounted base) : s'.Accounted base :=
  accounted.stay (a := 0) h.only (fun b => by rw [h.live]) (by rw [h.client])

theorem Begun.mem_live (begun : Begun client a q submitted lists s s') (h : s.Holds base lists)
    (b : AuthId) : b ∈ s'.live ↔ b = a ∨ b ∈ s.live := by
  rw [begun.threaded.perm.mem_iff, h.threaded.perm.mem_iff, List.singleton_append,
    List.mem_cons, List.nil_append]

theorem Begun.fits (begun : Begun client a q submitted lists s s') (h : s.Holds base lists)
    (fresh : a ∉ s.live) {list : AuthList} {b : AuthId} (there : b ∈ lists list) :
    (s'.request b).Fits list := by
  have other : b ≠ a := by
    rintro rfl
    exact fresh (h.threaded.live there)
  have same := AuthRequest.same (begun.others b other) fun r => r.Fits list
  rw [same]
  exact h.sorted list b there

theorem Holds.enters {list : AuthList} (h : s.Holds base lists) (begun : Begun client a q submitted lists s s')
    (new : client ∉ s.started) (fresh : a ∉ s.live) (unused : q ∉ s.outstanding)
    (fits : (s'.request a).Fits list) :
    (s'.linkAuthRequest a list).Holds base (Function.update lists list (a :: lists list)) := by
  have live := begun.mem_live h
  have linked := linkAuthRequest_relinked s' a list
  have kept {b : AuthId} {other : AuthList} (before : (s'.request b).Fits other) :
      ((s'.linkAuthRequest a list).request b).Fits other := by
    rwa [AuthRequest.same (linked.body b) fun r => r.Fits other]
  refine ⟨begun.threaded.linkAuthRequest list, fun other b there => ?_,
    linked.accounted (h.accounted.enter begun new fresh live),
    linked.resolving (h.resolving.enter h.accounted begun new fresh unused live)⟩
  by_cases same : other = list
  · rw [same, Function.update_self] at there
    subst same
    rcases List.mem_cons.1 there with rfl | there
    · exact kept fits
    · exact kept (begun.fits h fresh there)
  · rw [Function.update_of_ne same] at there
    exact kept (begun.fits h fresh there)

theorem Holds.passes (h : s.Holds base lists) (begun : Begun client a q submitted lists s s')
    (new : client ∉ s.started) (fresh : a ∉ s.live) (unused : q ∉ s.outstanding)
    (idle : (s'.request a).dnsPending = false) :
    ((s'.freeAuthRequest a).releaseAuthClient client).Holds base lists := by
  have live := begun.mem_live h
  have accounted := h.accounted.enter begun new fresh live
  have resolving := h.resolving.enter h.accounted begun new fresh unused live
  have freed := begun.threaded.freeAuthRequest
  have mine : client = ((s'.freeAuthRequest a).request a).client := begun.mine.symm
  have only : Only a s' ((s'.freeAuthRequest a).releaseAuthClient client) :=
    freeAuthRequest_only.trans (setClient_only mine)
  have gone (b : AuthId) :
      b ∈ ((s'.freeAuthRequest a).releaseAuthClient client).live ↔ b ∈ s'.live ∧ b ≠ a :=
    (begun.threaded.nodup.mem_erase_iff).trans and_comm
  have inside : a ∈ s'.live := (live a).2 (.inl rfl)
  refine ⟨freed.congr (fun _ => rfl) (fun _ => rfl) ?_ rfl rfl, fun list b there => ?_,
    accounted.leave only inside gone ?_,
    resolving.settle accounted only inside (fun b other => ?_) resolving.nodup
      (resolving.unasked idle) (fun _ _ => rfl) fun there => absurd rfl ((gone a).1 there).2⟩
  · funext list
    cases list <;> rfl
  · exact begun.fits h fresh there
  · rw [begun.mine]
    simp only [releaseAuthClient, setClient, Function.update_self, freeAuthRequest, touch]
  · rw [gone, and_iff_left other]

theorem Holds.startAuth (h : s.Holds base lists) (new : client ∉ s.started) (fresh : a ∉ s.live)
    (unused : q ∉ s.outstanding) (start : QueryStart) :
    ∃ lists', (s.startAuth client a q submitted start).Holds base lists' := by
  have first : Begun client a q submitted lists s (s.askResolver client a q submitted) :=
    askResolver_begun h fresh
  have inside := (first.mem_live h a).2 (.inl rfl)
  have begun := first.quiet (startAuthQuery_quiet inside start)
  have idle : ((s.askResolver client a q submitted).request a).doingAuth = false :=
    askResolver_idle
  have doing := startAuthQuery_doing idle start
  unfold AuthState.startAuth
  dsimp only
  cases asked : ((s.askResolver client a q submitted).startAuthQuery a start).2 with
  | true =>
    rw [if_pos rfl]
    exact ⟨_, h.enters begun new fresh unused (doing.trans asked)⟩
  | false =>
    rw [if_neg Bool.false_ne_true]
    split
    next waits =>
      exact ⟨_, h.enters begun new fresh unused ⟨doing.trans asked, waits⟩⟩
    next idle =>
      exact ⟨lists, h.passes begun new fresh unused (Bool.not_eq_true _ ▸ idle)⟩

theorem Unused.holds (h : s.Unused) : s.Holds (fun _ => 0) fun _ => [] := by
  refine ⟨⟨h.fault, ?_, ?_, fun list => ⟨?_, trivial⟩⟩, fun _ b none => absurd none List.not_mem_nil,
    ⟨fun c => Nat.zero_le _, ?_, ?_, ?_, ?_, fun c _ => h.released c⟩, ⟨?_, ?_, ?_⟩⟩
  · rw [h.live]
    exact List.nodup_nil
  · rw [h.live]
    exact .nil
  · cases list with
    | poll => exact h.poll
    | incomplete => exact h.incomplete
  all_goals simp only [h.live, h.started, h.outstanding, List.not_mem_nil, false_implies,
    implies_true, List.nodup_nil]

theorem Holds.step (h : s.Holds base lists) {e : AuthEvent} (allowed : s.Allowed e) :
    ∃ lists', (machine.step s e).Holds base lists' := by
  cases e with
  | start client auth q submitted start =>
    obtain ⟨new, fresh, unused⟩ := allowed
    exact h.startAuth new fresh unused start
  | answer q reply => exact h.dnsDoCallback allowed reply
  | io ready => exact h.readMessage ready
  | timeout now =>
    obtain ⟨lists', after, _⟩ := h.timeoutAuthQueries now
    exact ⟨lists', after⟩
  | clock time =>
    exact ⟨lists, h.threaded.congr (fun _ => rfl) (fun _ => rfl)
      (by funext list; cases list <;> rfl) rfl rfl, h.sorted,
      ⟨h.accounted.base, h.accounted.started, h.accounted.single, h.accounted.waiting, h.accounted.released,
        h.accounted.unknown⟩, ⟨h.resolving.nodup, h.resolving.asked, h.resolving.refers⟩⟩

theorem run_holds (unused : s.Unused) {es : List AuthEvent} (allowed : machine.Meets Allowed s es) :
    ∃ lists, (machine.run s es).Holds (fun _ => 0) lists :=
  allowed.keeps (I := fun s => ∃ lists, s.Holds (fun _ => 0) lists) (fun _ _ ⟨_, h⟩ ok => h.step ok)
    ⟨_, unused.holds⟩

theorem Holds.rebase (h : s.Holds base lists) :
    s.Holds (fun c => (s.client c).released) lists :=
  { h with accounted := { h.accounted with base := fun _ => le_rfl } }

theorem Holds.stays_released (h : s.Holds base lists) {es : List AuthEvent}
    (allowed : machine.Meets Allowed s es) {c : AuthClientId} (once : (s.client c).released = 1) :
    ((machine.run s es).client c).released = 1 := by
  obtain ⟨lists', after⟩ := allowed.keeps
    (I := fun t => ∃ lists, t.Holds (fun c => (s.client c).released) lists)
    (fun _ _ ⟨_, h⟩ ok => h.step ok) ⟨_, h.rebase⟩
  have least := after.accounted.base c
  have known : c ∈ (machine.run s es).started := by
    by_contra unknown
    have none := after.accounted.unknown c unknown
    omega
  refine after.accounted.released c known fun a there owner => ?_
  have none := after.accounted.waiting a there
  rw [owner] at none
  omega

theorem Holds.released_by_timeout (h : s.Holds base lists) (now : Int) {c : AuthClientId}
    (known : c ∈ s.started)
    (late : ∀ a ∈ s.live, (s.request a).client = c → (s.request a).timeout < s.currentTime) :
    ((s.timeoutAuthQueries now).client c).released = 1 := by
  obtain ⟨lists', after, left, early⟩ := h.timeoutAuthQueries now
  refine after.accounted.released c (left.started ▸ known) fun a there owner => ?_
  rw [left.owner] at owner
  exact absurd (late a (left.live a there) owner) (not_lt.2 (early a there))

section Started

@[simp] theorem setRequest_started {r : AuthRequest} : (s.setRequest a r).started = s.started := rfl

@[simp] theorem setClient_started {c : AuthClientId} {cl : AuthClient} :
    (s.setClient c cl).started = s.started := rfl

@[simp] theorem sendheader_started {c : AuthClientId} {r : ReportType} :
    (s.sendheader c r).started = s.started := rfl

@[simp] theorem freeAuthRequest_started : (s.freeAuthRequest a).started = s.started := rfl

@[simp] theorem releaseAuthClient_started {c : AuthClientId} :
    (s.releaseAuthClient c).started = s.started := rfl

@[simp] theorem clearAuth_started : (s.clearAuth a).started = s.started := rfl

@[simp] theorem unlinkAuthRequest_started : (s.unlinkAuthRequest a list).started = s.started :=
  (unlinkAuthRequest_relinked s a list).started

@[simp] theorem linkAuthRequest_started : (s.linkAuthRequest a list).started = s.started :=
  (linkAuthRequest_relinked s a list).started

@[simp] theorem finish_started : (s.finish a list).started = s.started := by simp [finish]

@[simp] theorem leavePoll_started : (s.leavePoll a).started = s.started := by
  unfold leavePoll
  simp only
  split <;> simp

@[simp] theorem deleteAdnsQueries_started {c : AuthClientId} :
    (s.deleteAdnsQueries c).started = s.started := by
  unfold deleteAdnsQueries
  split
  · rfl
  · dsimp only
    split <;> rfl

@[simp] theorem tookReply_started {ident : Option CStr} :
    (s.tookReply a ident).started = s.started := by
  cases ident <;> simp [tookReply]

@[simp] theorem authTurn_started {ready : Option AuthReady} :
    (s.authTurn a ready).started = s.started := by
  have sent (write : AuthWrite) : (s.sendAuthQuery a write).started = s.started := by
    cases write <;> simp [sendAuthQuery, authError]
  have read (reply : AuthRead) : (s.readAuthReply a reply).started = s.started := by
    cases reply <;> simp [readAuthReply]
  cases ready with
  | none => rfl
  | some ready =>
    rw [authTurn]
    split
    · exact sent ready.write
    · exact read ready.read

@[simp] theorem timeoutPoll_started {now : Int} : (s.timeoutPoll now a).started = s.started := by
  unfold timeoutPoll
  split
  · dsimp only
    split <;> simp
  · rfl

@[simp] theorem timeoutIncomplete_started {now : Int} :
    (s.timeoutIncomplete now a).started = s.started := by
  unfold timeoutIncomplete
  split
  · simp
  · rfl

theorem overList_started {turn : AuthState → AuthId → AuthState}
    (kept : ∀ s a, (turn s a).started = s.started) (fuel : Nat) (first : Option AuthId)
    (s : AuthState) : (overList turn fuel first s).started = s.started := by
  induction fuel generalizing first s with
  | zero => rfl
  | succ fuel ih =>
    cases first with
    | none => rfl
    | some auth =>
      rw [overList]
      exact (ih _ _).trans (kept _ auth)

theorem authDnsCallback_started (reply : Option CStr) :
    (s.authDnsCallback a reply).started = s.started := by
  have took (s : AuthState) (c : AuthClientId) : (s.tookAnswer c reply).started = s.started := by
    unfold tookAnswer
    split
    · split <;> simp
    · simp
  unfold authDnsCallback
  dsimp only
  split <;> simp [took]

theorem startAuth_started (client : AuthClientId) (q : QueryId) (submitted : Bool)
    (start : QueryStart) :
    (s.startAuth client a q submitted start).started = client :: s.started := by
  have asked : (s.askResolver client a q submitted).started = client :: s.started := by
    cases submitted <;> rfl
  have queried (s : AuthState) : (s.startAuthQuery a start).1.started = s.started := by
    cases start <;> rfl
  unfold startAuth
  dsimp only
  split
  · simp [queried, asked]
  · split <;> simp [queried, asked]

theorem started_step (s : AuthState) (e : AuthEvent) : (machine.step s e).started =
    match e with
    | .start client _ _ _ _ => client :: s.started
    | _ => s.started := by
  cases e with
  | start client auth q submitted start => exact startAuth_started client q submitted start
  | answer q reply => exact authDnsCallback_started reply
  | io ready => exact overList_started (fun _ _ => authTurn_started) _ _ s
  | timeout now =>
    exact (overList_started (fun _ _ => timeoutIncomplete_started) _ _ _).trans
      (overList_started (fun _ _ => timeoutPoll_started) _ _ s)
  | clock time => rfl

/-- The clients that the auth stage knows are those that came. -/
theorem mem_started_run (es : List AuthEvent) (s : AuthState) (c : AuthClientId) :
    c ∈ (machine.run s es).started ↔
      (∃ auth q submitted start, .start c auth q submitted start ∈ es) ∨ c ∈ s.started := by
  induction es generalizing s with
  | nil => simp
  | cons e es ih =>
    rw [Machine.run_cons, ih, started_step]
    cases e <;> simp [exists_or, or_assoc, or_comm, or_left_comm]

end Started

/-- Over any run: a request is in the list that its lookups call for, a client is released once
when its request ends and not before, a timeout ends those whose time is over, and neither a
list nor the resolver refers to a block that has been freed. -/
theorem released_once {t : AuthState} (unused : s.Unused) {es : List AuthEvent}
    (allowed : machine.Meets Allowed s es) (reached : machine.run s es = t) :
    t.fault = false ∧
    (∃ lists : AuthList → List AuthId,
      (∀ list, Chain.Double (fun b => (t.request b).next) (fun b => (t.request b).prev)
        (t.head list) (lists list)) ∧
      (∀ a, a ∈ t.live ↔ a ∈ lists .poll ∨ a ∈ lists .incomplete) ∧
      ∀ a ∈ t.live, (a ∈ lists .poll ↔ (t.request a).doingAuth = true) ∧
        (a ∈ lists .incomplete ↔
          (t.request a).doingAuth = false ∧ (t.request a).dnsPending = true)) ∧
    (∀ q ∈ t.outstanding, (t.dnsQuery q).ptr ∈ t.live) ∧
    (∀ c, c ∈ t.started ↔ ∃ auth q submitted start, .start c auth q submitted start ∈ es) ∧
    (∀ c ∈ t.started, (∃ a ∈ t.live, (t.request a).client = c ∧ (t.client c).released = 0 ∧
        ∀ b ∈ t.live, (t.request b).client = c → b = a) ∨
      (t.client c).released = 1 ∧ ∀ a ∈ t.live, (t.request a).client ≠ c) ∧
    (∀ c, c ∉ t.started → (t.client c).released = 0) ∧
    ∀ pre now post, es = pre ++ .timeout now :: post → ∀ c ∈ (machine.run s pre).started,
      (∀ a ∈ (machine.run s pre).live, ((machine.run s pre).request a).client = c →
        ((machine.run s pre).request a).timeout < (machine.run s pre).currentTime) →
      (t.client c).released = 1 := by
  obtain ⟨lists, h⟩ := run_holds unused allowed
  rw [reached] at h
  refine ⟨h.threaded.sound, ⟨lists, h.threaded.double, fun a => ?_, fun a there => ⟨?_, ?_⟩⟩,
    fun q open_ => (h.resolving.refers q open_).1, fun c => ?_, fun c known => ?_,
    h.accounted.unknown, ?_⟩
  · rw [h.threaded.perm.mem_iff, List.nil_append, List.mem_append]
  · refine ⟨h.sorted .poll a, fun doing => ?_⟩
    obtain ⟨list, inside⟩ := (h.threaded.mem_live a).1 there
    cases list with
    | poll => exact inside
    | incomplete =>
      have idle := (h.sorted .incomplete a inside).1
      rw [doing] at idle
      cases idle
  · refine ⟨h.sorted .incomplete a, fun waits => ?_⟩
    obtain ⟨list, inside⟩ := (h.threaded.mem_live a).1 there
    cases list with
    | poll =>
      have doing : (t.request a).doingAuth = true := h.sorted .poll a inside
      rw [waits.1] at doing
      cases doing
    | incomplete => exact inside
  · rw [← reached, mem_started_run, unused.started]
    simp
  -- a client that came has its request still, or has been released
  · by_cases mine : ∃ a ∈ t.live, (t.request a).client = c
    · obtain ⟨a, there, rfl⟩ := mine
      exact .inl ⟨a, there, rfl, h.accounted.waiting a there,
        fun b also same => h.accounted.single b also a there same⟩
    · have none : ∀ a ∈ t.live, (t.request a).client ≠ c := fun a there same =>
        mine ⟨a, there, same⟩
      exact .inr ⟨h.accounted.released c known none, none⟩
  · rintro pre now post rfl c known late
    obtain ⟨_, before⟩ := run_holds unused (allowed.of_prefix (List.prefix_append pre _))
    have once := before.released_by_timeout now known late
    obtain ⟨_, after⟩ := before.step (e := .timeout now) trivial
    have stays := after.stays_released allowed.of_suffix.2 once
    rw [← reached, Machine.run_append, Machine.run_cons]
    exact stays

def quietAuth : AuthState where
  request _ :=
    { next := none, prev := none, client := 0, authConnecting := false, authPending := false
      dnsPending := false, fd := -1, timeout := 0 }
  live := []
  authPollList := none
  authIncompleteList := none
  client _ :=
    { host := [], sockhost := [], username := [], gotId := false, since := 0, dnsQuery := none
      notices := [], released := 0 }
  started := []
  dnsQuery _ := { ptr := 0, query := false }
  outstanding := []
  currentTime := 0
  fault := false

def twoClients : List AuthEvent :=
  [.start 1 10 20 true (.connecting 5), .start 2 11 21 true (.connecting 6),
    .io fun _ => some { write := .sent, read := .again }, .answer 20 (some (lit "a.b")),
    .io fun a => if a = 10 then some { write := .again, read := .closed } else none,
    .clock 31]

theorem twoClients_released :
    ((machine.run quietAuth (twoClients ++ [.timeout 31])).client 1).released = 1 ∧
      ((machine.run quietAuth (twoClients ++ [.timeout 31])).client 2).released = 1 := by
  have unused : quietAuth.Unused := ⟨rfl, rfl, rfl, rfl, fun _ => rfl, rfl, rfl⟩
  have allowed : machine.Meets Allowed quietAuth (twoClients ++ [.timeout 31]) :=
    ⟨by decide, by decide, trivial, by decide, trivial, trivial, trivial, trivial⟩
  have all := (released_once unused allowed rfl).2.2.2.2.2.2 twoClients 31 [] rfl
  exact ⟨all 1 (by decide) (by decide), all 2 (by decide) (by decide)⟩

end AuthState

end Ircd
