import Ircd.Server.NameTable

/-! The name tables are maps.

The clients that are entered are on the chains of their names and no two of them share
one; so are the channels on the global list. Each function keeps this, apart from a
`strncpy_irc` over the name of a client that is entered.
-/

set_option autoImplicit false

namespace Ircd

open ChainTable

namespace ClientNames

structure ClientsFiled (t : ClientNames) : Prop where
  files : ∃ chains, t.clientTable.Files hashNickName t.nameOf t.entered chains
  distinct : ChainTable.Distinct clientNaming.same t.nameOf t.entered
  once : t.entered.Nodup
  listed : ∀ u ∈ t.entered, u ∈ t.globalClientList
  named : ∀ u ∈ t.entered, t.nameOf u ≠ []
  roster : t.globalClientList.Nodup
  made : ∀ u ∈ t.globalClientList, u < t.nextClient

structure ClientsKnown (t : ClientNames) : Prop extends ClientsFiled t where
  known : ∀ u ∈ t.globalClientList, (t.client u).HoldsName → u ∈ t.entered

def OthersKnown (t : ClientNames) (u : ClientId) : Prop :=
  ∀ v ∈ t.globalClientList, v ≠ u → (t.client v).HoldsName → v ∈ t.entered

variable {t : ClientNames} {u : ClientId} {n nick : CStr}

theorem ClientsKnown.others (h : ClientsKnown t) (u : ClientId) : OthersKnown t u :=
  fun v here _ => h.known v here

theorem ClientsFiled.length_le (h : ClientsFiled t) : t.entered.length ≤ t.nextClient :=
  length_le_of_lt h.once fun u inside => h.made u (h.listed u inside)

theorem ClientsFiled.find_iff (h : ClientsFiled t) :
    t.hashFindClient n = some u ↔ u ∈ t.entered ∧ irccmp n (t.nameOf u) = .eq := by
  obtain ⟨chains, files⟩ := h.files
  have map := files.find_iff (n := n) (a := u) h.distinct h.length_le
  exact map.trans (and_congr_right fun _ => beq_iff_eq)

theorem ClientsFiled.find_self (h : ClientsFiled t) (inside : u ∈ t.entered) :
    t.hashFindClient (t.nameOf u) = some u :=
  h.find_iff.2 ⟨inside, irccmp_self _⟩

theorem ClientsFiled.free_of_none (h : ClientsFiled t) (none : t.hashFindClient n = none) :
    ∀ v ∈ t.entered, irccmp n (t.nameOf v) ≠ .eq := by
  intro v inside equal
  rw [h.find_iff.2 ⟨inside, equal⟩] at none
  cases none

theorem nameOf_setClient_self (cl : NamedClient) : (t.setClient u cl).nameOf u = cl.name := by
  simp [nameOf, setClient]

theorem nameOf_setClient_of_ne {v : ClientId} {cl : NamedClient} (other : v ≠ u) :
    (t.setClient u cl).nameOf v = t.nameOf v := by
  simp [nameOf, setClient, Function.update_of_ne other]

theorem client_setClient_of_ne {v : ClientId} {cl : NamedClient} (other : v ≠ u) :
    (t.setClient u cl).client v = t.client v := by
  simp [setClient, Function.update_of_ne other]

@[simp] theorem client_setClient_self (cl : NamedClient) : (t.setClient u cl).client u = cl := by
  simp [setClient]

theorem setClient_setClient (cl cl' : NamedClient) :
    (t.setClient u cl).setClient u cl' = t.setClient u cl' := by
  simp [setClient]

theorem ClientsFiled.write (h : ClientsFiled t) {cl : NamedClient}
    (same : u ∈ t.entered → cl.name = t.nameOf u) : ClientsFiled (t.setClient u cl) := by
  have names : ∀ v ∈ t.entered, (t.setClient u cl).nameOf v = t.nameOf v := by
    intro v inside
    by_cases this : v = u
    · subst this
      rw [nameOf_setClient_self, same inside]
    · exact nameOf_setClient_of_ne this
  obtain ⟨chains, files⟩ := h.files
  exact {
    files := ⟨chains, files.congr names fun _ => Iff.rfl⟩
    distinct := fun v inside w inside' equal => by
      rw [names v inside, names w inside'] at equal
      exact h.distinct v inside w inside' equal
    once := h.once
    listed := h.listed
    named := fun v inside => by
      rw [names v inside]
      exact h.named v inside
    roster := h.roster
    made := h.made }

theorem OthersKnown.write (h : OthersKnown t u) {cl : NamedClient} :
    OthersKnown (t.setClient u cl) u := by
  intro v inside other
  rw [client_setClient_of_ne other]
  exact h v inside other

theorem ClientsKnown.write (h : ClientsKnown t) {cl : NamedClient}
    (same : u ∈ t.entered → cl.name = t.nameOf u)
    (known : u ∈ t.globalClientList → cl.HoldsName → u ∈ t.entered) :
    ClientsKnown (t.setClient u cl) where
  toClientsFiled := h.toClientsFiled.write same
  known := fun v inside => by
    by_cases this : v = u
    · subst this
      rw [client_setClient_self]
      exact known inside
    · rw [client_setClient_of_ne this]
      exact h.known v inside

theorem ClientsKnown.writeField (h : ClientsKnown t) {cl : NamedClient}
    (name : cl.name = t.nameOf u) (status : cl.status = (t.client u).status)
    (flag : cl.localFlag = (t.client u).localFlag) : ClientsKnown (t.setClient u cl) := by
  refine h.write (fun _ => name) fun inside => ?_
  rw [NamedClient.HoldsName, name, status, flag]
  exact h.known u inside

theorem ClientsFiled.nextClient_notMem (h : ClientsFiled t) :
    t.nextClient ∉ t.globalClientList := fun inside => Nat.lt_irrefl _ (h.made _ inside)

theorem ClientsFiled.nextClient_fresh (h : ClientsFiled t) : t.nextClient ∉ t.entered :=
  fun inside => h.nextClient_notMem (h.listed _ inside)

theorem makeClient_client {from_ : Option ClientId} {v : ClientId} (other : v ≠ t.nextClient) :
    (t.makeClient from_).client v = t.client v :=
  Function.update_of_ne other ..

theorem ClientsFiled.makeClient (h : ClientsFiled t) (from_ : Option ClientId) :
    ClientsFiled (t.makeClient from_) := by
  have names : ∀ v ∈ t.entered, (t.makeClient from_).nameOf v = t.nameOf v := by
    intro v inside
    have other : v ≠ t.nextClient := by
      rintro rfl
      exact h.nextClient_fresh inside
    exact congrArg NamedClient.name (makeClient_client other)
  obtain ⟨chains, files⟩ := h.files
  exact {
    files := ⟨chains, (files.clear h.nextClient_fresh).congr names fun _ => Iff.rfl⟩
    distinct := fun v inside w inside' equal => by
      rw [names v inside, names w inside'] at equal
      exact h.distinct v inside w inside' equal
    once := h.once
    listed := fun v inside => List.mem_cons_of_mem _ (h.listed v inside)
    named := fun v inside => by
      rw [names v inside]
      exact h.named v inside
    roster := List.nodup_cons.2 ⟨h.nextClient_notMem, h.roster⟩
    made := fun v inside => by
      rcases List.mem_cons.1 inside with rfl | old
      · exact Nat.lt_succ_self _
      · exact Nat.lt_succ_of_lt (h.made v old) }

theorem ClientsKnown.makeClient_others (h : ClientsKnown t) (from_ : Option ClientId) :
    OthersKnown (t.makeClient from_) t.nextClient := by
  intro v inside other
  rw [makeClient_client other]
  exact h.known v (List.mem_of_ne_of_mem other inside)

theorem ClientsKnown.makeClient (h : ClientsKnown t) : ClientsKnown (t.makeClient none) where
  toClientsFiled := h.toClientsFiled.makeClient none
  known := fun v inside holds => by
    by_cases this : v = t.nextClient
    · subst this
      simp [ClientNames.makeClient, NamedClient.HoldsName, NamedClient.zero] at holds
    · exact h.makeClient_others none v inside this holds

theorem ClientsKnown.connectServer (h : ClientsKnown t) (name : CStr) :
    ClientsKnown (t.connectServer name) := by
  refine h.makeClient.write (fun inside => absurd inside h.nextClient_fresh) fun _ holds => ?_
  simp [ClientNames.makeClient, NamedClient.HoldsName, NamedClient.zero] at holds

theorem ClientsFiled.enter (h : ClientsFiled t) (fresh : u ∉ t.entered)
    (here : u ∈ t.globalClientList) (named : t.nameOf u ≠ [])
    (free : ∀ v ∈ t.entered, irccmp (t.nameOf u) (t.nameOf v) ≠ .eq) :
    ClientsFiled (t.addToClientHashTable (t.nameOf u) u) := by
  obtain ⟨chains, files⟩ := h.files
  exact {
    files := ⟨_, files.add fresh⟩
    distinct := fun v inside w inside' equal => by
      have equal := beq_iff_eq.1 equal
      rcases List.mem_cons.1 inside with rfl | old
      · rcases List.mem_cons.1 inside' with rfl | old'
        · rfl
        · exact absurd equal (free w old')
      · rcases List.mem_cons.1 inside' with rfl | old'
        · exact absurd (irccmp_comm equal) (free v old)
        · exact h.distinct v old w old' (beq_iff_eq.2 equal)
    once := List.nodup_cons.2 ⟨fresh, h.once⟩
    listed := fun v inside => by
      rcases List.mem_cons.1 inside with rfl | old
      · exact here
      · exact h.listed v old
    named := fun v inside => by
      rcases List.mem_cons.1 inside with rfl | old
      · exact named
      · exact h.named v old
    roster := h.roster
    made := h.made }

theorem ClientsFiled.leave (h : ClientsFiled t) :
    ClientsFiled (t.delFromClientHashTable (t.nameOf u) u) := by
  obtain ⟨chains, files⟩ := h.files
  have old : ∀ v, v ∈ t.entered.erase u → v ∈ t.entered := fun v inside =>
    List.mem_of_mem_erase inside
  exact {
    files := files.del h.once h.length_le
    distinct := fun v inside w inside' => h.distinct v (old v inside) w (old w inside')
    once := h.once.erase u
    listed := fun v inside => h.listed v (old v inside)
    named := fun v inside => h.named v (old v inside)
    roster := h.roster
    made := h.made }

theorem ClientsKnown.enterNew (h : ClientsKnown t) {from_ : Option ClientId} {cl : NamedClient}
    (given : cl.name ≠ []) (free : ∀ v ∈ t.entered, irccmp cl.name (t.nameOf v) ≠ .eq) :
    ClientsKnown (((t.makeClient from_).setClient t.nextClient cl).addToClientHashTable
      cl.name t.nextClient) := by
  have filed : ClientsFiled ((t.makeClient from_).setClient t.nextClient cl) :=
    (h.toClientsFiled.makeClient from_).write fun inside => absurd inside h.nextClient_fresh
  have entered := filed.enter (u := t.nextClient) h.nextClient_fresh List.mem_cons_self
    (by rw [nameOf_setClient_self]; exact given) (by
      intro v inside equal
      have other : v ≠ t.nextClient := by
        rintro rfl
        exact h.nextClient_fresh inside
      rw [nameOf_setClient_self, nameOf_setClient_of_ne other, nameOf,
        makeClient_client other] at equal
      exact free v inside equal)
  rw [nameOf_setClient_self] at entered
  refine ⟨entered, fun v here holds => ?_⟩
  by_cases this : v = t.nextClient
  · exact List.mem_cons.2 (.inl this)
  · exact List.mem_cons_of_mem _ ((h.makeClient_others from_).write v here this holds)

theorem exitOneClient_client (v : ClientId) : (t.exitOneClient u).client v = t.client v := by
  unfold exitOneClient
  split <;> rfl

theorem exitOneClient_entered_subset : (t.exitOneClient u).entered ⊆ t.entered := by
  unfold exitOneClient
  split
  · exact fun v inside => inside
  · exact fun v inside => List.mem_of_mem_erase inside

theorem exitOneClient_entered (notMe : (t.client u).status ≠ .me) :
    (t.exitOneClient u).entered = t.entered.erase u := by
  unfold exitOneClient
  rw [if_neg notMe]
  rfl

theorem exitOneClient_list (notMe : (t.client u).status ≠ .me) :
    (t.exitOneClient u).globalClientList = t.globalClientList.erase u := by
  unfold exitOneClient
  rw [if_neg notMe]
  rfl

theorem ClientsFiled.exitOneClient (h : ClientsFiled t) (u : ClientId) :
    ClientsFiled (t.exitOneClient u) := by
  by_cases isMe : (t.client u).status = .me
  · unfold ClientNames.exitOneClient
    rwa [if_pos isMe]
  unfold ClientNames.exitOneClient
  rw [if_neg isMe]
  have left : ClientsFiled (t.delFromClientHashTable (t.nameOf u) u) := h.leave
  exact { left with
    listed := fun v inside => by
      obtain ⟨other, entered⟩ := h.once.mem_erase_iff.1 inside
      exact h.roster.mem_erase_iff.2 ⟨other, h.listed v entered⟩
    roster := h.roster.erase u
    made := fun v inside => h.made v (List.mem_of_mem_erase inside) }

theorem OthersKnown.exitOneClient (known : OthersKnown t u) (h : ClientsFiled t) (w : ClientId) :
    OthersKnown (t.exitOneClient w) u := by
  by_cases isMe : (t.client w).status = .me
  · unfold ClientNames.exitOneClient
    rwa [if_pos isMe]
  intro v inside other holds
  rw [exitOneClient_list isMe] at inside
  rw [exitOneClient_client] at holds
  rw [exitOneClient_entered isMe, h.once.mem_erase_iff]
  obtain ⟨stays, here⟩ := h.roster.mem_erase_iff.1 inside
  exact ⟨stays, known v here other holds⟩

theorem ClientsFiled.exitOne_known (h : ClientsFiled t) (notMe : (t.client u).status ≠ .me)
    (known : OthersKnown t u) : ClientsKnown (t.exitOneClient u) where
  toClientsFiled := h.exitOneClient u
  known := fun v inside => by
    have other : v ≠ u := by
      rw [exitOneClient_list notMe] at inside
      exact (h.roster.mem_erase_iff.1 inside).1
    exact known.exitOneClient h u v inside other

theorem ClientsKnown.exitOneClient (h : ClientsKnown t) (u : ClientId) :
    ClientsKnown (t.exitOneClient u) := by
  by_cases isMe : (t.client u).status = .me
  · unfold ClientNames.exitOneClient
    rwa [if_pos isMe]
  · exact h.toClientsFiled.exitOne_known isMe (h.others u)

theorem exitClient_client {behind : List ClientId} (v : ClientId) :
    (t.exitClient u behind).client v = t.client v := by
  unfold exitClient
  induction behind ++ [u] generalizing t with
  | nil => rfl
  | cons w rest ih => exact ih.trans (exitOneClient_client v)

theorem exitClient_entered_subset {behind : List ClientId} :
    (t.exitClient u behind).entered ⊆ t.entered := by
  unfold exitClient
  induction behind ++ [u] generalizing t with
  | nil => exact fun v inside => inside
  | cons w rest ih => exact fun v inside => exitOneClient_entered_subset (ih inside)

theorem ClientsKnown.exitClient (h : ClientsKnown t) (u : ClientId) (behind : List ClientId) :
    ClientsKnown (t.exitClient u behind) := by
  unfold ClientNames.exitClient
  induction behind ++ [u] generalizing t with
  | nil => exact h
  | cons w rest ih => exact ih (h.exitOneClient w)

def Free (t : ClientNames) (nick : CStr) (sptr : ClientId) : Prop :=
  ∀ v ∈ t.entered, irccmp nick (t.nameOf v) = .eq → v = sptr

variable {sptr cptr : ClientId} {outcome : Registration}

theorem ClientsKnown.registerUser (h : ClientsKnown t) (outcome : Registration)
    (entered : u ∈ t.globalClientList → u ∈ t.entered) :
    ClientsKnown (t.registerUser u outcome) := by
  cases outcome with
  | refused => exact h.exitClient u []
  | held => exact h
  | accepted => exact h.write (fun _ => rfl) fun here _ => entered here

theorem ClientsKnown.doUser (h : ClientsKnown t) {username host : CStr} :
    ClientsKnown (t.doUser u username host outcome) := by
  have hadUser : ClientsKnown (t.setClient u { t.client u with user := true }) :=
    h.writeField rfl rfl rfl
  unfold ClientNames.doUser
  simp only [client_setClient_self]
  split
  · next away =>
    apply ClientsKnown.registerUser
    · exact hadUser.writeField (by rw [nameOf_setClient_self]) (by rw [client_setClient_self])
        (by rw [client_setClient_self])
    · exact fun here => h.known u here (.inl (by simpa using away))
  · split
    · exact hadUser
    · next unknown =>
      have unknown : (t.client u).status = .unknown := not_not.1 unknown
      split
      · next named =>
        apply hadUser.registerUser
        intro here
        rw [nameOf_setClient_self] at named
        exact h.known u here (.inr ⟨named, by rw [unknown]; decide, by rw [unknown]; decide⟩)
      · exact hadUser.writeField (by rw [nameOf_setClient_self])
          (by rw [client_setClient_self]) (by rw [client_setClient_self])

theorem ClientsFiled.setNick (h : ClientsFiled t) (here : sptr ∈ t.globalClientList)
    (given : nick ≠ []) (free : Free t nick sptr) : ClientsFiled (t.setNick sptr nick) := by
  have out : ∃ t' : ClientNames, ClientsFiled t' ∧ sptr ∉ t'.entered ∧
      t'.entered ⊆ t.entered ∧ t'.globalClientList = t.globalClientList ∧
      t'.client = t.client ∧
      (if t.nameOf sptr ≠ [] then t.delFromClientHashTable (t.nameOf sptr) sptr else t) = t' := by
    by_cases named : t.nameOf sptr ≠ []
    · refine ⟨_, h.leave (u := sptr), h.once.not_mem_erase, fun v => List.mem_of_mem_erase, rfl,
        rfl, if_pos named⟩
    · exact ⟨t, h, fun inside => named (h.named sptr inside), fun v inside => inside, rfl, rfl,
        if_neg named⟩
  obtain ⟨t', filed, gone, shrunk, list, cells, same⟩ := out
  unfold ClientNames.setNick
  simp only [same]
  have written : ClientsFiled (t'.setClient sptr { t'.client sptr with name := nick }) :=
    filed.write fun inside => absurd inside gone
  have entered := written.enter (u := sptr) gone (list ▸ here)
    (by rw [nameOf_setClient_self]; exact given) (by
      intro v inside equal
      have other : v ≠ sptr := by
        rintro rfl
        exact gone inside
      rw [nameOf_setClient_self, nameOf_setClient_of_ne other, nameOf, cells] at equal
      exact other (free v (shrunk inside) equal))
  rwa [nameOf_setClient_self] at entered

theorem setNick_entered (h : ClientsFiled t) {v : ClientId} :
    v ∈ (t.setNick sptr nick).entered ↔ v = sptr ∨ v ∈ t.entered := by
  unfold setNick
  split
  · show v ∈ sptr :: t.entered.erase sptr ↔ _
    rw [List.mem_cons, h.once.mem_erase_iff]
    by_cases this : v = sptr <;> simp [this]
  · exact List.mem_cons

theorem setNick_client_of_ne {v : ClientId} (other : v ≠ sptr) :
    (t.setNick sptr nick).client v = t.client v := by
  unfold setNick
  split <;> exact Function.update_of_ne other ..

theorem setNick_globalClientList :
    (t.setNick sptr nick).globalClientList = t.globalClientList := by
  unfold setNick
  split <;> rfl

theorem ClientsFiled.setNick_known (h : ClientsFiled t) (here : sptr ∈ t.globalClientList)
    (given : nick ≠ []) (free : Free t nick sptr) (known : OthersKnown t sptr) :
    ClientsKnown (t.setNick sptr nick) where
  toClientsFiled := h.setNick here given free
  known := fun v inside holds => by
    rw [setNick_entered h]
    by_cases this : v = sptr
    · exact .inl this
    · rw [setNick_globalClientList] at inside
      rw [setNick_client_of_ne this] at holds
      exact .inr (known v inside this holds)

theorem ClientsKnown.introduceNick (h : ClientsKnown t) {parv : List CStr} {newts : Int}
    (given : nick ≠ []) (free : ∀ v ∈ t.entered, irccmp nick (t.nameOf v) ≠ .eq) :
    ClientsKnown (t.introduceNick cptr parv newts nick outcome) :=
  (h.enterNew given free).doUser

theorem ClientsKnown.nickkilldone (h : ClientsKnown t) {parv : List CStr} {newts : Int}
    {v : NickVerdict} (here : sptr ∈ t.globalClientList) (given : nick ≠ [])
    (free : Free t nick sptr) (notMe : (t.client sptr).status ≠ .me)
    (server : (t.client sptr).isServer → ∀ w ∈ t.entered, irccmp nick (t.nameOf w) ≠ .eq) :
    ClientsKnown (t.nickkilldone cptr sptr parv newts nick v) := by
  unfold ClientNames.nickkilldone
  simp only []
  split
  · next isServer => exact h.introduceNick given (server isServer)
  split
  -- a client that has a nick already: only its own entry changes
  · generalize (if newts = 0 then t.currentTime else newts) = tsinfo
    have changed : ClientsKnown (t.setClient sptr { t.client sptr with tsinfo := tsinfo }) :=
      h.writeField rfl rfl rfl
    have stillFree : Free (t.setClient sptr { t.client sptr with tsinfo := tsinfo }) nick sptr := by
      intro w inside equal
      by_cases this : w = sptr
      · exact this
      · rw [nameOf_setClient_of_ne this] at equal
        exact free w inside equal
    split
    · split
      · exact h
      · exact changed
    · split
      · exact h.setNick_known here given free (h.others sptr)
      · exact changed.setNick_known here given stillFree (changed.others sptr)
  · next unnamed =>
    have unnamed : t.nameOf sptr = [] := not_not.1 unnamed
    have outside : sptr ∉ t.entered := fun inside => h.named sptr inside unnamed
    have written : ∀ cl : NamedClient, ClientsFiled (t.setClient sptr cl) := fun cl =>
      h.toClientsFiled.write fun inside => absurd inside outside
    have stillFree : ∀ cl : NamedClient, Free (t.setClient sptr cl) nick sptr := by
      intro cl w inside equal
      by_cases this : w = sptr
      · exact this
      · rw [nameOf_setClient_of_ne this] at equal
        exact free w inside equal
    have others : ∀ cl : NamedClient, OthersKnown (t.setClient sptr cl) sptr := fun cl =>
      (h.others sptr).write
    split
    · exact (written _).setNick_known here given (stillFree _) (others _)
    · split
      · exact (written _).exitOne_known (by rwa [client_setClient_self]) (others _)
      · next stays =>
        cases outcome : v.outcome with
        | refused => exact absurd outcome stays
        | held => exact (written _).setNick_known here given (stillFree _) (others _)
        | accepted =>
          unfold ClientNames.registerUser
          rw [setClient_setClient]
          exact (written _).setNick_known here given (stillFree _) (others _)

theorem ClientsKnown.mPass (h : ClientsKnown t) {parv : List CStr} :
    ClientsKnown (t.mPass cptr sptr parv) := by
  unfold ClientNames.mPass
  simp only
  split
  · exact h
  · split
    · exact h
    · split
      · exact h.writeField rfl rfl rfl
      · exact h

theorem ClientsFiled.find_mem (h : ClientsFiled t) {k : Nat} {q : ClientId → Bool}
    (found : t.clientTable.find t.nextClient k q = some u) : u ∈ t.entered ∧ q u := by
  obtain ⟨chains, files⟩ := h.files
  rw [files.find_eq h.length_le] at found
  have accepted := List.find?_some found
  exact ⟨((files.filed k u).1 (List.mem_of_find?_eq_some found)).1, accepted⟩

theorem ClientsFiled.hashFindServer_eq (h : ClientsFiled t) (found : t.hashFindClient n = some u)
    (isServer : (t.client u).isServer ∨ (t.client u).status = .me) :
    t.hashFindServer n = some u := by
  have inside := List.mem_of_find?_eq_some found
  obtain ⟨entered, equal⟩ := h.find_iff.1 found
  have accepted : (((t.client u).isServer || (t.client u).status == .me) &&
      irccmp n (t.nameOf u) == .eq) = true := by
    rw [beq_iff_eq.2 equal, Bool.and_true, Bool.or_eq_true, beq_iff_eq]
    exact isServer
  unfold hashFindServer
  split
  · next w first =>
    obtain ⟨inside', accepted'⟩ := h.find_mem first
    obtain ⟨-, equal'⟩ := Bool.and_eq_true_iff.1 accepted'
    have same := irccmp_trans (irccmp_comm (beq_iff_eq.1 equal')) equal
    exact congrArg some (h.distinct w inside' u entered (beq_iff_eq.2 same))
  · next none => exact absurd accepted (List.find?_eq_none.1 none u inside)

theorem ClientsKnown.takeNick (h : ClientsKnown t) {parv : List CStr} {newts : Int}
    {fromTs : Bool} {v : NickVerdict} (here : sptr ∈ t.globalClientList)
    (notMe : (t.client sptr).status ≠ .me) (given : nick ≠ []) :
    ClientsKnown (t.takeNick cptr sptr parv newts fromTs nick v) := by
  unfold ClientNames.takeNick
  split
  · split
    · exact h
    · exact h.exitClient sptr v.behind
  next noServer =>
  split
  · next none =>
    have free := h.free_of_none none
    exact h.nickkilldone here given (fun w inside equal => absurd equal (free w inside)) notMe
      fun _ => free
  · next acptr found =>
    obtain ⟨entered, equal⟩ := h.find_iff.1 found
    -- a name is in the table once, so who holds it is the only one in the way
    have only : Free t nick acptr := fun w inside equal' =>
      h.distinct w inside acptr entered (beq_iff_eq.2 (irccmp_trans (irccmp_comm equal') equal))
    have notServer : ¬((t.client acptr).isServer ∨ (t.client acptr).status = .me) :=
      fun isServer => Option.some_ne_none _
        ((h.hashFindServer_eq found isServer).symm.trans noServer)
    split
    · next same =>
      split
      · exact h.nickkilldone here given (same ▸ only) notMe fun isServer =>
          absurd (.inl (same ▸ isServer)) notServer
      · exact h
    · next other =>
      -- the older, the newer or both go; with the older gone the name is free
      cases nickCollision (t.client acptr) (t.client sptr) (t.client cptr) newts fromTs parv with
      | ignore => exact h
      | killOld => exact h.exitClient acptr []
      | killNew => exact h.exitClient sptr []
      | killBoth => exact (h.exitClient acptr []).exitClient sptr []
      | replace =>
        have oldNotMe : (t.client acptr).status ≠ .me := fun isMe => notServer (.inr isMe)
        have left : (t.exitOneClient acptr).entered = t.entered.erase acptr :=
          exitOneClient_entered oldNotMe
        have free : ∀ w ∈ (t.exitOneClient acptr).entered,
            irccmp nick ((t.exitOneClient acptr).nameOf w) ≠ .eq := by
          intro w inside equal'
          rw [left] at inside
          rw [nameOf, exitOneClient_client] at equal'
          obtain ⟨different, old⟩ := h.once.mem_erase_iff.1 inside
          exact different (only w old equal')
        refine (h.exitOneClient acptr).nickkilldone ?_ given ?_ ?_ fun _ => free
        · rw [exitOneClient_list oldNotMe]
          exact (List.mem_erase_of_ne (Ne.symm other)).2 here
        · exact fun w inside equal' => absurd equal' (free w inside)
        · rwa [exitOneClient_client]

theorem ClientsKnown.mNick (h : ClientsKnown t) {parv : List CStr} {v : NickVerdict}
    (here : sptr ∈ t.globalClientList) (notMe : (t.client sptr).status ≠ .me) :
    ClientsKnown (t.mNick cptr sptr parv v) := by
  unfold ClientNames.mNick
  simp only []
  split
  · exact h
  split
  · exact h
  split
  · exact h
  generalize (if (t.client sptr).localFlag = true then
    (parv.getD 1 []).takeWhile (· ≠ '~') else parv.getD 1 []) = parv1
  split
  · split
    · exact h.exitClient sptr v.behind
    · exact h
  · next clean =>
    split
    · exact h
    · exact h.takeNick here notMe fun empty => clean (.inl empty)

variable {host : CStr} {parv : List CStr} {adm : Admission} {v : ServerVerdict}

structure Admitted (t : ClientNames) (cptr : ClientId) (host : CStr)
    (gated : ClientNames × Gate) : Prop where
  known : ClientsKnown gated.1
  fewer : gated.1.entered ⊆ t.entered
  cells : gated.1.client = t.client
  here : gated.2 ≠ .done → cptr ∈ gated.1.globalClientList
  free : gated.2 ≠ .done → Free gated.1 host cptr
  new : gated.2 = .introduce → ∀ w ∈ gated.1.entered, irccmp host (gated.1.nameOf w) ≠ .eq
  given : gated.2 ≠ .done → host ≠ []
  waiting : gated.2 = .become → (t.client cptr).status ≠ .me

theorem ClientsKnown.turnedAway (h : ClientsKnown t) (behind : List ClientId) :
    Admitted t cptr host (t.exitClient cptr behind, Gate.done) where
  known := h.exitClient cptr behind
  fewer := exitClient_entered_subset
  cells := funext exitClient_client
  here := fun on => absurd rfl on
  free := fun on => absurd rfl on
  new := nofun
  given := fun on => absurd rfl on
  waiting := nofun

theorem ClientsKnown.ignored (h : ClientsKnown t) : Admitted t cptr host (t, Gate.done) where
  known := h
  fewer := fun _ inside => inside
  cells := rfl
  here := fun on => absurd rfl on
  free := fun on => absurd rfl on
  new := nofun
  given := fun on => absurd rfl on
  waiting := nofun

theorem ClientsKnown.newServerGate (h : ClientsKnown t) (here : cptr ∈ t.globalClientList)
    (given : host ≠ [])
    (other : (t.client cptr).isServer → t.hashFindClient host ≠ some cptr) :
    Admitted t cptr host (t.newServerGate cptr host v) := by
  have admitted : t.hashFindClient host = none ∨ t.hashFindClient host = some cptr →
      Admitted t cptr host (ClientNames.newServerGate.admitted t cptr v) := by
    intro someone
    -- the name is nobody's, or that of the connection itself
    have free : Free t host cptr := by
      intro w inside equal
      have found := h.find_iff.2 ⟨inside, equal⟩
      rcases someone with none | self
      · rw [none] at found
        cases found
      · exact Option.some.inj (found.symm.trans self)
    unfold ClientNames.newServerGate.admitted
    split
    · next isServer =>
      have new := h.free_of_none (someone.resolve_right (other isServer))
      exact ⟨h, fun _ inside => inside, rfl, fun _ => here, fun _ => free, fun _ => new,
        fun _ => given, nofun⟩
    · split
      · exact h.ignored
      · next waiting =>
        split
        · exact h.turnedAway v.behind
        · refine ⟨h, fun _ inside => inside, rfl, fun _ => here, fun _ => free,
            nofun, fun _ => given, fun _ isMe => waiting ?_⟩
          rw [isMe]
          decide
  unfold ClientNames.newServerGate
  split
  · next acptr found =>
    split
    · exact h.turnedAway v.behind
    · next same => exact admitted (.inr (not_not.1 same ▸ found))
  · next none => exact admitted (.inl none)

theorem exitOneClient_list_mem {w : ClientId} (other : w ≠ u) (here : w ∈ t.globalClientList) :
    w ∈ (t.exitOneClient u).globalClientList := by
  by_cases isMe : (t.client u).status = .me
  · unfold exitOneClient
    rwa [if_pos isMe]
  · rw [exitOneClient_list isMe]
    exact (List.mem_erase_of_ne other).2 here

theorem exitClient_list_mem {w : ClientId} {behind : List ClientId} (other : w ≠ u)
    (outside : w ∉ behind) (here : w ∈ t.globalClientList) :
    w ∈ (t.exitClient u behind).globalClientList := by
  have outside : w ∉ behind ++ [u] := by simp [outside, other]
  unfold exitClient
  generalize behind ++ [u] = gone at outside ⊢
  induction gone generalizing t with
  | nil => exact here
  | cons x gone ih =>
    obtain ⟨different, outside⟩ := List.ne_and_not_mem_of_not_mem_cons outside
    exact ih (exitOneClient_list_mem different here) outside

theorem ClientsKnown.serverGate (h : ClientsKnown t) (comes : t.ComesFrom cptr sptr) :
    Admitted t cptr (serverHost parv) (t.serverGate cptr sptr parv adm v) := by
  unfold ClientNames.serverGate
  split
  · exact h.ignored
  simp only []
  split
  · exact h.ignored
  split
  · exact h.turnedAway v.behind
  next clean =>
  have given : serverHost parv ≠ [] := by
    intro empty
    rw [empty] at clean
    exact clean (.inl (List.not_mem_nil))
  split
  · exact h.turnedAway v.behind
  split
  · exact h.turnedAway v.behind
  split
  · next none =>
    refine h.newServerGate comes.connected given fun isServer found => ?_
    rw [h.hashFindServer_eq found (.inl isServer)] at none
    cases none
  · next acptr found =>
    split
    · exact h.turnedAway v.behind
    · next stays =>
      have stays := (not_or.1 stays).2
      -- the old link goes with all that is behind it, and the name is free then
      set t' := t.exitClient (t.client acptr).from_ (v.behindOther.filter (· ≠ cptr)) with isT'
      have known : ClientsKnown t' := h.exitClient _ _
      have cells : t'.client = t.client := funext exitClient_client
      have fewer : t'.entered ⊆ t.entered := exitClient_entered_subset
      have here : cptr ∈ t'.globalClientList :=
        exitClient_list_mem (Ne.symm stays) (by simp) comes.connected
      have gated : Admitted t' cptr (serverHost parv)
          (t'.newServerGate cptr (serverHost parv) v) := known.newServerGate here given (by
          intro isServer self
          rw [cells] at isServer
          obtain ⟨inside, equal⟩ := known.find_iff.1 self
          rw [nameOf, cells] at equal
          have before := h.hashFindServer_eq (h.find_iff.2 ⟨fewer inside, equal⟩) (.inl isServer)
          rw [found] at before
          exact stays (Option.some.inj before ▸ comes.itself))
      exact { gated with
        fewer := fun w inside => fewer (gated.fewer inside)
        cells := gated.cells.trans cells
        waiting := cells ▸ gated.waiting }

theorem ClientsKnown.introduceServer (h : ClientsKnown t)
    (new : ∀ w ∈ t.entered, irccmp host (t.nameOf w) ≠ .eq) (given : host ≠ [])
    (fits : strncpyIrc host hostLen = host) :
    ClientsKnown (t.introduceServer cptr host parv adm v) := by
  unfold ClientNames.introduceServer
  simp only [fits, nameOf_setClient_self]
  split
  · exact h
  split
  · exact h.exitClient cptr v.behind
  split
  · exact h.exitClient cptr v.behind
  have entered : ClientsKnown (((t.makeClient (some cptr)).setClient t.nextClient
      { (t.makeClient (some cptr)).client t.nextClient with
        name := host, status := .server }).addToClientHashTable host t.nextClient) :=
    h.enterNew given new
  split
  · exact entered.exitClient cptr v.behind
  · exact entered

theorem ClientsFiled.exitClient (h : ClientsFiled t) (known : OthersKnown t u)
    (notMe : (t.client u).status ≠ .me) (behind : List ClientId) :
    ClientsKnown (t.exitClient u behind) := by
  unfold ClientNames.exitClient
  rw [List.foldl_append]
  show ClientsKnown ((behind.foldl ClientNames.exitOneClient t).exitOneClient u)
  induction behind generalizing t with
  | nil => exact h.exitOne_known notMe known
  | cons w behind ih =>
    exact ih (h.exitOneClient w) (known.exitOneClient h w) (by rwa [exitOneClient_client])

theorem ClientsKnown.becomeServer (h : ClientsKnown t) (here : cptr ∈ t.globalClientList)
    (free : Free t host cptr) (given : host ≠ []) (fits : strncpyIrc host hostLen = host)
    (outside : cptr ∉ t.entered) (notMe : (t.client cptr).status ≠ .me) :
    ClientsKnown (t.becomeServer cptr host adm v) := by
  unfold ClientNames.becomeServer
  simp only [fits, client_setClient_self, setClient_setClient]
  have filed : ∀ cl, ClientsFiled (t.setClient cptr cl) := fun cl =>
    h.toClientsFiled.write fun inside => absurd inside outside
  split
  · exact (filed _).exitClient (h.others cptr).write (by rwa [client_setClient_self]) v.behind
  · rw [nameOf_setClient_self]
    have entered := (filed { t.client cptr with name := host, status := .server }).enter
      outside here (by rwa [nameOf_setClient_self]) (by
        intro w inside equal
        have other : w ≠ cptr := by
          rintro rfl
          exact outside inside
        rw [nameOf_setClient_self, nameOf_setClient_of_ne other] at equal
        exact other (free w inside equal))
    rw [nameOf_setClient_self] at entered
    refine ⟨entered, fun w inside holds => ?_⟩
    by_cases this : w = cptr
    · exact List.mem_cons.2 (.inl this)
    · exact List.mem_cons_of_mem _ ((h.others cptr).write w inside this holds)

theorem serverHost_fits (parv : List CStr) :
    strncpyIrc (serverHost parv) hostLen = serverHost parv := by
  unfold strncpyIrc serverHost
  rw [List.take_take, Nat.min_self]

theorem ClientsKnown.mServer (h : ClientsKnown t) (comes : t.ComesFrom cptr sptr)
    (anew : (t.serverGate cptr sptr parv adm v).2 = .become →
      t.hashFindClient (t.nameOf cptr) ≠ some cptr) :
    ClientsKnown (t.mServer cptr sptr parv adm v) := by
  have admitted : Admitted t cptr (serverHost parv) (t.serverGate cptr sptr parv adm v) :=
    h.serverGate comes
  unfold ClientNames.mServer
  cases gated : t.serverGate cptr sptr parv adm v with
  | mk t' gate =>
    rw [gated] at admitted anew
    cases gate with
    | done => exact admitted.known
    | introduce =>
      exact admitted.known.introduceServer (admitted.new rfl) (admitted.given nofun)
        (serverHost_fits parv)
    | become =>
      have outside : cptr ∉ t'.entered := fun inside =>
        anew rfl (h.find_self (admitted.fewer inside))
      have notMe : (t'.client cptr).status ≠ .me := by
        rw [admitted.cells]
        exact admitted.waiting rfl
      exact admitted.known.becomeServer (admitted.here nofun) (admitted.free nofun)
        (admitted.given nofun) (serverHost_fits parv) outside notMe

end ClientNames

namespace ChannelNames

structure ChannelsFiled (t : ChannelNames) : Prop where
  files : ∃ chains, t.channelTable.Files hashChannelName t.chnameOf t.channel chains
  distinct : ChainTable.Distinct channelNaming.same t.chnameOf t.channel
  once : t.channel.Nodup
  made : ∀ c ∈ t.channel, c < t.nextChan

variable {t : ChannelNames} {c : ChanId} {n : CStr}

theorem ChannelsFiled.length_le (h : ChannelsFiled t) : t.channel.length ≤ t.nextChan :=
  length_le_of_lt h.once h.made

theorem ChannelsFiled.find_iff (h : ChannelsFiled t) :
    t.hashFindChannel n = some c ↔ c ∈ t.channel ∧ irccmp n (t.chnameOf c) = .eq := by
  obtain ⟨chains, files⟩ := h.files
  have map := files.find_iff (n := n) (a := c) h.distinct h.length_le
  exact map.trans (and_congr_right fun _ => beq_iff_eq)

theorem ChannelsFiled.setChan (h : ChannelsFiled t) {ch : NamedChannel}
    (same : ch.chname = t.chnameOf c) : ChannelsFiled (t.setChan c ch) := by
  have names : (t.setChan c ch).chnameOf = t.chnameOf := by
    funext d
    by_cases this : d = c
    · subst this
      simp [chnameOf, ChannelNames.setChan, same]
    · simp [chnameOf, ChannelNames.setChan, Function.update_of_ne this]
  exact {
    files := by rw [names]; exact h.files
    distinct := by rw [names]; exact h.distinct
    once := h.once
    made := h.made }

theorem ChannelsFiled.createChannel (h : ChannelsFiled t) {chname : CStr} {juped : Bool}
    (none : t.hashFindChannel chname = none) : ChannelsFiled (t.createChannel chname juped) := by
  have fresh : t.nextChan ∉ t.channel := fun inside => Nat.lt_irrefl _ (h.made _ inside)
  have free : ∀ d ∈ t.channel, irccmp chname (t.chnameOf d) ≠ .eq := by
    intro d inside equal
    rw [h.find_iff.2 ⟨inside, equal⟩] at none
    cases none
  have self : (t.createChannel chname juped).chnameOf t.nextChan = chname := by
    simp [chnameOf, ChannelNames.createChannel, addToChannelHashTable]
  have names : ∀ d ∈ t.channel, (t.createChannel chname juped).chnameOf d = t.chnameOf d := by
    intro d inside
    have other : d ≠ t.nextChan := by
      rintro rfl
      exact fresh inside
    simp [chnameOf, ChannelNames.createChannel, addToChannelHashTable,
      Function.update_of_ne other]
  obtain ⟨chains, files⟩ := h.files
  have cleared := (files.clear fresh).congr names fun _ => Iff.rfl
  have added := cleared.add fresh
  rw [self] at added
  exact {
    files := ⟨_, added⟩
    distinct := fun d inside e inside' equal => by
      have equal := beq_iff_eq.1 equal
      rcases List.mem_cons.1 inside with rfl | old
      · rcases List.mem_cons.1 inside' with rfl | old'
        · rfl
        · rw [self, names e old'] at equal
          exact absurd equal (free e old')
      · rcases List.mem_cons.1 inside' with rfl | old'
        · rw [self, names d old] at equal
          exact absurd (irccmp_comm equal) (free d old)
        · rw [names d old, names e old'] at equal
          exact h.distinct d old e old' (beq_iff_eq.2 equal)
    once := List.nodup_cons.2 ⟨fresh, h.once⟩
    made := fun d inside => by
      rcases List.mem_cons.1 inside with rfl | old
      · exact Nat.lt_succ_self _
      · exact Nat.lt_succ_of_lt (h.made d old) }

theorem ChannelsFiled.getChannel (h : ChannelsFiled t) (mine : Bool) (chname : CStr)
    (create : Bool) : ChannelsFiled (t.getChannel mine chname create) := by
  unfold ChannelNames.getChannel
  split
  · exact h
  simp only []
  split
  · exact h
  · next none =>
    split
    · exact h.createChannel none
    · exact h

theorem ChannelsFiled.jupeChannel (h : ChannelsFiled t) (name : CStr) :
    ChannelsFiled (t.jupeChannel name) := by
  unfold ChannelNames.jupeChannel
  split
  · exact h
  split
  · exact h.setChan rfl
  · next none => exact h.createChannel none

theorem ChannelsFiled.destroy (h : ChannelsFiled t) (c : ChanId) :
    ChannelsFiled ({ t with channel := t.channel.erase c }.delFromChannelHashTable
      (t.chnameOf c) c) := by
  have old : ∀ d, d ∈ t.channel.erase c → d ∈ t.channel := fun d => List.mem_of_mem_erase
  obtain ⟨chains, files⟩ := h.files
  exact {
    files := files.del h.once h.length_le
    distinct := fun d inside e inside' => h.distinct d (old d inside) e (old e inside')
    once := h.once.erase c
    made := fun d inside => h.made d (old d inside) }

theorem ChannelsFiled.sub1FromChannel (h : ChannelsFiled t) (c : ChanId) :
    ChannelsFiled (t.sub1FromChannel c) := by
  unfold ChannelNames.sub1FromChannel
  simp only []
  split
  · have emptied : ChannelsFiled (t.setChan c { t.chan c with users := 0 }) := h.setChan rfl
    split
    · exact emptied
    · exact emptied.destroy c
  · exact h.setChan rfl

end ChannelNames

namespace NameTables

structure Filed (t : NameTables) : Prop where
  clients : ClientNames.ClientsKnown t.toClientNames
  channels : ChannelNames.ChannelsFiled t.toChannelNames

def NamesAnew (t : NameTables) : NameEvent → Prop
  | .server cptr sptr parv adm v => (t.serverGate cptr sptr parv adm v).2 = .become →
      t.hashFindClient (t.nameOf cptr) ≠ some cptr
  | _ => True

instance (t : NameTables) : (e : NameEvent) → Decidable (t.NamesAnew e)
  | .server cptr sptr parv adm v =>
    inferInstanceAs (Decidable ((t.serverGate cptr sptr parv adm v).2 = .become →
      t.hashFindClient (t.nameOf cptr) ≠ some cptr))
  | .accept | .pass .. | .connectServer _ | .completed _ | .nick .. | .user .. | .exit .. | .getChannel ..
  | .jupe _ | .addUser _ | .sub1 _ | .tick _ => isTrue trivial

theorem Filed.startUp {name : CStr} (named : name ≠ []) (now : Int) :
    Filed (NameTables.startUp name now) where
  clients := {
    files := by
      have none : (ChainTable.empty : ChainTable Nat ClientId).Files hashNickName
        (NameTables.startUp name now).nameOf [] fun _ => [] := Files.empty
      exact ⟨_, none.add (a := 0) List.not_mem_nil⟩
    distinct := fun u inside v inside' _ =>
      (List.mem_singleton.1 inside).trans (List.mem_singleton.1 inside').symm
    once := List.nodup_singleton 0
    listed := fun u inside => inside
    named := fun u inside => by
      rw [List.mem_singleton.1 inside]
      exact named
    roster := List.nodup_singleton 0
    made := fun u inside => by
      rw [List.mem_singleton.1 inside]
      exact Nat.zero_lt_one
    known := fun u inside _ => inside }
  channels := {
    files := ⟨fun _ => [], Files.empty⟩
    distinct := fun c inside => nomatch inside
    once := .nil
    made := fun c inside => nomatch inside }

theorem Filed.step {t : NameTables} {e : NameEvent} (h : Filed t) (anew : t.NamesAnew e) :
    Filed (t.step e) := by
  obtain ⟨clients, channels⟩ := h
  cases e with
  | accept => exact ⟨clients.makeClient, channels⟩
  | connectServer name =>
    simp only [NameTables.step]
    split
    · exact ⟨clients.connectServer name, channels⟩
    · exact ⟨clients, channels⟩
  | completed u =>
    simp only [NameTables.step]
    split
    · refine ⟨clients.write (fun _ => rfl) fun here holds => clients.known u here ?_, channels⟩
      -- a handshake holds the name it had as a connection
      exact .inl (holds.resolve_right fun ⟨_, _, handshake⟩ => handshake rfl)
    · exact ⟨clients, channels⟩
  | pass cptr sptr parv =>
    simp only [NameTables.step]
    split
    · exact ⟨clients.mPass, channels⟩
    · exact ⟨clients, channels⟩
  | nick cptr sptr parv v =>
    simp only [NameTables.step]
    split
    · next comes => exact ⟨clients.mNick comes.here comes.notMe, channels⟩
    · exact ⟨clients, channels⟩
  | user sptr username host outcome =>
    simp only [NameTables.step]
    split
    · exact ⟨clients.doUser, channels⟩
    · exact ⟨clients, channels⟩
  | server cptr sptr parv adm v =>
    simp only [NameTables.step]
    split
    · next comes => exact ⟨clients.mServer comes anew, channels⟩
    · exact ⟨clients, channels⟩
  | exit u behind => exact ⟨clients.exitClient u behind, channels⟩
  | getChannel cptr chname create => exact ⟨clients, channels.getChannel _ chname create⟩
  | jupe name => exact ⟨clients, channels.jupeChannel name⟩
  | addUser c =>
    simp only [NameTables.step]
    split
    · exact ⟨clients, channels.setChan rfl⟩
    · exact ⟨clients, channels⟩
  | sub1 c =>
    simp only [NameTables.step]
    split
    · exact ⟨clients, channels.sub1FromChannel c⟩
    · exact ⟨clients, channels⟩
  | tick now => exact ⟨{ clients with }, channels⟩

structure IsMap (t : NameTables) : Prop where
  findClient : ∀ n u, t.hashFindClient n = some u ↔
    u ∈ t.entered ∧ irccmp n (t.nameOf u) = .eq
  entered_live : ∀ u ∈ t.entered, u ∈ t.globalClientList ∧ t.nameOf u ≠ []
  live_entered : ∀ u ∈ t.globalClientList, (t.client u).HoldsName → u ∈ t.entered
  findChannel : ∀ n c, t.hashFindChannel n = some c ↔
    c ∈ t.channel ∧ irccmp n (t.chnameOf c) = .eq
  clientChains : ∀ k, ∃ chain, Chain.Linked t.clientTable.next (t.clientTable.list k) chain ∧
    chain.length ≤ t.nextClient
  channelChains : ∀ k, ∃ chain, Chain.Linked t.channelTable.next (t.channelTable.list k) chain ∧
    chain.length ≤ t.nextChan
  sameBucket : ∀ n m, irccmp n m = .eq →
    hashNickName n = hashNickName m ∧ hashChannelName n = hashChannelName m

variable {t : NameTables}

theorem Filed.isMap (h : Filed t) : t.IsMap where
  findClient := fun _ _ => h.clients.find_iff
  entered_live := fun u inside => ⟨h.clients.listed u inside, h.clients.named u inside⟩
  live_entered := h.clients.known
  findChannel := fun _ _ => h.channels.find_iff
  clientChains := fun k => by
    obtain ⟨chains, files⟩ := h.clients.files
    exact ⟨chains k, files.linked k, Nat.le_trans (files.length_le k) h.clients.length_le⟩
  channelChains := fun k => by
    obtain ⟨chains, files⟩ := h.channels.files
    exact ⟨chains k, files.linked k, Nat.le_trans (files.length_le k) h.channels.length_le⟩
  sameBucket := fun _ _ equal => ⟨hashNickName_congr equal, hashChannelName_congr equal⟩

/-- In each state of a run in which SERVER writes over no name that is in the table, the
tables are maps. -/
theorem isMap_of_namesAnew {name : CStr} (named : name ≠ []) {now : Int} {es pre : List NameEvent}
    (anew : nameMachine.Meets NamesAnew (NameTables.startUp name now) es) (inside : pre <+: es) :
    (nameMachine.run (NameTables.startUp name now) pre).IsMap :=
  Filed.isMap (anew.always (fun _ _ h ok => h.step ok) (.startUp named now) inside)

def nickOf (u : ClientId) (nick : CStr) : NameEvent :=
  .nick u u [[], nick] { quarantined := false, tooFast := false, outcome := .accepted, behind := [] }

def passOf (u : ClientId) : NameEvent := .pass u u [[], lit "pw", lit "TS"]

def serverOf (u : ClientId) (host : CStr) : NameEvent :=
  .server u u [[], host, lit "1", lit "b"]
    { nLine := true, autoconn := true, leaf := none, hub := none, checked := true
      nConf := some { passwd := [], user := lit "*", port := 0 }
      cConf := some { passwd := [], zipLink := false }
      passwd := [], isHub := true, capZip := false, zipInit := true }
    { behind := [], behindOther := [], lostNLine := false }

theorem isMap_linkedRun :
    (nameMachine.run (NameTables.startUp (lit "a.net") 1)
      [.accept, nickOf 1 (lit "ap"), .accept, passOf 2, serverOf 2 (lit "b.net"),
        nickOf 1 (lit "ba"), .getChannel 1 (lit "#x") true]).IsMap :=
  isMap_of_namesAnew (by decide) (by decide +kernel) List.prefix_rfl

/-- `ap` and `ba` share a bucket. The connection to the C-line `ba` takes that nick, which
leaves its timestamp alone, and once it is a server `ap` is lost. -/
theorem overwritten_not_isMap :
    ¬(nameMachine.run (NameTables.startUp (lit "a.net") 1)
      [.accept, nickOf 1 (lit "ap"), .connectServer (lit "ba"), .completed 2, nickOf 2 (lit "ba"),
        passOf 2, serverOf 2 (lit "b.net")]).IsMap := by
  intro h
  have lost := (h.findClient (lit "ap") 1).2 (by decide +kernel)
  revert lost
  decide +kernel

end NameTables

end Ircd
