import Ircd.Conf.Attach
import Ircd.Conf.IpHash
import Ircd.Lib.Machine

/-! The clients of this server and the count that is kept for the address of each.

A client is counted by `attach_iline`, before it is known whether it will be let in, and is
marked. It is counted off when it exits, if it has the mark. A client that is refused exits,
or is held unregistered and may try again.
-/

set_option autoImplicit false

namespace Ircd

structure IpClient where
  myConnect : Bool
  fd : Nat
  ip : IpAddr
  /-- `FLAGS_IPHASH` -/
  ipHash : Bool
  /-- No longer `STAT_UNKNOWN`. -/
  registered : Bool
  deriving DecidableEq, Repr

def IpClient.counts (cl : IpClient) (ip : IpAddr) : Bool :=
  cl.myConnect && cl.ipHash && cl.ip == ip

structure IpState where
  hash : IpHash
  clients : List ClientId
  client : ClientId → IpClient
  confs : ConfTables
  /-- `ConFreq` of the classes. -/
  conFreq : ClassId → Int

/-- What `verify_access` finds for a client: an I-line, or one of its refusals. -/
inductive Access where
  | refused (code : Int)
  | iline (aconf : ConfId)
  deriving DecidableEq, Repr

def Access.InForce (t : ConfTables) : Access → Prop
  | .refused _ => True
  | .iline aconf => (t.conf aconf).illegal = false

instance Access.decidableInForce (t : ConfTables) :
    (access : Access) → Decidable (access.InForce t)
  | .refused _ => isTrue trivial
  | .iline _ => inferInstanceAs (Decidable (_ = _))

namespace IpState

variable (max : Nat)

def setClient (s : IpState) (u : ClientId) (cl : IpClient) : IpState :=
  { s with client := Function.update s.client u cl }

def confConFreq (s : IpState) (aconf : ConfId) : Int :=
  ((s.confs.conf aconf).cClass.map s.conFreq).getD 0

/-- `attach_iline`; `none` where the server restarts for want of memory. -/
def attachIline (s : IpState) (cptr : ClientId) (aconf : ConfId) : Option (IpState × Int) :=
  (s.hash.findOrAddIp max (s.client cptr).ip).map fun (hash, ipFound) =>
    let s := { s with hash := hash }
    let s := s.setClient cptr { s.client cptr with ipHash := true }
    let count : Nat := (s.hash.entry ipFound).count + 1
    let s := { s with hash := s.hash.setCount ipFound count }
    if s.confConFreq aconf ≠ 0 ∧ (count : Int) > s.confConFreq aconf ∧
        !(s.confs.conf aconf).fLined then
      (s, -4)
    else
      let (confs, code) := s.confs.attachConf cptr aconf
      ({ s with confs := confs }, code)

def checkClient (s : IpState) (cptr : ClientId) : Access → Option (IpState × Int)
  | .refused code => some (s, code)
  | .iline aconf => s.attachIline max cptr aconf

/-- `exit_client`, with the end of `close_connection`. -/
def exitClient (s : IpState) (sptr : ClientId) : IpState :=
  let s :=
    if (s.client sptr).myConnect then
      let s :=
        if (s.client sptr).ipHash then
          { s with hash := s.hash.removeOneIp max (s.client sptr).ip }
        else s
      { s with confs := s.confs.detConfs sptr }
    else s
  { s with clients := s.clients.erase sptr }

/-- `register_user` for a client of this server. `held` says that the server was built to hold
those that it refuses and has room for one more, `passes` that the client gets through the
checks that come after its I-line. -/
def registerUser (s : IpState) (sptr : ClientId) (access : Access) (held passes : Bool) :
    Option IpState :=
  (s.checkClient max sptr access).map fun (s, code) =>
    if code = -2 ∨ code = -3 ∨ code = -4 then s.exitClient max sptr
    else if code = -1 ∨ code = -5 then
      if held then s else s.exitClient max sptr
    else if passes then s.setClient sptr { s.client sptr with registered := true }
    else s.exitClient max sptr

def marked (s : IpState) (ip : IpAddr) : Nat :=
  s.clients.countP fun u => (s.client u).counts ip

end IpState

inductive IpEvent where
  /-- `add_connection`. -/
  | accept (u : ClientId) (fd : Nat) (ip : IpAddr)
  /-- `connect_server`. -/
  | connectServer (u : ClientId) (fd : Nat) (ip : IpAddr)
  /-- A client of another server. -/
  | introduce (u : ClientId) (ip : IpAddr)
  /-- A connection turns out to be a server. -/
  | establish (u : ClientId)
  | register (u : ClientId) (access : Access) (held passes : Bool)
  | exit (u : ClientId)
  /-- The configuration is another. -/
  | configure (confs : ConfTables) (conFreq : ClassId → Int)

namespace IpState

variable (max : Nat)

def makeClient (s : IpState) (u : ClientId) (cl : IpClient) : IpState :=
  { s.setClient u cl with clients := u :: s.clients }

def event (s : IpState) : IpEvent → Option IpState
  | .accept u fd ip =>
    if (max : Int) - 10 < fd then some s
    else some (s.makeClient u
      { myConnect := true, fd := fd, ip := ip, ipHash := false, registered := false })
  | .connectServer u fd ip =>
    if (fd : Int) ≥ max - 10 then some s
    else some (s.makeClient u
      { myConnect := true, fd := fd, ip := ip, ipHash := false, registered := true })
  | .introduce u ip =>
    some (s.makeClient u
      { myConnect := false, fd := 0, ip := ip, ipHash := false, registered := true })
  | .establish u => some (s.setClient u { s.client u with registered := true })
  | .register u access held passes => s.registerUser max u access held passes
  | .exit u => some (s.exitClient max u)
  | .configure confs conFreq => some { s with confs := confs, conFreq := conFreq }

def machine : Machine (Option IpState) IpEvent where
  step s e := s.bind fun s => s.event max e

def startUp (garbage : Nat → Option Nat) (entry : Nat → IpEntry) (client : ClientId → IpClient)
    (confs : ConfTables) (conFreq : ClassId → Int) : IpState where
  hash := IpHash.clearIpHashTable max garbage entry
  clients := []
  client := client
  confs := confs
  conFreq := conFreq

end IpState

/-- What the callers see to: a new client has an address of its own in memory and a descriptor
that is not in use; it is a client of this server without a registration that registers; and where
refused clients are held, the I-lines that are searched are in force. -/
def IpEvent.Comes (s : IpState) : IpEvent → Prop
  | .accept u fd _ => u ∉ s.clients ∧ ∀ v ∈ s.clients, (s.client v).myConnect = true →
      (s.client v).fd ≠ fd
  | .connectServer u fd _ => u ∉ s.clients ∧ ∀ v ∈ s.clients, (s.client v).myConnect = true →
      (s.client v).fd ≠ fd
  | .introduce u _ => u ∉ s.clients
  | .register u access held _ => u ∈ s.clients ∧ (s.client u).myConnect = true ∧
      (s.client u).registered = false ∧
      (held = true → access.InForce s.confs)
  | .establish u => u ∈ s.clients
  | .exit u => u ∈ s.clients
  | .configure _ _ => True

instance IpEvent.decidableComes (s : IpState) : (e : IpEvent) → Decidable (e.Comes s)
  | .accept _ _ _ => inferInstanceAs (Decidable (_ ∧ _))
  | .connectServer _ _ _ => inferInstanceAs (Decidable (_ ∧ _))
  | .introduce _ _ => inferInstanceAs (Decidable (_ ∉ _))
  | .establish _ => inferInstanceAs (Decidable (_ ∈ _))
  | .register _ _ _ _ => inferInstanceAs (Decidable (_ ∧ _))
  | .exit _ => inferInstanceAs (Decidable (_ ∈ _))
  | .configure _ _ => isTrue trivial

namespace IpState

variable {max : Nat} {s : IpState} {u : ClientId} {ip : IpAddr}

theorem marked_split (inside : u ∈ s.clients) (ip : IpAddr) :
    s.marked ip = ((s.clients.erase u).countP fun v => (s.client v).counts ip) +
      if (s.client u).counts ip then 1 else 0 := by
  unfold marked
  rw [(List.perm_cons_erase inside).countP_eq, List.countP_cons]

theorem erase_setClient (nodup : s.clients.Nodup) (cl : IpClient) (ip : IpAddr) :
    ((s.clients.erase u).countP fun v => ((s.setClient u cl).client v).counts ip) =
      (s.clients.erase u).countP fun v => (s.client v).counts ip := by
  apply List.countP_congr
  intro v inside
  have other : v ≠ u := (nodup.mem_erase_iff.1 inside).1
  simp [setClient, other]

theorem marked_setClient (nodup : s.clients.Nodup) (inside : u ∈ s.clients) (cl : IpClient)
    (ip : IpAddr) :
    (s.setClient u cl).marked ip + (if (s.client u).counts ip then 1 else 0) =
      s.marked ip + if cl.counts ip then 1 else 0 := by
  have now := @marked_split (s.setClient u cl) u inside ip
  have was := @marked_split s u inside ip
  have rest := erase_setClient nodup (u := u) cl ip
  have self : ((s.setClient u cl).client u) = cl := by simp [setClient]
  rw [self] at now
  show ((s.setClient u cl).marked ip) + _ = _
  rw [now, was]
  show (s.clients.erase u).countP _ + _ + _ = _
  rw [rest]
  omega

theorem marked_makeClient (fresh : u ∉ s.clients) {cl : IpClient} (plain : cl.ipHash = false) :
    (s.makeClient u cl).marked = s.marked := by
  funext ip
  unfold marked makeClient
  rw [List.countP_cons]
  have none : ((s.setClient u cl).client u).counts ip = false := by
    simp [setClient, IpClient.counts, plain]
  have rest : s.clients.countP (fun v => ((s.setClient u cl).client v).counts ip) =
      s.clients.countP fun v => (s.client v).counts ip := by
    apply List.countP_congr
    intro v inside
    have other : v ≠ u := by
      rintro rfl
      exact fresh inside
    simp [setClient, other]
  show s.clients.countP _ + (if _ then 1 else 0) = _
  rw [rest]
  simp only [none, Bool.false_eq_true, if_false, Nat.add_zero]

theorem marked_mark (nodup : s.clients.Nodup) (inside : u ∈ s.clients)
    (mine : (s.client u).myConnect = true) (plain : (s.client u).ipHash = false) :
    (s.setClient u { s.client u with ipHash := true }).marked =
      Function.update s.marked (s.client u).ip (s.marked (s.client u).ip + 1) := by
  funext ip
  have change := marked_setClient nodup inside { s.client u with ipHash := true } ip
  have before : (s.client u).counts ip = false := by simp [IpClient.counts, plain]
  have after : IpClient.counts { s.client u with ipHash := true } ip = ((s.client u).ip == ip) := by
    simp [IpClient.counts, mine]
  rw [before, after] at change
  by_cases same : ip = (s.client u).ip
  · subst same
    simpa using change
  · have other : ((s.client u).ip == ip) = false := by simpa using Ne.symm same
    rw [Function.update_of_ne same]
    simpa [other] using change

structure Counted (max : Nat) (s : IpState) : Prop where
  holds : ∃ entries chains cells, s.hash.Holds max s.marked entries chains cells
  nodup : s.clients.Nodup
  fd_lt : ∀ u ∈ s.clients, (s.client u).myConnect = true → (s.client u).fd < max
  fd_inj : ∀ u ∈ s.clients, ∀ v ∈ s.clients, (s.client u).myConnect = true →
    (s.client v).myConnect = true → (s.client u).fd = (s.client v).fd → u = v

/-- A client without a registration, `u` apart, is not counted. -/
def Fresh (s : IpState) (u : Option ClientId) : Prop :=
  ∀ v ∈ s.clients, some v ≠ u → (s.client v).myConnect = true →
    (s.client v).registered = false → (s.client v).ipHash = false

theorem exists_of_marked (some_ : s.marked ip ≠ 0) :
    ∃ v ∈ s.clients, (s.client v).myConnect = true ∧ (s.client v).ipHash = true ∧
      (s.client v).ip = ip := by
  obtain ⟨v, inside, counts⟩ := List.countP_pos_iff.1 (Nat.pos_of_ne_zero some_)
  simp only [IpClient.counts, Bool.and_eq_true, beq_iff_eq] at counts
  exact ⟨v, inside, counts.1.1, counts.1.2, counts.2⟩

theorem Counted.room (h : Counted max s) (inside : u ∈ s.clients)
    (mine : (s.client u).myConnect = true) (plain : (s.client u).ipHash = false)
    {entries : List Nat} {chains : Nat → List Nat} {cells : List Nat}
    (holds : s.hash.Holds max s.marked entries chains cells) : cells ≠ [] := by
  rintro rfl
  have full : entries.length = max := by
    have sum := holds.pooled.perm.length_eq
    rwa [List.append_nil, List.length_range] at sum
  have owner : ∀ ptr : {ptr // ptr ∈ entries}, ∃ v ∈ s.clients, (s.client v).myConnect = true ∧
      (s.client v).ipHash = true ∧ (s.client v).ip = (s.hash.entry ptr.1).ip :=
    fun ptr => exists_of_marked (holds.positive ptr.1 ptr.2)
  -- each entry of a full table is owed by a marked client of ours
  choose f there mineOf marked ipOf using owner
  have once : (u :: entries.attach.map f).Nodup := by
    rw [List.nodup_cons]
    constructor
    · intro also
      obtain ⟨ptr, -, same⟩ := List.mem_map.1 also
      have mark := marked ptr
      rw [same, plain] at mark
      cases mark
    · apply List.Nodup.map_on ?_ (List.nodup_attach.2 holds.pooled.entries_nodup)
      intro ptr _ ptr' _ same
      have ips : (s.hash.entry ptr.1).ip = (s.hash.entry ptr'.1).ip := by
        rw [← ipOf ptr, ← ipOf ptr', same]
      exact Subtype.ext (holds.distinct ptr.1 ptr.2 ptr'.1 ptr'.2 (beq_iff_eq.2 ips))
  have here : ∀ v ∈ u :: entries.attach.map f, v ∈ s.clients ∧ (s.client v).myConnect = true := by
    intro v also
    rcases List.mem_cons.1 also with rfl | also
    · exact ⟨inside, mine⟩
    · obtain ⟨ptr, -, rfl⟩ := List.mem_map.1 also
      exact ⟨there ptr, mineOf ptr⟩
  -- with `u` that is one client more than there are descriptors
  have fds : ((u :: entries.attach.map f).map fun v => (s.client v).fd).Nodup := by
    apply List.Nodup.map_on ?_ once
    intro v also v' also' same
    exact h.fd_inj v (here v also).1 v' (here v' also').1 (here v also).2 (here v' also').2 same
  have below : ∀ fd ∈ (u :: entries.attach.map f).map fun v => (s.client v).fd, fd < max := by
    intro fd also
    obtain ⟨v, chosen, rfl⟩ := List.mem_map.1 also
    exact h.fd_lt v (here v chosen).1 (here v chosen).2
  have short := ChainTable.length_le_of_lt fds below
  simp [full] at short

/-- A change of a client that leaves its connection and its count as they are. -/
theorem Counted.setClient (h : Counted max s) (inside : u ∈ s.clients) {cl : IpClient}
    (mine : cl.myConnect = (s.client u).myConnect) (fd : cl.fd = (s.client u).fd)
    {hash : IpHash}
    (holds : ∃ entries chains cells,
      hash.Holds max (s.setClient u cl).marked entries chains cells) :
    Counted max { s.setClient u cl with hash := hash } := by
  have client : ∀ v, ((s.setClient u cl).client v).myConnect = (s.client v).myConnect ∧
      ((s.setClient u cl).client v).fd = (s.client v).fd := by
    intro v
    by_cases same : v = u
    · subst same
      simp [IpState.setClient, mine, fd]
    · simp [IpState.setClient, same]
  constructor
  · exact holds
  · exact h.nodup
  · intro v also mineOf
    show ((s.setClient u cl).client v).fd < max
    rw [(client v).2]
    exact h.fd_lt v also ((client v).1 ▸ mineOf)
  · intro v also v' also' mineOf mineOf' same
    have same : ((s.setClient u cl).client v).fd = ((s.setClient u cl).client v').fd := same
    rw [(client v).2, (client v').2] at same
    exact h.fd_inj v also v' also' ((client v).1 ▸ mineOf) ((client v').1 ▸ mineOf') same

/-- What `attach_iline` does: the client is counted and marked, and the rest is up to the
entries. -/
theorem attachIline_eq (h : Counted max s) (inside : u ∈ s.clients)
    (mine : (s.client u).myConnect = true) (plain : (s.client u).ipHash = false)
    (aconf : ConfId) :
    ∃ s' code, s.attachIline max u aconf = some (s', code) ∧ Counted max s' ∧
      s'.clients = s.clients ∧
      s'.client = Function.update s.client u { s.client u with ipHash := true } ∧
      code ≠ -5 ∧ ((s.confs.conf aconf).illegal = false → code ≠ -1) := by
  obtain ⟨entries, chains, cells, holds⟩ := h.holds
  obtain ⟨t, ptr, found, count, entries', chains', cells', holds'⟩ :=
    holds.added (Or.inr (h.room inside mine plain holds))
  rw [← marked_mark h.nodup inside mine plain] at holds'
  have counted : Counted max
      { s.setClient u { s.client u with ipHash := true } with
        hash := t.setCount ptr ((t.entry ptr).count + 1) } := by
    rw [count]
    exact @Counted.setClient max s u h inside { s.client u with ipHash := true } rfl rfl _
      ⟨entries', chains', cells', holds'⟩
  have legal : (s.confs.conf aconf).illegal = false → (s.confs.attachConf u aconf).2 ≠ -1 := by
    intro legal
    unfold ConfTables.attachConf
    simp only [legal, Bool.false_eq_true, if_false]
    split_ifs <;> simp
  have banned : (s.confs.attachConf u aconf).2 ≠ -5 := by
    unfold ConfTables.attachConf
    split_ifs <;> simp
  unfold attachIline
  rw [found]
  simp only [Option.map_some, Option.some.injEq]
  split
  · exact ⟨_, _, rfl, counted, rfl, rfl, by decide, fun _ => by decide⟩
  · exact ⟨_, _, rfl, ⟨counted.holds, counted.nodup, counted.fd_lt, counted.fd_inj⟩, rfl, rfl,
      banned, legal⟩

theorem Counted.exitClient (h : Counted max s) (inside : u ∈ s.clients) :
    Counted max (s.exitClient max u) := by
  have client : (s.exitClient max u).client = s.client := by
    unfold IpState.exitClient
    dsimp only
    split
    · split <;> rfl
    · rfl
  have clients : (s.exitClient max u).clients = s.clients.erase u := by
    unfold IpState.exitClient
    dsimp only
    split
    · split <;> rfl
    · rfl
  have still : ∀ v ∈ (s.exitClient max u).clients, v ∈ s.clients := by
    rw [clients]
    exact fun v also => List.mem_of_mem_erase also
  constructor
  · obtain ⟨entries, chains, cells, holds⟩ := h.holds
    -- the client that goes is the one that the count loses, if it was counted at all
    have left : ∀ x, s.marked x = (s.exitClient max u).marked x +
        if (s.client u).counts x then 1 else 0 := by
      intro x
      rw [marked_split inside]
      unfold marked
      rw [client, clients]
    by_cases counted : (s.client u).myConnect = true ∧ (s.client u).ipHash = true
    · have hash : (s.exitClient max u).hash = s.hash.removeOneIp max (s.client u).ip := by
        simp [IpState.exitClient, counted]
      have marked : (s.exitClient max u).marked =
          Function.update s.marked (s.client u).ip (s.marked (s.client u).ip - 1) := by
        funext x
        have change := left x
        by_cases same : x = (s.client u).ip
        · subst same
          rw [Function.update_self, change]
          simp [IpClient.counts, counted]
        · rw [Function.update_of_ne same, change]
          simp [IpClient.counts, Ne.symm same]
      have owes : s.marked (s.client u).ip ≠ 0 := by
        rw [left]
        simp [IpClient.counts, counted]
      rw [hash, marked]
      exact holds.removed owes
    · have hash : (s.exitClient max u).hash = s.hash := by
        unfold IpState.exitClient
        dsimp only
        split
        · next mine =>
          have plain : (s.client u).ipHash = false := by
            simpa using fun mark => counted ⟨mine, mark⟩
          simp [plain]
        · rfl
      have marked : (s.exitClient max u).marked = s.marked := by
        funext x
        have none : (s.client u).counts x = false := by
          unfold IpClient.counts
          cases mine : (s.client u).myConnect with
          | false => rfl
          | true =>
            have plain : (s.client u).ipHash = false := by
              simpa using fun mark => counted ⟨mine, mark⟩
            simp [plain]
        rw [left x, none]
        simp
      rw [hash, marked]
      exact ⟨entries, chains, cells, holds⟩
  · rw [clients]
    exact h.nodup.erase u
  · rw [client]
    exact fun v also => h.fd_lt v (still v also)
  · rw [client]
    exact fun v also v' also' => h.fd_inj v (still v also) v' (still v' also')

structure Sound (max : Nat) (s : IpState) : Prop where
  counted : Counted max s
  fresh : s.Fresh none

theorem exitClient_clients : (s.exitClient max u).clients = s.clients.erase u ∧
    (s.exitClient max u).client = s.client := by
  unfold exitClient
  dsimp only
  split
  · split
    · exact ⟨rfl, rfl⟩
    · exact ⟨rfl, rfl⟩
  · exact ⟨rfl, rfl⟩

theorem Counted.sound_exit (h : Counted max s) (fresh : s.Fresh (some u))
    (inside : u ∈ s.clients) : Sound max (s.exitClient max u) where
  counted := h.exitClient inside
  fresh := by
    obtain ⟨clients, client⟩ := @exitClient_clients max s u
    intro v also _
    rw [client]
    rw [clients] at also
    obtain ⟨other, also⟩ := h.nodup.mem_erase_iff.1 also
    exact fresh v also fun same => other (Option.some.inj same)

theorem Fresh.weaken (fresh : s.Fresh none) : s.Fresh (some u) := fun v also _ =>
  fresh v also fun absurdity => by cases absurdity

theorem Counted.sound_register (h : Counted max s) (fresh : s.Fresh (some u))
    (inside : u ∈ s.clients) :
    Sound max (s.setClient u { s.client u with registered := true }) where
  counted := by
    obtain ⟨entries, chains, cells, holds⟩ := h.holds
    have marked : (s.setClient u { s.client u with registered := true }).marked = s.marked := by
      funext ip
      exact Nat.add_right_cancel
        (marked_setClient h.nodup inside { s.client u with registered := true } ip)
    exact @Counted.setClient max s u h inside { s.client u with registered := true } rfl rfl _
      ⟨entries, chains, cells, marked ▸ holds⟩
  fresh := by
    intro v also _
    by_cases same : v = u
    · subst same
      intro _ waits
      simp [IpState.setClient] at waits
    · have other : some v ≠ some u := fun equal => same (Option.some.inj equal)
      simpa [IpState.setClient, same] using fresh v also other

theorem Sound.makeClient (h : Sound max s) {cl : IpClient} (new : u ∉ s.clients)
    (plain : cl.ipHash = false) (fits : cl.myConnect = true → cl.fd < max ∧
      ∀ v ∈ s.clients, (s.client v).myConnect = true → (s.client v).fd ≠ cl.fd) :
    Sound max (s.makeClient u cl) := by
  have self : (s.makeClient u cl).client u = cl := by simp [IpState.makeClient, setClient]
  have others : ∀ v ∈ s.clients, (s.makeClient u cl).client v = s.client v := by
    intro v inside
    have other : v ≠ u := by
      rintro rfl
      exact new inside
    simp [IpState.makeClient, setClient, other]
  have cases_ : ∀ v ∈ (s.makeClient u cl).clients, v = u ∨ v ∈ s.clients :=
    fun v => List.mem_cons.1
  refine ⟨⟨?_, ?_, ?_, ?_⟩, ?_⟩
  · rw [marked_makeClient new plain]
    exact h.counted.holds
  · exact List.nodup_cons.2 ⟨new, h.counted.nodup⟩
  · intro v also mine
    rcases cases_ v also with rfl | inside
    · rw [self] at mine ⊢
      exact (fits mine).1
    · rw [others v inside] at mine ⊢
      exact h.counted.fd_lt v inside mine
  · intro v also v' also' mine mine' same
    -- a descriptor in use is not given out again
    rcases cases_ v also with rfl | inside
    · rcases cases_ v' also' with rfl | inside'
      · rfl
      · rw [self] at mine same
        rw [others v' inside'] at mine' same
        exact absurd same.symm ((fits mine).2 v' inside' mine')
    · rcases cases_ v' also' with rfl | inside'
      · rw [self] at mine' same
        rw [others v inside] at mine same
        exact absurd same ((fits mine').2 v inside mine)
      · rw [others v inside] at mine same
        rw [others v' inside'] at mine' same
        exact h.counted.fd_inj v inside v' inside' mine mine' same
  · intro v also _
    rcases cases_ v also with rfl | inside
    · rw [self]
      exact fun _ _ => plain
    · rw [others v inside]
      exact h.fresh v inside fun absurdity => by cases absurdity

/-- A client of this server asks to be registered: it is let in, held without having been
counted, or exits. -/
theorem Sound.registerUser (h : Sound max s) {access : Access} {held passes : Bool}
    (comes : (IpEvent.register u access held passes).Comes s) :
    ∃ s', s.registerUser max u access held passes = some s' ∧ Sound max s' := by
  obtain ⟨inside, mine, waits, legal⟩ := comes
  have plain := h.fresh u inside (fun absurdity => by cases absurdity) mine waits
  unfold IpState.registerUser checkClient
  cases access with
  | refused code =>
    refine ⟨_, rfl, ?_⟩
    dsimp only
    have gone := h.counted.sound_exit h.fresh.weaken inside
    split_ifs
    · exact gone
    · exact h
    · exact gone
    · exact h.counted.sound_register h.fresh.weaken inside
    · exact gone
  | iline aconf =>
    obtain ⟨s', code, attached, counted, clients, client, banned, found⟩ :=
      attachIline_eq h.counted inside mine plain aconf
    have fresh : s'.Fresh (some u) := by
      intro v also other
      have apart : v ≠ u := fun same => other (congrArg some same)
      rw [clients] at also
      rw [client, Function.update_of_ne apart]
      exact h.fresh v also fun absurdity => by cases absurdity
    have inside' : u ∈ s'.clients := by rwa [clients]
    have gone := counted.sound_exit fresh inside'
    dsimp only
    rw [attached]
    refine ⟨_, rfl, ?_⟩
    dsimp only
    split_ifs with full refused held
    · exact gone
    · rcases refused with refused | refused
      · exact absurd refused (found (legal held))
      · exact absurd refused banned
    · exact gone
    · exact counted.sound_register fresh inside'
    · exact gone

theorem Sound.event (h : Sound max s) {e : IpEvent} (comes : e.Comes s) :
    ∃ s', s.event max e = some s' ∧ Sound max s' := by
  cases e with
  | accept u fd ip =>
    by_cases full : (max : Int) - 10 < fd
    · exact ⟨s, if_pos full, h⟩
    · have below : fd < max := by omega
      exact ⟨_, if_neg full, h.makeClient comes.1 rfl fun _ => ⟨below, comes.2⟩⟩
  | connectServer u fd ip =>
    by_cases full : (fd : Int) ≥ max - 10
    · exact ⟨s, if_pos full, h⟩
    · have below : fd < max := by omega
      exact ⟨_, if_neg full, h.makeClient comes.1 rfl fun _ => ⟨below, comes.2⟩⟩
  | introduce u ip =>
    exact ⟨_, rfl, h.makeClient comes rfl fun absurdity => by cases absurdity⟩
  | establish u => exact ⟨_, rfl, h.counted.sound_register h.fresh.weaken comes⟩
  | register u access held passes => exact h.registerUser comes
  | exit u => exact ⟨_, rfl, h.counted.sound_exit h.fresh.weaken comes⟩
  | configure confs conFreq =>
    exact ⟨_, rfl, ⟨h.counted.holds, h.counted.nodup, h.counted.fd_lt, h.counted.fd_inj⟩, h.fresh⟩

theorem sound_startUp (two : 2 ≤ max) (garbage : Nat → Option Nat) (entry : Nat → IpEntry)
    (client : ClientId → IpClient) (confs : ConfTables) (conFreq : ClassId → Int) :
    Sound max (startUp max garbage entry client confs conFreq) where
  counted :=
    { holds := ⟨_, _, _, IpHash.holds_clear two garbage entry⟩
      nodup := List.nodup_nil
      fd_lt := fun _ absurdity => by cases absurdity
      fd_inj := fun _ absurdity => by cases absurdity }
  fresh := fun _ absurdity => by cases absurdity

/-- Over any run the count kept for an address is the number of the clients of this server that
have it and are marked, no entry of the table counts nothing, the table and the free list make
up the pool, and the server never runs out of entries. -/
theorem counts_of_run (two : 2 ≤ max) {garbage : Nat → Option Nat} {entry : Nat → IpEntry}
    {client : ClientId → IpClient} {confs : ConfTables} {conFreq : ClassId → Int}
    {es : List IpEvent}
    (comes : (machine max).Meets (fun s e => ∀ t ∈ s, e.Comes t)
      (some (startUp max garbage entry client confs conFreq)) es) :
    ∃ s, (machine max).run (some (startUp max garbage entry client confs conFreq)) es = some s ∧
      s.hash.Counts max s.marked := by
  have sound := comes.keeps (I := fun s => ∃ t, s = some t ∧ Sound max t) (by
    rintro _ e ⟨t, rfl, sound⟩ comes
    obtain ⟨t', next, sound'⟩ := sound.event (comes t rfl)
    exact ⟨t', next, sound'⟩)
    ⟨_, rfl, sound_startUp two garbage entry client confs conFreq⟩
  obtain ⟨s, reached, sound⟩ := sound
  obtain ⟨entries, chains, cells, holds⟩ := sound.counted.holds
  exact ⟨s, reached, holds.counts⟩

/-! Two connections from one address, of which the class of the I-line allows one. -/

def oneEach : ConfTables where
  conf := fun _ =>
    { kind := .client, illegal := false, fLined := false, clients := 0, name := none, host := none
      user := lit "*", passwd := [], privs := fun _ => false, hold := none, cClass := some 0 }
  cls := fun _ => { type := 0, maxLinks := 100, links := 0 }
  configItemList := []
  attached := fun _ => []
  grants := fun _ => { eLined := false, fLined := false, exemptGline := false }
  freedConfs := []
  freedClasses := []

def idleClient : IpClient :=
  { myConnect := false, fd := 0, ip := 0, ipHash := false, registered := false }

def pairStart : IpState :=
  startUp 246 (fun _ => none) (fun _ => { ip := 0, count := 0 }) (fun _ => idleClient) oneEach
    fun _ => 1

def pairRun : List IpEvent :=
  [.accept 1 5 0x0100007f, .accept 2 6 0x0100007f, .register 1 (.iline 0) false true,
    .register 2 (.iline 0) false true]

theorem pairRun_counts : ∃ s, (machine 246).run (some pairStart) pairRun = some s ∧
    s.hash.Counts 246 s.marked :=
  counts_of_run (by decide) (by decide +kernel)

example : ((machine 246).run (some pairStart) pairRun).map
    (fun s => (s.hash.countOf 246 0x0100007f, s.clients)) = some (1, [1]) := by decide +kernel

end IpState

end Ircd
