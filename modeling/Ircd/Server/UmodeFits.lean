import Ircd.Server.RoleRuns
import Ircd.Server.UmodeRelay

/-! The letters that `send_umode` writes into the `ubuf` of `sendnick_TS` and
`register_user`.

`SEND_UMODES` holds back letters of this server's own users only. Of a remote user every
mode is written, and a MODE that another server relays may set all of them.
-/

set_option autoImplicit false

namespace Ircd

def Umodes.size (m : Umodes) : Nat := userModes.countP fun entry => m entry.1

/-- The modes that `send_umode` writes where `old` is zero. -/
def sentModes (mine : Bool) (m sendmask : Umodes) : Umodes := fun f => (!mine || sendmask f) && m f

variable {mine : Bool} {m sendmask : Umodes}

theorem umodeDiff_sent {flag : Umode} (letter : Char) (entries : List (Umode × Char))
    (what : Option Bool) (sent : sentModes mine m sendmask flag = true) :
    umodeDiff mine .none m sendmask ((flag, letter) :: entries) what =
      (if what = some true then [letter] else ['+', letter]) ++
        umodeDiff mine .none m sendmask entries (some true) := by
  have set : m flag = true := (Bool.and_eq_true_iff.1 sent).2
  have shown : (mine && !sendmask flag) = false := by
    have either := (Bool.and_eq_true_iff.1 sent).1
    cases mine <;> simp_all
  rw [umodeDiff, if_neg (by simp [shown]), if_neg (by simp [Umodes.none]),
    if_pos (by simp [Umodes.none, set])]

theorem umodeDiff_unsent {flag : Umode} (letter : Char) (entries : List (Umode × Char))
    (what : Option Bool) (unsent : ¬sentModes mine m sendmask flag = true) :
    umodeDiff mine .none m sendmask ((flag, letter) :: entries) what =
      umodeDiff mine .none m sendmask entries what := by
  rw [umodeDiff]
  by_cases hidden : (mine && !sendmask flag) = true
  · rw [if_pos hidden]
  · have unset : m flag = false := by
      cases mine <;> simp_all [sentModes]
    rw [if_neg hidden, if_neg (by simp [Umodes.none]), if_neg (by simp [unset])]

theorem umodeDiff_length (entries : List (Umode × Char)) :
    (umodeDiff mine .none m sendmask entries (some true)).length =
      entries.countP fun entry => sentModes mine m sendmask entry.1 := by
  induction entries with
  | nil => rfl
  | cons entry entries ih =>
    obtain ⟨flag, letter⟩ := entry
    by_cases sent : sentModes mine m sendmask flag = true
    · rw [umodeDiff_sent letter entries _ sent, if_pos rfl, List.length_append, ih]
      simp [sent, Nat.add_comm]
    · rw [umodeDiff_unsent letter entries _ sent, ih]
      simp [sent]

theorem umodeDiff_signed (entries : List (Umode × Char)) :
    (umodeDiff mine .none m sendmask entries none).length =
      if (entries.countP fun entry => sentModes mine m sendmask entry.1) = 0 then 0
      else (entries.countP fun entry => sentModes mine m sendmask entry.1) + 1 := by
  induction entries with
  | nil => rfl
  | cons entry entries ih =>
    obtain ⟨flag, letter⟩ := entry
    by_cases sent : sentModes mine m sendmask flag = true
    · rw [umodeDiff_sent letter entries _ sent, if_neg nofun, List.length_append,
        umodeDiff_length]
      simp only [List.countP_cons, sent, if_true, Nat.succ_ne_zero, if_false, List.length_cons,
        List.length_nil]
      omega
    · have count : (((flag, letter) :: entries).countP fun entry =>
          sentModes mine m sendmask entry.1) =
            entries.countP fun entry => sentModes mine m sendmask entry.1 :=
        List.countP_cons_of_neg sent
      rw [umodeDiff_unsent letter entries _ sent, ih, count]

theorem umodeBuf_length : (umodeBuf mine .none m sendmask).length =
    if (sentModes mine m sendmask).size = 0 then 0 else (sentModes mine m sendmask).size + 1 :=
  umodeDiff_signed userModes

def ubufSize : Nat := 12

theorem umodeBuf_fits : (umodeBuf mine .none m sendmask).length + 1 ≤ ubufSize ↔
    (sentModes mine m sendmask).size ≤ 10 := by
  rw [umodeBuf_length, ubufSize]
  split
  · omega
  · omega

theorem Umodes.size_le {m m' : Umodes} (less : ∀ f, m f = true → m' f = true) :
    m.size ≤ m'.size := by
  apply List.countP_mono_left
  intro entry _
  exact less entry.1

theorem size_le_three {m : Umodes} (told : ∀ f, m f = true → sendUmodes f = true) :
    m.size ≤ 3 := Umodes.size_le told

theorem sentModes_mine (m : Umodes) : (sentModes true m sendUmodes).size ≤ 3 := by
  apply size_le_three
  intro f sent
  simpa using (Bool.and_eq_true_iff.1 sent).1

theorem sentModes_remote (m sendmask : Umodes) : sentModes false m sendmask = m := by
  funext f
  simp [sentModes]

namespace Roles

variable {r r' r'' : Roles} {u cptr : ClientId}

/-- What `send_umode` writes with `old` zero and `SEND_UMODES`. -/
def sendUmode (cl : RoleClient) : CStr :=
  umodeBuf (cl.localFlag && cl.isClient) .none cl.umodes sendUmodes

/-- The client as `register_user` has it where it calls `send_umode`. -/
def registered (cl : RoleClient) : RoleClient :=
  { cl with
    status := .client
    umodes := if cl.localFlag then cl.umodes.write .invisible true else cl.umodes }

structure UmodesFit (r : Roles) : Prop where
  burst : ∀ u ∈ r.globalClientList, (r.client u).isPerson = true →
    (sendUmode (r.client u)).length + 1 ≤ ubufSize
  register : ∀ u ∈ r.globalClientList,
    (sendUmode (registered (r.client u))).length + 1 ≤ ubufSize

def Modest (r : Roles) : Prop :=
  ∀ u ∈ r.globalClientList, (r.client u).localFlag = false → (r.client u).umodes.size ≤ 10

theorem sendUmode_fits {cl : RoleClient} (isClient : cl.isClient = true) :
    (sendUmode cl).length + 1 ≤ ubufSize ↔ cl.localFlag = true ∨ cl.umodes.size ≤ 10 := by
  rw [sendUmode, umodeBuf_fits, isClient, Bool.and_true]
  cases cl.localFlag with
  | true =>
    have short := sentModes_mine cl.umodes
    exact ⟨fun _ => .inl rfl, fun _ => by omega⟩
  | false =>
    rw [sentModes_remote]
    simp

theorem Modest.fits (h : Modest r) : UmodesFit r := by
  constructor
  · intro u here person
    have isClient : (r.client u).isClient = true := (Bool.and_eq_true_iff.1 person).1
    rw [sendUmode_fits isClient]
    cases isLocal : (r.client u).localFlag with
    | true => exact .inl rfl
    | false => exact .inr (h u here isLocal)
  · intro u here
    rw [sendUmode_fits rfl]
    cases isLocal : (r.client u).localFlag with
    | true => exact .inl isLocal
    | false =>
      have kept : (registered (r.client u)).umodes = (r.client u).umodes := by
        simp [registered, isLocal]
      rw [kept]
      exact .inr (h u here isLocal)

structure KeepsRemote (r r' : Roles) : Prop where
  list : ∀ v ∈ r'.globalClientList, v ∈ r.globalClientList
  localFlag : ∀ v, (r'.client v).localFlag = (r.client v).localFlag
  umodes : ∀ v, (r.client v).localFlag = false → (r'.client v).umodes = (r.client v).umodes

theorem Modest.of_keeps (h : Modest r) (keeps : KeepsRemote r r') : Modest r' := by
  intro v here remote
  rw [keeps.localFlag] at remote
  rw [keeps.umodes v remote]
  exact h v (keeps.list v here) remote

namespace KeepsRemote

theorem refl (r : Roles) : KeepsRemote r r := ⟨fun _ here => here, fun _ => rfl, fun _ _ => rfl⟩

theorem trans (h : KeepsRemote r r') (h' : KeepsRemote r' r'') : KeepsRemote r r'' where
  list := fun v here => h.list v (h'.list v here)
  localFlag := fun v => (h'.localFlag v).trans (h.localFlag v)
  umodes := fun v remote =>
    (h'.umodes v ((h.localFlag v).trans remote)).trans (h.umodes v remote)

theorem of_client (client : r'.client = r.client)
    (list : ∀ v ∈ r'.globalClientList, v ∈ r.globalClientList) : KeepsRemote r r' where
  list := list
  localFlag := fun v => by rw [client]
  umodes := fun v _ => by rw [client]

theorem setClient (r : Roles) {u : ClientId} {cl : RoleClient}
    (localFlag : cl.localFlag = (r.client u).localFlag)
    (umodes : (r.client u).localFlag = false → cl.umodes = (r.client u).umodes) :
    KeepsRemote r (r.setClient u cl) := by
  constructor
  · exact fun _ here => here
  · intro v
    by_cases self : v = u
    · rw [self, setClient_self, localFlag]
    · rw [setClient_of_ne r self]
  · intro v remote
    by_cases self : v = u
    · subst self
      rw [setClient_self, umodes remote]
    · rw [setClient_of_ne r self]

theorem leaveRoleLists (r : Roles) (u : ClientId) : KeepsRemote r (r.leaveRoleLists u) := by
  obtain ⟨client, -, list, -⟩ := leaveRoleLists_fields r u
  apply of_client client
  intro v here
  rwa [list] at here

theorem exitOneClient (r : Roles) (u : ClientId) : KeepsRemote r (r.exitOneClient u) := by
  have counted : KeepsRemote r (r.updateClientExitStats u) := by
    unfold updateClientExitStats
    dsimp only
    split
    · exact of_client rfl fun _ here => here
    · exact refl r
  unfold Roles.exitOneClient
  split
  · exact refl r
  · apply counted.trans
    generalize r.updateClientExitStats u = r₁
    have left : KeepsRemote r₁ (r₁.setClient u { r₁.client u with user := false }) :=
      setClient r₁ rfl fun _ => rfl
    exact ⟨fun v here => List.mem_of_mem_erase here, left.localFlag, left.umodes⟩

theorem exitBehind (r : Roles) (behind : List ClientId) :
    KeepsRemote r (behind.foldl Roles.exitOneClient r) := by
  induction behind generalizing r with
  | nil => exact refl r
  | cons v behind ih => exact (exitOneClient r v).trans (ih _)

theorem exitClient (r : Roles) (u : ClientId) (behind : List ClientId) :
    KeepsRemote r (r.exitClient u behind) := by
  unfold Roles.exitClient
  split
  · exact refl r
  · apply (leaveRoleLists r u).trans
    generalize r.leaveRoleLists u = r₁
    dsimp only
    split
    · exact (exitBehind r₁ _).trans (exitOneClient _ u)
    · exact exitOneClient r₁ u

theorem recount (r : Roles) : KeepsRemote r r.recount := by
  unfold Roles.recount
  split
  · exact of_client rfl fun _ here => here
  · exact refl r

theorem enrolUser (r : Roles) (cptr u : ClientId) (server : CStr) :
    KeepsRemote r (r.enrolUser cptr u server) := by
  have registered : KeepsRemote r (r.setClient u { r.client u with status := .client }) :=
    setClient r rfl fun _ => rfl
  unfold Roles.enrolUser
  dsimp only
  apply registered.trans
  generalize r.setClient u { r.client u with status := .client } = r₁
  have counted (count : Tally) : KeepsRemote r₁ (r₁.setCount count) :=
    of_client rfl fun _ here => here
  split
  · exact exitClient r₁ u []
  · apply (counted { r₁.count with total := r₁.count.total + 1 }).trans
    generalize r₁.setCount { r₁.count with total := r₁.count.total + 1 } = r₂
    split
    · exact (recount r₂).trans (of_client rfl fun _ here => here)
    · split
      · exact exitClient r₂ u []
      · exact refl r₂

theorem registerUser (r : Roles) (cptr u : ClientId) (server : CStr) (outcome : Registration) :
    KeepsRemote r (r.registerUser cptr u server outcome) := by
  unfold Roles.registerUser
  split
  · next isLocal =>
    cases outcome with
    | refused => exact exitClient r u []
    | held => exact refl r
    | accepted =>
      have shown := @setClient r u { r.client u with
        umodes := (r.client u).umodes.write .invisible true } rfl fun remote => by
          rw [isLocal] at remote
          cases remote
      dsimp only
      apply shown.trans
      generalize r.setClient u { r.client u with
        umodes := (r.client u).umodes.write .invisible true } = r₁
      have counted : KeepsRemote r₁ (r₁.setCount { r₁.count with
          invisi := r₁.count.invisi + 1
          local_ := r₁.count.local_ + 1 }) := of_client rfl fun _ here => here
      exact counted.trans (enrolUser _ cptr u server)
  · exact enrolUser r cptr u server

theorem doUser (r : Roles) (cptr u : ClientId) (server : CStr) (outcome : Registration) :
    KeepsRemote r (r.doUser cptr u server outcome) := by
  have made : KeepsRemote r (r.setClient u { r.client u with user := true }) :=
    setClient r rfl fun _ => rfl
  unfold Roles.doUser
  dsimp only
  apply made.trans
  generalize r.setClient u { r.client u with user := true } = r₁
  split
  · exact registerUser r₁ cptr u server outcome
  · split
    · exact refl r₁
    · split
      · exact registerUser r₁ cptr u _ outcome
      · exact refl r₁

theorem changeNick (r : Roles) (cptr u : ClientId) (nick : CStr) (outcome : Registration) :
    KeepsRemote r (r.changeNick cptr u nick outcome) := by
  have renamed : KeepsRemote r (r.setClient u { r.client u with name := nick }) :=
    setClient r rfl fun _ => rfl
  unfold Roles.changeNick
  dsimp only
  split
  · exact renamed.trans (registerUser _ cptr u _ outcome)
  · exact renamed

theorem mOper {r : Roles} (from_ : r.ComesFrom cptr u) (conf : Option OperConf) :
    KeepsRemote r (r.mOper cptr u conf) := by
  unfold Roles.mOper
  dsimp only
  split
  · exact of_client rfl fun _ here => here
  · next notGranted =>
    split
    · exact refl r
    · next notOper =>
      cases conf with
      | none => exact refl r
      | some conf =>
        have isLocal : (r.client u).localFlag = true := by
          by_contra remote
          rcases from_.sender with self | ⟨server, -, -⟩
          · exact remote (self ▸ from_.myConnect)
          · -- an operator is turned away, and anybody else is granted the flag
            apply notGranted
            simp only [RoleClient.isAnOper, Umodes.isAnOper, Bool.or_eq_true, not_or] at notOper
            simp [server, notOper.1]
        have opered := @setClient r u { r.client u with
          privs := conf.privs, umodes := operModes conf (r.client u).umodes } rfl fun remote => by
            rw [isLocal] at remote
            cases remote
        exact opered.trans (of_client rfl fun _ here => here)

theorem linkServer (r : Roles) (cptr : ClientId) (name : CStr) :
    KeepsRemote r (r.linkServer cptr name) := by
  have linked : KeepsRemote r (r.setClient cptr { r.client cptr with
      name := name, status := .server }) := setClient r rfl fun _ => rfl
  exact linked.trans (of_client rfl fun _ here => here)

end KeepsRemote

/-- Between `r` and `r'` only `u` has changed, and its modes are `m` now. -/
structure Moded (u : ClientId) (r r' : Roles) (m : Umodes) : Prop where
  list : r'.globalClientList = r.globalClientList
  others : ∀ v, v ≠ u → r'.client v = r.client v
  modes : Modes (r.client u) (r'.client u)
  umodes : (r'.client u).umodes = m
  privs : (r.client u).localFlag = false → (r'.client u).privs = (r.client u).privs

namespace Moded

variable {m m' : Umodes}

theorem refl (u : ClientId) (r : Roles) : Moded u r r (r.client u).umodes where
  list := rfl
  others := fun _ _ => rfl
  modes := ⟨rfl, rfl, rfl, rfl⟩
  umodes := rfl
  privs := fun _ => rfl

theorem trans (h : Moded u r r' m) (h' : Moded u r' r'' m') : Moded u r r'' m' where
  list := h'.list.trans h.list
  others := fun v other => (h'.others v other).trans (h.others v other)
  modes := ⟨h'.modes.name.trans h.modes.name, h'.modes.status.trans h.modes.status,
    h'.modes.localFlag.trans h.modes.localFlag, h'.modes.user.trans h.modes.user⟩
  umodes := h'.umodes
  privs := fun remote => (h'.privs (h.modes.localFlag.trans remote)).trans (h.privs remote)

theorem setClient (r : Roles) {cl : RoleClient} (modes : Modes (r.client u) cl)
    (privs : (r.client u).localFlag = false → cl.privs = (r.client u).privs) :
    Moded u r (r.setClient u cl) cl.umodes := by
  constructor
  · rfl
  · exact fun v other => setClient_of_ne r other cl
  · rw [setClient_self]
    exact modes
  · rw [setClient_self]
  · rw [setClient_self]
    exact privs

theorem same (h : Moded u r r' m) (client : r''.client = r'.client)
    (list : r''.globalClientList = r'.globalClientList) : Moded u r r'' m := by
  constructor
  · rw [list, h.list]
  · intro v other
    rw [client, h.others v other]
  · rw [client]
    exact h.modes
  · rw [client, h.umodes]
  · rw [client]
    exact h.privs

theorem deoper (r : Roles) (u : ClientId) :
    Moded u r (r.deoper u) ((r.client u).umodes.without operOnlyUmodes) := by
  unfold Roles.deoper
  dsimp only
  split
  · next isLocal =>
    have written := @setClient u r { r.client u with
      umodes := (r.client u).umodes.without operOnlyUmodes, privs := fun _ => false }
      ⟨rfl, rfl, rfl, rfl⟩ fun remote => by
        rw [isLocal] at remote
        cases remote
    exact written.same rfl rfl
  · have written := @setClient u r { r.client u with
      umodes := (r.client u).umodes.without operOnlyUmodes } ⟨rfl, rfl, rfl, rfl⟩ fun _ => rfl
    exact written.same rfl rfl

theorem write (r : Roles) (u : ClientId) (m : Umodes) :
    Moded u r (r.setClient u { r.client u with umodes := m }) m :=
  setClient r ⟨rfl, rfl, rfl, rfl⟩ fun _ => rfl

theorem umodeLetter (cptr : ClientId) (st : Roles × Bool) (letter : Char) :
    Moded u st.1 (umodeLetter cptr u st letter).1
      (readLetter (st.1.client cptr).isServer ((st.1.client u).umodes, st.2) letter).1 ∧
    (Roles.umodeLetter cptr u st letter).2 =
      (readLetter (st.1.client cptr).isServer ((st.1.client u).umodes, st.2) letter).2 := by
  obtain ⟨r, add⟩ := st
  have operLetter : ∀ (st' : Roles × Bool) (read : Umodes × Bool), (if add then
      if (r.client cptr).isServer && !(r.client u).umodes .oper then
        ((r.setCount { r.count with oper := r.count.oper + 1 }).setClient u
          { r.client u with umodes := (r.client u).umodes.write .oper true }, true)
      else (r, add)
    else if (r.client u).isAnOper then (r.deoper u, false)
    else (r, add)) = st' → (if add then
      if (r.client cptr).isServer && !(r.client u).umodes .oper then
        ((r.client u).umodes.write .oper true, true)
      else ((r.client u).umodes, add)
    else if (r.client u).umodes.isAnOper then
      ((r.client u).umodes.without operOnlyUmodes, false)
    else ((r.client u).umodes, add)) = read → Moded u r st'.1 read.1 ∧ st'.2 = read.2 := by
    rintro st' read rfl rfl
    split
    · split
      · exact ⟨(write r u _).same rfl rfl, rfl⟩
      · exact ⟨refl u r, rfl⟩
    · have oper : (r.client u).isAnOper = (r.client u).umodes.isAnOper := rfl
      rw [oper]
      split
      · exact ⟨deoper r u, rfl⟩
      · exact ⟨refl u r, rfl⟩
  unfold Roles.umodeLetter
  dsimp only
  split
  · exact ⟨refl u r, rfl⟩
  · exact ⟨refl u r, rfl⟩
  · exact operLetter _ _ rfl rfl
  · exact operLetter _ _ rfl rfl
  · exact ⟨refl u r, rfl⟩
  · exact ⟨refl u r, rfl⟩
  · exact ⟨refl u r, rfl⟩
  · exact ⟨refl u r, rfl⟩
  · rename_i plus minus big small blank feed return_ tab
    rw [readLetter_other plus minus big small blank feed return_ tab]
    cases umodeOfLetter letter with
    | some flag => exact ⟨write r u _, rfl⟩
    | none => exact ⟨refl u r, rfl⟩

theorem isServer (h : Moded u r r' m) (v : ClientId) :
    (r'.client v).isServer = (r.client v).isServer := by
  by_cases self : v = u
  · rw [self, RoleClient.isServer, h.modes.status]
    rfl
  · rw [h.others v self]

theorem letters (cptr : ClientId) (text : CStr) (st : Roles × Bool) :
    Moded u st.1 (text.foldl (Roles.umodeLetter cptr u) st).1
      (text.foldl (readLetter (st.1.client cptr).isServer) ((st.1.client u).umodes, st.2)).1 := by
  induction text generalizing st with
  | nil => exact refl u st.1
  | cons letter text ih =>
    have ⟨first, sign⟩ := umodeLetter (u := u) cptr st letter
    have rest := ih (Roles.umodeLetter cptr u st letter)
    rw [first.isServer, first.umodes, sign] at rest
    exact first.trans rest

theorem repair (r : Roles) (u : ClientId) (p : Repair) :
    Moded u r (repair u r p) (if (r.client u).umodes p.flag && !(r.client u).privs p.priv &&
      (!p.mineOnly || (r.client u).localFlag) then (r.client u).umodes.write p.flag false
      else (r.client u).umodes) := by
  unfold Roles.repair
  dsimp only
  split
  · exact write r u _
  · exact refl u r

theorem repairs (list : List Repair) (r : Roles) (u : ClientId) :
    ∃ m, Moded u r (list.foldl (Roles.repair u) r) m := by
  induction list generalizing r with
  | nil => exact ⟨_, refl u r⟩
  | cons p list ih =>
    obtain ⟨m, rest⟩ := ih (Roles.repair u r p)
    exact ⟨m, (repair r u p).trans rest⟩

theorem repairs_mineOnly (list : List Repair) (r : Roles) (remote : (r.client u).localFlag = false)
    (mineOnly : ∀ p ∈ list, p.mineOnly = true) : list.foldl (Roles.repair u) r = r := by
  induction list with
  | nil => rfl
  | cons p list ih =>
    have passed : Roles.repair u r p = r := by
      unfold Roles.repair
      dsimp only
      rw [remote, mineOnly p List.mem_cons_self]
      exact if_neg (by simp)
    rw [List.foldl_cons, passed]
    exact ih fun q inside => mineOnly q (List.mem_cons_of_mem p inside)

end Moded

/-- The modes that a MODE leaves to the user of another server: the letters are read from the
left, and `+n` does not stay without the privilege. -/
def leftModes (cl : RoleClient) (server : Bool) (modes : List CStr) : Umodes :=
  let m := (modes.flatten.foldl (readLetter server) (cl.umodes, true)).1
  if cl.privs .n then m else m.write .nchange false

theorem Moded.repairs_remote (r : Roles) (remote : (r.client u).localFlag = false) :
    Moded u r (Ircd.repairs.foldl (Roles.repair u) r) (if (r.client u).privs .n then
      (r.client u).umodes else (r.client u).umodes.write .nchange false) := by
  let first : Repair :=
    { flag := .nchange, priv := .n, mineOnly := false, letter := 'N', mode := 'n' }
  have written := Moded.repair r u first
  have rest : Ircd.repairs.foldl (Roles.repair u) r = Roles.repair u r first :=
    repairs_mineOnly _ _ (written.modes.localFlag.trans remote) (by decide)
  rw [rest]
  cases priv : (r.client u).privs .n with
  | true => simpa [first, priv] using written
  | false =>
    cases set : (r.client u).umodes .nchange with
    | true => simpa [first, priv, set] using written
    | false =>
      have unchanged : (r.client u).umodes.write .nchange false = (r.client u).umodes := by
        rw [Umodes.write, ← set, Function.update_eq_self]
      simpa [first, priv, set, unchanged] using written

theorem userMode_moded (r : Roles) (cptr u : ClientId) (modes : List CStr) :
    ∃ m, Moded u r (r.userMode cptr u modes) m ∧ ((r.client u).localFlag = false →
      m = leftModes (r.client u) (r.client cptr).isServer modes) := by
  have read := Moded.letters (u := u) cptr modes.flatten (r, true)
  have counted : ∀ {r₁ r₂ : Roles} {m : Umodes}, Moded u r r₁ m →
      (∃ count, r₂ = r₁.setCount count) ∨ r₂ = r₁ → Moded u r r₂ m := by
    rintro r₁ r₂ m written (⟨count, rfl⟩ | rfl)
    · exact written.same rfl rfl
    · exact written
  have after : (r.userMode cptr u modes) = Ircd.repairs.foldl (repair u)
      (modes.flatten.foldl (umodeLetter cptr u) (r, true)).1 ∨ ∃ count,
      r.userMode cptr u modes = (Ircd.repairs.foldl (repair u)
        (modes.flatten.foldl (umodeLetter cptr u) (r, true)).1).setCount count := by
    unfold userMode
    dsimp only
    split
    · exact .inr ⟨_, rfl⟩
    · split
      · exact .inr ⟨_, rfl⟩
      · exact .inl rfl
  generalize (modes.flatten.foldl (umodeLetter cptr u) (r, true)).1 = r₁ at read after
  cases isLocal : (r.client u).localFlag with
  | true =>
    obtain ⟨m, repaired⟩ := Moded.repairs Ircd.repairs r₁ u
    exact ⟨m, counted (read.trans repaired) after.symm, nofun⟩
  | false =>
    have repaired := Moded.repairs_remote r₁ (read.modes.localFlag.trans isLocal)
    rw [read.umodes, read.privs isLocal] at repaired
    exact ⟨_, counted (read.trans repaired) after.symm, fun _ => rfl⟩

theorem introducedLetters_told (text : CStr) (st : Tally × Umodes)
    (told : ∀ f, st.2 f = true → sendUmodes f = true) (f : Umode)
    (set : (text.foldl introducedLetter st).2 f = true) : sendUmodes f = true := by
  induction text generalizing st with
  | nil => exact told f set
  | cons letter text ih =>
    apply ih (introducedLetter st letter) _ set
    unfold introducedLetter
    cases umodeOfLetter letter with
    | none => exact told
    | some flag =>
      intro g written
      dsimp only at written
      split at written
      · next sent =>
        by_cases self : g = flag
        · exact self ▸ sent
        · rw [Umodes.write, Function.update_of_ne self] at written
          exact told g written
      · exact told g written

theorem Modest.makeClient (h : Modest r) (from_ : Option ClientId) :
    Modest (r.makeClient from_) := by
  intro v here remote
  by_cases fresh : v = r.nextClient
  · rw [fresh, makeClient_client]
    exact Nat.zero_le 10
  · have old : (r.makeClient from_).client v = r.client v := Function.update_of_ne fresh ..
    rw [old] at remote ⊢
    exact h v (List.mem_of_ne_of_mem fresh here) remote

theorem Modest.setClient (h : Modest r) {cl : RoleClient}
    (short : cl.localFlag = false → cl.umodes.size ≤ 10) : Modest (r.setClient u cl) := by
  intro v here remote
  by_cases self : v = u
  · rw [self, setClient_self] at remote ⊢
    exact short remote
  · rw [setClient_of_ne r self] at remote ⊢
    exact h v here remote

theorem Modest.introduceNick (h : Modest r) (cptr : ClientId) (nick modes server : CStr) :
    Modest (r.introduceNick cptr nick modes server) := by
  have made := h.makeClient (some cptr)
  unfold Roles.introduceNick
  dsimp only
  have told := introducedLetters_told modes.tail ((r.makeClient (some cptr)).count, .none) nofun
  generalize r.makeClient (some cptr) = r₁ at made told ⊢
  generalize modes.tail.foldl introducedLetter (r₁.count, .none) = introduced at told ⊢
  have counted : Modest (r₁.setCount introduced.1) := made
  have named := @Modest.setClient (r₁.setCount introduced.1) r.nextClient counted
    { (r₁.setCount introduced.1).client r.nextClient with name := nick, umodes := introduced.2 }
    fun _ => (size_le_three told).trans (by decide)
  exact named.of_keeps (KeepsRemote.doUser _ cptr r.nextClient server .accepted)

def Sparing (r : Roles) : RoleEvent → Prop
  | .mode cptr sptr modes =>
    r.ComesFrom cptr sptr ∧ (r.client sptr).isPerson = true ∧
        (r.client sptr).localFlag = false →
      (leftModes (r.client sptr) (r.client cptr).isServer modes).size ≤ 10
  | _ => True

theorem Modest.step (h : Modest r) (e : RoleEvent) (sparing : r.Sparing e) :
    Modest (r.step e) := by
  cases e with
  | accept => exact h.makeClient none
  | connectServer name =>
    apply (h.makeClient none).setClient
    rw [makeClient_client]
    nofun
  | completed u =>
    show Modest (ite _ _ _)
    split
    · exact h.of_keeps (KeepsRemote.setClient r rfl fun _ => rfl)
    · exact h
  | user cptr sptr server outcome =>
    show Modest (ite _ _ _)
    split
    · exact h.of_keeps (KeepsRemote.doUser r cptr sptr server outcome)
    · exact h
  | nick cptr sptr nick outcome =>
    show Modest (ite _ _ _)
    split
    · exact h.of_keeps (KeepsRemote.changeNick r cptr sptr nick outcome)
    · exact h
  | introduce cptr nick modes server =>
    show Modest (ite _ _ _)
    split
    · exact h.introduceNick cptr nick modes server
    · exact h
  | mode cptr sptr modes =>
    show Modest (ite _ _ _)
    split
    · next from_ =>
      obtain ⟨m, moded, left⟩ := userMode_moded r cptr sptr modes
      intro v here remote
      rw [moded.list] at here
      by_cases self : v = sptr
      · subst self
        rw [moded.modes.localFlag] at remote
        rw [moded.umodes, left remote]
        exact sparing ⟨from_.1, from_.2, remote⟩
      · rw [moded.others v self] at remote ⊢
        exact h v here remote
    · exact h
  | oper cptr sptr conf =>
    show Modest (ite _ _ _)
    split
    · next from_ => exact h.of_keeps (KeepsRemote.mOper from_.1 conf)
    · exact h
  | linkServer cptr name =>
    show Modest (ite _ _ _)
    split
    · exact h.of_keeps (KeepsRemote.linkServer r cptr name)
    · exact h
  | introduceServer cptr name =>
    show Modest (ite _ _ _)
    split
    · apply (h.makeClient (some cptr)).setClient
      rw [makeClient_client]
      exact fun _ => Nat.zero_le 10
    · exact h
  | exit u behind => exact h.of_keeps (KeepsRemote.exitClient r u behind)
  | lusers => exact h.of_keeps (KeepsRemote.recount r)
  | tick now => exact h

theorem modest_startUp (name : CStr) (now : Int) : Modest (startUp name now) := by
  intro v here _
  rw [List.mem_singleton.1 here]
  exact Nat.zero_le 10

theorem sparing_of_fits {e : RoleEvent} (fits : UmodesFit (r.step e)) : r.Sparing e := by
  cases e with
  | mode cptr sptr modes =>
    rintro ⟨from_, person, remote⟩
    have fits : UmodesFit (ite _ _ _) := fits
    rw [if_pos ⟨from_, person⟩] at fits
    obtain ⟨m, moded, left⟩ := userMode_moded r cptr sptr modes
    have isClient : ((r.userMode cptr sptr modes).client sptr).isClient = true := by
      rw [RoleClient.isClient, moded.modes.status]
      exact (Bool.and_eq_true_iff.1 person).1
    have still : ((r.userMode cptr sptr modes).client sptr).isPerson = true := by
      rw [RoleClient.isPerson, isClient, moded.modes.user]
      exact (Bool.and_eq_true_iff.1 person).2
    have short := fits.burst sptr (moded.list ▸ from_.here) still
    rw [sendUmode_fits isClient, moded.modes.localFlag, moded.umodes, left remote, remote] at short
    exact short.resolve_left Bool.false_ne_true
  | _ => trivial

theorem meets_of_fits {r : Roles} {es : List RoleEvent}
    (fits : ∀ pre, pre <+: es → UmodesFit (roleMachine.run r pre)) :
    roleMachine.Meets Sparing r es := by
  induction es generalizing r with
  | nil => trivial
  | cons e es ih =>
    constructor
    · exact sparing_of_fits (fits [e] (List.prefix_append [e] es))
    · apply ih
      intro pre inside
      exact fits (e :: pre) ((List.prefix_cons_inj e).2 inside)

/-- The modes fit in every state on the way exactly where no user of another server is ever
left with more than ten. -/
theorem umodesFit_iff (name : CStr) (now : Int) (es : List RoleEvent) :
    (∀ pre, pre <+: es → UmodesFit (roleMachine.run (startUp name now) pre)) ↔
      roleMachine.Meets Sparing (startUp name now) es := by
  constructor
  · exact meets_of_fits
  · intro sparing pre inside
    exact (sparing.always (fun _ e h ok => h.step e ok) (modest_startUp name now) inside).fits

/-- A link introduces a user with one mode and relays a MODE by which it sets eleven more. -/
def elevenModes : List RoleEvent :=
  [.accept, .linkServer 1 "a.net".toList,
   .introduce 1 "ann".toList "+i".toList "a.net".toList,
   .mode 1 2 ["+bcdfklorswx".toList]]

theorem elevenModes_overflow : ∃ pre, pre <+: elevenModes ∧
    ¬UmodesFit (roleMachine.run (startUp "me.net".toList 1) pre) := by
  have last : (2 : ClientId) ∈
      (roleMachine.run (startUp "me.net".toList 1) elevenModes).globalClientList := by
    decide +kernel
  refine ⟨elevenModes, List.prefix_refl elevenModes, fun fits => ?_⟩
  have short := fits.burst 2 last (by decide +kernel)
  exact absurd short (by decide +kernel)

end Roles

end Ircd
