import Ircd.Server.NameRuns

/-! `from`, the connection that a client is reached over, in every run: that of a connection is
the connection.
-/

set_option autoImplicit false

namespace Ircd

namespace ClientNames

def Direct (t : ClientNames) : Prop := ∀ u, (t.client u).localFlag = true → (t.client u).from_ = u

variable {t : ClientNames} {u sptr cptr : ClientId} {parv : List CStr} {nick : CStr}

theorem Direct.of_client {t' : ClientNames} (h : Direct t) (same : t'.client = t.client) :
    Direct t' := by
  intro v mine
  rw [same] at mine ⊢
  exact h v mine

theorem Direct.enter (h : Direct t) : Direct (t.addToClientHashTable nick u) := h

theorem Direct.leave (h : Direct t) : Direct (t.delFromClientHashTable nick u) := h

theorem Direct.setClient (h : Direct t) {cl : NamedClient}
    (mine : cl.localFlag = (t.client u).localFlag) (from_ : cl.from_ = (t.client u).from_) :
    Direct (t.setClient u cl) := by
  intro v
  by_cases same : v = u
  · subst same
    simp only [ClientNames.setClient, Function.update_self, mine, from_]
    exact h v
  · simp only [ClientNames.setClient, Function.update_of_ne same]
    exact h v

theorem Direct.makeClient (h : Direct t) (from_ : Option ClientId) :
    Direct (t.makeClient from_) := by
  intro v
  by_cases same : v = t.nextClient
  · subst same
    cases from_ with
    | none => exact fun _ => by simp [ClientNames.makeClient]
    | some link => exact fun mine => by simp [ClientNames.makeClient] at mine
  · simp only [ClientNames.makeClient, Function.update_of_ne same]
    exact h v

theorem Direct.exitClient (h : Direct t) (u : ClientId) (behind : List ClientId) :
    Direct (t.exitClient u behind) :=
  h.of_client (funext fun v => exitClient_client v)

theorem Direct.registerUser (h : Direct t) (outcome : Registration) :
    Direct (t.registerUser sptr outcome) := by
  cases outcome with
  | refused => exact h.exitClient sptr []
  | held => exact h
  | accepted => exact h.setClient rfl rfl

theorem Direct.doUser (h : Direct t) {username host : CStr} {outcome : Registration} :
    Direct (t.doUser sptr username host outcome) := by
  have user : Direct (t.setClient sptr { t.client sptr with user := true }) := h.setClient rfl rfl
  unfold ClientNames.doUser
  generalize t.setClient sptr { t.client sptr with user := true } = t at user ⊢
  dsimp only
  split
  · apply Direct.registerUser
    exact user.setClient rfl rfl
  · split
    · exact user
    · split
      · exact user.registerUser outcome
      · exact user.setClient rfl rfl

theorem Direct.mPass (h : Direct t) : Direct (t.mPass cptr sptr parv) := by
  unfold ClientNames.mPass
  dsimp only
  split
  · exact h
  · split
    · exact h
    · split
      · exact h.setClient rfl rfl
      · exact h

theorem Direct.setNick (h : Direct t) : Direct (t.setNick sptr nick) := by
  unfold ClientNames.setNick
  dsimp only
  split
  · apply Direct.enter
    exact h.leave.setClient rfl rfl
  · apply Direct.enter
    exact h.setClient rfl rfl

theorem Direct.introduceNick (h : Direct t) {newts : Int} {outcome : Registration} :
    Direct (t.introduceNick cptr parv newts nick outcome) := by
  unfold ClientNames.introduceNick
  apply Direct.doUser
  apply Direct.enter
  exact (h.makeClient (some cptr)).setClient rfl rfl

theorem Direct.nickkilldone (h : Direct t) {newts : Int} {v : NickVerdict} :
    Direct (t.nickkilldone cptr sptr parv newts nick v) := by
  unfold ClientNames.nickkilldone
  dsimp only
  split
  · exact h.introduceNick
  · split
    · have stamped : Direct (if irccmp (parv.getD 0 []) nick = .eq then t
          else t.setClient sptr { t.client sptr with
            tsinfo := if newts = 0 then t.currentTime else newts }) := by
        split
        · exact h
        · exact h.setClient rfl rfl
      split
      · exact stamped
      · exact stamped.setNick
    · have named : Direct (t.setClient sptr { t.client sptr with
          name := nick, tsinfo := t.currentTime }) := h.setClient rfl rfl
      split
      · exact named.setNick
      · split
        · exact named.registerUser _
        · exact (named.registerUser _).setNick

theorem Direct.takeNick (h : Direct t) {newts : Int} {fromTs : Bool} {v : NickVerdict} :
    Direct (t.takeNick cptr sptr parv newts fromTs nick v) := by
  unfold ClientNames.takeNick
  split
  · split
    · exact h
    · exact h.exitClient _ _
  · split
    · exact h.nickkilldone
    · split
      · split
        · exact h.nickkilldone
        · exact h
      · split
        · exact h
        · exact h.exitClient _ _
        · exact h.exitClient _ _
        · exact (h.exitClient _ _).exitClient _ _
        · exact (h.exitClient _ _).nickkilldone

theorem Direct.mNick (h : Direct t) {v : NickVerdict} : Direct (t.mNick cptr sptr parv v) := by
  unfold ClientNames.mNick
  split
  · exact h
  · dsimp only
    split
    · exact h
    · generalize (if (t.client sptr).localFlag = true then
        (parv.getD 1 []).takeWhile (· ≠ '~') else parv.getD 1 []) = parv1
      split
      · exact h
      · split
        · split
          · exact h.exitClient _ _
          · exact h
        · split
          · exact h
          · exact h.takeNick

theorem Direct.newServerGate (h : Direct t) {host : CStr} {v : ServerVerdict} :
    Direct (t.newServerGate cptr host v).1 := by
  have admitted : Direct (newServerGate.admitted t cptr v).1 := by
    unfold ClientNames.newServerGate.admitted
    split
    · exact h
    · split
      · exact h
      · split
        · exact h.exitClient _ _
        · exact h
  unfold ClientNames.newServerGate
  split
  · split
    · exact h.exitClient _ _
    · exact admitted
  · exact admitted

theorem Direct.serverGate (h : Direct t) {adm : Admission} {v : ServerVerdict} :
    Direct (t.serverGate cptr sptr parv adm v).1 := by
  unfold ClientNames.serverGate
  split
  · exact h
  · dsimp only
    split
    · exact h
    · split
      · exact h.exitClient _ _
      · split
        · exact h.exitClient _ _
        · split
          · exact h.exitClient _ _
          · split
            · exact h.newServerGate
            · split
              · exact h.exitClient _ _
              · exact (h.exitClient _ _).newServerGate

theorem Direct.introduceServer (h : Direct t) {host : CStr} {adm : Admission}
    {v : ServerVerdict} : Direct (t.introduceServer cptr host parv adm v) := by
  unfold ClientNames.introduceServer
  dsimp only
  split
  · exact h
  · split
    · exact h.exitClient _ _
    · split
      · exact h.exitClient _ _
      · have entered : Direct (((t.makeClient (some cptr)).setClient t.nextClient
            { (t.makeClient (some cptr)).client t.nextClient with
              name := strncpyIrc host hostLen, status := .server })) :=
          (h.makeClient (some cptr)).setClient rfl rfl
        split
        · apply Direct.exitClient
          exact entered.enter
        · exact entered.enter

theorem Direct.becomeServer (h : Direct t) {host : CStr} {adm : Admission} {v : ServerVerdict} :
    Direct (t.becomeServer cptr host adm v) := by
  have named : Direct (t.setClient cptr { t.client cptr with name := strncpyIrc host hostLen }) :=
    h.setClient rfl rfl
  unfold ClientNames.becomeServer
  generalize t.setClient cptr { t.client cptr with name := strncpyIrc host hostLen } = t at named ⊢
  dsimp only
  split
  · exact named.exitClient _ _
  · have server : Direct (t.setClient cptr { t.client cptr with status := .server }) :=
      named.setClient rfl rfl
    exact server.enter

theorem Direct.mServer (h : Direct t) {adm : Admission} {v : ServerVerdict} :
    Direct (t.mServer cptr sptr parv adm v) := by
  have gate : Direct (t.serverGate cptr sptr parv adm v).1 := h.serverGate
  unfold ClientNames.mServer
  split
  · next same => rwa [same] at gate
  · next same =>
    rw [same] at gate
    exact gate.introduceServer
  · next same =>
    rw [same] at gate
    exact gate.becomeServer

end ClientNames

theorem direct_step {t : NameTables} (h : t.Direct) (e : NameEvent) : (t.step e).Direct := by
  cases e with
  | accept => exact h.makeClient none
  | connectServer name =>
    simp only [NameTables.step]
    split
    · exact ClientNames.Direct.setClient (h.makeClient none) rfl rfl
    · exact h
  | completed u =>
    simp only [NameTables.step]
    split
    · exact h.setClient rfl rfl
    · exact h
  | pass cptr sptr parv =>
    simp only [NameTables.step]
    split
    · exact h.mPass
    · exact h
  | nick cptr sptr parv v =>
    simp only [NameTables.step]
    split
    · exact h.mNick
    · exact h
  | user sptr username host outcome =>
    simp only [NameTables.step]
    split
    · exact h.doUser
    · exact h
  | server cptr sptr parv adm v =>
    simp only [NameTables.step]
    split
    · exact h.mServer
    · exact h
  | exit u behind => exact h.exitClient u behind
  | getChannel cptr chname create => exact h
  | jupe name => exact h
  | addUser c =>
    simp only [NameTables.step]
    split
    · exact h
    · exact h
  | sub1 c =>
    simp only [NameTables.step]
    split
    · exact h
    · exact h
  | tick now => exact h

theorem direct_run (name : CStr) (now : Int) (es : List NameEvent) :
    (nameMachine.run (NameTables.startUp name now) es).Direct := by
  have start : (NameTables.startUp name now).Direct := by
    intro u mine
    by_cases same : u = 0
    · subst same
      cases mine
    · simp only [NameTables.startUp, ClientNames.addToClientHashTable,
        Function.update_of_ne same] at mine
      cases mine
  generalize NameTables.startUp name now = t at start ⊢
  induction es generalizing t with
  | nil => exact start
  | cons e es ih => exact ih (t.step e) (direct_step start e)

end Ircd
