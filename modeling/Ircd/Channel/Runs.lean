import Ircd.Channel.Freed
import Ircd.Channel.ModeFreed
import Ircd.Lib.Machine

/-! The server between two messages: its events, and when one of them is sound.

The commands come from `parse`, so a client of this server sends its own. Clients come
and go as `connect` and `exit`; a rehash replaces the Q-lines.
-/

set_option autoImplicit false

namespace Ircd

inductive Command where
  | join
  | part
  | kick
  | sjoin
  | mode
  deriving DecidableEq, Repr

def Command.run (cmd : Command) (s : Server) (cptr sptr : ClientId) (parv : List CStr) : Server :=
  match cmd with
  | .join => mJoin s cptr sptr parv
  | .part => mPart s cptr sptr parv
  | .kick => mKick s cptr sptr parv
  | .sjoin => mSjoin s cptr sptr parv
  | .mode => mMode s cptr sptr parv

/-- What `check_still_split` reads besides the clock, and what it decides. -/
structure SplitState where
  serverWasSplit : Bool
  splitDelay : Int
  splitNum : Int
  splitUsers : Int
  gotServerPong : Bool
  coldStart : Bool
  countServer : Int
  countTotal : Int

def Tables.setSplit (t : Tables) (split : SplitState) : Tables :=
  { t with
    serverWasSplit := split.serverWasSplit
    splitDelay := split.splitDelay
    splitNum := split.splitNum
    splitUsers := split.splitUsers
    gotServerPong := split.gotServerPong
    coldStart := split.coldStart
    countServer := split.countServer
    countTotal := split.countTotal }

inductive Event where
  | connect (u : ClientId) (cl : Client)
  | rename (u : ClientId) (nick : CStr)
  | tick (now : Int)
  /-- The PONG of a server, SET, or a client that comes or goes. -/
  | split (split : SplitState)
  | command (cmd : Command) (cptr sptr : ClientId) (parv : List CStr)
  | exit (cptr sptr : ClientId) (killed : Bool) (comment : CStr)
  | rehash (old : List CStr) (new : List (CStr × CStr))

namespace Server

def event (s : Server) : Event → Server
  | .connect u cl => s.edit (·.addClient u cl)
  | .rename u nick => s.edit fun t => t.setClient u { t.client u with name := nick }
  | .tick now => s.edit fun t => { t with currentTime := now }
  | .split split => s.edit (·.setSplit split)
  | .command cmd cptr sptr parv => cmd.run s cptr sptr parv
  | .exit cptr sptr killed comment => s.exitOneClient cptr sptr killed comment
  | .rehash old new => s.edit (·.rehashJupes old new)

def machine : Machine Server Event := { step := event }

end Server

def Routed (t : Tables) (cptr sptr : ClientId) : Prop :=
  (t.client sptr).myConnect = true → cptr = sptr

structure Unused (t : Tables) (u : ClientId) (cl : Client) : Prop where
  user : (t.client u).user = false
  channel : cl.channel = []
  joined : cl.joined = 0
  proper : cl.Proper

def Event.Comes (e : Event) (t : Tables) : Prop :=
  match e with
  | .connect u cl => Unused t u cl
  | .rename _ nick => nick ≠ []
  | .command _ cptr sptr _ => Routed t cptr sptr
  | _ => True

def OperModes (t : Tables) (sptr : ClientId) (parv modes : List CStr) : Prop :=
  ∃ c, modeTarget t parv = some (c, modes) ∧
    ((t.client sptr).myConnect = true ∧ (t.client sptr).isAnOper = true) ∧ (t.chan c).users = 0

def ModeUsesFreed (t : Tables) (sptr : ClientId) (parv : List CStr) : Prop :=
  ∃ modes, OperModes t sptr parv modes ∧ ReportsFreed (operReports modes)

def ModeFreesTwice (t : Tables) (sptr : ClientId) (parv : List CStr) : Prop :=
  ∃ modes, OperModes t sptr parv modes ∧ 1 < (operReports modes).count .unjupe

def Command.UsesFreed (cmd : Command) (s : Server) (sptr : ClientId) (parv : List CStr) : Prop :=
  match cmd with
  | .join => JoinUsesFreed s sptr parv
  | .mode => ModeUsesFreed s.toTables sptr parv
  | _ => False

def Event.WritesFreed (e : Event) (s : Server) : Prop :=
  match e with
  | .command .join _ sptr parv => JoinUsesFreed s sptr parv
  | .command .mode _ sptr parv => ModeFreesTwice s.toTables sptr parv
  | _ => False

open Server

variable {s : Server}

theorem operOutside (sound : s.Sound) {cptr sptr : ClientId} (routed : Routed s.toTables cptr sptr)
    {c : ChanId} (oper : (s.client sptr).myConnect = true ∧ (s.client sptr).isAnOper = true)
    (empty : (s.chan c).users = 0) :
    ModeLoop.OperOutside (modeEnv s.toTables cptr sptr c) := by
  have client := sound.oper oper.2
  have nobody : (s.chan c).memberIds = [] := by
    have counted := sound.users_eq c
    exact List.eq_nil_of_length_eq_zero (by omega)
  have members : (s.chan c).members = [] := List.map_eq_nil_iff.1 nobody
  have server : (s.client sptr).isServer = false := by
    have status : (s.client sptr).status = .client := by simpa [Client.isClient] using client
    simp [Client.isServer, status]
  have link : (s.client cptr).isServer = false := by
    rw [routed oper.1]
    exact server
  refine ⟨?_, oper.1, oper.2, ?_, ?_⟩
  · simp [ModeEnv.myClient, ModeEnv.source, modeEnv, Client.myClient, oper.1, client]
  · apply Bool.eq_false_of_not_eq_true
    intro inside
    have member := sound.isMember_iff.1 inside
    have none : sptr ∈ (s.chan c).memberIds := member
    rw [nobody] at none
    cases none
  · simp [modeEnv, server, link, Channel.isChanOp, Channel.findUserLink, members]

theorem listed_of_modeTarget (sound : s.Sound) {parv modes : List CStr} {c : ChanId}
    (target : modeTarget s.toTables parv = some (c, modes)) : c ∈ s.channel := by
  unfold modeTarget at target
  simp only at target
  split at target
  · cases target
  · obtain ⟨d, found, same⟩ := Option.map_eq_some_iff.1 target
    cases same
    exact sound.listed_of_found found

theorem modeRun_destroyed (sound : s.Sound) {cptr sptr : ClientId}
    (routed : Routed s.toTables cptr sptr) {parv modes : List CStr} {c : ChanId}
    (target : modeTarget s.toTables parv = some (c, modes)) :
    (OperModes s.toTables sptr parv modes ∧
      (modeRun (modeEnv s.toTables cptr sptr c) modes).destroyed =
        (operReports modes).count .unjupe ∧
      ((modeRun (modeEnv s.toTables cptr sptr c) modes).dangling ≠ 0 ↔
        ReportsFreed (operReports modes))) ∨
    ¬ OperModes s.toTables sptr parv modes ∧
      (modeRun (modeEnv s.toTables cptr sptr c) modes).destroyed = 0 := by
  by_cases case : ((s.client sptr).myConnect = true ∧ (s.client sptr).isAnOper = true) ∧
      (s.chan c).users = 0
  · refine Or.inl ⟨⟨c, target, case⟩, ?_⟩
    exact ModeLoop.modeRun_reads (operOutside sound routed case.1 case.2) case.2 modes
  · refine Or.inr ⟨?_, ?_⟩
    · rintro ⟨d, same, oper, empty⟩
      rw [target] at same
      cases same
      exact case ⟨oper, empty⟩
    · by_cases empty : (s.chan c).users = 0
      · have other : ¬ ((s.client sptr).myConnect = true ∧ (s.client sptr).isAnOper = true) :=
          fun oper => case ⟨oper, empty⟩
        exact @ModeLoop.destroyed_of_not_oper (modeEnv s.toTables cptr sptr c) other modes
      · exact @ModeLoop.destroyed_of_members (modeEnv s.toTables cptr sptr c) empty modes

theorem modes_of_target {t : Tables} {parv modes modes' : List CStr} {c : ChanId} {sptr : ClientId}
    (target : modeTarget t parv = some (c, modes)) (oper : OperModes t sptr parv modes') :
    modes' = modes := by
  obtain ⟨d, same, -⟩ := oper
  rw [target] at same
  cases same
  rfl

theorem mMode_uses_iff (sound : s.Sound) {cptr sptr : ClientId}
    (routed : Routed s.toTables cptr sptr) (parv : List CStr) :
    (mMode s cptr sptr parv).danglingUses = s.danglingUses ↔
      ¬ ModeUsesFreed s.toTables sptr parv := by
  cases target : modeTarget s.toTables parv with
  | none =>
    refine iff_of_true (mMode_reply target cptr sptr).2 ?_
    rintro ⟨modes, ⟨c, some, -⟩, -⟩
    rw [target] at some
    cases some
  | some p =>
    obtain ⟨c, modes⟩ := p
    rw [mMode_target target, setChannelMode_uses sound (listed_of_modeTarget sound target)]
    obtain ⟨oper, -, reads⟩ | ⟨other, none⟩ := modeRun_destroyed sound routed target
    · have calm := not_congr reads
      rw [ne_eq, not_not] at calm
      rw [calm]
      apply not_congr
      constructor
      · exact fun uses => ⟨modes, oper, uses⟩
      · rintro ⟨modes', oper', uses⟩
        exact modes_of_target target oper' ▸ uses
    · refine iff_of_true ((ModeLoop.Kept.modeRun _ modes).calm none) ?_
      rintro ⟨modes', oper, -⟩
      exact other (modes_of_target target oper ▸ oper)

theorem keeps_of_edit {t t' : Tables} (edit : t.Sound → Tables.Edit t t' ∧ t'.nextChan = t.nextChan) :
    t.Keeps t' :=
  ⟨fun sound => sound.edit (edit sound).1,
    fun sound settled c => sound.settled_step (edit sound).1 (edit sound).2 (settled c)⟩

theorem keeps_mMode {cptr sptr : ClientId} (routed : Routed s.toTables cptr sptr)
    {parv : List CStr} (safe : ¬ ModeFreesTwice s.toTables sptr parv) :
    s.toTables.Keeps (mMode s cptr sptr parv).toTables := by
  cases target : modeTarget s.toTables parv with
  | none =>
    rw [(mMode_reply target cptr sptr).1]
    exact ⟨id, fun _ => id⟩
  | some p =>
    obtain ⟨c, modes⟩ := p
    rw [mMode_target target]
    refine keeps_of_edit fun sound => ?_
    apply edit_setChannelMode sound (listed_of_modeTarget sound target)
    obtain ⟨oper, once, -⟩ | ⟨-, none⟩ := modeRun_destroyed sound routed target
    · rw [once]
      exact Nat.le_of_not_lt fun twice => safe ⟨modes, oper, twice⟩
    · omega

theorem keeps_connect {t : Tables} {u : ClientId} {cl : Client} (unused : Unused t u cl) :
    t.Keeps (t.addClient u cl) := by
  have roster : t.Sound → (t.addClient u cl).roster = t.roster := by
    intro sound
    have channel := sound.outside u unused.user
    have joined : (t.client u).joined = 0 := by
      have counted := sound.mirror.joined_eq u
      simpa [Tables.roster, channel] using counted
    exact Tables.roster_setClient (unused.channel.trans channel.symm)
      (unused.joined.trans joined.symm)
  have keeps : t.Sound → t.Keeps (t.addClient u cl) := by
    intro sound
    refine .directory (roster sound) rfl rfl rfl (fun _ v nobody => ?_) (fun _ v => ?_)
    · by_cases here : v = u
      · subst here
        simpa [Tables.addClient] using unused.channel
      · simp only [Tables.addClient, Function.update_of_ne here] at nobody ⊢
        exact sound.outside v nobody
    · by_cases here : v = u
      · subst here
        simp only [Tables.addClient, Function.update_self]
        exact ⟨unused.proper.person, unused.proper.oper⟩
      · simpa [Tables.addClient, here] using sound.proper v
  exact ⟨fun sound => (keeps sound).sound sound, fun sound => (keeps sound).settled sound⟩

theorem keeps_rename {t : Tables} (u : ClientId) {nick : CStr} (named : nick ≠ []) :
    t.Keeps (t.setClient u { t.client u with name := nick }) := by
  refine .directory (Tables.roster_setClient rfl rfl) rfl rfl rfl (fun sound v nobody => ?_)
    (fun sound v => ?_)
  · by_cases here : v = u
    · subst here
      have before : (t.client v).user = false := by simpa [Tables.setClient] using nobody
      simpa [Tables.setClient] using sound.outside v before
    · simp only [Tables.setClient, Function.update_of_ne here] at nobody ⊢
      exact sound.outside v nobody
  · by_cases here : v = u
    · subst here
      have before := sound.proper v
      simp only [Tables.setClient, Function.update_self]
      exact ⟨fun user => ⟨(before.person user).1, named⟩, before.oper⟩
    · simpa [Tables.setClient, here] using sound.proper v

def Event.Orphans (e : Event) (s : Server) : Prop :=
  match e with
  | .command .sjoin cptr sptr parv => SjoinOrphans s.toTables cptr sptr parv
  | _ => False

def Event.Unjupes (e : Event) (s : Server) : Prop :=
  match e with
  | .rehash old new => ¬ s.Rejuped old new
  | _ => False

theorem sound_event (sound : s.Sound) {e : Event} (comes : e.Comes s.toTables)
    (safe : ¬ e.WritesFreed s) : (s.event e).Sound := by
  cases e with
  | connect u cl => exact (keeps_connect comes).sound sound
  | rename u nick => exact (keeps_rename u comes).sound sound
  | tick now =>
    have keeps : s.toTables.Keeps { s.toTables with currentTime := now } :=
      .directory rfl rfl rfl rfl (fun sound => sound.outside) (fun sound => sound.proper)
    exact keeps.sound sound
  | split split =>
    have keeps : s.toTables.Keeps (s.toTables.setSplit split) :=
      .directory rfl rfl rfl rfl (fun sound => sound.outside) (fun sound => sound.proper)
    exact keeps.sound sound
  | command cmd cptr sptr parv =>
    cases cmd with
    | join => exact (tidy_mJoin sound cptr sptr parv safe).sound sound
    | part => exact (tidy_mPart sound cptr sptr parv).sound sound
    | kick => exact (tidy_mKick sound cptr sptr parv).sound sound
    | sjoin => exact (clean_mSjoin sound cptr sptr parv).1.sound sound
    | mode => exact (keeps_mMode comes safe).sound sound
  | exit cptr sptr killed comment =>
    exact (keeps_exitOneClient s cptr sptr killed comment).sound sound
  | rehash old new => exact sound.rehashJupes old new

theorem settled_event (sound : s.Sound) {e : Event} (comes : e.Comes s.toTables)
    (safe : ¬ e.WritesFreed s) (peopled : ¬ e.Orphans s) (rejuped : ¬ e.Unjupes s)
    (settled : ∀ c, s.Settled c) : ∀ c, (s.event e).Settled c := by
  cases e with
  | connect u cl => exact (keeps_connect comes).settled sound settled
  | rename u nick => exact (keeps_rename u comes).settled sound settled
  | tick now => exact settled
  | split split => exact settled
  | command cmd cptr sptr parv =>
    cases cmd with
    | join => exact fun c => (tidy_mJoin sound cptr sptr parv safe).settled c (settled c)
    | part => exact fun c => (tidy_mPart sound cptr sptr parv).settled c (settled c)
    | kick => exact fun c => (tidy_mKick sound cptr sptr parv).settled c (settled c)
    | sjoin => exact fun c => ((clean_mSjoin sound cptr sptr parv).2 peopled).settled c (settled c)
    | mode => exact (keeps_mMode comes safe).settled sound settled
  | exit cptr sptr killed comment =>
    exact (keeps_exitOneClient s cptr sptr killed comment).settled sound settled
  | rehash old new =>
    exact sound.settled_rehashJupes (Classical.not_not.1 rejuped) settled

theorem sound_startUp (name : CStr) (now : Int) : (startUp name now).Sound := by
  have groups : ∀ u, ((startUp name now).client u).channel = [] := by
    intro u
    by_cases here : u = 0 <;> simp [startUp, here, Client.zero]
  have joined : ∀ u, ((startUp name now).client u).joined = 0 := by
    intro u
    by_cases here : u = 0 <;> simp [startUp, here, Client.zero]
  have empty : ∀ c, ((startUp name now).chan c).memberIds = [] := fun _ => rfl
  refine ⟨?_, ?_, ?_, ?_, fun _ _ => rfl, fun u _ => groups u, fun u => ?_⟩
  · refine ⟨fun u c => ?_, fun c => ?_, fun u => ?_, fun c => rfl, fun u => ?_, fun u c => ?_, ?_,
      fun h => ?_, fun h c => ?_, rfl⟩
    · show u ∈ ((startUp name now).chan c).memberIds ↔ c ∈ ((startUp name now).client u).channel
      rw [groups, empty]
      simp
    · exact List.nodup_nil
    · show ((startUp name now).client u).channel.Nodup
      rw [groups]
      exact List.nodup_nil
    · show ((startUp name now).client u).joined = (((startUp name now).client u).channel.length : Int)
      rw [joined, groups]
      rfl
    · intro absurdity
      cases absurdity
    · exact List.nodup_nil
    · exact List.nodup_nil
    · constructor
      · intro absurdity
        cases absurdity
      · rintro ⟨absurdity, -⟩
        cases absurdity
  · intro c absurdity
    cases absurdity
  · intro c absurdity
    cases absurdity
  · intro c absurdity
    cases absurdity
  · by_cases here : u = 0
    · subst here
      exact ⟨fun absurdity => (Bool.false_ne_true absurdity).elim,
        fun absurdity => (Bool.false_ne_true absurdity).elim⟩
    · refine ⟨fun user => ?_, fun oper => ?_⟩
      · simp [startUp, here, Client.zero, Client.identity] at user
      · simp [startUp, here, Client.zero, Client.identity] at oper

def Step (s : Server) (e : Event) : Prop := e.Comes s.toTables ∧ ¬ e.WritesFreed s

theorem sound_run {es : List Event} {name : CStr} {now : Int}
    (steps : machine.Meets Step (startUp name now) es) {pre : List Event} (inside : pre <+: es) :
    (machine.run (startUp name now) pre).Sound :=
  steps.always (fun _ _ sound step => sound_event sound step.1 step.2) (sound_startUp name now)
    inside

end Ircd
