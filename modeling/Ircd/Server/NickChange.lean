import Ircd.Server.NameRuns
import Ircd.Server.Umode
import Ircd.Server.Whowas

/-! A change of the nick, with all that it leaves behind: the timestamp, the modes, the
history, the flood counter, and what the other servers were told.

The name tables keep their own account of `m_nick`; here the same steps are taken with the
other fields. `told` is the timestamp in the last line about a user that went down a link.
-/

set_option autoImplicit false

namespace Ircd

def maxNickTime : Int := 20

def maxNickChanges : Int := 5

namespace ClientNames

/-- How far a NICK gets: the clients that leave, and the call of `nickkilldone` if any. -/
inductive NickGate where
  | stop (gone : List ClientId)
  | go (gone : List ClientId) (newts : Int) (nick : CStr)
  deriving DecidableEq, Repr

def exits (t : ClientNames) (gone : List ClientId) : ClientNames := gone.foldl exitOneClient t

/-- `m_nick` once the nick is clean, up to `nickkilldone`. -/
def takeGate (t : ClientNames) (cptr sptr : ClientId) (parv : List CStr) (newts : Int)
    (fromTs : Bool) (nick : CStr) (v : NickVerdict) : NickGate :=
  match t.hashFindServer nick with
  | some _ => .stop (if (t.client sptr).localFlag then [] else v.behind ++ [sptr])
  | none =>
    match t.hashFindClient nick with
    | none => .go [] newts nick
    | some acptr =>
      if acptr = sptr then if t.nameOf acptr ≠ nick then .go [] newts nick else .stop []
      else
        match nickCollision (t.client acptr) (t.client sptr) (t.client cptr) newts fromTs parv with
        | .ignore => .stop []
        | .killOld => .stop [acptr]
        | .killNew => .stop [sptr]
        | .killBoth => .stop [acptr, sptr]
        | .replace => .go [acptr] newts nick

def nickGate (t : ClientNames) (cptr sptr : ClientId) (parv : List CStr) (v : NickVerdict) :
    NickGate :=
  if parv.length < 2 then .stop []
  else
    let (newts, parc) := nickTs (t.client sptr) (t.client cptr) parv
    let host := parv.getD 6 []
    if (t.client sptr).isServer ∧ parc < 9 then .stop []
    else if 7 ≤ parc ∧ '.' ∉ host ∧ ':' ∉ host then .stop []
    else
      let parv1 := parv.getD 1 []
      let parv1 := if (t.client sptr).localFlag then parv1.takeWhile (· ≠ '~') else parv1
      let nick := cleanNickName (strncpyIrc parv1 nickLen)
      if nick = [] ∨ (t.client cptr).isServer ∧ nick ≠ parv1 then
        .stop (if (t.client cptr).isServer ∧ sptr ≠ cptr then v.behind ++ [sptr] else [])
      else if (t.client sptr).localFlag ∧ !(t.client sptr).isServer ∧ v.quarantined then .stop []
      else t.takeGate cptr sptr parv newts (6 < parc) nick v

theorem mNick_eq (t : ClientNames) (cptr sptr : ClientId) (parv : List CStr) (v : NickVerdict) :
    t.mNick cptr sptr parv v =
      match t.nickGate cptr sptr parv v with
      | .stop gone => t.exits gone
      | .go gone newts nick => (t.exits gone).nickkilldone cptr sptr parv newts nick v := by
  -- the part from the look-ups on has its own gate
  have taken : ∀ newts fromTs nick, t.takeNick cptr sptr parv newts fromTs nick v =
      match t.takeGate cptr sptr parv newts fromTs nick v with
      | .stop gone => t.exits gone
      | .go gone newts nick => (t.exits gone).nickkilldone cptr sptr parv newts nick v := by
    intro newts fromTs nick
    unfold takeNick takeGate
    cases t.hashFindServer nick with
    | some _ => cases (t.client sptr).localFlag <;> rfl
    | none =>
      cases t.hashFindClient nick with
      | none => rfl
      | some acptr =>
        dsimp only
        split
        · split
          · rfl
          · rfl
        · cases nickCollision (t.client acptr) (t.client sptr) (t.client cptr) newts fromTs parv <;>
            rfl
  unfold mNick nickGate
  split
  · rfl
  · dsimp only
    split
    · rfl
    · split
      · rfl
      · generalize (if (t.client sptr).localFlag = true then (parv.getD 1 []).takeWhile (· ≠ '~')
          else parv.getD 1 []) = parv1
        split
        · split <;> rfl
        · split
          · rfl
          · exact taken _ _ _

def Link (t : ClientNames) (link : ClientId) : Prop :=
  link ∈ t.globalClientList ∧ (t.client link).isServer ∧ (t.client link).localFlag

instance (t : ClientNames) (link : ClientId) : Decidable (t.Link link) :=
  inferInstanceAs (Decidable (_ ∧ _ ∧ _))

def LocalPerson (t : ClientNames) (u : ClientId) : Prop :=
  u ∈ t.globalClientList ∧ (t.client u).localFlag ∧ (t.client u).status = .client

instance (t : ClientNames) (u : ClientId) : Decidable (t.LocalPerson u) :=
  inferInstanceAs (Decidable (_ ∧ _ ∧ _))

end ClientNames

structure NickNet extends NameTables where
  umodes : ClientId → Umodes
  lastNickChange : ClientId → Int
  numberOfNickChanges : ClientId → Int
  whowas : List Whowas
  /-- By link and user. -/
  told : ClientId → ClientId → Option Int

namespace NickNet

def editNames (s : NickNet) (f : ClientNames → ClientNames) : NickNet :=
  { s with toNameTables := s.toNameTables.editClients f }

/-- `sendto_serv_butone` with the timestamp of `sptr`. -/
def tellServers (s : NickNet) (cptr sptr : ClientId) : NickNet :=
  { s with told := fun link v =>
      if v = sptr ∧ s.Link link ∧ link ≠ cptr then some (s.client sptr).tsinfo
      else s.told link v }

def burst (s : NickNet) (cptr : ClientId) : NickNet :=
  { s with told := fun link v =>
      if link = cptr ∧ v ∈ s.globalClientList ∧ (s.client v).isPerson then
        some (s.client v).tsinfo
      else s.told link v }

/-- `release_client_state`, as far as the history. -/
def release (s : NickNet) (u : ClientId) : NickNet :=
  if u ∈ s.globalClientList ∧ (s.client u).isPerson then
    { s with whowas := History.off (History.add s.whowas s.currentTime u (s.nameOf u) false) u }
  else s

def exitOneClient (s : NickNet) (u : ClientId) : NickNet :=
  if (s.client u).status = .me then s else (s.release u).editNames (·.exitOneClient u)

def exits (s : NickNet) (gone : List ClientId) : NickNet := gone.foldl exitOneClient s

/-- `register_user`; a user of ours is made invisible. -/
def registerUser (s : NickNet) (cptr sptr : ClientId) : Registration → NickNet
  | .refused => s.exitOneClient sptr
  | .held => s
  | .accepted =>
    let s := s.editNames (·.registerUser sptr .accepted)
    let s :=
      if (s.client sptr).localFlag then
        let umodes := Function.update (s.umodes sptr) .invisible true
        { s with umodes := Function.update s.umodes sptr umodes }
      else s
    s.tellServers cptr sptr

def doUser (s : NickNet) (cptr sptr : ClientId) (username host : CStr) (outcome : Registration) :
    NickNet :=
  let s := s.editNames fun t => t.setClient sptr { t.client sptr with user := true }
  if !(s.client sptr).localFlag then
    let s := s.editNames fun t => t.setClient sptr { t.client sptr with
      username := strncpyIrc username userLen
      host := strncpyIrc host hostLen }
    s.registerUser cptr sptr outcome
  else if (s.client sptr).status ≠ .unknown then s
  else if s.nameOf sptr ≠ [] then s.registerUser cptr sptr outcome
  else s.editNames fun t =>
    t.setClient sptr { t.client sptr with username := strncpyIrc username userLen }

def introduceNick (s : NickNet) (cptr : ClientId) (parv : List CStr) (newts : Int) (nick : CStr)
    (outcome : Registration) : NickNet :=
  let u := s.nextClient
  let s := s.editNames (·.makeClient (some cptr))
  let s := s.editNames fun t => t.setClient u { t.client u with
    name := nick
    tsinfo := if newts = 0 then t.currentTime else newts }
  let s := s.editNames (·.addToClientHashTable nick u)
  let modes := (parv.getD 4 []).tail.filterMap umodeOfLetter
  let umodes : Umodes := fun flag => modes.contains flag && sendUmodes flag
  let s := { s with umodes := Function.update s.umodes u umodes }
  s.doUser cptr u (parv.getD 5 []) (parv.getD 6 []) outcome

def countChange (s : NickNet) (sptr : ClientId) : Int :=
  (if s.lastNickChange sptr + maxNickTime < s.currentTime then 0
    else s.numberOfNickChanges sptr) + 1

def announce (s : NickNet) (cptr sptr : ClientId) : NickNet :=
  if (s.client sptr).user then
    { s with whowas := History.add s.whowas s.currentTime sptr (s.nameOf sptr) true }.tellServers
      cptr sptr
  else s

def nickkilldone (s : NickNet) (cptr sptr : ClientId) (parv : List CStr) (newts : Int)
    (nick : CStr) (v : ClientNames.NickVerdict) : NickNet :=
  let cl := s.client sptr
  if cl.isServer then s.introduceNick cptr parv newts nick v.outcome
  else if cl.name ≠ [] then
    let tsinfo := if newts = 0 then s.currentTime else newts
    let s :=
      if irccmp (parv.getD 0 []) nick = .eq then s
      else s.editNames (·.setClient sptr { cl with tsinfo := tsinfo })
    if cl.localFlag ∧ cl.status = .client then
      let number := s.countChange sptr
      let s := { s with
        lastNickChange := Function.update s.lastNickChange sptr s.currentTime
        numberOfNickChanges := Function.update s.numberOfNickChanges sptr number }
      if number ≤ maxNickChanges then (s.announce cptr sptr).editNames (·.setNick sptr nick)
      else s
    else (s.announce cptr sptr).editNames (·.setNick sptr nick)
  else
    let s := s.editNames fun t => t.setClient sptr { cl with name := nick, tsinfo := t.currentTime }
    if !cl.user then s.editNames (·.setNick sptr nick)
    else if v.outcome = .refused then s.registerUser cptr sptr .refused
    else (s.registerUser cptr sptr v.outcome).editNames (·.setNick sptr nick)

def mNick (s : NickNet) (cptr sptr : ClientId) (parv : List CStr) (v : ClientNames.NickVerdict) :
    NickNet :=
  match s.nickGate cptr sptr parv v with
  | .stop gone => s.exits gone
  | .go gone newts nick => (s.exits gone).nickkilldone cptr sptr parv newts nick v

/-- What leaves with a SERVER goes into the history; a connection that became a link gets
the burst. -/
def mServer (s : NickNet) (cptr sptr : ClientId) (parv : List CStr) (adm : Admission)
    (v : ClientNames.ServerVerdict) : NickNet :=
  let t := s.toClientNames.mServer cptr sptr parv adm v
  let s := (s.globalClientList.filter (· ∉ t.globalClientList)).foldl release s
  let was := (s.client cptr).isServer
  let s := s.editNames fun _ => t
  if !was ∧ (s.client cptr).isServer ∧ (s.client cptr).localFlag then s.burst cptr else s

def step (s : NickNet) : NameEvent → NickNet
  | .nick cptr sptr parv v =>
    if s.ComesFrom cptr sptr then s.mNick cptr sptr (s.senderFirst sptr parv) v else s
  | .user sptr username host outcome =>
    let cptr := (s.client sptr).from_
    if s.ComesFrom cptr sptr then s.doUser cptr sptr username host outcome else s
  | .server cptr sptr parv adm v =>
    if s.ComesFrom cptr sptr then s.mServer cptr sptr parv adm v else s
  | .exit u behind => s.exits (behind ++ [u])
  | e => { s with toNameTables := s.toNameTables.step e }

end NickNet

def nickMachine : Machine NickNet NameEvent := { step := NickNet.step }

namespace NickNet

variable {s s' s'' : NickNet} {cptr sptr u v : ClientId}

@[simp] theorem release_toNameTables (s : NickNet) (u : ClientId) :
    (s.release u).toNameTables = s.toNameTables := by
  unfold release
  split <;> rfl

theorem exitOneClient_names (s : NickNet) (u : ClientId) :
    (s.exitOneClient u).toClientNames = s.toClientNames.exitOneClient u := by
  unfold exitOneClient
  split
  · next isMe => rw [ClientNames.exitOneClient, if_pos isMe]
  · simp [editNames, NameTables.editClients]

theorem exits_names (s : NickNet) (gone : List ClientId) :
    (s.exits gone).toClientNames = s.toClientNames.exits gone := by
  induction gone generalizing s with
  | nil => rfl
  | cons u gone ih =>
    have rest := ih (s.exitOneClient u)
    rw [exitOneClient_names] at rest
    exact rest

theorem registerUser_names (s : NickNet) (cptr sptr : ClientId) (outcome : Registration) :
    (s.registerUser cptr sptr outcome).toClientNames = s.toClientNames.registerUser sptr outcome := by
  cases outcome with
  | refused => exact exitOneClient_names s sptr
  | held => rfl
  | accepted =>
    unfold registerUser
    dsimp only
    split <;> rfl

theorem ite_names {p : Prop} [Decidable p] {t t' : ClientNames} (h : s.toClientNames = t)
    (h' : s'.toClientNames = t') : (if p then s else s').toClientNames = if p then t else t' := by
  split
  · exact h
  · exact h'

theorem doUser_names (s : NickNet) (cptr sptr : ClientId) (username host : CStr)
    (outcome : Registration) :
    (s.doUser cptr sptr username host outcome).toClientNames =
      s.toClientNames.doUser sptr username host outcome := by
  have registers := fun s : NickNet => registerUser_names s cptr sptr outcome
  exact ite_names (registers _) (ite_names rfl (ite_names (registers _) rfl))

theorem introduceNick_names (s : NickNet) (cptr : ClientId) (parv : List CStr) (newts : Int)
    (nick : CStr) (outcome : Registration) :
    (s.introduceNick cptr parv newts nick outcome).toClientNames =
      s.toClientNames.introduceNick cptr parv newts nick outcome := by
  unfold introduceNick ClientNames.introduceNick
  dsimp only
  rw [doUser_names]
  rfl

def tooFast (s : NickNet) (sptr : ClientId) : Bool := decide (maxNickChanges < s.countChange sptr)

theorem announce_toNameTables (s : NickNet) (cptr sptr : ClientId) :
    (s.announce cptr sptr).toNameTables = s.toNameTables := by
  unfold announce
  split <;> rfl

theorem nickkilldone_names (s : NickNet) (cptr sptr : ClientId) (parv : List CStr) (newts : Int)
    (nick : CStr) (v : ClientNames.NickVerdict) :
    (s.nickkilldone cptr sptr parv newts nick v).toClientNames =
      s.toClientNames.nickkilldone cptr sptr parv newts nick
        { v with tooFast := s.tooFast sptr } := by
  -- neither a line to the servers nor the history touches the tables
  have changed : ∀ s : NickNet, ((s.announce cptr sptr).editNames (·.setNick sptr nick)).toClientNames =
      s.toClientNames.setNick sptr nick := by
    intro s
    rw [editNames, announce_toNameTables]
    rfl
  have stamped : ∀ ts : Int, (if irccmp (parv.getD 0 []) nick = .eq then s
      else s.editNames (·.setClient sptr { s.client sptr with tsinfo := ts })).toClientNames =
      if irccmp (parv.getD 0 []) nick = .eq then s.toClientNames
      else s.toClientNames.setClient sptr { s.client sptr with tsinfo := ts } :=
    fun ts => ite_names rfl rfl
  unfold nickkilldone ClientNames.nickkilldone
  dsimp only
  refine ite_names (introduceNick_names ..) (ite_names ?_ ?_)
  · have ts := stamped (if newts = 0 then s.currentTime else newts)
    have same : (if irccmp (parv.getD 0 []) nick = .eq then s else s.editNames (·.setClient sptr
        { s.client sptr with tsinfo := if newts = 0 then s.currentTime else newts })).countChange
          sptr = s.countChange sptr := by
      split <;> rfl
    generalize (if irccmp (parv.getD 0 []) nick = .eq then s else s.editNames (·.setClient sptr
        { s.client sptr with tsinfo := if newts = 0 then s.currentTime else newts })) = m at ts same ⊢
    rw [← ts, same]
    -- only a registered user of ours is counted
    by_cases mine : (s.client sptr).localFlag = true ∧ (s.client sptr).status = .client
    · rw [if_pos mine]
      by_cases slow : s.countChange sptr ≤ maxNickChanges
      · rw [if_pos slow, if_neg (by simp [tooFast, slow])]
        exact changed _
      · rw [if_neg slow, if_pos ⟨mine.1, mine.2, by simpa [tooFast] using slow⟩]
    · rw [if_neg mine, if_neg fun all => mine ⟨all.1, all.2.1⟩]
      exact changed _
  · refine ite_names rfl (ite_names (registerUser_names ..) ?_)
    rw [editNames, NameTables.editClients]
    exact congrArg (fun t => t.setNick sptr nick) (registerUser_names ..)

theorem countChange_exits (s : NickNet) (sptr : ClientId) (gone : List ClientId) :
    (s.exits gone).countChange sptr = s.countChange sptr := by
  induction gone generalizing s with
  | nil => rfl
  | cons u gone ih =>
    refine (ih (s.exitOneClient u)).trans ?_
    unfold exitOneClient release
    split
    · rfl
    · split <;> simp only [countChange, editNames, NameTables.editClients,
        ClientNames.exitOneClient] <;> split <;> rfl

/-- The flood counter answers what the name tables ask for. -/
theorem mNick_names (s : NickNet) (cptr sptr : ClientId) (parv : List CStr)
    (v : ClientNames.NickVerdict) :
    (s.mNick cptr sptr parv v).toClientNames =
      s.toClientNames.mNick cptr sptr parv { v with tooFast := s.tooFast sptr } := by
  have gate : s.nickGate cptr sptr parv { v with tooFast := s.tooFast sptr } =
      s.nickGate cptr sptr parv v := rfl
  rw [ClientNames.mNick_eq, gate, mNick]
  cases s.nickGate cptr sptr parv v with
  | stop gone => exact exits_names s gone
  | go gone newts nick =>
    dsimp only
    rw [nickkilldone_names, exits_names, tooFast, tooFast, countChange_exits]

theorem released (gone : List ClientId) (s : NickNet) :
    (gone.foldl release s).toNameTables = s.toNameTables ∧ (gone.foldl release s).told = s.told := by
  induction gone generalizing s with
  | nil => exact ⟨rfl, rfl⟩
  | cons u gone ih =>
    obtain ⟨tables, told⟩ := ih (s.release u)
    refine ⟨tables.trans (release_toNameTables s u), told.trans ?_⟩
    unfold release
    split <;> rfl

theorem mServer_names (s : NickNet) (cptr sptr : ClientId) (parv : List CStr) (adm : Admission)
    (v : ClientNames.ServerVerdict) :
    (s.mServer cptr sptr parv adm v).toNameTables =
      s.toNameTables.editClients (·.mServer cptr sptr parv adm v) := by
  have written : ∀ gone : List ClientId, ((gone.foldl release s).editNames fun _ =>
      s.toClientNames.mServer cptr sptr parv adm v).toNameTables =
        s.toNameTables.editClients (·.mServer cptr sptr parv adm v) := by
    intro gone
    unfold editNames
    rw [(released gone s).1]
    rfl
  unfold mServer
  dsimp only
  split
  · exact written _
  · exact written _

theorem exits_channels (s : NickNet) (gone : List ClientId) :
    (s.exits gone).toChannelNames = s.toChannelNames := by
  induction gone generalizing s with
  | nil => rfl
  | cons u gone ih =>
    refine (ih (s.exitOneClient u)).trans ?_
    unfold exitOneClient
    split
    · rfl
    · rw [editNames, release_toNameTables]
      rfl

theorem registerUser_channels (s : NickNet) (cptr sptr : ClientId) (outcome : Registration) :
    (s.registerUser cptr sptr outcome).toChannelNames = s.toChannelNames := by
  cases outcome with
  | refused => exact exits_channels s [sptr]
  | held => rfl
  | accepted =>
    unfold registerUser
    dsimp only
    split <;> rfl

theorem ite_channels {p : Prop} [Decidable p] {c : ChannelNames} (h : s.toChannelNames = c)
    (h' : s'.toChannelNames = c) : (if p then s else s').toChannelNames = c := by
  split
  · exact h
  · exact h'

theorem doUser_channels (s : NickNet) (cptr sptr : ClientId) (username host : CStr)
    (outcome : Registration) :
    (s.doUser cptr sptr username host outcome).toChannelNames = s.toChannelNames :=
  ite_channels (registerUser_channels ..)
    (ite_channels rfl (ite_channels (registerUser_channels ..) rfl))

theorem nickkilldone_channels (s : NickNet) (cptr sptr : ClientId) (parv : List CStr)
    (newts : Int) (nick : CStr) (v : ClientNames.NickVerdict) :
    (s.nickkilldone cptr sptr parv newts nick v).toChannelNames = s.toChannelNames := by
  have changed : ∀ s : NickNet,
      ((s.announce cptr sptr).editNames (·.setNick sptr nick)).toChannelNames = s.toChannelNames := by
    intro s
    rw [editNames, announce_toNameTables]
    rfl
  have stamped : ∀ ts : Int, (if irccmp (parv.getD 0 []) nick = .eq then s
      else s.editNames (·.setClient sptr { s.client sptr with tsinfo := ts })).toChannelNames =
        s.toChannelNames := fun _ => ite_channels rfl rfl
  unfold nickkilldone
  dsimp only
  refine ite_channels (doUser_channels ..) (ite_channels ?_ ?_)
  · refine ite_channels (ite_channels ((changed _).trans (stamped _)) (stamped _)) ?_
    exact (changed _).trans (stamped _)
  · refine ite_channels rfl (ite_channels (registerUser_channels ..) ?_)
    exact registerUser_channels (s.editNames _) cptr sptr v.outcome

theorem mNick_channels (s : NickNet) (cptr sptr : ClientId) (parv : List CStr)
    (v : ClientNames.NickVerdict) :
    (s.mNick cptr sptr parv v).toChannelNames = s.toChannelNames := by
  unfold mNick
  split
  · exact exits_channels s _
  · exact (nickkilldone_channels ..).trans (exits_channels s _)

/-- The event as the name tables see it: the flood counter has given its verdict. -/
def counted (s : NickNet) : NameEvent → NameEvent
  | .nick cptr sptr parv v => .nick cptr sptr parv { v with tooFast := s.tooFast sptr }
  | e => e

/-- One step here is one step of the name tables. -/
theorem step_toNameTables (s : NickNet) (e : NameEvent) :
    (s.step e).toNameTables = s.toNameTables.step (s.counted e) := by
  -- each side of the tables is compared on its own
  have tables : ∀ {t t' : NameTables}, t.toClientNames = t'.toClientNames →
      t.toChannelNames = t'.toChannelNames → t = t' := by
    rintro ⟨clients, channels⟩ ⟨clients', channels'⟩ rfl rfl
    rfl
  cases e with
  | nick cptr sptr parv v =>
    simp only [step, counted, NameTables.step]
    split
    · exact tables (mNick_names s cptr sptr (s.senderFirst sptr parv) v) (mNick_channels ..)
    · rfl
  | user sptr username host outcome =>
    simp only [step, counted, NameTables.step]
    split
    · exact tables (doUser_names s (s.client sptr).from_ sptr username host outcome)
        (doUser_channels ..)
    · rfl
  | server cptr sptr parv adm v =>
    simp only [step, counted, NameTables.step]
    split
    · exact mServer_names s cptr sptr parv adm v
    · rfl
  | exit u behind => exact tables (exits_names s (behind ++ [u])) (exits_channels s _)
  | accept | pass | connectServer | completed | getChannel | jupe | addUser | sub1 | tick => rfl

/-- While SERVER writes over no name that is in the table, the table that `m_nick` asks is a
map. -/
theorem filed_of_run {es : List NameEvent} (filed : s.toNameTables.Filed)
    (anew : nickMachine.Meets (fun s e => s.NamesAnew e) s es) :
    (nickMachine.run s es).toNameTables.Filed := by
  refine anew.keeps (I := fun s => s.toNameTables.Filed) (fun s e filed anew => ?_) filed
  -- the verdict on the flood is no part of what SERVER is asked
  have same : s.NamesAnew (s.counted e) := by
    cases e <;> exact anew
  show (s.step e).toNameTables.Filed
  rw [step_toNameTables]
  exact filed.step same

/-- What `m_nick` decides before it lets a change through: a name and, of the clients that
had it, at most some that are no users yet. -/
structure LetsThrough (t : ClientNames) (sptr : ClientId) (gone : List ClientId) (nick : CStr) :
    Prop where
  given : nick ≠ []
  others : ∀ a ∈ gone, a ≠ sptr

theorem nickGate_go {t : ClientNames} {parv : List CStr} {w : ClientNames.NickVerdict}
    {gone : List ClientId} {newts : Int} {nick : CStr}
    (goes : t.nickGate cptr sptr parv w = .go gone newts nick) :
    LetsThrough t sptr gone nick ∧ newts = (ClientNames.nickTs (t.client sptr) (t.client cptr) parv).1 ∧
      ((t.client cptr).isServer = false →
        ∀ a ∈ gone, (t.client a).status = .unknown) := by
  -- past the checks of the text, the look-ups decide
  have taken : ∀ ts fromTs name, name ≠ [] →
      t.takeGate cptr sptr parv ts fromTs name w = .go gone newts nick →
      LetsThrough t sptr gone nick ∧ newts = ts ∧
        ((t.client cptr).isServer = false → ∀ a ∈ gone, (t.client a).status = .unknown) := by
    intro ts fromTs name given goes
    unfold ClientNames.takeGate at goes
    split at goes
    · cases goes
    · split at goes
      · cases goes
        exact ⟨⟨given, nofun⟩, rfl, fun _ => nofun⟩
      · next acptr _ =>
        split at goes
        · split at goes
          · cases goes
            exact ⟨⟨given, nofun⟩, rfl, fun _ => nofun⟩
          · cases goes
        · next other =>
          split at goes
          · cases goes
          · cases goes
          · cases goes
          · cases goes
          · next replaced =>
            cases goes
            refine ⟨⟨given, fun a inside => ?_⟩, rfl, fun client a inside => ?_⟩
            · rw [List.mem_singleton.1 inside]
              exact other
            · rw [List.mem_singleton.1 inside]
              -- a collision with a registered client of ours never replaces it
              by_contra known
              unfold ClientNames.nickCollision at replaced
              simp [known, client] at replaced
  unfold ClientNames.nickGate at goes
  split at goes
  · cases goes
  · dsimp only at goes
    split at goes
    · cases goes
    · split at goes
      · cases goes
      · generalize (if (t.client sptr).localFlag = true then (parv.getD 1 []).takeWhile (· ≠ '~')
          else parv.getD 1 []) = parv1 at goes
        split at goes
        · cases goes
        · next clean =>
          split at goes
          · cases goes
          · exact taken _ _ _ (fun none => clean (.inl none)) goes

theorem nickGate_stop {t : ClientNames} {parv : List CStr} {w : ClientNames.NickVerdict}
    {gone : List ClientId} (person : t.LocalPerson u)
    (stops : t.nickGate u u parv w = .stop gone) : gone = [] := by
  obtain ⟨-, localFlag, status⟩ := person
  have notServer : (t.client u).isServer = false := by
    simp [NamedClient.isServer, status]
  have taken : ∀ name, t.takeGate u u parv 0 false name w = .stop gone → gone = [] := by
    intro name stops
    unfold ClientNames.takeGate at stops
    split at stops
    · rw [if_pos localFlag] at stops
      cases stops
      rfl
    · split at stops
      · cases stops
      · split at stops
        · split at stops
          · cases stops
          · cases stops
            rfl
        · next acptr _ other =>
          -- for a client of ours a nick in use is refused, and one half registered gives way
          have harmless : ClientNames.nickCollision (t.client acptr) (t.client u) (t.client u) 0
              false parv = .ignore ∨ ClientNames.nickCollision (t.client acptr) (t.client u)
              (t.client u) 0 false parv = .replace := by
            unfold ClientNames.nickCollision
            split
            · exact .inr rfl
            · simp [notServer]
          rcases harmless with same | same
          · rw [same] at stops
            cases stops
            rfl
          · rw [same] at stops
            cases stops
  unfold ClientNames.nickGate at stops
  split at stops
  · cases stops
    rfl
  · simp only [ClientNames.nickTs, notServer, Bool.not_false, Bool.false_eq_true, false_and,
      and_false, if_false] at stops
    split at stops
    · next absurd_ => simp at absurd_
    · generalize (if (t.client u).localFlag = true then (parv.getD 1 []).takeWhile (· ≠ '~')
        else parv.getD 1 []) = parv1 at stops
      split at stops
      · cases stops
        rfl
      · split at stops
        · cases stops
          rfl
        · exact taken _ stops

/-- Nothing is seen of the user `u` by which `s'` differs from `s`. -/
structure Traceless (u : ClientId) (s s' : NickNet) : Prop where
  client : s'.client u = s.client u
  entered : u ∈ s'.entered ↔ u ∈ s.entered
  /-- While the table is a map, a lookup goes on to find the user. -/
  found : ClientNames.ClientsKnown s.toClientNames → ∀ n,
    s.hashFindClient n = some u → s'.hashFindClient n = some u
  umodes : s'.umodes = s.umodes
  whowas : s'.whowas = s.whowas

theorem exitOneClient_client (s : NickNet) (u v : ClientId) :
    (s.exitOneClient u).client v = s.client v := by
  rw [exitOneClient_names]
  exact ClientNames.exitOneClient_client v

theorem exits_client (s : NickNet) (gone : List ClientId) (v : ClientId) :
    (s.exits gone).client v = s.client v := by
  induction gone generalizing s with
  | nil => rfl
  | cons u gone ih => exact (ih (s.exitOneClient u)).trans (exitOneClient_client s u v)

theorem exits_traceless {gone : List ClientId} (others : ∀ a ∈ gone, a ≠ u)
    (unknown : ∀ a ∈ gone, (s.client a).status = .unknown) : Traceless u s (s.exits gone) := by
  induction gone generalizing s with
  | nil => exact ⟨rfl, Iff.rfl, fun _ _ => id, rfl, rfl⟩
  | cons a gone ih =>
    have other : a ≠ u := others a List.mem_cons_self
    have status : (s.client a).status = .unknown := unknown a List.mem_cons_self
    have notMe : (s.client a).status ≠ .me := by
      rw [status]
      exact nofun
    have first : Traceless u s (s.exitOneClient a) := by
      -- what is no user yet leaves nothing in the history
      have noUser : ¬ (a ∈ s.globalClientList ∧ (s.client a).isPerson = true) := by
        rintro ⟨-, person⟩
        simp [NamedClient.isPerson, status] at person
      have released : s.release a = s := if_neg noUser
      have entered : (s.exitOneClient a).entered = s.entered.erase a := by
        rw [exitOneClient_names]
        exact ClientNames.exitOneClient_entered notMe
      refine ⟨exitOneClient_client s a u, ?_, ?_, ?_, ?_⟩
      · rw [entered, List.mem_erase_of_ne other.symm]
      · intro known n found
        -- a map finds exactly who is filed under the name, and that is still `u`
        obtain ⟨inside, equal⟩ := known.find_iff.1 found
        have after := (ClientNames.ClientsKnown.exitOneClient known a).find_iff (n := n) (u := u)
        rw [← exitOneClient_names] at after
        refine after.2 ⟨?_, ?_⟩
        · rw [entered]
          exact (List.mem_erase_of_ne other.symm).2 inside
        · rw [ClientNames.nameOf, exitOneClient_client]
          exact equal
      · rw [exitOneClient, if_neg notMe, released]
        rfl
      · rw [exitOneClient, if_neg notMe, released]
        rfl
    have rest := ih (s := s.exitOneClient a) (fun b inside => others b (List.mem_cons_of_mem a inside))
      fun b inside => by
        rw [exitOneClient_client]
        exact unknown b (List.mem_cons_of_mem a inside)
    refine ⟨rest.client.trans first.client, rest.entered.trans first.entered, ?_,
      rest.umodes.trans first.umodes, rest.whowas.trans first.whowas⟩
    intro known n found
    refine rest.found ?_ n (first.found known n found)
    rw [exitOneClient_names]
    exact ClientNames.ClientsKnown.exitOneClient known a

theorem exits_list {gone : List ClientId} (others : ∀ a ∈ gone, a ≠ u)
    (here : u ∈ s.globalClientList) : u ∈ (s.exits gone).globalClientList := by
  induction gone generalizing s with
  | nil => exact here
  | cons a gone ih =>
    refine ih (s := s.exitOneClient a) (fun b inside => others b (List.mem_cons_of_mem a inside)) ?_
    rw [exitOneClient_names]
    unfold ClientNames.exitOneClient
    split
    · exact here
    · exact (List.mem_erase_of_ne (others a List.mem_cons_self).symm).2 here

theorem exits_currentTime (s : NickNet) (gone : List ClientId) :
    (s.exits gone).currentTime = s.currentTime := by
  induction gone generalizing s with
  | nil => rfl
  | cons a gone ih =>
    refine (ih (s.exitOneClient a)).trans ?_
    rw [exitOneClient_names]
    unfold ClientNames.exitOneClient
    split <;> rfl

def gateOf (s : NickNet) (u : ClientId) (parv : List CStr) (w : ClientNames.NickVerdict) :
    ClientNames.NickGate :=
  s.nickGate u u (s.senderFirst u parv) w

/-- `m_nick` or the flood check turns the change down. -/
def Refused (s : NickNet) (u : ClientId) (parv : List CStr) (w : ClientNames.NickVerdict) : Prop :=
  match s.gateOf u parv w with
  | .stop _ => True
  | .go _ _ _ => maxNickChanges < s.countChange u

/-- The change gets as far as the flood check, which turns it down; it is more than a change
of case, and the clock has gone on since the last timestamp. -/
def Restamped (s : NickNet) (u : ClientId) (parv : List CStr) (w : ClientNames.NickVerdict) : Prop :=
  match s.gateOf u parv w with
  | .stop _ => False
  | .go _ _ nick => maxNickChanges < s.countChange u ∧ irccmp (s.nameOf u) nick ≠ .eq ∧
      (s.client u).tsinfo ≠ s.currentTime

instance (s : NickNet) (u : ClientId) (parv : List CStr) (w : ClientNames.NickVerdict) :
    Decidable (s.Refused u parv w) := by
  unfold Refused
  split <;> infer_instance

instance (s : NickNet) (u : ClientId) (parv : List CStr) (w : ClientNames.NickVerdict) :
    Decidable (s.Restamped u parv w) := by
  unfold Restamped
  split <;> infer_instance

theorem nickkilldone_tooFast {parv : List CStr} {nick : CStr} {w : ClientNames.NickVerdict}
    (person : s.LocalPerson u) (named : s.nameOf u ≠ [])
    (fast : maxNickChanges < s.countChange u) (sender : parv.getD 0 [] = s.nameOf u) :
    let s' := s.nickkilldone u u parv 0 nick w
    (∀ v, s'.client v = if v = u ∧ irccmp (s.nameOf u) nick ≠ .eq then
        { s.client u with tsinfo := s.currentTime } else s.client v) ∧
      s'.globalClientList = s.globalClientList ∧ s'.clientTable = s.clientTable ∧
      s'.nextClient = s.nextClient ∧ s'.entered = s.entered ∧ s'.umodes = s.umodes ∧
      s'.whowas = s.whowas ∧ s'.told = s.told := by
  obtain ⟨-, localFlag, status⟩ := person
  have notServer : (s.client u).isServer = false := by
    simp [NamedClient.isServer, status]
  intro s'
  have result : s' = s.nickkilldone u u parv 0 nick w := rfl
  unfold nickkilldone at result
  dsimp only at result
  rw [notServer, if_neg (by decide), if_pos (by exact named), sender, if_pos rfl] at result
  have mine : (s.client u).localFlag = true ∧ (s.client u).status = .client := ⟨localFlag, status⟩
  rw [if_pos mine] at result
  by_cases same : irccmp (s.nameOf u) nick = .eq
  · rw [if_pos same, if_neg (Int.not_le.2 fast)] at result
    rw [result]
    simp [same]
  · rw [if_neg same] at result
    have slow : ¬ (s.editNames (·.setClient u { s.client u with tsinfo := s.currentTime })).countChange
        u ≤ maxNickChanges := Int.not_le.2 fast
    rw [if_neg slow] at result
    rw [result]
    simp [same, editNames, NameTables.editClients, ClientNames.setClient, Function.update_apply]

theorem refused_traceless {parv : List CStr} {w : ClientNames.NickVerdict}
    (comes : s.ComesFrom u u) (person : s.LocalPerson u) (named : s.nameOf u ≠ [])
    (refused : s.Refused u parv w) :
    Traceless u s (s.step (.nick u u parv w)) ↔ ¬ s.Restamped u parv w := by
  have taken : s.step (.nick u u parv w) = s.mNick u u (s.senderFirst u parv) w := if_pos comes
  have notServer : (s.client u).isServer = false := by
    simp [NamedClient.isServer, person.2.2]
  have sender : (s.senderFirst u parv).getD 0 [] = s.nameOf u := by
    simp [ClientNames.senderFirst, person.2.1, notServer]
  rw [taken]
  unfold Refused Restamped gateOf at *
  unfold mNick
  cases gate : s.nickGate u u (s.senderFirst u parv) w with
  | stop gone =>
    rw [nickGate_stop person gate]
    simp only [not_false_eq_true, iff_true]
    exact ⟨rfl, Iff.rfl, fun _ _ => id, rfl, rfl⟩
  | go gone newts nick =>
    simp only [gate] at refused ⊢
    obtain ⟨through, ts, unknown⟩ := nickGate_go gate
    obtain rfl : newts = 0 := by
      rw [ts]
      simp [ClientNames.nickTs, notServer]
    -- `m_nick` may have removed half registered clients before the flood check
    have left := exits_traceless through.others (unknown notServer)
    have name : (s.exits gone).nameOf u = s.nameOf u := congrArg NamedClient.name left.client
    have person' : (s.exits gone).LocalPerson u := by
      refine ⟨exits_list through.others person.1, ?_⟩
      rw [left.client]
      exact person.2
    -- the only refusal behind `nickkilldone` is the flood check
    have fast := refused
    rw [← countChange_exits s u gone] at fast
    have result := @nickkilldone_tooFast _ _ _ nick w person' (by rwa [name]) fast
      (sender.trans name.symm)
    rw [name, left.client, exits_currentTime] at result
    generalize (s.exits gone).nickkilldone u u (s.senderFirst u parv) 0 nick w = s' at result ⊢
    obtain ⟨client, -, table, nextClient, entered, umodes, whowas, -⟩ := result
    have own := client u
    -- the new timestamp is the one trace, and it shows if the clock has moved on
    constructor
    · rintro traceless ⟨-, differ, late⟩
      rw [if_pos ⟨rfl, differ⟩, ← traceless.client] at own
      exact late (by rw [← traceless.client, own])
    · intro fine
      have same : s'.client u = s.client u := by
        rw [own]
        split
        · next stamped =>
          have now : (s.client u).tsinfo = s.currentTime := by
            by_contra late
            exact fine ⟨refused, stamped.2, late⟩
          rw [← now]
        · exact left.client
      refine ⟨same, by rw [entered, left.entered], ?_, umodes.trans left.umodes,
        whowas.trans left.whowas⟩
      intro known n found
      have before := left.found known n found
      -- a changed timestamp leaves the names, and look-ups read nothing else
      have names : ∀ v, s'.nameOf v = (s.exits gone).nameOf v := by
        intro v
        rw [ClientNames.nameOf, client v, ClientNames.nameOf]
        split
        · next this =>
          rw [this.1]
          exact name.symm
        · rfl
      unfold ClientNames.hashFindClient at before ⊢
      rw [table, nextClient]
      simp only [names]
      exact before

/-- In a run in which SERVER writes over no name, each lookup that finds a user goes on to
find it after a refusal. -/
theorem refused_found {es : List NameEvent} {parv : List CStr} {w : ClientNames.NickVerdict}
    (filed : s.toNameTables.Filed)
    (anew : nickMachine.Meets (fun s e => s.NamesAnew e) s es) (ran : nickMachine.run s es = s')
    (comes : s'.ComesFrom u u) (person : s'.LocalPerson u) (named : s'.nameOf u ≠ [])
    (refused : s'.Refused u parv w) (fine : ¬ s'.Restamped u parv w) (n : CStr)
    (found : s'.hashFindClient n = some u) :
    (s'.step (.nick u u parv w)).hashFindClient n = some u := by
  have traceless := (refused_traceless comes person named refused).2 fine
  have known := (filed_of_run filed anew).clients
  rw [ran] at known
  exact traceless.found known n found

/-- A client of ours comes from itself, and has a name and a `user` once it is registered. -/
structure Sane (s : NickNet) : Prop where
  itself : ∀ u, (s.client u).localFlag = true → (s.client u).from_ = u
  registered : ∀ u, (s.client u).localFlag = true → (s.client u).status = .client →
    (s.client u).user = true ∧ (s.client u).name ≠ []

structure Moves (x : ClientId) (s s' : NickNet) : Prop where
  list : ∀ v ∈ s'.globalClientList, v = x ∨ v ∈ s.globalClientList
  client : ∀ v, v ≠ x → s'.client v = s.client v
  told : ∀ link v, v ≠ x → s'.told link v = s.told link v
  itself : (s'.client x).localFlag = true → (s'.client x).from_ = x
  registered : (s'.client x).localFlag = true → (s'.client x).status = .client →
    (s'.client x).user = true ∧ (s'.client x).name ≠ []
  noLink : s'.Link x → s.Link x

variable {x : ClientId}

theorem Moves.sane (h : Moves x s s') (sane : Sane s) : Sane s' where
  itself := fun u mine => by
    by_cases this : u = x
    · subst this
      exact h.itself mine
    · rw [h.client u this] at mine ⊢
      exact sane.itself u mine
  registered := fun u mine status => by
    by_cases this : u = x
    · subst this
      exact h.registered mine status
    · rw [h.client u this] at mine status ⊢
      exact sane.registered u mine status

theorem Moves.trans (h : Moves x s s') (h' : Moves x s' s'') : Moves x s s'' where
  list := fun v inside => (h'.list v inside).elim .inl (h.list v)
  client := fun v other => (h'.client v other).trans (h.client v other)
  told := fun link v other => (h'.told link v other).trans (h.told link v other)
  itself := h'.itself
  registered := h'.registered
  noLink := fun link => h.noLink (h'.noLink link)

theorem Moves.of_client (sane : Sane s) (client : s'.client = s.client)
    (list : ∀ v ∈ s'.globalClientList, v ∈ s.globalClientList)
    (told : ∀ link v, v ≠ x → s'.told link v = s.told link v) : Moves x s s' where
  list := fun v inside => .inr (list v inside)
  client := fun v _ => by rw [client]
  told := told
  itself := by
    rw [client]
    exact sane.itself x
  registered := by
    rw [client]
    exact sane.registered x
  noLink := by
    rintro ⟨here, link⟩
    rw [client] at link
    exact ⟨list x here, link⟩

theorem Moves.refl (sane : Sane s) : Moves x s s := .of_client sane rfl (fun _ => id) fun _ _ _ => rfl

theorem Moves.write (sane : Sane s) {cl : NamedClient}
    (client : s'.client = Function.update s.client x cl)
    (list : s'.globalClientList = s.globalClientList) (told : s'.told = s.told)
    (localFlag : cl.localFlag = (s.client x).localFlag) (from_ : cl.from_ = (s.client x).from_)
    (registered : cl.localFlag = true → cl.status = .client → cl.user = true ∧ cl.name ≠ [])
    (server : cl.status = .server → (s.client x).status = .server) : Moves x s s' where
  list := fun v inside => by
    rw [list] at inside
    exact .inr inside
  client := fun v other => by rw [client, Function.update_of_ne other]
  told := fun link v _ => by rw [told]
  itself := fun mine => by
    rw [client, Function.update_self] at mine ⊢
    rw [from_]
    rw [localFlag] at mine
    exact sane.itself x mine
  registered := by
    rw [client, Function.update_self]
    exact registered
  noLink := by
    rintro ⟨here, isServer, mine⟩
    rw [client, Function.update_self] at isServer mine
    rw [list] at here
    rw [localFlag] at mine
    simp only [NamedClient.isServer, beq_iff_eq] at isServer ⊢
    exact ⟨here, by simpa [NamedClient.isServer] using server isServer, mine⟩

theorem Moves.tellServers (sane : Sane s) (cptr : ClientId) : Moves x s (s.tellServers cptr x) :=
  .of_client sane rfl (fun _ => id) fun _ _ other => if_neg fun told => other told.1

theorem Moves.announce (sane : Sane s) (cptr : ClientId) : Moves x s (s.announce cptr x) := by
  unfold NickNet.announce
  split
  · exact .of_client sane rfl (fun _ => id) fun _ _ other => if_neg fun told => other told.1
  · exact .refl sane

theorem setNick_client (t : ClientNames) (x : ClientId) (nick : CStr) :
    (t.setNick x nick).client = Function.update t.client x { t.client x with name := nick } := by
  unfold ClientNames.setNick
  split <;> rfl

theorem Moves.setNick (sane : Sane s) {nick : CStr} (given : nick ≠ []) :
    Moves x s (s.editNames (·.setNick x nick)) :=
  .write sane (setNick_client s.toClientNames x nick) ClientNames.setNick_globalClientList rfl rfl
    rfl (fun mine status => ⟨(sane.registered x mine status).1, given⟩) id

theorem exitOneClient_list (s : NickNet) (u : ClientId) :
    ∀ v ∈ (s.exitOneClient u).globalClientList, v ∈ s.globalClientList := by
  intro v inside
  rw [exitOneClient_names] at inside
  unfold ClientNames.exitOneClient at inside
  split at inside
  · exact inside
  · exact List.mem_of_mem_erase inside

theorem exitOneClient_told (s : NickNet) (u : ClientId) : (s.exitOneClient u).told = s.told := by
  unfold exitOneClient release
  split
  · rfl
  · split <;> rfl

theorem Moves.exitOneClient (sane : Sane s) (u : ClientId) : Moves x s (s.exitOneClient u) :=
  .of_client sane (funext fun v => exitOneClient_client s u v) (exitOneClient_list s u)
    fun link v _ => by rw [exitOneClient_told]

theorem Moves.exits (sane : Sane s) (gone : List ClientId) : Moves x s (s.exits gone) := by
  induction gone generalizing s with
  | nil => exact .refl sane
  | cons u gone ih =>
    have first : Moves x s (s.exitOneClient u) := .exitOneClient sane u
    exact first.trans (ih (first.sane sane))

theorem Moves.registerUser (sane : Sane s) (cptr : ClientId) (outcome : Registration)
    (ready : (s.client x).localFlag = true → (s.client x).user = true ∧ (s.client x).name ≠ []) :
    Moves x s (s.registerUser cptr x outcome) := by
  cases outcome with
  | refused => exact .exitOneClient sane x
  | held => exact .refl sane
  | accepted =>
    have enrolled : Moves x s (s.editNames (·.registerUser x .accepted)) :=
      .write sane rfl rfl rfl rfl rfl (fun mine _ => ready mine) nofun
    have sane' := enrolled.sane sane
    unfold NickNet.registerUser
    dsimp only
    generalize s.editNames (·.registerUser x .accepted) = m at enrolled sane' ⊢
    refine enrolled.trans ?_
    split
    · exact .of_client sane' rfl (fun _ => id) fun _ _ other => if_neg fun told => other told.1
    · exact .tellServers sane' cptr

/-- Every link was last told the timestamp that `x` has. -/
def Told (s : NickNet) (x : ClientId) : Prop :=
  ∀ link, s.Link link → s.told link x = some (s.client x).tsinfo

def Settled (s : NickNet) (x : ClientId) : Prop := s.LocalPerson x → s.Told x

theorem Moves.link (h : Moves x s s') {link : ClientId} (is : s'.Link link) : s.Link link := by
  by_cases this : link = x
  · subst this
    exact h.noLink is
  · obtain ⟨here, server, mine⟩ := is
    rw [h.client link this] at server mine
    exact ⟨(h.list link here).resolve_left this, server, mine⟩

theorem Told.moves (told : s.Told x) (h : Moves x s s') (same : s'.told = s.told)
    (tsinfo : (s'.client x).tsinfo = (s.client x).tsinfo) : s'.Told x := by
  intro link is
  rw [same, tsinfo]
  exact told link (h.link is)

theorem told_tellServers (apart : ∀ link, s.Link link → link ≠ cptr) :
    (s.tellServers cptr x).Told x :=
  fun link is => if_pos ⟨rfl, is, apart link is⟩

theorem link_ne (person : (s.client x).status = .client) {link : ClientId} (is : s.Link link) :
    link ≠ x := by
  rintro rfl
  have server := is.2.1
  simp [NamedClient.isServer, person] at server

theorem registerUser_client (s : NickNet) (cptr x : ClientId) (outcome : Registration) :
    (s.registerUser cptr x outcome).client x =
      if outcome = .accepted then { s.client x with status := .client } else s.client x := by
  rw [registerUser_names]
  cases outcome with
  | refused => exact ClientNames.exitClient_client x
  | held => rfl
  | accepted => exact Function.update_self ..

theorem registerUser_settles (outcome : Registration)
    (fresh : (s.client x).status ≠ .client) : (s.registerUser x x outcome).Settled x := by
  rintro ⟨-, -, status⟩
  rw [registerUser_client] at status
  cases outcome with
  | refused => exact absurd status fresh
  | held => exact absurd status fresh
  | accepted =>
    unfold registerUser
    dsimp only
    apply told_tellServers
    intro link is
    refine link_ne ?_ is
    split <;> simp [editNames, NameTables.editClients, ClientNames.registerUser,
      ClientNames.setClient]

theorem Moves.setUser (sane : Sane s) :
    Moves x s (s.editNames fun t => t.setClient x { t.client x with user := true }) :=
  .write sane rfl rfl rfl rfl rfl
    (fun mine status => ⟨rfl, (sane.registered x mine status).2⟩) id

theorem doUser_moves (sane : Sane s) (username host : CStr) (outcome : Registration) :
    Moves x s (s.doUser cptr x username host outcome) := by
  have first : Moves x s _ := .setUser sane
  have user : ((s.editNames fun t => t.setClient x { t.client x with user := true }).client x) =
      { s.client x with user := true } := Function.update_self ..
  unfold doUser
  dsimp only
  generalize s.editNames (fun t => t.setClient x { t.client x with user := true }) = m at first user ⊢
  have sane' := first.sane sane
  split
  · next isRemote =>
    have isRemote : (m.client x).localFlag = false := by simpa using isRemote
    have second : Moves x m (m.editNames fun t => t.setClient x { t.client x with
        username := strncpyIrc username userLen
        host := strncpyIrc host hostLen }) :=
      .write sane' rfl rfl rfl rfl rfl (sane'.registered x) id
    refine (first.trans second).trans (.registerUser (second.sane sane') cptr outcome fun mine => ?_)
    have same : (m.client x).localFlag = true := by
      simpa [editNames, NameTables.editClients, ClientNames.setClient] using mine
    cases isRemote.symm.trans same
  · split
    · exact first
    · split
      · next named =>
        refine first.trans (.registerUser sane' cptr outcome fun _ => ⟨by rw [user], named⟩)
      · exact first.trans (.write sane' rfl rfl rfl rfl rfl (sane'.registered x) id)

theorem doUser_settles (sane : Sane s) (settled : s.Settled x) (username host : CStr)
    (outcome : Registration) : (s.doUser x x username host outcome).Settled x := by
  have first : Moves x s _ := .setUser sane
  have user : ((s.editNames fun t => t.setClient x { t.client x with user := true }).client x) =
      { s.client x with user := true } := Function.update_self ..
  have told : (s.editNames fun t => t.setClient x { t.client x with user := true }).told = s.told :=
    rfl
  have list : (s.editNames fun t =>
      t.setClient x { t.client x with user := true }).globalClientList = s.globalClientList := rfl
  rintro ⟨here, mine, status⟩
  unfold doUser at here mine status ⊢
  dsimp only at here mine status ⊢
  generalize s.editNames (fun t => t.setClient x { t.client x with user := true }) = m
    at first user told list here mine status ⊢
  have sane' := first.sane sane
  split
  · next isRemote =>
    -- a user of another server is never asked about
    exfalso
    rw [if_pos isRemote, registerUser_client] at mine
    have isRemote : (m.client x).localFlag = false := by simpa using isRemote
    split at mine <;>
      simp [editNames, NameTables.editClients, ClientNames.setClient, isRemote] at mine
  · next isLocal =>
    rw [if_neg isLocal] at here mine status
    split
    · next known =>
      rw [if_pos known] at here mine status
      rw [user] at mine status
      rw [list] at here
      -- registered before: USER changes nothing that was told
      exact (settled ⟨here, mine, status⟩).moves first told (by rw [user])
    · next unknown =>
      rw [if_neg unknown] at here mine status
      have unknown : (m.client x).status = .unknown := not_not.1 unknown
      have fresh : (m.client x).status ≠ .client := by
        rw [unknown]
        decide
      split
      · next named =>
        rw [if_pos named] at here mine status
        -- registered here and now: the introduction tells every link
        exact registerUser_settles outcome fresh ⟨here, mine, status⟩
      · next nameless =>
        exfalso
        rw [if_neg nameless] at status
        -- no nick yet, so still no user
        simp [editNames, NameTables.editClients, ClientNames.setClient, unknown] at status

theorem doUser_localFlag (t : ClientNames) (x : ClientId) (username host : CStr)
    (outcome : Registration) :
    ((t.doUser x username host outcome).client x).localFlag = (t.client x).localFlag := by
  have registers : ∀ t : ClientNames,
      ((t.registerUser x outcome).client x).localFlag = (t.client x).localFlag := by
    intro t
    cases outcome with
    | refused => rw [ClientNames.registerUser, ClientNames.exitClient_client]
    | held => rfl
    | accepted => simp [ClientNames.registerUser, ClientNames.setClient]
  unfold ClientNames.doUser
  dsimp only
  split
  · simp [registers, ClientNames.setClient]
  · split
    · simp [ClientNames.setClient]
    · split
      · simp [registers, ClientNames.setClient]
      · simp [ClientNames.setClient]

theorem introduceNick_moves (sane : Sane s) (cptr : ClientId) (parv : List CStr) (newts : Int)
    (nick : CStr) (outcome : Registration) :
    Moves s.nextClient s (s.introduceNick cptr parv newts nick outcome) ∧
      ((s.introduceNick cptr parv newts nick outcome).client s.nextClient).localFlag = false := by
  unfold introduceNick
  dsimp only
  generalize hu : s.nextClient = u
  have own : (s.editNames (·.makeClient (some cptr))).client u = { NamedClient.zero with
      username := lit "unknown", localFlag := false, from_ := cptr } := by
    rw [← hu]
    exact Function.update_self ..
  -- three writes to the new client: made, named, put into the table
  have made : Moves u s (s.editNames (·.makeClient (some cptr))) := by
    refine ⟨?_, ?_, fun _ _ _ => rfl, ?_, ?_, ?_⟩
    · intro v inside
      rw [← hu]
      exact List.mem_cons.1 inside
    · intro v other
      exact ClientNames.makeClient_client (by rwa [hu])
    · rw [own]
      exact nofun
    · rw [own]
      exact nofun
    · rintro ⟨-, -, mine⟩
      rw [own] at mine
      cases mine
  have remote : ((s.editNames (·.makeClient (some cptr))).client u).localFlag = false := by
    rw [own]
  have sane₁ := made.sane sane
  generalize s.editNames (·.makeClient (some cptr)) = m at made remote sane₁ ⊢
  have named : Moves u m (m.editNames fun t => t.setClient u { t.client u with
      name := nick
      tsinfo := if newts = 0 then t.currentTime else newts }) :=
    .write sane₁ rfl rfl rfl rfl rfl (fun mine => by cases remote.symm.trans mine) id
  have remote' : ((m.editNames fun t => t.setClient u { t.client u with
      name := nick
      tsinfo := if newts = 0 then t.currentTime else newts }).client u).localFlag = false := by
    simpa [editNames, NameTables.editClients, ClientNames.setClient] using remote
  have sane₂ := named.sane sane₁
  generalize m.editNames (fun t => t.setClient u { t.client u with
      name := nick
      tsinfo := if newts = 0 then t.currentTime else newts }) = k at named remote' sane₂ ⊢
  have filed : ∀ umodes : ClientId → Umodes, Moves u k
      { k.editNames (·.addToClientHashTable nick u) with umodes } :=
    fun _ => .of_client sane₂ rfl (fun _ => id) fun _ _ _ => rfl
  refine ⟨((made.trans named).trans (filed _)).trans (doUser_moves ((filed _).sane sane₂) _ _ _), ?_⟩
  rw [doUser_names, doUser_localFlag]
  exact remote'

theorem nickkilldone_moves (sane : Sane s) (notServer : (s.client x).isServer = false)
    {parv : List CStr} {newts : Int} {nick : CStr} {w : ClientNames.NickVerdict}
    (given : nick ≠ []) : Moves x s (s.nickkilldone cptr x parv newts nick w) := by
  unfold nickkilldone
  dsimp only
  rw [notServer, if_neg (by decide)]
  split
  · next named =>
    have stamped : ∀ ts, Moves x s (if irccmp (parv.getD 0 []) nick = .eq then s
        else s.editNames (·.setClient x { s.client x with tsinfo := ts })) := by
      intro ts
      split
      · exact .refl sane
      · exact .write sane rfl rfl rfl rfl rfl (sane.registered x) id
    have first := stamped (if newts = 0 then s.currentTime else newts)
    generalize (if irccmp (parv.getD 0 []) nick = .eq then s else s.editNames (·.setClient x
        { s.client x with tsinfo := if newts = 0 then s.currentTime else newts })) = m at first ⊢
    have sane' := first.sane sane
    -- the line is sent before the name is written
    have changed : ∀ k : NickNet, Sane k →
        Moves x k ((k.announce cptr x).editNames (·.setNick x nick)) := fun k sane =>
      have told : Moves x k (k.announce cptr x) := .announce sane cptr
      told.trans (.setNick (told.sane sane) given)
    split
    -- the counters are no part of what the links know
    · have counted : ∀ last number, Moves x m
          { m with lastNickChange := last, numberOfNickChanges := number } :=
        fun _ _ => .of_client sane' rfl (fun _ => id) fun _ _ _ => rfl
      split
      · exact (first.trans (counted _ _)).trans (changed _ ((counted _ _).sane sane'))
      · exact first.trans (counted _ _)
    · exact first.trans (changed m sane')
  · have named : Moves x s (s.editNames fun t =>
        t.setClient x { s.client x with name := nick, tsinfo := t.currentTime }) :=
      .write sane rfl rfl rfl rfl rfl
        (fun mine status => ⟨(sane.registered x mine status).1, given⟩) id
    have own : (s.editNames fun t => t.setClient x
        { s.client x with name := nick, tsinfo := t.currentTime }).client x =
        { s.client x with name := nick, tsinfo := s.currentTime } := Function.update_self ..
    have sane' := named.sane sane
    generalize s.editNames (fun t => t.setClient x
      { s.client x with name := nick, tsinfo := t.currentTime }) = m at named own sane' ⊢
    split
    · exact named.trans (.setNick sane' given)
    · next user =>
      -- a first nick: the user may be complete with it
      have ready : (m.client x).localFlag = true → (m.client x).user = true ∧ (m.client x).name ≠ [] :=
        fun _ => by
          rw [own]
          exact ⟨by simpa using user, given⟩
      split
      · exact named.trans (.registerUser sane' cptr .refused ready)
      · have registered : Moves x m (m.registerUser cptr x w.outcome) :=
          .registerUser sane' cptr w.outcome ready
        exact (named.trans registered).trans (.setNick (registered.sane sane') given)

theorem nickkilldone_localFlag (t : ClientNames) (notServer : (t.client x).isServer = false)
    (parv : List CStr) (newts : Int) (nick : CStr) (w : ClientNames.NickVerdict) :
    ((t.nickkilldone cptr x parv newts nick w).client x).localFlag = (t.client x).localFlag := by
  have changed : ∀ t : ClientNames,
      ((t.setNick x nick).client x).localFlag = (t.client x).localFlag := by
    intro t
    simp [setNick_client]
  have registers : ∀ (t : ClientNames) outcome,
      ((t.registerUser x outcome).client x).localFlag = (t.client x).localFlag := by
    intro t outcome
    cases outcome with
    | refused => rw [ClientNames.registerUser, ClientNames.exitClient_client]
    | held => rfl
    | accepted => simp [ClientNames.registerUser, ClientNames.setClient]
  unfold ClientNames.nickkilldone
  dsimp only
  rw [notServer, if_neg (by decide)]
  split
  · split
    · split <;> simp [ClientNames.setClient]
    · rw [changed]
      split <;> simp [ClientNames.setClient]
  · split
    · simp [changed, ClientNames.setClient]
    · split
      · simp [registers, ClientNames.setClient]
      · simp [changed, registers, ClientNames.setClient]

theorem setNick_status (s : NickNet) (nick : CStr) :
    ((s.editNames (·.setNick x nick)).client x).status = (s.client x).status := by
  change ((s.toClientNames.setNick x nick).client x).status = _
  rw [setNick_client, Function.update_self]

theorem setNick_told (s : NickNet) (nick : CStr) (told : s.Told x) :
    (s.editNames (·.setNick x nick)).Told x := by
  have client : (s.editNames (·.setNick x nick)).client =
      Function.update s.client x { s.client x with name := nick } :=
    setNick_client s.toClientNames x nick
  rintro link ⟨here, server, mine⟩
  rw [client] at server mine ⊢
  have is : s.Link link := by
    refine ⟨ClientNames.setNick_globalClientList (t := s.toClientNames) ▸ here, ?_⟩
    by_cases this : link = x
    · subst this
      rw [Function.update_self] at server mine
      exact ⟨server, mine⟩
    · rw [Function.update_of_ne this] at server mine
      exact ⟨server, mine⟩
  rw [Function.update_self]
  exact told link is

/-- A NICK of a client of ours, unless it is turned down with a new timestamp. -/
theorem nickkilldone_settles (sane : Sane s) (settled : s.Settled x)
    {parv : List CStr} {nick : CStr} {w : ClientNames.NickVerdict}
    (notServer : (s.client x).isServer = false) (given : nick ≠ [])
    (fine : (s.client x).status = .client → maxNickChanges < s.countChange x →
      irccmp (parv.getD 0 []) nick = .eq ∨ (s.client x).tsinfo = s.currentTime) :
    (s.nickkilldone x x parv 0 nick w).Settled x := by
  rintro ⟨here, mine, status⟩
  rw [nickkilldone_names, nickkilldone_localFlag s.toClientNames notServer] at mine
  have moves : Moves x s (s.nickkilldone x x parv 0 nick w) := nickkilldone_moves sane notServer given
  unfold nickkilldone at here status moves ⊢
  dsimp only at here status moves ⊢
  rw [notServer, if_neg (by decide)] at here status moves ⊢
  split
  · next named =>
    rw [if_pos named, if_pos rfl] at here status moves
    rw [if_pos rfl]
    have client : (if irccmp (parv.getD 0 []) nick = .eq then s else s.editNames (·.setClient x
        { s.client x with tsinfo := s.currentTime })).client x =
        if irccmp (parv.getD 0 []) nick = .eq then s.client x
        else { s.client x with tsinfo := s.currentTime } := by
      split
      · rfl
      · exact Function.update_self ..
    have kept : ∀ m, m = (if irccmp (parv.getD 0 []) nick = .eq then s else s.editNames
        (·.setClient x { s.client x with tsinfo := s.currentTime })) →
        m.globalClientList = s.globalClientList ∧ m.told = s.told ∧
          m.countChange x = s.countChange x ∧ Moves x s m := by
      rintro m rfl
      split
      · exact ⟨rfl, rfl, rfl, .refl sane⟩
      · exact ⟨rfl, rfl, rfl, .write sane rfl rfl rfl rfl rfl (sane.registered x) id⟩
    obtain ⟨list, told, count, first⟩ := kept _ rfl
    generalize (if irccmp (parv.getD 0 []) nick = .eq then s else s.editNames (·.setClient x
      { s.client x with tsinfo := s.currentTime })) = m at client list told count first here status ⊢
    have was : (m.client x).status = (s.client x).status ∧ (m.client x).user = (s.client x).user := by
      rw [client]
      split <;> exact ⟨rfl, rfl⟩
    split
    · next person =>
      rw [if_pos person] at here status
      have user := (sane.registered x mine person.2).1
      rw [count] at here status ⊢
      split
      · let k : NickNet := { m with
          lastNickChange := Function.update m.lastNickChange x m.currentTime
          numberOfNickChanges := Function.update m.numberOfNickChanges x (s.countChange x) }
        apply setNick_told
        have tells : k.announce x x = { k with
            whowas := History.add k.whowas k.currentTime x (k.nameOf x) true }.tellServers x x :=
          if_pos (was.2.trans user)
        change (k.announce x x).Told x
        rw [tells]
        exact told_tellServers fun link is => link_ne (x := x) (was.1.trans person.2) is
      · next fast =>
        rw [if_neg fast] at here
        have still : (m.client x).tsinfo = (s.client x).tsinfo := by
          rw [client]
          split
          · rfl
          · next differ => exact ((fine person.2 (Int.not_le.1 fast)).resolve_left differ).symm
        have before : s.Told x := settled ⟨list ▸ here, mine, person.2⟩
        exact Told.moves (before.moves first told still)
          (.of_client (first.sane sane) rfl (fun _ => id) fun _ _ _ => rfl) rfl rfl
    · next notPerson =>
      exfalso
      rw [if_neg notPerson] at status
      have same : (((m.announce x x).editNames (·.setNick x nick)).client x).status =
          (s.client x).status := by
        rw [setNick_status, announce_toNameTables]
        exact was.1
      exact notPerson ⟨mine, same.symm.trans status⟩
  · next nameless =>
    rw [if_neg nameless] at here status
    have fresh : (s.client x).status ≠ .client :=
      fun person => nameless (sane.registered x mine person).2
    have own : (s.editNames fun t => t.setClient x
        { s.client x with name := nick, tsinfo := t.currentTime }).client x =
        { s.client x with name := nick, tsinfo := s.currentTime } := Function.update_self ..
    generalize s.editNames (fun t => t.setClient x
      { s.client x with name := nick, tsinfo := t.currentTime }) = m at own here status ⊢
    have fresh' : (m.client x).status ≠ .client := by
      rw [own]
      exact fresh
    have localFlag : (m.client x).localFlag = true := by
      rw [own]
      exact mine
    split
    · next nobody =>
      rw [if_pos nobody, setNick_status] at status
      exact absurd status fresh'
    · next user =>
      rw [if_neg user] at here status
      split
      · next refused =>
        rw [if_pos refused] at here status
        rw [registerUser_client] at status
        exact absurd status fresh'
      · next enters =>
        rw [if_neg enters, setNick_status] at status
        rw [if_neg enters] at here
        apply setNick_told
        refine registerUser_settles w.outcome fresh' ⟨?_, ?_, status⟩
        · exact ClientNames.setNick_globalClientList (t := (m.registerUser x x w.outcome).toClientNames) ▸ here
        · rw [registerUser_client]
          split <;> exact localFlag

structure Shrinks (t t' : ClientNames) : Prop where
  client : t'.client = t.client
  list : ∀ v ∈ t'.globalClientList, v ∈ t.globalClientList
  next : t'.nextClient = t.nextClient

theorem Shrinks.refl (t : ClientNames) : Shrinks t t := ⟨rfl, fun _ => id, rfl⟩

theorem Shrinks.trans {t t' t'' : ClientNames} (h : Shrinks t t') (h' : Shrinks t' t'') :
    Shrinks t t'' :=
  ⟨h'.client.trans h.client, fun v inside => h.list v (h'.list v inside), h'.next.trans h.next⟩

theorem Shrinks.exitOneClient (t : ClientNames) (u : ClientId) : Shrinks t (t.exitOneClient u) := by
  unfold ClientNames.exitOneClient
  split
  · exact .refl t
  · exact ⟨rfl, fun _ => List.mem_of_mem_erase, rfl⟩

theorem Shrinks.exitClient (t : ClientNames) (u : ClientId) (behind : List ClientId) :
    Shrinks t (t.exitClient u behind) := by
  unfold ClientNames.exitClient
  induction behind ++ [u] generalizing t with
  | nil => exact .refl t
  | cons w rest ih => exact (exitOneClient t w).trans (ih _)

structure Gated (t : ClientNames) (cptr : ClientId) (r : ClientNames × ClientNames.Gate) : Prop where
  shrinks : Shrinks t r.1
  become : r.2 = .become → (t.client cptr).status = .unknown ∨ (t.client cptr).status = .handshake

theorem newServerGate_gated (t : ClientNames) (cptr : ClientId) (host : CStr)
    (v : ClientNames.ServerVerdict) : Gated t cptr (t.newServerGate cptr host v) := by
  have turned : Gated t cptr (t.exitClient cptr v.behind, .done) := ⟨.exitClient t _ _, nofun⟩
  have admits : Gated t cptr (ClientNames.newServerGate.admitted t cptr v) := by
    unfold ClientNames.newServerGate.admitted
    split
    · exact ⟨.refl t, nofun⟩
    · split
      · exact ⟨.refl t, nofun⟩
      · next unknown =>
        split
        · exact turned
        · refine ⟨.refl t, fun _ => ?_⟩
          by_contra other
          exact unknown ⟨fun is => other (.inl is), fun is => other (.inr is)⟩
  unfold ClientNames.newServerGate
  split
  · split
    · exact turned
    · exact admits
  · exact admits

theorem serverGate_gated (t : ClientNames) (cptr sptr : ClientId) (parv : List CStr)
    (adm : Admission) (v : ClientNames.ServerVerdict) :
    Gated t cptr (t.serverGate cptr sptr parv adm v) := by
  have ignored : Gated t cptr (t, .done) := ⟨.refl t, nofun⟩
  have turned : Gated t cptr (t.exitClient cptr v.behind, .done) := ⟨.exitClient t _ _, nofun⟩
  unfold ClientNames.serverGate
  split
  · exact ignored
  · dsimp only
    split
    · exact ignored
    · split
      · exact turned
      · split
        · exact turned
        · split
          · exact turned
          · split
            · exact newServerGate_gated ..
            · next acptr _ =>
              split
              · exact turned
              · have gone := Shrinks.exitClient t (t.client acptr).from_
                  (v.behindOther.filter (· ≠ cptr))
                have rest := newServerGate_gated (t.exitClient (t.client acptr).from_
                  (v.behindOther.filter (· ≠ cptr))) cptr (ClientNames.serverHost parv) v
                refine ⟨gone.trans rest.shrinks, fun becomes => ?_⟩
                have status := rest.become becomes
                rwa [gone.client] at status

/-- What SERVER comes to: clients leave, a server behind a link comes, or a connection
becomes a link. -/
inductive ServerResult (t t' : ClientNames) (cptr : ClientId) : Prop where
  | gone (shrinks : Shrinks t t')
  | introduced (list : ∀ v ∈ t'.globalClientList, v = t.nextClient ∨ v ∈ t.globalClientList)
    (client : ∀ v, v ≠ t.nextClient → t'.client v = t.client v)
    (remote : (t'.client t.nextClient).localFlag = false)
  | linked (list : ∀ v ∈ t'.globalClientList, v ∈ t.globalClientList)
    (client : ∀ v, v ≠ cptr → t'.client v = t.client v)
    (localFlag : (t'.client cptr).localFlag = (t.client cptr).localFlag)
    (from_ : (t'.client cptr).from_ = (t.client cptr).from_)
    (was : (t.client cptr).isServer = false) (status : (t'.client cptr).status ≠ .client)

theorem introduceServer_result (t : ClientNames) (cptr : ClientId) (host : CStr)
    (parv : List CStr) (adm : Admission) (v : ClientNames.ServerVerdict) :
    ServerResult t (t.introduceServer cptr host parv adm v) cptr := by
  unfold ClientNames.introduceServer
  dsimp only
  split
  · exact .gone (.refl t)
  · split
    · exact .gone (.exitClient t _ _)
    · split
      · exact .gone (.exitClient t _ _)
      · have made : ∀ k : ClientNames, (∀ w ∈ k.globalClientList,
            w = t.nextClient ∨ w ∈ t.globalClientList) →
            (k.client = ((t.makeClient (some cptr)).setClient t.nextClient
              { (t.makeClient (some cptr)).client t.nextClient with
                name := strncpyIrc host hostLen, status := .server }).client) →
            ServerResult t k cptr := by
          intro k list client
          refine .introduced list (fun w other => ?_) ?_
          · rw [client]
            simp [ClientNames.setClient, ClientNames.makeClient, other]
          · rw [client]
            simp [ClientNames.setClient, ClientNames.makeClient]
        split
        · refine made _ (fun w inside => ?_) ?_
          · exact List.mem_cons.1 ((Shrinks.exitClient _ cptr v.behind).list w inside)
          · exact (Shrinks.exitClient _ cptr v.behind).client
        · exact made _ (fun w inside => List.mem_cons.1 inside) rfl

theorem becomeServer_result {t : ClientNames} {cptr : ClientId} (host : CStr) (adm : Admission)
    (v : ClientNames.ServerVerdict)
    (nothing : (t.client cptr).status = .unknown ∨ (t.client cptr).status = .handshake) :
    ServerResult t (t.becomeServer cptr host adm v) cptr := by
  have was : (t.client cptr).isServer = false := by
    rcases nothing with is | is <;> simp [NamedClient.isServer, is]
  have status : (t.client cptr).status ≠ .client := by
    rcases nothing with is | is <;> simp [is]
  unfold ClientNames.becomeServer
  dsimp only
  split
  · have left := Shrinks.exitClient
      (t.setClient cptr { t.client cptr with name := strncpyIrc host hostLen }) cptr v.behind
    refine .linked left.list (fun w other => ?_) ?_ ?_ was ?_
    · rw [left.client]
      simp [ClientNames.setClient, other]
    · rw [left.client]
      simp [ClientNames.setClient]
    · rw [left.client]
      simp [ClientNames.setClient]
    · rw [left.client]
      simpa [ClientNames.setClient] using status
  · refine .linked (fun _ => id) (fun w other => ?_) ?_ ?_ was ?_
    · simp [ClientNames.addToClientHashTable, ClientNames.setClient, other]
    · simp [ClientNames.addToClientHashTable, ClientNames.setClient]
    · simp [ClientNames.addToClientHashTable, ClientNames.setClient]
    · simp [ClientNames.addToClientHashTable, ClientNames.setClient]

theorem ServerResult.after {t t₁ t' : ClientNames} (h : Shrinks t t₁)
    (h' : ServerResult t₁ t' cptr) : ServerResult t t' cptr := by
  cases h' with
  | gone shrinks => exact .gone (h.trans shrinks)
  | introduced list client remote =>
    rw [h.next] at list client remote
    refine .introduced (fun v inside => (list v inside).imp_right (h.list v)) ?_ remote
    intro v other
    rw [client v other, h.client]
  | linked list client localFlag from_ was status =>
    rw [h.client] at client localFlag from_ was
    exact .linked (fun v inside => h.list v (list v inside)) client localFlag from_ was status

theorem mServer_result (t : ClientNames) (cptr sptr : ClientId) (parv : List CStr)
    (adm : Admission) (v : ClientNames.ServerVerdict) :
    ServerResult t (t.mServer cptr sptr parv adm v) cptr := by
  obtain ⟨shrinks, become⟩ := serverGate_gated t cptr sptr parv adm v
  unfold ClientNames.mServer
  generalize t.serverGate cptr sptr parv adm v = r at shrinks become
  obtain ⟨t₁, gate⟩ := r
  cases gate with
  | done => exact .gone shrinks
  | introduce => exact .after shrinks (introduceServer_result t₁ _ _ _ _ _)
  | become =>
    have nothing := become rfl
    rw [← shrinks.client] at nothing
    exact .after shrinks (becomeServer_result _ _ _ nothing)

structure InStep (s : NickNet) : Prop extends Sane s where
  told : ∀ u, s.Settled u

theorem Moves.inStep (h : Moves x s s') (inStep : InStep s) (settled : s'.Settled x) :
    InStep s' where
  toSane := h.sane inStep.toSane
  told := fun u person => by
    by_cases this : u = x
    · subst this
      exact settled person
    · obtain ⟨here, mine, status⟩ := person
      rw [h.client u this] at mine status
      have before := inStep.told u ⟨(h.list u here).resolve_left this, mine, status⟩
      intro link is
      rw [h.told link u this, h.client u this]
      exact before link (h.link is)

theorem Settled.of_client (settled : s.Settled u) (client : s'.client = s.client)
    (list : ∀ v ∈ s'.globalClientList, v ∈ s.globalClientList) (told : s'.told = s.told) :
    s'.Settled u := by
  rintro ⟨here, person⟩ link ⟨link_, is⟩
  rw [client] at person is
  rw [told, client]
  exact settled ⟨list u here, person⟩ link ⟨list link link_, is⟩

theorem Settled.of_remote (remote : (s.client u).localFlag = false) : s.Settled u := by
  rintro ⟨-, mine, -⟩
  cases remote.symm.trans mine

theorem exits_list_subset (s : NickNet) (gone : List ClientId) :
    ∀ v ∈ (s.exits gone).globalClientList, v ∈ s.globalClientList := by
  induction gone generalizing s with
  | nil => exact fun _ => id
  | cons u gone ih => exact fun v inside => exitOneClient_list s u v (ih _ v inside)

theorem exits_told (s : NickNet) (gone : List ClientId) : (s.exits gone).told = s.told := by
  induction gone generalizing s with
  | nil => rfl
  | cons u gone ih => exact (ih _).trans (exitOneClient_told s u)

theorem exits_settled (gone : List ClientId) (settled : s.Settled u) : (s.exits gone).Settled u :=
  settled.of_client (funext fun v => exits_client s gone v) (exits_list_subset s gone)
    (exits_told s gone)

structure Keeps (ok : Prop) (s s' : NickNet) : Prop where
  sane : Sane s → Sane s'
  inStep : ok → InStep s → InStep s'

theorem Keeps.moves {ok : Prop} (x : ClientId) (moves : Sane s → Moves x s s')
    (settled : ok → Sane s → s.Settled x → s'.Settled x) : Keeps ok s s' where
  sane := fun sane => (moves sane).sane sane
  inStep := fun fine inStep =>
    (moves inStep.toSane).inStep inStep (settled fine inStep.toSane (inStep.told x))

theorem Sane.own (sane : Sane s) (comes : s.ComesFrom cptr sptr)
    (mine : (s.client sptr).localFlag = true) : cptr = sptr :=
  comes.behind.symm.trans (sane.itself sptr mine)

def RestampsUser (s : NickNet) (sptr : ClientId) (parv : List CStr) (w : ClientNames.NickVerdict) :
    Prop := s.LocalPerson sptr ∧ s.Restamped sptr parv w

instance (s : NickNet) (sptr : ClientId) (parv : List CStr) (w : ClientNames.NickVerdict) :
    Decidable (s.RestampsUser sptr parv w) := inferInstanceAs (Decidable (_ ∧ _))

theorem mNick_keeps {parv : List CStr} {w : ClientNames.NickVerdict}
    (comes : s.ComesFrom cptr sptr) :
    Keeps (¬ s.RestampsUser sptr parv w) s (s.mNick cptr sptr (s.senderFirst sptr parv) w) := by
  unfold mNick
  cases gate : s.nickGate cptr sptr (s.senderFirst sptr parv) w with
  | stop gone =>
    exact .moves sptr (fun sane => .exits sane gone) fun _ _ settled => exits_settled gone settled
  | go gone newts nick =>
    dsimp only
    obtain ⟨through, ts, -⟩ := nickGate_go gate
    have client : ∀ v, (s.exits gone).client v = s.client v := exits_client s gone
    have first : ∀ x, Sane s → Moves x s (s.exits gone) := fun x sane => .exits sane gone
    -- from a server it is an introduction; else a change of the sender itself
    by_cases server : (s.client sptr).isServer = true
    · have introduces : (s.exits gone).nickkilldone cptr sptr (s.senderFirst sptr parv) newts nick w =
          (s.exits gone).introduceNick cptr (s.senderFirst sptr parv) newts nick w.outcome :=
        if_pos (by rw [client]; exact server)
      rw [introduces]
      have remote := fun sane : Sane (s.exits gone) =>
        introduceNick_moves sane cptr (s.senderFirst sptr parv) newts nick w.outcome
      refine .moves (s.exits gone).nextClient (fun sane => ?_) fun _ sane _ => ?_
      · have sane' := (first (s.exits gone).nextClient sane).sane sane
        exact (first _ sane).trans (remote sane').1
      · exact .of_remote (remote ((first sptr sane).sane sane)).2
    · have notServer : (s.client sptr).isServer = false := by simpa using server
      have notServer' : ((s.exits gone).client sptr).isServer = false := by rwa [client]
      refine .moves sptr (fun sane => ?_) fun fine sane settled => ?_
      · exact (first sptr sane).trans
          (nickkilldone_moves ((first sptr sane).sane sane) notServer' through.given)
      · cases mine : (s.client sptr).localFlag with
        | false =>
          apply Settled.of_remote
          rw [nickkilldone_names, nickkilldone_localFlag _ notServer', client]
          exact mine
        | true =>
          obtain rfl := sane.own comes mine
          -- a client gives no timestamp of its own
          obtain rfl : newts = 0 := by
            rw [ts]
            simp [ClientNames.nickTs, notServer]
          refine nickkilldone_settles ((first cptr sane).sane sane) (exits_settled gone settled)
            notServer' through.given fun status fast => ?_
          rw [client] at status ⊢
          rw [countChange_exits] at fast
          have sender : (s.senderFirst cptr parv).getD 0 [] = s.nameOf cptr := by
            simp [ClientNames.senderFirst, mine, notServer]
          rw [sender, exits_currentTime]
          -- a refusal with a new timestamp is what the event excludes
          by_contra neither
          obtain ⟨differ, late⟩ := not_or.1 neither
          refine fine ⟨⟨comes.here, mine, status⟩, ?_⟩
          unfold Restamped gateOf
          rw [gate]
          exact ⟨fast, differ, late⟩

theorem user_keeps {ok : Prop} {username host : CStr} {outcome : Registration}
    (comes : s.ComesFrom (s.client sptr).from_ sptr) :
    Keeps ok s (s.doUser (s.client sptr).from_ sptr username host outcome) := by
  refine .moves sptr (fun sane => doUser_moves sane username host outcome) ?_
  intro _ sane settled
  cases mine : (s.client sptr).localFlag with
  | false =>
    apply Settled.of_remote
    rw [doUser_names, doUser_localFlag]
    exact mine
  | true =>
    rw [sane.own comes mine]
    exact doUser_settles sane settled username host outcome

theorem mServer_keeps {ok : Prop} (parv : List CStr) (adm : Admission)
    (v : ClientNames.ServerVerdict) : Keeps ok s (s.mServer cptr sptr parv adm v) := by
  have result := mServer_result s.toClientNames cptr sptr parv adm v
  unfold mServer
  dsimp only
  generalize s.toClientNames.mServer cptr sptr parv adm v = t at result ⊢
  obtain ⟨tables, told⟩ := released (s.globalClientList.filter (· ∉ t.globalClientList)) s
  generalize (s.globalClientList.filter (· ∉ t.globalClientList)).foldl release s = k at tables told ⊢
  rw [tables]
  have names : (k.editNames fun _ => t).toClientNames = t := rfl
  have told' : (k.editNames fun _ => t).told = s.told := told
  generalize k.editNames (fun _ => t) = m at names told' ⊢
  subst names
  cases result with
  | gone shrinks =>
    -- clients only leave, so no link is new
    have quiet : ¬ ((!(s.client cptr).isServer) = true ∧ (m.client cptr).isServer = true ∧
        (m.client cptr).localFlag = true) := by
      rintro ⟨was, server, -⟩
      rw [shrinks.client] at server
      rw [server] at was
      cases was
    rw [if_neg quiet]
    refine .moves cptr (fun sane => ?_) fun _ _ settled => ?_
    · exact .of_client sane shrinks.client shrinks.list fun _ _ _ => by rw [told']
    · exact settled.of_client shrinks.client shrinks.list told'
  | introduced list client remote =>
    -- a server behind a link: the link itself was there
    have quiet : ¬ ((!(s.client cptr).isServer) = true ∧ (m.client cptr).isServer = true ∧
        (m.client cptr).localFlag = true) := by
      rintro ⟨was, server, mine⟩
      by_cases new : cptr = s.nextClient
      · rw [new, remote] at mine
        cases mine
      · rw [client cptr new] at server
        rw [server] at was
        cases was
    rw [if_neg quiet]
    refine .moves s.nextClient (fun _ => ?_) fun _ _ _ => .of_remote remote
    refine ⟨list, client, fun _ _ _ => by rw [told'], ?_, ?_, ?_⟩
    · rw [remote]
      exact nofun
    · rw [remote]
      exact nofun
    · rintro ⟨-, -, mine⟩
      cases remote.symm.trans mine
  | linked list client localFlag from_ was status =>
    have sane : ∀ m' : NickNet, m'.client = m.client → Sane s → Sane m' := by
      intro m' same sane
      constructor
      · intro u mine
        rw [same] at mine ⊢
        by_cases this : u = cptr
        · subst this
          rw [from_]
          exact sane.itself u (localFlag ▸ mine)
        · rw [client u this] at mine ⊢
          exact sane.itself u mine
      · intro u mine person
        rw [same] at mine person ⊢
        have this : u ≠ cptr := by
          rintro rfl
          exact status person
        rw [client u this] at mine person ⊢
        exact sane.registered u mine person
    refine ⟨fun before => ?_, fun _ inStep => ⟨?_, ?_⟩⟩
    · split
      · exact sane _ rfl before
      · exact sane _ rfl before
    · split
      · exact sane _ rfl inStep.toSane
      · exact sane _ rfl inStep.toSane
    -- a new link: the others know what they knew, and it gets the burst
    · have others : ∀ u link, m.LocalPerson u → m.Link link → link ≠ cptr →
          m.told link u = some (m.client u).tsinfo := by
        rintro u link ⟨here, person⟩ ⟨link_, is⟩ other
        have this : u ≠ cptr := by
          rintro rfl
          exact status person.2
        rw [client u this] at person ⊢
        rw [client link other] at is
        rw [told']
        exact inStep.told u ⟨list u here, person⟩ link ⟨list link link_, is⟩
      split
      · rintro u ⟨here, person⟩ link is
        by_cases new : link = cptr
        · have isPerson : (m.client u).isPerson = true := by
            have this : u ≠ cptr := by
              rintro rfl
              exact status person.2
            have before := person
            rw [show (m.burst cptr).client u = s.client u from client u this] at before
            have user := (inStep.registered u before.1 before.2).1
            rw [client u this]
            simp [NamedClient.isPerson, before.2, user]
          exact if_pos ⟨new, here, isPerson⟩
        · exact (if_neg fun burst => new burst.1).trans (others u link ⟨here, person⟩ is new)
      · next quiet =>
        intro u person link is
        refine others u link person is ?_
        rintro rfl
        exact quiet ⟨by rw [was]; rfl, is.2⟩

def NoRestamp (s : NickNet) : NameEvent → Prop
  | .nick _ sptr parv w => ¬ s.RestampsUser sptr parv w
  | _ => True

instance (s : NickNet) : (e : NameEvent) → Decidable (s.NoRestamp e)
  | .nick _ sptr parv w => inferInstanceAs (Decidable (¬ s.RestampsUser sptr parv w))
  | .accept | .pass .. | .connectServer _ | .completed _ | .server .. | .user .. | .exit .. | .getChannel ..
  | .jupe _ | .addUser _ | .sub1 _ | .tick _ => isTrue trivial

theorem step_keeps (s : NickNet) (e : NameEvent) : Keeps (s.NoRestamp e) s (s.step e) := by
  have still : ∀ {ok : Prop} (x : ClientId), Keeps ok s s := fun x =>
    .moves x (fun sane => .refl sane) fun _ _ settled => settled
  -- a step on the channels or the clock
  have others : ∀ {ok : Prop} (s' : NickNet), s'.client = s.client →
      s'.globalClientList = s.globalClientList → s'.told = s.told → Keeps ok s s' :=
    fun s' client list told => .moves 0
      (fun sane => .of_client sane client (fun v inside => list ▸ inside) fun _ _ _ => by rw [told])
      fun _ _ settled => settled.of_client client (fun v inside => list ▸ inside) told
  -- a new connection is neither a user nor a server
  have made : ∀ {ok : Prop} (s' : NickNet) (status : Status),
      s'.globalClientList = s.nextClient :: s.globalClientList → s'.told = s.told →
      (∀ v, v ≠ s.nextClient → s'.client v = s.client v) →
      (s'.client s.nextClient).from_ = s.nextClient →
      (s'.client s.nextClient).status = status → status ≠ .client ∧ status ≠ .server →
      Keeps ok s s' := by
    intro ok s' status list told client from_ is other
    refine .moves s.nextClient (fun sane => ⟨?_, client, fun _ _ _ => by rw [told], fun _ => from_,
      fun _ person => absurd (is.symm.trans person) other.1, ?_⟩) fun _ _ _ => ?_
    · intro v inside
      rw [list] at inside
      exact List.mem_cons.1 inside
    · rintro ⟨-, server, -⟩
      simp only [NamedClient.isServer, beq_iff_eq] at server
      exact absurd (is.symm.trans server) other.2
    · rintro ⟨-, -, person⟩
      exact absurd (is.symm.trans person) other.1
  cases e with
  | nick cptr sptr parv w =>
    simp only [step]
    split
    · next comes => exact mNick_keeps comes
    · exact still sptr
  | user sptr username host outcome =>
    simp only [step]
    split
    · next comes => exact user_keeps comes
    · exact still sptr
  | server cptr sptr parv adm v =>
    simp only [step]
    split
    · exact mServer_keeps parv adm v
    · exact still sptr
  | exit u behind =>
    exact .moves u (fun sane => .exits sane _) fun _ _ settled => exits_settled _ settled
  | pass cptr sptr parv =>
    simp only [step, NameTables.step]
    split
    · simp only [NameTables.editClients, ClientNames.mPass]
      split
      · exact still 0
      · split
        · exact still 0
        · next waits =>
          -- PASS comes before the registration, so no user is marked
          have notPerson : (s.client cptr).status ≠ .client := fun is => waits (.inr (by simp [is]))
          split
          · refine .moves cptr (fun sane => .write sane rfl rfl rfl rfl rfl
              (fun _ is => absurd is notPerson) id) fun _ _ _ => ?_
            rintro ⟨-, -, person⟩
            simp only [ClientNames.setClient, Function.update_self] at person
            exact absurd person notPerson
          · exact still 0
    · exact still 0
  | accept =>
    refine made _ .unknown rfl rfl (fun v other => ClientNames.makeClient_client other) ?_ ?_ ?_
    · simp [step, NameTables.step, NameTables.editClients, ClientNames.makeClient]
    · simp [step, NameTables.step, NameTables.editClients, ClientNames.makeClient,
        NamedClient.zero]
    · decide
  | connectServer name =>
    simp only [step, NameTables.step]
    split
    · refine made _ .connecting rfl rfl (fun v other => ?_) ?_ ?_ (by decide)
      · simp [NameTables.editClients, ClientNames.connectServer, ClientNames.setClient, other,
          ClientNames.makeClient]
      · simp [NameTables.editClients, ClientNames.connectServer, ClientNames.setClient,
          ClientNames.makeClient]
      · simp [NameTables.editClients, ClientNames.connectServer, ClientNames.setClient]
    · exact still 0
  | completed u =>
    simp only [step, NameTables.step]
    split
    · refine .moves u (fun sane => .write sane rfl rfl rfl rfl rfl
        (fun _ is => by cases is) (fun is => by cases is)) fun _ _ _ => ?_
      rintro ⟨-, -, status⟩
      simp [NameTables.editClients, ClientNames.setClient] at status
    · exact still u
  | getChannel cptr chname create => exact others _ rfl rfl rfl
  | jupe name => exact others _ rfl rfl rfl
  | addUser c =>
    simp only [step, NameTables.step]
    split
    · exact others _ rfl rfl rfl
    · exact still 0
  | sub1 c =>
    simp only [step, NameTables.step]
    split
    · exact others _ rfl rfl rfl
    · exact still 0
  | tick now => exact others _ rfl rfl rfl

def startUp (name : CStr) (now : Int) : NickNet where
  toNameTables := NameTables.startUp name now
  umodes := fun _ => .none
  lastNickChange := fun _ => 0
  numberOfNickChanges := fun _ => 0
  whowas := []
  told := fun _ _ => none

theorem InStep.startUp (name : CStr) (now : Int) : InStep (startUp name now) := by
  have remote : ∀ u, ((NickNet.startUp name now).client u).localFlag = false := by
    intro u
    change ((Function.update (fun _ => NamedClient.zero) 0 _ : ClientId → NamedClient) u).localFlag =
      false
    rw [Function.update_apply]
    split <;> rfl
  have none : ∀ {p : Prop} u, ((NickNet.startUp name now).client u).localFlag = true → p := by
    intro p u mine
    cases (remote u).symm.trans mine
  exact ⟨⟨fun u mine => none u mine, fun u mine => none u mine⟩, fun u => .of_remote (remote u)⟩

theorem localPerson_comes {t : ClientNames} (person : t.LocalPerson u)
    (itself : (t.client u).from_ = u) : t.ComesFrom u u :=
  ⟨person.1, person.2.1, itself, person.1, itself, by simp [person.2.2]⟩

/-- In every state of every run a refused NICK leaves no trace of itself, unless the flood
check turned it down and it has restamped the user; and as long as that does not happen
every link was last told the timestamp that each user of ours has. -/
theorem refusedNick_iff (name : CStr) (now : Int) :
    (∀ (es : List NameEvent) (u : ClientId) (parv : List CStr) (w : ClientNames.NickVerdict),
      let s := nickMachine.run (startUp name now) es
      s.LocalPerson u → s.Refused u parv w →
        (Traceless u s (s.step (.nick u u parv w)) ↔ ¬ s.Restamped u parv w)) ∧
    ∀ es : List NameEvent, nickMachine.Meets NoRestamp (startUp name now) es → ∀ pre, pre <+: es →
      let s := nickMachine.run (startUp name now) pre
      ∀ u link, s.LocalPerson u → s.Link link → s.told link u = some (s.client u).tsinfo := by
  constructor
  · intro es u parv w s person refused
    have sane : Sane s := nickMachine.run_keeps (fun s e sane => (step_keeps s e).sane sane)
      (InStep.startUp name now).toSane es
    exact refused_traceless (localPerson_comes person (sane.itself u person.2.1)) person
      (sane.registered u person.2.1 person.2.2).2 refused
  · intro es fine pre inside s u link person is
    have inStep : InStep s := fine.always (fun s e inStep ok => (step_keeps s e).inStep ok inStep)
      (.startUp name now) inside
    exact inStep.told u person link is

/-- A user with a link, and as many changes of its nick in one second as it may make. -/
def busyRun : List NameEvent :=
  [.accept, .nick 1 1 [[], lit "alice"] verdict, .user 1 (lit "al") (lit "al.net") .accepted,
    .accept, NameTables.passOf 2, NameTables.serverOf 2 (lit "b.net")] ++
    ["b1", "b2", "b3", "b4", "b5"].map fun nick => .nick 1 1 [[], nick.toList] verdict
where
  verdict : ClientNames.NickVerdict :=
    { quarantined := false, tooFast := false, outcome := .accepted, behind := [] }

theorem refusedNick_busyRun :
    let s := nickMachine.run (startUp (lit "a.net") 1000) busyRun
    Traceless 1 s (s.step (.nick 1 1 [[], lit "b6"] busyRun.verdict)) ∧
      s.told 2 1 = some (s.client 1).tsinfo := by
  have h := refusedNick_iff (lit "a.net") 1000
  constructor
  · exact (h.1 busyRun 1 [[], lit "b6"] busyRun.verdict (by decide +kernel) (by decide +kernel)).2
      (by decide +kernel)
  · exact h.2 busyRun (by decide +kernel) busyRun List.prefix_rfl 1 2 (by decide +kernel)
      (by decide +kernel)

/-- One change more, five seconds later: it is refused, and the user has a timestamp that
the link was not told. -/
theorem busyRun_restamped :
    let s := nickMachine.run (startUp (lit "a.net") 1000) (busyRun ++ [.tick 1005])
    let s' := s.step (.nick 1 1 [[], lit "b6"] busyRun.verdict)
    s.LocalPerson 1 ∧ s.Refused 1 [[], lit "b6"] busyRun.verdict ∧ ¬ Traceless 1 s s' ∧
      s'.LocalPerson 1 ∧ s'.Link 2 ∧ s'.told 2 1 ≠ some (s'.client 1).tsinfo := by
  refine ⟨by decide +kernel, by decide +kernel, fun traceless => ?_, by decide +kernel,
    by decide +kernel, by decide +kernel⟩
  have client := traceless.client
  revert client
  decide +kernel

end NickNet

end Ircd
