import Ircd.Channel.Runs
import Ircd.Server.Linking
import Ircd.Server.Oper

/-! The network between two messages: its events, and what every run of them keeps.

Connections come in and go out, users and servers register, links bring in what is behind
them, clients exit, and the commands on channels and modes go on all the while.
-/

set_option autoImplicit false

namespace Ircd

namespace Network

variable {n n' : Network} {u v cptr sptr : ClientId}

structure Stays (n n' : Network) : Prop where
  graph : SameGraph n n'
  sound : n.toTables.Sound → n'.toTables.Sound
  nicksent : ∀ v, (n'.peer v).nicksent = (n.peer v).nicksent
  nickissent : n'.nickissent = n.nickissent

namespace Stays

theorem refl (n : Network) : Stays n n := ⟨.refl n, id, fun _ => rfl, rfl⟩

theorem trans {n'' : Network} (h : Stays n n') (h' : Stays n' n'') : Stays n n'' where
  graph := h.graph.trans h'.graph
  sound sound := h'.sound (h.sound sound)
  nicksent v := (h'.nicksent v).trans (h.nicksent v)
  nickissent := h'.nickissent.trans h.nickissent

theorem sane (h : Stays n n') (sane : n.Sane) : n'.Sane := by
  have graph := h.graph
  refine ⟨⟨graph.tree sane.tree, ?_, h.sound sane.sound, ?_, fun u inside => ?_⟩,
    graph.settled sane.settled, fun u inside => ?_⟩
  · intro u inside
    rw [graph.clients] at inside
    rw [graph.status, graph.name]
    exact sane.plain u inside
  · rw [h.nickissent]
    exact sane.mark
  · rw [graph.globalClientList] at inside
    rw [Marks, h.nicksent, h.nickissent]
    exact sane.marks u inside
  · rw [graph.globalClientList] at inside
    rw [graph.status, graph.name, graph.clients]
    exact sane.called u inside

theorem setUmodes (m : Umodes) (status : (n.client u).status = .client) :
    Stays n (n.setUmodes u m) := by
  have cell (v : ClientId) : ((n.setUmodes u m).client v) =
      if v = u then { n.client v with anOper := m.isAnOper } else n.client v := by
    by_cases here : v = u
    · subst here
      simp [Network.setUmodes, Tables.setClient]
    · simp [Network.setUmodes, Tables.setClient, here]
  have peer (v : ClientId) : ((n.setUmodes u m).peer v) =
      if v = u then { n.peer v with umodes := m } else n.peer v := by
    by_cases here : v = u
    · subst here
      simp [Network.setUmodes]
    · simp [Network.setUmodes, here]
  refine ⟨⟨rfl, rfl, rfl, rfl, rfl, ?_, ?_, ?_, ?_, ?_, ?_, ?_, ?_⟩, fun sound => ?_, ?_, rfl⟩
  case refine_9 =>
    refine sound_write (t := n.toTables) sound rfl ⟨rfl, rfl, rfl, rfl⟩ rfl rfl
      (sound.outside u) ⟨(sound.proper u).person, fun _ => ?_⟩
    simp [Client.isClient, Client.identity, status]
  all_goals
    intro v
    simp only [Tables.nameOf, cell, peer]
    split <;> first | rfl | exact id

theorem setCount (n : Network) (count : Counter) : Stays n (n.setCount count) := by
  refine ⟨?_, id, fun _ => rfl, rfl⟩
  constructor <;> first | rfl | exact fun _ => rfl | exact fun _ => id

end Stays

theorem Aside.stays (h : Aside n n') : Stays n n' :=
  ⟨h.graph, fun sound => h.tables ▸ sound, h.nicksent, h.nickissent⟩

theorem stays_reply (n : Network) (u : ClientId) (num : Numeric) (args : List CStr) :
    Stays n (n.reply u num args) := (Aside.emit n _).stays

theorem aside_dropPrivs (n : Network) (u : ClientId) : Aside n (n.dropPrivs u) := by
  have privs : Aside n (n.setPeer u { n.peer u with privs := fun _ => false }) :=
    .setPeer rfl rfl rfl
  exact privs.trans (.counters _ (n.operCptrList.erase u) n.localCptrList n.count)

theorem stays_deoper (status : (n.client u).status = .client) : Stays n (n.deoper u) := by
  have written := Stays.setUmodes ((n.peer u).umodes.without operOnlyUmodes) status
  unfold deoper
  simp only
  generalize n.setUmodes u ((n.peer u).umodes.without operOnlyUmodes) = m at written ⊢
  have counted := written.trans (.setCount m { m.count with oper := m.count.oper - 1 })
  split
  · exact counted.trans (aside_dropPrivs ..).stays
  · exact counted

theorem stays_umodeLetter (cptr : ClientId) (st : UmodeLoop) (letter : Char)
    (status : (st.net.client u).status = .client) :
    Stays st.net (umodeLetter cptr u st letter).net := by
  unfold umodeLetter
  simp only
  split
  case h_1 | h_2 => exact .refl st.net
  case h_3 | h_4 =>
    split
    · split
      · exact (Stays.setCount ..).trans (.setUmodes _ status)
      · exact .refl st.net
    · split
      · exact stays_deoper status
      · exact .refl st.net
  case h_5 | h_6 | h_7 | h_8 => exact .refl st.net
  case h_9 =>
    split
    · exact .setUmodes _ status
    · split <;> exact .refl st.net

theorem stays_letters (cptr : ClientId) (text : CStr) (st : UmodeLoop)
    (status : (st.net.client u).status = .client) :
    Stays st.net (text.foldl (umodeLetter cptr u) st).net := by
  induction text generalizing st with
  | nil => exact .refl st.net
  | cons letter rest ih =>
    have first := stays_umodeLetter cptr st letter status
    exact first.trans (ih _ (by rw [first.graph.status, status]))

theorem stays_repairs (rs : List Repair) (n : Network) (status : (n.client u).status = .client) :
    Stays n (rs.foldl (repair u) n) := by
  induction rs generalizing n with
  | nil => exact .refl n
  | cons r rest ih =>
    have first : Stays n (repair u n r) := by
      unfold repair
      simp only
      split
      · exact (Aside.sendLine ..).stays.trans (.setUmodes _ status)
      · exact .refl n
    exact first.trans (ih _ (by rw [first.graph.status, status]))

theorem aside_sendUmodeOut (n : Network) (cptr sptr : ClientId) (old : Umodes) :
    Aside n (n.sendUmodeOut cptr sptr old) := by
  have told (buf : CStr) (links : List ClientId) (n : Network) :
      Aside n (links.foldl (tellUmodes cptr sptr buf) n) := by
    induction links generalizing n with
    | nil => exact .refl n
    | cons link rest ih =>
      refine Aside.trans ?_ (ih _)
      unfold tellUmodes
      split
      · exact .sendLine ..
      · exact .refl n
  unfold sendUmodeOut
  simp only
  split
  · exact (told ..).trans (.sendLine ..)
  · exact told ..

theorem stays_changeUmodes (cptr : ClientId) (modes : List CStr)
    (status : (n.client u).status = .client) : Stays n (n.changeUmodes cptr u modes) := by
  have letters : Stays n (n.readUmodes cptr u modes) := by
    have read := stays_letters cptr modes.flatten { net := n, add := true, badflag := false } status
    unfold readUmodes
    simp only
    split
    · exact read.trans (stays_reply ..)
    · exact read
  unfold changeUmodes
  simp only
  generalize n.readUmodes cptr u modes = m at letters ⊢
  have repaired := letters.trans (stays_repairs repairs m (by rw [letters.graph.status, status]))
  generalize repairs.foldl (repair u) m = m₁ at repaired ⊢
  refine (repaired.trans ?_).trans (aside_sendUmodeOut ..).stays
  unfold countInvisible
  split
  · exact .setCount ..
  · split
    · exact .setCount ..
    · exact .refl m₁

theorem stays_userMode (n : Network) (cptr sptr : ClientId) (args : List CStr) :
    Stays n (n.userMode cptr sptr args) := by
  unfold userMode
  split
  · exact stays_reply ..
  · split
    · split
      · exact stays_reply ..
      · exact .refl n
    · next acptr found =>
      split
      · split
        · exact (Aside.emit n _).stays
        · exact stays_reply ..
      · next same =>
        split
        · exact stays_reply ..
        · have itself : sptr = acptr := by_contra fun other => same (.inr (.inl other))
          have person := (Option.filter_eq_some_iff.1 found).2
          refine stays_changeUmodes cptr _ ?_
          subst itself
          simp only [Client.isPerson, Client.isClient, Bool.and_eq_true, beq_iff_eq] at person
          exact person.1

theorem stays_becomeOper (o : Opers) (cptr sptr : ClientId) (aconf : ConfId)
    (status : (o.net.client sptr).status = .client) :
    Stays o.net (o.becomeOper cptr sptr aconf).net := by
  have enrolled : Stays o.net (o.enroll cptr).net := by
    have counted := Stays.setCount o.net { o.net.count with oper := o.net.count.oper + 1 }
    unfold Opers.enroll
    simp only
    generalize o.net.setCount { o.net.count with oper := o.net.count.oper + 1 } = m at counted ⊢
    have granted (privs : OperPriv → Bool) : Aside m
        { m.setPeer cptr { m.peer cptr with privs } with operCptrList := cptr :: m.operCptrList } := by
      have written : Aside m (m.setPeer cptr { m.peer cptr with privs }) := .setPeer rfl rfl rfl
      exact written.trans (.counters _ (cptr :: m.operCptrList) m.localCptrList m.count)
    exact counted.trans (granted _).stays
  unfold Opers.becomeOper
  simp only
  generalize o.enroll cptr = o' at enrolled ⊢
  have written := enrolled.trans (.setUmodes (u := sptr)
    ((o'.confs.conf aconf).operModes (o'.net.peer sptr).privs (o'.net.peer sptr).umodes)
    (by rw [enrolled.graph.status, status]))
  generalize o'.net.setUmodes sptr
    ((o'.confs.conf aconf).operModes (o'.net.peer sptr).privs (o'.net.peer sptr).umodes) = m
    at written ⊢
  have noted (text : CStr) : Stays m (if (o'.confs.conf aconf).hold.isSome = true then
      m.sendLine sptr text else m) := by
    split
    · exact (Aside.sendLine ..).stays
    · exact .refl m
  exact (written.trans (noted _)).trans
    ((aside_sendUmodeOut ..).trans ((Aside.sendLine ..).trans (.sendLine ..))).stays

theorem stays_mOper (crypt : CStr → CStr → CStr) (o : Opers) (cptr sptr : ClientId)
    (args : List CStr) (status : (o.net.client sptr).status = .client) :
    Stays o.net (o.mOper crypt cptr sptr args).net := by
  have told (text : CStr) (us : List ClientId) (n : Network) :
      Aside n (us.foldl (fun n acptr => n.sendLine acptr text) n) := by
    induction us generalizing n with
    | nil => exact .refl n
    | cons link rest ih => exact (Aside.sendLine ..).trans (ih _)
  unfold Opers.mOper
  simp only
  split
  · exact stays_reply ..
  · split
    · exact (Stays.setCount ..).trans (told ..).stays
    · split
      · split
        · exact (Aside.sendLine ..).stays
        · exact .refl o.net
      · split
        · exact (Aside.sendLine ..).stays
        · next aconf _ =>
          generalize (if (o.confs.conf aconf).passwd = [] then []
            else crypt (args.getD 1 []) (o.confs.conf aconf).passwd) = encr
          split
          · exact stays_becomeOper { o with confs := (o.confs.attachConf sptr aconf).1 } cptr sptr
              aconf status
          · exact (Aside.sendLine ..).stays

theorem sameDirectory_rehashJupes (t : Tables) (old : List CStr) (new : List (CStr × CStr)) :
    Tables.SameDirectory t (t.rehashJupes old new) := by
  have marked (t : Tables) (c : ChanId) (ch : Channel) : Tables.SameDirectory t (t.setChan c ch) :=
    ⟨rfl, rfl, rfl, rfl, rfl, rfl, fun _ => rfl⟩
  have clear (t : Tables) (name : CStr) : Tables.SameDirectory t (t.clearJupe name) := by
    unfold Tables.clearJupe
    split
    · split
      · exact marked ..
      · exact .refl t
    · exact .refl t
  have jupe (t : Tables) (name reason : CStr) :
      Tables.SameDirectory t (t.jupeChannel name reason) := by
    have block (t' : Tables) (c : ChanId) (same : Tables.SameDirectory t t') :
        Tables.SameDirectory t (if reason ≠ [] then
          (t'.setChan c { t'.chan c with juped := true }).setChan c
            { (t'.setChan c { t'.chan c with juped := true }).chan c with
              topic := strncpyIrc reason topicLen }
          else t'.setChan c { t'.chan c with juped := true }) := by
      split
      · exact (same.trans (marked ..)).trans (marked ..)
      · exact same.trans (marked ..)
    unfold Tables.jupeChannel
    split
    · cases t.hashFindChannel name with
      | some c => exact block t c (.refl t)
      | none => exact block _ t.nextChan (Tables.sameDirectory_createChannel t name)
    · exact .refl t
  have clears (old : List CStr) (t : Tables) :
      Tables.SameDirectory t (old.foldl (fun t name => t.clearJupe name) t) := by
    induction old generalizing t with
    | nil => exact .refl t
    | cons name old ih => exact (clear t name).trans (ih _)
  have jupes (new : List (CStr × CStr)) (t : Tables) :
      Tables.SameDirectory t (new.foldl (fun t q => t.jupeChannel q.1 q.2) t) := by
    induction new generalizing t with
    | nil => exact .refl t
    | cons q new ih => exact (jupe t q.1 q.2).trans (ih _)
  exact (clears old t).trans (jupes new _)

theorem directory_mMode {s : Server} (sound : s.Sound) (routed : Routed s.toTables cptr sptr)
    {parv : List CStr} (safe : ¬ ModeFreesTwice s.toTables sptr parv) :
    Tables.SameDirectory s.toTables (mMode s cptr sptr parv).toTables := by
  cases target : modeTarget s.toTables parv with
  | none =>
    rw [(mMode_reply target cptr sptr).1]
    exact .refl _
  | some p =>
    obtain ⟨c, modes⟩ := p
    have once : (modeRun (modeEnv s.toTables cptr sptr c) modes).destroyed ≤ 1 := by
      obtain ⟨oper, frees, -⟩ | ⟨-, none⟩ := modeRun_destroyed sound routed target
      · rw [frees]
        exact Nat.le_of_not_lt fun twice => safe ⟨modes, oper, twice⟩
      · omega
    rw [mMode_target target]
    have listed := listed_of_modeTarget sound target
    exact (Server.edit_setChannelMode sound listed cptr sptr modes once).1.directory

theorem stays_channels (sane : n.Sane) {e : Event} (comes : e.Comes n.toTables)
    (safe : ¬ e.WritesFreed n.toServer)
    (on : (∃ cmd cptr sptr parv, e = .command cmd cptr sptr parv) ∨ ∃ old new, e = .rehash old new) :
    Stays n { n with toServer := n.toServer.event e } := by
  have directory : Tables.SameDirectory n.toTables (n.toServer.event e).toTables := by
    rcases on with ⟨cmd, cptr, sptr, parv, rfl⟩ | ⟨old, new, rfl⟩
    · cases cmd with
      | join => exact (tidy_mJoin sane.sound cptr sptr parv safe).directory
      | part => exact (tidy_mPart sane.sound cptr sptr parv).directory
      | kick => exact (tidy_mKick sane.sound cptr sptr parv).directory
      | sjoin => exact (clean_mSjoin sane.sound cptr sptr parv).1.directory
      | mode => exact directory_mMode sane.sound comes safe
    · exact sameDirectory_rehashJupes ..
  exact ⟨.channels directory, fun sound => sound_event sound comes safe, fun _ => rfl, rfl⟩

theorem Sane.accept (sane : n.Sane) : n.accept.Sane := by
  have fit := fit_makeClient sane.toFit none fun _ absurdity => by cases absurdity
  refine (beside_makeClient n none).sane sane fit (fun _ _ => ?_) (fun _ _ named => ?_)
  · simp [makeClient, Tables.setClient]
  · simp [makeClient, Tables.setClient, Tables.nameOf, Client.zero] at named

theorem Sane.connectServer (sane : n.Sane) (name : CStr) : (n.connectServer name).Sane := by
  unfold Network.connectServer
  split
  · exact sane
  · have fit := fit_makeClient sane.toFit none fun _ absurdity => by cases absurdity
    have beside := beside_makeClient n none
    have outside : n.nextClient ∉ (n.makeClient none).clients := fun inside =>
      sane.tree.fresh (sane.tree.ok.listed _ inside)
    have notMe := sane.tree.me_ne_nextClient
    have client : (n.makeClient none).client n.nextClient =
        { Client.zero with localFlag := true, from_ := n.nextClient, username := lit "unknown" } := by
      simp [makeClient, Tables.setClient]
    have block : ((n.makeClient none).peer n.nextClient).serv = none := by
      simp [makeClient, Peer.zero]
    simp only
    generalize n.nextClient = u at *
    generalize n.makeClient none = m at *
    have same : SamePlace (m.client u)
        { m.client u with name := strncpyIrc name hostLen, status := .connecting } := by
      rw [client]
      constructor <;> rfl
    have sane' := sane.setClient beside fit notMe same (fun inside => absurd inside outside)
      (fun _ => by rw [client]) fun absurdity => by cases absurdity
    -- the block that is made holds nobody
    refine Stays.sane ⟨.setPeer rfl ?_ fun _ => rfl, id, fun v => ?_, rfl⟩ sane'
    · funext k
      change _ = llist (m.peer u).serv k
      rw [block]
      cases k <;> rfl
    · by_cases here : v = u
      · subst here
        simp [setServ, setPeer]
      · simp [setServ, setPeer, here]

theorem Sane.completedConnection (sane : n.Sane) (listed : cptr ∈ n.globalClientList)
    (cConf : Option CConf) (nConf : Option NConf) :
    (n.completedConnection cptr cConf nConf).Sane := by
  unfold Network.completedConnection
  split
  · exact sane
  · next status =>
    rw [ne_eq, not_not] at status
    have loose : (n.client cptr).status.kind = .loose := by simp [status, Status.kind]
    have notMe := sane.loose_of_unknown listed loose
    split
    · next cConf nConf =>
      -- a connection has no place in the graph before SERVER
      have same : SamePlace (n.client cptr) { n.client cptr with status := .handshake } := by
        constructor <;> first | rfl | simp [status, Status.kind]
      have sane' := sane.setClient ((Aside.refl n).beside cptr) sane.toFit notMe same (fun _ => rfl)
        (fun _ => sane.settled cptr listed loose) fun absurdity => by cases absurdity
      have answered (m : Network) : Aside m (m.answerServer cptr nConf cConf) := by
        unfold answerServer
        simp only
        split
        · exact .sendLine ..
        · exact (Aside.sendLine ..).trans (.sendLine ..)
      exact sane'.aside (answered _)
    · exact sane.exit listed notMe ..

theorem aside_mPass (n : Network) (cptr sptr : ClientId) (parv : List CStr) :
    Aside n (n.mPass cptr sptr parv) := by
  unfold Network.mPass
  simp only
  split
  · exact .sendLine ..
  · split
    · exact .sendLine ..
    · split
      · exact .setPeer rfl rfl rfl
      · exact .refl n

theorem Sane.mCapab (sane : n.Sane) (listed : cptr ∈ n.globalClientList) (parv : List CStr) :
    (n.mCapab cptr parv).Sane := by
  unfold Network.mCapab
  simp only
  split
  · exact sane
  · next fresh =>
    have status : (n.client cptr).status = .unknown ∨ (n.client cptr).status = .handshake := by
      rw [not_or, not_and_or, not_not, not_not] at fresh
      exact fresh.1
    have loose : (n.client cptr).status.kind = .loose := by
      rcases status with status | status <;> simp [status, Status.kind]
    have notMe := sane.loose_of_unknown listed loose
    split
    · exact sane.exit listed notMe ..
    · generalize (tokens (· == ' ') (parv.getD 1 [])) = caps
      have same : SamePlace (n.client cptr) { n.client cptr with
          capEx := caps.contains (lit "EX"), capIe := caps.contains (lit "IE") } := by
        constructor <;> rfl
      have sane' := sane.setClient ((Aside.refl n).beside cptr) sane.toFit notMe same (fun _ => rfl)
        (fun _ => sane.settled cptr listed loose) fun unknown given =>
          sane.called cptr listed unknown given
      exact sane'.aside (.setPeer rfl rfl rfl)

end Network

inductive NetEvent where
  | tick (now : Int)
  | split (split : SplitState)
  /-- `add_connection` -/
  | accept
  | pass (cptr sptr : ClientId) (parv : List CStr)
  | capab (cptr : ClientId) (parv : List CStr)
  | connectServer (name : CStr)
  | completed (cptr : ClientId) (cConf : Option CConf) (nConf : Option NConf)
  | nick (cptr sptr : ClientId) (parv : List CStr) (terms : UserTerms)
  | user (cptr sptr : ClientId) (parv : List CStr) (terms : UserTerms)
  | server (cptr sptr : ClientId) (parv : List CStr) (adm : Admission)
  /-- MODE of a user; the parameters start after the prefix. -/
  | userMode (cptr sptr : ClientId) (args : List CStr)
  | oper (confs : ConfTables) (crypt : CStr → CStr → CStr) (cptr sptr : ClientId)
    (args : List CStr)
  | command (cmd : Command) (cptr sptr : ClientId) (parv : List CStr)
  /-- Any other exit: QUIT, SQUIT, KILL, a socket that closed, a ban. -/
  | exit (cptr sptr from_ : ClientId) (killed : Bool) (comment : CStr)
  | rehash (old : List CStr) (new : List (CStr × CStr))

namespace Network

def netEvent (n : Network) : NetEvent → Network
  | .tick now => n.edit fun t => { t with currentTime := now }
  | .split split => n.edit (·.setSplit split)
  | .accept => n.accept
  | .pass cptr sptr parv => n.mPass cptr sptr parv
  | .capab cptr parv => n.mCapab cptr parv
  | .connectServer name => n.connectServer name
  | .completed cptr cConf nConf => n.completedConnection cptr cConf nConf
  | .nick cptr sptr parv terms => n.mNick cptr sptr parv terms
  | .user cptr sptr parv terms => n.mUser cptr sptr parv terms
  | .server cptr sptr parv adm => n.mServer cptr sptr parv adm
  | .userMode cptr sptr args => n.userMode cptr sptr args
  | .oper confs crypt cptr sptr args => (Opers.mOper crypt { net := n, confs } cptr sptr args).net
  | .command cmd cptr sptr parv =>
    { n with toServer := n.toServer.event (.command cmd cptr sptr parv) }
  | .exit cptr sptr from_ killed comment => n.exitClient cptr sptr from_ killed comment
  | .rehash old new => { n with toServer := n.toServer.event (.rehash old new) }

def netMachine : Machine Network NetEvent := { step := netEvent }

/-- What the rest of the server sees to before a step, and what its senders do. A connection
that has sent NICK does not send SERVER, and USER comes from connections; no command writes
to a freed channel. -/
def NetComes (n : Network) : NetEvent → Prop
  | .pass cptr sptr _ => n.ComesFrom cptr sptr
  | .capab cptr _ => cptr ∈ n.globalClientList
  | .completed cptr _ _ => cptr ∈ n.globalClientList
  | .nick cptr sptr _ _ => n.ComesFrom cptr sptr
  | .user cptr sptr _ _ => n.ComesFrom cptr sptr ∧ (n.client sptr).myConnect = true
  | .server cptr sptr _ _ =>
    n.ComesFrom cptr sptr ∧ ((n.client cptr).isServer = false → cptr ∉ n.clients)
  | .oper _ _ _ sptr _ => (n.client sptr).status = .client
  | .command cmd cptr sptr parv =>
    Event.Comes (.command cmd cptr sptr parv) n.toTables ∧
      ¬ Event.WritesFreed (.command cmd cptr sptr parv) n.toServer
  | .exit _ sptr _ _ _ => sptr ∈ n.globalClientList ∧ sptr ≠ n.me
  | _ => True

variable {n : Network} {u v p : ClientId}

instance (n : Network) (cptr sptr : ClientId) : Decidable (n.ComesFrom cptr sptr) :=
  decidable_of_iff (cptr ∈ n.globalClientList ∧ (n.client cptr).localFlag = true ∧
    sptr ∈ n.globalClientList ∧ (n.client sptr).from_ = cptr ∧ sptr ≠ n.me)
    ⟨fun ⟨a, b, c, d, e⟩ => ⟨a, b, c, d, e⟩, fun ⟨a, b, c, d, e⟩ => ⟨a, b, c, d, e⟩⟩

theorem Sane.netEvent (sane : n.Sane) {e : NetEvent} (comes : n.NetComes e) :
    (n.netEvent e).Sane := by
  cases e with
  | tick now =>
    have timed : Stays n (n.edit fun t => { t with currentTime := now }) := by
      refine ⟨?_, ?_, fun _ => rfl, rfl⟩
      · constructor <;> first | rfl | exact fun _ => rfl | exact fun _ => id
      · have keeps : n.toTables.Keeps { n.toTables with currentTime := now } :=
          .directory rfl rfl rfl rfl (fun sound => sound.outside) fun sound => sound.proper
        exact keeps.sound
    exact timed.sane sane
  | split split =>
    have counted : Stays n (n.edit (·.setSplit split)) := by
      refine ⟨?_, ?_, fun _ => rfl, rfl⟩
      · constructor <;> first | rfl | exact fun _ => rfl | exact fun _ => id
      · have keeps : n.toTables.Keeps (n.toTables.setSplit split) :=
          .directory rfl rfl rfl rfl (fun sound => sound.outside) fun sound => sound.proper
        exact keeps.sound
    exact counted.sane sane
  | accept => exact sane.accept
  | pass cptr sptr parv => exact sane.aside (aside_mPass n cptr sptr parv)
  | capab cptr parv => exact sane.mCapab comes parv
  | connectServer name => exact sane.connectServer name
  | completed cptr cConf nConf => exact sane.completedConnection comes cConf nConf
  | nick cptr sptr parv terms => exact sane.mNick comes parv terms
  | user cptr sptr parv terms => exact sane.mUser comes.1.here comes.1.notMe comes.2 parv terms
  | server cptr sptr parv adm => exact sane.mServer comes.1 comes.2 parv adm
  | userMode cptr sptr args => exact (stays_userMode n cptr sptr args).sane sane
  | oper confs crypt cptr sptr args =>
    exact (stays_mOper crypt { net := n, confs } cptr sptr args comes).sane sane
  | command cmd cptr sptr parv =>
    exact (stays_channels sane comes.1 comes.2 (.inl ⟨_, _, _, _, rfl⟩)).sane sane
  | exit cptr sptr from_ killed comment => exact sane.exit comes.1 comes.2 ..
  | rehash old new => exact (stays_channels (e := .rehash old new) sane trivial id (.inr ⟨_, _, rfl⟩)).sane sane

theorem tree_startUp (name : CStr) (now : Int) : (startUp name now).Tree := by
  have only : ∀ u, u ∈ (startUp name now).globalClientList ↔ u = 0 := by
    intro u
    simp [startUp]
  have others : ∀ u, ((startUp name now).client u).user = false := by
    intro u
    by_cases here : u = 0 <;> simp [startUp, Server.startUp, here, Client.zero]
  have noKids : ∀ k, (startUp name now).forest.kids k 0 = [] := by
    intro k
    cases k <;> rfl
  have shape : (startUp name now).forest.Shape := by
    constructor
    case sorted => exact List.pairwise_singleton _ _
    case below =>
      intro u inside
      rw [(only u).1 inside]
      exact Nat.zero_lt_one
    case root_listed => exact List.mem_singleton_self _
    case root_le => exact fun u _ => Nat.zero_le u
    case root_iff =>
      intro u inside
      rw [(only u).1 inside]
      exact iff_of_true rfl rfl
    case root_via | root_parent => rfl
    case loose_iff => exact fun u inside below => absurd ((only u).1 inside) below
    case hung =>
      intro u inside p parent
      rw [(only u).1 inside] at parent
      cases parent
    case kids_iff =>
      intro k p inside u
      rw [(only p).1 inside, noKids]
      refine iff_of_false List.not_mem_nil fun kid => ?_
      rw [(only u).1 kid.1] at kid
      cases kid.2.2
    case kids_nodup =>
      intro k p inside
      rw [(only p).1 inside, noKids]
      exact List.nodup_nil
  have named : (startUp name now).forest.Named := by
    refine ⟨List.nodup_singleton _, fun u inside => inside, fun u inside _ => inside, ?_⟩
    intro u inside v inside' _
    exact ((only u).1 inside).trans ((only v).1 inside').symm
  refine ⟨⟨shape, named⟩, rfl, ?_, ?_, ?_, ?_, List.nodup_nil⟩
  · intro u inside
    rw [(only u).1 inside]
    exact iff_of_false Bool.false_ne_true fun absurdity => absurdity.2 rfl
  · intro u inside _
    rw [(only u).1 inside]
    rfl
  · intro u
    rw [others]
    refine iff_of_false Bool.false_ne_true fun absurdity => ?_
    rw [(only u).1 absurdity.1] at absurdity
    cases absurdity.2
  · intro u
    refine iff_of_false List.not_mem_nil fun absurdity => ?_
    rw [(only u).1 absurdity.1] at absurdity
    cases absurdity.2.1

theorem sane_startUp (name : CStr) (now : Int) : (startUp name now).Sane := by
  have only : ∀ u, u ∈ (startUp name now).globalClientList → u = 0 := by
    intro u
    simp [startUp]
  refine ⟨⟨tree_startUp name now, ?_, sound_startUp name now, .inl rfl, fun u inside => .inl ?_⟩,
    fun u inside loose => ?_, fun u inside unknown => ?_⟩
  · intro u inside notMe
    rw [only u inside] at notMe
    exact absurd rfl notMe
  · rw [only u inside]
    rfl
  · rw [only u inside] at loose
    cases loose
  · rw [only u inside] at unknown
    cases unknown

theorem sane_of_run {name : CStr} {now : Int} {es : List NetEvent}
    (steps : netMachine.Meets NetComes (startUp name now) es) {pre : List NetEvent}
    (inside : pre <+: es) : (netMachine.run (startUp name now) pre).Sane :=
  steps.always (fun _ _ sane comes => sane.netEvent comes) (sane_startUp name now) inside

def followServptr (n : Network) : Nat → ClientId → Option ClientId
  | 0, u => some u
  | k + 1, u => (n.peer u).servptr.bind (n.followServptr k)

def Registered (n : Network) (u : ClientId) : Prop :=
  u ∈ n.globalClientList ∧ ((n.client u).status = .server ∨ (n.client u).status = .client)

instance (n : Network) (u : ClientId) : Decidable (n.Registered u) :=
  inferInstanceAs (Decidable (_ ∧ _))

structure ServerGraph (n : Network) : Prop where
  /-- No two clients have the same name, be they users or servers. -/
  unique : ∀ u ∈ n.clients, ∀ v ∈ n.clients, irccmp (n.nameOf u) (n.nameOf v) = .eq → u = v
  found : ∀ u, n.Registered u → n.findClient (n.nameOf u) = some u
  /-- `servptr` leads to `me`, and last from the connection that `from` names. -/
  path : ∀ u, n.Registered u → ∃ k, n.followServptr k u = some (n.client u).from_ ∧
    n.followServptr (k + 1) u = some n.me ∧ ∀ j ≤ k, n.followServptr j u ≠ some n.me
  link : ∀ u, n.Registered u →
    (n.client u).from_ ∈ n.globalClientList ∧ (n.client (n.client u).from_).localFlag = true ∧
      ((n.client u).from_ ≠ u → (n.client (n.client u).from_).isServer = true)
  /-- The lists of a server are what points to it. -/
  servers : ∀ p ∈ n.globalClientList, ∀ sv, (n.peer p).serv = some sv → sv.servers.Nodup ∧
    ∀ u, u ∈ sv.servers ↔
      u ∈ n.globalClientList ∧ (n.client u).status = .server ∧ (n.peer u).servptr = some p
  users : ∀ p ∈ n.globalClientList, ∀ sv, (n.peer p).serv = some sv → sv.users.Nodup ∧
    ∀ u, u ∈ sv.users ↔
      u ∈ n.globalClientList ∧ (n.client u).status = .client ∧ (n.peer u).servptr = some p
  /-- `serv_cptr_list` holds the links. -/
  links : n.servCptrList.Nodup ∧ ∀ u, u ∈ n.servCptrList ↔
    u ∈ n.globalClientList ∧ (n.client u).status = .server ∧ (n.client u).localFlag = true

theorem followServptr_eq {j k : Nat} {w : ClientId} (path : n.forest.up k u = some w)
    (early : j ≤ k) : n.followServptr j u = n.forest.up j u := by
  induction j generalizing u k with
  | zero => rfl
  | succ j ih =>
    obtain ⟨k, rfl⟩ : ∃ k', k = k' + 1 := ⟨k - 1, by omega⟩
    obtain ⟨q, parent, rest⟩ := Option.bind_eq_some_iff.1 path
    have servptr : (n.peer u).servptr = some q := by
      simp only [forest] at parent
      split at parent
      · cases parent
      · exact parent
    rw [followServptr, Forest.up, servptr, parent, Option.bind_some, Option.bind_some,
      ih rest (Nat.le_of_succ_le_succ early)]

namespace Tree

variable (tree : n.Tree)
include tree

theorem registered_kind (here : n.Registered u) : n.forest.kind u ≠ .loose ∧ u ≠ n.me := by
  obtain ⟨listed, role⟩ := here
  refine ⟨?_, fun top => ?_⟩
  · rcases role with role | role <;> simp [forest, role, Status.kind]
  · rw [(tree.status_me_iff listed).2 top] at role
    rcases role with role | role <;> cases role

theorem up_ne_me {j k : Nat} {w : ClientId} (path : n.forest.up k u = some w) (below : w ≠ n.me)
    (early : j ≤ k) : n.forest.up j u ≠ some n.me := by
  induction k generalizing u j with
  | zero =>
    obtain rfl : j = 0 := Nat.le_zero.1 early
    rw [path, ne_eq, Option.some.injEq]
    exact below
  | succ k ih =>
    obtain ⟨q, parent, rest⟩ := Option.bind_eq_some_iff.1 path
    cases j with
    | zero =>
      intro same
      rw [Forest.up, Option.some.injEq] at same
      rw [same, show n.forest.parent n.me = none from tree.ok.root_parent] at parent
      cases parent
    | succ j =>
      rw [Forest.up, parent, Option.bind_some]
      exact ih rest (Nat.le_of_succ_le_succ early)

theorem findClient_self (inside : u ∈ n.clients) : n.findClient (n.nameOf u) = some u := by
  unfold Tables.findClient
  cases found : n.clients.find? fun v => irccmp (n.nameOf u) (n.nameOf v) == .eq with
  | none =>
    have none := List.find?_eq_none.1 found u inside
    simp at none
  | some v =>
    have same := List.find?_some found
    rw [beq_iff_eq, irccmp_eq_iff_nameKey] at same
    rw [tree.ok.unique u inside v (List.mem_of_find?_eq_some found) same]

theorem serverGraph : n.ServerGraph := by
  constructor
  case unique =>
    intro u inside v inside' same
    exact tree.ok.unique u inside v inside' ((irccmp_eq_iff_nameKey _ _).1 same)
  case found =>
    intro u here
    exact tree.findClient_self (tree.ok.placed u here.1 (tree.registered_kind here).1)
  case path =>
    intro u here
    obtain ⟨placed, notMe⟩ := tree.registered_kind here
    obtain ⟨k, last, top, -, below, -⟩ := tree.ok.path here.1 placed notMe
    refine ⟨k, (followServptr_eq last (Nat.le_refl k)).trans last,
      (followServptr_eq top (Nat.le_refl (k + 1))).trans top, fun j early => ?_⟩
    rw [followServptr_eq last early]
    exact tree.up_ne_me last below early
  case link =>
    intro u here
    obtain ⟨placed, notMe⟩ := tree.registered_kind here
    obtain ⟨-, -, -, listed, below, parent⟩ := tree.ok.path here.1 placed notMe
    have via := (tree.ok.hung _ listed _ parent).2.2
    rw [if_pos rfl] at via
    refine ⟨listed, (tree.mine _ listed).2 ⟨via, below⟩, fun other => ?_⟩
    have under := tree.ok.below_via here.1 placed notMe (Ne.symm other)
    obtain ⟨⟨-, kind⟩, -⟩ := under.of_shape tree.ok.toShape here.1
    refine (isServer_iff _).2 (kind_eq_inner.1 (kind.resolve_left fun root => below ?_))
    exact (tree.ok.root_iff _ listed).1 root
  case servers =>
    intro p listed sv serv
    have nodup := tree.ok.kids_nodup .inner p listed
    simp only [forest, llist, serv, Option.map_some, Option.getD_some] at nodup
    exact ⟨nodup, fun u => tree.mem_servers_iff listed serv⟩
  case users =>
    intro p listed sv serv
    have nodup := tree.ok.kids_nodup .leaf p listed
    simp only [forest, llist, serv, Option.map_some, Option.getD_some] at nodup
    exact ⟨nodup, fun u => tree.mem_users_iff listed serv⟩
  case links => exact ⟨tree.links_nodup, tree.links⟩

end Tree

/-- The server graph is a tree in every state of every run. -/
theorem serverGraph_of_run {name : CStr} {now : Int} {es : List NetEvent}
    (steps : netMachine.Meets NetComes (startUp name now) es) {pre : List NetEvent}
    (inside : pre <+: es) : (netMachine.run (startUp name now) pre).ServerGraph :=
  (sane_of_run steps inside).tree.serverGraph

def openTerms : UserTerms where
  quarantined := false
  tooFast := false
  made := false
  otherMade := false
  outcome := .accepted
  reason := []
  username := lit "al"

def openAdmission : Admission where
  nLine := true
  autoconn := true
  leaf := none
  hub := some 0
  checked := true
  nConf := some { passwd := [], user := lit "*", port := 0 }
  cConf := some { passwd := [], zipLink := false }
  passwd := []
  isHub := true
  capZip := false
  zipInit := true

/-- A user registers, a link comes up with a server and a user behind it, and breaks. -/
def splitRun : List NetEvent :=
  [.accept, .nick 1 1 [lit "al", lit "al"] openTerms,
    .user 1 1 [lit "al", lit "al", lit "h.x", lit "s.x", lit "Al"] openTerms, .accept,
    .pass 2 2 [[], lit "pw", lit "TS"],
    .server 2 2 [[], lit "hub.b", lit "1", lit "Hub"] openAdmission,
    .server 2 2 [lit "hub.b", lit "leaf.c", lit "2", lit "Leaf"] openAdmission,
    .nick 2 3 [lit "leaf.c", lit "bo", lit "2", lit "7", lit "+i", lit "bo", lit "h.y",
      lit "leaf.c", lit "Bo"] openTerms,
    .exit 2 2 2 false (lit "gone")]

def splitAt (k : Nat) : Network := netMachine.run (startUp (lit "a.b") 5) (splitRun.take k)

theorem meets_splitRun : netMachine.Meets NetComes (startUp (lit "a.b") 5) splitRun := by
  have senders : (splitAt 1).ComesFrom 1 1 ∧ (splitAt 2).ComesFrom 1 1 ∧
      (splitAt 4).ComesFrom 2 2 ∧ (splitAt 5).ComesFrom 2 2 ∧ (splitAt 6).ComesFrom 2 2 ∧
      (splitAt 7).ComesFrom 2 3 ∧ ((splitAt 2).client 1).myConnect = true ∧
      (((splitAt 5).client 2).isServer = false → 2 ∉ (splitAt 5).clients) ∧
      (((splitAt 6).client 2).isServer = false → 2 ∉ (splitAt 6).clients) ∧
      2 ∈ (splitAt 8).globalClientList ∧ 2 ≠ (splitAt 8).me := by decide +kernel
  obtain ⟨nick, user, pass, link, server, behind, mine, unnamed, linked, exit⟩ := senders
  exact ⟨trivial, nick, ⟨user, mine⟩, trivial, pass, ⟨link, unnamed⟩, ⟨server, linked⟩, behind,
    exit, trivial⟩

theorem serverGraph_splitAt :
    (netMachine.run (startUp (lit "a.b") 5) (splitRun.take 8)).ServerGraph :=
  serverGraph_of_run meets_splitRun (List.take_prefix 8 splitRun)

end Network

end Ircd
