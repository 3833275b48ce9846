import Ircd.Server.Direct
import Ircd.Server.NextClient
import Ircd.Text.Glob

/-! `hunt_server`: where a message that is meant for another server goes.

The target is looked up as a client, as a server, as a server once more and by a walk along
all clients. All of these but the third leave out what lies behind the link that the message
has come over.
-/

set_option autoImplicit false

namespace Ircd

open Chain

/-- A call of `sendto_one`. The line goes out over `acptr->from`. -/
structure SendToOne where
  acptr : ClientId
  pattern : CStr
  args : List CStr
  deriving DecidableEq, Repr

/-- How `hunt_server` ends, with what it sends. -/
inductive Hunted where
  | isMe
  | noSuch (reply : SendToOne)
  | pass (message : SendToOne)
  deriving DecidableEq, Repr

/-- `hunt_server` hands nine parameters to the format, the prefix among them. -/
def huntParams : Nat := 9

def hasWilds (s : CStr) : Bool := s.contains '?' || s.contains '*'

namespace ClientList

def linkOf (s : ClientList) (u : ClientId) : ClientId := (s.names.client u).from_

def myConnect (s : ClientList) (u : ClientId) : Bool := (s.names.client u).localFlag

/-- `acptr->from == sptr->from && !MyConnect(acptr)` -/
def wrongWay (s : ClientList) (sptr acptr : ClientId) : Bool :=
  s.linkOf acptr == s.linkOf sptr && !s.myConnect acptr

def isRegistered (s : ClientList) (u : ClientId) : Bool :=
  (s.names.client u).status == .server || (s.names.client u).status == .client

def isHere (s : ClientList) (u : ClientId) : Bool :=
  (s.names.client u).status == .me || s.myConnect u && (s.names.client u).status == .client

def asksMe (s : ClientList) (target : CStr) : Bool :=
  target.isEmpty || matchMask (s.names.nameOf s.names.me) target ||
    matchMask target (s.names.nameOf s.names.me)

/-- `find_client`, without what is behind the link of the source. -/
def huntClient (s : ClientList) (sptr : ClientId) (target : CStr) : Option ClientId :=
  (s.findClient target none).filter (!s.wrongWay sptr ·)

def quickHunt (s : ClientList) (sptr : ClientId) (target : CStr) : Option ClientId :=
  (s.huntClient sptr target).or ((s.names.hashFindServer target).filter (!s.wrongWay sptr ·))

/-- The walk with `next_client` when so many turns are left. -/
def huntScan (s : ClientList) (cptr sptr : ClientId) (target : CStr) :
    Nat → Option ClientId → Option (Option ClientId)
  | 0, _ => none
  | turns + 1, acptr =>
    match s.nextClient acptr target with
    | none => some none
    | some acptr =>
      if s.wrongWay sptr acptr then s.huntScan cptr sptr target turns (s.next acptr)
      else if s.isRegistered acptr && acptr != cptr then some (some acptr)
      else s.huntScan cptr sptr target turns (s.next acptr)

def huntFound (s : ClientList) (command : CStr) (server : Nat) (parv : List CStr)
    (acptr : ClientId) : Hunted × List CStr :=
  if s.isHere acptr then (.isMe, parv)
  else
    let name := s.names.nameOf acptr
    let parv := if matchMask name (parv.getD server []) then parv else parv.set server name
    (.pass { acptr, pattern := command, args := parv.take huntParams }, parv)

def huntMissed (s : ClientList) (sptr : ClientId) (server : Nat) (parv : List CStr) :
    Hunted × List CStr :=
  (.noSuch { acptr := sptr, pattern := lit ":%s 402 %s %s :No such server"
             args := [s.names.nameOf s.names.me, parv.getD 0 [], parv.getD server []] }, parv)

def huntEnd (s : ClientList) (sptr : ClientId) (command : CStr) (server : Nat) (parv : List CStr)
    (acptr : Option ClientId) : Hunted × List CStr :=
  match acptr with
  | some acptr => s.huntFound command server parv acptr
  | none => s.huntMissed sptr server parv

/-- `hunt_server` and the `parv` that it leaves, if its walk ends within so many turns. -/
def huntServer (s : ClientList) (turns : Nat) (cptr sptr : ClientId) (command : CStr)
    (server : Nat) (parv : List CStr) : Option (Hunted × List CStr) :=
  let target := parv.getD server []
  if s.asksMe target then some (.isMe, parv)
  else
    let parv := parv.set server (collapse target)
    match s.quickHunt sptr target with
    | some acptr => some (s.huntFound command server parv acptr)
    | none =>
      if !hasWilds (collapse target) then
        some (s.huntEnd sptr command server parv (s.names.hashFindServer (collapse target)))
      else
        (s.huntScan cptr sptr (collapse target) turns s.head).map
          (s.huntEnd sptr command server parv)

def Means (s : ClientList) (target : CStr) (u : ClientId) : Prop :=
  Glob target (s.names.nameOf u) ∨
    ∃ mask ∈ serverMasks (target.take hostLen), irccmp mask (s.names.nameOf u) = .eq

/-- What is passed on leaves over another link than it came, for a client that is meant. -/
def PassesOn (s : ClientList) (sptr : ClientId) (target : CStr)
    (hunt : Option (Hunted × List CStr)) : Prop :=
  ∀ message parv, hunt = some (.pass message, parv) →
    s.linkOf message.acptr ≠ s.linkOf sptr ∧ s.Means target message.acptr

structure HeardFrom (s : ClientList) (cptr sptr : ClientId) : Prop where
  comes : s.names.ComesFrom cptr sptr
  direct : s.names.Direct

/-- What the lookups find does not lie back over the link. Where `find_client` finds a client
that stays in, it is not the connection, unless that is a user here. Otherwise this holds of
the server that is found, or it is left out and wildcards in the target lead on to the walk. -/
def LeadsAway (s : ClientList) (sptr : ClientId) (target : CStr) : Prop :=
  (∀ acptr ∈ s.huntClient sptr target,
    s.linkOf acptr = s.linkOf sptr → s.isHere acptr = true) ∧
  (s.huntClient sptr target = none → ∀ acptr ∈ s.names.hashFindServer target,
    s.linkOf acptr = s.linkOf sptr →
      s.isHere acptr = true ∨ s.myConnect acptr = false ∧ hasWilds target = true)

instance (s : ClientList) (sptr : ClientId) (target : CStr) :
    Decidable (s.LeadsAway sptr target) :=
  inferInstanceAs (Decidable (_ ∧ _))

variable {s : ClientList} {cptr sptr acptr : ClientId} {command target : CStr} {server : Nat}
  {parv : List CStr}

theorem means_of_same (same : irccmp target (s.names.nameOf acptr) = .eq) :
    s.Means target acptr :=
  .inl (Glob.of_map_toLower (map_toLower_eq same))

theorem named_of_find {k : Nat} {q : ClientId → Bool}
    (found : s.names.clientTable.find s.names.nextClient k q = some acptr) : q acptr = true :=
  List.find?_some found

theorem means_of_find (found : s.names.hashFindClient target = some acptr) :
    s.Means target acptr :=
  means_of_same (beq_iff_eq.mp (named_of_find found))

theorem means_of_findServer (found : s.names.hashFindServer target = some acptr) :
    s.Means target acptr := by
  unfold ClientNames.hashFindServer at found
  split at found
  · next hit =>
    cases found
    have named := named_of_find hit
    rw [Bool.and_eq_true, beq_iff_eq] at named
    exact means_of_same named.2
  · unfold ClientNames.hashFindMaskedServer at found
    split at found
    · cases found
    · obtain ⟨mask, inside, hit⟩ := List.exists_of_findSome?_eq_some found
      exact .inr ⟨mask, inside, beq_iff_eq.mp (named_of_find hit)⟩

theorem nextClient_cases {p : Option ClientId} (next : s.nextClient p target = some acptr) :
    s.names.hashFindClient target = some acptr ∨
      matchMask target (s.names.nameOf acptr) = true := by
  unfold nextClient nextMatching findClient at next
  dsimp only at next
  split at next
  · cases next
  · split at next
    · next apart =>
      cases found : s.names.hashFindClient target with
      | none => exact absurd (by rw [found, Option.none_or]) apart
      | some u =>
        rw [found, Option.some_or] at next
        exact .inl next
    · have hit : s.meant (matchMask target) acptr = true := by
        unfold scan at next
        exact List.find?_some next
      exact .inr hit

theorem means_of_nextClient {p : Option ClientId}
    (next : s.nextClient p (collapse target) = some acptr) : s.Means target acptr := by
  apply Or.inl
  rw [← glob_collapse_iff]
  cases nextClient_cases next with
  | inl found => exact Glob.of_map_toLower (map_toLower_eq (beq_iff_eq.mp (named_of_find found)))
  | inr hit => exact matchMask_sound hit

/-- Where the walk stops, it is at a client that is not the connection nor behind it. -/
theorem huntScan_stops {turns : Nat} {p : Option ClientId}
    (stops : s.huntScan cptr sptr target turns p = some (some acptr)) :
    (∃ p, s.nextClient p target = some acptr) ∧ s.wrongWay sptr acptr = false ∧ acptr ≠ cptr := by
  induction turns generalizing p with
  | zero => cases stops
  | succ turns ih =>
    rw [huntScan] at stops
    cases next : s.nextClient p target with
    | none =>
      rw [next] at stops
      cases stops
    | some u =>
      rw [next] at stops
      dsimp only at stops
      cases way : s.wrongWay sptr u with
      | true =>
        rw [way, if_pos rfl] at stops
        exact ih stops
      | false =>
        rw [way, if_neg Bool.false_ne_true] at stops
        split at stops
        · next good =>
          cases stops
          rw [Bool.and_eq_true, bne_iff_ne] at good
          exact ⟨⟨p, next⟩, way, good.2⟩
        · exact ih stops

theorem mem_collapse {c : Char} (s : CStr) : c ∈ collapse s ↔ c ∈ s := by
  induction s using collapse.induct with
  | case1 => exact Iff.rfl
  | case2 d => exact Iff.rfl
  | case3 d e rest stars ih =>
    obtain ⟨rfl, rfl⟩ := stars
    rw [collapse, if_pos ⟨rfl, rfl⟩, ih]
    simp
  | case4 d e rest stars ih =>
    rw [collapse, if_neg stars, List.mem_cons, ih]
    exact List.mem_cons.symm

theorem hasWilds_collapse (s : CStr) : hasWilds (collapse s) = hasWilds s := by
  unfold hasWilds
  rw [Bool.eq_iff_iff]
  simp only [Bool.or_eq_true, List.contains_iff_mem, mem_collapse]

theorem collapse_of_plain {s : CStr} (plain : hasWilds s = false) : collapse s = s := by
  have apart : '*' ∉ s := by
    intro star
    rw [hasWilds, List.contains_iff_mem.mpr star, Bool.or_true] at plain
    cases plain
  clear plain
  induction s using collapse.induct with
  | case1 => rfl
  | case2 d => rfl
  | case3 d e rest stars ih =>
    rw [stars.1] at apart
    exact absurd List.mem_cons_self apart
  | case4 d e rest stars ih =>
    rw [collapse, if_neg stars, ih fun star => apart (List.mem_cons_of_mem d star)]

inductive Finds (s : ClientList) (turns : Nat) (cptr sptr : ClientId) (target : CStr)
    (acptr : ClientId) : Prop where
  | client (named : s.huntClient sptr target = some acptr)
  | server (missed : s.huntClient sptr target = none)
      (named : s.names.hashFindServer target = some acptr) (way : s.wrongWay sptr acptr = false)
  | plain (missed : s.quickHunt sptr target = none) (plain : hasWilds target = false)
      (named : s.names.hashFindServer target = some acptr)
  | walk (missed : s.quickHunt sptr target = none) (wild : hasWilds target = true)
      (stops : s.huntScan cptr sptr (collapse target) turns s.head = some (some acptr))

theorem finds_of_quickHunt {turns : Nat} (quick : s.quickHunt sptr target = some acptr) :
    s.Finds turns cptr sptr target acptr := by
  unfold quickHunt at quick
  cases named : s.huntClient sptr target with
  | some u =>
    rw [named, Option.some_or] at quick
    exact .client (named.trans quick)
  | none =>
    rw [named, Option.none_or, Option.filter_eq_some_iff] at quick
    exact .server named quick.1 (Bool.not_eq_true _ ▸ by simpa using quick.2)

theorem finds_of_pass {turns : Nat} (elsewhere : s.asksMe (parv.getD server []) = false)
    {message : SendToOne} {parv' : List CStr}
    (pass : s.huntServer turns cptr sptr command server parv = some (.pass message, parv')) :
    s.Finds turns cptr sptr (parv.getD server []) message.acptr ∧
      s.isHere message.acptr = false := by
  have found : ∀ {parv parv' : List CStr} {acptr : ClientId},
      s.huntFound command server parv acptr = (.pass message, parv') →
      acptr = message.acptr ∧ s.isHere acptr = false := by
    intro parv parv' acptr pass
    unfold huntFound at pass
    split at pass
    · cases pass
    · next away =>
      cases pass
      exact ⟨rfl, by simpa using away⟩
  have ended : ∀ {parv parv' : List CStr} {acptr : Option ClientId},
      s.huntEnd sptr command server parv acptr = (.pass message, parv') →
      acptr = some message.acptr ∧ s.isHere message.acptr = false := by
    intro parv parv' acptr pass
    cases acptr with
    | none => cases pass
    | some u =>
      obtain ⟨rfl, away⟩ := found pass
      exact ⟨rfl, away⟩
  unfold huntServer at pass
  dsimp only at pass
  rw [elsewhere, if_neg Bool.false_ne_true, hasWilds_collapse] at pass
  generalize parv.getD server [] = target at pass ⊢
  -- found by name, through a mask, or on the walk over all clients
  cases quick : s.quickHunt sptr target with
  | some u =>
    rw [quick] at pass
    obtain ⟨rfl, away⟩ := found (Option.some.inj pass)
    exact ⟨finds_of_quickHunt quick, away⟩
  | none =>
    rw [quick] at pass
    dsimp only at pass
    cases wild : hasWilds target with
    | false =>
      rw [wild, collapse_of_plain wild] at pass
      obtain ⟨named, away⟩ := ended (Option.some.inj pass)
      exact ⟨.plain quick wild named, away⟩
    | true =>
      rw [wild] at pass
      obtain ⟨last, stops, pass⟩ := Option.map_eq_some_iff.mp pass
      obtain ⟨rfl, away⟩ := ended pass
      exact ⟨.walk quick wild stops, away⟩

/-- Where the lookups or the walk find a client that is not here, it gets the message. -/
theorem pass_of_finds (command : CStr) {turns : Nat}
    (elsewhere : s.asksMe (parv.getD server []) = false)
    (finds : s.Finds turns cptr sptr (parv.getD server []) acptr)
    (away : s.isHere acptr = false) :
    ∃ message parv', s.huntServer turns cptr sptr command server parv =
      some (.pass message, parv') ∧ message.acptr = acptr := by
  have found : ∀ parv : List CStr, ∃ message parv',
      s.huntFound command server parv acptr = (.pass message, parv') ∧ message.acptr = acptr := by
    intro parv
    unfold huntFound
    rw [away, if_neg Bool.false_ne_true]
    exact ⟨_, _, rfl, rfl⟩
  unfold huntServer
  dsimp only
  rw [elsewhere, if_neg Bool.false_ne_true, hasWilds_collapse]
  generalize parv.getD server [] = target at finds ⊢
  generalize parv.set server (collapse target) = parv
  obtain ⟨message, parv', pass, to_⟩ := found parv
  have quick : s.quickHunt sptr target = some acptr →
      ∃ message parv'', (match s.quickHunt sptr target with
        | some acptr => some (s.huntFound command server parv acptr)
        | none =>
          if !hasWilds target then
            some (s.huntEnd sptr command server parv (s.names.hashFindServer (collapse target)))
          else
            (s.huntScan cptr sptr (collapse target) turns s.head).map
              (s.huntEnd sptr command server parv)) = some (.pass message, parv'') ∧
        message.acptr = acptr := by
    intro quick
    rw [quick]
    exact ⟨message, parv', congrArg some pass, to_⟩
  cases finds with
  | client named =>
    apply quick
    rw [quickHunt, named, Option.some_or]
  | server missed named way =>
    apply quick
    rw [quickHunt, missed, Option.none_or, Option.filter_eq_some_iff]
    exact ⟨named, by rw [way]; rfl⟩
  | plain missed plain named =>
    rw [missed, plain, collapse_of_plain plain, named]
    exact ⟨message, parv', congrArg some pass, to_⟩
  | walk missed wild stops =>
    rw [missed, wild, stops]
    exact ⟨message, parv', congrArg some pass, to_⟩

theorem means_of_finds {turns : Nat} (finds : s.Finds turns cptr sptr target acptr) :
    s.Means target acptr := by
  cases finds with
  | client named =>
    have named := (Option.filter_eq_some_iff.mp named).1
    rw [findClient, Option.or_none] at named
    exact means_of_find named
  | server missed named way => exact means_of_findServer named
  | plain missed plain named => exact means_of_findServer named
  | walk missed wild stops =>
    obtain ⟨p, next⟩ := (huntScan_stops stops).1
    exact means_of_nextClient next

theorem wrongWay_eq_false (way : s.wrongWay sptr acptr = false)
    (back : s.linkOf acptr = s.linkOf sptr) : s.myConnect acptr = true := by
  rw [wrongWay, beq_iff_eq.mpr back, Bool.true_and] at way
  simpa using way

theorem quickHunt_eq_none (missed : s.quickHunt sptr target = none) :
    s.huntClient sptr target = none ∧
      ∀ acptr, s.names.hashFindServer target = some acptr → s.wrongWay sptr acptr = true := by
  obtain ⟨client, server⟩ := Option.or_eq_none_iff.mp missed
  refine ⟨client, fun acptr named => ?_⟩
  rw [named, Option.filter_eq_none_iff] at server
  simpa using server acptr rfl

/-- Only the connection itself and what the third lookup finds lie back over the link. -/
theorem HeardFrom.away (heard : s.HeardFrom cptr sptr) (leads : s.LeadsAway sptr target)
    {turns : Nat} (finds : s.Finds turns cptr sptr target acptr)
    (elsewhere : s.isHere acptr = false) : s.linkOf acptr ≠ s.linkOf sptr := by
  intro back
  have stays : s.isHere acptr = true ∨ s.myConnect acptr = false ∧ hasWilds target = true →
      s.myConnect acptr = true ∨ hasWilds target = false → False := by
    intro stays kept
    rcases stays with here | ⟨remote, wild⟩
    · rw [here] at elsewhere
      cases elsewhere
    · rw [remote, wild] at kept
      simp at kept
  cases finds with
  | client named => exact stays (.inl (leads.1 acptr named back)) (.inl (by
      have kept := (Option.filter_eq_some_iff.mp named).2
      exact wrongWay_eq_false (by simpa using kept) back))
  | server missed named way =>
    exact stays (leads.2 missed acptr named back) (.inl (wrongWay_eq_false way back))
  | plain missed plain named =>
    exact stays (leads.2 (quickHunt_eq_none missed).1 acptr named back) (.inr plain)
  | walk missed wild stops =>
    -- a connection over the link of the source is that link, where the walk does not stop
    obtain ⟨-, way, other⟩ := huntScan_stops stops
    have itself : s.linkOf acptr = acptr := heard.direct acptr (wrongWay_eq_false way back)
    exact other (itself.symm.trans (back.trans heard.comes.behind))

theorem leadsAway_of_passesOn (elsewhere : s.asksMe (parv.getD server []) = false)
    (passes : ∀ turns, s.PassesOn sptr (parv.getD server [])
      (s.huntServer turns cptr sptr command server parv)) :
    s.LeadsAway sptr (parv.getD server []) := by
  have here : ∀ {acptr : ClientId}, s.Finds 0 cptr sptr (parv.getD server []) acptr →
      s.linkOf acptr = s.linkOf sptr → s.isHere acptr = true := by
    intro acptr finds back
    by_contra away
    obtain ⟨message, parv', pass, rfl⟩ :=
      pass_of_finds command elsewhere finds (by simpa using away)
    exact (passes 0 message parv' pass).1 back
  constructor
  · intro acptr named back
    exact here (.client named) back
  · intro missed acptr named back
    cases remote : s.myConnect acptr with
    | true =>
      have way : s.wrongWay sptr acptr = false := by
        rw [wrongWay, remote, Bool.not_true, Bool.and_false]
      exact .inl (here (.server missed named way) back)
    | false =>
      cases wild : hasWilds (parv.getD server []) with
      | true => exact .inr ⟨rfl, rfl⟩
      | false =>
        have quick : s.quickHunt sptr (parv.getD server []) = none := by
          have way : s.wrongWay sptr acptr = true := by
            rw [wrongWay, remote, beq_iff_eq.mpr back]
            rfl
          rw [quickHunt, missed, Option.none_or, named, Option.filter_eq_none_iff]
          intro u same
          cases same
          simpa using way
        exact .inl (here (.plain quick wild named) back)

/-- `hunt_server` passes a message on, never back, exactly where it is for this server or the
lookups lead away from the link. -/
theorem huntServer_passesOn_iff (heard : s.HeardFrom cptr sptr) (command : CStr) (server : Nat)
    (parv : List CStr) :
    (∀ turns, s.PassesOn sptr (parv.getD server [])
      (s.huntServer turns cptr sptr command server parv)) ↔
    s.asksMe (parv.getD server []) = true ∨ s.LeadsAway sptr (parv.getD server []) := by
  constructor
  · intro passes
    cases elsewhere : s.asksMe (parv.getD server []) with
    | true => exact .inl rfl
    | false => exact .inr (leadsAway_of_passesOn elsewhere passes)
  · intro good turns message parv' pass
    cases elsewhere : s.asksMe (parv.getD server []) with
    | true =>
      rw [huntServer, elsewhere, if_pos rfl] at pass
      cases pass
    | false =>
      obtain ⟨finds, away⟩ := finds_of_pass elsewhere pass
      rw [elsewhere] at good
      have leads := good.resolve_left Bool.false_ne_true
      exact ⟨heard.away leads finds away, means_of_finds finds⟩

end ClientList

def nextIn (clients : List ClientId) (u : ClientId) : Option ClientId :=
  (clients.dropWhile (· != u)).tail.head?

def prevIn (clients : List ClientId) (u : ClientId) : Option ClientId :=
  (clients.takeWhile (· != u)).getLast?

theorem double_of_nodup {clients : List ClientId} (once : clients.Nodup) :
    Double (nextIn clients) (prevIn clients) clients.head? clients := by
  have apart : ∀ {pre post : List ClientId} {u : ClientId}, clients = pre ++ u :: post →
      ∀ v ∈ pre, (v != u) = true := by
    intro pre post u place v inside
    rw [place] at once
    exact bne_iff_ne.mpr ((List.nodup_append.mp once).2.2 v inside u List.mem_cons_self)
  have walk : ∀ post pre : List ClientId, clients = pre ++ post →
      Linked (nextIn clients) post.head? post ∧ Back (prevIn clients) pre.getLast? post := by
    intro post
    induction post with
    | nil => exact fun _ _ => ⟨rfl, trivial⟩
    | cons u post ih =>
      intro pre place
      have onwards : clients = (pre ++ [u]) ++ post := by rw [place]; simp
      have front := apart place
      have behind : nextIn clients u = post.head? := by
        rw [nextIn, place, List.dropWhile_append_of_pos front]
        simp
      have before : prevIn clients u = pre.getLast? := by
        rw [prevIn, place, List.takeWhile_append_of_pos front]
        simp
      obtain ⟨forth, back⟩ := ih _ onwards
      rw [List.getLast?_concat] at back
      exact ⟨⟨rfl, behind ▸ forth⟩, before, back⟩
  exact ⟨(walk clients [] rfl).1, (walk clients [] rfl).2⟩

def ClientNames.ClientsFiled.clientList {t : ClientNames} (h : t.ClientsFiled) : ClientList where
  names := t
  next := nextIn t.globalClientList
  prev := prevIn t.globalClientList
  linked := double_of_nodup h.roster
  once := h.roster
  made := h.made
  listed := fun found => h.listed _ (h.find_iff.mp found).1

def introduces (u : ClientId) (host : CStr) : NameEvent :=
  .server u u [[], host, lit "2", lit "c"]
    { nLine := true, autoconn := true, leaf := none, hub := some 0, checked := true
      nConf := none, cConf := none
      passwd := [], isHub := true, capZip := false, zipInit := true }
    { behind := [], behindOther := [], lostNLine := false }

/-- Two links, to `b.net` with `c.net` behind it and to `d.net`. -/
def huntEvents : List NameEvent :=
  [.accept, NameTables.passOf 1, NameTables.serverOf 1 (lit "b.net"), introduces 1 (lit "c.net"),
    .accept, NameTables.passOf 3, NameTables.serverOf 3 (lit "d.net")]

def huntState : NameTables := nameMachine.run (NameTables.startUp (lit "a.net") 1) huntEvents

theorem huntState_filed : huntState.Filed := by
  have anew : nameMachine.Meets NameTables.NamesAnew (NameTables.startUp (lit "a.net") 1)
      huntEvents := by decide +kernel
  exact anew.always (fun _ _ h ok => h.step ok) (.startUp (by decide) 1) List.prefix_rfl

def huntList : ClientList := huntState_filed.clients.clientList

theorem huntList_heard {cptr sptr : ClientId} (comes : huntState.ComesFrom cptr sptr) :
    huntList.HeardFrom cptr sptr where
  comes := comes
  direct := direct_run (lit "a.net") 1 huntEvents

theorem huntServer_onwards :
    huntList.PassesOn 2 (lit "d.net")
      (huntList.huntServer 1 1 2 (lit ":%s TIME :%s") 1 [lit "c.net", lit "d.net"]) :=
  (huntList.huntServer_passesOn_iff (huntList_heard (by decide +kernel)) _ _ _).mpr
    (.inr (by decide +kernel)) 1

/-- `b.net` asks for the time of `c.net`, which is behind it, and has the message back. -/
theorem huntServer_back :
    huntList.HeardFrom 1 1 ∧
    ¬ huntList.PassesOn 1 (lit "c.net")
      (huntList.huntServer 0 1 1 (lit ":%s TIME :%s") 1 [lit "b.net", lit "c.net"]) := by
  have sent : huntList.huntServer 0 1 1 (lit ":%s TIME :%s") 1 [lit "b.net", lit "c.net"] =
      some (.pass { acptr := 2, pattern := lit ":%s TIME :%s"
                    args := [lit "b.net", lit "c.net"] }, [lit "b.net", lit "c.net"]) := by
    decide +kernel
  refine ⟨huntList_heard (by decide +kernel), fun passes => ?_⟩
  have back : huntList.linkOf 2 = huntList.linkOf 1 := by decide +kernel
  exact (passes _ _ sent).1 back

end Ircd
