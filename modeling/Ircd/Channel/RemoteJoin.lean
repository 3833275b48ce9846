import Ircd.Channel.Lifetime

/-! A JOIN from another server that names several channels.

`chptr` is looked up for a client of this server only. A remote client keeps the block of
the first name, which it is a member of from then on, so that every later name is passed
over.
-/

set_option autoImplicit false

namespace Ircd

/-- A channel name that a JOIN from another server may carry: a `&` channel is known to its
own server only. -/
structure RemoteName (name : CStr) : Prop where
  chars : checkChannelName name = true
  channel : isChannelName name = true
  shared : isLocalName name = false

def commaList (names : List CStr) : CStr := [','].intercalate names

theorem commaList_cons (name : CStr) {rest : List CStr} (more : rest ≠ []) :
    commaList (name :: rest) = name ++ ',' :: commaList rest := by
  cases rest with
  | nil => exact absurd rfl more
  | cons next rest => simp [commaList, List.intercalate]

@[simp] theorem commaList_single (name : CStr) : commaList [name] = name := by
  simp [commaList, List.intercalate]

namespace RemoteName

variable {name : CStr} (valid : RemoteName name)
include valid

theorem ne_nil : name ≠ [] := by
  rintro rfl
  exact Bool.false_ne_true valid.channel

theorem no_comma : ∀ c ∈ name, isComma c = false := by
  intro c inside
  have char := List.all_eq_true.1 valid.chars c inside
  by_cases comma : c = ','
  · subst comma
    exact absurd char (by decide)
  · simp [isComma, comma]

theorem tokens_eq : tokens isComma name = [name] := by
  have one := @tokensFrom_of_no_sep isComma [] name valid.no_comma
  simpa [tokens, valid.ne_nil] using one

theorem not_zero : isJoinZero name = false := by
  have whole := isJoinZero_of_isChannelName name.length valid.channel
  rwa [List.take_length] at whole

end RemoteName

theorem tokens_commaList {names : List CStr} (valid : ∀ name ∈ names, RemoteName name) :
    tokens isComma (commaList names) = names := by
  induction names with
  | nil => rfl
  | cons name rest ih =>
    have first := (valid name List.mem_cons_self).tokens_eq
    have others := ih fun n inside => valid n (List.mem_cons_of_mem _ inside)
    by_cases last : rest = []
    · rw [last, commaList_single, first]
    · rw [commaList_cons name last, tokens, tokensFrom_append isComma ',' rfl]
      exact congrArg₂ (· ++ ·) first others

theorem length_le_commaList {names : List CStr} {name : CStr} (inside : name ∈ names) :
    name.length ≤ (commaList names).length := by
  induction names with
  | nil => cases inside
  | cons first rest ih =>
    by_cases last : rest = []
    · subst last
      rw [List.mem_singleton.1 inside, commaList_single]
    · rw [commaList_cons first last, List.length_append, List.length_cons]
      cases List.mem_cons.1 inside with
      | inl here => rw [here]; omega
      | inr later => have := ih later; omega

def joinRoom (names : List CStr) : Nat := (names.map fun name => name.length + 1).sum

theorem joinRoom_eq {names : List CStr} (some : names ≠ []) :
    joinRoom names = (commaList names).length + 1 := by
  induction names with
  | nil => exact absurd rfl some
  | cons name rest ih =>
    by_cases last : rest = []
    · simp [last, joinRoom]
    · have others := ih last
      simp only [joinRoom, List.map_cons, List.sum_cons] at others ⊢
      rw [commaList_cons name last, List.length_append, List.length_cons]
      omega

namespace JoinList

variable {st : JoinList} {sptr : ClientId}

def after (jbuf name : CStr) : CStr := (if jbuf ≠ [] then jbuf ++ [','] else jbuf) ++ name

theorem element_remote {name : CStr} (valid : RemoteName name)
    (fits : st.i + name.length + 1 ≤ bufSize) (parv0 : CStr) :
    st.element sptr parv0 name =
      { srv := st.srv, jbuf := after st.jbuf name, i := st.i + name.length + 1 } := by
  have room : name.take (jbufRoom st.i) = name := by
    apply List.take_of_length_le
    have : st.i + name.length + 1 ≤ 512 := fits
    simp only [jbufRoom, bufSize]
    omega
  simp [element, valid.chars, valid.shared, valid.not_zero, valid.channel, append, after, room]

theorem elements_remote {names : List CStr} (valid : ∀ name ∈ names, RemoteName name)
    (fits : st.i + joinRoom names ≤ bufSize) (parv0 : CStr) :
    (names.foldl (fun st name => st.element sptr parv0 name) st).srv = st.srv ∧
      (names.foldl (fun st name => st.element sptr parv0 name) st).jbuf =
        names.foldl after st.jbuf := by
  induction names generalizing st with
  | nil => exact ⟨rfl, rfl⟩
  | cons name rest ih =>
    simp only [joinRoom, List.map_cons, List.sum_cons] at fits
    have step := @element_remote st sptr name (valid name List.mem_cons_self) (by omega) parv0
    rw [List.foldl_cons, List.foldl_cons, step]
    apply ih fun n inside => valid n (List.mem_cons_of_mem _ inside)
    show st.i + name.length + 1 + joinRoom rest ≤ bufSize
    unfold joinRoom
    omega

end JoinList

theorem foldl_after {jbuf : CStr} (begun : jbuf ≠ []) (names : List CStr)
    (valid : ∀ name ∈ names, RemoteName name) :
    names.foldl JoinList.after jbuf = if names = [] then jbuf else jbuf ++ ',' :: commaList names := by
  induction names generalizing jbuf with
  | nil => rfl
  | cons name rest ih =>
    have next : JoinList.after jbuf name = jbuf ++ ',' :: name := by simp [JoinList.after, begun]
    have others := @ih (jbuf ++ ',' :: name) (by simp)
      fun n inside => valid n (List.mem_cons_of_mem _ inside)
    rw [List.foldl_cons, next, others, if_neg (List.cons_ne_nil _ _)]
    split
    · next last => simp [last]
    · next more => simp [commaList_cons name more]

theorem joinList_remote (s : Server) (sptr : ClientId) (parv0 : CStr) {names : List CStr}
    (valid : ∀ name ∈ names, RemoteName name) (fits : (commaList names).length < bufSize) :
    (joinList s sptr parv0 (commaList names)).srv = s ∧
      (joinList s sptr parv0 (commaList names)).jbuf = commaList names := by
  cases names with
  | nil => exact ⟨rfl, rfl⟩
  | cons name rest =>
    have room : (0 : Nat) + joinRoom (name :: rest) ≤ bufSize := by
      rw [joinRoom_eq (List.cons_ne_nil _ _)]
      omega
    obtain ⟨srv, jbuf⟩ := @JoinList.elements_remote { srv := s, jbuf := [], i := 0 } sptr _ valid
      room parv0
    unfold joinList
    rw [tokens_commaList valid]
    refine ⟨srv, jbuf.trans ?_⟩
    have first : JoinList.after [] name = name := rfl
    rw [List.foldl_cons, first, foldl_after (valid name List.mem_cons_self).ne_nil rest
      fun n inside => valid n (List.mem_cons_of_mem _ inside)]
    split
    · next last => rw [last, commaList_single]
    · next more => rw [commaList_cons name more]

namespace Server

variable {s : Server} {sptr : ClientId}

theorem greet_remote (remote : (s.client sptr).myConnect = false) (cptr : ClientId) (c : ChanId)
    (flags : MemberFlags) (parv0 name : CStr) :
    (s.greet cptr sptr c flags parv0 name).toTables = s.toTables := by
  have away : (s.client sptr).myClient = false := by simp [Client.myClient, remote]
  have announced : (s.announceJoin cptr sptr c flags parv0 name).toTables = s.toTables := by
    simp [announceJoin, away]
  have shown : ((s.announceJoin cptr sptr c flags parv0 name).client sptr).myClient = false := by
    rw [announced]
    exact away
  simp only [greet, sendtoChannelButserv_toTables, shown, Bool.false_eq_true, if_false]
  exact announced

/-- Nothing but the member lists of the channel and the client changes when a remote client
comes in. -/
theorem enterChannel_remote (remote : (s.client sptr).myConnect = false) (cptr : ClientId)
    (c : ChanId) (flags : MemberFlags) (parv0 name : CStr) :
    (s.enterChannel cptr sptr c flags parv0 name).toTables =
      s.toTables.addUserToChannel c sptr flags := by
  unfold enterChannel
  rw [greet_remote, addUserToChannel_toTables]
  rw [addUserToChannel_toTables, Tables.addUserToChannel]
  split
  · simpa [Tables.setClient, Tables.setChan, Client.myConnect] using remote
  · exact remote

end Server

namespace Tables

variable {t : Tables} {u : ClientId}

theorem isMember_addUserToChannel (user : (t.client u).user = true) (c d : ChanId)
    (flags : MemberFlags) :
    (t.addUserToChannel c u flags).isMember u d = true ↔ d = c ∨ t.isMember u d = true := by
  simp [addUserToChannel, user, isMember, setClient, setChan]

theorem hashFindChannel_addUserToChannel (t : Tables) (c : ChanId) (u : ClientId)
    (flags : MemberFlags) (name : CStr) :
    (t.addUserToChannel c u flags).hashFindChannel name = t.hashFindChannel name := by
  unfold addUserToChannel
  split
  · apply hashFindChannel_congr
    · rfl
    intro d
    by_cases here : d = c
    · subst here
      simp [setClient, setChan]
    · simp [setClient, setChan, here]
  · rfl

/-- A new block is found under the names that are its own, and hides no other. -/
theorem hashFindChannel_createChannel (fresh : ∀ h, t.nextChan ∉ t.channelTable h)
    (first name : CStr) :
    (t.createChannel first).hashFindChannel name =
      if irccmp first name = .eq then some t.nextChan else t.hashFindChannel name := by
  split
  · next same => rw [← hashFindChannel_congr_name _ same, hashFindChannel_created]
  next differs =>
  have own : ((t.createChannel first).chan t.nextChan).chname = first := by
    rw [JoinLoop.createChannel_fresh]
    rfl
  have skip : (irccmp name first == .eq) = false := by
    simpa using fun same => differs (irccmp_comm same)
  have old : (t.channelTable (hashChannelName name)).find?
      (fun d => irccmp name ((t.createChannel first).chan d).chname == .eq) =
        t.hashFindChannel name := by
    apply find?_congr_mem
    intro d inside
    have born : d ≠ t.nextChan := by
      rintro rfl
      exact fresh _ inside
    simp [createChannel, addToChannelHashTable, setChan, born]
  unfold hashFindChannel at old ⊢
  rw [← old]
  by_cases bucket : hashChannelName name = hashChannelName first
  · have table : (t.createChannel first).channelTable (hashChannelName name) =
        t.nextChan :: t.channelTable (hashChannelName name) := by
      simp [createChannel, addToChannelHashTable, setChan, bucket]
    rw [table, List.find?_cons, own, skip]
  · have table : (t.createChannel first).channelTable (hashChannelName name) =
        t.channelTable (hashChannelName name) := by
      simp [createChannel, addToChannelHashTable, setChan, bucket]
    rw [table]

end Tables

/-- A second `check_still_split` at the same time does nothing. -/
def Tables.SplitSettled (t : Tables) : Prop :=
  t.serverWasSplit = true → t.serverSplitTime + t.splitDelay < t.currentTime →
    ¬ (t.countServer ≥ t.splitNum ∧ t.gotServerPong ∧ t.countTotal ≥ t.splitUsers) ∧
      t.serverSplitTime = t.currentTime

theorem splitSettled_joinServer (s : Server) : (joinServer s).SplitSettled := by
  unfold joinServer Server.checkStillSplit
  split
  · next was =>
    split
    · split
      · intro absurdity
        cases absurdity
      · next still => exact fun _ _ => ⟨still, rfl⟩
    · next early => exact fun _ late => absurd late early
  · next whole => exact fun was => absurd was whole

theorem joinServer_of_settled {s : Server} (settled : s.SplitSettled) : joinServer s = s := by
  unfold joinServer Server.checkStillSplit
  split
  · next was =>
    split
    · next late =>
      obtain ⟨still, time⟩ := settled was late
      have same : ∀ time was, time = s.serverSplitTime → was = s.serverWasSplit →
          ({ s with serverSplitTime := time, serverWasSplit := was } : Server) = s := by
        rintro _ _ rfl rfl
        rfl
      rw [if_neg still]
      exact same _ _ time.symm was.symm
    · rfl
  · rfl

namespace Tables

/-- What the first name of a JOIN brings about: a remote client is on the channel `c`, which
is what the name stands for. -/
structure JoinedFirst (u : ClientId) (first : CStr) (c : ChanId) (t t' : Tables) : Prop where
  found : ∀ name, t'.hashFindChannel name =
    if irccmp first name = .eq then some c else t.hashFindChannel name
  member : ∀ d, t'.isMember u d = true ↔ d = c ∨ t.isMember u d = true
  user : (t'.client u).user = true
  remote : (t'.client u).myConnect = false
  settled : t.SplitSettled → t'.SplitSettled

variable {t : Tables} {u : ClientId}

theorem chname_of_found {name : CStr} {c : ChanId} (found : t.hashFindChannel name = some c) :
    irccmp name (t.chan c).chname = .eq := by
  simpa using List.find?_some found

theorem found_of_same {first : CStr} {c : ChanId} (found : t.hashFindChannel first = some c)
    (name : CStr) : t.hashFindChannel name =
      if irccmp first name = .eq then some c else t.hashFindChannel name := by
  split
  · next same => rw [← t.hashFindChannel_congr_name same, found]
  · rfl

theorem JoinedFirst.already (user : (t.client u).user = true)
    (remote : (t.client u).myConnect = false) {first : CStr} {c : ChanId}
    (found : t.hashFindChannel first = some c) (member : t.isMember u c = true) :
    JoinedFirst u first c t t where
  found := found_of_same found
  member d := by
    constructor
    · exact Or.inr
    · rintro (rfl | already)
      · exact member
      · exact already
  user := user
  remote := remote
  settled := id

theorem JoinedFirst.added (user : (t.client u).user = true) (remote : (t.client u).myConnect = false)
    {first : CStr} {c : ChanId} (found : t.hashFindChannel first = some c) (flags : MemberFlags) :
    JoinedFirst u first c t (t.addUserToChannel c u flags) where
  found name := by
    rw [hashFindChannel_addUserToChannel]
    exact found_of_same found name
  member d := isMember_addUserToChannel user c d flags
  user := by simp [addUserToChannel, user, setClient, setChan]
  remote := by simpa [addUserToChannel, user, setClient, setChan, Client.myConnect] using remote
  settled := by
    unfold addUserToChannel
    split <;> exact id

theorem JoinedFirst.created (fresh : ∀ h, t.nextChan ∉ t.channelTable h) {first : CStr} {t' : Tables}
    (entered : JoinedFirst u first t.nextChan (t.createChannel first) t') :
    JoinedFirst u first t.nextChan t t' where
  found name := by
    rw [entered.found]
    split
    · rfl
    · next differs => rw [hashFindChannel_createChannel fresh, if_neg differs]
  member := entered.member
  user := entered.user
  remote := entered.remote
  settled := entered.settled

end Tables

namespace JoinLoop

open Server Tables

variable {st : JoinLoop} {sptr : ClientId}

theorem element_of_remote (remote : (st.srv.client sptr).myConnect = false)
    (going : st.returned = false) {name : CStr} (valid : RemoteName name) (cptr : ClientId)
    (parv0 : CStr) :
    st.element cptr sptr parv0 name =
      let st := ended ((st.remoteLookup sptr name).joinChannel cptr sptr parv0 name)
      { st with keys := st.keys.tail } := by
  simp [element, going, valid.not_zero, body, lookup, remote, Except.bind]

theorem remoteLookup_returned (st : JoinLoop) (sptr : ClientId) (name : CStr) :
    (st.remoteLookup sptr name).returned = st.returned := by
  unfold remoteLookup
  split <;> rfl

theorem remoteLookup_of_found {name : CStr} {c : ChanId}
    (found : st.srv.hashFindChannel name = some c) : st.remoteLookup sptr name = st := by
  simp [remoteLookup, found]

/-- The checks of a block and the entry, for a client that is not asked for a key. -/
theorem joinBlock_remote (remote : (st.srv.client sptr).myConnect = false)
    (user : (st.srv.client sptr).user = true) {c : ChanId} (block : st.chptr = some c)
    {first : CStr} (found : st.srv.hashFindChannel first = some c) (cptr : ClientId)
    (parv0 name : CStr) :
    (ended (st.joinBlock cptr sptr parv0 name)).chptr = some c ∧
      (ended (st.joinBlock cptr sptr parv0 name)).returned = st.returned ∧
      JoinedFirst sptr first c st.srv.toTables
        (ended (st.joinBlock cptr sptr parv0 name)).srv.toTables := by
  by_cases member : st.srv.isMember sptr c = true
  · have ended : st.joinBlock cptr sptr parv0 name = .error st := by
      simp [joinBlock, checkMember, block, member, bind, Except.bind]
    rw [ended]
    exact ⟨block, rfl, .already user remote found member⟩
  · have inside : st.joinBlock cptr sptr parv0 name =
        .ok { st with srv := st.srv.enterChannel cptr sptr c st.flags parv0 name } := by
      simp [joinBlock, checkMember, checkCanJoin, block, member, remote, bind, Except.bind]
    rw [inside]
    refine ⟨block, rfl, ?_⟩
    show JoinedFirst sptr first c st.srv.toTables
      (st.srv.enterChannel cptr sptr c st.flags parv0 name).toTables
    rw [enterChannel_remote remote]
    exact .added user remote found st.flags

theorem element_first (remote : (st.srv.client sptr).myConnect = false)
    (user : (st.srv.client sptr).user = true)
    (fresh : ∀ h, st.srv.nextChan ∉ st.srv.channelTable h) (going : st.returned = false)
    (none : st.chptr = none) {name : CStr} (valid : RemoteName name) (cptr : ClientId)
    (parv0 : CStr) :
    ∃ c, (st.element cptr sptr parv0 name).chptr = some c ∧
      (st.element cptr sptr parv0 name).returned = false ∧
      JoinedFirst sptr name c st.srv.toTables (st.element cptr sptr parv0 name).srv.toTables ∧
      (st.srv.hashFindChannel name = Option.none → c = st.srv.nextChan) := by
  rw [element_of_remote remote going valid]
  obtain ⟨tables, -, chptr⟩ := st.remoteLookup_spec sptr name
  have going' := (st.remoteLookup_returned sptr name).trans going
  generalize st.remoteLookup sptr name = st₁ at tables chptr going'
  rw [none] at chptr
  -- only names from clients of ours are cut
  have whole : st₁.srv.channelNameFor sptr name = name := by
    have away : (st₁.srv.client sptr).myClient = false := by
      rw [tables]
      simp [Client.myClient, remote]
    simp [channelNameFor, away]
  rw [← tables] at remote user fresh ⊢
  -- the channel is there, or `get_channel` makes it
  obtain ⟨empty, -⟩ | ⟨c, found, result⟩ | ⟨absent, result⟩ :=
    getChannel_true st₁.srv sptr name
  · exact absurd empty valid.ne_nil
  · rw [whole] at found
    have step : st₁.joinChannel cptr sptr parv0 name =
        ({ st₁ with chptr := some c } : JoinLoop).joinBlock cptr sptr parv0 name := by
      simp [joinChannel, ensureChannel, chptr, result, whole]
    obtain ⟨block, returned, entered⟩ := @joinBlock_remote { st₁ with chptr := some c } sptr
      remote user c rfl name found cptr parv0 name
    rw [step]
    refine ⟨c, block, returned.trans going', entered, fun absent => ?_⟩
    rw [found] at absent
    cases absent
  · rw [whole] at absent result
    have step : st₁.joinChannel cptr sptr parv0 name =
        ({ st₁ with
          srv := st₁.srv.edit (·.createChannel name)
          chptr := some st₁.srv.nextChan } : JoinLoop).joinBlock cptr sptr parv0 name := by
      simp [joinChannel, ensureChannel, chptr, result, whole]
    obtain ⟨block, returned, entered⟩ := @joinBlock_remote
      { st₁ with srv := st₁.srv.edit (·.createChannel name), chptr := some st₁.srv.nextChan } sptr
      remote user st₁.srv.nextChan rfl name (hashFindChannel_created _ name) cptr parv0 name
    rw [step]
    exact ⟨st₁.srv.nextChan, block, returned.trans going', .created fresh entered, fun _ => rfl⟩

theorem element_later (remote : (st.srv.client sptr).myConnect = false) (going : st.returned = false)
    {c : ChanId} (block : st.chptr = some c) (member : st.srv.isMember sptr c = true)
    {name : CStr} (valid : RemoteName name) (cptr : ClientId) (parv0 : CStr) :
    (st.element cptr sptr parv0 name).srv = (st.remoteLookup sptr name).srv ∧
      (st.element cptr sptr parv0 name).chptr = some c ∧
      (st.element cptr sptr parv0 name).returned = false := by
  rw [element_of_remote remote going valid]
  obtain ⟨tables, -, chptr⟩ := st.remoteLookup_spec sptr name
  have going' := (st.remoteLookup_returned sptr name).trans going
  generalize st.remoteLookup sptr name = st₁ at tables chptr going' ⊢
  rw [block] at chptr
  rw [← tables] at member
  have ended : st₁.joinChannel cptr sptr parv0 name = .error st₁ := by
    simp [joinChannel, ensureChannel, chptr, joinBlock, checkMember, member, bind, Except.bind]
  rw [ended]
  exact ⟨rfl, chptr, going'⟩

theorem elements_later (remote : (st.srv.client sptr).myConnect = false)
    (going : st.returned = false) {c : ChanId} (block : st.chptr = some c)
    (member : st.srv.isMember sptr c = true) {names : List CStr}
    (valid : ∀ name ∈ names, RemoteName name) (cptr : ClientId) (parv0 : CStr) :
    (st.elements cptr sptr parv0 names).srv.toTables = st.srv.toTables ∧
      (st.elements cptr sptr parv0 names).returned = false ∧
      ((∀ name ∈ names, st.srv.hashFindChannel name ≠ none) →
        (st.elements cptr sptr parv0 names).srv = st.srv) := by
  induction names generalizing st with
  | nil => exact ⟨rfl, going, fun _ => rfl⟩
  | cons name rest ih =>
    obtain ⟨srv, block', going'⟩ :=
      element_later remote going block member (valid name List.mem_cons_self) cptr parv0
    have tables : (st.element cptr sptr parv0 name).srv.toTables = st.srv.toTables := by
      rw [srv]
      exact (st.remoteLookup_spec sptr name).1
    obtain ⟨rest', going'', same⟩ := @ih (st.element cptr sptr parv0 name) (by rwa [tables]) going'
      block' (by rwa [tables]) fun n inside => valid n (List.mem_cons_of_mem _ inside)
    refine ⟨rest'.trans tables, going'', fun found => ?_⟩
    have calm := same fun n inside => tables ▸ found n (List.mem_cons_of_mem _ inside)
    obtain ⟨d, here⟩ := Option.ne_none_iff_exists'.1 (found name List.mem_cons_self)
    refine calm.trans (srv.trans ?_)
    rw [remoteLookup_of_found here]

end JoinLoop

section

open Server Tables

variable {s : Server} {sptr : ClientId}

def joinLoop (s : Server) (more : List CStr) : JoinLoop where
  srv := s
  chptr := none
  flags := MemberFlags.none
  keys := if more.length > 0 then tokens isComma (more.getD 0 []) else []
  successfulJoinCount := 0
  returned := false

theorem joinStart_remote (s : Server) (sptr : ClientId) (parv0 : CStr) {names : List CStr}
    (valid : ∀ name ∈ names, RemoteName name) (fits : (commaList names).length < bufSize)
    (more : List CStr) :
    joinStart s sptr (parv0 :: commaList names :: more) = joinLoop s more ∧
      joinNames s sptr (parv0 :: commaList names :: more) = names := by
  obtain ⟨srv, jbuf⟩ := joinList_remote s sptr parv0 valid fits
  constructor
  · simp [joinStart, joinLoop, srv]
  · simp [joinNames, jbuf, tokens_commaList valid]

theorem mJoin_list (user : (s.client sptr).user = true) {names : List CStr} (some : names ≠ [])
    (valid : ∀ name ∈ names, RemoteName name) (fits : (commaList names).length < bufSize)
    (cptr : ClientId) (parv0 : CStr) (more : List CStr)
    (remote : ((((joinLoop (joinServer s) more).elements cptr sptr parv0 names).srv.client
      sptr).myConnect) = false) :
    mJoin s cptr sptr (parv0 :: commaList names :: more) =
      ((joinLoop (joinServer s) more).elements cptr sptr parv0 names).srv := by
  obtain ⟨start, list⟩ := joinStart_remote (joinServer s) sptr parv0 valid fits more
  have given : commaList names ≠ [] := by
    have tokens := tokens_commaList valid
    rintro empty
    rw [empty] at tokens
    exact some tokens.symm
  rw [mJoin_eq, start, list]
  simp [user, given, remote]

/-- What `m_join` makes of the JOIN of a remote client: the first name is joined as if it
stood alone, and the loop goes on with its block. -/
theorem mJoin_remote (remote : (s.client sptr).myConnect = false)
    (user : (s.client sptr).user = true) (fresh : ∀ h, s.nextChan ∉ s.channelTable h)
    {first : CStr} {rest : List CStr} (valid : ∀ name ∈ first :: rest, RemoteName name)
    (fits : (commaList (first :: rest)).length < bufSize) (cptr : ClientId) (parv0 : CStr)
    (more : List CStr) :
    ∃ s₁ c, mJoin s cptr sptr (parv0 :: first :: more) = s₁ ∧
      JoinedFirst sptr first c s.toTables s₁.toTables ∧ s₁.SplitSettled ∧
      (s.hashFindChannel first = none → c = s.nextChan) ∧
      (mJoin s cptr sptr (parv0 :: commaList (first :: rest) :: more)).toTables = s₁.toTables ∧
      ((∀ name ∈ rest, s₁.hashFindChannel name ≠ none) →
        mJoin s cptr sptr (parv0 :: commaList (first :: rest) :: more) = s₁) := by
  obtain ⟨alike, -, chan, client⟩ := joinServer_spec s
  have table : (joinServer s).channelTable = s.channelTable := congrArg Roster.bucket alike.roster
  have single : ∀ name ∈ [first], RemoteName name := fun n inside =>
    valid n (List.mem_singleton.1 inside ▸ List.mem_cons_self)
  -- the first name alone is a shorter list, so both lists fit the buffer
  have short : (commaList [first]).length < bufSize := by
    by_cases last : rest = []
    · rwa [last] at fits
    · rw [commaList_cons first last, List.length_append] at fits
      rw [commaList_single]
      omega
  obtain ⟨c, block, going, entered, made⟩ := @JoinLoop.element_first (joinLoop (joinServer s) more)
    sptr (client ▸ remote) (client ▸ user) (by
      intro h
      show (joinServer s).nextChan ∉ (joinServer s).channelTable h
      rw [alike.nextChan, table]
      exact fresh h) rfl rfl first (valid first List.mem_cons_self) cptr parv0
  generalize looped : (joinLoop (joinServer s) more).element cptr sptr parv0 first = st
    at block going entered
  have lookup : ∀ name, (joinServer s).hashFindChannel name = s.hashFindChannel name :=
    alike.hashFindChannel
  have known : ∀ d, (joinServer s).isMember sptr d = s.isMember sptr d := by
    intro d
    simp [isMember, client]
  have alone : (joinLoop (joinServer s) more).elements cptr sptr parv0 [first] = st := looped
  have list : (joinLoop (joinServer s) more).elements cptr sptr parv0 (first :: rest) =
      st.elements cptr sptr parv0 rest := by
    rw [JoinLoop.elements, List.foldl_cons, looped]
    rfl
  -- the block stays that of the first name, and the client is on it: no later name joins anything
  obtain ⟨tables, -, same⟩ := JoinLoop.elements_later entered.remote going block
    ((entered.member c).2 (Or.inl rfl)) (fun n inside => valid n (List.mem_cons_of_mem first inside))
    cptr parv0
  have once := mJoin_list user (List.cons_ne_nil first []) single short cptr parv0 more
    (by rw [alone]; exact entered.remote)
  have all := mJoin_list user (List.cons_ne_nil first rest) valid fits cptr parv0 more
    (by rw [list, tables]; exact entered.remote)
  rw [commaList_single, alone] at once
  rw [list] at all
  refine ⟨st.srv, c, once, ?_, entered.settled (splitSettled_joinServer s), ?_, ?_, ?_⟩
  · refine ⟨fun name => ?_, fun d => ?_, entered.user, entered.remote, ?_⟩
    · rw [entered.found, ← lookup]
      rfl
    · rw [entered.member, ← known]
      rfl
    · exact fun _ => entered.settled (splitSettled_joinServer s)
  · intro absent
    exact (made ((lookup first).trans absent)).trans alike.nextChan
  · exact (congrArg Server.toTables all).trans tables
  · exact fun found => all.trans (same found)

theorem mJoin_again (remote : (s.client sptr).myConnect = false)
    (user : (s.client sptr).user = true) (settled : s.SplitSettled) {name : CStr}
    (valid : RemoteName name) (fits : name.length < bufSize) {c : ChanId}
    (found : s.hashFindChannel name = some c) (member : s.isMember sptr c = true) (cptr : ClientId)
    (parv0 : CStr) (more : List CStr) : mJoin s cptr sptr (parv0 :: name :: more) = s := by
  have calm := joinServer_of_settled settled
  have step : ((joinLoop (joinServer s) more).elements cptr sptr parv0 [name]).srv = s := by
    rw [calm]
    show ((joinLoop s more).element cptr sptr parv0 name).srv = s
    rw [@JoinLoop.element_of_remote (joinLoop s more) sptr remote rfl name valid,
      @JoinLoop.remoteLookup_of_found (joinLoop s more) sptr name c found]
    have whole : s.channelNameFor sptr name = name := by
      simp [channelNameFor, Client.myClient, remote]
    have result : s.getChannel sptr name true = (s, some c) := by
      simp [getChannel, valid.ne_nil, whole, found]
    simp [JoinLoop.joinChannel, JoinLoop.ensureChannel, joinLoop, result, JoinLoop.joinBlock,
      JoinLoop.checkMember, member, bind, Except.bind, JoinLoop.ended]
  have single := mJoin_list user (List.cons_ne_nil name [])
    (fun n inside => List.mem_singleton.1 inside ▸ valid) (by rwa [commaList_single]) cptr parv0 more
    (by rw [step]; exact remote)
  rw [commaList_single] at single
  exact single.trans step

theorem mJoin_again_each (remote : (s.client sptr).myConnect = false)
    (user : (s.client sptr).user = true) (settled : s.SplitSettled) {names : List CStr}
    (valid : ∀ name ∈ names, RemoteName name ∧ name.length < bufSize)
    (on : ∀ name ∈ names, ∃ c, s.hashFindChannel name = some c ∧ s.isMember sptr c = true)
    (cptr : ClientId) (parv0 : CStr) (more : List CStr) :
    names.foldl (fun s name => mJoin s cptr sptr (parv0 :: name :: more)) s = s := by
  induction names with
  | nil => rfl
  | cons name rest ih =>
    obtain ⟨named, fits⟩ := valid name List.mem_cons_self
    obtain ⟨c, found, member⟩ := on name List.mem_cons_self
    rw [List.foldl_cons, mJoin_again remote user settled named fits found member]
    exact ih (fun n inside => valid n (List.mem_cons_of_mem _ inside))
      fun n inside => on n (List.mem_cons_of_mem _ inside)

theorem Tables.Sound.fresh {t : Tables} (sound : t.Sound) (h : Nat) :
    t.nextChan ∉ t.channelTable h := fun inside =>
  Nat.lt_irrefl _ (sound.allocated _ ((sound.mirror.bucket_iff h _).1 inside).1)

/-- A JOIN of several names: the client is on every channel, those that did not exist are new
blocks, and one JOIN per name would have done the same. -/
structure JoinsEach (s s' : Server) (cptr sptr : ClientId) (parv0 : CStr) (names more : List CStr) :
    Prop where
  member : ∀ name ∈ names, ∃ c, s'.hashFindChannel name = some c ∧ s'.isMember sptr c = true
  new : ∀ name ∈ names, s.hashFindChannel name = none →
    ∀ c, s'.hashFindChannel name = some c → s.nextChan ≤ c
  once : s' = names.foldl (fun s name => mJoin s cptr sptr (parv0 :: name :: more)) s

theorem mJoin_joinsEach_iff (remote : (s.client sptr).myConnect = false)
    (user : (s.client sptr).user = true) (fresh : ∀ h, s.nextChan ∉ s.channelTable h)
    {first : CStr} {rest : List CStr} (valid : ∀ name ∈ first :: rest, RemoteName name)
    (fits : (commaList (first :: rest)).length < bufSize) (cptr : ClientId) (parv0 : CStr)
    (more : List CStr) :
    JoinsEach s (mJoin s cptr sptr (parv0 :: commaList (first :: rest) :: more)) cptr sptr parv0
        (first :: rest) more ↔
      ∀ name ∈ rest, irccmp first name = .eq ∨
        ∃ c, s.hashFindChannel name = some c ∧ s.isMember sptr c = true := by
  obtain ⟨s₁, c, alone, entered, settled, made, tables, same⟩ :=
    mJoin_remote remote user fresh valid fits cptr parv0 more
  constructor
  · rintro each name inside
    obtain ⟨d, found, member⟩ := each.member name (List.mem_cons_of_mem _ inside)
    rw [tables] at found member
    cases (entered.member d).1 member with
    | inl here =>
      -- the block of the first name answers to no other
      subst here
      have own := (entered.found first).trans (if_pos (irccmp_self first))
      exact Or.inl (irccmp_trans (chname_of_found own) (irccmp_comm (chname_of_found found)))
    | inr already =>
      rw [entered.found] at found
      split at found
      · next same => exact Or.inl same
      · exact Or.inr ⟨d, found, already⟩
  · intro known
    have on : ∀ name ∈ first :: rest, ∃ d, s₁.hashFindChannel name = some d ∧
        s₁.isMember sptr d = true := by
      intro name inside
      rw [entered.found]
      split
      · exact ⟨c, rfl, (entered.member c).2 (Or.inl rfl)⟩
      · next differs =>
        cases List.mem_cons.1 inside with
        | inl here => exact absurd (here ▸ irccmp_self first) differs
        | inr later =>
          obtain same | ⟨d, found, member⟩ := known name later
          · exact absurd same differs
          · exact ⟨d, found, (entered.member d).2 (Or.inr member)⟩
    have all : mJoin s cptr sptr (parv0 :: commaList (first :: rest) :: more) = s₁ := by
      apply same
      intro name inside absent
      obtain ⟨d, found, -⟩ := on name (List.mem_cons_of_mem _ inside)
      cases absent.symm.trans found
    rw [all]
    refine ⟨on, fun name inside absent d found => ?_, ?_⟩
    · rw [entered.found] at found
      split at found
      · next same =>
        cases found
        exact (made ((s.hashFindChannel_congr_name same).trans absent)).ge
      · cases absent.symm.trans found
    · rw [List.foldl_cons, alone]
      refine (mJoin_again_each entered.remote entered.user settled (fun name inside => ?_)
        (fun name inside => on name (List.mem_cons_of_mem _ inside)) cptr parv0 more).symm
      have listed := List.mem_cons_of_mem first inside
      exact ⟨valid name listed, Nat.lt_of_le_of_lt (length_le_commaList listed) fits⟩

/-! Anna joins `#d` and `#e`, neither of which exists, and is only on `#d`. -/

theorem networkServer_joins_one :
    (networkServer.client 2).myConnect = false ∧ (networkServer.client 2).user = true ∧
      ¬ JoinsEach networkServer (mJoin networkServer 1 2 [lit "anna", lit "#d,#e"]) 1 2
        (lit "anna") [lit "#d", lit "#e"] [] := by
  refine ⟨by decide +kernel, by decide +kernel, fun each => ?_⟩
  obtain ⟨c, found, -⟩ := each.member (lit "#e") (by simp)
  have none : (mJoin networkServer 1 2 [lit "anna", lit "#d,#e"]).hashFindChannel (lit "#e") =
      Option.none := by
    decide +kernel
  cases none.symm.trans found

theorem networkServer_joinsEach_iff :
    JoinsEach networkServer
        (mJoin networkServer 1 2 [lit "anna", commaList [lit "#d", lit "#c", lit "#D"]]) 1 2
        (lit "anna") [lit "#d", lit "#c", lit "#D"] [] ↔
      ∀ name ∈ [lit "#c", lit "#D"], irccmp (lit "#d") name = .eq ∨
        ∃ c, networkServer.hashFindChannel name = some c ∧ networkServer.isMember 2 c = true := by
  apply mJoin_joinsEach_iff (by decide +kernel) (by decide +kernel) networkServer_sound.fresh
  · intro name inside
    simp only [List.mem_cons, List.not_mem_nil, or_false] at inside
    obtain rfl | rfl | rfl := inside
    · exact ⟨by decide, by decide, by decide⟩
    · exact ⟨by decide, by decide, by decide⟩
    · exact ⟨by decide, by decide, by decide⟩
  · decide +kernel

end

end Ircd
