import Ircd.Lib.Machine
import Ircd.Message.Message
import Ircd.Server.Network

/-! `user_mode`: the letters of a user MODE, and the repairs that follow them.

The letters write the bits unchecked. What a client may not have is taken from it again
once the last letter is read, so the invariant is one about the state between commands.
-/

set_option autoImplicit false

namespace Ircd

def Umodes.write (m : Umodes) (flag : Umode) (value : Bool) : Umodes :=
  Function.update m flag value

def operOnlyUmodes : Umodes :=
  .ofList [.oper, .locop, .statsphide, .ospylog, .unidle, .admin]

def Umodes.without (m flags : Umodes) : Umodes := fun f => m f && !flags f

/-- One of the tests behind the letters: `flag` needs `priv`, for a remote client only
where the test does not ask for `MyConnect`. -/
structure Repair where
  flag : Umode
  priv : OperPriv
  mineOnly : Bool
  letter : Char
  mode : Char
  deriving DecidableEq, Repr

def repairs : List Repair :=
  [{ flag := .nchange, priv := .n, mineOnly := false, letter := 'N', mode := 'n' },
   { flag := .admin, priv := .admin, mineOnly := true, letter := 'A', mode := 'a' },
   { flag := .ospylog, priv := .ospylog, mineOnly := true, letter := 'Z', mode := 'Z' },
   { flag := .statsphide, priv := .statsphide, mineOnly := true, letter := 'P', mode := 'p' },
   { flag := .unidle, priv := .unidle, mineOnly := true, letter := 'I', mode := 'u' }]

/-- The variables of the loop over the letters; `add` is `what == MODE_ADD`. -/
structure UmodeLoop where
  net : Network
  add : Bool
  badflag : Bool

namespace Network

def reply (n : Network) (u : ClientId) (num : Numeric) (args : List CStr) : Network :=
  { n with toServer := n.toServer.emit (.numeric u num (n.meName :: n.nameOf u :: args)) }

/-- `flags2 &= ~FLAGS2_OPER_FLAGS`, and out of the list of operators. -/
def dropPrivs (n : Network) (sptr : ClientId) : Network :=
  { n with
    peer := Function.update n.peer sptr { n.peer sptr with privs := fun _ => false }
    operCptrList := n.operCptrList.erase sptr }

def deoper (n : Network) (sptr : ClientId) : Network :=
  let n := n.setUmodes sptr ((n.peer sptr).umodes.without operOnlyUmodes)
  let n := n.setCount { n.count with oper := n.count.oper - 1 }
  if (n.client sptr).myConnect then n.dropPrivs sptr else n

def umodeLetter (cptr sptr : ClientId) (st : UmodeLoop) (letter : Char) : UmodeLoop :=
  let n := st.net
  let m := (n.peer sptr).umodes
  match letter with
  | '+' => { st with add := true }
  | '-' => { st with add := false }
  | 'O' | 'o' =>
    if st.add then
      if (n.client cptr).isServer && !m .oper then
        let n := n.setCount { n.count with oper := n.count.oper + 1 }
        { st with net := n.setUmodes sptr (m.write .oper true) }
      else st
    else if m.isAnOper then { st with net := n.deoper sptr }
    else st
  | ' ' | '\n' | '\r' | '\t' => st
  | letter =>
    match umodeOfLetter letter with
    | some flag => { st with net := n.setUmodes sptr (m.write flag st.add) }
    | none => if (n.client sptr).myConnect then { st with badflag := true } else st

def repair (sptr : ClientId) (n : Network) (r : Repair) : Network :=
  let m := (n.peer sptr).umodes
  if m r.flag && !(n.peer sptr).privs r.priv && (!r.mineOnly || (n.client sptr).myConnect) then
    let n := n.sendLine sptr (':' :: n.meName ++ lit " NOTICE " ++ n.nameOf sptr ++
      lit " :*** You need oper and " ++ r.letter :: lit " flag for +" ++ [r.mode])
    n.setUmodes sptr (m.write r.flag false)
  else n

/-- The text of a MODE by which `sptr` tells its own modes. -/
def umodeLine (n : Network) (sptr : ClientId) (buf : CStr) : CStr :=
  ':' :: n.nameOf sptr ++ lit " MODE " ++ n.nameOf sptr ++ lit " :" ++ buf

/-- The body of the loop of `send_umode_out` over the links. -/
def tellUmodes (cptr sptr : ClientId) (buf : CStr) (n : Network) (acptr : ClientId) : Network :=
  if acptr ≠ cptr ∧ acptr ≠ sptr ∧ buf ≠ [] then n.sendLine acptr (n.umodeLine sptr buf) else n

def sendUmodeOut (n : Network) (cptr sptr : ClientId) (old : Umodes) : Network :=
  let mine := (n.client sptr).myClient
  let new := (n.peer sptr).umodes
  let n := n.servCptrList.foldl (tellUmodes cptr sptr (umodeBuf mine old new sendUmodes)) n
  let all := umodeBuf mine old new allUmodes
  if (n.client cptr).myClient ∧ all ≠ [] then n.sendLine cptr (n.umodeLine sptr all) else n

def countInvisible (n : Network) (old new : Umodes) : Network :=
  if !old .invisible && new .invisible then
    n.setCount { n.count with invisi := n.count.invisi + 1 }
  else if old .invisible && !new .invisible then
    n.setCount { n.count with invisi := n.count.invisi - 1 }
  else n

def readUmodes (n : Network) (cptr sptr : ClientId) (modes : List CStr) : Network :=
  let st := modes.flatten.foldl (umodeLetter cptr sptr) { net := n, add := true, badflag := false }
  if st.badflag then st.net.reply sptr .errUmodeUnknownFlag [] else st.net

def changeUmodes (n : Network) (cptr sptr : ClientId) (modes : List CStr) : Network :=
  let old := (n.peer sptr).umodes
  let n := repairs.foldl (repair sptr) (n.readUmodes cptr sptr modes)
  let n := n.countInvisible old (n.peer sptr).umodes
  n.sendUmodeOut cptr sptr old

def umodeLetters (m : Umodes) : CStr :=
  '+' :: (userModes.filter fun entry => m entry.1).map Prod.snd

/-- `user_mode`; `args` are the parameters after `parv[0]`. -/
def userMode (n : Network) (cptr sptr : ClientId) (args : List CStr) : Network :=
  match args with
  | [] => n.reply sptr .errNeedMoreParams [lit "MODE"]
  | nick :: modes =>
    match n.findPerson nick with
    | none => if (n.client sptr).myConnect then n.reply sptr .errNoSuchChannel [nick] else n
    | some acptr =>
      if (n.client sptr).isServer ∨ sptr ≠ acptr ∨
          (n.client acptr).from_ ≠ (n.client sptr).from_ then
        if (n.client cptr).isServer then
          { n with toServer := n.toServer.emit (.opsButone (':' :: n.meName ++
              lit " WALLOPS :MODE for User " ++ nick ++ lit " From " ++ n.nameOf cptr ++
              '!' :: n.nameOf sptr)) }
        else n.reply sptr .errUsersDontMatch []
      else if modes = [] then n.reply sptr .rplUmodeIs [umodeLetters (n.peer sptr).umodes]
      else n.changeUmodes cptr sptr modes

end Network

namespace Network

/-- The relation of two states between which only `sptr` wrote to its modes: it may have
lost privileges and nobody else has changed. -/
structure OnlyUmodes (sptr : ClientId) (n n' : Network) : Prop where
  status : ∀ v, (n'.client v).status = (n.client v).status
  localFlag : ∀ v, (n'.client v).localFlag = (n.client v).localFlag
  from_ : ∀ v, (n'.client v).from_ = (n.client v).from_
  elsewhere : ∀ v, v ≠ sptr → n'.peer v = n.peer v
  privs : ∀ p, (n'.peer sptr).privs p = true → (n.peer sptr).privs p = true

namespace OnlyUmodes

variable {sptr : ClientId} {n n' n'' : Network}

theorem of_heaps (client : n'.client = n.client) (peer : n'.peer = n.peer) :
    OnlyUmodes sptr n n' where
  status := fun v => by rw [client]
  localFlag := fun v => by rw [client]
  from_ := fun v => by rw [client]
  elsewhere := fun v _ => by rw [peer]
  privs := fun p had => by rwa [peer] at had

theorem refl (sptr : ClientId) (n : Network) : OnlyUmodes sptr n n := of_heaps rfl rfl

theorem trans (h : OnlyUmodes sptr n n') (h' : OnlyUmodes sptr n' n'') :
    OnlyUmodes sptr n n'' where
  status := fun v => (h'.status v).trans (h.status v)
  localFlag := fun v => (h'.localFlag v).trans (h.localFlag v)
  from_ := fun v => (h'.from_ v).trans (h.from_ v)
  elsewhere := fun v other => (h'.elsewhere v other).trans (h.elsewhere v other)
  privs := fun p had => h.privs p (h'.privs p had)

theorem setUmodes (sptr : ClientId) (n : Network) (m : Umodes) :
    OnlyUmodes sptr n (n.setUmodes sptr m) := by
  have client : ∀ v, (n.setUmodes sptr m).client v =
      if v = sptr then { n.client sptr with anOper := m.isAnOper } else n.client v := by
    intro v
    simp [Network.setUmodes, Tables.setClient, Function.update_apply]
  constructor
  · intro v
    rw [client]
    split <;> simp [*]
  · intro v
    rw [client]
    split <;> simp [*]
  · intro v
    rw [client]
    split <;> simp [*]
  · intro v other
    simp [Network.setUmodes, other]
  · intro p had
    simpa [Network.setUmodes] using had

theorem dropPrivs (sptr : ClientId) (n : Network) : OnlyUmodes sptr n (n.dropPrivs sptr) where
  status := fun _ => rfl
  localFlag := fun _ => rfl
  from_ := fun _ => rfl
  elsewhere := fun v other => by simp [Network.dropPrivs, other]
  privs := fun p had => by simp [Network.dropPrivs] at had

theorem deoper (sptr : ClientId) (n : Network) : OnlyUmodes sptr n (n.deoper sptr) := by
  unfold Network.deoper
  have cleared := setUmodes sptr n ((n.peer sptr).umodes.without operOnlyUmodes)
  generalize n.setUmodes sptr _ = m at cleared ⊢
  have counted : OnlyUmodes sptr n (m.setCount { m.count with oper := m.count.oper - 1 }) :=
    cleared.trans (of_heaps rfl rfl)
  dsimp only
  split
  · exact counted.trans (dropPrivs sptr _)
  · exact counted

theorem grantOper (sptr : ClientId) (n : Network) (m : Umodes) (count : Counter) :
    OnlyUmodes sptr n ((n.setCount count).setUmodes sptr m) :=
  (of_heaps rfl rfl : OnlyUmodes sptr n (n.setCount count)).trans (setUmodes sptr _ m)

theorem umodeLetter (cptr : ClientId) (st : UmodeLoop) (letter : Char) :
    OnlyUmodes sptr st.net (Network.umodeLetter cptr sptr st letter).net := by
  unfold Network.umodeLetter
  dsimp only
  split
  · exact refl sptr _
  · exact refl sptr _
  · split
    · split
      · exact grantOper sptr _ _ _
      · exact refl sptr _
    · split
      · exact deoper sptr _
      · exact refl sptr _
  · split
    · split
      · exact grantOper sptr _ _ _
      · exact refl sptr _
    · split
      · exact deoper sptr _
      · exact refl sptr _
  · exact refl sptr _
  · exact refl sptr _
  · exact refl sptr _
  · exact refl sptr _
  · split
    · exact setUmodes sptr _ _
    · split
      · exact refl sptr _
      · exact refl sptr _

theorem letters (cptr : ClientId) (text : CStr) (st : UmodeLoop) :
    OnlyUmodes sptr st.net (text.foldl (Network.umodeLetter cptr sptr) st).net := by
  induction text generalizing st with
  | nil => exact refl sptr _
  | cons letter text ih => exact (umodeLetter cptr st letter).trans (ih _)

theorem sendLine (sptr : ClientId) (n : Network) (v : ClientId) (text : CStr) :
    OnlyUmodes sptr n (n.sendLine v text) := of_heaps rfl rfl

theorem reply (sptr : ClientId) (n : Network) (v : ClientId) (num : Numeric)
    (args : List CStr) : OnlyUmodes sptr n (n.reply v num args) := of_heaps rfl rfl

theorem repair (sptr : ClientId) (n : Network) (r : Repair) :
    OnlyUmodes sptr n (Network.repair sptr n r) := by
  unfold Network.repair
  dsimp only
  split
  · exact (sendLine sptr n _ _).trans (setUmodes sptr _ _)
  · exact refl sptr n

theorem repaired (rs : List Repair) (n : Network) :
    OnlyUmodes sptr n (rs.foldl (Network.repair sptr) n) := by
  induction rs generalizing n with
  | nil => exact refl sptr n
  | cons r rs ih => exact (repair sptr n r).trans (ih _)

end OnlyUmodes

structure SameUsers (n n' : Network) : Prop where
  client : n'.client = n.client
  peer : n'.peer = n.peer

theorem SameUsers.onlyUmodes {n n' : Network} (h : SameUsers n n') (sptr : ClientId) :
    OnlyUmodes sptr n n' := .of_heaps h.client h.peer

theorem tellUmodes_same (cptr sptr : ClientId) (buf : CStr) (links : List ClientId)
    (n : Network) : SameUsers n (links.foldl (tellUmodes cptr sptr buf) n) := by
  induction links generalizing n with
  | nil => exact ⟨rfl, rfl⟩
  | cons acptr links ih =>
    have told : SameUsers n (tellUmodes cptr sptr buf n acptr) := by
      unfold tellUmodes
      split <;> exact ⟨rfl, rfl⟩
    have rest := ih (tellUmodes cptr sptr buf n acptr)
    exact ⟨rest.client.trans told.client, rest.peer.trans told.peer⟩

theorem sendUmodeOut_same (n : Network) (cptr sptr : ClientId) (old : Umodes) :
    SameUsers n (n.sendUmodeOut cptr sptr old) := by
  unfold sendUmodeOut
  dsimp only
  have told := tellUmodes_same cptr sptr
    (umodeBuf (n.client sptr).myClient old (n.peer sptr).umodes sendUmodes) n.servCptrList n
  generalize List.foldl _ n n.servCptrList = m at told ⊢
  split
  · exact ⟨told.client, told.peer⟩
  · exact told

theorem countInvisible_same (n : Network) (old new : Umodes) :
    SameUsers n (n.countInvisible old new) := by
  unfold countInvisible
  split
  · exact ⟨rfl, rfl⟩
  · split <;> exact ⟨rfl, rfl⟩

theorem setUmodes_umodes (n : Network) (u : ClientId) (m : Umodes) :
    ((n.setUmodes u m).peer u).umodes = m := by
  simp [setUmodes]

theorem deoper_umodes (n : Network) (u : ClientId) :
    ((n.deoper u).peer u).umodes = (n.peer u).umodes.without operOnlyUmodes := by
  unfold deoper
  dsimp only
  split
  · simp [dropPrivs, setUmodes, setCount]
  · simp [setUmodes, setCount]

theorem umodeOfLetter_plain {letter : Char} (big : letter ≠ 'O') (small : letter ≠ 'o')
    {flag : Umode} (known : umodeOfLetter letter = some flag) : flag ≠ .oper ∧ flag ≠ .locop := by
  unfold umodeOfLetter at known
  split at known
  -- the two letters are excluded, every other entry names its own bit
  all_goals first
    | exact absurd rfl big
    | exact absurd rfl small
    | cases known <;> simp

theorem umodeLetter_oper {cptr sptr : ClientId} {st : UmodeLoop} (letter : Char)
    (mine : (st.net.client cptr).isServer = false) {flag : Umode}
    (status : flag = .oper ∨ flag = .locop)
    (set : ((umodeLetter cptr sptr st letter).net.peer sptr).umodes flag = true) :
    (st.net.peer sptr).umodes flag = true := by
  have lost : ((st.net.deoper sptr).peer sptr).umodes flag = true →
      (st.net.peer sptr).umodes flag = true := by
    intro kept
    rw [deoper_umodes] at kept
    simp only [Umodes.without, Bool.and_eq_true] at kept
    exact kept.1
  unfold umodeLetter at set
  dsimp only at set
  split at set
  · exact set
  · exact set
  · simp only [mine, Bool.false_and, Bool.false_eq_true, if_false] at set
    split at set
    · exact set
    · split at set
      · exact lost set
      · exact set
  · simp only [mine, Bool.false_and, Bool.false_eq_true, if_false] at set
    split at set
    · exact set
    · split at set
      · exact lost set
      · exact set
  · exact set
  · exact set
  · exact set
  · exact set
  · rename_i big small _ _ _ _
    split at set
    · rename_i written known
      have plain := umodeOfLetter_plain big small known
      rw [setUmodes_umodes] at set
      have apart : flag ≠ written := by
        rcases status with rfl | rfl
        · exact plain.1.symm
        · exact plain.2.symm
      simpa [Umodes.write, apart] using set
    · split at set
      · exact set
      · exact set

theorem letters_oper {cptr sptr : ClientId} {flag : Umode} (status : flag = .oper ∨ flag = .locop)
    (text : CStr) (st : UmodeLoop) (mine : (st.net.client cptr).isServer = false)
    (set : ((text.foldl (umodeLetter cptr sptr) st).net.peer sptr).umodes flag = true) :
    (st.net.peer sptr).umodes flag = true := by
  induction text generalizing st with
  | nil => exact set
  | cons letter text ih =>
    have still : ((umodeLetter cptr sptr st letter).net.client cptr).isServer = false := by
      have same : ((umodeLetter cptr sptr st letter).net.client cptr).status =
          (st.net.client cptr).status := (OnlyUmodes.umodeLetter cptr st letter).status cptr
      simp only [Client.isServer] at mine ⊢
      rw [same]
      exact mine
    exact umodeLetter_oper letter mine status (ih _ still set)

theorem repair_umodes (n : Network) (sptr : ClientId) (r : Repair) (flag : Umode)
    (set : ((repair sptr n r).peer sptr).umodes flag = true) :
    (n.peer sptr).umodes flag = true := by
  unfold repair at set
  dsimp only at set
  split at set
  · rw [setUmodes_umodes] at set
    by_cases same : flag = r.flag
    · simp [Umodes.write, same] at set
    · simpa [Umodes.write, same] using set
  · exact set

theorem repair_privs (n : Network) (sptr : ClientId) (r : Repair) :
    ((repair sptr n r).peer sptr).privs = (n.peer sptr).privs := by
  unfold repair
  dsimp only
  split
  · simp [setUmodes, sendLine]
  · rfl

theorem repair_restricts (n : Network) (sptr : ClientId) (r : Repair)
    (mine : (n.client sptr).localFlag = true)
    (set : ((repair sptr n r).peer sptr).umodes r.flag = true) :
    (n.peer sptr).privs r.priv = true := by
  by_contra lacks
  have had := repair_umodes n sptr r r.flag set
  unfold repair at set
  rw [Bool.not_eq_true] at lacks
  simp [had, lacks, mine, Client.myConnect, setUmodes_umodes, Umodes.write] at set

theorem repaired_umodes (sptr : ClientId) (flag : Umode) (rs : List Repair) (n : Network)
    (set : ((rs.foldl (repair sptr) n).peer sptr).umodes flag = true) :
    (n.peer sptr).umodes flag = true := by
  induction rs generalizing n with
  | nil => exact set
  | cons r rs ih => exact repair_umodes n sptr r flag (ih _ set)

theorem repaired_restricts (sptr : ClientId) {r : Repair} (rs : List Repair) (tested : r ∈ rs)
    (n : Network) (mine : (n.client sptr).localFlag = true)
    (set : ((rs.foldl (repair sptr) n).peer sptr).umodes r.flag = true) :
    (n.peer sptr).privs r.priv = true := by
  induction rs generalizing n with
  | nil => cases tested
  | cons first rs ih =>
    rw [List.foldl_cons] at set
    rcases List.mem_cons.mp tested with rfl | later
    · exact repair_restricts n sptr r mine (repaired_umodes sptr r.flag rs _ set)
    · have still : ((repair sptr n first).client sptr).localFlag = true :=
        ((OnlyUmodes.repair sptr n first).localFlag sptr).trans mine
      have had := ih later _ still set
      rwa [repair_privs] at had

/-- The privilege of `flags2` that a mode is restricted to. -/
def restrictedTo : Umode → Option OperPriv
  | .nchange => some .n
  | .admin => some .admin
  | .ospylog => some .ospylog
  | .statsphide => some .statsphide
  | .unidle => some .unidle
  | _ => none

theorem restrictedTo_tested {m : Umode} {priv : OperPriv} (needs : restrictedTo m = some priv) :
    ∃ r ∈ repairs, r.flag = m ∧ r.priv = priv := by
  unfold restrictedTo at needs
  split at needs
  -- each restricted bit has its test, at its place in the list
  all_goals cases needs <;> simp [repairs]

/-- What the client that was `p` may be later: it has lost things at most, but for modes
that it has the privilege for. -/
structure NoGain (p p' : Peer) : Prop where
  oper : p'.umodes .oper = true → p.umodes .oper = true
  locop : p'.umodes .locop = true → p.umodes .locop = true
  privs : ∀ priv, p'.privs priv = true → p.privs priv = true
  restricted : ∀ m priv, restrictedTo m = some priv → p'.umodes m = true →
    p.umodes m = true ∨ p.privs priv = true

theorem NoGain.refl (p : Peer) : NoGain p p :=
  ⟨fun had => had, fun had => had, fun _ had => had, fun _ _ _ had => .inl had⟩

theorem NoGain.trans {p p' p'' : Peer} (h : NoGain p p') (h' : NoGain p' p'') : NoGain p p'' where
  oper := fun had => h.oper (h'.oper had)
  locop := fun had => h.locop (h'.locop had)
  privs := fun priv had => h.privs priv (h'.privs priv had)
  restricted := fun m priv needs had => by
    rcases h'.restricted m priv needs had with before | granted
    · exact h.restricted m priv needs before
    · exact .inr (h.privs priv granted)

structure LocalUser (n : Network) (u : ClientId) : Prop where
  client : (n.client u).isClient = true
  localFlag : (n.client u).localFlag = true
  from_ : (n.client u).from_ = u

theorem OnlyUmodes.localUser {sptr u : ClientId} {n n' : Network} (h : OnlyUmodes sptr n n')
    (person : LocalUser n u) : LocalUser n' u where
  client := by simpa only [Client.isClient, h.status u] using person.client
  localFlag := (h.localFlag u).trans person.localFlag
  from_ := (h.from_ u).trans person.from_

theorem readUmodes_only (n : Network) (cptr sptr : ClientId) (modes : List CStr) :
    OnlyUmodes sptr n (n.readUmodes cptr sptr modes) := by
  unfold readUmodes
  dsimp only
  have read : OnlyUmodes sptr n (modes.flatten.foldl (umodeLetter cptr sptr)
      { net := n, add := true, badflag := false }).net :=
    OnlyUmodes.letters cptr modes.flatten { net := n, add := true, badflag := false }
  split
  · exact read.trans (.reply sptr _ _ _ _)
  · exact read

theorem readUmodes_oper {n : Network} {cptr sptr : ClientId} (modes : List CStr)
    (mine : (n.client cptr).isServer = false) {flag : Umode}
    (status : flag = .oper ∨ flag = .locop)
    (set : ((n.readUmodes cptr sptr modes).peer sptr).umodes flag = true) :
    (n.peer sptr).umodes flag = true := by
  unfold readUmodes at set
  dsimp only at set
  refine letters_oper status modes.flatten { net := n, add := true, badflag := false } mine ?_
  split at set
  · exact set
  · exact set

theorem changeUmodes_same (n : Network) (cptr sptr : ClientId) (modes : List CStr) :
    SameUsers (repairs.foldl (repair sptr) (n.readUmodes cptr sptr modes))
      (n.changeUmodes cptr sptr modes) := by
  unfold changeUmodes
  dsimp only
  generalize repairs.foldl _ _ = k
  have counted := countInvisible_same k (n.peer sptr).umodes (k.peer sptr).umodes
  have sent := sendUmodeOut_same
    (k.countInvisible (n.peer sptr).umodes (k.peer sptr).umodes) cptr sptr (n.peer sptr).umodes
  exact ⟨sent.client.trans counted.client, sent.peer.trans counted.peer⟩

theorem changeUmodes_only (n : Network) (cptr sptr : ClientId) (modes : List CStr) :
    OnlyUmodes sptr n (n.changeUmodes cptr sptr modes) :=
  ((readUmodes_only n cptr sptr modes).trans (.repaired repairs _)).trans
    ((changeUmodes_same n cptr sptr modes).onlyUmodes sptr)

theorem changeUmodes_noGain {n : Network} {u : ClientId} (person : LocalUser n u)
    (modes : List CStr) : NoGain (n.peer u) ((n.changeUmodes u u modes).peer u) := by
  have mine : (n.client u).isServer = false := by
    have client := person.client
    simp only [Client.isClient, beq_iff_eq] at client
    simp [Client.isServer, client]
  have read := readUmodes_only n u u modes
  have status : ∀ {flag : Umode}, flag = .oper ∨ flag = .locop →
      ((n.changeUmodes u u modes).peer u).umodes flag = true → (n.peer u).umodes flag = true := by
    intro flag one set
    rw [(changeUmodes_same n u u modes).peer] at set
    exact readUmodes_oper modes mine one (repaired_umodes u flag repairs _ set)
  constructor
  · exact status (.inl rfl)
  · exact status (.inr rfl)
  · exact (changeUmodes_only n u u modes).privs
  · intro m priv needs set
    rw [(changeUmodes_same n u u modes).peer] at set
    obtain ⟨r, tested, rfl, rfl⟩ := restrictedTo_tested needs
    have granted := repaired_restricts u repairs tested _ (read.localUser person).localFlag set
    exact .inr (read.privs _ granted)

theorem userMode_noGain {n : Network} {u cptr sptr : ClientId} (person : LocalUser n u)
    (link : (n.client sptr).from_ = cptr) (args : List CStr) :
    LocalUser (n.userMode cptr sptr args) u ∧
      NoGain (n.peer u) ((n.userMode cptr sptr args).peer u) := by
  have said : ∀ {n' : Network}, SameUsers n n' → LocalUser n' u ∧ NoGain (n.peer u) (n'.peer u) := by
    intro n' same
    refine ⟨(same.onlyUmodes u).localUser person, ?_⟩
    rw [same.peer]
    exact .refl _
  unfold userMode
  split
  · exact said ⟨rfl, rfl⟩
  · split
    · split
      · exact said ⟨rfl, rfl⟩
      · exact said ⟨rfl, rfl⟩
    · split
      · split
        · exact said ⟨rfl, rfl⟩
        · exact said ⟨rfl, rfl⟩
      · split
        · exact said ⟨rfl, rfl⟩
        · refine ⟨(changeUmodes_only n cptr sptr _).localUser person, ?_⟩
          by_cases own : u = sptr
          · subst own
            obtain rfl : u = cptr := person.from_.symm.trans link
            exact changeUmodes_noGain person _
          · rw [(changeUmodes_only n cptr sptr _).elsewhere u own]
            exact .refl _

/-- A user MODE as `m_mode` hands it on, with the link that it came through. -/
structure UmodeCommand where
  cptr : ClientId
  sptr : ClientId
  args : List CStr
  deriving DecidableEq, Repr

def umodeMachine : Machine Network UmodeCommand where
  step n e := n.userMode e.cptr e.sptr e.args

/-- What is always true where `parse` works: `sptr->from == cptr`. -/
def CameThrough (n : Network) (e : UmodeCommand) : Prop := (n.client e.sptr).from_ = e.cptr

/-- However many commands a user of this server sends, and whoever sends others in between:
it gains neither operator status nor a privilege, nor a mode that is restricted to a
privilege that it was not granted. -/
theorem no_privilege_from_mode {n : Network} {u : ClientId} (person : LocalUser n u)
    {es : List UmodeCommand} (sent : umodeMachine.Meets CameThrough n es) :
    NoGain (n.peer u) ((umodeMachine.run n es).peer u) := by
  have kept : LocalUser (umodeMachine.run n es) u ∧
      NoGain (n.peer u) ((umodeMachine.run n es).peer u) := by
    refine sent.keeps (I := fun m => LocalUser m u ∧ NoGain (n.peer u) (m.peer u)) ?_ ?_
    · intro m e now came
      have step := userMode_noGain now.1 came e.args
      exact ⟨step.1, now.2.trans step.2⟩
    · exact ⟨person, .refl _⟩
  exact kept.2

def lonelyOper : Network :=
  let n := (startUp (lit "irc.example.net") 1000).makeClient none
  let n := n.edit (·.addClient 1
    { n.client 1 with name := lit "alice", status := .client, user := true })
  n.setUmodes 1 (.ofList [.locop])

theorem no_privilege_from_mode_oper :
    let cmds : List UmodeCommand :=
      [{ cptr := 1, sptr := 1, args := [lit "alice", lit "+na-O", lit "+oaZ+x"] },
       { cptr := 1, sptr := 1, args := [lit "alice", lit "-x+Ownp"] }]
    ((umodeMachine.run lonelyOper cmds).peer 1).umodes .wallop = true ∧
      NoGain (lonelyOper.peer 1) ((umodeMachine.run lonelyOper cmds).peer 1) :=
  ⟨by decide +kernel,
    no_privilege_from_mode
      { client := by decide, localFlag := by decide, from_ := by decide }
      ⟨by unfold CameThrough; decide, by unfold CameThrough; decide +kernel, trivial⟩⟩

end Network

end Ircd
