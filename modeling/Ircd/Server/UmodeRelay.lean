import Ircd.Server.UserMode
import Mathlib.Data.List.Find

/-! The modes of a user on its own server and on the others.

`send_umode` writes down by which flags two flag words differ and `user_mode` reads it on
the next server. Only the flags of `SEND_UMODES` are told; the letters of the others may
stand in what a server further on is sent, and move none of the told ones.
-/

set_option autoImplicit false

namespace Ircd

/-- What a letter does to the flags, where `server` says whether it came over a link; the
second component is `what == MODE_ADD`. -/
def readLetter (server : Bool) (st : Umodes × Bool) (letter : Char) : Umodes × Bool :=
  match letter with
  | '+' => (st.1, true)
  | '-' => (st.1, false)
  | 'O' | 'o' =>
    if st.2 then
      if server && !st.1 .oper then (st.1.write .oper true, true) else st
    else if st.1.isAnOper then (st.1.without operOnlyUmodes, false)
    else st
  | ' ' | '\n' | '\r' | '\t' => st
  | letter =>
    match umodeOfLetter letter with
    | some flag => (st.1.write flag st.2, st.2)
    | none => st

def SameRelayed (m m' : Umodes) : Prop := ∀ flag, sendUmodes flag = true → m flag = m' flag

theorem SameRelayed.trans {m m' m'' : Umodes} (h : SameRelayed m m') (h' : SameRelayed m' m'') :
    SameRelayed m m'' := fun flag told => (h flag told).trans (h' flag told)

theorem readLetter_other {server : Bool} {st : Umodes × Bool} {letter : Char} (plus : letter ≠ '+')
    (minus : letter ≠ '-') (big : letter ≠ 'O') (small : letter ≠ 'o') (blank : letter ≠ ' ')
    (feed : letter ≠ '\n') (return_ : letter ≠ '\r') (tab : letter ≠ '\t') :
    readLetter server st letter =
      match umodeOfLetter letter with
      | some flag => (st.1.write flag st.2, st.2)
      | none => st := by
  unfold readLetter
  split
  · exact absurd rfl plus
  · exact absurd rfl minus
  · exact absurd rfl big
  · exact absurd rfl small
  · exact absurd rfl blank
  · exact absurd rfl feed
  · exact absurd rfl return_
  · exact absurd rfl tab
  · rfl

/-- Over a link the letter of a flag writes that flag, and no other one that is told. -/
theorem readLetter_flag {m : Umodes} {add : Bool} {letter : Char} {flag told : Umode}
    (known : umodeOfLetter letter = some flag) (notLocop : flag ≠ .locop)
    (isTold : sendUmodes told = true) :
    (readLetter true (m, add) letter).1 told = (if told = flag then add else m told) ∧
      (readLetter true (m, add) letter).2 = add := by
  have kept : operOnlyUmodes told = false ∨ told = .oper := by
    cases told <;> first | exact .inl rfl | exact .inr rfl | cases isTold
  by_cases isOper : letter = 'o'
  · subst isOper
    obtain rfl : Umode.oper = flag := Option.some.inj known
    cases add with
    | true =>
      cases was : m .oper with
      | true =>
        refine ⟨?_, by simp [readLetter, was]⟩
        by_cases this : told = .oper
        · simp [readLetter, was, this]
        · simp [readLetter, was, this]
      | false =>
        refine ⟨?_, by simp [readLetter, was]⟩
        simp [readLetter, was, Umodes.write, Function.update_apply]
    | false =>
      cases was : m.isAnOper with
      | true =>
        refine ⟨?_, by simp [readLetter, was]⟩
        rcases kept with kept | rfl
        · have other : told ≠ .oper := by
            rintro rfl
            cases kept
          simp [readLetter, was, Umodes.without, kept, other]
        · simp [readLetter, was, Umodes.without, operOnlyUmodes, Umodes.ofList]
      | false =>
        refine ⟨?_, by simp [readLetter, was]⟩
        by_cases this : told = .oper
        · have none : m .oper = false := by
            simp only [Umodes.isAnOper, Bool.or_eq_false_iff] at was
            exact was.1
          simp [readLetter, was, this, none]
        · simp [readLetter, was, this]
  · have notBig : letter ≠ 'O' := by
      rintro rfl
      exact notLocop (Option.some.inj known).symm
    have read : readLetter true (m, add) letter = (m.write flag add, add) := by
      unfold readLetter
      split
      · cases known
      · cases known
      · exact absurd rfl notBig
      · exact absurd rfl isOper
      · cases known
      · cases known
      · cases known
      · cases known
      · rw [known]
    rw [read]
    exact ⟨by simp [Umodes.write, Function.update_apply], rfl⟩

/-- An entry of `user_modes` that `user_mode` reads as the same flag. -/
def Entry (entry : Umode × Char) : Prop := umodeOfLetter entry.2 = some entry.1

instance (entry : Umode × Char) : Decidable (Entry entry) :=
  inferInstanceAs (Decidable (_ = _))

def NoLocop (mine : Bool) (old new : Umodes) : Prop := mine = true ∨ old .locop = new .locop

theorem read_signed {m : Umodes} {add sign : Bool} {what : Option Bool} {flag told : Umode}
    {letter : Char} (known : umodeOfLetter letter = some flag) (notLocop : flag ≠ .locop)
    (isTold : sendUmodes told = true) (inStep : ∀ s, what = some s → add = s) :
    let text := if what = some sign then [letter] else [if sign then '+' else '-', letter]
    (text.foldl (readLetter true) (m, add)).1 told = (if told = flag then sign else m told) ∧
      (text.foldl (readLetter true) (m, add)).2 = sign := by
  intro text
  have read : (readLetter true (m, sign) letter).1 told = (if told = flag then sign else m told) ∧
      (readLetter true (m, sign) letter).2 = sign := readLetter_flag known notLocop isTold
  have whole : text.foldl (readLetter true) (m, add) = readLetter true (m, sign) letter := by
    by_cases same : what = some sign
    · simp [text, same, inStep sign same]
    · cases sign <;> simp [text, same, readLetter]
  rw [whole]
  exact read

/-- The letters of a part of the table move the told flags that differ to their new value. -/
theorem read_umodeDiff {mine : Bool} {old new : Umodes} (noLocop : NoLocop mine old new)
    {told : Umode} (isTold : sendUmodes told = true) (table : List (Umode × Char))
    (entries : ∀ entry ∈ table, Entry entry) (once : (table.map Prod.fst).Nodup)
    (what : Option Bool) (m : Umodes) (add : Bool) (inStep : ∀ s, what = some s → add = s) :
    ((umodeDiff mine old new sendUmodes table what).foldl (readLetter true) (m, add)).1 told =
      if told ∈ table.map Prod.fst ∧ old told ≠ new told then new told else m told := by
  induction table generalizing what m add with
  | nil => simp [umodeDiff]
  | cons entry table ih =>
    obtain ⟨flag, letter⟩ := entry
    have known : umodeOfLetter letter = some flag := entries _ List.mem_cons_self
    have entries := fun e inside => entries e (List.mem_cons_of_mem (flag, letter) inside)
    rw [List.map_cons, List.nodup_cons] at once
    have ih := ih entries once.2
    -- the flag is passed over, or its sign and letter come before the rest
    have passed : (old flag = new flag ∨ (mine && !sendUmodes flag) = true) →
        ∀ m : Umodes, (if told ∈ table.map Prod.fst ∧ old told ≠ new told then new told
          else m told) =
        if told ∈ ((flag, letter) :: table).map Prod.fst ∧ old told ≠ new told then new told
          else m told := by
      intro same m
      by_cases this : told = flag
      · have alike : old told = new told := by
          rcases same with same | masked
          · rw [this]
            exact same
          · simp [← this, isTold] at masked
        simp [alike]
      · refine if_congr (and_congr_left fun _ => ?_) rfl rfl
        rw [List.map_cons, List.mem_cons]
        exact (or_iff_right this).symm
    have written : ∀ sign : Bool, old flag ≠ new flag → new flag = sign → flag ≠ .locop →
        (((if what = some sign then [letter] else [if sign then '+' else '-', letter]) ++
          umodeDiff mine old new sendUmodes table (some sign)).foldl (readLetter true)
            (m, add)).1 told =
        if told ∈ ((flag, letter) :: table).map Prod.fst ∧ old told ≠ new told then new told
          else m told := by
      intro sign differ isNew notLocop
      obtain ⟨value, now⟩ := @read_signed m add sign _ _ _ _ known notLocop isTold inStep
      rw [List.foldl_append]
      generalize List.foldl (readLetter true) (m, add) _ = st at value now ⊢
      obtain ⟨m', add'⟩ := st
      subst now
      rw [ih (some add') m' add' fun s same => Option.some.inj same]
      by_cases this : told = flag
      · subst this
        rw [if_neg fun inside => once.1 inside.1, if_pos ⟨List.mem_cons_self, differ⟩, isNew]
        rw [if_pos rfl] at value
        exact value
      · rw [if_neg this] at value
        refine if_congr (and_congr_left fun _ => ?_) rfl value
        rw [List.map_cons, List.mem_cons]
        exact (or_iff_right this).symm
    unfold umodeDiff
    split
    · next masked =>
      rw [ih what m add inStep]
      exact passed (.inr masked) m
    next sent =>
    have notLocop : old flag ≠ new flag → flag ≠ .locop := by
      rintro differ rfl
      rcases noLocop with rfl | same
      · simp [sendUmodes, Umodes.ofList] at sent
      · exact differ same
    split
    · next off =>
      simp only [Bool.and_eq_true, Bool.not_eq_true'] at off
      have differ : old flag ≠ new flag := by simp [off]
      exact written false differ off.2 (notLocop differ)
    · next notOff =>
      split
      · next on =>
        simp only [Bool.and_eq_true, Bool.not_eq_true'] at on
        have differ : old flag ≠ new flag := by simp [on]
        exact written true differ on.2 (notLocop differ)
      · next notOn =>
        have same : old flag = new flag := by
          cases was : old flag <;> cases is : new flag <;> simp [was, is] at notOff notOn ⊢
        rw [ih what m add inStep]
        exact passed (.inl same) m

/-- Read from flags that agree with the old ones, the whole string gives the new ones. -/
theorem read_umodeBuf {mine : Bool} {old new m : Umodes} (noLocop : NoLocop mine old new)
    (same : SameRelayed m old) :
    SameRelayed ((umodeBuf mine old new sendUmodes).foldl (readLetter true) (m, true)).1 new := by
  intro told isTold
  have inTable : told ∈ userModes.map Prod.fst := by
    cases told <;> decide
  rw [umodeBuf, read_umodeDiff noLocop isTold userModes (by decide) (by decide) none m true nofun,
    same told isTold]
  by_cases differ : old told = new told
  · simp [differ]
  · simp [inTable, differ]

namespace Network

def linesTo (n : Network) (link : ClientId) : List CStr :=
  n.sent.filterMap fun
    | .one target text => if target = link then some text else none
    | _ => none

structure Placed (n n' : Network) : Prop where
  clients : n'.clients = n.clients
  servCptrList : n'.servCptrList = n.servCptrList
  name : ∀ v, n'.nameOf v = n.nameOf v
  status : ∀ v, (n'.client v).status = (n.client v).status
  localFlag : ∀ v, (n'.client v).localFlag = (n.client v).localFlag
  from_ : ∀ v, (n'.client v).from_ = (n.client v).from_
  user : ∀ v, (n'.client v).user = (n.client v).user

namespace Placed

variable {n n' n'' : Network}

theorem of_tables (tables : n'.toTables = n.toTables) : Placed n n' where
  clients := by rw [tables]
  servCptrList := by rw [tables]
  name := fun v => by rw [tables]
  status := fun v => by rw [tables]
  localFlag := fun v => by rw [tables]
  from_ := fun v => by rw [tables]
  user := fun v => by rw [tables]

theorem trans (h : Placed n n') (h' : Placed n' n'') : Placed n n'' where
  clients := h'.clients.trans h.clients
  servCptrList := h'.servCptrList.trans h.servCptrList
  name := fun v => (h'.name v).trans (h.name v)
  status := fun v => (h'.status v).trans (h.status v)
  localFlag := fun v => (h'.localFlag v).trans (h.localFlag v)
  from_ := fun v => (h'.from_ v).trans (h.from_ v)
  user := fun v => (h'.user v).trans (h.user v)

theorem setUmodes (sptr : ClientId) (n : Network) (m : Umodes) : Placed n (n.setUmodes sptr m) := by
  have client : ∀ v, (n.setUmodes sptr m).client v =
      if v = sptr then { n.client sptr with anOper := m.isAnOper } else n.client v := by
    intro v
    simp [Network.setUmodes, Tables.setClient, Function.update_apply]
  constructor
  · rfl
  · rfl
  · intro v
    rw [Tables.nameOf, Tables.nameOf, client]
    split <;> simp [*]
  · intro v
    rw [client]
    split <;> simp [*]
  · intro v
    rw [client]
    split <;> simp [*]
  · intro v
    rw [client]
    split <;> simp [*]
  · intro v
    rw [client]
    split <;> simp [*]

theorem isPerson (h : Placed n n') (v : ClientId) :
    (n'.client v).isPerson = (n.client v).isPerson := by
  rw [Client.isPerson, Client.isPerson, Client.isClient, Client.isClient, h.status, h.user]

theorem myClient (h : Placed n n') (v : ClientId) :
    (n'.client v).myClient = (n.client v).myClient := by
  rw [Client.myClient, Client.myClient, Client.myConnect, Client.myConnect, Client.isClient,
    Client.isClient, h.localFlag, h.status]

theorem findPerson (h : Placed n n') (nick : CStr) : n'.findPerson nick = n.findPerson nick := by
  have names : n'.findClient nick = n.findClient nick := by
    unfold Tables.findClient
    rw [h.clients]
    exact List.find?_congr fun v _ => by rw [h.name]
  unfold Tables.findPerson
  rw [names]
  simp only [h.isPerson]

end Placed

structure Framed (sptr : ClientId) (n n' : Network) : Prop extends Placed n n' where
  linesTo : ∀ link, link ≠ sptr → n'.linesTo link = n.linesTo link

namespace Framed

variable {sptr : ClientId} {n n' n'' : Network}

theorem of_tables (tables : n'.toTables = n.toTables)
    (lines : ∀ link, link ≠ sptr → n'.linesTo link = n.linesTo link) : Framed sptr n n' where
  toPlaced := .of_tables tables
  linesTo := lines

theorem refl (sptr : ClientId) (n : Network) : Framed sptr n n := of_tables rfl fun _ _ => rfl

theorem trans (h : Framed sptr n n') (h' : Framed sptr n' n'') : Framed sptr n n'' where
  toPlaced := h.toPlaced.trans h'.toPlaced
  linesTo := fun link other => (h'.linesTo link other).trans (h.linesTo link other)

theorem setUmodes (sptr : ClientId) (n : Network) (m : Umodes) :
    Framed sptr n (n.setUmodes sptr m) where
  toPlaced := .setUmodes sptr n m
  linesTo := fun _ _ => rfl

theorem sendLine (sptr : ClientId) (n : Network) (text : CStr) :
    Framed sptr n (n.sendLine sptr text) := by
  refine of_tables rfl fun link other => ?_
  simp [Network.linesTo, Network.sendLine, Server.emit, Ne.symm other]

theorem reply (sptr : ClientId) (n : Network) (num : Numeric) (args : List CStr) :
    Framed sptr n (n.reply sptr num args) := by
  refine of_tables rfl fun link _ => ?_
  simp [Network.linesTo, Network.reply, Server.emit]

theorem opsButone (sptr : ClientId) (n : Network) (text : CStr) :
    Framed sptr n { n with toServer := n.toServer.emit (.opsButone text) } := by
  refine of_tables rfl fun link _ => ?_
  simp [Network.linesTo, Server.emit]

theorem deoper (sptr : ClientId) (n : Network) : Framed sptr n (n.deoper sptr) := by
  unfold Network.deoper
  have cleared := setUmodes sptr n ((n.peer sptr).umodes.without operOnlyUmodes)
  generalize n.setUmodes sptr _ = m at cleared ⊢
  dsimp only
  split
  · exact cleared.trans (of_tables rfl fun _ _ => rfl)
  · exact cleared.trans (of_tables rfl fun _ _ => rfl)

theorem grantOper (sptr : ClientId) (n : Network) (m : Umodes) (count : Counter) :
    Framed sptr n ((n.setCount count).setUmodes sptr m) :=
  (of_tables rfl fun _ _ => rfl : Framed sptr n (n.setCount count)).trans (setUmodes sptr _ m)

theorem umodeLetter (cptr : ClientId) (st : UmodeLoop) (letter : Char) :
    Framed sptr st.net (Network.umodeLetter cptr sptr st letter).net := by
  unfold Network.umodeLetter
  dsimp only
  split
  · exact refl sptr _
  · exact refl sptr _
  · split
    · split
      · exact grantOper sptr _ _ _
      · exact refl sptr _
    · split
      · exact deoper sptr _
      · exact refl sptr _
  · split
    · split
      · exact grantOper sptr _ _ _
      · exact refl sptr _
    · split
      · exact deoper sptr _
      · exact refl sptr _
  · exact refl sptr _
  · exact refl sptr _
  · exact refl sptr _
  · exact refl sptr _
  · split
    · exact setUmodes sptr _ _
    · split
      · exact refl sptr _
      · exact refl sptr _

theorem letters (cptr : ClientId) (text : CStr) (st : UmodeLoop) :
    Framed sptr st.net (text.foldl (Network.umodeLetter cptr sptr) st).net := by
  induction text generalizing st with
  | nil => exact refl sptr _
  | cons letter text ih => exact (umodeLetter cptr st letter).trans (ih _)

theorem readUmodes (n : Network) (cptr sptr : ClientId) (modes : List CStr) :
    Framed sptr n (n.readUmodes cptr sptr modes) := by
  unfold Network.readUmodes
  dsimp only
  have read : Framed sptr n (modes.flatten.foldl (Network.umodeLetter cptr sptr)
      { net := n, add := true, badflag := false }).net :=
    letters cptr modes.flatten { net := n, add := true, badflag := false }
  split
  · exact read.trans (reply sptr _ _ _)
  · exact read

theorem repair (sptr : ClientId) (n : Network) (r : Repair) :
    Framed sptr n (Network.repair sptr n r) := by
  unfold Network.repair
  dsimp only
  split
  · exact (sendLine sptr n _).trans (setUmodes sptr _ _)
  · exact refl sptr n

theorem repaired (rs : List Repair) (n : Network) :
    Framed sptr n (rs.foldl (Network.repair sptr) n) := by
  induction rs generalizing n with
  | nil => exact refl sptr n
  | cons r rs ih => exact (repair sptr n r).trans (ih _)

theorem countInvisible (sptr : ClientId) (n : Network) (old new : Umodes) :
    Framed sptr n (n.countInvisible old new) := by
  unfold Network.countInvisible
  split
  · exact of_tables rfl fun _ _ => rfl
  · split <;> exact of_tables rfl fun _ _ => rfl

end Framed

theorem umodeLetter_reads {cptr sptr : ClientId} (st : UmodeLoop) (letter : Char) :
    (((umodeLetter cptr sptr st letter).net.peer sptr).umodes,
      (umodeLetter cptr sptr st letter).add) =
      readLetter (st.net.client cptr).isServer ((st.net.peer sptr).umodes, st.add) letter := by
  have operLetter : ∀ st' : UmodeLoop, (if st.add then
      if (st.net.client cptr).isServer && !(st.net.peer sptr).umodes .oper then
        { st with
          net := (st.net.setCount { st.net.count with oper := st.net.count.oper + 1 }).setUmodes
            sptr ((st.net.peer sptr).umodes.write .oper true) }
      else st
    else if (st.net.peer sptr).umodes.isAnOper then { st with net := st.net.deoper sptr }
    else st) = st' → ((st'.net.peer sptr).umodes, st'.add) =
      if st.add then
        if (st.net.client cptr).isServer && !(st.net.peer sptr).umodes .oper then
          ((st.net.peer sptr).umodes.write .oper true, true)
        else ((st.net.peer sptr).umodes, st.add)
      else if (st.net.peer sptr).umodes.isAnOper then
        ((st.net.peer sptr).umodes.without operOnlyUmodes, false)
      else ((st.net.peer sptr).umodes, st.add) := by
    rintro st' rfl
    cases add : st.add with
    | true =>
      simp only [if_true]
      split
      · rw [setUmodes_umodes]
      · simp [add]
    | false =>
      simp only [Bool.false_eq_true, if_false]
      split
      · rw [deoper_umodes]
      · simp [add]
  unfold umodeLetter
  dsimp only
  split
  · rfl
  · rfl
  · exact operLetter _ rfl
  · exact operLetter _ rfl
  · rfl
  · rfl
  · rfl
  · rfl
  · rename_i plus minus big small blank feed return_ tab
    rw [readLetter_other plus minus big small blank feed return_ tab]
    cases umodeOfLetter letter with
    | some flag => simp only [setUmodes_umodes]
    | none => dsimp only; split <;> rfl

theorem letters_read {cptr sptr : ClientId} (text : CStr) (st : UmodeLoop) :
    (((text.foldl (umodeLetter cptr sptr) st).net.peer sptr).umodes,
      (text.foldl (umodeLetter cptr sptr) st).add) =
      text.foldl (readLetter (st.net.client cptr).isServer)
        ((st.net.peer sptr).umodes, st.add) := by
  induction text generalizing st with
  | nil => rfl
  | cons letter text ih =>
    have still : ((umodeLetter cptr sptr st letter).net.client cptr).isServer =
        (st.net.client cptr).isServer := by
      rw [Client.isServer, (Framed.umodeLetter cptr st letter).status]
      rfl
    rw [List.foldl_cons, List.foldl_cons, ih, still, umodeLetter_reads]

theorem readUmodes_read (n : Network) (cptr sptr : ClientId) (modes : List CStr) :
    ((n.readUmodes cptr sptr modes).peer sptr).umodes =
      (modes.flatten.foldl (readLetter (n.client cptr).isServer)
        ((n.peer sptr).umodes, true)).1 := by
  have read := @letters_read cptr sptr modes.flatten
    { net := n, add := true, badflag := false }
  unfold readUmodes
  dsimp only
  rw [← congrArg Prod.fst read]
  split <;> rfl

theorem repaired_relayed (u : ClientId) (rs : List Repair) (n : Network)
    (untold : ∀ r ∈ rs, sendUmodes r.flag = false) :
    SameRelayed ((rs.foldl (repair u) n).peer u).umodes (n.peer u).umodes := by
  induction rs generalizing n with
  | nil => exact fun _ _ => rfl
  | cons r rs ih =>
    refine (ih _ fun q inside => untold q (List.mem_cons_of_mem r inside)).trans fun flag told => ?_
    have other : flag ≠ r.flag := by
      rintro rfl
      rw [untold r List.mem_cons_self] at told
      cases told
    unfold repair
    dsimp only
    split
    · rw [setUmodes_umodes, Umodes.write, Function.update_of_ne other]
    · rfl

theorem repaired_locop (u : ClientId) (rs : List Repair) (n : Network)
    (set : ((rs.foldl (repair u) n).peer u).umodes .locop = true) :
    (n.peer u).umodes .locop = true := repaired_umodes u .locop rs n set

theorem changeUmodes_read (n : Network) (cptr sptr : ClientId) (modes : List CStr) :
    SameRelayed ((n.changeUmodes cptr sptr modes).peer sptr).umodes
      (modes.flatten.foldl (readLetter (n.client cptr).isServer)
        ((n.peer sptr).umodes, true)).1 := by
  rw [(changeUmodes_same n cptr sptr modes).peer, ← readUmodes_read]
  exact repaired_relayed sptr repairs _ (by decide)

theorem readLetter_locop {server : Bool} {st : Umodes × Bool} {letter : Char}
    (set : (readLetter server st letter).1 .locop = true) : st.1 .locop = true := by
  have operLetter : (if st.2 then
      if server && !st.1 .oper then (st.1.write .oper true, true) else st
    else if st.1.isAnOper then (st.1.without operOnlyUmodes, false)
    else st).1 .locop = true → st.1 .locop = true := by
    intro set
    split at set
    · split at set
      · simpa [Umodes.write] using set
      · exact set
    · split at set
      · simp [Umodes.without, operOnlyUmodes, Umodes.ofList] at set
      · exact set
  unfold readLetter at set
  split at set
  · exact set
  · exact set
  · exact operLetter set
  · exact operLetter set
  · exact set
  · exact set
  · exact set
  · exact set
  · rename_i big small _ _ _ _
    split at set
    · next flag known =>
      have plain := umodeOfLetter_plain big small known
      simpa [Umodes.write, plain.2.symm] using set
    · exact set

theorem readLetters_locop {server : Bool} (text : CStr) (st : Umodes × Bool)
    (set : (text.foldl (readLetter server) st).1 .locop = true) : st.1 .locop = true := by
  induction text generalizing st with
  | nil => exact set
  | cons letter text ih => exact readLetter_locop (ih _ set)

theorem changeUmodes_locop (n : Network) (cptr sptr : ClientId) (modes : List CStr)
    (set : ((n.changeUmodes cptr sptr modes).peer sptr).umodes .locop = true) :
    (n.peer sptr).umodes .locop = true := by
  rw [(changeUmodes_same n cptr sptr modes).peer] at set
  have read := repaired_locop sptr repairs _ set
  rw [readUmodes_read] at read
  exact readLetters_locop modes.flatten _ read

theorem linesTo_sendLine (n : Network) (u link : ClientId) (text : CStr) :
    (n.sendLine u text).linesTo link = n.linesTo link ++ if u = link then [text] else [] := by
  simp only [linesTo, sendLine, Server.emit, List.filterMap_append]
  split <;> simp_all

theorem tellUmodes_lines {cptr sptr link : ClientId} (buf : CStr) (links : List ClientId)
    (once : links.Nodup) (n : Network) (other : link ≠ cptr ∧ link ≠ sptr) :
    (links.foldl (tellUmodes cptr sptr buf) n).linesTo link =
      n.linesTo link ++ if link ∈ links ∧ buf ≠ [] then [n.umodeLine sptr buf] else [] := by
  induction links generalizing n with
  | nil => simp
  | cons acptr links ih =>
    obtain ⟨fresh, once⟩ := List.nodup_cons.1 once
    have told : (tellUmodes cptr sptr buf n acptr).linesTo link = n.linesTo link ++
        if acptr = link ∧ buf ≠ [] then [n.umodeLine sptr buf] else [] := by
      unfold tellUmodes
      split
      · next sent =>
        rw [linesTo_sendLine]
        simp [sent.2.2]
      · next silent =>
        rw [if_neg, List.append_nil]
        rintro ⟨rfl, some⟩
        exact silent ⟨other.1, other.2, some⟩
    have line : (tellUmodes cptr sptr buf n acptr).umodeLine sptr buf = n.umodeLine sptr buf := by
      unfold tellUmodes
      split <;> rfl
    rw [List.foldl_cons, ih once, told, line, List.append_assoc]
    by_cases this : acptr = link
    · subst this
      simp [fresh]
    · simp [this, Ne.symm this]

structure Leads (n : Network) (cptr sptr via : ClientId) : Prop where
  link : via ∈ n.servCptrList
  once : n.servCptrList.Nodup
  other : via ≠ cptr ∧ via ≠ sptr

/-- The text before the modes in a line of `send_umode_out`. -/
def modeHeader (name : CStr) : CStr := ':' :: name ++ lit " MODE " ++ name ++ lit " :"

theorem umodeLine_eq (n : Network) (sptr : ClientId) (buf : CStr) :
    n.umodeLine sptr buf = modeHeader (n.nameOf sptr) ++ buf := rfl

theorem changeUmodes_lines {n : Network} {cptr sptr via : ClientId} (modes : List CStr)
    (leads : Leads n cptr sptr via) :
    (n.changeUmodes cptr sptr modes).linesTo via =
      n.linesTo via ++
        let buf := umodeBuf (n.client sptr).myClient (n.peer sptr).umodes
          ((n.changeUmodes cptr sptr modes).peer sptr).umodes sendUmodes
        if buf = [] then [] else [modeHeader (n.nameOf sptr) ++ buf] := by
  have peer := (changeUmodes_same n cptr sptr modes).peer
  rw [peer]
  -- only the last step sends to links; those before it keep their lines
  have framed : Framed sptr n (repairs.foldl (repair sptr) (n.readUmodes cptr sptr modes)) :=
    (Framed.readUmodes n cptr sptr modes).trans (.repaired repairs _)
  unfold changeUmodes
  dsimp only
  generalize repairs.foldl (repair sptr) (n.readUmodes cptr sptr modes) = k at framed ⊢
  have counted : Framed sptr n (k.countInvisible (n.peer sptr).umodes (k.peer sptr).umodes) :=
    framed.trans (.countInvisible sptr k _ _)
  have same := (countInvisible_same k (n.peer sptr).umodes (k.peer sptr).umodes).peer
  generalize k.countInvisible (n.peer sptr).umodes (k.peer sptr).umodes = m at counted same ⊢
  have mine := counted.myClient sptr
  unfold sendUmodeOut
  dsimp only
  rw [mine, same, counted.servCptrList]
  have told := tellUmodes_lines (umodeBuf (n.client sptr).myClient (n.peer sptr).umodes
    (k.peer sptr).umodes sendUmodes) n.servCptrList leads.once m leads.other
  rw [counted.linesTo via leads.other.2, umodeLine_eq, counted.name] at told
  generalize n.servCptrList.foldl (tellUmodes cptr sptr _) m = m' at told ⊢
  have own : (if (m'.client cptr).myClient = true ∧ umodeBuf (n.client sptr).myClient
      (n.peer sptr).umodes (k.peer sptr).umodes allUmodes ≠ [] then
        m'.sendLine cptr (m'.umodeLine sptr (umodeBuf (n.client sptr).myClient
          (n.peer sptr).umodes (k.peer sptr).umodes allUmodes)) else m').linesTo via =
      m'.linesTo via := by
    split
    · rw [linesTo_sendLine, if_neg leads.other.1.symm, List.append_nil]
    · rfl
  rw [own, told]
  by_cases none : umodeBuf (n.client sptr).myClient (n.peer sptr).umodes
      (k.peer sptr).umodes sendUmodes = []
  · simp [none]
  · simp [none, leads.link]

/-- The lines that a link is sent while the server goes from `n` to `n'`. -/
def newLines (n n' : Network) (link : ClientId) : List CStr :=
  (n'.linesTo link).drop (n.linesTo link).length

/-- The modes in a MODE line of the user `name` about itself: `parv[2]`. -/
def modeParam (name line : CStr) : Option CStr :=
  if modeHeader name <+: line then some (line.drop (modeHeader name).length) else none

theorem modeParam_line (name buf : CStr) : modeParam name (modeHeader name ++ buf) = some buf := by
  rw [modeParam, if_pos (List.prefix_append _ _), List.drop_left]

/-- A server that has a copy of the user: `via` is the link to it on the server before,
`cptr` the link back. -/
structure Copy where
  net : Network
  via : ClientId
  cptr : ClientId
  sptr : ClientId

/-- The lines arrive, and `m_mode` hands them to `user_mode`. -/
def Copy.receive (c : Copy) (name : CStr) (lines : List CStr) : Copy :=
  { c with
    net := lines.foldl (fun n line =>
      match modeParam name line with
      | some buf => n.userMode c.cptr c.sptr [name, buf]
      | none => n) c.net }

/-- What a server sent while it went from `n` to `n'` goes down the path. -/
def relay (name : CStr) : Network → Network → List Copy → List Copy
  | _, _, [] => []
  | n, n', c :: cs =>
    let c' := c.receive name (newLines n n' c.via)
    c' :: relay name c.net c'.net cs

structure Announced (n n' : Network) (cptr sptr : ClientId) (buf : CStr) : Prop where
  lines : ∀ via, Leads n cptr sptr via → newLines n n' via =
    if buf = [] then [] else [modeHeader (n.nameOf sptr) ++ buf]
  step : ∀ m, SameRelayed m (n.peer sptr).umodes →
    SameRelayed (buf.foldl (readLetter true) (m, true)).1 (n'.peer sptr).umodes

theorem Announced.refl (n : Network) (cptr sptr : ClientId) : Announced n n cptr sptr [] where
  lines := fun _ _ => List.drop_length
  step := fun _ same => same

theorem Framed.announced {n n' : Network} {cptr sptr : ClientId} (h : Framed sptr n n')
    (peer : n'.peer = n.peer) : Announced n n' cptr sptr [] where
  lines := fun via leads => by
    rw [newLines, h.linesTo via leads.other.2]
    exact List.drop_length
  step := fun _ same => by
    rw [peer]
    exact same

theorem announced_userMode {n : Network} {cptr sptr : ClientId} (args : List CStr)
    (quiet : (n.client sptr).myClient = true ∨ (n.peer sptr).umodes .locop = false) :
    ∃ buf, Announced n (n.userMode cptr sptr args) cptr sptr buf := by
  have replied : ∀ num texts, ∃ buf, Announced n (n.reply sptr num texts) cptr sptr buf :=
    fun num texts => ⟨[], (Framed.reply sptr n num texts).announced rfl⟩
  have changed : ∀ modes, ∃ buf, Announced n (n.changeUmodes cptr sptr modes) cptr sptr buf := by
    intro modes
    refine ⟨umodeBuf (n.client sptr).myClient (n.peer sptr).umodes
      ((n.changeUmodes cptr sptr modes).peer sptr).umodes sendUmodes, ?_, ?_⟩
    · intro via leads
      rw [newLines, changeUmodes_lines modes leads, List.drop_left]
    · intro m same
      apply read_umodeBuf ?_ same
      rcases quiet with mine | none
      · exact .inl mine
      · right
        cases set : ((n.changeUmodes cptr sptr modes).peer sptr).umodes .locop with
        | false => exact none
        | true => exact changeUmodes_locop n cptr sptr modes set
  unfold userMode
  split
  · exact replied _ _
  · split
    · split
      · exact replied _ _
      · exact ⟨[], .refl n cptr sptr⟩
    · split
      · split
        · exact ⟨[], (Framed.opsButone sptr n _).announced rfl⟩
        · exact replied _ _
      · split
        · exact replied _ _
        · exact changed _

theorem tellUmodes_tables (cptr sptr : ClientId) (buf : CStr) (links : List ClientId)
    (n : Network) : (links.foldl (tellUmodes cptr sptr buf) n).toTables = n.toTables := by
  induction links generalizing n with
  | nil => rfl
  | cons acptr links ih =>
    have told : (tellUmodes cptr sptr buf n acptr).toTables = n.toTables := by
      unfold tellUmodes
      split <;> rfl
    exact (ih _).trans told

theorem sendUmodeOut_tables (n : Network) (cptr sptr : ClientId) (old : Umodes) :
    (n.sendUmodeOut cptr sptr old).toTables = n.toTables := by
  unfold sendUmodeOut
  dsimp only
  have told := tellUmodes_tables cptr sptr
    (umodeBuf (n.client sptr).myClient old (n.peer sptr).umodes sendUmodes) n.servCptrList n
  generalize List.foldl _ n n.servCptrList = m at told ⊢
  split
  · exact told
  · exact told

theorem userMode_placed (n : Network) {cptr sptr : ClientId} (args : List CStr) :
    Placed n (n.userMode cptr sptr args) := by
  have changed : ∀ modes, Placed n (n.changeUmodes cptr sptr modes) := by
    intro modes
    have repaired := (Framed.readUmodes n cptr sptr modes).trans (.repaired repairs _)
    have counted := repaired.trans (.countInvisible sptr _ (n.peer sptr).umodes
      ((repairs.foldl (repair sptr) (n.readUmodes cptr sptr modes)).peer sptr).umodes)
    exact counted.toPlaced.trans (.of_tables (sendUmodeOut_tables _ cptr sptr _))
  have replied : ∀ num texts, Placed n (n.reply sptr num texts) :=
    fun num texts => (Framed.reply sptr n num texts).toPlaced
  unfold userMode
  split
  · exact replied _ _
  · split
    · split
      · exact replied _ _
      · exact .of_tables rfl
    · split
      · split
        · exact .of_tables rfl
        · exact replied _ _
      · split
        · exact replied _ _
        · exact changed _

theorem userMode_locop (n : Network) {cptr sptr : ClientId} (args : List CStr)
    (set : ((n.userMode cptr sptr args).peer sptr).umodes .locop = true) :
    (n.peer sptr).umodes .locop = true := by
  unfold userMode at set
  split at set
  · exact set
  · split at set
    · split at set
      · exact set
      · exact set
    · split at set
      · split at set
        · exact set
        · exact set
      · split at set
        · exact set
        · exact changeUmodes_locop n cptr sptr _ set

structure Hosts (c : Copy) (name : CStr) : Prop where
  server : (c.net.client c.cptr).isServer = true
  person : c.net.findPerson name = some c.sptr
  name : c.net.nameOf c.sptr = name
  noLocop : (c.net.peer c.sptr).umodes .locop = false

/-- Along the path every server leads to the next, and all know the user with the same
told flags. -/
def OnPath (name : CStr) : Network → ClientId → ClientId → List Copy → Prop
  | _, _, _, [] => True
  | n, cptr, sptr, c :: cs =>
    Leads n cptr sptr c.via ∧ Hosts c name ∧
      SameRelayed (c.net.peer c.sptr).umodes (n.peer sptr).umodes ∧
      OnPath name c.net c.cptr c.sptr cs

theorem Placed.leads {n n' : Network} {cptr sptr via : ClientId} (h : Placed n n')
    (leads : Leads n cptr sptr via) : Leads n' cptr sptr via where
  link := by
    rw [h.servCptrList]
    exact leads.link
  once := by
    rw [h.servCptrList]
    exact leads.once
  other := leads.other

theorem userMode_remote {n : Network} {cptr sptr : ClientId} {name : CStr} (buf : CStr)
    (person : n.findPerson name = some sptr) :
    n.userMode cptr sptr [name, buf] = n.changeUmodes cptr sptr [buf] := by
  have isPerson := (Option.filter_eq_some_iff.1 person).2
  have notServer : (n.client sptr).isServer = false := by
    simp only [Client.isPerson, Client.isClient, Bool.and_eq_true, beq_iff_eq] at isPerson
    simp [Client.isServer, isPerson.1]
  simp [userMode, person, notServer]

theorem Hosts.userMode {c : Copy} {name : CStr} (hosts : Hosts c name) (args : List CStr) :
    Hosts { c with net := c.net.userMode c.cptr c.sptr args } name := by
  have placed : Placed c.net (c.net.userMode c.cptr c.sptr args) := userMode_placed c.net args
  constructor
  · rw [Client.isServer, placed.status]
    exact hosts.server
  · rw [placed.findPerson]
    exact hosts.person
  · rw [placed.name]
    exact hosts.name
  · cases set : ((c.net.userMode c.cptr c.sptr args).peer c.sptr).umodes .locop with
    | false => rfl
    | true => exact (userMode_locop c.net args set).symm.trans hosts.noLocop

structure TookOver (c c' : Copy) (buf : CStr) : Prop where
  via : c'.via = c.via
  cptr : c'.cptr = c.cptr
  sptr : c'.sptr = c.sptr
  placed : Placed c.net c'.net
  told : ∃ text, Announced c.net c'.net c.cptr c.sptr text
  flags : SameRelayed (c'.net.peer c.sptr).umodes
    (buf.foldl (readLetter true) ((c.net.peer c.sptr).umodes, true)).1

theorem receive_takesOver {c : Copy} {name : CStr} (hosts : Hosts c name) (buf : CStr) :
    let c' := c.receive name (if buf = [] then [] else [modeHeader name ++ buf])
    Hosts c' name ∧ TookOver c c' buf := by
  intro c'
  by_cases none : buf = []
  · have still : c' = c := by
      simp [c', none, Copy.receive]
    rw [still, none]
    exact ⟨hosts, rfl, rfl, rfl, .of_tables rfl, ⟨[], .refl c.net c.cptr c.sptr⟩, fun _ _ => rfl⟩
  · have taken : c' = { c with net := c.net.userMode c.cptr c.sptr [name, buf] } := by
      simp [c', none, Copy.receive, modeParam_line]
    have flags := changeUmodes_read c.net c.cptr c.sptr [buf]
    rw [hosts.server, List.flatten_singleton, ← userMode_remote buf hosts.person] at flags
    rw [taken]
    exact ⟨hosts.userMode [name, buf], rfl, rfl, rfl, userMode_placed c.net [name, buf],
      announced_userMode [name, buf] (.inr hosts.noLocop), flags⟩

theorem relay_onPath {name : CStr} (path : List Copy) {n n' : Network} {cptr sptr : ClientId}
    (placed : Placed n n') (named : n.nameOf sptr = name)
    (told : ∃ buf, Announced n n' cptr sptr buf) (onPath : OnPath name n cptr sptr path) :
    OnPath name n' cptr sptr (relay name n n' path) := by
  induction path generalizing n n' cptr sptr with
  | nil => trivial
  | cons c path ih =>
    obtain ⟨leads, hosts, same, rest⟩ := onPath
    obtain ⟨buf, announced⟩ := told
    have lines := announced.lines c.via leads
    rw [named] at lines
    obtain ⟨hosts', took⟩ := receive_takesOver hosts buf
    rw [← lines] at hosts' took
    unfold relay
    dsimp only
    generalize c.receive name (newLines n n' c.via) = c' at hosts' took ⊢
    refine ⟨?_, hosts', ?_, ?_⟩
    · rw [took.via]
      exact placed.leads leads
    · rw [took.sptr]
      exact took.flags.trans (announced.step _ same)
    · rw [took.cptr, took.sptr]
      exact ih took.placed hosts.name took.told rest

/-- The server of a local user and the servers behind it on the way to one that has a copy. -/
structure UmodeWorld where
  home : Network
  user : ClientId
  path : List Copy

def UmodeWorld.command (w : UmodeWorld) (args : List CStr) : UmodeWorld :=
  let home := w.home.userMode w.user w.user args
  { w with home, path := relay (w.home.nameOf w.user) w.home home w.path }

def UmodeWorld.run (w : UmodeWorld) (cmds : List (List CStr)) : UmodeWorld :=
  cmds.foldl UmodeWorld.command w

structure UmodeWorld.InStep (w : UmodeWorld) : Prop where
  mine : (w.home.client w.user).myClient = true
  onPath : OnPath (w.home.nameOf w.user) w.home w.user w.user w.path

theorem UmodeWorld.InStep.command {w : UmodeWorld} (h : w.InStep) (args : List CStr) :
    (w.command args).InStep := by
  have placed : Placed w.home (w.home.userMode w.user w.user args) := userMode_placed w.home args
  constructor
  · exact (placed.myClient w.user).trans h.mine
  · have named : (w.command args).home.nameOf (w.command args).user = w.home.nameOf w.user :=
      placed.name w.user
    rw [named]
    exact relay_onPath w.path placed rfl (announced_userMode args (.inl h.mine)) h.onPath

theorem UmodeWorld.InStep.run {w : UmodeWorld} (h : w.InStep) (cmds : List (List CStr)) :
    (w.run cmds).InStep := by
  induction cmds generalizing w with
  | nil => exact h
  | cons args cmds ih => exact ih (h.command args)

theorem OnPath.same {name : CStr} {path : List Copy} {n : Network} {cptr sptr : ClientId}
    (h : OnPath name n cptr sptr path) {c : Copy} (inside : c ∈ path) :
    SameRelayed (c.net.peer c.sptr).umodes (n.peer sptr).umodes := by
  induction path generalizing n cptr sptr with
  | nil => cases inside
  | cons next path ih =>
    obtain ⟨-, -, same, rest⟩ := h
    rcases List.mem_cons.1 inside with rfl | inside
    · exact same
    · exact (ih rest inside).trans same

/-- What a pair of flag words is encoded as makes a copy with the first into one with the
second; and the copies of a local user follow it along every run of its commands. -/
theorem umodeRelay_exact :
    (∀ (mine : Bool) (old new : Umodes), (∀ flag, old flag ≠ new flag → sendUmodes flag = true) →
      ∀ (n : Network) (cptr v : ClientId) (nick : CStr), (n.client cptr).isServer = true →
        n.findPerson nick = some v → SameRelayed (n.peer v).umodes old →
        SameRelayed
          ((n.userMode cptr v [nick, umodeBuf mine old new sendUmodes]).peer v).umodes new) ∧
    (∀ w : UmodeWorld, w.InStep → ∀ (cmds : List (List CStr)), ∀ c ∈ (w.run cmds).path,
      SameRelayed (c.net.peer c.sptr).umodes ((w.run cmds).home.peer w.user).umodes) := by
  constructor
  · intro mine old new relayed n cptr v nick server person same
    have noLocop : NoLocop mine old new := by
      right
      by_contra differ
      cases relayed _ differ
    have flags := changeUmodes_read n cptr v [umodeBuf mine old new sendUmodes]
    rw [server, List.flatten_singleton, ← userMode_remote _ person] at flags
    exact flags.trans (read_umodeBuf noLocop same)
  · intro w inStep cmds c inside
    have user : (w.run cmds).user = w.user := by
      induction cmds generalizing w with
      | nil => rfl
      | cons args cmds ih => exact ih (w.command args) (inStep.command args) inside
    have same := (inStep.run cmds).onPath.same inside
    rwa [user] at same

/-- A server with the user `alice` and a link to a further server; `link` says whether she
is known through it. -/
def aliceOn (name : CStr) (behind : Bool) : Network :=
  let n := (startUp name 1000).makeClient none
  let n := n.edit fun t => { (t.addClient 1
    { n.client 1 with name := lit "hub", status := .server }) with servCptrList := [1] }
  let n := n.makeClient (if behind then some 1 else none)
  n.edit (·.addClient 2 { n.client 2 with name := lit "alice", status := .client, user := true })

def twoServers : UmodeWorld where
  home := aliceOn (lit "irc.example.net") false
  user := 2
  path := [{ net := aliceOn (lit "hub") true, via := 1, cptr := 1, sptr := 2 }]

theorem twoServers_inStep : twoServers.InStep where
  mine := by decide +kernel
  onPath :=
    ⟨⟨by decide +kernel, by decide +kernel, by decide +kernel⟩,
      ⟨by decide +kernel, by decide +kernel, by decide +kernel, by decide +kernel⟩,
      fun _ _ => rfl, trivial⟩

theorem umodeRelay_exact_twoServers :
    let cmds := [[lit "alice", lit "+iwx"], [lit "alice", lit "-w+a", lit "q"]]
    let old : Umodes := .ofList [.wallop, .spy]
    let new : Umodes := .ofList [.invisible, .oper, .spy]
    let n := (aliceOn (lit "hub") true).setUmodes 2 (.ofList [.wallop])
    SameRelayed ((n.userMode 1 2 [lit "alice", umodeBuf true old new sendUmodes]).peer 2).umodes
        new ∧
      (∃ c ∈ (twoServers.run cmds).path, (c.net.peer 2).umodes .invisible = true) ∧
      ∀ c ∈ (twoServers.run cmds).path,
        SameRelayed (c.net.peer c.sptr).umodes ((twoServers.run cmds).home.peer 2).umodes := by
  intro cmds old new n
  refine ⟨?_, ?_, ?_⟩
  · apply umodeRelay_exact.1 true old new ?_ n 1 2 (lit "alice") (by decide +kernel)
      (by decide +kernel) ?_
    · intro flag differ
      cases flag <;> first | rfl | exact absurd rfl differ
    · intro flag told
      cases flag <;> first | rfl | cases told
  · refine ⟨_, List.mem_of_getElem? (i := 0) rfl, ?_⟩
    decide +kernel
  · exact umodeRelay_exact.2 twoServers twoServers_inStep cmds

end Network

end Ircd
