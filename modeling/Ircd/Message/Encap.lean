import Ircd.Message.Parse
import Ircd.Net.Packet

/-! `ms_encap`: a command for other servers is put together again from its parameters and
sent on to the links that its mask matches.

The line is built in two steps. `ms_encap` joins the parameters and has them in a line's
length; `vsendto_anywhere` puts the source and the command in front and does not look.
-/

set_option autoImplicit false

namespace Ircd

open CMem

/-- The links of `serv_cptr_list` with their capability and their sockets. -/
structure LinkNet extends Tables where
  /-- `CAP_ENCAP` -/
  capEncap : ClientId → Bool
  /-- `IsDead` -/
  dead : ClientId → Bool
  linked : ∀ u ∈ servCptrList, (client u).isServer = true

def Handed.parv (h : Handed) (i : Nat) : Option CStr :=
  if i = 0 then some h.para0 else (h.para i).map (cAt h.mem)

/-- `encap_acl`: the commands, and whether they are accepted. -/
def encapAcl : List (CStr × Bool) := [(lit "OPERSPY", true)]

def aclAction (cmd : CStr) : Bool :=
  ((encapAcl.find? fun entry => irccmp cmd entry.1 == .eq).map Prod.snd).getD false

/-- A `char buffer[BUFSIZE]`: its text, and how many of its bytes have been written. -/
structure LineBuf where
  text : CStr
  high : Nat

def LineBuf.empty : LineBuf := { text := [], high := 0 }

/-- `ircsprintf` behind the text, with the terminator. -/
def LineBuf.print (b : LineBuf) (s : CStr) : LineBuf :=
  { text := b.text ++ s, high := max b.high (b.text.length + s.length + 1) }

/-- How `ms_encap` ends. -/
inductive EncapEnd where
  | notServer
  /-- No room for a parameter in front of the last. -/
  | full
  /-- `parv[i]` is a NULL and is read. -/
  | null (i : Nat)
  | denied
  | elsewhere
  | unknown
  | handler (mptr : MessageEntry) (parc : Nat) (parv : Nat → Option CStr)

/-- The buffer of `ms_encap`, and those of the calls of `vsendto_anywhere`. -/
structure EncapRun where
  buf : LineBuf
  built : List LineBuf
  stop : EncapEnd

/-- The loop over the parameters in front of the last, with `ptr` at the end of the text. -/
def joinParams (parv : Nat → Option CStr) :
    Nat → Nat → LineBuf → Nat → Except EncapRun (LineBuf × Nat × Nat)
  | 0, i, buf, curLen => .ok (buf, curLen, i)
  | count + 1, i, buf, curLen =>
    match parv i with
    | none => .error { buf := buf, built := [], stop := .null i }
    | some word =>
      let len := word.length + 1
      if bufsize ≤ curLen + len then .error { buf := buf, built := [], stop := .full }
      else joinParams parv count (i + 1) (buf.print (word ++ [' '])) (curLen + len)

namespace LinkNet

/-- Whom `sendto_match_cap_servs_butone` sends to. -/
def takers (n : LinkNet) (one : ClientId) (mask : CStr) : List ClientId :=
  n.servCptrList.filter fun cptr =>
    cptr ≠ one && n.capEncap cptr && matchMask mask (n.nameOf cptr)

/-- `vsendto_anywhere`; `text` is what the pattern gives. -/
def vsendtoAnywhere (n : LinkNet) (from_ : ClientId) (text : CStr) (to_ : ClientId) :
    Option LineBuf :=
  let sendTo := (n.client to_).from_
  if n.dead sendTo then none
  else
    let source := n.client from_
    let buf :=
      if (n.client to_).myClient then
        if source.isServer then LineBuf.empty.print (':' :: source.name ++ [' '])
        else LineBuf.empty.print
          (':' :: source.name ++ '!' :: source.username ++ '@' :: source.host ++ [' '])
      else LineBuf.empty.print (':' :: source.name ++ [' '])
    some (buf.print text)

def acceptEncap (n : LinkNet) (msgTreeRoot : MessageTree) (mask : CStr) (parc : Nat)
    (parv : Nat → Option CStr) : EncapEnd :=
  match parv 2 with
  | none => .null 2
  | some cmd =>
    if aclAction cmd then
      if !matchMask mask n.meName then .elsewhere
      else
        match treeParse msgTreeRoot cmd with
        | none => .unknown
        | some mptr => .handler mptr (parc - 2) fun k => if k = 0 then parv 0 else parv (k + 2)
    else .denied

def msEncap (n : LinkNet) (msgTreeRoot : MessageTree) (cptr sptr : ClientId) (parc : Nat)
    (parv : Nat → Option CStr) : EncapRun :=
  if !(n.client cptr).isServer then { buf := .empty, built := [], stop := .notServer }
  else
    match joinParams parv (parc - 2) 1 .empty 0 with
    | .error run => run
    | .ok (buf, curLen, i) =>
      match parv i with
      | none => { buf := buf, built := [], stop := .null i }
      | some word =>
        let len := word.length
        match if parc = 3 then parv 2 else (parv (parc - 1)).map (':' :: ·) with
        | none => { buf := buf, built := [], stop := .null (parc - 1) }
        | some tail =>
          let buf := buf.print tail
          let buf :=
            if bufsize ≤ curLen + len then { buf with text := buf.text.take (bufsize - 1) }
            else buf
          match parv 1 with
          | none => { buf := buf, built := [], stop := .null 1 }
          | some mask =>
            { buf := buf
              built := (n.takers cptr mask).filterMap
                (n.vsendtoAnywhere sptr (lit "ENCAP " ++ buf.text))
              stop := n.acceptEncap msgTreeRoot mask parc parv }

end LinkNet

structure EncapRun.Safe (run : EncapRun) : Prop where
  present : ∀ i, run.stop ≠ .null i
  joined : run.buf.high ≤ bufsize
  sent : ∀ buf ∈ run.built, buf.high ≤ bufsize

def paramsWidth (params : List CStr) : Nat := (params.map fun p => p.length + 1).sum

@[simp] theorem paramsWidth_nil : paramsWidth [] = 0 := rfl

@[simp] theorem paramsWidth_cons (p : CStr) (params : List CStr) :
    paramsWidth (p :: params) = p.length + 1 + paramsWidth params := rfl

theorem paramsWidth_append (params params' : List CStr) :
    paramsWidth (params ++ params') = paramsWidth params + paramsWidth params' := by
  rw [paramsWidth, List.map_append, List.sum_append]
  rfl

theorem Params.width_le {n : Nat} {text : CStr} {params : List CStr} (h : Params n text params) :
    paramsWidth params ≤ text.length := by
  induction h with
  | nothing n k => exact Nat.zero_le _
  | trailing n k text =>
    simp only [paramsWidth_cons, paramsWidth_nil, List.length_append, List.length_replicate,
      List.length_cons]
    omega
  | last k text first =>
    simp only [paramsWidth_cons, paramsWidth_nil, List.length_append, List.length_replicate,
      List.length_cons]
    omega
  | middle k word plain more ih =>
    simp only [paramsWidth_cons, List.length_append, List.length_replicate]
    omega

theorem Derives.width_lt {allowed : CStr → Nat} {text : CStr} {line : Line}
    (h : Derives allowed text line) : paramsWidth line.params < text.length := by
  cases h with
  | bare k word plain more =>
    have width := more.width_le
    have some_ := List.length_pos_iff.2 word.1
    simp only [List.length_append]
    omega
  | prefixed k j free word more =>
    have width := more.width_le
    have some_ := List.length_pos_iff.2 word.1
    simp only [List.length_append, List.length_cons]
    omega

theorem Handed.Agrees.parv {t : Tables} {cptr : ClientId} {h : Handed} {line : Line}
    (agrees : h.Agrees t cptr line) {k : Nat} (inside : k ≤ line.params.length) :
    h.parv (k + 1) = line.params[k]? := by
  rw [Handed.parv, if_neg (Nat.succ_ne_zero k)]
  rcases Nat.lt_or_eq_of_le inside with inside | last
  · have entry : h.params[k]? = some ((h.para (k + 1)).map (cAt h.mem)) := by
      rw [Handed.params, List.getElem?_map, agrees.count, Nat.add_sub_cancel,
        List.getElem?_range inside]
      rfl
    rw [agrees.params, List.getElem?_map, List.getElem?_eq_getElem inside] at entry
    rw [List.getElem?_eq_getElem inside]
    exact (Option.some.inj entry).symm
  · rw [last, ← agrees.count, agrees.ended, List.getElem?_eq_none (Nat.le_refl _)]
    rfl

theorem length_cString_le (line stale : CStr) :
    (cString (line ++ '\x00' :: stale)).length ≤ line.length := by
  induction line with
  | nil => exact Nat.le_refl 0
  | cons c line ih =>
    rw [List.cons_append, cString, List.takeWhile_cons]
    split
    · exact Nat.succ_le_succ ih
    · exact Nat.zero_le _

theorem LineBuf.print_high (b : LineBuf) (s : CStr) (tight : b.high ≤ b.text.length + 1) :
    (b.print s).high = (b.print s).text.length + 1 := by
  simp only [LineBuf.print, List.length_append]
  omega

def joinedText (words : List CStr) : CStr := words.flatMap (· ++ [' '])

theorem length_joinedText (words : List CStr) :
    (joinedText words).length = paramsWidth words := by
  induction words with
  | nil => rfl
  | cons word words ih =>
    rw [joinedText, List.flatMap_cons, List.length_append, paramsWidth_cons, ← ih,
      List.length_append]
    rfl

theorem joinParams_ok {parv : Nat → Option CStr} (words : List CStr) (i : Nat) (buf : LineBuf)
    (agree : ∀ k, k < words.length → parv (i + k) = words[k]?)
    (tight : buf.high ≤ buf.text.length + 1)
    (room : buf.text.length + paramsWidth words < bufsize) :
    ∃ buf', joinParams parv words.length i buf buf.text.length =
        .ok (buf', buf'.text.length, i + words.length) ∧
      buf'.text = buf.text ++ joinedText words ∧ buf'.high ≤ buf'.text.length + 1 := by
  induction words generalizing i buf with
  | nil => exact ⟨buf, rfl, (List.append_nil _).symm, tight⟩
  | cons word words ih =>
    rw [paramsWidth_cons] at room
    have first : parv i = some word := agree 0 (Nat.succ_pos _)
    have printed : (buf.print (word ++ [' '])).text.length =
        buf.text.length + (word.length + 1) := by simp [LineBuf.print]
    obtain ⟨buf', joined, text, tight'⟩ := ih (i + 1) (buf.print (word ++ [' ']))
      (fun k inside => by
        have next := agree (k + 1) (Nat.succ_lt_succ inside)
        rw [← Nat.add_assoc, Nat.add_right_comm] at next
        exact next)
      (Nat.le_of_eq (buf.print_high _ tight)) (by omega)
    refine ⟨buf', ?_, ?_, tight'⟩
    · rw [List.length_cons, joinParams, first]
      dsimp only
      rw [if_neg (by omega), ← printed, joined, Nat.add_assoc, Nat.add_comm 1]
    · have more : joinedText (word :: words) = (word ++ [' ']) ++ joinedText words :=
        List.flatMap_cons
      rw [text, more, ← List.append_assoc]
      rfl

namespace LinkNet

variable (n : LinkNet) (msgTreeRoot : MessageTree) {cptr sptr : ClientId}

/-- The width of the line that goes out, without the source: a colon is put in front of the
last parameter unless there are two. -/
def encapWidth (params : List CStr) : Nat :=
  paramsWidth params + if params.length = 2 then 0 else 1

def encapText (params : List CStr) : CStr :=
  joinedText params.dropLast ++
    ((if params.length = 2 then [] else [':']) ++ params.getLast?.getD [])

theorem length_encapText {params : List CStr} (some_ : params ≠ []) :
    (encapText params).length + 1 = encapWidth params := by
  obtain ⟨init, last, rfl⟩ : ∃ init last, params = init ++ [last] :=
    ⟨params.dropLast, params.getLast some_, (List.dropLast_append_getLast some_).symm⟩
  rw [encapText, encapWidth, paramsWidth_append, List.length_append, List.length_append,
    length_joinedText, List.dropLast_concat, List.getLast?_concat]
  simp only [paramsWidth_cons, paramsWidth_nil, Option.getD_some]
  split
  · simp only [List.length_nil]
    omega
  · simp only [List.length_singleton]
    omega

variable (sptr) in
theorem vsendtoAnywhere_high (text : CStr) {to_ : ClientId} (inside : to_ ∈ n.servCptrList) :
    n.vsendtoAnywhere sptr text to_ = none ∧ n.dead (n.client to_).from_ = true ∨
    n.dead (n.client to_).from_ = false ∧ ∃ buf, n.vsendtoAnywhere sptr text to_ = some buf ∧
      buf.text = ':' :: n.nameOf sptr ++ ' ' :: text ∧
      buf.high = (n.nameOf sptr).length + 2 + text.length + 1 := by
  have notMine : (n.client to_).myClient = false := by
    have isServer := n.linked to_ inside
    rw [Client.isServer, beq_iff_eq] at isServer
    rw [Client.myClient, Client.isClient, isServer]
    simp
  unfold vsendtoAnywhere
  dsimp only
  cases n.dead (n.client to_).from_ with
  | true => exact .inl ⟨rfl, rfl⟩
  | false =>
    rw [notMine]
    refine .inr ⟨rfl, _, rfl, by simp [LineBuf.print, LineBuf.empty, Tables.nameOf], ?_⟩
    have head := LineBuf.empty.print_high (':' :: (n.client sptr).name ++ [' ']) (Nat.zero_le _)
    have whole := (LineBuf.empty.print (':' :: (n.client sptr).name ++ [' '])).print_high text
      (Nat.le_of_eq head)
    simp only [Bool.false_eq_true, if_false]
    rw [whole]
    simp only [LineBuf.print, LineBuf.empty, Tables.nameOf, List.length_append, List.length_cons,
      List.length_nil, List.nil_append]

theorem acceptEncap_present (mask cmd : CStr) (parc : Nat) {parv : Nat → Option CStr}
    (given : parv 2 = some cmd) (i : Nat) :
    n.acceptEncap msgTreeRoot mask parc parv ≠ .null i := by
  unfold acceptEncap
  rw [given]
  dsimp only
  split
  · split
    · nofun
    · split
      · nofun
      · nofun
  · nofun

variable {parv : Nat → Option CStr}

theorem msEncap_none (link : (n.client cptr).isServer = true) (ended : parv 1 = none) :
    (n.msEncap msgTreeRoot cptr sptr 1 parv).stop = .null 1 := by
  have joined : joinParams parv (1 - 2) 1 .empty 0 = .ok (.empty, 0, 1) := rfl
  rw [msEncap, link]
  simp only [Bool.not_true, Bool.false_eq_true, if_false, joined, ended]

theorem msEncap_one (link : (n.client cptr).isServer = true) {mask : CStr}
    (first : parv 1 = some mask) (ended : parv 2 = none) :
    (n.msEncap msgTreeRoot cptr sptr 2 parv).stop = .null 2 := by
  have joined : joinParams parv (2 - 2) 1 .empty 0 = .ok (.empty, 0, 1) := rfl
  have tail : (if 2 = 3 then parv 2 else (parv (2 - 1)).map (':' :: ·)) = some (':' :: mask) := by
    rw [if_neg (by decide), first]
    rfl
  have missing : n.acceptEncap msgTreeRoot mask 2 parv = .null 2 := by
    rw [acceptEncap, ended]
  rw [msEncap, link]
  simp only [Bool.not_true, Bool.false_eq_true, if_false, joined, tail]
  simp only [first, missing]

variable (sptr) in
theorem msEncap_more (link : (n.client cptr).isServer = true) {params : List CStr}
    (agree : ∀ k, k ≤ params.length → parv (k + 1) = params[k]?) (two : 2 ≤ params.length)
    (room : encapWidth params < bufsize) :
    ∃ mask cmd, params[0]? = some mask ∧ parv 2 = some cmd ∧
      (n.msEncap msgTreeRoot cptr sptr (params.length + 1) parv).buf.high = encapWidth params ∧
      (n.msEncap msgTreeRoot cptr sptr (params.length + 1) parv).built =
        (n.takers cptr mask).filterMap
          (n.vsendtoAnywhere sptr (lit "ENCAP " ++ encapText params)) ∧
      (n.msEncap msgTreeRoot cptr sptr (params.length + 1) parv).stop =
        n.acceptEncap msgTreeRoot mask (params.length + 1) parv := by
  have some_ : params ≠ [] := by
    rintro rfl
    cases two
  have whole := length_encapText some_
  obtain ⟨init, last, rfl⟩ : ∃ init last, params = init ++ [last] :=
    ⟨params.dropLast, params.getLast some_, (List.dropLast_append_getLast some_).symm⟩
  have width : paramsWidth (init ++ [last]) = paramsWidth init + (last.length + 1) := by
    rw [paramsWidth_append]
    rfl
  have size : (init ++ [last]).length = init.length + 1 := by simp
  rw [encapWidth, width] at room
  have front : ∀ k, k < init.length → parv (1 + k) = init[k]? := by
    intro k inside
    rw [Nat.add_comm, agree k (by omega), List.getElem?_append_left inside]
  obtain ⟨buf, joined, text, tight⟩ := joinParams_ok init 1 .empty front (Nat.zero_le _)
    (by show 0 + _ < _; omega)
  have joined : joinParams parv ((init ++ [last]).length + 1 - 2) 1 .empty 0 =
      .ok (buf, buf.text.length, 1 + init.length) := by
    rw [size]
    exact joined
  have text : buf.text = joinedText init := text
  have length : buf.text.length = paramsWidth init := by rw [text, length_joinedText]
  have final : parv (1 + init.length) = some last := by
    rw [Nat.add_comm, agree _ (by omega)]
    simp
  obtain ⟨mask, first⟩ : ∃ mask, (init ++ [last])[0]? = some mask :=
    ⟨_, List.getElem?_eq_getElem (by omega)⟩
  have atOne : parv 1 = some mask := (agree 0 (Nat.zero_le _)).trans first
  obtain ⟨cmd, second⟩ : ∃ cmd, (init ++ [last])[1]? = some cmd :=
    ⟨_, List.getElem?_eq_getElem (by omega)⟩
  have atTwo : parv 2 = some cmd := (agree 1 (by omega)).trans second
  -- the last parameter, behind a colon unless it is the second
  obtain ⟨tail, printed, tailText⟩ : ∃ tail,
      (if (init ++ [last]).length + 1 = 3 then parv 2 else
        (parv ((init ++ [last]).length + 1 - 1)).map (':' :: ·)) = some tail ∧
      tail = (if (init ++ [last]).length = 2 then [] else [':']) ++ last := by
    by_cases exactly : (init ++ [last]).length = 2
    · have one : init.length = 1 := by omega
      have same : parv 2 = some last := by
        rw [← final, one]
      rw [if_pos (by omega), if_pos exactly]
      exact ⟨last, same, rfl⟩
    · rw [if_neg (by omega), if_neg exactly, size, Nat.add_sub_cancel, Nat.add_comm, final]
      exact ⟨':' :: last, rfl, rfl⟩
  have roomy : ¬ bufsize ≤ buf.text.length + last.length := by omega
  have put : (buf.print tail).text = encapText (init ++ [last]) := by
    rw [encapText, List.dropLast_concat, List.getLast?_concat, Option.getD_some, ← text,
      ← tailText]
    rfl
  have high : (buf.print tail).high = encapWidth (init ++ [last]) := by
    rw [buf.print_high tail tight, put, whole]
  refine ⟨mask, cmd, first, atTwo, ?_, ?_, ?_⟩
  · rw [msEncap, link]
    simp only [Bool.not_true, Bool.false_eq_true, if_false, joined, final, printed, atOne, roomy,
      high]
  · rw [msEncap, link]
    simp only [Bool.not_true, Bool.false_eq_true, if_false, joined, final, printed, atOne, roomy,
      put]
  · rw [msEncap, link]
    simp only [Bool.not_true, Bool.false_eq_true, if_false, joined, final, printed, atOne]

/-- The line has the mask and the command, and with the source it has room in the buffer of
each link that takes it. -/
structure EncapFits (cptr sptr : ClientId) (params : List CStr) : Prop where
  two : 2 ≤ params.length
  room : ∀ mask, params[0]? = some mask → ∀ to_ ∈ n.takers cptr mask,
    n.dead (n.client to_).from_ = false →
      (n.nameOf sptr).length + encapWidth params + 8 ≤ bufsize

theorem msEncap_safe_iff (link : (n.client cptr).isServer = true) {params : List CStr}
    (agree : ∀ k, k ≤ params.length → parv (k + 1) = params[k]?)
    (room : encapWidth params < bufsize) :
    (n.msEncap msgTreeRoot cptr sptr (params.length + 1) parv).Safe ↔
      n.EncapFits cptr sptr params := by
  by_cases two : 2 ≤ params.length
  · obtain ⟨mask, cmd, first, second, high, built, stop⟩ :=
      n.msEncap_more msgTreeRoot sptr link agree two room
    have width : (encapText params).length + 1 = encapWidth params :=
      length_encapText (List.ne_nil_of_length_pos (by omega))
    have prefixed : (lit "ENCAP " ++ encapText params).length = (encapText params).length + 6 := by
      rw [List.length_append, Nat.add_comm]
      rfl
    constructor
    · intro safe
      refine ⟨two, fun mask' first' to_ taker alive => ?_⟩
      obtain rfl := Option.some.inj (first'.symm.trans first)
      rcases n.vsendtoAnywhere_high sptr (lit "ENCAP " ++ encapText params)
        (List.mem_of_mem_filter taker) with ⟨-, dead⟩ | ⟨-, buf, written, -, size⟩
      · rw [alive] at dead
        cases dead
      · have fits := safe.sent buf (by
          rw [built]
          exact List.mem_filterMap.2 ⟨to_, taker, written⟩)
        omega
    · intro fits
      constructor
      · rw [stop]
        exact n.acceptEncap_present msgTreeRoot mask cmd _ second
      · omega
      · rw [built]
        intro buf sent
        obtain ⟨to_, taker, written⟩ := List.mem_filterMap.1 sent
        rcases n.vsendtoAnywhere_high sptr (lit "ENCAP " ++ encapText params)
          (List.mem_of_mem_filter taker) with ⟨nothing, -⟩ | ⟨alive, buf', written', -, size⟩
        · rw [nothing] at written
          cases written
        · obtain rfl := Option.some.inj (written.symm.trans written')
          have fits := fits.room mask first to_ taker alive
          omega
  · constructor
    · intro safe
      -- with no parameter `parv[1]` is read, with one `parv[2]`
      match params, two with
      | [], _ =>
        exact absurd (n.msEncap_none msgTreeRoot link (agree 0 (Nat.le_refl _))) (safe.present 1)
      | [mask], _ =>
        exact absurd (n.msEncap_one msgTreeRoot link (agree 0 (by simp)) (agree 1 (by simp)))
          (safe.present 2)
      | _ :: _ :: _, two => exact absurd (by simp) two
    · exact fun fits => absurd fits.two two

/-- What `ms_encap` does with a line as it stands in the buffer of a link, where the line is
one for it and `parse` hands it over. -/
def encapLine (doingList : Bool) (cptr : ClientId) (para : Nat → Option Nat)
    (line stale : CStr) : Option (Handed × EncapRun) :=
  match parse n.toTables msgTreeRoot false doingList cptr para (line ++ '\x00' :: stale) 0 with
  | .handler mptr h =>
    if mptr.cmd = lit "ENCAP" then some (h, n.msEncap msgTreeRoot cptr h.from_ h.parc h.parv)
    else none
  | _ => none

/-- For each line that `dopacket` leaves room for the terminator of. -/
theorem encapLine_safe_iff (doingList : Bool) (para : Nat → Option Nat) {line stale : CStr}
    (short : line.length < clientBufsize) (link : (n.client cptr).isServer = true) {h : Handed}
    {run : EncapRun}
    (ran : n.encapLine msgTreeRoot doingList cptr para line stale = some (h, run)) :
    ∃ params : List CStr, h.params = params.map some ∧
      (run.Safe ↔ n.EncapFits cptr h.from_ params) := by
  unfold encapLine at ran
  split at ran
  · next mptr h' handed =>
    split at ran
    · obtain ⟨rfl, rfl⟩ := Prod.mk.inj (Option.some.inj ran)
      have whole : (parse n.toTables msgTreeRoot false doingList cptr para
          (line ++ '\x00' :: stale) 0).handed = some h' := by rw [handed]; rfl
      obtain ⟨l, derived, -, -, agrees⟩ := (parse_agrees n.toTables msgTreeRoot false doingList
        cptr para (line ++ '\x00' :: stale) 0).1 h' whole
      refine ⟨l.params, agrees.params, ?_⟩
      have shorter : (cAt (line ++ '\x00' :: stale) 0).length ≤ line.length := by
        rw [cAt, List.drop_zero]
        exact length_cString_le line stale
      have width := derived.width_lt
      have room : encapWidth l.params < bufsize := by
        unfold encapWidth
        simp only [clientBufsize] at short
        simp only [bufsize]
        split
        · omega
        · omega
      rw [agrees.count]
      exact n.msEncap_safe_iff msgTreeRoot link (fun k inside => agrees.parv inside) room
    · cases ran
  · cases ran

end LinkNet

/-! Anna is behind `one.net`; `two.net` is another link and takes ENCAP. -/

def twoNet : Client :=
  { Client.zero with name := lit "two.net", status := .server, localFlag := true, from_ := 4 }

theorem encapNet_linked : ∀ u ∈ (networkServer.toTables.addClient 4 twoNet).servCptrList,
    ((networkServer.toTables.addClient 4 twoNet).client u).isServer = true := by decide +kernel

def encapNet : LinkNet where
  toTables := networkServer.toTables.addClient 4 twoNet
  capEncap u := u == 4
  dead _ := false
  linked := encapNet_linked

def encapTree : MessageTree :=
  (doMsgTree newprefRoom [] [chatEntry (lit "ENCAP"), chatEntry (lit "NICK")]).elim .null Prod.fst

theorem encapLine_safe_iff_anna :
    ∃ h run, encapNet.encapLine encapTree false 1 (fun _ => none)
        (lit ":anna ENCAP two.net OPERSPY WHO :#c") [] = some (h, run) ∧ run.Safe := by
  have short : (lit ":anna ENCAP two.net OPERSPY WHO :#c").length < clientBufsize := by decide
  have given : (encapNet.encapLine encapTree false 1 (fun _ => none)
      (lit ":anna ENCAP two.net OPERSPY WHO :#c") []).map
        (fun both => (both.1.from_, both.1.params)) =
      some (2, [lit "two.net", lit "OPERSPY", lit "WHO", lit "#c"].map some) := by
    decide +kernel
  obtain ⟨⟨h, run⟩, ran, parts⟩ := Option.map_eq_some_iff.mp given
  obtain ⟨params, handed, safe⟩ := encapNet.encapLine_safe_iff encapTree false (fun _ => none)
    short (by decide +kernel) ran
  obtain ⟨source, same⟩ := Prod.mk.inj parts
  have words : params = [lit "two.net", lit "OPERSPY", lit "WHO", lit "#c"] := by
    apply List.map_injective_iff.2 (Option.some_injective CStr)
    exact handed.symm.trans same
  refine ⟨h, run, ran, safe.2 ⟨by rw [words]; decide, fun mask first to_ taker alive => ?_⟩⟩
  rw [words, source]
  decide +kernel

def EncapEnd.missing : EncapEnd → Option Nat
  | .null i => some i
  | _ => none

def wideEncap : CStr := lit "ENCAP * X y :" ++ List.replicate 498 'z'

/-- Two lines of a link: one has no parameters, and the other is as long as it may be. -/
theorem encapLine_unsafe :
    (∃ h run,
      encapNet.encapLine encapTree false 1 (fun _ => none) (lit "ENCAP") [] = some (h, run) ∧
        ¬run.Safe) ∧
    ∃ h run, wideEncap.length < clientBufsize ∧
      encapNet.encapLine encapTree false 1 (fun _ => none) wideEncap [] = some (h, run) ∧
      ¬run.Safe := by
  constructor
  · have stops : (encapNet.encapLine encapTree false 1 (fun _ => none) (lit "ENCAP") []).map
        (fun both => both.2.stop.missing) = some (some 1) := by decide +kernel
    obtain ⟨⟨h, run⟩, ran, missing⟩ := Option.map_eq_some_iff.mp stops
    refine ⟨h, run, ran, fun safe => safe.present 1 ?_⟩
    cases stop : run.stop <;> simp_all [EncapEnd.missing]
  · have writes : (encapNet.encapLine encapTree false 1 (fun _ => none) wideEncap []).map
        (fun both => both.2.built.map LineBuf.high) = some [521] := by decide +kernel
    obtain ⟨⟨h, run⟩, ran, built⟩ := Option.map_eq_some_iff.mp writes
    refine ⟨h, run, by decide +kernel, ran, fun safe => ?_⟩
    obtain ⟨buf, only, high⟩ := List.map_eq_singleton_iff.1 built
    have fits := safe.sent buf (by rw [only]; exact List.mem_singleton_self buf)
    rw [high] at fits
    exact absurd fits (by decide)

end Ircd
