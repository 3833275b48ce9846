import Ircd.Channel.Sjoin

/-! `m_mode` on a channel: `set_channel_mode` and the list edits below it.

The loop over the letters runs on the value of the channel and on the buffers it
fills; what it did is written back to the server at the end. `destroyed` counts the
calls of `sub1_from_channel` that freed the block and `dangling` the accesses after
the first of them.
-/

set_option autoImplicit false

namespace Ircd

/-- `check_string`: up to the first white space, `*` for an empty string. -/
def checkString (s : CStr) : CStr :=
  if s = [] then ['*'] else s.takeWhile fun c => !isSpace c

def sevenBit (c : Char) : Char := Char.ofNat (c.toNat % 128)

def fixKey (arg : CStr) : CStr := (arg.map sevenBit).filter fun c => c != ':' && ' ' < c

/-- `fix_key_old`; a byte 0x80 becomes a terminator. -/
def fixKeyOld (arg : CStr) : CStr :=
  ((arg.map sevenBit).filter fun c => c != '\n' && c != ':').takeWhile fun c => c.toNat != 0

/-- The string before and after the last `@`, where there is one. -/
def splitLastAt (s : CStr) : CStr × Option CStr :=
  if '@' ∈ s then
    let host := (s.reverse.takeWhile (· != '@')).reverse
    (s.take (s.length - host.length - 1), some host)
  else (s, none)

/-- The string before and after the first `!`, where there is one. -/
def splitFirstBang (s : CStr) : CStr × Option CStr :=
  if '!' ∈ s then (s.takeWhile (· != '!'), some ((s.dropWhile (· != '!')).drop 1)) else (s, none)

def checkStringOpt : Option CStr → CStr
  | some s => checkString s
  | none => ['*']

def prettyMask (mask : CStr) : CStr :=
  match splitFirstBang mask with
  | (cp, some user) =>
    let (user, host) := splitLastAt user
    makeNickUserHost (checkString cp) (checkString user) (checkStringOpt host)
  | (cp, none) =>
    match splitLastAt cp with
    | (cp, some host) => makeNickUserHost ['*'] (checkString cp) (checkString host)
    | (cp, none) =>
      if '.' ∈ cp then makeNickUserHost ['*'] ['*'] (checkString cp)
      else makeNickUserHost (checkString cp) ['*'] ['*']

/-- `collapse_signs`, where `plus` is the last sign seen. -/
def collapseSignsFrom (plus : Option Char) : CStr → CStr
  | [] => []
  | c :: rest =>
    let next := if c == '+' || c == '-' then some c else plus
    if some c = plus then collapseSignsFrom next rest else c :: collapseSignsFrom next rest

def collapseSigns (s : CStr) : CStr := collapseSignsFrom none s

inductive ListKind where
  | ban
  | exception
  | invex
  deriving DecidableEq, Repr

def Channel.maskList (ch : Channel) : ListKind → List Ban
  | .ban => ch.banlist
  | .exception => ch.exceptlist
  | .invex => ch.invexlist

def Channel.setMaskList (ch : Channel) (kind : ListKind) (list : List Ban) : Channel :=
  match kind with
  | .ban => { ch with banlist := list }
  | .exception => { ch with exceptlist := list }
  | .invex => { ch with invexlist := list }

def Client.who (cl : Client) : CStr :=
  if cl.isPerson then cl.name ++ '!' :: cl.username ++ '@' :: cl.host else cl.name

/-- Whether `add_id` takes a mask for a duplicate: a local client may not add what
an entry already matches, a remote one what is entered already. -/
def duplicateMask (cl : Client) (list : List Ban) (banid : CStr) : Bool :=
  list.any fun ban =>
    if cl.myClient then matchMask ban.banstr banid else irccmp ban.banstr banid == .eq

inductive AddId where
  | full
  | duplicate
  | added (ch : Channel)

def addId (cl : Client) (maxBans now : Int) (ch : Channel) (banid : CStr) (kind : ListKind) :
    AddId :=
  if !cl.isServer ∧ ch.numBed ≥ maxBans ∧ cl.myClient then .full
  else
    let banid := if cl.myClient then collapse banid else banid
    if duplicateMask cl (ch.maskList kind) banid then .duplicate
    else
      .added { ch.setMaskList kind ({ banstr := banid, who := cl.who, time := now } ::
        ch.maskList kind) with numBed := ch.numBed + 1 }

/-- `del_id`, which reports success whether or not the mask was there. -/
def delId (ch : Channel) (banid : CStr) (kind : ListKind) : Channel :=
  let hit (ban : Ban) : Bool := irccmp banid ban.banstr == .eq
  if (ch.maskList kind).any hit then
    { ch.setMaskList kind ((ch.maskList kind).eraseP hit) with
      numBed := if ch.numBed > 0 then ch.numBed - 1 else 0 }
  else ch

/-- The first link of a client, as `find_user_link` finds it, with other flags. -/
def editLink (u : ClientId) (f : MemberFlags → MemberFlags) : List Member → List Member
  | [] => []
  | link :: links =>
    if link.cptr = u then { link with flags := f link.flags } :: links
    else link :: editLink u f links

def Channel.editFlags (ch : Channel) (u : ClientId) (f : MemberFlags → MemberFlags) : Channel :=
  { ch with members := editLink u f ch.members }

inductive What where
  | add
  | del
  | query
  deriving DecidableEq, Repr

def What.plus : What → Char
  | .add => '+'
  | .del => '-'
  | .query => '='

def MemberFlags.changeOp (flags : MemberFlags) (what : What) : MemberFlags :=
  if what = .add then { flags with chanop := true, deopped := false }
  else { flags with chanop := false }

def MemberFlags.changeVoice (flags : MemberFlags) (what : What) : MemberFlags :=
  { flags with voice := what == .add }

def MemberFlags.markDeopped (flags : MemberFlags) : MemberFlags :=
  { flags with deopped := flags.deopped || !flags.chanop }

structure ModeEntry where
  plus : Char
  letter : Char
  para : Option CStr
  deriving DecidableEq, Repr

abbrev ModeLine := List ModeEntry

def ModeLine.modebuf (line : ModeLine) : CStr :=
  collapseSigns (line.flatMap fun e => [e.plus, e.letter])

def ModeLine.parabuf (line : ModeLine) : CStr :=
  line.flatMap fun e => match e.para with
    | some arg => arg ++ [' ']
    | none => []

structure ModeEnv where
  tables : Tables
  cptr : ClientId
  sptr : ClientId
  chan : ChanId
  isok : Bool
  isdeop : Bool

/-- The variables of the loop; `whatt` and `plus` are one value, and an error that
`errors_sent` has a bit for is one flag. -/
structure ModeLoop where
  ch : Channel
  uninvited : List ClientId
  destroyed : Nat
  dangling : Nat
  whatt : What
  parv : List CStr
  errNoOps : Bool
  errUnknown : Bool
  errRplB : Bool
  errRplE : Bool
  errRplI : Bool
  errNotOnChannel : Bool
  opcnt : Nat
  len : Nat
  keychange : Bool
  limitset : Bool
  done : ModeFlag → Bool
  modeLine : ModeLine
  newLine : ModeLine
  newLine2 : ModeLine
  out : List Output

namespace ModeEnv

def source (env : ModeEnv) : Client := env.tables.client env.sptr
def myClient (env : ModeEnv) : Bool := env.source.myClient

end ModeEnv

namespace ModeLoop

variable (env : ModeEnv) (st : ModeLoop)

def touch : ModeLoop := if st.destroyed ≠ 0 then { st with dangling := st.dangling + 1 } else st

def emit (o : Output) : ModeLoop := { st with out := st.out ++ [o] }

def reply (u : ClientId) (num : Numeric) (args : List CStr) : ModeLoop :=
  st.emit (.numeric u num (env.tables.meName :: env.tables.nameOf u :: args))

def eat : ModeLoop := { st with parv := st.parv.tail }

def noOps : ModeLoop :=
  if env.myClient ∧ !st.errNoOps then
    { st.touch.reply env env.sptr .errChanOPrivsNeeded [st.ch.chname] with errNoOps := true }
  else st

def fits (n : Nat) : Bool := st.len + n + 2 < modeBufLen

def write (plus letter : Char) (para : Option CStr) : ModeLoop :=
  { st with modeLine := st.modeLine ++ [{ plus := plus, letter := letter, para := para }] }

def changeMember (letter : Char) (who : ClientId) (arg : CStr) : ModeLoop :=
  if env.source.isServer ∧ st.whatt = .add then
    st.touch.emit (.tsWarn (lit "MODE +" ++ letter :: lit " on " ++ st.ch.chname ++ lit " for " ++
      env.tables.nameOf who ++ lit " from server " ++ env.source.name ++ lit " (ignored)"))
  else
    let st :=
      if env.isdeop ∧ letter = 'o' ∧ st.whatt = .add then
        { st.touch with ch := st.ch.editFlags who MemberFlags.markDeopped }
      else st
    if !env.isok then st.noOps env
    else if !st.fits arg.length then st
    else
      let st := (st.touch).write st.whatt.plus letter (some (env.tables.nameOf who))
      let change (flags : MemberFlags) : MemberFlags :=
        if letter = 'o' then flags.changeOp st.whatt else flags.changeVoice st.whatt
      { st with
        len := st.len + arg.length + 1
        opcnt := st.opcnt + 1
        ch := st.ch.editFlags who change }

def memberLetter (letter : Char) : ModeLoop :=
  if env.myClient ∧ !env.tables.isMember env.sptr env.chan then
    let st :=
      if st.errNotOnChannel then st
      else { st.touch.reply env env.sptr .errNotOnChannel [st.ch.chname] with
        errNotOnChannel := true }
    st.eat
  else if st.whatt = .query then st
  else
    match st.parv with
    | [] => st
    | para :: _ =>
      let arg := checkString para
      let st := st.eat
      if env.myClient ∧ st.opcnt ≥ maxModeParams then st
      else
        match env.tables.chase arg with
        | none => st.reply env env.sptr .errNoSuchNick [arg]
        | some who =>
          if !(env.tables.client who).user then st
          else if !env.tables.isMember who env.chan then
            if env.myClient then
              st.touch.reply env env.sptr .errUserNotInChannel [arg, st.ch.chname]
            else st
          else if who = env.sptr ∧ letter = 'o' ∧ st.whatt = .add then st
          else st.changeMember env letter who arg

/-- The argument of a `k`, and the parameters left after it. -/
def keyArgument : Option (CStr × ModeLoop) :=
  match st.parv with
  | [] => if st.whatt = .del then some (['*'], st) else none
  | para :: _ =>
    let arg := checkString para
    if st.whatt = .del then some (arg, st.eat)
    else some (if env.myClient then fixKey arg else fixKeyOld arg, st.eat)

def text (modebuf parabuf : CStr) : CStr :=
  ':' :: env.source.name ++ lit " MODE " ++ st.ch.chname ++ ' ' :: modebuf ++ ' ' :: parabuf

def sendLine (text : CStr) : ModeLoop :=
  let st := st.touch.emit (.channelButserv st.ch.chname env.sptr text)
  if isLocalName st.ch.chname then st
  else st.emit (.matchServs (some st.ch.chname) env.cptr text)

def removeOldKey : ModeLoop := st.sendLine env (st.text env (lit "-k") st.ch.mode.key)

def changeKey (arg : CStr) : ModeLoop :=
  let tmp := arg.length
  if st.whatt = .add then
    if st.ch.mode.key ≠ [] ∧ st.ch.mode.key = arg then st.touch
    else
      let st := if st.ch.mode.key ≠ [] then st.touch.removeOldKey env else st.touch
      let st := st.write '+' 'k' (some arg)
      { st with
        len := st.len + tmp + 1
        ch := { st.ch with mode := { st.ch.mode with key := strncpyIrc arg keyLen } } }
  else
    let key := st.ch.mode.key
    if arg ≠ ['*'] ∧ arg ≠ key then st.touch
    else
      let st := (st.touch).write '-' 'k' (some key)
      { st with
        len := st.len + tmp + 1
        ch := { st.ch with mode := { st.ch.mode with key := [] } } }

def keyLetter : ModeLoop :=
  if st.whatt = .query then st
  else
    match st.keyArgument env with
    | none => st
    | some (arg, st) =>
      if st.keychange then st
      else
        let st := { st with keychange := true }
        if arg = [] then st
        else if !env.isok then st.noOps env
        else
          let arg := arg.take keyLen
          if !st.fits arg.length then st else st.changeKey env arg

def listReply (kind : ListKind) : Numeric × Numeric :=
  match kind with
  | .ban => (.rplBanList, .rplEndOfBanList)
  | .exception => (.rplExceptList, .rplEndOfExceptList)
  | .invex => (.rplInvexList, .rplEndOfInvexList)

def rplSent (kind : ListKind) : Bool :=
  match kind with
  | .ban => st.errRplB
  | .exception => st.errRplE
  | .invex => st.errRplI

def setRplSent (kind : ListKind) : ModeLoop :=
  match kind with
  | .ban => { st with errRplB := true }
  | .exception => { st with errRplE := true }
  | .invex => { st with errRplI := true }

/-- The list itself, for a query or a letter without a parameter: anybody may see
the bans, ops the two other lists. -/
def showList (kind : ListKind) : ModeLoop :=
  if !env.myClient ∨ st.rplSent kind then st
  else
    let st := (st.setRplSent kind).touch
    if kind = .ban ∨ env.isok then
      let st := (st.ch.maskList kind).foldl (fun st ban =>
        st.reply env env.cptr (listReply kind).1
          [st.ch.chname, ban.banstr, ban.who, formatTime ban.time]) st
      st.reply env env.sptr (listReply kind).2 [st.ch.chname]
    else st.reply env env.sptr .errChanOPrivsNeeded [st.ch.chname]

def writeMask (kind : ListKind) (entry : ModeEntry) : ModeLoop :=
  match kind with
  | .ban => { st with modeLine := st.modeLine ++ [entry] }
  | .exception => { st with newLine := st.newLine ++ [entry] }
  | .invex => { st with newLine2 := st.newLine2 ++ [entry] }

def maskLetterOf (kind : ListKind) : Char :=
  match kind with
  | .ban => 'b'
  | .exception => 'e'
  | .invex => 'I'

def changeMask (kind : ListKind) (arg : CStr) : ModeLoop :=
  let written (st : ModeLoop) : ModeLoop :=
    let st := st.writeMask kind
      { plus := st.whatt.plus, letter := maskLetterOf kind, para := some arg }
    { st with len := st.len + arg.length + 1, opcnt := st.opcnt + 1 }
  if !st.fits arg.length then st
  else if st.whatt = .add then
    match addId env.source env.tables.maxBans env.tables.currentTime st.ch arg kind with
    | .full => st.touch.reply env env.sptr .errBanListFull [st.ch.chname, arg]
    | .duplicate => st.touch
    | .added ch => written { st.touch with ch := ch }
  else written { st.touch with ch := delId st.ch arg kind }

/-- `case 'b':`, `case 'e':` and `case 'I':`. They differ in where a leading colon is
looked for: a ban in the parameter of a local client that adds one, the others in the
finished mask. -/
def maskLetter (kind : ListKind) : ModeLoop :=
  if st.whatt = .query then st.showList env kind
  else
    match st.parv with
    | [] => st.showList env kind
    | para :: _ =>
      let arg := checkString para
      let st := st.eat
      if env.myClient ∧ st.opcnt ≥ maxModeParams then st
      else if !env.isok then st.noOps env
      else if kind = .ban ∧ env.myClient ∧ arg.head? = some ':' ∧ st.whatt = .add then st.eat
      else
        let arg := if env.myClient then collapse (prettyMask arg) else arg
        if kind ≠ .ban ∧ arg.head? = some ':' then st.eat else st.changeMask env kind arg

def limitLetter : ModeLoop :=
  if st.whatt = .query then st
  else if !env.isok then (if st.whatt = .add then st.eat else st)
  else if st.limitset then (if st.whatt = .add then st.eat else st)
  else
    let st := { st with limitset := true }
    if st.whatt = .add then
      match st.parv with
      | [] =>
        if env.myClient then st.reply env env.sptr .errNeedMoreParams [lit "MODE +l"] else st
      | para :: _ =>
        let st := st.eat
        let nusers := atoi (checkString para)
        if nusers ≤ 0 then st
        else
          let arg := formatD nusers
          if !st.fits arg.length then st
          else
            let st := st.touch.write '+' 'l' (some arg)
            { st with
              len := st.len + arg.length + 1
              ch := { st.ch with mode := { st.ch.mode with limit := nusers } } }
    else
      let st := st.touch.write '-' 'l' none
      { st with ch := { st.ch with mode := { st.ch.mode with limit := 0 } } }

def setFlag (f : ModeFlag) (on : Bool) : ModeLoop :=
  { st with
    ch := { st.ch with mode := { st.ch.mode with mode := Function.update st.ch.mode.mode f on } } }

def dropInvites : ModeLoop :=
  { st with
    uninvited := st.uninvited ++ st.ch.invites
    ch := { st.ch with invites := [] } }

/-- The letters `i`, `m`, `n`, `p`, `s`, `t` once they are let through; anything but
`+` takes the mode off. -/
def changeFlag (f : ModeFlag) (letter : Char) : ModeLoop :=
  if env.myClient ∧ st.done f then st
  else
    let st := if env.myClient then { st with done := Function.update st.done f true } else st
    if !st.fits 0 then st
    else if st.whatt = .add then
      let st := (st.touch.setFlag f true).write '+' letter none
      { st with len := st.len + 2 }
    else
      let st := if f = .modeInviteOnly then st.touch.dropInvites else st.touch
      let st := (st.setFlag f false).write '-' letter none
      { st with len := st.len + 2 }

def flagLetter (f : ModeFlag) (letter : Char) : ModeLoop :=
  if !env.isok then st.noOps env else st.changeFlag env f letter

/-- `case 'i':`, the only one of them that knows of queries. -/
def inviteLetter : ModeLoop :=
  if st.whatt = .query then st else st.flagLetter env .modeInviteOnly 'i'

/-- `sub1_from_channel` on a channel whose juped flag is off. -/
def sub1 : ModeLoop :=
  let users := st.ch.users - 1
  if users ≤ 0 then
    { st.dropInvites with
      destroyed := st.destroyed + 1
      ch := ({ st.ch with users := 0, invites := [] } : Channel).freeBansExceptionsDenies }
  else { st with ch := { st.ch with users := users } }

def jupeLetter : ModeLoop :=
  let cl := env.source
  if cl.myConnect ∧ cl.isAnOper then
    let notice (what : CStr) : CStr := cl.name ++ '!' :: cl.username ++ '@' :: cl.host ++
      lit " locally " ++ what ++ lit " channel " ++ st.ch.chname
    match st.whatt with
    | .add =>
      let st := st.touch.emit (.realops (notice (lit "juping")))
      { st with ch := { st.ch with juped := true } }
    | .del =>
      let st := st.touch.emit (.realops (notice (lit "unjuping")))
      let st := { st with ch := { st.ch with juped := false } }
      if st.ch.users = 0 then st.sub1 else st
    | .query => st
  else st

def unknownLetter (c : Char) : ModeLoop :=
  if st.whatt = .query then st
  else if env.myClient ∧ !st.errUnknown then
    { st.reply env env.sptr .errUnknownMode [[c]] with errUnknown := true }
  else st

def letter (c : Char) : ModeLoop :=
  match c with
  | '+' => { st with whatt := .add }
  | '-' => { st with whatt := .del }
  | '=' => { st with whatt := .query }
  | 'o' => st.memberLetter env 'o'
  | 'v' => st.memberLetter env 'v'
  | 'k' => st.keyLetter env
  | 'e' => st.maskLetter env .exception
  | 'I' => st.maskLetter env .invex
  | 'b' => st.maskLetter env .ban
  | 'l' => st.limitLetter env
  | 'i' => st.inviteLetter env
  | 'j' => st.jupeLetter env
  | 'm' => st.flagLetter env .modeModerated 'm'
  | 'n' => st.flagLetter env .modeNoPrivMsgs 'n'
  | 'p' => st.flagLetter env .modePrivate 'p'
  | 's' => st.flagLetter env .modeSecret 's'
  | 't' => st.flagLetter env .modeTopicLimit 't'
  | c => st.unknownLetter env c

def letters (curr : CStr) : ModeLoop := curr.foldl (fun st c => st.letter env c) st

/-- Every parameter that no letter has taken is a string of letters in its turn. The
number bounds the strings; each of them is a parameter, so that the number of
parameters is enough. -/
def strings (env : ModeEnv) : Nat → ModeLoop → ModeLoop
  | 0, st => st
  | n + 1, st =>
    match st.parv with
    | [] => st
    | curr :: _ => strings env n (st.eat.letters env curr)

def sendCapLine (cap : Capability) (line : ModeLine) : ModeLoop :=
  if line.modebuf ≠ [] then
    let text := st.text env line.modebuf line.parabuf
    let st := st.touch.emit (.channelButserv st.ch.chname env.sptr text)
    if isLocalName st.ch.chname then st
    else st.emit (.matchCapServs st.ch.chname env.cptr cap text)
  else st

def sendLines : ModeLoop :=
  let st :=
    if st.modeLine.modebuf ≠ [] then
      st.sendLine env (st.text env st.modeLine.modebuf st.modeLine.parabuf)
    else st
  let st := st.sendCapLine env .capEx st.newLine
  st.sendCapLine env .capIe st.newLine2

end ModeLoop

/-- Who `sptr` is on the channel, as `set_channel_mode` works it out. -/
def modeEnv (t : Tables) (cptr sptr : ClientId) (c : ChanId) : ModeEnv :=
  let ch := t.chan c
  let server := (t.client sptr).isServer
  let ischop := server || ch.isChanOp sptr
  let isdeop := !ischop && ch.isDeopped sptr
  { tables := t
    cptr := cptr
    sptr := sptr
    chan := c
    isok := ischop || (!isdeop && (t.client cptr).isServer && ch.channelts != 0)
    isdeop := isdeop }

def modeStart (ch : Channel) (parv : List CStr) : ModeLoop where
  ch := ch
  uninvited := []
  destroyed := 0
  dangling := 0
  whatt := .add
  parv := parv
  errNoOps := false
  errUnknown := false
  errRplB := false
  errRplE := false
  errRplI := false
  errNotOnChannel := false
  opcnt := 0
  len := 0
  keychange := false
  limitset := false
  done := fun _ => false
  modeLine := []
  newLine := []
  newLine2 := []
  out := []

/-- The whole loop of `set_channel_mode` and the lines it sends. -/
def modeRun (env : ModeEnv) (parv : List CStr) : ModeLoop :=
  ((modeStart (env.tables.chan env.chan) parv).strings env parv.length).sendLines env

namespace Tables

/-- The parts of `destroyChannel` outside the block. -/
def unlinkChannel (t : Tables) (c : ChanId) : Tables :=
  let t := { t with
    channel := t.channel.erase c
    freed := Function.update t.freed c true
    countChan := t.countChan - 1 }
  t.delFromChannelHashTable (t.chan c).chname c

def uninvite (t : Tables) (c : ChanId) (u : ClientId) : Tables :=
  t.setClient u { t.client u with invited := (t.client u).invited.erase c }

def commitMode (t : Tables) (c : ChanId) (st : ModeLoop) : Tables :=
  let t := t.setChan c st.ch
  let t := st.uninvited.foldl (fun t u => t.uninvite c u) t
  (List.replicate st.destroyed c).foldl unlinkChannel t

end Tables

namespace Server

def setChannelMode (s : Server) (cptr sptr : ClientId) (c : ChanId) (parv : List CStr) : Server :=
  let st := modeRun (modeEnv s.toTables cptr sptr c) parv
  let s := s.touch c
  { toTables := s.toTables.commitMode c st
    sent := s.sent ++ st.out
    danglingUses := s.danglingUses ++ List.replicate st.dangling c }

end Server

/-- `m_mode` on a channel; the modes of a user are not modelled and change no channel. -/
def mMode (s : Server) (cptr sptr : ClientId) (parv : List CStr) : Server :=
  let parv0 := parv.getD 0 []
  let name := parv.getD 1 []
  if parv.length < 2 then s.sendtoOne sptr .errNeedMoreParams [parv0, lit "MODE"]
  else if !isChannelName name then s
  else if !checkChannelName name then s.sendtoOne sptr .errBadChanName [parv0, name]
  else
    match s.hashFindChannel name with
    | none => s
    | some c =>
      if parv.length < 3 then
        let ch := s.chan c
        let modes := channelModes s.toTables sptr c
        (s.sendtoOne sptr .rplChannelModeIs [parv0, ch.chname, modes.1, modes.2]).sendtoOne sptr
          .rplCreationTime [parv0, ch.chname, formatTime ch.channelts]
      else s.setChannelMode cptr sptr c (parv.drop 2)

end Ircd
