import Ircd.Channel.Store

/-! `m_sjoin`: a channel as another server sees it, merged into ours by TS.

The mode letters, the TS decision, the merge and the nick list are separate
definitions in the order in which the command runs them.
-/

set_option autoImplicit false

namespace Ircd

def sjoinFlags : List (ModeFlag × Char) :=
  [(.modePrivate, 'p'), (.modeSecret, 's'), (.modeModerated, 'm'),
   (.modeNoPrivMsgs, 'n'), (.modeTopicLimit, 't'), (.modeInviteOnly, 'i')]

def channelModesFlags : List (ModeFlag × Char) :=
  [(.modeSecret, 's'), (.modePrivate, 'p'), (.modeModerated, 'm'),
   (.modeTopicLimit, 't'), (.modeInviteOnly, 'i'), (.modeNoPrivMsgs, 'n')]

def modeOfLetter : Char → Option ModeFlag
  | 'i' => some .modeInviteOnly
  | 'n' => some .modeNoPrivMsgs
  | 'p' => some .modePrivate
  | 's' => some .modeSecret
  | 'm' => some .modeModerated
  | 't' => some .modeTopicLimit
  | _ => none

/-- What `channel_modes` puts into `mbuf` and `pbuf`. -/
def channelModes (s : Tables) (cptr : ClientId) (c : ChanId) : CStr × CStr :=
  let mode := (s.chan c).mode
  let sees := s.isMember cptr c || (s.client cptr).isServer
  let letters := (channelModesFlags.filter fun f => mode.mode f.1).map Prod.snd
  let limit := if mode.limit ≠ 0 then ['l'] else []
  let key := if mode.key ≠ [] then ['k'] else []
  let limitPara := if mode.limit ≠ 0 ∧ sees then formatD mode.limit ++ [' '] else []
  let keyPara := if mode.key ≠ [] ∧ sees then mode.key else []
  ('+' :: letters ++ limit ++ key, limitPara ++ keyPara)

def paramAt (parv : List CStr) (i : Nat) : CStr := parv.getD i []

/-- The loop over the letters of `parv[3]`; `none` where a letter that takes a
parameter leaves none for the nick list. -/
def sjoinModes (parv : List CStr) : CStr → Mode → Nat → Option (Mode × Nat)
  | [], mode, args => some (mode, args)
  | 'k' :: letters, mode, args =>
    if parv.length < 5 + (args + 1) then none
    else
      sjoinModes parv letters
        { mode with key := strncpyIrc (paramAt parv (4 + args)) keyLen } (args + 1)
  | 'l' :: letters, mode, args =>
    if parv.length < 5 + (args + 1) then none
    else sjoinModes parv letters { mode with limit := atoi (paramAt parv (4 + args)) } (args + 1)
  | c :: letters, mode, args =>
    match modeOfLetter c with
    | some f => sjoinModes parv letters (mode.set f) args
    | none => sjoinModes parv letters mode args

structure SjoinRequest where
  sender : CStr
  newts : Int
  name : CStr
  letters : CStr
  mode : Mode
  nicks : CStr

def parseSjoin (s : Tables) (sptr : ClientId) (parv : List CStr) : Option SjoinRequest :=
  if (s.client sptr).isClient ∨ parv.length < 5 then none
  else if !isChannelName (paramAt parv 2) then none
  else if !checkChannelName (paramAt parv 2) then none
  else if isLocalName (paramAt parv 2) then none
  else
    match sjoinModes parv (paramAt parv 3) Mode.zero 0 with
    | none => none
    | some (mode, args) =>
      some
        { sender := paramAt parv 0
          newts := atol (paramAt parv 1)
          name := paramAt parv 2
          letters := paramAt parv 3
          mode := mode
          nicks := paramAt parv (4 + args) }

structure SjoinTs where
  channelts : Int
  tstosend : Int
  keepOurModes : Bool
  keepNewModes : Bool

def sjoinTs (isnew : Bool) (newts oldts : Int) (juped : Bool) (users : Int) : SjoinTs :=
  if isnew then
    { channelts := newts, tstosend := newts, keepOurModes := true, keepNewModes := true }
  else if newts = 0 ∨ oldts = 0 then
    { channelts := 0, tstosend := 0, keepOurModes := true, keepNewModes := true }
  else if newts = oldts then
    { channelts := oldts, tstosend := oldts, keepOurModes := true, keepNewModes := true }
  else if newts < oldts then
    { channelts := newts, tstosend := newts, keepOurModes := false, keepNewModes := true }
  else if juped ∧ users = 0 then
    -- nobody is in a channel that is only juped here, so its TS is given up
    { channelts := newts, tstosend := newts, keepOurModes := true, keepNewModes := true }
  else
    { channelts := oldts, tstosend := oldts, keepOurModes := true, keepNewModes := false }

def sjoinMerge (ts : SjoinTs) (old new : Mode) : Mode :=
  if !ts.keepNewModes then old
  else if ts.keepOurModes then
    { mode := fun f => new.mode f || old.mode f
      limit := if old.limit > new.limit then old.limit else new.limit
      key := if new.key < old.key then old.key else new.key }
  else new

structure ModeBuf where
  mbuf : CStr
  parabuf : CStr
  what : Option Bool
  pargs : Nat
  deriving DecidableEq, Repr

def ModeBuf.empty : ModeBuf := { mbuf := [], parabuf := [], what := none, pargs := 0 }

def ModeBuf.letter (b : ModeBuf) (plus : Bool) (c : Char) : ModeBuf :=
  if b.what = some plus then { b with mbuf := b.mbuf ++ [c] }
  else { b with mbuf := b.mbuf ++ [if plus then '+' else '-', c], what := some plus }

def ModeBuf.para (b : ModeBuf) (arg : CStr) : ModeBuf :=
  { b with parabuf := b.parabuf ++ arg ++ [' '], pargs := b.pargs + 1 }

def ModeBuf.flags (old new : Mode) (plus : Bool) (b : ModeBuf) : ModeBuf :=
  sjoinFlags.foldl (fun b f => if new.mode f.1 && !old.mode f.1 then b.letter plus f.2 else b) b

def sjoinModeBuf (old new : Mode) : ModeBuf :=
  let b := ModeBuf.flags old new true ModeBuf.empty
  let b := ModeBuf.flags new old false b
  let b := if old.limit ≠ 0 ∧ new.limit = 0 then b.letter false 'l' else b
  let b := if old.key ≠ [] ∧ new.key = [] then (b.letter false 'k').para old.key else b
  let b :=
    if new.limit ≠ 0 ∧ old.limit ≠ new.limit then (b.letter true 'l').para (formatD new.limit)
    else b
  if new.key ≠ [] ∧ old.key ≠ new.key then (b.letter true 'k').para new.key else b

namespace Server

def sjoinSendit (s : Server) (sptr : ClientId) (c : ChanId) (sender : CStr) (b : ModeBuf) :
    Server :=
  s.sendtoChannelButserv c sptr
    (':' :: sender ++ lit " MODE " ++ (s.chan c).chname ++ ' ' :: b.mbuf ++ ' ' :: b.parabuf)

/-- A full buffer is sent and started again from `restart`. -/
def sjoinFlush (s : Server) (sptr : ClientId) (c : ChanId) (sender : CStr) (restart b : ModeBuf) :
    Server × ModeBuf :=
  if b.pargs ≥ maxModeParams then (s.sjoinSendit sptr c sender b, restart) else (s, b)

def sjoinTakeFlag (s : Server) (sptr : ClientId) (c : ChanId) (sender : CStr) (has : Bool)
    (letter : Char) (name : CStr) (b : ModeBuf) : Server × ModeBuf :=
  if has then s.sjoinFlush sptr c sender ModeBuf.empty ((b.letter false letter).para name)
  else (s, b)

def sjoinTakeFlags (sptr : ClientId) (c : ChanId) (sender : CStr) :
    List Member → Server → ModeBuf → Server × ModeBuf
  | [], s, b => (s, b)
  | link :: links, s, b =>
    let (s, b) := s.sjoinTakeFlag sptr c sender link.flags.chanop 'o' (s.nameOf link.cptr) b
    let (s, b) := s.sjoinTakeFlag sptr c sender link.flags.voice 'v' (s.nameOf link.cptr) b
    sjoinTakeFlags sptr c sender links s b

end Server

def MemberFlags.wipe (flags : MemberFlags) : MemberFlags :=
  { flags with chanop := false, voice := false }

def Channel.wipeFlags (ch : Channel) : Channel :=
  { ch with members := ch.members.map fun link => { link with flags := link.flags.wipe } }

def hasPrefix (c : Char) (s : CStr) : Bool := s.head? == some c || s.tail.head? == some c

/-- The flags that the prefixes of a nick ask for, as the losing side of the TS
decision may only mark an op as de-opped. -/
def sjoinNickFlags (keepNewModes : Bool) (s : CStr) : MemberFlags :=
  if keepNewModes then
    { MemberFlags.none with chanop := hasPrefix '@' s, voice := hasPrefix '+' s }
  else { MemberFlags.none with deopped := hasPrefix '@' s }

def stripPrefixes (s : CStr) : CStr := s.dropWhile fun c => c == '@' || c == '+'

/-- The variables of the nick loop: the text written at `t`, `people`, and the
buffers of the MODE for the local members. -/
structure SjoinLoop where
  srv : Server
  text : CStr
  people : Nat
  buf : ModeBuf

def ModeBuf.plus : ModeBuf := { ModeBuf.empty with mbuf := ['+'] }

namespace SjoinLoop

def giveFlag (st : SjoinLoop) (sptr : ClientId) (c : ChanId) (sender : CStr) (has : Bool)
    (letter : Char) (name : CStr) : SjoinLoop :=
  if has then
    let b := ({ st.buf with mbuf := st.buf.mbuf ++ [letter] } : ModeBuf).para name
    let (srv, buf) := st.srv.sjoinFlush sptr c sender ModeBuf.plus b
    { st with srv := srv, buf := buf }
  else st

/-- A nick of the list whose client was found behind `cptr`. -/
def admitClient (st : SjoinLoop) (sptr : ClientId) (c : ChanId) (req : SjoinRequest)
    (keepNewModes : Bool) (s0 : CStr) (acptr : ClientId) : SjoinLoop :=
  let fl := sjoinNickFlags keepNewModes s0
  let nick := stripPrefixes s0
  let srv :=
    if st.srv.isMember acptr c then st.srv
    else
      (st.srv.addUserToChannel c acptr fl).sendtoChannelButserv c acptr
        (':' :: nick ++ lit " JOIN :" ++ req.name)
  let st : SjoinLoop :=
    { st with
      srv := srv
      people := st.people + 1
      text := st.text ++ (if keepNewModes then s0 else nick) ++ [' '] }
  let st := st.giveFlag sptr c req.sender fl.chanop 'o' nick
  st.giveFlag sptr c req.sender fl.voice 'v' nick

def nick (st : SjoinLoop) (cptr sptr : ClientId) (c : ChanId) (req : SjoinRequest)
    (keepNewModes : Bool) (s0 : CStr) : SjoinLoop :=
  match st.srv.findChasing sptr (stripPrefixes s0) with
  | (srv, none) => { st with srv := srv }
  | (srv, some acptr) =>
    if (srv.client acptr).from_ ≠ cptr then { st with srv := srv }
    else ({ st with srv := srv } : SjoinLoop).admitClient sptr c req keepNewModes s0 acptr

end SjoinLoop

def isBlank (c : Char) : Bool := c == ' '

namespace Server

def sjoinTsZero (s : Server) (sptr : ClientId) (c : ChanId) (req : SjoinRequest) (isnew : Bool) :
    Server :=
  let oldts := (s.chan c).channelts
  if !isnew ∧ req.newts = 0 ∧ oldts ≠ 0 then
    let s := s.sendtoChannelButserv c s.me
      (':' :: s.meName ++ lit " NOTICE " ++ (s.chan c).chname ++ lit " :*** Notice -- TS for " ++
        (s.chan c).chname ++ lit " changed from " ++ formatTime oldts ++ lit " to 0")
    s.emit (.realops (lit "Server " ++ s.nameOf sptr ++ lit " changing TS on " ++ req.name ++
      lit " from " ++ formatTime oldts ++ lit " to 0"))
  else s

/-- The mode changes up to the nick list: new modes, flags taken from the old
members and what the local members see of both. -/
def sjoinModeChanges (s : Server) (sptr : ClientId) (c : ChanId) (req : SjoinRequest)
    (ts : SjoinTs) (oldts : Int) : Server :=
  let old := (s.chan c).mode
  let new := sjoinMerge ts old req.mode
  let b := sjoinModeBuf old new
  let s := s.setChan c { s.chan c with mode := new, channelts := ts.channelts }
  let (s, b) :=
    if ts.keepOurModes then (s, b)
    else
      let (s, b) := sjoinTakeFlags sptr c req.sender (s.chan c).members s { b with what := none }
      let s := s.setChan c (s.chan c).wipeFlags
      (s.sendtoChannelButserv c s.me
        (':' :: s.meName ++ lit " NOTICE " ++ (s.chan c).chname ++ lit " :*** Notice -- TS for " ++
          (s.chan c).chname ++ lit " changed from " ++ formatTime oldts ++ lit " to " ++
          formatTime req.newts), b)
  if b.mbuf ≠ [] then s.sjoinSendit sptr c req.sender b else s

def sjoinHeader (s : Server) (sptr : ClientId) (c : ChanId) (req : SjoinRequest) (ts : SjoinTs) :
    CStr :=
  let modes :=
    if req.letters.head? ≠ some '0' ∧ ts.keepNewModes then channelModes s.toTables sptr c
    else (['0'], [])
  ':' :: req.sender ++ lit " SJOIN " ++ formatTime ts.tstosend ++ ' ' :: req.name ++
    ' ' :: modes.1 ++ ' ' :: modes.2 ++ lit " :"

def sjoinNicks (s : Server) (cptr sptr : ClientId) (c : ChanId) (req : SjoinRequest)
    (keepNewModes : Bool) : SjoinLoop :=
  (tokens isBlank req.nicks).foldl (fun st s0 => st.nick cptr sptr c req keepNewModes s0)
    { srv := s, text := [], people := 0, buf := ModeBuf.plus }

/-- The nick list begins where `strlen` finds the end of the header. -/
def sjoinRelay (cptr sptr : ClientId) (c : ChanId) (req : SjoinRequest) (header : CStr)
    (st : SjoinLoop) : Server :=
  let s := if st.buf.pargs ≠ 0 then st.srv.sjoinSendit sptr c req.sender st.buf else st.srv
  if st.people ≠ 0 then
    s.sendtoMatchServs (some c) cptr (cString header ++ st.text.dropLast)
  else s

def sjoinTsOf (s : Server) (c : ChanId) (req : SjoinRequest) (isnew : Bool) : SjoinTs :=
  sjoinTs isnew req.newts (s.chan c).channelts (s.chan c).juped (s.chan c).users

/-- `m_sjoin` once the channel has been looked up. -/
def sjoinChannel (s : Server) (cptr sptr : ClientId) (c : ChanId) (req : SjoinRequest)
    (isnew : Bool) : Server :=
  let oldts := (s.chan c).channelts
  let ts := s.sjoinTsOf c req isnew
  let s := s.sjoinTsZero sptr c req isnew
  let s := s.sjoinModeChanges sptr c req ts oldts
  sjoinRelay cptr sptr c req (s.sjoinHeader sptr c req ts)
    (s.sjoinNicks cptr sptr c req ts.keepNewModes)

def sjoinRun (s : Server) (cptr sptr : ClientId) (req : SjoinRequest) : Server :=
  let isnew := (s.hashFindChannel req.name).isNone
  match s.getChannel sptr req.name true with
  | (s, some c) => s.sjoinChannel cptr sptr c req isnew
  | (s, none) => s

end Server

def mSjoin (s : Server) (cptr sptr : ClientId) (parv : List CStr) : Server :=
  match parseSjoin s.toTables sptr parv with
  | none => s
  | some req => s.sjoinRun cptr sptr req

end Ircd
