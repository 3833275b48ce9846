import Ircd.Channel.Store
import Ircd.Lib.Machine
import Ircd.Lib.Votes
import Ircd.Text.Mask

/-! G-lines: the command, the requests that wait for others, and the G-lines that are placed.

A request is kept in buffers of the size of each name and is compared with later ones in
full. A mask has room for two requests; the third that agrees with neither places the
G-line.
-/

set_option autoImplicit false

namespace Ircd

def glinePendingExpire : Int := 600

def glineTime : Int := 12 * 3600

def nonWildChars : Nat := 4

/-- A request that `m_gline` lets through, and `CurrentTime` when it comes. -/
structure GlineRequest where
  operUser : CStr
  operHost : CStr
  operServer : CStr
  user : CStr
  host : CStr
  time : Int
  deriving DecidableEq, Repr

def isKWildChar (c : Char) : Bool := c == '!' || c == '*' || c == '.' || c == '?' || c == '@'

/-- `invalid_wildcard`; the counts stop at the bound, which changes nothing. -/
def invalidWildcard (luser lhost : CStr) : Bool :=
  decide (luser.countP (fun c => !isKWildChar c) + lhost.countP (fun c => !isKWildChar c) <
    nonWildChars)

def invalidGline (luser lhost lreason : CStr) : Bool :=
  luser.contains '!' || (luser.contains '#' || lhost.contains '#' || lreason.contains '#') ||
    (luser.contains ':' || lreason.contains ':')

/-- `GLINE` from a client of this server, with its privileges, or over a link. -/
inductive GlineCommand where
  | mine (isOper operGline : Bool) (username host : CStr) (server : Option CStr)
      (parv : List CStr)
  | link (isServer : Bool) (parv : List CStr)

/-- The mask of a local request: at its first `@`, or all of it a host. -/
def glineMask (mask : CStr) : Option (CStr × CStr) :=
  let filled (host : CStr) := if host = [] then ['*'] else host
  if mask.contains '@' then
    some (mask.takeWhile (· != '@'), filled (mask.dropWhile (· != '@')).tail)
  else if mask.head? = some '*' then some (['*'], filled mask)
  else none

/-- `m_gline` up to the request, where `parv` starts with `parv[1]`. -/
def GlineCommand.request (time : Int) : GlineCommand → Option GlineRequest
  | .mine isOper operGline username host server parv =>
    if !isOper || !operGline then none
    else
      match parv, server with
      | mask :: reason :: _, some server =>
        match glineMask mask with
        | none => none
        | some (luser, lhost) =>
          let luser := strncpyIrc luser (userLen + 1)
          let lhost := strncpyIrc lhost hostLen
          if invalidWildcard luser lhost || invalidGline luser lhost reason then none
          else some
            { operUser := username
              operHost := host
              operServer := server
              user := luser
              host := lhost
              time := time }
      | _, _ => none
  | .link isServer parv =>
    if !isServer then none
    else
      match parv with
      | _ :: operUsername :: operHost :: operServer :: luser :: lhost :: reason :: _ =>
        if invalidWildcard luser lhost || invalidGline luser lhost reason then none
        else some
          { operUser := operUsername
            operHost := operHost
            operServer := operServer
            user := luser
            host := lhost
            time := time }
      | _ => none

/-- `GLINE_PENDING`; there is a second request where `oper_user2` is not empty. -/
structure GlinePending where
  operUser1 : CStr
  operHost1 : CStr
  operServer1 : CStr
  operUser2 : CStr
  operHost2 : CStr
  operServer2 : CStr
  lastGlineTime : Int
  user : CStr
  host : CStr
  deriving DecidableEq, Repr

structure Gline where
  name : CStr
  host : CStr
  hold : Int
  deriving DecidableEq, Repr

structure GlineState where
  pendingGlines : List GlinePending
  glines : List Gline
  /-- The names of `scache.c`. -/
  scache : List CStr

def findOrAdd (scache : List CStr) (name : CStr) : List CStr × CStr :=
  match scache.find? fun n => irccmp n name == .eq with
  | some n => (scache, n)
  | none => (strncpyIrc name hostLen :: scache, strncpyIrc name hostLen)

def Gline.covers (g : Gline) (host name : CStr) : Bool :=
  matchMask g.name name && matchMask g.host host

/-- `find_is_glined`: whether there is one, and the list without the expired ones before it. -/
def findIsGlined (now : Int) (host name : CStr) : List Gline → Bool × List Gline
  | [] => (false, [])
  | g :: glines =>
    if g.hold ≤ now then findIsGlined now host name glines
    else if g.covers host name then (true, g :: glines)
    else
      let (found, rest) := findIsGlined now host name glines
      (found, g :: rest)

def expirePendingGlines (now : Int) (glines : List Gline) :
    List GlinePending → List Gline × List GlinePending
  | [] => (glines, [])
  | p :: pending =>
    if p.lastGlineTime + glinePendingExpire ≤ now then expirePendingGlines now glines pending
    else
      let (found, glines) := findIsGlined now p.host p.user glines
      if found then expirePendingGlines now glines pending
      else
        let (glines, rest) := expirePendingGlines now glines pending
        (glines, p :: rest)

namespace GlineState

def newPending (r : GlineRequest) (server : CStr) : GlinePending where
  operUser1 := strncpyIrc r.operUser userLen
  operHost1 := strncpyIrc r.operHost hostLen
  operServer1 := server
  operUser2 := []
  operHost2 := []
  operServer2 := []
  lastGlineTime := r.time
  user := strncpyIrc r.user userLen
  host := strncpyIrc r.host hostLen

def addNewMajorityGline (s : GlineState) (r : GlineRequest) : GlineState :=
  let (scache, server) := findOrAdd s.scache r.operServer
  { s with pendingGlines := newPending r server :: s.pendingGlines, scache := scache }

inductive Ballot where
  | voted
  | second (p : GlinePending)
  | third
  deriving DecidableEq, Repr

def ballot (p : GlinePending) (r : GlineRequest) (server : CStr) : Ballot :=
  if (irccmp p.operUser1 r.operUser = .eq ∧ irccmp p.operHost1 r.operHost = .eq) ∨
      irccmp p.operServer1 r.operServer = .eq then .voted
  else if p.operUser2 ≠ [] then
    if (irccmp p.operUser2 r.operUser = .eq ∧ irccmp p.operHost2 r.operHost = .eq) ∨
        irccmp p.operServer2 r.operServer = .eq then .voted
    else .third
  else
    .second { p with
      operUser2 := strncpyIrc r.operUser userLen
      operHost2 := strncpyIrc r.operHost hostLen
      operServer2 := server
      lastGlineTime := r.time }

/-- The loop of `majority_gline`: the list with the request in it and what became of it, where
there is an entry for its mask. -/
def ballots (r : GlineRequest) (server : CStr) :
    List GlinePending → Option (List GlinePending × Ballot)
  | [] => none
  | p :: pending =>
    if irccmp p.user r.user = .eq ∧ irccmp p.host r.host = .eq then
      match ballot p r server with
      | .second p' => some (p' :: pending, .second p')
      | vote => some (p :: pending, vote)
    else (ballots r server pending).map fun (rest, vote) => (p :: rest, vote)

def majorityGline (s : GlineState) (r : GlineRequest) : GlineState × Bool :=
  if s.pendingGlines = [] then (s.addNewMajorityGline r, false)
  else
    let (glines, pending) := expirePendingGlines r.time s.glines s.pendingGlines
    let s := { s with glines := glines, pendingGlines := pending }
    let (scache, server) := findOrAdd s.scache r.operServer
    match ballots r server pending with
    | none => (s.addNewMajorityGline r, false)
    | some (_, .voted) => (s, false)
    | some (pending, .second _) =>
      ({ s with pendingGlines := pending, scache := scache }, false)
    | some (_, .third) =>
      let (found, glines) := findIsGlined r.time r.host r.user s.glines
      ({ s with glines := glines }, !found)

/-- The end of `m_gline`: the state, and whether the G-line was placed. -/
def mGline (s : GlineState) (r : GlineRequest) : GlineState × Bool :=
  let (s, placed) := s.majorityGline r
  if placed then
    let aconf : Gline := { name := r.user, host := r.host, hold := r.time + glineTime }
    ({ s with glines := aconf :: s.glines }, true)
  else (s, false)

def covered (s : GlineState) (r : GlineRequest) : Bool :=
  s.glines.any fun g => decide (r.time < g.hold) && g.covers r.host r.user

end GlineState

end Ircd
