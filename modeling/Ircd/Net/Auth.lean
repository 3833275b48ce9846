import Ircd.Channel.Store
import Ircd.Conf.File
import Ircd.Lib.Chain
import Ircd.Lib.Machine
import Ircd.Text.Number
import Mathlib.Data.List.Infix

/-! `s_auth.c`, with `dns_do_callbacks` of `adns.c` and the loop over the auth sockets in
`read_message`.

Requests are blocks in a memory, in two doubly linked lists. `live` are the blocks that
have not been freed, and `fault` records an access to any other or through a null pointer.
`outstanding` are the queries that the resolver has yet to answer.
-/

set_option autoImplicit false

namespace Ircd

abbrev AuthId := Nat
abbrev AuthClientId := Nat
abbrev QueryId := Nat

def authConnectTimeout : Int := 30

/-- `struct AuthRequest`; the flags are `AM_AUTH_CONNECTING`, `AM_AUTH_PENDING` and
`AM_DNS_PENDING`. -/
structure AuthRequest where
  next : Option AuthId
  prev : Option AuthId
  client : AuthClientId
  authConnecting : Bool
  authPending : Bool
  dnsPending : Bool
  fd : Int
  timeout : Int

/-- `HeaderMessages`. -/
inductive ReportType where
  | doDns
  | finDns
  | failDns
  | doId
  | finId
  | failId
  | hostTooLong
  deriving DecidableEq, Repr

/-- The fields of `struct Client` that the auth stage works on, the notices that it has sent
and how often the client has been released. -/
structure AuthClient where
  host : CStr
  sockhost : CStr
  username : CStr
  gotId : Bool
  since : Int
  dnsQuery : Option QueryId
  notices : List ReportType
  released : Nat

/-- `struct DNSQuery`; `query` says that the pointer into the resolver is set. -/
structure DnsQuery where
  ptr : AuthId
  query : Bool

structure AuthState where
  request : AuthId → AuthRequest
  live : List AuthId
  authPollList : Option AuthId
  authIncompleteList : Option AuthId
  client : AuthClientId → AuthClient
  started : List AuthClientId
  dnsQuery : QueryId → DnsQuery
  outstanding : List QueryId
  currentTime : Int
  fault : Bool

inductive AuthList where
  | poll
  | incomplete
  deriving DecidableEq, Repr

def AuthRequest.doingAuth (r : AuthRequest) : Bool := r.authPending || r.authConnecting

namespace AuthState

def touch (s : AuthState) (auth : AuthId) : AuthState :=
  { s with fault := s.fault || !s.live.contains auth }

def setRequest (s : AuthState) (auth : AuthId) (r : AuthRequest) : AuthState :=
  { s.touch auth with request := Function.update s.request auth r }

def setClient (s : AuthState) (c : AuthClientId) (cl : AuthClient) : AuthState :=
  { s with client := Function.update s.client c cl }

def head (s : AuthState) : AuthList → Option AuthId
  | .poll => s.authPollList
  | .incomplete => s.authIncompleteList

def setHead (s : AuthState) (list : AuthList) (p : Option AuthId) : AuthState :=
  match list with
  | .poll => { s with authPollList := p }
  | .incomplete => { s with authIncompleteList := p }

def sendheader (s : AuthState) (c : AuthClientId) (r : ReportType) : AuthState :=
  s.setClient c { s.client c with notices := (s.client c).notices ++ [r] }

/-- `make_auth_request` in a block that `malloc` has found. -/
def makeAuthRequest (s : AuthState) (client : AuthClientId) (auth : AuthId) : AuthState :=
  { s with
    live := auth :: s.live
    request := Function.update s.request auth
      { next := none, prev := none, client, authConnecting := false, authPending := false
        dnsPending := false, fd := -1, timeout := s.currentTime + authConnectTimeout } }

def freeAuthRequest (s : AuthState) (auth : AuthId) : AuthState :=
  { s.touch auth with live := s.live.erase auth }

/-- The write to `prev` through a pointer, unless it is null. -/
def setPrev (s : AuthState) (p : Option AuthId) (prev : Option AuthId) : AuthState :=
  match p with
  | none => s
  | some b => s.setRequest b { s.request b with prev }

def unlinkAuthRequest (s : AuthState) (auth : AuthId) (list : AuthList) : AuthState :=
  let s := s.touch auth
  let r := s.request auth
  let s := s.setPrev r.next r.prev
  match r.prev with
  | none => s.setHead list r.next
  | some prev => s.setRequest prev { s.request prev with next := r.next }

def linkAuthRequest (s : AuthState) (auth : AuthId) (list : AuthList) : AuthState :=
  let first := s.head list
  let s := s.setRequest auth { s.request auth with prev := none, next := first }
  (s.setPrev first (some auth)).setHead list (some auth)

/-- `release_auth_client`: the tables of the main loop are not modelled. -/
def releaseAuthClient (s : AuthState) (c : AuthClientId) : AuthState :=
  s.setClient c { s.client c with released := (s.client c).released + 1 }

/-- `delete_adns_queries` and the line behind it, through `client->dns_query`. -/
def deleteAdnsQueries (s : AuthState) (c : AuthClientId) : AuthState :=
  match (s.client c).dnsQuery with
  | none => { s with fault := true }
  | some q =>
    let s := if (s.dnsQuery q).query then { s with outstanding := s.outstanding.erase q } else s
    { s with dnsQuery := Function.update s.dnsQuery q { s.dnsQuery q with query := false } }

def finish (s : AuthState) (auth : AuthId) (list : AuthList) : AuthState :=
  let s := s.releaseAuthClient (s.request auth).client
  (s.unlinkAuthRequest auth list).freeAuthRequest auth

/-- The name of a reply that has one, in `auth_dns_callback`. -/
def tookAnswer (s : AuthState) (c : AuthClientId) (reply : Option CStr) : AuthState :=
  match reply with
  | some host =>
    if host.length < hostLen then
      (s.setClient c { s.client c with host }).sendheader c .finDns
    else s.sendheader c .hostTooLong
  | none => (s.setClient c { s.client c with host := (s.client c).sockhost }).sendheader c .failDns

def authDnsCallback (s : AuthState) (auth : AuthId) (reply : Option CStr) : AuthState :=
  let s := s.setRequest auth { s.request auth with dnsPending := false }
  let c := (s.request auth).client
  let s := s.tookAnswer c reply
  let s := s.setClient c
    { s.client c with dnsQuery := none, host := (s.client c).host.take hostLen }
  if (s.request auth).doingAuth then s else s.finish auth .incomplete

def dnsDoCallback (s : AuthState) (q : QueryId) (reply : Option CStr) : AuthState :=
  let s := { s with
    outstanding := s.outstanding.erase q
    dnsQuery := Function.update s.dnsQuery q { s.dnsQuery q with query := false } }
  s.authDnsCallback (s.dnsQuery q).ptr reply

def leavePoll (s : AuthState) (auth : AuthId) : AuthState :=
  let s := s.unlinkAuthRequest auth .poll
  if (s.request auth).dnsPending then s.linkAuthRequest auth .incomplete
  else (s.releaseAuthClient (s.request auth).client).freeAuthRequest auth

def clearAuth (s : AuthState) (auth : AuthId) : AuthState :=
  s.setRequest auth
    { s.request auth with fd := -1, authPending := false, authConnecting := false }

def authError (s : AuthState) (auth : AuthId) : AuthState :=
  let s := s.clearAuth auth
  (s.sendheader (s.request auth).client .failId).leavePoll auth

/-- How far `start_auth_query` comes. -/
inductive QueryStart where
  | noSocket
  | tooManyFds
  | blocking
  | notBound
  | notConnected
  | connecting (fd : Nat)
  deriving DecidableEq, Repr

def startAuthQuery (s : AuthState) (auth : AuthId) : QueryStart → AuthState × Bool
  | .noSocket => (s, false)
  | .tooManyFds => (s, false)
  | .blocking => (s.sendheader (s.request auth).client .doId, false)
  | .notBound => (s.sendheader (s.request auth).client .doId, false)
  | .notConnected =>
    ((s.sendheader (s.request auth).client .doId).sendheader (s.request auth).client .failId, false)
  | .connecting fd =>
    let s := s.sendheader (s.request auth).client .doId
    (s.setRequest auth { s.request auth with fd, authConnecting := true }, true)

/-- `start_auth` up to the ident query: `auth` and `q` are the blocks that `malloc` finds,
`submitted` says that `adns_getaddr` has taken the query. -/
def askResolver (s : AuthState) (client : AuthClientId) (auth : AuthId) (q : QueryId)
    (submitted : Bool) : AuthState :=
  let s := s.makeAuthRequest client auth
  let s := { s with
    started := client :: s.started
    dnsQuery := Function.update s.dnsQuery q { ptr := auth, query := submitted } }
  let s := s.setClient client { s.client client with dnsQuery := some q }
  let s := s.sendheader client .doDns
  if submitted then
    { s with outstanding := q :: s.outstanding }.setRequest auth
      { s.request auth with dnsPending := true }
  else s

def startAuth (s : AuthState) (client : AuthClientId) (auth : AuthId) (q : QueryId)
    (submitted : Bool) (start : QueryStart) : AuthState :=
  let (s, asked) := (s.askResolver client auth q submitted).startAuthQuery auth start
  if asked then s.linkAuthRequest auth .poll
  else if (s.request auth).dnsPending then s.linkAuthRequest auth .incomplete
  else (s.freeAuthRequest auth).releaseAuthClient client

/-- What comes of the write in `send_auth_query`. -/
inductive AuthWrite where
  | nameError
  | sendError
  | again
  | sent
  deriving DecidableEq, Repr

def sendAuthQuery (s : AuthState) (auth : AuthId) : AuthWrite → AuthState
  | .nameError => s.authError auth
  | .sendError => s.authError auth
  | .again => s
  | .sent => s.setRequest auth { s.request auth with authConnecting := false, authPending := true }

def getValidIdent (buf : CStr) : Option CStr := do
  let (ports, rest) ← cutAt ':' (cString buf)
  let (reply, rest) ← cutAt ':' rest
  let (remote, local_) ← cutAt ',' ports
  if atoi remote = 0 then none
  else if atoi local_ = 0 then none
  else if ¬ lit "USERID" <:+: reply then none
  else
    let (_, user) ← cutAt ':' rest
    some user

/-- The loop of `read_auth_reply` over the user name. -/
def takeIdent (s : CStr) : CStr :=
  ((s.takeWhile (· != '@')).filter fun c => !isSpace c && c != ':').take userLen

/-- What `recv` gives in `read_auth_reply`: bytes, none at the end or on an error, or `EAGAIN`. -/
inductive AuthRead where
  | data (buf : CStr)
  | closed
  | again
  deriving DecidableEq, Repr

def tookReply (s : AuthState) (auth : AuthId) (ident : Option CStr) : AuthState :=
  let c := (s.request auth).client
  let s :=
    match ident with
    | some user => s.setClient c { s.client c with username := takeIdent user }
    | none => s
  let s := s.clearAuth auth
  let s :=
    match ident with
    | none => s.setClient c { s.client c with username := lit "unknown" }
    | some _ =>
      let s := s.sendheader c .finId
      s.setClient c { s.client c with gotId := true }
  s.leavePoll auth

def readAuthReply (s : AuthState) (auth : AuthId) : AuthRead → AuthState
  | .data buf => s.tookReply auth (getValidIdent buf)
  | .closed => s.tookReply auth none
  | .again => s

/-- What happens to the socket of a request, if anything: the write that it gets while it
connects, the read that it gets later. -/
structure AuthReady where
  write : AuthWrite
  read : AuthRead

def authTurn (s : AuthState) (auth : AuthId) (ready : Option AuthReady) : AuthState :=
  match ready with
  | none => s
  | some ready =>
    if (s.request auth).authConnecting then s.sendAuthQuery auth ready.write
    else s.readAuthReply auth ready.read

/-- A loop over a list that looks at `next` before each turn. -/
def overList (turn : AuthState → AuthId → AuthState) : Nat → Option AuthId → AuthState → AuthState
  | 0, _, s => s
  | _ + 1, none, s => s
  | fuel + 1, some auth, s =>
    let s := s.touch auth
    let authNext := (s.request auth).next
    overList turn fuel authNext (turn s auth)

/-- The loop over `AuthPollList` in `read_message`; there are no more turns than requests. -/
def readMessage (s : AuthState) (ready : AuthId → Option AuthReady) : AuthState :=
  overList (fun s auth => s.authTurn auth (ready auth)) (s.live.length + 1) s.authPollList s

/-- A request of `AuthPollList` in `timeout_auth_queries`. -/
def timeoutPoll (now : Int) (s : AuthState) (auth : AuthId) : AuthState :=
  if (s.request auth).timeout < s.currentTime then
    let c := (s.request auth).client
    let s := s.sendheader c .failId
    let s := if (s.request auth).dnsPending then (s.deleteAdnsQueries c).sendheader c .failDns else s
    let s := s.setClient c { s.client c with since := now }
    s.finish auth .poll
  else s

def timeoutIncomplete (now : Int) (s : AuthState) (auth : AuthId) : AuthState :=
  if (s.request auth).timeout < s.currentTime then
    let c := (s.request auth).client
    let s := (s.deleteAdnsQueries c).sendheader c .failDns
    let s := s.setClient c { s.client c with since := now }
    s.finish auth .incomplete
  else s

def timeoutAuthQueries (s : AuthState) (now : Int) : AuthState :=
  let s := overList (timeoutPoll now) (s.live.length + 1) s.authPollList s
  overList (timeoutIncomplete now) (s.live.length + 1) s.authIncompleteList s

/-- What can happen to the auth stage: a connection comes, the resolver answers a query, a pass
of the main loop looks at the sockets, the timeouts are checked, time goes by. -/
inductive AuthEvent where
  | start (client : AuthClientId) (auth : AuthId) (q : QueryId) (submitted : Bool)
      (start : QueryStart)
  | answer (q : QueryId) (reply : Option CStr)
  | io (ready : AuthId → Option AuthReady)
  | timeout (now : Int)
  | clock (time : Int)

def handle (s : AuthState) : AuthEvent → AuthState
  | .start client auth q submitted start => s.startAuth client auth q submitted start
  | .answer q reply => s.dnsDoCallback q reply
  | .io ready => s.readMessage ready
  | .timeout now => s.timeoutAuthQueries now
  | .clock time => { s with currentTime := time }

def machine : Machine AuthState AuthEvent := ⟨handle⟩

/-- A connection is new, `malloc` finds blocks that are not in use, and the resolver answers
what it has been asked, once, and nothing that has been cancelled. -/
def Allowed (s : AuthState) : AuthEvent → Prop
  | .start client auth q _ _ => client ∉ s.started ∧ auth ∉ s.live ∧ q ∉ s.outstanding
  | .answer q _ => q ∈ s.outstanding
  | _ => True

instance (s : AuthState) (e : AuthEvent) : Decidable (s.Allowed e) :=
  match e with
  | .start client auth q _ _ =>
    inferInstanceAs (Decidable (client ∉ s.started ∧ auth ∉ s.live ∧ q ∉ s.outstanding))
  | .answer q _ => inferInstanceAs (Decidable (q ∈ s.outstanding))
  | .io _ => isTrue trivial
  | .timeout _ => isTrue trivial
  | .clock _ => isTrue trivial

structure Unused (s : AuthState) : Prop where
  live : s.live = []
  poll : s.authPollList = none
  incomplete : s.authIncompleteList = none
  started : s.started = []
  released : ∀ c, (s.client c).released = 0
  outstanding : s.outstanding = []
  fault : s.fault = false

end AuthState

end Ircd
