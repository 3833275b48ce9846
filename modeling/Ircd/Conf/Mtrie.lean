import Ircd.Conf.IpKline

/-! The trie of I-lines and K-lines: `mtrie_conf.c`.

Host masks are cut at their dots and filed from the top level domain down. A level is the
list of its pieces in the order in which they were made; `pindex` selects those of one of
its 32 lists, and a pointer to a piece is the list from the piece on.
-/

set_option autoImplicit false

namespace Ircd

/-- The `flags` that the trie is asked for, `CONF_CLIENT` or `CONF_KILL`. -/
inductive ConfKind where
  | client
  | kill
  deriving DecidableEq, Repr

namespace ConfItem

def has (a : ConfItem) : ConfKind → Bool
  | .client => a.client
  | .kill => a.kill

def mark (a : ConfItem) : ConfKind → ConfItem
  | .client => { a with client := true }
  | .kill => { a with kill := true }

def matchesClient (a : ConfItem) (host user : CStr) : Bool := matchMask a.host host && matchMask a.user user

def sameMask (a : ConfItem) (host user : CStr) : Bool :=
  irccmp a.host host == .eq && irccmp a.user user == .eq

end ConfItem

structure Piece where
  hostPiece : CStr
  conf : Option ConfItem
  wildConf : Option ConfItem
  client : Bool
  kill : Bool

inductive DomainPiece where
  | mk (data : Piece) (nextLevel : List DomainPiece)

namespace DomainPiece

def data : DomainPiece → Piece
  | mk data _ => data

def nextLevel : DomainPiece → List DomainPiece
  | mk _ nextLevel => nextLevel

abbrev hostPiece (p : DomainPiece) : CStr := p.data.hostPiece

def has (p : DomainPiece) : ConfKind → Bool
  | .client => p.data.client
  | .kill => p.data.kill

def mark (p : DomainPiece) : ConfKind → DomainPiece
  | .client => mk { p.data with client := true } p.nextLevel
  | .kill => mk { p.data with kill := true } p.nextLevel

def setConf (p : DomainPiece) (a : ConfItem) : DomainPiece := mk { p.data with conf := some a } p.nextLevel

def setWildConf (p : DomainPiece) (a : ConfItem) : DomainPiece :=
  mk { p.data with wildConf := some a } p.nextLevel

def clearKill (p : DomainPiece) : DomainPiece := mk { p.data with kill := false } p.nextLevel

def blank (hostPiece : CStr) : DomainPiece :=
  mk { hostPiece, conf := none, wildConf := none, client := false, kill := false } []

end DomainPiece

abbrev DomainLevel := List DomainPiece

def pindex (hostPiece : CStr) : Nat := (hostPiece.headD '\x00').toNat % 32

def sameList (p : DomainPiece) (hostPiece : CStr) : Bool := pindex p.hostPiece == pindex hostPiece

def isPiece (hostPiece : CStr) (p : DomainPiece) : Bool :=
  sameList p hostPiece && irccmp p.hostPiece hostPiece == .eq

def splitDots : CStr → List CStr
  | [] => [[]]
  | c :: rest =>
    if c = '.' then [] :: splitDots rest
    else
      match splitDots rest with
      | [] => [[c]]
      | piece :: more => (c :: piece) :: more

/-- `tokenize_and_stack`: the pieces as they come off the stack, the last one first. -/
def tokenizeAndStack (host : CStr) : List CStr := (splitDots host).reverse

/-- The results of `sortable`: 0, -2, and -1 with the stack. -/
inductive Sortable where
  | unsortable
  | wild
  | stacked (pieces : List CStr)
  deriving DecidableEq, Repr

/-- `sortable` on a string that is not empty. Its first character is copied whatever it is. -/
def sortable (p : CStr) : Sortable :=
  if '?' ∈ p then .unsortable
  else if p = ['*'] then .wild
  else if '*' ∈ p.tail then .unsortable
  else
    match p with
    | [] => .stacked []
    | c :: rest =>
      match splitDots rest with
      | [] => .stacked [[c]]
      | piece :: more => .stacked ((c :: piece) :: more).reverse

/-- The first of a list that satisfies `q`, changed. -/
def modifyFirst {α : Type} (q : α → Bool) (f : α → α) : List α → List α
  | [] => []
  | a :: rest => if q a then f a :: rest else a :: modifyFirst q f rest

/-- `find_or_add_host_piece`: the level with the piece in it. -/
def findOrAddHostPiece (level : DomainLevel) (flags : ConfKind) (hostPiece : CStr) : DomainLevel :=
  if level.any (isPiece hostPiece) then modifyFirst (isPiece hostPiece) (·.mark flags) level
  else level ++ [(DomainPiece.blank hostPiece).mark flags]

/-- What the loop of `find_or_add_user_piece` does with a sibling that has the entry `found` of
the same user; the flag is whether the `CONF_KILL` of the first piece is cleared. -/
def meetFound (flags : ConfKind) (aconf found : ConfItem) : ConfItem × Bool :=
  let found := found.mark flags
  if found.eLined then ({ found with kill := false }, true)
  else if found.client then
    match flags with
    | .client => (found, false)
    | .kill => (aconf, false)
  else (found, false)

/-- The loop of `find_or_add_user_piece` over the siblings. -/
def seatUser (flags : ConfKind) (aconf : ConfItem) (hostPiece : CStr) :
    List DomainPiece → List DomainPiece × Bool
  | [] => ([(DomainPiece.blank hostPiece).setConf aconf], false)
  | ptr :: rest =>
    if !sameList ptr hostPiece then
      let (rest, clear) := seatUser flags aconf hostPiece rest
      (ptr :: rest, clear)
    else
      match ptr.data.conf with
      | none => (ptr.setConf (aconf.mark flags) :: rest, false)
      | some found =>
        if matchMask ptr.hostPiece hostPiece && irccmp found.user aconf.user == .eq then
          let (conf, clear) := meetFound flags aconf found
          (ptr.setConf conf :: rest, clear)
        else
          let (rest, clear) := seatUser flags aconf hostPiece rest
          (ptr :: rest, clear)

def seatWild (flags : ConfKind) (aconf : ConfItem) (piece : DomainPiece) : DomainPiece :=
  match piece.data.wildConf with
  | none => (piece.setWildConf (aconf.mark flags)).mark flags
  | some found =>
    if found.eLined then
      ((piece.setWildConf { found.mark flags with kill := false }).mark flags).clearKill
    else
      match flags with
      | .kill => (piece.setWildConf aconf).mark flags
      | .client => (piece.setWildConf (found.mark flags)).mark flags

/-- `find_or_add_user_piece` from the piece at the head of the list. -/
def findOrAddUserPiece (flags : ConfKind) (aconf : ConfItem) (hostPiece : CStr) :
    List DomainPiece → List DomainPiece
  | [] => []
  | piece :: later =>
    if aconf.user = lit "*" ∧ hostPiece.head? ≠ some '*' then
      seatWild flags aconf piece :: later
    else
      match seatUser flags aconf hostPiece (piece :: later) with
      | (first :: siblings, true) => first.clearKill :: siblings
      | (siblings, _) => siblings

/-- The list changed from its first element with `q` on. -/
def modifyFrom {α : Type} (q : α → Bool) (f : List α → List α) : List α → List α
  | [] => []
  | a :: rest => if q a then f (a :: rest) else a :: modifyFrom q f rest

def createSubMtrie (flags : ConfKind) (aconf : ConfItem) : List CStr → DomainLevel → DomainLevel
  | [], level => level
  | piece :: rest, level =>
    let level := findOrAddHostPiece level flags piece
    if rest = [] then modifyFrom (isPiece piece) (findOrAddUserPiece flags aconf piece) level
    else
      modifyFirst (isPiece piece)
        (fun p => .mk p.data (createSubMtrie flags aconf rest p.nextLevel)) level

/-- The static variables of `mtrie_conf.c` and the table of address K-lines. -/
structure Mtrie where
  trieList : DomainLevel
  unsortableListIlines : List ConfItem
  unsortableListKlines : List ConfItem
  wildCardIlines : List ConfItem
  ipILines : List ConfItem
  ipKlines : IpTable

namespace Mtrie

def empty : Mtrie where
  trieList := []
  unsortableListIlines := []
  unsortableListKlines := []
  wildCardIlines := []
  ipILines := []
  ipKlines := IpTable.empty

def lookInUnsortableIlines (s : Mtrie) (host user : CStr) : Option ConfItem :=
  s.unsortableListIlines.find? (·.matchesClient host user)

def lookInUnsortableKlines (s : Mtrie) (host user : CStr) : Option ConfItem :=
  s.unsortableListKlines.find? (·.matchesClient host user)

def findWildCardIline (s : Mtrie) (user : CStr) : Option ConfItem :=
  s.wildCardIlines.find? fun a => matchMask a.user user

def findMatchingIpILine (s : Mtrie) (user : CStr) (ip : Nat) : Option ConfItem :=
  s.ipILines.find? fun a => ip &&& a.ipMask == a.ip && matchMask a.user user

def addUnsortableKline (s : Mtrie) (aconf : ConfItem) : Mtrie :=
  if s.unsortableListKlines.any (·.sameMask aconf.host aconf.user) then s
  else { s with unsortableListKlines := aconf :: s.unsortableListKlines }

def addMtrieConfEntry (s : Mtrie) (rand : Nat → Bool) (aconf : ConfItem) (flags : ConfKind) : Mtrie :=
  match isAddress aconf.host, aconf.kill with
  | some (ipHost, ipMask), true =>
    { s with ipKlines := addIpKline s.ipKlines rand { aconf with ip := ipHost &&& ipMask, ipMask } }
  | _, _ =>
    match sortable aconf.host with
    | .unsortable =>
      if aconf.client then
        if s.unsortableListIlines.any (·.sameMask aconf.host aconf.user) then s
        else { s with unsortableListIlines := aconf :: s.unsortableListIlines }
      else s.addUnsortableKline aconf
    | .wild =>
      if aconf.client then
        match s.findWildCardIline aconf.user with
        | some found =>
          if irccmp aconf.user found.user = .eq then s
          else { s with wildCardIlines := aconf :: s.wildCardIlines }
        | none => { s with wildCardIlines := aconf :: s.wildCardIlines }
      else s.addUnsortableKline aconf
    | .stacked pieces =>
      { s with trieList := createSubMtrie flags aconf pieces s.trieList }

def addIpIline (s : Mtrie) (aconf : ConfItem) : Mtrie := { s with ipILines := aconf :: s.ipILines }

end Mtrie

/-- `find_user_piece` from the piece at the head of the list. -/
def findUserPiece (flags : ConfKind) (hostPiece user : CStr) : List DomainPiece → Option ConfItem
  | [] => none
  | piece :: later =>
    let fits (ptr : DomainPiece) : Option ConfItem :=
      ptr.data.conf.filter fun aconf => sameList ptr hostPiece &&
        matchMask ptr.hostPiece hostPiece && aconf.has flags && matchMask aconf.user user
    match piece.data.wildConf with
    | some wild => some wild
    | none => ((piece :: later).filterMap fits).getLast?

/-- `find_host_piece`: the list from the piece on. -/
def findHostPiece (level : DomainLevel) (flags : ConfKind) (hostPiece : CStr) : List DomainPiece :=
  level.dropWhile fun p => !(isPiece hostPiece p && p.has flags)

/-- The entries that the inner loop of `find_wild_host_piece` takes from a piece. -/
def wildHits (flags : ConfKind) (hostPiece user : CStr) (pptr : DomainPiece) :
    Option ConfItem × Option ConfItem :=
  (pptr.data.conf.filter fun aconf =>
      aconf.has flags && matchMask pptr.hostPiece hostPiece && matchMask aconf.user user,
    pptr.data.wildConf.filter fun aconf => aconf.has flags && matchMask pptr.hostPiece hostPiece)

def scanWild (flags : ConfKind) (hostPiece user : CStr) (list : List DomainPiece) : Option ConfItem :=
  match (list.filterMap fun p => (wildHits flags hostPiece user p).2).getLast? with
  | some wild => some wild
  | none => (list.filterMap fun p => (wildHits flags hostPiece user p).1).getLast?

def wildLoop (flags : ConfKind) (hostPiece user : CStr) (found : Option ConfItem) :
    List DomainPiece → Option ConfItem
  | [] => found
  | ptr :: rest =>
    if matchMask ptr.hostPiece hostPiece && ptr.has flags then
      wildLoop flags hostPiece user (scanWild flags hostPiece user (ptr :: rest)) rest
    else wildLoop flags hostPiece user found rest

def findWildHostPiece (level : DomainLevel) (flags : ConfKind) (hostPiece user : CStr) :
    Option ConfItem :=
  wildLoop flags hostPiece user none (level.filter (sameList · (lit "*")))

/-- `last_found_iline_aconf`, and `first_kline_trie_list` with the stack as it was there. -/
structure Search where
  lastFoundIline : Option ConfItem
  firstKline : Option (DomainLevel × List CStr)

def findSubMtrie (host user : CStr) (flags : ConfKind) :
    List CStr → DomainLevel → Search → Option ConfItem × Search
  | [], _, s => (none, s)
  | piece :: rest, level, s =>
    let aconf := findWildHostPiece level flags piece user
    if flags = .kill ∧ aconf.any ConfItem.kill then (aconf, s)
    else
      let s := if flags = .kill then s else { s with lastFoundIline := aconf.or s.lastFoundIline }
      match findHostPiece level flags piece with
      | [] => (if flags = .kill then none else s.lastFoundIline, s)
      | curPiece :: siblings =>
        let s := if curPiece.data.kill ∧ s.firstKline.isNone then
          { s with firstKline := some (level, piece :: rest) } else s
        let aconfUser := findUserPiece flags piece user (curPiece :: siblings)
        if rest = [] then (aconfUser.or s.lastFoundIline, s)
        else if curPiece.nextLevel ≠ [] then findSubMtrie host user flags rest curPiece.nextLevel s
        else if aconfUser.any (fun a => matchMask a.host host) then (aconfUser, s)
        else ((findWildHostPiece level flags piece user).or s.lastFoundIline, s)

namespace Mtrie

/-- The I-line that `find_matching_mtrie_conf` settles for, if it finds one, and what the
search in the trie has left. -/
def findIline (s : Mtrie) (host user : CStr) (ip : Nat) : Option ConfItem × Search :=
  let start : Search := { lastFoundIline := none, firstKline := none }
  let unsortable := s.lookInUnsortableIlines host user
  let (inTrie, search) :=
    if s.trieList ≠ [] then findSubMtrie host user .client (tokenizeAndStack host) s.trieList start
    else (none, start)
  match unsortable.filter ConfItem.eLined with
  | some exempt => (some exempt, start)
  | none =>
    match inTrie.filter ConfItem.eLined with
    | some exempt => (some exempt, search)
    | none =>
      let byIp := if inTrie.isNone ∧ ip ≠ 0 then s.findMatchingIpILine user ip else none
      match byIp.filter ConfItem.eLined with
      | some exempt => (some exempt, search)
      | none => ((unsortable.or (inTrie.or byIp)).or (s.findWildCardIline user), search)

/-- The K-line search of `find_matching_mtrie_conf`. -/
def findKline (s : Mtrie) (host user : CStr) (ip : Nat) (search : Search) : Option ConfItem :=
  let inTrie :=
    if s.trieList ≠ [] then
      match search.firstKline with
      | some (level, stack) => (findSubMtrie host user .kill stack level search).1
      | none => (findSubMtrie host user .kill (tokenizeAndStack host) s.trieList search).1
    else none
  (inTrie.or (s.lookInUnsortableKlines host user)).or (matchIpKline s.ipKlines ip (some user))

def findMatchingMtrieConf (s : Mtrie) (host user : CStr) (ip : Nat) : Option ConfItem :=
  match s.findIline host user ip with
  | (none, _) => none
  | (some iline, search) =>
    if iline.eLined then some iline
    else (s.findKline host user ip search).or (some iline)

end Mtrie

end Ircd
