import Ircd.Text.CString
import Mathlib.Logic.Function.Basic

/-! User modes: the bits of `umodes`, their letters, and the operator privileges of `flags2`. -/

set_option autoImplicit false

namespace Ircd

/-- The settable bits of `umodes`, without the prefix `FLAGS_`. -/
inductive Umode where
  | servnotice
  | cconn
  | rej
  | skill
  | full
  | spy
  | debug
  | nchange
  | wallop
  | operwall
  | invisible
  | bots
  | external
  | oper
  | locop
  | statsphide
  | admin
  | ospylog
  | unidle
  | locops
  deriving DecidableEq, Repr

/-- The bits of `FLAGS2_OPER_FLAGS`. -/
inductive OperPriv where
  | globalKill
  | remote
  | unkline
  | gline
  | n
  | k
  | die
  | rehash
  | statsphide
  | admin
  | ospylog
  | unidle
  deriving DecidableEq, Repr

abbrev Umodes := Umode → Bool

def Umodes.none : Umodes := fun _ => false

def Umodes.join (m flags : Umodes) : Umodes := fun f => m f || flags f

def Umodes.ofList (flags : List Umode) : Umodes := fun f => flags.contains f

def Umodes.isAnOper (m : Umodes) : Bool := m .oper || m .locop

def userModes : List (Umode × Char) :=
  [(.admin, 'a'), (.bots, 'b'), (.cconn, 'c'), (.debug, 'd'), (.full, 'f'), (.invisible, 'i'),
   (.skill, 'k'), (.locops, 'l'), (.nchange, 'n'), (.oper, 'o'), (.locop, 'O'),
   (.statsphide, 'p'), (.rej, 'r'), (.servnotice, 's'), (.unidle, 'u'), (.wallop, 'w'),
   (.external, 'x'), (.spy, 'y'), (.operwall, 'z'), (.ospylog, 'Z')]

def umodeOfLetter : Char → Option Umode
  | 'O' => some .locop
  | 'Z' => some .ospylog
  | 'a' => some .admin
  | 'b' => some .bots
  | 'c' => some .cconn
  | 'd' => some .debug
  | 'f' => some .full
  | 'i' => some .invisible
  | 'k' => some .skill
  | 'l' => some .locops
  | 'n' => some .nchange
  | 'o' => some .oper
  | 'p' => some .statsphide
  | 'r' => some .rej
  | 's' => some .servnotice
  | 'u' => some .unidle
  | 'w' => some .wallop
  | 'x' => some .external
  | 'y' => some .spy
  | 'z' => some .operwall
  | _ => none

def sendUmodes : Umodes := .ofList [.invisible, .oper, .wallop]

def allUmodes : Umodes := .ofList [.invisible, .oper, .wallop, .servnotice, .cconn, .rej, .skill,
  .full, .spy, .nchange, .operwall, .debug, .bots, .external, .locop, .statsphide, .admin,
  .ospylog, .unidle, .locops]

def adminUmodes : Umodes :=
  .ofList [.oper, .wallop, .servnotice, .spy, .operwall, .debug, .bots, .admin, .locops]

def operUmodes : Umodes :=
  .ofList [.oper, .wallop, .servnotice, .spy, .operwall, .debug, .bots, .locops]

def locopUmodes : Umodes := .ofList [.locop, .wallop, .servnotice, .spy, .debug, .bots, .locops]

/-- The loop of `send_umode`: the letters by which `new` differs from `old`, with a sign
where it changes; `what` is the sign written last. -/
def umodeDiff (mine : Bool) (old new sendmask : Umodes) :
    List (Umode × Char) → Option Bool → CStr
  | [], _ => []
  | (flag, letter) :: rest, what =>
    if mine && !sendmask flag then umodeDiff mine old new sendmask rest what
    else if old flag && !new flag then
      (if what = some false then [letter] else ['-', letter]) ++
        umodeDiff mine old new sendmask rest (some false)
    else if !old flag && new flag then
      (if what = some true then [letter] else ['+', letter]) ++
        umodeDiff mine old new sendmask rest (some true)
    else umodeDiff mine old new sendmask rest what

/-- What `send_umode` writes into its buffer; `mine` is `MyClient(sptr)`. -/
def umodeBuf (mine : Bool) (old new sendmask : Umodes) : CStr :=
  umodeDiff mine old new sendmask userModes none

end Ircd
