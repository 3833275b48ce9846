import Ircd.Channel.State
import Ircd.Server.Umode

/-! Configuration entries, their classes, and the entries that a client holds.

`cptr->confs` names the entries by which a client was let in. An entry counts the clients
that hold it and its class counts them over all entries, so `detach_conf` gives back both.
A freed entry or class keeps its address here and is listed as freed.
-/

set_option autoImplicit false

namespace Ircd

abbrev ConfId := Nat

abbrev ClassId := Nat

structure ConfClass where
  type : Int
  maxLinks : Int
  links : Int
  deriving DecidableEq, Repr

/-- The kind of an entry: the bits of `status` but `CONF_ILLEGAL`. -/
inductive ConfStatus where
  | client
  | connectServer
  | noconnectServer
  | locop
  | operator
  | other
  deriving DecidableEq, Repr

def ConfStatus.ops (kind : ConfStatus) : Bool := kind == .locop || kind == .operator

def ConfStatus.clientMask (kind : ConfStatus) : Bool := kind != .other

structure Conf where
  kind : ConfStatus
  /-- `CONF_ILLEGAL` -/
  illegal : Bool
  /-- `CONF_FLAGS_F_LINED` -/
  fLined : Bool
  /-- The local clients that hold it. -/
  clients : Int
  name : Option CStr
  host : Option CStr
  user : CStr
  passwd : CStr
  /-- `port` of an O-line: the privileges. -/
  privs : OperPriv → Bool
  /-- `hold` of an O-line: the modes, where it is not zero. -/
  hold : Option Umodes
  cClass : Option ClassId

/-- The bits of `flags2` that the entries grant, besides the privileges. -/
structure Grants where
  eLined : Bool
  fLined : Bool
  exemptGline : Bool
  deriving DecidableEq, Repr

structure ConfTables where
  conf : ConfId → Conf
  cls : ClassId → ConfClass
  configItemList : List ConfId
  /-- `cptr->confs` -/
  attached : ClientId → List ConfId
  grants : ClientId → Grants
  freedConfs : List ConfId
  freedClasses : List ClassId

namespace ConfTables

def setConf (t : ConfTables) (c : ConfId) (aconf : Conf) : ConfTables :=
  { t with conf := Function.update t.conf c aconf }

def setClass (t : ConfTables) (k : ClassId) (cl : ConfClass) : ConfTables :=
  { t with cls := Function.update t.cls k cl }

def setAttached (t : ConfTables) (cptr : ClientId) (confs : List ConfId) : ConfTables :=
  { t with attached := Function.update t.attached cptr confs }

def setGrants (t : ConfTables) (cptr : ClientId) (g : Grants) : ConfTables :=
  { t with grants := Function.update t.grants cptr g }

/-- `ConfLinks`; an entry that clients hold has a class. -/
def confLinks (t : ConfTables) (c : ConfId) : Int :=
  ((t.conf c).cClass.map fun k => (t.cls k).links).getD 0

def confMaxLinks (t : ConfTables) (c : ConfId) : Int :=
  ((t.conf c).cClass.map fun k => (t.cls k).maxLinks).getD 0

/-- The first half of `detach_conf`: the class of the entry loses a link, and goes if it
was marked for that and this was the last one. -/
def leaveClass (t : ConfTables) (c : ConfId) : ConfTables :=
  match (t.conf c).cClass with
  | none => t
  | some k =>
    let t :=
      if (t.conf c).kind.clientMask ∧ (t.cls k).links > 0 then
        t.setClass k { t.cls k with links := (t.cls k).links - 1 }
      else t
    if (t.cls k).maxLinks = -1 ∧ (t.cls k).links = 0 then
      { t.setConf c { t.conf c with cClass := none } with freedClasses := k :: t.freedClasses }
    else t

def dropClient (t : ConfTables) (c : ConfId) : ConfTables :=
  let clients := (t.conf c).clients - 1
  let t := t.setConf c { t.conf c with clients := clients }
  if clients = 0 ∧ (t.conf c).illegal then { t with freedConfs := c :: t.freedConfs } else t

def detachConf (t : ConfTables) (cptr : ClientId) (c : ConfId) : ConfTables :=
  if c ∈ t.attached cptr then
    ((t.leaveClass c).dropClient c).setAttached cptr ((t.attached cptr).erase c)
  else t

def detConfs (t : ConfTables) (cptr : ClientId) : ConfTables :=
  (t.attached cptr).foldl (fun t c => t.detachConf cptr c) t

/-- The second half of `attach_conf`, past its tests. -/
def link (t : ConfTables) (cptr : ClientId) (c : ConfId) : ConfTables :=
  let t := t.setAttached cptr (c :: t.attached cptr)
  let t := t.setConf c { t.conf c with clients := (t.conf c).clients + 1 }
  match (t.conf c).cClass with
  | some k =>
    if (t.conf c).kind.clientMask then t.setClass k { t.cls k with links := (t.cls k).links + 1 }
    else t
  | none => t

def attachConf (t : ConfTables) (cptr : ClientId) (c : ConfId) : ConfTables × Int :=
  if c ∈ t.attached cptr then (t, 1)
  else if (t.conf c).illegal then (t, -1)
  else if (t.conf c).kind = .client ∧ t.confLinks c ≥ t.confMaxLinks c ∧ t.confMaxLinks c > 0 then
    -- the class is full; an F-line lets the client in all the same
    if (t.conf c).fLined then
      ((t.setGrants cptr { t.grants cptr with fLined := true }).link cptr c, 0)
    else (t, -3)
  else (t.link cptr c, 0)

def findOpsConf (t : ConfTables) (name user host : CStr) : Option ConfId :=
  t.configItemList.find? fun c =>
    let tmp := t.conf c
    tmp.kind.ops && (match tmp.name, tmp.host with
      | some confName, some confHost =>
        irccmp confName name == .eq && matchMask confHost host && matchMask tmp.user user
      | _, _ => false) && decide (tmp.clients < t.confMaxLinks c)

@[simp] theorem leaveClass_attached (t : ConfTables) (c : ConfId) :
    (t.leaveClass c).attached = t.attached := by
  unfold leaveClass
  split
  · rfl
  · dsimp only
    split <;> split <;> rfl

@[simp] theorem leaveClass_grants (t : ConfTables) (c : ConfId) :
    (t.leaveClass c).grants = t.grants := by
  unfold leaveClass
  split
  · rfl
  · dsimp only
    split <;> split <;> rfl

@[simp] theorem dropClient_attached (t : ConfTables) (c : ConfId) :
    (t.dropClient c).attached = t.attached := by
  unfold dropClient
  dsimp only
  split <;> rfl

@[simp] theorem dropClient_grants (t : ConfTables) (c : ConfId) :
    (t.dropClient c).grants = t.grants := by
  unfold dropClient
  dsimp only
  split <;> rfl

theorem detachConf_attached (t : ConfTables) (cptr : ClientId) (c : ConfId) :
    (t.detachConf cptr c).attached =
      Function.update t.attached cptr ((t.attached cptr).erase c) := by
  unfold detachConf
  split
  · simp [setAttached]
  · next absent => rw [List.erase_of_not_mem absent, Function.update_eq_self]

@[simp] theorem detachConf_grants (t : ConfTables) (cptr : ClientId) (c : ConfId) :
    (t.detachConf cptr c).grants = t.grants := by
  unfold detachConf
  split
  · simp [setAttached]
  · rfl

@[simp] theorem link_attached (t : ConfTables) (cptr : ClientId) (c : ConfId) :
    (t.link cptr c).attached = Function.update t.attached cptr (c :: t.attached cptr) := by
  unfold link
  dsimp only
  split
  · split <;> rfl
  · rfl

@[simp] theorem link_grants (t : ConfTables) (cptr : ClientId) (c : ConfId) :
    (t.link cptr c).grants = t.grants := by
  unfold link
  dsimp only
  split
  · split <;> rfl
  · rfl

theorem attachConf_attached {t : ConfTables} {cptr : ClientId} {c : ConfId}
    (accepted : (t.attachConf cptr c).2 = 0) :
    (t.attachConf cptr c).1.attached = Function.update t.attached cptr (c :: t.attached cptr) := by
  unfold attachConf at accepted ⊢
  split
  · simp_all
  · split
    · simp_all
    · simp_all only [if_false]
      split
      · split
        · simp [setGrants]
        · simp_all
      · simp

theorem attachConf_grants {t : ConfTables} {cptr : ClientId} {c : ConfId}
    (kind : (t.conf c).kind ≠ .client) : (t.attachConf cptr c).1.grants = t.grants := by
  unfold attachConf
  split
  · rfl
  · split
    · rfl
    · simp [kind]

end ConfTables

end Ircd
