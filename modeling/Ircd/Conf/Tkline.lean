import Ircd.Conf.Gline
import Ircd.Conf.Mtrie
import Ircd.Conf.Unkline
import Ircd.Text.Glob

/-! Temporary K-lines: `m_kline` with a duration, `add_temp_kline` and `find_tkline`.

An entry whose address is 0 hangs in the list of the host masks, whatever its mask was. The
address of the others is compared as it was typed with the masked one of the client.
-/

set_option autoImplicit false

namespace Ircd

structure Tkline extends TempKline where
  hold : Int
  deriving DecidableEq, Repr

namespace Tkline

def live (now : Int) (k : Tkline) : Bool := decide (now < k.hold)

def userHit (k : Tkline) (user : Option CStr) : Bool := user.all (matchMask k.user)

def hostHit (k : Tkline) (host user : Option CStr) : Bool :=
  k.userHit user && host.all (matchMask k.host)

def ipHit (k : Tkline) (user : Option CStr) (ip : Nat) : Bool :=
  k.userHit user && (k.ip != 0 && ip &&& k.ipMask == k.ip)

end Tkline

/-- The loop: `kept` hangs before `cur_p`, and `last_p` is the last of it. -/
def expireLoop (now : Int) (kept : List Tkline) : List Tkline → List Tkline
  | [] => kept
  | cur :: rest =>
    -- `last_p->next`, or the root, takes the entry behind this one.
    if cur.hold ≤ now then expireLoop now kept rest
    else expireLoop now (kept ++ [cur]) rest

def expireTempKlines (now : Int) (tklines : List Tkline) : List Tkline := expireLoop now [] tklines

theorem expireLoop_eq (now : Int) (kept rest : List Tkline) :
    expireLoop now kept rest = kept ++ rest.filter (Tkline.live now) := by
  induction rest generalizing kept with
  | nil => rw [expireLoop, List.filter_nil, List.append_nil]
  | cons cur rest ih =>
    rw [expireLoop]
    split
    · next ended =>
      have dead : ¬ cur.live now = true := by
        rw [Tkline.live, decide_eq_true_eq]
        omega
      rw [ih, List.filter_cons_of_neg dead]
    · next holds =>
      have live : cur.live now = true := by
        rw [Tkline.live, decide_eq_true_eq]
        omega
      rw [ih, List.filter_cons_of_pos live, List.append_assoc, List.singleton_append]

theorem expireTempKlines_eq (now : Int) (tklines : List Tkline) :
    expireTempKlines now tklines = tklines.filter (Tkline.live now) := expireLoop_eq now [] tklines

/-- `isnumber`: 0 for what is not a number, 1 for the number 0. -/
def isNumber (p : CStr) : Int :=
  if p.all isDigit then
    let result := p.foldl (fun (r : Int) c => (r * 10 + (c.toNat % 16 : Nat)).bmod (2 ^ 32)) 0
    if result = 0 then 1 else result
  else 0

/-- Whom the command names: a mask, or the client that `find_chasing` has found, with what
`cluster` makes of its host. -/
inductive KlineTarget where
  | mask (argv : CStr)
  | client (username clustered : CStr)

def KlineTarget.userHost : KlineTarget → CStr × CStr
  | .mask argv =>
    let user := if argv.contains '@' then argv.takeWhile (· != '@') else ['*']
    let host := if argv.contains '@' then (argv.dropWhile (· != '@')).tail else argv
    let host := if host = [] then ['*'] else host
    let user := if user = [] then ['*'] else user
    (user.take (userLen + 1), host.take hostLen)
  | .client username clustered =>
    ('*' :: (if username.head? = some '~' then username.tail else username), clustered)

def cidrFormHost (host : CStr) : CStr :=
  let cidr := host.take 32
  if cidr.contains '*' then cidr.takeWhile (· != '*') ++ lit "0/24" else cidr

structure AskedKline where
  user : CStr
  host : CStr
  until_ : Int
  deriving DecidableEq, Repr

def AskedKline.conf (b : AskedKline) : Tkline :=
  match isAddress b.host with
  | some (ip, ipMask) =>
    { user := b.user, host := cidrFormHost b.host, ip := ip, ipMask := ipMask, hold := b.until_ }
  | none => { user := b.user, host := b.host, ip := 0, ipMask := 0, hold := b.until_ }

/-- The two lists, `CurrentTime`, the other bans and `MAXTKLINE`. `inserted` is a record of
what `add_temp_kline` has taken, the newest in front. -/
structure TklineState where
  temporaryKlines : List Tkline
  temporaryIpKlines : List Tkline
  currentTime : Int
  mtrie : Mtrie
  maxTkline : Int
  inserted : List AskedKline

/-- What `is_klined` has found. -/
inductive KlineFound where
  | temporary (k : Tkline)
  | permanent (a : ConfItem)

inductive KlineOutcome where
  /-- Invalid character '#' in hostname. -/
  | invalidHost
  /-- Invalid character '#' in username. -/
  | invalidUser
  /-- Fewer than `NONWILDCHARS` characters of the masks are not wild. -/
  | tooWild
  | already (found : KlineFound)
  | added (asked : AskedKline)
  /-- There is no duration, and the K-line is a permanent one. -/
  | permanent

namespace TklineState

def findTkline (st : TklineState) (host user : Option CStr) (ip : Nat) :
    TklineState × Option Tkline :=
  let st := { st with temporaryKlines := expireTempKlines st.currentTime st.temporaryKlines }
  match st.temporaryKlines.find? (·.hostHit host user) with
  | some cur => (st, some cur)
  | none =>
    let st := { st with
      temporaryIpKlines := expireTempKlines st.currentTime st.temporaryIpKlines }
    (st, st.temporaryIpKlines.find? (·.ipHit user ip))

def addTempKline (st : TklineState) (aconf : Tkline) : TklineState :=
  if aconf.ip = 0 then { st with temporaryKlines := aconf :: st.temporaryKlines }
  else { st with temporaryIpKlines := aconf :: st.temporaryIpKlines }

def isKlined (st : TklineState) (host name : CStr) (ip : Nat) : TklineState × Option KlineFound :=
  match st.findTkline (some host) (some name) ip with
  | (st, some k) => (st, some (.temporary k))
  | (st, none) =>
    (st, ((st.mtrie.findMatchingMtrieConf host name ip).filter ConfItem.kill).map .permanent)

def minutes (st : TklineState) (time : CStr) : Int :=
  if isNumber time = 0 then 0 else min (isNumber time) st.maxTkline

/-- `m_kline` of a local operator that may set K-lines. -/
def mKline (st : TklineState) (time : CStr) (target : KlineTarget) : TklineState × KlineOutcome :=
  let (user, host) := target.userHost
  if st.minutes time = 0 then (st, .permanent)
  else if host.contains '#' then (st, .invalidHost)
  else if user.contains '#' then (st, .invalidUser)
  else if invalidWildcard user host then (st, .tooWild)
  else
    let asked := { user := user, host := host, until_ := st.currentTime + st.minutes time * 60 }
    let aconf := asked.conf
    match st.isKlined aconf.host user aconf.ip with
    | (st, some found) => (st, .already found)
    | (st, none) => ({ st.addTempKline aconf with inserted := asked :: st.inserted }, .added asked)

end TklineState

inductive TklineEvent where
  | passes (seconds : Nat)
  | kline (time : CStr) (target : KlineTarget)
  | lookup (host user : Option CStr) (ip : Nat)

namespace TklineState

def event (st : TklineState) : TklineEvent → TklineState
  | .passes seconds => { st with currentTime := st.currentTime + seconds }
  | .kline time target => (st.mKline time target).1
  | .lookup host user ip => (st.findTkline host user ip).1

def machine : Machine TklineState TklineEvent := { step := event }

def initial (currentTime : Int) (mtrie : Mtrie) (maxTkline : Int) : TklineState where
  temporaryKlines := []
  temporaryIpKlines := []
  currentTime := currentTime
  mtrie := mtrie
  maxTkline := maxTkline
  inserted := []

end TklineState

namespace AskedKline

def live (now : Int) (b : AskedKline) : Bool := decide (now < b.until_)

/-- Its user mask matches, and its range has the address or, without one, its host mask
matches. -/
def covers (b : AskedKline) (host user : CStr) (ip : Nat) : Bool :=
  matchMask b.user user &&
    match isAddress b.host with
    | some (range, mask) => ip &&& mask == range &&& mask
    | none => matchMask b.host host

def aligned (b : AskedKline) : Bool :=
  (isAddress b.host).all fun range => range.1 != 0 && range.1 &&& range.2 == range.1

def hits (b : AskedKline) (host user : CStr) (ip : Nat) : Bool :=
  if b.conf.ip = 0 then b.conf.hostHit (some host) (some user) else b.conf.ipHit (some user) ip

@[simp] theorem conf_user (b : AskedKline) : b.conf.user = b.user := by
  unfold conf
  split <;> rfl

@[simp] theorem conf_live (b : AskedKline) (now : Int) : b.conf.live now = b.live now := by
  have same : b.conf.hold = b.until_ := by
    unfold conf
    split <;> rfl
  rw [Tkline.live, live, same]

theorem conf_range {b : AskedKline} {ip ipMask : Nat}
    (range : isAddress b.host = some (ip, ipMask)) :
    b.conf.ip = ip ∧ b.conf.ipMask = ipMask ∧ b.conf.host = cidrFormHost b.host := by
  unfold conf
  rw [range]
  exact ⟨rfl, rfl, rfl⟩

theorem conf_mask {b : AskedKline} (mask : isAddress b.host = none) :
    b.conf.ip = 0 ∧ b.conf.host = b.host := by
  unfold conf
  rw [mask]
  exact ⟨rfl, rfl⟩

theorem hits_eq_covers {b : AskedKline} (aligned : b.aligned = true) (host user : CStr) (ip : Nat) :
    b.hits host user ip = b.covers host user ip := by
  unfold hits covers
  cases range : isAddress b.host with
  | none =>
    obtain ⟨zero, text⟩ := conf_mask range
    rw [if_pos zero, Tkline.hostHit, Tkline.userHit, text, conf_user]
    rfl
  | some address =>
    obtain ⟨addr, mask⟩ := address
    obtain ⟨atIp, atMask, -⟩ := conf_range range
    rw [AskedKline.aligned, range] at aligned
    have both : addr ≠ 0 ∧ addr &&& mask = addr := by simpa using aligned
    have nonzero : (addr != 0) = true := bne_iff_ne.mpr both.1
    rw [atIp, if_neg both.1, Tkline.ipHit, Tkline.userHit, atIp, atMask, conf_user]
    change (matchMask b.user user && (addr != 0 && ip &&& mask == addr)) =
      (matchMask b.user user && (ip &&& mask == addr &&& mask))
    rw [both.2, nonzero, Bool.true_and]

end AskedKline

namespace TklineState

variable {st : TklineState}

def filed (st : TklineState) (zero : Bool) : List Tkline :=
  (st.inserted.map AskedKline.conf).filter fun k => (k.ip == 0) == zero

structure Kept (st : TklineState) : Prop where
  hosts : st.temporaryKlines.filter (Tkline.live st.currentTime) =
    (st.filed true).filter (Tkline.live st.currentTime)
  ranges : st.temporaryIpKlines.filter (Tkline.live st.currentTime) =
    (st.filed false).filter (Tkline.live st.currentTime)

theorem filter_live_later (now : Int) (seconds : Nat) (tklines : List Tkline) :
    tklines.filter (Tkline.live (now + seconds)) =
      (tklines.filter (Tkline.live now)).filter (Tkline.live (now + seconds)) := by
  rw [List.filter_filter]
  apply List.filter_congr
  intro k _
  have sooner : k.live (now + seconds) = true → k.live now = true := by
    simp only [Tkline.live, decide_eq_true_eq]
    omega
  cases later : k.live (now + seconds) with
  | false => rfl
  | true => rw [sooner later, Bool.true_and]

theorem filter_live_twice (now : Int) (tklines : List Tkline) :
    (tklines.filter (Tkline.live now)).filter (Tkline.live now) =
      tklines.filter (Tkline.live now) := by
  rw [List.filter_filter]
  simp only [Bool.and_self]

theorem findTkline_cases (st : TklineState) (host user : Option CStr) (ip : Nat) :
    let hosts := st.temporaryKlines.filter (Tkline.live st.currentTime)
    let ranges := st.temporaryIpKlines.filter (Tkline.live st.currentTime)
    (∃ k, hosts.find? (·.hostHit host user) = some k ∧
      st.findTkline host user ip = ({ st with temporaryKlines := hosts }, some k)) ∨
    (hosts.find? (·.hostHit host user) = none ∧
      st.findTkline host user ip =
        ({ st with temporaryKlines := hosts, temporaryIpKlines := ranges },
          ranges.find? (·.ipHit user ip))) := by
  intro hosts ranges
  unfold findTkline
  simp only [expireTempKlines_eq]
  cases hit : (st.temporaryKlines.filter (Tkline.live st.currentTime)).find?
      (·.hostHit host user) with
  | some k => exact .inl ⟨k, rfl, rfl⟩
  | none => exact .inr ⟨rfl, rfl⟩

namespace Kept

theorem initial (currentTime : Int) (mtrie : Mtrie) (maxTkline : Int) :
    (initial currentTime mtrie maxTkline).Kept := ⟨rfl, rfl⟩

theorem passes (h : st.Kept) (seconds : Nat) :
    ({ st with currentTime := st.currentTime + seconds } : TklineState).Kept where
  hosts := by
    dsimp only
    rw [filter_live_later, h.hosts, ← filter_live_later]
    rfl
  ranges := by
    dsimp only
    rw [filter_live_later, h.ranges, ← filter_live_later]
    rfl

theorem findTkline (h : st.Kept) (host user : Option CStr) (ip : Nat) :
    (st.findTkline host user ip).1.Kept := by
  obtain ⟨k, -, same⟩ | ⟨-, same⟩ := st.findTkline_cases host user ip
  · rw [same]
    exact ⟨(filter_live_twice _ _).trans h.hosts, h.ranges⟩
  · rw [same]
    exact ⟨(filter_live_twice _ _).trans h.hosts, (filter_live_twice _ _).trans h.ranges⟩

theorem insert (h : st.Kept) (asked : AskedKline) :
    ({ st.addTempKline asked.conf with inserted := asked :: st.inserted } : TklineState).Kept := by
  have front : ∀ zero : Bool, (asked.conf.ip == 0) = zero →
      ∀ l : List Tkline, l.filter (Tkline.live st.currentTime) =
        (st.filed zero).filter (Tkline.live st.currentTime) →
      (asked.conf :: l).filter (Tkline.live st.currentTime) =
        ((asked.conf :: st.inserted.map AskedKline.conf).filter
          fun k => (k.ip == 0) == zero).filter (Tkline.live st.currentTime) := by
    intro zero side l same
    have taken : ((asked.conf.ip == 0) == zero) = true := beq_iff_eq.mpr side
    rw [List.filter_cons_of_pos (p := fun k : Tkline => (k.ip == 0) == zero) taken,
      List.filter_cons, List.filter_cons, same]
    rfl
  have other : ∀ zero : Bool, (asked.conf.ip == 0) ≠ zero →
      (asked.conf :: st.inserted.map AskedKline.conf).filter (fun k => (k.ip == 0) == zero) =
        st.filed zero := by
    intro zero side
    exact List.filter_cons_of_neg fun same => side (beq_iff_eq.mp same)
  unfold addTempKline
  split
  · next zero =>
    have side : (asked.conf.ip == 0) = true := beq_iff_eq.mpr zero
    refine ⟨front true side _ h.hosts, ?_⟩
    change _ = ((asked.conf :: _).filter _).filter _
    rw [other false (by rw [side]; decide)]
    exact h.ranges
  · next nonzero =>
    have side : (asked.conf.ip == 0) = false := beq_eq_false_iff_ne.mpr nonzero
    refine ⟨?_, front false side _ h.ranges⟩
    change _ = ((asked.conf :: _).filter _).filter _
    rw [other true (by rw [side]; decide)]
    exact h.hosts

theorem mKline (h : st.Kept) (time : CStr) (target : KlineTarget) :
    (st.mKline time target).1.Kept := by
  have asks : ∀ {host user : CStr} {ip : Nat} {asked : TklineState × Option KlineFound},
      st.isKlined host user ip = asked → asked.1.Kept := by
    intro host user ip asked same
    rw [← same]
    have looked := h.findTkline (some host) (some user) ip
    unfold isKlined
    split
    · next same => rwa [same] at looked
    · next same => rwa [same] at looked
  unfold TklineState.mKline
  dsimp only
  split
  · exact h
  split
  · exact h
  split
  · exact h
  split
  · exact h
  split
  · next same => exact asks same
  · next same => exact (asks same).insert _

theorem event (h : st.Kept) (e : TklineEvent) : (st.event e).Kept := by
  cases e with
  | passes seconds => exact h.passes seconds
  | kline time target => exact h.mKline time target
  | lookup host user ip => exact h.findTkline host user ip

theorem run (h : st.Kept) (es : List TklineEvent) : (machine.run st es).Kept :=
  Machine.run_keeps (fun _ e kept => kept.event e) h es

theorem mem_hosts (h : st.Kept) (k : Tkline) :
    k ∈ st.temporaryKlines.filter (Tkline.live st.currentTime) ↔
      ∃ b ∈ st.inserted, b.live st.currentTime = true ∧ b.conf.ip = 0 ∧ b.conf = k := by
  rw [h.hosts, filed]
  simp only [List.mem_filter, List.mem_map, beq_iff_eq, beq_true]
  constructor
  · rintro ⟨⟨⟨b, inserted, rfl⟩, zero⟩, live⟩
    exact ⟨b, inserted, b.conf_live _ ▸ live, zero, rfl⟩
  · rintro ⟨b, inserted, live, zero, rfl⟩
    exact ⟨⟨⟨b, inserted, rfl⟩, zero⟩, (b.conf_live _).trans live⟩

theorem mem_ranges (h : st.Kept) (k : Tkline) :
    k ∈ st.temporaryIpKlines.filter (Tkline.live st.currentTime) ↔
      ∃ b ∈ st.inserted, b.live st.currentTime = true ∧ b.conf.ip ≠ 0 ∧ b.conf = k := by
  rw [h.ranges, filed]
  simp only [List.mem_filter, List.mem_map, beq_false, Bool.not_eq_true', beq_eq_false_iff_ne]
  constructor
  · rintro ⟨⟨⟨b, inserted, rfl⟩, nonzero⟩, live⟩
    exact ⟨b, inserted, b.conf_live _ ▸ live, nonzero, rfl⟩
  · rintro ⟨b, inserted, live, nonzero, rfl⟩
    exact ⟨⟨⟨b, inserted, rfl⟩, nonzero⟩, (b.conf_live _).trans live⟩

theorem found_hits (h : st.Kept) {host user : CStr} {ip : Nat} {k : Tkline}
    (found : (st.findTkline (some host) (some user) ip).2 = some k) :
    ∃ b ∈ st.inserted,
      b.live st.currentTime = true ∧ b.conf = k ∧ b.hits host user ip = true := by
  obtain ⟨k', first, same⟩ | ⟨-, same⟩ := st.findTkline_cases (some host) (some user) ip
  · rw [same] at found
    obtain rfl := Option.some.inj found
    obtain ⟨b, inserted, live, zero, rfl⟩ :=
      (h.mem_hosts k').mp (List.mem_of_find?_eq_some first)
    refine ⟨b, inserted, live, rfl, ?_⟩
    rw [AskedKline.hits, if_pos zero]
    exact List.find?_some (p := fun k : Tkline => k.hostHit (some host) (some user)) first
  · rw [same] at found
    obtain ⟨b, inserted, live, nonzero, rfl⟩ :=
      (h.mem_ranges k).mp (List.mem_of_find?_eq_some found)
    refine ⟨b, inserted, live, rfl, ?_⟩
    rw [AskedKline.hits, if_neg nonzero]
    exact List.find?_some (p := fun k : Tkline => k.ipHit (some user) ip) found

theorem of_hits (h : st.Kept) {host user : CStr} {ip : Nat} {b : AskedKline}
    (inserted : b ∈ st.inserted) (live : b.live st.currentTime = true)
    (hits : b.hits host user ip = true) :
    (st.findTkline (some host) (some user) ip).2.isSome = true := by
  obtain ⟨k, -, same⟩ | ⟨none, same⟩ := st.findTkline_cases (some host) (some user) ip
  · rw [same]
    rfl
  · rw [same, List.find?_isSome]
    rw [AskedKline.hits] at hits
    split at hits
    · next zero =>
      have inside := (h.mem_hosts b.conf).mpr ⟨b, inserted, live, zero, rfl⟩
      exact absurd hits (List.find?_eq_none.mp none _ inside)
    · next nonzero =>
      exact ⟨b.conf, (h.mem_ranges b.conf).mpr ⟨b, inserted, live, nonzero, rfl⟩, hits⟩

end Kept

/-- The lists after a lookup have the entries that have not ended; the second one is only
gone through when nothing is found in the first. -/
theorem findTkline_lists (st : TklineState) (host user : Option CStr) (ip : Nat) :
    let looked := st.findTkline host user ip
    looked.1.temporaryKlines = st.temporaryKlines.filter (Tkline.live st.currentTime) ∧
      (looked.1.temporaryIpKlines = st.temporaryIpKlines.filter (Tkline.live st.currentTime) ∨
        looked.2.isSome = true ∧ looked.1.temporaryIpKlines = st.temporaryIpKlines) := by
  obtain ⟨k, -, same⟩ | ⟨-, same⟩ := st.findTkline_cases host user ip
  · rw [same]
    exact ⟨rfl, .inr ⟨rfl, rfl⟩⟩
  · rw [same]
    exact ⟨rfl, .inl rfl⟩

/-- After a run whose address K-lines are aligned a lookup finds a K-line exactly when one
that has not ended is for the client. -/
theorem run_serves (currentTime : Int) (mtrie : Mtrie) (maxTkline : Int) (es : List TklineEvent)
    (aligned : ∀ b ∈ (machine.run (initial currentTime mtrie maxTkline) es).inserted,
      b.aligned = true) (host user : CStr) (ip : Nat) :
    let st := machine.run (initial currentTime mtrie maxTkline) es
    let looked := st.findTkline (some host) (some user) ip
    (looked.2.isSome = true ↔
      ∃ b ∈ st.inserted, st.currentTime < b.until_ ∧ b.covers host user ip = true) ∧
    (∀ k, looked.2 = some k → ∃ b ∈ st.inserted,
      b.conf = k ∧ st.currentTime < b.until_ ∧ b.covers host user ip = true) ∧
    looked.1.temporaryKlines = st.temporaryKlines.filter (Tkline.live st.currentTime) ∧
    (looked.1.temporaryIpKlines = st.temporaryIpKlines.filter (Tkline.live st.currentTime) ∨
      looked.2.isSome = true ∧ looked.1.temporaryIpKlines = st.temporaryIpKlines) := by
  intro st looked
  have kept : st.Kept := (Kept.initial currentTime mtrie maxTkline).run es
  have sound : ∀ k, looked.2 = some k → ∃ b ∈ st.inserted,
      b.conf = k ∧ st.currentTime < b.until_ ∧ b.covers host user ip = true := by
    intro k found
    obtain ⟨b, inserted, live, same, hits⟩ := kept.found_hits found
    rw [AskedKline.hits_eq_covers (aligned b inserted)] at hits
    exact ⟨b, inserted, same, of_decide_eq_true live, hits⟩
  refine ⟨⟨fun found => ?_, fun served => ?_⟩, sound, st.findTkline_lists _ _ ip⟩
  · obtain ⟨k, found⟩ := Option.isSome_iff_exists.mp found
    obtain ⟨b, inserted, -, served⟩ := sound k found
    exact ⟨b, inserted, served⟩
  · obtain ⟨b, inserted, live, covers⟩ := served
    rw [← AskedKline.hits_eq_covers (aligned b inserted)] at covers
    exact kept.of_hits inserted (decide_eq_true live) covers

def twoKlines : List TklineEvent :=
  [.kline (lit "10") (.mask (lit "*@10.1.0.0/16")), .passes 300,
    .kline (lit "60") (.mask (lit "*lamer@*.example.net")), .passes 400]

theorem run_serves_twoKlines :
    let st := machine.run (initial 1000 .empty 2880) twoKlines
    (st.inserted.length = 2 ∧ ∀ b ∈ st.inserted, b.aligned = true) ∧
      ((st.findTkline (some (lit "h1.example.net")) (some (lit "xlamer"))
          0x0a010203).2.isSome = true ↔
        ∃ b ∈ st.inserted, st.currentTime < b.until_ ∧
          b.covers (lit "h1.example.net") (lit "xlamer") 0x0a010203 = true) := by
  have aligned : ∀ b ∈ (machine.run (initial 1000 .empty 2880) twoKlines).inserted,
      b.aligned = true := by decide +kernel
  have served := (run_serves 1000 .empty 2880 twoKlines aligned (lit "h1.example.net")
    (lit "xlamer") 0x0a010203).1
  exact ⟨⟨by decide +kernel, aligned⟩, served⟩

def hostBits : List TklineEvent := [.kline (lit "10") (.mask (lit "*@10.1.2.3/16"))]

theorem hostBits_unserved :
    let st := machine.run (initial 1000 .empty 2880) hostBits
    (∃ b ∈ st.inserted, st.currentTime < b.until_ ∧
      b.covers (lit "h1.example.net") (lit "xlamer") 0x0a010203 = true) ∧
    (st.findTkline (some (lit "h1.example.net")) (some (lit "xlamer")) 0x0a010203).2 = none := by
  decide +kernel

end TklineState

end Ircd
