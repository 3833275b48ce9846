import Ircd.Conf.Address
import Ircd.Conf.Rewrite
import Mathlib.Data.List.Flatten

/-! `m_unkline` and `m_undline`: a ban is taken out of its file.

Both read the file line by line and leave out the ban and the comment above it.
-/

set_option autoImplicit false

namespace Ircd

structure Lifter where
  /-- `IsServer(cptr)`. -/
  serverLink : Bool
  registered : Bool
  anOper : Bool
  setOperUnkline : Bool

/-- The fields of a temporary K-line that `remove_tkline_match` reads. -/
structure TempKline where
  user : CStr
  host : CStr
  ip : Nat
  ipMask : Nat
  deriving DecidableEq, Repr

inductive BanReply where
  | errNotRegistered
  | errNoPrivileges
  | errNeedMoreParams (command : CStr)
  | notice (text : CStr)
  deriving DecidableEq, Repr

/-- The ban files and the temporary K-lines; `rehashes` counts the calls of `rehash`. -/
structure BanState where
  temporaryKlines : List TempKline
  temporaryIpKlines : List TempKline
  klineFile : Option CStr
  dlineFile : Option CStr
  replies : List BanReply
  rehashes : Nat
  deriving DecidableEq, Repr

/-- The system under the commands: whether the temporary file can be opened, and the
results of the writes to it. -/
structure FileSystem where
  opensTemp : Bool
  write : Nat → WriteResult

namespace BanState

def reply (st : BanState) (r : BanReply) : BanState := { st with replies := st.replies ++ [r] }

def notice (st : BanState) (text : CStr) : BanState := st.reply (.notice text)

def removeTklineMatch (st : BanState) (host user : CStr) (ip : Nat) : BanState × Bool :=
  if st.temporaryKlines = [] ∧ st.temporaryIpKlines = [] then (st, false)
  else if ip ≠ 0 then
    let hit (k : TempKline) : Bool := ip &&& k.ipMask == k.ip
    ({ st with temporaryIpKlines := st.temporaryIpKlines.eraseP hit },
      st.temporaryIpKlines.any hit)
  else
    let hit (k : TempKline) : Bool := irccmp k.host host == .eq && irccmp k.user user == .eq
    ({ st with temporaryKlines := st.temporaryKlines.eraseP hit }, st.temporaryKlines.any hit)

end BanState

def keepLine (notices : List CStr) : LineVerdict :=
  { keep := true, paired := false, notices := notices }

/-- `K:host:comment:user`, up to the end of the line. -/
def unklineKLine (user host rest : CStr) : LineVerdict :=
  let rest := match cutAt '\n' rest with
    | some (line, _) => line
    | none => rest
  match cutAt ':' rest with
  | none => keepLine [lit "K-Line file corrupted", lit "Couldn't find host"]
  | some (foundHost, rest) =>
    match cutAt ':' rest with
    | none => keepLine [lit "K-Line file corrupted", lit "Couldn't find comment"]
    | some (_, foundUser) =>
      if irccmp host foundHost ≠ .eq ∨ irccmp user foundUser ≠ .eq then keepLine []
      else { keep := false, paired := true, notices := [] }

def unklineComment (user host buf : CStr) : LineVerdict :=
  match cutAt ':' buf with
  | none => keepLine []
  | some (_, userathost) =>
    match cutAt ':' userathost with
    | none => keepLine []
    | some (userathost, _) =>
      match cutAt '@' (userathost.dropWhile (· == ' ')) with
      | none => keepLine []
      | some (foundUser, foundHost) =>
        if irccmp foundHost host ≠ .eq ∨ irccmp foundUser user ≠ .eq then keepLine []
        else { keep := false, paired := false, notices := [] }

/-- What `m_unkline` makes of a line of the K-line file. -/
def unklineLine (user host buf : CStr) : LineVerdict :=
  match buf with
  | 'k' :: ':' :: rest => unklineKLine user host rest
  | 'K' :: ':' :: rest => unklineKLine user host rest
  | '#' :: _ => unklineComment user host buf
  | _ => keepLine []

def undlineDLine (cidr rest : CStr) : LineVerdict :=
  let rest := match cutAt '\n' rest with
    | some (line, _) => line
    | none => rest
  match cutAt ':' rest with
  | none => keepLine [lit "D-Line file corrupted", lit "Couldn't find CIDR"]
  | some (foundCidr, _) =>
    if irccmp cidr foundCidr ≠ .eq then keepLine []
    else { keep := false, paired := true, notices := [] }

def undlineComment (cidr buf : CStr) : LineVerdict :=
  match cutAt ':' buf with
  | none => keepLine []
  | some (_, foundCidr) =>
    match cutAt ':' foundCidr with
    | none => keepLine []
    | some (foundCidr, _) =>
      if irccmp (foundCidr.dropWhile (· == ' ')) cidr ≠ .eq then keepLine []
      else { keep := false, paired := false, notices := [] }

/-- What `m_undline` makes of a line of the D-line file. -/
def undlineLine (cidr buf : CStr) : LineVerdict :=
  match buf with
  | 'd' :: ':' :: rest => undlineDLine cidr rest
  | 'D' :: ':' :: rest => undlineDLine cidr rest
  | '#' :: _ => undlineComment cidr buf
  | _ => keepLine []

def liftRefused (st : BanState) (sptr : Lifter) (command : CStr) (parv : List CStr) :
    Option BanState :=
  if !sptr.registered then some (st.reply .errNotRegistered)
  else if !sptr.anOper then some (st.reply .errNoPrivileges)
  else if !sptr.setOperUnkline then some (st.notice (lit "You have no U flag"))
  else if parv.length < 2 then some (st.reply (.errNeedMoreParams command))
  else none

def unklineMask (mask : CStr) : Option (CStr × CStr) :=
  match cutAt '@' mask with
  | some (user, host) => some (user, host)
  | none => if mask.head? = some '*' then some (lit "*", mask) else none

/-- `m_unkline` up to the K-line file: the user and the host, or the state in which it
returns. -/
def unklineChecks (st : BanState) (sptr : Lifter) (parv : List CStr) :
    Except BanState (CStr × CStr) :=
  if sptr.serverLink then .error st
  else
    match liftRefused st sptr (lit "UNKLINE") parv with
    | some st => .error st
    | none =>
      match unklineMask (parv.getD 1 []) with
      | none => .error (st.notice (lit "Invalid parameters"))
      | some (user, host) =>
        if user = lit "*" ∧ host = lit "*" then
          .error (st.notice (lit "Cannot UNK-Line everyone"))
        else
          let ip := match isAddress host with
            | some (ip, _) => ip
            | none => 0
          match st.removeTklineMatch host user ip with
          | (st, true) =>
            .error (st.notice (lit "Un-klined [" ++ user ++ '@' :: host ++
              lit "] from temporary k-lines"))
          | (_, false) => .ok (user, host)

/-- `m_undline` up to the D-line file: the address as it is given. -/
def undlineChecks (st : BanState) (sptr : Lifter) (parv : List CStr) : Except BanState CStr :=
  match liftRefused st sptr (lit "UNDLINE") parv with
  | some st => .error st
  | none =>
    let cidr := parv.getD 1 []
    match isAddress cidr with
    | none => .error (st.notice (lit "Invalid parameters"))
    | some _ => .ok cidr

/-- The two commands, with the file that each of them rewrites. -/
inductive LiftCommand where
  | unkline
  | undline
  deriving DecidableEq, Repr

namespace LiftCommand

def file (cmd : LiftCommand) (st : BanState) : Option CStr :=
  match cmd with
  | .unkline => st.klineFile
  | .undline => st.dlineFile

def setFile (cmd : LiftCommand) (st : BanState) (file : Option CStr) : BanState :=
  match cmd with
  | .unkline => { st with klineFile := file }
  | .undline => { st with dlineFile := file }

end LiftCommand

/-- The files once both are open: the loop, the `rename` and the `rehash`. -/
def rewriteFile (cmd : LiftCommand) (fs : FileSystem) (unable : CStr)
    (verdict : CStr → LineVerdict) (content : CStr) (st : BanState) (removed absent : CStr) :
    Except Misuse BanState := do
  let r ← Rewrite.run verdict fs.write unable (fileLines lineSize content) Rewrite.start
  let st := r.notices.foldl BanState.notice st
  if r.returned then .ok st
  else
    let st := cmd.setFile st (renamed r.temp (some content))
    let st := { st with rehashes := st.rehashes + 1 }
    .ok (st.notice (if r.pairme then removed else absent))

def mUnkline (fs : FileSystem) (st : BanState) (sptr : Lifter) (parv : List CStr) :
    Except Misuse BanState :=
  match unklineChecks st sptr parv with
  | .error st => .ok st
  | .ok (user, host) =>
    match st.klineFile with
    | none => .ok (st.notice (lit "Cannot open kline.conf"))
    | some content =>
      if !fs.opensTemp then .ok (st.notice (lit "Cannot open /usr/local/ircd/kline.conf.tmp"))
      else
        rewriteFile .unkline fs (lit "Unable to write to /usr/local/ircd/kline.conf.tmp")
          (unklineLine user host) content st
          (lit "K-Line for [" ++ user ++ '@' :: host ++ lit "] is removed")
          (lit "No K-Line for " ++ user ++ '@' :: host)

def mUndline (fs : FileSystem) (st : BanState) (sptr : Lifter) (parv : List CStr) :
    Except Misuse BanState :=
  match undlineChecks st sptr parv with
  | .error st => .ok st
  | .ok cidr =>
    match st.dlineFile with
    | none => .ok (st.notice (lit "Cannot open dline.conf"))
    | some content =>
      if !fs.opensTemp then .ok (st.notice (lit "Cannot open dline.conf.tmp"))
      else
        rewriteFile .undline fs (lit "Unable to write to dline.conf.tmp") (undlineLine cidr)
          content st
          (lit "D-Line for [" ++ cidr ++ lit "] is removed")
          (lit "No D-Line for " ++ cidr)

namespace LiftCommand

def run (cmd : LiftCommand) (fs : FileSystem) (st : BanState) (sptr : Lifter)
    (parv : List CStr) : Except Misuse BanState :=
  match cmd with
  | .unkline => mUnkline fs st sptr parv
  | .undline => mUndline fs st sptr parv

def verdict (cmd : LiftCommand) (st : BanState) (sptr : Lifter) (parv : List CStr) :
    Option (CStr → LineVerdict) :=
  match cmd with
  | .unkline =>
    match unklineChecks st sptr parv with
    | .error _ => none
    | .ok (user, host) => some (unklineLine user host)
  | .undline =>
    match undlineChecks st sptr parv with
    | .error _ => none
    | .ok cidr => some (undlineLine cidr)

def kept (cmd : LiftCommand) (fs : FileSystem) (st : BanState) (sptr : Lifter)
    (parv : List CStr) : Option (List CStr) :=
  match cmd.verdict st sptr parv, cmd.file st with
  | some verdict, some content =>
    if fs.opensTemp then some (Rewrite.keptLines verdict (fileLines lineSize content)) else none
  | _, _ => none

end LiftCommand

theorem liftRefused_files {st st' : BanState} {sptr : Lifter} {command : CStr} {parv : List CStr}
    (h : liftRefused st sptr command parv = some st') :
    st'.klineFile = st.klineFile ∧ st'.dlineFile = st.dlineFile := by
  unfold liftRefused at h
  split at h
  · cases h; exact ⟨rfl, rfl⟩
  split at h
  · cases h; exact ⟨rfl, rfl⟩
  split at h
  · cases h; exact ⟨rfl, rfl⟩
  split at h
  · cases h; exact ⟨rfl, rfl⟩
  · cases h

theorem removeTklineMatch_files (st : BanState) (host user : CStr) (ip : Nat) :
    (st.removeTklineMatch host user ip).1.klineFile = st.klineFile ∧
      (st.removeTklineMatch host user ip).1.dlineFile = st.dlineFile := by
  unfold BanState.removeTklineMatch
  split
  · exact ⟨rfl, rfl⟩
  · split <;> exact ⟨rfl, rfl⟩

theorem unklineChecks_files {st st' : BanState} {sptr : Lifter} {parv : List CStr}
    (h : unklineChecks st sptr parv = .error st') : st'.klineFile = st.klineFile := by
  unfold unklineChecks at h
  split at h
  · cases h; rfl
  split at h
  · next refused => cases h; exact (liftRefused_files refused).1
  split at h
  · cases h; rfl
  · next user host _ =>
    split at h
    · cases h; rfl
    · simp only at h
      split at h
      · next removed => 
        cases h
        have files := removeTklineMatch_files st host user
          (match isAddress host with
            | some (ip, _) => ip
            | none => 0)
        rw [removed] at files
        exact files.1
      · cases h

theorem undlineChecks_files {st st' : BanState} {sptr : Lifter} {parv : List CStr}
    (h : undlineChecks st sptr parv = .error st') : st'.dlineFile = st.dlineFile := by
  unfold undlineChecks at h
  split at h
  · next refused => cases h; exact (liftRefused_files refused).2
  · simp only at h
    split at h
    · cases h; rfl
    · cases h

def LiftCommand.Safe (cmd : LiftCommand) (fs : FileSystem) (st : BanState) (sptr : Lifter)
    (parv : List CStr) : Prop :=
  ∃ after, cmd.run fs st sptr parv = .ok after ∧
    Atomic fs.write (cmd.file st) (cmd.kept fs st sptr parv) (cmd.file after)

theorem LiftCommand.file_notice (cmd : LiftCommand) (st : BanState) (text : CStr) :
    cmd.file (st.notice text) = cmd.file st := by
  cases cmd <;> rfl

theorem LiftCommand.file_setFile (cmd : LiftCommand) (st : BanState) (file : Option CStr) :
    cmd.file (cmd.setFile st file) = file := by
  cases cmd <;> rfl

theorem LiftCommand.file_rehash (cmd : LiftCommand) (st : BanState) (n : Nat) :
    cmd.file { st with rehashes := n } = cmd.file st := by
  cases cmd <;> rfl

theorem rewriteFile_safe_iff (cmd : LiftCommand) (fs : FileSystem) (unable : CStr)
    (verdict : CStr → LineVerdict) (content : CStr) (st : BanState) (removed absent : CStr) :
    (∃ after, rewriteFile cmd fs unable verdict content st removed absent = .ok after ∧
      Atomic fs.write (some content)
        (some (Rewrite.keptLines verdict (fileLines lineSize content))) (cmd.file after)) ↔
      AllWritten fs.write (some (Rewrite.keptLines verdict (fileLines lineSize content))) := by
  have spec := @Rewrite.run_spec verdict fs.write unable
    (fileLines lineSize content) Rewrite.start [] rfl rfl
  -- what is kept is no longer than what was read
  have fits : (Rewrite.keptLines verdict (fileLines lineSize content)).flatten.length ≤
      content.length := by
    have part : (Rewrite.keptLines verdict (fileLines lineSize content)).flatten.length ≤
        (fileLines lineSize content).flatten.length := List.filter_sublist.flatten.length_le
    rw [(fileLines lineSize content).length_flatten] at part
    exact part.trans (fileLines_length lineSize content)
  unfold rewriteFile
  generalize Rewrite.keptLines verdict (fileLines lineSize content) = kept at spec fits ⊢
  generalize Rewrite.run verdict fs.write unable (fileLines lineSize content) Rewrite.start =
    result at spec ⊢
  have numbered : Rewrite.WrittenFrom fs.write Rewrite.start.writes kept ↔
      AllWritten fs.write (some kept) := by
    constructor
    · rintro all lines same i line inside
      cases same
      simpa [Rewrite.start] using all i line inside
    · intro all i line inside
      simpa [Rewrite.start] using all kept rfl i line inside
  constructor
  · rintro ⟨after, ended, atomic⟩
    apply numbered.1
    -- a short write leaves the temporary file shorter than the old one, so neither is in place
    apply Classical.byContradiction
    intro short
    obtain misuse | ⟨st', out, ok, returned, temp, less⟩ := spec.short short
    · rw [misuse] at ended
      cases ended
    · rw [ok] at ended
      have running : st'.returned = false := returned
      simp only [bind, Except.bind, running, Bool.false_eq_true, if_false, Except.ok.injEq] at ended
      have unwritten : ∃ i line, kept[i]? = some line ∧ ¬ (fs.write i).Complete line := by
        apply Classical.byContradiction
        intro none
        apply short
        intro i line inside
        apply Classical.byContradiction
        intro cut
        exact none ⟨i, line, inside, by simpa [Rewrite.start] using cut⟩
      have same := atomic.original kept rfl unwritten
      rw [← ended, cmd.file_notice, cmd.file_rehash, cmd.file_setFile, temp] at same
      have equal : out = content := Option.some.inj same
      rw [equal] at less
      simp only [List.length_nil, Nat.zero_add] at less
      omega
  · intro all
    obtain ⟨st', ok, returned, temp⟩ := spec.written (numbered.2 all)
    have running : st'.returned = false := returned
    rw [ok]
    simp only [bind, Except.bind, running, Bool.false_eq_true, if_false]
    refine ⟨_, rfl, ⟨fun absurdity => ?_, ?_, ?_⟩⟩
    · cases absurdity
    · intro lines same _
      cases same
      rw [cmd.file_notice, cmd.file_rehash, cmd.file_setFile, temp]
      rfl
    · rintro lines same ⟨i, line, inside, cut⟩
      exact absurd (all lines same i line inside) cut

/-- UNKLINE and UNDLINE are atomic only as long as no write fails: a failed one is not
noticed, and the loop goes on with closed files. -/
theorem LiftCommand.safe_iff (cmd : LiftCommand) (fs : FileSystem) (st : BanState)
    (sptr : Lifter) (parv : List CStr) :
    cmd.Safe fs st sptr parv ↔ AllWritten fs.write (cmd.kept fs st sptr parv) := by
  -- a command that does not come to the rewriting changes no file
  have idle : ∀ after : BanState, cmd.file after = cmd.file st →
      cmd.run fs st sptr parv = .ok after → cmd.kept fs st sptr parv = none →
        (cmd.Safe fs st sptr parv ↔ AllWritten fs.write (cmd.kept fs st sptr parv)) := by
    intro after same ran none
    refine iff_of_true ⟨after, ran, fun _ => same, ?_, ?_⟩ ?_
    · intro lines some
      rw [none] at some
      cases some
    · intro lines some
      rw [none] at some
      cases some
    · intro lines some
      rw [none] at some
      cases some
  cases cmd with
  | unkline =>
    cases checks : unklineChecks st sptr parv with
    | error st' =>
      apply idle st' (unklineChecks_files checks)
      · simp [run, mUnkline, checks]
      · simp [kept, verdict, checks]
    | ok mask =>
      obtain ⟨user, host⟩ := mask
      cases content : st.klineFile with
      | none =>
        apply idle (st.notice (lit "Cannot open kline.conf")) (file_notice _ _ _)
        · simp [run, mUnkline, checks, content]
        · simp [kept, verdict, file, checks, content]
      | some content' =>
        cases opens : fs.opensTemp with
        | false =>
          apply idle (st.notice (lit "Cannot open /usr/local/ircd/kline.conf.tmp"))
            (file_notice _ _ _)
          · simp [run, mUnkline, checks, content, opens]
          · simp [kept, verdict, file, checks, content, opens]
        | true =>
          have spec := rewriteFile_safe_iff .unkline fs
            (lit "Unable to write to /usr/local/ircd/kline.conf.tmp") (unklineLine user host)
            content' st (lit "K-Line for [" ++ user ++ '@' :: host ++ lit "] is removed")
            (lit "No K-Line for " ++ user ++ '@' :: host)
          simpa [Safe, run, mUnkline, kept, verdict, file, checks, content, opens] using spec
  | undline =>
    cases checks : undlineChecks st sptr parv with
    | error st' =>
      apply idle st' (undlineChecks_files checks)
      · simp [run, mUndline, checks]
      · simp [kept, verdict, checks]
    | ok cidr =>
      cases content : st.dlineFile with
      | none =>
        apply idle (st.notice (lit "Cannot open dline.conf")) (file_notice _ _ _)
        · simp [run, mUndline, checks, content]
        · simp [kept, verdict, file, checks, content]
      | some content' =>
        cases opens : fs.opensTemp with
        | false =>
          apply idle (st.notice (lit "Cannot open dline.conf.tmp")) (file_notice _ _ _)
          · simp [run, mUndline, checks, content, opens]
          · simp [kept, verdict, file, checks, content, opens]
        | true =>
          have spec := rewriteFile_safe_iff .undline fs
            (lit "Unable to write to dline.conf.tmp") (undlineLine cidr) content' st
            (lit "D-Line for [" ++ cidr ++ lit "] is removed") (lit "No D-Line for " ++ cidr)
          simpa [Safe, run, mUndline, kept, verdict, file, checks, content, opens] using spec

def fullDisk : FileSystem where
  opensTemp := true
  write n := if n = 1 then .failed else .wrote lineSize

def lifter : Lifter where
  serverLink := false
  registered := true
  anOper := true
  setOperUnkline := true

def banFile : BanState where
  temporaryKlines := []
  temporaryIpKlines := []
  klineFile := some (lit "K:a.org:spam:*x\nK:b.org:spam:*y\nK:c.org:spam:*z\n")
  dlineFile := none
  replies := []
  rehashes := 0

theorem unkline_uses_closed :
    ¬ LiftCommand.unkline.Safe fullDisk banFile lifter [lit "olly", lit "*x@a.org"] := by
  rintro ⟨after, ended, -⟩
  have misuse : LiftCommand.unkline.run fullDisk banFile lifter [lit "olly", lit "*x@a.org"] =
      .error .useAfterClose := by decide +kernel
  rw [misuse] at ended
  cases ended

end Ircd
