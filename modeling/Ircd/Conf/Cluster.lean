import Ircd.Conf.Tkline
import Ircd.Text.LiteralSearch

/-! `cluster`: the masks of a K-line that is given by a nick.

The scan for a numeric address passes over the character behind each dot without a look at
it, and the look at the top level domain goes three characters past its dot. Both can lead
past the end of the name.
-/

set_option autoImplicit false

namespace Ircd

/-- What the scan for a numeric address has found: `is_ip_number`, `number_of_dots` and
`zap_point`. -/
structure IpScan where
  isIpNumber : Bool
  numberOfDots : Nat
  zapPoint : Nat
  deriving DecidableEq, Repr

/-- The scan from `ipp` on, at the position `at_`; `none` is a read past the terminator. -/
def scanIp (at_ : Nat) (s : IpScan) : CStr → Option IpScan
  | [] => some s
  | ['.'] => none
  | '.' :: _ :: rest =>
    let dots := s.numberOfDots + 1
    scanIp (at_ + 2)
      { s with numberOfDots := dots, zapPoint := if dots = 3 then at_ else s.zapPoint } rest
  | c :: rest =>
    if isDigit c then scanIp (at_ + 1) s rest else some { s with isIpNumber := false }

def IpScan.start : IpScan := { isIpNumber := true, numberOfDots := 0, zapPoint := 0 }

def lastDot : CStr → Option Nat
  | [] => none
  | c :: rest =>
    match lastDot rest with
    | some i => some (i + 1)
    | none => if c = '.' then some 0 else none

/-- The walk of `host_mask` down to the dot where the mask begins, if it is met before the
start of the name. -/
def hostMask (temphost : CStr) : Nat → Nat → Option Nat
  | _, 0 => none
  | dots, p + 1 =>
    let dots := if temphost[p + 1]? = some '.' then dots - 1 else dots
    if dots = 0 then some (p + 1) else hostMask temphost dots p

/-- `cluster`; `none` is a read past the end of the name. -/
def cluster (hostname : CStr) : Option CStr :=
  if hostname.contains '@' then some (hostname.take hostLen)
  else
    let temphost := hostname.take hostLen
    match scanIp 0 .start temphost with
    | none => none
    | some scan =>
      if scan.isIpNumber ∧ scan.numberOfDots = 3 then
        some ((temphost.take (scan.zapPoint + 1) ++ ['*']).take hostLen)
      else
        match lastDot temphost with
        | none => some (temphost.take hostLen)
        | some tld =>
          -- `tld[3]` may be the terminator, or be behind it.
          if temphost.length < tld + 3 then none
          else
            let dots := if temphost.length = tld + 3 then 2 else 1
            match hostMask temphost dots (if tld ≠ 0 then tld - 1 else tld) with
            | some p => some ('*' :: (temphost.drop p).take (hostLen - 1))
            | none => some ('*' :: temphost.take (hostLen - 1))

example : cluster (lit "111.222.33.44") = some (lit "111.222.33.*") := by decide

example : cluster (lit "ppp1.bar.foo.com") = some (lit "*.foo.com") := by decide

def KlineTarget.ofClient (username host : CStr) : Option KlineTarget :=
  (cluster host).map (.client username)

/-- The K-line of the user is for the user, and `cluster` stays within the host. -/
def HitsTarget (username host : CStr) : Prop :=
  ∃ target, KlineTarget.ofClient username host = some target ∧
    matchMask target.userHost.1 username = true ∧ matchMask target.userHost.2 host = true

/-- Digits and dots, a dot last, with any character behind each dot before it. -/
inductive RunsOff : CStr → Prop where
  | last : RunsOff ['.']
  | digit {c : Char} {s : CStr} : isDigit c = true → RunsOff s → RunsOff (c :: s)
  | skip {s : CStr} (c : Char) : RunsOff s → RunsOff ('.' :: c :: s)

/-- Digits and so many dots, with any character behind each. -/
inductive Numbers : Nat → CStr → Prop where
  | done : Numbers 0 []
  | digit {dots : Nat} {c : Char} {s : CStr} :
    isDigit c = true → Numbers dots s → Numbers dots (c :: s)
  | skip {dots : Nat} {s : CStr} (c : Char) : Numbers dots s → Numbers (dots + 1) ('.' :: c :: s)

def FourNumbers (host : CStr) : Prop := Numbers 3 host

/-- Behind the last dot are at least two characters, and a name that fills its field has
another dot to be cut at: one, or two before a country of two letters. -/
def DomainFits (host : CStr) : Prop :=
  ∀ front label, host = front ++ '.' :: label → '.' ∉ label →
    2 ≤ label.length ∧
      (host.length < hostLen ∨ (if label.length = 2 then 2 else 1) ≤ front.tail.count '.')

def HostFits (host : CStr) : Prop :=
  '@' ∈ host ∨ ¬ RunsOff host ∧ (FourNumbers host ∨ DomainFits host)

theorem scanIp_none_iff (at_ : Nat) (s : IpScan) (host : CStr) :
    scanIp at_ s host = none ↔ RunsOff host := by
  fun_induction scanIp at_ s host with
  | case1 => exact iff_of_false (by simp) (by intro off; cases off)
  | case2 => exact iff_of_true rfl .last
  | case3 at_ s c rest dots ih =>
    rw [ih]
    constructor
    · exact RunsOff.skip c
    · intro off
      cases off with
      | digit digit _ => exact absurd digit (by decide)
      | skip _ rest => exact rest
  | case4 at_ s c rest alone dotted digit ih =>
    rw [ih]
    constructor
    · exact RunsOff.digit digit
    · intro off
      cases off with
      | last => exact absurd rfl (alone rfl)
      | digit _ rest => exact rest
      | skip d rest => exact absurd rfl (dotted d _ rfl)
  | case5 at_ s c rest alone dotted other =>
    refine iff_of_false (by simp) fun off => ?_
    cases off with
    | last => exact alone rfl rfl
    | digit digit _ => exact other digit
    | skip d rest => exact dotted d _ rfl rfl

theorem scanIp_dots_le {at_ : Nat} {s r : IpScan} {host : CStr}
    (scanned : scanIp at_ s host = some r) : s.numberOfDots ≤ r.numberOfDots := by
  fun_induction scanIp at_ s host with
  | case1 =>
    cases scanned
    exact Nat.le_refl _
  | case2 => cases scanned
  | case3 at_ s c rest dots ih => exact Nat.le_of_succ_le (ih scanned)
  | case4 at_ s c rest alone dotted digit ih => exact ih scanned
  | case5 =>
    cases scanned
    exact Nat.le_refl _

theorem scanIp_numbers {at_ : Nat} {s r : IpScan} {host : CStr}
    (scanned : scanIp at_ s host = some r) (isIp : s.isIpNumber = true) (dots : Nat) :
    r.isIpNumber = true ∧ r.numberOfDots = s.numberOfDots + dots ↔ Numbers dots host := by
  fun_induction scanIp at_ s host generalizing dots with
  | case1 =>
    cases scanned
    constructor
    · rintro ⟨-, same⟩
      have none : dots = 0 := by omega
      subst none
      exact .done
    · intro numbers
      cases numbers
      exact ⟨isIp, rfl⟩
  | case2 => cases scanned
  | case3 at_ s c rest counted ih =>
    cases dots with
    | zero =>
      -- the count of dots never falls, so one too many stays too many
      have more : s.numberOfDots + 1 ≤ r.numberOfDots := scanIp_dots_le scanned
      refine iff_of_false (fun number => by omega) fun numbers => ?_
      cases numbers with
      | digit digit _ => exact absurd digit (by decide)
    | succ dots =>
      have rest := ih scanned isIp dots
      constructor
      · rintro ⟨number, same⟩
        exact .skip c (rest.1 ⟨number, by dsimp only; omega⟩)
      · intro numbers
        cases numbers with
        | digit digit _ => exact absurd digit (by decide)
        | skip _ later =>
          obtain ⟨number, same⟩ := rest.2 later
          exact ⟨number, by dsimp only at same; omega⟩
  | case4 at_ s c rest alone dotted digit ih =>
    rw [ih scanned isIp dots]
    constructor
    · exact .digit digit
    · intro numbers
      cases numbers with
      | digit _ later => exact later
      | skip d _ => exact absurd rfl (dotted d _ rfl)
  | case5 at_ s c rest alone dotted other =>
    cases scanned
    refine iff_of_false (fun number => Bool.false_ne_true number.1) fun numbers => ?_
    cases numbers with
    | digit digit _ => exact other digit
    | skip d _ => exact dotted d _ rfl rfl

theorem scanIp_zap {at_ : Nat} {s r : IpScan} {host : CStr} (scanned : scanIp at_ s host = some r) :
    r.zapPoint = s.zapPoint ∨ r.zapPoint + 2 ≤ at_ + host.length := by
  fun_induction scanIp at_ s host with
  | case1 =>
    cases scanned
    exact .inl rfl
  | case2 => cases scanned
  | case3 at_ s c rest dots ih =>
    rcases ih scanned with kept | below
    · simp only [List.length_cons]
      dsimp only at kept
      split at kept
      · omega
      · exact .inl kept
    · simp only [List.length_cons]
      omega
  | case4 at_ s c rest alone dotted digit ih =>
    rcases ih scanned with kept | below
    · exact .inl kept
    · simp only [List.length_cons]
      omega
  | case5 =>
    cases scanned
    exact .inl rfl

theorem lastDot_none {host : CStr} : lastDot host = none ↔ '.' ∉ host := by
  induction host with
  | nil => simp [lastDot]
  | cons c rest ih =>
    rw [lastDot, List.mem_cons, not_or, ← ih]
    cases later : lastDot rest with
    | some i => simp
    | none =>
      by_cases dot : c = '.'
      · simp [dot]
      · have other : ¬ '.' = c := fun same => dot same.symm
        simp [dot, other]

theorem lastDot_some {host : CStr} {tld : Nat} (last : lastDot host = some tld) :
    ∃ front label, host = front ++ '.' :: label ∧ '.' ∉ label ∧ front.length = tld := by
  induction host generalizing tld with
  | nil => cases last
  | cons c rest ih =>
    rw [lastDot] at last
    cases later : lastDot rest with
    | some i =>
      rw [later] at last
      cases last
      obtain ⟨front, label, rfl, clean, rfl⟩ := ih later
      exact ⟨c :: front, label, rfl, clean, rfl⟩
    | none =>
      rw [later] at last
      by_cases dot : c = '.'
      · subst dot
        cases last
        exact ⟨[], rest, rfl, lastDot_none.mp later, rfl⟩
      · simp [dot] at last

theorem split_unique {front label front' label' : CStr}
    (same : front ++ '.' :: label = front' ++ '.' :: label') (clean : '.' ∉ label)
    (clean' : '.' ∉ label') : front = front' ∧ label = label' := by
  rcases List.append_eq_append_iff.mp same with ⟨more, rfl, rest⟩ | ⟨more, rfl, rest⟩
  · cases more with
    | nil =>
      rw [List.nil_append] at rest
      exact ⟨(List.append_nil _).symm, (List.cons.inj rest).2⟩
    | cons d more =>
      obtain ⟨-, tail⟩ := List.cons.inj rest
      rw [tail] at clean
      exact absurd (List.mem_append_right more List.mem_cons_self) clean
  · cases more with
    | nil =>
      rw [List.nil_append] at rest
      exact ⟨List.append_nil _, (List.cons.inj rest).2.symm⟩
    | cons d more =>
      obtain ⟨-, tail⟩ := List.cons.inj rest
      rw [tail] at clean'
      exact absurd (List.mem_append_right more List.mem_cons_self) clean'

/-- The walk ends at a dot with one dot less than were asked for behind it, or it has met
too few. -/
theorem hostMask_spec {temphost : CStr} {dots p : Nat} (some : 0 < dots)
    (inside : p < temphost.length) :
    match hostMask temphost dots p with
    | Option.some q => 0 < q ∧ ∃ s, temphost.take (p + 1) = temphost.take q ++ '.' :: s ∧
        s.count '.' + 1 = dots
    | none => (temphost.take (p + 1)).tail.count '.' < dots := by
  induction p generalizing dots with
  | zero =>
    have one : (temphost.take 1).tail = [] := by
      cases temphost <;> rfl
    rw [hostMask, one]
    exact some
  | succ p ih =>
    have here : temphost.take (p + 1 + 1) = temphost.take (p + 1) ++ [temphost[p + 1]] :=
      (List.take_concat_get' temphost (p + 1) inside).symm
    have found : temphost[p + 1]? = Option.some temphost[p + 1] := List.getElem?_eq_getElem inside
    have fewer : p < temphost.length := Nat.lt_of_succ_lt inside
    have front : temphost.take (p + 1) ≠ [] := by
      intro empty
      have length := congrArg List.length empty
      rw [List.length_take, List.length_nil] at length
      omega
    rw [hostMask, found]
    generalize temphost[p + 1] = c at here
    rw [here, List.tail_append_of_ne_nil front, List.count_append]
    -- the walk goes down, so the induction is on the position
    by_cases dot : c = '.'
    · subst dot
      simp only [if_true]
      by_cases last : dots - 1 = 0
      · rw [if_pos last]
        refine ⟨Nat.succ_pos p, [], rfl, ?_⟩
        rw [List.count_nil]
        omega
      · rw [if_neg last]
        have rest := ih (Nat.pos_of_ne_zero last) fewer
        revert rest
        cases hostMask temphost (dots - 1) p with
        | some q =>
          rintro ⟨later, s, split, count⟩
          refine ⟨later, s ++ ['.'], ?_, ?_⟩
          · rw [split, List.append_assoc, List.cons_append]
          · rw [List.count_append, List.count_singleton_self]
            omega
        | none =>
          intro few
          rw [List.count_singleton_self]
          dsimp only at few ⊢
          omega
    · have other : ¬ Option.some c = Option.some '.' := fun same => dot (Option.some.inj same)
      have zero : ¬ dots = 0 := by omega
      rw [if_neg other, if_neg zero]
      have rest := ih some fewer
      revert rest
      cases hostMask temphost dots p with
      | some q =>
        rintro ⟨later, s, split, count⟩
        refine ⟨later, s ++ [c], ?_, ?_⟩
        · rw [split, List.append_assoc, List.cons_append]
        · rw [List.count_append, List.count_singleton, if_neg (by rwa [beq_iff_eq])]
          exact count
      | none =>
        intro few
        rw [List.count_singleton, if_neg (by rwa [beq_iff_eq])]
        exact few

/-- A text without wildcards that the mask and the name both begin with is passed over. -/
theorem matchLoop_skip (mask : CStr) {p : CStr} (literal : Literal p) (m n ma na : CStr)
    (wild : Bool) (calls : Nat) :
    matchLoop mask (p.length + calls) ⟨p ++ m, p ++ n, ma, na, wild⟩ =
      matchLoop mask calls ⟨m, n, ma, na, wild⟩ := by
  induction p with
  | nil => rw [List.length_nil, Nat.zero_add, List.nil_append, List.nil_append]
  | cons c p ih =>
    have plain := (literal c List.mem_cons_self).1
    have still : MatchState.star ⟨c :: p ++ m, c :: p ++ n, ma, na, wild⟩ =
        ⟨c :: p ++ m, c :: p ++ n, ma, na, wild⟩ :=
      MatchState.star_of_plain fun star => plain (Option.some.inj star)
    have more : (c :: p).length + calls = (p.length + calls) + 1 := by
      rw [List.length_cons]
      omega
    have step : MatchState.compare ⟨c :: p ++ m, c :: p ++ n, ma, na, wild⟩ =
        some ⟨p ++ m, p ++ n, ma, na, wild⟩ := if_neg fun differ => differ.1 rfl
    rw [more, matchLoop, still]
    simp only [List.cons_append] at step ⊢
    rw [step]
    exact ih (literal.sublist (List.subset_cons_self c p))

theorem matchMask_self {host : CStr} (literal : Literal host) (short : host.length < matchMaxCalls) :
    matchMask host host = true := by
  obtain ⟨calls, enough⟩ := Nat.exists_eq_add_of_lt short
  have skipped := matchLoop_skip host literal [] [] host host false (calls + 1)
  rw [List.append_nil, ← Nat.add_assoc, ← enough] at skipped
  rw [matchMask, skipped]
  rfl

/-- A mask that ends in `*` needs no more of the name than what stands before it. -/
theorem matchMask_front {p : CStr} (literal : Literal p) (some : p ≠ [])
    (short : p.length < matchMaxCalls) (rest : CStr) :
    matchMask (p ++ ['*']) (p ++ rest) = true := by
  have ends : endsInStar (p ++ ['*']) = true := by
    rw [endsInStar, List.reverse_append]
    cases back : p.reverse with
    | nil => exact absurd (List.reverse_eq_nil_iff.mp back) some
    | cons c back => rfl
  obtain ⟨calls, enough⟩ := Nat.exists_eq_add_of_lt short
  have skipped := matchLoop_skip (p ++ ['*']) literal ['*'] rest (p ++ ['*']) (p ++ rest) false
    (calls + 1)
  rw [← Nat.add_assoc, ← enough] at skipped
  rw [matchMask, skipped, matchLoop, MatchState.star_cons]
  cases rest with
  | nil => rfl
  | cons d rest =>
    simp only [List.dropWhile_nil, ends, if_true]

theorem longestRun_le_length (m : CStr) : longestRun m ≤ m.length := by
  induction m with
  | nil => exact Nat.le_refl 0
  | cons c m ih =>
    have first := (List.takeWhile_sublist (· != '*') (l := c :: m)).length_le
    rw [longestRun]
    apply Nat.max_le.mpr ⟨first, _⟩
    rw [List.length_cons]
    omega

theorem matchMask_username {username : CStr} (short : username.length ≤ userLen) (host : CStr) :
    matchMask (KlineTarget.client username host).userHost.1 username = true := by
  have glob : Glob (KlineTarget.client username host).userHost.1 username := by
    rw [KlineTarget.userHost]
    by_cases tilde : username.head? = some '~'
    · obtain ⟨rest, rfl⟩ := List.head?_eq_some_iff.mp tilde
      rw [if_pos tilde]
      exact (Glob.of_map_toLower rfl).star ['~']
    · rw [if_neg tilde]
      exact (Glob.of_map_toLower rfl).star []
  have mask : (KlineTarget.client username host).userHost.1.length ≤ userLen + 1 := by
    rw [KlineTarget.userHost]
    split
    · rw [List.length_cons, List.length_tail]
      omega
    · rw [List.length_cons]
      omega
  have part : longestPart (KlineTarget.client username host).userHost.1 ≤ userLen + 1 :=
    ((longestRun_le_length _).trans (List.dropWhile_sublist _).length_le).trans mask
  apply glob.matchMask
  have bound : (username.length + 1) * (longestPart (KlineTarget.client username host).userHost.1 + 1) ≤
      (userLen + 1) * (userLen + 1 + 1) := Nat.mul_le_mul (by omega) (by omega)
  exact Nat.le_trans bound (by decide)

theorem matchMask_star_self {host : CStr} (literal : Literal host)
    (short : host.length < matchMaxCalls) : matchMask ('*' :: host) host = true := by
  by_cases some : host = []
  · subst some
    rfl
  · have caps : Caps (fun _ => host.length) host := by
      intro w m v n text _
      rw [text, List.length_append]
      exact Nat.le_add_right _ _
    have cost : searchCost (fun _ => host.length) host [] ≤ matchMaxCalls := by
      rw [searchCost]
      exact short
    exact matchMask_star_literal caps literal some cost

/-- The characters of a text that is the same one place further are all the same. -/
theorem all_same {l : CStr} (shifted : l.dropLast = l.tail) : ∀ c ∈ l, ∀ d ∈ l, c = d := by
  induction l with
  | nil => exact fun c inside => absurd inside List.not_mem_nil
  | cons a l ih =>
    cases l with
    | nil =>
      intro c first d second
      rw [List.mem_singleton.mp first, List.mem_singleton.mp second]
    | cons b l =>
      rw [List.dropLast_cons_of_ne_nil (List.cons_ne_nil b l), List.tail_cons] at shifted
      obtain ⟨rfl, rest⟩ := List.cons.inj shifted
      have same := ih rest
      intro c first d second
      have onward : ∀ e ∈ a :: a :: l, e ∈ a :: l := by
        intro e inside
        rcases List.mem_cons.mp inside with rfl | later
        · exact List.mem_cons_self
        · exact later
      exact same c (onward c first) d (onward d second)

/-- Without its last character a host that has a top level domain is not matched. -/
theorem not_matchMask_cut {front label : CStr} (literal : Literal (front ++ '.' :: label))
    (some : label ≠ []) (clean : '.' ∉ label)
    (full : (front ++ '.' :: label).length = hostLen) :
    matchMask ('*' :: (front ++ '.' :: label).take (hostLen - 1)) (front ++ '.' :: label) ≠ true := by
  generalize whole : front ++ '.' :: label = host at literal full ⊢
  intro yes
  have cut : host.take (hostLen - 1) = host.dropLast := by
    rw [List.dropLast_eq_take, full]
  rw [cut] at yes
  obtain ⟨extra, n, parts, rest⟩ : ∃ extra n, host = extra ++ n ∧ Glob host.dropLast n := by
    have glob := matchMask_yes yes
    cases glob with
    | star extra rest => exact ⟨extra, _, rfl, rest⟩
    | same eq rest =>
      rename_i n d
      exact ⟨[d], n, rfl, rest⟩
  have same := rest.map_toLower_of_literal fun c inside =>
    literal c ((List.dropLast_sublist host).subset inside)
  have lengths := congrArg List.length same
  have total := congrArg List.length parts
  rw [List.length_map, List.length_map, List.length_dropLast] at lengths
  rw [List.length_append] at total
  obtain ⟨d, rfl⟩ : ∃ d, extra = [d] := List.length_eq_one_iff.mp (by
    rw [full, hostLen] at lengths total
    omega)
  have tail : host.tail = n := by rw [parts, List.singleton_append, List.tail_cons]
  have shifted : (host.map toLower).dropLast = (host.map toLower).tail := by
    rw [← List.map_dropLast, ← List.map_tail, tail, same]
  obtain ⟨e, label', rfl⟩ := List.exists_cons_of_ne_nil some
  have dot : '.' ∈ host := whole ▸ List.mem_append_right front List.mem_cons_self
  have other : e ∈ host :=
    whole ▸ List.mem_append_right front (List.mem_cons_of_mem _ List.mem_cons_self)
  have equal := all_same shifted _ (List.mem_map_of_mem other) _ (List.mem_map_of_mem dot)
  have dotted : e = '.' := toLower_dot.mp equal
  exact clean (dotted ▸ List.mem_cons_self)

theorem hitsTarget_of {username host mask : CStr} (short : username.length ≤ userLen)
    (made : cluster host = some mask) : HitsTarget username host ↔ matchMask mask host = true := by
  have target : KlineTarget.ofClient username host = some (.client username mask) := by
    rw [KlineTarget.ofClient, made, Option.map_some]
  constructor
  · rintro ⟨found, of, -, yes⟩
    rw [target] at of
    cases of
    exact yes
  · exact fun yes => ⟨_, target, matchMask_username short mask, yes⟩

theorem not_hitsTarget {username host : CStr} (off : cluster host = none) :
    ¬ HitsTarget username host := by
  rintro ⟨target, of, -⟩
  rw [KlineTarget.ofClient, off] at of
  cases of

theorem domain_iff {username front label : CStr} (name : username.length ≤ userLen)
    (fits : (front ++ '.' :: label).length ≤ hostLen) (literal : Literal (front ++ '.' :: label))
    (clean : '.' ∉ label)
    (made : cluster (front ++ '.' :: label) =
      if (front ++ '.' :: label).length < front.length + 3 then none
      else
        match hostMask (front ++ '.' :: label)
            (if (front ++ '.' :: label).length = front.length + 3 then 2 else 1)
            (if front.length ≠ 0 then front.length - 1 else front.length) with
        | some p => some ('*' :: ((front ++ '.' :: label).drop p).take (hostLen - 1))
        | none => some ('*' :: (front ++ '.' :: label).take (hostLen - 1))) :
    HitsTarget username (front ++ '.' :: label) ↔
      2 ≤ label.length ∧
        ((front ++ '.' :: label).length < hostLen ∨
          (if label.length = 2 then 2 else 1) ≤ front.tail.count '.') := by
  have length : (front ++ '.' :: label).length = front.length + 1 + label.length := by
    rw [List.length_append, List.length_cons]
    omega
  by_cases two : 2 ≤ label.length
  · have inside : ¬ (front ++ '.' :: label).length < front.length + 3 := by omega
    have dots : (if (front ++ '.' :: label).length = front.length + 3 then 2 else 1) =
        if label.length = 2 then 2 else 1 := by
      by_cases country : label.length = 2
      · rw [if_pos country, if_pos (by omega)]
      · rw [if_neg country, if_neg (by omega)]
    rw [if_neg inside, dots] at made
    have many : 0 < (if label.length = 2 then 2 else 1) ∧ (if label.length = 2 then 2 else 1) ≤ 2 := by
      split <;> omega
    generalize (if label.length = 2 then 2 else 1) = k at made many ⊢
    have some : label ≠ [] := List.ne_nil_of_length_pos (by omega)
    generalize whole : front ++ '.' :: label = host at fits literal made length ⊢
    -- With nothing to be cut at, the host gets a star in front.
    have uncut : cluster host = Option.some ('*' :: host.take (hostLen - 1)) →
        front.tail.count '.' < k →
        (HitsTarget username host ↔ 2 ≤ label.length ∧
          (host.length < hostLen ∨ k ≤ front.tail.count '.')) := by
      intro starred few
      rw [hitsTarget_of name starred]
      by_cases room : host.length < hostLen
      · have all : host.take (hostLen - 1) = host := List.take_of_length_le (by omega)
        rw [all]
        exact iff_of_true (matchMask_star_self literal (Nat.lt_trans room (by decide)))
          ⟨two, .inl room⟩
      · have full : host.length = hostLen := by omega
        subst whole
        refine iff_of_false (not_matchMask_cut literal some clean full) fun good => ?_
        rcases good.2 with room' | many'
        · exact room room'
        · omega
    by_cases start : front.length = 0
    · have empty : front = [] := List.length_eq_zero_iff.mp start
      rw [if_neg (not_not.mpr start), start, hostMask] at made
      apply uncut made
      rw [empty]
      exact many.1
    · have low : front.length - 1 < host.length := by omega
      have upto : host.take (front.length - 1 + 1) = front := by
        rw [Nat.sub_add_cancel (Nat.pos_of_ne_zero start), ← whole, List.take_left]
      have walk := hostMask_spec many.1 low
      rw [if_pos start] at made
      rw [upto] at walk
      cases found : hostMask host k (front.length - 1) with
      | none =>
        rw [found] at made walk
        exact uncut made walk
      | some q =>
        rw [found] at made walk
        obtain ⟨pos, s, split, count⟩ := walk
        have parts : host = host.take q ++ '.' :: (s ++ '.' :: label) := by
          calc host = front ++ '.' :: label := whole.symm
            _ = (host.take q ++ '.' :: s) ++ '.' :: label := by rw [← split]
            _ = host.take q ++ '.' :: (s ++ '.' :: label) := by
              rw [List.append_assoc, List.cons_append]
        have rest : host.drop q = '.' :: (s ++ '.' :: label) :=
          List.append_cancel_left ((List.take_append_drop q host).trans parts)
        have room : (host.drop q).length ≤ hostLen - 1 := by
          rw [List.length_drop]
          omega
        dsimp only at made
        rw [List.take_of_length_le room, rest] at made
        have front_ne : host.take q ≠ [] := by
          intro empty
          have none := congrArg List.length empty
          rw [List.length_take, List.length_nil] at none
          omega
        have enough : k ≤ front.tail.count '.' := by
          rw [split, List.tail_append_of_ne_nil front_ne, List.count_append,
            List.count_cons_self]
          omega
        have few : (s ++ '.' :: label).count '.' ≤ 2 := by
          rw [List.count_append, List.count_cons_self, List.count_eq_zero.mpr clean]
          omega
        have plain : Literal (s ++ '.' :: label) := by
          intro c inside
          apply literal c
          rw [parts]
          exact List.mem_append_right _ (List.mem_cons_of_mem _ inside)
        have total := congrArg List.length parts
        rw [List.length_append, List.length_cons] at total
        have near : (host.take q).length + (s ++ '.' :: label).length < 127 := by
          rw [hostLen] at fits
          omega
        have yes := matchMask_domain plain few near
        rw [← parts] at yes
        rw [hitsTarget_of name made]
        exact iff_of_true yes ⟨two, .inr enough⟩
  · have off : (front ++ '.' :: label).length < front.length + 3 := by omega
    rw [if_pos off] at made
    exact iff_of_false (not_hitsTarget made) fun h => two h.1

/-- A K-line by nick hits its target, and `cluster` stays within the host, if and only if the
host is one that it makes a good mask of. -/
theorem hitsTarget_iff {username host : CStr} (name : username.length ≤ userLen)
    (fits : host.length ≤ hostLen) (literal : Literal host) :
    HitsTarget username host ↔ HostFits host := by
  have short : host.length < matchMaxCalls := Nat.lt_of_le_of_lt fits (by decide)
  have whole : host.take hostLen = host := List.take_of_length_le fits
  by_cases bogus : '@' ∈ host
  · have made : cluster host = some host := by
      rw [cluster, if_pos (List.elem_iff.mpr bogus), whole]
    rw [hitsTarget_of name made]
    exact iff_of_true (matchMask_self literal short) (.inl bogus)
  have plain : ¬ host.contains '@' = true := fun elem => bogus (List.elem_iff.mp elem)
  cases scanned : scanIp 0 .start host with
  | none =>
    have made : cluster host = none := by
      simp only [cluster, if_neg plain, whole, scanned]
    have off := (scanIp_none_iff 0 .start host).mp scanned
    exact iff_of_false (not_hitsTarget made) fun fit => fit.elim bogus fun rest => rest.1 off
  | some scan =>
    have stays : ¬ RunsOff host := by
      rw [← scanIp_none_iff 0 .start host, scanned]
      exact Option.some_ne_none scan
    have counted := scanIp_numbers scanned rfl 3
    by_cases four : scan.isIpNumber ∧ scan.numberOfDots = 3
    · have numbers : FourNumbers host := counted.1 four
      have some : host ≠ [] := by
        rintro rfl
        rw [scanIp] at scanned
        cases scanned
        exact absurd four.2 (by decide)
      have long := List.length_pos_of_ne_nil some
      have zap : scan.zapPoint + 2 ≤ hostLen := by
        rcases scanIp_zap scanned with zero | below
        · rw [zero]
          decide
        · omega
      have mask : (host.take (scan.zapPoint + 1) ++ ['*']).take hostLen =
          host.take (scan.zapPoint + 1) ++ ['*'] := by
        apply List.take_of_length_le
        rw [List.length_append, List.length_take, List.length_singleton]
        omega
      have made : cluster host = Option.some (host.take (scan.zapPoint + 1) ++ ['*']) := by
        simp only [cluster, if_neg plain, whole, scanned, if_pos four, mask]
      have yes : matchMask (host.take (scan.zapPoint + 1) ++ ['*']) host = true := by
        have front : host.take (scan.zapPoint + 1) ≠ [] := by
          intro empty
          have none := congrArg List.length empty
          rw [List.length_take, List.length_nil] at none
          omega
        have near : (host.take (scan.zapPoint + 1)).length < matchMaxCalls :=
          Nat.lt_of_le_of_lt (List.length_take_le _ _)
            (Nat.lt_of_lt_of_le (Nat.lt_succ_self _) (Nat.le_trans zap (by decide)))
        have matched := matchMask_front (literal.sublist (List.take_subset _ _)) front near
          (host.drop (scan.zapPoint + 1))
        rwa [List.take_append_drop] at matched
      rw [hitsTarget_of name made]
      exact iff_of_true yes (.inr ⟨stays, .inl numbers⟩)
    · have other : ¬ FourNumbers host := fun numbers => four (counted.2 numbers)
      have fit : HostFits host ↔ DomainFits host := by
        constructor
        · rintro (at_ | ⟨-, numbers | domain⟩)
          · exact absurd at_ bogus
          · exact absurd numbers other
          · exact domain
        · exact fun domain => .inr ⟨stays, .inr domain⟩
      rw [fit]
      cases last : lastDot host with
      | none =>
        have made : cluster host = some host := by
          simp only [cluster, if_neg plain, whole, scanned, if_neg four, last]
        have dotless := lastDot_none.mp last
        rw [hitsTarget_of name made]
        refine iff_of_true (matchMask_self literal short) fun front label split _ => ?_
        rw [split] at dotless
        exact absurd (List.mem_append_right front List.mem_cons_self) dotless
      | some tld =>
        obtain ⟨front, label, rfl, clean, rfl⟩ := lastDot_some last
        have made := domain_iff name fits literal clean (by
          simp only [cluster, if_neg plain, whole, scanned, if_neg four, last])
        rw [made]
        constructor
        · intro good front' label' split clean'
          obtain ⟨rfl, rfl⟩ := split_unique split clean clean'
          exact good
        · exact fun domain => domain front label rfl clean

theorem hitsTarget_bob :
    HitsTarget (lit "~bob") (lit "ppp1.bar.foo.com") ↔ HostFits (lit "ppp1.bar.foo.com") :=
  hitsTarget_iff (by decide) (by decide) (by decide)

def fullHost : CStr := List.replicate 59 'a' ++ lit ".com"

/-- The mask of the first loses a character, and `cluster` reads past the end of the others. -/
theorem clustered_missed :
    ¬ HitsTarget (lit "bob") fullHost ∧ ¬ HitsTarget (lit "bob") (lit "cable.x") ∧
      ¬ HitsTarget (lit "bob") (lit "12.") := by
  have cut : cluster fullHost = some ('*' :: fullHost.take (hostLen - 1)) := by decide
  have missed : matchMask ('*' :: fullHost.take (hostLen - 1)) fullHost ≠ true :=
    @not_matchMask_cut (List.replicate 59 'a') (lit "com") (by decide) (by decide) (by decide)
      (by decide)
  exact ⟨fun hits => missed ((hitsTarget_of (by decide) cut).mp hits),
    not_hitsTarget (by decide), not_hitsTarget (by decide)⟩

end Ircd
