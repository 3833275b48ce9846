import Ircd.Conf.Tkline
import Mathlib.Data.List.Perm.Basic

/-! `remove_tkline_match`: `UNKLINE` of a temporary K-line.

With an address the list of the address bans is searched by the mask of each entry, and the
user is not read. Without one the masks are compared as texts.
-/

set_option autoImplicit false

namespace Ircd

/-- The address that `m_unkline` gives to `remove_tkline_match`. -/
def unklineIp (host : CStr) : Nat :=
  match isAddress host with
  | some (ip, _) => ip
  | none => 0

namespace TempKline

def ipMatch (ip : Nat) (k : TempKline) : Bool := ip &&& k.ipMask == k.ip

def hostMatch (host user : CStr) (k : TempKline) : Bool :=
  irccmp k.host host == .eq && irccmp k.user user == .eq

/-- A ban of addresses whose range is the one that `host` stands for. -/
def SameRange (host : CStr) (k : TempKline) : Prop :=
  k.ip ≠ 0 ∧ ∃ ip, isAddress host = some (ip, k.ipMask) ∧ k.ip &&& k.ipMask = ip &&& k.ipMask

def Named (user host : CStr) (k : TempKline) : Prop :=
  irccmp k.user user = .eq ∧ (irccmp k.host host = .eq ∨ k.SameRange host)

theorem Named.of_hostMatch {host user : CStr} {k : TempKline} (hit : k.hostMatch host user = true) :
    k.Named user host := by
  rw [hostMatch, Bool.and_eq_true, beq_iff_eq, beq_iff_eq] at hit
  exact ⟨hit.2, .inl hit.1⟩

end TempKline

namespace BanState

/-- One entry `k` has been taken out of the list, and the others stay in their order. -/
def TakenFrom (k : TempKline) (before after : List TempKline) : Prop :=
  ∃ front back, before = front ++ k :: back ∧ after = front ++ back

/-- `remove_tkline_match` for `user@host` lifts the entry that is named, and fails only if
there is none. -/
structure LiftsNamed (st : BanState) (user host : CStr) : Prop where
  lifted : (st.removeTklineMatch host user (unklineIp host)).2 = true →
    ∃ k, k.Named user host ∧
      let st' := (st.removeTklineMatch host user (unklineIp host)).1
      TakenFrom k st.temporaryKlines st'.temporaryKlines ∧
          st'.temporaryIpKlines = st.temporaryIpKlines ∨
        TakenFrom k st.temporaryIpKlines st'.temporaryIpKlines ∧
          st'.temporaryKlines = st.temporaryKlines
  failed : (st.removeTklineMatch host user (unklineIp host)).2 = false →
    (st.removeTklineMatch host user (unklineIp host)).1 = st ∧
      ∀ k ∈ st.temporaryKlines ++ st.temporaryIpKlines, ¬ k.Named user host

/-- For an address, the first ban with that address in its range is the one that is named,
or there is nothing to lift. Otherwise it is found by its two texts, or there is nothing to
lift. -/
def FirstIsNamed (st : BanState) (user host : CStr) : Prop :=
  if unklineIp host ≠ 0 then
    match st.temporaryIpKlines.find? (·.ipMatch (unklineIp host)) with
    | some k => k.Named user host
    | none => ∀ k ∈ st.temporaryKlines ++ st.temporaryIpKlines, ¬ k.Named user host
  else
    (∃ k ∈ st.temporaryKlines, k.hostMatch host user = true) ∨
      ∀ k ∈ st.temporaryKlines ++ st.temporaryIpKlines, ¬ k.Named user host

theorem removeTklineMatch_eq (st : BanState) (host user : CStr) (ip : Nat) :
    st.removeTklineMatch host user ip =
      if ip ≠ 0 then
        ({ st with temporaryIpKlines := st.temporaryIpKlines.eraseP (·.ipMatch ip) },
          st.temporaryIpKlines.any (·.ipMatch ip))
      else
        ({ st with temporaryKlines := st.temporaryKlines.eraseP (·.hostMatch host user) },
          st.temporaryKlines.any (·.hostMatch host user)) := by
  unfold removeTklineMatch
  split
  · next empty =>
    obtain ⟨klines, ipKlines, _, _, _, _⟩ := st
    obtain ⟨rfl, rfl⟩ := empty
    split <;> rfl
  · rfl

theorem takenFrom_eraseP {l : List TempKline} {p : TempKline → Bool} {k : TempKline}
    (first : l.find? p = some k) : TakenFrom k l (l.eraseP p) := by
  obtain ⟨hit, front, back, split, before⟩ := List.find?_eq_some_iff_append.mp first
  refine ⟨front, back, split, ?_⟩
  have skipped : ∀ b ∈ front, ¬ p b = true := by
    intro b inside taken
    have unhit := before b inside
    rw [taken] at unhit
    cases unhit
  rw [split, List.eraseP_append_right _ skipped, List.eraseP_cons_of_pos hit]

theorem TakenFrom.unique {k k' : TempKline} {before after : List TempKline}
    (taken : TakenFrom k before after) (taken' : TakenFrom k' before after) : k = k' := by
  obtain ⟨front, back, split, rest⟩ := taken
  obtain ⟨front', back', split', rest'⟩ := taken'
  have here : before.Perm (k :: after) := by
    rw [split, rest]
    exact List.perm_middle
  have there : before.Perm (k' :: after) := by
    rw [split', rest']
    exact List.perm_middle
  have counts := (here.symm.trans there).count_eq k
  by_cases same : k' = k
  · exact same.symm
  · rw [List.count_cons_self, List.count_cons_of_ne same] at counts
    omega

theorem TakenFrom.shorter {k : TempKline} {before after : List TempKline}
    (taken : TakenFrom k before after) : after ≠ before := by
  obtain ⟨front, back, split, rest⟩ := taken
  intro same
  have lengths := congrArg List.length (rest.symm.trans (same.trans split))
  rw [List.length_append, List.length_append, List.length_cons] at lengths
  omega

/-- `remove_tkline_match` lifts exactly the entry that `user@host` names if and only if the
first entry that passes its test is that one. -/
theorem liftsNamed_iff (st : BanState) (user host : CStr) :
    st.LiftsNamed user host ↔ st.FirstIsNamed user host := by
  have run := st.removeTklineMatch_eq host user (unklineIp host)
  unfold FirstIsNamed
  split
  · next address =>
    rw [if_pos address] at run
    -- the list of addresses is searched by address alone, so the first may be of another user
    cases first : st.temporaryIpKlines.find? (·.ipMatch (unklineIp host)) with
    | some k =>
      have taken := takenFrom_eraseP first
      have answer : st.temporaryIpKlines.any (·.ipMatch (unklineIp host)) = true :=
        List.any_eq_true.mpr ⟨k, List.mem_of_find?_eq_some first, List.find?_some first⟩
      rw [answer] at run
      constructor
      · intro lifts
        obtain ⟨k', named, gone⟩ := lifts.lifted (by rw [run])
        rw [run] at gone
        rcases gone with ⟨_, same⟩ | ⟨gone, _⟩
        · exact absurd same taken.shorter
        · exact taken.unique gone ▸ named
      · intro named
        refine ⟨fun _ => ⟨k, named, ?_⟩, fun failed => ?_⟩
        · rw [run]
          exact .inr ⟨taken, rfl⟩
        · rw [run] at failed
          cases failed
    | none =>
      have missed := List.find?_eq_none.mp first
      have answer : st.temporaryIpKlines.any (·.ipMatch (unklineIp host)) = false :=
        List.any_eq_false.mpr missed
      rw [answer, List.eraseP_of_forall_not missed] at run
      constructor
      · intro lifts
        exact (lifts.failed (by rw [run])).2
      · intro nothing
        refine ⟨fun lifted => ?_, fun _ => ⟨?_, nothing⟩⟩
        · rw [run] at lifted
          cases lifted
        · rw [run]
  · next texts =>
    rw [if_neg texts] at run
    -- among the texts the first that passes is one that is named
    cases first : st.temporaryKlines.find? (·.hostMatch host user) with
    | some k =>
      have taken := takenFrom_eraseP first
      have inside := List.mem_of_find?_eq_some first
      have hit := List.find?_some first
      have answer : st.temporaryKlines.any (·.hostMatch host user) = true :=
        List.any_eq_true.mpr ⟨k, inside, hit⟩
      rw [answer] at run
      have lifts : st.LiftsNamed user host := by
        refine ⟨fun _ => ⟨k, TempKline.Named.of_hostMatch hit, ?_⟩, fun failed => ?_⟩
        · rw [run]
          exact .inl ⟨taken, rfl⟩
        · rw [run] at failed
          cases failed
      exact iff_of_true lifts (.inl ⟨k, inside, hit⟩)
    | none =>
      have missed := List.find?_eq_none.mp first
      have answer : st.temporaryKlines.any (·.hostMatch host user) = false :=
        List.any_eq_false.mpr missed
      rw [answer, List.eraseP_of_forall_not missed] at run
      constructor
      · intro lifts
        exact .inr (lifts.failed (by rw [run])).2
      · rintro (⟨k, inside, hit⟩ | nothing)
        · exact absurd hit (missed k inside)
        · refine ⟨fun lifted => ?_, fun _ => ⟨?_, nothing⟩⟩
          · rw [run] at lifted
            cases lifted
          · rw [run]

/-- `10.0.0.0/8` is banned for everyone, and `foo@10.1.2.3` is to be lifted. -/
def widerBan : BanState where
  temporaryKlines := []
  temporaryIpKlines :=
    [{ user := lit "*", host := lit "10.0.0.0/8", ip := 0x0a000000, ipMask := 0xff000000 }]
  klineFile := none
  dlineFile := none
  replies := []
  rehashes := 0

theorem widerBan_lifted : ¬ widerBan.LiftsNamed (lit "foo") (lit "10.1.2.3") := by
  have first : widerBan.temporaryIpKlines.find? (·.ipMatch (unklineIp (lit "10.1.2.3"))) =
      some { user := lit "*", host := lit "10.0.0.0/8", ip := 0x0a000000, ipMask := 0xff000000 } := by
    decide
  intro lifts
  obtain ⟨k, named, gone⟩ := lifts.lifted (by decide)
  rcases gone with ⟨⟨front, back, split, _⟩, _⟩ | ⟨taken, _⟩
  · cases front <;> cases split
  · have same := (takenFrom_eraseP first).unique taken
    rw [← same] at named
    exact absurd named.1 (by decide)

end BanState

end Ircd
