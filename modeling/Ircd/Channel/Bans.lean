import Ircd.Channel.Mode
import Ircd.Text.Search

/-! The three lists of masks of a channel: when `add_id` leaves a mask out, and what the
lists and their common counter come to.
-/

set_option autoImplicit false

namespace Ircd

theorem addId_duplicate {cl : Client} (mine : cl.myClient = true) {maxBans now : Int}
    {ch : Channel} {banid : CStr} {kind : ListKind}
    (dropped : addId cl maxBans now ch banid kind = .duplicate) :
    ∃ ban, (ch.maskList kind).find? (fun ban => matchMask ban.banstr (collapse banid)) =
      some ban := by
  unfold addId at dropped
  split at dropped
  · cases dropped
  · simp only [if_true] at dropped
    split at dropped
    · next duplicate =>
      simp only [duplicateMask, mine, if_true] at duplicate
      rw [List.any_eq_true, ← List.find?_isSome] at duplicate
      exact Option.isSome_iff_exists.1 duplicate
    · cases dropped

/-- A mask of a local client that is left out means nothing that the list does not, if the
first mask that matches its text does so with no `?` on a `*`. -/
theorem left_out_covered {cl : Client} (mine : cl.myClient = true) {maxBans now : Int}
    {ch : Channel} {banid : CStr} {kind : ListKind}
    (dropped : addId cl maxBans now ch banid kind = .duplicate)
    (apart : ∀ ban, (ch.maskList kind).find? (fun ban =>
      matchMask ban.banstr (collapse banid)) = some ban → Covers ban.banstr (collapse banid))
    {name : CStr} (named : Glob banid name) : ∃ ban ∈ ch.maskList kind, Glob ban.banstr name := by
  obtain ⟨ban, first⟩ := addId_duplicate mine dropped
  have covers := apart ban first
  exact ⟨ban, List.mem_of_find?_eq_some first,
    covers.glob ((glob_collapse_iff banid name).2 named)⟩

def localOp : Client :=
  { Client.zero with name := lit "anna", status := .client, localFlag := true, user := true }

def banned (banstr : String) : Ban := { banstr := lit banstr, who := lit "anna", time := 0 }

def channelBanning (bans : List Ban) : Channel :=
  { Channel.zero with chname := lit "#a", banlist := bans, numBed := bans.length }

theorem left_out_covered_any :
    ∃ ban ∈ (channelBanning [banned "*!*@*.edu", banned "*!*@*", banned "a?b!*@*"]).maskList .ban,
      Glob ban.banstr (lit "axyb!joe@mit.edu") := by
  let ch := channelBanning [banned "*!*@*.edu", banned "*!*@*", banned "a?b!*@*"]
  have dropped : addId localOp 100 0 ch (lit "a*b!*@*") .ban = .duplicate := by rfl
  have found : (ch.maskList .ban).find? (fun ban => matchMask ban.banstr (collapse (lit "a*b!*@*"))) =
      some (banned "*!*@*") := by decide +kernel
  refine left_out_covered (by decide) dropped (fun ban first => ?_) ?_
  · obtain rfl := Option.some.inj (found.symm.trans first)
    have matched : matchMask (lit "*!*@*") (collapse (lit "a*b!*@*")) = true := by decide +kernel
    exact Covers.of_glob (matchMask_sound matched) (by decide)
  · exact matchMask_sound (by decide +kernel)

theorem left_out_uncovered :
    addId localOp 100 0 (channelBanning [banned "a?b!*@*"]) (lit "a*b!*@*") .ban = .duplicate ∧
    Glob (lit "a*b!*@*") (lit "axyb!joe@mit.edu") ∧
    matchMask (lit "a*b!*@*") (lit "axyb!joe@mit.edu") = true ∧
    ∀ ban ∈ (channelBanning [banned "a?b!*@*"]).maskList .ban,
      ¬ Glob ban.banstr (lit "axyb!joe@mit.edu") ∧
        matchMask ban.banstr (lit "axyb!joe@mit.edu") = false := by
  refine ⟨by rfl, matchMask_sound (by decide +kernel), by decide +kernel, fun ban inside => ?_⟩
  obtain rfl := List.mem_singleton.1 inside
  have missed : matchMask (lit "a?b!*@*") (lit "axyb!joe@mit.edu") = false := by decide +kernel
  refine ⟨fun member => ?_, missed⟩
  have found := member.matchMask (by decide +kernel)
  exact Bool.false_ne_true (missed.symm.trans found)

end Ircd
