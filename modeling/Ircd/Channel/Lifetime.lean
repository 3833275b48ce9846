import Ircd.Channel.Runs

/-! A command and the blocks that it has freed: when it leaves them alone.

`danglingUses` grows with each access to a freed block, and a sound state holds no way to
a block that an earlier command has freed, so a command is safe where the list stays.
-/

set_option autoImplicit false

namespace Ircd

open Server

theorem Command.danglingUses_eq_iff {s : Server} (sound : s.Sound) (cmd : Command)
    {cptr sptr : ClientId} (routed : Routed s.toTables cptr sptr) (parv : List CStr) :
    (cmd.run s cptr sptr parv).danglingUses = s.danglingUses ↔ ¬ cmd.UsesFreed s sptr parv := by
  cases cmd with
  | join => exact mJoin_uses_iff sound cptr sptr parv
  | part => exact iff_of_true (tidy_mPart sound cptr sptr parv).danglingUses not_false
  | kick => exact iff_of_true (tidy_mKick sound cptr sptr parv).danglingUses not_false
  | sjoin => exact iff_of_true (clean_mSjoin sound cptr sptr parv).1.danglingUses not_false
  | mode => exact mMode_uses_iff sound routed parv

/-! A server with a link, a client behind it that is alone on `#c`, an operator, and a
juped channel that nobody is in. -/

def linkOne : Client :=
  { Client.zero with name := lit "one.net", status := .server, localFlag := true, from_ := 1 }

def anna : Client :=
  { Client.zero with
    name := lit "anna", username := lit "a", host := lit "one.org", status := .client, from_ := 1
    user := true, userServer := lit "one.net" }

def olly : Client :=
  { Client.zero with
    name := lit "olly", username := lit "o", host := lit "irc.org", status := .client, from_ := 3
    localFlag := true, anOper := true, user := true, userServer := lit "irc.net" }

def network : List Event :=
  [.connect 1 linkOne, .connect 2 anna, .connect 3 olly,
    .command .sjoin 1 1 [lit "one.net", lit "10", lit "#c", lit "+", lit "@anna"],
    .rehash [] [(lit "#jupe", lit "closed")]]

def networkServer : Server := machine.run (startUp (lit "irc.net") 100000) network

theorem network_steps : machine.Meets Step (startUp (lit "irc.net") 100000) network := by
  refine ⟨⟨⟨rfl, rfl, rfl, ?_⟩, id⟩, ⟨⟨rfl, rfl, rfl, ?_⟩, id⟩, ⟨⟨rfl, rfl, rfl, ?_⟩, id⟩,
    ⟨fun _ => rfl, id⟩, ⟨trivial, id⟩, trivial⟩
  · exact ⟨by decide, by decide⟩
  · exact ⟨by decide, by decide⟩
  · exact ⟨by decide, by decide⟩

theorem networkServer_sound : networkServer.Sound :=
  sound_run network_steps (List.prefix_refl _)

/-- `JOIN 0,#d` puts anna into the block of `#c` that her `0` has freed, and the second
`-j` on the juped channel reads and frees the block that the first has freed. -/
theorem networkServer_uses_freed :
    (networkServer.Sound ∧ Routed networkServer.toTables 1 2 ∧
      Routed networkServer.toTables 3 3) ∧
    (Command.join.run networkServer 1 2 [lit "anna", lit "0,#d"]).danglingUses ≠
      networkServer.danglingUses ∧
    (Command.mode.run networkServer 3 3 [lit "olly", lit "#jupe", lit "-jj"]).danglingUses ≠
      networkServer.danglingUses := by
  refine ⟨⟨networkServer_sound, ?_, fun _ => rfl⟩, ?_, ?_⟩
  · intro remote
    exact absurd remote (by decide +kernel)
  · decide +kernel
  · decide +kernel

theorem networkServer_mode_iff :
    (Command.mode.run networkServer 3 3 [lit "olly", lit "#jupe", lit "-j"]).danglingUses =
      networkServer.danglingUses ↔
        ¬ Command.mode.UsesFreed networkServer 3 [lit "olly", lit "#jupe", lit "-j"] :=
  Command.danglingUses_eq_iff networkServer_sound .mode (fun _ => rfl) _

end Ircd
