import Ircd.Channel.Edit

/-! Stages of a command that use no freed block.

`Clean` stages are made of edits; `Tidy` ones leave every channel settled besides. Both
compose, so a command is followed from one stage to the next.
-/

set_option autoImplicit false

namespace Ircd

namespace Server

structure Clean (s s' : Server) : Prop where
  edits : Tables.Edits s.toTables s'.toTables
  danglingUses : s'.danglingUses = s.danglingUses

structure Tidy (s s' : Server) : Prop extends Clean s s' where
  settled : ∀ c, s.Settled c → s'.Settled c

namespace Clean

variable {s s' s'' : Server}

theorem trans (h : Clean s s') (h' : Clean s' s'') : Clean s s'' :=
  ⟨h.edits.trans h'.edits, h'.danglingUses.trans h.danglingUses⟩

theorem sound (h : Clean s s') (sound : s.Sound) : s'.Sound := sound.edits h.edits

theorem directory (h : Clean s s') : Tables.SameDirectory s.toTables s'.toTables :=
  h.edits.directory

end Clean

namespace Tidy

variable {s s' s'' : Server}

theorem trans (h : Tidy s s') (h' : Tidy s' s'') : Tidy s s'' :=
  ⟨h.toClean.trans h'.toClean, fun c settled => h'.settled c (h.settled c settled)⟩

theorem same (tables : s'.toTables = s.toTables) (uses : s'.danglingUses = s.danglingUses) :
    Tidy s s' := by
  refine ⟨⟨?_, uses⟩, fun c settled => ?_⟩
  · rw [tables]
  · exact tables ▸ settled

theorem refl (s : Server) : Tidy s s := same rfl rfl

theorem edit (sound : s.Sound) (step : Tables.Edit s.toTables s'.toTables)
    (old : s'.nextChan = s.nextChan) (uses : s'.danglingUses = s.danglingUses) : Tidy s s' :=
  ⟨⟨.single step, uses⟩, fun _ settled => sound.settled_step step old settled⟩

theorem settings (sound : s.Sound) (alike : Tables.Alike s.toTables s'.toTables)
    (jupes : ∀ c, Tables.KeepsJupes s.toTables s'.toTables c)
    (uses : s'.danglingUses = s.danglingUses) : Tidy s s' :=
  edit sound (.settings alike jupes) alike.nextChan uses

end Tidy

section Sends

variable (s : Server)

@[simp] theorem emit_danglingUses (o : Output) : (s.emit o).danglingUses = s.danglingUses := rfl

@[simp] theorem edit_danglingUses (f : Tables → Tables) :
    (s.edit f).danglingUses = s.danglingUses := rfl

@[simp] theorem setChan_danglingUses (c : ChanId) (ch : Channel) :
    (s.setChan c ch).danglingUses = s.danglingUses := rfl

@[simp] theorem sendtoOne_danglingUses (u : ClientId) (num : Numeric) (args : List CStr) :
    (s.sendtoOne u num args).danglingUses = s.danglingUses := rfl

@[simp] theorem findChasing_danglingUses (sptr : ClientId) (user : CStr) :
    (s.findChasing sptr user).1.danglingUses = s.danglingUses := by
  unfold findChasing
  split <;> rfl

theorem touch_of_live {c : ChanId} (live : s.freed c = false) : s.touch c = s := by
  simp [touch, live]

theorem sendtoChannelButserv_danglingUses {c : ChanId} (live : s.freed c = false)
    (source : ClientId) (text : CStr) :
    (s.sendtoChannelButserv c source text).danglingUses = s.danglingUses := by
  simp [sendtoChannelButserv, s.touch_of_live live]

theorem sendtoMatchServs_danglingUses {c : ChanId} (live : s.freed c = false) (cptr : ClientId)
    (text : CStr) : (s.sendtoMatchServs (some c) cptr text).danglingUses = s.danglingUses := by
  simp only [sendtoMatchServs, s.touch_of_live live]
  split <;> rfl

end Sends

namespace Tidy

variable {s : Server}

theorem emit (o : Output) : Tidy s (s.emit o) := same rfl rfl

theorem sendtoOne (u : ClientId) (num : Numeric) (args : List CStr) :
    Tidy s (s.sendtoOne u num args) := same rfl rfl

theorem sendtoChannelButserv {c : ChanId} (live : s.freed c = false) (source : ClientId)
    (text : CStr) : Tidy s (s.sendtoChannelButserv c source text) :=
  same (by simp) (s.sendtoChannelButserv_danglingUses live source text)

theorem sendtoMatchServs {c : ChanId} (live : s.freed c = false) (cptr : ClientId) (text : CStr) :
    Tidy s (s.sendtoMatchServs (some c) cptr text) :=
  same (by simp) (s.sendtoMatchServs_danglingUses live cptr text)

theorem setChan (sound : s.Sound) {c : ChanId} {ch : Channel}
    (roll : Tables.SameRoll (s.chan c) ch)
    (jupe : (s.chan c).juped = true → ch.juped = true ∨ (s.chan c).memberIds ≠ []) :
    Tidy s (s.setChan c ch) := by
  refine settings sound (.setChan roll) (fun c' juped => ?_) rfl
  by_cases here : c' = c
  · subst here
    simpa [Tables.setChan] using jupe juped
  · simpa [Tables.setChan, here] using Or.inl juped

theorem editClient (sound : s.Sound) (u : ClientId) (f : Client → Client)
    (channel : ∀ cl, (f cl).channel = cl.channel) (joined : ∀ cl, (f cl).joined = cl.joined)
    (identity : ∀ cl, (f cl).identity = cl.identity) : Tidy s (s.editClient u f) :=
  settings sound (.setClient (channel _) (joined _) (identity _)) (fun _ juped => Or.inl juped) rfl

theorem delInvite (sound : s.Sound) {c : ChanId} (live : s.freed c = false) (u : ClientId) :
    Tidy s (s.delInvite u c) := by
  rw [Server.delInvite, s.touch_of_live live]
  refine settings sound (Tables.Alike.delInvite _ u c) (fun c' juped => Or.inl ?_) rfl
  exact (Tables.delInvite_juped s.toTables u c c').trans juped

theorem addUserToChannel (sound : s.Sound) {c : ChanId} {who : ClientId} (flags : MemberFlags)
    (listed : c ∈ s.channel) (new : who ∉ (s.chan c).memberIds) :
    Tidy s (s.addUserToChannel c who flags) := by
  unfold Server.addUserToChannel
  split
  · next user =>
    rw [s.touch_of_live (sound.live c listed)]
    refine edit sound (.enter flags listed user new) ?_ rfl
    simp [Tables.addUserToChannel, user, Tables.setClient, Tables.setChan]
  · exact .refl s

theorem removeUserFromChannel (sound : s.Sound) {c : ChanId} {who : ClientId}
    (member : who ∈ (s.chan c).memberIds) : Tidy s (s.removeUserFromChannel who c) := by
  have listed := sound.listed_of_member member
  rw [Server.removeUserFromChannel, s.touch_of_live (sound.live c listed)]
  exact edit sound (.leave member) (Tables.removeUserFromChannel_directory _ who c).2.1 rfl

end Tidy

theorem Clean.createChannel {s : Server} {name : CStr} (absent : s.hashFindChannel name = none) :
    Clean s (s.edit (·.createChannel name)) :=
  ⟨.single (.create absent), rfl⟩

end Server

end Ircd
