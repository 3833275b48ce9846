import Ircd.Channel.JoinKeys

/-! The key of a channel, from the MODE that sets it to the JOIN that presents it.

`fix_key` drops colons and blanks and clears the eighth bit, and the key is cut to its length.
A JOIN takes the string apart at commas and compares what comes first, as it was typed.
-/

set_option autoImplicit false

namespace Ircd

def PlainKeyChar (c : Char) : Prop := c ≠ ':' ∧ ' ' < c ∧ c.toNat < 128

instance (c : Char) : Decidable (PlainKeyChar c) :=
  inferInstanceAs (Decidable (c ≠ ':' ∧ ' ' < c ∧ c.toNat < 128))

theorem plainKeyChar_iff (c : Char) :
    PlainKeyChar c ↔ c.toNat ≠ 58 ∧ 32 < c.toNat ∧ c.toNat < 128 := by
  have colon : c ≠ ':' ↔ c.toNat ≠ 58 := not_congr Char.toNat_inj.symm
  have blank : ' ' < c ↔ 32 < c.toNat := by
    rw [Char.lt_def, UInt32.lt_iff_toNat_lt]
    rfl
  rw [PlainKeyChar, colon, blank]

theorem PlainKeyChar.of_toUpper {a b : Char} (plain : PlainKeyChar a)
    (same : toUpper a = toUpper b) : PlainKeyChar b := by
  rw [plainKeyChar_iff] at plain ⊢
  have value := congrArg Char.toNat same
  rw [toNat_toUpper, toNat_toUpper] at value
  split at value <;> split at value <;> omega

theorem PlainKeyChar.not_isSpace {c : Char} (plain : PlainKeyChar c) : isSpace c = false := by
  obtain ⟨-, high, -⟩ := (plainKeyChar_iff c).mp plain
  have blank : c ≠ ' ' := fun same => absurd plain.2.1 (same ▸ lt_irrefl ' ')
  simp only [isSpace, Bool.or_eq_false_iff, Bool.and_eq_false_iff, decide_eq_false_iff_not,
    beq_eq_false_iff_ne]
  exact ⟨.inr (by omega), blank⟩

theorem sevenBit_eq {c : Char} (plain : PlainKeyChar c) : sevenBit c = c := by
  rw [sevenBit, Nat.mod_eq_of_lt plain.2.2, Char.ofNat_toNat]

theorem fixKey_eq {s : CStr} (plain : ∀ c ∈ s, PlainKeyChar c) : fixKey s = s := by
  have same : s.map sevenBit = s := by
    calc s.map sevenBit = s.map id :=
          List.map_congr_left fun c inside => sevenBit_eq (plain c inside)
      _ = s := List.map_id s
  rw [fixKey, same]
  apply List.filter_eq_self.mpr
  intro c inside
  simpa using ⟨(plain c inside).1, (plain c inside).2.1⟩

theorem plain_of_mem_fixKey {s : CStr} {c : Char} (inside : c ∈ fixKey s) : PlainKeyChar c := by
  obtain ⟨changed, kept⟩ := List.mem_filter.mp inside
  obtain ⟨d, -, rfl⟩ := List.mem_map.mp changed
  have kept : sevenBit d ≠ ':' ∧ ' ' < sevenBit d := by simpa using kept
  refine ⟨kept.1, kept.2, ?_⟩
  rw [sevenBit, toNat_ofNat (by omega)]
  omega

theorem fixKey_append (s s' : CStr) : fixKey (s ++ s') = fixKey s ++ fixKey s' := by
  rw [fixKey, fixKey, fixKey, List.map_append, List.filter_append]

def keyOf (s : CStr) : CStr := (fixKey (checkString s)).take keyLen

theorem ModeLoop.changeKey_key {env : ModeEnv} {st : ModeLoop} (arg : CStr)
    (add : st.whatt = .add) :
    (st.changeKey env (arg.take keyLen)).ch.mode.key = arg.take keyLen := by
  unfold ModeLoop.changeKey
  rw [if_pos add]
  split
  · next same =>
    rw [Quiet.touch_ch]
    exact same.2
  · exact List.take_take.trans (by rw [Nat.min_self])

def beforeComma (s : CStr) : CStr := s.takeWhile fun c => !isComma c

/-- A string that a JOIN presents as the key that MODE made of it: what is before the first
comma is plain and no longer than a key, and nothing of the rest gets into the key. -/
structure Presentable (s : CStr) : Prop where
  some : beforeComma s ≠ []
  plain : ∀ c ∈ beforeComma s, PlainKeyChar c
  short : (beforeComma s).length ≤ keyLen
  whole : beforeComma s = s ∨ (beforeComma s).length = keyLen

def presented (s : CStr) : CStr := (tokens isComma s).getD 0 []

theorem split_at_comma (s : CStr) :
    beforeComma s = s ∨ ∃ rest, s = beforeComma s ++ ',' :: rest := by
  have whole : beforeComma s ++ s.dropWhile (fun c => !isComma c) = s :=
    List.takeWhile_append_dropWhile
  cases rest : s.dropWhile fun c => !isComma c with
  | nil =>
    rw [rest, List.append_nil] at whole
    exact .inl whole
  | cons c rest' =>
    have comma : c = ',' := by
      have head := List.head?_dropWhile_not (fun c => !isComma c) s
      rw [rest] at head
      simpa [isComma] using head
    rw [rest, comma] at whole
    exact .inr ⟨rest', whole.symm⟩

theorem presented_eq {s : CStr} (some : beforeComma s ≠ []) : presented s = beforeComma s := by
  have clean : ∀ c ∈ beforeComma s, isComma c = false := by
    intro c inside
    simpa using List.mem_takeWhile_imp (p := fun c => !isComma c) inside
  have first : tokens isComma (beforeComma s) = [beforeComma s] := by
    rw [tokens, tokensFrom_of_no_sep clean]
    exact if_neg some
  rcases split_at_comma s with whole | ⟨rest, whole⟩
  · rw [whole] at first
    rw [presented, first, whole]
    rfl
  · rw [presented, whole, tokens, tokensFrom_append isComma ',' rfl, ← tokens, first, ← whole]
    rfl

/-- A plain string stands in front of its key, with what is made of the rest. -/
theorem keyOf_append (front rest : CStr) (some : front ++ rest ≠ [])
    (plain : ∀ c ∈ front, PlainKeyChar c) :
    keyOf (front ++ rest) =
      (front ++ fixKey (rest.takeWhile fun c => !isSpace c)).take keyLen := by
  have kept : ∀ c ∈ front, (!isSpace c) = true := fun c inside => by
    rw [(plain c inside).not_isSpace]
    rfl
  rw [keyOf, checkString, if_neg some, List.takeWhile_append_of_pos kept, fixKey_append,
    fixKey_eq plain]

/-- What of the rest may follow the plain part in the key: a comma always does. -/
theorem keyOf_split {s : CStr} (some : beforeComma s ≠ [])
    (plain : ∀ c ∈ beforeComma s, PlainKeyChar c) :
    ∃ more, keyOf s = (beforeComma s ++ more).take keyLen ∧ (more = [] ↔ beforeComma s = s) := by
  rcases split_at_comma s with whole | ⟨rest, whole⟩
  · have front := keyOf_append (beforeComma s) [] (by simpa using some) plain
    rw [List.append_nil, whole] at front
    refine ⟨fixKey [], ?_, iff_of_true rfl whole⟩
    rw [whole]
    exact front
  · have front := keyOf_append (beforeComma s) (',' :: rest) (by simp) plain
    rw [← whole] at front
    refine ⟨_, front, iff_of_false ?_ ?_⟩
    · intro none
      have comma : ',' ∈ fixKey ((',' :: rest).takeWhile fun c => !isSpace c) :=
        List.mem_filter.mpr ⟨List.mem_cons_self, rfl⟩
      rw [none] at comma
      cases comma
    · intro same
      rw [same] at whole
      have longer := congrArg List.length whole
      rw [List.length_append, List.length_cons] at longer
      omega

theorem plain_of_same {s t : CStr} (same : irccmp (keyOf s) t = .eq) :
    ∀ c ∈ t, PlainKeyChar c := by
  intro c inside
  have upper := (irccmp_eq_iff _ _).mp same
  have image : toUpper c ∈ (keyOf s).map toUpper := by
    rw [upper]
    exact List.mem_map_of_mem inside
  obtain ⟨d, member, fold⟩ := List.mem_map.mp image
  exact (plain_of_mem_fixKey (List.mem_of_mem_take member)).of_toUpper fold

theorem toUpper_comma {c : Char} (same : toUpper c = ',') : c = ',' := by
  have value := congrArg Char.toNat same
  rw [toNat_toUpper] at value
  have comma : ','.toNat = 44 := rfl
  apply Char.toNat_inj.mp
  split at value <;> omega

/-- A string that begins with a comma sets a key that does, and no JOIN presents one. -/
theorem beforeComma_of_same {s : CStr} (same : irccmp (keyOf s) (presented s) = .eq) :
    beforeComma s ≠ [] := by
  intro none
  rcases split_at_comma s with whole | ⟨rest, whole⟩
  · rw [← whole, none] at same
    have star : keyOf [] = ['*'] := by decide
    rw [star] at same
    cases same
  · rw [none, List.nil_append] at whole
    have image : ',' ∈ (presented s).map toUpper := by
      rw [← (irccmp_eq_iff _ _).mp same]
      refine List.mem_map.mpr ⟨',', ?_, rfl⟩
      rw [whole]
      exact List.mem_cons_self
    obtain ⟨c, inside, fold⟩ := List.mem_map.mp image
    have comma := toUpper_comma fold
    rw [comma] at inside
    unfold presented at inside
    cases list : tokens isComma s with
    | nil =>
      rw [list] at inside
      cases inside
    | cons first others =>
      rw [list] at inside
      have clean := not_sep_of_mem_tokens (list ▸ List.mem_cons_self : first ∈ tokens isComma s)
      exact absurd (clean ',' inside) (by decide)

theorem same_iff (s : CStr) :
    irccmp (keyOf s) (presented s) = .eq ↔ Presentable s := by
  constructor
  · intro same
    have some := beforeComma_of_same same
    rw [presented_eq some] at same
    have plain := plain_of_same same
    obtain ⟨more, key, all⟩ := keyOf_split some plain
    have size := irccmp_length same
    rw [key, List.length_take, List.length_append] at size
    refine ⟨some, plain, by omega, ?_⟩
    by_cases full : (beforeComma s).length = keyLen
    · exact .inr full
    · left
      apply all.mp
      apply List.length_eq_zero_iff.mp
      omega
  · intro h
    obtain ⟨more, key, all⟩ := keyOf_split h.some h.plain
    have cut : (beforeComma s ++ more).take keyLen = beforeComma s := by
      rcases h.whole with whole | full
      · rw [all.mpr whole, List.append_nil]
        exact List.take_of_length_le h.short
      · rw [← full]
        exact List.take_left
    rw [presented_eq h.some, key, cut, irccmp_self]

/-- A letter `k` of a local operator that sets a key: the loop of `set_channel_mode` before it,
wherever it stands in a MODE, and the string that was typed. -/
structure KeySetting where
  env : ModeEnv
  st : ModeLoop
  text : CStr
  mine : env.myClient = true
  op : env.isok = true
  add : st.whatt = .add
  given : st.parv.head? = some text
  first : st.keychange = false
  sets : keyOf text ≠ []
  fits : st.fits (keyOf text).length = true

namespace KeySetting

def after (k : KeySetting) : Channel := (k.st.keyLetter k.env).ch

/-- The string is the only key of a JOIN of the channel, whatever has happened to the channel
but for its key: `can_join` does not refuse it for its key. -/
def Admits (k : KeySetting) : Prop :=
  ∀ (ch : Channel), ch.mode.key = k.after.mode.key →
    ∀ (cl : Client) (c : ChanId) (flags : MemberFlags) (nick name : CStr),
      (canJoin cl ch c (some (rankedKey [nick, name, k.text] 0)) flags).1 ≠ some .errBadChannelKey

variable (k : KeySetting)

theorem after_key : k.after.mode.key = keyOf k.text := by
  obtain ⟨rest, parv⟩ : ∃ rest, k.st.parv = k.text :: rest := List.head?_eq_some_iff.mp k.given
  have argument : k.st.keyArgument k.env = some (fixKey (checkString k.text), k.st.eat) := by
    unfold ModeLoop.keyArgument
    rw [parv]
    simp only [k.add, k.mine, reduceCtorEq, if_false, if_true]
  have some : fixKey (checkString k.text) ≠ [] := by
    intro none
    apply k.sets
    rw [keyOf, none]
    rfl
  have room : k.st.fits ((fixKey (checkString k.text)).take keyLen).length = true := k.fits
  have query : k.st.whatt ≠ .query := by
    rw [k.add]
    decide
  have first : k.st.eat.keychange = false := k.first
  unfold after ModeLoop.keyLetter
  rw [if_neg query, argument]
  simp only [first, Bool.false_eq_true, if_false, some, k.op, Bool.not_true]
  split
  · next full =>
    have same : ({ k.st.eat with keychange := true } : ModeLoop).fits
        ((fixKey (checkString k.text)).take keyLen).length =
      k.st.fits ((fixKey (checkString k.text)).take keyLen).length := rfl
    rw [same, room] at full
    cases full
  · exact ModeLoop.changeKey_key _ k.add

def keyedChannel (key : CStr) : Channel :=
  { Channel.zero with mode := { Channel.zero.mode with key := key } }

theorem keyedChannel_refuses {key typed : CStr}
    (refused : key ≠ [] ∧ (typed = [] ∨ irccmp key typed ≠ .eq)) :
    (canJoin Client.zero (keyedChannel key) 0 (some typed) MemberFlags.none).1 =
      some .errBadChannelKey := by
  have banned : isBanned Client.zero (keyedChannel key) ≠ .banned := by
    have clear : isBanned Client.zero (keyedChannel key) = .clear := rfl
    rw [clear]
    decide
  have invited : ¬ ((keyedChannel key).mode.mode .modeInviteOnly = true ∧
      (!isInvex Client.zero (keyedChannel key)) = true ∧ 0 ∉ Client.zero.invited) :=
    fun only => Bool.false_ne_true only.1
  have juped : ¬ (keyedChannel key).juped = true := Bool.false_ne_true
  rw [canJoin, if_neg juped]
  dsimp only
  rw [if_neg banned, if_neg invited]
  exact congrArg Prod.fst (if_pos refused)

theorem admits_iff_same :
    k.Admits ↔ irccmp (keyOf k.text) (presented k.text) = .eq := by
  have ranked : ∀ nick name : CStr, rankedKey [nick, name, k.text] 0 = presented k.text :=
    fun _ _ => rfl
  constructor
  · intro admits
    by_contra differ
    apply admits (keyedChannel (keyOf k.text)) k.after_key.symm Client.zero 0 MemberFlags.none [] []
    rw [ranked]
    exact keyedChannel_refuses ⟨k.sets, .inr differ⟩
  · intro same ch key cl c flags nick name
    rw [ranked]
    have typed : presented k.text ≠ [] := by
      intro none
      rw [none] at same
      exact k.sets (List.length_eq_zero_iff.mp (irccmp_length same))
    have fits : ¬ (ch.mode.key ≠ [] ∧ (((some (presented k.text)).getD [] = []) ∨
        irccmp ch.mode.key ((some (presented k.text)).getD []) ≠ .eq)) := by
      rw [key, k.after_key]
      exact fun refused => refused.2.elim typed (fun differ => differ same)
    unfold canJoin
    split
    · simp
    · dsimp only
      split
      · simp
      · split
        · simp
        · split <;> simp

/-- The key that a local operator sets lets in who types the same. -/
theorem admits_iff : k.Admits ↔ Presentable k.text := k.admits_iff_same.trans (same_iff k.text)

end KeySetting

/-- Olly makes the channel `#d`. -/
def commaServer : Server := Command.join.run networkServer 3 3 [lit "olly", lit "#d"]

def plainSetting : KeySetting where
  env := modeEnv commaServer.toTables 3 3 2
  st := modeStart (commaServer.chan 2) [lit "Open{sesame}", lit "more"]
  text := lit "Open{sesame}"
  mine := by decide +kernel
  op := by decide +kernel
  add := rfl
  given := rfl
  first := rfl
  sets := by decide +kernel
  fits := by decide +kernel

theorem plainSetting_admits : plainSetting.Admits := by
  apply plainSetting.admits_iff.mpr
  exact ⟨by decide, by decide, by decide, Or.inl (by decide)⟩

/-- She sets a key with a comma in it. -/
def commaSetting : KeySetting where
  env := modeEnv commaServer.toTables 3 3 2
  st := modeStart (commaServer.chan 2) [lit "a,b"]
  text := lit "a,b"
  mine := by decide +kernel
  op := by decide +kernel
  add := rfl
  given := rfl
  first := rfl
  sets := by decide +kernel
  fits := by decide +kernel

theorem commaSetting_refused :
    ((commaServer.setChannelMode 3 3 2 [lit "+k", lit "a,b"]).chan 2).mode.key = lit "a,b" ∧
      rankedKey [lit "olly", lit "#d", lit "a,b"] 0 = lit "a" ∧ ¬ commaSetting.Admits := by
  refine ⟨by decide +kernel, by decide +kernel, fun admits => ?_⟩
  have same := commaSetting.admits_iff_same.mp admits
  exact absurd same (by decide +kernel)

end Ircd
