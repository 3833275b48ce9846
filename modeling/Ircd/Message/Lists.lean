import Ircd.Message.Targets

/-! A list of targets: when each is answered as if it came alone. -/

set_option autoImplicit false

namespace Ircd

def IsTarget (nick : CStr) : Prop := nick ≠ [] ∧ ∀ c ∈ nick, isComma c = false

theorem isTarget_of_mem_tokens {list nick : CStr} (h : nick ∈ tokens isComma list) :
    IsTarget nick :=
  ⟨tokensFrom_ne_nil h, not_sep_of_mem_tokens h⟩

theorem tokens_of_isTarget {nick : CStr} (h : IsTarget nick) : tokens isComma nick = [nick] := by
  have whole : tokensFrom isComma [] nick = if [].reverse ++ nick = [] then [] else
      [[].reverse ++ nick] := tokensFrom_of_no_sep h.2
  rw [tokens, whole, List.reverse_nil, List.nil_append, if_neg h.1]

theorem tokens_intercalate {names : List CStr} (h : ∀ nick ∈ names, IsTarget nick) :
    tokens isComma ([','].intercalate names) = names := by
  induction names with
  | nil => rfl
  | cons nick rest ih =>
    have here := h nick List.mem_cons_self
    have later := ih fun other inside => h other (List.mem_cons_of_mem _ inside)
    cases rest with
    | nil => simpa [List.intercalate] using tokens_of_isTarget here
    | cons other rest =>
      have joined : [','].intercalate (nick :: other :: rest) =
          nick ++ ',' :: [','].intercalate (other :: rest) := by
        simp [List.intercalate]
      rw [joined, tokens, tokensFrom_append isComma ',' rfl, ← tokens, ← tokens,
        tokens_of_isTarget here, later]
      rfl

theorem mem_canonizeFrom {kept names : List CStr} {nick : CStr}
    (h : nick ∈ canonizeFrom kept names) :
    nick ∈ names ∧ ∀ other ∈ kept, irccmp nick other ≠ .eq := by
  induction names generalizing kept with
  | nil => cases h
  | cons s rest ih =>
    simp only [canonizeFrom] at h
    split at h
    · obtain ⟨inside, apart⟩ := ih h
      exact ⟨List.mem_cons_of_mem _ inside, apart⟩
    · next fresh =>
      cases List.mem_cons.1 h with
      | inl first =>
        refine ⟨first ▸ List.mem_cons_self, fun other inside same => fresh ?_⟩
        rw [first] at same
        exact List.any_eq_true.2 ⟨other, inside, beq_iff_eq.2 same⟩
      | inr later =>
        obtain ⟨inside, apart⟩ := ih later
        exact ⟨List.mem_cons_of_mem _ inside,
          fun other known => apart other (List.mem_append_left _ known)⟩

def Distinct (names : List CStr) : Prop := names.Pairwise fun a b => irccmp a b ≠ .eq

theorem canonizeFrom_distinct (kept names : List CStr) : Distinct (canonizeFrom kept names) := by
  induction names generalizing kept with
  | nil => exact List.Pairwise.nil
  | cons s rest ih =>
    simp only [canonizeFrom]
    split
    · exact ih kept
    · refine List.Pairwise.cons (fun other inside same => ?_) (ih _)
      exact (mem_canonizeFrom inside).2 s (by simp) (irccmp_comm same)

theorem canonizeFrom_of_distinct {kept names : List CStr} (distinct : Distinct names)
    (apart : ∀ nick ∈ names, ∀ other ∈ kept, irccmp nick other ≠ .eq) :
    canonizeFrom kept names = names := by
  induction names generalizing kept with
  | nil => rfl
  | cons s rest ih =>
    obtain ⟨first, later⟩ := List.pairwise_cons.1 distinct
    have fresh : ¬(kept.any fun t => irccmp s t == .eq) = true := by
      intro known
      obtain ⟨other, inside, same⟩ := List.any_eq_true.1 known
      exact apart s List.mem_cons_self other inside (beq_iff_eq.1 same)
    simp only [canonizeFrom, if_neg fresh]
    refine congrArg (s :: ·) (ih later fun nick inside other known => ?_)
    cases List.mem_append.1 known with
    | inl old => exact apart nick (List.mem_cons_of_mem _ inside) other old
    | inr new =>
      rw [List.mem_singleton.1 new]
      exact fun same => first nick inside (irccmp_comm same)

theorem isTarget_of_mem_distinctTargets {list nick : CStr} (h : nick ∈ distinctTargets list) :
    IsTarget nick := isTarget_of_mem_tokens (mem_canonizeFrom h).1

theorem tokens_canonize (list : CStr) : tokens isComma (canonize list) = distinctTargets list :=
  tokens_intercalate fun _ inside => isTarget_of_mem_distinctTargets inside

namespace MessageState

def answersTo (s : MessageState) (call : MessageCall) (list : CStr) : List Sent :=
  (s.mMessage call list).1.answers.drop s.answers.length

def named (known : List CStr) (nick : CStr) : Bool := known.any fun other => irccmp nick other == .eq

/-- The targets do not get in each other's way: `m` is the state that those in `known`, each
alone, leave behind, and `seen` says that a prefix character came before. Each target is read
as it is alone, and gets the verdict that it would have got at first; one that is named again
has no answer; and behind one that makes the command return there are only targets without
one. -/
def Apart (s : MessageState) (call : MessageCall) (m : MessageState) (seen : Bool)
    (known : List CStr) : List CStr → Prop
  | [] => True
  | nick :: rest =>
    s.world.readsAlike call.sptr seen nick = true ∧
      if named known nick then
        m.silent call nick = true ∧
          if m.ends call nick then ∀ other ∈ canonizeFrom known rest, s.silent call other = true
          else s.Apart call (m.oneTarget call .none nick).1
            (seenAfter s.world call.sptr seen nick) known rest
      else
        s.sameVerdict m call nick = true ∧
          if s.ends call nick then
            ∀ other ∈ canonizeFrom (known ++ [nick]) rest, s.silent call other = true
          else s.Apart call (m.oneTarget call .none nick).1
            (seenAfter s.world call.sptr seen nick) (known ++ [nick]) rest

instance decidableApart (s : MessageState) (call : MessageCall) :
    ∀ (m : MessageState) (seen : Bool) (known names : List CStr),
      Decidable (s.Apart call m seen known names)
  | _, _, _, [] => .isTrue trivial
  | m, seen, known, nick :: rest =>
    have := decidableApart s call (m.oneTarget call .none nick).1
      (seenAfter s.world call.sptr seen nick) known rest
    have := decidableApart s call (m.oneTarget call .none nick).1
      (seenAfter s.world call.sptr seen nick) (known ++ [nick]) rest
    inferInstanceAs (Decidable (_ ∧ ite _ (_ ∧ ite _ _ _) (_ ∧ ite _ _ _)))

theorem drop_answers {s r : MessageState} {out : List Sent} (added : r.answers = s.answers ++ out) :
    r.answers.drop s.answers.length = out := by
  rw [added, List.drop_left]

theorem walk_singleton (s : MessageState) (call : MessageCall) (type : MessageType)
    (nick : CStr) : (s.walkTargets call type [nick]).1 = (s.oneTarget call type nick).1 := by
  simp only [walkTargets]
  split
  · next same => rw [same]
  · next same => rw [same]

theorem findPerson_apart {t : Tables} {a b : CStr} (apart : irccmp a b ≠ .eq) {v : ClientId}
    (found : t.findPerson a = some v) : t.findPerson b ≠ some v := by
  have named : ∀ {name : CStr}, t.findPerson name = some v → irccmp name (t.nameOf v) = .eq := by
    intro name found
    obtain ⟨client, _⟩ := Option.filter_eq_some_iff.1 found
    unfold Tables.findClient at client
    simpa using List.find?_some client
  exact fun other => apart (irccmp_trans (named found) (irccmp_comm (named other)))

theorem oneTarget_world (s : MessageState) (call : MessageCall) (type : MessageType)
    (nick : CStr) : (s.oneTarget call type nick).1.world = s.world := by
  cases found : s.world.findPerson nick with
  | none => exact (oneTarget_kept (v := 0) (by simp [found]) call type).world
  | some acptr => exact (oneTarget_kept (v := acptr + 1) (by simp [found]) call type).world

def alone (s : MessageState) (call : MessageCall) (nick : CStr) : List Sent :=
  (s.oneTarget call .none nick).1.answers.drop s.answers.length

theorem alone_of_silent {s : MessageState} {call : MessageCall} {nick : CStr}
    (silent : s.silent call nick = true) (nonempty : nick ≠ []) : s.alone call nick = [] := by
  rw [alone, oneTarget_silent silent nonempty, List.drop_length]

theorem answers_oneTarget {s s' : MessageState} {call : MessageCall} {type : MessageType}
    {nick : CStr} (fresh : Fresh s s' call nick) (nonempty : nick ≠ [])
    (alike : s'.world.readsAlike call.sptr (type != .none) nick = true) :
    (s.oneTarget call type nick).1.answers = s.answers ++ s'.alone call nick := by
  obtain ⟨out, left, right⟩ := oneTarget_same fresh nonempty alike
  rw [left, alone, drop_answers right]

theorem unlike_of_named {known : List CStr} {nick other : CStr} (again : named known nick = true)
    (new : named known other = false) : irccmp other nick ≠ .eq := by
  intro same
  obtain ⟨t, inside, equal⟩ := List.any_eq_true.1 again
  have found : named known other = true :=
    List.any_eq_true.2 ⟨t, inside, beq_iff_eq.2 (irccmp_trans same (beq_iff_eq.1 equal))⟩
  rw [new] at found
  cases found

theorem named_append_eq_false {known : List CStr} {nick other : CStr} :
    named (known ++ [nick]) other = false ↔ named known other = false ∧ irccmp other nick ≠ .eq := by
  simp [named]

theorem walk_answers {s : MessageState} {call : MessageCall} (names : List CStr)
    (m : MessageState) (type : MessageType) (known : List CStr)
    (targets : ∀ nick ∈ names, IsTarget nick) (world : m.world = s.world)
    (kept : ∀ nick ∈ names, named known nick = false → ∀ acptr,
      s.world.findPerson nick = some acptr → Kept acptr s m)
    (apart : s.Apart call m (type != .none) known names) :
    (m.walkTargets call type names).1.answers =
      m.answers ++ (canonizeFrom known names).flatMap (s.alone call) := by
  induction names generalizing m type known with
  | nil => simp [walkTargets, canonizeFrom]
  | cons nick rest ih =>
    obtain ⟨alike, behind⟩ := apart
    have here := targets nick List.mem_cons_self
    have others := fun other inside => targets other (List.mem_cons_of_mem nick inside)
    have alike' : m.world.readsAlike call.sptr (type != .none) nick = true := world ▸ alike
    have silence {known : List CStr}
        (silent : ∀ other ∈ canonizeFrom known rest, s.silent call other = true) :
        (canonizeFrom known rest).flatMap (s.alone call) = [] := by
      rw [List.flatMap_eq_nil_iff]
      exact fun other inside =>
        alone_of_silent (silent other inside) (others other (mem_canonizeFrom inside).1).1
    -- a target that is no other name of this one finds what it needs as it was
    have step : ∀ other ∈ rest, irccmp other nick ≠ .eq → named known other = false →
        ∀ acptr, s.world.findPerson other = some acptr →
          Kept acptr s (m.oneTarget call .none nick).1 := by
      intro other inside unlike new acptr found
      refine (kept other (List.mem_cons_of_mem _ inside) new acptr found).trans ?_
      exact oneTarget_kept (world ▸ findPerson_apart unlike found) call .none
    have world' : (m.oneTarget call .none nick).1.world = s.world := by
      rw [oneTarget_world, world]
    have same : (m.oneTarget call type nick).1 = (m.oneTarget call .none nick).1 :=
      oneTarget_alone here.1 alike'
    simp only [walkTargets]
    cases again : named known nick with
    | true =>
      rw [if_pos again] at behind
      obtain ⟨silent, behind⟩ := behind
      have skips : canonizeFrom known (nick :: rest) = canonizeFrom known rest := if_pos again
      have quiet : (m.oneTarget call type nick).1.answers = m.answers := by
        rw [same, oneTarget_silent silent here.1]
      rw [skips, ← quiet]
      rcases oneTarget_flow (Fresh.refl m call nick) here.1 alike' with
        ⟨code, stops, ending⟩ | ⟨next, goes, passing, seen⟩
      · rw [if_pos ending] at behind
        rw [silence behind, List.append_nil]
        split
        · next flow => rw [flow] at stops; cases stops
        · next flow => rw [flow]
      · rw [if_neg (by rw [passing]; exact Bool.false_ne_true), ← world, ← seen, ← same] at behind
        rw [← same] at world' step
        split
        · next r after flow =>
          rw [flow] at goes behind world' step ⊢
          cases goes
          refine ih r next known others world' (fun other inside new => ?_) behind
          exact step other inside (unlike_of_named again new) new
        · next flow => rw [flow] at goes; cases goes
    | false =>
      rw [if_neg (by rw [again]; exact Bool.false_ne_true)] at behind
      obtain ⟨verdict, behind⟩ := behind
      have fresh : Fresh m s call nick :=
        { world
          kept := kept nick List.mem_cons_self again
          verdict := fun acptr found => by
            simpa [sameVerdict, found] using verdict }
      have takes : canonizeFrom known (nick :: rest) = nick :: canonizeFrom (known ++ [nick]) rest :=
        if_neg (by rw [← named, again]; exact Bool.false_ne_true)
      have first := answers_oneTarget fresh here.1 alike
      rw [takes, List.flatMap_cons, ← List.append_assoc, ← first]
      rcases oneTarget_flow fresh here.1 alike with
        ⟨code, stops, ending⟩ | ⟨next, goes, passing, seen⟩
      · rw [if_pos ending] at behind
        rw [silence behind, List.append_nil]
        split
        · next flow => rw [flow] at stops; cases stops
        · next flow => rw [flow]
      · rw [if_neg (by rw [passing]; exact Bool.false_ne_true), ← seen, ← same] at behind
        rw [← same] at world' step
        split
        · next r after flow =>
          rw [flow] at goes behind world' step ⊢
          cases goes
          refine ih r next (known ++ [nick]) others world' (fun other inside new => ?_) behind
          obtain ⟨old, unlike⟩ := named_append_eq_false.1 new
          exact step other inside unlike old
        · next flow => rw [flow] at goes; cases goes

def ignored (s : MessageState) (call : MessageCall) : Bool :=
  (s.world.client call.sptr).myConnect &&
    (s.world.client call.sptr).joinLeaveCount ≥ maxJoinLeaveCount

/-- The targets as `m_message` walks them: those of a local client are without repetition. -/
def walked (s : MessageState) (call : MessageCall) (list : CStr) : List CStr :=
  if (s.world.client call.sptr).myConnect then distinctTargets list else tokens isComma list

structure Separate (s : MessageState) (call : MessageCall) (list : CStr) : Prop where
  given : list ≠ []
  textless : call.text = [] → (distinctTargets list).length = 1
  apart : call.text ≠ [] → s.ignored call = true ∨ s.Apart call s false [] (s.walked call list)

theorem answersTo_textless {s : MessageState} {call : MessageCall} (textless : call.text = [])
    {list : CStr} (given : list ≠ []) : s.answersTo call list =
      [.reply .errNoTextToSend [s.world.meName, call.parv0]] := by
  rw [answersTo, mMessage, if_neg given, if_pos textless]
  exact drop_answers (answers_emit s _)

theorem answersTo_ignored {s : MessageState} {call : MessageCall} (text : call.text ≠ [])
    (ignored : s.ignored call = true) {list : CStr} (given : list ≠ []) :
    s.answersTo call list = [] := by
  obtain ⟨local_, busy⟩ := (Bool.and_eq_true _ _).mp ignored
  rw [answersTo, mMessage, if_neg given, if_neg text, if_pos local_, if_pos (of_decide_eq_true busy)]
  exact List.drop_length

theorem answersTo_walked {s : MessageState} {call : MessageCall} (text : call.text ≠ [])
    (heard : s.ignored call = false) {list : CStr} (given : list ≠ []) :
    s.answersTo call list =
      (s.walkTargets call .none (s.walked call list)).1.answers.drop s.answers.length := by
  rw [answersTo, mMessage, if_neg given, if_neg text, walked]
  cases connected : (s.world.client call.sptr).myConnect with
  | false => rfl
  | true =>
    have idle : ¬(s.world.client call.sptr).joinLeaveCount ≥ maxJoinLeaveCount := by
      rw [ignored, connected, Bool.true_and] at heard
      exact of_decide_eq_false heard
    rw [if_pos rfl, if_neg idle, tokens_canonize]
    rfl

theorem isTarget_of_mem_walked {s : MessageState} {call : MessageCall} {list nick : CStr}
    (h : nick ∈ s.walked call list) : IsTarget nick := by
  unfold walked at h
  split at h
  · exact isTarget_of_mem_distinctTargets h
  · exact isTarget_of_mem_tokens h

theorem walked_of_isTarget (s : MessageState) (call : MessageCall) {nick : CStr}
    (h : IsTarget nick) : s.walked call nick = [nick] := by
  have single : tokens isComma nick = [nick] := tokens_of_isTarget h
  rw [walked, distinctTargets, single]
  split <;> rfl

theorem answersTo_single {s : MessageState} {call : MessageCall} (text : call.text ≠ [])
    (heard : s.ignored call = false) {nick : CStr} (h : IsTarget nick) :
    s.answersTo call nick = s.alone call nick := by
  rw [answersTo_walked text heard h.1, walked_of_isTarget s call h, walk_singleton]
  rfl

end MessageState

/-- Alice is an operator of `#c` and writes to it and to Bob. -/
def messageServer : MessageState where
  world :=
    { (Server.startUp (lit "hub") 1000).toTables with
      client := fun u =>
        if u = 0 then { Client.zero with name := lit "hub", status := .me, localFlag := true }
        else
          { Client.zero with
            name := if u = 1 then lit "alice" else lit "bob"
            status := .client
            localFlag := true
            user := true
            channel := if u = 1 then [0] else [] }
      clients := [2, 1, 0]
      chan := fun _ =>
        { Channel.zero with
          chname := lit "#c"
          users := 1
          members := [{ cptr := 1, flags := { MemberFlags.none with chanop := true } }] }
      channel := [0]
      channelTable := fun h => if h = hashChannelName (lit "#c") then [0] else []
      now := 1000
      fludBlock := 15
      fludNum := 4
      fludTime := 3
      droneTime := 1
      droneCount := 8
      getSendq := fun _ => 100000
      away := fun _ => none
      queue := fun _ lengths => lengths }
  fludblock := fun _ => 0
  fluders := fun _ => []
  fludees := fun _ => []
  isFlud := 0
  drone := fun _ => ⟨0, 0, 0⟩
  sendQ := fun _ => 0
  sent := []

def hello (notice : Bool) : MessageCall where
  cptr := 1
  sptr := 1
  parv0 := lit "alice"
  text := lit "hello"
  notice := notice

end Ircd
