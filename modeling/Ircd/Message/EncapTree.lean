import Ircd.Channel.Names
import Ircd.Message.Encap

/-! ENCAP through a tree of servers.

A server goes by the names of its own links when it sends a line on, so a server that the mask
means is reached only where the mask means the servers on the way to it too. The line is put
together again on the way: what `parse` reads off the new line is the same where it is not cut
and a command without parameters is a word.
-/

set_option autoImplicit false

namespace Ircd

open CMem LinkNet

/-- A server that ENCAP comes to: its tables and its commands, the link over which it comes,
and what the last line has left in the buffers of `parse`. -/
structure EncapServer extends LinkNet where
  msgTreeRoot : MessageTree
  up : ClientId
  para : Nat → Option Nat
  stale : CStr

namespace EncapServer

def takes (s : EncapServer) (line : CStr) : Option (Handed × EncapRun) :=
  s.encapLine s.msgTreeRoot false s.up s.para line s.stale

/-- The links that the lines go out over, each cut by `sendto_one`. -/
def sentOver (s : EncapServer) (h : Handed) (run : EncapRun) : List (ClientId × CStr) :=
  match h.parv 1 with
  | none => []
  | some mask =>
    let links := ((s.takers s.up mask).map fun u => (s.client u).from_).filter fun u => !s.dead u
    links.zip (run.built.map fun buf => buf.text.take lineMax)

end EncapServer

/-- The servers behind the links of a server: the address of a link, the server there with those
behind it, and the other links. -/
inductive Behind where
  | leaf
  | link (id : ClientId) (s : EncapServer) (beyond rest : Behind)

namespace Behind

def ids : Behind → List ClientId
  | .leaf => []
  | .link id _ _ rest => id :: rest.ids

def routes : Behind → List (List (ClientId × CStr))
  | .leaf => []
  | .link id s beyond rest =>
    [(id, s.meName)] :: beyond.routes.map ((id, s.meName) :: ·) ++ rest.routes

/-- What each server receives, under the links on the way to it, when lines are sent over the
links. -/
def received : Behind → List (ClientId × CStr) → List (List ClientId × List (Option CStr))
  | .leaf, _ => []
  | .link id s beyond rest, sent =>
    ((sent.filter fun out => out.1 == id).flatMap fun out =>
      match s.takes out.2 with
      | none => []
      | some (h, run) =>
        ([id], h.params) :: (beyond.received (s.sentOver h run)).map fun got =>
          (id :: got.1, got.2)) ++
      rest.received sent

def All (p : EncapServer → Prop) : Behind → Prop
  | .leaf => True
  | .link _ s beyond rest => p s ∧ beyond.All p ∧ rest.All p

end Behind

structure LinkNet.Carries (n : LinkNet) (ids : List ClientId) : Prop where
  links : n.servCptrList.Perm ids
  apart : n.servCptrList.Nodup
  self : ∀ u ∈ n.servCptrList, (n.client u).from_ = u
  up : ∀ u ∈ n.servCptrList, n.dead u = false
  cap : ∀ u ∈ n.servCptrList, n.capEncap u = true

structure EncapServer.Knows (s : EncapServer) (source : CStr) : Prop where
  encap : ∃ mptr, treeParse s.msgTreeRoot (lit "ENCAP") = some mptr ∧ mptr.cmd = lit "ENCAP" ∧
    mptr.parameters = maxPara
  source : ∃ sptr para0,
    originOf s.toTables s.up (some (source.take hostLen)) = .inr (sptr, para0) ∧
      s.nameOf sptr = source

/-- The servers behind the links of `n` make up a tree, in which each knows its neighbours. -/
def Behind.Joined (source : CStr) : LinkNet → Behind → Prop
  | _, .leaf => True
  | n, .link id s beyond rest =>
    n.nameOf id = s.meName ∧ s.Knows source ∧ s.Carries (s.up :: beyond.ids) ∧
      beyond.Joined source s.toLinkNet ∧ rest.Joined source n

structure EncapMessage (source : CStr) (line : CStr) (params : List CStr) : Prop where
  reads : Derives (fun _ => maxPara - 1) line ⟨some source, lit "ENCAP", params⟩
  free : NulFree line
  short : line.length ≤ lineMax
  two : 2 ≤ params.length

/-- The origin is one of the servers that `sendto_match_cap_servs_butone` runs on; there is no
link that the message came from. -/
def LinkNet.starts (n : LinkNet) (mask line : CStr) : List (ClientId × CStr) :=
  (n.servCptrList.filter fun cptr => n.capEncap cptr && matchMask mask (n.nameOf cptr)).map
    fun cptr => ((n.client cptr).from_, line)

/-- Each server that the mask means receives the message once and as it is, and none sends it
back. -/
structure EncapArrives (n : LinkNet) (tree : Behind) (mask line : CStr) (params : List CStr) :
    Prop where
  once : ∀ route ∈ tree.routes, (∀ last ∈ route.getLast?, matchMask mask last.2 = true) →
    (tree.received (n.starts mask line)).filter (fun got => got.1 == route.map Prod.fst) =
      [(route.map Prod.fst, params.map some)]
  onward : tree.All fun s => ∀ line h run, s.takes line = some (h, run) →
    s.up ∉ (s.sentOver h run).map Prod.fst

/-- What stands behind `ENCAP` in the line that `ms_encap` puts together. -/
def encapRest (params : List CStr) : CStr :=
  (params.dropLast.flatMap fun word => ' ' :: word) ++
    ' ' :: (if params.length = 2 then [] else [':']) ++ params.getLast?.getD []

def encapRelay (source : CStr) (params : List CStr) : CStr :=
  ':' :: source ++ lit " ENCAP" ++ encapRest params

def IsMiddle (word : CStr) : Prop := IsField word ∧ word.head? ≠ some ':'

/-- The line is read as it was: a command without parameters is a word, and the whole of the
line may be sent. -/
structure StaysWhole (source : CStr) (params : List CStr) : Prop where
  lone : params.length = 2 → ∀ command ∈ params.getLast?, IsMiddle command
  room : (encapRelay source params).length ≤ lineMax

theorem Params.reading_eq {n : Nat} {rest : CStr} {params params' : List CStr}
    (few : n + 1 < maxPara) (free : NulFree rest) (h : Params (n + 1) rest params)
    (h' : Params (n + 1) rest params') :
    params = params' := by
  have count : n + 1 = max 1 (min (n + 2) maxPara - 1) := by
    simp only [maxPara] at few ⊢
    omega
  rcases h.head with none | blank
  · rw [h.eq_nil (List.head?_eq_none_iff.1 none), h'.eq_nil (List.head?_eq_none_iff.1 none)]
  · obtain ⟨tail, rfl⟩ : ∃ tail, rest = ' ' :: tail := by
      cases rest with
      | nil => cases blank
      | cons c tail =>
        obtain rfl := Option.some.inj blank
        exact ⟨tail, rfl⟩
    have text : ' ' :: cAt tail 0 = ' ' :: tail := by
      rw [cAt, List.drop_zero, cString, List.takeWhile_eq_self_iff.2]
      intro c inside
      simpa using free c (List.mem_cons_of_mem ' ' inside)
    exact h.unique h' count (.inr ⟨0, rfl, text⟩)

theorem NulFree.take {s : CStr} (h : NulFree s) (k : Nat) : NulFree (s.take k) :=
  fun c inside => h c (List.mem_of_mem_take inside)

theorem Params.of_middle {n : Nat} {word rest : CStr} {params : List CStr}
    (few : n + 2 < maxPara) (middle : IsMiddle word)
    (starts : rest.head? = none ∨ rest.head? = some ' ') (free : NulFree (' ' :: (word ++ rest)))
    (h : Params (n + 2) (' ' :: (word ++ rest)) params) :
    ∃ params', params = word :: params' ∧ Params (n + 1) rest params' := by
  obtain ⟨params', more⟩ := Params.total n rest starts
  have whole : Params (n + 2) (' ' :: (word ++ rest)) (word :: params') :=
    .middle 0 middle.1 middle.2 more
  exact ⟨params', Params.reading_eq few free h whole, more⟩

theorem Params.middles {n : Nat} {rest : CStr} {params : List CStr} (h : Params n rest params) :
    ∀ word ∈ params.dropLast, IsMiddle word := by
  induction h with
  | nothing => exact fun _ no => by cases no
  | trailing => exact fun _ no => by cases no
  | last => exact fun _ no => by cases no
  | @middle n k first rest params word plain more ih =>
    intro other inside
    cases params with
    | nil => cases inside
    | cons second params =>
      rcases List.mem_cons.1 inside with rfl | later
      · exact ⟨word, plain⟩
      · exact ih other later

theorem params_behind_colon {init : List CStr} {last : CStr} {n : Nat}
    (middles : ∀ word ∈ init, IsMiddle word) (few : init.length ≤ n) :
    Params (n + 1) (init.flatMap (fun word => ' ' :: word) ++ ' ' :: ':' :: last)
      (init ++ [last]) := by
  induction init generalizing n with
  | nil => exact .trailing n 0 last
  | cons word init ih =>
    obtain ⟨n, rfl⟩ : ∃ m, n = m + 1 := ⟨n - 1, by simp only [List.length_cons] at few; omega⟩
    have middle := middles word List.mem_cons_self
    have rest := ih (fun other inside => middles other (List.mem_cons_of_mem word inside))
      (Nat.le_of_succ_le_succ few)
    rw [List.flatMap_cons, List.append_assoc]
    exact .middle 0 middle.1 middle.2 rest

/-- A line that was cut is read otherwise: the last parameter is missing or shorter. -/
theorem Params.whole_of_colon {init : List CStr} {last : CStr} {n k : Nat}
    (few : n + 1 < maxPara) (middles : ∀ word ∈ init, IsMiddle word)
    (free : NulFree (init.flatMap (fun word => ' ' :: word) ++ ' ' :: ':' :: last))
    (h : Params (n + 1)
      ((init.flatMap (fun word => ' ' :: word) ++ ' ' :: ':' :: last).take k) (init ++ [last])) :
    (init.flatMap (fun word => ' ' :: word) ++ ' ' :: ':' :: last).length ≤ k := by
  induction init generalizing n k with
  | nil =>
    match k with
    | 0 => exact absurd (h.eq_nil rfl) (List.cons_ne_nil last [])
    | 1 =>
      have blank := Params.reading_eq few (free.take 1) h (.nothing (n + 1) 1)
      exact absurd blank (List.cons_ne_nil last [])
    | k + 2 =>
      have shorter : Params (n + 1) (' ' :: ':' :: last.take k) [last.take k] :=
        .trailing n 0 (last.take k)
      have same := Params.reading_eq few (free.take (k + 2)) h shorter
      have lengths := congrArg List.length (List.cons.inj same).1
      rw [List.length_take] at lengths
      simp only [List.flatMap_nil, List.nil_append, List.length_cons]
      omega
  | cons word init ih =>
    have count := h.length_le
    have width := h.width_le
    rw [List.length_take] at width
    simp only [List.cons_append, paramsWidth_cons] at width
    -- the first word is whole, so the cut is behind it
    obtain ⟨n, rfl⟩ : ∃ m, n = m + 1 := by
      refine ⟨n - 1, ?_⟩
      simp only [List.length_append, List.length_cons, List.length_nil] at count
      omega
    have middle := middles word List.mem_cons_self
    have text : (word :: init).flatMap (fun word => ' ' :: word) ++ ' ' :: ':' :: last =
        ' ' :: (word ++ (init.flatMap (fun word => ' ' :: word) ++ ' ' :: ':' :: last)) := by
      simp
    generalize tail : init.flatMap (fun word => ' ' :: word) ++ ' ' :: ':' :: last = rest at *
    have blank : rest.head? = some ' ' := by
      rw [← tail]
      cases init <;> rfl
    rw [text] at h free ⊢
    obtain ⟨j, rfl⟩ : ∃ j, k = j + word.length + 1 := ⟨k - (word.length + 1), by omega⟩
    have cut : (' ' :: (word ++ rest)).take (j + word.length + 1) =
        ' ' :: (word ++ rest.take j) := by
      rw [List.take_succ_cons, List.take_append, List.take_of_length_le (by omega),
        Nat.add_sub_cancel]
    have starts : (rest.take j).head? = none ∨ (rest.take j).head? = some ' ' := by
      cases j with
      | zero => exact .inl rfl
      | succ j =>
        right
        rw [List.head?_take, if_neg (Nat.succ_ne_zero j)]
        exact blank
    rw [cut] at h
    have freeCut := cut ▸ free.take (j + word.length + 1)
    obtain ⟨params', same, more⟩ := h.of_middle (by omega) middle starts freeCut
    obtain rfl := (List.cons.inj same).2
    have whole := ih (by omega)
      (fun other inside => middles other (List.mem_cons_of_mem word inside))
      (fun c inside => free c (by simp [inside])) more
    simp only [List.length_cons, List.length_append]
    omega

theorem Params.lone {n : Nat} {command : CStr} (two : 2 ≤ n)
    (h : Params n (' ' :: command) [command]) : IsMiddle command := by
  generalize text : ' ' :: command = line at h
  have lengths := congrArg List.length text
  generalize only : [command] = params at h
  cases h with
  | nothing => cases only
  | trailing n j rest =>
    obtain rfl := (List.cons.inj only).1
    simp at lengths
  | last => omega
  | middle j word plain more =>
    obtain ⟨rfl, rfl⟩ := List.cons.inj only
    exact ⟨word, plain⟩

/-- The parameters are read off the line that is sent on exactly where the line is whole. -/
theorem params_encapRest {params : List CStr} {k : Nat} (two : 2 ≤ params.length)
    (few : params.length < maxPara) (middles : ∀ word ∈ params.dropLast, IsMiddle word)
    (free : NulFree (encapRest params)) :
    Params (maxPara - 1) ((encapRest params).take k) params ↔
      (params.length = 2 → ∀ command ∈ params.getLast?, IsMiddle command) ∧
        (encapRest params).length ≤ k := by
  obtain ⟨init, last, rfl⟩ : ∃ init last, params = init ++ [last] := by
    have some_ : params ≠ [] := by
      rintro rfl
      cases two
    exact ⟨params.dropLast, params.getLast some_, (List.dropLast_append_getLast some_).symm⟩
  rw [List.dropLast_concat] at middles
  -- two parameters go without a colon, more go with one before the last
  by_cases pair : (init ++ [last]).length = 2
  · obtain ⟨mask, rfl⟩ := List.length_eq_one_iff.1 (show init.length = 1 by simpa using pair)
    have mask_ := middles mask (List.mem_singleton_self mask)
    have text : encapRest ([mask] ++ [last]) = ' ' :: (mask ++ ' ' :: last) := by
      simp [encapRest]
    have two_ : ([mask] ++ [last]).length = 2 := rfl
    rw [text] at free ⊢
    constructor
    · intro h
      have width := h.width_le
      rw [List.length_take] at width
      simp only [List.cons_append, List.nil_append, paramsWidth_cons, paramsWidth_nil] at width
      have room : (' ' :: (mask ++ ' ' :: last)).length ≤ k := by
        simp only [List.length_cons, List.length_append] at width ⊢
        omega
      rw [List.take_of_length_le room] at h
      obtain ⟨params', same, more⟩ := h.of_middle (n := 12) (by decide) mask_ (.inr rfl) free
      obtain rfl := (List.cons.inj same).2
      have word := more.lone (by decide)
      refine ⟨fun _ command only => ?_, room⟩
      obtain rfl := Option.some.inj only
      exact word
    · rintro ⟨word, room⟩
      have command := word two_ last rfl
      have one : Params 13 (' ' :: (last ++ [])) [last] :=
        .middle 0 command.1 command.2 (.nothing 12 0)
      rw [List.append_nil] at one
      rw [List.take_of_length_le room]
      exact .middle 0 mask_.1 mask_.2 one
  · have text : encapRest (init ++ [last]) =
        init.flatMap (fun word => ' ' :: word) ++ ' ' :: ':' :: last := by
      simp only [encapRest, if_neg pair, List.dropLast_concat, List.getLast?_concat,
        Option.getD_some, List.append_assoc, List.cons_append, List.nil_append]
    rw [text] at free ⊢
    constructor
    · intro h
      exact ⟨fun same => absurd same pair, h.whole_of_colon (n := 13) (by decide) middles free⟩
    · rintro ⟨-, room⟩
      rw [List.take_of_length_le room]
      exact params_behind_colon (n := 13) middles (by
        simp only [List.length_append, List.length_singleton, maxPara] at few
        omega)

theorem joinedText_blank (words : List CStr) :
    ' ' :: joinedText words = words.flatMap (fun word => ' ' :: word) ++ [' '] := by
  induction words with
  | nil => rfl
  | cons word words ih =>
    have more : joinedText (word :: words) = (word ++ [' ']) ++ joinedText words :=
      List.flatMap_cons
    rw [more, List.flatMap_cons, List.append_assoc, List.append_assoc, ← ih]
    rfl

theorem encapRelay_eq (source : CStr) (params : List CStr) :
    ':' :: source ++ ' ' :: (lit "ENCAP " ++ encapText params) = encapRelay source params := by
  have behind : lit " ENCAP " ++ encapText params = lit " ENCAP" ++ encapRest params := by
    have command : lit " ENCAP " = lit " ENCAP" ++ [' '] := by decide
    rw [command, encapRest, encapText, List.append_assoc, List.append_assoc,
      ← List.append_assoc [' '], List.singleton_append, joinedText_blank]
    simp
  rw [encapRelay, List.append_assoc, ← behind]
  rfl

theorem allowedParams_encap {root : MessageTree} {mptr : MessageEntry}
    (found : treeParse root (lit "ENCAP") = some mptr) (most : mptr.parameters = maxPara) :
    allowedParams root (lit "ENCAP") = maxPara - 1 := by
  have word : isNumericWord (lit "ENCAP") = false := by decide
  rw [allowedParams, word, if_neg Bool.false_ne_true, found]
  simp only [most]
  rfl

theorem cAt_line {line : CStr} (free : NulFree line) (stale : CStr) :
    cAt (line ++ '\x00' :: stale) 0 = line := by
  rw [cAt, List.drop_zero, cString,
    List.takeWhile_append_of_pos fun c inside => by simpa using free c inside]
  simp

theorem EncapMessage.derives {source line : CStr} {params : List CStr}
    (h : EncapMessage source line params) {root : MessageTree} {mptr : MessageEntry}
    (found : treeParse root (lit "ENCAP") = some mptr) (most : mptr.parameters = maxPara) :
    Derives (allowedParams root) line ⟨some source, lit "ENCAP", params⟩ := by
  obtain ⟨origin, command, nonblank, more⟩ := derives_iff.1 h.reads
  exact derives_iff.2 ⟨origin, command, nonblank, allowedParams_encap found most ▸ more⟩

theorem map_filterMap_takers {n : LinkNet} {ids : List ClientId} (carries : n.Carries ids)
    {sptr : ClientId} {source : CStr} (named : n.nameOf sptr = source) (params : List CStr)
    {us : List ClientId} (inside : ∀ u ∈ us, u ∈ n.servCptrList) :
    (us.filterMap (n.vsendtoAnywhere sptr (lit "ENCAP " ++ encapText params))).map
      (fun buf => buf.text.take lineMax) =
      us.map fun _ => (encapRelay source params).take lineMax := by
  induction us with
  | nil => rfl
  | cons u us ih =>
    have here := inside u List.mem_cons_self
    have alive : n.dead (n.client u).from_ = false := by
      rw [carries.self u here]
      exact carries.up u here
    rcases n.vsendtoAnywhere_high sptr (lit "ENCAP " ++ encapText params) here with
      ⟨-, dead⟩ | ⟨-, buf, written, text, -⟩
    · rw [alive] at dead
      cases dead
    · have rest := ih fun v later => inside v (List.mem_cons_of_mem u later)
      rw [List.filterMap_cons, written, List.map_cons, List.map_cons, rest, text, named,
        encapRelay_eq]

/-- A server takes the message as it is, and sends the line that it has put together to those of
its neighbours that the mask means. -/
theorem EncapServer.takes_message {s : EncapServer} {source line : CStr} {params : List CStr}
    {ids : List ClientId} (knows : s.Knows source) (carries : s.Carries (s.up :: ids))
    (h : EncapMessage source line params) :
    ∃ hd run mask, params[0]? = some mask ∧ s.takes line = some (hd, run) ∧
      hd.params = params.map some ∧
      s.sentOver hd run =
        (s.takers s.up mask).map fun u => (u, (encapRelay source params).take lineMax) := by
  obtain ⟨mptr, found, cmd, most⟩ := knows.encap
  obtain ⟨sptr, para0, origin, named⟩ := knows.source
  have upHere : s.up ∈ s.servCptrList := carries.links.mem_iff.2 List.mem_cons_self
  have link : (s.client s.up).isServer = true := s.linked s.up upHere
  have text : cAt (line ++ '\x00' :: s.stale) 0 = line := cAt_line h.free s.stale
  have derived : Derives (allowedParams s.msgTreeRoot) (cAt (line ++ '\x00' :: s.stale) 0)
      ⟨some source, lit "ENCAP", params⟩ := by
    rw [text]
    exact h.derives found most
  obtain ⟨hd, from_, agrees, -, reads⟩ := parse_reads s.msgTreeRoot false s.para
    (line ++ '\x00' :: s.stale) 0 derived origin
  have word : isNumericWord (lit "ENCAP") = false := by decide
  have call : callable s.toTables false s.up mptr = true := by
    rw [callable, link]
    rfl
  have parsed : parse s.toTables s.msgTreeRoot false false s.up s.para
      (line ++ '\x00' :: s.stale) 0 = .handler mptr hd := by
    rw [reads, word, Bool.false_and, if_neg Bool.false_ne_true]
    simp only [found]
    exact callHandler_callable false hd call
  have width : paramsWidth params < line.length := h.reads.width_lt
  have short := h.short
  have room : encapWidth params < bufsize := by
    unfold encapWidth
    simp only [bufsize, lineMax] at short ⊢
    split
    · omega
    · omega
  have agree : ∀ k, k ≤ params.length → hd.parv (k + 1) = params[k]? :=
    fun k inside => agrees.parv inside
  -- `ms_encap` rebuilds the line from the parameters that `parse` has found
  obtain ⟨mask, cmd', first, -, -, built, -⟩ :=
    s.msEncap_more s.msgTreeRoot hd.from_ link agree h.two room
  have ran : s.takes line =
      some (hd, s.msEncap s.msgTreeRoot s.up hd.from_ (params.length + 1) hd.parv) := by
    rw [EncapServer.takes, LinkNet.encapLine, parsed]
    simp only [if_pos cmd]
    rw [agrees.count]
  refine ⟨hd, _, mask, first, ran, agrees.params, ?_⟩
  have given : hd.parv 1 = some mask := (agree 0 (Nat.zero_le _)).trans first
  have inside : ∀ u ∈ s.takers s.up mask, u ∈ s.servCptrList := fun u taker =>
    List.mem_of_mem_filter taker
  have links : ((s.takers s.up mask).map fun u => (s.client u).from_).filter (fun u => !s.dead u) =
      s.takers s.up mask := by
    have same : (s.takers s.up mask).map (fun u => (s.client u).from_) = s.takers s.up mask :=
      (List.map_congr_left fun u taker => carries.self u (inside u taker)).trans (List.map_id _)
    rw [same, List.filter_eq_self]
    intro u taker
    rw [carries.up u (inside u taker)]
    rfl
  have bufs : (s.msEncap s.msgTreeRoot s.up hd.from_ (params.length + 1) hd.parv).built.map
      (fun buf => buf.text.take lineMax) =
      (s.takers s.up mask).map fun _ => (encapRelay source params).take lineMax := by
    rw [built]
    exact map_filterMap_takers carries (from_ ▸ named) params inside
  rw [EncapServer.sentOver, given]
  simp only [links, bufs]
  have pairs := @List.zip_map' _ _ _ id (fun _ => (encapRelay source params).take lineMax)
    (s.takers s.up mask)
  rwa [List.map_id] at pairs

theorem Params.mem {n : Nat} {text : CStr} {params : List CStr} (h : Params n text params) :
    ∀ word ∈ params, ∀ c ∈ word, c ∈ text := by
  induction h with
  | nothing => exact fun _ no => by cases no
  | trailing n k rest =>
    intro word inside c here
    rw [List.mem_singleton.1 inside] at here
    simp [here]
  | last k rest first =>
    intro word inside c here
    rw [List.mem_singleton.1 inside] at here
    exact List.mem_append_right _ here
  | middle k word plain more ih =>
    intro other inside c here
    rcases List.mem_cons.1 inside with rfl | later
    · simp [here]
    · simp [ih other later c here]

theorem head_take_encapRest (params : List CStr) (k : Nat) :
    ((encapRest params).take k).head? = none ∨ ((encapRest params).take k).head? = some ' ' := by
  have blank : (encapRest params).head? = some ' ' := by
    rw [encapRest]
    cases params.dropLast <;> rfl
  cases k with
  | zero => exact .inl rfl
  | succ k =>
    right
    rw [List.head?_take, if_neg (Nat.succ_ne_zero k)]
    exact blank

theorem nulFree_encapRest {params : List CStr} (free : ∀ word ∈ params, NulFree word) :
    NulFree (encapRest params) := by
  have last : NulFree (params.getLast?.getD []) := by
    cases final : params.getLast? with
    | none => exact fun _ no => by cases no
    | some word => exact free word (List.mem_of_getLast? final)
  have front : NulFree (params.dropLast.flatMap fun word => ' ' :: word) := by
    intro c inside
    obtain ⟨word, given, here⟩ := List.mem_flatMap.1 inside
    rcases List.mem_cons.1 here with rfl | here
    · decide
    · exact free word (List.mem_of_mem_dropLast given) c here
  have blank : NulFree (' ' :: if params.length = 2 then [] else [':']) := by
    split
    · decide
    · decide
  rw [encapRest, List.append_assoc]
  exact front.append (blank.append last)

theorem encapRelay_take {source : CStr} (room : source.length + 7 ≤ lineMax) (params : List CStr) :
    (encapRelay source params).take lineMax = ':' :: (source ++ (List.replicate 1 ' ' ++
      (lit "ENCAP" ++ (encapRest params).take (lineMax - (source.length + 7))))) := by
  have head : (':' :: source ++ lit " ENCAP").length = source.length + 7 := by
    simp [lit]
  rw [encapRelay, List.take_append, List.take_of_length_le (by omega), head]
  simp [lit]

theorem length_encapRelay (source : CStr) (params : List CStr) :
    (encapRelay source params).length = source.length + 7 + (encapRest params).length := by
  have head : (':' :: source ++ lit " ENCAP").length = source.length + 7 := by
    simp [lit]
  rw [encapRelay, List.length_append, head]

theorem derives_encapRelay {source : CStr} {params params' : List CStr} {allowed : CStr → Nat}
    (same : allowed (lit "ENCAP") = maxPara - 1) (blankFree : ∀ c ∈ source, c ≠ ' ')
    (room : source.length + 7 ≤ lineMax)
    (more : Params (maxPara - 1) ((encapRest params).take (lineMax - (source.length + 7)))
      params') :
    Derives allowed ((encapRelay source params).take lineMax)
      ⟨some source, lit "ENCAP", params'⟩ := by
  have word : IsField (lit "ENCAP") := ⟨by decide, by decide⟩
  rw [encapRelay_take room]
  exact .prefixed 0 0 blankFree word (same ▸ more)

section Message

variable {source line : CStr} {params : List CStr} (h : EncapMessage source line params)
include h

theorem EncapMessage.few : params.length < maxPara := by
  obtain ⟨-, -, -, more⟩ := derives_iff.1 h.reads
  exact Nat.lt_of_le_of_lt more.length_le (by decide)

theorem EncapMessage.middles : ∀ word ∈ params.dropLast, IsMiddle word := by
  obtain ⟨-, -, -, more⟩ := derives_iff.1 h.reads
  exact more.middles

theorem EncapMessage.source_free :
    (∀ c ∈ source, c ≠ ' ') ∧ NulFree source ∧ source.length + 7 ≤ lineMax ∧
      ∀ word ∈ params, NulFree word := by
  obtain ⟨reads, free, short, -⟩ := h
  generalize command : lit "ENCAP" = word at reads
  cases reads with
  | @prefixed k j _ _ rest _ blankFree _ more =>
    have five : word.length = 5 := by
      rw [← command]
      rfl
    refine ⟨blankFree, fun c inside => free c (by simp [inside]), ?_, ?_⟩
    · simp only [List.length_append, List.length_cons, List.length_replicate] at short
      omega
    · intro param given c inside
      have there := more.mem param given c inside
      exact free c (by simp [there])

theorem EncapMessage.nulFree : NulFree (encapRest params) :=
  nulFree_encapRest h.source_free.2.2.2

/-- The parameters are read off the next line exactly where it has stayed whole. -/
theorem EncapMessage.params_iff :
    Params (maxPara - 1) ((encapRest params).take (lineMax - (source.length + 7))) params ↔
      StaysWhole source params := by
  have room := h.source_free.2.2.1
  rw [params_encapRest h.two h.few h.middles h.nulFree]
  constructor
  · rintro ⟨lone, short⟩
    refine ⟨lone, ?_⟩
    rw [length_encapRelay]
    omega
  · rintro ⟨lone, short⟩
    refine ⟨lone, ?_⟩
    rw [length_encapRelay] at short
    omega

theorem EncapMessage.nulFree_relay : NulFree ((encapRelay source params).take lineMax) := by
  have command : NulFree (lit " ENCAP") := by decide
  have colon : NulFree [':'] := by decide
  apply NulFree.take
  exact ((colon.append h.source_free.2.1).append command).append h.nulFree

theorem EncapMessage.relay (whole : StaysWhole source params) :
    EncapMessage source ((encapRelay source params).take lineMax) params where
  reads := derives_encapRelay rfl h.source_free.1 h.source_free.2.2.1 (h.params_iff.2 whole)
  free := h.nulFree_relay
  short := List.length_take_le lineMax _
  two := h.two

theorem EncapMessage.whole_of_takes {s : EncapServer} (knows : s.Knows source) {hd : Handed}
    {run : EncapRun} (ran : s.takes ((encapRelay source params).take lineMax) = some (hd, run))
    (same : hd.params = params.map some) : StaysWhole source params := by
  obtain ⟨mptr, found, -, most⟩ := knows.encap
  obtain ⟨blankFree, -, room, -⟩ := h.source_free
  let next := (encapRelay source params).take lineMax
  have handed : (parse s.toTables s.msgTreeRoot false false s.up s.para
      (next ++ '\x00' :: s.stale) 0).handed = some hd := by
    unfold EncapServer.takes LinkNet.encapLine at ran
    split at ran
    · next outcome =>
      split at ran
      · rw [outcome]
        exact congrArg some (Prod.mk.inj (Option.some.inj ran)).1
      · cases ran
    · cases ran
  obtain ⟨l, -, only, -, agrees⟩ := (parse_agrees s.toTables s.msgTreeRoot false false s.up s.para
    (next ++ '\x00' :: s.stale) 0).1 hd handed
  have text : cAt (next ++ '\x00' :: s.stale) 0 = next := cAt_line h.nulFree_relay s.stale
  obtain ⟨params', more⟩ := Params.total (maxPara - 2)
    ((encapRest params).take (lineMax - (source.length + 7))) (head_take_encapRest params _)
  have derived : Derives (allowedParams s.msgTreeRoot) (cAt (next ++ '\x00' :: s.stale) 0)
      ⟨some source, lit "ENCAP", params'⟩ := by
    rw [text]
    exact derives_encapRelay (allowedParams_encap found most) blankFree room more
  obtain rfl := only _ derived
  have read : params = params' := List.map_injective_iff.2 (Option.some_injective CStr)
    (same.symm.trans agrees.params)
  exact h.params_iff.1 (read ▸ more)

end Message

/-- Among entries with tags of their own, one is found by its tag, if it is there. -/
theorem filter_tagged {α β γ : Type*} [BEq β] [LawfulBEq β] (p : α → Bool) (tag : α → β) (x : γ)
    {l : List α} (apart : (l.map tag).Nodup) {a : α} (inside : a ∈ l) :
    (((l.filter p).map fun b => (tag b, x)).filter fun entry => entry.1 == tag a) =
      if p a then [(tag a, x)] else [] := by
  induction l with
  | nil => cases inside
  | cons b l ih =>
    rw [List.map_cons] at apart
    obtain ⟨fresh, apart⟩ := List.nodup_cons.1 apart
    rcases List.mem_cons.1 inside with rfl | later
    · have none : ((l.filter p).map fun b => (tag b, x)).filter (fun entry => entry.1 == tag a) =
          [] := by
        rw [List.filter_eq_nil_iff]
        intro entry member same
        obtain ⟨c, kept, rfl⟩ := List.mem_map.1 member
        have tags : tag c = tag a := by simpa using same
        exact fresh (tags ▸ List.mem_map_of_mem (List.mem_of_mem_filter kept))
      rw [List.filter_cons]
      split
      · rw [List.map_cons, List.filter_cons, if_pos (by simp), none]
      · exact none
    · have other : tag b ≠ tag a := fun same => fresh (same ▸ List.mem_map_of_mem later)
      rw [List.filter_cons]
      split
      · rw [List.map_cons, List.filter_cons, if_neg (by simpa using other)]
        exact ih apart later
      · exact ih apart later

def place (route : List (ClientId × CStr)) : List ClientId := route.map Prod.fst

def meansAll (mask : CStr) (route : List (ClientId × CStr)) : Bool :=
  route.all fun hop => matchMask mask hop.2

namespace Behind

theorem routes_head {f : Behind} : ∀ route ∈ f.routes,
    ∃ hop rest, route = hop :: rest ∧ hop.1 ∈ f.ids := by
  induction f with
  | leaf => exact fun _ no => by cases no
  | link id s beyond rest ihb ihr =>
    intro route inside
    rcases List.mem_append.1 inside with first | later
    · rcases List.mem_cons.1 first with rfl | deeper
      · exact ⟨(id, s.meName), [], rfl, List.mem_cons_self⟩
      · obtain ⟨tail, -, rfl⟩ := List.mem_map.1 deeper
        exact ⟨(id, s.meName), tail, rfl, List.mem_cons_self⟩
    · obtain ⟨hop, tail, rfl, here⟩ := ihr route later
      exact ⟨hop, tail, rfl, List.mem_cons_of_mem id here⟩

theorem places_nodup {source : CStr} {f : Behind} {n : LinkNet} (joined : f.Joined source n)
    (apart : f.ids.Nodup) : (f.routes.map place).Nodup := by
  induction f generalizing n with
  | leaf => exact List.nodup_nil
  | link id s beyond rest ihb ihr =>
    obtain ⟨-, -, carries, below, beside⟩ := joined
    obtain ⟨fresh, apart⟩ := List.nodup_cons.1 apart
    have behind := ihb below (carries.links.nodup carries.apart).of_cons
    have places : (Behind.link id s beyond rest).routes.map place =
        [id] :: (beyond.routes.map place).map (id :: ·) ++ rest.routes.map place := by
      simp [routes, place, Function.comp_def]
    have deeper : ((beyond.routes.map place).map (id :: ·)).Nodup :=
      behind.map List.cons_injective
    have first : [id] ∉ (beyond.routes.map place).map (id :: ·) := by
      intro there
      obtain ⟨p, inside, same⟩ := List.mem_map.1 there
      obtain ⟨route, member, rfl⟩ := List.mem_map.1 inside
      obtain ⟨hop, tail, rfl, -⟩ := routes_head route member
      cases same
    have apartRest : ∀ p ∈ rest.routes.map place, p.head? ≠ some id := by
      intro p inside
      obtain ⟨route, member, rfl⟩ := List.mem_map.1 inside
      obtain ⟨hop, tail, rfl, here⟩ := routes_head route member
      intro same
      exact fresh (Option.some.inj same ▸ here)
    rw [places, List.nodup_append']
    refine ⟨List.nodup_cons.2 ⟨first, deeper⟩, ihr beside apart, ?_⟩
    intro p here there
    apply apartRest p there
    rcases List.mem_cons.1 here with rfl | inside
    · rfl
    · obtain ⟨q, -, rfl⟩ := List.mem_map.1 inside
      rfl

theorem received_nil {f : Behind} {sent : List (ClientId × CStr)}
    (none : ∀ id ∈ f.ids, sent.filter (fun out => out.1 == id) = []) : f.received sent = [] := by
  induction f with
  | leaf => rfl
  | link id s beyond rest ihb ihr =>
    rw [received, none id List.mem_cons_self,
      ihr fun other inside => none other (List.mem_cons_of_mem id inside)]
    rfl

theorem route_of_id {source : CStr} {f : Behind} {n : LinkNet} (joined : f.Joined source n)
    {id : ClientId} (inside : id ∈ f.ids) : [(id, n.nameOf id)] ∈ f.routes := by
  induction f with
  | leaf => cases inside
  | link id' s beyond rest ihb ihr =>
    rcases List.mem_cons.1 inside with rfl | later
    · rw [joined.1]
      exact List.mem_append_left _ List.mem_cons_self
    · exact List.mem_append_right _ (ihr joined.2.2.2.2 later)

theorem sent_takers {s : EncapServer} {ids : List ClientId} (carries : s.Carries (s.up :: ids))
    (mask line : CStr) {id : ClientId} (inside : id ∈ ids) :
    ((s.takers s.up mask).map fun u => (u, line)).filter (fun out => out.1 == id) =
      if matchMask mask (s.nameOf id) then [(id, line)] else [] := by
  have here : id ∈ s.servCptrList := carries.links.mem_iff.2 (List.mem_cons_of_mem s.up inside)
  have apart := List.nodup_cons.1 (carries.links.nodup carries.apart)
  have other : id ≠ s.up := ne_of_mem_of_not_mem inside apart.1
  have nodup : (s.servCptrList.map fun u => u).Nodup := by
    rw [List.map_id']
    exact carries.apart
  have found := filter_tagged (fun cptr => cptr ≠ s.up && s.capEncap cptr &&
    matchMask mask (s.nameOf cptr)) (fun u => u) line nodup here
  rw [LinkNet.takers, found, carries.cap id here]
  simp [other]

theorem sent_starts {n : LinkNet} {ids : List ClientId} (carries : n.Carries ids)
    (mask line : CStr) {id : ClientId} (inside : id ∈ ids) :
    (n.starts mask line).filter (fun out => out.1 == id) =
      if matchMask mask (n.nameOf id) then [(id, line)] else [] := by
  have here : id ∈ n.servCptrList := carries.links.mem_iff.2 inside
  have nodup : (n.servCptrList.map fun u => u).Nodup := by
    rw [List.map_id']
    exact carries.apart
  have found := filter_tagged (fun cptr => n.capEncap cptr && matchMask mask (n.nameOf cptr))
    (fun u => u) line nodup here
  have same : n.starts mask line = (n.servCptrList.filter fun cptr =>
      n.capEncap cptr && matchMask mask (n.nameOf cptr)).map fun u => (u, line) := by
    apply List.map_congr_left
    intro u inside
    rw [carries.self u (List.mem_of_mem_filter inside)]
  rw [same, found, carries.cap id here, Bool.true_and]

/-- Among the servers behind a link, the mask means all on the way where it means the server there
and all on the way from it. -/
theorem filter_routes (mask : CStr) (id : ClientId) (s : EncapServer) (beyond rest : Behind) :
    (link id s beyond rest).routes.filter (meansAll mask) =
      (if matchMask mask s.meName then
        [(id, s.meName)] :: (beyond.routes.filter (meansAll mask)).map ((id, s.meName) :: ·)
      else []) ++ rest.routes.filter (meansAll mask) := by
  have consed : ∀ route, meansAll mask ((id, s.meName) :: route) =
      (matchMask mask s.meName && meansAll mask route) := fun route => List.all_cons
  rw [routes, List.filter_append]
  congr 1
  by_cases means : matchMask mask s.meName = true
  · have deeper : (meansAll mask ∘ fun route => (id, s.meName) :: route) = meansAll mask := by
      funext route
      rw [Function.comp_apply, consed, means, Bool.true_and]
    rw [if_pos means, List.filter_cons, consed, means, List.filter_map, deeper]
    rfl
  · have none : ∀ route, meansAll mask ((id, s.meName) :: route) = false := by
      intro route
      rw [consed, Bool.eq_false_iff.2 means, Bool.false_and]
    rw [if_neg means, List.filter_eq_nil_iff]
    intro route inside
    rcases List.mem_cons.1 inside with rfl | deeper
    · rw [none]
      exact Bool.false_ne_true
    · obtain ⟨tail, -, rfl⟩ := List.mem_map.1 deeper
      rw [none]
      exact Bool.false_ne_true

theorem routes_first {f : Behind} {hop : ClientId × CStr} {tail : List (ClientId × CStr)}
    (inside : hop :: tail ∈ f.routes) : [hop] ∈ f.routes := by
  induction f with
  | leaf => cases inside
  | link id s beyond rest ihb ihr =>
    rcases List.mem_append.1 inside with first | later
    · apply List.mem_append_left
      rcases List.mem_cons.1 first with same | deeper
      · obtain ⟨rfl, rfl⟩ := List.cons.inj same
        exact List.mem_cons_self
      · obtain ⟨way, -, same⟩ := List.mem_map.1 deeper
        obtain ⟨rfl, -⟩ := List.cons.inj same
        exact List.mem_cons_self
    · exact List.mem_append_right _ (ihr later)

theorem routes_second {f : Behind} {hop next : ClientId × CStr} {tail : List (ClientId × CStr)}
    (inside : hop :: next :: tail ∈ f.routes) : [hop, next] ∈ f.routes := by
  induction f with
  | leaf => cases inside
  | link id s beyond rest ihb ihr =>
    rcases List.mem_append.1 inside with first | later
    · apply List.mem_append_left
      rcases List.mem_cons.1 first with same | deeper
      · cases (List.cons.inj same).2
      · obtain ⟨way, member, same⟩ := List.mem_map.1 deeper
        obtain ⟨rfl, rfl⟩ := List.cons.inj same
        exact List.mem_cons_of_mem _ (List.mem_map_of_mem (routes_first member))
    · exact List.mem_append_right _ (ihr later)

section Message

variable {source : CStr} {params : List CStr} {mask : CStr}

/-- The message comes to the servers that the mask means on a way of such servers, and to no
others, if it stays whole or does not have to go on. -/
theorem received_eq (first : params[0]? = some mask) {f : Behind} {n : LinkNet}
    (joined : f.Joined source n) {line : CStr} (h : EncapMessage source line params)
    (whole : (∃ route ∈ f.routes, 2 ≤ route.length ∧ meansAll mask route = true) →
      StaysWhole source params) {sent : List (ClientId × CStr)}
    (sends : ∀ id ∈ f.ids, sent.filter (fun out => out.1 == id) =
      if matchMask mask (n.nameOf id) then [(id, line)] else []) :
    f.received sent =
      (f.routes.filter (meansAll mask)).map fun route => (place route, params.map some) := by
  induction f generalizing n line sent with
  | leaf => rfl
  | link id s beyond rest ihb ihr =>
    obtain ⟨name, knows, carries, below, beside⟩ := joined
    have others := ihr beside h
      (fun ⟨route, member, long⟩ => whole ⟨route, List.mem_append_right _ member, long⟩)
      fun other inside => sends other (List.mem_cons_of_mem id inside)
    rw [received, sends id List.mem_cons_self, others, name, filter_routes, List.map_append]
    congr 1
    -- a server that the mask does not mean gets nothing and passes nothing on
    by_cases means : matchMask mask s.meName = true
    · obtain ⟨hd, run, mask', first', ran, read, lines⟩ := s.takes_message knows carries h
      obtain rfl := Option.some.inj (first.symm.trans first')
      have onwards : ∀ other ∈ beyond.ids,
          (s.sentOver hd run).filter (fun out => out.1 == other) =
            if matchMask mask (s.nameOf other) then
              [(other, (encapRelay source params).take lineMax)] else [] := by
        intro other inside
        rw [lines]
        exact sent_takers carries mask _ inside
      have deep : ∀ route ∈ beyond.routes, meansAll mask route = true →
          StaysWhole source params := by
        intro route member all
        obtain ⟨hop, tail, rfl, -⟩ := routes_head route member
        apply whole ⟨(id, s.meName) :: hop :: tail, ?_, ?_, ?_⟩
        · exact List.mem_append_left _ (List.mem_cons_of_mem _ (List.mem_map_of_mem member))
        · simp
        · rw [meansAll, List.all_cons, means, Bool.true_and]
          exact all
      have inner : beyond.received (s.sentOver hd run) = (beyond.routes.filter (meansAll mask)).map
          fun route => (place route, params.map some) := by
        by_cases stays : StaysWhole source params
        · exact ihb below (h.relay stays) (fun _ => stays) onwards
        · -- no neighbour is meant, for it would be on a way that has to be whole
          have ends : beyond.routes.filter (meansAll mask) = [] := by
            rw [List.filter_eq_nil_iff]
            exact fun route member all => stays (deep route member all)
          have silent : ∀ other ∈ beyond.ids,
              (s.sentOver hd run).filter (fun out => out.1 == other) = [] := by
            intro other inside
            rw [onwards other inside, if_neg]
            intro meant
            apply stays
            apply deep _ (route_of_id below inside)
            rw [meansAll, List.all_cons, meant]
            rfl
          rw [ends, received_nil silent]
          rfl
      rw [if_pos means, if_pos means]
      simp only [List.flatMap_cons, List.flatMap_nil, List.append_nil, ran, read, inner,
        List.map_cons, List.map_map]
      rfl
    · rw [if_neg means, if_neg means]
      rfl

theorem received_ne_nil {f : Behind} {sent : List (ClientId × CStr)}
    {way : List ClientId} {got : List (Option CStr)} (inside : (way, got) ∈ f.received sent) :
    way ≠ [] := by
  induction f generalizing way got with
  | leaf => cases inside
  | link id s beyond rest ihb ihr =>
    rcases List.mem_append.1 inside with here | later
    · obtain ⟨out, -, given⟩ := List.mem_flatMap.1 here
      cases ran : s.takes out.2 with
      | none =>
        rw [ran] at given
        cases given
      | some taken =>
        rw [ran] at given
        rcases List.mem_cons.1 given with same | deeper
        · rw [(Prod.mk.inj same).1]
          exact List.cons_ne_nil id []
        · obtain ⟨far, -, same⟩ := List.mem_map.1 deeper
          rw [← (Prod.mk.inj same).1]
          exact List.cons_ne_nil id far.1
    · exact ihr later

theorem received_first {f : Behind} {n : LinkNet} (joined : f.Joined source n)
    {sent : List (ClientId × CStr)} {id : ClientId} {got : List (Option CStr)}
    (inside : ([id], got) ∈ f.received sent) :
    ∃ s : EncapServer, s.Knows source ∧ ∃ out ∈ sent, ∃ hd run,
      s.takes out.2 = some (hd, run) ∧ hd.params = got := by
  induction f with
  | leaf => cases inside
  | link other s beyond rest ihb ihr =>
    rcases List.mem_append.1 inside with here | later
    · obtain ⟨out, kept, given⟩ := List.mem_flatMap.1 here
      cases ran : s.takes out.2 with
      | none =>
        rw [ran] at given
        cases given
      | some taken =>
        rw [ran] at given
        rcases List.mem_cons.1 given with same | deeper
        · exact ⟨s, joined.2.1, out, List.mem_of_mem_filter kept, taken.1, taken.2, ran,
            (Prod.mk.inj same).2.symm⟩
        · obtain ⟨far, member, same⟩ := List.mem_map.1 deeper
          obtain ⟨way, rest'⟩ := far
          have nothing : way = [] := (List.cons.inj (Prod.mk.inj same).1).2
          exact absurd nothing (received_ne_nil member)
    · exact ihr joined.2.2.2.2 later

/-- Where a server behind a neighbour has received the message as it is, it has stayed whole. -/
theorem whole_of_received {f : Behind} {n : LinkNet} (joined : f.Joined source n) {line : CStr}
    (h : EncapMessage source line params) {sent : List (ClientId × CStr)}
    (lines : ∀ out ∈ sent, out.2 = line) {id next : ClientId}
    (inside : ([id, next], params.map some) ∈ f.received sent) : StaysWhole source params := by
  induction f with
  | leaf => cases inside
  | link other s beyond rest ihb ihr =>
    obtain ⟨-, knows, carries, below, beside⟩ := joined
    rcases List.mem_append.1 inside with here | later
    · obtain ⟨out, kept, given⟩ := List.mem_flatMap.1 here
      obtain ⟨hd, run, mask, -, ran, -, onwards⟩ := s.takes_message knows carries h
      rw [lines out (List.mem_of_mem_filter kept), ran] at given
      rcases List.mem_cons.1 given with same | deeper
      · cases (List.cons.inj (Prod.mk.inj same).1).2
      · obtain ⟨⟨way, got⟩, member, same⟩ := List.mem_map.1 deeper
        obtain ⟨ways, rfl⟩ := Prod.mk.inj same
        obtain ⟨-, rfl⟩ := List.cons.inj ways
        obtain ⟨s', knows', out', there, hd', run', ran', read⟩ := received_first below member
        rw [onwards] at there
        obtain ⟨u, -, rfl⟩ := List.mem_map.1 there
        exact h.whole_of_takes knows' ran' read
    · exact ihr beside later

end Message

end Behind

theorem Behind.Joined.onward {source : CStr} {f : Behind} {n : LinkNet}
    (joined : f.Joined source n) : f.All fun s => ∀ line h run, s.takes line = some (h, run) →
      s.up ∉ (s.sentOver h run).map Prod.fst := by
  induction f generalizing n with
  | leaf => trivial
  | link id s beyond rest ihb ihr =>
    obtain ⟨-, -, carries, below, beside⟩ := joined
    refine ⟨fun line h run _ back => ?_, ihb below, ihr beside⟩
    cases given : h.parv 1 with
    | none =>
      rw [EncapServer.sentOver, given] at back
      cases back
    | some mask =>
      rw [EncapServer.sentOver, given] at back
      obtain ⟨out, zipped, same⟩ := List.mem_map.1 back
      have linked := List.mem_of_mem_filter (List.of_mem_zip zipped).1
      obtain ⟨u, taker, from_⟩ := List.mem_map.1 linked
      obtain ⟨inside, meant⟩ := List.mem_filter.1 taker
      rw [carries.self u inside, same] at from_
      rw [from_] at meant
      simp at meant

open Behind in
/-- In a tree of servers that take ENCAP a message comes to all that it is addressed to exactly
where each of them is behind such servers only, and where the line may go on as it is, should it
have to. -/
theorem encapArrives_iff {n : LinkNet} {tree : Behind} {source mask line : CStr}
    {params : List CStr} (carries : n.Carries tree.ids) (joined : tree.Joined source n)
    (h : EncapMessage source line params) (first : params[0]? = some mask) :
    EncapArrives n tree mask line params ↔
      (∀ route ∈ tree.routes, (∀ last ∈ route.getLast?, matchMask mask last.2 = true) →
        meansAll mask route = true) ∧
      ((∃ route ∈ tree.routes, 2 ≤ route.length ∧ meansAll mask route = true) →
        StaysWhole source params) := by
  have sends : ∀ id ∈ tree.ids, (n.starts mask line).filter (fun out => out.1 == id) =
      if matchMask mask (n.nameOf id) then [(id, line)] else [] :=
    fun id inside => sent_starts carries mask line inside
  have apart : (tree.routes.map place).Nodup :=
    places_nodup joined (carries.links.nodup carries.apart)
  constructor
  · intro arrives
    have whole : (∃ route ∈ tree.routes, 2 ≤ route.length ∧ meansAll mask route = true) →
        StaysWhole source params := by
      -- a way of two servers that has to be gone: the second gets the line that the first sends
      rintro ⟨route, member, long, all⟩
      match route, long with
      | hop :: next :: tail, _ =>
        rw [meansAll, List.all_cons, List.all_cons, Bool.and_eq_true, Bool.and_eq_true] at all
        have got := arrives.once [hop, next] (routes_second member) (by simp [all.2.1])
        have there : ([hop.1, next.1], params.map some) ∈ tree.received (n.starts mask line) := by
          apply List.mem_of_mem_filter
          rw [got]
          exact List.mem_singleton_self _
        refine whole_of_received joined h (fun out inside => ?_) there
        obtain ⟨cptr, -, rfl⟩ := List.mem_map.1 inside
        rfl
    refine ⟨fun route member meant => ?_, whole⟩
    have got := arrives.once route member meant
    rw [received_eq first joined h whole sends] at got
    have there : (place route, params.map some) ∈
        (tree.routes.filter (meansAll mask)).map fun route => (place route, params.map some) := by
      apply List.mem_of_mem_filter
      rw [got]
      exact List.mem_singleton_self _
    obtain ⟨other, kept, same⟩ := List.mem_map.1 there
    obtain ⟨inside, all⟩ := List.mem_filter.1 kept
    rwa [List.inj_on_of_nodup_map apart inside member (Prod.mk.inj same).1] at all
  · rintro ⟨ways, whole⟩
    refine ⟨fun route member meant => ?_, joined.onward⟩
    rw [received_eq first joined h whole sends]
    have found := filter_tagged (meansAll mask) place (params.map some) apart member
    rw [ways route member meant, if_pos rfl] at found
    exact found

/-! Anna's server `a.net` has a link to `b.net`, and `c.net` is behind that. -/

def hopTables (me up : CStr) : Tables :=
  ((Server.startUp me 0).toTables.addClient 1 { linkOne with name := up }).addClient 2 anna

def farLink : Client :=
  { Client.zero with name := lit "c.net", status := .server, localFlag := true, from_ := 4 }

theorem hopTables_linked (me up : CStr) : ∀ u ∈ (hopTables me up).servCptrList,
    ((hopTables me up).client u).isServer = true := by
  intro u inside
  obtain rfl := List.mem_singleton.1 inside
  rfl

theorem farTables_linked (me up : CStr) :
    ∀ u ∈ ((hopTables me up).addClient 4 farLink).servCptrList,
      (((hopTables me up).addClient 4 farLink).client u).isServer = true := by
  intro u inside
  rcases List.mem_pair.1 inside with rfl | rfl
  · rfl
  · rfl

def endNet (me up : CStr) : LinkNet where
  toTables := hopTables me up
  capEncap _ := true
  dead _ := false
  linked := hopTables_linked me up

/-- A server between its link towards Anna and one to `c.net`. -/
def betweenNet (me up : CStr) : LinkNet where
  toTables := (hopTables me up).addClient 4 farLink
  capEncap _ := true
  dead _ := false
  linked := farTables_linked me up

def encapHop (n : LinkNet) : EncapServer where
  toLinkNet := n
  msgTreeRoot := encapTree
  up := 1
  para _ := none
  stale := []

theorem endNet_carries (me up : CStr) : (endNet me up).Carries [1] where
  links := List.Perm.refl _
  apart := List.nodup_singleton 1
  self u inside := by
    obtain rfl := List.mem_singleton.1 inside
    rfl
  up _ _ := rfl
  cap _ _ := rfl

theorem betweenNet_carries (me up : CStr) : (betweenNet me up).Carries [1, 4] where
  links := List.Perm.swap 1 4 []
  apart := by
    show [4, 1].Nodup
    decide
  self u inside := by
    rcases List.mem_pair.1 inside with rfl | rfl
    · rfl
    · rfl
  up _ _ := rfl
  cap _ _ := rfl

theorem encapHop_knows {n : LinkNet} {source : CStr} (sptr : ClientId) (para0 : CStr)
    (origin : originOf n.toTables 1 (some (source.take hostLen)) = .inr (sptr, para0))
    (named : n.nameOf sptr = source) : (encapHop n).Knows source where
  encap := by
    have found : (treeParse encapTree (lit "ENCAP")).map (fun mptr => (mptr.cmd, mptr.parameters)) =
        some (lit "ENCAP", maxPara) := by decide +kernel
    obtain ⟨mptr, there, same⟩ := Option.map_eq_some_iff.mp found
    obtain ⟨cmd, parameters⟩ := Prod.mk.inj same
    have tree : (encapHop n).msgTreeRoot = encapTree := by rw [encapHop]
    rw [tree]
    exact ⟨mptr, there, cmd, parameters⟩
  source := ⟨sptr, para0, origin, named⟩

theorem endNet_knows (me up : CStr) : (encapHop (endNet me up)).Knows (lit "anna") :=
  encapHop_knows 2 (lit "anna") rfl rfl

theorem betweenNet_knows (me up : CStr) : (encapHop (betweenNet me up)).Knows (lit "anna") :=
  encapHop_knows 2 (lit "anna") rfl rfl

def hopA : LinkNet := endNet (lit "a.net") (lit "b.net")

def hops : Behind :=
  .link 1 (encapHop (betweenNet (lit "b.net") (lit "a.net")))
    (.link 4 (encapHop (endNet (lit "c.net") (lit "b.net"))) .leaf .leaf) .leaf

theorem hopA_carries : hopA.Carries hops.ids := endNet_carries (lit "a.net") (lit "b.net")

theorem hops_joined : hops.Joined (lit "anna") hopA :=
  ⟨rfl, betweenNet_knows (lit "b.net") (lit "a.net"),
    betweenNet_carries (lit "b.net") (lit "a.net"),
    ⟨rfl, endNet_knows (lit "c.net") (lit "b.net"),
      endNet_carries (lit "c.net") (lit "b.net"), trivial, trivial⟩, trivial⟩

def hopParams (mask : CStr) : List CStr := [mask, lit "OPERSPY", lit "WHO #c"]

theorem length_hopParams (mask : CStr) : (hopParams mask).length = 3 := rfl

theorem stays_hopParams {mask : CStr}
    (room : (encapRelay (lit "anna") (hopParams mask)).length ≤ lineMax) :
    StaysWhole (lit "anna") (hopParams mask) where
  lone pair := absurd ((length_hopParams mask).symm.trans pair) (by decide)
  room

theorem hopMessage {mask : CStr} (word : IsMiddle mask) (free : NulFree mask)
    (room : (encapRelay (lit "anna") (hopParams mask)).length ≤ lineMax) :
    EncapMessage (lit "anna") (encapRelay (lit "anna") (hopParams mask)) (hopParams mask) := by
  have words : ∀ param ∈ (hopParams mask).dropLast, IsMiddle param := by
    intro param inside
    rcases List.mem_cons.1 inside with rfl | later
    · exact word
    · rw [List.mem_singleton.1 later]
      exact ⟨⟨by decide, by decide⟩, by decide⟩
  have others : ∀ param ∈ [lit "OPERSPY", lit "WHO #c"], NulFree param := by decide
  have text : NulFree (encapRest (hopParams mask)) :=
    nulFree_encapRest (List.forall_mem_cons.2 ⟨free, others⟩)
  have count := length_hopParams mask
  have most : maxPara = 15 := rfl
  have length := room
  rw [length_encapRelay] at length
  have more : Params (maxPara - 1)
      ((encapRest (hopParams mask)).take (lineMax - ((lit "anna").length + 7)))
      (hopParams mask) :=
    (params_encapRest (by omega) (by omega) words text).2
      ⟨(stays_hopParams room).lone, by omega⟩
  have read : Derives (fun _ => maxPara - 1) _ ⟨some (lit "anna"), lit "ENCAP", hopParams mask⟩ :=
    derives_encapRelay rfl (by decide) (by decide : (lit "anna").length + 7 ≤ lineMax) more
  rw [List.take_of_length_le room] at read
  have head : NulFree (':' :: lit "anna" ++ lit " ENCAP") := by decide
  exact ⟨read, head.append text, room, by omega⟩

theorem encapArrives_both :
    EncapArrives hopA hops (lit "*.net") (encapRelay (lit "anna") (hopParams (lit "*.net")))
      (hopParams (lit "*.net")) := by
  have room : (encapRelay (lit "anna") (hopParams (lit "*.net"))).length ≤ lineMax := by decide
  exact (encapArrives_iff hopA_carries hops_joined
    (hopMessage ⟨⟨by decide, by decide⟩, by decide⟩ (by decide) room) rfl).2
    ⟨by decide +kernel, fun _ => stays_hopParams room⟩

theorem encapArrives_neither :
    hopA.Carries hops.ids ∧ hops.Joined (lit "anna") hopA ∧
      EncapMessage (lit "anna") (encapRelay (lit "anna") (hopParams (lit "c.net")))
        (hopParams (lit "c.net")) ∧
      ¬ EncapArrives hopA hops (lit "c.net") (encapRelay (lit "anna") (hopParams (lit "c.net")))
        (hopParams (lit "c.net")) := by
  have room : (encapRelay (lit "anna") (hopParams (lit "c.net"))).length ≤ lineMax := by decide
  refine ⟨hopA_carries, hops_joined,
    hopMessage ⟨⟨by decide, by decide⟩, by decide⟩ (by decide) room, fun arrives => ?_⟩
  have way : [(1, lit "b.net"), (4, lit "c.net")] ∈ hops.routes := by decide +kernel
  have got := arrives.once _ way (by decide +kernel)
  have silent : hopA.starts (lit "c.net") (encapRelay (lit "anna") (hopParams (lit "c.net"))) =
      [] := by decide +kernel
  rw [silent, Behind.received_nil fun _ _ => rfl] at got
  cases got

end Ircd
