import ClusterConsole.Proofs.Http.Requests
import ClusterConsole.Proofs.Json.Members
import ClusterConsole.Proofs.Text.Utf8

/-! The body of a command as a document. A text is read as a request exactly if it is a document
of one of three shapes, an object with the two members in one of their orders or an array of the
two, and what was read is written as one of them. -/

namespace ClusterConsole.CommandRequest

open Json (Tree Piece Written Blank Ends text? TakeAll)

variable {x rest : Json.Text} {t : Tree} {s : List Char} {r : CommandRequest} {name : String}
  {met met' : Members} {ms : List (List Piece × Tree)}

/-! ### Requests as trees -/

/-- The tree is a request: an object of a cluster and a command, whichever comes first, or an
array of the two. Both are strings, and nothing is left out, repeated or added. -/
inductive Denotes : Tree → CommandRequest → Prop
  | clusterFirst {n n' ps ps' : List Piece} {target command : String}
      (hn : text? n = some targetName) (hn' : text? n' = some commandName)
      (hps : text? ps = some target) (hps' : text? ps' = some command) :
      Denotes (.object [(n, .string ps), (n', .string ps')]) (ofTexts target command)
  | commandFirst {n n' ps ps' : List Piece} {target command : String}
      (hn : text? n = some targetName) (hn' : text? n' = some commandName)
      (hps : text? ps = some target) (hps' : text? ps' = some command) :
      Denotes (.object [(n', .string ps'), (n, .string ps)]) (ofTexts target command)
  | items {ps ps' : List Piece} {target command : String}
      (hps : text? ps = some target) (hps' : text? ps' = some command) :
      Denotes (.array [.string ps, .string ps']) (ofTexts target command)

theorem denotes_tree (r : CommandRequest) : Denotes r.tree r :=
  .clusterFirst (Json.text?_map_char _) (Json.text?_map_char _) (Json.text?_map_char _)
    (Json.text?_map_char _)

/-- The text of a tree that is a string. -/
def textOf? : Tree → Option String
  | .string ps => text? ps
  | _ => none

theorem textOf?_eq_some {text : String} :
    textOf? t = some text ↔ ∃ ps, t = .string ps ∧ text? ps = some text := by
  cases t <;> simp [textOf?]

/-! ### One member -/

/-- A member is taken by one of two names, and by each name once. -/
inductive Taken : String → Members → Tree → Members → Prop
  | target {met : Members} {t : Tree} {text : String} (hmet : met.target = none)
      (ht : textOf? t = some text) : Taken targetName met t { met with target := some text }
  | command {met : Members} {t : Tree} {text : String} (hmet : met.command = none)
      (ht : textOf? t = some text) : Taken commandName met t { met with command := some text }

theorem commandName_ne : commandName ≠ targetName := by decide

/-- The text of a member, from after its name. -/
theorem readMember_readText {text : String} :
    Json.readMember Json.readText x = .ok (text, rest) ↔
      ∃ b b' t s, Blank b ∧ Blank b' ∧ Written t s ∧ textOf? t = some text ∧
        x = b.map some ++ some ':' :: (b'.map some ++ (s.map some ++ rest)) := by
  constructor
  · intro h
    obtain ⟨b, y, hb, rfl, hread⟩ := Json.readMember_eq_ok h
    obtain ⟨b', ps, s, hb', hs, ht, rfl⟩ := Json.readText_eq_ok.1 hread
    exact ⟨b, b', .string ps, s, hb, hb', hs, ht, rfl⟩
  · rintro ⟨b, b', t, s, hb, hb', hs, ht, rfl⟩
    obtain ⟨ps, rfl, hps⟩ := textOf?_eq_some.1 ht
    rw [Json.readMember_blank Json.readText hb]
    exact Json.readText_eq_ok.2 ⟨b', ps, s, hb', hs, hps, rfl⟩

theorem accepts_of_map {f : String → Members}
    (h : (Json.readMember Json.readText x).map (fun (text, r) => (f text, r)) = .ok (met', rest))
    (htake : ∀ {t text}, textOf? t = some text → Taken name met t (f text)) :
    ∃ b b' t s, Blank b ∧ Blank b' ∧ Written t s ∧ Taken name met t met' ∧
      x = b.map some ++ some ':' :: (b'.map some ++ (s.map some ++ rest)) := by
  obtain ⟨⟨text, r⟩, hread, heq⟩ := Json.map_eq_ok.1 h
  cases heq
  obtain ⟨b, b', t, s, hb, hb', hs, ht, hx⟩ := readMember_readText.1 hread
  exact ⟨b, b', t, s, hb, hb', hs, htake ht, hx⟩

theorem accepts_readMember : Json.Accepts readMember Taken := by
  intro name met met' x rest h
  unfold readMember at h
  split at h
  · next hname =>
    subst hname
    split at h
    · cases h
    · next hmet => exact accepts_of_map h (.target (Option.not_isSome_iff_eq_none.1 hmet))
  split at h
  · next hname =>
    subst hname
    split at h
    · cases h
    · next hmet => exact accepts_of_map h (.command (Option.not_isSome_iff_eq_none.1 hmet))
  · cases h

theorem reads_readMember : Json.Reads readMember Taken := by
  intro name met met' b b' s t rest hb hb' hs _ h
  have hread {text : String} (ht : textOf? t = some text) : Json.readMember Json.readText
      (b.map some ++ some ':' :: (b'.map some ++ (s.map some ++ rest))) = .ok (text, rest) :=
    readMember_readText.2 ⟨b, b', t, s, hb, hb', hs, ht, rfl⟩
  cases h with
  | target hmet ht =>
    rw [readMember, if_pos rfl, if_neg (by simp [hmet]), hread ht]
    rfl
  | command hmet ht =>
    rw [readMember, if_neg commandName_ne, if_pos rfl, if_neg (by simp [hmet]), hread ht]
    rfl

/-! ### All members -/

section
variable {target command target' command' : String}

/-- After both members no other one is taken. -/
theorem eq_nil_of_takeAll (h : TakeAll Taken ⟨some target, some command⟩ ms met) :
    ms = [] ∧ met = ⟨some target, some command⟩ := by
  cases h with
  | nil => exact ⟨rfl, rfl⟩
  | cons _ htake _ =>
    cases htake with
    | target hmet => cases hmet
    | command hmet => cases hmet

/-- After the cluster, the command is the only member to come. -/
theorem eq_command_of_takeAll
    (h : TakeAll Taken ⟨some target, none⟩ ms ⟨some target', some command'⟩) :
    ∃ n t, ms = [(n, t)] ∧ text? n = some commandName ∧ textOf? t = some command' ∧
      target = target' := by
  cases h with
  | cons hn htake hs =>
    cases htake with
    | target hmet => cases hmet
    | command hmet ht =>
      obtain ⟨rfl, hmet⟩ := eq_nil_of_takeAll hs
      cases hmet
      exact ⟨_, _, rfl, hn, ht, rfl⟩

/-- After the command, the cluster is the only member to come. -/
theorem eq_target_of_takeAll
    (h : TakeAll Taken ⟨none, some command⟩ ms ⟨some target', some command'⟩) :
    ∃ n t, ms = [(n, t)] ∧ text? n = some targetName ∧ textOf? t = some target' ∧
      command = command' := by
  cases h with
  | cons hn htake hs =>
    cases htake with
    | target hmet ht =>
      obtain ⟨rfl, hmet⟩ := eq_nil_of_takeAll hs
      cases hmet
      exact ⟨_, _, rfl, hn, ht, rfl⟩
    | command hmet => cases hmet

/-- The members of an object come to a cluster and a command exactly if the object is a
request. -/
theorem takeAll_iff : TakeAll Taken {} ms ⟨some target, some command⟩ ↔
    Denotes (.object ms) (ofTexts target command) := by
  constructor
  · intro h
    cases h with
    | cons hn htake hs =>
      cases htake with
      | target _ ht =>
        obtain ⟨n', t', rfl, hn', ht', rfl⟩ := eq_command_of_takeAll hs
        obtain ⟨ps, rfl, hps⟩ := textOf?_eq_some.1 ht
        obtain ⟨ps', rfl, hps'⟩ := textOf?_eq_some.1 ht'
        exact .clusterFirst hn hn' hps hps'
      | command _ ht =>
        obtain ⟨n', t', rfl, hn', ht', rfl⟩ := eq_target_of_takeAll hs
        obtain ⟨ps, rfl, hps⟩ := textOf?_eq_some.1 ht
        obtain ⟨ps', rfl, hps'⟩ := textOf?_eq_some.1 ht'
        exact .commandFirst hn' hn hps' hps
  · intro h
    cases h with
    | clusterFirst hn hn' hps hps' =>
      exact .cons hn (.target rfl hps) (.cons hn' (.command rfl hps') .nil)
    | commandFirst hn hn' hps hps' =>
      exact .cons hn' (.command rfl hps') (.cons hn (.target rfl hps) .nil)

theorem ofMembers_eq_ok : ofMembers met = .ok r ↔
    ∃ target command, met = ⟨some target, some command⟩ ∧ r = ofTexts target command := by
  obtain ⟨_ | target, _ | command⟩ := met <;> simp [ofMembers, eq_comm]

end

/-! ### Items -/

/-- Both items and the end of the array have to be there. -/
theorem readItems_eq_ok : readItems x = .ok (r, rest) ↔
    ∃ target command y z, Json.readItem true Json.readText x = .ok (some target, y) ∧
      Json.readItem false Json.readText y = .ok (some command, z) ∧
        Json.closeItems z = .ok rest ∧ r = ofTexts target command := by
  constructor
  · intro h
    obtain ⟨⟨target, y⟩, htarget, h⟩ := Json.bind_eq_ok.1 h
    cases target with
    | none =>
      -- Without a first item the second one is not asked for, and then both are missing.
      obtain ⟨⟨command, z⟩, hcommand, h⟩ := Json.bind_eq_ok.1 h
      obtain ⟨request, hrequest, -⟩ := Json.bind_eq_ok.1 h
      cases hcommand
      cases hrequest
    | some target =>
      obtain ⟨⟨command, z⟩, hcommand, h⟩ := Json.bind_eq_ok.1 h
      obtain ⟨request, hrequest, h⟩ := Json.bind_eq_ok.1 h
      obtain ⟨rest', hclose, h⟩ := Json.bind_eq_ok.1 h
      cases h
      obtain ⟨_, command, hmet, rfl⟩ := ofMembers_eq_ok.1 hrequest
      cases hmet
      exact ⟨target, command, y, z, htarget, hcommand, hclose, rfl⟩
  · rintro ⟨target, command, y, z, htarget, hcommand, hclose, rfl⟩
    simp [readItems, htarget, hcommand, hclose, ofMembers, bind, Except.bind, pure, Except.pure]

theorem readItems_accepts (h : readItems x = .ok (r, rest)) :
    ∃ t s, Written t s ∧ Denotes t r ∧ some '[' :: x = s.map some ++ rest := by
  obtain ⟨target, command, y, z, htarget, hcommand, hclose, rfl⟩ := readItems_eq_ok.1 h
  obtain ⟨x', hx', hread⟩ := Json.readItem_eq_some htarget
  obtain rfl := Json.eq_skipBlanks_of_nextItem? hx'
  obtain ⟨y', hy', hread'⟩ := Json.readItem_eq_some hcommand
  obtain ⟨y'', hy'', rfl⟩ := Json.exists_comma_of_nextItem? hy'
  rw [Json.readText_skipBlanks] at hread hread'
  obtain ⟨b₁, ps, s, hb₁, hs, hps, rfl⟩ := Json.readText_eq_ok.1 hread
  obtain ⟨b₂, hb₂, rfl⟩ := Json.exists_blank_of_eq hy''
  obtain ⟨b₃, ps', s', hb₃, hs', hps', rfl⟩ := Json.readText_eq_ok.1 hread'
  obtain ⟨b₄, hb₄, rfl⟩ := Json.exists_blank_of_eq (Json.skipBlanks_of_closeItems hclose)
  refine ⟨_, _, .array (.cons hb₁ hs hb₂ (.last hb₃ hs' hb₄)), .items hps hps', ?_⟩
  simp only [List.map_append, List.map_cons, List.map_nil, List.append_assoc, List.cons_append,
    List.nil_append]

section
variable {ps : List Piece} {text : String}

theorem readItem_first (hs : Written (.string ps) s) (hps : text? ps = some text)
    (hx : Json.skipBlanks x = s.map some ++ rest) :
    Json.readItem true Json.readText x = .ok (some text, rest) := by
  rw [Json.readItem_first hs hx, Json.readText_string hs hps hs.skipBlanks]
  rfl

theorem readItem_comma {y : Json.Text} (hx : Json.skipBlanks x = some ',' :: y)
    (hs : Written (.string ps) s) (hps : text? ps = some text)
    (hy : Json.skipBlanks y = s.map some ++ rest) :
    Json.readItem false Json.readText x = .ok (some text, rest) := by
  rw [Json.readItem_comma hx hs hy, Json.readText_string hs hps hs.skipBlanks]
  rfl

end

theorem readItems_reads {ts : List Tree} (h : Written (.array ts) s) (hr : Denotes (.array ts) r)
    (hx : Json.skipBlanks x = s.map some ++ rest) :
    ∃ y, Json.skipBlanks x = some '[' :: y ∧ readItems y = .ok (r, rest) := by
  cases hr with
  | items hps hps' =>
    cases h with
    | array h =>
      rw [Json.map_enclosed] at hx
      refine ⟨_, hx, ?_⟩
      cases h with
      | cons hb₁ hs hb₂ hitems =>
        cases hitems with
        | last hb₃ hs' hb₄ =>
          simp only [List.map_append, List.map_cons, List.append_assoc, List.cons_append]
          exact readItems_eq_ok.2 ⟨_, _, _, _,
            readItem_first hs hps (hs.skipBlanks_blank hb₁),
            readItem_comma (Json.skipBlanks_to hb₂ (by decide)) hs' hps'
              (hs'.skipBlanks_blank hb₃),
            Json.closeItems_close (Json.skipBlanks_to hb₄ (by decide)), rfl⟩
        | cons _ _ _ hitems => cases hitems

/-! ### Documents -/

theorem readRequest_accepts (h : readRequest x = .ok (r, rest)) :
    ∃ b t s, Blank b ∧ Written t s ∧ Denotes t r ∧ x = b.map some ++ (s.map some ++ rest) := by
  unfold readRequest at h
  split at h
  · next hx =>
    obtain ⟨b, hb, rfl⟩ := Json.exists_blank_of_eq hx
    obtain ⟨⟨met, y⟩, hrecord, h⟩ := Json.bind_eq_ok.1 h
    obtain ⟨request, hrequest, h⟩ := Json.bind_eq_ok.1 h
    cases h
    obtain ⟨target, command, rfl, rfl⟩ := ofMembers_eq_ok.1 hrequest
    obtain ⟨ms, s, hs, htakes, heq⟩ := accepts_readMember.readRecord hrecord
    exact ⟨b, _, s, hb, hs, takeAll_iff.1 htakes, by rw [heq]⟩
  · next hx =>
    obtain ⟨b, hb, rfl⟩ := Json.exists_blank_of_eq hx
    obtain ⟨t, s, hs, hr, heq⟩ := readItems_accepts h
    exact ⟨b, t, s, hb, hs, hr, by rw [heq]⟩
  · cases h

theorem readRequest_reads (h : Written t s) (hr : Denotes t r)
    (hx : Json.skipBlanks x = s.map some ++ rest) : readRequest x = .ok (r, rest) := by
  match t with
  | .object ms =>
    obtain ⟨target, command⟩ := r
    obtain ⟨y, hy, hrecord⟩ := reads_readMember.readRecord h (takeAll_iff.2 hr) hx
    simp only [readRequest, hy, hrecord]
    rfl
  | .array ts =>
    obtain ⟨y, hy, hitems⟩ := readItems_reads h hr hx
    simp only [readRequest, hy, hitems]
  | .null | .bool _ | .number _ | .string _ => cases hr

/-- A text is read as a request exactly if it is a document of one. -/
theorem read_eq_ok : read x = .ok r ↔
    ∃ t text, x = text.map some ∧ Json.Document t text ∧ Denotes t r := by
  constructor
  · intro h
    obtain ⟨b', hb', hread⟩ := Json.finish_eq_ok.1 h
    obtain ⟨b, t, s, hb, hs, hr, rfl⟩ := readRequest_accepts hread
    refine ⟨t, _, ?_, .mk hb hs hb', hr⟩
    simp only [List.map_append]
  · rintro ⟨t, text, rfl, ⟨hb, hs, hb'⟩, hr⟩
    simp only [List.map_append]
    exact Json.finish_eq_ok.2 ⟨_, hb', readRequest_reads hs hr (hs.skipBlanks_blank hb)⟩

/-! ### Encoding -/

/-- What is written of a request is the object with its cluster first and no blanks. -/
theorem toList_print (r : CommandRequest) : r.print.toList =
    "\x7b\"cluster\":".toList ++ Json.printString r.target.text ++
      ",\"command\":".toList ++ Json.printString r.command ++ ['\x7d'] := by
  have hcluster : Json.printString targetName = "\"cluster\"".toList := by decide
  have hcommand : Json.printString commandName = "\"command\"".toList := by decide
  rw [print, String.toList_ofList, toJson, Json.print, Json.printMembers, Json.printMembers,
    hcluster, hcommand]
  simp [Json.print]

theorem read_print (r : CommandRequest) : read (.ofString r.print) = .ok r :=
  read_eq_ok.2 ⟨r.tree, r.print.toList, rfl, r.document_print, denotes_tree r⟩

/-- The encoding of a request, and the texts that decode to it. -/
structure Codec (r : CommandRequest) : Prop where
  /-- The encoding decodes to the request, as a text and as its bytes. -/
  again : read (.ofString r.print) = .ok r
  bytes : read (.ofBytes (Utf8.encode r.print.toList)) = .ok r
  /-- A text decodes to the request exactly if it is a document that denotes it. -/
  texts : ∀ x, read x = .ok r ↔ ∃ t text, x = text.map some ∧ Json.Document t text ∧ Denotes t r
  /-- Whatever the request was decoded from, it is written in one way, -/
  canonical : r.print.toList =
    "\x7b\"cluster\":".toList ++ Json.printString r.target.text ++
      ",\"command\":".toList ++ Json.printString r.command ++ ['\x7d']
  /-- which is the body that a client posts for it. -/
  posted : ∀ {c : Http.Client} {request : Http.Request}, c.requestOf? (.submit r) = some request →
    request.method = .post ∧ Http.target request.url = "/" ∧
      request.contentType = some "application/json" ∧ request.body = r.print

/-- Every request is read back from its encoding, and every text that is read as the request is
a document of it, so that writing it again gives the body of the request to the server. -/
theorem codec (r : CommandRequest) : Codec r where
  again := read_print r
  bytes := by
    rw [Json.Text.ofBytes, Utf8.decode_encode]
    exact read_print r
  texts _ := read_eq_ok
  canonical := toList_print r
  posted h := by
    have hsubmission := Http.Client.isSubmission_of_request h
    obtain ⟨u, -, -, -, hrequest⟩ := Http.Client.requestOf_eq_some.1 h
    refine ⟨hsubmission.method, hsubmission.target, ?_, ?_⟩
    · rw [hrequest]
      rfl
    · rw [hrequest]
      rfl

end ClusterConsole.CommandRequest
