import ClusterConsole.Http.Message
import ClusterConsole.Text.Percent
import ClusterConsole.Text.Utf8

/-! Requests and replies as HTTP/1.1 writes them. One connection carries one request and
its reply, and the server closes it. -/

namespace ClusterConsole.Http

/-! ### Requests -/

def crlf : String := "\r\n"

/-- Path and query of a URL. -/
def target (u : Url) : String := String.ofList (u.path.render ++ u.renderQuery)

/-- Host and port of a URL, as the header writes them. -/
def hostHeader (u : Url) : String :=
  String.ofList (u.authority.elim [] fun a => a.host.render ++ a.renderPort)

/-- The headers of a request, in order. -/
def Request.headers (r : Request) : List (String × String) :=
  (r.authorization.map (("authorization", ·))).toList ++ (r.cookie.map (("cookie", ·))).toList ++
    (r.contentType.map (("content-type", ·))).toList ++ [("accept", "*/*"),
      ("host", hostHeader r.url)] ++
    (if r.method = .post then [("content-length", toString r.body.utf8ByteSize)] else []) ++
    [("connection", "close")]

def Request.wire (r : Request) : String :=
  r.method.text ++ " " ++ target r.url ++ " HTTP/1.1" ++ crlf ++
    String.join (r.headers.map fun (name, value) => name ++ ": " ++ value ++ crlf) ++ crlf ++ r.body

/-! ### Replies -/

/-- A line without its end, and the bytes after it. -/
def takeLine : List UInt8 → Option (List Char × List UInt8)
  | [] => none
  | 13 :: 10 :: rest => some ([], rest)
  | 10 :: rest => some ([], rest)
  | b :: rest => (takeLine rest).map fun (line, rest) => (Char.ofNat b.toNat :: line, rest)

theorem takeLine_length {s rest : List UInt8} {line : List Char}
    (h : takeLine s = some (line, rest)) : rest.length < s.length := by
  fun_induction takeLine s generalizing line with
  | case1 => cases h
  | case2 t =>
    simp only [Option.some.injEq, Prod.mk.injEq] at h
    obtain ⟨-, rfl⟩ := h
    simp only [List.length_cons]; omega
  | case3 t =>
    simp only [Option.some.injEq, Prod.mk.injEq] at h
    obtain ⟨-, rfl⟩ := h
    simp
  | case4 b t _ _ ih =>
    obtain ⟨⟨l, r⟩, hp, hq⟩ := Option.map_eq_some_iff.1 h
    simp only [Prod.mk.injEq] at hq
    obtain ⟨-, rfl⟩ := hq
    have := ih hp
    simp only [List.length_cons]; omega

/-- A header's name in lower case and its value. -/
def splitHeader (line : List Char) : String × String :=
  let name := line.takeWhile (· != ':')
  let value := (line.drop (name.length + 1)).dropWhile (· == ' ')
  (String.ofList (name.map Char.toLower), String.ofList value)

/-- The headers up to the empty line. -/
def takeHeaders (s : List UInt8) : Option (List (String × String) × List UInt8) :=
  match _h : takeLine s with
  | none => none
  | some ([], rest) => some ([], rest)
  | some (line, rest) => (takeHeaders rest).map fun (hs, rest) => (splitHeader line :: hs, rest)
termination_by s.length
decreasing_by exact takeLine_length _h

/-- The status of the line that a reply starts with. -/
def statusOf? (line : List Char) : Option Nat :=
  match (String.ofList line).splitOn " " with
  | version :: code :: _ => if version.startsWith "HTTP/1." then code.toNat? else none
  | _ => none

/-- The number of bytes of a chunk. -/
def chunkSize? (line : List Char) : Option Nat :=
  let digits := line.takeWhile fun c => (Percent.hexValue? c).isSome
  if digits.isEmpty then none
  else (digits.mapM Percent.hexValue?).map fun ds => ds.foldl (16 * · + ·) 0

/-- The bytes of a body in chunks, and whether the last chunk is there. -/
def takeChunks (s : List UInt8) : List UInt8 × Bool :=
  match _h : takeLine s with
  | none => ([], false)
  | some (line, rest) =>
    match chunkSize? line with
    | none => ([], false)
    | some 0 => ([], true)
    | some n =>
      if rest.length < n then (rest, false)
      else
        match _h' : takeLine (rest.drop n) with
        | some ([], after) =>
          let (more, isComplete) := takeChunks after
          (rest.take n ++ more, isComplete)
        | _ => (rest.take n, false)
termination_by s.length
decreasing_by
  all_goals
    have := takeLine_length _h
    have := takeLine_length _h'
    simp only [List.length_drop] at this
    omega

/-- The body that follows the headers. Without a length it ends with the connection. -/
def takeBody (headers : List (String × String)) (s : List UInt8) : List UInt8 × Bool :=
  if (headers.lookup "transfer-encoding").any (·.toLower == "chunked") then
    takeChunks s
  else
    match (headers.lookup "content-length").bind String.toNat? with
    | some n => (s.take n, n ≤ s.length)
    | none => (s, true)

/-- The reply that the bytes of a connection are. -/
def Reply.ofWire? (s : List UInt8) : Option Reply := do
  let (line, rest) ← takeLine s
  let status ← statusOf? line
  let (headers, rest) ← takeHeaders rest
  let (body, isComplete) := takeBody headers rest
  return { status, body, isComplete }

/-- What became of a request, by the bytes that came back. -/
def Delivery.ofWire (s : List UInt8) : Delivery :=
  match Reply.ofWire? s with
  | some reply => .answered reply
  | none => .unanswered

end ClusterConsole.Http
