import Timetabling.Json.Render
import Timetabling.Api.Error

/-! # HTTP exchanges

A request is a method, a path and headers with an optional body; a response is a status,
headers in the order they were set, and a body. Header names are compared without case.

Routes are patterns of segments, a segment starting with `:` matching any one non-empty segment.
A route group's prefix is joined to its routes as paths are joined: one slash between parts, and
`.` and `..` segments resolved. A path with a trailing slash that names a route without it is
redirected there.

Every request gets an identifier: the one the client sent in `X-Request-ID` when it is at most
128 visible ASCII characters, otherwise a fresh one. Cross-origin headers allow the configured
origins (any origin when none is configured); an `OPTIONS` request is answered there and then
with no content. -/

namespace Timetabling

/-- A request to the service. -/
structure HttpRequest where
  method : String
  path : String
  headers : List (String × String) := []
  body : Option String := none
deriving Repr, Inhabited

/-- A response of the service. -/
structure HttpResponse where
  status : Nat
  headers : List (String × String) := []
  body : String := ""
deriving Repr, Inhabited

namespace HttpRequest

/-- The value of a header, matched without case; empty when absent. -/
def header (r : HttpRequest) (name : String) : String :=
  ((r.headers.find? fun (k, _) => k.toLower == name.toLower).map (·.2)).getD ""

/-- The path without its query, with percent escapes decoded as the bytes of UTF-8 text. -/
def route (r : HttpRequest) : String :=
  let raw := (r.path.splitOn "?").headD ""
  let hex (c : Char) : Option Nat :=
    if c.isDigit then some (c.toNat - '0'.toNat)
    else if 'a' ≤ c.toLower ∧ c.toLower ≤ 'f' then some (c.toLower.toNat - 'a'.toNat + 10) else none
  let rec go (fuel : Nat) (cs : List Char) (acc : List UInt8) : List UInt8 :=
    match fuel, cs with
    | 0, _ => acc.reverse ++ (String.ofList cs).toUTF8.toList
    | _, [] => acc.reverse
    | fuel + 1, '%' :: a :: b :: rest =>
      match hex a, hex b with
      | some x, some y => go fuel rest ((x * 16 + y).toUInt8 :: acc)
      | _, _ => go fuel (a :: b :: rest) ((37 : Nat).toUInt8 :: acc)
    | fuel + 1, c :: rest => go fuel rest ((String.singleton c).toUTF8.toList.reverse ++ acc)
  (String.fromUTF8? (ByteArray.mk (go (raw.length + 1) raw.toList []).toArray)).getD raw

end HttpRequest

namespace Url

/-- Two uppercase hexadecimal digits of a byte. -/
def hexByte (b : Nat) : String :=
  let d (k : Nat) : Char := "0123456789ABCDEF".toList.getD k '0'
  String.ofList [d (b / 16 % 16), d (b % 16)]

/-- Whether a byte stays as it is in a path: letters, digits, `-_.~` and `$&+,/:;=@`. -/
def keptInPath (b : Nat) : Bool :=
  (0x61 ≤ b && b ≤ 0x7A) || (0x41 ≤ b && b ≤ 0x5A) || (0x30 ≤ b && b ≤ 0x39) ||
    "-_.~$&+,/:;=@".toList.any (·.toNat == b)

/-- A path with every other byte written as a percent escape. -/
def escapePath (p : String) : String :=
  String.join (p.toUTF8.toList.map fun b =>
    if keptInPath b.toNat then String.singleton (Char.ofNat b.toNat) else "%" ++ hexByte b.toNat)

/-- A text with the bytes of its non-ASCII characters written as percent escapes in lowercase. -/
def escapeNonAscii (s : String) : String :=
  String.join (s.toList.map fun c =>
    if c.toNat < 0x80 then String.singleton c
    else String.join ((String.singleton c).toUTF8.toList.map fun b => "%" ++ (hexByte b.toNat).toLower))

/-- A text made safe inside an HTML attribute: `&`, `<`, `>`, `"` and `'` written as entities. -/
def htmlEscape (s : String) : String :=
  String.join (s.toList.map fun c =>
    match c with
    | '&' => "&amp;"
    | '<' => "&lt;"
    | '>' => "&gt;"
    | '"' => "&#34;"
    | '\x27' => "&#39;"
    | c => String.singleton c)

/-- A rooted path cleaned as a redirect cleans it: repeated slashes and `.` segments dropped,
`..` removing the segment before it, and a trailing slash kept. -/
def clean (p : String) : String :=
  let segs := (p.splitOn "/").filter (· != "")
  let resolved := (segs.foldl (fun acc s =>
    if s == "." then acc else if s == ".." then acc.drop 1 else s :: acc) []).reverse
  let c := "/" ++ "/".intercalate resolved
  if p.endsWith "/" && !c.endsWith "/" then c ++ "/" else c

end Url

namespace HttpResponse

/-- Set a header, replacing an earlier value of the same name. -/
def setHeader (r : HttpResponse) (name value : String) : HttpResponse :=
  if r.headers.any (·.1 == name) then
    { r with headers := r.headers.map fun (k, v) => if k == name then (k, value) else (k, v) }
  else { r with headers := r.headers ++ [(name, value)] }

/-- Set headers in order. -/
def setHeaders (r : HttpResponse) (hs : List (String × String)) : HttpResponse :=
  hs.foldl (fun r (k, v) => r.setHeader k v) r

/-- The value of a header, if set. -/
def header? (r : HttpResponse) (name : String) : Option String :=
  (r.headers.find? (·.1 == name)).map (·.2)

/-- A JSON response. -/
def json (status : Nat) (body : Json) : HttpResponse :=
  ⟨status, [("Content-Type", "application/json; charset=utf-8")], body.render⟩

/-- A JSON response that must not be cached. -/
def uncached (status : Nat) (body : Json) : HttpResponse :=
  { json status body with
    headers := [("Cache-Control", "no-store"), ("Pragma", "no-cache"),
      ("Content-Type", "application/json; charset=utf-8")] }

/-- The envelope of a successful answer: its data and optional metadata. -/
def data (status : Nat) (d : Json) (extra : Option Json := none) : HttpResponse :=
  uncached status (.object ([("data", d)] ++ (extra.map fun m => ("meta", m)).toList))

/-- The envelope of an error. -/
def failure (e : ApiError) : HttpResponse :=
  uncached e.status (.object [("error", e.toJson)])

/-- The answer for a path no route takes. -/
def notFound : HttpResponse :=
  ⟨404, [("Content-Type", "text/plain")], "404 page not found"⟩

/-- A redirect to a path: permanent for `GET`, temporary otherwise; a `GET` gets a small page. -/
def redirect (method path query : String) : HttpResponse :=
  let cleaned := Url.clean (Url.escapePath path)
  let target := cleaned ++ query
  let location := Url.escapeNonAscii target
  if method == "GET" || method == "HEAD" then
    ⟨301, [("Content-Type", "text/html; charset=utf-8"), ("Location", location)],
      if method == "GET" then "<a href=\"" ++ Url.htmlEscape target ++ "\">Moved Permanently</a>.\n\n" else ""⟩
  else ⟨307, [("Location", location)], ""⟩

end HttpResponse

namespace Route

/-- The segments of a path. -/
def segments (p : String) : List String :=
  (p.splitOn "/").filter (· != "")

/-- Resolve `.` and `..` segments. -/
def resolve (segs : List String) : List String :=
  (segs.foldl (fun acc s =>
    if s == "." then acc else if s == ".." then acc.drop 1 else s :: acc) []).reverse

/-- Join a group's prefix and a route as paths are joined. -/
def join (base route : String) : String :=
  let joined := "/" ++ "/".intercalate (resolve (segments base ++ segments route))
  if route.endsWith "/" && !joined.endsWith "/" then joined ++ "/" else joined

/-- Match a path against a pattern: the parameters it binds, if it matches. -/
def matchPath (pattern path : String) : Option (List (String × String)) :=
  let ps := pattern.splitOn "/"
  let xs := path.splitOn "/"
  if ps.length != xs.length then none
  else (ps.zip xs).foldlM (fun acc (p, x) =>
    if p.startsWith ":" then (if x.isEmpty then none else some (acc ++ [((p.drop 1).toString, x)]))
    else if p == x then some acc else none) []

end Route

namespace RequestId

/-- Whether a client's request identifier is kept: at most 128 characters, all visible ASCII. -/
def acceptable (id : String) : Bool :=
  !id.isEmpty && id.length ≤ 128 && id.all fun c => 0x21 ≤ c.toNat && c.toNat ≤ 0x7e

/-- The `n`-th fresh identifier, in the form of a version-4 UUID. -/
def fresh (n : Nat) : String :=
  let hex := "0123456789abcdef".toList
  let digits := (List.range 12).reverse.map fun i => hex.getD (n / Nat.pow 16 i % 16) '0'
  "00000000-0000-4000-8000-" ++ String.ofList digits

/-- Whether text is a UUID in one of its usual forms: 32 hexadecimal digits in groups of 8, 4,
4, 4 and 12 joined by dashes, the same between braces, or the 32 digits alone. -/
def isUuid (s : String) : Bool :=
  let hex (c : Char) : Bool := c.isDigit || ('a' ≤ c.toLower && c.toLower ≤ 'f')
  let dashed (cs : List Char) : Bool :=
    cs.length == 36 && (cs.zipIdx.all fun (c, i) => if [8, 13, 18, 23].contains i then c == '-' else hex c)
  let cs := s.toList
  dashed cs || (cs.length == 38 && cs.head? == some '\x7b' && cs.getLast? == some '\x7d' &&
    dashed ((cs.drop 1).take 36)) || (cs.length == 32 && cs.all hex)

end RequestId

namespace Cors

/-- The headers allowed across origins. -/
def allowHeaders : String := "Authorization, Content-Type, X-Requested-With, X-Request-ID"
/-- The methods allowed across origins. -/
def allowMethods : String := "GET, POST, DELETE, OPTIONS"
/-- The headers exposed across origins. -/
def exposeHeaders : String := "X-Request-ID, Location"

/-- An origin without trailing slashes. -/
def trim (origin : String) : String :=
  String.ofList (origin.toList.reverse.dropWhile (· == '/')).reverse

/-- The cross-origin headers for a request's origin under the allowed origins. -/
def headers (allowed : List String) (origin : String) : List (String × String) :=
  let set := allowed.map trim
  let grant :=
    if origin != "" && (set.isEmpty || set.contains (trim origin)) then
      [("Access-Control-Allow-Origin", origin), ("Access-Control-Allow-Credentials", "true")]
    else if origin == "" && set.isEmpty then [("Access-Control-Allow-Origin", "*")]
    else []
  grant ++ [("Vary", "Origin"), ("Access-Control-Allow-Headers", allowHeaders),
    ("Access-Control-Allow-Methods", allowMethods), ("Access-Control-Expose-Headers", exposeHeaders),
    ("Access-Control-Max-Age", "600")]

end Cors

end Timetabling
