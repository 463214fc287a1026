import NodeProvisioner.Program

/-!
# HTTP

The requests that a client of the API server sends, and the responses it gets.

A target is sent as it is given: nothing in it is escaped. It is a path, then, after a question
mark, a query; a number sign ends both. Each has its own characters.
-/

namespace NodeProvisioner

/-- What a request does to a resource. -/
inductive HttpMethod where
  | get
  | post
  | put
deriving DecidableEq, Repr

/-- A request with a JSON text as its body, which is empty if it has none. -/
structure HttpRequest where
  method : HttpMethod
  path : String
  body : String := ""
deriving DecidableEq, Repr

/-- A response. -/
structure HttpResponse where
  status : Nat
  body : String
deriving DecidableEq, Repr

/-- A request is answered by a response, or by what has come in its way. -/
def HttpRequest.Answer (_ : HttpRequest) : Type := Except String HttpResponse

/-- The name of a method. -/
def HttpMethod.name : HttpMethod → String
  | get => "GET"
  | post => "POST"
  | put => "PUT"

/-! ## Targets -/

namespace Target

/-- The characters of all parts: all but spaces, controls, angle brackets and the marks that end a
part. -/
def isCommon (c : Char) : Bool :=
  c = '!' || ('$' ≤ c && c ≤ ';') || c = '=' || ('@' ≤ c && c ≤ '_') || ('a' ≤ c && c ≤ 'z') ||
    c = '|' || c = '~' || '\x7f' ≤ c

/-- The characters of paths. -/
def isPathChar (c : Char) : Bool := isCommon c || c = '"' || c = '\x7b' || c = '\x7d'

/-- The characters of queries. -/
def isQueryChar (c : Char) : Bool :=
  isCommon c || c = '?' || c = '\x60' || c = '\x7b' || c = '\x7d'

/-- The path of a target, if the target has no character out of place. -/
def path? (target : String) : Option String :=
  let (path, rest) := target.toList.span fun c => c ≠ '?' ∧ c ≠ '#'
  let query := match rest with
    | '?' :: rest => rest.takeWhile (· ≠ '#')
    | _ => []
  if path.all isPathChar && query.all isQueryChar then some (String.ofList path) else none

/-- The greatest size of a target, in bytes. -/
def maxSize : Nat := 65534

end Target

/-! ## Statuses -/

/-- The phrases of the statuses that say that a request has failed. -/
def failurePhrases : List (Nat × String) :=
  [(400, "Bad Request"), (401, "Unauthorized"), (402, "Payment Required"), (403, "Forbidden"),
   (404, "Not Found"), (405, "Method Not Allowed"), (406, "Not Acceptable"),
   (407, "Proxy Authentication Required"), (408, "Request Timeout"), (409, "Conflict"),
   (410, "Gone"), (411, "Length Required"), (412, "Precondition Failed"),
   (413, "Payload Too Large"), (414, "URI Too Long"), (415, "Unsupported Media Type"),
   (416, "Range Not Satisfiable"), (417, "Expectation Failed"), (418, "I'm a teapot"),
   (421, "Misdirected Request"), (422, "Unprocessable Entity"), (423, "Locked"),
   (424, "Failed Dependency"), (425, "Too Early"), (426, "Upgrade Required"),
   (428, "Precondition Required"), (429, "Too Many Requests"),
   (431, "Request Header Fields Too Large"), (451, "Unavailable For Legal Reasons"),
   (500, "Internal Server Error"), (501, "Not Implemented"), (502, "Bad Gateway"),
   (503, "Service Unavailable"), (504, "Gateway Timeout"), (505, "HTTP Version Not Supported"),
   (506, "Variant Also Negotiates"), (507, "Insufficient Storage"), (508, "Loop Detected"),
   (510, "Not Extended"), (511, "Network Authentication Required")]

namespace HttpResponse

/-- The status says that the request has failed. -/
def isFailure (r : HttpResponse) : Bool := 400 ≤ r.status && r.status < 600

/-- The status with its phrase. -/
def statusLine (r : HttpResponse) : String :=
  s!"{r.status} " ++ (failurePhrases.lookup r.status).getD "<unknown status code>"

end HttpResponse

end NodeProvisioner
