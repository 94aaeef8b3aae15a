import PietLang.Source.Basic
import PietLang.Web.Url

/-!
# Web/Client — a client for the web without its network

What goes over the network is given from outside; what the client says about an address and about a
status is here.
-/

namespace PietLang

/-! ## Statuses -/

namespace Status

/-- Whether a status says that the request was met. -/
def isSuccess (status : Int) : Bool := 200 ≤ status && status < 300

/-- The kind of a status that is no success, by its hundreds. -/
def kind (status : Int) : String :=
  if 100 ≤ status && status < 200 then "Informational response"
  else if 300 ≤ status && status < 400 then "Redirect response"
  else if 400 ≤ status && status < 500 then "Client error"
  else if 500 ≤ status && status < 600 then "Server error"
  else "Invalid status code"

/-- The phrases that go with the statuses. -/
def phrases : List (Int × String) :=
  [(100, "Continue"), (101, "Switching Protocols"), (102, "Processing"), (103, "Early Hints"),
    (300, "Multiple Choices"), (301, "Moved Permanently"), (302, "Found"), (303, "See Other"),
    (304, "Not Modified"), (305, "Use Proxy"), (307, "Temporary Redirect"),
    (308, "Permanent Redirect"), (400, "Bad Request"), (401, "Unauthorized"),
    (402, "Payment Required"), (403, "Forbidden"), (404, "Not Found"), (405, "Method Not Allowed"),
    (406, "Not Acceptable"), (407, "Proxy Authentication Required"), (408, "Request Timeout"),
    (409, "Conflict"), (410, "Gone"), (411, "Length Required"), (412, "Precondition Failed"),
    (413, "Request Entity Too Large"), (414, "Request-URI Too Long"),
    (415, "Unsupported Media Type"), (416, "Requested Range Not Satisfiable"),
    (417, "Expectation Failed"), (418, "I'm a teapot"), (421, "Misdirected Request"),
    (422, "Unprocessable Entity"), (423, "Locked"), (424, "Failed Dependency"), (425, "Too Early"),
    (426, "Upgrade Required"), (428, "Precondition Required"), (429, "Too Many Requests"),
    (431, "Request Header Fields Too Large"), (451, "Unavailable For Legal Reasons"),
    (500, "Internal Server Error"), (501, "Not Implemented"), (502, "Bad Gateway"),
    (503, "Service Unavailable"), (504, "Gateway Timeout"), (505, "HTTP Version Not Supported"),
    (506, "Variant Also Negotiates"), (507, "Insufficient Storage"), (508, "Loop Detected"),
    (510, "Not Extended"), (511, "Network Authentication Required")]

/-- The phrase of a status; one that is not registered has none. -/
def phrase (status : Int) : String := (phrases.lookup status).getD ""

/-- What is said about a status that is no success. -/
def complaint (status : Int) (url : String) : String :=
  s!"{kind status} '{status} {phrase status}' for url '{url}'\n"
    ++ "For more information check: https://developer.mozilla.org/en-US/docs/Web/HTTP/Status/"
    ++ toString status

end Status

/-! ## Clients -/

namespace Web

/-- The address that a text names. -/
def parse (encode? : String → Option String) (s : String) : Except Raised Url :=
  (Url.ofText encode? s).mapError fun e => ⟨.invalidUrl, e.message⟩

/-- Raises an error unless the status of an answer is a success. -/
def check {β : Type} (a : Source.Answer Url β) : Except Raised Unit :=
  if Status.isSuccess a.status then .ok ()
  else .error ⟨.status, Status.complaint a.status a.address.text⟩

end Web

end PietLang
