import Signpost.Http.Reason
import Signpost.Http.Response

/-!
This module contains the messages that a connection carries: requests as they arrive and responses as they
are sent.
-/

namespace Signpost.Http

/-- A request as it arrives. -/
structure Message where
  method : String
  uri : String
  headers : List (String × Bytes)
  body : Bytes

/-- The request that a message carries. A header that HTTP does not admit is passed over. -/
def Message.request? (m : Message) : Option Request :=
  (Method.ofString? m.method).map fun method =>
    let headers := m.headers.foldl
      (fun (headers : Headers) (name, value) =>
        match HeaderName.ofString? name with
        | some name => if value.all isValueByte then headers.append name value else headers
        | none => headers)
      .empty
    { Request.ofUri method m.uri with headers }.withBody m.body

/-- A response as it is sent. -/
structure Reply where
  statusLine : String
  headers : List (String × String)
  body : Bytes

/-- The status line. The usual status has a reason of its own. -/
def statusLine (status : Nat) : String :=
  "HTTP/1.1 " ++ toString status ++ " " ++ if status = 200 then "Ok" else reason status

/-- The response as it is sent. The connection names itself and tells the length of the body. -/
def Response.reply (r : Response) : Reply where
  statusLine := statusLine r.status
  headers :=
    [("Server", "M"), ("Content-Length", toString r.body.length)]
      ++ r.headers.entries.map fun (name, value) => (name.text, Text.ofUtf8Lossy value)
  body := r.body

/-- How often a listener is tried before it counts as unreachable. -/
def connectAttempts : Nat := 50

/-- Whether a listener accepts one of the first connections. -/
def isReachable (accepts : (attempt : Nat) → Bool) : Bool :=
  (List.range connectAttempts).any accepts

/-- The message about a listener that is unreachable. -/
def unreachableMessage : String := "server not ready"

end Signpost.Http
