import PushMesh.Http.Request

/-!
# Answers

An answer has a status, a content type, a payload, and where it matters the methods that are allowed
on the path and the origins that may read it.
-/

namespace PushMesh.Http

/-- What an answer carries. -/
inductive Payload where
  | empty
  | text (s : String)
  | json (value : Json)
  /-- Metrics with their values. -/
  | samples (samples : List (String × Int))
  /-- The events of a stream, as they come. -/
  | events (stream : Nat)

/-- The answer to a request. -/
structure Answer where
  status : Nat
  contentType : Option String
  payload : Payload
  /-- The methods that are allowed on the path. -/
  allow : Option String
  /-- The origins that may read the answer. -/
  allowOrigin : Option String

namespace Answer

/-- An answer without content. -/
def bare (status : Nat) : Answer := ⟨status, none, .empty, none, none⟩

/-- An answer with a value. -/
def json (status : Nat) (value : Json) : Answer :=
  ⟨status, some "application/json", .json value, none, none⟩

/-- An answer with a text for people. -/
def text (status : Nat) (s : String) : Answer :=
  ⟨status, some "text/plain; charset=utf-8", .text s, none, none⟩

/-- An answer with metrics. -/
def samples (l : List (String × Int)) : Answer :=
  ⟨200, some "text/plain; version=0.0.4; charset=utf-8", .samples l, none, none⟩

/-- An answer that goes on as a stream of events. -/
def events (stream : Nat) : Answer :=
  ⟨200, some "text/event-stream", .events stream, none, none⟩

/-- The answer that refuses a request. -/
def rejected (e : Rejection) : Answer := text e.status e.text

/-- The answer together with the methods allowed on the path. -/
def allowing (a : Answer) (methods : String) : Answer := { a with allow := some methods }

/-- The answer that every origin may read. -/
def shared (a : Answer) : Answer := { a with allowOrigin := some "*" }

/-- The answer without its payload. -/
def headOnly (a : Answer) : Answer := { a with payload := .empty }

end Answer

end PushMesh.Http
