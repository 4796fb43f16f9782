import EcuPoll.Engine.Event

/-!
# Records of a run

What a receiver of poll results has seen, read off the events of a run.
-/

namespace EcuPoll

namespace Event

/-- A reply or a failure: the outcome of a periodic poll. -/
def isResult : Event → Bool
  | .reply .. | .failed .. => true
  | _ => false

/-- A callback about a periodic poll. -/
def isPollEvent : Event → Bool
  | .reply .. | .failed .. | .sent .. => true
  | _ => false

/-- A callback about the schedule. -/
def isSignal : Event → Bool
  | .passFinished _ | .stateTicker _ => true
  | _ => false

/-- The payload of a reply, nothing for any other event. -/
def replyPayload : Event → List UInt8
  | .reply _ data _ => data
  | _ => []

end Event

/-- The payload of all replies together. -/
def replyData (events : List Event) : List UInt8 :=
  events.flatMap Event.replyPayload

end EcuPoll
