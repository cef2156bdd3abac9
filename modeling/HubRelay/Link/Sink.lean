import HubRelay.Link.Datagram

/-!
Writing whole datagrams to a sink that takes bytes in pieces of any size, and the outbound half of
a stream link.

A datagram is offered until the sink has taken all of it and then flushed. The first datagram that
cannot be written takes the link down; while it is down every send is refused and the sink is left
alone. An oversized payload is refused before the sink is asked anything.
-/

namespace HubRelay

/-- What a sink does when it is offered bytes. -/
inductive WriteReply
  | takes (count : Nat)
  | interrupted
  | failed (text : String)
  deriving DecidableEq, Repr

/-- What a sink does when it is flushed. -/
inductive FlushReply
  | done
  | interrupted
  | failed (text : String)
  deriving DecidableEq, Repr

/-- A sink with the replies it will give and a record of what it was asked. Past the last reply it
takes everything and flushes at once. -/
structure Sink where
  writes : List WriteReply := []
  flushes : List FlushReply := []
  accepted : Bytes := []
  offers : List Nat := []
  flushCount : Nat := 0

namespace Sink

/-- Offers `bytes` until all of them are taken. -/
def writeAll (sink : Sink) (bytes : Bytes) : Except LinkError Unit × Sink :=
  if bytes = [] then (.ok (), sink)
  else
    let asked := { sink with offers := sink.offers ++ [bytes.length] }
    match replies : sink.writes with
    | [] => (.ok (), { asked with accepted := sink.accepted ++ bytes })
    | .takes 0 :: rest => (.error .closed, { asked with writes := rest })
    | .takes (count + 1) :: rest =>
        writeAll { asked with
          writes := rest, accepted := sink.accepted ++ bytes.take (count + 1) }
          (bytes.drop (count + 1))
    | .interrupted :: rest => writeAll { asked with writes := rest } bytes
    | .failed text :: rest => (.error (.failed text), { asked with writes := rest })
termination_by sink.writes.length
decreasing_by all_goals simp [replies]

/-- Flushes until the sink says that it is done or has failed, given the replies to come. -/
def flushWith (sink : Sink) : List FlushReply → Except LinkError Unit × Sink
  | [] => (.ok (), { sink with flushes := [], flushCount := sink.flushCount + 1 })
  | .done :: rest => (.ok (), { sink with flushes := rest, flushCount := sink.flushCount + 1 })
  | .interrupted :: rest => flushWith { sink with flushCount := sink.flushCount + 1 } rest
  | .failed text :: rest =>
      (.error (.failed text), { sink with flushes := rest, flushCount := sink.flushCount + 1 })

def send (sink : Sink) (limit : Nat) (payload : Bytes) : Except LinkError Unit × Sink :=
  if payload.length > limit then (.error (.oversized payload.length limit), sink)
  else
    match Datagram.encode? payload with
    | .error error => (.error error, sink)
    | .ok bytes =>
        match sink.writeAll bytes with
        | (.error error, sink) => (.error error, sink)
        | (.ok (), sink) => sink.flushWith sink.flushes

end Sink

/-- The outbound half of a link over a byte stream. -/
structure StreamLink where
  sink : Sink
  limit : Nat := Datagram.defaultLimit
  up : Bool := true

namespace StreamLink

/-- Sends one frame; the answer says whether the link took it. -/
def send (link : StreamLink) (frame : Bytes) : Bool × StreamLink :=
  if link.up then
    match link.sink.send link.limit frame with
    | (.ok (), sink) => (true, { link with sink })
    | (.error (.oversized _ _), sink) => (false, { link with sink })
    | (.error _, sink) => (false, { link with sink, up := false })
  else (false, link)

/-- Lets frames pass again, after the stream was replaced or recovered. -/
def restore (link : StreamLink) : StreamLink := { link with up := true }

end StreamLink

end HubRelay
