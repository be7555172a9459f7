/-
# Client and service on one pipe: `gui/src-tauri/src/ipc.rs`, `service/src/ipc/server.rs`

`IpcClient::send_request` gives every request a worker on a thread of a pool.  The worker
waits for the lock of the one connection, connects if there is none, writes the length and
the bytes of its request, flushes, reads the length and the bytes of the response, and lets
go of the lock; on any error it drops the connection.  The caller waits ten seconds, and
after that cancels the I/O of the worker's thread up to twice, whatever runs there by then.
The service reads, handles and writes in a loop, one task for each connection.

Reads and writes move any number of bytes at a time, and every party may fail at any time.
What a client knows of a pipe whose other end is closed is not modelled: bytes that nobody
reads may still be written.  A request that cannot be serialised is never sent, and a panic
under the lock, after which every request fails, is left out.

`asked` and `answers` of a pipe are its history: who has put a request to it, and what the
service has computed there.
-/

import Ceasefire.Lib.Framing
import Ceasefire.Lib.Transition

namespace Ceasefire
namespace Ipc

open Lib (ByteString Coding frame lengthOf)

/-! ## The two ends -/

/-- Where the loop of `handle_client_connection` is. -/
inductive ServerPhase (Req : Type)
  | readingLength (buf : ByteString)
  | readingData (len : ℕ) (buf : ByteString)
  | handling (request : Req)
  | writing (rest : ByteString)
  | closed

/-- A connection: the bytes under way, the task of the service, and the history. -/
structure Pipe (Req Resp : Type) where
  toServer : ByteString
  toClient : ByteString
  server : ServerPhase Req
  asked : List ℕ
  answers : List (Req × Resp)

/-- Where a worker is that holds the lock of the connection. -/
inductive Progress
  | locked
  | writing (rest : ByteString)
  | flushing
  | readingLength (buf : ByteString)
  | readingData (len : ℕ) (buf : ByteString)

/-- The closure of `spawn_blocking`: in the queue of the pool, waiting for the lock,
holding it, or done; `none` is an error. -/
inductive Worker (Resp : Type)
  | queued
  | waiting
  | holding
  | finished (result : Option Resp)

/-- The caller of `send_request`: it waits for its worker, it has returned the worker's
result, or it has returned the timeout and may still cancel some times. -/
inductive Caller (Resp : Type)
  | waiting
  | returned (result : Option Resp)
  | timedOut (cancels : ℕ)

/-- One call of `send_request`: `thread` runs the worker, and `registered` says whether its
handle is in the `CancelSlot`. -/
structure Call (Req Resp : Type) where
  request : Req
  worker : Worker Resp
  thread : Option ℕ
  registered : Bool
  caller : Caller Resp

/-- The calls so far, the lock with its holder, the connection under it, and all pipes. -/
structure State (Req Resp : Type) where
  calls : List (Call Req Resp)
  lock : Option (ℕ × Progress)
  slot : Option ℕ
  pipes : List (Pipe Req Resp)

inductive Label (Req Resp : Type)
  | call (request : Req)
  | start (call thread : ℕ) (registered : Bool)
  | acquire (call : ℕ)
  | connect
  | reuse
  | write (count : ℕ)
  | flush
  | read (count : ℕ)
  | ioError
  | deliver (call : ℕ)
  | timeout (call : ℕ)
  | cancel (call : ℕ) (hits : Bool)
  | serverRead (pipe count : ℕ)
  | serverHandle (pipe : ℕ) (response : Resp)
  | serverWrite (pipe count : ℕ)
  | serverClose (pipe : ℕ)

variable {Req Resp : Type} (requests : Coding Req) (responses : Coding Resp)

/-! ## The service -/

namespace Pipe

variable (pipe : Pipe Req Resp)

/-- The loop after `buf` has been read of a length. -/
def afterLength (buf : ByteString) : ServerPhase Req :=
  if buf.length < 4 then .readingLength buf
  else if lengthOf buf = 0 ∨ 10000000 < lengthOf buf then .closed
  else .readingData (lengthOf buf) []

/-- The loop after `buf` has been read of `len` bytes of data. -/
def afterData (len : ℕ) (buf : ByteString) : ServerPhase Req :=
  if buf.length < len then .readingData len buf
  else
    match requests.decode buf with
    | some request => .handling request
    | none => .closed

/-- `read_exact`, in parts of any size. -/
def serverRead (count : ℕ) : Option (Pipe Req Resp) :=
  let rest := pipe.toServer.drop count
  match pipe.server with
  | .readingLength buf =>
      if 0 < count ∧ count ≤ pipe.toServer.length ∧ buf.length + count ≤ 4 then
        some
          { pipe with toServer := rest, server := afterLength (buf ++ pipe.toServer.take count) }
      else none
  | .readingData len buf =>
      if 0 < count ∧ count ≤ pipe.toServer.length ∧ buf.length + count ≤ len then
        some
          { pipe with
            toServer := rest
            server := afterData requests len (buf ++ pipe.toServer.take count) }
      else none
  | _ => none

/-- `handle_request` computes a response. -/
def serverHandle (response : Resp) : Option (Pipe Req Resp) :=
  match pipe.server with
  | .handling request =>
      some
        { pipe with
          server := .writing (frame (responses.encode response))
          answers := pipe.answers ++ [(request, response)] }
  | _ => none

/-- `write_all`, in parts of any size; after the last the loop begins again. -/
def serverWrite (count : ℕ) : Option (Pipe Req Resp) :=
  match pipe.server with
  | .writing rest =>
      if 0 < count ∧ count ≤ rest.length then
        some
          { pipe with
            toClient := pipe.toClient ++ rest.take count
            server := if count = rest.length then .readingLength [] else .writing (rest.drop count) }
      else none
  | _ => none

/-- The service ends the connection: an error, a shutdown, or a client that has gone. -/
def serverClose : Option (Pipe Req Resp) := some { pipe with server := .closed }

/-- A new connection, with its first request. -/
def opened (i : ℕ) : Pipe Req Resp where
  toServer := []
  toClient := []
  server := .readingLength []
  asked := [i]
  answers := []

end Pipe

namespace State

variable (s : State Req Resp)

/-- The pipe under the lock. -/
def current : Option (ℕ × Pipe Req Resp) :=
  s.slot.bind fun p => s.pipes[p]?.map fun pipe => (p, pipe)

def setCall (i : ℕ) (c : Call Req Resp) : State Req Resp := { s with calls := s.calls.set i c }

/-- A step of the service on a pipe. -/
def onPipe (p : ℕ) (f : Pipe Req Resp → Option (Pipe Req Resp)) : Option (State Req Resp) := do
  let pipe ← s.pipes[p]?
  let pipe ← f pipe
  some { s with pipes := s.pipes.set p pipe }

/-! ## The worker -/

/-- The worker `i` returns and the lock is free; an error has dropped the connection. -/
def finish (i : ℕ) (result : Option Resp) : State Req Resp :=
  { s with
    calls := s.calls.modify i fun c => { c with worker := .finished result }
    lock := none
    slot := result.bind fun _ => s.slot }

/-- The worker with the lock begins to write its request. -/
def beginWriting (i : ℕ) (c : Call Req Resp) : State Req Resp :=
  { s with lock := some (i, .writing (frame (requests.encode c.request))) }

/-- No connection: `NamedPipeClient::connect` opens one. -/
def connect : Option (State Req Resp) :=
  match s.lock, s.slot with
  | some (i, .locked), none =>
      s.calls[i]?.map fun c =>
        { s with slot := some s.pipes.length, pipes := s.pipes ++ [Pipe.opened i] }.beginWriting
          requests i c
  | _, _ => none

/-- The connection that is there is used. -/
def reuse : Option (State Req Resp) :=
  match s.lock, s.current with
  | some (i, .locked), some (p, pipe) =>
      s.calls[i]?.map fun c =>
        { s with pipes := s.pipes.set p { pipe with asked := pipe.asked ++ [i] } }.beginWriting
          requests i c
  | _, _ => none

/-- `write_all`, in parts of any size. -/
def write (count : ℕ) : Option (State Req Resp) :=
  match s.lock, s.current with
  | some (i, .writing rest), some (p, pipe) =>
      if 0 < count ∧ count ≤ rest.length then
        some
          { s with
            pipes := s.pipes.set p { pipe with toServer := pipe.toServer ++ rest.take count }
            lock := some (i,
              if count = rest.length then .flushing else .writing (rest.drop count)) }
      else none
  | _, _ => none

def flush : Option (State Req Resp) :=
  match s.lock with
  | some (i, .flushing) => some { s with lock := some (i, .readingLength []) }
  | _ => none

/-- The worker after `buf` has been read of the length: on, to the data, or an error. -/
def afterLength (i : ℕ) (buf : ByteString) : State Req Resp :=
  if buf.length < 4 then { s with lock := some (i, .readingLength buf) }
  else if lengthOf buf = 0 ∨ 100000000 < lengthOf buf then s.finish i none
  else { s with lock := some (i, .readingData (lengthOf buf) []) }

/-- The worker after `buf` has been read of `len` bytes of data. -/
def afterData (i len : ℕ) (buf : ByteString) : State Req Resp :=
  if buf.length < len then { s with lock := some (i, .readingData len buf) }
  else s.finish i (responses.decode buf)

/-- `read_exact`, in parts of any size. -/
def read (count : ℕ) : Option (State Req Resp) :=
  match s.lock, s.current with
  | some (i, .readingLength buf), some (p, pipe) =>
      if 0 < count ∧ count ≤ pipe.toClient.length ∧ buf.length + count ≤ 4 then
        some
          ({ s with pipes := s.pipes.set p { pipe with toClient := pipe.toClient.drop count }
            }.afterLength i (buf ++ pipe.toClient.take count))
      else none
  | some (i, .readingData len buf), some (p, pipe) =>
      if 0 < count ∧ count ≤ pipe.toClient.length ∧ buf.length + count ≤ len then
        some
          ({ s with pipes := s.pipes.set p { pipe with toClient := pipe.toClient.drop count }
            }.afterData responses i len (buf ++ pipe.toClient.take count))
      else none
  | _, _ => none

/-- A connect, a write, a flush or a read of the lock's holder fails. -/
def ioError : Option (State Req Resp) :=
  match s.lock, s.slot with
  | some (_, .locked), some _ => none
  | some (i, _), _ => some (s.finish i none)
  | none, _ => none

/-! ## The pool and the callers -/

/-- The worker of a call is running. -/
def isRunning (c : Call Req Resp) : Bool :=
  match c.worker with
  | .waiting => true
  | .holding => true
  | _ => false

/-- A thread that is free takes a worker from the queue; the handle of the thread may fail to
be duplicated. -/
def start (i thread : ℕ) (registered : Bool) : Option (State Req Resp) :=
  match s.calls[i]? with
  | some ⟨request, .queued, _, _, caller⟩ =>
      if s.calls.any fun c => isRunning c && c.thread == some thread then none
      else some (s.setCall i ⟨request, .waiting, some thread, registered, caller⟩)
  | _ => none

/-- The lock goes to a worker that waits for it. -/
def acquire (i : ℕ) : Option (State Req Resp) :=
  match s.lock, s.calls[i]? with
  | none, some ⟨request, .waiting, thread, registered, caller⟩ =>
      some
        { s.setCall i ⟨request, .holding, thread, registered, caller⟩ with
          lock := some (i, .locked) }
  | _, _ => none

/-- The result of the task reaches the caller before the timeout. -/
def deliver (i : ℕ) : Option (State Req Resp) :=
  match s.calls[i]? with
  | some ⟨request, .finished result, thread, registered, .waiting⟩ =>
      some (s.setCall i ⟨request, .finished result, thread, registered, .returned result⟩)
  | _ => none

/-- Ten seconds have passed. -/
def timeout (i : ℕ) : Option (State Req Resp) :=
  match s.calls[i]? with
  | some ⟨request, worker, thread, registered, .waiting⟩ =>
      some (s.setCall i ⟨request, worker, thread, registered, .timedOut 2⟩)
  | _ => none

/-- `CancelSynchronousIo` reaches the lock's holder, if it runs on the thread. -/
def cancelThread (thread : Option ℕ) : Option (State Req Resp) :=
  match s.lock with
  | some (holder, _) =>
      if thread.isSome ∧ (s.calls[holder]?.bind Call.thread) = thread then s.ioError else none
  | none => none

/-- One of the two cancellations after a timeout.  Without a handle there is no second one; a
cancellation that meets no I/O, and a second one left out because the worker has marked itself
done, have no effect. -/
def cancel (i : ℕ) (hits : Bool) : Option (State Req Resp) :=
  match s.calls[i]? with
  | some ⟨request, worker, thread, registered, .timedOut (left + 1)⟩ =>
      let c : Call Req Resp :=
        ⟨request, worker, thread, registered, .timedOut (if registered then left else 0)⟩
      let spent := s.setCall i c
      if hits then
        if registered then spent.cancelThread thread else none
      else some spent
  | _ => none

/-- One step of anyone. -/
def step : Label Req Resp → Option (State Req Resp)
  | .call request =>
      some { s with calls := s.calls ++ [⟨request, .queued, none, false, .waiting⟩] }
  | .start i thread registered => s.start i thread registered
  | .acquire i => s.acquire i
  | .connect => s.connect requests
  | .reuse => s.reuse requests
  | .write count => s.write count
  | .flush => s.flush
  | .read count => s.read responses count
  | .ioError => s.ioError
  | .deliver i => s.deliver i
  | .timeout i => s.timeout i
  | .cancel i hits => s.cancel i hits
  | .serverRead p count => s.onPipe p fun pipe => pipe.serverRead requests count
  | .serverHandle p response => s.onPipe p fun pipe => pipe.serverHandle responses response
  | .serverWrite p count => s.onPipe p fun pipe => pipe.serverWrite count
  | .serverClose p => s.onPipe p fun pipe => pipe.serverClose

/-- Nothing asked and nothing connected. -/
def initial : State Req Resp where
  calls := []
  lock := none
  slot := none
  pipes := []

end State

end Ipc
end Ceasefire
