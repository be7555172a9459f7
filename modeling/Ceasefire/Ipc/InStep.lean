/-
# The two ends of a pipe stay in step

`Exchange` says how far the two ends are with one request, from what is unsent to what has
been read; a pipe that nobody uses is `Idle`, with nothing under way in either direction.
Each end moves an exchange on: the worker by `Exchange.write` and `Exchange.read`, the service
by the steps of `ServerStep`.  A worker that has read a response has read all of it, and
leaves the pipe idle (`Exchange.done`).
-/

import Ceasefire.Ipc.Pipe

namespace Ceasefire
namespace Ipc

open Lib (ByteString Coding frame lengthOf lengthBytes)

variable {Req Resp : Type} {requests : Coding Req} {responses : Coding Resp}

/-! ## One request on one pipe -/

/-- Nothing is under way, and all that was asked has been answered. -/
structure Idle (pipe : Pipe Req Resp) : Prop where
  toClient : pipe.toClient = []
  answered : pipe.answers.length = pipe.asked.length
  server : pipe.server = .closed ∨ pipe.server = .readingLength [] ∧ pipe.toServer = []

/-- The last request of the pipe has no answer yet, and nothing has come back. -/
structure Unanswered (got : ByteString) (pipe : Pipe Req Resp) : Prop where
  got : got = []
  toClient : pipe.toClient = []
  count : pipe.answers.length + 1 = pipe.asked.length

/-- The last request of the pipe has the answer `response`; `rest` of it is not yet written. -/
structure Answered (responses : Coding Resp) (request : Req) (got rest : ByteString)
    (response : Resp) (pipe : Pipe Req Resp) : Prop where
  bytes : got ++ pipe.toClient ++ rest = frame (responses.encode response)
  count : pipe.answers.length = pipe.asked.length
  last : pipe.answers.getLast? = some (request, response)

/-- How far the two ends are with `request`: `unsent` of it the worker has not yet written,
and `got` is what it has read. -/
inductive Exchange (requests : Coding Req) (responses : Coding Resp) (request : Req)
    (unsent got : ByteString) (pipe : Pipe Req Resp) : Prop
  | asking {buf : ByteString} (hserver : pipe.server = .readingLength buf) (hbuf : buf.length < 4)
      (hbytes : buf ++ pipe.toServer ++ unsent = frame (requests.encode request))
      (h : Unanswered got pipe)
  | loading {buf data : ByteString} (hserver : pipe.server = .readingData (lengthOf buf) data)
      (hbuf : buf.length = 4) (hdata : data.length < lengthOf buf)
      (hbytes : buf ++ data ++ (pipe.toServer ++ unsent) = frame (requests.encode request))
      (h : Unanswered got pipe)
  | handling (hserver : pipe.server = .handling request) (hrest : pipe.toServer ++ unsent = [])
      (h : Unanswered got pipe)
  | answering {rest : ByteString} {response : Resp} (hserver : pipe.server = .writing rest)
      (hmore : rest ≠ []) (hrest : pipe.toServer ++ unsent = [])
      (h : Answered responses request got rest response pipe)
  | answered {response : Resp} (hserver : pipe.server = .readingLength [])
      (hrest : pipe.toServer ++ unsent = [])
      (h : Answered responses request got [] response pipe)
  | lost (hserver : pipe.server = .closed) (h : Unanswered got pipe)
  | broken {rest : ByteString} {response : Resp} (hserver : pipe.server = .closed)
      (h : Answered responses request got rest response pipe)

namespace Exchange

variable {request : Req} {unsent got a b : ByteString} {pipe : Pipe Req Resp}

/-- An idle pipe takes the next request. -/
theorem begin (h : Idle pipe) (i : ℕ) :
    Exchange requests responses request (frame (requests.encode request)) []
      { pipe with asked := pipe.asked ++ [i] } := by
  have hcount : pipe.answers.length + 1 = (pipe.asked ++ [i]).length := by
    rw [List.length_append, h.answered]
    rfl
  rcases h.server with hclosed | ⟨hopen, hempty⟩
  · exact .lost hclosed ⟨rfl, h.toClient, hcount⟩
  · refine .asking hopen (Nat.succ_pos 3) ?_ ⟨rfl, h.toClient, hcount⟩
    rw [hempty]
    rfl

/-- The worker writes some bytes. -/
theorem write (h : Exchange requests responses request (a ++ b) got pipe) :
    Exchange requests responses request b got { pipe with toServer := pipe.toServer ++ a } := by
  cases h with
  | asking hserver hbuf hbytes h =>
      refine .asking hserver hbuf ?_ ⟨h.got, h.toClient, h.count⟩
      rw [← hbytes]
      simp only [List.append_assoc]
  | loading hserver hbuf hdata hbytes h =>
      refine .loading hserver hbuf hdata ?_ ⟨h.got, h.toClient, h.count⟩
      rw [← hbytes]
      simp only [List.append_assoc]
  | handling hserver hrest h =>
      refine .handling hserver ?_ ⟨h.got, h.toClient, h.count⟩
      rwa [List.append_assoc]
  | answering hserver hmore hrest h =>
      refine .answering hserver hmore ?_ ⟨h.bytes, h.count, h.last⟩
      rwa [List.append_assoc]
  | answered hserver hrest h =>
      refine .answered hserver ?_ ⟨h.bytes, h.count, h.last⟩
      rwa [List.append_assoc]
  | lost hserver h => exact .lost hserver ⟨h.got, h.toClient, h.count⟩
  | broken hserver h => exact .broken hserver ⟨h.bytes, h.count, h.last⟩

/-- The worker reads some bytes. -/
theorem read (h : Exchange requests responses request unsent got pipe)
    (hbytes : pipe.toClient = a ++ b) :
    Exchange requests responses request unsent (got ++ a) { pipe with toClient := b } := by
  have hnothing : Unanswered got pipe → a = [] ∧ b = [] := fun h =>
    List.append_eq_nil_iff.1 (hbytes.symm.trans h.toClient)
  have hsome : ∀ {rest response}, Answered responses request got rest response pipe →
      Answered responses request (got ++ a) rest response { pipe with toClient := b } := by
    intro rest response h
    refine ⟨?_, h.count, h.last⟩
    rw [← h.bytes, hbytes]
    simp only [List.append_assoc]
  have hnone : ∀ h : Unanswered got pipe, Unanswered (got ++ a) { pipe with toClient := b } := by
    intro h
    obtain ⟨rfl, rfl⟩ := hnothing h
    exact ⟨by rw [h.got]; rfl, rfl, h.count⟩
  cases h with
  | asking hserver hbuf hall h => exact .asking hserver hbuf hall (hnone h)
  | loading hserver hbuf hdata hall h => exact .loading hserver hbuf hdata hall (hnone h)
  | handling hserver hrest h => exact .handling hserver hrest (hnone h)
  | answering hserver hmore hrest h => exact .answering hserver hmore hrest (hsome h)
  | answered hserver hrest h => exact .answered hserver hrest (hsome h)
  | lost hserver h => exact .lost hserver (hnone h)
  | broken hserver h => exact .broken hserver (hsome h)

/-- **A response that reads is the answer,** and nothing is left under way. -/
theorem done {buf data : ByteString} {response : Resp}
    (h : Exchange requests responses request [] (buf ++ data) pipe) (hbuf : buf.length = 4)
    (hdata : data.length = lengthOf buf) (hread : responses.decode data = some response) :
    Idle pipe ∧ pipe.answers.getLast? = some (request, response) := by
  have hnot : ¬ Unanswered (buf ++ data) pipe := by
    intro h
    have hlen := congrArg List.length h.got
    rw [List.length_append, List.length_nil] at hlen
    omega
  have hwhole : ∀ {rest response'},
      Answered responses request (buf ++ data) rest response' pipe →
        response = response' ∧ pipe.toClient = [] ∧ rest = [] := by
    intro rest response' h
    have hbytes := h.bytes
    rw [List.append_assoc] at hbytes
    obtain ⟨hsame, hrest⟩ := responses.whole hbuf hdata hread hbytes
    exact ⟨hsame, List.append_eq_nil_iff.1 hrest⟩
  cases h with
  | asking _ _ _ h => exact absurd h hnot
  | loading _ _ _ _ h => exact absurd h hnot
  | handling _ _ h => exact absurd h hnot
  | lost _ h => exact absurd h hnot
  | answering _ hmore _ h => exact absurd (hwhole h).2.2 hmore
  | answered hserver hrest h =>
      obtain ⟨rfl, hempty, -⟩ := hwhole h
      exact ⟨⟨hempty, h.count, .inr ⟨hserver, (List.append_eq_nil_iff.1 hrest).1⟩⟩, h.last⟩
  | broken hserver h =>
      obtain ⟨rfl, hempty, -⟩ := hwhole h
      exact ⟨⟨hempty, h.count, .inl hserver⟩, h.last⟩

end Exchange

/-! ## The service on a pipe -/

/-- What a step of the service does to a pipe: it answers, and both ends stay in step. -/
structure ServerStep (requests : Coding Req) (responses : Coding Resp)
    (pipe pipe' : Pipe Req Resp) : Prop where
  asked : pipe'.asked = pipe.asked
  answers : pipe.answers <+: pipe'.answers
  idle : Idle pipe → Idle pipe'
  exchange : ∀ request unsent got, Exchange requests responses request unsent got pipe →
    Exchange requests responses request unsent got pipe'

variable {pipe pipe' : Pipe Req Resp} {count : ℕ}

theorem serverStep_of_close (h : pipe.serverClose = some pipe') :
    ServerStep requests responses pipe pipe' := by
  obtain rfl := Option.some.inj h
  refine ⟨rfl, List.prefix_refl _, fun hidle => ⟨hidle.toClient, hidle.answered, .inl rfl⟩, ?_⟩
  intro request unsent got hex
  cases hex with
  | asking _ _ _ h => exact .lost rfl ⟨h.got, h.toClient, h.count⟩
  | loading _ _ _ _ h => exact .lost rfl ⟨h.got, h.toClient, h.count⟩
  | handling _ _ h => exact .lost rfl ⟨h.got, h.toClient, h.count⟩
  | lost _ h => exact .lost rfl ⟨h.got, h.toClient, h.count⟩
  | answering _ _ _ h => exact .broken rfl ⟨h.bytes, h.count, h.last⟩
  | answered _ _ h => exact .broken rfl ⟨h.bytes, h.count, h.last⟩
  | broken _ h => exact .broken rfl ⟨h.bytes, h.count, h.last⟩

theorem serverStep_of_handle {response : Resp}
    (h : pipe.serverHandle responses response = some pipe') :
    ServerStep requests responses pipe pipe' := by
  unfold Pipe.serverHandle at h
  split at h
  swap
  · nomatch h
  rename_i request hhandling
  obtain rfl := Option.some.inj h
  refine ⟨rfl, List.prefix_append _ _, fun hidle => ?_, fun request' unsent got hex => ?_⟩
  · rcases hidle.server with hserver | ⟨hserver, -⟩ <;> nomatch hserver.symm.trans hhandling
  · cases hex with
    | handling hserver hrest hnone =>
        obtain rfl := ServerPhase.handling.inj (hserver.symm.trans hhandling)
        refine .answering rfl (Lib.frame_ne_nil _) hrest ⟨?_, ?_, List.getLast?_concat⟩
        · rw [hnone.got, hnone.toClient]
          rfl
        · rw [List.length_append, ← hnone.count]
          rfl
    | asking hserver => nomatch hserver.symm.trans hhandling
    | loading hserver => nomatch hserver.symm.trans hhandling
    | answering hserver => nomatch hserver.symm.trans hhandling
    | answered hserver => nomatch hserver.symm.trans hhandling
    | lost hserver => nomatch hserver.symm.trans hhandling
    | broken hserver => nomatch hserver.symm.trans hhandling

theorem serverStep_of_write (h : pipe.serverWrite count = some pipe') :
    ServerStep requests responses pipe pipe' := by
  unfold Pipe.serverWrite at h
  split at h
  swap
  · nomatch h
  rename_i rest hwriting
  by_cases hcount : 0 < count ∧ count ≤ rest.length
  swap
  · rw [if_neg hcount] at h
    nomatch h
  rw [if_pos hcount] at h
  obtain rfl := Option.some.inj h
  refine ⟨rfl, List.prefix_refl _, fun hidle => ?_, fun request unsent got hex => ?_⟩
  · rcases hidle.server with hserver | ⟨hserver, -⟩ <;> nomatch hserver.symm.trans hwriting
  · cases hex with
    | answering hserver hmore hrest hsome =>
        obtain rfl := ServerPhase.writing.inj (hwriting.symm.trans hserver)
        have hbytes := hsome.bytes
        rw [← List.take_append_drop count rest] at hbytes
        by_cases hall : count = rest.length
        · refine .answered (if_pos hall) hrest ⟨?_, hsome.count, hsome.last⟩
          rw [hall, List.drop_length, List.append_nil] at hbytes
          rw [← hbytes, hall]
          simp only [List.append_assoc, List.append_nil]
        · refine .answering (if_neg hall) ?_ hrest ⟨?_, hsome.count, hsome.last⟩
          · rw [ne_eq, List.drop_eq_nil_iff]
            omega
          · rw [← hbytes]
            simp only [List.append_assoc]
    | asking hserver => nomatch hserver.symm.trans hwriting
    | loading hserver => nomatch hserver.symm.trans hwriting
    | handling hserver => nomatch hserver.symm.trans hwriting
    | answered hserver => nomatch hserver.symm.trans hwriting
    | lost hserver => nomatch hserver.symm.trans hwriting
    | broken hserver => nomatch hserver.symm.trans hwriting

/-- The service has read some bytes of the length. -/
theorem Exchange.afterLength {request : Req} {unsent got buf a b : ByteString}
    (hbuf : (buf ++ a).length ≤ 4) (hbytes : pipe.toServer = a ++ b)
    (hall : buf ++ pipe.toServer ++ unsent = frame (requests.encode request))
    (h : Unanswered got pipe) :
    Exchange requests responses request unsent got
      { pipe with toServer := b, server := Pipe.afterLength (buf ++ a) } := by
  have hrest : (buf ++ a) ++ b ++ unsent = frame (requests.encode request) := by
    rw [← hall, hbytes]
    simp only [List.append_assoc]
  by_cases hshort : (buf ++ a).length < 4
  · exact .asking (if_pos hshort) hshort hrest ⟨h.got, h.toClient, h.count⟩
  · by_cases hlen : lengthOf (buf ++ a) = 0 ∨ 10000000 < lengthOf (buf ++ a)
    · exact .lost ((if_neg hshort).trans (if_pos hlen)) ⟨h.got, h.toClient, h.count⟩
    · refine .loading ((if_neg hshort).trans (if_neg hlen)) (by omega) ?_ ?_
        ⟨h.got, h.toClient, h.count⟩
      · rw [List.length_nil]
        omega
      · rw [List.append_nil, ← List.append_assoc]
        exact hrest

/-- The service has read some bytes of the data. -/
theorem Exchange.afterData {request : Req} {unsent got buf data a b : ByteString}
    (hbuf : buf.length = 4) (hdata : (data ++ a).length ≤ lengthOf buf)
    (hbytes : pipe.toServer = a ++ b)
    (hall : buf ++ data ++ (pipe.toServer ++ unsent) = frame (requests.encode request))
    (h : Unanswered got pipe) :
    Exchange requests responses request unsent got
      { pipe with
        toServer := b, server := Pipe.afterData requests (lengthOf buf) (data ++ a) } := by
  have hrest : buf ++ (data ++ a) ++ (b ++ unsent) = frame (requests.encode request) := by
    rw [← hall, hbytes]
    simp only [List.append_assoc]
  by_cases hshort : (data ++ a).length < lengthOf buf
  · exact .loading (if_pos hshort) hbuf hshort hrest ⟨h.got, h.toClient, h.count⟩
  · cases hread : requests.decode (data ++ a) with
    | none =>
        refine .lost ((if_neg hshort).trans ?_) ⟨h.got, h.toClient, h.count⟩
        rw [hread]
    | some request' =>
        obtain ⟨rfl, hnone⟩ := requests.whole hbuf (by omega) hread hrest
        refine .handling ((if_neg hshort).trans ?_) hnone ⟨h.got, h.toClient, h.count⟩
        rw [hread]

theorem serverStep_of_read (h : pipe.serverRead requests count = some pipe') :
    ServerStep requests responses pipe pipe' := by
  have hsplit : pipe.toServer = pipe.toServer.take count ++ pipe.toServer.drop count :=
    (List.take_append_drop ..).symm
  unfold Pipe.serverRead at h
  simp only at h
  split at h
  · rename_i buf hreading
    split_ifs at h with hcount
    obtain ⟨hpos, hle, hfour⟩ := hcount
    have hlength : (buf ++ pipe.toServer.take count).length ≤ 4 := by
      rw [List.length_append, List.length_take]
      omega
    obtain rfl := Option.some.inj h
    refine ⟨rfl, List.prefix_refl _, fun hidle => ?_, fun request unsent got hex => ?_⟩
    · rcases hidle.server with hserver | ⟨-, hempty⟩
      · nomatch hserver.symm.trans hreading
      · rw [hempty, List.length_nil] at hle
        omega
    · cases hex with
      | asking hserver hbuf hall hnone =>
          obtain rfl := ServerPhase.readingLength.inj (hserver.symm.trans hreading)
          exact .afterLength hlength hsplit hall hnone
      | answered hserver hrest hsome =>
          rw [(List.append_eq_nil_iff.1 hrest).1, List.length_nil] at hle
          omega
      | loading hserver => nomatch hserver.symm.trans hreading
      | handling hserver => nomatch hserver.symm.trans hreading
      | answering hserver => nomatch hserver.symm.trans hreading
      | lost hserver => nomatch hserver.symm.trans hreading
      | broken hserver => nomatch hserver.symm.trans hreading
  · rename_i len data hreading
    split_ifs at h with hcount
    obtain ⟨hpos, hle, hlen⟩ := hcount
    have hlength : (data ++ pipe.toServer.take count).length ≤ len := by
      rw [List.length_append, List.length_take]
      omega
    obtain rfl := Option.some.inj h
    refine ⟨rfl, List.prefix_refl _, fun hidle => ?_, fun request unsent got hex => ?_⟩
    · rcases hidle.server with hserver | ⟨hserver, -⟩ <;> nomatch hserver.symm.trans hreading
    · cases hex with
      | loading hserver hbuf hdata hall hnone =>
          obtain ⟨rfl, rfl⟩ := ServerPhase.readingData.inj (hserver.symm.trans hreading)
          exact .afterData hbuf hlength hsplit hall hnone
      | asking hserver => nomatch hserver.symm.trans hreading
      | answered hserver => nomatch hserver.symm.trans hreading
      | handling hserver => nomatch hserver.symm.trans hreading
      | answering hserver => nomatch hserver.symm.trans hreading
      | lost hserver => nomatch hserver.symm.trans hreading
      | broken hserver => nomatch hserver.symm.trans hreading
  · nomatch h

end Ipc
end Ceasefire
