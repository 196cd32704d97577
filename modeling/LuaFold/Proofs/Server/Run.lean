import LuaFold.Proofs.Server.Discipline
import LuaFold.Proofs.Server.Traffic

/-!
# Runs of a host

Messages come in while workers are busy, and what they found is applied when the loop of the host
gets to it.  A run interleaves the three in any order, with as many workers as there are.  It is
prompt when everything submitted has been run and applied before a request is served.

The program is one of these hosts: it has one worker, and lets it run everything before it takes
in the next message.
-/

namespace LuaFold

namespace Reparser

variable {Document : Type}

theorem finish_finish
    (reparser : Reparser Document) :
    reparser.finish.finish = reparser.finish := by
  rcases running : reparser.running? with _ | cycle
  · simp only [finish, running]
  · simp only [finish, running]

/-- Before a worker goes on it finishes what it is running. -/
theorem runMany_finish
    (reparser : Reparser Document)
    (count : Nat) :
    reparser.finish.runMany count = reparser.runMany count := by
  cases count with
  | zero => exact finish_finish reparser
  | succ count => rw [runMany, runMany, finish_finish]

end Reparser

namespace Server

namespace Host

variable {Document : Type}

/-! ## Prompt runs -/

/-- What is on its way in a host. -/
def traffic (host : Host Document) : Traffic :=
  ⟨host.reparser.queue, host.pool.running, host.reparser.received⟩

/-- Everything submitted has been run, and what came of it has been applied. -/
def Settled (host : Host Document) : Prop :=
  host.traffic = .none

/-- Everything submitted has been run and applied whenever a request is served. -/
def Prompt
    (decoder : Decoder)
    (sink : Sink Document)
    (host : Host Document) :
    List Move → Prop
  | [] => True
  | move :: moves =>
    (move.message?.any Message.isRequest = true → host.Settled) ∧
      Prompt decoder sink (host.perform decoder sink move).1 moves

/-- No more than some number of workers are ever busy. -/
def Within
    (workers : Nat)
    (decoder : Decoder)
    (sink : Sink Document)
    (host : Host Document) :
    List Move → Prop
  | [] => host.pool.running.length ≤ workers
  | move :: moves =>
    host.pool.running.length ≤ workers ∧
      Within workers decoder sink (host.perform decoder sink move).1 moves

/-- Moves that bring in some messages, in which no cycle fails and every request is served when
everything submitted has been run and applied. -/
structure Serves
    (decoder : Decoder)
    (sink : Sink Document)
    (host : Host Document)
    (received : List Message)
    (moves : List Move) :
    Prop where
  received : messages moves = received
  sound : ∀ sequence, .pickUp sequence true ∉ moves
  prompt : host.Prompt decoder sink moves

section Append

variable {workers : Nat} {decoder : Decoder} {sink : Sink Document} {host : Host Document}
  {moves more : List Move}

theorem prompt_append :
    host.Prompt decoder sink (moves ++ more) ↔
      host.Prompt decoder sink moves ∧
        (host.reach decoder sink moves).Prompt decoder sink more := by
  induction moves generalizing host with
  | nil => simp [Prompt]
  | cons move moves ih =>
      rw [List.cons_append, Prompt, Prompt, ih, and_assoc]
      rfl

theorem Within.append
    (front : host.Within workers decoder sink moves)
    (back : (host.reach decoder sink moves).Within workers decoder sink more) :
    host.Within workers decoder sink (moves ++ more) := by
  induction moves generalizing host with
  | nil => exact back
  | cons move moves ih => exact ⟨front.1, ih front.2 back⟩

theorem Within.mono
    {some : Nat}
    (within : host.Within some decoder sink moves)
    (more : some ≤ workers) :
    host.Within workers decoder sink moves := by
  induction moves generalizing host with
  | nil => exact Nat.le_trans within more
  | cons move moves ih => exact ⟨Nat.le_trans within.1 more, ih within.2⟩

theorem responses_append :
    host.responses decoder sink (moves ++ more) =
      host.responses decoder sink moves ++
        (host.reach decoder sink moves).responses decoder sink more := by
  induction moves generalizing host with
  | nil => rfl
  | cons move moves ih =>
      rw [List.cons_append, responses, responses, ih, List.append_assoc]
      rfl

/-- The workers and the loop may do what they like while no message comes in. -/
theorem prompt_of_silent
    (silent : messages moves = []) :
    host.Prompt decoder sink moves := by
  induction moves generalizing host with
  | nil => trivial
  | cons move moves ih =>
      cases move with
      | receive message => cases silent
      | pickUp _ _ | finish _ | apply => exact ⟨by simp [Move.message?], ih silent⟩

theorem responses_of_silent
    (silent : messages moves = []) :
    host.responses decoder sink moves = [] := by
  induction moves generalizing host with
  | nil => rfl
  | cons move moves ih =>
      cases move with
      | receive message => cases silent
      | pickUp _ _ | finish _ | apply => exact ih silent

end Append

/-! ## One worker that runs everything -/

/-- No worker is busy, in the pool or in the reparser. -/
structure AtRest (host : Host Document) : Prop where
  serving : host.phase = .serving
  free : host.pool.running = []
  idle : host.reparser.running? = none
  apart : (host.reparser.queue.map Submission.sequence).Nodup

/-- A worker runs queued submissions one after the other. -/
def cycles (queue : List (Submission String)) : List Move :=
  queue.flatMap fun submission =>
    [.pickUp submission.sequence false, .finish submission.sequence]

/-- A worker runs everything that is queued, and what came of it is applied. -/
def settling (host : Host Document) : List Move :=
  cycles host.reparser.queue ++ [.apply]

theorem messages_cycles
    (queue : List (Submission String)) :
    messages (cycles queue) = [] := by
  induction queue with
  | nil => rfl
  | cons submission queue ih => exact ih

theorem messages_settling
    (host : Host Document) :
    messages host.settling = [] := by
  rw [settling, messages_append, messages_cycles]
  rfl

theorem sound_settling
    (host : Host Document)
    (sequence : Nat) :
    .pickUp sequence true ∉ host.settling := by
  simp [settling, cycles]

section Cycles

variable {decoder : Decoder} {sink : Sink Document} {host : Host Document}

/-- Running the front of the queue leaves a host at rest with the rest of the queue. -/
theorem AtRest.cycle
    (rest : host.AtRest)
    {submission : Submission String}
    {queue : List (Submission String)}
    (queued : host.reparser.queue = submission :: queue) :
    ∃ other : Host Document,
      host.reach decoder sink
          [.pickUp submission.sequence false, .finish submission.sequence] = other ∧
        other.AtRest ∧
        other.documents = host.documents ∧
        other.reparser = (host.reparser.pickUp false).finish ∧
        other.reparser.queue = queue := by
  have numbers := rest.apart
  rw [queued, List.map_cons, List.nodup_cons] at numbers
  have single : ∀ other ∈ queue, other.sequence ≠ submission.sequence := by
    intro other member same
    exact numbers.1 (List.mem_map.mpr ⟨other, member, same⟩)
  obtain ⟨state, running⟩ :=
    host.pool.cycle_front rest.free rest.idle queued single false
  have reparser := congrArg Reparser.Applied.reparser state
  have views := congrArg Reparser.Applied.views state
  have left : ((host.reparser.pickUp false).finish).queue = queue := by
    rw [Reparser.queue_finish, Reparser.pickUp, rest.idle, queued]
    dsimp only
    split
    · rfl
    · rfl
  refine ⟨_, rfl, ⟨rest.serving, running, ?_, ?_⟩, views, reparser, ?_⟩
  · exact (congrArg Reparser.running? reparser).trans (Reparser.running?_finish _)
  · have queues := congrArg Reparser.queue reparser
    exact (queues.trans left) ▸ numbers.2
  · exact (congrArg Reparser.queue reparser).trans left

/-- Running everything is what the worker of the reparser does. -/
theorem AtRest.reach_cycles
    (rest : host.AtRest)
    {queue : List (Submission String)}
    (queued : host.reparser.queue = queue) :
    ∃ other : Host Document,
      host.reach decoder sink (cycles queue) = other ∧
        other.AtRest ∧
        other.documents = host.documents ∧
        other.reparser = host.reparser.runMany queue.length ∧
        other.reparser.queue = [] ∧
        host.Within 1 decoder sink (cycles queue) := by
  induction queue generalizing host with
  | nil =>
      refine ⟨host, rfl, rest, rfl, ?_, queued, ?_⟩
      · rw [List.length_nil, Reparser.runMany, Reparser.finish, rest.idle]
      · rw [cycles, List.flatMap_nil, Within, rest.free]
        exact Nat.zero_le 1
  | cons submission queue ih =>
      obtain ⟨next, reached, restNext, same, reparser, left⟩ :=
        @AtRest.cycle _ decoder sink host rest submission queue queued
      obtain ⟨other, reachedAll, restAll, sameAll, reparserAll, empty, within⟩ :=
        ih restNext left
      have split : cycles (submission :: queue) =
          [.pickUp submission.sequence false, .finish submission.sequence] ++ cycles queue :=
        rfl
      refine ⟨other, ?_, restAll, sameAll.trans same, ?_, empty, ?_⟩
      · rw [split, reach_append, reached, reachedAll]
      · have idle : host.reparser.finish = host.reparser := by
          rw [Reparser.finish, rest.idle]
        rw [reparserAll, reparser, Reparser.runMany_finish, List.length_cons, Reparser.runMany,
          idle]
      · rw [split]
        refine Within.append ⟨?_, ?_, ?_⟩ (reached ▸ within)
        · rw [rest.free]
          exact Nat.zero_le 1
        · have started : (host.pool.pickUp submission.sequence false).running.length ≤ 1 := by
            rcases pickUp_cases host.pool submission.sequence false with same | ⟨_, _, same⟩
            · rw [same, rest.free]
              exact Nat.zero_le 1
            · rw [same, Reparser.Pool.start, rest.free, List.nil_append]
              split
              · exact Nat.zero_le 1
              · exact Nat.le_refl 1
          exact started
        · have ended : (host.reach decoder sink [.pickUp submission.sequence false,
              .finish submission.sequence]).pool.running.length ≤ 1 := by
            rw [reached, restNext.free]
            exact Nat.zero_le 1
          exact ended

/-- What is applied at rest leaves nothing on its way. -/
theorem AtRest.apply
    (rest : host.AtRest)
    (empty : host.reparser.queue = []) :
    (host.apply sink).AtRest ∧ (host.apply sink).Settled := by
  obtain ⟨documents, reparser⟩ :=
    Reparser.Applied.reparser_applyEach sink.refresh host.emptied host.pending
  have applied : (host.apply sink).reparser =
      { host.emptied.reparser with documents := documents } := by
    rw [← reparser, Host.apply, rest.serving]
    rfl
  have running : (host.apply sink).pool.running = [] := by
    rw [Host.apply, rest.serving]
    exact rest.free
  have queue : (host.apply sink).reparser.queue = [] := by
    rw [applied]
    exact empty
  refine ⟨⟨?_, running, ?_, ?_⟩, ?_⟩
  · rw [Host.apply, rest.serving]
  · rw [applied]
    exact rest.idle
  · rw [queue]
    exact List.nodup_nil
  · rw [Settled, traffic, running, queue, applied]
    rfl

/-- A host at rest can settle, with one worker. -/
theorem AtRest.settle
    (rest : host.AtRest) :
    ∃ other : Host Document,
      host.reach decoder sink host.settling = other ∧
        other.AtRest ∧
        other.Settled ∧
        host.Within 1 decoder sink host.settling := by
  obtain ⟨other, reached, restOther, _, _, empty, within⟩ :=
    @AtRest.reach_cycles _ decoder sink host rest _ rfl
  obtain ⟨restApplied, settled⟩ := @AtRest.apply _ sink other restOther empty
  refine ⟨other.apply sink, ?_, restApplied, settled, within.append ⟨?_, ?_⟩⟩
  · rw [settling, reach_append, reached]
    rfl
  · rw [reached, restOther.free]
    exact Nat.zero_le 1
  · rw [reached]
    have free : (other.apply sink).pool.running.length ≤ 1 := by
      rw [restApplied.free]
      exact Nat.zero_le 1
    exact free

/-- With plain documents a host settles as the program does. -/
theorem AtRest.settle_server
    {host : Host OpenDocument}
    (rest : host.AtRest) :
    (host.reach decoder .plain host.settling).server = host.server.settle := by
  obtain ⟨other, reached, restOther, documents, reparser, _, _⟩ :=
    @AtRest.reach_cycles _ decoder .plain host rest _ rfl
  have state : other.server.state =
      ⟨host.server.state.reparser.runAll, host.server.state.views⟩ := by
    have views : other.pool.state.views = host.pool.state.views := documents
    have cycled : other.pool.state.reparser = host.pool.state.reparser.runAll := reparser
    rw [Host.server, Host.server, ← cycled, ← views]
  have serving : host.server.phase = .serving := rest.serving
  rw [settling, reach_append, reached, Server.settle, ← state, serving]
  exact apply_server other restOther.serving

end Cycles

/-! ## The program -/

section Program

variable {decoder : Decoder} {sink : Sink Document} {host : Host Document}

/-- A message that a host at rest takes in leaves it at rest. -/
theorem AtRest.receive
    (rest : host.AtRest)
    (empty : host.reparser.queue = [])
    {message : Message}
    (stays : message.isShutdown = false) :
    (host.receive decoder sink message).host.AtRest := by
  have serving := @phase_receive _ decoder sink host message rest.serving stays
  rcases @receive_cases _ decoder sink host message with ⟨edit, _, same⟩ | ⟨_, same⟩
  · rw [same] at serving ⊢
    cases edit with
    | opening uri text =>
        refine ⟨serving, rest.free, rest.idle, ?_⟩
        simp [Host.edit, didOpen, withState, reparser, Reparser.Pool.amid, Reparser.schedule,
          show host.pool.state.reparser.queue = [] from empty]
    | change uri changes =>
        simp only [Host.edit, didChange] at serving ⊢
        split
        · split
          · refine ⟨rest.serving, rest.free, rest.idle, ?_⟩
            simp [withState, reparser, Reparser.Pool.amid, Reparser.schedule,
              show host.pool.state.reparser.queue = [] from empty]
          · exact rest
        · exact rest
    | closing uri => exact ⟨serving, rest.free, rest.idle, rest.apart⟩
  · refine ⟨serving, ?_, ?_, ?_⟩
    · rw [same]
      exact rest.free
    · rw [reparser, same]
      exact rest.idle
    · rw [reparser, same]
      exact rest.apart

/-- The moves of a host that runs and applies everything before it takes in a message. -/
def oneByOne
    (decoder : Decoder)
    (sink : Sink Document)
    (host : Host Document) :
    List Message → List Move
  | [] => []
  | message :: messages =>
    host.settling ++ .receive message ::
      oneByOne decoder sink
        ((host.reach decoder sink host.settling).receive decoder sink message).host messages

/-- Such a run serves its messages, and one worker is enough for it. -/
theorem AtRest.serves_oneByOne
    (rest : host.AtRest)
    {received : List Message}
    (stays : ∀ message ∈ received, message.isShutdown = false) :
    host.Serves decoder sink received (host.oneByOne decoder sink received) ∧
      host.Within 1 decoder sink (host.oneByOne decoder sink received) := by
  induction received generalizing host with
  | nil =>
      refine ⟨⟨rfl, fun _ => List.not_mem_nil, trivial⟩, ?_⟩
      rw [oneByOne, Within, rest.free]
      exact Nat.zero_le 1
  | cons message received ih =>
      obtain ⟨other, reached, restOther, settled, within⟩ := @rest.settle _ decoder sink
      have empty : other.reparser.queue = [] := congrArg Traffic.queue settled
      have restAfter := @AtRest.receive _ decoder sink other restOther empty message
        (stays message List.mem_cons_self)
      obtain ⟨serves, withinAfter⟩ := ih restAfter fun later member =>
        stays later (List.mem_cons_of_mem _ member)
      rw [oneByOne, reached]
      refine ⟨⟨?_, ?_, ?_⟩, within.append ⟨?_, ?_⟩⟩
      · rw [messages_append, messages_settling, messages_cons, serves.received]
        rfl
      · intro sequence member
        rcases List.mem_append.mp member with early | late
        · exact sound_settling host sequence early
        · rcases List.mem_cons.mp late with first | later
          · cases first
          · exact serves.sound sequence later
      · rw [prompt_append, reached]
        exact ⟨prompt_of_silent (messages_settling host), fun _ => settled, serves.prompt⟩
      · rw [reached, restOther.free]
        exact Nat.zero_le 1
      · rw [reached]
        exact withinAfter

end Program

end Host

/-- The responses of the program, which runs and applies everything before it takes in a message. -/
def converse
    (decoder : Decoder)
    (server : Server) :
    List Message → List Response
  | [] => []
  | message :: messages =>
    (server.settle.receiveWith decoder message).2.toList ++
      (server.settle.receiveWith decoder message).1.converse decoder messages

/-- The program responds as a host does that has one worker and runs everything in between. -/
theorem Host.AtRest.responses_oneByOne
    {decoder : Decoder}
    {host : Host OpenDocument}
    (rest : host.AtRest)
    {received : List Message}
    (stays : ∀ message ∈ received, message.isShutdown = false) :
    host.responses decoder .plain (host.oneByOne decoder .plain received) =
      host.server.converse decoder received := by
  induction received generalizing host with
  | nil => rfl
  | cons message received ih =>
      obtain ⟨other, reached, restOther, settled, _⟩ := @rest.settle _ decoder .plain
      have empty : other.reparser.queue = [] := congrArg Traffic.queue settled
      have restAfter := @AtRest.receive _ decoder .plain other restOther empty message
        (stays message List.mem_cons_self)
      have later := ih restAfter fun later member => stays later (List.mem_cons_of_mem _ member)
      have settles := @rest.settle_server decoder
      rw [reached] at settles
      obtain ⟨state, responded⟩ := receive_server decoder other message
      rw [Host.oneByOne, reached, Host.responses_append,
        Host.responses_of_silent (messages_settling host), List.nil_append, reached,
        Host.responses, converse, ← settles, ← state, ← responded]
      exact congrArg _ later

end Server

end LuaFold
