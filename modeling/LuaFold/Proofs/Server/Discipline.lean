import LuaFold.Proofs.Server.Dispatcher

/-!
# Requests and responses

Until it is asked to shut down, a host sends one response to each request, in the order of the
requests, and nothing else.  What it makes of a message does not depend on what the workers are
doing, only on what was applied.

A message that asks for nothing the host can do is inert: the host is the same before and after
it, down to the queue and the number of the last submission.
-/

namespace LuaFold.Server

/-- The request that a message is, if it is one. -/
def Message.request? : Message → Option Request
  | .request id method params => some ⟨id, method, params⟩
  | .notification _ _ => none
  | .response => none

/-- The requests among messages, in order. -/
def requests (messages : List Message) : List Request :=
  messages.filterMap Message.request?

/-- The response to a request, where it is the same whatever documents are open. -/
structure Answers
    (decoder : Decoder)
    (request : Request)
    (response : Response) :
    Prop where
  id : response.id = request.id
  unknown : Question.ofMethod? request.method = none →
    ∃ refusal, response.outcome = .error refusal ∧ refusal.code = -32601
  undecoded : ∀ question reason, Question.ofMethod? request.method = some question →
    decoder.query question request.params = .error reason →
      ∃ refusal, response.outcome = .error refusal ∧ refusal.code = -32602

/-- Messages that ask for nothing a server can do, given the documents that are open. -/
inductive Inert
    (decoder : Decoder)
    (isOpen : String → Bool) :
    Message → Prop where
  | unknownRequest
      {id : Json}
      {method : String}
      {params : Json}
      (unknown : Question.ofMethod? method = none) :
      Inert decoder isOpen (.request id method params)
  | undecodedRequest
      {id : Json}
      {method : String}
      {params : Json}
      {question : Question}
      {reason : String}
      (known : Question.ofMethod? method = some question)
      (undecoded : decoder.query question params = .error reason) :
      Inert decoder isOpen (.request id method params)
  | unknownNotification
      {method : String}
      {params : Json}
      (unknown : method ∉
        ["textDocument/didOpen", "textDocument/didChange", "textDocument/didClose"]) :
      Inert decoder isOpen (.notification method params)
  | undecodedOpen
      {params : Json}
      {reason : String}
      (undecoded : decoder.opened params = .error reason) :
      Inert decoder isOpen (.notification "textDocument/didOpen" params)
  | undecodedChange
      {params : Json}
      {reason : String}
      (undecoded : decoder.changed params = .error reason) :
      Inert decoder isOpen (.notification "textDocument/didChange" params)
  | undecodedClose
      {params : Json}
      {reason : String}
      (undecoded : decoder.closed params = .error reason) :
      Inert decoder isOpen (.notification "textDocument/didClose" params)
  | changeNotOpen
      {params : Json}
      {changed : ChangedText}
      (decoded : decoder.changed params = .ok changed)
      (absent : isOpen changed.uri = false) :
      Inert decoder isOpen (.notification "textDocument/didChange" params)
  | changeWithoutContent
      {params : Json}
      {changed : ChangedText}
      (decoded : decoder.changed params = .ok changed)
      (empty : changed.changes = []) :
      Inert decoder isOpen (.notification "textDocument/didChange" params)

namespace Host

variable {Document : Type} {decoder : Decoder} {sink : Sink Document} {host : Host Document}
  {message : Message}

/-- An inert notification asks for no change, or for one that a host does not make. -/
theorem edit_of_inert
    {method : String}
    {params : Json}
    (inert : Inert decoder host.documents.contains (.notification method params)) :
    ((Edit.ofNotification? decoder method params).map (host.edit sink)).getD host = host := by
  cases inert with
  | unknownNotification unknown =>
      simp only [List.mem_cons, List.not_mem_nil, or_false, not_or] at unknown
      simp [Edit.ofNotification?, unknown]
  | undecodedOpen undecoded | undecodedChange undecoded | undecodedClose undecoded =>
      simp [Edit.ofNotification?, undecoded, Except.toOption]
  | changeNotOpen decoded absent =>
      simp [Edit.ofNotification?, decoded, Except.toOption, Host.edit, didChange, absent]
  | changeWithoutContent decoded empty =>
      simp only [Edit.ofNotification?, decoded, Except.toOption, Option.map_some,
        Option.getD_some, Host.edit, didChange, empty, List.getLast?_nil]
      split
      · rfl
      · rfl

/-- A host is the same behind an inert message. -/
theorem host_of_inert
    (serving : host.phase = .serving)
    (stays : message.isShutdown = false)
    (inert : Inert decoder host.documents.contains message) :
    (host.receive decoder sink message).host = host := by
  rw [receive_eq serving stays]
  cases message with
  | request id method params => rw [Handlers.message, request_eq]
  | notification method params =>
      rw [Handlers.message, host_notification, edit_of_inert inert]
  | response => rfl

/-- A request gets one response. -/
theorem answers_request (request : Request) :
    ∃ response, ((handlers sink).request decoder host request).responses = [response] ∧
      Answers decoder request response := by
  obtain ⟨response, single, id⟩ : ∃ response,
      ((handlers sink).request decoder host request).responses = [response] ∧
        response.id = request.id := by
    simpa using @Handlers.map_id_request _ decoder (handlers sink) host request
  refine ⟨response, single, id, ?_, ?_⟩
  · intro unknown
    rw [Handlers.request_unknown unknown] at single
    cases single
    exact ⟨_, rfl, rfl⟩
  · intro question reason known undecoded
    rw [Handlers.request_undecoded (Question.ofMethod?_eq_some.mp known) undecoded] at single
    cases single
    exact ⟨_, rfl, rfl⟩

/-- Every message keeps a host in service, unless it asks the host to shut down. -/
theorem phase_receive
    (serving : host.phase = .serving)
    (stays : message.isShutdown = false) :
    (host.receive decoder sink message).host.phase = .serving := by
  rw [receive_eq serving stays]
  cases message with
  | request id method params => rw [Handlers.message, request_eq, serving]
  | response => exact serving
  | notification method params =>
      rw [Handlers.message, host_notification]
      cases Edit.ofNotification? decoder method params with
      | none => exact serving
      | some edit =>
          cases edit with
          | opening uri text => exact serving
          | closing uri => exact serving
          | change uri changes =>
              simp only [Option.map_some, Option.getD_some, Host.edit, didChange]
              split
              · split
                · exact serving
                · exact serving
              · exact serving

theorem didChange_of_fault
    {changed : ChangedText}
    {fault : NotificationFault}
    (failed : (host.didChange changed).2 = .error fault) :
    (host.didChange changed).1 = host := by
  rw [didChange] at failed ⊢
  split
  · next present =>
    rw [if_pos present] at failed
    split
    · next text last =>
      rw [last] at failed
      cases failed
    · rfl
  · rfl

/-- A handler that fails has changed nothing. -/
theorem faults_notification
    (method : String)
    (params : Json) :
    ((handlers sink).notification decoder host ⟨method, params⟩).faults = [] ∨
      ((handlers sink).notification decoder host ⟨method, params⟩).host = host := by
  by_cases opens : method = "textDocument/didOpen"
  · rw [Handlers.notification_didOpen opens]
    refine NotificationDispatcher.faults_on rfl (fun opened fault failed => ?_) rfl
    cases failed
  by_cases changes : method = "textDocument/didChange"
  · rw [Handlers.notification_didChange changes]
    exact NotificationDispatcher.faults_on rfl (fun changed fault => didChange_of_fault) rfl
  · rw [Handlers.notification_other opens changes]
    refine NotificationDispatcher.faults_on rfl (fun uri fault failed => ?_) rfl
    cases failed

theorem host_of_fault
    (serving : host.phase = .serving)
    (stays : message.isShutdown = false)
    (failed : (host.receive decoder sink message).faults ≠ []) :
    (host.receive decoder sink message).host = host := by
  rw [receive_eq serving stays] at failed ⊢
  cases message with
  | request id method params => rw [Handlers.message, request_eq]
  | notification method params =>
      exact (faults_notification method params).resolve_left failed
  | response => rfl

/-- Only requests are responded to. -/
theorem responses_receive_of_not_request
    (serving : host.phase = .serving)
    (quiet : message.isRequest = false) :
    (host.receive decoder sink message).responses = [] := by
  cases message with
  | request id method params => cases quiet
  | notification method params => rw [receive_eq serving rfl, Handlers.message,
      responses_notification]
  | response => rw [receive_eq serving rfl, Handlers.message, Reaction.none]

/-! ## Runs -/

/-- The responses to what one move brings in answer the request in it, if there is one. -/
theorem answers_perform
    (serving : host.phase = .serving)
    {move : Move}
    (stays : ∀ message ∈ move.message?.toList, message.isShutdown = false) :
    List.Forall₂ (Answers decoder) (requests move.message?.toList)
      (host.perform decoder sink move).2 := by
  cases move with
  | pickUp sequence faulty | finish sequence | apply => exact .nil
  | receive message =>
      rw [perform]
      cases message with
      | notification method params | response =>
          dsimp only
          rw [responses_receive_of_not_request serving rfl]
          exact .nil
      | request id method params =>
          obtain ⟨response, single, answers⟩ :=
            @answers_request _ decoder sink host ⟨id, method, params⟩
          dsimp only
          rw [receive_eq serving (stays _ (List.mem_singleton.mpr rfl)), Handlers.message, single]
          exact .cons answers .nil

theorem phase_perform
    (serving : host.phase = .serving)
    {move : Move}
    (stays : ∀ message ∈ move.message?.toList, message.isShutdown = false) :
    (host.perform decoder sink move).1.phase = .serving := by
  cases move with
  | receive message => exact phase_receive serving (stays message (List.mem_singleton.mpr rfl))
  | pickUp sequence faulty | finish sequence => exact serving
  | apply =>
      simp only [perform, apply]
      rw [serving]

theorem phase_reach
    (serving : host.phase = .serving)
    {moves : List Move}
    (stays : ∀ message ∈ messages moves, message.isShutdown = false) :
    (host.reach decoder sink moves).phase = .serving := by
  induction moves generalizing host with
  | nil => exact serving
  | cons move moves ih =>
      rw [messages_cons, List.forall_mem_append] at stays
      exact ih (phase_perform serving stays.1) stays.2

/-- The responses of a run answer its requests one by one. -/
theorem answers_responses
    (serving : host.phase = .serving)
    {moves : List Move}
    (stays : ∀ message ∈ messages moves, message.isShutdown = false) :
    List.Forall₂ (Answers decoder) (requests (messages moves))
      (host.responses decoder sink moves) := by
  induction moves generalizing host with
  | nil => exact .nil
  | cons move moves ih =>
      rw [messages_cons, List.forall_mem_append] at stays
      rw [messages_cons, requests, List.filterMap_append, Host.responses]
      exact List.rel_append (answers_perform serving stays.1)
        (ih (phase_perform serving stays.1) stays.2)

end Host

/--
Until it is asked to shut down, a host sends one response to each request, in the order of the
requests and with their identifiers, and none to anything else; unknown methods and parameters
that do not decode are refused by their codes.  An inert message, and one whose handler fails,
leaves the host as it was.  All this holds of whatever decoder the host is given.  With plain
documents, a host takes in messages as the server does.
-/
theorem message_discipline
    {Document : Type}
    (decoder : Decoder)
    (sink : Sink Document)
    (coalesce : Bool)
    {moves : List Host.Move}
    (stays : ∀ message ∈ Host.messages moves, message.isShutdown = false) :
    List.Forall₂ (Answers decoder) (requests (Host.messages moves))
        ((Host.new coalesce).responses decoder sink moves) ∧
      (∀ before message after, moves = before ++ .receive message :: after →
        ∀ host, host = (Host.new coalesce).reach decoder sink before →
          (message.isRequest = false → (host.receive decoder sink message).responses = []) ∧
          (Inert decoder host.documents.contains message →
            (host.receive decoder sink message).host = host) ∧
          ((host.receive decoder sink message).faults ≠ [] →
            (host.receive decoder sink message).host = host)) ∧
      ∀ (host : Host OpenDocument) message,
        (host.receive decoder .plain message).host.server =
            (host.server.receiveWith decoder message).1 ∧
          (host.receive decoder .plain message).responses =
            (host.server.receiveWith decoder message).2.toList := by
  refine ⟨Host.answers_responses rfl stays, ?_, Host.receive_server decoder⟩
  rintro before message after rfl host rfl
  rw [Host.messages_append, Host.messages_cons, List.forall_mem_append,
    List.forall_mem_append] at stays
  have serving := @Host.phase_reach _ decoder sink (.new coalesce) rfl _ stays.1
  have lasts : message.isShutdown = false := stays.2.1 message (List.mem_singleton.mpr rfl)
  exact ⟨Host.responses_receive_of_not_request serving, Host.host_of_inert serving lasts,
    Host.host_of_fault serving lasts⟩

/-- A request for an unknown method, a stray response, and a request that does not decode. -/
def refusals : List Host.Move :=
  [.receive (.request (.ofNat 1) "textDocument/hover" .null), .pickUp 1 false,
    .receive .response, .receive (.request (.ofNat 2) "textDocument/foldingRange" .null)]

theorem message_discipline_refusals :
    (∀ message ∈ Host.messages refusals, message.isShutdown = false) ∧
      List.Forall₂ (Answers .standard)
        [⟨.ofNat 1, "textDocument/hover", .null⟩, ⟨.ofNat 2, "textDocument/foldingRange", .null⟩]
        ((Host.new true).responses .standard .plain refusals) := by
  have stays : ∀ message ∈ Host.messages refusals, message.isShutdown = false := by decide
  exact ⟨stays, (message_discipline .standard .plain true stays).1⟩

end LuaFold.Server
