import LuaFold.Proofs.Server.Host

/-!
# What dispatchers do

A request is answered once: the responses that a dispatcher has sent and the request that it
still holds account for one request together, and every handler keeps it so.  A handler that is
not for the method of a message, or whose parameters cannot be decoded, has no part in the server.

So of all messages only three kinds of notifications reach a handler that changes a host, and a
host takes in a message as the server does.
-/

namespace LuaFold.Server

variable {Owner Params : Type}

/-! ## Requests -/

namespace RequestDispatcher

variable {dispatcher : RequestDispatcher Owner} {request : Request} {method : String}
  {decode : Json → Except String Params}
  {handle : Owner → Params → Owner × Except RequestFault Json}

/-- The responses sent so far and the request still held are to one request. -/
def Accounts (dispatcher : RequestDispatcher Owner) (id : Json) : Prop :=
  dispatcher.responses.map Response.id ++ dispatcher.request?.toList.map Request.id = [id]

theorem accounts_new
    (request : Request)
    (host : Owner) :
    (new request host).Accounts request.id :=
  rfl

/-- Whatever a handler does, the request it takes gets one response. -/
theorem Accounts.on
    {id : Json}
    (accounts : dispatcher.Accounts id) :
    (dispatcher.on method decode handle).Accounts id := by
  obtain ⟨request?, host, responses⟩ := dispatcher
  cases request? with
  | none => exact accounts
  | some request =>
      have responded : responses.map Response.id ++ [request.id] = [id] := accounts
      rw [RequestDispatcher.on]
      dsimp only
      split
      · split
        · simpa [Accounts] using responded
        · simpa [Accounts] using responded
      · exact accounts

theorem Accounts.finish
    {id : Json}
    (accounts : dispatcher.Accounts id) :
    dispatcher.finish.responses.map Response.id = [id] := by
  obtain ⟨request?, host, responses⟩ := dispatcher
  cases request? with
  | none => simpa [Accounts, RequestDispatcher.finish] using accounts
  | some request => simpa [Accounts, RequestDispatcher.finish] using accounts

theorem on_taken (taken : dispatcher.request? = none) :
    dispatcher.on method decode handle = dispatcher := by
  rw [on, taken]

theorem on_of_ne
    (held : dispatcher.request? = some request)
    (other : request.method ≠ method) :
    dispatcher.on method decode handle = dispatcher := by
  rw [on, held]
  exact if_neg other

theorem on_undecoded
    (held : dispatcher.request? = some request)
    (same : request.method = method)
    {reason : String}
    (undecoded : decode request.params = .error reason) :
    dispatcher.on method decode handle = ⟨none, dispatcher.host, dispatcher.responses ++
      [⟨request.id, .error (.invalidParams method reason request.params)⟩]⟩ := by
  simp only [on, held, if_pos same, undecoded]

theorem on_decoded
    (held : dispatcher.request? = some request)
    (same : request.method = method)
    {params : Params}
    (decoded : decode request.params = .ok params) :
    dispatcher.on method decode handle = ⟨none, (handle dispatcher.host params).1,
      dispatcher.responses ++ [⟨request.id, (handle dispatcher.host params).2⟩]⟩ := by
  simp only [on, held, if_pos same, decoded]

end RequestDispatcher

theorem Question.ofMethod?_eq_some
    {method : String}
    {question : Question} :
    Question.ofMethod? method = some question ↔ method = question.method := by
  constructor
  · intro asks
    unfold Question.ofMethod? at asks
    split at asks
    · cases asks
      rfl
    · cases asks
      rfl
    · cases asks
  · rintro rfl
    cases question <;> rfl

namespace Handlers

variable {decoder : Decoder} {handlers : Handlers Owner} {host : Owner} {request : Request}

/-- The handler for a question. -/
def ofQuestion (handlers : Handlers Owner) :
    Question → Owner → String → Owner × Except RequestFault Json
  | .foldingRanges => handlers.foldingRange
  | .symbols => handlers.documentSymbol

/-- Every request gets one response, with its identifier. -/
theorem map_id_request :
    (handlers.request decoder host request).responses.map Response.id = [request.id] :=
  (RequestDispatcher.accounts_new request host).on.on.finish

theorem request_unknown
    (unknown : Question.ofMethod? request.method = none) :
    handlers.request decoder host request =
      ⟨host, [⟨request.id, .error .unknownMethod⟩], []⟩ := by
  have other (question : Question) : request.method ≠ question.method := by
    intro same
    rw [Question.ofMethod?_eq_some.mpr same] at unknown
    cases unknown
  rw [Handlers.request, RequestDispatcher.on_of_ne rfl (other .foldingRanges),
    RequestDispatcher.on_of_ne rfl (other .symbols)]
  rfl

theorem request_undecoded
    {question : Question}
    (asks : request.method = question.method)
    {reason : String}
    (undecoded : decoder.query question request.params = .error reason) :
    handlers.request decoder host request =
      ⟨host,
        [⟨request.id, .error (.invalidParams request.method reason request.params)⟩], []⟩ := by
  rw [Handlers.request, asks]
  cases question with
  | foldingRanges =>
      rw [RequestDispatcher.on_undecoded rfl asks undecoded, RequestDispatcher.on_taken rfl]
      rfl
  | symbols =>
      have other : request.method ≠ Question.foldingRanges.method := by
        rw [asks]
        decide
      rw [RequestDispatcher.on_of_ne rfl other,
        RequestDispatcher.on_undecoded rfl asks undecoded]
      rfl

theorem request_decoded
    {question : Question}
    (asks : request.method = question.method)
    {uri : String}
    (decoded : decoder.query question request.params = .ok uri) :
    handlers.request decoder host request =
      ⟨(handlers.ofQuestion question host uri).1,
        [⟨request.id, (handlers.ofQuestion question host uri).2⟩], []⟩ := by
  rw [Handlers.request]
  cases question with
  | foldingRanges =>
      rw [RequestDispatcher.on_decoded rfl asks decoded, RequestDispatcher.on_taken rfl]
      rfl
  | symbols =>
      have other : request.method ≠ Question.foldingRanges.method := by
        rw [asks]
        decide
      rw [RequestDispatcher.on_of_ne rfl other, RequestDispatcher.on_decoded rfl asks decoded]
      rfl

end Handlers

/-! ## Notifications -/

namespace NotificationDispatcher

variable {dispatcher : NotificationDispatcher Owner} {notification : Notification}
  {method : String} {decode : Json → Except String Params}
  {handle : Owner → Params → Owner × Except NotificationFault Unit}

theorem on_taken (taken : dispatcher.notification? = none) :
    dispatcher.on method decode handle = dispatcher := by
  rw [on, taken]

theorem on_of_ne
    (held : dispatcher.notification? = some notification)
    (other : notification.method ≠ method) :
    dispatcher.on method decode handle = dispatcher := by
  rw [on, held]
  exact if_neg other

/-- What the handler for a notification makes of a host. -/
def handled
    (decode : Json → Except String Params)
    (handle : Owner → Params → Owner × Except NotificationFault Unit)
    (host : Owner)
    (params : Json) :
    Owner :=
  match decode params with
  | .ok params => (handle host params).1
  | .error _ => host

/-- The handler for a method takes the notification, whether or not it can act on it. -/
theorem on_same
    (held : dispatcher.notification? = some notification)
    (same : notification.method = method) :
    (dispatcher.on method decode handle).notification? = none ∧
      (dispatcher.on method decode handle).host =
        handled decode handle dispatcher.host notification.params := by
  rw [on, held]
  simp only [if_pos same, handled]
  cases decode notification.params with
  | error fault => exact ⟨rfl, rfl⟩
  | ok params =>
      dsimp only
      rcases handle dispatcher.host params with ⟨host, failed | done⟩
      · exact ⟨rfl, rfl⟩
      · exact ⟨rfl, rfl⟩

/-- A handler that leaves the host alone whenever it fails does so behind a dispatcher too. -/
theorem faults_on
    (held : dispatcher.notification? = some notification)
    (atomic : ∀ params fault, (handle dispatcher.host params).2 = .error fault →
      (handle dispatcher.host params).1 = dispatcher.host)
    (quiet : dispatcher.faults = []) :
    (dispatcher.on method decode handle).faults = [] ∨
      (dispatcher.on method decode handle).host = dispatcher.host := by
  rw [on, held]
  dsimp only
  split
  · cases decode notification.params with
    | error fault => exact Or.inr rfl
    | ok params =>
        have kept := atomic params
        dsimp only
        generalize handle dispatcher.host params = handled at kept ⊢
        obtain ⟨host, failed | done⟩ := handled
        · exact Or.inr (kept failed rfl)
        · exact Or.inl quiet
  · exact Or.inl quiet

end NotificationDispatcher

namespace Handlers

open NotificationDispatcher (on_same on_taken on_of_ne)

variable {decoder : Decoder} {handlers : Handlers Owner} {host : Owner} {params : Json}
  {method : String}

/-- A notification comes to one handler at most. -/
theorem notification_didOpen (opens : method = "textDocument/didOpen") :
    handlers.notification decoder host ⟨method, params⟩ =
      ((NotificationDispatcher.new ⟨method, params⟩ host).on "textDocument/didOpen"
        decoder.opened handlers.didOpen).finish := by
  have held : (NotificationDispatcher.new ⟨method, params⟩ host).notification? =
      some ⟨method, params⟩ := rfl
  have taken := (@on_same _ _ _ _ _ decoder.opened handlers.didOpen held opens).1
  rw [Handlers.notification, on_taken taken, on_taken taken]

theorem notification_didChange (changes : method = "textDocument/didChange") :
    handlers.notification decoder host ⟨method, params⟩ =
      ((NotificationDispatcher.new ⟨method, params⟩ host).on "textDocument/didChange"
        decoder.changed handlers.didChange).finish := by
  have held : (NotificationDispatcher.new ⟨method, params⟩ host).notification? =
      some ⟨method, params⟩ := rfl
  have taken := (@on_same _ _ _ _ _ decoder.changed handlers.didChange held changes).1
  have notOpen : method ≠ "textDocument/didOpen" := by
    rw [changes]
    decide
  rw [Handlers.notification, on_of_ne held notOpen, on_taken taken]

theorem notification_other
    (notOpen : method ≠ "textDocument/didOpen")
    (notChange : method ≠ "textDocument/didChange") :
    handlers.notification decoder host ⟨method, params⟩ =
      ((NotificationDispatcher.new ⟨method, params⟩ host).on "textDocument/didClose"
        decoder.closed handlers.didClose).finish := by
  have held : (NotificationDispatcher.new ⟨method, params⟩ host).notification? =
      some ⟨method, params⟩ := rfl
  rw [Handlers.notification, on_of_ne held notOpen, on_of_ne held notChange]

theorem notification_unknown
    (notOpen : method ≠ "textDocument/didOpen")
    (notChange : method ≠ "textDocument/didChange")
    (notClose : method ≠ "textDocument/didClose") :
    handlers.notification decoder host ⟨method, params⟩ = .none host := by
  have held : (NotificationDispatcher.new ⟨method, params⟩ host).notification? =
      some ⟨method, params⟩ := rfl
  rw [notification_other notOpen notChange, on_of_ne held notClose]
  rfl

end Handlers

/-! ## Hosts -/

namespace Host

variable {Document : Type} {decoder : Decoder} {sink : Sink Document} {host : Host Document}

/-- The change to the open documents that a notification asks for. -/
def edit (sink : Sink Document) (host : Host Document) : Edit → Host Document
  | .opening uri text => (host.didOpen sink ⟨uri, text⟩).1
  | .change uri changes => (host.didChange ⟨uri, changes⟩).1
  | .closing uri => (host.didClose uri).1

/-- The answer to a request from what is kept of the open documents. -/
def answer
    (decoder : Decoder)
    (sink : Sink Document)
    (host : Host Document)
    (method : String)
    (params : Json) :
    Except RequestFault Json :=
  match Question.ofMethod? method with
  | none => .error .unknownMethod
  | some question =>
    match decoder.query question params with
    | .error reason => .error (.invalidParams method reason params)
    | .ok uri => .ok (.ofOption (sink.answer question) (host.documents.get? uri))

/-- A request is answered and changes nothing. -/
theorem request_eq
    (request : Request) :
    (handlers sink).request decoder host request =
      ⟨host, [⟨request.id, host.answer decoder sink request.method request.params⟩], []⟩ := by
  rw [answer]
  cases asked : Question.ofMethod? request.method with
  | none => exact Handlers.request_unknown asked
  | some question =>
      have asks := Question.ofMethod?_eq_some.mp asked
      dsimp only
      cases outcome : decoder.query question request.params with
      | error reason => exact Handlers.request_undecoded asks outcome
      | ok uri =>
          rw [Handlers.request_decoded asks outcome]
          cases question with
          | foldingRanges => rfl
          | symbols => rfl

/-- A notification makes the change that it asks for, or none. -/
theorem host_notification
    (method : String)
    (params : Json) :
    ((handlers sink).notification decoder host ⟨method, params⟩).host =
      ((Edit.ofNotification? decoder method params).map (host.edit sink)).getD host := by
  by_cases opens : method = "textDocument/didOpen"
  · rw [Handlers.notification_didOpen opens]
    refine (NotificationDispatcher.on_same rfl opens).2.trans ?_
    subst opens
    simp only [NotificationDispatcher.handled, Edit.ofNotification?]
    cases decoder.opened params <;> rfl
  by_cases changes : method = "textDocument/didChange"
  · rw [Handlers.notification_didChange changes]
    refine (NotificationDispatcher.on_same rfl changes).2.trans ?_
    subst changes
    simp only [NotificationDispatcher.handled, Edit.ofNotification?]
    cases decoder.changed params <;> rfl
  by_cases closes : method = "textDocument/didClose"
  · rw [Handlers.notification_other opens changes]
    refine (NotificationDispatcher.on_same rfl closes).2.trans ?_
    subst closes
    simp only [NotificationDispatcher.handled, Edit.ofNotification?]
    cases decoder.closed params <;> rfl
  · rw [Handlers.notification_unknown opens changes closes]
    simp [Edit.ofNotification?, Reaction.none]

theorem responses_notification
    (notification : Notification) :
    ((handlers sink).notification decoder host notification).responses = [] :=
  rfl

/-- Before it is asked to shut down, a host hands every message to its handlers. -/
theorem receive_eq
    (serving : host.phase = .serving)
    {message : Message}
    (stays : message.isShutdown = false) :
    host.receive decoder sink message = (handlers sink).message decoder host message := by
  unfold receive
  rw [serving]
  cases message with
  | request id method params =>
      have other : method ≠ "shutdown" := by simpa [Message.isShutdown] using stays
      exact if_neg other
  | notification method params => rfl
  | response => rfl

/-! ## Hosts and the server -/

/-- The server that keeps the same documents. -/
def server (host : Host OpenDocument) : Server :=
  ⟨host.pool.state, host.phase⟩

theorem edit_server
    (host : Host OpenDocument)
    (edit : Edit) :
    (host.edit .plain edit).server = host.server.edit edit := by
  cases edit with
  | opening uri text => rfl
  | closing uri => rfl
  | change uri changes =>
      have same : host.server.state.views = host.documents := rfl
      simp only [Host.edit, didChange, Server.edit, same]
      cases changes.getLast? with
      | none =>
          dsimp only
          split
          · rfl
          · rfl
      | some text =>
          dsimp only
          split
          · rfl
          · rfl

/-- A host responds as a server does that is in the same phase and gives the same answers. -/
theorem responses_server
    {host : Host Document}
    {server : Server}
    (phases : server.phase = host.phase)
    (answers : ∀ method params,
      host.answer decoder sink method params = server.answer decoder method params)
    (message : Message) :
    (host.receive decoder sink message).responses =
      (server.receiveWith decoder message).2.toList := by
  cases phase : host.phase with
  | gone properly => simp [receive, Server.receiveWith, phases, phase, Reaction.none]
  | leaving =>
      cases message with
      | request id method params | response =>
          simp [receive, Server.receiveWith, phases, phase, Reaction.none]
      | notification method params =>
          by_cases exits : method = "exit"
          · simp [receive, Server.receiveWith, phases, phase, Reaction.none, exits]
          · simp [receive, Server.receiveWith, phases, phase, Reaction.none, exits]
  | serving =>
      have served : server.phase = .serving := phases.trans phase
      cases message with
      | request id method params =>
          by_cases shuts : method = "shutdown"
          · simp [receive, Server.receiveWith, served, phase, shuts]
          · rw [receive_eq phase (by simp [Message.isShutdown, shuts]), Handlers.message,
              request_eq]
            simp [Server.receiveWith, served, shuts, answers]
      | notification method params =>
          rw [receive_eq phase rfl, Handlers.message, responses_notification]
          simp only [Server.receiveWith, served]
          cases Edit.ofNotification? decoder method params with
          | none => rfl
          | some edit => rfl
      | response =>
          rw [receive_eq phase rfl]
          simp [Server.receiveWith, served, Handlers.message, Reaction.none]

/-- A host with plain documents takes in a message as the server does. -/
theorem receive_server
    (decoder : Decoder)
    (host : Host OpenDocument)
    (message : Message) :
    (host.receive decoder .plain message).host.server =
        (host.server.receiveWith decoder message).1 ∧
      (host.receive decoder .plain message).responses =
        (host.server.receiveWith decoder message).2.toList := by
  refine ⟨?_, responses_server rfl (fun _ _ => rfl) message⟩
  cases phase : host.phase with
  | gone properly => simp [receive, Server.receiveWith, server, phase, Reaction.none]
  | leaving =>
      cases message with
      | request id method params | response =>
          simp [receive, Server.receiveWith, server, phase, Reaction.none]
      | notification method params =>
          by_cases exits : method = "exit"
          · simp [receive, Server.receiveWith, server, phase, Reaction.none, exits]
          · simp [receive, Server.receiveWith, server, phase, Reaction.none, exits]
  | serving =>
      have served : host.server.phase = .serving := phase
      cases message with
      | request id method params =>
          by_cases shuts : method = "shutdown"
          · simp [receive, Server.receiveWith, server, phase, shuts]
          · rw [receive_eq phase (by simp [Message.isShutdown, shuts]), Handlers.message,
              request_eq]
            simp [Server.receiveWith, served, shuts]
      | notification method params =>
          rw [receive_eq phase rfl, Handlers.message, host_notification]
          simp only [Server.receiveWith, served]
          cases Edit.ofNotification? decoder method params with
          | none => rfl
          | some edit => exact edit_server host edit
      | response =>
          rw [receive_eq phase rfl]
          simp [Server.receiveWith, served, Handlers.message, Reaction.none]

/-- A host with plain documents applies what was received as the server does. -/
theorem apply_server
    (host : Host OpenDocument)
    (serving : host.phase = .serving) :
    (host.apply .plain).server = ⟨host.server.state.drain.1, .serving⟩ := by
  unfold apply
  rw [serving]
  simp only [server, emptied, pending, Reparser.Applied.drain, Reparser.Applied.applyBatch,
    ← Reparser.Applied.applyEach_display]
  rfl

end Host

end LuaFold.Server
