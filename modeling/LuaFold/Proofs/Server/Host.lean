import LuaFold.Proofs.Reparse.Pool
import LuaFold.Server.Dispatcher

/-!
# Hosts

A host is a server in all its parts.  Any number of workers serve its queue, messages go through
dispatchers, and what it keeps of an open document is up to a sink, which takes regions and
outline in two calls.

With documents that keep their text, a host takes in messages and applies results as the server
does.
-/

namespace LuaFold

namespace Server

/-- A submitted text.  The number of the submission tells it from all other texts. -/
structure Snapshot where
  number : Nat
  text : Text
deriving DecidableEq, Repr

/-- What is kept of an open document, how results are put into it and how it is asked. -/
structure Sink (Document : Type) where
  create : Snapshot → Document
  updateFoldings : Document → Snapshot → List Region → Document
  updateOutline : Document → List OutlineEntry → Document
  answer : Question → Document → Json

namespace Sink

/-- Put a result into a document: first the regions, then the outline. -/
def refresh
    {Document : Type}
    (sink : Sink Document)
    (document : Document)
    (update : Update String) :
    Document :=
  sink.updateOutline
    (sink.updateFoldings document ⟨update.sequence, update.text⟩ update.regions)
    (outline update.regions)

/-- Documents that keep their text and are asked about it. -/
def plain : Sink OpenDocument where
  create snapshot := .unparsed snapshot.text
  updateFoldings document snapshot regions := ⟨snapshot.text, regions, document.outline⟩
  updateOutline document entries := ⟨document.text, document.regions, entries⟩
  answer := Question.answer

end Sink

end Server

namespace Reparser.Applied

variable {Document View : Type} [DecidableEq Document]

/-- Apply an update as `apply` does, with the whole update given to the view. -/
def applyWith
    (refresh : View → Update Document → View)
    (state : Applied Document View)
    (update : Update Document) :
    Applied Document View × Bool :=
  match state.reparser.documents.get? update.document with
  | none => (state, false)
  | some known =>
    if update.sequence ≤ known.applied then (state, false)
    else
      match state.views.get? update.document with
      | none => (state, false)
      | some view =>
        let documents := state.reparser.documents.set update.document
          { known with applied := update.sequence }
        (⟨{ state.reparser with documents := documents },
          state.views.set update.document (refresh view update)⟩, true)

/-- Apply updates one after the other. -/
def applyEach
    (refresh : View → Update Document → View)
    (state : Applied Document View)
    (updates : List (Update Document)) :
    Applied Document View :=
  updates.foldl (fun state update => (state.applyWith refresh update).1) state

/-- Those of some updates that views take when they are applied one after the other. -/
def takenWith
    (refresh : View → Update Document → View)
    (state : Applied Document View) :
    List (Update Document) → List (Update Document)
  | [] => []
  | update :: updates =>
    let reached := state.applyWith refresh update
    (if reached.2 then [update] else []) ++ reached.1.takenWith refresh updates

/-- What an update can do: it is taken by a view, or nothing happens. -/
theorem applyWith_cases
    (refresh : View → Update Document → View)
    (state : Applied Document View)
    (update : Update Document) :
    (∃ known view, state.reparser.documents.get? update.document = some known ∧
      state.views.get? update.document = some view ∧
      known.applied < update.sequence ∧
      state.applyWith refresh update =
        (⟨{ state.reparser with
            documents := state.reparser.documents.set update.document
              { known with applied := update.sequence } },
          state.views.set update.document (refresh view update)⟩, true)) ∨
      state.applyWith refresh update = (state, false) := by
  rw [applyWith]
  split
  · exact Or.inr rfl
  · next known stated =>
    split
    · exact Or.inr rfl
    · next newer =>
      split
      · exact Or.inr rfl
      · next view shown => exact Or.inl ⟨known, view, stated, shown, Nat.lt_of_not_le newer, rfl⟩

/-- Applying updates changes the views and the states of documents only. -/
theorem reparser_applyEach
    (refresh : View → Update Document → View)
    (state : Applied Document View)
    (updates : List (Update Document)) :
    ∃ documents, (state.applyEach refresh updates).reparser =
      { state.reparser with documents := documents } := by
  induction updates generalizing state with
  | nil => exact ⟨_, rfl⟩
  | cons update updates ih =>
      obtain ⟨documents, rest⟩ := ih (state.applyWith refresh update).1
      refine ⟨documents, rest.trans ?_⟩
      rcases applyWith_cases refresh state update with ⟨_, _, _, _, _, taken⟩ | same
      · rw [taken]
      · rw [same]

/-- Applying updates neither adds views nor removes them. -/
theorem isSome_views_applyEach
    (refresh : View → Update Document → View)
    (state : Applied Document View)
    (updates : List (Update Document))
    (document : Document) :
    ((state.applyEach refresh updates).views.get? document).isSome =
      (state.views.get? document).isSome := by
  induction updates generalizing state with
  | nil => rfl
  | cons update updates ih =>
      refine (ih (state.applyWith refresh update).1).trans ?_
      rcases applyWith_cases refresh state update with ⟨_, _, _, shown, _, taken⟩ | same
      · rw [taken, Table.get?_set]
        split
        · next here =>
          subst here
          rw [shown]
          rfl
        · rfl
      · rw [same]

theorem applyEach_display
    [Display View]
    (state : Applied Document View)
    (updates : List (Update Document)) :
    state.applyEach
        (fun view update =>
          Display.refresh view update.text update.regions (outline update.regions)) updates =
      (state.applyAll updates).1 := by
  rw [applyEach, applyAll]
  generalize 0 = count
  induction updates generalizing state count with
  | nil => rfl
  | cons update updates ih => exact ih (state.apply update).1 _

end Reparser.Applied

namespace Server

/-- A server in all its parts. -/
structure Host (Document : Type) where
  pool : Reparser.Pool String Document
  phase : Phase

namespace Host

/-- What happens next: a message comes in, a worker moves, or what was received is applied. -/
inductive Move where
  | receive (message : Message)
  | pickUp (sequence : Nat) (faulty : Bool)
  | finish (sequence : Nat)
  | apply

/-- The message that comes in with a move, if there is one. -/
def Move.message? : Move → Option Message
  | .receive message => some message
  | .pickUp _ _ => none
  | .finish _ => none
  | .apply => none

def messages (moves : List Move) : List Message :=
  moves.filterMap Move.message?

theorem messages_append (moves more : List Move) :
    messages (moves ++ more) = messages moves ++ messages more :=
  List.filterMap_append

theorem messages_cons
    (move : Move)
    (moves : List Move) :
    messages (move :: moves) = move.message?.toList ++ messages moves := by
  rw [messages, List.filterMap_cons]
  cases move.message? with
  | none => rfl
  | some message => rfl

variable {Document : Type}

/-- A host without open documents. -/
def new (coalesce : Bool) : Host Document :=
  ⟨⟨⟨.new coalesce, .empty⟩, [], [], [], []⟩, .serving⟩

def reparser (host : Host Document) : Reparser String :=
  host.pool.state.reparser

def documents (host : Host Document) : Table String Document :=
  host.pool.state.views

/-- Replace the reparser and the open documents. -/
def withState
    (host : Host Document)
    (reparser : Reparser String)
    (documents : Table String Document) :
    Host Document :=
  ⟨host.pool.amid ⟨reparser, documents⟩, host.phase⟩

/-! ## Handlers -/

/-- Answer a question about a document; there is no answer for one that is not open. -/
def ask
    (sink : Sink Document)
    (question : Question)
    (host : Host Document)
    (uri : String) :
    Host Document × Except RequestFault Json :=
  (host, .ok (.ofOption (sink.answer question) (host.documents.get? uri)))

def didOpen
    (sink : Sink Document)
    (host : Host Document)
    (opened : OpenedText) :
    Host Document × Except NotificationFault Unit :=
  let document := sink.create ⟨host.reparser.nextSequence, opened.text⟩
  (host.withState (host.reparser.schedule opened.uri opened.text)
    (host.documents.set opened.uri document), .ok ())

def didChange
    (host : Host Document)
    (changed : ChangedText) :
    Host Document × Except NotificationFault Unit :=
  if host.documents.contains changed.uri then
    match changed.changes.getLast? with
    | some text =>
      (host.withState (host.reparser.schedule changed.uri text) host.documents, .ok ())
    | none => (host, .error .withoutContent)
  else (host, .error (.notOpen changed.uri))

def didClose
    (host : Host Document)
    (uri : String) :
    Host Document × Except NotificationFault Unit :=
  (host.withState (host.reparser.forget uri) (host.documents.remove uri), .ok ())

def handlers (sink : Sink Document) : Handlers (Host Document) where
  foldingRange := ask sink .foldingRanges
  documentSymbol := ask sink .symbols
  didOpen := didOpen sink
  didChange := didChange
  didClose := didClose

/-! ## The loop -/

/-- Take in one message. -/
def receive
    (decoder : Decoder)
    (sink : Sink Document)
    (host : Host Document)
    (message : Message) :
    Reaction (Host Document) :=
  match host.phase, message with
  | .gone _, _ => .none host
  | .leaving, .notification "exit" _ => .none ⟨host.pool, .gone true⟩
  | .leaving, _ => .none ⟨host.pool, .gone false⟩
  | .serving, .request id method params =>
    if method = "shutdown" then ⟨⟨host.pool, .leaving⟩, [⟨id, .ok .null⟩], []⟩
    else (handlers sink).message decoder host (.request id method params)
  | .serving, message => (handlers sink).message decoder host message

/-- The reparser and the documents with nothing received. -/
def emptied (host : Host Document) : Reparser.Applied String Document :=
  ⟨{ host.reparser with received := [] }, host.documents⟩

/-- The results received so far, the newest of each document. -/
def pending (host : Host Document) : List (Update String) :=
  (Reparser.newestUpdates host.reparser.received).values

/-- Apply everything received so far as one batch, while the server is in service. -/
def apply (sink : Sink Document) (host : Host Document) : Host Document :=
  match host.phase with
  | .serving =>
    ⟨{ host.pool with
        state := host.emptied.applyEach sink.refresh host.pending
        delivered := host.pool.delivered ++
          host.emptied.takenWith sink.refresh host.pending },
      host.phase⟩
  | _ => host

/-- The host after a move, and the responses to it. -/
def perform
    (decoder : Decoder)
    (sink : Sink Document)
    (host : Host Document) :
    Move → Host Document × List Response
  | .receive message =>
    let reaction := host.receive decoder sink message
    (reaction.host, reaction.responses)
  | .pickUp sequence faulty => (⟨host.pool.pickUp sequence faulty, host.phase⟩, [])
  | .finish sequence => (⟨host.pool.finish sequence, host.phase⟩, [])
  | .apply => (host.apply sink, [])

/-- The host after moves. -/
def reach
    (decoder : Decoder)
    (sink : Sink Document)
    (host : Host Document)
    (moves : List Move) :
    Host Document :=
  moves.foldl (fun host move => (host.perform decoder sink move).1) host

/-- The responses to the requests among moves. -/
def responses
    (decoder : Decoder)
    (sink : Sink Document)
    (host : Host Document) :
    List Move → List Response
  | [] => []
  | move :: moves =>
    (host.perform decoder sink move).2 ++
      (host.perform decoder sink move).1.responses decoder sink moves

section Reach

variable (decoder : Decoder) (sink : Sink Document) (host : Host Document)

@[simp]
theorem reach_nil : host.reach decoder sink [] = host :=
  rfl

theorem reach_append
    (moves more : List Move) :
    host.reach decoder sink (moves ++ more) =
      (host.reach decoder sink moves).reach decoder sink more :=
  List.foldl_append

@[simp]
theorem reach_cons
    (move : Move)
    (moves : List Move) :
    host.reach decoder sink (move :: moves) =
      (host.perform decoder sink move).1.reach decoder sink moves :=
  rfl

end Reach

end Host

end Server

end LuaFold
