import LuaFold.Reparse.Reparser

/-!
# Reparse sessions

A session drives a reparser step by step, with views that record what they show.  Its worker
runs every submission at once, unless it is held: then it starts on the first submission and
leaves the others queued until it is released.

Received updates can be put into numbered slots, to be applied later, more than once or in
another order; updates can also be made by hand.
-/

namespace LuaFold

/-- A view that records what it shows and how often that was replaced. -/
structure Recorder where
  text? : Option Text
  regions : List Region
  outline : List OutlineEntry
  updates : Nat
deriving DecidableEq, Repr

/-- A view that shows nothing yet. -/
def Recorder.blank : Recorder :=
  ⟨none, [], [], 0⟩

instance : Display Recorder where
  refresh recorder text regions outline := ⟨some text, regions, outline, recorder.updates + 1⟩

namespace Session

/-- A step of a session. -/
inductive Step where
  | addView (document : String)
  | removeView (document : String)
  | schedule (document : String) (text : Text)
  | hold
  | release
  | failNext
  | forget (document : String)
  | drain
  | take
  | forge (document : String) (sequence : Nat) (text : Text)
  | apply (slot : Nat)
  | applyBatch (slots : List Nat)
  | observe (document : String)
  | settings
deriving DecidableEq, Repr

/-- What a step of a session answers. -/
inductive Answer where
  | nothing
  | flag (value : Bool)
  | count (value : Nat)
  | taken (updates : List (Nat × Update String))
  | shown (view? : Option Recorder)
  | settings (threads : Nat) (coalesce : Bool)

end Session

/-- A session: the reparser with its views, the worker's condition and the filled slots. -/
structure Session where
  threads : Nat
  state : Reparser.Applied String Recorder
  held : Bool
  failing : Bool
  slots : List (Update String)

namespace Session

/-- A session without documents. -/
def new (threads : Nat) (coalesce : Bool) : Session :=
  ⟨threads, ⟨.new coalesce, .empty⟩, false, false, []⟩

/-- Replace the reparser of a session. -/
def withReparser (session : Session) (reparser : Reparser String) : Session :=
  { session with state := ⟨reparser, session.state.views⟩ }

/-- Replace the views of a session. -/
def withViews (session : Session) (views : Table String Recorder) : Session :=
  { session with state := ⟨session.state.reparser, views⟩ }

/-- Let the worker pick up one submission.  If it starts, it uses up a pending failure. -/
def pickUp (session : Session) : Session :=
  let reparser := session.state.reparser.pickUp session.failing
  { session.withReparser reparser with
    failing := session.failing && reparser.running?.isNone }

/-- Let the worker finish what it is running. -/
def finish (session : Session) : Session :=
  session.withReparser session.state.reparser.finish

/-- Let the worker run a number of queued submissions, after what it is running. -/
def runMany (session : Session) : Nat → Session
  | 0 => session.finish
  | count + 1 => session.finish.pickUp.runMany count

/-- Let the worker do what it can: everything, or only start if it is held. -/
def work (session : Session) : Session :=
  if session.held then
    if session.state.reparser.running?.isNone then session.pickUp else session
  else session.runMany session.state.reparser.queue.length

/-- Fill a slot for each update, and say which. -/
def fillSlots
    (session : Session)
    (updates : List (Update String)) :
    Session × List (Nat × Update String) :=
  let numbered := updates.zipIdx session.slots.length
  ({ session with slots := session.slots ++ updates },
    numbered.map fun (update, slot) => (slot, update))

/-- The updates in slots. -/
def inSlots (session : Session) (slots : List Nat) : List (Update String) :=
  slots.filterMap fun slot => session.slots[slot]?

/-- Perform a step. -/
def perform (session : Session) : Step → Session × Answer
  | .addView document =>
    let views := session.state.views
    (session.withViews (views.set document .blank), .flag (views.contains document))
  | .removeView document =>
    let views := session.state.views
    (session.withViews (views.remove document), .flag (views.contains document))
  | .schedule document text =>
    let reparser := session.state.reparser
    ((session.withReparser (reparser.schedule document text)).work,
      .count reparser.nextSequence)
  | .hold => ({ session with held := true }, .nothing)
  | .release => ({ session with held := false }.work, .nothing)
  | .failNext => ({ session with failing := true }, .nothing)
  | .forget document =>
    (session.withReparser (session.state.reparser.forget document), .nothing)
  | .drain =>
    let (state, count) := session.state.drain
    ({ session with state := state }, .count count)
  | .take =>
    let reparser := session.state.reparser
    let (session, numbered) := session.fillSlots reparser.received
    (session.withReparser { reparser with received := [] }, .taken numbered)
  | .forge document sequence text =>
    let (session, numbered) :=
      session.fillSlots [⟨document, sequence, text, foldRegions text⟩]
    (session, .count ((numbered.head?.map Prod.fst).getD 0))
  | .apply slot =>
    match session.slots[slot]? with
    | none => (session, .flag false)
    | some update =>
      let (state, taken) := session.state.apply update
      ({ session with state := state }, .flag taken)
  | .applyBatch slots =>
    let (state, count) := session.state.applyBatch (session.inSlots slots)
    ({ session with state := state }, .count count)
  | .observe document => (session, .shown (session.state.views.get? document))
  | .settings => (session, .settings session.threads session.state.reparser.coalesce)

/-- The answers of steps performed one after the other. -/
def run (session : Session) (steps : List Step) : List Answer :=
  (steps.foldl
    (fun (session, answers) step =>
      let (session, answer) := session.perform step
      (session, answer :: answers))
    (session, ([] : List Answer))).2.reverse

end Session

end LuaFold
