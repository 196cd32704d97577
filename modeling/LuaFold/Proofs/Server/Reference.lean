import LuaFold.Proofs.Server.Indexed
import Mathlib.Logic.Function.Basic

/-!
# A plain table of texts

A reference server knows nothing of reparsing.  It keeps the text of each open document and
finds the regions of a text when it is asked about it.

A sink keeps up with it if what a document shows after a result is what the reference server finds
in the text of the result.  Documents that keep an index of their lines do so as long as a number
stands for one text.
-/

namespace LuaFold.Server

/-! ## The reference server -/

/-- The texts of the open documents. -/
abbrev Texts :=
  String → Option Text

namespace Texts

/-- Make a change to the texts.  A change of a document that is not open makes none. -/
def edit (texts : Texts) : Edit → Texts
  | .opening uri text => Function.update texts uri (some text)
  | .change uri changes =>
    match changes.getLast?, texts uri with
    | some text, some _ => Function.update texts uri (some text)
    | _, _ => texts
  | .closing uri => Function.update texts uri none

/-- What is known of a document as soon as it is asked about. -/
def document (text : Text) : OpenDocument :=
  ⟨text, foldRegions text, outline (foldRegions text)⟩

/-- Answer a request from the regions of the text that it is about. -/
def answer
    (decoder : Decoder)
    (texts : Texts)
    (method : String)
    (params : Json) :
    Except RequestFault Json :=
  match Question.ofMethod? method with
  | none => .error .unknownMethod
  | some question =>
    match decoder.query question params with
    | .error reason => .error (.invalidParams method reason params)
    | .ok uri => .ok (.ofOption (fun text => question.answer (document text)) (texts uri))

/-- Take in one message and give the response to it, if it is a request. -/
def receive
    (decoder : Decoder)
    (texts : Texts) :
    Message → Texts × Option Response
  | .request id method params => (texts, some ⟨id, texts.answer decoder method params⟩)
  | .notification method params =>
    match Edit.ofNotification? decoder method params with
    | some edit => (texts.edit edit, none)
    | none => (texts, none)
  | .response => (texts, none)

/-- The responses to the requests among messages. -/
def responses
    (decoder : Decoder)
    (texts : Texts) :
    List Message → List Response
  | [] => []
  | message :: messages =>
    (texts.receive decoder message).2.toList ++
      (texts.receive decoder message).1.responses decoder messages

end Texts

/-! ## Sinks that keep one text at a time -/

namespace Sink

variable {Document : Type}

/-- A document answers every question as the reference server does about a text. -/
def Shows
    (sink : Sink Document)
    (document : Document)
    (text : Text) :
    Prop :=
  ∀ question, sink.answer question document = question.answer (Texts.document text)

/--
What documents hold is the text that they were created with or that came with the last result, as
long as a number stands for one text.
-/
structure Keeps
    (sink : Sink Document)
    (Holds : Document → Snapshot → Prop) :
    Prop where
  created : ∀ snapshot, Holds (sink.create snapshot) snapshot
  refreshed : ∀ document snapshot (update : Update String),
    Holds document snapshot →
      (snapshot.number = update.sequence → snapshot.text = update.text) →
        update.regions = foldRegions update.text →
          Holds (sink.refresh document update) ⟨update.sequence, update.text⟩ ∧
            sink.Shows (sink.refresh document update) update.text

theorem keeps_plain :
    plain.Keeps fun _ _ => True where
  created _ := trivial
  refreshed document snapshot update _ _ found := by
    refine ⟨trivial, fun question => ?_⟩
    simp only [refresh, plain, found]
    rfl

theorem keeps_indexed
    {Index : Type}
    (lines : Lines Index) :
    (indexed lines).Keeps fun document snapshot =>
      document.Coherent lines ∧ document.snapshot = snapshot where
  created snapshot := ⟨⟨rfl, Or.inl rfl, rfl⟩, rfl⟩
  refreshed document snapshot update holds same found := by
    obtain ⟨coherent, rfl⟩ := holds
    have refreshed := refresh_indexed coherent same
    rw [refreshed]
    refine ⟨⟨⟨rfl, Or.inr found, rfl⟩, rfl⟩, fun question => ?_⟩
    rw [answer_indexed ⟨rfl, Or.inr found, rfl⟩]
    simp only [plain, IndexedDocument.plain, Texts.document, found]

end Sink

end LuaFold.Server
